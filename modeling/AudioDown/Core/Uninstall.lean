/-
# AudioDown.Core.Uninstall — what a failed `uninstall` leaves behind

`uninstall` stops the plugin, has the Supervisor remove its image and its directory, and deletes the
record last.  The Supervisor finds the image through the directory and asks Docker for the image before
it removes anything, so a second attempt needs both.  A plugin that has both and a record can be
removed (`uninstall_quietly`), and no attempt to start or remove it succeeds without them, whatever
happens (`manageable_of_start`, `manageable_of_uninstall`).
-/
import AudioDown.Core.Joint
import AudioDown.Core.Site

namespace AudioDown.Core

open Lib Supervisor

/-! ## A plugin that can be started and removed -/

variable {reader : ManifestReader} {iid : String} {p : PluginId} {now : Timestamp}

/-- The Supervisor finds the plugin's directory, and Docker the image it names, with its labels. -/
def Site.Intact (reader : ManifestReader) (iid : String) (p : PluginId) (s : Site) : Prop :=
  ∃ install, load reader iid p (s.state.world.installed p) = .ok install ∧
    (s.state.world.images install.installed.imageId).isSome = true ∧
    labelsMatch install.expectedImageLabels (s.labels install.installed.imageId) = true

def Site.Manageable (reader : ManifestReader) (iid : String) (p : PluginId) (s : Site) : Prop :=
  (∃ row, s.state.store.get p = some row ∧ PluginStore.validPriority row.priority = true) ∧
    s.Intact reader iid p

def Site.relieved (p : PluginId) (s : Site) : Site :=
  { s with credentials := s.credentials.filter fun credential => credential.sourcePluginId ≠ some p }

/-- The plugin can still be started, or removed once nothing refers to it. -/
def Retryable (reader : ManifestReader) (iid : String) (now : Timestamp) (p : PluginId) (s : Site) : Prop :=
  (∃ record s', s.quietly reader iid now (start p) = (.ok record, s')) ∨
    ∃ s', (s.relieved p).quietly reader iid now (uninstall p) = (.ok (), s') ∧ s'.state.store.get p = none

/-! ## Nothing comes back -/

def Remains (d d' : Option InstallDirectory) : Prop :=
  ∀ directory', d' = some directory' → ∃ directory, d = some directory ∧
    (∀ a, directory'.attestation = some a → directory.attestation = some a) ∧
    ∀ m, directory'.manifest = some m → directory.manifest = some m

theorem remains_rfl (d : Option InstallDirectory) : Remains d d :=
  fun directory h => ⟨directory, h, fun _ => id, fun _ => id⟩

variable {install : ValidatedInstall} {d d' : Option InstallDirectory}

theorem load_of_remains (h : Remains d d')
    (loads : load reader iid p d' = .ok install) : load reader iid p d = .ok install := by
  obtain ⟨directory', record, rfl, hrecord, -⟩ := load_eq_ok loads
  obtain ⟨directory, rfl, attestation, manifest⟩ := h directory' rfl
  simp only [load, hrecord, attestation record hrecord] at loads ⊢
  cases hmanifest : directory'.manifest with
  | none =>
    -- without a manifest nothing loads
    rw [hmanifest] at loads
    simp only [Supervisor.loadManaged] at loads
    split at loads
    · cases loads
    split at loads
    · cases loads
    split at loads
    · cases loads
    cases loads
  | some bytes =>
    rw [manifest bytes hmanifest, ← hmanifest]
    exact loads

/-- What is left of plugin `p` of site `s` in site `t`. -/
structure Site.Below (p : PluginId) (s t : Site) : Prop where
  directory : Remains (s.state.world.installed p) (t.state.world.installed p)
  images : ∀ imageId, (t.state.world.images imageId).isSome = true →
    (s.state.world.images imageId).isSome = true
  labels : t.labels = s.labels
  rows : ∀ row, t.state.store.get p = some row →
    ∃ row₀, s.state.store.get p = some row₀ ∧ row₀.priority = row.priority

theorem Site.Below.rfl {s : Site} : s.Below p s :=
  ⟨remains_rfl _, fun _ => id, .refl _, fun row h => ⟨row, h, .refl _⟩⟩

theorem Site.Below.intact {s t : Site} (h : s.Below p t) (intact : t.Intact reader iid p) :
    s.Intact reader iid p := by
  obtain ⟨install, loads, image, labels⟩ := intact
  exact ⟨install, load_of_remains h.directory loads, h.images _ image, h.labels ▸ labels⟩

theorem Site.Below.manageable {s t : Site} (h : s.Below p t)
    (manageable : t.Manageable reader iid p) : s.Manageable reader iid p := by
  obtain ⟨⟨row, hrow, priority⟩, intact⟩ := manageable
  obtain ⟨row₀, hrow₀, same⟩ := h.rows row hrow
  exact ⟨⟨row₀, hrow₀, by rw [same]; exact priority⟩, h.intact intact⟩

/-- A record of `p` with the priority site `s` has for it. -/
def Kept (p : PluginId) (s : Site) (record : InstallPluginRecord) : Prop :=
  record.pluginId = p ∧ ∃ row, s.state.store.get p = some row ∧ row.priority = record.priority

def Lessens (reader : ManifestReader) (iid : String) (p : PluginId) (s : Site) : SiteAct → Prop
  | .core (.savePlugin record) => Kept p s record
  | .core (.insertInstalling _) => False
  | .removeImage imageId => ∃ install, load reader iid p (s.state.world.installed p) = .ok install ∧
        imageId = install.installed.imageId
  | _ => True

/-- What such a site answers: nothing that was not in `s`. -/
def Shows (reader : ManifestReader) (iid : String) (p : PluginId) (s : Site) : (a : SiteAct) → a.Resp → Prop
  | .core (.getPlugin q), r => q = p → ∀ row, r = .ok (some row) → Kept p s row
  | .core (.savePlugin record), r => r = .ok () → PluginStore.validPriority record.priority = true
  | .loadInstall q, r => q = p → ∀ install, r = .ok install →
      load reader iid p (s.state.world.installed p) = .ok install
  | .inspectImage imageId, r => ∀ labels, r = .ok labels →
      (s.state.world.images imageId).isSome = true ∧ labels = s.labels imageId
  | _, _ => True

variable {record : InstallPluginRecord} {store : PluginStore} {row : InstallPluginRecord}

section
variable {s t : Site}

theorem row_of_step {a : CoreAct} {c : CoreOutcome} (rows : ∀ row, store.get p = some row →
      ∃ row₀, s.state.store.get p = some row₀ ∧ row₀.priority = row.priority)
    (lessens : Lessens reader iid p s (.core a)) (h : (coreStep a c store).2.get p = some row) :
    ∃ row₀, s.state.store.get p = some row₀ ∧ row₀.priority = row.priority := by
  cases coreStep_row a c store p with
  | same hsame => exact rows row (hsame ▸ h)
  | saved save hsaved =>
    cases hsaved.symm.trans h
    subst save
    exact lessens.2
  | inserted insert =>
    subst insert
    exact lessens.elim
  | completed _ present _ hcompleted =>
    have before := rows _ present
    cases hcompleted.symm.trans h
    exact before
  | touched _ present htouched =>
    have before := rows _ present
    cases htouched.symm.trans h
    exact before
  | rolledBack _ _ _ hnone | deleted _ hnone => cases hnone.symm.trans h

theorem remains_leaves (h : Remains d d') (c : SiteOutcome) : Remains d (c.leaves d') := by
  cases c with
  | failed => exact h
  | torn keepAttestation keepManifest =>
    intro directory hdirectory
    simp only [SiteOutcome.leaves, Option.map_eq_some_iff] at hdirectory
    obtain ⟨directory', hd', rfl⟩ := hdirectory
    obtain ⟨directory, hd, attestation, manifest⟩ := h directory' hd'
    refine ⟨directory, hd, fun a ha => attestation a ?_, fun m hm => manifest m ?_⟩
    · cases keepAttestation
      · cases ha
      · exact ha
    · cases keepManifest
      · cases hm
      · exact hm
  | _ =>
    intro directory hdirectory
    cases hdirectory

theorem siteStep_core (a : CoreAct) (c : SiteOutcome) (s : Site) : (siteStep reader iid (.core a) c s).2 = s ∨
      ∃ outcome, (siteStep reader iid (.core a) c s).2 =
        { s with state.store := (coreStep a outcome s.state.store).2 } := by
  cases a with
  | deletePlugin q =>
    simp only [siteStep]
    split
    · exact .inl rfl
    · exact .inr ⟨_, rfl⟩
  | _ => exact .inr ⟨_, rfl⟩

theorem Site.Below.step (h : s.Below p t) {a : SiteAct} (lessens : Lessens reader iid p s a)
    (c : SiteOutcome) : s.Below p (siteStep reader iid a c t).2 := by
  have setRunning : ∀ q up, s.Below p (t.setRunning q up) := fun _ _ =>
    ⟨h.directory, h.images, h.labels, h.rows⟩
  have setGeneration : ∀ q known, s.Below p (t.setGeneration q known) := fun _ _ =>
    ⟨h.directory, h.images, h.labels, h.rows⟩
  have dropImage : ∀ imageId, s.Below p (t.dropImage imageId) := by
    refine fun imageId => ⟨h.directory, fun id hid => h.images id ?_, h.labels, h.rows⟩
    by_cases hid' : id = imageId
    · subst hid'
      simp [Site.dropImage] at hid
    · simpa [Site.dropImage, hid'] using hid
  cases a with
  | core a =>
    rcases siteStep_core a c t with hsame | ⟨outcome, hstep⟩
    · rw [hsame]
      exact h
    · rw [hstep]
      exact ⟨h.directory, h.images, h.labels, fun row hrow => row_of_step h.rows lessens hrow⟩
  | registerToken q =>
    simp only [siteStep]
    split
    · exact h
    · exact setGeneration q true
  | revokeGeneration q => exact setGeneration q false
  | loadInstall q =>
    simp only [siteStep]
    split <;> exact h
  | cleanupRuntimeResources q =>
    cases c with
    | failed => exact h
    | _ => exact setRunning q false
  | inspectImage imageId =>
    simp only [siteStep]
    split <;> exact h
  | removeImage imageId =>
    cases c with
    | failed => exact h
    | _ => exact dropImage imageId
  | validateInstallDirectory q =>
    simp only [siteStep]
    split <;> exact h
  | removeInstallDirectory q =>
    simp only [siteStep]
    split
    · exact h
    · refine ⟨?_, h.images, h.labels, h.rows⟩
      show Remains _ (Function.update t.state.world.installed q _ p)
      by_cases hq : p = q
      · subst hq
        rw [Function.update_self]
        exact remains_leaves h.directory c
      · rw [Function.update_of_ne hq]
        exact h.directory
  | startRuntime install =>
    cases c with
    | failed | torn => exact h
    | _ => exact setRunning _ true
  | hasGeneration | inspectContainers | reply => exact h

theorem validPriority_of_saved {outcome : CoreOutcome}
    (h : (coreStep (.savePlugin record) outcome store).1 = .ok ()) :
    PluginStore.validPriority record.priority = true := by
  have saved : ∃ store', store.upsert record = .ok store' := by
    simp only [coreStep, PluginStore.statement] at h
    split at h
    · cases h
    · cases h
    · cases h
    · exact ⟨_, ‹_›⟩
  obtain ⟨store', hsaved⟩ := saved
  unfold PluginStore.upsert at hsaved
  split at hsaved
  · cases hsaved
  · rename_i hvalid
    simpa using hvalid

theorem Site.Below.shows (h : s.Below p t) (a : SiteAct) (c : SiteOutcome) :
    Shows reader iid p s a (siteStep reader iid a c t).1 := by
  cases a with
  | core a =>
    cases a with
    | getPlugin q =>
      rintro rfl row hrow
      have hget : some row = t.state.store.get q := query_eq_ok hrow
      exact ⟨Table.key_of_get hget.symm, h.rows row hget.symm⟩
    | savePlugin record => exact validPriority_of_saved
    | _ => trivial
  | loadInstall q =>
    rintro rfl install hinstall
    simp only [siteStep] at hinstall
    split at hinstall
    · cases hinstall
    · exact load_of_remains h.directory hinstall
  | inspectImage imageId =>
    intro labels hlabels
    simp only [siteStep] at hlabels
    split at hlabels
    · cases hlabels
    · rename_i hpresent
      simp only [Bool.or_eq_true, not_or, Option.isNone_iff_eq_none] at hpresent
      cases hlabels
      refine ⟨h.images _ (Option.isSome_iff_ne_none.mpr hpresent.2), ?_⟩
      rw [h.labels]
  | _ => trivial

end

/-! ## What the requests of Core come to -/

def SiteAct.Harmless : SiteAct → Prop
  | .core a => a.Plain
  | .removeImage _ | .removeInstallDirectory _ => False
  | _ => True

section
variable {possible : (a : SiteAct) → a.Resp → Prop} {P : SiteAct → Prop}

/-- The Supervisor has loaded the record and found the image it describes. -/
def Attested (possible : (a : SiteAct) → a.Resp → Prop) (p : PluginId) (install : ValidatedInstall) : Prop :=
  possible (.loadInstall p) (.ok install) ∧
    ∃ labels, possible (.inspectImage install.installed.imageId) (.ok labels) ∧
      labelsMatch install.expectedImageLabels labels = true

theorem issue_within (a : SiteAct) (h : P a) : (issue a).Within possible P fun r => possible a r :=
  ⟨h, fun _ hr => hr⟩

theorem issue_within_any {a : SiteAct} (h : P a) : (issue a).Within possible P fun _ => True :=
  (issue_within a h).weaken fun _ _ => trivial

theorem request_keeps {α : Type} {Q : α → Prop} {handler : HostM α} (replies : P .reply)
    (h : Keeps possible P Q handler) : Keeps possible P Q (request handler) := by
  refine .bind (.lift h) fun r hr => ?_
  cases r with
  | ok value =>
    refine .bind (.lift (issue_within_any replies)) fun arrived _ => ?_
    cases arrived
    · exact .throw
    · exact .pure (hr value rfl)
  | error e => exact .bind (.lift (issue_within_any replies)) fun _ _ => .throw

variable (harmless : ∀ a : SiteAct, a.Harmless → P a)
include harmless

theorem cleanup_keeps : Keeps possible P (fun _ => True) (docker (issue (.cleanupRuntimeResources p))) :=
  .mapErr (issue_within_any (harmless (.cleanupRuntimeResources p) trivial))

theorem checkImage_keeps (loaded : possible (.loadInstall p) (.ok install)) :
    Keeps possible P (fun _ => Attested possible p install) (checkImage install) := by
  refine .bind (.mapErr (issue_within (.inspectImage install.installed.imageId) (harmless _ trivial)))
    fun labels hlabels => ?_
  · split
    · exact .throw
    · rename_i hmatch
      exact .pure ⟨loaded, labels, hlabels, by simpa using hmatch⟩

theorem pluginStop_keeps : Keeps possible P (fun _ => True) (pluginStop p) :=
  .bind (cleanup_keeps harmless) fun _ _ => .pure trivial

theorem pluginStart_keeps :
    Keeps possible P (fun _ => ∃ install, Attested possible p install) (pluginStart p) := by
  refine .bind (.lift (issue_within (.loadInstall p) (harmless _ trivial))) fun r hr => ?_
  cases r with
  | error e =>
    exact .bind (.lift (issue_within_any (harmless _ trivial))) fun _ _ => .throw
  | ok install =>
    refine .bind (cleanup_keeps harmless) fun _ _ => ?_
    refine .bind (checkImage_keeps harmless hr) fun _ attested => ?_
    refine .bind (.lift (issue_within_any (harmless _ trivial))) fun r _ => ?_
    cases r with
    | ok logs => exact .pure ⟨install, attested⟩
    | error e => exact .bind (cleanup_keeps harmless) fun _ _ => .throw

/-- A plugin is removed only with the image its record describes, and the image goes first. -/
theorem pluginRemove_keeps (image : ∀ install, Attested possible p install →
      P (.removeImage install.installed.imageId)) (directory : ∀ install, Attested possible p install →
      possible (.removeImage install.installed.imageId) (.ok ()) →
      P (.removeInstallDirectory install.installed.pluginId)) :
    Keeps possible P (fun _ => ∃ install, Attested possible p install ∧
      possible (.removeImage install.installed.imageId) (.ok ())) (pluginRemove iid p) := by
  refine .bind (.mapErr (issue_within (.loadInstall p) (harmless _ trivial)))
    fun install loaded => ?_
  have removed : Keeps possible P (fun _ => ∃ install, Attested possible p install ∧
      possible (.removeImage install.installed.imageId) (.ok ())) (do
      docker (issue (.validateInstallDirectory install.installed.pluginId))
      docker (issue (.cleanupRuntimeResources install.installed.pluginId))
      checkImage install
      docker (issue (.removeImage install.installed.imageId))
      docker (issue (.removeInstallDirectory install.installed.pluginId))
      return ⟨install.installed.pluginId, true, true⟩ : HostM PluginRemoveResult) := by
    refine .bind (.mapErr (issue_within (.validateInstallDirectory _) (harmless _ trivial)))
      fun _ _ => ?_
    refine .bind (cleanup_keeps harmless) fun _ _ => ?_
    refine .bind (checkImage_keeps harmless loaded) fun _ attested => ?_
    refine .bind (.mapErr (issue_within (.removeImage _) (image install attested)))
      fun _ gone => ?_
    refine .bind (.mapErr (issue_within (.removeInstallDirectory _)
      (directory install attested gone))) fun (_ : Unit) _ => ?_
    exact .pure ⟨install, attested, gone⟩
  show Keeps possible P _ (if _ then _ else _)
  split
  · exact .thrown
  · exact removed

theorem stopControl_keeps : Keeps possible P (fun _ => True) (stopControl p) := by
  refine .bind (Q := fun _ => True) ?_ fun _ _ =>
    .bind (.lift (issue_within_any (harmless _ trivial))) fun _ _ => .pure trivial
  refine .bind (request_keeps (harmless _ trivial) (pluginStop_keeps harmless)) fun _ _ => ?_
  split
  · exact .throw
  · exact .pure trivial

theorem confirmCleanup_keeps : Keeps possible P (fun _ => True) (confirmCleanup p) := by
  refine .bind (request_keeps (harmless _ trivial) (pluginStop_keeps harmless)) fun _ _ => ?_
  split
  · exact .throw
  · exact .pure trivial

theorem inspectControl_keeps : Keeps possible P (fun _ => True) (inspectControl p) := by
  have inspected : Keeps possible P (fun _ => True) (pluginInspect p) :=
    .bind (.mapErr (issue_within (.inspectContainers p) (harmless _ trivial)))
      fun _ _ => .pure trivial
  refine .bind (.lift (issue_within_any (harmless _ trivial))) fun known _ => ?_
  refine .bind (.lift (request_keeps (harmless _ trivial) inspected)) fun r _ => ?_
  cases r with
  | ok state =>
    show Keeps possible P _ (if _ then _ else _)
    split
    · exact .pure trivial
    · exact stopControl_keeps harmless
  | error e => exact stopControl_keeps harmless

theorem startControl_keeps :
    Keeps possible P (fun _ => ∃ install, Attested possible p install) (startControl p) := by
  have generation : Keeps possible P (fun _ => ∃ install, Attested possible p install) (startGeneration p) := by
    refine .bind ((issue_within (.registerToken p) (harmless _ trivial)).weaken fun _ _ _ _ => trivial)
      fun _ _ => ?_
    refine .bind (.lift (request_keeps (harmless _ trivial) (pluginStart_keeps harmless)))
      fun r hr => ?_
    cases r with
    | ok state => exact .pure (hr state rfl)
    | error e =>
      refine .bind (confirmCleanup_keeps harmless) fun _ _ => ?_
      exact .bind (.lift (issue_within_any (harmless _ trivial))) fun _ _ => .throw
  refine .bind (.lift (issue_within_any (harmless _ trivial))) fun known _ => ?_
  cases known
  · exact generation
  · exact .bind (stopControl_keeps harmless) fun _ _ => generation

end

/-! ## Methods of Core, on site -/

/-- What a site may answer and what a method may do to it, seen from plugin `p` and a property `K` of
its records. -/
structure Allows (possible : (a : SiteAct) → a.Resp → Prop) (P : SiteAct → Prop)
    (K : InstallPluginRecord → Prop) (p : PluginId) : Prop where
  harmless : ∀ a : SiteAct, a.Harmless → P a
  changed : ∀ record status lastError lastUsedAt updatedAt, K record →
    K { record with status, lastError, lastUsedAt, updatedAt }
  named : ∀ record, K record → record.pluginId = p
  reads : ∀ row, possible (.core (.getPlugin p)) (.ok (some row)) → K row
  saves : ∀ record, K record → P (.core (.savePlugin record))
  image : ∀ install, Attested possible p install → P (.removeImage install.installed.imageId)
  directory : ∀ install, Attested possible p install →
    possible (.removeImage install.installed.imageId) (.ok ()) →
      P (.removeInstallDirectory install.installed.pluginId)
  deletes : ∀ install, Attested possible p install →
    possible (.removeImage install.installed.imageId) (.ok ()) → P (.core (.deletePlugin p))

def Told (possible : (a : SiteAct) → a.Resp → Prop) (p : PluginId) : (a : CoreAct) → a.Resp → Prop
  | .startRuntime q, r => q = p → ∀ state, r = .ok state → ∃ install, Attested possible p install
  | .removeRuntime q, r => q = p → ∀ result, r = .ok result → ∃ install,
      Attested possible p install ∧ possible (.removeImage install.installed.imageId) (.ok ())
  | .stopRuntime _, _ | .inspectRuntime _, _ => True
  | a, r => possible (.core a) r

def Asked (P : SiteAct → Prop) (p : PluginId) : CoreAct → Prop
  | .removeRuntime q => q = p
  | .startRuntime _ | .stopRuntime _ | .inspectRuntime _ => True
  | a => P (.core a)

section
variable {possible : (a : SiteAct) → a.Resp → Prop} {P : SiteAct → Prop}
  {K : InstallPluginRecord → Prop} (allows : Allows possible P K p)
include allows

theorem translate_within {a : CoreAct} (h : Asked P p a) :
    (translate iid a).Within possible P (Told possible p a) := by
  cases a with
  | startRuntime q =>
    refine .weaken (startControl_keeps allows.harmless) fun r hr => ?_
    rintro rfl state hstate
    exact hr state hstate
  | stopRuntime q => exact .weaken (stopControl_keeps allows.harmless) fun _ _ => trivial
  | inspectRuntime q => exact .weaken (inspectControl_keeps allows.harmless) fun _ _ => trivial
  | removeRuntime q =>
    have hq : q = p := h
    subst hq
    have removed := request_keeps (allows.harmless _ trivial)
      (@pluginRemove_keeps iid q possible P allows.harmless allows.image allows.directory)
    refine .weaken (removed.bind fun value hvalue =>
      Keeps.bind (Keeps.lift (issue_within_any (allows.harmless _ trivial))) fun _ _ =>
          Keeps.pure hvalue) fun r hr _ => hr
  | _ => exact issue_within _ h

theorem Allows.saving : Saving (Asked P p) K where
  changed record status lastError lastUsedAt updatedAt h _ :=
    allows.changed record status lastError lastUsedAt updatedAt h
  saves record h := allows.saves record h
  plain a h := by
    cases a with
    | savePlugin | insertInstalling | completeInstall | rollbackInstall | deletePlugin | removeRuntime
    | supervisor => exact h.elim
    | startRuntime | stopRuntime | inspectRuntime => trivial
    | _ => exact allows.harmless _ trivial

theorem start_onSite : (onSite iid (start p)).Within possible P fun r =>
    ∀ value, r = .ok value → ∃ record install, K record ∧
      possible (.core (.savePlugin record)) (.ok ()) ∧ Attested possible p install := by
  refine (Prog.Within.substitute (start_saves allows.saving allows.reads)
    fun a ha => translate_within allows ha).weaken fun r hr value hvalue => ?_
  obtain ⟨record, record', state, h, h', started, saved⟩ := hr value hvalue
  obtain ⟨install, attested⟩ := started (allows.named record h) state rfl
  exact ⟨record', install, h', saved, attested⟩

theorem uninstall_onSite : (onSite iid (uninstall p)).Within possible P fun r =>
    ∀ value, r = .ok value → ∃ record install, K record ∧
      possible (.core (.savePlugin record)) (.ok ()) ∧ Attested possible p install := by
  have deletes : ∀ result, Told possible p (.removeRuntime p) (.ok result) → Asked P p (.deletePlugin p) := by
    intro result removed
    obtain ⟨install, attested, gone⟩ := removed rfl result rfl
    exact allows.deletes install attested gone
  refine (Prog.Within.substitute (uninstall_saves allows.saving allows.reads rfl deletes)
    fun a ha => translate_within allows ha).weaken fun r hr value hvalue => ?_
  obtain ⟨record, result, h, saved, removed, -⟩ := hr value hvalue
  obtain ⟨install, attested, -⟩ := removed rfl result rfl
  exact ⟨record, install, h, saved, attested⟩

end

/-! ## What it takes to succeed -/

section
variable {s t : Site}

theorem allows_below (s : Site) : Allows (Shows reader iid p s) (Lessens reader iid p s) (Kept p s) p where
  harmless a h := by
    cases a with
    | core a =>
      cases a with
      | savePlugin | insertInstalling => exact h.elim
      | _ => trivial
    | removeImage => exact h.elim
    | _ => trivial
  changed _ _ _ _ _ h := h
  named _ h := h.1
  reads row h := h rfl row rfl
  saves _ h := h
  image install attested := ⟨install, attested.1 rfl install rfl, rfl⟩
  directory _ _ _ := trivial
  deletes _ _ _ := trivial

theorem manageable_of_attested (kept : Kept p s record)
    (saved : Shows reader iid p s (.core (.savePlugin record)) (.ok ()))
    (attested : Attested (Shows reader iid p s) p install) : s.Manageable reader iid p := by
  obtain ⟨-, row, hrow, priority⟩ := kept
  obtain ⟨loaded, labels, inspected, hmatch⟩ := attested
  obtain ⟨image, rfl⟩ := inspected labels rfl
  refine ⟨⟨row, hrow, ?_⟩, install, loaded rfl install rfl, image, hmatch⟩
  rw [priority]
  exact saved rfl

/-- However a site answers, a method outlined like this succeeds only on a manageable plugin. -/
theorem manageable_of_run {α : Type} {x : ManageM α} {choose : SiteAct → SiteOutcome}
    (outline : (onSite iid x).Within (Shows reader iid p s) (Lessens reader iid p s) fun r => ∀ value,
      r = .ok value → ∃ record install, Kept p s record ∧
      Shows reader iid p s (.core (.savePlugin record)) (.ok ()) ∧ Attested (Shows reader iid p s) p install)
    {value : α} (h : ((onSite iid x).run (siteStep reader iid) choose s).1 = .ok value) :
    s.Manageable reader iid p := by
  have ran := outline.run (I := s.Below p)
    (fun a t lessens below => ⟨below.shows a (choose a), below.step lessens (choose a)⟩) .rfl
  obtain ⟨record, install, kept, saved, attested⟩ := ran.1 value h
  exact manageable_of_attested kept saved attested

theorem manageable_of_start (h : s.quietly reader iid now (start p) = (.ok record, t)) :
    s.Manageable reader iid p :=
  manageable_of_run (start_onSite (allows_below s)) (congrArg Prod.fst h)

theorem manageable_of_uninstall (h : s.quietly reader iid now (uninstall p) = (.ok (), t)) :
    s.Manageable reader iid p :=
  manageable_of_run (uninstall_onSite (allows_below s)) (congrArg Prod.fst h)

end

/-! ## A quiet `uninstall` -/

section
variable {s t : Site} {α : Type}

/-- The steps of the Supervisor and of Core's adapter, when nothing fails. -/
abbrev runQuietly (reader : ManifestReader) (iid : String) (now : Timestamp) {ε : Type}
    (x : ExceptT ε SiteProgram α) (s : Site) : Except ε α × Site :=
  Prog.run (siteStep reader iid) (quiet now) x.run s

theorem request_quietly {handler : HostM α} {value : α}
    (h : runQuietly reader iid now handler s = (.ok value, t)) :
    runQuietly reader iid now (request handler) s = (.ok value, t) := by
  unfold runQuietly request
  rw [run_bind_ok (run_lift h)]
  rfl

theorem stopControl_quietly (s : Site) : runQuietly reader iid now (stopControl p) s =
    (.ok ⟨p, .stopped, []⟩, (s.setRunning p false).setGeneration p false) := by
  have stopped : runQuietly reader iid now (confirmCleanup p) s =
      (.ok ⟨p, .stopped, []⟩, s.setRunning p false) := by
    unfold runQuietly confirmCleanup
    rw [run_bind_ok (request_quietly (show runQuietly reader iid now (pluginStop p) s =
      (.ok ⟨p, .stopped, []⟩, s.setRunning p false) from rfl))]
    simp
  unfold runQuietly stopControl
  rw [run_bind_ok stopped]
  rfl

/-- What is left of the site once the plugin's image and directory are removed. -/
def Site.without (p : PluginId) (imageId : String) (s : Site) : Site :=
  ((s.setRunning p false).dropImage imageId).setInstalled p none

theorem pluginRemove_quietly (loads : load reader iid p (s.state.world.installed p) = .ok install)
    (image : (s.state.world.images install.installed.imageId).isSome = true)
    (labels : labelsMatch install.expectedImageLabels (s.labels install.installed.imageId) = true) :
    runQuietly reader iid now (pluginRemove iid p) s = (.ok ⟨p, true, true⟩,
      s.without p install.installed.imageId) := by
  obtain ⟨directory, record, present, -, -, -, rfl, -⟩ := load_eq_ok loads
  have loaded : (issue (.loadInstall install.installed.pluginId)).run (siteStep reader iid) (quiet now) s =
      (.ok install, s) := congrArg (·, s) loads
  have validated : (issue (.validateInstallDirectory install.installed.pluginId)).run (siteStep reader iid)
      (quiet now) s = (.ok (), s) := by
    simp [issue, siteStep, quiet, SiteOutcome.fails, present]
  have inspected : (issue (.inspectImage install.installed.imageId)).run
      (siteStep reader iid) (quiet now) (s.setRunning install.installed.pluginId false) =
        (.ok (s.labels install.installed.imageId), s.setRunning install.installed.pluginId false) := by
    have found : s.state.world.images install.installed.imageId ≠ none :=
      Option.isSome_iff_ne_none.mp image
    simp [issue, siteStep, quiet, SiteOutcome.fails, Site.setRunning, found]
  have checked : runQuietly reader iid now (checkImage install) (s.setRunning install.installed.pluginId false) =
      (.ok (), s.setRunning install.installed.pluginId false) := by
    unfold runQuietly checkImage docker orFailure
    rw [run_bind_ok (run_mapErr_ok inspected), labels]
    rfl
  have cleaned : (issue (.cleanupRuntimeResources install.installed.pluginId)).run
      (siteStep reader iid) (quiet now) s = (.ok (), s.setRunning install.installed.pluginId false) := rfl
  have gone : (issue (.removeImage install.installed.imageId)).run (siteStep reader iid)
      (quiet now) (s.setRunning install.installed.pluginId false) =
        (.ok (), (s.setRunning install.installed.pluginId false).dropImage install.installed.imageId) := rfl
  have removed : (issue (.removeInstallDirectory install.installed.pluginId)).run (siteStep reader iid)
      (quiet now) ((s.setRunning install.installed.pluginId false).dropImage install.installed.imageId) =
        (.ok (), s.without install.installed.pluginId install.installed.imageId) := by
    simp [issue, siteStep, quiet, SiteOutcome.fails, SiteOutcome.leaves, Site.without,
      Site.dropImage, Site.setRunning, present]
  unfold runQuietly pluginRemove orFailure
  rw [run_bind_ok (run_mapErr_ok loaded)]
  unfold removePlugin docker orFailure
  simp only [removalAttested_of_load loads, Bool.not_true, Bool.false_eq_true, if_false]
  rw [run_bind_ok (run_mapErr_ok validated), run_bind_ok (run_mapErr_ok cleaned),
    run_bind_ok checked, run_bind_ok (run_mapErr_ok gone), run_bind_ok (run_mapErr_ok removed)]
  rfl

end

section
variable {s t : Site} {α : Type}

def quietRequest (reader : ManifestReader) (iid : String) (now : Timestamp) :
    Semantics CoreAct CoreAct.Resp Unit Site := fun a _ s =>
  (translate iid a).run (siteStep reader iid) (quiet now) s

abbrev coreQuietly (reader : ManifestReader) (iid : String) (now : Timestamp)
    (x : CoreProgram α) (s : Site) : α × Site :=
  Prog.run (quietRequest reader iid now) (fun _ => ()) x s

theorem quietly_eq (x : ManageM α) (s : Site) : s.quietly reader iid now x =
    coreQuietly reader iid now x.run s := Prog.run_substitute ..

/-- The record as `stop_transition` leaves it. -/
def stoppedRecord (now : Timestamp) (row : InstallPluginRecord) : InstallPluginRecord :=
  { row with status := inactiveStatus row.enabled, lastError := none, updatedAt := now }

theorem stopTransition_quietly (named : row.pluginId = p) (s : Site) :
    coreQuietly reader iid now (stopTransition row) s = ((.ok (), stoppedRecord now row),
      (s.setRunning p false).setGeneration p false) := by
  have stopped : quietRequest reader iid now (.stopRuntime row.pluginId) () s =
      (.ok ⟨p, .stopped, []⟩, (s.setRunning p false).setGeneration p false) := by
    rw [named]
    exact stopControl_quietly s
  have valid : validateRuntime ⟨p, .stopped, []⟩ row.pluginId = .ok () := by
    simp [validateRuntime, named]
  refine (Prog.run_bind _ _ s).trans ?_
  have ran : Prog.run (quietRequest reader iid now) (fun _ => ()) (ask (.stopRuntime row.pluginId)) s =
        (.ok ⟨p, .stopped, []⟩, (s.setRunning p false).setGeneration p false) := stopped
  rw [ran]
  dsimp only
  rw [valid]
  rfl

theorem removeRuntime_quietly (loads : load reader iid p (s.state.world.installed p) = .ok install)
    (image : (s.state.world.images install.installed.imageId).isSome = true)
    (labels : labelsMatch install.expectedImageLabels (s.labels install.installed.imageId) = true) :
    coreQuietly reader iid now (ask (.removeRuntime p)) s =
      (.ok ⟨p, true, true⟩, (s.without p install.installed.imageId).setGeneration p false) := by
  show runQuietly reader iid now (removeControl iid p) s = _
  unfold runQuietly removeControl
  rw [run_bind_ok (request_quietly (pluginRemove_quietly loads image labels))]
  rfl

theorem getPlugin_quietly (h : s.state.store.get p = some row) :
    coreQuietly reader iid now (getRecord p).run s = (.ok row, s) := by
  have answered : coreQuietly reader iid now (ask (.getPlugin p)) s = (.ok (some row), s) :=
    congrArg (fun r => (Except.ok r, s)) h
  unfold coreQuietly getRecord orFail
  rw [run_bind_ok (run_mapErr_ok answered)]
  rfl

theorem savePlugin_quietly
    (h : s.state.store.upsert record = .ok store) : coreQuietly reader iid now (ask (.savePlugin record)) s =
      (.ok (), { s with state.store := store }) := by
  simp [coreQuietly, ask, quietRequest, translate, issue, siteStep, quiet, coreStep, PluginStore.statement, h]

theorem deletePlugin_quietly (free : s.owns p = false)
    (h : s.state.store.delete p = .ok store) : coreQuietly reader iid now (ask (.deletePlugin p)) s =
      (.ok (), { s with state.store := store }) := by
  simp [coreQuietly, ask, quietRequest, translate, issue, siteStep, quiet, coreStep, PluginStore.statement,
    free, h]

/-- **A plugin that is complete and that nothing refers to can be removed.** -/
theorem uninstall_quietly (h : s.Manageable reader iid p) (free : s.owns p = false) :
    ∃ s', s.quietly reader iid now (uninstall p) = (.ok (), s') ∧ s'.state.store.get p = none := by
  obtain ⟨⟨row, hrow, priority⟩, install, loads, image, labels⟩ := h
  have named : row.pluginId = p := Table.key_of_get hrow
  have stopped : coreQuietly reader iid now (transitionOr (stopTransition row) id).run s =
        (.ok (stoppedRecord now row), (s.setRunning p false).setGeneration p false) := by
    unfold coreQuietly transitionOr
    rw [run_bind_ok (run_lift (stopTransition_quietly named s))]
    rfl
  obtain ⟨store, upserted⟩ :=
    PluginStore.upsert_of_valid s.state.store (show PluginStore.validPriority
      (stoppedRecord now row).priority = true from priority)
  have stored : store.get p = some (stoppedRecord now row) := by
    rw [PluginStore.get_upsert upserted]
    exact if_pos named.symm
  obtain ⟨store', deleted⟩ : ∃ store', store.delete p = .ok store' := by
    unfold PluginStore.delete
    rw [stored]
    exact ⟨_, rfl⟩
  have saved : coreQuietly reader iid now (ask (.savePlugin (stoppedRecord now row)))
      ((s.setRunning p false).setGeneration p false) = _ := savePlugin_quietly upserted
  have removed : coreQuietly reader iid now (ask (.removeRuntime p))
      { (s.setRunning p false).setGeneration p false with state.store := store } = _ :=
    removeRuntime_quietly loads image labels
  have dropped : coreQuietly reader iid now (ask (.deletePlugin p))
      (({ (s.setRunning p false).setGeneration p false with state.store := store } :
        Site).without p install.installed.imageId |>.setGeneration p false) = _ :=
    deletePlugin_quietly free deleted
  refine ⟨{ (({ (s.setRunning p false).setGeneration p false with state.store := store } :
      Site).without p install.installed.imageId |>.setGeneration p false) with
        state.store := store' }, ?_, ?_⟩
  · rw [quietly_eq]
    unfold coreQuietly uninstall orFail
    rw [run_bind_ok (show coreQuietly reader iid now         (lockOperation p).run s = (.ok (), s) from rfl),
      run_bind_ok (show coreQuietly reader iid now         (refuseActiveCalls p).run s = (.ok (), s) from rfl),
      run_bind_ok (getPlugin_quietly hrow), run_bind_ok stopped, run_bind_ok (run_mapErr_ok saved),
      run_bind_ok (run_lift removed)]
    simp only [ne_eq, not_true_eq_false, decide_false, Bool.not_true, Bool.or_self, Bool.false_eq_true, if_false]
    exact run_mapErr_ok dropped
  · exact (PluginStore.get_delete deleted p).trans (if_pos rfl)

end

/-! ## An attempt that does not reach the image -/

variable {c : SiteOutcome}

section
variable {s t : Site}

def Savable (p : PluginId) (record : InstallPluginRecord) : Prop :=
  record.pluginId = p ∧ PluginStore.validPriority record.priority = true

/-- The steps of an attempt whose image stays: it comes to no removal of a directory or a record. -/
def LeavesImage (p : PluginId) : SiteAct → Prop
  | .core (.savePlugin record) => Savable p record
  | .core (.insertInstalling _) | .core (.completeInstall ..) | .core (.rollbackInstall ..)
  | .core (.deletePlugin _) | .removeInstallDirectory _ => False
  | _ => True

def Withholds (p : PluginId) : (a : SiteAct) → a.Resp → Prop
  | .core (.getPlugin q), r => q = p → ∀ row, r = .ok (some row) → Savable p row
  | .removeImage _, r => r ≠ .ok ()
  | _, _ => True

theorem allows_spared : Allows (Withholds p) (LeavesImage p) (Savable p) p where
  harmless a h := by
    cases a with
    | core a =>
      cases a with
      | savePlugin | insertInstalling | completeInstall | rollbackInstall | deletePlugin =>
        exact h.elim
      | _ => trivial
    | removeInstallDirectory => exact h.elim
    | _ => trivial
  changed _ _ _ _ _ h := h
  named _ h := h.1
  reads row h := h rfl row rfl
  saves _ h := h
  image _ _ := trivial
  directory _ _ gone := absurd rfl gone
  deletes _ _ gone := absurd rfl gone

def KeepsImage (a : SiteAct) (c : SiteOutcome) : Prop := ∀ imageId, a = .removeImage imageId → c = .failed

theorem savable_of_step {a : CoreAct} {c : CoreOutcome} (spares : LeavesImage p (.core a))
    (h : ∃ row, store.get p = some row ∧ PluginStore.validPriority row.priority = true) :
    ∃ row, (coreStep a c store).2.get p = some row ∧ PluginStore.validPriority row.priority = true := by
  obtain ⟨row, hrow, priority⟩ := h
  cases coreStep_row a c store p with
  | same hsame => exact ⟨row, hsame.trans hrow, priority⟩
  | saved save hsaved =>
    subst save
    exact ⟨_, hsaved, spares.2⟩
  | touched _ present htouched =>
    cases hrow.symm.trans present
    exact ⟨_, htouched, priority⟩
  | inserted other | completed other | rolledBack other | deleted other =>
    subst other
    exact spares.elim

theorem Site.Manageable.step (h : t.Manageable reader iid p) {a : SiteAct} (spares : LeavesImage p a)
    (keeps : KeepsImage a c) : (siteStep reader iid a c t).2.Manageable reader iid p := by
  -- a step that leaves the table, the directories, the images and their labels alone
  have unchanged : ∀ t' : Site, t'.state = t.state → t'.labels = t.labels →
      t'.Manageable reader iid p := by
    intro t' hstate hlabels
    unfold Site.Manageable Site.Intact
    rw [hstate, hlabels]
    exact h
  cases a with
  | core a =>
    rcases siteStep_core a c t with hsame | ⟨outcome, hstep⟩
    · rw [hsame]
      exact h
    · rw [hstep]
      exact ⟨savable_of_step spares h.1, h.2⟩
  | removeImage imageId =>
    have failed := keeps imageId rfl
    subst failed
    exact h
  | removeInstallDirectory => exact spares.elim
  | registerToken | loadInstall | inspectImage | validateInstallDirectory =>
    simp only [siteStep]
    split <;> exact unchanged _ rfl rfl
  | cleanupRuntimeResources | startRuntime =>
    cases c <;> exact unchanged _ rfl rfl
  | hasGeneration | revokeGeneration | inspectContainers | reply => exact unchanged _ rfl rfl

theorem Site.Manageable.withholds (h : t.Manageable reader iid p) {a : SiteAct}
    (keeps : KeepsImage a c) : Withholds p a (siteStep reader iid a c t).1 := by
  cases a with
  | core a =>
    cases a with
    | getPlugin q =>
      rintro rfl row hrow
      have hget : some row = t.state.store.get q := query_eq_ok hrow
      obtain ⟨row', hrow', priority⟩ := h.1
      cases hget.trans hrow'
      exact ⟨Table.key_of_get hrow', priority⟩
    | _ => trivial
  | removeImage imageId =>
    have failed := keeps imageId rfl
    subst failed
    exact nofun
  | _ => trivial

end

/-! ## Repeating an attempt -/

section
variable {s t : Site}

theorem absent_of_step {imageId : String} (h : t.state.world.images imageId = none) (a : SiteAct)
    (c : SiteOutcome) : (siteStep reader iid a c t).2.state.world.images imageId = none := by
  have dropped : ∀ other, (t.dropImage other).state.world.images imageId = none := by
    intro other
    by_cases hother : imageId = other
    · subst hother
      exact Function.update_self ..
    · exact (Function.update_of_ne hother _ _).trans h
  cases a with
  | core a =>
    rcases siteStep_core a c t with hsame | ⟨outcome, hstep⟩
    · rw [hsame]
      exact h
    · rw [hstep]
      exact h
  | removeImage other =>
    cases c with
    | failed => exact h
    | _ => exact dropped other
  | registerToken | loadInstall | inspectImage | validateInstallDirectory
  | removeInstallDirectory =>
    simp only [siteStep]
    split <;> exact h
  | cleanupRuntimeResources | startRuntime => cases c <;> exact h
  | hasGeneration | revokeGeneration | inspectContainers | reply => exact h

theorem image_gone (loads : load reader iid p (s.state.world.installed p) = .ok install) {a : SiteAct}
    (lessens : Lessens reader iid p s a) (removes : ¬ KeepsImage a c) :
    (siteStep reader iid a c t).2.state.world.images install.installed.imageId = none := by
  simp only [KeepsImage, not_forall] at removes
  obtain ⟨imageId, rfl, took⟩ := removes
  obtain ⟨install', loads', rfl⟩ := lessens
  cases loads.symm.trans loads'
  cases c with
  | failed => exact absurd rfl took
  | _ => exact Function.update_self ..

end

/-- The attempt does not remove the image: where it asks Docker to, that fails before its effect. -/
def ImageSpared (reader : ManifestReader) (iid : String) (p : PluginId)
    (cs : List SiteOutcome) (s : Site) : Prop :=
  (onSite iid (uninstall p)).Admits (siteStep reader iid) KeepsImage cs s

theorem owns_relieved (p : PluginId) (s : Site) : (s.relieved p).owns p = false := by
  rw [Bool.eq_false_iff, ne_eq, Site.owns, List.any_eq_true]
  rintro ⟨credential, hmem, hsource⟩
  have kept := (List.mem_filter.mp hmem).2
  simp only [decide_eq_true_eq] at hsource
  simp [hsource] at kept

theorem retryable_iff_manageable {s : Site} : Retryable reader iid now p s ↔ s.Manageable reader iid p := by
  constructor
  · rintro (⟨record, s', started⟩ | ⟨s', removed, -⟩)
    · exact manageable_of_start started
    · -- the credentials play no part in it
      have manageable : (s.relieved p).Manageable reader iid p :=
        manageable_of_uninstall removed
      exact manageable
  · intro h
    have relieved : (s.relieved p).Manageable reader iid p := h
    exact .inr (uninstall_quietly relieved (owns_relieved p s))

/-- **A failed `uninstall` can be repeated, or the plugin started, exactly if the plugin was complete
and its image was not removed.** -/
theorem uninstall_retryable_iff {cs : List SiteOutcome} {s s' : Site} {error : PluginManagementError}
    (h : (onSite iid (uninstall p)).steps (siteStep reader iid) cs s =
      (.ret (.error error), s')) (now : Timestamp) : Retryable reader iid now p s' ↔
      s.Manageable reader iid p ∧ ImageSpared reader iid p cs s := by
  rw [retryable_iff_manageable]
  have hs' : s' = ((onSite iid (uninstall p)).steps (siteStep reader iid) cs s).2 := by rw [h]
  have outline := @uninstall_onSite iid p _ _ _ (@allows_below reader iid p s)
  have step : ∀ a c t, Lessens reader iid p s a → s.Below p t →
      Shows reader iid p s a (siteStep reader iid a c t).1 ∧ s.Below p (siteStep reader iid a c t).2 :=
    fun a c t lessens below => ⟨below.shows a c, below.step lessens c⟩
  constructor
  · intro manageable
    have below : s.Below p s' := by
      rw [hs']
      exact (outline.steps cs (Prog.admits_true cs _ s) (fun a c t lessens _ => step a c t lessens) .rfl).2
    refine ⟨below.manageable manageable, ?_⟩
    -- had the image been removed, the plugin would not be complete now
    by_contra spared
    obtain ⟨-, install, loads, image, -⟩ := manageable
    have gone := outline.steps_not_admits cs spared step
      (J := fun t => t.state.world.images install.installed.imageId = none)
      (fun a c t lessens _ => image_gone (load_of_remains below.directory loads) lessens)
      (fun a c t _ _ absent => absent_of_step absent a c) .rfl
    rw [← hs'] at gone
    rw [gone] at image
    cases image
  · rintro ⟨manageable, spared⟩
    have kept := (uninstall_onSite allows_spared).steps cs spared
      (fun a c t spares keeps hI => ⟨hI.withholds keeps, hI.step spares keeps⟩) manageable
    rw [hs']
    exact kept.2

/-! ## A plugin that is left behind -/

def sampleCommit : String := "0123456789abcdef0123456789abcdef01234567"

def sampleHash : String := "0123456789abcdef0123456789abcdef0123456789abcdef0123456789abcdef"

def hashedOutput : Supervisor.BuildOutput :=
  ⟨⟨"sha256:image", "repository", sampleCommit, sampleHash, sampleHash⟩, [], "sha256:" ++ sampleHash,
    sampleHash, []⟩

def hashedStaged : StagedPlugin :=
  ⟨"p", .content, ["content.search"], "1.0.0", "platform", "repository", sampleCommit, sampleHash,
    sampleHash⟩

def sampleReader : ManifestReader := ⟨fun _ => sampleHash, fun _ => some ⟨"p", "1.0", "22", "main.js"⟩⟩

/-- Plugin `p` is built, finalized, completed and acknowledged. -/
def installedRun : List JointLabel :=
  startedRun ++ [.core (.call (.install 7 "p" 0 1)), .core (.advance 0 (.flag true)),
    .core (.advance 0 (.staged (.ok hashedStaged))), .core (.advance 0 (.done 0)),
    .core (.advance 0 (.granted (.ok none))), .core (.advance 0 (.prepared (.ok 1))),
    .supervisor (.prepare 1 ⟨none⟩), .send 0 1] ++ works 1 2 ++ [.receive 0] ++ works 2 2 ++
    [.supervisor (.advance 2 (.built (.ok hashedOutput)))] ++ works 2 5 ++ [.send 0 3] ++ works 3 1 ++
    [.receive 0, .core (.advance 0 (.done 4)), .core (.advance 0 (.done 4)), .send 0 5] ++
    works 4 12 ++ [.receive 0, .core (.advance 0 (.done 6)), .send 0 7] ++ works 5 1 ++ [.receive 0]

def installedSite (credentials : List Credential) : Site where
  state := (jointAfter installedRun).world
  labels _ := Supervisor.expectedImageLabels
    (Supervisor.attestation "inst" "p" 1 hashedOutput.artifact hashedOutput.baseImageDigest
      hashedOutput.sdkHash)
  running _ := false
  generations _ := false
  credentials := credentials

/-- The steps of an `uninstall` up to where the plugin is stopped and its record saved. -/
def stoppedSteps (reply : SiteOutcome) : List SiteOutcome :=
  [.core (.flag true), .core (.flag false), .core (.done 8), .done, reply, .done, .core (.done 8),
    .core (.done 8)]

def siteAfter (credentials : List Credential) (cs : List SiteOutcome) : Site :=
  ((onSite "inst" (uninstall "p")).steps (siteStep sampleReader "inst") cs (installedSite credentials)).2

/-- If the reply to the first request is lost, the call can be repeated. -/
theorem uninstall_retryable_after_lost_reply :
    (onSite "inst" (uninstall "p")).steps (siteStep sampleReader "inst")
        ((stoppedSteps .failed).take 7) (installedSite []) =
      (.ret (.error .runtimeUnavailable), siteAfter [] ((stoppedSteps .failed).take 7)) ∧
    Retryable sampleReader "inst" 9 "p" (siteAfter [] ((stoppedSteps .failed).take 7)) := by
  have failed : (onSite "inst" (uninstall "p")).steps (siteStep sampleReader "inst")
        ((stoppedSteps .failed).take 7) (installedSite []) =
      (.ret (.error .runtimeUnavailable), siteAfter [] ((stoppedSteps .failed).take 7)) := rfl
  refine ⟨failed, (uninstall_retryable_iff failed 9).mpr ⟨⟨⟨_, rfl, rfl⟩, _, rfl, rfl, rfl⟩, ?_⟩⟩
  exact ⟨nofun, nofun, nofun, nofun, nofun, nofun, nofun, trivial⟩

set_option maxRecDepth 2000 in
/-- **A credential strands its plugin**: the image and the directory are removed, the foreign key keeps
the record, and from then on the plugin can neither be started nor removed, not even when the
credential is gone. -/
theorem uninstall_strands_plugin : ∃ (labels : List JointLabel) (j : Joint) (s s' : Site)
    (cs : List SiteOutcome), Run (Joint.next "inst") (fun _ _ => True) Joint.initial labels j ∧
      s.state = j.world ∧ (onSite "inst" (uninstall "p")).steps (siteStep sampleReader "inst") cs s =
        (.ret (.error .internal), s') ∧
      (s'.state.store.get "p").isSome = true ∧ ∀ now, ¬ Retryable sampleReader "inst" now "p" s' := by
  have installed : Run (Joint.next "inst") (fun _ _ => True) Joint.initial installedRun
      (jointAfter installedRun) := Run.of_foldlM rfl
  refine ⟨installedRun, jointAfter installedRun, installedSite [⟨1, some "p"⟩],
    siteAfter [⟨1, some "p"⟩] (stoppedSteps .done ++ List.replicate 8 .done ++ [.core (.done 9)]),
    stoppedSteps .done ++ List.replicate 8 .done ++ [.core (.done 9)], installed, rfl, rfl, rfl, ?_⟩
  intro now
  rw [retryable_iff_manageable]
  rintro ⟨-, install, loads, -⟩
  cases loads

end AudioDown.Core
