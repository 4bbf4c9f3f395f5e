/-
# AudioDown.Supervisor.FinalizeLaw — a finalize that is cut short

`finalize` moves a directory with one rename and only then records the operation as `finalized`.  A
crash between any two of its steps leaves the directory in one of two places, and the record either as
it was or `finalized` over an installed directory.  Whatever was left, the next `open` keeps it and
the next `finalize` completes it, provided that the record on disk said `built`.
-/
import AudioDown.Supervisor.Journal

namespace AudioDown.Supervisor

open Lib

variable {iid : String}

/-! ## What no failure breaks -/

/-- What holds of memory and disk in every run, whatever files could not be written. -/
structure World.Orderly (w : World) : Prop where
  keyed : w.Keyed
  closedInMemory : ∀ o r, w.inMemory o = some r → r.operation.acknowledged = true →
    r.operation.state.isTerminal = true
  closedOnDisk : ∀ o r, w.onDisk o = some r → r.operation.acknowledged = true →
    r.operation.state.isTerminal = true
  /-- the record on disk is never ahead of the one in memory -/
  behind : ∀ o r d, w.inMemory o = some r → w.onDisk o = some d →
    r.operation.state.isTerminal = false → d.operation.state.isTerminal = false

section
variable {a : Act} {c : Outcome} {w w' : World}

theorem World.Orderly.same (h : w.Orderly) (hsame : SameJournal w w') : w'.Orderly where
  keyed := h.keyed.same hsame
  closedInMemory o r hr := h.closedInMemory o r (hsame.inMemory o ▸ hr)
  closedOnDisk o r hr := h.closedOnDisk o r (hsame.onDisk o ▸ hr)
  behind o r d hr hd := h.behind o r d (hsame.inMemory o ▸ hr) (hsame.onDisk o ▸ hd)

theorem World.Orderly.lost (h : w.Orderly) : ({ w with state := {} } : World).Orderly := by
  have empty : ∀ o r, ({ w with state := {} } : World).inMemory o ≠ some r := by
    intro o r hr
    simp [World.inMemory] at hr
  exact ⟨⟨fun o r hr => absurd hr (empty o r), h.keyed.onDisk⟩, fun o r hr => absurd hr (empty o r),
    h.closedOnDisk, fun o r d hr => absurd hr (empty o r)⟩

theorem World.Orderly.loaded (h : w.Orderly) :
    ({ w with state := loadState w.readOperationsDir } : World).Orderly := by
  have hmem := loadState_operations h.keyed.onDisk
  refine ⟨h.keyed.loaded.keyed, fun o r hr => h.closedOnDisk o r ((hmem o).symm.trans hr),
    h.closedOnDisk, fun o r d hr hd hlive => ?_⟩
  cases ((hmem o).symm.trans hr).symm.trans hd
  exact hlive

theorem Changes.live {o : Uuid} {r r' : StoredOperation} (h : Changes a o r r')
    (hlive : r'.operation.state.isTerminal = false) : r.operation.state.isTerminal = false := by
  by_contra hover
  rcases h.terminal (by simpa using hover) with hsame | hfailed
  · rw [hsame] at hlive
    exact hover hlive
  · rw [hfailed] at hlive
    cases hlive

theorem World.Orderly.step (h : w.Orderly) : (exec iid a c w).2.Orderly := by
  by_cases hload : a = .loadState
  · subst hload
    simp only [exec]
    cases attempt .operationsDir c with
    | error e => exact h
    | ok _ => exact h.loaded
  have effect := fun o => (exec_effect iid a c w).record hload h.keyed o
  refine ⟨h.keyed.step, fun o r hr hack => ?_, fun o r hr hack => ?_, fun o r d hr hd hlive => ?_⟩
  · rcases exec_record_cases hload hr with hr | ⟨-, _, _, _, rfl⟩ | ⟨q, hq, hchange⟩
    · exact h.closedInMemory o r hr hack
    · cases hack
    · exact hchange.keeps_closed (h.closedInMemory o q hq) hack
  · rcases effect o with ⟨-, hdisk⟩ | ⟨-, -, -, hdisk⟩ | ⟨-, -, -, -, hdisk⟩ |
      ⟨hbefore, hchange, -, ⟨-, hdisk⟩ | ⟨-, hdisk⟩⟩
    · exact h.closedOnDisk o r (hdisk ▸ hr) hack
    · cases hdisk.symm.trans hr
    · cases hdisk.symm.trans hr
      cases hack
    · cases hdisk.symm.trans hr
      exact hchange.keeps_closed (h.closedInMemory o _ hbefore) hack
    · exact h.closedOnDisk o r (hdisk ▸ hr) hack
  · rcases effect o with ⟨hmem, hdisk⟩ | ⟨-, -, hmem, -⟩ | ⟨-, -, -, -, hdisk⟩ |
      ⟨hbefore, hchange, hmem, ⟨-, hdisk⟩ | ⟨-, hdisk⟩⟩
    · exact h.behind o r d (hmem ▸ hr) (hdisk ▸ hd) hlive
    · cases hmem.symm.trans hr
    · cases hdisk.symm.trans hd
      rfl
    · cases hmem.symm.trans hr
      cases hdisk.symm.trans hd
      exact hlive
    · -- the file was not written: it still holds what memory came from
      cases hmem.symm.trans hr
      exact h.behind o _ d hbefore (hdisk ▸ hd) (hchange.live hlive)

end

theorem orderly_of_run {ok : System → Label → Prop} {labels : List Label} {s : System}
    (run : Run (System.next iid) ok System.initial labels s) : s.world.Orderly := by
  refine run.invariant (I := fun s => s.world.Orderly) (fun s label s' h _ hnext => ?_) ?_
  · cases next_cases hnext with
    | boot | ready | call => exact h
    | advance task => exact h.step
    | crash => exact h.lost
    | crashDuring task => exact h.step.lost
    | removePlugin p c =>
      obtain ⟨hstate, hrecords, -, -⟩ := removePlugin_frame p c s.world
      exact h.same ⟨hstate, hrecords⟩
    | outside hstate hrecords => exact h.same ⟨hstate, hrecords⟩
  · exact ⟨⟨fun o r hr => (by cases hr), fun o r hr => by cases hr⟩, fun o r hr => (by cases hr),
      fun o r hr => (by cases hr), fun o r d hr => by cases hr⟩

/-! ## Where the directory is -/

section
variable {w t : World} {p : PluginId} {o : Uuid} {a : PluginInstallArtifact} {now : Timestamp}
  {content : InstallDirectory} {found : InstallAttestation}

/-- The directory `content` is the candidate of `o`, or already `installed/<plugin>`. -/
def World.Holds (w : World) (p : PluginId) (o : Uuid) (content : InstallDirectory) : Prop :=
  (w.candidates o = some content ∧ w.installed p = none) ∨
    (w.candidates o = none ∧ w.installed p = some content)

theorem InstallAttestation.Attests.unique {a' : PluginInstallArtifact}
    (h : found.Attests iid p o a) (h' : found.Attests iid p o a') : a' = a := by
  obtain ⟨-, -, -, h₁, h₂, h₃, h₄, h₅⟩ := h
  obtain ⟨-, -, -, h₁', h₂', h₃', h₄', h₅'⟩ := h'
  cases a
  cases a'
  simp_all

theorem World.Finalizable.holds (h : w.Finalizable iid p o a) :
    ∃ content found, content.attestation = some found ∧ found.Attests iid p o a ∧ w.Holds p o content ∧
      (w.placed p o).installed p = some content := by
  rcases h with ⟨⟨content, found, hd, hf, hatt⟩, hc⟩ | ⟨hi, content, found, hd, hf, hatt⟩
  · have hplaced : w.placed p o = w := by rw [World.placed, hc]
    exact ⟨content, found, hf, hatt, .inr ⟨hc, hd⟩, by rw [hplaced]; exact hd⟩
  · have hc : w.candidates o = some content := hd
    refine ⟨content, found, hf, hatt, .inl ⟨hc, hi⟩, ?_⟩
    simp [World.placed, hc, World.setDirectory]

theorem World.Holds.finalizable (h : w.Holds p o content) (hf : content.attestation = some found)
    (hatt : found.Attests iid p o a) : w.Finalizable iid p o a := by
  rcases h with ⟨hc, hi⟩ | ⟨hc, hi⟩
  · exact .inr ⟨hi, content, found, hc, hf, hatt⟩
  · exact .inl ⟨⟨content, found, hi, hf, hatt⟩, hc⟩

theorem World.Holds.placed (h : w.Holds p o content) : (w.placed p o).installed p = some content := by
  rcases h with ⟨hc, hi⟩ | ⟨hc, hi⟩
  · simp [World.placed, hc, World.setDirectory]
  · rw [World.placed, hc]
    exact hi

theorem World.Holds.attested (h : w.Holds p o content) {a' : PluginInstallArtifact} {directory : Directory}
    (hdir : directory = .installed p ∨ directory = .candidate o) (hat : w.Attested iid directory p o a') :
    ∃ found, content.attestation = some found ∧ found.Attests iid p o a' := by
  obtain ⟨content', found, hd, hf, hatt⟩ := hat
  have hsame : content' = content := by
    rcases h with ⟨hc, hi⟩ | ⟨hc, hi⟩ <;> rcases hdir with rfl | rfl <;>
      simp_all [World.directory]
  subst hsame
  exact ⟨found, hf, hatt⟩

/-- A record that `finalize` works on. -/
structure StoredOperation.Placing (r : StoredOperation) (p : PluginId)
    (a : PluginInstallArtifact) : Prop where
  plugin : r.operation.pluginId = p
  artifact : r.operation.artifact = some a
  unacknowledged : r.operation.acknowledged = false
  state : r.operation.state = .built ∨ r.operation.state = .finalized

/-- What a `finalize` called in `w` leaves behind, wherever it is cut. -/
structure Interrupted (p : PluginId) (o : Uuid) (a : PluginInstallArtifact)
    (content : InstallDirectory) (w t : World) : Prop where
  keyed : t.Keyed
  holds : t.Holds p o content
  others : ∀ q, q ≠ p → t.installed q = w.installed q
  records : ∀ id, id ≠ o → t.onDisk id = w.onDisk id
  memory : ∃ r, t.inMemory o = some r ∧ r.Placing p a
  disk : t.onDisk o = w.onDisk o ∨ ∃ r, t.onDisk o = some r ∧ r.Placing p a ∧
    (r.operation.state = .finalized → t.installed p = some content)

theorem Interrupted.same {u : World} (h : Interrupted p o a content w t)
    (hstate : u.state = t.state) (hrecords : u.records = t.records)
    (hcandidates : u.candidates = t.candidates) (hinstalled : u.installed = t.installed) :
    Interrupted p o a content w u := by
  have hsame : SameJournal t u := ⟨hstate, hrecords⟩
  refine ⟨h.keyed.same hsame, ?_, ?_, ?_, ?_, ?_⟩
  · rw [World.Holds, hcandidates, hinstalled]
    exact h.holds
  · rw [hinstalled]
    exact h.others
  · intro id hid
    rw [hsame.onDisk]
    exact h.records id hid
  · rw [hsame.inMemory]
    exact h.memory
  · rw [hsame.onDisk, hinstalled]
    exact h.disk

theorem Interrupted.renamed (h : Interrupted p o a content w t) (c : Outcome) :
    Interrupted p o a content w (exec iid (.renameCandidate p o) c t).2 := by
  generalize hu : (exec iid (.renameCandidate p o) c t).2 = u
  have heffect := exec_effect iid (.renameCandidate p o) c t
  rw [hu] at heffect
  cases heffect with
  | nothing => exact h
  | setter hsetter =>
    rcases hsetter with rfl | ⟨_, _, _, _, hchange, -⟩
    · exact h
    · cases hchange
  | renamed source target =>
    rename_i moved
    have hmoved : moved = content := by
      rcases h.holds with ⟨hc, -⟩ | ⟨hc, -⟩
      · exact Option.some.inj (source.symm.trans hc)
      · cases source.symm.trans hc
    subst hmoved
    refine ⟨⟨h.keyed.inMemory, h.keyed.onDisk⟩, .inr ⟨?_, ?_⟩, fun q hq => ?_, h.records, h.memory, ?_⟩
    · simp [World.setDirectory]
    · simp [World.setDirectory]
    · rw [← h.others q hq]
      simp [World.setDirectory, hq]
    · rcases h.disk with hdisk | ⟨r, hr, hplacing, -⟩
      · exact .inl hdisk
      · exact .inr ⟨r, hr, hplacing, fun _ => by simp [World.setDirectory]⟩

theorem Interrupted.recorded (h : Interrupted p o a content w t)
    (disciplined : Disciplined iid (.setState p o .finalized none now) t) (c : Outcome) :
    Interrupted p o a content w (exec iid (.setState p o .finalized none now) c t).2 := by
  obtain ⟨r, hr, hplacing⟩ := h.memory
  have hinstalled : t.installed p = some content := by
    obtain ⟨_, -, present, _, hpresent, -⟩ := disciplined r hr hplacing.plugin
      (by rcases hplacing.state with hs | hs <;> simp [hs])
      (by rcases hplacing.state with hs | hs <;> simp [hs])
    rcases h.holds with ⟨-, hi⟩ | ⟨-, hi⟩
    · cases hi.symm.trans hpresent
    · exact hi
  have heffect := exec_effect iid (.setState p o .finalized none now) c t
  have hdirs : ∀ q, (exec iid (.setState p o .finalized none now) c t).2.installed q =
      t.installed q := by
    intro q
    rcases heffect.installed q with hsame | ⟨hact, -⟩ | ⟨_, _, hact, -⟩
    · exact hsame
    · cases hact
    · cases hact
  have hcand : (exec iid (.setState p o .finalized none now) c t).2.candidates o =
      t.candidates o := by
    rcases heffect.candidates o with hsame | ⟨hact, -⟩ | ⟨_, hact, -⟩ | ⟨_, _, hact, -⟩
    · exact hsame
    · cases hact
    · cases hact
    · cases hact
  refine ⟨h.keyed.step, ?_, fun q hq => (hdirs q).trans (h.others q hq), fun id hid => ?_, ?_, ?_⟩
  · rw [World.Holds, hcand, hdirs]
    exact h.holds
  · rcases heffect.record (by simp) h.keyed id with
      ⟨-, hdisk⟩ | ⟨hact, -⟩ | ⟨hact, -⟩ | ⟨-, hchange, -⟩
    · exact hdisk.trans (h.records id hid)
    · cases hact
    · cases hact
    · cases hchange
      exact absurd rfl hid
  · rcases heffect.record (by simp) h.keyed o with
      ⟨hmem, -⟩ | ⟨hact, -⟩ | ⟨hact, -⟩ | ⟨hbefore, hchange, hmem, -⟩
    · exact ⟨r, hmem.trans hr, hplacing⟩
    · cases hact
    · cases hact
    · cases hbefore.symm.trans hr
      cases hchange
      exact ⟨_, hmem, hplacing.plugin, hplacing.artifact, hplacing.unacknowledged, .inr rfl⟩
  · rw [hdirs]
    rcases heffect.record (by simp) h.keyed o with
      ⟨-, hdisk⟩ | ⟨hact, -⟩ | ⟨hact, -⟩ | ⟨hbefore, hchange, -, ⟨-, hdisk⟩ | ⟨-, hdisk⟩⟩
    · rw [hdisk]
      exact h.disk
    · cases hact
    · cases hact
    · cases hbefore.symm.trans hr
      cases hchange
      exact .inr ⟨_, hdisk, ⟨hplacing.plugin, hplacing.artifact, hplacing.unacknowledged, .inr rfl⟩,
        fun _ => hinstalled⟩
    · rw [hdisk]
      exact h.disk

/-- **Every crash point.**  However many steps a `finalize` takes and however they end, it leaves the
directory in one place and the records in order. -/
theorem finalize_interrupted (h : Interrupted p o a content w w) (outcomes : List Outcome) :
    Interrupted p o a content w (Prog.steps (exec iid) outcomes (finalize iid p o now) w).2 := by
  refine Prog.Along.steps_keep (finalize_outline p o now w) (P := fun act => act.Inert ∨ act = .renameCandidate
    p o ∨ act = .setState p o .finalized none now) (finalize_uses iid (fun _ => .inl) (.inr (.inl rfl))
    (.inr (.inr rfl))) outcomes (fun _ _ => trivial) (fun act c t hact disciplined ht => ?_) h
  rcases hact with inert | rfl | rfl
  · obtain ⟨hstate, hrecords, hcandidates, hinstalled⟩ :=
      exec_quiet iid inert.quiet c t
    exact ht.same hstate hrecords hcandidates hinstalled
  · exact ht.renamed c
  · exact ht.recorded disciplined c

end

/-! ## Opening again -/

section
variable {w t : World} {p : PluginId} {o : Uuid} {a : PluginInstallArtifact}
  {now opened again : Timestamp} {content : InstallDirectory} {found : InstallAttestation}

/-- The files as a call leaves them if the process dies after the given steps of it. -/
def Call.cut {α : Type} (iid : String) (x : Call α) (outcomes : List Outcome) (w : World) : World :=
  { (Prog.steps (exec iid) outcomes x w).2 with state := {} }

/-- The manager is opened again, and `finalize` called once more. -/
def reopenAndFinalize (iid : String) (p : PluginId) (o : Uuid) (opened again : Timestamp) :
    Call PluginInstallOperation := do
  openManager iid opened
  finalize iid p o again

/-- `operations/<op>.json` says that the operation is built, with this artifact. -/
def World.JournalledBuilt (w : World) (p : PluginId) (o : Uuid) (a : PluginInstallArtifact) : Prop :=
  ∃ d, w.onDisk o = some d ∧ d.operation.pluginId = p ∧ d.operation.state = .built ∧
    d.operation.artifact = some a

/-- Every `finalized` record on disk finds its directory, so that the manager can be opened. -/
def World.Reopenable (iid : String) (w : World) : Prop :=
  ∀ o r, w.onDisk o = some r → w.Honours iid r

theorem Interrupted.reopenable (h : Interrupted p o a content w t) (orderly : w.Orderly)
    (reopenable : w.Reopenable iid) (built : w.JournalledBuilt p o a) (start : w.Holds p o content)
    (hf : content.attestation = some found) (hatt : found.Attests iid p o a) : t.Reopenable iid := by
  intro id r hr hfin
  by_cases hid : id = o
  · -- its own record is `finalized` only over the installed directory
    subst hid
    rcases h.disk with hdisk | ⟨r', hr', hplacing, hplaced⟩
    · obtain ⟨d, hd, -, hs, -⟩ := built
      cases (hr.symm.trans hdisk).trans hd
      rw [hs] at hfin
      cases hfin
    · cases hr.symm.trans hr'
      refine ⟨a, hplacing.artifact, content, found, ?_, hf, ?_⟩
      · rw [hplacing.plugin]
        exact hplaced hfin
      · rw [hplacing.plugin, h.keyed.onDisk _ r hr]
        exact hatt
  · -- another record's directory is another plugin's
    obtain ⟨a', ha', hat⟩ := reopenable id r ((h.records id hid).symm.trans hr) hfin
    refine ⟨a', ha', (attested_installed_congr (h.others _ fun hp => hid ?_)).mpr hat⟩
    have hkey := orderly.keyed.onDisk id r ((h.records id hid).symm.trans hr)
    obtain ⟨present, found', hpresent, hf', hatt'⟩ := hat
    rw [hp] at hpresent
    have hcontent : present = content := by
      rcases start with ⟨-, hi⟩ | ⟨-, hi⟩
      · cases hi.symm.trans hpresent
      · exact Option.some.inj (hpresent.symm.trans hi)
    subst hcontent
    cases hf.symm.trans hf'
    rw [← hkey, ← hatt'.2.1, hatt.2.1]

/-- **Recovery.**  From whatever an interrupted `finalize` of a journalled operation leaves, opening
the manager and calling `finalize` again completes it. -/
theorem Interrupted.recovers (h : Interrupted p o a content w t) (orderly : w.Orderly)
    (reopenable : w.Reopenable iid) (built : w.JournalledBuilt p o a)
    (start : w.Holds p o content) (hf : content.attestation = some found) (hatt : found.Attests iid p o a) :
    ∃ operation w', (reopenAndFinalize iid p o opened again).alone iid
        { t with state := {} } = (.ok operation, w') ∧ operation.state = .finalized ∧
      w'.installed p = some content := by
  have honoured := h.reopenable orderly reopenable built start hf hatt
  obtain ⟨u, hopen, hinstalled, hkept, -⟩ := openManager_alone (w := { t with state := {} })
    h.keyed.onDisk honoured opened
  -- the record on disk is built, or finalized over the installed directory
  obtain ⟨d, hd, hplacing, hplaced⟩ : ∃ d, t.onDisk o = some d ∧ d.Placing p a ∧
      (d.operation.state = .finalized → t.installed p = some content) := by
    rcases h.disk with hdisk | hdisk
    · obtain ⟨d, hd, hplugin, hs, hart⟩ := built
      have hunack : d.operation.acknowledged = false := by
        by_contra hack
        have := orderly.closedOnDisk o d hd (by simpa using hack)
        rw [hs] at this
        cases this
      refine ⟨d, hdisk.trans hd, ⟨hplugin, hart, hunack, .inl hs⟩, fun hfin => ?_⟩
      rw [hs] at hfin
      cases hfin
    · exact hdisk
  have hidle : ¬ d.Busy := by
    rcases hplacing.state with hs | hs <;> simp [StoredOperation.Busy, hs]
  obtain ⟨hmem, hcand⟩ := hkept o d hd hidle hplacing.unacknowledged
  have hholds : u.Holds p o content := by
    rw [World.Holds, hcand, hinstalled]
    exact h.holds
  unfold reopenAndFinalize
  rw [alone_bind_ok hopen]
  rcases hplacing.state with hs | hs
  · rw [finalize_alone_built hmem hplacing.plugin hs hplacing.artifact (hholds.finalizable hf hatt)]
    exact ⟨_, _, rfl, rfl, hholds.placed⟩
  · have hi : u.installed p = some content := by
      rw [hinstalled]
      exact hplaced hs
    rw [finalize_alone_finalized hmem hplacing.plugin hs hplacing.artifact ⟨content, found, hi, hf, hatt⟩]
    exact ⟨_, _, rfl, hs, hi⟩

variable {operation : PluginInstallOperation}

/-- A `finalize` that returns `Ok` found its operation built or finalized, and a directory attested to
it. -/
theorem finalize_alone_ok {w' : World} (h : (finalize iid p o now).alone iid w = (.ok operation, w')) :
    ∃ r a directory, w.inMemory o = some r ∧ r.operation.pluginId = p ∧
      r.operation.artifact = some a ∧ (r.operation.state = .built ∨ r.operation.state = .finalized) ∧
      (directory = .installed p ∨ directory = .candidate o) ∧ w.Attested iid directory p o a := by
  by_cases hm : ∃ r, w.inMemory o = some r ∧ r.operation.pluginId = p
  · obtain ⟨r, hm, hp⟩ := hm
    unfold finalize at h
    rw [alone_bind_ok (status_alone_ok hm hp)] at h
    cases ha : r.operation.artifact with
    | none =>
      simp only [ha, alone_throw] at h
      cases h
    | some a =>
      simp only [ha] at h
      rw [alone_bind_ok directoryExists_alone] at h
      set directory : Directory := if (w.directory (.installed p)).isSome = true then .installed p
        else .candidate o with hdirectory
      have hdir : directory = .installed p ∨ directory = .candidate o := by
        rw [hdirectory]
        split
        · exact .inl rfl
        · exact .inr rfl
      by_cases hat : w.Attested iid directory p o a
      · refine ⟨r, a, directory, hm, hp, ha, ?_, hdir, hat⟩
        obtain ⟨_, _, hd, hf, hatt⟩ := hat
        rw [alone_bind_ok (attestationFromDirectory_alone_ok hd hf hatt)] at h
        cases hs : r.operation.state with
        | built => exact .inl rfl
        | finalized => exact .inr rfl
        | accepted | building | failed | aborted =>
          simp only [hs, alone_throw] at h
          cases h
      · rw [alone_bind_error (attestationFromDirectory_alone_error hat)] at h
        cases h
  · unfold finalize at h
    rw [alone_bind_error (status_alone_error fun r hr hp => hm ⟨r, hr, hp⟩)] at h
    cases h

/-- Recovery needs the journal: if the process dies at once, what can be completed was journalled. -/
theorem journalled_of_recovers (orderly : w.Orderly) (reopenable : w.Reopenable iid)
    {r : StoredOperation} (hr : w.inMemory o = some r) (hs : r.operation.state = .built)
    (start : w.Holds p o content) (hf : content.attestation = some found)
    (hatt : found.Attests iid p o a) {w' : World}
    (h : (reopenAndFinalize iid p o opened again).alone iid
      { w with state := {} } = (.ok operation, w')) : w.JournalledBuilt p o a := by
  obtain ⟨u, hopen, hinstalled, hkept, horigin⟩ := openManager_alone
    (w := { w with state := {} }) orderly.keyed.onDisk reopenable opened
  unfold reopenAndFinalize at h
  rw [alone_bind_ok hopen] at h
  obtain ⟨d, a', directory, hmem, hplugin, hart, hstate, hdir, hat⟩ := finalize_alone_ok h
  have hd : w.onDisk o = some d := horigin o d hmem (by rcases hstate with hs | hs <;> simp [hs])
  -- memory says `built`, so the disk does not say `finalized`
  have hlive := orderly.behind o r d hr hd (by simp [hs])
  have hbuilt : d.operation.state = .built := by
    rcases hstate with hs | hs
    · exact hs
    · rw [hs] at hlive
      cases hlive
  have hunack : d.operation.acknowledged = false := by
    by_contra hack
    have hover := orderly.closedOnDisk o d hd (by simpa using hack)
    rw [hlive] at hover
    cases hover
  have hidle : ¬ d.Busy := by simp [StoredOperation.Busy, hbuilt]
  have hholds : u.Holds p o content := by
    rw [World.Holds, (hkept o d hd hidle hunack).2, hinstalled]
    exact start
  obtain ⟨found', hf', hatt'⟩ := hholds.attested hdir hat
  cases hf.symm.trans hf'
  rw [hatt.unique hatt'] at hart
  exact ⟨d, hd, hplugin, hbuilt, hart⟩

end

/-! ## A directory that is somebody else's -/

section
variable {w : World} {p : PluginId} {o : Uuid} {now : Timestamp} {content : InstallDirectory}
  {found : InstallAttestation}

def Idle (iid : String) (w : World) (a : Act) (t : World) : Prop :=
  t = w ∧ ∀ c, (exec iid a c t).2 = t

theorem idle_ask {a : Act} {P : a.Resp → World → Prop} (same : ∀ c, (exec iid a c w).2 = w)
    (h : ∀ c, P (exec iid a c w).1 w) : Outline iid Eq (Idle iid w) P (Call.ask a) w := by
  refine .ask fun t ht => ?_
  subst ht
  refine ⟨⟨rfl, same⟩, fun c u hu => ?_⟩
  subst hu
  rw [same c]
  exact h c

theorem verifyAttestation_occupied {expected : InstallAttestation}
    (hi : w.installed p = some content) (hf : content.attestation = some found) (hne : found ≠ expected) :
    Outline iid Eq (Idle iid w) (fun _ _ => False) (verifyAttestation (.installed p) expected) w := by
  refine .bind (P := fun actual t => t = w ∧ ∀ found', actual = some found' → found' = found)
    (idle_ask (fun _ => rfl) fun c => ⟨rfl, fun found' h => ?_⟩) ?_
  · cases c <;> simp_all [exec, World.directory]
  · rintro actual t ⟨rfl, hactual⟩
    cases actual with
    | none => exact .throw
    | some actual =>
      rw [hactual actual rfl]
      simp only [if_neg hne]
      exact .throw

theorem renameCandidate_occupied (iid : String) (o : Uuid)
    (hi : w.installed p = some content) (hf : content.attestation = some found) (c : Outcome) :
    ∃ e, exec iid (.renameCandidate p o) c w = (.error e, w) := by
  have hfull : content.isEmpty = false := by simp [InstallDirectory.isEmpty, hf]
  have hmove : ∀ moved, (w.setDirectory (.candidate o) none).moveInto (.installed p) moved = none := by
    intro moved
    simp [World.moveInto, World.directory, World.setDirectory, hi, hfull]
  cases hc : w.candidates o with
  | none => cases c <;> exact ⟨_, by simp only [exec, World.renameCandidate, hc]; rfl⟩
  | some moved => cases c <;> exact ⟨_, by simp only [exec, World.renameCandidate, hc, hmove]; rfl⟩

theorem placeInstalled_occupied {expected : InstallAttestation}
    (hi : w.installed p = some content) (hf : content.attestation = some found) (hne : found ≠ expected) :
    Outline iid Eq (Idle iid w) (fun _ _ => False) (placeInstalled p o expected) w := by
  refine .bind (P := fun _ t => t = w) (idle_ask (fun _ => rfl) fun _ => rfl) ?_
  rintro present t rfl
  cases present with
  | true => exact .bind (verifyAttestation_occupied hi hf hne) fun _ _ h => h.elim
  | false =>
    -- the check for its existence failed; the rename still finds it
    refine .bind (P := fun _ u => u = t) ?_ ?_
    · refine .bind (P := fun _ u => u = t) (idle_ask (fun _ => rfl) fun _ => rfl) ?_
      rintro actual u rfl
      cases actual with
      | none => exact .throw
      | some actual =>
        by_cases hactual : actual = expected
        · simp only [if_pos hactual]
          exact .pure fun _ h => h.symm
        · simp only [if_neg hactual]
          exact .throw
    rintro _ u rfl
    refine .bind (P := fun _ x => x = u) (.of (a := .createInstalledParent) id rfl fun x hx => ?_) ?_
    · subst hx
      exact ⟨⟨rfl, fun _ => rfl⟩, fun _ _ _ y hy => hy.symm⟩
    rintro _ x rfl
    refine .bind (P := fun _ _ => False) (.of (a := .renameCandidate p o) id rfl fun y hy => ?_)
      fun _ _ h => h.elim
    subst hy
    refine ⟨⟨rfl, fun c => ?_⟩, fun c v hv => ?_⟩
    · obtain ⟨e, he⟩ := renameCandidate_occupied iid o hi hf c
      rw [he]
    · obtain ⟨e, he⟩ := renameCandidate_occupied iid o hi hf c
      rw [he] at hv
      cases hv

/-- **`finalize` never overwrites.**  Over a directory attested to something else it fails, and every
step on the way leaves the world as it was. -/
theorem finalize_occupied (now : Timestamp) (hi : w.installed p = some content)
    (hf : content.attestation = some found) (foreign : ∀ r a, w.inMemory o = some r →
      r.operation.pluginId = p → r.operation.artifact = some a → ¬ found.Attests iid p o a) :
    Outline iid Eq (Idle iid w) (fun _ _ => False) (finalize iid p o now) w := by
  refine .bind (P := fun v t => t = w ∧ ∀ a, v.artifact = some a → ¬ found.Attests iid p o a)
    (.of (a := .status p o) id rfl fun t ht => ?_) ?_
  · subst ht
    refine ⟨⟨rfl, fun _ => rfl⟩, fun c v hv u hu => ⟨hu.symm, fun a ha => ?_⟩⟩
    cases hm : w.state.matchingOperation p o with
    | error e => simp [exec, hm, Except.map] at hv
    | ok stored =>
      obtain ⟨hget, hp⟩ := matchingOperation_eq_ok.mp hm
      simp only [exec, hm, Except.map, id_eq, Except.ok.injEq] at hv
      exact foreign stored a hget hp (hv ▸ ha)
  rintro operation t ⟨rfl, hforeign⟩
  cases hart : operation.artifact with
  | none => exact .throw
  | some a =>
    refine .bind (P := fun _ u => u = t) (idle_ask (fun _ => rfl) fun _ => rfl) ?_
    rintro present u rfl
    refine .bind (P := fun expected x => x = u ∧ expected.Attests iid p o a) ?_ ?_
    · refine .bind (P := fun _ x => x = u) (idle_ask (fun _ => rfl) fun _ => rfl) ?_
      rintro read x rfl
      cases read with
      | none => exact .throw
      | some read =>
        by_cases hread : read.Attests iid p o a
        · simp only [if_pos hread]
          exact .pure fun _ h => ⟨h.symm, hread⟩
        · simp only [if_neg hread]
          exact .throw
    rintro expected x ⟨rfl, hexpected⟩
    have hne : found ≠ expected := by
      rintro rfl
      exact hforeign a hart hexpected
    cases operation.state with
    | finalized => exact .bind (verifyAttestation_occupied hi hf hne) fun _ _ h => h.elim
    | built => exact .bind (placeInstalled_occupied hi hf hne) fun _ _ h => h.elim
    | accepted | building | failed | aborted => exact .throw

end

/-! ## The law -/

/-- **`finalize` can be cut anywhere, and overwrites nothing.**  In every state a run can reach: a
built operation whose directory is ready survives a crash after any steps of `finalize` exactly if its
record on disk says that it is built; and over a directory attested to another operation or artifact,
`finalize` fails, having changed neither that directory nor the candidate. -/
theorem finalize_recovers_or_refuses {labels : List Label} {s : System}
    (run : Run (System.next iid) (fun _ _ => True) System.initial labels s)
    (p : PluginId) (o : Uuid) (now : Timestamp) :
    (∀ r a, s.world.inMemory o = some r → r.operation.pluginId = p →
      r.operation.state = .built → r.operation.artifact = some a →
      s.world.Finalizable iid p o a → s.world.Reopenable iid → ((∀ outcomes opened again, ∃ operation w',
        (reopenAndFinalize iid p o opened again).alone iid ((finalize iid p o now).cut iid outcomes s.world) =
          (.ok operation, w') ∧ operation.state = .finalized ∧
        w'.installed p = (s.world.placed p o).installed p) ↔ s.world.JournalledBuilt p o a)) ∧
    (∀ content found, s.world.installed p = some content → content.attestation = some found →
      (∀ r a, s.world.inMemory o = some r → r.operation.pluginId = p →
        r.operation.artifact = some a → ¬ found.Attests iid p o a) →
      (∃ error, ((finalize iid p o now).alone iid s.world).1 = .error error) ∧
      ∀ outcomes rest w', Prog.steps (exec iid) outcomes (finalize iid p o now) s.world = (rest, w') →
        w'.installed p = s.world.installed p ∧ w'.candidates o = s.world.candidates o ∧
        ∀ result, rest = .ret result → ∃ error, result = .error error) := by
  have orderly := orderly_of_run run
  constructor
  · intro r a hr hplugin hs hart hready reopenable
    obtain ⟨content, found, hf, hatt, start, hplaced⟩ := hready.holds
    rw [hplaced]
    constructor
    · intro recovers
      -- the process dies before the first step
      obtain ⟨operation, w', h, -⟩ := recovers [] 0 0
      exact journalled_of_recovers orderly reopenable hr hs start hf hatt h
    · intro built outcomes opened again
      have hunack : r.operation.acknowledged = false := by
        by_contra hack
        have hover := orderly.closedInMemory o r hr (by simpa using hack)
        rw [hs] at hover
        cases hover
      have hw : Interrupted p o a content s.world s.world :=
        ⟨orderly.keyed, start, fun _ _ => rfl, fun _ _ => rfl,
          ⟨r, hr, hplugin, hart, hunack, .inl hs⟩, .inl rfl⟩
      exact (finalize_interrupted hw outcomes).recovers orderly reopenable built start hf hatt
  · intro content found hi hf foreign
    have outline := finalize_occupied now hi hf foreign
    have refused : ∀ result : Except InstallOperationError PluginInstallOperation,
        (∀ v, result = .ok v → False) → ∃ error, result = .error error := by
      intro result h
      cases result with
      | ok v => exact (h v rfl).elim
      | error e => exact ⟨e, rfl⟩
    refine ⟨refused _ (Prog.Along.run outline fun _ => trivial), fun outcomes rest w' hsteps => ?_⟩
    have hworld : w' = s.world := by
      have hkept := Prog.Along.steps_keep outline (Prog.uses_true _) outcomes (fun _ _ => trivial)
        (fun a c t _ hidle ht => (hidle.2 c).trans ht) rfl
      rwa [hsteps] at hkept
    have hrest := Prog.Along.steps outline outcomes fun _ _ => trivial
    rw [hsteps] at hrest
    subst hworld
    refine ⟨rfl, rfl, fun result hresult => refused result ?_⟩
    subst hresult
    exact hrest _ rfl

def recordingRun (outcome : Outcome) : List Label :=
  [.boot 0] ++ advances 0 5 ++ [.ready, .call (.begin "p" 1 0)] ++ advances 0 2 ++
    [.advance 1 (.clock 1), .advance 1 .done, .advance 1 (.built (.ok sampleOutput))] ++
    advances 1 3 ++ [.advance 1 (.clock 2), .advance 1 outcome] ++ advances 1 1

theorem finalize_recovers_sample :
    ∃ s, Run (System.next "core") (fun _ _ => True) System.initial (recordingRun .done) s ∧
      (∃ r, s.world.inMemory 1 = some r ∧ r.operation.state = .built) ∧
      ∀ outcomes opened again, ∃ operation w', (reopenAndFinalize "core" "p" 1 opened again).alone "core"
            ((finalize "core" "p" 1 3).cut "core" outcomes s.world) = (.ok operation, w') ∧
          operation.state = .finalized ∧ w'.installed "p" = (s.world.placed "p" 1).installed "p" := by
  have safe : Run (System.next "core") RestartSafe System.initial (recordingRun .done)
      (systemAfter (recordingRun .done)) := Run.of_decide rfl
  have run : Run (System.next "core") (fun _ _ => True) System.initial (recordingRun .done)
      (systemAfter (recordingRun .done)) := Run.of_foldlM rfl
  refine ⟨_, run, ⟨_, rfl, rfl⟩, ?_⟩
  exact ((finalize_recovers_or_refuses run "p" 1 3).1 _ sampleOutput.artifact rfl rfl rfl rfl
    (.inr ⟨rfl, _, _, rfl, rfl, by decide⟩) (recoverable_of_run safe).sound.onDisk).mpr
    ⟨_, rfl, rfl, rfl, rfl⟩

/-- **The record in memory is not enough.**  The file of `set_built` cannot be written, `finalize` moves
the directory, the process dies: the operation was interrupted, `finalize` is refused, and the
directory stays where it is. -/
theorem finalize_lost_after_unwritten_build : ∃ s, Run (System.next "core") (fun _ _ => True) System.initial
        (recordingRun (.failedBefore none)) s ∧ s.phase = .serving ∧
      (∃ r, s.world.inMemory 1 = some r ∧ r.operation.state = .built ∧
        r.operation.artifact = some sampleOutput.artifact) ∧
      s.world.Finalizable "core" "p" 1 sampleOutput.artifact ∧ s.world.installed "p" = none ∧
      ((openManager "core" 4).alone "core"
        ((finalize "core" "p" 1 3).cut "core" (List.replicate 7 .done) s.world)).1 = .ok () ∧
      ∃ w', (reopenAndFinalize "core" "p" 1 4 5).alone "core"
          ((finalize "core" "p" 1 3).cut "core" (List.replicate 7 .done) s.world) =
        (.error .invalidTransition, w') ∧ (w'.installed "p").isSome = true := by
  have run : Run (System.next "core") (fun _ _ => True) System.initial
      (recordingRun (.failedBefore none)) (systemAfter (recordingRun (.failedBefore none))) :=
    Run.of_foldlM rfl
  exact ⟨_, run, rfl, ⟨_, rfl, rfl, rfl⟩, .inr ⟨rfl, _, _, rfl, rfl, by decide⟩, rfl, rfl, _, rfl, rfl⟩

/-- Whatever fails and wherever the process dies: what is acknowledged is over, and what is not over in
memory is not over on disk, so `load_state` does not read it back as over. -/
theorem acknowledged_is_over {ok : System → Label → Prop} {labels : List Label} {s : System}
    (run : Run (System.next iid) ok System.initial labels s) (o : Uuid) :
    (∀ r, s.world.inMemory o = some r ∨ s.world.onDisk o = some r → r.operation.acknowledged = true →
      r.operation.state.isTerminal = true) ∧
    ∀ r d, s.world.inMemory o = some r → s.world.onDisk o = some d →
      r.operation.state.isTerminal = false → d.operation.state.isTerminal = false := by
  have orderly := orderly_of_run run
  exact ⟨fun r h => h.elim (orderly.closedInMemory o r) (orderly.closedOnDisk o r), orderly.behind o⟩

theorem built_is_not_over_on_disk : ∃ d, (systemAfter (recordingRun .done)).world.onDisk 1 = some d ∧
    d.operation.state.isTerminal = false := by
  have run : Run (System.next "core") (fun _ _ => True) .initial (recordingRun .done) _ := Run.of_foldlM rfl
  exact ⟨_, rfl, (acknowledged_is_over run 1).2 _ _ rfl rfl rfl⟩

end AudioDown.Supervisor
