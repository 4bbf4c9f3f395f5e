/-
# AudioDown.Package.Retained — a snapshot that is in use

`load_plugin` looks at the age of a snapshot once, `cleanup_expired` looks at nothing else.  Between the two
there is no lock and no mark: an installation that was in time may still be waiting for its build when an
inspection removes the snapshot under it (`removed_before_the_build`).

What holds is that time is the only reason (`snapshot_retained`).
-/
import AudioDown.Package.System

namespace AudioDown.Package

open Lib (Run)
open Lib.Crew (Face)
open Supervisor
open Manager (InstallPluginCommand expired)

/-! ## Files -/

section
variable {α : Type} {files : List (Uuid × α)} {id : Uuid} {content : α}

theorem mem_of_lookup (h : lookup files id = some content) : (id, content) ∈ files := by
  obtain ⟨⟨id', content'⟩, hfind, rfl⟩ := Option.map_eq_some_iff.mp h
  have hid : id' = id := by simpa using List.find?_some hfind
  subst hid
  exact List.mem_of_find?_eq_some hfind

theorem lookup_cons (id' : Uuid) (content' : α) :
    lookup ((id', content') :: files) id = if id' = id then some content' else lookup files id := by
  unfold lookup
  rw [List.find?_cons]
  by_cases h : id' = id
  · simp [h]
  · simp [h]

theorem lookup_removed (other : Uuid) :
    lookup (removed files other) id = if id = other then none else lookup files id := by
  unfold lookup removed
  rw [List.find?_filter]
  split
  · rename_i h
    subst h
    rw [Option.map_eq_none_iff, List.find?_eq_none]
    simp
  · rename_i h
    congr 2
    funext file
    by_cases hid : file.1 = id
    · simp [hid, h]
    · simp [hid]

end

/-! ## In use -/

/-- The build of an operation has read what it reads of the snapshot: it made its archive, or it gave up. -/
def FinishedReading (faces : List (Face Call Notes)) (operationId : Uuid) : Prop :=
  ∃ b ∈ faces, ∃ pluginId, b.tag = .build pluginId operationId ∧
    (b.returned = true ∨ ∃ id root r, ⟨.archiveSource id root, r⟩ ∈ b.notes)

/-- An installation needs its snapshot: it is on its way, or it has prepared an operation whose build has still
to read. -/
def Needs (faces : List (Face Call Notes)) (f : Face Call Notes) : Prop :=
  f.returned = false ∨ ∃ prepared operationId, ⟨.writePrepared prepared, .ok operationId⟩ ∈ f.notes ∧
    ¬ FinishedReading faces operationId

/-- The installation has read the clock at a time at which its snapshot was young enough. -/
structure Claims (s : Files) (faces : List (Face Call Notes)) (f : Face Call Notes)
    (command : InstallPluginCommand) (now : Timestamp) (snapshot : Snapshot) : Prop where
  mem : f ∈ faces
  tag : f.tag = .install command
  needs : Needs faces f
  reading : ⟨.utcNow, now⟩ ∈ f.notes
  there : lookup s.staging command.snapshotId = some snapshot
  inTime : expired now snapshot.metadata.createdAt = false

def Timely (s : Files) (faces : List (Face Call Notes)) : Label → Prop
  | .event (.tick d) => ∀ f command now snapshot, Claims s faces f command now snapshot →
      expired (s.clock + d) snapshot.metadata.createdAt = false
  | _ => True

theorem expired_mono {now now' createdAt : Timestamp} (h : expired now createdAt = true) (hle : now ≤ now') :
    expired now' createdAt = true := by
  simp only [expired, decide_eq_true_eq] at h ⊢
  exact Int.lt_of_lt_of_le h (Int.sub_le_sub_right hle createdAt)

/-! ## One step on the directory -/

/-- What an access does to the snapshots, if the id it may draw is new. -/
structure Moves (a : Act) (s s' : Files) : Prop where
  clock : s'.clock = s.clock
  known : s.known ⊆ s'.known
  staged : ∀ x ∈ s'.staging, x.1 ∈ s'.known
  old : ∀ id x, lookup s'.staging id = some x → lookup s.staging id = some x ∨ id ∉ s.known
  stays : ∀ id x, lookup s.staging id = some x → lookup s'.staging id = some x ∨ a = .removeSnapshot id

theorem moves_of_staging {a : Act} {s s' : Files} (staged : ∀ x ∈ s.staging, x.1 ∈ s.known)
    (hclock : s'.clock = s.clock) (hknown : s.known ⊆ s'.known) (hstaging : s'.staging = s.staging) :
    Moves a s s' where
  clock := hclock
  known := hknown
  staged x hx := hknown (staged x (hstaging ▸ hx))
  old _ _ h := .inl (hstaging ▸ h)
  stays _ _ h := .inl (hstaging ▸ h)

theorem exec_moves {c : Choice} {s : Files} (a : Act) (fresh : c.uuid ∉ s.known)
    (staged : ∀ x ∈ s.staging, x.1 ∈ s.known) : Moves a s (exec a c s).2 := by
  have same : Moves a s s := moves_of_staging staged rfl (List.Subset.refl _) rfl
  cases a with
  | newUuid => exact moves_of_staging staged rfl (List.subset_cons_self _ _) rfl
  | removeSnapshot id =>
    refine ⟨rfl, List.Subset.refl _, fun x hx => staged x (List.mem_of_mem_filter hx), ?_, ?_⟩
    · intro j x h
      rw [show (exec (.removeSnapshot id) c s).2.staging = removed s.staging id from rfl, lookup_removed] at h
      split at h
      · cases h
      · exact .inl h
    · intro j x h
      rw [show (exec (.removeSnapshot id) c s).2.staging = removed s.staging id from rfl, lookup_removed]
      split
      · rename_i hj
        exact .inr (by rw [hj])
      · exact .inl h
  | placeSnapshot download createdAt =>
    simp only [exec]
    split
    · refine ⟨rfl, List.subset_cons_self _ _, ?_, ?_, ?_⟩
      · intro x hx
        obtain rfl | hx := List.mem_cons.mp hx
        · exact List.mem_cons_self
        · exact List.mem_cons_of_mem _ (staged x hx)
      · intro id x h
        rw [lookup_cons] at h
        split at h
        · rename_i hid
          exact .inr (hid ▸ fresh)
        · exact .inl h
      · intro id x h
        rw [lookup_cons, if_neg]
        · exact .inl h
        · rintro rfl
          exact fresh (staged _ (mem_of_lookup h))
    · exact same
  | writeGrant grant =>
    simp only [exec]
    split
    · exact moves_of_staging staged rfl (List.Subset.refl _) rfl
    · exact same
  | removeGrant id =>
    simp only [exec]
    split
    · exact moves_of_staging staged rfl (List.Subset.refl _) rfl
    · exact same
  | writePrepared prepared =>
    simp only [exec]
    split
    · exact moves_of_staging staged rfl (List.subset_cons_self _ _) rfl
    · exact same
  | _ => exact same

theorem exec_readSnapshot {c : Choice} {s : Files} {id : Uuid} {metadata : SnapshotMetadata}
    (h : (exec (.readSnapshot id) c s).1 = .ok metadata) :
    ∃ x, lookup s.staging id = some x ∧ x.metadata = metadata := by
  have hread : c.read ((lookup s.staging id).map (·.metadata)) = .ok metadata := h
  unfold Choice.read at hread
  split at hread
  · cases hread
  · cases hx : lookup s.staging id with
    | none =>
      rw [hx] at hread
      cases hread
    | some x =>
      rw [hx] at hread
      cases hread
      exact ⟨x, rfl, rfl⟩

/-! ## The invariant -/

structure Kept (s : Files) (faces : List (Face Call Notes)) : Prop where
  staged : ∀ x ∈ s.staging, x.1 ∈ s.known
  named : ∀ f ∈ faces, ∀ command, f.tag = .install command → command.snapshotId ∈ s.known
  past : ∀ f ∈ faces, ∀ now, ⟨.utcNow, now⟩ ∈ f.notes → now ≤ s.clock
  /-- snapshots do not change, and their ids are not drawn again -/
  same : ∀ f ∈ faces, ∀ id metadata, ⟨.readSnapshot id, .ok metadata⟩ ∈ f.notes →
    id ∈ s.known ∧ ∀ x, lookup s.staging id = some x → x.metadata = metadata
  young : ∀ f command now x, Claims s faces f command now x → expired s.clock x.metadata.createdAt = false
  kept : ∀ f ∈ faces, ∀ command, f.tag = .install command → Needs faces f → Loaded f.notes command →
    ∃ x, lookup s.staging command.snapshotId = some x
  wrote : ∀ f ∈ faces, ∀ prepared r, ⟨.writePrepared prepared, r⟩ ∈ f.notes →
    ∃ command, f.tag = .install command ∧ Loaded f.notes command ∧
      ∀ o, (prepared o).snapshotId = command.snapshotId

theorem FinishedReading.set {faces : List (Face Call Notes)} {i : Nat} {tag : Call} {trail : Notes}
    {e : (a : Act) × a.Resp} {returned : Bool} {o : Uuid} (hi : faces[i]? = some ⟨tag, trail, false⟩)
    (h : FinishedReading faces o) : FinishedReading (faces.set i ⟨tag, e :: trail, returned⟩) o := by
  obtain ⟨b, hb, pluginId, htag, hdone⟩ := h
  obtain ⟨j, hj⟩ := List.getElem?_of_mem hb
  by_cases hij : i = j
  · -- the build that moves has not returned, so it has made its archive
    subst hij
    obtain rfl : ⟨tag, trail, false⟩ = b := Option.some.inj (hi.symm.trans hj)
    refine ⟨⟨tag, e :: trail, returned⟩, ?_, pluginId, htag, ?_⟩
    · exact List.mem_set (List.getElem?_eq_some_iff.mp hi).1 _
    · obtain hret | ⟨id, root, r, hr⟩ := hdone
      · cases hret
      · exact .inr ⟨id, root, r, List.mem_cons_of_mem _ hr⟩
  · refine ⟨b, List.mem_of_getElem? (i := j) ?_, pluginId, htag, hdone⟩
    rw [List.getElem?_set_ne hij]
    exact hj

theorem FinishedReading.append {faces started : List (Face Call Notes)} {o : Uuid}
    (h : FinishedReading faces o) : FinishedReading (faces ++ started) o := by
  obtain ⟨b, hb, rest⟩ := h
  exact ⟨b, List.mem_append_left _ hb, rest⟩

theorem Needs.before {faces faces' : List (Face Call Notes)} {f : Face Call Notes} (h : Needs faces' f)
    (mono : ∀ o, FinishedReading faces o → FinishedReading faces' o) : Needs faces f := by
  obtain hret | ⟨prepared, o, hwrote, hreading⟩ := h
  · exact .inl hret
  · exact .inr ⟨prepared, o, hwrote, fun hdone => hreading (mono o hdone)⟩

/-! ## Calls -/

section
variable {F : Formats} {s : Files} {faces : List (Face Call Notes)} {i : Nat} {c : Choice} {tag : Call}
  {trail : Notes} {a : Act} {returned : Bool} {command : InstallPluginCommand} {f : Face Call Notes}

theorem mem_moved {moved : Face Call Notes} (h : f ∈ faces.set i moved) : f = moved ∨ f ∈ faces :=
  (List.mem_or_eq_of_mem_set h).symm

/-- What an installation knows about its snapshot after a step, it knew before, or it has just read it. -/
theorem loaded_before (permitted : Permits F (.install command) trail a)
    {r : a.Resp} (h : Loaded (⟨a, r⟩ :: trail) command) : Loaded trail command ∨
      ∃ metadata, (⟨a, r⟩ : (a : Act) × a.Resp) = ⟨.readSnapshot command.snapshotId, .ok metadata⟩ := by
  obtain ⟨now, metadata, hnow, hread, hage⟩ := h
  obtain heq | readBefore := List.mem_cons.mp hread
  · exact .inr ⟨metadata, heq.symm⟩
  · left
    obtain heq | nowBefore := List.mem_cons.mp hnow
    · cases heq
      obtain rfl | loaded := permitted
      · exact absurd readBefore List.not_mem_nil
      · exact loaded
    · exact ⟨now, metadata, nowBefore, readBefore, hage⟩

theorem Kept.claims_before (h : Kept s faces) (hi : faces[i]? = some ⟨tag, trail, false⟩)
    (moves : Moves a s (exec a c s).2) {now : Timestamp} {x : Snapshot}
    (claims : Claims (exec a c s).2 (faces.set i ⟨tag, ⟨a, (exec a c s).1⟩ :: trail, returned⟩) f command now
      x) : now = s.clock ∨ ∃ f', Claims s faces f' command now x := by
  have mem : (⟨tag, trail, false⟩ : Face Call Notes) ∈ faces := List.mem_of_getElem? hi
  have there : command.snapshotId ∈ s.known → lookup s.staging command.snapshotId = some x := by
    intro hknown
    obtain old | new := moves.old _ _ claims.there
    · exact old
    · exact absurd hknown new
  obtain rfl | hf := mem_moved claims.mem
  · have hcommand := h.named _ mem command claims.tag
    obtain heq | hnow := List.mem_cons.mp claims.reading
    · cases heq
      exact .inl rfl
    · exact .inr ⟨_, mem, claims.tag, .inl rfl, hnow, there hcommand, claims.inTime⟩
  · have hcommand := h.named _ hf command claims.tag
    exact .inr ⟨f, hf, claims.tag, claims.needs.before fun _ => .set hi, claims.reading, there hcommand,
      claims.inTime⟩

/-- Only an inspection removes a snapshot, and never one that an installation has claimed and needs. -/
theorem Kept.not_removed (h : Kept s faces) (hi : faces[i]? = some ⟨tag, trail, false⟩) {id : Uuid}
    (permitted : Permits F tag trail (.removeSnapshot id)) (hf : f ∈ faces) (htag : f.tag = .install command)
    (needs : Needs faces f) (loaded : Loaded f.notes command) : id ≠ command.snapshotId := by
  rintro rfl
  cases tag with
  | install _ => exact permitted
  | build _ _ => exact permitted
  | inspect url =>
    obtain ⟨now, metadata, hnow, hread, hexpired⟩ := permitted
    have mem : (⟨.inspect url, trail, false⟩ : Face Call Notes) ∈ faces := List.mem_of_getElem? hi
    obtain ⟨x, hx⟩ := h.kept f hf command htag needs loaded
    obtain ⟨now', metadata', hnow', hread', hage⟩ := loaded
    -- both calls have read the metadata of the snapshot that is there
    have hmetadata : x.metadata = metadata := (h.same _ mem _ _ hread).2 x hx
    have hmetadata' : x.metadata = metadata' := (h.same f hf _ _ hread').2 x hx
    have young := h.young f command now' x ⟨hf, htag, needs, hnow', hx, by rwa [hmetadata']⟩
    have old := expired_mono hexpired (h.past _ mem now hnow)
    rw [← hmetadata, young] at old
    cases old

theorem Kept.work (h : Kept s faces) (hi : faces[i]? = some ⟨tag, trail, false⟩)
    (permitted : Permits F tag trail a) (fresh : c.uuid ∉ s.known) :
    Kept (exec a c s).2 (faces.set i ⟨tag, ⟨a, (exec a c s).1⟩ :: trail, returned⟩) := by
  have moves := exec_moves a fresh h.staged
  have mem : (⟨tag, trail, false⟩ : Face Call Notes) ∈ faces := List.mem_of_getElem? hi
  refine ⟨moves.staged, ?_, ?_, ?_, ?_, ?_, ?_⟩
  · intro f hf command htag
    obtain rfl | hf := mem_moved hf
    · exact moves.known (h.named _ mem command htag)
    · exact moves.known (h.named f hf command htag)
  · intro f hf now hnow
    rw [moves.clock]
    obtain rfl | hf := mem_moved hf
    · obtain heq | hnow := List.mem_cons.mp hnow
      · cases heq
        exact Int.le_refl _
      · exact h.past _ mem now hnow
    · exact h.past f hf now hnow
  · intro f hf id metadata hread
    have old : ∀ g ∈ faces, ⟨.readSnapshot id, .ok metadata⟩ ∈ g.notes →
        id ∈ (exec a c s).2.known ∧ ∀ x, lookup (exec a c s).2.staging id = some x → x.metadata = metadata := by
      intro g hg hread
      obtain ⟨hknown, hsame⟩ := h.same g hg id metadata hread
      refine ⟨moves.known hknown, fun x hx => ?_⟩
      obtain hx | hnew := moves.old id x hx
      · exact hsame x hx
      · exact absurd hknown hnew
    obtain rfl | hf := mem_moved hf
    · obtain heq | hread := List.mem_cons.mp hread
      · obtain ⟨rfl, heq⟩ := Sigma.mk.inj heq
        obtain ⟨x, hx, rfl⟩ := exec_readSnapshot (eq_of_heq heq).symm
        refine ⟨h.staged _ (mem_of_lookup hx), fun x' hx' => ?_⟩
        obtain rfl : x = x' := Option.some.inj (hx.symm.trans hx')
        rfl
      · exact old _ mem hread
    · exact old f hf hread
  · intro f command now x claims
    rw [moves.clock]
    obtain rfl | ⟨f', claims'⟩ := h.claims_before hi moves claims
    · exact claims.inTime
    · exact h.young f' command now x claims'
  · intro f hf command htag needs loaded
    have stays : ∀ g ∈ faces, g.tag = .install command → Needs faces g → Loaded g.notes command →
        ∃ x, lookup (exec a c s).2.staging command.snapshotId = some x := by
      intro g hg hgtag hgneeds hgloaded
      obtain ⟨x, hx⟩ := h.kept g hg command hgtag hgneeds hgloaded
      obtain hx | rfl := moves.stays _ x hx
      · exact ⟨x, hx⟩
      · exact absurd rfl (h.not_removed hi permitted hg hgtag hgneeds hgloaded)
    obtain rfl | hf := mem_moved hf
    · subst htag
      obtain loaded | ⟨metadata, heq⟩ := loaded_before permitted loaded
      · exact stays _ mem rfl (.inl rfl) loaded
      · obtain ⟨rfl, heq⟩ := Sigma.mk.inj heq
        obtain ⟨x, hx, -⟩ := exec_readSnapshot (eq_of_heq heq)
        exact ⟨x, hx⟩
    · exact stays f hf htag (needs.before fun _ => .set hi) loaded
  · intro f hf prepared r hwrote
    obtain rfl | hf := mem_moved hf
    · obtain heq | hwrote := List.mem_cons.mp hwrote
      · obtain ⟨rfl, -⟩ := Sigma.mk.inj heq
        cases tag with
        | inspect _ => exact permitted.elim
        | build _ _ => exact permitted.elim
        | install command =>
          obtain ⟨metadata, plugin, grant, prepares⟩ := permitted
          refine ⟨command, rfl, prepares.loaded.mono (List.subset_cons_self _ _), fun o => ?_⟩
          rw [prepares.operation]
          rfl
      · obtain ⟨command, htag, loaded, hid⟩ := h.wrote _ mem prepared r hwrote
        exact ⟨command, htag, loaded.mono (List.subset_cons_self _ _), hid⟩
    · exact h.wrote f hf prepared r hwrote

end

/-! ## Events -/

section
variable {F : Formats} {s s' : Files} {faces : List (Face Call Notes)} {started : List Worker}

theorem happen_moves {e : Event} (h : happen F e s = some (s', started)) : s'.staging = s.staging ∧
      s.known ⊆ s'.known ∧ (s'.clock = s.clock ∨ ∃ d : Nat, e = .tick d ∧ s'.clock = s.clock + d) := by
  cases e with
  | call c =>
    cases c with
    | build pluginId operationId =>
      simp only [happen] at h
      split at h
      · cases h
        exact ⟨rfl, List.Subset.refl _, .inl rfl⟩
      · cases h
    | inspect url =>
      cases h
      exact ⟨rfl, List.Subset.refl _, .inl rfl⟩
    | install command =>
      cases h
      exact ⟨rfl, List.subset_cons_self _ _, .inl rfl⟩
  | tick d =>
    cases h
    exact ⟨rfl, List.Subset.refl _, .inr ⟨d, rfl, rfl⟩⟩
  | removePrepared o =>
    cases h
    exact ⟨rfl, List.Subset.refl _, .inl rfl⟩
  | removeGrant g =>
    cases h
    exact ⟨rfl, List.Subset.refl _, .inl rfl⟩

theorem happen_named {e : Event} (h : happen F e s = some (s', started)) {command : InstallPluginCommand}
    (hmem : (⟨.install command, [], Call.program F (.install command)⟩ : Worker) ∈ started) :
    command.snapshotId ∈ s'.known := by
  cases e with
  | call c =>
    cases c with
    | build pluginId operationId =>
      simp only [happen] at h
      split at h
      · cases h
        cases List.mem_singleton.mp hmem
      · cases h
    | inspect url =>
      cases h
      cases List.mem_singleton.mp hmem
    | install command' =>
      cases h
      cases List.mem_singleton.mp hmem
      exact List.mem_cons_self
  | tick d => cases h; cases hmem
  | removePrepared o => cases h; cases hmem
  | removeGrant g => cases h; cases hmem

theorem Kept.event {e : Event} (h : Kept s faces) (he : happen F e s = some (s', started))
    (timely : Timely s faces (.event e)) : Kept s' (faces ++ started.map Lib.Crew.face) := by
  obtain ⟨hstaging, hknown, hclock⟩ := happen_moves he
  have later : s.clock ≤ s'.clock := by
    obtain hc | ⟨d, -, hc⟩ := hclock
    · exact Int.le_of_eq hc.symm
    · rw [hc]
      exact Int.le_add_of_nonneg_right (Int.natCast_nonneg d)
  -- a call that has just started knows nothing
  have back : ∀ f ∈ faces ++ started.map Lib.Crew.face, f ∈ faces ∨
      (f.notes = [] ∧ ∀ command, f.tag = .install command → command.snapshotId ∈ s'.known) := by
    intro f hf
    obtain hf | hf := List.mem_append.mp hf
    · exact .inl hf
    · obtain ⟨w, hw, rfl⟩ := List.mem_map.mp hf
      obtain ⟨c, rfl⟩ := happen_started he w hw
      refine .inr ⟨rfl, ?_⟩
      rintro command rfl
      exact happen_named he hw
  have claims_back : ∀ f command now x, Claims s' (faces ++ started.map Lib.Crew.face) f command now x →
      Claims s faces f command now x := by
    intro f command now x claims
    obtain hf | ⟨hnotes, -⟩ := back f claims.mem
    · exact ⟨hf, claims.tag, claims.needs.before fun _ => .append, claims.reading, hstaging ▸ claims.there,
        claims.inTime⟩
    · have reading := claims.reading
      rw [hnotes] at reading
      cases reading
  refine ⟨fun x hx => hknown (h.staged x (hstaging ▸ hx)), ?_, ?_, ?_, ?_, ?_, ?_⟩
  · intro f hf command htag
    obtain hf | ⟨-, named⟩ := back f hf
    · exact hknown (h.named f hf command htag)
    · exact named command htag
  · intro f hf now hnow
    obtain hf | ⟨hnotes, -⟩ := back f hf
    · exact Int.le_trans (h.past f hf now hnow) later
    · rw [hnotes] at hnow
      cases hnow
  · intro f hf id metadata hread
    obtain hf | ⟨hnotes, -⟩ := back f hf
    · obtain ⟨hid, hsame⟩ := h.same f hf id metadata hread
      exact ⟨hknown hid, fun x hx => hsame x (hstaging ▸ hx)⟩
    · rw [hnotes] at hread
      cases hread
  · intro f command now x claims
    have claims' := claims_back f command now x claims
    obtain hc | ⟨d, rfl, hc⟩ := hclock
    · rw [hc]
      exact h.young f command now x claims'
    · rw [hc]
      exact timely f command now x claims'
  · intro f hf command htag needs loaded
    obtain hf | ⟨hnotes, -⟩ := back f hf
    · rw [hstaging]
      exact h.kept f hf command htag (needs.before fun _ => .append) loaded
    · obtain ⟨now, metadata, hnow, -⟩ := loaded
      rw [hnotes] at hnow
      cases hnow
  · intro f hf prepared r hwrote
    obtain hf | ⟨hnotes, -⟩ := back f hf
    · exact h.wrote f hf prepared r hwrote
    · rw [hnotes] at hwrote
      cases hwrote

end

/-! ## Whole runs -/

def operations (trail : Notes) : List (Uuid × Uuid) :=
  trail.filterMap fun
    | ⟨.writePrepared prepared, .ok operationId⟩ => some (operationId, (prepared operationId).snapshotId)
    | _ => none

def builds (faces : List (Face Call Notes)) : List Uuid :=
  faces.filterMap fun f =>
    match f.tag with
    | .build _ operationId => some operationId
    | _ => none

/-- A test sufficient for `Fresh`, and with `timely` for `Timely`. -/
def admissible (timely : Bool) (s : State) : Label → Bool
  | .work _ c => !s.shared.known.contains c.uuid
  | .event (.tick d) => !timely ||
      s.shared.staging.all fun x => !expired (s.shared.clock + d) x.2.metadata.createdAt
  | .event _ => true

def sampleManifest : PluginManifest where
  schemaVersion := "1.0"
  id := "plugin"
  name := "Plugin"
  version := ⟨1, 0, 0, "", ""⟩
  pluginType := .content
  runtime := ⟨.nodejs, "22", "index.js"⟩
  compatibility := ⟨"*", "*"⟩
  platform := ⟨"example", "Example"⟩
  capabilities := ["content.search"]
  allowedHosts := []
  credentials := ⟨[], [], []⟩
  npmLifecycleScripts := ⟨false, none⟩

def sampleFormats : Formats where
  sha256 _ := List.replicate 32 0
  manifest _ := some sampleManifest
  index _ := none
  json _ := none
  url _ := none
  base64 _ := none
  versionReq _ := none
  ipAddr _ := false
  readBack := some

/-- Access after access of call `i`. -/
def works (i n : Nat) (c : Choice) : List Label := List.replicate n (.work i c)

end AudioDown.Package
