/-
# AudioDown.Supervisor.Discipline — what the manager's tasks know when they act

A task acts on what it saw some steps ago.  `Disciplined` collects the assertions under which the
steps that matter are taken: `finalized` is recorded only over a directory attested to the operation,
an artifact is recorded and a candidate published only for an operation without one, a candidate is
removed only for an operation that is aborted or failed, and an installed directory is not removed at
all.
-/
import AudioDown.Supervisor.Alone
import AudioDown.Supervisor.Tasks

namespace AudioDown.Supervisor

open Lib (Prog)

variable {iid : String}

/-! ## What the manager's tasks know

The assertions of `Disciplined` are all a step has to meet for the journal to stay honoured and for
every other task's knowledge to stay true. -/

/-- `candidates/<op>`, if it is there, is attested to operation `o` with artifact `a`; unless the
operation is dead, in which case it will never be recorded as finalized. -/
def World.CandidateFits (iid : String) (w : World) (p : PluginId) (o : Uuid)
    (a : PluginInstallArtifact) : Prop :=
  w.Dead p o ∨ ∀ content, w.candidates o = some content →
    ∃ found, content.attestation = some found ∧ found.Attests iid p o a

def Disciplined (iid : String) : Act → World → Prop
  | .setState p o .finalized _ _, w => ∀ r, w.inMemory o = some r → r.operation.pluginId = p →
      r.operation.state ≠ .aborted → r.operation.state ≠ .failed →
      ∃ a, r.operation.artifact = some a ∧ w.Attested iid (.installed p) p o a
  | .setBuilt _ o _ _ _, w => w.Unbuilt o
  | .publishCandidate o _ _, w => w.Unbuilt o
  | .removeDirectory (.candidate o), w => w.Doomed o
  | .removeDirectory (.installed _), _ => False
  | .loadState, _ => False
  | _, _ => True

theorem disciplined_quiet {a : Act} (h : a.Quiet) (w : World) : Disciplined iid a w := by
  cases a <;> trivial

/-- What a running `finalize` relies on. -/
structure FinalizeRely (iid : String) (p : PluginId) (o : Uuid) (w w' : World) : Prop where
  carries : ∀ a, w.Carries p o a → w'.Carries p o a
  dead : w.Dead p o → w'.Dead p o
  fits : ∀ a, w.Carries p o a → w.CandidateFits iid p o a → w'.CandidateFits iid p o a
  attested : ∀ a, w.Attested iid (.installed p) p o a → w'.Attested iid (.installed p) p o a

/-- What a running `abort` relies on. -/
structure AbortRely (o : Uuid) (w w' : World) : Prop where
  doomed : w.Doomed o → w'.Doomed o
  settled : w.Settled o → w'.Settled o

/-- What a running build relies on. -/
structure BuildRely (o : Uuid) (w w' : World) : Prop where
  unbuilt : w.Unbuilt o → w'.Unbuilt o

/-- What `open` relies on: nobody else is there. -/
structure OpeningRely (w w' : World) : Prop where
  state : w'.state = w.state
  records : w'.records = w.records

instance (p : PluginId) (o : Uuid) : Std.Refl (FinalizeRely iid p o) :=
  ⟨fun _ => ⟨fun _ h => h, fun h => h, fun _ _ h => h, fun _ h => h⟩⟩

instance (p : PluginId) (o : Uuid) : IsTrans World (FinalizeRely iid p o) :=
  ⟨fun _ _ _ h h' => ⟨fun a ha => h'.carries a (h.carries a ha), fun ha => h'.dead (h.dead ha),
    fun a hc ha => h'.fits a (h.carries a hc) (h.fits a hc ha),
    fun a ha => h'.attested a (h.attested a ha)⟩⟩

instance (o : Uuid) : Std.Refl (AbortRely o) := ⟨fun _ => ⟨fun h => h, fun h => h⟩⟩

instance (o : Uuid) : IsTrans World (AbortRely o) :=
  ⟨fun _ _ _ h h' => ⟨fun hd => h'.doomed (h.doomed hd), fun hs => h'.settled (h.settled hs)⟩⟩

instance (o : Uuid) : Std.Refl (BuildRely o) := ⟨fun _ => ⟨fun h => h⟩⟩

instance (o : Uuid) : IsTrans World (BuildRely o) :=
  ⟨fun _ _ _ h h' => ⟨fun hu => h'.unbuilt (h.unbuilt hu)⟩⟩

instance : Std.Refl OpeningRely := ⟨fun _ => ⟨rfl, rfl⟩⟩

instance : IsTrans World OpeningRely :=
  ⟨fun _ _ _ h h' => ⟨h'.state.trans h.state, h'.records.trans h.records⟩⟩

/-! ## Outlines of the methods -/

section
variable {R : World → World → Prop} [Std.Refl R] [IsTrans World R] {p : PluginId} {o : Uuid}
  {w : World}

omit [Std.Refl R] [IsTrans World R] in
theorem quiet_outline {α : Type} {x : Call α} {A : World → Prop} (uses : Prog.Uses Act.Quiet x)
    (stable : ∀ s t, R s t → A s → A t) (frame : ∀ s t : World, t.state = s.state →
      t.candidates = s.candidates → t.installed = s.installed → A s → A t) (hw : A w) :
    Outline iid R (Disciplined iid) (fun _ => A) x w :=
  .of_uses uses stable (fun a c s hquiet hs => by
      obtain ⟨hstate, -, hcand, hinst⟩ := exec_quiet iid hquiet c s
      exact frame s _ hstate hcand hinst hs)
    (fun a s hquiet _ => disciplined_quiet hquiet s) hw

omit [IsTrans World R] in
theorem attestationFromDirectory_outline {directory : Directory} {a : PluginInstallArtifact}
    {A : World → Prop} (stable : ∀ s t, R s t → A s → A t) (hw : A w) : Outline iid R (Disciplined iid)
      (fun found t => found.Attests iid p o a ∧ A t) (attestationFromDirectory iid directory p o a) w := by
  refine .bind (P := fun _ => A) (.ask fun t ht => ⟨trivial, fun c u hu => stable t u hu (stable w t ht hw)⟩) ?_
  intro found t ht
  cases found with
  | none => exact .throw
  | some found =>
    dsimp only
    split
    · rename_i hfound
      exact .pure fun u hu => ⟨hfound, stable t u hu ht⟩
    · exact .throw

/-- After `verify_attestation` the caller knows what the directory held when it was read. -/
theorem verifyAttestation_outline {directory : Directory}
    {expected : InstallAttestation} {B : World → Prop} (read : ∀ t, R w t →
      (t.directory directory).bind InstallDirectory.attestation = some expected → ∀ u, R t u → B u) :
    Outline iid R (Disciplined iid) (fun _ => B) (verifyAttestation directory expected) w := by
  refine .bind (P := fun found u => found = some expected → ∀ v, R u v → B v)
    (.ask fun t ht => ⟨trivial, fun c u hu hfound v hv => ?_⟩) ?_
  · refine read t ht ?_ v (IsTrans.trans _ _ _ hu hv)
    simp only [exec] at hfound
    split at hfound
    · cases hfound
    · exact hfound
  · intro found t ht
    cases found with
    | none => exact .throw
    | some actual =>
      dsimp only
      split
      · rename_i heq
        exact .pure fun u hu => ht (by rw [heq]) u hu
      · exact .throw

end

section
variable {p : PluginId} {o : Uuid} {a : PluginInstallArtifact} {w : World}

/-- What is known once the directory is in place: it is attested to the operation, or the operation
is dead. -/
def World.Placed (iid : String) (w : World) (p : PluginId) (o : Uuid) (a : PluginInstallArtifact) : Prop :=
  w.Carries p o a ∧ (w.Dead p o ∨ w.Attested iid (.installed p) p o a)

theorem FinalizeRely.placed {w' : World} (h : FinalizeRely iid p o w w')
    (hw : w.Placed iid p o a) : w'.Placed iid p o a :=
  ⟨h.carries a hw.1, hw.2.imp h.dead (h.attested a)⟩

theorem renameCandidate_placed {c : Outcome} (hcarries : w.Carries p o a) (hfits : w.CandidateFits iid p o a)
    (hok : (exec iid (.renameCandidate p o) c w).1 = .ok ()) :
    (exec iid (.renameCandidate p o) c w).2.Placed iid p o a := by
  change (w.renameCandidate p o c).1 = .ok () at hok
  show (w.renameCandidate p o c).2.Placed iid p o a
  rcases renameCandidate_cases p o c w with ⟨-, e, he⟩ | ⟨content, hcontent, h, -⟩
  · rw [he] at hok
    cases hok
  · rw [h]
    refine ⟨hcarries, ?_⟩
    rcases hfits with hdead | hfits
    · exact .inl hdead
    · obtain ⟨found, hfound, hattests⟩ := hfits content hcontent
      exact .inr ⟨content, found, by simp [World.setDirectory, World.directory], hfound, hattests⟩

theorem placeInstalled_outline {expected : InstallAttestation}
    (hexpected : expected.Attests iid p o a) (hw : w.Carries p o a) :
    Outline iid (FinalizeRely iid p o) (Disciplined iid) (fun _ t => t.Placed iid p o a)
      (placeInstalled p o expected) w := by
  refine .bind (P := fun _ t => t.Carries p o a)
    (.ask fun t ht => ⟨trivial, fun c u hu => hu.carries a (ht.carries a hw)⟩) ?_
  intro exists_ t ht
  cases exists_ with
  | true =>
    -- an interrupted call has renamed it already
    refine .bind (P := fun _ t => t.Placed iid p o a) (verifyAttestation_outline fun u hu hread v hv => ?_) ?_
    · obtain ⟨content, hcontent, hfound⟩ := Option.bind_eq_some_iff.mp hread
      exact hv.placed ⟨hu.carries a ht, .inr ⟨content, expected, hcontent, hfound, hexpected⟩⟩
    · intro _ u hu
      refine .bind (P := fun _ t => t.Placed iid p o a)
        (.ask fun v hv => ⟨trivial, fun c x hx => hx.placed (hv.placed hu)⟩) ?_
      intro candidateExists v hv
      cases candidateExists with
      | true => exact .throw
      | false => exact .pure fun x hx => hx.placed hv
  | false =>
    refine .bind (P := fun _ t => t.Carries p o a ∧ t.CandidateFits iid p o a)
      (verifyAttestation_outline fun u hu hread v hv => ?_) ?_
    · obtain ⟨content, hcontent, hfound⟩ := Option.bind_eq_some_iff.mp hread
      have hcarries := hu.carries a ht
      refine ⟨hv.carries a hcarries, hv.fits a hcarries (.inr fun content' hcontent' => ?_)⟩
      cases hcontent.symm.trans hcontent'
      exact ⟨expected, hfound, hexpected⟩
    · intro _ u hu
      refine .bind (P := fun _ t => t.Carries p o a ∧ t.CandidateFits iid p o a)
        (.of (a := .createInstalledParent) id rfl fun v hv => ⟨trivial, ?_⟩) ?_
      · intro c _ _ x hx
        have hcarries := hv.carries a hu.1
        exact ⟨hx.carries a hcarries, hx.fits a hcarries (hv.fits a hu.1 hu.2)⟩
      · intro _ v hv
        refine .bind (P := fun _ t => t.Placed iid p o a)
          (.of (a := .renameCandidate p o) id rfl fun x hx => ⟨trivial, ?_⟩) ?_
        · intro c _ hok y hy
          exact hy.placed (renameCandidate_placed (hx.carries a hv.1) (hx.fits a hv.1 hv.2) hok)
        · intro _ x hx
          exact .of (a := .syncInstalledParent) id rfl fun y hy =>
            ⟨trivial, fun c _ _ z hz => hz.placed (hy.placed hx)⟩

/-- **`finalize` is disciplined**: it records `finalized` only over a directory attested to the
operation it records. -/
theorem finalize_outline (p : PluginId) (o : Uuid) (now : Timestamp) (w : World) :
    Outline iid (FinalizeRely iid p o) (Disciplined iid) (fun _ _ => True) (finalize iid p o now) w := by
  refine .bind (P := fun v t => ∀ a, v.artifact = some a → t.Carries p o a)
    (.of (a := .status p o) id rfl fun t _ => ⟨trivial, fun c v hv u hu a ha => ?_⟩) ?_
  · refine hu.carries a fun r hr hp _ _ => ?_
    have hmatch : t.state.matchingOperation p o = .ok r := matchingOperation_eq_ok.mpr ⟨hr, hp⟩
    simp only [exec, hmatch, Except.map, id_eq, Except.ok.injEq] at hv
    rw [hv]
    exact ha
  intro operation t ht
  cases hart : operation.artifact with
  | none => exact .throw
  | some a =>
    have hcarries := ht a hart
    refine .bind (P := fun _ t => t.Carries p o a)
      (.ask fun u hu => ⟨trivial, fun c v hv => hv.carries a (hu.carries a hcarries)⟩) ?_
    intro installedExists u hu
    refine .bind (attestationFromDirectory_outline (fun s t h hs => h.carries a hs) hu) ?_
    rintro expected v ⟨hexpected, hv⟩
    have trailing : ∀ (result : PluginInstallOperation) (x : World),
        Outline iid (FinalizeRely iid p o) (Disciplined iid)
          (fun _ _ => True) (do removeMirrors o; return result) x := fun result x =>
      .bind (quiet_outline (A := fun _ => True) (removeMirrors_quiet o) (fun _ _ _ h => h)
          (fun _ _ _ _ _ h => h) trivial)
        fun _ _ _ => .pure fun _ _ => trivial
    cases operation.state with
    | finalized =>
      exact .bind (quiet_outline (A := fun _ => True) (verifyAttestation_quiet _ _) (fun _ _ _ h => h)
          (fun _ _ _ _ _ h => h) trivial)
        fun _ x _ => trailing operation x
    | built =>
      refine .bind (placeInstalled_outline hexpected hv) ?_
      intro _ x hx
      refine .bind (P := fun _ _ => True) (.of (a := .setState p o .finalized none now) id rfl fun y hy =>
          ⟨fun r hr hp hna hnf => ?_, fun _ _ _ _ _ => trivial⟩)
        fun result z _ => trailing result z
      obtain ⟨hcarries, hdead | hattested⟩ := hy.placed hx
      · exact absurd (hdead r hr hp) (by simp [hna, hnf])
      · exact ⟨a, hcarries r hr hp hna hnf, hattested⟩
    | _ => exact .throw

end

section
variable {p : PluginId} {o : Uuid} {w : World}

/-- What an assertion has to grant for `abort` to be outlined with it. -/
structure AllowsAbort (p : PluginId) (o : Uuid) (Φ : Act → World → Prop) : Prop where
  inert : ∀ a w, a.Inert → Φ a w
  change : ∀ errorCode now w, Φ (.setState p o .aborted errorCode now) w
  candidate : ∀ w, w.Doomed o → Φ (.removeDirectory (.candidate o)) w
  image : ∀ i w, w.Doomed o → Φ (.removeImage i) w

variable {Φ : Act → World → Prop}

theorem abort_check_outline {α : Type} {x : Call α} {A : World → Prop}
    (uses : Prog.Uses Act.Inert x) (allows : AllowsAbort p o Φ) (stable : ∀ s t, AbortRely o s t → A s → A t)
    (frame : ∀ s t : World, t.state = s.state → A s → A t) (hw : A w) :
    Outline iid (AbortRely o) Φ (fun _ => A) x w :=
  .of_uses uses stable (fun _ c s hinert hs => frame s _ (exec_inert iid hinert c s).1 hs)
    (fun a s hinert _ => allows.inert a s hinert) hw

theorem doomed_frame (s t : World) (h : t.state = s.state) (hs : s.Doomed o) : t.Doomed o :=
  fun r hr => hs r (by rwa [World.inMemory, ← h])

theorem settled_frame (s t : World) (h : t.state = s.state) (hs : s.Settled o) : t.Settled o :=
  fun r hr => hs r (by rwa [World.inMemory, ← h])

/-- What `abort` does after its state change: it removes the candidate and the image of a doomed
operation, and never an installed directory, since a `finalized` snapshot does not get this far. -/
theorem releaseResources_outline (allows : AllowsAbort p o Φ) {operation : PluginInstallOperation}
    (hne : operation.state ≠ .finalized) (hw : w.Doomed o) : Outline iid (AbortRely o) Φ (fun _ _ => True)
      (releaseResources iid p o operation) w := by
  have cleanup : ∀ t : World, Outline iid (AbortRely o) Φ (fun _ _ => True)
      (.adapter (step (.cleanupTemporaryResources o))) t := fun t =>
    (abort_check_outline (uses_adapter (uses_step trivial)) allows (fun _ _ _ h => h) (fun _ _ _ h => h) trivial)
  refine .bind (.of id rfl fun t ht =>
      ⟨allows.candidate t (ht.doomed hw), fun c _ _ u hu => hu.doomed ?_⟩) ?_
  · exact exec_keeps_doomed (by simp) (by rintro ⟨⟨_, _, h⟩, -⟩; cases h) (ht.doomed hw)
  intro _ t ht
  rw [if_neg hne]
  refine .bind (P := fun _ t => t.Doomed o)
    (abort_check_outline (removeMirrors_inert o) allows (fun _ _ h => h.doomed) doomed_frame ht) ?_
  intro _ u hu
  cases operation.artifact with
  | none => exact cleanup u
  | some a =>
    refine .bind (P := fun _ _ => True) ?_ fun _ v _ => cleanup v
    refine Prog.Along.bind (Q := fun _ _ => True) (along_step (a := .removeImage a.imageId) fun v hv =>
        ⟨allows.image _ v (hv.doomed hu), fun _ _ _ => trivial⟩) fun r v _ => ?_
    cases r <;> exact fun _ _ _ _ => trivial

/-- `abort` under any assertion that allows it: from a `finalized` snapshot it never reaches the
removal of the installed directory, because `set_state` refuses. -/
theorem abort_outline_of (allows : AllowsAbort p o Φ) (now : Timestamp) (w : World) :
    Outline iid (AbortRely o) Φ (fun _ _ => True) (abort iid p o now) w := by
  refine .bind (P := fun v t => (v.state = .finalized → t.Settled o) ∧ (v.state = .aborted → t.Doomed o))
    (.of (a := .status p o) id rfl fun t _ =>
      ⟨allows.inert _ _ trivial, fun c v hv u hu => ?_⟩) ?_
  · have hsnapshot : ∀ r, t.inMemory o = some r → r.operation.state = v.state := by
      intro r hr
      cases hm : t.state.matchingOperation p o with
      | error e => simp [exec, hm, Except.map] at hv
      | ok stored =>
        obtain ⟨hget, -⟩ := matchingOperation_eq_ok.mp hm
        simp only [exec, hm, Except.map, id_eq, Except.ok.injEq] at hv
        cases hget.symm.trans hr
        rw [hv]
    exact ⟨fun hs => hu.settled fun r hr => .inl ((hsnapshot r hr).trans hs),
      fun hs => hu.doomed fun r hr => .inl ((hsnapshot r hr).trans hs)⟩
  rintro operation t ⟨hsettled, hdoomed⟩
  have tail : ∀ (result : PluginInstallOperation) (u : World), operation.state ≠ .finalized → u.Doomed o →
      Outline iid (AbortRely o) Φ (fun _ _ => True)
        (do releaseResources iid p o operation; return result) u :=
    fun result u hne hu => .bind (releaseResources_outline allows hne hu)
      fun _ _ _ => .pure fun _ _ => trivial
  by_cases hfin : operation.state = .finalized
  · rw [if_pos hfin]
    refine .bind (abort_check_outline (verifyInstalled_inert ..) allows (fun _ _ h => h.settled)
        settled_frame (hsettled hfin)) ?_
    intro _ u hu
    simp only [hfin, reduceCtorEq, if_false]
    refine .bind (P := fun _ _ => False)
      (.of (a := .setState p o .aborted operation.errorCode now) id rfl fun v hv =>
        ⟨allows.change .., fun c result hresult _ _ => ?_⟩) fun _ _ h => h.elim
    exact setState_aborted_refused (hv.settled hu) result hresult
  · rw [if_neg hfin]
    by_cases hab : operation.state = .aborted
    · rw [if_pos hab]
      exact .bind (P := fun _ t => t.Doomed o)
        (.pure fun u hu => hu.doomed (hdoomed hab)) fun result u hu => tail result u hfin hu
    · rw [if_neg hab]
      refine .bind (P := fun _ t => t.Doomed o)
        (.of (a := .setState p o .aborted operation.errorCode now) id rfl fun u _ =>
          ⟨allows.change .., fun c result hresult v hv => hv.doomed ?_⟩)
        fun result u hu => tail result u hfin hu
      obtain ⟨r, hr, hrv, hstate, -⟩ := setState_returns hresult
      intro r' hr'
      cases hr.symm.trans hr'
      exact .inl (by rw [hrv, hstate])

theorem disciplined_allowsAbort (p : PluginId) (o : Uuid) : AllowsAbort p o (Disciplined iid) where
  inert _ w hi := disciplined_quiet hi.quiet w
  change _ _ _ := trivial
  candidate _ h := h
  image _ _ _ := trivial

/-- **`abort` is disciplined.** -/
theorem abort_outline (p : PluginId) (o : Uuid) (now : Timestamp) (w : World) :
    Outline iid (AbortRely o) (Disciplined iid) (fun _ _ => True) (abort iid p o now) w :=
  abort_outline_of (disciplined_allowsAbort p o) now w

end

section
variable {p : PluginId} {o : Uuid} {w : World}

theorem build_step_outline {a : Act} (hload : a ≠ .loadState)
    (hbuilt : ∀ p artifact logs now, a ≠ .setBuilt p o artifact logs now)
    (asserted : ∀ t : World, t.Unbuilt o → Disciplined iid a t) (hw : w.Unbuilt o) : Prog.Along (exec iid)
      (fun _ => True) (BuildRely o) (Disciplined iid) (fun _ t => t.Unbuilt o) (step a) w :=
  along_step fun t ht => ⟨asserted t (ht.unbuilt hw),
    fun _ _ hu => hu.unbuilt (exec_keeps_unbuilt hload hbuilt (ht.unbuilt hw))⟩

theorem recordFailure_outline (code : String) (logs : List PluginBuildLog) :
    Prog.Along (exec iid) (fun _ => True) (BuildRely o) (Disciplined iid) (fun _ _ => True)
      (recordFailure p o code logs) w :=
  .bind (along_step (P := fun _ _ => True) fun _ _ => ⟨trivial, fun _ _ _ => trivial⟩)
    fun _ _ _ => .bind (along_step (P := fun _ _ => True) fun _ _ => ⟨trivial, fun _ _ _ => trivial⟩)
      fun _ _ _ _ _ => trivial

theorem writeCandidate_outline (found : InstallAttestation) (manifest : List UInt8) (hw : w.Unbuilt o) :
    Prog.Along (exec iid) (fun _ => True) (BuildRely o) (Disciplined iid)
      (fun _ t => t.Unbuilt o) (writeCandidate o found manifest) w := by
  refine .bind (Q := fun _ t => t.Unbuilt o)
    (fun t ht => ⟨trivial, fun c _ u hu => hu.unbuilt (ht.unbuilt hw)⟩) ?_
  intro present t ht
  cases present with
  | error e => exact fun u hu => hu.unbuilt ht
  | ok present =>
    cases present with
    | true => exact fun u hu => hu.unbuilt ht
    | false =>
      exact build_step_outline (by simp) (by simp) (fun _ h => h) ht

theorem storeOutput_outline (output : BuildOutput) (hw : w.Unbuilt o) :
    Prog.Along (exec iid) (fun _ => True) (BuildRely o) (Disciplined iid) (fun _ _ => True)
      (storeOutput iid p o output) w := by
  refine .bind (build_step_outline (by simp) (by simp) (fun _ _ => trivial) hw) ?_
  intro observed t ht
  have removing : ∀ u : World, Prog.Along (exec iid) (fun _ => True) (BuildRely o)
      (Disciplined iid) (fun _ _ => True) (step (.removeImage output.artifact.imageId))
      u := fun u => along_step fun _ _ => ⟨trivial, fun _ _ _ => trivial⟩
  split
  · exact .bind (removing t) fun _ _ _ _ _ => trivial
  · refine .bind (writeCandidate_outline _ _ ht) ?_
    intro result u hu
    cases result with
    | error e =>
      exact .bind (removing u) fun _ v _ => recordFailure_outline _ _
    | ok _ =>
      refine .bind (build_step_outline (by simp) (by simp) (fun _ _ => trivial) hu) ?_
      intro now v hv
      exact .bind (along_step (P := fun _ _ => True) fun x hx => ⟨hx.unbuilt hv, fun _ _ _ => trivial⟩)
        fun _ _ _ _ _ => trivial

/-- **A build is disciplined**: it publishes its candidate and records its artifact only on an
operation that has none. -/
theorem runBuild_outline (p : PluginId) (o : Uuid) {w : World} (hw : w.Unbuilt o) :
    Prog.Along (exec iid) (fun _ => True) (BuildRely o) (Disciplined iid) (fun _ _ => True)
      (runBuild iid p o) w := by
  refine .bind (build_step_outline (by simp) (by simp) (fun _ _ => trivial) hw) ?_
  intro now t ht
  refine .bind (build_step_outline (by simp) (by simp) (fun _ _ => trivial) ht) ?_
  intro started u hu
  cases started with
  | error e => exact fun _ _ => trivial
  | ok _ =>
    refine .bind (build_step_outline (by simp) (by simp) (fun _ _ => trivial) hu) ?_
    intro result v hv
    have cleanup : ∀ x : World, Prog.Along (exec iid) (fun _ => True) (BuildRely o)
        (Disciplined iid) (fun _ _ => True)
        (do let _ ← step (.cleanupTemporaryResources o)) x := fun x =>
      .bind (along_step (P := fun _ _ => True) fun _ _ => ⟨trivial, fun _ _ _ => trivial⟩)
        fun _ _ _ _ _ => trivial
    cases result with
    | ok output => exact .bind (storeOutput_outline output hv) fun _ x _ => cleanup x
    | error error => exact .bind (recordFailure_outline _ _) fun _ x _ => cleanup x

end

section
def World.Loaded (w : World) : Prop :=
  ∀ o r, w.onDisk o = some r → r.operation.state.isTerminal = true → w.inMemory o = some r

variable {A : World → Prop} {a : Act} {now : Timestamp} {records : List StoredOperation}

/-- Memory and disk part only where a setter fails to write its file over a terminal record. -/
theorem World.Loaded.step {c : Outcome} {w : World} (h : w.Loaded) (keyed : w.Keyed) (hload : a ≠ .loadState)
    (written : ∀ o r r', w.inMemory o = some r → Changes a o r r' →
      c.Persists ∨ r.operation.state.isTerminal = false) : (exec iid a c w).2.Loaded := by
  intro o r hr hterminal
  rcases (exec_effect iid a c w).record hload keyed o with
    ⟨hmem, hdisk⟩ | ⟨-, -, -, hdisk⟩ | ⟨-, -, -, -, hdisk⟩ | ⟨hbefore, hchange, hmem, hdisk⟩
  · rw [hmem]
    exact h o r (hdisk.symm.trans hr) hterminal
  · rw [hdisk] at hr
    cases hr
  · rw [hdisk] at hr
    cases hr
    cases hterminal
  · rcases hdisk with ⟨-, hdisk⟩ | ⟨hfailed, hdisk⟩
    · rw [hmem, ← hdisk, hr]
    · -- the file still holds a terminal record, so memory held it too
      have hsame := h o r (hdisk.symm.trans hr) hterminal
      rw [hbefore] at hsame
      cases hsame
      rcases written o _ _ hbefore hchange with hpersists | hlive
      · exact absurd hpersists hfailed
      · rw [hlive] at hterminal
        cases hterminal

/-- The steps `open` takes: it records failures only of operations that are not over, never records
`finalized`, and removes no installed directory. -/
def OpeningStep : Act → World → Prop
  | .setFailed _ o .., w => ∀ r, w.inMemory o = some r → r.operation.state.isTerminal = false
  | .setState _ _ .finalized _ _, _ => False
  | .removeDirectory (.installed _), _ => False
  | .spawnBuild .., _ => False
  | .register .., _ => False
  | _, _ => True

theorem openingStep_quiet (h : a.Quiet) (w : World) : OpeningStep a w := by
  cases a <;> trivial

variable {w : World}

/-- Quiet steps of `open`, and the removal of a candidate, keep what is known of memory and
journal. -/
theorem opening_outline_of_uses {α : Type} {x : Call α}
    (uses : Prog.Uses (fun a => a.Quiet ∨ ∃ o, a = .removeDirectory (.candidate o)) x)
    (frame : ∀ s t, OpeningRely s t → A s → A t) (hw : A w) :
    Outline iid OpeningRely OpeningStep (fun _ => A) x w := by
  refine .of_uses uses frame ?_ ?_ hw
  · rintro a c s (hquiet | ⟨o, rfl⟩) hs
    · obtain ⟨hstate, hrecords, -, -⟩ := exec_quiet iid hquiet c s
      exact frame _ _ ⟨hstate, hrecords⟩ hs
    · refine frame s _ ?_ hs
      rcases removeDirectory_eq (.candidate o) c s with h | ⟨rest, h, -⟩
      · exact ⟨congrArg World.state h, congrArg World.records h⟩
      · exact ⟨(congrArg World.state h).trans rfl, (congrArg World.records h).trans rfl⟩
  · rintro a s (hquiet | ⟨o, rfl⟩) _
    · exact openingStep_quiet hquiet s
    · trivial

theorem finalize_outline_opening {p : PluginId} {o : Uuid} (frame : ∀ s t, OpeningRely s t → A s → A t)
    (hfinalized : ∀ r, w.inMemory o = some r → r.operation.state = .finalized) (hw : A w) :
    Outline iid OpeningRely OpeningStep (fun _ => A) (finalize iid p o now) w := by
  refine .bind (P := fun v t => v.state = .finalized ∧ A t)
    (.of (a := .status p o) id rfl fun t ht => ⟨trivial, fun c v hv u hu => ?_⟩) ?_
  · refine ⟨?_, frame _ _ hu (frame _ _ ht hw)⟩
    cases hm : t.state.matchingOperation p o with
    | error e => simp [exec, hm, Except.map] at hv
    | ok stored =>
      obtain ⟨hget, -⟩ := matchingOperation_eq_ok.mp hm
      simp only [exec, hm, Except.map, id_eq, Except.ok.injEq] at hv
      rw [ht.state] at hget
      rw [← hv]
      exact hfinalized stored hget
  rintro operation t ⟨hstate, ht⟩
  cases operation.artifact with
  | none => exact .throw
  | some a =>
    simp only [hstate]
    refine opening_outline_of_uses (.mono ?_ fun _ => .inl) frame ht
    exact uses_bind (uses_ask trivial) fun _ =>
      uses_bind (attestationFromDirectory_quiet ..) fun _ =>
        uses_bind (verifyAttestation_quiet _ _) fun _ =>
          uses_bind (removeMirrors_quiet o) fun _ => trivial

/-- What the loop of `reconcile_restart` knows: the operations still to be visited are in memory
with the state they were listed with. -/
structure World.Restarting (records : List StoredOperation) (w : World) : Prop where
  unvisited : ∀ r ∈ records, ∀ r', w.inMemory r.operation.operationId = some r' →
    r'.operation.state = r.operation.state
  loaded : w.Loaded
  keyed : w.Keyed

theorem World.Restarting.frame {s t : World}
    (h : OpeningRely s t) (hs : s.Restarting records) : t.Restarting records := by
  have hmem : ∀ o, t.inMemory o = s.inMemory o := fun o => by rw [World.inMemory, h.state]; rfl
  have hdisk : ∀ o, t.onDisk o = s.onDisk o := fun o => by rw [World.onDisk, h.records]; rfl
  refine ⟨fun r hr r' hr' => hs.unvisited r hr r' ((hmem _).symm.trans hr'), ?_, ?_⟩
  · intro o r hr hterminal
    rw [hmem]
    exact hs.loaded o r ((hdisk o).symm.trans hr) hterminal
  · exact ⟨fun o r hr => hs.keyed.inMemory o r ((hmem o).symm.trans hr),
      fun o r hr => hs.keyed.onDisk o r ((hdisk o).symm.trans hr)⟩

theorem restartOperation_outline {r : StoredOperation} {rest : List StoredOperation}
    (distinct : ∀ q ∈ rest, r.operation.operationId ≠ q.operation.operationId)
    (hw : w.Restarting (r :: rest)) : Outline iid OpeningRely OpeningStep (fun _ => World.Restarting rest)
      (restartOperation iid now r.operation) w := by
  have frame : ∀ s t, OpeningRely s t → s.Restarting rest → t.Restarting rest :=
    fun _ _ h hs => hs.frame h
  have hrest : w.Restarting rest :=
    ⟨fun q hq => hw.unvisited q (List.mem_cons_of_mem _ hq), hw.loaded, hw.keyed⟩
  unfold restartOperation
  cases hs : r.operation.state with
  | accepted | building =>
    have hlive : r.operation.state.isTerminal = false := by simp [hs]
    refine .bind (P := fun _ => World.Restarting rest) (.of (a := .setFailed r.operation.pluginId
      r.operation.operationId restartErrorCode [] now) id rfl fun t ht => ?_) ?_
    · have ht' := hw.frame ht
      have hown : ∀ q, t.inMemory r.operation.operationId = some q → q.operation.state.isTerminal = false := by
        intro q hq
        rw [ht'.unvisited r List.mem_cons_self q hq]
        exact hlive
      refine ⟨hown, fun c v _ u hu => .frame hu ⟨?_, ?_, ht'.keyed.step⟩⟩
      · -- the setter touches no operation still to come
        intro q hq r' hr'
        rcases exec_record_cases (by simp) hr' with hr | ⟨⟨⟨_, _, h⟩, -⟩, -⟩ | ⟨_, -, hchange⟩
        · exact ht'.unvisited q (List.mem_cons_of_mem _ hq) r' hr
        · cases h
        · generalize hid : q.operation.operationId = id at hchange
          cases hchange
          exact absurd hid.symm (distinct q hq)
      · refine ht'.loaded.step ht'.keyed (by simp) fun o q q' hq hchange => .inr ?_
        cases hchange
        exact hown q hq
    · intro _ t ht
      refine opening_outline_of_uses ?_ frame ht
      refine uses_bind (uses_step (.inr ⟨_, rfl⟩)) fun _ => ?_
      cases r.operation.artifact with
      | none => exact uses_adapter (uses_step (.inl trivial))
      | some a =>
        exact uses_bind (uses_adapter (uses_step (.inl trivial))) fun _ =>
          uses_adapter (uses_step (.inl trivial))
  | finalized =>
    refine .bind (finalize_outline_opening frame (fun q hq => ?_) hrest) ?_
    · rw [hw.unvisited r List.mem_cons_self q hq, hs]
    · intro _ t ht
      exact .pure fun u hu => frame _ _ hu ht
  | built | failed | aborted => exact .pure fun t ht => frame _ _ ht hrest

theorem forEach_restart_outline (distinct : records.Pairwise fun r r' =>
      r.operation.operationId ≠ r'.operation.operationId) {w : World} (hw : w.Restarting records) :
    Outline iid OpeningRely OpeningStep (fun _ => World.Restarting [])
      (Call.forEach (restartOperation iid now) (records.map StoredOperation.operation)) w := by
  induction records generalizing w with
  | nil => exact .pure fun _ h => hw.frame h
  | cons r rest ih =>
    obtain ⟨hr, hrest⟩ := List.pairwise_cons.mp distinct
    exact .bind (restartOperation_outline hr hw) fun _ t ht => ih hrest ht

/-- **`open` is disciplined**: alone with a journal filed under its own ids, it only fails what was
building and verifies what was finalized; and when it returns `Ok`, memory knows every terminal
record of the journal. -/
theorem openManager_outline (now : Timestamp) (keyed : w.Keyed) :
    Outline iid OpeningRely OpeningStep (fun _ => World.Loaded) (openManager iid now) w := by
  -- until the journal is loaded only its keys matter
  have hnil : ∀ s t : World, OpeningRely s t → s.Keyed → t.Keyed := by
    intro s t h hs
    exact ⟨fun o r hr => hs.inMemory o r (by rwa [World.inMemory, ← h.state]),
      fun o r hr => hs.onDisk o r (by rwa [World.onDisk, ← h.records])⟩
  refine .bind (.of (a := .ensureLayout) id rfl fun t ht =>
      ⟨trivial, fun _ _ _ u hu => hnil t u hu (hnil w t ht keyed)⟩) ?_
  intro _ t ht
  refine .bind (P := fun _ => World.Restarting [])
    (.of (a := .loadState) id rfl fun u hu => ⟨trivial, fun c v hv x hx => ?_⟩) ?_
  · have hu' := hnil t u hu ht
    refine .frame hx ⟨fun r hr => (by cases hr), ?_, hu'.step⟩
    simp only [exec] at hv ⊢
    cases hattempt : attempt .operationsDir c with
    | error e => simp [hattempt] at hv
    | ok _ =>
      intro o r hr _
      exact (loadState_operations hu'.onDisk o).trans hr
  intro _ u hu
  refine .bind (P := fun _ => World.Restarting []) ?_ ?_
  · refine .bind (P := fun operations t => ∃ records : List StoredOperation, operations = records.map
      StoredOperation.operation ∧ (records.Pairwise fun r r' => r.operation.operationId ≠
      r'.operation.operationId) ∧ t.Restarting records) (.ask fun x hx => ⟨trivial, fun c y hy => ?_⟩) ?_
    · have hx' := hu.frame hx
      refine ⟨valuesOf x.state.operations, rfl, valuesOf_distinct hx'.keyed.inMemory, ?_⟩
      refine .frame hy ⟨fun r hr r' hr' => ?_, hx'.loaded, hx'.keyed⟩
      obtain ⟨o, ho⟩ := mem_valuesOf.mp hr
      rw [hx'.keyed.inMemory o r ho] at hr'
      cases ho.symm.trans hr'
      rfl
    · rintro operations x ⟨records, rfl, distinct, hx⟩
      exact forEach_restart_outline distinct hx
  · intro _ x hx
    refine .bind (P := fun _ => World.Restarting [])
      (.ask fun y hy => ⟨trivial, fun _ z hz => (hx.frame hy).frame hz⟩) ?_
    intro ids y hy
    refine .of (a := .forget ids) id rfl fun z hz => ⟨trivial, fun c _ _ z' hz' => ?_⟩
    have hz'' := hy.frame hz
    have hafter : (exec iid (.forget ids) c z).2.Restarting [] := by
      refine ⟨fun r hr => (by cases hr), ?_, hz''.keyed.step⟩
      refine hz''.loaded.step hz''.keyed (by simp) fun o q q' _ hchange => ?_
      cases hchange
    exact (hafter.frame hz').loaded

end

/-! ## What a disciplined step leaves the others -/

section
variable {a : Act} {c : Outcome} {w : World} {p : PluginId} {o : Uuid}

/-- An attested directory is only lost by removing it: a rename needs an empty target. -/
theorem exec_keeps_attested (kept : a ≠ .removeDirectory (.installed p))
    {artifact : PluginInstallArtifact} (h : w.Attested iid (.installed p) p o artifact) :
    (exec iid a c w).2.Attested iid (.installed p) p o artifact := by
  rcases (exec_effect iid a c w).installed p with
    hsame | ⟨hremoved, -⟩ | ⟨_, _, -, -, -, hempty⟩
  · exact (attested_installed_congr hsame).mpr h
  · exact absurd hremoved kept
  · obtain ⟨content, found, hcontent, hfound, -⟩ := h
    have := hempty content hcontent
    simp [InstallDirectory.isEmpty, hfound] at this

theorem Disciplined.not_load (h : Disciplined iid a w) : a ≠ .loadState := by
  rintro rfl
  exact h

theorem Disciplined.keeps_installed (h : Disciplined iid a w) : a ≠ .removeDirectory (.installed p) := by
  rintro rfl
  exact h

/-- A disciplined step that does not begin `o` anew respects a running `finalize` of `o`. -/
theorem Disciplined.finalizeRely (h : Disciplined iid a w) (fresh : ¬ a.Creates o w) :
    FinalizeRely iid p o w (exec iid a c w).2 where
  carries _ hcarries := exec_keeps_carries h.not_load fresh (fun _ _ _ _ ha => by subst ha; exact h) hcarries
  dead := exec_keeps_dead h.not_load fresh
  attested _ := exec_keeps_attested h.keeps_installed
  fits artifact hcarries hfits := by
    have kept : w.Dead p o → (exec iid a c w).2.CandidateFits iid p o
        artifact := fun hdead => .inl (exec_keeps_dead h.not_load fresh hdead)
    rcases hfits with hdead | hfits
    · exact kept hdead
    rcases (exec_effect iid a c w).candidates o with
      hsame | ⟨rfl, -⟩ | ⟨_, -, hnone⟩ | ⟨_, _, rfl, -, -⟩
    · exact .inr fun content hcontent => hfits content (hsame.symm.trans hcontent)
    · exact kept (h.dead p)
    · exact .inr fun content hcontent => by rw [hnone] at hcontent; cases hcontent
    · exact kept (h.dead hcarries)

theorem Disciplined.abortRely (h : Disciplined iid a w) (fresh : ¬ a.Creates o w) :
    AbortRely o w (exec iid a c w).2 :=
  ⟨exec_keeps_doomed h.not_load fresh, exec_keeps_settled h.not_load fresh⟩

theorem Disciplined.buildRely (h : Disciplined iid a w)
    (other : ∀ p artifact logs now, a ≠ .setBuilt p o artifact logs now) : BuildRely o w (exec iid a c w).2 :=
  ⟨exec_keeps_unbuilt h.not_load other⟩

end

end AudioDown.Supervisor
