/-
# AudioDown.Supervisor.Outline — proof outlines for the manager's methods

`Outline R Φ P x w` says that the method `x`, started in `w` while other tasks interfere within `R`,
takes each of its steps under `Φ` and, if it returns `Ok v`, does so under `P v`.  A method that
fails promises nothing more.

Every outcome is admissible here, failing ones included.
-/
import AudioDown.Supervisor.Effects
import AudioDown.Supervisor.Manager

namespace AudioDown.Supervisor

open Lib (Prog)

section
variable {iid : String} {R : World → World → Prop} {Φ : Act → World → Prop}
  {α β : Type} {P : α → World → Prop} {P' : β → World → Prop} {w : World}

/-- A proof outline of a method under interference `R`. -/
def Outline (iid : String) (R : World → World → Prop) (Φ : Act → World → Prop)
    (P : α → World → Prop) (x : Call α) (w : World) : Prop :=
  Prog.Along (exec iid) (fun _ => True) R Φ (fun r t => ∀ v, r = .ok v → P v t) x w

theorem Outline.bind [Std.Refl R] {x : Call α} {f : α → Call β} (hx : Outline iid R Φ P x w)
    (hf : ∀ v t, P v t → Outline iid R Φ P' (f v) t) : Outline iid R Φ P' (x >>= f) w := by
  refine Prog.Along.bind hx ?_
  intro r t hr
  cases r with
  | ok v => exact hf v t (hr v rfl)
  | error e =>
    intro u _ v hv
    cases hv

theorem Outline.pure {v : α} (h : ∀ t, R w t → P v t) : Outline iid R Φ P (Pure.pure v) w := by
  intro t ht v' hv'
  cases hv'
  exact h t ht

theorem Outline.throw {e : InstallOperationError} : Outline iid R Φ P (Call.throw e) w := by
  intro t _ v hv
  cases hv

theorem Outline.ask {a : Act} {P : a.Resp → World → Prop} (h : ∀ t, R w t → Φ a t ∧ ∀ c,
      ∀ u, R (exec iid a c t).2 u → P (exec iid a c t).1 u) : Outline iid R Φ P (Call.ask a) w := by
  intro t ht
  refine ⟨(h t ht).1, fun c _ u hu v hv => ?_⟩
  cases hv
  exact (h t ht).2 c u hu

theorem Outline.of {a : Act} {x : Program (Except InstallOperationError α)}
    (answer : a.Resp → Except InstallOperationError α) (hx : x = .act a fun r => .ret (answer r))
    (h : ∀ t, R w t → Φ a t ∧ ∀ c v, answer (exec iid a c t).1 = .ok v →
      ∀ u, R (exec iid a c t).2 u → P v u) : Outline iid R Φ P (Call.of x) w := by
  subst hx
  intro t ht
  exact ⟨(h t ht).1, fun c _ u hu v hv => (h t ht).2 c v hv u hu⟩

theorem along_step {a : Act} {P : a.Resp → World → Prop}
    (h : ∀ t, R w t → Φ a t ∧ ∀ c, ∀ u, R (exec iid a c t).2 u → P (exec iid a c t).1 u) :
    Prog.Along (exec iid) (fun _ => True) R Φ P (step a) w :=
  fun t ht => ⟨(h t ht).1, fun c _ u hu => (h t ht).2 c u hu⟩

theorem Outline.of_uses {A : World → Prop} {S : Act → Prop} {x : Call α} (uses : Prog.Uses S x)
    (stable : ∀ s t, R s t → A s → A t) (keeps : ∀ a c s, S a → A s → A (exec iid a c s).2)
    (asserted : ∀ a s, S a → A s → Φ a s) (hw : A w) : Outline iid R Φ (fun _ => A) x w :=
  (Prog.Along.of_uses uses stable (fun a c s hS _ => keeps a c s hS) asserted hw).weaken
    fun _ _ h _ _ => h

end

/-! ## Which steps a method can take -/

section
variable {S : Act → Prop} {α β : Type}

theorem uses_bind {x : Call α} {f : α → Call β} (hx : Prog.Uses S x)
    (hf : ∀ v, Prog.Uses S (f v)) : Prog.Uses S (x >>= f : Call β) := by
  refine .bind hx ?_
  intro r
  cases r with
  | ok v => exact hf v
  | error e => trivial

theorem uses_ask {a : Act} (h : S a) : Prog.Uses S (Call.ask a) := ⟨h, fun _ => trivial⟩

theorem uses_step {a : Act} (h : S a) : Prog.Uses S (step a) := ⟨h, fun _ => trivial⟩

theorem uses_adapter {x : Program (Except BuildAdapterError α)} (hx : Prog.Uses S x) :
    Prog.Uses S (Call.adapter x) := by
  refine .bind hx ?_
  intro r
  cases r <;> trivial

end

def Act.Inert : Act → Prop
  | .status .. | .operations | .unacknowledged | .expired _ | .ensureLayout
  | .directoryExists _ | .readAttestation _ | .createInstalledParent | .syncInstalledParent
  | .readPrepared _ | .removeFile _ | .cleanupTemporaryResources _ | .utcNow => True
  | _ => False

def Act.Quiet : Act → Prop
  | .build .. | .removeImage _ => True
  | a => a.Inert

theorem Act.Inert.quiet {a : Act} (h : a.Inert) : a.Quiet := by
  cases a <;> trivial

theorem removeMirrors_inert (o : Uuid) : Prog.Uses Act.Inert (removeMirrors o) := by
  refine uses_bind (uses_ask trivial) fun g => ?_
  cases g with
  | none =>
    exact uses_bind (uses_step trivial) fun _ => uses_step trivial
  | some g =>
    exact uses_bind (uses_step trivial) fun _ =>
      uses_bind (uses_step trivial) fun _ => uses_step trivial

theorem verifyAttestation_inert (directory : Directory) (expected : InstallAttestation) :
    Prog.Uses Act.Inert (verifyAttestation directory expected) := by
  refine uses_bind (uses_ask trivial) fun found => ?_
  cases found with
  | none => trivial
  | some actual => dsimp only; split <;> trivial

theorem attestationFromDirectory_inert (iid : String) (directory : Directory) (p : PluginId) (o : Uuid)
    (a : PluginInstallArtifact) : Prog.Uses Act.Inert (attestationFromDirectory iid directory p o a) := by
  refine uses_bind (uses_ask trivial) fun found => ?_
  cases found with
  | none => trivial
  | some found => dsimp only; split <;> trivial

theorem verifyInstalled_inert (iid : String) (p : PluginId) (o : Uuid) (a : Option PluginInstallArtifact) :
    Prog.Uses Act.Inert (verifyInstalled iid p o a) := by
  cases a with
  | none => trivial
  | some a =>
    exact uses_bind (attestationFromDirectory_inert ..) fun _ => verifyAttestation_inert ..

theorem removeMirrors_quiet (o : Uuid) : Prog.Uses Act.Quiet (removeMirrors o) :=
  (removeMirrors_inert o).mono fun _ => Act.Inert.quiet

theorem verifyAttestation_quiet (directory : Directory) (expected : InstallAttestation) :
    Prog.Uses Act.Quiet (verifyAttestation directory expected) :=
  (verifyAttestation_inert directory expected).mono fun _ => Act.Inert.quiet

theorem attestationFromDirectory_quiet (iid : String) (directory : Directory) (p : PluginId) (o : Uuid)
    (a : PluginInstallArtifact) : Prog.Uses Act.Quiet (attestationFromDirectory iid directory p o a) :=
  (attestationFromDirectory_inert ..).mono fun _ => Act.Inert.quiet

theorem verifyInstalled_quiet (iid : String) (p : PluginId) (o : Uuid) (a : Option PluginInstallArtifact) :
    Prog.Uses Act.Quiet (verifyInstalled iid p o a) :=
  (verifyInstalled_inert ..).mono fun _ => Act.Inert.quiet

theorem finalize_uses {S : Act → Prop} {p : PluginId} {o : Uuid} {now : Timestamp} (iid : String)
    (inert : ∀ a : Act, a.Inert → S a) (rename : S (.renameCandidate p o))
    (record : S (.setState p o .finalized none now)) : Prog.Uses S (finalize iid p o now) := by
  have trailing : ∀ operation : PluginInstallOperation,
      Prog.Uses S (do removeMirrors o; return operation : Call PluginInstallOperation) :=
    fun operation => uses_bind ((removeMirrors_inert o).mono inert) fun _ => trivial
  have verify : ∀ directory expected, Prog.Uses S (verifyAttestation directory expected) :=
    fun directory expected => (verifyAttestation_inert directory expected).mono inert
  refine uses_bind (uses_step (inert _ trivial)) fun operation => ?_
  cases operation.artifact with
  | none => trivial
  | some artifact =>
    refine uses_bind (uses_ask (inert _ trivial)) fun installedExists => ?_
    refine uses_bind ((attestationFromDirectory_inert ..).mono inert) fun expected => ?_
    cases operation.state with
    | finalized => exact uses_bind (verify _ _) fun _ => trailing _
    | built =>
      refine uses_bind (uses_bind (uses_ask (inert _ trivial)) fun present => ?_) fun _ =>
        uses_bind (uses_step record) fun _ => trailing _
      cases present with
      | true =>
        refine uses_bind (verify _ _) fun _ => uses_bind (uses_ask (inert _ trivial))
          fun candidateExists => ?_
        cases candidateExists <;> trivial
      | false =>
        exact uses_bind (verify _ _) fun _ => uses_bind (uses_step (inert _ trivial)) fun _ =>
          uses_bind (uses_step rename) fun _ => uses_step (inert _ trivial)
    | _ => trivial

/-- How `release_resources` ends. -/
theorem releaseTrailing_uses {S : Act → Prop} {o : Uuid} (operation : PluginInstallOperation)
    (quiet : ∀ a : Act, a.Quiet → S a) :
    Prog.Uses S (do
      removeMirrors o
      match operation.artifact with
      | some artifact => Call.adapter (step (.removeImage artifact.imageId))
      | none => pure ()
      Call.adapter (step (.cleanupTemporaryResources o)) : Call Unit) := by
  refine uses_bind ((removeMirrors_quiet o).mono quiet) fun _ => ?_
  cases operation.artifact with
  | none => exact uses_adapter (uses_step (quiet _ trivial))
  | some artifact =>
    exact uses_bind (uses_adapter (uses_step (quiet _ trivial))) fun _ =>
      uses_adapter (uses_step (quiet _ trivial))

theorem releaseResources_uses {S : Act → Prop} {p : PluginId} {o : Uuid} (iid : String)
    (operation : PluginInstallOperation) (quiet : ∀ a : Act, a.Quiet → S a)
    (candidate : S (.removeDirectory (.candidate o))) (installed : S (.removeDirectory (.installed p))) :
    Prog.Uses S (releaseResources iid p o operation) := by
  have trailing := releaseTrailing_uses (o := o) operation quiet
  refine uses_bind (uses_step candidate) fun _ => ?_
  by_cases hfin : operation.state = .finalized
  · rw [if_pos hfin]
    refine uses_bind (uses_ask (quiet _ trivial)) fun present => ?_
    cases present with
    | false => exact trailing
    | true =>
      exact uses_bind ((verifyInstalled_quiet ..).mono quiet) fun _ =>
        uses_bind (uses_step installed) fun _ => trailing
  · rw [if_neg hfin]
    exact trailing

theorem exec_inert (iid : String) {a : Act} (h : a.Inert) (c : Outcome) (w : World) :
    (exec iid a c w).2.state = w.state ∧ (exec iid a c w).2.records = w.records ∧
      (exec iid a c w).2.candidates = w.candidates ∧ (exec iid a c w).2.installed = w.installed ∧
      (exec iid a c w).2.images = w.images := by
  cases a with
  | removeFile file =>
    cases c <;> cases file <;> exact ⟨rfl, rfl, rfl, rfl, rfl⟩
  | status | operations | unacknowledged | expired | ensureLayout | directoryExists
  | readAttestation | createInstalledParent | syncInstalledParent | readPrepared
  | cleanupTemporaryResources | utcNow => exact ⟨rfl, rfl, rfl, rfl, rfl⟩
  | _ => exact h.elim

theorem exec_quiet (iid : String) {a : Act} (h : a.Quiet) (c : Outcome) (w : World) :
    (exec iid a c w).2.state = w.state ∧ (exec iid a c w).2.records = w.records ∧
      (exec iid a c w).2.candidates = w.candidates ∧ (exec iid a c w).2.installed = w.installed := by
  have inert : a.Inert → _ := fun hi =>
    let ⟨hstate, hrecords, hcandidates, hinstalled, _⟩ := exec_inert iid hi c w
    And.intro hstate (And.intro hrecords (And.intro hcandidates hinstalled))
  cases a with
  | build p o =>
    simp only [exec, World.build]
    split <;> exact ⟨rfl, rfl, rfl, rfl⟩
  | removeImage i =>
    cases c <;> exact ⟨rfl, rfl, rfl, rfl⟩
  | _ => exact inert h

end AudioDown.Supervisor
