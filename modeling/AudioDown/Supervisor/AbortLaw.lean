/-
# AudioDown.Supervisor.AbortLaw — what `abort` is for, and when it does it

An aborted operation should own nothing any more: no candidate, no installed directory, no prepared
request or grant, no image.  `AbortLaw` says so for one undisturbed call.  It holds in a reachable
state exactly when the operation is neither `failed` nor `finalized`, its directory has not been
renamed into `installed/` already, and its record names every image that carries its label.
-/
import AudioDown.Supervisor.Restart

namespace AudioDown.Supervisor

open Lib

variable {iid : String}

/-! ## The law -/

/-- Nothing of operation `o` for plugin `p` is left in `w'`, and what `w` holds for other operations
is as it was. -/
structure World.ReleasedFrom (p : PluginId) (o : Uuid) (w w' : World) : Prop where
  candidate : w'.candidates o = none
  installed : ∀ content found, w'.installed p = some content →
    content.attestation = some found → found.operationId ≠ o
  prepared : w'.prepared o = none
  mirroredGrant : w'.mirroredGrants o = false
  grant : ∀ content g, w.prepared o = some content → content.riskGrantId = some g → w'.grants g = false
  image : ∀ i, w'.images i ≠ some o
  otherCandidates : ∀ o' content found, w.candidates o' = some content →
    content.attestation = some found → found.operationId ≠ o → w'.candidates o' = some content
  otherInstalled : ∀ q content found, w.installed q = some content →
    content.attestation = some found → found.operationId ≠ o → w'.installed q = some content

/-- Called in `w` with nothing failing, `abort` returns the operation as aborted and has released
everything it owned. -/
def AbortLaw (iid : String) (w : World) (p : PluginId) (o : Uuid) (now : Timestamp) : Prop :=
  ∃ aborted w', (abort iid p o now).alone iid w = (.ok aborted, w') ∧
    aborted.state = .aborted ∧ World.ReleasedFrom p o w w'

/-- The states of an operation in which `abort` does its work. -/
structure World.Abortable (w : World) (o : Uuid) (r : StoredOperation) : Prop where
  notFailed : r.operation.state ≠ .failed
  notFinalized : r.operation.state ≠ .finalized
  notRenamed : ∀ content found, w.installed r.operation.pluginId = some content →
    content.attestation = some found → found.operationId ≠ o
  imagesRecorded : ∀ i, w.images i = some o → ∃ a, r.operation.artifact = some a ∧ a.imageId = i

/-! ## Candidates are attested to their own operation -/

/-- `candidates/<op>` never carries the attestation of another operation. -/
def World.CandidatesOwn (w : World) : Prop :=
  ∀ o content found, w.candidates o = some content → content.attestation = some found →
    found.operationId = o

def Act.PublishesOwn : Act → Prop
  | .publishCandidate o found _ => found.operationId = o
  | _ => True

theorem publishesOwn_of_allowed {tag : Tag} (htag : ∀ p o, tag ≠ .build p o) {a : Act}
    (h : tag.Allows a) : a.PublishesOwn := by
  cases a with
  | publishCandidate o found manifest =>
    obtain ⟨p, hp⟩ := h
    exact absurd hp (htag p o)
  | _ => trivial

theorem program_publishesOwn (iid : String) (tag : Tag) : Prog.Uses Act.PublishesOwn (tag.program iid) := by
  by_cases hbuild : ∃ p o, tag = .build p o
  · obtain ⟨p, o, rfl⟩ := hbuild
    exact .bind (runBuild_uses (fun a _ => (by cases a <;> trivial)) (fun _ => trivial)
      (fun _ => rfl) (fun _ _ _ => trivial) (fun _ _ _ => trivial) (fun _ => trivial) trivial) fun _ => trivial
  · exact (program_allowed iid tag).mono fun _ =>
      publishesOwn_of_allowed fun p o h => hbuild ⟨p, o, h⟩

theorem World.CandidatesOwn.step {w : World} (h : w.CandidatesOwn) {a : Act} {c : Outcome}
    (ha : a.PublishesOwn) : (exec iid a c w).2.CandidatesOwn := by
  intro o content found hcontent hfound
  rcases (exec_effect iid a c w).candidates o with
    hsame | ⟨-, hleft⟩ | ⟨_, -, hnone⟩ | ⟨_, _, rfl, hpublished, -⟩
  · exact h o content found (hsame.symm.trans hcontent) hfound
  · obtain ⟨before, hbefore, hfound⟩ := hleft content found hcontent hfound
    exact h o before found hbefore hfound
  · rw [hnone] at hcontent
    cases hcontent
  · rw [hpublished] at hcontent
    cases hcontent
    cases hfound
    exact ha

/-- What holds in every run, under any interleaving, failure and crash. -/
structure System.Publishing (s : System) : Prop where
  candidates : s.world.CandidatesOwn
  tasks : ∀ t ∈ s.tasks, Prog.Uses Act.PublishesOwn t.prog

theorem System.Publishing.next {s s' : System} {label : Label} (h : s.Publishing)
    (hnext : s.next iid label = some s') : s'.Publishing := by
  have idle : ∀ w : World, w.CandidatesOwn → (System.crashed w).Publishing := fun w hw =>
    ⟨hw, fun t ht => by cases ht⟩
  cases next_cases hnext with
  | boot now down =>
    refine ⟨h.candidates, fun t ht => ?_⟩
    rw [List.mem_singleton.mp ht]
    exact program_publishesOwn iid (.opening now)
  | ready opening opened => exact ⟨h.candidates, fun t ht => by cases ht⟩
  | call request serving =>
    refine ⟨h.candidates, fun t ht => ?_⟩
    rcases List.mem_append.mp ht with ht | ht
    · exact h.tasks t ht
    · rw [List.mem_singleton.mp ht]
      exact program_publishesOwn iid (.request request)
  | advance task =>
    have huses := h.tasks _ (List.mem_of_getElem? task)
    refine ⟨h.candidates.step huses.1, fun t ht => ?_⟩
    rcases Lib.Pool.mem_of_step ht with rfl | ⟨j, -, hj⟩ | hnew
    · exact huses.2 _
    · exact h.tasks t (List.mem_of_getElem? hj)
    · obtain ⟨p, o, -, rfl⟩ := mem_forked hnew
      exact program_publishesOwn iid (.build p o)
  | crash => exact idle _ h.candidates
  | crashDuring task =>
    exact idle _ (h.candidates.step (h.tasks _ (List.mem_of_getElem? task)).1)
  | removePlugin p c =>
    refine ⟨fun o content found hcontent => h.candidates o content found ?_, h.tasks⟩
    rwa [(removePlugin_frame p c s.world).2.2.1] at hcontent
  | outside _ _ hcandidates _ _ =>
    refine ⟨fun o content found hcontent => h.candidates o content found ?_, h.tasks⟩
    rwa [hcandidates] at hcontent

/-! ## When the law holds -/

section
variable {w : World} {o : Uuid} {r : StoredOperation} {now : Timestamp}

theorem released_images (artifact : Option PluginInstallArtifact) (i : String) : (w.released o artifact).images i =
      if ∃ a, artifact = some a ∧ a.imageId = i then none else w.images i := by
  cases artifact with
  | none => simp [World.released]
  | some a =>
    by_cases hi : a.imageId = i
    · subst hi
      simp [World.released]
    · simp [World.released, hi, Function.update_of_ne (Ne.symm hi)]

theorem releasedFrom_released (own : w.CandidatesOwn) {w₁ : World}
    (hcandidates : w₁.candidates = w.candidates) (hinstalled : w₁.installed = w.installed)
    (hprepared : w₁.prepared = w.prepared) (himages : w₁.images = w.images) (p : PluginId)
    (artifact : Option PluginInstallArtifact) : World.ReleasedFrom p o w (w₁.released o artifact) ↔
      (∀ content found, w.installed p = some content → content.attestation = some found →
      found.operationId ≠ o) ∧ ∀ i, w.images i = some o → ∃ a, artifact = some a ∧ a.imageId = i := by
  have hinst : (w₁.released o artifact).installed = w.installed := hinstalled
  constructor
  · intro h
    refine ⟨fun content found hcontent => h.installed content found (by rwa [hinst]), ?_⟩
    intro i hi
    by_contra hne
    refine h.image i ?_
    rw [released_images, if_neg hne, himages, hi]
  · rintro ⟨hrenamed, hrecorded⟩
    constructor
    · exact Function.update_self ..
    · intro content found hcontent
      rw [hinst] at hcontent
      exact hrenamed content found hcontent
    · show Function.update w₁.prepared o none o = none
      exact Function.update_self ..
    · show Function.update w₁.mirroredGrants o false o = false
      exact Function.update_self ..
    · intro content g hcontent hg
      have hbind : (w₁.prepared o).bind PreparedRequest.riskGrantId = some g := by
        rw [hprepared, hcontent]
        exact hg
      dsimp only [World.released, World.withoutMirrors, World.setDirectory]
      rw [hbind]
      exact Function.update_self ..
    · intro i
      rw [released_images, himages]
      split
      · simp
      · rename_i hne
        exact fun hi => hne (hrecorded i hi)
    · intro o' content found hcontent hfound hother
      have hne : o' ≠ o := by
        rintro rfl
        exact hother (own o' content found hcontent hfound)
      show Function.update w₁.candidates o none o' = some content
      rw [Function.update_of_ne hne, hcandidates, hcontent]
    · intro q content found hcontent _ _
      rw [hinst, hcontent]

theorem abortLaw_of_released (own : w.CandidatesOwn) {aborted : PluginInstallOperation}
    {w₁ : World} (hrun : (abort iid r.operation.pluginId o now).alone iid w = (.ok aborted,
      w₁.released o r.operation.artifact)) (hstate : aborted.state = .aborted)
    (notFailed : r.operation.state ≠ .failed) (notFinalized : r.operation.state ≠ .finalized)
    (hcandidates : w₁.candidates = w.candidates) (hinstalled : w₁.installed = w.installed)
    (hprepared : w₁.prepared = w.prepared) (himages : w₁.images = w.images) :
    AbortLaw iid w r.operation.pluginId o now ↔ w.Abortable o r := by
  have hlaw := releasedFrom_released own hcandidates hinstalled hprepared himages
    r.operation.pluginId r.operation.artifact (o := o)
  constructor
  · rintro ⟨_, w', hrun', -, hreleased⟩
    rw [hrun, Prod.mk.injEq] at hrun'
    rw [← hrun'.2] at hreleased
    obtain ⟨hrenamed, hrecorded⟩ := hlaw.mp hreleased
    exact ⟨notFailed, notFinalized, hrenamed, hrecorded⟩
  · intro h
    exact ⟨aborted, _, hrun, hstate, hlaw.mpr ⟨h.notRenamed, h.imagesRecorded⟩⟩

theorem not_abortLaw_of_error {p : PluginId} {error : InstallOperationError}
    (hrun : (abort iid p o now).alone iid w = (.error error, w)) : ¬ AbortLaw iid w p o now := by
  rintro ⟨_, _, hrun', -⟩
  rw [hrun] at hrun'
  cases hrun'

theorem abortLaw_iff (own : w.CandidatesOwn) (hm : w.inMemory o = some r) :
    AbortLaw iid w r.operation.pluginId o now ↔ w.Abortable o r := by
  have pending : r.operation.state.isTerminal = false →
      (AbortLaw iid w r.operation.pluginId o now ↔ w.Abortable o r) := by
    intro hs
    refine abortLaw_of_released own (abort_alone_pending hm rfl hs) rfl ?_ ?_ rfl rfl rfl rfl
    · intro h
      simp [h] at hs
    · intro h
      simp [h] at hs
  cases hs : r.operation.state with
  | accepted => exact pending (by simp [hs])
  | building => exact pending (by simp [hs])
  | built => exact pending (by simp [hs])
  | aborted =>
    exact abortLaw_of_released own (abort_alone_aborted hm rfl hs) hs (by simp [hs]) (by simp [hs])
      rfl rfl rfl rfl
  | failed =>
    refine iff_of_false (not_abortLaw_of_error (abort_alone_failed hm rfl hs)) fun h => ?_
    exact h.notFailed hs
  | finalized =>
    obtain ⟨error, hrun⟩ : ∃ error, (abort iid r.operation.pluginId o now).alone iid w =
          (.error error, w) := abort_alone_finalized hm rfl hs
    exact iff_of_false (not_abortLaw_of_error hrun) fun h => h.notFinalized hs

/-- **The abort law, exactly.**  In every state that any run reaches, an undisturbed `abort` of an
operation in memory does what it is for if and only if the operation is abortable. -/
theorem abortLaw_iff_abortable {s : System} {labels : List Label}
    (run : Run (System.next iid) (fun _ _ => True) System.initial labels s)
    (hm : s.world.inMemory o = some r) (now : Timestamp) :
    AbortLaw iid s.world r.operation.pluginId o now ↔ s.world.Abortable o r := by
  have initial : System.initial.Publishing :=
    ⟨fun o content found h => (by cases h), fun t ht => by cases ht⟩
  have final := run.invariant (fun _ _ _ hI _ htaken => hI.next htaken) initial
  exact abortLaw_iff final.candidates hm

end

/-- After the build a `finalize` dies behind its rename, and the Supervisor starts again. -/
def interruptedRun : List Label :=
  buildRun ++ [.call (.finalize "p" 1 2)] ++ advances 2 7 ++ [.crash, .boot 3] ++ advances 0 5 ++ [.ready]

theorem abortLaw_after_build : ∃ s, Run (System.next "core") (fun _ _ => True) System.initial buildRun s ∧
      AbortLaw "core" s.world "p" 1 2 := by
  have run : Run (System.next "core") (fun _ _ => True) System.initial buildRun _ :=
    Run.of_foldlM rfl
  refine ⟨_, run, (abortLaw_iff_abortable run (o := 1) rfl 2).mpr ?_⟩
  refine ⟨by decide, by decide, fun content found h => (by cases h), fun i hi => ⟨_, rfl, ?_⟩⟩
  change Function.update (fun _ => none) "sha256:image" (some 1) i = some 1 at hi
  show "sha256:image" = i
  by_contra hne
  rw [Function.update_of_ne (Ne.symm hne)] at hi
  cases hi

/-- A finalized operation is not aborted at all; after an interrupted `finalize` the call succeeds
and leaves the installed directory behind. -/
theorem abortLaw_fails : (∃ s, Run (System.next "core") (fun _ _ => True) System.initial installationRun s ∧
      ((abort "core" "p" 1 9).alone "core" s.world).1 = .error .invalidTransition ∧
      ¬ AbortLaw "core" s.world "p" 1 9) ∧
    ∃ s, Run (System.next "core") (fun _ _ => True) System.initial interruptedRun s ∧
      (∃ aborted, ((abort "core" "p" 1 9).alone "core" s.world).1 = .ok aborted ∧ aborted.state = .aborted) ∧
      ¬ AbortLaw "core" s.world "p" 1 9 := by
  refine ⟨⟨_, Run.of_foldlM rfl, rfl, ?_⟩, ⟨_, Run.of_foldlM rfl, ⟨_, rfl, rfl⟩, ?_⟩⟩
  · exact not_abortLaw_of_error rfl
  · rintro ⟨_, _, hrun, -, hreleased⟩
    cases hrun
    exact hreleased.installed _ _ rfl rfl rfl

end AudioDown.Supervisor
