/-
# AudioDown.Supervisor.Terminal — terminal states and how they are lost

`finalized`, `failed` and `aborted` are meant to be final.  `set_state` and `set_built` refuse to
leave them; `set_failed` does not look at the state at all, and a build that ends in an error after its
operation was aborted overwrites `aborted` with `failed`.  Besides, every setter changes memory before
it writes the file, so a write that fails leaves an observed state that a restart takes back, and
`abort` writes the error code of a snapshot that may belong to an earlier use of the id.
-/
import AudioDown.Supervisor.Restart

namespace AudioDown.Supervisor

open Lib

variable {iid : String}

/-! ## Error codes -/

def StoredOperation.Clean (r : StoredOperation) : Prop :=
  r.operation.state ≠ .failed → r.operation.errorCode = none

def World.CleanMemory (w : World) : Prop := ∀ o r, w.inMemory o = some r → r.Clean

/-- What a running `abort` relies on for the error code it is about to write. -/
structure CodeRely (o : Uuid) (w w' : World) : Prop where
  settled : w.Settled o → w'.Settled o
  clean : w.CleanMemory → w'.CleanMemory

instance (o : Uuid) : Std.Refl (CodeRely o) := ⟨fun _ => ⟨id, id⟩⟩

instance (o : Uuid) : IsTrans World (CodeRely o) :=
  ⟨fun _ _ _ h h' => ⟨h'.settled ∘ h.settled, h'.clean ∘ h.clean⟩⟩

/-- `set_state(Aborted)` carries no error code, or is going to be refused. -/
def CodeStep : Act → World → Prop
  | .setState _ o .aborted errorCode _, w => errorCode = none ∨ w.Settled o
  | _, _ => True

theorem codeStep_quiet {a : Act} (h : a.Quiet) (w : World) : CodeStep a w := by
  cases a <;> trivial

theorem code_outline_of_uses {α : Type} {x : Call α} {o : Uuid}
    {w : World} (uses : Prog.Uses (fun a => ∀ w, CodeStep a w) x) :
    Outline iid (CodeRely o) CodeStep (fun _ _ => True) x w :=
  .of_uses uses (fun _ _ _ h => h) (fun _ _ _ _ _ => trivial) (fun _ s h _ => h s) trivial

/-- **`abort` writes no foreign error code**: its snapshot is not over and has none, or it is settled
and the state change is refused. -/
theorem abort_code_outline (p : PluginId) (o : Uuid) (now : Timestamp) {w : World} (hw : w.CleanMemory) :
    Outline iid (CodeRely o) CodeStep (fun _ _ => True) (abort iid p o now) w := by
  unfold abort status
  refine .bind (P := fun v t => v.state ≠ .aborted → v.errorCode = none ∨ t.Settled o)
    (.of (a := .status p o) id rfl fun t ht => ⟨trivial, fun c v hv u hu hne => ?_⟩) ?_
  · cases hm : t.state.matchingOperation p o with
    | error e => simp [exec, hm, Except.map] at hv
    | ok stored =>
      obtain ⟨hget, -⟩ := matchingOperation_eq_ok.mp hm
      simp only [exec, hm, Except.map, id_eq, Except.ok.injEq] at hv
      by_cases hfailed : v.state = .failed
      · refine .inr (hu.settled fun r hr => .inr ?_)
        cases hget.symm.trans hr
        rw [hv, hfailed]
      · refine .inl ?_
        rw [← hv] at hfailed ⊢
        exact ht.clean hw o stored hget hfailed
  intro operation t ht
  have release : ∀ (result : PluginInstallOperation) (u : World),
      Outline iid (CodeRely o) CodeStep (fun _ _ => True)
        (do releaseResources iid p o operation; return result) u := fun result u =>
    code_outline_of_uses (uses_bind (releaseResources_uses iid operation
      (fun _ hq => codeStep_quiet hq) (fun _ => trivial) (fun _ => trivial)) fun _ => trivial)
  have change : ∀ u : World, (operation.state ≠ .aborted → operation.errorCode = none ∨ u.Settled o) →
      Outline iid (CodeRely o) CodeStep (fun _ _ => True) (do
        let aborted ←
          if operation.state = .aborted then pure operation
          else .of (step (.setState p o .aborted operation.errorCode now))
        releaseResources iid p o operation
        return aborted) u := by
    intro u hu
    by_cases hab : operation.state = .aborted
    · rw [if_pos hab]
      exact .bind (P := fun _ _ => True) (.pure fun _ _ => trivial)
        fun result v _ => release result v
    · rw [if_neg hab]
      exact .bind (P := fun _ _ => True)
        (.of (a := .setState p o .aborted operation.errorCode now) id rfl fun v hv =>
          ⟨(hu hab).imp id hv.settled, fun _ _ _ _ _ => trivial⟩)
        fun result v _ => release result v
  by_cases hfin : operation.state = .finalized
  · rw [if_pos hfin]
    refine .bind (P := fun _ t => operation.state ≠ .aborted → operation.errorCode = none ∨ t.Settled o)
      (.of_uses (S := Act.Quiet) (verifyInstalled_quiet ..) ?_ ?_
        (fun a s hq _ => codeStep_quiet hq s) ht) fun _ u hu => change u hu
    · exact fun s u h hs hab => (hs hab).imp id h.settled
    · intro a c s hq hs hab
      refine (hs hab).imp id fun h r hr => h r ?_
      rwa [World.inMemory, (exec_quiet iid hq c s).1] at hr
  · rw [if_neg hfin]
    exact change t ht

/-! ## What one step may do -/

/-- The assertions under which a step leaves terminal states alone. -/
structure CalmStep (a : Act) (w : World) : Prop where
  failure : ∀ p o code logs now, a = .setFailed p o code logs now →
    ∀ r, w.inMemory o = some r → r.operation.pluginId = p → r.operation.state.isTerminal = false
  change : ∀ p o state errorCode now, a = .setState p o state errorCode now →
    state ≠ .failed ∧ (errorCode = none ∨ state = .aborted ∧ w.Settled o)
  begin : ∀ p o now, a = .register p o now → w.Loaded

def World.Clean (w : World) : Prop :=
  ∀ o r, w.inMemory o = some r ∨ w.onDisk o = some r → r.Clean

def World.Mirrored (w : World) : Prop := ∀ o r, w.inMemory o = some r → w.onDisk o = some r

section
variable {a : Act} {c : Outcome} {w : World} {o : Uuid} {r r' : StoredOperation}

theorem CalmStep.changes_clean (calm : CalmStep a w) (hr : w.inMemory o = some r)
    (hclean : r.Clean) (hchange : Changes a o r r') : r'.Clean := by
  cases hchange with
  | setState _ plugin allowed =>
    intro _
    rcases (calm.change _ _ _ _ _ rfl).2 with hcode | ⟨rfl, hsettled⟩
    · exact hcode
    · -- a settled operation would have been refused
      rcases hsettled r hr with hs | hs
      · exact absurd (allowed (by simp [hs])) (by simp [hs])
      · exact absurd (allowed (by simp [hs])) (by simp [hs])
  | setBuilt _ plugin building => exact fun _ => rfl
  | setFailed _ plugin => exact fun hne => absurd rfl hne
  | acknowledge _ plugin terminal => exact hclean

theorem CalmStep.changes_terminal (calm : CalmStep a w) (hr : w.inMemory o = some r)
    (hclean : r.Clean) (hchange : Changes a o r r') (hterminal : r.operation.state.isTerminal = true) :
    r'.operation.state = r.operation.state ∧ r'.operation.errorCode = r.operation.errorCode := by
  have hclean' := calm.changes_clean hr hclean hchange
  cases hchange with
  | setState _ plugin allowed =>
    have hstate := allowed hterminal
    have hne := (calm.change _ _ _ _ _ rfl).1
    refine ⟨hstate.symm, ?_⟩
    rw [hclean' hne, hclean (hstate ▸ hne)]
  | setBuilt _ plugin building =>
    rw [building] at hterminal
    cases hterminal
  | setFailed _ plugin =>
    have hlive := calm.failure _ _ _ _ _ rfl r hr plugin
    rw [hlive] at hterminal
    cases hterminal
  | acknowledge _ plugin terminal => exact ⟨rfl, rfl⟩

/-- **The step lemma.**  A calm step reports of a terminal record what was reported before. -/
theorem CalmStep.absorbs (calm : CalmStep a w) (hload : a ≠ .loadState) (keyed : w.Keyed)
    (mirrored : w.Mirrored) (clean : w.Clean) (hr : w.onDisk o = some r)
    (hterminal : r.operation.state.isTerminal = true) (hr' : (exec iid a c w).2.onDisk o = some r') :
    r'.operation.state = r.operation.state ∧ r'.operation.errorCode = r.operation.errorCode := by
  rcases (exec_effect iid a c w).record hload keyed o with
    ⟨-, hdisk⟩ | ⟨-, -, -, hdisk⟩ | ⟨hregister, hfresh, -, -, -⟩ | ⟨hbefore, hchange, -, hdisk⟩
  · cases (hdisk.trans hr).symm.trans hr'
    exact ⟨rfl, rfl⟩
  · rw [hdisk] at hr'
    cases hr'
  · have hmem := calm.begin _ _ _ hregister o r hr hterminal
    rw [hfresh] at hmem
    cases hmem
  · rcases hdisk with ⟨-, hdisk⟩ | ⟨-, hdisk⟩
    · cases (mirrored o _ hbefore).symm.trans hr
      cases hdisk.symm.trans hr'
      exact calm.changes_terminal hbefore (clean o r (.inr hr)) hchange hterminal
    · cases (hdisk.trans hr).symm.trans hr'
      exact ⟨rfl, rfl⟩

theorem CalmStep.clean (calm : CalmStep a w) (keyed : w.Keyed) (hclean : w.Clean) :
    (exec iid a c w).2.Clean := by
  by_cases hload : a = .loadState
  · subst hload
    simp only [exec]
    cases attempt .operationsDir c with
    | error e => exact hclean
    | ok _ =>
      intro o r hr
      refine hclean o r (.inr (hr.elim (fun hr => ?_) id))
      exact (loadState_operations keyed.onDisk o).symm.trans hr
  intro o q hq
  rcases (exec_effect iid a c w).record hload keyed o with
    ⟨hmem, hdisk⟩ | ⟨-, -, hmem, hdisk⟩ | ⟨-, -, -, hmem, hdisk⟩ | ⟨hbefore, hchange, hmem, hdisk⟩
  · rw [hmem, hdisk] at hq
    exact hclean o q hq
  · rw [hmem, hdisk] at hq
    rcases hq with hq | hq <;> cases hq
  · have haccepted : ∀ p now sequence, (acceptedOperation iid p o now sequence).Clean :=
      fun _ _ _ _ => rfl
    rcases hq with hq | hq
    · rcases hmem with ⟨hmem, -⟩ | hmem
      · rw [hmem] at hq
        cases hq
      · rw [hmem] at hq
        cases hq
        exact haccepted _ _ _
    · rw [hdisk] at hq
      cases hq
      exact haccepted _ _ _
  · have hnew := calm.changes_clean hbefore (hclean o _ (.inl hbefore)) hchange
    rcases hq with hq | hq
    · cases hmem.symm.trans hq
      exact hnew
    · rcases hdisk with ⟨-, hdisk⟩ | ⟨-, hdisk⟩
      · cases hdisk.symm.trans hq
        exact hnew
      · exact hclean o q (.inr (hdisk.symm.trans hq))

theorem World.Mirrored.step (h : w.Mirrored) (keyed : w.Keyed)
    (written : ∀ o r r', Changes a o r r' → c.Persists) : (exec iid a c w).2.Mirrored := by
  by_cases hload : a = .loadState
  · subst hload
    simp only [exec]
    cases attempt .operationsDir c with
    | error e => exact h
    | ok _ => exact fun o r hr => (loadState_operations keyed.onDisk o).symm.trans hr
  intro o q hq
  rcases (exec_effect iid a c w).record hload keyed o with
    ⟨hmem, hdisk⟩ | ⟨-, -, hmem, -⟩ | ⟨-, -, -, hmem, hdisk⟩ | ⟨-, hchange, hmem, hdisk⟩
  · rw [hdisk]
    exact h o q (hmem.symm.trans hq)
  · rw [hmem] at hq
    cases hq
  · rcases hmem with ⟨hmem, -⟩ | hmem
    · rw [hmem] at hq
      cases hq
    · rw [hdisk, ← hmem, hq]
  · rcases hdisk with ⟨-, hdisk⟩ | ⟨hfailed, -⟩
    · rw [hdisk, ← hmem, hq]
    · exact absurd (written o _ _ hchange) hfailed

end

/-! ## Runs -/

def Act.Sets : Act → Prop
  | .setState .. | .setBuilt .. | .setFailed .. | .acknowledge .. => True
  | _ => False

theorem Changes.sets {a : Act} {o : Uuid} {r r' : StoredOperation} (h : Changes a o r r') : a.Sets := by
  cases h <;> trivial

/-- The build that task `i` runs does not record its failure on an operation that is over. -/
def NoLateFailure (s : System) (i : Nat) : Prop :=
  ∀ p o code logs now k, s.tasks[i]? = some ⟨.build p o, .act (.setFailed p o code logs now) k⟩ →
    ∀ r, s.world.inMemory o = some r → r.operation.pluginId = p → r.operation.state.isTerminal = false

/-- Task `i` does not begin an operation anew while an `abort` of its earlier use is running. -/
def NoAbortReuse (s : System) (i : Nat) : Prop :=
  ∀ tag a k o, s.tasks[i]? = some ⟨tag, .act a k⟩ → a.Creates o s.world →
    ∀ t ∈ s.tasks, ∀ p now, t.tag = .request (.abort p o now) → t.prog.head = none

/-- The condition on a step: no late failure of a build, no setter whose file is not written, and no
id begun anew under a running `abort`.  Crashes are not restricted otherwise. -/
def TerminalSafe (s : System) : Label → Prop
  | .advance i c =>
      NoLateFailure s i ∧ NoAbortReuse s i ∧
        ∀ tag a k, s.tasks[i]? = some ⟨tag, .act a k⟩ → a.Sets → c.Persists
  | .crashDuring i _ => NoLateFailure s i
  | _ => True

/-- What holds of the Supervisor in every run that meets `TerminalSafe`. -/
structure System.Settling (iid : String) (s : System) : Prop where
  manned : s.Manned iid
  keyed : s.world.Keyed
  clean : s.world.Clean
  mirrored : s.world.Mirrored
  loaded : s.phase = .serving → s.world.Loaded
  aborts : ∀ t ∈ s.tasks, ∀ p o now, t.tag = .request (.abort p o now) →
    t.prog.Along (exec iid) (fun _ => True) (CodeRely o) CodeStep (fun _ _ => True) s.world
  opens : ∀ t ∈ s.tasks, ∀ now, t.tag = .opening now →
    t.prog.Along (exec iid) (fun _ => True) OpeningRely OpeningStep
      (fun reply w => reply = .unit (.ok ()) → w.Loaded) s.world

section
variable {s : System} {i : Nat} {c : Outcome} {tag : Tag} {a : Act} {k : a.Resp → Program Reply}

theorem System.Settling.calm (h : s.Settling iid)
    (htask : s.tasks[i]? = some ⟨tag, .act a k⟩) (late : NoLateFailure s i) : CalmStep a s.world := by
  have hmem := List.mem_of_getElem? htask
  have hallowed := h.manned.step_allowed htask
  have opening : ∀ now, tag = .opening now → OpeningStep a s.world := fun now htag =>
    Prog.Along.head (h.opens _ hmem now htag)
  constructor
  · rintro p o code logs now rfl r hr hp
    rcases hallowed with htag | ⟨now', htag⟩
    · subst htag
      exact late p o code logs now k htask r hr hp
    · exact opening now' htag r hr
  · rintro p o state errorCode now rfl
    rcases hallowed with ⟨-, rfl, rfl⟩ | ⟨_, -, rfl, rfl⟩ | ⟨now', htag, rfl⟩ | ⟨now', htag, rfl⟩
    · exact ⟨by simp, .inl rfl⟩
    · exact ⟨by simp, .inl rfl⟩
    · have hcode : CodeStep (.setState p o .aborted errorCode now) s.world :=
        Prog.Along.head (h.aborts _ hmem p o now' htag)
      exact ⟨by simp, hcode.imp id fun hs => ⟨rfl, hs⟩⟩
    · exact (opening now' htag).elim
  · rintro p o now rfl
    refine h.loaded (h.manned.staffed.phase_of_mem hmem fun now' htag => ?_)
    rw [hallowed] at htag
    cases htag

theorem System.Manned.not_load (h : s.Manned iid)
    (htask : s.tasks[i]? = some ⟨tag, .act a k⟩) (serving : s.phase = .serving) : a ≠ .loadState := by
  rintro rfl
  obtain ⟨now, htag⟩ := h.step_allowed htask
  exact h.staffed.serving serving _ (List.mem_of_getElem? htask) now htag

theorem System.Settling.advanced (h : s.Settling iid) (htask : s.tasks[i]? = some ⟨tag, .act a k⟩)
    (safe : TerminalSafe s (.advance i c)) : (s.advanced iid i tag a k c).Settling iid := by
  obtain ⟨late, fresh, persists⟩ := safe
  have hmem := List.mem_of_getElem? htask
  have calm := h.calm htask late
  have written : ∀ o r r', Changes a o r r' → c.Persists := fun o r r' hchange =>
    persists tag a k htask hchange.sets
  have clean : (exec iid a c s.world).2.Clean := calm.clean h.keyed h.clean
  refine ⟨h.manned.advanced htask, h.keyed.step, clean, h.mirrored.step h.keyed written, ?_, ?_, ?_⟩
  · intro serving
    exact (h.loaded serving).step h.keyed (h.manned.not_load htask serving)
      fun o r r' _ hchange => .inl (written o r r' hchange)
  · intro t ht p o now htag
    rcases Lib.Pool.mem_of_step ht with rfl | ⟨j, hne, hj⟩ | hnew
    · exact .step (h.aborts _ hmem p o now htag) trivial
    · have hold := h.aborts t (List.mem_of_getElem? hj) p o now htag
      cases hprog : t.prog with
      | ret v => exact fun _ _ => trivial
      | act b k' =>
        rw [hprog] at hold
        have serving := h.manned.staffed.phase_of_two htask hj hne
        refine hold.rely ⟨exec_keeps_settled (h.manned.not_load htask serving) ?_,
          fun _ o r hr => clean o r (.inl hr)⟩
        intro hcreates
        have := fresh tag a k o htask hcreates t (List.mem_of_getElem? hj) p now htag
        rw [hprog] at this
        cases this
    · obtain ⟨_, _, -, rfl⟩ := mem_forked hnew
      cases htag
  · intro t ht now htag
    rcases Lib.Pool.mem_of_step ht with rfl | ⟨j, hne, hj⟩ | hnew
    · exact .step (h.opens _ hmem now htag) trivial
    · -- the opening task has the pool to itself
      have serving := h.manned.staffed.phase_of_two htask hj hne
      exact absurd htag (h.manned.staffed.serving serving t (List.mem_of_getElem? hj) now)
    · obtain ⟨_, _, -, rfl⟩ := mem_forked hnew
      cases htag

theorem settling_crashed {w : World} (keyed : w.Keyed) (clean : w.Clean) :
    (System.crashed w).Settling iid where
  manned := manned_crashed iid w
  keyed := ⟨fun o r hr => (by cases hr), keyed.onDisk⟩
  clean o r hr := clean o r (.inr (hr.elim nofun id))
  mirrored o r hr := by cases hr
  loaded serving := by cases serving
  aborts t ht := by cases ht
  opens t ht := by cases ht

theorem System.Settling.outside (h : s.Settling iid) {w : World}
    (hstate : w.state = s.world.state) (hrecords : w.records = s.world.records) :
    { s with world := w }.Settling iid := by
  have hmem : ∀ o, w.inMemory o = s.world.inMemory o := fun o => by
    rw [World.inMemory, hstate]
    rfl
  have hdisk : ∀ o, w.onDisk o = s.world.onDisk o := fun o => by
    rw [World.onDisk, hrecords]
    rfl
  refine ⟨⟨h.manned.staffed, h.manned.allowed, h.manned.begins⟩, ⟨?_, ?_⟩, ?_, ?_, ?_, ?_, ?_⟩
  · exact fun o r hr => h.keyed.inMemory o r ((hmem o).symm.trans hr)
  · exact fun o r hr => h.keyed.onDisk o r ((hdisk o).symm.trans hr)
  · intro o r hr
    rw [hmem, hdisk] at hr
    exact h.clean o r hr
  · intro o r hr
    rw [hdisk]
    exact h.mirrored o r ((hmem o).symm.trans hr)
  · intro serving o r hr hterminal
    rw [hmem]
    exact h.loaded serving o r ((hdisk o).symm.trans hr) hterminal
  · intro t ht p o now htag
    refine (h.aborts t ht p o now htag).rely ⟨fun hs r hr => hs r ((hmem o).symm.trans hr), ?_⟩
    exact fun hs o r hr => hs o r ((hmem o).symm.trans hr)
  · exact fun t ht now htag => (h.opens t ht now htag).rely ⟨hstate, hrecords⟩

theorem System.Settling.next {s' : System} {label : Label} (h : s.Settling iid)
    (safe : TerminalSafe s label) (hnext : s.next iid label = some s') : s'.Settling iid := by
  have manned := h.manned.next hnext
  cases next_cases hnext with
  | boot now down =>
    refine ⟨manned, h.keyed, h.clean, h.mirrored, fun serving => (by cases serving), ?_, ?_⟩
    · intro t ht p o now' htag
      rw [List.mem_singleton.mp ht] at htag
      cases htag
    · intro t ht now' _
      rw [List.mem_singleton.mp ht]
      refine .bind (openManager_outline now h.keyed) fun r w hr u hu hreply => ?_
      cases hreply
      intro o q hq hterminal
      have hmem : u.inMemory o = w.inMemory o := by rw [World.inMemory, hu.state]; rfl
      rw [hmem]
      exact hr () rfl o q (by rwa [World.onDisk, ← hu.records]) hterminal
  | ready opening opened =>
    refine ⟨manned, h.keyed, h.clean, h.mirrored, fun _ => ?_, fun t ht => (by cases ht),
      fun t ht => by cases ht⟩
    have hstaffed := h.manned.staffed
    unfold System.Staffed at hstaffed
    rw [opening] at hstaffed
    obtain ⟨now, prog, htasks⟩ := hstaffed
    have hopen := h.opens ⟨.opening now, prog⟩ (by rw [htasks]; exact List.mem_singleton_self _) now rfl
    rw [opened] at htasks
    cases htasks
    exact hopen s.world (refl _) rfl
  | call request serving =>
    refine ⟨manned, h.keyed, h.clean, h.mirrored, h.loaded, ?_, ?_⟩
    · intro t ht p o now htag
      rcases List.mem_append.mp ht with ht | ht
      · exact h.aborts t ht p o now htag
      · rw [List.mem_singleton.mp ht] at htag ⊢
        cases htag
        exact .bind (abort_code_outline p o now fun o r hr => h.clean o r (.inl hr))
          fun _ _ _ _ _ => trivial
    · intro t ht now htag
      rcases List.mem_append.mp ht with ht | ht
      · exact h.opens t ht now htag
      · rw [List.mem_singleton.mp ht] at htag
        cases htag
  | advance task => exact h.advanced task safe
  | crash => exact settling_crashed h.keyed h.clean
  | crashDuring task =>
    exact settling_crashed h.keyed.step ((h.calm task safe).clean h.keyed h.clean)
  | removePlugin p c =>
    obtain ⟨hstate, hrecords, -, -⟩ := removePlugin_frame p c s.world
    exact h.outside hstate hrecords
  | outside hstate hrecords => exact h.outside hstate hrecords

/-- A step that meets the condition reports of a terminal record what was reported before it. -/
theorem System.Settling.absorbs {s' : System} {label : Label} (h : s.Settling iid)
    (safe : TerminalSafe s label) (hnext : s.next iid label = some s')
    {o : Uuid} {r r' : StoredOperation} (hr : s.world.onDisk o = some r)
    (hterminal : r.operation.state.isTerminal = true) (hr' : s'.world.onDisk o = some r') :
    r'.operation.state = r.operation.state ∧ r'.operation.errorCode = r.operation.errorCode := by
  have same : s'.world.records = s.world.records → r'.operation.state = r.operation.state ∧
        r'.operation.errorCode = r.operation.errorCode := by
    intro hrecords
    rw [World.onDisk, hrecords] at hr'
    cases hr.symm.trans hr'
    exact ⟨rfl, rfl⟩
  have step : ∀ {i c tag a k}, s.tasks[i]? = some ⟨tag, .act a k⟩ → NoLateFailure s i →
      (exec iid a c s.world).2.onDisk o = some r' →
      r'.operation.state = r.operation.state ∧ r'.operation.errorCode = r.operation.errorCode := by
    intro i c tag a k task late hdisk
    by_cases hload : a = .loadState
    · subst hload
      have hrecords : (exec iid .loadState c s.world).2.records = s.world.records := by
        simp only [exec]
        cases attempt .operationsDir c <;> rfl
      rw [World.onDisk, hrecords] at hdisk
      cases hr.symm.trans hdisk
      exact ⟨rfl, rfl⟩
    · exact (h.calm task late).absorbs hload h.keyed h.mirrored h.clean hr hterminal hdisk
  cases next_cases hnext with
  | boot | ready | call | crash => exact same rfl
  | advance task => exact step task safe.1 hr'
  | crashDuring task => exact step task safe hr'
  | removePlugin p c => exact same (removePlugin_frame p c s.world).2.1
  | outside hstate hrecords => exact same hrecords

/-- Operation `o` can be seen in this state with this error code, by `status` or on disk. -/
def World.Observes (w : World) (o : Uuid) (state : PluginInstallOperationState)
    (errorCode : Option String) : Prop :=
  ∃ r, (w.inMemory o = some r ∨ w.onDisk o = some r) ∧ r.operation.state = state ∧
    r.operation.errorCode = errorCode

theorem System.Settling.observes (h : s.Settling iid) {o : Uuid} {state : PluginInstallOperationState}
    {errorCode : Option String} (observed : s.world.Observes o state errorCode) :
    ∃ r, s.world.onDisk o = some r ∧ r.operation.state = state ∧ r.operation.errorCode = errorCode := by
  obtain ⟨r, hr, hseen⟩ := observed
  exact ⟨r, hr.elim (h.mirrored o r) id, hseen⟩

/-- **Terminal states are absorbing** along every run whose steps meet `TerminalSafe`: what is seen
of a terminal operation is seen of it ever after, until its record is deleted. -/
theorem terminal_states_absorbing {t : System} {before after : List Label} {o : Uuid}
    {state state' : PluginInstallOperationState} {errorCode errorCode' : Option String}
    (earlier : Run (System.next iid) TerminalSafe System.initial before s)
    (later : Run (System.next iid) (fun u label => TerminalSafe u label ∧ u.world.onDisk o ≠ none) s after t)
    (terminal : state.isTerminal = true) (observed : s.world.Observes o state errorCode)
    (again : t.world.Observes o state' errorCode') : state' = state ∧ errorCode' = errorCode := by
  have initial : System.initial.Settling iid :=
    settling_crashed (w := World.empty) ⟨fun o r hr => (by cases hr), fun o r hr => by cases hr⟩
      fun o r hr => by rcases hr with hr | hr <;> cases hr
  have start := earlier.invariant (fun _ _ _ hI hok htaken => hI.next hok htaken) initial
  obtain ⟨r, hr, hstate, hcode⟩ := start.observes observed
  -- carried along the rest of the run: the invariant, and what the file says while it is there
  have final := later.invariant (I := fun u => u.Settling iid ∧ ∀ q, u.world.onDisk o = some q →
      q.operation.state = state ∧ q.operation.errorCode = errorCode)
    (fun u label u' hI hok htaken => by
      refine ⟨hI.1.next hok.1 htaken, fun q' hq' => ?_⟩
      obtain ⟨q, hq⟩ := Option.ne_none_iff_exists'.mp hok.2
      obtain ⟨hqstate, hqcode⟩ := hI.2 q hq
      obtain ⟨hsame, hsame'⟩ := hI.1.absorbs hok.1 htaken hq (by rw [hqstate]; exact terminal) hq'
      exact ⟨hsame.trans hqstate, hsame'.trans hqcode⟩)
    ⟨start, fun q hq => by
      cases hr.symm.trans hq
      exact ⟨hstate, hcode⟩⟩
  obtain ⟨q, hq, hqstate, hqcode⟩ := final.1.observes again
  obtain ⟨hsame, hsame'⟩ := final.2 q hq
  exact ⟨hqstate.symm.trans hsame, hqcode.symm.trans hsame'⟩

end

/-! ## A run that keeps a terminal state, and one that loses it -/

/-- The Supervisor starts, operation 1 begins to build, and is aborted. -/
def abortedRun : List Label :=
  [.boot 0] ++ advances 0 5 ++ [.ready, .call (.begin "p" 1 0)] ++ advances 0 2 ++
    [.advance 1 (.clock 1), .advance 1 .done, .call (.abort "p" 1 2)] ++ advances 2 7

def abortedSystem : System :=
  (abortedRun.foldlM (System.next "core") System.initial).getD System.initial

/-- A sufficient check of `TerminalSafe`. -/
def calmLabel (s : System) : Label → Bool
  | .advance i c =>
      (match s.tasks[i]? with
        | some ⟨_, .act (.setFailed ..) _⟩ => false
        | _ => true) &&
      decide (NoReuse s i) &&
      match c with
        | .failedBefore _ => false
        | _ => true
  | .crashDuring .. => false
  | _ => true

theorem terminalSafe_of_calm (s : System) (label : Label) (h : calmLabel s label = true) :
    TerminalSafe s label := by
  cases label with
  | advance i c =>
    simp only [calmLabel, Bool.and_eq_true] at h
    obtain ⟨⟨hlate, hfresh⟩, hpersists⟩ := h
    refine ⟨?_, ?_, ?_⟩
    · intro p o code logs now k htask
      rw [htask] at hlate
      cases hlate
    · intro tag a k o htask hcreates t ht p now htag
      have fresh : NoReuse s i := of_decide_eq_true hfresh
      by_contra hrunning
      exact fresh _ o htask ⟨a, rfl, hcreates⟩ t ht (.inl ⟨hrunning, .inr (.inl ⟨p, now, htag⟩)⟩)
    · intro tag a k _ _
      cases c with
      | failedBefore leftover => cases hpersists
      | _ => trivial
  | crashDuring i c => cases h
  | _ => trivial

theorem aborted_after_restart :
    ∃ t, Run (System.next "core") TerminalSafe System.initial abortedRun abortedSystem ∧
      Run (System.next "core") (fun u label => TerminalSafe u label ∧ u.world.onDisk 1 ≠ none)
        abortedSystem ([.crash, .boot 3] ++ advances 0 5 ++ [.ready]) t ∧
      abortedSystem.world.Observes 1 .aborted none ∧ ∀ state errorCode, t.world.Observes 1 state errorCode →
        state = .aborted ∧ errorCode = none := by
  have earlier : Run (System.next "core") TerminalSafe System.initial abortedRun abortedSystem :=
    Run.of_checked terminalSafe_of_calm rfl
  have later : Run (System.next "core")
      (fun u label => TerminalSafe u label ∧ u.world.onDisk 1 ≠ none) abortedSystem
      ([.crash, .boot 3] ++ advances 0 5 ++ [.ready]) _ :=
    Run.of_checked (fun u label h => by
        rw [Bool.and_eq_true] at h
        exact ⟨terminalSafe_of_calm u label h.1, Option.isSome_iff_ne_none.mp h.2⟩) rfl
  have observed : abortedSystem.world.Observes 1 .aborted none := ⟨_, .inl rfl, rfl, rfl⟩
  exact ⟨_, earlier, later, observed, fun state errorCode again =>
    terminal_states_absorbing earlier later rfl observed again⟩

/-- A build that fails after its operation was aborted turns `aborted` into `failed`. -/
theorem aborted_becomes_failed :
    ∃ t, Run (System.next "core") (fun _ _ => True) System.initial abortedRun abortedSystem ∧
      abortedSystem.world.Observes 1 .aborted none ∧
      Run (System.next "core") (fun u _ => u.world.onDisk 1 ≠ none) abortedSystem
        [.advance 1 (.built (.error ⟨"BUILD_FAILED", []⟩)), .advance 1 (.clock 3), .advance 1 .done] t ∧
      t.world.Observes 1 .failed (some "BUILD_FAILED") :=
  ⟨_, Run.of_foldlM rfl, ⟨_, .inl rfl, rfl, rfl⟩, Run.of_checked
      (fun _ _ h => Option.isSome_iff_ne_none.mp h) rfl,
    ⟨_, .inl rfl, rfl, rfl⟩⟩

end AudioDown.Supervisor
