/-
# AudioDown.Supervisor.Tracking — an operation has one artifact

An id that nobody has used yet is begun, built at most once, and from then on every record of it, in
memory and on disk, and every reply about it has the artifact of that build or none.  Files may fail to
be written and the process may crash at any point; the record may even lose its artifact.  It never gets
another one, because it is never forgotten, hence never begun and built again, as long as nobody asks to
acknowledge it.
-/
import AudioDown.Supervisor.Ledger

namespace AudioDown.Supervisor

open Lib (Prog)

variable {iid : String}

/-! ## What a request returns -/

def Request.operation : Request → Option Uuid
  | .begin _ o _ | .status _ o | .finalize _ o _ | .abort _ o _ | .acknowledge _ o _ => some o
  | .list | .cleanupAcknowledged _ => none

section
variable {G : PluginInstallOperation → Prop} {o : Uuid}

/-- Answers about `o` that show an operation satisfying `G`. -/
def Shown (G : PluginInstallOperation → Prop) (o : Uuid) : (a : Act) → a.Resp → Prop
  | .status _ o', r | .setState _ o' .., r => o' = o → ∀ operation, r = .ok operation → G operation
  | .register _ o' _, r => o' = o → ∀ operation created, r = .ok (operation, created) → G operation
  | _, _ => True

/-- A method that returns only values satisfying `Q` when it is shown `G`. -/
def Passes {α : Type} (G : PluginInstallOperation → Prop) (o : Uuid) (Q : α → Prop) (x : Call α) : Prop :=
  Prog.Within (Shown G o) (fun _ => True) (fun r => ∀ v, r = .ok v → Q v) x

theorem Passes.bind {α β : Type} {Q : α → Prop} {Q' : β → Prop} {x : Call α} {f : α → Call β}
    (hx : Passes G o Q x) (hf : ∀ v, Q v → Passes G o Q' (f v)) : Passes G o Q' (x >>= f) := by
  refine Prog.Within.bind hx fun r hr => ?_
  cases r with
  | ok v => exact hf v (hr v rfl)
  | error e =>
    intro v hv
    cases hv

theorem Passes.pure {α : Type} {Q : α → Prop} {v : α} (h : Q v) : Passes G o Q (Pure.pure v : Call α) := by
  intro v' hv'
  cases hv'
  exact h

theorem Passes.throw {α : Type} {Q : α → Prop} {e : InstallOperationError} :
    Passes G o Q (Call.throw e : Call α) := by
  intro v hv
  cases hv

theorem passes_any {α : Type} (x : Call α) : Passes G o (fun _ => True) x :=
  (x.uses_true).within.weaken fun _ _ _ _ => trivial

theorem status_passes (p : PluginId) : Passes G o G (status p o) :=
  ⟨trivial, fun _ hr v hv => hr rfl v hv⟩

theorem setState_passes (p : PluginId) (state : PluginInstallOperationState) (errorCode : Option String)
    (now : Timestamp) : Passes G o G (Call.of (step (.setState p o state errorCode now))) :=
  ⟨trivial, fun _ hr v hv => hr rfl v hv⟩

theorem begin_passes (p : PluginId) (now : Timestamp) : Passes G o G (begin p o now) := by
  refine .bind ⟨trivial, fun r hr v hv => hr rfl v.1 v.2 hv⟩ ?_
  rintro ⟨operation, created⟩ hG
  cases created with
  | false => exact .pure hG
  | true => exact .bind (passes_any _) fun _ _ => .pure hG

theorem finalize_passes (p : PluginId) (now : Timestamp) : Passes G o G (finalize iid p o now) := by
  refine .bind (status_passes p) fun operation hG => ?_
  cases operation.artifact with
  | none => exact .throw
  | some artifact =>
    refine .bind (passes_any _) fun installedExists _ =>
      .bind (passes_any _) fun expected _ => ?_
    cases operation.state with
    | finalized =>
      exact .bind (passes_any _) fun _ _ => .bind (passes_any _) fun _ _ => .pure hG
    | built =>
      exact .bind (passes_any _) fun _ _ => .bind (setState_passes ..) fun finalized hfinalized =>
        .bind (passes_any _) fun _ _ => .pure hfinalized
    | accepted | building | failed | aborted => exact .throw

theorem abort_passes (p : PluginId) (now : Timestamp) : Passes G o G (abort iid p o now) := by
  refine .bind (status_passes p) fun operation hG => ?_
  have release : ∀ aborted : PluginInstallOperation, G aborted →
      Passes G o G (do releaseResources iid p o operation; return aborted) :=
    fun _ haborted => .bind (passes_any _) fun _ _ => .pure haborted
  have changed : Passes G o G (do
      let aborted ←
        if operation.state = .aborted then pure operation
        else .of (step (.setState p o .aborted operation.errorCode now))
      releaseResources iid p o operation
      return aborted) := by
    by_cases hab : operation.state = .aborted
    · rw [if_pos hab]
      exact .bind (.pure hG) release
    · rw [if_neg hab]
      exact .bind (setState_passes ..) release
  by_cases hfin : operation.state = .finalized
  · rw [if_pos hfin]
    exact .bind (passes_any _) fun _ _ => changed
  · rw [if_neg hfin]
    exact changed

/-- What a request about `o` that does not acknowledge it returns is what it was shown. -/
theorem request_returns {request : Request} (about : request.operation = some o)
    (other : ∀ p now, request ≠ .acknowledge p o now) :
    ((Tag.request request).program iid).Within (Shown G o) (fun _ => True)
      fun reply => ∀ operation, reply = .operation (.ok operation) → G operation := by
  have replied : ∀ {x : Call PluginInstallOperation}, Passes G o G x →
      (Prog.bind x fun r => (.ret (.operation r) : Program Reply)).Within (Shown G o) (fun _ => True)
        fun reply => ∀ operation, reply = .operation (.ok operation) → G operation := by
    intro x hx
    refine Prog.Within.bind hx fun r hr operation hreply => hr operation ?_
    exact Reply.operation.inj hreply
  cases request with
  | begin p o' now =>
    cases about
    exact replied (begin_passes p now)
  | status p o' =>
    cases about
    exact replied (status_passes p)
  | finalize p o' now =>
    cases about
    exact replied (finalize_passes p now)
  | abort p o' now =>
    cases about
    exact replied (abort_passes p now)
  | acknowledge p o' now =>
    cases about
    exact absurd rfl (other p now)
  | list | cleanupAcknowledged => cases about

end

/-! ## A build is stored once -/

/-- The step that gives `o` an artifact. -/
def Act.StoresBuild (o : Uuid) (a : Act) : Prop :=
  ∃ p artifact logs now, a = .setBuilt p o artifact logs now

/-- A program that stores no build of `o`. -/
abbrev StoresNone {α : Type} (o : Uuid) (x : Program α) : Prop := x.Uses fun a => ¬ a.StoresBuild o

abbrev StoresOnce {α : Type} (o : Uuid) (x : Program α) : Prop :=
  x.Follows (Act.StoresBuild o) (fun _ _ => True) (StoresNone o)

theorem storesNone_of_allowed {tag : Tag} {o : Uuid} {α : Type} {x : Program α}
    (allowed : x.Uses tag.Allows) (other : ∀ p, tag ≠ .build p o) : StoresNone o x := by
  refine allowed.mono fun a ha => ?_
  rintro ⟨p, artifact, logs, now, rfl⟩
  exact other p ha

section
variable {o : Uuid} {α β : Type} {x : Program α}

theorem StoresNone.once (h : StoresNone o x) : StoresOnce o x :=
  .of_uses h

theorem StoresOnce.bind {f : α → Program β} (hx : StoresOnce o x)
    (hf : ∀ v, StoresNone o (f v)) : StoresOnce o (x.bind f) :=
  Prog.Follows.bind hx (fun _ hq => hq.bind hf) fun v => (hf v).once

theorem StoresNone.bind_once {f : α → Program β} (hx : StoresNone o x)
    (hf : ∀ v, StoresOnce o (f v)) : StoresOnce o (x.bind f) :=
  Prog.Follows.bind (N := fun _ => False) (Prog.Follows.of_uses hx) (fun _ h => h.elim) hf

theorem step_storesNone {a : Act} (h : ¬ a.StoresBuild o) : StoresNone o (step a) :=
  ⟨h, fun _ => trivial⟩

theorem recordFailure_storesNone (p : PluginId) (o' : Uuid) (code : String)
    (logs : List PluginBuildLog) : StoresNone o (recordFailure p o' code logs) :=
  (step_storesNone (by simp [Act.StoresBuild])).bind fun _ =>
    (step_storesNone (by simp [Act.StoresBuild])).bind fun _ => trivial

theorem storeOutput_storesOnce (p : PluginId) (o' : Uuid) (output : BuildOutput) :
    StoresOnce o (storeOutput iid p o' output) := by
  refine StoresNone.bind_once (step_storesNone (by simp [Act.StoresBuild])) fun observed => ?_
  cases stillBuilding observed with
  | false =>
    refine StoresNone.once ?_
    exact Prog.Uses.bind (step_storesNone (by simp [Act.StoresBuild])) fun _ => trivial
  | true =>
    refine StoresNone.bind_once ?_ fun written => ?_
    · -- the candidate
      refine uses_bind (uses_ask (by simp [Act.StoresBuild])) fun present => ?_
      cases present with
      | false => exact uses_step (by simp [Act.StoresBuild])
      | true => trivial
    · cases written with
      | ok _ =>
        -- the build itself
        exact StoresNone.bind_once (step_storesNone (by simp [Act.StoresBuild])) fun now =>
          ⟨fun _ _ _ => trivial, fun _ => trivial⟩
      | error error =>
        refine StoresNone.once ?_
        exact Prog.Uses.bind (step_storesNone (by simp [Act.StoresBuild])) fun _ =>
          recordFailure_storesNone ..

theorem runBuild_storesOnce (p : PluginId) (o' : Uuid) : StoresOnce o (runBuild iid p o') := by
  have cleanup : StoresNone o (do let _ ← step (.cleanupTemporaryResources o') : Program Unit) :=
    (step_storesNone (by simp [Act.StoresBuild])).bind fun _ => trivial
  refine StoresNone.bind_once (step_storesNone (by simp [Act.StoresBuild])) fun now => ?_
  refine StoresNone.bind_once (step_storesNone (by simp [Act.StoresBuild])) fun begun => ?_
  cases begun with
  | error e => trivial
  | ok _ =>
    refine StoresNone.bind_once (step_storesNone (by simp [Act.StoresBuild])) fun result => ?_
    cases result with
    | ok output => exact (storeOutput_storesOnce p o' output).bind fun _ => cleanup
    | error error =>
      refine StoresNone.once ?_
      exact Prog.Uses.bind (recordFailure_storesNone ..) fun _ => cleanup

end

theorem program_storesOnce (o : Uuid) (tag : Tag) : StoresOnce o (tag.program iid) := by
  by_cases hbuild : ∃ p, tag = .build p o
  · obtain ⟨p, rfl⟩ := hbuild
    exact (runBuild_storesOnce p o).bind fun _ => trivial
  · exact (storesNone_of_allowed (program_allowed iid tag) fun p hp => hbuild ⟨p, hp⟩).once

/-! ## The pool, in every run -/

/-- What holds of the Supervisor in every run, whatever fails. -/
structure System.Sane (iid : String) (s : System) : Prop where
  manned : s.Manned iid
  keyed : s.world.Keyed
  lists : ∀ t ∈ s.tasks, ∃ listed, Listing listed t.prog
  stores : ∀ t ∈ s.tasks, ∀ o, StoresOnce o t.prog

theorem sane_initial : System.initial.Sane iid where
  manned := manned_crashed iid .empty
  keyed := ⟨fun o r h => by simp [System.initial, World.empty, World.inMemory] at h,
    fun o r h => by simp [System.initial, World.empty, World.onDisk] at h⟩
  lists _ h := absurd h List.not_mem_nil
  stores _ h := absurd h List.not_mem_nil

/-- What holds of a task when it starts, and whatever answers it gets, holds of every task. -/
theorem forall_tasks_next {P : SupervisorTask → Prop} {s s' : System} {label : Label}
    (started : ∀ tag : Tag, P (tag.task iid))
    (moved : ∀ tag (a : Act) (k : a.Resp → Program Reply) r, P ⟨tag, .act a k⟩ → P ⟨tag, k r⟩)
    (h : ∀ t ∈ s.tasks, P t) (hnext : s.next iid label = some s') : ∀ t ∈ s'.tasks, P t := by
  intro t ht
  cases next_cases hnext with
  | boot now =>
    rw [List.mem_singleton.mp ht]
    exact started _
  | call request =>
    rcases List.mem_append.mp ht with ht | ht
    · exact h t ht
    · rw [List.mem_singleton.mp ht]
      exact started _
  | advance task =>
    rcases Lib.Pool.mem_of_step ht with rfl | ⟨j, -, hj⟩ | hnew
    · exact moved _ _ _ _ (h _ (List.mem_of_getElem? task))
    · exact h t (List.mem_of_getElem? hj)
    · obtain ⟨p, o, -, rfl⟩ := mem_forked hnew
      exact started _
  | ready | crash | crashDuring => exact absurd ht List.not_mem_nil
  | removePlugin | outside => exact h t ht

theorem System.Sane.next {s s' : System} {label : Label} (h : s.Sane iid)
    (hnext : s.next iid label = some s') : s'.Sane iid := by
  have lost : ∀ {w : World}, w.Keyed → ({ w with state := {} } : World).Keyed := fun hw =>
    ⟨fun o r hr => by simp [World.inMemory] at hr, hw.onDisk⟩
  refine ⟨h.manned.next hnext, ?_, ?_, ?_⟩
  · cases next_cases hnext with
    | boot | ready | call => exact h.keyed
    | advance task => exact h.keyed.step
    | crash => exact lost h.keyed
    | crashDuring task => exact lost h.keyed.step
    | removePlugin p c =>
      have hframe := removePlugin_frame p c s.world
      exact h.keyed.same ⟨hframe.1, hframe.2.1⟩
    | outside state records => exact h.keyed.same ⟨state, records⟩
  · refine forall_tasks_next (fun tag => ⟨none, program_traces iid tag⟩) ?_ h.lists hnext
    rintro tag a k r ⟨listed, hlisted⟩
    exact ⟨_, hlisted.2 r⟩
  · exact forall_tasks_next (fun tag o => program_storesOnce o tag)
      (fun tag a k r hstores o => (hstores o).2 r) h.stores hnext

/-! ## Tracking one operation -/

/-- An operation that waits to be acknowledged and has artifact `a`, or none. -/
structure PluginInstallOperation.Bears (a : Option PluginInstallArtifact)
    (operation : PluginInstallOperation) : Prop where
  unacknowledged : operation.acknowledged = false
  artifact : operation.artifact = none ∨ operation.artifact = a

variable {operation : PluginInstallOperation}

theorem PluginInstallOperation.Bears.mono {a a' : Option PluginInstallArtifact} (h : operation.Bears a)
    (later : a = none ∨ a' = a) : operation.Bears a' := by
  refine ⟨h.unacknowledged, ?_⟩
  rcases later with rfl | rfl
  · exact .inl (h.artifact.elim id id)
  · exact h.artifact

/-- What a task may do about operation `o` while it is tracked. -/
structure Heeds (o : Uuid) (a : Option PluginInstallArtifact) (t : SupervisorTask) : Prop where
  waits : ∀ p now, t.tag ≠ .request (.acknowledge p o now)
  spares : ∀ ids, t.prog.head = some (.forget ids) → o ∉ ids
  /-- what it will reply has the artifact of `o` -/
  relays : ∀ request, t.tag = .request request → request.operation = some o →
    ∀ G : PluginInstallOperation → Prop, (∀ operation, operation.Bears a → G operation) →
      t.prog.Within (Shown G o) (fun _ => True)
        fun reply => ∀ operation, reply = .operation (.ok operation) → G operation
  /-- and it builds no other -/
  built : a ≠ none → StoresNone o t.prog ∧ ∀ p, t.prog.head ≠ some (.spawnBuild p o)

/-- The records of `o`. -/
structure World.Tracks (o : Uuid) (a : Option PluginInstallArtifact) (w : World) : Prop where
  inMemory : ∀ r, w.inMemory o = some r → r.operation.Bears a
  onDisk : ∀ r, w.onDisk o = some r → r.operation.Bears a
  written : w.inMemory o ≠ none → w.onDisk o ≠ none
  kept : a ≠ none → w.onDisk o ≠ none

/-- Memory knows `o` if the journal does. -/
def World.Recalls (o : Uuid) (w : World) : Prop := w.onDisk o ≠ none → w.inMemory o ≠ none

structure System.Tracks (iid : String) (o : Uuid) (a : Option PluginInstallArtifact) (s : System) : Prop where
  world : s.world.Tracks o a
  tasks : ∀ t ∈ s.tasks, Heeds o a t
  single : ∀ (i j : Nat) t u, s.tasks[i]? = some t → s.tasks[j]? = some u →
    Builder o t → Builder o u → i = j
  idle : s.world.inMemory o = none → ∀ t ∈ s.tasks, ¬ Builder o t
  serving : s.phase = .serving → a ≠ none → s.world.inMemory o ≠ none
  opening : s.phase = .opening → ∀ t ∈ s.tasks, Opening iid (World.Recalls o) s.world t.prog

/-- An id that occurs nowhere in the Supervisor. -/
structure System.Unused (o : Uuid) (s : System) : Prop where
  inMemory : s.world.inMemory o = none
  onDisk : s.world.onDisk o = none
  requests : ∀ t ∈ s.tasks, ∀ request, t.tag = .request request → request.operation ≠ some o
  builds : ∀ t ∈ s.tasks, ∀ p, t.tag ≠ .build p o
  forgotten : ∀ t ∈ s.tasks, ∀ ids, t.prog.head = some (.forget ids) → o ∉ ids

section
variable {s s' : System} {o : Uuid} {a : Option PluginInstallArtifact}

theorem begins_of_spawning {t : SupervisorTask} (allowed : t.prog.Uses t.tag.Allows) {p : PluginId}
    (hhead : t.prog.head = some (.spawnBuild p o)) : ∃ now, t.tag = .request (.begin p o now) := by
  generalize t.prog = prog at hhead allowed
  cases prog with
  | ret v => cases hhead
  | act b k =>
    cases hhead
    exact allowed.1

theorem System.Unused.idle (h : s.Unused o) (sane : s.Sane iid) {t : SupervisorTask}
    (ht : t ∈ s.tasks) : ¬ Builder o t := by
  rintro (⟨-, p, hp⟩ | ⟨p, hp⟩)
  · exact h.builds t ht p hp
  · obtain ⟨now, htag⟩ := begins_of_spawning (sane.manned.allowed t ht) hp
    exact h.requests t ht _ htag rfl

theorem System.Unused.tracks (h : s.Unused o) (sane : s.Sane iid) : s.Tracks iid o none where
  world := {
    inMemory := fun r hr => by simp [h.inMemory] at hr
    onDisk := fun r hr => by simp [h.onDisk] at hr
    written := fun hm => absurd h.inMemory hm
    kept := fun ha => absurd rfl ha }
  tasks t ht := ⟨fun p now htag => h.requests t ht _ htag rfl, h.forgotten t ht,
    fun request htag habout => absurd habout (h.requests t ht request htag), fun ha => absurd rfl ha⟩
  single i j t u hi _ hb := absurd hb (h.idle sane (List.mem_of_getElem? hi))
  idle _ t ht := h.idle sane ht
  serving _ ha := absurd rfl ha
  opening _ t _ := .inr (.inr fun hdisk => absurd h.onDisk hdisk)

theorem System.Tracks.reply (h : s.Tracks iid o a) {request : Request}
    (task : ⟨.request request, .ret (.operation (.ok operation))⟩ ∈ s.tasks)
    (about : request.operation = some o) : operation.Bears a :=
  (h.tasks _ task).relays request rfl about (fun operation => operation.Bears a) (fun _ hb => hb) operation rfl

/-! ### One step -/

section
variable {w : World} {c : Outcome} {tag : Tag} {b : Act} {k : b.Resp → Program Reply}

theorem Heeds.keeps_memory (heeds : Heeds o a ⟨tag, .act b k⟩) (keyed : w.Keyed)
    (hload : b ≠ .loadState) (present : w.inMemory o ≠ none) : (exec iid b c w).2.inMemory o ≠ none := by
  rcases (exec_effect iid b c w).record hload keyed o with
    ⟨hmem, -⟩ | ⟨hforget, hlisted, -, -⟩ | ⟨-, hnone, -, -, -⟩ | ⟨-, -, hmem, -⟩
  · rwa [hmem]
  · exact absurd hlisted (heeds.spares _ (congrArg some hforget))
  · exact absurd hnone present
  · rw [hmem]
    simp

theorem Changes.bears {r r' : StoredOperation} (h : Changes b o r r') (hr : r.operation.Bears a)
    (waits : ∀ p now, b ≠ .acknowledge p o now) :
    r'.operation.Bears a ∨ ∃ artifact, b.StoresBuild o ∧ r'.operation.Bears (some artifact) := by
  cases h with
  | setState => exact .inl ⟨hr.unacknowledged, hr.artifact⟩
  | @setBuilt _ _ artifact =>
    exact .inr ⟨artifact, ⟨_, _, _, _, rfl⟩, hr.unacknowledged, .inr rfl⟩
  | setFailed => exact .inl ⟨hr.unacknowledged, hr.artifact⟩
  | acknowledge => exact absurd rfl (waits _ _)

/-- The records of `o` after a step.  Its artifact is the same, or the step has stored its build. -/
theorem World.Tracks.step (h : w.Tracks o a) (keyed : w.Keyed) (heeds : Heeds o a ⟨tag, .act b k⟩)
    (allowed : tag.Allows b) (begun : ∀ p now, b = .register p o now → w.inMemory o = none → a = none) :
    ∃ a', (a' = a ∨ a = none ∧ b.StoresBuild o ∧ w.inMemory o ≠ none) ∧ (exec iid b c w).2.Tracks o a' := by
  by_cases hload : b = .loadState
  · -- memory becomes what is on disk
    subst hload
    refine ⟨a, .inl rfl, ?_⟩
    simp only [exec]
    cases attempt .operationsDir c with
    | error e => exact h
    | ok _ =>
      have hmem : ∀ q, (loadState w.readOperationsDir).operations[q]? = w.onDisk q :=
        loadState_operations keyed.onDisk
      exact ⟨fun r hr => h.onDisk r ((hmem o).symm.trans hr), h.onDisk,
        fun present hdisk => present ((hmem o).trans hdisk), h.kept⟩
  have waits : ∀ p now, b ≠ .acknowledge p o now := by
    rintro p now rfl
    exact heeds.waits p now allowed
  rcases (exec_effect iid b c w).record hload keyed o with
    ⟨hmem, hdisk⟩ | ⟨hforget, hlisted, -, -⟩ | ⟨hregister, hnone, -, hmem, hdisk⟩ |
    ⟨hbefore, hchange, hmem, hdisk⟩
  · refine ⟨a, .inl rfl, ?_⟩
    exact ⟨fun r hr => h.inMemory r (hmem ▸ hr), fun r hr => h.onDisk r (hdisk ▸ hr),
      by rw [hmem, hdisk]; exact h.written, by rw [hdisk]; exact h.kept⟩
  · exact absurd hlisted (heeds.spares _ (congrArg some hforget))
  · -- begun: the new record has no artifact
    have ha := begun _ _ hregister hnone
    refine ⟨a, .inl rfl, fun r hr => ?_, fun r hr => ?_, fun _ => by rw [hdisk]; simp,
      fun hne => absurd ha hne⟩
    · rcases hmem with ⟨hmem, -⟩ | hmem
      · cases hmem.symm.trans hr
      · cases hmem.symm.trans hr
        exact ⟨rfl, .inl rfl⟩
    · cases hdisk.symm.trans hr
      exact ⟨rfl, .inl rfl⟩
  · have present : w.inMemory o ≠ none := by
      rw [hbefore]
      simp
    have onDisk : (exec iid b c w).2.onDisk o ≠ none := by
      rcases hdisk with ⟨-, hdisk⟩ | ⟨-, hdisk⟩
      · rw [hdisk]
        simp
      · rw [hdisk]
        exact h.written present
    have tracked : ∀ a', (a = none ∨ a' = a) → ∀ r', (exec iid b c w).2.inMemory o = some r' →
        r'.operation.Bears a' → (exec iid b c w).2.Tracks o a' := by
      intro a' later r' hr' hbears
      refine ⟨fun r hr => ?_, fun r hr => ?_, fun _ => onDisk, fun _ => onDisk⟩
      · cases hr'.symm.trans hr
        exact hbears
      · rcases hdisk with ⟨-, hdisk⟩ | ⟨-, hdisk⟩
        · cases hdisk.symm.trans hr
          cases hmem.symm.trans hr'
          exact hbears
        · exact (h.onDisk r (hdisk ▸ hr)).mono later
    rcases hchange.bears (h.inMemory _ hbefore) waits with hbears | ⟨artifact, hstores, hbears⟩
    · exact ⟨a, .inl rfl, tracked a (.inr rfl) _ hmem hbears⟩
    · have ha : a = none := by
        by_contra hne
        exact (heeds.built hne).1.1 hstores
      exact ⟨some artifact, .inr ⟨ha, hstores, present⟩, tracked _ (.inl ha) _ hmem hbears⟩

theorem World.Tracks.shown (h : (exec iid b c w).2.Tracks o a) {G : PluginInstallOperation → Prop}
    (hG : ∀ operation, operation.Bears a → G operation) : Shown G o b (exec iid b c w).1 := by
  cases b with
  | status p o' =>
    rintro rfl operation hoperation
    simp only [exec, Except.map] at hoperation
    split at hoperation
    · cases hoperation
    · rename_i stored hstored
      cases hoperation
      exact hG _ (h.inMemory stored (matchingOperation_eq_ok.mp hstored).1)
  | setState p o' state errorCode now =>
    rintro rfl operation hoperation
    obtain ⟨r, hr, rfl, -⟩ := setState_returns hoperation
    exact hG _ (h.inMemory r hr)
  | register p o' now =>
    rintro rfl operation created hoperation
    obtain ⟨r, hr, rfl, -⟩ := register_returns hoperation
    exact hG _ (h.inMemory r hr)
  | _ => trivial

end

/-! ### The whole pool -/

section
variable {i : Nat} {c : Outcome} {tag : Tag} {b : Act} {k : b.Resp → Program Reply}

variable (h : s.Tracks iid o a) (sane : s.Sane iid)
  (htask : s.tasks[i]? = some ⟨tag, .act b k⟩)
include h sane htask

theorem System.Tracks.begun (p : PluginId) (now : Timestamp) (hregister : b = .register p o now)
    (hnone : s.world.inMemory o = none) : a = none := by
  by_contra ha
  exact h.serving (sane.manned.register_serving htask hregister) ha hnone

variable {a' : Option PluginInstallArtifact} {t : SupervisorTask}

/-- A task that builds `o`, or is about to, finds it in memory; so it does after the step. -/
theorem System.Tracks.builder_present (ht : t ∈ (s.advanced iid i tag b k c).tasks) (hbuilder : Builder o t) :
    (exec iid b c s.world).2.inMemory o ≠ none := by
  have hmem := List.mem_of_getElem? htask
  -- the process that builds has loaded its records before
  have kept : ∀ u ∈ s.tasks, Builder o u → (∀ now, u.tag ≠ .opening now) →
      (exec iid b c s.world).2.inMemory o ≠ none := by
    intro u hu hb hopening
    have hserving := sane.manned.staffed.phase_of_mem hu hopening
    have hload : b ≠ .loadState := by
      rintro rfl
      obtain ⟨now, htag⟩ := sane.manned.step_allowed htask
      exact sane.manned.staffed.serving hserving _ hmem now htag
    exact (h.tasks _ hmem).keeps_memory sane.keyed hload fun hnone => h.idle hnone u hu hb
  have building : ∀ u ∈ s.tasks, Builder o u → ∀ now, u.tag ≠ .opening now := by
    rintro u hu (⟨-, p, hp⟩ | ⟨p, hp⟩) now htag
    · cases hp.symm.trans htag
    · obtain ⟨now', hbegin⟩ := begins_of_spawning (sane.manned.allowed u hu) hp
      cases hbegin.symm.trans htag
  rcases Lib.Pool.mem_of_step ht with rfl | ⟨j, -, hj⟩ | hnew
  · rcases sane.manned.becomes_builder htask hbuilder with hbefore | ⟨-, hafter⟩
    · exact kept _ hmem hbefore (building _ hmem hbefore)
    · exact hafter
  · have hu := List.mem_of_getElem? hj
    exact kept t hu hbuilder (building t hu hbuilder)
  · -- the build that a `begin` has just started
    obtain ⟨p, o', rfl, rfl⟩ := mem_forked hnew
    have ho : o' = o := by
      rcases hbuilder with ⟨-, p', hp⟩ | ⟨p', hp⟩
      · cases hp
        rfl
      · cases hp
    subst ho
    have hbegin : Builder o' ⟨tag, .act (.spawnBuild p o') k⟩ := .inr ⟨p, rfl⟩
    exact kept _ hmem hbegin (building _ hmem hbegin)

theorem System.Tracks.heeds_moved (later : a = none ∨ a' = a)
    (choice : a' = a ∨ a = none ∧ b.StoresBuild o ∧ s.world.inMemory o ≠ none)
    (hworld : (exec iid b c s.world).2.Tracks o a') : Heeds o a' ⟨tag, k (exec iid b c s.world).1⟩ := by
  have hmem := List.mem_of_getElem? htask
  have heeds := h.tasks _ hmem
  have spawning : ∀ p, (k (exec iid b c s.world).1).head = some (.spawnBuild p o) →
      ∃ now, tag = .request (.begin p o now) := fun p hhead =>
    begins_of_spawning (t := ⟨tag, k (exec iid b c s.world).1⟩) ((sane.manned.allowed _ hmem).2 _) hhead
  refine ⟨heeds.waits, fun ids hhead ho => ?_, fun request htag about G hG => ?_, fun ha' => ?_⟩
  · -- what has just been listed is acknowledged, which `o` is not
    obtain ⟨listed, hlisted⟩ := sane.lists _ hmem
    obtain ⟨now, rfl, rfl⟩ := hlisted.expired hhead
    obtain ⟨r, hr, hack⟩ := acknowledged_of_expired ho
    cases (h.world.inMemory r hr).unacknowledged.symm.trans hack
  · exact (heeds.relays request htag about G fun operation hbears =>
      hG operation (hbears.mono later)).2 _ (hworld.shown hG)
  · rcases choice with rfl | ⟨-, hstores, -⟩
    · obtain ⟨hnone, hspawns⟩ := heeds.built ha'
      refine ⟨hnone.2 _, fun p hhead => ?_⟩
      rcases sane.manned.becomes_builder htask (.inr ⟨p, hhead⟩) with hbefore | ⟨creates, -⟩
      · rcases hbefore with ⟨-, p', hp⟩ | ⟨p', hp⟩
        · obtain ⟨now, htag⟩ := spawning p hhead
          cases htag.symm.trans hp
        · exact hspawns p' hp
      · obtain ⟨⟨p', now, hregister⟩, hnone⟩ := creates
        exact ha' (h.begun sane htask p' now hregister hnone)
    · refine ⟨(sane.stores _ hmem o).1 hstores _ trivial, fun p hhead => ?_⟩
      obtain ⟨p', _, _, _, rfl⟩ := hstores
      obtain ⟨now, htag⟩ := spawning p hhead
      cases htag.symm.trans (show tag = .build p' o from sane.manned.step_allowed htask)

theorem System.Tracks.heeds_other (later : a = none ∨ a' = a)
    (choice : a' = a ∨ a = none ∧ b.StoresBuild o ∧ s.world.inMemory o ≠ none) {j : Nat} (hne : j ≠ i)
    (hj : s.tasks[j]? = some t) : Heeds o a' t := by
  have ht := List.mem_of_getElem? hj
  have heeds := h.tasks t ht
  refine ⟨heeds.waits, heeds.spares, fun request htag about G hG => ?_, fun ha' => ?_⟩
  · exact heeds.relays request htag about G fun operation hbears => hG operation (hbears.mono later)
  · rcases choice with rfl | ⟨-, hstores, -⟩
    · exact heeds.built ha'
    · have builder : Builder o ⟨tag, .act b k⟩ := by
        obtain ⟨p, _, _, _, rfl⟩ := hstores
        exact .inl ⟨by simp, p, sane.manned.step_allowed htask⟩
      have other : ¬ Builder o t := fun hb => hne (h.single j i _ _ hj htask hb builder)
      refine ⟨?_, fun p hhead => other (.inr ⟨p, hhead⟩)⟩
      by_cases hbuild : ∃ p, t.tag = .build p o
      · obtain ⟨p, hp⟩ := hbuild
        have hret : t.prog.head = none := by
          by_contra hhead
          exact other (.inl ⟨hhead, p, hp⟩)
        generalize t.prog = prog at hret
        cases prog with
        | ret v => trivial
        | act b' k' => cases hret
      · exact storesNone_of_allowed (sane.manned.allowed t ht) fun p hp => hbuild ⟨p, hp⟩

omit sane in
theorem System.Tracks.heeds_forked (choice : a' = a ∨ a = none ∧ b.StoresBuild o ∧ s.world.inMemory o ≠ none)
    {r : b.Resp} (ht : t ∈ forked iid b r) : Heeds o a' t := by
  obtain ⟨p, o', rfl, rfl⟩ := mem_forked ht
  refine ⟨fun _ _ htag => (by cases htag), fun ids hhead => (by cases hhead),
    fun _ htag => (by cases htag), fun ha' => ⟨?_, fun p' hhead => by cases hhead⟩⟩
  have same : a' = a := choice.elim id fun hnew => by
    obtain ⟨_, _, _, _, hb⟩ := hnew.2.1
    cases hb
  refine storesNone_of_allowed (program_allowed iid (.build p o')) fun p' hp => ?_
  cases hp
  exact ((h.tasks _ (List.mem_of_getElem? htask)).built (same ▸ ha')).2 p rfl

theorem System.Tracks.recalls_step (hopening : s.phase = .opening) (hrecalls : s.world.Recalls o) :
    (exec iid b c s.world).2.Recalls o := by
  by_cases hload : b = .loadState
  · subst hload
    simp only [exec]
    cases attempt .operationsDir c with
    | error e => exact hrecalls
    | ok _ =>
      intro hdisk hnone
      exact hdisk ((loadState_operations sane.keyed.onDisk o).symm.trans hnone)
  have heeds := h.tasks _ (List.mem_of_getElem? htask)
  rcases (exec_effect iid b c s.world).record hload sane.keyed o with
    ⟨hmem, hdisk⟩ | ⟨hforget, hlisted, -, -⟩ | ⟨hregister, -, -, -, -⟩ | ⟨-, -, hmem, -⟩
  · unfold World.Recalls
    rw [hmem, hdisk]
    exact hrecalls
  · exact absurd hlisted (heeds.spares _ (congrArg some hforget))
  · cases (sane.manned.register_serving htask hregister).symm.trans hopening
  · intro _
    rw [hmem]
    simp

/-- **One step of a task.**  The artifact of `o` stays, unless the step stores its build. -/
theorem System.Tracks.advanced : ∃ a', (a = none ∨ a' = a) ∧ (s.advanced iid i tag b k c).Tracks iid o a' := by
  have hmem := List.mem_of_getElem? htask
  have heeds := h.tasks _ hmem
  have allowed := sane.manned.step_allowed htask
  obtain ⟨a', choice, hworld⟩ := h.world.step sane.keyed heeds allowed (h.begun sane htask)
  have later : a = none ∨ a' = a := choice.elim .inr fun hnew => .inl hnew.1
  refine ⟨a', later, hworld, fun t ht => ?_, ?_, ?_, ?_, ?_⟩
  · rcases Lib.Pool.mem_of_step ht with rfl | ⟨j, hne, hj⟩ | hnew
    · exact h.heeds_moved sane htask later choice hworld
    · exact h.heeds_other sane htask later choice hne hj
    · exact h.heeds_forked htask choice hnew
  · intro i' j' t u ht hu
    exact sane.manned.advanced_single htask h.single (fun creates u hu => h.idle creates.2 u hu) ht hu
  · intro hnone t ht hbuilder
    exact h.builder_present sane htask ht hbuilder hnone
  · intro hphase ha'
    have hserving : s.phase = .serving := hphase
    have hload : b ≠ .loadState := by
      rintro rfl
      obtain ⟨now, htag⟩ := allowed
      exact sane.manned.staffed.serving hserving _ hmem now htag
    refine heeds.keeps_memory sane.keyed hload ?_
    rcases choice with rfl | ⟨-, -, present⟩
    · exact h.serving hserving ha'
    · exact present
  · intro hphase t ht
    have hopening : s.phase = .opening := hphase
    rcases Lib.Pool.mem_of_step ht with rfl | ⟨j, hne, hj⟩ | hnew
    · refine (h.opening hopening _ hmem).step (fun hdisk hnone => ?_) (h.recalls_step sane htask hopening)
      exact hdisk ((loadState_operations sane.keyed.onDisk o).symm.trans hnone)
    · cases (sane.manned.staffed.phase_of_two htask hj hne).symm.trans hopening
    · -- `open` starts no build
      obtain ⟨p, o', rfl, -⟩ := mem_forked hnew
      obtain ⟨now, htag⟩ : ∃ now, tag = .request (.begin p o' now) := allowed
      have hserving := sane.manned.staffed.phase_of_mem hmem fun now' hopen => by
        cases htag.symm.trans (show tag = .opening now' from hopen)
      cases hserving.symm.trans hopening

end

theorem heeds_started {tag : Tag} (waits : ∀ p now, tag ≠ .request (.acknowledge p o now))
    (built : ∀ p, tag ≠ .build p o) : Heeds o a (tag.task iid) := by
  have hprog : (tag.task iid).prog = tag.program iid := rfl
  refine ⟨waits, fun ids hhead => ?_, fun request htag about G _ => ?_, fun _ => ⟨?_, fun p hhead => ?_⟩⟩
  · have traces := program_traces iid tag
    rw [hprog] at hhead
    cases hp : tag.program iid with
    | ret v => rw [hp] at hhead; cases hhead
    | act b k =>
      rw [hp] at hhead traces
      cases hhead
      cases traces.1 ids rfl
  · cases htag
    exact request_returns about fun p now hrequest => waits p now (by rw [hrequest])
  · exact storesNone_of_allowed (program_allowed iid tag) built
  · obtain ⟨now, htag⟩ := begins_of_spawning (program_allowed iid tag) hhead
    cases htag
    cases hhead

theorem World.Tracks.same {w w' : World} (h : w.Tracks o a) (hsame : SameJournal w w') : w'.Tracks o a := by
  refine ⟨fun r hr => h.inMemory r ((hsame.inMemory o).symm.trans hr),
    fun r hr => h.onDisk r ((hsame.onDisk o).symm.trans hr), ?_, ?_⟩
  · rw [hsame.inMemory, hsame.onDisk]
    exact h.written
  · rw [hsame.onDisk]
    exact h.kept

theorem System.Tracks.same {w' : World} (h : s.Tracks iid o a)
    (hsame : SameJournal s.world w') : ({ s with world := w' } : System).Tracks iid o a := by
  refine ⟨h.world.same hsame, h.tasks, h.single, fun hnone => h.idle ?_, fun hserving ha => ?_,
    fun hopening t ht => ?_⟩
  · exact (hsame.inMemory o).symm.trans hnone
  · rw [hsame.inMemory]
    exact h.serving hserving ha
  · refine (h.opening hopening t ht).imp id fun hrest => hrest.imp id fun hrecalls => ?_
    unfold World.Recalls
    rw [hsame.inMemory, hsame.onDisk]
    exact hrecalls

theorem World.Tracks.crashed {w : World} (h : w.Tracks o a) : (System.crashed w).Tracks iid o a := by
  refine ⟨⟨fun r hr => ?_, h.onDisk, fun present => ?_, h.kept⟩,
    fun t ht => absurd ht List.not_mem_nil, fun _ _ _ _ ht => (by simp [System.crashed] at ht),
    fun _ t ht => absurd ht List.not_mem_nil, fun hs => (by cases hs), nofun⟩
  · simp [System.crashed, World.inMemory] at hr
  · simp [System.crashed, World.inMemory] at present

/-- **Every step of the Supervisor** keeps the artifact of `o`, as long as nobody asks to acknowledge
`o`. -/
theorem System.Tracks.next {label : Label} (h : s.Tracks iid o a) (sane : s.Sane iid)
    (hnext : s.next iid label = some s') (waits : ∀ p now, label ≠ .call (.acknowledge p o now)) :
    ∃ a', (a = none ∨ a' = a) ∧ s'.Tracks iid o a' := by
  cases next_cases hnext with
  | boot now down =>
    refine ⟨a, .inr rfl, h.world, fun t ht => ?_, fun i j t u ht hu _ _ => ?_, fun _ t ht => ?_,
      fun hs => (by cases hs), fun _ t ht => ?_⟩
    · rw [List.mem_singleton.mp ht]
      exact heeds_started (fun _ _ htag => (by cases htag)) nofun
    · have hi := (List.getElem?_eq_some_iff.mp ht).1
      have hj := (List.getElem?_eq_some_iff.mp hu).1
      rw [List.length_singleton] at hi hj
      omega
    · rw [List.mem_singleton.mp ht]
      rintro (⟨-, _, htag⟩ | ⟨_, hhead⟩)
      · cases htag
      · cases hhead
    · rw [List.mem_singleton.mp ht]
      exact .inl ⟨now, .inl rfl⟩
  | ready opening opened =>
    refine ⟨a, .inr rfl, h.world, fun t ht => absurd ht List.not_mem_nil, fun _ _ _ _ ht => (by simp at ht),
      fun _ t ht => absurd ht List.not_mem_nil, fun _ ha => ?_, nofun⟩
    have hopening := h.opening opening _ (by rw [opened]; exact List.mem_singleton.mpr rfl)
    exact hopening.opened (h.world.kept ha)
  | call request serving =>
    refine ⟨a, .inr rfl, h.world, fun t ht => ?_, fun i j t u ht hu => called_single h.single ht hu,
      fun hnone t ht => ?_, h.serving, fun hs => by rw [serving] at hs; cases hs⟩
    · rcases List.mem_append.mp ht with ht | ht
      · exact h.tasks t ht
      · rw [List.mem_singleton.mp ht]
        refine heeds_started (fun p now htag => ?_) nofun
        cases htag
        exact waits p now rfl
    · rcases List.mem_append.mp ht with ht | ht
      · exact h.idle hnone t ht
      · rw [List.mem_singleton.mp ht]
        exact not_builder_request
  | advance task => exact h.advanced sane task
  | crash => exact ⟨a, .inr rfl, h.world.crashed⟩
  | crashDuring task =>
    obtain ⟨a', later, htracks⟩ := h.advanced sane task
    exact ⟨a', later, htracks.world.crashed⟩
  | removePlugin p c =>
    have hframe := removePlugin_frame p c s.world
    exact ⟨a, .inr rfl, h.same ⟨hframe.1, hframe.2.1⟩⟩
  | outside state records => exact ⟨a, .inr rfl, h.same ⟨state, records⟩⟩

end

end AudioDown.Supervisor
