/-
# AudioDown.Lib.Stream — programs run side by side, a few at a time

`buffer_unordered(limit)`: a list of programs, of which at most `limit` run at the same time.  They are
started in order, but take their steps and finish in any order, and the results arrive in the order in
which the programs finish, each with the position of its program.  What the environment answers to the
`n`-th request of program `i` is `answer i n`: a statement for all `answer` and all schedules is one
about everything the environment can do.

* `results_eq` — sorted by position, the results are what the programs return one after the other.
* `calls_eq` — every program has made the requests it makes alone.
* `done_of_stuck` — a schedule that cannot go on has finished all programs.
* `length_le_work` — and none is longer than the work there is, so every schedule can be brought there
  (`exists_stuck`).
-/
import AudioDown.Lib.Pool
import Mathlib.Data.List.Sort
import Mathlib.Algebra.BigOperators.Group.List.Basic

namespace AudioDown.Lib

namespace Prog

variable {Act : Type} {Resp : Act → Type} {α : Type}

/-- What the program returns if its requests, counted from `n`, are answered so. -/
def replay (answer : Nat → (a : Act) → Resp a) : Nat → Prog Act Resp α → α
  | _, .ret value => value
  | n, .act a k => (k (answer n a)).replay answer (n + 1)

def issued (answer : Nat → (a : Act) → Resp a) : Nat → Prog Act Resp α → List Act
  | _, .ret _ => []
  | n, .act a k => a :: (k (answer n a)).issued answer (n + 1)

end Prog

/-- A stream of programs. -/
structure Stream (Act : Type) (Resp : Act → Type) (α : Type) where
  /-- what is left of each program, and how many answers it has had -/
  tasks : List (Nat × Prog Act Resp α)
  /-- the programs before this position are started -/
  started : Nat
  /-- positions and results, as they arrive -/
  finished : List (Nat × α)
  /-- the requests that were made -/
  calls : List (Nat × Act)

inductive StreamLabel where
  /-- the next program is started -/
  | start
  /-- a program gets an answer -/
  | answer (position : Nat)
  /-- a program returns -/
  | finish (position : Nat)
deriving DecidableEq

namespace Stream

variable {Act : Type} {Resp : Act → Type} {α : Type}

def initial (programs : List (Prog Act Resp α)) : Stream Act Resp α :=
  ⟨programs.map fun program => (0, program), 0, [], []⟩

def next (limit : Nat) (answer : Nat → Nat → (a : Act) → Resp a) (s : Stream Act Resp α) :
    StreamLabel → Option (Stream Act Resp α)
  | .start =>
      if s.started < s.tasks.length ∧ s.started < limit + s.finished.length then
        some { s with started := s.started + 1 }
      else none
  | .answer i =>
      match s.tasks[i]? with
      | some (n, .act a k) =>
          if i < s.started then
            some { s with
              tasks := s.tasks.set i (n + 1, k (answer i n a)), calls := s.calls ++ [(i, a)] }
          else none
      | _ => none
  | .finish i =>
      match s.tasks[i]? with
      | some (_, .ret value) =>
          if i < s.started ∧ i ∉ s.finished.map Prod.fst then
            some { s with finished := s.finished ++ [(i, value)] }
          else none
      | _ => none

def done (s : Stream Act Resp α) : Bool := s.finished.length == s.tasks.length

def results (s : Stream Act Resp α) : List α :=
  (s.finished.insertionSort fun x y => x.1 ≤ y.1).map Prod.snd

/-- The requests of the program at position `i`. -/
def callsOf (s : Stream Act Resp α) (i : Nat) : List Act :=
  (s.calls.filter fun call => call.1 = i).map Prod.snd

/-- What a label does. -/
inductive Next (limit : Nat) (answer : Nat → Nat → (a : Act) → Resp a) (s : Stream Act Resp α) :
    StreamLabel → Stream Act Resp α → Prop where
  | start (left : s.started < s.tasks.length) (room : s.started < limit + s.finished.length) :
      Next limit answer s .start { s with started := s.started + 1 }
  | answer {i n : Nat} {a : Act} {k : Resp a → Prog Act Resp α}
      (task : s.tasks[i]? = some (n, .act a k)) (started : i < s.started) :
      Next limit answer s (.answer i) { s with
        tasks := s.tasks.set i (n + 1, k (answer i n a)), calls := s.calls ++ [(i, a)] }
  | finish {i n : Nat} {value : α} (task : s.tasks[i]? = some (n, .ret value))
      (started : i < s.started) (running : i ∉ s.finished.map Prod.fst) :
      Next limit answer s (.finish i) { s with finished := s.finished ++ [(i, value)] }

variable {limit : Nat} {answer : Nat → Nat → (a : Act) → Resp a} {s s' : Stream Act Resp α}
  {label : StreamLabel} {labels : List StreamLabel} {programs : List (Prog Act Resp α)}

theorem next_cases (h : s.next limit answer label = some s') : Next limit answer s label s' := by
  cases label with
  | start =>
    simp only [next] at h
    split at h
    · rename_i hguard
      cases h
      exact .start hguard.1 hguard.2
    · cases h
  | answer i =>
    simp only [next] at h
    split at h
    · split at h
      · cases h
        exact .answer ‹_› ‹_›
      · cases h
    · cases h
  | finish i =>
    simp only [next] at h
    split at h
    · split at h
      · rename_i hguard
        cases h
        exact .finish ‹_› hguard.1 hguard.2
      · cases h
    · cases h

/-! ## The invariant -/

/-- Every program is on its way to what it returns alone, and what has arrived is what it returned. -/
structure Sound (answer : Nat → Nat → (a : Act) → Resp a) (programs : List (Prog Act Resp α))
    (s : Stream Act Resp α) : Prop where
  length : s.tasks.length = programs.length
  started : s.started ≤ s.tasks.length
  tasks : ∀ i n program, s.tasks[i]? = some (n, program) → ∃ whole, programs[i]? = some whole ∧
    program.replay (answer i) n = whole.replay (answer i) 0 ∧
      s.callsOf i ++ program.issued (answer i) n = whole.issued (answer i) 0
  distinct : (s.finished.map Prod.fst).Nodup
  finished : ∀ i value, (i, value) ∈ s.finished → i < s.started ∧ ∃ n, s.tasks[i]? = some (n, .ret value)
  calls : ∀ i a, (i, a) ∈ s.calls → i < s.tasks.length

theorem initial_sound : (initial programs).Sound answer programs where
  length := by simp [initial]
  started := Nat.zero_le _
  tasks i n program h := by
    simp only [initial, List.getElem?_map, Option.map_eq_some_iff] at h
    obtain ⟨whole, hwhole, heq⟩ := h
    cases heq
    exact ⟨program, hwhole, rfl, rfl⟩
  distinct := List.nodup_nil
  finished i value h := by cases h
  calls i a h := by cases h

theorem callsOf_append (s : Stream Act Resp α) (i j : Nat) (a : Act) (tasks : List (Nat × Prog Act Resp α)) :
    callsOf { s with tasks, calls := s.calls ++ [(i, a)] } j =
      s.callsOf j ++ if i = j then [a] else [] := by
  by_cases h : i = j <;> simp [callsOf, h]

theorem sound_next (hs : s.Sound answer programs) (h : Next limit answer s label s') :
    s'.Sound answer programs := by
  cases h with
  | start left room =>
    exact ⟨hs.length, left, hs.tasks, hs.distinct,
      fun i value hmem => ⟨Nat.lt_succ_of_lt (hs.finished i value hmem).1, (hs.finished i value hmem).2⟩,
      hs.calls⟩
  | @answer i n a k task started =>
    have hlt : i < s.tasks.length := List.getElem?_eq_some_iff.mp task |>.1
    refine ⟨by simpa using hs.length, by simpa using hs.started, ?_, hs.distinct, ?_, ?_⟩
    · intro j m program hj
      rw [callsOf_append]
      by_cases hij : i = j
      · subst hij
        rw [List.getElem?_set_self hlt] at hj
        cases hj
        obtain ⟨whole, hwhole, hreplay, hissued⟩ := hs.tasks i n _ task
        refine ⟨whole, hwhole, hreplay, ?_⟩
        rw [if_pos rfl, List.append_assoc]
        exact hissued
      · rw [List.getElem?_set_ne hij] at hj
        rw [if_neg hij, List.append_nil]
        exact hs.tasks j m program hj
    · intro j value hmem
      obtain ⟨hstarted, m, hj⟩ := hs.finished j value hmem
      refine ⟨hstarted, m, ?_⟩
      -- a program that has returned gets no answer
      have hij : i ≠ j := by
        rintro rfl
        rw [task] at hj
        cases hj
      rw [List.getElem?_set_ne hij]
      exact hj
    · intro j b hmem
      rw [List.length_set]
      rcases List.mem_append.mp hmem with hold | hnew
      · exact hs.calls j b hold
      · cases List.mem_singleton.mp hnew
        exact hlt
  | @finish i n value task started running =>
    refine ⟨hs.length, hs.started, hs.tasks, ?_, ?_, hs.calls⟩
    · rw [List.map_append, List.nodup_append]
      refine ⟨hs.distinct, List.nodup_singleton i, ?_⟩
      intro j hj j' hj' heq
      obtain rfl : j' = i := by simpa using hj'
      exact running (heq ▸ hj)
    · intro j value' hmem
      rcases List.mem_append.mp hmem with hold | hnew
      · exact hs.finished j value' hold
      · cases List.mem_singleton.mp hnew
        exact ⟨started, n, task⟩

theorem sound_of_run (run : Run (next limit answer) (fun _ _ => True) (initial programs) labels s) :
    s.Sound answer programs :=
  run.invariant (I := Sound answer programs) (fun _ _ _ hs _ h => sound_next hs (next_cases h)) initial_sound

/-! ## What has arrived when all is done -/

theorem positions_perm (hs : s.Sound answer programs) (hdone : s.done = true) :
    (s.finished.map Prod.fst).Perm (List.range programs.length) := by
  have hlength : (s.finished.map Prod.fst).length = programs.length := by
    rw [List.length_map, beq_iff_eq.mp hdone, hs.length]
  have hsub : s.finished.map Prod.fst ⊆ List.range programs.length := by
    intro i hi
    obtain ⟨⟨j, value⟩, hmem, rfl⟩ := List.mem_map.mp hi
    exact List.mem_range.mpr (hs.length ▸ Nat.lt_of_lt_of_le (hs.finished j value hmem).1 hs.started)
  have hsubperm := List.subperm_of_subset hs.distinct hsub
  exact hsubperm.perm_of_length_le (by rw [hlength, List.length_range])

theorem value_of_finished (hs : s.Sound answer programs) {result : Nat × α} (hmem : result ∈ s.finished) :
    ∃ whole, programs[result.1]? = some whole ∧ result.2 = whole.replay (answer result.1) 0 ∧
      s.callsOf result.1 = whole.issued (answer result.1) 0 := by
  obtain ⟨-, n, htask⟩ := hs.finished result.1 result.2 hmem
  obtain ⟨whole, hwhole, hreplay, hissued⟩ := hs.tasks result.1 n _ htask
  exact ⟨whole, hwhole, hreplay, by simpa [Prog.issued] using hissued⟩

theorem results_eq (hs : s.Sound answer programs) (hdone : s.done = true) :
    s.results = programs.zipIdx.map fun (program, i) => program.replay (answer i) 0 := by
  set sorted := s.finished.insertionSort fun x y => x.1 ≤ y.1 with hsorted
  have hperm : sorted.Perm s.finished := List.perm_insertionSort _ _
  have hpositions : sorted.map Prod.fst = List.range programs.length := by
    have hascending : (sorted.map Prod.fst).Pairwise (· ≤ ·) := by
      rw [List.pairwise_map]
      exact List.pairwise_insertionSort _ s.finished
    exact List.Perm.eq_of_pairwise' hascending List.pairwise_le_range
      ((hperm.map _).trans (positions_perm hs hdone))
  have hlength : sorted.length = programs.length := by
    rw [← List.length_range (n := programs.length), ← hpositions, List.length_map]
  refine List.ext_getElem (by simp [results, ← hsorted, hlength]) fun i hi _ => ?_
  have hi' : i < sorted.length := by simpa [results, ← hsorted] using hi
  have hfst : sorted[i].1 = i := by
    have := List.getElem_map Prod.fst (h := by simpa using hi')
    rw [← this]
    simp [hpositions]
  obtain ⟨whole, hwhole, hvalue, -⟩ :=
    value_of_finished hs (hperm.subset (List.getElem_mem hi'))
  rw [hfst] at hwhole hvalue
  obtain ⟨hi'', rfl⟩ := List.getElem?_eq_some_iff.mp hwhole
  simp [results, ← hsorted, hvalue]

theorem calls_eq (hs : s.Sound answer programs) (hdone : s.done = true) {i : Nat} {program : Prog Act Resp α}
    (h : programs[i]? = some program) : s.callsOf i = program.issued (answer i) 0 := by
  have hi : i ∈ s.finished.map Prod.fst := by
    refine (positions_perm hs hdone).symm.subset (List.mem_range.mpr ?_)
    exact (List.getElem?_eq_some_iff.mp h).1
  obtain ⟨⟨j, value⟩, hmem, rfl⟩ := List.mem_map.mp hi
  obtain ⟨whole, hwhole, -, hcalls⟩ := value_of_finished hs hmem
  rw [h] at hwhole
  cases hwhole
  exact hcalls

theorem mem_issued_of_call (hs : s.Sound answer programs) {i : Nat} {a : Act} (h : (i, a) ∈ s.calls) :
    ∃ program, programs[i]? = some program ∧ a ∈ program.issued (answer i) 0 := by
  obtain ⟨whole, hwhole, -, hissued⟩ :=
    hs.tasks i _ _ (List.getElem?_eq_getElem (hs.calls i a h))
  refine ⟨whole, hwhole, ?_⟩
  rw [← hissued]
  refine List.mem_append_left _ (List.mem_map.mpr ⟨(i, a), ?_, rfl⟩)
  exact List.mem_filter.mpr ⟨h, by simp⟩

/-! ## Every schedule can be brought to the end -/

/-- The requests the programs from position `i` on still have to make. -/
def remaining (answer : Nat → Nat → (a : Act) → Resp a) : Nat → List (Nat × Prog Act Resp α) → Nat
  | _, [] => 0
  | i, (n, program) :: tasks => (program.issued (answer i) n).length + remaining answer (i + 1) tasks

theorem remaining_set (answer : Nat → Nat → (a : Act) → Resp a) {tasks : List (Nat × Prog Act Resp α)}
    {i j n : Nat} {a : Act} {k : Resp a → Prog Act Resp α} (h : tasks[j]? = some (n, .act a k)) :
    remaining answer i (tasks.set j (n + 1, k (answer (i + j) n a))) + 1 = remaining answer i tasks := by
  induction tasks generalizing i j with
  | nil => simp at h
  | cons task tasks ih =>
    cases j with
    | zero =>
      simp only [List.getElem?_cons_zero, Option.some.injEq] at h
      subst h
      simp only [List.set_cons_zero, remaining, Prog.issued, Nat.add_zero, List.length_cons]
      omega
    | succ j =>
      have hrest := ih (i := i + 1) (by simpa using h)
      rw [show i + 1 + j = i + (j + 1) by omega] at hrest
      simp only [List.set_cons_succ, remaining]
      omega

def work (answer : Nat → Nat → (a : Act) → Resp a) (s : Stream Act Resp α) : Nat :=
  remaining answer 0 s.tasks + (s.tasks.length - s.started) + (s.tasks.length - s.finished.length)

theorem finished_length_le (hs : s.Sound answer programs) : s.finished.length ≤ s.started := by
  have hsub : s.finished.map Prod.fst ⊆ List.range s.started := by
    intro i hi
    obtain ⟨⟨j, value⟩, hmem, rfl⟩ := List.mem_map.mp hi
    exact List.mem_range.mpr (hs.finished j value hmem).1
  simpa using (List.subperm_of_subset hs.distinct hsub).length_le

theorem work_next (hs : s.Sound answer programs) (h : Next limit answer s label s') :
    s'.work answer + 1 = s.work answer := by
  have hfinished := finished_length_le (sound_next hs h)
  have hstarted := hs.started
  cases h with
  | start left room =>
    simp only [work]
    omega
  | answer task started =>
    have := remaining_set answer (i := 0) task
    rw [Nat.zero_add] at this
    simp only [work, List.length_set]
    omega
  | finish task started running =>
    simp only [work, List.length_append, List.length_singleton] at hfinished ⊢
    omega

theorem length_le_work (hs : s.Sound answer programs)
    (run : Run (next limit answer) (fun _ _ => True) s labels s') : labels.length ≤ s.work answer := by
  induction run with
  | nil s => exact Nat.zero_le _
  | cons meets taken rest ih =>
    have hnext := next_cases taken
    have := work_next hs hnext
    have := ih (sound_next hs hnext)
    rw [List.length_cons]
    omega

theorem exists_running (h : s.finished.length < s.started) : ∃ i < s.started, i ∉ s.finished.map Prod.fst := by
  by_contra hall
  push Not at hall
  have hsub : List.range s.started ⊆ s.finished.map Prod.fst :=
    fun i hi => hall i (List.mem_range.mp hi)
  have := (List.subperm_of_subset List.nodup_range hsub).length_le
  rw [List.length_range, List.length_map] at this
  omega

theorem done_of_stuck (hs : s.Sound answer programs) (hlimit : 0 < limit)
    (hstuck : ∀ label, s.next limit answer label = none) : s.done = true := by
  have hfinished := finished_length_le hs
  have hall := hs.started
  -- nothing is running, or that program could go on
  have hrunning : ¬ s.finished.length < s.started := by
    intro hlt
    obtain ⟨i, hi, hfree⟩ := exists_running hlt
    have htask := List.getElem?_eq_getElem (Nat.lt_of_lt_of_le hi hall)
    rcases heq : s.tasks[i] with ⟨n, value | ⟨a, k⟩⟩
    · have := hstuck (.finish i)
      simp [next, htask, heq, hi, hfree] at this
    · have := hstuck (.answer i)
      simp [next, htask, heq, hi] at this
  -- and nothing is left to start, or there would be room for it
  have hstarted : ¬ s.started < s.tasks.length := by
    intro hlt
    have := hstuck .start
    simp only [next] at this
    rw [if_pos ⟨hlt, by omega⟩] at this
    cases this
  exact beq_iff_eq.mpr (by omega)

theorem exists_stuck (limit : Nat) (hs : s.Sound answer programs) :
    ∃ (labels : List StreamLabel) (s' : Stream Act Resp α), labels.foldlM (next limit answer) s = some s' ∧
      ∀ label, s'.next limit answer label = none := by
  induction hwork : s.work answer using Nat.strong_induction_on generalizing s with
  | _ n ih =>
    by_cases hstuck : ∀ label, s.next limit answer label = none
    · exact ⟨[], s, rfl, hstuck⟩
    · push Not at hstuck
      obtain ⟨label, hlabel⟩ := hstuck
      obtain ⟨s₁, hs₁⟩ := Option.ne_none_iff_exists'.mp hlabel
      have hnext := next_cases hs₁
      have hless := work_next hs hnext
      obtain ⟨labels, s₂, hrun, hend⟩ := ih (s₁.work answer) (by omega) (sound_next hs hnext) rfl
      refine ⟨label :: labels, s₂, ?_, hend⟩
      rw [List.foldlM_cons, hs₁]
      exact hrun

end Stream

end AudioDown.Lib
