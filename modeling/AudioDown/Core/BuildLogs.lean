/-
# AudioDown.Core.BuildLogs — what polling gathers

`wait_until_built` merges the logs of every poll into those it has.  However often a log is reported, it is
kept once, as it was first seen, and in the order of the sequences.
-/
import AudioDown.Core.Service

namespace AudioDown.Core

open Supervisor

/-- `logs` has, of everything polled so far, the first log of each sequence. -/
structure FirstSeen (seen logs : List PluginBuildLog) : Prop where
  mem_iff : ∀ log, log ∈ logs ↔ seen.find? (·.sequence = log.sequence) = some log
  distinct : logs.Pairwise (·.sequence ≠ ·.sequence)

theorem FirstSeen.any_iff {seen logs : List PluginBuildLog} (h : FirstSeen seen logs) (n : Nat) :
    (∃ log ∈ logs, log.sequence = n) ↔ ∃ log ∈ seen, log.sequence = n := by
  have hmem := h.mem_iff
  constructor
  · rintro ⟨log, hlog, hn⟩
    exact ⟨log, List.mem_of_find?_eq_some ((hmem log).mp hlog), hn⟩
  · cases hfirst : seen.find? (·.sequence = n) with
    | none => grind
    | some first => grind

theorem FirstSeen.push {seen logs : List PluginBuildLog} (h : FirstSeen seen logs) (log : PluginBuildLog) :
    FirstSeen (seen ++ [log])
      (if logs.any fun existing => existing.sequence = log.sequence then logs else logs ++ [log]) := by
  have hany := h.any_iff log.sequence
  have hmem := h.mem_iff
  split
  next hseen =>
    refine ⟨fun x => ?_, h.distinct⟩
    grind
  next hseen =>
    refine ⟨fun x => ?_, ?_⟩
    · grind
    · have := h.distinct
      grind

theorem FirstSeen.merge {seen logs : List PluginBuildLog} (h : FirstSeen seen logs)
    (poll : List PluginBuildLog) : FirstSeen (seen ++ poll) (mergeBuildLogs logs poll) := by
  unfold mergeBuildLogs
  induction poll generalizing seen logs with
  | nil =>
    rw [List.append_nil]
    refine ⟨fun log => ?_, ?_⟩
    · rw [List.foldl_nil, List.mem_insertionSort, h.mem_iff]
    · exact ((List.perm_insertionSort _ _).pairwise_iff fun h => h.symm).mpr h.distinct
  | cons log poll ih =>
    have hrest := ih (h.push log)
    rwa [List.append_assoc] at hrest

theorem FirstSeen.merge_eq_self {seen logs poll : List PluginBuildLog} (h : FirstSeen seen logs)
    (hsorted : logs.Pairwise fun a b => a.sequence ≤ b.sequence) (hpoll : ∀ log ∈ poll, log ∈ seen) :
    mergeBuildLogs logs poll = logs := by
  unfold mergeBuildLogs
  induction poll with
  | nil => exact hsorted.insertionSort_eq
  | cons log poll ih =>
    obtain ⟨hlog, hrest⟩ := List.forall_mem_cons.mp hpoll
    have hany : (logs.any fun existing => existing.sequence = log.sequence) = true := by
      simpa using (h.any_iff log.sequence).mpr ⟨log, hlog, rfl⟩
    rw [List.foldl_cons, if_pos hany]
    exact ih hrest

theorem FirstSeen.foldl {seen logs : List PluginBuildLog}
    (h : FirstSeen seen logs) (polls : List (List PluginBuildLog)) :
    FirstSeen (seen ++ polls.flatten) (polls.foldl mergeBuildLogs logs) := by
  induction polls generalizing seen logs with
  | nil => rwa [List.flatten_nil, List.append_nil]
  | cons poll polls ih =>
    rw [List.flatten_cons, ← List.append_assoc]
    exact ih (h.merge poll)

theorem sorted_foldl_mergeBuildLogs {logs : List PluginBuildLog} (polls : List (List PluginBuildLog))
    (h : logs.Pairwise fun a b => a.sequence ≤ b.sequence) :
    (polls.foldl mergeBuildLogs logs).Pairwise fun a b => a.sequence ≤ b.sequence := by
  induction polls generalizing logs with
  | nil => exact h
  | cons poll polls ih => exact ih (List.pairwise_insertionSort ..)

/-- What polling has gathered is in the order of the sequences, has one log for each that occurred, the
first that was seen, and takes nothing more from a poll it already had. -/
theorem foldl_mergeBuildLogs (polls : List (List PluginBuildLog)) :
    (polls.foldl mergeBuildLogs []).Pairwise (·.sequence < ·.sequence) ∧
    (∀ n, (∃ log ∈ polls.foldl mergeBuildLogs [], log.sequence = n) ↔
      ∃ poll ∈ polls, ∃ log ∈ poll, log.sequence = n) ∧
    (∀ log ∈ polls.foldl mergeBuildLogs [], polls.flatten.find? (·.sequence = log.sequence) = some log) ∧
    ∀ poll ∈ polls, mergeBuildLogs (polls.foldl mergeBuildLogs []) poll = polls.foldl mergeBuildLogs [] := by
  have hempty : FirstSeen [] [] := ⟨by simp, .nil⟩
  have hfirst := hempty.foldl polls
  have hsorted := sorted_foldl_mergeBuildLogs polls .nil
  refine ⟨?_, fun n => ?_, fun log => (hfirst.mem_iff log).mp, fun poll hpoll => ?_⟩
  · exact (hsorted.and hfirst.distinct).imp fun h => Nat.lt_of_le_of_ne h.1 h.2
  · rw [hfirst.any_iff]
    simp only [List.nil_append, List.mem_flatten]
    grind
  · exact hfirst.merge_eq_self hsorted fun log hlog => List.mem_flatten_of_mem hpoll hlog

end AudioDown.Core
