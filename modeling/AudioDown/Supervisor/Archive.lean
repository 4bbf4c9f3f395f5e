/-
# AudioDown.Supervisor.Archive — where a tar archive ends

`docker_build.rs` reads an archive from the output of a command, in chunks.  After each `complete_tar_length`
walks the headers, each with the size of its file, up to the two empty blocks that end an archive.  The end it
finds depends on the bytes before it only, so neither what follows nor how the output was cut matters
(`complete_tar_length_stable`).
-/
import Mathlib

namespace AudioDown.Supervisor

open Option (bind_eq_some_iff guard_eq_some_iff)

/-! ## The walk over the headers -/

def block : Nat := 512

/-- The result of checked arithmetic on `usize`. -/
def checked (n : Nat) : Option Nat := Option.guard (· < 2 ^ 64) n

/-- `bytes.get(start..stop)`, where `start` is not above `stop`. -/
def slice (bytes : List UInt8) (start stop : Nat) : Option (List UInt8) :=
  if stop ≤ bytes.length then some ((bytes.take stop).drop start) else none

/-- The digits of `from_str_radix(_, 8)`; of twelve bytes the number is below `2 ^ 36`. -/
def octal (digits : List UInt8) : Option Nat :=
  digits.foldlM (fun n digit => if 48 ≤ digit ∧ digit < 56 then some (8 * n + (digit.toNat - 48)) else none) 0

/-- The size in a header.  A byte that is not ASCII is no digit, whether or not the field is UTF-8. -/
def fileSize (header : List UInt8) : Option Nat :=
  let blank : UInt8 → Bool := fun byte => byte = 0 || byte = 32
  match (((header.drop 124).take 12).dropWhile blank).rdropWhile blank with
  | [] => some 0
  | 43 :: digit :: digits => octal (digit :: digits)
  | text => octal text

/-- One turn of the loop: the end of the archive, or the offset of the next header. -/
def tarStep (bytes : List UInt8) (offset : Nat) : Option (Nat ⊕ Nat) := do
  let headerEnd ← checked (offset + block)
  let header ← slice bytes offset headerEnd
  if header.all (· = 0) then
    let terminatorEnd ← checked (headerEnd + block)
    let second ← slice bytes headerEnd terminatorEnd
    if second.all (· = 0) then some (.inl terminatorEnd) else none
  else
    let size ← fileSize header
    let rounded ← checked (size + (block - 1))
    let paddedSize ← checked (rounded / block * block)
    let next ← checked (headerEnd + paddedSize)
    some (.inr next)

variable {bytes : List UInt8} {offset n : Nat}

theorem slice_append {part : List UInt8} {start stop : Nat} (h : slice bytes start stop = some part)
    (more : List UInt8) : stop ≤ bytes.length ∧ slice (bytes ++ more) start stop = some part := by
  unfold slice at h ⊢
  split at h
  · rename_i hstop
    rw [List.length_append, if_pos (by omega), List.take_append_of_le_length hstop]
    exact ⟨hstop, h⟩
  · cases h

def Lands (bytes : List UInt8) (offset : Nat) : Nat ⊕ Nat → Prop
  | .inl n => n = offset + block + block ∧ n ≤ bytes.length
  | .inr next => offset + block ≤ bytes.length ∧ ∃ blocks, next = offset + block + blocks * block

theorem tarStep_append {r : Nat ⊕ Nat} (h : tarStep bytes offset = some r) (more : List UInt8) :
    Lands bytes offset r ∧ tarStep (bytes ++ more) offset = some r := by
  unfold tarStep at h ⊢
  obtain ⟨_, hend, h⟩ := bind_eq_some_iff.mp h
  obtain ⟨_, hheader, h⟩ := bind_eq_some_iff.mp h
  obtain ⟨hfits, hheader'⟩ := slice_append hheader more
  simp only [hend, hheader', Option.bind_eq_bind, Option.bind_some]
  obtain ⟨rfl, -⟩ := guard_eq_some_iff.mp hend
  split at h
  · rename_i hzero
    obtain ⟨_, hend', h⟩ := bind_eq_some_iff.mp h
    obtain ⟨_, hsecond, h⟩ := bind_eq_some_iff.mp h
    obtain ⟨hfits', hsecond'⟩ := slice_append hsecond more
    rw [if_pos hzero, hend', Option.bind_some, hsecond', Option.bind_some]
    obtain ⟨rfl, -⟩ := guard_eq_some_iff.mp hend'
    refine ⟨?_, h⟩
    split at h
    · cases h
      exact ⟨rfl, hfits'⟩
    · cases h
  · rename_i hzero
    rw [if_neg hzero]
    refine ⟨?_, h⟩
    obtain ⟨size, -, h⟩ := bind_eq_some_iff.mp h
    obtain ⟨_, -, h⟩ := bind_eq_some_iff.mp h
    obtain ⟨padded, hpadded, h⟩ := bind_eq_some_iff.mp h
    obtain ⟨next, hnext, h⟩ := bind_eq_some_iff.mp h
    cases h
    obtain ⟨rfl, -⟩ := guard_eq_some_iff.mp hpadded
    obtain ⟨rfl, -⟩ := guard_eq_some_iff.mp hnext
    exact ⟨hfits, _, rfl⟩

set_option maxRecDepth 2000 in
/-- The loop of `complete_tar_length`, from a header on.  It ends, since every header is further on. -/
def completeFrom (bytes : List UInt8) (offset : Nat) : Option Nat :=
  match _step : tarStep bytes offset with
  | none => none
  | some (.inl n) => some n
  | some (.inr next) => completeFrom bytes next
termination_by bytes.length - offset
decreasing_by
  obtain ⟨hfits, blocks, rfl⟩ := (tarStep_append _step []).1
  unfold block at hfits ⊢
  omega

def completeTarLength (bytes : List UInt8) : Option Nat := completeFrom bytes 0

theorem completeFrom_append (h : completeFrom bytes offset = some n) (more : List UInt8) :
    (∃ blocks, n = offset + blocks * block) ∧ n ≤ bytes.length ∧
      completeFrom (bytes ++ more) offset = some n := by
  fun_induction completeFrom bytes offset with
  | case1 offset hstep => cases h
  | case2 offset end' hstep =>
    cases h
    obtain ⟨⟨rfl, hle⟩, hstep'⟩ := tarStep_append hstep more
    refine ⟨⟨2, Nat.add_assoc ..⟩, hle, ?_⟩
    rw [completeFrom, hstep']
  | case3 offset next hstep ih =>
    obtain ⟨⟨-, blocks, rfl⟩, hstep'⟩ := tarStep_append hstep more
    obtain ⟨⟨blocks', hn⟩, hle, hrest⟩ := ih h
    refine ⟨⟨1 + blocks + blocks', by unfold block at *; omega⟩, hle, ?_⟩
    rw [completeFrom, hstep']
    exact hrest

/-! ## The download -/

inductive DockerBuildError where
  | archiveIo
  | buildOutputLimitExceeded
deriving DecidableEq

/-- The loop of `download_exec_archive`.  `none` is a failed read, or a chunk of another stream. -/
def downloadExecArchive (limit : Nat) (bytes : List UInt8) :
    List (Option (List UInt8)) → Except DockerBuildError (List UInt8)
  | [] | none :: _ => .error .archiveIo
  | some data :: chunks =>
    if limit < min (bytes.length + data.length) (2 ^ 64 - 1) then .error .buildOutputLimitExceeded
    else
      match completeTarLength (bytes ++ data) with
      | some complete => .ok ((bytes ++ data).take complete)
      | none => downloadExecArchive limit (bytes ++ data) chunks

/-- The archive at the front of a whole stream. -/
def archiveOf (stream : List UInt8) : Except DockerBuildError (List UInt8) :=
  (completeTarLength stream).elim (.error .archiveIo) fun n => .ok (stream.take n)

theorem downloadExecArchive_eq {limit : Nat} {chunks : List (List UInt8)}
    (unfinished : completeTarLength bytes = none) (small : (bytes ++ chunks.flatten).length ≤ limit) :
    downloadExecArchive limit bytes (chunks.map some) = archiveOf (bytes ++ chunks.flatten) := by
  induction chunks generalizing bytes with
  | nil =>
    rw [List.flatten_nil, List.append_nil, archiveOf, unfinished]
    rfl
  | cons data chunks ih =>
    rw [List.flatten_cons, ← List.append_assoc] at small ⊢
    have hfits : ¬ limit < min (bytes.length + data.length) (2 ^ 64 - 1) := by
      simp only [List.length_append] at small
      omega
    rw [List.map_cons, downloadExecArchive, if_neg hfits]
    split
    · rename_i n hcomplete
      obtain ⟨-, hle, hwhole⟩ := completeFrom_append hcomplete chunks.flatten
      rw [archiveOf, completeTarLength, hwhole, Option.elim_some, List.take_append_of_le_length hle]
    · exact ih ‹_› small

/-- The end that is found is a multiple of 512 within the bytes.  It stays where it is when more bytes come,
and with fewer there is none.  So the archive read from a stream within the limit is the same however the
stream is cut. -/
theorem complete_tar_length_stable (bytes : List UInt8) :
    (∀ n, completeTarLength bytes = some n → block ∣ n ∧ n ≤ bytes.length ∧
      (∀ more, completeTarLength (bytes ++ more) = some n) ∧
      ∀ k < n, completeTarLength (bytes.take k) = none) ∧
    ∀ limit chunks, List.flatten chunks = bytes → bytes.length ≤ limit →
      downloadExecArchive limit [] (chunks.map some) = archiveOf bytes := by
  refine ⟨fun n h => ?_, ?_⟩
  · obtain ⟨⟨blocks, hn⟩, hle, -⟩ := completeFrom_append h []
    refine ⟨⟨blocks, by rw [hn, Nat.zero_add, Nat.mul_comm]⟩, hle,
      fun more => (completeFrom_append h more).2.2, fun k hk => ?_⟩
    rw [Option.eq_none_iff_forall_ne_some]
    intro m hm
    -- an end found earlier would still be found, and is not `n`
    obtain ⟨-, hm', hwhole⟩ := completeFrom_append hm (bytes.drop k)
    rw [List.take_append_drop] at hwhole
    cases hwhole.symm.trans h
    rw [List.length_take] at hm'
    omega
  · rintro limit chunks rfl small
    have unfinished : completeTarLength [] = none := by
      rw [completeTarLength, completeFrom]
      rfl
    exact downloadExecArchive_eq unfinished small

example : completeTarLength (List.replicate 1024 0) = some 1024 := by
  have hstep : tarStep (List.replicate 1024 0) 0 = some (.inl 1024) := by decide +kernel
  rw [completeTarLength, completeFrom, hstep]

end AudioDown.Supervisor
