/-
# AudioDown.Sdk.Server — the read loop of a plugin

`createPluginServer` collects its input in a buffer and handles it line by line, and what is left when
the input ends as one more line.  What it measures is a line that is complete and the text behind one:
while no newline comes, nothing bounds the buffer.  It is bounded, and over-long lines are rejected as
soon as they are, exactly if every line ends in time (`bounded_iff`).
-/
import Mathlib.Data.List.Basic

namespace AudioDown.Sdk

/-- `MAX_MESSAGE_BYTES`. -/
def maxMessageBytes : Nat := 1024 * 1024

abbrev Text := List Char

/-- `Buffer.byteLength(text, "utf8")`. -/
def byteLength : Text → Nat
  | [] => 0
  | c :: text => c.utf8Size + byteLength text

/-- How `processLine` ends. -/
inductive Processed where
  | done
  | shuttingDown
  | failed

inductive Server where
  /-- it waits for a chunk, with this text buffered and these lines handled -/
  | reading (buffer : Text) (handled : List Text)
  | returned (handled : List Text)
  | thrown (handled : List Text)

/-- `replace(/\r$/, "")`. -/
def stripReturn (line : Text) : Text :=
  if line.getLast? = some '\r' then line.dropLast else line

/-- The loop over the lines of a buffer that begins with `line`. -/
def drain (processLine : List Text → Processed) : Text → Text → List Text → Server
  | line, [], handled => .reading line handled
  | line, c :: rest, handled =>
    if c ≠ '\n' then drain processLine (line ++ [c]) rest handled
    else
      -- an empty line is passed over, but what comes after it is measured
      let handled' := if stripReturn line = [] then handled else handled ++ [stripReturn line]
      if byteLength (stripReturn line) > maxMessageBytes then .thrown handled
      else match if stripReturn line = [] then .done else processLine handled' with
        | .failed => .thrown handled'
        | .shuttingDown => .returned handled'
        | .done =>
          if byteLength rest > maxMessageBytes then .thrown handled'
          else drain processLine [] rest handled'

namespace Server

def buffer : Server → Text
  | .reading buffer _ => buffer
  | _ => []

/-- The lines given to `processLine`. -/
def handled : Server → List Text
  | .reading _ handled | .returned handled | .thrown handled => handled

def reads : Server → Bool
  | .reading .. => true
  | _ => false

section
variable (toString : List UInt8 → Text) (processLine : List Text → Processed)

def receive : Server → List UInt8 → Server
  | .reading buffer handled, chunk => drain processLine [] (buffer ++ toString chunk) handled
  | ended, _ => ended

def finish : Server → Server
  | .reading buffer handled =>
    if buffer = [] then .returned handled
    else if byteLength buffer > maxMessageBytes then .thrown handled
    else match processLine (handled ++ [buffer]) with
      | .failed => .thrown (handled ++ [buffer])
      | .shuttingDown | .done => .returned (handled ++ [buffer])
  | ended => ended

end

end Server

/-! ## What is claimed of every moment -/

/-- A character more: the lines that are complete, and the one that is awaited. -/
def splitStep (lines : List Text × Text) (c : Char) : List Text × Text :=
  if c = '\n' then (lines.1 ++ [lines.2], []) else (lines.1, lines.2 ++ [c])

/-- The lines of a text, and what stands behind the last newline. -/
def split (text : Text) : List Text × Text := text.foldl splitStep ([], [])

/-- Having received `received`, the server holds at most 1 MiB, has handled no line of more than 1 MiB,
and reads on only if it has received no such line, complete or not. -/
structure Server.Sound (received : Text) (s : Server) : Prop where
  buffered : byteLength s.buffer ≤ maxMessageBytes
  short : ∀ line ∈ s.handled, byteLength line ≤ maxMessageBytes
  rejects : ∀ line, line ∈ (split received).1 ∨ line = (split received).2 →
    maxMessageBytes < byteLength (stripReturn line) → s.reads = false

section
variable (toString : List UInt8 → Text) (processLine : List Text → Processed)

/-- With chunks of at most `c` bytes no more than 1 MiB and `c` bytes are buffered, not even right after
a chunk was added, and before and after every chunk and the end of the input the server is sound. -/
def Bounded (c : Nat) : Text → Server → List (List UInt8) → Prop
  | received, s, [] => s.Sound received ∧ (s.finish processLine).Sound received
  | received, s, chunk :: chunks =>
      s.Sound received ∧
      (s.reads → byteLength (s.buffer ++ toString chunk) ≤ maxMessageBytes + c) ∧
      Bounded c (received ++ toString chunk) (s.receive toString processLine chunk) chunks

/-- No chunk without a newline makes the line that is awaited longer than 1 MiB. -/
def LinesEnd : Server → List (List UInt8) → Prop
  | .reading buffer handled, chunk :: chunks =>
      ('\n' ∉ toString chunk → byteLength (buffer ++ toString chunk) ≤ maxMessageBytes) ∧
      LinesEnd (Server.receive toString processLine (.reading buffer handled) chunk) chunks
  | _, _ => True

variable {toString processLine} {line rest buffer received : Text} {handled handled' : List Text}
  {lines : List Text} {chunks : List (List UInt8)} {c : Nat} {s : Server}

theorem byteLength_append (first second : Text) :
    byteLength (first ++ second) = byteLength first + byteLength second := by
  induction first with
  | nil => simp [byteLength]
  | cons c first ih => simp [byteLength, ih, Nat.add_assoc]

theorem byteLength_stripReturn (line : Text) : byteLength (stripReturn line) ≤ byteLength line := by
  unfold stripReturn
  split
  · obtain ⟨front, rfl⟩ := List.getLast?_eq_some_iff.mp ‹_›
    simp [byteLength_append]
  · exact Nat.le_refl _

theorem split_append (first second : Text) : split (first ++ second) = second.foldl splitStep (split first) :=
  List.foldl_append

theorem foldl_splitStep_clean (none : '\n' ∉ rest) :
    rest.foldl splitStep (lines, line) = (lines, line ++ rest) := by
  induction rest generalizing line with
  | nil => simp
  | cons c rest ih =>
    rw [List.mem_cons, not_or] at none
    simp [splitStep, Ne.symm none.1, ih none.2]

theorem foldl_splitStep_awaited (clean : '\n' ∉ line) : '\n' ∉ (rest.foldl splitStep (lines, line)).2 := by
  induction rest generalizing lines line with
  | nil => exact clean
  | cons c rest ih =>
    rw [List.foldl_cons, splitStep]
    split
    · exact ih List.not_mem_nil
    · exact ih (by simp [clean, Ne.symm ‹_›])

/-- The lines that `processLine` gets. -/
def nonempty (lines : List Text) : List Text := (lines.map stripReturn).filter (· ≠ [])

theorem nonempty_concat (lines : List Text) (line : Text) : nonempty (lines ++ [line]) =
    if stripReturn line = [] then nonempty lines else nonempty lines ++ [stripReturn line] := by
  by_cases h : stripReturn line = [] <;> simp [nonempty, h]

/-! ## One pass of the inner loop -/

theorem drain_of_no_newline (none : '\n' ∉ rest) :
    drain processLine line rest handled = .reading (line ++ rest) handled := by
  induction rest generalizing line with
  | nil => simp [drain]
  | cons c rest ih =>
    rw [List.mem_cons, not_or] at none
    rw [drain, if_pos (Ne.symm none.1), ih none.2, List.append_assoc]
    rfl

theorem drain_newline (h : drain processLine line ('\n' :: rest) handled = s)
    (hhandled : handled = nonempty lines) : byteLength (stripReturn line) > maxMessageBytes ∧
      s = .thrown handled ∨ byteLength (stripReturn line) ≤ maxMessageBytes ∧
      (s = .thrown (nonempty (lines ++ [line])) ∨ s = .returned (nonempty (lines ++ [line])) ∨
      byteLength rest ≤ maxMessageBytes ∧ drain processLine [] rest (nonempty (lines ++ [line])) = s) := by
  rw [nonempty_concat, ← hhandled]
  rw [drain, if_neg (by simp)] at h
  simp only at h
  split at h
  · exact .inl ⟨‹_›, h.symm⟩
  · refine .inr ⟨Nat.le_of_not_lt ‹_›, ?_⟩
    split at h
    · exact .inl h.symm
    · exact .inr (.inl h.symm)
    · split at h
      · exact .inl h.symm
      · exact .inr (.inr ⟨Nat.le_of_not_lt ‹_›, h⟩)

theorem drain_short (h : drain processLine line rest handled = s) (hhandled : handled = nonempty lines)
    (short : ∀ line ∈ handled, byteLength line ≤ maxMessageBytes) :
    ∀ line ∈ s.handled, byteLength line ≤ maxMessageBytes := by
  induction rest generalizing line handled lines with
  | nil =>
    rw [drain] at h
    subst h
    exact short
  | cons c rest ih =>
    by_cases newline : c = '\n'
    · subst newline
      rcases drain_newline h hhandled with ⟨-, rfl⟩ | ⟨fits, next⟩
      · exact short
      · have short' : ∀ l ∈ nonempty (lines ++ [line]), byteLength l ≤ maxMessageBytes := by
          rw [nonempty_concat, ← hhandled]
          split
          · exact short
          · exact List.forall_mem_append.mpr ⟨short, List.forall_mem_singleton.mpr fits⟩
        rcases next with rfl | rfl | ⟨-, next⟩
        · exact short'
        · exact short'
        · exact ih next rfl short'
    · rw [drain, if_pos newline] at h
      exact ih h hhandled short

/-- A server that goes on reading has handled the lines it received and holds the rest of the text,
which is short unless there was no newline. -/
theorem drain_reading (h : drain processLine line rest handled = .reading buffer handled')
    (hhandled : handled = nonempty lines) :
    (∃ lines', rest.foldl splitStep (lines, line) = (lines', buffer) ∧ handled' = nonempty lines') ∧
      ('\n' ∈ rest → byteLength buffer ≤ maxMessageBytes) := by
  induction rest generalizing line handled lines with
  | nil =>
    cases h
    exact ⟨⟨lines, rfl, hhandled⟩, fun h => absurd h List.not_mem_nil⟩
  | cons c rest ih =>
    by_cases newline : c = '\n'
    · subst newline
      rcases drain_newline h hhandled with ⟨-, stopped⟩ | ⟨-, stopped | stopped | ⟨fits, next⟩⟩
      · cases stopped
      · cases stopped
      · cases stopped
      · obtain ⟨account, short⟩ := ih next rfl
        refine ⟨by simpa [splitStep] using account, fun _ => ?_⟩
        by_cases more : '\n' ∈ rest
        · exact short more
        · rw [drain_of_no_newline more] at next
          cases next
          exact fits
    · rw [drain, if_pos newline] at h
      obtain ⟨account, short⟩ := ih h hhandled
      refine ⟨by simpa [splitStep, newline] using account, fun more => short ?_⟩
      exact (List.mem_cons.mp more).resolve_left (Ne.symm newline)

/-! ## The whole input -/

/-- What holds of a server between two chunks, as long as every line ends in time: what it has received
is what it has handled and what it holds. -/
structure Server.Fits (received : Text) (s : Server) : Prop where
  buffered : byteLength s.buffer ≤ maxMessageBytes
  short : ∀ line ∈ s.handled, byteLength line ≤ maxMessageBytes
  account : s.reads → s.handled = nonempty (split received).1 ∧ s.buffer = (split received).2

theorem Server.Fits.sound (h : s.Fits received) : s.Sound received := by
  refine ⟨h.buffered, h.short, fun line hline long => ?_⟩
  by_contra reads
  obtain ⟨hhandled, hbuffer⟩ := h.account (by simpa using reads)
  rcases hline with complete | rfl
  · -- a line that is too long is not empty, so it was handled
    have nonzero : stripReturn line ≠ [] := by
      intro empty
      rw [empty] at long
      cases long
    have mem : stripReturn line ∈ nonempty (split received).1 := by
      simpa [nonempty, nonzero] using ⟨line, complete, rfl⟩
    exact absurd (h.short _ (hhandled ▸ mem)) (Nat.not_le_of_lt long)
  · have := byteLength_stripReturn (split received).2
    rw [← hbuffer] at this long
    exact absurd (Nat.le_trans this h.buffered) (Nat.not_le_of_lt long)

theorem Server.Fits.finish (h : s.Fits received) : (s.finish processLine).Sound received := by
  cases s with
  | returned | thrown => exact h.sound
  | reading buffer handled =>
    have handed : ∀ line ∈ handled ++ [buffer], byteLength line ≤ maxMessageBytes :=
      List.forall_mem_append.mpr ⟨h.short, List.forall_mem_singleton.mpr h.buffered⟩
    rw [Server.finish]
    split
    · exact ⟨Nat.zero_le _, h.short, fun _ _ _ => rfl⟩
    · split
      · exact ⟨Nat.zero_le _, h.short, fun _ _ _ => rfl⟩
      · split <;> exact ⟨Nat.zero_le _, handed, fun _ _ _ => rfl⟩

theorem Server.Fits.clean (h : (Server.reading buffer handled).Fits received) : '\n' ∉ buffer := by
  have account : buffer = (split received).2 := (h.account rfl).2
  rw [account]
  exact foldl_splitStep_awaited List.not_mem_nil

theorem Server.Fits.receive (h : (Server.reading buffer handled).Fits received) {chunk : List UInt8}
    (ends : '\n' ∉ toString chunk → byteLength (buffer ++ toString chunk) ≤ maxMessageBytes) :
    ((Server.reading buffer handled).receive toString processLine chunk).Fits (received ++ toString chunk) := by
  obtain ⟨hhandled, hbuffer⟩ := h.account rfl
  simp only [Server.handled, Server.buffer] at hhandled hbuffer
  have short : ∀ line ∈ (drain processLine [] (buffer ++ toString chunk) handled).handled,
      byteLength line ≤ maxMessageBytes := drain_short rfl hhandled h.short
  rw [Server.receive]
  cases next : drain processLine [] (buffer ++ toString chunk) handled with
  | returned _ | thrown _ =>
    rw [next] at short
    exact ⟨Nat.zero_le _, short, fun reads => by cases reads⟩
  | reading buffer' handled' =>
    rw [next] at short
    obtain ⟨⟨lines, hlines, rfl⟩, fits⟩ := drain_reading next hhandled
    refine ⟨?_, short, fun _ => ?_⟩
    · by_cases newline : '\n' ∈ toString chunk
      · exact fits (List.mem_append_right _ newline)
      · rw [drain_of_no_newline (by simp [h.clean, newline])] at next
        cases next
        exact ends newline
    · have before : split received = buffer.foldl splitStep ((split received).1, []) := by
        rw [foldl_splitStep_clean h.clean, List.nil_append, hbuffer]
      rw [split_append, before, ← List.foldl_append, hlines]
      exact ⟨rfl, rfl⟩

theorem Server.Fits.stopped (h : s.Fits received) (stopped : s.reads = false) (more : Text) :
    s.Fits (received ++ more) :=
  ⟨h.buffered, h.short, fun reads => by rw [stopped] at reads; cases reads⟩

theorem linesEnd_of_stopped (stopped : s.reads = false) : LinesEnd toString processLine s chunks := by
  cases s with
  | reading => cases stopped
  | returned | thrown => cases chunks <;> trivial

theorem Bounded.sound (h : Bounded toString processLine c received s chunks) : s.Sound received := by
  cases chunks with
  | nil => exact h.1
  | cons => exact h.1

theorem bounded_iff_of_fits (small : ∀ chunk ∈ chunks, byteLength (toString chunk) ≤ c)
    (fits : s.Fits received) : Bounded toString processLine c received s chunks ↔
      LinesEnd toString processLine s chunks := by
  induction chunks generalizing s received with
  | nil => cases s <;> simp [Bounded, LinesEnd, fits.sound, fits.finish]
  | cons chunk chunks ih =>
    rw [List.forall_mem_cons] at small
    have held : byteLength (s.buffer ++ toString chunk) ≤ maxMessageBytes + c := by
      rw [byteLength_append]
      exact Nat.add_le_add fits.buffered small.1
    simp only [Bounded, fits.sound, held, implies_true, true_and]
    cases s with
    | returned | thrown =>
      rw [Server.receive, ih small.2 (fits.stopped rfl _)]
      · exact iff_of_true (linesEnd_of_stopped rfl) (linesEnd_of_stopped rfl)
      · exact fun _ _ h => by cases h
    | reading buffer handled =>
      simp only [LinesEnd]
      constructor
      · intro bounded
        have ends : '\n' ∉ toString chunk → byteLength (buffer ++ toString chunk) ≤ maxMessageBytes := by
          intro none
          have buffered := bounded.sound.buffered
          rwa [Server.receive, drain_of_no_newline (by simp [fits.clean, none])] at buffered
        exact ⟨ends, (ih small.2 (fits.receive ends)).mp bounded⟩
      · rintro ⟨ends, rest⟩
        exact (ih small.2 (fits.receive ends)).mpr rest

/-- **The buffer is bounded, and an over-long line is rejected as soon as that much of it has come,
exactly if every line ends in time**, as long as no chunk is longer as text than it was as bytes. -/
theorem bounded_iff (small : ∀ chunk ∈ chunks, chunk.length ≤ c)
    (decodes : ∀ chunk ∈ chunks, byteLength (toString chunk) ≤ chunk.length) :
    Bounded toString processLine c [] (.reading [] []) chunks ↔
      LinesEnd toString processLine (.reading [] []) chunks :=
  bounded_iff_of_fits (fun chunk h => Nat.le_trans (decodes chunk h) (small chunk h))
    ⟨Nat.zero_le _, fun _ h => absurd h List.not_mem_nil, fun _ => ⟨rfl, rfl⟩⟩

end

def ascii (bytes : List UInt8) : Text := bytes.map fun byte => Char.ofNat byte.toNat

/-- A line that comes in two chunks, and the beginning of another. -/
theorem newline_bounds_buffer :
    Bounded ascii (fun _ => .done) 3 [] (.reading [] []) [[97, 98], [99, 10, 100], [101]] := by
  refine (bounded_iff (by decide) (by decide)).mpr ?_
  have size : ∀ n ∈ [97, 98, 99, 100, 101], (Char.ofNat n).utf8Size = 1 := by decide
  simp [LinesEnd, ascii, Server.receive, drain, stripReturn, byteLength, maxMessageBytes, size]

theorem byteLength_letters (n : Nat) : byteLength (List.replicate n 'a') = n := by
  induction n with
  | zero => rfl
  | succ n ih =>
    rw [List.replicate_succ, byteLength, ih, Nat.add_comm]
    rfl

theorem letters_buffered {n c : Nat} {chunks : List (List UInt8)}
    (bounded : Bounded ascii (fun _ => .done) c [] (.reading [] []) (List.replicate n 97 :: chunks)) :
    n ≤ maxMessageBytes := by
  have rest := bounded.2.2.sound.buffered
  rw [Server.receive, drain_of_no_newline (by simp [ascii])] at rest
  simpa [ascii, show Char.ofNat 97 = 'a' from rfl, byteLength_letters, Server.buffer] using rest

/-- Two chunks of letters are buffered. -/
theorem letters_fill_buffer :
    ¬ Bounded ascii (fun _ => .done) (maxMessageBytes + 1) [] (.reading [] [])
      (List.replicate 2 (List.replicate (maxMessageBytes + 1) 97)) :=
  fun bounded => Nat.not_succ_le_self _ (letters_buffered bounded)

end AudioDown.Sdk
