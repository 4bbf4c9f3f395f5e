/-
# AudioDown.Supervisor.Authenticator — a request is accepted once

`Authenticator::validate` checks the token and the nonce, reads the wall clock and compares it with the
request's timestamp, then takes the mutex, forgets the nonces that are older than the retention by the
monotonic clock, and remembers the new one.  Connections are served by their own tasks, so calls overlap, and
time passes between any two steps of a call.

A replay is refused because the nonce outlives the window in which its timestamp is fresh.  The window is
61 s long on a clock that is read in whole seconds, and the retention 120 s, so this holds for calls that
answer within 59 s of their clock reading (`accepted_once`), and fails for slower ones
(`replay_after_stall`).  The comparison itself wraps around: a timestamp `2 ^ 63` below the clock counts as
fresh (`timed_within_skew_iff`, `overflow_passes`).
-/
import AudioDown.Lib.Pool
import Mathlib.Algebra.Order.Ring.Int

namespace AudioDown.Supervisor.Auth

open Lib

/-! ## The calls -/

def maxClockSkewSeconds : Int := 30

def second : Nat := 1000000000

def nonceRetention : Nat := 120 * second

/-- What `validate` reads of a request.  The timestamp is an `i64`. -/
structure SupervisorRequest where
  token : String
  timestamp : Int
  nonce : String
  fits : -2 ^ 63 ≤ timestamp ∧ timestamp < 2 ^ 63

inductive AuthError where
  | invalidToken
  | staleTimestamp
  | invalidNonce
  | duplicateNonce
deriving DecidableEq

/-- The wall clock, since the Unix epoch, and the monotonic clock. -/
structure Clocks where
  wall : Nat
  mono : Nat
deriving DecidableEq

/-- `Utc::now().timestamp()`. -/
def Clocks.timestamp (clocks : Clocks) : Int := (clocks.wall / second : Nat)

/-- The value that `i64` arithmetic gives for an exact one. -/
def wrap64 (n : Int) : Int := n.bmod (2 ^ 64)

/-- `(now - request.timestamp).abs() > MAX_CLOCK_SKEW_SECONDS`. -/
def stale (now timestamp : Int) : Bool :=
  decide (maxClockSkewSeconds < wrap64 (wrap64 (now - timestamp)).natAbs)

/-- An entry of the map of nonces: the nonce and the instant of its insertion. -/
abbrev Entry := String × Nat

/-- How far a call is. -/
inductive Phase where
  | received
  /-- The wall clock was read and the timestamp is fresh. -/
  | timed
  /-- The mutex is held: the entries `retain` has kept, and those it has still to look at. -/
  | retaining (kept rest : List Entry)
  | answered (result : Except AuthError Unit)

/-- A call of `validate`, with the instant at which it read the wall clock. -/
structure Call where
  request : SupervisorRequest
  reading : Option Clocks
  phase : Phase

structure State where
  clocks : Clocks
  nonces : List Entry
  locked : Bool
  calls : List Call

def State.put (s : State) (i : Nat) (call : Call) : State := { s with calls := s.calls.set i call }

/-- The checks before the mutex.  The wall clock is read after the first two. -/
def Call.check (token : String) (clocks : Clocks) (call : Call) : Call :=
  if call.request.token ≠ token then
    { call with phase := .answered (.error .invalidToken) }
  else if call.request.nonce.isEmpty then
    { call with phase := .answered (.error .invalidNonce) }
  else if stale clocks.timestamp call.request.timestamp then
    { call with reading := some clocks, phase := .answered (.error .staleTimestamp) }
  else
    { call with reading := some clocks, phase := .timed }

/-- `inserted_at.elapsed() < NONCE_RETENTION`. -/
def retains (mono : Nat) (entry : Entry) : Bool := decide (mono - entry.2 < nonceRetention)

/-- The next step of call `i`. -/
def State.advance (token : String) (s : State) (i : Nat) (call : Call) : Option State :=
  match call.phase with
  | .received => some (s.put i (call.check token s.clocks))
  | .timed =>
    if s.locked then none
    else some ({ s with locked := true }.put i { call with phase := .retaining [] s.nonces })
  | .retaining kept (entry :: rest) =>
    -- `retain` reads the clock anew for each entry
    let kept := if retains s.clocks.mono entry then kept ++ [entry] else kept
    some (s.put i { call with phase := .retaining kept rest })
  | .retaining kept [] =>
    if kept.any (·.1 == call.request.nonce) then
      some ({ s with nonces := kept, locked := false }.put i
        { call with phase := .answered (.error .duplicateNonce) })
    else
      some ({ s with nonces := kept ++ [(call.request.nonce, s.clocks.mono)], locked := false }.put i
        { call with phase := .answered (.ok ()) })
  | .answered _ => none

inductive Label where
  /-- Both clocks advance. -/
  | tick (duration : Nat)
  | receive (request : SupervisorRequest)
  | run (i : Nat)

def step (token : String) (s : State) : Label → Option State
  | .tick d => some { s with clocks := ⟨s.clocks.wall + d, s.clocks.mono + d⟩ }
  | .receive request => some { s with calls := s.calls ++ [⟨request, none, .received⟩] }
  | .run i => s.calls[i]?.bind (s.advance token i)

/-- `Authenticator::new`, at any time. -/
def start (clocks : Clocks) : State := ⟨clocks, [], false, []⟩

def Call.Accepted (call : Call) : Prop := call.phase = .answered (.ok ())

/-! ## Conditions on a step -/

/-- The subtraction of the timestamp from the clock does not overflow. -/
def Exact (s : State) : Label → Prop
  | .run i => ∀ call, s.calls[i]? = some call → call.phase = .received →
      s.clocks.timestamp - call.request.timestamp < 2 ^ 63
  | _ => True

/-- A call that is about to answer under the mutex read the wall clock at most 59 s ago. -/
def Prompt (s : State) : Label → Prop
  | .run i => ∀ call kept reading, s.calls[i]? = some call → call.phase = .retaining kept [] →
      call.reading = some reading → s.clocks.mono ≤ reading.mono + 59 * second
  | _ => True

/-! ## What the checks establish -/

variable {now timestamp : Int}

theorem stale_exact (low : -2 ^ 63 < now - timestamp) (high : now - timestamp < 2 ^ 63) :
    stale now timestamp = decide (30 < (now - timestamp).natAbs) := by
  have inner : wrap64 (now - timestamp) = now - timestamp :=
    Int.bmod_eq_of_le (by omega) (by omega)
  have outer : wrap64 (now - timestamp).natAbs = (now - timestamp).natAbs :=
    Int.bmod_eq_of_le (by omega) (by omega)
  rw [stale, inner, outer, maxClockSkewSeconds]
  exact decide_eq_decide.mpr (by omega)

theorem stale_wrapped (low : 2 ^ 63 < now - timestamp) (high : now - timestamp < 2 ^ 64) :
    stale now timestamp = decide (30 < 2 ^ 64 - (now - timestamp)) := by
  have inner : wrap64 (now - timestamp) = now - timestamp - 2 ^ 64 := by
    rw [wrap64, ← Int.sub_bmod_right]
    exact Int.bmod_eq_of_le (by omega) (by omega)
  have outer : wrap64 (now - timestamp - 2 ^ 64).natAbs = (now - timestamp - 2 ^ 64).natAbs :=
    Int.bmod_eq_of_le (by omega) (by omega)
  rw [stale, inner, outer, maxClockSkewSeconds]
  exact decide_eq_decide.mpr (by omega)

theorem fresh_of_not_stale (hnow : 0 ≤ now) (hfits : timestamp < 2 ^ 63)
    (exact : now - timestamp < 2 ^ 63) (h : stale now timestamp = false) : (now - timestamp).natAbs ≤ 30 := by
  rw [stale_exact (by omega) exact, decide_eq_false_iff_not] at h
  omega

/-- What gets past the check: the timestamps it means to let through, the one at distance `2 ^ 63`, since
`i64::MIN` is its own absolute value, and those that are near after wrapping around. -/
theorem not_stale_iff (hnow : 0 ≤ now ∧ now < 2 ^ 63) (hfits : -2 ^ 63 ≤ timestamp ∧ timestamp < 2 ^ 63) :
    stale now timestamp = false ↔ (now - timestamp).natAbs ≤ 30 ∨ now - timestamp = 2 ^ 63 ∨
      2 ^ 64 - 30 ≤ now - timestamp := by
  obtain below | least | above := lt_trichotomy (now - timestamp) (2 ^ 63)
  · rw [stale_exact (by omega) below, decide_eq_false_iff_not]
    omega
  · have passes : stale now timestamp = false := by
      rw [stale, least]
      decide
    exact iff_of_true passes (.inr (.inl least))
  · rw [stale_wrapped above (by omega), decide_eq_false_iff_not]
    omega

/-- A call that gets past the checks is meant to be within 30 s of the clock.  It is unless the difference
overflows in one of two ways. -/
theorem timed_within_skew_iff {token : String} {clocks : Clocks} {call : Call}
    (hclock : clocks.timestamp < 2 ^ 63) : ((call.check token clocks).phase = .timed →
        (clocks.timestamp - call.request.timestamp).natAbs ≤ 30) ↔
      (call.request.token = token → call.request.nonce.isEmpty = false →
        clocks.timestamp - call.request.timestamp ≠ 2 ^ 63 ∧
          clocks.timestamp - call.request.timestamp < 2 ^ 64 - 30) := by
  have hnow : 0 ≤ clocks.timestamp := Int.natCast_nonneg _
  have passes := not_stale_iff ⟨hnow, hclock⟩ call.request.fits
  unfold Call.check
  split_ifs with htoken hnonce hstale
  · exact iff_of_true nofun fun h => absurd h htoken
  · exact iff_of_true nofun fun _ h => absurd (hnonce.symm.trans h) (by decide)
  · refine iff_of_true nofun fun _ _ => ⟨fun least => ?_, Int.lt_of_not_ge fun wrapped => ?_⟩
    · exact absurd (hstale.symm.trans (passes.mpr (.inr (.inl least)))) (by decide)
    · exact absurd (hstale.symm.trans (passes.mpr (.inr (.inr wrapped)))) (by decide)
  · constructor
    · intro h _ _
      have near := h rfl
      omega
    · intro h _
      obtain ⟨least, wrapped⟩ := h (not_not.mp htoken) (Bool.not_eq_true _ ▸ hnonce)
      have := passes.mp (Bool.not_eq_true _ ▸ hstale)
      omega

def sampleCall (timestamp : Int) (fits : -2 ^ 63 ≤ timestamp ∧ timestamp < 2 ^ 63) : Call :=
  ⟨⟨"secret", timestamp, "nonce", fits⟩, none, .received⟩

/-- A timestamp at the distance `2 ^ 63` is taken for fresh; so is the least one if the clock shows the
greatest. -/
theorem overflow_passes : ∃ fits, ((sampleCall (-2 ^ 63) fits).check "secret" ⟨0, 0⟩).phase = .timed ∧
      ((sampleCall (-2 ^ 63) fits).check "secret" ⟨(2 ^ 63 - 1) * second, 0⟩).phase = .timed := by
  refine ⟨by decide, ?_, ?_⟩
  · rfl
  · rfl

/-- Ten seconds after the timestamp. -/
theorem timed_within_skew_sample : ∃ fits,
    ((sampleCall 0 fits).check "secret" ⟨10 * second, 0⟩).phase = .timed ∧
      (Clocks.timestamp ⟨10 * second, 0⟩ - (sampleCall 0 fits).request.timestamp).natAbs ≤ 30 := by
  have timed : ∀ fits, ((sampleCall 0 fits).check "secret" ⟨10 * second, 0⟩).phase = .timed := by
    intro fits
    have fresh : stale (Clocks.timestamp ⟨10 * second, 0⟩) 0 = false := by decide
    simp [Call.check, sampleCall, fresh]
  have fits : (-2 ^ 63 : Int) ≤ 0 ∧ (0 : Int) < 2 ^ 63 := by decide
  refine ⟨fits, timed fits, (timed_within_skew_iff ?_).mpr (fun _ _ => ?_) (timed fits)⟩
  · decide
  · show (10 - 0 : Int) ≠ 2 ^ 63 ∧ (10 - 0 : Int) < 2 ^ 64 - 30
    decide

/-- What a call knows once its timestamp was found fresh: `reading` is its reading of the clocks, which run
in step since `origin`. -/
structure Call.Fresh (token : String) (origin now : Clocks) (call : Call) (reading : Clocks) : Prop where
  read : call.reading = some reading
  token : call.request.token = token
  nonce : call.request.nonce ≠ ""
  window : (reading.timestamp - call.request.timestamp).natAbs ≤ 30
  inStep : reading.wall + origin.mono = reading.mono + origin.wall
  past : reading.mono ≤ now.mono

variable {token : String} {origin : Clocks}

variable {call : Call} {i j : Nat} {kept rest : List Entry} {reading : Clocks}

theorem Call.Fresh.later {now now' : Clocks}
    (h : call.Fresh token origin now reading) (hle : now.mono ≤ now'.mono) :
    call.Fresh token origin now' reading :=
  { h with past := Nat.le_trans h.past hle }

theorem Call.Fresh.moveTo {now : Clocks} (h : call.Fresh token origin now reading) (phase : Phase) :
    { call with phase := phase }.Fresh token origin now reading :=
  ⟨h.read, h.token, h.nonce, h.window, h.inStep, h.past⟩

theorem Call.Fresh.close {now : Clocks} {a b : Call} {ra rb : Clocks}
    (ha : a.Fresh token origin now ra) (hb : b.Fresh token origin now rb)
    (same : a.request.timestamp = b.request.timestamp) : rb.mono < ra.mono + 61 * second := by
  have wa := ha.window
  have wb := hb.window
  have ia := ha.inStep
  have ib := hb.inStep
  rw [same] at wa
  simp only [Clocks.timestamp, second] at wa wb ⊢
  omega

/-! ## The invariant -/

/-- The timestamp was found fresh, and no error was answered since. -/
def Phase.passed : Phase → Bool
  | .timed => true
  | .retaining _ _ => true
  | .answered (.ok ()) => true
  | _ => false

/-- By now `retain` drops the entry. -/
def State.Outlived (s : State) (entry : Entry) : Prop := entry.2 + nonceRetention ≤ s.clocks.mono

/-- What holds of each call.  While one holds the mutex, an entry that it has neither kept nor still to look at
is too old; the nonce of an accepted one is there unless it is too old. -/
structure Call.Good (token : String) (origin : Clocks) (s : State) (call : Call) : Prop where
  fresh : call.phase.passed = true → ∃ reading, call.Fresh token origin s.clocks reading
  holds : ∀ kept rest, call.phase = .retaining kept rest →
    s.locked = true ∧ ∀ e ∈ s.nonces, e ∈ kept ∨ e ∈ rest ∨ s.Outlived e
  remembered : call.Accepted → ∃ at_, (∀ reading, call.reading = some reading → reading.mono ≤ at_) ∧
    ((call.request.nonce, at_) ∈ s.nonces ∨ s.Outlived (call.request.nonce, at_))

structure Good (token : String) (origin : Clocks) (s : State) : Prop where
  inStep : s.clocks.wall + origin.mono = s.clocks.mono + origin.wall
  each : ∀ (i : Nat) call, s.calls[i]? = some call → call.Good token origin s
  single : ∀ (i j : Nat) a b ka ra kb rb, s.calls[i]? = some a → s.calls[j]? = some b →
    a.phase = .retaining ka ra → b.phase = .retaining kb rb → i = j
  once : ∀ (i j : Nat) a b, s.calls[i]? = some a → s.calls[j]? = some b → a.Accepted → b.Accepted →
    a.request.nonce = b.request.nonce → a.request.timestamp = b.request.timestamp → i = j

theorem good_start (origin : Clocks) : Good token origin (start origin) where
  inStep := Nat.add_comm _ _
  each _ _ h := by simp [start] at h
  single _ _ _ _ _ _ _ _ h := by simp [start] at h
  once _ _ _ _ h := by simp [start] at h

variable {s t : State}

/-- A call that does not move keeps what it knows: nobody takes the mutex from it, and entries leave the map
only when they are too old. -/
theorem Call.Good.undisturbed (h : call.Good token origin s) (later : s.clocks.mono ≤ t.clocks.mono)
    (entries : ∀ e ∈ s.nonces, e ∈ t.nonces ∨ t.Outlived e)
    (mutex : ∀ kept rest, call.phase = .retaining kept rest → t.locked = s.locked ∧ t.nonces = s.nonces) :
    call.Good token origin t where
  fresh hp := by
    obtain ⟨reading, hr⟩ := h.fresh hp
    exact ⟨reading, hr.later later⟩
  holds kept rest hp := by
    obtain ⟨hlocked, hnonces⟩ := mutex kept rest hp
    obtain ⟨held, covered⟩ := h.holds kept rest hp
    refine ⟨hlocked.trans held, ?_⟩
    rw [hnonces]
    intro e he
    refine (covered e he).imp_right (Or.imp_right ?_)
    exact fun old => old.trans later
  remembered ha := by
    obtain ⟨at_, hat, there | old⟩ := h.remembered ha
    · exact ⟨at_, hat, entries _ there⟩
    · exact ⟨at_, hat, .inr (old.trans later)⟩

theorem getElem?_put {moved : Call} (h : (s.put i moved).calls[j]? = some call) :
    (j = i ∧ call = moved) ∨ (j ≠ i ∧ s.calls[j]? = some call) := by
  rw [State.put, List.getElem?_set] at h
  split at h
  · rename_i hij
    split at h
    · exact .inl ⟨hij.symm, (Option.some.inj h).symm⟩
    · cases h
  · rename_i hij
    exact .inr ⟨fun h' => hij h'.symm, h⟩

theorem Good.moved {moved : Call} (h : Good token origin s) (clocks : t.clocks = s.clocks)
    (calls : t.calls = s.calls) (entries : ∀ e ∈ s.nonces, e ∈ t.nonces ∨ t.Outlived e)
    (mutex : ∀ j call kept rest, j ≠ i → s.calls[j]? = some call → call.phase = .retaining kept rest →
      t.locked = s.locked ∧ t.nonces = s.nonces ∧ ∀ kept rest, moved.phase ≠ .retaining kept rest)
    (own : moved.Good token origin t)
    (first : moved.Accepted → ∀ (j : Nat) call, j ≠ i → s.calls[j]? = some call → call.Accepted →
      call.request.nonce = moved.request.nonce → call.request.timestamp ≠ moved.request.timestamp) :
    Good token origin (t.put i moved) := by
  have back : ∀ (j : Nat) call, (t.put i moved).calls[j]? = some call →
      (j = i ∧ call = moved) ∨ (j ≠ i ∧ s.calls[j]? = some call) := by
    intro j call hj
    rw [← calls]
    exact getElem?_put hj
  refine ⟨by simpa only [State.put, clocks] using h.inStep, ?_, ?_, ?_⟩
  · intro j call hj
    obtain ⟨-, rfl⟩ | ⟨hne, hj⟩ := back j call hj
    · exact ⟨own.fresh, own.holds, own.remembered⟩
    · have good : call.Good token origin t := by
        apply (h.each j call hj).undisturbed (Nat.le_of_eq (by rw [clocks])) entries
        intro kept rest hp
        obtain ⟨hl, hn, -⟩ := mutex j call kept rest hne hj hp
        exact ⟨hl, hn⟩
      exact ⟨good.fresh, good.holds, good.remembered⟩
  · intro j k a b ka ra kb rb hj hk pa pb
    obtain ⟨rfl, rfl⟩ | ⟨jne, jcall⟩ := back j a hj
    · obtain ⟨rfl, -⟩ | ⟨kne, kcall⟩ := back k b hk
      · rfl
      · exact absurd pa ((mutex k b kb rb kne kcall pb).2.2 ka ra)
    · obtain ⟨rfl, rfl⟩ | ⟨-, kcall⟩ := back k b hk
      · exact absurd pb ((mutex j a ka ra jne jcall pa).2.2 kb rb)
      · exact h.single j k a b ka ra kb rb jcall kcall pa pb
  · intro j k a b hj hk aa ab nonce time
    obtain ⟨rfl, rfl⟩ | ⟨jne, jcall⟩ := back j a hj
    · obtain ⟨rfl, -⟩ | ⟨kne, kcall⟩ := back k b hk
      · rfl
      · exact absurd time.symm (first aa k b kne kcall ab nonce.symm)
    · obtain ⟨rfl, rfl⟩ | ⟨-, kcall⟩ := back k b hk
      · exact absurd time (first ab j a jne jcall aa nonce)
      · exact h.once j k a b jcall kcall aa ab nonce time

/-! ## One step -/

theorem Good.tick (h : Good token origin s) (d : Nat) :
    Good token origin { s with clocks := ⟨s.clocks.wall + d, s.clocks.mono + d⟩ } where
  inStep := by
    have := h.inStep
    show s.clocks.wall + d + origin.mono = s.clocks.mono + d + origin.wall
    omega
  each i call hi :=
    (h.each i call hi).undisturbed (Nat.le_add_right _ _) (fun _ he => .inl he) fun _ _ _ => ⟨rfl, rfl⟩
  single := h.single
  once := h.once

theorem Good.receive (h : Good token origin s) (request : SupervisorRequest) :
    Good token origin { s with calls := s.calls ++ [⟨request, none, .received⟩] } := by
  -- the new call has not passed anything yet
  have back : ∀ (i : Nat) (call : Call), (s.calls ++ [⟨request, none, .received⟩])[i]? = some call →
      s.calls[i]? = some call ∨ call = ⟨request, none, .received⟩ := by
    intro i call hi
    rw [List.getElem?_append] at hi
    split at hi
    · exact .inl hi
    · exact .inr (List.mem_singleton.mp (List.mem_of_getElem? hi))
  refine ⟨h.inStep, ?_, ?_, ?_⟩
  · intro i call hi
    obtain old | rfl := back i call hi
    · have good := h.each i call old
      exact ⟨good.fresh, good.holds, good.remembered⟩
    · exact ⟨nofun, nofun, nofun⟩
  · intro i j a b ka ra kb rb hi hj pa pb
    obtain old | rfl := back i a hi
    · obtain old' | rfl := back j b hj
      · exact h.single i j a b ka ra kb rb old old' pa pb
      · cases pb
    · cases pa
  · intro i j a b hi hj aa ab
    obtain old | rfl := back i a hi
    · obtain old' | rfl := back j b hj
      · exact h.once i j a b old old' aa ab
      · cases ab
    · cases aa

theorem check_good (token : String) (inStep : s.clocks.wall + origin.mono = s.clocks.mono + origin.wall)
    (exact : s.clocks.timestamp - call.request.timestamp < 2 ^ 63) :
    (call.check token s.clocks).Good token origin s ∧ ¬ (call.check token s.clocks).Accepted ∧
      ∀ kept rest, (call.check token s.clocks).phase ≠ .retaining kept rest := by
  unfold Call.check
  split
  · exact ⟨⟨nofun, nofun, nofun⟩, nofun, nofun⟩
  · rename_i htoken
    split
    · exact ⟨⟨nofun, nofun, nofun⟩, nofun, nofun⟩
    · rename_i hnonce
      split
      · exact ⟨⟨nofun, nofun, nofun⟩, nofun, nofun⟩
      · rename_i hstale
        refine ⟨⟨fun _ => ⟨s.clocks, ?_⟩, nofun, nofun⟩, nofun, nofun⟩
        have window := fresh_of_not_stale (Int.natCast_nonneg _) call.request.fits.2 exact
          (Bool.not_eq_true _ ▸ hstale)
        refine ⟨rfl, not_not.mp htoken, ?_, window, inStep, Nat.le_refl _⟩
        intro hempty
        exact hnonce (by rw [show call.request.nonce = "" from hempty]; rfl)

theorem retain_covers {entry e : Entry} (h : e ∈ kept ∨ e ∈ entry :: rest ∨ s.Outlived e) :
    e ∈ (if retains s.clocks.mono entry then kept ++ [entry] else kept) ∨ e ∈ rest ∨ s.Outlived e := by
  obtain hk | hr | old := h
  · left
    split
    · exact List.mem_append_left _ hk
    · exact hk
  · obtain rfl | hr := List.mem_cons.mp hr
    · split
      · exact .inl (List.mem_append_right _ (List.mem_singleton_self _))
      · rename_i hdrop
        rw [retains, decide_eq_true_eq] at hdrop
        right; right
        show e.2 + nonceRetention ≤ s.clocks.mono
        have : 0 < nonceRetention := by decide
        omega
    · exact .inr (.inl hr)
  · exact .inr (.inr old)

theorem Good.alone (h : Good token origin s) (hi : s.calls[i]? = some call)
    (hp : call.phase = .retaining kept rest) {P : Prop} :
    ∀ (j : Nat) other k r, j ≠ i → s.calls[j]? = some other → other.phase = .retaining k r → P :=
  fun j other k r hne hj hpj => absurd (h.single j i other call k r kept rest hj hi hpj hp) hne

/-- The heart of the matter: a prompt call that does not find its nonce is the first with its nonce and
timestamp.  An earlier one was inserted less than 61 s before this call's clock reading, which is at most 59 s
ago, so its entry is not yet too old. -/
theorem Good.first {earlier : Call} (h : Good token origin s) (hi : s.calls[i]? = some call)
    (hp : call.phase = .retaining kept []) (hr : call.Fresh token origin s.clocks reading)
    (prompt : s.clocks.mono ≤ reading.mono + 59 * second)
    (absent : ∀ e ∈ kept, e.1 ≠ call.request.nonce) (hj : s.calls[j]? = some earlier)
    (accepted : earlier.Accepted) (nonce : earlier.request.nonce = call.request.nonce) :
    earlier.request.timestamp ≠ call.request.timestamp := by
  intro time
  have good := h.each j earlier hj
  obtain ⟨before, hbefore⟩ := good.fresh (by rw [show earlier.phase = _ from accepted]; rfl)
  obtain ⟨at_, hat, remembered⟩ := good.remembered accepted
  have old : s.Outlived (earlier.request.nonce, at_) := by
    obtain there | old := remembered
    · obtain hk | hrest | old := ((h.each i call hi).holds kept [] hp).2 _ there
      · exact absurd nonce (absent _ hk)
      · cases hrest
      · exact old
    · exact old
  have close := hbefore.close hr time
  have inserted := hat before hbefore.read
  simp only [State.Outlived, nonceRetention] at old
  omega

theorem Good.answer {i : Nat} {call : Call} {kept : List Entry} (h : Good token origin s)
    (hi : s.calls[i]? = some call) (hp : call.phase = .retaining kept [])
    (prompt : ∀ reading, call.reading = some reading → s.clocks.mono ≤ reading.mono + 59 * second)
    (ht : s.advance token i call = some t) : Good token origin t := by
  have good := h.each i call hi
  obtain ⟨reading, hr⟩ := good.fresh (by rw [hp]; rfl)
  have covered := (good.holds kept [] hp).2
  have entries : ∀ e ∈ s.nonces, e ∈ kept ∨ s.Outlived e := by
    intro e he
    obtain hk | hrest | old := covered e he
    · exact .inl hk
    · cases hrest
    · exact .inr old
  simp only [State.advance, hp] at ht
  split at ht
  · cases ht
    exact h.moved rfl rfl entries (h.alone hi hp) ⟨nofun, nofun, nofun⟩ nofun
  · rename_i hany
    have absent : ∀ e ∈ kept, e.1 ≠ call.request.nonce := by
      intro e he heq
      exact hany (List.any_eq_true.mpr ⟨e, he, beq_iff_eq.mpr heq⟩)
    cases ht
    refine h.moved rfl rfl ?_ (h.alone hi hp) ⟨?_, nofun, ?_⟩ ?_
    · intro e he
      exact (entries e he).imp_left (List.mem_append_left _)
    · exact fun _ => ⟨reading, hr.moveTo _⟩
    · refine fun _ => ⟨s.clocks.mono, ?_, .inl (List.mem_append_right _ (List.mem_singleton_self _))⟩
      intro reading' hr'
      obtain rfl : reading = reading' := Option.some.inj (hr.read.symm.trans hr')
      exact hr.past
    · intro _ j earlier _ hj accepted nonce
      have new := h.first hi hp hr (prompt reading hr.read) absent hj accepted nonce
      exact new

theorem Good.advance {i : Nat} {call : Call} (h : Good token origin s)
    (hi : s.calls[i]? = some call) (exact : Exact s (.run i)) (prompt : Prompt s (.run i))
    (ht : s.advance token i call = some t) : Good token origin t := by
  have good := h.each i call hi
  cases hp : call.phase with
  | received =>
    simp only [State.advance, hp, Option.some.injEq] at ht
    subst ht
    obtain ⟨own, rejected, outside⟩ := check_good token h.inStep (exact call hi hp)
    exact h.moved rfl rfl (fun _ he => .inl he) (fun _ _ _ _ _ _ _ => ⟨rfl, rfl, outside⟩) own
      fun accepted => absurd accepted rejected
  | timed =>
    simp only [State.advance, hp] at ht
    split at ht
    · cases ht
    · rename_i hfree
      cases ht
      refine h.moved rfl rfl (fun _ he => .inl he) ?_ ⟨?_, ?_, nofun⟩ nofun
      · -- whoever is in `retain` holds the mutex
        intro j other kept rest _ hj hpj
        exact absurd ((h.each j other hj).holds kept rest hpj).1 hfree
      · intro _
        obtain ⟨reading, hr⟩ := good.fresh (by rw [hp]; rfl)
        exact ⟨reading, hr.moveTo _⟩
      · intro kept rest hphase
        cases hphase
        exact ⟨rfl, fun e he => .inr (.inl he)⟩
  | retaining kept rest =>
    cases rest with
    | nil => exact h.answer hi hp (fun reading => prompt call kept reading hi hp) ht
    | cons entry rest =>
      simp only [State.advance, hp, Option.some.injEq] at ht
      subst ht
      obtain ⟨held, covered⟩ := good.holds kept (entry :: rest) hp
      refine h.moved rfl rfl (fun _ he => .inl he) (h.alone hi hp) ⟨?_, ?_, nofun⟩ nofun
      · intro _
        obtain ⟨reading, hr⟩ := good.fresh (by rw [hp]; rfl)
        exact ⟨reading, hr.moveTo _⟩
      · intro kept' rest' hphase
        cases hphase
        exact ⟨held, fun e he => retain_covers (covered e he)⟩
  | answered result => simp [State.advance, hp] at ht

theorem Good.step {label : Label} (h : Good token origin s) (exact : Exact s label)
    (prompt : Prompt s label) (ht : step token s label = some t) : Good token origin t := by
  cases label with
  | tick d =>
    cases ht
    exact h.tick d
  | receive request =>
    cases ht
    exact h.receive request
  | run i =>
    obtain ⟨call, hi, hadvance⟩ := Option.bind_eq_some_iff.mp ht
    exact h.advance hi exact prompt hadvance

/-! ## Whole runs -/

/-- In a run of calls that answer within 59 s of their clock reading, no two accepted requests share nonce and
timestamp, and every accepted one carries the token, a nonce and a fresh timestamp. -/
theorem accepted_once {token : String} {clocks : Clocks} {labels : List Label} {s : State}
    (run : Run (step token) (fun s label => Exact s label ∧ Prompt s label) (start clocks) labels s) :
    (∀ (i j : Nat) a b, s.calls[i]? = some a → s.calls[j]? = some b → a.Accepted → b.Accepted →
      a.request.nonce = b.request.nonce → a.request.timestamp = b.request.timestamp → i = j) ∧
    ∀ call ∈ s.calls, call.Accepted → call.request.token = token ∧ call.request.nonce ≠ "" ∧
      ∃ reading, call.reading = some reading ∧ (reading.timestamp - call.request.timestamp).natAbs ≤ 30 := by
  have good : Good token clocks s :=
    run.invariant (fun _ _ _ h ok ht => h.step ok.1 ok.2 ht) (good_start clocks)
  refine ⟨good.once, ?_⟩
  intro call hmem accepted
  obtain ⟨i, hi⟩ := List.getElem?_of_mem hmem
  obtain ⟨reading, hr⟩ := (good.each i call hi).fresh (by rw [show call.phase = _ from accepted]; rfl)
  exact ⟨hr.token, hr.nonce, reading, hr.read, hr.window⟩

/-! ## Concrete runs -/

/-- A test sufficient for `Exact`, and with `prompt` for `Prompt`. -/
def admissible (prompt : Bool) (s : State) : Label → Bool
  | .run i =>
    match s.calls[i]? with
    | none => true
    | some call =>
      decide (s.clocks.timestamp - call.request.timestamp < 2 ^ 63) &&
        (!prompt || call.reading.all fun reading =>
          decide (s.clocks.mono ≤ reading.mono + 59 * second))
  | _ => true

theorem admissible_exact {prompt : Bool} (s : State) (label : Label)
    (h : admissible prompt s label = true) : Exact s label := by
  cases label with
  | run i =>
    intro call hi _
    simp only [admissible, hi, Bool.and_eq_true, decide_eq_true_eq] at h
    exact h.1
  | _ => trivial

theorem admissible_prompt (s : State) (label : Label) (h : admissible true s label = true) :
    Exact s label ∧ Prompt s label := by
  refine ⟨admissible_exact s label h, ?_⟩
  cases label with
  | run i =>
    intro call kept reading hi _ hr
    simp only [admissible, hi, hr, Bool.and_eq_true, decide_eq_true_eq, Bool.not_true,
      Bool.false_or, Option.all_some] at h
    exact h.2
  | _ => trivial

def sampleRequest : SupervisorRequest := ⟨"token", 1000, "nonce", by decide⟩

/-- One request twice, at the first and at the last instant at which its timestamp is fresh.  The second call
stalls after its clock reading. -/
def sentTwice (stall : Nat) : List Label :=
  [.receive sampleRequest, .run 0, .run 0, .run 0, .tick (61 * second - 1),
    .receive sampleRequest, .run 1, .tick stall, .run 1, .run 1, .run 1]

def State.results (s : State) : List (Option (Except AuthError Unit)) :=
  s.calls.map fun call =>
    match call.phase with
    | .answered result => some result
    | _ => none

/-- A prompt replay is refused, even at the last instant at which the timestamp is fresh. -/
theorem replay_refused : ∃ s, Run (step "token") (fun s label => Exact s label ∧ Prompt s label)
        (start ⟨970 * second, 5⟩) (sentTwice (59 * second)) s ∧
      s.results.map (·.map Except.toBool) = [some true, some false] ∧
      ∀ (i j : Nat) a b, s.calls[i]? = some a → s.calls[j]? = some b → a.Accepted → b.Accepted →
        a.request.nonce = b.request.nonce → a.request.timestamp = b.request.timestamp → i = j := by
  have h : ((sentTwice (59 * second)).foldlM
      (Run.checked (step "token") (admissible true)) (start ⟨970 * second, 5⟩)).map
        (fun s : State => s.results.map (·.map Except.toBool)) = some [some true, some false] := by
    decide +kernel
  obtain ⟨s, hs, hres⟩ := Option.map_eq_some_iff.mp h
  have run := Run.of_checked admissible_prompt hs
  exact ⟨s, run, hres, (accepted_once run).1⟩

/-- A call that stalls between its clock reading and the mutex for one nanosecond more than 59 s is accepted
with the nonce and timestamp of an earlier one. -/
theorem replay_after_stall : ∃ s, Run (step "token") Exact (start ⟨970 * second, 5⟩)
        (sentTwice (59 * second + 1)) s ∧ s.results.map (·.map Except.toBool) = [some true, some true] ∧
      s.calls.map (fun call => (call.request.nonce, call.request.timestamp)) =
        [("nonce", 1000), ("nonce", 1000)] := by
  have h : ((sentTwice (59 * second + 1)).foldlM
      (Run.checked (step "token") (admissible false)) (start ⟨970 * second, 5⟩)).map
        (fun s : State => (s.results.map (·.map Except.toBool),
          s.calls.map fun call => (call.request.nonce, call.request.timestamp))) =
      some ([some true, some true], [("nonce", 1000), ("nonce", 1000)]) := by
    decide +kernel
  obtain ⟨s, hs, hres⟩ := Option.map_eq_some_iff.mp h
  obtain ⟨results, requests⟩ := Prod.mk.inj hres
  exact ⟨s, Run.of_checked admissible_exact hs, results, requests⟩

end AudioDown.Supervisor.Auth
