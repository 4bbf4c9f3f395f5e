/-
# AudioDown.Lib.Base64 — URL-safe base64 without padding

Three bytes become four characters of six bits each; one or two bytes at the end become two or three
characters, whose unused low bits are zero.  The decoder is the strict one: a length that no encoding
has, a byte outside the alphabet and unused bits that are not zero are all refused.

Text is a list of bytes here.
-/
import Mathlib.Data.List.Basic
import Mathlib.Tactic.IntervalCases

namespace AudioDown.Lib.Base64

/-- The character of a six-bit value: `A`–`Z`, `a`–`z`, `0`–`9`, `-`, `_`. -/
def digit (n : Nat) : UInt8 :=
  if n < 26 then .ofNat (65 + n)
  else if n < 52 then .ofNat (71 + n)
  else if n < 62 then .ofNat (n - 4)
  else if n = 62 then 45
  else 95

def value (c : UInt8) : Option Nat :=
  if 65 ≤ c.toNat ∧ c.toNat ≤ 90 then some (c.toNat - 65)
  else if 97 ≤ c.toNat ∧ c.toNat ≤ 122 then some (c.toNat - 71)
  else if 48 ≤ c.toNat ∧ c.toNat ≤ 57 then some (c.toNat + 4)
  else if c.toNat = 45 then some 62
  else if c.toNat = 95 then some 63
  else none

def encode : List UInt8 → List UInt8
  | [] => []
  | [a] => [digit (a.toNat / 4), digit (a.toNat % 4 * 16)]
  | [a, b] =>
      [digit (a.toNat / 4), digit (a.toNat % 4 * 16 + b.toNat / 16), digit (b.toNat % 16 * 4)]
  | a :: b :: c :: rest =>
      digit (a.toNat / 4) :: digit (a.toNat % 4 * 16 + b.toNat / 16) ::
        digit (b.toNat % 16 * 4 + c.toNat / 64) :: digit (c.toNat % 64) :: encode rest

def decode : List UInt8 → Option (List UInt8)
  | [] => some []
  | [_] => none
  | [a, b] => do
      let x ← value a
      let y ← value b
      if y % 16 = 0 then some [.ofNat (x * 4 + y / 16)] else none
  | [a, b, c] => do
      let x ← value a
      let y ← value b
      let z ← value c
      if z % 4 = 0 then some [.ofNat (x * 4 + y / 16), .ofNat (y % 16 * 16 + z / 4)] else none
  | a :: b :: c :: d :: rest => do
      let x ← value a
      let y ← value b
      let z ← value c
      let w ← value d
      let bytes ← decode rest
      some (.ofNat (x * 4 + y / 16) :: .ofNat (y % 16 * 16 + z / 4) :: .ofNat (z % 4 * 64 + w) :: bytes)

/-! ## The alphabet -/

theorem value_digit {n : Nat} (h : n < 64) : value (digit n) = some n := by
  interval_cases n <;> rfl

theorem digit_ne_zero (n : Nat) : digit n ≠ 0 := by
  by_cases h : n < 64
  · interval_cases n <;> decide
  · rw [digit, if_neg (by omega), if_neg (by omega), if_neg (by omega), if_neg (by omega)]
    decide

theorem mem_encode {bytes : List UInt8} {c : UInt8} (h : c ∈ encode bytes) : ∃ n, c = digit n := by
  induction bytes using encode.induct with
  | case1 => cases h
  | case2 a =>
    simp only [encode, List.mem_cons, List.not_mem_nil, or_false] at h
    rcases h with h | h <;> exact ⟨_, h⟩
  | case3 a b =>
    simp only [encode, List.mem_cons, List.not_mem_nil, or_false] at h
    rcases h with h | h | h <;> exact ⟨_, h⟩
  | case4 a b c' rest ih =>
    simp only [encode, List.mem_cons] at h
    rcases h with h | h | h | h | h
    · exact ⟨_, h⟩
    · exact ⟨_, h⟩
    · exact ⟨_, h⟩
    · exact ⟨_, h⟩
    · exact ih h

/-! ## Length and round trip -/

theorem length_encode (bytes : List UInt8) : (encode bytes).length = (4 * bytes.length + 2) / 3 := by
  induction bytes using encode.induct with
  | case1 => rfl
  | case2 a => simp [encode]
  | case3 a b => simp [encode]
  | case4 a b c rest ih =>
    simp only [encode, List.length_cons, ih]
    omega

theorem ofNat_toNat (a : UInt8) {n : Nat} (h : n = a.toNat) : UInt8.ofNat n = a := by
  rw [h, UInt8.ofNat_toNat]

theorem decode_encode (bytes : List UInt8) : decode (encode bytes) = some bytes := by
  induction bytes using encode.induct with
  | case1 => rfl
  | case2 a =>
    have ha := a.toNat_lt
    have first := value_digit (n := a.toNat / 4) (by omega)
    have second := value_digit (n := a.toNat % 4 * 16) (by omega)
    simp only [encode, decode, first, second, Option.bind_eq_bind, Option.bind_some]
    rw [if_pos (by omega), ofNat_toNat a (by omega)]
  | case3 a b =>
    have ha := a.toNat_lt
    have hb := b.toNat_lt
    have first := value_digit (n := a.toNat / 4) (by omega)
    have second := value_digit (n := a.toNat % 4 * 16 + b.toNat / 16) (by omega)
    have third := value_digit (n := b.toNat % 16 * 4) (by omega)
    simp only [encode, decode, first, second, third, Option.bind_eq_bind, Option.bind_some]
    rw [if_pos (by omega), ofNat_toNat a (by omega), ofNat_toNat b (by omega)]
  | case4 a b c rest ih =>
    have ha := a.toNat_lt
    have hb := b.toNat_lt
    have hc := c.toNat_lt
    have first := value_digit (n := a.toNat / 4) (by omega)
    have second := value_digit (n := a.toNat % 4 * 16 + b.toNat / 16) (by omega)
    have third := value_digit (n := b.toNat % 16 * 4 + c.toNat / 64) (by omega)
    have fourth := value_digit (n := c.toNat % 64) (by omega)
    simp only [encode, decode, first, second, third, fourth, ih, Option.bind_eq_bind, Option.bind_some]
    rw [ofNat_toNat a (by omega), ofNat_toNat b (by omega), ofNat_toNat c (by omega)]

theorem encode_injective : Function.Injective encode := by
  intro x y h
  have := congrArg decode h
  rw [decode_encode, decode_encode] at this
  exact Option.some.inj this

end AudioDown.Lib.Base64
