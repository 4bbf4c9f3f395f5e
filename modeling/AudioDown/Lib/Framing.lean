/-
# AudioDown.Lib.Framing — byte strings with their lengths in front

A list of byte strings is written as one byte string by putting in front of each its length, in a fixed
number of bytes.  As long as the lengths fit, nothing is lost (`frames_injective`).
-/
import Mathlib.Algebra.Order.Ring.Int

namespace AudioDown.Lib

/-- The low bytes of a number, the highest first. -/
def beBytes : Nat → Nat → List UInt8
  | 0, _ => []
  | width + 1, n => beBytes width (n / 256) ++ [UInt8.ofNat n]

theorem length_beBytes (width n : Nat) : (beBytes width n).length = width := by
  induction width generalizing n with
  | zero => rfl
  | succ width ih => rw [beBytes, List.length_append, ih, List.length_singleton]

theorem beBytes_injective {width n m : Nat} (hn : n < 256 ^ width) (hm : m < 256 ^ width)
    (h : beBytes width n = beBytes width m) : n = m := by
  induction width generalizing n m with
  | zero => omega
  | succ width ih =>
    rw [Nat.pow_succ] at hn hm
    obtain ⟨hhigh, hlow⟩ := List.append_inj h (by rw [length_beBytes, length_beBytes])
    have hdiv : n / 256 = m / 256 := ih (by omega) (by omega) hhigh
    have hmod : n % 256 = m % 256 := by
      have hbyte := congrArg UInt8.toNat (List.cons.inj hlow).1
      simpa using hbyte
    omega

theorem beBytes_append_inj {width n m : Nat} {x y : List UInt8} (hn : n < 256 ^ width)
    (hm : m < 256 ^ width) (h : beBytes width n ++ x = beBytes width m ++ y) : n = m ∧ x = y := by
  obtain ⟨hnumber, hrest⟩ := List.append_inj h (by rw [length_beBytes, length_beBytes])
  exact ⟨beBytes_injective hn hm hnumber, hrest⟩

/-- A byte string with its length in front. -/
def frame (width : Nat) (bytes : List UInt8) : List UInt8 := beBytes width bytes.length ++ bytes

def frames (width : Nat) (strings : List (List UInt8)) : List UInt8 := strings.flatMap (frame width)

theorem frame_append_inj {width : Nat} {a b x y : List UInt8} (ha : a.length < 256 ^ width)
    (hb : b.length < 256 ^ width) (h : frame width a ++ x = frame width b ++ y) : a = b ∧ x = y := by
  unfold frame at h
  rw [List.append_assoc, List.append_assoc] at h
  obtain ⟨hlength, hrest⟩ := beBytes_append_inj ha hb h
  exact List.append_inj hrest hlength

theorem frames_injective {width : Nat} (hwidth : 0 < width) {xs ys : List (List UInt8)}
    (hxs : ∀ x ∈ xs, x.length < 256 ^ width) (hys : ∀ y ∈ ys, y.length < 256 ^ width)
    (h : frames width xs = frames width ys) : xs = ys := by
  have nonempty : ∀ (x : List UInt8) (xs : List (List UInt8)), frames width (x :: xs) ≠ [] := by
    intro x xs hnil
    have hlength := congrArg List.length hnil
    simp only [frames, frame, List.flatMap_cons, List.length_append, length_beBytes, List.length_nil]
      at hlength
    omega
  induction xs generalizing ys with
  | nil =>
    cases ys with
    | nil => rfl
    | cons y ys => exact absurd h.symm (nonempty y ys)
  | cons x xs ih =>
    cases ys with
    | nil => exact absurd h (nonempty x xs)
    | cons y ys =>
      obtain ⟨rfl, hrest⟩ := frame_append_inj (hxs x List.mem_cons_self) (hys y List.mem_cons_self) h
      exact congrArg (x :: ·) (ih (fun z hz => hxs z (List.mem_cons_of_mem _ hz))
        (fun z hz => hys z (List.mem_cons_of_mem _ hz)) hrest)

def utf8 (text : String) : List UInt8 := text.toUTF8.data.toList

theorem utf8_injective {a b : String} (h : utf8 a = utf8 b) : a = b := by
  have hdata : a.toUTF8.data = b.toUTF8.data := Array.toList_inj.mp h
  exact String.toByteArray_inj.mp (ByteArray.ext hdata)

theorem length_utf8 (text : String) : (utf8 text).length = text.utf8ByteSize := rfl

end AudioDown.Lib
