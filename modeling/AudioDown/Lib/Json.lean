/-
# AudioDown.Lib.Json — compact JSON text, and how long it is

What `serde_json` writes for a value: no spaces, members in the order of the struct, and in strings an
escape for `"`, `\` and the control characters only.  Everything else is written as it is, in UTF-8.  Text
is a list of bytes.

`Json.size` is the length of the text in closed form (`length_write`): what a value costs can be computed
without writing it, and bounded from the lengths of the strings in it.
-/
import Mathlib.Algebra.Order.Ring.Int
import Mathlib.Data.String.Basic

namespace AudioDown.Lib

/-- A JSON value, with what is kept of a number. -/
inductive JsonValue (Number : Type) where
  | null
  | bool (value : Bool)
  | number (value : Number)
  | string (value : String)
  | array (elements : List (JsonValue Number))
  | object (members : List (String × JsonValue Number))

abbrev Json := JsonValue Int

namespace Json

def hexDigit (n : Nat) : UInt8 := UInt8.ofNat (if n < 10 then 48 + n else 87 + n)

def escape (c : Char) : List UInt8 :=
  if c = '"' then [92, 34]
  else if c = '\\' then [92, 92]
  else if c.toNat = 8 then [92, 98]
  else if c.toNat = 9 then [92, 116]
  else if c.toNat = 10 then [92, 110]
  else if c.toNat = 12 then [92, 102]
  else if c.toNat = 13 then [92, 114]
  else if c.toNat < 32 then [92, 117, 48, 48, hexDigit (c.toNat / 16), hexDigit (c.toNat % 16)]
  else String.utf8EncodeChar c

def writeString (s : String) : List UInt8 := 34 :: (s.toList.flatMap escape ++ [34])

def ascii (s : String) : List UInt8 := s.toList.map fun c => UInt8.ofNat c.toNat

def writeNumber (n : Int) : List UInt8 :=
  match n with
  | .ofNat n => (Nat.toDigits 10 n).map fun c => UInt8.ofNat c.toNat
  | .negSucc n => 45 :: (Nat.toDigits 10 (n + 1)).map fun c => UInt8.ofNat c.toNat

def commas : List (List UInt8) → List UInt8
  | [] => []
  | [text] => text
  | text :: texts => text ++ 44 :: commas texts

mutual

def write : Json → List UInt8
  | .null => ascii "null"
  | .bool true => ascii "true"
  | .bool false => ascii "false"
  | .number n => writeNumber n
  | .string s => writeString s
  | .array elements => 91 :: (commas (writeElements elements) ++ [93])
  | .object members => 123 :: (commas (writeMembers members) ++ [125])

def writeElements : List Json → List (List UInt8)
  | [] => []
  | element :: elements => write element :: writeElements elements

def writeMembers : List (String × Json) → List (List UInt8)
  | [] => []
  | (name, value) :: members => (writeString name ++ 58 :: write value) :: writeMembers members

end

/-! ## Its length -/

def escapeSize (c : Char) : Nat :=
  if c = '"' ∨ c = '\\' ∨ c.toNat = 8 ∨ c.toNat = 9 ∨ c.toNat = 10 ∨ c.toNat = 12 ∨ c.toNat = 13 then 2
  else if c.toNat < 32 then 6
  else c.utf8Size

theorem length_escape (c : Char) : (escape c).length = escapeSize c := by
  unfold escape escapeSize
  split_ifs <;> simp_all

/-- The length of a string, quotes included. -/
def stringSize (s : String) : Nat := (s.toList.map escapeSize).sum + 2

@[simp] theorem length_writeString (s : String) : (writeString s).length = stringSize s := by
  have hescape : (s.toList.flatMap escape).length = (s.toList.map escapeSize).sum := by
    rw [List.length_flatMap]
    exact congrArg List.sum (List.map_congr_left fun c _ => length_escape c)
  rw [writeString, List.length_cons, List.length_append, hescape]
  rfl

/-- Lengths with a comma between the texts. -/
def commasSize (sizes : List Nat) : Nat := sizes.sum + (sizes.length - 1)

theorem length_commas (texts : List (List UInt8)) :
    (commas texts).length = commasSize (texts.map List.length) := by
  induction texts with
  | nil => rfl
  | cons text texts ih =>
    cases texts with
    | nil => simp [commas, commasSize]
    | cons text' texts =>
      simp only [commas, List.length_append, List.length_cons, commasSize, List.map_cons,
        List.sum_cons, List.length_map] at ih ⊢
      omega

mutual

def size : Json → Nat
  | .null => 4
  | .bool true => 4
  | .bool false => 5
  | .number n => (writeNumber n).length
  | .string s => stringSize s
  | .array elements => commasSize (sizeElements elements) + 2
  | .object members => commasSize (sizeMembers members) + 2

def sizeElements : List Json → List Nat
  | [] => []
  | element :: elements => size element :: sizeElements elements

def sizeMembers : List (String × Json) → List Nat
  | [] => []
  | (name, value) :: members => (stringSize name + 1 + size value) :: sizeMembers members

end

mutual

theorem length_write : ∀ json : Json, (write json).length = size json
  | .null => rfl
  | .bool true => rfl
  | .bool false => rfl
  | .number _ => rfl
  | .string s => length_writeString s
  | .array elements => by
      rw [write, List.length_cons, List.length_append, length_commas, length_writeElements, size]
      rfl
  | .object members => by
      rw [write, List.length_cons, List.length_append, length_commas, length_writeMembers, size]
      rfl

theorem length_writeElements : ∀ elements : List Json,
    (writeElements elements).map List.length = sizeElements elements
  | [] => rfl
  | element :: elements => by
      rw [writeElements, List.map_cons, length_write element, length_writeElements elements, sizeElements]

theorem length_writeMembers : ∀ members : List (String × Json),
    (writeMembers members).map List.length = sizeMembers members
  | [] => rfl
  | (name, value) :: members => by
      rw [writeMembers, List.map_cons, List.length_append, List.length_cons, length_writeString,
        length_write value, length_writeMembers members, sizeMembers]
      congr 1
      omega

end

@[simp] theorem sizeElements_eq_map (elements : List Json) : sizeElements elements = elements.map size := by
  induction elements with
  | nil => rfl
  | cons element elements ih => rw [sizeElements, ih, List.map_cons]

end Json

end AudioDown.Lib
