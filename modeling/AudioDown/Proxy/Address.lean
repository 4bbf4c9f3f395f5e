/-
# AudioDown.Proxy.Address — which addresses are global

Two proxies resolve a name and connect only to global addresses: the one a build runs behind
(`build_proxy.rs`), and the one plugins run behind (`policy.rs`).  Each has its own classifier.

What must not be reached is given by the blocks of the special-purpose registries, as prefixes.  The classifier
of `policy.rs` accepts nothing of them.  That of `build_proxy.rs` agrees with it on IPv4, and on IPv6 but for
four kinds of addresses (`classification_agrees_iff`).
-/
import Mathlib.Data.Nat.Bitwise

namespace AudioDown.Proxy

/-! ## Addresses -/

/-- The octets. -/
structure Ipv4Addr where
  a : UInt8
  b : UInt8
  c : UInt8
  d : UInt8
deriving DecidableEq

/-- The segments. -/
structure Ipv6Addr where
  s₀ : UInt16
  s₁ : UInt16
  s₂ : UInt16
  s₃ : UInt16
  s₄ : UInt16
  s₅ : UInt16
  s₆ : UInt16
  s₇ : UInt16
deriving DecidableEq

inductive IpAddr where
  | v4 (address : Ipv4Addr)
  | v6 (address : Ipv6Addr)

/-! ### `std::net` -/

namespace Ipv4Addr

def isUnspecified (x : Ipv4Addr) : Bool := x = ⟨0, 0, 0, 0⟩

def isLoopback (x : Ipv4Addr) : Bool := x.a = 127

def isPrivate (x : Ipv4Addr) : Bool :=
  x.a = 10 || (x.a = 172 && 16 ≤ x.b && x.b ≤ 31) || (x.a = 192 && x.b = 168)

def isLinkLocal (x : Ipv4Addr) : Bool := x.a = 169 && x.b = 254

def isBroadcast (x : Ipv4Addr) : Bool := x = ⟨255, 255, 255, 255⟩

def isDocumentation (x : Ipv4Addr) : Bool :=
  (x.a = 192 && x.b = 0 && x.c = 2) || (x.a = 198 && x.b = 51 && x.c = 100) ||
    (x.a = 203 && x.b = 0 && x.c = 113)

def isMulticast (x : Ipv4Addr) : Bool := 224 ≤ x.a && x.a ≤ 239

def ofSegments (ab cd : UInt16) : Ipv4Addr := ⟨(ab >>> 8).toUInt8, ab.toUInt8, (cd >>> 8).toUInt8, cd.toUInt8⟩

end Ipv4Addr

namespace Ipv6Addr

def toIpv4Mapped (x : Ipv6Addr) : Option Ipv4Addr :=
  if x.s₀ = 0 ∧ x.s₁ = 0 ∧ x.s₂ = 0 ∧ x.s₃ = 0 ∧ x.s₄ = 0 ∧ x.s₅ = 0xffff then some (.ofSegments x.s₆ x.s₇)
  else none

def toIpv4 (x : Ipv6Addr) : Option Ipv4Addr :=
  if x.s₀ = 0 ∧ x.s₁ = 0 ∧ x.s₂ = 0 ∧ x.s₃ = 0 ∧ x.s₄ = 0 ∧ (x.s₅ = 0 ∨ x.s₅ = 0xffff) then
    some (.ofSegments x.s₆ x.s₇)
  else none

end Ipv6Addr

/-! ## `build_proxy.rs` -/

def isGlobalV4 (x : Ipv4Addr) : Bool :=
  !x.isPrivate && !x.isLoopback && !x.isLinkLocal && !x.isBroadcast && !x.isDocumentation &&
    !x.isUnspecified && !x.isMulticast && x.a ≠ 0 && !(x.a = 100 && 64 ≤ x.b && x.b ≤ 127) &&
    !(x.a = 192 && x.b = 0 && x.c = 0) && !(x.a = 198 && (x.b = 18 || x.b = 19)) && x.a < 240

def isGlobalV6 (x : Ipv6Addr) : Bool :=
  match x.toIpv4Mapped with
  | some mapped => isGlobalV4 mapped
  | none => x.s₀ &&& 0xe000 = 0x2000 && !(x.s₀ = 0x2001 && x.s₁ = 0x0db8)

def isGlobal : IpAddr → Bool
  | .v4 address => isGlobalV4 address
  | .v6 address => isGlobalV6 address

/-! ## `policy.rs` -/

def isGlobalIpv4 (x : Ipv4Addr) : Bool :=
  !(x.isUnspecified || x.isLoopback || x.isPrivate || x.isLinkLocal || x.isMulticast || x.isBroadcast ||
    x.a = 0 || 240 ≤ x.a || x.a = 127 || (x.a = 100 && 64 ≤ x.b && x.b ≤ 127) || (x.a = 169 && x.b = 254) ||
    (x.a = 192 && x.b = 0 && x.c = 0) || (x.a = 192 && x.b = 0 && x.c = 2) || (x.a = 198 && x.b = 18) ||
    (x.a = 198 && x.b = 19) || (x.a = 198 && x.b = 51 && x.c = 100) || (x.a = 203 && x.b = 0 && x.c = 113))

def isGlobalIpv6 (x : Ipv6Addr) : Bool :=
  match x.toIpv4 with
  | some address => isGlobalIpv4 address
  | none =>
    let isSpecial2001 := x.s₀ = 0x2001 && (x.s₁ &&& 0xfe00 = 0 || x.s₁ = 0x0db8)
    let isSixToFour := decide (x.s₀ = 0x2002)
    let isDocumentation := x.s₀ = 0x3fff && x.s₁ &&& 0xf000 = 0
    x.s₀ &&& 0xe000 = 0x2000 && !(isSpecial2001 || isSixToFour || isDocumentation)

def isGlobalAddress : IpAddr → Bool
  | .v4 address => isGlobalIpv4 address
  | .v6 address => isGlobalIpv6 address

/-! ## What is special -/

/-- The addresses of `width` bits that begin with the first `length` bits of `base`. -/
structure Block where
  base : Nat
  length : Nat

def Block.Contains (width : Nat) (block : Block) (address : Nat) : Prop :=
  address / 2 ^ (width - block.length) = block.base / 2 ^ (width - block.length)

def Ipv4Addr.toNat (x : Ipv4Addr) : Nat :=
  x.a.toNat * 2 ^ 24 + x.b.toNat * 2 ^ 16 + x.c.toNat * 2 ^ 8 + x.d.toNat

def Ipv6Addr.toNat (x : Ipv6Addr) : Nat :=
  x.s₀.toNat * 2 ^ 112 + x.s₁.toNat * 2 ^ 96 + x.s₂.toNat * 2 ^ 80 + x.s₃.toNat * 2 ^ 64 +
    x.s₄.toNat * 2 ^ 48 + x.s₅.toNat * 2 ^ 32 + x.s₆.toNat * 2 ^ 16 + x.s₇.toNat

def specialIpv4 : List Block := [
  ⟨0, 32⟩,                          -- unspecified
  ⟨127 * 2 ^ 24, 8⟩,                -- loopback
  ⟨10 * 2 ^ 24, 8⟩, ⟨172 * 2 ^ 24 + 16 * 2 ^ 16, 12⟩, ⟨192 * 2 ^ 24 + 168 * 2 ^ 16, 16⟩,  -- private
  ⟨169 * 2 ^ 24 + 254 * 2 ^ 16, 16⟩,  -- link-local
  ⟨100 * 2 ^ 24 + 64 * 2 ^ 16, 10⟩,   -- shared
  ⟨224 * 2 ^ 24, 4⟩,                -- multicast
  ⟨192 * 2 ^ 24 + 2 * 2 ^ 8, 24⟩, ⟨198 * 2 ^ 24 + 51 * 2 ^ 16 + 100 * 2 ^ 8, 24⟩,
  ⟨203 * 2 ^ 24 + 113 * 2 ^ 8, 24⟩,   -- documentation
  ⟨198 * 2 ^ 24 + 18 * 2 ^ 16, 15⟩,   -- benchmarking
  ⟨240 * 2 ^ 24, 4⟩]                -- reserved

/-- The reserved ones are those no registry has assigned; of ::/8, where the mapped and the compatible
addresses are, only the two assigned ones are listed. -/
def specialIpv6 : List Block := [
  ⟨0, 128⟩,                         -- unspecified
  ⟨1, 128⟩,                         -- loopback
  ⟨0xfe80 * 2 ^ 112, 10⟩,           -- link-local
  ⟨0xfc00 * 2 ^ 112, 7⟩,            -- unique-local
  ⟨0xff00 * 2 ^ 112, 8⟩,            -- multicast
  ⟨0x2001 * 2 ^ 112 + 0x0db8 * 2 ^ 96, 32⟩, ⟨0x3fff * 2 ^ 112, 20⟩,  -- documentation
  ⟨0x2001 * 2 ^ 112 + 0x0002 * 2 ^ 96, 48⟩,                          -- benchmarking
  ⟨0x0100 * 2 ^ 112, 8⟩, ⟨0x0200 * 2 ^ 112, 7⟩, ⟨0x0400 * 2 ^ 112, 6⟩, ⟨0x0800 * 2 ^ 112, 5⟩,
  ⟨0x1000 * 2 ^ 112, 4⟩, ⟨0x4000 * 2 ^ 112, 2⟩, ⟨0x8000 * 2 ^ 112, 2⟩, ⟨0xc000 * 2 ^ 112, 3⟩,
  ⟨0xe000 * 2 ^ 112, 4⟩, ⟨0xf000 * 2 ^ 112, 5⟩, ⟨0xf800 * 2 ^ 112, 6⟩, ⟨0xfe00 * 2 ^ 112, 9⟩,
  ⟨0xfec0 * 2 ^ 112, 10⟩]           -- reserved

def Ipv4Addr.Special (x : Ipv4Addr) : Prop := ∃ block ∈ specialIpv4, block.Contains 32 x.toNat

/-- The address has an IPv4 address in it: mapped (::ffff:a.b.c.d), compatible (::a.b.c.d) or 6to4
(2002:ab:cd::). -/
inductive Ipv6Addr.Embeds : Ipv6Addr → Ipv4Addr → Prop where
  | mapped (ab cd : UInt16) : Embeds ⟨0, 0, 0, 0, 0, 0xffff, ab, cd⟩ (.ofSegments ab cd)
  | compatible (ab cd : UInt16) : Embeds ⟨0, 0, 0, 0, 0, 0, ab, cd⟩ (.ofSegments ab cd)
  | sixToFour (ab cd s₃ s₄ s₅ s₆ s₇ : UInt16) :
      Embeds ⟨0x2002, ab, cd, s₃, s₄, s₅, s₆, s₇⟩ (.ofSegments ab cd)

def IpAddr.Special : IpAddr → Prop
  | .v4 x => x.Special
  | .v6 x => (∃ block ∈ specialIpv6, block.Contains 128 x.toNat) ∨ ∃ y, x.Embeds y ∧ y.Special

/-- The addresses on which the classifiers part. -/
def IpAddr.Disputed : IpAddr → Prop
  | .v4 _ => False
  | .v6 x => (x.s₀ = 0x2001 ∧ x.s₁ < 0x0200) ∨ x.s₀ = 0x2002 ∨ (x.s₀ = 0x3fff ∧ x.s₁ < 0x1000) ∨
      ∃ ab cd, x = ⟨0, 0, 0, 0, 0, 0, ab, cd⟩ ∧ isGlobalIpv4 (.ofSegments ab cd) = true

/-! ## IPv4 -/

theorem isGlobalV4_eq (x : Ipv4Addr) : isGlobalV4 x = isGlobalIpv4 x := by
  rw [Bool.eq_iff_iff]
  simp only [isGlobalV4, isGlobalIpv4, Ipv4Addr.isLoopback, Ipv4Addr.isLinkLocal, Ipv4Addr.isDocumentation,
    Bool.and_eq_true, Bool.not_eq_true', Bool.or_eq_false_iff, Bool.and_eq_false_iff, decide_eq_true_eq,
    decide_eq_false_iff_not, or_and_left, UInt8.not_le]
  constructor
  · intro h
    simp_all
  · intro h
    simp_all

theorem Ipv4Addr.Special.octets {x : Ipv4Addr} (h : x.Special) :
    x.a = 0 ∨ x.a = 127 ∨ x.a = 10 ∨ (x.a = 172 ∧ 16 ≤ x.b ∧ x.b ≤ 31) ∨ (x.a = 192 ∧ x.b = 168) ∨
      (x.a = 169 ∧ x.b = 254) ∨ (x.a = 100 ∧ 64 ≤ x.b ∧ x.b ≤ 127) ∨ (224 ≤ x.a ∧ x.a ≤ 239) ∨
      (x.a = 192 ∧ x.b = 0 ∧ x.c = 2) ∨ (x.a = 198 ∧ x.b = 51 ∧ x.c = 100) ∨
      (x.a = 203 ∧ x.b = 0 ∧ x.c = 113) ∨ (x.a = 198 ∧ (x.b = 18 ∨ x.b = 19)) ∨ 240 ≤ x.a := by
  have hb := x.b.toNat_lt
  have hc := x.c.toNat_lt
  have hd := x.d.toNat_lt
  simp only [Ipv4Addr.Special, specialIpv4, Block.Contains, Ipv4Addr.toNat, List.mem_cons, exists_eq_or_imp,
    exists_eq_left, List.not_mem_nil, or_false, Nat.reducePow, Nat.reduceMul, Nat.reduceAdd, Nat.reduceSub,
    Nat.reduceDiv] at h
  simp only [← UInt8.toNat_inj, UInt8.le_iff_toNat_le, UInt8.reduceToNat]
  refine h.imp ?_ (Or.imp ?_ (Or.imp ?_ (Or.imp ?_ (Or.imp ?_ (Or.imp ?_ (Or.imp ?_ (Or.imp ?_ (Or.imp ?_
    (Or.imp ?_ (Or.imp ?_ (Or.imp ?_ ?_))))))))))) <;> intro h <;> omega

theorem not_global_of_special {x : Ipv4Addr} (h : x.Special) : isGlobalIpv4 x = false := by
  simp only [isGlobalIpv4, Ipv4Addr.isLoopback, Ipv4Addr.isPrivate, Ipv4Addr.isLinkLocal, Ipv4Addr.isMulticast]
  rcases h.octets with h | h | h | h | h | h | h | h | h | h | h | ⟨h, h' | h'⟩ | h <;> simp [*]

/-! ## IPv6 -/

theorem and_leading {x k n : Nat} (hx : x < 2 ^ (k + n)) : x &&& ((2 ^ k - 1) <<< n) = x / 2 ^ n * 2 ^ n := by
  apply Nat.eq_of_testBit_eq
  intro i
  rw [← Nat.shiftRight_eq_div_pow, ← Nat.shiftLeft_eq, Nat.testBit_and, Nat.testBit_shiftLeft,
    Nat.testBit_shiftLeft, Nat.testBit_two_pow_sub_one, Nat.testBit_shiftRight]
  by_cases hn : n ≤ i
  · rw [Nat.add_sub_cancel' hn]
    by_cases hk : i - n < k
    · simp [hn, hk]
    · have outside : x.testBit i = false := by
        apply Nat.testBit_lt_two_pow
        exact hx.trans_le (Nat.pow_le_pow_right (by decide) (by omega))
      simp [outside]
  · simp [hn]

theorem and_masks (s : UInt16) : (s &&& 0xe000 = 0x2000 ↔ 0x2000 ≤ s ∧ s < 0x4000) ∧
    (s &&& 0xfe00 = 0 ↔ s < 0x0200) ∧ (s &&& 0xf000 = 0 ↔ s < 0x1000) := by
  have three : s.toNat &&& 0xe000 = s.toNat / 2 ^ 13 * 2 ^ 13 := and_leading (n := 13) s.toNat_lt
  have seven : s.toNat &&& 0xfe00 = s.toNat / 2 ^ 9 * 2 ^ 9 := and_leading (n := 9) s.toNat_lt
  have four : s.toNat &&& 0xf000 = s.toNat / 2 ^ 12 * 2 ^ 12 := and_leading (k := 4) (n := 12) s.toNat_lt
  simp only [← UInt16.toNat_inj, UInt16.toNat_and, UInt16.le_iff_toNat_le, UInt16.lt_iff_toNat_lt,
    UInt16.reduceToNat]
  omega

theorem Ipv6Addr.forms (x : Ipv6Addr) : (∃ ab cd, x = ⟨0, 0, 0, 0, 0, 0xffff, ab, cd⟩) ∨
    (∃ ab cd, x = ⟨0, 0, 0, 0, 0, 0, ab, cd⟩) ∨ (x.toIpv4 = none ∧ x.toIpv4Mapped = none) := by
  obtain ⟨s₀, s₁, s₂, s₃, s₄, s₅, s₆, s₇⟩ := x
  by_cases zero : s₀ = 0 ∧ s₁ = 0 ∧ s₂ = 0 ∧ s₃ = 0 ∧ s₄ = 0
  · obtain ⟨rfl, rfl, rfl, rfl, rfl⟩ := zero
    by_cases mapped : s₅ = 0xffff
    · exact .inl ⟨s₆, s₇, by rw [mapped]⟩
    by_cases compatible : s₅ = 0
    · exact .inr (.inl ⟨s₆, s₇, by rw [compatible]⟩)
    · exact .inr (.inr ⟨if_neg (by simp [mapped, compatible]), if_neg (by simp [mapped])⟩)
  · exact .inr (.inr ⟨if_neg (by tauto), if_neg (by tauto)⟩)

theorem verdicts {x : Ipv6Addr} (h : x.toIpv4 = none) (h' : x.toIpv4Mapped = none) :
    (isGlobalV6 x = true ↔ (0x2000 ≤ x.s₀ ∧ x.s₀ < 0x4000) ∧ ¬ (x.s₀ = 0x2001 ∧ x.s₁ = 0x0db8)) ∧
    (isGlobalIpv6 x = true ↔ (0x2000 ≤ x.s₀ ∧ x.s₀ < 0x4000) ∧ ¬ (x.s₀ = 0x2001 ∧
    (x.s₁ < 0x0200 ∨ x.s₁ = 0x0db8)) ∧ x.s₀ ≠ 0x2002 ∧ ¬ (x.s₀ = 0x3fff ∧ x.s₁ < 0x1000)) := by
  unfold isGlobalV6 isGlobalIpv6
  rw [h, h']
  simp [(and_masks _).1, (and_masks _).2.1, (and_masks _).2.2, not_or, and_assoc, imp_iff_not_or]

theorem verdict_iff (x : Ipv6Addr) : isGlobalV6 x = isGlobalIpv6 x ↔ ¬ (IpAddr.v6 x).Disputed := by
  obtain ⟨ab, cd, rfl⟩ | ⟨ab, cd, rfl⟩ | ⟨h, h'⟩ := x.forms
  · refine iff_of_true (isGlobalV4_eq _) ?_
    simp [IpAddr.Disputed]
  · have refused : isGlobalV6 ⟨0, 0, 0, 0, 0, 0, ab, cd⟩ = false := by
      simp [isGlobalV6, Ipv6Addr.toIpv4Mapped]
    have passed : isGlobalIpv6 ⟨0, 0, 0, 0, 0, 0, ab, cd⟩ = isGlobalIpv4 (.ofSegments ab cd) := by
      simp [isGlobalIpv6, Ipv6Addr.toIpv4]
    rw [refused, passed]
    constructor
    · rintro refused' (⟨h, -⟩ | h | ⟨h, -⟩ | ⟨ab', cd', h, accepted⟩)
      · exact absurd (show (0 : UInt16) = 0x2001 from h) (by decide)
      · exact absurd (show (0 : UInt16) = 0x2002 from h) (by decide)
      · exact absurd (show (0 : UInt16) = 0x3fff from h) (by decide)
      · cases h
        exact absurd (refused'.trans accepted) (by decide)
    · intro undisputed
      by_contra accepted
      exact undisputed (.inr (.inr (.inr ⟨ab, cd, rfl, eq_true_of_ne_false (Ne.symm accepted)⟩)))
  · have other : ¬ ∃ ab cd, x = ⟨0, 0, 0, 0, 0, 0, ab, cd⟩ ∧ isGlobalIpv4 (.ofSegments ab cd) = true := by
      rintro ⟨ab, cd, rfl, -⟩
      simp [Ipv6Addr.toIpv4] at h
    obtain ⟨build, network⟩ := verdicts h h'
    rw [Bool.eq_iff_iff, build, network]
    constructor
    · rintro same (⟨h, low⟩ | h | ⟨h, low⟩ | h)
      · have undocumented : x.s₁ ≠ 0x0db8 := fun h => absurd (h ▸ low) (by decide)
        exact (same.mp ⟨by rw [h]; decide, fun h => undocumented h.2⟩).2.1 ⟨h, .inl low⟩
      · exact (same.mp ⟨by rw [h]; decide, fun h' => absurd (h.symm.trans h'.1) (by decide)⟩).2.2.1 h
      · exact (same.mp ⟨by rw [h]; decide, fun h' => absurd (h.symm.trans h'.1) (by decide)⟩).2.2.2 ⟨h, low⟩
      · exact other h
    · intro undisputed
      constructor
      · rintro ⟨unicast, undocumented⟩
        refine ⟨unicast, ?_, fun h => undisputed (.inr (.inl h)), fun h => undisputed (.inr (.inr (.inl h)))⟩
        rintro ⟨h, low | documentation⟩
        · exact undisputed (.inl ⟨h, low⟩)
        · exact undocumented ⟨h, documentation⟩
      · rintro ⟨unicast, special, -, -⟩
        exact ⟨unicast, fun h => special ⟨h.1, .inr h.2⟩⟩

/-- The blocks, in segments.  A block that begins with a zero segment has one address. -/
theorem special_segments {x : Ipv6Addr} (h : ∃ block ∈ specialIpv6, block.Contains 128 x.toNat) :
    (x = ⟨0, 0, 0, 0, 0, 0, 0, 0⟩ ∨ x = ⟨0, 0, 0, 0, 0, 0, 0, 1⟩) ∨ x.s₀ ≠ 0 ∧
      (x.s₀ < 0x2000 ∨ 0x4000 ≤ x.s₀ ∨ (x.s₀ = 0x2001 ∧ (x.s₁ < 0x0200 ∨ x.s₁ = 0x0db8)) ∨
        (x.s₀ = 0x3fff ∧ x.s₁ < 0x1000)) := by
  obtain ⟨s₀, s₁, s₂, s₃, s₄, s₅, s₆, s₇⟩ := x
  have h₀ := s₀.toNat_lt
  have h₁ := s₁.toNat_lt
  have h₂ := s₂.toNat_lt
  have h₃ := s₃.toNat_lt
  have h₄ := s₄.toNat_lt
  have h₅ := s₅.toNat_lt
  have h₆ := s₆.toNat_lt
  have h₇ := s₇.toNat_lt
  simp only [specialIpv6, Block.Contains, Ipv6Addr.toNat, List.mem_cons, exists_eq_or_imp, exists_eq_left,
    List.not_mem_nil, or_false, Nat.reducePow, Nat.reduceMul, Nat.reduceAdd, Nat.reduceSub, Nat.reduceDiv] at h
  simp only [Ipv6Addr.mk.injEq, ← UInt16.toNat_inj, UInt16.le_iff_toNat_le, UInt16.lt_iff_toNat_lt,
    UInt16.reduceToNat, ne_eq]
  rcases h with h | h | h | h | h | h | h | h | h | h | h | h | h | h | h | h | h | h | h | h | h
  all_goals omega

theorem isGlobalIpv6_of_special {x : Ipv6Addr} (h : (IpAddr.v6 x).Special) : isGlobalIpv6 x = false := by
  obtain hblock | ⟨y, embeds, special⟩ := h
  · obtain (rfl | rfl) | ⟨hne, hcases⟩ := special_segments hblock
    · rfl
    · rfl
    · obtain ⟨ab, cd, rfl⟩ | ⟨ab, cd, rfl⟩ | ⟨h, h'⟩ := x.forms
      · exact absurd rfl hne
      · exact absurd rfl hne
      · rw [Bool.eq_false_iff, Ne, (verdicts h h').2]
        rintro ⟨⟨low, high⟩, special, -, documentation⟩
        obtain hlow | hhigh | hspecial | hdocumentation := hcases
        · exact absurd low (UInt16.not_le.mpr hlow)
        · exact absurd high (UInt16.not_lt.mpr hhigh)
        · exact special hspecial
        · exact documentation hdocumentation
  · cases embeds with
    | mapped ab cd => exact not_global_of_special special
    | compatible ab cd => exact not_global_of_special special
    | sixToFour ab cd s₃ s₄ s₅ s₆ s₇ => simp [isGlobalIpv6, Ipv6Addr.toIpv4]

/-! ## The classifiers compared -/

/-- The classifier of `policy.rs` accepts no special address.  That of `build_proxy.rs` gives the same verdict,
and so accepts none, exactly on the addresses that are not disputed. -/
theorem classification_agrees_iff (address : IpAddr) :
    (address.Special → isGlobalAddress address = false) ∧ ((isGlobal address = isGlobalAddress address ∧
      (address.Special → isGlobal address = false)) ↔ ¬ address.Disputed) := by
  have sound : address.Special → isGlobalAddress address = false := by
    intro h
    cases address with
    | v4 x => exact not_global_of_special h
    | v6 x => exact isGlobalIpv6_of_special h
  refine ⟨sound, ?_⟩
  have same : isGlobal address = isGlobalAddress address ↔ ¬ address.Disputed := by
    cases address with
    | v4 x => exact iff_of_true (isGlobalV4_eq x) id
    | v6 x => exact verdict_iff x
  rw [← same]
  exact and_iff_left_of_imp fun agree special => agree.trans (sound special)

namespace IpAddr

def sixToFourLoopback : IpAddr := .v6 ⟨0x2002, 0x7f00, 0x0001, 0, 0, 0, 0, 0⟩

def documentation : IpAddr := .v6 ⟨0x3fff, 0, 0, 0, 0, 0, 0, 1⟩

def compatible : IpAddr := .v6 ⟨0, 0, 0, 0, 0, 0, 0x0808, 0x0808⟩

end IpAddr

/-- The builder's proxy connects to two special addresses, and refuses one the plugins' proxy accepts. -/
theorem special_addresses_accepted : (IpAddr.sixToFourLoopback.Special ∧ isGlobal .sixToFourLoopback = true ∧
      isGlobalAddress .sixToFourLoopback = false) ∧
    (IpAddr.documentation.Special ∧ isGlobal .documentation = true ∧ isGlobalAddress .documentation = false) ∧
    isGlobal .compatible = false ∧ isGlobalAddress .compatible = true := by
  have loopback : (Ipv4Addr.ofSegments 0x7f00 0x0001).Special :=
    ⟨⟨127 * 2 ^ 24, 8⟩, .tail _ (.head _), rfl⟩
  refine ⟨⟨Or.inr ⟨_, .sixToFour _ _ _ _ _ _ _, loopback⟩, by decide, by decide⟩,
    ⟨Or.inl ⟨⟨0x3fff * 2 ^ 112, 20⟩, ?_, ?_⟩, by decide, by decide⟩, by decide, by decide⟩
  · simp [specialIpv6]
  · rfl

end AudioDown.Proxy
