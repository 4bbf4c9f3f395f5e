/-
# AudioDown.Lib.Select — sorting, grouping and dropping repetitions, in order

Three things a program does to a list before and after it works on it, and what each of them is when one
looks at a single element:

* a stable sort commutes with selecting (`filter_insertionSort`), so sorting all and then taking one
  group is sorting the group;
* a `BTreeMap` of lists filled one element after the other holds, by ascending key, the elements with that
  key in their order (`group_eq`);
* keeping an element only if its key was not in the set of keys seen so far keeps exactly the elements
  that repeat none before them (`retain_keepBy`).
-/
import Mathlib.Data.List.Sort
import Mathlib.Data.List.Dedup
import Mathlib.Data.List.Induction

namespace AudioDown.Lib

variable {α κ : Type}

/-! ## Sorting a selection -/

section
variable {r : α → α → Prop} [DecidableRel r] [IsTrans α r]

theorem filter_orderedInsert (p : α → Bool) (a : α) {l : List α} (sorted : l.Pairwise r) :
    (l.orderedInsert r a).filter p =
      if p a then (l.filter p).orderedInsert r a else l.filter p := by
  induction l with
  | nil => cases h : p a <;> simp [h]
  | cons b l ih =>
    rw [List.pairwise_cons] at sorted
    rw [List.orderedInsert_cons]
    split
    · rename_i hab
      cases ha : p a with
      | false => simp [ha]
      | true =>
        -- `a` comes before all of the list, so before what is selected of it
        have hall : ∀ c ∈ (b :: l).filter p, r a c := by
          intro c hc
          rcases List.mem_cons.mp (List.mem_filter.mp hc).1 with rfl | hc'
          · exact hab
          · exact trans_of r hab (sorted.1 c hc')
        rw [List.filter_cons_of_pos (by simpa using ha), if_pos rfl]
        cases hl : (b :: l).filter p with
        | nil => rfl
        | cons c rest =>
          rw [hl] at hall
          rw [List.orderedInsert_cons, if_pos (hall c List.mem_cons_self)]
    · rename_i hab
      rw [List.filter_cons, List.filter_cons, ih sorted.2]
      cases hb : p b <;> cases ha : p a <;> simp [hab]

theorem filter_insertionSort [Std.Total r] (p : α → Bool) (l : List α) :
    (l.insertionSort r).filter p = (l.filter p).insertionSort r := by
  induction l with
  | nil => rfl
  | cons a l ih =>
    rw [List.insertionSort_cons, filter_orderedInsert p a (List.pairwise_insertionSort r l), ih]
    cases h : p a <;> simp [h]

end

/-! ## Grouping -/

section
variable [LinearOrder κ]

/-- `groups.entry(key).or_default().push(x)` -/
def place (k : κ) (x : α) : List (κ × List α) → List (κ × List α)
  | [] => [(k, [x])]
  | (k', xs) :: groups =>
      if k = k' then (k', xs ++ [x]) :: groups
      else if k < k' then (k, [x]) :: (k', xs) :: groups
      else (k', xs) :: place k x groups

def group (key : α → κ) (l : List α) : List (κ × List α) :=
  l.foldl (fun groups x => place (key x) x groups) []

/-- What the map holds. -/
structure Grouped (key : α → κ) (l : List α) (groups : List (κ × List α)) : Prop where
  ascending : (groups.map Prod.fst).Pairwise (· < ·)
  keys : ∀ k, k ∈ groups.map Prod.fst ↔ k ∈ l.map key
  values : ∀ k xs, (k, xs) ∈ groups → xs = l.filter fun x => key x = k

variable {groups : List (κ × List α)} {k k' : κ} {x : α}

theorem mem_keys_place : k' ∈ (place k x groups).map Prod.fst ↔ k' = k ∨ k' ∈ groups.map Prod.fst := by
  induction groups with
  | nil => simp [place]
  | cons entry groups ih =>
    obtain ⟨k₁, xs⟩ := entry
    simp only [place]
    split
    · rename_i h
      subst h
      simp
    · split
      · simp
      · rw [List.map_cons, List.mem_cons, ih, List.map_cons, List.mem_cons]
        exact or_left_comm

theorem ascending_place (h : (groups.map Prod.fst).Pairwise (· < ·)) :
    ((place k x groups).map Prod.fst).Pairwise (· < ·) := by
  induction groups with
  | nil => simp [place]
  | cons entry groups ih =>
    obtain ⟨k₁, xs⟩ := entry
    rw [List.map_cons, List.pairwise_cons] at h
    simp only [place]
    split
    · exact List.pairwise_cons.mpr h
    · split
      · rename_i hlt
        refine List.pairwise_cons.mpr ⟨?_, List.pairwise_cons.mpr h⟩
        intro k₂ hk₂
        rcases List.mem_cons.mp hk₂ with rfl | hk₂'
        · exact hlt
        · exact lt_trans hlt (h.1 k₂ hk₂')
      · rename_i hne hlt
        refine List.pairwise_cons.mpr ⟨?_, ih h.2⟩
        intro k₂ hk₂
        rcases mem_keys_place.mp hk₂ with rfl | hk₂'
        · exact lt_of_le_of_ne (not_lt.mp hlt) (Ne.symm hne)
        · exact h.1 k₂ hk₂'

theorem values_place {xs : List α} (ascending : (groups.map Prod.fst).Pairwise (· < ·))
    (h : (k', xs) ∈ place k x groups) : (k' ≠ k ∧ (k', xs) ∈ groups) ∨
    (k' = k ∧ ∃ ys, (k, ys) ∈ groups ∧ xs = ys ++ [x]) ∨ (k' = k ∧ k ∉ groups.map Prod.fst ∧ xs = [x]) := by
  induction groups with
  | nil =>
    cases List.mem_singleton.mp h
    exact .inr (.inr ⟨rfl, List.not_mem_nil, rfl⟩)
  | cons entry groups ih =>
    obtain ⟨k₁, zs⟩ := entry
    rw [List.map_cons, List.pairwise_cons] at ascending
    simp only [place] at h
    split at h
    · rename_i heq
      subst heq
      rcases List.mem_cons.mp h with heq | hmem
      · cases heq
        exact .inr (.inl ⟨rfl, zs, List.mem_cons_self, rfl⟩)
      · have := ascending.1 k' (List.mem_map_of_mem hmem)
        exact .inl ⟨ne_of_gt this, List.mem_cons_of_mem _ hmem⟩
    · rename_i hne
      split at h
      · rename_i hlt
        -- all keys of the map are above the new one
        have habove : ∀ k₂ ∈ k₁ :: groups.map Prod.fst, k < k₂ := by
          intro k₂ hk₂
          rcases List.mem_cons.mp hk₂ with rfl | hk₂'
          · exact hlt
          · exact lt_trans hlt (ascending.1 k₂ hk₂')
        rcases List.mem_cons.mp h with heq | hmem
        · cases heq
          exact .inr (.inr ⟨rfl, fun hk => lt_irrefl _ (habove _ hk), rfl⟩)
        · exact .inl ⟨ne_of_gt (habove k' (List.mem_map_of_mem (f := Prod.fst) hmem)), hmem⟩
      · rcases List.mem_cons.mp h with heq | hmem
        · cases heq
          exact .inl ⟨Ne.symm hne, List.mem_cons_self⟩
        · rcases ih ascending.2 hmem with ⟨hk, hold⟩ | ⟨hk, ys, hold, hxs⟩ | ⟨hk, hnew, hxs⟩
          · exact .inl ⟨hk, List.mem_cons_of_mem _ hold⟩
          · exact .inr (.inl ⟨hk, ys, List.mem_cons_of_mem _ hold, hxs⟩)
          · refine .inr (.inr ⟨hk, ?_, hxs⟩)
            intro hk'
            rcases List.mem_cons.mp hk' with heq | hin
            · exact hne heq
            · exact hnew hin

theorem Grouped.place {key : α → κ} {l : List α}
    (h : Grouped key l groups) : Grouped key (l ++ [x]) (place (key x) x groups) where
  ascending := ascending_place h.ascending
  keys k := by
    rw [mem_keys_place, h.keys, List.map_append, List.mem_append, List.map_singleton, List.mem_singleton]
    exact or_comm
  values k xs hmem := by
    rw [List.filter_append]
    rcases values_place h.ascending hmem with ⟨hk, hold⟩ | ⟨rfl, ys, hold, rfl⟩ | ⟨rfl, hnew, rfl⟩
    · rw [h.values k xs hold, List.filter_singleton]
      simp [Ne.symm hk]
    · rw [h.values _ ys hold, List.filter_singleton]
      simp
    · have hnone : l.filter (fun y => key y = key x) = [] := by
        rw [List.filter_eq_nil_iff]
        intro y hy
        have hkey : ¬ key y = key x := by
          intro heq
          exact hnew ((h.keys _).mpr (heq ▸ List.mem_map_of_mem hy))
        simpa using hkey
      rw [hnone, List.filter_singleton]
      simp

theorem grouped_group (key : α → κ) (l : List α) : Grouped key l (group key l) := by
  induction l using List.reverseRecOn with
  | nil => exact ⟨List.Pairwise.nil, fun k => Iff.rfl, fun k xs h => nomatch h⟩
  | append_singleton l x ih =>
    rw [group, List.foldl_append]
    exact ih.place

theorem group_eq (key : α → κ) (l : List α) : group key l = ((l.map key).dedup.insertionSort (· ≤ ·)).map
      fun k => (k, l.filter fun x => key x = k) := by
  have h := grouped_group key l
  have hkeys : (group key l).map Prod.fst = (l.map key).dedup.insertionSort (· ≤ ·) := by
    refine List.Perm.eq_of_pairwise' (h.ascending.imp le_of_lt) (List.pairwise_insertionSort _ _) ?_
    refine List.Perm.trans ?_ (List.perm_insertionSort _ _).symm
    refine (List.perm_ext_iff_of_nodup (h.ascending.imp ne_of_lt) (List.nodup_dedup _)).mpr ?_
    intro k
    rw [h.keys, List.mem_dedup]
  rw [← hkeys, List.map_map]
  conv_lhs => rw [← List.map_id (group key l)]
  refine List.map_congr_left ?_
  rintro ⟨k, xs⟩ hmem
  exact Prod.ext rfl (h.values k xs hmem)

end

/-! ## Dropping repetitions -/

section
variable {σ : Type}

/-- `retain` with a predicate that carries a state. -/
def retain (keep : α → σ → Bool × σ) : σ → List α → List α × σ
  | s, [] => ([], s)
  | s, x :: l =>
      let rest := retain keep (keep x s).2 l
      (if (keep x s).1 then x :: rest.1 else rest.1, rest.2)

/-- The elements that repeat none of those before them. -/
def fresh (repeats : α → α → Bool) (before : List α) (l : List α) : List α :=
  (l.zipIdx.filter fun (x, i) => !(before ++ l.take i).any (repeats x)).map Prod.fst

theorem fresh_cons (repeats : α → α → Bool) (before : List α) (x : α) (l : List α) :
    fresh repeats before (x :: l) =
      if before.any (repeats x) then fresh repeats (before ++ [x]) l
      else x :: fresh repeats (before ++ [x]) l := by
  have htail : ((l.zipIdx 1).filter fun (y, i) =>
      !(before ++ (x :: l).take i).any (repeats y)).map Prod.fst = fresh repeats (before ++ [x]) l := by
    rw [fresh, List.zipIdx_succ, List.filter_map, List.map_map]
    congr 1
    refine List.filter_congr ?_
    rintro ⟨y, i⟩ -
    simp
  rw [fresh, List.zipIdx_cons, List.filter_cons]
  cases h : before.any (repeats x) with
  | true => simpa [h] using htail
  | false => simpa [h] using htail

theorem fresh_congr {repeats repeats' : α → α → Bool} {before l : List α}
    (h : ∀ x ∈ l, ∀ y ∈ before ++ l, repeats x y = repeats' x y) :
    fresh repeats before l = fresh repeats' before l := by
  unfold fresh
  congr 1
  refine List.filter_congr ?_
  rintro ⟨x, i⟩ hmem
  have hx := List.fst_mem_of_mem_zipIdx hmem
  have hany : ∀ zs : List α, zs ⊆ before ++ l → zs.any (repeats x) = zs.any (repeats' x) := by
    intro zs hzs
    induction zs with
    | nil => rfl
    | cons z zs ih =>
      rw [List.cons_subset] at hzs
      rw [List.any_cons, List.any_cons, h x hx z hzs.1, ih hzs.2]
  refine congrArg Bool.not (hany (before ++ l.take i) ?_)
  exact List.append_subset.mpr ⟨List.subset_append_left _ _,
    fun y hy => List.mem_append_right _ (List.mem_of_mem_take hy)⟩

variable [DecidableEq κ]

/-- `seen.insert(k)` -/
def insertNew (k : κ) (seen : List κ) : Bool × List κ :=
  if k ∈ seen then (false, seen) else (true, k :: seen)

/-- Keep what has no key, or one that is new. -/
def keepBy (key : α → Option κ) (x : α) (seen : List κ) : Bool × List κ :=
  match key x with
  | none => (true, seen)
  | some k => insertNew k seen

def sameKey (key : α → Option κ) (x y : α) : Bool := (key x).isSome && key y == key x

theorem retain_keepBy (key : α → Option κ) {seen : List κ} {before : List α}
    (l : List α) (h : ∀ k, k ∈ seen ↔ some k ∈ before.map key) :
    (retain (keepBy key) seen l).1 = fresh (sameKey key) before l ∧ ∀ k, k ∈ (retain (keepBy key) seen l).2 ↔
      some k ∈ (before ++ l).map key := by
  induction l generalizing seen before with
  | nil => exact ⟨rfl, by rwa [List.append_nil]⟩
  | cons x l ih =>
    have hany : before.any (sameKey key x) = true ↔ ∃ k, key x = some k ∧ k ∈ seen := by
      simp only [List.any_eq_true, sameKey, Bool.and_eq_true, beq_iff_eq, Option.isSome_iff_exists]
      constructor
      · rintro ⟨y, hy, ⟨k, hk⟩, heq⟩
        exact ⟨k, hk, (h k).mpr (List.mem_map.mpr ⟨y, hy, heq.trans hk⟩)⟩
      · rintro ⟨k, hk, hmem⟩
        obtain ⟨y, hy, heq⟩ := List.mem_map.mp ((h k).mp hmem)
        exact ⟨y, hy, ⟨k, hk⟩, heq.trans hk.symm⟩
    -- the keys seen after `x` are those of what is before the rest
    have hseen : ∀ k, k ∈ (keepBy key x seen).2 ↔ some k ∈ (before ++ [x]).map key := by
      intro k
      simp only [keepBy, insertNew, List.map_append, List.mem_append, ← h, List.map_singleton, List.mem_singleton]
      cases hx : key x with
      | none => simp
      | some k' =>
        by_cases hk' : k' ∈ seen <;> simp [hk']
        · rintro rfl
          exact hk'
        · exact or_comm
    have hkept : (keepBy key x seen).1 = !before.any (sameKey key x) := by
      rw [Bool.eq_iff_iff, Bool.not_eq_true', ← Bool.not_eq_true, hany]
      simp only [keepBy, insertNew]
      cases hx : key x with
      | none => simp
      | some k' => by_cases hk' : k' ∈ seen <;> simp [hk']
    obtain ⟨hrest, hlast⟩ := ih hseen
    constructor
    · rw [fresh_cons, retain, hkept, hrest]
      cases before.any (sameKey key x) <;> rfl
    · intro k
      rw [retain, hlast, List.append_assoc, List.singleton_append]

theorem retain_keepBy_nil (key : α → Option κ) (l : List α) :
    (retain (keepBy key) [] l).1 = fresh (sameKey key) [] l :=
  (retain_keepBy key l fun _ => Iff.rfl.trans (by simp)).1

end

end AudioDown.Lib
