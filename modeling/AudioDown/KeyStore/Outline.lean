/-
# AudioDown.KeyStore.Outline — rules for outlines of `load_or_create_master_key`

The call is outside the lock, where it knows the directory and then the lock file, or inside, where it knows
the files and links exactly (`Inside`): nobody else edits them.  An outline serves three readings.  With
`strict` the call's own operations do not fail, and then it returns a key; with `alone` there is no other
call, and then it finds the lock free.
-/
import AudioDown.KeyStore.Exclusion
import AudioDown.Lib.Rely

namespace AudioDown.KeyStore

open Lib
open Lib.Prog (StableUnder)

variable (strict alone : Prop) (i : Nat)

def Ready (a : FileAct) (c : FileChoice) (m : Machine) : Prop :=
  (a = .flock → m.holder = none) ∧ (strict → c.failed = false)

def Others (m m' : Machine) : Prop := Leaves i m m' ∧ (alone → m' = m)

/-- An outline of a part of call `i`. -/
abbrev Outline {α : Type} (E : Machine → Prop) (Q : α → Machine → Prop) (x : KeyM α) (m : Machine) : Prop :=
  Secures (fileStep 0 i) (Ready strict) (Others alone i) (Allowed alone i) E Q x m

/-! ## Assertions -/

structure Outside (m : Machine) : Prop where
  good : m.Good
  holder : m.holder ≠ some i
  free : alone → m.holder = none

/-- The directory is there, and the lock file if `lock`. -/
def Known (lock : Bool) (m : Machine) : Prop :=
  Outside alone i m ∧ ∃ d, m.disk.dir = some d ∧ (lock = true → d.lockFile = true)

/-- The call holds the lock and knows the files and links.  If `durable`, the key is there for good. -/
structure Inside (durable : Bool) (l : Links) (m : Machine) : Prop where
  good : m.Good
  holder : m.holder = some i
  dir : ∃ d, m.disk.dir = some d ∧ d.lockFile = true ∧ d.links = l ∧
    (durable = true → l.key.isSome = true ∧ d.keySynced = true)

def FailedOutside (m : Machine) : Prop := Outside alone i m ∧ ¬ strict

def FailedInside (m : Machine) : Prop := (∃ l, Inside i false l m) ∧ ¬ strict

def Found (key : MasterKey) (m : Machine) : Prop :=
  ∃ l ino, Inside i true l m ∧ l.key = some ino ∧ (l.files ino).content = key.val

def Obtained (key : MasterKey) (m : Machine) : Prop := Outside alone i m ∧ m.Published key

variable {strict alone i}

theorem outside_stable : StableUnder (Others alone i) (Outside alone i) := by
  rintro m m' h ⟨leaves, same⟩
  exact ⟨leaves.good, fun heq => h.holder (leaves.holder.mp heq), fun ha => same ha ▸ h.free ha⟩

theorem known_stable (lock : Bool) : StableUnder (Others alone i) (Known alone i lock) := by
  rintro m m' ⟨out, d, hd, hlock⟩ others
  obtain ⟨d', hd', moves⟩ := others.1.dir d hd
  exact ⟨outside_stable m m' out others, d', hd', fun h => moves.lockFile (hlock h)⟩

theorem inside_stable (durable : Bool) (l : Links) : StableUnder (Others alone i) (Inside i durable l) := by
  rintro m m' ⟨_, holder, d, hd, hlock, hlinks, hkey⟩ others
  obtain ⟨d', hd', moves⟩ := others.1.dir d hd
  refine ⟨others.1.good, others.1.holder.mpr holder, d', hd', moves.lockFile hlock, ?_, ?_⟩
  · exact (moves.links fun h => h holder).trans hlinks
  · intro h
    exact ⟨(hkey h).1, moves.keySynced (hlinks ▸ (hkey h).1) (hkey h).2⟩

theorem failedOutside_stable : StableUnder (Others alone i) (FailedOutside strict alone i) :=
  outside_stable.and (.const _)

theorem failedInside_stable : StableUnder (Others alone i) (FailedInside strict i) :=
  (StableUnder.any (inside_stable false)).and (.const _)

theorem found_stable (key : MasterKey) : StableUnder (Others alone i) (Found i key) :=
  .any fun l => .any fun _ => (inside_stable true l).and (.const _)

theorem obtained_stable (key : MasterKey) : StableUnder (Others alone i) (Obtained alone i key) := by
  rintro m m' ⟨out, published⟩ others
  exact ⟨outside_stable m m' out others, published.kept others.1.dir⟩

theorem Inside.forget {durable : Bool} {l : Links} {m : Machine} (h : Inside i durable l m) :
    Inside i false l m := by
  obtain ⟨good, holder, d, hd, hlock, hlinks, _⟩ := h
  exact ⟨good, holder, d, hd, hlock, hlinks, fun h => (nomatch h)⟩

theorem Inside.links_good {durable : Bool} {l : Links} {m : Machine} (h : Inside i durable l m) : l.Good := by
  obtain ⟨good, _, d, hd, _, hlinks, _⟩ := h
  exact hlinks ▸ (good d hd).links

/-! ## Rules -/

section
variable {α : Type} {E : Machine → Prop} {Q : α → Machine → Prop} {m : Machine}

variable {A : Machine → Prop} {a : FileAct} {d d' : Dir} {durable lock lock' : Bool}
  {error : CredentialKeyStoreError} {l : Links} {t : Machine}
  {k : a.Resp → FileProgram (Except CredentialKeyStoreError α)}

theorem file_act (stable : StableUnder (Others alone i) A) (hm : A m) (hne : a ≠ .unlock)
    (allowed : ∀ t, A t → Allowed alone i a t)
    (failed : ∀ t, A t → ¬ strict → Outline strict alone i E Q (ExceptT.mk (k (.error .other))) t)
    (done : ∀ t c, A t → Outline strict alone i E Q (ExceptT.mk (k (t.perform 0 i c a).1))
      (t.perform 0 i c a).2) : Outline strict alone i E Q (ExceptT.mk (.act a k)) m := by
  refine .act stable hm fun t ht => ⟨allowed t ht, fun c ready => ?_⟩
  cases hfailed : c.failed with
  | true =>
    rw [fileStep_of_failed hne hfailed]
    exact failed t ht fun h => nomatch (ready.2 h).symm.trans hfailed
  | false =>
    rw [fileStep_of_not_failed hfailed]
    exact done t c ht

theorem local_act (stable : StableUnder (Others alone i) A) (hm : A m) (isLocal : a.isLocal = true)
    (located : ∀ t, A t → Allowed alone i a t ∧ ∃ d, t.disk.dir = some d)
    (failed : ∀ t, A t → ¬ strict → Outline strict alone i E Q (ExceptT.mk (k (.error .other))) t)
    (done : ∀ t d c, A t → t.disk.dir = some d → Outline strict alone i E Q (ExceptT.mk (k (d.exec c a).1))
        { t with disk.dir := some (d.exec c a).2 }) :
    Outline strict alone i E Q (ExceptT.mk (.act a k)) m := by
  have hne : a ≠ .unlock := by
    rintro rfl
    cases isLocal
  refine file_act stable hm hne (fun t ht => (located t ht).1) failed fun t c ht => ?_
  obtain ⟨_, d, hd⟩ := located t ht
  rw [Machine.perform_local isLocal hd]
  exact done t d c ht hd

theorem ensure_holds {condition : Bool} (stable : StableUnder (Others alone i) A) (h : condition = true)
    (hm : A m) : Outline strict alone i E (fun _ => A) (ensure condition error) m := by
  subst h
  exact .pure stable hm

/-! ### Outside the lock -/

theorem allowed_outside (edits : a.edits = false) (hne : a ≠ .unlock)
    (hflock : a ≠ .flock) (fits : ∀ l, a.Fits l) : Allowed alone i a t where
  holds h := by
    obtain h | h := h
    · exact nomatch edits.symm.trans h
    · exact absurd h hne
  fits d _ := fits d.links
  free h := absurd h hflock

theorem Known.after (h : Known alone i lock t) (hd : t.disk.dir = some d) (good : d.Good → d'.Good)
    (hlock : (lock = true → d.lockFile = true) → lock' = true → d'.lockFile = true) :
    Known alone i lock' { t with disk.dir := some d' } := by
  obtain ⟨⟨goodMachine, holder, free⟩, d₀, hd₀, hlock₀⟩ := h
  obtain rfl : d = d₀ := Option.some.inj (hd.symm.trans hd₀)
  refine ⟨⟨?_, holder, free⟩, d', rfl, hlock hlock₀⟩
  rintro d'' ⟨⟩
  exact good (goodMachine d hd)

/-- An operation outside the lock that always succeeds if it does not fail, and edits no file. -/
theorem known_need {Value : a.Value → Prop} (isLocal : a.isLocal = true)
    (edits : a.edits = false) (hm : Known alone i lock m)
    (exec : ∀ (d : Dir) (c : FileChoice), d.Good → (lock = true → d.lockFile = true) →
      ∃ value, (d.exec c a).1 = .ok value ∧ Value value ∧ (lock' = true → (d.exec c a).2.lockFile = true)) :
    Outline strict alone i (FailedOutside strict alone i) (fun value t => Value value ∧
      Known alone i lock' t) (need a error) m := by
  have fits : ∀ l, a.Fits l := by
    intro l
    cases a with
    | write | linkKey => cases edits
    | _ => trivial
  refine local_act (known_stable lock) hm isLocal (fun t ht => ⟨?_, ?_⟩) ?_ ?_
  · refine allowed_outside edits ?_ ?_ fits
    · rintro rfl
      cases isLocal
    · rintro rfl
      cases isLocal
  · exact ⟨ht.2.choose, ht.2.choose_spec.1⟩
  · exact fun t ht hstrict => .throw failedOutside_stable ⟨ht.1, hstrict⟩
  · intro t d c ht hd
    obtain ⟨out, d₀, hd₀, hlock⟩ := id ht
    obtain rfl : d = d₀ := Option.some.inj (hd.symm.trans hd₀)
    have good := out.good d hd
    obtain ⟨value, hvalue, hV, hlock'⟩ := exec d c good hlock
    rw [hvalue]
    refine Secures.pure ((StableUnder.const _).and (known_stable lock')) ⟨hV, ?_⟩
    exact ht.after hd (fun good => (Dir.exec_moves good (fits _) c).good) fun _ => hlock'

/-! ### Inside the lock -/

/-- The operations on files and links, `linkKey` apart. -/
def FileAct.onLinks : FileAct → Bool
  | .statPending | .unlinkPending | .statKey | .openKey | .fillBytes | .createPending | .chmodFile _
  | .statFile _ | .write .. | .syncFile _ | .readFile _ => true
  | _ => false

theorem Dir.exec_onLinks (onLinks : a.onLinks = true) (c : FileChoice) (d : Dir) :
    d.exec c a = ((d.links.exec c a).1, { d with links := (d.links.exec c a).2 }) := by
  cases a with
  | statPending | unlinkPending | statKey | openKey | fillBytes | createPending | chmodFile | statFile
  | write | syncFile | readFile => rfl
  | _ => cases onLinks

theorem FileAct.isLocal_of_onLinks (h : a.onLinks = true) : a.isLocal = true := by
  cases a with
  | mkdir | syncData | flock | unlock => cases h
  | _ => rfl

theorem allowed_inside
    (h : Inside i durable l t) (fits : a.Fits l) (hflock : a ≠ .flock) : Allowed alone i a t where
  holds _ := h.holder
  fits d hd := by
    obtain ⟨d', hd', _, hlinks, _⟩ := h.dir
    obtain rfl : d = d' := Option.some.inj (hd.symm.trans hd')
    exact hlinks ▸ fits
  free hflock' := absurd hflock' hflock

theorem Inside.after {durable' : Bool} {edits : Prop}
    (h : Inside i durable l t) (hd : t.disk.dir = some d) (moves : d.Moves edits d')
    (hdurable : durable' = true → d'.links.key.isSome = true ∧ d'.keySynced = true) :
    Inside i durable' d'.links { t with disk.dir := some d' } := by
  obtain ⟨_, holder, d₀, hd₀, hlock, _, _⟩ := h
  obtain rfl : d = d₀ := Option.some.inj (hd.symm.trans hd₀)
  refine ⟨?_, holder, d', rfl, moves.lockFile hlock, rfl, hdurable⟩
  rintro d'' ⟨⟩
  exact moves.good

theorem inside_act (onLinks : a.onLinks = true) (fits : a.Fits l)
    (hm : Inside i durable l m) (failed : ∀ t, Inside i durable l t → ¬ strict →
      Outline strict alone i E Q (ExceptT.mk (k (.error .other))) t) (done : ∀ t c,
      Inside i durable (l.exec c a).2 t → Outline strict alone i E Q (ExceptT.mk (k (l.exec c a).1)) t) :
    Outline strict alone i E Q (ExceptT.mk (.act a k)) m := by
  have hflock : a ≠ .flock := by
    rintro rfl
    cases onLinks
  refine local_act (inside_stable durable l) hm (FileAct.isLocal_of_onLinks onLinks)
    (fun t ht => ⟨allowed_inside ht fits hflock, ht.dir.choose, ht.dir.choose_spec.1⟩) failed ?_
  intro t d c ht hd
  obtain ⟨good, _, d₀, hd₀, _, hlinks, hkey⟩ := id ht
  obtain rfl : d = d₀ := Option.some.inj (hd.symm.trans hd₀)
  subst hlinks
  have moves := Dir.exec_moves (good d hd) fits c
  rw [Dir.exec_onLinks onLinks] at moves ⊢
  refine done _ c (ht.after hd moves fun h => ?_)
  obtain ⟨ino, hino⟩ := Option.isSome_iff_exists.mp (hkey h).1
  exact ⟨Option.isSome_iff_exists.mpr ⟨ino, (moves.key ino hino).1⟩, (hkey h).2⟩

theorem inside_need (onLinks : a.onLinks = true) (fits : a.Fits l)
    (hm : Inside i durable l m) (succeeds : ∀ c, ∃ value, (l.exec c a).1 = .ok value) :
    Outline strict alone i (FailedInside strict i) (fun value t => ∃ c, (l.exec c a).1 = .ok value ∧
      Inside i durable (l.exec c a).2 t) (need a error) m := by
  refine inside_act onLinks fits hm ?_ ?_
  · exact fun t ht hstrict => .throw failedInside_stable ⟨⟨l, ht.forget⟩, hstrict⟩
  · intro t c ht
    obtain ⟨value, hvalue⟩ := succeeds c
    rw [hvalue]
    exact Secures.pure (.any fun c => (StableUnder.const _).and (inside_stable durable _)) ⟨c, hvalue, ht⟩

theorem inside_then {α : Type} {Q : α → Machine → Prop} {f : a.Value → KeyM α} (onLinks : a.onLinks = true)
    (fits : a.Fits l) (hm : Inside i durable l m) (succeeds : ∀ c, ∃ value, (l.exec c a).1 = .ok value)
    (hf : ∀ value t c, (l.exec c a).1 = .ok value → Inside i durable (l.exec c a).2 t →
      Outline strict alone i (FailedInside strict i) Q (f value) t) :
    Outline strict alone i (FailedInside strict i) Q (need a error >>= f) m := by
  refine .bind failedInside_stable (inside_need onLinks fits hm succeeds) fun value t h => ?_
  obtain ⟨c, hvalue, ht⟩ := h
  exact hf value t c hvalue ht

theorem inside_sync (hm : Inside i durable l m) :
    Outline strict alone i (FailedInside strict i) (fun _ => Inside i l.key.isSome l)
      (need .syncDir error) m := by
  refine local_act (inside_stable durable l) hm rfl
    (fun t ht => ⟨allowed_inside ht trivial nofun, ht.dir.choose, ht.dir.choose_spec.1⟩) ?_ ?_
  · exact fun t ht hstrict => .throw failedInside_stable ⟨⟨l, ht.forget⟩, hstrict⟩
  · intro t d c ht hd
    obtain ⟨good, _, d₀, hd₀, _, hlinks, _⟩ := id ht
    obtain rfl : d = d₀ := Option.some.inj (hd.symm.trans hd₀)
    subst hlinks
    refine .pure (inside_stable _ _) ?_
    exact ht.after hd (Dir.exec_moves (a := .syncDir) (good d hd) trivial c) fun h => ⟨h, h⟩

theorem inside_statLock (hm : Inside i durable l m) : Outline strict alone i (FailedInside strict i)
      (fun stat t => stat = ⟨masterKeyFileMode, 1, 0⟩ ∧ Inside i durable l t) (need .statLock error) m := by
  refine local_act (inside_stable durable l) hm rfl
    (fun t ht => ⟨allowed_inside ht trivial nofun, ht.dir.choose, ht.dir.choose_spec.1⟩) ?_ ?_
  · exact fun t ht hstrict => .throw failedInside_stable ⟨⟨l, ht.forget⟩, hstrict⟩
  · intro t d c ht hd
    obtain ⟨good, _, d₀, hd₀, hlock, hlinks, hkey⟩ := id ht
    obtain rfl : d = d₀ := Option.some.inj (hd.symm.trans hd₀)
    subst hlinks
    have hexec : d.exec c .statLock = (.ok ⟨masterKeyFileMode, 1, 0⟩, d) := by
      simp only [Dir.exec, hlock, if_true]
    rw [hexec]
    refine Secures.pure ((StableUnder.const _).and (inside_stable _ _)) ⟨rfl, ?_⟩
    exact ht.after hd (.refl (good d hd) : d.Moves False d) hkey

end

end AudioDown.KeyStore
