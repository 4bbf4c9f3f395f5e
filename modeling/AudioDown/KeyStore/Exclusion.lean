/-
# AudioDown.KeyStore.Exclusion — what the calls do to each other

A call edits the files and links only while it holds the lock, writes to no file that is the key, and links
only a complete, synced file as the key (`Allowed`).  Then whatever it does is a `Moves`: the directory
stays good, a key that is there stays what it is, and the files and links stay the same unless the call
holds the lock.  For any other call that `Leaves` everything it relies on.
-/
import AudioDown.KeyStore.Bootstrap

namespace AudioDown.KeyStore

/-! ## A good directory -/

/-- The key is a complete file on disk; the files in use have been created. -/
structure Links.Good (l : Links) : Prop where
  complete : ∀ ino, l.key = some ino → (l.files ino).content.length = masterKeyBytes
  synced : ∀ ino, l.key = some ino → (l.files ino).synced = true
  key : ∀ ino, l.key = some ino → ino < l.fresh
  pending : ∀ ino, l.pending = some ino → ino < l.fresh

structure Dir.Good (d : Dir) : Prop where
  mode : d.mode = credentialsDirectoryMode
  links : d.links.Good

def Machine.Good (m : Machine) : Prop := ∀ d, m.disk.dir = some d → d.Good

def Machine.Published (key : MasterKey) (m : Machine) : Prop :=
  ∃ d ino, m.disk.dir = some d ∧ d.links.key = some ino ∧ (d.links.files ino).content = key.val ∧
    d.keySynced = true

theorem Dir.new_good : (Dir.new 0).Good where
  mode := rfl
  links := ⟨fun _ h => (nomatch h), fun _ h => (nomatch h), fun _ h => (nomatch h),
    fun _ h => (nomatch h)⟩

/-! ## Operations on files and links -/

def FileAct.edits : FileAct → Bool
  | .unlinkPending | .linkKey | .createPending | .write .. | .syncFile _ => true
  | _ => false

/-- When an operation may be issued: the key is not written to, and only a complete file is linked. -/
def FileAct.Fits : FileAct → Links → Prop
  | .write ino _, l => l.key ≠ some ino
  | .linkKey, l => ∀ ino, l.pending = some ino →
      (l.files ino).content.length = masterKeyBytes ∧ (l.files ino).synced = true
  | _, _ => True

def Links.KeyKept (l l' : Links) : Prop :=
  ∀ ino, l.key = some ino → l'.key = some ino ∧ l'.files ino = l.files ino

theorem Links.KeyKept.refl (l : Links) : l.KeyKept l := fun _ h => ⟨h, rfl⟩

variable {a : FileAct} {alone : Prop} {c : FileChoice} {d : Dir} {i inherited : Nat} {m m' : Machine}

theorem Links.exec_of_not_edits (h : a.edits = false) (c : FileChoice) (l : Links) : (l.exec c a).2 = l := by
  cases a with
  | statPending => rw [exec]; split <;> rfl
  | statKey => rw [exec]; split <;> rfl
  | openKey => rw [exec]; split <;> rfl
  | unlinkPending | linkKey | createPending | write | syncFile => cases h
  | _ => rfl

/-- The operations that edit nothing keep everything; those that do are gone through one by one. -/
theorem Links.exec_keeps {l : Links} (good : l.Good) (fits : a.Fits l) (c : FileChoice) :
    (l.exec c a).2.Good ∧ l.KeyKept (l.exec c a).2 := by
  cases a with
  | unlinkPending =>
    rw [exec]
    cases l.pending with
    | none => exact ⟨good, .refl l⟩
    | some ino =>
      exact ⟨⟨good.complete, good.synced, good.key, fun _ h => (nomatch h)⟩, fun _ h => ⟨h, rfl⟩⟩
  | linkKey =>
    rw [exec]
    cases hpending : l.pending with
    | none => exact ⟨good, .refl l⟩
    | some pending =>
      cases hkey : l.key with
      | some key => exact ⟨good, .refl l⟩
      | none =>
        have whole := fits pending hpending
        have pendingGood := good.pending
        rw [hpending] at pendingGood
        refine ⟨⟨?_, ?_, ?_, pendingGood⟩, fun _ h => nomatch hkey.symm.trans h⟩
        · rintro ino ⟨⟩
          exact whole.1
        · rintro ino ⟨⟩
          exact whole.2
        · rintro ino ⟨⟩
          exact good.pending _ hpending
  | createPending =>
    rw [exec]
    cases l.pending with
    | some ino => exact ⟨good, .refl l⟩
    | none =>
      have other : ∀ ino, l.key = some ino →
          Function.update l.files l.fresh ⟨[], false⟩ ino = l.files ino := fun ino h =>
        Function.update_of_ne (Nat.ne_of_lt (good.key ino h)) _ _
      refine ⟨⟨?_, ?_, ?_, ?_⟩, fun ino h => ⟨h, other ino h⟩⟩
      · intro ino h
        exact (congrArg (·.content.length) (other ino h)).trans (good.complete ino h)
      · intro ino h
        exact (congrArg (·.synced) (other ino h)).trans (good.synced ino h)
      · exact fun ino h => Nat.lt_succ_of_lt (good.key ino h)
      · rintro ino ⟨⟩
        exact Nat.lt_succ_self _
  | write written bytes =>
    have other : ∀ ino, l.key = some ino → (l.exec c (.write written bytes)).2.files ino = l.files ino :=
      fun ino h => Function.update_of_ne (fun heq : ino = written => fits (heq ▸ h)) _ _
    refine ⟨⟨?_, ?_, good.key, good.pending⟩, fun ino h => ⟨h, other ino h⟩⟩
    · intro ino h
      exact (congrArg (·.content.length) (other ino h)).trans (good.complete ino h)
    · intro ino h
      exact (congrArg (·.synced) (other ino h)).trans (good.synced ino h)
  | syncFile written =>
    -- the key is synced already, so syncing it again changes nothing
    have other : ∀ ino, l.key = some ino → (l.exec c (.syncFile written)).2.files ino = l.files ino := by
      intro ino h
      show Function.update l.files written ⟨(l.files written).content, true⟩ ino = _
      by_cases heq : ino = written
      · subst heq
        rw [Function.update_self, ← good.synced ino h]
      · exact Function.update_of_ne heq _ _
    refine ⟨⟨?_, ?_, good.key, good.pending⟩, fun ino h => ⟨h, other ino h⟩⟩
    · intro ino h
      exact (congrArg (·.content.length) (other ino h)).trans (good.complete ino h)
    · intro ino h
      exact (congrArg (·.synced) (other ino h)).trans (good.synced ino h)
  | _ =>
    rw [exec_of_not_edits rfl]
    exact ⟨good, .refl l⟩

/-! ## Operations in the directory -/

/-- What an operation does to the directory.  `edits` says whether it may change files and links. -/
structure Dir.Moves (edits : Prop) (d d' : Dir) : Prop where
  good : d'.Good
  lockFile : d.lockFile = true → d'.lockFile = true
  key : d.links.KeyKept d'.links
  keySynced : d.links.key.isSome → d.keySynced = true → d'.keySynced = true
  links : ¬ edits → d'.links = d.links

theorem Dir.Moves.refl {edits : Prop} (good : d.Good) : d.Moves edits d :=
  ⟨good, id, .refl _, fun _ => id, fun _ => rfl⟩

theorem Dir.exec_moves (good : d.Good) (fits : a.Fits d.links) (c : FileChoice) :
    d.Moves (a.edits = true) (d.exec c a).2 := by
  -- the operations on files and links leave the rest of the directory alone
  have onLinks : d.Moves (a.edits = true) { d with links := (d.links.exec c a).2 } := by
    obtain ⟨goodLinks, kept⟩ := Links.exec_keeps good.links fits c
    exact ⟨⟨good.mode, goodLinks⟩, id, kept, fun _ => id,
      fun h => Links.exec_of_not_edits (Bool.eq_false_iff.mpr h) c d.links⟩
  cases a with
  | chmodDir => exact ⟨⟨rfl, good.links⟩, id, .refl _, fun _ => id, fun _ => rfl⟩
  | syncDir => exact ⟨⟨good.mode, good.links⟩, id, .refl _, fun h _ => h, fun _ => rfl⟩
  | createLock =>
    rw [exec]
    split
    · exact .refl good
    · exact ⟨⟨good.mode, good.links⟩, fun _ => rfl, .refl _, fun _ => id, fun _ => rfl⟩
  | openLock =>
    rw [exec]
    split <;> exact .refl good
  | statLock =>
    rw [exec]
    split <;> exact .refl good
  | linkKey =>
    obtain ⟨⟨mode, goodLinks⟩, lockFile, kept, _, links⟩ := onLinks
    refine ⟨⟨mode, goodLinks⟩, lockFile, kept, fun h hsynced => ?_, links⟩
    exact Bool.and_eq_true_iff.mpr ⟨hsynced, h⟩
  | openDir | statDir | chmodLock | syncLock => exact .refl good
  | mkdir | syncData | flock | unlock | statPending | unlinkPending | statKey | openKey | fillBytes
  | createPending | chmodFile | statFile | write | syncFile | readFile => exact onLinks

/-! ## Operations of a call -/

def FileAct.isLocal : FileAct → Bool
  | .mkdir | .syncData | .flock | .unlock => false
  | _ => true

theorem Machine.perform_local (isLocal : a.isLocal = true) (hd : m.disk.dir = some d) :
    m.perform inherited i c a = ((d.exec c a).1, { m with disk.dir := some (d.exec c a).2 }) := by
  cases a with
  | mkdir | syncData | flock | unlock => cases isLocal
  | _ => simp only [perform, hd]

theorem Machine.perform_nowhere (isLocal : a.isLocal = true) (hd : m.disk.dir = none) :
    m.perform inherited i c a = (.error .noent, m) := by
  cases a with
  | mkdir | syncData | flock | unlock => cases isLocal
  | _ => simp only [perform, hd]

theorem fileStep_of_not_failed (h : c.failed = false) :
    fileStep inherited i a c m = m.perform inherited i c a := by
  cases a with
  | unlock => rfl
  | _ => simp [fileStep, h]

theorem fileStep_of_failed (hne : a ≠ .unlock) (h : c.failed = true) :
    fileStep inherited i a c m = (.error .other, m) := by
  cases a with
  | unlock => exact absurd rfl hne
  | _ => simp [fileStep, h]

/-- What call `i` does to the machine. -/
structure Machine.Moves (i : Nat) (m m' : Machine) : Prop where
  good : m'.Good
  dir : ∀ d, m.disk.dir = some d → ∃ d', m'.disk.dir = some d' ∧ d.Moves (m.holder = some i) d'
  holder : m'.holder = m.holder ∨ (m.holder = none ∧ m'.holder = some i) ∨
    (m.holder = some i ∧ m'.holder = none)

/-- When call `i` may issue an operation.  It does not ask for a lock it holds; a call that runs alone finds
the lock free. -/
structure Allowed (alone : Prop) (i : Nat) (a : FileAct) (m : Machine) : Prop where
  holds : a.edits = true ∨ a = .unlock → m.holder = some i
  fits : ∀ d, m.disk.dir = some d → a.Fits d.links
  free : a = .flock → m.holder ≠ some i ∧ (alone → m.holder = none)

theorem Machine.Moves.refl (good : m.Good) : m.Moves i m :=
  ⟨good, fun d h => ⟨d, h, .refl (good d h)⟩, .inl rfl⟩

theorem Machine.Moves.of_disk_eq (good : m.Good) (disk : m'.disk.dir = m.disk.dir)
    (holder : m'.holder = m.holder ∨ (m.holder = none ∧ m'.holder = some i) ∨
      (m.holder = some i ∧ m'.holder = none)) : m.Moves i m' :=
  ⟨fun d h => good d (disk ▸ h), fun d h => ⟨d, disk.trans h, .refl (good d h)⟩, holder⟩

theorem Machine.Moves.in_dir {d' : Dir} (dir : m.disk.dir = some d)
    (moves : d.Moves (m.holder = some i) d') : m.Moves i { m with disk.dir := some d' } := by
  refine ⟨?_, ?_, .inl rfl⟩
  · rintro d'' ⟨⟩
    exact moves.good
  · intro d'' h
    obtain rfl : d = d'' := Option.some.inj (dir.symm.trans h)
    exact ⟨d', rfl, moves⟩

theorem Machine.perform_moves (c : FileChoice) (good : m.Good) (allowed : Allowed alone i a m)
    (enabled : a = .flock → m.holder = none) : m.Moves i (m.perform 0 i c a).2 := by
  have inDir : ∀ d, m.disk.dir = some d → m.Moves i { m with disk.dir := some (d.exec c a).2 } := by
    intro d hd
    obtain ⟨goodDir, lockFile, key, keySynced, links⟩ :=
      Dir.exec_moves (good d hd) (allowed.fits d hd) c
    exact .in_dir hd ⟨goodDir, lockFile, key, keySynced,
      fun h => links fun edits => h (allowed.holds (.inl edits))⟩
  cases a with
  | mkdir =>
    rw [perform]
    cases hd : m.disk.dir with
    | some d => exact .refl good
    | none =>
      refine ⟨?_, fun d h => (nomatch hd.symm.trans h), .inl rfl⟩
      rintro d ⟨⟩
      exact Dir.new_good
  | syncData => exact .of_disk_eq good rfl (.inl rfl)
  | flock => exact .of_disk_eq good rfl (.inr (.inl ⟨enabled rfl, rfl⟩))
  | unlock => exact .of_disk_eq good rfl (.inr (.inr ⟨allowed.holds (.inr rfl), rfl⟩))
  | _ =>
    cases hd : m.disk.dir with
    | none =>
      rw [perform_nowhere rfl hd]
      exact .refl good
    | some d =>
      rw [perform_local rfl hd]
      exact inDir d hd

theorem fileStep_moves (c : FileChoice) (good : m.Good) (allowed : Allowed alone i a m)
    (enabled : a = .flock → m.holder = none) : m.Moves i (fileStep 0 i a c m).2 := by
  have performed := Machine.perform_moves c good allowed enabled
  cases hfailed : c.failed with
  | false =>
    rw [fileStep_of_not_failed hfailed]
    exact performed
  | true =>
    by_cases hunlock : a = .unlock
    · subst hunlock
      exact performed
    · rw [fileStep_of_failed hunlock hfailed]
      exact .refl good

/-! ## What another call relies on -/

/-- What a step of another call leaves to call `i`. -/
structure Leaves (i : Nat) (m m' : Machine) : Prop where
  good : m'.Good
  dir : ∀ d, m.disk.dir = some d → ∃ d', m'.disk.dir = some d' ∧ d.Moves (m.holder ≠ some i) d'
  holder : m'.holder = some i ↔ m.holder = some i

/-- What one call does leaves to every other what it relies on: the lock has one holder. -/
theorem Machine.Moves.leaves {j : Nat} (moves : m.Moves i m') (hne : j ≠ i) : Leaves j m m' := by
  refine ⟨moves.good, ?_, ?_⟩
  · intro d hd
    obtain ⟨d', hd', good, lockFile, key, keySynced, links⟩ := moves.dir d hd
    refine ⟨d', hd', good, lockFile, key, keySynced, fun h => links fun heq => h fun hj => ?_⟩
    exact hne (Option.some.inj (hj.symm.trans heq))
  · obtain heq | ⟨hnone, hsome⟩ | ⟨hsome, hnone⟩ := moves.holder
    · rw [heq]
    · simp [hnone, hsome, hne.symm]
    · simp [hnone, hsome, hne.symm]

theorem Machine.Published.kept {key : MasterKey} {edits : Prop}
    (dir : ∀ d, m.disk.dir = some d → ∃ d', m'.disk.dir = some d' ∧ d.Moves edits d') (h : m.Published key) :
    m'.Published key := by
  obtain ⟨d, ino, hd, hkey, hcontent, hsynced⟩ := h
  obtain ⟨d', hd', moves⟩ := dir d hd
  obtain ⟨hkey', hfile⟩ := moves.key ino hkey
  exact ⟨d', ino, hd', hkey', hfile ▸ hcontent, moves.keySynced (hkey ▸ rfl) hsynced⟩

end AudioDown.KeyStore
