/-
# AudioDown.KeyStore.CrashSafe — any number of calls, dying processes and power losses

The system runs any number of calls of `load_or_create_master_key` on one directory, interleaved between any
two file operations.  A process may die at any point, which closes its descriptors and so releases its lock;
a power loss ends all of them and leaves what was synced and any part of the rest.

`bootstrap_crash_safe` is the law of the key over every such run.  It needs one thing of a power loss: the
entry of the credentials directory is on disk, or there is no key in it yet.  Only the call that has
created the directory syncs that entry, and other calls do not wait for it
(`key_lost_with_its_directory`).
-/
import AudioDown.KeyStore.Call
import AudioDown.Lib.Pool

namespace AudioDown.KeyStore

open Lib

/-! ## The system -/

structure KeyCall where
  /-- none of its operations has failed -/
  clean : Bool
  prog : FileProgram (Except CredentialKeyStoreError MasterKey)

structure KeySystem where
  machine : Machine
  /-- the calls; `none` where the process has died -/
  calls : List (Option KeyCall)
  /-- what calls have returned -/
  returned : List MasterKey

def KeySystem.start : KeySystem := ⟨⟨⟨none, false⟩, none⟩, [], []⟩

inductive KeyLabel where
  | call
  | step (i : Nat) (choice : FileChoice)
  | crash (i : Nat)
  | powerLoss (loss : Loss)

def keyOf : FileProgram (Except CredentialKeyStoreError MasterKey) → List MasterKey
  | .ret (.ok key) => [key]
  | _ => []

/-- `flock` waits until nobody holds the lock. -/
def Machine.enabled (m : Machine) : FileAct → Bool
  | .flock => m.holder.isNone
  | _ => true

def KeySystem.next (inherited : Nat) (s : KeySystem) : KeyLabel → Option KeySystem
  | .call => some { s with calls := s.calls ++ [some ⟨true, loadOrCreateMasterKey.run⟩] }
  | .step i c =>
      match s.calls[i]? with
      | some (some ⟨clean, .act a k⟩) =>
          if s.machine.enabled a then
            some {
              machine := (fileStep inherited i a c s.machine).2
              calls := s.calls.set i (some ⟨clean && !c.failed, k (fileStep inherited i a c s.machine).1⟩)
              returned := s.returned ++ keyOf (k (fileStep inherited i a c s.machine).1) }
          else none
      | _ => none
  | .crash i =>
      match s.calls[i]? with
      | some (some _) =>
          some { s with
            machine.holder := if s.machine.holder = some i then none else s.machine.holder
            calls := s.calls.set i none }
      | _ => none
  | .powerLoss loss =>
      some { s with
        machine := ⟨s.machine.disk.lose inherited loss, none⟩
        calls := s.calls.map fun _ => none }

/-! ## The law -/

def Machine.keyFile (m : Machine) : Option (Nat × List UInt8) :=
  m.disk.dir.bind fun d => d.links.key.map fun ino => (ino, (d.links.files ino).content)

def KeySystem.Running (s : KeySystem) (i : Nat) : Prop :=
  ∃ clean a k, s.calls[i]? = some (some ⟨clean, .act a k⟩)

structure CrashSafe (s : KeySystem) : Prop where
  /-- all calls return the same key -/
  same : ∀ key ∈ s.returned, ∀ key' ∈ s.returned, key = key'
  /-- the key is never a file that was written in part -/
  complete : ∀ file, s.machine.keyFile = some file → file.2.length = masterKeyBytes
  /-- a call whose operations did not fail has returned a key, if it has returned -/
  succeeds : ∀ (i : Nat) r, s.calls[i]? = some (some ⟨true, .ret r⟩) → ∃ key, r = .ok key
  /-- a call can take its next step, unless it waits for a lock that another call holds -/
  proceeds : ∀ (i : Nat) clean a k, s.calls[i]? = some (some ⟨clean, .act a k⟩) →
    s.machine.enabled a = true ∨ ∃ j, j ≠ i ∧ s.machine.holder = some j ∧ s.Running j
  /-- once no call is under way, the next one returns the key, if none of its operations fails -/
  returns : (∀ i, ¬ s.Running i) → ∀ choose : FileAct → FileChoice, (∀ a, (choose a).failed = false) →
    ∃ key : MasterKey,
      (Prog.run (fileStep 0 s.calls.length) choose loadOrCreateMasterKey.run s.machine).1 = .ok key ∧
      ∀ key' ∈ s.returned, key' = key

def Spared (s : KeySystem) : KeyLabel → Prop
  | .powerLoss _ => s.machine.disk.entrySynced = true ∨ s.machine.keyFile = none
  | _ => True

/-! ## The invariant -/

abbrev CallOutline (strict alone : Prop) (i : Nat)
    (p : FileProgram (Except CredentialKeyStoreError MasterKey)) (m : Machine) : Prop :=
  Outline strict alone i (FailedOutside strict alone i) (Obtained alone i) (ExceptT.mk p) m

structure KeySystem.Safe (s : KeySystem) : Prop where
  good : s.machine.Good
  calls : ∀ i call, s.calls[i]? = some (some call) → CallOutline False False i call.prog s.machine ∧
      (call.clean = true → CallOutline True False i call.prog s.machine)
  returned : ∀ key ∈ s.returned, s.machine.Published key
  holder : ∀ i, s.machine.holder = some i → s.Running i

variable {a : FileAct} {c : FileChoice} {file : Nat × List UInt8} {i inherited j : Nat} {label : KeyLabel}
  {loss : Loss} {m : Machine} {moved : Option KeyCall} {s t : KeySystem}

theorem enabled_iff : m.enabled a = true ↔ (a = .flock → m.holder = none) := by
  cases a with
  | flock => simp [Machine.enabled]
  | _ => simp [Machine.enabled]

theorem CallOutline.returned {strict alone : Prop}
    {r : Except CredentialKeyStoreError MasterKey} (h : CallOutline strict alone i (.ret r) m) :
    Outside alone i m ∧ (∀ key, r = .ok key → m.Published key) ∧ (∀ e, r = .error e → ¬ strict) := by
  obtain ⟨ok, error⟩ := Prog.Obeys.returned h
  refine ⟨?_, fun key hr => (ok key hr).2, fun e hr => (error e hr).2⟩
  cases r with
  | ok key => exact (ok key rfl).1
  | error e => exact (error e rfl).1

theorem published_unique {key key' : MasterKey} (h : m.Published key) (h' : m.Published key') : key = key' := by
  obtain ⟨d, ino, hd, hkey, hcontent, _⟩ := h
  obtain ⟨d', ino', hd', hkey', hcontent', _⟩ := h'
  obtain rfl : d = d' := Option.some.inj (hd.symm.trans hd')
  obtain rfl : ino = ino' := Option.some.inj (hkey.symm.trans hkey')
  exact Subtype.ext (hcontent.symm.trans hcontent')

theorem keyFile_eq_some (h : m.keyFile = some file) :
    ∃ d, m.disk.dir = some d ∧ d.links.key = some file.1 ∧ (d.links.files file.1).content = file.2 := by
  obtain ⟨d, hd, h⟩ := Option.bind_eq_some_iff.mp h
  obtain ⟨ino, hino, rfl⟩ := Option.map_eq_some_iff.mp h
  exact ⟨d, hd, hino, rfl⟩

theorem keyFile_of {d : Dir} {ino : Nat} (hd : m.disk.dir = some d)
    (hkey : d.links.key = some ino) : m.keyFile = some (ino, (d.links.files ino).content) := by
  rw [Machine.keyFile, hd, Option.bind_some, hkey, Option.map_some]

/-! ## A step of a call -/

theorem next_step_eq_some (h : s.next inherited (.step i c) = some t) :
    ∃ clean a k, s.calls[i]? = some (some ⟨clean, .act a k⟩) ∧ s.machine.enabled a = true ∧ t = {
        machine := (fileStep inherited i a c s.machine).2
        calls := s.calls.set i (some ⟨clean && !c.failed, k (fileStep inherited i a c s.machine).1⟩)
        returned := s.returned ++ keyOf (k (fileStep inherited i a c s.machine).1) } := by
  simp only [KeySystem.next] at h
  split at h
  · rename_i clean a k hcall
    split at h
    · exact ⟨clean, a, k, hcall, ‹_›, (Option.some.inj h).symm⟩
    · cases h
  · cases h

theorem next_crash_eq_some (h : s.next inherited (.crash i) = some t) : t = { s with
      machine.holder := if s.machine.holder = some i then none else s.machine.holder
      calls := s.calls.set i none } := by
  simp only [KeySystem.next] at h
  split at h
  · exact (Option.some.inj h).symm
  · cases h

theorem getElem?_set_call {calls : List (Option KeyCall)}
    {call : KeyCall} (h : (calls.set i moved)[j]? = some (some call)) :
    (j = i ∧ moved = some call) ∨ (j ≠ i ∧ calls[j]? = some (some call)) := by
  rw [List.getElem?_set] at h
  split at h
  · rename_i heq
    split at h
    · exact .inl ⟨heq.symm, Option.some.inj h⟩
    · cases h
  · rename_i hne
    exact .inr ⟨fun heq => hne heq.symm, h⟩

theorem running_set {machine : Machine} {returned : List MasterKey} (hne : j ≠ i) (h : s.Running j) :
    (⟨machine, s.calls.set i moved, returned⟩ : KeySystem).Running j := by
  obtain ⟨clean, a, k, hcall⟩ := h
  refine ⟨clean, a, k, ?_⟩
  rw [List.getElem?_set_ne (hne.symm)]
  exact hcall

theorem KeySystem.Safe.moves (safe : s.Safe) {clean : Bool}
    {k : a.Resp → FileProgram (Except CredentialKeyStoreError MasterKey)} (c : FileChoice)
    (hcall : s.calls[i]? = some (some ⟨clean, .act a k⟩)) (enabled : s.machine.enabled a = true) :
    s.machine.Moves i (fileStep 0 i a c s.machine).2 :=
  fileStep_moves c safe.good (Prog.Obeys.asserted (safe.calls i _ hcall).1) (enabled_iff.mp enabled)

theorem safe_step (safe : s.Safe) (h : s.next 0 (.step i c) = some t) : t.Safe := by
  obtain ⟨clean, a, k, hcall, enabled, rfl⟩ := next_step_eq_some h
  have moves := safe.moves c hcall enabled
  have ready := enabled_iff.mp enabled
  obtain ⟨outline, strictOutline⟩ := safe.calls i _ hcall
  have after : CallOutline False False i (k (fileStep 0 i a c s.machine).1) (fileStep 0 i a c s.machine).2 :=
    .own outline ⟨ready, False.elim⟩
  refine ⟨moves.good, ?_, ?_, ?_⟩
  · intro j call hj
    obtain ⟨rfl, hmoved⟩ | ⟨hne, hj⟩ := getElem?_set_call hj
    · obtain rfl := Option.some.inj hmoved
      refine ⟨after, fun hclean => ?_⟩
      obtain ⟨hclean, hfailed⟩ := Bool.and_eq_true_iff.mp hclean
      exact .own (strictOutline hclean) ⟨ready, fun _ => Bool.not_eq_true' _ |>.mp hfailed⟩
    · obtain ⟨other, strictOther⟩ := safe.calls j call hj
      have leaves : Others False j s.machine (fileStep 0 i a c s.machine).2 :=
        ⟨moves.leaves hne, False.elim⟩
      exact ⟨.background other leaves,
        fun hclean => .background (strictOther hclean) leaves⟩
  · intro key hkey
    obtain hkey | hkey := List.mem_append.mp hkey
    · exact (safe.returned key hkey).kept moves.dir
    · generalize k (fileStep 0 i a c s.machine).1 = rest at after hkey
      match rest, hkey, after with
      | .ret (.ok key'), hkey, after =>
        obtain rfl := List.mem_singleton.mp hkey
        exact after.returned.2.1 key rfl
  · intro j hj
    by_cases hij : j = i
    · -- a call that still holds the lock has not returned
      subst hij
      have lt := (List.getElem?_eq_some_iff.mp hcall).1
      cases hrest : k (fileStep 0 j a c s.machine).1 with
      | ret r =>
        rw [hrest] at after
        exact absurd hj after.returned.1.holder
      | act a' k' =>
        refine ⟨clean && !c.failed, a', k', ?_⟩
        rw [List.getElem?_set_self lt]
    · refine running_set hij (safe.holder j ?_)
      exact ((moves.leaves hij).holder).mp hj

/-! ## A process dies -/

theorem safe_crash (safe : s.Safe) (h : s.next 0 (.crash i) = some t) : t.Safe := by
  obtain rfl := next_crash_eq_some h
  have leaves : ∀ j, j ≠ i → Others False j s.machine { s.machine with
      holder := if s.machine.holder = some i then none else s.machine.holder } := by
    intro j hne
    refine ⟨⟨safe.good, fun d hd => ⟨d, hd, .refl (safe.good d hd)⟩, ?_⟩, False.elim⟩
    by_cases heq : s.machine.holder = some i
    · simp [heq, Ne.symm hne]
    · simp [heq]
  refine ⟨safe.good, ?_, safe.returned, ?_⟩
  · intro j call hj
    obtain ⟨_, hmoved⟩ | ⟨hne, hj⟩ := getElem?_set_call hj
    · cases hmoved
    · obtain ⟨other, strictOther⟩ := safe.calls j call hj
      exact ⟨.background other (leaves j hne),
        fun hclean => .background (strictOther hclean) (leaves j hne)⟩
  · intro j hj
    have hne : j ≠ i := by
      rintro rfl
      by_cases heq : s.machine.holder = some j
      · simp [heq] at hj
      · simp [heq] at hj
    exact running_set hne (safe.holder j ((leaves j hne).1.holder.mp hj))

/-! ## A power loss -/

theorem Links.Good.lose {l : Links} (good : l.Good) (loss : Loss) (keySynced : Bool) :
    (l.lose loss keySynced).Good := by
  have key : ∀ ino, (l.lose loss keySynced).key = some ino → l.key = some ino := by
    intro ino h
    simp only [Links.lose] at h
    split at h
    · exact h
    · cases h
  have file : ∀ ino, l.key = some ino → (l.lose loss keySynced).files ino = l.files ino := fun ino h =>
    if_pos (good.synced ino h)
  refine ⟨?_, ?_, fun ino h => good.key ino (key ino h), ?_⟩
  · intro ino h
    rw [file ino (key ino h)]
    exact good.complete ino (key ino h)
  · intro ino h
    rw [file ino (key ino h)]
    exact good.synced ino (key ino h)
  · intro ino h
    exact of_decide_eq_true (Option.filter_eq_some_iff.mp h).2

theorem Dir.Good.lose {d : Dir} (good : d.Good) (loss : Loss) : (d.lose 0 loss).Good := by
  refine ⟨?_, good.links.lose loss d.keySynced⟩
  show (if loss.oldMode then credentialsDirectoryMode + 0 else d.mode) = _
  split
  · rfl
  · exact good.mode

theorem lose_dir {disk : Disk} {d' : Dir} (h : (disk.lose 0 loss).dir = some d') :
    ∃ d, disk.dir = some d ∧ d' = d.lose 0 loss := by
  unfold Disk.lose at h
  split at h
  · obtain ⟨d, hd, rfl⟩ := Option.map_eq_some_iff.mp h
    exact ⟨d, hd, rfl⟩
  · cases h

theorem Machine.Good.lose {m : Machine} (good : m.Good) (loss : Loss) :
    (⟨m.disk.lose 0 loss, none⟩ : Machine).Good := by
  intro d' h
  obtain ⟨d, hd, rfl⟩ := lose_dir h
  exact (good d hd).lose loss

theorem Machine.Published.lose {m : Machine} {key : MasterKey} (good : m.Good)
    (h : m.Published key) (entry : m.disk.entrySynced = true) (loss : Loss) :
    (⟨m.disk.lose 0 loss, none⟩ : Machine).Published key := by
  obtain ⟨d, ino, hd, hkey, hcontent, hsynced⟩ := h
  have hdisk : (m.disk.lose 0 loss).dir = some (d.lose 0 loss) := by
    simp [Disk.lose, entry, hd]
  have hkey' : (d.lose 0 loss).links.key = some ino := by
    show (if d.keySynced || loss.key then d.links.key else none) = _
    rw [hsynced, Bool.true_or, if_pos rfl, hkey]
  refine ⟨d.lose 0 loss, ino, hdisk, hkey', ?_, ?_⟩
  · show (if (d.links.files ino).synced then d.links.files ino else _).content = _
    rw [if_pos ((good d hd).links.synced ino hkey)]
    exact hcontent
  · show (d.lose 0 loss).links.key.isSome = true
    rw [hkey']
    rfl

theorem safe_powerLoss (safe : s.Safe) (spared : Spared s (.powerLoss loss)) : KeySystem.Safe { s with
      machine := ⟨s.machine.disk.lose 0 loss, none⟩
      calls := s.calls.map fun _ => none } := by
  refine ⟨safe.good.lose loss, ?_, ?_, nofun⟩
  · intro i call h
    rw [List.getElem?_map] at h
    obtain ⟨_, _, h⟩ := Option.map_eq_some_iff.mp h
    cases h
  · intro key hkey
    have published := safe.returned key hkey
    obtain entry | nokey := spared
    · exact published.lose safe.good entry loss
    · obtain ⟨d, ino, hd, hino, _⟩ := published
      exact nomatch (keyFile_of hd hino).symm.trans nokey

/-! ## Every run -/

theorem safe_call (safe : s.Safe) :
    KeySystem.Safe { s with calls := s.calls ++ [some ⟨true, loadOrCreateMasterKey.run⟩] } := by
  have old : ∀ i, i < s.calls.length → (s.calls ++ [some ⟨true, loadOrCreateMasterKey.run⟩])[i]? = s.calls[i]? :=
    fun i h => List.getElem?_append_left h
  have fresh : s.machine.holder ≠ some s.calls.length := by
    intro h
    obtain ⟨clean, a, k, hcall⟩ := safe.holder _ h
    exact absurd (List.getElem?_eq_some_iff.mp hcall).1 (Nat.lt_irrefl _)
  refine ⟨safe.good, ?_, safe.returned, ?_⟩
  · intro i call h
    by_cases hi : i < s.calls.length
    · exact safe.calls i call ((old i hi).symm.trans h)
    · have hlt := (List.getElem?_eq_some_iff.mp h).1
      rw [List.length_append, List.length_singleton] at hlt
      obtain rfl : i = s.calls.length := by omega
      rw [List.getElem?_concat_length] at h
      obtain rfl := Option.some.inj (Option.some.inj h)
      have outside : Outside False s.calls.length s.machine := ⟨safe.good, fresh, False.elim⟩
      exact ⟨loadOrCreateMasterKey_outline outside, fun _ => loadOrCreateMasterKey_outline outside⟩
  · intro i hi
    obtain ⟨clean, a, k, hcall⟩ := safe.holder i hi
    exact ⟨clean, a, k, (old i (List.getElem?_eq_some_iff.mp hcall).1).trans hcall⟩

theorem safe_start : KeySystem.start.Safe where
  good := nofun
  calls _ _ h := nomatch h
  returned := nofun
  holder := nofun

theorem safe_next (safe : s.Safe) (spared : Spared s label) (h : s.next 0 label = some t) : t.Safe := by
  cases label with
  | call =>
    obtain rfl := Option.some.inj h
    exact safe_call safe
  | step i c => exact safe_step safe h
  | crash i => exact safe_crash safe h
  | powerLoss loss =>
    obtain rfl := Option.some.inj h
    exact safe_powerLoss safe spared

theorem safe_of_run {labels : List KeyLabel}
    (run : Run (KeySystem.next 0) Spared KeySystem.start labels s) : s.Safe :=
  run.invariant (fun _ _ _ safe spared h => safe_next safe spared h) safe_start

/-! ## What follows -/

theorem KeySystem.Safe.crashSafe (safe : s.Safe) : CrashSafe s where
  same key hkey key' hkey' := published_unique (safe.returned key hkey) (safe.returned key' hkey')
  complete file h := by
    obtain ⟨d, hd, hkey, hcontent⟩ := keyFile_eq_some h
    rw [← hcontent]
    exact (safe.good d hd).links.complete _ hkey
  succeeds i r h := by
    have outline := (safe.calls i _ h).2 rfl
    cases r with
    | ok key => exact ⟨key, rfl⟩
    | error e => exact absurd trivial (outline.returned.2.2 e rfl)
  proceeds i clean a k h := by
    cases hholder : s.machine.holder with
    | none => exact .inl (enabled_iff.mpr fun _ => hholder)
    | some j =>
      by_cases hij : j = i
      · -- the holder of the lock does not ask for it again
        subst hij
        refine .inl (enabled_iff.mpr fun hflock => ?_)
        exact absurd hholder ((Prog.Obeys.asserted (safe.calls j _ h).1).free hflock).1
      · exact .inr ⟨j, hij, rfl, safe.holder j hholder⟩
  returns idle choose works := by
    have free : s.machine.holder = none := by
      cases hholder : s.machine.holder with
      | none => rfl
      | some j => exact absurd (safe.holder j hholder) (idle j)
    have outside : Outside True s.calls.length s.machine := ⟨safe.good, free ▸ nofun, fun _ => free⟩
    have outline : CallOutline True True s.calls.length loadOrCreateMasterKey.run s.machine :=
      loadOrCreateMasterKey_outline outside
    have can : ∀ a t, Allowed True s.calls.length a t → Ready True a (choose a) t := fun a t allowed =>
      ⟨fun h => (allowed.free h).2 trivial, fun _ => works a⟩
    obtain ⟨ok, error⟩ := outline.run can
    cases hresult : (Prog.run (fileStep 0 s.calls.length) choose loadOrCreateMasterKey.run s.machine).1 with
    | error e => exact absurd trivial (error e hresult).2
    | ok key =>
      refine ⟨key, rfl, fun key' hkey' => ?_⟩
      -- the keys that were returned before are still there at the end of the call
      have kept := Prog.Obeys.run_keeps (A := fun t => t.Good ∧ t.Published key') outline can
        (fun a t allowed ht =>
          have moves := fileStep_moves (choose a) ht.1 allowed fun h => (allowed.free h).2 trivial
          ⟨moves.good, ht.2.kept moves.dir⟩)
        ⟨safe.good, safe.returned key' hkey'⟩
      exact published_unique kept.2 (ok key hresult).2

/-- A key stays the file it is; only a power loss can take it away, before any call has returned it. -/
theorem KeySystem.Safe.key_stays (safe : s.Safe) (spared : Spared s label) (h : s.next 0 label = some t)
    (hfile : s.machine.keyFile = some file) : t.machine.keyFile = some file ∨
      (∃ loss, label = .powerLoss loss) ∧ t.machine.keyFile = none ∧ s.returned = [] := by
  obtain ⟨d, hd, hkey, hcontent⟩ := keyFile_eq_some hfile
  cases label with
  | call =>
    obtain rfl := Option.some.inj h
    exact .inl hfile
  | step i c =>
    obtain ⟨clean, a, k, hcall, enabled, rfl⟩ := next_step_eq_some h
    obtain ⟨d', hd', moves⟩ := (safe.moves c hcall enabled).dir d hd
    obtain ⟨hkey', hfile'⟩ := moves.key _ hkey
    refine .inl ((keyFile_of hd' hkey').trans ?_)
    rw [hfile', hcontent]
  | crash i =>
    obtain rfl := next_crash_eq_some h
    exact .inl hfile
  | powerLoss loss =>
    obtain rfl := Option.some.inj h
    have entry : s.machine.disk.entrySynced = true :=
      spared.resolve_right fun hnone => nomatch hfile.symm.trans hnone
    have hd' : (s.machine.disk.lose 0 loss).dir = some (d.lose 0 loss) := by simp [Disk.lose, entry, hd]
    have content : ((d.lose 0 loss).links.files file.1) = d.links.files file.1 :=
      if_pos ((safe.good d hd).links.synced _ hkey)
    cases hkept : (d.keySynced || loss.key) with
    | true =>
      have hkey' : (d.lose 0 loss).links.key = some file.1 :=
        (if_pos hkept).trans hkey
      refine .inl ((keyFile_of hd' hkey').trans ?_)
      rw [content, hcontent]
    | false =>
      have hkey' : (d.lose 0 loss).links.key = none := if_neg (by simp [hkept])
      refine .inr ⟨⟨loss, rfl⟩, ?_, ?_⟩
      · show (s.machine.disk.lose 0 loss).dir.bind _ = _
        rw [hd', Option.bind_some, hkey', Option.map_none]
      · -- a key that was returned is durable
        cases hreturned : s.returned with
        | nil => rfl
        | cons key _ =>
          obtain ⟨d', _, hd₀, _, _, hsynced⟩ := safe.returned key (by simp [hreturned])
          obtain rfl : d = d' := Option.some.inj (hd.symm.trans hd₀)
          simp [hsynced] at hkept

/-! ## The law over every run -/

/-- As long as no power loss takes a credentials directory with a key in it whose entry was not synced, the
key is what the calls agree on. -/
theorem bootstrap_crash_safe {labels : List KeyLabel} {s : KeySystem}
    (run : Run (KeySystem.next 0) Spared KeySystem.start labels s) : CrashSafe s ∧
      ∀ label t, Spared s label → s.next 0 label = some t → ∀ file, s.machine.keyFile = some file →
        t.machine.keyFile = some file ∨
          (∃ loss, label = .powerLoss loss) ∧ t.machine.keyFile = none ∧ s.returned = [] := by
  have safe := safe_of_run run
  exact ⟨safe.crashSafe, fun label t spared h file hfile => safe.key_stays spared h hfile⟩

namespace Demo

def zeroKey : MasterKey := ⟨List.replicate 32 0, rfl⟩

def oneKey : MasterKey := ⟨List.replicate 32 1, rfl⟩

/-- An operation of call `i` that does not fail; the random bytes are `key`. -/
def quick (i : Nat) (key : MasterKey) : KeyLabel := .step i ⟨false, 31, key⟩

def bare : Loss := ⟨false, false, true, none, false, fun _ => []⟩

/-- A call creates the directory and the key, the power fails, and the next call loads the key. -/
def restarted : List KeyLabel :=
  [.call] ++ List.replicate 30 (quick 0 zeroKey) ++ [.powerLoss bare, .call] ++
    List.replicate 19 (quick 1 oneKey)

/-- A first call has created the directory and not yet synced its entry.  A second call creates the key and
returns it.  Then the power fails, and a third call creates another key. -/
def overtaken : List KeyLabel :=
  [.call, quick 0 zeroKey, .call] ++ List.replicate 27 (quick 1 zeroKey) ++
    [.powerLoss bare, .call] ++ List.replicate 30 (quick 2 oneKey)

def spares (s : KeySystem) : KeyLabel → Bool
  | .powerLoss _ => s.machine.disk.entrySynced
  | _ => true

theorem spares_sound (s : KeySystem) (label : KeyLabel) (h : spares s label = true) : Spared s label := by
  cases label with
  | powerLoss loss => exact .inl h
  | _ => trivial

end Demo

theorem key_survives_power_loss : ∃ s, Run (KeySystem.next 0) Spared KeySystem.start Demo.restarted s ∧
    s.returned = [Demo.zeroKey, Demo.zeroKey] ∧ CrashSafe s := by
  have h : (Demo.restarted.foldlM (Run.checked (KeySystem.next 0) Demo.spares) KeySystem.start).map
      KeySystem.returned = some [Demo.zeroKey, Demo.zeroKey] := by decide +kernel
  obtain ⟨s, hs, hreturned⟩ := Option.map_eq_some_iff.mp h
  have run := Run.of_checked Demo.spares_sound hs
  exact ⟨s, run, hreturned, (bootstrap_crash_safe run).1⟩

theorem key_lost_with_its_directory :
    ∃ s, Run (KeySystem.next 0) (fun _ _ => True) KeySystem.start Demo.overtaken s ∧ ¬ CrashSafe s := by
  have h : (Demo.overtaken.foldlM (KeySystem.next 0) KeySystem.start).map
      KeySystem.returned = some [Demo.zeroKey, Demo.oneKey] := by decide +kernel
  obtain ⟨s, hs, hreturned⟩ := Option.map_eq_some_iff.mp h
  refine ⟨s, Run.of_foldlM hs, fun safe => ?_⟩
  have same := safe.same Demo.zeroKey (by simp [hreturned]) Demo.oneKey (by simp [hreturned])
  exact absurd same (by decide)

end AudioDown.KeyStore
