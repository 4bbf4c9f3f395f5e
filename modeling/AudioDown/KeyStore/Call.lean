/-
# AudioDown.KeyStore.Call — the outline of `load_or_create_master_key`

Method by method, from the directory to the key (`loadOrCreateMasterKey_outline`).  A call that returns a key
has it durable in its directory; a call whose operations do not fail returns a key.
-/
import AudioDown.KeyStore.Outline

namespace AudioDown.KeyStore

open Lib
open Lib.Prog (StableUnder)

variable {strict alone : Prop} {i : Nat} {m : Machine}

/-! ## Outside the lock -/

theorem createCredentialsDirectory_outline (hm : Outside alone i m) :
    Outline strict alone i (FailedOutside strict alone i) (fun _ => Known alone i false)
      createCredentialsDirectory m := by
  refine file_act outside_stable hm nofun (fun t _ => allowed_outside rfl nofun nofun fun _ => trivial)
    (fun t ht hstrict => .throw failedOutside_stable ⟨ht, hstrict⟩) fun t c ht => ?_
  rw [Machine.perform]
  cases hd : t.disk.dir with
  | some d => exact .pure (known_stable false) ⟨ht, d, hd, fun h => absurd h (by decide)⟩
  | none =>
    refine .pure (known_stable false) ⟨⟨?_, ht.holder, ht.free⟩, .new 0, rfl, fun h => absurd h (by decide)⟩
    rintro d ⟨⟩
    exact Dir.new_good

theorem syncData_outline {lock : Bool} (hm : Known alone i lock m) :
    Outline strict alone i (FailedOutside strict alone i) (fun _ => Known alone i lock)
      (need .syncData .ioError) m :=
  file_act (known_stable lock) hm nofun (fun _ _ => allowed_outside rfl nofun nofun fun _ => trivial)
    (fun _ ht hstrict => .throw failedOutside_stable ⟨ht.1, hstrict⟩) fun _ _ ht =>
      .pure (known_stable lock) ⟨⟨ht.1.good, ht.1.holder, ht.1.free⟩, ht.2⟩

variable {error : CredentialKeyStoreError} {ino : Nat} {l : Links}

theorem known_done {a : FileAct} {lock lock' : Bool} (isLocal : a.isLocal = true) (edits : a.edits = false)
    (hm : Known alone i lock m) (exec : ∀ (d : Dir) (c : FileChoice), (lock = true → d.lockFile = true) →
      ∃ value, (d.exec c a).1 = .ok value ∧ (lock' = true → (d.exec c a).2.lockFile = true)) :
    Outline strict alone i (FailedOutside strict alone i) (fun _ => Known alone i lock')
      (need a error) m := by
  have outline : Outline strict alone i (FailedOutside strict alone i)
      (fun _ t => True ∧ Known alone i lock' t) (need a error) m := by
    refine known_need isLocal edits hm fun d c _ hlock => ?_
    obtain ⟨value, hvalue, hlock'⟩ := exec d c hlock
    exact ⟨value, hvalue, trivial, hlock'⟩
  exact outline.weaken (fun _ _ h => h.2) fun _ h => h

theorem openCredentialsDirectory_outline (hm : Outside alone i m) :
    Outline strict alone i (FailedOutside strict alone i) (fun _ => Known alone i false)
      openCredentialsDirectory m := by
  refine .bind failedOutside_stable (createCredentialsDirectory_outline hm) fun created t ht => ?_
  refine .bind failedOutside_stable (Q := fun _ => Known alone i false)
    (known_done rfl rfl ht fun d c _ => ⟨(), rfl, nofun⟩) fun _ t ht => ?_
  refine .bind failedOutside_stable (Q := fun _ => Known alone i false) ?_ fun _ t ht => ?_
  · cases created with
    | true => exact known_done rfl rfl ht fun d c _ => ⟨(), rfl, nofun⟩
    | false => exact .pure (known_stable false) ht
  refine .bind failedOutside_stable (Q := fun mode t => mode = credentialsDirectoryMode ∧ Known alone i false
    t) (known_need rfl rfl ht fun d c good _ => ⟨d.mode, rfl, good.mode, nofun⟩) fun mode t ht => ?_
  refine .bind failedOutside_stable (Q := fun _ => Known alone i false)
    (ensure_holds (known_stable false) (decide_eq_true ht.1) ht.2) fun _ t ht => ?_
  cases created with
  | false => exact .pure (known_stable false) ht
  | true =>
    refine .bind failedOutside_stable (Q := fun _ => Known alone i false)
      (known_done rfl rfl ht fun d c _ => ⟨(), rfl, nofun⟩) fun _ t ht => ?_
    exact syncData_outline ht

theorem openLockFile_outline (hm : Known alone i false m) :
    Outline strict alone i (FailedOutside strict alone i) (fun _ => Known alone i true) openLockFile m := by
  refine local_act (known_stable false) hm rfl (fun t ht => ⟨allowed_outside rfl nofun nofun fun _ => trivial,
    ht.2.choose, ht.2.choose_spec.1⟩) (fun t ht hstrict => .throw failedOutside_stable ⟨ht.1, hstrict⟩) ?_
  intro t d c ht hd
  rw [Dir.exec]
  cases hlock : d.lockFile with
  | true =>
    -- another call has created the lock file
    have known : Known alone i true { t with disk.dir := some d } :=
      ht.after hd id fun _ _ => hlock
    exact known_done rfl rfl known fun d c h => ⟨(), by simp [Dir.exec, h rfl], by simp [Dir.exec, h rfl]⟩
  | false =>
    have known : Known alone i true { t with disk.dir := some { d with lockFile := true } } :=
      ht.after hd (fun good => ⟨good.mode, good.links⟩) fun _ _ => rfl
    refine .bind failedOutside_stable (known_done rfl rfl known fun d c h => ⟨(), rfl, h⟩) fun _ t ht => ?_
    refine .bind failedOutside_stable (known_done rfl rfl ht fun d c h => ⟨(), rfl, h⟩) fun _ t ht => ?_
    exact known_done rfl rfl ht fun d c h => ⟨(), rfl, h⟩

theorem validateLock_outside (hm : Known alone i true m) :
    Outline strict alone i (FailedOutside strict alone i) (fun _ => Known alone i true) validateLock m := by
  refine .bind failedOutside_stable
    (Q := fun stat t => stat = ⟨masterKeyFileMode, 1, 0⟩ ∧ Known alone i true t) ?_ fun stat t ht => ?_
  · exact known_need rfl rfl hm fun d c _ h => ⟨_, by simp [Dir.exec, h rfl], rfl, by simp [Dir.exec, h rfl]⟩
  · exact ensure_holds (known_stable true) (by rw [ht.1]; rfl) ht.2

theorem flock_outline (hm : Known alone i true m) :
    Outline strict alone i (FailedOutside strict alone i) (fun _ t => ∃ l,
      Inside i false l t) (need .flock .ioError) m := by
  refine file_act (known_stable true) hm nofun (fun t ht => ⟨?_, fun _ _ => trivial, fun _ =>
    ⟨ht.1.holder, ht.1.free⟩⟩) (fun t ht hstrict => .throw failedOutside_stable ⟨ht.1, hstrict⟩) fun t c ht => ?_
  · rintro (h | h) <;> cases h
  · obtain ⟨out, d, hd, hlock⟩ := ht
    exact .pure (.any (inside_stable false)) ⟨d.links, out.good, rfl, d, hd, hlock rfl, rfl, nofun⟩

/-! ## Inside the lock -/

theorem validateLock_inside (hm : Inside i false l m) :
    Outline strict alone i (FailedInside strict i) (fun _ => Inside i false l) validateLock m :=
  .bind failedInside_stable (inside_statLock hm) fun _ _ ht =>
    ensure_holds (inside_stable false l) (by rw [ht.1]; rfl) ht.2

theorem validateLockEntry_outline (hm : Inside i false l m) :
    Outline strict alone i (FailedInside strict i) (fun _ => Inside i false l) validateLockEntry m := by
  refine .bind failedInside_stable (inside_statLock hm) fun path t hpath => ?_
  refine .bind failedInside_stable (inside_statLock hpath.2) fun opened t hopened => ?_
  exact ensure_holds (inside_stable false l) (by rw [hpath.1, hopened.1]; rfl) hopened.2

theorem cleanupPendingKey_outline (hm : Inside i false l m) :
    Outline strict alone i (FailedInside strict i) (fun _ => Inside i false { l with pending := none })
      cleanupPendingKey m := by
  refine inside_act rfl trivial hm
    (fun t ht hstrict => .throw failedInside_stable ⟨⟨l, ht⟩, hstrict⟩) fun t c ht => ?_
  rw [Links.exec] at ht ⊢
  cases hpending : l.pending with
  | none =>
    rw [hpending] at ht
    refine .pure (inside_stable false _) ?_
    rwa [← hpending]
  | some ino =>
    rw [hpending] at ht
    refine .bind failedInside_stable (ensure_holds (inside_stable false l) rfl ht) fun _ t ht => ?_
    refine inside_then rfl trivial ht (fun c => ⟨(), by rw [Links.exec, hpending]⟩) fun _ t c _ ht => ?_
    rw [Links.exec, hpending] at ht
    exact (inside_sync ht).weaken (fun _ _ h => h.forget) fun _ h => h

theorem Links.nlink_key (hpending : l.pending = none) (hkey : l.key = some ino) : l.nlink ino = 1 := by
  simp [nlink, hpending, hkey]

theorem validateMasterKeyMetadata_outline {durable : Bool} (hm : Inside i durable l m)
    (hpending : l.pending = none) (hkey : l.key = some ino) :
    Outline strict alone i (FailedInside strict i) (fun _ => Inside i durable l)
      (validateMasterKeyMetadata (l.stat ino)) m := by
  refine .bind failedInside_stable
    (ensure_holds (inside_stable durable l) (decide_eq_true (Links.nlink_key hpending hkey)) hm)
    fun _ t ht => ?_
  exact ensure_holds (inside_stable durable l) rfl ht

theorem loadMasterKey_outline (hm : Inside i true l m) (hpending : l.pending = none)
    (hkey : l.key = some ino) : Outline strict alone i (FailedInside strict i) (Found i) loadMasterKey m := by
  have statKey : ∀ c, l.exec c .statKey = (.ok (l.stat ino), l) := fun c => by rw [Links.exec, hkey]
  have openKey : ∀ c, l.exec c .openKey = (.ok ino, l) := fun c => by rw [Links.exec, hkey]
  refine inside_then rfl trivial hm (fun c => ⟨_, congrArg Prod.fst (openKey c)⟩) fun key t c hkey' ht => ?_
  rw [openKey] at hkey' ht
  obtain rfl : ino = key := Except.ok.inj hkey'
  refine inside_then rfl trivial ht (fun c => ⟨_, rfl⟩) fun stat t c hstat ht => ?_
  obtain rfl : l.stat ino = stat := Except.ok.inj hstat
  refine .bind failedInside_stable (validateMasterKeyMetadata_outline ht hpending hkey) fun _ t ht => ?_
  refine inside_then rfl trivial ht (fun c => ⟨_, congrArg Prod.fst (statKey c)⟩) fun path t c hpath ht => ?_
  rw [statKey] at hpath ht
  obtain rfl : l.stat ino = path := Except.ok.inj hpath
  refine inside_then rfl trivial ht (fun c => ⟨_, rfl⟩) fun opened t c hopened ht => ?_
  obtain rfl : l.stat ino = opened := Except.ok.inj hopened
  refine .bind failedInside_stable (ensure_holds (inside_stable true l) (decide_eq_true rfl) ht) fun _ t ht => ?_
  refine inside_then rfl trivial ht (fun c => ⟨_, rfl⟩) fun bytes t c hbytes ht => ?_
  obtain rfl : (l.files ino).content = bytes := Except.ok.inj hbytes
  have complete : (l.files ino).content.length = masterKeyBytes := ht.links_good.complete ino hkey
  rw [dif_pos complete]
  exact .pure (found_stable _) ⟨l, ino, ht, hkey, rfl⟩

/-! ## A new key -/

/-- A pending file that nobody has linked as the key. -/
structure Links.Pending (ino : Nat) (content : List UInt8) (l : Links) : Prop where
  pending : l.pending = some ino
  key : l.key = none
  content : (l.files ino).content = content

theorem writeAll_outline {written : List UInt8} (rounds : Nat) (bytes : List UInt8)
    (enough : bytes.length ≤ rounds) (hm : Inside i false l m) (hl : l.Pending ino written) :
    Outline strict alone i (FailedInside strict i) (fun _ t => ∃ l', l'.Pending ino (written ++ bytes) ∧
      Inside i false l' t) (writeAll ino rounds bytes) m := by
  have stable : ∀ whole, StableUnder (Others alone i)
      fun t => ∃ l' : Links, l'.Pending ino whole ∧ Inside i false l' t :=
    fun _ => .any fun _ => (StableUnder.const _).and (inside_stable false _)
  induction rounds generalizing bytes l m written with
  | zero =>
    obtain rfl := List.length_eq_zero_iff.mp (Nat.le_zero.mp enough)
    rw [List.append_nil]
    exact .pure (stable _) ⟨l, hl, hm⟩
  | succ rounds ih =>
    cases bytes with
    | nil =>
      rw [List.append_nil]
      exact .pure (stable _) ⟨l, hl, hm⟩
    | cons byte bytes =>
      have unlinked : l.key ≠ some ino := fun h => nomatch hl.key.symm.trans h
      refine inside_then rfl unlinked hm (fun c => ⟨_, rfl⟩) fun count t c hcount ht => ?_
      obtain rfl : min (c.short + 1) (byte :: bytes).length = count := Except.ok.inj hcount
      have positive : min (c.short + 1) (byte :: bytes).length ≠ 0 := by
        simp only [List.length_cons]
        omega
      rw [if_neg positive]
      have rest : (written ++ (byte :: bytes).take (c.short + 1)) ++
          (byte :: bytes).drop (min (c.short + 1) (byte :: bytes).length) = written ++ byte :: bytes := by
        rw [List.append_assoc, List.take_eq_take_min, List.take_append_drop]
      have shorter : ((byte :: bytes).drop (min (c.short + 1) (byte :: bytes).length)).length ≤ rounds := by
        rw [List.length_drop]
        simp only [List.length_cons] at enough positive ⊢
        omega
      rw [← rest]
      refine ih _ shorter ht ⟨hl.pending, hl.key, ?_⟩
      show (Function.update l.files ino _ ino).content = _
      rw [Function.update_self, hl.content]

theorem preparePendingKey_outline (keyBytes : MasterKey) (hm : Inside i false l m) (hl : l.Pending ino []) :
    Outline strict alone i (FailedInside strict i) (fun _ t => ∃ l', (l'.Pending ino keyBytes.val ∧
      (l'.files ino).synced = true) ∧ Inside i false l' t) (preparePendingKey ino keyBytes) m := by
  have single : l.nlink ino = 1 := by simp [Links.nlink, hl.pending, hl.key]
  refine inside_then rfl trivial hm (fun c => ⟨_, rfl⟩) fun _ t c _ ht => ?_
  refine inside_then rfl trivial ht (fun c => ⟨_, rfl⟩) fun stat t c hstat ht => ?_
  obtain rfl : l.stat ino = stat := Except.ok.inj hstat
  refine .bind failedInside_stable
    (ensure_holds (inside_stable false l) (by simp [Links.stat, single]) ht) fun _ t ht => ?_
  refine .bind failedInside_stable
    (writeAll_outline masterKeyBytes keyBytes.val (Nat.le_of_eq keyBytes.property) ht hl)
    fun _ t hwritten => ?_
  obtain ⟨l, hl, ht⟩ := hwritten
  refine inside_then rfl trivial ht (fun c => ⟨_, rfl⟩) fun _ t c _ ht => ?_
  have synced : ((l.exec c (.syncFile ino)).2.files ino) = ⟨(l.files ino).content, true⟩ :=
    Function.update_self ..
  have pending : (l.exec c (.syncFile ino)).2.Pending ino keyBytes.val :=
    ⟨hl.pending, hl.key, (congrArg File.content synced).trans hl.content⟩
  exact .weaken (inside_sync ht) (fun _ t ht => ⟨_, ⟨pending, congrArg File.synced synced⟩, ht.forget⟩)
    fun _ h => h

theorem cleanupCreatedPending_outline (hm : FailedInside strict i m) :
    Outline strict alone i (FailedInside strict i) (fun _ => FailedInside strict i)
      cleanupCreatedPending m := by
  obtain ⟨⟨l, hm⟩, hstrict⟩ := hm
  refine inside_act rfl trivial hm (fun t ht _ => .throw failedInside_stable ⟨⟨l, ht⟩, hstrict⟩) fun t c ht => ?_
  have synced : Outline strict alone i (FailedInside strict i) (fun _ => FailedInside strict i)
      (need .syncDir .ioError) t :=
    .weaken (inside_sync ht) (fun _ t ht => ⟨⟨_, ht.forget⟩, hstrict⟩) fun _ h => h
  rw [Links.exec]
  cases l.pending with
  | none => exact synced
  | some ino => exact synced

theorem cleanup_and_throw {α : Type} {Q : α → Machine → Prop} (hm : FailedInside strict i m) :
    Outline strict alone i (FailedInside strict i) Q (cleanupCreatedPending >>= fun _ => throw error) m :=
  .bind failedInside_stable (cleanupCreatedPending_outline hm) fun _ _ ht =>
    .throw failedInside_stable ht

theorem preparePendingOrClean_outline (keyBytes : MasterKey)
    (hm : Inside i false l m) (hl : l.Pending ino []) : Outline strict alone i (FailedInside strict i)
      (fun _ t => ∃ l', (l'.Pending ino keyBytes.val ∧ (l'.files ino).synced = true) ∧ Inside i false l' t)
      (preparePendingOrClean ino keyBytes) m := by
  refine Prog.Obeys.bind (preparePendingKey_outline keyBytes hm hl) fun r t hr => ?_
  cases r with
  | ok =>
    exact Secures.pure (.any fun l' => (StableUnder.const _).and (inside_stable false l')) (hr.1 () rfl)
  | error e => exact cleanup_and_throw (hr.2 e rfl)

theorem validatePublishedKey_outline (hm : Inside i true l m)
    (hpending : l.pending = none) (hkey : l.key = some ino) :
    Outline strict alone i (FailedInside strict i) (fun _ => Inside i true l)
      (validatePublishedKey ino) m := by
  have statKey : ∀ c, l.exec c .statKey = (.ok (l.stat ino), l) := fun c => by rw [Links.exec, hkey]
  refine inside_then rfl trivial hm (fun c => ⟨_, congrArg Prod.fst (statKey c)⟩)
    fun published t c hpublished ht => ?_
  rw [statKey] at hpublished ht
  obtain rfl : l.stat ino = published := Except.ok.inj hpublished
  refine inside_then rfl trivial ht (fun c => ⟨_, rfl⟩) fun opened t c hopened ht => ?_
  obtain rfl : l.stat ino = opened := Except.ok.inj hopened
  refine .bind failedInside_stable (validateMasterKeyMetadata_outline ht hpending hkey) fun _ t ht => ?_
  exact ensure_holds (inside_stable true l) (decide_eq_true rfl) ht

/-- Nobody else can have linked the key, so the link succeeds unless the operation fails. -/
theorem publishKey_outline {keyBytes : MasterKey} (hm : Inside i false l m)
    (hl : l.Pending ino keyBytes.val) (synced : (l.files ino).synced = true) :
    Outline strict alone i (FailedInside strict i) (Found i) (publishKey ino keyBytes) m := by
  have fits : FileAct.linkKey.Fits l := by
    intro ino' hpending
    obtain rfl : ino = ino' := Option.some.inj (hl.pending.symm.trans hpending)
    exact ⟨hl.content ▸ keyBytes.property, synced⟩
  refine local_act (inside_stable false l) hm rfl (fun t ht => ⟨allowed_inside ht fits nofun, ht.dir.choose,
    ht.dir.choose_spec.1⟩) (fun t ht hstrict => cleanup_and_throw ⟨⟨l, ht⟩, hstrict⟩) fun t d c ht hd => ?_
  obtain ⟨good, _, d₀, hd₀, _, hlinks, _⟩ := id ht
  obtain rfl : d = d₀ := Option.some.inj (hd.symm.trans hd₀)
  subst hlinks
  have linked : Inside i false (d.exec c .linkKey).2.links
      { t with disk.dir := some (d.exec c .linkKey).2 } :=
    ht.after hd (Dir.exec_moves (good d hd) fits c) nofun
  have exec : d.links.exec c .linkKey = (.ok (), { d.links with key := some ino }) := by
    simp only [Links.exec, hl.pending, hl.key]
  rw [Dir.exec, exec] at linked ⊢
  refine inside_then rfl trivial linked (fun c => ⟨(), by rw [Links.exec, hl.pending]⟩) fun _ t c _ ht => ?_
  rw [Links.exec, hl.pending] at ht
  refine .bind failedInside_stable (inside_sync ht) fun _ t ht => ?_
  refine .bind failedInside_stable (validatePublishedKey_outline ht rfl rfl) fun _ t ht => ?_
  exact Secures.pure (found_stable _) ⟨_, ino, ht, rfl, hl.content⟩

theorem createMasterKey_outline (hm : Inside i false l m) (hpending : l.pending = none)
    (hkey : l.key = none) : Outline strict alone i (FailedInside strict i) (Found i) createMasterKey m := by
  refine inside_then rfl trivial hm (fun c => ⟨_, rfl⟩) fun keyBytes t c _ ht => ?_
  have created : ∀ c, l.exec c .createPending = (.ok l.fresh, { l with
      pending := some l.fresh
      files := Function.update l.files l.fresh ⟨[], false⟩
      fresh := l.fresh + 1 }) := fun c => by rw [Links.exec, hpending]
  refine inside_then rfl trivial ht (fun c => ⟨_, congrArg Prod.fst (created c)⟩) fun pending t c heq ht => ?_
  change (l.exec c .createPending).1 = _ at heq
  change Inside i false (l.exec c .createPending).2 t at ht
  rw [created] at heq ht
  obtain rfl : l.fresh = pending := Except.ok.inj heq
  refine .bind failedInside_stable (preparePendingOrClean_outline keyBytes ht ⟨rfl, hkey, ?_⟩)
    fun _ t hprepared => ?_
  · show (Function.update l.files l.fresh _ l.fresh).content = _
    rw [Function.update_self]
  · obtain ⟨l', ⟨hl', synced⟩, ht⟩ := hprepared
    exact publishKey_outline ht hl' synced

/-! ## The whole call -/

theorem findMasterKey_outline (hm : Inside i false l m) (hpending : l.pending = none) :
    Outline strict alone i (FailedInside strict i) (Found i) findMasterKey m := by
  refine inside_act rfl trivial hm
    (fun t ht hstrict => .throw failedInside_stable ⟨⟨l, ht⟩, hstrict⟩) fun t c ht => ?_
  rw [Links.exec] at ht ⊢
  cases hkey : l.key with
  | none =>
    rw [hkey] at ht
    exact createMasterKey_outline ht hpending hkey
  | some ino =>
    rw [hkey] at ht
    refine .bind failedInside_stable (inside_sync ht) fun _ t ht => ?_
    rw [hkey] at ht
    exact loadMasterKey_outline ht hpending hkey

theorem underLock_outline (hm : Inside i false l m) :
    Outline strict alone i (FailedInside strict i) (Found i) underLock m := by
  refine .bind failedInside_stable (validateLock_inside hm) fun _ t ht => ?_
  refine .bind failedInside_stable (validateLockEntry_outline ht) fun _ t ht => ?_
  refine .bind failedInside_stable (cleanupPendingKey_outline ht) fun _ t ht => ?_
  exact findMasterKey_outline ht rfl

theorem locked_outline {body : KeyM MasterKey}
    (h : Outline strict alone i (FailedInside strict i) (Found i) body m) :
    Outline strict alone i (FailedOutside strict alone i) (Obtained alone i) (locked body) m := by
  refine Prog.Obeys.bind h fun r t hr => ?_
  cases r with
  | ok key =>
    refine .act (found_stable key) (hr.1 key rfl) fun t ht => ?_
    obtain ⟨l, ino, inside, hkey, hcontent⟩ := ht
    refine ⟨allowed_inside inside trivial nofun, fun c _ => ?_⟩
    obtain ⟨good, _, d, hd, _, hlinks, hdurable⟩ := inside
    subst hlinks
    exact Secures.pure (obtained_stable key)
      ⟨⟨good, nofun, fun _ => rfl⟩, d, ino, hd, hkey, hcontent, (hdurable rfl).2⟩
  | error e =>
    refine .act failedInside_stable (hr.2 e rfl) fun t ht => ?_
    obtain ⟨⟨l, inside⟩, hstrict⟩ := ht
    refine ⟨allowed_inside inside trivial nofun, fun c _ => ?_⟩
    exact Secures.throw failedOutside_stable ⟨⟨inside.good, nofun, fun _ => rfl⟩, hstrict⟩

theorem loadOrCreateMasterKey_outline (hm : Outside alone i m) :
    Outline strict alone i (FailedOutside strict alone i) (Obtained alone i) loadOrCreateMasterKey m := by
  refine .bind failedOutside_stable (openCredentialsDirectory_outline hm) fun _ t ht => ?_
  refine .bind failedOutside_stable (openLockFile_outline ht) fun _ t ht => ?_
  refine .bind failedOutside_stable (validateLock_outside ht) fun _ t ht => ?_
  refine .bind failedOutside_stable (flock_outline ht) fun _ t ⟨l, ht⟩ => ?_
  exact locked_outline (underLock_outline ht)

end AudioDown.KeyStore
