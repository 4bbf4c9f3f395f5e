/-
# AudioDown.Core.Residue — what an installation leaves behind

`install` delegates its cleanup to the Supervisor, and the Supervisor's `abort` refuses what it is mostly
needed for: a `failed` operation.  A failed build therefore ends in `RuntimeUnavailable`, with the
operation unacknowledged and the prepared files in place; so does an `abort` whose adapter calls fail, and
a rejected `begin` ends in `InstallTimeout`, with nobody left who would remove the files.
-/
import AudioDown.Core.Joint
import AudioDown.Core.Served

namespace AudioDown.Core

open Lib
open Lib.Prog (StableUnder)
open Supervisor

variable {iid : String} {p : PluginId} {h : Handed}

/-! ## Rules -/

/-- A method of Core, composed with the Supervisor, returns under `Q`. -/
def Finishes {α : Type} (iid : String) (Q : Except InstallError α → Scene → Prop)
    (x : InstallM α) (s : Scene) : Prop :=
  Ends iid Q (composed iid x) s

abbrev Replies {α : Type} (iid : String) (P : α → Scene → Prop) (x : CoreProgram α) (s : Scene) : Prop :=
  Ends iid P (x.substitute (carryOut iid)) s

section
variable {ε α β : Type} {Q : Except InstallError α → Scene → Prop} {P : β → Scene → Prop}
  {A : Scene → Prop} {s : Scene}

theorem composed_bind (x : InstallM β) (f : β → InstallM α) : composed iid (x >>= f) =
    (composed iid x).bind fun r => (ExceptT.bindCont f r).substitute (carryOut iid) :=
  Prog.substitute_bind ..

theorem Finishes.bind_result {Q' : Except InstallError β → Scene → Prop}
    {x : InstallM β} {f : β → InstallM α} (hx : Finishes iid Q' x s)
    (ok : ∀ value t, Q' (.ok value) t → Finishes iid Q (f value) t)
    (error : ∀ e t, Q' (.error e) t → Q (.error e) t)
    (stable : ∀ e, StableUnder (Background iid) (Q (.error e))) : Finishes iid Q (x >>= f) s := by
  unfold Finishes
  rw [composed_bind]
  refine .bind hx fun r t hr => ?_
  cases r with
  | ok value => exact ok value t hr
  | error e => exact .ret (stable e) (error e t hr)

theorem Finishes.bind {x : InstallM β} {f : β → InstallM α} (hx : Finishes iid (Succeeds P) x s)
    (hf : ∀ value t, P value t → Finishes iid Q (f value) t) : Finishes iid Q (x >>= f) s := by
  unfold Finishes
  rw [composed_bind]
  refine Prog.Beside.bind hx ?_
  rintro r t ⟨value, rfl, hvalue⟩
  exact hf value t hvalue

theorem Finishes.weaken {Q₂ : Except InstallError α → Scene → Prop} {x : InstallM α}
    (hx : Finishes iid Q x s) (hQ : ∀ r t, Q r t → Q₂ r t) : Finishes iid Q₂ x s :=
  Prog.Beside.weaken hx hQ

theorem Finishes.mk {x : CoreProgram (Except InstallError α)} (hx : Replies iid Q x s) :
    Finishes iid Q (ExceptT.mk x) s := hx

theorem Finishes.lift {x : CoreProgram β} (kept : ∀ value, StableUnder (Background iid) (P value))
    (hx : Replies iid P x s) : Finishes iid (Succeeds P) (ExceptT.lift x) s := by
  have split : composed iid (ExceptT.lift x) = (x.substitute (carryOut iid)).bind fun value => .ret (.ok value) :=
    Prog.substitute_bind ..
  unfold Finishes
  rw [split]
  exact .bind hx fun value t hvalue =>
    .ret (.stable kept _) ⟨value, rfl, hvalue⟩

theorem Finishes.orElse {x : CoreProgram (Except ε β)} {error : InstallError}
    (kept : ∀ value, StableUnder (Background iid) (P value)) (hx : Replies iid (Succeeds P) x s) :
    Finishes iid (Succeeds P) (orElse x error) s := by
  obtain ⟨k, answered, split⟩ : ∃ k : Except ε β → CoreProgram (Except InstallError β),
      (∀ value, k (.ok value) = .ret (.ok value)) ∧ composed iid (Core.orElse x error) =
        (x.substitute (carryOut iid)).bind fun r =>
          (k r).substitute (carryOut iid) :=
    ⟨_, fun _ => rfl, Prog.substitute_bind ..⟩
  unfold Finishes
  rw [split]
  refine .bind hx ?_
  rintro r t ⟨value, rfl, hvalue⟩
  rw [answered]
  exact .ret (.stable kept _) ⟨value, rfl, hvalue⟩

theorem Finishes.throw {e : InstallError} (stable : StableUnder (Background iid) (Q (.error e)))
    (hs : Q (.error e) s) : Finishes iid Q (throw e : InstallM α) s := by
  show Ends iid Q (.ret (.error e)) s
  exact .ret stable hs

theorem Finishes.pure {value : α} (stable : StableUnder (Background iid) (Q (.ok value)))
    (hs : Q (.ok value) s) : Finishes iid Q (Pure.pure value : InstallM α) s := by
  show Ends iid Q (.ret (.ok value)) s
  exact .ret stable hs

/-- A step of Core that is neither a request nor `prepare_install`. -/
def CorePlain : CoreAct → Prop
  | .supervisor _ | .prepareInstall .. => False
  | _ => True

theorem core_answers {a : CoreAct} {P : a.Resp → Scene → Prop} (plain : CorePlain a)
    (stable : StableUnder (Background iid) A) (hs : A s)
    (kept : ∀ value, StableUnder (Background iid) (P value)) (next : ∀ t c, A t → a.Works c →
      P (coreStep a c t.store).1 { t with store := (coreStep a c t.store).2 }) :
    Replies iid P (ask a) s := by
  have program : (ask a).substitute (carryOut iid) = .act (.core a) .ret := by
    cases a with
    | supervisor | prepareInstall => exact plain.elim
    | _ => rfl
  have step : ∀ c t, installStep iid (.core a) (.core c) t =
      ((coreStep a c t.store).1, { t with store := (coreStep a c t.store).2 }) := by
    cases a with
    | supervisor | prepareInstall => exact plain.elim
    | _ => exact fun _ _ => rfl
  show Ends iid P ((ask a).substitute (carryOut iid)) s
  rw [program]
  refine .act stable hs ?_
  rintro t _ ht ⟨⟨c, rfl, works⟩, -⟩
  rw [step]
  exact .ret (kept _) (next t c ht works)

theorem store_stable (store : PluginStore) : StableUnder (Background iid) fun t => t.store = store := by
  rintro t _ ht ⟨i, c, tag, a, k, -, -, -, rfl⟩
  exact ht

theorem ends_store {α : Type} {Q : α → Scene → Prop} {x : Program α} {s : Scene}
    (hx : Ends iid Q (onSupervisor x) s) {store : PluginStore} (hs : s.store = store) :
    Ends iid (fun a t => Q a t ∧ t.store = store) (onSupervisor x) s := by
  have stable : StableUnder (Background iid) fun t => t.store = store := store_stable store
  induction x generalizing s with
  | ret a => exact fun t ht => ⟨hx t ht, stable.star hs ht⟩
  | act a k ih =>
    intro t ht c hc
    refine ih _ (hx t ht c hc) ?_
    show t.store = store
    exact stable.star hs ht

theorem request_answers (call : SupervisorCall) {method : Timestamp → Call α} {wrap : Except _ α → Reply}
    {P : call.Result → Scene → Prop} {P' : α → Scene → Prop} (program : ∀ now,
      (Tag.request (call.request now)).program iid = Prog.bind (method now) fun r => .ret (wrap r))
    (stable : StableUnder (Background iid) A) (hs : A s)
    (returns : ∀ now t, A t → Returns iid P' (method now) t)
    (kept : ∀ value, StableUnder (Background iid) (P value))
    (answers : ∀ value t, P' value t → t.store = s.store → Succeeds P (call.answer (wrap (.ok value))) t) :
    Replies iid (Succeeds P) (ask (.supervisor call)) s := by
  refine ends_act trivial (stable.and (store_stable s.store)) ⟨hs, rfl⟩ ?_
  rintro t c ⟨ht, hstore⟩ - -
  have split : ∀ now, onSupervisor (.bind (method now) fun r => .ret (wrap r)) =
      (onSupervisor (method now)).bind fun r => .ret (wrap r) := fun now => Prog.substitute_bind ..
  beta_reduce
  rw [program, split, Prog.bind_assoc, Prog.bind_assoc]
  refine .bind (ends_store (returns _ _ ht) hstore) ?_
  rintro r u ⟨⟨value, rfl, hvalue⟩, hu⟩
  exact .ret (.stable kept _) (answers value u hvalue hu)

end

/-! ## Core's methods -/

section
variable {s : Scene}

theorem abortInstall_finishes (hs : Going iid p h (Waiting iid p h) s) :
    Finishes iid (Succeeds fun _ => Going iid p h (Released h)) (abortInstall p h.operationId) s := by
  have kept : ∀ operation : PluginInstallOperation, StableUnder (Background iid) fun t =>
      operation.state = .aborted ∧ operationIdentityMatches operation p h.operationId = true ∧
        Going iid p h (Released h) t := fun _ =>
    (StableUnder.const _).and ((StableUnder.const _).and (Going.stable released_kept))
  refine .bind (.orElse kept (request_answers (.abortInstall p h.operationId)
    (fun _ => rfl) (.stable pending_kept) hs (fun now t ht => abort_returns ht now) kept
    fun operation t ht _ => ⟨operation, rfl, ht⟩)) ?_
  rintro operation t ⟨hstate, hidentity, ht⟩
  simp only [hstate, hidentity]
  exact .pure (.stable (fun _ => .stable released_kept) _) ⟨(), rfl, ht⟩

theorem acknowledge_finishes (hs : Going iid p h (Released h) s) :
    Finishes iid (Succeeds fun _ => Going iid p h (Settled h)) (acknowledge p h.operationId) s := by
  have kept : ∀ operation : PluginInstallOperation, StableUnder (Background iid) fun t =>
      operation.acknowledged = true ∧ operationIdentityMatches operation p h.operationId = true ∧
        Going iid p h (Settled h) t := fun _ =>
    (StableUnder.const _).and ((StableUnder.const _).and (Going.stable settled_kept))
  refine .bind (.orElse kept (request_answers (.acknowledgeInstall p h.operationId)
    (fun _ => rfl) (.stable released_kept) hs (fun now t ht => acknowledge_returns ht now) kept
    fun operation t ht _ => ⟨operation, rfl, ht⟩)) ?_
  rintro operation t ⟨hacknowledged, hidentity, ht⟩
  simp only [hacknowledged, hidentity]
  exact .pure (.stable (fun _ => .stable settled_kept) _) ⟨(), rfl, ht⟩

theorem abortAndAck_finishes (hs : Going iid p h (Waiting iid p h) s) :
    Finishes iid (Succeeds fun _ => Going iid p h (Settled h)) (abortAndAckResult p h.operationId) s :=
  .bind (abortInstall_finishes hs) fun _ _ => acknowledge_finishes

theorem persistBuildLogs_finishes {A : Scene → Prop} (stable : StableUnder (Background iid) A)
    (o : Uuid) (logs : List PluginBuildLog) (hs : A s) :
    Finishes iid (Succeeds fun _ => A) (persistBuildLogs o logs) s := by
  induction logs generalizing s with
  | nil => exact .pure (.stable (fun _ => stable) _) ⟨(), rfl, hs⟩
  | cons log logs ih =>
    refine .bind (.orElse (fun _ => stable) ?_) fun _ t ht => ih ht
    refine core_answers (a := .persistBuildLog o log) trivial stable hs
      (.stable fun _ => stable) fun t c ht works => ?_
    cases c with
    | done now => exact ⟨(), rfl, ht⟩
    | _ => exact works.elim

theorem giveUp_finishes {α : Type} (logs : List PluginBuildLog)
    (error : InstallError) (hs : Going iid p h (Waiting iid p h) s) :
    Finishes iid (fun (r : Except InstallError α) t => r = .error error ∧
      Going iid p h (Settled h) t) (giveUp p h.operationId logs error) s := by
  have waiting := Going.stable (@pending_kept iid p h)
  refine .bind (.lift (.stable fun _ => waiting) (persistBuildLogs_finishes waiting h.operationId logs hs)) ?_
  rintro _ t ⟨_, rfl, ht⟩
  refine .bind (abortAndAck_finishes ht) fun _ u hu => ?_
  exact Finishes.throw ((StableUnder.const _).and (Going.stable settled_kept)) ⟨rfl, hu⟩

/-! ### Waiting for the build -/

theorem Going.mono {P P' : StoredOperation → Scene → Prop} (hs : Going iid p h P s)
    (next : ∀ r, P r s → P' r s) : Going iid p h P' s := by
  obtain ⟨r, handed, cause, tended, hr⟩ := hs
  exact ⟨r, handed, cause, tended, next r hr⟩

/-- How `wait_until_built` ends: with the operation built, or with a timeout after which nothing is
left. -/
def Awaited (iid : String) (p : PluginId) (h : Handed) :
    Except InstallError (PluginInstallOperation × List PluginBuildLog) → Scene → Prop
  | .ok (operation, _), s =>
      operation.state = .built ∧ Going iid p h (Seen iid p h operation) s
  | .error e, s => e = .installTimeout ∧ Going iid p h (Settled h) s

theorem awaited_stable (r : Except InstallError (PluginInstallOperation × List PluginBuildLog)) :
    StableUnder (Background iid) (Awaited iid p h r) := by
  cases r with
  | ok found => exact (StableUnder.const _).and (Going.stable (seen_kept _))
  | error e => exact (StableUnder.const _).and (Going.stable settled_kept)

variable {o : Uuid} {operation : PluginInstallOperation} {staged : StagedPlugin} {store : PluginStore}

theorem builtOr_finishes (hstaged : staged.pluginId = p) (logs : List PluginBuildLog)
    {pending : InstallM (PluginInstallOperation × List PluginBuildLog)}
    (hs : Going iid p h (Seen iid p h operation) s) (hpending : Finishes iid (Awaited iid p h) pending s) :
    Finishes iid (Awaited iid p h) (builtOr staged h.operationId operation logs pending) s := by
  obtain ⟨r, -, -, -, seen⟩ := id hs
  have unfinished := seen.unfinished
  have identity : operationIdentityMatches operation staged.pluginId h.operationId = true := by
    simp [operationIdentityMatches, hstaged, seen.plugin, seen.operationId]
  unfold builtOr
  rw [identity]
  cases hstate : operation.state with
  | built => exact .pure (awaited_stable _) ⟨hstate, hs⟩
  | accepted | building => exact hpending
  | failed | aborted | finalized => simp [hstate] at unfinished

theorem waitUntilBuilt_finishes (hstaged : staged.pluginId = p) (polls : Nat) (seen : List PluginBuildLog)
    (hs : Going iid p h (Seen iid p h operation) s) : Finishes iid (Awaited iid p h)
      (waitUntilBuilt staged h.operationId polls operation seen) s := by
  induction polls generalizing operation seen s with
  | zero =>
    refine builtOr_finishes hstaged _ hs ?_
    rw [hstaged]
    refine (giveUp_finishes _ .installTimeout (hs.mono fun _ => Seen.toWaiting)).weaken ?_
    rintro _ t ⟨rfl, ht⟩
    exact ⟨rfl, ht⟩
  | succ polls ih =>
    have kept : ∀ operation : PluginInstallOperation, StableUnder (Background iid)
        (Going iid p h (Seen iid p h operation)) := fun _ =>
      .stable (seen_kept _)
    refine builtOr_finishes hstaged _ hs ?_
    rw [hstaged]
    refine .bind (.lift (.stable kept) (request_answers (.installStatus p h.operationId) (fun _ => rfl)
      (.stable pending_kept) (hs.mono fun _ => Seen.toWaiting) (fun _ t ht => status_returns ht) kept
        fun operation t ht _ => ⟨operation, rfl, ht⟩)) ?_
    rintro _ t ⟨operation, rfl, ht⟩
    exact ih _ ht

/-! ### The installation -/

def Closes (iid : String) (p : PluginId) (h : Handed)
    (r : Except InstallError InstallPluginRecord) (s : Scene) : Prop :=
  Going iid p h (Settled h) s ∧ ∀ e, r = .error e → e ≠ .buildFailed ∧ e ≠ .runtimeUnavailable

theorem closes_stable (r : Except InstallError InstallPluginRecord) :
    StableUnder (Background iid) (Closes iid p h r) :=
  (Going.stable settled_kept).and (StableUnder.const _)

theorem cleanUp_finishes (logs : List PluginBuildLog) {error : InstallError}
    (hbuild : error ≠ .buildFailed) (hruntime : error ≠ .runtimeUnavailable)
    (hs : Going iid p h (Waiting iid p h) s) :
    Finishes iid (Closes iid p h) (do
      let _ ← ExceptT.lift (abortAndAckResult p h.operationId).run
      persistBuildLogs h.operationId logs
      throw error) s := by
  have settled := Going.stable (@settled_kept iid p h)
  refine .bind (.lift (.stable fun _ => settled) (abortAndAck_finishes hs)) ?_
  rintro _ t ⟨_, -, ht⟩
  refine .bind (persistBuildLogs_finishes settled h.operationId logs ht) fun _ u hu => ?_
  refine .throw (closes_stable _) ⟨hu, ?_⟩
  rintro _ ⟨⟩
  exact ⟨hbuild, hruntime⟩

def Awaits (p : PluginId) (o : Uuid) (store : PluginStore) : Prop :=
  ∃ row, store.get p = some row ∧ row.installOperationId = some o

theorem awaits_of_insertInstalling {store : PluginStore} {record : InstallPluginRecord} {c : CoreOutcome}
    {o : Uuid} (inserted : (coreStep (.insertInstalling record) c store).1 = .ok ())
    (hop : record.installOperationId = some o) :
    Awaits record.pluginId o (coreStep (.insertInstalling record) c store).2 := by
  obtain ⟨-, -, -, hget⟩ := PluginStore.get_insertInstalling (statement_ok inserted)
  exact ⟨record, (hget _).trans (if_pos rfl), hop⟩

theorem Going.stored {P : StoredOperation → Scene → Prop}
    (hs : Going iid p h P s) (next : ∀ r, P r s → P r { s with store }) :
    Going iid p h P { s with store } := by
  obtain ⟨r, handed, cause, tended, hr⟩ := hs
  exact ⟨r, handed, cause,
    ⟨tended.keyed, tended.memory, tended.disk, tended.plugin, tended.builds, tended.single⟩, next r hr⟩

theorem Seen.stored {r : StoredOperation} (seen : Seen iid p h operation r s) :
    Seen iid p h operation r { s with store } :=
  ⟨⟨seen.pending, seen.attested, seen.prepared, seen.installed⟩, seen.plugin, seen.operationId,
    seen.unfinished, seen.current⟩

theorem complete_finishes (hs : Going iid p h (Released h) s) (hrow : Awaits p h.operationId s.store) :
    Finishes iid (Closes iid p h) (do
      let completed ← orElse (ask (.completeInstall p h.operationId)) .internal
      acknowledge p h.operationId
      return completed) s := by
  have released := Going.stable (@released_kept iid p h)
  refine .bind (.orElse (fun _ => released) ?_) fun completed t ht => ?_
  · refine core_answers (a := .completeInstall p h.operationId) trivial
      (released.and (store_stable s.store)) ⟨hs, rfl⟩ (.stable fun _ => released) ?_
    rintro t c ⟨ht, hstore⟩ works
    cases c with
    | done now =>
      obtain ⟨row, hget, hop⟩ := hrow
      obtain ⟨store', hstep, -⟩ := coreStep_completeInstall (hstore ▸ hget) hop now
      rw [hstep]
      exact ⟨_, rfl, ht.stored fun r hr => ⟨hr.terminal, hr.prepared, hr.grant⟩⟩
    | _ => exact works.elim
  · refine .bind (acknowledge_finishes ht) fun _ u hu => ?_
    refine .pure (closes_stable _) ⟨hu, ?_⟩
    rintro _ ⟨⟩

theorem installBuilt_finishes (hstaged : staged.pluginId = p) (built : operation.state = .built)
    (logs : List PluginBuildLog) (hs : Going iid p h (Seen iid p h operation) s) :
    Finishes iid (Closes iid p h) (installBuilt p staged h.operationId operation logs) s := by
  have seen := Going.stable (@seen_kept iid p h operation)
  unfold installBuilt
  split
  · exact cleanUp_finishes logs (by simp) (by simp) (hs.mono fun _ => Seen.toWaiting)
  rename_i artifact hartifact
  obtain ⟨hsome, hmatches⟩ := Option.filter_eq_some_iff.mp hartifact
  refine .bind (.lift (fun _ => seen) (core_answers trivial seen hs (fun _ => seen)
      fun t c ht _ => ht)) fun now t ht => ?_
  -- the row is written, or there is one already
  refine .bind (P := fun r t => Going iid p h (Seen iid p h operation) t ∧ ∃ store, t.store = store ∧
    (r = .ok () → Awaits p h.operationId store)) (.lift ?_ (core_answers
    (a := .insertInstalling (installRecord staged h.operationId artifact now)) trivial seen ht ?_ ?_)) ?_
  · exact fun r => seen.and (.any fun store => (store_stable store).and (.const _))
  · exact fun r => seen.and (.any fun store => (store_stable store).and (.const _))
  · intro u c hu _
    refine ⟨hu.stored fun r => .stored, _, rfl, fun hr => ?_⟩
    rw [← hstaged]
    exact @awaits_of_insertInstalling _ (installRecord staged h.operationId artifact now) _ _ hr rfl
  rintro r u ⟨hu, store, hstore, hrow⟩
  cases r with
  | error e => exact cleanUp_finishes logs (by simp) (by simp) (hu.mono fun _ => Seen.toWaiting)
  | ok _ =>
    refine .bind (persistBuildLogs_finishes (seen.and (store_stable store)) h.operationId logs ⟨hu, hstore⟩) ?_
    rintro _ v ⟨hv, hvstore⟩
    have kept : ∀ finalized : PluginInstallOperation, StableUnder (Background iid) fun t =>
        (finalized.state = .finalized ∧ operationIdentityMatches finalized p h.operationId = true ∧
          finalized.artifact = operation.artifact ∧ Going iid p h (Released h) t) ∧ t.store = v.store := fun _ =>
      ((StableUnder.const _).and ((StableUnder.const _).and ((StableUnder.const _).and
        (.stable released_kept)))).and (store_stable _)
    refine .bind (.orElse kept (request_answers (.finalizeInstall p h.operationId)
      (fun _ => rfl) seen hv (fun now t ht => finalize_returns built ht now) kept
      fun finalized t ht hstore => ⟨finalized, rfl, ht, hstore⟩)) ?_
    rintro finalized x ⟨⟨hstate, hidentity, hfinal, hx⟩, hxstore⟩
    have accepted : finalized.artifact.any (fun artifact => artifactMatchesStaged artifact staged) =
        true := by
      rw [hfinal, hsome]
      exact hmatches
    simp only [hstate, hidentity, accepted]
    refine complete_finishes hx ?_
    rw [hxstore, hvstore]
    exact hrow rfl

/-- The way `install` can end. -/
def Concludes (iid : String) (p : PluginId) (r : Except InstallError InstallPluginRecord)
    (s : Scene) : Prop :=
  s.handed = none ∨ ∃ h, Closes iid p h r s

theorem start_stable : StableUnder (Background iid) Scene.Start := by
  rintro s _ hs ⟨i, c, tag, a, k, htask, works, completes, rfl⟩
  obtain ⟨o, q, htag, huses⟩ := hs.builds _ (List.mem_of_getElem? htask)
  have frame := @frame_of_build iid s a c q o (s.builds.set i ⟨tag, k (exec iid a c s.world).1⟩) huses.1 completes
  refine ⟨hs.keyed.step, fun t ht => ?_, hs.handed, frame.cause.trans hs.cause⟩
  rcases List.mem_or_eq_of_mem_set ht with ht | rfl
  · exact hs.builds t ht
  · exact ⟨o, q, htag, huses.2 _⟩

theorem concludes_stable (r : Except InstallError InstallPluginRecord) :
    StableUnder (Background iid) (Concludes iid p r) := by
  rintro s t (hnone | ⟨h, hs⟩) hstep
  · obtain ⟨i, c, tag, a, k, -, -, -, rfl⟩ := hstep
    exact .inl hnone
  · exact .inr ⟨h, closes_stable r s t hs hstep⟩

/-- What `prepare_install` hands out is new to the Supervisor. -/
theorem prepared_of_start (hs : s.Start) (unused : s.Unused o) (riskGrantId : Option Uuid) :
    Prepared ⟨o, riskGrantId⟩ (s.prepare o riskGrantId) := by
  refine ⟨⟨hs.keyed.inMemory, hs.keyed.onDisk⟩, rfl, hs.cause, unused.inMemory, unused.onDisk,
    unused.candidate, Function.update_self .., fun t ht => ?_⟩
  obtain ⟨u, hbuilds⟩ := hs.builds t ht
  refine ⟨u, ?_, hbuilds⟩
  rintro rfl
  obtain ⟨q, htag, -⟩ := hbuilds
  exact unused.builds t ht q htag

theorem start_answers {a : CoreAct} {P : a.Resp → Prop} (plain : CorePlain a) (hs : s.Start)
    (answers : ∀ (t : Scene) c, a.Works c → P (coreStep a c t.store).1) :
    Replies iid (fun value t => P value ∧ t.Start) (ask a) s := by
  refine core_answers plain start_stable hs (fun _ => (StableUnder.const _).and start_stable) ?_
  intro t c ht works
  exact ⟨answers t c works, ht.keyed, ht.builds, ht.handed, ht.cause⟩

/-- What `prepare_install` leaves. -/
def Handing (riskGrantId : Option Uuid) : Except InstallError Uuid → Scene → Prop
  | .ok o, s => Prepared ⟨o, riskGrantId⟩ s
  | .error _, s => s.Start

theorem prepareInstall_answers (staged : StagedPlugin) (riskGrantId : Option Uuid) (hs : s.Start) :
    Replies iid (Handing riskGrantId) (ask (.prepareInstall staged riskGrantId)) s := by
  refine .act start_stable hs ?_
  rintro t _ ht ⟨⟨c, rfl, works⟩, favours⟩
  have stable : ∀ r, StableUnder (Background iid) (Handing riskGrantId r) := by
    intro r
    cases r with
    | ok o => exact prepared_stable
    | error e => exact start_stable
  refine .ret (stable _) ?_
  cases c with
  | prepared result =>
    cases result with
    | ok o => exact prepared_of_start ht favours riskGrantId
    | error e => exact ht
  | _ => exact works.elim

theorem handedOut_finishes (hstaged : staged.pluginId = p)
    (beginPolls buildPolls : Nat) {riskGrantId : Option Uuid}
    (hs : Prepared ⟨o, riskGrantId⟩ s) :
    Finishes iid (Closes iid p ⟨o, riskGrantId⟩) (do
      let initial ← match ← ExceptT.lift (ask (.supervisor (.beginInstall p o))) with
        | .ok operation => pure operation
        | .error _ => recoverAmbiguousBegin p o beginPolls
      let (built, logs) ← waitUntilBuilt staged o buildPolls initial []
      installBuilt p staged o built logs) s := by
  let h : Handed := ⟨o, riskGrantId⟩
  have kept : ∀ operation : PluginInstallOperation, StableUnder (Background iid)
      (Going iid p h (Seen iid p h operation)) := fun _ =>
    .stable (seen_kept _)
  have begun : ∀ operation t, Going iid p h (Seen iid p h operation) t → Finishes iid (Closes iid p h) (do
        let (built, logs) ← waitUntilBuilt staged o buildPolls operation []
        installBuilt p staged o built logs) t := by
    intro operation t ht
    refine .bind_result (waitUntilBuilt_finishes hstaged buildPolls [] ht) ?_ ?_
      fun e => closes_stable _
    · rintro ⟨built, logs⟩ u ⟨hbuilt, hu⟩
      exact installBuilt_finishes hstaged hbuilt logs hu
    · rintro _ u ⟨rfl, hu⟩
      refine ⟨hu, ?_⟩
      rintro _ ⟨⟩
      simp
  refine .bind (.lift (.stable kept) (request_answers (.beginInstall p o) (fun _ => rfl) prepared_stable hs
      (fun now t ht => begin_returns ht now) kept fun operation t ht _ => ⟨operation, rfl, ht⟩)) ?_
  rintro _ t ⟨operation, rfl, ht⟩
  exact begun operation t ht

theorem install_finishes (snapshotId : Uuid) (beginPolls buildPolls : Nat) (hs : s.Start) :
    Finishes iid (Concludes iid p) (install snapshotId p beginPolls buildPolls) s := by
  have stopped : ∀ {t : Scene} (error : InstallError), t.Start →
      Finishes iid (Concludes iid p) (throw error) t := fun _ ht =>
    .throw (concludes_stable _) (.inl ht.handed)
  have started : ∀ {α : Type} (P : α → Prop) (value : α),
      StableUnder (Background iid) fun t => P value ∧ t.Start := fun P value =>
    (StableUnder.const _).and start_stable
  refine .bind (P := fun _ t => True ∧ t.Start) (.lift (started _)
    (start_answers trivial hs fun _ _ _ => trivial)) ?_
  rintro locked t ⟨-, ht⟩
  cases locked with
  | false => exact stopped _ ht
  | true =>
    refine .bind_result (.mk (start_answers (a := .loadPlugin snapshotId p)
      (P := fun r => ∀ staged, r = .ok staged → staged.pluginId = p) trivial ht ?_)) ?_
      (fun e u hu => .inl hu.2.handed) fun e => concludes_stable _
    · intro u c works
      cases c with
      | staged result => exact works
      | _ => exact works.elim
    rintro staged u ⟨hstaged, hu⟩
    refine .bind (P := fun _ => Scene.Start) (.orElse (fun _ => start_stable)
      (core_answers (a := .listInstallRecords) trivial start_stable hu
        (.stable fun _ => start_stable) ?_)) fun records v hv => ?_
    · intro v c hv works
      cases c with
      | done now => exact ⟨_, rfl, hv⟩
      | _ => exact works.elim
    cases records.find? fun record => record.pluginId = p with
    | some existing =>
      show Finishes _ _ (if _ then _ else _) _
      split
      · exact stopped _ hv
      · exact stopped _ hv
    | none =>
      refine .bind_result (.mk (start_answers (a := .grantLifecycleRisk staged)
        (P := fun _ => True) trivial hv fun _ _ _ => trivial)) ?_ (fun e x hx => .inl hx.2.handed)
        fun e => concludes_stable _
      rintro riskGrantId x ⟨-, hx⟩
      refine .bind_result (.mk (prepareInstall_answers staged riskGrantId hx)) ?_
        (fun e y (hy : y.Start) => .inl hy.handed) fun e => concludes_stable _
      intro o y hy
      exact (handedOut_finishes (hstaged staged rfl) beginPolls buildPolls hy).weaken
        fun r z hz => .inr ⟨_, hz⟩

end

/-! ## The law -/

theorem Concludes.law {s : Scene} {r : Except InstallError InstallPluginRecord}
    (hs : Concludes iid p r s) : InstallLaw s r := by
  intro handed hhanded
  rcases hs with hnone | ⟨h, ⟨record, hgoing, hcause, tended, settled⟩, hnamed⟩
  · rw [hnone] at hhanded
    cases hhanded
  · obtain rfl : h = handed := Option.some.inj (hgoing.symm.trans hhanded)
    refine ⟨?_, fun e he => ?_, settled.prepared, settled.grant⟩
    · rintro r (hr | hr)
      · cases tended.memory.symm.trans hr
        exact ⟨settled.terminal, settled.acknowledged⟩
      · cases tended.disk.symm.trans hr
        exact ⟨settled.terminal, settled.acknowledged⟩
    · rw [hcause]
      exact hnamed e he

/-- A step of the composed system that meets the condition keeps what is known of the call. -/
theorem ends_next {Q : Except InstallError InstallPluginRecord → Scene → Prop} {s s' : Composed}
    {label : ComposedLabel} (hs : Ends iid Q s.call s.scene) (delivered : Delivered s label)
    (favourable : Favourable s label) (hstep : s.next iid label = some s') : Ends iid Q s'.call s'.scene := by
  obtain ⟨scene, call⟩ := s
  cases label with
  | install c =>
    cases call with
    | ret r => cases hstep
    | act a k =>
      cases hstep
      exact .own hs ⟨delivered a k rfl, favourable a k rfl⟩
  | build i c =>
    simp only [Composed.next, Option.map_eq_some_iff] at hstep
    obtain ⟨scene', hbuild, rfl⟩ := hstep
    refine .background hs ?_
    simp only [Scene.build] at hbuild
    split at hbuild
    · rename_i tag a k htask
      cases hbuild
      exact ⟨i, c, tag, a, k, htask, delivered tag a k htask, favourable tag a k htask, rfl⟩
    · cases hbuild

/-- **An installation leaves nothing behind**, if the Supervisor accepts it, its build does not fail, and
what `abort` removes can be removed. -/
theorem install_leaves_no_residue {start s : Scene} {snapshotId : Uuid} {beginPolls buildPolls : Nat}
    {labels : List ComposedLabel} {result : Except InstallError InstallPluginRecord} (hstart : start.Start)
    (run : Run (Composed.next iid) (fun s label => Delivered s label ∧ Favourable s label)
      ⟨start, composed iid (install snapshotId p beginPolls buildPolls)⟩ labels ⟨s, .ret result⟩) :
    InstallLaw s result := by
  have ends : Ends iid (Concludes iid p) (.ret result) s :=
    Run.invariant (fun s label s' hs ok hstep => ends_next hs ok.1 ok.2 hstep) run
      (install_finishes snapshotId beginPolls buildPolls hstart)
  exact ends.returned.law

/-! ### Runs that can be checked -/

instance : DecidableRel Unfailing := fun a c => by
  unfold Unfailing
  split <;> infer_instance

instance (a : CoreAct) (c : CoreOutcome) : Decidable (a.Works c) := by
  unfold CoreAct.Works
  split
  · rename_i p result
    cases result with
    | error e => exact isTrue fun _ h => by cases h
    | ok staged =>
      exact decidable_of_iff (staged.pluginId = p) ⟨fun h _ hs => by cases hs; exact h, fun h => h _ rfl⟩
  all_goals infer_instance

instance : (a : InstallAct) → (c : InstallOutcome) → Decidable (Smooth a c)
  | .core a, .core c =>
    decidable_of_iff (a.Works c) ⟨fun h => ⟨c, rfl, h⟩, fun ⟨_, h, works⟩ => by cases h; exact works⟩
  | .supervisor a, .supervisor c =>
      decidable_of_iff (Unfailing a c) ⟨fun h => ⟨c, rfl, h⟩, fun ⟨_, h, works⟩ => by cases h; exact works⟩
  | .core _, .supervisor _ | .supervisor _, .core _ => isFalse fun ⟨_, h, _⟩ => by cases h

instance (s : Composed) : (label : ComposedLabel) → Decidable (Delivered s label)
  | .install c => inferInstanceAs (Decidable (∀ a k, s.call = .act a k → Smooth a c))
  | .build i c =>
      inferInstanceAs (Decidable (∀ tag a k, s.scene.builds[i]? = some ⟨tag, .act a k⟩ → Unfailing a c))

instance (o : Uuid) : (tag : Tag) → Decidable (∀ p, tag ≠ .build p o)
  | .build q u =>
    decidable_of_iff (u ≠ o) ⟨fun h _ heq => by cases heq; exact h rfl, fun h hu => h q (by rw [hu])⟩
  | .request _ | .opening _ => isTrue fun _ h => by cases h

instance (o : Uuid) (s : Scene) : Decidable (s.Unused o) :=
  decidable_of_iff (s.world.inMemory o = none ∧ s.world.onDisk o = none ∧ s.world.candidates o = none ∧
      ∀ t ∈ s.builds, ∀ p, t.tag ≠ .build p o)
    ⟨fun ⟨h₁, h₂, h₃, h₄⟩ => ⟨h₁, h₂, h₃, h₄⟩, fun h => ⟨h.1, h.2, h.3, h.4⟩⟩

instance (w : World) (p : PluginId) : Decidable (Admits w p) :=
  decidable_of_iff (_ ∧ _ ∧ w.installed p = none)
    ⟨fun ⟨idle, room, installed⟩ => ⟨idle, room, installed⟩, fun h => ⟨h.idle, h.room, h.installed⟩⟩

instance (a : InstallAct) (c : InstallOutcome) (s : Scene) : Decidable (Favours a c s) := by
  unfold Favours
  split <;> infer_instance

def failing : Act → Option Uuid
  | .setFailed _ o _ _ _ => some o
  | _ => none

theorem completes_iff {handed : Option Handed} {w : World} {a : Act} :
    (∀ o ∈ failing a, handed.map Handed.operationId = some o →
      ∀ r ∈ w.inMemory o, r.operation.state.isTerminal = true) ↔ Completes handed w a := by
  cases a <;> simp [failing, Completes]

instance (handed : Option Handed) (w : World) (a : Act) : Decidable (Completes handed w a) :=
  decidable_of_iff _ completes_iff

instance (s : Composed) : (label : ComposedLabel) → Decidable (Favourable s label)
  | .install c => inferInstanceAs (Decidable (∀ a k, s.call = .act a k → Favours a c s.scene))
  | .build i _ => inferInstanceAs (Decidable (∀ tag a k, s.scene.builds[i]? = some ⟨tag, .act a k⟩ →
      Completes s.scene.handed s.scene.world a))

def quietScene : Scene := ⟨World.empty, Lib.Table.empty, [], none, none⟩

theorem quietScene_start : quietScene.Start :=
  ⟨⟨fun _ _ h => by simp [quietScene, World.inMemory, World.empty] at h,
    fun _ _ h => by simp [quietScene, World.onDisk, World.empty] at h⟩, by simp [quietScene], rfl, rfl⟩

/-- An installation of plugin `p`. -/
def sampleInstall (s : Scene) : Composed := ⟨s, composed "inst" (install 7 "p" 0 1)⟩

def handingOut : List ComposedLabel :=
  [.flag true, .staged (.ok sampleStaged), .done 0, .granted (.ok (some 3)), .prepared (.ok 1)].map
    fun c => .install (.core c)

/-- The Supervisor takes `n` steps for the call … -/
def calls (n : Nat) : List ComposedLabel := List.replicate n (.install (.supervisor .done))

def builds (n : Nat) : List ComposedLabel := List.replicate n (.build 0 .done)

def smoothRun : List ComposedLabel :=
  handingOut ++ calls 3 ++ builds 2 ++ [.build 0 (.built (.ok sampleOutput))] ++ builds 6 ++ calls 2 ++
    [.install (.core (.done 4)), .install (.core (.done 4))] ++ calls 14 ++ [.install (.core (.done 4))] ++
      calls 2

/-- The build fails; `abort` is refused. -/
def unbuiltRun : List ComposedLabel :=
  handingOut ++ calls 3 ++ builds 2 ++ [.build 0 (.built (.error ⟨"BUILD_FAILED", []⟩))] ++ builds 3 ++
    calls 5

def composedAfter (s : Composed) (labels : List ComposedLabel) : Composed :=
  (labels.foldlM (Composed.next "inst") s).getD s

set_option maxRecDepth 2000 in
/-- The completed installation has left nothing. -/
theorem sample_install_leaves_no_residue : ∃ (s : Scene) (record : InstallPluginRecord),
      Run (Composed.next "inst") (fun s label => Delivered s label ∧ Favourable s label)
        (sampleInstall quietScene) smoothRun ⟨s, .ret (.ok record)⟩ ∧
      s.handed = some ⟨1, some 3⟩ ∧ InstallLaw s (.ok record) := by
  have run : Run (Composed.next "inst") (fun s label => Delivered s label ∧ Favourable s label)
      (sampleInstall quietScene) smoothRun (composedAfter (sampleInstall quietScene) smoothRun) :=
    Run.of_decide rfl
  exact ⟨_, _, run, rfl, install_leaves_no_residue quietScene_start run⟩

set_option maxRecDepth 2000 in
/-- After a failed build `install` reports that the Supervisor is unavailable, and leaves the operation
unacknowledged, with its prepared request and its grant. -/
theorem failed_build_leaves_residue :
    ∃ s : Scene, Run (Composed.next "inst") Delivered (sampleInstall quietScene) unbuiltRun
        ⟨s, .ret (.error .runtimeUnavailable)⟩ ∧ quietScene.Start ∧
      s.handed = some ⟨1, some 3⟩ ∧ s.cause = some .buildFailed ∧
      (s.world.inMemory 1).map (fun r => (r.operation.state, r.operation.acknowledged)) =
        some (.failed, false) ∧ s.world.prepared 1 = some ⟨some 3⟩ ∧ s.world.grants 3 = true ∧
      ¬ InstallLaw s (.error .runtimeUnavailable) := by
  have run : Run (Composed.next "inst") Delivered (sampleInstall quietScene) unbuiltRun
      (composedAfter (sampleInstall quietScene) unbuiltRun) := Run.of_decide rfl
  refine ⟨_, run, quietScene_start, rfl, rfl, rfl, rfl, rfl, fun law => ?_⟩
  have gone := (law ⟨1, some 3⟩ rfl).prepared
  cases gone

end AudioDown.Core
