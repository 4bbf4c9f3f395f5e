/-
# AudioDown.Supervisor.Restart — when the Supervisor can start again

`open` fails the operations that were still building and calls `finalize` on every `finalized`
record; an error of either is an error of `open`, and the Supervisor does not come up.  So a restart
succeeds exactly when every `finalized` record on disk still finds its directory: the record must be
*honoured* by `installed/<plugin>`.

Honouring is kept by every step of the manager, under any interleaving, any failure and any crash,
under a condition on removals and on ids that are used again.  Removing a plugin does not touch the
records, so removing an installed plugin is exactly what breaks it.
-/
import AudioDown.Supervisor.Discipline

namespace AudioDown.Supervisor

open Lib

variable {iid : String}

/-! ## Restarting from an honoured journal -/

/-- A `finalized` record is honoured when `installed/<plugin>` is attested to it. -/
def World.Honours (iid : String) (w : World) (r : StoredOperation) : Prop :=
  r.operation.state = .finalized → ∃ a, r.operation.artifact = some a ∧
      w.Attested iid (.installed r.operation.pluginId) r.operation.pluginId r.operation.operationId a

/-- What `reconcile_restart` leaves of a world: the installed directories, the operations that were
not being built with their candidates, and no operation that is not failed but was not there. -/
structure Restarted (busy : Uuid → Prop) (w w' : World) : Prop where
  installed : w'.installed = w.installed
  kept : ∀ o, ¬ busy o → w'.inMemory o = w.inMemory o ∧ w'.candidates o = w.candidates o
  origin : ∀ o q, w'.inMemory o = some q → q.operation.state ≠ .failed → w.inMemory o = some q

def StoredOperation.Busy (r : StoredOperation) : Prop :=
  r.operation.state = .accepted ∨ r.operation.state = .building

/-- One turn of `reconcile_restart` succeeds on an honoured operation, and touches no other. -/
theorem restartOperation_alone {w : World} (now : Timestamp) {r : StoredOperation}
    (hm : w.inMemory r.operation.operationId = some r) (honoured : w.Honours iid r) :
    ∃ w', (restartOperation iid now r.operation).alone iid w =
        (.ok (), w') ∧ Restarted (fun o => r.operation.operationId = o ∧ r.Busy) w w' := by
  have failing : r.Busy → ∃ w', (restartOperation iid now r.operation).alone iid w =
        (.ok (), w') ∧ Restarted (fun o => r.operation.operationId = o ∧ r.Busy) w w' := by
    intro busy
    have hrun : ∃ w', (restartOperation iid now r.operation).alone iid w = (.ok (), w') ∧
        w'.installed = w.installed ∧
        w'.candidates = Function.update w.candidates r.operation.operationId none ∧
        w'.state.operations = w.state.operations.insert r.operation.operationId
          (r.withFailure restartErrorCode [] now) := by
      unfold restartOperation
      rcases busy with hs | hs
      all_goals
        simp only [hs]
        rw [alone_bind_ok (setFailed_alone_ok hm rfl)]
        cases r.operation.artifact <;> exact ⟨_, rfl, rfl, rfl, rfl⟩
    obtain ⟨w', hw', hinst, hcand, hops⟩ := hrun
    have hmem : ∀ o, w'.inMemory o = if r.operation.operationId = o then
        some (r.withFailure restartErrorCode [] now) else w.inMemory o := by
      intro o
      rw [World.inMemory, hops, getElem?_insert_uuid]
      rfl
    refine ⟨w', hw', hinst, fun o ho => ?_, fun o q hq hfailed => ?_⟩
    · have hne : r.operation.operationId ≠ o := fun h => ho ⟨h, busy⟩
      rw [hmem o, if_neg hne, hcand, Function.update_of_ne (hne.symm)]
      exact ⟨rfl, rfl⟩
    · rw [hmem o] at hq
      split at hq
      · cases hq
        exact absurd rfl hfailed
      · exact hq
  have unchanged : ∀ w' : World, w'.installed = w.installed → w'.state = w.state → w'.candidates =
      w.candidates → Restarted (fun o => r.operation.operationId = o ∧ r.Busy) w w' := by
    intro w' hinst hstate hcand
    have hmem : ∀ o, w'.inMemory o = w.inMemory o := fun o => by rw [World.inMemory, hstate]; rfl
    exact ⟨hinst, fun o _ => ⟨hmem o, by rw [hcand]⟩, fun o q hq _ => (hmem o).symm.trans hq⟩
  cases hs : r.operation.state with
  | accepted => exact failing (.inl hs)
  | building => exact failing (.inr hs)
  | finalized =>
    obtain ⟨a, ha, hat⟩ := honoured hs
    refine ⟨w.withoutMirrors r.operation.operationId, ?_, unchanged _ rfl rfl rfl⟩
    unfold restartOperation
    simp only [hs]
    rw [alone_bind_ok (finalize_alone_finalized hm rfl hs ha hat)]
    rfl
  | built | failed | aborted =>
    refine ⟨w, ?_, unchanged w rfl rfl rfl⟩
    unfold restartOperation
    simp only [hs]
    rfl

/-- The loop of `reconcile_restart`, over operations with distinct ids. -/
theorem forEach_restart_alone (now : Timestamp) {records : List StoredOperation}
    (distinct : records.Pairwise fun r r' => r.operation.operationId ≠ r'.operation.operationId)
    {w : World} (hm : ∀ r ∈ records, w.inMemory r.operation.operationId = some r)
    (honoured : ∀ r ∈ records, w.Honours iid r) :
    ∃ w', (Call.forEach (restartOperation iid now) (records.map StoredOperation.operation)).alone iid w =
      (.ok (), w') ∧ Restarted (fun o => ∃ r ∈ records, r.operation.operationId = o ∧ r.Busy) w w' := by
  induction records generalizing w with
  | nil => exact ⟨w, rfl, rfl, fun _ _ => ⟨rfl, rfl⟩, fun _ _ hq _ => hq⟩
  | cons r records ih =>
    obtain ⟨hr, hrest⟩ := List.pairwise_cons.mp distinct
    obtain ⟨w₁, hw₁, turn⟩ := restartOperation_alone now (hm r List.mem_cons_self) (honoured r List.mem_cons_self)
    obtain ⟨w₂, hw₂, rest⟩ := ih hrest (fun q hq => by
        rw [(turn.kept _ fun h => hr q hq h.1).1]
        exact hm q (List.mem_cons_of_mem _ hq))
      (fun q hq hfin => by
        obtain ⟨a, ha, hat⟩ := honoured q (List.mem_cons_of_mem _ hq) hfin
        exact ⟨a, ha, (attested_installed_congr (by rw [turn.installed])).mpr hat⟩)
    refine ⟨w₂, ?_, rest.installed.trans turn.installed, fun o ho => ?_,
      fun o q hq hfailed => turn.origin o q (rest.origin o q hq hfailed) hfailed⟩
    · have hbind := alone_bind_ok (f := fun _ : Unit => .forEach
        (restartOperation iid now) (records.map StoredOperation.operation)) hw₁
      exact hbind.trans hw₂
    · obtain ⟨hmem₁, hcand₁⟩ := turn.kept o fun h => ho ⟨r, List.mem_cons_self, h⟩
      obtain ⟨hmem₂, hcand₂⟩ := rest.kept o fun ⟨q, hq, h⟩ =>
        ho ⟨q, List.mem_cons_of_mem _ hq, h⟩
      exact ⟨hmem₂.trans hmem₁, hcand₂.trans hcand₁⟩

/-- What `open` makes of a journal whose `finalized` records are honoured: memory is what was on disk,
except that builds are ended and expired operations forgotten. -/
theorem openManager_alone {w : World} (keyed : ∀ o r, w.onDisk o = some r → r.operation.operationId = o)
    (honoured : ∀ o r, w.onDisk o = some r → w.Honours iid r) (now : Timestamp) :
    ∃ w', (openManager iid now).alone iid w = (.ok (), w') ∧ w'.installed = w.installed ∧
      (∀ o r, w.onDisk o = some r → ¬ r.Busy → r.operation.acknowledged = false → w'.inMemory o = some r ∧
      w'.candidates o = w.candidates o) ∧ ∀ o q, w'.inMemory o = some q → q.operation.state ≠ .failed →
      w.onDisk o = some q := by
  set loaded : World := { w with state := loadState w.readOperationsDir } with hloaded
  have hmem : ∀ o, loaded.inMemory o = w.onDisk o := loadState_operations keyed
  have hkeyed : ∀ (o : Uuid) r, loaded.state.operations[o]? = some r →
      r.operation.operationId = o := fun o r h => keyed o r ((hmem o).symm.trans h)
  have hrecords : ∀ r ∈ valuesOf loaded.state.operations, loaded.inMemory r.operation.operationId = some r := by
    intro r hr
    obtain ⟨o, ho⟩ := mem_valuesOf.mp hr
    rw [hkeyed o r ho]
    exact ho
  obtain ⟨w', hloop, restarted⟩ := forEach_restart_alone now (valuesOf_distinct hkeyed) hrecords
    (fun r hr => honoured _ r ((hmem _).symm.trans (hrecords r hr)))
  have hlayout : (Call.of (step .ensureLayout)).alone iid w = (.ok (), w) := rfl
  have hload : (Call.of (step .loadState)).alone iid w = (.ok (), loaded) := rfl
  have hask : (Call.ask .operations).alone iid loaded =
      (.ok ((valuesOf loaded.state.operations).map StoredOperation.operation), loaded) := rfl
  have hforget : (cleanupAcknowledged now).alone iid w' =
      (.ok (), (w'.state.expired now).foldl .forgetOne w') := rfl
  refine ⟨(w'.state.expired now).foldl .forgetOne w', ?_, ?_, fun o r hr busy hack => ?_,
    fun o q hq hfailed => ?_⟩
  · unfold openManager
    rw [alone_bind_ok hlayout, alone_bind_ok hload]
    unfold reconcileRestart
    rw [alone_bind_ok ((alone_bind_ok hask).trans hloop), hforget]
  · rw [(foldl_forgetOne_directories ..).1, restarted.installed]
  · obtain ⟨hkept, hcand⟩ := restarted.kept o <| by
      rintro ⟨q, hq, hid, hbusy⟩
      have hqo := (hrecords q hq).symm.trans ((congrArg loaded.inMemory hid).trans ((hmem o).trans hr))
      cases hqo
      exact busy hbusy
    have hstays : w'.inMemory o = some r := hkept.trans ((hmem o).trans hr)
    -- what nobody has acknowledged has not expired
    have hunlisted : o ∉ w'.state.expired now := by
      intro hlisted
      simp only [OperationState.expired, List.mem_map, List.mem_filter, Bool.and_eq_true] at hlisted
      obtain ⟨⟨id, stored⟩, ⟨hentry, ⟨hacked, -⟩, -⟩, rfl⟩ := hlisted
      have hget := Std.TreeMap.mem_toList_iff_getElem?_eq_some.mp hentry
      cases hget.symm.trans hstays
      rw [hack] at hacked
      cases hacked
    rw [(foldl_forgetOne_records ..).1, if_neg hunlisted, (foldl_forgetOne_directories ..).2]
    exact ⟨hstays, hcand⟩
  · rw [(foldl_forgetOne_records ..).1] at hq
    split at hq
    · cases hq
    · exact (hmem o).symm.trans (restarted.origin o q hq hfailed)

/-- **Restart from an honoured journal.**  If every record on disk is filed under its id and every
`finalized` one is honoured, `open` returns `Ok`. -/
theorem openManager_alone_ok {w : World} (keyed : ∀ o r, w.onDisk o = some r → r.operation.operationId = o)
    (honoured : ∀ o r, w.onDisk o = some r → w.Honours iid r) (now : Timestamp) :
    ((openManager iid now).alone iid w).1 = .ok () := by
  obtain ⟨w', hopen, -⟩ := openManager_alone keyed honoured now
  rw [hopen]

/-! ## An honoured journal, step by step -/

/-- Memory and journal are filed under their ids, and every `finalized` record is honoured. -/
structure World.Sound (iid : String) (w : World) : Prop where
  keyed : w.Keyed
  inMemory : ∀ o r, w.inMemory o = some r → w.Honours iid r
  onDisk : ∀ o r, w.onDisk o = some r → w.Honours iid r

/-- The two assertions of an outline on which the journal depends. -/
structure Honest (iid : String) (a : Act) (w : World) : Prop where
  finalizes : ∀ p o errorCode now, a = .setState p o .finalized errorCode now →
    ∀ r, w.inMemory o = some r → r.operation.pluginId = p → r.operation.state ≠ .aborted →
      r.operation.state ≠ .failed →
      ∃ artifact, r.operation.artifact = some artifact ∧ w.Attested iid (.installed p) p o artifact
  keepsInstalled : ∀ p, a ≠ .removeDirectory (.installed p)

theorem Disciplined.honest {a : Act} {w : World} (h : Disciplined iid a w) : Honest iid a w where
  finalizes p o errorCode now ha := by subst ha; exact h
  keepsInstalled _ := h.keeps_installed

theorem OpeningStep.honest {a : Act} {w : World} (h : OpeningStep a w) : Honest iid a w where
  finalizes p o errorCode now ha := by subst ha; exact h.elim
  keepsInstalled p ha := by subst ha; exact h

section
variable {a : Act} {c : Outcome} {w : World}

theorem Honest.keeps_honours (honest : Honest iid a w) {r : StoredOperation}
    (h : w.Honours iid r) : (exec iid a c w).2.Honours iid r := by
  intro hfin
  obtain ⟨artifact, hart, hattested⟩ := h hfin
  exact ⟨artifact, hart, exec_keeps_attested (honest.keepsInstalled _) hattested⟩

theorem Honest.changes_honours (honest : Honest iid a w) {o : Uuid}
    {r r' : StoredOperation} (hr : w.inMemory o = some r) (keyed : r.operation.operationId = o)
    (hchange : Changes a o r r') (h : w.Honours iid r) : w.Honours iid r' := by
  intro hfin
  cases hchange with
  | setState _ plugin allowed =>
    subst hfin plugin
    have live : ∀ s, s.isTerminal = true → s ≠ .finalized → r.operation.state ≠ s := by
      rintro s hterminal hne rfl
      exact hne (allowed hterminal)
    obtain ⟨artifact, hart, hattested⟩ := honest.finalizes _ _ _ _ rfl r hr rfl
      (live .aborted rfl (by simp)) (live .failed rfl (by simp))
    exact ⟨artifact, hart, by rwa [keyed]⟩
  | setBuilt _ plugin building => cases hfin
  | setFailed _ plugin => cases hfin
  | acknowledge _ plugin terminal => exact h hfin

/-- **The step lemma.**  An honest step keeps the journal honoured, failing or not. -/
theorem World.Sound.step (h : w.Sound iid) (honest : Honest iid a w) : (exec iid a c w).2.Sound iid := by
  have keyed : (exec iid a c w).2.Keyed := h.keyed.step
  by_cases hload : a = .loadState
  · subst hload
    have hmem := loadState_operations h.keyed.onDisk
    simp only [exec] at keyed ⊢
    generalize attempt .operationsDir c = attempted at keyed ⊢
    cases attempted with
    | error e => exact h
    | ok _ => exact ⟨keyed, fun o r hr => h.onDisk o r ((hmem o).symm.trans hr), h.onDisk⟩
  have memory : ∀ o r, (exec iid a c w).2.inMemory o = some r → (exec iid a c w).2.Honours iid r := by
    intro o r' hr'
    rcases exec_record_cases hload hr' with hr | ⟨-, p, now, sequence, rfl⟩ | ⟨r, hr, hchange⟩
    · exact honest.keeps_honours (h.inMemory o r' hr)
    · exact fun hfin => by cases hfin
    · exact honest.keeps_honours (honest.changes_honours hr (h.keyed.inMemory o r hr) hchange (h.inMemory o r hr))
  refine ⟨keyed, memory, fun o r' hr' => ?_⟩
  have unchanged : (exec iid a c w).2.onDisk o = w.onDisk o → (exec iid a c w).2.Honours iid r' := fun hsame =>
    honest.keeps_honours (h.onDisk o r' (hsame.symm.trans hr'))
  rcases (exec_effect iid a c w).record hload h.keyed o with
    ⟨-, hsame⟩ | ⟨-, -, -, hnone⟩ | ⟨-, -, -, -, hdisk⟩ | ⟨-, -, hmem, ⟨-, hdisk⟩ | ⟨-, hsame⟩⟩
  · exact unchanged hsame
  · rw [hnone] at hr'
    cases hr'
  · cases hdisk.symm.trans hr'
    exact fun hfin => by cases hfin
  · cases hdisk.symm.trans hr'
    exact memory o r' hmem
  · exact unchanged hsame

end

/-! ## What every running task knows -/

def Knows (iid : String) (w : World) (t : SupervisorTask) : Prop :=
  match t.tag with
  | .request (.finalize p o _) =>
      t.prog.Along (exec iid) (fun _ => True) (FinalizeRely iid p o) (Disciplined iid) (fun _ _ => True) w
  | .request (.abort _ o _) =>
      t.prog.Along (exec iid) (fun _ => True) (AbortRely o) (Disciplined iid) (fun _ _ => True) w
  | .build _ o =>
      t.prog.Along (exec iid) (fun _ => True) (BuildRely o) (Disciplined iid) (fun _ _ => True) w
  | .opening _ =>
      t.prog.Along (exec iid) (fun _ => True) OpeningRely OpeningStep (fun _ _ => True) w
  | .request (.begin _ o _) => ∀ p, t.prog.head = some (.spawnBuild p o) → w.Unbuilt o
  | .request (.status ..) | .request .list | .request (.acknowledge ..)
  | .request (.cleanupAcknowledged _) =>
      t.prog.Uses fun a => ∀ w, Disciplined iid a w

theorem knows_request (w : World) (request : Request) : Knows iid w ((Tag.request request).task iid) := by
  cases request with
  | begin p o now =>
    intro p' h
    cases h
  | status p o => exact .bind (uses_step fun _ => trivial) fun _ => trivial
  | list =>
    exact .bind (.bind (uses_step fun _ => trivial) fun _ => trivial)
      fun _ => trivial
  | finalize p o now => exact .bind (finalize_outline p o now w) fun _ _ _ _ _ => trivial
  | abort p o now => exact .bind (abort_outline p o now w) fun _ _ _ _ _ => trivial
  | acknowledge p o now => exact .bind (uses_step fun _ => trivial) fun _ => trivial
  | cleanupAcknowledged now =>
    exact .bind (uses_bind (uses_ask fun _ => trivial) fun _ => uses_step fun _ => trivial)
      fun _ => trivial

theorem knows_build {w : World} (p : PluginId) {o : Uuid} (h : w.Unbuilt o) :
    Knows iid w ((Tag.build p o).task iid) :=
  (runBuild_outline p o h).bind fun _ _ _ _ _ => trivial

theorem knows_opening {w : World} (now : Timestamp) (keyed : w.Keyed) :
    Knows iid w ((Tag.opening now).task iid) :=
  .bind (openManager_outline now keyed) fun _ _ _ _ _ => trivial

/-- What happens to a task between two of its steps, by what it was started for. -/
def Spares (iid : String) (t : SupervisorTask) (w w' : World) : Prop :=
  match t.tag with
  | .request (.finalize p o _) => t.prog.head ≠ none → FinalizeRely iid p o w w'
  | .request (.abort _ o _) => t.prog.head ≠ none → AbortRely o w w'
  | .build _ o => t.prog.head ≠ none → BuildRely o w w'
  | .opening _ => OpeningRely w w'
  | .request (.begin _ o _) => (∃ p, t.prog.head = some (.spawnBuild p o)) → BuildRely o w w'
  | _ => True

variable {t : SupervisorTask}

theorem Knows.spared {w w' : World} (h : Knows iid w t) (spares : Spares iid t w w') : Knows iid w' t := by
  obtain ⟨tag, prog⟩ := t
  have finished : ∀ {R : World → World → Prop} [IsTrans World R] {Φ : Act → World → Prop},
      (prog.head ≠ none → R w w') → prog.Along (exec iid) (fun _ => True) R Φ (fun _ _ => True) w → prog.Along
      (exec iid) (fun _ => True) R Φ (fun _ _ => True) w' := by
    intro R _ Φ hR hal
    cases prog with
    | ret v => exact fun _ _ => trivial
    | act a k => exact hal.rely (hR (by simp))
  cases tag with
  | build p o => exact finished spares h
  | opening now => exact finished (fun _ => spares) h
  | request r =>
    cases r with
    | begin p o now => exact fun p' hp => (spares ⟨p', hp⟩).unbuilt (h p' hp)
    | finalize p o now => exact finished spares h
    | abort p o now => exact finished spares h
    | status | list | acknowledge | cleanupAcknowledged => exact h

theorem Knows.disciplined {w : World} {tag : Tag} {a : Act} {k : a.Resp → Program Reply}
    (h : Knows iid w ⟨tag, .act a k⟩) (serving : ∀ now, tag ≠ .opening now)
    (begins : ∀ p o now, tag = .request (.begin p o now) → a = .register p o now ∨ a = .spawnBuild p o) :
    Disciplined iid a w := by
  cases tag with
  | build p o => exact h.head
  | opening now => exact absurd rfl (serving now)
  | request r =>
    cases r with
    | begin p o now => rcases begins p o now rfl with rfl | rfl <;> trivial
    | finalize p o now => exact h.head
    | abort p o now => exact h.head
    | status | list | acknowledge | cleanupAcknowledged => exact h.1 w

/-! ## Runs -/

/-- What holds of the Supervisor in every run that meets `RestartSafe`. -/
structure System.Recoverable (iid : String) (s : System) : Prop where
  formed : s.Formed iid
  sound : s.world.Sound iid
  knows : ∀ t ∈ s.tasks, Knows iid s.world t

/-- The condition on a step.  A plugin is removed only while none of its operations is recorded as
`finalized` and no `finalize` of it is running; an operation id is not begun anew while a task of its
earlier use is still running.  Failures and crashes are not restricted. -/
def RestartSafe (s : System) : Label → Prop
  | .removePlugin p _ =>
      (∀ o r, s.world.inMemory o = some r ∨ s.world.onDisk o = some r →
        r.operation.pluginId = p → r.operation.state ≠ .finalized) ∧
      ∀ t ∈ s.tasks, ∀ o now, t.tag = .request (.finalize p o now) → t.prog.head = none
  | .advance i _ => NoReuse s i
  | _ => True

section
variable {s : System} {i : Nat} {c : Outcome} {tag : Tag} {a : Act} {k : a.Resp → Program Reply}

theorem System.Manned.begin_step (formed : s.Manned iid)
    (htask : s.tasks[i]? = some ⟨tag, .act a k⟩) (p : PluginId) (o : Uuid) (now : Timestamp)
    (htag : tag = .request (.begin p o now)) : a = .register p o now ∨ a = .spawnBuild p o := by
  rcases formed.begins _ (List.mem_of_getElem? htask) p o now htag with h | ⟨_, h⟩ | ⟨_, h⟩
  · rw [begin_program] at h
    cases h
    exact .inl rfl
  · cases h
    exact .inr rfl
  · cases h

theorem System.Formed.spares (formed : s.Formed iid) (htask : s.tasks[i]? = some ⟨tag, .act a k⟩)
    (fresh : NoReuse s i) (disciplined : Disciplined iid a s.world)
    (serving : ∀ t ∈ s.tasks, ∀ now, t.tag ≠ .opening now) {j : Nat} (hne : j ≠ i)
    (ht : s.tasks[j]? = some t) : Spares iid t s.world (exec iid a c s.world).2 := by
  have hmem := List.mem_of_getElem? ht
  have unengaged : ∀ o, Engaged o t → ¬ a.Creates o s.world := fun o hengaged hcreates =>
    fresh _ o htask ⟨a, rfl, hcreates⟩ t hmem hengaged
  -- only the one builder of an operation records its artifact
  have otherBuilder : ∀ o, Builder o t → ∀ p artifact logs now, a ≠ .setBuilt p o artifact logs now := by
    rintro o hbuilder p artifact logs now rfl
    exact hne (formed.single o j i _ _ ht htask hbuilder (.inl ⟨by simp, p, formed.step_allowed htask⟩))
  obtain ⟨tag', prog⟩ := t
  cases tag' with
  | build p o =>
    exact fun hrunning => disciplined.buildRely (otherBuilder o (.inl ⟨hrunning, p, rfl⟩))
  | opening now => exact absurd rfl (serving _ hmem now)
  | request r =>
    cases r with
    | begin p o now =>
      exact fun hspawn => disciplined.buildRely (otherBuilder o (.inr hspawn))
    | finalize p o now =>
      exact fun hrunning => disciplined.finalizeRely (unengaged o (.inl ⟨hrunning, .inl ⟨p, now, rfl⟩⟩))
    | abort p o now =>
      exact fun hrunning => disciplined.abortRely (unengaged o (.inl ⟨hrunning, .inr (.inl ⟨p, now, rfl⟩)⟩))
    | status | list | acknowledge | cleanupAcknowledged => trivial

theorem Knows.step {w : World} (h : Knows iid w ⟨tag, .act a k⟩)
    (shape : ∀ p o now, tag = .request (.begin p o now) → BeginShape iid p o now (.act a k)) :
    Knows iid (exec iid a c w).2 ⟨tag, k (exec iid a c w).1⟩ := by
  cases tag with
  | build p o => exact .step h trivial
  | opening now => exact .step h trivial
  | request r =>
    cases r with
    | begin p o now =>
      intro p' hp'
      rcases shape p o now rfl with hs | ⟨_, hs⟩ | ⟨_, hs⟩
      · rw [begin_program] at hs
        cases hs
        generalize hr : (exec iid (.register p o now) c w).1 = answer at hp'
        match answer with
        | .ok (operation, true) =>
          obtain ⟨_, hmem, -, created⟩ := register_returns hr
          obtain ⟨-, ⟨sequence, rfl⟩, -⟩ := created rfl
          intro r hr'
          cases hmem.symm.trans hr'
          rfl
        | .ok (operation, false) => cases hp'
        | .error error => cases hp'
      · cases hs
        cases hp'
      · cases hs
    | finalize p o now => exact .step h trivial
    | abort p o now => exact .step h trivial
    | status | list | acknowledge | cleanupAcknowledged => exact h.2 _

/-- Interference from outside the manager: memory, journal and candidates stay, and so do the
installed directories that running `finalize` calls look at. -/
theorem spares_of_frame {w w' : World} (hstate : w'.state = w.state)
    (hrecords : w'.records = w.records) (hcandidates : w'.candidates = w.candidates)
    (hinstalled : ∀ p o now, t.tag = .request (.finalize p o now) → t.prog.head ≠ none →
      w'.installed p = w.installed p) : Spares iid t w w' := by
  have hmem : ∀ o, w'.inMemory o = w.inMemory o := fun o => by rw [World.inMemory, hstate]; rfl
  obtain ⟨tag, prog⟩ := t
  cases tag with
  | build p o => exact fun _ => ⟨fun h r hr => h r ((hmem o).symm.trans hr)⟩
  | opening now => exact ⟨hstate, hrecords⟩
  | request r =>
    cases r with
    | begin p o now => exact fun _ => ⟨fun h r hr => h r ((hmem o).symm.trans hr)⟩
    | finalize p o now =>
      intro hrunning
      have hdead : w.Dead p o → w'.Dead p o := fun h r hr => h r ((hmem o).symm.trans hr)
      refine ⟨fun _ h r hr => h r ((hmem o).symm.trans hr), hdead, fun _ _ h => ?_, fun _ h => ?_⟩
      · exact h.imp hdead fun h content hcontent => h content (by rwa [← hcandidates])
      · exact (attested_installed_congr (hinstalled p o now rfl hrunning)).mpr h
    | abort p o now =>
      exact fun _ => ⟨fun h r hr => h r ((hmem o).symm.trans hr),
        fun h r hr => h r ((hmem o).symm.trans hr)⟩
    | status | list | acknowledge | cleanupAcknowledged => trivial

/-- Soundness looks at memory, journal and the directories of the plugins with a `finalized`
record. -/
theorem World.Sound.of_frame {w w' : World} (h : w.Sound iid)
    (hstate : ∀ o r, w'.inMemory o = some r → w.inMemory o = some r) (hrecords : w'.records = w.records)
    (hinstalled : ∀ o r, w.inMemory o = some r ∨ w.onDisk o = some r → r.operation.state = .finalized →
      w'.installed r.operation.pluginId = w.installed r.operation.pluginId) : w'.Sound iid := by
  have hdisk : ∀ o r, w'.onDisk o = some r → w.onDisk o = some r := fun o r hr => by
    rwa [World.onDisk, hrecords] at hr
  have honours : ∀ o r, w.inMemory o = some r ∨ w.onDisk o = some r → w.Honours iid r → w'.Honours iid r := by
    intro o r hr hh hfin
    obtain ⟨artifact, hart, hat⟩ := hh hfin
    exact ⟨artifact, hart, (attested_installed_congr (hinstalled o r hr hfin)).mpr hat⟩
  refine ⟨⟨fun o r hr => h.keyed.inMemory o r (hstate o r hr),
    fun o r hr => h.keyed.onDisk o r (hdisk o r hr)⟩, fun o r hr => ?_, fun o r hr => ?_⟩
  · exact honours o r (.inl (hstate o r hr)) (h.inMemory o r (hstate o r hr))
  · exact honours o r (.inr (hdisk o r hr)) (h.onDisk o r (hdisk o r hr))

theorem removePlugin_frame (p : PluginId) (c : Outcome) (w : World) : (w.removePlugin p c).state = w.state ∧
    (w.removePlugin p c).records = w.records ∧ (w.removePlugin p c).candidates = w.candidates ∧ ∀ q, q ≠ p →
    (w.removePlugin p c).installed q = w.installed q := by
  unfold World.removePlugin
  split
  · exact ⟨rfl, rfl, rfl, fun _ _ => rfl⟩
  · split
    · exact ⟨rfl, rfl, rfl, fun _ _ => rfl⟩
    · exact ⟨rfl, rfl, rfl, fun _ _ => rfl⟩
    · rcases removeDirectory_eq (.installed p) c { w with images := _ } with h | ⟨rest, h, -⟩
      · rw [h]
        exact ⟨rfl, rfl, rfl, fun _ _ => rfl⟩
      · rw [h]
        exact ⟨rfl, rfl, rfl, fun q hq => by simp [World.setDirectory, hq]⟩

theorem recoverable_crashed {w : World} (h : w.Sound iid) : (System.crashed w).Recoverable iid where
  formed := formed_crashed iid w
  sound := h.of_frame (fun o r hr => by cases hr) rfl fun _ _ _ _ => rfl
  knows t ht := by cases ht

theorem System.Recoverable.honest (h : s.Recoverable iid)
    (htask : s.tasks[i]? = some ⟨tag, .act a k⟩) : Honest iid a s.world := by
  have hmem := List.mem_of_getElem? htask
  have hknows := h.knows _ hmem
  by_cases hopening : ∃ now, tag = .opening now
  · obtain ⟨now, rfl⟩ := hopening
    exact (hknows.head).honest
  · exact (hknows.disciplined (fun now htag => hopening ⟨now, htag⟩) (h.formed.begin_step htask)).honest

theorem System.Recoverable.advanced (h : s.Recoverable iid)
    (htask : s.tasks[i]? = some ⟨tag, .act a k⟩) (fresh : NoReuse s i) :
    (s.advanced iid i tag a k c).Recoverable iid where
  formed := h.formed.advanced htask fresh
  sound := h.sound.step (h.honest htask)
  knows t ht := by
    have hmem := List.mem_of_getElem? htask
    rcases Lib.Pool.mem_of_step ht with rfl | ⟨j, hne, hj⟩ | hnew
    · exact (h.knows _ hmem).step (h.formed.begins _ hmem)
    · have serving := h.formed.staffed.serving (h.formed.staffed.phase_of_two htask hj hne)
      have disciplined : Disciplined iid a s.world :=
        (h.knows _ hmem).disciplined (serving _ hmem) (h.formed.begin_step htask)
      exact (h.knows t (List.mem_of_getElem? hj)).spared (h.formed.spares htask fresh disciplined serving hne hj)
    · obtain ⟨p, o, rfl, rfl⟩ := mem_forked hnew
      obtain ⟨now, rfl⟩ := h.formed.step_allowed htask
      exact knows_build p (h.knows _ hmem p rfl)

/-- **The run lemma's step**: a step that meets `RestartSafe` keeps the Supervisor recoverable. -/
theorem System.Recoverable.next {s' : System} {label : Label} (h : s.Recoverable iid)
    (safe : RestartSafe s label) (hnext : s.next iid label = some s') : s'.Recoverable iid := by
  have formed : s'.Formed iid :=
    h.formed.next (fun i c hlabel => by subst hlabel; exact safe) hnext
  cases next_cases hnext with
  | boot now down =>
    refine ⟨formed, h.sound, fun t ht => ?_⟩
    rw [List.mem_singleton.mp ht]
    exact knows_opening now h.sound.keyed
  | ready opening opened => exact ⟨formed, h.sound, fun t ht => by cases ht⟩
  | call request serving =>
    refine ⟨formed, h.sound, fun t ht => ?_⟩
    rcases List.mem_append.mp ht with ht | ht
    · exact h.knows t ht
    · rw [List.mem_singleton.mp ht]
      exact knows_request s.world request
  | advance task => exact h.advanced task safe
  | crash => exact recoverable_crashed h.sound
  | crashDuring task => exact recoverable_crashed (h.sound.step (h.honest task))
  | removePlugin p c =>
    obtain ⟨hstate, hrecords, hcandidates, hinstalled⟩ := removePlugin_frame p c s.world
    refine ⟨formed, h.sound.of_frame (fun o r hr => ?_) hrecords fun o r hr hfin => ?_,
      fun t ht => (h.knows t ht).spared (spares_of_frame hstate hrecords hcandidates ?_)⟩
    · rwa [World.inMemory, hstate] at hr
    · exact hinstalled _ fun hp => safe.1 o r hr hp hfin
    · intro q o now htag hrunning
      refine hinstalled q fun hq => hrunning ?_
      subst hq
      exact safe.2 t ht o now htag
  | outside hstate hrecords hcandidates hinstalled =>
    -- Core writes files that no record and no task depends on
    refine ⟨formed, h.sound.of_frame (fun o r hr => ?_) hrecords fun _ _ _ _ => by rw [hinstalled],
      fun t ht => (h.knows t ht).spared
        (spares_of_frame hstate hrecords hcandidates fun _ _ _ _ _ => by rw [hinstalled])⟩
    rwa [World.inMemory, hstate] at hr

/-- **The run lemma.** -/
theorem recoverable_of_run {labels : List Label}
    (run : Run (System.next iid) RestartSafe System.initial labels s) : s.Recoverable iid := by
  have initial : System.initial.Recoverable iid :=
    recoverable_crashed (w := World.empty) ⟨⟨fun o r hr => (by cases hr), fun o r hr => by cases hr⟩,
        fun o r hr => (by cases hr), fun o r hr => by cases hr⟩
  exact run.invariant (fun _ _ _ hI hok htaken => hI.next hok htaken) initial

/-- **Every restart succeeds** after a run from an empty root whose steps all meet `RestartSafe`,
whatever fails and wherever the process dies on the way. -/
theorem open_ok_after_run {labels : List Label}
    (run : Run (System.next iid) RestartSafe System.initial labels s) (now : Timestamp) :
    ((openManager iid now).alone iid s.world).1 = .ok () := by
  have final := recoverable_of_run run
  exact openManager_alone_ok final.sound.keyed.onDisk final.sound.onDisk now

end

/-! ## One installation, and a removal after it -/

def sampleOutput : BuildOutput :=
  ⟨⟨"sha256:image", "repository", "commit", "source", "manifest"⟩, [], "base", "sdk", []⟩

/-- Task `i` takes `n` steps without a failure. -/
def advances (i n : Nat) : List Label := List.replicate n (.advance i .done)

/-- The Supervisor starts, and operation 1 builds plugin `p`. -/
def buildRun : List Label :=
  [.boot 0] ++ advances 0 5 ++ [.ready, .call (.begin "p" 1 0)] ++ advances 0 2 ++
    [.advance 1 (.clock 1), .advance 1 .done, .advance 1 (.built (.ok sampleOutput))] ++
    advances 1 6

def installationRun : List Label := buildRun ++ [.call (.finalize "p" 1 2)] ++ advances 2 12

instance (p : PluginId) (tag : Tag) : Decidable (∀ o now, tag ≠ .request (.finalize p o now)) := by
  rcases tag with request | _ | _
  · cases request with
    | finalize q o now =>
      exact decidable_of_iff (q ≠ p)
        ⟨fun h _ _ heq => by cases heq; exact h rfl, fun h hq => h o now (by rw [hq])⟩
    | _ => exact isTrue fun _ _ h => by cases h
  all_goals exact isTrue fun _ _ h => by cases h

instance (s : System) : (label : Label) → Decidable (RestartSafe s label)
  | .advance i _ => inferInstanceAs (Decidable (NoReuse s i))
  | .removePlugin p _ =>
      decidable_of_iff ((∀ r ∈ valuesOf s.world.state.operations ++ valuesOf s.world.records,
          r.operation.pluginId = p → r.operation.state ≠ .finalized) ∧
        ∀ t ∈ s.tasks, t.prog.head = none ∨ ∀ o now, t.tag ≠ .request (.finalize p o now)) (by
      simp only [List.mem_append, mem_valuesOf]
      exact and_congr ⟨fun h o r hr => h r (hr.imp (⟨o, ·⟩) (⟨o, ·⟩)), fun h r hr =>
        hr.elim (fun ⟨o, hr⟩ => h o r (.inl hr)) (fun ⟨o, hr⟩ => h o r (.inr hr))⟩
        ⟨fun h t ht o now htag => (h t ht).resolve_right fun none => none o now htag,
          fun h t ht => or_iff_not_imp_left.mpr fun running o now htag => running (h t ht o now htag)⟩)
  | .boot _ | .ready | .call _ | .crash | .crashDuring .. | .prepare .. | .writeGrant _ | .mirrorGrant _ =>
      isTrue trivial

theorem open_ok_after_installation :
    ∃ s, Run (System.next "core") RestartSafe System.initial (installationRun ++ [.crash]) s ∧
      (∃ r, s.world.onDisk 1 = some r ∧ r.operation.state = .finalized) ∧
      ((openManager "core" 5).alone "core" s.world).1 = .ok () := by
  have run : Run (System.next "core") RestartSafe System.initial (installationRun ++ [.crash]) _ :=
    Run.of_decide rfl
  exact ⟨_, run, ⟨_, rfl, rfl⟩, open_ok_after_run run 5⟩

/-- Removing an installed plugin leaves its `finalized` record without a directory, and the
Supervisor does not start again. -/
theorem open_fails_after_removal : ∃ s, Run (System.next "core") (fun _ _ => True) System.initial
        (installationRun ++ [.removePlugin "p" .done]) s ∧
      ((openManager "core" 5).alone "core" s.world).1 = .error .installedAttestationMismatch :=
  ⟨_, Run.of_foldlM rfl, rfl⟩

end AudioDown.Supervisor
