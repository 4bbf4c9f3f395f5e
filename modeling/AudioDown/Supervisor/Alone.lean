/-
# AudioDown.Supervisor.Alone — the manager's methods when nothing interferes and nothing fails

`Call.alone` runs a method from its first step to its last, every step succeeding.  Each method gets
one specification here: what it returns and what it leaves behind, for every world it can be
called in.
-/
import AudioDown.Supervisor.Effects
import AudioDown.Supervisor.Manager

namespace AudioDown.Supervisor

open Lib (Prog)

def undisturbed : Act → Outcome := fun _ => .done

def Call.alone {α : Type} (iid : String) (x : Call α) (w : World) : Except InstallOperationError α × World :=
  Prog.run (exec iid) undisturbed x w

section
variable {iid : String} {α β : Type}

theorem alone_bind (x : Call α) (f : α → Call β) (w : World) : (x >>= f).alone iid w =
      match x.alone iid w with
      | (.ok value, w') => (f value).alone iid w'
      | (.error error, w') => (.error error, w') := by
  have h : (x >>= f).alone iid w = (Call.andThen f (x.alone iid w).1).alone iid
        (x.alone iid w).2 := Prog.run_bind x (Call.andThen f) w
  rw [h]
  rcases x.alone iid w with ⟨result, w'⟩
  cases result <;> rfl

@[simp] theorem alone_pure (value : α) (w : World) : (pure value : Call α).alone iid w = (.ok value, w) := rfl

@[simp] theorem alone_throw (error : InstallOperationError) (w : World) :
    (Call.throw error : Call α).alone iid w = (.error error, w) := rfl

@[simp] theorem alone_ask (a : Act) (w : World) : (Call.ask a).alone iid w =
      (.ok (exec iid a .done w).1, (exec iid a .done w).2) := rfl

theorem alone_bind_ok {x : Call α} {f : α → Call β} {w w' : World} {value : α}
    (h : x.alone iid w = (.ok value, w')) : (x >>= f).alone iid w = (f value).alone iid w' := by
  rw [alone_bind, h]

theorem alone_bind_error {x : Call α} {f : α → Call β} {w w' : World} {error : InstallOperationError}
    (h : x.alone iid w = (.error error, w')) : (x >>= f).alone iid w = (.error error, w') := by
  rw [alone_bind, h]

end

section
variable {iid : String} {w : World} {p : PluginId} {o : Uuid}

/-! ## Looking an operation up -/

theorem status_alone_ok {r : StoredOperation} (hm : w.inMemory o = some r) (hp : r.operation.pluginId = p) :
    (status p o).alone iid w = (.ok r.operation, w) := by
  show ((w.state.matchingOperation p o).map StoredOperation.operation, w) = _
  rw [matchingOperation_eq_ok.mpr ⟨hm, hp⟩]
  rfl

theorem status_alone_error (hm : ∀ r, w.inMemory o = some r → r.operation.pluginId ≠ p) :
    (status p o).alone iid w = (.error .notFound, w) := by
  show ((w.state.matchingOperation p o).map StoredOperation.operation, w) = _
  unfold OperationState.matchingOperation
  cases h : w.state.operations[o]? with
  | none => rfl
  | some r => simp [hm r h, Except.map]

/-! ## Attestations -/

/-- `installed/<plugin>` is attested to operation `o` of this installation with artifact `a`. -/
def World.Attested (iid : String) (w : World) (directory : Directory) (p : PluginId)
    (o : Uuid) (a : PluginInstallArtifact) : Prop :=
  ∃ content found, w.directory directory = some content ∧ content.attestation = some found ∧
    found.Attests iid p o a

variable {a : PluginInstallArtifact} {content : InstallDirectory} {directory : Directory}
  {found : InstallAttestation} {now : Timestamp} {r : StoredOperation}

theorem attested_installed_congr {w' : World} (h : w'.installed p = w.installed p) :
    w'.Attested iid (.installed p) p o a ↔ w.Attested iid (.installed p) p o a := by
  simp only [World.Attested, World.directory, h]

theorem directoryExists_alone : (Call.ask (.directoryExists directory)).alone iid w =
      (.ok (w.directory directory).isSome, w) := rfl

theorem attestationFromDirectory_alone_ok (hd : w.directory directory = some content)
    (hf : content.attestation = some found) (ha : found.Attests iid p o a) :
    (attestationFromDirectory iid directory p o a).alone iid w = (.ok found, w) := by
  unfold attestationFromDirectory
  rw [alone_bind_ok (alone_ask _ _)]
  simp [exec, hd, hf, ha]

theorem attestationFromDirectory_alone_error (h : ¬ w.Attested iid directory p o a) :
    (attestationFromDirectory iid directory p o a).alone iid w = (.error .installedAttestationMismatch, w) := by
  unfold attestationFromDirectory
  rw [alone_bind_ok (alone_ask _ _)]
  cases hd : w.directory directory with
  | none => simp [exec, hd]
  | some content =>
    cases hf : content.attestation with
    | none => simp [exec, hd, hf]
    | some found =>
      have hna : ¬ found.Attests iid p o a := fun ha => h ⟨content, found, hd, hf, ha⟩
      simp [exec, hd, hf, hna]

theorem verifyAttestation_alone_ok (hd : w.directory directory = some content)
    (hf : content.attestation = some found) : (verifyAttestation directory found).alone iid w = (.ok (), w) := by
  unfold verifyAttestation
  rw [alone_bind_ok (alone_ask _ _)]
  simp [exec, hd, hf]

/-! ## Mirrors -/

/-- The world after `remove_mirrors`. -/
def World.withoutMirrors (o : Uuid) (w : World) : World :=
  { w with
    grants := match (w.prepared o).bind PreparedRequest.riskGrantId with
      | some grantId => Function.update w.grants grantId false
      | none => w.grants
    prepared := Function.update w.prepared o none
    mirroredGrants := Function.update w.mirroredGrants o false }

theorem removeMirrors_alone : (removeMirrors o).alone iid w = (.ok (), w.withoutMirrors o) := by
  unfold removeMirrors
  rw [alone_bind_ok (alone_ask _ _)]
  cases hg : (w.prepared o).bind PreparedRequest.riskGrantId with
  | none =>
    simp only [exec, hg, World.withoutMirrors]
    rfl
  | some grantId =>
    simp only [exec, hg, World.withoutMirrors]
    rfl

/-! ## State changes -/

/-- The world after a setter stored `r`. -/
def World.saved (o : Uuid) (r : StoredOperation) (w : World) : World :=
  { w with
    state.operations := w.state.operations.insert o r
    records := w.records.insert r.operation.operationId r }

/-- The record `set_state` writes. -/
def StoredOperation.withState (r : StoredOperation) (state : PluginInstallOperationState)
    (errorCode : Option String) (now : Timestamp) : StoredOperation :=
  { r with operation := { r.operation with state, errorCode }, updatedAt := now }

variable {state : PluginInstallOperationState} {errorCode : Option String}

theorem setState_alone_ok {r : StoredOperation} {now : Timestamp}
    (hm : w.inMemory o = some r) (hp : r.operation.pluginId = p)
    (allowed : r.operation.state.isTerminal = true → r.operation.state = state) :
    (Call.of (step (.setState p o state errorCode now))).alone iid w =
      (.ok (r.withState state errorCode now).operation, w.saved o (r.withState state errorCode now)) := by
  show w.setState p o state errorCode now .done = _
  have hrefuse : ¬ (r.operation.state.isTerminal = true ∧ r.operation.state ≠ state) :=
    fun h => h.2 (allowed h.1)
  simp [World.setState, World.changeRecord, matchingOperation_eq_ok.mpr ⟨hm, hp⟩, hrefuse,
    World.persistRecord, World.saved, StoredOperation.withState, Except.map]

theorem setState_alone_error {r : StoredOperation} {now : Timestamp} (hm : w.inMemory o = some r)
    (hp : r.operation.pluginId = p) (terminal : r.operation.state.isTerminal = true)
    (differs : r.operation.state ≠ state) : (Call.of (step (.setState p o state errorCode now))).alone iid w =
      (.error .invalidTransition, w) := by
  show w.setState p o state errorCode now .done = _
  simp [World.setState, World.changeRecord, matchingOperation_eq_ok.mpr ⟨hm, hp⟩, terminal, differs]

/-- The record `set_failed` writes. -/
def StoredOperation.withFailure (r : StoredOperation) (errorCode : String)
    (buildLogs : List PluginBuildLog) (now : Timestamp) : StoredOperation :=
  { r with
    operation := { r.operation with
      state := .failed, errorCode := some errorCode, buildLogs }
    updatedAt := now }

theorem setFailed_alone_ok {r : StoredOperation} {errorCode : String} {buildLogs : List PluginBuildLog}
    {now : Timestamp} (hm : w.inMemory o = some r) (hp : r.operation.pluginId = p) :
    (Call.of (step (.setFailed p o errorCode buildLogs now))).alone iid w =
      (.ok (r.withFailure errorCode buildLogs now).operation,
      w.saved o (r.withFailure errorCode buildLogs now)) := by
  show w.setFailed p o errorCode buildLogs now .done = _
  simp [World.setFailed, World.changeRecord, matchingOperation_eq_ok.mpr ⟨hm, hp⟩,
    World.persistRecord, World.saved, StoredOperation.withFailure, Except.map]

theorem acknowledge_alone_ok {r : StoredOperation} {now : Timestamp} (hm : w.inMemory o = some r)
    (hp : r.operation.pluginId = p) (terminal : r.operation.state.isTerminal = true) :
    (acknowledge p o now).alone iid w = (.ok { r.operation with acknowledged := true }, w.saved o { r with
          operation := { r.operation with acknowledged := true }, updatedAt := now }) := by
  show w.acknowledge p o now .done = _
  simp [World.acknowledge, World.changeRecord, matchingOperation_eq_ok.mpr ⟨hm, hp⟩, terminal,
    World.persistRecord, World.saved, Except.map]

/-! ## Finalize -/

/-- A restart's `finalize`: the operation is already `finalized` and its directory in place. -/
theorem finalize_alone_finalized (hm : w.inMemory o = some r) (hp : r.operation.pluginId = p)
    (hs : r.operation.state = .finalized) (ha : r.operation.artifact = some a)
    (hat : w.Attested iid (.installed p) p o a) : (finalize iid p o now).alone iid w =
      (.ok r.operation, w.withoutMirrors o) := by
  obtain ⟨content, found, hd, hf, hatt⟩ := hat
  unfold finalize
  rw [alone_bind_ok (status_alone_ok hm hp)]
  simp only [ha]
  rw [alone_bind_ok directoryExists_alone]
  simp only [hd, Option.isSome_some, if_true]
  rw [alone_bind_ok (attestationFromDirectory_alone_ok hd hf hatt)]
  simp only [hs]
  rw [alone_bind_ok (verifyAttestation_alone_ok hd hf), alone_bind_ok removeMirrors_alone]
  rfl

/-- `finalize` finds its directory: in place and nowhere else, or still a candidate. -/
def World.Finalizable (iid : String) (w : World) (p : PluginId) (o : Uuid)
    (a : PluginInstallArtifact) : Prop :=
  (w.Attested iid (.installed p) p o a ∧ w.candidates o = none) ∨
    (w.installed p = none ∧ w.Attested iid (.candidate o) p o a)

/-- The world once the candidate, if there still is one, is `installed/<plugin>`. -/
def World.placed (p : PluginId) (o : Uuid) (w : World) : World :=
  match w.candidates o with
  | none => w
  | some content =>
      (w.setDirectory (.candidate o) none).setDirectory (.installed p) (some content)

theorem placed_state : (w.placed p o).state = w.state := by
  unfold World.placed
  split <;> rfl

theorem placeInstalled_alone_installed (hd : w.directory (.installed p) = some content)
    (hf : content.attestation = some found) (hc : w.candidates o = none) :
    (placeInstalled p o found).alone iid w = (.ok (), w.placed p o) := by
  have hplaced : w.placed p o = w := by rw [World.placed, hc]
  have hcandidate : w.directory (.candidate o) = none := hc
  unfold placeInstalled
  rw [alone_bind_ok directoryExists_alone, hd]
  simp only [Option.isSome_some, if_true]
  rw [alone_bind_ok (verifyAttestation_alone_ok hd hf), alone_bind_ok directoryExists_alone, hcandidate, hplaced]
  rfl

theorem placeInstalled_alone_candidate (hi : w.installed p = none)
    (hd : w.directory (.candidate o) = some content) (hf : content.attestation = some found) :
    (placeInstalled p o found).alone iid w = (.ok (), w.placed p o) := by
  have hinstalled : w.directory (.installed p) = none := hi
  have hcandidate : w.candidates o = some content := hd
  have hrename : (Call.of (step (.renameCandidate p o))).alone iid w = (.ok (), w.placed p o) := by
    show w.renameCandidate p o .done = _
    simp [World.renameCandidate, World.placed, hcandidate, World.moveInto, World.directory,
      World.setDirectory, hi]
  unfold placeInstalled
  rw [alone_bind_ok directoryExists_alone, hinstalled]
  simp only [Option.isSome_none, Bool.false_eq_true, if_false]
  rw [alone_bind_ok (verifyAttestation_alone_ok hd hf)]
  rw [alone_bind_ok (show (Call.of (step .createInstalledParent)).alone iid w =
    (.ok (), w) from rfl), alone_bind_ok hrename]
  rfl

theorem finalize_alone_built (hm : w.inMemory o = some r) (hp : r.operation.pluginId = p)
    (hs : r.operation.state = .built) (ha : r.operation.artifact = some a) (hfin : w.Finalizable iid p o a) :
    (finalize iid p o now).alone iid w = (.ok (r.withState .finalized none now).operation,
    ((w.placed p o).saved o (r.withState .finalized none now)).withoutMirrors o) := by
  have hm' : (w.placed p o).inMemory o = some r := by
    rw [← hm, World.inMemory, placed_state, World.inMemory]
  have hset : (Call.of (step (.setState p o .finalized none now))).alone iid
      (w.placed p o) = _ := setState_alone_ok hm' hp (by simp [hs])
  unfold finalize
  rw [alone_bind_ok (status_alone_ok hm hp)]
  simp only [ha]
  rw [alone_bind_ok directoryExists_alone]
  rcases hfin with ⟨⟨content, found, hd, hf, hatt⟩, hc⟩ | ⟨hi, content, found, hd, hf, hatt⟩
  · simp only [hd, Option.isSome_some, if_true]
    rw [alone_bind_ok (attestationFromDirectory_alone_ok hd hf hatt)]
    simp only [hs]
    rw [alone_bind_ok (placeInstalled_alone_installed hd hf hc), alone_bind_ok hset,
      alone_bind_ok removeMirrors_alone]
    rfl
  · simp only [show w.directory (.installed p) = none from hi, Option.isSome_none, Bool.false_eq_true, if_false]
    rw [alone_bind_ok (attestationFromDirectory_alone_ok hd hf hatt)]
    simp only [hs]
    rw [alone_bind_ok (placeInstalled_alone_candidate hi hd hf), alone_bind_ok hset,
      alone_bind_ok removeMirrors_alone]
    rfl

theorem finalize_alone_built_error (hm : w.inMemory o = some r) (hp : r.operation.pluginId = p)
    (hs : r.operation.state = .built) (ha : r.operation.artifact = some a) (hfin : ¬ w.Finalizable iid p o a) :
    (finalize iid p o now).alone iid w = (.error .installedAttestationMismatch, w) := by
  unfold finalize
  rw [alone_bind_ok (status_alone_ok hm hp)]
  simp only [ha]
  rw [alone_bind_ok directoryExists_alone]
  cases hd : w.directory (.installed p) with
  | none =>
    have hna : ¬ w.Attested iid (.candidate o) p o a := fun hat => hfin (.inr ⟨hd, hat⟩)
    simp only [Option.isSome_none, Bool.false_eq_true, if_false]
    rw [alone_bind_error (attestationFromDirectory_alone_error hna)]
  | some content =>
    simp only [Option.isSome_some, if_true]
    by_cases hat : w.Attested iid (.installed p) p o a
    · -- both directories exist
      have hc : w.directory (.candidate o) ≠ none := fun hc => hfin (.inl ⟨hat, hc⟩)
      obtain ⟨content', found, hd', hf, hatt⟩ := hat
      rw [alone_bind_ok (attestationFromDirectory_alone_ok hd' hf hatt)]
      simp only [hs]
      have hplace : (placeInstalled p o found).alone iid w = (.error .installedAttestationMismatch, w) := by
        unfold placeInstalled
        rw [alone_bind_ok directoryExists_alone, hd]
        simp only [Option.isSome_some, if_true]
        rw [alone_bind_ok (verifyAttestation_alone_ok hd' hf),
          alone_bind_ok directoryExists_alone, Option.isSome_iff_ne_none.mpr hc]
        rfl
      rw [alone_bind_error hplace]
    · rw [alone_bind_error (attestationFromDirectory_alone_error hat)]

/-! ## Abort -/

/-- The world after `abort` has released what its snapshot knows of. -/
def World.released (o : Uuid) (artifact : Option PluginInstallArtifact) (w : World) : World :=
  { (w.setDirectory (.candidate o) none).withoutMirrors o with
    images := match artifact with
      | some a => Function.update w.images a.imageId none
      | none => w.images }

theorem releaseResources_alone {operation : PluginInstallOperation} (hs : operation.state ≠ .finalized) :
    (releaseResources iid p o operation).alone iid w = (.ok (), w.released o operation.artifact) := by
  have hremove : (removeDirectory (.candidate o)).alone iid w =
      (.ok (), w.setDirectory (.candidate o) none) := rfl
  unfold releaseResources
  rw [alone_bind_ok hremove, if_neg hs, alone_bind_ok removeMirrors_alone]
  cases operation.artifact <;> rfl

theorem abort_alone_aborted (hm : w.inMemory o = some r)
    (hp : r.operation.pluginId = p) (hs : r.operation.state = .aborted) : (abort iid p o now).alone iid w =
      (.ok r.operation, w.released o r.operation.artifact) := by
  have hne : r.operation.state ≠ .finalized := by rw [hs]; decide
  unfold abort
  rw [alone_bind_ok (status_alone_ok hm hp), if_neg hne]
  simp only [hs, if_true]
  rw [alone_bind_ok (alone_pure _ _), alone_bind_ok (releaseResources_alone hne)]
  rfl

theorem abort_alone_pending (hm : w.inMemory o = some r)
    (hp : r.operation.pluginId = p) (hs : r.operation.state.isTerminal = false) :
    (abort iid p o now).alone iid w = (.ok (r.withState .aborted r.operation.errorCode now).operation,
        (w.saved o (r.withState .aborted r.operation.errorCode now)).released o r.operation.artifact) := by
  have hne : r.operation.state ≠ .finalized := by rintro h; simp [h] at hs
  have hna : r.operation.state ≠ .aborted := by rintro h; simp [h] at hs
  unfold abort
  rw [alone_bind_ok (status_alone_ok hm hp), if_neg hne]
  simp only [hna, if_false]
  rw [alone_bind_ok (setState_alone_ok hm hp (by simp [hs])), alone_bind_ok (releaseResources_alone hne)]
  rfl

/-- A `failed` operation cannot be aborted: the state change is refused and nothing is released. -/
theorem abort_alone_failed (hm : w.inMemory o = some r) (hp : r.operation.pluginId = p)
    (hs : r.operation.state = .failed) : (abort iid p o now).alone iid w = (.error .invalidTransition, w) := by
  unfold abort
  rw [alone_bind_ok (status_alone_ok hm hp), if_neg (by rw [hs]; decide)]
  simp only [hs, reduceCtorEq, if_false]
  rw [alone_bind_error (setState_alone_error hm hp (by simp [hs]) (by simp [hs]))]

/-- Nor can a `finalized` one, although `abort` has a branch for it. -/
theorem abort_alone_finalized (hm : w.inMemory o = some r) (hp : r.operation.pluginId = p)
    (hs : r.operation.state = .finalized) : ∃ error, (abort iid p o now).alone iid w = (.error error, w) := by
  unfold abort
  rw [alone_bind_ok (status_alone_ok hm hp), if_pos hs]
  unfold verifyInstalled
  cases ha : r.operation.artifact with
  | none => exact ⟨.invalidTransition, by rw [alone_bind_error (alone_throw _ _)]⟩
  | some a =>
    by_cases hat : w.Attested iid (.installed p) p o a
    · obtain ⟨content, found, hd, hf, hatt⟩ := hat
      refine ⟨.invalidTransition, ?_⟩
      have hverify : (do
          let expected ← attestationFromDirectory iid (.installed p) p o a
          verifyAttestation (.installed p) expected).alone iid w = (.ok (), w) := by
        rw [alone_bind_ok (attestationFromDirectory_alone_ok hd hf hatt), verifyAttestation_alone_ok hd hf]
      rw [alone_bind_ok hverify]
      simp only [hs, reduceCtorEq, if_false]
      rw [alone_bind_error (setState_alone_error hm hp (by simp [hs]) (by simp [hs]))]
    · refine ⟨.installedAttestationMismatch, ?_⟩
      rw [alone_bind_error]
      rw [alone_bind_error (attestationFromDirectory_alone_error hat)]

end

end AudioDown.Supervisor
