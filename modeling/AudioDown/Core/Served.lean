/-
# AudioDown.Core.Served — the Supervisor's methods, beside its builds

What each request of an installation does, when nothing fails and the builds of the Supervisor take their
steps in between.  Each method gets one specification: from an assertion about the operation that no
build breaks, it returns `Ok`, and another one holds.
-/
import AudioDown.Core.Tended

namespace AudioDown.Core

open Lib (Prog)
open Lib.Prog (StableUnder)
open Supervisor

variable {iid : String} {p : PluginId}

/-! ## Rules -/

def Supported (a : InstallAct) (c : InstallOutcome) (s : Scene) : Prop := Smooth a c ∧ Favours a c s

/-- Beside its builds, the program returns under `Q`. -/
abbrev Ends {α : Type} (iid : String) (Q : α → Scene → Prop) (x : InstallProgram α) (s : Scene) : Prop :=
  x.Beside (installStep iid) Supported (Background iid) Q s

/-- It returns `Ok`. -/
def Succeeds {ε α : Type} (P : α → Scene → Prop) (r : Except ε α) (s : Scene) : Prop :=
  ∃ value, r = .ok value ∧ P value s

/-- A step of the Supervisor that neither starts a build nor has a cause. -/
def Plain : Act → Prop
  | .register .. | .spawnBuild .. | .setFailed .. => False
  | _ => True

section
variable {ε α β : Type} {Q : α → Scene → Prop} {P : β → Scene → Prop} {A : Scene → Prop} {s : Scene}
  {a : Act} {c : Outcome}

theorem Succeeds.stable {R : Scene → Scene → Prop} (kept : ∀ value, StableUnder R (P value))
    (r : Except ε β) : StableUnder R (Succeeds P r) :=
  fun s t ⟨value, hr, hs⟩ hstep => ⟨value, hr, kept value s t hs hstep⟩

theorem installStep_plain (plain : Plain a) : installStep iid (.supervisor a) (.supervisor c) s =
      ((exec iid a c s.world).1, { s with world := (exec iid a c s.world).2 }) := by
  have cause : causeOf iid s.handed s.world a c = none := by
    cases a with
    | register | setFailed => exact plain.elim
    | _ => rfl
  have none : forked iid a (exec iid a c s.world).1 = [] := by
    cases a with
    | spawnBuild => exact plain.elim
    | _ => rfl
  show (_, { s.supervised iid a c with
    builds := s.builds ++ forked iid a (exec iid a c s.world).1 }) = _
  rw [none, List.append_nil, Scene.supervised, cause, Option.or_none]
  rfl

theorem ends_act {k : a.Resp → InstallProgram α} (plain : Plain a)
    (stable : StableUnder (Background iid) A) (hs : A s)
    (next : ∀ t c, A t → Unfailing a c → Favours (.supervisor a) (.supervisor c) t →
      Ends iid Q (k (exec iid a c t.world).1) { t with world := (exec iid a c t.world).2 }) :
    Ends iid Q (.act (.supervisor a) k) s := by
  refine .act stable hs ?_
  rintro t _ ht ⟨⟨c, rfl, works⟩, favours⟩
  rw [installStep_plain plain]
  exact next t c ht works favours

theorem ends_answer {f : a.Resp → Except ε β} (plain : Plain a)
    (stable : StableUnder (Background iid) A) (hs : A s)
    (kept : ∀ value, StableUnder (Background iid) (P value))
    (next : ∀ t c, A t → Unfailing a c → Favours (.supervisor a) (.supervisor c) t →
      Succeeds P (f (exec iid a c t.world).1) { t with world := (exec iid a c t.world).2 }) :
    Ends iid (Succeeds P) (.act (.supervisor a) fun r => .ret (f r)) s :=
  ends_act plain stable hs fun t c ht works favours =>
    .ret (.stable kept _) (next t c ht works favours)

/-- A method of the Supervisor returns `Ok`. -/
def Returns {α : Type} (iid : String) (P : α → Scene → Prop) (x : Call α) (s : Scene) : Prop :=
  Ends iid (Succeeds P) (onSupervisor x) s

theorem Returns.bind {P' : α → Scene → Prop} {x : Call β} {f : β → Call α} (hx : Returns iid P x s)
    (hf : ∀ value t, P value t → Returns iid P' (f value) t) : Returns iid P' (x >>= f) s := by
  have split : onSupervisor (x >>= f : Call α) =
      (onSupervisor x).bind fun r => onSupervisor (Call.andThen f r) := Prog.substitute_bind ..
  unfold Returns
  rw [split]
  refine .bind hx ?_
  rintro r t ⟨value, rfl, hvalue⟩
  exact hf value t hvalue

theorem Returns.pure {value : β} (kept : ∀ value, StableUnder (Background iid) (P value))
    (hs : P value s) : Returns iid P (Pure.pure value : Call β) s := by
  show Ends iid (Succeeds P) (.ret (.ok value)) s
  exact .ret (.stable kept _) ⟨value, rfl, hs⟩

end

/-! ## Assertions about the operation -/

variable {h : Handed}

def KeptByBuilds (iid : String) (p : PluginId) (o : Uuid) (P : StoredOperation → Scene → Prop) : Prop :=
  ∀ s t r r', P r s → Becomes iid p o s.world t.world r r' → s.Frame t → P r' t

/-- The installation of `h` goes on, and `P` holds of its operation. -/
def Going (iid : String) (p : PluginId) (h : Handed) (P : StoredOperation → Scene → Prop)
    (s : Scene) : Prop :=
  ∃ r, s.handed = some h ∧ s.cause = none ∧ Tended iid p h.operationId s r ∧ P r s

theorem Going.stable {P : StoredOperation → Scene → Prop} (kept : KeptByBuilds iid p h.operationId P) :
    StableUnder (Background iid) (Going iid p h P) := by
  rintro s t ⟨r, handed, cause, tended, hP⟩ hstep
  obtain ⟨r', tended', becomes, frame⟩ := tended.background (by rw [handed]; rfl) hstep
  exact ⟨r', frame.handed.trans handed, frame.cause.trans cause, tended', kept s t r r' hP becomes frame⟩

variable {o : Uuid}

theorem Tended.own {s : Scene} {w' : World} {r r' : StoredOperation}
    (tended : Tended iid p o s r) (keyed : w'.Keyed) (memory : w'.inMemory o = some r')
    (disk : w'.onDisk o = some r') (plugin : r'.operation.pluginId = r.operation.pluginId)
    (fits : ∀ stage, Fits iid p o s.world r stage → Fits iid p o w' r' stage) :
    Tended iid p o { s with world := w' } r' :=
  ⟨keyed, memory, disk, plugin.trans tended.plugin,
    fun i t hi => (tended.builds i t hi).imp_right fun ⟨stage, ht, hfits⟩ => ⟨stage, ht, fits stage hfits⟩,
    tended.single⟩

theorem Tended.untouched {s : Scene} {w' : World} {r : StoredOperation}
    (tended : Tended iid p o s r) (keyed : w'.Keyed) (state : w'.state = s.world.state)
    (records : w'.records = s.world.records) (candidates : w'.candidates = s.world.candidates) :
    Tended iid p o { s with world := w' } r := by
  refine tended.own keyed ?_ ?_ rfl fun stage fits => fits.congr (by rw [candidates]) rfl
  · rw [World.inMemory, state]
    exact tended.memory
  · rw [World.onDisk, records]
    exact tended.disk

/-- The operation waits for its build, or is built. -/
structure Waiting (iid : String) (p : PluginId) (h : Handed) (r : StoredOperation) (s : Scene) : Prop where
  pending : r.operation.state.isTerminal = false
  attested : r.operation.state = .built → ∃ a, r.operation.artifact = some a ∧
    s.world.Attested iid (.candidate h.operationId) p h.operationId a
  prepared : s.world.prepared h.operationId = some ⟨h.riskGrantId⟩
  installed : s.world.installed p = none

theorem attested_candidate_congr {w w' : World} {a : PluginInstallArtifact}
    (hc : w'.candidates o = w.candidates o) (ha : w.Attested iid (.candidate o) p o a) :
    w'.Attested iid (.candidate o) p o a := by
  obtain ⟨content, found, hcontent, hfound⟩ := ha
  exact ⟨content, found, hc.trans hcontent, hfound⟩

theorem pending_kept : KeptByBuilds iid p h.operationId (Waiting iid p h) := by
  intro s t r r' waiting becomes frame
  refine ⟨becomes.pending waiting.pending, fun hbuilt => ?_, ?_, ?_⟩
  · by_cases hr : r.operation.state = .built
    · obtain ⟨rfl, hcandidates⟩ := becomes.built hr
      obtain ⟨a, ha, hattested⟩ := waiting.attested hr
      exact ⟨a, ha, attested_candidate_congr hcandidates hattested⟩
    · exact becomes.attested hr hbuilt
  · rw [frame.files.prepared]
    exact waiting.prepared
  · rw [frame.files.installed]
    exact waiting.installed

/-- … and this is what the Supervisor has reported of it. -/
structure Seen (iid : String) (p : PluginId) (h : Handed) (operation : PluginInstallOperation)
    (r : StoredOperation) (s : Scene) : Prop extends Waiting iid p h r s where
  plugin : operation.pluginId = p
  operationId : operation.operationId = h.operationId
  unfinished : operation.state.isTerminal = false
  current : operation.state = .built → r.operation = operation

theorem seen_kept (operation : PluginInstallOperation) :
    KeptByBuilds iid p h.operationId (Seen iid p h operation) := by
  intro s t r r' seen becomes frame
  refine ⟨pending_kept s t r r' seen.toWaiting becomes frame, seen.plugin, seen.operationId,
    seen.unfinished, fun hbuilt => ?_⟩
  have hr := seen.current hbuilt
  obtain ⟨rfl, -⟩ := becomes.built (by rw [hr]; exact hbuilt)
  exact hr

/-- The operation is over, and the prepared files are gone. -/
structure Released (h : Handed) (r : StoredOperation) (s : Scene) : Prop where
  terminal : r.operation.state.isTerminal = true
  prepared : s.world.prepared h.operationId = none
  grant : ∀ g, h.riskGrantId = some g → s.world.grants g = false

theorem released_kept : KeptByBuilds iid p h.operationId (Released h) := by
  intro s t r r' released becomes frame
  refine ⟨becomes.terminal released.terminal, ?_, fun g hg => ?_⟩
  · rw [frame.files.prepared]
    exact released.prepared
  · rw [frame.files.grants]
    exact released.grant g hg

/-! ## The Supervisor's methods -/

section
variable {s : Scene}

theorem Going.quiet {P P' : StoredOperation → Scene → Prop} {a : Act} {c : Outcome} (quiet : a.Quiet)
    (hs : Going iid p h P s) (next : ∀ r, P r s → P' r { s with world := (exec iid a c s.world).2 }) :
    Going iid p h P' { s with world := (exec iid a c s.world).2 } := by
  obtain ⟨r, handed, cause, tended, hP⟩ := hs
  obtain ⟨state, records, candidates, -⟩ := Supervisor.exec_quiet iid quiet c s.world
  exact ⟨r, handed, cause, tended.untouched tended.keyed.step state records candidates, next r hP⟩

theorem status_returns (hs : Going iid p h (Waiting iid p h) s) :
    Returns iid (fun operation => Going iid p h (Seen iid p h operation))
      (Supervisor.status p h.operationId) s := by
  refine ends_answer (a := .status p h.operationId) (f := id) trivial (.stable pending_kept) hs
    (fun operation => .stable (seen_kept operation)) ?_
  rintro t c ⟨r, handed, cause, tended, waiting⟩ - -
  refine ⟨r.operation, ?_, r, handed, cause, tended, waiting, tended.plugin,
    tended.keyed.inMemory _ r tended.memory, waiting.pending, fun _ => rfl⟩
  show (t.world.state.matchingOperation p h.operationId).map StoredOperation.operation = _
  rw [Supervisor.matchingOperation_eq_ok.mpr ⟨tended.memory, tended.plugin⟩]
  rfl

/-! ### The mirrors -/

/-- The operation is over; its files are still there. -/
structure Over (h : Handed) (r : StoredOperation) (s : Scene) : Prop where
  terminal : r.operation.state.isTerminal = true
  prepared : s.world.prepared h.operationId = some ⟨h.riskGrantId⟩

theorem over_kept : KeptByBuilds iid p h.operationId (Over h) := by
  intro s t r r' ended becomes frame
  refine ⟨becomes.terminal ended.terminal, ?_⟩
  rw [frame.files.prepared]
  exact ended.prepared

def Revoked (h : Handed) (r : StoredOperation) (s : Scene) : Prop :=
  Over h r s ∧ ∀ g, h.riskGrantId = some g → s.world.grants g = false

theorem revoked_kept : KeptByBuilds iid p h.operationId (Revoked h) := by
  rintro s t r r' ⟨ended, grant⟩ becomes frame
  refine ⟨over_kept s t r r' ended becomes frame, fun g hg => ?_⟩
  rw [frame.files.grants]
  exact grant g hg

theorem removeMirrors_returns (hs : Going iid p h (Over h) s) :
    Returns iid (fun _ => Going iid p h (Released h)) (Supervisor.removeMirrors h.operationId) s := by
  have released : ∀ _ : Unit, StableUnder (Background iid)
      (Going iid p h (Released h)) := fun _ => Going.stable released_kept
  -- the two files that are removed in any case
  have rest : ∀ t, Going iid p h (Revoked h) t → Returns iid (fun _ => Going iid p h (Released h)) (do
        Supervisor.removeFile (.preparedRequest h.operationId)
        Supervisor.removeFile (.mirroredGrant h.operationId)) t := by
    intro t ht
    refine Returns.bind (P := fun _ => Going iid p h (Released h)) ?_ fun _ u hu => ?_
    · refine ends_answer (a := .removeFile (.preparedRequest h.operationId)) (f := id) trivial
        (Going.stable revoked_kept) ht released fun u c hu works _ => ⟨(), ?_, hu.quiet trivial ?_⟩
      · rw [exec_of_succeeds works]
        rfl
      · rintro r ⟨ended, grant⟩
        rw [exec_of_succeeds works]
        exact ⟨ended.terminal, Function.update_self .., grant⟩
    · refine ends_answer (a := .removeFile (.mirroredGrant h.operationId)) (f := id) trivial
        (Going.stable released_kept) hu released fun v c hv works _ => ⟨(), ?_, hv.quiet trivial ?_⟩
      · rw [exec_of_succeeds works]
        rfl
      · intro r hr
        rw [exec_of_succeeds works]
        exact ⟨hr.terminal, hr.prepared, hr.grant⟩
  refine Returns.bind (P := fun grant t => grant = h.riskGrantId ∧ Going iid p h (Over h) t) ?_ ?_
  · refine ends_answer (a := .readPrepared h.operationId) (f := .ok) trivial (Going.stable over_kept) hs
      ?_ fun t c ht works _ => ⟨_, rfl, ?_, ht.quiet trivial fun r ended => ⟨ended.terminal, ended.prepared⟩⟩
    · rintro grant u v ⟨hgrant, hu⟩ hstep
      exact ⟨hgrant, Going.stable over_kept u v hu hstep⟩
    · obtain ⟨r, -, -, -, ended⟩ := ht
      rw [exec_of_succeeds works]
      simp [exec, ended.prepared]
  · rintro grant t ⟨hgrant, ht⟩
    cases grant with
    | none =>
      refine rest t ?_
      obtain ⟨r, handed, cause, tended, ended⟩ := ht
      exact ⟨r, handed, cause, tended, ended, fun g hg => by simp [← hgrant] at hg⟩
    | some g =>
      refine Returns.bind (P := fun _ => Going iid p h (Revoked h)) ?_ fun _ => rest
      refine ends_answer (a := .removeFile (.grant g)) (f := id) trivial (Going.stable over_kept) ht
        (fun _ => Going.stable revoked_kept) fun u c hu works _ => ⟨(), ?_, hu.quiet trivial ?_⟩
      · rw [exec_of_succeeds works]
        rfl
      · intro r ended
        rw [exec_of_succeeds works]
        refine ⟨⟨ended.terminal, ended.prepared⟩, fun g' hg' => ?_⟩
        cases hgrant.trans hg'
        exact Function.update_self ..

/-! ### `abort` -/

/-- The operation has been given up; its files are still there. -/
structure Abandoned (h : Handed) (r : StoredOperation) (s : Scene) : Prop where
  givenUp : r.GivenUp
  prepared : s.world.prepared h.operationId = some ⟨h.riskGrantId⟩

theorem abandoned_kept : KeptByBuilds iid p h.operationId (Abandoned h) := by
  intro s t r r' abandoned becomes frame
  refine ⟨becomes.givenUp abandoned.givenUp, ?_⟩
  rw [frame.files.prepared]
  exact abandoned.prepared

theorem adapter_returns {a : Act} {k : a.Resp → InstallProgram (Except InstallOperationError Unit)}
    {x : Call Unit} (program : onSupervisor x = .act (.supervisor a) k)
    (quiet : a.Quiet) (plain : Plain a) (other : ∀ file, a ≠ .removeFile file)
    (answers : ∀ t c, Favours (.supervisor a) (.supervisor c) t → k (exec iid a c t.world).1 = .ret (.ok ()))
    (hs : Going iid p h (Released h) s) : Returns iid (fun _ => Going iid p h (Released h)) x s := by
  unfold Returns
  rw [program]
  refine ends_act plain (.stable released_kept) hs fun t c ht _ favours => ?_
  rw [answers t c favours]
  refine .ret (.stable (fun _ => .stable released_kept) _) ⟨(), rfl, ht.quiet quiet ?_⟩
  intro r released
  obtain ⟨prepared, grants⟩ := (exec_effect iid a c t.world).mirrors other
  refine ⟨released.terminal, ?_, fun g hg => ?_⟩
  · rw [prepared]
    exact released.prepared
  · rw [grants]
    exact released.grant g hg

theorem releaseResources_returns {operation : PluginInstallOperation}
    (state : operation.state ≠ .finalized) (hs : Going iid p h (Abandoned h) s) :
    Returns iid (fun _ => Going iid p h (Released h))
      (Supervisor.releaseResources iid p h.operationId operation) s := by
  have cleanup : ∀ t, Going iid p h (Released h) t → Returns iid (fun _ => Going iid p h (Released h))
        (Call.adapter (Supervisor.step (.cleanupTemporaryResources h.operationId))) t := by
    intro t ht
    refine adapter_returns rfl trivial trivial (by simp) (fun u c hc => ?_) ht
    rw [exec_of_succeeds hc]
    rfl
  refine Returns.bind (P := fun _ => Going iid p h (Over h)) ?_ fun _ t ht => ?_
  · refine ends_answer (a := .removeDirectory (.candidate h.operationId)) (f := id) trivial
      (Going.stable abandoned_kept) hs (fun _ => Going.stable over_kept) ?_
    rintro t c ⟨r, handed, cause, tended, abandoned⟩ works -
    rw [exec_of_succeeds works]
    refine ⟨(), rfl, r, handed, cause, tended.own ?_ tended.memory tended.disk rfl fun stage fits => ?_,
      Supervisor.GivenUp.terminal abandoned.givenUp, abandoned.prepared⟩
    · exact ⟨tended.keyed.inMemory, tended.keyed.onDisk⟩
    · exact fits.abandon abandoned.givenUp fun _ => Function.update_self ..
  · rw [if_neg state]
    refine Returns.bind (removeMirrors_returns ht) fun _ u hu => ?_
    cases operation.artifact with
    | none => exact cleanup u hu
    | some artifact =>
      refine Returns.bind (P := fun _ => Going iid p h (Released h)) ?_ fun _ => cleanup
      refine adapter_returns (a := .removeImage artifact.imageId) rfl trivial trivial (by simp)
        (fun v c hc => ?_) hu
      rw [exec_of_succeeds hc]
      rfl

theorem abort_returns (hs : Going iid p h (Waiting iid p h) s) (now : Timestamp) :
    Returns iid (fun operation t => operation.state = .aborted ∧
      operationIdentityMatches operation p h.operationId = true ∧
      Going iid p h (Released h) t) (Supervisor.abort iid p h.operationId now) s := by
  have stable : ∀ operation : PluginInstallOperation, StableUnder (Background iid)
      (fun t => operation.state = .aborted ∧ operationIdentityMatches operation p h.operationId = true ∧
        Going iid p h (Abandoned h) t) :=
    fun operation t u ht hstep => ⟨ht.1, ht.2.1, .stable abandoned_kept t u ht.2.2 hstep⟩
  refine .bind (status_returns hs) fun operation t ht => ?_
  have unfinished : operation.state.isTerminal = false := by
    obtain ⟨_, -, -, -, seen⟩ := ht
    exact seen.unfinished
  have hfinalized : operation.state ≠ .finalized := fun hstate => by simp [hstate] at unfinished
  have haborted : operation.state ≠ .aborted := fun hstate => by simp [hstate] at unfinished
  rw [if_neg hfinalized, if_neg haborted]
  refine .bind (P := fun operation t => operation.state = .aborted ∧ operationIdentityMatches operation p
    h.operationId = true ∧ Going iid p h (Abandoned h) t) ?_ fun aborted u hu => ?_
  · refine ends_answer (a := .setState p h.operationId .aborted operation.errorCode now) (f := id) trivial
      (.stable (seen_kept operation)) ht stable ?_
    rintro u c ⟨r, handed, cause, tended, seen⟩ works -
    rw [exec_of_succeeds works, exec_setState_ok tended.memory tended.plugin
      fun hterminal => by simp [seen.pending] at hterminal]
    have hid := tended.keyed.inMemory _ r tended.memory
    refine ⟨_, rfl, rfl, ?_, _, handed, cause, tended.own (saved_keyed tended.keyed hid) (saved_inMemory ..)
      (saved_onDisk _ hid) rfl fun stage fits => fits.abandon (.inl rfl) id, .inl rfl, seen.prepared⟩
    simp [operationIdentityMatches, StoredOperation.withState, tended.plugin, hid]
  · refine .bind (releaseResources_returns hfinalized hu.2.2) fun _ v hv => ?_
    exact .pure (fun operation v v' hv hstep =>
      ⟨hv.1, hv.2.1, .stable released_kept v v' hv.2.2 hstep⟩) ⟨hu.1, hu.2.1, hv⟩

/-! ### `acknowledge` -/

/-- The operation is over and acknowledged, and the prepared files are gone. -/
structure Settled (h : Handed) (r : StoredOperation) (s : Scene) : Prop extends Released h r s where
  acknowledged : r.operation.acknowledged = true

theorem settled_kept : KeptByBuilds iid p h.operationId (Settled h) := by
  intro s t r r' settled becomes frame
  exact ⟨released_kept s t r r' settled.toReleased becomes frame, becomes.acknowledged.trans settled.acknowledged⟩

theorem acknowledge_returns (hs : Going iid p h (Released h) s) (now : Timestamp) :
    Returns iid (fun operation t => operation.acknowledged = true ∧
      operationIdentityMatches operation p h.operationId = true ∧
      Going iid p h (Settled h) t) (Supervisor.acknowledge p h.operationId now) s := by
  refine ends_answer (a := .acknowledge p h.operationId now) (f := id) trivial (.stable released_kept) hs ?_ ?_
  · exact fun operation t u ht hstep => ⟨ht.1, ht.2.1, .stable settled_kept t u ht.2.2 hstep⟩
  · rintro t c ⟨r, handed, cause, tended, released⟩ works -
    have hid := tended.keyed.inMemory _ r tended.memory
    have hexec : exec iid (.acknowledge p h.operationId now) .done t.world = _ :=
      @Supervisor.acknowledge_alone_ok iid _ _ _ _ now tended.memory tended.plugin released.terminal
    rw [exec_of_succeeds works, hexec]
    refine ⟨_, rfl, rfl, ?_, _, handed, cause, tended.own (saved_keyed tended.keyed hid)
      (saved_inMemory ..) (saved_onDisk _ hid) rfl fun stage fits => fits.congr rfl rfl,
      ⟨released.terminal, released.prepared, released.grant⟩, rfl⟩
    simp [operationIdentityMatches, tended.plugin, hid]

/-! ### `finalize` -/

theorem ask_returns {a : Act} {answer : a.Resp} {A : Scene → Prop}
    (plain : Plain a) (stable : StableUnder (Background iid) A) (hs : A s)
    (answers : ∀ t c, A t → Unfailing a c → exec iid a c t.world = (answer, t.world)) :
    Returns iid (fun r t => r = answer ∧ A t) (Call.ask a) s := by
  refine ends_answer plain stable hs ?_ fun t c ht works _ => ?_
  · exact fun r t u ht hstep => ⟨ht.1, stable t u ht.2 hstep⟩
  · rw [answers t c ht works]
    exact ⟨answer, rfl, rfl, ht⟩

/-- The built operation `operation`, with its candidate. -/
structure Placing (p : PluginId) (h : Handed) (operation : PluginInstallOperation)
    (content : InstallDirectory) (r : StoredOperation) (s : Scene) : Prop where
  built : operation.state = .built
  current : r.operation = operation
  candidate : s.world.candidates h.operationId = some content
  prepared : s.world.prepared h.operationId = some ⟨h.riskGrantId⟩
  installed : s.world.installed p = none

theorem placing_kept {operation : PluginInstallOperation} {content : InstallDirectory} :
    KeptByBuilds iid p h.operationId (Placing p h operation content) := by
  intro s t r r' placing becomes frame
  obtain ⟨rfl, hcandidates⟩ := becomes.built (by rw [placing.current]; exact placing.built)
  refine ⟨placing.built, placing.current, hcandidates.trans placing.candidate, ?_, ?_⟩
  · rw [frame.files.prepared]
    exact placing.prepared
  · rw [frame.files.installed]
    exact placing.installed

/-- The same, after its candidate has been renamed. -/
structure Placed (h : Handed) (operation : PluginInstallOperation) (r : StoredOperation) (s : Scene) :
    Prop where
  built : operation.state = .built
  current : r.operation = operation
  prepared : s.world.prepared h.operationId = some ⟨h.riskGrantId⟩

theorem placed_kept {operation : PluginInstallOperation} :
    KeptByBuilds iid p h.operationId (Placed h operation) := by
  intro s t r r' placed becomes frame
  obtain ⟨rfl, -⟩ := becomes.built (by rw [placed.current]; exact placed.built)
  refine ⟨placed.built, placed.current, ?_⟩
  rw [frame.files.prepared]
  exact placed.prepared

theorem installed_returns {operation : PluginInstallOperation} {content : InstallDirectory}
    (hs : Going iid p h (Placing p h operation content) s) : Returns iid
      (fun r t => r = false ∧ Going iid p h (Placing p h operation content) t)
      (Call.ask (.directoryExists (.installed p))) s := by
  refine ask_returns trivial (.stable placing_kept) hs ?_
  rintro t c ⟨r, -, -, -, placing⟩ works
  have hnone : t.world.directory (.installed p) = none := placing.installed
  rw [exec_of_succeeds works]
  simp [exec, hnone]

section
variable {operation : PluginInstallOperation} {content : InstallDirectory} {found : InstallAttestation}
  (hfound : content.attestation = some found)
include hfound

theorem readAttestation_returns (hs : Going iid p h (Placing p h operation content) s) : Returns iid
      (fun r t => r = some found ∧ Going iid p h (Placing p h operation content) t)
      (Call.ask (.readAttestation (.candidate h.operationId))) s := by
  refine ask_returns trivial (.stable placing_kept) hs ?_
  rintro t c ⟨r, -, -, -, placing⟩ works
  have hcandidate : t.world.directory (.candidate h.operationId) = some content := placing.candidate
  rw [exec_of_succeeds works]
  simp [exec, hcandidate, hfound]

theorem placeInstalled_returns (hs : Going iid p h (Placing p h operation content) s) :
    Returns iid (fun _ => Going iid p h (Placed h operation))
      (Supervisor.placeInstalled p h.operationId found) s := by
  refine .bind (installed_returns hs) ?_
  rintro _ t ⟨rfl, ht⟩
  refine .bind (P := fun _ => Going iid p h (Placing p h operation content)) ?_
    fun _ u hu => ?_
  · refine .bind (readAttestation_returns hfound ht) ?_
    rintro _ u ⟨rfl, hu⟩
    simp only [if_true]
    exact .pure (fun _ => .stable placing_kept) hu
  refine .bind (P := fun _ => Going iid p h (Placing p h operation content)) ?_
    fun _ v hv => ?_
  · refine ends_answer (a := .createInstalledParent) (f := id) trivial (.stable placing_kept) hu
      (fun _ => .stable placing_kept) fun v c hv works _ => ⟨(), ?_, hv⟩
    rw [exec_of_succeeds works]
    rfl
  refine .bind (P := fun _ => Going iid p h (Placed h operation)) ?_ fun _ x hx => ?_
  · refine ends_answer (a := .renameCandidate p h.operationId) (f := id) trivial
      (.stable placing_kept) hv (fun _ => Going.stable placed_kept) ?_
    rintro x c ⟨r, handed, cause, tended, placing⟩ works -
    have hrename : exec iid (.renameCandidate p h.operationId) .done x.world =
        (.ok (), (x.world.setDirectory (.candidate h.operationId) none).setDirectory (.installed p)
          (some content)) := by
      simp [exec, World.renameCandidate, placing.candidate, World.moveInto, World.directory,
        World.setDirectory, placing.installed]
    rw [exec_of_succeeds works, hrename]
    refine ⟨(), rfl, r, handed, cause, tended.own ⟨tended.keyed.inMemory, tended.keyed.onDisk⟩ tended.memory
      tended.disk rfl fun stage fits => fits.stored ?_, placing.built, placing.current, placing.prepared⟩
    rw [placing.current]
    exact placing.built
  · refine ends_answer (a := .syncInstalledParent) (f := id) trivial (.stable placed_kept) hx
      (fun _ => .stable placed_kept) fun y c hy works _ => ⟨(), ?_, hy⟩
    rw [exec_of_succeeds works]
    rfl

end

theorem finalize_returns {operation : PluginInstallOperation} (built : operation.state = .built)
    (hs : Going iid p h (Seen iid p h operation) s) (now : Timestamp) :
    Returns iid (fun finalized t => finalized.state = .finalized ∧
      operationIdentityMatches finalized p h.operationId = true ∧ finalized.artifact = operation.artifact ∧
      Going iid p h (Released h) t) (Supervisor.finalize iid p h.operationId now) s := by
  refine .bind (P := fun found t => found = operation ∧ ∃ content attestation artifact,
    content.attestation = some attestation ∧ attestation.Attests iid p h.operationId artifact ∧
        operation.artifact = some artifact ∧ Going iid p h (Placing p h operation content) t) ?_ ?_
  · refine ends_answer (a := .status p h.operationId) (f := id) trivial (.stable (seen_kept operation)) hs ?_ ?_
    · rintro found t u ⟨hfound, content, attestation, artifact, hatt, hattests, hartifact, ht⟩ hstep
      exact ⟨hfound, content, attestation, artifact, hatt, hattests, hartifact, .stable placing_kept t u ht hstep⟩
    · rintro t c ⟨r, handed, cause, tended, seen⟩ - -
      have hr := seen.current built
      obtain ⟨artifact, hartifact, content, attestation, hcontent, hatt, hattests⟩ :=
        seen.attested (by rw [hr]; exact built)
      refine ⟨operation, ?_, rfl, content, attestation, artifact, hatt, hattests, ?_, r, handed, cause,
        tended, built, hr, hcontent, seen.prepared, seen.installed⟩
      · show (t.world.state.matchingOperation p h.operationId).map StoredOperation.operation = _
        rw [Supervisor.matchingOperation_eq_ok.mpr ⟨tended.memory, tended.plugin⟩, ← hr]
        rfl
      · rw [← hr]
        exact hartifact
  · rintro _ t ⟨rfl, content, attestation, artifact, hatt, hattests, hartifact, ht⟩
    rename_i operation
    simp only [hartifact, built]
    refine .bind (installed_returns ht) ?_
    rintro _ u ⟨rfl, hu⟩
    refine .bind (P := fun expected t => expected = attestation ∧
      Going iid p h (Placing p h operation content) t) ?_ ?_
    · refine .bind (readAttestation_returns hatt hu) ?_
      rintro _ v ⟨rfl, hv⟩
      simp only [hattests, if_true]
      exact .pure (fun _ x y hx hstep => ⟨hx.1, .stable placing_kept x y hx.2 hstep⟩) ⟨rfl, hv⟩
    · rintro _ v ⟨rfl, hv⟩
      refine .bind (placeInstalled_returns hatt hv) fun _ x hx => ?_
      refine .bind (P := fun finalized t => finalized.state = .finalized ∧ operationIdentityMatches finalized
        p h.operationId = true ∧ finalized.artifact = some artifact ∧ Going iid p h (Over h) t) ?_ ?_
      · refine ends_answer (a := .setState p h.operationId .finalized none now) (f := id) trivial
          (.stable placed_kept) hx ?_ ?_
        · exact fun _ y z hy hstep => ⟨hy.1, hy.2.1, hy.2.2.1, .stable over_kept y z hy.2.2.2 hstep⟩
        · rintro y c ⟨r, handed, cause, tended, placed⟩ works -
          have hbuilt : r.operation.state = .built := by rw [placed.current]; exact built
          have hid := tended.keyed.inMemory _ r tended.memory
          rw [exec_of_succeeds works, exec_setState_ok tended.memory tended.plugin
            fun hterminal => by simp [hbuilt] at hterminal]
          refine ⟨_, rfl, rfl, ?_, ?_, _, handed, cause, tended.own (saved_keyed tended.keyed hid)
            (saved_inMemory ..) (saved_onDisk _ hid) rfl fun stage fits => fits.stored hbuilt, rfl,
            placed.prepared⟩
          · simp [operationIdentityMatches, StoredOperation.withState, tended.plugin, hid]
          · show r.operation.artifact = some artifact
            rw [placed.current]
            exact hartifact
      · rintro finalized y ⟨hstate, hidentity, hartifact', hy⟩
        refine .bind (removeMirrors_returns hy) fun _ z hz => ?_
        exact .pure (fun _ x y hx hstep =>
          ⟨hx.1, hx.2.1, hx.2.2.1, .stable released_kept x y hx.2.2.2 hstep⟩)
          ⟨hstate, hidentity, hartifact', hz⟩

/-! ### `begin` -/

/-- The operation has been prepared, and nothing else is known of it. -/
structure Prepared (h : Handed) (s : Scene) : Prop where
  keyed : s.world.Keyed
  handed : s.handed = some h
  cause : s.cause = none
  memory : s.world.inMemory h.operationId = none
  disk : s.world.onDisk h.operationId = none
  candidate : s.world.candidates h.operationId = none
  prepared : s.world.prepared h.operationId = some ⟨h.riskGrantId⟩
  builds : ∀ t ∈ s.builds, Elsewhere h.operationId t

/-- It has been accepted, and its build has not been started. -/
structure Accepted (p : PluginId) (h : Handed) (r : StoredOperation) (s : Scene) : Prop where
  keyed : s.world.Keyed
  handed : s.handed = some h
  cause : s.cause = none
  memory : s.world.inMemory h.operationId = some r
  disk : s.world.onDisk h.operationId = some r
  plugin : r.operation.pluginId = p
  state : r.operation.state = .accepted
  candidate : s.world.candidates h.operationId = none
  prepared : s.world.prepared h.operationId = some ⟨h.riskGrantId⟩
  installed : s.world.installed p = none
  builds : ∀ t ∈ s.builds, Elsewhere h.operationId t

theorem elsewhere_background {t : Scene} (keyed : s.world.Keyed)
    (builds : ∀ t ∈ s.builds, Elsewhere o t) (hstep : Background iid s t) :
    t.world.Keyed ∧ SameFor o s.world t.world ∧ s.Frame t ∧ ∀ u ∈ t.builds, Elsewhere o u := by
  obtain ⟨i, c, tag, a, k, htask, works, completes, rfl⟩ := hstep
  obtain ⟨u, hne, q, htag, huses⟩ := builds _ (List.mem_of_getElem? htask)
  refine ⟨keyed.step, sameFor_of_build huses.1 keyed hne, frame_of_build huses.1 completes, ?_⟩
  intro v hv
  rcases List.mem_or_eq_of_mem_set hv with hv | rfl
  · exact builds v hv
  · exact ⟨u, hne, q, htag, huses.2 _⟩

theorem prepared_stable : StableUnder (Background iid) (Prepared h) := by
  intro s t hs hstep
  obtain ⟨keyed, same, frame, builds⟩ := elsewhere_background hs.keyed hs.builds hstep
  refine ⟨keyed, frame.handed.trans hs.handed, frame.cause.trans hs.cause, same.memory.trans hs.memory,
    same.disk.trans hs.disk, same.candidate.trans hs.candidate, ?_, builds⟩
  rw [frame.files.prepared]
  exact hs.prepared

theorem accepted_stable (r : StoredOperation) : StableUnder (Background iid) (Accepted p h r) := by
  intro s t hs hstep
  obtain ⟨keyed, same, frame, builds⟩ := elsewhere_background hs.keyed hs.builds hstep
  refine ⟨keyed, frame.handed.trans hs.handed, frame.cause.trans hs.cause, same.memory.trans hs.memory,
    same.disk.trans hs.disk, hs.plugin, hs.state, same.candidate.trans hs.candidate, ?_, ?_, builds⟩
  · rw [frame.files.prepared]
    exact hs.prepared
  · rw [frame.files.installed]
    exact hs.installed

theorem exec_register {w : World} {now : Timestamp} {c : Outcome} (hc : c.Succeeds)
    (fresh : w.inMemory o = none) (admits : Admits w p) : exec iid (.register p o now) c w =
      (.ok ((Supervisor.acceptedOperation iid p o now w.state.nextSequence).operation, true), { w with
          state := ⟨w.state.operations.insert o (Supervisor.acceptedOperation iid p o now
            w.state.nextSequence), Supervisor.nextSequenceAfter w.state.nextSequence⟩
          records := w.records.insert o (Supervisor.acceptedOperation iid p o now w.state.nextSequence) }) := by
  have hnone : w.state.operations[o]? = none := fresh
  rw [exec_of_succeeds hc]
  simp only [exec, World.register, hnone, admits.idle, Bool.false_eq_true, if_false,
    if_neg (Nat.not_le.mpr admits.room), World.persistRecord]
  rfl

theorem registration_returns (hs : Prepared h s) (now : Timestamp) :
    Returns iid (fun begun t => begun.2 = true ∧ ∃ r : StoredOperation, r.operation = begun.1 ∧
      Accepted p h r t) (Call.of (Supervisor.step (.register p h.operationId now))) s := by
  refine .act prepared_stable hs ?_
  rintro t _ ht ⟨⟨c, rfl, works⟩, admits⟩
  have hexec := @exec_register iid p h.operationId t.world now c works ht.memory admits
  generalize hr : Supervisor.acceptedOperation iid p h.operationId now t.world.state.nextSequence = r at hexec
  have hstep : installStep iid (.supervisor (.register p h.operationId now)) (.supervisor c) t =
      (.ok (r.operation, true), { t with
        world := (exec iid (.register p h.operationId now) c t.world).2 }) := by
    simp only [installStep, Scene.supervised, causeOf, InstallOutcome.ofSupervisor, hexec, forked,
      List.append_nil, Option.or_none]
  rw [hstep]
  refine .ret (.stable ?_ _) ⟨_, rfl, rfl, r, rfl, ?_⟩
  · rintro _ u v ⟨hcreated, r, hr, hu⟩ hback
    exact ⟨hcreated, r, hr, accepted_stable r u v hu hback⟩
  · subst hr
    refine ⟨ht.keyed.step, ht.handed, ht.cause, ?_, ?_, rfl, rfl, ?_, ?_, ?_, ht.builds⟩
    · rw [hexec]
      exact Std.TreeMap.getElem?_insert_self
    · rw [hexec]
      exact Std.TreeMap.getElem?_insert_self
    · rw [hexec]
      exact ht.candidate
    · rw [hexec]
      exact ht.prepared
    · rw [hexec]
      exact admits.installed

theorem spawnBuild_returns {r : StoredOperation} (hs : Accepted p h r s) :
    Returns iid (fun _ => Going iid p h (Seen iid p h r.operation))
      (Call.ask (.spawnBuild p h.operationId)) s := by
  show Ends iid (Succeeds _) (.act (.supervisor (.spawnBuild p h.operationId)) fun r => .ret (.ok r)) s
  refine .act (accepted_stable r) hs ?_
  rintro t _ ht ⟨⟨c, rfl, -⟩, -⟩
  have hstep : installStep iid (.supervisor (.spawnBuild p h.operationId)) (.supervisor c) t = ((), { t with
        builds := t.builds ++ [(Tag.build p h.operationId).task iid] }) := by
    simp only [installStep, Scene.supervised, causeOf, exec, forked, Option.or_none]
  rw [hstep]
  refine .ret (.stable (fun _ => .stable (seen_kept _)) _) ⟨_, rfl, r, ht.handed, ht.cause,
    ⟨ht.keyed, ht.memory, ht.disk, ht.plugin, fun i u hi => ?_, fun i j u v hi hj htag htag' => ?_⟩, ?_⟩
  · rcases List.mem_append.mp (List.mem_of_getElem? hi) with hu | hu
    · exact .inl (ht.builds u hu)
    · refine .inr ⟨.ready, ?_, ht.candidate, .inl ht.state⟩
      rw [List.mem_singleton.mp hu, ← BuildStage.ready_program]
      rfl
  · -- the build that was just started is the last
    have last : ∀ (i : Nat) u, (t.builds ++ [(Tag.build p h.operationId).task iid])[i]? = some u →
        u.tag = .build p h.operationId → i = t.builds.length := by
      intro i u hi htag
      rcases Nat.lt_or_ge i t.builds.length with hlt | hge
      · rw [List.getElem?_append_left hlt] at hi
        exact absurd htag ((ht.builds u (List.mem_of_getElem? hi)).ne_tag p)
      · have hlength := (List.getElem?_eq_some_iff.mp hi).1
        rw [List.length_append, List.length_singleton] at hlength
        omega
    rw [last i u hi htag, last j v hj htag']
  · refine ⟨⟨by rw [ht.state]; rfl, fun hbuilt => ?_, ht.prepared, ht.installed⟩, ht.plugin,
      ht.keyed.inMemory _ r ht.memory, by rw [ht.state]; rfl, fun _ => rfl⟩
    rw [ht.state] at hbuilt
    cases hbuilt

theorem begin_returns (hs : Prepared h s) (now : Timestamp) :
    Returns iid (fun operation => Going iid p h (Seen iid p h operation))
      (Supervisor.begin p h.operationId now) s := by
  refine .bind (registration_returns hs now) ?_
  rintro ⟨operation, created⟩ t ⟨rfl, r, rfl, ht⟩
  refine .bind (spawnBuild_returns ht) fun _ u hu => ?_
  exact .pure (fun operation => .stable (seen_kept operation)) hu

end

end AudioDown.Core
