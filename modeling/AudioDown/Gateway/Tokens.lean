/-
# AudioDown.Gateway.Tokens — tokens and runtimes agree

While a call holds the lifecycle lock of a plugin, nobody else changes what the map of generations and
the registry have for that plugin, so the call knows how the two stand to each other (`Phase`): they
agree, or the registry is ahead by a token that is about to be remembered or revoked.  Whenever a call
waits or returns, they agree.
-/
import AudioDown.Gateway.Runtime

namespace AudioDown.Gateway

open Lib Supervisor AudioDown.Core

/-! ## Phases -/

/-- What a call knows of its plugin. -/
inductive Phase where
  /-- it does not hold the lock -/
  | outside
  /-- the map and the registry have the same -/
  | unknown
  /-- neither has anything -/
  | nothing
  /-- both have this generation -/
  | present (generation : RuntimeGeneration)
  /-- the registry has it, the map has nothing -/
  | ahead (generation : RuntimeGeneration)
  /-- so, and the token is new -/
  | registered (generation : RuntimeGeneration) (token : Token)
  /-- both have the generation of the new token -/
  | remembered (generation : RuntimeGeneration) (token : Token)
  /-- so, and the Supervisor has accepted it -/
  | sent (generation : RuntimeGeneration) (token : Token)
deriving DecidableEq

namespace Phase

def Settled : Phase → Prop
  | .unknown | .nothing | .present _ | .remembered .. => True
  | _ => False

def note : (a : RuntimeAct) → a.Resp → Phase → Phase
  | .lockLifecycle _, _, _ => .unknown
  | .hasGeneration _, true, h => h
  | .hasGeneration _, false, _ => .nothing
  | .currentGeneration _, none, _ => .nothing
  | .currentGeneration _, some generation, _ => .present generation
  | .removeGeneration _, none, _ => .nothing
  | .removeGeneration _, some generation, _ => .ahead generation
  | .removeIfCurrent _ generation, true, _ => .ahead generation
  | .register _, .ok drawn, _ => .registered drawn.generation drawn.token
  | .rememberGeneration .., _, .registered generation token => .remembered generation token
  | .revoke .., _, _ => .nothing
  | .startPluginWithProxy .., .ok _, .remembered generation token => .sent generation token
  | _, _, h => h

/-- When a call for `p` makes a request. -/
def Asks (p : PluginId) (h : Phase) : RuntimeAct → Prop
  | .lockLifecycle q => q = p ∧ h = .outside
  | .register q => q = p ∧ h = .nothing
  | .rememberGeneration q generation => q = p ∧ ∃ token, h = .registered generation token
  | .revoke q generation => q = p ∧ h = .ahead generation
  | .startPluginWithProxy q token => q = p ∧ ∃ generation, h = .remembered generation token
  | .hasGeneration q | .currentGeneration q | .removeGeneration q | .removeIfCurrent q _
  | .startPlugin q | .stopPlugin q | .confirmPluginStopped q | .inspectPlugin q | .removePlugin q =>
      q = p ∧ h.Settled

def Ends (call : RuntimeCall) : Ending → Phase → Prop
  | none, h | some (.error _), h => h.Settled
  | some (.ok ()), h =>
      match call with
      | .start _ => ∃ generation token, h = .sent generation token
      | .stop _ | .remove _ => h = .nothing
      | .inspect _ => h.Settled

end Phase

/-! ## Outlines -/

section
variable {p : PluginId} {h : Phase} {call : RuntimeCall}

/-- The outline of a method that ends settled, with `B` if it succeeds. -/
def Goes {α : Type} (p : PluginId) (B : α → Phase → Prop) (h : Phase) (x : RuntimeM α) : Prop :=
  x.run.Traces Phase.note (Phase.Asks p)
    (fun r h' => match r with | .ok value => B value h' | .error _ => h'.Settled) h

namespace Goes

variable {α β : Type} {B : α → Phase → Prop} {C : β → Phase → Prop}

theorem bind {x : RuntimeM α} {f : α → RuntimeM β} (hx : Goes p B h x)
    (hf : ∀ value h', B value h' → Goes p C h' (f value)) : Goes p C h (x >>= f) := by
  refine Prog.Traces.bind hx fun r h' hr => ?_
  cases r with
  | ok value => exact hf value h' hr
  | error e => exact hr

theorem pure {value : α} (hB : B value h) : Goes p B h (Pure.pure value) := hB

theorem throw {e : PluginManagerError} (settled : h.Settled) :
    Goes p B h (MonadExcept.throw e : RuntimeM α) := settled

theorem lift {x : RuntimeProgram α} (hx : x.Traces Phase.note (Phase.Asks p) B h) :
    Goes p B h (ExceptT.lift x : RuntimeM α) :=
  hx.bind fun _ _ hB => hB

theorem ending {x : RuntimeM α} (hx : Goes p B h x)
    (ends : ∀ value h', B value h' → Phase.Ends call (some (.ok ())) h') :
    (Gateway.ending x).Traces Phase.note (Phase.Asks p) (Phase.Ends call) h := by
  refine .bind hx fun r h' hr => ?_
  cases r with
  | ok value => exact ends value h' hr
  | error e => exact hr

end Goes

theorem lock_goes (outside : h = .outside) :
    Goes p (fun _ h' => h' = .unknown) h (ExceptT.lift (ask (.lockLifecycle p))) :=
  .lift ⟨⟨rfl, outside⟩, fun _ => rfl⟩

theorem confirmCleanup_goes (settled : h.Settled) : Goes p (fun _ h' => h' = h) h (confirmCleanup p) := by
  refine .bind (B := fun _ h' => h' = h) ⟨⟨rfl, settled⟩, fun r => ?_⟩ fun stopped h' heq => ?_
  · cases r with
    | ok state => rfl
    | error e => exact settled
  · subst heq
    unfold stoppedOr
    split
    · exact .throw settled
    · exact .pure rfl

theorem revokeGeneration_goes (settled : h.Settled) :
    Goes p (fun _ h' => h' = .nothing) h (ExceptT.lift (revokeGeneration true p)) := by
  refine .lift ⟨⟨rfl, settled⟩, fun generation => ?_⟩
  cases generation with
  | none => rfl
  | some generation => exact ⟨⟨rfl, rfl⟩, fun _ => rfl⟩

theorem revokeIfCurrent_goes {generation : RuntimeGeneration} (settled : h.Settled) :
    Goes p (fun _ h' => h'.Settled) h (ExceptT.lift (revokeIfCurrent p generation)) := by
  refine .lift ⟨⟨rfl, settled⟩, fun removed => ?_⟩
  cases removed with
  | false => exact settled
  | true => exact ⟨⟨rfl, rfl⟩, fun _ => trivial⟩

theorem clearGeneration_goes (settled : h.Settled) :
    Goes p (fun _ h' => h' = .nothing) h (clearGeneration p) := by
  refine .bind (B := fun found h' => if found then h' = h else h' = .nothing)
    (.lift ⟨⟨rfl, settled⟩, fun found => ?_⟩) fun found h' hfound => ?_
  · cases found <;> rfl
  · cases found with
    | false => exact .pure hfound
    | true =>
      subst hfound
      refine .bind (confirmCleanup_goes settled) fun _ h'' heq => ?_
      subst heq
      exact revokeGeneration_goes settled

theorem start_goes :
    Goes p (fun _ h' => ∃ generation token, h' = .sent generation token) .outside (start true p) := by
  refine .bind (lock_goes rfl) fun _ h' hunknown => ?_
  subst hunknown
  refine .bind (clearGeneration_goes trivial) fun _ h' hnothing => ?_
  subst hnothing
  refine .bind (B := fun registered h' => h' = .registered registered.generation registered.token)
    ⟨⟨rfl, rfl⟩, fun r => ?_⟩ fun registered h' hregistered => ?_
  · cases r with
    | ok drawn => rfl
    | error e => trivial
  subst hregistered
  -- a token of the registry passes the check
  rw [validToken_token]
  refine .bind (.lift ⟨⟨rfl, _, rfl⟩, fun _ => rfl⟩) fun _ h' hremembered => ?_
  subst hremembered
  refine .bind (B := fun r h' => h' = if r.isOk then .sent registered.generation registered.token
      else .remembered registered.generation registered.token)
    (.lift ⟨⟨rfl, _, rfl⟩, fun r => ?_⟩) fun r h' hr => ?_
  · cases r <;> rfl
  cases r with
  | ok state => exact .pure ⟨_, _, hr⟩
  | error e =>
    have remembered : h' = .remembered registered.generation registered.token := hr
    subst remembered
    refine .bind (confirmCleanup_goes trivial) fun _ h' heq => ?_
    subst heq
    exact .bind (revokeIfCurrent_goes trivial) fun _ _ settled => .throw settled

theorem stop_goes : Goes p (fun _ h' => h' = .nothing) .outside (stop true p) := by
  refine .bind (lock_goes rfl) fun _ h' hunknown => ?_
  subst hunknown
  refine .bind (B := fun _ h' => h' = .unknown) ⟨⟨rfl, trivial⟩, fun r => ?_⟩ fun state h' heq => ?_
  · cases r with
    | ok state => rfl
    | error e => trivial
  subst heq
  refine .bind (B := fun _ h' => h' = .unknown) ?_ fun state h' heq => ?_
  · unfold stoppedOr
    split
    · exact .throw trivial
    · exact .pure rfl
  subst heq
  exact .bind (revokeGeneration_goes trivial) fun _ _ hnothing => .pure hnothing

theorem remove_goes : Goes p (fun _ h' => h' = .nothing) .outside (remove true p) := by
  refine .bind (lock_goes rfl) fun _ h' hunknown => ?_
  subst hunknown
  refine .bind (B := fun _ h' => h' = .unknown) ⟨⟨rfl, trivial⟩, fun r => ?_⟩ fun state h' heq => ?_
  · cases r with
    | ok removed => rfl
    | error e => trivial
  subst heq
  exact .bind (revokeGeneration_goes trivial) fun _ _ hnothing => .pure hnothing

theorem inspectStopped_goes {generation : Option RuntimeGeneration} (settled : h.Settled) :
    Goes p (fun _ h' => h'.Settled) h (inspectStopped p generation) := by
  refine .bind (confirmCleanup_goes settled) fun _ h' heq => ?_
  subst heq
  cases generation with
  | none => exact .pure settled
  | some generation => exact .bind (revokeIfCurrent_goes settled) fun _ _ h => .pure h

theorem inspect_goes : Goes p (fun _ h' => h'.Settled) .outside (inspect true p) := by
  refine .bind (lock_goes rfl) fun _ h' hunknown => ?_
  subst hunknown
  refine .bind (B := fun _ h' => h'.Settled) (.lift ⟨⟨rfl, trivial⟩, fun generation => ?_⟩)
    fun generation h' settled => ?_
  · cases generation <;> trivial
  refine .bind (B := fun _ h' => h'.Settled) (.lift ⟨⟨rfl, settled⟩, fun _ => settled⟩)
    fun r h' settled => ?_
  cases r with
  | error e => exact inspectStopped_goes settled
  | ok state =>
    show Goes p _ h' (if _ then _ else if _ then _ else _)
    split
    · exact inspectStopped_goes settled
    split
    · exact inspectStopped_goes settled
    · exact .pure settled

theorem program_goes (call : RuntimeCall) :
    (call.program true).Traces Phase.note (Phase.Asks call.pluginId) (Phase.Ends call) .outside := by
  cases call with
  | start p => exact start_goes.ending fun _ _ h => h
  | stop p => exact stop_goes.ending fun _ _ h => h
  | inspect p => exact inspect_goes.ending fun _ _ h => h
  | remove p => exact remove_goes.ending fun _ _ h => h

end

/-! ## What a phase means -/

variable {Digest : Type} [DecidableEq Digest] {digest : Token → Digest} {capacity : Nat}

def Means (w : RuntimeWorld Digest) (p : PluginId) : Phase → Prop
  | .outside => True
  | .unknown => w.registry.current p = w.generations.lookup p
  | .nothing => w.registry.current p = none ∧ w.generations.lookup p = none
  | .present generation =>
      w.registry.current p = some generation ∧ w.generations.lookup p = some generation
  | .ahead generation => w.registry.current p = some generation ∧ w.generations.lookup p = none
  | .registered generation token =>
      w.registry.current p = some generation ∧ w.generations.lookup p = none ∧
        ⟨p, token, generation⟩ ∈ w.registry.issued
  | .remembered generation token | .sent generation token =>
      w.registry.current p = some generation ∧ w.generations.lookup p = some generation ∧
        ⟨p, token, generation⟩ ∈ w.registry.issued

omit [DecidableEq Digest] in
theorem agree_of_settled {w : RuntimeWorld Digest} {p : PluginId} {h : Phase} (settled : h.Settled)
    (means : Means w p h) : w.registry.current p = w.generations.lookup p := by
  cases h with
  | unknown => exact means
  | nothing => exact means.1.trans means.2.symm
  | present generation => exact means.1.trans means.2.symm
  | remembered generation token => exact means.1.trans means.2.1.symm
  | _ => exact settled.elim

section
variable {w : RuntimeWorld Digest} {p q : PluginId} {h : Phase} {a : RuntimeAct} {c : RuntimeOutcome}

theorem register_cases (p : PluginId) (c : RuntimeOutcome) (w : RuntimeWorld Digest) :
    (∃ e, runtimeStep digest capacity (.register p) c w = (.error e, w)) ∨
      ∃ drawn, c = .drawn (some drawn) ∧ runtimeStep digest capacity (.register p) c w =
        (.ok drawn, { w with registry := w.registry.insert digest p drawn }) := by
  cases c with
  | drawn registered =>
    cases registered with
    | none => exact .inl ⟨_, rfl⟩
    | some drawn =>
      by_cases full : w.registry.byPlugin.lookup p = none ∧ w.registry.byPlugin.keys.length ≥ capacity
      · exact .inl ⟨.capacityReached, by simp only [runtimeStep, RegistryState.register, if_pos full]⟩
      · exact .inr ⟨drawn, rfl, by simp only [runtimeStep, RegistryState.register, if_neg full]⟩
  | state reply => exact .inl ⟨_, rfl⟩
  | removed reply => exact .inl ⟨_, rfl⟩

theorem means_step (asks : h.Asks p a) (means : Means w p h) (inside : ∀ q, a ≠ .lockLifecycle q) :
    Means (runtimeStep digest capacity a c w).2 p (Phase.note a (runtimeStep digest capacity a c w).1 h) := by
  cases a with
  | lockLifecycle q => exact absurd rfl (inside q)
  | hasGeneration q =>
    obtain ⟨rfl, settled⟩ := asks
    have agree := agree_of_settled settled means
    cases found : w.generations.lookup q with
    | none => simp [runtimeStep, Phase.note, Means, found, agree]
    | some generation => simpa [runtimeStep, Phase.note, found] using means
  | currentGeneration q =>
    obtain ⟨rfl, settled⟩ := asks
    have agree := agree_of_settled settled means
    cases found : w.generations.lookup q with
    | none => simp [runtimeStep, Phase.note, Means, found, agree]
    | some generation => simp [runtimeStep, Phase.note, Means, found, agree]
  | rememberGeneration q generation =>
    obtain ⟨rfl, token, rfl⟩ := asks
    exact ⟨means.1, AList.lookup_insert _, means.2.2⟩
  | removeGeneration q =>
    obtain ⟨rfl, settled⟩ := asks
    have agree := agree_of_settled settled means
    cases found : w.generations.lookup q with
    | none => simp [runtimeStep, Phase.note, Means, found, agree]
    | some generation => simp [runtimeStep, Phase.note, Means, found, agree]
  | removeIfCurrent q generation =>
    obtain ⟨rfl, settled⟩ := asks
    have agree := agree_of_settled settled means
    by_cases found : w.generations.lookup q = some generation
    · simp [runtimeStep, Phase.note, Means, found, agree]
    · simpa [runtimeStep, Phase.note, found] using means
  | register q =>
    obtain ⟨rfl, rfl⟩ := asks
    rcases register_cases q c w with ⟨e, hstep⟩ | ⟨drawn, -, hstep⟩
    · rw [hstep]
      exact means
    · rw [hstep]
      refine ⟨?_, means.2, ?_⟩
      · simp [RegistryState.current_insert]
      · simp [RegistryState.insert]
  | revoke q generation =>
    obtain ⟨rfl, rfl⟩ := asks
    refine ⟨?_, means.2⟩
    simp [runtimeStep, RegistryState.current_revoke, means.1]
  | startPluginWithProxy q token =>
    obtain ⟨rfl, generation, rfl⟩ := asks
    cases hr : (runtimeStep digest capacity (.startPluginWithProxy q token) c w).1 <;> exact means
  | startPlugin q | stopPlugin q | confirmPluginStopped q | inspectPlugin q | removePlugin q =>
    exact means

theorem frame_step (asks : h.Asks p a) (other : q ≠ p) :
    (runtimeStep digest capacity a c w).2.registry.current q = w.registry.current q ∧
      (runtimeStep digest capacity a c w).2.generations.lookup q = w.generations.lookup q := by
  cases a with
  | rememberGeneration r generation =>
    obtain ⟨rfl, -⟩ := asks
    exact ⟨rfl, AList.lookup_insert_ne other⟩
  | removeGeneration r =>
    obtain ⟨rfl, -⟩ := asks
    exact ⟨rfl, AList.lookup_erase_ne other⟩
  | removeIfCurrent r generation =>
    obtain ⟨rfl, -⟩ := asks
    by_cases found : w.generations.lookup r = some generation
    · exact ⟨by simp [runtimeStep, found], by simp [runtimeStep, found, AList.lookup_erase_ne other]⟩
    · simp [runtimeStep, found]
  | register r =>
    obtain ⟨rfl, -⟩ := asks
    rcases register_cases r c w with ⟨e, hstep⟩ | ⟨drawn, -, hstep⟩
    · rw [hstep]
      exact ⟨rfl, rfl⟩
    · rw [hstep]
      exact ⟨by simp [RegistryState.current_insert, other], rfl⟩
  | revoke r generation =>
    obtain ⟨rfl, -⟩ := asks
    exact ⟨by simp [runtimeStep, RegistryState.current_revoke, other], rfl⟩
  | _ => exact ⟨rfl, rfl⟩

theorem mirrors_step (mirrors : w.registry.Mirrors digest)
    (fresh : ∀ drawn, c = .drawn (some drawn) → w.registry.Unused digest drawn) :
    (runtimeStep digest capacity a c w).2.registry.Mirrors digest := by
  cases a with
  | register r =>
    rcases register_cases r c w with ⟨e, hstep⟩ | ⟨drawn, hdrawn, hstep⟩
    · rw [hstep]
      exact mirrors
    · rw [hstep]
      exact mirrors.insert (fresh drawn hdrawn)
  | revoke r generation => exact mirrors.revoke
  | removeIfCurrent r generation =>
    by_cases found : w.generations.lookup r = some generation
    · simpa [runtimeStep, found] using mirrors
    · simpa [runtimeStep, found] using mirrors
  | _ => exact mirrors

theorem issued_step {x : Issued} (hx : x ∈ w.registry.issued) :
    x ∈ (runtimeStep digest capacity a c w).2.registry.issued := by
  cases a with
  | register r =>
    rcases register_cases r c w with ⟨e, hstep⟩ | ⟨drawn, hdrawn, hstep⟩
    · rw [hstep]
      exact hx
    · rw [hstep]
      exact List.mem_append_left _ hx
  | revoke r generation =>
    show x ∈ (w.registry.revoke r generation).2.issued
    rw [RegistryState.issued_revoke]
    exact hx
  | removeIfCurrent r generation =>
    by_cases found : w.generations.lookup r = some generation
    · simpa [runtimeStep, found] using hx
    · simpa [runtimeStep, found] using hx
  | _ => exact hx

end

/-! ## The invariant -/

theorem note_inside {p : PluginId} {h : Phase} {a : RuntimeAct} {r : a.Resp} (asks : h.Asks p a) :
    Phase.note a r h ≠ .outside := by
  have settled : h.Settled → h ≠ .outside := by
    rintro settled rfl
    exact settled
  cases a with
  | lockLifecycle q => exact nofun
  | hasGeneration q =>
    cases r with
    | false => exact nofun
    | true => exact settled asks.2
  | currentGeneration q | removeGeneration q => cases r <;> exact nofun
  | removeIfCurrent q generation =>
    cases r with
    | false => exact settled asks.2
    | true => exact nofun
  | rememberGeneration q generation =>
    obtain ⟨-, token, rfl⟩ := asks
    exact nofun
  | register q =>
    obtain ⟨-, rfl⟩ := asks
    cases r <;> exact nofun
  | revoke q generation => exact nofun
  | startPluginWithProxy q token =>
    obtain ⟨-, generation, rfl⟩ := asks
    cases r <;> exact nofun
  | startPlugin q | stopPlugin q | confirmPluginStopped q | inspectPlugin q | removePlugin q =>
    exact settled asks.2

omit [DecidableEq Digest] in
theorem Means.frame {w w' : RuntimeWorld Digest} {p : PluginId} {h : Phase}
    (means : Means w p h) (current : w'.registry.current p = w.registry.current p)
    (generations : w'.generations.lookup p = w.generations.lookup p)
    (issued : ∀ x ∈ w.registry.issued, x ∈ w'.registry.issued) : Means w' p h := by
  cases h with
  | outside => trivial
  | unknown => exact (current.trans means).trans generations.symm
  | nothing | present generation | ahead generation =>
    exact ⟨current.trans means.1, generations.trans means.2⟩
  | registered generation token | remembered generation token | sent generation token =>
    exact ⟨current.trans means.1, generations.trans means.2.1, issued _ means.2.2⟩

theorem holds_eq {t : RuntimeTask} {p : PluginId} (held : t.holds = some p) : p = t.call.pluginId := by
  unfold RuntimeTask.holds at held
  split at held
  · cases held
  · cases held
  · exact (Option.some.inj held).symm

theorem holds_inside {call : RuntimeCall} {a : RuntimeAct} {k : a.Resp → RuntimeProgram Ending}
    (inside : ∀ q, a ≠ .lockLifecycle q) : (RuntimeTask.mk call (.act a k)).holds = some call.pluginId := by
  cases a with
  | lockLifecycle q => exact absurd rfl (inside q)
  | _ => rfl

/-- A task in a phase of its call. -/
structure Charted (w : RuntimeWorld Digest) (t : RuntimeTask) (h : Phase) : Prop where
  goes : t.prog.Traces Phase.note (Phase.Asks t.call.pluginId) (Phase.Ends t.call) h
  means : t.holds = some t.call.pluginId → Means w t.call.pluginId h

structure RuntimeSystem.Sound (digest : Token → Digest) (s : RuntimeSystem Digest) : Prop where
  mirrors : s.world.registry.Mirrors digest
  exclusive : ∀ (i j : Nat) (t u : RuntimeTask) (p : PluginId), s.tasks[i]? = some t →
    s.tasks[j]? = some u → t.holds = some p → u.holds = some p → i = j
  charted : ∀ t ∈ s.tasks, ∃ h, Charted s.world t h
  agree : ∀ p, (∀ t ∈ s.tasks, t.holds ≠ some p) → s.world.registry.current p = s.world.generations.lookup p

section
variable {s : RuntimeSystem Digest} {i : Nat} {c : RuntimeOutcome} {call : RuntimeCall} {a : RuntimeAct}
  {k : a.Resp → RuntimeProgram Ending}

omit [DecidableEq Digest] in
theorem not_locked {p : PluginId} (free : s.admits (.lockLifecycle p) = true) :
    ∀ t ∈ s.tasks, t.holds ≠ some p := by
  intro t ht held
  simp only [RuntimeSystem.admits, Bool.not_eq_true'] at free
  exact List.any_eq_false.mp free t ht (by simpa using held)

theorem RuntimeSystem.Sound.moved (sound : s.Sound digest) (task : s.tasks[i]? = some ⟨call, .act a k⟩)
    (admitted : s.admits a = true) (capacity : Nat) (c : RuntimeOutcome) :
    ∃ h, h.Asks call.pluginId a ∧ Means (runtimeStep digest capacity a c s.world).2 call.pluginId
      (Phase.note a (runtimeStep digest capacity a c s.world).1 h) ∧
      (k (runtimeStep digest capacity a c s.world).1).Traces Phase.note (Phase.Asks call.pluginId)
      (Phase.Ends call) (Phase.note a (runtimeStep digest capacity a c s.world).1 h) := by
  obtain ⟨h, charted⟩ := sound.charted _ (List.mem_of_getElem? task)
  have asks : h.Asks call.pluginId a := charted.goes.1
  refine ⟨h, asks, ?_, charted.goes.2 _⟩
  by_cases inside : ∀ q, a ≠ .lockLifecycle q
  · exact means_step asks (charted.means (holds_inside inside)) inside
  · -- it takes the lock
    obtain ⟨q, rfl⟩ := not_forall_not.mp inside
    obtain ⟨rfl, -⟩ := asks
    exact sound.agree _ (not_locked admitted)

omit [DecidableEq Digest] in
theorem agree_of_ends {w : RuntimeWorld Digest} {h : Phase} {e : Ending}
    (ends : Phase.Ends call e h) (means : Means w call.pluginId h) :
    w.registry.current call.pluginId = w.generations.lookup call.pluginId := by
  rcases e with _ | (error | u)
  · exact agree_of_settled ends means
  · exact agree_of_settled ends means
  · cases call with
    | start p =>
      obtain ⟨generation, token, rfl⟩ := ends
      exact means.1.trans means.2.1.symm
    | stop p | remove p =>
      have nothing : h = .nothing := ends
      subst nothing
      exact means.1.trans means.2.symm
    | inspect p => exact agree_of_settled ends means

omit [DecidableEq Digest] in
theorem unused_of_fresh (fresh : Fresh digest s (.advance i c)) :
    ∀ drawn, c = .drawn (some drawn) → s.world.registry.Unused digest drawn := by
  rintro drawn rfl
  exact fresh

theorem RuntimeSystem.Sound.advance (sound : s.Sound digest) (task : s.tasks[i]? = some ⟨call, .act a k⟩)
    (admitted : s.admits a = true) (fresh : Fresh digest s (.advance i c)) :
    RuntimeSystem.Sound digest ⟨(runtimeStep digest capacity a c s.world).2,
      s.tasks.set i ⟨call, k (runtimeStep digest capacity a c s.world).1⟩⟩ := by
  obtain ⟨h, asks, means, goes⟩ := sound.moved task admitted capacity c
  have bound := (List.getElem?_eq_some_iff.mp task).1
  -- what the moved task may hold afterwards, no other task held before
  have alone : ∀ (j : Nat) (u : RuntimeTask), s.tasks[j]? = some u → j ≠ i →
      u.holds ≠ some call.pluginId ∨ ∃ q, a = .lockLifecycle q := by
    intro j u hu hne
    by_cases inside : ∀ q, a ≠ .lockLifecycle q
    · refine .inl fun held => hne ?_
      exact sound.exclusive j i u _ call.pluginId hu task held (holds_inside inside)
    · exact .inr (not_forall_not.mp inside)
  have apart : ∀ (j : Nat) (u : RuntimeTask), s.tasks[j]? = some u → j ≠ i → u.holds ≠ some call.pluginId := by
    intro j u hu hne
    rcases alone j u hu hne with h | ⟨q, rfl⟩
    · exact h
    · obtain ⟨rfl, -⟩ := asks
      exact not_locked admitted u (List.mem_of_getElem? hu)
  have framed : ∀ p, p ≠ call.pluginId → (runtimeStep digest capacity a c s.world).2.registry.current p =
      s.world.registry.current p ∧ (runtimeStep digest capacity a c s.world).2.generations.lookup p =
          s.world.generations.lookup p := fun p other => frame_step asks other
  constructor
  case mirrors => exact mirrors_step sound.mirrors (unused_of_fresh fresh)
  case exclusive =>
    intro j j' t u p ht hu held held'
    by_cases hj : j = i <;> by_cases hj' : j' = i
    · rw [hj, hj']
    · subst hj
      rw [List.getElem?_set_self bound] at ht
      rw [List.getElem?_set_ne (Ne.symm hj')] at hu
      cases ht
      obtain rfl := holds_eq held
      exact absurd held' (apart j' u hu hj')
    · subst hj'
      rw [List.getElem?_set_self bound] at hu
      rw [List.getElem?_set_ne (Ne.symm hj)] at ht
      cases hu
      obtain rfl := holds_eq held'
      exact absurd held (apart j t ht hj)
    · rw [List.getElem?_set_ne (Ne.symm hj)] at ht
      rw [List.getElem?_set_ne (Ne.symm hj')] at hu
      exact sound.exclusive j j' t u p ht hu held held'
  case charted =>
    intro t ht
    obtain ⟨j, hj⟩ := List.mem_iff_getElem?.mp ht
    by_cases hji : j = i
    · subst hji
      rw [List.getElem?_set_self bound] at hj
      cases hj
      exact ⟨_, goes, fun _ => means⟩
    · rw [List.getElem?_set_ne (Ne.symm hji)] at hj
      obtain ⟨w, charted⟩ := sound.charted t (List.mem_of_getElem? hj)
      refine ⟨w, charted.goes, fun held => ?_⟩
      have other : t.call.pluginId ≠ call.pluginId := fun same => apart j t hj hji (same ▸ held)
      exact (charted.means held).frame (framed _ other).1 (framed _ other).2 fun x hx => issued_step hx
  case agree =>
    intro p free
    have moved := free _ (List.mem_set bound _)
    by_cases hp : p = call.pluginId
    · subst hp
      -- the call has returned
      cases hk : k (runtimeStep digest capacity a c s.world).1 with
      | ret e =>
        rw [hk] at goes
        exact agree_of_ends goes means
      | act a' k' =>
        rw [hk] at goes moved
        by_cases inside : ∀ q, a' ≠ .lockLifecycle q
        · exact absurd (holds_inside inside) moved
        · obtain ⟨q, rfl⟩ := not_forall_not.mp inside
          exact absurd goes.1.2 (note_inside asks)
    · rw [(framed p hp).1, (framed p hp).2]
      refine sound.agree p fun t ht held => ?_
      obtain ⟨j, hj⟩ := List.mem_iff_getElem?.mp ht
      by_cases hji : j = i
      · subst hji
        cases task.symm.trans hj
        exact hp (holds_eq held)
      · refine free t (List.mem_of_getElem? (i := j) ?_) held
        rw [List.getElem?_set_ne (Ne.symm hji)]
        exact hj

theorem RuntimeSystem.Sound.giveUp (sound : s.Sound digest)
    (task : s.tasks[i]? = some ⟨call, .act a k⟩) (waits : a.waits = true) :
    RuntimeSystem.Sound digest { s with tasks := s.tasks.set i ⟨call, .ret none⟩ } := by
  have bound := (List.getElem?_eq_some_iff.mp task).1
  -- the other tasks are as before
  have old : ∀ (j : Nat) (t : RuntimeTask) (p : PluginId),
      (s.tasks.set i ⟨call, .ret none⟩)[j]? = some t → t.holds = some p → s.tasks[j]? = some t := by
    intro j t p ht held
    by_cases hj : j = i
    · subst hj
      rw [List.getElem?_set_self bound] at ht
      cases ht
      cases held
    · rwa [List.getElem?_set_ne (Ne.symm hj)] at ht
  constructor
  case mirrors => exact sound.mirrors
  case exclusive =>
    intro j j' t u p ht hu held held'
    exact sound.exclusive j j' t u p (old j t p ht held) (old j' u p hu held') held held'
  case charted =>
    intro t ht
    rcases List.mem_or_eq_of_mem_set ht with ht | rfl
    · exact sound.charted t ht
    · exact ⟨.unknown, trivial, nofun⟩
  case agree =>
    intro p free
    by_cases held : (RuntimeTask.mk call (.act a k)).holds = some p
    · obtain rfl := holds_eq held
      obtain ⟨h, charted⟩ := sound.charted _ (List.mem_of_getElem? task)
      have asks : h.Asks call.pluginId a := charted.goes.1
      have means := charted.means held
      cases a with
      | lockLifecycle q => cases held
      | startPluginWithProxy q token =>
        obtain ⟨-, generation, rfl⟩ := asks
        exact means.1.trans means.2.1.symm
      | startPlugin q | stopPlugin q | confirmPluginStopped q | inspectPlugin q | removePlugin q =>
        exact agree_of_settled asks.2 means
      | _ => cases waits
    · refine sound.agree p fun t ht hheld => ?_
      obtain ⟨j, hj⟩ := List.mem_iff_getElem?.mp ht
      by_cases hji : j = i
      · subst hji
        cases task.symm.trans hj
        exact held hheld
      · refine free t (List.mem_of_getElem? (i := j) ?_) hheld
        rw [List.getElem?_set_ne (Ne.symm hji)]
        exact hj

end

theorem program_outside (call : RuntimeCall) (proxied : Bool) :
    (RuntimeTask.mk call (call.program proxied)).holds = none := by
  cases call <;> rfl

theorem RuntimeSystem.Sound.call {s : RuntimeSystem Digest} (sound : s.Sound digest) (call : RuntimeCall) :
    RuntimeSystem.Sound digest { s with tasks := s.tasks ++ [⟨call, call.program true⟩] } := by
  have old : ∀ (j : Nat) (t : RuntimeTask) (p : PluginId),
      (s.tasks ++ [⟨call, call.program true⟩])[j]? = some t → t.holds = some p → s.tasks[j]? = some t := by
    intro j t p ht held
    rw [List.getElem?_append] at ht
    split at ht
    · exact ht
    · rw [List.mem_singleton.mp (List.mem_of_getElem? ht), program_outside] at held
      cases held
  constructor
  case mirrors => exact sound.mirrors
  case exclusive =>
    intro j j' t u p ht hu held held'
    exact sound.exclusive j j' t u p (old j t p ht held) (old j' u p hu held') held held'
  case charted =>
    intro t ht
    rcases List.mem_append.mp ht with ht | ht
    · exact sound.charted t ht
    · rw [List.mem_singleton.mp ht]
      refine ⟨.outside, program_goes call, fun held => ?_⟩
      rw [program_outside] at held
      cases held
  case agree => exact fun p free => sound.agree p fun t ht => free t (List.mem_append_left _ ht)

theorem initial_sound : (RuntimeSystem.initial : RuntimeSystem Digest).Sound digest where
  mirrors := RegistryState.empty_mirrors
  exclusive _ _ _ _ _ ht := nomatch ht
  charted _ ht := nomatch ht
  agree _ _ := rfl

variable {label : RuntimeLabel}

theorem sound_next {s s' : RuntimeSystem Digest} (sound : s.Sound digest)
    (fresh : Fresh digest s label) (hnext : s.next digest capacity true label = some s') :
    s'.Sound digest := by
  cases runtimeNext_cases hnext with
  | call call => exact sound.call call
  | advance task admitted => exact sound.advance task admitted fresh
  | giveUp task waits => exact sound.giveUp task waits

/-! ## The laws -/

section
variable {s s' : RuntimeSystem Digest}

theorem RuntimeSystem.Sound.agrees (sound : s.Sound digest) : s.Agrees digest := by
  intro p free generation
  rw [← sound.agree p free]
  constructor
  · intro h
    obtain ⟨token, issued⟩ := sound.mirrors.issued_of_current h
    refine ⟨token, issued, ?_⟩
    obtain ⟨runtime, hruntime⟩ := (sound.mirrors.authenticate_iff issued).mpr h
    rw [hruntime, sound.mirrors.authenticate_eq issued hruntime]
  · rintro ⟨token, issued, h⟩
    exact (sound.mirrors.authenticate_iff issued).mp ⟨_, h⟩

variable {a : RuntimeAct} {c : RuntimeOutcome} {generation : RuntimeGeneration} {i : Nat} {p : PluginId}
  {token : Token}

theorem RuntimeSystem.Sound.silent (sound : s.Sound digest)
    (h : s.world.registry.current p = none) : s.Silent digest p := by
  rintro x hx rfl
  by_contra known
  have live := (sound.mirrors.authenticate_iff hx).mp (Option.ne_none_iff_exists'.mp known)
  cases h.symm.trans live

theorem RuntimeSystem.Sound.knows (sound : s.Sound digest)
    (current : s.world.registry.current p = some generation)
    (issued : ⟨p, token, generation⟩ ∈ s.world.registry.issued) : s.Knows digest p token := by
  refine ⟨⟨_, issued, rfl, rfl⟩, ?_⟩
  rintro x hx rfl
  constructor
  · intro h
    have live := (sound.mirrors.authenticate_iff hx).mp ⟨_, h⟩
    have same : x.generation = generation := Option.some.inj (live.symm.trans current)
    exact congrArg Issued.token (sound.mirrors.distinct x hx _ issued (.inr same))
  · intro h
    have same := sound.mirrors.distinct x hx _ issued (.inl (congrArg digest h))
    have live : s.world.registry.current x.pluginId = some x.generation := by rw [current, same]
    obtain ⟨runtime, hruntime⟩ := (sound.mirrors.authenticate_iff hx).mpr live
    rw [hruntime, sound.mirrors.authenticate_eq hx hruntime]

/-- A plugin without a token gets none unless one is registered for it. -/
theorem current_none_next (sound : s.Sound digest)
    (absent : s.world.registry.current p = none) (quiet : s.asked label ≠ some (.register p))
    (hnext : s.next digest capacity true label = some s') : s'.world.registry.current p = none := by
  cases runtimeNext_cases hnext with
  | call call => exact absent
  | giveUp task waits => exact absent
  | @advance i c call a k task admitted =>
    obtain ⟨h, charted⟩ := sound.charted _ (List.mem_of_getElem? task)
    have asks : h.Asks call.pluginId a := charted.goes.1
    have asked : s.asked (.advance i c) = some a := by simp [RuntimeSystem.asked, task]
    by_cases other : p = call.pluginId
    · cases a with
      | register q =>
        obtain ⟨rfl, -⟩ := asks
        exact absurd (other ▸ asked) quiet
      | revoke q generation =>
        show (s.world.registry.revoke q generation).2.current p = _
        rw [RegistryState.current_revoke]
        split
        · rfl
        · exact absent
      | removeIfCurrent q generation =>
        by_cases found : s.world.generations.lookup q = some generation
        · simpa [runtimeStep, found] using absent
        · simpa [runtimeStep, found] using absent
      | _ => exact absent
    · exact (frame_step asks other).1.trans absent

theorem asked_of_sent {h : Phase} {r : a.Resp} (asks : h.Asks p a)
    (sent : Phase.note a r h = .sent generation token) : a = .startPluginWithProxy p token := by
  have settled : h.Settled → h ≠ .sent generation token := by
    rintro settled rfl
    exact settled
  cases a with
  | startPluginWithProxy q token' =>
    obtain ⟨rfl, g, rfl⟩ := asks
    cases r with
    | ok state =>
      cases sent
      rfl
    | error e => cases sent
  | lockLifecycle q | revoke q generation => cases sent
  | hasGeneration q =>
    cases r with
    | false => cases sent
    | true => exact absurd sent (settled asks.2)
  | currentGeneration q | removeGeneration q => cases r <;> cases sent
  | removeIfCurrent q g =>
    cases r with
    | false => exact absurd sent (settled asks.2)
    | true => cases sent
  | rememberGeneration q g =>
    obtain ⟨-, token', rfl⟩ := asks
    cases sent
  | register q =>
    obtain ⟨-, rfl⟩ := asks
    cases r <;> cases sent
  | startPlugin q | stopPlugin q | confirmPluginStopped q | inspectPlugin q | removePlugin q =>
    exact absurd sent (settled asks.2)

theorem asked_of_lost {call : RuntimeCall} {k : a.Resp → RuntimeProgram Ending} (sound : s.Sound digest)
    (task : s.tasks[i]? = some ⟨call, .act a k⟩) (live : s.world.registry.current p = some generation)
    (lost : (runtimeStep digest capacity a c s.world).2.registry.current p ≠ some generation) :
    a = .revoke p generation := by
  obtain ⟨h, charted⟩ := sound.charted _ (List.mem_of_getElem? task)
  have asks : h.Asks call.pluginId a := charted.goes.1
  by_cases other : p = call.pluginId
  · cases a with
    | register q =>
      -- the call knows that there is none
      obtain ⟨rfl, rfl⟩ := asks
      have absent := (charted.means rfl).1
      rw [← other, live] at absent
      cases absent
    | revoke q g =>
      obtain ⟨rfl, -⟩ := asks
      subst other
      by_cases same : g = generation
      · rw [same]
      · refine absurd ?_ lost
        show (s.world.registry.revoke _ g).2.current _ = _
        rw [RegistryState.current_revoke, live]
        simp [Ne.symm same]
    | removeIfCurrent q g =>
      by_cases found : s.world.generations.lookup q = some g
      · exact absurd live (by simpa [runtimeStep, found] using lost)
      · exact absurd live (by simpa [runtimeStep, found] using lost)
    | _ => exact absurd live lost
  · exact absurd ((frame_step asks other).1.trans live) lost

theorem RuntimeSystem.Sound.stepLaw (sound : s.Sound digest) (fresh : Fresh digest s (.advance i c))
    (hnext : s.next digest capacity true (.advance i c) = some s') :
    StepLaw digest capacity true s s' i c := by
  have sound' : s'.Sound digest := sound_next sound fresh hnext
  cases runtimeNext_cases hnext with
  | @advance _ _ call a k task admitted =>
    obtain ⟨h, asks, means, goes⟩ := sound.moved task admitted capacity c
    have bound := (List.getElem?_eq_some_iff.mp task).1
    have asked : s.asked (.advance i c) = some a := by simp [RuntimeSystem.asked, task]
    -- if the call has succeeded, its phase says how
    have succeeded : ∀ call', (s.tasks.set i ⟨call, k (runtimeStep digest capacity a c s.world).1⟩)[i]? =
          some ⟨call', .ret (some (.ok ()))⟩ → call' = call ∧ Phase.Ends call (some (.ok ()))
            (.note a (runtimeStep digest capacity a c s.world).1 h) := by
      intro call' hdone
      rw [List.getElem?_set_self bound, Option.some.injEq, RuntimeTask.mk.injEq] at hdone
      rw [hdone.2] at goes
      exact ⟨hdone.1.symm, goes⟩
    constructor
    case stopped =>
      intro p hdone labels s'' run
      have nothing : Means (runtimeStep digest capacity a c s.world).2 p .nothing := by
        rcases hdone with hdone | hdone
        · obtain ⟨rfl, ends⟩ := succeeded _ hdone
          have hphase : Phase.note a (runtimeStep digest capacity a c s.world).1 h = .nothing := ends
          rw [hphase] at means
          exact means
        · obtain ⟨rfl, ends⟩ := succeeded _ hdone
          have hphase : Phase.note a (runtimeStep digest capacity a c s.world).1 h = .nothing := ends
          rw [hphase] at means
          exact means
      have kept := run.invariant (I := fun t => t.Sound digest ∧ t.world.registry.current p = none)
        (fun t label t' ⟨hsound, hnone⟩ ⟨hfresh, quiet⟩ hnext =>
          ⟨sound_next hsound hfresh hnext, current_none_next hsound hnone quiet hnext⟩)
        ⟨sound', nothing.1⟩
      exact kept.1.silent kept.2
    case started =>
      intro p _ hdone
      obtain ⟨rfl, generation, token, hphase⟩ := succeeded _ hdone
      rw [hphase] at means
      exact ⟨token, asked.trans (congrArg some (asked_of_sent asks hphase)), sound'.knows means.1 means.2.2⟩
    case revoked =>
      intro x hx known unknown
      have live := (sound.mirrors.authenticate_iff hx).mp known
      have hx' : x ∈ (runtimeStep digest capacity a c s.world).2.registry.issued := issued_step hx
      have lost : (runtimeStep digest capacity a c s.world).2.registry.current x.pluginId ≠
          some x.generation := by
        intro current
        obtain ⟨runtime, hruntime⟩ := (sound'.mirrors.authenticate_iff hx').mpr current
        cases unknown.symm.trans hruntime
      exact asked.trans (congrArg some (asked_of_lost sound task live lost))

end

/-! ## Without a registry -/

def Tokenless : RuntimeAct → Prop
  | .register _ | .rememberGeneration .. => False
  | _ => True

theorem revokeGeneration_tokenless {p : PluginId} : (revokeGeneration false p).Uses Tokenless := by
  refine ⟨trivial, fun generation => ?_⟩
  cases generation <;> trivial

theorem revoked_tokenless {p : PluginId} {α : Type} {value : α} : (do
      ExceptT.lift (revokeGeneration false p)
      return value : RuntimeM α).run.Uses Tokenless := by
  refine .bind (.bind revokeGeneration_tokenless fun _ => trivial) fun r => ?_
  cases r <;> trivial

theorem stoppedOr_tokenless {state : PluginRuntimeState} {p : PluginId} :
    (stoppedOr state p).run.Uses Tokenless := by
  unfold stoppedOr
  split <;> trivial

theorem ending_tokenless {α : Type} {x : RuntimeM α} (hx : x.run.Uses Tokenless) : (ending x).Uses Tokenless :=
  .bind hx fun r => by cases r <;> trivial

theorem program_tokenless (call : RuntimeCall) : (call.program false).Uses Tokenless := by
  cases call with
  | start p | inspect p =>
    refine ending_tokenless ⟨trivial, fun _ => ⟨trivial, fun r => ?_⟩⟩
    cases r <;> trivial
  | stop p =>
    refine ending_tokenless ⟨trivial, fun _ => ⟨trivial, fun r => ?_⟩⟩
    cases r with
    | error e => trivial
    | ok state =>
      show Prog.Uses Tokenless (stoppedOr state p >>= fun state => do
        ExceptT.lift (revokeGeneration false p)
        return state).run
      refine .bind stoppedOr_tokenless fun r => ?_
      cases r with
      | error e => trivial
      | ok state => exact revoked_tokenless
  | remove p =>
    refine ending_tokenless ⟨trivial, fun _ => ⟨trivial, fun r => ?_⟩⟩
    cases r with
    | error e => trivial
    | ok removed => exact revoked_tokenless

/-- Nothing is ever issued, registered or remembered. -/
structure RuntimeSystem.Bare (s : RuntimeSystem Digest) : Prop where
  world : s.world = ⟨.empty, ∅⟩
  tasks : ∀ t ∈ s.tasks, t.prog.Uses Tokenless

theorem bare_step {a : RuntimeAct} (c : RuntimeOutcome) (tokenless : Tokenless a) :
    (runtimeStep digest capacity a c (⟨.empty, ∅⟩ : RuntimeWorld Digest)).2 = ⟨.empty, ∅⟩ := by
  cases a with
  | register p | rememberGeneration p generation => exact tokenless.elim
  | _ => rfl

theorem bare_next {s s' : RuntimeSystem Digest} (bare : s.Bare)
    (hnext : s.next digest capacity false label = some s') : s'.Bare := by
  cases runtimeNext_cases hnext with
  | call call =>
    refine ⟨bare.world, fun t ht => ?_⟩
    rcases List.mem_append.mp ht with ht | ht
    · exact bare.tasks t ht
    · rw [List.mem_singleton.mp ht]
      exact program_tokenless call
  | @advance i c call a k task admitted =>
    have uses := bare.tasks _ (List.mem_of_getElem? task)
    refine ⟨?_, fun t ht => ?_⟩
    · rw [bare.world]
      exact bare_step c uses.1
    · rcases List.mem_or_eq_of_mem_set ht with ht | rfl
      · exact bare.tasks t ht
      · exact uses.2 _
  | giveUp task waits =>
    refine ⟨bare.world, fun t ht => ?_⟩
    rcases List.mem_or_eq_of_mem_set ht with ht | rfl
    · exact bare.tasks t ht
    · trivial

omit [DecidableEq Digest] in
theorem RuntimeSystem.Bare.issued {s : RuntimeSystem Digest} (bare : s.Bare) : s.world.registry.issued = [] := by
  rw [bare.world]
  rfl

theorem RuntimeSystem.Bare.agrees {s : RuntimeSystem Digest} (bare : s.Bare) : s.Agrees digest := by
  intro p _ generation
  rw [bare.issued, bare.world]
  simp

theorem RuntimeSystem.Bare.stepLaw {s s' : RuntimeSystem Digest} {i : Nat} {c : RuntimeOutcome}
    (bare : s.Bare) (hnext : s.next digest capacity false (.advance i c) = some s') :
    StepLaw digest capacity false s s' i c where
  stopped p _ labels s'' run := by
    have kept := run.invariant (fun _ _ _ hbare _ hnext => bare_next hbare hnext) (bare_next bare hnext)
    intro x hx
    rw [kept.issued] at hx
    cases hx
  started p proxied := by cases proxied
  revoked x hx := by
    rw [bare.issued] at hx
    cases hx

/-! ## The theorem -/

/-- **Tokens and runtimes agree.**  For every interleaving of calls on any plugins, with any answers of the
Supervisor: between calls the map of generations and the registry agree; and in every step of a call,
`stop` and `remove` end with no token known, `start` ends with the one it sent known and no other, and
a token is revoked under its own generation only. -/
theorem tokens_agree_with_runtimes {proxied : Bool} {labels : List RuntimeLabel} {s : RuntimeSystem Digest}
    (run : Run (RuntimeSystem.next digest capacity proxied) (Fresh digest) .initial labels s) :
    s.Agrees digest ∧ ∀ i c s', Fresh digest s (.advance i c) →
      s.next digest capacity proxied (.advance i c) = some s' → StepLaw digest capacity proxied s s' i c := by
  cases proxied with
  | true =>
    have sound : s.Sound digest := run.invariant
      (fun _ _ _ hsound fresh hnext => sound_next hsound fresh hnext) initial_sound
    exact ⟨sound.agrees, fun i c s' fresh hnext => sound.stepLaw fresh hnext⟩
  | false =>
    have bare : s.Bare := run.invariant (fun _ _ _ hbare _ hnext => bare_next hbare hnext) ⟨rfl, nofun⟩
    exact ⟨bare.agrees, fun i c s' _ hnext => bare.stepLaw hnext⟩

/-! ## A plugin is started -/

def sampleToken : RegisteredProxyToken := ⟨1, ⟨List.replicate 32 7, by simp⟩⟩

/-- `start` goes on until the Supervisor has the token. -/
def startRun : List RuntimeLabel :=
  [.call (.start "p"), .advance 0 (.state none), .advance 0 (.state none),
    .advance 0 (.drawn (some sampleToken)), .advance 0 (.state none)]

def startedState : RuntimeSystem Token :=
  (startRun.foldlM (RuntimeSystem.next id 256 true) .initial).getD .initial

theorem unused_iff {state : RegistryState Token} {drawn : RegisteredProxyToken} :
    (∀ x ∈ state.issued, x.token ≠ drawn.token ∧ x.generation ≠ drawn.generation) ↔
      state.Unused id drawn :=
  ⟨fun h => ⟨fun x hx => (h x hx).1, fun x hx => (h x hx).2⟩,
    fun h x hx => ⟨h.token x hx, h.generation x hx⟩⟩

instance (s : RuntimeSystem Token) : (label : RuntimeLabel) → Decidable (Fresh id s label)
  | .advance _ (.drawn (some _)) => decidable_of_iff _ unused_iff
  | .advance _ (.drawn none) | .advance _ (.state _) | .advance _ (.removed _) | .call _ | .giveUp _ =>
    isTrue trivial

theorem started_plugin_has_its_token :
    ∃ s', startedState.next id 256 true (.advance 0 (.state (some ⟨"p", .healthy, []⟩))) = some s' ∧
      s'.Knows id "p" sampleToken.token := by
  refine ⟨_, rfl, ?_⟩
  have run : Run (RuntimeSystem.next id 256 true) (Fresh id) .initial startRun startedState :=
    Run.of_decide rfl
  have law := (tokens_agree_with_runtimes run).2 0 (.state (some ⟨"p", .healthy, []⟩)) _ trivial rfl
  obtain ⟨token, asked, knows⟩ := law.started "p" rfl rfl
  have same : token = sampleToken.token := by
    cases asked
    rfl
  exact same ▸ knows

end AudioDown.Gateway
