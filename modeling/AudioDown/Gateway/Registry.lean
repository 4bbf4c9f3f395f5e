/-
# AudioDown.Gateway.Registry — the tokens of running plugins

`ProxyTokenRegistry`: a plugin that is started gets a token, by which the proxy gateway later knows it.
The registry keeps the digest of every token that is valid, and per plugin the generation and the digest
of its token; a new token replaces the old one.

Tokens are random, so two of them are different and have different digests; that is an assumption about
the source of randomness and about SHA-256, and `Unused` says what it comes to.  What the registry has
ever issued is kept in `issued`, which no code reads.
-/
import AudioDown.Core.Service
import AudioDown.Lib.Base64
import Mathlib.Data.List.AList

namespace AudioDown.Gateway

open Lib Supervisor

abbrev Token := List UInt8

abbrev RuntimeGeneration := Uuid

/-- `RegisteredProxyToken`, with the random bytes behind the token. -/
structure RegisteredProxyToken where
  generation : RuntimeGeneration
  bytes : { bytes : List UInt8 // bytes.length = 32 }
deriving DecidableEq

/-- The token is the bytes in URL-safe base64. -/
def RegisteredProxyToken.token (registered : RegisteredProxyToken) : Token :=
  Base64.encode registered.bytes.1

def maxTokenBytes : Nat := 4 * 1024

/-- The check of `ProxyToken::new` and of `authenticate`. -/
def validToken (token : Token) : Bool :=
  !token.isEmpty && token.length ≤ maxTokenBytes && !token.contains 0

theorem validToken_token (registered : RegisteredProxyToken) : validToken registered.token = true := by
  have length : registered.token.length = 43 := by
    rw [RegisteredProxyToken.token, Base64.length_encode, registered.bytes.2]
  have nonempty : registered.token ≠ [] := by
    intro h
    rw [h] at length
    cases length
  have clean : 0 ∉ registered.token := by
    intro h
    obtain ⟨n, hn⟩ := Base64.mem_encode h
    exact Base64.digit_ne_zero n hn.symm
  simp [validToken, maxTokenBytes, length, nonempty, clean]

structure AuthenticatedRuntime where
  pluginId : PluginId
  generation : RuntimeGeneration
deriving DecidableEq

inductive ProxyRegistryError where
  | capacityReached
  | randomnessUnavailable
deriving DecidableEq

/-- A token that was handed out. -/
structure Issued where
  pluginId : PluginId
  token : Token
  generation : RuntimeGeneration
deriving DecidableEq

structure RegistryState (Digest : Type) where
  byDigest : AList fun _ : Digest => AuthenticatedRuntime
  byPlugin : AList fun _ : PluginId => RuntimeGeneration × Digest
  issued : List Issued

variable {Digest : Type} [DecidableEq Digest]

namespace RegistryState

def empty : RegistryState Digest := ⟨∅, ∅, []⟩

/-- The state once a token is drawn and there is room. -/
def insert (digest : Token → Digest) (state : RegistryState Digest) (p : PluginId)
    (drawn : RegisteredProxyToken) : RegistryState Digest where
  byDigest :=
    (match state.byPlugin.lookup p with
      | some (_, previous) => state.byDigest.erase previous
      | none => state.byDigest).insert (digest drawn.token) ⟨p, drawn.generation⟩
  byPlugin := (state.byPlugin.erase p).insert p (drawn.generation, digest drawn.token)
  issued := state.issued ++ [⟨p, drawn.token, drawn.generation⟩]

/-- `register`, with what was drawn. -/
def register (digest : Token → Digest) (capacity : Nat) (state : RegistryState Digest) (p : PluginId)
    (drawn : Option RegisteredProxyToken) :
    Except ProxyRegistryError RegisteredProxyToken × RegistryState Digest :=
  match drawn with
  | none => (.error .randomnessUnavailable, state)
  | some drawn =>
    if state.byPlugin.lookup p = none ∧ state.byPlugin.keys.length ≥ capacity then
      (.error .capacityReached, state)
    else (.ok drawn, state.insert digest p drawn)

def authenticate (digest : Token → Digest) (state : RegistryState Digest) (token : Token) :
    Option AuthenticatedRuntime :=
  if validToken token then state.byDigest.lookup (digest token) else none

def revoke (state : RegistryState Digest) (p : PluginId) (generation : RuntimeGeneration) :
    Bool × RegistryState Digest :=
  match state.byPlugin.lookup p with
  | none => (false, state)
  | some (current, digest) =>
    if current ≠ generation then (false, state)
    else (true, { state with
      byPlugin := state.byPlugin.erase p, byDigest := state.byDigest.erase digest })

/-! ## What the registry keeps -/

def current (state : RegistryState Digest) (p : PluginId) : Option RuntimeGeneration :=
  (state.byPlugin.lookup p).map Prod.fst

/-- What was never drawn before. -/
structure Unused (digest : Token → Digest) (state : RegistryState Digest)
    (drawn : RegisteredProxyToken) : Prop where
  token : ∀ x ∈ state.issued, digest x.token ≠ digest drawn.token
  generation : ∀ x ∈ state.issued, x.generation ≠ drawn.generation

/-- The two maps mirror each other, and hold only what was issued. -/
structure Mirrors (digest : Token → Digest) (state : RegistryState Digest) : Prop where
  mirror : ∀ p generation d, state.byPlugin.lookup p = some (generation, d) ↔
    state.byDigest.lookup d = some ⟨p, generation⟩
  issued : ∀ p generation d, state.byPlugin.lookup p = some (generation, d) →
    ∃ token, ⟨p, token, generation⟩ ∈ state.issued ∧ digest token = d
  distinct : ∀ x ∈ state.issued, ∀ y ∈ state.issued,
    digest x.token = digest y.token ∨ x.generation = y.generation → x = y
  valid : ∀ x ∈ state.issued, validToken x.token = true

variable {digest : Token → Digest} {state : RegistryState Digest} {p q : PluginId}
  {drawn : RegisteredProxyToken} {generation : RuntimeGeneration} {x : Issued}

theorem empty_mirrors : (empty : RegistryState Digest).Mirrors digest where
  mirror p generation d := by simp [empty]
  issued p generation d h := by simp [empty] at h
  distinct x hx := by cases hx
  valid x hx := by cases hx

/-- A token that was issued is known exactly as long as its generation is the plugin's current one. -/
theorem Mirrors.authenticate_iff (mirrors : state.Mirrors digest) (hx : x ∈ state.issued) :
    (∃ runtime, state.authenticate digest x.token = some runtime) ↔
      state.current x.pluginId = some x.generation := by
  rw [authenticate, if_pos (mirrors.valid x hx), current]
  constructor
  · rintro ⟨⟨p, generation⟩, h⟩
    have entry := (mirrors.mirror p generation _).mpr h
    obtain ⟨token, htoken, hdigest⟩ := mirrors.issued p generation _ entry
    have same := mirrors.distinct x hx _ htoken (.inl hdigest.symm)
    rw [same]
    simp [entry]
  · intro h
    obtain ⟨⟨generation, d⟩, entry, hgeneration⟩ := Option.map_eq_some_iff.mp h
    cases hgeneration
    obtain ⟨token, htoken, hdigest⟩ := mirrors.issued _ _ _ entry
    have same := mirrors.distinct x hx _ htoken (.inr rfl)
    refine ⟨⟨x.pluginId, x.generation⟩, ?_⟩
    apply (mirrors.mirror x.pluginId x.generation (digest x.token)).mp
    rw [entry, ← hdigest, same]

theorem Mirrors.authenticate_eq (mirrors : state.Mirrors digest) (hx : x ∈ state.issued)
    {runtime : AuthenticatedRuntime} (h : state.authenticate digest x.token = some runtime) :
    runtime = ⟨x.pluginId, x.generation⟩ := by
  obtain ⟨p, generation⟩ := runtime
  rw [authenticate, if_pos (mirrors.valid x hx)] at h
  have entry := (mirrors.mirror p generation _).mpr h
  obtain ⟨token, htoken, hdigest⟩ := mirrors.issued p generation _ entry
  have same := mirrors.distinct x hx _ htoken (.inl hdigest.symm)
  rw [same]

theorem Mirrors.issued_of_current (mirrors : state.Mirrors digest)
    (h : state.current p = some generation) : ∃ token, ⟨p, token, generation⟩ ∈ state.issued := by
  obtain ⟨⟨g, d⟩, entry, hg⟩ := Option.map_eq_some_iff.mp h
  cases hg
  obtain ⟨token, htoken, -⟩ := mirrors.issued _ _ _ entry
  exact ⟨token, htoken⟩

/-! ## What registering and revoking do -/

theorem current_insert : (state.insert digest p drawn).current q =
    if q = p then some drawn.generation else state.current q := by
  unfold current insert
  by_cases h : q = p
  · subst h
    simp
  · simp [h, AList.lookup_insert_ne, AList.lookup_erase_ne]

theorem current_revoke : (state.revoke p generation).2.current q =
    if q = p ∧ state.current p = some generation then none else state.current q := by
  unfold revoke current
  cases entry : state.byPlugin.lookup p with
  | none => simp
  | some e =>
    obtain ⟨g, d⟩ := e
    by_cases hg : g = generation
    · subst hg
      by_cases hq : q = p
      · subst hq
        simp
      · simp [hq, AList.lookup_erase_ne]
    · simp [hg]

theorem issued_revoke : (state.revoke p generation).2.issued = state.issued := by
  unfold revoke
  split
  · rfl
  · split <;> rfl

theorem Mirrors.lookup_dropped (mirrors : state.Mirrors digest) (q : PluginId)
    (generation : RuntimeGeneration) (d : Digest) :
    (match state.byPlugin.lookup p with
      | some (_, previous) => state.byDigest.erase previous
      | none => state.byDigest).lookup d = some ⟨q, generation⟩ ↔
      q ≠ p ∧ state.byPlugin.lookup q = some (generation, d) := by
  have mirror := mirrors.mirror
  cases entry : state.byPlugin.lookup p with
  | none =>
    rw [← mirror q generation d]
    constructor
    · intro h
      refine ⟨?_, h⟩
      rintro rfl
      cases entry.symm.trans h
    · exact fun h => h.2
  | some e =>
    obtain ⟨g, previous⟩ := e
    by_cases hd : d = previous
    · subst hd
      rw [AList.lookup_erase]
      constructor
      · intro h
        cases h
      · rintro ⟨hne, h⟩
        -- one digest leads to one plugin
        have first := (mirror p g d).mp entry
        have second := (mirror q generation d).mp h
        cases first.symm.trans second
        exact absurd rfl hne
    · rw [AList.lookup_erase_ne hd, ← mirror q generation d]
      constructor
      · intro h
        refine ⟨?_, h⟩
        rintro rfl
        cases entry.symm.trans h
        exact hd rfl
      · exact fun h => h.2

theorem Mirrors.insert (mirrors : state.Mirrors digest) (unused : state.Unused digest drawn) :
    (state.insert digest p drawn).Mirrors digest := by
  -- the digest is new, so nothing in the registry has it
  have fresh : ∀ q generation, state.byPlugin.lookup q ≠ some (generation, digest drawn.token) := by
    intro q generation h
    obtain ⟨token, htoken, hdigest⟩ := mirrors.issued _ _ _ h
    exact unused.token _ htoken hdigest
  have entries : ∀ q, (state.insert digest p drawn).byPlugin.lookup q =
      if q = p then some (drawn.generation, digest drawn.token) else state.byPlugin.lookup q := by
    intro q
    by_cases hq : q = p
    · subst hq
      simp [RegistryState.insert]
    · simp [RegistryState.insert, hq, AList.lookup_insert_ne, AList.lookup_erase_ne]
  constructor
  case mirror =>
    intro q generation d
    rw [entries]
    by_cases hd : d = digest drawn.token
    · subst hd
      rw [RegistryState.insert, AList.lookup_insert]
      split
      · rename_i hq
        subst hq
        simp
      · rename_i hq
        simp only [fresh q generation, Option.some.injEq, AuthenticatedRuntime.mk.injEq, false_iff, not_and]
        exact fun h => absurd h.symm hq
    · rw [RegistryState.insert, AList.lookup_insert_ne hd, mirrors.lookup_dropped]
      split
      · rename_i hq
        simp [hq, Ne.symm hd]
      · rename_i hq
        simp [hq]
  case issued =>
    intro q generation d h
    rw [entries] at h
    split at h
    · rename_i hq
      subst hq
      cases h
      exact ⟨drawn.token, by simp [RegistryState.insert], rfl⟩
    · obtain ⟨token, htoken, hdigest⟩ := mirrors.issued q generation d h
      exact ⟨token, List.mem_append_left _ htoken, hdigest⟩
  case distinct =>
    intro x hx y hy same
    rcases List.mem_append.mp hx with hx | hx <;> rcases List.mem_append.mp hy with hy | hy
    · exact mirrors.distinct x hx y hy same
    · rw [List.mem_singleton.mp hy] at same
      rcases same with h | h
      · exact absurd h (unused.token x hx)
      · exact absurd h (unused.generation x hx)
    · rw [List.mem_singleton.mp hx] at same
      rcases same with h | h
      · exact absurd h.symm (unused.token y hy)
      · exact absurd h.symm (unused.generation y hy)
    · rw [List.mem_singleton.mp hx, List.mem_singleton.mp hy]
  case valid =>
    intro x hx
    rcases List.mem_append.mp hx with hx | hx
    · exact mirrors.valid x hx
    · rw [List.mem_singleton.mp hx]
      exact validToken_token drawn

theorem Mirrors.revoke (mirrors : state.Mirrors digest) : (state.revoke p generation).2.Mirrors digest := by
  unfold RegistryState.revoke
  have dropped := mirrors.lookup_dropped (p := p)
  cases entry : state.byPlugin.lookup p with
  | none => exact mirrors
  | some e =>
    obtain ⟨g, d⟩ := e
    by_cases hg : g = generation
    · rw [entry] at dropped
      have entries : ∀ q, (state.byPlugin.erase p).lookup q =
          if q = p then none else state.byPlugin.lookup q := by
        intro q
        by_cases hq : q = p
        · subst hq
          simp
        · simp [hq, AList.lookup_erase_ne]
      simp only [hg, ne_eq, not_true_eq_false, if_false]
      constructor
      case mirror =>
        intro q generation d'
        rw [entries, dropped]
        split
        · rename_i hq
          simp [hq]
        · rename_i hq
          simp [hq]
      case issued =>
        intro q generation d' h
        rw [entries] at h
        split at h
        · cases h
        · exact mirrors.issued q generation d' h
      case distinct => exact mirrors.distinct
      case valid => exact mirrors.valid
    · simp only [ne_eq, hg, not_false_eq_true, if_true]
      exact mirrors

end RegistryState

end AudioDown.Gateway
