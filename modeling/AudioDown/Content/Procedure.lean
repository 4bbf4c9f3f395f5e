/-
# AudioDown.Content.Procedure — aggregation, one call after the other

What an aggregation is for, said without streams, maps and sets: platform by platform in ascending order,
call the selected candidates, default first, then by priority, then by plugin id, until a call ends the
attempt; then read the page off the list of all calls (`Operation.made`).  With a cursor the candidates
that are selected are those the cursor names.

The code's side of each of these is related to it here.
-/
import AudioDown.Content.Router

namespace AudioDown.Content

open AudioDown.Core Lib

/-! ## Calls -/

/-- Whom, and what came of it. -/
structure Call (ρ : Type) where
  candidate : ContentCandidate
  outcome : Except FailureData ρ

section
variable {ρ α : Type}

/-- Success, a failure that is final, or any failure if there is no falling back. -/
def Call.ends (allowFallback : Bool) (call : Call ρ) : Bool :=
  match call.outcome with
  | .ok _ => true
  | .error failure => !allowFallback || !failure.code.isRetryable

def Call.failure (call : Call ρ) : Option ContentFailure :=
  match call.outcome with
  | .ok _ => none
  | .error failure => some (failure.withSource call.candidate.source)

def Call.items (op : Operation ρ α) (call : Call ρ) : List (Sourced α) :=
  match call.outcome with
  | .ok result => (op.items result).map fun item => ⟨item, call.candidate.source⟩
  | .error _ => []

/-- An answering plugin that has more to give. -/
def Call.nextSource (op : Operation ρ α) (call : Call ρ) : Option SourceCursor :=
  match call.outcome with
  | .ok result =>
      (op.nextCursor result).map fun cursor =>
        ⟨call.candidate.platformId, call.candidate.pluginId, cursor⟩
  | .error _ => none

def Operation.judge (op : Operation ρ α) : Answer → Except FailureData ρ
  | .ok response => op.decode response
  | .error error => .error (invokeFailure error)

/-- All up to the first that ends it, which is the last. -/
def upTo {γ : Type} (ends : γ → Bool) (l : List γ) : List γ :=
  l.takeWhile (fun x => !ends x) ++ (l.find? ends).toList

theorem upTo_cons {γ : Type} (ends : γ → Bool) (x : γ) (l : List γ) :
    upTo ends (x :: l) = if ends x then [x] else x :: upTo ends l := by
  cases h : ends x <;> simp [upTo, h]

theorem mem_of_mem_upTo {γ : Type} {ends : γ → Bool} {l : List γ} {x : γ} (h : x ∈ upTo ends l) : x ∈ l := by
  rcases List.mem_append.mp h with h | h
  · exact (List.takeWhile_sublist _).subset h
  · exact List.mem_of_find?_eq_some (Option.mem_toList.mp h)

/-- A request as far as all platforms share it. -/
structure Task where
  requestId : String
  params : Option String → ContentParams
  allowFallback : Bool

/-- What asking each of the candidates gives; the first is the `n`-th call. -/
def Operation.attempts (op : Operation ρ α) (task : Task) (answer : Nat → Invocation → Answer) (n : Nat)
    (group : CursorCandidateGroup) : List (Call ρ) :=
  (group.candidates.zipIdx n).map fun (candidate, n) =>
    ⟨candidate, op.judge (answer n (op.invocation task.requestId (task.params group.cursor) candidate))⟩

def Operation.calls (op : Operation ρ α) (task : Task) (answer : Nat → Invocation → Answer)
    (group : CursorCandidateGroup) : List (Call ρ) :=
  upTo (Call.ends task.allowFallback) (op.attempts task answer 0 group)

def Operation.made (op : Operation ρ α) (task : Task) (answer : Answers)
    (groups : List CursorCandidateGroup) : List (Call ρ) :=
  groups.zipIdx.flatMap fun (group, i) => op.calls task (answer i) group

def Operation.work (op : Operation ρ α) (task : Task) (group : CursorCandidateGroup) :
    Routine (PlatformResult α) :=
  op.platform task.requestId group.candidates (task.params group.cursor) task.allowFallback

/-- What the calls on a platform come to, after earlier failures. -/
def gathered (op : Operation ρ α) (failures : List ContentFailure) (calls : List (Call ρ)) :
    PlatformResult α :=
  ⟨calls.flatMap (Call.items op), failures ++ calls.filterMap Call.failure,
    calls.findSome? (Call.nextSource op)⟩

variable {op : Operation ρ α} {task : Task} {answer : Nat → Invocation → Answer}

theorem platformFrom_cons (requestId : String) (params : ContentParams) (allowFallback : Bool)
    (aggregate : PlatformResult α) (candidate : ContentCandidate) (candidates : List ContentCandidate) :
    op.platformFrom requestId params allowFallback aggregate (candidate :: candidates) =
      .act (op.invocation requestId params candidate) fun answer =>
        match op.judge answer with
        | .ok result => .ret (aggregate.extend op candidate result)
        | .error failure =>
            if !allowFallback || !failure.code.isRetryable then .ret (aggregate.fail candidate failure)
            else op.platformFrom requestId params allowFallback (aggregate.fail candidate failure)
              candidates := by
  refine congrArg _ (funext fun answer => ?_)
  cases answer with
  | error error => rfl
  | ok response => rfl

theorem attempts_cons (n : Nat) (cursor : Option String) (candidate : ContentCandidate)
    (candidates : List ContentCandidate) : op.attempts task answer n ⟨candidate :: candidates, cursor⟩ =
      ⟨candidate, op.judge (answer n (op.invocation task.requestId (task.params cursor) candidate))⟩ ::
        op.attempts task answer (n + 1) ⟨candidates, cursor⟩ := rfl

theorem replay_platformFrom (cursor : Option String) (candidates : List ContentCandidate) (n : Nat)
    (failures : List ContentFailure) :
    (op.platformFrom task.requestId (task.params cursor) task.allowFallback ⟨[], failures, none⟩
        candidates).replay answer n =
      gathered op failures (upTo (Call.ends task.allowFallback)
        (op.attempts task answer n ⟨candidates, cursor⟩)) := by
  induction candidates generalizing n failures with
  | nil => simp [Operation.platformFrom, Prog.replay, Operation.attempts, upTo, gathered]
  | cons candidate candidates ih =>
    rw [platformFrom_cons, attempts_cons, upTo_cons]
    simp only [Prog.replay]
    cases houtcome : op.judge (answer n (op.invocation task.requestId (task.params cursor) candidate)) with
    | ok result =>
      simp [Call.ends, Call.items, Call.failure, Call.nextSource, Prog.replay, PlatformResult.extend, gathered]
    | error failure =>
      by_cases hends : (!task.allowFallback || !failure.code.isRetryable) = true
      · have hends' : Call.ends task.allowFallback (⟨candidate, .error failure⟩ : Call ρ) = true := hends
        simp only [if_pos hends, if_pos hends']
        simp [Call.items, Call.failure, Call.nextSource, Prog.replay, PlatformResult.fail, gathered]
      · -- a failure that may be fallen back from is listed, and the next candidate is asked
        have hends' : ¬ Call.ends task.allowFallback (⟨candidate, .error failure⟩ : Call ρ) = true := hends
        have hrest := ih (n + 1) (failures ++ [failure.withSource candidate.source])
        simp only [if_neg hends, if_neg hends', PlatformResult.fail, hrest]
        simp [Call.items, Call.failure, List.findSome?_cons, Call.nextSource, gathered]

theorem issued_platformFrom (cursor : Option String) (candidates : List ContentCandidate) (n : Nat)
    (aggregate : PlatformResult α) : (op.platformFrom task.requestId (task.params cursor) task.allowFallback
    aggregate candidates).issued answer n = (upTo (Call.ends task.allowFallback)
    (op.attempts task answer n ⟨candidates, cursor⟩)).map
        fun call => op.invocation task.requestId (task.params cursor) call.candidate := by
  induction candidates generalizing n aggregate with
  | nil => simp [Operation.platformFrom, Prog.issued, Operation.attempts, upTo]
  | cons candidate candidates ih =>
    rw [platformFrom_cons, attempts_cons, upTo_cons]
    simp only [Prog.issued]
    cases op.judge (answer n (op.invocation task.requestId (task.params cursor) candidate)) with
    | ok result => simp [Call.ends, Prog.issued]
    | error failure =>
      by_cases hends : (!task.allowFallback || !failure.code.isRetryable) = true
      · have hends' : Call.ends task.allowFallback (⟨candidate, .error failure⟩ : Call ρ) = true := hends
        simp only [if_pos hends, if_pos hends', Prog.issued, List.map_singleton]
      · have hends' : ¬ Call.ends task.allowFallback (⟨candidate, .error failure⟩ : Call ρ) = true := hends
        simp only [if_neg hends, if_neg hends', ih, List.map_cons]

theorem replay_work (group : CursorCandidateGroup) :
    (op.work task group).replay answer 0 = gathered op [] (op.calls task answer group) :=
  replay_platformFrom group.cursor group.candidates 0 []

theorem issued_work (group : CursorCandidateGroup) :
    (op.work task group).issued answer 0 = (op.calls task answer group).map
      fun call => op.invocation task.requestId (task.params group.cursor) call.candidate :=
  issued_platformFrom group.cursor group.candidates 0 .empty

theorem candidate_of_call {group : CursorCandidateGroup} {call : Call ρ}
    (h : call ∈ op.calls task answer group) : call.candidate ∈ group.candidates := by
  obtain ⟨⟨candidate, n⟩, hmem, rfl⟩ := List.mem_map.mp (mem_of_mem_upTo h)
  exact List.fst_mem_of_mem_zipIdx hmem

end

/-! ## The candidates of a platform -/

def platforms (candidates : List ContentCandidate) : List String :=
  (candidates.map ContentCandidate.platformId).dedup.insertionSort (· ≤ ·)

/-- The candidates of a platform, in the order in which they are asked. -/
def turn (candidates : List ContentCandidate) (platformId : String) : List ContentCandidate :=
  (candidates.filter (·.platformId = platformId)).insertionSort
    fun left right => left.precedence ≤ right.precedence

def firstPage (candidates : List ContentCandidate) : List CursorCandidateGroup :=
  (platforms candidates).map fun platformId => ⟨turn candidates platformId, none⟩

/-- The plugin a cursor names, if it is a candidate. -/
def resume (candidates : List ContentCandidate) (source : SourceCursor) :
    Except ContentServiceError CursorCandidateGroup :=
  match (turn candidates source.platformId).find? (·.pluginId = source.pluginId) with
  | some candidate => .ok ⟨[candidate], some source.cursor⟩
  | none => .error (.cursor .bindingMismatch)

/-- The candidates that are selected, by platform. -/
def selection (codec : CursorCodec) (candidates : List ContentCandidate) (cursor : Option (List UInt8))
    (binding : ContentCursorBinding) : Except ContentServiceError (List CursorCandidateGroup) :=
  match cursor with
  | none => .ok (firstPage candidates)
  | some cursor =>
      match decodeCursor codec cursor binding with
      | .error e => .error (.cursor e)
      | .ok sources => sources.mapM (resume candidates)

theorem rank_le_iff {left right : ContentCandidate} (h : left.platformId = right.platformId) :
    left.rank ≤ right.rank ↔ left.precedence ≤ right.precedence := by
  unfold ContentCandidate.rank
  rw [Prod.Lex.toLex_le_toLex]
  simp [h]

instance : IsTrans ContentCandidate fun left right => left.rank ≤ right.rank :=
  ⟨fun _ _ _ => le_trans⟩

instance : Std.Total fun left right : ContentCandidate => left.rank ≤ right.rank :=
  ⟨fun left right => le_total left.rank right.rank⟩

section
variable {candidates : List ContentCandidate} {method : ContentMethod} {route : ContentRouteKind}
  {filters : ContentFilters}

theorem filter_select (platformId : String) :
    (selectCandidates candidates method route filters).filter (·.platformId = platformId) =
      turn (eligible candidates method route filters) platformId := by
  unfold selectCandidates turn
  rw [Lib.filter_insertionSort]
  have h := List.map_insertionSort (r := fun left right : ContentCandidate => left.rank ≤ right.rank)
    (s := fun left right : ContentCandidate => left.precedence ≤ right.precedence) id
    ((eligible candidates method route filters).filter (·.platformId = platformId)) ?_
  · simpa using h
  · intro left hleft right hright
    have hleft := of_decide_eq_true (List.mem_filter.mp hleft).2
    have hright := of_decide_eq_true (List.mem_filter.mp hright).2
    exact rank_le_iff (hleft.trans hright.symm)

theorem groupCandidates_select : groupCandidates (selectCandidates candidates method route filters) =
      (platforms (eligible candidates method route filters)).map
        (turn (eligible candidates method route filters)) := by
  set all := eligible candidates method route filters with hall
  have hperm : (selectCandidates candidates method route filters).Perm all :=
    List.perm_insertionSort _ _
  have hplatforms : ((selectCandidates candidates method route filters).map
      ContentCandidate.platformId).dedup.insertionSort (· ≤ ·) = platforms all := by
    refine List.Perm.eq_of_pairwise' (List.pairwise_insertionSort _ _) (List.pairwise_insertionSort _ _) ?_
    refine (List.perm_insertionSort _ _).trans (List.Perm.trans ?_ (List.perm_insertionSort _ _).symm)
    exact (hperm.map _).dedup
  rw [groupCandidates, Lib.group_eq, hplatforms, List.map_map]
  refine List.map_congr_left fun platformId _ => ?_
  exact filter_select platformId

theorem resumeGroups_select (sources : List SourceCursor) :
    resumeGroups (selectCandidates candidates method route filters) sources =
      sources.mapM (resume (eligible candidates method route filters)) := by
  induction sources with
  | nil => rfl
  | cons source sources ih =>
    have hfind : (selectCandidates candidates method route filters).find? (fun candidate =>
        candidate.platformId = source.platformId && candidate.pluginId = source.pluginId) =
          (turn (eligible candidates method route filters) source.platformId).find?
            (·.pluginId = source.pluginId) := by
      rw [← filter_select, List.find?_filter]
      simp
    rw [resumeGroups, hfind, List.mapM_cons, ih]
    unfold resume
    cases (turn (eligible candidates method route filters) source.platformId).find?
      (·.pluginId = source.pluginId) <;> rfl

/-- Falling back is for first pages without a plugin filter. -/
def fallsBack (cursor : Option (List UInt8)) (filters : ContentFilters) : Bool :=
  cursor.isNone && filters.pluginId.isNone

theorem prepareGroups_select {codec : CursorCodec} {cursor : Option (List UInt8)}
    {binding : ContentCursorBinding} : prepareGroups codec (selectCandidates candidates method route filters)
    cursor binding = (selection codec (eligible candidates method route filters) cursor binding).map
        fun groups => (groups, fallsBack cursor binding.filters) := by
  cases cursor with
  | none =>
    simp only [prepareGroups, selection, groupCandidates_select, firstPage, List.map_map]
    rfl
  | some cursor =>
    simp only [prepareGroups, selection, resumeGroups_select]
    cases decodeCursor codec cursor binding with
    | error e => rfl
    | ok sources =>
      show (do
        let groups ← sources.mapM (resume (eligible candidates method route filters))
        Except.ok (groups, false)) = Except.map (fun groups => (groups, false))
          (sources.mapM (resume (eligible candidates method route filters)))
      cases sources.mapM (resume (eligible candidates method route filters)) <;> rfl

end

/-! ## Repetitions -/

/-- Both are identified, by the same resource type and canonical id. -/
def ContentItem.repeats (item earlier : ContentItem) : Bool :=
  item.canonicalId.isSome && earlier.canonicalId == item.canonicalId &&
    earlier.resourceType == item.resourceType

def CategoryItem.repeats (item earlier : CategoryItem) : Bool :=
  item.canonicalId.isSome && earlier.canonicalId == item.canonicalId

/-- The first occurrences in each section, also counting the sections before it. -/
def freshSections (before : List ContentItem) (sections : List (Sourced DiscoverSection)) :
    List (Sourced DiscoverSection) :=
  sections.zipIdx.map fun (sourced, i) =>
    { sourced with
      item.items := fresh ContentItem.repeats
        (before ++ (sections.take i).flatMap fun earlier => earlier.item.items) sourced.item.items }

theorem freshSections_cons (before : List ContentItem) (sourced : Sourced DiscoverSection)
    (sections : List (Sourced DiscoverSection)) : freshSections before (sourced :: sections) =
      { sourced with item.items := fresh ContentItem.repeats before sourced.item.items } ::
        freshSections (before ++ sourced.item.items) sections := by
  rw [freshSections, List.zipIdx_cons, List.map_cons, List.zipIdx_succ, List.map_map]
  congr 1
  · simp
  · refine List.map_congr_left ?_
    rintro ⟨sourced', i⟩ -
    simp

/-- The key under which the code remembers an item. -/
def itemKey (item : ContentItem) : Option (Nat × String) :=
  (item.canonicalId.filter (· ≠ "")).map fun canonicalId =>
    (resourceTypeKey item.resourceType, canonicalId)

def categoryKey (item : CategoryItem) : Option String := item.canonicalId.filter (· ≠ "")

theorem keepItem_eq : keepItem = Lib.keepBy itemKey := by
  funext item seen
  unfold keepItem Lib.keepBy itemKey
  cases item.canonicalId.filter (· ≠ "") <;> rfl

theorem resourceTypeKey_injective : Function.Injective resourceTypeKey := by
  intro left right h
  cases left <;> cases right <;> first | rfl | cases h

theorem filter_identified {canonicalId : Option String} (h : Identified canonicalId) :
    canonicalId.filter (· ≠ "") = canonicalId := by
  cases canonicalId with
  | none => rfl
  | some canonicalId =>
    have hne : canonicalId ≠ "" := fun heq => h (heq ▸ rfl)
    simp [Option.filter, hne]

theorem sameKey_item {item earlier : ContentItem} (hitem : Identified item.canonicalId)
    (hearlier : Identified earlier.canonicalId) : Lib.sameKey itemKey item earlier = item.repeats earlier := by
  have hkey : ∀ (t t' : ContentResourceType) (c c' : String),
      (resourceTypeKey t', c') = (resourceTypeKey t, c) ↔ c' = c ∧ t' = t := by
    intro t t' c c'
    rw [Prod.mk.injEq, resourceTypeKey_injective.eq_iff, and_comm]
  rw [Bool.eq_iff_iff]
  unfold Lib.sameKey itemKey ContentItem.repeats
  rw [filter_identified hitem, filter_identified hearlier]
  cases item.canonicalId <;> cases earlier.canonicalId <;> simp [hkey]

theorem sameKey_category {item earlier : CategoryItem}
    (hitem : Identified item.canonicalId) (hearlier : Identified earlier.canonicalId) :
    Lib.sameKey categoryKey item earlier = item.repeats earlier := by
  unfold Lib.sameKey categoryKey CategoryItem.repeats
  rw [filter_identified hitem, filter_identified hearlier]

theorem deduplicateItems_eq {items : List (Sourced ContentItem)}
    (h : ∀ sourced ∈ items, Identified sourced.item.canonicalId) :
    deduplicateItems items = fresh (fun item earlier => item.item.repeats earlier.item) [] items := by
  unfold deduplicateItems
  rw [keepItem_eq]
  refine (Lib.retain_keepBy_nil (fun sourced : Sourced ContentItem => itemKey sourced.item) items).trans ?_
  refine Lib.fresh_congr fun item hitem earlier hearlier => ?_
  exact sameKey_item (h item hitem) (h earlier hearlier)

theorem deduplicateCategories_eq {items : List (Sourced CategoryItem)}
    (h : ∀ sourced ∈ items, Identified sourced.item.canonicalId) :
    deduplicateCategories items = fresh (fun item earlier => item.item.repeats earlier.item) [] items := by
  have hkeep : keepCategory = Lib.keepBy categoryKey := by
    funext item seen
    unfold keepCategory Lib.keepBy categoryKey
    cases item.canonicalId.filter (· ≠ "") <;> rfl
  unfold deduplicateCategories
  rw [hkeep]
  refine (Lib.retain_keepBy_nil (fun sourced : Sourced CategoryItem => categoryKey sourced.item) items).trans ?_
  refine Lib.fresh_congr fun item hitem earlier hearlier => ?_
  exact sameKey_category (h item hitem) (h earlier hearlier)

variable {sections : List (Sourced DiscoverSection)}

theorem deduplicateSectionsFrom_eq {seen : List (Nat × String)}
    {before : List ContentItem} (hseen : ∀ key, key ∈ seen ↔ some key ∈ before.map itemKey)
    (hbefore : ∀ item ∈ before, Identified item.canonicalId)
    (h : ∀ sourced ∈ sections, ∀ item ∈ sourced.item.items, Identified item.canonicalId) :
    deduplicateSectionsFrom seen sections = freshSections before sections := by
  induction sections generalizing seen before with
  | nil => rfl
  | cons sourced sections ih =>
    rw [List.forall_mem_cons] at h
    obtain ⟨hkept, hlast⟩ := Lib.retain_keepBy itemKey sourced.item.items hseen
    have hfresh : fresh (Lib.sameKey itemKey) before sourced.item.items =
        fresh ContentItem.repeats before sourced.item.items := by
      refine Lib.fresh_congr fun item hitem earlier hearlier => sameKey_item (h.1 item hitem) ?_
      rcases List.mem_append.mp hearlier with hearlier | hearlier
      · exact hbefore earlier hearlier
      · exact h.1 earlier hearlier
    rw [deduplicateSectionsFrom, freshSections_cons, keepItem_eq, hkept, hfresh]
    congr 1
    refine ih hlast ?_ h.2
    intro item hitem
    rcases List.mem_append.mp hitem with hitem | hitem
    · exact hbefore item hitem
    · exact h.1 item hitem

theorem deduplicateSections_eq
    (h : ∀ sourced ∈ sections, ∀ item ∈ sourced.item.items, Identified item.canonicalId) :
    deduplicateSections sections = freshSections [] sections :=
  deduplicateSectionsFrom_eq (fun _ => Iff.rfl.trans (by simp)) nofun h

end AudioDown.Content
