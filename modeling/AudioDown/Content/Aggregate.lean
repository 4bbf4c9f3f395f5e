/-
# AudioDown.Content.Aggregate — the concurrent aggregation and the procedure

Whatever the plugins answer and however the work on the platforms interleaves, an operation makes the
calls of the procedure and puts its page together from them.  Where the two part is the end: the
procedure's page carries the cursors of all plugins that have more to give, and `encode_cursor` refuses some
lists of them.  Then `search` and `discover` return the error and nothing of the page
(`Encodable` is the condition; `categories` has no cursor).
-/
import AudioDown.Content.Procedure

namespace AudioDown.Content

open Lib

/-! ## What the stream of platforms comes to -/

section
variable {ρ α : Type} {op : Operation ρ α} {task : Task} {answer : Answers}
  {groups : List CursorCandidateGroup}

def Operation.results (op : Operation ρ α) (task : Task) (answer : Answers)
    (groups : List CursorCandidateGroup) : List (PlatformResult α) :=
  groups.zipIdx.map fun (group, i) => gathered op [] (op.calls task (answer i) group)

theorem results_of_done {stream : Stream Invocation (fun _ => Answer) (PlatformResult α)}
    (hsound : stream.Sound answer (groups.map (op.work task))) (hdone : stream.done = true) :
    stream.results = op.results task answer groups := by
  rw [Stream.results_eq hsound hdone, List.zipIdx_map, List.map_map, Operation.results]
  refine List.map_congr_left ?_
  rintro ⟨group, i⟩ -
  exact replay_work group

theorem items_results : (op.results task answer groups).flatMap PlatformResult.items =
      (op.made task answer groups).flatMap (Call.items op) := by
  rw [Operation.results, Operation.made, List.flatMap_map, List.flatMap_assoc]
  rfl

theorem failures_results : (op.results task answer groups).flatMap PlatformResult.failures =
      (op.made task answer groups).filterMap Call.failure := by
  rw [Operation.results, Operation.made, List.flatMap_map, List.filterMap_flatMap]
  rfl

/-- A call with something to go on from ends the work on its platform, so there is at most one. -/
theorem filterMap_upTo {γ δ : Type} {ends : γ → Bool} {f : γ → Option δ}
    (h : ∀ x, (f x).isSome = true → ends x = true) (l : List γ) :
    (upTo ends l).filterMap f = ((upTo ends l).findSome? f).toList := by
  induction l with
  | nil => rfl
  | cons x l ih =>
    rw [upTo_cons]
    split
    · cases hx : f x <;> simp [hx]
    · rename_i hends
      cases hx : f x with
      | none => simp [hx, ih]
      | some y => exact absurd (h x (by rw [hx]; rfl)) hends

theorem cursors_results : (op.results task answer groups).filterMap PlatformResult.nextCursor =
      (op.made task answer groups).filterMap (Call.nextSource op) := by
  rw [Operation.results, Operation.made, List.filterMap_map, List.filterMap_flatMap,
    List.filterMap_eq_flatMap_toList]
  congr 1
  funext ⟨group, i⟩
  refine (filterMap_upTo ?_ _).symm
  rintro ⟨candidate, outcome⟩ hsome
  cases outcome with
  | ok result => rfl
  | error failure => cases hsome

theorem mem_made {call : Call ρ} (h : call ∈ op.made task answer groups) :
    ∃ answer, call.outcome = op.judge answer := by
  obtain ⟨⟨group, i⟩, -, hcall⟩ := List.mem_flatMap.mp h
  obtain ⟨_, -, rfl⟩ := List.mem_map.mp (mem_of_mem_upTo hcall)
  exact ⟨_, rfl⟩

theorem result_of_made {P : ρ → Prop}
    (hdecode : ∀ response result, op.decode response = .ok result → P result) {call : Call ρ} {result : ρ}
    (h : call ∈ op.made task answer groups) (hresult : call.outcome = .ok result) : P result := by
  obtain ⟨reply, hreply⟩ := mem_made h
  rw [hresult] at hreply
  cases reply with
  | error error => cases hreply
  | ok response => exact hdecode response result hreply.symm

theorem item_of_made {P : α → Prop}
    (hdecode : ∀ response result, op.decode response = .ok result → ∀ item ∈ op.items result, P item)
    {sourced : Sourced α} (h : sourced ∈ (op.made task answer groups).flatMap (Call.items op)) :
    P sourced.item := by
  obtain ⟨⟨candidate, outcome⟩, hcall, hmem⟩ := List.mem_flatMap.mp h
  cases outcome with
  | error failure => cases hmem
  | ok result =>
    obtain ⟨item, hitem, rfl⟩ := List.mem_map.mp hmem
    exact result_of_made hdecode hcall rfl item hitem

end

/-! ## The sources of the next cursor -/

def Ordered (groups : List CursorCandidateGroup) : Prop :=
  ∃ platformIds : List String, platformIds.Pairwise (· < ·) ∧
    List.Forall₂ (fun platformId group => ∀ candidate ∈ group.candidates,
      candidate.platformId = platformId) platformIds groups

theorem ordered_firstPage (candidates : List ContentCandidate) : Ordered (firstPage candidates) := by
  refine ⟨platforms candidates, ?_, ?_⟩
  · have hnodup : (platforms candidates).Nodup :=
      (List.perm_insertionSort _ _).nodup_iff.mpr (List.nodup_dedup _)
    have hle : (platforms candidates).Pairwise (· ≤ ·) := List.pairwise_insertionSort _ _
    exact hle.imp₂ (fun _ _ => lt_of_le_of_ne) hnodup
  · rw [firstPage, List.forall₂_map_right_iff, List.forall₂_same]
    intro platformId _ candidate hmem
    exact of_decide_eq_true (List.mem_filter.mp ((List.mem_insertionSort _).mp hmem)).2

theorem forall₂_of_mapM {ε β γ : Type} {f : β → Except ε γ} {l : List β} {m : List γ}
    (h : l.mapM f = .ok m) : List.Forall₂ (fun x y => f x = .ok y) l m := by
  induction l generalizing m with
  | nil =>
    cases h
    exact .nil
  | cons x l ih =>
    rw [List.mapM_cons] at h
    obtain ⟨y, hy, h⟩ := bind_eq_ok h
    obtain ⟨ys, hys, h⟩ := bind_eq_ok h
    cases h
    exact .cons hy (ih hys)

theorem resume_eq_ok {candidates : List ContentCandidate} {source : SourceCursor}
    {group : CursorCandidateGroup} (h : resume candidates source = .ok group) :
    ∃ candidate ∈ candidates, candidate.platformId = source.platformId ∧
      candidate.pluginId = source.pluginId ∧ group = ⟨[candidate], some source.cursor⟩ := by
  unfold resume at h
  split at h
  · rename_i candidate hfind
    cases h
    have hmem := List.mem_filter.mp ((List.mem_insertionSort _).mp (List.mem_of_find?_eq_some hfind))
    exact ⟨candidate, hmem.1, of_decide_eq_true hmem.2, by simpa using List.find?_some hfind, rfl⟩
  · cases h

theorem ordered_resume {candidates : List ContentCandidate} {sources : List SourceCursor}
    {groups : List CursorCandidateGroup} (hsources : validateSources sources = .ok ())
    (h : sources.mapM (resume candidates) = .ok groups) : Ordered groups := by
  refine ⟨sources.map SourceCursor.platformId, (validateSources_eq_ok.mp hsources).2.2, ?_⟩
  rw [List.forall₂_map_left_iff]
  refine (forall₂_of_mapM h).imp fun source group hgroup candidate hmem => ?_
  obtain ⟨found, -, hplatform, -, rfl⟩ := resume_eq_ok hgroup
  cases List.mem_singleton.mp hmem
  exact hplatform

theorem ordered_selection {codec : CursorCodec} {candidates : List ContentCandidate}
    {cursor : Option (List UInt8)} {binding : ContentCursorBinding} {groups : List CursorCandidateGroup}
    (h : selection codec candidates cursor binding = .ok groups) : Ordered groups := by
  cases cursor with
  | none =>
    cases h
    exact ordered_firstPage candidates
  | some cursor =>
    simp only [selection] at h
    cases hdecode : decodeCursor codec cursor binding with
    | error e =>
      rw [hdecode] at h
      cases h
    | ok sources =>
      rw [hdecode] at h
      exact ordered_resume (decodeCursor_eq_ok hdecode) h

section
variable {ρ α : Type} {op : Operation ρ α} {task : Task} {answer : Answers}
  {groups : List CursorCandidateGroup}

def Operation.sources (op : Operation ρ α) (task : Task) (answer : Answers)
    (groups : List CursorCandidateGroup) : List SourceCursor :=
  (op.made task answer groups).filterMap (Call.nextSource op)

/-- The source that the work on the `i`-th platform gives, if it does. -/
def Operation.sourceOf (op : Operation ρ α) (task : Task) (answer : Answers)
    (entry : CursorCandidateGroup × Nat) : Option SourceCursor :=
  (op.calls task (answer entry.2) entry.1).findSome? (Call.nextSource op)

theorem platformId_of_source {group : CursorCandidateGroup} {i : Nat} {source : SourceCursor}
    {platformId : String} (hgroup : ∀ candidate ∈ group.candidates, candidate.platformId = platformId)
    (h : op.sourceOf task answer (group, i) = some source) : source.platformId = platformId := by
  obtain ⟨call, hcall, hsource⟩ := List.exists_of_findSome?_eq_some h
  have hcandidate := hgroup _ (candidate_of_call hcall)
  unfold Call.nextSource at hsource
  split at hsource
  · obtain ⟨cursor, -, rfl⟩ := Option.map_eq_some_iff.mp hsource
    exact hcandidate
  · cases hsource

theorem sources_ascend (h : Ordered groups) :
    ((op.sources task answer groups).map SourceCursor.platformId).Pairwise (· < ·) := by
  obtain ⟨platformIds, hascending, hgroups⟩ := h
  refine hascending.sublist ?_
  rw [Operation.sources, ← cursors_results, Operation.results, List.filterMap_map]
  clear hascending
  -- the position in the list of platforms is that of the group
  suffices hfrom : ∀ n, (((groups.zipIdx n).filterMap (op.sourceOf task answer)).map
      SourceCursor.platformId).Sublist platformIds from hfrom 0
  induction hgroups with
  | nil => exact fun n => List.Sublist.refl _
  | @cons platformId group platformIds groups hgroup hrest ih =>
    intro n
    rw [List.zipIdx_cons]
    cases hnext : op.sourceOf task answer (group, n) with
    | none =>
      rw [List.filterMap_cons_none hnext]
      exact (ih (n + 1)).cons _
    | some source =>
      rw [List.filterMap_cons_some hnext, List.map_cons, platformId_of_source hgroup hnext]
      exact (ih (n + 1)).cons_cons _

theorem sources_valid (hdecode : ∀ response result, op.decode response = .ok result →
      ∀ cursor, op.nextCursor result = some cursor → ValidCursor cursor) :
    ∀ source ∈ op.sources task answer groups, ValidCursor source.cursor := by
  intro source hsource
  obtain ⟨⟨candidate, outcome⟩, hcall, hnext⟩ := List.mem_filterMap.mp hsource
  cases outcome with
  | error failure => cases hnext
  | ok result =>
    obtain ⟨cursor, hcursor, rfl⟩ := Option.map_eq_some_iff.mp hnext
    exact result_of_made hdecode hcall rfl cursor hcursor

end

/-! ## Following the procedure -/

section
variable {ρ α β : Type}

/-- An operation against the procedure.  A request that selects nothing, since its cursor is not one or
names what is no candidate, is refused before any call.  Otherwise every schedule is bounded and makes
calls to selected candidates only, and one that cannot go on has made the calls of the procedure on every
platform and has returned: no other page than the procedure's, and that one exactly under the condition. -/
structure Follows (op : Operation ρ α) (task : Task)
    (operation : Except ContentServiceError (Aggregation (PlatformResult α) β)) (answer : Answers)
    (selected : Except ContentServiceError (List CursorCandidateGroup))
    (page : List CursorCandidateGroup → β) (condition : List CursorCandidateGroup → Prop) : Prop where
  refused : ∀ e, selected = .error e → operation = .error e
  accepted : ∀ groups, selected = .ok groups → ∃ work bound, operation = .ok work ∧
    ∀ schedule stream, work.after answer schedule = some stream → schedule.length ≤ bound ∧
      (∀ i call, (i, call) ∈ stream.calls →
        ∃ group, groups[i]? = some group ∧ call.candidate ∈ group.candidates) ∧
      ((∀ label, stream.next platformConcurrency answer label = none) →
        (∀ i group, groups[i]? = some group → stream.callsOf i =
          (op.calls task (answer i) group).map fun call =>
            op.invocation task.requestId (task.params group.cursor) call.candidate) ∧
        (returned operation answer schedule).isSome = true ∧
        (∀ other, returned operation answer schedule = some (.ok other) → other = page groups) ∧
        (returned operation answer schedule = some (.ok (page groups)) ↔ condition groups))

theorem follows {op : Operation ρ α} {task : Task} {answer : Answers}
    {operation : Except ContentServiceError (Aggregation (PlatformResult α) β)}
    {selected : Except ContentServiceError (List CursorCandidateGroup)}
    {finish : List CursorCandidateGroup → List (PlatformResult α) → Except ContentServiceError β}
    {page : List CursorCandidateGroup → β} {condition : List CursorCandidateGroup → Prop}
    (hoperation : operation = selected.map fun groups => ⟨groups.map (op.work task), finish groups⟩)
    (hfinish : ∀ groups, selected = .ok groups →
      (∀ other, finish groups (op.results task answer groups) = .ok other → other = page groups) ∧
      (finish groups (op.results task answer groups) = .ok (page groups) ↔ condition groups)) :
    Follows op task operation answer selected page condition where
  refused e he := by
    rw [hoperation, he]
    rfl
  accepted groups hgroups := by
    have hwork : operation = .ok ⟨groups.map (op.work task), finish groups⟩ := by
      rw [hoperation, hgroups]
      rfl
    refine ⟨_, (Stream.initial (groups.map (op.work task))).work answer, hwork, ?_⟩
    intro schedule stream hstream
    have hrun := Run.of_foldlM hstream
    have hsound := Stream.sound_of_run hrun
    refine ⟨Stream.length_le_work Stream.initial_sound hrun, ?_, ?_⟩
    · intro i call hcall
      obtain ⟨program, hprogram, hissued⟩ := Stream.mem_issued_of_call hsound hcall
      rw [List.getElem?_map, Option.map_eq_some_iff] at hprogram
      obtain ⟨group, hgroup, rfl⟩ := hprogram
      rw [issued_work] at hissued
      obtain ⟨made, hmade, rfl⟩ := List.mem_map.mp hissued
      exact ⟨group, hgroup, candidate_of_call hmade⟩
    · intro hstuck
      have hdone := Stream.done_of_stuck hsound (by decide) hstuck
      have hreturned : returned operation answer schedule =
          some (finish groups (op.results task answer groups)) := by
        rw [hwork]
        simp only [returned, hstream, hdone, if_pos, results_of_done hsound hdone]
      rw [hreturned]
      refine ⟨?_, rfl, ?_, ?_⟩
      · intro i group hgroup
        rw [← issued_work]
        exact Stream.calls_eq hsound hdone (by rw [List.getElem?_map, hgroup]; rfl)
      · intro other hother
        exact (hfinish groups hgroups).1 other (Option.some.inj hother)
      · rw [Option.some.injEq]
        exact (hfinish groups hgroups).2

end

/-! ## The three operations -/

def SearchAggregationInput.binding (input : SearchAggregationInput) : ContentCursorBinding :=
  ⟨.search, some input.query, input.filters⟩

def SearchAggregationInput.task (input : SearchAggregationInput) : Task :=
  ⟨input.requestId, fun cursor => .search input.query cursor input.limit,
    fallsBack input.cursor input.filters⟩

def DiscoverAggregationInput.binding (input : DiscoverAggregationInput) : ContentCursorBinding :=
  ⟨.discover, none, input.filters⟩

def DiscoverAggregationInput.task (input : DiscoverAggregationInput) : Task :=
  ⟨input.requestId, fun cursor => .discover cursor input.limit, fallsBack input.cursor input.filters⟩

def CategoriesAggregationInput.task (input : CategoriesAggregationInput) : Task :=
  ⟨input.requestId, fun _ => .categories, fallsBack none input.filters⟩

def searchPage (codec : CursorCodec) (readers : Readers) (input : SearchAggregationInput)
    (answer : Answers) (groups : List CursorCandidateGroup) : AggregatedSearchResult :=
  let op := searchOperation readers
  let made := op.made input.task answer groups
  ⟨fresh (fun item earlier => item.item.repeats earlier.item) [] (made.flatMap (Call.items op)),
    cursorText codec input.binding (op.sources input.task answer groups),
    made.filterMap Call.failure, !groups.isEmpty⟩

def discoverPage (codec : CursorCodec) (readers : Readers) (input : DiscoverAggregationInput)
    (answer : Answers) (groups : List CursorCandidateGroup) : AggregatedDiscoverResult :=
  let op := discoverOperation readers
  let made := op.made input.task answer groups
  ⟨freshSections [] (made.flatMap (Call.items op)),
    cursorText codec input.binding (op.sources input.task answer groups),
    made.filterMap Call.failure, !groups.isEmpty⟩

def categoriesPage (readers : Readers) (input : CategoriesAggregationInput) (answer : Answers)
    (groups : List CursorCandidateGroup) : AggregatedCategoriesResult :=
  let op := categoriesOperation readers
  let made := op.made input.task answer groups
  ⟨fresh (fun item earlier => item.item.repeats earlier.item) [] (made.flatMap (Call.items op)),
    made.filterMap Call.failure, !groups.isEmpty⟩

/-- The page, unless its cursor is refused. -/
theorem nextPage_eq_ok {α β : Type} {codec : CursorCodec} {binding : ContentCursorBinding}
    {results : List (PlatformResult α)} {sources : List SourceCursor} {make : Option (List UInt8) → β}
    (hsources : results.filterMap PlatformResult.nextCursor = sources)
    (cursors : ∀ source ∈ sources, ValidCursor source.cursor)
    (ascending : (sources.map SourceCursor.platformId).Pairwise (· < ·)) : (∀ other,
      nextPage codec binding results make = .ok other → other = make (cursorText codec binding sources)) ∧
      (nextPage codec binding results make = .ok (make (cursorText codec binding sources)) ↔
      Encodable sources) := by
  rw [← encodeCursor_isOk_iff codec binding cursors ascending, nextPage, hsources]
  cases h : encodeCursor codec binding sources with
  | error e =>
    exact ⟨fun _ h' => (nomatch h'), fun h' => (nomatch h'), fun h' => (nomatch h'.choose_spec)⟩
  | ok token =>
    rw [encodeCursor_eq_ok h]
    exact ⟨fun _ h' => (Except.ok.inj h').symm, fun _ => ⟨_, rfl⟩, fun _ => rfl⟩

section
variable {codec : CursorCodec} {readers : Readers} {candidates : List ContentCandidate} {answer : Answers}

theorem search_eq (input : SearchAggregationInput) : search codec readers (.ok candidates) input =
      (selection codec (eligible candidates .search .search input.filters) input.cursor
        input.binding).map fun groups => ⟨groups.map ((searchOperation readers).work input.task),
            fun results => nextPage codec input.binding results fun nextCursor =>
              ⟨deduplicateItems (results.flatMap PlatformResult.items), nextCursor,
                results.flatMap PlatformResult.failures, !groups.isEmpty⟩⟩ := by
  simp only [search, bind, Except.bind, prepareGroups_select]
  cases hselected : selection codec (eligible candidates .search .search input.filters) input.cursor
    ⟨.search, some input.query, input.filters⟩ <;>
    simp only [SearchAggregationInput.binding, hselected] <;> rfl

theorem discover_eq (input : DiscoverAggregationInput) : discover codec readers (.ok candidates) input =
      (selection codec (eligible candidates .discover .discover input.filters) input.cursor
        input.binding).map fun groups => ⟨groups.map ((discoverOperation readers).work input.task),
            fun results => nextPage codec input.binding results fun nextCursor =>
              ⟨deduplicateSections (results.flatMap PlatformResult.items), nextCursor,
                results.flatMap PlatformResult.failures, !groups.isEmpty⟩⟩ := by
  simp only [discover, bind, Except.bind, prepareGroups_select]
  cases hselected : selection codec (eligible candidates .discover .discover input.filters) input.cursor
    ⟨.discover, none, input.filters⟩ <;>
    simp only [DiscoverAggregationInput.binding, hselected] <;> rfl

theorem categories_eq (input : CategoriesAggregationInput) : categories readers (.ok candidates) input =
      (Except.ok (firstPage (eligible candidates .categories .discover input.filters))).map fun groups =>
        ⟨groups.map ((categoriesOperation readers).work input.task),
          fun results => .ok ⟨deduplicateCategories (results.flatMap PlatformResult.items),
            results.flatMap PlatformResult.failures, !groups.isEmpty⟩⟩ := by
  simp only [categories, bind, Except.bind, groupCandidates_select, firstPage, Except.map, List.map_map,
    List.isEmpty_map]
  rfl

theorem search_follows (input : SearchAggregationInput) :
    Follows (searchOperation readers) input.task (search codec readers (.ok candidates) input) answer
      (selection codec (eligible candidates .search .search input.filters) input.cursor input.binding)
      (searchPage codec readers input answer)
      (fun groups => Encodable ((searchOperation readers).sources input.task answer groups)) := by
  have hdecode : ∀ response result, (searchOperation readers).decode response = .ok result →
      (∀ item ∈ result.items, Identified item.canonicalId) ∧
        ∀ cursor, result.nextCursor = some cursor → ValidCursor cursor :=
    fun _ _ h => SearchResult.validate_eq_ok (validate_of_decodeAs h)
  refine follows (search_eq input) fun groups hgroups => ?_
  have hitems : deduplicateItems (((searchOperation readers).results input.task answer groups).flatMap
      PlatformResult.items) = (searchPage codec readers input answer groups).items := by
    rw [items_results]
    exact deduplicateItems_eq fun sourced hmem =>
      item_of_made (fun _ _ h => (hdecode _ _ h).1) hmem
  rw [hitems, failures_results]
  exact nextPage_eq_ok cursors_results (sources_valid fun _ _ h => (hdecode _ _ h).2)
    (sources_ascend (ordered_selection hgroups))

theorem discover_follows (input : DiscoverAggregationInput) :
    Follows (discoverOperation readers) input.task (discover codec readers (.ok candidates) input) answer
      (selection codec (eligible candidates .discover .discover input.filters) input.cursor input.binding)
      (discoverPage codec readers input answer)
      (fun groups => Encodable ((discoverOperation readers).sources input.task answer groups)) := by
  have hdecode : ∀ response result, (discoverOperation readers).decode response = .ok result →
      (∀ sect ∈ result.sections, ∀ item ∈ sect.items, Identified item.canonicalId) ∧
        ∀ cursor, result.nextCursor = some cursor → ValidCursor cursor :=
    fun _ _ h => DiscoverResult.validate_eq_ok (validate_of_decodeAs h)
  refine follows (discover_eq input) fun groups hgroups => ?_
  have hsections : deduplicateSections (((discoverOperation readers).results input.task answer
      groups).flatMap PlatformResult.items) = (discoverPage codec readers input answer groups).sections := by
    rw [items_results]
    exact deduplicateSections_eq fun sourced hmem =>
      item_of_made (fun _ _ h => (hdecode _ _ h).1) hmem
  rw [hsections, failures_results]
  exact nextPage_eq_ok cursors_results (sources_valid fun _ _ h => (hdecode _ _ h).2)
    (sources_ascend (ordered_selection hgroups))

theorem categories_follows (input : CategoriesAggregationInput) :
    Follows (categoriesOperation readers) input.task (categories readers (.ok candidates) input) answer
      (.ok (firstPage (eligible candidates .categories .discover input.filters)))
      (categoriesPage readers input answer) (fun _ => True) := by
  have hdecode : ∀ response result, (categoriesOperation readers).decode response = .ok result →
      ∀ item ∈ result.items, Identified item.canonicalId :=
    fun _ _ h => CategoriesResult.validate_eq_ok (validate_of_decodeAs h)
  refine follows (categories_eq input) fun groups _ => ?_
  have hitems : deduplicateCategories (((categoriesOperation readers).results input.task answer
      groups).flatMap PlatformResult.items) = (categoriesPage readers input answer groups).items := by
    rw [items_results]
    exact deduplicateCategories_eq fun sourced hmem =>
      item_of_made hdecode hmem
  rw [hitems, failures_results]
  exact ⟨fun _ h => (Except.ok.inj h).symm, iff_true_intro rfl⟩

end

end AudioDown.Content
