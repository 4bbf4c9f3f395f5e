/-
# AudioDown.Content.Router — asking the plugins of all platforms

`ContentAggregationService`: `search`, `discover` and `categories` select the candidates, group them by
platform, and work on at most four platforms at a time.  On one platform the candidates are asked one
after the other until one gives a valid result or a failure ends the attempt; when the last platform has
been worked on, the results are put together.
-/
import AudioDown.Content.Cursor
import AudioDown.Lib.Select
import AudioDown.Lib.Stream
import Mathlib.Data.Prod.Lex

namespace AudioDown.Content

open AudioDown.Core Lib Supervisor

def platformConcurrency : Nat := 4

/-! ## Candidates -/

structure ContentCandidate where
  pluginId : PluginId
  pluginName : String
  pluginVersion : String
  platformId : String
  priority : Int
  isDefault : Bool
  searchEnabled : Bool
  discoverEnabled : Bool
  capabilities : List ContentMethod
deriving DecidableEq

inductive ContentRouteKind where
  | search
  | discover
deriving DecidableEq

def ContentCandidate.participates (candidate : ContentCandidate) : ContentRouteKind → Bool
  | .search => candidate.searchEnabled
  | .discover => candidate.discoverEnabled

def ContentFilters.admits (filters : ContentFilters) (candidate : ContentCandidate) : Bool :=
  filters.platformId.all (candidate.platformId = ·) && filters.pluginId.all (candidate.pluginId = ·)

def eligible (candidates : List ContentCandidate) (method : ContentMethod) (route : ContentRouteKind)
    (filters : ContentFilters) : List ContentCandidate :=
  candidates.filter fun candidate =>
    candidate.participates route && candidate.capabilities.contains method && filters.admits candidate

/-- Default first, then by priority, then by plugin id. -/
def ContentCandidate.precedence (candidate : ContentCandidate) : Bool ×ₗ Int ×ₗ String :=
  toLex (!candidate.isDefault, toLex (candidate.priority, candidate.pluginId))

/-- What `sort_by` compares. -/
def ContentCandidate.rank (candidate : ContentCandidate) : String ×ₗ Bool ×ₗ Int ×ₗ String :=
  toLex (candidate.platformId, candidate.precedence)

def selectCandidates (candidates : List ContentCandidate) (method : ContentMethod)
    (route : ContentRouteKind) (filters : ContentFilters) : List ContentCandidate :=
  (eligible candidates method route filters).insertionSort fun left right => left.rank ≤ right.rank

def groupCandidates (candidates : List ContentCandidate) : List (List ContentCandidate) :=
  (Lib.group ContentCandidate.platformId candidates).map Prod.snd

/-! ## Requests and results -/

structure ContentSource where
  pluginId : PluginId
  pluginName : String
  pluginVersion : String
  platformId : String
deriving DecidableEq

def ContentCandidate.source (candidate : ContentCandidate) : ContentSource :=
  ⟨candidate.pluginId, candidate.pluginName, candidate.pluginVersion, candidate.platformId⟩

/-- `SourcedContentItem`, `SourcedDiscoverSection` and `SourcedCategoryItem`. -/
structure Sourced (α : Type) where
  item : α
  source : ContentSource
deriving DecidableEq

structure ContentFailure where
  source : ContentSource
  code : PluginErrorCode
  summary : String
deriving DecidableEq

def FailureData.withSource (failure : FailureData) (source : ContentSource) : ContentFailure :=
  ⟨source, failure.code, failure.summary⟩

structure AggregatedSearchResult where
  items : List (Sourced ContentItem)
  nextCursor : Option (List UInt8)
  failures : List ContentFailure
  hadCandidates : Bool
deriving DecidableEq

structure AggregatedDiscoverResult where
  sections : List (Sourced DiscoverSection)
  nextCursor : Option (List UInt8)
  failures : List ContentFailure
  hadCandidates : Bool
deriving DecidableEq

structure AggregatedCategoriesResult where
  items : List (Sourced CategoryItem)
  failures : List ContentFailure
  hadCandidates : Bool
deriving DecidableEq

structure SearchAggregationInput where
  requestId : String
  query : String
  limit : Nat
  filters : ContentFilters
  cursor : Option (List UInt8)
deriving DecidableEq

structure DiscoverAggregationInput where
  requestId : String
  limit : Nat
  filters : ContentFilters
  cursor : Option (List UInt8)
deriving DecidableEq

structure CategoriesAggregationInput where
  requestId : String
  filters : ContentFilters
deriving DecidableEq

inductive ContentServiceError where
  | routing (text : String)
  | requestSerialization
  | cursor (error : ContentCursorError)
deriving DecidableEq

/-- `SearchRequest`, `DiscoverRequest` and `CategoriesRequest`. -/
inductive ContentParams where
  | search (query : String) (cursor : Option String) (limit : Nat)
  | discover (cursor : Option String) (limit : Nat)
  | categories
deriving DecidableEq

/-- A call of `ContentPluginInvoker::invoke`. -/
structure Invocation where
  requestId : String
  candidate : ContentCandidate
  method : ContentMethod
  params : ContentParams
deriving DecidableEq

abbrev Answer := Except ContentInvokeError JsonRpcResponse

abbrev Routine := Prog Invocation fun _ => Answer

/-! ## Groups -/

structure CursorCandidateGroup where
  candidates : List ContentCandidate
  cursor : Option String
deriving DecidableEq

/-- The loop of `prepare_groups` over the sources of a cursor. -/
def resumeGroups (candidates : List ContentCandidate) :
    List SourceCursor → Except ContentServiceError (List CursorCandidateGroup)
  | [] => .ok []
  | source :: sources => do
      match candidates.find? fun candidate =>
          candidate.platformId = source.platformId && candidate.pluginId = source.pluginId with
      | none => .error (.cursor .bindingMismatch)
      | some candidate =>
          let groups ← resumeGroups candidates sources
          .ok (⟨[candidate], some source.cursor⟩ :: groups)

def prepareGroups (codec : CursorCodec) (candidates : List ContentCandidate)
    (cursor : Option (List UInt8)) (binding : ContentCursorBinding) :
    Except ContentServiceError (List CursorCandidateGroup × Bool) :=
  match cursor with
  | none =>
      .ok ((groupCandidates candidates).map fun candidates => ⟨candidates, none⟩,
        binding.filters.pluginId.isNone)
  | some cursor =>
      match decodeCursor codec cursor binding with
      | .error e => .error (.cursor e)
      | .ok sources => do
          let groups ← resumeGroups candidates sources
          .ok (groups, false)

/-! ## One platform -/

/-- `PlatformSearchResult` and `PlatformDiscoverResult`; a result of `categories` has no cursor. -/
structure PlatformResult (α : Type) where
  items : List (Sourced α)
  failures : List ContentFailure
  nextCursor : Option SourceCursor
deriving DecidableEq

def PlatformResult.empty {α : Type} : PlatformResult α := ⟨[], [], none⟩

/-- What the three operations differ in: the call they make, how they read its response, and the items
and the cursor of a result. -/
structure Operation (ρ α : Type) where
  method : ContentMethod
  decode : JsonRpcResponse → Except FailureData ρ
  items : ρ → List α
  nextCursor : ρ → Option String

section
variable {ρ α : Type}

def Operation.invocation (op : Operation ρ α) (requestId : String) (params : ContentParams)
    (candidate : ContentCandidate) : Invocation :=
  ⟨requestId, candidate, op.method, params⟩

def PlatformResult.fail (aggregate : PlatformResult α) (candidate : ContentCandidate)
    (failure : FailureData) : PlatformResult α :=
  { aggregate with failures := aggregate.failures ++ [failure.withSource candidate.source] }

def PlatformResult.extend (op : Operation ρ α) (aggregate : PlatformResult α)
    (candidate : ContentCandidate) (result : ρ) : PlatformResult α :=
  { aggregate with
    items := aggregate.items ++ (op.items result).map fun item => ⟨item, candidate.source⟩
    nextCursor := (op.nextCursor result).map fun cursor =>
      ⟨candidate.platformId, candidate.pluginId, cursor⟩ }

/-- The loop of `search_platform`, `discover_platform` and `categories_platform`. -/
def Operation.platformFrom (op : Operation ρ α) (requestId : String) (params : ContentParams)
    (allowFallback : Bool) : PlatformResult α → List ContentCandidate → Routine (PlatformResult α)
  | aggregate, [] => .ret aggregate
  | aggregate, candidate :: candidates =>
      .act (op.invocation requestId params candidate) fun answer =>
        match answer with
        | .ok response =>
            match op.decode response with
            | .ok result => .ret (aggregate.extend op candidate result)
            | .error failure =>
                if !allowFallback || !failure.code.isRetryable then
                  .ret (aggregate.fail candidate failure)
                else
                  op.platformFrom requestId params allowFallback (aggregate.fail candidate failure)
                    candidates
        | .error error =>
            if !allowFallback || !(invokeFailure error).code.isRetryable then
              .ret (aggregate.fail candidate (invokeFailure error))
            else
              op.platformFrom requestId params allowFallback
                (aggregate.fail candidate (invokeFailure error)) candidates

def Operation.platform (op : Operation ρ α) (requestId : String) (candidates : List ContentCandidate)
    (params : ContentParams) (allowFallback : Bool) : Routine (PlatformResult α) :=
  op.platformFrom requestId params allowFallback .empty candidates

end

def searchOperation (readers : Readers) : Operation SearchResult ContentItem :=
  ⟨.search, decodeSearchResponse readers, SearchResult.items, SearchResult.nextCursor⟩

def discoverOperation (readers : Readers) : Operation DiscoverResult DiscoverSection :=
  ⟨.discover, decodeDiscoverResponse readers, DiscoverResult.sections, DiscoverResult.nextCursor⟩

def categoriesOperation (readers : Readers) : Operation CategoriesResult CategoryItem :=
  ⟨.categories, decodeCategoriesResponse readers, CategoriesResult.items, fun _ => none⟩

def searchPlatform (readers : Readers) := (searchOperation readers).platform

def discoverPlatform (readers : Readers) := (discoverOperation readers).platform

def categoriesPlatform (readers : Readers) := (categoriesOperation readers).platform

/-! ## Deduplication -/

def resourceTypeKey : ContentResourceType → Nat
  | .album => 0
  | .track => 1
  | .category => 2

def keepItem (item : ContentItem) (seen : List (Nat × String)) : Bool × List (Nat × String) :=
  match item.canonicalId.filter (· ≠ "") with
  | none => (true, seen)
  | some canonicalId => Lib.insertNew (resourceTypeKey item.resourceType, canonicalId) seen

def deduplicateItems (items : List (Sourced ContentItem)) : List (Sourced ContentItem) :=
  (Lib.retain (fun sourced => keepItem sourced.item) [] items).1

/-- The loop of `deduplicate_sections`. -/
def deduplicateSectionsFrom : List (Nat × String) → List (Sourced DiscoverSection) →
    List (Sourced DiscoverSection)
  | _, [] => []
  | seen, sourced :: sections =>
      let kept := Lib.retain keepItem seen sourced.item.items
      { sourced with item.items := kept.1 } :: deduplicateSectionsFrom kept.2 sections

def deduplicateSections (sections : List (Sourced DiscoverSection)) : List (Sourced DiscoverSection) :=
  deduplicateSectionsFrom [] sections

def keepCategory (item : CategoryItem) (seen : List String) : Bool × List String :=
  match item.canonicalId.filter (· ≠ "") with
  | none => (true, seen)
  | some canonicalId => Lib.insertNew canonicalId seen

def deduplicateCategories (items : List (Sourced CategoryItem)) : List (Sourced CategoryItem) :=
  (Lib.retain (fun sourced => keepCategory sourced.item) [] items).1

/-! ## The operations -/

/-- The work on the platforms, and what is made of its results. -/
structure Aggregation (ρ β : Type) where
  programs : List (Routine ρ)
  finish : List ρ → Except ContentServiceError β

/-- The end of `search` and `discover`: the cursor for the next page, or its error. -/
def nextPage {α β : Type} (codec : CursorCodec) (binding : ContentCursorBinding)
    (results : List (PlatformResult α)) (make : Option (List UInt8) → β) : Except ContentServiceError β :=
  match encodeCursor codec binding (results.filterMap PlatformResult.nextCursor) with
  | .error e => .error (.cursor e)
  | .ok nextCursor => .ok (make nextCursor)

def search (codec : CursorCodec) (readers : Readers)
    (listed : Except ContentServiceError (List ContentCandidate)) (input : SearchAggregationInput) :
    Except ContentServiceError (Aggregation (PlatformResult ContentItem) AggregatedSearchResult) := do
  let binding : ContentCursorBinding := ⟨.search, some input.query, input.filters⟩
  let candidates ← listed
  let selected := selectCandidates candidates .search .search input.filters
  let (groups, allowFallback) ← prepareGroups codec selected input.cursor binding
  .ok {
    programs := groups.map fun group =>
      searchPlatform readers input.requestId group.candidates
        (.search input.query group.cursor input.limit) allowFallback
    finish := fun results => nextPage codec binding results fun nextCursor =>
      ⟨deduplicateItems (results.flatMap PlatformResult.items), nextCursor,
        results.flatMap PlatformResult.failures, !groups.isEmpty⟩ }

def discover (codec : CursorCodec) (readers : Readers)
    (listed : Except ContentServiceError (List ContentCandidate)) (input : DiscoverAggregationInput) :
    Except ContentServiceError (Aggregation (PlatformResult DiscoverSection) AggregatedDiscoverResult) := do
  let binding : ContentCursorBinding := ⟨.discover, none, input.filters⟩
  let candidates ← listed
  let selected := selectCandidates candidates .discover .discover input.filters
  let (groups, allowFallback) ← prepareGroups codec selected input.cursor binding
  .ok {
    programs := groups.map fun group =>
      discoverPlatform readers input.requestId group.candidates
        (.discover group.cursor input.limit) allowFallback
    finish := fun results => nextPage codec binding results fun nextCursor =>
      ⟨deduplicateSections (results.flatMap PlatformResult.items), nextCursor,
        results.flatMap PlatformResult.failures, !groups.isEmpty⟩ }

def categories (readers : Readers) (listed : Except ContentServiceError (List ContentCandidate))
    (input : CategoriesAggregationInput) : Except ContentServiceError
      (Aggregation (PlatformResult CategoryItem) AggregatedCategoriesResult) := do
  let candidates ← listed
  let groups := groupCandidates (selectCandidates candidates .categories .discover input.filters)
  let allowFallback := input.filters.pluginId.isNone
  .ok {
    programs := groups.map fun candidates =>
      categoriesPlatform readers input.requestId candidates .categories allowFallback
    finish := fun results =>
      .ok ⟨deduplicateCategories (results.flatMap PlatformResult.items),
        results.flatMap PlatformResult.failures, !groups.isEmpty⟩ }

/-! ## Running -/

section
variable {ρ β : Type}

/-- What the `n`-th call of the work on a platform is answered. -/
abbrev Answers := Nat → Nat → Invocation → Answer

/-- The stream after a schedule, if the schedule is one. -/
def Aggregation.after (work : Aggregation ρ β) (answer : Answers) (schedule : List StreamLabel) :
    Option (Stream Invocation (fun _ => Answer) ρ) :=
  schedule.foldlM (Stream.next platformConcurrency answer) (Stream.initial work.programs)

/-- What an operation has returned after a schedule. -/
def returned (operation : Except ContentServiceError (Aggregation ρ β)) (answer : Answers)
    (schedule : List StreamLabel) : Option (Except ContentServiceError β) :=
  match operation with
  | .error e => some (.error e)
  | .ok work =>
      match work.after answer schedule with
      | some stream => if stream.done then some (work.finish stream.results) else none
      | none => none

end

end AudioDown.Content
