/-
# AudioDown.Content.Paging — what a cursor can make a later page do

A cursor comes back from the client, so it may be anything.  `Resumes` says what a request with a cursor does
once it is accepted: it makes one call per source, to a candidate of this request, with the cursor of that
source, and never falls back.  It holds of forged cursors (`cursor_bound`) and of the service's own; for those
the sources are the cursors that the plugins returned on the page before (`paging_exact`).

Of SHA-256 and serde_json only what is needed of the texts at hand is assumed (`Trusted`, `ReadsBack`);
that base64 can be read back is proved.
-/
import AudioDown.Content.Page

namespace AudioDown.Content

open Lib

/-! ## Encoding and decoding -/

theorem asciiText_injective : Function.Injective asciiText := by
  have hchar : ∀ n < 256, (Char.ofNat n).toNat = n := by decide +kernel
  have hbyte : Function.Injective fun b : UInt8 => Char.ofNat b.toNat := by
    intro b b' h
    refine UInt8.toNat_inj.mp ?_
    rw [← hchar _ b.toNat_lt, ← hchar _ b'.toNat_lt]
    exact congrArg Char.toNat h
  intro left right h
  exact List.map_injective_iff.mpr hbyte (String.ofList_injective h)

theorem optionalString_injective : Function.Injective optionalString := by
  intro left right h
  cases left <;> cases right <;> simp_all [optionalString]

theorem ContentCursorBinding.json_injective : Function.Injective ContentCursorBinding.json := by
  rintro ⟨operation, query, platform, plugin⟩ ⟨operation', query', platform', plugin'⟩ h
  simp only [ContentCursorBinding.json, JsonValue.object.injEq, List.cons.injEq, Prod.mk.injEq, true_and,
    and_true] at h
  obtain ⟨hoperation, hquery, hplatform, hplugin⟩ := h
  cases optionalString_injective hquery
  cases optionalString_injective hplatform
  cases optionalString_injective hplugin
  cases operation <;> cases operation' <;> simp_all [ContentCursorOperation.json]

/-- Two requests whose canonical texts do not collide, and which serde_json would read back. -/
structure Trusted (codec : CursorCodec) (parse : List UInt8 → Option Json)
    (binding other : ContentCursorBinding) : Prop where
  hash : codec.sha256 binding.json.write = codec.sha256 other.json.write →
    binding.json.write = other.json.write
  binding : parse binding.json.write = some binding.json
  other : parse other.json.write = some other.json

theorem Trusted.eq_of_fingerprint {codec : CursorCodec} {parse : List UInt8 → Option Json}
    {binding other : ContentCursorBinding} (h : Trusted codec parse binding other)
    (hsame : requestFingerprint codec binding = requestFingerprint codec other) : binding = other := by
  have htext := h.hash (Lib.Base64.encode_injective (asciiText_injective hsame))
  have hparsed := h.binding
  rw [htext, h.other] at hparsed
  exact ContentCursorBinding.json_injective (Option.some.inj hparsed).symm

def ReadsBack (codec : CursorCodec) (binding : ContentCursorBinding) (sources : List SourceCursor) : Prop :=
  codec.readEnvelope (CursorEnvelope.json ⟨cursorVersion, requestFingerprint codec binding, sources⟩).write =
    some ⟨cursorVersion, requestFingerprint codec binding, sources⟩

theorem decodeCursor_encoded {codec : CursorCodec} {binding : ContentCursorBinding}
    {sources : List SourceCursor} {token : List UInt8} (readsBack : ReadsBack codec binding sources)
    (h : encodeCursor codec binding sources = .ok (some token)) (other : ContentCursorBinding) :
    decodeCursor codec token other =
      if requestFingerprint codec binding ≠ requestFingerprint codec other then .error .bindingMismatch
      else .ok sources := by
  unfold encodeCursor at h
  split at h
  · cases h
  split at h
  · cases h
  rename_i hvalid
  simp only at h
  split at h
  · cases h
  split at h
  · cases h
  rename_i hdecoded hencoded
  cases h
  unfold decodeCursor
  rw [if_neg hencoded, Lib.Base64.decode_encode]
  dsimp only
  rw [if_neg hdecoded, readsBack]
  dsimp only
  rw [if_neg (not_not_intro rfl), hvalid]

/-! ## A request with a cursor -/

section
variable {ρ α β : Type} {op : Operation ρ α} {task : Task} {candidates : List ContentCandidate}
  {sources : List SourceCursor}

/-- Calls, with the positions of their sources: each is to a candidate that the source names, with the cursor
of the source, and no source is called on twice. -/
structure CallsOf (op : Operation ρ α) (task : Task) (candidates : List ContentCandidate)
    (sources : List SourceCursor) (calls : List (Nat × Invocation)) : Prop where
  each : ∀ i call, (i, call) ∈ calls → ∃ source candidate, sources[i]? = some source ∧
    candidate ∈ candidates ∧ candidate.platformId = source.platformId ∧ candidate.pluginId = source.pluginId ∧
    call = op.invocation task.requestId (task.params (some source.cursor)) candidate
  once : (calls.map Prod.fst).Nodup

/-- The request is accepted; it makes calls as the sources say, and all of them before it returns. -/
def Resumes (op : Operation ρ α) (task : Task)
    (operation : Except ContentServiceError (Aggregation (PlatformResult α) β))
    (candidates : List ContentCandidate) (sources : List SourceCursor) : Prop :=
  ∃ work, operation = .ok work ∧ ∀ answer schedule stream, work.after answer schedule = some stream →
    CallsOf op task candidates sources stream.calls ∧
      (stream.done = true → ∀ i < sources.length, i ∈ stream.calls.map Prod.fst)

variable {calls : List (Nat × Invocation)}
  {finish : List CursorCandidateGroup → List (PlatformResult α) → Except ContentServiceError β}
  {operation : Except ContentServiceError (Aggregation (PlatformResult α) β)}

theorem CallsOf.length_le (h : CallsOf op task candidates sources calls) : calls.length ≤ sources.length := by
  have hsubset : calls.map Prod.fst ⊆ List.range sources.length := by
    intro i hi
    obtain ⟨⟨i, call⟩, hcall, rfl⟩ := List.mem_map.mp hi
    obtain ⟨source, -, hsource, -⟩ := h.each i call hcall
    exact List.mem_range.mpr (List.getElem?_eq_some_iff.mp hsource).1
  have hlength := (List.subperm_of_subset h.once hsubset).length_le
  rwa [List.length_map, List.length_range] at hlength

theorem issued_single (answer : Nat → Invocation → Answer) (candidate : ContentCandidate)
    (cursor : Option String) : (op.work task ⟨[candidate], cursor⟩).issued answer 0 =
      [op.invocation task.requestId (task.params cursor) candidate] := by
  rw [issued_work, Operation.calls, attempts_cons, upTo_cons]
  split <;> rfl

theorem resumes {groups : List CursorCandidateGroup} (hgroups : sources.mapM (resume candidates) = .ok groups)
    (hoperation : operation = .ok ⟨groups.map (op.work task), finish groups⟩) :
    Resumes op task operation candidates sources := by
  have hresumed := List.forall₂_iff_get.mp (forall₂_of_mapM hgroups)
  -- the program at position `i` makes the one call of the source there
  have hissued : ∀ i (hi : i < sources.length) (answer : Nat → Invocation → Answer), ∃ candidate ∈ candidates,
      candidate.platformId = sources[i].platformId ∧ candidate.pluginId = sources[i].pluginId ∧
        ∃ program, (groups.map (op.work task))[i]? = some program ∧ program.issued answer 0 =
          [op.invocation task.requestId (task.params (some sources[i].cursor)) candidate] := by
    intro i hi answer
    have hi' : i < groups.length := hresumed.1 ▸ hi
    obtain ⟨candidate, hmem, hplatform, hplugin, hgroup⟩ := resume_eq_ok (hresumed.2 i hi hi')
    refine ⟨candidate, hmem, hplatform, hplugin, op.work task groups[i], ?_, ?_⟩
    · rw [List.getElem?_map, List.getElem?_eq_getElem hi']
      rfl
    · rw [show groups[i] = _ from hgroup]
      exact issued_single answer candidate _
  refine ⟨_, hoperation, fun answer schedule stream hstream => ?_⟩
  have hsound := Stream.sound_of_run (.of_foldlM hstream)
  have hlength : stream.tasks.length = sources.length := by
    rw [hsound.length, List.length_map, hresumed.1]
  refine ⟨⟨?_, ?_⟩, ?_⟩
  · intro i call hcall
    have hi : i < sources.length := hlength ▸ hsound.calls i call hcall
    obtain ⟨program, hprogram, hmem⟩ := Stream.mem_issued_of_call hsound hcall
    obtain ⟨candidate, hcandidate, hplatform, hplugin, program', hprogram', hone⟩ := hissued i hi (answer i)
    cases hprogram.symm.trans hprogram'
    rw [hone, List.mem_singleton] at hmem
    exact ⟨sources[i], candidate, List.getElem?_eq_getElem hi, hcandidate, hplatform, hplugin, hmem⟩
  · refine List.nodup_iff_count_le_one.mpr fun i => ?_
    have hcount : (stream.calls.map Prod.fst).count i = (stream.callsOf i).length := by
      rw [List.count, List.countP_map, List.countP_eq_length_filter, Stream.callsOf, List.length_map]
      rfl
    rw [hcount]
    by_cases hi : i < sources.length
    · obtain ⟨_, -, -, -, program, hprogram, hone⟩ := hissued i hi (answer i)
      obtain ⟨whole, hwhole, -, hcalls⟩ := hsound.tasks i _ _ (List.getElem?_eq_getElem (hlength ▸ hi))
      cases hprogram.symm.trans hwhole
      have hsum := congrArg List.length (hcalls.trans hone)
      rw [List.length_append, List.length_singleton] at hsum
      omega
    · rw [Stream.callsOf, List.length_map, List.filter_eq_nil_iff.mpr]
      · exact Nat.zero_le 1
      · rintro ⟨j, call⟩ hcall hj
        exact hi (of_decide_eq_true hj ▸ hlength ▸ hsound.calls j call hcall)
  · intro hdone i hi
    obtain ⟨candidate, -, -, -, program, hprogram, hone⟩ := hissued i hi (answer i)
    have hcalls := Stream.calls_eq hsound hdone hprogram
    rw [hone] at hcalls
    obtain ⟨⟨j, call⟩, hcall, -⟩ := List.mem_map.mp (hcalls ▸ List.mem_singleton_self _)
    obtain ⟨hcall, hj⟩ := List.mem_filter.mp hcall
    exact List.mem_map.mpr ⟨_, hcall, of_decide_eq_true hj⟩

variable {codec : CursorCodec} {binding : ContentCursorBinding} {encoded : List UInt8}
  {groups : List CursorCandidateGroup}

theorem selection_some (h : selection codec candidates (some encoded) binding = .ok groups) : ∃ sources,
    decodeCursor codec encoded binding = .ok sources ∧ sources.mapM (resume candidates) = .ok groups := by
  simp only [selection] at h
  cases hdecode : decodeCursor codec encoded binding with
  | error e =>
    rw [hdecode] at h
    cases h
  | ok sources =>
    rw [hdecode] at h
    exact ⟨sources, rfl, h⟩

/-- What a client can bring about with a cursor, in the order of the sources. -/
structure Confined (params : Option String → ContentParams) (candidates : List ContentCandidate)
    (calls : List (Nat × Invocation)) : Prop where
  count : calls.length ≤ 32
  once : (calls.map Prod.fst).Nodup
  candidate : ∀ i call, (i, call) ∈ calls → call.candidate ∈ candidates
  ascending : ∀ i call j call', (i, call) ∈ calls → (j, call') ∈ calls → i < j →
    call.candidate.platformId < call'.candidate.platformId
  cursor : ∀ i call, (i, call) ∈ calls → ∃ cursor, call.params = params (some cursor) ∧ cursor ≠ "" ∧
    cursor.utf8ByteSize ≤ 4096

theorem CallsOf.confined (h : CallsOf op task candidates sources calls)
    (valid : validateSources sources = .ok ()) : Confined task.params candidates calls := by
  obtain ⟨hcount, hvalid, hascending⟩ := validateSources_eq_ok.mp valid
  refine ⟨h.length_le.trans hcount, h.once, ?_, ?_, ?_⟩
  · intro i call hcall
    obtain ⟨source, candidate, -, hmem, -, -, rfl⟩ := h.each i call hcall
    exact hmem
  · intro i call j call' hcall hcall' hlt
    obtain ⟨source, candidate, hsource, -, hplatform, -, rfl⟩ := h.each i call hcall
    obtain ⟨source', candidate', hsource', -, hplatform', -, rfl⟩ := h.each j call' hcall'
    obtain ⟨hi, rfl⟩ := List.getElem?_eq_some_iff.mp hsource
    obtain ⟨hj, rfl⟩ := List.getElem?_eq_some_iff.mp hsource'
    have hpair := List.pairwise_iff_getElem.mp hascending i j (by simpa using hi) (by simpa using hj) hlt
    simp only [List.getElem_map] at hpair
    show candidate.platformId < candidate'.platformId
    rwa [hplatform, hplatform']
  · intro i call hcall
    obtain ⟨source, candidate, hsource, -, -, -, rfl⟩ := h.each i call hcall
    have hcursor := (hvalid source (List.mem_of_getElem? hsource)).cursor
    exact ⟨source.cursor, rfl, hcursor.nonempty, hcursor.small⟩

theorem confined_of_eq
    (hoperation : operation = (selection codec candidates (some encoded) binding).map fun groups =>
      ⟨groups.map (op.work task), finish groups⟩) {work : Aggregation (PlatformResult α) β}
    (hwork : operation = .ok work) {answer : Answers} {schedule : List StreamLabel}
    {stream : Stream Invocation (fun _ => Answer) (PlatformResult α)}
    (hstream : work.after answer schedule = some stream) : Confined task.params candidates stream.calls := by
  cases hselected : selection codec candidates (some encoded) binding with
  | error e =>
    rw [hoperation, hselected] at hwork
    cases hwork
  | ok groups =>
    obtain ⟨sources, hdecode, hgroups⟩ := selection_some hselected
    obtain ⟨work', hwork', hcalls⟩ := resumes hgroups (hoperation.trans (congrArg (Except.map _) hselected))
    cases hwork.symm.trans hwork'
    exact (hcalls answer schedule stream hstream).1.confined (decodeCursor_eq_ok hdecode)

end

/-- A cursor gives back its sources to the request it was made for, and nothing to any other; and whatever text
a client sends as one, the calls it leads to are confined. -/
theorem cursor_bound (codec : CursorCodec) (parse : List UInt8 → Option Json) (readers : Readers)
    (listed : List ContentCandidate) : (∀ binding sources token, ReadsBack codec binding sources →
      encodeCursor codec binding sources = .ok (some token) → decodeCursor codec token binding = .ok sources ∧
        ∀ other, Trusted codec parse binding other → other ≠ binding →
          decodeCursor codec token other = .error .bindingMismatch) ∧
    (∀ (input : SearchAggregationInput) (encoded : List UInt8), input.cursor = some encoded →
      ∀ work answer schedule stream, search codec readers (.ok listed) input = .ok work →
        work.after answer schedule = some stream →
        Confined (fun cursor => .search input.query cursor input.limit)
          (eligible listed .search .search input.filters) stream.calls) ∧
    ∀ (input : DiscoverAggregationInput) (encoded : List UInt8), input.cursor = some encoded →
      ∀ work answer schedule stream, discover codec readers (.ok listed) input = .ok work →
        work.after answer schedule = some stream → Confined (fun cursor => .discover cursor input.limit)
          (eligible listed .discover .discover input.filters) stream.calls := by
  refine ⟨?_, ?_, ?_⟩
  · intro binding sources token readsBack hencoded
    have hdecode := decodeCursor_encoded readsBack hencoded
    refine ⟨(hdecode binding).trans (if_neg (not_not_intro rfl)), fun other trusted hne => ?_⟩
    exact (hdecode other).trans (if_pos fun hsame => hne (trusted.eq_of_fingerprint hsame).symm)
  · intro input encoded hcursor work answer schedule stream hwork hstream
    have hoperation := @search_eq codec readers listed input
    rw [hcursor] at hoperation
    exact confined_of_eq hoperation hwork hstream
  · intro input encoded hcursor work answer schedule stream hwork hstream
    have hoperation := @discover_eq codec readers listed input
    rw [hcursor] at hoperation
    exact confined_of_eq hoperation hwork hstream

namespace Demo

def digest (bytes : List UInt8) : List UInt8 := (bytes.drop 14 ++ List.replicate 32 0).take 32

theorem length_digest (bytes : List UInt8) : (digest bytes).length = 32 := by
  simp [digest]

def more : List SourceCursor := [⟨"demo", "demo.plugin", "1"⟩]

def hashing : CursorCodec := ⟨digest, length_digest, fun _ => none⟩

def envelope : CursorEnvelope := ⟨cursorVersion, requestFingerprint hashing input.binding, more⟩

def reading : CursorCodec :=
  { hashing with readEnvelope := fun bytes => if bytes = envelope.json.write then some envelope else none }

theorem readsBack : ReadsBack reading input.binding more := by
  have hsame : requestFingerprint reading input.binding = requestFingerprint hashing input.binding := rfl
  have hreads : reading.readEnvelope envelope.json.write = some envelope := by
    simp only [reading, if_true]
  rw [envelope, ← hsame] at hreads
  exact hreads

def token : List UInt8 := (cursorText reading input.binding more).getD []

theorem encoded : encodeCursor reading input.binding more = .ok (some token) := by
  have hcursors : ∀ source ∈ more, ValidCursor source.cursor :=
    List.forall_mem_singleton.mpr ⟨by decide, by decide⟩
  obtain ⟨cursor, h⟩ := (encodeCursor_isOk_iff reading input.binding hcursors (List.pairwise_singleton _ _)).mpr
    encodable_short
  rw [h, encodeCursor_eq_ok h]
  rfl

def discovering : ContentCursorBinding := ⟨.discover, none, input.filters⟩

def parse (bytes : List UInt8) : Option Json :=
  if bytes = input.binding.json.write then some input.binding.json else some discovering.json

theorem trusted : Trusted reading parse input.binding discovering where
  hash h := absurd h (by decide)
  binding := if_pos rfl
  other := if_neg (by decide)

def continued : SearchAggregationInput := { input with cursor := some token }

end Demo

/-- The cursor of a page leads to one call, and is refused by another operation. -/
theorem cursor_bound_demo : decodeCursor Demo.reading Demo.token Demo.input.binding = .ok Demo.more ∧
      decodeCursor Demo.reading Demo.token Demo.discovering = .error .bindingMismatch ∧
      ∃ work stream, search Demo.reading Demo.readers (.ok [Demo.candidate]) Demo.continued = .ok work ∧
        work.after (Demo.answers "2") [.start, .answer 0] = some stream ∧ stream.calls.length = 1 ∧
        Confined (fun cursor => .search "query" cursor 20) [Demo.candidate] stream.calls := by
  have bound := cursor_bound Demo.reading Demo.parse Demo.readers [Demo.candidate]
  obtain ⟨hown, hother⟩ := bound.1 _ _ _ Demo.readsBack Demo.encoded
  have hselected : selection Demo.reading (eligible [Demo.candidate] .search .search Demo.continued.filters)
      Demo.continued.cursor Demo.continued.binding = .ok [⟨[Demo.candidate], some "1"⟩] := by
    rw [show Demo.continued.cursor = some Demo.token from rfl,
      show Demo.continued.binding = Demo.input.binding from rfl]
    simp only [selection, hown]
    rfl
  have hwork := @search_eq Demo.reading Demo.readers [Demo.candidate] Demo.continued
  rw [hselected] at hwork
  refine ⟨hown, hother _ Demo.trusted (by decide), _, _, hwork, rfl, rfl, ?_⟩
  exact bound.2.1 Demo.continued Demo.token rfl _ (Demo.answers "2") [.start, .answer 0] _ hwork rfl

/-! ## The next page -/

section
variable {ρ α β : Type} {op : Operation ρ α} {task task' : Task} {answer : Answers}
  {candidates : List ContentCandidate} {codec : CursorCodec} {binding : ContentCursorBinding}
  {cursor : Option (List UInt8)} {groups : List CursorCandidateGroup} {token : List UInt8}

/-- A page that was returned with a cursor for the next. -/
structure Leads (codec : CursorCodec) (op : Operation ρ α) (task : Task)
    (operation : Except ContentServiceError (Aggregation (PlatformResult α) β))
    (nextCursor : β → Option (List UInt8)) (candidates : List ContentCandidate) (binding : ContentCursorBinding)
    (cursor : Option (List UInt8)) (answer : Answers) (groups : List CursorCandidateGroup)
    (token : List UInt8) : Prop where
  selected : selection codec candidates cursor binding = .ok groups
  readsBack : ReadsBack codec binding (op.sources task answer groups)
  returned : ∃ schedule page, Content.returned operation answer schedule = some (.ok page) ∧
    nextCursor page = some token

/-- The next page goes on where the plugins that returned a cursor left off, and nowhere else. -/
structure Turns (op : Operation ρ α) (task : Task) (answer : Answers) (groups : List CursorCandidateGroup)
    (task' : Task) (next : Except ContentServiceError (Aggregation (PlatformResult α) β))
    (candidates : List ContentCandidate) : Prop where
  resumes : Resumes op task' next candidates (op.sources task answer groups)
  alone : task'.allowFallback = false
  called : ∀ source ∈ op.sources task answer groups, ∃ call ∈ op.made task answer groups,
    call.candidate.platformId = source.platformId ∧ call.candidate.pluginId = source.pluginId

theorem candidate_of_selection (h : selection codec candidates cursor binding = .ok groups)
    {group : CursorCandidateGroup} (hgroup : group ∈ groups) {candidate : ContentCandidate}
    (hmem : candidate ∈ group.candidates) : candidate ∈ candidates := by
  cases cursor with
  | none =>
    cases h
    obtain ⟨platformId, -, rfl⟩ := List.mem_map.mp hgroup
    exact (List.mem_filter.mp ((List.mem_insertionSort _).mp hmem)).1
  | some cursor =>
    obtain ⟨sources, -, hgroups⟩ := selection_some h
    obtain ⟨i, hi, rfl⟩ := List.getElem_of_mem hgroup
    have hresumed := List.forall₂_iff_get.mp (forall₂_of_mapM hgroups)
    obtain ⟨found, hfound, -, -, heq⟩ := resume_eq_ok (hresumed.2 i (hresumed.1 ▸ hi) hi)
    rw [show groups[i] = _ from heq] at hmem
    cases List.mem_singleton.mp hmem
    exact hfound

theorem call_of_source {source : SourceCursor} (h : source ∈ op.sources task answer groups) :
    ∃ call ∈ op.made task answer groups, call.candidate.platformId = source.platformId ∧
      call.candidate.pluginId = source.pluginId := by
  obtain ⟨call, hcall, hsource⟩ := List.mem_filterMap.mp h
  refine ⟨call, hcall, ?_⟩
  unfold Call.nextSource at hsource
  split at hsource
  · obtain ⟨cursor, -, rfl⟩ := Option.map_eq_some_iff.mp hsource
    exact ⟨rfl, rfl⟩
  · cases hsource

theorem resume_isOk (hselected : selection codec candidates cursor binding = .ok groups) {source : SourceCursor}
    (h : source ∈ op.sources task answer groups) : ∃ group, resume candidates source = .ok group := by
  obtain ⟨call, hcall, hplatform, hplugin⟩ := call_of_source h
  obtain ⟨⟨group, i⟩, hgroup, hcalled⟩ := List.mem_flatMap.mp hcall
  have hcandidate : call.candidate ∈ candidates :=
    candidate_of_selection hselected (List.fst_mem_of_mem_zipIdx hgroup) (candidate_of_call hcalled)
  have hfound : ((turn candidates source.platformId).find? (·.pluginId = source.pluginId)).isSome = true := by
    refine List.find?_isSome.mpr ⟨call.candidate, (List.mem_insertionSort _).mpr ?_, by simpa using hplugin⟩
    exact List.mem_filter.mpr ⟨hcandidate, by simpa using hplatform⟩
  obtain ⟨candidate, hfind⟩ := Option.isSome_iff_exists.mp hfound
  exact ⟨_, by rw [resume, hfind]⟩

theorem mapM_isOk {ε γ δ : Type} {f : γ → Except ε δ} {l : List γ} (h : ∀ x ∈ l, ∃ y, f x = .ok y) :
    ∃ m, l.mapM f = .ok m := by
  induction l with
  | nil => exact ⟨[], rfl⟩
  | cons x l ih =>
    rw [List.forall_mem_cons] at h
    obtain ⟨y, hy⟩ := h.1
    obtain ⟨m, hm⟩ := ih h.2
    exact ⟨y :: m, by rw [List.mapM_cons, hy, hm]; rfl⟩

theorem turns {make : List CursorCandidateGroup → List (PlatformResult α) → Option (List UInt8) → β}
    {finish : List CursorCandidateGroup → List (PlatformResult α) → Except ContentServiceError β}
    {operation next : Except ContentServiceError (Aggregation (PlatformResult α) β)}
    {nextCursor : β → Option (List UInt8)}
    (hmake : ∀ groups results cursor, nextCursor (make groups results cursor) = cursor)
    (hoperation : operation = (selection codec candidates cursor binding).map fun groups =>
      ⟨groups.map (op.work task), fun results => nextPage codec binding results (make groups results)⟩)
    (hnext : next = (selection codec candidates (some token) binding).map fun groups =>
      ⟨groups.map (op.work task'), finish groups⟩)
    (alone : task'.allowFallback = false)
    (h : Leads codec op task operation nextCursor candidates binding cursor answer groups token) :
    Turns op task answer groups task' next candidates := by
  obtain ⟨schedule, page, hreturned, hcursor⟩ := h.returned
  -- the cursor that was returned is the encoding of the sources
  have hencoded : encodeCursor codec binding (op.sources task answer groups) = .ok (some token) := by
    rw [hoperation, h.selected] at hreturned
    simp only [returned, Except.map] at hreturned
    split at hreturned
    · rename_i stream hstream
      split at hreturned
      · rename_i hdone
        have hsound := Stream.sound_of_run (.of_foldlM hstream)
        have hsources : (op.results task answer groups).filterMap PlatformResult.nextCursor =
          op.sources task answer groups := cursors_results
        rw [results_of_done hsound hdone, nextPage, hsources] at hreturned
        cases hencode : encodeCursor codec binding (op.sources task answer groups) with
        | error e =>
          rw [hencode] at hreturned
          cases hreturned
        | ok cursor =>
          rw [hencode] at hreturned
          cases hreturned
          rw [hmake] at hcursor
          rw [hcursor]
      · cases hreturned
    · cases hreturned
  have hdecoded := (decodeCursor_encoded h.readsBack hencoded binding).trans (if_neg (not_not_intro rfl))
  obtain ⟨groups', hgroups'⟩ := mapM_isOk fun source hsource =>
    @resume_isOk _ _ op task answer _ _ _ _ _ h.selected source hsource
  have hselected : selection codec candidates (some token) binding = .ok groups' := by
    simp only [selection, hdecoded]
    exact hgroups'
  exact ⟨resumes hgroups' (hnext.trans (congrArg (Except.map _) hselected)), alone, fun _ => call_of_source⟩

end

/-- For every sequence of pages of one search or one discovery: the cursor a page was returned with is accepted,
and the next page makes one call for each plugin that returned a cursor, with that cursor, all of them on
platforms that the page before has called. -/
theorem paging_exact (codec : CursorCodec) (readers : Readers) (listed : List ContentCandidate) :
    (∀ (input : Nat → SearchAggregationInput) (answer : Nat → Answers)
        (groups : Nat → List CursorCandidateGroup) (last : Nat),
      (∀ n < last, (input (n + 1)).query = (input n).query ∧ (input (n + 1)).filters = (input n).filters ∧
        ∃ token, (input (n + 1)).cursor = some token ∧
          Leads codec (searchOperation readers) (input n).task (search codec readers (.ok listed) (input n))
            AggregatedSearchResult.nextCursor (eligible listed .search .search (input n).filters)
            (input n).binding (input n).cursor (answer n) (groups n) token) →
      ∀ n < last, Turns (searchOperation readers) (input n).task (answer n) (groups n) (input (n + 1)).task
        (search codec readers (.ok listed) (input (n + 1))) (eligible listed .search .search (input n).filters)) ∧
    (∀ (input : Nat → DiscoverAggregationInput) (answer : Nat → Answers)
        (groups : Nat → List CursorCandidateGroup) (last : Nat),
      (∀ n < last, (input (n + 1)).filters = (input n).filters ∧
        ∃ token, (input (n + 1)).cursor = some token ∧ Leads codec (discoverOperation readers) (input n).task
            (discover codec readers (.ok listed) (input n)) AggregatedDiscoverResult.nextCursor
            (eligible listed .discover .discover (input n).filters)
            (input n).binding (input n).cursor (answer n) (groups n) token) →
      ∀ n < last, Turns (discoverOperation readers) (input n).task (answer n) (groups n) (input (n + 1)).task
        (discover codec readers (.ok listed) (input (n + 1)))
        (eligible listed .discover .discover (input n).filters)) := by
  constructor
  · intro input answer groups last pages n hn
    obtain ⟨hquery, hfilters, token, hcursor, hleads⟩ := pages n hn
    have hbinding : (input (n + 1)).binding = (input n).binding := by
      simp only [SearchAggregationInput.binding, hquery, hfilters]
    have hnext := @search_eq codec readers listed (input (n + 1))
    rw [hcursor, hbinding, hfilters] at hnext
    refine turns (fun _ _ _ => rfl) (search_eq (input n)) hnext ?_ hleads
    simp [SearchAggregationInput.task, fallsBack, hcursor]
  · intro input answer groups last pages n hn
    obtain ⟨hfilters, token, hcursor, hleads⟩ := pages n hn
    have hbinding : (input (n + 1)).binding = (input n).binding := by
      simp only [DiscoverAggregationInput.binding, hfilters]
    have hnext := @discover_eq codec readers listed (input (n + 1))
    rw [hcursor, hbinding, hfilters] at hnext
    refine turns (fun _ _ _ => rfl) (discover_eq (input n)) hnext ?_ hleads
    simp [DiscoverAggregationInput.task, fallsBack, hcursor]

/-- A first page whose plugin has more, and the page after it. -/
theorem paging_exact_demo : Turns (searchOperation Demo.readers) Demo.input.task (Demo.answers "1")
    [⟨[Demo.candidate], none⟩] Demo.continued.task
    (search Demo.reading Demo.readers (.ok [Demo.candidate]) Demo.continued) [Demo.candidate] := by
  refine (paging_exact Demo.reading Demo.readers [Demo.candidate]).1
    (fun n => if n = 0 then Demo.input else Demo.continued) (fun _ => Demo.answers "1")
    (fun _ => [⟨[Demo.candidate], none⟩]) 1 ?_ 0 Nat.one_pos
  intro n hn
  cases Nat.lt_one_iff.mp hn
  refine ⟨rfl, rfl, Demo.token, rfl, Demo.selection_eq, ?_, Demo.schedule,
    ⟨[], some Demo.token, [], true⟩, ?_, rfl⟩
  · rw [show (if 0 = 0 then Demo.input else Demo.continued) = Demo.input from rfl, Demo.sources_eq (by decide)]
    exact Demo.readsBack
  · refine (Demo.returned_eq (by decide)).trans ?_
    rw [show [⟨"demo", "demo.plugin", "1"⟩] = Demo.more from rfl, Demo.encoded]

end AudioDown.Content
