/-
# AudioDown.Content.Page — one plugin and the whole page

A plugin's cursor is valid on its own up to 4096 bytes of any characters but NUL.  The page's cursor has
to hold all of them, as JSON, in 16384 bytes, and control characters take six bytes each there: one
plugin alone can fill it, and five can with plain text.  The page is then lost,
and with it the items of all platforms that answered.
-/
import AudioDown.Content.Aggregate

namespace AudioDown.Content

open Lib

/-! ## The procedure -/

/-- For every store, request, plugin and schedule: `search`, `discover` and `categories` follow the
procedure, the first two as far as the next cursor can be encoded. -/
theorem aggregation_follows_procedure (codec : CursorCodec) (readers : Readers)
    (candidates : List ContentCandidate) (answer : Answers) : (∀ input : SearchAggregationInput,
      Follows (searchOperation readers) input.task (search codec readers (.ok candidates) input) answer
        (selection codec (eligible candidates .search .search input.filters) input.cursor input.binding)
        (searchPage codec readers input answer)
        (fun groups => Encodable ((searchOperation readers).sources input.task answer groups))) ∧
    (∀ input : DiscoverAggregationInput,
      Follows (discoverOperation readers) input.task (discover codec readers (.ok candidates) input) answer
        (selection codec (eligible candidates .discover .discover input.filters) input.cursor input.binding)
        (discoverPage codec readers input answer)
        (fun groups => Encodable ((discoverOperation readers).sources input.task answer groups))) ∧
    (∀ input : CategoriesAggregationInput,
      Follows (categoriesOperation readers) input.task (categories readers (.ok candidates) input) answer
        (.ok (firstPage (eligible candidates .categories .discover input.filters)))
        (categoriesPage readers input answer) (fun _ => True)) :=
  ⟨search_follows, discover_follows, categories_follows⟩

/-! ## The first page -/

/-- Every schedule is bounded, and one that cannot go on has returned a result with `P`. -/
def Settles {ρ β : Type} (operation : Except ContentServiceError (Aggregation ρ β)) (answer : Answers)
    (P : Except ContentServiceError β → Prop) : Prop :=
  ∃ work bound, operation = .ok work ∧ ∀ schedule stream, work.after answer schedule = some stream →
      schedule.length ≤ bound ∧
      ((∀ label, stream.next platformConcurrency answer label = none) →
        ∃ result, returned operation answer schedule = some result ∧ P result)

theorem Follows.first_page {ρ α β : Type} {op : Operation ρ α} {task : Task} {answer : Answers}
    {operation : Except ContentServiceError (Aggregation (PlatformResult α) β)}
    {selected : Except ContentServiceError (List CursorCandidateGroup)}
    {page : List CursorCandidateGroup → β} {condition : List CursorCandidateGroup → Prop}
    (h : Follows op task operation answer selected page condition) {groups : List CursorCandidateGroup}
    (hgroups : selected = .ok groups) {Q : β → Prop} (hQ : Q (page groups)) :
    Settles operation answer fun result => (∃ page, result = .ok page ∧ Q page) ↔ condition groups := by
  obtain ⟨work, bound, hwork, hschedules⟩ := h.accepted groups hgroups
  refine ⟨work, bound, hwork, fun schedule stream hstream => ?_⟩
  obtain ⟨hbound, -, hend⟩ := hschedules schedule stream hstream
  refine ⟨hbound, fun hstuck => ?_⟩
  obtain ⟨-, hsome, hother, hpage⟩ := hend hstuck
  obtain ⟨result, hresult⟩ := Option.isSome_iff_exists.mp hsome
  rw [hresult] at hother hpage
  refine ⟨result, hresult, Iff.trans ⟨?_, fun h => ⟨_, h, hQ⟩⟩ (Option.some.injEq _ _ ▸ hpage)⟩
  rintro ⟨other, rfl, -⟩
  rw [hother other rfl]

theorem Settles.mono {ρ β : Type} {operation : Except ContentServiceError (Aggregation ρ β)}
    {answer : Answers} {P P' : Except ContentServiceError β → Prop} (h : Settles operation answer P)
    (hP : ∀ result, P result → P' result) : Settles operation answer P' := by
  obtain ⟨work, bound, hwork, hschedules⟩ := h
  refine ⟨work, bound, hwork, fun schedule stream hstream => ?_⟩
  obtain ⟨hbound, hend⟩ := hschedules schedule stream hstream
  refine ⟨hbound, fun hstuck => ?_⟩
  obtain ⟨result, hresult, h⟩ := hend hstuck
  exact ⟨result, hresult, hP result h⟩

/-- A first page is returned, with the items of all platforms that answered, exactly if the cursors of
the plugins that answered fit into one: at most thirty-two, on platforms with ids the cursor admits, and
in 16384 bytes of JSON. -/
theorem first_page_iff_cursors_fit (codec : CursorCodec) (readers : Readers)
    (candidates : List ContentCandidate) (answer : Answers) :
    (∀ input : SearchAggregationInput, input.cursor = none →
      let groups := firstPage (eligible candidates .search .search input.filters)
      let op := searchOperation readers
      Settles (search codec readers (.ok candidates) input) answer fun result =>
        (∃ page, result = .ok page ∧ page.items =
          fresh (fun item earlier => item.item.repeats earlier.item) []
            ((op.made input.task answer groups).flatMap (Call.items op))) ↔
        Encodable (op.sources input.task answer groups)) ∧
    (∀ input : DiscoverAggregationInput, input.cursor = none →
      let groups := firstPage (eligible candidates .discover .discover input.filters)
      let op := discoverOperation readers
      Settles (discover codec readers (.ok candidates) input) answer fun result =>
        (∃ page, result = .ok page ∧ page.sections =
          freshSections [] ((op.made input.task answer groups).flatMap (Call.items op))) ↔
        Encodable (op.sources input.task answer groups)) := by
  constructor
  · exact fun input hcursor => (search_follows input).first_page (by rw [hcursor]; rfl) rfl
  · exact fun input hcursor => (discover_follows input).first_page (by rw [hcursor]; rfl) rfl

/-! ## A plugin whose cursor fills the page's -/

namespace Demo

def candidate : ContentCandidate :=
  ⟨"demo.plugin", "Demo", "1.0.0", "demo", 100, true, true, true, [.search, .discover, .categories]⟩

def codec : CursorCodec := ⟨fun _ => List.replicate 32 0, fun _ => List.length_replicate, fun _ => none⟩

def readers : Readers where
  search
    | .object [("items", .array [])] => some ⟨[], none⟩
    | .object [("items", .array []), ("nextCursor", .string cursor)] => some ⟨[], some cursor⟩
    | _ => none
  discover
    | .object [("sections", .array [])] => some ⟨[], none⟩
    | .object [("sections", .array []), ("nextCursor", .string cursor)] => some ⟨[], some cursor⟩
    | _ => none
  categories
    | .object [("items", .array [])] => some ⟨[]⟩
    | _ => none
  error _ := none

def input : SearchAggregationInput := ⟨"request", "query", 20, ⟨none, none⟩, none⟩

def answers (cursor : String) : Answers := fun _ _ _ =>
  .ok ⟨"2.0", some (.object [("items", .array []), ("nextCursor", .string cursor)]), none⟩

def schedule : List StreamLabel := [.start, .answer 0, .finish 0]

def controlCursor (n : Nat) : String := String.ofList (List.replicate n (Char.ofNat 1))

variable {cursor : String} {n : Nat}

theorem validate_result (h : validateOpaque cursor maxCursorBytes "nextCursor" = .ok ()) :
    SearchResult.validate ⟨[], some cursor⟩ = .ok () := h

theorem judge_answer (h : validateOpaque cursor maxCursorBytes "nextCursor" = .ok ())
    (i n : Nat) (call : Invocation) :
    (searchOperation readers).judge (answers cursor i n call) = .ok ⟨[], some cursor⟩ := by
  show decodeAs readers readers.search SearchResult.validate
    ⟨"2.0", some (.object [("items", .array []), ("nextCursor", .string cursor)]), none⟩ = _
  simp [decodeAs, decodeResponse, readers, bind, Except.bind, validate_result h]

theorem utf8ByteSize_controlCursor (n : Nat) : (controlCursor n).utf8ByteSize = n := by
  induction n with
  | zero => rfl
  | succ n ih =>
    rw [controlCursor, List.replicate_succ, String.ofList_cons, String.utf8ByteSize_append,
      String.utf8ByteSize_singleton]
    rw [controlCursor] at ih
    rw [ih, Nat.add_comm]
    rfl

theorem controlCursor_valid (hpos : 0 < n) (hsmall : n ≤ maxCursorBytes) :
    validateOpaque (controlCursor n) maxCursorBytes "nextCursor" = .ok () := by
  have hsize := utf8ByteSize_controlCursor n
  rw [validateOpaque_eq_ok]
  refine ⟨?_, by rw [hsize]; exact hsmall, ?_⟩
  · intro hempty
    rw [hempty, String.utf8ByteSize_empty] at hsize
    omega
  · intro hnul
    rw [controlCursor, String.toList_ofList] at hnul
    exact absurd (List.eq_of_mem_replicate hnul) (by decide)

theorem stringSize_controlCursor (n : Nat) : Json.stringSize (controlCursor n) = n * 6 + 2 := by
  have hescape : Json.escapeSize (Char.ofNat 1) = 6 := by decide
  rw [Json.stringSize, controlCursor, String.toList_ofList, List.map_replicate, List.sum_replicate, hescape]
  rfl

theorem groups_eq : firstPage (eligible [candidate] .search .search input.filters) = [⟨[candidate], none⟩] := by
  decide

theorem made_eq (h : validateOpaque cursor maxCursorBytes "nextCursor" = .ok ()) :
    (searchOperation readers).made input.task (answers cursor) [⟨[candidate], none⟩] =
      [⟨candidate, .ok ⟨[], some cursor⟩⟩] := by
  have hattempts : (searchOperation readers).attempts input.task (answers cursor 0) 0
      ⟨[candidate], none⟩ = [⟨candidate, .ok ⟨[], some cursor⟩⟩] := by
    rw [attempts_cons, judge_answer h]
    rfl
  show (searchOperation readers).calls input.task (answers cursor 0) ⟨[candidate], none⟩ ++ [] = _
  rw [Operation.calls, hattempts, List.append_nil]
  rfl

theorem sources_eq (h : validateOpaque cursor maxCursorBytes "nextCursor" = .ok ()) :
    (searchOperation readers).sources input.task (answers cursor) [⟨[candidate], none⟩] =
      [⟨"demo", "demo.plugin", cursor⟩] := by
  rw [Operation.sources, made_eq h]
  rfl

theorem encodable_short : Encodable [⟨"demo", "demo.plugin", "1"⟩] := by
  refine ⟨by decide, ?_, .inr (by decide)⟩
  intro source hmem
  cases List.mem_singleton.mp hmem
  decide

theorem encodeCursor_control (hlarge : 2707 ≤ n) (hsmall : n ≤ maxCursorBytes) :
    encodeCursor codec input.binding [⟨"demo", "demo.plugin", controlCursor n⟩] =
      .error .decodedTooLarge := by
  have hcursor := validateOpaque_eq_ok.mp (controlCursor_valid (by omega) hsmall)
  have hvalid : validateSources [⟨"demo", "demo.plugin", controlCursor n⟩] = .ok () := by
    have hone : 1 ≤ maxCursorSources := by decide
    have hplatform : validPlatformId "demo" = true := by decide
    refine validateSources_eq_ok.mpr ⟨hone, ?_, List.pairwise_singleton _ _⟩
    intro source hmem
    cases List.mem_singleton.mp hmem
    exact ⟨⟨hcursor.1, hcursor.2.1⟩, hplatform⟩
  have hplatform : Json.stringSize "demo" = 6 := by decide
  have hplugin : Json.stringSize "demo.plugin" = 13 := by decide
  have hsize : envelopeSize [⟨"demo", "demo.plugin", controlCursor n⟩] > maxCursorDecodedBytes := by
    simp only [envelopeSize, List.map_singleton, sourceSize, hplatform, hplugin,
      stringSize_controlCursor, List.sum_singleton, List.length_singleton, maxCursorDecodedBytes]
    omega
  rw [encodeCursor, if_neg (List.cons_ne_nil _ _), hvalid]
  simp only [Json.length_write, size_envelope]
  rw [if_pos hsize]

theorem selection_eq {codec : CursorCodec} :
    selection codec (eligible [candidate] .search .search input.filters) input.cursor input.binding =
      .ok [⟨[candidate], none⟩] :=
  congrArg Except.ok groups_eq

theorem returned_eq {codec : CursorCodec} (h : validateOpaque cursor maxCursorBytes "nextCursor" = .ok ()) :
    returned (search codec readers (.ok [candidate]) input) (answers cursor) schedule =
      some (match encodeCursor codec input.binding [⟨"demo", "demo.plugin", cursor⟩] with
        | .error e => .error (.cursor e)
        | .ok nextCursor => .ok ⟨[], nextCursor, [], true⟩) := by
  rw [search_eq, selection_eq]
  simp [returned, Except.map, Aggregation.after, schedule, Stream.initial, Stream.next,
    platformConcurrency, Operation.work, Operation.platform, platformFrom_cons, judge_answer h]
  exact ⟨rfl, rfl⟩

end Demo

/-- With a cursor that fits, the page of the procedure is returned. -/
theorem search_returns_page : ∃ schedule,
    returned (search Demo.codec Demo.readers (.ok [Demo.candidate]) Demo.input) (Demo.answers "1") schedule =
      some (.ok (searchPage Demo.codec Demo.readers Demo.input (Demo.answers "1")
        [⟨[Demo.candidate], none⟩])) := by
  obtain ⟨work, _, hwork, hschedules⟩ :=
    ((aggregation_follows_procedure Demo.codec Demo.readers [Demo.candidate] (Demo.answers "1")).1
      Demo.input).accepted _ Demo.selection_eq
  have hinitial : (Stream.initial work.programs).Sound (Demo.answers "1") work.programs :=
    Stream.initial_sound
  obtain ⟨schedule, stream, hstream, hstuck⟩ := Stream.exists_stuck platformConcurrency hinitial
  refine ⟨schedule, ((hschedules schedule stream hstream).2.2 hstuck).2.2.2.mpr ?_⟩
  rw [Demo.sources_eq (by decide)]
  exact Demo.encodable_short

/-- 4096 bytes of control characters are a valid cursor of a plugin, and too much for the page's: where
the procedure has a page, `search` has an error. -/
theorem search_returns_no_page : returned (search Demo.codec Demo.readers (.ok [Demo.candidate]) Demo.input)
        (Demo.answers (Demo.controlCursor 4096)) Demo.schedule =
      some (.error (.cursor .decodedTooLarge)) := by
  rw [Demo.returned_eq (Demo.controlCursor_valid (by decide) (by decide)),
    Demo.encodeCursor_control (by decide) (by decide)]

theorem short_cursor_has_first_page :
    Settles (search Demo.codec Demo.readers (.ok [Demo.candidate]) Demo.input) (Demo.answers "1")
      fun result => ∃ page, result = .ok page := by
  refine ((first_page_iff_cursors_fit Demo.codec Demo.readers [Demo.candidate]
    (Demo.answers "1")).1 Demo.input rfl).mono ?_
  intro result hresult
  rw [Demo.groups_eq, Demo.sources_eq (by decide)] at hresult
  obtain ⟨page, hpage, -⟩ := hresult.mpr Demo.encodable_short
  exact ⟨page, hpage⟩

/-- One plugin, one valid result, and no page. -/
theorem control_cursor_has_no_first_page :
    SearchResult.validate ⟨[], some (Demo.controlCursor 2707)⟩ = .ok () ∧
      ∀ page, returned (search Demo.codec Demo.readers (.ok [Demo.candidate]) Demo.input)
        (Demo.answers (Demo.controlCursor 2707)) Demo.schedule ≠ some (.ok page) := by
  have hvalid := Demo.controlCursor_valid (n := 2707) (by decide) (by decide)
  refine ⟨Demo.validate_result hvalid, fun page => ?_⟩
  rw [Demo.returned_eq hvalid, Demo.encodeCursor_control (by decide) (by decide)]
  exact nofun

end AudioDown.Content
