/-
# AudioDown.Content.Contract — what a content plugin may answer

The results of `content.search`, `content.discover` and `content.categories` with their `validate`, the
error codes of a plugin, and `decode_response`: from a JSON-RPC response to a validated result or to the
failure that is shown for it.  Reading a JSON value into one of the structs is serde's work and stays a
parameter (`Readers`); what is read is checked by the code modelled here.
-/
import AudioDown.Core.Service
import AudioDown.Lib.Check
import AudioDown.Lib.Json

namespace AudioDown.Content

open Lib

/-! ## Limits -/

def maxCursorBytes : Nat := 4 * 1024
def maxOpaqueIdBytes : Nat := 1024
def maxItemsPerResponse : Nat := 200
def maxSectionsPerResponse : Nat := 32
def maxTitleBytes : Nat := 512
def maxShortTextBytes : Nat := 1024
def maxDescriptionBytes : Nat := 4 * 1024
def maxErrorSummaryBytes : Nat := 512
def maxRetryAfterSeconds : Nat := 24 * 60 * 60

inductive ContentContractError where
  | invalidText (field : String)
  | invalidOpaqueValue (field : String)
  | tooManyItems
  | tooManySections
deriving DecidableEq

/-- `char::is_whitespace` -/
def isWhitespace (c : Char) : Bool :=
  (9 ≤ c.toNat && c.toNat ≤ 13) || c.toNat = 0x20 || c.toNat = 0x85 || c.toNat = 0xA0 ||
    c.toNat = 0x1680 || (0x2000 ≤ c.toNat && c.toNat ≤ 0x200A) || c.toNat = 0x2028 ||
    c.toNat = 0x2029 || c.toNat = 0x202F || c.toNat = 0x205F || c.toNat = 0x3000

/-- `value.trim().is_empty()` -/
def isBlank (value : String) : Bool := value.toList.all isWhitespace

/-! ## Checks -/

def validateItemCount (count : Nat) : Except ContentContractError Unit :=
  if count ≤ maxItemsPerResponse then .ok () else .error .tooManyItems

def validateNonempty (value : String) (maximum : Nat) (field : String) : Except ContentContractError Unit :=
  if isBlank value ∨ value.utf8ByteSize > maximum then .error (.invalidText field) else .ok ()

def validateOpaque (value : String) (maximum : Nat) (field : String) : Except ContentContractError Unit :=
  if value = "" ∨ value.utf8ByteSize > maximum ∨ '\x00' ∈ value.toList then
    .error (.invalidOpaqueValue field)
  else .ok ()

def validateOptionalOpaque (value : Option String) (maximum : Nat) (field : String) :
    Except ContentContractError Unit :=
  match value with
  | some value => validateOpaque value maximum field
  | none => .ok ()

def validateOptionalText (value : Option String) (maximum : Nat) (field : String) :
    Except ContentContractError Unit :=
  match value with
  | some value => validateNonempty value maximum field
  | none => .ok ()

theorem validateOpaque_eq_ok {value : String} {maximum : Nat} {field : String} :
    validateOpaque value maximum field = .ok () ↔
      value ≠ "" ∧ value.utf8ByteSize ≤ maximum ∧ '\x00' ∉ value.toList := by
  unfold validateOpaque
  split
  · rename_i h
    refine ⟨fun h' => (nomatch h'), ?_⟩
    rintro ⟨hnonempty, hsmall, hnul⟩
    rcases h with h | h | h
    · exact absurd h hnonempty
    · exact absurd hsmall (Nat.not_le.mpr h)
    · exact absurd h hnul
  · rename_i h
    push Not at h
    exact ⟨fun _ => h, fun _ => rfl⟩

/-! ## Results -/

inductive ContentResourceType where
  | album
  | track
  | category
deriving DecidableEq

structure ContentItem where
  resourceType : ContentResourceType
  resourceId : String
  canonicalId : Option String
  title : String
  subtitle : Option String
  description : Option String
deriving DecidableEq

def ContentItem.validate (item : ContentItem) : Except ContentContractError Unit := do
  validateOpaque item.resourceId maxOpaqueIdBytes "resourceId"
  validateOptionalOpaque item.canonicalId maxOpaqueIdBytes "canonicalId"
  validateNonempty item.title maxTitleBytes "title"
  validateOptionalText item.subtitle maxShortTextBytes "subtitle"
  validateOptionalText item.description maxDescriptionBytes "description"

structure SearchResult where
  items : List ContentItem
  nextCursor : Option String
deriving DecidableEq

def SearchResult.validate (result : SearchResult) : Except ContentContractError Unit := do
  validateItemCount result.items.length
  forAll ContentItem.validate result.items
  validateOptionalOpaque result.nextCursor maxCursorBytes "nextCursor"

inductive DiscoverLayout where
  | heroCarousel
  | albumGrid
  | horizontalList
  | rankedList
  | categoryGrid
deriving DecidableEq

structure DiscoverSection where
  id : String
  title : String
  layout : DiscoverLayout
  items : List ContentItem
deriving DecidableEq

def DiscoverSection.validate (sect : DiscoverSection) : Except ContentContractError Unit := do
  validateOpaque sect.id maxOpaqueIdBytes "sectionId"
  validateNonempty sect.title maxTitleBytes "sectionTitle"
  validateItemCount sect.items.length
  forAll ContentItem.validate sect.items

structure DiscoverResult where
  sections : List DiscoverSection
  nextCursor : Option String
deriving DecidableEq

def DiscoverResult.validate (result : DiscoverResult) : Except ContentContractError Unit :=
  if result.sections.length > maxSectionsPerResponse then .error .tooManySections
  else do
    forAll DiscoverSection.validate result.sections
    validateOptionalOpaque result.nextCursor maxCursorBytes "nextCursor"

structure CategoryItem where
  resourceId : String
  canonicalId : Option String
  title : String
  description : Option String
deriving DecidableEq

def CategoryItem.validate (item : CategoryItem) : Except ContentContractError Unit := do
  validateOpaque item.resourceId maxOpaqueIdBytes "resourceId"
  validateOptionalOpaque item.canonicalId maxOpaqueIdBytes "canonicalId"
  validateNonempty item.title maxTitleBytes "title"
  validateOptionalText item.description maxDescriptionBytes "description"

structure CategoriesResult where
  items : List CategoryItem
deriving DecidableEq

def CategoriesResult.validate (result : CategoriesResult) : Except ContentContractError Unit := do
  validateItemCount result.items.length
  forAll CategoryItem.validate result.items

/-! ## Errors of a plugin -/

inductive PluginErrorCode where
  | invalidRequest
  | pluginNotFound
  | pluginDisabled
  | pluginCapabilityMissing
  | pluginUnavailable
  | pluginTimeout
  | pluginResponseInvalid
  | resourceNotFound
  | resourceAccessDenied
  | resourceTemporarilyUnavailable
  | credentialNotFound
  | credentialExpired
  | credentialScopeNotAllowed
  | loginFlowNotFound
  | loginFlowExpired
  | loginPending
  | loginDenied
  | rateLimited
  | platformResponseChanged
  | pluginInternalError
deriving DecidableEq

def PluginErrorCode.isRetryable : PluginErrorCode → Bool
  | .pluginUnavailable | .pluginTimeout | .resourceTemporarilyUnavailable | .loginPending
  | .rateLimited => true
  | _ => false

structure PluginErrorData where
  code : PluginErrorCode
  summary : String
  retryAfterSeconds : Option Nat
deriving DecidableEq

def PluginErrorData.validate (data : PluginErrorData) : Except ContentContractError Unit :=
  if isBlank data.summary ∨ data.summary.utf8ByteSize > maxErrorSummaryBytes then
    .error (.invalidText "errorSummary")
  else if data.retryAfterSeconds.any (· > maxRetryAfterSeconds) then
    .error (.invalidText "retryAfterSeconds")
  else .ok ()

structure FailureData where
  code : PluginErrorCode
  summary : String
deriving DecidableEq

def FailureData.invalidResponse : FailureData :=
  ⟨.pluginResponseInvalid, "Plugin response was invalid"⟩

def safeFailureSummary : PluginErrorCode → String
  | .invalidRequest => "Content request was rejected"
  | .pluginNotFound => "Content plugin was not found"
  | .pluginDisabled => "Content plugin is disabled"
  | .pluginCapabilityMissing => "Content capability is unavailable"
  | .pluginUnavailable => "Content plugin is unavailable"
  | .pluginTimeout => "Content plugin timed out"
  | .pluginResponseInvalid => "Content plugin response was invalid"
  | .resourceNotFound => "Content resource was not found"
  | .resourceAccessDenied => "Content resource access was denied"
  | .resourceTemporarilyUnavailable => "Content resource is temporarily unavailable"
  | .credentialNotFound | .credentialExpired | .credentialScopeNotAllowed | .loginFlowNotFound
  | .loginFlowExpired | .loginPending | .loginDenied => "Content plugin response was invalid"
  | .rateLimited => "Content source is rate limited"
  | .platformResponseChanged => "Content source response changed"
  | .pluginInternalError => "Content plugin failed"

inductive ContentInvokeError where
  | unavailable
  | timeout
  | invalidResponse
  | internal
deriving DecidableEq

def invokeFailure : ContentInvokeError → FailureData
  | .unavailable => ⟨.pluginUnavailable, "Plugin is unavailable"⟩
  | .timeout => ⟨.pluginTimeout, "Plugin call timed out"⟩
  | .invalidResponse => .invalidResponse
  | .internal => ⟨.pluginInternalError, "Plugin call failed"⟩

/-! ## Responses -/

/-- Its number and its message are not looked at. -/
structure JsonRpcError where
  data : Option Json

structure JsonRpcResponse where
  jsonrpc : String
  result : Option Json
  error : Option JsonRpcError

/-- `serde_json::from_value` at the types that are read. -/
structure Readers where
  search : Json → Option SearchResult
  discover : Json → Option DiscoverResult
  categories : Json → Option CategoriesResult
  error : Json → Option PluginErrorData

def decodeResponse (readers : Readers) (response : JsonRpcResponse) : Except FailureData Json :=
  if response.jsonrpc ≠ "2.0" ∨ response.result.isSome = response.error.isSome then
    .error .invalidResponse
  else
    match response.error with
    | some error =>
        match error.data.bind readers.error with
        | none => .error .invalidResponse
        | some data =>
            match data.validate with
            | .error _ => .error .invalidResponse
            | .ok () => .error ⟨data.code, safeFailureSummary data.code⟩
    | none =>
        match response.result with
        | some value => .ok value
        | none => .error .invalidResponse

/-- `decode_search_response` and its siblings: read, then validate. -/
def decodeAs {ρ : Type} (readers : Readers) (read : Json → Option ρ)
    (validate : ρ → Except ContentContractError Unit) (response : JsonRpcResponse) :
    Except FailureData ρ := do
  let value ← decodeResponse readers response
  match read value with
  | none => .error .invalidResponse
  | some result =>
      match validate result with
      | .error _ => .error .invalidResponse
      | .ok () => .ok result

def decodeSearchResponse (readers : Readers) : JsonRpcResponse → Except FailureData SearchResult :=
  decodeAs readers readers.search SearchResult.validate

def decodeDiscoverResponse (readers : Readers) : JsonRpcResponse → Except FailureData DiscoverResult :=
  decodeAs readers readers.discover DiscoverResult.validate

def decodeCategoriesResponse (readers : Readers) : JsonRpcResponse → Except FailureData CategoriesResult :=
  decodeAs readers readers.categories CategoriesResult.validate

theorem validate_of_decodeAs {ρ : Type} {readers : Readers} {read : Json → Option ρ}
    {validate : ρ → Except ContentContractError Unit} {response : JsonRpcResponse} {result : ρ}
    (h : decodeAs readers read validate response = .ok result) : validate result = .ok () := by
  unfold decodeAs at h
  cases hvalue : decodeResponse readers response with
  | error e =>
    rw [hvalue] at h
    cases h
  | ok value =>
    rw [hvalue] at h
    simp only [bind, Except.bind] at h
    split at h
    · cases h
    · split at h
      · cases h
      · cases h
        assumption

/-! ## What a valid result is known to have -/

/-- A canonical id that is there has characters. -/
def Identified (canonicalId : Option String) : Prop := canonicalId ≠ some ""

theorem identified_of_validate {canonicalId : Option String} {maximum : Nat} {field : String}
    (h : validateOptionalOpaque canonicalId maximum field = .ok ()) : Identified canonicalId := by
  rintro rfl
  exact (validateOpaque_eq_ok.mp h).1 rfl

theorem ContentItem.identified {item : ContentItem} (h : item.validate = .ok ()) :
    Identified item.canonicalId := by
  obtain ⟨_, -, h⟩ := bind_eq_ok h
  obtain ⟨_, hid, -⟩ := bind_eq_ok h
  exact identified_of_validate hid

theorem CategoryItem.identified {item : CategoryItem} (h : item.validate = .ok ()) :
    Identified item.canonicalId := by
  obtain ⟨_, -, h⟩ := bind_eq_ok h
  obtain ⟨_, hid, -⟩ := bind_eq_ok h
  exact identified_of_validate hid

/-- A cursor that a plugin may return. -/
structure ValidCursor (cursor : String) : Prop where
  nonempty : cursor ≠ ""
  small : cursor.utf8ByteSize ≤ maxCursorBytes

theorem validCursor_of_validate {nextCursor : Option String} {cursor field : String}
    (h : validateOptionalOpaque nextCursor maxCursorBytes field = .ok ())
    (hcursor : nextCursor = some cursor) : ValidCursor cursor := by
  subst hcursor
  exact ⟨(validateOpaque_eq_ok.mp h).1, (validateOpaque_eq_ok.mp h).2.1⟩

theorem SearchResult.validate_eq_ok {result : SearchResult} (h : result.validate = .ok ()) :
    (∀ item ∈ result.items, Identified item.canonicalId) ∧
      ∀ cursor, result.nextCursor = some cursor → ValidCursor cursor := by
  obtain ⟨_, -, h⟩ := bind_eq_ok h
  obtain ⟨_, hitems, hcursor⟩ := bind_eq_ok h
  exact ⟨fun item hmem => ContentItem.identified (forAll_eq_ok.mp hitems item hmem),
    fun _ => validCursor_of_validate hcursor⟩

theorem DiscoverResult.validate_eq_ok {result : DiscoverResult} (h : result.validate = .ok ()) :
    (∀ sect ∈ result.sections, ∀ item ∈ sect.items, Identified item.canonicalId) ∧
      ∀ cursor, result.nextCursor = some cursor → ValidCursor cursor := by
  unfold DiscoverResult.validate at h
  split at h
  · cases h
  · obtain ⟨_, hsections, hcursor⟩ := bind_eq_ok h
    refine ⟨?_, fun _ => validCursor_of_validate hcursor⟩
    intro sect hsect item hmem
    have hvalid := forAll_eq_ok.mp hsections sect hsect
    obtain ⟨_, -, hvalid⟩ := bind_eq_ok hvalid
    obtain ⟨_, -, hvalid⟩ := bind_eq_ok hvalid
    obtain ⟨_, -, hitems⟩ := bind_eq_ok hvalid
    exact ContentItem.identified (forAll_eq_ok.mp hitems item hmem)

theorem CategoriesResult.validate_eq_ok {result : CategoriesResult} (h : result.validate = .ok ()) :
    ∀ item ∈ result.items, Identified item.canonicalId := by
  obtain ⟨_, -, hitems⟩ := bind_eq_ok h
  exact fun item hmem => CategoryItem.identified (forAll_eq_ok.mp hitems item hmem)

end AudioDown.Content
