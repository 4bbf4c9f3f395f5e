/-
# AudioDown.Content.Cursor — the cursor of an aggregated page

One opaque text that carries the cursors of all plugins that have more to give: a JSON envelope with a
fingerprint of the request it belongs to, in base64.  A text here is the list of its bytes.

`encode_cursor` refuses more than thirty-two sources, platform ids outside its alphabet, platforms that do
not ascend, and an envelope of more than 16384 bytes.  `encodeCursor_isOk_iff` says when it succeeds, with
the size of the envelope in closed form; that the base64 text is below its own limit then follows.
-/
import AudioDown.Content.Contract
import AudioDown.Lib.Base64

namespace AudioDown.Content

open Lib (Json)
open Supervisor

def cursorVersion : Nat := 1
def maxCursorSources : Nat := 32
def maxSourceCursorBytes : Nat := 4 * 1024
def maxCursorDecodedBytes : Nat := 16 * 1024
def maxCursorEncodedBytes : Nat := 24 * 1024

structure ContentFilters where
  platformId : Option String
  pluginId : Option PluginId
deriving DecidableEq

inductive ContentCursorOperation where
  | search
  | discover
deriving DecidableEq

structure ContentCursorBinding where
  operation : ContentCursorOperation
  query : Option String
  filters : ContentFilters
deriving DecidableEq

structure SourceCursor where
  platformId : String
  pluginId : PluginId
  cursor : String
deriving DecidableEq

inductive ContentCursorError where
  | encodedTooLarge
  | decodedTooLarge
  | tooManySources
  | sourceCursorTooLarge
  | malformed
  | unsupportedVersion
  | bindingMismatch
deriving DecidableEq

structure CursorEnvelope where
  version : Nat
  fingerprint : String
  sources : List SourceCursor
deriving DecidableEq

/-- SHA-256, and serde's reading of an envelope. -/
structure CursorCodec where
  sha256 : List UInt8 → List UInt8
  length_sha256 : ∀ bytes, (sha256 bytes).length = 32
  readEnvelope : List UInt8 → Option CursorEnvelope

/-! ## JSON -/

def optionalString : Option String → Json
  | some value => .string value
  | none => .null

def ContentCursorOperation.json : ContentCursorOperation → Json
  | .search => .string "search"
  | .discover => .string "discover"

/-- `BindingFingerprint` -/
def ContentCursorBinding.json (binding : ContentCursorBinding) : Json :=
  .object [("operation", binding.operation.json), ("query", optionalString binding.query),
    ("platformId", optionalString binding.filters.platformId),
    ("pluginId", optionalString binding.filters.pluginId)]

def SourceCursor.json (source : SourceCursor) : Json :=
  .object [("platformId", .string source.platformId), ("pluginId", .string source.pluginId),
    ("cursor", .string source.cursor)]

def CursorEnvelope.json (envelope : CursorEnvelope) : Json :=
  .object [("version", .number envelope.version), ("fingerprint", .string envelope.fingerprint),
    ("sources", .array (envelope.sources.map SourceCursor.json))]

def asciiText (bytes : List UInt8) : String := String.ofList (bytes.map fun b => Char.ofNat b.toNat)

/-! ## Encoding and decoding -/

def requestFingerprint (codec : CursorCodec) (binding : ContentCursorBinding) : String :=
  asciiText (Lib.Base64.encode (codec.sha256 binding.json.write))

def validPlatformId (platformId : String) : Bool :=
  platformId ≠ "" && platformId.utf8ByteSize ≤ 128 && platformId.toList.all fun c =>
      ('a' ≤ c && c ≤ 'z') || ('0' ≤ c && c ≤ '9') || c = '.' || c = '_' || c = '-'

/-- The loop of `validate_sources`. -/
def validateSourcesFrom : Option String → List SourceCursor → Except ContentCursorError Unit
  | _, [] => .ok ()
  | previous, source :: sources =>
      if source.cursor = "" then .error .malformed
      else if source.cursor.utf8ByteSize > maxSourceCursorBytes then .error .sourceCursorTooLarge
      else if !validPlatformId source.platformId then .error .malformed
      else if previous.any (· ≥ source.platformId) then .error .malformed
      else validateSourcesFrom (some source.platformId) sources

def validateSources (sources : List SourceCursor) : Except ContentCursorError Unit :=
  if sources.length > maxCursorSources then .error .tooManySources
  else validateSourcesFrom none sources

def encodeCursor (codec : CursorCodec) (binding : ContentCursorBinding) (sources : List SourceCursor) :
    Except ContentCursorError (Option (List UInt8)) :=
  if sources = [] then .ok none
  else
    match validateSources sources with
    | .error e => .error e
    | .ok () =>
        let decoded :=
          (CursorEnvelope.json ⟨cursorVersion, requestFingerprint codec binding, sources⟩).write
        if decoded.length > maxCursorDecodedBytes then .error .decodedTooLarge
        else if (Lib.Base64.encode decoded).length > maxCursorEncodedBytes then
          .error .encodedTooLarge
        else .ok (some (Lib.Base64.encode decoded))

def decodeCursor (codec : CursorCodec) (encoded : List UInt8) (binding : ContentCursorBinding) :
    Except ContentCursorError (List SourceCursor) :=
  if encoded.length > maxCursorEncodedBytes then .error .encodedTooLarge
  else
    match Lib.Base64.decode encoded with
    | none => .error .malformed
    | some decoded =>
        if decoded.length > maxCursorDecodedBytes then .error .decodedTooLarge
        else
          match codec.readEnvelope decoded with
          | none => .error .malformed
          | some envelope =>
              if envelope.version ≠ cursorVersion then .error .unsupportedVersion
              else if envelope.fingerprint ≠ requestFingerprint codec binding then
                .error .bindingMismatch
              else
                match validateSources envelope.sources with
                | .error e => .error e
                | .ok () => .ok envelope.sources

/-! ## When the sources are accepted -/

/-- A source whose cursor and platform id are within their bounds. -/
structure SourceCursor.Valid (source : SourceCursor) : Prop where
  cursor : ValidCursor source.cursor
  platformId : validPlatformId source.platformId = true

/-- `previous` is below all of the platforms. -/
def Ascends (previous : Option String) (sources : List SourceCursor) : Prop :=
  (∀ platformId, previous = some platformId → ∀ source ∈ sources, platformId < source.platformId) ∧
    (sources.map SourceCursor.platformId).Pairwise (· < ·)

variable {binding : ContentCursorBinding} {codec : CursorCodec} {previous : Option String}
  {sources : List SourceCursor}

theorem ascends_cons {source : SourceCursor} : Ascends previous (source :: sources) ↔
      previous.any (· ≥ source.platformId) = false ∧ Ascends (some source.platformId) sources := by
  have hprevious : previous.any (· ≥ source.platformId) = false ↔
      ∀ platformId, previous = some platformId → platformId < source.platformId := by
    cases previous <;> simp
  rw [hprevious]
  constructor
  · rintro ⟨hbelow, hpairwise⟩
    rw [List.map_cons, List.pairwise_cons] at hpairwise
    refine ⟨fun p hp => hbelow p hp source List.mem_cons_self, ?_, hpairwise.2⟩
    rintro _ ⟨⟩ next hnext
    exact hpairwise.1 _ (List.mem_map_of_mem hnext)
  · rintro ⟨hbelow, hnext, hpairwise⟩
    have habove := hnext source.platformId rfl
    refine ⟨fun p hp => List.forall_mem_cons.mpr ⟨hbelow p hp, ?_⟩, ?_⟩
    · intro next hmem
      exact lt_trans (hbelow p hp) (habove next hmem)
    · exact List.pairwise_cons.mpr ⟨List.forall_mem_map.mpr habove, hpairwise⟩

theorem validateSourcesFrom_eq_ok : validateSourcesFrom previous sources = .ok () ↔
      (∀ source ∈ sources, source.Valid) ∧ Ascends previous sources := by
  induction sources generalizing previous with
  | nil => simp [validateSourcesFrom, Ascends]
  | cons source sources ih =>
    rw [List.forall_mem_cons, ascends_cons]
    simp only [validateSourcesFrom]
    split
    · rename_i h
      exact ⟨fun h' => (nomatch h'), fun h' => absurd h h'.1.1.cursor.nonempty⟩
    split
    · rename_i h
      exact ⟨fun h' => (nomatch h'), fun h' => absurd h'.1.1.cursor.small (Nat.not_le.mpr h)⟩
    split
    · rename_i h
      refine ⟨fun h' => (nomatch h'), fun h' => ?_⟩
      rw [h'.1.1.platformId] at h
      cases h
    split
    · rename_i h
      refine ⟨fun h' => (nomatch h'), fun h' => ?_⟩
      rw [h'.2.1] at h
      cases h
    · rename_i hnonempty hsmall hplatform hprevious
      have hvalid : source.Valid :=
        ⟨⟨hnonempty, Nat.not_lt.mp hsmall⟩, by simpa using hplatform⟩
      rw [ih]
      exact ⟨fun h => ⟨⟨hvalid, h.1⟩, Bool.eq_false_iff.mpr hprevious, h.2⟩,
        fun h => ⟨h.1.2, h.2.2⟩⟩

theorem validateSources_eq_ok : validateSources sources = .ok () ↔ sources.length ≤ maxCursorSources ∧
      (∀ source ∈ sources, source.Valid) ∧ (sources.map SourceCursor.platformId).Pairwise (· < ·) := by
  unfold validateSources
  split
  · rename_i h
    exact ⟨fun h' => (nomatch h'), fun h' => absurd h'.1 (Nat.not_le.mpr h)⟩
  · rename_i h
    rw [validateSourcesFrom_eq_ok]
    exact ⟨fun h' => ⟨Nat.not_lt.mp h, h'.1, h'.2.2⟩, fun h' => ⟨h'.2.1, fun _ h => (nomatch h), h'.2.2⟩⟩

theorem decodeCursor_eq_ok {encoded : List UInt8}
    (h : decodeCursor codec encoded binding = .ok sources) : validateSources sources = .ok () := by
  unfold decodeCursor at h
  split at h
  · cases h
  split at h
  · cases h
  split at h
  · cases h
  split at h
  · cases h
  split at h
  · cases h
  split at h
  · cases h
  split at h
  · cases h
  · cases h
    assumption

/-! ## The size of the envelope -/

/-- What one source adds: its three strings in `{"platformId":…,"pluginId":…,"cursor":…}`. -/
def sourceSize (source : SourceCursor) : Nat :=
  Json.stringSize source.platformId + Json.stringSize source.pluginId + Json.stringSize source.cursor + 37

/-- The envelope around them is 86 bytes, and there is a comma between two sources. -/
def envelopeSize (sources : List SourceCursor) : Nat :=
  86 + (sources.map sourceSize).sum + (sources.length - 1)

theorem size_source (source : SourceCursor) : source.json.size = sourceSize source := by
  have hplatform : Json.stringSize "platformId" = 12 := by decide
  have hplugin : Json.stringSize "pluginId" = 10 := by decide
  have hcursor : Json.stringSize "cursor" = 8 := by decide
  simp only [SourceCursor.json, Json.size, Json.sizeMembers, Json.commasSize, hplatform, hplugin,
    hcursor, sourceSize, List.sum_cons, List.sum_nil, List.length_cons, List.length_nil]
  omega

theorem escapeSize_digit (n : Nat) : Json.escapeSize (Char.ofNat (Lib.Base64.digit n).toNat) = 1 := by
  have hplain : ∀ m < 123, 45 ≤ m → m ≠ 92 → Json.escapeSize (Char.ofNat m) = 1 := by decide
  have hrange : (Lib.Base64.digit n).toNat < 123 ∧ 45 ≤ (Lib.Base64.digit n).toNat ∧
      (Lib.Base64.digit n).toNat ≠ 92 := by
    unfold Lib.Base64.digit
    split_ifs <;> simp <;> omega
  exact hplain _ hrange.1 hrange.2.1 hrange.2.2

theorem stringSize_fingerprint (codec : CursorCodec) (binding : ContentCursorBinding) :
    Json.stringSize (requestFingerprint codec binding) = 45 := by
  set text := Lib.Base64.encode (codec.sha256 binding.json.write) with htext
  have hlength : text.length = 43 := by
    rw [htext, Lib.Base64.length_encode, codec.length_sha256]
  have hone : ∀ b ∈ text, Json.escapeSize (Char.ofNat b.toNat) = 1 := by
    intro b hb
    obtain ⟨n, rfl⟩ := Lib.Base64.mem_encode hb
    exact escapeSize_digit n
  have hsum : ((text.map fun b => Char.ofNat b.toNat).map Json.escapeSize).sum = text.length := by
    rw [List.map_map, List.map_congr_left (f := Json.escapeSize ∘ _) hone]
    simp
  rw [Json.stringSize, requestFingerprint, asciiText, String.toList_ofList, ← htext, hsum, hlength]

theorem size_envelope (codec : CursorCodec) (binding : ContentCursorBinding) (sources : List SourceCursor) :
    (CursorEnvelope.json ⟨cursorVersion, requestFingerprint codec binding, sources⟩).size =
      envelopeSize sources := by
  have hversion : Json.stringSize "version" = 9 := by decide
  have hnumber : (Json.writeNumber cursorVersion).length = 1 := by decide
  have hfingerprint : Json.stringSize "fingerprint" = 13 := by decide
  have hsources : Json.stringSize "sources" = 9 := by decide
  have hsizes : (sources.map SourceCursor.json).map Json.size = sources.map sourceSize := by
    rw [List.map_map]
    exact List.map_congr_left fun source _ => size_source source
  simp only [CursorEnvelope.json, Json.size, Json.sizeMembers, Json.sizeElements_eq_map,
    Json.commasSize, hversion, hfingerprint, hsources, hnumber, stringSize_fingerprint, hsizes,
    envelopeSize, List.sum_cons, List.sum_nil, List.length_cons, List.length_nil, List.length_map]
  omega

/-- The three conditions on the sources of a cursor. -/
structure Encodable (sources : List SourceCursor) : Prop where
  count : sources.length ≤ maxCursorSources
  platformIds : ∀ source ∈ sources, validPlatformId source.platformId = true
  size : sources = [] ∨ envelopeSize sources ≤ maxCursorDecodedBytes

/-- For sources with ascending platforms and cursors as plugins may return them, they are all there is. -/
theorem encodeCursor_isOk_iff (codec : CursorCodec) (binding : ContentCursorBinding)
    (cursors : ∀ source ∈ sources, ValidCursor source.cursor)
    (ascending : (sources.map SourceCursor.platformId).Pairwise (· < ·)) :
    (∃ token, encodeCursor codec binding sources = .ok token) ↔ Encodable sources := by
  have hvalid : validateSources sources = .ok () ↔ sources.length ≤ maxCursorSources ∧
      ∀ source ∈ sources, validPlatformId source.platformId = true := by
    rw [validateSources_eq_ok]
    refine and_congr_right fun _ => ⟨fun h source hmem => (h.1 source hmem).platformId, fun h => ?_⟩
    exact ⟨fun source hmem => ⟨cursors source hmem, h source hmem⟩, ascending⟩
  unfold encodeCursor
  split
  · rename_i hnil
    subst hnil
    exact ⟨fun _ => ⟨Nat.zero_le _, fun _ hmem => (nomatch hmem), .inl rfl⟩, fun _ => ⟨none, rfl⟩⟩
  rename_i hne
  split
  · rename_i hvalidate
    refine ⟨fun h => (nomatch h.choose_spec), fun h => ?_⟩
    rw [hvalid.mpr ⟨h.count, h.platformIds⟩] at hvalidate
    cases hvalidate
  · rename_i hvalidate
    obtain ⟨hcount, hplatforms⟩ := hvalid.mp hvalidate
    simp only [Lib.Base64.length_encode, Json.length_write, size_envelope]
    split
    · rename_i hlarge
      exact ⟨fun h => (nomatch h.choose_spec),
        fun h => absurd (h.size.resolve_left hne) (Nat.not_le.mpr hlarge)⟩
    · rename_i hsmall
      have hsmall := Nat.not_lt.mp hsmall
      -- four characters for three bytes: 16384 bytes are 21846 characters
      have hencoded : ¬ (4 * envelopeSize sources + 2) / 3 > maxCursorEncodedBytes := by
        unfold maxCursorDecodedBytes at hsmall
        unfold maxCursorEncodedBytes
        omega
      rw [if_neg hencoded]
      exact ⟨fun _ => ⟨hcount, hplatforms, .inr hsmall⟩, fun _ => ⟨_, rfl⟩⟩

/-- The text that carries these sources; none if there are none. -/
def cursorText (codec : CursorCodec) (binding : ContentCursorBinding) (sources : List SourceCursor) :
    Option (List UInt8) :=
  if sources = [] then none
  else some (Lib.Base64.encode
    (CursorEnvelope.json ⟨cursorVersion, requestFingerprint codec binding, sources⟩).write)

theorem encodeCursor_eq_ok {token : Option (List UInt8)}
    (h : encodeCursor codec binding sources = .ok token) : token = cursorText codec binding sources := by
  unfold encodeCursor at h
  unfold cursorText
  split at h
  · rename_i hnil
    cases h
    rw [if_pos hnil]
  rename_i hne
  rw [if_neg hne]
  split at h
  · cases h
  · simp only at h
    split at h
    · cases h
    split at h
    · cases h
    · cases h
      rfl

end AudioDown.Content
