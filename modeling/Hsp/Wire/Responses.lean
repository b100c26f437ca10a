import Hsp.Wire.RoundTrip

/-!
# Native responses

`hspd` answers with a header, the body in data frames and END.  A body in JSON is one data frame,
and so is a chunk; the description of the chunks is in the header.

* `responses_reassemble_iff` : a response arrives if and only if its header, and the body or every
  chunk, fits into one frame.
-/

namespace Hsp.Wire

open List

variable (c : Ciborium)

def jsonHeader (statusCode : UInt16) (length : ℕ) : ResHeader where
  version := 1
  statusCode := statusCode
  requestId := none
  payloadMode := some .json
  payloadLength := some (.ofNat length)
  «meta» := ∅
  extensions := ∅

/-- The value is written by `toVec`, the `serde_json::to_vec` of its type. -/
def writeJsonResponse {α : Type} (toVec : α → Except String (List UInt8)) (statusCode : UInt16)
    (value : α) : Stream Unit := do
  let body ← MonadExcept.ofExcept (invalidFrameError (toVec value))
  writeFrame c (.resHeader (jsonHeader statusCode body.length))
  writeFrame c (.data body)
  writeFrame c .end

def chunkStreamHeader (statusCode : UInt16) (getMeta : JsonValue) : ResHeader where
  version := 1
  statusCode := statusCode
  requestId := none
  payloadMode := some .chunkStream
  payloadLength := none
  «meta» := (∅ : BTreeMap String JsonValue).insert "get_meta" getMeta
  extensions := ∅

/-- The description is written by `toValue`, its `serde_json::to_value`. -/
def writeChunkStreamResponse (toValue : GetResponseMeta → Except String JsonValue)
    (statusCode : UInt16) («meta» : GetResponseMeta) (chunks : List GetChunk) : Stream Unit := do
  let getMeta ← MonadExcept.ofExcept (invalidFrameError (toValue «meta»))
  writeFrame c (.resHeader (chunkStreamHeader statusCode getMeta))
  chunks.forM fun chunk => writeFrame c (.data chunk.bytes)
  writeFrame c .end

/-- The frames of a response. -/
def responseFrames (header : ResHeader) (data : List (List UInt8)) : List Frame :=
  .resHeader header :: (data.map .data ++ [.end])

/-- The response was written, and its frames are read back. -/
def Reassembles (response : Stream Unit) (header : ResHeader) (data : List (List UInt8)) : Prop :=
  (response.exec []).1 = .ok () ∧
    readFrames c (data.length + 3) (response.exec []).2 =
      (responseFrames header data, some .unexpectedEof, [])

/-- The header fits into a frame. -/
def HeaderFits (header : ResHeader) : Prop :=
  ∃ bytes, c.resHeader.intoWriter header = .ok bytes ∧ bytes.length ≤ maxControlFrameLen

variable {c}

theorem written_responseFrames (header : ResHeader) (data : List (List UInt8)) :
    written c (responseFrames header data) = Stream.exec (do
      writeFrame c (.resHeader header)
      data.forM fun bytes => writeFrame c (.data bytes)
      writeFrame c .end) [] := by
  simp [written, responseFrames]

theorem written_ok_iff {frames : List Frame} :
    (written c frames).1 = .ok () ↔ ∀ f ∈ frames, ∃ bytes, frameBytes c f = .ok bytes := by
  have hwritten : (written c frames).1 = .ok () ↔ ∃ bytes, WrittenAs c frames bytes := by
    refine ⟨fun h => ⟨_, written_iff.1 h⟩, ?_⟩
    rintro ⟨bytes, h⟩
    rw [written, (exec_writeFrames frames [] bytes).2 ⟨bytes, h, rfl⟩]
  rw [hwritten]
  clear hwritten
  induction frames with
  | nil => exact iff_of_true ⟨[], .nil⟩ (forall_mem_nil _)
  | cons f frames ih =>
    rw [forall_mem_cons]
    constructor
    · rintro ⟨_, hall⟩
      cases hall with
      | cons hf hrest => exact ⟨⟨_, hf⟩, ih.1 ⟨_, hrest⟩⟩
    · rintro ⟨⟨_, hf⟩, hrest⟩
      obtain ⟨_, hrest⟩ := ih.2 hrest
      exact ⟨_, .cons hf hrest⟩

theorem frameBytes_ok_iff {f : Frame} : (∃ bytes, frameBytes c f = .ok bytes) ↔
    ∃ payload, encodeFramePayload c f = .ok payload ∧
      enforceFrameLen f.frameType payload.length = .ok () := by
  simp only [frameBytes, except_bind_eq_ok]
  constructor
  · rintro ⟨_, payload, hpayload, _, hlen, -⟩
    exact ⟨payload, hpayload, hlen⟩
  · rintro ⟨payload, hpayload, hlen⟩
    exact ⟨_, payload, hpayload, (), hlen, rfl⟩

theorem frameBytes_resHeader_iff {header : ResHeader} :
    (∃ bytes, frameBytes c (.resHeader header) = .ok bytes) ↔ HeaderFits c header := by
  rw [frameBytes_ok_iff, HeaderFits, encodeFramePayload, encodeCbor]
  cases c.resHeader.intoWriter header <;>
    simp [invalidFrameError, Except.mapError, Frame.frameType, enforceFrameLen]

theorem frameBytes_data_iff {data : List UInt8} :
    (∃ bytes, frameBytes c (.data data) = .ok bytes) ↔ data.length ≤ maxDataFrameLen := by
  rw [frameBytes_ok_iff]
  simp [encodeFramePayload, Frame.frameType, enforceFrameLen]

/-- What was written is read back, so that only the lengths matter. -/
theorem reassembles_iff {response : Stream Unit} {header : ResHeader} {data : List (List UInt8)}
    (h : response.exec [] = written c (responseFrames header data)) :
    Reassembles c response header data ↔
      HeaderFits c header ∧ ∀ bytes ∈ data, bytes.length ≤ maxDataFrameLen := by
  have hend : ∃ bytes, frameBytes c .end = .ok bytes := ⟨_, rfl⟩
  have hok : (response.exec []).1 = .ok () ↔
      HeaderFits c header ∧ ∀ bytes ∈ data, bytes.length ≤ maxDataFrameLen := by
    rw [h, written_ok_iff, responseFrames, forall_mem_cons, forall_mem_append,
      forall_mem_map, forall_mem_singleton, frameBytes_resHeader_iff]
    simp only [frameBytes_data_iff, hend, and_true]
  rw [← hok, Reassembles, and_iff_left_of_imp]
  intro hwritten
  rw [h] at hwritten ⊢
  have hread := readFrames_written (written_iff.1 hwritten) fun f hf s hs => by
    subst hs
    simp [responseFrames] at hf
  simpa [responseFrames] using hread

theorem exec_writeJsonResponse {α : Type} {toVec : α → Except String (List UInt8)} {value : α}
    {body : List UInt8} (hbody : toVec value = .ok body) (statusCode : UInt16) :
    (writeJsonResponse c toVec statusCode value).exec [] =
      written c (responseFrames (jsonHeader statusCode body.length) [body]) := by
  rw [written_responseFrames, writeJsonResponse, hbody]
  exact (exec_bind_ok (exec_ofExcept (invalidFrameError (.ok body)) [])).trans (by simp)

/-- **Which responses arrive.**  A reader obtains the header and the body, or the header and the
chunks, if and only if the header fits into a frame, and so does the body or every chunk. -/
theorem responses_reassemble_iff (c : Ciborium) (statusCode : UInt16) :
    (∀ {α : Type} (toVec : α → Except String (List UInt8)) (value : α) (body : List UInt8),
      toVec value = .ok body →
        (Reassembles c (writeJsonResponse c toVec statusCode value)
            (jsonHeader statusCode body.length) [body] ↔
          HeaderFits c (jsonHeader statusCode body.length) ∧ body.length ≤ maxDataFrameLen)) ∧
      ∀ (toValue : GetResponseMeta → Except String JsonValue) («meta» : GetResponseMeta)
        (chunks : List GetChunk) (getMeta : JsonValue), toValue «meta» = .ok getMeta →
          (Reassembles c (writeChunkStreamResponse c toValue statusCode «meta» chunks)
              (chunkStreamHeader statusCode getMeta) (chunks.map (·.bytes)) ↔
            HeaderFits c (chunkStreamHeader statusCode getMeta) ∧
              ∀ chunk ∈ chunks, chunk.bytes.length ≤ maxDataFrameLen) := by
  constructor
  · intro α toVec value body hbody
    rw [reassembles_iff (exec_writeJsonResponse hbody statusCode), forall_mem_singleton]
  · intro toValue «meta» chunks getMeta hmeta
    rw [reassembles_iff, forall_mem_map]
    rw [written_responseFrames, writeChunkStreamResponse, hmeta]
    exact (exec_bind_ok (exec_ofExcept (invalidFrameError (.ok getMeta)) [])).trans (by simp)

namespace Sample

/-- A text without characters that must be escaped. -/
def jsonText (text : String) : List UInt8 := utf8 "\"" ++ utf8 text ++ utf8 "\""

def jsonOption : Option String → List UInt8
  | none => utf8 "null"
  | some text => jsonText text

def jsonBool (b : Bool) : List UInt8 := utf8 (if b then "true" else "false")

def itemJson (item : ListItem) : List UInt8 :=
  utf8 "\x7b\"namespace\":" ++ jsonText item.ns ++ utf8 ",\"path\":" ++ jsonText item.path ++
    utf8 ",\"target_cid\":" ++ jsonOption item.targetCid ++
    utf8 ",\"manifest_cid\":" ++ jsonOption item.manifestCid ++
    utf8 ",\"revision\":" ++ utf8 (toString item.revision) ++
    utf8 ",\"record_cid\":" ++ jsonText item.recordCid ++ utf8 ",\"metadata\":\x7b" ++
    (utf8 ",").intercalate
      (item.metadata.toList.map fun (k, v) => jsonText k ++ utf8 ":" ++ jsonText v) ++
    utf8 "\x7d,\"tombstone\":" ++ jsonBool item.tombstone ++ utf8 "\x7d"

/-- What `serde_json` makes of a listing. -/
def listJson (response : ListResponse) : List UInt8 :=
  utf8 "\x7b\"items\":[" ++ (utf8 ",").intercalate (response.items.map itemJson) ++
    utf8 "],\"next_cursor\":" ++ jsonOption response.nextCursor ++
    utf8 ",\"truncated\":" ++ jsonBool response.truncated ++
    utf8 ",\"namespace_revision_snapshot\":" ++
    utf8 (toString response.namespaceRevisionSnapshot) ++ utf8 "\x7d"

def listed (n : ℕ) : ListItem :=
  ⟨"bucket", toString n, some "cid", some "manifest", n, "record", ∅, false⟩

/-- A listing of many bindings. -/
def longResponse : ListResponse := ⟨(List.range 100000).map listed, none, false, 100000⟩

def longBody : List UInt8 := listJson longResponse

theorem le_length_itemJson (item : ListItem) : 100 ≤ (itemJson item).length := by
  have h₁ : (utf8 ",\"target_cid\":").length = 14 := by decide +kernel
  have h₂ : (utf8 ",\"manifest_cid\":").length = 16 := by decide +kernel
  have h₃ : (utf8 ",\"revision\":").length = 12 := by decide +kernel
  have h₄ : (utf8 ",\"record_cid\":").length = 14 := by decide +kernel
  have h₅ : (utf8 ",\"metadata\":\x7b").length = 13 := by decide +kernel
  have h₆ : (utf8 "\x7d,\"tombstone\":").length = 14 := by decide +kernel
  have h₇ : (utf8 "\x7b\"namespace\":").length = 13 := by decide +kernel
  have h₈ : (utf8 ",\"path\":").length = 8 := by decide +kernel
  simp only [itemJson, length_append]
  omega

theorem le_length_intercalate (sep : List UInt8) {k : ℕ} {parts : List (List UInt8)}
    (h : ∀ part ∈ parts, k ≤ part.length) : k * parts.length ≤ (sep.intercalate parts).length := by
  induction parts with
  | nil => exact Nat.zero_le _
  | cons part parts ih =>
    have hrest := ih fun p hp => h p (mem_cons_of_mem _ hp)
    have hpart := h part mem_cons_self
    cases parts with
    | nil => simpa [intercalate] using hpart
    | cons p ps =>
      rw [intercalate, intersperse_cons_cons, flatten_cons, flatten_cons, length_append,
        length_append, length_cons, Nat.mul_succ]
      rw [intercalate] at hrest
      omega

theorem maxDataFrameLen_lt_longBody : maxDataFrameLen < longBody.length := by
  have hparts : ∀ part ∈ longResponse.items.map itemJson, 100 ≤ part.length := by
    simp [le_length_itemJson]
  have hitems := le_length_intercalate (utf8 ",") hparts
  have hlong : 100 * (longResponse.items.map itemJson).length = 100 * 100000 := by
    simp [longResponse]
  rw [longBody, listJson]
  simp only [length_append]
  have hmax : maxDataFrameLen = 8388608 := rfl
  omega

/-- The bytes of the header of a listing. -/
def headerBytes (length : ℕ) : List UInt8 :=
  cborBytes (.map [(.text "version", .integer 1), (.text "status_code", .integer 200),
    (.text "request_id", .other), (.text "payload_mode", .text "json"),
    (.text "payload_length", .integer length), (.text "meta", .map []),
    (.text "extensions", .map [])])

theorem length_encodeMajor_le (major : ℕ) (value : UInt64) :
    (encodeMajor major value).length ≤ 9 := by
  unfold encodeMajor
  dsimp only
  split_ifs <;> simp [length_beBytes]

theorem headerBytes_fits (length : ℕ) : (headerBytes length).length ≤ maxControlFrameLen := by
  have hclosed : ∀ text ∈ ["version", "status_code", "request_id", "payload_mode", "json",
      "payload_length", "meta", "extensions"], (utf8 text).length ≤ 20 := by
    decide +kernel
  simp only [forall_mem_cons] at hclosed
  have hmax : maxControlFrameLen = 8388608 := rfl
  simp only [headerBytes, cborBytes, cborEntries, length_append, length_nil, length_cons]
  split_ifs <;> grind [length_encodeMajor_le]

open Classical in
/-- The header of the listing can be written and read. -/
noncomputable def headerCiborium : Ciborium :=
  { ciborium with
    resHeader := ⟨fun header =>
        if header = jsonHeader 200 longBody.length then .ok (headerBytes longBody.length)
        else .error "",
      fun bytes =>
        if bytes = headerBytes longBody.length then .ok (jsonHeader 200 longBody.length)
        else .error "", fun header bytes h => by
        split at h
        · rename_i heq
          obtain rfl := Except.ok.inj h
          rw [heq, if_pos rfl]
        · cases h⟩ }

/-- A listing that does not fit into a frame does not arrive. -/
theorem longBody_lost : HeaderFits headerCiborium (jsonHeader 200 longBody.length) ∧
    ¬ Reassembles headerCiborium
      (writeJsonResponse headerCiborium (fun response => .ok (listJson response)) 200 longResponse)
      (jsonHeader 200 longBody.length) [longBody] := by
  refine ⟨⟨headerBytes longBody.length, if_pos rfl, headerBytes_fits _⟩, fun h => ?_⟩
  have hbody : (fun response => .ok (listJson response)) longResponse =
      (.ok longBody : Except String (List UInt8)) := rfl
  have hfits := ((reassembles_iff (exec_writeJsonResponse hbody 200)).1 h).2 _ mem_cons_self
  exact absurd hfits (Nat.not_le.2 maxDataFrameLen_lt_longBody)

end Sample

end Hsp.Wire
