import Hsp.Wire.RoundTrip

/-!
# The native client

The Go client of `sdk/go/nativebeta` writes a request as a REQ_HEADER frame, a DATA frame if there
is a body, and an END frame.  The header is a CBOR map with the names of the `json` tags as keys.
The server reads it with the `Deserialize` that serde derives for `ReqHeader`, and collects the
body.

CBOR libraries are parameters: what one of them writes is an item, a JSON value here, and what the
other makes of the bytes is what `Deserialize` makes of the item (`Decodes`).

* `understood_iff` : the server understands a request exactly if its operation is spelled as serde
  spells it;
* `operationText_unknown` : the constants of the client are spelled otherwise.
-/

namespace Hsp.Sdk.Native

open Wire

/-! ### The client -/

/-- The constants of `protocol.OperationName`. -/
def operationText : OperationName → String
  | .info => "INFO"
  | .head => "HEAD"
  | .get => "GET"
  | .resolve => "RESOLVE"
  | .bind => "BIND"
  | .unbind => "UNBIND"
  | .list => "LIST"
  | .subscribe => "SUBSCRIBE"
  | .putInit => "PUT_INIT"
  | .putChunk => "PUT_CHUNK"
  | .putCommit => "PUT_COMMIT"

/-- The constants of `protocol.PayloadMode`. -/
def payloadModeText : PayloadMode → String
  | .none => "none"
  | .json => "json"
  | .raw => "raw"
  | .chunkStream => "chunk_stream"

/-- A `map[string]any`, in the order in which it is traversed. -/
structure GoMap where
  entries : List (String × JsonValue)
  nodup : (entries.map Prod.fst).Nodup

def GoMap.empty : GoMap := ⟨[], List.nodup_nil⟩

/-- `protocol.ReqHeader`. -/
structure GoReqHeader where
  version : UInt8
  operation : String
  requestId : Option UInt64
  payloadMode : Option String
  payloadLength : Option UInt64
  params : GoMap
  extensions : GoMap

/-- A field with `omitempty`. -/
def omitEmpty {α : Type} (name : String) (f : α → JsonValue) (value : Option α) :
    List (String × JsonValue) :=
  (value.map fun a => (name, f a)).toList

/-- The item that `cbor.Marshal` writes: a map from the tags of the fields. -/
def GoReqHeader.entries (h : GoReqHeader) : List (String × JsonValue) :=
  [("version", .posInt h.version.toUInt64), ("operation", .string h.operation)] ++
    omitEmpty "request_id" .posInt h.requestId ++
    omitEmpty "payload_mode" .string h.payloadMode ++
    omitEmpty "payload_length" .posInt h.payloadLength ++
    [("params", .object h.params.entries), ("extensions", .object h.extensions.entries)]

/-- The header that `executeRequest` makes.  Absent parameters are an empty map. -/
def requestHeader (operation payloadMode : String) (params : Option GoMap) (body : List UInt8) :
    GoReqHeader where
  version := 1
  operation := operation
  requestId := none
  payloadMode := some payloadMode
  payloadLength := if body.length > 0 then some (.ofNat body.length) else none
  params := params.getD .empty
  extensions := .empty

/-- `writeFrame`: the length is cut to 32 bits. -/
def goFrame (frameType : UInt8) (payload : List UInt8) : List UInt8 :=
  frameType :: beBytes 4 payload.length ++ payload

/-- What `executeRequest` writes to the stream after the AUTH frame. -/
def executeRequest (marshal : GoReqHeader → List UInt8) (operation payloadMode : String)
    (params : Option GoMap) (body : List UInt8) : List UInt8 :=
  goFrame 0x10 (marshal (requestHeader operation payloadMode params body)) ++
    (if body.length > 0 then goFrame 0x12 body else []) ++ goFrame 0x13 []

/-! ### What serde reads -/

/-- How serde spells an operation (`rename_all = "kebab-case"`). -/
def serdeOperation : OperationName → String
  | .info => "info"
  | .head => "head"
  | .get => "get"
  | .resolve => "resolve"
  | .bind => "bind"
  | .unbind => "unbind"
  | .list => "list"
  | .subscribe => "subscribe"
  | .putInit => "put-init"
  | .putChunk => "put-chunk"
  | .putCommit => "put-commit"

def operations : List OperationName :=
  [.info, .head, .get, .resolve, .bind, .unbind, .list, .subscribe, .putInit, .putChunk, .putCommit]

/-- How serde spells a payload mode (`rename_all = "snake_case"`). -/
def serdePayloadMode : PayloadMode → String
  | .none => "none"
  | .json => "json"
  | .raw => "raw"
  | .chunkStream => "chunk_stream"

/-- The variant with a name. -/
def variant {α : Type} (name : α → String) (all : List α) : JsonValue → Option α
  | .string s => all.find? (name · = s)
  | _ => none

/-- A number of eight bits. -/
def asU8 : JsonValue → Option UInt8
  | .posInt n => if n.toNat < 256 then some n.toUInt8 else none
  | _ => none

def asU64 : JsonValue → Option UInt64
  | .posInt n => some n
  | _ => none

/-- A `BTreeMap` of JSON values: of entries with one key the last one stays. -/
def asMap : JsonValue → Option (BTreeMap String JsonValue)
  | .object entries => some (.ofList entries)
  | _ => none

/-- The values of a field of a struct.  There may be at most one. -/
def field (entries : List (String × JsonValue)) (name : String) : Option (Option JsonValue) :=
  match entries.filter (·.1 = name) with
  | [] => some none
  | [(_, value)] => some (some value)
  | _ => none

def required {α : Type} (entries : List (String × JsonValue)) (name : String)
    (read : JsonValue → Option α) : Option α := do
  match ← field entries name with
  | some value => read value
  | none => none

/-- A field of type `Option` may be missing or null. -/
def optional {α : Type} (entries : List (String × JsonValue)) (name : String)
    (read : JsonValue → Option α) : Option (Option α) := do
  match ← field entries name with
  | some .null | none => some none
  | some value => some <$> read value

/-- The derived `Deserialize` of `ReqHeader`, for a map. -/
def readReqHeader (entries : List (String × JsonValue)) : Option ReqHeader := do
  let version ← required entries "version" asU8
  let operation ← required entries "operation" (variant serdeOperation operations)
  let requestId ← optional entries "request_id" asU64
  let payloadMode ← optional entries "payload_mode"
    (variant serdePayloadMode [.none, .json, .raw, .chunkStream])
  let payloadLength ← optional entries "payload_length" asU64
  let params ← required entries "params" asMap
  let extensions ← required entries "extensions" asMap
  return ⟨version, operation, requestId, payloadMode, payloadLength, params, extensions⟩

/-- The libraries agree about a header: the server makes of its bytes what `Deserialize` makes of
the item. -/
def Decodes (c : Ciborium) (marshal : GoReqHeader → List UInt8) (h : GoReqHeader) : Prop :=
  match readReqHeader h.entries with
  | some header => c.reqHeader.fromReader (marshal h) = .ok header
  | none => ∃ message, c.reqHeader.fromReader (marshal h) = .error message

/-! ### The server -/

variable (c : Ciborium)

/-- The derived `Debug` of a frame type. -/
def frameTypeDebug : FrameType → String
  | .settings => "Settings"
  | .error => "Error"
  | .notice => "Notice"
  | .reqHeader => "ReqHeader"
  | .resHeader => "ResHeader"
  | .data => "Data"
  | .end => "End"
  | .event => "Event"
  | .ack => "Ack"
  | .auth => "Auth"
  | .goAway => "GoAway"

def nativeJsonBodyLimitBytes : ℕ := 8 * 1024 * 1024

def nativeBodyLimit (header : ReqHeader) : ℕ :=
  match header.operation with
  | .info => 0
  | .putChunk => defaultLimits.maxChunkSize
  | _ => nativeJsonBodyLimitBytes

/-- The loop of `read_body`.  Every turn reads a frame, so the length of the input bounds them. -/
def readBody (maxBodyBytes : ℕ) : ℕ → List UInt8 → Stream (List UInt8)
  | 0, _ => throw .unexpectedEof
  | fuel + 1, body => do
    match ← readFrame c with
    | .data bytes =>
      if body.length + bytes.length > maxBodyBytes then
        throw (.invalidFrame "request body exceeds operation limit")
      else readBody maxBodyBytes fuel (body ++ bytes)
    | .end => return body
    | frame => throw (.invalidFrame
        ("unexpected frame " ++ frameTypeDebug frame.frameType ++ " while reading body"))

/-- The part of `handle_request_stream` after AUTH and before the operation.  Any other frame is
answered with an error. -/
def readRequest : Stream (ReqHeader × List UInt8) := do
  match ← readFrame c with
  | .reqHeader header =>
    let input ← getThe (List UInt8)
    let body ← readBody c (nativeBodyLimit header) (input.length + 1) []
    return (header, body)
  | _ => throw (.invalidFrame "REQ_HEADER must follow AUTH")

/-! ### Reading what was written -/

variable {c}

theorem variant_operation {s : String} {op : OperationName} :
    variant serdeOperation operations (.string s) = some op ↔ s = serdeOperation op := by
  constructor
  · intro h
    have hname := List.find?_some h
    simp only [decide_eq_true_eq] at hname
    exact hname.symm
  · rintro rfl
    cases op <;> decide

/-- The header that the client means. -/
def expectedHeader (op : OperationName) (mode : PayloadMode) (params : Option GoMap)
    (body : List UInt8) : ReqHeader where
  version := 1
  operation := op
  requestId := none
  payloadMode := some mode
  payloadLength := if body.length > 0 then some (.ofNat body.length) else none
  params := .ofList (params.getD .empty).entries
  extensions := ∅

theorem field_entries (h : GoReqHeader) :
    field h.entries "version" = some (some (.posInt h.version.toUInt64)) ∧
    field h.entries "operation" = some (some (.string h.operation)) ∧
    field h.entries "request_id" = some (h.requestId.map .posInt) ∧
    field h.entries "payload_mode" = some (h.payloadMode.map .string) ∧
    field h.entries "payload_length" = some (h.payloadLength.map .posInt) ∧
    field h.entries "params" = some (some (.object h.params.entries)) ∧
    field h.entries "extensions" = some (some (.object h.extensions.entries)) := by
  obtain ⟨_, _, _ | _, _ | _, _ | _, _, _⟩ := h <;>
    simp [field, GoReqHeader.entries, omitEmpty]

theorem variant_payloadMode (mode : PayloadMode) :
    variant serdePayloadMode [.none, .json, .raw, .chunkStream] (.string (payloadModeText mode)) =
      some mode := by
  cases mode <;> decide

/-- What serde makes of a header depends on the spelling of the operation alone. -/
theorem readReqHeader_request (operation : String) (mode : PayloadMode) (params : Option GoMap)
    (body : List UInt8) :
    readReqHeader (requestHeader operation (payloadModeText mode) params body).entries =
      (variant serdeOperation operations (.string operation)).map
        (expectedHeader · mode params body) := by
  obtain ⟨hversion, hoperation, hid, hmode, hlength, hparams, hextensions⟩ :=
    field_entries (requestHeader operation (payloadModeText mode) params body)
  generalize (requestHeader operation (payloadModeText mode) params body).entries = entries at *
  have hversion : required entries "version" asU8 = some 1 := by rw [required, hversion]; rfl
  have hoperation : required entries "operation" (variant serdeOperation operations) =
      variant serdeOperation operations (.string operation) := by rw [required, hoperation]; rfl
  have hid : optional entries "request_id" asU64 = some none := by rw [optional, hid]; rfl
  have hmode : optional entries "payload_mode" (variant serdePayloadMode
      [.none, .json, .raw, .chunkStream]) = some (some mode) := by
    rw [optional, hmode]
    exact congrArg (some <$> ·) (variant_payloadMode mode)
  have hlength : optional entries "payload_length" asU64 =
      some (if body.length > 0 then some (.ofNat body.length) else none) := by
    rw [optional, hlength, requestHeader]
    split <;> rfl
  have hparams : required entries "params" asMap = some (.ofList (params.getD .empty).entries) := by
    rw [required, hparams]; rfl
  have hextensions : required entries "extensions" asMap = some ∅ := by
    rw [required, hextensions]; rfl
  rw [readReqHeader, hversion, hoperation, hid, hmode, hlength, hparams, hextensions]
  cases variant serdeOperation operations (.string operation) <;> rfl

/-! ### Frames -/

theorem enforceFrameLen_of_le {t : FrameType} {n : ℕ} (h : n ≤ 8 * 1024 * 1024) :
    enforceFrameLen t n = .ok () := by
  cases t <;> simpa [enforceFrameLen, maxDataFrameLen, maxControlFrameLen] using h

theorem exec_readFrame_goFrame {t : FrameType} {payload : List UInt8}
    (h : payload.length ≤ 8 * 1024 * 1024) (rest : List UInt8) :
    (readFrame c).exec (goFrame t.toByte payload ++ rest) =
      (decodeFramePayload c t payload, rest) :=
  exec_readFrame_payload (enforceFrameLen_of_le h) rest

theorem exec_readBody {limit : ℕ} {body : List UInt8} (hlimit : body.length ≤ limit)
    (hbody : body.length ≤ 8 * 1024 * 1024) (fuel : ℕ) :
    (readBody c limit (fuel + 2) []).exec
      ((if body.length > 0 then goFrame 0x12 body else []) ++ goFrame 0x13 []) =
        (.ok body, []) := by
  have hend (fuel : ℕ) (sofar : List UInt8) :
      (readBody c limit (fuel + 1) sofar).exec (goFrame 0x13 []) = (.ok sofar, []) := by
    have hread : (readFrame c).exec (goFrame 0x13 []) = (.ok .end, []) :=
      exec_readFrame_goFrame (t := .end) (by simp) []
    rw [readBody, exec_bind_ok hread]
    rfl
  split
  · have hread : (readFrame c).exec (goFrame 0x12 body ++ goFrame 0x13 []) =
        (.ok (.data body), goFrame 0x13 []) := exec_readFrame_goFrame (t := .data) hbody _
    rw [readBody, exec_bind_ok hread]
    dsimp only
    rw [if_neg (by simpa using hlimit)]
    exact hend fuel body
  · rename_i hempty
    obtain rfl := List.length_eq_zero_iff.1 (Nat.eq_zero_of_not_pos hempty)
    exact hend (fuel + 1) []

theorem nativeBodyLimit_le (header : ReqHeader) : nativeBodyLimit header ≤ 8 * 1024 * 1024 := by
  unfold nativeBodyLimit
  split <;> decide

section Requests

variable {marshal : GoReqHeader → List UInt8} {operation : String} {op : OperationName}
  {mode : PayloadMode} {params : Option GoMap} {body : List UInt8}
  (hcbor : Decodes c marshal (requestHeader operation (payloadModeText mode) params body))
  (hsize : (marshal (requestHeader operation (payloadModeText mode) params body)).length ≤
    maxControlFrameLen)
include hcbor hsize

/-- The header frame of a request is read as serde reads it. -/
theorem exec_readFrame_request (rest : List UInt8) :
    match variant serdeOperation operations (.string operation) with
    | some op => (readFrame c).exec (goFrame 0x10 (marshal (requestHeader operation
        (payloadModeText mode) params body)) ++ rest) =
          (.ok (.reqHeader (expectedHeader op mode params body)), rest)
    | none => ∃ message, (readFrame c).exec (goFrame 0x10 (marshal (requestHeader operation
        (payloadModeText mode) params body)) ++ rest) = (.error (.invalidFrame message), rest) := by
  have hread := exec_readFrame_goFrame (c := c) (t := .reqHeader) hsize rest
  rw [Decodes, readReqHeader_request] at hcbor
  cases hop : variant serdeOperation operations (.string operation) with
  | some op =>
    rw [hop] at hcbor
    refine hread.trans ?_
    rw [decodeFramePayload, decodeCbor, show c.reqHeader.fromReader _ = _ from hcbor]
    rfl
  | none =>
    rw [hop] at hcbor
    obtain ⟨message, hmessage⟩ := hcbor
    refine ⟨message, hread.trans ?_⟩
    rw [decodeFramePayload, decodeCbor, hmessage]
    rfl

theorem readRequest_unknown
    (hunknown : variant serdeOperation operations (.string operation) = none) :
    ∃ message, ((readRequest c).exec (executeRequest marshal operation (payloadModeText mode)
      params body)).1 = .error (.invalidFrame message) := by
  have hread := exec_readFrame_request hcbor hsize
    ((if body.length > 0 then goFrame 0x12 body else []) ++ goFrame 0x13 [])
  rw [hunknown] at hread
  obtain ⟨message, hread⟩ := hread
  refine ⟨message, ?_⟩
  rw [readRequest, executeRequest, List.append_assoc, exec_bind, hread]

theorem readRequest_known
    (hknown : variant serdeOperation operations (.string operation) = some op) :
    ∃ fuel, ((readRequest c).exec (executeRequest marshal operation (payloadModeText mode) params
        body)).1 = (expectedHeader op mode params body, ·) <$>
      ((readBody c (nativeBodyLimit (expectedHeader op mode params body)) (fuel + 2) []).exec
        ((if body.length > 0 then goFrame 0x12 body else []) ++ goFrame 0x13 [])).1 := by
  have hread := exec_readFrame_request hcbor hsize
    ((if body.length > 0 then goFrame 0x12 body else []) ++ goFrame 0x13 [])
  rw [hknown] at hread
  dsimp only at hread
  rw [readRequest, executeRequest, List.append_assoc, exec_bind_ok hread]
  generalize hrest : (if body.length > 0 then goFrame 0x12 body else []) ++ goFrame 0x13 [] = rest
  obtain ⟨fuel, hfuel⟩ : ∃ fuel, rest.length + 1 = fuel + 2 := by
    refine ⟨rest.length - 1, ?_⟩
    have hlength : 5 ≤ rest.length := by simp [← hrest, goFrame, length_beBytes]
    omega
  refine ⟨fuel, ?_⟩
  rw [← hfuel]
  change (Stream.exec (readBody c (nativeBodyLimit (expectedHeader op mode params body))
    (rest.length + 1) [] >>= fun body' => pure (expectedHeader op mode params body, body'))
      rest).1 = _
  rw [exec_bind]
  generalize (readBody c (nativeBodyLimit (expectedHeader op mode params body))
    (rest.length + 1) []).exec rest = result
  obtain ⟨_ | _, _⟩ := result <;> rfl

/-- **The server understands a request of the client** exactly if the operation is spelled as serde
spells it: then it reads the header that the client means and the body. -/
theorem understood_iff
    (hbody : body.length ≤ nativeBodyLimit (expectedHeader op mode params body)) :
    ((readRequest c).exec (executeRequest marshal operation (payloadModeText mode) params body)).1 =
      .ok (expectedHeader op mode params body, body) ↔ operation = serdeOperation op := by
  rw [← variant_operation]
  cases hop : variant serdeOperation operations (.string operation) with
  | none =>
    obtain ⟨message, hmessage⟩ := readRequest_unknown hcbor hsize hop
    rw [hmessage]
    simp
  | some op' =>
    obtain ⟨fuel, hread⟩ := readRequest_known hcbor hsize hop
    rw [hread]
    constructor
    · intro h
      generalize ((readBody c (nativeBodyLimit (expectedHeader op' mode params body)) (fuel + 2)
        []).exec _).1 = result at h
      cases result with
      | error e => cases h
      | ok body' =>
        have hheader := congrArg Prod.fst (Except.ok.inj h)
        exact congrArg some (congrArg ReqHeader.operation hheader)
    · intro h
      cases h
      rw [exec_readBody hbody (hbody.trans (nativeBodyLimit_le _))]
      rfl

end Requests

/-- The constants of the client are no names of serde. -/
theorem operationText_unknown (op : OperationName) :
    variant serdeOperation operations (.string (operationText op)) = none := by
  cases op <;> decide

namespace Sample

mutual

/-- What `cbor.Marshal` writes. -/
def jsonCbor : JsonValue → List UInt8
  | .null => [0xf6]
  | .bool b => [if b then 0xf5 else 0xf4]
  | .posInt n => encodeMajor 0 n
  | .negInt n => encodeMajor 1 (.ofNat (-1 - n.toInt).toNat)
  | .float bits => 0xfb :: beBytes 8 bits.toNat
  | .string s => encodeMajor 3 (.ofNat (utf8 s).length) ++ utf8 s
  | .array items => encodeMajor 4 (.ofNat items.length) ++ jsonCborItems items
  | .object entries => encodeMajor 5 (.ofNat entries.length) ++ jsonCborEntries entries

def jsonCborItems : List JsonValue → List UInt8
  | [] => []
  | v :: vs => jsonCbor v ++ jsonCborItems vs

def jsonCborEntries : List (String × JsonValue) → List UInt8
  | [] => []
  | (k, v) :: es =>
    encodeMajor 3 (.ofNat (utf8 k).length) ++ utf8 k ++ (jsonCbor v ++ jsonCborEntries es)

end

def marshal (h : GoReqHeader) : List UInt8 := jsonCbor (.object h.entries)

/-- The parameters of a request for a chunk. -/
def chunkParams : GoMap where
  entries := [("session_id", .string "s"), ("chunk_index", .posInt 0)]
  nodup := by decide

def chunkHeader (operation : String) : GoReqHeader :=
  requestHeader operation "json" (some chunkParams) [1, 2]

/-- A request for a chunk in both spellings, and one without parameters for each constant. -/
def headers : List GoReqHeader :=
  chunkHeader "put-chunk" :: chunkHeader (operationText .putChunk) ::
    operations.map fun op => requestHeader (operationText op) "json" none []

/-- A library that reads the bytes of these headers. -/
def ciborium : Ciborium :=
  { Wire.Sample.ciborium with
    reqHeader := {
      intoWriter := fun _ => .error ""
      fromReader := fun bytes =>
        match (headers.find? (marshal · = bytes)).bind (readReqHeader ·.entries) with
        | some header => .ok header
        | none => .error "unknown variant"
      round_trip := nofun } }

theorem nodup_headers : (headers.map marshal).Nodup := by decide +kernel

theorem find?_headers {h : GoReqHeader} (hmem : h ∈ headers) :
    headers.find? (marshal · = marshal h) = some h := by
  cases hfind : headers.find? (marshal · = marshal h) with
  | none => simpa using List.find?_eq_none.1 hfind h hmem
  | some h' =>
    have hsame : marshal h' = marshal h := by simpa using List.find?_some hfind
    exact congrArg some
      (List.inj_on_of_nodup_map nodup_headers (List.mem_of_find?_eq_some hfind) hmem hsame)

theorem decodes_headers {h : GoReqHeader} (hmem : h ∈ headers) : Decodes ciborium marshal h := by
  have hread : ciborium.reqHeader.fromReader (marshal h) =
      match readReqHeader h.entries with
      | some header => .ok header
      | none => .error "unknown variant" := by
    simp only [ciborium, find?_headers hmem, Option.bind_some]
  rw [Decodes, hread]
  cases readReqHeader h.entries with
  | none => exact ⟨_, rfl⟩
  | some header => rfl

theorem length_marshal {h : GoReqHeader} (hmem : h ∈ headers) :
    (marshal h).length ≤ maxControlFrameLen := by
  have hall : ∀ bytes ∈ headers.map marshal, bytes.length ≤ maxControlFrameLen := by
    decide +kernel
  exact hall _ (List.mem_map_of_mem hmem)

theorem chunkHeader_mem :
    chunkHeader "put-chunk" ∈ headers ∧ chunkHeader (operationText .putChunk) ∈ headers :=
  ⟨List.mem_cons_self, List.mem_cons_of_mem _ List.mem_cons_self⟩

/-- A request for a chunk is understood in the spelling of serde, and not in that of the client. -/
theorem request_understood :
    ((readRequest ciborium).exec
      (executeRequest marshal "put-chunk" "json" (some chunkParams) [1, 2])).1 =
        .ok (expectedHeader .putChunk .json (some chunkParams) [1, 2], [1, 2]) ∧
    ((readRequest ciborium).exec
      (executeRequest marshal (operationText .putChunk) "json" (some chunkParams) [1, 2])).1 ≠
        .ok (expectedHeader .putChunk .json (some chunkParams) [1, 2], [1, 2]) := by
  obtain ⟨hserde, hclient⟩ := chunkHeader_mem
  constructor
  · exact (@understood_iff ciborium marshal "put-chunk" .putChunk .json _ _
      (decodes_headers hserde) (length_marshal hserde) (by decide)).2 rfl
  · intro h
    have hspelled := (@understood_iff ciborium marshal (operationText .putChunk) .putChunk .json _ _
      (decodes_headers hclient) (length_marshal hclient) (by decide)).1 h
    revert hspelled
    decide

theorem constant_rejected (op : OperationName) :
    Decodes ciborium marshal (requestHeader (operationText op) "json" none []) ∧
      ∃ message, ((readRequest ciborium).exec
        (executeRequest marshal (operationText op) "json" none [])).1 =
          .error (.invalidFrame message) := by
  have hmem : requestHeader (operationText op) "json" none [] ∈ headers :=
    List.mem_cons_of_mem _ (List.mem_cons_of_mem _
      (List.mem_map_of_mem (by cases op <;> decide)))
  exact ⟨decodes_headers hmem, @readRequest_unknown _ _ _ .json _ _
    (decodes_headers hmem) (length_marshal hmem) (operationText_unknown op)⟩

/-- The client's own `INFO` and `HEAD` are rejected. -/
theorem requests_rejected :
    (Decodes ciborium marshal (requestHeader "INFO" "json" none []) ∧
      ∃ message, ((readRequest ciborium).exec (executeRequest marshal "INFO" "json" none [])).1 =
        .error (.invalidFrame message)) ∧
    (Decodes ciborium marshal (requestHeader "HEAD" "json" none []) ∧
      ∃ message, ((readRequest ciborium).exec (executeRequest marshal "HEAD" "json" none [])).1 =
        .error (.invalidFrame message)) :=
  ⟨constant_rejected .info, constant_rejected .head⟩

end Sample

end Hsp.Sdk.Native
