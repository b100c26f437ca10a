import Hsp.Core.Types

/-!
# Frames

The framing of `hsp-wire`.  A frame is a header of five bytes, its type and the length of its
payload, followed by the payload.  Payloads are CBOR, written by serde and `ciborium`, which are
parameters; the payload of SETTINGS is read back by a decoder of its own, `decodeSettingsFrame`.

A reader is a function of the bytes that have not been read yet, and a writer one of the bytes
that have been written.
-/

namespace Hsp.Wire

def maxControlFrameLen : ℕ := 8 * 1024 * 1024

def maxDataFrameLen : ℕ := 8 * 1024 * 1024

inductive FrameType where
  | settings | error | notice | reqHeader | resHeader | data | «end» | event | ack | auth | goAway
  deriving DecidableEq

inductive WireCodecError where
  /-- The input ended before as many bytes were read as were asked for. -/
  | unexpectedEof
  | invalidFrameType (value : UInt8)
  | invalidFrame (message : String)
  | oversizedFrame (frameType : FrameType) (length : ℕ)
  deriving DecidableEq

namespace FrameType

def toByte : FrameType → UInt8
  | .settings => 0x01
  | .error => 0x02
  | .notice => 0x03
  | .reqHeader => 0x10
  | .resHeader => 0x11
  | .data => 0x12
  | .end => 0x13
  | .event => 0x14
  | .ack => 0x15
  | .auth => 0x16
  | .goAway => 0x17

def tryFrom (value : UInt8) : Except WireCodecError FrameType :=
  match value.toNat with
  | 0x01 => .ok .settings
  | 0x02 => .ok .error
  | 0x03 => .ok .notice
  | 0x10 => .ok .reqHeader
  | 0x11 => .ok .resHeader
  | 0x12 => .ok .data
  | 0x13 => .ok .end
  | 0x14 => .ok .event
  | 0x15 => .ok .ack
  | 0x16 => .ok .auth
  | 0x17 => .ok .goAway
  | _ => .error (.invalidFrameType value)

theorem tryFrom_toByte (t : FrameType) : tryFrom t.toByte = .ok t := by
  cases t <;> rfl

end FrameType

/-! ### Payloads -/

structure SettingsFrame where
  maxChunkSize : UInt64
  maxManifestSize : UInt64
  maxObjectSize : UInt64
  maxParallelStreams : UInt16
  supportedChunkers : List String
  supportedContentEncodings : List String
  supportedTokenProfiles : List String
  supportedExtensions : List String
  serverInstanceId : String
  eventReplayWindowSec : UInt64
  limitsRevision : UInt64
  deriving DecidableEq

/-- `serde_json::Value`. -/
inductive JsonValue where
  | null
  | bool (b : Bool)
  | posInt (n : UInt64)
  | negInt (n : Int64)
  | float (bits : UInt64)
  | string (s : String)
  | array (items : List JsonValue)
  | object (entries : List (String × JsonValue))

inductive PayloadMode where
  | none | json | raw | chunkStream
  deriving DecidableEq

structure ReqHeader where
  version : UInt8
  operation : OperationName
  requestId : Option UInt64
  payloadMode : Option PayloadMode
  payloadLength : Option UInt64
  params : BTreeMap String JsonValue
  extensions : BTreeMap String JsonValue

structure ResHeader where
  version : UInt8
  statusCode : UInt16
  requestId : Option UInt64
  payloadMode : Option PayloadMode
  payloadLength : Option UInt64
  «meta» : BTreeMap String JsonValue
  extensions : BTreeMap String JsonValue

structure WireErrorFrame where
  category : ApiErrorCategory
  code : String
  message : String

structure GoAwayFrame where
  reason : String

structure AuthFrame where
  tokenB64 : String
  channelBinding : ChannelBindingProof

/-- A frame.  There is no frame of the reserved type `Ack`. -/
inductive Frame where
  | settings (settings : SettingsFrame)
  | error (error : WireErrorFrame)
  | notice (notice : NoticeFrame)
  | reqHeader (header : ReqHeader)
  | resHeader (header : ResHeader)
  | data (bytes : List UInt8)
  | «end»
  | event (event : EventRecord)
  | auth (auth : AuthFrame)
  | goAway (goAway : GoAwayFrame)

def Frame.frameType : Frame → FrameType
  | .settings _ => .settings
  | .error _ => .error
  | .notice _ => .notice
  | .reqHeader _ => .reqHeader
  | .resHeader _ => .resHeader
  | .data _ => .data
  | .end => .end
  | .event _ => .event
  | .auth _ => .auth
  | .goAway _ => .goAway

/-- `ciborium::Value`, as far as SETTINGS looks at it. -/
inductive Value where
  | integer (n : ℤ)
  | text (s : String)
  | array (items : List Value)
  | map (entries : List (Value × Value))
  | other

/-- The derived `Serialize` of SETTINGS: a map from the names of the fields, in their order. -/
def SettingsFrame.fields (s : SettingsFrame) : List (String × Value) :=
  [("max_chunk_size", .integer s.maxChunkSize.toNat),
    ("max_manifest_size", .integer s.maxManifestSize.toNat),
    ("max_object_size", .integer s.maxObjectSize.toNat),
    ("max_parallel_streams", .integer s.maxParallelStreams.toNat),
    ("supported_chunkers", .array (s.supportedChunkers.map .text)),
    ("supported_content_encodings", .array (s.supportedContentEncodings.map .text)),
    ("supported_token_profiles", .array (s.supportedTokenProfiles.map .text)),
    ("supported_extensions", .array (s.supportedExtensions.map .text)),
    ("server_instance_id", .text s.serverInstanceId),
    ("event_replay_window_sec", .integer s.eventReplayWindowSec.toNat),
    ("limits_revision", .integer s.limitsRevision.toNat)]

def SettingsFrame.toValue (s : SettingsFrame) : Value :=
  .map (s.fields.map fun (name, value) => (.text name, value))

/-- How serde and `ciborium` write and read the values of a type.  What was written is read
back. -/
structure SerdeCodec (α : Type) where
  intoWriter : α → Except String (List UInt8)
  fromReader : List UInt8 → Except String α
  round_trip : ∀ a bytes, intoWriter a = .ok bytes → fromReader bytes = .ok a

/-- serde and `ciborium` at the types of the payloads. -/
structure Ciborium where
  error : SerdeCodec WireErrorFrame
  notice : SerdeCodec NoticeFrame
  reqHeader : SerdeCodec ReqHeader
  resHeader : SerdeCodec ResHeader
  event : SerdeCodec EventRecord
  auth : SerdeCodec AuthFrame
  goAway : SerdeCodec GoAwayFrame
  settingsIntoWriter : SettingsFrame → Except String (List UInt8)
  valueFromReader : List UInt8 → Except String Value
  /-- SETTINGS are read back as the value their `Serialize` describes. -/
  settings_value : ∀ s bytes, settingsIntoWriter s = .ok bytes →
    valueFromReader bytes = .ok s.toValue

/-! ### SETTINGS -/

/-- The loop over the entries of the map: keys must be texts, and none may come twice. -/
def settingsEntries : List (Value × Value) → (seen : List String) →
    (entries : BTreeMap String Value) → Except WireCodecError (BTreeMap String Value)
  | [], _, entries => .ok entries
  | (.text key, value) :: rest, seen, entries =>
    if key ∈ seen then .error (.invalidFrame ("duplicate SETTINGS key: " ++ key))
    else settingsEntries rest (key :: seen) (entries.insert key value)
  | _ :: _, _, _ => .error (.invalidFrame "SETTINGS keys must be text")

def requiredU64 (entries : BTreeMap String Value) (key : String) :
    Except WireCodecError UInt64 :=
  match entries[key]? with
  | some (.integer value) =>
    if 0 ≤ value ∧ value < 2 ^ 64 then .ok (.ofNat value.toNat)
    else .error (.invalidFrame ("SETTINGS " ++ key ++ " must be unsigned"))
  | _ => .error (.invalidFrame ("SETTINGS " ++ key ++ " is missing or not an integer"))

def requiredText (entries : BTreeMap String Value) (key : String) :
    Except WireCodecError String :=
  let missing : WireCodecError :=
    .invalidFrame ("SETTINGS " ++ key ++ " is missing or not a text string")
  match entries[key]? with
  | some (.text value) => if value.isEmpty then .error missing else .ok value
  | _ => .error missing

def requiredTextArray (entries : BTreeMap String Value) (key : String) :
    Except WireCodecError (List String) :=
  match entries[key]? with
  | some (.array values) => values.mapM fun
    | .text text => .ok text
    | _ => .error (.invalidFrame ("SETTINGS " ++ key ++ " must contain only text values"))
  | _ => .error (.invalidFrame ("SETTINGS " ++ key ++ " is missing or not an array"))

def invalidFrameError {α : Type} (x : Except String α) : Except WireCodecError α :=
  x.mapError .invalidFrame

variable (c : Ciborium)

def decodeSettingsFrame (payload : List UInt8) : Except WireCodecError SettingsFrame := do
  match ← invalidFrameError (c.valueFromReader payload) with
  | .map map =>
    let entries ← settingsEntries map [] ∅
    let maxChunkSize ← requiredU64 entries "max_chunk_size"
    let maxManifestSize ← requiredU64 entries "max_manifest_size"
    let maxObjectSize ← requiredU64 entries "max_object_size"
    let maxParallelStreams ← requiredU64 entries "max_parallel_streams"
    let supportedChunkers ← requiredTextArray entries "supported_chunkers"
    let supportedContentEncodings ← requiredTextArray entries "supported_content_encodings"
    let supportedTokenProfiles ← requiredTextArray entries "supported_token_profiles"
    let supportedExtensions ← requiredTextArray entries "supported_extensions"
    let serverInstanceId ← requiredText entries "server_instance_id"
    let eventReplayWindowSec ← requiredU64 entries "event_replay_window_sec"
    let limitsRevision ← requiredU64 entries "limits_revision"
    return {
      maxChunkSize, maxManifestSize, maxObjectSize
      -- The number is cut to sixteen bits, not checked to fit them.
      maxParallelStreams := maxParallelStreams.toUInt16
      supportedChunkers, supportedContentEncodings, supportedTokenProfiles, supportedExtensions
      serverInstanceId, eventReplayWindowSec, limitsRevision }
  | _ => throw (.invalidFrame "SETTINGS payload must be a CBOR map")

/-! ### Frames -/

def encodeCbor {α : Type} (codec : SerdeCodec α) (value : α) :
    Except WireCodecError (List UInt8) := invalidFrameError (codec.intoWriter value)

def decodeCbor {α : Type} (codec : SerdeCodec α) (payload : List UInt8) :
    Except WireCodecError α := invalidFrameError (codec.fromReader payload)

def enforceFrameLen (frameType : FrameType) (length : ℕ) : Except WireCodecError Unit :=
  let maxLen := match frameType with
    | .data => maxDataFrameLen
    | _ => maxControlFrameLen
  if length > maxLen then .error (.oversizedFrame frameType length) else .ok ()

def encodeFramePayload : Frame → Except WireCodecError (List UInt8)
  | .settings settings => invalidFrameError (c.settingsIntoWriter settings)
  | .error error => encodeCbor c.error error
  | .notice notice => encodeCbor c.notice notice
  | .reqHeader header => encodeCbor c.reqHeader header
  | .resHeader header => encodeCbor c.resHeader header
  | .data bytes => .ok bytes
  | .end => .ok []
  | .event event => encodeCbor c.event event
  | .auth auth => encodeCbor c.auth auth
  | .goAway goAway => encodeCbor c.goAway goAway

def decodeFramePayload (frameType : FrameType) (payload : List UInt8) :
    Except WireCodecError Frame :=
  match frameType with
  | .settings => .settings <$> decodeSettingsFrame c payload
  | .error => .error <$> decodeCbor c.error payload
  | .notice => .notice <$> decodeCbor c.notice payload
  | .reqHeader => .reqHeader <$> decodeCbor c.reqHeader payload
  | .resHeader => .resHeader <$> decodeCbor c.resHeader payload
  | .data => .ok (.data payload)
  | .end =>
    if !payload.isEmpty then .error (.invalidFrame "END frame must not carry payload") else .ok .end
  | .event => .event <$> decodeCbor c.event payload
  | .auth => .auth <$> decodeCbor c.auth payload
  | .goAway => .goAway <$> decodeCbor c.goAway payload
  | .ack => .error (.invalidFrame "Ack is reserved in beta runtime")

/-! ### Streams -/

/-- A piece of code that reads or writes a stream of bytes. -/
abbrev Stream (α : Type) := ExceptT WireCodecError (StateM (List UInt8)) α

/-- `write_all`: the bytes are appended to what has been written. -/
def writeAll (bytes : List UInt8) : Stream Unit := modify (· ++ bytes)

/-- `read_exact`: as many of the bytes that have not been read.  If there are fewer, all of them are
consumed. -/
def readExact (n : ℕ) : Stream (List UInt8) := do
  let input ← getThe (List UInt8)
  if input.length < n then
    set ([] : List UInt8)
    throw .unexpectedEof
  else
    set (input.drop n)
    return input.take n

/-- `from_be_bytes`. -/
def fromBeBytes (bytes : List UInt8) : ℕ := bytes.foldl (fun n b => 256 * n + b.toNat) 0

def writeFrame (frame : Frame) : Stream Unit := do
  let payload ← MonadExcept.ofExcept (encodeFramePayload c frame)
  MonadExcept.ofExcept (enforceFrameLen frame.frameType payload.length)
  writeAll (frame.frameType.toByte :: beBytes 4 payload.length)
  if !payload.isEmpty then writeAll payload

def readFrame : Stream Frame := do
  let header ← readExact 5
  let frameType ← MonadExcept.ofExcept (FrameType.tryFrom (header.headD 0))
  let length := fromBeBytes header.tail
  MonadExcept.ofExcept (enforceFrameLen frameType length)
  let payload ← if length > 0 then readExact length else pure []
  MonadExcept.ofExcept (decodeFramePayload c frameType payload)

end Hsp.Wire
