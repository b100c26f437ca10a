import Hsp.Prog.Basic
import Hsp.Wire.Frame

/-!
# Frame streams round trip

Frames that are written one after the other are read back one after the other, each read taking
exactly the bytes of its frame:

* `decodeSettingsFrame_settings` : the decoder of SETTINGS inverts the derived encoder;
* `exec_readFrame` : one frame is read back, and what follows it is left alone;
* `frames_round_trip` : a whole stream.
-/

namespace Hsp.Wire

open List

variable {α β : Type} {payload bytes : List UInt8}

/-! ### Running readers and writers -/

/-- The result and the stream after a reader or a writer. -/
def Stream.exec (x : Stream α) (bytes : List UInt8) : Except WireCodecError α × List UInt8 :=
  x.run.run bytes

section Exec

variable {s s' : List UInt8}

theorem exec_bind (x : Stream α) (f : α → Stream β) (s : List UInt8) :
    (x >>= f).exec s = match x.exec s with
      | (.ok a, s') => (f a).exec s'
      | (.error e, s') => (.error e, s') := by
  have h : (x >>= f).exec s = Stream.exec (ExceptT.mk (ExceptT.bindCont f (x.exec s).1))
      (x.exec s).2 := rfl
  rw [h]
  rcases x.exec s with ⟨_ | _, _⟩ <;> rfl

theorem exec_bind_ok {x : Stream α} {f : α → Stream β} {a : α} (h : x.exec s = (.ok a, s')) :
    (x >>= f).exec s = (f a).exec s' := by
  rw [exec_bind, h]

@[simp] theorem exec_ofExcept (x : Except WireCodecError α) (s : List UInt8) :
    Stream.exec (MonadExcept.ofExcept x) s = (x, s) := by
  cases x <;> rfl

@[simp] theorem exec_pure (a : α) (s : List UInt8) :
    Stream.exec (pure a : Stream α) s = (.ok a, s) := rfl

@[simp] theorem exec_writeAll (bytes s : List UInt8) :
    (writeAll bytes).exec s = (.ok (), s ++ bytes) := rfl

theorem exec_readExact (n : ℕ) (s : List UInt8) : (readExact n).exec s =
    if s.length < n then (.error .unexpectedEof, []) else (.ok (s.take n), s.drop n) := by
  have h : (readExact n).exec s = Stream.exec (if s.length < n then do
      set ([] : List UInt8); throw .unexpectedEof else do set (s.drop n); return s.take n) s := rfl
  rw [h]
  split <;> rfl

theorem exec_readExact_append (bytes rest : List UInt8) :
    (readExact bytes.length).exec (bytes ++ rest) = (.ok bytes, rest) := by
  rw [exec_readExact, if_neg (by simp), take_left, drop_left]

end Exec

/-! ### Lengths -/

theorem foldl_beBytes (n v acc : ℕ) :
    (beBytes n v).foldl (fun n b => 256 * n + b.toNat) acc = 256 ^ n * acc + v % 256 ^ n := by
  induction n generalizing acc with
  | zero => simp [beBytes, Nat.mod_one]
  | succ n ih =>
    have hdigit : v % 256 ^ (n + 1) = 256 ^ n * (v / 256 ^ n % 256) + v % 256 ^ n := by
      rw [pow_succ, Nat.mod_mul]
      ring
    rw [beBytes, foldl_cons, ih, UInt8.toNat_ofNat', hdigit]
    ring

theorem fromBeBytes_beBytes {n v : ℕ} (h : v < 256 ^ n) : fromBeBytes (beBytes n v) = v := by
  rw [fromBeBytes, foldl_beBytes, Nat.mod_eq_of_lt h]
  simp

/-! ### SETTINGS -/

theorem settingsEntries_texts (fields : List (String × Value)) (seen : List String)
    (entries : BTreeMap String Value) (hnodup : (fields.map Prod.fst).Nodup)
    (hseen : ∀ f ∈ fields, f.1 ∉ seen) :
    ∃ collected, settingsEntries (fields.map fun (name, value) => (.text name, value)) seen
        entries = .ok collected ∧ (∀ f ∈ fields, collected[f.1]? = some f.2) ∧
      ∀ name, name ∉ fields.map Prod.fst → collected[name]? = entries[name]? := by
  induction fields generalizing seen entries with
  | nil => exact ⟨entries, rfl, nofun, fun _ _ => rfl⟩
  | cons f fields ih =>
    obtain ⟨name, value⟩ := f
    rw [map_cons, nodup_cons] at hnodup
    obtain ⟨hname, hnodup⟩ := hnodup
    obtain ⟨collected, hrun, hfields, hrest⟩ := ih (name :: seen) (entries.insert name value) hnodup
      fun f hf => by
        rw [mem_cons, not_or]
        refine ⟨?_, hseen f (mem_cons_of_mem _ hf)⟩
        exact fun he => hname (mem_map.2 ⟨f, hf, he⟩)
    refine ⟨collected, ?_, ?_, fun other hother => ?_⟩
    · rw [map_cons, settingsEntries, if_neg (hseen _ mem_cons_self)]
      exact hrun
    · rintro f (_ | ⟨_, hf⟩)
      · rw [hrest name hname]
        simp
      · exact hfields f hf
    · rw [map_cons, mem_cons, not_or] at hother
      rw [hrest other hother.2, Std.ExtTreeMap.getElem?_insert, if_neg]
      exact fun he => hother.1 (Std.LawfulEqCmp.eq_of_compare he).symm

section Required

variable {entries : BTreeMap String Value} {key : String}

theorem requiredU64_eq_ok {n : UInt64} :
    requiredU64 entries key = .ok n ↔ entries[key]? = some (.integer n.toNat) := by
  unfold requiredU64
  split
  · rename_i value hvalue
    have hn := n.toNat_lt
    rw [hvalue, Option.some.injEq, Value.integer.injEq]
    split
    · rw [Except.ok.injEq, ← UInt64.toNat_inj, UInt64.toNat_ofNat']
      omega
    · exact iff_of_false nofun (by omega)
  · simp_all

theorem requiredText_eq_ok {text : String} :
    requiredText entries key = .ok text ↔ text ≠ "" ∧ entries[key]? = some (.text text) := by
  unfold requiredText
  split
  · rename_i value hvalue
    rw [hvalue]
    split
    · rename_i hempty
      simp [String.isEmpty_iff.1 hempty, eq_comm]
    · rename_i hempty
      have hne : value ≠ "" := fun h => hempty (String.isEmpty_iff.2 h)
      simp only [Except.ok.injEq, Option.some.injEq, Value.text.injEq]
      exact ⟨fun h => ⟨h ▸ hne, h⟩, And.right⟩
  · simp_all

theorem requiredTextArray_eq_ok {texts : List String} :
    requiredTextArray entries key = .ok texts ↔
      entries[key]? = some (.array (texts.map .text)) := by
  unfold requiredTextArray
  split
  · rename_i values hvalues
    rw [hvalues]
    clear hvalues
    simp only [Option.some.injEq, Value.array.injEq]
    induction values generalizing texts with
    | nil => cases texts <;> simp [pure, Except.pure]
    | cons value values ih =>
      cases value <;> cases texts <;> simp [except_bind_eq_ok, ih, and_comm]
  · simp_all

end Required

variable {c : Ciborium}

theorem SettingsFrame.nodup_fields (s : SettingsFrame) : (s.fields.map Prod.fst).Nodup := by
  change List.Nodup ["max_chunk_size", "max_manifest_size", "max_object_size",
    "max_parallel_streams", "supported_chunkers", "supported_content_encodings",
    "supported_token_profiles", "supported_extensions", "server_instance_id",
    "event_replay_window_sec", "limits_revision"]
  decide +kernel

/-- **The decoder of SETTINGS inverts the derived encoder**, if the server has a name. -/
theorem decodeSettingsFrame_settings {s : SettingsFrame} (hname : s.serverInstanceId ≠ "")
    (h : c.settingsIntoWriter s = .ok payload) : decodeSettingsFrame c payload = .ok s := by
  obtain ⟨entries, hentries, hfields, -⟩ := settingsEntries_texts s.fields [] ∅
    s.nodup_fields (fun _ _ => not_mem_nil)
  simp only [SettingsFrame.fields, forall_mem_cons] at hfields
  obtain ⟨h₁, h₂, h₃, h₄, h₅, h₆, h₇, h₈, h₉, h₁₀, h₁₁, -⟩ := hfields
  have h₄' : entries["max_parallel_streams"]? =
      some (.integer s.maxParallelStreams.toUInt64.toNat) := by
    rw [UInt16.toNat_toUInt64]
    exact h₄
  have hvalue : invalidFrameError (c.valueFromReader payload) = .ok s.toValue := by
    rw [c.settings_value s payload h]
    rfl
  refine except_bind_eq_ok.2 ⟨_, hvalue, except_bind_eq_ok.2 ⟨_, hentries, ?_⟩⟩
  simp only [except_bind_eq_ok, requiredU64_eq_ok, requiredTextArray_eq_ok, requiredText_eq_ok]
  refine ⟨_, h₁, _, h₂, _, h₃, _, h₄', _, h₅, _, h₆, _, h₇, _, h₈, _, ⟨hname, h₉⟩, _, h₁₀, _, h₁₁,
    ?_⟩
  rw [UInt16.toUInt16_toUInt64]
  rfl

theorem settingsEntries_ok {map : List (Value × Value)} {seen : List String}
    {entries collected : BTreeMap String Value}
    (h : settingsEntries map seen entries = .ok collected) :
    (map.map Prod.fst).Nodup ∧ (∀ key ∈ seen, .text key ∉ map.map Prod.fst) ∧
      ∀ key value, collected[key]? = some value →
        (.text key, value) ∈ map ∨ entries[key]? = some value := by
  induction map generalizing seen entries with
  | nil =>
    cases h
    exact ⟨nodup_nil, fun _ _ => not_mem_nil, fun _ _ => .inr⟩
  | cons entry rest ih =>
    obtain ⟨name, value⟩ := entry
    cases name with
    | text name =>
      rw [settingsEntries, except_guard_eq_ok] at h
      obtain ⟨hname, h⟩ := h
      obtain ⟨hnodup, hseen, hstored⟩ := ih h
      refine ⟨nodup_cons.2 ⟨hseen name mem_cons_self, hnodup⟩, fun key hkey => ?_,
        fun key v hv => ?_⟩
      · rw [map_cons, mem_cons, not_or]
        exact ⟨fun he => hname (Value.text.inj he ▸ hkey), hseen key (mem_cons_of_mem _ hkey)⟩
      · rcases hstored key v hv with hmem | hentry
        · exact .inl (mem_cons_of_mem _ hmem)
        · rw [Std.ExtTreeMap.getElem?_insert] at hentry
          split at hentry
          · rename_i he
            rw [← Std.LawfulEqCmp.eq_of_compare he, Option.some.inj hentry]
            exact .inl mem_cons_self
          · exact .inr hentry
    | _ => cases h

/-- The fields are what the map holds, and the map holds no key twice. -/
def SettingsFrame.Faithful (s : SettingsFrame) (map : List (Value × Value)) : Prop :=
  (∀ f ∈ s.fields, (.text f.1, f.2) ∈ map) ∧ (map.map Prod.fst).Nodup

/-- **SETTINGS that are accepted are those of the map** exactly if the number of streams fits its
field. -/
theorem settings_faithful_iff {map : List (Value × Value)} {s : SettingsFrame}
    (hvalue : c.valueFromReader payload = .ok (.map map))
    (h : decodeSettingsFrame c payload = .ok s) :
    s.Faithful map ↔
      ∀ n : ℤ, (.text "max_parallel_streams", .integer n) ∈ map → n < 2 ^ 16 := by
  rw [decodeSettingsFrame, hvalue] at h
  obtain ⟨_, hmap, h⟩ := except_bind_eq_ok.1 h
  obtain rfl := Except.ok.inj hmap
  obtain ⟨entries, hentries, h⟩ := except_bind_eq_ok.1 h
  simp only [except_bind_eq_ok, requiredU64_eq_ok, requiredTextArray_eq_ok, requiredText_eq_ok]
    at h
  obtain ⟨_, h₁, _, h₂, _, h₃, streams, h₄, _, h₅, _, h₆, _, h₇, _, h₈, _, ⟨-, h₉⟩, _, h₁₀, _, h₁₁,
    h⟩ := h
  obtain rfl := Except.ok.inj h
  obtain ⟨hnodup, -, hstored⟩ := settingsEntries_ok hentries
  replace hstored (key : String) (value : Value) (hv : entries[key]? = some value) :
      (.text key, value) ∈ map := (hstored key value hv).resolve_right (by simp)
  constructor
  · rintro ⟨hfields, -⟩ n hn
    have hmem := hfields ("max_parallel_streams", .integer streams.toUInt16.toNat)
      (by simp [SettingsFrame.fields])
    obtain ⟨-, hn⟩ := Prod.mk.inj (inj_on_of_nodup_map hnodup hn hmem rfl)
    have hlt := streams.toUInt16.toNat_lt
    rw [Value.integer.inj hn]
    omega
  · intro hfits
    refine ⟨?_, hnodup⟩
    have hstreams : (streams.toUInt16.toNat : ℤ) = streams.toNat := by
      have hlt := hfits _ (hstored _ _ h₄)
      rw [UInt64.toNat_toUInt16]
      omega
    simp only [SettingsFrame.fields, forall_mem_cons, hstreams]
    exact ⟨hstored _ _ h₁, hstored _ _ h₂, hstored _ _ h₃, hstored _ _ h₄, hstored _ _ h₅,
      hstored _ _ h₆, hstored _ _ h₇, hstored _ _ h₈, hstored _ _ h₉, hstored _ _ h₁₀,
      hstored _ _ h₁₁, nofun⟩

/-! ### One frame -/

/-- The frame can be read back: SETTINGS must name the server. -/
def Frame.Named (f : Frame) : Prop := ∀ s, f = .settings s → s.serverInstanceId ≠ ""

theorem decodeCbor_encodeCbor {codec : SerdeCodec α} {a : α}
    (h : encodeCbor codec a = .ok payload) : decodeCbor codec payload = .ok a := by
  cases hw : codec.intoWriter a with
  | error e =>
    rw [encodeCbor, hw] at h
    cases h
  | ok bytes =>
    rw [encodeCbor, hw] at h
    cases h
    rw [decodeCbor, codec.round_trip a _ hw]
    rfl

theorem decodeFramePayload_encode {f : Frame} (hf : f.Named)
    (h : encodeFramePayload c f = .ok payload) :
    decodeFramePayload c f.frameType payload = .ok f := by
  cases f with
  | settings s =>
    cases hw : c.settingsIntoWriter s with
    | error e =>
      rw [encodeFramePayload, hw] at h
      cases h
    | ok bytes =>
      rw [encodeFramePayload, hw] at h
      cases h
      simp only [Frame.frameType, decodeFramePayload, decodeSettingsFrame_settings (hf s rfl) hw]
      rfl
  | data bytes =>
    cases h
    rfl
  | «end» =>
    cases h
    rfl
  | error e => simp only [Frame.frameType, decodeFramePayload, decodeCbor_encodeCbor h]; rfl
  | notice e => simp only [Frame.frameType, decodeFramePayload, decodeCbor_encodeCbor h]; rfl
  | reqHeader e => simp only [Frame.frameType, decodeFramePayload, decodeCbor_encodeCbor h]; rfl
  | resHeader e => simp only [Frame.frameType, decodeFramePayload, decodeCbor_encodeCbor h]; rfl
  | event e => simp only [Frame.frameType, decodeFramePayload, decodeCbor_encodeCbor h]; rfl
  | auth e => simp only [Frame.frameType, decodeFramePayload, decodeCbor_encodeCbor h]; rfl
  | goAway e => simp only [Frame.frameType, decodeFramePayload, decodeCbor_encodeCbor h]; rfl

variable (c) in
/-- The bytes of a frame: its header and its payload. -/
def frameBytes (f : Frame) : Except WireCodecError (List UInt8) := do
  let payload ← encodeFramePayload c f
  enforceFrameLen f.frameType payload.length
  return f.frameType.toByte :: beBytes 4 payload.length ++ payload

/-- A frame is written by appending its bytes, or nothing is written. -/
theorem exec_writeFrame (f : Frame) (s : List UInt8) :
    (writeFrame c f).exec s = match frameBytes c f with
      | .ok bytes => (.ok (), s ++ bytes)
      | .error e => (.error e, s) := by
  rw [writeFrame, frameBytes, exec_bind, exec_ofExcept]
  cases encodeFramePayload c f with
  | error e => rfl
  | ok payload =>
    dsimp only
    rw [exec_bind, exec_ofExcept]
    cases hlen : enforceFrameLen f.frameType payload.length with
    | error e => simp [hlen]
    | ok _ =>
      simp only [exec_bind_ok (exec_writeAll _ _), except_ok_bind, hlen]
      cases payload with
      | nil => simp
      | cons b payload => simp

theorem length_lt_of_enforceFrameLen {t : FrameType} {n : ℕ} (h : enforceFrameLen t n = .ok ()) :
    n < 256 ^ 4 := by
  have hmax : n ≤ 8 * 1024 * 1024 := by
    cases t <;> simpa [enforceFrameLen, maxDataFrameLen, maxControlFrameLen] using h
  omega

theorem exec_readFrame_payload {t : FrameType} (hlen : enforceFrameLen t payload.length = .ok ())
    (rest : List UInt8) :
    (readFrame c).exec (t.toByte :: beBytes 4 payload.length ++ payload ++ rest) =
      (decodeFramePayload c t payload, rest) := by
  have hlt := length_lt_of_enforceFrameLen hlen
  have hheader := exec_readExact_append (t.toByte :: beBytes 4 payload.length) (payload ++ rest)
  rw [length_cons, length_beBytes] at hheader
  rw [readFrame, append_assoc, exec_bind_ok hheader, headD_cons, tail_cons,
    FrameType.tryFrom_toByte, fromBeBytes_beBytes hlt, exec_bind_ok (exec_ofExcept _ _)]
  dsimp only
  rw [hlen, exec_bind_ok (exec_ofExcept _ _)]
  split
  · rw [exec_bind_ok (exec_readExact_append payload rest), exec_ofExcept]
  · -- An empty payload is not read at all.
    rename_i hempty
    obtain rfl := length_eq_zero_iff.1 (Nat.eq_zero_of_not_pos hempty)
    rw [exec_bind_ok (exec_pure _ _), exec_ofExcept]
    rfl

/-- **A frame is read back, and what follows it is left alone.** -/
theorem exec_readFrame {f : Frame} (hf : f.Named) (h : frameBytes c f = .ok bytes)
    (rest : List UInt8) : (readFrame c).exec (bytes ++ rest) = (.ok f, rest) := by
  rw [frameBytes, except_bind_eq_ok] at h
  obtain ⟨payload, hpayload, h⟩ := h
  rw [except_bind_eq_ok] at h
  obtain ⟨_, hlen, h⟩ := h
  cases h
  rw [exec_readFrame_payload hlen, decodeFramePayload_encode hf hpayload]

/-! ### Streams -/

variable (c) in
/-- The result of writing frames one after the other, and the bytes that were written. -/
def written (frames : List Frame) : Except WireCodecError Unit × List UInt8 :=
  Stream.exec (frames.forM (writeFrame c)) []

variable (c) in
/-- Frames are read, one after the other and as long as no read fails, at most as many as given.
The result consists of the frames, of the error that ended the reading, and of the bytes that were
not read. -/
def readFrames : ℕ → List UInt8 → List Frame × Option WireCodecError × List UInt8
  | 0, input => ([], none, input)
  | n + 1, input =>
    match (readFrame c).exec input with
    | (.error e, rest) => ([], some e, rest)
    | (.ok frame, rest) =>
      let (frames, ended, rest) := readFrames n rest
      (frame :: frames, ended, rest)

/-- The frames can be written, and these are their bytes. -/
inductive WrittenAs (c : Ciborium) : List Frame → List UInt8 → Prop
  | nil : WrittenAs c [] []
  | cons {f : Frame} {frames : List Frame} {bytes rest : List UInt8}
      (h : frameBytes c f = .ok bytes) (hrest : WrittenAs c frames rest) :
      WrittenAs c (f :: frames) (bytes ++ rest)

theorem exec_writeFrames (frames : List Frame) (s s' : List UInt8) :
    Stream.exec (frames.forM (writeFrame c)) s = (.ok (), s') ↔
      ∃ bytes, WrittenAs c frames bytes ∧ s' = s ++ bytes := by
  induction frames generalizing s with
  | nil =>
    constructor
    · intro h
      cases h
      exact ⟨[], .nil, by simp⟩
    · rintro ⟨_, ⟨⟩, rfl⟩
      simp
  | cons f frames ih =>
    change Stream.exec (writeFrame c f >>= fun _ => frames.forM (writeFrame c)) s = _ ↔ _
    rw [exec_bind, exec_writeFrame]
    cases hf : frameBytes c f with
    | error e =>
      constructor
      · intro h
        cases h
      · rintro ⟨_, hw, -⟩
        cases hw with
        | cons hf' _ =>
          rw [hf] at hf'
          cases hf'
    | ok bytes =>
      dsimp only
      rw [ih]
      constructor
      · rintro ⟨rest, hrest, rfl⟩
        exact ⟨bytes ++ rest, .cons hf hrest, by simp⟩
      · rintro ⟨_, hw, rfl⟩
        cases hw with
        | cons hf' hrest =>
          rw [hf] at hf'
          cases hf'
          exact ⟨_, hrest, by simp⟩

theorem written_iff {frames : List Frame} :
    (written c frames).1 = .ok () ↔ WrittenAs c frames (written c frames).2 := by
  have h := exec_writeFrames (c := c) frames [] (written c frames).2
  simp only [nil_append, exists_eq_right'] at h
  rw [← h]
  exact ⟨fun hok => Prod.ext hok rfl, congrArg Prod.fst⟩

theorem WrittenAs.append {pre post : List Frame} (h : WrittenAs c (pre ++ post) bytes) :
    ∃ rest, WrittenAs c post rest := by
  induction pre generalizing bytes with
  | nil => exact ⟨bytes, h⟩
  | cons f pre ih =>
    cases h with
    | cons _ hrest => exact ih hrest

/-- The bytes of frames are read back as the frames, and then the input has ended. -/
theorem readFrames_written {frames : List Frame} (h : WrittenAs c frames bytes)
    (hnamed : ∀ f ∈ frames, f.Named) :
    readFrames c (frames.length + 1) bytes = (frames, some .unexpectedEof, []) := by
  induction h with
  | nil => rfl
  | cons hf _ ih =>
    rw [length_cons, readFrames, exec_readFrame (hnamed _ mem_cons_self) hf]
    dsimp only
    rw [ih fun f hmem => hnamed f (mem_cons_of_mem _ hmem)]

/-- **Frame streams round trip**: frames that could all be written are read back in order, and then
the input has ended; and the read of each frame leaves exactly the bytes of the frames after it. -/
theorem frames_round_trip (c : Ciborium) (frames : List Frame)
    (hnamed : ∀ s, .settings s ∈ frames → s.serverInstanceId ≠ "")
    (hwritten : (written c frames).1 = .ok ()) :
    readFrames c (frames.length + 1) (written c frames).2 = (frames, some .unexpectedEof, []) ∧
      ∀ pre f post, frames = pre ++ f :: post →
        (readFrame c).exec (written c (f :: post)).2 = (.ok f, (written c post).2) := by
  have hall : ∀ f ∈ frames, f.Named := fun f hf s hs => hnamed s (hs ▸ hf)
  have hbytes := written_iff.1 hwritten
  refine ⟨readFrames_written hbytes hall, ?_⟩
  rintro pre f post rfl
  obtain ⟨_, hrest⟩ := hbytes.append
  cases hrest with
  | @cons _ _ bytes rest hf hpost =>
    have htail : (written c (f :: post)).2 = bytes ++ (written c post).2 := by
      have h₁ := (exec_writeFrames (c := c) (f :: post) [] (bytes ++ rest)).2
        ⟨_, .cons hf hpost, rfl⟩
      have h₂ := (exec_writeFrames (c := c) post [] rest).2 ⟨_, hpost, rfl⟩
      rw [written, h₁, written, h₂]
    rw [htail]
    exact exec_readFrame (hall f (by simp)) hf _

namespace Sample

def settings : SettingsFrame where
  maxChunkSize := 1
  maxManifestSize := 2
  maxObjectSize := 3
  maxParallelStreams := 4
  supportedChunkers := ["fixed"]
  supportedContentEncodings := []
  supportedTokenProfiles := []
  supportedExtensions := []
  serverInstanceId := "s"
  eventReplayWindowSec := 5
  limitsRevision := 6

mutual

/-- What `ciborium` writes. -/
def cborBytes : Value → List UInt8
  | .integer n =>
    if 0 ≤ n then encodeMajor 0 (.ofNat n.toNat) else encodeMajor 1 (.ofNat (-1 - n).toNat)
  | .text s => encodeMajor 3 (.ofNat (utf8 s).length) ++ utf8 s
  | .array items => encodeMajor 4 (.ofNat items.length) ++ cborItems items
  | .map entries => encodeMajor 5 (.ofNat entries.length) ++ cborEntries entries
  | .other => [0xf6]

def cborItems : List Value → List UInt8
  | [] => []
  | v :: vs => cborBytes v ++ cborItems vs

def cborEntries : List (Value × Value) → List UInt8
  | [] => []
  | (k, v) :: es => cborBytes k ++ (cborBytes v ++ cborEntries es)

end

/-- A type whose values cannot be written. -/
def noCodec (α : Type) : SerdeCodec α := ⟨fun _ => .error "", fun _ => .error "", nofun⟩

/-- Only the settings can be written and read. -/
def ciborium : Ciborium where
  error := noCodec _
  notice := noCodec _
  reqHeader := noCodec _
  resHeader := noCodec _
  event := noCodec _
  auth := noCodec _
  goAway := noCodec _
  settingsIntoWriter s := if s = settings then .ok (cborBytes s.toValue) else .error ""
  valueFromReader bytes :=
    if bytes = cborBytes settings.toValue then .ok settings.toValue else .error ""
  settings_value := by
    intro s bytes h
    split at h
    · rename_i hs
      obtain rfl := Except.ok.inj h
      rw [hs, if_pos rfl]
    · cases h

theorem settings_faithful :
    decodeSettingsFrame ciborium (cborBytes settings.toValue) = .ok settings ∧
      settings.Faithful (settings.fields.map fun (name, value) => (.text name, value)) := by
  have hwritten : ciborium.settingsIntoWriter settings = .ok (cborBytes settings.toValue) := by
    simp [ciborium]
  have h := decodeSettingsFrame_settings (by decide) hwritten
  exact ⟨h, (settings_faithful_iff (ciborium.settings_value _ _ hwritten) h).2
    (by simp [SettingsFrame.fields, settings])⟩

/-- A map with more streams than the field can count. -/
def overfull : List (Value × Value) :=
  settings.fields.map fun (name, value) =>
    (.text name, if name = "max_parallel_streams" then .integer 65540 else value)

theorem streams_cut :
    decodeSettingsFrame { ciborium with
      settingsIntoWriter := fun _ => .error ""
      valueFromReader := fun bytes =>
        if bytes = cborBytes (.map overfull) then .ok (.map overfull) else .error ""
      settings_value := nofun } (cborBytes (.map overfull)) = .ok settings ∧
    ¬ settings.Faithful overfull := by
  refine ⟨by decide +kernel, fun h => ?_⟩
  have hmem := h.1 ("max_parallel_streams", .integer 4) (by simp [SettingsFrame.fields, settings])
  simp [overfull, SettingsFrame.fields] at hmem

/-- Three frames, one of them without a payload. -/
def frames : List Frame := [.settings settings, .data [1, 2], .end]

theorem round_trip_three :
    (written ciborium frames).2 = [1, 0, 0, 0, 243] ++ cborBytes settings.toValue ++
        [0x12, 0, 0, 0, 2, 1, 2, 0x13, 0, 0, 0, 0] ∧
      readFrames ciborium 4 (written ciborium frames).2 = (frames, some .unexpectedEof, []) :=
  ⟨by decide +kernel, (frames_round_trip ciborium frames (by simp [frames, settings])
    (by decide +kernel)).1⟩

end Sample

end Hsp.Wire
