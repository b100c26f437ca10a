import Hsp.Object.Content

/-!
# Reads of a range

`GET` goes over the chunks of a manifest and returns the part of each that lies in the range, with
inclusive ends and saturating arithmetic.

* `range_read_exact` : if the chunks follow one another and their lengths are those of the stored
  bytes, the fragments make up the bytes of the range, and their descriptors tile it;
* `range_arithmetic_safe` : whatever the offsets and lengths of the manifest are, the
  one addition that does not saturate does not overflow, and a fragment is as long as its descriptor
  says and lies in the range;
* `fragments_addressed_iff` : what the fragments have to do with the identifiers they are returned
  under, if stored chunks have been replaced by others.
-/

namespace Hsp

open List World UInt64

variable {env : Env} {offset len last : ℕ} {refs : List ChunkRef} {contents : List (List UInt8)}
  {range : Option RangeSpec} {d : GetChunkDescriptor} {request : GetRequest} {m : Manifest}
  {first : ℕ}

/-! ### Chunks that follow one another -/

/-- The chunks follow one another from an offset on, and these are their bytes. -/
def Contiguous : ℕ → List ChunkRef → List (List UInt8) → Prop
  | _, [], [] => True
  | offset, ref :: refs, bytes :: contents =>
    ref.offset.toNat = offset ∧ 1 ≤ ref.logicalLen.toNat ∧
      ref.logicalLen.toNat = bytes.length ∧ Contiguous (offset + bytes.length) refs contents
  | _, _, _ => False

/-- The object is made of chunks that follow one another and hold these bytes. -/
structure Manifest.Laid (m : Manifest) (contents : List (List UInt8)) : Prop where
  contiguous : Contiguous 0 m.chunkRefs contents
  size : m.logicalSize.toNat = contents.flatten.length

/-- The logical ranges of the descriptors follow one another from `first` to `stop`. -/
def Tiles : (first stop : ℕ) → List GetChunkDescriptor → Prop
  | first, stop, [] => first = stop
  | first, stop, d :: ds =>
    d.logicalRangeStart = first ∧ first ≤ d.logicalRangeEnd ∧ Tiles (d.logicalRangeEnd + 1) stop ds

/-- The positions a request asks for, up to but not including the second. -/
def requestedSpan (size : ℕ) : Option RangeSpec → ℕ × ℕ
  | some range => (range.start.toNat, range.end.toNat + 1)
  | none => (0, size)

section Cut

variable {first last : ℕ}

theorem take_min_max {α : Type} (first stop : ℕ) (bytes : List α) :
    bytes.take (min stop (max first bytes.length)) = bytes.take stop := by
  rcases le_total stop (max first bytes.length) with h | h
  · rw [min_eq_left h]
  · rw [min_eq_right h, take_of_length_le (le_max_right _ _),
      take_of_length_le ((le_max_right _ _).trans h)]

/-- The parts of contiguous chunks in a range make up the bytes of the range. -/
theorem cutChunks_of_contiguous (h : Contiguous offset refs contents) :
    cutChunks first last refs contents =
      (contents.flatten.take (last + 1 - offset)).drop (first - offset) := by
  induction refs generalizing offset contents with
  | nil =>
    cases contents with
    | nil => simp [cutChunks]
    | cons bytes contents => exact h.elim
  | cons ref refs ih =>
    cases contents with
    | nil => exact h.elim
    | cons bytes contents =>
      obtain ⟨hoffset, hpos, hlen, hrest⟩ := h
      have hcons : cutChunks first last (ref :: refs) (bytes :: contents) =
          ref.cut first last bytes ++ cutChunks first last refs contents := rfl
      have htake : bytes.take (min (last + 1 - offset) (max ref.logicalLen.toNat 1)) =
          bytes.take (last + 1 - offset) := by
        rw [Nat.max_eq_left hpos, hlen, ← take_take, take_length]
      have hleft : last + 1 - offset - bytes.length = last + 1 - (offset + bytes.length) :=
        Nat.sub_sub _ _ _
      rw [hcons, ih hrest, ChunkRef.cut, hoffset, htake, flatten_cons, take_append,
        drop_append, hleft]
      congr 1
      -- The range ends in this chunk, or it takes all of the chunk.
      by_cases hend : last + 1 ≤ offset + bytes.length
      · simp [Nat.sub_eq_zero_of_le hend]
      · have hall : first - offset - (bytes.take (last + 1 - offset)).length =
            first - (offset + bytes.length) := by
          rw [length_take]
          omega
        rw [hall]

end Cut

section Fragments

variable {first last : ℕ} {w : World} {t : TenantId}

/-- The piece of the range that a chunk covers, from where the chunks before it have stopped. -/
theorem tile_of_chunkFragment {ref : ChunkRef} (hlast : last + 1 < 2 ^ 64) (hrange : first ≤ last)
    (hpos : 1 ≤ ref.logicalLen.toNat) (hoffset : ref.offset.toNat = offset)
    (hlen : ref.logicalLen.toNat = len) :
    match chunkFragment first last ref with
    | none => min (last + 1) (max first offset) = min (last + 1) (max first (offset + len))
    | some d => d.logicalRangeStart = min (last + 1) (max first offset) ∧
        d.logicalRangeStart ≤ d.logicalRangeEnd ∧
        d.logicalRangeEnd + 1 = min (last + 1) (max first (offset + len)) := by
  have hoff := ref.offset.toNat_lt
  unfold chunkFragment
  dsimp only
  subst hoffset hlen
  split
  · rename_i hnone
    split at hnone
    · rename_i hout
      unfold satAdd at hout
      omega
    · cases hnone
  · rename_i d hsome
    split at hsome
    · cases hsome
    · rename_i hin
      cases hsome
      simp only [satAdd] at hin ⊢
      omega

/-- **The loop over contiguous chunks succeeds, and its descriptors tile the range.** -/
theorem tiles_of_readFragments (hlast : last + 1 < 2 ^ 64) (hrange : first ≤ last)
    (hstored : List.Forall₂ (fun ref bytes => w.store (.chunks t ref.cid) = some bytes) refs
      contents) (hcontiguous : Contiguous offset refs contents) :
    ∃ chunks, (runE (exec env) (readFragments t first last refs) w).1 = .ok chunks ∧
      Tiles (min (last + 1) (max first offset))
        (min (last + 1) (max first (offset + contents.flatten.length)))
        (chunks.map (·.descriptor)) := by
  induction hstored generalizing offset with
  | nil => exact ⟨[], rfl, rfl⟩
  | @cons ref bytes refs contents hb _ ih =>
    obtain ⟨hoffset, hpos, hlen, hrest⟩ := hcontiguous
    obtain ⟨chunks, hchunks, htiles⟩ := ih hrest
    have htile := tile_of_chunkFragment hlast hrange hpos hoffset hlen
    rw [flatten_cons, length_append, ← Nat.add_assoc]
    cases hd : chunkFragment first last ref with
    | none =>
      rw [hd] at htile
      rw [readFragments, hd]
      refine ⟨chunks, hchunks, ?_⟩
      rw [show min (last + 1) (max first offset) = _ from htile]
      exact htiles
    | some d =>
      rw [hd] at htile
      obtain ⟨hstart, hle, hstop⟩ := htile
      obtain ⟨hfrom, hto⟩ := chunkFragment_range hlast hrange hd
      have hslice : ∃ fragment, slice bytes d.fragmentOffset
          (d.fragmentOffset + d.fragmentLength) = some fragment := by
        refine ⟨_, if_pos ⟨Nat.le_add_right _ _, ?_⟩⟩
        rw [hto]
        omega
      obtain ⟨fragment, hfragment⟩ := hslice
      refine ⟨⟨d, fragment⟩ :: chunks, ?_, hstart, hstart ▸ hle, ?_⟩
      · rw [runE_readFragments_cons hd hb, hfragment, hchunks]
        rfl
      · rw [hstop]
        exact htiles

end Fragments

section Read

variable {w : World} {auth : AuthContext} {request : GetRequest} {resolution : SelectorResolution}
  {record : ManifestRecord} {contents : List (List UInt8)}

theorem requestedRange_of_inside
    (h : ∀ r ∈ range, r.start ≤ r.end ∧ r.end < m.logicalSize) :
    validateRange range = .ok () ∧ ∃ first last,
      requestedRange m.logicalSize range = .ok (first, last) ∧
      requestedSpan m.logicalSize.toNat range =
        (first, min (last + 1) (max first m.logicalSize.toNat)) := by
  cases range with
  | none =>
    refine ⟨rfl, 0, m.logicalSize.toNat - 1, rfl, Prod.ext rfl ?_⟩
    dsimp only [requestedSpan]
    omega
  | some r =>
    obtain ⟨hle, hlt⟩ := h r rfl
    have hend : ¬ r.end ≥ m.logicalSize := UInt64.not_le.2 hlt
    have hstart : ¬ r.start > r.end := UInt64.not_lt.2 hle
    rw [UInt64.lt_iff_toNat_lt] at hlt
    rw [UInt64.le_iff_toNat_le] at hle
    refine ⟨by simp only [validateRange, RangeSpec.validate, if_neg hstart]; rfl, r.start.toNat,
      r.end.toNat, by rw [requestedRange, if_neg hend], Prod.ext rfl ?_⟩
    dsimp only [requestedSpan]
    omega

theorem runE_get_checked {decision : AuthorizationDecision} {w₁ : World}
    (hselector : request.selector.validate = .ok ()) (hvalid : validateRange request.range = .ok ())
    (hresolution : runE (exec env) (selectorResolution request.tenantId request.selector) w =
      (.ok resolution, w))
    (hauth : runE (exec env)
      (authorize env auth (readMeta .get request.tenantId resolution)) w = (.ok decision, w₁))
    (hrecord : w₁.store (.manifests request.tenantId resolution.manifestCid) = some record)
    (hpreference : request.preference.getD .chunkStream = .chunkStream)
    (hrange : requestedRange record.manifest.logicalSize request.range = .ok (first, last))
    {chunks : List GetChunk} (hchunks : (runE (exec env) (readFragments request.tenantId first
      last record.manifest.chunkRefs) w₁).1 = .ok chunks) :
    ∃ response, (runE (exec env) (get env auth request) w).1 = .ok response ∧
      response.chunks = chunks ∧ response.meta.chunkDescriptors = chunks.map (·.descriptor) := by
  have hread : runE (exec env) (readFragments request.tenantId first last
      record.manifest.chunkRefs) w₁ = (.ok chunks, _) := Prod.ext hchunks rfl
  rw [get, hselector, runE_ofExcept_bind, hvalid, runE_ofExcept_bind, runE_bind_ok _ hresolution,
    runE_bind_ok _ hauth, runE_bind_ok _ (runE_manifestRecord_some hrecord), getObject, hpreference]
  dsimp only
  rw [hrange, runE_ofExcept_bind]
  dsimp only
  rw [runE_bind_ok _ hread]
  exact ⟨_, rfl, rfl, rfl⟩

/-- **Range reads return exactly the slice**: a `GET` that passes its checks succeeds, its fragments
make up the bytes in the range, and its descriptors tile the range. -/
theorem range_read_exact (hselector : request.selector.validate = .ok ())
    (hpreference : request.preference.getD .chunkStream = .chunkStream)
    (hresolution : (Prog.runE (exec env)
      (selectorResolution request.tenantId request.selector) w).1 = .ok resolution)
    {decision : AuthorizationDecision} (hauth : (Prog.runE (exec env)
      (authorize env auth (readMeta .get request.tenantId resolution)) w).1 = .ok decision)
    (hrecord : w.store (.manifests request.tenantId resolution.manifestCid) = some record)
    (hstored : List.Forall₂ (fun ref bytes =>
      w.store (.chunks request.tenantId ref.cid) = some bytes) record.manifest.chunkRefs contents)
    (hlaid : record.manifest.Laid contents)
    (hrange : ∀ r ∈ request.range, r.start ≤ r.end ∧ r.end < record.manifest.logicalSize) :
    ∃ response, (Prog.runE (exec env) (get env auth request) w).1 = .ok response ∧
      response.chunks.flatMap (·.bytes) = (contents.flatten.take
        (requestedSpan contents.flatten.length request.range).2).drop
          (requestedSpan contents.flatten.length request.range).1 ∧
      response.meta.chunkDescriptors = response.chunks.map (·.descriptor) ∧
      Tiles (requestedSpan contents.flatten.length request.range).1
        (requestedSpan contents.flatten.length request.range).2
        response.meta.chunkDescriptors := by
  have hresolution : runE (exec env)
      (selectorResolution request.tenantId request.selector) w = (.ok resolution, w) :=
    Prod.ext hresolution (selectorResolution_ok (Prod.ext hresolution rfl)).1.symm
  have hsame := sameOn_of_authorize (Prod.ext hauth rfl)
  obtain ⟨hvalid, first, last, hrequested, hspan⟩ := requestedRange_of_inside hrange
  obtain ⟨hle, hlast⟩ := requestedRange_le hvalid hrequested
  have hstored₁ := hstored.imp fun ref bytes hb =>
    (hsame (.chunks request.tenantId ref.cid) rfl).trans hb
  obtain ⟨chunks, hchunks, htiles⟩ := tiles_of_readFragments hlast hle hstored₁ hlaid.contiguous
  obtain ⟨response, hresponse, rfl, hdescriptors⟩ := runE_get_checked hselector hvalid
    hresolution (Prod.ext hauth rfl) ((hsame _ rfl).trans hrecord) hpreference
    hrequested hchunks
  rw [← hlaid.size, hspan, hlaid.size]
  refine ⟨response, hresponse, ?_, hdescriptors, ?_⟩
  · rw [bytes_of_readFragments hlast hle hstored₁ hchunks, cutChunks_of_contiguous hlaid.contiguous]
    rw [Nat.sub_zero, Nat.sub_zero, take_min_max]
  · rw [Nat.max_zero, min_eq_right (hle.trans (Nat.le_succ last)), Nat.zero_add] at htiles
    rw [hdescriptors]
    exact htiles

end Read

/-! ### Machine arithmetic -/

/-- `u64::saturating_add`, on machine words. -/
def saturatingAdd (a b : UInt64) : UInt64 :=
  if a.toNat + b.toNat < 2 ^ 64 then a + b else .ofNat (2 ^ 64 - 1)

/-- `u64::saturating_sub`. -/
def saturatingSub (a b : UInt64) : UInt64 := if b ≤ a then a - b else 0

/-- `a + b` of two `u64`: nothing if it overflows. -/
def checkedAdd (a b : UInt64) : Option UInt64 :=
  if a.toNat + b.toNat < 2 ^ 64 then some (a + b) else none

/-- `as usize`, on a machine with words of 64 bits. -/
def asUsize (a : UInt64) : ℕ := a.toNat % 2 ^ 64

theorem toNat_saturatingAdd (a b : UInt64) :
    (saturatingAdd a b).toNat = satAdd a.toNat b.toNat := by
  unfold saturatingAdd satAdd
  split
  · rw [UInt64.toNat_add]
    omega
  · rw [UInt64.toNat_ofNat']
    omega

theorem toNat_saturatingSub (a b : UInt64) : (saturatingSub a b).toNat = a.toNat - b.toNat := by
  unfold saturatingSub
  split
  · rename_i h
    exact UInt64.toNat_sub_of_le _ _ h
  · rename_i h
    rw [UInt64.le_iff_toNat_le] at h
    show 0 = _
    omega

theorem asUsize_eq (a : UInt64) : asUsize a = a.toNat := Nat.mod_eq_of_lt a.toNat_lt

/-- The part of a chunk that lies in a range, and where it ends in the chunk, computed on machine
words.  The end is missing if its computation overflows. -/
def chunkFragmentChecked (rangeStart rangeEnd : UInt64) (chunkRef : ChunkRef) :
    Option (GetChunkDescriptor × UInt64 × Option UInt64) :=
  let chunkStart := chunkRef.offset
  let chunkEnd := saturatingAdd chunkRef.offset (saturatingSub chunkRef.logicalLen 1)
  if chunkEnd < rangeStart ∨ chunkStart > rangeEnd then none
  else
    let fragmentStart := max rangeStart chunkStart
    let fragmentEnd := min rangeEnd chunkEnd
    let fragmentOffset := saturatingSub fragmentStart chunkStart
    let fragmentLength := saturatingAdd (saturatingSub fragmentEnd fragmentStart) 1
    some ({
      chunkIndex := chunkRef.chunkIndex
      chunkCid := chunkRef.cid
      chunkOffset := chunkRef.offset
      logicalRangeStart := fragmentStart.toNat
      logicalRangeEnd := fragmentEnd.toNat
      fragmentOffset := fragmentOffset.toNat
      fragmentLength := fragmentLength.toNat
      contentEncoding := chunkRef.contentEncoding },
      fragmentOffset, checkedAdd fragmentOffset fragmentLength)

/-- The loop of `get` on machine words.  It has no result if the addition overflows. -/
def readFragmentsChecked (tenantId : TenantId) (rangeStart rangeEnd : UInt64) :
    List ChunkRef → Svc (Option (List GetChunk))
  | [] => pure (some [])
  | chunkRef :: rest =>
    match chunkFragmentChecked rangeStart rangeEnd chunkRef with
    | none => readFragmentsChecked tenantId rangeStart rangeEnd rest
    | some (descriptor, fragmentOffset, endOffset) => do
      match ← readEncryptedJson (.chunks tenantId chunkRef.cid) with
      | none =>
        throw ⟨.notFound, "missing_chunk", "missing ciphertext chunk " ++ chunkRef.cid⟩
      | some bytes =>
        match endOffset with
        | none => pure none
        | some endOffset =>
          match slice bytes (asUsize fragmentOffset) (asUsize endOffset) with
          | none =>
            throw ⟨.validation, "invalid_range",
              "requested chunk fragment does not match stored ciphertext length"⟩
          | some fragment => do
            let chunks ← readFragmentsChecked tenantId rangeStart rangeEnd rest
            return chunks.map (⟨descriptor, fragment⟩ :: ·)

def requestedRangeChecked (logicalSize : UInt64) :
    Option RangeSpec → Except ApiError (UInt64 × UInt64)
  | some range =>
    if range.end ≥ logicalSize then
      .error ⟨.validation, "invalid_range", "range end is outside object logical size"⟩
    else .ok (range.start, range.end)
  | none => .ok (0, saturatingSub logicalSize 1)

/-- The part of `get` after the manifest has been read, on machine words. -/
def getObjectChecked (request : GetRequest) (resolution : SelectorResolution)
    (record : ManifestRecord) : Svc (Option GetResponse) := do
  let preference := request.preference.getD .chunkStream
  let responseMeta : GetResponseMeta :=
    { toObjectMeta := objectMeta resolution record, preference, manifest := none,
      chunkDescriptors := [] }
  match preference with
  | .raw =>
    throw ⟨.unsupported, "unsupported_preference", "raw GET is not supported in public E2EE beta"⟩
  | .manifestOnly => return some ⟨{ responseMeta with manifest := some record.manifest }, []⟩
  | .chunkStream => do
    let (rangeStart, rangeEnd) ←
      ofExcept (requestedRangeChecked record.manifest.logicalSize request.range)
    let chunks ← readFragmentsChecked request.tenantId rangeStart rangeEnd
      record.manifest.chunkRefs
    return chunks.map fun chunks =>
      ⟨{ responseMeta with chunkDescriptors := chunks.map (·.descriptor) }, chunks⟩

/-- `get` on machine words.  It has no result if an addition overflows. -/
def getChecked (env : Env) (auth : AuthContext) (request : GetRequest) :
    Svc (Option GetResponse) := do
  ofExcept request.selector.validate
  ofExcept (validateRange request.range)
  let resolution ← selectorResolution request.tenantId request.selector
  let _ ← authorize env auth (readMeta .get request.tenantId resolution)
  let record ← manifestRecord request.tenantId resolution.manifestCid
  getObjectChecked request resolution record

/-- The checked program does what the other one does and never fails to have a result. -/
def Computes (env : Env) {α : Type} (x : Svc (Option α)) (y : Svc α) : Prop :=
  ∀ w, Prog.runE (exec env) x w =
    ((Prog.runE (exec env) y w).1.map some, (Prog.runE (exec env) y w).2)

namespace Computes

variable {α β : Type} {f : β → Svc (Option α)}

theorem pure (a : α) : Computes env (pure (some a)) (pure a) := fun _ => rfl

theorem throw (e : ApiError) : Computes env (throw e : Svc (Option α)) (throw e) := fun _ => rfl

theorem bind (x : Svc β) {g : β → Svc α} (h : ∀ b, Computes env (f b) (g b)) :
    Computes env (x >>= f) (x >>= g) := by
  intro w
  rw [Prog.runE_bind, Prog.runE_bind]
  generalize runE (exec env) x w = r
  obtain ⟨e | b, w'⟩ := r
  · rfl
  · exact h b w'

theorem bindExcept {x : Except ApiError β} {g : β → Svc α}
    (h : ∀ b, x = .ok b → Computes env (f b) (g b)) :
    Computes env (ofExcept x >>= f) (ofExcept x >>= g) := by
  cases x with
  | error e => exact .throw e
  | ok b => exact fun w => h b rfl w

theorem map {x : Svc (Option β)} {y : Svc β} (f : β → α) (h : Computes env x y) :
    Computes env (x >>= fun b => Pure.pure (b.map f)) (y >>= fun b => Pure.pure (f b)) := by
  intro w
  rw [Prog.runE_bind, Prog.runE_bind, h w]
  generalize runE (exec env) y w = r
  obtain ⟨e | b, w'⟩ := r <;> rfl

end Computes

section Checked

variable {first last : UInt64}

theorem fragment_end_lt {first last : ℕ} (hlast : last + 1 < 2 ^ 64) (hrange : first ≤ last)
    (hin : ¬ (satAdd offset (len - 1) < first ∨ offset > last)) :
    max first offset - offset + satAdd (min last (satAdd offset (len - 1)) - max first offset) 1 <
      2 ^ 64 := by
  unfold satAdd at hin ⊢
  omega

/-- **The end of a fragment does not overflow**, whatever the offset and the length of the chunk
are: it lies in the range, whose end has a successor. -/
theorem chunkFragmentChecked_eq (hlast : last.toNat + 1 < 2 ^ 64) (hrange : first ≤ last)
    (ref : ChunkRef) :
    match chunkFragment first.toNat last.toNat ref with
    | none => chunkFragmentChecked first last ref = none
    | some d => ∃ offset stop, chunkFragmentChecked first last ref = some (d, offset, some stop) ∧
        offset.toNat = d.fragmentOffset ∧
        stop.toNat = d.fragmentOffset + d.fragmentLength := by
  have hend : (saturatingAdd ref.offset (saturatingSub ref.logicalLen 1)).toNat =
      satAdd ref.offset.toNat (ref.logicalLen.toNat - 1) := by
    rw [toNat_saturatingAdd, toNat_saturatingSub, toNat_one]
  have hcond : saturatingAdd ref.offset (saturatingSub ref.logicalLen 1) < first ∨
      ref.offset > last ↔ satAdd ref.offset.toNat (ref.logicalLen.toNat - 1) < first.toNat ∨
        ref.offset.toNat > last.toNat := by
    rw [lt_iff_toNat_lt, gt_iff_lt, lt_iff_toNat_lt, hend]
  unfold chunkFragment chunkFragmentChecked
  dsimp only
  by_cases hout : satAdd ref.offset.toNat (ref.logicalLen.toNat - 1) < first.toNat ∨
      ref.offset.toNat > last.toNat
  · rw [if_pos hout, if_pos (hcond.2 hout)]
  · rw [if_neg hout, if_neg (hcond.not.2 hout)]
    dsimp only
    have hoffset := toNat_saturatingSub (max first ref.offset) ref.offset
    have hlength := toNat_saturatingAdd (saturatingSub (min last
      (saturatingAdd ref.offset (saturatingSub ref.logicalLen 1))) (max first ref.offset)) 1
    rw [toNat_saturatingSub, toNat_min, hend, toNat_max, toNat_one] at hlength
    rw [toNat_max] at hoffset
    have hfits : (saturatingSub (max first ref.offset) ref.offset).toNat +
        (saturatingAdd (saturatingSub (min last (saturatingAdd ref.offset
          (saturatingSub ref.logicalLen 1))) (max first ref.offset)) 1).toNat < 2 ^ 64 := by
      rw [hoffset, hlength]
      exact fragment_end_lt hlast (le_iff_toNat_le.1 hrange) hout
    refine ⟨_, _, by rw [checkedAdd, if_pos hfits, toNat_max, toNat_min, hend,
      hoffset, hlength], hoffset, ?_⟩
    rw [UInt64.toNat_add, Nat.mod_eq_of_lt hfits, hoffset, hlength]

/-- **The loop does not overflow.** -/
theorem computes_readFragments (hlast : last.toNat + 1 < 2 ^ 64) (hrange : first ≤ last)
    (t : TenantId) (refs : List ChunkRef) :
    Computes env (readFragmentsChecked t first last refs)
      (readFragments t first.toNat last.toNat refs) := by
  induction refs with
  | nil => exact .pure []
  | cons ref refs ih =>
    have hchecked := chunkFragmentChecked_eq hlast hrange ref
    cases hd : chunkFragment first.toNat last.toNat ref with
    | none =>
      rw [hd] at hchecked
      rw [readFragmentsChecked, readFragments, hd, show chunkFragmentChecked first last ref = none
        from hchecked]
      exact ih
    | some d =>
      rw [hd] at hchecked
      obtain ⟨offset, stop, hchecked, hoffset, hstop⟩ := hchecked
      rw [readFragmentsChecked, readFragments, hd, hchecked]
      refine .bind _ fun stored => ?_
      cases stored with
      | none => exact .throw _
      | some bytes =>
        dsimp only
        rw [asUsize_eq, asUsize_eq, hoffset, hstop]
        cases slice bytes d.fragmentOffset (d.fragmentOffset + d.fragmentLength) with
        | none => exact .throw _
        | some fragment => exact .map _ ih

theorem requestedRange_eq_checked (size : UInt64) (range : Option RangeSpec) :
    requestedRange size range = (requestedRangeChecked size range).map fun bounds =>
      (bounds.1.toNat, bounds.2.toNat) := by
  cases range with
  | none =>
    rw [requestedRange, requestedRangeChecked, Except.map, toNat_saturatingSub]
    rfl
  | some range =>
    rw [requestedRange, requestedRangeChecked]
    split <;> rfl

theorem computes_getObject (hvalid : validateRange request.range = .ok ())
    (resolution : SelectorResolution) (record : ManifestRecord) :
    Computes env (getObjectChecked request resolution record)
      (getObject request resolution record) := by
  rw [getObjectChecked, getObject]
  cases request.preference.getD .chunkStream with
  | raw => exact .throw _
  | manifestOnly => exact .pure _
  | chunkStream =>
    dsimp only
    have hrange := requestedRange_eq_checked record.manifest.logicalSize request.range
    cases hchecked : requestedRangeChecked record.manifest.logicalSize request.range with
    | error e =>
      rw [hchecked] at hrange
      rw [hrange]
      exact .throw e
    | ok bounds =>
      obtain ⟨first, last⟩ := bounds
      rw [hchecked] at hrange
      obtain ⟨hle, hlast⟩ := requestedRange_le hvalid hrange
      rw [hrange]
      exact .map _ (computes_readFragments hlast (le_iff_toNat_le.2 hle) _ _)

/-- **`get` does not overflow.** -/
theorem computes_get (auth : AuthContext) (request : GetRequest) :
    Computes env (getChecked env auth request) (get env auth request) :=
  .bind _ fun _ => .bindExcept fun _ hvalid => .bind _ fun resolution => .bind _ fun _ =>
    .bind _ fun record => computes_getObject hvalid resolution record

end Checked

/-! ### Fragments -/

theorem length_of_fragment {w : World} {t : TenantId}
    {fragment : List UInt8} (h : w.fragment t d = some fragment) :
    fragment.length = d.fragmentLength := by
  obtain ⟨bytes, -, h⟩ := Option.bind_eq_some_iff.1 h
  unfold slice at h
  split at h
  · rename_i hle
    cases h
    rw [length_drop, length_take_of_le hle.2, Nat.add_sub_cancel_left]
  · cases h

/-- The logical range of a fragment lies in the range. -/
theorem range_of_chunkFragment (hrange : first ≤ last) {ref : ChunkRef}
    (h : chunkFragment first last ref = some d) :
    first ≤ d.logicalRangeStart ∧ d.logicalRangeStart ≤ d.logicalRangeEnd ∧
      d.logicalRangeEnd ≤ last := by
  unfold chunkFragment at h
  dsimp only at h
  split at h
  · cases h
  · rename_i hin
    cases h
    have hoff := ref.offset.toNat_lt
    simp only [satAdd] at hin ⊢
    omega

/-- The fragments a request asks for, as they are described. -/
def GetRequest.fragments (request : GetRequest) (m : Manifest) : List GetChunkDescriptor :=
  match request.preference.getD .chunkStream, requestedRange m.logicalSize request.range with
  | .chunkStream, .ok (first, last) => m.chunkRefs.filterMap (chunkFragment first last)
  | _, _ => []

theorem mem_fragments
    (h : d ∈ request.fragments m) :
    ∃ first last ref, requestedRange m.logicalSize request.range = .ok (first, last) ∧
      chunkFragment first last ref = some d := by
  unfold GetRequest.fragments at h
  split at h
  · rename_i first last _ hrange
    obtain ⟨ref, -, hd⟩ := mem_filterMap.1 h
    exact ⟨first, last, ref, hrange, hd⟩
  · cases h

/-- The answer of `get` says of the object what `HEAD` says of it, and holds the fragments that are
asked for as the store holds them. -/
theorem fragments_of_getObject {resolution : SelectorResolution}
    {record : ManifestRecord} {w w' : World} {response : GetResponse}
    (h : runE (exec env) (getObject request resolution record) w = (.ok response, w')) :
    response.meta.toObjectMeta = objectMeta resolution record ∧
      response.chunks.map (·.descriptor) = request.fragments record.manifest ∧
      ∀ chunk ∈ response.chunks,
        w.fragment request.tenantId chunk.descriptor = some chunk.bytes := by
  rw [getObject] at h
  rw [GetRequest.fragments]
  cases hpreference : request.preference.getD .chunkStream with
  | raw =>
    rw [hpreference] at h
    cases h
  | manifestOnly =>
    rw [hpreference] at h
    cases h
    exact ⟨rfl, rfl, fun _ h => by cases h⟩
  | chunkStream =>
    rw [hpreference] at h
    obtain ⟨⟨first, last⟩, w₁, hrange, h⟩ := runE_bind_eq_ok _ h
    obtain rfl : w = w₁ := congrArg Prod.snd hrange
    obtain ⟨chunks, w₂, hread, h⟩ := runE_bind_eq_ok _ h
    cases h
    rw [show requestedRange _ _ = _ from congrArg Prod.fst hrange]
    exact ⟨rfl, readFragments_ok (congrArg Prod.fst hread)⟩

theorem requestedSpan_of_range {size : UInt64} (hsize : size ≠ 0)
    (h : requestedRange size range = .ok (first, last)) :
    requestedSpan size.toNat range = (first, last + 1) := by
  cases range with
  | none =>
    cases h
    have hpos : size.toNat ≠ 0 := fun hzero => hsize (UInt64.toNat_inj.1 hzero)
    exact Prod.ext rfl (Nat.succ_pred_eq_of_ne_zero hpos).symm
  | some range =>
    simp only [requestedRange] at h
    split at h
    · cases h
    · cases h
      rfl

theorem logicalSize_ne_zero (h : m.validate = .ok ()) : m.logicalSize ≠ 0 := by
  intro hzero
  simp only [Manifest.validate, hzero] at h
  split at h <;> simp at h

/-- **Range arithmetic never overflows**: on every world whose manifests have been validated, `get`
computes on machine words what it computes on numbers, and every fragment is as long as its
descriptor says and lies in the range that is asked for. -/
theorem range_arithmetic_safe (auth : AuthContext) (request : GetRequest) (w : World)
    (hvalid : ∀ cid record, w.store (.manifests request.tenantId cid) = some record →
      record.manifest.validate = .ok ()) :
    Prog.runE (exec env) (getChecked env auth request) w =
        ((Prog.runE (exec env) (get env auth request) w).1.map some,
          (Prog.runE (exec env) (get env auth request) w).2) ∧
      ∀ response, (Prog.runE (exec env) (get env auth request) w).1 = .ok response →
        ∀ chunk ∈ response.chunks, chunk.descriptor.fragmentLength = chunk.bytes.length ∧
          (requestedSpan response.meta.logicalSize.toNat request.range).1 ≤
            chunk.descriptor.logicalRangeStart ∧
          chunk.descriptor.logicalRangeStart ≤ chunk.descriptor.logicalRangeEnd ∧
          chunk.descriptor.logicalRangeEnd <
            (requestedSpan response.meta.logicalSize.toNat request.range).2 := by
  refine ⟨computes_get auth request w, fun response hresponse chunk hchunk => ?_⟩
  obtain ⟨resolution, record, w₁, hrange, -, hrecord, -, hget⟩ := get_ok (Prod.ext hresponse rfl)
  obtain ⟨hmeta, hdescriptors, hbytes⟩ := fragments_of_getObject hget
  obtain ⟨first, last, ref, hrequested, hfragment⟩ :=
    mem_fragments (hdescriptors ▸ mem_map_of_mem hchunk)
  obtain ⟨hle, -⟩ := requestedRange_le hrange hrequested
  obtain ⟨hfirst, hordered, hlast⟩ := range_of_chunkFragment hle hfragment
  rw [hmeta, objectMeta, length_of_fragment (hbytes chunk hchunk),
    requestedSpan_of_range (logicalSize_ne_zero (hvalid _ record hrecord)) hrequested]
  exact ⟨rfl, hfirst, hordered, Nat.lt_succ_of_le hlast⟩

/-! ### Content addresses -/

/-- The bytes of a chunk of a response are a slice of bytes that the identifier in its descriptor
names. -/
def GetChunk.Addressed (env : Env) (chunk : GetChunk) : Prop :=
  ∃ bytes, cidFromBytes env bytes = chunk.descriptor.chunkCid ∧
    slice bytes chunk.descriptor.fragmentOffset
      (chunk.descriptor.fragmentOffset + chunk.descriptor.fragmentLength) = some chunk.bytes

/-- Stored chunks of a tenant have been replaced by others of the same tenant: an envelope is bound
to its tenant and its kind of store, and not to the key it is stored under. -/
def World.ChunksReplaced (t : TenantId) (w w' : World) : Prop :=
  ∀ cid bytes, w'.store (.chunks t cid) = some bytes →
    (w.store (.chunks t cid)).isSome ∧ ∃ other, w.store (.chunks t other) = some bytes

/-- **`get` does not look at content addresses**: after chunks have been replaced, what it returns
is a part of the chunks it names exactly if the fragments that are asked for read as before.  In
particular it is if no chunk of the range has been replaced. -/
theorem fragments_addressed_iff (auth : AuthContext) (request : GetRequest) {w w' : World}
    (hcid : ∀ cid bytes, w.store (.chunks request.tenantId cid) = some bytes →
      cidFromBytes env bytes = cid)
    (hreplaced : ChunksReplaced request.tenantId w w') {resolution : SelectorResolution}
    (hresolution : (Prog.runE (exec env) (selectorResolution request.tenantId request.selector)
      w').1 = .ok resolution) {record : ManifestRecord}
    (hrecord : w'.store (.manifests request.tenantId resolution.manifestCid) = some record)
    {response : GetResponse}
    (h : (Prog.runE (exec env) (get env auth request) w').1 = .ok response) :
    ((∀ chunk ∈ response.chunks, chunk.Addressed env) ↔
      ∀ d ∈ request.fragments record.manifest,
        w'.fragment request.tenantId d = w.fragment request.tenantId d) ∧
    ((∀ d ∈ request.fragments record.manifest, w'.store (.chunks request.tenantId d.chunkCid) =
        w.store (.chunks request.tenantId d.chunkCid)) →
      ∀ chunk ∈ response.chunks, chunk.Addressed env) := by
  suffices hiff : (∀ chunk ∈ response.chunks, chunk.Addressed env) ↔
      ∀ d ∈ request.fragments record.manifest,
        w'.fragment request.tenantId d = w.fragment request.tenantId d from
    ⟨hiff, fun hkept => hiff.2 fun d hd => by rw [World.fragment, hkept d hd, World.fragment]⟩
  obtain ⟨resolution', record', w₁, -, hresolution', hrecord', hsame, hget⟩ :=
    get_ok (Prod.ext h rfl)
  cases hresolution.symm.trans (congrArg Prod.fst hresolution')
  cases hrecord.symm.trans hrecord'
  obtain ⟨-, hdescriptors, hbytes⟩ := fragments_of_getObject hget
  rw [← hdescriptors, forall_mem_map]
  refine forall₂_congr fun chunk hchunk => ?_
  have hfragment := hbytes chunk hchunk
  rw [World.fragment, hsame _ rfl] at hfragment
  rw [World.fragment, World.fragment, hfragment]
  obtain ⟨stored, hstored, -⟩ := Option.bind_eq_some_iff.1 hfragment
  obtain ⟨original, horiginal⟩ := Option.isSome_iff_exists.1 (hreplaced _ _ hstored).1
  rw [horiginal]
  constructor
  · rintro ⟨bytes, hnamed, hslice⟩
    rw [cidFromBytes_inj ((hcid _ _ horiginal).trans hnamed.symm)]
    exact hslice.symm
  · intro heq
    exact ⟨original, hcid _ _ horiginal, heq.symm⟩

namespace Sample

/-- An object of two chunks. -/
def pieces : Manifest :=
  ⟨manifestFields 5 5 [⟨0, cid [1, 2], 0, 2, 2, ""⟩, ⟨1, cid [3, 4, 5], 2, 3, 3, ""⟩],
    by decide +kernel⟩

/-- The store that holds the object under the name `m`. -/
def piecesWorld : World :=
  ((World.empty.set (.chunks tenant (cid [1, 2])) (some [1, 2])).set
    (.chunks tenant (cid [3, 4, 5])) (some [3, 4, 5])).set (.manifests tenant "m")
      (some ⟨tenant, pieces, "m", "m", "", 0⟩)

/-- The bytes from position 1 to position 3. -/
def readPieces : GetRequest := ⟨tenant, ⟨.cid, some "m", none, none⟩, none, some ⟨1, 3⟩⟩

theorem pieces_laid : pieces.Laid [[1, 2], [3, 4, 5]] :=
  ⟨⟨rfl, by decide, rfl, rfl, by decide, rfl, trivial⟩, rfl⟩

theorem pieces_stored : List.Forall₂ (fun ref bytes =>
    piecesWorld.store (.chunks tenant ref.cid) = some bytes) pieces.chunkRefs
      [[1, 2], [3, 4, 5]] := by
  have hne : Loc.chunks tenant (cid [1, 2]) ≠ .chunks tenant (cid [3, 4, 5]) := by decide +kernel
  refine .cons ?_ (.cons ?_ .nil)
  · exact (set_store_of_ne _ (fun h => by cases h) _).trans
      ((set_store_of_ne _ hne _).trans (set_store_self ..))
  · exact (set_store_of_ne _ (fun h => by cases h) _).trans (set_store_self ..)

theorem pieces_recorded : piecesWorld.store (.manifests tenant "m") =
    some ⟨tenant, pieces, "m", "m", "", 0⟩ := set_store_self ..

theorem pieces_authorized : (runE (exec (Sample.env [])) (authorize (Sample.env []) (auth "0")
    (readMeta .get tenant ⟨"m", none, none, none, none⟩)) piecesWorld).1 = .ok ⟨.fresh⟩ := by
  decide +kernel

theorem pieces_read : ∃ response, (Prog.runE (exec (Sample.env []))
    (get (Sample.env []) (auth "0") readPieces) piecesWorld).1 = .ok response ∧
      response.chunks.flatMap (·.bytes) = [2, 3, 4] := by
  have hresolution : (runE (exec (Sample.env [])) (selectorResolution readPieces.tenantId
      readPieces.selector) piecesWorld).1 = .ok ⟨"m", none, none, none, none⟩ := rfl
  have hrange : ∀ r ∈ readPieces.range, r.start ≤ r.end ∧ r.end < pieces.logicalSize := by decide
  obtain ⟨response, hresponse, hbytes, -⟩ := range_read_exact rfl rfl hresolution
    pieces_authorized pieces_recorded pieces_stored pieces_laid hrange
  exact ⟨response, hresponse, hbytes⟩

theorem pieces_valid (cid : String) (record : ManifestRecord)
    (h : piecesWorld.store (.manifests tenant cid) = some record) :
    record.manifest.validate = .ok () := by
  by_cases hcid : cid = "m"
  · subst hcid
    cases pieces_recorded.symm.trans h
    rfl
  · have hne : Loc.manifests tenant cid ≠ .manifests tenant "m" := fun h => by
      cases h
      exact hcid rfl
    have hstore := (set_store_of_ne _ hne _).symm.trans h
    rw [set_store_of_ne _ (fun h => by cases h),
      set_store_of_ne _ (fun h => by cases h)]
      at hstore
    cases hstore

theorem pieces_in_range :
    (∀ response, (Prog.runE (exec (Sample.env [])) (get (Sample.env []) (auth "0") readPieces)
        piecesWorld).1 = .ok response → ∀ chunk ∈ response.chunks,
          1 ≤ chunk.descriptor.logicalRangeStart ∧ chunk.descriptor.logicalRangeEnd < 4) ∧
      pieces.validate = .ok () :=
  ⟨fun response h chunk hchunk =>
    have hsafe := (range_arithmetic_safe (auth "0") readPieces piecesWorld pieces_valid).2 response
      h chunk hchunk
    ⟨hsafe.2.1, hsafe.2.2.2⟩, rfl⟩

/-- The store after the first chunk has been replaced by the second. -/
def replacedWorld : World :=
  piecesWorld.set (.chunks tenant (cid [1, 2])) (some [3, 4, 5])

theorem pieces_named (c : String) (bytes : List UInt8)
    (h : piecesWorld.store (.chunks tenant c) = some bytes) :
    cidFromBytes (Sample.env []) bytes = c := by
  rw [piecesWorld, set_store_of_ne _ (fun h => by cases h)] at h
  by_cases hc : c = cid [3, 4, 5]
  · subst hc
    cases (set_store_self ..).symm.trans h
    rfl
  · rw [set_store_of_ne _ (fun h => hc (by cases h; rfl))] at h
    by_cases hc : c = cid [1, 2]
    · subst hc
      cases (set_store_self ..).symm.trans h
      rfl
    · rw [set_store_of_ne _ (fun h => hc (by cases h; rfl))] at h
      cases h

theorem pieces_replaced : ChunksReplaced tenant piecesWorld replacedWorld := by
  intro c bytes h
  by_cases hc : c = cid [1, 2]
  · subst hc
    cases (set_store_self ..).symm.trans h
    exact ⟨rfl, cid [3, 4, 5], rfl⟩
  · rw [replacedWorld, set_store_of_ne _ (fun h => hc (by cases h; rfl))] at h
    exact ⟨h ▸ rfl, c, h⟩

theorem replaced_read : ∃ response, (Prog.runE (exec (Sample.env []))
    (get (Sample.env []) (auth "0") readPieces) replacedWorld).1 = .ok response ∧
      ((∀ chunk ∈ response.chunks, chunk.Addressed (Sample.env [])) ↔
        ∀ d ∈ readPieces.fragments pieces,
          replacedWorld.fragment tenant d = piecesWorld.fragment tenant d) := by
  have hrecord : replacedWorld.store (.manifests tenant "m") =
      some ⟨tenant, pieces, "m", "m", "", 0⟩ := pieces_recorded
  obtain ⟨response, h⟩ : ∃ response, (runE (exec (Sample.env []))
    (get (Sample.env []) (auth "0") readPieces) replacedWorld).1 = .ok response := ⟨_, rfl⟩
  exact ⟨response, h, (fragments_addressed_iff (auth "0") readPieces pieces_named pieces_replaced
    rfl hrecord h).1⟩

/-- The chunk is returned under the identifier of the one it has replaced. -/
theorem replaced_misnamed : ChunksReplaced tenant piecesWorld replacedWorld ∧
    ∃ response, (Prog.runE (exec (Sample.env [])) (get (Sample.env []) (auth "0") readPieces)
      replacedWorld).1 = .ok response ∧
        ∃ chunk ∈ response.chunks, ¬chunk.Addressed (Sample.env []) := by
  refine ⟨pieces_replaced, _, rfl, _, mem_cons_self, ?_⟩
  rintro ⟨bytes, hnamed, hslice⟩
  obtain rfl : bytes = [1, 2] := cidFromBytes_inj hnamed
  revert hslice
  decide +kernel

end Sample

end Hsp
