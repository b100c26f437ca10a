import Hsp.Object.Stored
import Hsp.Sample.Basic

/-!
# Reading committed objects

`GET` cuts the fragments of an object out of its chunks by their logical lengths, while uploads are
checked by stored lengths only, and a commit looks at neither.  A `GET` of the whole object returns
every chunk as it was uploaded exactly for manifests whose lengths fit together (`Manifest.Exact`).

* `committed_readable` : the committed objects a `GET` returns completely.
* `Sample.sealed_cutOff` : an encrypted object that is committed and comes back cut off.
-/

namespace Hsp

open List

variable {env : Env} {ref : ChunkRef} {last : ℕ} {w w' : World} {t : TenantId}
  {d : GetChunkDescriptor} {refs : List ChunkRef} {reader : AuthContext} {chunks : List GetChunk}
  {bytes : List UInt8} {first : ℕ}

/-! ### The layout of a manifest -/

/-- How many bytes of a chunk a `GET` of an object with the given logical size asks for. -/
def ChunkRef.served (ref : ChunkRef) (logicalSize : ℕ) : ℕ :=
  min (logicalSize - 1 - ref.offset.toNat) (ref.logicalLen.toNat - 1) + 1

/-- The lengths of a chunk fit together: it starts inside the object, a `GET` asks for as many bytes
of it as its stored length says, and the bytes its identifier names are as many. -/
structure ChunkRef.Fits (env : Env) (logicalSize : ℕ) (ref : ChunkRef) : Prop where
  inside : ref.offset.toNat ≤ logicalSize - 1
  served : ref.served logicalSize = ref.storedLen.toNat
  length : ∀ bytes, cidFromBytes env bytes = ref.cid → bytes.length = ref.storedLen.toNat

/-- The lengths of a manifest fit together: those of its chunks do, and the stored lengths add up to
the stored size. -/
structure Manifest.Exact (env : Env) (m : Manifest) : Prop where
  fits : ∀ ref ∈ m.chunkRefs, ref.Fits env m.logicalSize.toNat
  total : (m.chunkRefs.map (·.storedLen.toNat)).sum = m.storedSize.toNat

/-- A chunk of a response is the complete chunk of the manifest. -/
structure Delivers (env : Env) (w : World) (t : TenantId) (ref : ChunkRef) (chunk : GetChunk) :
    Prop where
  index : chunk.descriptor.chunkIndex = ref.chunkIndex
  stored : w.store (.chunks t ref.cid) = some chunk.bytes
  cid : cidFromBytes env chunk.bytes = ref.cid
  length : chunk.bytes.length = ref.storedLen.toNat

/-! ### The loop over the chunks -/

theorem chunkFragment_none (h : last < ref.offset.toNat) : chunkFragment 0 last ref = none := by
  simp [chunkFragment, h]

theorem chunkFragment_some {logicalSize : UInt64} (h : ref.offset.toNat ≤ logicalSize.toNat - 1) :
    ∃ d, chunkFragment 0 (logicalSize.toNat - 1) ref = some d ∧ d.chunkIndex = ref.chunkIndex ∧
      d.fragmentOffset = 0 ∧ d.fragmentLength = ref.served logicalSize.toNat := by
  have hsize := logicalSize.toNat_lt
  have hoff := ref.offset.toNat_lt
  refine ⟨_, if_neg (by omega), rfl, ?_, ?_⟩
  · simp
  · simp only [satAdd, ChunkRef.served]
    omega

theorem runE_readFragments_cons
    (hd : chunkFragment first last ref = some d) (hb : w.store (.chunks t ref.cid) = some bytes)
    (refs : List ChunkRef) :
    (runE (exec env) (readFragments t first last (ref :: refs)) w).1 =
      match slice bytes d.fragmentOffset (d.fragmentOffset + d.fragmentLength) with
      | none => .error ⟨.validation, "invalid_range",
          "requested chunk fragment does not match stored ciphertext length"⟩
      | some fragment => (runE (exec env) (readFragments t first last refs) w).1.map
          (⟨d, fragment⟩ :: ·) := by
  rw [readFragments, hd]
  dsimp only
  rw [runE_read_bind, hb]
  dsimp only
  cases slice bytes d.fragmentOffset (d.fragmentOffset + d.fragmentLength) with
  | none => rfl
  | some fragment =>
    exact congrArg Prod.fst (runE_map (exec env) (GetChunk.mk d fragment :: ·)
      (readFragments t first last refs) w)

/-- The bytes of a fragment, as a world holds them. -/
def World.fragment (w : World) (t : TenantId) (d : GetChunkDescriptor) : Option (List UInt8) :=
  (w.store (.chunks t d.chunkCid)).bind fun bytes =>
    slice bytes d.fragmentOffset (d.fragmentOffset + d.fragmentLength)

theorem chunkCid_of_chunkFragment (h : chunkFragment first last ref = some d) :
    d.chunkCid = ref.cid := by
  simp only [chunkFragment] at h
  split at h
  · cases h
  · cases h
    rfl

/-- **The loop returns what the store holds** for every chunk in the range, if it succeeds. -/
theorem readFragments_ok
    (h : (runE (exec env) (readFragments t first last refs) w).1 = .ok chunks) :
    chunks.map (·.descriptor) = refs.filterMap (chunkFragment first last) ∧
      ∀ chunk ∈ chunks, w.fragment t chunk.descriptor = some chunk.bytes := by
  induction refs generalizing chunks with
  | nil =>
    cases h
    simp
  | cons ref refs ih =>
    rw [filterMap_cons]
    cases hd : chunkFragment first last ref with
    | none =>
      rw [readFragments, hd] at h
      exact ih h
    | some d =>
      cases hb : w.store (.chunks t ref.cid) with
      | none =>
        rw [readFragments, hd] at h
        dsimp only at h
        rw [runE_read_bind, hb] at h
        cases h
      | some bytes =>
        rw [runE_readFragments_cons hd hb] at h
        cases hs : slice bytes d.fragmentOffset (d.fragmentOffset + d.fragmentLength) with
        | none => rw [hs] at h; cases h
        | some fragment =>
          rw [hs] at h
          cases hr : (runE (exec env) (readFragments t first last refs) w).1 with
          | error e => rw [hr] at h; cases h
          | ok rest =>
            rw [hr] at h
            obtain rfl := Except.ok.inj h
            have hfragment : w.fragment t d = some fragment := by
              rw [World.fragment, chunkCid_of_chunkFragment hd, hb]
              exact hs
            obtain ⟨hdescriptors, hfragments⟩ := ih hr
            exact ⟨congrArg (d :: ·) hdescriptors, forall_mem_cons.2 ⟨hfragment, hfragments⟩⟩

/-- A chunk whose first bytes are returned is returned completely if its lengths fit together. -/
theorem delivers_take_iff {size : ℕ}
    (hb : w.store (.chunks t ref.cid) = some bytes) (hcid : cidFromBytes env bytes = ref.cid)
    (hin : ref.offset.toNat ≤ size - 1) (hindex : d.chunkIndex = ref.chunkIndex)
    (hlen : ref.served size ≤ bytes.length) :
    Delivers env w t ref ⟨d, bytes.take (ref.served size)⟩ ↔ ref.Fits env size := by
  constructor
  · intro h
    have hall : bytes = bytes.take (ref.served size) := Option.some.inj (hb.symm.trans h.stored)
    have hlength := h.length
    have htake := length_take_of_le hlen
    refine ⟨hin, htake.symm.trans hlength, fun bytes' hb' => ?_⟩
    rw [cidFromBytes_inj (hb'.trans hcid.symm), hall]
    exact hlength
  · intro h
    have hall : bytes.take (ref.served size) = bytes :=
      take_of_length_le (by rw [h.served, h.length bytes hcid])
    refine ⟨hindex, ?_, ?_, ?_⟩
    · exact hall.symm ▸ hb
    · exact hall.symm ▸ hcid
    · exact hall.symm ▸ h.length bytes hcid

/-- **The loop returns every chunk completely exactly if their lengths fit together.** -/
theorem readFragments_iff {size : UInt64}
    (hcid : ∀ cid bytes, w.store (.chunks t cid) = some bytes → cidFromBytes env bytes = cid)
    (hpresent : ∀ ref ∈ refs, (w.store (.chunks t ref.cid)).isSome) :
    (∃ chunks, (runE (exec env) (readFragments t 0 (size.toNat - 1) refs) w).1 = .ok chunks ∧
        List.Forall₂ (Delivers env w t) refs chunks) ↔
      ∀ ref ∈ refs, ref.Fits env size.toNat := by
  induction refs with
  | nil => exact ⟨fun _ _ h => (by cases h), fun _ => ⟨[], rfl, .nil⟩⟩
  | cons ref refs ih =>
    have hrefs : ∀ ref ∈ refs, (w.store (.chunks t ref.cid)).isSome :=
      fun ref href => hpresent ref (mem_cons_of_mem _ href)
    obtain ⟨bytes, hb⟩ := Option.isSome_iff_exists.1 (hpresent ref mem_cons_self)
    rw [forall_mem_cons, ← ih hrefs]
    by_cases hin : ref.offset.toNat ≤ size.toNat - 1
    · obtain ⟨d, hd, hindex, hoff, hlength⟩ := chunkFragment_some hin
      rw [runE_readFragments_cons hd hb, hoff, hlength, Nat.zero_add]
      by_cases hlen : ref.served size.toNat ≤ bytes.length
      · have hs : slice bytes 0 (ref.served size.toNat) =
            some (bytes.take (ref.served size.toNat)) := by simp [slice, hlen]
        rw [hs, ← delivers_take_iff hb (hcid _ _ hb) hin hindex hlen]
        constructor
        · rintro ⟨_, h, hall⟩
          cases hr : (runE (exec env) (readFragments t 0 (size.toNat - 1) refs) w).1 with
          | error e => rw [hr] at h; cases h
          | ok chunks =>
            rw [hr] at h
            obtain rfl := Except.ok.inj h
            obtain ⟨hfirst, hrest⟩ := forall₂_cons.1 hall
            exact ⟨hfirst, chunks, rfl, hrest⟩
        · rintro ⟨hfirst, chunks, hr, hrest⟩
          exact ⟨_, by rw [hr]; rfl, .cons hfirst hrest⟩
      · have hs : slice bytes 0 (ref.served size.toNat) = none := by simp [slice, hlen]
        rw [hs]
        constructor
        · rintro ⟨chunks, h, -⟩
          cases h
        · rintro ⟨hfits, -⟩
          exact absurd (hfits.served.trans (hfits.length bytes (hcid _ _ hb)).symm).le hlen
    · rw [readFragments, chunkFragment_none (Nat.lt_of_not_le hin)]
      constructor
      · rintro ⟨chunks, h, hall⟩
        have hle := length_filterMap_le (chunkFragment 0 (size.toNat - 1)) refs
        rw [← (readFragments_ok h).1, length_map, ← hall.length_eq] at hle
        exact absurd hle (Nat.not_succ_le_self _)
      · exact fun h => absurd h.1.inside hin

/-! ### GET by identifier -/

/-- A `GET` of a whole object by its identifier, as a stream of chunks. -/
def getByCid (t : TenantId) (cid : String) : GetRequest where
  tenantId := t
  selector := ⟨.cid, some cid, none, none⟩
  preference := some .chunkStream
  range := none

/-- The reader is authorized to get the object. -/
def MayGet (env : Env) (reader : AuthContext) (t : TenantId) (cid : String) (w : World) : Prop :=
  (Prog.runE (exec env) (authorize env reader
    (readMeta .get t ⟨cid, none, none, none, none⟩)) w).1.toBool = true

/-- A `GET` of the whole object succeeds and returns every chunk of the manifest completely, and
their lengths add up to the stored size. -/
def Readable (env : Env) (w : World) (reader : AuthContext) (t : TenantId) (m : Manifest) : Prop :=
  ∃ response : GetResponse,
    ((Call.get reader (getByCid t (m.manifestCid env))).perform env w).1 = .ok (.get response) ∧
      List.Forall₂ (Delivers env w t) m.chunkRefs response.chunks ∧
      (response.chunks.map (·.bytes.length)).sum = m.storedSize.toNat

theorem manifestCid_isEmpty (m : Manifest) : (m.manifestCid env).isEmpty = false := by
  rw [Bool.eq_false_iff, ne_eq, String.isEmpty_iff]
  intro h
  have := congrArg String.toList h
  simp [Manifest.manifestCid, cidFromBytes] at this

theorem runE_getByCid {cid : String} (hcid : cid.isEmpty = false)
    {decision : AuthorizationDecision}
    (h : runE (exec env) (authorize env reader
      (readMeta .get t ⟨cid, none, none, none, none⟩)) w = (.ok decision, w')) :
    runE (exec env) (get env reader (getByCid t cid)) w =
      runE (exec env) (manifestRecord t cid >>=
        getObject (getByCid t cid) ⟨cid, none, none, none, none⟩) w' := by
  have hselector : (getByCid t cid).selector.validate = .ok () := by
    simp [getByCid, ObjectSelector.validate, hcid]
  rw [get, hselector]
  exact runE_bind_ok _ h

/-- The answer to such a `GET` that is made of some chunks. -/
def streamed (cid : String) (record : ManifestRecord) (chunks : List GetChunk) : GetResponse :=
  ⟨⟨objectMeta ⟨cid, none, none, none, none⟩ record, .chunkStream, none,
    chunks.map (·.descriptor)⟩, chunks⟩

theorem runE_getObject (t : TenantId) (cid : String) (record : ManifestRecord) (w : World) :
    (runE (exec env) (getObject (getByCid t cid) ⟨cid, none, none, none, none⟩ record) w).1 =
      (runE (exec env) (readFragments t 0 (record.manifest.logicalSize.toNat - 1)
        record.manifest.chunkRefs) w).1.map (streamed cid record) :=
  congrArg Prod.fst (runE_map (exec env) (streamed cid record)
    (readFragments t 0 (record.manifest.logicalSize.toNat - 1) record.manifest.chunkRefs) w)

/-- **What a reader gets** depends on the manifest and on the chunks only. -/
theorem perform_getByCid {cid : String} (hcid : cid.isEmpty = false)
    (h : MayGet env reader t cid w) :
    ∃ w', SameOn Loc.isData w w' ∧
      ((Call.get reader (getByCid t cid)).perform env w).1 =
        match w.store (.manifests t cid) with
        | none => .error ⟨.notFound, "manifest_not_found", "manifest not found"⟩
        | some record => (runE (exec env) (readFragments t 0
            (record.manifest.logicalSize.toNat - 1) record.manifest.chunkRefs) w').1.map
              fun chunks => .get (streamed cid record chunks) := by
  rcases hauth : runE (exec env) (authorize env reader
    (readMeta .get t ⟨cid, none, none, none, none⟩)) w with ⟨result, w'⟩
  have hsame := sameOn_of_authorize hauth
  refine ⟨w', hsame, ?_⟩
  rw [MayGet, hauth] at h
  cases result with
  | error e => cases h
  | ok decision =>
    rw [Call.perform, Call.handle, runE_map, runE_getByCid hcid hauth,
      ← hsame (.manifests t cid) rfl]
    cases hr : w'.store (.manifests t cid) with
    | none => rw [runE_bind_error _ (runE_manifestRecord_none hr)]; rfl
    | some record =>
      rw [runE_bind_ok _ (runE_manifestRecord_some hr), runE_getObject]
      dsimp only
      generalize (runE (exec env) (readFragments t 0 (record.manifest.logicalSize.toNat - 1)
        record.manifest.chunkRefs) w').1 = chunks
      cases chunks <;> rfl

/-! ### Committed objects -/

theorem Delivers.same (hs : SameOn Loc.isData w w') {chunk : GetChunk} :
    Delivers env w' t ref chunk ↔ Delivers env w t ref chunk := by
  have hc := hs (.chunks t ref.cid) rfl
  exact ⟨fun h => ⟨h.index, hc.symm.trans h.stored, h.cid, h.length⟩,
    fun h => ⟨h.index, hc.trans h.stored, h.cid, h.length⟩⟩

theorem sum_length_of_delivers
    (h : List.Forall₂ (Delivers env w t) refs chunks) :
    (chunks.map (·.bytes.length)).sum = (refs.map (·.storedLen.toNat)).sum := by
  induction h with
  | nil => rfl
  | cons hd _ ih => simp [hd.length, ih]

/-- **Which objects can be read completely**, in a consistent store: those whose manifest is in the
store and whose lengths fit together. -/
theorem readable_iff (h : Consistent env w) {m : Manifest}
    (hreader : MayGet env reader t (m.manifestCid env) w) :
    Readable env w reader t m ↔
      (w.store (.manifests t (m.manifestCid env))).isSome ∧ m.Exact env := by
  obtain ⟨w', hsame, hget⟩ := perform_getByCid (manifestCid_isEmpty m) hreader
  cases hr : w.store (.manifests t (m.manifestCid env)) with
  | none =>
    rw [hr] at hget
    refine ⟨fun ⟨response, hok, _⟩ => ?_, fun h => (by simp at h)⟩
    rw [hget] at hok
    cases hok
  | some record =>
    have hm : record.manifest = m := manifestCid_inj (h.manifest t _ record hr)
    have hpresent := h.present t _ record hr
    rw [hr] at hget
    dsimp only at hget
    rw [hm] at hget hpresent
    have hread : (∃ chunks, (runE (exec env) (readFragments t 0
        (m.logicalSize.toNat - 1) m.chunkRefs) w').1 = .ok chunks ∧
          List.Forall₂ (Delivers env w' t) m.chunkRefs chunks) ↔ _ :=
      readFragments_iff (fun cid bytes hb => h.chunk t cid bytes ((hsame _ rfl).symm.trans hb))
        fun ref href => by rw [hsame (.chunks t ref.cid) rfl]; exact hpresent ref href
    constructor
    · rintro ⟨response, hok, hall, htotal⟩
      rw [hget] at hok
      cases hrun : (runE (exec env) (readFragments t 0
          (m.logicalSize.toNat - 1) m.chunkRefs) w').1 with
      | error e => rw [hrun] at hok; cases hok
      | ok chunks =>
        rw [hrun] at hok
        obtain rfl := Reply.get.inj (Except.ok.inj hok)
        have hall' := hall.imp fun _ _ hd => (Delivers.same hsame).2 hd
        exact ⟨rfl, hread.1 ⟨chunks, hrun, hall'⟩, (sum_length_of_delivers hall).symm.trans htotal⟩
    · rintro ⟨-, hexact⟩
      obtain ⟨chunks, hrun, hall⟩ := hread.2 hexact.fits
      refine ⟨streamed (m.manifestCid env) record chunks, ?_,
        hall.imp fun _ _ hd => (Delivers.same hsame).1 hd,
        (sum_length_of_delivers hall).trans hexact.total⟩
      rw [hget, hrun]
      rfl

/-- **Committed objects that can be read.**  After a successful commit of a manifest, a reader who
is authorized gets every chunk completely exactly if the lengths of the manifest fit together and,
in case the commit was answered from a stored response, the manifest was still there. -/
theorem committed_readable (calls : List Call) (auth : AuthContext) (request : PutCommitRequest)
    {m : Manifest} (hm : request.manifestCid = m.manifestCid env)
    (hok : ((Call.putCommit auth request).perform env
      (runCalls env calls World.empty)).1.toBool = true)
    {reader : AuthContext} (hreader : MayGet env reader request.tenantId (m.manifestCid env)
      (runCalls env (calls ++ [.putCommit auth request]) World.empty)) :
    let before := runCalls env calls World.empty
    Readable env (runCalls env (calls ++ [.putCommit auth request]) World.empty) reader
        request.tenantId m ↔
      (AnsweredFromStore env auth request before →
        (before.store (.manifests request.tenantId (m.manifestCid env))).isSome) ∧
        m.Exact env := by
  intro before
  rcases hrun : runE (exec env) (putCommit env auth request) before with ⟨result, w'⟩
  have hperform : (Call.putCommit auth request).perform env before =
      (result.map Reply.putCommit, w') := by
    rw [Call.perform, Call.handle, runE_map, hrun]
  have hafter : runCalls env (calls ++ [.putCommit auth request]) World.empty = w' := by
    rw [runCalls_append, runCalls_cons, runCalls_nil, hperform]
  rw [readable_iff (consistent_run env _) hreader, hafter, ← hm]
  cases result with
  | error e =>
    rw [hperform] at hok
    cases hok
  | ok response => rw [manifest_of_putCommit (consistent_run env calls) hrun]

namespace Sample

/-- An encrypted chunk that is one byte longer than what it encrypts. -/
def sealedChunk : List UInt8 := [7, 8]

/-- The object made of the encrypted chunk: one logical byte, two stored bytes. -/
def sealedManifest : Manifest :=
  ⟨manifestFields 1 2 [⟨0, cid sealedChunk, 0, 1, 2, ""⟩], by decide +kernel⟩

/-- The object is uploaded but not committed yet. -/
def sealedUpload : List Call := [putInit "1" sealedManifest none,
  .putChunk (auth "2") ⟨tenant, "session-" ++ cid sealedManifest.canonicalCborBytes, 0,
    cid sealedChunk, 0, 2⟩ sealedChunk]

/-- The world after the commit. -/
def sealedWorld : World :=
  runCalls (Sample.env []) (sealedUpload ++ [putCommit "3" sealedManifest]) World.empty

/-- The bytes an answer to a `GET` contains. -/
def bytesOf : Except ApiError Reply → List (List UInt8)
  | .ok (.get response) => response.chunks.map (·.bytes)
  | _ => []

/-- **The commit of an encrypted object succeeds, and an authorized `GET` cuts its chunk off.** -/
theorem sealed_cutOff :
    ((putCommit "3" sealedManifest).perform (Sample.env [])
        (runCalls (Sample.env []) sealedUpload World.empty)).1.toBool = true ∧
      MayGet (Sample.env []) (auth "4") tenant (sealedManifest.manifestCid (Sample.env []))
        sealedWorld ∧
      bytesOf ((Call.get (auth "4") (getByCid tenant
        (sealedManifest.manifestCid (Sample.env [])))).perform (Sample.env []) sealedWorld).1 =
          [[7]] ∧
      ¬ Readable (Sample.env []) sealedWorld (auth "4") tenant sealedManifest := by
  have hmay : MayGet (Sample.env []) (auth "4") tenant
      (sealedManifest.manifestCid (Sample.env [])) sealedWorld := by
    unfold MayGet
    decide +kernel
  refine ⟨by decide +kernel, hmay, by decide +kernel, fun h => ?_⟩
  have hexact := ((readable_iff (consistent_run _ _) hmay).1 h).2
  exact absurd (hexact.fits _ (mem_singleton.2 rfl)).served (by decide)

theorem manifest_exact : manifest.Exact (Sample.env []) where
  fits ref href := by
    obtain rfl := mem_singleton.1 href
    refine ⟨by decide, by decide, fun bytes hb => ?_⟩
    rw [cidFromBytes_inj (a := bytes) (b := chunk) hb]
    rfl
  total := rfl

/-- The commit of the object whose lengths fit together. -/
def commitRequest : PutCommitRequest :=
  ⟨tenant, "session-" ++ cid manifest.canonicalCborBytes, manifestCid, "3"⟩

/-- The object whose lengths fit together can be read. -/
theorem upload_readable :
    Readable (Sample.env [])
      (runCalls (Sample.env []) (upload.take 2 ++ [.putCommit (auth "3") commitRequest])
        World.empty) (auth "4") tenant manifest := by
  -- Evaluated together, because the runs share their first calls.
  have ⟨hok, hreader, hstored⟩ :
      ((Call.putCommit (auth "3") commitRequest).perform (Sample.env [])
        (runCalls (Sample.env []) (upload.take 2) World.empty)).1.toBool = true ∧
      MayGet (Sample.env []) (auth "4") tenant (manifest.manifestCid (Sample.env []))
        (runCalls (Sample.env []) (upload.take 2 ++ [.putCommit (auth "3") commitRequest])
          World.empty) ∧
      ((runCalls (Sample.env []) (upload.take 2) World.empty).store
        (.idempotency tenant .putCommit "3")).isSome = false := by
    unfold MayGet
    decide +kernel
  have h := committed_readable (upload.take 2) (auth "3") commitRequest
    (show manifestCid = manifest.manifestCid (Sample.env []) from rfl) hok hreader
  have hnew : ¬ AnsweredFromStore (Sample.env []) (auth "3") commitRequest
      (runCalls (Sample.env []) (upload.take 2) World.empty) :=
    not_answeredFromStore hstored rfl rfl
  exact h.2 ⟨fun ha => absurd ha hnew, manifest_exact⟩

end Sample

end Hsp
