import Hsp.Namespace.Integrity
import Hsp.Object.Readable
import Hsp.Prog.Triple

/-!
# The bytes of an object

An object is a manifest together with the bytes of the chunks it names.  Both are named by what
they are: the identifier of an object determines its manifest, and the manifest its bytes.

* `Manifest.Contents.unique` : the bytes of an object;
* `get_ok` : what a `GET` that succeeds has read;
* `body_of_get` : the body of its answer consists of the bytes of the object in the range.
-/

namespace Hsp

open List

variable {env : Env} {w w' : World}

/-! ### Objects -/

/-- The bytes of a chunk at the logical positions of a range.  A chunk without a logical length
counts as one byte. -/
def ChunkRef.cut (first last : ℕ) (ref : ChunkRef) (bytes : List UInt8) : List UInt8 :=
  (bytes.take (min (last + 1 - ref.offset.toNat) (max ref.logicalLen.toNat 1))).drop
    (first - ref.offset.toNat)

/-- The bytes of chunks at the logical positions of a range. -/
def cutChunks (first last : ℕ) (refs : List ChunkRef) (chunks : List (List UInt8)) :
    List UInt8 :=
  (List.zipWith (·.cut first last ·) refs chunks).flatten

namespace Manifest

/-- These are the bytes of the chunks that the manifest names. -/
def Contents (env : Env) (m : Manifest) (chunks : List (List UInt8)) : Prop :=
  List.Forall₂ (fun ref bytes => cidFromBytes env bytes = ref.cid) m.chunkRefs chunks

/-- The bytes of the object in a range, all of it if there is none. -/
def content (m : Manifest) (range : Option RangeSpec) (chunks : List (List UInt8)) :
    List UInt8 :=
  match range with
  | some range => cutChunks range.start.toNat range.end.toNat m.chunkRefs chunks
  | none => cutChunks 0 (m.logicalSize.toNat - 1) m.chunkRefs chunks

/-- **A manifest determines the bytes of its object.** -/
theorem Contents.unique {m : Manifest} {chunks chunks' : List (List UInt8)}
    (h : m.Contents env chunks) (h' : m.Contents env chunks') : chunks = chunks' :=
  right_unique_forall₂' (fun _ _ _ hcid hcid' => cidFromBytes_inj (hcid.trans hcid'.symm)) h h'

end Manifest

/-! ### The loop over the chunks -/

section Fragments

variable {first last : ℕ} {ref : ChunkRef} {bytes : List UInt8}

theorem cut_of_chunkFragment_none (hlast : last + 1 < 2 ^ 64) (hrange : first ≤ last)
    (h : chunkFragment first last ref = none) : ref.cut first last bytes = [] := by
  have hout : satAdd ref.offset.toNat (ref.logicalLen.toNat - 1) < first ∨
      ref.offset.toNat > last := by
    by_contra hin
    rw [chunkFragment, if_neg hin] at h
    cases h
  rw [ChunkRef.cut, drop_eq_nil_iff, length_take]
  unfold satAdd at hout
  omega

theorem chunkFragment_range (hlast : last + 1 < 2 ^ 64) (hrange : first ≤ last)
    {d : GetChunkDescriptor} (h : chunkFragment first last ref = some d) :
    d.fragmentOffset = first - ref.offset.toNat ∧ d.fragmentOffset + d.fragmentLength =
      min (last + 1 - ref.offset.toNat) (max ref.logicalLen.toNat 1) := by
  unfold chunkFragment at h
  dsimp only at h
  split at h
  · cases h
  · rename_i hin
    cases h
    have hoff := ref.offset.toNat_lt
    simp only [satAdd] at hin ⊢
    omega

/-- **The loop returns the bytes at the logical positions of the range**, if it succeeds. -/
theorem bytes_of_readFragments (hlast : last + 1 < 2 ^ 64) (hrange : first ≤ last) {t : TenantId}
    {refs : List ChunkRef} {contents : List (List UInt8)}
    (hstored : List.Forall₂ (fun ref bytes => w.store (.chunks t ref.cid) = some bytes) refs
      contents) {chunks : List GetChunk}
    (h : (runE (exec env) (readFragments t first last refs) w).1 = .ok chunks) :
    chunks.flatMap (·.bytes) = cutChunks first last refs contents := by
  induction hstored generalizing chunks with
  | nil => cases h; rfl
  | @cons ref bytes refs contents hb _ ih =>
    show _ = ref.cut first last bytes ++ cutChunks first last refs contents
    cases hd : chunkFragment first last ref with
    | none =>
      rw [readFragments, hd] at h
      rw [cut_of_chunkFragment_none hlast hrange hd, nil_append]
      exact ih h
    | some d =>
      obtain ⟨hstart, hstop⟩ := chunkFragment_range hlast hrange hd
      rw [runE_readFragments_cons hd hb, hstop, hstart] at h
      unfold slice at h
      split at h
      · cases h
      · rename_i fragment hslice
        split at hslice
        · cases hslice
          cases hr : (runE (exec env) (readFragments t first last refs) w).1 with
          | error e => rw [hr] at h; cases h
          | ok rest =>
            rw [hr] at h
            cases h
            rw [flatMap_cons, ih hr]
            rfl
        · cases hslice

end Fragments

/-! ### GET -/

/-- The object a path is bound to. -/
def World.objectAt (w : World) (t : TenantId) (ns path : String) : Option String :=
  (w.binding t ns path).bind (·.manifestCid)

theorem SameNamespaces.objectAt (h : SameNamespaces w w') (t : TenantId) (ns path : String) :
    w'.objectAt t ns path = w.objectAt t ns path := by
  rw [World.objectAt, h.binding, World.objectAt]

/-- What a selector resolves to is what its path is bound to, or the identifier it gives. -/
theorem selectorResolution_ok {t : TenantId} {selector : ObjectSelector}
    {resolution : SelectorResolution}
    (h : runE (exec env) (selectorResolution t selector) w = (.ok resolution, w')) :
    w = w' ∧ match selector.kind with
      | .cid => resolution.manifestCid = selector.cid.getD ""
      | .namespace => ∃ ns path, canonicalNamespaceAndPath (selector.ns.getD "")
          (selector.path.getD "") = .ok (ns, path) ∧
          w.objectAt t ns path = some resolution.manifestCid := by
  unfold selectorResolution at h
  cases hkind : selector.kind with
  | cid =>
    rw [hkind] at h
    cases h
    exact ⟨rfl, rfl⟩
  | «namespace» =>
    rw [hkind] at h
    simp only [Prog.runE_bind, runE_resolveSnapshot] at h
    cases hcanon : canonicalNamespaceAndPath (selector.ns.getD "") (selector.path.getD "") with
    | error e =>
      rw [hcanon] at h
      cases h
    | ok names =>
      obtain ⟨ns, path⟩ := names
      rw [hcanon] at h
      cases hb : (w.current t ns).bindings[path]? with
      | none => simp [resolveBinding, hb] at h
      | some b =>
        have hbinding : w.binding t ns path = some b := hb
        cases hlive : b.tombstone <;> cases hm : b.manifestCid <;>
          simp [resolveBinding, hb, hlive, hm] at h
        obtain ⟨rfl, rfl⟩ := h
        exact ⟨rfl, ns, path, rfl, by simp [World.objectAt, hbinding, hm]⟩

/-- **What a `GET` that succeeds has read**: the manifest its selector resolves to, and then what
it was asked for. -/
theorem get_ok {auth : AuthContext} {request : GetRequest} {response : GetResponse}
    (h : runE (exec env) (get env auth request) w = (.ok response, w')) :
    ∃ resolution record w₁, validateRange request.range = .ok () ∧
      runE (exec env) (selectorResolution request.tenantId request.selector) w =
        (.ok resolution, w) ∧
      w.store (.manifests request.tenantId resolution.manifestCid) = some record ∧
      SameOn Loc.isData w w₁ ∧
      runE (exec env) (getObject request resolution record) w₁ = (.ok response, w') := by
  obtain ⟨_, _, hselector, h⟩ := runE_bind_eq_ok _ h
  obtain rfl : w = _ := congrArg Prod.snd hselector
  obtain ⟨_, _, hrange, h⟩ := runE_bind_eq_ok _ h
  obtain rfl : w = _ := congrArg Prod.snd hrange
  obtain ⟨resolution, _, hresolution, h⟩ := runE_bind_eq_ok _ h
  obtain rfl := (selectorResolution_ok hresolution).1
  obtain ⟨decision, w₁, hauth, h⟩ := runE_bind_eq_ok _ h
  have hsame := sameOn_of_authorize hauth
  cases hrecord : w₁.store (.manifests request.tenantId resolution.manifestCid) with
  | none =>
    rw [runE_bind_error _ (runE_manifestRecord_none hrecord)] at h
    cases h
  | some record =>
    rw [runE_bind_ok _ (runE_manifestRecord_some hrecord)] at h
    exact ⟨resolution, record, w₁, congrArg Prod.fst hrange, hresolution,
      (hsame _ rfl).symm.trans hrecord, hsame, h⟩

/-- Manifest records carry the identifier they are stored under. -/
def RecordsNamed (w : World) : Prop :=
  ∀ t cid record, w.store (.manifests t cid) = some record →
    record.objectCid = cid ∧ record.manifestCid = cid

section Answers

variable {w w' : World} {auth : AuthContext} {request : GetRequest} {response : GetResponse}
  {range : Option RangeSpec}

theorem manifest_of_get (hw : Consistent env w) (hnamed : RecordsNamed w)
    (hpreference : request.preference = some .manifestOnly)
    (h : runE (exec env) (get env auth request) w = (.ok response, w')) :
    ∃ resolution m, runE (exec env) (selectorResolution request.tenantId request.selector) w =
        (.ok resolution, w) ∧
      m.manifestCid env = resolution.manifestCid ∧ response.meta.manifest = some m ∧
      response.meta.cid = m.manifestCid env ∧ response.meta.objectCid = m.manifestCid env ∧
      response.meta.storedSize = m.storedSize := by
  obtain ⟨resolution, record, w₁, -, hresolution, hrecord, -, hget⟩ := get_ok h
  have hcid := hw.manifest _ _ record hrecord
  obtain ⟨hobject, -⟩ := hnamed _ _ record hrecord
  rw [getObject, hpreference] at hget
  cases hget
  exact ⟨resolution, record.manifest, hresolution, hcid, rfl, hobject.trans hcid.symm,
    hobject.trans hcid.symm, rfl⟩

theorem requestedRange_le {size : UInt64} {first last : ℕ} (hvalid : validateRange range = .ok ())
    (h : requestedRange size range = .ok (first, last)) : first ≤ last ∧ last + 1 < 2 ^ 64 := by
  have hsize := size.toNat_lt
  cases range with
  | none =>
    cases h
    omega
  | some range =>
    simp only [requestedRange] at h
    split at h
    · cases h
    · rename_i hend
      cases h
      simp only [validateRange, RangeSpec.validate] at hvalid
      split at hvalid
      · cases hvalid
      · rename_i hstart
        rw [ge_iff_le, UInt64.le_iff_toNat_le] at hend
        rw [gt_iff_lt, UInt64.lt_iff_toNat_lt] at hstart
        omega

theorem content_of_requestedRange {m : Manifest} {first last : ℕ}
    (h : requestedRange m.logicalSize range = .ok (first, last)) (chunks : List (List UInt8)) :
    m.content range chunks = cutChunks first last m.chunkRefs chunks := by
  cases range with
  | none =>
    cases h
    rfl
  | some range =>
    simp only [requestedRange] at h
    split at h
    · cases h
    · cases h
      rfl

/-- **The body of an answer to a `GET`** consists of the bytes of the object in the range. -/
theorem body_of_get (hw : Consistent env w)
    (hpreference : request.preference = some .chunkStream)
    (h : runE (exec env) (get env auth request) w = (.ok response, w')) :
    ∃ (resolution : SelectorResolution) (m : Manifest) (chunks : List (List UInt8)),
      runE (exec env) (selectorResolution request.tenantId request.selector) w =
        (.ok resolution, w) ∧
      m.manifestCid env = resolution.manifestCid ∧ m.Contents env chunks ∧
      response.meta.manifest = none ∧
      response.chunks.flatMap (·.bytes) = m.content request.range chunks := by
  obtain ⟨resolution, record, w₁, hvalid, hresolution, hrecord, hsame, hget⟩ := get_ok h
  obtain ⟨contents, hcontents⟩ : ∃ contents, List.Forall₂ (fun ref bytes =>
      w.store (.chunks request.tenantId ref.cid) = some bytes) record.manifest.chunkRefs
        contents := by
    have hpresent := hw.present _ _ record hrecord
    generalize record.manifest.chunkRefs = refs at hpresent
    induction refs with
    | nil => exact ⟨[], .nil⟩
    | cons ref refs ih =>
      obtain ⟨bytes, hb⟩ := Option.isSome_iff_exists.1 (hpresent ref mem_cons_self)
      obtain ⟨contents, hcontents⟩ := ih fun ref href => hpresent ref (mem_cons_of_mem _ href)
      exact ⟨bytes :: contents, .cons hb hcontents⟩
  refine ⟨resolution, record.manifest, contents, hresolution, hw.manifest _ _ record hrecord,
    hcontents.imp fun ref bytes hb => hw.chunk request.tenantId ref.cid bytes hb, ?_⟩
  rw [getObject, hpreference] at hget
  obtain ⟨⟨first, last⟩, w₂, hrange, hget⟩ := runE_bind_eq_ok _ hget
  obtain ⟨hbounds, rfl⟩ : requestedRange record.manifest.logicalSize request.range =
      .ok (first, last) ∧ w₁ = w₂ := ⟨congrArg Prod.fst hrange, congrArg Prod.snd hrange⟩
  obtain ⟨chunks, w₃, hread, hget⟩ := runE_bind_eq_ok _ hget
  cases hget
  obtain ⟨hle, hlast⟩ := requestedRange_le hvalid hbounds
  rw [content_of_requestedRange hbounds]
  exact ⟨rfl, bytes_of_readFragments hlast hle (hcontents.imp fun ref bytes hb =>
    (hsame (.chunks request.tenantId ref.cid) rfl).trans hb) (congrArg Prod.fst hread)⟩

end Answers

/-! ### Bindings -/

/-- Paths are bound to objects by one identifier. -/
def BindingsNamed (w : World) : Prop :=
  ∀ t ns path b, w.binding t ns path = some b → b.targetCid = b.manifestCid

namespace BindingsNamed

variable {w : World}

theorem empty : BindingsNamed World.empty := by
  intro t ns path b hb
  simp [World.binding, World.current, World.empty, NamespaceCurrentState.initial] at hb

theorem perform (h : BindingsNamed w) (c : Call) : BindingsNamed (c.perform env w).2 := by
  intro t ns path b hb
  rcases c.outcome env w with hsame | ⟨m, hmade⟩
  · rw [hsame.binding] at hb
    exact h t ns path b hb
  · rw [hmade.mutates.binding, mutate_binding] at hb
    split at hb
    · unfold Mutation.effect at hb
      split at hb <;> cases hb <;> rfl
    · exact h t ns path b hb

end BindingsNamed

end Hsp
