import Hsp.Sample.Deployment

/-!
# Chunks across the borders of parts

The parts of a multipart upload are cut into chunks as they are read: the bytes that do not fill a
chunk are carried over to the next part.  A whole object is cut at once.

* `chunksOf_induction` : bytes fill no chunk, or they start with a full one;
* `fillParts_eq` : cutting part by part emits the chunks of the whole, in any monad;
* `chunking_of_parts` : both passes of a completion deal with the chunks that `chunk_ciphertext`
  makes of the whole.
-/

namespace Hsp

open List

namespace Distribution

variable {chunk bytes : List UInt8}

/-! ### Full chunks and the rest -/

section Chunks

variable {size : ℕ}

/-- The full chunks of some bytes. -/
def fullChunks (size : ℕ) (bytes : List UInt8) : List (List UInt8) :=
  (List.range (bytes.length / size)).map fun index => (bytes.drop (index * size)).take size

/-- The bytes after the full chunks. -/
def restChunk (size : ℕ) (bytes : List UInt8) : List UInt8 :=
  bytes.drop (bytes.length / size * size)

theorem chunksOf_induction (hsize : 0 < size) {motive : List UInt8 → Prop}
    (short : ∀ bytes, bytes.length < size → motive bytes)
    (full : ∀ chunk bytes, chunk.length = size → motive bytes → motive (chunk ++ bytes))
    (bytes : List UInt8) : motive bytes := by
  induction hn : bytes.length using Nat.strong_induction_on generalizing bytes with
  | _ n ih =>
    by_cases hlt : bytes.length < size
    · exact short bytes hlt
    · rw [← take_append_drop size bytes]
      refine full _ _ (length_take_of_le (not_lt.1 hlt)) (ih _ ?_ _ rfl)
      rw [length_drop]
      omega

theorem drop_succ_mul (hchunk : chunk.length = size) (bytes : List UInt8) (index : ℕ) :
    (chunk ++ bytes).drop ((index + 1) * size) = bytes.drop (index * size) := by
  rw [Nat.succ_mul, Nat.add_comm, ← hchunk, ← drop_drop, drop_left]

theorem length_append_div (hsize : 0 < size) (hchunk : chunk.length = size) (bytes : List UInt8) :
    (chunk ++ bytes).length / size = bytes.length / size + 1 := by
  rw [length_append, hchunk, Nat.add_div_left _ hsize]

theorem fullChunks_of_short (h : bytes.length < size) : fullChunks size bytes = [] := by
  rw [fullChunks, Nat.div_eq_of_lt h]
  rfl

theorem restChunk_of_short (h : bytes.length < size) : restChunk size bytes = bytes := by
  rw [restChunk, Nat.div_eq_of_lt h, Nat.zero_mul, drop_zero]

theorem fullChunks_append (hsize : 0 < size) (hchunk : chunk.length = size) (bytes : List UInt8) :
    fullChunks size (chunk ++ bytes) = chunk :: fullChunks size bytes := by
  rw [fullChunks, length_append_div hsize hchunk, range_succ_eq_map, map_cons,
    map_map]
  congr 1
  · rw [Nat.zero_mul, drop_zero, take_left' hchunk]
  · refine map_congr_left fun index _ => ?_
    exact congrArg (List.take size) (drop_succ_mul hchunk bytes index)

theorem restChunk_append (hsize : 0 < size) (hchunk : chunk.length = size) (bytes : List UInt8) :
    restChunk size (chunk ++ bytes) = restChunk size bytes := by
  rw [restChunk, length_append_div hsize hchunk, drop_succ_mul hchunk, restChunk]

theorem length_restChunk (hsize : 0 < size) (bytes : List UInt8) :
    (restChunk size bytes).length < size := by
  induction bytes using chunksOf_induction hsize with
  | short bytes h => rwa [restChunk_of_short h]
  | full chunk bytes hchunk ih => rwa [restChunk_append hsize hchunk]

theorem chunks_append (hsize : 0 < size) (xs ys : List UInt8) :
    fullChunks size (xs ++ ys) =
        fullChunks size xs ++ fullChunks size (restChunk size xs ++ ys) ∧
      restChunk size (xs ++ ys) = restChunk size (restChunk size xs ++ ys) := by
  induction xs using chunksOf_induction hsize with
  | short xs h => rw [fullChunks_of_short h, restChunk_of_short h]; exact ⟨rfl, rfl⟩
  | full chunk xs hchunk ih =>
    rw [append_assoc, fullChunks_append hsize hchunk, fullChunks_append hsize hchunk,
      restChunk_append hsize hchunk, restChunk_append hsize hchunk, ih.1, ih.2]
    exact ⟨rfl, rfl⟩

theorem chunksOf_nil : chunksOf size [] = [] := by
  cases size with
  | zero => rfl
  | succ size =>
    rw [chunksOf, length_nil, Nat.zero_add, Nat.add_sub_cancel,
      Nat.div_eq_of_lt (Nat.lt_succ_self size)]
    rfl

theorem chunksOf_of_short (hbytes : bytes ≠ []) (h : bytes.length < size) :
    chunksOf size bytes = [bytes] := by
  have hpos := length_pos_iff.2 hbytes
  have hone : (bytes.length + size - 1) / size = 1 := by
    rw [Nat.div_eq_iff (by omega)]
    omega
  rw [chunksOf, hone]
  show [(bytes.drop (0 * size)).take size] = _
  rw [Nat.zero_mul, drop_zero, take_of_length_le h.le]

theorem chunksOf_append (hsize : 0 < size) (hchunk : chunk.length = size) (bytes : List UInt8) :
    chunksOf size (chunk ++ bytes) = chunk :: chunksOf size bytes := by
  have hlength : ((chunk ++ bytes).length + size - 1) / size =
      (bytes.length + size - 1) / size + 1 := by
    rw [length_append, hchunk, show size + bytes.length + size - 1 =
      size + (bytes.length + size - 1) by omega, Nat.add_div_left _ hsize]
  rw [chunksOf, hlength, range_succ_eq_map, map_cons, map_map]
  congr 1
  · rw [Nat.zero_mul, drop_zero, take_left' hchunk]
  · refine map_congr_left fun index _ => ?_
    exact congrArg (List.take size) (drop_succ_mul hchunk bytes index)

/-- The chunks are the full ones and the rest, unless nothing is left. -/
theorem chunksOf_eq (hsize : 0 < size) (bytes : List UInt8) :
    chunksOf size bytes = fullChunks size bytes ++
      if restChunk size bytes = [] then [] else [restChunk size bytes] := by
  induction bytes using chunksOf_induction hsize with
  | short bytes h =>
    rw [fullChunks_of_short h, restChunk_of_short h]
    by_cases hbytes : bytes = []
    · rw [if_pos hbytes, hbytes, chunksOf_nil]
      rfl
    · rw [if_neg hbytes, chunksOf_of_short hbytes h]
      rfl
  | full chunk bytes hchunk ih =>
    rw [chunksOf_append hsize hchunk, fullChunks_append hsize hchunk,
      restChunk_append hsize hchunk, ih]
    rfl

end Chunks

theorem fixedChunkSize_pos : 0 < fixedChunkSize := by decide

/-! ### Cutting part by part -/

section Cutting

variable {m : Type → Type} [Monad m] [LawfulMonad m] {σ : Type} (emit : List UInt8 → σ → m σ)

/-- Chunks are emitted one after the other. -/
def emitAll (chunks : List (List UInt8)) (state : σ) : m σ :=
  chunks.foldlM (fun state chunk => emit chunk state) state

omit [LawfulMonad m] in
theorem emitAll_cons (chunk : List UInt8) (chunks : List (List UInt8)) (state : σ) :
    emitAll emit (chunk :: chunks) state = emit chunk state >>= emitAll emit chunks := by
  rw [emitAll, foldlM_cons]
  rfl

/-- The parts are cut one after the other, and the last chunk is flushed. -/
def fillParts (parts : List (List UInt8)) (state : σ) : m σ := do
  let (pendingChunk, state) ← parts.foldlM
    (fun x bytes => fillChunks emit bytes.length bytes x.1 x.2) ([], state)
  flushChunk emit pendingChunk state

omit [LawfulMonad m] in
theorem fillChunks_nil (rounds : ℕ) (pendingChunk : List UInt8) (state : σ) :
    fillChunks emit rounds [] pendingChunk state = pure (pendingChunk, state) := by
  cases rounds <;> simp [fillChunks]

/-- **The loop emits the full chunks** of what was left over and the new bytes, and leaves the
rest. -/
theorem fillChunks_eq (rounds : ℕ) (remaining pendingChunk : List UInt8) (state : σ)
    (hrounds : remaining.length ≤ rounds) (hpending : pendingChunk.length < fixedChunkSize) :
    fillChunks emit rounds remaining pendingChunk state =
      emitAll emit (fullChunks fixedChunkSize (pendingChunk ++ remaining)) state >>= fun state =>
        pure (restChunk fixedChunkSize (pendingChunk ++ remaining), state) := by
  induction rounds generalizing remaining pendingChunk state with
  | zero =>
    obtain rfl := length_eq_zero_iff.1 (Nat.le_zero.1 hrounds)
    rw [append_nil, fullChunks_of_short hpending, restChunk_of_short hpending]
    simp [fillChunks, emitAll]
  | succ rounds ih =>
    by_cases hremaining : remaining = []
    · rw [hremaining, fillChunks_nil, append_nil, fullChunks_of_short hpending,
        restChunk_of_short hpending]
      simp [emitAll]
    · have hpos := length_pos_iff.2 hremaining
      have hsplit (n : ℕ) : pendingChunk ++ remaining =
          (pendingChunk ++ remaining.take n) ++ remaining.drop n := by
        rw [append_assoc, take_append_drop]
      rw [fillChunks, if_neg hremaining]
      dsimp only
      generalize htake : min (fixedChunkSize - pendingChunk.length) remaining.length = take
      have hlength : (pendingChunk ++ remaining.take take).length = pendingChunk.length + take := by
        rw [length_append, length_take_of_le (by omega)]
      split
      · rename_i hfull
        rw [hsplit take, fullChunks_append fixedChunkSize_pos hfull,
          restChunk_append fixedChunkSize_pos hfull]
        simp only [emitAll, foldlM_cons, bind_assoc]
        refine bind_congr fun state => ?_
        have hrounds : (remaining.drop take).length ≤ rounds := by
          rw [length_drop]
          omega
        exact ih _ [] state hrounds fixedChunkSize_pos
      · -- The bytes did not fill the chunk, so none are left.
        rename_i hopen
        have hall : take = remaining.length := by omega
        rw [hall, drop_length, take_length, fillChunks_nil]
        have hshort : (pendingChunk ++ remaining).length < fixedChunkSize := by
          rw [length_append]
          omega
        rw [fullChunks_of_short hshort, restChunk_of_short hshort]
        simp [emitAll]

/-- Cutting the parts from some bytes that were left over on. -/
theorem foldlM_fillChunks (parts : List (List UInt8)) (pendingChunk : List UInt8) (state : σ)
    (hpending : pendingChunk.length < fixedChunkSize) :
    parts.foldlM (fun x bytes => fillChunks emit bytes.length bytes x.1 x.2)
        (pendingChunk, state) =
      emitAll emit (fullChunks fixedChunkSize (pendingChunk ++ parts.flatten)) state >>=
        fun state => pure (restChunk fixedChunkSize (pendingChunk ++ parts.flatten), state) := by
  induction parts generalizing pendingChunk state with
  | nil =>
    rw [flatten_nil, append_nil, fullChunks_of_short hpending,
      restChunk_of_short hpending]
    simp [emitAll]
  | cons bytes parts ih =>
    obtain ⟨hfull, hrest⟩ := chunks_append fixedChunkSize_pos (pendingChunk ++ bytes) parts.flatten
    rw [foldlM_cons, fillChunks_eq emit _ _ _ _ le_rfl hpending, flatten_cons,
      ← append_assoc, hfull, hrest]
    simp only [emitAll, bind_assoc, pure_bind, foldlM_append]
    refine bind_congr fun state => ?_
    exact ih _ _ (length_restChunk fixedChunkSize_pos _)

/-- **Cutting part by part emits the chunks of the whole.** -/
theorem fillParts_eq (parts : List (List UInt8)) (state : σ) :
    fillParts emit parts state = emitAll emit (chunksOf fixedChunkSize parts.flatten) state := by
  rw [fillParts, foldlM_fillChunks emit parts [] state fixedChunkSize_pos, nil_append,
    chunksOf_eq fixedChunkSize_pos]
  simp only [emitAll, bind_assoc, pure_bind, foldlM_append]
  refine bind_congr fun state => ?_
  unfold flushChunk
  split <;> simp

end Cutting

/-! ### The chunks of an object -/

variable {d : Deployment}

/-- The cursor after full chunks. -/
def ChunkCursor.after (index : ℕ) : ChunkCursor := ⟨.ofNat index, .ofNat (index * fixedChunkSize)⟩

/-- The chunk at a cursor, as `chunk_ciphertext` makes it. -/
def ChunkCursor.staged (d : Deployment) (cursor : ChunkCursor) (bytes : List UInt8) : StagedChunk :=
  ⟨cursor.nextChunkIndex, cidFromBytes d.toEnv bytes, cursor.nextChunkOffset, .ofNat bytes.length,
    "identity", bytes⟩

@[simp] theorem ref_staged (cursor : ChunkCursor) (bytes : List UInt8) :
    (cursor.staged d bytes).ref = cursor.ref d bytes := rfl

/-- The chunks of some bytes, from an index on. -/
def stagedFrom (d : Deployment) (index : ℕ) (bytes : List UInt8) : List StagedChunk :=
  (chunksOf fixedChunkSize bytes).mapIdx fun i chunk =>
    (ChunkCursor.after (index + i)).staged d chunk

theorem stagedFrom_zero (bytes : List UInt8) : stagedFrom d 0 bytes = chunkCiphertext d bytes := by
  simp only [stagedFrom, Nat.zero_add]
  rfl

theorem stagedFrom_nil (index : ℕ) : stagedFrom d index [] = [] := by
  rw [stagedFrom, chunksOf_nil]
  rfl

theorem stagedFrom_of_short (hbytes : bytes ≠ []) (h : bytes.length < fixedChunkSize) (index : ℕ) :
    stagedFrom d index bytes = [(ChunkCursor.after index).staged d bytes] := by
  rw [stagedFrom, chunksOf_of_short hbytes h]
  rfl

theorem stagedFrom_append (hchunk : chunk.length = fixedChunkSize) (index : ℕ)
    (bytes : List UInt8) :
    stagedFrom d index (chunk ++ bytes) =
      (ChunkCursor.after index).staged d chunk :: stagedFrom d (index + 1) bytes := by
  rw [stagedFrom, chunksOf_append fixedChunkSize_pos hchunk, mapIdx_cons, stagedFrom]
  simp only [Nat.add_zero, Nat.add_assoc, Nat.add_comm 1]

theorem advanceFixedChunkCursor_ok {index : ℕ} (hindex : index + 1 < 2 ^ 32)
    (hchunk : chunk.length ≤ fixedChunkSize) :
    advanceFixedChunkCursor chunk (.after index) =
      .ok ⟨.ofNat (index + 1), .ofNat (index * fixedChunkSize + chunk.length)⟩ := by
  have hi : (UInt32.ofNat index).toNat = index := by
    rw [UInt32.toNat_ofNat']
    omega
  have ho : (UInt64.ofNat (index * fixedChunkSize)).toNat = index * fixedChunkSize := by
    rw [UInt64.toNat_ofNat']
    unfold fixedChunkSize
    omega
  unfold fixedChunkSize at hchunk
  rw [advanceFixedChunkCursor, ChunkCursor.after]
  dsimp only
  rw [hi, ho, if_neg (by omega), if_neg (by unfold fixedChunkSize; omega)]
  simp only [except_pure, UInt32.ofNat_add, UInt64.ofNat_add]
  rfl

theorem advanceFixedChunkCursor_full {index : ℕ} (hindex : index + 1 < 2 ^ 32)
    (hchunk : chunk.length = fixedChunkSize) :
    advanceFixedChunkCursor chunk (.after index) = .ok (.after (index + 1)) := by
  have hnext : index * fixedChunkSize + chunk.length = (index + 1) * fixedChunkSize := by
    rw [hchunk, Nat.succ_mul]
  rw [advanceFixedChunkCursor_ok hindex hchunk.le, hnext, ChunkCursor.after]

section Passes

variable {auth : AuthContext} {tenantId : TenantId} {sessionId : String}

/-- The cursor after some bytes. -/
def ChunkCursor.behind (d : Deployment) (index : ℕ) (bytes : List UInt8) : ChunkCursor :=
  ⟨.ofNat (index + (stagedFrom d index bytes).length),
    .ofNat (index * fixedChunkSize + bytes.length)⟩

theorem behind_append (hchunk : chunk.length = fixedChunkSize) (index : ℕ) (bytes : List UInt8) :
    ChunkCursor.behind d index (chunk ++ bytes) = .behind d (index + 1) bytes := by
  have hindex (n : ℕ) : index + (n + 1) = index + 1 + n := by omega
  have hoffset (n : ℕ) : index * fixedChunkSize + (fixedChunkSize + n) =
      (index + 1) * fixedChunkSize + n := by rw [Nat.succ_mul, Nat.add_assoc]
  rw [ChunkCursor.behind, stagedFrom_append hchunk, ChunkCursor.behind, length_cons,
    length_append, hchunk, hindex, hoffset]

/-- **The first pass** collects the references of the chunks. -/
theorem emitAll_append (bytes : List UInt8) (index : ℕ) (refs : List ChunkRef)
    (hfew : index + (stagedFrom d index bytes).length < 2 ^ 32) :
    emitAll (appendFixedChunkRef d) (chunksOf fixedChunkSize bytes) (refs, .after index) =
      .ok (refs ++ (stagedFrom d index bytes).map (·.ref), .behind d index bytes) := by
  induction bytes using chunksOf_induction fixedChunkSize_pos generalizing index refs with
  | short bytes h =>
    by_cases hbytes : bytes = []
    · subst hbytes
      rw [chunksOf_nil, ChunkCursor.behind, stagedFrom_nil]
      simp [emitAll, ChunkCursor.after]
    · rw [stagedFrom_of_short hbytes h, length_singleton] at hfew
      rw [chunksOf_of_short hbytes h, ChunkCursor.behind, stagedFrom_of_short hbytes h]
      simp [emitAll, appendFixedChunkRef, advanceFixedChunkCursor_ok hfew h.le]
  | full chunk bytes hchunk ih =>
    rw [stagedFrom_append hchunk, length_cons] at hfew
    rw [chunksOf_append fixedChunkSize_pos hchunk, stagedFrom_append hchunk, behind_append hchunk]
    rw [emitAll_cons, appendFixedChunkRef, advanceFixedChunkCursor_full (by omega) hchunk,
      except_ok_bind, except_pure, except_ok_bind, ih (index + 1) _ (by omega), append_assoc,
      singleton_append, map_cons, ref_staged]

/-- **The second pass** delivers the chunks. -/
theorem emitAll_put (bytes : List UInt8) (index : ℕ)
    (hfew : index + (stagedFrom d index bytes).length < 2 ^ 32) :
    emitAll (putFixedChunk d auth tenantId sessionId) (chunksOf fixedChunkSize bytes)
        (.after index) =
      putChunks auth tenantId sessionId (stagedFrom d index bytes) >>= fun _ =>
        pure (.behind d index bytes) := by
  induction bytes using chunksOf_induction fixedChunkSize_pos generalizing index with
  | short bytes h =>
    by_cases hbytes : bytes = []
    · subst hbytes
      rw [chunksOf_nil, ChunkCursor.behind, stagedFrom_nil]
      simp [emitAll, ChunkCursor.after, putChunks]
    · rw [stagedFrom_of_short hbytes h, length_singleton] at hfew
      rw [chunksOf_of_short hbytes h, ChunkCursor.behind, stagedFrom_of_short hbytes h]
      simp only [emitAll, foldlM_cons, foldlM_nil, bind_pure, putFixedChunk,
        advanceFixedChunkCursor_ok hfew h.le, putChunks, forM_cons, forM_nil, bind_assoc, pure_bind]
      rfl
  | full chunk bytes hchunk ih =>
    rw [stagedFrom_append hchunk, length_cons] at hfew
    rw [chunksOf_append fixedChunkSize_pos hchunk, stagedFrom_append hchunk, behind_append hchunk]
    rw [emitAll_cons, putFixedChunk, advanceFixedChunkCursor_full (by omega) hchunk, putChunks,
      List.forM_cons, bind_assoc, bind_assoc, bind_assoc]
    refine bind_congr fun _ => (pure_bind _ _).trans ?_
    rw [pure_bind]
    exact ih (index + 1) (by omega)

end Passes

/-- Bytes that make fewer than `2 ^ 32` chunks have a length that fits a machine word. -/
theorem toNat_ofNat_length (hfew : (chunkCiphertext d bytes).length < 2 ^ 32) :
    (UInt64.ofNat (0 * fixedChunkSize + bytes.length)).toNat = bytes.length := by
  have hlength : (chunkCiphertext d bytes).length =
      (bytes.length + fixedChunkSize - 1) / fixedChunkSize := by
    simp [chunkCiphertext, chunksOf]
  rw [hlength, Nat.div_lt_iff_lt_mul fixedChunkSize_pos] at hfew
  rw [Nat.zero_mul, Nat.zero_add, UInt64.toNat_ofNat']
  unfold fixedChunkSize at hfew
  omega

/-- The first pass over parts that have been read. -/
def collectAll (d : Deployment) (parts : List (List UInt8)) :
    Except ApiError (List ChunkRef × ChunkCursor) := do
  let (pendingChunk, state) ← parts.foldlM
    (fun x bytes => collectFixedChunkRefs d bytes x.1 x.2) ([], [], .start)
  flushFixedChunkRef d pendingChunk state

/-- The second pass over parts that have been read. -/
def uploadAll (d : Deployment) (auth : AuthContext) (tenantId : TenantId) (sessionId : String)
    (parts : List (List UInt8)) : Dist ChunkCursor := do
  let (pendingChunk, cursor) ← parts.foldlM
    (fun x bytes => uploadFixedChunks d auth tenantId sessionId bytes x.1 x.2) ([], .start)
  flushFixedChunkUpload d auth tenantId sessionId pendingChunk cursor

/-- **Chunking does not depend on the borders of the parts**: the first pass collects the references
that `chunk_ciphertext` makes of the whole and stops at its length, and the second pass makes
a `put_chunk` call for each of these chunks, in order. -/
theorem chunking_of_parts (parts : List (List UInt8))
    (hfew : (chunkCiphertext d parts.flatten).length < 2 ^ 32) (auth : AuthContext)
    (tenantId : TenantId) (sessionId : String) :
    ∃ cursor : ChunkCursor, cursor.nextChunkOffset.toNat = parts.flatten.length ∧
      collectAll d parts = .ok ((chunkCiphertext d parts.flatten).map (·.ref), cursor) ∧
      uploadAll d auth tenantId sessionId parts = (do
        forM (chunkCiphertext d parts.flatten) fun chunk => do
          let _ ← callAlpha (.putChunk auth ⟨tenantId, sessionId, chunk.chunkIndex, chunk.cid,
            chunk.offset, chunk.storedLen⟩ chunk.bytes)
        return cursor) := by
  have hstart : ChunkCursor.start = .after 0 := rfl
  have hfew₀ : 0 + (stagedFrom d 0 parts.flatten).length < 2 ^ 32 := by
    rwa [stagedFrom_zero, Nat.zero_add]
  refine ⟨.behind d 0 parts.flatten, ?_, ?_, ?_⟩
  · exact toNat_ofNat_length hfew
  · rw [← stagedFrom_zero]
    refine (fillParts_eq (appendFixedChunkRef d) parts ([], .start)).trans ?_
    rw [hstart, emitAll_append _ _ _ hfew₀, nil_append]
  · rw [← stagedFrom_zero]
    refine (fillParts_eq (putFixedChunk d auth tenantId sessionId) parts .start).trans ?_
    rw [hstart, emitAll_put _ _ hfew₀, putChunks]

end Distribution

namespace Sample

open Hsp.Distribution

/-- Three parts, one of them empty, make one chunk. -/
theorem parts_chunked : ∃ cursor : ChunkCursor, cursor.nextChunkOffset.toNat = 3 ∧
    collectAll (deployment [] [] 0) [[1], [], [2, 3]] =
      .ok ((chunkCiphertext (deployment [] [] 0) [1, 2, 3]).map (·.ref), cursor) := by
  have hfew : (chunkCiphertext (deployment [] [] 0) [[1], [], [2, 3]].flatten).length < 2 ^ 32 := by
    decide +kernel
  obtain ⟨cursor, hoffset, hcollected, -⟩ := chunking_of_parts _ hfew (auth "0") tenant "s"
  exact ⟨cursor, hoffset, hcollected⟩

end Sample

end Hsp
