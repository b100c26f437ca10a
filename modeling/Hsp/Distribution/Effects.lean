import Hsp.Distribution.Request
import Hsp.Prog.Triple
import Hsp.Service.Decision

/-!
# What a request can touch

`Request.writes` lists the kinds of entries a request writes or removes, and `Request.mutates` says
whether it makes calls to the `AlphaService` that change objects or namespaces.

* `Within.handle` : a request stays within these bounds;
* `Request.lookup_perform`, `Request.sameOn_perform` : so everything else stays as it was;
* `always_shows` : every action of a request sees the clock at a time within the request.
-/

namespace Hsp

variable {c : Call}

/-- The call asks what a path is bound to now. -/
def Call.ResolvesNow : Call → Prop
  | .resolve _ request => request.atRevision = none
  | _ => False

theorem Call.ResolvesNow.inquires (h : c.ResolvesNow) : c.Inquires := by
  cases c <;> trivial

namespace Distribution

open Prog (Alone)

variable {d : Deployment} {α β : Type} {G : Action → Server → Prop} {x : Dist α} {o : Action}
  {a : Slot} {K : List Kind} {C : Call → Prop} {I P : Server → Prop}
  {R : Action → Server → Server → Prop} {s : Server}

namespace Request

/-- The kinds of entries a request writes or removes. -/
def writes : Request → List Kind
  | .createBucket .. | .deleteBucket .. => [.bucketRegistry, .bucketMeta]
  | .putBucketAcl .. => [.bucketAcl]
  | .putObjectAcl .. => [.objectAcl]
  | .putLifecycleConfig .. | .deleteLifecycleConfig .. => [.lifecycle]
  | .putObjectRetention .. | .putObjectLegalHold .. => [.objectLock]
  | .putWebsiteConfig .. | .deleteWebsiteConfig .. => [.website]
  | .putReplicationConfig .. => [.replicationConfig]
  | .deleteReplicationConfig .. => [.replicationConfig, .replicationStatus]
  | .runReplicationOnce .. => [.replicationStatus]
  | .createMultipartUpload .. => [.multipartSessions]
  | .uploadPart .. | .completeMultipartUpload .. | .abortMultipartUpload .. =>
    [.multipartSessions, .multipartParts]
  | _ => []

/-- The request changes objects: it makes calls that change objects or namespaces. -/
def mutates : Request → Bool
  | .putObject .. | .copyObject .. | .deleteObject .. | .completeMultipartUpload ..
  | .runReplicationOnce .. => true
  | _ => false

/-- The calls a request may make. -/
@[reducible] def Calls (r : Request) : Call → Prop :=
  if r.mutates then fun _ => True else Call.Inquires

end Request

/-- The action writes entries of the given kinds only, and makes only calls in `C`. -/
def Action.Within (K : List Kind) (C : Call → Prop) : Action → Prop
  | .call c => C c
  | .own (.write a _) | .own (.delete a) => a.kind ∈ K
  | .own _ => True

/-- All actions of a program stay within the bounds. -/
def Within (K : List Kind) (C : Call → Prop) (x : Dist α) : Prop := OnlyE (Action.Within K C) x

namespace Within

variable {K : List Kind} {C : Call → Prop}

theorem pure (a : α) : Within K C (pure a : Dist α) := OnlyE.pure a

theorem throw (e : ApiError) : Within K C (throw e : Dist α) := OnlyE.throw e

theorem bind {f : α → Dist β} (hx : Within K C x) (hf : ∀ a, Within K C (f a)) :
    Within K C (x >>= f) := OnlyE.bind hx hf

theorem attempt (hx : Within K C x) : Within K C (Prog.attempt x) := OnlyE.attempt hx

theorem ite {c : Prop} [Decidable c] {y : Dist α} (hx : Within K C x) (hy : Within K C y) :
    Within K C (if c then x else y) := OnlyE.ite hx hy

theorem perform (h : o.Within K C) :
    Prog.Only (Action.Within K C) (Prog.perform (S := serverSig) o) := ⟨h, fun _ => trivial⟩

theorem callAlpha (h : C c) : Within K C (callAlpha c) := perform h

theorem nowMs : Within K C nowMs := Prog.Only.bind (perform trivial) fun _ => trivial

theorem draw : Within K C draw := Prog.Only.bind (perform trivial) fun _ => trivial

theorem readEncryptedJson (a : Slot) : Within K C (readEncryptedJson a) := perform trivial

theorem writeEncryptedJson (h : a.kind ∈ K) (v : a.Val) :
    Within K C (writeEncryptedJson a v) := perform h

theorem deleteStoreKey (h : a.kind ∈ K) : Within K C (deleteStoreKey a) := perform h

theorem listEncryptedJson (k : Kind) (t : TenantId) : Within K C (listEncryptedJson k t) :=
  perform trivial

theorem ofExcept (x : Except ApiError α) : Within K C (ofExcept x) := trivial

theorem checked {x : Except ApiError β} {f : β → Dist α} (hf : ∀ b, Within K C (f b)) :
    Within K C (Distribution.ofExcept x >>= f) := bind (ofExcept x) hf

theorem rejectIf (c : Prop) [Decidable c] (e : ApiError) : Within K C (rejectIf c e) :=
  ite (throw e) (pure ())

theorem orNotFound (record : Option α) (code message : String) :
    Within K C (orNotFound record code message) := by
  cases record with
  | some record => exact pure record
  | none => exact throw _

/-! ### The parts of a request -/

variable (auth : AuthContext) (t : TenantId)

theorem requireBucket (bucket : String) : Within K C (requireBucket t bucket) :=
  checked fun _ => bind (readEncryptedJson _) fun _ => orNotFound _ _ _

theorem objectAclAllowsRead (bucket : String) (key : Option String) :
    Within K C (objectAclAllowsRead t bucket key) := by
  cases key with
  | none => exact pure false
  | some key => exact bind (readEncryptedJson _) fun _ => pure _

theorem ensureBucketReadScopeFor (bucket : String) (key : Option String) :
    Within K C (ensureBucketReadScopeFor auth t bucket key) :=
  checked fun _ => ite (ofExcept _) <| bind (readEncryptedJson _) fun _ =>
    ite (ofExcept _) <| bind (objectAclAllowsRead t bucket key) fun _ => ite (ofExcept _) (throw _)

theorem ensureRetentionUpdateAllowed (current : ObjectLockRecord) (newUntil : Option UInt64)
    (newMode : Option String) :
    Within K C (ensureRetentionUpdateAllowed current newUntil newMode auth) := by
  unfold Distribution.ensureRetentionUpdateAllowed
  split
  · exact pure ()
  · exact bind nowMs fun _ => ite (pure ()) (ofExcept _)

theorem checkUnlocked (lock : ObjectLockRecord) (deleteOp : Bool) :
    Within K C (checkUnlocked lock deleteOp auth) := by
  refine bind (rejectIf _ _) fun _ => ?_
  split
  · exact pure ()
  · exact bind nowMs fun _ => rejectIf _ _

theorem ensureObjectMutationUnlocked (bucket key : String) (deleteOp : Bool) :
    Within K C (ensureObjectMutationUnlocked t bucket key deleteOp auth) :=
  bind (readEncryptedJson _) fun lock => by
    cases lock with
    | none => exact pure ()
    | some lock => exact checkUnlocked auth lock deleteOp

theorem headBucket (bucket : String) : Within K C (headBucket auth t bucket) :=
  checked fun _ => bind (ensureBucketReadScopeFor auth t _ none) fun _ =>
    bind (readEncryptedJson _) fun _ => orNotFound _ _ _

theorem changeBucket (bucket : String) : Within K C (changeBucket auth t bucket) :=
  checked fun _ => checked fun _ => bind (requireBucket t _) fun _ => pure _

theorem changeObject (bucket key : String) : Within K C (changeObject auth t bucket key) :=
  checked fun _ => checked fun _ => checked fun _ =>
    bind (requireBucket t _) fun _ => pure _

theorem removeConfig (bucket : String) {slots : String → List Slot}
    (h : ∀ b, ∀ a ∈ slots b, a.kind ∈ K) : Within K C (removeConfig auth t bucket slots) := by
  refine bind (ofExcept _) fun b => checked fun _ => ?_
  have hslots := h b
  generalize slots b = l at hslots
  induction l with
  | nil => exact pure ()
  | cons a l ih =>
    exact bind (deleteStoreKey (hslots a List.mem_cons_self)) fun _ =>
      ih fun a' ha' => hslots a' (List.mem_cons_of_mem _ ha')

theorem objectLockOrDefault (bucket key : String) :
    Within K C (objectLockOrDefault t bucket key) :=
  bind (readEncryptedJson _) fun _ => bind nowMs fun _ => pure _

theorem buildManifestFromChunkRefs (input : Description) (chunkRefs : List ChunkRef)
    (sizeBytes : UInt64) :
    Within K C (buildManifestFromChunkRefs input chunkRefs sizeBytes) := by
  refine bind nowMs fun _ => ?_
  dsimp only
  split
  · exact checked fun _ => pure _
  · exact throw _

theorem signNamespaceRecord (fields : NamespaceMutationFields) :
    Within K C (signNamespaceRecord d fields) := by
  unfold Distribution.signNamespaceRecord
  split
  · exact pure _
  · exact throw _

theorem resolveKey (hC : ∀ c : Call, c.ResolvesNow → C c) (ns key : String) :
    Within K C (resolveKey auth t ns key) :=
  callAlpha (hC _ rfl)

theorem existingObject (hC : ∀ c : Call, c.ResolvesNow → C c) (ns key : String) :
    Within K C (existingObject auth t ns key) :=
  bind (attempt (resolveKey auth t hC ns key)) fun result => by
    cases result with
    | ok resolved => exact pure _
    | error e => exact pure _

theorem overwrittenRevision (hC : ∀ c : Call, c.ResolvesNow → C c) (bucket : BucketRecord)
    (key : String) : Within K C (overwrittenRevision auth t bucket key) :=
  bind (existingObject auth t hC _ key) fun existing => by
    cases existing with
    | none => exact pure none
    | some resolved =>
      exact bind (ensureObjectMutationUnlocked auth t _ key false) fun _ => pure _

theorem orObjectError (hx : Within K C x) : Within K C (orObjectError x) :=
  bind (attempt hx) fun result => by
    cases result with
    | ok a => exact pure a
    | error e => exact throw _

theorem atomicBindFor (ns key manifestCid : String) (ifRevision : Option UInt64)
    (metadata : Metadata) :
    Within K C (atomicBindFor d t ns key manifestCid ifRevision metadata) :=
  bind nowMs fun _ => bind (signNamespaceRecord _) fun _ => pure _

theorem effectiveUpload (request : PutObjectRequest) (payload : List UInt8) :
    Within K C (effectiveUpload d request payload) := by
  refine ite (pure _) <| bind draw fun _ => bind draw fun _ => checked fun _ => ?_
  refine bind (ite (pure _) <| bind draw fun _ => checked fun _ => pure _) fun _ => pure _

theorem openBody (manifest : Manifest) (body : List UInt8) :
    Within K C (openBody d t manifest body) := by
  unfold Distribution.openBody
  split
  · exact throw _
  · split
    · exact throw _
    · exact checked fun _ => ofExcept _

section Reads

variable (hC : ∀ c : Call, c.Inquires → C c)

include hC

theorem headObject (request : HeadObjectRequest) : Within K C (headObject auth request) :=
  bind (requireBucket _ _) fun _ => checked fun _ =>
    bind (ensureBucketReadScopeFor auth _ _ _) fun _ =>
    bind (orObjectError (callAlpha (hC _ trivial))) fun _ => checked fun _ => pure _

theorem cidBinding (request : GetObjectRequest) (cid : String) :
    Within K C (cidBinding auth request cid) := by
  unfold Distribution.cidBinding
  split
  · exact bind (requireBucket _ _) fun _ => checked fun _ =>
      bind (ensureBucketReadScopeFor auth _ _ _) fun _ =>
      bind (orObjectError (resolveKey auth _ (fun _ h => hC _ h.inquires) _ _)) fun _ =>
      bind (rejectIf _ _) fun _ => pure _
  · exact checked fun _ => pure _
  · exact throw _

theorem readHead (request : GetObjectRequest) : Within K C (readHead auth request) := by
  unfold Distribution.readHead
  split
  · exact bind (cidBinding auth hC request _) fun _ => bind (callAlpha (hC _ trivial)) fun _ =>
      checked fun _ => pure _
  · dsimp only
    split
    · refine bind (pure _) fun _ => ?_
      split
      · exact bind (pure _) fun _ => bind (headObject auth hC _) fun _ =>
          bind (requireBucket _ _) fun _ => checked fun _ => pure _
      · exact bind (throw _) fun _ => bind (headObject auth hC _) fun _ =>
          bind (requireBucket _ _) fun _ => checked fun _ => pure _
    · exact throw _

theorem manifestFor (selector : ObjectSelector) (response : GetResponse) :
    Within K C (manifestFor auth t selector response) := by
  unfold Distribution.manifestFor
  split
  · exact pure _
  · exact bind (callAlpha (hC _ trivial)) fun _ => ofExcept _

theorem getObject (request : GetObjectRequest) : Within K C (getObject d auth request) :=
  checked fun _ => checked fun _ => bind (readHead auth hC request) fun _ =>
    checked fun _ => bind (callAlpha (hC _ trivial)) fun _ =>
    ite (bind (rejectIf _ _) fun _ => bind (manifestFor auth _ hC _ _) fun _ =>
      bind (openBody _ _ _) fun _ => pure _) (pure _)

theorem headItems (request : ListObjectsRequest) (items : List ListItem) :
    Within K C (headItems auth request items) := by
  induction items with
  | nil => exact pure []
  | cons item items ih => exact bind (headObject auth hC _) fun _ => bind ih fun _ => pure _

theorem listObjects (request : ListObjectsRequest) : Within K C (listObjects auth request) :=
  bind (requireBucket _ _) fun _ => checked fun _ =>
    bind (ensureBucketReadScopeFor auth _ _ _) fun _ => bind (callAlpha (hC _ trivial)) fun _ =>
    bind (headItems auth hC request _) fun _ => pure _

end Reads

theorem multipartSession (uploadId : String) : Within K C (multipartSession t uploadId) := by
  refine bind (readEncryptedJson _) fun entry => ?_
  split
  · exact pure _
  · exact throw _
  · exact throw _

theorem changeUpload (uploadId : String) : Within K C (changeUpload auth t uploadId) :=
  checked fun _ => bind (multipartSession t uploadId) fun _ =>
    checked fun _ => pure _

theorem multipartPartMeta (uploadId : String) (part : CompletedMultipartPart) :
    Within K C (multipartPartMeta t uploadId part) := by
  refine bind (readEncryptedJson _) fun entry => ?_
  split
  · exact throw _
  · exact throw _
  · exact bind (rejectIf _ _) fun _ => bind (rejectIf _ _) fun _ => pure _

theorem multipartPartCiphertext (uploadId : String) (part : CompletedMultipartPart) :
    Within K C (multipartPartCiphertext d t uploadId part) := by
  refine bind (multipartPartMeta t uploadId part) fun _ => bind (readEncryptedJson _) fun _ => ?_
  split
  · exact throw _
  · exact bind (rejectIf _ _) fun _ => pure _

theorem collectParts (uploadId : String) (parts : List CompletedMultipartPart)
    (previous : Option UInt32) (state : List UInt8 × List ChunkRef × ChunkCursor) :
    Within K C (collectParts d t uploadId parts previous state) := by
  induction parts generalizing previous state with
  | nil => exact pure _
  | cons part parts ih =>
    exact bind (rejectIf _ _) fun _ => bind (multipartPartCiphertext t uploadId part) fun _ =>
      checked fun _ => ih _ _

theorem collectChunkRefs (uploadId : String) (parts : List CompletedMultipartPart) :
    Within K C (collectChunkRefs d t uploadId parts) :=
  bind (collectParts t uploadId parts none _) fun _ => checked fun _ =>
    bind (rejectIf _ _) fun _ => pure _

theorem cleanupMultipart (hsessions : .multipartSessions ∈ K) (hparts : .multipartParts ∈ K)
    (uploadId : String) (numbers : List UInt32) :
    Within K C (cleanupMultipart t uploadId numbers) := by
  refine bind ?_ fun _ => deleteStoreKey hsessions
  induction numberSet numbers with
  | nil => exact pure ()
  | cons number numbers ih =>
    exact bind (deleteStoreKey hparts) fun _ => bind (deleteStoreKey hsessions) fun _ => ih

/-! ### Requests that change objects -/

theorem deleteObject (request : DeleteObjectRequest) :
    Within K (fun _ => True) (deleteObject d auth request) :=
  bind (requireBucket _ _) fun _ => checked fun _ => checked fun _ =>
    bind (orObjectError (resolveKey auth _ (fun _ _ => trivial) _ _)) fun _ =>
    bind (rejectIf _ _) fun _ => bind (ensureObjectMutationUnlocked auth _ _ _ _) fun _ =>
    bind nowMs fun _ =>
    bind (signNamespaceRecord _) fun _ => bind (callAlpha trivial) fun _ => pure _

theorem copyObject (request : CopyObjectRequest) :
    Within K (fun _ => True) (copyObject d auth request) :=
  bind (requireBucket _ _) fun _ => bind (requireBucket _ _) fun _ => checked fun _ =>
    checked fun _ => bind (ensureBucketReadScopeFor auth _ _ _) fun _ =>
    checked fun _ =>
    bind (orObjectError (resolveKey auth _ (fun _ _ => trivial) _ _)) fun _ =>
    bind (rejectIf _ _) fun _ => bind (existingObject auth _ (fun _ _ => trivial) _ _) fun _ =>
    bind (ensureObjectMutationUnlocked auth _ _ _ _) fun _ => bind (orNotFound _ _ _) fun _ =>
    bind nowMs fun _ => bind (signNamespaceRecord _) fun _ =>
    bind (callAlpha trivial) fun _ => pure _

theorem putObject (request : PutObjectRequest) (payload : List UInt8) :
    Within K (fun _ => True) (putObject d auth request payload) := by
  refine checked fun _ => bind (requireBucket _ _) fun _ => checked fun _ =>
    checked fun _ => bind (effectiveUpload request payload) fun upload =>
    checked fun _ => bind (overwrittenRevision auth _ (fun _ _ => trivial) _ _) fun _ =>
    bind (buildManifestFromChunkRefs _ _ _) fun _ => bind (atomicBindFor _ _ _ _ _ _) fun _ =>
    bind (callAlpha trivial) fun init => bind ?_ fun _ =>
    bind (callAlpha trivial) fun _ => pure _
  induction chunkCiphertext d upload.1 with
  | nil => exact pure ()
  | cons chunk chunks ih => exact bind (bind (callAlpha trivial) fun _ => pure _) fun _ => ih

theorem replicateItems (config : ReplicationConfig) (items : List ObjectListItem)
    (counts : ℕ × ℕ × Option String) :
    Within K (fun _ => True) (replicateItems d auth t config items counts) := by
  induction items generalizing counts with
  | nil => exact pure _
  | cons item items ih =>
    refine bind nowMs fun _ => bind (attempt (copyObject auth _)) fun result => ?_
    cases result with
    | ok _ => exact ih _
    | error _ => exact ih _

theorem fillChunks {σ : Type} {emit : List UInt8 → σ → Dist σ}
    (h : ∀ bytes state, Within K C (emit bytes state)) (rounds : ℕ)
    (remaining pending : List UInt8) (state : σ) :
    Within K C (fillChunks emit rounds remaining pending state) := by
  induction rounds generalizing remaining pending state with
  | zero => exact pure _
  | succ rounds ih => exact ite (pure _) <| ite (bind (h _ _) fun _ => ih _ _ _) (ih _ _ _)

theorem putFixedChunk (sessionId : String) (bytes : List UInt8) (cursor : ChunkCursor) :
    Within K (fun _ => True) (putFixedChunk d auth t sessionId bytes cursor) :=
  bind (callAlpha trivial) fun _ => ofExcept _

theorem uploadParts (uploadId sessionId : String) (parts : List CompletedMultipartPart)
    (state : List UInt8 × ChunkCursor) :
    Within K (fun _ => True) (uploadParts d auth t uploadId sessionId parts state) := by
  induction parts generalizing state with
  | nil => exact pure _
  | cons part parts ih =>
    exact bind (multipartPartCiphertext t uploadId part) fun _ =>
      bind (fillChunks (fun _ _ => putFixedChunk auth t sessionId _ _) _ _ _ _) fun _ => ih _

theorem announceCompletion (request : CompleteMultipartUploadRequest)
    (session : MultipartSessionRecord) (bucket : BucketRecord) (chunkRefs : List ChunkRef)
    (sizeBytes : UInt64) :
    Within K (fun _ => True)
      (announceCompletion d auth request session bucket chunkRefs sizeBytes) :=
  bind (overwrittenRevision auth _ (fun _ _ => trivial) _ _) fun _ =>
    bind (buildManifestFromChunkRefs _ _ _) fun _ => bind (atomicBindFor _ _ _ _ _ _) fun _ =>
    bind (callAlpha trivial) fun _ => pure _

theorem commitCompletion (request : CompleteMultipartUploadRequest)
    (session : MultipartSessionRecord) (manifestCid sessionId : String) :
    Within K (fun _ => True) (commitCompletion d auth request session manifestCid sessionId) :=
  bind (uploadParts auth _ _ _ _ _) fun _ =>
    bind (ite (pure _) (putFixedChunk auth _ _ _ _)) fun _ => callAlpha trivial

theorem completeMultipartUpload (hsessions : .multipartSessions ∈ K)
    (hparts : .multipartParts ∈ K) (request : CompleteMultipartUploadRequest) :
    Within K (fun _ => True) (completeMultipartUpload d auth request) :=
  bind (changeUpload auth _ _) fun _ => checked fun _ =>
    bind (collectChunkRefs _ _ _) fun _ => bind (requireBucket _ _) fun _ =>
    bind (announceCompletion auth _ _ _ _ _) fun _ => bind (commitCompletion auth _ _ _ _) fun _ =>
    bind (writeEncryptedJson hsessions _) fun _ => bind (cleanupMultipart _ hsessions hparts _ _)
    fun _ => pure _

/-! ### Requests -/

/-- **A request stays within its bounds.** -/
theorem handle (r : Request) : Within r.writes r.Calls (r.handle d) := by
  cases r with
  | createBucket auth t bucket =>
    exact checked fun _ => checked fun _ => bind (readEncryptedJson _) fun _ =>
      bind (rejectIf _ _) fun _ => bind nowMs fun _ =>
      bind (writeEncryptedJson (.head _) _) fun _ => bind nowMs fun _ =>
      bind (writeEncryptedJson (.tail _ (.head _)) _) fun _ => pure _
  | listBuckets auth t =>
    exact checked fun _ => bind (listEncryptedJson _ _) fun _ => pure _
  | headBucket auth t bucket => exact headBucket auth t bucket
  | deleteBucket auth t bucket =>
    exact checked fun _ => checked fun _ => bind (headBucket auth t _) fun _ =>
      bind (callAlpha trivial) fun _ => bind (rejectIf _ _) fun _ =>
      bind (bind (listEncryptedJson _ _) fun _ => pure _) fun _ => bind (rejectIf _ _) fun _ =>
      bind (deleteStoreKey (.head _)) fun _ => deleteStoreKey (.tail _ (.head _))
  | putBucketAcl auth t bucket acl =>
    exact bind (changeBucket auth t bucket) fun _ => bind nowMs fun _ =>
      bind (writeEncryptedJson (.head _) _) fun _ => pure _
  | getBucketAcl auth t bucket =>
    exact checked fun _ => bind (ensureBucketReadScopeFor auth t _ _) fun _ =>
      bind (requireBucket t _) fun _ => bind (readEncryptedJson _) fun _ => bind nowMs fun _ =>
      pure _
  | putObjectAcl auth t bucket key acl =>
    exact bind (changeObject auth t bucket key) fun _ => bind nowMs fun _ =>
      bind (writeEncryptedJson (.head _) _) fun _ => pure _
  | getObjectAcl auth t bucket key =>
    exact checked fun _ => checked fun _ =>
      bind (ensureBucketReadScopeFor auth t _ _) fun _ => bind (requireBucket t _) fun _ =>
      bind (readEncryptedJson _) fun _ => bind nowMs fun _ => pure _
  | putLifecycleConfig auth config =>
    exact bind (changeBucket auth _ _) fun _ => bind (rejectIf _ _) fun _ => bind nowMs fun _ =>
      bind (writeEncryptedJson (.head _) _) fun _ => pure _
  | getLifecycleConfig auth t bucket =>
    exact checked fun _ => bind (ensureBucketReadScopeFor auth t _ _) fun _ =>
      bind (requireBucket t _) fun _ => bind (readEncryptedJson _) fun _ => orNotFound _ _ _
  | deleteLifecycleConfig auth t bucket =>
    exact removeConfig auth t bucket fun _ _ ha => by simp_all [Request.writes]
  | putObjectRetention auth t bucket key immutableUntilMs mode =>
    exact bind (changeObject auth t bucket key) fun _ => bind (objectLockOrDefault t _ _) fun _ =>
      bind (ensureRetentionUpdateAllowed auth _ _ _) fun _ => bind nowMs fun _ =>
      bind (writeEncryptedJson (.head _) _) fun _ => pure _
  | putObjectLegalHold auth t bucket key legalHold =>
    refine bind (changeObject auth t bucket key) fun _ => bind (objectLockOrDefault t _ _) fun _ =>
      ite (checked fun _ => ?_) ?_ <;>
    exact bind nowMs fun _ => bind (writeEncryptedJson (.head _) _) fun _ => pure _
  | getObjectLock auth t bucket key =>
    exact checked fun _ => checked fun _ =>
      bind (ensureBucketReadScopeFor auth t _ _) fun _ => objectLockOrDefault t _ _
  | putWebsiteConfig auth config =>
    exact bind (changeBucket auth _ _) fun _ => bind (rejectIf _ _) fun _ => bind nowMs fun _ =>
      bind (writeEncryptedJson (.head _) _) fun _ => pure _
  | getWebsiteConfig auth t bucket =>
    exact checked fun _ => bind (ensureBucketReadScopeFor auth t _ _) fun _ =>
      bind (readEncryptedJson _) fun _ => orNotFound _ _ _
  | deleteWebsiteConfig auth t bucket =>
    exact removeConfig auth t bucket fun _ _ ha => by simp_all [Request.writes]
  | putReplicationConfig auth config =>
    exact checked fun _ => checked fun _ => checked fun _ =>
      checked fun _ => bind (rejectIf _ _) fun _ => bind (requireBucket _ _) fun _ =>
      bind (requireBucket _ _) fun _ => bind nowMs fun _ =>
      bind (writeEncryptedJson (.head _) _) fun _ => pure _
  | getReplicationConfig auth t bucket =>
    exact checked fun _ => bind (ensureBucketReadScopeFor auth t _ _) fun _ =>
      bind (readEncryptedJson _) fun _ => orNotFound _ _ _
  | getReplicationStatus auth t bucket =>
    exact checked fun _ => bind (ensureBucketReadScopeFor auth t _ _) fun _ =>
      bind (readEncryptedJson _) fun _ => pure _
  | deleteReplicationConfig auth t bucket =>
    refine removeConfig auth t bucket fun b a ha => ?_
    rcases List.mem_pair.1 ha with rfl | rfl <;> simp [Request.writes]
  | runReplicationOnce auth t bucket =>
    exact checked fun _ => checked fun _ =>
      bind (checked fun _ => bind (ensureBucketReadScopeFor auth t _ _) fun _ =>
        bind (readEncryptedJson _) fun _ => orNotFound _ _ _) fun _ =>
      bind (ite (bind (listObjects auth (fun _ _ => trivial) _) fun _ =>
        replicateItems auth t _ _ _) (pure _)) fun _ =>
      bind nowMs fun _ => bind (writeEncryptedJson (.head _) _) fun _ => pure _
  | putObject auth request payload => exact putObject auth request payload
  | headObject auth request => exact headObject auth (fun _ h => h) request
  | getObject auth request => exact getObject auth (fun _ h => h) request
  | deleteObject auth request => exact deleteObject auth request
  | listObjects auth request => exact listObjects auth (fun _ h => h) request
  | copyObject auth request => exact copyObject auth request
  | createMultipartUpload auth request =>
    exact checked fun _ => bind (requireBucket _ _) fun _ => checked fun _ =>
      checked fun _ => bind (rejectIf _ _) fun _ => bind nowMs fun _ =>
      bind nowMs fun _ => bind (writeEncryptedJson (.head _) _) fun _ => pure _
  | uploadPart auth request part =>
    exact bind (changeUpload auth _ _) fun _ => bind (rejectIf _ _) fun _ =>
      bind (writeEncryptedJson (.tail _ (.head _)) _) fun _ => bind nowMs fun _ =>
      bind (writeEncryptedJson (.head _) _) fun _ => pure _
  | completeMultipartUpload auth request =>
    exact completeMultipartUpload auth (.head _) (.tail _ (.head _)) request
  | abortMultipartUpload auth request =>
    exact bind (changeUpload auth _ _) fun _ =>
      bind (bind (listEncryptedJson _ _) fun _ => pure _) fun _ =>
      bind (cleanupMultipart _ (.head _) (.tail _ (.head _)) _ _) fun _ => deleteStoreKey (.head _)
  | subscribeStart auth request => exact callAlpha trivial
  | subscribePoll auth request cursor => exact callAlpha trivial

end Within

/-! ### What stays -/

theorem tick_le_exec (env : Env) (o : Op) (w : World) : w.tick ≤ (exec env o w).2.tick := by
  cases o with
  | now => exact Nat.le_succ _
  | create l v => simp only [exec]; split <;> exact le_rfl
  | _ => exact le_rfl

theorem tick_le_runE (env : Env) (x : Svc α) (w : World) :
    w.tick ≤ (runE (exec env) x w).2.tick :=
  runE_invariant (I := fun w' => w.tick ≤ w'.tick) (fun o w' h => h.trans (tick_le_exec env o w')) x
    le_rfl

theorem tick_le_act (d : Deployment) (o : Action) (s : Server) :
    s.alpha.tick ≤ (act d o s).2.alpha.tick := by
  cases o with
  | call c => exact tick_le_runE _ _ _
  | own o =>
    cases o with
    | now => exact Nat.le_succ _
    | _ => exact le_rfl

/-- Entries of a kind that an action does not write stay as they are. -/
theorem Action.Within.lookup (ho : o.Within K C) (ha : a.kind ∉ K) (s : Server) :
    (act d o s).2.lookup a = s.lookup a := by
  cases o with
  | call c => rfl
  | own o =>
    cases o with
    | write b v =>
      have hne : a ≠ b := by rintro rfl; exact ha ho
      exact Server.lookup_put_of_ne hne v
    | delete b =>
      have hne : a ≠ b := by rintro rfl; exact ha ho
      exact Server.lookup_remove_of_ne hne
    | _ => rfl

/-- An action that makes no call that changes objects leaves the data of the `AlphaService`
alone. -/
theorem Action.Within.sameOn (ho : o.Within K Call.Inquires) (s : Server) :
    SameOn Loc.isData s.alpha (act d o s).2.alpha := by
  cases o with
  | call c =>
    have hc : c.Inquires := ho
    have hsame := (((Inquiry.reading _).call hc).aside d.toEnv).run d.toEnv s.alpha
    rw [← Call.perform, Call.perform_eq_answer] at hsame
    exact hsame.1
  | own o => cases o <;> exact fun _ _ => rfl

namespace Within

variable {K : List Kind} {x : Dist α}

theorem lookup_runE (h : Within K C x) (ha : a.kind ∉ K) (s : Server) :
    (runE (act d) x s).2.lookup a = s.lookup a :=
  OnlyE.runE (I := fun s' : Server => s'.lookup a = s.lookup a) h
    (fun _ _ ho hs => (ho.lookup ha _).trans hs) rfl

/-- What does not depend on the entries a program writes, nor on anything but the data of the
`AlphaService`, is kept by a program that makes no call that changes objects. -/
theorem keeps (h : Within K Call.Inquires x)
    (hI : ∀ s s', (∀ a : Slot, a.kind ∉ K → s'.lookup a = s.lookup a) →
      SameOn Loc.isData s.alpha s'.alpha → I s → I s') : Keeps (act d) (Alone G) I x :=
  OnlyE.keeps h fun _ s ho => hI s _ (fun _ ha => ho.lookup ha s) (ho.sameOn s)

theorem sameOn_runE (h : Within K Call.Inquires x) (s : Server) :
    SameOn Loc.isData s.alpha (runE (act d) x s).2.alpha :=
  OnlyE.runE (I := fun s' : Server => SameOn Loc.isData s.alpha s'.alpha) h
    (fun _ _ ho hs => hs.trans (ho.sameOn _)) fun _ _ => rfl

end Within

namespace Request

variable (r : Request) (s : Server)

/-- **Entries of kinds a request does not write stay as they are.** -/
theorem lookup_perform (ha : a.kind ∉ r.writes) :
    (r.perform d s).2.lookup a = s.lookup a := (Within.handle r).lookup_runE ha s

/-- **A request that makes no call that changes objects changes no namespace.** -/
theorem sameOn_perform (hr : r.mutates = false) :
    SameOn Loc.isData s.alpha (r.perform d s).2.alpha := by
  have hwithin : Within r.writes r.Calls (r.handle d) := Within.handle r
  rw [Calls, if_neg (by simp [hr])] at hwithin
  exact hwithin.sameOn_runE s

end Request

/-- What a call establishes, from its run on the `AlphaService`. -/
theorem triple_callAlpha {Q : c.Response → Server → Prop} {E : ApiError → Server → Prop}
    (h : ∀ s result w', P s → G (.call c) s →
      runE (exec d.toEnv) (c.answer d.toEnv) s.alpha = (result, w') →
      postE Q E result { s with alpha := w' }) : Triple (act d) (Alone G) P (callAlpha c) Q E := by
  rintro s hs _ ⟨rfl, hG⟩
  have hpost := h s _ _ hs hG rfl
  exact hpost

/-! ### Rules for single actions -/

section Rules

variable {P : Server → Prop} {E : ApiError → Server → Prop} {Q : Unit → Server → Prop}

theorem triple_read {Q : Option a.Val → Server → Prop} (h : ∀ s, P s → Q (s.lookup a) s) :
    Triple (act d) (Alone G) P (readEncryptedJson a) Q E := by
  rintro s hs _ ⟨rfl, -⟩
  exact h s hs

theorem triple_nowMs {Q : ℕ → Server → Prop}
    (h : ∀ s, P s → G (.own .now) s → Q (d.clock s.alpha.tick) s.ticked) :
    Triple (act d) (Alone G) P nowMs Q E := by
  rintro s hs _ ⟨rfl, hG⟩
  exact h s hs hG

theorem triple_rejectIf {c : Prop} [Decidable c] {e : ApiError} (h : ∀ s, P s → ¬ c → Q () s)
    (hE : ∀ s, P s → c → E e s) : Triple (act d) (Alone G) P (rejectIf c e) Q E := by
  unfold rejectIf
  split
  · rename_i hc
    exact .throw fun s hs => hE s hs hc
  · rename_i hc
    exact .pure fun s hs => h s hs hc

end Rules

theorem keeps_fillChunks {σ : Type} {emit : List UInt8 → σ → Dist σ}
    (h : ∀ bytes state, Keeps (act d) R I (emit bytes state)) (rounds : ℕ)
    (remaining pending : List UInt8) (state : σ) :
    Keeps (act d) R I (fillChunks emit rounds remaining pending state) := by
  induction rounds generalizing remaining pending state with
  | zero => exact .pure _
  | succ rounds ih => exact .ite (.pure _) <| .ite (.bind (h _ _) fun _ => ih _ _ _) (ih _ _ _)

theorem triple_orObjectError {Q : α → Server → Prop} {E : Server → Prop}
    (h : Triple (act d) R P x Q fun _ => E) : Triple (act d) R P (orObjectError x) Q fun _ => E :=
  Triple.bind (Triple.attempt (Q := fun result s' => postE Q (fun _ => E) result s') h)
    fun result => by
      cases result with
      | ok a => exact Triple.pure fun _ hq => hq
      | error e => exact Triple.throw fun _ he => he

/-! ### What the clock shows -/

/-- If the action reads the clock, then at a time with the property `φ`. -/
def Shows (d : Deployment) (φ : ℕ → Prop) (o : Action) (s : Server) : Prop :=
  s.alpha.tick < (act d o s).2.alpha.tick → φ (d.clock s.alpha.tick)

theorem tick_le_run (p : Prog serverSig α) (s : Server) :
    s.alpha.tick ≤ (p.run (act d) s).2.alpha.tick := by
  induction p generalizing s with
  | ret a => exact le_rfl
  | op o k ih => exact (tick_le_act d o s).trans (ih _ _)

/-- A program all of whose readings of the clock have a property. -/
theorem always_shows {φ : ℕ → Prop} {p : Prog serverSig α}
    (h : ∀ n, s.alpha.tick ≤ n → n < (p.run (act d) s).2.alpha.tick → φ (d.clock n)) :
    p.Always (act d) (Shows d φ) s := by
  induction p generalizing s with
  | ret a => trivial
  | op o k ih =>
    have hrest := tick_le_run (d := d) (k (act d o s).1) (act d o s).2
    refine ⟨fun hread => h _ le_rfl (hread.trans_le hrest), ih _ fun n hn hend => ?_⟩
    exact h n ((tick_le_act d o s).trans hn) hend

/-- An invariant of the `AlphaService` that its calls keep, and that does not depend on the clock,
is kept by every action. -/
theorem alpha_act {I : World → Prop} (htick : ∀ w, I w → I (w.ticked 1))
    (hcall : ∀ (c : Call) w, I w → I (c.perform d.toEnv w).2) (o : Action) (s : Server)
    (h : I s.alpha) : I (act d o s).2.alpha := by
  cases o with
  | call c =>
    have hperform := hcall c s.alpha h
    rwa [Call.perform_eq_answer] at hperform
  | own o =>
    cases o with
    | now => exact htick _ h
    | _ => exact h

/-- **Invariants of runs.**  What every request keeps holds after any sequence of requests. -/
theorem runRequests_invariant (hI : ∀ (r : Request) s, I s → I (r.perform d s).2)
    (requests : List Request) (h : I s) : I (runRequests d requests s) := by
  induction requests generalizing s with
  | nil => exact h
  | cons r requests ih => exact ih (hI r s h)

/-- Each request of a sequence meets a condition in the state in which it is made. -/
def EachRequest (d : Deployment) (P : Request → Server → Prop) : List Request → Server → Prop
  | [], _ => True
  | r :: requests, s => P r s ∧ EachRequest d P requests (r.perform d s).2

/-- What requests keep under a condition holds after a sequence of requests that meet it. -/
theorem EachRequest.invariant {P : Request → Server → Prop}
    (hI : ∀ r s, P r s → I s → I (r.perform d s).2) {requests : List Request}
    (h : EachRequest d P requests s) (hs : I s) : I (runRequests d requests s) := by
  induction requests generalizing s with
  | nil => exact hs
  | cons r requests ih => exact ih h.2 (hI r s h.1 hs)

/-! ### Buckets are registered under their names -/

/-- Every bucket is registered under its name, and its namespace has the same name. -/
def Registered (s : Server) : Prop :=
  ∀ t name record, s.lookup (bucketSlot t name) = some record →
    record.bucket = name ∧ record.ns = name

/-- The action keeps the buckets registered under their names. -/
def Action.Registers (d : Deployment) (o : Action) : Prop :=
  ∀ s, Registered s → Registered (act d o s).2

namespace Registered

variable {s : Server}

theorem same {s' : Server} (h : Registered s)
    (hs : ∀ a : Slot, a.kind = .bucketRegistry → s'.lookup a = s.lookup a) : Registered s' :=
  fun t name record hrecord => h t name record ((hs _ rfl).symm.trans hrecord)

theorem put (h : Registered s) (t : TenantId) (name : String) {v : BucketRecord}
    (hv : v.bucket = name ∧ v.ns = name) : Registered (s.put (bucketSlot t name) v) := by
  intro t' name' record hrecord
  by_cases heq : bucketSlot t' name' = bucketSlot t name
  · obtain ⟨-, rfl, rfl⟩ := Slot.mk.inj heq
    rw [Server.lookup_put] at hrecord
    cases hrecord
    exact hv
  · rw [Server.lookup_put_of_ne heq] at hrecord
    exact h t' name' record hrecord

theorem remove (h : Registered s) (a : Slot) : Registered (s.remove a) := by
  intro t name record hrecord
  by_cases heq : bucketSlot t name = a
  · subst heq
    rw [Server.lookup_remove] at hrecord
    cases hrecord
  · rw [Server.lookup_remove_of_ne heq] at hrecord
    exact h t name record hrecord

theorem empty : Registered .empty := fun t name record hrecord => by
  simp [Server.lookup, Server.empty] at hrecord

theorem of_within (h : Within K C x) (hK : .bucketRegistry ∉ K) : OnlyE (Action.Registers d) x :=
  h.mono fun _ ho s hs => hs.same fun _ ha => ho.lookup (ha ▸ hK) s

/-- **All actions of a request keep the buckets registered under their names.** -/
theorem handle (r : Request) : OnlyE (Action.Registers d) (r.handle d) := by
  by_cases hr : .bucketRegistry ∉ r.writes
  · exact of_within (Within.handle r) hr
  · have plain {α : Type} {x : Dist α} (hx : Within [.bucketMeta] (fun _ => True) x) :
        OnlyE (Action.Registers d) x := of_within hx (by decide)
    cases r with
    | createBucket auth t bucket =>
      have hwrite (name : String) {v : BucketRecord} (hv : v.bucket = name ∧ v.ns = name) :
          OnlyE (Action.Registers d) (writeEncryptedJson (bucketSlot t name) v) :=
        ⟨fun _ hs => hs.put t name hv, fun _ => trivial⟩
      exact .bind (plain (.ofExcept _)) fun name => .bind (plain (.ofExcept _)) fun _ =>
        .bind (plain (.readEncryptedJson _)) fun _ => .bind (plain (.rejectIf _ _)) fun _ =>
        .bind (plain .nowMs) fun _ => .bind (hwrite name ⟨rfl, rfl⟩) fun _ =>
        .bind (plain .nowMs) fun _ =>
        .bind (plain (.writeEncryptedJson (.head _) _)) fun _ => .pure _
    | deleteBucket auth t bucket =>
      have hdelete (name : String) : OnlyE (Action.Registers d)
          (deleteStoreKey (bucketSlot t name)) := ⟨fun _ hs => hs.remove _, fun _ => trivial⟩
      exact .bind (plain (.ofExcept _)) fun name => .bind (plain (.ofExcept _)) fun _ =>
        .bind (plain (.headBucket auth t _)) fun _ => .bind (plain (.callAlpha trivial)) fun _ =>
        .bind (plain (.rejectIf _ _)) fun _ =>
        .bind (plain (.bind (.listEncryptedJson _ _) fun _ => .pure _)) fun _ =>
        .bind (plain (.rejectIf _ _)) fun _ => .bind (hdelete name) fun _ =>
        plain (.deleteStoreKey (.head _))
    | _ => exact absurd (by simp [Request.writes]) hr

theorem perform (r : Request) (s : Server) (h : Registered s) : Registered (r.perform d s).2 :=
  (handle r).runE (fun _ s ho hs => ho s hs) h

theorem runRequests (requests : List Request) : Registered (runRequests d requests .empty) :=
  runRequests_invariant perform requests empty

end Registered

end Distribution

end Hsp
