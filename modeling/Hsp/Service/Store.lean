import Hsp.Auth.Policy
import Hsp.Codec.Base64
import Hsp.Core.Env
import Hsp.Prog.Basic

/-!
# The store of a service

The service keeps records in a store of named entries.  A `Loc` names an entry by its store kind
and the arguments its key is made of; `Val` is the type of the record kept there.
`Hsp.Service.StoreKey` has the names of entries in the backing store and shows that distinct
entries have distinct names, so a store indexed by `Loc` loses nothing.

A request performs the operations of `Op`, one at a time, on a `World`: the store, the in-memory
replay cache and the clock.  Encryption of the entries and their JSON form are not modelled: an
entry that is read holds the record that was written.
-/

namespace Hsp

/-! ### Stored records -/

structure UploadSessionRecord where
  sessionId : String
  tenantId : TenantId
  manifest : Manifest
  manifestCid : String
  idempotencyKey : String
  storageClass : String
  atomicBind : Option AtomicBindRequest
  uploadedChunks : List UInt32
  committed : Bool
  createdAtMs : ℕ
  uploadDeadlineMs : ℕ
  deriving DecidableEq

structure ManifestRecord where
  tenantId : TenantId
  manifest : Manifest
  manifestCid : String
  objectCid : String
  storageClass : String
  committedAtMs : ℕ
  deriving DecidableEq

structure IdempotencyRecord (α : Type) where
  response : α
  deriving DecidableEq

structure ReplayRecord where
  tenantId : TenantId
  jti : String
  operation : String
  subject : String
  idempotencyKey : String
  observedAtMs : ℕ
  deriving DecidableEq

structure AuditRecord where
  seq : ℕ
  tenantId : TenantId
  operation : String
  subject : String
  atMs : ℕ
  deriving DecidableEq

structure SequenceState where
  nextSeq : ℕ
  deriving DecidableEq

structure NamespaceBindingState where
  path : String
  targetCid : Option String
  manifestCid : Option String
  revision : ℕ
  recordCid : String
  metadata : Metadata
  tombstone : Bool
  deriving DecidableEq

structure NamespaceCurrentState where
  ns : String
  revision : ℕ
  bindings : BTreeMap String NamespaceBindingState
  deriving DecidableEq

structure NamespaceRevisionState where
  nextRevision : ℕ
  deriving DecidableEq

structure NamespaceJournalEntry where
  revision : ℕ
  record : NamespaceMutationRecord
  recordCid : String
  targetCid : Option String
  manifestCid : Option String
  metadata : Metadata
  tombstone : Bool
  deriving DecidableEq

/-! ### Entries of the store -/

/-- The operations whose responses are kept for retries. -/
inductive IdempotentOp where
  | putInit | putCommit | bind | unbind
  deriving DecidableEq

def IdempotentOp.asStr : IdempotentOp → String
  | .putInit => "put_init"
  | .putCommit => "put_commit"
  | .bind => "bind"
  | .unbind => "unbind"

@[reducible] def IdempotentOp.Response : IdempotentOp → Type
  | .putInit => PutInitResponse
  | .putCommit => PutCommitResponse
  | .bind => BindResponse
  | .unbind => UnbindResponse

/-- The entries of the store. -/
inductive Loc where
  | sessions (tenantId : TenantId) (sessionId : String)
  | chunks (tenantId : TenantId) (cid : String)
  | manifests (tenantId : TenantId) (cid : String)
  | namespaceCurrent (tenantId : TenantId) (ns : String)
  | namespaceJournal (tenantId : TenantId) (ns : String)
  | namespaceRevisions (tenantId : TenantId) (ns : String)
  | audit (tenantId : TenantId) (key : String)
  /-- The response kept for an operation under the request's idempotency key. -/
  | idempotency (tenantId : TenantId) (op : IdempotentOp) (value : String)
  | replay (tenantId : TenantId) (key : String)
  /-- The counter of the event log. -/
  | eventSequence (tenantId : TenantId)
  /-- The event with a sequence number. -/
  | event (tenantId : TenantId) (seq : ℕ)
  deriving DecidableEq

/-- What is kept in an entry. -/
@[reducible] def Val : Loc → Type
  | .sessions _ _ => UploadSessionRecord
  | .chunks _ _ => List UInt8
  | .manifests _ _ => ManifestRecord
  | .namespaceCurrent _ _ => NamespaceCurrentState
  | .namespaceJournal _ _ => List NamespaceJournalEntry
  | .namespaceRevisions _ _ => NamespaceRevisionState
  | .audit _ _ => AuditRecord
  | .idempotency _ op _ => IdempotencyRecord op.Response
  | .replay _ _ => ReplayRecord
  | .eventSequence _ => SequenceState
  | .event _ _ => EventRecord

/-- The contents of a store. -/
abbrev Store := (l : Loc) → Option (Val l)

/-! ### Operations -/

/-- The atomic operations of a request. -/
inductive Op where
  /-- Read the clock. -/
  | now
  /-- Look up a use of a token in the replay cache and record it. -/
  | observe (replayKey : String) (idempotencyKey : Option String)
  | read (l : Loc)
  | write (l : Loc) (v : Val l)
  /-- Write an entry that must not exist yet; the result says whether it was written. -/
  | create (l : Loc) (v : Val l)
  | delete (l : Loc)
  | «exists» (l : Loc)

@[reducible] def Res : Op → Type
  | .now => ℕ
  | .observe _ _ => Except DenialReason ReplayStatus
  | .read l => Except ApiError (Option (Val l))
  | .write _ _ => Except ApiError Unit
  | .create _ _ => Except ApiError Bool
  | .delete _ => Except ApiError Unit
  | .exists _ => Bool

@[reducible] def storeSig : Sig := ⟨Op, Res⟩

/-- What the requests of one server share. -/
structure World where
  store : Store
  seen : ReplayCache
  /-- How often the clock has been read. -/
  tick : ℕ

namespace World

/-- A server that has just been set up. -/
def empty : World := ⟨fun _ => none, fun _ => none, 0⟩

/-- The world with one entry of the store set or removed. -/
def set (w : World) (l : Loc) (v : Option (Val l)) : World :=
  { w with store := Function.update w.store l v }

variable (w : World) (l l' : Loc) (v : Option (Val l))

@[simp] theorem set_store_self : (w.set l v).store l = v := Function.update_self ..

@[simp] theorem set_store_of_ne {l l' : Loc} (h : l' ≠ l) (v : Option (Val l)) :
    (w.set l v).store l' = w.store l' := Function.update_of_ne h ..

end World

/-- The operations on a store whose backend does not fail. -/
def exec (env : Env) : (o : Op) → World → Res o × World
  | .now, w => (env.clock w.tick, { w with tick := w.tick + 1 })
  | .observe replayKey idempotencyKey, w =>
    let (status, seen) := w.seen.observe replayKey idempotencyKey
    (status, { w with seen })
  | .read l, w => (.ok (w.store l), w)
  | .write l v, w => (.ok (), w.set l (some v))
  | .create l v, w =>
    match w.store l with
    | some _ => (.ok false, w)
    | none => (.ok true, w.set l (some v))
  | .delete l, w => (.ok (), w.set l none)
  | .exists l, w => ((w.store l).isSome, w)

theorem World.isSome_set {w : World} {l l' : Loc} (h : (w.store l').isSome) (v : Val l) :
    ((w.set l (some v)).store l').isSome := by
  by_cases he : l' = l
  · subst he; simp
  · rwa [set_store_of_ne _ he]

/-- Only a deletion removes an entry. -/
theorem isSome_exec {env : Env} {o : Op} {w : World} {l : Loc} (h : (w.store l).isSome)
    (ho : o ≠ .delete l) : ((exec env o w).2.store l).isSome := by
  cases o with
  | write l' v => exact World.isSome_set h v
  | create l' v =>
    simp only [exec]
    split
    · exact h
    · exact World.isSome_set h v
  | delete l' =>
    have hne : l ≠ l' := fun hl => ho (hl ▸ rfl)
    simp only [exec]
    rwa [World.set_store_of_ne _ hne]
  | _ => exact h

/-- The store reported an error. -/
def Op.Failed : (o : Op) → Res o → Prop
  | .read _, r => r.toBool = false
  | .write _ _, r => r.toBool = false
  | .create _ _, r => r.toBool = false
  | .delete _, r => r.toBool = false
  | .now, _ | .observe _ _, _ | .exists _, _ => False

/-- The store of a healthy backend reports no errors. -/
theorem not_failed_exec (env : Env) (o : Op) (w : World) : ¬ o.Failed (exec env o w).1 := by
  cases o with
  | create l v => simp only [exec, Op.Failed]; split <;> simp [Except.toBool]
  | _ => simp [exec, Op.Failed, Except.toBool]

/-- A fallible piece of request handling. -/
abbrev Svc (α : Type) := ExceptT ApiError (Prog storeSig) α

def nowMs : Svc ℕ := ExceptT.lift (Prog.perform (S := storeSig) .now)

def readEncryptedJson (l : Loc) : Svc (Option (Val l)) :=
  ExceptT.mk (Prog.perform (S := storeSig) (.read l))

def writeEncryptedJson (l : Loc) (v : Val l) : Svc Unit :=
  ExceptT.mk (Prog.perform (S := storeSig) (.write l v))

def createEncryptedJson (l : Loc) (v : Val l) : Svc Bool :=
  ExceptT.mk (Prog.perform (S := storeSig) (.create l v))

def deleteStoreKey (l : Loc) : Svc Unit :=
  ExceptT.mk (Prog.perform (S := storeSig) (.delete l))

def storeExists (l : Loc) : Svc Bool := ExceptT.lift (Prog.perform (S := storeSig) (.exists l))

/-- Stop with an error if a check fails. -/
def rejectIf (c : Prop) [Decidable c] (e : ApiError) : Svc Unit := if c then throw e else pure ()

/-! ### Running single operations -/

section Run

variable (env : Env) (w : World) (l : Loc)

@[simp] theorem runE_readEncryptedJson :
    runE (exec env) (readEncryptedJson l) w = (.ok (w.store l), w) := rfl

theorem runE_read_bind {α : Type} {env w l} {k : Option (Val l) → Svc α} :
    runE (exec env) (readEncryptedJson l >>= k) w = runE (exec env) (k (w.store l)) w := rfl

@[simp] theorem runE_writeEncryptedJson (v : Val l) :
    runE (exec env) (writeEncryptedJson l v) w = (.ok (), w.set l (some v)) := rfl

theorem runE_createEncryptedJson_none {w : World} {l : Loc} (h : w.store l = none) (v : Val l) :
    runE (exec env) (createEncryptedJson l v) w = (.ok true, w.set l (some v)) := by
  have hexec : exec env (.create l v) w = (.ok true, w.set l (some v)) := by simp only [exec, h]
  exact hexec

theorem runE_createEncryptedJson_some {w : World} {l : Loc} {old : Val l}
    (h : w.store l = some old) (v : Val l) :
    runE (exec env) (createEncryptedJson l v) w = (.ok false, w) := by
  have hexec : exec env (.create l v) w = (.ok false, w) := by simp only [exec, h]
  exact hexec

@[simp] theorem runE_storeExists :
    runE (exec env) (storeExists l) w = (.ok (w.store l).isSome, w) := rfl

@[simp] theorem runE_nowMs :
    runE (exec env) nowMs w = (.ok (env.clock w.tick), { w with tick := w.tick + 1 }) := rfl

@[simp] theorem runE_rejectIf (c : Prop) [Decidable c] (e : ApiError) :
    runE (exec env) (rejectIf c e) w = (if c then .error e else .ok (), w) := by
  unfold rejectIf
  split <;> rfl

theorem runE_rejectIf_of {c : Prop} [Decidable c] (h : c) (e : ApiError) :
    runE (exec env) (rejectIf c e) w = (.error e, w) := by simp [h]

theorem runE_rejectIf_of_not {c : Prop} [Decidable c] (h : ¬ c) (e : ApiError) :
    runE (exec env) (rejectIf c e) w = (.ok (), w) := by simp [h]

end Run

end Hsp
