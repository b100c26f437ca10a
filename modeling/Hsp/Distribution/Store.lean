import Hsp.Distribution.Records

/-!
# The store of the distribution service

What the requests of a distribution server share is a `Server`: the world of the `AlphaService`
below it, the entries of its own store, and the randomness its key management has drawn.  A request
performs the actions of `Action`, one at a time: a call to the `AlphaService`, or an operation on
its own store.  Both read the same clock.

A `Slot` names an entry by its kind, its tenant and its key.  The keys are the strings the source
builds, so that two records that share a key share an entry.  An entry is listed when its kind is.
-/

namespace Hsp.Distribution

/-! ### Entries -/

/-- The kinds of entries.  Two kinds of one store directory have keys that begin differently. -/
inductive Kind where
  | bucketRegistry | bucketMeta | bucketAcl | objectAcl | lifecycle | objectLock | website
  | replicationConfig | replicationStatus | multipartSessions | multipartParts
  deriving DecidableEq

/-- What is kept in an entry of a kind. -/
@[reducible] def Kind.Val : Kind → Type
  | .bucketRegistry => BucketRecord
  | .bucketMeta => DistributionMetadataRecord
  | .bucketAcl => BucketAclRecord
  | .objectAcl => ObjectAclRecord
  | .lifecycle => LifecycleConfig
  | .objectLock => ObjectLockRecord
  | .website => WebsiteConfig
  | .replicationConfig => ReplicationConfig
  | .replicationStatus => ReplicationStatus
  | .multipartSessions => MultipartEntry
  | .multipartParts => List UInt8

/-- The name of an entry. -/
structure Slot where
  kind : Kind
  tenantId : TenantId
  key : String
  deriving DecidableEq

@[reducible] def Slot.Val (a : Slot) : Type := a.kind.Val

section Slots

variable (tenantId : TenantId) (bucket key : String)

@[reducible] def bucketSlot : Slot := ⟨.bucketRegistry, tenantId, bucket⟩
@[reducible] def bucketMetaSlot : Slot := ⟨.bucketMeta, tenantId, "bucket-meta-" ++ bucket⟩
@[reducible] def bucketAclSlot : Slot := ⟨.bucketAcl, tenantId, bucketAclStoreKey bucket⟩
@[reducible] def objectAclSlot : Slot := ⟨.objectAcl, tenantId, objectAclStoreKey bucket key⟩
@[reducible] def lifecycleSlot : Slot := ⟨.lifecycle, tenantId, lifecycleStoreKey bucket⟩
@[reducible] def objectLockSlot : Slot := ⟨.objectLock, tenantId, objectLockStoreKey bucket key⟩
@[reducible] def websiteSlot : Slot := ⟨.website, tenantId, websiteStoreKey bucket⟩
@[reducible] def replicationConfigSlot : Slot :=
  ⟨.replicationConfig, tenantId, replicationConfigStoreKey bucket⟩
@[reducible] def replicationStatusSlot : Slot :=
  ⟨.replicationStatus, tenantId, replicationStatusStoreKey bucket⟩
@[reducible] def multipartSessionSlot (uploadId : String) : Slot :=
  ⟨.multipartSessions, tenantId, uploadId⟩
@[reducible] def multipartPartSlot (uploadId : String) (partNumber : UInt32) : Slot :=
  ⟨.multipartParts, tenantId, multipartPartStoreKey uploadId partNumber⟩
@[reducible] def partMetaSlot (uploadId : String) (partNumber : UInt32) : Slot :=
  ⟨.multipartSessions, tenantId, "part-meta-" ++ multipartPartStoreKey uploadId partNumber⟩

end Slots

/-- The entries of a store, by kind and tenant. -/
abbrev Entries := (k : Kind) → TenantId → BTreeMap String k.Val

/-- What the requests of one distribution server share. -/
structure Server where
  alpha : World
  entries : Entries
  /-- How often the key management has drawn randomness. -/
  draws : ℕ

namespace Server

/-- A server that has just been set up. -/
def empty : Server := ⟨World.empty, fun _ _ => ∅, 0⟩

/-- The record in an entry. -/
def lookup (s : Server) (a : Slot) : Option a.Val := (s.entries a.kind a.tenantId)[a.key]?

/-- The server with the entries of one kind and tenant replaced. -/
def withEntries (s : Server) (k : Kind) (t : TenantId) (m : BTreeMap String k.Val) : Server :=
  { s with entries := Function.update s.entries k (Function.update (s.entries k) t m) }

/-- The server with a record written. -/
def put (s : Server) (a : Slot) (v : a.Val) : Server :=
  s.withEntries a.kind a.tenantId ((s.entries a.kind a.tenantId).insert a.key v)

/-- The server with a record removed. -/
def remove (s : Server) (a : Slot) : Server :=
  s.withEntries a.kind a.tenantId ((s.entries a.kind a.tenantId).erase a.key)

variable {s : Server} {a b : Slot}

theorem lookup_withEntries_of_ne {k : Kind} {t : TenantId} {m : BTreeMap String k.Val}
    (h : a.kind = k → a.tenantId ≠ t) : (s.withEntries k t m).lookup a = s.lookup a := by
  obtain ⟨k', t', key⟩ := a
  by_cases hk : k' = k
  · subst hk
    simp [lookup, withEntries, Function.update_of_ne (h rfl)]
  · simp [lookup, withEntries, Function.update_of_ne hk]

theorem lookup_withEntries (s : Server) (a : Slot) (m : BTreeMap String a.kind.Val) :
    (s.withEntries a.kind a.tenantId m).lookup a = m[a.key]? := by
  simp [lookup, withEntries]

@[simp] theorem lookup_put (s : Server) (a : Slot) (v : a.Val) :
    (s.put a v).lookup a = some v := by
  rw [put, lookup_withEntries]
  simp

@[simp] theorem lookup_remove (s : Server) (a : Slot) : (s.remove a).lookup a = none := by
  rw [remove, lookup_withEntries]
  simp

theorem lookup_withEntries_of_key_ne {m : BTreeMap String b.kind.Val} (h : a ≠ b)
    (hm : ∀ key, key ≠ b.key → m[key]? = (s.entries b.kind b.tenantId)[key]?) :
    (s.withEntries b.kind b.tenantId m).lookup a = s.lookup a := by
  obtain ⟨k, t, key⟩ := a
  by_cases hk : k = b.kind ∧ t = b.tenantId
  · obtain ⟨rfl, rfl⟩ := hk
    have hkey : key ≠ b.key := fun hkey => h (by rw [hkey])
    have hentry := lookup_withEntries s ⟨b.kind, b.tenantId, key⟩ m
    rw [hentry]
    exact hm key hkey
  · exact lookup_withEntries_of_ne fun h₁ h₂ => hk ⟨h₁, h₂⟩

@[simp] theorem lookup_put_of_ne (h : a ≠ b) (v : b.Val) : (s.put b v).lookup a = s.lookup a := by
  refine lookup_withEntries_of_key_ne h fun key hkey => ?_
  rw [Std.ExtTreeMap.getElem?_insert, if_neg]
  exact fun he => hkey (Std.LawfulEqCmp.eq_of_compare he).symm

@[simp] theorem lookup_remove_of_ne (h : a ≠ b) : (s.remove b).lookup a = s.lookup a := by
  refine lookup_withEntries_of_key_ne h fun key hkey => ?_
  rw [Std.ExtTreeMap.getElem?_erase, if_neg]
  exact fun he => hkey (Std.LawfulEqCmp.eq_of_compare he).symm

@[simp] theorem put_alpha (v : a.Val) : (s.put a v).alpha = s.alpha := rfl

end Server

/-! ### The deployment -/

/-- The errors of the key management. -/
inductive CryptoError where
  | invalidSeed | missingRuntimeSecret | weakRuntimeSecret | encryptionFailed | decryptionFailed
  | invalidEnvelope | invalidWrappedKey | missingAwsKmsRuntime | invalidAwsKmsRuntime
  | missingWorkloadIdentity | missingAwsCli | awsCliFailed

def CryptoError.category : CryptoError → ApiErrorCategory
  | .invalidEnvelope | .invalidWrappedKey => .validation
  | .encryptionFailed | .decryptionFailed | .awsCliFailed => .storage
  | _ => .policy

def cryptoErrorToApi (error : CryptoError) (message : String) : ApiError :=
  ⟨error.category, "crypto_error", message⟩

/-- The platform of a distribution server, its configuration and its keys.  Functions of the key
management that draw randomness are given the number of the draw. -/
structure Deployment extends Env where
  capabilityAudience : String
  immutableCidTtlSec : ℕ
  namespaceTtlSec : ℕ
  plaintextProfileEnabled : Bool
  /-- The issuer registry, which the `AlphaService` is given as well. -/
  registry : IssuerRegistry
  registered : issuerRegistry = some registry
  /-- `ciborium::from_reader` at `CapabilityClaims`. -/
  claimsFromReader : List UInt8 → Option CapabilityClaims
  /-- The bytes of SHA-256. -/
  sha256 : List UInt8 → List UInt8
  /-- The `COSE_Sign1` message over a record under the namespace signing key. -/
  namespaceToken : NamespaceMutationRecord → List UInt8
  /-- What is read back from a signed record is the record. -/
  namespaceToken_read : ∀ record token payload record',
    coseFromSlice (namespaceToken record) = some token → token.payload = some payload →
      recordFromReader payload = some record' → record' = record
  generateObjectDataKey : ℕ → List UInt8
  /-- The ciphertext of a payload under a key, and its nonce. -/
  encryptClientChunk : ℕ → List UInt8 → List UInt8 → Except CryptoError (List UInt8 × String)
  decryptClientChunk : List UInt8 → String → List UInt8 → Except CryptoError (List UInt8)
  wrapObjectKeyForRecipient :
    ℕ → TenantId → String → List UInt8 → Except CryptoError WrappedObjectKeyRecord
  unwrapObjectKeyForRecipient :
    TenantId → WrappedObjectKeyRecord → Except CryptoError (List UInt8)

/-! ### Actions -/

/-- The operations of a request on what the distribution server itself keeps. -/
inductive OwnOp where
  /-- Read the clock. -/
  | now
  /-- Draw randomness. -/
  | draw
  | read (a : Slot)
  | write (a : Slot) (v : a.Val)
  | delete (a : Slot)
  /-- The records of a kind. -/
  | list (k : Kind) (tenantId : TenantId)

@[reducible] def OwnOp.Res : OwnOp → Type
  | .now | .draw => ℕ
  | .read a => Except ApiError (Option a.Val)
  | .write _ _ | .delete _ => Except ApiError Unit
  | .list k _ => Except ApiError (List k.Val)

/-- The actions of a request: a call to the `AlphaService` is one action. -/
inductive Action where
  | call (c : Call)
  | own (o : OwnOp)

@[reducible] def Action.Res : Action → Type
  | .call c => Except ApiError c.Response
  | .own o => o.Res

@[reducible] def serverSig : Sig := ⟨Action, Action.Res⟩

/-- The server after the clock has been read. -/
def Server.ticked (s : Server) : Server :=
  { s with alpha := { s.alpha with tick := s.alpha.tick + 1 } }

variable (d : Deployment)

/-- The operations on a store whose backend does not fail. -/
def ownExec : (o : OwnOp) → Server → o.Res × Server
  | .now, s => (d.clock s.alpha.tick, s.ticked)
  | .draw, s => (s.draws, { s with draws := s.draws + 1 })
  | .read a, s => (.ok (s.lookup a), s)
  | .write a v, s => (.ok (), s.put a v)
  | .delete a, s => (.ok (), s.remove a)
  | .list k t, s => (.ok ((s.entries k t).toList.map (·.2)), s)

/-- The actions on a server, each performed without interruption. -/
def act : (o : Action) → Server → o.Res × Server
  | .call c, s =>
    let result := Prog.runE (exec d.toEnv) (c.answer d.toEnv) s.alpha
    (result.1, { s with alpha := result.2 })
  | .own o, s => ownExec d o s

/-- A fallible piece of request handling. -/
abbrev Dist (α : Type) := ExceptT ApiError (Prog serverSig) α

def callAlpha (c : Call) : Dist c.Response :=
  ExceptT.mk (Prog.perform (S := serverSig) (.call c))

def nowMs : Dist ℕ := ExceptT.lift (Prog.perform (S := serverSig) (.own .now))

def draw : Dist ℕ := ExceptT.lift (Prog.perform (S := serverSig) (.own .draw))

def readEncryptedJson (a : Slot) : Dist (Option a.Val) :=
  ExceptT.mk (Prog.perform (S := serverSig) (.own (.read a)))

def writeEncryptedJson (a : Slot) (v : a.Val) : Dist Unit :=
  ExceptT.mk (Prog.perform (S := serverSig) (.own (.write a v)))

def deleteStoreKey (a : Slot) : Dist Unit :=
  ExceptT.mk (Prog.perform (S := serverSig) (.own (.delete a)))

def listEncryptedJson (k : Kind) (tenantId : TenantId) : Dist (List k.Val) :=
  ExceptT.mk (Prog.perform (S := serverSig) (.own (.list k tenantId)))

/-- Go on with the result of a pure check. -/
def ofExcept {α : Type} (x : Except ApiError α) : Dist α := ExceptT.mk (.ret x)

/-- Stop with an error if a check fails. -/
def rejectIf (c : Prop) [Decidable c] (e : ApiError) : Dist Unit := if c then throw e else pure ()

/-- Go on with a result of the key management. -/
def ofCrypto {α : Type} (x : Except CryptoError α) (message : String) : Dist α :=
  ofExcept (x.mapError (cryptoErrorToApi · message))

/-! ### Running single actions -/

section Run

variable (s : Server)

@[simp] theorem runE_callAlpha (c : Call) :
    runE (act d) (callAlpha c) s =
      ((runE (exec d.toEnv) (c.answer d.toEnv) s.alpha).1,
        { s with alpha := (runE (exec d.toEnv) (c.answer d.toEnv) s.alpha).2 }) := rfl

@[simp] theorem runE_nowMs :
    runE (act d) nowMs s = (.ok (d.clock s.alpha.tick), s.ticked) := rfl

@[simp] theorem runE_readEncryptedJson (a : Slot) :
    runE (act d) (readEncryptedJson a) s = (.ok (s.lookup a), s) := rfl

theorem runE_read_bind {α : Type} {d s} {a : Slot} {k : Option a.Val → Dist α} :
    runE (act d) (readEncryptedJson a >>= k) s = runE (act d) (k (s.lookup a)) s := rfl

@[simp] theorem runE_writeEncryptedJson (a : Slot) (v : a.Val) :
    runE (act d) (writeEncryptedJson a v) s = (.ok (), s.put a v) := rfl

@[simp] theorem runE_ofExcept {α : Type} (x : Except ApiError α) :
    runE (act d) (ofExcept x) s = (x, s) := rfl

theorem runE_ofExcept_bind {α β : Type} {d s} {a : α} {k : α → Dist β} :
    runE (act d) (ofExcept (.ok a) >>= k) s = runE (act d) (k a) s := rfl

@[simp] theorem runE_rejectIf (c : Prop) [Decidable c] (e : ApiError) :
    runE (act d) (rejectIf c e) s = (if c then .error e else .ok (), s) := by
  unfold rejectIf
  split <;> rfl

end Run

end Hsp.Distribution
