import Hsp.Distribution.Calls

/-!
# When an object is deleted

A delete looks up what the key is bound to, goes through its checks and ends in an `UNBIND`.

* `deleteChecks_eq_ok` : exactly when the checks are passed;
* `binding_delete` : what a delete does to a path, whether it succeeds or not;
* `live_deletes` : which paths are live after several deletes.
-/

namespace Hsp

section Unbind

variable {env : Env} {auth : AuthContext} {w : World}

/-- The token may be used under an idempotency key: what is on record of the use has the same key,
and no response is kept for it. -/
structure Unspent (env : Env) (w : World) (auth : AuthContext) (req : AuthRequestMeta)
    (op : IdempotentOp) (key : String) : Prop where
  agrees : ∀ u ∈ tokenUse auth req, u.Agrees env w (some key)
  fresh : ¬ Retried env w auth req op key

/-- **Exactly when a keyed request is carried out**, and not answered from the store. -/
theorem Keyed.carried_out_iff (k : Keyed) {P : Prop}
    (happly : ∀ w₁, SameOn Loc.isData w w₁ → ((runE (exec env) k.apply w₁).1.isOk ↔ P)) :
    (runE (exec env) (k.handle env) w).1.isOk ∧ ¬ Retried env w k.auth k.req k.op k.key ↔
      checkClaims (env.clock w.tick) k.auth k.req = .ok () ∧
        Unspent env w k.auth k.req k.op k.key ∧ P := by
  have hdecision := authorize_isOk_iff env k.auth k.req w
  rw [k.key_eq] at hdecision
  rcases k.handle_cases env w with ⟨e, w₁, hauth, hrun⟩ | ⟨record, w₁, hauth, hstored, hrun⟩ |
    ⟨decision, w₁, hauth, -, hrun⟩
  · rw [hauth] at hdecision
    rw [hrun]
    exact iff_of_false (fun h => Bool.false_ne_true h.1) fun h =>
      Bool.false_ne_true (hdecision.2 ⟨h.1, h.2.1.agrees⟩)
  · have hretried : Retried env w k.auth k.req k.op k.key :=
      (answered_iff_retried hrun).1 ⟨congrArg Prod.fst hauth, by simp [hstored]⟩
    exact iff_of_false (fun h => h.2 hretried) fun h => h.2.1.fresh hretried
  · rw [hauth] at hdecision
    obtain ⟨hclaims, hagrees⟩ := hdecision.1 rfl
    rw [hrun, happly w₁ (sameOn_of_authorize hauth)]
    exact ⟨fun h => ⟨hclaims, ⟨hagrees, h.2⟩, h.1⟩, fun h => ⟨h.2.2, h.2.1.fresh⟩⟩

/-- When the carrying out of an unbind succeeds. -/
theorem isOk_unbindApply (request : UnbindRequest) (ns path : String)
    (record : NamespaceMutationRecord) :
    (runE (exec env) (unbindApply env request ns path record true) w).1.isOk ↔
      (checkUnbind request (w.binding request.tenantId ns path)).isOk := by
  have hcurrent : runE (exec env) (namespaceCurrentState request.tenantId ns) w =
      (.ok (w.current request.tenantId ns), w) := rfl
  have hbinding : (w.current request.tenantId ns).bindings[path]? =
    w.binding request.tenantId ns path := rfl
  rw [unbindApply, runE_bind_ok _ hcurrent, hbinding]
  cases checkUnbind request (w.binding request.tenantId ns path) <;> rfl

theorem runE_unbind_unverified {r : UnbindRequest} {ns path : String} {e : ApiError}
    (hcanon : canonicalNamespaceAndPath r.ns r.path = .ok (ns, path))
    (hverify : verifySignedUnbindRecord env r ns path = .error e) :
    runE (exec env) (unbind env auth r) w = (.error e, w) := by
  rw [unbind, unbindInternal, hcanon, runE_ofExcept_bind]
  dsimp only
  rw [hverify]
  rfl

/-- **Exactly when an unbind is carried out.** -/
theorem unbind_iff (env : Env) (auth : AuthContext) (w : World) (r : UnbindRequest)
    {ns path : String} {b : NamespaceBindingState}
    (hcanon : canonicalNamespaceAndPath r.ns r.path = .ok (ns, path))
    (hsoft : r.hardDelete = false) (hb : w.binding r.tenantId ns path = some b) :
    (runE (exec env) (unbind env auth r) w).1.isOk ∧
        ¬ Retried env w auth (unbindMeta r.tenantId ns path r.idempotencyKey) .unbind
          r.idempotencyKey ↔
      (verifySignedUnbindRecord env r ns path).isOk ∧
        checkClaims (env.clock w.tick) auth
          (unbindMeta r.tenantId ns path r.idempotencyKey) = .ok () ∧
        Unspent env w auth (unbindMeta r.tenantId ns path r.idempotencyKey) .unbind
          r.idempotencyKey ∧ b.revision = r.ifRevision.toNat := by
  cases hverify : verifySignedUnbindRecord env r ns path with
  | error e =>
    simp [runE_unbind_unverified hcanon hverify, Except.isOk, Except.toBool]
  | ok record =>
    rw [runE_unbind hcanon hverify (by simp [hsoft])]
    have happly (w₁ : World) (hsame : SameOn Loc.isData w w₁) :
        (runE (exec env) (r.keyed env auth ns path record).apply w₁).1.isOk ↔
          b.revision = r.ifRevision.toNat := by
      rw [UnbindRequest.keyed, isOk_unbindApply, hsame.sameNamespaces.binding, hb]
      by_cases hrevision : b.revision = r.ifRevision.toNat <;>
        simp [checkUnbind, hrevision, Except.isOk, Except.toBool]
    exact ((r.keyed env auth ns path record).carried_out_iff happly).trans
      (and_iff_right rfl).symm

end Unbind

namespace Distribution

variable {d : Deployment} {auth : AuthContext} {s s' : Server} {t : TenantId}

/-! ### Where keys are -/

/-- Where the `AlphaService` looks for the object with a key: a namespace and a path. -/
def Server.place (s : Server) (t : TenantId) (bucket key : String) : Option (String × String) := do
  let name ← (canonicalBucketName bucket).toOption
  let record ← s.lookup (bucketSlot t name)
  let key ← (canonicalObjectKeyName key).toOption
  (canonicalNamespaceAndPath record.ns key).toOption

theorem place_eq {bucket key name key' : String} {record : BucketRecord}
    {place : String × String} (hname : canonicalBucketName bucket = .ok name)
    (hrecord : s.lookup (bucketSlot t name) = some record)
    (hkey : canonicalObjectKeyName key = .ok key')
    (hplace : canonicalNamespaceAndPath record.ns key' = .ok place) :
    s.place t bucket key = some place := by
  simp [Server.place, hname, hrecord, hkey, hplace, Except.toOption]

/-- A key is bound to an object. -/
def Server.Live (s : Server) (t : TenantId) (bucket key : String) : Prop :=
  ∃ ns path, s.place t bucket key = some (ns, path) ∧ isLive (s.alpha.binding t ns path)

theorem live_iff {bucket key ns path : String} (h : s.place t bucket key = some (ns, path)) :
    s.Live t bucket key ↔ isLive (s.alpha.binding t ns path) := by
  constructor
  · rintro ⟨ns', path', hplace, hlive⟩
    obtain ⟨rfl, rfl⟩ := Prod.mk.inj (Option.some.inj (h.symm.trans hplace))
    exact hlive
  · exact fun hlive => ⟨ns, path, h, hlive⟩

/-! ### The checks of a delete -/

/-- A key that is live: its bucket and its name, its place, and what is bound there. -/
structure LiveKey where
  bucket : BucketRecord
  key : String
  ns : String
  path : String
  binding : NamespaceBindingState

variable {request : DeleteObjectRequest} {x : LiveKey}

namespace DeleteObjectRequest

/-- The key of a request is live. -/
@[mk_iff]
structure Finds (s : Server) (request : DeleteObjectRequest) (x : LiveKey) : Prop where
  bucket : ∃ name, canonicalBucketName request.bucket = .ok name ∧
    s.lookup (bucketSlot request.tenantId name) = some x.bucket
  key : canonicalObjectKeyName request.key = .ok x.key
  place : canonicalNamespaceAndPath x.bucket.ns x.key = .ok (x.ns, x.path)
  binding : s.alpha.binding request.tenantId x.ns x.path = some x.binding
  live : x.binding.tombstone = false

/-- The record that is signed for a delete. -/
def fields (request : DeleteObjectRequest) (ns key : String) (revision issuedAtMs : ℕ) :
    NamespaceMutationFields where
  version := 1
  tenantId := request.tenantId
  ns := ns
  path := key
  kind := .unbind
  targetCid := none
  ifRevision := some (.ofNat revision)
  ttlMs := none
  metadata := ∅
  issuedAtMs := .ofNat issuedAtMs

/-- The `UNBIND` of a delete. -/
def unbind (request : DeleteObjectRequest) (ns key : String) (revision : ℕ)
    (signedRecordB64 : String) : UnbindRequest where
  tenantId := request.tenantId
  ns := ns
  path := key
  ifRevision := .ofNat revision
  hardDelete := false
  idempotencyKey := request.idempotencyKey
  signedRecordB64 := signedRecordB64

/-- What the `UNBIND` asks the policy engine. -/
@[reducible] def asks (request : DeleteObjectRequest) (ns path : String) : AuthRequestMeta :=
  unbindMeta request.tenantId ns path request.idempotencyKey

/-- The lock, which is looked up under the bucket name as it was sent. -/
@[reducible] def lock (s : Server) (request : DeleteObjectRequest) (x : LiveKey) :
    Option ObjectLockRecord :=
  s.lookup (objectLockSlot request.tenantId request.bucket x.key)

end DeleteObjectRequest

/-- The lock does not forbid the deletion. -/
def ObjectLockRecord.Unlocked (lock : ObjectLockRecord) (auth : AuthContext) (now : ℕ) : Prop :=
  lock.legalHold = false ∧ ∀ immutableUntil ∈ lock.immutableUntilMs,
    immutableUntil.toNat ≤ now ∨ CapabilityScope.adminRepair ∈ auth.claims.ops

/-- How often the clock is read for a lock. -/
def lockReadings (lock : Option ObjectLockRecord) : ℕ :=
  if (lock.bind (·.immutableUntilMs)).isSome then 1 else 0

/-- The checks that a delete of a live key goes through, from the reading `n` of the clock on. -/
@[mk_iff]
structure DeleteObjectRequest.Passes (d : Deployment) (s : Server) (n : ℕ) (auth : AuthContext)
    (request : DeleteObjectRequest) (x : LiveKey) : Prop where
  scope : ensureBucketMutationScopeFor auth request.tenantId (some x.bucket.bucket) (some x.key) =
    .ok ()
  resolves : checkClaims (d.clock n) auth (resolveMeta request.tenantId x.ns x.path) = .ok ()
  unlocked : ∀ lock ∈ request.lock s x, lock.Unlocked auth (d.clock (n + 1))

/-- **When a live key can be deleted.**  Of the world `w` only the clock and the uses of the token
are looked at. -/
@[mk_iff]
structure DeleteObjectRequest.Deletable (d : Deployment) (s : Server) (w : World)
    (auth : AuthContext) (request : DeleteObjectRequest) (x : LiveKey) : Prop
    extends request.Passes d s w.tick auth x where
  /-- The record can be encoded and passes the verification. -/
  signed : ∃ record : NamespaceMutationRecord, record.toNamespaceMutationFields =
      request.fields x.bucket.ns x.key x.binding.revision
        (d.clock (w.tick + 1 + lockReadings (request.lock s x))) ∧
    (verifySignedUnbindRecord d.toEnv (request.unbind x.bucket.ns x.key x.binding.revision
      (Base64.encode (d.namespaceToken record))) x.ns x.path).isOk
  unbinds : checkClaims (d.clock (w.tick + 1 + lockReadings (request.lock s x) + 1)) auth
    (request.asks x.ns x.path) = .ok ()
  unspent : Unspent d.toEnv w auth (request.asks x.ns x.path) .unbind request.idempotencyKey
  revision : x.binding.revision < 2 ^ 64

/-- Whether the `UNBIND` of a delete would be answered from the store. -/
def DeleteObjectRequest.Retried (d : Deployment) (s : Server) (auth : AuthContext)
    (request : DeleteObjectRequest) (ns key : String) : Prop :=
  Hsp.Retried d.toEnv s.alpha auth
    (unbindMeta request.tenantId ns key request.idempotencyKey) .unbind request.idempotencyKey

/-- A delete up to its `UNBIND`, for which it makes a request. -/
def deleteChecks (d : Deployment) (auth : AuthContext) (request : DeleteObjectRequest) :
    Dist UnbindRequest := do
  let bucket ← requireBucket request.tenantId request.bucket
  let key ← ofExcept (canonicalObjectKeyName request.key)
  ofExcept (ensureBucketMutationScopeFor auth request.tenantId (some bucket.bucket) (some key))
  let resolved ← orObjectError (resolveKey auth request.tenantId bucket.ns key)
  rejectIf resolved.tombstone ⟨.notFound, "object_not_found", "object is already tombstoned"⟩
  ensureObjectMutationUnlocked request.tenantId request.bucket key true auth
  let issuedAtMs ← nowMs
  let signedRecordB64 ← signNamespaceRecord d
    (request.fields bucket.ns key resolved.revision issuedAtMs)
  return request.unbind bucket.ns key resolved.revision signedRecordB64

theorem deleteObject_eq : deleteObject d auth request = (do
    let r ← deleteChecks d auth request
    (fun unbound => ⟨request.bucket, r.path, unbound.tombstone, unbound.revision,
      unbound.recordCid, unbound.eventSeq⟩) <$> callAlpha (.unbind auth r)) := by
  simp only [deleteChecks, bind_assoc, pure_bind]
  rfl

theorem delete_refused {e : ApiError}
    (h : runE (act d) (deleteChecks d auth request) s = (.error e, s')) :
    ((Request.deleteObject auth request).perform d s).2 = s' := by
  rw [Request.perform, Request.handle, deleteObject_eq, runE_bind_error _ h]

theorem alpha_delete {r : UnbindRequest}
    (h : runE (act d) (deleteChecks d auth request) s = (.ok r, s')) :
    ((Request.deleteObject auth request).perform d s).2.alpha =
      (runE (exec d.toEnv) (unbind d.toEnv auth r) s'.alpha).2 := by
  rw [Request.perform, Request.handle, deleteObject_eq, runE_bind_ok _ h, runE_map]
  rfl

/-- The checks only look up the path. -/
theorem untouched_deleteChecks {result : Except ApiError UnbindRequest}
    (h : runE (act d) (deleteChecks d auth request) s = (result, s')) :
    Untouched s.alpha s'.alpha := by
  have hchecks : Within [] Call.ResolvesNow (deleteChecks d auth request) :=
    .bind (.requireBucket _ _) fun _ => .checked fun _ => .checked fun _ =>
      .bind (.orObjectError (.resolveKey auth _ (fun _ h => h) _ _)) fun _ =>
      .bind (.rejectIf _ _) fun _ => .bind (.ensureObjectMutationUnlocked auth _ _ _ _) fun _ =>
      .bind .nowMs fun _ => .bind (.signNamespaceRecord _) fun _ => .pure _
  have huntouched := hchecks.untouched_runE (d := d) s
  rwa [h] at huntouched

/-! ### When the checks are passed -/

theorem succeeds_bind {α β : Type} {x : Dist α} {f : α → Dist β} {b : β} :
    runE (act d) (x >>= f) s = (.ok b, s') ↔
      ∃ a s₁, runE (act d) x s = (.ok a, s₁) ∧ runE (act d) (f a) s₁ = (.ok b, s') :=
  ⟨runE_bind_eq_ok _, fun ⟨_, _, hx, hf⟩ => (runE_bind_ok _ hx).trans hf⟩

theorem requireBucket_eq_ok {bucket : String} {record : BucketRecord} :
    runE (act d) (requireBucket t bucket) s = (.ok record, s') ↔
      s = s' ∧ ∃ name, canonicalBucketName bucket = .ok name ∧
        s.lookup (bucketSlot t name) = some record := by
  refine ⟨requireBucket_ok, ?_⟩
  rintro ⟨rfl, name, hname, hrecord⟩
  rw [requireBucket, hname, runE_ofExcept_bind, bucketRecord, runE_read_bind, hrecord]
  rfl

theorem signNamespaceRecord_eq_ok {fields : NamespaceMutationFields} {token : String} :
    runE (act d) (signNamespaceRecord d fields) s = (.ok token, s') ↔
      s = s' ∧ ∃ record : NamespaceMutationRecord, record.toNamespaceMutationFields = fields ∧
        token = Base64.encode (d.namespaceToken record) := by
  refine ⟨signNamespaceRecord_ok, ?_⟩
  rintro ⟨rfl, record, rfl, rfl⟩
  rw [signNamespaceRecord, dif_pos record.fits]
  rfl

theorem ensureObjectMutationUnlocked_eq_ok {bucket key : String} {a : Unit} :
    runE (act d) (ensureObjectMutationUnlocked t bucket key true auth) s = (.ok a, s') ↔
      (∀ lock ∈ s.lookup (objectLockSlot t bucket key),
        lock.Unlocked auth (d.clock s.alpha.tick)) ∧
      s' = { s with
        alpha := s.alpha.ticked (lockReadings (s.lookup (objectLockSlot t bucket key))) } := by
  rw [ensureObjectMutationUnlocked, runE_read_bind]
  cases s.lookup (objectLockSlot t bucket key) with
  | none => exact ⟨fun h => ⟨by simp, (Prod.mk.inj h).2.symm⟩, fun h => by rw [h.2]; rfl⟩
  | some lock =>
    obtain ⟨_, _, _, immutableUntil, legalHold, _, _⟩ := lock
    cases legalHold with
    | true => exact iff_of_false (fun h => by cases h) fun h => Bool.noConfusion (h.1 _ rfl).1
    | false =>
      cases immutableUntil with
      | none =>
        exact ⟨fun h => ⟨by simp [ObjectLockRecord.Unlocked], (Prod.mk.inj h).2.symm⟩,
          fun h => by rw [h.2]; rfl⟩
      | some immutableUntil =>
        change runE (act d) (rejectIf (d.clock s.alpha.tick < immutableUntil.toNat ∧
          CapabilityScope.adminRepair ∉ auth.claims.ops) _) s.ticked = _ ↔ _
        rw [runE_rejectIf]
        by_cases hlocked : d.clock s.alpha.tick < immutableUntil.toNat ∧
            CapabilityScope.adminRepair ∉ auth.claims.ops
        · simp [ObjectLockRecord.Unlocked, hlocked]
        · rw [if_neg hlocked]
          rw [not_and_or, not_lt, not_not] at hlocked
          exact ⟨fun h => ⟨by simpa [ObjectLockRecord.Unlocked] using hlocked,
            (Prod.mk.inj h).2.symm⟩, fun h => by rw [h.2]; rfl⟩

theorem resolveKey_eq_ok {ns key : String} {resolved : ResolveResponse} :
    runE (act d) (orObjectError (resolveKey auth t ns key)) s = (.ok resolved, s') ↔
      ∃ ns' path b, canonicalNamespaceAndPath ns key = .ok (ns', path) ∧
        s.alpha.binding t ns' path = some b ∧
        checkClaims (d.clock s.alpha.tick) auth (resolveMeta t ns' path) = .ok () ∧
        resolved = ⟨b.revision, b.targetCid, b.manifestCid, b.recordCid, b.metadata,
          b.tombstone⟩ ∧ s' = s.ticked := by
  have hnow : ResolveRequest.atRevision ⟨t, ns, key, none, none⟩ = none := rfl
  have hallowed {ns' path : String}
      (hcanon : canonicalNamespaceAndPath ns key = .ok (ns', path))
      (hclaims : checkClaims (d.clock s.alpha.tick) auth (resolveMeta t ns' path) = .ok ()) :
      runE (act d) (resolveKey auth t ns key) s =
        (resolveBinding (s.alpha.current t ns') path none, s.ticked) :=
    congrArg (fun r => (r.1, { s with alpha := r.2 }))
      (runE_resolve_authorized hnow hcanon (runE_authorize_query hclaims rfl))
  constructor
  · intro h
    have h := orObjectError_ok h
    obtain ⟨⟨ns', path⟩, w₁, hnames, hrest⟩ := runE_bind_eq_ok _ (callAlpha_ok h).1
    obtain ⟨decision, w₂, hauth, -⟩ := runE_bind_eq_ok _ hrest
    obtain ⟨hcanon, rfl⟩ : canonicalNamespaceAndPath ns key = .ok (ns', path) ∧ s.alpha = w₁ :=
      Prod.mk.inj hnames
    have hclaims := checkClaims_of_authorize hauth
    rw [hallowed hcanon hclaims, resolveBinding] at h
    cases hb : (s.alpha.current t ns').bindings[path]? with
    | none =>
      rw [hb] at h
      cases h
    | some b =>
      rw [hb] at h
      cases h
      exact ⟨ns', path, b, hcanon, hb, hclaims, rfl, rfl⟩
  · rintro ⟨ns', path, b, hcanon, hb, hclaims, rfl, rfl⟩
    have hb : (s.alpha.current t ns').bindings[path]? = some b := hb
    have hrun := hallowed hcanon hclaims
    rw [resolveBinding, hb] at hrun
    rw [orObjectError, runE_bind_ok _ (by rw [runE_attempt, hrun])]
    rfl

/-- **Exactly when the checks are passed.** -/
theorem deleteChecks_eq_ok {r : UnbindRequest} :
    runE (act d) (deleteChecks d auth request) s = (.ok r, s') ↔ ∃ x record, request.Finds s x ∧
      request.Passes d s s.alpha.tick auth x ∧ record.toNamespaceMutationFields =
        request.fields x.bucket.ns x.key x.binding.revision
          (d.clock (s.alpha.tick + 1 + lockReadings (request.lock s x))) ∧
      r = request.unbind x.bucket.ns x.key x.binding.revision
        (Base64.encode (d.namespaceToken record)) ∧
      s' = { s with alpha.tick := s.alpha.tick + 1 + lockReadings (request.lock s x) + 1 } := by
  simp only [deleteChecks, succeeds_bind, requireBucket_eq_ok, runE_ofExcept, resolveKey_eq_ok,
    ensureObjectMutationUnlocked_eq_ok, signNamespaceRecord_eq_ok, runE_rejectIf, runE_nowMs,
    and_assoc, Prod.mk.injEq]
  constructor
  · rintro ⟨bucket, _, rfl, hbucket, key, _, hkey, rfl, _, _, hscope, rfl, _, _,
      ⟨ns, path, b, hcanon, hb, hclaims, rfl, rfl⟩, _, _, hlive, rfl, _, _, hunlocked, rfl, _, _,
      hnow, rfl, _, _, rfl, ⟨record, hfields, rfl⟩, hr⟩
    cases hnow
    cases hr
    exact ⟨⟨bucket, key, ns, path, b⟩, record, ⟨hbucket, hkey, hcanon, hb, by simpa using hlive⟩,
      ⟨hscope, hclaims, hunlocked⟩, hfields, rfl, rfl⟩
  · rintro ⟨x, record, hx, hp, hfields, rfl, rfl⟩
    exact ⟨_, _, rfl, hx.bucket, _, _, hx.key, rfl, _, _, hp.scope, rfl, _, _,
      ⟨_, _, _, hx.place, hx.binding, hp.resolves, rfl, rfl⟩, (), _, if_neg (by simp [hx.live]),
      rfl, (), _, hp.unlocked, rfl, _, _, rfl, rfl, _, _, rfl, ⟨record, hfields, rfl⟩, rfl⟩

/-! ### What a delete does -/

theorem DeleteObjectRequest.Finds.place_eq (h : request.Finds s x) :
    s.place request.tenantId request.bucket request.key = some (x.ns, x.path) := by
  obtain ⟨name, hname, hrecord⟩ := h.bucket
  exact Distribution.place_eq hname hrecord h.key h.place

theorem DeleteObjectRequest.Finds.unique {y : LiveKey} (h : request.Finds s x)
    (h' : request.Finds s y) : x = y := by
  obtain ⟨_, _, _, _, _⟩ := x
  obtain ⟨_, _, _, _, _⟩ := y
  obtain ⟨⟨name, hname, hrecord⟩, hkey, hplace, hbinding, -⟩ := h
  obtain ⟨⟨name', hname', hrecord'⟩, hkey', hplace', hbinding', -⟩ := h'
  cases hname.symm.trans hname'
  cases hrecord.symm.trans hrecord'
  cases hkey.symm.trans hkey'
  cases hplace.symm.trans hplace'
  cases hbinding.symm.trans hbinding'
  rfl

/-- When the `UNBIND` is carried out, the checks being passed. -/
theorem unbinds_iff {record : NamespaceMutationRecord} (hx : request.Finds s x)
    (hpasses : request.Passes d s s.alpha.tick auth x)
    (hfields : record.toNamespaceMutationFields =
      request.fields x.bucket.ns x.key x.binding.revision
        (d.clock (s.alpha.tick + 1 + lockReadings (request.lock s x)))) :
    (runE (exec d.toEnv) (unbind d.toEnv auth (request.unbind x.bucket.ns x.key
          x.binding.revision (Base64.encode (d.namespaceToken record))))
        { s.alpha with tick := s.alpha.tick + 1 + lockReadings (request.lock s x) + 1 }).1.isOk ∧
        ¬ request.Retried d s auth x.ns x.path ↔
      request.Deletable d s s.alpha auth x := by
  have hrevision : x.binding.revision = (UInt64.ofNat x.binding.revision).toNat ↔
      x.binding.revision < 2 ^ 64 := by
    rw [UInt64.toNat_ofNat', eq_comm, Nat.mod_eq_iff_lt (by decide)]
  refine (unbind_iff d.toEnv auth _ _ hx.place rfl hx.binding).trans ⟨?_, fun h => ?_⟩
  · rintro ⟨hverify, hunbinds, hunspent, hrev⟩
    exact ⟨hpasses, ⟨record, hfields, hverify⟩, hunbinds,
      ⟨fun u hu => ⟨(hunspent.agrees u hu).seen, (hunspent.agrees u hu).recorded⟩,
        hunspent.fresh⟩, hrevision.1 hrev⟩
  · obtain ⟨⟨_, _⟩, rfl, hverify⟩ := h.signed
    obtain ⟨_, _⟩ := record
    cases hfields
    exact ⟨hverify, h.unbinds, ⟨fun u hu => ⟨(h.unspent.agrees u hu).seen,
      (h.unspent.agrees u hu).recorded⟩, h.unspent.fresh⟩, hrevision.2 h.revision⟩

theorem unbind_failed {r : UnbindRequest} {w w' : World} {e : ApiError}
    (h : runE (exec d.toEnv) ((Call.unbind auth r).answer d.toEnv) w = (.error e, w')) :
    SameNamespaces w w' := by
  have hperform := Call.perform_eq_answer d.toEnv (.unbind auth r) w
  rw [h] at hperform
  rcases Call.outcome_asks d.toEnv (.unbind auth r) w with hsame | ⟨m, -, hmade⟩
  · rwa [hperform] at hsame
  · obtain ⟨reply, hreply, -⟩ := hmade.ok
    rw [hperform] at hreply
    cases hreply

/-- **What a delete does**: nothing to the namespaces, or a mutation of the path of a key that can
be deleted. -/
theorem delete_outcome (d : Deployment) (s : Server) (auth : AuthContext)
    (request : DeleteObjectRequest) :
    let s' := ((Request.deleteObject auth request).perform d s).2
    SameNamespaces s.alpha s'.alpha ∧
        (∀ x, request.Finds s x → ¬ request.Deletable d s s.alpha auth x) ∨
      ∃ x, ∃ m : Mutation d.toEnv, request.Finds s x ∧
        request.Deletable d s s.alpha auth x ∧ m.record.tenantId = request.tenantId ∧
        m.record.ns = x.ns ∧ m.record.path = x.path ∧ m.record.kind = .unbind ∧
        SameNamespaces (s.alpha.mutate m) s'.alpha := by
  dsimp only
  rcases hchecks : runE (act d) (deleteChecks d auth request) s with ⟨e | r, s₁⟩ <;>
    have hsame := (untouched_deleteChecks hchecks).sameOn.sameNamespaces
  · rw [delete_refused hchecks]
    refine .inl ⟨hsame, fun x hx hd => ?_⟩
    obtain ⟨record, hfields, -⟩ := hd.signed
    cases hchecks.symm.trans
      (deleteChecks_eq_ok.2 ⟨x, record, hx, hd.toPasses, hfields, rfl, rfl⟩)
  obtain ⟨x, record, hx, hpasses, hfields, rfl, rfl⟩ := deleteChecks_eq_ok.1 hchecks
  have hiff := unbinds_iff hx hpasses hfields
  rcases hrun : runE (exec d.toEnv) (unbind d.toEnv auth _) _ with ⟨e | unbound, w'⟩ <;>
    rw [hrun] at hiff <;> rw [(alpha_delete hchecks).trans (congrArg Prod.snd hrun)]
  · exact .inl ⟨hsame.trans (unbind_failed hrun), fun y hy hd =>
      Bool.false_ne_true (hiff.2 (hx.unique hy ▸ hd)).1⟩
  obtain ⟨hplace, ⟨hretried, hrest⟩ | ⟨hfresh, m, rfl, -, hrest⟩⟩ := unbind_signed_ok rfl hrun
  all_goals
    obtain ⟨hns, hpath⟩ := Prod.mk.inj (Except.ok.inj (hx.place.symm.trans hplace))
    rw [DeleteObjectRequest.Retried, hns, hpath] at hiff
  · exact .inl ⟨hsame.trans hrest, fun y hy hd => (hiff.2 (hx.unique hy ▸ hd)).2 hretried⟩
  · exact .inr ⟨x, m, hx, hiff.1 ⟨rfl, hfresh⟩, congrArg NamespaceMutationFields.tenantId hfields,
      hns.symm, hpath.symm, congrArg NamespaceMutationFields.kind hfields,
      (hsame.mutate m).trans hrest⟩

/-- The key of a request is live, at a path, and can be deleted. -/
def DeleteObjectRequest.DeletableAt (d : Deployment) (s : Server) (w : World) (auth : AuthContext)
    (request : DeleteObjectRequest) (ns path : String) : Prop :=
  ∃ x, request.Finds s x ∧ (x.ns, x.path) = (ns, path) ∧ request.Deletable d s w auth x

/-- **One delete**: a path keeps what is bound there unless it is that of a key that can be
deleted. -/
theorem binding_delete (d : Deployment) (s : Server) (auth : AuthContext)
    (request : DeleteObjectRequest) (ns path : String) :
    let s' := ((Request.deleteObject auth request).perform d s).2
    (request.DeletableAt d s s.alpha auth ns path →
        ¬ isLive (s'.alpha.binding request.tenantId ns path)) ∧
      (¬ request.DeletableAt d s s.alpha auth ns path →
        s'.alpha.binding request.tenantId ns path = s.alpha.binding request.tenantId ns path) := by
  dsimp only
  rcases delete_outcome d s auth request with ⟨hsame, hnone⟩ |
    ⟨x, m, hx, hdeletable, ht, hns, hpath, hkind, hmut⟩
  · exact ⟨fun ⟨x, hx, _, hd⟩ => (hnone x hx hd).elim, fun _ => hsame.binding _ _ _⟩
  · rw [hmut.binding, mutate_binding, ht, hns, hpath]
    by_cases hat : (x.ns, x.path) = (ns, path)
    · cases hat
      rw [if_pos ⟨rfl, rfl, rfl⟩, Mutation.effect, hkind]
      exact ⟨fun _ => Bool.noConfusion, fun h => (h ⟨x, hx, rfl, hdeletable⟩).elim⟩
    · rw [if_neg fun h => hat (Prod.ext h.2.1.symm h.2.2.symm)]
      refine ⟨?_, fun _ => rfl⟩
      rintro ⟨y, hy, hplace, -⟩
      cases hx.unique hy
      exact (hat hplace).elim

theorem lookup_delete (a : Slot) :
    ((Request.deleteObject auth request).perform d s).2.lookup a = s.lookup a :=
  Request.lookup_perform _ s (by simp [Request.writes])

/-- What another delete can delete is the same before and after a delete that leaves it alone. -/
theorem deletableAt_delete {other : DeleteObjectRequest} {ns path : String} {w : World}
    (ht : other.tenantId = request.tenantId)
    (hlive : isLive (((Request.deleteObject auth request).perform d s).2.alpha.binding
      request.tenantId ns path)) :
    other.DeletableAt d ((Request.deleteObject auth request).perform d s).2 w auth ns path ↔
      other.DeletableAt d s w auth ns path := by
  obtain ⟨hdeleted, hkept⟩ := binding_delete d s auth request ns path
  have hbinding := hkept fun h => hdeleted h hlive
  refine exists_congr fun x => ?_
  by_cases hat : (x.ns, x.path) = (ns, path)
  · cases hat
    simp only [DeleteObjectRequest.finds_iff, DeleteObjectRequest.deletable_iff,
      DeleteObjectRequest.passes_iff, lookup_delete, ht, hbinding]
  · simp only [hat, false_and, and_false]

/-- Deletes one after the other. -/
def deletes (auth : AuthContext) (requests : List DeleteObjectRequest) : List Request :=
  requests.map (.deleteObject auth)

theorem place_deletes (requests : List DeleteObjectRequest) (t : TenantId) (bucket key : String) :
    (runRequests d (deletes auth requests) s).place t bucket key = s.place t bucket key := by
  induction requests generalizing s with
  | nil => rfl
  | cons request requests ih =>
    refine ih.trans ?_
    simp only [Server.place, lookup_delete]

/-- One of several deletes can delete the key at a path, by the time that its turn has come. -/
def Deleted (d : Deployment) (s : Server) (auth : AuthContext)
    (requests : List DeleteObjectRequest) (ns path : String) : Prop :=
  ∃ before request after, requests = before ++ request :: after ∧
    request.DeletableAt d s (runRequests d (deletes auth before) s).alpha auth ns path

/-- **Several deletes**: a path stays live unless one of them can delete the key there. -/
theorem live_deletes {requests : List DeleteObjectRequest}
    (ht : ∀ request ∈ requests, request.tenantId = t) (ns path : String) :
    isLive ((runRequests d (deletes auth requests) s).alpha.binding t ns path) ↔
      isLive (s.alpha.binding t ns path) ∧ ¬ Deleted d s auth requests ns path := by
  induction requests generalizing s with
  | nil => simp [deletes, Deleted]
  | cons first rest ih =>
    obtain ⟨rfl, hrest⟩ := List.forall_mem_cons.1 ht
    rw [deletes, List.map_cons, runRequests_cons, ← deletes, ih hrest]
    obtain ⟨hdeleted, hkept⟩ := binding_delete d s auth first ns path
    constructor
    · rintro ⟨hlive, hnot⟩
      have hfirst := fun h => hdeleted h hlive
      refine ⟨hkept hfirst ▸ hlive, ?_⟩
      rintro ⟨_ | ⟨_, before⟩, request, after, hsplit, h⟩ <;> cases hsplit
      · exact hfirst h
      · exact hnot ⟨before, request, after, rfl, (deletableAt_delete (hrest _ (by simp)) hlive).2 h⟩
    · rintro ⟨hlive, hnot⟩
      have hfirst := hkept fun h => hnot ⟨[], first, rest, rfl, h⟩
      have hlive : isLive (((Request.deleteObject auth first).perform d s).2.alpha.binding
        first.tenantId ns path) := hfirst.symm ▸ hlive
      refine ⟨hlive, ?_⟩
      rintro ⟨before, request, after, rfl, h⟩
      exact hnot ⟨first :: before, request, after, rfl,
        (deletableAt_delete (hrest _ (by simp)) hlive).1 h⟩

end Distribution

end Hsp
