import Hsp.Namespace.Refinement
import Hsp.Object.Stored

/-!
# Requests whose responses are kept

`PUT_INIT`, `PUT_COMMIT`, `BIND` and `UNBIND` have an idempotency key and are handled in one way.
After checks that change nothing, the request is authorized.  If it is a retry and a response is
stored under its key, that is the answer.  Otherwise the request is carried out, and its response is
stored under the key.

* `Call.keyed` : the request a call is, in a world in which its checks pass;
* `Call.perform_eq` : the call is handled as described;
* `Keyed.spent_of_ok` : a request that succeeds has spent its token and left its response.
-/

namespace Hsp

variable {env : Env} {request : PutInitRequest} {c : Call} {decision : AuthorizationDecision}
  {w' w : World}

/-- The operation whose responses are kept, as the policy engine knows it. -/
def IdempotentOp.operationName : IdempotentOp → OperationName
  | .putInit => .putInit
  | .putCommit => .putCommit
  | .bind => .bind
  | .unbind => .unbind

theorem IdempotentOp.operationName_injective : Function.Injective IdempotentOp.operationName := by
  intro a b h
  cases a <;> cases b <;> first | rfl | cases h

/-- The answer with a response. -/
def IdempotentOp.reply : (op : IdempotentOp) → op.Response → Reply
  | .putInit => .putInit
  | .putCommit => .putCommit
  | .bind => .bind
  | .unbind => .unbind

/-- A request whose response is kept, after its checks. -/
structure Keyed where
  auth : AuthContext
  /-- What the policy engine is asked. -/
  req : AuthRequestMeta
  op : IdempotentOp
  key : String
  /-- How the request is carried out. -/
  apply : Svc op.Response
  operation_eq : req.operation = op.operationName
  key_eq : req.idempotencyKey = some key

namespace Keyed

variable (k : Keyed)

/-- The use of the caller's token. -/
def use : Option TokenUse := tokenUse k.auth k.req

/-- The entry of the store for the response. -/
@[reducible] def slot : Loc := .idempotency k.req.tenantId k.op k.key

/-- How the request is handled. -/
def handle (env : Env) : Svc k.op.Response := do
  let decision ← authorize env k.auth k.req
  match ← storedResponse k.req.tenantId k.op k.key true decision with
  | some record => return record.response
  | none => k.apply

/-- The handling of a request, up to how the lookup is written. -/
theorem runE_handle_eq {f : Option (IdempotencyRecord k.op.Response) → Svc k.op.Response}
    (hsome : ∀ record, f (some record) = pure record.response) (hnone : f none = k.apply)
    (w : World) :
    runE (exec env) (do
      let decision ← authorize env k.auth k.req
      let stored ← storedResponse k.req.tenantId k.op k.key true decision
      f stored) w = runE (exec env) (k.handle env) w := by
  have hf : f = fun stored => match stored with
      | some record => pure record.response
      | none => k.apply := by
    funext stored
    cases stored with
    | some record => exact hsome record
    | none => exact hnone
  rw [hf]
  rfl

end Keyed

/-! ### The requests -/

/-- What a bind asks the policy engine. -/
def bindMeta (tenantId : TenantId) (ns path idempotencyKey : String) : AuthRequestMeta where
  operation := .bind
  tenantId := tenantId
  subject := ns ++ ":" ++ path
  ns := some ns
  path := some path
  idempotencyKey := some idempotencyKey

/-- What an unbind asks the policy engine. -/
def unbindMeta (tenantId : TenantId) (ns path idempotencyKey : String) : AuthRequestMeta where
  operation := .unbind
  tenantId := tenantId
  subject := ns ++ ":" ++ path
  ns := some ns
  path := some path
  idempotencyKey := some idempotencyKey

/-- What `PUT_INIT` asks the policy engine. -/
def initMeta (env : Env) (request : PutInitRequest) : AuthRequestMeta where
  operation := .putInit
  tenantId := request.tenantId
  subject := request.manifest.manifestCid env
  ns := request.atomicBind.map (·.ns)
  path := request.atomicBind.map (·.path)
  contentSize := some request.manifest.storedSize
  storageClass := some request.storageClass
  keyPolicyId := some request.keyPolicyId
  encryptionProfileId := some request.encryptionProfileId
  metadataVisibility := some request.metadataVisibility
  idempotencyKey := some request.idempotencyKey

section Requests

variable (env : Env) (auth : AuthContext)

def PutInitRequest.keyed (request : PutInitRequest) : Keyed where
  auth := auth
  req := initMeta env request
  op := .putInit
  key := request.idempotencyKey
  apply := putInitApply env request
  operation_eq := rfl
  key_eq := rfl

def PutCommitRequest.keyed (request : PutCommitRequest) (session : UploadSessionRecord) :
    Keyed where
  auth := auth
  req := commitMeta request session
  op := .putCommit
  key := request.idempotencyKey
  apply := putCommitApply env auth request session
  operation_eq := rfl
  key_eq := rfl

def BindRequest.keyed (request : BindRequest) (ns path : String)
    (record : NamespaceMutationRecord) : Keyed where
  auth := auth
  req := bindMeta request.tenantId ns path request.idempotencyKey
  op := .bind
  key := request.idempotencyKey
  apply := bindApply env request ns path record true
  operation_eq := rfl
  key_eq := rfl

def UnbindRequest.keyed (request : UnbindRequest) (ns path : String)
    (record : NamespaceMutationRecord) : Keyed where
  auth := auth
  req := unbindMeta request.tenantId ns path request.idempotencyKey
  op := .unbind
  key := request.idempotencyKey
  apply := unbindApply env request ns path record true
  operation_eq := rfl
  key_eq := rfl

/-- The request a call is in a world, if its response is kept and its checks pass. -/
def Call.keyed (w : World) : Call → Option Keyed
  | .putInit auth request => do
    let _ ← (checkPutInit request).toOption
    return request.keyed env auth
  | .putCommit auth request => do
    let session ← w.store (.sessions request.tenantId request.sessionId)
    if session.manifestCid ≠ request.manifestCid then none
    else return request.keyed env auth session
  | .bind auth request => do
    let (ns, path) ← (canonicalNamespaceAndPath request.ns request.path).toOption
    let record ← (verifySignedBindRecord env request ns path).toOption
    return request.keyed env auth ns path record
  | .unbind auth request => do
    let (ns, path) ← (canonicalNamespaceAndPath request.ns request.path).toOption
    let record ← (verifySignedUnbindRecord env request ns path).toOption
    if request.hardDelete ∧ CapabilityScope.adminRepair ∉ auth.claims.ops then none
    else return request.keyed env auth ns path record
  | _ => none

end Requests

section Inversion

variable {auth : AuthContext} {w : World} {k : Keyed}

theorem Call.keyed_putInit (h : (Call.putInit auth request).keyed env w = some k) :
    k = request.keyed env auth := by
  obtain ⟨_, -, h⟩ := Option.bind_eq_some_iff.1 h
  exact (Option.some.inj h).symm

theorem Call.keyed_putCommit {request : PutCommitRequest}
    (h : (Call.putCommit auth request).keyed env w = some k) :
    ∃ session, w.store (.sessions request.tenantId request.sessionId) = some session ∧
      k = request.keyed env auth session := by
  obtain ⟨session, hsession, h⟩ := Option.bind_eq_some_iff.1 h
  split at h
  · cases h
  · exact ⟨session, hsession, (Option.some.inj h).symm⟩

theorem Call.keyed_bind {request : BindRequest}
    (h : (Call.bind auth request).keyed env w = some k) :
    ∃ ns path record, canonicalNamespaceAndPath request.ns request.path = .ok (ns, path) ∧
      k = request.keyed env auth ns path record := by
  obtain ⟨⟨ns, path⟩, hcanon, h⟩ := Option.bind_eq_some_iff.1 h
  obtain ⟨record, -, h⟩ := Option.bind_eq_some_iff.1 h
  exact ⟨ns, path, record, except_ok_of_toOption hcanon, (Option.some.inj h).symm⟩

theorem Call.keyed_unbind {request : UnbindRequest}
    (h : (Call.unbind auth request).keyed env w = some k) :
    ∃ ns path record, canonicalNamespaceAndPath request.ns request.path = .ok (ns, path) ∧
      k = request.keyed env auth ns path record := by
  obtain ⟨⟨ns, path⟩, hcanon, h⟩ := Option.bind_eq_some_iff.1 h
  obtain ⟨record, -, h⟩ := Option.bind_eq_some_iff.1 h
  split at h
  · cases h
  · exact ⟨ns, path, record, except_ok_of_toOption hcanon, (Option.some.inj h).symm⟩

end Inversion

/-- The response of the call is kept. -/
def Call.IsKeyed : Call → Prop
  | .putInit _ _ | .putCommit _ _ | .bind _ _ | .unbind _ _ => True
  | _ => False

section Perform

variable {auth : AuthContext} {w : World} {record : NamespaceMutationRecord}

theorem runE_putInit (hcheck : checkPutInit request = .ok ()) :
    runE (exec env) (putInit env auth request) w =
      runE (exec env) ((request.keyed env auth).handle env) w := by
  rw [putInit, hcheck, runE_ofExcept_bind]
  exact (request.keyed env auth).runE_handle_eq (by intro; rfl) (by rfl) w

theorem runE_putCommitWith {request : PutCommitRequest} {session : UploadSessionRecord}
    (hcid : ¬ session.manifestCid ≠ request.manifestCid) :
    runE (exec env) (putCommitWith env auth request session) w =
      runE (exec env) ((request.keyed env auth session).handle env) w := by
  rw [putCommitWith, runE_bind_ok _ (runE_rejectIf_of_not env w hcid _)]
  exact (request.keyed env auth session).runE_handle_eq (by intro; rfl) (by rfl) w

theorem runE_bind {request : BindRequest} {ns path : String}
    (hcanon : canonicalNamespaceAndPath request.ns request.path = .ok (ns, path))
    (hrecord : verifySignedBindRecord env request ns path = .ok record) :
    runE (exec env) (bind env auth request) w =
      runE (exec env) ((request.keyed env auth ns path record).handle env) w := by
  rw [bind, bindInternal, hcanon, runE_ofExcept_bind]
  dsimp only
  rw [hrecord, runE_ofExcept_bind]
  exact (request.keyed env auth ns path record).runE_handle_eq (by intro; rfl) (by rfl) w

theorem runE_unbind {request : UnbindRequest} {ns path : String}
    (hcanon : canonicalNamespaceAndPath request.ns request.path = .ok (ns, path))
    (hrecord : verifySignedUnbindRecord env request ns path = .ok record)
    (hadmin : ¬ (request.hardDelete ∧ CapabilityScope.adminRepair ∉ auth.claims.ops)) :
    runE (exec env) (unbind env auth request) w =
      runE (exec env) ((request.keyed env auth ns path record).handle env) w := by
  rw [unbind, unbindInternal, hcanon, runE_ofExcept_bind]
  dsimp only
  rw [hrecord, runE_ofExcept_bind, runE_bind_ok _ (runE_rejectIf_of_not env w hadmin _)]
  exact (request.keyed env auth ns path record).runE_handle_eq (by intro; rfl) (by rfl) w

end Perform

theorem runE_map_unchecked {α β γ : Type} {x : Except ApiError α} {f : α → Svc β} {g : β → γ}
    {e : ApiError} (h : x = .error e) :
    runE (exec env) (g <$> (ofExcept x >>= f)) w = (.error e, w) := by
  rw [h]
  rfl

/-- **How a request whose response is kept is handled**: its checks fail and nothing happens, or it
is handled as a keyed request. -/
theorem Call.perform_eq (env : Env) (h : c.IsKeyed) (w : World) :
    (c.keyed env w = none ∧ ∃ e, c.perform env w = (.error e, w)) ∨
      ∃ k, c.keyed env w = some k ∧
        c.perform env w = runE (exec env) (k.op.reply <$> k.handle env) w := by
  cases c with
  | putInit auth request =>
    cases hcheck : checkPutInit request with
    | error e =>
      exact .inl ⟨by simp [Call.keyed, hcheck, Except.toOption], e, runE_map_unchecked hcheck⟩
    | ok _ =>
      refine .inr ⟨request.keyed env auth, by simp [Call.keyed, hcheck, Except.toOption], ?_⟩
      rw [Call.perform, Call.handle, runE_map, runE_map, runE_putInit hcheck]
      rfl
  | putCommit auth request =>
    cases hsession : w.store (.sessions request.tenantId request.sessionId) with
    | none =>
      rw [Call.perform, Call.handle, Hsp.putCommit, map_bind]
      exact .inl ⟨by simp [Call.keyed, hsession], _,
        runE_bind_error _ (runE_uploadSession_none hsession)⟩
    | some session =>
      rw [perform_putCommit hsession]
      by_cases hcid : session.manifestCid ≠ request.manifestCid
      · rw [putCommitWith, map_bind]
        exact .inl ⟨by simp [Call.keyed, hsession, hcid], _,
          runE_bind_error _ (runE_rejectIf_of env w hcid _)⟩
      · refine .inr ⟨request.keyed env auth session, by simp [Call.keyed, hsession, hcid], ?_⟩
        rw [runE_map, runE_map, runE_putCommitWith hcid]
        rfl
  | bind auth request =>
    cases hcanon : canonicalNamespaceAndPath request.ns request.path with
    | error e =>
      exact .inl ⟨by simp [Call.keyed, hcanon, Except.toOption], e, runE_map_unchecked hcanon⟩
    | ok target =>
      obtain ⟨ns, path⟩ := target
      cases hrecord : verifySignedBindRecord env request ns path with
      | error e =>
        refine .inl ⟨by simp [Call.keyed, hcanon, hrecord, Except.toOption], e, ?_⟩
        rw [Call.perform, Call.handle, Hsp.bind, bindInternal, map_bind, hcanon,
          runE_ofExcept_bind, map_bind]
        rw [hrecord]
        exact runE_bind_error _ (runE_ofExcept env _ w)
      | ok record =>
        refine .inr ⟨request.keyed env auth ns path record,
          by simp [Call.keyed, hcanon, hrecord, Except.toOption], ?_⟩
        rw [Call.perform, Call.handle, runE_map, runE_map, runE_bind hcanon hrecord]
        rfl
  | unbind auth request =>
    cases hcanon : canonicalNamespaceAndPath request.ns request.path with
    | error e =>
      exact .inl ⟨by simp [Call.keyed, hcanon, Except.toOption], e, runE_map_unchecked hcanon⟩
    | ok target =>
      obtain ⟨ns, path⟩ := target
      cases hrecord : verifySignedUnbindRecord env request ns path with
      | error e =>
        refine .inl ⟨by simp [Call.keyed, hcanon, hrecord, Except.toOption], e, ?_⟩
        rw [Call.perform, Call.handle, Hsp.unbind, unbindInternal, map_bind, hcanon,
          runE_ofExcept_bind, map_bind]
        rw [hrecord]
        exact runE_bind_error _ (runE_ofExcept env _ w)
      | ok record =>
        by_cases hadmin : request.hardDelete ∧ CapabilityScope.adminRepair ∉ auth.claims.ops
        · rw [Call.perform, Call.handle, Hsp.unbind, unbindInternal, map_bind, hcanon,
            runE_ofExcept_bind, map_bind]
          rw [hrecord, runE_ofExcept_bind, map_bind]
          exact .inl ⟨by simp [Call.keyed, hcanon, hadmin, Except.toOption], _,
            runE_bind_error _ (runE_rejectIf_of env w hadmin _)⟩
        · refine .inr ⟨request.keyed env auth ns path record, ?_, ?_⟩
          · simp only [Call.keyed, hcanon, hrecord, Except.toOption, Option.bind_eq_bind,
              Option.bind_some, if_neg hadmin]
            rfl
          · rw [Call.perform, Call.handle, runE_map, runE_map, runE_unbind hcanon hrecord hadmin]
            rfl
  | _ => exact h.elim

/-! ### What the handling does -/

namespace Keyed

variable {k : Keyed} {w w₁ : World}

theorem runE_handle_stored {record : IdempotencyRecord k.op.Response}
    (h : runE (exec env) (authorize env k.auth k.req) w = (.ok ⟨.idempotentRetry⟩, w₁))
    (hstored : w.store k.slot = some record) :
    runE (exec env) (k.handle env) w = (.ok record.response, w₁) := by
  rw [← sameOn_of_authorize h k.slot rfl] at hstored
  rw [handle, runE_bind_ok _ h, runE_bind_ok _ (runE_storedResponse _ _ _ _ _ _),
    if_pos ⟨rfl, rfl⟩, hstored]
  rfl

theorem runE_handle_apply (h : runE (exec env) (authorize env k.auth k.req) w = (.ok decision, w₁))
    (hno : decision = ⟨.idempotentRetry⟩ → w.store k.slot = none) :
    runE (exec env) (k.handle env) w = runE (exec env) k.apply w₁ := by
  rw [← sameOn_of_authorize h k.slot rfl] at hno
  rw [handle, runE_bind_ok _ h, runE_bind_ok _ (runE_storedResponse _ _ _ _ _ _)]
  obtain ⟨status⟩ := decision
  cases status with
  | fresh => rfl
  | idempotentRetry =>
    rw [if_pos ⟨rfl, rfl⟩, hno rfl]

/-- The request is a retry and has a stored response. -/
def Answered (env : Env) (k : Keyed) (w : World) : Prop :=
  (Prog.runE (exec env) (authorize env k.auth k.req) w).1 = .ok ⟨.idempotentRetry⟩ ∧
    (w.store k.slot).isSome

/-- **The three things that can happen to a request**: it is denied, it is answered from the store,
or it is carried out. -/
theorem handle_cases (env : Env) (k : Keyed) (w : World) :
    (∃ e w₁, runE (exec env) (authorize env k.auth k.req) w = (.error e, w₁) ∧
      runE (exec env) (k.handle env) w = (.error e, w₁)) ∨
    (∃ record w₁, runE (exec env) (authorize env k.auth k.req) w =
        (.ok ⟨.idempotentRetry⟩, w₁) ∧ w.store k.slot = some record ∧
      runE (exec env) (k.handle env) w = (.ok record.response, w₁)) ∨
    ∃ decision w₁, runE (exec env) (authorize env k.auth k.req) w = (.ok decision, w₁) ∧
      ¬ k.Answered env w ∧
      runE (exec env) (k.handle env) w = runE (exec env) k.apply w₁ := by
  rcases hauth : runE (exec env) (authorize env k.auth k.req) w with ⟨e | decision, w₁⟩
  · exact .inl ⟨e, w₁, hauth, runE_bind_error _ hauth⟩
  by_cases hanswered : k.Answered env w
  · obtain ⟨hretry, hstored⟩ := hanswered
    obtain ⟨record, hrecord⟩ := Option.isSome_iff_exists.1 hstored
    rw [hauth, Except.ok.injEq] at hretry
    subst hretry
    exact .inr (.inl ⟨record, w₁, hauth, hrecord, runE_handle_stored hauth hrecord⟩)
  · refine .inr (.inr ⟨decision, w₁, hauth, hanswered, runE_handle_apply hauth ?_⟩)
    rintro rfl
    have hno : ¬ (w.store k.slot).isSome := fun hs => hanswered ⟨by rw [hauth], hs⟩
    simpa using hno

theorem allows_of_ok {response : k.op.Response}
    (hok : runE (exec env) (k.handle env) w = (.ok response, w')) : Allows k.auth k.req := by
  rcases k.handle_cases env w with ⟨e, w₁, -, hrun⟩ | ⟨_, w₁, hauth, -⟩ | ⟨_, w₁, hauth, -⟩
  · rw [hrun] at hok
    cases hok
  · exact allows_of_checkClaims (checkClaims_of_authorize hauth)
  · exact allows_of_checkClaims (checkClaims_of_authorize hauth)

end Keyed

/-- A call whose response is kept succeeds as a keyed request. -/
theorem Call.keyed_of_ok (h : c.IsKeyed) {reply : Reply} (hok : (c.perform env w).1 = .ok reply) :
    ∃ k response, c.keyed env w = some k ∧ reply = k.op.reply response ∧
      runE (exec env) (k.handle env) w = (.ok response, (c.perform env w).2) := by
  rcases Call.perform_eq env h w with ⟨-, e, hrun⟩ | ⟨k, hk, hrun⟩
  · rw [hrun] at hok
    cases hok
  · rw [hrun, runE_map] at hok ⊢
    rcases hhandle : runE (exec env) (k.handle env) w with ⟨e | response, w'⟩
    · rw [hhandle] at hok
      cases hok
    · rw [hhandle] at hok
      exact ⟨k, response, hk, (Except.ok.inj hok).symm, hhandle.trans (by rw [hhandle])⟩

/-! ### Storing the response -/

/-- The entry holds a response. -/
def Loc.isResponse : Loc → Bool
  | .idempotency _ _ _ => true
  | _ => false

/-- The program stores its response if it succeeds, and no other response. -/
def StoresResponse (env : Env) (t : TenantId) (op : IdempotentOp) (key : String)
    (x : Svc op.Response) : Prop :=
  ∀ w, (∀ r w', Prog.runE (exec env) x w = (.ok r, w') →
      SameOn Loc.isResponse (w.set (.idempotency t op key) (some ⟨r⟩)) w') ∧
    ∀ e w', Prog.runE (exec env) x w = (.error e, w') → SameOn Loc.isResponse w w'

namespace StoresResponse

variable {t : TenantId} {op : IdempotentOp} {key : String} {auth : AuthContext}

theorem last (r : op.Response) :
    StoresResponse env t op key (do
      writeEncryptedJson (.idempotency t op key) ⟨r⟩
      return r) := by
  intro w
  refine ⟨fun r' w' h => ?_, fun e w' h => by cases h⟩
  cases h
  exact fun _ _ => rfl

variable (auth)

theorem bind {α : Type} {x : Svc α} {f : α → Svc op.Response}
    (hx : Handled env auth t (fun _ => True) (fun l => l.isResponse = false) x)
    (hf : ∀ a, StoresResponse env t op key (f a)) : StoresResponse env t op key (x >>= f) := by
  intro w
  have hsame : SameOn Loc.isResponse w (runE (exec env) x w).2 :=
    ((hx.aside (fun l _ hl => by cases l <;> first | rfl | cases hl) fun _ h => h).run env w).1
  rcases hrun : runE (exec env) x w with ⟨e | a, w₁⟩
  · rw [hrun] at hsame
    rw [runE_bind_error _ hrun]
    refine ⟨nofun, fun e' w' h => ?_⟩
    cases h
    exact hsame
  · rw [hrun] at hsame
    rw [runE_bind_ok _ hrun]
    exact ⟨fun r w' h => (hsame.set_both _ _).trans ((hf a w₁).1 r w' h),
      fun e w' h => hsame.trans ((hf a w₁).2 e w' h)⟩

theorem isResponse_of_mutationWrites (l : Loc) (h : Handled.mutationWrites t l) :
    l.isResponse = false := by
  cases l <;> first | rfl | exact h.elim

include auth

theorem putInitApply (request : PutInitRequest) :
    StoresResponse env request.tenantId .putInit request.idempotencyKey
      (putInitApply env request) :=
  .bind auth (Handled.reading.missingChunks _) fun _ => .bind auth .nowMs fun _ =>
    .bind auth .nowMs fun _ => .bind auth (.writeEncryptedJson rfl) fun _ => .last _

theorem putCommitApply (request : PutCommitRequest) (session : UploadSessionRecord) :
    StoresResponse env request.tenantId .putCommit request.idempotencyKey
      (putCommitApply env auth request session) :=
  .bind auth (Handled.reading.checkChunksStored _) fun _ => .bind auth .nowMs fun _ =>
    .bind auth (.writeEncryptedJson rfl) fun _ =>
    .bind auth (.commitBind env auth trivial isResponse_of_mutationWrites rfl) fun _ =>
    .bind auth .nowMs fun _ => .bind auth (.appendEvent trivial) fun _ =>
    .bind auth (.writeAudit isResponse_of_mutationWrites _ _ _) fun _ =>
    .bind auth (.writeEncryptedJson rfl) fun _ => .last _

theorem bindApply (request : BindRequest) (ns path : String) (record : NamespaceMutationRecord) :
    StoresResponse env request.tenantId .bind request.idempotencyKey
      (bindApply env request ns path record true) :=
  .bind auth (.rejectIf _ _) fun _ => .bind auth (Handled.reading.manifestRecord _) fun _ =>
    .bind auth (Handled.reading.namespaceCurrentState _) fun _ => .bind auth (.ofExcept _) fun _ =>
    .bind auth (.nextNamespaceRevision isResponse_of_mutationWrites _) fun _ =>
    .bind auth (.writeEncryptedJson rfl) fun _ =>
    .bind auth (.appendNamespaceJournal isResponse_of_mutationWrites _ _) fun _ =>
    .bind auth .nowMs fun _ => .bind auth (.appendEvent trivial) fun _ =>
    .bind auth (.writeAudit isResponse_of_mutationWrites _ _ _) fun _ => .last _

theorem unbindApply (request : UnbindRequest) (ns path : String)
    (record : NamespaceMutationRecord) :
    StoresResponse env request.tenantId .unbind request.idempotencyKey
      (unbindApply env request ns path record true) :=
  .bind auth (Handled.reading.namespaceCurrentState _) fun _ => .bind auth (.ofExcept _) fun _ =>
    .bind auth (.nextNamespaceRevision isResponse_of_mutationWrites _) fun _ =>
    .bind auth (.writeEncryptedJson rfl) fun _ =>
    .bind auth (.appendNamespaceJournal isResponse_of_mutationWrites _ _) fun _ =>
    .bind auth .nowMs fun _ => .bind auth (.appendEvent trivial) fun _ =>
    .bind auth (.writeAudit isResponse_of_mutationWrites _ _ _) fun _ => .last _

end StoresResponse

/-! ### What a keyed request leaves -/

/-- What the carrying out of a request may do. -/
structure Keyed.Lawful (env : Env) (k : Keyed) : Prop where
  handled : Handled env k.auth k.req.tenantId (fun _ => True) (fun l => l.isTrace = false) k.apply
  stores : StoresResponse env k.req.tenantId k.op k.key k.apply

theorem Call.lawful {k : Keyed} (h : c.keyed env w = some k) : k.Lawful env := by
  have hW {t : TenantId} (l : Loc) (hl : Handled.mutationWrites t l) : l.isTrace = false :=
    (Call.mutationWrites_writes hl).2
  cases c with
  | putInit auth request =>
    obtain rfl := Call.keyed_putInit h
    exact ⟨.putInitApply env auth (fun _ => rfl) rfl, .putInitApply auth request⟩
  | putCommit auth request =>
    obtain ⟨session, -, rfl⟩ := Call.keyed_putCommit h
    exact ⟨.putCommitApply env auth trivial trivial hW (fun _ => rfl) rfl rfl,
      .putCommitApply auth request session⟩
  | bind auth request =>
    obtain ⟨ns, path, record, -, rfl⟩ := Call.keyed_bind h
    exact ⟨.bindApply env auth trivial hW fun _ => rfl, .bindApply auth request ns path record⟩
  | unbind auth request =>
    obtain ⟨ns, path, record, -, rfl⟩ := Call.keyed_unbind h
    exact ⟨.unbindApply env auth trivial trivial hW fun _ => rfl,
      .unbindApply auth request ns path record⟩
  | _ => cases h

/-- A use of a token is spent: it is recorded with an idempotency key, and a response is stored
under that key. -/
structure Spent (env : Env) (u : TokenUse) (op : IdempotentOp) (key : String) (w : World) :
    Prop where
  recorded : ∃ r : ReplayRecord, w.store (u.loc env) = some r ∧ r.idempotencyKey = key
  stored : (w.store (.idempotency u.tenantId op key)).isSome

theorem Spent.remembered {u : TokenUse} {op : IdempotentOp} {key : String}
    (h : Spent env u op key w) (hw : Remembers w w') : Spent env u op key w' where
  recorded := by
    obtain ⟨r, hr, hkey⟩ := h.recorded
    exact ⟨r, hw.replay _ _ r hr, hkey⟩
  stored := hw.response _ _ _ h.stored

namespace Keyed

variable {k : Keyed} {u : TokenUse} {w w' : World} {response : k.op.Response}

theorem tenantId_of_use (hu : k.use = some u) : u.tenantId = k.req.tenantId := by
  rw [(tokenUse_eq_some.1 hu).2.2]

theorem recorded_of_authorize {w₁ : World}
    (hauth : runE (exec env) (authorize env k.auth k.req) w = (.ok decision, w₁))
    (hu : k.use = some u) :
    ∃ r : ReplayRecord, w₁.store (u.loc env) = some r ∧ r.idempotencyKey = k.key := by
  rcases authorize_ok hauth hu with ⟨-, atMs, hw₁⟩ | ⟨r, hr, hkey, -, hw₁⟩
  · refine ⟨replayRecord u k.req atMs, ?_, ?_⟩
    · rw [hw₁, World.set_store_self]
    · simp [replayRecord, k.key_eq]
  · rw [k.key_eq, Option.some.injEq] at hkey
    exact ⟨r, hw₁ ▸ hr, hkey.symm⟩

/-- **A request that succeeds has spent its use of the token.** -/
theorem spent_of_ok (hk : k.Lawful env) (hu : k.use = some u)
    (hok : runE (exec env) (k.handle env) w = (.ok response, w')) :
    Spent env u k.op k.key w' := by
  rcases k.handle_cases env w with ⟨e, w₁, hauth, hrun⟩ | ⟨record, w₁, hauth, hrecord, hrun⟩ |
    ⟨decision, w₁, hauth, -, hrun⟩
  · rw [hrun] at hok
    cases hok
  · rw [hrun] at hok
    cases hok
    refine ⟨recorded_of_authorize hauth hu, ?_⟩
    rw [tenantId_of_use hu, sameOn_of_authorize hauth k.slot rfl, hrecord]
    rfl
  · rw [hrun] at hok
    have hremembers : Remembers w₁ w' := by
      have happly := (Remembers.respected fun _ h => h).run hk.handled w₁
      rwa [hok] at happly
    obtain ⟨r, hr, hkey⟩ := recorded_of_authorize hauth hu
    refine ⟨⟨r, hremembers.replay _ _ r hr, hkey⟩, ?_⟩
    rw [tenantId_of_use hu, (hk.stores w₁).1 response w' hok _ rfl, World.set_store_self]
    rfl

/-- **A request that succeeds although its use of the token is spent is answered from the store**,
and nothing in the store changes. -/
theorem answered_of_spent {key : String} (hspent : Spent env u k.op key w) (hu : k.use = some u)
    (hok : runE (exec env) (k.handle env) w = (.ok response, w')) :
    k.Answered env w ∧ w'.store = w.store := by
  have hretry {decision : AuthorizationDecision} {w₁ : World}
      (hauth : runE (exec env) (authorize env k.auth k.req) w = (.ok decision, w₁)) :
      k.Answered env w ∧ w₁.store = w.store := by
    obtain ⟨r, hr, rfl⟩ := hspent.recorded
    rcases authorize_ok hauth hu with ⟨hnone, -⟩ | ⟨r', hr', hkey, rfl, hw₁⟩
    · rw [hr] at hnone
      cases hnone
    obtain rfl := Option.some.inj (hr.symm.trans hr')
    rw [k.key_eq, Option.some.injEq] at hkey
    refine ⟨⟨by rw [hauth], ?_⟩, hw₁⟩
    rw [slot, hkey, ← tenantId_of_use hu]
    exact hspent.stored
  rcases k.handle_cases env w with ⟨e, w₁, hauth, hrun⟩ | ⟨record, w₁, hauth, -, hrun⟩ |
    ⟨decision, w₁, hauth, hno, hrun⟩
  · rw [hrun] at hok
    cases hok
  · rw [hrun] at hok
    cases hok
    exact hretry hauth
  · exact absurd (hretry hauth).1 hno

end Keyed

end Hsp
