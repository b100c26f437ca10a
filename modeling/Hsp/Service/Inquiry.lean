import Hsp.Service.Aside
import Hsp.Service.Call

/-!
# Requests that only look

`HEAD`, `GET`, `RESOLVE`, `LIST` and `SUBSCRIBE` are made of reads and authorizations, and so are
large parts of the other requests.  What is true of reads and authorizations and kept by sequencing
is then true of all of them: `Reading env auth t P` says so of a property of programs, for the
authorizations of one caller for one tenant.

* `Reading.call` : a request that only looks has every such property;
* `Inquiry` : the programs that have all of them, with errors that meet a condition.
-/

namespace Hsp

/-- A property of programs that reads have, and authorizations of one caller for one tenant, and
that sequencing keeps. -/
structure Reading (env : Env) (auth : AuthContext) (t : TenantId)
    (P : {α : Type} → Svc α → Prop) : Prop where
  pure {α : Type} (a : α) : P (pure a : Svc α)
  throw {α : Type} (e : ApiError) : P (throw e : Svc α)
  bind {α β : Type} {x : Svc α} {f : α → Svc β} (hx : P x) (hf : ∀ a, P (f a)) : P (x >>= f)
  nowMs : P nowMs
  storeExists (l : Loc) : P (storeExists l)
  readEncryptedJson (l : Loc) : P (readEncryptedJson l)
  authorize {req : AuthRequestMeta} (ht : req.tenantId = t) : P (authorize env auth req)

namespace Reading

variable {env : Env} {auth : AuthContext} {t : TenantId} {P : {α : Type} → Svc α → Prop}
  {α β : Type} (h : Reading env auth t P)

include h

theorem map (f : α → β) {x : Svc α} (hx : P x) : P (f <$> x) :=
  h.bind hx fun a => h.pure (f a)

theorem ofExcept (x : Except ApiError α) : P (Hsp.ofExcept x) := by
  cases x with
  | ok a => exact h.pure a
  | error e => exact h.throw e

theorem rejectIf (c : Prop) [Decidable c] (e : ApiError) : P (Hsp.rejectIf c e) := by
  unfold Hsp.rejectIf
  split
  · exact h.throw e
  · exact h.pure ()

/-! ### Parts of requests -/

theorem storedResponse (op : IdempotentOp) (key : String) (persist : Bool)
    (decision : AuthorizationDecision) : P (storedResponse t op key persist decision) := by
  unfold Hsp.storedResponse
  split
  · exact h.readEncryptedJson _
  · exact h.pure _

theorem namespaceCurrentState (ns : String) : P (namespaceCurrentState t ns) :=
  h.bind (h.readEncryptedJson _) fun _ => h.pure _

theorem namespaceSnapshotAt (ns : String) (atRevision : Option ℕ) :
    P (namespaceSnapshotAt t ns atRevision) := by
  cases atRevision with
  | none => exact h.namespaceCurrentState ns
  | some _ =>
    exact h.bind (h.bind (h.readEncryptedJson _) fun _ => h.pure _) fun _ => h.pure _

theorem manifestRecord (cid : String) : P (manifestRecord t cid) := by
  refine h.bind (h.readEncryptedJson _) fun record => ?_
  cases record with
  | some record => exact h.pure _
  | none => exact h.throw _

theorem uploadSession (sessionId : String) : P (uploadSession t sessionId) := by
  refine h.bind (h.readEncryptedJson _) fun session => ?_
  cases session with
  | some session => exact h.pure _
  | none => exact h.throw _

theorem missingChunks (refs : List ChunkRef) : P (missingChunks t refs) := by
  induction refs with
  | nil => exact h.pure _
  | cons ref refs ih => exact h.bind (h.storeExists _) fun _ => h.bind ih fun _ => h.pure _

theorem checkChunksStored (refs : List ChunkRef) : P (checkChunksStored t refs) := by
  induction refs with
  | nil => exact h.pure _
  | cons ref refs ih =>
    exact h.bind (h.storeExists _) fun _ => h.bind (h.rejectIf _ _) fun _ => ih

theorem selectorResolution (selector : ObjectSelector) : P (selectorResolution t selector) := by
  unfold Hsp.selectorResolution
  cases selector.kind with
  | cid => exact h.pure _
  | «namespace» =>
    refine h.bind (h.bind (h.ofExcept _) fun _ => h.bind (h.namespaceSnapshotAt _ _) fun _ =>
      h.ofExcept _) fun resolved => h.bind (h.rejectIf _ _) fun _ => ?_
    cases resolved.manifestCid with
    | none => exact h.throw _
    | some manifestCid => exact h.pure _

theorem readFragments (first last : ℕ) (refs : List ChunkRef) :
    P (readFragments t first last refs) := by
  induction refs with
  | nil => exact h.pure _
  | cons ref refs ih =>
    unfold Hsp.readFragments
    split
    · exact ih
    · refine h.bind (h.readEncryptedJson _) fun bytes => ?_
      cases bytes with
      | none => exact h.throw _
      | some bytes =>
        dsimp only
        split
        · exact h.throw _
        · exact h.bind ih fun _ => h.pure _

theorem nextReadEventSeq : P (nextReadEventSeq t) :=
  h.bind (h.readEncryptedJson _) fun _ => h.pure _

theorem readEvents (remaining : ℕ) : ∀ seq batchMax, P (readEvents t remaining seq batchMax) := by
  induction remaining with
  | zero => exact fun _ _ => h.pure _
  | succ remaining ih =>
    intro seq batchMax
    cases batchMax with
    | zero => exact h.pure _
    | succ batchMax =>
      refine h.bind (h.readEncryptedJson _) fun event => ?_
      cases event with
      | some event => exact h.bind (ih _ _) fun _ => h.pure _
      | none => exact ih _ _

theorem authorizeFilters (filters : List SubscribeFilter) :
    ∀ index, P (authorizeFilters env auth t index filters) := by
  induction filters with
  | nil => exact fun _ => h.pure _
  | cons filter filters ih =>
    exact fun index => h.bind (h.authorize rfl) fun _ => ih (index + 1)

/-! ### Requests -/

theorem get {request : GetRequest} (ht : request.tenantId = t) : P (get env auth request) := by
  subst ht
  refine h.bind (h.ofExcept _) fun _ => h.bind (h.ofExcept _) fun _ =>
    h.bind (h.selectorResolution _) fun _ => h.bind (h.authorize rfl) fun _ =>
    h.bind (h.manifestRecord _) fun record => ?_
  unfold getObject
  cases request.preference.getD .chunkStream with
  | raw => exact h.throw _
  | manifestOnly => exact h.pure _
  | chunkStream =>
    exact h.bind (h.ofExcept _) fun _ => h.bind (h.readFragments _ _ _) fun _ => h.pure _

theorem list {request : ListRequest} (ht : request.tenantId = t) :
    P (list env auth request) := by
  subst ht
  refine h.bind (h.ofExcept _) fun _ => h.bind (h.authorize rfl) fun _ => h.bind ?_ fun _ =>
    h.bind (h.namespaceSnapshotAt _ _) fun _ => h.pure _
  unfold listStart
  split
  · exact h.bind (h.ofExcept _) fun _ => h.bind (h.rejectIf _ _) fun _ => h.pure _
  · exact h.bind (h.namespaceCurrentState _) fun _ => h.pure _

theorem subscribeStart {request : SubscribeRequest} (ht : request.tenantId = t) :
    P (subscribeStart env auth request) := by
  subst ht
  refine h.bind (h.rejectIf _ _) fun _ => h.bind ?_ fun _ =>
    h.bind h.nextReadEventSeq fun _ => h.bind (h.ofExcept _) fun _ =>
    h.bind (h.bind h.nextReadEventSeq fun _ => h.rejectIf _ _) fun _ => h.pure _
  unfold authorizeSubscription
  split
  · exact h.bind (h.authorize rfl) fun _ => h.pure _
  · exact h.authorizeFilters _ 0

end Reading

/-- Who makes the call. -/
def Call.auth : Call → AuthContext
  | .putInit auth _ | .putChunk auth _ _ | .putCommit auth _ | .head auth _ | .get auth _
  | .resolve auth _ | .bind auth _ | .unbind auth _ | .list auth _ | .subscribeStart auth _
  | .subscribePoll auth _ _ => auth

/-- The tenant the call names. -/
def Call.tenantId : Call → TenantId
  | .putInit _ request => request.tenantId
  | .putChunk _ request _ => request.tenantId
  | .putCommit _ request => request.tenantId
  | .head _ request => request.tenantId
  | .get _ request => request.tenantId
  | .resolve _ request => request.tenantId
  | .bind _ request => request.tenantId
  | .unbind _ request => request.tenantId
  | .list _ request => request.tenantId
  | .subscribeStart _ request => request.tenantId
  | .subscribePoll _ request _ => request.tenantId

/-- The call is one of those that only look. -/
def Call.Inquires : Call → Prop
  | .putInit _ _ | .putChunk _ _ _ | .putCommit _ _ | .bind _ _ | .unbind _ _ => False
  | .head _ _ | .get _ _ | .resolve _ _ | .list _ _ | .subscribeStart _ _
  | .subscribePoll _ _ _ => True

/-- **A request that only looks is made of reads and authorizations.** -/
theorem Reading.call {env : Env} {P : {α : Type} → Svc α → Prop} {c : Call}
    (h : Reading env c.auth c.tenantId P) (hc : c.Inquires) : P (c.handle env) := by
  cases c with
  | head auth request =>
    refine h.map _ (h.bind (h.ofExcept _) fun _ => h.bind (h.selectorResolution _) fun _ => ?_)
    exact h.bind (h.authorize rfl) fun _ => h.bind (h.manifestRecord _) fun _ => h.pure _
  | get auth request => exact h.map _ (h.get rfl)
  | resolve auth request =>
    refine h.map _ (h.bind (h.ofExcept _) fun _ => h.bind (h.authorize rfl) fun _ => ?_)
    exact h.bind (h.namespaceSnapshotAt _ _) fun _ => h.ofExcept _
  | list auth request => exact h.map _ (h.list rfl)
  | subscribeStart auth request => exact h.map _ (h.subscribeStart rfl)
  | subscribePoll auth request cursor =>
    refine h.map _ (h.bind (h.subscribeStart rfl) fun _ => h.bind ?_ fun _ => h.pure _)
    exact h.bind h.nextReadEventSeq fun _ => h.readEvents _ _ _
  | _ => exact hc.elim

/-! ### Errors -/

/-- Programs made of reads and authorizations, with errors that meet a condition. -/
inductive Inquiry (env : Env) (E : ApiError → Prop) : {α : Type} → Svc α → Prop
  | pure {α : Type} (a : α) : Inquiry env E (pure a : Svc α)
  | throw {α : Type} {e : ApiError} (h : E e) : Inquiry env E (throw e : Svc α)
  | bind {α β : Type} {x : Svc α} {f : α → Svc β} (hx : Inquiry env E x)
      (hf : ∀ a, Inquiry env E (f a)) : Inquiry env E (x >>= f)
  | nowMs : Inquiry env E nowMs
  | storeExists (l : Loc) : Inquiry env E (storeExists l)
  | readEncryptedJson (l : Loc) : Inquiry env E (readEncryptedJson l)
  | authorize (auth : AuthContext) (req : AuthRequestMeta) (h : ∀ e, AuthError e → E e) :
      Inquiry env E (authorize env auth req)

namespace Inquiry

variable {env : Env} {E : ApiError → Prop} {α : Type}

theorem reading (auth : AuthContext) {t : TenantId} :
    Reading env auth t (Inquiry env fun _ => True) :=
  ⟨.pure, fun _ => .throw trivial, .bind, .nowMs, .storeExists, .readEncryptedJson,
    fun _ => .authorize auth _ fun _ _ => trivial⟩

/-- **An inquiry leaves the data alone.** -/
theorem aside (env : Env) {x : Svc α} (h : Inquiry env E x) : Aside Loc.isData E x := by
  induction h with
  | pure a => exact .pure a
  | throw h => exact .throw h
  | bind _ _ hx hf => exact .bind hx hf
  | nowMs => exact .nowMs
  | storeExists l => exact .storeExists l
  | readEncryptedJson l => exact .readEncryptedJson l
  | authorize auth req h =>
    exact (Aside.authorize rfl (fun _ => rfl) (fun _ => rfl) env auth).weaken (fun _ h => h) h

theorem ofExcept {x : Except ApiError α} (h : ∀ e, x = .error e → E e) :
    Inquiry env E (Hsp.ofExcept x) := by
  cases x with
  | ok a => exact .pure a
  | error e => exact .throw (h e rfl)

theorem readFragments (t : TenantId) (first last : ℕ) (refs : List ChunkRef) :
    Inquiry env (fun e => e.code ≠ "manifest_not_found") (readFragments t first last refs) := by
  induction refs with
  | nil => exact .pure _
  | cons ref refs ih =>
    unfold Hsp.readFragments
    split
    · exact ih
    · refine .bind (.readEncryptedJson _) fun bytes => ?_
      cases bytes with
      | none => exact .throw (by simp)
      | some bytes =>
        dsimp only
        split
        · exact .throw (by simp)
        · exact .bind ih fun _ => .pure _

theorem getObject (request : GetRequest) (resolution : SelectorResolution)
    (record : ManifestRecord) :
    Inquiry env (fun e => e.code ≠ "manifest_not_found")
      (getObject request resolution record) := by
  unfold Hsp.getObject
  cases request.preference.getD .chunkStream with
  | raw => exact .throw (by simp)
  | manifestOnly => exact .pure _
  | chunkStream =>
    refine .bind (.ofExcept fun e he => ?_) fun range =>
      .bind (.readFragments _ _ _ _) fun _ => .pure _
    unfold requestedRange at he
    split at he
    · split at he <;> cases he
      simp
    · cases he

end Inquiry

end Hsp
