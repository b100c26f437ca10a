import Hsp.Distribution.Effects
import Hsp.Namespace.Outcome
import Hsp.Sample.Deployment

/-!
# Expired capabilities

`authenticateHspCapability` does not look at the time window of a capability; the policy engine of
the `AlphaService` does, each time the service is called.  So a request is refused because of the
time only if it makes such a call, and it changes nothing only if the call comes before its writes.

* `Request.unchanged_of_asksFirst` : with a capability that has expired or is not yet valid, the
  requests that ask the `AlphaService` first change nothing;
* `expired_unchanged_iff` : these are the only ones.
-/

namespace Hsp

namespace Distribution

open Prog (Alone)

variable {d : Deployment} {α β : Type} {G : Action → Server → Prop}

/-! ### The time window -/

/-- At this time the capability has expired or is not yet valid. -/
def Untimely (auth : AuthContext) (now : ℕ) : Prop :=
  auth.claims.exp.toNat < now ∨ ∃ nbf ∈ auth.claims.nbf, now < nbf.toNat

theorem not_untimely_of_checkClaims {now : ℕ} {auth : AuthContext} {req : AuthRequestMeta}
    (h : checkClaims now auth req = .ok ()) : ¬ Untimely auth now := by
  rw [checkClaims, except_bind_eq_ok] at h
  obtain ⟨_, hwindow, -⟩ := h
  simp only [validateTimeWindow, except_throw, except_error_bind, except_guard_eq_ok] at hwindow
  obtain ⟨hexp, hnbf⟩ := hwindow
  rintro (hlate | ⟨nbf, hsome, hearly⟩)
  · exact hexp hlate
  · rw [Option.mem_def.1 hsome] at hnbf
    simp only [except_guard_eq_ok] at hnbf
    exact hnbf.1 hearly

theorem tick_lt_authorize (env : Env) (auth : AuthContext) (req : AuthRequestMeta) (w : World) :
    w.tick < (runE (exec env) (authorize env auth req) w).2.tick := by
  cases hc : checkClaims (env.clock w.tick) auth req with
  | error reason =>
    rw [runE_authorize_denied hc]
    exact Nat.lt_add_right _ (Nat.lt_succ_self _)
  | ok _ =>
    have hpolicy : w.tick < ((policyAuthorize auth req).run (exec env) w).2.tick := by
      rw [run_policyAuthorize hc]
      split <;> exact Nat.lt_succ_self _
    rw [authorize, runE_bind_ok _ (runE_lift _ _ _)]
    exact hpolicy.trans_le (tick_le_runE env _ _)

/-- A program of the `AlphaService` that checks the request and then authorizes the caller fails and
leaves the data alone, or it was executed at a time within the window. -/
theorem refused_or_timely {env : Env} {auth : AuthContext} {x : Except ApiError α}
    {req : α → AuthRequestMeta} {f : α → AuthorizationDecision → Svc β} {w w' : World}
    {result : Except ApiError β}
    (h : runE (exec env) (Hsp.ofExcept x >>= fun a => authorize env auth (req a) >>= f a) w =
      (result, w')) :
    (∃ e, result = .error e) ∧ SameOn Loc.isData w w' ∨
      ¬ Untimely auth (env.clock w.tick) ∧ w.tick < w'.tick := by
  cases x with
  | error e =>
    cases h
    exact .inl ⟨⟨e, rfl⟩, fun _ _ => rfl⟩
  | ok a =>
    have hstart : runE (exec env) (authorize env auth (req a) >>= f a) w = (result, w') := h
    rcases hauth : runE (exec env) (authorize env auth (req a)) w with ⟨e | decision, w₁⟩
    · rw [runE_bind_error _ hauth] at hstart
      cases hstart
      exact .inl ⟨⟨e, rfl⟩, sameOn_of_authorize hauth⟩
    · rw [runE_bind_ok _ hauth] at hstart
      refine .inr ⟨not_untimely_of_checkClaims (checkClaims_of_authorize hauth), ?_⟩
      have hlt := tick_lt_authorize env auth (req a) w
      have hrest := tick_le_runE env (f a decision) w₁
      rw [hauth] at hlt
      rw [hstart] at hrest
      exact hlt.trans_le hrest

/-! ### What an untimely request leaves alone -/

/-- No entry of the distribution server and no namespace has changed. -/
structure Unchanged (s s' : Server) : Prop where
  lookup : ∀ a, s'.lookup a = s.lookup a
  namespaces : SameNamespaces s.alpha s'.alpha

section Refused

variable {auth : AuthContext} {s : Server} {x : Dist α}

theorem Within.unchanged (h : Within [] Call.Inquires x) :
    Keeps (act d) (Alone G) (Unchanged s) x :=
  h.keeps fun _ _ hlookup hsame hs =>
    ⟨fun a => (hlookup a List.not_mem_nil).trans (hs.lookup a), fun l hl =>
      (hsame.sameNamespaces l hl).trans (hs.namespaces l hl)⟩

theorem unchanged_ofExcept (y : Except ApiError α) :
    Keeps (act d) (Alone G) (Unchanged s) (ofExcept y) := (Within.ofExcept y).unchanged

/-- A call that checks the request and then authorizes the caller is refused at a time at which the
capability cannot be used. -/
theorem refused_call {c : Call} {y : Except ApiError β} {req : β → AuthRequestMeta}
    {f : β → AuthorizationDecision → Svc c.Response}
    (hc : c.answer d.toEnv =
      Hsp.ofExcept y >>= fun a => authorize d.toEnv auth (req a) >>= f a) :
    Triple (act d) (Alone (Shows d (Untimely auth))) (Unchanged s) (callAlpha c)
      (fun _ _ => False) fun _ => Unchanged s := by
  refine triple_callAlpha fun s₁ result w' hs hshows hrun => ?_
  rcases refused_or_timely (hc ▸ hrun) with ⟨⟨e, rfl⟩, hsame⟩ | ⟨htimely, hlt⟩
  · exact ⟨hs.lookup, hs.namespaces.trans hsame.sameNamespaces⟩
  · refine absurd (hshows ?_) htimely
    have htick : (act d (.call c) s₁).2.alpha.tick = w'.tick := congrArg (·.2.tick) hrun
    rw [htick]
    exact hlt

end Refused

/-! ### The requests that ask first -/

/-- The operations that change something. -/
inductive ChangeOp where
  | createBucket | deleteBucket | putBucketAcl | putObjectAcl | putLifecycleConfig
  | putObjectRetention | putObjectLegalHold | putWebsiteConfig | putReplicationConfig | putObject
  | copyObject | deleteObject | createMultipartUpload | uploadPart | completeMultipartUpload
  | abortMultipartUpload
  deriving DecidableEq

/-- The operation asks the `AlphaService`, and cannot go on if it refuses, before it writes. -/
def ChangeOp.asksFirst : ChangeOp → Bool
  | .deleteBucket | .putObject | .copyObject | .deleteObject | .completeMultipartUpload => true
  | _ => false

namespace Request

/-- Which of the operations a request is. -/
def changeOp : Request → Option ChangeOp
  | .createBucket .. => some .createBucket
  | .deleteBucket .. => some .deleteBucket
  | .putBucketAcl .. => some .putBucketAcl
  | .putObjectAcl .. => some .putObjectAcl
  | .putLifecycleConfig .. => some .putLifecycleConfig
  | .putObjectRetention .. => some .putObjectRetention
  | .putObjectLegalHold .. => some .putObjectLegalHold
  | .putWebsiteConfig .. => some .putWebsiteConfig
  | .putReplicationConfig .. => some .putReplicationConfig
  | .putObject .. => some .putObject
  | .copyObject .. => some .copyObject
  | .deleteObject .. => some .deleteObject
  | .createMultipartUpload .. => some .createMultipartUpload
  | .uploadPart .. => some .uploadPart
  | .completeMultipartUpload .. => some .completeMultipartUpload
  | .abortMultipartUpload .. => some .abortMultipartUpload
  | _ => none

/-- A request that asks first changes nothing if the clock is never read within the window. -/
theorem keeps_of_asksFirst {r : Request} {op : ChangeOp} (hop : r.changeOp = some op)
    (hfirst : op.asksFirst) (s : Server) :
    Keeps (act d) (Alone (Shows d (Untimely r.auth))) (Unchanged s) (r.handle d) := by
  unfold Keeps
  cases r with
  | deleteBucket auth t bucket =>
    exact .bind (unchanged_ofExcept _) fun _ => .bind (unchanged_ofExcept _) fun _ =>
      .bind (Within.headBucket auth t _).unchanged fun _ => .bind (refused_call rfl) fun _ =>
      .of_false
  | putObject auth request payload =>
    exact .bind (unchanged_ofExcept _) fun _ => .bind (Within.requireBucket _ _).unchanged fun _ =>
      .bind (unchanged_ofExcept _) fun _ => .bind (unchanged_ofExcept _) fun _ =>
      .bind (Within.effectiveUpload request payload).unchanged fun _ =>
      .bind (unchanged_ofExcept _) fun _ =>
      .bind (Within.overwrittenRevision auth _ (fun _ h => h.inquires) _ _).unchanged fun _ =>
      .bind (Within.buildManifestFromChunkRefs _ _ _).unchanged fun _ =>
      .bind (Within.atomicBindFor _ _ _ _ _ _).unchanged fun _ =>
      .bind (refused_call rfl) fun _ => .of_false
  | deleteObject auth request =>
    exact .bind (Within.requireBucket _ _).unchanged fun _ => .bind (unchanged_ofExcept _) fun _ =>
      .bind (unchanged_ofExcept _) fun _ =>
      .bind (triple_orObjectError (refused_call rfl)) fun _ => .of_false
  | copyObject auth request =>
    exact .bind (Within.requireBucket _ _).unchanged fun _ =>
      .bind (Within.requireBucket _ _).unchanged fun _ => .bind (unchanged_ofExcept _) fun _ =>
      .bind (unchanged_ofExcept _) fun _ =>
      .bind (Within.ensureBucketReadScopeFor auth _ _ _).unchanged fun _ =>
      .bind (unchanged_ofExcept _) fun _ =>
      .bind (triple_orObjectError (refused_call rfl)) fun _ => .of_false
  | completeMultipartUpload auth request =>
    exact .bind (Within.changeUpload auth _ _).unchanged fun _ =>
      .bind (unchanged_ofExcept _) fun _ => .bind (Within.collectChunkRefs _ _ _).unchanged fun _ =>
      .bind (Within.requireBucket _ _).unchanged fun _ =>
      .bind (.bind (Within.overwrittenRevision auth _ (fun _ h => h.inquires) _ _).unchanged
        fun _ => .bind (Within.buildManifestFromChunkRefs _ _ _).unchanged fun _ =>
        .bind (Within.atomicBindFor _ _ _ _ _ _).unchanged fun _ =>
        .bind (refused_call rfl) fun _ => .of_false (Q := fun _ _ => False)) fun _ => .of_false
  | _ => cases hop <;> cases hfirst

/-- **Untimely requests that ask first change nothing.** -/
theorem unchanged_of_asksFirst {r : Request} {op : ChangeOp} (hop : r.changeOp = some op)
    (hfirst : op.asksFirst) {s : Server}
    (htime : ∀ k, s.alpha.tick ≤ k → k < (r.perform d s).2.alpha.tick →
      Untimely r.auth (d.clock k)) :
    Unchanged s (r.perform d s).2 :=
  (keeps_of_asksFirst hop hfirst s).run ⟨fun _ => rfl, .refl _⟩ (always_shows htime)

end Request

end Distribution

/-! ### The requests that do not ask first -/

namespace Sample

open Hsp.Distribution

/-- A deployment whose clock shows a time after the capability `auth "1"` has expired. -/
def lateDeployment : Deployment := deployment [] [(auth "1").claims] 2

/-- The proof of a request with the expired capability. -/
def lateProof : String :=
  requestProof lateDeployment ⟨"PUT", "/", "", fun _ => none, []⟩ (token 0) "n"

/-- An HTTP request with the expired capability. -/
def lateBinding : HttpRequestBinding where
  method := "PUT"
  rawPath := "/"
  rawQuery := ""
  headers name :=
    [("x-hsp-capability", token 0), ("x-hsp-request-nonce", "n"),
      ("x-hsp-request-proof", lateProof)].lookup name
  body := []

/-- The caller with the expired capability. -/
def lateAuth : AuthContext := ⟨(auth "1").claims, some ⟨"request-signature", lateProof, "n"⟩⟩

theorem late_accepted : authenticateHspCapability lateDeployment lateBinding = .ok lateAuth := by
  rfl

/-- A server on which the caller has created two buckets and started an upload. -/
def lateServer : Server :=
  runRequests lateDeployment [.createBucket lateAuth tenant "b", .createBucket lateAuth tenant "c",
    .createMultipartUpload lateAuth (multipartRequest "b" "k" "i")] .empty

/-- A request of each kind that does not ask first, and an entry that it creates or removes. -/
def lateRequest : ChangeOp → Request × Slot
  | .createBucket => (.createBucket lateAuth tenant "new", bucketSlot tenant "new")
  | .putBucketAcl => (.putBucketAcl lateAuth tenant "b" .publicRead, bucketAclSlot tenant "b")
  | .putObjectAcl =>
    (.putObjectAcl lateAuth tenant "b" "k" .publicRead, objectAclSlot tenant "b" "k")
  | .putLifecycleConfig =>
    (.putLifecycleConfig lateAuth ⟨tenant, "b", [], 0⟩, lifecycleSlot tenant "b")
  | .putObjectRetention =>
    (.putObjectRetention lateAuth tenant "b" "k" (some 9) none, objectLockSlot tenant "b" "k")
  | .putObjectLegalHold =>
    (.putObjectLegalHold lateAuth tenant "b" "k" true, objectLockSlot tenant "b" "k")
  | .putWebsiteConfig =>
    (.putWebsiteConfig lateAuth ⟨tenant, "b", true, "", "", .trustedEdgeV1, 0⟩,
      websiteSlot tenant "b")
  | .putReplicationConfig =>
    (.putReplicationConfig lateAuth ⟨tenant, "b", "c", none, true, 0⟩,
      replicationConfigSlot tenant "b")
  | .createMultipartUpload =>
    (.createMultipartUpload lateAuth (multipartRequest "b" "new" "i"),
      multipartSessionSlot tenant (uploadId "b" "new" 2))
  | .uploadPart =>
    (.uploadPart lateAuth ⟨tenant, uploadId "b" "k" 2, 1⟩ chunk,
      multipartPartSlot tenant (uploadId "b" "k" 2) 1)
  | _ =>
    (.abortMultipartUpload lateAuth ⟨tenant, uploadId "b" "k" 2⟩,
      multipartSessionSlot tenant (uploadId "b" "k" 2))

theorem late_changes : ∀ op : ChangeOp, op.asksFirst = false →
    (lateRequest op).1.changeOp = some op ∧
      (((lateRequest op).1.perform lateDeployment lateServer).2.lookup (lateRequest op).2).isSome ≠
        (lateServer.lookup (lateRequest op).2).isSome := by
  intro op
  cases op <;> decide +kernel

theorem late_untimely (k : ℕ) : Untimely lateAuth (lateDeployment.clock k) :=
  .inl (Nat.lt_succ_self 1)

theorem lateRequest_auth (op : ChangeOp) : (lateRequest op).1.auth = lateAuth := by
  cases op <;> rfl

/-- Anyone whose capability has expired can create a bucket. -/
theorem late_createBucket :
    authenticateHspCapability lateDeployment lateBinding = .ok lateAuth ∧
      (∀ k, Untimely lateAuth (lateDeployment.clock k)) ∧
      Server.empty.lookup (bucketSlot tenant "b") = none ∧
      (((Request.createBucket lateAuth tenant "b").perform lateDeployment .empty).2.lookup
        (bucketSlot tenant "b")).isSome :=
  ⟨late_accepted, late_untimely, rfl, by decide +kernel⟩

end Sample

namespace Distribution

/-- **What an expired capability changes.**  An operation changes no entry and no namespace for
callers whose capability was accepted but is outside its time window, whatever the deployment, the
server and the request, if and only if it asks the `AlphaService` before it writes. -/
theorem expired_unchanged_iff (op : ChangeOp) :
    (∀ (d : Deployment) (s : Server) (r : Request) (binding : HttpRequestBinding),
        r.changeOp = some op → authenticateHspCapability d binding = .ok r.auth →
        (∀ k, s.alpha.tick ≤ k → k < (r.perform d s).2.alpha.tick →
          Untimely r.auth (d.clock k)) →
        Unchanged s (r.perform d s).2) ↔
      op.asksFirst := by
  constructor
  · intro hlaw
    by_contra hop
    obtain ⟨hchange, hdiffers⟩ := Sample.late_changes op (Bool.eq_false_iff.2 hop)
    have hauth := Sample.lateRequest_auth op
    have hsame := hlaw Sample.lateDeployment Sample.lateServer _ Sample.lateBinding hchange
      (hauth ▸ Sample.late_accepted) fun k _ _ => hauth ▸ Sample.late_untimely k
    exact hdiffers (by rw [hsame.lookup])
  · intro hfirst d s r _ hop _ htime
    exact Request.unchanged_of_asksFirst hop hfirst htime

end Distribution

end Hsp
