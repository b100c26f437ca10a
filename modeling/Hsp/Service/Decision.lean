import Hsp.Service.Inquiry

/-!
# What authorization decides

`authorize` reads the clock, checks the claims, looks a mutation up in the replay cache and leaves
a durable record of the use of the token.  Run alone, it does one of three things, and there is one
equation for each of them:

* `runE_authorize_denied` : the claims do not allow the request;
* `runE_authorize_query` : the request is no mutation;
* `runE_authorize_mutation` : the request is a mutation, and the replay cache and the replay record
  decide.

`authorize_ok` is what a successful mutation says about the replay record.
-/

namespace Hsp

variable {env : Env} {req : AuthRequestMeta}

/-! ### Uses of tokens -/

/-- One use of a token: the mutation it was presented for. -/
structure TokenUse where
  tenantId : TenantId
  jti : String
  operation : OperationName
  subject : String
  deriving DecidableEq

namespace TokenUse

/-- The name of the use in the replay cache. -/
def identity (u : TokenUse) : String := replayIdentity u.tenantId u.jti u.operation u.subject

/-- The entry of the store with the record of the use. -/
@[reducible] def loc (env : Env) (u : TokenUse) : Loc :=
  .replay u.tenantId (replayKey env u.tenantId u.jti u.operation u.subject)

end TokenUse

/-- The use of the caller's token that a request to the policy engine is, if it is a mutation. -/
def tokenUse (auth : AuthContext) (req : AuthRequestMeta) : Option TokenUse :=
  if req.operation.isMutation then
    auth.claims.jti.map fun jti => ⟨req.tenantId, jti, req.operation, req.subject⟩
  else none

theorem tokenUse_eq_some {auth : AuthContext} {u : TokenUse} :
    tokenUse auth req = some u ↔ req.operation.isMutation ∧ auth.claims.jti = some u.jti ∧
      u = ⟨req.tenantId, u.jti, req.operation, req.subject⟩ := by
  unfold tokenUse
  split
  · rename_i hmut
    cases hjti : auth.claims.jti with
    | none => simp
    | some jti =>
      simp only [Option.map_some, Option.some.injEq, hmut, true_and]
      constructor
      · rintro rfl
        exact ⟨rfl, rfl⟩
      · rintro ⟨rfl, hu⟩
        exact hu.symm
  · rename_i hmut
    simp [hmut]

/-- What it takes at least for claims to allow a request. -/
structure Allows (auth : AuthContext) (req : AuthRequestMeta) : Prop where
  tenant : auth.claims.tenantId = req.tenantId
  jti : req.operation.isMutation → auth.claims.jti.isSome
  path : checkScope auth.claims.pathPrefix req.path .pathScopeMismatch = .ok ()
  ns : checkScope auth.claims.namespacePrefix req.ns .namespaceScopeMismatch = .ok ()

theorem allows_of_checkClaims {now : ℕ} {auth : AuthContext}
    (h : checkClaims now auth req = .ok ()) : Allows auth req := by
  simp only [checkClaims, except_throw, except_error_bind, except_guard_eq_ok,
    except_bind_eq_ok] at h
  obtain ⟨_, -, htenant, -, -, -, -, hjti, _, -, _, -, _, hpath, _, hns, -⟩ := h
  refine ⟨not_not.1 htenant, fun hmut => ?_, hpath, hns⟩
  rw [hmut, Bool.true_and, Bool.not_eq_true] at hjti
  simpa using hjti

/-- The record a use leaves. -/
def replayRecord (u : TokenUse) (req : AuthRequestMeta) (observedAtMs : ℕ) : ReplayRecord where
  tenantId := u.tenantId
  jti := u.jti
  operation := u.operation.asStr
  subject := u.subject
  idempotencyKey := req.idempotencyKey.getD ""
  observedAtMs := observedAtMs

/-! ### Denials -/

namespace World

variable (w : World)

/-- The clock has been read `n` times more. -/
def ticked (n : ℕ) : World := { w with tick := w.tick + n }

@[simp] theorem ticked_store (n : ℕ) : (w.ticked n).store = w.store := rfl

/-- An event has been appended to the log of a tenant. -/
def logged (t : TenantId) (e : EventRecord) : World :=
  (w.set (.eventSequence t) (some ⟨w.nextSeq t + 1⟩)).set (.event t (w.nextSeq t))
    (some { e with seq := w.nextSeq t })

end World

theorem runE_appendEvent (t : TenantId) (e : EventRecord) (w : World) :
    runE (exec env) (appendEvent t e) w = (.ok (w.nextSeq t), w.logged t e) := rfl

/-- The event about a denial. -/
def denialEvent (req : AuthRequestMeta) (reason : DenialReason) (atMs : ℕ) : EventRecord where
  version := 1
  seq := 0
  atMs := atMs
  eventType := .authDenied
  subjectKind := "auth"
  ns := req.ns
  path := req.path
  cid := none
  revision := none
  traceId := none
  payload := .ofList [("code", reason.code), ("operation", req.operation.asStr)]

/-- The world after a denial. -/
def World.denied (env : Env) (w : World) (req : AuthRequestMeta) (reason : DenialReason) : World :=
  (w.ticked 1).logged req.tenantId (denialEvent req reason (env.clock w.tick))

/-- A denied request ends with the error of the denial, after an event about it. -/
theorem runE_deny {α : Type} (req : AuthRequestMeta) (reason : DenialReason) (w : World) :
    runE (exec env) (deny req reason : Svc α) w =
      (.error (denialToApiError reason), w.denied env req reason) := rfl

/-! ### The three cases -/

section Cases

variable {auth : AuthContext} {req : AuthRequestMeta} {w : World} {u : TokenUse}
  {decision : AuthorizationDecision}

theorem exec_now : exec env .now w = (env.clock w.tick, w.ticked 1) := rfl

theorem run_policyAuthorize_denied {reason : DenialReason}
    (h : checkClaims (env.clock w.tick) auth req = .error reason) :
    (policyAuthorize auth req).run (exec env) w = (.error reason, w.ticked 1) := by
  simp only [policyAuthorize, Prog.perform, Prog.op_bind, Prog.ret_bind, Prog.run_op, exec_now, h]
  rfl

theorem runE_authorize_denied {reason : DenialReason}
    (h : checkClaims (env.clock w.tick) auth req = .error reason) :
    runE (exec env) (authorize env auth req) w =
      (.error (denialToApiError reason), (w.ticked 1).denied env req reason) := by
  rw [authorize, runE_bind_ok _ (by rw [runE_lift, run_policyAuthorize_denied h])]
  exact runE_deny req reason _

/-- The claims allow the request, and the policy engine has looked at the replay cache. -/
theorem run_policyAuthorize (hc : checkClaims (env.clock w.tick) auth req = .ok ()) :
    (policyAuthorize auth req).run (exec env) w = match tokenUse auth req with
      | none => (.ok ⟨.fresh⟩, w.ticked 1)
      | some u =>
        let (status, w₁) := exec env (.observe u.identity req.idempotencyKey) (w.ticked 1)
        (status.map .mk, w₁) := by
  simp only [policyAuthorize, Prog.perform, Prog.op_bind, Prog.ret_bind, Prog.run_op, exec_now, hc]
  cases hjti : auth.claims.jti with
  | none =>
    simp only [tokenUse, hjti, Option.map_none, ite_self]
    rfl
  | some jti =>
    cases hmut : req.operation.isMutation with
    | false =>
      simp only [tokenUse, hmut]
      rfl
    | true =>
      simp only [tokenUse, hjti, hmut, if_true, Option.map_some]
      rfl

theorem runE_authorize_query (hc : checkClaims (env.clock w.tick) auth req = .ok ())
    (hu : tokenUse auth req = none) :
    runE (exec env) (authorize env auth req) w = (.ok ⟨.fresh⟩, w.ticked 1) := by
  have hpolicy := run_policyAuthorize hc
  rw [hu] at hpolicy
  rw [authorize, runE_bind_ok _ (by rw [runE_lift, hpolicy])]
  cases hmut : req.operation.isMutation with
  | false => simp [observeDurableReplay, hmut]
  | true =>
    cases hjti : auth.claims.jti with
    | none => simp [observeDurableReplay, hjti]
    | some jti => simp [tokenUse, hmut, hjti] at hu

/-- What is on record of a use of a token, in the replay cache and in the store, has the key. -/
@[mk_iff]
structure TokenUse.Agrees (env : Env) (u : TokenUse) (w : World) (key : Option String) : Prop where
  seen : ∀ k ∈ w.seen u.identity, key = some k
  recorded : ∀ r ∈ w.store (u.loc env), key = some r.idempotencyKey

/-- A use is a retry if there is anything on record of it. -/
def TokenUse.status (env : Env) (u : TokenUse) (w : World) : ReplayStatus :=
  if (w.seen u.identity).isSome ∨ (w.store (u.loc env)).isSome then .idempotentRetry else .fresh

theorem exec_observe (identity : String) (key : Option String) :
    exec env (.observe identity key) w = (if ∀ k ∈ w.seen identity, key = some k then
      .ok (if (w.seen identity).isSome then .idempotentRetry else .fresh)
      else .error .replayDetected, { w with seen := (w.seen.observe identity key).2 }) := by
  simp only [exec, ReplayCache.observe]
  cases w.seen identity <;> simp

/-- The request is a mutation: the replay cache is asked first, and the record in the store has the
last word. -/
theorem runE_authorize_mutation (hc : checkClaims (env.clock w.tick) auth req = .ok ())
    (hu : tokenUse auth req = some u) :
    ∃ w₁ : World, w₁.seen = (w.seen.observe u.identity req.idempotencyKey).2 ∧
      w₁.store = w.store ∧
      ((u.Agrees env w req.idempotencyKey ∧ ∃ atMs, runE (exec env) (authorize env auth req) w =
        (.ok ⟨u.status env w⟩, if (w.store (u.loc env)).isSome then w₁
          else w₁.set (u.loc env) (some (replayRecord u req atMs)))) ∨
      ¬ u.Agrees env w req.idempotencyKey ∧ runE (exec env) (authorize env auth req) w =
        (.error (denialToApiError .replayDetected), w₁.denied env req .replayDetected)) := by
  have hpolicy := run_policyAuthorize hc
  obtain ⟨hmut, hjti, hu'⟩ := tokenUse_eq_some.1 hu
  rw [hu] at hpolicy
  dsimp only at hpolicy
  rw [exec_observe] at hpolicy
  rw [authorize, runE_bind_ok _ (by rw [runE_lift, hpolicy])]
  generalize hw₁ : ({ w.ticked 1 with
    seen := ((w.ticked 1).seen.observe u.identity req.idempotencyKey).2 } : World) = w₁
  have hseen : w₁.seen = (w.seen.observe u.identity req.idempotencyKey).2 := hw₁ ▸ rfl
  have hstore : w₁.store = w.store := hw₁ ▸ rfl
  have hcache : (w.ticked 1).seen = w.seen := rfl
  rw [hcache]
  by_cases hkeys : ∀ k ∈ w.seen u.identity, req.idempotencyKey = some k
  · refine ⟨w₁.ticked 1, hseen, hstore, ?_⟩
    simp only [if_pos hkeys, Except.map, observeDurableReplay, hmut, hjti, Bool.not_true,
      Bool.false_eq_true, if_false]
    rw [runE_bind_ok _ (runE_nowMs env w₁)]
    obtain ⟨t, jti, operation, subject⟩ := u
    simp only [TokenUse.mk.injEq, true_and] at hu'
    obtain ⟨rfl, rfl, rfl⟩ := hu'
    cases hl : w.store (.replay req.tenantId
        (replayKey env req.tenantId jti req.operation req.subject)) with
    | none =>
      refine .inl ⟨⟨hkeys, by simp [TokenUse.loc, hl]⟩, env.clock w₁.tick, ?_⟩
      have hcreate := runE_createEncryptedJson_none env (w := w₁.ticked 1) (hstore ▸ hl)
      simp only [TokenUse.status, TokenUse.loc, hl, Option.isSome_none, Bool.false_eq_true,
        or_false, if_false]
      exact runE_bind_ok _ (hcreate _)
    | some existing =>
      have hcreate := runE_createEncryptedJson_some env (w := w₁.ticked 1) (hstore ▸ hl)
      have hread : (w₁.ticked 1).store _ = some existing := hstore ▸ hl
      by_cases hkey : req.idempotencyKey = some existing.idempotencyKey
      · refine .inl ⟨⟨hkeys, fun r hr => ?_⟩, 0, (runE_bind_ok _ (hcreate _)).trans ?_⟩
        · cases hl.symm.trans hr
          exact hkey
        · rw [if_neg Bool.false_ne_true, runE_read_bind, hread]
          simp [TokenUse.status, TokenUse.loc, hl, hkey]
      · refine .inr ⟨fun h => hkey (h.recorded _ hl), (runE_bind_ok _ (hcreate _)).trans ?_⟩
        rw [if_neg Bool.false_ne_true, runE_read_bind, hread]
        simp only [if_neg hkey]
        exact runE_deny req _ _
  · refine ⟨w₁, hseen, hstore, .inr ⟨fun h => hkeys h.seen, ?_⟩⟩
    rw [if_neg hkeys]
    exact runE_deny req _ w₁

variable (env auth req w) in
/-- **What authorization does**: it ends with an event about a denial, it leaves the store alone, or
it leaves the first record of the use. -/
theorem authorize_cases :
    (∃ reason, ∃ w₁ : World, w₁.store = w.store ∧ runE (exec env) (authorize env auth req) w =
      (.error (denialToApiError reason), w₁.denied env req reason)) ∨
    (∃ decision, ∃ w₁ : World, w₁.store = w.store ∧
      runE (exec env) (authorize env auth req) w = (.ok decision, w₁)) ∨
    ∃ decision u r, ∃ w₁ : World, tokenUse auth req = some u ∧ w₁.store = w.store ∧
      w.store (u.loc env) = none ∧ runE (exec env) (authorize env auth req) w =
        (.ok decision, w₁.set (u.loc env) (some r)) := by
  cases hc : checkClaims (env.clock w.tick) auth req with
  | error reason => exact .inl ⟨reason, w.ticked 1, rfl, runE_authorize_denied hc⟩
  | ok _ =>
    cases hu : tokenUse auth req with
    | none => exact .inr (.inl ⟨_, w.ticked 1, rfl, runE_authorize_query hc hu⟩)
    | some u =>
      obtain ⟨w₁, -, hstore, ⟨-, atMs, hrun⟩ | ⟨-, hrun⟩⟩ := runE_authorize_mutation hc hu
      · cases hl : w.store (u.loc env) with
        | none => exact .inr (.inr ⟨_, u, _, w₁, rfl, hstore, hl, by rw [hrun, hl]; rfl⟩)
        | some _ => exact .inr (.inl ⟨_, w₁, hstore, by rw [hrun, hl]; rfl⟩)
      · exact .inl ⟨_, w₁, hstore, hrun⟩

theorem checkClaims_of_authorize {w' : World}
    (hok : runE (exec env) (authorize env auth req) w = (.ok decision, w')) :
    checkClaims (env.clock w.tick) auth req = .ok () := by
  cases hc : checkClaims (env.clock w.tick) auth req with
  | ok _ => rfl
  | error reason =>
    rw [runE_authorize_denied hc] at hok
    cases hok

/-- **The decision about a mutation.** -/
theorem authorize_eq_ok_iff (hc : checkClaims (env.clock w.tick) auth req = .ok ())
    (hu : tokenUse auth req = some u) :
    (runE (exec env) (authorize env auth req) w).1 = .ok decision ↔
      u.Agrees env w req.idempotencyKey ∧ decision = ⟨u.status env w⟩ := by
  obtain ⟨w₁, -, -, ⟨hagrees, atMs, hrun⟩ | ⟨hagrees, hrun⟩⟩ := runE_authorize_mutation hc hu
  · rw [hrun, and_iff_right hagrees, Except.ok.injEq, eq_comm]
  · simp [hrun, hagrees]

variable (env auth req w) in
/-- Exactly when a request is authorized. -/
theorem authorize_isOk_iff : (runE (exec env) (authorize env auth req) w).1.isOk ↔
    checkClaims (env.clock w.tick) auth req = .ok () ∧
      ∀ u ∈ tokenUse auth req, u.Agrees env w req.idempotencyKey := by
  cases hc : checkClaims (env.clock w.tick) auth req with
  | error reason => simp [runE_authorize_denied hc, Except.isOk, Except.toBool]
  | ok _ =>
    cases hu : tokenUse auth req with
    | none => simp [runE_authorize_query hc hu, Except.isOk, Except.toBool]
    | some u =>
      obtain ⟨w₁, -, -, ⟨hagrees, _, hrun⟩ | ⟨hagrees, hrun⟩⟩ := runE_authorize_mutation hc hu <;>
        simp [hrun, hagrees, Except.isOk, Except.toBool]

/-- **What a mutation that passes authorization says about the record of its use**: there was none
and it has left one, or it is a retry under the key of the record. -/
theorem authorize_ok {w' : World}
    (hok : runE (exec env) (authorize env auth req) w = (.ok decision, w'))
    (hu : tokenUse auth req = some u) :
    (w.store (u.loc env) = none ∧
        ∃ atMs, w'.store = (w.set (u.loc env) (some (replayRecord u req atMs))).store) ∨
      ∃ existing, w.store (u.loc env) = some existing ∧
        req.idempotencyKey = some existing.idempotencyKey ∧ decision = ⟨.idempotentRetry⟩ ∧
        w'.store = w.store := by
  obtain ⟨w₁, -, hstore, ⟨hagrees, atMs, hrun⟩ | ⟨-, hrun⟩⟩ :=
    runE_authorize_mutation (checkClaims_of_authorize hok) hu
  · cases hrun.symm.trans hok
    cases hl : w.store (u.loc env) with
    | none => exact .inl ⟨rfl, atMs, by simp [World.set, hstore]⟩
    | some existing =>
      exact .inr ⟨existing, rfl, hagrees.recorded _ hl, by simp [TokenUse.status, hl], hstore⟩
  · cases hrun.symm.trans hok

/-- A request under the idempotency key of the record is a retry, unless the replay cache
remembers another key. -/
theorem authorize_retry_iff {r : ReplayRecord} (hr : w.store (u.loc env) = some r)
    (hu : tokenUse auth req = some u) (hk : req.idempotencyKey = some r.idempotencyKey)
    (hc : checkClaims (env.clock w.tick) auth req = .ok ()) :
    (runE (exec env) (authorize env auth req) w).1 = .ok ⟨.idempotentRetry⟩ ↔
      w.seen u.identity = none ∨ w.seen u.identity = some r.idempotencyKey := by
  rw [authorize_eq_ok_iff hc hu, TokenUse.status, hr, hk]
  rw [TokenUse.agrees_iff, hr]
  cases w.seen u.identity <;> simp [eq_comm]

end Cases

end Hsp
