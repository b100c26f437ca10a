import Hsp.Auth.Permits
import Hsp.Path.Segments
import Hsp.Sample.Basic
import Hsp.Sdk.Validation
import Hsp.Service.Decision

/-!
# The policy of the client and of the server

The Go client and the policy engine of the server decide independently whether a capability allows a
bind or an unbind.  They look at the clock and the tenant alike, but

* the client wants a proof and a token identifier that are not empty, the server any;
* the client lets a capability without scopes do everything, and wants the one scope of the
  operation otherwise, where the server also takes wider ones;
* the client compares prefixes segment by segment, the server after one round of decoding;
* the client compares the prefix of the namespace with the path.

`policies_agree_iff` says which claims they agree on: those that are good for both (`BothGrant`),
and those that each of them has a reason to refuse (`ClientDenies`, `ServerDenies`).
-/

namespace Hsp.Sdk

open List

variable {pathPrefix path ns : String} {operation : OperationName} {now : ℕ}
  {idempotencyKey : Option String} {auth : AuthContext} {scope : Option String}
  {tenantId : TenantId}

/-! ### Segments -/

theorem splitLoop_eq (chars : List Char) (parts : List String) (current : List Char) :
    splitLoop chars parts current =
      parts ++ ((chars.splitOn '/').modifyHead (current ++ ·)).map String.ofList := by
  induction chars generalizing parts current with
  | nil => simp [splitLoop, List.splitOn]
  | cons r rest ih =>
    rw [splitLoop, splitOn_cons_eq_if_modifyHead]
    by_cases hr : r = '/'
    · rw [if_pos hr, ih, if_pos (by simpa using hr)]
      cases rest.splitOn '/' <;> simp
    · rw [if_neg hr, ih, if_neg (by simpa using hr)]
      cases rest.splitOn '/' <;> simp

theorem splitSegments_eq (path : String) : splitSegments path = pathSegments path := by
  unfold splitSegments pathSegments
  split
  · rename_i hempty
    subst hempty
    rfl
  · rw [splitLoop_eq]
    cases path.toList.splitOn '/' <;> simp

theorem segmentPrefixMatches_iff {candidate : String} :
    segmentPrefixMatches pathPrefix candidate ↔
      pathSegments pathPrefix <+: pathSegments candidate := by
  unfold segmentPrefixMatches
  simp only [splitSegments_eq]
  exact zip_all_iff _ _

/-! ### What the client requires -/

/-- What both sides look at alike. -/
structure Admits (now : ℕ) (claims : Hsp.CapabilityClaims) (tenantId : TenantId) : Prop where
  unexpired : now ≤ claims.exp.toNat
  valid : ∀ nbf ∈ claims.nbf, nbf.toNat ≤ now
  tenant : claims.tenantId = tenantId

/-- The scope that the client wants for a bind or an unbind. -/
def clientScope : OperationName → CapabilityScope
  | .unbind => .unbind
  | _ => .bind

/-- What the client requires of the rest of the claims. -/
structure ClientGrants (auth : AuthContext) (operation : OperationName) (path : String) :
    Prop where
  proof : ∃ binding ∈ auth.channelBinding, binding.proofB64 ≠ ""
  jti : ∃ jti ∈ auth.claims.jti, jti ≠ ""
  scope : auth.claims.ops = [] ∨ clientScope operation ∈ auth.claims.ops
  pathScope : ∀ p ∈ auth.claims.pathPrefix, p = "" ∨ pathSegments p <+: pathSegments path
  nsScope : ∀ p ∈ auth.claims.namespacePrefix, p = "" ∨ pathSegments p <+: pathSegments path

/-- What the server requires of the rest of the claims. -/
structure ServerGrants (auth : AuthContext) (operation : OperationName) (ns path : String) :
    Prop where
  proof : auth.channelBinding.isSome
  jti : auth.claims.jti.isSome
  scope : ∃ scope ∈ auth.claims.ops, scopeMatchesOperation scope operation
  pathScope : ∀ p ∈ auth.claims.pathPrefix, Hsp.segmentPrefixMatches p path
  nsScope : ∀ p ∈ auth.claims.namespacePrefix, Hsp.segmentPrefixMatches p ns

theorem requireText_eq_ok {text : Option String} {e : ApiError} {u : Unit} :
    requireText text e = .ok u ↔ ∃ t ∈ text, t ≠ "" := by
  unfold requireText
  cases text with
  | none => simp
  | some t => by_cases h : t = "" <;> simp [h]

theorem checkScope_eq_ok {e : ApiError} {u : Unit} :
    checkScope (scope.getD "") (some path) e = .ok u ↔
      ∀ p ∈ scope, p = "" ∨ pathSegments p <+: pathSegments path := by
  unfold checkScope
  cases scope with
  | none => simp
  | some p =>
    by_cases hp : p = ""
    · simp [hp]
    · by_cases hm : segmentPrefixMatches p path
      · simp [hm, segmentPrefixMatches_iff.1 hm]
      · have hnot : ¬ pathSegments p <+: pathSegments path := fun h =>
          hm (segmentPrefixMatches_iff.2 h)
        simp [hp, hm, hnot]

theorem hasScope_iff (hop : operation = .bind ∨ operation = .unbind) (ops : List CapabilityScope) :
    hasScope (ops.map scopeText) (requiredScope operation) ↔ clientScope operation ∈ ops := by
  have htext (scope : CapabilityScope) :
      equalFold (scopeText scope) (requiredScope operation) ↔ clientScope operation = scope := by
    rcases hop with rfl | rfl <;> cases scope <;> decide +kernel
  unfold hasScope
  simp [any_eq_true, htext]

/-- **What the client requires**: nothing but what both sides look at and `ClientGrants`. -/
theorem validateMutationContext_eq_ok
    (hop : operation = .bind ∨ operation = .unbind) :
    validateMutationContext now (.ofJson auth.claims) auth.channelBinding tenantId operation
        (some path) none none none idempotencyKey = .ok () ↔
      Admits now auth.claims tenantId ∧ ClientGrants auth operation path := by
  have hmutation : isMutation operation = true := by rcases hop with rfl | rfl <;> rfl
  have hupload : isUpload operation = false := by rcases hop with rfl | rfl <;> rfl
  have hproof : (∃ t ∈ auth.channelBinding.map (·.proofB64), t ≠ "") ↔
      ∃ binding ∈ auth.channelBinding, binding.proofB64 ≠ "" := by
    cases auth.channelBinding <;> simp
  have hjti : (∃ t ∈ some (auth.claims.jti.getD ""), t ≠ "") ↔
      ∃ jti ∈ auth.claims.jti, jti ≠ "" := by
    cases auth.claims.jti <;> simp
  have hnbf : ¬ (auth.claims.nbf.any fun nbf => decide (now < nbf.toNat)) = true ↔
      ∀ nbf ∈ auth.claims.nbf, nbf.toNat ≤ now := by
    cases auth.claims.nbf <;> simp
  have hsize : ¬ (auth.claims.maxObjectSize.any fun limit =>
      Option.any (limit < ·) none) = true := by
    cases auth.claims.maxObjectSize <;> simp
  have hscope : ¬ (auth.claims.ops.map scopeText ≠ [] ∧
      ¬ hasScope (auth.claims.ops.map scopeText) (requiredScope operation) = true) ↔
        auth.claims.ops = [] ∨ clientScope operation ∈ auth.claims.ops := by
    rw [hasScope_iff hop, ne_eq, map_eq_nil_iff]
    tauto
  simp only [validateMutationContext, hmutation, hupload, CapabilityClaims.ofJson, if_true,
    Bool.false_eq_true, if_false, except_throw, except_pure, except_error_bind, except_guard_eq_ok,
    except_bind_eq_ok, requireText_eq_ok, checkScope_eq_ok, hproof, hjti, hnbf, hsize]
  constructor
  · rintro ⟨hexp, hvalid, htenant, -, hproof, -, hjti, -, hpath, -, hns, hops⟩
    exact ⟨⟨not_lt.1 hexp, hvalid, not_not.1 htenant⟩, hproof, hjti,
      hscope.1 (except_guard_eq_ok.1 hops).1, hpath, hns⟩
  · rintro ⟨⟨hexp, hvalid, htenant⟩, hproof, hjti, hops, hpath, hns⟩
    exact ⟨not_lt.2 hexp, hvalid, not_not.2 htenant, (), hproof, (), hjti, (), hpath, (), hns,
      except_guard_eq_ok.2 ⟨hscope.2 hops, rfl⟩⟩

/-! ### What the server requires -/

/-- What a bind or an unbind of a path asks the policy engine. -/
def mutationMeta (operation : OperationName) (tenantId : TenantId) (subject ns path : String)
    (idempotencyKey : Option String) : AuthRequestMeta :=
  { operation, tenantId, subject, ns := some ns, path := some path, idempotencyKey }

theorem validateTimeWindow_eq_ok {claims : Hsp.CapabilityClaims} :
    validateTimeWindow now claims = .ok () ↔
      now ≤ claims.exp.toNat ∧ ∀ nbf ∈ claims.nbf, nbf.toNat ≤ now := by
  unfold validateTimeWindow
  cases claims.nbf with
  | none => simp
  | some nbf => simp [except_guard_eq_ok]

theorem checkScope_some_eq_ok {actual : String} {reason : DenialReason} :
    Hsp.checkScope scope (some actual) reason = .ok () ↔
      ∀ p ∈ scope, Hsp.segmentPrefixMatches p actual := by
  unfold Hsp.checkScope
  cases scope with
  | none => simp
  | some p => by_cases hp : Hsp.segmentPrefixMatches p actual <;> simp [hp]

/-- **What the server requires**: nothing but what both sides look at and `ServerGrants`. -/
theorem permits_mutation
    (hop : operation = .bind ∨ operation = .unbind) {subject : String} :
    Permits now auth (mutationMeta operation tenantId subject ns path idempotencyKey) ↔
      Admits now auth.claims tenantId ∧ ServerGrants auth operation ns path := by
  have hmutation : operation.isMutation = true := by rcases hop with rfl | rfl <;> rfl
  have hcrypto : operationRequiresObjectCrypto operation = false := by
    rcases hop with rfl | rfl <;> rfl
  have hboth {α : Type} [DecidableEq α] (expected : Option α) (reason : DenialReason) :
      checkBoth expected none reason = .ok () := by
    cases expected <;> rfl
  constructor
  · intro h
    obtain ⟨hexp, hnbf⟩ := validateTimeWindow_eq_ok.1 h.time
    exact ⟨⟨hexp, hnbf, h.tenant⟩, h.binding hmutation, h.jti hmutation,
      any_eq_true.1 h.scope, checkScope_some_eq_ok.1 h.path, checkScope_some_eq_ok.1 h.ns⟩
  · rintro ⟨hadmits, hgrants⟩
    exact {
      time := validateTimeWindow_eq_ok.2 ⟨hadmits.unexpired, hadmits.valid⟩
      tenant := hadmits.tenant
      scope := any_eq_true.2 hgrants.scope
      binding := fun _ => hgrants.proof
      keyPolicy := fun h => absurd (hcrypto.symm.trans h) Bool.false_ne_true
      profile := fun h => absurd (hcrypto.symm.trans h) Bool.false_ne_true
      jti := fun _ => hgrants.jti
      keyPolicyMatches := hboth _ _
      visibility := hboth _ _
      path := checkScope_some_eq_ok.2 hgrants.pathScope
      ns := checkScope_some_eq_ok.2 hgrants.nsScope
      size := fun _ _ _ h => nomatch h
      storage := fun _ h => nomatch h }

section Engine

variable {env : Env} {w : World} {auth : AuthContext} {req : AuthRequestMeta}

/-- The policy engine accepts a request with a fresh token if and only if the claims permit it. -/
theorem policyAuthorize_ok_iff
    (hfresh : ∀ u ∈ tokenUse auth req, w.seen u.identity = none) :
    (∃ decision, ((policyAuthorize auth req).run (exec env) w).1 = .ok decision) ↔
      Permits (env.clock w.tick) auth req := by
  rw [← checkClaims_eq_ok]
  cases hclaims : checkClaims (env.clock w.tick) auth req with
  | error reason =>
    rw [run_policyAuthorize_denied hclaims]
    simp
  | ok _ =>
    rw [run_policyAuthorize hclaims]
    cases huse : tokenUse auth req with
    | none => simp
    | some u =>
      have hseen : (w.ticked 1).seen u.identity = none := hfresh u huse
      simp [exec, ReplayCache.observe, hseen, Except.map]

end Engine

/-! ### Agreement -/

/-- Claims that both sides accept: the proof and the token identifier are not empty, the scopes have
the one of the operation, the prefix of paths covers the path as it is and decoded, and the prefix
of namespaces covers the path and, decoded, the namespace. -/
structure BothGrant (auth : AuthContext) (operation : OperationName) (ns path : String) : Prop where
  proof : ∃ binding ∈ auth.channelBinding, binding.proofB64 ≠ ""
  jti : ∃ jti ∈ auth.claims.jti, jti ≠ ""
  scope : clientScope operation ∈ auth.claims.ops
  pathScope : ∀ p ∈ auth.claims.pathPrefix,
    (p = "" ∨ pathSegments p <+: pathSegments path) ∧ Hsp.segmentPrefixMatches p path
  nsScope : ∀ p ∈ auth.claims.namespacePrefix,
    (p = "" ∨ pathSegments p <+: pathSegments path) ∧ Hsp.segmentPrefixMatches p ns

/-- Claims that the client refuses. -/
inductive ClientDenies (auth : AuthContext) (operation : OperationName) (path : String) : Prop
  | proof (h : ∀ binding ∈ auth.channelBinding, binding.proofB64 = "")
  | jti (h : ∀ jti ∈ auth.claims.jti, jti = "")
  | scope (hne : auth.claims.ops ≠ []) (h : clientScope operation ∉ auth.claims.ops)
  | pathScope (p : String) (hp : p ∈ auth.claims.pathPrefix ∨ p ∈ auth.claims.namespacePrefix)
      (hne : p ≠ "") (h : ¬ pathSegments p <+: pathSegments path)

/-- Claims that the server refuses.  The scope for writes allows a bind, and that for binds also an
unbind. -/
inductive ServerDenies (auth : AuthContext) (operation : OperationName) (ns path : String) : Prop
  | proof (h : auth.channelBinding = none)
  | jti (h : auth.claims.jti = none)
  | scope (h : clientScope operation ∉ auth.claims.ops) (hbind : .bind ∉ auth.claims.ops)
      (hwrite : .write ∉ auth.claims.ops)
  | pathScope (p : String) (hp : p ∈ auth.claims.pathPrefix)
      (h : ¬ Hsp.segmentPrefixMatches p path)
  | nsScope (p : String) (hp : p ∈ auth.claims.namespacePrefix)
      (h : ¬ Hsp.segmentPrefixMatches p ns)

theorem not_clientGrants_iff :
    ¬ ClientGrants auth operation path ↔ ClientDenies auth operation path := by
  constructor
  · intro h
    by_contra hnot
    refine h ⟨?_, ?_, ?_, fun p hp => ?_, fun p hp => ?_⟩
    · by_contra hproof
      exact hnot (.proof fun binding hb => not_not.1 fun hne => hproof ⟨binding, hb, hne⟩)
    · by_contra hjti
      exact hnot (.jti fun jti hj => not_not.1 fun hne => hjti ⟨jti, hj, hne⟩)
    · by_contra hscope
      rw [not_or] at hscope
      exact hnot (.scope hscope.1 hscope.2)
    all_goals
      by_contra hprefix
      rw [not_or] at hprefix
    · exact hnot (.pathScope p (.inl hp) hprefix.1 hprefix.2)
    · exact hnot (.pathScope p (.inr hp) hprefix.1 hprefix.2)
  · rintro (h | h | ⟨hne, h⟩ | ⟨p, hp | hp, hne, h⟩) hgrants
    · obtain ⟨binding, hb, hproof⟩ := hgrants.proof
      exact hproof (h binding hb)
    · obtain ⟨jti, hj, hjti⟩ := hgrants.jti
      exact hjti (h jti hj)
    · exact hgrants.scope.elim hne h
    · exact (hgrants.pathScope p hp).elim hne h
    · exact (hgrants.nsScope p hp).elim hne h

theorem scope_iff (hop : operation = .bind ∨ operation = .unbind) {ops : List CapabilityScope} :
    (∃ scope ∈ ops, scopeMatchesOperation scope operation) ↔
      clientScope operation ∈ ops ∨ .bind ∈ ops ∨ .write ∈ ops := by
  rcases hop with rfl | rfl <;>
    simp [scopeMatchesOperation, clientScope, exists_or, and_or_left, or_assoc]

theorem not_serverGrants_iff (hop : operation = .bind ∨ operation = .unbind) :
    ¬ ServerGrants auth operation ns path ↔ ServerDenies auth operation ns path := by
  constructor
  · intro h
    by_contra hnot
    refine h ⟨?_, ?_, ?_, fun p hp => ?_, fun p hp => ?_⟩
    · by_contra hproof
      exact hnot (.proof (Option.not_isSome_iff_eq_none.1 hproof))
    · by_contra hjti
      exact hnot (.jti (Option.not_isSome_iff_eq_none.1 hjti))
    · by_contra hscope
      rw [scope_iff hop, not_or, not_or] at hscope
      exact hnot (.scope hscope.1 hscope.2.1 hscope.2.2)
    · by_contra hprefix
      exact hnot (.pathScope p hp hprefix)
    · by_contra hprefix
      exact hnot (.nsScope p hp hprefix)
  · rintro (h | h | ⟨h, hbind, hwrite⟩ | ⟨p, hp, h⟩ | ⟨p, hp, h⟩) hgrants
    · simpa [h] using hgrants.proof
    · simpa [h] using hgrants.jti
    · exact ((scope_iff hop).1 hgrants.scope).elim h fun hwide => hwide.elim hbind hwrite
    · exact h (hgrants.pathScope p hp)
    · exact h (hgrants.nsScope p hp)

theorem bothGrant_iff (hop : operation = .bind ∨ operation = .unbind) :
    ClientGrants auth operation path ∧ ServerGrants auth operation ns path ↔
      BothGrant auth operation ns path := by
  constructor
  · rintro ⟨hclient, hserver⟩
    refine ⟨hclient.proof, hclient.jti, hclient.scope.resolve_left ?_,
      fun p hp => ⟨hclient.pathScope p hp, hserver.pathScope p hp⟩,
      fun p hp => ⟨hclient.nsScope p hp, hserver.nsScope p hp⟩⟩
    intro hempty
    obtain ⟨scope, hscope, -⟩ := hserver.scope
    simp [hempty] at hscope
  · intro h
    obtain ⟨binding, hbinding, -⟩ := h.proof
    obtain ⟨jti, hjti, -⟩ := h.jti
    exact ⟨⟨h.proof, h.jti, .inr h.scope, fun p hp => (h.pathScope p hp).1,
        fun p hp => (h.nsScope p hp).1⟩,
      ⟨Option.isSome_iff_exists.2 ⟨_, hbinding⟩, Option.isSome_iff_exists.2 ⟨_, hjti⟩,
        (scope_iff hop).2 (.inl h.scope), fun p hp => (h.pathScope p hp).2,
        fun p hp => (h.nsScope p hp).2⟩⟩

/-- **When the client and the server agree on a bind or an unbind**: the claims are good for both,
or each of them has a reason to refuse them. -/
theorem policies_agree_iff {env : Env} {w : World} {auth : AuthContext} {tenantId : TenantId}
    {operation : OperationName} (hop : operation = .bind ∨ operation = .unbind)
    {subject ns path idempotencyKey : String}
    (hfresh : ∀ u ∈ tokenUse auth (mutationMeta operation tenantId subject ns path
      (some idempotencyKey)), w.seen u.identity = none) :
    (validateMutationContext (env.clock w.tick) (.ofJson auth.claims) auth.channelBinding tenantId
        operation (some path) none none none (some idempotencyKey) = .ok () ↔
      ∃ decision, ((policyAuthorize auth (mutationMeta operation tenantId subject ns path
        (some idempotencyKey))).run (exec env) w).1 = .ok decision) ↔
    (Admits (env.clock w.tick) auth.claims tenantId →
      BothGrant auth operation ns path ∨
        ClientDenies auth operation path ∧ ServerDenies auth operation ns path) := by
  rw [validateMutationContext_eq_ok hop, policyAuthorize_ok_iff hfresh, permits_mutation hop,
    and_congr_right_iff]
  refine forall_congr' fun _ => ?_
  rw [← bothGrant_iff hop, ← not_clientGrants_iff, ← not_serverGrants_iff hop]
  exact iff_iff_and_or_not_and_not

namespace Sample

open Hsp.Sample (tenant)

/-- A caller with a token, a proof and the given scopes and prefixes. -/
def holder (ops : List CapabilityScope) (namespacePrefix pathPrefix : Option String) :
    AuthContext where
  claims := { (Hsp.Sample.auth "1").claims with ops, namespacePrefix, pathPrefix }
  channelBinding := some ⟨"", "proof", ""⟩

/-- What the client says about a bind. -/
def client (auth : AuthContext) (path : String) : Except ApiError Unit :=
  validateMutationContext 0 (.ofJson auth.claims) auth.channelBinding tenant .bind (some path) none
    none none (some "i")

/-- What the server says about a bind. -/
def server (auth : AuthContext) (ns path : String) : Except DenialReason AuthorizationDecision :=
  ((policyAuthorize auth (mutationMeta .bind tenant "" ns path (some "i"))).run
    (exec (Hsp.Sample.env [])) World.empty).1

/-- The capability to bind below a path. -/
theorem bind_agreed : client (holder [.bind] none (some "a")) "a/b" = .ok () ↔
    ∃ decision, server (holder [.bind] none (some "a")) "n" "a/b" = .ok decision := by
  have hgrants : BothGrant (holder [.bind] none (some "a")) .bind "n" "a/b" := by
    refine ⟨by simp [holder], by simp [holder, Hsp.Sample.auth], by simp [holder, clientScope],
      ?_, by simp [holder]⟩
    simp only [holder, Option.mem_some_iff, forall_eq']
    decide +kernel
  have hfresh : ∀ u ∈ tokenUse (holder [.bind] none (some "a"))
      (mutationMeta .bind tenant "" "n" "a/b" (some "i")), World.empty.seen u.identity = none :=
    fun _ _ => rfl
  exact (@policies_agree_iff (Hsp.Sample.env []) _ _ _ _ (.inl rfl) _ _ _ _ hfresh).2
    fun _ => .inl hgrants

/-- The scope for writes, no scope at all, a prefix for namespaces, and an encoded separator. -/
theorem bind_disputed :
    (client (holder [.write] none none) "p" =
        .error ⟨.auth, "operation_not_allowed", "operation BIND is not permitted"⟩ ∧
      server (holder [.write] none none) "n" "p" = .ok ⟨.fresh⟩) ∧
    (client (holder [] none none) "p" = .ok () ∧
      server (holder [] none none) "n" "p" = .error .operationNotAllowed) ∧
    (client (holder [.bind] (some "n") none) "p" = .error
        ⟨.policy, "namespace_scope_mismatch", "namespace is outside capability scope"⟩ ∧
      server (holder [.bind] (some "n") none) "n" "p" = .ok ⟨.fresh⟩) ∧
    (client (holder [.bind] none (some "a")) "a%2Fb" = .error
        ⟨.policy, "path_scope_mismatch", "path is outside capability scope"⟩ ∧
      server (holder [.bind] none (some "a")) "n" "a%2Fb" = .ok ⟨.fresh⟩) := by
  decide +kernel

end Sample

end Hsp.Sdk
