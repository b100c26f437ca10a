import Hsp.Auth.Policy
import Hsp.Prog.Basic

/-!
# What the policy engine requires

`checkClaims` is a sequence of checks, and the first that fails gives the reason of the denial.
`Permits` is the conjunction of what they require, and `checkClaims_eq_ok` says that the engine
requires nothing else.
-/

namespace Hsp

/-- The object may be as large as the request says. -/
def CapabilityClaims.AllowsSize (claims : CapabilityClaims) (contentSize : Option UInt64) : Prop :=
  ∀ limit ∈ claims.maxObjectSize, ∀ size ∈ contentSize, size ≤ limit

/-- The storage class is one of those the claims list, if they list any. -/
def CapabilityClaims.AllowsStorageClass (claims : CapabilityClaims)
    (storageClass : Option String) : Prop :=
  ∀ s ∈ storageClass, claims.storageClasses.isEmpty ∨ claims.storageClasses.contains s

/-- The check of the storage class. -/
def checkStorageClass (auth : AuthContext) (req : AuthRequestMeta) : Except DenialReason Unit :=
  match req.storageClass with
  | some storageClass =>
    if !auth.claims.storageClasses.isEmpty && !auth.claims.storageClasses.contains storageClass then
      .error .storageClassMismatch
    else pure ()
  | none => pure ()

/-- All that the policy engine requires of the claims, at the clock reading `now`. -/
structure Permits (now : ℕ) (auth : AuthContext) (req : AuthRequestMeta) : Prop where
  time : validateTimeWindow now auth.claims = .ok ()
  tenant : auth.claims.tenantId = req.tenantId
  scope : auth.claims.ops.any (scopeMatchesOperation · req.operation)
  binding : req.operation.isMutation → auth.channelBinding.isSome
  keyPolicy : operationRequiresObjectCrypto req.operation → req.keyPolicyId.isSome
  profile : operationRequiresObjectCrypto req.operation → req.encryptionProfileId.isSome
  jti : req.operation.isMutation → auth.claims.jti.isSome
  keyPolicyMatches : checkBoth auth.claims.keyPolicyId req.keyPolicyId .keyPolicyMismatch = .ok ()
  visibility : checkBoth auth.claims.metadataVisibility req.metadataVisibility
    .metadataVisibilityMismatch = .ok ()
  path : checkScope auth.claims.pathPrefix req.path .pathScopeMismatch = .ok ()
  ns : checkScope auth.claims.namespacePrefix req.ns .namespaceScopeMismatch = .ok ()
  size : auth.claims.AllowsSize req.contentSize
  storage : auth.claims.AllowsStorageClass req.storageClass

theorem checkLimits_eq_ok {auth : AuthContext} {req : AuthRequestMeta} :
    (match auth.claims.maxObjectSize, req.contentSize with
      | some maxObjectSize, some contentSize =>
        if contentSize > maxObjectSize then
          Except.error DenialReason.objectTooLarge
        else checkStorageClass auth req
      | _, _ => checkStorageClass auth req) = .ok () ↔
      auth.claims.AllowsSize req.contentSize ∧ auth.claims.AllowsStorageClass req.storageClass := by
  have hclass : checkStorageClass auth req = .ok () ↔
      auth.claims.AllowsStorageClass req.storageClass := by
    unfold checkStorageClass CapabilityClaims.AllowsStorageClass
    cases req.storageClass with
    | none => simp [pure, Except.pure]
    | some s =>
      simp only [except_guard_eq_ok, Option.mem_some_iff, forall_eq']
      cases auth.claims.storageClasses.isEmpty <;> simp [pure, Except.pure]
  rw [← hclass, CapabilityClaims.AllowsSize]
  cases auth.claims.maxObjectSize with
  | none => simp
  | some limit =>
    cases req.contentSize with
    | none => simp
    | some size => simp [except_guard_eq_ok]

theorem checkClaims_eq_ok {now : ℕ} {auth : AuthContext} {req : AuthRequestMeta} :
    checkClaims now auth req = .ok () ↔ Permits now auth req := by
  have himp (a : Bool) {α : Type} (b : Option α) :
      ¬ (a && b.isNone) = true ↔ (a = true → b.isSome = true) := by
    cases a <;> cases b <;> simp
  simp only [checkClaims, except_throw, except_error_bind, except_guard_eq_ok,
    except_bind_eq_ok, himp, not_not, Bool.not_eq_true', Bool.not_eq_false]
  constructor
  · rintro ⟨_, h₁, h₂, h₃, h₄, h₅, h₆, h₇, _, h₈, _, h₉, _, h₁₀, _, h₁₁, h₁₂⟩
    obtain ⟨hsize, hstorage⟩ := checkLimits_eq_ok.1 h₁₂
    exact ⟨h₁, h₂, h₃, h₄, h₅, h₆, h₇, h₈, h₉, h₁₀, h₁₁, hsize, hstorage⟩
  · rintro ⟨h₁, h₂, h₃, h₄, h₅, h₆, h₇, h₈, h₉, h₁₀, h₁₁, hsize, hstorage⟩
    exact ⟨_, h₁, h₂, h₃, h₄, h₅, h₆, h₇, _, h₈, _, h₉, _, h₁₀, _, h₁₁,
      checkLimits_eq_ok.2 ⟨hsize, hstorage⟩⟩

end Hsp
