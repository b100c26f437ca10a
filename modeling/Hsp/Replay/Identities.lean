import Hsp.Replay.Keyed
import Hsp.Sample.Basic

/-!
# Uses of tokens that are told apart

A use of a token to change a binding is known by one text, in which the tenant, the token, the
operation, the namespace and the path are joined with bars and a colon.

* `told_apart_iff` : two uses are told apart, and none of them has a bearing on the other, exactly
  if no separator in their parts can be taken for one between them (`BindingUse.Confused`);
* `BindingUse.identity_ne` : in particular uses that differ, if tenants and tokens have no bars in
  their names and namespaces have no colons;
* `Sample.uses_confused` : the name of a path with a colon is that of a path in another namespace.
-/

namespace Hsp

open String

variable {env : Env}

/-! ### What a decision depends on -/

section Congr

variable {auth : AuthContext} {req : AuthRequestMeta} {u : TokenUse} {w w' : World}

theorem authorize_congr (hu : tokenUse auth req = some u) (htick : w'.tick = w.tick)
    (hseen : w'.seen u.identity = w.seen u.identity)
    (hstore : w'.store (u.loc env) = w.store (u.loc env)) :
    (runE (exec env) (authorize env auth req) w').1 =
      (runE (exec env) (authorize env auth req) w).1 := by
  cases hc : checkClaims (env.clock w.tick) auth req with
  | error reason =>
    rw [runE_authorize_denied hc, runE_authorize_denied (htick ▸ hc)]
  | ok _ =>
    have hagrees : u.Agrees env w' req.idempotencyKey ↔ u.Agrees env w req.idempotencyKey := by
      simp only [TokenUse.agrees_iff, hseen, hstore]
    have hstatus : u.status env w' = u.status env w := by
      rw [TokenUse.status, hseen, hstore, TokenUse.status]
    obtain ⟨w₁, -, -, ⟨h, _, hrun⟩ | ⟨h, hrun⟩⟩ := runE_authorize_mutation hc hu <;>
      obtain ⟨w₁', -, -, ⟨h', _, hrun'⟩ | ⟨h', hrun'⟩⟩ := runE_authorize_mutation (htick ▸ hc) hu
    · rw [hrun, hrun', hstatus]
    · exact absurd (hagrees.2 h) h'
    · exact absurd (hagrees.1 h') h
    · rw [hrun, hrun']

theorem World.denied_replay (w : World) (env : Env) (req : AuthRequestMeta)
    (reason : DenialReason) (t : TenantId) (key : String) :
    (w.denied env req reason).seen = w.seen ∧
      (w.denied env req reason).store (.replay t key) = w.store (.replay t key) := by
  refine ⟨rfl, ?_⟩
  simp [World.denied, World.logged, World.set_store_of_ne]

theorem authorize_remembers {u' : TokenUse} (hu : tokenUse auth req = some u)
    (hidentity : u'.identity ≠ u.identity) (hloc : u'.loc env ≠ u.loc env) :
    (runE (exec env) (authorize env auth req) w).2.seen u'.identity = w.seen u'.identity ∧
      (runE (exec env) (authorize env auth req) w).2.store (u'.loc env) =
        w.store (u'.loc env) := by
  have hobserve : (w.seen.observe u.identity req.idempotencyKey).2 u'.identity =
      w.seen u'.identity := by
    unfold ReplayCache.observe
    split
    · rfl
    · exact Function.update_of_ne hidentity _ _
  have hdenied (w₁ : World) (reason : DenialReason) (hseen : w₁.seen u'.identity =
      w.seen u'.identity) (hstore : w₁.store = w.store) :
      (w₁.denied env req reason).seen u'.identity = w.seen u'.identity ∧
        (w₁.denied env req reason).store (u'.loc env) = w.store (u'.loc env) := by
    obtain ⟨hseen', hstore'⟩ := w₁.denied_replay env req reason u'.tenantId
      (replayKey env u'.tenantId u'.jti u'.operation u'.subject)
    exact ⟨by rw [hseen', hseen], by rw [hstore', hstore]⟩
  cases hc : checkClaims (env.clock w.tick) auth req with
  | error reason =>
    rw [runE_authorize_denied hc]
    exact hdenied _ reason rfl rfl
  | ok _ =>
    obtain ⟨w₁, hseen, hstore, ⟨-, atMs, hrun⟩ | ⟨-, hrun⟩⟩ := runE_authorize_mutation hc hu
    all_goals
      rw [hrun]
      rw [← hseen] at hobserve
    · split
      · exact ⟨hobserve, by rw [hstore]⟩
      · exact ⟨hobserve, by rw [World.set_store_of_ne _ hloc, hstore]⟩
    · exact hdenied w₁ _ hobserve hstore

end Congr

/-! ### The names of uses -/

/-- The use of a token to change a binding. -/
structure BindingUse where
  tenantId : TenantId
  jti : String
  ns : String
  path : String
  deriving DecidableEq

namespace BindingUse

/-- The use, for the operation that binds or the one that unbinds. -/
def use (operation : OperationName) (x : BindingUse) : TokenUse :=
  ⟨x.tenantId, x.jti, operation, x.ns ++ ":" ++ x.path⟩

/-- The parts of the name of the use that are followed by a separator do not have it in them. -/
structure Separable (x : BindingUse) : Prop where
  tenantId : '|' ∉ x.tenantId.val.toList
  jti : '|' ∉ x.jti.toList
  ns : ':' ∉ x.ns.toList

theorem tokenUse_meta {auth : AuthContext} {x : BindingUse}
    (hjti : auth.claims.jti = some x.jti) (key : String) :
    tokenUse auth (bindMeta x.tenantId x.ns x.path key) = some (x.use .bind) ∧
      tokenUse auth (unbindMeta x.tenantId x.ns x.path key) = some (x.use .unbind) := by
  simp [tokenUse, bindMeta, unbindMeta, hjti, use, OperationName.isMutation]

/-- The word of the operation occurs in the tenant and the token of `y`, and in the namespace and
the path of `x`: what follows it in the name of `x` is the rest of the token of `y` and the same
word once more. -/
def Shifted (op : String) (x y : BindingUse) : Prop :=
  (SameJoin "|" y.tenantId.val y.jti x.tenantId.val (x.jti ++ "|" ++ op) ∧
    SameJoin ":" x.ns x.path (op ++ "|" ++ y.ns) y.path) ∨
  ∃ r, SameJoin "|" y.tenantId.val y.jti x.tenantId.val (x.jti ++ "|" ++ (op ++ "|" ++ r)) ∧
    SameJoin ":" x.ns x.path (r ++ "|" ++ (op ++ "|" ++ y.ns)) y.path

/-- The parts of two uses that make the same name. -/
def Confused (operation : OperationName) (x y : BindingUse) : Prop :=
  (SameJoin "|" x.tenantId.val x.jti y.tenantId.val y.jti ∧
    SameJoin ":" x.ns x.path y.ns y.path) ∨
  Shifted operation.asStr x y ∨ Shifted operation.asStr y x

theorem identity_eq (operation : OperationName) (x : BindingUse) :
    (x.use operation).identity = x.tenantId.val ++ "|" ++ x.jti ++ "|" ++
      (operation.asStr ++ "|" ++ (x.ns ++ ":" ++ x.path)) := by
  simp [use, TokenUse.identity, replayIdentity, append_assoc]

theorem bar_not_mem_asStr (operation : OperationName) : '|' ∉ operation.asStr.toList := by
  cases operation <;> decide

theorem shifted_iff (operation : OperationName) (x y : BindingUse) :
    (∃ r, y.tenantId.val ++ "|" ++ y.jti = x.tenantId.val ++ "|" ++ x.jti ++ "|" ++ r ∧
      operation.asStr ++ "|" ++ (x.ns ++ ":" ++ x.path) =
        r ++ "|" ++ (operation.asStr ++ "|" ++ (y.ns ++ ":" ++ y.path))) ↔
      Shifted operation.asStr x y := by
  have hbar : "|".toList = ['|'] := rfl
  have hcolon : ":".toList = [':'] := rfl
  simp only [Shifted, ← sameJoin_iff hbar, ← sameJoin_iff hcolon]
  constructor
  · rintro ⟨r, hfront, hback⟩
    rcases (sameJoin_iff hbar).1 hback with ⟨rfl, hback⟩ | ⟨r', rfl, hback⟩ | ⟨r', hword, -⟩
    · exact .inl ⟨by simpa [append_assoc] using hfront, by simpa [append_assoc] using hback⟩
    · exact .inr ⟨r', by simpa [append_assoc] using hfront, by simpa [append_assoc] using hback⟩
    · -- The word itself has no bar in it.
      exact absurd (by simp [hword]) (bar_not_mem_asStr operation)
  · rintro (⟨hfront, hback⟩ | ⟨r, hfront, hback⟩)
    all_goals
      refine ⟨_, by simpa [append_assoc] using hfront, ?_⟩
      rw [hback]
      simp [append_assoc]

/-- Two uses have the same name exactly if their parts are confused. -/
theorem identity_eq_iff (operation : OperationName) (x y : BindingUse) :
    (x.use operation).identity = (y.use operation).identity ↔ Confused operation x y := by
  have hbar : "|".toList = ['|'] := rfl
  have hcolon : ":".toList = [':'] := rfl
  rw [identity_eq, identity_eq, sameJoin_iff hbar, SameJoin, shifted_iff, shifted_iff, Confused,
    ← sameJoin_iff hbar, ← sameJoin_iff hcolon]
  simp

theorem toList_identity (operation : OperationName) (x : BindingUse) :
    (x.use operation).identity.toList = x.tenantId.val.toList ++ '|' :: (x.jti.toList ++ '|' ::
      (operation.asStr.toList ++ '|' :: (x.ns.toList ++ ':' :: x.path.toList))) := by
  simp [use, TokenUse.identity, replayIdentity]

/-- Uses that differ have different names if the parts of the names are separable. -/
theorem identity_ne (operation : OperationName) {x y : BindingUse} (hx : x.Separable)
    (hy : y.Separable) (hne : x ≠ y) :
    (x.use operation).identity ≠ (y.use operation).identity := by
  intro h
  have hlist := congrArg String.toList h
  rw [toList_identity, toList_identity] at hlist
  obtain ⟨htenant, hlist⟩ := append_cons_inj_of_not_mem hx.tenantId hy.tenantId hlist
  obtain ⟨hjti, hlist⟩ := append_cons_inj_of_not_mem hx.jti hy.jti hlist
  have hsubject := List.append_cancel_left hlist
  obtain ⟨hns, hpath⟩ := append_cons_inj_of_not_mem hx.ns hy.ns (List.cons.inj hsubject).2
  obtain ⟨⟨t⟩, jti, ns, path⟩ := x
  obtain ⟨⟨t'⟩, jti', ns', path'⟩ := y
  obtain rfl := toList_inj.1 htenant
  obtain rfl := toList_inj.1 hjti
  obtain rfl := toList_inj.1 hns
  obtain rfl := toList_inj.1 hpath
  exact hne rfl

theorem replayKey_ne (env : Env) {operation : OperationName} {x y : BindingUse}
    (h : (x.use operation).identity ≠ (y.use operation).identity) :
    replayKey env x.tenantId x.jti operation (x.use operation).subject ≠
      replayKey env y.tenantId y.jti operation (y.use operation).subject := by
  intro hkey
  have hcid := congrArg String.toList hkey
  simp only [replayKey, toList_append] at hcid
  exact h (utf8_inj (cidFromBytes_inj (toList_inj.1 (List.append_cancel_left hcid))))

end BindingUse

/-- Two uses are told apart: they have different names in the replay cache and in the store, and the
decision about one of them is what it would be if the other had not been made. -/
structure ToldApart (env : Env) (operation : OperationName) (x y : BindingUse) : Prop where
  identity : (x.use operation).identity ≠ (y.use operation).identity
  replayKey : replayKey env x.tenantId x.jti operation (x.use operation).subject ≠
    replayKey env y.tenantId y.jti operation (y.use operation).subject
  decision : ∀ auth req auth' req' w, tokenUse auth req = some (x.use operation) →
    tokenUse auth' req' = some (y.use operation) →
      let earlier := (Prog.runE (exec env) (authorize env auth req) w).2
      (Prog.runE (exec env) (authorize env auth' req') earlier).1 =
        (Prog.runE (exec env) (authorize env auth' req') { w with tick := earlier.tick }).1

/-- **Uses of tokens are told apart** exactly if the parts of their names are not confused.  They
are if tenant and token, and namespace and path, are the same up to a separator that occurs in
them, or if the word of the operation occurs in them. -/
theorem told_apart_iff (env : Env) (operation : OperationName) (x y : BindingUse) :
    ToldApart env operation x y ↔ ¬ BindingUse.Confused operation x y := by
  rw [← BindingUse.identity_eq_iff]
  refine ⟨fun h => h.identity, fun hidentity => ?_⟩
  have hkey := BindingUse.replayKey_ne env hidentity
  refine ⟨hidentity, hkey, fun auth req auth' req' w hu hu' => ?_⟩
  have hloc : (y.use operation).loc env ≠ (x.use operation).loc env := by
    intro hloc
    exact hkey (Loc.replay.inj hloc).2.symm
  obtain ⟨hseen, hstore⟩ := authorize_remembers hu (Ne.symm hidentity) hloc
  exact authorize_congr hu' rfl hseen hstore

namespace Sample

/-- A token is used to bind a path. -/
def useToBind (ns path key : String) (w : World) : Except ApiError AuthorizationDecision × World :=
  Prog.runE (exec (Sample.env [])) (authorize (Sample.env []) (auth "1")
    (bindMeta tenant ns path key)) w

/-- The token is used for a path in one namespace, and then for one in another. -/
theorem uses_apart_plain :
    let earlier := (useToBind "n" "p:q" "k" World.empty).2
    (useToBind "m" "p:q" "k" earlier).1 =
      (useToBind "m" "p:q" "k" { World.empty with tick := earlier.tick }).1 := by
  have hx : BindingUse.Separable ⟨tenant, "1", "n", "p:q"⟩ := ⟨by decide, by decide, by decide⟩
  have hy : BindingUse.Separable ⟨tenant, "1", "m", "p:q"⟩ := ⟨by decide, by decide, by decide⟩
  have hne := BindingUse.identity_ne OperationName.bind hx hy (by decide)
  rw [ne_eq, BindingUse.identity_eq_iff] at hne
  exact ((told_apart_iff (Sample.env []) .bind _ _).2 hne).decision (auth "1")
    (bindMeta tenant "n" "p:q" "k") (auth "1") (bindMeta tenant "m" "p:q" "k") World.empty
    (BindingUse.tokenUse_meta (x := ⟨tenant, "1", "n", "p:q"⟩) rfl "k").1
    (BindingUse.tokenUse_meta (x := ⟨tenant, "1", "m", "p:q"⟩) rfl "k").1

/-- **Two paths, one name.**  The token has been used for a path in one namespace.  Its use for a
path in another namespace is taken for a retry under the same idempotency key, and for a replay
under another. -/
theorem uses_confused :
    (canonicalPath "a" = .ok "a" ∧ canonicalPath "b:c" = .ok "b:c" ∧
      canonicalPath "a:b" = .ok "a:b" ∧ canonicalPath "c" = .ok "c") ∧
    (BindingUse.use .bind ⟨tenant, "1", "a", "b:c"⟩).identity =
      (BindingUse.use .bind ⟨tenant, "1", "a:b", "c"⟩).identity ∧
    let earlier := (useToBind "a" "b:c" "k" World.empty).2
    (useToBind "a:b" "c" "k" earlier).1 = .ok ⟨.idempotentRetry⟩ ∧
      (useToBind "a:b" "c" "l" earlier).1 = .error (denialToApiError .replayDetected) := by
  decide +kernel

end Sample

end Hsp
