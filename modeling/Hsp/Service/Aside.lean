import Hsp.Prog.Protocol
import Hsp.Service.Read

/-!
# What a request leaves alone

`Aside D E x` says that the program `x` changes no entry of the store in `D`, and that its errors
meet `E` if the store does not fail.  Authorization leaves traces, a replay record and an event when
the request is denied, but it touches neither what clients store nor what they were told.

* `runE_authorize` : authorization leaves the data alone, and its errors are its own.
-/

namespace Hsp

open Protocol

/-- Entries of the store that hold what clients store, and the responses kept for retries. -/
def Loc.isData : Loc → Bool
  | .sessions _ _ | .chunks _ _ | .manifests _ _ | .namespaceCurrent _ _ | .namespaceJournal _ _
  | .namespaceRevisions _ _ | .idempotency _ _ _ => true
  | .audit _ _ | .replay _ _ | .eventSequence _ | .event _ _ => false

/-- Entries of the store that uploads are made of. -/
def Loc.isObject : Loc → Bool
  | .sessions _ _ | .chunks _ _ | .manifests _ _ => true
  | _ => false

/-- Two worlds agree on some entries. -/
def SameOn (D : Loc → Bool) (w w' : World) : Prop := ∀ l : Loc, D l → w'.store l = w.store l

/-- The operation leaves some entries alone. -/
def Op.Spares (D : Loc → Bool) : Op → Prop
  | .now | .observe _ _ | .read _ | .exists _ => True
  | .write l _ | .create l _ | .delete l => D l = false

namespace SameOn

variable {D : Loc → Bool} {w w' : World}

theorem set (h : SameOn D w w') {l : Loc} (hl : D l = false) (v : Option (Val l)) :
    SameOn D w (w'.set l v) := by
  intro l' hl'
  have hne : l' ≠ l := by rintro rfl; rw [hl] at hl'; cases hl'
  rw [World.set_store_of_ne _ hne, h l' hl']

/-- The same entry is written in both worlds. -/
theorem set_both (h : SameOn D w w') (l : Loc) (v : Option (Val l)) :
    SameOn D (w.set l v) (w'.set l v) := by
  intro l' hl'
  by_cases heq : l' = l
  · subst heq
    rw [World.set_store_self, World.set_store_self]
  · rw [World.set_store_of_ne _ heq, World.set_store_of_ne _ heq, h l' hl']

theorem trans {w₁ : World} (h : SameOn D w w₁) (h' : SameOn D w₁ w') : SameOn D w w' :=
  fun l hl => (h' l hl).trans (h l hl)

theorem mono {D' : Loc → Bool} (h : SameOn D w w') (hD : ∀ l, D' l → D l) : SameOn D' w w' :=
  fun l hl => h l (hD l hl)

theorem exec {env : Env} (h : SameOn D w w') {o : Op} (ho : o.Spares D) :
    SameOn D w (exec env o w').2 := by
  cases o with
  | now => exact h
  | observe key idem => exact h
  | read l => exact h
  | «exists» l => exact h
  | write l v => exact h.set ho _
  | create l v =>
    simp only [Hsp.exec]
    split
    · exact h
    · exact h.set ho _
  | delete l => exact h.set ho _

end SameOn

/-- The protocol of programs that leave some entries alone, on a store that does not fail. -/
@[reducible] def asideProtocol (D : Loc → Bool) : Protocol storeSig where
  Stage := Unit
  Legal o r := ¬ o.Failed r
  Step _ o _ _ := o.Spares D

/-- The program leaves some entries alone, and its errors meet a condition. -/
def Aside {α : Type} (D : Loc → Bool) (E : ApiError → Prop) (x : Svc α) : Prop :=
  (asideProtocol D).FollowsE x () (fun _ _ => True) fun e _ => E e

namespace Aside

variable {α β : Type} {D : Loc → Bool} {E : ApiError → Prop} {x : Svc α}

theorem pure (a : α) : Aside D E (pure a : Svc α) := trivial

theorem throw {e : ApiError} (h : E e) : Aside D E (throw e : Svc α) := h

theorem bind {f : α → Svc β} (hx : Aside D E x) (hf : ∀ a, Aside D E (f a)) : Aside D E (x >>= f) :=
  FollowsE.bind (hx.mono (fun a _ _ => hf a) fun _ _ h => h)

theorem ofExcept {x : Except ApiError α} (h : ∀ e, x = .error e → E e) :
    Aside D E (Hsp.ofExcept x) := by
  cases x with
  | ok a => trivial
  | error e => exact h e rfl

theorem ite {c : Prop} [Decidable c] {y : Svc α} (hx : Aside D E x) (hy : Aside D E y) :
    Aside D E (if c then x else y) := by
  split
  · exact hx
  · exact hy

theorem rejectIf {c : Prop} [Decidable c] {e : ApiError} (h : E e) :
    Aside D E (Hsp.rejectIf c e) := .ite (.throw h) (.pure ())

theorem nowMs : Aside D E nowMs :=
  FollowsE.lift (Follows.perform fun _ _ => ⟨(), trivial, trivial⟩)

theorem storeExists (l : Loc) : Aside D E (storeExists l) :=
  FollowsE.lift (Follows.perform fun _ _ => ⟨(), trivial, trivial⟩)

theorem post_of_not_failed {r : Except ApiError α} (hr : ¬ r.toBool = false) :
    (asideProtocol D).post (fun _ _ => True) (fun e _ => E e) r () := by
  cases r with
  | ok v => trivial
  | error e => exact absurd rfl hr

theorem readEncryptedJson (l : Loc) : Aside D E (readEncryptedJson l) :=
  Follows.perform fun _ hr => ⟨(), trivial, post_of_not_failed hr⟩

theorem writeEncryptedJson {l : Loc} (hl : D l = false) (v : Val l) :
    Aside D E (writeEncryptedJson l v) :=
  Follows.perform fun _ hr => ⟨(), hl, post_of_not_failed hr⟩

theorem createEncryptedJson {l : Loc} (hl : D l = false) (v : Val l) :
    Aside D E (createEncryptedJson l v) :=
  Follows.perform fun _ hr => ⟨(), hl, post_of_not_failed hr⟩

theorem deleteStoreKey {l : Loc} (hl : D l = false) : Aside D E (deleteStoreKey l) :=
  Follows.perform fun _ hr => ⟨(), hl, post_of_not_failed hr⟩

theorem attempt (hx : Aside D (fun _ => True) x) : Aside D E (Prog.attempt x) :=
  FollowsE.attempt (hx.mono (fun _ _ h => h) fun _ _ h => h)

theorem weaken {D' : Loc → Bool} {E' : ApiError → Prop} (h : Aside D E x) (hD : ∀ l, D' l → D l)
    (hE : ∀ e, E e → E' e) : Aside D' E' x := by
  refine (FollowsE.simulation (P := asideProtocol D) (T := asideProtocol D') (R := fun _ _ => True)
    (fun _ _ hr => hr) ?_ h trivial).mono (fun _ _ _ => trivial) fun e _ ⟨_, he, _⟩ => hE e he
  · intro _ o r _ _ _ ho
    have hsub : ∀ l, D l = false → D' l = false := fun l hl => by
      cases hl' : D' l with
      | false => rfl
      | true => rw [hD l hl'] at hl; cases hl
    refine ⟨(), ?_, trivial⟩
    cases o with
    | write l v => exact hsub l ho
    | create l v => exact hsub l ho
    | delete l => exact hsub l ho
    | _ => trivial

theorem appendEvent {t : TenantId} (hcounter : D (.eventSequence t) = false)
    (hevent : ∀ seq, D (.event t seq) = false) (e : EventRecord) : Aside D E (appendEvent t e) :=
  .bind (.bind (.readEncryptedJson _) fun _ => .bind (.writeEncryptedJson hcounter _) fun _ =>
    .pure _) fun seq => .bind (.writeEncryptedJson (hevent seq) _) fun _ => .pure _

/-- **What a program that leaves the data alone has done.** -/
theorem run (env : Env) (h : Aside D E x) (w : World) :
    SameOn D w (runE (exec env) x w).2 ∧
      ∀ e, (runE (exec env) x w).1 = .error e → E e := by
  obtain ⟨_, hpost, hsame⟩ := FollowsE.run (exec env) (G := fun _ _ => True)
    (I := fun _ w' => SameOn D w w') (fun _ o w' _ => not_failed_exec env o w')
    (fun _ _ _ _ hI _ ho => hI.exec ho) h (fun _ _ => rfl)
    (always_true _ _ _)
  refine ⟨hsame, fun e he => ?_⟩
  rw [he] at hpost
  exact hpost

end Aside

/-! ### Authorization -/

/-- The errors of authorization: a denial, or a replay record that has disappeared. -/
def AuthError (e : ApiError) : Prop :=
  (∃ reason, e = denialToApiError reason) ∨
    e = ⟨.storage, "replay_record_missing", "replay record disappeared after create conflict"⟩

section Traces

variable {D : Loc → Bool} {req : AuthRequestMeta}
  (hcounter : D (.eventSequence req.tenantId) = false)
  (hevent : ∀ seq, D (.event req.tenantId seq) = false)

include hcounter hevent

theorem Aside.authorizationDeniedApiError {E : ApiError → Prop} (reason : DenialReason) :
    Aside D E (authorizationDeniedApiError req reason) :=
  .bind .nowMs fun _ => .bind (.attempt (.appendEvent hcounter hevent _)) fun _ => .pure _

theorem Aside.denied {α : Type} (reason : DenialReason) :
    Aside D AuthError (deny req reason : Svc α) := by
  refine FollowsE.bind (FollowsE.bind (Aside.nowMs.mono (fun _ _ _ => ?_) fun _ _ h => h))
  refine FollowsE.bind ((Aside.attempt (.appendEvent hcounter hevent _)).mono (fun _ _ _ => ?_)
    fun _ _ h => h)
  exact .inl ⟨reason, rfl⟩

variable (hreplay : ∀ key, D (.replay req.tenantId key) = false)

include hreplay

theorem Aside.observeDurableReplay (env : Env) (auth : AuthContext)
    (decision : AuthorizationDecision) :
    Aside D AuthError (observeDurableReplay env auth req decision) := by
  unfold Hsp.observeDurableReplay
  refine .ite (.pure _) ?_
  split
  · exact .pure _
  · refine .bind .nowMs fun _ => .bind (.createEncryptedJson (hreplay _) _) fun _ => ?_
    refine .ite (.pure _) (.bind (.readEncryptedJson _) fun existing => ?_)
    cases existing with
    | none => exact .throw (.inr rfl)
    | some existing => exact .ite (.pure _) (.denied hcounter hevent _)

theorem Aside.authorize (env : Env) (auth : AuthContext) :
    Aside D AuthError (authorize env auth req) := by
  have hpolicy : Aside D AuthError (ExceptT.lift (policyAuthorize auth req)) := by
    refine FollowsE.lift (Follows.bind (Follows.perform fun now _ => ⟨(), trivial, ?_⟩))
    cases checkClaims now auth req with
    | error reason => trivial
    | ok _ =>
      cases auth.claims.jti with
      | none => trivial
      | some jti =>
        dsimp only
        split
        · trivial
        · exact Follows.bind (Follows.perform fun _ _ => ⟨(), trivial, trivial⟩)
  refine .bind hpolicy fun result => ?_
  cases result with
  | error reason => exact .denied hcounter hevent reason
  | ok decision => exact .observeDurableReplay hcounter hevent hreplay env auth decision

end Traces

/-- **Authorization leaves the data alone, and its errors are its own.** -/
theorem runE_authorize (env : Env) (auth : AuthContext) (req : AuthRequestMeta) (w : World) :
    ∃ result w', runE (exec env) (authorize env auth req) w = (result, w') ∧
      SameOn Loc.isData w w' ∧ ∀ e, result = .error e → AuthError e := by
  obtain ⟨hsame, herr⟩ :=
    (Aside.authorize (D := Loc.isData) rfl (fun _ => rfl) (fun _ => rfl) env auth).run
      env w
  exact ⟨_, _, rfl, hsame, herr⟩

theorem sameOn_of_authorize {env : Env} {auth : AuthContext} {req : AuthRequestMeta} {w w' : World}
    {result : Except ApiError AuthorizationDecision}
    (h : runE (exec env) (authorize env auth req) w = (result, w')) :
    SameOn Loc.isData w w' := by
  obtain ⟨_, _, h', hsame, -⟩ := runE_authorize env auth req w
  rw [h] at h'
  cases h'
  exact hsame

end Hsp
