import Hsp.Access.Denied

/-!
# Tenants do not write each other's entries

The tenant of a request is what the client says it is, and only the policy engine compares it with
the claims.  Nothing is written for a request before it is authorized, so a request that names a
tenant other than that of the claims changes nothing but the event log: the tenant it names is told
about the denial.

* `Barred` : the program fails and leaves at most an event about a denial;
* `Call.barred` : requests with claims of another tenant are;
* `other_tenants_kept` : what a request changes for the tenants its claims do not belong to.
-/

namespace Hsp

variable {env : Env} {α β : Type} {auth : AuthContext} {t : TenantId}

/-! ### Programs that fail -/

/-- Every run of the program fails.  It leaves the store as it was, or with one more event in the
log of the tenant, about a denial. -/
def Barred (env : Env) (t : TenantId) (x : Svc α) : Prop :=
  ∀ w, ∃ error, (Prog.runE (exec env) x w).1 = .error error ∧
    ((Prog.runE (exec env) x w).2.store = w.store ∨
      ∃ e : EventRecord, e.eventType = .authDenied ∧
        (Prog.runE (exec env) x w).2.store = (w.logged t e).store)

/-- The program writes nothing. -/
abbrev Looks (x : Svc α) : Prop := Aside (fun _ => true) (fun _ => True) x

theorem World.logged_store {w w' : World} (h : w'.store = w.store) (e : EventRecord) :
    (w'.logged t e).store = (w.logged t e).store := by
  obtain ⟨store, seen, tick⟩ := w
  obtain ⟨store', seen', tick'⟩ := w'
  subst h
  rfl

namespace Barred

theorem authorize {req : AuthRequestMeta} (h : auth.claims.tenantId ≠ t)
    (hreq : req.tenantId = t) : Barred env t (authorize env auth req) := by
  subst hreq
  intro w
  have hnot : ¬ Entitles auth req.tenantId (req.ns, req.path) := fun hentitles => h hentitles.tenant
  obtain ⟨reason, hreason⟩ := exists_denial hnot (env.clock w.tick)
  rw [runE_authorize_denied hreason]
  exact ⟨_, rfl, .inr ⟨denialEvent req reason _, rfl, rfl⟩⟩

theorem bind {x : Svc α} (hx : Barred env t x) (f : α → Svc β) : Barred env t (x >>= f) := by
  intro w
  obtain ⟨error, herror, hstore⟩ := hx w
  have hrun : runE (exec env) (x >>= f) w = (.error error, (runE (exec env) x w).2) :=
    runE_bind_error _ (Prod.ext herror rfl)
  rw [hrun]
  exact ⟨error, rfl, hstore⟩

theorem after {x : Svc α} {f : α → Svc β} (hx : Looks x) (hf : ∀ a, Barred env t (f a)) :
    Barred env t (x >>= f) := by
  intro w
  have hsame : (runE (exec env) x w).2.store = w.store :=
    funext fun l => (hx.run env w).1 l rfl
  rcases hrun : runE (exec env) x w with ⟨error | a, w₁⟩
  · rw [hrun] at hsame
    rw [runE_bind_error _ hrun]
    exact ⟨error, rfl, .inl hsame⟩
  · rw [hrun] at hsame
    rw [runE_bind_ok _ hrun]
    obtain ⟨error, herror, hstore⟩ := hf a w₁
    refine ⟨error, herror, ?_⟩
    rcases hstore with hstore | ⟨e, he, hstore⟩
    · exact .inl (hstore.trans hsame)
    · exact .inr ⟨e, he, hstore.trans (World.logged_store hsame e)⟩

theorem map {x : Svc α} (hx : Barred env t x) (f : α → β) : Barred env t (f <$> x) :=
  hx.bind fun a => Pure.pure (f a)

theorem ite {c : Prop} [Decidable c] {x y : Svc α} (hx : c → Barred env t x)
    (hy : ¬ c → Barred env t y) : Barred env t (if c then x else y) := by
  split
  · exact hx ‹_›
  · exact hy ‹_›

end Barred

/-! ### Lookups -/

theorem looks_ofExcept (x : Except ApiError α) : Looks (ofExcept x) :=
  .ofExcept fun _ _ => trivial

theorem looks_uploadSession (t : TenantId) (sessionId : String) :
    Looks (uploadSession t sessionId) := by
  refine .bind (.readEncryptedJson _) fun session => ?_
  cases session with
  | some session => exact .pure _
  | none => exact .throw trivial

theorem looks_selectorResolution (t : TenantId) (selector : ObjectSelector) :
    Looks (selectorResolution t selector) := by
  unfold selectorResolution
  cases selector.kind with
  | cid => exact .pure _
  | «namespace» =>
    have hsnapshot : Looks (resolveSnapshot t (selector.ns.getD "") (selector.path.getD "")
        none none) :=
      .bind (looks_ofExcept _) fun _ =>
        .bind (.bind (.readEncryptedJson _) fun _ => .pure _) fun _ => looks_ofExcept _
    refine .bind hsnapshot fun resolved => .bind (.rejectIf trivial) fun _ => ?_
    cases resolved.manifestCid with
    | none => exact .throw trivial
    | some manifestCid => exact .pure _

/-! ### Requests with claims of another tenant -/

theorem Barred.authorizeSubscription {request : SubscribeRequest}
    (h : auth.claims.tenantId ≠ request.tenantId) :
    Barred env request.tenantId (authorizeSubscription env auth request) := by
  refine .ite (fun _ => (Barred.authorize h rfl).bind _) fun hfilters => ?_
  cases hlist : request.filters with
  | nil => exact absurd (by rw [hlist]; rfl) hfilters
  | cons filter rest => exact (Barred.authorize h rfl).bind _

theorem Barred.subscribeStart {request : SubscribeRequest}
    (h : auth.claims.tenantId ≠ request.tenantId) :
    Barred env request.tenantId (subscribeStart env auth request) :=
  .after (.rejectIf trivial) fun _ => (Barred.authorizeSubscription h).bind _

/-- **A request with claims of another tenant fails before anything is written for it.** -/
theorem Call.barred (env : Env) {c : Call} (h : c.auth.claims.tenantId ≠ c.tenantId) :
    Barred env c.tenantId (c.handle env) := by
  cases c with
  | putInit auth request =>
    exact .map (.after (looks_ofExcept _) fun _ => .bind (.authorize h rfl) _) _
  | putChunk auth request ciphertextChunk =>
    exact .map (.after (.rejectIf trivial) fun _ => .after (looks_uploadSession _ _) fun _ =>
      .after (looks_ofExcept _) fun _ => .bind (.authorize h rfl) _) _
  | putCommit auth request =>
    refine .map (.after (looks_uploadSession _ _) fun session => ?_) _
    exact .after (.rejectIf trivial) fun _ => .bind (.authorize h rfl) _
  | head auth request =>
    exact .map (.after (looks_ofExcept _) fun _ => .after (looks_selectorResolution _ _) fun _ =>
      .bind (.authorize h rfl) _) _
  | get auth request =>
    exact .map (.after (looks_ofExcept _) fun _ => .after (looks_ofExcept _) fun _ =>
      .after (looks_selectorResolution _ _) fun _ => .bind (.authorize h rfl) _) _
  | resolve auth request =>
    exact .map (.after (looks_ofExcept _) fun _ => .bind (.authorize h rfl) _) _
  | bind auth request =>
    exact .map (.after (looks_ofExcept _) fun _ => .after (looks_ofExcept _) fun _ =>
      .bind (.authorize h rfl) _) _
  | unbind auth request =>
    exact .map (.after (looks_ofExcept _) fun _ => .after (looks_ofExcept _) fun _ =>
      .after (.rejectIf trivial) fun _ => .bind (.authorize h rfl) _) _
  | list auth request =>
    exact .map (.after (looks_ofExcept _) fun _ => .bind (.authorize h rfl) _) _
  | subscribeStart auth request => exact .map (.subscribeStart h) _
  | subscribePoll auth request cursor => exact .map (.bind (.subscribeStart h) _) _

/-! ### What tenants see of each other -/

/-- A request leaves the entries of the tenants alone that it does not name. -/
theorem Call.keeps_unnamed (env : Env) (c : Call) (w : World) {t : TenantId} (h : c.tenantId ≠ t)
    {l : Loc} (hl : l.tenantId = t) : (c.perform env w).2.store l = w.store l := by
  have hother {l : Loc} (hl : l.tenantId = c.tenantId) : decide (l.tenantId = t) = false :=
    decide_eq_false (hl.trans_ne h)
  have haside : Aside (fun l => decide (l.tenantId = t)) (fun _ => True) (c.handle env) :=
    (c.handled env).aside (fun _ hl _ => hother hl) fun _ hl => hother hl.1
  exact (haside.run env w).1 l (decide_eq_true hl)

/-- **The entries of the tenants the claims do not belong to are kept**, but for the event about a
denial in the log of the tenant a request names; such a request fails. -/
theorem other_tenants_kept (env : Env) (c : Call) (w : World) {t : TenantId}
    (ht : t ≠ c.auth.claims.tenantId) :
    (c.tenantId = t → ∃ error, (c.perform env w).1 = .error error) ∧
    ((∀ l : Loc, l.tenantId = t → (c.perform env w).2.store l = w.store l) ∨
      c.tenantId = t ∧ ∃ e : EventRecord, e.eventType = .authDenied ∧
        ∀ l : Loc, l.tenantId = t → (c.perform env w).2.store l = (w.logged t e).store l) := by
  by_cases hnamed : c.tenantId = t
  · subst hnamed
    obtain ⟨error, herror, hstore⟩ := Call.barred env (Ne.symm ht) w
    refine ⟨fun _ => ⟨error, herror⟩, ?_⟩
    rcases hstore with hstore | ⟨e, he, hstore⟩
    · exact .inl fun l _ => congrFun hstore l
    · exact .inr ⟨rfl, e, he, fun l _ => congrFun hstore l⟩
  · exact ⟨fun h => absurd h hnamed, .inl fun l hl => c.keeps_unnamed env w hnamed hl⟩

namespace Sample

/-- The tenant finds an event about the stranger's request in its log. -/
theorem stranger_leaves_event :
    (strangerResolve.perform (Sample.env []) World.empty).2.store (.event tenant 1) ≠
      World.empty.store (.event tenant 1) := by
  decide +kernel

/-- The stranger's request fails, and changes the log of the tenant it names. -/
theorem stranger_leaves_only_event :
    (∃ error, (strangerResolve.perform (Sample.env []) World.empty).1 = .error error) ∧
      ∃ e : EventRecord, e.eventType = .authDenied ∧ ∀ l : Loc, l.tenantId = tenant →
        (strangerResolve.perform (Sample.env []) World.empty).2.store l =
          (World.empty.logged tenant e).store l := by
  obtain ⟨hfails, hkept | ⟨-, hlogged⟩⟩ :=
    other_tenants_kept (Sample.env []) strangerResolve World.empty
      (by decide : tenant ≠ strangerResolve.auth.claims.tenantId)
  · exact absurd (congrArg Option.isSome (hkept (.event tenant 1) rfl)) (by decide +kernel)
  · exact ⟨hfails rfl, hlogged⟩

end Sample

end Hsp
