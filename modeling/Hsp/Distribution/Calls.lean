import Hsp.Distribution.Effects
import Hsp.Namespace.Events
import Hsp.Object.Sessions
import Hsp.Replay.Effects

/-!
# The calls of a distribution server

What the calls a distribution server makes to the `AlphaService` tell it and change: `RESOLVE`
reports what the path is bound to; `BIND` and `UNBIND`, with a record that the server has signed
itself, change the path that the record names, unless they are answered from the store.

* `resolve_ok` : a `RESOLVE` that succeeds;
* `bind_ok`, `unbind_ok` : a `BIND` or an `UNBIND` that succeeds.
-/

namespace Hsp

open Except

variable {env : Env} {auth : AuthContext} {w w' : World} {req : AuthRequestMeta}
  {ns path key : String} {decision : AuthorizationDecision} {response : ResolveResponse}
  {t : TenantId} {record : NamespaceMutationRecord} {request : BindRequest}

/-! ### Looking up a path -/

/-- Apart from the clock and the event logs, nothing has changed. -/
structure Untouched (w w' : World) : Prop where
  store : ∀ l : Loc, l.isEventLog = false → w'.store l = w.store l
  seen : w'.seen = w.seen

namespace Untouched

theorem refl (w : World) : Untouched w w := ⟨fun _ _ => rfl, rfl⟩

theorem trans {w₁ : World} (h : Untouched w w₁) (h' : Untouched w₁ w') : Untouched w w' :=
  ⟨fun l hl => (h'.store l hl).trans (h.store l hl), h'.seen.trans h.seen⟩

theorem ticked (w : World) (n : ℕ) : Untouched w (w.ticked n) := ⟨fun _ _ => rfl, rfl⟩

theorem logged (w : World) (t : TenantId) (e : EventRecord) : Untouched w (w.logged t e) where
  store l hl := by
    have hevent : l ≠ .event t (w.nextSeq t) := by rintro rfl; cases hl
    have hcounter : l ≠ .eventSequence t := by rintro rfl; cases hl
    rw [World.logged, World.set_store_of_ne _ hevent, World.set_store_of_ne _ hcounter]
  seen := rfl

theorem sameOn (h : Untouched w w') : SameOn Loc.isData w w' := fun l hl =>
  h.store l (by cases l <;> first | rfl | cases hl)

end Untouched

theorem untouched_authorize (hquery : req.operation.isMutation = false)
    {result : Except ApiError AuthorizationDecision}
    (h : runE (exec env) (authorize env auth req) w = (result, w')) : Untouched w w' := by
  cases hc : checkClaims (env.clock w.tick) auth req with
  | error reason =>
    rw [runE_authorize_denied hc] at h
    cases h
    exact (Untouched.ticked w 1).trans ((Untouched.ticked _ 1).trans (.logged _ _ _))
  | ok _ =>
    have hnone : tokenUse auth req = none := by simp [tokenUse, hquery]
    rw [runE_authorize_query hc hnone] at h
    cases h
    exact .ticked w 1

/-- What `RESOLVE` asks the policy engine. -/
def resolveMeta (t : TenantId) (ns path : String) : AuthRequestMeta where
  operation := .resolve
  tenantId := t
  subject := ns ++ ":" ++ path
  ns := some ns
  path := some path

section Resolve

variable {request : ResolveRequest} (hnow : request.atRevision = none)

include hnow

theorem runE_resolve_authorized {w₁ : World}
    (hcanon : canonicalNamespaceAndPath request.ns request.path = .ok (ns, path))
    (hauth : runE (exec env) (authorize env auth (resolveMeta request.tenantId ns path)) w =
      (.ok decision, w₁)) :
    runE (exec env) (resolve env auth request) w =
      (resolveBinding (w₁.current request.tenantId ns) path request.ifRevision, w₁) := by
  rw [resolve, hcanon, runE_ofExcept_bind]
  dsimp only
  refine (runE_bind_ok _ hauth).trans ?_
  rw [hnow]
  rfl

theorem untouched_resolve {result : Except ApiError ResolveResponse}
    (h : runE (exec env) (resolve env auth request) w = (result, w')) : Untouched w w' := by
  cases hcanon : canonicalNamespaceAndPath request.ns request.path with
  | error e =>
    rw [resolve, hcanon, runE_bind_error _ (runE_ofExcept env _ w)] at h
    cases h
    exact .refl w
  | ok names =>
    obtain ⟨ns, path⟩ := names
    rcases hauth : runE (exec env) (authorize env auth (resolveMeta request.tenantId ns path))
      w with ⟨e | decision, w₁⟩
    · rw [resolve, hcanon, runE_ofExcept_bind] at h
      dsimp only at h
      cases (runE_bind_error _ hauth).symm.trans h
      exact untouched_authorize rfl hauth
    · rw [runE_resolve_authorized hnow hcanon hauth] at h
      cases h
      exact untouched_authorize rfl hauth

/-- **What a `RESOLVE` that succeeds says**: what the path is bound to. -/
theorem resolve_ok (h : runE (exec env) (resolve env auth request) w = (.ok response, w')) :
    Untouched w w' ∧ ∃ ns path, canonicalNamespaceAndPath request.ns request.path = .ok (ns, path) ∧
      resolveBinding (w.current request.tenantId ns) path request.ifRevision = .ok response := by
  have huntouched := untouched_resolve hnow h
  refine ⟨huntouched, ?_⟩
  obtain ⟨⟨ns, path⟩, w₁, hnames, hrest⟩ := runE_bind_eq_ok _ h
  obtain ⟨decision, w₂, hauth, -⟩ := runE_bind_eq_ok _ hrest
  obtain ⟨hcanon, rfl⟩ : canonicalNamespaceAndPath request.ns request.path = .ok (ns, path) ∧
      w = w₁ := ⟨congrArg Prod.fst hnames, congrArg Prod.snd hnames⟩
  rw [runE_resolve_authorized hnow hcanon hauth] at h
  have hsame := (untouched_authorize rfl hauth).sameOn.sameNamespaces
  refine ⟨ns, path, hcanon, ?_⟩
  rw [← hsame.current]
  exact congrArg Prod.fst h

end Resolve

theorem binding_of_resolveBinding (h : resolveBinding (w.current t ns) path none = .ok response) :
    ∃ b, w.binding t ns path = some b ∧ response.targetCid = b.targetCid ∧
      response.manifestCid = b.manifestCid ∧ response.revision = b.revision ∧
      response.tombstone = b.tombstone := by
  unfold resolveBinding at h
  cases hb : (w.current t ns).bindings[path]? with
  | none =>
    rw [hb] at h
    cases h
  | some b =>
    rw [hb] at h
    cases h
    exact ⟨b, hb, rfl, rfl, rfl, rfl⟩

/-! ### Retries -/

/-- The request would be answered from the store if it were authorized: the token was used before
for this operation on this subject, under the same idempotency key, and a response is stored. -/
def Retried (env : Env) (w : World) (auth : AuthContext) (req : AuthRequestMeta)
    (op : IdempotentOp) (key : String) : Prop :=
  (w.store (.idempotency req.tenantId op key)).isSome ∧ ∃ u, tokenUse auth req = some u ∧
    match w.store (u.loc env) with
    | some record => record.idempotencyKey = key
    | none => w.seen u.identity = some key

theorem Untouched.retried_iff (h : Untouched w w') (auth : AuthContext) (req : AuthRequestMeta)
    (op : IdempotentOp) (key : String) :
    Retried env w' auth req op key ↔ Retried env w auth req op key := by
  simp only [Retried, h.seen, h.store (.idempotency _ _ _) rfl, TokenUse.loc,
    h.store (.replay _ _) rfl]

/-- A use of a token that is authorized is a retry if the record of the use has the same key. -/
theorem retry_iff_of_authorize {u : TokenUse} (hkey : req.idempotencyKey = some key)
    (hu : tokenUse auth req = some u)
    (h : runE (exec env) (authorize env auth req) w = (.ok decision, w')) :
    decision = ⟨.idempotentRetry⟩ ↔
      match w.store (u.loc env) with
      | some record => record.idempotencyKey = key
      | none => w.seen u.identity = some key := by
  obtain ⟨hagrees, rfl⟩ :=
    (authorize_eq_ok_iff (checkClaims_of_authorize h) hu).1 (congrArg Prod.fst h)
  rw [hkey] at hagrees
  cases hrecord : w.store (u.loc env) with
  | some record =>
    have hsame := hagrees.recorded record hrecord
    simp_all [TokenUse.status]
  | none =>
    cases hseen : w.seen u.identity with
    | none => simp [TokenUse.status, hrecord, hseen]
    | some seen =>
      have hsame := hagrees.seen seen hseen
      simp_all [TokenUse.status]

/-- Of the requests that succeed, those are answered from the store that are retries. -/
theorem Keyed.answered_iff_retried {k : Keyed} {response : k.op.Response}
    (hok : runE (exec env) (k.handle env) w = (.ok response, w')) :
    k.Answered env w ↔ Retried env w k.auth k.req k.op k.key := by
  obtain ⟨u, hu⟩ := use_of_ok hok
  obtain ⟨decision, w₁, hauth⟩ : ∃ decision w₁,
      runE (exec env) (authorize env k.auth k.req) w = (.ok decision, w₁) := by
    rcases k.handle_cases env w with ⟨e, w₁, -, hrun⟩ | ⟨_, w₁, hauth, -⟩ | ⟨_, w₁, hauth, -⟩
    · rw [hrun] at hok
      cases hok
    · exact ⟨_, w₁, hauth⟩
    · exact ⟨_, w₁, hauth⟩
  have hretry := retry_iff_of_authorize k.key_eq hu hauth
  simp only [Answered, Retried, hauth, ok.injEq, hretry]
  refine ⟨fun ⟨hmatch, hslot⟩ => ⟨hslot, u, hu, hmatch⟩, fun ⟨hslot, u', hu', hmatch⟩ => ?_⟩
  obtain rfl := Option.some.inj (hu'.symm.trans hu)
  exact ⟨hmatch, hslot⟩

/-! ### Changing a path -/

/-- A program that ends after its mutation has made it when it succeeds. -/
theorem mutated_of_follows {α : Type} {x : Svc α} {revision : α → ℕ}
    (h : (namespaceProtocol env).FollowsE x (.rest .idle)
      (fun a s => Mutates record (revision a) s) Unmoved) {a : α}
    (hok : runE (exec env) x w = (.ok a, w')) :
    ∃ m : Mutation env, m.record = record ∧ m.Admits (w.existingFor m) ∧
      SameNamespaces (w.mutate m) w' := by
  obtain ⟨s, -, hpost, hat, -⟩ := run_of_follows h (w := w) (I := fun _ _ => True) trivial
    (fun _ _ _ _ _ _ _ _ _ => trivial)
    (always_true _ _ _)
  rw [hok] at hpost hat
  obtain ⟨m, r, rfl, hm, -⟩ := hpost
  exact ⟨m, hm, hat.2.1, hat.1⟩

/-- A mutation does the same to worlds with the same namespaces. -/
theorem SameNamespaces.mutate (h : SameNamespaces w w') (m : Mutation env) :
    SameNamespaces (w.mutate m) (w'.mutate m) := by
  have hrevision : w'.revisionFor m = w.revisionFor m := h.nextRevision _ _
  have hstate : w'.stateFor m = w.stateFor m := h.current _ _
  unfold World.mutate World.apply World.claim
  rw [hrevision, hstate, h.journal]
  exact ((h.set _ _).set _ _).set _ _

/-- The request was a retry and changed no namespace, or it made the mutation of a record. -/
def Mutated (env : Env) (w w' : World) (auth : AuthContext) (req : AuthRequestMeta)
    (op : IdempotentOp) (key : String) (record : NamespaceMutationRecord) : Prop :=
  Retried env w auth req op key ∧ SameNamespaces w w' ∨
    ¬ Retried env w auth req op key ∧ ∃ m : Mutation env, m.record = record ∧
      m.Admits (w.existingFor m) ∧ SameNamespaces (w.mutate m) w'

/-- What a keyed request that makes a mutation has done when it succeeds. -/
theorem Keyed.mutated_of_ok {k : Keyed} {revision : k.op.Response → ℕ}
    (h : (namespaceProtocol env).FollowsE k.apply (.rest .idle)
      (fun a s => Mutates record (revision a) s) Unmoved)
    {response : k.op.Response} (hok : runE (exec env) (k.handle env) w = (.ok response, w')) :
    Mutated env w w' k.auth k.req k.op k.key record := by
  rw [Mutated, ← answered_iff_retried hok]
  rcases k.handle_cases env w with ⟨e, w₁, -, hrun⟩ | ⟨stored, w₁, hauth, hstored, hrun⟩ |
    ⟨decision, w₁, hauth, hno, hrun⟩
  · rw [hrun] at hok
    cases hok
  · rw [hrun] at hok
    cases hok
    exact .inl ⟨⟨by rw [hauth], by rw [hstored]; rfl⟩, (sameOn_of_authorize hauth).sameNamespaces⟩
  · rw [hrun] at hok
    obtain ⟨m, hm, hadmits, hmutates⟩ := mutated_of_follows h hok
    have hsame := (sameOn_of_authorize hauth).sameNamespaces
    refine .inr ⟨hno, m, hm, ?_, (hsame.mutate m).trans hmutates⟩
    rwa [World.existingFor, World.stateFor, hsame.current] at hadmits

/-- **What a `BIND` that succeeds has done.** -/
theorem bind_ok {response : BindResponse}
    (h : runE (exec env) (bind env auth request) w = (.ok response, w')) :
    ∃ record, canonicalNamespaceAndPath request.ns request.path = .ok (record.ns, record.path) ∧
      verifySignedBindRecord env request record.ns record.path = .ok record ∧
      Mutated env w w' auth
        (bindMeta request.tenantId record.ns record.path request.idempotencyKey) .bind
        request.idempotencyKey record := by
  obtain ⟨⟨ns, path⟩, w₁, hnames, hrest⟩ := runE_bind_eq_ok _ h
  obtain ⟨record, w₂, hverify, -⟩ := runE_bind_eq_ok _ hrest
  have hcanon : canonicalNamespaceAndPath request.ns request.path = .ok (ns, path) :=
    congrArg Prod.fst hnames
  have hrecord : verifySignedBindRecord env request ns path = .ok record :=
    congrArg Prod.fst hverify
  obtain ⟨m, rfl, -, rfl, rfl, -⟩ := verifySignedBindRecord_ok hrecord
  rw [runE_bind hcanon hrecord] at h
  exact ⟨m.record, hcanon, hrecord, Keyed.mutated_of_ok (follows_bindApply true hrecord) h⟩

/-- **What an `UNBIND` that succeeds has done.** -/
theorem unbind_ok {request : UnbindRequest} {response : UnbindResponse}
    (h : runE (exec env) (unbind env auth request) w = (.ok response, w')) :
    ∃ record, canonicalNamespaceAndPath request.ns request.path = .ok (record.ns, record.path) ∧
      verifySignedUnbindRecord env request record.ns record.path = .ok record ∧
      Mutated env w w' auth
        (unbindMeta request.tenantId record.ns record.path request.idempotencyKey) .unbind
        request.idempotencyKey record := by
  obtain ⟨⟨ns, path⟩, w₁, hnames, hrest⟩ := runE_bind_eq_ok _ h
  obtain ⟨record, w₂, hverify, hrest⟩ := runE_bind_eq_ok _ hrest
  obtain ⟨_, w₃, hreject, -⟩ := runE_bind_eq_ok _ hrest
  have hcanon : canonicalNamespaceAndPath request.ns request.path = .ok (ns, path) :=
    congrArg Prod.fst hnames
  have hrecord : verifySignedUnbindRecord env request ns path = .ok record :=
    congrArg Prod.fst hverify
  have hadmin : ¬ (request.hardDelete ∧ CapabilityScope.adminRepair ∉ auth.claims.ops) := by
    intro hno
    rw [runE_rejectIf_of env _ hno] at hreject
    cases hreject
  obtain ⟨m, rfl, -, rfl, rfl, -⟩ := verifySignedUnbindRecord_ok hrecord
  rw [runE_unbind hcanon hrecord hadmin] at h
  exact ⟨m.record, hcanon, hrecord, Keyed.mutated_of_ok (follows_unbindApply true hrecord) h⟩

/-- **What a `PUT_INIT` that succeeds has done**: it is answered from the store, or it has opened a
session. -/
theorem putInit_ok {request : PutInitRequest} {response : PutInitResponse}
    (h : runE (exec env) (putInit env auth request) w = (.ok response, w')) :
    (request.keyed env auth).Answered env w ∧ SameOn Loc.isData w w' ∧
        (∃ record, w.store (.idempotency request.tenantId .putInit request.idempotencyKey) =
          some record ∧ response = record.response) ∨
      ¬ (request.keyed env auth).Answered env w ∧
        response.sessionId = "session-" ++ request.manifest.manifestCid env ∧
        ∃ w₁, SameOn Loc.isData w w₁ ∧ w' = request.opened env response w₁ := by
  obtain ⟨_, _, hcheck, -⟩ := runE_bind_eq_ok _ h
  rw [runE_putInit (congrArg Prod.fst hcheck)] at h
  rcases (request.keyed env auth).handle_cases env w with ⟨e, w₁, -, hrun⟩ |
    ⟨record, w₁, hauth, hrecord, hrun⟩ | ⟨decision, w₁, hauth, hno, hrun⟩
  · rw [hrun] at h
    cases h
  · rw [hrun] at h
    cases h
    exact .inl ⟨⟨by rw [hauth], by rw [hrecord]; rfl⟩, sameOn_of_authorize hauth, record, hrecord,
      rfl⟩
  · obtain ⟨opened, happly, hid, -⟩ := runE_putInitApply env request w₁
    rw [hrun.trans happly] at h
    cases h
    exact .inr ⟨hno, hid, w₁, sameOn_of_authorize hauth, rfl⟩

namespace Distribution

variable {d : Deployment} {α : Type} {s s' : Server} {a : α} {signed : NamespaceMutationRecord}
  {m : Mutation d.toEnv}

/-! ### Steps that succeed -/

theorem ofExcept_bind_ok {β : Type} {x : Except ApiError α} {f : α → Dist β} {b : β}
    (h : runE (act d) (ofExcept x >>= f) s = (.ok b, s')) :
    ∃ a, x = .ok a ∧ runE (act d) (f a) s = (.ok b, s') := by
  cases x with
  | error e => cases h
  | ok a => exact ⟨a, rfl, h⟩

theorem rejectIf_ok {c : Prop} [Decidable c] {e : ApiError}
    (h : runE (act d) (rejectIf c e) s = (.ok (), s')) : ¬ c ∧ s = s' := by
  rw [runE_rejectIf] at h
  split at h
  · cases h
  · rename_i hc
    cases h
    exact ⟨hc, rfl⟩

theorem callAlpha_ok {c : Call} {a : c.Response}
    (h : runE (act d) (callAlpha c) s = (.ok a, s')) :
    runE (exec d.toEnv) (c.answer d.toEnv) s.alpha = (.ok a, s'.alpha) ∧
      s' = { s with alpha := s'.alpha } := by
  rw [runE_callAlpha, Prod.mk.injEq] at h
  obtain ⟨hresult, rfl⟩ := h
  exact ⟨Prod.ext hresult rfl, rfl⟩

theorem orNotFound_ok {record : Option α} {code message : String}
    (h : runE (act d) (orNotFound record code message) s = (.ok a, s')) :
    record = some a ∧ s = s' := by
  cases record with
  | none => cases h
  | some record =>
    cases h
    exact ⟨rfl, rfl⟩

theorem orObjectError_ok {x : Dist α} (h : runE (act d) (orObjectError x) s = (.ok a, s')) :
    runE (act d) x s = (.ok a, s') := by
  obtain ⟨result, s₁, hattempt, h⟩ := runE_bind_eq_ok _ h
  rw [runE_attempt, Prod.mk.injEq, ok.injEq] at hattempt
  obtain ⟨rfl, rfl⟩ := hattempt
  rcases hx : runE (act d) x s with ⟨e | a', s₂⟩
  · rw [hx] at h
    cases h
  · rw [hx] at h
    cases h
    exact hx

theorem requireBucket_ok {bucket : String} {record : BucketRecord}
    (h : runE (act d) (requireBucket t bucket) s = (.ok record, s')) :
    s = s' ∧ ∃ name, canonicalBucketName bucket = .ok name ∧
      s.lookup (bucketSlot t name) = some record := by
  obtain ⟨name, hcanon, h⟩ := ofExcept_bind_ok h
  obtain ⟨found, s₂, hread, h⟩ := runE_bind_eq_ok _ h
  cases hread
  obtain ⟨hfound, rfl⟩ := orNotFound_ok h
  exact ⟨rfl, name, hcanon, hfound⟩

theorem resolveKey_ok {resolved : ResolveResponse}
    (h : runE (act d) (resolveKey auth t ns key) s = (.ok resolved, s')) :
    Untouched s.alpha s'.alpha ∧ ∃ ns' key', canonicalNamespaceAndPath ns key = .ok (ns', key') ∧
      resolveBinding (s.alpha.current t ns') key' none = .ok resolved :=
  resolve_ok rfl (callAlpha_ok h).1

theorem signNamespaceRecord_ok {fields : NamespaceMutationFields} {token : String}
    (h : runE (act d) (signNamespaceRecord d fields) s = (.ok token, s')) :
    s = s' ∧ ∃ record : NamespaceMutationRecord, record.toNamespaceMutationFields = fields ∧
      token = Base64.encode (d.namespaceToken record) := by
  unfold signNamespaceRecord at h
  split at h
  · rename_i hfits
    cases h
    exact ⟨rfl, ⟨fields, hfits⟩, rfl, rfl⟩
  · cases h

/-! ### Records the server signs -/

/-- What verifies as a record that the server has signed is that record. -/
theorem record_of_signed {agrees : NamespaceMutationRecord → Bool} {mismatch : String}
    (h : verifySignedRecord d.toEnv (Base64.encode (d.namespaceToken signed)) agrees mismatch =
      .ok record) : record = signed := by
  unfold verifySignedRecord at h
  rw [d.registered] at h
  simp only [except_bind_eq_ok] at h
  obtain ⟨record', hverify, h⟩ := h
  have hrecord : record' = record := by
    simp only [except_throw, except_error_bind, except_guard_eq_ok, except_bind_eq_ok] at h
    obtain ⟨-, _, -, h⟩ := h
    exact ok.inj h
  subst hrecord
  simp only [verifySignedNamespaceRecord, verifyCoseSign1Payload, except_bind_eq_ok] at hverify
  obtain ⟨⟨token, claims⟩, hparse, issuer, -, hrest⟩ := hverify
  obtain rfl : claims = record' := by
    simp only [except_throw, except_error_bind, except_guard_eq_ok, except_bind_eq_ok] at hrest
    obtain ⟨-, -, _, -, hclaims⟩ := hrest
    exact ok.inj hclaims
  -- The token is read back, its payload is found, and the payload is read.
  rw [parsePayload, Base64.decode_encode] at hparse
  cases htoken : d.coseFromSlice (d.namespaceToken signed) with
  | none => simp [htoken] at hparse
  | some token' =>
    cases hpayload : token'.payload with
    | none => simp [htoken, hpayload] at hparse
    | some payload =>
      cases hread : d.recordFromReader payload with
      | none => simp [htoken, hpayload, hread] at hparse
      | some record =>
        simp only [htoken, hpayload, hread, except_pure, except_ok_bind, ok.injEq,
          Prod.mk.injEq] at hparse
        rw [← hparse.2]
        exact d.namespaceToken_read _ _ _ _ htoken hpayload hread

theorem asks_bind_record (h : request.Asks m)
    (hsigned : request.signedRecordB64 = Base64.encode (d.namespaceToken signed)) :
    m.record = signed := by
  have hverify := h.2
  rw [verifySignedBindRecord, hsigned] at hverify
  exact record_of_signed hverify

theorem asks_unbind_record {request : UnbindRequest} (h : request.Asks m)
    (hsigned : request.signedRecordB64 = Base64.encode (d.namespaceToken signed)) :
    m.record = signed := by
  have hverify := h.2
  rw [verifySignedUnbindRecord, hsigned] at hverify
  exact record_of_signed hverify

theorem unbind_signed_ok {request : UnbindRequest} {response : UnbindResponse}
    (hsigned : request.signedRecordB64 = Base64.encode (d.namespaceToken signed))
    (h : runE (exec d.toEnv) (unbind d.toEnv auth request) w = (.ok response, w')) :
    canonicalNamespaceAndPath request.ns request.path = .ok (signed.ns, signed.path) ∧
      Mutated d.toEnv w w' auth
        (unbindMeta request.tenantId signed.ns signed.path request.idempotencyKey) .unbind
        request.idempotencyKey signed := by
  obtain ⟨record, hcanon, hverify, hcases⟩ := unbind_ok h
  have hrecord : record = signed := by
    rw [verifySignedUnbindRecord, hsigned] at hverify
    exact record_of_signed hverify
  subst hrecord
  exact ⟨hcanon, hcases⟩

theorem bind_signed_ok {response : BindResponse}
    (hsigned : request.signedRecordB64 = Base64.encode (d.namespaceToken signed))
    (h : runE (exec d.toEnv) (bind d.toEnv auth request) w = (.ok response, w')) :
    canonicalNamespaceAndPath request.ns request.path = .ok (signed.ns, signed.path) ∧
      Mutated d.toEnv w w' auth
        (bindMeta request.tenantId signed.ns signed.path request.idempotencyKey) .bind
        request.idempotencyKey signed := by
  obtain ⟨record, hcanon, hverify, hcases⟩ := bind_ok h
  have hrecord : record = signed := by
    rw [verifySignedBindRecord, hsigned] at hverify
    exact record_of_signed hverify
  subst hrecord
  exact ⟨hcanon, hcases⟩

/-! ### Programs that only look up paths -/

theorem Action.Within.untouched {K : List Kind} {o : Action} (ho : o.Within K Call.ResolvesNow)
    (s : Server) : Untouched s.alpha (act d o s).2.alpha := by
  cases o with
  | call c =>
    cases c with
    | resolve auth request => exact untouched_resolve ho rfl
    | _ => exact ho.elim
  | own o =>
    cases o with
    | now => exact .ticked _ 1
    | _ => exact .refl _

theorem Within.untouched_runE {K : List Kind} {x : Dist α} (h : Within K Call.ResolvesNow x)
    (s : Server) : Untouched s.alpha (runE (act d) x s).2.alpha :=
  OnlyE.runE (I := fun s' : Server => Untouched s.alpha s'.alpha) h
    (fun _ _ ho hs => hs.trans (ho.untouched _)) (.refl _)

end Distribution

end Hsp
