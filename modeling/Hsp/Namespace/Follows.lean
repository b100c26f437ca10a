import Hsp.Namespace.Protocol
import Hsp.Service.Inquiry

/-!
# The calls follow the protocol

One lemma for each function of the service that touches a namespace, and from them one for each
call: `follows_bindInternal`, `follows_unbindInternal`, `follows_putCommitWith`, and `Quiet` for all
other calls.
-/

namespace Hsp

open Protocol

variable {env : Env} {α : Type} {record : NamespaceMutationRecord} {request : BindRequest}
  {ns path : String} {existing : Option NamespaceBindingState} {Q : α → Stage env → Prop}

/-- A call that fails has not changed a namespace, unless the store broke in the middle of it. -/
def Unmoved (_ : ApiError) (s : Stage env) : Prop := s = .rest .idle ∨ s = .broken

/-! ### The steps of a mutation -/

section Steps

variable {m : Mutation env} {c : NamespaceCurrentState} {r : ℕ} {p : NamespaceCurrentState → Prop}

theorem follows_manifestRecord (t : TenantId) (cid : String) :
    (namespaceProtocol env).FollowsE (manifestRecord t cid) (.rest .idle)
      (fun _ s => s = .located t cid) Unmoved := by
  refine .bind (.perform fun v _ => ?_)
  rcases v with e | _ | v
  · exact ⟨.broken, .fail (.plain (r := Except.error e) trivial) rfl, .inr rfl⟩
  · exact ⟨.rest .idle, .next (.plain trivial), .inl rfl⟩
  · exact ⟨_, .next .locate, rfl⟩

/-- The current state admits the mutation, or ends the call. -/
theorem follows_currentState {s : Stage env} (hlook : ∀ v : Option NamespaceCurrentState,
      p (v.getD (.initial m.record.ns)) →
        s.Next (.read (.namespaceCurrent m.record.tenantId m.record.ns)) (.ok v)
          (.looked m (v.getD (.initial m.record.ns))))
    (hrest : ∀ r, s.Next (.read (.namespaceCurrent m.record.tenantId m.record.ns)) r
      (.rest .idle)) :
    (namespaceProtocol env).FollowsE (namespaceCurrentState m.record.tenantId m.record.ns) s
      (fun c s => p c ∧ s = .looked m c ∨ ¬ p c ∧ s = .rest .idle) fun _ s => s = .broken := by
  refine .bind (.perform fun v _ => ?_)
  rcases v with e | v
  · exact ⟨.broken, .fail (hrest (.error e)) rfl, rfl⟩
  · by_cases h : p (v.getD (.initial m.record.ns))
    · exact ⟨_, .next (hlook v h), .inl ⟨h, rfl⟩⟩
    · exact ⟨_, .next (hrest _), .inr ⟨h, rfl⟩⟩

theorem follows_nextNamespaceRevision :
    (namespaceProtocol env).FollowsE (nextNamespaceRevision m.record.tenantId m.record.ns)
      (.looked m c) (fun r s => s = .claimed m c r) fun _ s => s = .broken := by
  refine .bind (.perform fun v _ => ?_)
  rcases v with e | v
  · exact ⟨.broken, .fail (.number (v := none)) rfl, rfl⟩
  · refine ⟨_, .next .number, .bind (.perform fun w _ => ?_)⟩
    rcases w with e | _
    · exact ⟨.broken, .fail .claim rfl, rfl⟩
    · exact ⟨_, .next .claim, rfl⟩

theorem follows_writeNamespaceCurrentState :
    (namespaceProtocol env).FollowsE
      (writeNamespaceCurrentState m.record.tenantId m.record.ns (m.applyTo r c))
      (.claimed m c r) (fun _ s => s = .applied m r) fun _ s => s = .broken := by
  refine .perform fun w _ => ?_
  rcases w with e | _
  · exact ⟨.broken, .fail .apply rfl, rfl⟩
  · exact ⟨_, .next .apply, rfl⟩

theorem follows_appendNamespaceJournal :
    (namespaceProtocol env).FollowsE
      (appendNamespaceJournal m.record.tenantId m.record.ns (m.entry r))
      (.applied m r) (fun _ s => s = .rest (.journaled m r)) fun _ s => s = .broken := by
  refine .bind (.bind (.perform fun v _ => ?_))
  rcases v with e | v
  · exact ⟨.broken, .fail (.fetch (j := none)) rfl, rfl⟩
  · refine ⟨_, .next .fetch, .perform fun w _ => ?_⟩
    rcases w with e | _
    · exact ⟨.broken, .fail .append rfl, rfl⟩
    · exact ⟨_, .next .append, rfl⟩

/-- From the admission of a mutation to its event. -/
theorem follows_mutation {k : ℕ → ℕ → Svc α}
    {E : ApiError → Stage env → Prop} (hE : ∀ e, E e .broken)
    (hk : ∀ r seq, (namespaceProtocol env).FollowsE (k r seq) (.rest (.done m r)) Q E) :
    (namespaceProtocol env).FollowsE (do
      let r ← nextNamespaceRevision m.record.tenantId m.record.ns
      writeNamespaceCurrentState m.record.tenantId m.record.ns (m.applyTo r c)
      appendNamespaceJournal m.record.tenantId m.record.ns (m.entry r)
      let atMs ← nowMs
      let seq ← appendEvent m.record.tenantId (m.event r 0 atMs)
      k r seq) (.looked m c) Q E := by
  refine .bind (follows_nextNamespaceRevision.mono ?_ (by rintro e _ rfl; exact hE e))
  rintro r _ rfl
  refine .bind (follows_writeNamespaceCurrentState.mono ?_ (by rintro e _ rfl; exact hE e))
  rintro _ _ rfl
  refine .bind (follows_appendNamespaceJournal.mono ?_ (by rintro e _ rfl; exact hE e))
  rintro _ _ rfl
  refine .bind (Steady.nowMs.mono ?_ (by rintro e _ rfl; exact hE e))
  rintro atMs _ rfl
  refine .bind ((follows_appendEvent ?_).mono ?_ (by rintro e _ rfl; exact hE e))
  · intro seq
    exact ⟨rfl, atMs, rfl⟩
  · rintro seq _ rfl
    exact hk r seq

/-- A mutation goes on when the current state it has read passes its check, and ends with the
error of the check otherwise. -/
theorem follows_checked {x : Svc NamespaceCurrentState} {s : Stage env}
    {f : NamespaceCurrentState → Except ApiError Unit} {k : NamespaceCurrentState → Svc α}
    (hx : (namespaceProtocol env).FollowsE x s
      (fun c s' => f c = .ok () ∧ s' = .looked m c ∨ ¬ f c = .ok () ∧ s' = .rest .idle)
      fun _ s' => s' = .broken)
    (hk : ∀ c, f c = .ok () → (namespaceProtocol env).FollowsE (k c) (.looked m c) Q Unmoved) :
    (namespaceProtocol env).FollowsE (do
      let c ← x
      ofExcept (f c)
      k c) s Q Unmoved := by
  refine .bind (hx.mono ?_ ?_)
  · rintro c _ (⟨hc, rfl⟩ | ⟨hc, rfl⟩)
    · rw [hc]
      exact .bind (.pure (hk c hc))
    · cases hcheck : f c with
      | error e => exact .inl rfl
      | ok _ => exact absurd hcheck hc
  · rintro _ _ rfl
    exact .inr rfl

end Steps

/-! ### Signed records -/

theorem verifySignedRecord_ok {token mismatch : String} {agrees : NamespaceMutationRecord → Bool}
    (h : verifySignedRecord env token agrees mismatch = .ok record) :
    agrees record = true ∧ record.validate = .ok () ∧ ∃ token registry,
      env.issuerRegistry = some registry ∧
        verifySignedNamespaceRecord env token registry = .ok record := by
  unfold verifySignedRecord at h
  cases hreg : env.issuerRegistry with
  | none => simp [hreg] at h
  | some registry =>
    cases hv : verifySignedNamespaceRecord env token registry with
    | error e => simp [hreg, hv] at h
    | ok rec =>
      cases ha : agrees rec with
      | false => simp [hreg, hv, ha] at h
      | true =>
        cases hval : rec.validate with
        | error e => simp [hreg, hv, ha, hval] at h
        | ok _ =>
          obtain rfl : rec = record := by simpa [hreg, hv, ha, hval] using h
          exact ⟨ha, hval, token, registry, rfl, hv⟩

theorem verifySignedBindRecord_ok (h : verifySignedBindRecord env request ns path = .ok record) :
    ∃ m : Mutation env, m.record = record ∧ record.tenantId = request.tenantId ∧ record.ns = ns ∧
      record.path = path ∧ record.kind = .bind ∧ record.targetCid = some request.targetCid ∧
      record.ifRevision = request.ifRevision ∧ record.metadata = request.metadata := by
  obtain ⟨ha, -, hv⟩ := verifySignedRecord_ok h
  obtain ⟨h₁, h₂, h₃, h₄, h₅, h₆, -, h₈⟩ := of_decide_eq_true ha
  exact ⟨⟨record, hv⟩, rfl, h₁, h₂, h₃, h₄, h₅, h₆, h₈⟩

theorem verifySignedUnbindRecord_ok {request : UnbindRequest}
    (h : verifySignedUnbindRecord env request ns path = .ok record) :
    ∃ m : Mutation env, m.record = record ∧ record.tenantId = request.tenantId ∧ record.ns = ns ∧
      record.path = path ∧ record.kind = (if request.hardDelete then .hardDelete else .unbind) ∧
      record.ifRevision = some request.ifRevision := by
  obtain ⟨ha, -, hv⟩ := verifySignedRecord_ok h
  obtain ⟨h₁, h₂, h₃, h₄, h₅⟩ := of_decide_eq_true ha
  exact ⟨⟨record, hv⟩, rfl, h₁, h₂, h₃, h₄, h₅⟩

/-! ### BIND and UNBIND -/

theorem admits_of_checkBind {m : Mutation env} (hkind : m.record.kind = .bind)
    (hif : m.record.ifRevision = request.ifRevision)
    (hpre : ¬ (request.ifRevision.isNone ∧ !request.ifAbsent))
    (hcheck : checkBind request existing = .ok ()) : m.Admits existing := by
  unfold checkBind at hcheck
  refine ⟨?_, ?_, fun h => absurd hkind h⟩
  · intro v hv
    rw [hif] at hv
    by_contra hne
    have hne' : (existing.map (·.revision)).getD 0 ≠ v.toNat := hne
    by_cases hc : (request.ifAbsent && existing.any (!·.tombstone)) = true
    · simp only [hc, if_true, except_throw, except_error_bind, reduceCtorEq] at hcheck
    · simp [hc, hv, hne'] at hcheck
  · intro hnone hlive
    rw [hif] at hnone
    have habs : request.ifAbsent = true := by simpa [hnone] using hpre
    have hany : existing.any (!·.tombstone) = true := by
      cases existing with
      | none => exact hlive.elim
      | some b =>
        have hb : b.tombstone = false := hlive
        simp [hb]
    simp [habs, hany] at hcheck

/-- What the answer to a mutation says about it. -/
def Mutates (record : NamespaceMutationRecord) (revision : ℕ) (s : Stage env) : Prop :=
  ∃ m r, s = .rest (.done m r) ∧ m.record = record ∧ revision = r

/-- The end of a mutation: the audit record, and the response if it is kept for retries. -/
theorem follows_respond (ρ : Rest env) (t : TenantId) (seq : ℕ) (operation subject : String)
    {l : Loc} (hl : l.isPlain) (v : Val l) (persist : Bool) (response : α) :
    (namespaceProtocol env).FollowsE (do
      writeAudit env t seq operation subject
      if persist then
        writeEncryptedJson l v
      return response) (.rest ρ)
      (fun a s => a = response ∧ s = .rest ρ) fun _ s => s = .broken := by
  refine (Steady.writeAudit _ _ _ _).andThen ?_
  rintro _ _ rfl
  split
  · refine (Steady.writeEncryptedJson hl _).andThen ?_
    rintro _ _ rfl
    exact ⟨rfl, rfl⟩
  · exact ⟨rfl, rfl⟩

theorem follows_bindApply (persist : Bool)
    (hrec : verifySignedBindRecord env request ns path = .ok record) :
    (namespaceProtocol env).FollowsE (bindApply env request ns path record persist) (.rest .idle)
      (fun response s => Mutates record response.revision s) Unmoved := by
  obtain ⟨m, rfl, ht, hn, hp, hkind, htarget, hif, hmeta⟩ := verifySignedBindRecord_ok hrec
  subst hn hp
  unfold bindApply
  rw [← ht]
  by_cases hpre : request.ifRevision.isNone ∧ !request.ifAbsent
  · simp only [rejectIf, if_pos hpre]
    exact .bind (.throw (.inl rfl))
  simp only [rejectIf, if_neg hpre]
  refine .bind (.pure ?_)
  refine (follows_manifestRecord _ _).andThen ?_
  rintro _ _ rfl
  refine follows_checked (f := fun c => checkBind request c.bindings[m.record.path]?)
    (follows_currentState (fun _ hc => .lookBind htarget (admits_of_checkBind hkind hif hpre hc))
      fun _ => .refuse) ?_
  intro c hc
  have h := follows_mutation (m := m) (c := c)
    (k := fun r seq => bindRespond env request m.record.ns m.record.path persist
      ⟨r, m.record.recordCid env, seq⟩)
    (Q := fun response s => Mutates m.record response.revision s)
    (E := Unmoved) (fun _ => .inr rfl)
    fun r seq => (follows_respond _ _ _ _ _ rfl _ _ _).mono ?_ ?_
  · -- What the code writes is what the record says.
    simpa only [Mutation.applyTo, Mutation.effect, Mutation.entry, Mutation.event, hkind,
      htarget, hmeta, if_true, reduceCtorEq, decide_false] using h
  · rintro response _ ⟨rfl, rfl⟩
    exact ⟨m, r, rfl, rfl, rfl⟩
  · rintro _ _ rfl
    exact .inr rfl

theorem admits_of_checkUnbind {m : Mutation env} {request : UnbindRequest}
    (hif : m.record.ifRevision = some request.ifRevision)
    (hcheck : checkUnbind request existing = .ok ()) : m.Admits existing := by
  cases existing with
  | none => cases hcheck
  | some b =>
    have hrev : b.revision = request.ifRevision.toNat := by
      by_contra hne
      simp [checkUnbind, hne] at hcheck
    refine ⟨?_, ?_, fun _ => ⟨nofun, by simp [hif]⟩⟩
    · intro v hv
      obtain rfl : request.ifRevision = v := by simpa [hif] using hv
      exact hrev
    · intro hnone
      simp [hif] at hnone

theorem follows_unbindApply {request : UnbindRequest} (persist : Bool)
    (hrec : verifySignedUnbindRecord env request ns path = .ok record) :
    (namespaceProtocol env).FollowsE (unbindApply env request ns path record persist) (.rest .idle)
      (fun response s => Mutates record response.revision s) Unmoved := by
  obtain ⟨m, rfl, ht, hn, hp, hkind, hif⟩ := verifySignedUnbindRecord_ok hrec
  subst hn hp
  unfold unbindApply
  rw [← ht]
  have hkind' : m.record.kind ≠ .bind := by
    rw [hkind]
    split <;> nofun
  refine follows_checked (f := fun c => checkUnbind request c.bindings[m.record.path]?)
    (follows_currentState (fun _ hc => .lookUnbind hkind' (admits_of_checkUnbind hif hc))
      fun _ => .plain trivial) ?_
  intro c hc
  have h := follows_mutation (m := m) (c := c)
    (k := fun r seq => unbindRespond env request m.record.ns m.record.path persist
      ⟨r, m.record.recordCid env, seq, !request.hardDelete⟩)
    (Q := fun response s => Mutates m.record response.revision s)
    (E := Unmoved) (fun _ => .inr rfl)
    fun r seq => (follows_respond _ _ _ _ _ rfl _ _ _).mono ?_ ?_
  · -- The flag of the request decides between a tombstone and a removal, as the record does.
    cases hh : request.hardDelete <;>
      simp only [hh, if_true, if_false, Bool.false_eq_true, Bool.not_false,
        Bool.not_true] at hkind h ⊢ <;>
      simpa only [Mutation.applyTo, Mutation.effect, Mutation.entry, Mutation.event, hkind,
        if_false, reduceCtorEq, decide_false, decide_true] using h
  · rintro response _ ⟨rfl, rfl⟩
    exact ⟨m, r, rfl, rfl, rfl⟩
  · rintro _ _ rfl
    exact .inr rfl

/-- The mutation a bind asks for: the record is signed, and it names the canonical path. -/
def BindRequest.Asks (request : BindRequest) (m : Mutation env) : Prop :=
  canonicalNamespaceAndPath request.ns request.path = .ok (m.record.ns, m.record.path) ∧
    verifySignedBindRecord env request m.record.ns m.record.path = .ok m.record

/-- The mutation an unbind asks for. -/
def UnbindRequest.Asks (request : UnbindRequest) (m : Mutation env) : Prop :=
  canonicalNamespaceAndPath request.ns request.path = .ok (m.record.ns, m.record.path) ∧
    verifySignedUnbindRecord env request m.record.ns m.record.path = .ok m.record

section Retry

variable (L : (o : Op) → Res o → Prop)

/-- A store that returns what `L` says may have a response for the request. -/
def Stored (t : TenantId) (op : IdempotentOp) (key : String) : Prop :=
  ∃ stored, L (.read (.idempotency t op key)) (.ok (some stored))

theorem follows_storedResponse (t : TenantId) (op : IdempotentOp) (key : String)
    (persist : Bool) (decision : AuthorizationDecision) :
    ((namespaceProtocol env).restrict L).FollowsE (storedResponse t op key persist decision)
      (.rest .idle)
      (fun stored s => s = .rest .idle ∧ (stored.isSome → persist = true ∧ Stored L t op key))
      fun _ s => s = .broken := by
  unfold storedResponse
  split
  · rename_i h
    refine .perform fun r hr => ?_
    rcases r with e | _ | stored
    · exact ⟨.broken, .fail (.plain (r := Except.error e) trivial) rfl, rfl⟩
    · exact ⟨.rest .idle, .next (.plain trivial), rfl, by simp⟩
    · exact ⟨.rest .idle, .next (.plain trivial), rfl, fun _ => ⟨h.1, stored, hr.2⟩⟩
  · exact .pure ⟨rfl, by simp⟩

/-- A request is answered from the stored response, or it is carried out. -/
theorem follows_orStored (t : TenantId) (op : IdempotentOp) (key : String) (persist : Bool)
    (decision : AuthorizationDecision)
    {k : Option (IdempotencyRecord op.Response) → Svc α}
    (hsome : ∀ record, ∃ response, k (some record) = pure response)
    (hnone : (namespaceProtocol env).FollowsE (k none) (.rest .idle) Q Unmoved) :
    ((namespaceProtocol env).restrict L).FollowsE (storedResponse t op key persist decision >>= k)
      (.rest .idle)
      (fun response s => (persist = true ∧ Stored L t op key) ∧ s = .rest .idle ∨ Q response s)
      Unmoved := by
  refine .bind ((follows_storedResponse L t op key persist decision).mono ?_ ?_)
  · rintro stored _ ⟨rfl, hstored⟩
    cases stored with
    | some record =>
      obtain ⟨response, hk⟩ := hsome record
      rw [hk]
      exact .pure (.inl ⟨hstored rfl, rfl⟩)
    | none => exact .mono (.restrict hnone) (fun _ _ h => .inr h) fun _ _ h => h
  · rintro _ _ rfl
    exact .inr rfl

/-- A bind that succeeds has made the mutation it asks for, unless a response was stored for it. -/
theorem follows_bindInternal (auth : AuthContext) (request : BindRequest) (persist : Bool) :
    ((namespaceProtocol env).restrict L).FollowsE (bindInternal env auth request persist)
      (.rest .idle)
      (fun response s => (persist = true ∧ Stored L request.tenantId .bind request.idempotencyKey) ∧
          s = .rest .idle ∨
        ∃ m, s = .rest (.done m response.revision) ∧ request.Asks m) Unmoved := by
  refine .bind (.restrict (follows_ofExcept ?_ fun _ _ => .inl rfl))
  rintro ⟨ns, path⟩ hc
  refine .bind (.restrict (follows_ofExcept ?_ fun _ _ => .inl rfl))
  intro record hv
  refine .andThen (.restrict
    (Quiet.authorizeIdle auth _)) ?_
  rintro decision _ rfl
  refine .weaken (follows_orStored L _ .bind _ persist decision (fun _ => ⟨_, rfl⟩)
    (follows_bindApply persist hv)) ?_
  rintro response _ (h | ⟨m, r, rfl, hm, rfl⟩)
  · exact .inl h
  · obtain ⟨-, -, -, hn, hp, -⟩ := verifySignedBindRecord_ok hv
    subst hm hn hp
    exact .inr ⟨m, rfl, hc, hv⟩

theorem follows_unbindInternal (auth : AuthContext) (request : UnbindRequest) (persist : Bool) :
    ((namespaceProtocol env).restrict L).FollowsE (unbindInternal env auth request persist)
      (.rest .idle)
      (fun response s =>
        (persist = true ∧ Stored L request.tenantId .unbind request.idempotencyKey) ∧
          s = .rest .idle ∨
        ∃ m, s = .rest (.done m response.revision) ∧ request.Asks m) Unmoved := by
  refine .bind (.restrict (follows_ofExcept ?_ fun _ _ => .inl rfl))
  rintro ⟨ns, path⟩ hc
  refine .bind (.restrict (follows_ofExcept ?_ fun _ _ => .inl rfl))
  intro record hv
  refine .andThen (.restrict (Quiet.rejectIf _ _)) ?_
  rintro _ _ rfl
  refine .andThen (.restrict
    (Quiet.authorizeIdle auth _)) ?_
  rintro decision _ rfl
  refine .weaken (follows_orStored L _ .unbind _ persist decision (fun _ => ⟨_, rfl⟩)
    (follows_unbindApply persist hv)) ?_
  rintro response _ (h | ⟨m, r, rfl, hm, rfl⟩)
  · exact .inl h
  · obtain ⟨-, -, -, hn, hp, -⟩ := verifySignedUnbindRecord_ok hv
    subst hm hn hp
    exact .inr ⟨m, rfl, hc, hv⟩

end Retry

/-! ### PUT_COMMIT -/

/-- The mutation a session asks for when it is committed. -/
def UploadSessionRecord.Asks (session : UploadSessionRecord) (request : PutCommitRequest)
    (m : Mutation env) : Prop :=
  ∃ atomicBind, session.atomicBind = some atomicBind ∧
    (atomicBind.toBindRequest request.tenantId session.manifestCid request.idempotencyKey).Asks m

/-- Where a commit that is carried out ends: idle if its session asks for no bind, and after the
mutation the session asks for otherwise. -/
def UploadSessionRecord.EndsIn (session : UploadSessionRecord) (request : PutCommitRequest)
    (s : Stage env) : Prop :=
  session.atomicBind = none ∧ s = .rest .idle ∨
    ∃ m r, s = .rest (.done m r) ∧ session.Asks request m

/-- The bind of a commit has been made when it succeeds; otherwise the namespaces are untouched, or
the store has failed. -/
theorem follows_commitBind (auth : AuthContext) (request : PutCommitRequest)
    (session : UploadSessionRecord) :
    (namespaceProtocol env).FollowsE (commitBind env auth request session) (.rest .idle)
      (fun _ s => session.EndsIn request s) Unmoved := by
  unfold commitBind
  cases hab : session.atomicBind with
  | none => exact .pure (.inl ⟨hab, rfl⟩)
  | some atomicBind =>
    refine .bind (.attempt (.mono (.of_restrict
      (follows_bindInternal (fun _ _ => True) auth _ false)) ?_ ?_))
    · rintro response _ (⟨⟨h, -⟩, -⟩ | ⟨m, rfl, hm⟩)
      · cases h
      · exact .pure (.inr ⟨m, _, rfl, atomicBind, hab, hm⟩)
    · rintro e _ (rfl | rfl)
      · refine .bind (.attempt (.perform fun r _ => ?_))
        rcases r with e' | _
        · exact ⟨.rest .idle, .next (.plain rfl), .inl rfl⟩
        · exact ⟨.rest .idle, .next (.plain rfl), .inl rfl⟩
      · refine .bind (.attempt (.perform fun r _ => ?_))
        rcases r with e' | _
        · exact ⟨.broken, .next (.cleanUp rfl), .inr rfl⟩
        · exact ⟨.broken, .next (.cleanUp rfl), .inr rfl⟩

/-- **An inquiry leaves the namespaces as they are.** -/
theorem Inquiry.quiet {E : ApiError → Prop} {x : Svc α} (h : Inquiry env E x) :
    Quiet (.idle : Rest env) x := by
  induction h with
  | pure a => exact .pure a
  | throw _ => exact .throw _
  | bind _ _ hx hf => exact .bind hx hf
  | nowMs => exact Steady.nowMs.quiet
  | storeExists l => exact (Steady.storeExists l).quiet
  | readEncryptedJson l => exact (Steady.readEncryptedJson l).quiet
  | authorize auth req _ => exact .authorizeIdle auth req

/-- A commit that is carried out and succeeds has made the mutation its session asks for. -/
theorem follows_commitApply (env : Env) (auth : AuthContext) (request : PutCommitRequest)
    (session : UploadSessionRecord) :
    (namespaceProtocol env).FollowsE (putCommitApply env auth request session) (.rest .idle)
      (fun _ s => session.EndsIn request s) Unmoved := by
  refine ((Inquiry.reading auth).checkChunksStored _).quiet.andThen ?_
  rintro _ _ rfl
  refine Steady.nowMs.quiet.andThen ?_
  rintro _ _ rfl
  refine (Steady.writeEncryptedJson rfl _).quiet.andThen ?_
  rintro _ _ rfl
  refine (follows_commitBind auth request session).andThen ?_
  -- Whether or not a path was bound, what remains only fails with the store.
  intro _ s hs
  obtain ⟨ρ, hρ, rfl⟩ : ∃ ρ : Rest env, ρ.Settled ∧ s = .rest ρ := by
    rcases hs with ⟨-, rfl⟩ | ⟨m, r, rfl, -⟩
    · exact ⟨.idle, trivial, rfl⟩
    · exact ⟨.done m r, trivial, rfl⟩
  have htail : ∀ eventSeq, Steady ρ (do
      writeAudit env request.tenantId eventSeq OperationName.putCommit.asStr request.sessionId
      writeEncryptedJson (.sessions request.tenantId request.sessionId)
        { session with committed := true }
      let response : PutCommitResponse :=
        { objectCid := session.manifestCid, committed := true, eventSeq }
      writeEncryptedJson (.idempotency request.tenantId .putCommit request.idempotencyKey)
        ⟨response⟩
      return response) := fun _ =>
    .bind (.writeAudit _ _ _ _) fun _ => .bind (.writeEncryptedJson rfl _) fun _ =>
      .bind (.writeEncryptedJson rfl _) fun _ => .pure _
  refine (Steady.bind .nowMs fun _ => .bind (.appendEvent hρ (.inr rfl)) htail).mono ?_ ?_
  · rintro _ _ rfl
    exact hs
  · rintro _ _ rfl
    exact .inr rfl

/-- A commit that succeeds has made the mutation its session asks for, unless it is the retry of
one or asks for none. -/
theorem follows_putCommitWith (env : Env) (auth : AuthContext) (request : PutCommitRequest)
    (session : UploadSessionRecord) :
    (namespaceProtocol env).FollowsE (putCommitWith env auth request session) (.rest .idle)
      (fun _ s => s = .rest .idle ∨ ∃ m r, s = .rest (.done m r) ∧ session.Asks request m)
      Unmoved := by
  refine (Quiet.rejectIf _ _).andThen ?_
  rintro _ _ rfl
  refine (Quiet.authorizeIdle auth _).andThen ?_
  rintro decision _ rfl
  refine ((Inquiry.reading auth).storedResponse _ _ _ _).quiet.andThen ?_
  rintro stored _ rfl
  cases stored with
  | some stored => exact FollowsE.pure (.inl rfl)
  | none =>
    refine (follows_commitApply env auth request session).weaken ?_
    rintro _ s (⟨-, rfl⟩ | h)
    · exact .inl rfl
    · exact .inr h

/-! ### The other uploads -/

theorem Quiet.putInit (auth : AuthContext) (request : PutInitRequest) :
    Quiet (.idle : Rest env) (putInit env auth request) := by
  refine .bind (.ofExcept _) fun _ => .bind (.authorizeIdle auth _) fun _ =>
    .bind ((Inquiry.reading auth).storedResponse _ _ _ _).quiet fun stored => ?_
  cases stored with
  | some stored => exact .pure _
  | none =>
    exact .bind ((Inquiry.reading auth).missingChunks _).quiet fun _ =>
      .bind Steady.nowMs.quiet fun _ => .bind Steady.nowMs.quiet fun _ =>
      .bind (Steady.writeEncryptedJson rfl _).quiet fun _ =>
      .bind (Steady.writeEncryptedJson rfl _).quiet fun _ => .pure _

theorem Quiet.putChunk (auth : AuthContext) (request : PutChunkRequest) (chunk : List UInt8) :
    Quiet (.idle : Rest env) (putChunk env auth request chunk) := by
  refine .bind (.rejectIf _ _) fun _ =>
    .bind ((Inquiry.reading auth).uploadSession _).quiet fun _ => .bind (.ofExcept _) fun _ =>
    .bind (.authorizeIdle auth _) fun _ => .bind (Steady.storeExists _).quiet fun _ =>
    .bind ?_ fun _ => .bind (Steady.writeEncryptedJson rfl _).quiet fun _ => .pure _
  exact .ite (.pure _) (Steady.writeEncryptedJson rfl _).quiet

/-! ### All calls -/

/-- The mutation a call asks for.  A commit asks for what its session asks for. -/
def Call.Asks (m : Mutation env) : Call → Prop
  | .bind _ request => request.Asks m
  | .unbind _ request => request.Asks m
  | .putCommit _ request => ∃ session : UploadSessionRecord, session.Asks request m
  | _ => False

/-- **Every call follows the protocol**: it ends idle, or after one mutation it asked for if it
succeeds, or after a failure of the store. -/
theorem follows_handle (env : Env) (c : Call) :
    (namespaceProtocol env).FollowsE (c.handle env) (.rest .idle)
      (fun reply s => s = .rest .idle ∨ ∃ m r, s = .rest (.done m r) ∧ c.Asks m ∧
        ∀ r', reply.revision? = some r' → r' = r) Unmoved := by
  have quiet : ∀ {x : Svc Reply} {Q : Reply → Mutation env → ℕ → Prop},
      Quiet (.idle : Rest env) x →
      (namespaceProtocol env).FollowsE x (.rest .idle)
        (fun reply s => s = .rest .idle ∨ ∃ m r, s = .rest (.done m r) ∧ Q reply m r) Unmoved :=
    fun hx => hx.mono (fun _ _ h => .inl h) fun _ _ h => h
  cases c with
  | putInit auth request => exact quiet ((Quiet.putInit auth request).map _)
  | putChunk auth request chunk => exact quiet ((Quiet.putChunk auth request chunk).map _)
  | putCommit auth request =>
    refine FollowsE.map (FollowsE.bind (((Inquiry.reading auth).uploadSession _).quiet.mono ?_
      fun _ _ h => h))
    rintro session _ rfl
    refine (follows_putCommitWith env auth request session).weaken ?_
    rintro _ _ (h | ⟨m, r, h, hm⟩)
    · exact .inl h
    · exact .inr ⟨m, r, h, ⟨session, hm⟩, nofun⟩
  | bind auth request =>
    refine FollowsE.map (FollowsE.weaken (FollowsE.of_restrict
      (follows_bindInternal (fun _ _ => True) auth request true)) ?_)
    rintro _ _ (⟨-, h⟩ | ⟨m, h, hm⟩)
    · exact .inl h
    · exact .inr ⟨m, _, h, hm, fun _ h => (Option.some.inj h).symm⟩
  | unbind auth request =>
    refine FollowsE.map (FollowsE.weaken (FollowsE.of_restrict
      (follows_unbindInternal (fun _ _ => True) auth request true)) ?_)
    rintro _ _ (⟨-, h⟩ | ⟨m, h, hm⟩)
    · exact .inl h
    · exact .inr ⟨m, _, h, hm, fun _ h => (Option.some.inj h).symm⟩
  | _ => exact quiet (Inquiry.quiet ((Inquiry.reading _).call (by trivial)))

end Hsp
