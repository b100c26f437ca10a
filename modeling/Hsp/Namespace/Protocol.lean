import Hsp.Namespace.History
import Hsp.Prog.Protocol
import Hsp.Service.Call

/-!
# The protocol of namespace mutations

Every call of the service touches namespaces in one way: it looks at the current state of a
namespace, takes a revision, writes the new state, appends to the journal and appends an event.
Everything else it does is *plain*: it touches neither a namespace nor the event log, or it appends
an event that is not about a namespace.

`namespaceProtocol` is this protocol.  Its stages record what the call has read and what remains to
be written; an operation that fails leads to the stage `broken`, from which the call only answers
with an error (and removes a manifest).  The second half of the module shows that the calls follow
it.
-/

namespace Hsp

variable {env : Env}

/-- Entries of the store that belong neither to a namespace nor to the event log. -/
def Loc.isPlain : Loc → Bool
  | .sessions _ _ | .chunks _ _ | .manifests _ _ | .audit _ _ | .idempotency _ _ _ | .replay _ _ =>
    true
  | .namespaceCurrent _ _ | .namespaceJournal _ _ | .namespaceRevisions _ _ | .eventSequence _
  | .event _ _ => false

namespace Op

/-- Operations that change neither a namespace nor the event log. -/
def Plain : Op → Prop
  | .now | .observe _ _ | .read _ | .exists _ => True
  | .write l _ | .create l _ | .delete l => l.isPlain

end Op

/-- What a call has done to its namespace when it is not in the middle of a mutation or an event. -/
inductive Rest (env : Env) where
  /-- Nothing yet. -/
  | idle
  /-- The mutation is in the current state and in the journal, but not in the event log. -/
  | journaled (m : Mutation env) (r : ℕ)
  /-- The mutation is complete. -/
  | done (m : Mutation env) (r : ℕ)

namespace Rest

/-- The events a call may append. -/
def Emits : Rest env → TenantId → EventRecord → Prop
  | .journaled m r, t, e => t = m.record.tenantId ∧ ∃ atMs, e = m.event r e.seq atMs
  | .idle, _, e | .done _ _, _, e => e.eventType = .authDenied ∨ e.eventType = .objectCommitted

/-- What an event leads to. -/
def emitted : Rest env → Rest env
  | .journaled m r => .done m r
  | ρ => ρ

/-- No event about a namespace is due. -/
def Settled : Rest env → Prop
  | .journaled _ _ => False
  | .idle | .done _ _ => True

end Rest

/-- How far a call has come. -/
inductive Stage (env : Env) where
  | rest (ρ : Rest env)
  /-- The manifest that is to be bound has been found. -/
  | located (t : TenantId) (cid : String)
  /-- The current state `c` admits the mutation. -/
  | looked (m : Mutation env) (c : NamespaceCurrentState)
  /-- The next revision is `r`. -/
  | numbered (m : Mutation env) (c : NamespaceCurrentState) (r : ℕ)
  /-- The revision `r` has been taken. -/
  | claimed (m : Mutation env) (c : NamespaceCurrentState) (r : ℕ)
  /-- The new current state has been written. -/
  | applied (m : Mutation env) (r : ℕ)
  /-- The journal is `j`. -/
  | appending (m : Mutation env) (r : ℕ) (j : List NamespaceJournalEntry)
  /-- The next sequence number of the event log is `seq`. -/
  | sequencing (ρ : Rest env) (t : TenantId) (seq : ℕ)
  /-- The sequence number `seq` has been taken. -/
  | sequenced (ρ : Rest env) (t : TenantId) (seq : ℕ)
  /-- The store has failed. -/
  | broken

namespace Stage

/-- What an operation that succeeds leads to. -/
inductive Next : Stage env → (o : Op) → Res o → Stage env → Prop
  | plain {ρ : Rest env} {o : Op} {r : Res o} (h : o.Plain) : Next (.rest ρ) o r (.rest ρ)
  | locate {t : TenantId} {cid : String} {v : ManifestRecord} :
      Next (.rest .idle) (.read (.manifests t cid)) (.ok (some v)) (.located t cid)
  | refuse {t : TenantId} {cid : String} {l : Loc} {r : Res (.read l)} :
      Next (.located t cid) (.read l) r (.rest .idle)
  | lookBind {m : Mutation env} {cid : String} {c : Option NamespaceCurrentState}
      (hcid : m.record.targetCid = some cid)
      (hadm : m.Admits (c.getD (.initial m.record.ns)).bindings[m.record.path]?) :
      Next (.located m.record.tenantId cid)
        (.read (.namespaceCurrent m.record.tenantId m.record.ns)) (.ok c)
        (.looked m (c.getD (.initial m.record.ns)))
  | lookUnbind {m : Mutation env} {c : Option NamespaceCurrentState}
      (hkind : m.record.kind ≠ .bind)
      (hadm : m.Admits (c.getD (.initial m.record.ns)).bindings[m.record.path]?) :
      Next (.rest .idle) (.read (.namespaceCurrent m.record.tenantId m.record.ns)) (.ok c)
        (.looked m (c.getD (.initial m.record.ns)))
  | number {m : Mutation env} {c : NamespaceCurrentState} {v : Option NamespaceRevisionState} :
      Next (.looked m c) (.read (.namespaceRevisions m.record.tenantId m.record.ns)) (.ok v)
        (.numbered m c (v.getD ⟨1⟩).nextRevision)
  | claim {m : Mutation env} {c : NamespaceCurrentState} {r : ℕ} :
      Next (.numbered m c r) (.write (.namespaceRevisions m.record.tenantId m.record.ns) ⟨r + 1⟩)
        (.ok ()) (.claimed m c r)
  | apply {m : Mutation env} {c : NamespaceCurrentState} {r : ℕ} :
      Next (.claimed m c r)
        (.write (.namespaceCurrent m.record.tenantId m.record.ns) (m.applyTo r c)) (.ok ())
        (.applied m r)
  | fetch {m : Mutation env} {r : ℕ} {j : Option (List NamespaceJournalEntry)} :
      Next (.applied m r) (.read (.namespaceJournal m.record.tenantId m.record.ns)) (.ok j)
        (.appending m r (j.getD []))
  | append {m : Mutation env} {r : ℕ} {j : List NamespaceJournalEntry} :
      Next (.appending m r j)
        (.write (.namespaceJournal m.record.tenantId m.record.ns) (j ++ [m.entry r])) (.ok ())
        (.rest (.journaled m r))
  | sequence {ρ : Rest env} {t : TenantId} {v : Option SequenceState} :
      Next (.rest ρ) (.read (.eventSequence t)) (.ok v) (.sequencing ρ t (v.getD ⟨1⟩).nextSeq)
  | advance {ρ : Rest env} {t : TenantId} {seq : ℕ} :
      Next (.sequencing ρ t seq) (.write (.eventSequence t) ⟨seq + 1⟩) (.ok ())
        (.sequenced ρ t seq)
  | emit {ρ : Rest env} {t : TenantId} {e : EventRecord} (h : ρ.Emits t e) :
      Next (.sequenced ρ t e.seq) (.write (.event t e.seq) e) (.ok ()) (.rest ρ.emitted)
  | cleanUp {o : Op} {r : Res o} (h : o.Plain) : Next .broken o r .broken

/-- A transition: the operation succeeds, or it fails. -/
inductive Step : Stage env → (o : Op) → Res o → Stage env → Prop
  | next {s s' : Stage env} {o : Op} {r : Res o} (h : Next s o r s') : Step s o r s'
  | fail {s s' : Stage env} {o : Op} {r r' : Res o} (h : Next s o r' s') (hf : o.Failed r) :
      Step s o r .broken

end Stage

/-- The protocol of namespace mutations. -/
@[reducible] def namespaceProtocol (env : Env) : Protocol storeSig where
  Stage := Stage env
  Legal _ _ := True
  Step := Stage.Step

/-! ### Programs that leave the namespaces alone -/

section Quiet

open Protocol

variable {ρ : Rest env} {α β : Type} {x : Svc α}

/-- The program leaves the namespaces as they are; it may append events that are not about
namespaces. -/
def Quiet (ρ : Rest env) (x : Svc α) : Prop :=
  (namespaceProtocol env).FollowsE x (.rest ρ) (fun _ s => s = .rest ρ)
    fun _ s => s = .rest ρ ∨ s = .broken

/-- A quiet program that answers with an error only when the store fails. -/
def Steady (ρ : Rest env) (x : Svc α) : Prop :=
  (namespaceProtocol env).FollowsE x (.rest ρ) (fun _ s => s = .rest ρ) fun _ s => s = .broken

namespace Steady

theorem quiet (h : Steady ρ x) : Quiet ρ x := h.mono (fun _ _ h => h) fun _ _ => .inr

theorem pure (a : α) : Steady ρ (pure a : Svc α) := rfl

theorem bind {f : α → Svc β} (hx : Steady ρ x) (hf : ∀ a, Steady ρ (f a)) : Steady ρ (x >>= f) :=
  FollowsE.bind (hx.mono (by rintro a s rfl; exact hf a) fun _ _ h => h)

theorem nowMs : Steady ρ nowMs :=
  .lift (.perform fun _ _ => ⟨.rest ρ, .next (.plain trivial), rfl⟩)

theorem storeExists (l : Loc) : Steady ρ (storeExists l) :=
  .lift (.perform fun _ _ => ⟨.rest ρ, .next (.plain trivial), rfl⟩)

theorem readEncryptedJson (l : Loc) : Steady ρ (readEncryptedJson l) := by
  refine .perform fun r _ => ?_
  cases r with
  | ok v => exact ⟨.rest ρ, .next (.plain trivial), rfl⟩
  | error e => exact ⟨.broken, .fail (.plain (r := Except.error e) trivial) rfl, rfl⟩

theorem writeEncryptedJson {l : Loc} (hl : l.isPlain) (v : Val l) :
    Steady ρ (writeEncryptedJson l v) := by
  refine .perform fun r _ => ?_
  cases r with
  | ok v => exact ⟨.rest ρ, .next (.plain hl), rfl⟩
  | error e => exact ⟨.broken, .fail (.plain (r := Except.error e) hl) rfl, rfl⟩

theorem createEncryptedJson {l : Loc} (hl : l.isPlain) (v : Val l) :
    Steady ρ (createEncryptedJson l v) := by
  refine .perform fun r _ => ?_
  cases r with
  | ok v => exact ⟨.rest ρ, .next (.plain hl), rfl⟩
  | error e => exact ⟨.broken, .fail (.plain (r := Except.error e) hl) rfl, rfl⟩

theorem writeAudit (t : TenantId) (seq : ℕ) (operation subject : String) :
    Steady ρ (writeAudit env t seq operation subject) :=
  .bind .nowMs fun _ => .writeEncryptedJson rfl _

end Steady

namespace Quiet

theorem pure (a : α) : Quiet ρ (pure a : Svc α) := rfl

theorem throw (e : ApiError) : Quiet ρ (throw e : Svc α) := .inl rfl

theorem bind {f : α → Svc β} (hx : Quiet ρ x) (hf : ∀ a, Quiet ρ (f a)) : Quiet ρ (x >>= f) :=
  FollowsE.bind (hx.mono (by rintro a s rfl; exact hf a) fun _ _ h => h)

theorem map (f : α → β) (hx : Quiet ρ x) : Quiet ρ (f <$> x) :=
  FollowsE.map hx

theorem ofExcept (x : Except ApiError α) : Quiet ρ (Hsp.ofExcept x) := by
  cases x with
  | ok a => exact rfl
  | error e => exact .inl rfl

theorem rejectIf (c : Prop) [Decidable c] (e : ApiError) : Quiet ρ (Hsp.rejectIf c e) := by
  unfold Hsp.rejectIf
  split
  · exact .throw e
  · exact .pure ()

theorem ite {c : Prop} [Decidable c] {y : Svc α} (hx : Quiet ρ x) (hy : Quiet ρ y) :
    Quiet ρ (if c then x else y) := by
  split
  · exact hx
  · exact hy

end Quiet

/-! ### Events -/

/-- Appending an event takes a sequence number and writes the event under it. -/
theorem follows_appendEvent {t : TenantId} {e : EventRecord}
    (he : ∀ seq, ρ.Emits t { e with seq }) :
    (namespaceProtocol env).FollowsE (appendEvent t e) (.rest ρ) (fun _ s => s = .rest ρ.emitted)
      fun _ s => s = .broken := by
  refine .bind (.bind (.perform fun v _ => ?_))
  cases v with
  | error e => exact ⟨.broken, .fail (.sequence (v := none)) rfl, rfl⟩
  | ok v =>
    refine ⟨_, .next .sequence, .bind (.perform fun r _ => ?_)⟩
    cases r with
    | error e => exact ⟨.broken, .fail .advance rfl, rfl⟩
    | ok _ =>
      refine ⟨_, .next .advance, .bind (.perform fun r _ => ?_)⟩
      cases r with
      | error e => exact ⟨.broken, .fail (.emit (he _)) rfl, rfl⟩
      | ok _ => exact ⟨_, .next (.emit (he _)), rfl⟩

theorem Steady.appendEvent (hρ : ρ.Settled) {t : TenantId} {e : EventRecord}
    (he : e.eventType = .authDenied ∨ e.eventType = .objectCommitted) :
    Steady ρ (appendEvent t e) := by
  cases ρ with
  | journaled m r => exact hρ.elim
  | idle => exact follows_appendEvent fun _ => he
  | done m r => exact follows_appendEvent fun _ => he

/-! ### Authorization -/

/-- A denial appends its event, if it can, and is an error in any case. -/
theorem Quiet.denied (hρ : ρ.Settled) (req : AuthRequestMeta) (reason : DenialReason) :
    Quiet ρ (deny req reason : Svc α) := by
  refine FollowsE.bind ?_
  refine Steady.nowMs.quiet.andThen ?_
  rintro atMs _ rfl
  refine .bind (.attempt ((Steady.appendEvent hρ (.inl rfl)).mono ?_ ?_))
  · rintro _ _ rfl; exact .inl rfl
  · rintro _ _ rfl; exact .inr rfl

theorem Quiet.observeDurableReplay (hρ : ρ.Settled) (auth : AuthContext) (req : AuthRequestMeta)
    (decision : AuthorizationDecision) :
    Quiet ρ (observeDurableReplay env auth req decision) := by
  unfold Hsp.observeDurableReplay
  refine .ite (.pure _) ?_
  split
  · exact .pure _
  · refine .bind Steady.nowMs.quiet fun _ => ?_
    refine .bind (Steady.createEncryptedJson rfl _).quiet fun _ => ?_
    refine .ite (.pure _) (.bind (Steady.readEncryptedJson _).quiet fun existing => ?_)
    cases existing with
    | none => exact .throw _
    | some existing => exact .ite (.pure _) (.denied hρ _ _)

theorem Quiet.authorize (hρ : ρ.Settled) (auth : AuthContext) (req : AuthRequestMeta) :
    Quiet ρ (authorize env auth req) := by
  have hpolicy : Quiet ρ (ExceptT.lift (policyAuthorize auth req)) := by
    refine .lift (.bind (.perform fun now _ => ?_))
    refine ⟨.rest ρ, .next (.plain trivial), ?_⟩
    cases checkClaims now auth req with
    | error reason => rfl
    | ok _ =>
      cases auth.claims.jti with
      | none => rfl
      | some jti =>
        dsimp only
        split
        · rfl
        · exact .bind (.perform fun _ _ => ⟨.rest ρ, .next (.plain trivial), rfl⟩)
  refine .bind hpolicy fun result => ?_
  cases result with
  | error reason => exact .denied hρ req reason
  | ok decision => exact .observeDurableReplay hρ auth req decision

theorem Quiet.authorizeIdle (auth : AuthContext) (req : AuthRequestMeta) :
    Quiet (.idle : Rest env) (Hsp.authorize env auth req) :=
  Quiet.authorize (ρ := .idle) trivial auth req

theorem follows_ofExcept {x : Except ApiError α} {s : Stage env} {Q : α → Stage env → Prop}
    {E : ApiError → Stage env → Prop} (hok : ∀ a, x = .ok a → Q a s)
    (herr : ∀ e, x = .error e → E e s) :
    (namespaceProtocol env).FollowsE (ofExcept x) s Q E := by
  cases x with
  | ok a => exact hok a rfl
  | error e => exact herr e rfl

end Quiet

end Hsp
