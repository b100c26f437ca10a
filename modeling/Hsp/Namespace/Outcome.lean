import Hsp.Namespace.Follows

/-!
# What a call does to the namespaces

Read off the protocol: a call that runs alone on a store that does not fail leaves every namespace
as it was, or it makes exactly one mutation and succeeds.

* `Call.outcome` : the two cases, for every call and every world.
-/

namespace Hsp

variable {env : Env} {l : Loc} {w w' w₀ : World} {o : Op} {m : Mutation env} {G : Op → World → Prop}
  {v : Option (Val l)}

/-! ### The namespaces of a world -/

namespace World

variable (w : World) (t : TenantId) (n : String)

/-- The current state of a namespace. -/
def current : NamespaceCurrentState := (w.store (.namespaceCurrent t n)).getD (.initial n)

/-- The journal of a namespace. -/
def journal : List NamespaceJournalEntry := (w.store (.namespaceJournal t n)).getD []

/-- The revision the next mutation of a namespace is given. -/
def nextRevision : ℕ := ((w.store (.namespaceRevisions t n)).getD ⟨1⟩).nextRevision

/-- What a path is bound to. -/
def binding (p : String) : Option NamespaceBindingState := (w.current t n).bindings[p]?

variable {w t n}

theorem set_current_of_ne (hl : .namespaceCurrent t n ≠ l) :
    (w.set l v).current t n = w.current t n := by
  rw [current, set_store_of_ne _ hl, current]

theorem set_nextRevision_of_ne (hl : .namespaceRevisions t n ≠ l) :
    (w.set l v).nextRevision t n = w.nextRevision t n := by
  rw [nextRevision, set_store_of_ne _ hl, nextRevision]

end World

/-- Entries of the store that make up a namespace. -/
def Loc.isNamespace : Loc → Bool
  | .namespaceCurrent _ _ | .namespaceJournal _ _ | .namespaceRevisions _ _ => true
  | _ => false

/-- Two worlds have the same namespaces. -/
def SameNamespaces (w w' : World) : Prop := ∀ l : Loc, l.isNamespace → w'.store l = w.store l

theorem SameOn.sameNamespaces (h : SameOn Loc.isData w w') : SameNamespaces w w' :=
  h.mono fun l hl => by cases l <;> first | rfl | cases hl

namespace SameNamespaces

variable {w w' : World}

@[refl] theorem refl (w : World) : SameNamespaces w w := fun _ _ => rfl

theorem trans {w₁ : World} (h : SameNamespaces w w₁) (h' : SameNamespaces w₁ w') :
    SameNamespaces w w' :=
  fun l hl => (h' l hl).trans (h l hl)

theorem current (h : SameNamespaces w w') (t : TenantId) (n : String) :
    w'.current t n = w.current t n := by
  rw [World.current, h (.namespaceCurrent t n) rfl, World.current]

theorem binding (h : SameNamespaces w w') (t : TenantId) (n p : String) :
    w'.binding t n p = w.binding t n p := by
  rw [World.binding, h.current, World.binding]

theorem journal (h : SameNamespaces w w') (t : TenantId) (n : String) :
    w'.journal t n = w.journal t n := by
  rw [World.journal, h (.namespaceJournal t n) rfl, World.journal]

theorem nextRevision (h : SameNamespaces w w') (t : TenantId) (n : String) :
    w'.nextRevision t n = w.nextRevision t n := by
  rw [World.nextRevision, h (.namespaceRevisions t n) rfl, World.nextRevision]

theorem set (h : SameNamespaces w w') (l : Loc) (v : Option (Val l)) :
    SameNamespaces (w.set l v) (w'.set l v) := by
  intro l' hl'
  by_cases he : l' = l
  · subst he; simp
  · rw [World.set_store_of_ne _ he, World.set_store_of_ne _ he, h l' hl']

theorem set_right (h : SameNamespaces w w') (hl : l.isNamespace = false) (v : Option (Val l)) :
    SameNamespaces w (w'.set l v) :=
  SameOn.set (D := Loc.isNamespace) h hl v

end SameNamespaces

/-! ### One mutation -/

namespace World

variable (w : World) (m : Mutation env)

/-- The revision a mutation would be given. -/
def revisionFor : ℕ := w.nextRevision m.record.tenantId m.record.ns

/-- The state a mutation would be applied to. -/
def stateFor : NamespaceCurrentState := w.current m.record.tenantId m.record.ns

/-- What the path of a mutation holds. -/
def existingFor : Option NamespaceBindingState := (w.stateFor m).bindings[m.record.path]?

/-- The revision of a mutation has been taken. -/
def claim : World :=
  w.set (.namespaceRevisions m.record.tenantId m.record.ns) (some ⟨w.revisionFor m + 1⟩)

/-- The mutation has been applied to the current state. -/
def apply : World :=
  (w.claim m).set (.namespaceCurrent m.record.tenantId m.record.ns)
    (some (m.applyTo (w.revisionFor m) (w.stateFor m)))

/-- The mutation has been appended to the journal as well. -/
def mutate : World :=
  (w.apply m).set (.namespaceJournal m.record.tenantId m.record.ns)
    (some (w.journal m.record.tenantId m.record.ns ++ [m.entry (w.revisionFor m)]))

end World

/-! ### The stages of a call, seen in the world -/

/-- What the namespaces of a world look like when a call that started in `w₀` is in a stage. -/
def NamespacesAt (w₀ : World) : Stage env → World → Prop
  | .rest .idle, w | .located _ _, w | .sequencing .idle _ _, w | .sequenced .idle _ _, w =>
    SameNamespaces w₀ w
  | .looked m c, w => SameNamespaces w₀ w ∧ c = w₀.stateFor m ∧ m.Admits (w₀.existingFor m)
  | .numbered m c r, w =>
    SameNamespaces w₀ w ∧ c = w₀.stateFor m ∧ m.Admits (w₀.existingFor m) ∧ r = w₀.revisionFor m
  | .claimed m c r, w =>
    SameNamespaces (w₀.claim m) w ∧ c = w₀.stateFor m ∧ m.Admits (w₀.existingFor m) ∧
      r = w₀.revisionFor m
  | .applied m r, w =>
    SameNamespaces (w₀.apply m) w ∧ m.Admits (w₀.existingFor m) ∧ r = w₀.revisionFor m
  | .appending m r j, w =>
    SameNamespaces (w₀.apply m) w ∧ m.Admits (w₀.existingFor m) ∧ r = w₀.revisionFor m ∧
      j = w₀.journal m.record.tenantId m.record.ns
  | .rest (.journaled m r), w | .rest (.done m r), w
  | .sequencing (.journaled m r) _ _, w | .sequencing (.done m r) _ _, w
  | .sequenced (.journaled m r) _ _, w | .sequenced (.done m r) _ _, w =>
    SameNamespaces (w₀.mutate m) w ∧ m.Admits (w₀.existingFor m) ∧ r = w₀.revisionFor m
  | .broken, w =>
    SameNamespaces w₀ w ∨ (∃ m : Mutation env, SameNamespaces (w₀.claim m) w) ∨
      ∃ m : Mutation env, SameNamespaces (w₀.mutate m) w ∧ m.Admits (w₀.existingFor m)

theorem isNamespace_eq_false (l : Loc) (h : l.isPlain) : l.isNamespace = false := by
  cases l <;> first | rfl | cases h

/-- Plain operations leave entries alone that are not plain. -/
theorem Op.Plain.spares {D : Loc → Bool} (hD : ∀ l : Loc, l.isPlain → D l = false) (ho : o.Plain) :
    o.Spares D := by
  cases o with
  | write l v => exact hD l ho
  | create l v => exact hD l ho
  | delete l => exact hD l ho
  | _ => trivial

theorem SameNamespaces.exec_plain (env : Env) (h : SameNamespaces w w') (ho : o.Plain) :
    SameNamespaces w (exec env o w').2 :=
  SameOn.exec (D := Loc.isNamespace) h (ho.spares isNamespace_eq_false)

/-- The current state a call has read is the one it started from. -/
theorem looked {c : Option NamespaceCurrentState} (h : SameNamespaces w₀ w)
    (hr : (exec env (.read (.namespaceCurrent m.record.tenantId m.record.ns)) w).1 = .ok c)
    (hadm : m.Admits (c.getD (.initial m.record.ns)).bindings[m.record.path]?) :
    NamespacesAt w₀ (.looked m (c.getD (.initial m.record.ns))) w := by
  have hc : c.getD (.initial m.record.ns) = w₀.stateFor m := by
    rw [← Except.ok.inj hr]
    exact h.current _ _
  exact ⟨h, hc, by rwa [hc] at hadm⟩

/-- **A step of the protocol, in the world.** -/
theorem NamespacesAt.next {s s' : Stage env} (h : NamespacesAt w₀ s w)
    (hn : s.Next o (exec env o w).1 s') : NamespacesAt w₀ s' (exec env o w).2 := by
  generalize hr : (exec env o w).1 = r at hn
  cases hn with
  | @plain ρ o _ ho =>
    cases ρ with
    | idle => exact SameNamespaces.exec_plain env h ho
    | journaled m r => exact ⟨h.1.exec_plain env ho, h.2⟩
    | done m r => exact ⟨h.1.exec_plain env ho, h.2⟩
  | locate => exact h
  | refuse => exact h
  | lookBind hcid hadm => exact looked h hr hadm
  | lookUnbind hkind hadm => exact looked h hr hadm
  | number =>
    obtain ⟨hsame, hc, hadm⟩ := h
    refine ⟨hsame, hc, hadm, ?_⟩
    rw [← Except.ok.inj hr]
    exact hsame.nextRevision _ _
  | claim =>
    obtain ⟨hsame, hc, hadm, rfl⟩ := h
    exact ⟨hsame.set _ _, hc, hadm, rfl⟩
  | apply =>
    obtain ⟨hsame, rfl, hadm, rfl⟩ := h
    exact ⟨hsame.set _ _, hadm, rfl⟩
  | @fetch m r j =>
    obtain ⟨hsame, hadm, hrev⟩ := h
    refine ⟨hsame, hadm, hrev, ?_⟩
    rw [← Except.ok.inj hr]
    exact (hsame.journal _ _).trans (by simp [World.apply, World.claim, World.journal])
  | append =>
    -- The journal that was read is still the one that is stored.
    obtain ⟨hsame, hadm, rfl, rfl⟩ := h
    exact ⟨hsame.set _ _, hadm, rfl⟩
  | @sequence ρ t v => cases ρ <;> exact h
  | @advance ρ t seq =>
    cases ρ with
    | idle => exact SameNamespaces.set_right h rfl _
    | journaled m r => exact ⟨h.1.set_right rfl _, h.2⟩
    | done m r => exact ⟨h.1.set_right rfl _, h.2⟩
  | @emit ρ t e he =>
    cases ρ with
    | idle => exact SameNamespaces.set_right h rfl _
    | journaled m r => exact ⟨h.1.set_right rfl _, h.2⟩
    | done m r => exact ⟨h.1.set_right rfl _, h.2⟩
  | cleanUp ho =>
    rcases h with h | ⟨m, h⟩ | ⟨m, h, hadm⟩
    · exact .inl (h.exec_plain env ho)
    · exact .inr (.inl ⟨m, h.exec_plain env ho⟩)
    · exact .inr (.inr ⟨m, h.exec_plain env ho, hadm⟩)

theorem Stage.Next.ne_broken {s s' : Stage env} {r : Res o} (h : s.Next o r s') (hs : s ≠ .broken) :
    s' ≠ .broken := by
  cases h <;> first | exact hs | nofun

/-! ### The outcome of a call -/

/-- **The invariant rule for programs that follow the protocol** on a store that does not fail:
what every step keeps holds when the program has ended. -/
theorem run_of_follows {α : Type} {x : Svc α} {Q : α → Stage env → Prop}
    {E : ApiError → Stage env → Prop} (h : (namespaceProtocol env).FollowsE x (.rest .idle) Q E)
    {I : Stage env → World → Prop} (hstart : I (.rest .idle) w)
    (hstep : ∀ s o s' w', s ≠ .broken → NamespacesAt w s w' → I s w' → G o w' →
      s.Next o (exec env o w').1 s' → I s' (exec env o w').2)
    (hG : Prog.Always (exec env) G x.run w) :
    ∃ s, s ≠ .broken ∧ (namespaceProtocol env).post Q E (runE (exec env) x w).1 s ∧
      NamespacesAt w s (runE (exec env) x w).2 ∧ I s (runE (exec env) x w).2 := by
  have hkeep : ∀ s o s' w', (s ≠ .broken ∧ NamespacesAt w s w' ∧ I s w') → G o w' →
      Stage.Step s o (exec env o w').1 s' →
      s' ≠ .broken ∧ NamespacesAt w s' (exec env o w').2 ∧ I s' (exec env o w').2 := by
    rintro s o s' w' ⟨hs, hat, hI⟩ hG hst
    rcases hst with hn | ⟨-, hf⟩
    · exact ⟨hn.ne_broken hs, hat.next hn, hstep _ _ _ _ hs hat hI hG hn⟩
    · -- The store does not fail, so the stage `broken` is never entered.
      exact absurd hf (not_failed_exec env _ w')
  obtain ⟨s, hpost, hs, hat, hI⟩ := h.run (exec env)
    (I := fun (s : Stage env) w' => s ≠ .broken ∧ NamespacesAt w s w' ∧ I s w')
    (fun _ _ _ _ => trivial) hkeep ⟨by simp, SameNamespaces.refl w, hstart⟩ hG
  exact ⟨s, hs, hpost, hat, hI⟩

/-- The rule for calls: a call ends idle or after its mutation. -/
theorem Call.run_invariant (env : Env) (c : Call) {I : Stage env → World → Prop}
    (hstart : I (.rest .idle) w)
    (hstep : ∀ s o s' w', s ≠ .broken → NamespacesAt w s w' → I s w' → G o w' →
      s.Next o (exec env o w').1 s' → I s' (exec env o w').2)
    (hG : Prog.Always (exec env) G (c.handle env).run w) :
    (SameNamespaces w (c.perform env w).2 ∧ I (.rest .idle) (c.perform env w).2) ∨
      ∃ m r, SameNamespaces (w.mutate m) (c.perform env w).2 ∧
        I (.rest (.done m r)) (c.perform env w).2 := by
  obtain ⟨s, hs, hpost, hat, hI⟩ := run_of_follows (follows_handle env c) hstart hstep hG
  change (namespaceProtocol env).post _ _ (c.perform env w).1 s at hpost
  cases hres : (c.perform env w).1 with
  | ok reply =>
    rw [hres] at hpost
    rcases hpost with rfl | ⟨m, r, rfl, -⟩
    · exact .inl ⟨hat, hI⟩
    · exact .inr ⟨m, r, hat.1, hI⟩
  | error e =>
    rw [hres] at hpost
    rcases hpost with rfl | rfl
    · exact .inl ⟨hat, hI⟩
    · exact absurd rfl hs

/-- A program that ends idle or after one mutation leaves the namespaces alone, or it succeeds and
has made the mutation. -/
theorem outcome_of_follows {α : Type} {x : Svc α} {Q : α → Mutation env → ℕ → Prop}
    (h : (namespaceProtocol env).FollowsE x (.rest .idle)
      (fun a s => s = .rest .idle ∨ ∃ m r, s = .rest (.done m r) ∧ Q a m r) Unmoved) (w : World) :
    SameNamespaces w (runE (exec env) x w).2 ∨
      ∃ a m, (runE (exec env) x w).1 = .ok a ∧ Q a m (w.revisionFor m) ∧
        m.Admits (w.existingFor m) ∧ SameNamespaces (w.mutate m) (runE (exec env) x w).2 := by
  obtain ⟨s, hs, hpost, hat, -⟩ := run_of_follows h (w := w) (I := fun _ _ => True) trivial
    (fun _ _ _ _ _ _ _ _ _ => trivial)
    (always_true _ _ _)
  cases hres : (runE (exec env) x w).1 with
  | ok a =>
    rw [hres] at hpost
    rcases hpost with rfl | ⟨m, r, rfl, hQ⟩
    · exact .inl hat
    · obtain ⟨hsame, hadm, rfl⟩ := hat
      exact .inr ⟨a, m, rfl, hQ, hadm, hsame⟩
  | error e =>
    rw [hres] at hpost
    rcases hpost with rfl | rfl
    · exact .inl hat
    · exact absurd rfl hs

/-- The path a mutation is about, and the revision it names. -/
structure Target where
  tenantId : TenantId
  ns : String
  path : String
  ifRevision : Option UInt64
  deriving DecidableEq

/-- The canonical target of a request. -/
def canonicalTarget (tenantId : TenantId) (ns path : String) (ifRevision : Option UInt64) :
    Option Target :=
  match canonicalNamespaceAndPath ns path with
  | .ok (ns, path) => some ⟨tenantId, ns, path, ifRevision⟩
  | .error _ => none

/-- The path a call would change.  A commit changes the path its session names. -/
def Call.target (w : World) : Call → Option Target
  | .bind _ request =>
    canonicalTarget request.tenantId request.ns request.path request.ifRevision
  | .unbind _ request =>
    canonicalTarget request.tenantId request.ns request.path (some request.ifRevision)
  | .putCommit _ request => do
    let session ← w.store (.sessions request.tenantId request.sessionId)
    let atomicBind ← session.atomicBind
    canonicalTarget request.tenantId atomicBind.ns atomicBind.path atomicBind.ifRevision
  | _ => none

def Mutation.target (m : Mutation env) : Target :=
  ⟨m.record.tenantId, m.record.ns, m.record.path, m.record.ifRevision⟩

theorem BindRequest.Asks.target {request : BindRequest} (h : request.Asks m) :
    canonicalTarget request.tenantId request.ns request.path request.ifRevision =
      some m.target := by
  obtain ⟨hc, hv⟩ := h
  obtain ⟨-, -, ht, -, -, -, -, hif, -⟩ := verifySignedBindRecord_ok hv
  simp [canonicalTarget, hc, Mutation.target, ht, hif]

theorem UnbindRequest.Asks.target {request : UnbindRequest} (h : request.Asks m) :
    canonicalTarget request.tenantId request.ns request.path (some request.ifRevision) =
      some m.target := by
  obtain ⟨hc, hv⟩ := h
  obtain ⟨-, -, ht, -, -, -, hif⟩ := verifySignedUnbindRecord_ok hv
  simp [canonicalTarget, hc, Mutation.target, ht, hif]

/-- The mutation a call asks for in a world: a commit asks for what its session asks for. -/
def Call.AsksIn (w : World) (m : Mutation env) : Call → Prop
  | .bind _ request => request.Asks m
  | .unbind _ request => request.Asks m
  | .putCommit _ request => ∃ session,
    w.store (.sessions request.tenantId request.sessionId) = some session ∧ session.Asks request m
  | _ => False

theorem Call.AsksIn.target {c : Call} (h : c.AsksIn w m) : c.target w = some m.target := by
  cases c with
  | bind auth request => exact BindRequest.Asks.target h
  | unbind auth request => exact UnbindRequest.Asks.target h
  | putCommit auth request =>
    obtain ⟨session, hsession, atomicBind, hab, hm⟩ := h
    have htarget := hm.target
    simp only [AtomicBindRequest.toBindRequest] at htarget
    simpa [Call.target, hsession, hab] using htarget
  | _ => exact h.elim

theorem Call.AsksIn.validate {c : Call} (h : c.AsksIn w m) : m.record.validate = .ok () := by
  cases c with
  | bind auth request => exact (verifySignedRecord_ok h.2).2.1
  | unbind auth request => exact (verifySignedRecord_ok h.2).2.1
  | putCommit auth request =>
    obtain ⟨session, hsession, atomicBind, hab, hm⟩ := h
    exact (verifySignedRecord_ok hm.2).2.1
  | _ => exact h.elim

/-- A call has made a mutation: it succeeded, the mutation is the one it asked for, and it was
admitted by what its path held. -/
structure Call.Made (c : Call) (w : World) (m : Mutation env) : Prop where
  ok : ∃ reply, (c.perform env w).1 = .ok reply ∧
    ∀ r, reply.revision? = some r → r = w.revisionFor m
  target : c.target w = some m.target
  admitted : m.Admits (w.existingFor m)
  mutates : SameNamespaces (w.mutate m) (c.perform env w).2

/-- A commit goes on with the session the store holds. -/
theorem perform_putCommit {auth : AuthContext} {request : PutCommitRequest}
    {session : UploadSessionRecord}
    (h : w.store (.sessions request.tenantId request.sessionId) = some session) :
    (Call.putCommit auth request).perform env w =
      runE (exec env) (Reply.putCommit <$> putCommitWith env auth request session) w := by
  rw [Call.perform, Call.handle, putCommit, map_bind, runE_bind_ok _ (runE_uploadSession_some h)]

/-- **What a call does to the namespaces**: nothing, or the one mutation it asks for. -/
theorem Call.outcome_asks (env : Env) (c : Call) (w : World) :
    SameNamespaces w (c.perform env w).2 ∨ ∃ m : Mutation env, c.AsksIn w m ∧ c.Made w m := by
  rcases outcome_of_follows (follows_handle env c) w with
    h | ⟨reply, m, hok, ⟨hasks, hrev⟩, hadm, hsame⟩
  · exact .inl h
  cases c with
  | bind auth request =>
    exact .inr ⟨m, hasks, ⟨reply, hok, hrev⟩, BindRequest.Asks.target hasks, hadm, hsame⟩
  | unbind auth request =>
    exact .inr ⟨m, hasks, ⟨reply, hok, hrev⟩, UnbindRequest.Asks.target hasks, hadm, hsame⟩
  | putCommit auth request =>
    -- The session is the one the store holds, so the rest of the commit is looked at from there.
    cases hsession : w.store (.sessions request.tenantId request.sessionId) with
    | none =>
      refine .inl ?_
      rw [Call.perform, Call.handle, Hsp.putCommit, map_bind,
        runE_bind_error _ (runE_uploadSession_none hsession)]
    | some session =>
      have h := outcome_of_follows (Q := fun reply m _ =>
          (∃ response, reply = .putCommit response) ∧ session.Asks request m)
        (Protocol.FollowsE.map (f := Reply.putCommit)
          ((follows_putCommitWith env auth request session).weaken ?_)) w
      · rw [← perform_putCommit hsession] at h
        refine h.imp id ?_
        rintro ⟨_, m, hok, ⟨⟨response, rfl⟩, hasks⟩, hadm, hsame⟩
        have hasksIn : (Call.putCommit auth request).AsksIn w m := ⟨session, hsession, hasks⟩
        exact ⟨m, hasksIn, ⟨_, hok, fun _ h => by cases h⟩, hasksIn.target, hadm, hsame⟩
      · rintro response _ (h | ⟨m, r, h, hm⟩)
        · exact .inl h
        · exact .inr ⟨m, r, h, ⟨response, rfl⟩, hm⟩
  | _ => exact hasks.elim

/-- The record of the mutation is well formed. -/
theorem Call.outcome_valid (env : Env) (c : Call) (w : World) :
    SameNamespaces w (c.perform env w).2 ∨
      ∃ m : Mutation env, c.Made w m ∧ m.record.validate = .ok () :=
  (c.outcome_asks env w).imp_right fun ⟨m, hasks, hm⟩ => ⟨m, hm, hasks.validate⟩

theorem Call.outcome (env : Env) (c : Call) (w : World) :
    SameNamespaces w (c.perform env w).2 ∨ ∃ m : Mutation env, c.Made w m :=
  (c.outcome_valid env w).imp_right fun ⟨m, hm, _⟩ => ⟨m, hm⟩

end Hsp
