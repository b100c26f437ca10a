import Hsp.Namespace.Revisions
import Hsp.Prog.Pool

/-!
# Binds and unbinds that run at the same time

The server handles every request in a task of its own, and nothing makes the look at a namespace,
the step of its revision counter and the write of its current state one action.  The calls of a
pool take turns, one operation of the store at a time.

* `mutations_serialised` : if no call writes a namespace while another is between its own look and
  its own write, and no call is answered from a stored response, then in every state the pool
  reaches the revisions differ, no change is lost but to a later one, and a revision is used once.
* `Sample.concurrent_binds_collide` : turn by turn, both of two binds succeed with one revision; on
  two paths the first binding is lost, and on one path both use the same `if_revision`.
-/

namespace Hsp

open List Option Function

variable {env : Env} {r : ℕ} {o : Op} {w w' : World} {t : TenantId} {key n : String} {call : Call}
  {H : History env} {s : Stage env} {m : Mutation env} {op : IdempotentOp}

/-! ### Pools of binds and unbinds -/

/-- What a bind or an unbind is about. -/
def Call.mutationTarget : Call → Option Target
  | .bind _ request =>
    canonicalTarget request.tenantId request.ns request.path request.ifRevision
  | .unbind _ request =>
    canonicalTarget request.tenantId request.ns request.path (some request.ifRevision)
  | _ => none

/-- The call is a bind or an unbind on a path of the namespace. -/
def Call.On (t : TenantId) (n : String) (c : Call) : Prop :=
  ∃ target, c.mutationTarget = some target ∧ target.tenantId = t ∧ target.ns = n

/-- The call asks to remove its path without a tombstone. -/
def Call.hardDelete : Call → Bool
  | .unbind _ request => request.hardDelete
  | _ => false

/-- Calls that have started and share a world. -/
abbrev CallPool (ι : Type) := Pool ι storeSig (Except ApiError Reply) World

/-- The calls are received in a world. -/
def received (env : Env) {ι : Type} (calls : ι → Call) (w : World) : CallPool ι :=
  ⟨fun i => ((calls i).handle env).run, w⟩

/-- The revision a call has returned. -/
def Pool.revision? {ι : Type} (c : CallPool ι) (i : ι) : Option ℕ :=
  (c.threads i).result?.bind fun result => result.toOption.bind Reply.revision?

/-- A call has succeeded and returned a revision. -/
def Pool.Answered {ι : Type} (c : CallPool ι) (i : ι) (r : ℕ) : Prop := c.revision? i = some r

instance {ι : Type} (c : CallPool ι) (i : ι) (r : ℕ) : Decidable (c.Answered i r) :=
  inferInstanceAs (Decidable (_ = _))

theorem Pool.answered_iff {ι : Type} {c : CallPool ι} {i : ι} :
    c.Answered i r ↔
      ∃ reply : Reply, (c.threads i).result? = some (.ok reply) ∧ reply.revision? = some r := by
  simp only [Pool.Answered, Pool.revision?, bind_eq_some_iff]
  constructor
  · rintro ⟨result, hres, reply, hreply, hrev⟩
    cases result with
    | error e => cases hreply
    | ok reply' =>
      obtain rfl := some.inj hreply
      exact ⟨_, hres, hrev⟩
  · rintro ⟨reply, hres, hrev⟩
    exact ⟨_, hres, reply, rfl, hrev⟩

/-- **Mutations are serialised.** -/
structure Serialised (env : Env) {ι : Type} (calls : ι → Call) (t : TenantId) (n : String)
    (c : CallPool ι) : Prop where
  /-- The revisions that have been returned differ. -/
  distinct : ∀ i j r, c.Answered i r → c.Answered j r → i = j
  /-- The effect of a call that succeeded is in the current state, or that of a call on the same
  path with a greater revision is; that call succeeds, if it has answered. -/
  kept : ∀ i r, c.Answered i r → ∃ m : Mutation env, (calls i).Asks m ∧
    (c.state.binding t n m.record.path = m.effect r ∨
      ∃ j r', ∃ m' : Mutation env, (calls j).Asks m' ∧ m'.record.path = m.record.path ∧ r < r' ∧
        c.state.binding t n m.record.path = m'.effect r' ∧
        ∀ result, (c.threads j).result? = some result → c.Answered j r')
  /-- At most one of the calls that expect a path at the same revision succeeds. -/
  once : ∀ i j r r' target v, c.Answered i r → c.Answered j r' →
    (calls i).mutationTarget = some target → (calls j).mutationTarget = some target →
    target.ifRevision = some v → i = j

/-! ### Orderly turns -/

/-- The operation writes the revision counter or the current state of a namespace. -/
def Op.writesNamespace (t : TenantId) (n : String) : Op → Bool
  | .write (.namespaceRevisions t' n') _ | .write (.namespaceCurrent t' n') _ => t' = t ∧ n' = n
  | _ => false

/-- The operations of a call between its look at the current state and its write of it. -/
def Op.inSection (t : TenantId) (n : String) : Op → Bool
  | .read (.namespaceRevisions t' n') => t' = t ∧ n' = n
  | o => o.writesNamespace t n

/-- The operation does not find a stored response. -/
def Op.misses (w : World) : Op → Bool
  | .read (.idempotency t op key) => (w.store (.idempotency t op key)).isNone
  | _ => true

/-- The turn of a call does not find a stored response; and if it writes the revision counter or
the current state, no other call is between its look at the current state and its write of it. -/
def Orderly {ι : Type} (t : TenantId) (n : String) (c : CallPool ι) (i : ι) : Prop :=
  (c.threads i).next?.all (·.misses c.state) ∧
    ((c.threads i).next?.any (·.writesNamespace t n) →
      ∀ j, j ≠ i → ¬ (c.threads j).next?.any (·.inSection t n))

instance {ι : Type} [DecidableEq ι] [Fintype ι] (t : TenantId) (n : String) (c : CallPool ι)
    (i : ι) : Decidable (Orderly t n c i) := inferInstanceAs (Decidable (_ ∧ _))

/-- Results that are not stored responses. -/
def Fresh : (o : Op) → Res o → Prop
  | .read (.idempotency _ _ _), r => ∀ stored, r ≠ .ok (some stored)
  | _, _ => True

theorem fresh_of_misses (env : Env) (h : o.misses w) : Fresh o (exec env o w).1 := by
  unfold Fresh
  split
  · rename_i t op key
    intro stored hs
    have hnone : w.store (.idempotency t op key) = none := isNone_iff_eq_none.1 h
    rw [show (exec env (.read (.idempotency t op key)) w).1 =
      .ok (w.store (.idempotency t op key)) from rfl, hnone] at hs
    cases hs
  · trivial

theorem misses_empty (o : Op) : o.misses World.empty := by
  unfold Op.misses
  split <;> rfl

/-- What an answer says about how far the call has come. -/
def Ends (call : Call) : Except ApiError Reply → Stage env → Prop
  | .ok reply, s => ∃ m r, s = .rest (.done m r) ∧ call.Asks m ∧ reply.revision? = some r
  | .error _, s => s = .rest .idle ∨ s = .broken

/-- The protocol of namespace mutations when there are no stored responses. -/
@[reducible] def freshProtocol (env : Env) : Protocol storeSig :=
  (namespaceProtocol env).restrict Fresh

theorem not_stored_fresh :
    ¬ Stored Fresh t op key := fun ⟨stored, h⟩ => h stored rfl

theorem ends_of_follows {α : Type} {x : Svc α} {f : α → Reply} {rev : α → ℕ}
    (h : (freshProtocol env).FollowsE x (.rest .idle)
      (fun a s => (true = true ∧ Stored Fresh t op key) ∧ s = .rest .idle ∨
        ∃ m, s = .rest (.done m (rev a)) ∧ call.Asks m)
      Unmoved) (hrev : ∀ a, (f a).revision? = some (rev a)) :
    (freshProtocol env).Follows (f <$> x).run (.rest .idle) (Ends call) := by
  refine Protocol.Follows.mono (Protocol.FollowsE.map (f := f)
    (Q := fun reply s => Ends call (.ok reply) s) (h.mono ?_ fun _ _ h => h)) ?_
  · rintro a _ (⟨⟨-, h⟩, -⟩ | ⟨m, rfl, hm⟩)
    · exact absurd h not_stored_fresh
    · exact ⟨m, _, rfl, hm, hrev a⟩
  · rintro (e | reply) s h
    · exact h
    · exact h

/-- Without stored responses, a bind or unbind that succeeds has made its mutation. -/
theorem follows_fresh (hon : call.On t n) :
    (freshProtocol env).Follows (call.handle env).run (.rest .idle) (Ends call) := by
  obtain ⟨target, htarget, -⟩ := hon
  cases call with
  | bind auth request =>
    exact ends_of_follows (follows_bindInternal Fresh auth request true) fun _ => rfl
  | unbind auth request =>
    exact ends_of_follows (follows_unbindInternal Fresh auth request true) fun _ => rfl
  | _ => cases htarget

/-! ### What a turn does to a namespace -/

namespace Mutation

/-- The mutation is about a path of the namespace. -/
def On (t : TenantId) (n : String) (m : Mutation env) : Prop :=
  m.record.tenantId = t ∧ m.record.ns = n

end Mutation

namespace Stage

variable (t : TenantId) (n : String)

/-- The call has written its mutation to the current state of the namespace. -/
def Carries (e : ℕ × Mutation env) : Stage env → Prop
  | .applied m r | .appending m r _ | .rest (.journaled m r) | .rest (.done m r)
  | .sequencing (.journaled m r) _ _ | .sequencing (.done m r) _ _
  | .sequenced (.journaled m r) _ _ | .sequenced (.done m r) _ _ => e = (r, m) ∧ m.On t n
  | _ => False

/-- The call is between its look at the current state of the namespace and its write of it. -/
def InSection : Stage env → Prop
  | .looked m _ | .numbered m _ _ | .claimed m _ _ => m.On t n
  | _ => False

/-- What a call between its look and its write knows of the namespace. -/
def Knows (H : History env) (w : World) : Stage env → Prop
  | .looked m c => m.On t n → c = w.current t n ∧ m.Admits (w.binding t n m.record.path)
  | .numbered m c r => m.On t n → c = w.current t n ∧ m.Admits (w.binding t n m.record.path) ∧
      r = w.nextRevision t n
  | .claimed m c r => m.On t n → c = w.current t n ∧ m.Admits (w.binding t n m.record.path) ∧
      r < w.nextRevision t n ∧ 0 < r ∧ ∀ e ∈ H, e.1 < r
  | .broken => False
  | _ => True

variable {t n} {s s' : Stage env} {o : Op} {e : ℕ × Mutation env}

theorem Carries.next (h : s.Carries t n e) {r : Res o} (hn : s.Next o r s') :
    s'.Carries t n e := by
  cases hn with
  | plain => exact h
  | fetch => exact h
  | append => exact h
  | @sequence ρ => cases ρ <;> exact h
  | @advance ρ => cases ρ <;> exact h
  | @emit ρ => cases ρ <;> exact h
  | _ => exact h.elim

/-- What a call that is in the middle of a mutation does next. -/
theorem InSection.next (h : s.InSection t n) {r : Res o} (hst : s.Step o r s') :
    o.inSection t n := by
  have hnext : ∀ {r : Res o} {s'}, s.Next o r s' → o.inSection t n := by
    intro r s' hn
    cases hn with
    | number => exact decide_eq_true h
    | claim => exact decide_eq_true h
    | apply => exact decide_eq_true h
    | _ => exact h.elim
  cases hst with
  | next hn => exact hnext hn
  | fail hn => exact hnext hn

end Stage

/-- Two worlds agree on the current state and the revision counter of a namespace. -/
structure SameIn (t : TenantId) (n : String) (w w' : World) : Prop where
  current : w'.current t n = w.current t n
  nextRevision : w'.nextRevision t n = w.nextRevision t n

theorem SameIn.binding (h : SameIn t n w w') (p : String) : w'.binding t n p = w.binding t n p := by
  rw [World.binding, h.current, World.binding]

theorem SameNamespaces.sameIn (h : SameNamespaces w w') (t : TenantId) (n : String) :
    SameIn t n w w' := ⟨h.current t n, h.nextRevision t n⟩

theorem SameIn.set (w : World) {l : Loc} (v : Option (Val l)) (hc : l ≠ .namespaceCurrent t n)
    (hr : l ≠ .namespaceRevisions t n) : SameIn t n w (w.set l v) :=
  ⟨World.set_current_of_ne hc.symm, World.set_nextRevision_of_ne hr.symm⟩

theorem Stage.Knows.same (h : s.Knows t n H w) (hs : SameIn t n w w') : s.Knows t n H w' := by
  cases s <;> simp only [Stage.Knows, hs.current, hs.binding, hs.nextRevision] at h ⊢ <;> exact h

/-- What a turn does to a namespace and to what the call knows of it. -/
inductive Turn (t : TenantId) (n : String) (w : World) (o : Op) (w' : World) :
    Stage env → Stage env → Prop
  | other {s s' : Stage env} (same : SameIn t n w w')
      (carries : ∀ e, s'.Carries t n e → s.Carries t n e)
      (knows : ∀ H, s.Knows t n H w → s'.Knows t n H w') : Turn t n w o w' s s'
  | claim {m : Mutation env} {c : NamespaceCurrentState} {r : ℕ} (hm : m.On t n)
      (ho : o.writesNamespace t n) (current : w'.current t n = w.current t n)
      (counter : w'.nextRevision t n = r + 1) : Turn t n w o w' (.numbered m c r) (.claimed m c r)
  | apply {m : Mutation env} {c : NamespaceCurrentState} {r : ℕ} (hm : m.On t n)
      (ho : o.writesNamespace t n) (current : w'.current t n = m.applyTo r c)
      (counter : w'.nextRevision t n = w.nextRevision t n) :
      Turn t n w o w' (.claimed m c r) (.applied m r)

theorem knows_looked {c : Option NamespaceCurrentState}
    (hr : (exec env (.read (.namespaceCurrent m.record.tenantId m.record.ns)) w).1 = .ok c)
    (hadm : m.Admits (c.getD (.initial m.record.ns)).bindings[m.record.path]?) :
    (Stage.looked m (c.getD (.initial m.record.ns))).Knows t n H w := by
  rintro ⟨rfl, rfl⟩
  have hc : c.getD (.initial m.record.ns) = w.current m.record.tenantId m.record.ns := by
    rw [← Except.ok.inj hr]
    rfl
  exact ⟨hc, by rwa [hc] at hadm⟩

/-- **The turns of the protocol.** -/
theorem Stage.Next.turn {s' : Stage env} (hn : s.Next o (exec env o w).1 s') :
    Turn t n w o (exec env o w).2 s s' := by
  generalize hr : (exec env o w).1 = r at hn
  cases hn with
  | plain ho =>
    have hs := ((SameNamespaces.refl w).exec_plain env ho).sameIn t n
    exact .other hs (fun _ h => h) fun _ _ => trivial
  | locate => exact .other ⟨rfl, rfl⟩ (fun _ h => h) fun _ _ => trivial
  | refuse => exact .other ⟨rfl, rfl⟩ (fun _ h => h) fun _ _ => trivial
  | lookBind _ hadm =>
    exact .other ⟨rfl, rfl⟩ (fun _ h => h) fun _ _ => knows_looked hr hadm
  | lookUnbind _ hadm =>
    exact .other ⟨rfl, rfl⟩ (fun _ h => h) fun _ _ => knows_looked hr hadm
  | number =>
    refine .other ⟨rfl, rfl⟩ (fun _ h => h) fun H h => ?_
    rintro ⟨rfl, rfl⟩
    obtain ⟨hc, hadm⟩ := h ⟨rfl, rfl⟩
    exact ⟨hc, hadm, by rw [← Except.ok.inj hr]; rfl⟩
  | @claim m c r =>
    by_cases hm : m.On t n
    · obtain ⟨rfl, rfl⟩ := hm
      exact .claim ⟨rfl, rfl⟩ (by simp [Op.writesNamespace])
        (World.set_current_of_ne (by simp)) (by simp [exec, World.nextRevision])
    · refine .other (SameIn.set w _ (by simp) ?_) (fun _ h => h) fun _ _ h => absurd h hm
      simpa [Mutation.On] using hm
  | @apply m c r =>
    by_cases hm : m.On t n
    · obtain ⟨rfl, rfl⟩ := hm
      exact .apply ⟨rfl, rfl⟩ (by simp [Op.writesNamespace]) (by simp [exec, World.current])
        (World.set_nextRevision_of_ne (by simp))
    · refine .other (SameIn.set w _ ?_ (by simp)) (fun _ h => absurd h.2 hm) fun _ _ => trivial
      simpa [Mutation.On] using hm
  | fetch => exact .other ⟨rfl, rfl⟩ (fun _ h => h) fun _ _ => trivial
  | append => exact .other (SameIn.set w _ (by simp) (by simp)) (fun _ h => h) fun _ _ => trivial
  | @sequence ρ => exact .other ⟨rfl, rfl⟩ (by cases ρ <;> exact fun _ h => h) fun _ _ => trivial
  | @advance ρ =>
    exact .other (SameIn.set w _ (by simp) (by simp)) (by cases ρ <;> exact fun _ h => h)
      fun _ _ => trivial
  | @emit ρ =>
    exact .other (SameIn.set w _ (by simp) (by simp)) (by cases ρ <;> exact fun _ h => h)
      fun _ _ => trivial
  | cleanUp ho =>
    have hs := ((SameNamespaces.refl w).exec_plain env ho).sameIn t n
    exact .other hs (fun _ h => h) fun _ h => h.elim

/-! ### The invariant -/

/-- The current state and the revision counter of a namespace with a history. -/
structure Tracks (t : TenantId) (n : String) (H : History env) (w : World) : Prop where
  current : w.current t n = stateOf n H
  below : ∀ e ∈ H, e.1 < w.nextRevision t n
  pos : 0 < w.nextRevision t n
  valid : (historySpec env).Valid H

theorem Represents.tracks {H : Histories env} (h : Represents H w) (t : TenantId) (n : String) :
    Tracks t n (H t n) w :=
  ⟨h.current t n, h.below t n, h.pos t n, h.valid t n⟩

namespace Tracks

variable {t : TenantId} {n : String} {H : History env} {w w' : World}

theorem binding (h : Tracks t n H w) (p : String) :
    w.binding t n p = (historySpec env).replay H p := by
  rw [World.binding, h.current, stateOf_bindings]

theorem same (h : Tracks t n H w) (hs : SameIn t n w w') : Tracks t n H w' where
  current := hs.current.trans h.current
  below e he := hs.nextRevision.symm ▸ h.below e he
  pos := hs.nextRevision.symm ▸ h.pos
  valid := h.valid

theorem claim (h : Tracks t n H w) (hc : w'.current t n = w.current t n)
    (hr : w'.nextRevision t n = w.nextRevision t n + 1) : Tracks t n H w' where
  current := hc.trans h.current
  below e he := hr.symm ▸ Nat.lt_succ_of_lt (h.below e he)
  pos := hr.symm ▸ Nat.succ_pos _
  valid := h.valid

/-- A mutation with a revision that is beyond the history extends it. -/
theorem apply (h : Tracks t n H w) (hadm : m.Admits (w.binding t n m.record.path))
    (hlt : r < w.nextRevision t n) (hpos : 0 < r) (hH : ∀ e ∈ H, e.1 < r)
    (hc : w'.current t n = m.applyTo r (w.current t n))
    (hr : w'.nextRevision t n = w.nextRevision t n) : Tracks t n (H ++ [(r, m)]) w' where
  current := by rw [hc, stateOf_snoc, h.current]
  below e he := by
    rw [hr]
    rcases mem_append.1 he with he | he
    · exact h.below e he
    · obtain rfl := mem_singleton.1 he
      exact hlt
  pos := hr.symm ▸ h.pos
  valid := by
    refine .snoc h.valid hH hpos (fun b hb => (m.effect_eq_some r hb).2.1) ?_
    rw [h.binding] at hadm
    exact hadm

end Tracks

/-- The namespace went through its old history `H₀` and the mutations of the pool, one for every
call that has written one. -/
structure InOrder {ι : Type} (t : TenantId) (n : String) (H₀ H : History env)
    (st : ι → Stage env) (w : World) : Prop where
  tracks : Tracks t n (H₀ ++ H) w
  knows : ∀ i, (st i).Knows t n (H₀ ++ H) w
  carried : ∀ e ∈ H, ∃ i, (st i).Carries t n e
  recorded : ∀ i e, (st i).Carries t n e → e ∈ H
  unique : ∀ i j e e', (st i).Carries t n e → (st j).Carries t n e' → e.1 = e'.1 → i = j

theorem Stage.Knows.outside {H' : History env} (h : s.Knows t n H w) (hs : ¬ s.InSection t n) :
    s.Knows t n H' w' := by
  cases s with
  | looked m c => exact fun hm => absurd hm hs
  | numbered m c r => exact fun hm => absurd hm hs
  | claimed m c r => exact fun hm => absurd hm hs
  | broken => exact h.elim
  | _ => trivial

namespace InOrder

variable {ι : Type} [DecidableEq ι] {t : TenantId} {n : String} {H₀ H : History env}
  {st : ι → Stage env} {w w' : World} {i : ι} {s' : Stage env}

omit [DecidableEq ι] in
theorem start (h : Tracks t n H₀ w) : InOrder t n H₀ [] (fun _ : ι => .rest .idle) w where
  tracks := by rwa [append_nil]
  knows _ := trivial
  carried _ h := by cases h
  recorded _ _ h := h.elim
  unique _ _ _ _ h := h.elim

theorem keep (h : InOrder t n H₀ H st w) (htracks : Tracks t n (H₀ ++ H) w')
    (hknows : ∀ j, (Function.update st i s' j).Knows t n (H₀ ++ H) w')
    (hcarries : ∀ e, s'.Carries t n e ↔ (st i).Carries t n e) :
    InOrder t n H₀ H (Function.update st i s') w' := by
  have hsame : ∀ j e, (Function.update st i s' j).Carries t n e ↔ (st j).Carries t n e := by
    intro j e
    by_cases hj : j = i
    · subst hj; simpa using hcarries e
    · simp [hj]
  exact ⟨htracks, hknows, by simpa only [hsame] using h.carried,
    by simpa only [hsame] using h.recorded, by simpa only [hsame] using h.unique⟩

theorem extend (h : InOrder t n H₀ H st w) (hm : m.On t n)
    (htracks : Tracks t n (H₀ ++ (H ++ [(r, m)])) w')
    (hknows : ∀ j, (Function.update st i (.applied m r) j).Knows t n (H₀ ++ (H ++ [(r, m)])) w')
    (hnone : ∀ e, ¬ (st i).Carries t n e) (hlt : ∀ e ∈ H, e.1 < r) :
    InOrder t n H₀ (H ++ [(r, m)]) (Function.update st i (.applied m r)) w' := by
  -- Call `i` carries the new mutation, and the others carry what they carried.
  have hsplit : ∀ j e, (Function.update st i (.applied m r) j).Carries t n e →
      j = i ∧ e = (r, m) ∨ j ≠ i ∧ (st j).Carries t n e := by
    intro j e he
    by_cases hj : j = i
    · subst hj
      rw [update_self] at he
      exact .inl ⟨rfl, he.1⟩
    · rw [update_of_ne hj] at he
      exact .inr ⟨hj, he⟩
  refine ⟨htracks, hknows, ?_, ?_, ?_⟩
  · intro e he
    rcases mem_append.1 he with he | he
    · obtain ⟨j, hj⟩ := h.carried e he
      have hne : j ≠ i := by rintro rfl; exact hnone e hj
      exact ⟨j, by rwa [update_of_ne hne]⟩
    · refine ⟨i, ?_⟩
      rw [update_self]
      exact ⟨mem_singleton.1 he, hm⟩
  · intro j e he
    rcases hsplit j e he with ⟨-, rfl⟩ | ⟨-, he⟩
    · simp
    · exact mem_append_left _ (h.recorded j e he)
  · intro j k e e' he he' heq
    rcases hsplit j e he with ⟨rfl, rfl⟩ | ⟨-, hj⟩ <;>
      rcases hsplit k e' he' with ⟨rfl, rfl⟩ | ⟨-, hk⟩
    · rfl
    · exact absurd heq (hlt e' (h.recorded k e' hk)).ne'
    · exact absurd heq (hlt e (h.recorded j e hj)).ne
    · exact h.unique j k e e' hj hk heq

/-- **A turn keeps the order**, if no other call is in the middle of a mutation when it writes. -/
theorem turn (h : InOrder t n H₀ H st w) (ht : Turn t n w o w' (st i) s')
    (hcarry : ∀ e, (st i).Carries t n e → s'.Carries t n e)
    (hex : o.writesNamespace t n → ∀ j, j ≠ i → ¬ (st j).InSection t n) :
    ∃ H', InOrder t n H₀ H' (Function.update st i s') w' := by
  generalize hs : st i = s at ht
  cases ht with
  | other same carries knows =>
    -- Nothing of the namespace changes, so everybody still knows what they knew.
    refine ⟨H, h.keep (h.tracks.same same) ?_ fun e => ⟨fun he => hs ▸ carries e he, hcarry e⟩⟩
    refine (forall_update_iff st fun _ s => s.Knows t n (H₀ ++ H) w').2
      ⟨knows _ (hs ▸ h.knows i), fun j _ => (h.knows j).same same⟩
  | @claim m c r hm ho current counter =>
    have hi := h.knows i
    rw [hs] at hi
    obtain ⟨hc, hadm, hr⟩ := hi hm
    have hcur : ∀ p, w'.binding t n p = w.binding t n p := fun p => by
      rw [World.binding, current, World.binding]
    refine ⟨H, h.keep (h.tracks.claim current (hr ▸ counter)) ?_ fun e => by
      rw [hs]; exact Iff.rfl⟩
    refine (forall_update_iff st fun _ s => s.Knows t n (H₀ ++ H) w').2
      ⟨fun _ => ⟨hc.trans current.symm, by rwa [hcur], ?_, ?_, ?_⟩,
        fun j hj => (h.knows j).outside (hex ho j hj)⟩
    · rw [counter]; exact Nat.lt_succ_self r
    · rw [hr]; exact h.tracks.pos
    · rw [hr]; exact h.tracks.below
  | @apply m c r hm ho current counter =>
    -- The state that was read is still the current one: no other call was in its section.
    have hi := h.knows i
    rw [hs] at hi
    obtain ⟨hc, hadm, hlt, hpos, hH⟩ := hi hm
    have htracks := h.tracks.apply hadm hlt hpos hH (hc ▸ current) counter
    rw [append_assoc] at htracks
    refine ⟨_, h.extend hm htracks ?_ (fun e he => by rw [hs] at he; exact he) fun e he =>
      hH e (mem_append_right _ he)⟩
    exact (forall_update_iff st fun _ s => s.Knows t n _ w').2
      ⟨trivial, fun j hj => (h.knows j).outside (hex ho j hj)⟩

end InOrder

/-! ### Every interleaving -/

section Run

variable {ι : Type} {t : TenantId} {n : String} {p : Prog storeSig (Except ApiError Reply)}
  {H₀ : History env}

theorem Call.On.asks {c : Call} (hon : c.On t n) (h : c.Asks m) :
    c.mutationTarget = some m.target ∧ m.On t n := by
  obtain ⟨target, htarget, ht, hn⟩ := hon
  have hsame : c.mutationTarget = some m.target := by
    cases c with
    | bind auth request => exact BindRequest.Asks.target h
    | unbind auth request => exact UnbindRequest.Asks.target h
    | _ => cases htarget
  obtain rfl := some.inj (htarget.symm.trans hsame)
  exact ⟨hsame, ht, hn⟩

/-- A call that is in the middle of a mutation performs an operation of it next. -/
theorem next_inSection (h : (freshProtocol env).Follows p s (Ends call)) (hs : s.InSection t n) :
    p.next?.any (·.inSection t n) := by
  cases p with
  | ret a =>
    cases a with
    | error e => rcases h with rfl | rfl <;> exact hs.elim
    | ok reply =>
      obtain ⟨m, r, rfl, -⟩ := h
      exact hs.elim
  | op o k =>
    obtain ⟨s', hst, -⟩ := h _ ⟨trivial, fresh_of_misses env (misses_empty o)⟩
    exact hs.next hst

/-- A call that has written its mutation has asked for it, and returns its revision when it
answers. -/
theorem asks_of_carries {e : ℕ × Mutation env} (h : (freshProtocol env).Follows p s (Ends call))
    (hs : s.Carries t n e) :
    call.Asks e.2 ∧ ∀ result, p.result? = some result →
      ∃ reply, result = .ok reply ∧ reply.revision? = some e.1 := by
  induction p generalizing s with
  | ret a =>
    cases a with
    | error err => rcases h with rfl | rfl <;> exact hs.elim
    | ok reply =>
      obtain ⟨m, r, rfl, hasks, hrev⟩ := h
      obtain ⟨rfl, -⟩ := hs
      refine ⟨hasks, fun result hres => ⟨reply, ?_, hrev⟩⟩
      exact (some.inj hres).symm
  | op o k ih =>
    -- The call answers in some run: one in which the store is empty.
    obtain ⟨s', hst, hk⟩ := h _ ⟨trivial, fresh_of_misses env (misses_empty o)⟩
    rcases hst with hn | ⟨-, hf⟩
    · exact ⟨(ih _ hk (hs.next hn)).1, fun _ h => by cases h⟩
    · exact absurd hf (not_failed_exec env _ World.empty)

theorem carries_of_answered {calls : ι → Call} {c : CallPool ι} {st : ι → Stage env} {i : ι}
    (h : (freshProtocol env).Follows (c.threads i) (st i) (Ends (calls i))) (hon : (calls i).On t n)
    (hi : c.Answered i r) : ∃ m : Mutation env, (st i).Carries t n (r, m) ∧ (calls i).Asks m := by
  obtain ⟨reply, hres, hrev⟩ := Pool.answered_iff.1 hi
  cases hp : c.threads i with
  | op o k => rw [hp] at hres; cases hres
  | ret a =>
    rw [hp] at hres h
    obtain rfl := some.inj hres
    obtain ⟨m, r', hs, hasks, hrev'⟩ := h
    obtain rfl := some.inj (hrev.symm.trans hrev')
    refine ⟨m, ?_, hasks⟩
    rw [hs]
    exact ⟨rfl, (hon.asks hasks).2⟩

variable [DecidableEq ι]

/-- **Orderly turns keep the order.** -/
theorem inOrder_run {calls : ι → Call} (hon : ∀ i, (calls i).On t n) (hw : Tracks t n H₀ w)
    {schedule : List ι}
    (hex : Pool.Always (exec env) (Orderly t n) (received env calls w) schedule) :
    ∃ st, ((received env calls w).run (exec env) schedule).Follows (freshProtocol env)
        (fun i => Ends (calls i)) st ∧
      ∃ H, InOrder t n H₀ H st ((received env calls w).run (exec env) schedule).state := by
  refine Pool.run_invariant_ops (P := freshProtocol env) (G := Orderly t n)
    (I := fun st _ w => ∃ H, InOrder t n H₀ H st w) ?_ ?_ (fun i => follows_fresh (hon i)) []
    ⟨[], .start hw⟩ hex
  · intro c _ _ i o k _ hi hG
    refine ⟨trivial, fresh_of_misses env ?_⟩
    have := hG.1
    rwa [hi] at this
  · rintro c st - i o k s' hf ⟨H, hI⟩ hG hi hst
    cases hst with
    | fail _ hfail => exact absurd hfail (not_failed_exec env o _)
    | next hn =>
      refine hI.turn hn.turn (fun e he => he.next hn) fun ho j hj hs => ?_
      refine hG.2 ?_ j hj (next_inSection (hf j) hs)
      rw [hi]
      exact ho

theorem Call.On.hardDelete {c : Call} (hon : c.On t n) (h : c.Asks m)
    (hk : m.record.kind = .hardDelete) : c.hardDelete = true := by
  obtain ⟨target, htarget, -⟩ := hon
  cases c with
  | bind auth request =>
    obtain ⟨-, -, -, -, -, hkind, -⟩ := verifySignedBindRecord_ok h.2
    rw [hk] at hkind
    cases hkind
  | unbind auth request =>
    obtain ⟨-, -, -, -, -, hkind, -⟩ := verifySignedUnbindRecord_ok h.2
    rw [hk] at hkind
    change request.hardDelete = true
    by_contra hno
    rw [if_neg hno] at hkind
    cases hkind
  | _ => cases htarget

/-- If two calls expect a path to be absent, no call of the pool removes it without a
tombstone. -/
def KeepsContended (calls : ι → Call) : Prop :=
  ∀ i j target, i ≠ j → (calls i).mutationTarget = some target →
    (calls j).mutationTarget = some target → target.ifRevision = some 0 →
    ∀ k target', (calls k).mutationTarget = some target' → target'.path = target.path →
      (calls k).hardDelete = false

/-- A revision of a path is used once, unless it is zero and the path was removed. -/
theorem not_used_twice (h : (historySpec env).Valid (H₀ ++ H)) {a b : ℕ × Mutation env} (ha : a ∈ H)
    (hb : b ∈ H) (hlt : a.1 < b.1) (htarget : a.2.target = b.2.target) {v : UInt64}
    (hv : a.2.record.ifRevision = some v)
    (hkeep : v = 0 → ∀ c ∈ H, c.2.record.path = a.2.record.path → c.2.record.kind ≠ .hardDelete) :
    False := by
  obtain ⟨-, -, hpath, hif⟩ : _ ∧ _ ∧ a.2.record.path = b.2.record.path ∧
      a.2.record.ifRevision = b.2.record.ifRevision := by
    simpa [Mutation.target] using htarget
  have hexp := expects_of_ifRevision (hif.symm.trans hv)
  have hasc := (pairwise_append.1 h.pairwise_rev).2.1
  obtain ⟨xs, ys, zs, rfl⟩ := Log.Spec.exists_split hasc ha hb hlt
  rw [← append_assoc] at h
  by_cases hzero : v = 0
  · obtain ⟨c, hc, hk, hval⟩ := h.exists_removal hpath.symm (by simpa [hzero] using hexp)
    refine hkeep hzero c ?_ hk ((c.2.effect_eq_none c.1).1 hval)
    rcases mem_cons.1 hc with rfl | hc
    · exact ha
    · simp [hc]
  · have hpos : 0 < v.toNat := UInt64.pos_iff_ne_zero.2 hzero
    have hpair := (pairwise_append.1 (h.expects_unique hpos)).2.1
    exact (pairwise_cons.1 hpair).1 b (by simp) hpath (expects_of_ifRevision hv) hexp

/-- What an ordered pool guarantees. -/
theorem InOrder.serialised {calls : ι → Call} (hon : ∀ i, (calls i).On t n)
    (hkeep : KeepsContended calls) {c : CallPool ι} {st : ι → Stage env}
    (hf : c.Follows (freshProtocol env) (fun i => Ends (calls i)) st)
    (h : InOrder t n H₀ H st c.state) : Serialised env calls t n c := by
  have hasc : H.Pairwise fun a b => a.1 < b.1 :=
    (pairwise_append.1 h.tracks.valid.pairwise_rev).2.1
  constructor
  · intro i j r hi hj
    obtain ⟨m, hcarry, -⟩ := carries_of_answered (hf i) (hon i) hi
    obtain ⟨m', hcarry', -⟩ := carries_of_answered (hf j) (hon j) hj
    exact h.unique i j _ _ hcarry hcarry' rfl
  · intro i r hi
    obtain ⟨m, hcarry, hasks⟩ := carries_of_answered (hf i) (hon i) hi
    refine ⟨m, hasks, ?_⟩
    obtain ⟨xs, ys, hH⟩ := append_of_mem (h.recorded i _ hcarry)
    have hbinding := h.tracks.binding m.record.path
    rw [hH, ← append_assoc] at hbinding
    rcases Log.Spec.replay_split (L := historySpec env) (H₀ ++ xs) ys (r, m) with
      hv | ⟨b, hb, hk, hv⟩
    · exact .inl (hbinding.trans hv)
    · obtain ⟨j, hj⟩ := h.carried b (by simp [hH, hb])
      obtain ⟨hasks', hanswer⟩ := asks_of_carries (hf j) hj
      refine .inr ⟨j, b.1, b.2, hasks', hk, ?_, hbinding.trans hv, fun result hres => ?_⟩
      · rw [hH] at hasc
        exact (pairwise_cons.1 (pairwise_append.1 hasc).2.1).1 b hb
      · obtain ⟨reply, rfl, hrev⟩ := hanswer result hres
        exact Pool.answered_iff.2 ⟨reply, hres, hrev⟩
  · intro i j r r' target v hi hj hti htj hv
    by_contra hij
    obtain ⟨m, hcarry, hasks⟩ := carries_of_answered (hf i) (hon i) hi
    obtain ⟨m', hcarry', hasks'⟩ := carries_of_answered (hf j) (hon j) hj
    obtain rfl := some.inj (hti.symm.trans ((hon i).asks hasks).1)
    have htarget := some.inj (htj.symm.trans ((hon j).asks hasks').1)
    -- No mutation of the pool removes the path if the two expect it to be absent.
    have hstay : v = 0 → ∀ e ∈ H, e.2.record.path = m.record.path →
        e.2.record.kind ≠ .hardDelete := by
      intro hzero e he hpath hkind
      obtain ⟨k, hk⟩ := h.carried e he
      have hasksk := (asks_of_carries (hf k) hk).1
      have hno := hkeep i j _ hij hti htj (hzero ▸ hv) k _ ((hon k).asks hasksk).1 hpath
      rw [(hon k).hardDelete hasksk hkind] at hno
      cases hno
    have ha := h.recorded i _ hcarry
    have hb := h.recorded j _ hcarry'
    obtain ⟨-, -, hpath, hif⟩ : _ ∧ _ ∧ m.record.path = m'.record.path ∧
        m.record.ifRevision = m'.record.ifRevision := by
      simpa [Mutation.target] using htarget
    rcases lt_trichotomy r r' with hlt | heq | hlt
    · exact not_used_twice h.tracks.valid ha hb hlt htarget hv hstay
    · exact hij (h.unique i j _ _ hcarry hcarry' heq)
    · exact not_used_twice h.tracks.valid hb ha hlt htarget.symm (hif.symm.trans hv)
        fun hzero c hc hk => hstay hzero c hc (hk.trans hpath.symm)

/-- **Concurrent mutations are serialised** if their turns are orderly. -/
theorem mutations_serialised (earlier : List Call) (calls : ι → Call)
    (hon : ∀ i, (calls i).On t n) (hkeep : KeepsContended calls) (schedule : List ι)
    (hex : Pool.Always (exec env) (Orderly t n)
      (received env calls (runCalls env earlier World.empty)) schedule) :
    Serialised env calls t n
      ((received env calls (runCalls env earlier World.empty)).run (exec env) schedule) := by
  obtain ⟨H, hH⟩ := exists_represents env earlier
  obtain ⟨st, hf, H', hI⟩ := inOrder_run hon (hH.tracks t n) hex
  exact hI.serialised hon hkeep hf

end Run

namespace Sample

/-- The object is bound to a path that must not exist. -/
def createRecord : NamespaceMutationRecord :=
  ⟨recordFields .bind (some manifestCid) (some 0), by decide +kernel⟩

/-- The same on the path `q`. -/
def createRecordQ : NamespaceMutationRecord :=
  ⟨{ recordFields .bind (some manifestCid) (some 0) with path := "q" }, by decide +kernel⟩

def create (jti path : String) (record : UInt8) : Call :=
  .bind (auth jti) ⟨tenant, "n", path, manifestCid, some 0, false, ∅, none, jti, token record⟩

/-- Two calls. -/
def both (a b : Call) : Bool → Call
  | false => a
  | true => b

abbrev raceEnv : Env := Sample.env [createRecord, createRecordQ]

/-- Two calls on a server that has the object. -/
def pair (a b : Call) : CallPool Bool :=
  received raceEnv (both a b) (runCalls raceEnv upload World.empty)

/-- The first `k` operations of the calls turn by turn, then the rest of the first call, then that
of the second. -/
def alternating (k : ℕ) : List Bool :=
  (List.replicate k [false, true]).flatten ++ List.replicate (18 - k) false ++
    List.replicate (18 - k) true

/-- **Turn by turn, two binds take the same revision.**  On two paths the first binding is lost; on
one path both calls succeed although both name revision zero. -/
theorem concurrent_binds_collide :
    let paths := (pair (create "4" "p" 0) (create "5" "q" 1)).run (exec raceEnv) (alternating 18)
    let path := (pair (create "4" "p" 0) (create "5" "p" 0)).run (exec raceEnv) (alternating 18)
    paths.Answered false 1 ∧ paths.Answered true 1 ∧ paths.state.binding tenant "n" "p" = none ∧
      path.Answered false 1 ∧ path.Answered true 1 ∧
      (create "4" "p" 0).mutationTarget = some ⟨tenant, "n", "p", some 0⟩ ∧
      (create "5" "p" 0).mutationTarget = some ⟨tenant, "n", "p", some 0⟩ := by
  decide +kernel

/-- If only the operations before the looks alternate, both changes take effect. -/
theorem alternating_serialised :
    let c := (pair (create "4" "p" 0) (create "5" "q" 1)).run (exec raceEnv) (alternating 5)
    (c.Answered false 1 ∧ c.Answered true 2) ∧
      Serialised raceEnv (both (create "4" "p" 0) (create "5" "q" 1)) tenant "n" c := by
  intro c
  have ⟨hanswered, horderly⟩ : (c.Answered false 1 ∧ c.Answered true 2) ∧
      Pool.Always (exec raceEnv) (Orderly tenant "n")
        (pair (create "4" "p" 0) (create "5" "q" 1)) (alternating 5) := by
    decide +kernel
  refine ⟨hanswered, mutations_serialised upload _ ?_ ?_ _ horderly⟩
  · rintro (_ | _)
    · exact ⟨⟨tenant, "n", "p", some 0⟩, by decide +kernel, rfl, rfl⟩
    · exact ⟨⟨tenant, "n", "q", some 0⟩, by decide +kernel, rfl, rfl⟩
  · rintro i j target - - - - (_ | _) target' - -
    · rfl
    · rfl

end Sample

end Hsp
