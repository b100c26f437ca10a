import Hsp.Namespace.Outcome

/-!
# The service refines histories

A world represents a history for every namespace of every tenant: the current state and the
journal are the two renderings of the history, the revision counter is beyond its revisions, and
the history is a valid log of mutations that belong to the namespace.  The empty world represents
empty histories, a call extends at most one history by one mutation, and so every run of the
service ends in a world that represents histories (`exists_represents`).

`exchanges` lists what happened in a run, and `exists_recorded` relates the exchanges that changed
a namespace to the entries of its history, one by one.
-/

namespace Hsp

open List

variable {env : Env} {w w' : World} {m : Mutation env} {c : Call}

/-- Histories for all namespaces. -/
abbrev Histories (env : Env) := TenantId → String → History env

/-- A world whose namespaces went through the given histories. -/
structure Represents (H : Histories env) (w : World) : Prop where
  current : ∀ t n, w.current t n = stateOf n (H t n)
  journal : ∀ t n, w.journal t n = journalOf (H t n)
  below : ∀ t n, ∀ e ∈ H t n, e.1 < w.nextRevision t n
  pos : ∀ t n, 0 < w.nextRevision t n
  valid : ∀ t n, (historySpec env).Valid (H t n)
  owned : ∀ t n, ∀ e ∈ H t n, e.2.record.tenantId = t ∧ e.2.record.ns = n

/-- One more mutation in the history of its namespace. -/
def Histories.extend (H : Histories env) (m : Mutation env) (r : ℕ) : Histories env := fun t n =>
  if t = m.record.tenantId ∧ n = m.record.ns then H t n ++ [(r, m)] else H t n

/-! ### The namespaces after a mutation -/

section Mutate

variable (w : World) (m : Mutation env) (t : TenantId) (n : String)

theorem apply_current :
    (w.apply m).current t n = if t = m.record.tenantId ∧ n = m.record.ns then
      m.applyTo (w.revisionFor m) (w.current t n) else w.current t n := by
  split
  · rename_i h
    obtain ⟨rfl, rfl⟩ := h
    simp [World.apply, World.current, World.stateFor]
  · rename_i h
    have h' : Loc.namespaceCurrent t n ≠ .namespaceCurrent m.record.tenantId m.record.ns := by
      simpa using h
    simp [World.apply, World.claim, World.current, h']

theorem mutate_current :
    (w.mutate m).current t n = if t = m.record.tenantId ∧ n = m.record.ns then
      m.applyTo (w.revisionFor m) (w.current t n) else w.current t n := by
  rw [← apply_current]
  simp [World.mutate, World.current]

theorem apply_binding (p : String) :
    (w.apply m).binding t n p =
      if t = m.record.tenantId ∧ n = m.record.ns ∧ p = m.record.path then
        m.effect (w.revisionFor m) else w.binding t n p := by
  rw [World.binding, apply_current, World.binding]
  by_cases hk : t = m.record.tenantId ∧ n = m.record.ns
  · rw [if_pos hk, Mutation.applyTo_bindings_getElem?, Function.update_apply]
    simp [hk.1, hk.2]
  · rw [if_neg hk, if_neg fun h => hk ⟨h.1, h.2.1⟩]

theorem mutate_binding (p : String) :
    (w.mutate m).binding t n p =
      if t = m.record.tenantId ∧ n = m.record.ns ∧ p = m.record.path then
        m.effect (w.revisionFor m) else w.binding t n p := by
  rw [← apply_binding, World.binding, mutate_current, ← apply_current, World.binding]

theorem mutate_journal :
    (w.mutate m).journal t n = if t = m.record.tenantId ∧ n = m.record.ns then
      w.journal t n ++ [m.entry (w.revisionFor m)] else w.journal t n := by
  split
  · rename_i h
    obtain ⟨rfl, rfl⟩ := h
    simp [World.mutate, World.journal]
  · rename_i h
    have h' : Loc.namespaceJournal t n ≠ .namespaceJournal m.record.tenantId m.record.ns := by
      simpa using h
    simp [World.mutate, World.apply, World.claim, World.journal, h']

theorem mutate_nextRevision :
    (w.mutate m).nextRevision t n = if t = m.record.tenantId ∧ n = m.record.ns then
      w.nextRevision t n + 1 else w.nextRevision t n := by
  split
  · rename_i h
    obtain ⟨rfl, rfl⟩ := h
    simp [World.mutate, World.apply, World.claim, World.nextRevision, World.revisionFor]
  · rename_i h
    have h' : Loc.namespaceRevisions t n ≠ .namespaceRevisions m.record.tenantId m.record.ns := by
      simpa using h
    simp [World.mutate, World.apply, World.claim, World.nextRevision, h']

end Mutate

/-! ### Representation is kept -/

theorem Represents.empty : Represents (fun _ _ => [] : Histories env) World.empty where
  current _ _ := rfl
  journal _ _ := rfl
  below _ _ _ h := by cases h
  pos _ _ := Nat.one_pos
  valid _ _ := .nil
  owned _ _ _ h := by cases h

theorem Represents.same {H : Histories env} (h : Represents H w) (hs : SameNamespaces w w') :
    Represents H w' where
  current t n := (hs.current t n).trans (h.current t n)
  journal t n := (hs.journal t n).trans (h.journal t n)
  below t n e he := (hs.nextRevision t n).symm ▸ h.below t n e he
  pos t n := (hs.nextRevision t n).symm ▸ h.pos t n
  valid := h.valid
  owned := h.owned

/-- **A mutation extends the history of its namespace.** -/
theorem Represents.mutate {H : Histories env} (h : Represents H w)
    (hadm : m.Admits (w.existingFor m)) :
    Represents (H.extend m (w.revisionFor m)) (w.mutate m) where
  current t n := by
    rw [mutate_current, Histories.extend]
    split
    · rw [stateOf_snoc, h.current t n]
    · exact h.current t n
  journal t n := by
    rw [mutate_journal, Histories.extend]
    split
    · rw [journalOf_snoc, h.journal t n]
    · exact h.journal t n
  below t n e he := by
    rw [mutate_nextRevision]
    rw [Histories.extend] at he
    split at he
    · rename_i hk
      rw [if_pos hk]
      rcases mem_append.1 he with he | he
      · exact Nat.lt_succ_of_lt (h.below t n e he)
      · obtain rfl := mem_singleton.1 he
        obtain ⟨rfl, rfl⟩ := hk
        exact Nat.lt_succ_self _
    · rename_i hk
      rw [if_neg hk]
      exact h.below t n e he
  pos t n := by
    rw [mutate_nextRevision]
    split
    · exact Nat.succ_pos _
    · exact h.pos t n
  valid t n := by
    rw [Histories.extend]
    split
    · rename_i hk
      obtain ⟨rfl, rfl⟩ := hk
      refine .snoc (h.valid _ _) (h.below _ _) (h.pos _ _) ?_ ?_
      · intro b hb
        exact (m.effect_eq_some _ hb).2.1
      · have : w.existingFor m = (historySpec env).replay (H m.record.tenantId m.record.ns)
            m.record.path := by
          rw [World.existingFor, World.stateFor, h.current, stateOf_bindings]
        rw [this] at hadm
        exact hadm
    · exact h.valid t n
  owned t n e he := by
    rw [Histories.extend] at he
    split at he
    · rename_i hk
      rcases mem_append.1 he with he | he
      · exact h.owned t n e he
      · obtain rfl := mem_singleton.1 he
        exact ⟨hk.1.symm, hk.2.symm⟩
    · exact h.owned t n e he

theorem Represents.made {H : Histories env} (h : Represents H w) (hm : c.Made w m) :
    Represents (H.extend m (w.revisionFor m)) (c.perform env w).2 :=
  (h.mutate hm.admitted).same hm.mutates

/-- One history continues another in a run that starts from a world: revisions are given in
ascending order, and to well-formed records only. -/
structure Continues (H H' : Histories env) (w w' : World) : Prop where
  next : ∀ t n, w.nextRevision t n ≤ w'.nextRevision t n
  grows : ∀ t n, ∃ es, H' t n = H t n ++ es ∧
    ∀ e ∈ es, w.nextRevision t n ≤ e.1 ∧ e.2.record.validate = .ok ()

theorem Continues.made {H H' : Histories env} (h : Continues H H' w w') (hm : c.Made w' m)
    (hvalid : m.record.validate = .ok ()) :
    Continues H (H'.extend m (w'.revisionFor m)) w (c.perform env w').2 where
  next t n := by
    rw [hm.mutates.nextRevision, mutate_nextRevision]
    split
    · exact (h.next t n).trans (Nat.le_succ _)
    · exact h.next t n
  grows t n := by
    obtain ⟨es, hes, hnew⟩ := h.grows t n
    rw [Histories.extend]
    by_cases hk : t = m.record.tenantId ∧ n = m.record.ns
    · refine ⟨es ++ [(w'.revisionFor m, m)], by rw [if_pos hk, hes, append_assoc], ?_⟩
      intro e he
      rcases mem_append.1 he with he | he
      · exact hnew e he
      · rw [mem_singleton.1 he]
        obtain ⟨rfl, rfl⟩ := hk
        exact ⟨h.next _ _, hvalid⟩
    · exact ⟨es, by rw [if_neg hk, hes], hnew⟩

/-- **Histories only grow.** -/
theorem Represents.run {H : Histories env} (h : Represents H w) (calls : List Call) :
    ∃ H' : Histories env, Represents H' (runCalls env calls w) ∧
      Continues H H' w (runCalls env calls w) := by
  induction calls using List.reverseRecOn with
  | nil => exact ⟨H, h, fun _ _ => le_rfl, fun t n => ⟨[], by simp, fun e he => by cases he⟩⟩
  | append_singleton calls c ih =>
    obtain ⟨H', h', hcont⟩ := ih
    rw [runCalls_append]
    rcases c.outcome_valid env (runCalls env calls w) with hs | ⟨m, hm, hvalid⟩
    · refine ⟨H', h'.same hs, fun t n => ?_, hcont.grows⟩
      exact (hcont.next t n).trans (hs.nextRevision t n).ge
    · exact ⟨_, h'.made hm, hcont.made hm hvalid⟩

/-- **Every run ends in a world that represents histories.** -/
theorem exists_represents (env : Env) (calls : List Call) :
    ∃ H : Histories env, Represents H (runCalls env calls World.empty) := by
  obtain ⟨H, h, -⟩ := Represents.empty.run calls
  exact ⟨H, h⟩

/-! ### What happened in a run -/

/-- A call in a run: the world it started in, its answer, and the world it left. -/
structure Exchange where
  before : World
  call : Call
  reply : Except ApiError Reply
  after : World

/-- The exchange a call makes in a world. -/
def Call.exchange (env : Env) (c : Call) (w : World) : Exchange :=
  ⟨w, c, (c.perform env w).1, (c.perform env w).2⟩

@[simp]
theorem Call.exchange_before (env : Env) (c : Call) (w : World) : (c.exchange env w).before = w :=
  rfl

/-- The exchanges of a run. -/
def exchanges (env : Env) : List Call → World → List Exchange
  | [], _ => []
  | c :: calls, w => c.exchange env w :: exchanges env calls (c.perform env w).2

/-- The exchange changed a namespace: it took a revision. -/
def Exchange.Mutates (x : Exchange) (t : TenantId) (n : String) : Prop :=
  x.after.nextRevision t n ≠ x.before.nextRevision t n

instance (x : Exchange) (t : TenantId) (n : String) : Decidable (x.Mutates t n) :=
  inferInstanceAs (Decidable (_ ≠ _))

/-- The revision an exchange gave to a namespace: the one the answer tells, or the one the current
state carries if the answer tells none. -/
def Exchange.revision (x : Exchange) (t : TenantId) (n : String) : ℕ :=
  (x.reply.toOption.bind Reply.revision?).getD (x.after.current t n).revision

/-- The exchanges of a run from the empty world that changed a namespace. -/
def mutationsOf (env : Env) (calls : List Call) (t : TenantId) (n : String) : List Exchange :=
  (exchanges env calls World.empty).filter fun x => x.Mutates t n

theorem exchanges_append (xs ys : List Call) (w : World) :
    exchanges env (xs ++ ys) w = exchanges env xs w ++ exchanges env ys (runCalls env xs w) := by
  induction xs generalizing w with
  | nil => rfl
  | cons c xs ih => simp [exchanges, ih]

theorem mutationsOf_snoc (calls : List Call) (c : Call) (t : TenantId) (n : String) :
    mutationsOf env (calls ++ [c]) t n = mutationsOf env calls t n ++
      [c.exchange env (runCalls env calls World.empty)].filter fun x => x.Mutates t n := by
  simp [mutationsOf, exchanges_append, exchanges]

/-- An exchange is recorded by an entry of a history: it succeeded, it asked for the mutation, and
it left the namespace in the state of the history up to the entry. -/
structure Recorded (H : History env) (t : TenantId) (n : String) (x : Exchange)
    (e : ℕ × Mutation env) : Prop where
  ok : x.reply.toBool = true
  target : x.call.target x.before = some e.2.target
  revision : x.revision t n = e.1
  state : x.after.current t n = stateOf n ((historySpec env).upTo e.1 H)

/-- A longer history still records what it recorded. -/
theorem Recorded.snoc {H : History env} {t : TenantId} {n : String} {x : Exchange}
    {e e' : ℕ × Mutation env} (h : Recorded H t n x e) (hlt : e.1 < e'.1) :
    Recorded (H ++ [e']) t n x e where
  ok := h.ok
  target := h.target
  revision := h.revision
  state := by
    rw [Log.Spec.upTo_snoc (L := historySpec env) hlt]
    exact h.state

/-- The exchange of a call that made a mutation. -/
theorem recorded_of_made {H : Histories env} (h : Represents H w) (hm : c.Made w m) {t : TenantId}
    {n : String} (hk : t = m.record.tenantId ∧ n = m.record.ns) :
    Recorded (H t n ++ [(w.revisionFor m, m)]) t n (c.exchange env w) (w.revisionFor m, m) := by
  obtain ⟨reply, hok, hrev⟩ := hm.ok
  have hcur : (c.perform env w).2.current t n =
      stateOf n (H t n ++ [(w.revisionFor m, m)]) := by
    rw [hm.mutates.current, mutate_current, if_pos hk, stateOf_snoc, h.current]
  refine ⟨?_, hm.target, ?_, ?_⟩
  · simp [Call.exchange, hok, Except.toBool]
  · cases hr : reply.revision? with
    | some r => simp [Exchange.revision, Call.exchange, hok, Except.toOption, hr, hrev r hr]
    | none =>
      simp [Exchange.revision, Call.exchange, hok, Except.toOption, hr, hcur, Mutation.applyTo]
  · rw [Log.Spec.upTo_eq_self]
    · exact hcur
    · intro e he
      rcases mem_append.1 he with he | he
      · obtain ⟨rfl, rfl⟩ := hk
        exact (h.below _ _ e he).le
      · obtain rfl := mem_singleton.1 he
        exact le_rfl

/-- **The exchanges that changed a namespace are the entries of its history.** -/
theorem exists_recorded (env : Env) (calls : List Call) :
    ∃ H : Histories env, Represents H (runCalls env calls World.empty) ∧
      ∀ t n, List.Forall₂ (Recorded (H t n) t n) (mutationsOf env calls t n) (H t n) := by
  induction calls using List.reverseRecOn with
  | nil => exact ⟨_, Represents.empty, fun _ _ => .nil⟩
  | append_singleton calls c ih =>
    obtain ⟨H, h, hrec⟩ := ih
    rw [runCalls_append]
    rcases c.outcome env (runCalls env calls World.empty) with hs | ⟨m, hm⟩
    · refine ⟨H, h.same hs, fun t n => ?_⟩
      have hno : ¬ (c.exchange env (runCalls env calls World.empty)).Mutates t n :=
        not_not.2 (hs.nextRevision t n)
      rw [mutationsOf_snoc, filter_singleton]
      simpa [hno] using hrec t n
    · refine ⟨_, h.made hm, fun t n => ?_⟩
      have hnext := (hm.mutates.nextRevision t n).trans (mutate_nextRevision _ m t n)
      rw [mutationsOf_snoc, filter_singleton, Histories.extend]
      by_cases hk : t = m.record.tenantId ∧ n = m.record.ns
      · rw [if_pos hk] at hnext ⊢
        have hyes : (c.exchange env (runCalls env calls World.empty)).Mutates t n :=
          fun he => Nat.succ_ne_self _ (hnext.symm.trans he)
        rw [decide_eq_true hyes]
        refine rel_append ?_ (.cons (recorded_of_made h hm hk) .nil)
        refine forall₂_iff_zip.2 ⟨(hrec t n).length_eq, fun hz => ?_⟩
        obtain ⟨rfl, rfl⟩ := hk
        exact (forall₂_zip (hrec _ _) hz).snoc (h.below _ _ _ (of_mem_zip hz).2)
      · rw [if_neg hk] at hnext ⊢
        have hno : ¬ (c.exchange env (runCalls env calls World.empty)).Mutates t n :=
          not_not.2 hnext
        simpa [hno] using hrec t n

end Hsp
