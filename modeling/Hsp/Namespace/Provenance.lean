import Hsp.Namespace.Refinement
import Hsp.Sample.Basic
import Hsp.Service.StoreKey

/-!
# Where bindings come from and what a call can change

* `binding_provenance` : every binding was made by a verified record that the journal holds;
* `frame_of_call` : a call that fails changes no namespace, and a call that succeeds changes at
  most the binding it names.
-/

namespace Hsp

variable {env : Env}

/-! ### Provenance -/

/-- A binding says what a journal entry with a verified record says. -/
structure ComesFrom (env : Env) (t : TenantId) (n p : String) (b : NamespaceBindingState)
    (entry : NamespaceJournalEntry) : Prop where
  revision : entry.revision = b.revision
  recordCid : b.recordCid = entry.record.recordCid env
  verified : ∃ token registry, env.issuerRegistry = some registry ∧
    verifySignedNamespaceRecord env token registry = .ok entry.record
  names : entry.record.tenantId = t ∧ entry.record.ns = n ∧ entry.record.path = p ∧ b.path = p
  live : b.tombstone = false → entry.record.kind = .bind ∧ b.targetCid = entry.record.targetCid ∧
    b.metadata = entry.record.metadata
  tombstone : b.tombstone = true → entry.record.kind = .unbind ∧ b.targetCid = none

theorem Mutation.comesFrom (m : Mutation env) (r : ℕ) {b : NamespaceBindingState}
    (hb : m.effect r = some b) :
    ComesFrom env m.record.tenantId m.record.ns m.record.path b (m.entry r) where
  revision := (m.effect_eq_some r hb).2.1.symm
  recordCid := (m.effect_eq_some r hb).2.2
  verified := m.verified
  names := ⟨rfl, rfl, rfl, (m.effect_eq_some r hb).1⟩
  live hlive := by
    cases hk : m.record.kind <;> simp only [Mutation.effect, hk, Option.some.injEq,
      reduceCtorEq] at hb <;> subst hb <;> simp_all [Mutation.entry]
  tombstone htomb := by
    cases hk : m.record.kind <;> simp only [Mutation.effect, hk, Option.some.injEq,
      reduceCtorEq] at hb <;> subst hb <;> simp_all [Mutation.entry]

theorem Represents.comesFrom {H : Histories env} {w : World} (h : Represents H w) {t : TenantId}
    {n p : String} {b : NamespaceBindingState} (hb : w.binding t n p = some b) :
    ∃ entry ∈ w.journal t n, ComesFrom env t n p b entry := by
  rw [World.binding, h.current, stateOf_bindings] at hb
  rcases Log.Spec.replay_eq_none_or (L := historySpec env) (H t n) p with hn | ⟨e, he, hp, hv⟩
  · rw [hn] at hb; cases hb
  · obtain ⟨rfl, rfl⟩ := h.owned t n e he
    obtain rfl : e.2.record.path = p := hp
    refine ⟨e.2.entry e.1, ?_, e.2.comesFrom e.1 (hv.symm.trans hb)⟩
    rw [h.journal]
    exact List.mem_map_of_mem he

/-- **Provenance of bindings.** -/
theorem binding_provenance (calls : List Call) {t : TenantId} {n p : String}
    {b : NamespaceBindingState} (hb : (runCalls env calls World.empty).binding t n p = some b) :
    ∃ entry ∈ (runCalls env calls World.empty).journal t n, ComesFrom env t n p b entry := by
  obtain ⟨H, h⟩ := exists_represents env calls
  exact h.comesFrom hb

/-- An object is uploaded and bound. -/
def Sample.boundObject : List Call := Sample.upload ++ [Sample.bind "4" 0]

theorem Sample.boundObject_provenance :
    let w := runCalls (Sample.env [Sample.bindRecord]) Sample.boundObject World.empty
    ∃ b, w.binding Sample.tenant "n" "p" = some b ∧ ∃ entry ∈ w.journal Sample.tenant "n",
      ComesFrom (Sample.env [Sample.bindRecord]) Sample.tenant "n" "p" b entry := by
  intro w
  have hbound : (w.binding Sample.tenant "n" "p").isSome := by decide +kernel
  obtain ⟨b, hb⟩ := Option.isSome_iff_exists.1 hbound
  exact ⟨b, hb, binding_provenance Sample.boundObject hb⟩

/-! ### Frame -/

/-- **Frame of a call.**  The names of entries in the backing store are distinct, so that what is
said about the entries of the store holds of the files they are kept in. -/
theorem frame_of_call (calls : List Call) (c : Call) :
    let w := runCalls env calls World.empty
    let w' := (c.perform env w).2
    ((c.perform env w).1.toBool = false → SameNamespaces w w') ∧
      (∀ t n p, w'.binding t n p ≠ w.binding t n p → ∃ r, c.target w = some ⟨t, n, p, r⟩) ∧
      Function.Injective (Loc.storeKey env) := by
  intro w w'
  rcases c.outcome env w with hs | ⟨m, hm⟩
  · exact ⟨fun _ => hs, fun t n p hne => absurd (hs.binding t n p) hne, storeKey_injective⟩
  · obtain ⟨reply, hok, -⟩ := hm.ok
    refine ⟨fun herr => ?_, fun t n p hne => ?_, storeKey_injective⟩
    · rw [hok] at herr
      cases herr
    · by_contra hno
      refine hne ((hm.mutates.binding t n p).trans ((mutate_binding w m t n p).trans ?_))
      rw [if_neg]
      rintro ⟨rfl, rfl, rfl⟩
      exact hno ⟨_, hm.target⟩

end Hsp
