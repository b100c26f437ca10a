import Hsp.Namespace.Refinement
import Hsp.Sample.Basic

/-!
# Revisions of a namespace

What holds of the mutations of a namespace over a whole run, all of it read off the history the
final world represents:

* `snapshot_of_run` : the journal replayed up to a revision gives the bindings the current state
  held when it was at that revision;
* `compare_and_set` : revisions ascend, and a revision of a path is used as a precondition once;
* `reapplied_of_journal` : how a signed record can be applied a second time.
-/

namespace Hsp

open List

variable {env : Env} {H : Histories env} {w : World}

/-! ### Exchanges and history entries -/

section Forall₂

variable {α β : Type} {R : α → β → Prop} {xs : List α} {ys : List β}

theorem exists_right_of_forall₂ (h : List.Forall₂ R xs ys) {x : α} (hx : x ∈ xs) :
    ∃ y ∈ ys, R x y := by
  induction h with
  | nil => cases hx
  | cons hr _ ih =>
    rcases mem_cons.1 hx with rfl | hx
    · exact ⟨_, mem_cons_self, hr⟩
    · obtain ⟨y, hy, hr⟩ := ih hx
      exact ⟨y, mem_cons_of_mem _ hy, hr⟩

theorem exists_left_of_forall₂ (h : List.Forall₂ R xs ys) {y : β} (hy : y ∈ ys) :
    ∃ x ∈ xs, R x y :=
  exists_right_of_forall₂ h.flip hy

/-- What holds between any two elements of one list carries over to the related ones. -/
theorem pairwise_of_forall₂ (h : List.Forall₂ R xs ys) {P : β → β → Prop} {Q : α → α → Prop}
    (hp : ys.Pairwise P) (hq : ∀ x y a b, R x a → R y b → P a b → Q x y) : xs.Pairwise Q := by
  induction h with
  | nil => exact .nil
  | @cons x a xs as hr htail ih =>
    obtain ⟨ha, hp⟩ := pairwise_cons.1 hp
    refine pairwise_cons.2 ⟨fun y hy => ?_, ih hp⟩
    obtain ⟨b, hb, hrb⟩ := exists_right_of_forall₂ htail hy
    exact hq x y a b hr hrb (ha b hb)

end Forall₂

/-! ### Snapshots -/

theorem stateOf_ns (n : String) (H : History env) : (stateOf n H).ns = n := by
  induction H using List.reverseRecOn with
  | nil => rfl
  | append_singleton H e ih => simpa [Mutation.applyTo] using ih

theorem le_stateOf_revision {n : String} {H : History env} (h : (historySpec env).Valid H) :
    ∀ e ∈ H, e.1 ≤ (stateOf n H).revision := by
  cases h with
  | nil => intro e he; cases he
  | snoc _ ascends _ _ _ =>
    intro e he
    rw [stateOf_snoc]
    rcases mem_append.1 he with he | he
    · exact (ascends e he).le
    · rw [mem_singleton.1 he]
      exact le_rfl

theorem runE_namespaceSnapshotAt (t : TenantId) (n : String) (r : ℕ) (w : World) :
    runE (exec env) (namespaceSnapshotAt t n (some r)) w =
      (.ok ⟨n, r, replayJournal r (w.journal t n) ∅⟩, w) := rfl

theorem Represents.snapshot (h : Represents H w) (t : TenantId) (n : String) (r : ℕ) :
    runE (exec env) (namespaceSnapshotAt t n (some r)) w =
      (.ok ⟨n, r, (stateOf n ((historySpec env).upTo r (H t n))).bindings⟩, w) := by
  rw [runE_namespaceSnapshotAt, h.journal, replayJournal_journalOf n]

theorem Represents.snapshot_current (h : Represents H w) (t : TenantId) (n : String) :
    runE (exec env) (namespaceSnapshotAt t n (some (w.current t n).revision)) w =
      (.ok (w.current t n), w) := by
  rw [h.snapshot, h.current, Log.Spec.upTo_eq_self (le_stateOf_revision (h.valid t n))]
  exact congrArg (fun ns => (Except.ok { stateOf n (H t n) with ns }, w))
    (stateOf_ns n (H t n)).symm

/-- The bindings a namespace held right after the last of some exchanges that took a revision not
beyond `r`; none if there is no such exchange. -/
def HeldAt (xs : List Exchange) (t : TenantId) (n : String) (r : ℕ)
    (bindings : BTreeMap String NamespaceBindingState) : Prop :=
  (∀ x ∈ xs, r < x.revision t n) ∧ bindings = ∅ ∨
    ∃ x ∈ xs, x.revision t n ≤ r ∧
      (∀ y ∈ xs, y.revision t n ≤ r → y.revision t n ≤ x.revision t n) ∧
      bindings = (x.after.current t n).bindings

/-- **The journal and the current state agree at every revision.** -/
theorem snapshot_of_run (calls : List Call) (t : TenantId) (n : String) :
    let w := runCalls env calls World.empty
    (∀ r, ∃ bindings,
      runE (exec env) (namespaceSnapshotAt t n (some r)) w = (.ok ⟨n, r, bindings⟩, w) ∧
        HeldAt (mutationsOf env calls t n) t n r bindings) ∧
      runE (exec env) (namespaceSnapshotAt t n (some (w.current t n).revision)) w =
        runE (exec env) (namespaceSnapshotAt t n none) w := by
  intro w
  obtain ⟨H, h, hrec⟩ := exists_recorded env calls
  refine ⟨fun r => ⟨_, h.snapshot t n r, ?_⟩, h.snapshot_current t n⟩
  rcases (h.valid t n).upTo_cases r with ⟨hnil, hall⟩ | ⟨e, he, hle, hmax, hup⟩
  · refine .inl ⟨fun x hx => ?_, by rw [hnil]; rfl⟩
    obtain ⟨e, he, hxe⟩ := exists_right_of_forall₂ (hrec t n) hx
    exact hxe.revision ▸ hall e he
  · obtain ⟨x, hx, hxe⟩ := exists_left_of_forall₂ (hrec t n) he
    refine .inr ⟨x, hx, hxe.revision ▸ hle, fun y hy hyle => ?_, ?_⟩
    · obtain ⟨e', he', hye⟩ := exists_right_of_forall₂ (hrec t n) hy
      rw [hye.revision, hxe.revision] at *
      exact hmax e' he' hyle
    · rw [hup, hxe.state]
      rfl

/-! ### Compare-and-set -/

theorem expects_of_ifRevision {e : ℕ × Mutation env} {r : UInt64}
    (h : e.2.record.ifRevision = some r) : (historySpec env).Expects e r.toNat := by
  intro existing hadm
  rw [historySpec_revOf]
  exact hadm.1 r h

theorem Represents.binding_revision_le (h : Represents H w) {t : TenantId} {n p : String}
    {b : NamespaceBindingState} (hb : w.binding t n p = some b) :
    b.revision ≤ (w.current t n).revision := by
  rw [World.binding, h.current, stateOf_bindings] at hb
  rcases Log.Spec.replay_eq_none_or (L := historySpec env) (H t n) p with hn | ⟨e, he, -, hv⟩
  · rw [hn] at hb; cases hb
  · have hrev : b.revision = e.1 := (e.2.effect_eq_some e.1 (hv.symm.trans hb)).2.1
    rw [hrev, h.current]
    exact le_stateOf_revision (h.valid t n) e he

/-- **Sequential compare-and-set.** -/
theorem compare_and_set (calls : List Call) (t : TenantId) (n : String) :
    let w := runCalls env calls World.empty
    let mutations := mutationsOf env calls t n
    mutations.Pairwise (fun x y => x.revision t n < y.revision t n) ∧
      (∀ x ∈ mutations, x.reply.toBool = true ∧ x.revision t n < w.nextRevision t n) ∧
      (∀ p b, w.binding t n p = some b → b.revision ≤ (w.current t n).revision) ∧
      ∀ (p : String) (r : UInt64), 1 ≤ r → mutations.Pairwise fun x y =>
        x.call.target x.before = some ⟨t, n, p, some r⟩ →
          y.call.target y.before ≠ some ⟨t, n, p, some r⟩ := by
  intro w mutations
  obtain ⟨H, h, hrec⟩ := exists_recorded env calls
  refine ⟨?_, fun x hx => ?_, fun p b hb => h.binding_revision_le hb, fun p r hr => ?_⟩
  · refine pairwise_of_forall₂ (hrec t n) (h.valid t n).pairwise_rev fun x y a b hx hy hlt => ?_
    rw [hx.revision, hy.revision]
    exact hlt
  · obtain ⟨e, he, hxe⟩ := exists_right_of_forall₂ (hrec t n) hx
    exact ⟨hxe.ok, hxe.revision ▸ h.below t n e he⟩
  · have hpos : 0 < r.toNat := hr
    refine pairwise_of_forall₂ (hrec t n) ((h.valid t n).expects_unique hpos)
      fun x y a b hx hy hne htx hty => ?_
    rw [hx.target, Option.some.injEq, Mutation.target, Target.mk.injEq] at htx
    rw [hy.target, Option.some.injEq, Mutation.target, Target.mk.injEq] at hty
    exact hne (htx.2.2.1.trans hty.2.2.1.symm) (expects_of_ifRevision htx.2.2.2)
      (expects_of_ifRevision hty.2.2.2)

/-! ### Signed records that are applied twice -/

theorem Mutation.effect_eq_none (m : Mutation env) (r : ℕ) :
    m.effect r = none ↔ m.record.kind = .hardDelete := by
  unfold Mutation.effect
  split <;> simp_all

/-- In a history, a record that occurs twice is a bind without a positive revision, and its path
was removed in between. -/
theorem reapplied_of_history {xs ys zs : History env} {r r' : ℕ} {m : Mutation env}
    (h : (historySpec env).Valid (xs ++ (r, m) :: (ys ++ (r', m) :: zs))) :
    m.record.kind = .bind ∧
      (m.record.ifRevision = none ∧
          (∃ c ∈ ys, c.2.record.path = m.record.path ∧ c.2.record.kind ≠ .bind) ∨
        m.record.ifRevision = some 0 ∧
          ∃ c ∈ ys, c.2.record.path = m.record.path ∧ c.2.record.kind = .hardDelete) := by
  have hsplit : xs ++ (r, m) :: (ys ++ (r', m) :: zs) = (xs ++ (r, m) :: ys) ++ (r', m) :: zs := by
    simp
  obtain ⟨hvalid, hadm⟩ := (hsplit ▸ h).admitted_of_split
  change m.Admits ((historySpec env).replay (xs ++ (r, m) :: ys) m.record.path) at hadm
  obtain ⟨hif, hlive, hremove⟩ := hadm
  cases hrev : m.record.ifRevision with
  | none =>
    have hkind : m.record.kind = .bind := by
      by_contra hk
      exact (hremove hk).2 hrev
    obtain ⟨c, hc, hpath, hdead⟩ := Log.Spec.exists_between (L := historySpec env) (p := isLive)
      (a := (r, m)) ((m.isLive_effect r).2 hkind) (hlive hrev)
    exact ⟨hkind, .inl ⟨rfl, c, hc, hpath, fun hk => hdead ((c.2.isLive_effect c.1).2 hk)⟩⟩
  | some v =>
    by_cases hv : v = 0
    · subst hv
      -- Revision zero means that the path holds nothing, since bindings carry positive revisions.
      have hnone : (historySpec env).replay (xs ++ (r, m) :: ys) m.record.path = none := by
        have hzero := hif 0 hrev
        cases hr : (historySpec env).replay (xs ++ (r, m) :: ys) m.record.path with
        | none => rfl
        | some binding =>
          rw [hr] at hzero
          exact absurd hzero (hvalid.pos_of_replay hr).ne'
      have hkind : m.record.kind = .bind := by
        by_contra hk
        exact (hremove hk).1 hnone
      have hsome : m.effect r ≠ none := fun hn => by
        rw [(m.effect_eq_none r).1 hn] at hkind
        cases hkind
      obtain ⟨c, hc, hpath, hgone⟩ := Log.Spec.exists_between (L := historySpec env)
        (p := (· ≠ none)) (a := (r, m)) hsome (not_not.2 hnone)
      exact ⟨hkind, .inr ⟨rfl, c, hc, hpath, (c.2.effect_eq_none c.1).1 (not_not.1 hgone)⟩⟩
    · -- A positive revision is used by one entry only.
      have hpos : 0 < v.toNat := UInt64.pos_iff_ne_zero.2 hv
      have hpair := (pairwise_append.1 (h.expects_unique hpos)).2.1
      exact absurd (expects_of_ifRevision hrev)
        ((pairwise_cons.1 hpair).1 (r', m) (by simp) rfl (expects_of_ifRevision hrev))

/-- **How a signed record can be applied twice**: it binds a path, without a revision or with
revision zero, and the path was removed in between (for revision zero, without a tombstone). -/
theorem reapplied_of_journal (calls : List Call) (t : TenantId) (n : String)
    {xs ys zs : List NamespaceJournalEntry} {a b : NamespaceJournalEntry}
    (hj : (runCalls env calls World.empty).journal t n = xs ++ a :: (ys ++ b :: zs))
    (hcid : a.recordCid = b.recordCid) :
    a.record = b.record ∧ a.record.kind = .bind ∧
      (a.record.ifRevision = none ∧
          (∃ c ∈ ys, c.record.path = a.record.path ∧ c.record.kind ≠ .bind) ∨
        a.record.ifRevision = some 0 ∧
          ∃ c ∈ ys, c.record.path = a.record.path ∧ c.record.kind = .hardDelete) := by
  obtain ⟨H, h⟩ := exists_represents env calls
  rw [h.journal, journalOf, map_eq_append_iff] at hj
  obtain ⟨xs, rest₁, hH, rfl, h₁⟩ := hj
  obtain ⟨⟨r, m⟩, rest₂, rfl, rfl, h₂⟩ := map_eq_cons_iff.1 h₁
  obtain ⟨ys, rest₃, rfl, rfl, h₃⟩ := map_eq_append_iff.1 h₂
  obtain ⟨⟨r', m'⟩, zs, rfl, rfl, rfl⟩ := map_eq_cons_iff.1 h₃
  obtain rfl : m = m' := Mutation.ext (recordCid_inj hcid)
  obtain ⟨hkind, hcase⟩ := reapplied_of_history (hH ▸ h.valid t n)
  refine ⟨rfl, hkind, hcase.imp ?_ ?_⟩
  · rintro ⟨hnone, c, hc, hpath, hk⟩
    exact ⟨hnone, _, mem_map_of_mem hc, hpath, hk⟩
  · rintro ⟨hzero, c, hc, hpath, hk⟩
    exact ⟨hzero, _, mem_map_of_mem hc, hpath, hk⟩

namespace Sample

/-- The object is bound, removed, and bound again by the same record, each call with a token of
its own. -/
def reapplication : List Call := upload ++ [bind "4" 0, unbind "5" 1, bind "6" 0]

/-- The platform of the run above. -/
abbrev reapplicationEnv : Env := Sample.env [bindRecord, unbindRecord]

/-- The records of the run. -/
theorem reapplication_evaluated :
    ((runCalls reapplicationEnv reapplication World.empty).journal tenant "n").map (·.recordCid) =
      [bindRecord, unbindRecord, bindRecord].map (·.recordCid reapplicationEnv) := by
  decide +kernel

/-- The same record is in the journal twice, and the binding it made is back after its removal. -/
theorem reapplied :
    let w := runCalls reapplicationEnv (reapplication.take 5) World.empty
    let w' := runCalls reapplicationEnv reapplication World.empty
    ¬ ((w'.journal tenant "n").map (·.recordCid)).Nodup ∧
      (w.binding tenant "n" "p").map (·.tombstone) = some true ∧
      (w'.binding tenant "n" "p").map (fun b => (b.tombstone, b.targetCid)) =
        some (false, some manifestCid) := by
  refine ⟨?_, by decide +kernel⟩
  rw [reapplication_evaluated]
  simp

/-- The run above meets the hypotheses of the theorem, and its record binds without a revision. -/
theorem reapplied_record_kind : ∃ a ∈
    (runCalls reapplicationEnv reapplication World.empty).journal tenant "n",
    a.record.kind = .bind := by
  have hcids := reapplication_evaluated
  obtain ⟨a, c, b, hj⟩ := length_eq_three.1 (by simpa using congrArg List.length hcids)
  rw [hj] at hcids ⊢
  simp only [map_cons, map_nil, cons.injEq] at hcids
  have h := reapplied_of_journal reapplication tenant "n"
    (show _ = [] ++ a :: ([c] ++ b :: []) from hj) (hcids.1.trans hcids.2.2.1.symm)
  exact ⟨a, by simp, h.2.1⟩

end Sample

end Hsp
