import Hsp.Namespace.Concurrency
import Hsp.Object.Entries

/-!
# Calls that are handled at the same time

What holds in every interleaving of calls, operation by operation, without any condition on the
turns.  Without the conditions of `Hsp.Namespace.Concurrency` revisions and sequence numbers may be
given twice, so nothing is said here about which of two mutations stays.

* `interleaved_entries` : an entry is changed only if a call of its tenant may write it;
* `interleaved_objects` : objects stay consistent, and chunks last;
* `interleaved_mutations` : bindings, journals and events come from signed records of their place.
-/

namespace Hsp

open Protocol

variable {env : Env} {ι : Type} [DecidableEq ι] {w w₀ : World} {o : Op}

/-! ### Entries -/

/-- **What interleaved calls change**: an entry is kept unless a call of its tenant may write it. -/
theorem interleaved_entries (env : Env) (calls : ι → Call) (w : World) (schedule : List ι)
    (l : Loc) : ((received env calls w).run (exec env) schedule).state.store l = w.store l ∨
      ∃ i, (calls i).tenantId = l.tenantId ∧ (l.isTrace ∨ (calls i).touches l) := by
  refine or_iff_not_imp_right.2 fun hnone => ?_
  have haside (i : ι) : Aside (fun l' => decide (l' = l)) (fun _ => True) ((calls i).handle env) :=
    ((calls i).handled_of_touches env (W := fun l' => l'.tenantId = (calls i).tenantId ∧
      (calls i).touches l') fun l' ht hl => ⟨ht, hl⟩).aside
      (fun l' ht hl => decide_eq_false fun he => hnone ⟨i, he ▸ ht.symm, .inl (he ▸ hl)⟩)
      fun l' hl => decide_eq_false fun he => hnone ⟨i, he ▸ hl.1.symm, .inr (he ▸ hl.2)⟩
  obtain ⟨-, -, hsame⟩ := Pool.run_invariant (c := received env calls w)
    (I := fun _ w' => SameOn (fun l' => decide (l' = l)) w w')
    (fun _ w o _ => not_failed_exec env o w) (fun _ _ _ _ _ _ h ho _ => h.exec ho) haside
    (fun _ _ => rfl) schedule
  exact hsame l (decide_eq_true rfl)

/-! ### Objects -/

/-- The objects are consistent, the chunks that calls know of are there, and so are those of an
earlier world. -/
structure Lasting (env : Env) (w₀ : World) (known : ι → Set Loc) (w : World) : Prop where
  consistent : Consistent env w
  stored : ∀ i t cid, Loc.chunks t cid ∈ known i → (w.store (.chunks t cid)).isSome
  lasts : ∀ t cid bytes, w₀.store (.chunks t cid) = some bytes →
    w.store (.chunks t cid) = some bytes

theorem Lasting.turn {known : ι → Set Loc} (h : Lasting env w₀ known w) {i : ι} {known' : Set Loc}
    (hstep : (uploadProtocol env).Step (known i) o (exec env o w).1 known') :
    Lasting env w₀ (Function.update known i known') (exec env o w).2 := by
  -- A manifest that a call knows of may be removed by another one, so only chunks count.
  have hheld : Holds env {l ∈ known i | ∃ t cid, l = .chunks t cid} w := by
    refine ⟨h.consistent, ?_⟩
    rintro _ ⟨hl, t, cid, rfl⟩ -
    exact h.stored i t cid hl
  have hheld' : Holds env {l ∈ known' | ∃ t cid, l = .chunks t cid} (exec env o w).2 := by
    refine hheld.step ⟨?_, ?_⟩
    · have hs := hstep.1
      unfold Op.Sound at hs ⊢
      split
      all_goals simp_all
    · rintro _ ⟨hl, t, cid, rfl⟩ ho
      exact (hstep.2 _ hl ho).imp_left fun hk => ⟨⟨hk.1, t, cid, rfl⟩, hk.2⟩
  have hstays (t : TenantId) (cid : String) (hb : (w.store (.chunks t cid)).isSome) :
      ((exec env o w).2.store (.chunks t cid)).isSome :=
    isSome_exec hb (by rintro rfl; cases hstep.1)
  refine ⟨hheld'.consistent, ?_, fun t cid bytes hb => ?_⟩
  · refine (Function.forall_update_iff known fun _ k => ∀ t cid, Loc.chunks t cid ∈ k →
      ((exec env o w).2.store (.chunks t cid)).isSome).2
      ⟨fun t cid hl => ?_, fun j _ t cid hl => ?_⟩
    · exact hheld'.stored _ ⟨hl, t, cid, rfl⟩ rfl
    · exact hstays t cid (h.stored j t cid hl)
  · have hw := h.lasts t cid bytes hb
    obtain ⟨bytes', hb'⟩ := Option.isSome_iff_exists.1 (hstays t cid (by rw [hw]; rfl))
    rw [hb', cidFromBytes_inj ((hheld'.consistent.chunk t cid bytes' hb').trans
      (h.consistent.chunk t cid bytes hw).symm)]

theorem lasting_run {c : CallPool ι} {Q : ι → Except ApiError Reply → Set Loc → Prop}
    {known : ι → Set Loc} (hc : c.Follows (uploadProtocol env) Q known)
    (h : Lasting env w₀ known c.state) (schedule : List ι) :
    ∃ known', (c.run (exec env) schedule).Follows (uploadProtocol env) Q known' ∧
      Lasting env w₀ known' (c.run (exec env) schedule).state :=
  Pool.run_invariant
    (fun _ _ o h => (⟨h.consistent, fun _ hl => hl.elim⟩ : Holds env ∅ _).legal o)
    (fun _ _ _ _ _ _ h hstep _ => h.turn hstep) hc h schedule

/-- **Objects under concurrency.**  Whatever calls are handled at the same time, and whichever of
them fail or are rolled back: chunks, sessions and manifests are what their keys say, manifests have
their chunks, and a chunk that is stored stays as it is. -/
theorem interleaved_objects (env : Env) (calls : ι → Call) (schedule : List ι) :
    let c := (received env calls World.empty).run (exec env) schedule
    Consistent env c.state ∧ ∀ later t cid bytes, c.state.store (.chunks t cid) = some bytes →
      (c.run (exec env) later).state.store (.chunks t cid) = some bytes := by
  intro c
  have hstart : Lasting env World.empty (fun _ : ι => ∅) World.empty :=
    ⟨consistent_run env [], fun _ _ _ h => h.elim, fun _ _ _ h => h⟩
  obtain ⟨known, hc, h⟩ := lasting_run (c := received env calls World.empty)
    (fun i => follows_uploads env (calls i)) hstart schedule
  refine ⟨h.consistent, fun later t cid bytes hb => ?_⟩
  have hnow : Lasting env c.state known c.state := ⟨h.consistent, h.stored, fun _ _ _ hw => hw⟩
  obtain ⟨_, -, hlater⟩ := lasting_run hc hnow later
  exact hlater.lasts t cid bytes hb

/-! ### Mutations -/

variable {asked : Mutation env → Prop} {s s' : Stage env} {m : Mutation env} {r : ℕ} {t : TenantId}
  {n : String}

/-- A namespace and the event log hold what records for their own place say that were asked for. -/
def Vouched (asked : Mutation env → Prop) : (l : Loc) → Val l → Prop
  | .namespaceCurrent t n, c => ∀ p b, c.bindings[p]? = some b →
      ∃ m r, asked m ∧ m.On t n ∧ m.record.path = p ∧ m.effect r = some b
  | .namespaceJournal t n, j => ∀ e ∈ j, ∃ m r, asked m ∧ m.On t n ∧ e = m.entry r
  | .event t seq, e => e.seq = seq ∧ (e.eventType = .authDenied ∨ e.eventType = .objectCommitted ∨
      ∃ m r atMs, asked m ∧ m.record.tenantId = t ∧ e = m.event r seq atMs)
  | _, _ => True

/-- What a call has read is vouched for. -/
def Stage.Vouched (asked : Mutation env → Prop) : Stage env → Prop
  | .looked m c | .numbered m c _ | .claimed m c _ =>
    Hsp.Vouched asked (.namespaceCurrent m.record.tenantId m.record.ns) c
  | .appending m _ j => Hsp.Vouched asked (.namespaceJournal m.record.tenantId m.record.ns) j
  | _ => True

theorem Vouched.plain (hw : Entries (Vouched asked) w) (ho : o.Plain) :
    Entries (Vouched asked) (exec env o w).2 := by
  have hsame : SameOn (fun l => !l.isPlain) w (exec env o w).2 := by
    refine SameOn.exec (fun _ _ => rfl) ?_
    cases o <;> first | trivial | exact congrArg not ho
  intro l v hv
  cases hl : l.isPlain with
  | true => cases l <;> trivial
  | false => exact hw l v ((hsame l (by simp [hl])).symm.trans hv)

theorem Vouched.applyTo {c : NamespaceCurrentState} (hm : asked m) (hon : m.On t n)
    (hc : Vouched asked (.namespaceCurrent t n) c) :
    Vouched asked (.namespaceCurrent t n) (m.applyTo r c) := by
  intro p b hb
  rw [Mutation.applyTo_bindings_getElem?] at hb
  by_cases hp : p = m.record.path
  · subst hp
    rw [Function.update_self] at hb
    exact ⟨m, r, hm, hon, rfl, hb⟩
  · rw [Function.update_of_ne hp] at hb
    exact hc p b hb

theorem Stage.Vouched.next {r : Res o} (hw : Entries (Hsp.Vouched asked) w) (hs : s.Vouched asked)
    (h : s.Next o r s') (hr : (exec env o w).1 = r)
    (hasked : ∀ t n e, s'.Carries t n e → asked e.2) :
    Entries (Hsp.Vouched asked) (exec env o w).2 ∧ s'.Vouched asked := by
  have look (m : Mutation env) (c : Option NamespaceCurrentState)
      (hc : w.store (.namespaceCurrent m.record.tenantId m.record.ns) = c) :
      (looked m (c.getD (.initial m.record.ns))).Vouched asked := by
    cases c with
    | none => exact fun p b hb => by simp [NamespaceCurrentState.initial] at hb
    | some c => exact hw (.namespaceCurrent _ _) c hc
  cases h with
  | plain ho => exact ⟨Vouched.plain hw ho, trivial⟩
  | cleanUp ho => exact ⟨Vouched.plain hw ho, trivial⟩
  | locate | refuse | sequence => exact ⟨hw, trivial⟩
  | lookBind _ _ => exact ⟨hw, look _ _ (Except.ok.inj hr)⟩
  | lookUnbind _ _ => exact ⟨hw, look _ _ (Except.ok.inj hr)⟩
  | number => exact ⟨hw, hs⟩
  | claim => exact ⟨hw.set trivial, hs⟩
  | @apply m c r =>
    exact ⟨hw.set (Vouched.applyTo (hasked _ _ (r, m) ⟨rfl, rfl, rfl⟩) ⟨rfl, rfl⟩ hs), trivial⟩
  | @fetch m r j =>
    refine ⟨hw, ?_⟩
    cases j with
    | none => exact List.forall_mem_nil _
    | some j => exact hw (.namespaceJournal _ _) j (Except.ok.inj hr)
  | @append m r j =>
    refine ⟨hw.set fun e he => ?_, trivial⟩
    rcases List.mem_append.1 he with he | he
    · exact hs e he
    · exact ⟨m, r, hasked _ _ (r, m) ⟨rfl, rfl, rfl⟩, ⟨rfl, rfl⟩, List.mem_singleton.1 he⟩
  | advance => exact ⟨hw.set trivial, trivial⟩
  | @emit ρ t e he =>
    refine ⟨hw.set ⟨rfl, ?_⟩, trivial⟩
    cases ρ with
    | journaled m r =>
      obtain ⟨rfl, atMs, he⟩ := he
      exact .inr (.inr ⟨m, r, atMs, hasked _ _ (r, m) ⟨rfl, rfl, rfl⟩, rfl, he⟩)
    | idle | done => exact he.imp_right .inl

/-- A call that has written a mutation goes on to an answer, and has asked for it. -/
theorem Call.asks_of_follows {call : Call} {p : Prog storeSig (Except ApiError Reply)}
    {e : ℕ × Mutation env} (h : (namespaceProtocol env).Follows p s
      ((namespaceProtocol env).post (fun reply s => s = .rest .idle ∨ ∃ m r, s = .rest (.done m r) ∧
        call.Asks m ∧ ∀ r', reply.revision? = some r' → r' = r) Unmoved))
    (hs : s.Carries t n e) : call.Asks e.2 := by
  induction p generalizing s with
  | ret a =>
    cases a with
    | error err => rcases h with rfl | rfl <;> exact hs.elim
    | ok reply =>
      obtain rfl | ⟨m, r, rfl, hasks, -⟩ := h
      · exact hs.elim
      · exact hs.1 ▸ hasks
  | op o k ih =>
    -- Any run in which the store does not fail will do.
    obtain ⟨s', hst, hk⟩ := h (exec env o World.empty).1 trivial
    rcases hst with hn | ⟨-, hf⟩
    · exact ih _ hk (hs.next hn)
    · exact absurd hf (not_failed_exec env _ World.empty)

/-- **Nothing is ever bound, journaled or announced that was not signed and asked for**, in any
interleaving: the bindings and the journal of a namespace are what verified records for this
namespace say that one of the calls asks for, and so are the events about namespaces. -/
theorem interleaved_mutations (env : Env) (calls : ι → Call) (schedule : List ι) :
    Entries (Vouched fun m : Mutation env => ∃ i, (calls i).Asks m)
      ((received env calls World.empty).run (exec env) schedule).state := by
  let asked (m : Mutation env) : Prop := ∃ i, (calls i).Asks m
  refine (Pool.run_invariant (c := received env calls World.empty)
    (I := fun (st : ι → Stage env) w => Entries (Vouched asked) w ∧ ∀ i, (st i).Vouched asked)
    (fun _ _ _ _ => trivial) ?_ (fun i => follows_handle env (calls i))
    ⟨fun _ _ h => (nomatch h), fun _ => trivial⟩ schedule).elim fun _ h => h.2.1
  rintro st w i o s' p ⟨hw, hst⟩ hstep hrest
  cases hstep with
  | fail _ hf => exact absurd hf (not_failed_exec env o w)
  | next hn =>
    obtain ⟨hw', hs'⟩ := Stage.Vouched.next hw (hst i) hn rfl
      fun _ _ _ he => ⟨i, Call.asks_of_follows hrest he⟩
    exact ⟨hw', (Function.forall_update_iff st fun _ s => s.Vouched _).2 ⟨hs', fun j _ => hst j⟩⟩

end Hsp
