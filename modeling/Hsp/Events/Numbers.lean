import Hsp.Events.Subscription
import Hsp.Namespace.Concurrency

/-!
# Events that are appended at the same time

The number of an event comes from a counter that is read and then written, and the event is written
after that.  Nothing makes the three operations one action, so the calls of a pool may read the same
number.

* `events_numbered_once` : if the counter of a log is only moved on by calls that have read what it
  holds, then in every interleaving the numbers handed out are distinct, and every event that was
  appended stays in the log under its number.
* `nextRevision_le`, `nextSeq_le` : the counters are bounded by the number of calls and of turns.
* `Sample.event_lost` : turn by turn, two denied requests take the same number, and one of the two
  events is overwritten.
-/

namespace Hsp

open List

variable {env : Env} {t : TenantId} {w w' : World} {o : Op}

/-! ### What a turn does to an event log -/

/-- The number an operation hands out: the one before the number it writes to the counter. -/
def Op.handsOut (t : TenantId) : Op → Option ℕ
  | .write (.eventSequence t') v => if t' = t then some (v.nextSeq - 1) else none
  | _ => none

/-- The event an operation appends. -/
def Op.appends (t : TenantId) : Op → Option EventRecord
  | .write (.event t' _) e => if t' = t then some e else none
  | _ => none

/-- The operation does not set the counter to anything but the number after the one it holds. -/
def Op.advances (t : TenantId) (w : World) : Op → Bool
  | .write (.eventSequence t') v => t' = t → v.nextSeq = w.nextSeq t + 1
  | _ => true

/-- The turn of a call does not move the counter unless the call has read what it holds. -/
def Uncontended {ι : Type} (t : TenantId) (c : CallPool ι) (i : ι) : Prop :=
  (c.threads i).next?.all (·.advances t c.state)

instance {ι : Type} (t : TenantId) (c : CallPool ι) (i : ι) : Decidable (Uncontended t c i) :=
  inferInstanceAs (Decidable (_ = true))

/-- The call has taken a number and not written its event yet. -/
def Stage.Holds (t : TenantId) (seq : ℕ) : Stage env → Prop
  | .sequenced _ t' seq' => t' = t ∧ seq' = seq
  | _ => False

/-- Two worlds have the same log for a tenant. -/
structure SameLog (t : TenantId) (w w' : World) : Prop where
  event : ∀ seq, w'.store (.event t seq) = w.store (.event t seq)
  nextSeq : w'.nextSeq t = w.nextSeq t

theorem SameLog.of_sameOn (h : SameOn Loc.isEventLog w w') : SameLog t w w' :=
  ⟨fun seq => h (.event t seq) rfl, by rw [World.nextSeq, h (.eventSequence t) rfl, World.nextSeq]⟩

/-- What a turn does to the log of a tenant. -/
inductive LogTurn (t : TenantId) (w : World) (o : Op) (w' : World) :
    Stage env → Stage env → Prop
  | other {s s' : Stage env} (same : SameLog t w w') (hands : o.handsOut t = none)
      (appends : o.appends t = none) (holds : ∀ seq, s'.Holds t seq → s.Holds t seq) :
      LogTurn t w o w' s s'
  | advance {s s' : Stage env} {seq : ℕ} (event : ∀ k, w'.store (.event t k) = w.store (.event t k))
      (nextSeq : w'.nextSeq t = seq + 1) (hands : o.handsOut t = some seq)
      (appends : o.appends t = none) (holds : ∀ k, s'.Holds t k → k = seq) : LogTurn t w o w' s s'
  | emit {s s' : Stage env} {e : EventRecord} (written : w'.store (.event t e.seq) = some e)
      (event : ∀ k, k ≠ e.seq → w'.store (.event t k) = w.store (.event t k))
      (nextSeq : w'.nextSeq t = w.nextSeq t) (hands : o.handsOut t = none)
      (appends : o.appends t = some e) (held : s.Holds t e.seq)
      (holds : ∀ k, ¬ s'.Holds t k) : LogTurn t w o w' s s'

theorem LogTurn.of_same {s s' : Stage env} (same : SameLog t w w') (hands : o.handsOut t = none)
    (appends : o.appends t = none) (holds : ∀ seq, ¬ s'.Holds t seq) : LogTurn t w o w' s s' :=
  .other same hands appends fun seq h => absurd h (holds seq)

/-- Plain operations neither hand out a number nor append an event. -/
theorem Op.Plain.quiet (ho : o.Plain) (t : TenantId) :
    o.handsOut t = none ∧ o.appends t = none := by
  cases o with
  | write l v => cases l <;> first | exact ⟨rfl, rfl⟩ | cases ho
  | _ => exact ⟨rfl, rfl⟩

theorem SameLog.exec_plain (ho : o.Plain) (w : World) : SameLog t w (exec env o w).2 := by
  have hplain : ∀ l : Loc, l.isPlain → l.isEventLog = false := by
    intro l hl
    cases l <;> first | rfl | cases hl
  exact .of_sameOn (SameOn.exec (fun _ _ => rfl) (ho.spares hplain))

theorem SameLog.set (w : World) {l : Loc} (hl : l.isEventLog = false) (v : Option (Val l)) :
    SameLog t w (w.set l v) :=
  .of_sameOn (SameOn.set (fun _ _ => rfl) hl v)

/-- **The turns of the protocol, in the log of a tenant.** -/
theorem Stage.Next.logTurn {s s' : Stage env} (hn : s.Next o (exec env o w).1 s') :
    LogTurn t w o (exec env o w).2 s s' := by
  generalize hr : (exec env o w).1 = r at hn
  cases hn with
  | plain ho => exact .of_same (.exec_plain ho w) (ho.quiet t).1 (ho.quiet t).2 fun _ h => h
  | cleanUp ho => exact .of_same (.exec_plain ho w) (ho.quiet t).1 (ho.quiet t).2 fun _ h => h
  | claim => exact .of_same (.set w rfl _) rfl rfl fun _ h => h
  | apply => exact .of_same (.set w rfl _) rfl rfl fun _ h => h
  | append => exact .of_same (.set w rfl _) rfl rfl fun _ h => h
  | @advance ρ t' seq =>
    by_cases ht : t' = t
    · subst ht
      refine .advance (fun k => ?_) ?_ (by simp [Op.handsOut] : _ = some seq) rfl
        fun k h => h.2.symm
      · simp [exec]
      · simp [exec, World.nextSeq]
    · refine .of_same ⟨fun k => ?_, ?_⟩ (by simp [Op.handsOut, ht]) rfl fun k h => ht h.1
      · simp [exec]
      · have hne : t ≠ t' := fun h => ht h.symm
        simp [exec, World.nextSeq, hne]
  | @emit ρ t' e he =>
    by_cases ht : t' = t
    · subst ht
      refine .emit (e := e) ?_ (fun k hk => ?_) ?_ rfl (by simp [Op.appends]) ⟨rfl, rfl⟩
        fun k h => h
      · simp [exec]
      · simp [exec, hk]
      · simp [exec, World.nextSeq]
    · have hne : t ≠ t' := fun h => ht h.symm
      refine .of_same ⟨fun k => ?_, ?_⟩ rfl (by simp [Op.appends, ht]) fun k h => h
      · simp [exec, hne]
      · simp [exec, World.nextSeq]
  | _ => exact .of_same ⟨fun _ => rfl, rfl⟩ rfl rfl fun _ h => h

/-! ### The invariant -/

/-- The numbers handed out so far are those from `n₀` on, and the events `E₀` and those appended so
far are in the log. -/
structure InSequence {ι : Type} (t : TenantId) (w₀ : World) (st : ι → Stage env) (os : List Op)
    (w : World) : Prop where
  handed : os.filterMap (Op.handsOut t) =
    List.range' (w₀.nextSeq t) (w.nextSeq t - w₀.nextSeq t)
  grown : w₀.nextSeq t ≤ w.nextSeq t
  below : ∀ seq e, w.store (.event t seq) = some e → seq < w.nextSeq t
  old : ∀ seq e, w₀.store (.event t seq) = some e → w.store (.event t seq) = some e
  kept : ∀ e ∈ os.filterMap (Op.appends t), w.store (.event t e.seq) = some e
  held : ∀ i seq, (st i).Holds t seq → seq < w.nextSeq t ∧ w.store (.event t seq) = none
  unique : ∀ i j seq, (st i).Holds t seq → (st j).Holds t seq → i = j

namespace InSequence

variable {ι : Type} [DecidableEq ι] {t : TenantId} {w₀ w w' : World} {st : ι → Stage env}
  {os : List Op} {o : Op} {i : ι} {s' : Stage env}

omit [DecidableEq ι] in
theorem start (h : ∀ seq e, w.store (.event t seq) = some e → seq < w.nextSeq t) :
    InSequence t w (fun _ : ι => (.rest .idle : Stage env)) [] w where
  handed := by simp
  grown := le_rfl
  below := h
  old _ _ h := h
  kept _ h := by cases h
  held _ _ h := h.elim
  unique _ _ _ h := h.elim

theorem other (h : InSequence t w₀ st os w) (same : SameLog t w w') (hands : o.handsOut t = none)
    (appends : o.appends t = none) (holds : ∀ seq, s'.Holds t seq → (st i).Holds t seq) :
    InSequence t w₀ (Function.update st i s') (os ++ [o]) w' := by
  have hholds : ∀ j seq, (Function.update st i s' j).Holds t seq → (st j).Holds t seq :=
    (Function.forall_update_iff st fun j s => ∀ seq, s.Holds t seq → (st j).Holds t seq).2
      ⟨holds, fun _ _ _ h => h⟩
  constructor
  · simp [hands, h.handed, same.nextSeq]
  · rw [same.nextSeq]
    exact h.grown
  · simpa only [same.event, same.nextSeq] using h.below
  · simpa only [same.event] using h.old
  · simpa [appends, same.event] using h.kept
  · intro j seq hj
    rw [same.nextSeq, same.event]
    exact h.held j seq (hholds j seq hj)
  · exact fun j k seq hj hk => h.unique j k seq (hholds j seq hj) (hholds k seq hk)

theorem advance (h : InSequence t w₀ st os w)
    (event : ∀ k, w'.store (.event t k) = w.store (.event t k))
    (nextSeq : w'.nextSeq t = w.nextSeq t + 1) (hands : o.handsOut t = some (w.nextSeq t))
    (appends : o.appends t = none) (holds : ∀ k, s'.Holds t k → k = w.nextSeq t) :
    InSequence t w₀ (Function.update st i s') (os ++ [o]) w' := by
  have hnew : w.store (.event t (w.nextSeq t)) = none := by
    cases he : w.store (.event t (w.nextSeq t)) with
    | none => rfl
    | some e => exact absurd (h.below _ e he) (lt_irrefl _)
  have hsplit : ∀ j seq, (Function.update st i s' j).Holds t seq →
      j = i ∧ seq = w.nextSeq t ∨ (st j).Holds t seq :=
    (Function.forall_update_iff st fun j s => ∀ seq, s.Holds t seq →
      j = i ∧ seq = w.nextSeq t ∨ (st j).Holds t seq).2
      ⟨fun seq hseq => .inl ⟨rfl, holds seq hseq⟩, fun _ _ _ h => .inr h⟩
  have hgrown := h.grown
  constructor
  · have hlen : w.nextSeq t + 1 - w₀.nextSeq t = w.nextSeq t - w₀.nextSeq t + 1 := by omega
    have hlast : w₀.nextSeq t + (w.nextSeq t - w₀.nextSeq t) = w.nextSeq t := by omega
    rw [filterMap_append, h.handed, nextSeq, hlen, range'_1_concat, hlast]
    simp [hands]
  · omega
  · intro seq e he
    rw [event] at he
    have := h.below seq e he
    omega
  · simpa only [event] using h.old
  · simpa [appends, event] using h.kept
  · intro j seq hj
    rw [nextSeq, event]
    rcases hsplit j seq hj with ⟨-, rfl⟩ | hj
    · exact ⟨Nat.lt_succ_self _, hnew⟩
    · exact ⟨Nat.lt_succ_of_lt (h.held j seq hj).1, (h.held j seq hj).2⟩
  · -- A number that somebody holds is below the counter, so it is not the new one.
    intro j k seq hj hk
    rcases hsplit j seq hj with ⟨rfl, hseq⟩ | hj' <;>
      rcases hsplit k seq hk with ⟨rfl, hseq'⟩ | hk'
    · rfl
    · exact absurd hseq (h.held k _ hk').1.ne
    · exact absurd hseq' (h.held j _ hj').1.ne
    · exact h.unique j k seq hj' hk'

theorem emit (h : InSequence t w₀ st os w) {e : EventRecord}
    (written : w'.store (.event t e.seq) = some e)
    (event : ∀ k, k ≠ e.seq → w'.store (.event t k) = w.store (.event t k))
    (nextSeq : w'.nextSeq t = w.nextSeq t) (hands : o.handsOut t = none)
    (appends : o.appends t = some e) (held : (st i).Holds t e.seq)
    (holds : ∀ k, ¬ s'.Holds t k) :
    InSequence t w₀ (Function.update st i s') (os ++ [o]) w' := by
  have hholds : ∀ j seq, (Function.update st i s' j).Holds t seq → j ≠ i ∧ (st j).Holds t seq :=
    (Function.forall_update_iff st fun j s => ∀ seq, s.Holds t seq → j ≠ i ∧ (st j).Holds t seq).2
      ⟨fun seq hseq => absurd hseq (holds seq), fun _ hj _ h => ⟨hj, h⟩⟩
  obtain ⟨hlt, hnone⟩ := h.held i _ held
  -- No event was stored under the number, so none is overwritten.
  have hkeep : ∀ seq e', w.store (.event t seq) = some e' → w'.store (.event t seq) = some e' := by
    intro seq e' he'
    have hne : seq ≠ e.seq := by
      rintro rfl
      rw [hnone] at he'
      cases he'
    rwa [event seq hne]
  constructor
  · simp [hands, h.handed, nextSeq]
  · rw [nextSeq]
    exact h.grown
  · intro seq e' he'
    rw [nextSeq]
    by_cases hseq : seq = e.seq
    · exact hseq ▸ hlt
    · rw [event seq hseq] at he'
      exact h.below seq e' he'
  · exact fun seq e' he' => hkeep seq e' (h.old seq e' he')
  · intro e' he'
    rw [filterMap_append, mem_append] at he'
    rcases he' with he' | he'
    · exact hkeep _ e' (h.kept e' he')
    · obtain rfl : e' = e := by simpa [appends] using he'
      exact written
  · intro j seq hj
    obtain ⟨hji, hj⟩ := hholds j seq hj
    have hne : seq ≠ e.seq := by
      rintro rfl
      exact hji (h.unique j i _ hj held)
    rw [nextSeq, event seq hne]
    exact h.held j seq hj
  · exact fun j k seq hj hk => h.unique j k seq (hholds j seq hj).2 (hholds k seq hk).2

/-- **A turn keeps the log in sequence** if it hands out no number but the one the counter
holds. -/
theorem turn (h : InSequence t w₀ st os w) (ht : LogTurn t w o w' (st i) s')
    (hadv : ∀ seq, o.handsOut t = some seq → seq = w.nextSeq t) :
    InSequence t w₀ (Function.update st i s') (os ++ [o]) w' := by
  cases ht with
  | other same hands appends holds => exact h.other same hands appends holds
  | advance event nextSeq hands appends holds =>
    obtain rfl := hadv _ hands
    exact h.advance event nextSeq hands appends holds
  | emit written event nextSeq hands appends held holds =>
    exact h.emit written event nextSeq hands appends held holds

end InSequence

/-! ### Every interleaving -/

theorem handsOut_of_advances (h : o.advances t w) {seq : ℕ} (ho : o.handsOut t = some seq) :
    seq = w.nextSeq t := by
  unfold Op.handsOut at ho
  split at ho
  · rename_i t' v
    split at ho
    · rename_i ht
      have hv : v.nextSeq = w.nextSeq t + 1 := (of_decide_eq_true h) ht
      rw [← Option.some.inj ho, hv]
      rfl
    · cases ho
  · cases ho

/-- **Uncontended turns keep the log in sequence.** -/
theorem inSequence_run {ι : Type} [DecidableEq ι] (calls : ι → Call)
    (hw : ∀ seq e, w.store (.event t seq) = some e → seq < w.nextSeq t) {schedule : List ι}
    (hG : Pool.Always (exec env) (Uncontended t) (received env calls w) schedule) :
    ∃ st : ι → Stage env, InSequence t w st ((received env calls w).ops (exec env) schedule)
      ((received env calls w).run (exec env) schedule).state := by
  have hf : (received env calls w).Follows (namespaceProtocol env) (fun _ _ _ => True)
      fun _ => .rest .idle :=
    fun i => Protocol.Follows.mono (follows_handle env (calls i)) fun _ _ _ => trivial
  have hrun := Pool.run_invariant_ops (G := Uncontended t)
    (I := fun st os w' => InSequence t w st os w') (fun _ _ _ _ _ _ _ _ _ => trivial)
    (fun c st os i o k s' _ hI hGi hi hst => ?_) hf [] (.start hw) hG
  · obtain ⟨st, -, hI⟩ := hrun
    exact ⟨st, hI⟩
  · have hadv : o.advances t c.state := by
      have := hGi
      rwa [Uncontended, hi] at this
    cases hst with
    | fail _ hfail => exact absurd hfail (not_failed_exec env o _)
    | next hn => exact hI.turn hn.logTurn fun seq => handsOut_of_advances hadv

theorem seq_lt_nextSeq (calls : List Call) {seq : ℕ} {e : EventRecord}
    (he : (runCalls env calls World.empty).store (.event t seq) = some e) :
    seq < (runCalls env calls World.empty).nextSeq t := by
  obtain ⟨E, -, -, hlog⟩ := inStep_run env calls
  rw [hlog.counter]
  exact ((eventAt_isSome (E t) seq).1 (by rw [← hlog.stored, he]; rfl)).2

/-- **Events are numbered once and stay.**  Calls of any kind run at the same time, after others
have been handled, and the counter is only moved on by calls that have read what it holds.  Then the
numbers handed out differ from each other and from those of older events, and all events, older ones
and those that were appended, are in the log under their numbers. -/
theorem events_numbered_once {ι : Type} [DecidableEq ι] (earlier : List Call) (calls : ι → Call)
    (t : TenantId) (schedule : List ι) :
    let w := runCalls env earlier World.empty
    let c := received env calls w
    let w' := (c.run (exec env) schedule).state
    Pool.Always (exec env) (Uncontended t) c schedule →
      ((c.ops (exec env) schedule).filterMap (Op.handsOut t)).Nodup ∧
        (∀ seq ∈ (c.ops (exec env) schedule).filterMap (Op.handsOut t),
          w.store (.event t seq) = none) ∧
        (∀ seq e, w.store (.event t seq) = some e → w'.store (.event t seq) = some e) ∧
        ∀ e ∈ (c.ops (exec env) schedule).filterMap (Op.appends t),
          w'.store (.event t e.seq) = some e := by
  intro w c w' hG
  obtain ⟨st, hI⟩ := inSequence_run calls (fun _ _ => seq_lt_nextSeq earlier) hG
  refine ⟨?_, ?_, hI.old, hI.kept⟩
  · rw [hI.handed]
    exact nodup_range'
  · intro seq hseq
    rw [hI.handed] at hseq
    cases he : w.store (.event t seq) with
    | none => rfl
    | some e =>
      exact absurd (seq_lt_nextSeq earlier he) (Nat.not_lt.2 (mem_range'_1.1 hseq).1)

/-! ### How far the counters get -/

/-- A counter of revisions is bounded by the number of calls. -/
theorem nextRevision_le (calls : List Call) (t : TenantId) (n : String) :
    (runCalls env calls World.empty).nextRevision t n ≤ calls.length + 1 := by
  induction calls using List.reverseRecOn with
  | nil => exact le_rfl
  | append_singleton calls c ih =>
    rw [runCalls_append, runCalls_cons, runCalls_nil, length_append, length_singleton]
    generalize runCalls env calls World.empty = w at *
    rcases c.outcome env w with hsame | ⟨m, hm⟩
    · rw [hsame.nextRevision]
      omega
    · rw [hm.mutates.nextRevision, mutate_nextRevision]
      split <;> omega

/-- A counter of events is bounded by the number of turns. -/
theorem nextSeq_le {ι : Type} [DecidableEq ι] (earlier : List Call) (calls : ι → Call)
    {schedule : List ι} (hG : Pool.Always (exec env) (Uncontended t)
      (received env calls (runCalls env earlier World.empty)) schedule) :
    ((received env calls (runCalls env earlier World.empty)).run (exec env)
        schedule).state.nextSeq t ≤
      (runCalls env earlier World.empty).nextSeq t + schedule.length := by
  obtain ⟨st, hI⟩ := inSequence_run calls (fun _ _ => seq_lt_nextSeq earlier) hG
  have hlength := congrArg length hI.handed
  have hops := (length_filterMap_le (Op.handsOut t) _).trans (Pool.length_ops_le (exec env)
    (received env calls (runCalls env earlier World.empty)) schedule)
  rw [hlength, length_range'] at hops
  omega

namespace Sample

/-- Two requests that are denied, about different paths. -/
def intruders : CallPool Bool :=
  received (Sample.env []) (both intruder
    (.resolve { auth "1" with claims := { (auth "1").claims with tenantId := ⟨"u"⟩ } }
      ⟨tenant, "n", "q", none, none⟩)) World.empty

/-- If only the operations before the reads of the counter alternate, both events are kept. -/
theorem both_events_kept :
    let schedule := [false, true, false, true] ++ List.replicate 3 false ++ List.replicate 3 true
    (intruders.ops (exec (Sample.env [])) schedule).filterMap (Op.handsOut tenant) = [1, 2] ∧
      ∀ e ∈ (intruders.ops (exec (Sample.env [])) schedule).filterMap (Op.appends tenant),
        (intruders.run (exec (Sample.env [])) schedule).state.store (.event tenant e.seq) =
          some e := by
  intro schedule
  have ⟨hhanded, hG⟩ :
      (intruders.ops (exec (Sample.env [])) schedule).filterMap (Op.handsOut tenant) = [1, 2] ∧
        Pool.Always (exec (Sample.env [])) (Uncontended tenant) intruders schedule := by
    decide +kernel
  exact ⟨hhanded, (events_numbered_once [] _ tenant schedule hG).2.2.2⟩

/-- **Turn by turn, two requests take the same number**, and the event of one of them is lost. -/
theorem event_lost :
    let schedule := (List.replicate 5 [false, true]).flatten
    (intruders.ops (exec (Sample.env [])) schedule).filterMap (Op.handsOut tenant) = [1, 1] ∧
      ∃ e ∈ (intruders.ops (exec (Sample.env [])) schedule).filterMap (Op.appends tenant),
        (intruders.run (exec (Sample.env [])) schedule).state.store (.event tenant e.seq) ≠
          some e := by
  decide +kernel

end Sample

end Hsp
