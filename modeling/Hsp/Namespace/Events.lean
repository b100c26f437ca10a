import Hsp.Namespace.Refinement

/-!
# The event log

A subscriber sees a namespace through the event log of its tenant: an event about a namespace says
what a path is bound to from then on.  `replayEvents` is what a subscriber that has read a list of
events knows.

The entries of a log are kept one by one in the store, with a counter for the next sequence number.
`HasEvents` relates the store to lists of events, and the protocol of namespace mutations keeps the
lists in step with the namespaces, so that in every state a run reaches the log tells exactly what
the namespaces hold (`events_reconstruct_namespaces`).
-/

namespace Hsp

open List Function

variable {env : Env} {e : EventRecord} {w' w₀ w : World} {t : TenantId}
  {E : TenantId → List EventRecord}

/-! ### What the events of a log tell -/

/-- What the event log tells about a path. -/
structure BindingView where
  targetCid : Option String
  revision : ℕ
  metadata : Metadata
  tombstone : Bool
  deriving DecidableEq

def NamespaceBindingState.view (b : NamespaceBindingState) : BindingView :=
  ⟨b.targetCid, b.revision, b.metadata, b.tombstone⟩

/-- What an event changes in a namespace. -/
def EventRecord.replay (n : String) (view : String → Option BindingView) (e : EventRecord) :
    String → Option BindingView :=
  match e.ns, e.path, e.revision with
  | some ns, some path, some revision =>
    if ns = n then
      match e.eventType with
      | .namespaceBound => Function.update view path (some ⟨e.cid, revision, e.payload, false⟩)
      | .namespaceTombstoned =>
        Function.update view path (some ⟨e.cid, revision, e.payload, true⟩)
      | .namespaceUnbound => Function.update view path none
      | .objectCommitted | .authDenied | .pinAccepted => view
    else view
  | _, _, _ => view

/-- What a list of events, in order, tells about a namespace. -/
def replayEvents (n : String) (events : List EventRecord) : String → Option BindingView :=
  events.foldl (EventRecord.replay n) fun _ => none

theorem replayEvents_snoc (n : String) (events : List EventRecord) (e : EventRecord) :
    replayEvents n (events ++ [e]) = e.replay n (replayEvents n events) := by
  simp [replayEvents]

theorem replay_mutation_event (m : Mutation env) (r seq atMs : ℕ) (n : String)
    (view : String → Option BindingView) :
    (m.event r seq atMs).replay n view = if n = m.record.ns then
      Function.update view m.record.path ((m.effect r).map (·.view)) else view := by
  by_cases hn : n = m.record.ns
  · subst hn
    cases hk : m.record.kind <;>
      simp [EventRecord.replay, Mutation.event, Mutation.effect, NamespaceBindingState.view, hk]
  · have hn' : ¬ m.record.ns = n := fun h => hn h.symm
    simp [EventRecord.replay, Mutation.event, hn, hn']

theorem replay_other_event (he : e.eventType = .authDenied ∨ e.eventType = .objectCommitted)
    (n : String) (view : String → Option BindingView) : e.replay n view = view := by
  unfold EventRecord.replay
  split
  · split
    · rcases he with he | he <;> simp [he]
    · rfl
  · rfl

/-! ### The log in the store -/

/-- The events of a tenant, in the order of their sequence numbers. -/
def World.events (w : World) (t : TenantId) : List EventRecord :=
  (List.range' 1 (w.nextSeq t - 1)).filterMap fun seq => w.store (.event t seq)

/-- The event with a sequence number in a log that starts with number one. -/
def eventAt (events : List EventRecord) : ℕ → Option EventRecord
  | 0 => none
  | i + 1 => events[i]?

theorem eventAt_snoc (events : List EventRecord) (e : EventRecord) (seq : ℕ) :
    eventAt (events ++ [e]) seq =
      if seq = events.length + 1 then some e else eventAt events seq := by
  cases seq with
  | zero => simp [eventAt]
  | succ i =>
    simp only [eventAt, Nat.add_right_cancel_iff, getElem?_append, getElem?_singleton]
    by_cases hlt : i < events.length
    · simp [hlt, Nat.ne_of_lt hlt]
    · by_cases heq : i = events.length
      · simp [heq]
      · have hsub : i - events.length ≠ 0 := by omega
        simp [hlt, heq, hsub]

theorem filterMap_eventAt (events : List EventRecord) :
    (List.range' 1 events.length).filterMap (eventAt events) = events := by
  induction events using List.reverseRecOn with
  | nil => rfl
  | append_singleton events e ih =>
    have hlast : eventAt (events ++ [e]) (1 + events.length) = some e := by
      rw [eventAt_snoc, if_pos (Nat.add_comm _ _)]
    have hinit : (List.range' 1 events.length).filterMap (eventAt (events ++ [e])) = events := by
      refine (filterMap_congr fun seq hseq => ?_).trans ih
      rw [eventAt_snoc, if_neg]
      have := (mem_range'_1.1 hseq).2
      omega
    rw [length_append, length_singleton, range'_1_concat, filterMap_append,
      hinit]
    simp [hlast]

theorem eventAt_isSome (events : List EventRecord) (seq : ℕ) :
    (eventAt events seq).isSome ↔ 1 ≤ seq ∧ seq < events.length + 1 := by
  cases seq <;> simp [eventAt]

/-- The store holds the given events, and the counters stand at the given numbers. -/
structure HasEvents (E : TenantId → List EventRecord) (next : TenantId → ℕ) (w : World) : Prop where
  stored : ∀ t seq, w.store (.event t seq) = eventAt (E t) seq
  counter : ∀ t, w.nextSeq t = next t

/-- Every event carries its own sequence number. -/
def Numbered (E : TenantId → List EventRecord) : Prop :=
  ∀ t seq e, eventAt (E t) seq = some e → e.seq = seq

/-- The events tell what the namespaces hold. -/
def Tells (E : TenantId → List EventRecord) (w : World) : Prop :=
  ∀ t n p, replayEvents n (E t) p = (w.binding t n p).map (·.view)

/-- Entries of the store that make up the event logs. -/
def Loc.isEventLog : Loc → Bool
  | .eventSequence _ | .event _ _ => true
  | _ => false

namespace HasEvents

variable {E : TenantId → List EventRecord} {next : TenantId → ℕ} {w : World}

theorem same (h : HasEvents E next w) (hs : SameOn Loc.isEventLog w w') :
    HasEvents E next w' where
  stored t seq := (hs (.event t seq) rfl).trans (h.stored t seq)
  counter t := by rw [World.nextSeq, hs (.eventSequence t) rfl, ← World.nextSeq, h.counter]

theorem set (h : HasEvents E next w) {l : Loc} (hl : l.isEventLog = false) (v : Option (Val l)) :
    HasEvents E next (w.set l v) :=
  h.same (SameOn.set (fun _ _ => rfl) hl v)

theorem exec_plain (h : HasEvents E next w) {o : Op} (ho : o.Plain) :
    HasEvents E next (exec env o w).2 := by
  have hplain : ∀ l : Loc, l.isPlain → l.isEventLog = false := by
    intro l hl
    cases l <;> first | rfl | cases hl
  exact h.same (SameOn.exec (fun _ _ => rfl) (ho.spares hplain))

theorem advance (h : HasEvents E next w) (t : TenantId) (seq : ℕ) :
    HasEvents E (Function.update next t seq) (w.set (.eventSequence t) (some ⟨seq⟩)) where
  stored t' seq' := by rw [World.set_store_of_ne _ (by simp), h.stored]
  counter t' := by
    by_cases ht : t' = t
    · subst ht; simp [World.nextSeq]
    · rw [update_of_ne ht, World.nextSeq, World.set_store_of_ne _ (by simpa using ht),
        ← World.nextSeq, h.counter]

theorem emit (hseq : e.seq = (E t).length + 1)
    (h : HasEvents E (Function.update (fun t => (E t).length + 1) t (e.seq + 1)) w) :
    HasEvents (Function.update E t (E t ++ [e]))
      (fun t' => (Function.update E t (E t ++ [e]) t').length + 1)
      (w.set (.event t e.seq) (some e)) where
  stored t' seq := by
    by_cases ht : t' = t
    · subst ht
      rw [update_self, eventAt_snoc, ← hseq]
      split
      · rename_i hs; subst hs; simp
      · rename_i hs
        rw [World.set_store_of_ne _ (by simpa using hs), h.stored]
    · rw [update_of_ne ht, World.set_store_of_ne _ (by simp [ht]), h.stored]
  counter t' := by
    have hset : (w.set (.event t e.seq) (some e)).nextSeq t' = w.nextSeq t' := by
      rw [World.nextSeq, World.set_store_of_ne _ (by simp), ← World.nextSeq]
    rw [hset, h.counter]
    by_cases ht : t' = t
    · subst ht; simp [hseq]
    · simp [update_of_ne ht]

end HasEvents

/-! ### The log along a call -/

/-- The world whose namespaces the events tell when a call that started in `w₀` rests. -/
def Rest.told (w₀ : World) : Rest env → World
  | .done m _ => w₀.mutate m
  | .idle | .journaled _ _ => w₀

/-- The world whose namespaces the events tell: until the event of its mutation is written, the
one the call started in. -/
def Stage.told (w₀ : World) : Stage env → World
  | .rest ρ | .sequencing ρ _ _ | .sequenced ρ _ _ => ρ.told w₀
  | _ => w₀

/-- How the events `E` are stored when a call is in a stage. -/
def LogsAt (E : TenantId → List EventRecord) : Stage env → World → Prop
  | .sequencing _ t seq, w => HasEvents E (fun t => (E t).length + 1) w ∧ seq = (E t).length + 1
  | .sequenced _ t seq, w =>
    HasEvents E (Function.update (fun t => (E t).length + 1) t (seq + 1)) w ∧
      seq = (E t).length + 1
  | _, w => HasEvents E (fun t => (E t).length + 1) w

/-- The event logs when a call that started in `w₀` is in a stage. -/
def EventsAt (w₀ : World) (s : Stage env) (w : World) : Prop :=
  ∃ E, Numbered E ∧ Tells E (s.told w₀) ∧ LogsAt E s w

theorem Numbered.emit (h : Numbered E) (hseq : e.seq = (E t).length + 1) :
    Numbered (Function.update E t (E t ++ [e])) := by
  intro t' seq e' he'
  by_cases ht : t' = t
  · subst ht
    rw [update_self, eventAt_snoc] at he'
    split at he'
    · rename_i hs
      rw [← Option.some.inj he', hs, hseq]
    · exact h _ _ _ he'
  · rw [update_of_ne ht] at he'
    exact h _ _ _ he'

/-- The event a call appends tells the mutation that is due, or nothing. -/
theorem Tells.emit {ρ : Rest env} (h : Tells E (ρ.told w₀)) (he : ρ.Emits t e)
    (hrev : ∀ m r, ρ = .journaled m r → r = w₀.revisionFor m) :
    Tells (Function.update E t (E t ++ [e])) (ρ.emitted.told w₀) := by
  intro t' n p
  have hother (ho : e.eventType = .authDenied ∨ e.eventType = .objectCommitted) :
      replayEvents n (Function.update E t (E t ++ [e]) t') p = replayEvents n (E t') p := by
    by_cases ht : t' = t
    · subst ht
      rw [update_self, replayEvents_snoc, replay_other_event ho]
    · rw [update_of_ne ht]
  cases ρ with
  | idle => exact (hother he).trans (h t' n p)
  | done m r => exact (hother he).trans (h t' n p)
  | journaled m r =>
    obtain ⟨rfl, atMs, he⟩ := he
    obtain rfl := hrev m r rfl
    change replayEvents n (Function.update E m.record.tenantId _ t') p =
      ((w₀.mutate m).binding t' n p).map (·.view)
    rw [mutate_binding]
    by_cases ht : t' = m.record.tenantId
    · subst ht
      rw [update_self, replayEvents_snoc, he, replay_mutation_event]
      by_cases hn : n = m.record.ns
      · by_cases hp : p = m.record.path
        · simp [hn, hp]
        · simp [hn, hp, h m.record.tenantId m.record.ns p, Rest.told]
      · simp [hn, h m.record.tenantId n p, Rest.told]
    · rw [update_of_ne ht, if_neg fun hk => ht hk.1]
      exact h t' n p

/-- **A step of the protocol, in the event logs.** -/
theorem EventsAt.next {s s' : Stage env} {o : Op} (h : EventsAt w₀ s w) (hs : s ≠ .broken)
    (hat : NamespacesAt w₀ s w) (hn : s.Next o (exec env o w).1 s') :
    EventsAt w₀ s' (exec env o w).2 := by
  obtain ⟨E, hnum, htell, hlog⟩ := h
  generalize hr : (exec env o w).1 = r at hn
  cases hn with
  | plain ho => exact ⟨E, hnum, htell, HasEvents.exec_plain hlog ho⟩
  | locate => exact ⟨E, hnum, htell, hlog⟩
  | refuse => exact ⟨E, hnum, htell, hlog⟩
  | lookBind => exact ⟨E, hnum, htell, hlog⟩
  | lookUnbind => exact ⟨E, hnum, htell, hlog⟩
  | number => exact ⟨E, hnum, htell, hlog⟩
  | claim => exact ⟨E, hnum, htell, HasEvents.set hlog rfl _⟩
  | apply => exact ⟨E, hnum, htell, HasEvents.set hlog rfl _⟩
  | fetch => exact ⟨E, hnum, htell, hlog⟩
  | append => exact ⟨E, hnum, htell, HasEvents.set hlog rfl _⟩
  | @sequence ρ t v =>
    refine ⟨E, hnum, htell, hlog, ?_⟩
    rw [← Except.ok.inj hr]
    exact hlog.counter t
  | advance =>
    obtain ⟨hlog, rfl⟩ := hlog
    exact ⟨E, hnum, htell, hlog.advance _ _, rfl⟩
  | emit he =>
    -- The number was taken before the event, so it is the one after the last event.
    obtain ⟨hlog, hseq⟩ := hlog
    refine ⟨_, hnum.emit hseq, htell.emit he ?_, hlog.emit hseq⟩
    rintro m r rfl
    exact hat.2.2
  | cleanUp => exact absurd rfl hs

/-! ### The log along a run -/

/-- The event logs tell what the namespaces hold. -/
def InStep (w : World) : Prop :=
  ∃ E, Numbered E ∧ Tells E w ∧ HasEvents E (fun t => (E t).length + 1) w

theorem Tells.same (h : Tells E w) (hs : SameNamespaces w w') : Tells E w' := by
  intro t n p
  rw [hs.binding]
  exact h t n p

theorem InStep.perform (h : InStep w) (c : Call) : InStep (c.perform env w).2 := by
  obtain ⟨E, hnum, htell, hlog⟩ := h
  have hrun := c.run_invariant env (I := EventsAt w) (G := fun _ _ => True)
    ⟨E, hnum, htell, hlog⟩ (fun _ _ _ _ hs hat hI _ hn => hI.next hs hat hn)
    (always_true _ _ _)
  rcases hrun with ⟨hs, E', hnum', htell', hlog'⟩ | ⟨m, r, hs, E', hnum', htell', hlog'⟩
  · exact ⟨E', hnum', htell'.same hs, hlog'⟩
  · exact ⟨E', hnum', htell'.same hs, hlog'⟩

theorem inStep_run (env : Env) (calls : List Call) : InStep (runCalls env calls World.empty) := by
  induction calls using List.reverseRecOn with
  | nil =>
    refine ⟨fun _ => [], fun t seq e he => ?_, fun t n p => ?_, ⟨fun t seq => ?_, fun t => rfl⟩⟩
    · cases seq <;> simp [eventAt] at he
    · simp [replayEvents, World.binding, World.current, World.empty, NamespaceCurrentState.initial]
    · cases seq <;> rfl
  | append_singleton calls c ih =>
    rw [runCalls_append]
    exact ih.perform c

/-- **The event log reconstructs the namespaces.**  A tenant's log holds one event for every
number below the next one and no others, each under its own number, and replaying them in order
gives what the namespaces of the tenant hold. -/
theorem events_reconstruct_namespaces (calls : List Call) (t : TenantId) :
    let w := runCalls env calls World.empty
    (∀ seq, (w.store (.event t seq)).isSome ↔ 1 ≤ seq ∧ seq < w.nextSeq t) ∧
      (∀ seq e, w.store (.event t seq) = some e → e.seq = seq) ∧
      ∀ n p, replayEvents n (w.events t) p = (w.binding t n p).map (·.view) := by
  intro w
  obtain ⟨E, hnum, htell, hlog⟩ := inStep_run env calls
  refine ⟨fun seq => ?_, fun seq e he => ?_, fun n p => ?_⟩
  · rw [hlog.stored, hlog.counter]
    exact eventAt_isSome _ _
  · rw [hlog.stored] at he
    exact hnum t seq e he
  · have hevents : w.events t = E t := by
      rw [World.events, hlog.counter, Nat.add_sub_cancel]
      exact (filterMap_congr fun seq _ => hlog.stored t seq).trans (filterMap_eventAt (E t))
    rw [hevents]
    exact htell t n p

end Hsp
