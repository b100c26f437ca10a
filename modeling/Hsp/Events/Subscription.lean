import Hsp.Log.Polling
import Hsp.Namespace.Events
import Hsp.Sample.Basic
import Hsp.Service.Decision

/-!
# Subscriptions

A subscriber reads the event log of a tenant by polls: each poll is given the cursor the last one
returned.  A poll authorizes the subscription again, reads a batch of the log, filters it and moves
the cursor past the last event that passed a filter.

* `subscription_delivers` : polls deliver the matching events in order and none of them twice; they
  deliver all of them exactly if no run of events that do not match fills a batch before one that
  does.
* `poll_expired_iff` : a poll fails because the cursor is out of the replay window exactly if the
  start named in the *request* is out of it, wherever the subscriber has got to.
-/

namespace Hsp

open List World

variable {env : Env} {req : AuthRequestMeta} {request : SubscribeRequest} {w w' : World}

/-! ### Authorization of a subscription -/

@[simp] theorem World.ticked_ticked (w : World) (m n : ℕ) :
    (w.ticked m).ticked n = w.ticked (m + n) := by
  simp [World.ticked, Nat.add_assoc]

@[simp] theorem World.ticked_zero (w : World) : w.ticked 0 = w := rfl

@[simp] theorem World.ticked_nextSeq (w : World) (n : ℕ) (t : TenantId) :
    (w.ticked n).nextSeq t = w.nextSeq t := rfl

/-- A subscription passes authorization, and only the clock has been read, or it is denied. -/
def Decides (env : Env) (x : Svc Unit) : Prop :=
  ∀ w, (∃ n, Prog.runE (exec env) x w = (.ok (), w.ticked n)) ∨
    ∃ reason w', Prog.runE (exec env) x w = (.error (denialToApiError reason), w')

theorem runE_authorize_subscribe {auth : AuthContext} (hop : req.operation = .subscribe)
    (w : World) :
    runE (exec env) (authorize env auth req) w = (.ok ⟨.fresh⟩, w.ticked 1) ∨
      ∃ reason w', runE (exec env) (authorize env auth req) w =
        (.error (denialToApiError reason), w') := by
  cases hc : checkClaims (env.clock w.tick) auth req with
  | error reason => exact .inr ⟨reason, _, runE_authorize_denied hc⟩
  | ok _ => exact .inl (runE_authorize_query hc (by simp [tokenUse, hop, OperationName.isMutation]))

theorem Decides.authorize_bind {auth : AuthContext} (hop : req.operation = .subscribe)
    {x : Svc Unit} (hx : Decides env x) : Decides env (do let _ ← authorize env auth req; x) := by
  intro w
  rcases runE_authorize_subscribe hop w with hok | ⟨reason, w', herr⟩
  · rw [runE_bind_ok _ hok]
    refine (hx (w.ticked 1)).imp_left ?_
    rintro ⟨n, h⟩
    exact ⟨1 + n, by rw [h, ticked_ticked]⟩
  · exact .inr ⟨reason, w', runE_bind_error _ herr⟩

theorem decides_authorizeFilters (auth : AuthContext) (t : TenantId)
    (filters : List SubscribeFilter) :
    ∀ index, Decides env (authorizeFilters env auth t index filters) := by
  induction filters with
  | nil => exact fun _ w => .inl ⟨0, rfl⟩
  | cons filter filters ih => exact fun index => .authorize_bind rfl (ih (index + 1))

theorem decides_authorizeSubscription (auth : AuthContext) (request : SubscribeRequest) :
    Decides env (authorizeSubscription env auth request) := by
  unfold authorizeSubscription
  split
  · exact .authorize_bind rfl fun w => .inl ⟨0, rfl⟩
  · exact decides_authorizeFilters auth request.tenantId request.filters 0

/-! ### The start of a subscription -/

/-- The request says where the subscription starts. -/
def SubscribeRequest.NamesStart (request : SubscribeRequest) : Prop :=
  request.cursor.isSome ∨ request.fromSeq.isSome

/-- Every filter of the request is about the tenant of the request. -/
def SubscribeRequest.InScope (request : SubscribeRequest) : Prop :=
  ¬ request.filters.any fun filter =>
    filter.tenantScope.any fun tenantScope => tenantScope ≠ request.tenantId

theorem startSeq_of_namesStart (h : request.NamesStart) (m n : ℕ) :
    startSeq env request m = startSeq env request n := by
  unfold startSeq
  cases hc : request.cursor with
  | some cursor => rfl
  | none =>
    cases hf : request.fromSeq with
    | some fromSeq => rfl
    | none => simp [SubscribeRequest.NamesStart, hc, hf] at h

theorem startSeq_of_not_namesStart (h : ¬ request.NamesStart) (n : ℕ) :
    startSeq env request n = .ok n := by
  simp only [SubscribeRequest.NamesStart, not_or, Bool.not_eq_true, Option.isSome_eq_false_iff,
    Option.isNone_iff_eq_none] at h
  simp [startSeq, h.1, h.2]

/-- The error of a start that is not in the replay window. -/
def cursorExpired : ApiError :=
  ⟨.validation, "cursor_expired", "event cursor is outside the replay window"⟩

theorem runE_subscribeStart {auth : AuthContext} {n : ℕ} (hscope : request.InScope)
    (hauth : runE (exec env) (authorizeSubscription env auth request) w = (.ok (), w.ticked n)) :
    runE (exec env) (subscribeStart env auth request) w =
      (do
        let seq ← startSeq env request (w.nextSeq request.tenantId)
        if seq < w.nextSeq request.tenantId - eventReplayWindowSec then .error cursorExpired
        else .ok ⟨request.tenantId, seq⟩, w.ticked n) := by
  have hlatest : runE (exec env) (nextReadEventSeq request.tenantId) (w.ticked n) =
      (.ok (w.nextSeq request.tenantId), w.ticked n) := rfl
  rw [subscribeStart, runE_bind_ok _ (runE_rejectIf_of_not env w hscope _),
    runE_bind_ok _ hauth, runE_bind_ok _ hlatest]
  cases hseq : startSeq env request (w.nextSeq request.tenantId) with
  | error e => rfl
  | ok seq =>
    rw [runE_ofExcept_bind, ensureEventCursorWithinWindow,
      Prog.runE_bind, runE_bind_ok _ hlatest, runE_rejectIf, except_ok_bind]
    by_cases hold : seq < w.nextSeq request.tenantId - eventReplayWindowSec
    · rw [if_pos hold, if_pos hold]
      rfl
    · rw [if_neg hold, if_neg hold]
      rfl

theorem subscribeStart_ok {auth : AuthContext} {start : EventCursor}
    (h : runE (exec env) (subscribeStart env auth request) w = (.ok start, w')) :
    request.InScope ∧ startSeq env request (w.nextSeq request.tenantId) = .ok start.nextSeq ∧
      ∃ n, runE (exec env) (authorizeSubscription env auth request) w = (.ok (), w.ticked n) ∧
        w' = w.ticked n := by
  have hscope : request.InScope := by
    intro hout
    rw [subscribeStart, runE_bind_error _ (runE_rejectIf_of env w hout _)] at h
    cases h
  rcases decides_authorizeSubscription auth request w with ⟨n, hauth⟩ | ⟨reason, w₁, hdenied⟩
  · rw [runE_subscribeStart hscope hauth] at h
    obtain ⟨hstart, rfl⟩ := Prod.mk.inj h
    obtain ⟨seq, hseq, hstart⟩ := except_bind_eq_ok.1 hstart
    rw [except_guard_eq_ok] at hstart
    obtain rfl := Except.ok.inj hstart.2
    exact ⟨hscope, hseq, n, hauth, rfl⟩
  · rw [subscribeStart, runE_bind_ok _ (runE_rejectIf_of_not env w hscope _),
      runE_bind_error _ hdenied] at h
    cases h

/-! ### One poll -/

/-- The events of a tenant from a sequence number on. -/
def World.eventsFrom (w : World) (t : TenantId) (seq : ℕ) : List EventRecord :=
  (List.range' seq (w.nextSeq t - seq)).filterMap fun seq => w.store (.event t seq)

/-- The events a subscription is about. -/
def SubscribeRequest.selects (request : SubscribeRequest) (event : EventRecord) : Bool :=
  request.filters.isEmpty || request.filters.any (eventMatchesFilter event)

/-- How many events a poll reads at most. -/
def SubscribeRequest.batch (request : SubscribeRequest) : ℕ := (request.batchMax.getD 64).toNat

theorem runE_readEvents (t : TenantId) (w : World) (remaining : ℕ) :
    ∀ seq batchMax, runE (exec env) (readEvents t remaining seq batchMax) w =
      (.ok (((List.range' seq remaining).filterMap fun seq => w.store (.event t seq)).take
        batchMax), w) := by
  induction remaining with
  | zero => intro seq batchMax; simp [readEvents]
  | succ remaining ih =>
    intro seq batchMax
    cases batchMax with
    | zero => simp [readEvents]
    | succ batchMax =>
      rw [readEvents, runE_read_bind, range'_succ]
      cases he : w.store (.event t seq) with
      | none => simpa [he] using ih (seq + 1) (batchMax + 1)
      | some e =>
        simp only [filterMap_cons, he, take_succ_cons]
        rw [runE_bind_ok _ (ih (seq + 1) batchMax)]
        rfl

theorem runE_readEventRecordsAfter (t : TenantId) (seq batchMax : ℕ) (w : World) :
    runE (exec env) (readEventRecordsAfter t seq batchMax) w =
      (.ok ((w.eventsFrom t seq).take batchMax), w) := by
  have hlatest : runE (exec env) (nextReadEventSeq t) w = (.ok (w.nextSeq t), w) := rfl
  rw [readEventRecordsAfter, runE_bind_ok _ hlatest, runE_readEvents, World.eventsFrom]

/-- What a poll returns that finds the given events in its batch. -/
def pollResult (request : SubscribeRequest) (cursor : EventCursor) (filtered : List EventRecord) :
    List SubscribeEnvelope × EventCursor :=
  let nextCursor : EventCursor :=
    ⟨request.tenantId, (filtered.getLast?.map (·.seq + 1)).getD cursor.nextSeq⟩
  (if filtered.isEmpty then
      [.notice { kind := "heartbeat", message := none, cursor := some nextCursor.encode }]
    else filtered.map .event, nextCursor)

theorem runE_subscribePoll {auth : AuthContext} {start : EventCursor}
    (hstart : runE (exec env) (subscribeStart env auth request) w = (.ok start, w'))
    (cursor : EventCursor) :
    runE (exec env) (subscribePoll env auth request cursor) w =
      (.ok (pollResult request cursor (((w'.eventsFrom request.tenantId cursor.nextSeq).take
        request.batch).filter request.selects)), w') := by
  rw [subscribePoll, runE_bind_ok _ hstart, runE_bind_ok _ (runE_readEventRecordsAfter _ _ _ _)]
  rfl

/-! ### Poll after poll -/

/-- The events among what a poll returned. -/
def SubscribeEnvelope.event? : SubscribeEnvelope → Option EventRecord
  | .event e => some e
  | .notice _ => none

/-- Polls one after another, each with the cursor the last one returned, and the events they
deliver. -/
def pollTimes (env : Env) (auth : AuthContext) (request : SubscribeRequest) :
    ℕ → EventCursor → Svc (List EventRecord)
  | 0, _ => pure []
  | n + 1, cursor => do
    let (envelopes, cursor) ← subscribePoll env auth request cursor
    let events ← pollTimes env auth request n cursor
    return envelopes.filterMap SubscribeEnvelope.event? ++ events

/-- The subscription is accepted now and whenever it is asked for later, the log being as it is. -/
def Accepted (env : Env) (auth : AuthContext) (request : SubscribeRequest) (w : World) : Prop :=
  ∀ n, (Prog.runE (exec env) (subscribeStart env auth request) (w.ticked n)).1.toBool

/-- A subscription that stays authorized is accepted if its start can be read and the log is
shorter than the replay window. -/
theorem accepted_of_short {auth : AuthContext} (hscope : request.InScope)
    (hauth : ∀ n, (runE (exec env) (authorizeSubscription env auth request) (w.ticked n)).1.toBool)
    (hstart : (startSeq env request (w.nextSeq request.tenantId)).toBool)
    (hshort : w.nextSeq request.tenantId ≤ eventReplayWindowSec) : Accepted env auth request w := by
  intro n
  rcases decides_authorizeSubscription auth request (w.ticked n) with ⟨m, hrun⟩ | ⟨_, _, hrun⟩
  · rw [runE_subscribeStart hscope hrun, ticked_nextSeq]
    cases hseq : startSeq env request (w.nextSeq request.tenantId) with
    | error e =>
      rw [hseq] at hstart
      cases hstart
    | ok seq =>
      rw [except_ok_bind, if_neg (by omega)]
      rfl
  · have := hauth n
    rw [hrun] at this
    cases this

theorem Accepted.start {auth : AuthContext} (h : Accepted env auth request w) :
    ∃ start n, runE (exec env) (subscribeStart env auth request) w =
      (.ok start, w.ticked n) := by
  have hok := h 0
  rw [ticked_zero] at hok
  rcases hrun : runE (exec env) (subscribeStart env auth request) w with ⟨e | start, w'⟩
  · rw [hrun] at hok
    cases hok
  · obtain ⟨-, -, n, -, rfl⟩ := subscribeStart_ok hrun
    exact ⟨start, n, hrun⟩

theorem Accepted.ticked {auth : AuthContext} (h : Accepted env auth request w) (n : ℕ) :
    Accepted env auth request (w.ticked n) := by
  intro m
  rw [ticked_ticked]
  exact h (n + m)

@[simp] theorem World.ticked_eventsFrom (w : World) (n : ℕ) (t : TenantId) (seq : ℕ) :
    (w.ticked n).eventsFrom t seq = w.eventsFrom t seq := rfl

/-- Every event of the tenant carries the number it is stored under. -/
def World.NumberedFor (w : World) (t : TenantId) : Prop :=
  ∀ seq e, w.store (.event t seq) = some e → e.seq = seq

theorem numberedFor_run (calls : List Call) (t : TenantId) :
    (runCalls env calls World.empty).NumberedFor t := by
  obtain ⟨E, hnum, -, hlog⟩ := inStep_run env calls
  intro seq e he
  exact hnum t seq e (hlog.stored t seq ▸ he)

/-- The events after an event of the log are those from the next number on. -/
theorem eventsFrom_of_split {t : TenantId} (hnum : w.NumberedFor t) {seq : ℕ}
    {before after : List EventRecord} {e : EventRecord}
    (h : w.eventsFrom t seq = before ++ e :: after) : w.eventsFrom t (e.seq + 1) = after := by
  unfold World.eventsFrom at h ⊢
  generalize hn : w.nextSeq t - seq = n at h
  induction n generalizing seq before with
  | zero => simp at h
  | succ n ih =>
    rw [range'_succ] at h
    cases he : w.store (.event t seq) with
    | none =>
      rw [filterMap_cons_none he] at h
      exact ih (by omega) h
    | some e' =>
      rw [filterMap_cons_some he] at h
      cases before with
      | nil =>
        obtain ⟨rfl, hafter⟩ := cons.inj h
        rw [hnum seq e' he, ← hafter]
        congr 2
        omega
      | cons b before => exact ih (by omega) (cons.inj h).2

/-- The cursor a poll returns is where the log goes on after the events the poll has passed. -/
theorem eventsFrom_pollResult (hnum : w.NumberedFor request.tenantId) (cursor : EventCursor) :
    let l := w.eventsFrom request.tenantId cursor.nextSeq
    w.eventsFrom request.tenantId
        (pollResult request cursor ((l.take request.batch).filter request.selects)).2.nextSeq =
      l.drop (Polling.passed request.batch request.selects l).length := by
  intro l
  rw [← Polling.filter_passed]
  have hsplit := Polling.passed_append_drop (b := request.batch) (p := request.selects) l
  rcases eq_nil_or_concat' (Polling.passed request.batch request.selects l) with
    hnil | ⟨u, e, hu⟩
  · rw [hnil]
    rfl
  · have hmatch : request.selects e := by
      have hlast := Polling.getLast_passed (b := request.batch) (p := request.selects) (l := l)
        (by rw [hu]; simp)
      simpa only [hu, getLast_append_singleton] using hlast
    have hlog : l = u ++ e :: l.drop (Polling.passed request.batch request.selects l).length := by
      rw [hu, append_assoc, singleton_append] at hsplit
      rw [hu]
      exact hsplit.symm
    have hcursor : (pollResult request cursor
        ((Polling.passed request.batch request.selects l).filter request.selects)).2.nextSeq =
        e.seq + 1 := by
      simp [pollResult, hu, hmatch]
    rw [hcursor]
    exact eventsFrom_of_split hnum hlog

theorem filterMap_pollResult (request : SubscribeRequest) (cursor : EventCursor)
    (filtered : List EventRecord) :
    (pollResult request cursor filtered).1.filterMap SubscribeEnvelope.event? = filtered := by
  cases filtered with
  | nil => rfl
  | cons e filtered => simp [pollResult, SubscribeEnvelope.event?, Function.comp_def]

/-- **Polls deliver what polls of the log deliver.** -/
theorem runE_pollTimes {auth : AuthContext} (hacc : Accepted env auth request w)
    (hnum : w.NumberedFor request.tenantId) (n : ℕ) (cursor : EventCursor) :
    (runE (exec env) (pollTimes env auth request n cursor) w).1 =
      .ok (Polling.delivered request.batch request.selects n
        (w.eventsFrom request.tenantId cursor.nextSeq)) := by
  induction n generalizing w cursor with
  | zero => rfl
  | succ n ih =>
    obtain ⟨start, k, hstart⟩ := hacc.start
    rw [pollTimes, runE_bind_ok _ (runE_subscribePoll hstart cursor), ticked_eventsFrom]
    have hrest := ih (hacc.ticked k) hnum (pollResult request cursor
      (((w.eventsFrom request.tenantId cursor.nextSeq).take request.batch).filter
        request.selects)).2
    rw [ticked_eventsFrom, eventsFrom_pollResult hnum] at hrest
    dsimp only
    rw [runE_bind_ok _ (Prod.ext hrest rfl), Polling.delivered, Polling.filter_passed,
      filterMap_pollResult]
    rfl

/-- **What a subscription delivers.**  However often the subscriber polls, the events that have been
delivered are an initial part of the matching events, in the order of the log and each of them once.
All of them are delivered in the end exactly if before each of them, since the one before it or the
start, fewer events than a batch holds do not match. -/
theorem subscription_delivers (calls : List Call) (auth : AuthContext) (request : SubscribeRequest)
    (cursor : EventCursor) :
    let w := runCalls env calls World.empty
    let log := w.eventsFrom request.tenantId cursor.nextSeq
    let deliver n := (runE (exec env) (pollTimes env auth request n cursor) w).1
    Accepted env auth request w →
      (∀ n, ∃ events, deliver n = .ok events ∧ events <+: log.filter request.selects) ∧
        ((∃ n, deliver n = .ok (log.filter request.selects)) ↔
          Polling.Reachable request.batch request.selects log) := by
  intro w log deliver hacc
  have hnum : w.NumberedFor request.tenantId := numberedFor_run calls _
  have hdeliver : ∀ n, deliver n =
      .ok (Polling.delivered request.batch request.selects n log) :=
    fun n => runE_pollTimes hacc hnum n cursor
  refine ⟨fun n => ⟨_, hdeliver n, Polling.delivered_prefix n log⟩, ?_⟩
  simp only [hdeliver, Except.ok.injEq]
  exact Polling.exists_delivered_iff log

namespace Sample

/-- A subscription to the binds of the tenant, from the first event on, with batches of one. -/
def subscription : SubscribeRequest :=
  ⟨tenant, [⟨none, none, none, some .namespaceBound, none⟩], none, some 1, some 1⟩

variable (records : List NamespaceMutationRecord)

theorem runE_authorizeSubscription (w : World) :
    runE (exec (Sample.env records))
      (authorizeSubscription (Sample.env records) (auth "1") subscription) w =
      (.ok (), w.ticked 1) := by
  have hc : checkClaims 0 (auth "1")
      { operation := .subscribe, tenantId := tenant, subject := "events:filter:0" } = .ok () := by
    decide
  exact runE_bind_ok _ (runE_authorize_query (w := w) hc rfl)

theorem runE_subscribeStart_subscription (w : World) :
    runE (exec (Sample.env records))
      (subscribeStart (Sample.env records) (auth "1") subscription) w =
      (if 1 < w.nextSeq tenant - eventReplayWindowSec then .error cursorExpired
        else .ok ⟨tenant, 1⟩, w.ticked 1) :=
  runE_subscribeStart (by simp [SubscribeRequest.InScope, subscription])
    (runE_authorizeSubscription records w)

theorem accepted_subscription (h : w.nextSeq tenant ≤ 3600) :
    Accepted (Sample.env records) (auth "1") subscription w :=
  accepted_of_short (by simp [SubscribeRequest.InScope, subscription])
    (fun n => by rw [runE_authorizeSubscription]; rfl) rfl (by unfold eventReplayWindowSec; exact h)

/-- The object is uploaded and bound: one event that is not about a bind, then one that is. -/
def uploadedAndBound : World :=
  runCalls (Sample.env [bindRecord]) (upload ++ [bind "4" 0]) World.empty

theorem uploadedAndBound_evaluated :
    uploadedAndBound.nextSeq tenant = 3 ∧
      (∀ e ∈ (uploadedAndBound.eventsFrom tenant 1).take 1, ¬ subscription.selects e) ∧
      (uploadedAndBound.eventsFrom tenant 1).any subscription.selects := by
  decide +kernel

theorem subscription_delivers_prefix :
    Accepted (Sample.env [bindRecord]) (auth "1") subscription uploadedAndBound ∧
      ∀ n, ∃ events, (Prog.runE (exec (Sample.env [bindRecord]))
          (pollTimes (Sample.env [bindRecord]) (auth "1") subscription n ⟨tenant, 2⟩)
          uploadedAndBound).1 = .ok events ∧
        events <+: (uploadedAndBound.eventsFrom tenant 2).filter subscription.selects := by
  have hacc : Accepted (Sample.env [bindRecord]) (auth "1") subscription uploadedAndBound :=
    accepted_subscription _ (by rw [uploadedAndBound_evaluated.1]; decide)
  exact ⟨hacc, (subscription_delivers (upload ++ [bind "4" 0]) (auth "1") subscription
    ⟨tenant, 2⟩ hacc).1⟩

/-- **A subscription gets stuck.**  The log has an event the subscription is about, but the batch
in front of it is full of one that it is not about: no number of polls delivers anything. -/
theorem subscription_stuck :
    Accepted (Sample.env [bindRecord]) (auth "1") subscription uploadedAndBound ∧
      (uploadedAndBound.eventsFrom tenant 1).any subscription.selects ∧
      ∀ n, (Prog.runE (exec (Sample.env [bindRecord]))
        (pollTimes (Sample.env [bindRecord]) (auth "1") subscription n ⟨tenant, 1⟩)
        uploadedAndBound).1 = .ok [] := by
  obtain ⟨hseq, hnone, hany⟩ := uploadedAndBound_evaluated
  have hacc : Accepted (Sample.env [bindRecord]) (auth "1") subscription uploadedAndBound :=
    accepted_subscription _ (by rw [hseq]; decide)
  refine ⟨hacc, hany, fun n => ?_⟩
  rw [runE_pollTimes hacc (numberedFor_run _ _)]
  exact congrArg _ (Polling.delivered_eq_nil hnone n)

end Sample

/-! ### Expiry -/

theorem denial_code_ne_cursor_expired (reason : DenialReason) :
    (denialToApiError reason).code ≠ "cursor_expired" := by
  cases reason <;> simp [denialToApiError, DenialReason.code]

/-- **When a poll of a running subscription expires.**  The subscription was accepted, and calls
have been handled since.  A poll then fails because the cursor is out of the replay window exactly
if the request is still authorized and names a start that is now out of the window; the cursor the
poll is given plays no role. -/
theorem poll_expired_iff {w₀ : World} {auth : AuthContext} {request : SubscribeRequest}
    {start : EventCursor}
    (haccepted : (Prog.runE (exec env) (subscribeStart env auth request) w₀).1 = .ok start)
    (calls : List Call) (cursor : EventCursor) :
    let w := runCalls env calls w₀
    (∃ e, (runE (exec env) (subscribePoll env auth request cursor) w).1 = .error e ∧
        e.code = "cursor_expired") ↔
      (runE (exec env) (authorizeSubscription env auth request) w).1 = .ok () ∧
        request.NamesStart ∧
        start.nextSeq < w.nextSeq request.tenantId - eventReplayWindowSec := by
  intro w
  obtain ⟨hscope, hstart, -⟩ := subscribeStart_ok (Prod.ext haccepted rfl)
  rcases decides_authorizeSubscription auth request w with ⟨n, hauth⟩ | ⟨reason, w₁, hdenied⟩
  · have hrun := runE_subscribeStart hscope hauth
    by_cases hnames : request.NamesStart
    · rw [startSeq_of_namesStart hnames _ (w₀.nextSeq request.tenantId), hstart,
        except_ok_bind] at hrun
      by_cases hold : start.nextSeq < w.nextSeq request.tenantId - eventReplayWindowSec
      · rw [if_pos hold] at hrun
        rw [subscribePoll, runE_bind_error _ hrun, hauth]
        exact ⟨fun _ => ⟨rfl, hnames, hold⟩, fun _ => ⟨_, rfl, rfl⟩⟩
      · rw [if_neg hold] at hrun
        rw [runE_subscribePoll hrun]
        exact ⟨fun ⟨_, he, _⟩ => (by cases he), fun h => absurd h.2.2 hold⟩
    · rw [startSeq_of_not_namesStart hnames, except_ok_bind, if_neg (by omega)] at hrun
      rw [runE_subscribePoll hrun]
      exact ⟨fun ⟨_, he, _⟩ => (by cases he), fun h => absurd h.2.1 hnames⟩
  · have hrun : runE (exec env) (subscribeStart env auth request) w =
        (.error (denialToApiError reason), w₁) := by
      rw [subscribeStart, runE_bind_ok _ (runE_rejectIf_of_not env w hscope _),
        runE_bind_error _ hdenied]
    rw [subscribePoll, runE_bind_error _ hrun, hdenied]
    refine ⟨fun ⟨e, he, hcode⟩ => ?_, fun h => by cases h.1⟩
    obtain rfl := Except.error.inj he
    exact absurd hcode (denial_code_ne_cursor_expired reason)

namespace Sample

/-- A request that is denied: the token is for another tenant. -/
def intruder : Call :=
  .resolve { auth "1" with claims := { (auth "1").claims with tenantId := ⟨"u"⟩ } }
    ⟨tenant, "n", "p", none, none⟩

variable (records : List NamespaceMutationRecord)

/-- What the denied request asks the policy engine. -/
def intruderMeta : AuthRequestMeta where
  operation := .resolve
  tenantId := tenant
  subject := "n:p"
  ns := some "n"
  path := some "p"

theorem perform_intruder (w : World) :
    (intruder.perform (Sample.env records) w).2 =
      (w.ticked 1).denied (Sample.env records) intruderMeta .tenantMismatch := by
  have hcanonical : canonicalNamespaceAndPath "n" "p" = .ok ("n", "p") := by decide +kernel
  have hclaims : checkClaims 0
      { auth "1" with claims := { (auth "1").claims with tenantId := ⟨"u"⟩ } } intruderMeta =
        .error .tenantMismatch := by decide
  rw [Call.perform, intruder, Call.handle, runE_map, resolve, hcanonical, runE_ofExcept_bind]
  exact congrArg Prod.snd (runE_bind_error _ (runE_authorize_denied (w := w) hclaims))

theorem nextSeq_intruder (n : ℕ) (w : World) :
    (runCalls (Sample.env records) (List.replicate n intruder) w).nextSeq tenant =
      w.nextSeq tenant + n := by
  induction n generalizing w with
  | zero => rfl
  | succ n ih =>
    have hnext : ((w.ticked 1).denied (Sample.env records) intruderMeta .tenantMismatch).nextSeq
        tenant = w.nextSeq tenant + 1 := by
      simp [World.denied, World.logged, World.nextSeq, intruderMeta]
    rw [replicate_succ, runCalls_cons, ih, perform_intruder, hnext]
    omega

theorem early_poll_not_expired :
    (Prog.runE (exec (Sample.env [])) (subscribeStart (Sample.env []) (auth "1") subscription)
        World.empty).1 = .ok ⟨tenant, 1⟩ ∧
      ¬ ∃ e, (Prog.runE (exec (Sample.env []))
        (subscribePoll (Sample.env []) (auth "1") subscription ⟨tenant, 3601⟩)
        (runCalls (Sample.env []) (List.replicate 3600 intruder) World.empty)).1 = .error e ∧
          e.code = "cursor_expired" := by
  have hstart : (runE (exec (Sample.env []))
      (subscribeStart (Sample.env []) (auth "1") subscription) World.empty).1 =
        .ok ⟨tenant, 1⟩ := by
    rw [runE_subscribeStart_subscription, if_neg (by unfold eventReplayWindowSec; decide)]
  refine ⟨hstart, mt (poll_expired_iff hstart _ _).1 ?_⟩
  rintro ⟨-, -, hold⟩
  have hseq : (runCalls (Sample.env []) (List.replicate 3600 intruder) World.empty).nextSeq
      subscription.tenantId = 3601 := nextSeq_intruder [] 3600 World.empty
  rw [hseq] at hold
  unfold eventReplayWindowSec at hold
  exact absurd hold (by decide)

/-- **A subscriber that keeps up is expired.**  The subscription starts at the first event.  After
3601 more events its cursor is at the end of the log, and yet the poll fails. -/
theorem current_subscriber_expired :
    let w := runCalls (Sample.env []) (List.replicate 3601 intruder) World.empty
    (runE (exec (Sample.env [])) (subscribeStart (Sample.env []) (auth "1") subscription)
        World.empty).1 = .ok ⟨tenant, 1⟩ ∧
      w.nextSeq tenant = 3602 ∧
      (runE (exec (Sample.env []))
        (subscribePoll (Sample.env []) (auth "1") subscription ⟨tenant, 3602⟩) w).1 =
          .error cursorExpired := by
  intro w
  have hseq : w.nextSeq tenant = 3602 := nextSeq_intruder [] 3601 World.empty
  have hstart := runE_subscribeStart_subscription [] w
  rw [hseq, if_pos (by unfold eventReplayWindowSec; decide)] at hstart
  refine ⟨?_, hseq, ?_⟩
  · rw [runE_subscribeStart_subscription, if_neg (by unfold eventReplayWindowSec; decide)]
  · rw [subscribePoll, runE_bind_error _ hstart]

end Sample

end Hsp
