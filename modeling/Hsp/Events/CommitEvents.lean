import Hsp.Cdn.Server
import Hsp.Events.Numbers
import Hsp.Object.Commit
import Hsp.Prog.Triple

/-!
# The events of a commit

A commit that binds its object appends two events: `namespace.bound` by the bind, and
`object.committed` by the commit itself.  The bind names the namespace and the path as it has
canonicalized them, the commit as the client has spelled them.

* `Appended` : events have been appended to a log, one after the other;
* `appended_putCommitApply` : the two events of a commit;
* `commit_events_agree_iff` : they name the same path if and only if the client has spelled it
  canonically, and if and only if so, no filter and no cache tells them apart;
* `Sample.commit_events_differ` : a client that escapes a letter of the path.
-/

namespace Hsp

open Prog (Alone)

variable {env : Env} {t : TenantId} {w₀ w w' : World} {events : List EventRecord}

/-! ### Events that are appended -/

/-- Events have been appended to the log of a tenant, and the older ones are still there. -/
structure Appended (t : TenantId) (events : List EventRecord) (w w' : World) : Prop where
  nextSeq : w'.nextSeq t = w.nextSeq t + events.length
  stored : ∀ n e, events[n]? = some e →
    w'.store (.event t (w.nextSeq t + n)) = some { e with seq := w.nextSeq t + n }
  older : ∀ seq < w.nextSeq t, w'.store (.event t seq) = w.store (.event t seq)

namespace Appended

theorem nil (t : TenantId) (w : World) : Appended t [] w w := ⟨rfl, by simp, fun _ _ => rfl⟩

theorem same {w₁ : World} (h : Appended t events w₀ w) (hs : SameOn Loc.isEventLog w w₁) :
    Appended t events w₀ w₁ where
  nextSeq := by rw [(SameLog.of_sameOn hs).nextSeq, h.nextSeq]
  stored n e he := by rw [hs _ rfl, h.stored n e he]
  older seq hseq := by rw [hs _ rfl, h.older seq hseq]

theorem snoc (h : Appended t events w₀ w) (e : EventRecord) :
    Appended t (events ++ [e]) w₀ (w.logged t e) := by
  have hkeep (seq : ℕ) (hseq : seq ≠ w.nextSeq t) :
      (w.logged t e).store (.event t seq) = w.store (.event t seq) := by
    rw [World.logged, World.set_store_of_ne _ (by simpa using hseq),
      World.set_store_of_ne _ (by simp)]
  constructor
  · have hcounter : (w.logged t e).nextSeq t = w.nextSeq t + 1 := by
      simp [World.logged, World.nextSeq]
    rw [hcounter, h.nextSeq, List.length_append, List.length_singleton, Nat.add_assoc]
  · intro n e' he'
    by_cases hn : n < events.length
    · rw [List.getElem?_append_left hn] at he'
      rw [hkeep _ (by rw [h.nextSeq]; omega), h.stored n e' he']
    · rw [List.getElem?_append_right (by omega)] at he'
      obtain ⟨hlast, rfl⟩ : n - events.length = 0 ∧ e = e' := by
        simpa [List.getElem?_singleton] using he'
      have hseq : w₀.nextSeq t + n = w.nextSeq t := by rw [h.nextSeq]; omega
      rw [hseq, World.logged, World.set_store_self]
  · intro seq hseq
    rw [hkeep _ (by rw [h.nextSeq]; omega), h.older seq hseq]

end Appended

/-! ### Programs that append nothing -/

theorem Aside.manifestRecord (t : TenantId) (cid : String) :
    Aside Loc.isEventLog (fun _ => True) (manifestRecord t cid) := by
  refine .bind (.readEncryptedJson _) fun record => ?_
  cases record with
  | some record => exact .pure _
  | none => exact .throw trivial

theorem Aside.checkChunksStored (t : TenantId) (refs : List ChunkRef) :
    Aside Loc.isEventLog (fun _ => True) (checkChunksStored t refs) := by
  induction refs with
  | nil => exact .pure _
  | cons ref refs ih => exact .bind (.storeExists _) fun _ => .bind (.rejectIf trivial) fun _ => ih

/-! ### The events of a bind -/

section Triples

variable {α : Type} {G : Op → World → Prop} {session : UploadSessionRecord}
  {bind : AtomicBindRequest}

/-- Programs that leave the event logs alone append nothing. -/
theorem Appended.aside {x : Svc α} (hx : Aside Loc.isEventLog (fun _ => True) x) :
    Triple (exec env) (Alone G) (Appended t events w₀) x (fun _ => Appended t events w₀)
      fun _ _ => True := by
  refine .of_success fun w a w' hw hrun => ?_
  have hsame := (hx.run env w).1
  rw [hrun] at hsame
  exact hw.same hsame

theorem Appended.appendEvent (e : EventRecord) :
    Triple (exec env) (Alone G) (Appended t events w₀) (appendEvent t e)
      (fun _ => Appended t (events ++ [e]) w₀) fun _ _ => True := by
  refine .of_success fun w seq w' hw hrun => ?_
  rw [runE_appendEvent] at hrun
  cases hrun
  exact hw.snoc e

theorem Appended.ofExcept (x : Except ApiError α) :
    Triple (exec env) (Alone G) (Appended t events w₀) (ofExcept x)
      (fun a w => x = .ok a ∧ Appended t events w₀ w) fun _ _ => True := by
  refine .of_success fun w a w' hw hrun => ?_
  rw [runE_ofExcept] at hrun
  cases hrun
  exact ⟨rfl, hw⟩

/-- A request that is not denied appends no event about a denial. -/
theorem Appended.authorize (auth : AuthContext) (req : AuthRequestMeta) :
    Triple (exec env) (Alone G) (Appended t events w₀) (authorize env auth req)
      (fun _ => Appended t events w₀) fun _ _ => True := by
  refine .of_success fun w decision w' hw hrun => ?_
  cases hu : tokenUse auth req with
  | none =>
    rw [runE_authorize_query (checkClaims_of_authorize hrun) hu] at hrun
    cases hrun
    exact hw.same fun _ _ => rfl
  | some u =>
    rcases authorize_ok hrun hu with ⟨-, atMs, hstore⟩ | ⟨_, -, -, -, hstore⟩
    · refine hw.same fun l hl => ?_
      rw [hstore, World.set_store_of_ne]
      rintro rfl
      cases hl
    · exact hw.same fun l _ => by rw [hstore]

/-- A request whose response is not kept is not answered with a stored one. -/
theorem Appended.storedResponse {t' : TenantId} {op : IdempotentOp} {key : String}
    (decision : AuthorizationDecision) :
    Triple (exec env) (Alone G) (Appended t events w₀) (storedResponse t' op key false decision)
      (fun stored w => stored = none ∧ Appended t events w₀ w) fun _ _ => True := by
  refine .of_success fun w stored w' hw hrun => ?_
  rw [runE_storedResponse, if_neg (by simp)] at hrun
  cases hrun
  exact ⟨rfl, hw⟩

/-- The event about a bind. -/
def boundEvent (request : BindRequest) (ns path : String) (revision atMs : ℕ) : EventRecord where
  version := 1
  seq := 0
  atMs := atMs
  eventType := .namespaceBound
  subjectKind := "namespace"
  ns := some ns
  path := some path
  cid := some request.targetCid
  revision := some revision
  traceId := none
  payload := request.metadata

theorem appended_bindApply (request : BindRequest) (ns path : String)
    (record : NamespaceMutationRecord) :
    Triple (exec env) (Alone G) (Appended request.tenantId events w₀)
      (bindApply env request ns path record false)
      (fun _ w => ∃ revision atMs,
        Appended request.tenantId (events ++ [boundEvent request ns path revision atMs]) w₀ w)
      fun _ _ => True := by
  refine .bind (Appended.aside (.rejectIf trivial)) fun _ =>
    .bind (Appended.aside (.manifestRecord _ _)) fun _ =>
    .bind (Appended.aside (.bind (.readEncryptedJson _) fun _ => .pure _)) fun _ =>
    .bind (Appended.aside (.ofExcept fun _ _ => trivial)) fun _ =>
    .bind (Appended.aside (.bind (.readEncryptedJson _) fun _ =>
      .bind (.writeEncryptedJson rfl _) fun _ => .pure _)) fun revision =>
    .bind (Appended.aside (.writeEncryptedJson rfl _)) fun _ =>
    .bind (Appended.aside (.bind (.bind (.readEncryptedJson _) fun _ => .pure _) fun _ =>
      .writeEncryptedJson rfl _)) fun _ =>
    .bind (Appended.aside .nowMs) fun atMs =>
    .bind (Appended.appendEvent (boundEvent request ns path revision atMs)) fun _ => ?_
  refine .conseq (Appended.aside (.bind (.bind .nowMs fun _ => .writeEncryptedJson rfl _)
    fun _ => .pure _)) (fun _ h => h) (fun _ _ h => ⟨revision, atMs, h⟩) fun _ _ h => h

theorem appended_bindInternal (auth : AuthContext) (request : BindRequest) :
    Triple (exec env) (Alone G) (Appended request.tenantId events w₀)
      (bindInternal env auth request false)
      (fun _ w => ∃ ns path revision atMs,
        canonicalNamespaceAndPath request.ns request.path = .ok (ns, path) ∧
        Appended request.tenantId (events ++ [boundEvent request ns path revision atMs]) w₀ w)
      fun _ _ => True := by
  refine .bind (Appended.ofExcept _) fun names => .of_fact fun hcanon =>
    .bind (Appended.ofExcept _) fun record => .of_fact fun _ =>
    .bind (Appended.authorize auth _) fun decision => ?_
  -- The response of the bind is not kept, so there is none to answer with.
  refine .bind (Appended.storedResponse decision) fun stored => .of_fact fun hstored => ?_
  subst hstored
  exact .conseq (appended_bindApply request names.1 names.2 record) (fun _ h => h)
    (fun _ _ ⟨revision, atMs, h⟩ => ⟨_, _, revision, atMs, hcanon, h⟩) fun _ _ h => h

theorem appended_commitBind (auth : AuthContext) (request : PutCommitRequest)
    (hbind : session.atomicBind = some bind) :
    Triple (exec env) (Alone G) (Appended request.tenantId events w₀)
      (commitBind env auth request session)
      (fun _ w => ∃ ns path revision atMs,
        canonicalNamespaceAndPath bind.ns bind.path = .ok (ns, path) ∧
        Appended request.tenantId (events ++ [boundEvent (bind.toBindRequest request.tenantId
          session.manifestCid request.idempotencyKey) ns path revision atMs]) w₀ w)
      fun _ _ => True := by
  unfold commitBind
  rw [hbind]
  dsimp only
  refine .bind (.attempt (Q := postE _ fun _ _ => True) (appended_bindInternal auth
    (bind.toBindRequest request.tenantId session.manifestCid request.idempotencyKey)))
    fun bound => ?_
  cases bound with
  | ok response => exact .pure fun _ h => h
  | error e =>
    refine .of_success fun w _ w' _ hrun => ?_
    obtain ⟨_, _, -, hthrow⟩ := runE_bind_eq_ok _ hrun
    cases hthrow

/-- **The events of a commit** that binds its object. -/
theorem appended_putCommitApply (auth : AuthContext) (request : PutCommitRequest)
    (hbind : session.atomicBind = some bind) :
    Triple (exec env) (Alone G) (Appended request.tenantId events w₀)
      (putCommitApply env auth request session)
      (fun _ w => ∃ ns path revision atMs atMs',
        canonicalNamespaceAndPath bind.ns bind.path = .ok (ns, path) ∧
        Appended request.tenantId (events ++ [boundEvent (bind.toBindRequest request.tenantId
          session.manifestCid request.idempotencyKey) ns path revision atMs,
          commitEvent request session atMs']) w₀ w)
      fun _ _ => True := by
  rw [putCommitApply_eq]
  refine .bind (.bind (Appended.aside (.checkChunksStored _ _)) fun _ =>
    .bind (Appended.aside .nowMs) fun _ => .bind (Appended.aside (.writeEncryptedJson rfl _))
      fun _ => appended_commitBind auth request hbind) fun _ => ?_
  refine .of_success fun w response w' hw hrun => ?_
  obtain ⟨ns, path, revision, atMs, hcanon, happended⟩ := hw
  rw [runE_recordCommit] at hrun
  cases hrun
  refine ⟨ns, path, revision, atMs, env.clock w.tick, hcanon, ?_⟩
  have htick : SameOn Loc.isEventLog w (w.ticked 1) := fun _ _ => rfl
  have hlogged := (happended.same htick).snoc (commitEvent request session (env.clock w.tick))
  rw [List.append_assoc] at hlogged
  refine hlogged.same (.set (.set (.set ?_ rfl _) rfl _) rfl _)
  exact fun _ _ => rfl

end Triples

/-! ### Who tells the events apart -/

namespace Cdn

/-- The removal of an object from the cache, in both forms. -/
def applyEventInvalidation (cache : String → Option CachedObject) (t : TenantId)
    (event : EventRecord) : String → Option CachedObject :=
  match event.eventType with
  | .namespaceBound | .namespaceUnbound | .namespaceTombstoned | .objectCommitted =>
    match event.ns, event.path with
    | some ns, some path =>
      Function.update (Function.update cache (namespaceCacheKey t ns path false) none)
        (namespaceCacheKey t ns path true) none
    | _, _ => cache
  | _ => cache

end Cdn

/-- Two events are treated alike by all filters that do not ask for a type of event, and by all
caches. -/
structure TreatedAlike (event event' : EventRecord) : Prop where
  filter : ∀ filter : SubscribeFilter, filter.eventType = none →
    eventMatchesFilter event filter = eventMatchesFilter event' filter
  invalidation : ∀ cache t,
    Cdn.applyEventInvalidation cache t event = Cdn.applyEventInvalidation cache t event'

/-- The events of a commit about a path are treated alike if they name the same path. -/
theorem treatedAlike_of_names {event event' : EventRecord} (hns : event.ns = event'.ns)
    (hpath : event.path = event'.path) (hcid : event.cid = event'.cid)
    (hbound : event.eventType = .namespaceBound)
    (hcommitted : event'.eventType = .objectCommitted) :
    TreatedAlike event event' where
  filter filter hfilter := by
    rw [eventMatchesFilter, eventMatchesFilter, hns, hpath, hcid, hfilter]
  invalidation cache t := by
    rw [Cdn.applyEventInvalidation, Cdn.applyEventInvalidation, hbound, hcommitted, hns, hpath]

theorem underPrefix_antisymm {p q : String} (hpq : underPrefix (some p) q)
    (hqp : underPrefix (some q) p) : p = q := by
  simp only [underPrefix, Bool.or_eq_true, beq_iff_eq, List.isPrefixOf_iff_prefix] at hpq hqp
  obtain rfl | hpq := hpq
  · rfl
  · obtain rfl | hqp := hqp
    · rfl
    · have hlt := hpq.length_le
      have hgt := hqp.length_le
      simp at hlt hgt
      omega

/-- Filters for their names tell apart two events that name different paths. -/
theorem TreatedAlike.names {event event' : EventRecord} (h : TreatedAlike event event')
    {ns ns' path path' : String} (hns : event.ns = some ns) (hns' : event'.ns = some ns')
    (hpath : event.path = some path) (hpath' : event'.path = some path') :
    ns = ns' ∧ path = path' := by
  have hunder (p : String) : underPrefix (some p) ns = underPrefix (some p) ns' := by
    simpa [eventMatchesFilter, hns, hns'] using h.filter ⟨some p, none, none, none, none⟩ rfl
  have hself (p : String) : underPrefix (some p) p = true := by simp [underPrefix]
  constructor
  · exact underPrefix_antisymm ((hunder ns).symm.trans (hself ns))
      ((hunder ns').trans (hself ns'))
  · have hexact := h.filter ⟨none, some path, none, none, none⟩ rfl
    exact (by simpa [eventMatchesFilter, hpath, hpath'] using hexact : path' = path).symm

/-- **The events of a commit.**  A commit whose session asks for a bind is carried out and succeeds.
It appends two events, about the bind and about the commit, of the same object.  They name the same
namespace and path if and only if these were spelled canonically, and they are treated alike if and
only if they do. -/
theorem commit_events_agree_iff (env : Env) {auth : AuthContext} {request : PutCommitRequest}
    {session : UploadSessionRecord} {bind : AtomicBindRequest} {reply : Reply} {w : World}
    (hsession : w.store (.sessions request.tenantId request.sessionId) = some session)
    (hbind : session.atomicBind = some bind) (hfresh : ¬ AnsweredFromStore env auth request w)
    (hok : ((Call.putCommit auth request).perform env w).1 = .ok reply) :
    ∃ bound committed,
      Appended request.tenantId [bound, committed] w
        ((Call.putCommit auth request).perform env w).2 ∧
      bound.eventType = .namespaceBound ∧ committed.eventType = .objectCommitted ∧
      bound.cid = committed.cid ∧
      (bound.ns = committed.ns ∧ bound.path = committed.path ↔
        canonicalNamespaceAndPath bind.ns bind.path = .ok (bind.ns, bind.path)) ∧
      (TreatedAlike bound committed ↔
        canonicalNamespaceAndPath bind.ns bind.path = .ok (bind.ns, bind.path)) := by
  generalize hw' : ((Call.putCommit auth request).perform env w).2 = w'
  obtain ⟨k, response, hk, -, hrun⟩ := Call.keyed_of_ok (c := .putCommit auth request) trivial hok
  obtain ⟨session', hsession', rfl⟩ := Call.keyed_putCommit hk
  obtain rfl := Option.some.inj (hsession.symm.trans hsession')
  rw [hw'] at hrun
  rcases (request.keyed env auth session).handle_cases env w with
    ⟨e, w₁, -, hdenied⟩ | ⟨record, w₁, hretry, hstored, -⟩ | ⟨decision, w₁, hauth, -, happly⟩
  · rw [hdenied] at hrun
    cases hrun
  · exact absurd ⟨session, hsession, congrArg Prod.fst hretry, Option.isSome_iff_exists.2
      ⟨record, hstored⟩⟩ hfresh
  · rw [happly] at hrun
    have hpassed := (Appended.authorize auth (commitMeta request session)).run_ok
      (.nil request.tenantId w) hauth
    obtain ⟨ns, path, revision, atMs, atMs', hcanon, happended⟩ :=
      (appended_putCommitApply auth request hbind).run_ok hpassed hrun
    have hnames : (some ns = session.atomicBind.map (·.ns) ∧
        some path = session.atomicBind.map (·.path)) ↔
          canonicalNamespaceAndPath bind.ns bind.path = .ok (bind.ns, bind.path) := by
      simp [hcanon, hbind]
    refine ⟨_, _, happended, rfl, rfl, rfl, hnames, fun halike => ?_, fun hcanonical => ?_⟩
    · have hcommitted : (commitEvent request session atMs').ns = some bind.ns ∧
          (commitEvent request session atMs').path = some bind.path := by
        simp [commitEvent, hbind]
      obtain ⟨rfl, rfl⟩ := halike.names rfl hcommitted.1 rfl hcommitted.2
      exact hcanon
    · exact treatedAlike_of_names (hnames.2 hcanonical).1 (hnames.2 hcanonical).2 rfl rfl rfl

namespace Sample

/-- The request to commit the object. -/
def namedCommit : PutCommitRequest := ⟨tenant, "session-" ++ manifestCid, manifestCid, "3"⟩

/-- The two events of a commit whose path is spelled canonically. -/
theorem commit_events_agree :
    ∃ bound committed, Appended tenant [bound, committed] uploaded
        ((Call.putCommit (auth "3") namedCommit).perform (Sample.env [bindRecord]) uploaded).2 ∧
      bound.path = committed.path ∧ TreatedAlike bound committed := by
  have ⟨hsession, hstored, hok, hcanonical⟩ :
      uploaded.store (.sessions namedCommit.tenantId namedCommit.sessionId) =
        some openedSession ∧
      (uploaded.store (.idempotency tenant .putCommit "3")).isSome = false ∧
      (((Call.putCommit (auth "3") namedCommit).perform (Sample.env [bindRecord])
        uploaded).1.toOption).isSome ∧
      canonicalNamespaceAndPath "n" "p" = .ok ("n", "p") := by
    decide +kernel
  have hbind : openedSession.atomicBind = some (atomicBind 0) := rfl
  obtain ⟨reply, hreply⟩ := Option.isSome_iff_exists.1 hok
  obtain ⟨bound, committed, happended, -, -, -, hnames, halike⟩ :=
    commit_events_agree_iff (Sample.env [bindRecord]) hsession hbind
      (not_answeredFromStore hstored rfl rfl) (except_ok_of_toOption hreply)
  exact ⟨bound, committed, happended, (hnames.2 hcanonical).2, halike.2 hcanonical⟩

/-- **The two events of a commit whose path is spelled with an escape** name different paths.  A
filter for the path takes one of them and not the other. -/
theorem commit_events_differ :
    let escaped := { announced with atomicBind := some { atomicBind 0 with path := "%70" } }
    let w := runCalls (Sample.env [bindRecord])
      [.putInit (auth "1") escaped, putChunk "2" manifest, putCommit "3" manifest] World.empty
    (w.store (.event tenant 1)).map (fun e => (e.eventType, e.ns, e.path)) =
        some (.namespaceBound, some "n", some "p") ∧
      (w.store (.event tenant 2)).map (fun e => (e.eventType, e.ns, e.path)) =
        some (.objectCommitted, some "n", some "%70") ∧
      (w.store (.event tenant 1)).map (eventMatchesFilter · ⟨none, some "p", none, none, none⟩) =
        some true ∧
      (w.store (.event tenant 2)).map (eventMatchesFilter · ⟨none, some "p", none, none, none⟩) =
        some false := by
  decide +kernel

end Sample

end Hsp
