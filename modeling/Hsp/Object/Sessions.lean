import Hsp.Object.Commit

/-!
# The life of an upload session

`PUT_INIT` writes the session of a manifest anew, `PUT_CHUNK` notes a chunk in it, and `PUT_COMMIT`
marks it as committed.  The session carries a deadline.  `PUT_COMMIT` looks neither at the mark nor
at the deadline, and `PUT_CHUNK` does not look at the deadline.

* `Call.sessionStep` : what one call does to a session;
* `sessionHistory` : a session tells when it was opened and whether it was committed since then;
* `committed_once_in_time` : if every call heeds the session it finds, then a session is committed
  at most once and in time.
-/

namespace Hsp

open List World Option

variable {env : Env} {t : TenantId} {w w' : World} {sessionId : String} {c : Call}

/-- The entry holds a session. -/
def Loc.isSession : Loc → Bool
  | .sessions _ _ => true
  | _ => false

/-- The entry of the session of a manifest. -/
@[reducible] def sessionLoc (t : TenantId) (cid : String) : Loc := .sessions t ("session-" ++ cid)

theorem sessionLoc_inj {t' : TenantId} {cid cid' : String} :
    sessionLoc t cid = sessionLoc t' cid' ↔ t = t' ∧ cid = cid' := by
  simp [sessionLoc, String.append_right_inj]

/-- The session of a manifest: whether it is committed, and its deadline. -/
def World.sessionStatus (w : World) (t : TenantId) (cid : String) : Option (Bool × ℕ) :=
  (w.store (sessionLoc t cid)).map fun session => (session.committed, session.uploadDeadlineMs)

theorem World.sessionStatus_eq {cid : String} {session : UploadSessionRecord}
    (hid : sessionId = "session-" ++ cid) (h : w.store (.sessions t sessionId) = some session) :
    w.sessionStatus t cid = some (session.committed, session.uploadDeadlineMs) := by
  subst hid
  rw [sessionStatus, h]
  rfl

theorem SameOn.sessionStatus (h : SameOn Loc.isSession w w') (t : TenantId) (cid : String) :
    w'.sessionStatus t cid = w.sessionStatus t cid := by
  rw [World.sessionStatus, World.sessionStatus, h _ rfl]

theorem SameOn.sessions (h : SameOn Loc.isData w w') : SameOn Loc.isSession w w' :=
  h.mono fun l hl => by cases l <;> first | rfl | cases hl

/-! ### What happens to sessions -/

namespace Exchange

variable (env) (x : Exchange) (t : TenantId) (cid : String)

/-- A `PUT_INIT` for a manifest was carried out, with the given response. -/
def Opens (response : PutInitResponse) : Prop :=
  ∃ auth request, x.call = .putInit auth request ∧ request.tenantId = t ∧
    request.manifest.manifestCid env = cid ∧ x.reply = .ok (.putInit response) ∧
    ¬ (request.keyed env auth).Answered env x.before

/-- A `PUT_COMMIT` for the session of a manifest was carried out to completion. -/
def Commits : Prop :=
  ∃ auth request, x.call = .putCommit auth request ∧ request.tenantId = t ∧
    request.sessionId = "session-" ++ cid ∧ x.reply.isOk ∧
    ¬ AnsweredFromStore env auth request x.before

end Exchange

/-- What a call can do to the session of a manifest. -/
inductive SessionStep (env : Env) (t : TenantId) (cid : String) (x : Exchange) : Prop
  | keeps (hopens : ∀ r, ¬ x.Opens env t cid r) (hcommits : ¬ x.Commits env t cid)
      (h : x.after.sessionStatus t cid = x.before.sessionStatus t cid)
  | opens {r : PutInitResponse} (hopens : x.Opens env t cid r)
      (h : x.after.sessionStatus t cid = some (false, r.uploadDeadlineMs))
  | commits (hopens : ∀ r, ¬ x.Opens env t cid r) {committed : Bool} {deadline : ℕ}
      (hbefore : x.before.sessionStatus t cid = some (committed, deadline))
      (h : x.after.sessionStatus t cid = some (true, deadline))

section Step

variable (env)

theorem runE_missingChunks (t : TenantId) (refs : List ChunkRef) (w : World) :
    ∃ missing, runE (exec env) (missingChunks t refs) w = (.ok missing, w) := by
  induction refs with
  | nil => exact ⟨[], rfl⟩
  | cons ref refs ih =>
    obtain ⟨missing, hmissing⟩ := ih
    rw [missingChunks, chunkExists, runE_bind_ok _ (runE_storeExists env w _),
      runE_bind_ok _ hmissing]
    exact ⟨_, rfl⟩

/-- The session that a `PUT_INIT` writes. -/
def PutInitRequest.newSession (request : PutInitRequest) (createdAtMs deadlineBase : ℕ) :
    UploadSessionRecord where
  sessionId := "session-" ++ request.manifest.manifestCid env
  tenantId := request.tenantId
  manifest := request.manifest
  manifestCid := request.manifest.manifestCid env
  idempotencyKey := request.idempotencyKey
  storageClass := request.storageClass
  atomicBind := request.atomicBind
  uploadedChunks := []
  committed := false
  createdAtMs := createdAtMs
  uploadDeadlineMs := deadlineBase + 15 * 60 * 1000

/-- The world after a `PUT_INIT` has been carried out: the session is written anew, and the response
is stored. -/
def PutInitRequest.opened (request : PutInitRequest) (response : PutInitResponse) (w : World) :
    World :=
  ((w.ticked 2).set (sessionLoc request.tenantId (request.manifest.manifestCid env))
    (some (request.newSession env (env.clock w.tick) (env.clock (w.tick + 1))))).set
    (.idempotency request.tenantId .putInit request.idempotencyKey) (some ⟨response⟩)

theorem runE_putInitApply (request : PutInitRequest) (w : World) :
    ∃ response, runE (exec env) (putInitApply env request) w =
        (.ok response, request.opened env response w) ∧
      response.sessionId = "session-" ++ request.manifest.manifestCid env ∧
      response.uploadDeadlineMs = env.clock (w.tick + 1) + 15 * 60 * 1000 := by
  obtain ⟨missing, hmissing⟩ := runE_missingChunks env request.tenantId
    request.manifest.chunkRefs w
  rw [putInitApply, runE_bind_ok _ hmissing]
  exact ⟨_, rfl, rfl, rfl⟩

theorem sessions_opened (request : PutInitRequest) (response : PutInitResponse) (w : World) :
    SameOn Loc.isSession (w.set
      (sessionLoc request.tenantId (request.manifest.manifestCid env))
      (some (request.newSession env (env.clock w.tick) (env.clock (w.tick + 1)))))
      (request.opened env response w) := by
  intro l hl
  have hne : l ≠ .idempotency request.tenantId .putInit request.idempotencyKey := by
    rintro rfl
    cases hl
  exact (set_store_of_ne _ hne _).trans rfl

theorem runE_storeChunk (request : PutChunkRequest) (ciphertextChunk : List UInt8)
    (duplicate : Bool) (w : World) :
    ∃ w', runE (exec env) (storeChunk request ciphertextChunk duplicate) w = (.ok (), w') ∧
      SameOn Loc.isSession w w' := by
  cases duplicate with
  | true => exact ⟨w, rfl, fun _ _ => rfl⟩
  | false =>
    refine ⟨_, rfl, fun l hl => set_store_of_ne _ ?_ _⟩
    rintro rfl
    cases hl

/-- The request `put_chunk` puts to the policy engine. -/
def chunkMeta (request : PutChunkRequest) (session : UploadSessionRecord)
    (ciphertextChunk : List UInt8) : AuthRequestMeta where
  operation := .putChunk
  tenantId := request.tenantId
  subject := request.sessionId ++ ":" ++ toString request.chunkIndex.toNat
  contentSize := some (.ofNat ciphertextChunk.length)
  storageClass := some session.storageClass
  keyPolicyId := some session.manifest.encryptionDescriptor.keyPolicyId
  encryptionProfileId := some session.manifest.encryptionDescriptor.encryptionProfileId

/-- A `PUT_CHUNK` leaves the sessions alone, or it succeeds and notes a chunk in its session, which
is not committed. -/
theorem runE_putChunk_sessions (auth : AuthContext) (request : PutChunkRequest)
    (ciphertextChunk : List UInt8) (w : World) :
    (∃ e w', runE (exec env) (putChunk env auth request ciphertextChunk) w = (.error e, w') ∧
      SameOn Loc.isSession w w') ∨
    ∃ session response w', w.store (.sessions request.tenantId request.sessionId) = some session ∧
      runE (exec env) (putChunk env auth request ciphertextChunk) w = (.ok response, w') ∧
      SameOn Loc.isSession (w.set (.sessions request.tenantId request.sessionId)
        (some { session with
          uploadedChunks := noteUploaded session.uploadedChunks request.chunkIndex })) w' := by
  by_cases hcid : cidFromBytes env ciphertextChunk ≠ request.chunkCid
  · exact .inl ⟨_, w, runE_bind_error _ (runE_rejectIf_of env w hcid _), fun _ _ => rfl⟩
  rw [putChunk, runE_bind_ok _ (runE_rejectIf_of_not env w hcid _)]
  cases hsession : w.store (.sessions request.tenantId request.sessionId) with
  | none =>
    exact .inl ⟨_, w, runE_bind_error _ (runE_uploadSession_none hsession), fun _ _ => rfl⟩
  | some session =>
    rw [runE_bind_ok _ (runE_uploadSession_some hsession)]
    cases hcheck : checkChunk session request ciphertextChunk with
    | error e =>
      exact .inl ⟨e, w, runE_bind_error _ (runE_ofExcept env _ w), fun _ _ => rfl⟩
    | ok _ =>
      rw [runE_ofExcept_bind]
      obtain ⟨result, w₁, hauth, hsame, -⟩ := runE_authorize env auth
        (chunkMeta request session ciphertextChunk) w
      rw [chunkMeta] at hauth
      cases result with
      | error e => exact .inl ⟨e, w₁, runE_bind_error _ hauth, hsame.sessions⟩
      | ok decision =>
        rw [runE_bind_ok _ hauth, chunkExists, runE_bind_ok _ (runE_storeExists env w₁ _)]
        obtain ⟨w₂, hstore, hkept⟩ := runE_storeChunk env request ciphertextChunk
          (w₁.store (.chunks request.tenantId request.chunkCid)).isSome w₁
        rw [runE_bind_ok _ hstore]
        refine .inr ⟨session, _, _, rfl, rfl, (hsame.sessions.trans hkept).set_both _ _⟩

theorem isSession_of_mutationWrites (l : Loc) (h : Handled.mutationWrites t l) :
    l.isSession = false := by
  cases l <;> first | rfl | exact h.elim

theorem sameSessions_of_prepareCommit (auth : AuthContext) (request : PutCommitRequest)
    (session : UploadSessionRecord) (w : World) : SameOn Loc.isSession w
      (runE (exec env) (prepareCommit env auth request session) w).2 := by
  have hhandled : Handled env auth request.tenantId (fun _ => True) (fun l => l.isSession = false)
      (prepareCommit env auth request session) :=
    .bind (Handled.reading.checkChunksStored _) fun _ => .bind .nowMs fun _ =>
      .bind (.writeEncryptedJson rfl) fun _ =>
      .commitBind env auth trivial isSession_of_mutationWrites rfl
  have haside := hhandled.aside (D := Loc.isSession)
    (fun l _ hl => by cases l <;> first | rfl | cases hl) fun _ h => h
  exact (haside.run env w).1

/-- The call is part of an upload. -/
def Call.IsUpload : Call → Prop
  | .putInit _ _ | .putChunk _ _ _ | .putCommit _ _ => True
  | _ => False

theorem Call.sessions_kept (h : ¬ c.IsUpload) (w : World) :
    SameOn Loc.isSession w (c.perform env w).2 := by
  refine c.sameOn env (fun l hl => ?_) (fun l hl => ?_) w
  · cases l <;> first | rfl | cases hl
  · cases c <;> cases l <;> first | rfl | exact absurd trivial h | cases hl

variable (t : TenantId) (cid : String)

theorem SessionStep.of_error {e : ApiError} (hrun : c.perform env w = (.error e, w'))
    (hw : SameOn Loc.isSession w w') : SessionStep env t cid (c.exchange env w) := by
  rw [Call.exchange, hrun]
  refine .keeps ?_ ?_ (hw.sessionStatus t cid)
  · rintro r ⟨_, _, -, -, -, hreply, -⟩
    cases hreply
  · rintro ⟨_, _, -, -, -, hreply, -⟩
    cases hreply

theorem sessionStep_putInit (auth : AuthContext) (request : PutInitRequest) (w : World) :
    SessionStep env t cid ((Call.putInit auth request).exchange env w) := by
  have hcommits : ¬ ((Call.putInit auth request).exchange env w).Commits env t cid := by
    rintro ⟨_, _, hcall, -⟩
    cases hcall
  rcases Call.perform_eq env (c := .putInit auth request) trivial w with
    ⟨-, e, hrun⟩ | ⟨k, hk, hrun⟩
  · exact .of_error env t cid hrun fun _ _ => rfl
  obtain rfl := Call.keyed_putInit hk
  rw [runE_map] at hrun
  rcases (request.keyed env auth).handle_cases env w with ⟨e, w₁, hauth, hhandle⟩ |
    ⟨record, w₁, hauth, hrecord, hhandle⟩ | ⟨decision, w₁, hauth, hno, hhandle⟩
  · rw [hhandle] at hrun
    exact .of_error env t cid hrun (sameOn_of_authorize hauth).sessions
  · rw [hhandle] at hrun
    refine .keeps ?_ hcommits ?_
    · rintro r ⟨auth', request', hcall, -, -, -, hno⟩
      cases hcall
      refine hno ⟨?_, ?_⟩
      · exact congrArg Prod.fst hauth
      · exact isSome_iff_exists.2 ⟨record, hrecord⟩
    · rw [Call.exchange, hrun]
      exact (sameOn_of_authorize hauth).sessions.sessionStatus t cid
  · obtain ⟨response, happly, -, hdeadline⟩ := runE_putInitApply env request w₁
    rw [hhandle.trans happly] at hrun
    have hwritten := ((sameOn_of_authorize hauth).sessions.set_both _ _).trans
      (sessions_opened env request response w₁)
    by_cases hkey : request.tenantId = t ∧ request.manifest.manifestCid env = cid
    · refine .opens (r := response) ⟨auth, request, rfl, hkey.1, hkey.2, ?_, hno⟩ ?_
      · rw [Call.exchange, hrun]
        rfl
      · rw [Call.exchange, hrun, ← hkey.1, ← hkey.2, hwritten.sessionStatus, World.sessionStatus,
          set_store_self, hdeadline]
        rfl
    · refine .keeps ?_ hcommits ?_
      · rintro r ⟨auth', request', hcall, ht, hcid, -⟩
        cases hcall
        exact hkey ⟨ht, hcid⟩
      · rw [Call.exchange, hrun, hwritten.sessionStatus, World.sessionStatus,
          set_store_of_ne _ fun heq => hkey ((sessionLoc_inj.1 heq).imp Eq.symm Eq.symm)]
        rfl

theorem sessionStep_putChunk (auth : AuthContext) (request : PutChunkRequest)
    (ciphertextChunk : List UInt8) (w : World) :
    SessionStep env t cid ((Call.putChunk auth request ciphertextChunk).exchange env w) := by
  refine .keeps ?_ ?_ ?_
  · rintro r ⟨_, _, hcall, -⟩
    cases hcall
  · rintro ⟨_, _, hcall, -⟩
    cases hcall
  rw [Call.exchange, Call.perform, Call.handle, runE_map]
  rcases runE_putChunk_sessions env auth request ciphertextChunk w with ⟨e, w', hrun, hsame⟩ |
    ⟨session, response, w', hsession, hrun, hsame⟩
  · rw [hrun]
    exact hsame.sessionStatus t cid
  · rw [hrun]
    refine (hsame.sessionStatus t cid).trans ?_
    by_cases hkey : request.tenantId = t ∧ request.sessionId = "session-" ++ cid
    · obtain ⟨rfl, hid⟩ := hkey
      rw [sessionStatus_eq hid (set_store_self _ _ _),
        sessionStatus_eq hid hsession]
    · rw [World.sessionStatus, set_store_of_ne _ fun heq => hkey ?_]
      · rfl
      · injection heq with ht hid
        exact ⟨ht.symm, hid.symm⟩

theorem sessionStep_putCommit (auth : AuthContext) (request : PutCommitRequest) (w : World) :
    SessionStep env t cid ((Call.putCommit auth request).exchange env w) := by
  have hopens (r : PutInitResponse) :
      ¬ ((Call.putCommit auth request).exchange env w).Opens env t cid r := by
    rintro ⟨_, _, hcall, -⟩
    cases hcall
  rcases Call.perform_eq env (c := .putCommit auth request) trivial w with
    ⟨-, e, hrun⟩ | ⟨k, hk, hrun⟩
  · exact .of_error env t cid hrun fun _ _ => rfl
  obtain ⟨session, hsession, rfl⟩ := Call.keyed_putCommit hk
  rw [runE_map] at hrun
  rcases (request.keyed env auth session).handle_cases env w with ⟨e, w₁, hauth, hhandle⟩ |
    ⟨record, w₁, hauth, hrecord, hhandle⟩ | ⟨decision, w₁, hauth, -, hhandle⟩
  · rw [hhandle] at hrun
    exact .of_error env t cid hrun (sameOn_of_authorize hauth).sessions
  · rw [hhandle] at hrun
    refine .keeps hopens ?_ ?_
    · rintro ⟨auth', request', hcall, -, -, -, hno⟩
      cases hcall
      exact hno ⟨session, hsession, congrArg Prod.fst hauth,
        isSome_iff_exists.2 ⟨record, hrecord⟩⟩
    · rw [Call.exchange, hrun]
      exact (sameOn_of_authorize hauth).sessions.sessionStatus t cid
  have hprepared := (sameOn_of_authorize hauth).sessions.trans
    (sameSessions_of_prepareCommit env auth request session w₁)
  have happly : runE (exec env) (request.keyed env auth session).apply w₁ =
      runE (exec env) (do
        prepareCommit env auth request session
        recordCommit env request session) w₁ := by
    rw [← putCommitApply_eq]
    rfl
  rcases hprepare : runE (exec env) (prepareCommit env auth request session) w₁ with
    ⟨e | _, w₂⟩
  · rw [runE_bind_error _ hprepare] at happly
    rw [hhandle.trans happly] at hrun
    rw [hprepare] at hprepared
    exact .of_error env t cid hrun hprepared
  rw [runE_bind_ok _ hprepare, runE_recordCommit] at happly
  rw [hhandle.trans happly] at hrun
  rw [hprepare] at hprepared
  by_cases hkey : request.tenantId = t ∧ request.sessionId = "session-" ++ cid
  · obtain ⟨rfl, hid⟩ := hkey
    refine .commits hopens (sessionStatus_eq hid hsession) ?_
    rw [Call.exchange, hrun]
    exact sessionStatus_eq hid (commitRecorded_session env request session w₂)
  · refine .keeps hopens ?_ ?_
    · rintro ⟨auth', request', hcall, ht, hid, -⟩
      cases hcall
      exact hkey ⟨ht, hid⟩
    · rw [Call.exchange, hrun, World.sessionStatus, commitRecorded_store env request session
        w₂ rfl (by simp) rfl, ← World.sessionStatus, hprepared.sessionStatus]
      intro heq
      injection heq with ht hid
      exact hkey ⟨ht.symm, hid.symm⟩

/-- **What a call does to a session.** -/
theorem Call.sessionStep (c : Call) (w : World) : SessionStep env t cid (c.exchange env w) := by
  by_cases h : c.IsUpload
  · cases c with
    | putInit auth request => exact sessionStep_putInit env t cid auth request w
    | putChunk auth request chunk => exact sessionStep_putChunk env t cid auth request chunk w
    | putCommit auth request => exact sessionStep_putCommit env t cid auth request w
    | _ => exact h.elim
  · refine .keeps ?_ ?_ ((Call.sessions_kept env h w).sessionStatus t cid)
    · rintro r ⟨auth, request, hcall, -⟩
      obtain rfl : c = .putInit auth request := hcall
      exact h trivial
    · rintro ⟨auth, request, hcall, -⟩
      obtain rfl : c = .putCommit auth request := hcall
      exact h trivial

end Step

/-! ### Runs -/

/-- What a session tells about the run so far: when it was opened, and whether it was committed
since then. -/
def SessionHistory (env : Env) (xs : List Exchange) (t : TenantId) (cid : String) (committed : Bool)
    (deadline : ℕ) : Prop :=
  ∃ before x after r, xs = before ++ x :: after ∧ x.Opens env t cid r ∧
    (∀ y ∈ after, ∀ r', ¬ y.Opens env t cid r') ∧ deadline = r.uploadDeadlineMs ∧
    ((∃ y ∈ after, y.Commits env t cid) → committed = true)

theorem SessionHistory.snoc {xs : List Exchange} {cid : String} {deadline : ℕ}
    {committed committed' : Bool} (h : SessionHistory env xs t cid committed deadline)
    {y : Exchange} (hopens : ∀ r, ¬ y.Opens env t cid r)
    (hcommitted : committed = true ∨ y.Commits env t cid → committed' = true) :
    SessionHistory env (xs ++ [y]) t cid committed' deadline := by
  obtain ⟨before, x, after, r, rfl, hx, hnone, hdeadline, hcommit⟩ := h
  refine ⟨before, x, after ++ [y], r, by simp, hx, fun z hz => ?_, hdeadline, ?_⟩
  · rcases mem_append.1 hz with hz | hz
    · exact hnone z hz
    · rw [mem_singleton.1 hz]
      exact hopens
  · rintro ⟨z, hz, hcommits⟩
    rcases mem_append.1 hz with hz | hz
    · exact hcommitted (.inl (hcommit ⟨z, hz, hcommits⟩))
    · rw [mem_singleton.1 hz] at hcommits
      exact hcommitted (.inr hcommits)

/-- **Every session has a history.** -/
theorem sessionHistory (env : Env) (calls : List Call) (t : TenantId) (cid : String)
    {committed : Bool} {deadline : ℕ} (h : (runCalls env calls World.empty).sessionStatus t cid =
      some (committed, deadline)) :
    SessionHistory env (exchanges env calls World.empty) t cid committed deadline := by
  induction calls using List.reverseRecOn generalizing committed deadline with
  | nil => cases h
  | append_singleton calls c ih =>
    have hafter : (c.exchange env (runCalls env calls World.empty)).after.sessionStatus t cid =
        some (committed, deadline) := by
      rw [← h, runCalls_append]
      rfl
    rw [exchanges_append]
    cases Call.sessionStep env t cid c (runCalls env calls World.empty) with
    | keeps hopens hcommits hkept =>
      refine (ih (hkept.symm.trans hafter)).snoc hopens fun hor => hor.resolve_right hcommits
    | opens hopens hstatus =>
      obtain ⟨-, rfl⟩ := Prod.mk.inj (some.inj (hafter.symm.trans hstatus))
      refine ⟨exchanges env calls World.empty, _, [], _, rfl, hopens, fun y hy => ?_, rfl, ?_⟩
      · cases hy
      · rintro ⟨y, hy, -⟩
        cases hy
    | commits hopens hbefore hstatus =>
      obtain ⟨rfl, rfl⟩ := Prod.mk.inj (some.inj (hafter.symm.trans hstatus))
      exact (ih hbefore).snoc hopens fun _ => rfl

/-- An exchange in a run is the exchange of a call after the calls before it. -/
theorem exchanges_eq_append_cons {calls : List Call} {before after : List Exchange} {x : Exchange}
    (h : exchanges env calls w = before ++ x :: after) :
    ∃ (calls' : List Call) (c : Call), before = exchanges env calls' w ∧
      x = c.exchange env (runCalls env calls' w) := by
  induction calls generalizing w before with
  | nil => simp [exchanges] at h
  | cons c calls ih =>
    cases before with
    | nil =>
      obtain ⟨rfl, -⟩ := cons.inj h
      exact ⟨[], c, rfl, rfl⟩
    | cons b before =>
      obtain ⟨rfl, hrest⟩ := cons.inj h
      obtain ⟨calls', c', rfl, rfl⟩ := ih hrest
      exact ⟨c :: calls', c', rfl, rfl⟩

/-- The session an upload call names. -/
def Call.session : Call → Option (TenantId × String)
  | .putChunk _ request _ => some (request.tenantId, request.sessionId)
  | .putCommit _ request => some (request.tenantId, request.sessionId)
  | _ => none

theorem Call.exists_session (hc : c.session = some (t, sessionId))
    (hok : (c.perform env w).1.isOk) :
    ∃ session, w.store (.sessions t sessionId) = some session := by
  cases c with
  | putChunk auth request chunk =>
    cases hc
    rcases runE_putChunk_sessions env auth request chunk w with ⟨e, w', hrun, -⟩ |
      ⟨session, _, _, hsession, -⟩
    · rw [Call.perform, Call.handle, runE_map, hrun] at hok
      cases hok
    · exact ⟨session, hsession⟩
  | putCommit auth request =>
    cases hc
    cases hreply : ((Call.putCommit auth request).perform env w).1 with
    | error e =>
      rw [hreply] at hok
      cases hok
    | ok reply =>
      obtain ⟨response, w', hrun⟩ := runE_map_eq_ok _ hreply
      obtain ⟨session, _, hsession, -⟩ := parts_of_putCommit hrun
      exact ⟨session, hsession⟩
  | _ => cases hc

namespace Exchange

variable (env) (x : Exchange)

/-- A time between the start and the end of the call. -/
def During (atMs : ℕ) : Prop :=
  ∃ tick, x.before.tick ≤ tick ∧ tick ≤ x.after.tick ∧ env.clock tick = atMs

/-- The call respects the session it finds: the deadline has not passed, and a commit that is
carried out finds the session uncommitted. -/
structure Heeds : Prop where
  inTime : ∀ t sessionId (session : UploadSessionRecord), x.call.session = some (t, sessionId) →
    x.before.store (.sessions t sessionId) = some session →
    ∀ atMs, x.During env atMs → atMs ≤ session.uploadDeadlineMs
  uncommitted : ∀ auth request (session : UploadSessionRecord), x.call = .putCommit auth request →
    x.before.store (.sessions request.tenantId request.sessionId) = some session →
    ¬ AnsweredFromStore env auth request x.before → session.committed = false

end Exchange

section Run

variable {calls : List Call} {t : TenantId} {cid : String} {before between after : List Exchange}
  {x y : Exchange}

/-- A commit that finds its session uncommitted is the first since the session was opened. -/
theorem opens_between_commits (hxs : exchanges env calls World.empty =
      before ++ x :: (between ++ y :: after)) (hy : y.Heeds env) (hx : x.Commits env t cid)
    (hcommits : y.Commits env t cid) : ∃ z ∈ between, ∃ r, z.Opens env t cid r := by
  have hxs' : exchanges env calls World.empty = (before ++ x :: between) ++ y :: after := by
    rw [hxs]
    simp
  obtain ⟨calls', c, hbefore, rfl⟩ := exchanges_eq_append_cons hxs'
  obtain ⟨auth, request, hcall, rfl, hid, hok, hno⟩ := hcommits
  obtain rfl : c = .putCommit auth request := hcall
  obtain ⟨session, hsession⟩ := Call.exists_session (c := .putCommit auth request) rfl hok
  have huncommitted := hy.uncommitted auth request session rfl hsession hno
  obtain ⟨before', z, after', r, hsplit, hz, -, -, hcommit⟩ :=
    sessionHistory env calls' _ cid (sessionStatus_eq hid hsession)
  have hne : x ≠ z := by
    rintro rfl
    obtain ⟨_, _, hcall, -⟩ := hx
    obtain ⟨_, _, hcall', -⟩ := hz
    rw [hcall] at hcall'
    cases hcall'
  have hlate : x ∉ after' := fun hmem => by
    rw [hcommit ⟨x, hmem, hx⟩] at huncommitted
    cases huncommitted
  -- The session was opened after the earlier commit, or the commit would be recorded in it.
  rw [← hbefore] at hsplit
  rcases append_eq_append_iff.1 hsplit with ⟨front, -, hrest⟩ | ⟨front, -, hrest⟩
  · cases front with
    | nil => exact absurd (cons.inj hrest).1 hne
    | cons f front =>
      obtain ⟨-, hmid⟩ := cons.inj hrest
      exact ⟨z, by simp [hmid], r, hz⟩
  · cases front with
    | nil => exact absurd (cons.inj hrest).1.symm hne
    | cons f front =>
      obtain ⟨-, hmid⟩ := cons.inj hrest
      exact absurd (by simp [hmid]) hlate

/-- A call that finds its session in time is in time for the request that opened it. -/
theorem inTime_of_session (hxs : exchanges env calls World.empty = before ++ x :: after)
    (hx : x.Heeds env) (hsession : x.call.session = some (t, "session-" ++ cid))
    (hok : x.reply.isOk) :
    ∃ earlier z later r, before = earlier ++ z :: later ∧ z.Opens env t cid r ∧
      (∀ y ∈ later, ∀ r', ¬ y.Opens env t cid r') ∧
      ∀ atMs, x.During env atMs → atMs ≤ r.uploadDeadlineMs := by
  obtain ⟨calls', c, rfl, rfl⟩ := exchanges_eq_append_cons hxs
  obtain ⟨session, hstored⟩ := Call.exists_session hsession hok
  obtain ⟨earlier, z, later, r, hsplit, hz, hlater, hdeadline, -⟩ :=
    sessionHistory env calls' t cid (sessionStatus_eq rfl hstored)
  refine ⟨earlier, z, later, r, hsplit, hz, hlater, fun atMs hduring => ?_⟩
  rw [← hdeadline]
  exact hx.inTime t _ session hsession hstored atMs hduring

end Run

/-- **A session is committed at most once and in time**, in every run whose calls heed the sessions
they find: between two commits of a session it was opened anew, and no chunk is stored and nothing
is committed after the deadline that was given when the session was last opened. -/
theorem committed_once_in_time (env : Env) (calls : List Call)
    (h : ∀ x ∈ exchanges env calls World.empty, x.Heeds env) (t : TenantId) (cid : String) :
    (∀ (before : List Exchange) x (between : List Exchange) y after,
      exchanges env calls World.empty = before ++ x :: (between ++ y :: after) →
      x.Commits env t cid → y.Commits env t cid →
      ∃ z ∈ between, ∃ r, z.Opens env t cid r) ∧
    ∀ (before : List Exchange) x after,
      exchanges env calls World.empty = before ++ x :: after →
      x.call.session = some (t, "session-" ++ cid) → x.reply.isOk →
      ∃ (earlier : List Exchange) (z : Exchange) (later : List Exchange) (r : PutInitResponse),
        before = earlier ++ z :: later ∧ z.Opens env t cid r ∧
        (∀ y ∈ later, ∀ r', ¬ y.Opens env t cid r') ∧
        ∀ atMs, x.During env atMs → atMs ≤ r.uploadDeadlineMs := by
  refine ⟨fun before x between y after hxs hx hy => ?_, fun before x after hxs hsession hok => ?_⟩
  · exact opens_between_commits hxs (h y (by simp [hxs])) hx hy
  · exact inTime_of_session hxs (h x (by simp [hxs])) hsession hok

namespace Sample

/-- The world before the object is committed. -/
def received : World :=
  runCalls (Sample.env []) [putInit "1" manifest none, putChunk "2" manifest] World.empty

/-- On this platform the time is that of the upload until the session is opened, and after that a
time later than the deadline. -/
def lateEnv : Env := { Sample.env [] with clock := fun tick => if tick < 4 then 0 else 900001 }

/-- The chunk, from a caller whose token does not expire. -/
def lateChunk : Call :=
  .putChunk ⟨{ (auth "2").claims with exp := 2000000 }, (auth "2").channelBinding⟩
    ⟨tenant, "session-" ++ manifestCid, 0, cid chunk, 0, 1⟩ chunk

theorem commit_evaluated :
    (received.store (.sessions tenant ("session-" ++ manifestCid))).map (·.committed) =
        some false ∧
      (received.store (.idempotency tenant .putCommit "3")).isSome = false ∧
      ((putCommit "3" manifest).exchange (Sample.env []) received).reply.isOk ∧
      let after := runCalls (Sample.env []) upload World.empty
      (after.store (.idempotency tenant .putCommit "4")).isSome = false ∧
        ((putCommit "4" manifest).exchange (Sample.env []) after).reply.isOk := by
  decide +kernel

/-- A session is committed twice, and a chunk is stored after the deadline. -/
theorem session_committed_twice_and_late :
    ((putCommit "3" manifest).exchange (Sample.env []) received).Commits (Sample.env []) tenant
        manifestCid ∧
      ((putCommit "4" manifest).exchange (Sample.env [])
        (runCalls (Sample.env []) upload World.empty)).Commits (Sample.env []) tenant manifestCid ∧
      let opened := (putInit "1" manifest none).perform lateEnv World.empty
      opened.1 = .ok (.putInit openedResponse) ∧ (lateChunk.perform lateEnv opened.2).1.isOk ∧
        openedResponse.uploadDeadlineMs < lateEnv.clock opened.2.tick := by
  obtain ⟨-, hfresh, hok, hfresh', hok'⟩ := commit_evaluated
  refine ⟨⟨_, _, rfl, rfl, rfl, hok, ?_⟩, ⟨_, _, rfl, rfl, rfl, hok', ?_⟩, ?_⟩
  · rw [Call.exchange_before]
    exact not_answeredFromStore hfresh rfl rfl
  · rw [Call.exchange_before]
    exact not_answeredFromStore hfresh' rfl rfl
  · decide +kernel

theorem exchanges_upload : exchanges (Sample.env []) upload World.empty =
    exchanges (Sample.env []) [putInit "1" manifest none, putChunk "2" manifest] World.empty ++
      [(putCommit "3" manifest).exchange (Sample.env []) received] :=
  exchanges_append [putInit "1" manifest none, putChunk "2" manifest] [putCommit "3" manifest] _

theorem heeds_upload : ∀ x ∈ exchanges (Sample.env []) upload World.empty,
    x.Heeds (Sample.env []) := by
  intro x hx
  refine ⟨?_, fun auth request session hcall hsession _ => ?_⟩
  · rintro t sessionId session - - atMs ⟨tick, -, -, rfl⟩
    exact Nat.zero_le _
  rw [exchanges_upload] at hx
  simp only [exchanges, mem_cons, mem_append, not_mem_nil, or_false] at hx
  rcases hx with (rfl | rfl) | rfl
  · cases hcall
  · cases hcall
  · cases hcall
    have hstored := commit_evaluated.1
    rw [Call.exchange_before] at hsession
    dsimp only at hsession
    rw [manifestCid, hsession] at hstored
    exact some.inj hstored

/-- The commit of the object is in time. -/
theorem upload_in_time :
    let x := (putCommit "3" manifest).exchange (Sample.env []) received
    x.reply.isOk ∧ ∃ z ∈ exchanges (Sample.env [])
        [putInit "1" manifest none, putChunk "2" manifest] World.empty,
      ∃ r, z.Opens (Sample.env []) tenant manifestCid r ∧
        ∀ atMs, x.During (Sample.env []) atMs → atMs ≤ r.uploadDeadlineMs := by
  intro x
  have hok : x.reply.isOk := commit_evaluated.2.2.1
  obtain ⟨earlier, z, later, r, hsplit, hz, -, htime⟩ :=
    (committed_once_in_time (Sample.env []) upload heeds_upload tenant manifestCid).2
      (exchanges (Sample.env []) [putInit "1" manifest none, putChunk "2" manifest] World.empty)
      x [] exchanges_upload rfl hok
  exact ⟨hok, z, by simp [hsplit], r, hz, htime⟩

end Sample

end Hsp
