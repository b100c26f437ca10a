import Hsp.Replay.Keyed
import Hsp.Sample.Basic

/-!
# Carrying out a commit

`put_commit` stores the manifest of its session, binds it if the session asks for it, and then
writes the event, the audit record, the session and the response.

* `prepareCommit`, `recordCommit` : the two halves of a commit;
* `delivered_iff_serves` : what a commit that is carried out does to the namespaces and to the
  manifest is what its session says;
* `commit_delivers_iff` : a commit delivers what a client asked for when the session was opened if
  and only if the session still serves that client.
-/

namespace Hsp

open World

variable {env : Env} {response : PutCommitResponse} {t : TenantId}

section Commit

variable (env) (auth : AuthContext) (request : PutCommitRequest) (session : UploadSessionRecord)

/-- The part of `put_commit` up to its bind. -/
def prepareCommit : Svc Unit := do
  checkChunksStored request.tenantId session.manifest.chunkRefs
  let committedAtMs ← nowMs
  writeEncryptedJson (.manifests request.tenantId session.manifestCid) {
    tenantId := request.tenantId
    manifest := session.manifest
    manifestCid := session.manifestCid
    objectCid := session.manifestCid
    storageClass := session.storageClass
    committedAtMs }
  commitBind env auth request session

/-- The event about a commit. -/
def commitEvent (atMs : ℕ) : EventRecord where
  version := 1
  seq := 0
  atMs := atMs
  eventType := .objectCommitted
  subjectKind := "object"
  ns := session.atomicBind.map (·.ns)
  path := session.atomicBind.map (·.path)
  cid := some session.manifestCid
  revision := none
  traceId := none
  payload := .ofList [("session_id", request.sessionId), ("manifest_cid", session.manifestCid)]

/-- The part of `put_commit` after its bind. -/
def recordCommit : Svc PutCommitResponse := do
  let atMs ← nowMs
  let eventSeq ← appendEvent request.tenantId (commitEvent request session atMs)
  writeAudit env request.tenantId eventSeq OperationName.putCommit.asStr request.sessionId
  writeEncryptedJson (.sessions request.tenantId request.sessionId)
    { session with committed := true }
  let response : PutCommitResponse :=
    { objectCid := session.manifestCid, committed := true, eventSeq }
  writeEncryptedJson (.idempotency request.tenantId .putCommit request.idempotencyKey) ⟨response⟩
  return response

theorem putCommitApply_eq :
    putCommitApply env auth request session = (do
      prepareCommit env auth request session
      recordCommit env request session) := by
  simp only [putCommitApply, prepareCommit, recordCommit, commitEvent, bind_assoc]

/-- The world after the second half of a commit. -/
def World.commitRecorded (w : World) : World :=
  let seq := w.nextSeq request.tenantId
  let logged := (w.ticked 1).logged request.tenantId
    (commitEvent request session (env.clock w.tick))
  let audited := (logged.ticked 1).set
    (.audit request.tenantId (toString seq ++ "-" ++ cidFromBytes env (utf8 request.sessionId)))
    (some ⟨seq, request.tenantId, OperationName.putCommit.asStr, request.sessionId,
      env.clock (w.tick + 1)⟩)
  (audited.set (.sessions request.tenantId request.sessionId)
      (some { session with committed := true })).set
    (.idempotency request.tenantId .putCommit request.idempotencyKey)
    (some ⟨⟨session.manifestCid, true, seq⟩⟩)

theorem runE_recordCommit (w : World) :
    runE (exec env) (recordCommit env request session) w =
      (.ok ⟨session.manifestCid, true, w.nextSeq request.tenantId⟩,
        w.commitRecorded env request session) := rfl

theorem World.commitRecorded_event (w : World) (t : TenantId) (seq : ℕ) :
    (w.commitRecorded env request session).store (.event t seq) =
      ((w.ticked 1).logged request.tenantId
        (commitEvent request session (env.clock w.tick))).store (.event t seq) := by
  rw [World.commitRecorded, set_store_of_ne _ (by simp), set_store_of_ne _ (by simp),
    set_store_of_ne _ (by simp)]
  rfl

theorem World.commitRecorded_session (w : World) :
    (w.commitRecorded env request session).store (.sessions request.tenantId request.sessionId) =
      some { session with committed := true } := by
  rw [World.commitRecorded, set_store_of_ne _ (by simp), set_store_self]

theorem World.commitRecorded_store (w : World) {l : Loc} (htrace : l.isTrace = false)
    (haudit : ∀ t key, l ≠ .audit t key) (hresponse : l.isResponse = false)
    (hsession : l ≠ .sessions request.tenantId request.sessionId) :
    (w.commitRecorded env request session).store l = w.store l := by
  have hne {l' : Loc} (h : l'.isTrace = true ∨ l'.isResponse = true) : l ≠ l' := by
    rintro rfl
    rcases h with h | h
    · rw [htrace] at h
      cases h
    · rw [hresponse] at h
      cases h
  rw [World.commitRecorded, set_store_of_ne _ (hne (.inr rfl)),
    set_store_of_ne _ hsession, set_store_of_ne _ (haudit _ _), ticked_store,
    World.logged, set_store_of_ne _ (hne (.inl rfl)),
    set_store_of_ne _ (hne (.inl rfl))]
  rfl

variable {env auth request session} {w w' : World}

/-- A bind that succeeds leaves the objects alone: the manifest is only removed after a failure. -/
theorem sameObjects_of_commitBind
    (h : runE (exec env) (commitBind env auth request session) w = (.ok (), w')) :
    SameOn Loc.isObject w w' := by
  unfold commitBind at h
  cases hbind : session.atomicBind with
  | none =>
    rw [hbind] at h
    cases h
    exact fun _ _ => rfl
  | some atomicBind =>
    rw [hbind] at h
    obtain ⟨bound, w₁, hattempt, h⟩ := runE_bind_eq_ok _ h
    rw [runE_attempt] at hattempt
    let bindRequest := atomicBind.toBindRequest request.tenantId session.manifestCid
      request.idempotencyKey
    have haside : Aside Loc.isObject (fun _ => True) (bindInternal env auth bindRequest false) :=
      .bindInternal auth bindRequest false
    have hsame := (haside.run env w).1
    cases hattempt
    cases hbound : (runE (exec env) (bindInternal env auth bindRequest false) w).1 with
    | ok response =>
      rw [hbound] at h
      cases h
      exact hsame
    | error e =>
      rw [hbound] at h
      obtain ⟨_, _, -, h⟩ := runE_bind_eq_ok _ h
      cases h

theorem manifest_of_prepareCommit
    (h : runE (exec env) (prepareCommit env auth request session) w = (.ok (), w')) :
    ∃ record, w'.store (.manifests request.tenantId session.manifestCid) = some record ∧
      record.storageClass = session.storageClass := by
  obtain ⟨_, w₁, -, h⟩ := runE_bind_eq_ok _ h
  obtain ⟨atMs, w₂, -, h⟩ := runE_bind_eq_ok _ h
  obtain ⟨_, w₃, hwrite, h⟩ := runE_bind_eq_ok _ h
  rw [runE_writeEncryptedJson] at hwrite
  cases hwrite
  rw [sameObjects_of_commitBind h _ rfl, set_store_self]
  exact ⟨_, rfl, rfl⟩

/-- **A commit that is carried out makes the mutation its session asks for, and no other.** -/
theorem namespaces_of_commitApply
    (h : runE (exec env) (putCommitApply env auth request session) w = (.ok response, w')) :
    session.atomicBind = none ∧ SameNamespaces w w' ∨
      ∃ m : Mutation env, session.Asks request m ∧ SameNamespaces (w.mutate m) w' := by
  obtain ⟨s, -, hpost, hat, -⟩ := run_of_follows (follows_commitApply env auth request session)
    (w := w) (I := fun _ _ => True) trivial (fun _ _ _ _ _ _ _ _ _ => trivial)
    (always_true _ _ _)
  rw [h] at hpost hat
  rcases hpost with ⟨hnone, rfl⟩ | ⟨m, r, rfl, hasks⟩
  · exact .inl ⟨hnone, hat⟩
  · exact .inr ⟨m, hasks, hat.1⟩

end Commit

/-! ### Whose upload is committed -/

/-- A path has been bound to an object, and nothing else has been bound or unbound. -/
structure BoundTo (w w' : World) (t : TenantId) (ns path cid : String) (metadata : Metadata) :
    Prop where
  bound : ∃ recordCid, w'.binding t ns path =
    some ⟨path, some cid, some cid, w.nextRevision t ns, recordCid, metadata, false⟩
  others : ∀ t' n p, ¬ (t' = t ∧ n = ns ∧ p = path) → w'.binding t' n p = w.binding t' n p

/-- The object of a request is committed with the storage class of the request and bound where the
request asks for it, or nowhere. -/
def PutInitRequest.Delivered (env : Env) (request : PutInitRequest) (w w' : World) : Prop :=
  (∃ record, w'.store (.manifests request.tenantId (request.manifest.manifestCid env)) =
      some record ∧ record.storageClass = request.storageClass) ∧
    match request.atomicBind with
    | none => SameNamespaces w w'
    | some atomicBind => ∃ ns path,
      canonicalNamespaceAndPath atomicBind.ns atomicBind.path = .ok (ns, path) ∧
        BoundTo w w' request.tenantId ns path (request.manifest.manifestCid env)
          atomicBind.metadata

/-- The session has the storage class of the request and asks for the same bind. -/
def UploadSessionRecord.Serves (session : UploadSessionRecord) (request : PutInitRequest) : Prop :=
  session.storageClass = request.storageClass ∧
    match session.atomicBind, request.atomicBind with
    | none, none => True
    | some stored, some asked =>
      canonicalNamespaceAndPath stored.ns stored.path =
          canonicalNamespaceAndPath asked.ns asked.path ∧
        stored.metadata = asked.metadata
    | _, _ => False

/-- In a world that represents histories, bindings carry revisions that have been given. -/
theorem Represents.revision_lt {H : Histories env} {w : World} (h : Represents H w) {n p : String}
    {b : NamespaceBindingState} (hb : w.binding t n p = some b) :
    b.revision < w.nextRevision t n := by
  rw [World.binding, h.current, stateOf_bindings] at hb
  rcases Log.Spec.replay_eq_none_or (L := historySpec env) (H t n) p with hnone | ⟨e, he, -, hval⟩
  · rw [hnone] at hb
    cases hb
  · have hrev : b.revision = e.1 := (h.valid t n).carries_of_mem he (hval.symm.trans hb)
    rw [hrev]
    exact h.below t n e he

section Serves

variable {H : Histories env} {auth : AuthContext} {request : PutCommitRequest}
  {session : UploadSessionRecord} {asked : PutInitRequest} {w w' : World}

/-- What the bind of a commit does. -/
theorem boundTo_of_asks {m : Mutation env} (hasks : session.Asks request m)
    (hmut : SameNamespaces (w.mutate m) w') :
    ∃ stored ns path, session.atomicBind = some stored ∧
      canonicalNamespaceAndPath stored.ns stored.path = .ok (ns, path) ∧
      BoundTo w w' request.tenantId ns path session.manifestCid stored.metadata := by
  obtain ⟨stored, hstored, hcanon, hverify⟩ := hasks
  obtain ⟨-, -, ht, -, -, hkind, htarget, -, hmeta⟩ := verifySignedBindRecord_ok hverify
  refine ⟨stored, m.record.ns, m.record.path, hstored, hcanon, ?_, ?_⟩
  · have ht' : request.tenantId = m.record.tenantId := ht.symm
    have htarget' : m.record.targetCid = some session.manifestCid := htarget
    have hmeta' : m.record.metadata = stored.metadata := hmeta
    rw [hmut.binding, mutate_binding, if_pos ⟨ht', rfl, rfl⟩, Mutation.effect, hkind]
    simp [htarget', hmeta', World.revisionFor, ht']
  · intro t' n p hne
    rw [hmut.binding, mutate_binding, if_neg]
    rintro ⟨rfl, rfl, rfl⟩
    exact hne ⟨ht, rfl, rfl⟩

/-- Two descriptions of what was bound in one step agree. -/
theorem BoundTo.unique (h : Represents H w) {ns path ns' path' cid cid' : String}
    {metadata metadata' : Metadata} (hb : BoundTo w w' t ns path cid metadata)
    (hb' : BoundTo w w' t ns' path' cid' metadata') :
    ns = ns' ∧ path = path' ∧ metadata = metadata' := by
  obtain ⟨recordCid, hbound⟩ := hb.bound
  by_cases hsame : ns = ns' ∧ path = path'
  · obtain ⟨rfl, rfl⟩ := hsame
    obtain ⟨recordCid', hbound'⟩ := hb'.bound
    rw [hbound, Option.some.injEq, NamespaceBindingState.mk.injEq] at hbound'
    exact ⟨rfl, rfl, hbound'.2.2.2.2.2.1⟩
  · -- The other step would have left this path alone, but its revision is new.
    rw [hb'.others t ns path fun hk => hsame ⟨hk.2.1, hk.2.2⟩] at hbound
    exact absurd (h.revision_lt hbound) (lt_irrefl _)

theorem BoundTo.same {w₁ : World} (hw : SameNamespaces w w₁) {ns path cid : String}
    {metadata : Metadata} (h : BoundTo w₁ w' t ns path cid metadata) :
    BoundTo w w' t ns path cid metadata where
  bound := by
    rw [← hw.nextRevision]
    exact h.bound
  others t' n p hne := by
    rw [← hw.binding]
    exact h.others t' n p hne

/-- The manifest of a commit that is carried out has the storage class of its session. -/
theorem manifest_of_commitApply
    (h : runE (exec env) (putCommitApply env auth request session) w = (.ok response, w')) :
    ∃ record, w'.store (.manifests request.tenantId session.manifestCid) = some record ∧
      record.storageClass = session.storageClass := by
  rw [putCommitApply_eq] at h
  obtain ⟨_, w₁, hprepare, hrecord⟩ := runE_bind_eq_ok _ h
  rw [runE_recordCommit] at hrecord
  cases hrecord
  rw [commitRecorded_store env request session w₁ rfl (by simp) rfl (by simp)]
  exact manifest_of_prepareCommit hprepare

/-- **A commit that is carried out delivers what a request asked for if and only if its session
serves the request.** -/
theorem delivered_iff_serves (h : Represents H w) {w₁ : World} (hw : SameOn Loc.isData w w₁)
    (htenant : request.tenantId = asked.tenantId)
    (hcid : session.manifestCid = asked.manifest.manifestCid env)
    (hrun : runE (exec env) (putCommitApply env auth request session) w₁ = (.ok response, w')) :
    asked.Delivered env w w' ↔ session.Serves asked := by
  have hnamespaces : SameNamespaces w w₁ := hw.sameNamespaces
  refine and_congr ?_ ?_
  · obtain ⟨record, hrecord, hclass⟩ := manifest_of_commitApply hrun
    rw [← hcid, ← htenant, hrecord]
    simp [hclass]
  · rcases namespaces_of_commitApply hrun with ⟨hnone, hsame⟩ | ⟨m, hasks, hmut⟩
    · have hkept : SameNamespaces w w' := SameOn.trans hnamespaces hsame
      rw [hnone]
      cases hasked : asked.atomicBind with
      | none => exact iff_of_true hkept trivial
      | some atomicBind =>
        refine iff_of_false ?_ id
        rintro ⟨ns, path, -, hbound, -⟩
        obtain ⟨recordCid, hbound⟩ := hbound
        rw [hkept.binding] at hbound
        exact absurd (h.revision_lt hbound) (lt_irrefl _)
    · obtain ⟨stored, ns, path, hstored, hcanon, hbound⟩ := boundTo_of_asks hasks hmut
      have hbound := hbound.same hnamespaces
      rw [htenant, hcid] at hbound
      rw [hstored]
      cases hasked : asked.atomicBind with
      | none =>
        refine iff_of_false (fun hsame => ?_) id
        obtain ⟨recordCid, hb⟩ := hbound.bound
        rw [SameNamespaces.binding hsame] at hb
        exact absurd (h.revision_lt hb) (lt_irrefl _)
      | some atomicBind =>
        constructor
        · rintro ⟨ns', path', hcanon', hbound'⟩
          obtain ⟨rfl, rfl, hmeta⟩ := hbound.unique h hbound'
          exact ⟨hcanon.trans hcanon'.symm, hmeta⟩
        · rintro ⟨hcanon', hmeta⟩
          exact ⟨ns, path, hcanon'.symm.trans hcanon, hmeta ▸ hbound⟩

end Serves

/-- **Whose upload a commit commits.**  A request has been given a session, and later a commit for
that session is carried out and succeeds.  It delivers what the request asked for if and only if the
session still serves the request. -/
theorem commit_delivers_iff (env : Env) (before between : List Call) {initAuth auth : AuthContext}
    {asked : PutInitRequest} {opened : PutInitResponse} {request : PutCommitRequest} {reply : Reply}
    {w₀ w : World} (hinit : (Call.putInit initAuth asked).perform env
      (runCalls env before World.empty) = (.ok (.putInit opened), w₀))
    (hw : w = runCalls env between w₀) (htenant : request.tenantId = asked.tenantId)
    (hsession : request.sessionId = opened.sessionId)
    (hcid : request.manifestCid = asked.manifest.manifestCid env)
    (hfresh : ¬ AnsweredFromStore env auth request w)
    (hok : ((Call.putCommit auth request).perform env w).1 = .ok reply) :
    asked.Delivered env w ((Call.putCommit auth request).perform env w).2 ↔
      ∃ session, w.store (.sessions asked.tenantId opened.sessionId) = some session ∧
        session.Serves asked := by
  have hreached : w =
      runCalls env (before ++ Call.putInit initAuth asked :: between) World.empty := by
    rw [runCalls_append, runCalls_cons, hinit, hw]
  obtain ⟨H, hH⟩ := exists_represents env (before ++ Call.putInit initAuth asked :: between)
  rw [← hreached] at hH
  obtain ⟨response, w', hrun⟩ := runE_map_eq_ok _ hok
  obtain ⟨session, w₁, hstored, hmanifest, hdata, -, hcarried⟩ := parts_of_putCommit hrun
  have hafter : ((Call.putCommit auth request).perform env w).2 = w' := by
    rw [Call.perform, Call.handle, runE_map, hrun]
  rw [hafter, delivered_iff_serves hH hdata htenant (hmanifest.trans hcid) (hcarried hfresh)]
  rw [htenant, hsession] at hstored
  simp [hstored]

namespace Sample

/-- The object is announced for the path `p`. -/
def announced : PutInitRequest :=
  ⟨tenant, manifest, "1", ⟨""⟩, ⟨""⟩, .split, "", some (atomicBind 0)⟩

/-- Another client announces the same object for the path `q`. -/
def announcedElsewhere : Call :=
  putInit "2" manifest (some { atomicBind 1 with path := "q" })

/-- The commit of the first client binds the path of the second. -/
theorem commit_binds_elsewhere :
    let w := runCalls (Sample.env [bindRecord, otherRecord])
      [.putInit (auth "1") announced, announcedElsewhere, putChunk "3" manifest] World.empty
    let after := (putCommit "4" manifest).perform (Sample.env [bindRecord, otherRecord]) w
    after.1.isOk ∧ after.2.binding tenant "n" "p" = none ∧
      (after.2.binding tenant "n" "q").map (·.targetCid) = some (some manifestCid) := by
  decide +kernel

/-- The world after the object was announced. -/
def opened : World :=
  ((Call.putInit (auth "1") announced).perform (Sample.env [bindRecord]) World.empty).2

/-- The world before the commit. -/
def uploaded : World := runCalls (Sample.env [bindRecord]) [putChunk "2" manifest] opened

/-- The answer to the announcement. -/
def openedResponse : PutInitResponse :=
  ⟨"session-" ++ manifestCid, [0], manifestCid, 900000, defaultLimits.maxParallelChunkStreams⟩

/-- The session of the upload. -/
def openedSession : UploadSessionRecord :=
  ⟨"session-" ++ manifestCid, tenant, manifest, manifestCid, "1", "", some (atomicBind 0), [0],
    false, 0, 900000⟩

/-- The commit of a client that is alone delivers what the client announced. -/
theorem commit_delivers_alone :
    announced.Delivered (Sample.env [bindRecord]) uploaded
      ((putCommit "3" manifest).perform (Sample.env [bindRecord]) uploaded).2 := by
  -- Evaluated together, because the runs share their first calls.
  have ⟨hreply, hstored, hsession, hok⟩ :
      ((Call.putInit (auth "1") announced).perform (Sample.env [bindRecord])
        World.empty).1 = .ok (.putInit openedResponse) ∧
      (uploaded.store (.idempotency tenant .putCommit "3")).isSome = false ∧
      uploaded.store (.sessions announced.tenantId openedResponse.sessionId) =
        some openedSession ∧
      (((putCommit "3" manifest).perform (Sample.env [bindRecord])
        uploaded).1.toOption).isSome := by
    decide +kernel
  have hinit : (Call.putInit (auth "1") announced).perform (Sample.env [bindRecord])
      (runCalls (Sample.env [bindRecord]) [] World.empty) =
        (.ok (.putInit openedResponse), opened) := Prod.ext hreply rfl
  have hfresh : ¬ AnsweredFromStore (Sample.env [bindRecord]) (auth "3")
      ⟨tenant, "session-" ++ manifestCid, manifestCid, "3"⟩ uploaded :=
    not_answeredFromStore hstored rfl rfl
  obtain ⟨reply, hcommit⟩ := Option.isSome_iff_exists.1 hok
  refine (commit_delivers_iff (Sample.env [bindRecord]) [] [putChunk "2" manifest]
    hinit ?_ ?_ ?_ ?_ hfresh (except_ok_of_toOption hcommit)).2 ?_
  · rw [uploaded]
  · rfl
  · rfl
  · rfl
  · exact ⟨openedSession, hsession, rfl, rfl, rfl⟩

end Sample

end Hsp
