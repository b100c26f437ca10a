import Hsp.Service.Handled
import Mathlib.Data.Set.Insert

/-!
# What the store holds of uploads

A store is *consistent* when every chunk is kept under the identifier of its bytes, every session
knows the identifier of its manifest, and every manifest is kept under its own identifier and has
all its chunks in the store.  Nothing checks these facts when an object is read; they hold because
of what the calls check before they write.

`uploadProtocol` is the protocol of these writes.  Its stages are the entries a call knows to be in
the store, so that `PUT_COMMIT` may write a manifest once it has seen its chunks.

* `consistent_run` : every run of the service leaves the store consistent.
* `manifest_of_putCommit` : a successful commit leaves its manifest in the store, unless it was
  answered from a stored response and the manifest had been removed.
-/

namespace Hsp

open Protocol World Option

variable {env : Env} {w w' : World} {l : Loc} {known : Set Loc} {α : Type} {t : TenantId}
  {auth : AuthContext} {request : PutCommitRequest} {response : PutCommitResponse}

/-- Chunks, sessions and manifests are what their keys say, and manifests have their chunks. -/
structure Consistent (env : Env) (w : World) : Prop where
  chunk : ∀ t cid bytes, w.store (.chunks t cid) = some bytes → cidFromBytes env bytes = cid
  session : ∀ t id session, w.store (.sessions t id) = some session →
    session.manifestCid = session.manifest.manifestCid env
  manifest : ∀ t cid record, w.store (.manifests t cid) = some record →
    record.manifest.manifestCid env = cid
  present : ∀ t cid record, w.store (.manifests t cid) = some record →
    ∀ ref ∈ record.manifest.chunkRefs, (w.store (.chunks t ref.cid)).isSome

theorem Consistent.empty : Consistent env World.empty where
  chunk _ _ _ h := by cases h
  session _ _ _ h := by cases h
  manifest _ _ _ h := by cases h
  present _ _ _ h := by cases h

theorem Consistent.same (h : Consistent env w) (hs : SameOn Loc.isObject w w') :
    Consistent env w' where
  chunk t cid bytes hb := h.chunk t cid bytes ((hs _ rfl).symm.trans hb)
  session t id session hr := h.session t id session ((hs _ rfl).symm.trans hr)
  manifest t cid record hr := h.manifest t cid record ((hs _ rfl).symm.trans hr)
  present t cid record hr ref href := by
    rw [hs (.chunks t ref.cid) rfl]
    exact h.present t cid record ((hs _ rfl).symm.trans hr) ref href

/-! ### The protocol of uploads -/

namespace Op

/-- A write of an upload is correct, given the entries that are known to be in the store. -/
def Sound (env : Env) (known : Set Loc) : Op → Prop
  | .write (.chunks _ cid) bytes => cidFromBytes env bytes = cid
  | .write (.sessions _ _) session => session.manifestCid = session.manifest.manifestCid env
  | .write (.manifests t cid) record => record.manifest.manifestCid env = cid ∧
      ∀ ref ∈ record.manifest.chunkRefs, Loc.chunks t ref.cid ∈ known
  | .delete (.manifests _ _) => True
  | o => o.Spares Loc.isObject

/-- After the operation the entry is in the store. -/
def Shows : (o : Op) → Res o → Loc → Prop
  | .write l _, _, l' => l' = l
  | .exists l, r, l' => r = true ∧ l' = l
  | _, _, _ => False

/-- The operation removes the entry. -/
def Removes : Op → Loc → Prop
  | .delete l, l' => l' = l
  | _, _ => False

/-- A session that is read knows the identifier of its manifest. -/
def Honest (env : Env) : (o : Op) → Res o → Prop
  | .read (.sessions _ _), r => ∀ session : UploadSessionRecord, r = .ok (some session) →
      session.manifestCid = session.manifest.manifestCid env
  | _, _ => True

end Op

/-- The protocol of uploads, on a store that does not fail. -/
@[reducible] def uploadProtocol (env : Env) : Protocol storeSig where
  Stage := Set Loc
  Legal o r := ¬ o.Failed r ∧ o.Honest env r
  Step known o r known' := o.Sound env known ∧
    ∀ l ∈ known', l.isObject → l ∈ known ∧ ¬ o.Removes l ∨ o.Shows r l

/-- The store is consistent and has the entries that are known to be in it. -/
structure Holds (env : Env) (known : Set Loc) (w : World) : Prop where
  consistent : Consistent env w
  stored : ∀ l ∈ known, l.isObject → (w.store l).isSome

theorem isSome_of_shows {o : Op} (h : o.Shows (exec env o w).1 l) :
    ((exec env o w).2.store l).isSome := by
  cases o with
  | write l' v => cases h; simp [exec]
  | «exists» l' =>
    obtain ⟨hr, rfl⟩ := h
    exact hr
  | _ => exact h.elim

theorem Holds.write (h : Holds env known w) {v : Val l} (hs : (Op.write l v).Sound env known) :
    Consistent env (w.set l (some v)) := by
  have hc := h.consistent
  -- The entry that is looked up is the one that was written, or it was there before.
  constructor
  · intro t cid bytes hb
    by_cases he : Loc.chunks t cid = l
    · subst he
      rw [set_store_self, some.injEq] at hb
      exact hb ▸ hs
    · rw [set_store_of_ne _ he] at hb
      exact hc.chunk t cid bytes hb
  · intro t id session hr
    by_cases he : Loc.sessions t id = l
    · subst he
      rw [set_store_self, some.injEq] at hr
      exact hr ▸ hs
    · rw [set_store_of_ne _ he] at hr
      exact hc.session t id session hr
  · intro t cid record hr
    by_cases he : Loc.manifests t cid = l
    · subst he
      rw [set_store_self, some.injEq] at hr
      exact hr ▸ hs.1
    · rw [set_store_of_ne _ he] at hr
      exact hc.manifest t cid record hr
  · intro t cid record hr ref href
    by_cases he : Loc.manifests t cid = l
    · subst he
      rw [set_store_self, some.injEq] at hr
      exact isSome_set (h.stored _ (hs.2 ref (hr ▸ href)) rfl) v
    · rw [set_store_of_ne _ he] at hr
      exact isSome_set (hc.present t cid record hr ref href) v

theorem store_of_removed {l' : Loc} {v : Val l'} (h : (w.set l none).store l' = some v) :
    w.store l' = some v := by
  by_cases he : l' = l
  · subst he
    rw [set_store_self] at h
    cases h
  · rwa [set_store_of_ne _ he] at h

theorem Consistent.delete (h : Consistent env w) (t : TenantId) (cid : String) :
    Consistent env (w.set (.manifests t cid) none) where
  chunk t' cid' bytes hb := h.chunk t' cid' bytes (store_of_removed hb)
  session t' id session hr := h.session t' id session (store_of_removed hr)
  manifest t' cid' record hr := h.manifest t' cid' record (store_of_removed hr)
  present t' cid' record hr ref href := by
    rw [set_store_of_ne _ (by simp)]
    exact h.present t' cid' record (store_of_removed hr) ref href

/-- **A step of an upload.** -/
theorem Holds.step {known' : Set Loc} {o : Op} (h : Holds env known w)
    (hst : (uploadProtocol env).Step known o (exec env o w).1 known') :
    Holds env known' (exec env o w).2 := by
  obtain ⟨hs, hknown⟩ := hst
  refine ⟨?_, fun l hl ho => ?_⟩
  · have hsame (ho : o.Spares Loc.isObject) : Consistent env (exec env o w).2 :=
      h.consistent.same (SameOn.exec (fun _ _ => rfl) ho)
    cases o with
    | write l v => exact h.write hs
    | delete l =>
      cases l with
      | manifests t cid => exact h.consistent.delete t cid
      | _ => exact hsame hs
    | _ => exact hsame hs
  · rcases hknown l hl ho with ⟨hl, hr⟩ | hshow
    · exact isSome_exec (h.stored l hl ho) fun he => hr (he ▸ rfl)
    · exact isSome_of_shows hshow

theorem Holds.legal (h : Holds env known w) (o : Op) :
    (uploadProtocol env).Legal o (exec env o w).1 := by
  refine ⟨not_failed_exec env o w, ?_⟩
  unfold Op.Honest
  split
  · rename_i t id
    intro session hr
    exact h.consistent.session t id session (Except.ok.inj hr)
  · trivial

theorem Holds.run {x : Svc α} {Q : α → Set Loc → Prop}
    (hx : (uploadProtocol env).FollowsE x known Q fun _ _ => True) (h : Holds env known w) :
    Consistent env (runE (exec env) x w).2 ∧
      ∀ a, (runE (exec env) x w).1 = .ok a →
        ∃ known', Q a known' ∧ Holds env known' (runE (exec env) x w).2 := by
  obtain ⟨known', hpost, hheld⟩ := FollowsE.run (exec env) (G := fun _ _ => True)
    (I := fun (known : Set Loc) w => Holds env known w) (fun _ o _ h => h.legal o)
    (fun _ _ _ _ h _ hst => h.step hst) hx h (always_true _ _ _)
  refine ⟨hheld.consistent, fun a ha => ⟨known', ?_, hheld⟩⟩
  rw [ha] at hpost
  exact hpost

/-! ### Calls that are not uploads -/

theorem Aside.stays {x : Svc α} (h : Aside Loc.isObject (fun _ => True) x) (known : Set Loc) :
    (uploadProtocol env).FollowsE x known (fun _ s => s = known) fun _ _ => True := by
  refine (FollowsE.simulation (P := asideProtocol Loc.isObject) (T := uploadProtocol env)
    (R := fun _ s => s = known) (fun _ _ hr => hr.1) ?_ h rfl).mono
    (fun _ _ ⟨_, _, hs⟩ => hs) fun _ _ _ => trivial
  rintro _ o r _ _ rfl ho
  refine ⟨_, ⟨?_, fun l hl hobj => .inl ⟨hl, fun hr => ?_⟩⟩, rfl⟩
  · cases o with
    | write l v => cases l <;> first | exact ho | cases ho
    | delete l => cases l <;> first | exact ho | cases ho
    | _ => exact ho
  · cases o with
    | delete l' =>
      obtain rfl : l = l' := hr
      rw [show l.isObject = false from ho] at hobj
      cases hobj
    | _ => exact hr

theorem isData_of_isObject (l : Loc) (h : l.isObject) : l.isData := by
  cases l <;> first | rfl | cases h

theorem Aside.apart {E : ApiError → Prop} {x : Svc α} (h : Aside Loc.isData E x) :
    Aside Loc.isObject (fun _ => True) x :=
  h.weaken isData_of_isObject fun _ _ => trivial

theorem Inquiry.apart (env : Env) {x : Svc α} (h : Inquiry env (fun _ => True) x) :
    Aside Loc.isObject (fun _ => True) x :=
  (h.aside env).apart

section Mutations

variable (auth : AuthContext)

theorem Handled.apart {auth : AuthContext} {x : Svc α}
    (h : Handled env auth t (fun _ => True) (fun l => l.isObject = false) x) :
    Aside Loc.isObject (fun _ => True) x :=
  h.aside (fun l _ hl => by cases l <;> first | rfl | cases hl) fun _ hl => hl

theorem isObject_of_mutationWrites (h : Handled.mutationWrites t l) : l.isObject = false := by
  cases l <;> first | rfl | exact h.elim

theorem Aside.bindInternal (request : BindRequest) (persist : Bool) :
    Aside Loc.isObject (fun _ => True) (bindInternal env auth request persist) :=
  (Handled.bindInternal env auth request persist trivial (fun _ => isObject_of_mutationWrites)
    fun _ => rfl).apart

theorem Aside.unbindInternal (request : UnbindRequest) (persist : Bool) :
    Aside Loc.isObject (fun _ => True) (unbindInternal env auth request persist) :=
  (Handled.unbindInternal env auth request persist trivial trivial
    (fun _ => isObject_of_mutationWrites) fun _ => rfl).apart

end Mutations

/-! ### Uploads -/

section Uploads

variable {known : Set Loc} {α β : Type} {Q : β → Set Loc → Prop}

/-- A part of an upload that leaves uploads alone. -/
theorem Aside.andThen {x : Svc α} {f : α → Svc β} (hx : Aside Loc.isObject (fun _ => True) x)
    (hf : ∀ a, (uploadProtocol env).FollowsE (f a) known Q fun _ _ => True) :
    (uploadProtocol env).FollowsE (x >>= f) known Q fun _ _ => True :=
  (hx.stays known).andThen (by rintro a _ rfl; exact hf a)

theorem Inquiry.andThen {x : Svc α} {f : α → Svc β} (hx : Inquiry env (fun _ => True) x)
    (hf : ∀ a, (uploadProtocol env).FollowsE (f a) known Q fun _ _ => True) :
    (uploadProtocol env).FollowsE (x >>= f) known Q fun _ _ => True :=
  (hx.apart env).andThen hf

theorem follows_write {v : Val l} (hs : (Op.write l v).Sound env known) :
    (uploadProtocol env).FollowsE (writeEncryptedJson l v) known (fun _ s => s = insert l known)
      fun _ _ => True := by
  refine .perform fun r hr => ?_
  cases r with
  | error e => exact absurd rfl hr.1
  | ok _ =>
    refine ⟨insert l known, ⟨hs, fun l' hl' _ => ?_⟩, rfl⟩
    rcases hl' with rfl | hl'
    · exact .inr rfl
    · exact .inl ⟨hl', id⟩

/-- A session that was read knows the identifier of its manifest. -/
theorem follows_uploadSession (t : TenantId) (sessionId : String) :
    (uploadProtocol env).FollowsE (uploadSession t sessionId) known
      (fun session s => s = known ∧ session.manifestCid = session.manifest.manifestCid env)
      fun _ _ => True := by
  refine .bind (.perform fun r hr => ?_)
  refine ⟨known, ⟨trivial, fun l hl _ => .inl ⟨hl, id⟩⟩, ?_⟩
  rcases r with e | _ | session
  · trivial
  · trivial
  · exact ⟨rfl, hr.2 session rfl⟩

theorem follows_putInit (auth : AuthContext) (request : PutInitRequest) :
    (uploadProtocol env).FollowsE (putInit env auth request) known (fun _ _ => True)
      fun _ _ => True := by
  refine Inquiry.andThen (.ofExcept fun _ _ => trivial) fun _ =>
    Inquiry.andThen (.authorize auth _ fun _ _ => trivial) fun _ =>
    Inquiry.andThen ((Inquiry.reading auth).storedResponse _ _ _ _) fun stored => ?_
  cases stored with
  | some stored => trivial
  | none =>
    refine Inquiry.andThen ((Inquiry.reading auth).missingChunks _) fun _ =>
      Inquiry.andThen .nowMs fun _ =>
      Inquiry.andThen .nowMs fun _ => FollowsE.andThen (follows_write ?_) ?_
    · exact rfl
    · exact fun _ _ _ => Aside.andThen (.writeEncryptedJson rfl _) fun _ => trivial

theorem follows_putChunk (auth : AuthContext) (request : PutChunkRequest) (chunk : List UInt8) :
    (uploadProtocol env).FollowsE (putChunk env auth request chunk) known (fun _ _ => True)
      fun _ _ => True := by
  unfold putChunk rejectIf
  split
  · trivial
  · rename_i hcid
    refine .bind (.pure ?_)
    refine (follows_uploadSession _ _).andThen ?_
    rintro session _ ⟨rfl, hsession⟩
    refine Inquiry.andThen (.ofExcept fun _ _ => trivial) fun _ =>
      Inquiry.andThen (.authorize auth _ fun _ _ => trivial) fun _ =>
      Inquiry.andThen (.storeExists _) fun duplicate => FollowsE.bind (FollowsE.mono
        (Q := fun _ _ => True) ?_ (fun _ _ _ => ?_) fun _ _ h => h)
    · cases duplicate with
      | true => trivial
      | false =>
        refine .mono (follows_write ?_) (fun _ _ _ => trivial) fun _ _ h => h
        exact not_not.1 hcid
    · refine .bind (.mono (follows_write ?_) (fun _ _ _ => trivial) fun _ _ h => h)
      exact hsession

/-- The chunks that were looked up are known to be in the store. -/
theorem follows_checkChunksStored (t : TenantId) (refs : List ChunkRef) :
    (uploadProtocol env).FollowsE (checkChunksStored t refs) known
      (fun _ s => known ⊆ s ∧ ∀ ref ∈ refs, Loc.chunks t ref.cid ∈ s) fun _ _ => True := by
  induction refs generalizing known with
  | nil => exact ⟨subset_rfl, by simp⟩
  | cons ref refs ih =>
    refine .bind (.lift (.perform fun present _ => ?_))
    cases present with
    | false =>
      refine ⟨known, ⟨trivial, fun l hl _ => .inl ⟨hl, id⟩⟩, ?_⟩
      trivial
    | true =>
      refine ⟨insert (.chunks t ref.cid) known, ⟨trivial, fun l hl _ => ?_⟩, ?_⟩
      · rcases hl with rfl | hl
        · exact .inr ⟨rfl, rfl⟩
        · exact .inl ⟨hl, id⟩
      · refine .bind (.pure (ih.weaken ?_))
        rintro _ s ⟨hsub, hrefs⟩
        refine ⟨(Set.subset_insert _ _).trans hsub, ?_⟩
        rintro ref' href'
        rcases List.mem_cons.1 href' with rfl | href'
        · exact hsub (Set.mem_insert _ _)
        · exact hrefs ref' href'

/-- The bind of a commit removes the manifest only when it fails. -/
theorem follows_commitUpload (auth : AuthContext) (request : PutCommitRequest)
    (session : UploadSessionRecord) :
    (uploadProtocol env).FollowsE (commitBind env auth request session) known
      (fun _ s => s = known) fun _ _ => True := by
  unfold commitBind
  cases session.atomicBind with
  | none => exact rfl
  | some atomicBind =>
    refine Aside.andThen (.attempt (.bindInternal auth _ _)) fun bound => ?_
    cases bound with
    | ok _ => exact rfl
    | error e =>
      refine .bind (.attempt (.perform fun r _ => ?_))
      refine ⟨∅, ⟨trivial, fun _ h => h.elim⟩, ?_⟩
      cases r <;> trivial

/-- A commit writes its manifest after it has seen the chunks. -/
theorem follows_putCommitApply (auth : AuthContext) (request : PutCommitRequest)
    {session : UploadSessionRecord}
    (h : session.manifestCid = session.manifest.manifestCid env) :
    (uploadProtocol env).FollowsE (putCommitApply env auth request session) known
      (fun _ s => Loc.manifests request.tenantId session.manifestCid ∈ s) fun _ _ => True := by
  refine (follows_checkChunksStored _ _).andThen ?_
  rintro _ s ⟨-, hrefs⟩
  refine Inquiry.andThen .nowMs fun _ => FollowsE.andThen (follows_write ?_) ?_
  · exact ⟨h.symm, hrefs⟩
  · rintro _ _ rfl
    refine (follows_commitUpload auth request session).andThen ?_
    rintro _ _ rfl
    refine Inquiry.andThen .nowMs fun _ =>
      Aside.andThen (.appendEvent rfl (fun _ => rfl) _) fun _ =>
      Aside.andThen (.bind .nowMs fun _ => .writeEncryptedJson rfl _) fun _ =>
      FollowsE.andThen (follows_write ?_) ?_
    · exact h
    · rintro _ _ rfl
      exact Aside.andThen (.writeEncryptedJson rfl _) fun _ => .inr (.inl rfl)

theorem follows_putCommit (auth : AuthContext) (request : PutCommitRequest) :
    (uploadProtocol env).FollowsE (putCommit env auth request) known (fun _ _ => True)
      fun _ _ => True := by
  refine (follows_uploadSession _ _).andThen ?_
  rintro session _ ⟨rfl, hsession⟩
  refine Inquiry.andThen ((Inquiry.reading auth (t := request.tenantId)).rejectIf _ _) fun _ =>
    Inquiry.andThen (.authorize auth _ fun _ _ => trivial) fun _ =>
    Inquiry.andThen ((Inquiry.reading auth).storedResponse _ _ _ _) fun stored => ?_
  cases stored with
  | some stored => trivial
  | none =>
    exact (follows_putCommitApply auth request hsession).mono (fun _ _ _ => trivial) fun _ _ h => h

end Uploads

/-! ### Runs -/

/-- **Every call follows the protocol of uploads.** -/
theorem follows_uploads (env : Env) (c : Call) :
    (uploadProtocol env).FollowsE (c.handle env) ∅ (fun _ _ => True) fun _ _ => True := by
  have apart : ∀ {x : Svc Reply}, Aside Loc.isObject (fun _ => True) x →
      (uploadProtocol env).FollowsE x ∅ (fun _ _ => True) fun _ _ => True :=
    fun hx => (hx.stays ∅).mono (fun _ _ _ => trivial) fun _ _ h => h
  cases c with
  | putInit auth request => exact .map (follows_putInit auth request)
  | putChunk auth request chunk => exact .map (follows_putChunk auth request chunk)
  | putCommit auth request => exact .map (follows_putCommit auth request)
  | bind auth request => exact apart (.bind (.bindInternal auth request true) fun _ => .pure _)
  | unbind auth request => exact apart (.bind (.unbindInternal auth request true) fun _ => .pure _)
  | _ => exact apart (Inquiry.apart env ((Inquiry.reading _).call (by trivial)))

theorem Consistent.perform (h : Consistent env w) (c : Call) : Consistent env (c.perform env w).2 :=
  (Holds.run (follows_uploads env c) ⟨h, fun _ hl => hl.elim⟩).1

/-- **Every run leaves the store consistent.** -/
theorem consistent_run (env : Env) (calls : List Call) :
    Consistent env (runCalls env calls World.empty) := by
  induction calls using List.reverseRecOn with
  | nil => exact .empty
  | append_singleton calls c ih =>
    rw [runCalls_append]
    exact ih.perform c

theorem runE_storedResponse (t : TenantId) (op : IdempotentOp) (key : String) (persist : Bool)
    (decision : AuthorizationDecision) (w : World) :
    runE (exec env) (storedResponse t op key persist decision) w =
      (.ok (if persist ∧ decision.replayStatus = .idempotentRetry then
        w.store (.idempotency t op key) else none), w) := by
  unfold storedResponse
  split
  · rfl
  · rfl

/-- A commit is a retry and has a stored response, so that it is answered without being carried
out. -/
def AnsweredFromStore (env : Env) (auth : AuthContext) (request : PutCommitRequest) (w : World) :
    Prop :=
  ∃ session, w.store (.sessions request.tenantId request.sessionId) = some session ∧
    (Prog.runE (exec env) (authorize env auth (commitMeta request session)) w).1 =
      .ok ⟨.idempotentRetry⟩ ∧
    (w.store (.idempotency request.tenantId .putCommit request.idempotencyKey)).isSome

theorem not_answeredFromStore {key : String}
    (h : (w.store (.idempotency t .putCommit key)).isSome = false) (ht : request.tenantId = t)
    (hkey : request.idempotencyKey = key) : ¬ AnsweredFromStore env auth request w := by
  subst ht hkey
  rintro ⟨-, -, -, hstored⟩
  rw [h] at hstored
  cases hstored

/-- What a successful commit went through: it was authorized, and then it was answered from the
store or carried out. -/
theorem parts_of_putCommit
    (hok : runE (exec env) (putCommit env auth request) w = (.ok response, w')) :
    ∃ session w₁, w.store (.sessions request.tenantId request.sessionId) = some session ∧
      session.manifestCid = request.manifestCid ∧ SameOn Loc.isData w w₁ ∧
      (AnsweredFromStore env auth request w → w' = w₁) ∧
      (¬ AnsweredFromStore env auth request w →
        runE (exec env) (putCommitApply env auth request session) w₁ =
          (.ok response, w')) := by
  cases hsession : w.store (.sessions request.tenantId request.sessionId) with
  | none =>
    rw [putCommit, runE_bind_error _ (runE_uploadSession_none hsession)] at hok
    cases hok
  | some session =>
    rw [putCommit, runE_bind_ok _ (runE_uploadSession_some hsession)] at hok
    obtain ⟨_, w₀, hreject, hrest⟩ := runE_bind_eq_ok _ hok
    obtain ⟨decision, w₁, hauth, happly⟩ := runE_bind_eq_ok _ hrest
    rw [runE_rejectIf] at hreject
    obtain rfl : w = w₀ := congrArg Prod.snd hreject
    have hcid : session.manifestCid = request.manifestCid := by
      by_contra hne
      rw [if_pos hne] at hreject
      cases hreject
    have hsame := sameOn_of_authorize hauth
    rw [runE_bind_ok _ (runE_storedResponse _ _ _ _ _ _), hsame (.idempotency _ _ _) rfl]
      at happly
    refine ⟨session, w₁, rfl, hcid, hsame, fun hanswered => ?_, fun hno => ?_⟩
    · obtain ⟨session', hsession', hretry, hstored⟩ := hanswered
      obtain rfl := some.inj (hsession.symm.trans hsession')
      obtain rfl : decision = ⟨.idempotentRetry⟩ := by
        rw [hauth] at hretry
        exact Except.ok.inj hretry
      obtain ⟨record, hrecord⟩ := isSome_iff_exists.1 hstored
      rw [hrecord] at happly
      exact (congrArg Prod.snd happly).symm
    · -- Not answered from the store: the token is fresh, or nothing is stored.
      have hnone : (if true ∧ decision.replayStatus = .idempotentRetry then
          w.store (.idempotency request.tenantId .putCommit request.idempotencyKey)
          else none) = none := by
        split
        · rename_i hretry
          obtain ⟨status⟩ := decision
          obtain rfl : status = .idempotentRetry := hretry.2
          by_contra hne
          exact hno ⟨session, hsession, congrArg Prod.fst hauth, isSome_iff_ne_none.2 hne⟩
        · rfl
      rw [hnone] at happly
      exact happly

/-- **What a successful commit leaves of its manifest**: it is in the store, unless the commit was
answered from a stored response and the manifest was not there. -/
theorem manifest_of_putCommit (h : Consistent env w)
    (hok : runE (exec env) (putCommit env auth request) w = (.ok response, w')) :
    (w'.store (.manifests request.tenantId request.manifestCid)).isSome ↔
      (AnsweredFromStore env auth request w →
        (w.store (.manifests request.tenantId request.manifestCid)).isSome) := by
  obtain ⟨session, w₁, hsession, hcid, hsame, hstored, hcarried⟩ := parts_of_putCommit hok
  by_cases hanswered : AnsweredFromStore env auth request w
  · rw [hstored hanswered, hsame (.manifests _ _) rfl]
    exact ⟨fun hm _ => hm, fun hm => hm hanswered⟩
  · refine iff_of_true ?_ fun ha => absurd ha hanswered
    have hw₁ : Holds env ∅ w₁ :=
      ⟨h.same fun l hl => hsame l (isData_of_isObject l hl), fun _ h => h.elim⟩
    obtain ⟨known, hknown, hheld⟩ := (Holds.run
      (follows_putCommitApply auth request (h.session _ _ session hsession)) hw₁).2 response
      (congrArg Prod.fst (hcarried hanswered))
    rw [hcid] at hknown
    have hmanifest := hheld.stored _ hknown rfl
    rwa [congrArg Prod.snd (hcarried hanswered)] at hmanifest

end Hsp
