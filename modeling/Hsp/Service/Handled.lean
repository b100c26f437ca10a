import Hsp.Service.Decision
import Hsp.Service.StoreKey

/-!
# What requests are made of

A request names a tenant and carries the caller's authorization.  It is made of reads, of
authorizations on behalf of the caller, and of writes to entries of that tenant, none of them a
replay record: those are written by authorization alone.  `Handled env auth t x` says so of a
program.  What is true of these parts and kept by sequencing is then true of every request, by
induction.

* `Call.handled_of_touches` : every request is made in this way;
* `Handled.aside` : a request leaves the entries of other tenants alone;
* `Handled.remembers` : no request forgets a replay record or a stored response.
-/

namespace Hsp

/-- The entry holds a replay record. -/
def Loc.isReplay : Loc → Bool
  | .replay _ _ => true
  | _ => false

/-- The entry holds a replay record or belongs to an event log: it is written by authorization and
by events only. -/
def Loc.isTrace : Loc → Bool
  | .replay _ _ | .eventSequence _ | .event _ _ => true
  | _ => false

theorem isReplay_of_isTrace {l : Loc} (h : l.isTrace = false) : l.isReplay = false := by
  cases l <;> first | rfl | cases h

/-- Programs made of reads, authorizations of one caller for one tenant, events of some types, and
writes to some entries. -/
inductive Handled (env : Env) (auth : AuthContext) (t : TenantId) (E : EventType → Prop)
    (W : Loc → Prop) : {α : Type} → Svc α → Prop
  | pure {α : Type} (a : α) : Handled env auth t E W (pure a : Svc α)
  | throw {α : Type} (e : ApiError) : Handled env auth t E W (throw e : Svc α)
  | bind {α β : Type} {x : Svc α} {f : α → Svc β} (hx : Handled env auth t E W x)
      (hf : ∀ a, Handled env auth t E W (f a)) : Handled env auth t E W (x >>= f)
  | attempt {α : Type} {x : Svc α} (hx : Handled env auth t E W x) :
      Handled env auth t E W (Prog.attempt x)
  | nowMs : Handled env auth t E W nowMs
  | storeExists (l : Loc) : Handled env auth t E W (storeExists l)
  | readEncryptedJson (l : Loc) : Handled env auth t E W (readEncryptedJson l)
  | writeEncryptedJson {l : Loc} {v : Val l} (hl : W l) :
      Handled env auth t E W (writeEncryptedJson l v)
  /-- Only manifests are ever removed. -/
  | deleteManifest {cid : String} (hl : W (.manifests t cid)) :
      Handled env auth t E W (deleteStoreKey (.manifests t cid))
  | appendEvent {e : EventRecord} (he : E e.eventType) : Handled env auth t E W (appendEvent t e)
  | authorize {req : AuthRequestMeta} (h : req.tenantId = t) :
      Handled env auth t E W (authorize env auth req)

namespace Handled

variable {env : Env} {auth : AuthContext} {t : TenantId} {E : EventType → Prop} {W : Loc → Prop}
  {α β : Type} {request : PutCommitRequest} {record : NamespaceMutationRecord}
  {session : UploadSessionRecord}

theorem reading : Reading env auth t (Handled env auth t E W) :=
  ⟨.pure, .throw, .bind, .nowMs, .storeExists, .readEncryptedJson, .authorize⟩

theorem map (f : α → β) {x : Svc α} (h : Handled env auth t E W x) :
    Handled env auth t E W (f <$> x) :=
  reading.map f h

theorem ofExcept (x : Except ApiError α) : Handled env auth t E W (Hsp.ofExcept x) :=
  reading.ofExcept x

theorem ite {c : Prop} [Decidable c] {x y : Svc α} (hx : Handled env auth t E W x)
    (hy : Handled env auth t E W y) : Handled env auth t E W (if c then x else y) := by
  split
  · exact hx
  · exact hy

theorem rejectIf (c : Prop) [Decidable c] (e : ApiError) :
    Handled env auth t E W (Hsp.rejectIf c e) :=
  reading.rejectIf c e

/-! ### Requests that write -/

section Mutations

/-- What a bind or an unbind writes beside its response. -/
def mutationWrites (t : TenantId) : Loc → Prop
  | .namespaceCurrent t' _ | .namespaceJournal t' _ | .namespaceRevisions t' _ | .audit t' _ =>
    t' = t
  | _ => False

variable (hW : ∀ l, mutationWrites t l → W l)

include hW

theorem appendNamespaceJournal (ns : String) (entry : NamespaceJournalEntry) :
    Handled env auth t E W (appendNamespaceJournal t ns entry) :=
  .bind (.bind (.readEncryptedJson _) fun _ => .pure _) fun _ => .writeEncryptedJson (hW _ rfl)

theorem nextNamespaceRevision (ns : String) : Handled env auth t E W (nextNamespaceRevision t ns) :=
  .bind (.readEncryptedJson _) fun _ => .bind (.writeEncryptedJson (hW _ rfl)) fun _ => .pure _

theorem writeAudit (seq : ℕ) (operation subject : String) :
    Handled env auth t E W (writeAudit env t seq operation subject) :=
  .bind .nowMs fun _ => .writeEncryptedJson (hW _ rfl)

end Mutations

variable (env auth)

theorem bindApply {request : BindRequest} {ns path : String}
    {persist : Bool} (hE : E .namespaceBound) (hW : ∀ l, mutationWrites request.tenantId l → W l)
    (hkept : persist → W (.idempotency request.tenantId .bind request.idempotencyKey)) :
    Handled env auth request.tenantId E W (bindApply env request ns path record persist) := by
  refine .bind (.rejectIf _ _) fun _ => .bind (reading.manifestRecord _) fun _ =>
    .bind (reading.namespaceCurrentState _) fun _ => .bind (.ofExcept _) fun _ =>
    .bind (.nextNamespaceRevision hW _) fun _ => .bind (.writeEncryptedJson (hW _ rfl)) fun _ =>
    .bind (.appendNamespaceJournal hW _ _) fun _ => .bind .nowMs fun _ =>
    .bind (.appendEvent hE) fun _ => .bind (.writeAudit hW _ _ _) fun _ => ?_
  cases persist with
  | true => exact .bind (.writeEncryptedJson (hkept rfl)) fun _ => .pure _
  | false => exact .pure _

theorem bindInternal (request : BindRequest) (persist : Bool) (hE : E .namespaceBound)
    (hW : ∀ l, mutationWrites request.tenantId l → W l)
    (hkept : persist → W (.idempotency request.tenantId .bind request.idempotencyKey)) :
    Handled env auth request.tenantId E W (bindInternal env auth request persist) := by
  refine .bind (.ofExcept _) fun _ => .bind (.ofExcept _) fun _ => .bind (.authorize rfl) fun _ =>
    .bind (reading.storedResponse _ _ _ _) fun stored => ?_
  cases stored with
  | some stored => exact .pure _
  | none => exact .bindApply env auth hE hW hkept

theorem unbindApply {request : UnbindRequest} {ns path : String}
    {persist : Bool} (hE : E .namespaceTombstoned)
    (hE' : E .namespaceUnbound) (hW : ∀ l, mutationWrites request.tenantId l → W l)
    (hkept : persist → W (.idempotency request.tenantId .unbind request.idempotencyKey)) :
    Handled env auth request.tenantId E W (unbindApply env request ns path record persist) := by
  have hevent (tombstone : Bool) :
      E (if tombstone then .namespaceTombstoned else .namespaceUnbound) := by
    cases tombstone
    · exact hE'
    · exact hE
  refine .bind (reading.namespaceCurrentState _) fun _ => .bind (.ofExcept _) fun _ =>
    .bind (.nextNamespaceRevision hW _) fun _ => .bind (.writeEncryptedJson (hW _ rfl)) fun _ =>
    .bind (.appendNamespaceJournal hW _ _) fun _ => .bind .nowMs fun _ =>
    .bind (.appendEvent (hevent _)) fun _ => .bind (.writeAudit hW _ _ _) fun _ => ?_
  cases persist with
  | true => exact .bind (.writeEncryptedJson (hkept rfl)) fun _ => .pure _
  | false => exact .pure _

theorem unbindInternal (request : UnbindRequest) (persist : Bool) (hE : E .namespaceTombstoned)
    (hE' : E .namespaceUnbound) (hW : ∀ l, mutationWrites request.tenantId l → W l)
    (hkept : persist → W (.idempotency request.tenantId .unbind request.idempotencyKey)) :
    Handled env auth request.tenantId E W (unbindInternal env auth request persist) := by
  refine .bind (.ofExcept _) fun _ => .bind (.ofExcept _) fun _ => .bind (.rejectIf _ _) fun _ =>
    .bind (.authorize rfl) fun _ => .bind (reading.storedResponse _ _ _ _) fun stored => ?_
  cases stored with
  | some stored => exact .pure _
  | none => exact .unbindApply env auth hE hE' hW hkept

theorem putInitApply {request : PutInitRequest}
    (hsession : ∀ id, W (.sessions request.tenantId id))
    (hkept : W (.idempotency request.tenantId .putInit request.idempotencyKey)) :
    Handled env auth request.tenantId E W (putInitApply env request) :=
  .bind (reading.missingChunks _) fun _ => .bind .nowMs fun _ => .bind .nowMs fun _ =>
    .bind (.writeEncryptedJson (hsession _)) fun _ => .bind (.writeEncryptedJson hkept) fun _ =>
    .pure _

theorem putInit {request : PutInitRequest} (hsession : ∀ id, W (.sessions request.tenantId id))
    (hkept : W (.idempotency request.tenantId .putInit request.idempotencyKey)) :
    Handled env auth request.tenantId E W (putInit env auth request) := by
  refine .bind (.ofExcept _) fun _ => .bind (.authorize rfl) fun _ =>
    .bind (reading.storedResponse _ _ _ _) fun stored => ?_
  cases stored with
  | some stored => exact .pure _
  | none => exact .putInitApply env auth hsession hkept

theorem putChunk {request : PutChunkRequest} {ciphertextChunk : List UInt8}
    (hsession : W (.sessions request.tenantId request.sessionId))
    (hchunk : W (.chunks request.tenantId request.chunkCid)) :
    Handled env auth request.tenantId E W (putChunk env auth request ciphertextChunk) :=
  .bind (.rejectIf _ _) fun _ => .bind (reading.uploadSession _) fun _ =>
    .bind (.ofExcept _) fun _ => .bind (.authorize rfl) fun _ => .bind (.storeExists _) fun _ =>
    .bind (.ite (.pure _) (.writeEncryptedJson hchunk)) fun _ =>
    .bind (.writeEncryptedJson hsession) fun _ => .pure _

theorem commitBind
    (hE : E .namespaceBound) (hW : ∀ l, mutationWrites request.tenantId l → W l)
    (hmanifest : W (.manifests request.tenantId session.manifestCid)) :
    Handled env auth request.tenantId E W (commitBind env auth request session) := by
  unfold Hsp.commitBind
  cases session.atomicBind with
  | none => exact .pure _
  | some atomicBind =>
    -- The response of the bind is not kept.
    have hbind := bindInternal env auth (W := W)
      (atomicBind.toBindRequest request.tenantId session.manifestCid request.idempotencyKey) false
      hE hW nofun
    refine .bind (.attempt hbind) fun bound => ?_
    cases bound with
    | ok _ => exact .pure _
    | error error => exact .bind (.attempt (.deleteManifest hmanifest)) fun _ => .throw _

theorem putCommitApply
    (hE : E .namespaceBound) (hE' : E .objectCommitted)
    (hW : ∀ l, mutationWrites request.tenantId l → W l)
    (hmanifest : ∀ cid, W (.manifests request.tenantId cid))
    (hsession : W (.sessions request.tenantId request.sessionId))
    (hkept : W (.idempotency request.tenantId .putCommit request.idempotencyKey)) :
    Handled env auth request.tenantId E W (putCommitApply env auth request session) :=
  .bind (reading.checkChunksStored _) fun _ => .bind .nowMs fun _ =>
    .bind (.writeEncryptedJson (hmanifest _)) fun _ =>
    .bind (.commitBind env auth hE hW (hmanifest _)) fun _ => .bind .nowMs fun _ =>
    .bind (.appendEvent hE') fun _ => .bind (.writeAudit hW _ _ _) fun _ =>
    .bind (.writeEncryptedJson hsession) fun _ => .bind (.writeEncryptedJson hkept) fun _ =>
    .pure _

theorem putCommit (hE : E .namespaceBound) (hE' : E .objectCommitted)
    (hW : ∀ l, mutationWrites request.tenantId l → W l)
    (hmanifest : ∀ cid, W (.manifests request.tenantId cid))
    (hsession : W (.sessions request.tenantId request.sessionId))
    (hkept : W (.idempotency request.tenantId .putCommit request.idempotencyKey)) :
    Handled env auth request.tenantId E W (putCommit env auth request) := by
  refine .bind (reading.uploadSession _) fun session => .bind (.rejectIf _ _) fun _ =>
    .bind (.authorize rfl) fun _ => .bind (reading.storedResponse _ _ _ _) fun stored => ?_
  cases stored with
  | some stored => exact .pure _
  | none => exact .putCommitApply env auth hE hE' hW hmanifest hsession hkept

/-! ### What requests leave alone -/

variable {env auth} {x : Svc α}

/-- **A request leaves the entries alone that it does not write.** -/
theorem aside (h : Handled env auth t E W x) {D : Loc → Bool}
    (hD : ∀ l : Loc, l.tenantId = t → l.isTrace → D l = false) (hW : ∀ l, W l → D l = false) :
    Aside D (fun _ => True) x := by
  have hcounter : D (.eventSequence t) = false := hD _ rfl rfl
  have hevent (seq : ℕ) : D (.event t seq) = false := hD _ rfl rfl
  induction h with
  | pure a => exact .pure a
  | throw e => exact .throw trivial
  | bind _ _ hx hf => exact .bind hx hf
  | attempt _ hx => exact .attempt hx
  | nowMs => exact .nowMs
  | storeExists l => exact .storeExists l
  | readEncryptedJson l => exact .readEncryptedJson l
  | writeEncryptedJson hl => exact .writeEncryptedJson (hW _ hl) _
  | deleteManifest hl => exact .deleteStoreKey (hW _ hl)
  | appendEvent _ => exact .appendEvent hcounter hevent _
  | authorize h =>
    subst h
    have hauthorize := Aside.authorize hcounter hevent (fun key => hD (.replay _ key) rfl rfl) env
      auth
    exact hauthorize.weaken (fun _ hl => hl) fun _ _ => trivial

end Handled

/-! ### What a request does to the world -/

/-- A relation between the world before and after that every part of a request respects. -/
structure Respected (t : TenantId) (E : EventType → Prop) (W : Loc → Prop)
    (R : World → World → Prop) : Prop where
  /-- The clock and the replay cache do not matter. -/
  same : ∀ {w w'}, w'.store = w.store → R w w'
  trans : ∀ {w w₁ w₂}, R w w₁ → R w₁ w₂ → R w w₂
  write : ∀ w {l} (v : Val l), W l → R w (w.set l (some v))
  delete : ∀ w cid, W (.manifests t cid) → R w (w.set (.manifests t cid) none)
  log : ∀ w e, E e.eventType ∨ e.eventType = .authDenied → R w (w.logged t e)
  record : ∀ w key (v : ReplayRecord), w.store (.replay t key) = none →
    R w (w.set (.replay t key) (some v))

namespace Respected

variable {env : Env} {auth : AuthContext} {t : TenantId} {E : EventType → Prop} {W : Loc → Prop}
  {R : World → World → Prop} {α : Type}

/-- Authorization leaves a record of its own, or an event about a denial. -/
theorem authorize (hR : Respected t E W R) {req : AuthRequestMeta} (ht : req.tenantId = t)
    (w : World) : R w (runE (exec env) (authorize env auth req) w).2 := by
  subst ht
  rcases authorize_cases env auth req w with ⟨reason, w₁, hstore, hrun⟩ | ⟨_, w₁, hstore, hrun⟩ |
    ⟨_, u, r, w₁, hu, hstore, hnone, hrun⟩ <;> rw [hrun]
  · have hticked : R w (w₁.ticked 1) := hR.same hstore
    exact hR.trans hticked (hR.log _ _ (.inr rfl))
  · exact hR.same hstore
  · have htenant : u.tenantId = req.tenantId := by rw [(tokenUse_eq_some.1 hu).2.2]
    rw [← htenant] at hR
    exact hR.trans (hR.same hstore) (hR.record w₁ _ r (hstore ▸ hnone))

/-- **What every part of a request respects, the request respects.** -/
theorem run (hR : Respected t E W R) {x : Svc α} (h : Handled env auth t E W x) (w : World) :
    R w (runE (exec env) x w).2 := by
  induction h generalizing w with
  | pure a => exact hR.same rfl
  | throw e => exact hR.same rfl
  | bind _ _ hx hf =>
    rw [Prog.runE_bind]
    have hfirst := hx w
    split
    · rename_i a w' hrun
      rw [hrun] at hfirst
      exact hR.trans hfirst (hf a w')
    · rename_i e w' hrun
      rw [hrun] at hfirst
      exact hfirst
  | attempt _ hx =>
    rw [runE_attempt]
    exact hx w
  | nowMs => exact hR.same rfl
  | storeExists l => exact hR.same rfl
  | readEncryptedJson l => exact hR.same rfl
  | writeEncryptedJson hl => exact hR.write w _ hl
  | deleteManifest hl => exact hR.delete w _ hl
  | appendEvent he => exact hR.log w _ (.inl he)
  | authorize h => exact hR.authorize h w

end Respected

/-- What a world remembers of the requests it has seen is still there later: replay records are
the same, and no stored response is missing. -/
structure Remembers (w w' : World) : Prop where
  replay : ∀ t key r, w.store (.replay t key) = some r → w'.store (.replay t key) = some r
  response : ∀ t op key, (w.store (.idempotency t op key)).isSome →
    (w'.store (.idempotency t op key)).isSome

namespace Remembers

theorem refl (w : World) : Remembers w w := ⟨fun _ _ _ h => h, fun _ _ _ h => h⟩

theorem trans {w w₁ w₂ : World} (h : Remembers w w₁) (h' : Remembers w₁ w₂) : Remembers w w₂ where
  replay t key r hr := h'.replay t key r (h.replay t key r hr)
  response t op key hr := h'.response t op key (h.response t op key hr)

/-- Writing an entry that holds no replay record yet. -/
theorem set {w : World} {l : Loc} (hl : l.isReplay = false ∨ w.store l = none) (v : Val l) :
    Remembers w (w.set l (some v)) where
  replay t key r hr := by
    have hne : Loc.replay t key ≠ l := by
      rintro rfl
      rcases hl with hl | hl
      · cases hl
      · rw [hl] at hr
        cases hr
    rw [World.set_store_of_ne _ hne, hr]
  response t op key hr := World.isSome_set hr v

theorem respected {t : TenantId} {E : EventType → Prop} {W : Loc → Prop}
    (hW : ∀ l, W l → l.isTrace = false) : Respected t E W Remembers where
  same h := ⟨fun _ _ _ hr => by rw [h, hr], fun _ _ _ hr => by rwa [h]⟩
  trans := trans
  write w l v hl := set (.inl (isReplay_of_isTrace (hW l hl))) v
  delete w cid _ :=
    ⟨fun _ _ _ hr => by rw [World.set_store_of_ne _ (by simp), hr],
      fun _ _ _ hr => by rwa [World.set_store_of_ne _ (by simp)]⟩
  log w e _ := (set (.inl rfl) _).trans (set (.inl rfl) _)
  record w key v hl := set (.inr hl) v

end Remembers

namespace Call

/-- The types of events a call may append, denials apart. -/
def Emits : Call → EventType → Prop
  | .putCommit _ _, type => type = .namespaceBound ∨ type = .objectCommitted
  | .bind _ _, type => type = .namespaceBound
  | .unbind _ _, type => type = .namespaceTombstoned ∨ type = .namespaceUnbound
  | _, _ => False

/-- The entries a call may write, replay records and events apart: those of its tenant. -/
def Writes (c : Call) (l : Loc) : Prop := l.tenantId = c.tenantId ∧ l.isTrace = false

/-- The kinds of entries that a call may write, replay records and events apart. -/
def touches : Call → Loc → Bool
  | .putInit _ _, .sessions _ _ | .putInit _ _, .idempotency _ _ _ => true
  | .putChunk _ _ _, .sessions _ _ | .putChunk _ _ _, .chunks _ _ => true
  | .putCommit _ _, l => !l.isTrace && !(l matches .chunks _ _)
  | .bind _ _, l | .unbind _ _, l => !l.isTrace && !(l matches .sessions _ _ | .chunks _ _ |
      .manifests _ _)
  | _, _ => false

theorem mutationWrites_writes {t : TenantId} {l : Loc} (h : Handled.mutationWrites t l) :
    l.tenantId = t ∧ l.isTrace = false := by
  cases l <;> first | exact ⟨h, rfl⟩ | exact h.elim

/-- **Every request is made of reads, authorizations, events and writes of its own.** -/
theorem handled_of_touches (env : Env) (c : Call) {W : Loc → Prop}
    (hW : ∀ l : Loc, l.tenantId = c.tenantId → c.touches l → W l) :
    Handled env c.auth c.tenantId c.Emits W (c.handle env) := by
  have hmutation (hc : c.touches (.audit c.tenantId "")) (l : Loc)
      (hl : Handled.mutationWrites c.tenantId l) : W l := by
    refine hW l (mutationWrites_writes hl).1 ?_
    cases l <;> first | exact hl.elim | cases c <;> first | rfl | cases hc
  cases c with
  | putInit auth request =>
    exact (Handled.putInit env auth (fun _ => hW _ rfl rfl) (hW _ rfl rfl)).map _
  | putChunk auth request chunk =>
    exact (Handled.putChunk env auth (hW _ rfl rfl) (hW _ rfl rfl)).map _
  | putCommit auth request =>
    exact (Handled.putCommit env auth (.inl rfl) (.inr rfl) (hmutation rfl)
      (fun _ => hW _ rfl rfl) (hW _ rfl rfl) (hW _ rfl rfl)).map _
  | bind auth request =>
    have hbind := Handled.bindInternal env auth (E := (· = .namespaceBound)) request true rfl
      (hmutation rfl) fun _ => hW _ rfl rfl
    exact hbind.map _
  | unbind auth request =>
    exact (Handled.unbindInternal env auth request true (.inl rfl) (.inr rfl) (hmutation rfl)
      fun _ => hW _ rfl rfl).map _
  | _ => exact Handled.reading.call (by trivial)

theorem handled (env : Env) (c : Call) :
    Handled env c.auth c.tenantId c.Emits c.Writes (c.handle env) := by
  refine c.handled_of_touches env fun l ht hl => ⟨ht, ?_⟩
  cases c <;> cases l <;> first | rfl | cases hl

theorem sameOn (env : Env) (c : Call) {D : Loc → Bool} (hD : ∀ l : Loc, l.isTrace → D l = false)
    (hc : ∀ l, c.touches l → D l = false) (w : World) : SameOn D w (c.perform env w).2 :=
  (((c.handled_of_touches env fun l _ hl => hc l hl).aside (fun l _ => hD l)
    fun _ hl => hl).run env w).1

/-- **No call forgets a replay record or a stored response.** -/
theorem remembers (env : Env) (c : Call) (w : World) : Remembers w (c.perform env w).2 :=
  (Remembers.respected fun _ h => h.2).run (c.handled env) w

end Call

end Hsp
