import Hsp.Object.Content
import Hsp.Object.Sessions

/-!
# Sessions and manifest records

Sessions and manifest records are written by uploads alone, and a session hands on what it was
opened with: to itself, when a chunk is noted or the commit is marked, and to the manifest record.
So what is true of the sessions that are opened is true of all of them, and of the records.

* `Entries.perform` : every call leaves the entries valid, if the session that it opens is;
* `RecordsNamed.perform` : a manifest record is kept under its own identifier.
-/

namespace Hsp

variable {env : Env}

/-- The entry has a storage class. -/
def Loc.isClassed : Loc → Bool
  | .sessions _ _ | .manifests _ _ => true
  | _ => false

theorem isClassed_of_mutationWrites {t : TenantId} (l : Loc) (h : Handled.mutationWrites t l) :
    l.isClassed = false := by
  cases l <;> first | rfl | exact h.elim

/-- Every entry of the store is valid for its key. -/
def Entries (V : (l : Loc) → Val l → Prop) (w : World) : Prop := ∀ l v, w.store l = some v → V l v

/-- What a session hands on is valid if the session is. -/
structure HandedOn (V : (l : Loc) → Val l → Prop) : Prop where
  other : ∀ l : Loc, l.isClassed = false → ∀ v, V l v
  noted : ∀ t id session chunks, V (.sessions t id) session →
    V (.sessions t id) { session with uploadedChunks := chunks }
  marked : ∀ t id session, V (.sessions t id) session →
    V (.sessions t id) { session with committed := true }
  recorded : ∀ t id session committedAtMs, V (.sessions t id) session →
    V (.manifests t session.manifestCid) ⟨t, session.manifest, session.manifestCid,
      session.manifestCid, session.storageClass, committedAtMs⟩

namespace Entries

variable {V : (l : Loc) → Val l → Prop} {w : World} {auth : AuthContext} {G : Op → World → Prop}

theorem set (h : Entries V w) {l : Loc} {v : Val l} (hv : V l v) :
    Entries V (w.set l (some v)) := by
  intro l' v' hstore
  by_cases he : l' = l
  · subst he
    rw [World.set_store_self] at hstore
    cases hstore
    exact hv
  · rw [World.set_store_of_ne _ he] at hstore
    exact h l' v' hstore

theorem write {l : Loc} {v : Val l} (hv : V l v) :
    Keeps (exec env) (Prog.Alone G) (Entries V) (writeEncryptedJson l v) := by
  rintro w hw _ ⟨rfl, -⟩
  exact hw.set hv

theorem uploadSession (t : TenantId) (id : String) :
    Triple (exec env) (Prog.Alone G) (Entries V) (uploadSession t id)
      (fun session w => V (.sessions t id) session ∧ Entries V w) fun _ => Entries V := by
  refine Triple.of_run fun w hw => ?_
  cases hs : w.store (.sessions t id) with
  | none =>
    rw [runE_uploadSession_none hs]
    exact hw
  | some session =>
    rw [runE_uploadSession_some hs]
    exact ⟨hw (.sessions t id) session hs, hw⟩

section Calls

variable (hV : HandedOn V)
include hV

/-- A program that writes no session and no manifest record. -/
theorem of_handled {t : TenantId} {E : EventType → Prop} {α : Type} {x : Svc α}
    (h : Handled env auth t E (fun l => l.isClassed = false) x) :
    Keeps (exec env) (Prog.Alone G) (Entries V) x := by
  refine Triple.of_run fun w hw => ?_
  have hsame := ((h.aside (fun l _ hl => by cases l <;> first | rfl | cases hl)
    fun _ hl => hl).run env w).1
  have hkept : Entries V (runE (exec env) x w).2 := by
    intro l v hstore
    cases hl : l.isClassed with
    | false => exact hV.other l hl v
    | true => exact hw l v ((hsame l hl).symm.trans hstore)
  cases hr : (runE (exec env) x w).1 <;> exact hkept

theorem putInit {request : PutInitRequest} (hopened : ∀ createdAtMs base,
      V (sessionLoc request.tenantId (request.manifest.manifestCid env))
        (request.newSession env createdAtMs base)) :
    Keeps (exec env) (Prog.Alone G) (Entries V) (putInit env auth request) := by
  have handled {α : Type} {x : Svc α} : Handled env auth request.tenantId (fun _ => True)
      (fun l => l.isClassed = false) x → Keeps (exec env) (Prog.Alone G) (Entries V) x :=
    of_handled hV
  refine .bind (handled (.ofExcept _)) fun _ => .bind (handled (.authorize rfl)) fun _ =>
    .bind (handled (Handled.reading.storedResponse _ _ _ _)) fun stored => ?_
  cases stored with
  | some stored => exact .pure _
  | none =>
    exact .bind (handled (Handled.reading.missingChunks _)) fun _ =>
      .bind (handled .nowMs) fun _ => .bind (handled .nowMs) fun _ =>
      .bind (write (hopened _ _)) fun _ =>
      .bind (handled (.writeEncryptedJson rfl)) fun _ => .pure _

theorem putChunk (request : PutChunkRequest) (ciphertextChunk : List UInt8) :
    Keeps (exec env) (Prog.Alone G) (Entries V) (putChunk env auth request ciphertextChunk) := by
  have handled {α : Type} {x : Svc α} : Handled env auth request.tenantId (fun _ => True)
      (fun l => l.isClassed = false) x → Keeps (exec env) (Prog.Alone G) (Entries V) x :=
    of_handled hV
  exact .bind (handled (.rejectIf _ _)) fun _ => Triple.bind (uploadSession _ _) fun session =>
    Triple.of_fact fun hsession => Keeps.bind (handled (.ofExcept _)) fun _ =>
    .bind (handled (.authorize rfl)) fun _ => .bind (handled (.storeExists _)) fun _ =>
    .bind (handled (.ite (.pure _) (.writeEncryptedJson rfl))) fun _ =>
    .bind (write (hV.noted _ _ _ _ hsession)) fun _ => .pure _

theorem commitBind (request : PutCommitRequest) (session : UploadSessionRecord) :
    Keeps (exec env) (Prog.Alone G) (Entries V) (commitBind env auth request session) := by
  unfold Hsp.commitBind
  cases session.atomicBind with
  | none => exact .pure ()
  | some atomicBind =>
    refine .bind (.attempt (of_handled hV (E := fun _ => True) (Handled.bindInternal env auth _
      false trivial isClassed_of_mutationWrites nofun))) fun bound => ?_
    cases bound with
    | ok _ => exact .pure ()
    | error e =>
      refine .bind (.attempt ?_) fun _ => Triple.throw fun _ hw => hw
      rintro w hw _ ⟨rfl, -⟩ l v hstore
      exact hw l v (store_of_removed hstore)

theorem putCommit (request : PutCommitRequest) :
    Keeps (exec env) (Prog.Alone G) (Entries V) (putCommit env auth request) := by
  have handled {α : Type} {x : Svc α} : Handled env auth request.tenantId (fun _ => True)
      (fun l => l.isClassed = false) x → Keeps (exec env) (Prog.Alone G) (Entries V) x :=
    of_handled hV
  refine Triple.bind (uploadSession _ _) fun session => Triple.of_fact fun hsession =>
    Keeps.bind (handled (.rejectIf _ _)) fun _ => .bind (handled (.authorize rfl)) fun _ =>
    .bind (handled (Handled.reading.storedResponse _ _ _ _)) fun stored => ?_
  cases stored with
  | some stored => exact .pure _
  | none =>
    exact .bind (handled (Handled.reading.checkChunksStored _)) fun _ =>
      .bind (handled .nowMs) fun _ =>
      .bind (write (hV.recorded _ _ _ _ hsession)) fun _ =>
      .bind (commitBind hV request session) fun _ => .bind (handled .nowMs) fun _ =>
      .bind (handled (.appendEvent trivial)) fun _ =>
      .bind (handled (.writeAudit isClassed_of_mutationWrites _ _ _)) fun _ =>
      .bind (write (hV.marked _ _ _ hsession)) fun _ =>
      .bind (handled (.writeEncryptedJson rfl)) fun _ => .pure _

/-- **Every call leaves the entries valid**, if the session that it opens is. -/
theorem perform (h : Entries V w) {c : Call} (hc : ∀ auth request, c = .putInit auth request →
      ∀ createdAtMs base, V (sessionLoc request.tenantId (request.manifest.manifestCid env))
        (request.newSession env createdAtMs base)) :
    Entries V (c.perform env w).2 := by
  have hkeeps : Keeps (exec env) (Prog.Alone fun _ _ => True) (Entries V) (c.handle env) := by
    by_cases hupload : c.IsUpload
    · cases c with
      | putInit auth request => exact Triple.map (putInit hV (hc auth request rfl))
      | putChunk auth request chunk => exact Triple.map (putChunk hV request chunk)
      | putCommit auth request => exact Triple.map (putCommit hV request)
      | _ => exact hupload.elim
    · refine of_handled hV (c.handled_of_touches env fun l _ hl => ?_)
      cases c <;> cases l <;> first | rfl | exact absurd trivial hupload | cases hl
  exact hkeeps.run h (always_true _ _ _)

end Calls

end Entries

/-! ### Records are kept under their names -/

theorem RecordsNamed.empty : RecordsNamed World.empty := nofun

/-- The same for one entry. -/
def RecordNamed : (l : Loc) → Val l → Prop
  | .manifests _ cid, record => record.objectCid = cid ∧ record.manifestCid = cid
  | _, _ => True

theorem RecordsNamed.perform {w : World} (h : RecordsNamed w) (c : Call) :
    RecordsNamed (c.perform env w).2 := by
  have hperform : Entries RecordNamed (c.perform env w).2 := by
    refine Entries.perform ⟨fun l hl v => ?_, fun _ _ _ _ _ => trivial, fun _ _ _ _ => trivial,
      fun _ _ _ _ _ => ⟨rfl, rfl⟩⟩ (fun l v hv => ?_) fun _ _ _ _ _ => trivial
    · cases l <;> trivial
    · cases l <;> first | trivial | exact h _ _ v hv
  exact fun t cid record => hperform (.manifests t cid) record

end Hsp
