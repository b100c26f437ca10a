import Hsp.Object.Commit

/-!
# What a use of a token brings about

A token is used once for a mutation: a second request for the same tenant, token, operation and
subject is a retry or is denied.  So the requests that present one use should together take at most
one revision of a namespace and commit at most one object.

* `one_effect_per_use` : they do, if the bind inside a commit presents a use of the token that no
  other request presents.
-/

namespace Hsp

open Option

variable {env : Env} {w w' : World} {c : Call}

/-! ### Revisions and commits -/

/-- The revisions of namespaces that are taken between two worlds. -/
def newRevisions (w w' : World) : Set (TenantId × String × ℕ) :=
  {ρ | w.nextRevision ρ.1 ρ.2.1 ≤ ρ.2.2 ∧ ρ.2.2 < w'.nextRevision ρ.1 ρ.2.1}

/-- The events about committed objects that are new in the second world. -/
def newCommits (w w' : World) : Set (TenantId × ℕ) :=
  {ε | ∃ e, w'.store (.event ε.1 ε.2) = some e ∧ e.eventType = .objectCommitted ∧
    w.store (.event ε.1 ε.2) ≠ some e}

theorem SameNamespaces.newRevisions (h : SameNamespaces w w') : newRevisions w w' = ∅ := by
  ext ⟨t, n, r⟩
  simp only [Hsp.newRevisions, Set.mem_ofPred_eq, h.nextRevision, Set.mem_empty_iff_false,
    iff_false]
  omega

/-- **A call takes at most one revision, and only if it succeeds.** -/
theorem Call.newRevisions (env : Env) (c : Call) (w : World) :
    newRevisions w (c.perform env w).2 = ∅ ∨
      (newRevisions w (c.perform env w).2).Subsingleton ∧ c.IsKeyed ∧
        ∃ reply, (c.perform env w).1 = .ok reply := by
  rcases c.outcome env w with hs | ⟨m, hm⟩
  · exact .inl hs.newRevisions
  have honly : ∀ ρ ∈ Hsp.newRevisions w (c.perform env w).2,
      ρ = (m.record.tenantId, m.record.ns, w.revisionFor m) := by
    rintro ⟨t, n, r⟩ ⟨hle, hlt⟩
    dsimp only at hle hlt
    rw [hm.mutates.nextRevision, mutate_nextRevision] at hlt
    split at hlt
    · rename_i hk
      obtain ⟨rfl, rfl⟩ := hk
      have hr : r = w.revisionFor m := by
        unfold World.revisionFor
        omega
      rw [hr]
    · omega
  refine .inr ⟨fun ρ hρ ρ' hρ' => (honly ρ hρ).trans (honly ρ' hρ').symm, ?_, ?_⟩
  · have htarget := hm.target
    cases c <;> trivial
  · obtain ⟨reply, hok, -⟩ := hm.ok
    exact ⟨reply, hok⟩

/-! ### Events about commits -/

/-- No event about a committed object is new. -/
def Uncommitted (w w' : World) : Prop :=
  ∀ t seq e, w'.store (.event t seq) = some e → e.eventType = .objectCommitted →
    w.store (.event t seq) = some e

namespace Uncommitted

variable {w w₁ w₂ : World}

theorem trans (h : Uncommitted w w₁) (h' : Uncommitted w₁ w₂) : Uncommitted w w₂ :=
  fun t seq e he hc => h t seq e (h' t seq e he hc) hc

theorem newCommits_eq (h : Uncommitted w w₁) : newCommits w w₁ = ∅ := by
  ext ⟨t, seq⟩
  simp only [newCommits, Set.mem_ofPred_eq, Set.mem_empty_iff_false, iff_false]
  rintro ⟨e, he, hc, hne⟩
  exact hne (h t seq e he hc)

theorem newCommits_subset (h : Uncommitted w w₁) (w₂ : World) :
    newCommits w w₂ ⊆ newCommits w₁ w₂ := by
  rintro ⟨t, seq⟩ ⟨e, he, hc, hne⟩
  exact ⟨e, he, hc, fun he₁ => hne (h t seq e he₁ hc)⟩

theorem set {l : Loc} (hl : ∀ t seq, l ≠ .event t seq) (v : Option (Val l)) :
    Uncommitted w (w.set l v) := by
  intro t seq e he _
  rwa [World.set_store_of_ne _ (hl t seq).symm] at he

theorem logged_event (w : World) (t t' : TenantId) (seq : ℕ) (e : EventRecord) :
    (w.logged t e).store (.event t' seq) =
      if t' = t ∧ seq = w.nextSeq t then some { e with seq := w.nextSeq t }
      else w.store (.event t' seq) := by
  split
  · rename_i h
    obtain ⟨rfl, rfl⟩ := h
    simp [World.logged]
  · rename_i h
    rw [World.logged, World.set_store_of_ne _ (by simpa using h), World.set_store_of_ne _ (by simp)]

theorem respected {t : TenantId} {E : EventType → Prop} {W : Loc → Prop}
    (hE : ¬ E .objectCommitted) (hW : ∀ l, W l → l.isTrace = false) :
    Respected t E W Uncommitted where
  same h := fun t seq e he _ => by rwa [h] at he
  trans := trans
  write w l v hl := set (by rintro t seq rfl; cases hW _ hl) _
  delete w cid _ := set (by simp) _
  log w e he := by
    intro t' seq e' hstored hc
    rw [logged_event] at hstored
    split at hstored
    · rw [← some.inj hstored] at hc
      dsimp only at hc
      rcases he with he | he
      · exact absurd (hc ▸ he) hE
      · rw [he] at hc
        cases hc
    · exact hstored
  record w key v _ := set (by simp) _

end Uncommitted

section Commit

variable (env) (auth : AuthContext) (request : PutCommitRequest) (session : UploadSessionRecord)

theorem uncommitted_prepareCommit (w : World) :
    Uncommitted w (runE (exec env) (prepareCommit env auth request session) w).2 := by
  have hW (l : Loc) (hl : Handled.mutationWrites request.tenantId l) : l.isTrace = false :=
    (Call.mutationWrites_writes hl).2
  have hhandled : Handled env auth request.tenantId (· = .namespaceBound)
      (fun l => l.isTrace = false) (prepareCommit env auth request session) :=
    .bind (Handled.reading.checkChunksStored _) fun _ => .bind .nowMs fun _ =>
      .bind (.writeEncryptedJson rfl) fun _ => .commitBind env auth rfl hW rfl
  exact (Uncommitted.respected (by simp) fun _ h => h).run hhandled w

/-- Carrying out a commit commits at most one object, and only if it succeeds. -/
theorem newCommits_putCommitApply (w : World) :
    newCommits w (runE (exec env) (putCommitApply env auth request session) w).2 = ∅ ∨
      (newCommits w
        (runE (exec env) (putCommitApply env auth request session) w).2).Subsingleton ∧
        ∃ response, (runE (exec env) (putCommitApply env auth request session) w).1 =
          .ok response := by
  have hprepared := uncommitted_prepareCommit env auth request session w
  rw [putCommitApply_eq]
  rcases hrun : runE (exec env) (prepareCommit env auth request session) w with ⟨e | _, w₁⟩
  · rw [hrun] at hprepared
    rw [runE_bind_error _ hrun]
    exact .inl hprepared.newCommits_eq
  · rw [hrun] at hprepared
    rw [runE_bind_ok _ hrun, runE_recordCommit]
    refine .inr ⟨?_, _, rfl⟩
    have honly : ∀ ε ∈ newCommits w₁ (w₁.commitRecorded env request session),
        ε = (request.tenantId, (w₁.ticked 1).nextSeq request.tenantId) := by
      rintro ⟨t, seq⟩ ⟨e, he, hc, hne⟩
      rw [World.commitRecorded_event, Uncommitted.logged_event] at he
      split at he
      · rename_i hk
        obtain ⟨rfl, rfl⟩ := hk
        rfl
      · exact absurd he hne
    intro ε hε ε' hε'
    exact (honly ε (hprepared.newCommits_subset _ hε)).trans
      (honly ε' (hprepared.newCommits_subset _ hε')).symm

end Commit

theorem uncommitted_authorize {auth : AuthContext} {req : AuthRequestMeta} {w₁ : World}
    {result : Except ApiError AuthorizationDecision}
    (h : runE (exec env) (authorize env auth req) w = (result, w₁)) : Uncommitted w w₁ := by
  have hrun : Uncommitted w (runE (exec env) (authorize env auth req) w).2 :=
    (Uncommitted.respected (E := fun _ => False) (W := fun _ => False) id nofun).authorize rfl w
  rwa [h] at hrun

theorem newCommits_handle (auth : AuthContext) (request : PutCommitRequest)
    (session : UploadSessionRecord) (w : World) :
    newCommits w (runE (exec env) ((request.keyed env auth session).handle env) w).2 = ∅ ∨
      (newCommits w
        (runE (exec env) ((request.keyed env auth session).handle env) w).2).Subsingleton ∧
      ∃ response, (runE (exec env) ((request.keyed env auth session).handle env) w).1 =
        .ok response := by
  rcases (request.keyed env auth session).handle_cases env w with
    ⟨e, w₁, hauth, hrun⟩ | ⟨record, w₁, hauth, -, hrun⟩ | ⟨decision, w₁, hauth, -, hrun⟩
  · rw [hrun]
    exact .inl (uncommitted_authorize hauth).newCommits_eq
  · rw [hrun]
    exact .inl (uncommitted_authorize hauth).newCommits_eq
  · rw [hrun]
    have hsub := (uncommitted_authorize hauth).newCommits_subset
    rcases newCommits_putCommitApply env auth request session w₁ with hnone | ⟨hone, hok⟩
    · exact .inl (Set.subset_eq_empty (hsub _) hnone)
    · exact .inr ⟨hone.anti (hsub _), hok⟩

/-- **A call commits at most one object, and only if it succeeds.** -/
theorem Call.newCommits (env : Env) (c : Call) (w : World) :
    newCommits w (c.perform env w).2 = ∅ ∨
      (newCommits w (c.perform env w).2).Subsingleton ∧ c.IsKeyed ∧
        ∃ reply, (c.perform env w).1 = .ok reply := by
  by_cases hE : c.Emits .objectCommitted
  · cases c with
    | putCommit auth request =>
      rcases perform_eq env (c := .putCommit auth request) trivial w with
        ⟨-, e, hrun⟩ | ⟨k, hk, hrun⟩
      · rw [hrun]
        exact .inl (Uncommitted.newCommits_eq fun _ _ _ h _ => h)
      · simp only [Call.keyed, bind_eq_bind, bind_eq_some_iff, pure] at hk
        obtain ⟨session, -, hk⟩ := hk
        split at hk
        · cases hk
        cases hk
        rw [hrun, runE_map]
        rcases newCommits_handle auth request session w with hnone | ⟨hone, response, hok⟩
        · exact .inl hnone
        · exact .inr ⟨hone, trivial, .putCommit response, by rw [hok]; rfl⟩
    | bind auth request => cases hE
    | unbind auth request => rcases hE with hE | hE <;> cases hE
    | _ => exact hE.elim
  · have hrun := (Uncommitted.respected hE fun _ h => h.2).run (c.handled env) w
    exact .inl hrun.newCommits_eq

/-! ### Uses of a token -/

/-- The use of the token a call itself presents. -/
def Call.ownUse (env : Env) (w : World) : Call → Option TokenUse
  | .putChunk auth request _ => auth.claims.jti.map fun jti =>
    ⟨request.tenantId, jti, .putChunk,
      request.sessionId ++ ":" ++ toString request.chunkIndex.toNat⟩
  | c => (c.keyed env w).bind (·.use)

/-- The use of the token a commit presents for its bind. -/
def Call.bindUse (w : World) : Call → Option TokenUse
  | .putCommit auth request => do
    let session ← w.store (.sessions request.tenantId request.sessionId)
    let atomicBind ← session.atomicBind
    let (ns, path) ← (canonicalNamespaceAndPath atomicBind.ns atomicBind.path).toOption
    tokenUse auth (bindMeta request.tenantId ns path request.idempotencyKey)
  | _ => none

namespace Exchange

variable (env) (x : Exchange)

def ownUse : Option TokenUse := x.call.ownUse env x.before

/-- The uses of the token a call presents. -/
def uses : List TokenUse := (x.ownUse env).toList ++ (x.call.bindUse x.before).toList

end Exchange

/-- The call takes a revision or commits an object. -/
def Exchange.Effective (x : Exchange) : Prop :=
  (newRevisions x.before x.after).Nonempty ∨ (newCommits x.before x.after).Nonempty

theorem Keyed.use_of_ok {k : Keyed} {response : k.op.Response}
    (hok : runE (exec env) (k.handle env) w = (.ok response, w')) : ∃ u, k.use = some u := by
  have hallows : Allows k.auth k.req := allows_of_ok hok
  have hmut : k.req.operation.isMutation := by
    rw [k.operation_eq]
    cases k.op <;> rfl
  obtain ⟨jti, hjti⟩ := isSome_iff_exists.1 (hallows.jti hmut)
  exact ⟨_, by rw [use, tokenUse, if_pos hmut, hjti]; rfl⟩

/-- **A call with an effect is a keyed request that succeeds**, so its use of the token is spent. -/
theorem Exchange.Effective.ok (h : (c.exchange env w).Effective) :
    ∃ k u response, c.keyed env w = some k ∧ k.use = some u ∧
      runE (exec env) (k.handle env) w = (.ok response, (c.perform env w).2) := by
  have hok : c.IsKeyed ∧ ∃ reply, (c.perform env w).1 = .ok reply := by
    rcases h with h | h
    · rcases c.newRevisions env w with hnone | ⟨-, hok⟩
      · exact absurd hnone h.ne_empty
      · exact hok
    · rcases c.newCommits env w with hnone | ⟨-, hok⟩
      · exact absurd hnone h.ne_empty
      · exact hok
  obtain ⟨hkeyed, reply, hreply⟩ := hok
  obtain ⟨k, response, hk, -, hrun⟩ := Call.keyed_of_ok hkeyed hreply
  obtain ⟨u, hu⟩ := Keyed.use_of_ok hrun
  exact ⟨k, u, response, hk, hu, hrun⟩

theorem Call.ownUse_of_keyed {k : Keyed} (h : c.keyed env w = some k) : c.ownUse env w = k.use := by
  cases c with
  | putChunk auth request chunk => cases h
  | _ => exact congrArg (Option.bind · (·.use)) h

/-- **Two calls that present the same use do not both have an effect**, whatever happens between
them. -/
theorem Exchange.Effective.not_again {c' : Call} (h : (c.exchange env w).Effective)
    (hw : Remembers (c.perform env w).2 w') (huse : c.ownUse env w = c'.ownUse env w') :
    ¬ (c'.exchange env w').Effective := by
  intro h'
  obtain ⟨k, u, response, hk, hu, hrun⟩ := h.ok
  obtain ⟨k', u', response', hk', hu', hrun'⟩ := h'.ok
  rw [Call.ownUse_of_keyed hk, Call.ownUse_of_keyed hk', hu, hu', some.injEq] at huse
  subst huse
  have hspent := (Keyed.spent_of_ok (Call.lawful hk) hu hrun).remembered hw
  have hop : k.op = k'.op := by
    have hoperation : k.req.operation = k'.req.operation := by
      have hk := congrArg TokenUse.operation (tokenUse_eq_some.1 hu).2.2
      have hk' := congrArg TokenUse.operation (tokenUse_eq_some.1 hu').2.2
      exact hk.symm.trans hk'
    rw [k.operation_eq, k'.operation_eq] at hoperation
    exact IdempotentOp.operationName_injective hoperation
  rw [hop] at hspent
  have hsame := (Keyed.answered_of_spent hspent hu' hrun').2
  -- Nothing in the store has changed, so nothing is new.
  rcases h' with ⟨ρ, hle, hlt⟩ | ⟨ε, e, he, -, hne⟩
  · have hnext : (c'.perform env w').2.nextRevision ρ.1 ρ.2.1 = w'.nextRevision ρ.1 ρ.2.1 := by
      rw [World.nextRevision, hsame, ← World.nextRevision]
    simp only [Call.exchange] at hle hlt
    omega
  · simp only [Call.exchange, hsame] at he hne
    exact hne he

/-! ### Runs -/

theorem exists_of_mem_exchanges {calls : List Call} {y : Exchange} (h : y ∈ exchanges env calls w) :
    ∃ (c : Call) (w' : World), y = c.exchange env w' ∧ Remembers w w' := by
  induction calls generalizing w with
  | nil => cases h
  | cons c calls ih =>
    rcases List.mem_cons.1 h with rfl | h
    · exact ⟨c, w, rfl, .refl w⟩
    · obtain ⟨c', w', hy, hw⟩ := ih h
      exact ⟨c', w', hy, (c.remembers env w).trans hw⟩

/-- Of the exchanges of a run that present the same use, at most one has an effect. -/
theorem pairwise_not_effective (calls : List Call) (w : World) :
    (exchanges env calls w).Pairwise fun x y =>
      x.ownUse env = y.ownUse env → x.Effective → ¬ y.Effective := by
  induction calls generalizing w with
  | nil => exact .nil
  | cons c calls ih =>
    refine List.pairwise_cons.2 ⟨fun y hy huse hx => ?_, ih _⟩
    obtain ⟨c', w', rfl, hw⟩ := exists_of_mem_exchanges hy
    exact hx.not_again hw huse

/-- What a list of steps brings about, each at its position, if no two steps bring about something
and no step brings about two things. -/
theorem subsingleton_of_pairwise {α β : Type} {xs : List α} {f : α → Set β}
    (hone : ∀ x ∈ xs, (f x).Subsingleton)
    (hpair : xs.Pairwise fun x y => (f x).Nonempty → ¬ (f y).Nonempty) :
    {p : ℕ × β | ∃ x, xs[p.1]? = some x ∧ p.2 ∈ f x}.Subsingleton := by
  have hlt {i j : ℕ} {x y : α} (hij : i < j) (hx : xs[i]? = some x) (hy : xs[j]? = some y)
      (hfx : (f x).Nonempty) : ¬ (f y).Nonempty := by
    obtain ⟨hi, rfl⟩ := List.getElem?_eq_some_iff.1 hx
    obtain ⟨hj, rfl⟩ := List.getElem?_eq_some_iff.1 hy
    exact List.pairwise_iff_getElem.1 hpair i j hi hj hij hfx
  rintro ⟨i, a⟩ ⟨x, hx, ha⟩ ⟨j, b⟩ ⟨y, hy, hb⟩
  rcases lt_trichotomy i j with hij | rfl | hij
  · exact absurd ⟨b, hb⟩ (hlt hij hx hy ⟨a, ha⟩)
  · obtain rfl := some.inj (hx.symm.trans hy)
    exact congrArg (Prod.mk i) (hone x (List.mem_of_getElem? hx) ha hb)
  · exact absurd ⟨a, ha⟩ (hlt hij hy hx ⟨b, hb⟩)

/-- Two calls that present a common use of a token present it as their own. -/
def Exchange.Separate (env : Env) (x y : Exchange) : Prop :=
  ∀ u ∈ x.uses env, u ∈ y.uses env → x.ownUse env = y.ownUse env

/-- The revisions a call takes, if it presents a use of a token. -/
def Exchange.revisionsUnder (env : Env) (u : TokenUse) (x : Exchange) :
    Set (TenantId × String × ℕ) :=
  {ρ | u ∈ x.uses env ∧ ρ ∈ newRevisions x.before x.after}

/-- The events about committed objects a call appends, if it presents a use of a token. -/
def Exchange.commitsUnder (env : Env) (u : TokenUse) (x : Exchange) : Set (TenantId × ℕ) :=
  {ε | u ∈ x.uses env ∧ ε ∈ newCommits x.before x.after}

/-- What the calls of a run bring about that present a use of a token. -/
theorem subsingleton_under {β : Type} {calls : List Call} (u : TokenUse)
    (hseparate : (exchanges env calls w).Pairwise (Exchange.Separate env)) {f : Exchange → Set β}
    (hone : ∀ (c : Call) w, (f (c.exchange env w)).Subsingleton)
    (heffective : ∀ x, (f x).Nonempty → u ∈ x.uses env ∧ x.Effective) :
    {p : ℕ × β | ∃ x, (exchanges env calls w)[p.1]? = some x ∧ p.2 ∈ f x}.Subsingleton := by
  refine subsingleton_of_pairwise (fun x hx => ?_) ?_
  · obtain ⟨c, w', rfl, -⟩ := exists_of_mem_exchanges hx
    exact hone c w'
  · refine (hseparate.and (pairwise_not_effective calls w)).imp ?_
    rintro x y ⟨hsep, hnot⟩ hx hy
    obtain ⟨hux, hx⟩ := heffective x hx
    obtain ⟨huy, hy⟩ := heffective y hy
    exact hnot (hsep u hux huy) hx hy

/-- **One effect for each use of a token.**  In a run in which calls that share a use of a token
share it as their own, the calls that present a use take at most one revision and commit at most one
object between them. -/
theorem one_effect_per_use (env : Env) (calls : List Call) (w : World)
    (hseparate : (exchanges env calls w).Pairwise (Exchange.Separate env)) (u : TokenUse) :
    {p : ℕ × TenantId × String × ℕ | ∃ x, (exchanges env calls w)[p.1]? = some x ∧
        p.2 ∈ x.revisionsUnder env u}.Subsingleton ∧
      {p : ℕ × TenantId × ℕ | ∃ x, (exchanges env calls w)[p.1]? = some x ∧
        p.2 ∈ x.commitsUnder env u}.Subsingleton := by
  refine ⟨subsingleton_under u hseparate (fun c w' => ?_) fun x hx => ?_,
    subsingleton_under u hseparate (fun c w' => ?_) fun x hx => ?_⟩
  · have hone : (newRevisions w' (c.perform env w').2).Subsingleton := by
      rcases c.newRevisions env w' with hnone | ⟨hone, -⟩
      · rw [hnone]
        exact Set.subsingleton_empty
      · exact hone
    exact hone.anti fun _ h => h.2
  · obtain ⟨ρ, hu, hρ⟩ := hx
    exact ⟨hu, .inl ⟨ρ, hρ⟩⟩
  · have hone : (newCommits w' (c.perform env w').2).Subsingleton := by
      rcases c.newCommits env w' with hnone | ⟨hone, -⟩
      · rw [hnone]
        exact Set.subsingleton_empty
      · exact hone
    exact hone.anti fun _ h => h.2
  · obtain ⟨ε, hu, hε⟩ := hx
    exact ⟨hu, .inr ⟨ε, hε⟩⟩

instance (env : Env) (x y : Exchange) : Decidable (x.Separate env y) :=
  inferInstanceAs (Decidable (∀ u ∈ x.uses env, u ∈ y.uses env → x.ownUse env = y.ownUse env))

namespace Sample

/-- The object is bound to the path again, over revision 1. -/
def rebindRecord : NamespaceMutationRecord :=
  ⟨recordFields .bind (some manifestCid) (some 1), by decide +kernel⟩

/-- The path is bound again with the token and the idempotency key of an earlier request. -/
def rebind (jti : String) (record : UInt8) : Call :=
  .bind (auth jti) ⟨tenant, "n", "p", manifestCid, some 1, false, ∅, none, jti, token record⟩

/-- The object is uploaded and bound to the path by the commit. -/
def uploadBound : List Call :=
  [putInit "1" manifest (some (atomicBind 0)), putChunk "2" manifest, putCommit "3" manifest]

/-- The use of the commit's token for its bind. -/
def bindUse : TokenUse := ⟨tenant, "3", .bind, "n:p"⟩

/-- A bind with the token of a commit that has bound the path: both present the same use, and both
take a revision. -/
theorem two_effects_under_one_use :
    ((exchanges (Sample.env [bindRecord, rebindRecord]) (uploadBound ++ [rebind "3" 1])
      World.empty).filter fun x => bindUse ∈ x.uses (Sample.env [bindRecord, rebindRecord]) ∧
        x.Mutates tenant "n").length = 2 := by
  decide +kernel

/-- A retry of the commit presents the same use and takes no revision. -/
theorem retried_commit_once :
    {p : ℕ × TenantId × String × ℕ | ∃ x,
      (exchanges (Sample.env [bindRecord]) (uploadBound ++ [putCommit "3" manifest])
        World.empty)[p.1]? = some x ∧
        p.2 ∈ x.revisionsUnder (Sample.env [bindRecord]) bindUse}.Subsingleton :=
  (one_effect_per_use (Sample.env [bindRecord]) (uploadBound ++ [putCommit "3" manifest])
    World.empty (by decide +kernel) bindUse).1

end Sample

end Hsp
