import Hsp.Prog.Cluster
import Hsp.Service.Handled
import Hsp.Sample.Basic

/-!
# Servers that share a store

Several servers work on one store.  Each has a replay cache of its own, which is empty again after
a restart; the replay records in the store are what they have in common.  A `Cluster` is the store
with the caches.

* `fresh_at_most_once` : however the authorizations of the servers interleave, at most one of those
  for a use of a token is decided fresh;
* `acts_of_call` : a call at one of the servers is a sequence of authorizations and changes;
* `retry_recognised_iff` : a retry is recognised by the servers whose cache does not hold another
  idempotency key for the use.
-/

namespace Hsp

open Protocol

variable {α : Type}

/-- Servers with a common store and a replay cache each. -/
structure Cluster (μ : Type) where
  store : Store
  seen : μ → ReplayCache
  tick : ℕ

variable {μ : Type} [DecidableEq μ]

namespace Cluster

/-- The world as a server sees it. -/
def view (c : Cluster μ) (m : μ) : World := ⟨c.store, c.seen m, c.tick⟩

/-- The cluster after a server has changed its world. -/
def put (c : Cluster μ) (m : μ) (w : World) : Cluster μ :=
  ⟨w.store, Function.update c.seen m w.seen, w.tick⟩

@[simp] theorem view_put (c : Cluster μ) (m : μ) (w : World) : (c.put m w).view m = w := by
  simp [view, put]

@[simp] theorem put_put (c : Cluster μ) (m : μ) (w w' : World) :
    (c.put m w).put m w' = c.put m w' := by
  simp [put]

@[simp] theorem put_view (c : Cluster μ) (m : μ) : c.put m (c.view m) = c := by
  simp [view, put]

/-- The operations of a server. -/
def exec (env : Env) (m : μ) (o : Op) (c : Cluster μ) : Res o × Cluster μ :=
  ((Hsp.exec env o (c.view m)).1, c.put m (Hsp.exec env o (c.view m)).2)

/-- A program that runs alone on a server runs as it does in the world of that server. -/
theorem runE_exec (env : Env) (m : μ) (x : Svc α) (c : Cluster μ) :
    runE (exec env m) x c =
      ((runE (Hsp.exec env) x (c.view m)).1,
        c.put m (runE (Hsp.exec env) x (c.view m)).2) := by
  have hrun {β : Type} (p : Prog storeSig β) : ∀ c : Cluster μ, p.run (exec env m) c =
      ((p.run (Hsp.exec env) (c.view m)).1, c.put m (p.run (Hsp.exec env) (c.view m)).2) := by
    induction p with
    | ret a =>
      intro c
      simp
    | op o k ih =>
      intro c
      simp only [Prog.run_op, exec, ih, view_put, put_put]
  exact hrun x.run c

end Cluster

/-! ### What happens between authorizations -/

/-- What can happen to a cluster beside authorization. -/
inductive Disturbance (μ : Type) where
  /-- A server is restarted. -/
  | restart (m : μ)
  /-- An entry that is no replay record changes. -/
  | change (l : Loc) (hl : l.isReplay = false) (v : Option (Val l))
  /-- Somebody reads the clock. -/
  | wait

def Disturbance.apply : Disturbance μ → Cluster μ → Cluster μ
  | .restart m, c => { c with seen := Function.update c.seen m fun _ => none }
  | .change l _ v, c => { c with store := Function.update c.store l v }
  | .wait, c => { c with tick := c.tick + 1 }

theorem Disturbance.replay_apply (d : Disturbance μ) (c : Cluster μ) (t : TenantId) (key : String) :
    (d.apply c).store (.replay t key) = c.store (.replay t key) := by
  cases d with
  | change l hl v =>
    have hne : Loc.replay t key ≠ l := by rintro rfl; cases hl
    exact Function.update_of_ne hne ..
  | _ => rfl

/-! ### Who creates an entry -/

/-- The operation has created the entry. -/
def Op.Creates (l : Loc) : (o : Op) → Res o → Prop
  | .create l' _, r => l' = l ∧ r = .ok true
  | _, _ => False

/-- The operation does not write to the entry, unless it creates it. -/
def Op.Keeps (l : Loc) : Op → Prop
  | .write l' _ | .delete l' => l' ≠ l
  | _ => True

/-- The protocol of programs that may create an entry and leave it alone otherwise.  The stage of a
program says whether it has created the entry. -/
@[reducible] def creationProtocol (l : Loc) : Protocol storeSig where
  Stage := Prop
  Legal o r := ¬ o.Failed r
  Step created o r created' := o.Keeps l ∧ created' = (created ∨ o.Creates l r)

/-- Once the entry has been created it is there, and only one program has created it. -/
structure CreatedOnce {ι : Type} (l : Loc) (created : ι → Prop) (store : Store) : Prop where
  present : ∀ i, created i → (store l).isSome
  unique : ∀ i j, created i → created j → i = j

/-- **A turn of a program that may create the entry.** -/
theorem CreatedOnce.step {ι : Type} [DecidableEq ι] {env : Env} {l : Loc} {created : ι → Prop}
    {w : World} (h : CreatedOnce l created w.store) {i : ι} {o : Op} {created' : Prop}
    (hst : (creationProtocol l).Step (created i) o (Hsp.exec env o w).1 created') :
    CreatedOnce l (Function.update created i created') (Hsp.exec env o w).2.store := by
  obtain ⟨hkeeps, rfl⟩ := hst
  have hpresent : (w.store l).isSome → ((Hsp.exec env o w).2.store l).isSome := by
    intro hw
    refine isSome_exec hw ?_
    rintro rfl
    exact hkeeps rfl
  by_cases hcreates : o.Creates l (Hsp.exec env o w).1
  · -- The entry was not there, so nobody has created it before.
    have habsent : w.store l = none ∧ ((Hsp.exec env o w).2.store l).isSome := by
      cases o with
      | create l' v =>
        obtain ⟨rfl, hr⟩ := hcreates
        cases hw : w.store l' with
        | some old => simp [Hsp.exec, hw] at hr
        | none => simp [Hsp.exec, hw]
      | _ => exact hcreates.elim
    have hnone (j : ι) : ¬ created j := by
      intro hj
      have := h.present j hj
      simp [habsent.1] at this
    have honly (p : Prop) (j : ι) (hj : Function.update created i p j) : j = i := by
      by_contra hne
      rw [Function.update_of_ne hne] at hj
      exact hnone j hj
    exact ⟨fun _ _ => habsent.2, fun j k hj hk => (honly _ j hj).trans (honly _ k hk).symm⟩
  · have hsame : Function.update created i (created i ∨ o.Creates l (Hsp.exec env o w).1) =
        created := by
      funext j
      by_cases hj : j = i
      · subst hj
        simp [hcreates]
      · simp [hj]
    rw [hsame]
    exact ⟨fun j hj => hpresent (h.present j hj), h.unique⟩

/-- A program that leaves the entry alone does not create it. -/
theorem Aside.not_creates {l : Loc} {E : ApiError → Prop} {x : Svc α}
    (h : Aside (fun l' => l' = l) E x) (created : Prop) :
    (creationProtocol l).FollowsE x created (fun _ s => s = created) fun _ _ => True := by
  refine (FollowsE.simulation (P := asideProtocol fun l' => decide (l' = l))
    (T := creationProtocol l) (R := fun _ s => s = created) (fun _ _ hr => hr) ?_ h rfl).mono
    (fun _ _ ⟨_, _, hs⟩ => hs) fun _ _ _ => trivial
  rintro _ o r _ _ rfl ho
  refine ⟨_, ⟨?_, rfl⟩, ?_⟩
  · cases o with
    | write l' v => exact of_decide_eq_false ho
    | delete l' => exact of_decide_eq_false ho
    | _ => trivial
  · have hno : ¬ o.Creates l r := by
      cases o with
      | create l' v => exact fun hc => of_decide_eq_false ho hc.1
      | _ => exact id
    simp [hno]

section Authorization

variable (env : Env) (auth : AuthContext) (req : AuthRequestMeta) (u : TokenUse)

theorem follows_deny_creation (reason : DenialReason) (created : Prop)
    (Q : AuthorizationDecision → Prop → Prop) :
    (creationProtocol (u.loc env)).FollowsE (deny req reason) created Q fun _ _ => True := by
  have herror : Aside (fun l => l = u.loc env) (fun _ => True)
      (authorizationDeniedApiError req reason) :=
    .authorizationDeniedApiError (by simp) (by simp) reason
  exact FollowsE.bind ((herror.not_creates created).mono (fun _ _ _ => trivial) fun _ _ h => h)

theorem follows_policyAuthorize_creation :
    (creationProtocol (u.loc env)).FollowsE (ε := ApiError)
      (ExceptT.lift (policyAuthorize auth req)) False (fun _ created => created = False)
      fun _ _ => True := by
  refine FollowsE.lift (Follows.bind (Follows.perform fun now _ => ⟨_, ⟨trivial, rfl⟩, ?_⟩))
  cases checkClaims now auth req with
  | error reason => simp [Follows, Op.Creates]
  | ok _ =>
    cases auth.claims.jti with
    | none => simp [Follows, Op.Creates]
    | some jti =>
      dsimp only
      split
      · simp [Follows, Op.Creates]
      · refine Follows.bind (Follows.perform fun _ _ => ⟨_, ⟨trivial, rfl⟩, ?_⟩)
        simp [Follows, Op.Creates]

/-- The decision stands if the record could be created; otherwise it becomes a retry, or the request
is denied. -/
theorem follows_observeDurableReplay_creation (decision : AuthorizationDecision) :
    (creationProtocol (u.loc env)).FollowsE (observeDurableReplay env auth req decision) False
      (fun decision created => tokenUse auth req = some u → decision = ⟨.fresh⟩ → created)
      fun _ _ => True := by
  unfold observeDurableReplay
  split
  · rename_i hmut
    refine FollowsE.pure fun hu _ => ?_
    simp only [tokenUse] at hu
    simp_all
  · cases hjti : auth.claims.jti with
    | none =>
      refine FollowsE.pure fun hu _ => ?_
      simp [tokenUse, hjti] at hu
    | some jti =>
      have hnow := (Aside.nowMs (D := fun l => l = u.loc env) (E := fun _ => True)).not_creates
        False
      refine hnow.andThen ?_
      rintro observedAtMs _ rfl
      refine FollowsE.bind (Follows.perform fun r hr => ⟨_, ⟨trivial, rfl⟩, ?_⟩)
      rcases r with e | _ | _
      · trivial
      · have hread := Aside.readEncryptedJson (D := fun l => l = u.loc env) (E := fun _ => True)
          (.replay req.tenantId (replayKey env req.tenantId jti req.operation req.subject))
        refine (hread.not_creates _).andThen ?_
        rintro existing _ rfl
        cases existing with
        | none => trivial
        | some existing =>
          dsimp only
          split
          · exact FollowsE.pure fun _ h => by cases h
          · exact follows_deny_creation env req u _ _ _
      · refine FollowsE.pure fun hu _ => .inr ⟨?_, rfl⟩
        obtain ⟨-, hj, hu⟩ := tokenUse_eq_some.1 hu
        rw [hjti, Option.some.injEq] at hj
        rw [TokenUse.loc, hu, ← hj]

/-- **Authorization that says fresh has created the record of the use.** -/
theorem follows_authorize_creation :
    (creationProtocol (u.loc env)).FollowsE (authorize env auth req) False
      (fun decision created => tokenUse auth req = some u → decision = ⟨.fresh⟩ → created)
      fun _ _ => True := by
  refine (follows_policyAuthorize_creation env auth req u).andThen ?_
  rintro result _ rfl
  cases result with
  | error reason => exact follows_deny_creation env req u reason _ _
  | ok decision => exact follows_observeDurableReplay_creation env auth req u decision

end Authorization

/-! ### Interleaved authorizations -/

/-- A request for authorization, at one of the servers. -/
structure AuthCall (μ : Type) where
  server : μ
  auth : AuthContext
  req : AuthRequestMeta

section Interleaved

variable {ι : Type} [DecidableEq ι]

/-- The requests before any of them has been handled. -/
def requested (env : Env) (calls : ι → AuthCall μ) (c : Cluster μ) :
    Pool ι storeSig (Except ApiError AuthorizationDecision) (Cluster μ) :=
  ⟨fun i => (authorize env (calls i).auth (calls i).req).run, c⟩

/-- The servers handle the requests, interleaved operation by operation. -/
def authorizing (env : Env) (calls : ι → AuthCall μ) (c : Cluster μ)
    (happenings : List (Happening ι (Disturbance μ))) :
    Pool ι storeSig (Except ApiError AuthorizationDecision) (Cluster μ) :=
  (requested env calls c).runWith (fun i => Cluster.exec env (calls i).server) Disturbance.apply
    happenings

/-- **At most one authorization for a use of a token is decided fresh**, whatever the caches hold
and however the operations of the servers interleave. -/
theorem fresh_at_most_once (env : Env) (calls : ι → AuthCall μ) (c : Cluster μ)
    (happenings : List (Happening ι (Disturbance μ))) (u : TokenUse) :
    {i | tokenUse (calls i).auth (calls i).req = some u ∧
      ((authorizing env calls c happenings).threads i).result? =
        some (.ok ⟨.fresh⟩)}.Subsingleton := by
  -- What a program of the pool knows when it has returned.
  let Q (i : ι) := (creationProtocol (u.loc env)).post (ε := ApiError)
    (fun (decision : AuthorizationDecision) created =>
      tokenUse (calls i).auth (calls i).req = some u → decision = ⟨.fresh⟩ → created)
    fun _ _ => True
  have hstart : (requested env calls c).Follows (creationProtocol (u.loc env)) Q fun _ => False :=
    fun i => follows_authorize_creation env (calls i).auth (calls i).req u
  have hnobody : CreatedOnce (u.loc env) (fun _ : ι => False) (requested env calls c).state.store :=
    ⟨fun _ h => h.elim, fun _ _ h => h.elim⟩
  have hinv : ∃ created, (authorizing env calls c happenings).Follows _ Q created ∧
      CreatedOnce (u.loc env) created (authorizing env calls c happenings).state.store := by
    refine Pool.runWith_invariant (I := fun created c => CreatedOnce (u.loc env) created c.store)
      ?_ ?_ ?_ hstart hnobody happenings
    · exact fun i o c => not_failed_exec env o (c.view (calls i).server)
    · exact fun _ c i _ _ h hst => h.step (w := c.view (calls i).server) hst
    · exact fun _ c d h => ⟨fun i hi => by rw [d.replay_apply]; exact h.present i hi, h.unique⟩
  obtain ⟨created, hfollows, honce⟩ := hinv
  have hcreated (i : ι) (hu : tokenUse (calls i).auth (calls i).req = some u)
      (hi : ((authorizing env calls c happenings).threads i).result? = some (.ok ⟨.fresh⟩)) :
      created i := by
    have hpost := hfollows i
    cases hthread : (authorizing env calls c happenings).threads i with
    | op o k => simp [hthread, Prog.result?] at hi
    | ret result =>
      rw [hthread, Prog.result?, Option.some.injEq] at hi
      rw [hthread, hi] at hpost
      exact hpost hu rfl
  rintro i ⟨hui, hi⟩ j ⟨huj, hj⟩
  exact honce.unique i j (hcreated i hui hi) (hcreated j huj hj)

end Interleaved

/-! ### One authorization after another -/

/-- A server authorizes a request. -/
def AuthCall.perform (env : Env) (a : AuthCall μ) (c : Cluster μ) :
    Except ApiError AuthorizationDecision × Cluster μ :=
  Prog.runE (Cluster.exec env a.server) (authorize env a.auth a.req) c

/-- A server authorizes a request, or something else happens. -/
inductive Act (μ : Type) where
  | authorize (a : AuthCall μ)
  | disturbance (d : Disturbance μ)

/-- The cluster after an act. -/
def Act.perform (env : Env) : Act μ → Cluster μ → Cluster μ
  | .authorize a, c => (a.perform env c).2
  | .disturbance d, c => d.apply c

/-- The cluster after a sequence of acts. -/
def runActs (env : Env) (acts : List (Act μ)) (c : Cluster μ) : Cluster μ :=
  acts.foldl (fun c act => act.perform env c) c

section Acts

variable {env : Env} {c : Cluster μ}

theorem runActs_append (xs ys : List (Act μ)) (c : Cluster μ) :
    runActs env (xs ++ ys) c = runActs env ys (runActs env xs c) := by
  simp [runActs]

/-- What a request for a tenant does at a server: it has its own token authorized, and changes
entries of the tenant. -/
def Act.Of (m : μ) (auth : AuthContext) (t : TenantId) : Act μ → Prop
  | .authorize a => a.server = m ∧ a.auth = auth ∧ a.req.tenantId = t
  | .disturbance (.change l _ _) => l.tenantId = t
  | .disturbance .wait => True
  | .disturbance (.restart _) => False

variable {m : μ} {auth : AuthContext} {t : TenantId}

/-- One operation of a server is one disturbance. -/
theorem acts_of_disturbance {x : Svc α} {d : Disturbance μ} (hof : (Act.disturbance d).Of m auth t)
    (hd : c.put m (runE (exec env) x (c.view m)).2 = d.apply c) :
    ∃ acts : List (Act μ), (∀ act ∈ acts, act.Of m auth t) ∧
      (runE (Cluster.exec env m) x c).2 = runActs env acts c := by
  refine ⟨[.disturbance d], List.forall_mem_singleton.2 hof, ?_⟩
  rw [Cluster.runE_exec]
  exact hd

/-- **A request is a sequence of acts**: its authorizations, and what it does between them. -/
theorem Handled.acts {E : EventType → Prop} {W : Loc → Prop}
    (hW : ∀ l, W l → l.tenantId = t ∧ l.isTrace = false) {α : Type} {x : Svc α}
    (h : Handled env auth t E W x) (c : Cluster μ) :
    ∃ acts : List (Act μ), (∀ act ∈ acts, act.Of m auth t) ∧
      (runE (Cluster.exec env m) x c).2 = runActs env acts c := by
  induction h generalizing c with
  | pure a => exact ⟨[], by simp, rfl⟩
  | throw e => exact ⟨[], by simp, rfl⟩
  | bind _ _ hx hf =>
    obtain ⟨first, hof, hfirst⟩ := hx c
    rw [Prog.runE_bind]
    split
    · rename_i a c' hrun
      obtain ⟨second, hof', hsecond⟩ := hf a c'
      rw [hrun] at hfirst
      refine ⟨first ++ second, List.forall_mem_append.2 ⟨hof, hof'⟩, ?_⟩
      rw [hsecond, runActs_append, ← hfirst]
    · rename_i e c' hrun
      rw [hrun] at hfirst
      exact ⟨first, hof, hfirst⟩
  | attempt _ hx =>
    obtain ⟨acts, hof, hacts⟩ := hx c
    exact ⟨acts, hof, by rw [runE_attempt, hacts]⟩
  | nowMs =>
    refine acts_of_disturbance (d := .wait) trivial ?_
    simp [Cluster.put, Cluster.view, Disturbance.apply]
  | storeExists l => exact ⟨[], by simp, by simp [Cluster.runE_exec, runActs]⟩
  | readEncryptedJson l => exact ⟨[], by simp, by simp [Cluster.runE_exec, runActs]⟩
  | @writeEncryptedJson l v hl =>
    refine acts_of_disturbance (d := .change l (isReplay_of_isTrace (hW l hl).2) (some v))
      (hW l hl).1 ?_
    simp [Cluster.put, Cluster.view, Disturbance.apply, World.set]
  | @deleteManifest cid _ =>
    refine acts_of_disturbance (d := .change (.manifests t cid) rfl none) rfl ?_
    change c.put m ((c.view m).set _ none) = _
    simp [Cluster.put, Cluster.view, Disturbance.apply, World.set]
  | @appendEvent e _ =>
    let seq := (c.view m).nextSeq t
    refine ⟨[.disturbance (.change (.eventSequence t) rfl (some ⟨seq + 1⟩)),
      .disturbance (.change (.event t seq) rfl (some { e with seq }))], ?_, ?_⟩
    · simp [Act.Of, Loc.tenantId]
    · rw [Cluster.runE_exec, runE_appendEvent]
      simp [Cluster.put, Cluster.view, runActs, Act.perform, Disturbance.apply, World.set,
        World.logged, seq]
  | @authorize req ht =>
    exact ⟨[.authorize ⟨m, auth, req⟩], List.forall_mem_singleton.2 ⟨rfl, rfl, ht⟩, rfl⟩

/-- **A call at a server is a sequence of acts** of its own: authorizations of its token, and
changes of entries of its tenant that are no replay records. -/
theorem acts_of_call (env : Env) (call : Call) (m : μ) (c : Cluster μ) :
    ∃ acts : List (Act μ), (∀ act ∈ acts, act.Of m call.auth call.tenantId) ∧
      (runE (Cluster.exec env m) (call.handle env) c).2 = runActs env acts c :=
  (call.handled env).acts (fun _ h => h) c

/-! ### Retries -/

theorem Act.replay_perform {t : TenantId} {key : String} {r : ReplayRecord} (act : Act μ)
    (h : c.store (.replay t key) = some r) :
    (act.perform env c).store (.replay t key) = some r := by
  cases act with
  | authorize a =>
    have hremembers : Remembers (c.view a.server)
        (runE (exec env) (Hsp.authorize env a.auth a.req) (c.view a.server)).2 :=
      (Remembers.respected (E := fun _ => False) (W := fun _ => False) nofun).authorize rfl _
    rw [Act.perform, AuthCall.perform, Cluster.runE_exec]
    exact hremembers.replay t key r h
  | disturbance d =>
    rw [Act.perform, d.replay_apply]
    exact h

theorem replay_runActs {t : TenantId} {key : String} {r : ReplayRecord} (acts : List (Act μ))
    (h : c.store (.replay t key) = some r) :
    (runActs env acts c).store (.replay t key) = some r := by
  induction acts generalizing c with
  | nil => exact h
  | cons act acts ih => exact ih (act.replay_perform h)

theorem AuthCall.recorded {a : AuthCall μ} {u : TokenUse} {k : String}
    (hfresh : (a.perform env c).1 = .ok ⟨.fresh⟩) (hu : tokenUse a.auth a.req = some u)
    (hk : a.req.idempotencyKey = some k) :
    ∃ r : ReplayRecord, (a.perform env c).2.store (u.loc env) = some r ∧ r.idempotencyKey = k := by
  rw [AuthCall.perform, Cluster.runE_exec] at hfresh ⊢
  rcases authorize_ok (Prod.ext hfresh rfl) hu with ⟨-, atMs, hstore⟩ | ⟨_, -, -, hdecision, -⟩
  · refine ⟨replayRecord u a.req atMs, ?_, ?_⟩
    · dsimp only [Cluster.put]
      rw [hstore, World.set_store_self]
    · simp [replayRecord, hk]
  · cases hdecision

/-- **Retries are recognised by the servers that remember no other key.**  An authorization was
decided fresh under an idempotency key.  Later, whatever has happened in between, the same use of
the token under the same key is a retry for a server if and only if its cache does not hold another
key for the use. -/
theorem retry_recognised_iff (first retry : AuthCall μ) {u : TokenUse} {k : String}
    (hfirst : tokenUse first.auth first.req = some u)
    (hretry : tokenUse retry.auth retry.req = some u)
    (hkey : first.req.idempotencyKey = some k) (hkey' : retry.req.idempotencyKey = some k)
    (c₀ : Cluster μ) {c : Cluster μ} (hfresh : (first.perform env c₀).1 = .ok ⟨.fresh⟩)
    (between : List (Act μ)) (hc : c = runActs env between (first.perform env c₀).2)
    (hclaims : checkClaims (env.clock c.tick) retry.auth retry.req = .ok ()) :
    (retry.perform env c).1 = .ok ⟨.idempotentRetry⟩ ↔
      c.seen retry.server u.identity = none ∨ c.seen retry.server u.identity = some k := by
  obtain ⟨r, hr, rfl⟩ := AuthCall.recorded hfresh hfirst hkey
  have hlater : c.store (u.loc env) = some r := hc ▸ replay_runActs between hr
  rw [AuthCall.perform, Cluster.runE_exec]
  exact authorize_retry_iff hlater hretry hkey' hclaims

end Acts

namespace Sample

/-- Two servers that have just been set up. -/
def twoServers : Cluster Bool := ⟨fun _ => none, fun _ _ => none, 0⟩

/-- One of the servers is asked to bind the path, under an idempotency key. -/
def askToBind (server : Bool) (key : String) : AuthCall Bool where
  server := server
  auth := auth "1"
  req := {
    operation := .bind
    tenantId := tenant
    subject := "n:p"
    ns := some "n"
    path := some "p"
    idempotencyKey := some key }

/-- The two servers after the first was asked under the key `k`. -/
def asked : Except ApiError AuthorizationDecision × Cluster Bool :=
  (askToBind false "k").perform (env []) twoServers

/-- The second server recognises a retry. -/
theorem retry_recognised_elsewhere :
    ((askToBind true "k").perform (env []) asked.2).1 = .ok ⟨.idempotentRetry⟩ :=
  (retry_recognised_iff (askToBind false "k") (askToBind true "k")
    (u := ⟨tenant, "1", .bind, "n:p"⟩) (by decide) (by decide) rfl rfl twoServers
    (by decide +kernel) [] rfl (by decide +kernel)).2 (.inl (by decide +kernel))

/-- The second server rejects a use of the token under another key, and from then on it rejects the
retry, too. -/
theorem retry_rejected_elsewhere :
    asked.1 = .ok ⟨.fresh⟩ ∧
      ((askToBind true "other").perform (env []) asked.2).1 =
        .error (denialToApiError .replayDetected) ∧
      ((askToBind true "k").perform (env [])
        (runActs (env []) [.authorize (askToBind true "other")] asked.2)).1 =
        .error (denialToApiError .replayDetected) := by
  decide +kernel

end Sample

end Hsp
