import Hsp.Cdn.Server
import Hsp.Distribution.Versions
import Hsp.Auth.Permits
import Hsp.Prog.Guarantee

/-!
# What the origin answers

The parts of a request to the CDN when it runs alone, and what a successful read says about the
object and about the time it was made.

* `answer_of_key`, `answer_of_cid` : the bytes of an answer are those of the object that the key is
  bound to, or that has the identifier;
* `timely_of_answer` : a read that succeeds is made while the claims are valid.
-/

namespace Hsp.Cdn

open Hsp.Distribution

variable {α : Type}

/-! ### Running alone -/

section Run

variable {d : Deployment} (e : Edge)

/-- The edge after the clock has been read. -/
def Edge.ticked : Edge := { e with server := e.server.ticked }

theorem run_originate (p : Prog serverSig α) :
    (originate p).run (edgeAct d) e =
      ((p.run (act d) e.server).1, { e with server := (p.run (act d) e.server).2 }) := by
  induction p generalizing e with
  | ret a => rfl
  | op o k ih => exact ih _ _

theorem runE_fromOrigin (x : Distribution.Dist α) :
    runE (edgeAct d) (fromOrigin x) e =
      ((runE (act d) x e.server).1, { e with server := (runE (act d) x e.server).2 }) :=
  run_originate e x.run

@[simp] theorem runE_checked (x : Except ApiError α) :
    runE (edgeAct d) (checked x) e = (x, e) := rfl

theorem checked_ok {x : Except ApiError α} {a : α} {e e' : Edge}
    (h : runE (edgeAct d) (checked x) e = (.ok a, e')) : x = .ok a ∧ e = e' :=
  Prod.mk.inj h

@[simp] theorem runE_clock :
    runE (edgeAct d) clock e = (.ok (d.clock e.server.alpha.tick), e.ticked) := rfl

@[simp] theorem runE_fresh (fetch : Fetch) (key : String) (now : ℕ) :
    runE (edgeAct d) (fresh fetch key now) e = (.ok (e.fresh key now), e) := rfl

end Run

/-! ### The object of an answer -/

/-- These are bytes of the object with an identifier: a range of them, or its plaintext. -/
def BytesOf (d : Deployment) (t : TenantId) (cid : String) (body : List UInt8) : Prop :=
  ∃ (m : Manifest) (chunks : List (List UInt8)), m.Contents d.toEnv chunks ∧
    m.manifestCid d.toEnv = cid ∧
    ((∃ range, body = m.content range chunks) ∨
      (openBody d t m (m.content none chunks)).run = .ret (.ok body))

section Object

variable {d : Deployment} {s s' : Server} {auth : AuthContext} {request : GetObjectRequest}
  {response : GetObjectResponse}

theorem bytesOf_of_answered {m : Manifest} {chunks : List (List UInt8)}
    (h : request.AnsweredWith d response m chunks) :
    BytesOf d request.tenantId (m.manifestCid d.toEnv) response.body := by
  refine ⟨m, chunks, h.contents, rfl, ?_⟩
  cases hplain : request.preferPlaintext with
  | false => exact .inl ⟨_, (h.ciphertext hplain).1⟩
  | true => exact .inr (h.plaintext hplain).1

theorem getObject_inquires (d : Deployment) (auth : AuthContext) (request : GetObjectRequest) :
    Within [] Call.Inquires (Distribution.getObject d auth request) :=
  Within.getObject auth (fun _ h => h) request

theorem getObject_registers (d : Deployment) (auth : AuthContext) (request : GetObjectRequest) :
    OnlyE (Action.Registers d) (Distribution.getObject d auth request) :=
  Registered.of_within (getObject_inquires d auth request) (by decide)

theorem answer_alone (hs : Distribution.Sound d s) {object : String}
    (hnames : request.bucket.isSome ∧ request.key.isSome ∨
      request.bucket = none ∧ request.key = none ∧ request.cid = some object)
    (hsteady : ∀ place ∈ request.place,
      s.alpha.objectAt request.tenantId place.1 place.2 = none ∨
        s.alpha.objectAt request.tenantId place.1 place.2 = some object)
    (h : runE (act d) (Distribution.getObject d auth request) s = (.ok response, s')) :
    ∃ m chunks, m.manifestCid d.toEnv = object ∧ request.AnsweredWith d response m chunks := by
  have hyields : Yields (act d) (Between d request object) _
      (Distribution.getObject d auth request) := getObject_yields hnames
  have hkeeps (o : Action) (s' : Server) (ho : o.Registers d ∧ o.Within [] Call.Inquires)
      (hI : Distribution.Sound d s' ∧ SameNamespaces s.alpha s'.alpha) :
      Distribution.Sound d (act d o s').2 ∧ SameNamespaces s.alpha (act d o s').2.alpha :=
    ⟨hI.1.act ho.1, hI.2.trans (ho.2.sameOn s').sameNamespaces⟩
  have hbetween (o : Action) (s' : Server)
      (hI : Distribution.Sound d s' ∧ SameNamespaces s.alpha s'.alpha) :
      Between d request object o s' s' := by
    refine ⟨hI.1, ?_⟩
    cases o with
    | own o => trivial
    | call c =>
      intro place hplace
      rw [hI.2.objectAt]
      exact hsteady place hplace
  have honly := (getObject_registers d auth request).and (getObject_inquires d auth request)
  have hpost := Prog.Safe.alone hkeeps hbetween honly ⟨hs, .refl _⟩ (hyields s trivial)
  rw [← runE, h] at hpost
  exact hpost

/-- **A read of a key** is answered with bytes of the object that the key is bound to. -/
theorem answer_of_key (hs : Distribution.Sound d s) (hbucket : request.bucket.isSome)
    (hkey : request.key.isSome)
    (h : runE (act d) (Distribution.getObject d auth request) s = (.ok response, s')) :
    ∃ place cid, request.place = some place ∧
      s.alpha.objectAt request.tenantId place.1 place.2 = some cid ∧
      (∀ c ∈ request.cid, c = cid) ∧ BytesOf d request.tenantId cid response.body := by
  -- A key that is bound to nothing would be bound to any object.
  have hbound : ∃ place cid, request.place = some place ∧
      s.alpha.objectAt request.tenantId place.1 place.2 = some cid := by
    by_contra hnone
    have hany (object : String) : response.head.cid = object := by
      obtain ⟨m, chunks, hobject, hanswered⟩ := answer_alone hs (.inl ⟨hbucket, hkey⟩)
        (fun place hplace => .inl (Option.eq_none_iff_forall_ne_some.2 fun cid hcid =>
          hnone ⟨place, cid, hplace, hcid⟩)) h
      exact hanswered.cid.trans hobject
    exact absurd ((hany "").symm.trans (hany "x")) (by decide)
  obtain ⟨place, cid, hplace, hcid⟩ := hbound
  obtain ⟨m, chunks, rfl, hanswered⟩ := answer_alone hs (.inl ⟨hbucket, hkey⟩)
    (fun place' hplace' => .inr (by
      obtain rfl := Option.some.inj (hplace.symm.trans hplace')
      exact hcid)) h
  exact ⟨place, _, hplace, hcid, hanswered.requested, bytesOf_of_answered hanswered⟩

/-- **A read by an identifier** is answered with bytes of the object that has it. -/
theorem answer_of_cid (hs : Distribution.Sound d s) {cid : String} (hcid : request.cid = some cid)
    (hnames : request.bucket.isSome ∧ request.key.isSome ∨
      request.bucket = none ∧ request.key = none)
    (h : runE (act d) (Distribution.getObject d auth request) s = (.ok response, s')) :
    BytesOf d request.tenantId cid response.body := by
  rcases hnames with ⟨hbucket, hkey⟩ | ⟨hbucket, hkey⟩
  · obtain ⟨_, _, _, _, hrequested, hbytes⟩ := answer_of_key hs hbucket hkey h
    rwa [hrequested cid hcid]
  · have hplace : request.place = none := by simp [GetObjectRequest.place, hbucket]
    obtain ⟨m, chunks, rfl, hanswered⟩ := answer_alone hs (.inr ⟨hbucket, hkey, hcid⟩)
      (fun place hmem => absurd (hplace.symm.trans hmem) (by simp)) h
    exact bytesOf_of_answered hanswered

end Object

/-! ### The time of an answer -/

theorem timely_of_get {env : Env} {w w' : World} {auth : AuthContext} {request : GetRequest}
    {response : GetResponse}
    (h : runE (exec env) (Hsp.get env auth request) w = (.ok response, w')) :
    validateTimeWindow (env.clock w.tick) auth.claims = .ok () := by
  obtain ⟨_, _, hselector, h⟩ := runE_bind_eq_ok _ h
  obtain rfl : w = _ := congrArg Prod.snd hselector
  obtain ⟨_, _, hrange, h⟩ := runE_bind_eq_ok _ h
  obtain rfl : w = _ := congrArg Prod.snd hrange
  obtain ⟨resolution, _, hresolution, h⟩ := runE_bind_eq_ok _ h
  obtain rfl := (selectorResolution_ok hresolution).1
  obtain ⟨decision, w₁, hauth, h⟩ := runE_bind_eq_ok _ h
  cases hclaims : checkClaims (env.clock w.tick) auth
      (readMeta .get request.tenantId resolution) with
  | error reason =>
    rw [runE_authorize_denied hclaims] at hauth
    cases hauth
  | ok _ => exact (checkClaims_eq_ok.1 hclaims).time

/-- **A read that succeeds is made while the claims are valid.** -/
theorem timely_of_answer {d : Deployment} {s s' : Server} {auth : AuthContext}
    {request : GetObjectRequest} {response : GetObjectResponse}
    (h : runE (act d) (Distribution.getObject d auth request) s = (.ok response, s')) :
    ∃ n, s.alpha.tick ≤ n ∧ validateTimeWindow (d.clock n) auth.claims = .ok () := by
  obtain ⟨_, s₁, hprofile, h⟩ := runE_bind_eq_ok _ h
  obtain rfl : s = s₁ := congrArg Prod.snd hprofile
  obtain ⟨_, s₂, htenant, h⟩ := runE_bind_eq_ok _ h
  obtain rfl : s = s₂ := congrArg Prod.snd htenant
  obtain ⟨⟨head, selector, immutable⟩, s₃, hhead, h⟩ := runE_bind_eq_ok _ h
  have htick := tick_le_run (d := d) (readHead auth request).run s
  rw [← runE, hhead] at htick
  obtain ⟨_, s₄, hcheck, h⟩ := runE_bind_eq_ok _ h
  obtain rfl : s₃ = s₄ := congrArg Prod.snd hcheck
  obtain ⟨got, s₅, hget, -⟩ := runE_bind_eq_ok _ h
  exact ⟨s₃.alpha.tick, htick, timely_of_get (callAlpha_ok hget).1⟩

end Hsp.Cdn
