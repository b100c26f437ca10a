import Hsp.Access.Scopes
import Hsp.Auth.Permits
import Hsp.Distribution.Calls
import Hsp.Object.Content
import Hsp.Prog.Upholds
import Hsp.Sample.Deployment

/-!
# Two layers of read permission

A read of an object is authorized twice.  `ensure_bucket_read_scope_for` of the distribution service
grants it to a caller with a read, list or write scope, and to any caller if the access control list
of the bucket or of the object says so.  Then the object is read through the `AlphaService`, whose
policy engine knows no lists and takes nothing but the read scope for a read.

The prefixes of a token are compared with the same names in both layers, so the scope is all they
disagree about:

* `permits_read` : what is left to require of the claims once the distribution service has granted
  the read;
* `unrefused_iff_read` : the `AlphaService` goes along exactly with those who have the read scope.
-/

namespace Hsp

open Except

variable {c : Call}

/-! ### What a read asks the policy engine -/

/-- The request that a call of a read puts to the policy engine, if it gets that far. -/
def Call.asks (env : Env) (w : World) : Call → Option AuthRequestMeta
  | .get _ request =>
    match request.selector.validate, validateRange request.range,
      (Prog.runE (exec env) (selectorResolution request.tenantId request.selector) w).1 with
    | .ok _, .ok _, .ok resolution => some (readMeta .get request.tenantId resolution)
    | _, _, _ => none
  | .resolve _ request =>
    match canonicalNamespaceAndPath request.ns request.path with
    | .ok (ns, path) => some (resolveMeta request.tenantId ns path)
    | .error _ => none
  | _ => none

/-- The policy engine refuses the call for a reason. -/
def Call.RefusedFor (env : Env) (w : World) (c : Call) (reason : DenialReason) : Prop :=
  ∃ req ∈ c.asks env w, checkClaims (env.clock w.tick) c.auth req = .error reason

/-- The caller is told of the reason. -/
theorem Call.RefusedFor.error {env : Env} {w : World} {reason : DenialReason}
    (h : c.RefusedFor env w reason) : (c.perform env w).1 = .error (denialToApiError reason) := by
  obtain ⟨req, hreq, hclaims⟩ := h
  have hdenied {α : Type} (f : AuthorizationDecision → Svc α) :
      (runE (exec env) (authorize env c.auth req >>= f) w).1 =
        .error (denialToApiError reason) := by
    rw [runE_bind_error _ (runE_authorize_denied hclaims)]
  cases c with
  | get auth request =>
    simp only [Call.asks] at hreq
    split at hreq
    case h_1 resolution hselector hrange hresolution =>
      cases hreq
      simp only [Call.perform, Call.handle, runE_map, Hsp.get, hselector, hrange,
        runE_ofExcept_bind]
      rcases hrun : runE (exec env) (selectorResolution request.tenantId request.selector) w with
        ⟨_, w₁⟩
      rw [hrun] at hresolution
      cases hresolution
      obtain rfl := (selectorResolution_ok hrun).1
      rw [runE_bind_ok _ hrun]
      exact congrArg (Except.map Reply.get) (hdenied _)
    case h_2 => cases hreq
  | resolve auth request =>
    simp only [Call.asks] at hreq
    split at hreq
    case h_1 ns path hnames =>
      cases hreq
      simp only [Call.perform, Call.handle, runE_map, Hsp.resolve, hnames, runE_ofExcept_bind]
      exact congrArg (Except.map Reply.resolve) (hdenied _)
    case h_2 => cases hreq
  | _ => cases hreq

namespace Distribution

open Hsp (Upholds)

variable {d : Deployment} {α β : Type} {request : GetObjectRequest} {selector : ObjectSelector}

/-- The policy engine of the `AlphaService` refuses the action. -/
def Refuses (d : Deployment) : Action → Server → Prop
  | .call c, s => ∃ reason, c.RefusedFor d.toEnv s.alpha reason
  | .own _, _ => False

/-- None of the calls the program makes is refused by the policy engine. -/
def Unrefused (d : Deployment) (x : Dist α) (s : Server) : Prop :=
  Prog.Always (act d) (fun o s => ¬ Refuses d o s) x.run s

/-- There is an object at a key of a bucket, and both have ASCII names. -/
structure ExistsAt (d : Deployment) (s : Server) (t : TenantId) (bucket key name k : String) :
    Prop where
  bucketName : canonicalBucketName bucket = .ok name
  keyName : canonicalObjectKeyName key = .ok k
  asciiBucket : ∀ c ∈ name.toList, IsAscii c
  asciiKey : ∀ c ∈ k.toList, IsAscii c
  registered : (s.lookup (bucketSlot t name)).isSome
  selects : (keySelector name k).validate = .ok ()
  resolves : ∃ resolution, (Prog.runE (exec d.toEnv)
    (selectorResolution t (keySelector name k)) s.alpha).1 = .ok resolution

theorem ExistsAt.again {s : Server} {t : TenantId} {bucket key name k : String}
    (h : ExistsAt d s t bucket key name k) (ns path : String)
    (hcanon : canonicalNamespaceAndPath name k = .ok (ns, path)) : ns = name ∧ path = k := by
  obtain ⟨hns, hpath⟩ := canonicalNamespaceAndPath_ok hcanon
  have hname : canonicalPath bucket = .ok name := by
    have := h.bucketName
    rw [canonicalBucketName] at this
    split at this
    · cases this
    · split at this
      · cases this
      · rename_i hcanonical
        split at this
        · cases this
        · cases this
          exact hcanonical
  have hkey : canonicalPath key = .ok k := by
    have := h.keyName
    rw [canonicalObjectKeyName] at this
    split at this
    · cases this
    · rename_i hcanonical
      cases this
      exact hcanonical
  exact ⟨canonicalPath_again hname h.asciiBucket hns, canonicalPath_again hkey h.asciiKey hpath⟩

/-! ### What is left to require -/

section Requirements

variable {auth : AuthContext} {t : TenantId} {name k : String} {s : Server} {req : AuthRequestMeta}

/-- What the distribution service has checked when it grants a read. -/
theorem scope_of_granted {s' : Server}
    (h : runE (act d) (ensureBucketReadScopeFor auth t name (some k)) s = (.ok (), s')) :
    auth.claims.tenantId = t ∧ ensureBucketScopeMatches auth (some name) (some k) = .ok () ∧
      s' = s := by
  rw [ensureBucketReadScopeFor, Prog.runE_bind, runE_ofExcept] at h
  cases htenant : ensureTenantMatches auth t with
  | error e => rw [htenant] at h; cases h
  | ok _ =>
    have heq : auth.claims.tenantId = t := by
      by_contra hne
      rw [ensureTenantMatches, if_pos hne] at htenant
      cases htenant
    refine ⟨heq, ?_⟩
    rw [htenant] at h
    dsimp only at h
    split at h
    · exact ⟨congrArg Prod.fst h, (congrArg Prod.snd h).symm⟩
    · rw [runE_read_bind] at h
      split at h
      · exact ⟨congrArg Prod.fst h, (congrArg Prod.snd h).symm⟩
      · rw [objectAclAllowsRead, Prog.runE_bind, runE_bind_ok _
          (runE_readEncryptedJson d s _), Prog.runE_pure] at h
        dsimp only at h
        split at h
        · exact ⟨congrArg Prod.fst h, (congrArg Prod.snd h).symm⟩
        · cases h

/-- A request of a read that names the bucket and the key. -/
structure Reads (req : AuthRequestMeta) (t : TenantId) (name k : String) :
    Prop where
  operation : req.operation = .get ∨ req.operation = .resolve
  tenant : req.tenantId = t
  ns : req.ns = some name
  path : req.path = some k
  rest : req.contentSize = none ∧ req.storageClass = none ∧ req.keyPolicyId = none ∧
    req.metadataVisibility = none

theorem checkScope_of_ensureScope {scope : Option String} {mismatch : ApiError}
    (reason : DenialReason) (h : ensureScope scope (some name) mismatch = .ok ()) :
    checkScope scope (some name) reason = .ok () := by
  cases scope with
  | none => rfl
  | some scope =>
    simp only [ensureScope] at h
    split at h
    · rename_i hmatch
      simp [checkScope, hmatch, pure, Except.pure]
    · cases h

/-- What a read is refused for, if not for its scopes. -/
theorem permits_query {now : ℕ} (hoperation : req.operation = .get ∨ req.operation = .resolve)
    (htenant : auth.claims.tenantId = req.tenantId)
    (hrest : req.contentSize = none ∧ req.storageClass = none ∧ req.keyPolicyId = none ∧
      req.metadataVisibility = none)
    (hpath : checkScope auth.claims.pathPrefix req.path .pathScopeMismatch = .ok ())
    (hns : checkScope auth.claims.namespacePrefix req.ns .namespaceScopeMismatch = .ok ())
    (htime : validateTimeWindow now auth.claims = .ok ()) :
    Permits now auth req ↔ .read ∈ auth.claims.ops := by
  have hops : auth.claims.ops.any (scopeMatchesOperation · req.operation) ↔
      .read ∈ auth.claims.ops := by
    rcases hoperation with h | h <;> simp [h, scopeMatchesOperation]
  rw [← hops]
  refine ⟨fun h => h.scope, fun hread => ?_⟩
  have hmut : req.operation.isMutation = false := by
    rcases hoperation with h | h <;> rw [h] <;> rfl
  have hcrypto : operationRequiresObjectCrypto req.operation = false := by
    rcases hoperation with h | h <;> rw [h] <;> rfl
  obtain ⟨hsize, hclass, hkey, hvisible⟩ := hrest
  refine ⟨htime, htenant, hread, ?_, ?_, ?_, ?_, ?_, ?_, hpath, hns, ?_, ?_⟩
  · simp [hmut]
  · simp [hcrypto]
  · simp [hcrypto]
  · simp [hmut]
  · rw [hkey]
    cases auth.claims.keyPolicyId <;> rfl
  · rw [hvisible]
    cases auth.claims.metadataVisibility <;> rfl
  · simp [CapabilityClaims.AllowsSize, hsize]
  · simp [CapabilityClaims.AllowsStorageClass, hclass]

/-- **The read scope is all that is left to require.** -/
theorem permits_read {now : ℕ} (hreads : Reads req t name k) (htenant : auth.claims.tenantId = t)
    (hscope : ensureBucketScopeMatches auth (some name) (some k) = .ok ())
    (htime : validateTimeWindow now auth.claims = .ok ()) :
    Permits now auth req ↔ .read ∈ auth.claims.ops := by
  rw [ensureBucketScopeMatches, except_bind_eq_ok] at hscope
  obtain ⟨_, hns, hpath⟩ := hscope
  refine permits_query hreads.operation (htenant.trans hreads.tenant.symm) hreads.rest ?_ ?_ htime
  · rw [hreads.path]
    exact checkScope_of_ensureScope _ hpath
  · rw [hreads.ns]
    exact checkScope_of_ensureScope _ hns

end Requirements

/-! ### The body of a read -/

section Body

variable {G : Action → Server → Prop} {I : Server → Prop} {auth : AuthContext}

theorem upholds_ofExcept (x : Except ApiError α) :
    Upholds (act d) G I (fun a => x = .ok a) (ofExcept x : Dist α) :=
  fun _ hs => ⟨trivial, hs, fun _ ha => ha⟩

theorem upholds_openBody (t : TenantId) (m : Manifest) (body : List UInt8) :
    Upholds (act d) G I (fun _ => True) (openBody d t m body) := by
  unfold openBody
  split
  · exact .throw _
  · split
    · exact .throw _
    · exact .bind (upholds_ofExcept _) fun _ _ =>
        (upholds_ofExcept _).conseq fun _ _ => trivial

/-- The part of a read after its head makes nothing but reads with its selector. -/
theorem upholds_readBody
    (hget : ∀ r : GetRequest, r.tenantId = request.tenantId → r.selector = selector →
      Upholds (act d) G I (fun _ => True) (callAlpha (.get auth r))) (head : HeadObjectResponse)
    (immutable : Bool) :
    Upholds (act d) G I (fun _ => True) (readBody d auth request head selector immutable) := by
  refine .bind (upholds_ofExcept _) fun _ _ => .bind (hget _ rfl rfl) fun response _ =>
    .ite ?_ (.pure trivial)
  refine .bind (F := fun _ => True) (.ite (.throw _) (.pure trivial)) fun _ _ =>
    .bind (F := fun _ => True) ?_ fun manifest _ => .bind (upholds_openBody _ _ _)
      fun _ _ => .pure trivial
  unfold manifestFor
  cases response.meta.manifest with
  | some manifest => exact .pure trivial
  | none =>
    exact .bind (hget _ rfl rfl) fun _ _ => (upholds_ofExcept _).conseq fun _ _ => trivial

end Body

/-- The caller may use the claims whenever the clock is read from now on. -/
def Timely (d : Deployment) (auth : AuthContext) (s : Server) : Prop :=
  ∀ n, s.alpha.tick ≤ n → validateTimeWindow (d.clock n) auth.claims = .ok ()

/-- A call that is not refused in time is not refused, if the time is kept. -/
theorem upholds_callAlpha {I : Server → Prop} {auth : AuthContext}
    (htimely : ∀ s, I s → Timely d auth s)
    (hkeeps : ∀ s w, I s → s.alpha.tick ≤ w.tick → I { s with alpha := w })
    (h : ∀ w reason, validateTimeWindow (d.clock w.tick) auth.claims = .ok () →
      ¬ c.RefusedFor d.toEnv w reason) :
    Upholds (act d) (fun o s => ¬ Refuses d o s) I (fun _ => True) (callAlpha c) := by
  intro s hs
  refine ⟨⟨?_, trivial⟩, hkeeps s _ hs (tick_le_runE d.toEnv (c.answer d.toEnv) s.alpha),
    fun _ _ => trivial⟩
  rintro ⟨reason, hrefused⟩
  exact h s.alpha reason (htimely s hs _ le_rfl) hrefused

/-! ### The calls of a read by identifier -/

section Identifier

variable {auth : AuthContext} {request : GetObjectRequest} {cid : String}
  (htenant : auth.claims.tenantId = request.tenantId) (hread : .read ∈ auth.claims.ops)
  (hns : auth.claims.namespacePrefix = none) (hpath : auth.claims.pathPrefix = none)

include htenant hread hns hpath

/-- A read of an object by its identifier is not refused. -/
theorem upholds_get_cid (r : GetRequest) (hr : r.tenantId = request.tenantId)
    (hselector : r.selector = cidSelector cid) :
    Upholds (act d) (fun o s => ¬ Refuses d o s) (Timely d auth) (fun _ => True)
      (callAlpha (.get auth r)) := by
  refine upholds_callAlpha (fun _ h => h) (fun _ _ h hle n hn => h n (hle.trans hn))
    fun w reason htime ⟨req, hasks, hclaims⟩ => ?_
  simp only [Call.asks, hselector] at hasks
  split at hasks
  · cases hasks
    have hpermits : Permits (d.clock w.tick) auth
        (readMeta .get r.tenantId ⟨cid, none, none, none, none⟩) :=
      (permits_query (.inl rfl) (htenant.trans hr.symm) ⟨rfl, rfl, rfl, rfl⟩ (by rw [hpath]; rfl)
        (by rw [hns]; rfl) htime).2 hread
    rename_i hrun
    cases hrun
    cases (checkClaims_eq_ok.2 hpermits).symm.trans hclaims
  · cases hasks

theorem runE_cidBinding_unbound (hbucket : request.bucket = none) (hkey : request.key = none)
    (s : Server) : runE (act d) (cidBinding auth request cid) s = (.ok none, s) := by
  have hscope : ensureUnscopedCidReadScope auth request.tenantId = .ok () := by
    have hcapable : hasCidReadCapability auth = true := by
      have hany : hasReadCapability auth = true := List.any_eq_true.2 ⟨_, hread, rfl⟩
      simp [hasCidReadCapability, hany]
    simp [ensureUnscopedCidReadScope, ensureTenantMatches, htenant, hcapable, hns, hpath]
  rw [cidBinding, hbucket, hkey]
  dsimp only
  rw [hscope, runE_ofExcept_bind]
  rfl

/-- **A read of an identifier without a binding** is not refused to a caller with the read scope and
without prefixes. -/
theorem unrefused_of_cid (hbucket : request.bucket = none) (hkey : request.key = none)
    (hcid : request.cid = some cid) {s : Server} (htimely : Timely d auth s) :
    Unrefused d (getObject d auth request) s := by
  have hget (r : GetRequest) (hr : r.tenantId = request.tenantId)
      (hselector : r.selector = cidSelector cid) :
      Upholds (act d) (fun o s => ¬ Refuses d o s) (Timely d auth) (fun _ => True)
        (callAlpha (.get auth r)) :=
    upholds_get_cid htenant hread hns hpath r hr hselector
  have hbinding : Upholds (act d) (fun o s => ¬ Refuses d o s) (Timely d auth) (· = none)
      (cidBinding auth request cid) := by
    rw [cidBinding, hbucket, hkey]
    exact .bind (upholds_ofExcept _) fun _ _ => .pure rfl
  have hhead : Upholds (act d) (fun o s => ¬ Refuses d o s) (Timely d auth)
      (fun answer => answer.2.1 = cidSelector cid) (readHead auth request) := by
    unfold readHead
    rw [hcid]
    refine .bind hbinding fun binding hnone => ?_
    subst hnone
    exact .bind (hget _ rfl rfl) fun _ _ => .bind (upholds_ofExcept _) fun _ _ => .pure rfl
  have hall : Upholds (act d) (fun o s => ¬ Refuses d o s) (Timely d auth) (fun _ => True)
      (getObject d auth request) :=
    .bind (upholds_ofExcept _) fun _ _ => .bind (upholds_ofExcept _) fun _ _ =>
      .bind hhead fun _ hselector => upholds_readBody
        (fun r hr hsel => hget r hr (hsel.trans hselector)) _ _
  exact (hall s htimely).1

end Identifier

/-! ### The calls of a read of a key -/

section Calls

variable {auth : AuthContext} {t : TenantId} {bucket key name k : String} {record : BucketRecord}

/-- What a read relies on as it goes on: the bucket, and the time window of the claims. -/
structure Standing (d : Deployment) (auth : AuthContext) (t : TenantId) (name : String)
    (record : BucketRecord) (s : Server) : Prop where
  bucket : s.lookup (bucketSlot t name) = some record
  time : ∀ n, s.alpha.tick ≤ n → validateTimeWindow (d.clock n) auth.claims = .ok ()

/-- A caller with the read scope, to whom the distribution service has granted the read. -/
structure Entrusted (auth : AuthContext) (t : TenantId) (bucket key name k : String)
    (record : BucketRecord) : Prop where
  bucketName : canonicalBucketName bucket = .ok name
  keyName : canonicalObjectKeyName key = .ok k
  names : record.bucket = name ∧ record.ns = name
  /-- The names are canonical forms of themselves, if they have one. -/
  again : ∀ ns path, canonicalNamespaceAndPath name k = .ok (ns, path) → ns = name ∧ path = k
  tenant : auth.claims.tenantId = t
  scope : ensureBucketScopeMatches auth (some name) (some k) = .ok ()
  read : .read ∈ auth.claims.ops

/-- The program makes no call that is refused. -/
abbrev Calm (d : Deployment) (auth : AuthContext) (t : TenantId) (name : String)
    (record : BucketRecord) (F : α → Prop) (x : Dist α) : Prop :=
  Upholds (act d) (fun o s => ¬ Refuses d o s) (Standing d auth t name record) F x

namespace Calm

theorem ofExcept (x : Except ApiError α) :
    Calm d auth t name record (fun a => x = .ok a) (ofExcept x) :=
  upholds_ofExcept x

theorem readEncryptedJson (a : Slot) :
    Calm d auth t name record (fun _ => True) (readEncryptedJson a) :=
  fun _ hs => ⟨⟨id, trivial⟩, hs, fun _ _ => trivial⟩

theorem rejectIf (c : Prop) [Decidable c] (e : ApiError) :
    Calm d auth t name record (fun _ => True) (rejectIf c e) :=
  .ite (.throw e) (.pure trivial)

theorem callAlpha
    (h : ∀ w reason, validateTimeWindow (d.clock w.tick) auth.claims = .ok () →
      ¬ c.RefusedFor d.toEnv w reason) : Calm d auth t name record (fun _ => True) (callAlpha c) :=
  upholds_callAlpha (fun _ hs => hs.time)
    (fun _ _ hs hle => ⟨hs.bucket, fun n hn => hs.time n (hle.trans hn)⟩) h

theorem bucketRecord : Calm d auth t name record (fun found => found = some record)
    (bucketRecord t name) :=
  fun _ hs => ⟨⟨id, trivial⟩, hs, fun _ ha => (ok.inj ha).symm.trans hs.bucket⟩

theorem requireBucket (hname : canonicalBucketName bucket = .ok name) :
    Calm d auth t name record (fun found => found = record) (requireBucket t bucket) := by
  refine .bind (ofExcept _) fun name' hname' => ?_
  rw [hname] at hname'
  obtain rfl := ok.inj hname'
  refine .bind bucketRecord fun found hfound => ?_
  rw [hfound]
  exact .pure rfl

theorem orObjectError {x : Dist α} (h : Calm d auth t name record (fun _ => True) x) :
    Calm d auth t name record (fun _ => True) (orObjectError x) := by
  refine .bind h.attempt fun result _ => ?_
  cases result with
  | ok a => exact .pure trivial
  | error e => exact .throw _

theorem ensureBucketReadScopeFor (b : String) (o : Option String) :
    Calm d auth t name record (fun _ => True) (ensureBucketReadScopeFor auth t b o) := by
  have hscope : Calm d auth t name record (fun _ => True)
      (Distribution.ofExcept (ensureBucketScopeMatches auth (some b) o)) :=
    (ofExcept _).conseq fun _ _ => trivial
  refine .bind (ofExcept _) fun _ _ => .ite hscope (.bind (readEncryptedJson _) fun _ _ => ?_)
  refine .ite hscope (.bind (F := fun _ => True) ?_ fun _ _ => .ite hscope (.throw _))
  cases o with
  | none => exact .pure trivial
  | some key => exact .bind (readEncryptedJson _) fun _ _ => .pure trivial

end Calm

section Entrusted

variable (h : Entrusted auth t bucket key name k record)

include h

/-- A read of the object by its name is not refused. -/
theorem Entrusted.get (request : GetRequest) (htenant : request.tenantId = t)
    (hselector : request.selector = keySelector record.ns k) :
    Calm d auth t name record (fun _ => True) (callAlpha (.get auth request)) := by
  refine Calm.callAlpha fun w reason htime ⟨req, hasks, hclaims⟩ => ?_
  simp only [Call.asks] at hasks
  split at hasks
  · rename_i resolution hvalid hrange hrun
    cases hasks
    have hpair : runE (exec d.toEnv) (selectorResolution request.tenantId request.selector) w =
        (.ok resolution, _) := Prod.ext hrun rfl
    have hnames := names_of_selectorResolution (by rw [hselector]; rfl) hpair
    rw [hselector, keySelector, h.names.2] at hnames
    have hreads : Reads (readMeta .get request.tenantId resolution) t name k :=
      ⟨.inl rfl, htenant, hnames.1, hnames.2, rfl, rfl, rfl, rfl⟩
    have hpermits := checkClaims_eq_ok.2 ((permits_read hreads h.tenant h.scope htime).2 h.read)
    rw [show (Call.get auth request).auth = auth from rfl, hpermits] at hclaims
    cases hclaims
  · cases hasks

theorem Entrusted.resolveKey :
    Calm d auth t name record (fun _ => True) (resolveKey auth t record.ns k) := by
  refine Calm.callAlpha fun w reason htime ⟨req, hasks, hclaims⟩ => ?_
  simp only [Call.asks] at hasks
  split at hasks
  · rename_i ns path hcanon
    cases hasks
    rw [h.names.2] at hcanon
    obtain ⟨rfl, rfl⟩ := h.again ns path hcanon
    have hreads : Reads (resolveMeta t ns path) t ns path :=
      ⟨.inr rfl, rfl, rfl, rfl, rfl, rfl, rfl, rfl⟩
    have hpermits := checkClaims_eq_ok.2 ((permits_read hreads h.tenant h.scope htime).2 h.read)
    rw [show (Call.resolve auth _).auth = auth from rfl, hpermits] at hclaims
    cases hclaims
  · cases hasks

theorem Entrusted.headObject :
    Calm d auth t name record (fun _ => True) (headObject auth ⟨t, bucket, key⟩) := by
  refine .bind (Calm.requireBucket h.bucketName) fun found hfound => .bind (Calm.ofExcept _)
    fun k' hk' => ?_
  rw [h.keyName] at hk'
  obtain rfl := ok.inj hk'
  rw [hfound]
  exact .bind (Calm.ensureBucketReadScopeFor _ _) fun _ _ =>
    .bind (Calm.orObjectError (h.get _ rfl rfl)) fun _ _ =>
      .bind (Calm.ofExcept _) fun _ _ => .pure trivial

theorem Entrusted.cidBinding (request : GetObjectRequest) (htenant : request.tenantId = t)
    (hbucket : request.bucket = some bucket) (hkey : request.key = some key) (cid : String) :
    Calm d auth t name record (fun binding => binding = some (record, k))
      (cidBinding auth request cid) := by
  rw [Distribution.cidBinding, hbucket, hkey, htenant]
  refine .bind (Calm.requireBucket h.bucketName) fun found hfound => .bind (Calm.ofExcept _)
    fun k' hk' => ?_
  rw [h.keyName] at hk'
  obtain rfl := ok.inj hk'
  rw [hfound]
  exact .bind (Calm.ensureBucketReadScopeFor _ _) fun _ _ =>
    .bind (Calm.orObjectError h.resolveKey) fun _ _ =>
      .bind (Calm.rejectIf _ _) fun _ _ => .pure rfl

theorem Entrusted.readHead (request : GetObjectRequest) (htenant : request.tenantId = t)
    (hbucket : request.bucket = some bucket) (hkey : request.key = some key) :
    Calm d auth t name record (fun answer => answer.2.1 = keySelector record.ns k)
      (readHead auth request) := by
  unfold Distribution.readHead
  cases request.cid with
  | some cid =>
    refine .bind (h.cidBinding request htenant hbucket hkey cid) fun binding hbinding => ?_
    subst hbinding
    exact .bind (h.get _ htenant rfl) fun _ _ => .bind (Calm.ofExcept _) fun _ _ => .pure rfl
  | none =>
    rw [hbucket, hkey, htenant]
    refine .bind (F := (· = bucket)) (.pure rfl) fun _ hb => ?_
    refine .bind (F := (· = key)) (.pure rfl) fun _ hk => ?_
    subst hb hk
    refine .bind h.headObject fun _ _ => .bind (Calm.requireBucket h.bucketName) fun found hfound =>
      .bind (Calm.ofExcept _) fun k' hk' => ?_
    rw [h.keyName] at hk'
    obtain rfl := ok.inj hk'
    rw [hfound]
    exact .pure rfl

theorem Entrusted.getObject (request : GetObjectRequest) (htenant : request.tenantId = t)
    (hbucket : request.bucket = some bucket) (hkey : request.key = some key) :
    Calm d auth t name record (fun _ => True) (getObject d auth request) :=
  .bind (Calm.ofExcept _) fun _ _ => .bind (Calm.ofExcept _) fun _ _ =>
    .bind (h.readHead request htenant hbucket hkey) fun _ hselector =>
      upholds_readBody (fun r hr hsel => h.get r (hr.trans htenant) (hsel.trans hselector)) _ _

end Entrusted

end Calls

/-! ### Agreement -/

/-- The policy engine refuses no call of a read of the object, by its name or by an identifier that
is proved by the name. -/
def ReadsUnrefused (d : Deployment) (auth : AuthContext) (t : TenantId) (bucket key : String)
    (s : Server) : Prop :=
  Unrefused d (headObject auth ⟨t, bucket, key⟩) s ∧
    ∀ request : GetObjectRequest, request.tenantId = t → request.bucket = some bucket →
      request.key = some key → Unrefused d (getObject d auth request) s

section Agreement

variable {auth : AuthContext} {t : TenantId} {bucket key name k : String} {s : Server}
  (hs : Registered s) (hobject : ExistsAt d s t bucket key name k) (htimely : Timely d auth s)
  (hgranted : (runE (act d) (ensureBucketReadScopeFor auth t name (some k)) s).1 = .ok ())

include hs hobject hgranted in
omit htimely in
theorem runE_granted : ∃ record, s.lookup (bucketSlot t name) = some record ∧
    record.bucket = name ∧ record.ns = name ∧
    runE (act d) (requireBucket t bucket) s = (.ok record, s) ∧
    runE (act d) (ensureBucketReadScopeFor auth t record.bucket (some k)) s = (.ok (), s) := by
  obtain ⟨-, -, hsame⟩ := scope_of_granted (Prod.ext hgranted rfl)
  obtain ⟨record, hrecord⟩ := Option.isSome_iff_exists.1 hobject.registered
  have hnames := hs t name record hrecord
  refine ⟨record, hrecord, hnames.1, hnames.2, ?_, ?_⟩
  · rw [requireBucket, hobject.bucketName, runE_ofExcept_bind,
      bucketRecord, runE_read_bind, hrecord]
    rfl
  · rw [hnames.1]
    exact Prod.ext hgranted hsame

include hs hobject htimely hgranted

theorem read_of_unrefused (h : Unrefused d (headObject auth ⟨t, bucket, key⟩) s) :
    .read ∈ auth.claims.ops := by
  obtain ⟨htenant, hscope, -⟩ := scope_of_granted (Prod.ext hgranted rfl)
  obtain ⟨record, -, -, hns, hbucket, hscoped⟩ := runE_granted hs hobject hgranted
  obtain ⟨resolution, hresolution⟩ := hobject.resolves
  rw [Unrefused, headObject] at h
  have hrest := Prog.Always.of_bind_ok hbucket h
  rw [hobject.keyName] at hrest
  -- The head is read by a call that the policy engine is asked about in the state `s`.
  have hcall := (Prog.Always.of_bind_ok hscoped
    (Prog.Always.of_bind_ok (runE_ofExcept d s _) hrest)).1
  have hreads : Reads (readMeta .get t resolution) t name k := by
    have hpair : runE (exec d.toEnv) (selectorResolution t (keySelector name k)) s.alpha =
        (.ok resolution, _) := Prod.ext hresolution rfl
    obtain ⟨hns, hpath⟩ := names_of_selectorResolution rfl hpair
    exact ⟨.inl rfl, rfl, hns, hpath, rfl, rfl, rfl, rfl⟩
  rw [← permits_read hreads htenant hscope (htimely _ le_rfl), ← checkClaims_eq_ok]
  cases hc : checkClaims (d.clock s.alpha.tick) auth (readMeta .get t resolution) with
  | ok _ => rfl
  | error reason =>
    refine absurd ⟨reason, _, ?_, hc⟩ hcall
    simp only [Call.asks, manifestOnly, hns, hresolution, hobject.selects]
    rfl

theorem unrefused_of_read (hread : .read ∈ auth.claims.ops) :
    ReadsUnrefused d auth t bucket key s := by
  obtain ⟨htenant, hscope, -⟩ := scope_of_granted (Prod.ext hgranted rfl)
  obtain ⟨record, hrecord, hbucket, hns, -⟩ := runE_granted hs hobject hgranted
  have hentrusted : Entrusted auth t bucket key name k record :=
    ⟨hobject.bucketName, hobject.keyName, ⟨hbucket, hns⟩, hobject.again, htenant, hscope, hread⟩
  have hstanding : Standing d auth t name record s := ⟨hrecord, htimely⟩
  exact ⟨(hentrusted.headObject s hstanding).1, fun request h₁ h₂ h₃ =>
    (hentrusted.getObject request h₁ h₂ h₃ s hstanding).1⟩

/-- **An identifier is proved by the key that is bound to it.** -/
theorem runE_cidBinding_bound (hread : .read ∈ auth.claims.ops) (hrt : request.tenantId = t)
    (hrbucket : request.bucket = some bucket) (hrkey : request.key = some key) {cid : String}
    (hbound : s.alpha.objectAt t name k = some cid) :
    ∃ binding, (runE (act d) (cidBinding auth request cid) s).1 = .ok binding := by
  obtain ⟨htenant, hscope, -⟩ := scope_of_granted (Prod.ext hgranted rfl)
  obtain ⟨record, -, -, hns, hbucket, hscoped⟩ := runE_granted hs hobject hgranted
  obtain ⟨resolution, hresolution⟩ := hobject.resolves
  obtain ⟨-, ns, path, hcanon, -⟩ := selectorResolution_ok (Prod.ext hresolution rfl)
  obtain ⟨rfl, rfl⟩ := hobject.again ns path hcanon
  obtain ⟨b, hfound, hcid⟩ := Option.bind_eq_some_iff.1 hbound
  -- The policy engine lets the key be resolved.
  have hreads : Reads (resolveMeta t ns path) t ns path :=
    ⟨.inr rfl, rfl, rfl, rfl, rfl, rfl, rfl, rfl⟩
  have hclaims : checkClaims (d.clock s.alpha.tick) auth (resolveMeta t ns path) = .ok () :=
    checkClaims_eq_ok.2 ((permits_read hreads htenant hscope (htimely _ le_rfl)).2 hread)
  have hauth := runE_authorize_query hclaims rfl
  have hbinding : resolveBinding ((s.alpha.ticked 1).current t ns) path none =
      .ok ⟨b.revision, b.targetCid, b.manifestCid, b.recordCid, b.metadata, b.tombstone⟩ := by
    have hcurrent : ((s.alpha.ticked 1).current t ns).bindings[path]? = some b := hfound
    rw [resolveBinding, hcurrent]
    rfl
  have hresolve : (runE (act d) (resolveKey auth t record.ns path) s).1 =
      .ok ⟨b.revision, b.targetCid, b.manifestCid, b.recordCid, b.metadata, b.tombstone⟩ := by
    have hanswer : runE (exec d.toEnv) (resolve d.toEnv auth ⟨t, ns, path, none, none⟩)
        s.alpha = _ := runE_resolve_authorized rfl hcanon hauth
    rw [resolveKey, runE_callAlpha, hns]
    exact (congrArg Prod.fst hanswer).trans hbinding
  rw [cidBinding, hrbucket, hrkey, hrt]
  dsimp only
  rw [runE_bind_ok _ hbucket, hobject.keyName, runE_ofExcept_bind, runE_bind_ok _ hscoped]
  refine ⟨some (record, path), ?_⟩
  rw [orObjectError, Prog.runE_bind, runE_bind_ok _ (runE_attempt _ _ _), hresolve]
  dsimp only
  rw [Prog.runE_pure]
  dsimp only
  rw [rejectIf, if_neg (fun h => h.2 hcid)]
  rfl

/-- **The two layers agree on a read** that the distribution service grants exactly if the caller
has the read scope. -/
theorem unrefused_iff_read :
    ReadsUnrefused d auth t bucket key s ↔ .read ∈ auth.claims.ops := by
  exact ⟨fun h => read_of_unrefused hs hobject htimely hgranted h.1,
    unrefused_of_read hs hobject htimely hgranted⟩

end Agreement

end Distribution

namespace Sample

open Hsp.Distribution

/-- The record of a run in which a key is bound. -/
def sharedRecords : List NamespaceMutationRecord :=
  [⟨keyRecord "k" .bind (some objectCid) none, fits_bind⟩]

def sharedDeployment : Deployment := deployment sharedRecords [] 0

/-- An object in a bucket that everyone may read. -/
def shared : List Request :=
  [.createBucket (auth "0") tenant "b", .putBucketAcl (auth "1") tenant "b" .publicRead,
    .putObject (auth "2") (putRequest "b" "k" "i") chunk]

def sharedServer : Server := runRequests sharedDeployment shared .empty

/-- A caller with the given scopes. -/
def holder (ops : List CapabilityScope) : AuthContext :=
  { auth "3" with claims := { (auth "3").claims with ops } }

/-- What the two layers say to callers with various scopes. -/
theorem shared_evaluated :
    canonicalBucketName "b" = .ok "b" ∧ canonicalObjectKeyName "k" = .ok "k" ∧
    (sharedServer.lookup (bucketSlot tenant "b")).isSome ∧
    (runE (exec sharedDeployment.toEnv) (selectorResolution tenant (keySelector "b" "k"))
      sharedServer.alpha).1.isOk ∧
    ∀ ops ∈ [[], [.list], [.write], [.read]],
      (runE (act sharedDeployment)
        (ensureBucketReadScopeFor (holder ops) tenant "b" (some "k")) sharedServer).1 = .ok () ∧
      (Request.perform sharedDeployment (.headObject (holder ops) ⟨tenant, "b", "k"⟩)
        sharedServer).1.map (fun _ => ()) =
          if .read ∈ ops then .ok () else .error (denialToApiError .operationNotAllowed) := by
  decide +kernel

theorem existsAt_shared : ExistsAt sharedDeployment sharedServer tenant "b" "k" "b" "k" := by
  obtain ⟨hbucket, hkey, hregistered, hresolves, -⟩ := shared_evaluated
  refine ⟨hbucket, hkey, by simp [IsAscii], by simp [IsAscii], hregistered, by decide, ?_⟩
  cases hr : (runE (exec sharedDeployment.toEnv) (selectorResolution tenant
      (keySelector "b" "k")) sharedServer.alpha).1 with
  | ok resolution => exact ⟨resolution, rfl⟩
  | error e =>
    rw [hr] at hresolves
    cases hresolves

/-- The distribution service grants the read to a caller with these scopes, and the policy engine
refuses it. -/
def GrantedAndRefused (ops : List CapabilityScope) : Prop :=
  (Prog.runE (act sharedDeployment) (ensureBucketReadScopeFor (holder ops) tenant "b" (some "k"))
    sharedServer).1 = .ok () ∧
  (Request.perform sharedDeployment (.headObject (holder ops) ⟨tenant, "b", "k"⟩)
    sharedServer).1.map (fun _ => ()) = .error (denialToApiError .operationNotAllowed) ∧
  ¬ ReadsUnrefused sharedDeployment (holder ops) tenant "b" "k" sharedServer

theorem grantedAndRefused_of_mem {ops : List CapabilityScope}
    (hops : ops ∈ [[], [.list], [.write]]) : GrantedAndRefused ops := by
  simp only [List.mem_cons, List.not_mem_nil, or_false] at hops
  have hread : .read ∉ ops := by
    rcases hops with rfl | rfl | rfl <;> decide
  obtain ⟨hgranted, hhead⟩ := shared_evaluated.2.2.2.2 ops (by
    rcases hops with rfl | rfl | rfl <;> simp)
  rw [if_neg hread] at hhead
  exact ⟨hgranted, hhead, fun h => hread (read_of_unrefused (Registered.runRequests shared)
    existsAt_shared (fun _ _ => rfl) hgranted h.1)⟩

/-- The distribution service grants the read to everyone, and the policy engine refuses it to a
caller without the read scope, even to one who may write the object. -/
theorem granted_and_refused :
    GrantedAndRefused [] ∧ GrantedAndRefused [.list] ∧ GrantedAndRefused [.write] :=
  ⟨grantedAndRefused_of_mem (by simp), grantedAndRefused_of_mem (by simp),
    grantedAndRefused_of_mem (by simp)⟩

/-- A caller with the read scope is granted the read by both layers. -/
theorem granted_to_reader :
    ReadsUnrefused sharedDeployment (holder [.read]) tenant "b" "k" sharedServer :=
  (unrefused_iff_read (Registered.runRequests shared) existsAt_shared (fun _ _ => rfl)
    (shared_evaluated.2.2.2.2 [.read] (by simp)).1).2 (by simp [holder])

end Sample

end Hsp
