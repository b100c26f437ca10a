import Hsp.Cdn.Tokens
import Hsp.Distribution.Agreement
import Hsp.Distribution.Names

/-!
# The cache of the CDN

An answer of the origin to a read by identifier is kept under a key made of the tenant, the mode
and the identifier, and serves later reads that have the same key.  The cache is looked up once the
request is authenticated, and before anything is authorized: the scopes of a principal, the time
window of its claims and the binding that a token needs are left to the origin, which is not asked.

Requests to the CDN and to the origin interleave, action by action.

* `Stocked` : what is kept under the key of an object is the whole object;
* `Entitled.granted` : what a principal needs to be granted a read by identifier;
* `hits_warranted` : in every run in which whoever finds an object in the cache is entitled to it,
  and no object is overwritten while it is read into the cache by its key, what is served from the
  cache is the requested object, and the origin would not refuse it;
* `Sample.scoped_hit` : a principal with a prefix is served what the origin refuses.
-/

namespace Hsp.Cdn

open Hsp.Distribution List Option

variable {d : Deployment} {request : GetObjectRequest} {fetch : Fetch} {s : Server} {key : String}
  {now : ℕ} {plaintext plaintext' : Bool} {cid : String} {signature : String}

/-! ### Cache keys -/

theorem toList_cidCacheKey (t : TenantId) (cid : String) (plaintext : Bool) :
    (cidCacheKey t cid plaintext).toList = 'c' :: 'i' :: 'd' :: ':' :: (t.val.toList ++
      ':' :: ((cacheModeSuffix plaintext).toList ++ ':' :: cid.toList)) := by
  simp [cidCacheKey]

theorem colon_not_mem_mode (plaintext : Bool) : ':' ∉ (cacheModeSuffix plaintext).toList := by
  cases plaintext <;> decide

/-- The parts of a key can be told apart, unless a colon occurs in a tenant. -/
theorem cacheKey_parts {t t' : TenantId} {rest rest' : List Char}
    (ht : ':' ∉ t.val.toList) (ht' : ':' ∉ t'.val.toList)
    (h : t'.val.toList ++ ':' :: ((cacheModeSuffix plaintext').toList ++ ':' :: rest') =
      t.val.toList ++ ':' :: ((cacheModeSuffix plaintext).toList ++ ':' :: rest)) :
    t' = t ∧ plaintext' = plaintext ∧ rest' = rest := by
  obtain ⟨htenant, h⟩ := append_cons_inj_of_not_mem ht' ht h
  obtain ⟨hmode, hrest⟩ :=
    append_cons_inj_of_not_mem (colon_not_mem_mode _) (colon_not_mem_mode _) h
  refine ⟨congrArg TenantId.mk (String.toList_injective htenant), ?_, hrest⟩
  cases plaintext <;> cases plaintext' <;> first | rfl | exact absurd hmode (by decide)

/-- A key is the key of one object only, unless a colon occurs in its parts. -/
theorem cidCacheKey_inj {t t' : TenantId} {cid cid' : String}
    (ht : ':' ∉ t.val.toList) (hcid : ':' ∉ cid.toList)
    (h : cidCacheKey t' cid' plaintext' = cidCacheKey t cid plaintext) :
    t' = t ∧ cid' = cid ∧ plaintext' = plaintext := by
  have hlist := congrArg String.toList h
  rw [toList_cidCacheKey, toList_cidCacheKey] at hlist
  simp only [cons.injEq, true_and] at hlist
  -- The parts of the other key have no colons either, since there are as many of them.
  have hcount := congrArg (List.count ':') hlist
  simp only [count_append, count_cons_self, count_eq_zero.2 ht,
    count_eq_zero.2 hcid, count_eq_zero.2 (colon_not_mem_mode _)] at hcount
  have ht' : ':' ∉ t'.val.toList := count_eq_zero.1 (by omega)
  obtain ⟨htenant, hmode, hrest⟩ := cacheKey_parts ht ht' hlist
  exact ⟨htenant, String.toList_injective hrest, hmode⟩

theorem namespaceCacheKey_ne_cidCacheKey (t t' : TenantId) (bucket key cid : String)
    (plaintext plaintext' : Bool) :
    namespaceCacheKey t bucket key plaintext ≠ cidCacheKey t' cid plaintext' := by
  intro h
  have hlist := congrArg String.toList h
  simp [namespaceCacheKey, cidCacheKey] at hlist

theorem toList_namespaceCacheKey (t : TenantId) (bucket key : String) (plaintext : Bool) :
    (namespaceCacheKey t bucket key plaintext).toList = 'n' :: 's' :: ':' :: (t.val.toList ++ ':' ::
      ((cacheModeSuffix plaintext).toList ++ ':' :: (bucket.toList ++ '/' :: key.toList))) := by
  simp [namespaceCacheKey]

/-- The key is that of an entry about a key of a bucket. -/
def NamespaceEntry (t : TenantId) (entry : String) : Prop :=
  ∃ raw bucket rawKey key plaintext, canonicalBucketName raw = .ok bucket ∧
    canonicalObjectKeyName rawKey = .ok key ∧ entry = namespaceCacheKey t bucket key plaintext

theorem tenantOfKey_namespaceCacheKey {t : TenantId} (ht : ':' ∉ t.val.toList)
    (bucket key : String) (plaintext : Bool) :
    tenantOfKey (namespaceCacheKey t bucket key plaintext) = some t.val := by
  have hrest : String.ofList ((namespaceCacheKey t bucket key plaintext).toList.drop 3) =
      t.val ++ String.singleton ':' ++ (cacheModeSuffix plaintext ++ ":" ++ bucket ++ "/" ++ key) :=
    String.toList_injective (by simp [toList_namespaceCacheKey])
  rw [tenantOfKey, if_pos (by simp [toList_namespaceCacheKey]), hrest, splitOnce_append ht]
  rfl

theorem colon_not_mem_tenantOfKey {key tenant : String} (h : tenantOfKey key = some tenant) :
    ':' ∉ tenant.toList := by
  unfold tenantOfKey splitOnce at h
  split at h
  · split at h
    · obtain rfl := some.inj h
      rw [String.toList_ofList]
      intro hmem
      have hne := mem_takeWhile_imp hmem
      simp at hne
    · cases h
  · cases h

theorem mem_tenantIdsFromCache {keys : List String} {t : TenantId} :
    t ∈ tenantIdsFromCache keys ↔ ∃ key ∈ keys, tenantOfKey key = some t.val := by
  obtain ⟨val⟩ := t
  simp [tenantIdsFromCache, Std.ExtTreeMap.mem_unitOfList]

/-- The keys of these tenants tell tenants and objects apart, and the worker finds the tenants whose
objects are kept by their keys. -/
structure Separated (T : Set TenantId) : Prop where
  cid : ∀ t ∈ T, ∀ t' ∈ T, ∀ cid cid' plaintext plaintext',
    cidCacheKey t' cid' plaintext' = cidCacheKey t cid plaintext →
      t' = t ∧ plaintext' = plaintext ∧ cid' = cid
  key : ∀ t ∈ T, ∀ t' ∈ T, ∀ raw raw' bucket bucket' key key' plaintext plaintext',
    canonicalBucketName raw = .ok bucket → canonicalBucketName raw' = .ok bucket' →
      namespaceCacheKey t' bucket' key' plaintext' = namespaceCacheKey t bucket key plaintext →
        t' = t ∧ plaintext' = plaintext ∧ bucket' = bucket ∧ key' = key
  apart : ∀ t ∈ T, ∀ t' ∈ T, ∀ cid bucket key plaintext plaintext',
    namespaceCacheKey t bucket key plaintext ≠ cidCacheKey t' cid plaintext'
  found : ∀ keys : List String, (∀ entry ∈ keys, ∃ t ∈ T, NamespaceEntry t entry ∨
      ∃ cid plaintext, entry = cidCacheKey t cid plaintext) →
    ∀ t, t ∈ tenantIdsFromCache keys ↔ t ∈ T ∧ ∃ entry ∈ keys, NamespaceEntry t entry

/-- **The cache keeps tenants and objects apart** exactly if no colon occurs in a tenant. -/
theorem separated_iff (T : Set TenantId) : Separated T ↔ ∀ t ∈ T, ':' ∉ t.val.toList := by
  constructor
  · intro h t ht
    have hentry : NamespaceEntry t (namespaceCacheKey t "b" "k" false) :=
      ⟨"b", "b", "k", "k", false, rfl, rfl, rfl⟩
    have hfound := (h.found [namespaceCacheKey t "b" "k" false]
      (by simpa using ⟨t, ht, .inl hentry⟩) t).2 ⟨ht, by simpa using hentry⟩
    obtain ⟨_, -, htenant⟩ := mem_tenantIdsFromCache.1 hfound
    exact colon_not_mem_tenantOfKey htenant
  · intro hT
    refine ⟨fun t ht t' ht' cid cid' plaintext plaintext' h => ?_, ?_,
      fun _ _ _ _ _ _ _ _ _ => namespaceCacheKey_ne_cidCacheKey _ _ _ _ _ _ _, ?_⟩
    · have hlist := congrArg String.toList h
      rw [toList_cidCacheKey, toList_cidCacheKey] at hlist
      obtain ⟨htenant, hmode, hrest⟩ := cacheKey_parts (hT t ht) (hT t' ht') (by simpa using hlist)
      exact ⟨htenant, hmode, String.toList_injective hrest⟩
    · intro t ht t' ht' raw raw' bucket bucket' key key' plaintext plaintext' hb hb' h
      have hlist := congrArg String.toList h
      rw [toList_namespaceCacheKey, toList_namespaceCacheKey] at hlist
      obtain ⟨htenant, hmode, hrest⟩ := cacheKey_parts (hT t ht) (hT t' ht') (by simpa using hlist)
      obtain ⟨hbucket, hkey⟩ := append_cons_inj_of_not_mem (canonicalBucketName_segment hb').2
        (canonicalBucketName_segment hb).2 hrest
      exact ⟨htenant, hmode, String.toList_injective hbucket, String.toList_injective hkey⟩
    · intro keys hkeys t
      rw [mem_tenantIdsFromCache]
      constructor
      · rintro ⟨entry, hentry, htenant⟩
        obtain ⟨t', ht', hnamespace | ⟨cid, plaintext, rfl⟩⟩ := hkeys entry hentry
        · obtain ⟨_, _, _, _, _, -, -, rfl⟩ := id hnamespace
          rw [tenantOfKey_namespaceCacheKey (hT t' ht')] at htenant
          obtain rfl : t' = t := congrArg TenantId.mk (some.inj htenant)
          exact ⟨ht', _, hentry, hnamespace⟩
        · simp [tenantOfKey, toList_cidCacheKey] at htenant
      · rintro ⟨ht, entry, hentry, _, _, _, _, _, -, -, rfl⟩
        exact ⟨_, hentry, tenantOfKey_namespaceCacheKey (hT t ht) _ _ _⟩

/-- A tenant may have the name of another one followed by a mode. -/
theorem cidCacheKey_collision :
    cidCacheKey ⟨"a"⟩ "plaintext:x" false = cidCacheKey ⟨"a:ciphertext"⟩ "x" true ∧
      tenantIdsFromCache [namespaceCacheKey ⟨"a:b"⟩ "media" "x" false] = [⟨"a"⟩] := by
  decide +kernel

/-! ### Entries -/

/-- These are the bytes of an object, as they are stored or in plain. -/
def Whole (d : Deployment) (t : TenantId) (cid : String) (plaintext : Bool) (body : List UInt8) :
    Prop :=
  ∃ (m : Manifest) (chunks : List (List UInt8)), m.Contents d.toEnv chunks ∧
    m.manifestCid d.toEnv = cid ∧
    if plaintext then (openBody d t m (m.content none chunks)).run = .ret (.ok body)
    else body = m.content none chunks

/-- An entry under the key of an object is one of an object with this key. -/
def Filed (d : Deployment) (key : String) (entry : CachedObject) : Prop :=
  ∀ t cid plaintext, key = cidCacheKey t cid plaintext → ∃ t' cid' plaintext',
    key = cidCacheKey t' cid' plaintext' ∧ Whole d t' cid' plaintext' entry.body

/-- What holds of a CDN whatever requests it handles, if the fills of its cache are not torn. -/
structure Stocked (d : Deployment) (e : Edge) : Prop where
  sound : Distribution.Sound d e.server
  filed : ∀ key entry, e.cache key = some entry → Filed d key entry

/-- The action keeps the cache in order. -/
def EdgeAction.Files (d : Deployment) : EdgeAction → Edge → Prop
  | .origin o, _ => o.Registers d
  | .fresh _ _ _, _ => True
  | .insert key entry, _ => Filed d key entry

theorem Stocked.act (o : EdgeAction) (e : Edge) (h : Stocked d e) (ho : o.Files d e) :
    Stocked d (edgeAct d o e).2 := by
  cases o with
  | origin o => exact ⟨h.sound.act ho, h.filed⟩
  | fresh fetch key now => exact h
  | insert key entry =>
    refine ⟨h.sound, fun key' entry' hentry => ?_⟩
    by_cases hkey : key' = key
    · subst hkey
      obtain rfl : entry = entry' := by simpa [edgeAct] using hentry
      exact ho
    · exact h.filed key' entry' (by simpa [edgeAct, hkey] using hentry)

theorem whole_of_answered {response : GetObjectResponse} {m : Manifest} {chunks : List (List UInt8)}
    (h : request.AnsweredWith d response m chunks) (hrange : response.contentRange = none) :
    Whole d request.tenantId (m.manifestCid d.toEnv) request.preferPlaintext response.body := by
  refine ⟨m, chunks, h.contents, rfl, ?_⟩
  cases hplain : request.preferPlaintext with
  | false =>
    obtain ⟨hbody, -, hcontent⟩ := h.ciphertext hplain
    have hnone : request.range = none := by simpa [hrange] using hcontent
    simpa [hnone] using hbody
  | true => simpa using (h.plaintext hplain).1

/-! ### What the origin grants -/

/-- The platform at one moment: its clock stands still. -/
def atMoment (d : Deployment) (s : Server) : Deployment :=
  { d with clock := fun _ => d.clock s.alpha.tick }

/-- At this moment the origin would refuse a read by identifier neither for its tenant, nor for its
binding, nor for the scopes or the time window of the claims. -/
structure Granted (d : Deployment) (auth : AuthContext) (request : GetObjectRequest) (cid : String)
    (s : Server) : Prop where
  tenant : auth.claims.tenantId = request.tenantId
  binding : ∃ binding,
    (Prog.runE (act (atMoment d s)) (cidBinding auth request cid) s).1 = .ok binding
  unrefused : Unrefused (atMoment d s) (Distribution.getObject (atMoment d s) auth request) s

/-- The key of the read is bound to its object, and may be read. -/
def Proved (d : Deployment) (fetch : Fetch) (bucket key : String) (s : Server) : Prop :=
  ∃ name k, ExistsAt (atMoment d s) s fetch.request.tenantId bucket key name k ∧
    (Prog.runE (act (atMoment d s)) (ensureBucketReadScopeFor fetch.auth fetch.request.tenantId
      name (some k)) s).1 = .ok () ∧
    s.alpha.objectAt fetch.request.tenantId name k = fetch.request.cid

/-- The principal has what it takes to read the object from the origin, and the cache key of the
object is not that of another one. -/
structure Entitled (d : Deployment) (fetch : Fetch) (s : Server) : Prop where
  time : validateTimeWindow (d.clock s.alpha.tick) fetch.auth.claims = .ok ()
  read : .read ∈ fetch.auth.claims.ops
  unbound : fetch.request.bucket = none →
    fetch.auth.claims.namespacePrefix = none ∧ fetch.auth.claims.pathPrefix = none
  bound : ∀ bucket key, fetch.request.bucket = some bucket → fetch.request.key = some key →
    Proved d fetch bucket key s
  tenantKey : ':' ∉ fetch.request.tenantId.val.toList
  cidKey : ∀ cid ∈ fetch.request.cid, ':' ∉ cid.toList

theorem Entitled.granted (h : Entitled d fetch s) (hs : Registered s)
    (htenant : fetch.auth.claims.tenantId = fetch.request.tenantId)
    (hcid : fetch.request.cid = some cid)
    (hnames : fetch.request.bucket.isSome ∧ fetch.request.key.isSome ∨
      fetch.request.bucket = none ∧ fetch.request.key = none) :
    Granted d fetch.auth fetch.request cid s := by
  have htimely : Timely (atMoment d s) fetch.auth s := fun _ _ => h.time
  rcases hnames with ⟨hbucket, hkey⟩ | ⟨hbucket, hkey⟩
  · obtain ⟨bucket, hbucket⟩ := isSome_iff_exists.1 hbucket
    obtain ⟨key, hkey⟩ := isSome_iff_exists.1 hkey
    obtain ⟨name, k, hobject, hgranted, hbound⟩ := h.bound bucket key hbucket hkey
    exact ⟨htenant, runE_cidBinding_bound hs hobject htimely hgranted h.read rfl hbucket hkey
      (hbound.trans hcid), (unrefused_of_read hs hobject htimely hgranted h.read).2 _ rfl hbucket
      hkey⟩
  · obtain ⟨hns, hpath⟩ := h.unbound hbucket
    exact ⟨htenant, ⟨none, congrArg Prod.fst
      (runE_cidBinding_unbound htenant h.read hns hpath hbucket hkey s)⟩,
      unrefused_of_cid htenant h.read hns hpath hbucket hkey hcid htimely⟩

/-- A principal with a prefix is refused a read by identifier without a binding. -/
theorem not_granted_of_scoped {auth : AuthContext} (hbucket : request.bucket = none)
    (hkey : request.key = none) (hscoped : auth.claims.namespacePrefix.isSome) :
    ¬ Granted d auth request cid s := by
  intro h
  obtain ⟨binding, hrun⟩ := h.binding
  rw [cidBinding, hbucket, hkey] at hrun
  obtain ⟨_, _, hscope, -⟩ := runE_bind_eq_ok _ (Prod.ext hrun rfl)
  have hok : ensureUnscopedCidReadScope auth request.tenantId = .ok () := congrArg Prod.fst hscope
  rw [ensureUnscopedCidReadScope, except_bind_eq_ok] at hok
  obtain ⟨_, -, hok⟩ := hok
  simp [hscoped] at hok
  split at hok <;> cases hok

/-! ### Who asks -/

/-- Who a request is authenticated as when the clock is read, and the claims of its edge token that
are compared with what it asks for. -/
def Authenticates (d : CdnDeployment) (request : CdnRequest) (auth : AuthContext)
    (claims : Option EdgeTokenClaims) : Prop :=
  match request.edgeToken with
  | some token => ∃ c n, signedClaims d token = .ok c ∧ auth = edgeAuth d c token (d.clock n) ∧
      ∀ c' ∈ claims, c' = c
  | none => claims = none ∧ if request.present "x-hsp-capability" then
        authenticateHspCapability d.toDeployment request.toHttpRequestBinding = .ok auth
      else ∃ n, d.authenticateSigv4 (d.clock n) request.toHttpRequestBinding = .ok auth

/-- The claims that the edge token of a request carries. -/
def CdnRequest.claims? (d : CdnDeployment) (request : CdnRequest) : Option EdgeTokenClaims :=
  request.edgeToken.bind fun token => (signedClaims d token).toOption

/-- A read of the key that an edge token names. -/
def EdgeTokenClaims.read (claims : EdgeTokenClaims) : GetObjectRequest where
  tenantId := claims.tenantId
  bucket := claims.binding.map (·.1)
  key := claims.binding.map (·.2)
  cid := claims.cid
  accessProfile := claims.accessProfile
  preferPlaintext := false
  range := none
  ifMatch := none
  ifNoneMatch := none

section Fills

variable {d : CdnDeployment} {request : CdnRequest} {auth : AuthContext}
  {claims : Option EdgeTokenClaims}

theorem cidRequest_names (auth : AuthContext) (claims : Option EdgeTokenClaims)
    (query cid : String) (range : Option RangeSpec) :
    (cidRequest auth claims query cid range).bucket.isSome ∧
        (cidRequest auth claims query cid range).key.isSome ∨
      (cidRequest auth claims query cid range).bucket = none ∧
        (cidRequest auth claims query cid range).key = none := by
  cases claims with
  | none => exact .inr ⟨rfl, rfl⟩
  | some claims => exact binding_cases claims

/-- The key of a read by identifier is the one its token names. -/
theorem Authenticates.steady (h : Authenticates d request auth claims) {object : String}
    {o : Action} (hsteady : ∀ c ∈ request.claims? d, c.read.Steady object o s) (query cid : String)
    (range : Option RangeSpec) : (cidRequest auth claims query cid range).Steady object o s := by
  cases claims with
  | none =>
    cases o with
    | own o => trivial
    | call c => exact fun place hplace => by simp [GetObjectRequest.place, cidRequest] at hplace
  | some c =>
    unfold Authenticates at h
    cases htoken : request.edgeToken with
    | none =>
      rw [htoken] at h
      cases h.1
    | some token =>
      rw [htoken] at h
      obtain ⟨c', now, hsigned, rfl, hc⟩ := h
      obtain rfl := hc c rfl
      have hclaims : c ∈ request.claims? d := by
        simp [CdnRequest.claims?, htoken, hsigned, Except.toOption]
      cases o with
      | own o => trivial
      | call call => exact hsteady c hclaims

end Fills

/-! ### Requests that are handled at the same time -/

/-- A request, to the CDN or to its origin. -/
inductive Visit where
  | cdn (request : CdnRequest)
  | origin (r : Request)

/-- How the request is handled, as a program of a pool.  Only the replies of the CDN are kept. -/
def Visit.thread (d : CdnDeployment) : Visit → Prog edgeSig (Option (Except ApiError Reply))
  | .cdn request => some <$> (handleRequest d request).run
  | .origin r => (fun _ => none) <$> originate (r.handle d.toDeployment).run

/-- Requests that are made to a CDN that has just been set up. -/
def visiting {ι : Type} (d : CdnDeployment) (visits : ι → Visit) :
    Pool ι edgeSig (Option (Except ApiError Reply)) Edge :=
  ⟨fun i => (visits i).thread d, .empty, fun _ => none⟩

/-- Whenever the request calls the origin, the key that its token names is bound to one object or to
none, and if it finds its object in the cache, it is entitled to it. -/
def Visit.Orderly (d : CdnDeployment) (object : String) : Visit → EdgeAction → Edge → Prop
  | .cdn request, .origin o, e => ∀ c ∈ request.claims? d, c.read.Steady object o e.server
  | .cdn _, .fresh fetch key now, e => (e.fresh key now).isSome →
      Entitled d.toDeployment fetch e.server
  | _, _, _ => True

/-- What is served from the cache is the object that was asked for, and the origin would not refuse
it at this moment. -/
def Warranted (d : CdnDeployment) (request : CdnRequest) (response : ObjectResponse) (e : Edge) :
    Prop :=
  ∃ auth claims cid, Authenticates d request auth claims ∧
    stripStart "/cid/" request.rawPath = some cid ∧
    (request.method ≠ "HEAD" → Whole d.toDeployment auth.claims.tenantId cid
      (preferPlaintext claims request.rawQuery) response.body) ∧
    Granted d.toDeployment auth (cidRequest auth claims request.rawQuery cid none) cid e.server

section Promises

variable {d : CdnDeployment} {request : CdnRequest} {object : String} {α : Type}
  {B : Action → Server → Server → Prop}

variable (d request object) in
/-- What a request to the CDN relies on, before an action. -/
def Relies (o : EdgeAction) (e : Edge) : Prop :=
  Stocked d.toDeployment e ∧ (Visit.cdn request).Orderly d object o e

variable (d request object) in
/-- A part of a request to the CDN keeps the cache in order, and its result has a property. -/
abbrev Serves (F : α → Edge → Prop) (x : Serve α) : Prop :=
  Promises (edgeAct d.toDeployment) (Relies d request object)
    (EdgeAction.Files d.toDeployment) F x

theorem serves_checked (x : Except ApiError α) :
    Serves d request object (fun a _ => x = .ok a) (checked x) := fun _ _ ha => ha

theorem serves_clock : Serves d request object (fun now _ => ∃ n, now = d.clock n) clock :=
  fun _ e _ => ⟨fun _ hs => hs, fun _ hnow => ⟨e.server.alpha.tick, (Except.ok.inj hnow).symm⟩⟩

/-- A program of the origin that is safe is so as a part of the CDN. -/
theorem ensures_originate {R : EdgeAction → Edge → Prop} {Q : α → Server → Prop}
    (hR : ∀ o s e, R (.origin o) e → B o s e.server) {p : Prog serverSig α}
    (honly : p.Only (Action.Registers d.toDeployment)) {e : Edge}
    (h : p.Safe (act d.toDeployment) B Q e.server) :
    (originate p).Ensures (edgeAct d.toDeployment) R (EdgeAction.Files d.toDeployment)
      (fun a e => Q a e.server) e := by
  induction p generalizing e with
  | ret a => exact h
  | op o k ih => exact fun e' he => ⟨honly.1, ih _ (honly.2 _) (h e'.server (hR o _ e' he))⟩

theorem serves_fromOrigin {F : α → Prop} {x : Distribution.Dist α}
    (hR : ∀ o s e, Relies d request object (.origin o) e → B o s e.server)
    (honly : OnlyE (Action.Registers d.toDeployment) x) (h : Yields (act d.toDeployment) B F x) :
    Serves d request object (fun a _ => F a) (fromOrigin x) := fun e =>
  (ensures_originate hR honly (h e.server trivial)).mono fun r _ hr a ha => by
    subst ha
    exact hr

theorem serves_decodeEdgeToken (token : String) :
    Serves d request object (fun c _ => signedClaims d token = .ok c) (decodeEdgeToken d token) :=
  .bind (serves_checked _) fun _ hc => .bind serves_clock fun _ _ =>
    .ite (fun _ => .throw _) fun _ => .pure fun _ => hc

theorem serves_authenticateRequest :
    Serves d request object (fun auth _ => Authenticates d request auth none)
      (authenticateRequest d request) := by
  unfold authenticateRequest Authenticates
  cases request.edgeToken with
  | some token =>
    exact .bind (serves_decodeEdgeToken token) fun c hc => .ite (fun _ => .throw _) fun _ =>
      .bind serves_clock fun now ⟨n, hn⟩ => .pure fun _ => ⟨c, n, hc, hn ▸ rfl, nofun⟩
  | none =>
    refine .ite (fun hpresent => ?_) fun hpresent => .ite (fun _ => ?_) fun _ => .throw _
    · simp only [hpresent, if_true, true_and]
      exact serves_checked _
    · simp only [hpresent]
      exact .bind serves_clock fun now ⟨n, hn⟩ =>
        fun _ auth hauth => ⟨trivial, n, hn ▸ hauth⟩

theorem serves_edgeClaims {auth : AuthContext} (h : Authenticates d request auth none) :
    Serves d request object (fun claims _ => Authenticates d request auth claims)
      (edgeClaims d request) := by
  unfold edgeClaims
  cases htoken : request.edgeToken with
  | none => exact .pure fun _ => h
  | some token =>
    refine .bind (serves_decodeEdgeToken token).attempt fun result hresult => ?_
    cases result with
    | error e => exact .pure fun _ => h
    | ok c =>
      refine .pure fun _ => ?_
      unfold Authenticates at h ⊢
      rw [htoken] at h ⊢
      obtain ⟨c', n, hsigned, hauth, -⟩ := h
      refine ⟨c', n, hsigned, hauth, fun c'' hc'' => ?_⟩
      cases hc''
      exact Except.ok.inj ((hresult c rfl).symm.trans hsigned)

variable {auth : AuthContext} {claims : Option EdgeTokenClaims}

/-- The origin answers a read by identifier with the object. -/
theorem serves_getObject (h : Authenticates d request auth claims) (query cid : String)
    (range : Option RangeSpec) :
    Serves d request object (fun response _ => ∃ m chunks, m.manifestCid d.toEnv = cid ∧
        (cidRequest auth claims query cid range).AnsweredWith d.toDeployment response m chunks)
      (fromOrigin (Distribution.getObject d.toDeployment auth
        (cidRequest auth claims query cid range))) := by
  have hsteady (o : Action) (s : Server) (e : Edge)
      (he : Relies d request object (.origin o) e) :
      Between d.toDeployment (cidRequest auth claims query cid range) object o s e.server :=
    ⟨he.1.sound, h.steady he.2 query cid range⟩
  have honly := getObject_registers d.toDeployment auth (cidRequest auth claims query cid range)
  rcases cidRequest_names auth claims query cid range with hnames | ⟨hbucket, hkey⟩
  · refine serves_fromOrigin hsteady honly ((getObject_yields (.inl hnames)).conseq (fun _ h => h)
      ?_ fun _ _ _ => trivial)
    rintro response - ⟨m, chunks, -, hanswered⟩
    exact ⟨m, chunks, (hanswered.requested cid rfl).symm, hanswered⟩
  · -- Without a key, nothing needs to be steady.
    refine serves_fromOrigin (fun o s e he => ⟨he.1.sound, ?_⟩) honly
      (getObject_yields (.inr ⟨hbucket, hkey, rfl⟩))
    cases o with
    | own o => trivial
    | call c => exact fun place hplace => by simp [GetObjectRequest.place, hbucket] at hplace

/-- A read that the origin answers is not a hit, and what is kept of it is in order. -/
theorem serves_serveFresh {method : String} {immutable : Bool} {F : GetObjectResponse → Prop}
    (hfetch : Serves d request object (fun response _ => F response)
      (fromOrigin (Distribution.getObject d.toDeployment fetch.auth fetch.request)))
    (hfiled : ∀ response entry, F response → response.contentRange = none →
      entry.body = response.body → Filed d.toDeployment key entry) :
    Serves d request object (fun response _ => response.cacheStatus ≠ .hit)
      (serveFresh d method key immutable now fetch) := by
  refine .bind hfetch fun response hresponse => .ite (fun hkept => ?_) fun _ =>
    .pure fun _ => nofun
  exact .perform_bind fun _ _ => ⟨hfiled response _ hresponse hkept.1 rfl, fun _ ha => by
    cases ha
    exact nofun⟩

/-- **A hit is warranted.** -/
theorem warranted_of_hit (h : Authenticates d request auth claims)
    (hroute : stripStart "/cid/" request.rawPath = some cid) {e : Edge} {entry : CachedObject}
    (he : Relies d request object (.fresh
      ⟨auth, cidRequest auth claims request.rawQuery cid none⟩ (cidCacheKey auth.claims.tenantId cid
        (preferPlaintext claims request.rawQuery)) now) e)
    (hfound : e.fresh (cidCacheKey auth.claims.tenantId cid
      (preferPlaintext claims request.rawQuery)) now = some entry) :
    Warranted d request (cachedResponse request.method entry) e := by
  have hentitled := he.2 (by rw [hfound]; rfl)
  refine ⟨auth, claims, cid, h, hroute, fun hhead => ?_, hentitled.granted he.1.sound.registered
    rfl rfl (cidRequest_names _ _ _ _ _)⟩
  rw [body_cachedResponse hhead]
  obtain ⟨t, cid', plaintext, hkey, hwhole⟩ :=
    he.1.filed _ _ (filter_eq_some_iff.1 hfound).1 _ _ _ rfl
  obtain ⟨rfl, rfl, rfl⟩ := cidCacheKey_inj hentitled.tenantKey (hentitled.cidKey cid rfl) hkey.symm
  exact hwhole

variable (d request) in
/-- An object that is served from the cache is served rightly. -/
def Rightly (response : ObjectResponse) (e : Edge) : Prop :=
  response.cacheStatus = .hit → Warranted d request response e

theorem serves_serveCid (h : Authenticates d request auth claims)
    (hroute : stripStart "/cid/" request.rawPath = some cid) :
    Serves d request object (Rightly d request) (serveCid d auth claims request cid) := by
  refine .ite (fun _ => .throw _) fun _ => .bind (serves_checked _) fun range _ =>
    .bind serves_clock fun now _ => ?_
  have hfresh : Serves d request object (Rightly d request) (serveFresh d request.method
      (cidCacheKey auth.claims.tenantId cid (preferPlaintext claims request.rawQuery)) true now
      ⟨auth, cidRequest auth claims request.rawQuery cid range⟩) := by
    refine fun e => (serves_serveFresh (serves_getObject h request.rawQuery cid range) ?_ e).mono
      fun _ _ hr response hok hhit => absurd hhit (hr response hok)
    rintro response entry ⟨m, chunks, rfl, hanswered⟩ hwhole hbody t cid' plaintext hkey
    exact ⟨_, _, _, rfl, hbody ▸ whole_of_answered hanswered hwhole⟩
  refine .ite (fun hallow => ?_) fun _ => hfresh
  obtain rfl : range = none := by simpa using hallow
  refine .perform_bind fun e he => ⟨trivial, ?_⟩
  rw [edgeAct]
  cases hfound : e.fresh (cidCacheKey auth.claims.tenantId cid
      (preferPlaintext claims request.rawQuery)) now with
  | none => exact hfresh e
  | some entry =>
    intro response hok _
    cases hok
    exact warranted_of_hit h hroute he hfound

theorem serves_serveName (raw : String) :
    Serves d request object (Rightly d request) (serveName d auth claims request raw) := by
  unfold serveName
  split
  · exact .throw _
  · rename_i rawBucket rawKey _
    refine .bind (serves_checked _) fun bucket _ => .bind (serves_checked _) fun key _ =>
      .bind (serves_checked _) fun _ _ => .bind (serves_checked _) fun range _ =>
      .bind serves_clock fun now _ => ?_
    have hfetch : Serves d request object (fun _ _ => True)
        (fromOrigin (Distribution.getObject d.toDeployment auth
          (nameRequest auth claims request.rawQuery bucket key range))) :=
      serves_fromOrigin (B := fun _ _ _ => True) (fun _ _ _ _ => trivial)
        (getObject_registers _ _ _) (.any _)
    refine fun e => (serves_serveFresh hfetch ?_ e).mono
      fun _ _ hr response hok hhit => absurd hhit (hr response hok)
    exact fun _ _ _ _ _ t cid plaintext hkey =>
      absurd hkey (namespaceCacheKey_ne_cidCacheKey _ _ _ _ _ _ _)

theorem serves_serveObject :
    Serves d request object (Rightly d request) (serveObject d request) := by
  refine .bind serves_authenticateRequest fun auth hauth =>
    .bind (serves_edgeClaims hauth) fun claims hclaims => ?_
  unfold dispatchRequest
  split
  · rename_i cid hroute
    exact serves_serveCid hclaims hroute
  · split
    · exact serves_serveName _
    · exact .throw _

theorem serves_serveAdmin (scope : CapabilityScope) (name : String) (reply : Reply)
    (hreply : ∀ response, reply ≠ .object response) :
    Serves d request object (fun reply e => ∀ response, reply = .object response →
      Rightly d request response e) (serveAdmin d request scope name reply) :=
  .bind serves_authenticateRequest fun _ _ => .bind (serves_checked _) fun _ _ =>
    .pure fun _ response h => absurd h (hreply response)

/-- **A request to the CDN** keeps the cache in order, and is served from it rightly. -/
theorem serves_handleRequest :
    Serves d request object (fun reply e => ∀ response, reply = .object response →
      Rightly d request response e) (handleRequest d request) := by
  refine .ite (fun _ => .throw _) fun _ => .ite (fun _ => .throw _) fun _ =>
    .ite (fun _ => serves_serveAdmin _ _ _ nofun) fun _ =>
    .ite (fun _ => serves_serveAdmin _ _ _ nofun) fun _ => ?_
  refine fun e => Prog.Ensures.bind ((serves_serveObject e).mono fun r e' hr => ?_)
  cases r with
  | error e => exact nofun
  | ok response =>
    intro reply hreply response' hresponse
    cases hreply
    cases hresponse
    exact hr response rfl

end Promises

/-! ### Interleavings -/

section Interleavings

variable (d : CdnDeployment) {ι : Type} (visits : ι → Visit) (objects : ι → String)

/-- What the requests ensure. -/
theorem visiting_trusted : (visiting d visits).Trusted (edgeAct d.toDeployment)
    (Stocked d.toDeployment) (EdgeAction.Files d.toDeployment)
    (fun i o e => (visits i).Orderly d (objects i) o e)
    fun i reply e => ∀ request response, visits i = .cdn request →
      reply = some (.ok (.object response)) → Rightly d request response e := by
  refine ⟨⟨.empty, nofun⟩, fun i => ⟨(visiting d visits).state, ?_⟩⟩
  show ((visits i).thread d).Ensures _ _ _ _ _
  cases visits i with
  | cdn request =>
    refine Prog.Ensures.bind ((serves_handleRequest _).mono fun r e hr => ?_)
    intro request' response hrequest hreply
    cases hrequest
    obtain rfl := some.inj hreply
    exact hr _ rfl response rfl
  | origin r =>
    refine Prog.Ensures.bind ((ensures_originate (B := fun _ _ _ => True)
      (fun _ _ _ _ => trivial) (Registered.handle r) (Yields.any _ _ trivial)).mono
      fun _ _ _ => ?_)
    exact nofun

/-- **What is served from the cache is warranted.**  In every run in which a request that finds its
object in the cache is entitled to it, and in which the key that a token names is bound to one
object or to none whenever a request with this token calls the origin, an answer from the cache
consists of the bytes of the object that was asked for, and at the moment of the answer the origin
would not refuse the same read to the same principal. -/
theorem hits_warranted [DecidableEq ι] {schedule : List ι} {i : ι} {request : CdnRequest}
    (hi : visits i = .cdn request)
    (horderly : (visiting d visits).Always (edgeAct d.toDeployment) (fun c j =>
      ∀ o ∈ (c.threads j).next?, (visits j).Orderly d (objects j) o c.state) (schedule ++ [i]))
    (hgoing : (((visiting d visits).run (edgeAct d.toDeployment) schedule).threads
      i).next?.isSome) {response : ObjectResponse}
    (hreply : (((visiting d visits).run (edgeAct d.toDeployment) (schedule ++ [i])).threads
      i).result? = some (some (.ok (.object response))))
    (hhit : response.cacheStatus = .hit) :
    Warranted d request response
      ((visiting d visits).run (edgeAct d.toDeployment) (schedule ++ [i])).state :=
  Pool.ensures_return (fun o e => Stocked.act o e) (visiting_trusted d visits objects) horderly
    hgoing (Prog.result?_eq_some.1 hreply) request response hi rfl hhit

end Interleavings

/-! ### A principal with a prefix -/

namespace Sample

open Hsp.Sample

/-- A principal that may read nothing but what is in one bucket. -/
def bucketReader : AuthContext :=
  { auth "3" with claims := { (auth "3").claims with namespacePrefix := some "a" } }

/-- A CDN that takes the text of a header for a signature. -/
def cacheDeployment : CdnDeployment :=
  { deployment versionRecords [] 0 with
    edgeSignature := fun _ => "s"
    edgeToJson := fun _ => []
    edgeFromJson := fun _ => none
    authenticateSigv4 := fun _ request =>
      .ok (if request.headers "authorization" = some "bucket" then bucketReader else auth "3") }

/-- A request for the object by its identifier. -/
def objectRequest (signature : String) : CdnRequest where
  method := "GET"
  rawPath := "/cid/" ++ objectCid
  rawQuery := ""
  headers name := if name = "authorization" then some signature else none
  body := []
  present name := name = "authorization"
  readable name h := by
    by_cases hname : name = "authorization" <;> simp_all

theorem objectRequest_token (signature : String) : (objectRequest signature).edgeToken = none := rfl

section

local instance neZero_four : NeZero 4 := ⟨by decide⟩

/-- An object is put, read by a principal without prefixes, and read again. -/
def cacheVisits (signature : String) : Fin 4 → Visit
  | 0 => .origin (versionRequests 0)
  | 1 => .origin (versionRequests 1)
  | 2 => .cdn (objectRequest "tenant")
  | 3 => .cdn (objectRequest signature)

/-- The requests, after the turns of a schedule. -/
def cacheRun (signature : String) (schedule : List (Fin 4)) :
    Pool (Fin 4) edgeSig (Option (Except ApiError Reply)) Edge :=
  (visiting cacheDeployment (cacheVisits signature)).run (edgeAct cacheDeployment.toDeployment)
    schedule

/-- The object is in the cache, and the second read is about to look there. -/
def filled : List (Fin 4) :=
  List.replicate 5 0 ++ List.replicate 7 1 ++ List.replicate 6 2 ++ List.replicate 2 3

/-- What the second read is answered with. -/
def secondRead (signature : String) : Option ObjectResponse :=
  match ((cacheRun signature (filled ++ [3])).threads 3).result? with
  | some (some (.ok (.object response))) => some response
  | _ => none

end

/-- The action is not a lookup, or one by the principal without prefixes. -/
def plain : EdgeAction → Bool
  | .fresh fetch _ _ => fetch.auth = auth "3" ∧ fetch.request.bucket = none ∧
      fetch.request.tenantId = tenant ∧ fetch.request.cid = some objectCid
  | _ => true

theorem secondRead_tenant : (secondRead "tenant").map (fun response =>
    (response.cacheStatus, response.body)) = some (.hit, chunk) := by
  decide +kernel

theorem secondRead_bucket : (secondRead "bucket").map (fun response =>
    (response.cacheStatus, response.body)) = some (.hit, chunk) := by
  decide +kernel

theorem cache_evaluated :
    ((cacheRun "tenant" filled).threads 3).next?.isSome ∧
    (visiting cacheDeployment (cacheVisits "tenant")).Always
      (edgeAct cacheDeployment.toDeployment)
      (fun c j => ∀ o ∈ (c.threads j).next?, plain o = true) (filled ++ [3]) ∧
    ':' ∉ objectCid.toList := by
  decide +kernel

theorem secondRead_eq_some {response : ObjectResponse}
    (h : secondRead signature = some response) :
    ((cacheRun signature (filled ++ [3])).threads 3).result? =
      some (some (.ok (.object response))) := by
  unfold secondRead at h
  -- The run is not looked into, only its result.
  generalize ((cacheRun signature (filled ++ [3])).threads 3).result? = result at h ⊢
  split at h
  · cases h
    rfl
  · cases h

theorem secondRead_hit (h : (secondRead signature).map (fun response =>
      (response.cacheStatus, response.body)) = some (.hit, chunk)) :
    ∃ response, secondRead signature = some response ∧ response.cacheStatus = .hit ∧
      response.body = chunk := by
  obtain ⟨response, hread, hresponse⟩ := map_eq_some_iff.1 h
  exact ⟨response, hread, Prod.mk.inj hresponse⟩

theorem authenticates_bucketReader {auth : AuthContext} {claims : Option EdgeTokenClaims}
    (h : Authenticates cacheDeployment (objectRequest "bucket") auth claims) :
    auth = bucketReader ∧ claims = none := by
  unfold Authenticates at h
  rw [objectRequest_token] at h
  obtain ⟨hclaims, now, hauth⟩ := h
  exact ⟨(Except.ok.inj hauth).symm, hclaims⟩

/-- **A principal with a prefix is served from the cache.**  The object has been read by another
principal; the origin would demand a binding. -/
theorem scoped_hit : ∃ response,
    ((cacheRun "bucket" (filled ++ [3])).threads 3).result? =
      some (some (.ok (.object response))) ∧
    response.cacheStatus = .hit ∧ response.body = chunk ∧
    ¬ Warranted cacheDeployment (objectRequest "bucket") response
      (cacheRun "bucket" (filled ++ [3])).state := by
  obtain ⟨response, hread, hhit, hbody⟩ := secondRead_hit secondRead_bucket
  refine ⟨response, secondRead_eq_some hread, hhit, hbody, ?_⟩
  rintro ⟨auth, claims, cid, hauth, -, -, hgranted⟩
  obtain ⟨rfl, rfl⟩ := authenticates_bucketReader hauth
  exact not_granted_of_scoped rfl rfl rfl hgranted

/-- A principal without prefixes is entitled to the object. -/
theorem entitled_of_plain (h : plain (.fresh fetch key now) = true) (s : Server) :
    Entitled cacheDeployment.toDeployment fetch s := by
  obtain ⟨hauth, hbucket, htenant, hcid⟩ := of_decide_eq_true h
  refine ⟨?_, ?_, fun _ => ?_, fun bucket key hb => ?_, ?_, fun cid hmem => ?_⟩
  · rw [hauth]
    rfl
  · rw [hauth]
    decide
  · rw [hauth]
    exact ⟨rfl, rfl⟩
  · rw [hbucket] at hb
    cases hb
  · rw [htenant]
    decide
  · obtain rfl := some.inj (hcid.symm.trans hmem)
    exact cache_evaluated.2.2

theorem orderly_of_plain {o : EdgeAction} (h : plain o = true) (j : Fin 4) (e : Edge) :
    (cacheVisits "tenant" j).Orderly cacheDeployment "" o e := by
  have hcdn (signature : String) :
      (Visit.cdn (objectRequest signature)).Orderly cacheDeployment "" o e := by
    cases o with
    | origin o =>
      intro c hc
      rw [CdnRequest.claims?, objectRequest_token] at hc
      cases hc
    | fresh fetch key now => exact fun _ => entitled_of_plain h e.server
    | insert key entry => trivial
  match j with
  | 0 => trivial
  | 1 => trivial
  | 2 => exact hcdn _
  | 3 => exact hcdn _

/-- A principal without prefixes is served rightly. -/
theorem plain_hit : ∃ response,
    ((cacheRun "tenant" (filled ++ [3])).threads 3).result? =
      some (some (.ok (.object response))) ∧
    response.cacheStatus = .hit ∧ Warranted cacheDeployment (objectRequest "tenant") response
      (cacheRun "tenant" (filled ++ [3])).state := by
  obtain ⟨response, hread, hhit, -⟩ := secondRead_hit secondRead_tenant
  obtain ⟨hgoing, hplain, -⟩ := cache_evaluated
  have hreply := secondRead_eq_some hread
  refine ⟨response, hreply, hhit, ?_⟩
  have hrequest : cacheVisits "tenant" 3 = .cdn (objectRequest "tenant") := rfl
  have horderly := Pool.Always.mono (fun c j h o ho => orderly_of_plain (h o ho) j c.state) hplain
  unfold cacheRun at hgoing hreply ⊢
  exact hits_warranted cacheDeployment (cacheVisits "tenant") (fun _ => "") hrequest horderly
    hgoing hreply hhit

end Sample

end Hsp.Cdn
