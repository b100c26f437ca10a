import Hsp.Cdn.Answers

/-!
# What an edge token is good for

An edge token names an object by its bucket and key, or by its identifier.  It is decoded twice.
The first time its bucket and key become prefixes of the claims, and the second time they are
compared with the names of the request; but if the token has expired in between, the comparison is
left out.  The origin then refuses the read, since it looks at the clock again.  The cache does not.

* `serveFresh_confined` : what the origin answers is confined to the object that the token names;
* `token_confined_iff` : so is the whole request if and only if what it finds in the cache is.
-/

namespace Hsp.Cdn

open Hsp.Distribution

variable {d : CdnDeployment} {claims : EdgeTokenClaims}

/-! ### Decoding -/

/-- What is written as JSON is read back. -/
def ReadBack (d : CdnDeployment) (claims : EdgeTokenClaims) : Prop :=
  d.edgeFromJson (d.edgeToJson claims) = some claims

theorem signedClaims_mint (hjson : ReadBack d claims) :
    signedClaims d (mintEdgeToken d claims) = .ok claims := by
  have hdot : '.' ∉ (Base64.encode (d.edgeToJson claims)).toList := by
    rw [Base64.encode, String.toList_ofList]
    exact Base64.dot_not_mem_encodeBytes _
  have hsplit : splitOnce '.' (mintEdgeToken d claims) = some (Base64.encode (d.edgeToJson claims),
      d.edgeSignature (Base64.encode (d.edgeToJson claims))) := splitOnce_append hdot _
  have hread : d.edgeFromJson (d.edgeToJson claims) = some claims := hjson
  simp only [signedClaims, hsplit, ne_eq, not_true_eq_false, if_false, Base64.decode_encode, hread]
  rfl

/-- The reading of the clock that is made a number of readings from now. -/
def reading (d : CdnDeployment) (e : Edge) (n : ℕ) : ℕ := d.clock (e.server.alpha.tick + n)

section Request

variable {e : Edge} {claims : EdgeTokenClaims} (hjson : ReadBack d claims)

include hjson

theorem runE_decode (e : Edge) :
    runE (edgeAct d.toDeployment) (decodeEdgeToken d (mintEdgeToken d claims)) e =
      (if reading d e 0 > claims.exp.toNat then .error edgeTokenExpired else .ok claims,
        e.ticked) := by
  rw [decodeEdgeToken, signedClaims_mint hjson, runE_bind_ok _ (runE_checked e _),
    runE_bind_ok _ (runE_clock e)]
  show runE _ (if reading d e 0 > claims.exp.toNat then _ else _) _ = _
  split <;> rfl

variable {request : CdnRequest} (htoken : request.edgeToken = some (mintEdgeToken d claims))

include htoken

/-- The token is accepted. -/
def Admitted (d : CdnDeployment) (e : Edge) (claims : EdgeTokenClaims) (request : CdnRequest) :
    Prop :=
  reading d e 0 ≤ claims.exp.toNat ∧ eqIgnoreAsciiCase claims.method request.method

/-- Who carries the token, by the second reading of the clock. -/
def carrier (d : CdnDeployment) (e : Edge) (claims : EdgeTokenClaims) : AuthContext :=
  edgeAuth d claims (mintEdgeToken d claims) (reading d e 1)

theorem runE_authenticate_ok (h : Admitted d e claims request) :
    runE (edgeAct d.toDeployment) (authenticateRequest d request) e =
      (.ok (carrier d e claims), e.ticked.ticked) := by
  have hdecode : runE (edgeAct d.toDeployment) (decodeEdgeToken d (mintEdgeToken d claims)) e =
      (.ok claims, e.ticked) := by
    rw [runE_decode hjson, if_neg (by have := h.1; omega)]
  rw [authenticateRequest, htoken]
  dsimp only
  rw [authenticateEdgeToken, runE_bind_ok _ hdecode, if_neg (by simp [h.2]),
    runE_bind_ok _ (runE_clock _)]
  rfl

theorem runE_authenticate_error (h : ¬ Admitted d e claims request) :
    ∃ error e', runE (edgeAct d.toDeployment) (authenticateRequest d request) e =
      (.error error, e') := by
  rw [authenticateRequest, htoken]
  dsimp only
  rw [authenticateEdgeToken]
  by_cases hexp : reading d e 0 > claims.exp.toNat
  · exact ⟨_, _, runE_bind_error _ ((runE_decode hjson e).trans (by rw [if_pos hexp]))⟩
  · have hmethod : ¬ eqIgnoreAsciiCase claims.method request.method := fun hm =>
      h ⟨not_lt.1 hexp, hm⟩
    rw [runE_bind_ok _ ((runE_decode hjson e).trans (by rw [if_neg hexp])),
      if_pos (by simpa using hmethod)]
    exact ⟨_, _, rfl⟩

/-- The claims that the names of the request are compared with, by the third reading. -/
def compared (d : CdnDeployment) (e : Edge) (claims : EdgeTokenClaims) :
    Option EdgeTokenClaims :=
  if reading d e 2 > claims.exp.toNat then none else some claims

theorem runE_edgeClaims (e : Edge) :
    runE (edgeAct d.toDeployment) (edgeClaims d request) e.ticked.ticked =
      (.ok (compared d e claims), e.ticked.ticked.ticked) := by
  have hattempt := runE_attempt (edgeAct d.toDeployment)
    (decodeEdgeToken d (mintEdgeToken d claims)) e.ticked.ticked
  have hreading : reading d e.ticked.ticked 0 = reading d e 2 := rfl
  rw [runE_decode hjson, hreading] at hattempt
  rw [edgeClaims, htoken]
  dsimp only
  rw [runE_bind_ok _ hattempt, compared]
  by_cases hexp : reading d e 2 > claims.exp.toNat
  · simp only [if_pos hexp]
    rfl
  · simp only [if_neg hexp]
    rfl

theorem runE_serveObject (h : Admitted d e claims request) :
    runE (edgeAct d.toDeployment) (serveObject d request) e =
      runE (edgeAct d.toDeployment)
        (dispatchRequest d (carrier d e claims) (compared d e claims) request)
        e.ticked.ticked.ticked := by
  rw [serveObject, runE_bind_ok _ (runE_authenticate_ok hjson htoken h),
    runE_bind_ok _ (runE_edgeClaims hjson htoken e)]

end Request

/-! ### The answer of the origin -/

section Serve

variable {e e' : Edge} {method key : String} {fetch : Fetch}
  {response : ObjectResponse}

theorem serveFresh_ok {immutable : Bool} {now : ℕ}
    (h : runE (edgeAct d.toDeployment) (serveFresh d method key immutable now fetch) e =
      (.ok response, e')) :
    ∃ got s', runE (act d.toDeployment)
        (Distribution.getObject d.toDeployment fetch.auth fetch.request) e.server = (.ok got, s') ∧
      response = originResponse method got := by
  obtain ⟨got, e₁, hfetch, h⟩ := runE_bind_eq_ok _ h
  rw [runE_fromOrigin, Prod.mk.injEq] at hfetch
  refine ⟨got, _, Prod.ext hfetch.1 rfl, ?_⟩
  dsimp only at h
  split at h <;> exact (Except.ok.inj (congrArg Prod.fst h)).symm

/-- An object is served from the cache, or else by the origin. -/
theorem serveCachedObject_ok {immutable allowCacheHit : Bool}
    (h : runE (edgeAct d.toDeployment)
      (serveCachedObject d method key immutable allowCacheHit fetch) e = (.ok response, e')) :
    (allowCacheHit = true ∧ ∃ entry, e.fresh key (d.clock e.server.alpha.tick) = some entry ∧
      response = cachedResponse method entry) ∨
    ∃ got s', runE (act d.toDeployment)
        (Distribution.getObject d.toDeployment fetch.auth fetch.request) e.server.ticked =
          (.ok got, s') ∧
      response = originResponse method got := by
  rw [serveCachedObject, runE_bind_ok _ (runE_clock e)] at h
  split at h
  · rename_i hallow
    rw [runE_bind_ok _ (runE_fresh _ _ _ _)] at h
    cases hfound : e.ticked.fresh key (d.clock e.server.alpha.tick) with
    | some entry =>
      rw [hfound] at h
      exact .inl ⟨hallow, entry, hfound, (Except.ok.inj (congrArg Prod.fst h)).symm⟩
    | none =>
      rw [hfound] at h
      exact .inr (serveFresh_ok h)
  · exact .inr (serveFresh_ok h)

end Serve

/-! ### Confinement -/

section Confinement

variable (d) (e : Edge) (claims : EdgeTokenClaims) (request : CdnRequest)

/-- The request names the bucket and the key that the token names. -/
structure Names (bucket key : String) : Prop where
  route : ∃ raw rawBucket rawKey, stripStart "/b/" request.rawPath = some raw ∧
    splitOnce '/' raw = some (rawBucket, rawKey) ∧ canonicalBucketName rawBucket = .ok bucket ∧
    canonicalObjectKeyName rawKey = .ok key
  bucket : canonicalClaim canonicalBucketName claims.bucket = .ok (some bucket)
  key : canonicalClaim canonicalObjectKeyName claims.key = .ok (some key)

/-- The bytes of a response are those of the object that a key of a bucket is bound to. -/
def BytesAt (bucket key : String) (body : List UInt8) : Prop :=
  ∃ place cid, (nameRequest (carrier d e claims) none "" bucket key none).place = some place ∧
    e.server.alpha.objectAt claims.tenantId place.1 place.2 = some cid ∧
    BytesOf d.toDeployment claims.tenantId cid body

/-- What is served is the object that the token names, by its identifier or by its bucket and
key. -/
def Confined (response : ObjectResponse) : Prop :=
  match stripStart "/cid/" request.rawPath with
  | some cid => claims.cid = some cid ∧
      (request.method ≠ "HEAD" → BytesOf d.toDeployment claims.tenantId cid response.body)
  | none => ∃ bucket key, Names claims request bucket key ∧
      (request.method ≠ "HEAD" → BytesAt d e claims bucket key response.body)

/-- The request is answered from the cache. -/
structure Hit (cid : String) (entry : CachedObject) : Prop where
  method : request.method = "GET" ∨ request.method = "HEAD"
  body : request.body = []
  admitted : Admitted d e claims request
  route : stripStart "/cid/" request.rawPath = some cid
  compared : ∀ c ∈ compared d e claims, c.cid = some cid
  whole : parseRange request.headers = .ok none
  found : e.fresh (cidCacheKey claims.tenantId cid
    (preferPlaintext (Cdn.compared d e claims) request.rawQuery)) (reading d e 3) = some entry

end Confinement

section Proof

variable {e e' : Edge} {claims : EdgeTokenClaims} {request : CdnRequest} {response : ObjectResponse}
  {got : GetObjectResponse} {s' : Server} {cid : String} {range : Option RangeSpec}

theorem sound_ticked {d : Deployment} {s : Server} (h : Distribution.Sound d s) :
    Distribution.Sound d s.ticked :=
  h.act (o := .own .now) fun _ hs => hs

/-- The origin does not answer once the token has expired. -/
theorem compared_of_answer (hclock : Monotone d.clock) {get : GetObjectRequest}
    (h : runE (act d.toDeployment)
      (Distribution.getObject d.toDeployment (carrier d e claims) get)
      e.ticked.ticked.ticked.server.ticked = (.ok got, s')) :
    compared d e claims = some claims := by
  obtain ⟨n, hn, htime⟩ := timely_of_answer h
  have hle : reading d e 2 ≤ d.clock n := by
    refine hclock (le_trans ?_ hn)
    exact Nat.le_add_right (e.server.alpha.tick + 2) 2
  refine if_neg fun hexp => ?_
  have hlate : d.clock n > (carrier d e claims).claims.exp.toNat := lt_of_lt_of_le hexp hle
  rw [validateTimeWindow, if_pos hlate] at htime
  cases htime

theorem binding_cases (claims : EdgeTokenClaims) :
    (claims.binding.map (·.1)).isSome ∧ (claims.binding.map (·.2)).isSome ∨
      claims.binding.map (·.1) = none ∧ claims.binding.map (·.2) = none := by
  cases claims.binding <;> simp

/-- **What the origin answers to a read by identifier is confined.** -/
theorem cid_confined (hclock : Monotone d.clock) (hs : Distribution.Sound d.toDeployment e.server)
    (hcompared : ∀ c ∈ compared d e claims, c.cid = some cid)
    (h : runE (act d.toDeployment) (Distribution.getObject d.toDeployment (carrier d e claims)
        (cidRequest (carrier d e claims) (compared d e claims) request.rawQuery cid range))
      e.ticked.ticked.ticked.server.ticked = (.ok got, s')) :
    claims.cid = some cid ∧ BytesOf d.toDeployment claims.tenantId cid got.body := by
  have hsome := compared_of_answer hclock h
  refine ⟨hcompared claims hsome, ?_⟩
  have hsound : Distribution.Sound d.toDeployment e.ticked.ticked.ticked.server.ticked :=
    sound_ticked (sound_ticked (sound_ticked (sound_ticked hs)))
  rw [hsome] at h
  exact answer_of_cid hsound rfl (binding_cases claims) h

/-- **What the origin answers to a read by name is confined.** -/
theorem name_confined (hclock : Monotone d.clock) (hs : Distribution.Sound d.toDeployment e.server)
    {bucket key : String} (hnames : checkNames (compared d e claims) bucket key = .ok ())
    (h : runE (act d.toDeployment) (Distribution.getObject d.toDeployment (carrier d e claims)
        (nameRequest (carrier d e claims) (compared d e claims) request.rawQuery bucket key range))
      e.ticked.ticked.ticked.server.ticked = (.ok got, s')) :
    canonicalClaim canonicalBucketName claims.bucket = .ok (some bucket) ∧
      canonicalClaim canonicalObjectKeyName claims.key = .ok (some key) ∧
      BytesAt d e claims bucket key got.body := by
  have hsome := compared_of_answer hclock h
  have hsound : Distribution.Sound d.toDeployment e.ticked.ticked.ticked.server.ticked :=
    sound_ticked (sound_ticked (sound_ticked (sound_ticked hs)))
  obtain ⟨place, cid, hplace, hobject, -, hbytes⟩ := answer_of_key hsound rfl rfl h
  rw [hsome, checkNames, except_bind_eq_ok] at hnames
  obtain ⟨claimsBucket, hbucket, hnames⟩ := hnames
  obtain ⟨claimsKey, hkey, hnames⟩ := except_bind_eq_ok.1 hnames
  split at hnames
  · cases hnames
  · rename_i hsame
    rw [not_or, not_not, not_not] at hsame
    exact ⟨hsame.1 ▸ hbucket, hsame.2 ▸ hkey, place, cid, hplace, hobject, hbytes⟩

theorem body_originResponse (h : request.method ≠ "HEAD") :
    (originResponse request.method got).body = got.body := if_neg h

theorem body_cachedResponse {entry : CachedObject} (h : request.method ≠ "HEAD") :
    (cachedResponse request.method entry).body = entry.body := if_neg h

/-- A request for an identifier that is answered, by the cache or by the origin. -/
theorem serveCid_ok (hclock : Monotone d.clock) (hs : Distribution.Sound d.toDeployment e.server)
    (h : runE (edgeAct d.toDeployment)
      (serveCid d (carrier d e claims) (compared d e claims) request cid) e.ticked.ticked.ticked =
        (.ok response, e')) :
    (∀ c ∈ compared d e claims, c.cid = some cid) ∧
    ((parseRange request.headers = .ok none ∧ ∃ entry, e.fresh (cidCacheKey claims.tenantId cid
        (preferPlaintext (compared d e claims) request.rawQuery)) (reading d e 3) = some entry ∧
        response = cachedResponse request.method entry) ∨
      claims.cid = some cid ∧ (request.method ≠ "HEAD" →
        BytesOf d.toDeployment claims.tenantId cid response.body)) := by
  rw [serveCid] at h
  split at h
  · cases h
  rename_i hany
  have hcompared : ∀ c ∈ compared d e claims, c.cid = some cid := by
    intro c hc
    by_contra hne
    exact hany ((Option.any_eq_true _ _).2 ⟨c, hc, decide_eq_true hne⟩)
  refine ⟨hcompared, ?_⟩
  obtain ⟨range, _, hrun, h⟩ := runE_bind_eq_ok _ h
  obtain ⟨hrange, rfl⟩ := checked_ok hrun
  rcases serveCachedObject_ok h with ⟨hwhole, entry, hfound, rfl⟩ | ⟨got, s', hgot, rfl⟩
  · rw [Option.isNone_iff_eq_none] at hwhole
    subst hwhole
    exact .inl ⟨hrange, entry, hfound, rfl⟩
  · obtain ⟨hcid, hbytes⟩ := cid_confined hclock hs hcompared hgot
    exact .inr ⟨hcid, fun hhead => by rwa [body_originResponse hhead]⟩

theorem serveName_ok (hclock : Monotone d.clock) (hs : Distribution.Sound d.toDeployment e.server)
    {raw : String} (hroute : stripStart "/b/" request.rawPath = some raw)
    (h : runE (edgeAct d.toDeployment)
      (serveName d (carrier d e claims) (compared d e claims) request raw) e.ticked.ticked.ticked =
        (.ok response, e')) :
    ∃ bucket key, Names claims request bucket key ∧
      (request.method ≠ "HEAD" → BytesAt d e claims bucket key response.body) := by
  rw [serveName] at h
  split at h
  · cases h
  rename_i rawBucket rawKey hsplit
  obtain ⟨bucket, _, hrun, h⟩ := runE_bind_eq_ok _ h
  obtain ⟨hbucket, rfl⟩ := checked_ok hrun
  obtain ⟨key, _, hrun, h⟩ := runE_bind_eq_ok _ h
  obtain ⟨hkey, rfl⟩ := checked_ok hrun
  obtain ⟨_, _, hrun, h⟩ := runE_bind_eq_ok _ h
  obtain ⟨hnames, rfl⟩ := checked_ok hrun
  obtain ⟨range, _, hrun, h⟩ := runE_bind_eq_ok _ h
  obtain ⟨-, rfl⟩ := checked_ok hrun
  rcases serveCachedObject_ok h with ⟨hnever, -⟩ | ⟨got, s', hgot, rfl⟩
  · cases hnever
  · obtain ⟨hclaimsBucket, hclaimsKey, hbytes⟩ := name_confined hclock hs hnames hgot
    exact ⟨bucket, key, ⟨⟨raw, rawBucket, rawKey, hroute, hsplit, hbucket, hkey⟩, hclaimsBucket,
      hclaimsKey⟩, fun hhead => by rwa [body_originResponse hhead]⟩

theorem serveAdmin_refused (hjson : ReadBack d claims)
    (htoken : request.edgeToken = some (mintEdgeToken d claims)) {scope : CapabilityScope}
    (hscope : scope ≠ .read) {name : String} {reply reply' : Reply} :
    runE (edgeAct d.toDeployment) (serveAdmin d request scope name reply) e ≠
      (.ok reply', e') := by
  intro h
  obtain ⟨auth, e₁, hauth, h⟩ := runE_bind_eq_ok _ h
  obtain ⟨_, _, hrequired, -⟩ := runE_bind_eq_ok _ h
  by_cases hadmitted : Admitted d e claims request
  · rw [runE_authenticate_ok hjson htoken hadmitted] at hauth
    cases hauth
    have hops : scope ∉ (carrier d e claims).claims.ops := by simp [carrier, edgeAuth, hscope]
    rw [requireScope, if_neg hops] at hrequired
    cases hrequired
  · obtain ⟨error, e₂, herror⟩ := runE_authenticate_error hjson htoken hadmitted
    rw [herror] at hauth
    cases hauth

/-- A reply to a request with a token is an object that is served. -/
theorem handleRequest_ok (hjson : ReadBack d claims)
    (htoken : request.edgeToken = some (mintEdgeToken d claims)) {reply : Reply}
    (h : runE (edgeAct d.toDeployment) (handleRequest d request) e = (.ok reply, e')) :
    (request.method = "GET" ∨ request.method = "HEAD") ∧ request.body = [] ∧
      Admitted d e claims request ∧ ∃ response e', reply = .object response ∧
        runE (edgeAct d.toDeployment)
          (dispatchRequest d (carrier d e claims) (compared d e claims) request)
          e.ticked.ticked.ticked = (.ok response, e') := by
  rw [handleRequest] at h
  split at h
  · cases h
  rename_i hmethod
  split at h
  · cases h
  rename_i hbody
  split at h
  · exact absurd h (serveAdmin_refused hjson htoken (by decide))
  split at h
  · exact absurd h (serveAdmin_refused hjson htoken (by decide))
  obtain ⟨response, e', hserve, hreply⟩ := runE_bind_eq_ok _ h
  have hadmitted : Admitted d e claims request := by
    by_contra hnot
    obtain ⟨error, e₁, herror⟩ := runE_authenticate_error hjson htoken hnot
    rw [serveObject, runE_bind_error _ herror] at hserve
    cases hserve
  rw [runE_serveObject hjson htoken hadmitted] at hserve
  refine ⟨by tauto, not_not.1 hbody, hadmitted, response, e', ?_, hserve⟩
  exact (Except.ok.inj (congrArg Prod.fst hreply)).symm

theorem answered_of_hit (hjson : ReadBack d claims)
    (htoken : request.edgeToken = some (mintEdgeToken d claims)) {entry : CachedObject}
    (h : Hit d e claims request cid entry) :
    (runE (edgeAct d.toDeployment) (handleRequest d request) e).1 =
      .ok (.object (cachedResponse request.method entry)) := by
  have hroute (path : String) (hpath : stripStart "/cid/" path = none) :
      request.rawPath ≠ path := by
    rintro rfl
    cases h.route.symm.trans hpath
  have hserve : runE (edgeAct d.toDeployment) (serveObject d request) e =
      (.ok (cachedResponse request.method entry), e.ticked.ticked.ticked.ticked) := by
    have hany : ¬ (compared d e claims).any (·.cid ≠ some cid) := by
      rw [Option.any_eq_true]
      rintro ⟨c, hc, hne⟩
      exact of_decide_eq_true hne (h.compared c hc)
    have hfound : e.ticked.ticked.ticked.ticked.fresh (cidCacheKey
        (carrier d e claims).claims.tenantId cid
        (preferPlaintext (compared d e claims) request.rawQuery))
        (d.clock e.ticked.ticked.ticked.server.alpha.tick) = some entry := h.found
    rw [runE_serveObject hjson htoken h.admitted, dispatchRequest, h.route]
    dsimp only
    rw [serveCid, if_neg hany, h.whole, runE_bind_ok _ (runE_checked _ _), serveCachedObject,
      runE_bind_ok _ (runE_clock _), if_pos (by rfl), runE_bind_ok _ (runE_fresh _ _ _ _), hfound]
    rfl
  rw [handleRequest, if_neg (by have := h.method; tauto), if_neg (not_not.2 h.body),
    if_neg fun hmetrics => hroute _ (by decide) hmetrics.2,
    if_neg fun hlogs => hroute _ (by decide) hlogs.2, runE_bind_ok _ hserve]
  rfl

end Proof

/-- **An edge token is confined to the object it names, if and only if the cache is.**  Whenever the
request is answered, it names the object that the token names, and carries bytes of this object
only, provided that an entry that it is answered with from the cache is of this object. -/
theorem token_confined_iff (hclock : Monotone d.clock) {e : Edge}
    (hs : Distribution.Sound d.toDeployment e.server)
    {claims : EdgeTokenClaims} (hjson : ReadBack d claims) {request : CdnRequest}
    (htoken : request.edgeToken = some (mintEdgeToken d claims)) :
    (∀ reply, (Prog.runE (edgeAct d.toDeployment) (handleRequest d request) e).1 = .ok reply →
      ∃ response, reply = .object response ∧ Confined d e claims request response) ↔
    ∀ cid entry, Hit d e claims request cid entry → claims.cid = some cid ∧
      (request.method ≠ "HEAD" → BytesOf d.toDeployment claims.tenantId cid entry.body) := by
  constructor
  · intro hall cid entry hhit
    obtain ⟨response, hreply, hconfined⟩ := hall _ (answered_of_hit hjson htoken hhit)
    obtain rfl := (Reply.object.inj hreply)
    rw [Confined, hhit.route] at hconfined
    exact ⟨hconfined.1, fun hhead => by
      have := hconfined.2 hhead
      rwa [body_cachedResponse hhead] at this⟩
  · intro hcache reply hok
    obtain ⟨hmethod, hbody, hadmitted, response, e', rfl, hserve⟩ :=
      handleRequest_ok hjson htoken (Prod.ext hok rfl)
    refine ⟨response, rfl, ?_⟩
    unfold Confined
    rw [dispatchRequest] at hserve
    cases hcid : stripStart "/cid/" request.rawPath with
    | some cid =>
      rw [hcid] at hserve
      obtain ⟨hcompared, ⟨hwhole, entry, hfound, rfl⟩ | hconfined⟩ :=
        serveCid_ok hclock hs hserve
      · obtain ⟨hnamed, hbytes⟩ := hcache cid entry
          ⟨hmethod, hbody, hadmitted, hcid, hcompared, hwhole, hfound⟩
        exact ⟨hnamed, fun hhead => by
          rw [body_cachedResponse hhead]
          exact hbytes hhead⟩
      · exact hconfined
    | none =>
      rw [hcid] at hserve
      dsimp only at hserve
      split at hserve
      · rename_i raw hraw
        exact serveName_ok hclock hs hraw hserve
      · cases hserve

theorem not_confined {e : Edge} {request : CdnRequest} {cid : String}
    (hroute : stripStart "/cid/" request.rawPath = some cid) (hne : claims.cid ≠ some cid)
    (response : ObjectResponse) : ¬ Confined d e claims request response := by
  rw [Confined, hroute]
  exact fun h => hne h.1

/-! ### A token that expires -/

namespace Sample

open Hsp.Sample

/-- The claims of a token for an object. -/
def claimsFor (cid : String) (exp : UInt64) : EdgeTokenClaims where
  tenantId := tenant
  bucket := none
  key := none
  cid := some cid
  accessProfile := .publicCiphertext
  method := "GET"
  exp := exp

/-- A token for an object that nobody has put. -/
def namedClaims : EdgeTokenClaims := claimsFor "named" 0

def objectClaims : EdgeTokenClaims := claimsFor objectCid 9

def jsonOption : Option String → String
  | none => "null"
  | some text => "\"" ++ text ++ "\""

/-- The text of claims whose fields have no characters that must be escaped. -/
def claimsJson (claims : EdgeTokenClaims) : String :=
  "\x7b\"tenant_id\":" ++ jsonOption claims.tenantId.val ++ ",\"bucket\":" ++
    jsonOption claims.bucket ++ ",\"key\":" ++ jsonOption claims.key ++ ",\"cid\":" ++
    jsonOption claims.cid ++ ",\"access_profile\":" ++
    (match claims.accessProfile with
      | .publicCiphertext => "\"public-ciphertext\""
      | .trustedEdgeV1 => "\"trusted-edge-v1\"") ++
    ",\"method\":" ++ jsonOption claims.method ++ ",\"exp\":" ++ toString claims.exp.toNat ++ "\x7d"

/-- A CDN whose clock advances whenever it is read. -/
def cdnDeployment : CdnDeployment :=
  { deployment [] [] 0 with
    clock := id
    edgeSignature := fun _ => "s"
    edgeToJson := fun claims => utf8 (claimsJson claims)
    edgeFromJson := fun bytes =>
      [namedClaims, objectClaims].find? fun claims => utf8 (claimsJson claims) = bytes
    authenticateSigv4 := fun _ _ => .error edgeTokenExpired }

/-- The request carries a token and asks for the object. -/
def tokenRequest (claims : EdgeTokenClaims) : CdnRequest where
  method := "GET"
  rawPath := "/cid/" ++ objectCid
  rawQuery := ""
  headers name := if name = "x-hsp-edge-token" then some (mintEdgeToken cdnDeployment claims)
    else none
  body := []
  present name := name = "x-hsp-edge-token"
  readable name h := by
    by_cases hname : name = "x-hsp-edge-token" <;> simp_all

def objectEntry : CachedObject := ⟨chunk, "", objectCid, "", 1, 9⟩

/-- A cache with one entry. -/
def cacheOf (key : String) (entry : CachedObject) (k : String) : Option CachedObject :=
  if k = key then some entry else none

theorem cacheOf_self (key : String) (entry : CachedObject) : cacheOf key entry key = some entry :=
  if_pos rfl

theorem edgeToken_tokenRequest (claims : EdgeTokenClaims) :
    (tokenRequest claims).edgeToken = some (mintEdgeToken cdnDeployment claims) := rfl

/-- The object is in the cache. -/
def warmEdge : Edge := ⟨.empty, cacheOf (cidCacheKey tenant objectCid false) objectEntry⟩

theorem stripStart_append (start rest : String) : stripStart start (start ++ rest) = some rest := by
  rw [stripStart, if_pos (by simp), String.toList_append, ← String.length_toList, List.drop_left,
    String.ofList_toList]

theorem found_object {claims : EdgeTokenClaims} (htenant : claims.tenantId = tenant)
    (hmode : preferPlaintext (compared cdnDeployment warmEdge claims) "" = false) :
    warmEdge.fresh (cidCacheKey claims.tenantId objectCid
      (preferPlaintext (compared cdnDeployment warmEdge claims) ""))
      (reading cdnDeployment warmEdge 3) = some objectEntry := by
  have hcache : warmEdge.cache = cacheOf (cidCacheKey tenant objectCid false) objectEntry := rfl
  rw [hmode, htenant, Edge.fresh, hcache, cacheOf_self]
  rfl

/-- The token for another object has expired when it is compared with the request. -/
theorem named_hit :
    Hit cdnDeployment warmEdge namedClaims (tokenRequest namedClaims) objectCid objectEntry where
  method := .inl rfl
  body := rfl
  admitted := ⟨by decide, by decide⟩
  route := stripStart_append _ _
  compared c hc := by cases hc
  whole := rfl
  found := found_object rfl rfl

theorem object_hit :
    Hit cdnDeployment warmEdge objectClaims (tokenRequest objectClaims) objectCid objectEntry where
  method := .inl rfl
  body := rfl
  admitted := ⟨by decide, by decide⟩
  route := stripStart_append _ _
  compared c hc := by
    cases hc
    rfl
  whole := rfl
  found := found_object rfl rfl

theorem readBack_named : ReadBack cdnDeployment namedClaims := by
  unfold ReadBack cdnDeployment
  dsimp only
  rw [List.find?_cons_of_pos (by simp)]

theorem claimsJson_ne : utf8 (claimsJson namedClaims) ≠ utf8 (claimsJson objectClaims) := by
  decide +kernel

theorem readBack_object : ReadBack cdnDeployment objectClaims := by
  unfold ReadBack cdnDeployment
  dsimp only
  rw [List.find?_cons_of_neg (by simpa using claimsJson_ne), List.find?_cons_of_pos (by simp)]

theorem named_ne_objectCid : namedClaims.cid ≠ some objectCid := by
  intro h
  have hhead := congrArg (Option.map fun s : String => s.toList.head?) h
  simp [namedClaims, claimsFor, objectCid, cid] at hhead

theorem chunk_bytes : BytesOf cdnDeployment.toDeployment tenant objectCid chunk :=
  ⟨object, [chunk], .cons rfl .nil, rfl, .inl ⟨none, by decide⟩⟩

/-- **A token that expires while it is used opens the cache.**  It is valid when it is decoded first
and expired when it is decoded again, and the answer carries the bytes of another object. -/
theorem other_object_served :
    (Prog.runE (edgeAct cdnDeployment.toDeployment)
      (handleRequest cdnDeployment (tokenRequest namedClaims)) warmEdge).1 =
        .ok (.object (cachedResponse "GET" objectEntry)) ∧
    (tokenRequest namedClaims).edgeToken = some (mintEdgeToken cdnDeployment namedClaims) ∧
    (cachedResponse "GET" objectEntry).body = chunk ∧
    BytesOf cdnDeployment.toDeployment tenant objectCid chunk ∧
    namedClaims.cid ≠ some objectCid ∧
    ¬ Confined cdnDeployment warmEdge namedClaims (tokenRequest namedClaims)
      (cachedResponse "GET" objectEntry) := by
  exact ⟨answered_of_hit readBack_named (edgeToken_tokenRequest _) named_hit,
    edgeToken_tokenRequest _, rfl, chunk_bytes, named_ne_objectCid,
    not_confined named_hit.route named_ne_objectCid _⟩

theorem hit_object {cid : String} {entry : CachedObject}
    (h : Hit cdnDeployment warmEdge objectClaims (tokenRequest objectClaims) cid entry) :
    cid = objectCid ∧ entry = objectEntry := by
  obtain rfl := Option.some.inj (h.route.symm.trans object_hit.route)
  exact ⟨rfl, Option.some.inj (h.found.symm.trans object_hit.found)⟩

/-- A token for the object opens the cache, and the answer is confined. -/
theorem named_object_served :
    (Prog.runE (edgeAct cdnDeployment.toDeployment)
      (handleRequest cdnDeployment (tokenRequest objectClaims)) warmEdge).1 =
        .ok (.object (cachedResponse "GET" objectEntry)) ∧
    (cachedResponse "GET" objectEntry).body = chunk ∧
    ∀ reply, (Prog.runE (edgeAct cdnDeployment.toDeployment)
        (handleRequest cdnDeployment (tokenRequest objectClaims)) warmEdge).1 = .ok reply →
      ∃ response, reply = .object response ∧
        Confined cdnDeployment warmEdge objectClaims (tokenRequest objectClaims) response := by
  have htoken := edgeToken_tokenRequest objectClaims
  refine ⟨answered_of_hit readBack_object htoken object_hit, rfl,
    (token_confined_iff monotone_id Distribution.Sound.empty readBack_object htoken).2 ?_⟩
  intro cid entry hhit
  obtain ⟨rfl, rfl⟩ := hit_object hhit
  exact ⟨rfl, fun _ => chunk_bytes⟩

end Sample

end Hsp.Cdn
