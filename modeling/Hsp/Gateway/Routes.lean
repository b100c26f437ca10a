import Hsp.S3.Server

/-!
# The routes of the gateway

`hsp-gw` decides by the method and the raw path of a request which operation is asked for, and takes
its arguments from the path and the query as they stand: nothing is decoded here.  The arguments in
the body of a request, and its authorization, are left to the operation.
-/

namespace Hsp.Gateway

open List String

open Cdn (splitOnce parseU64)
open S3 (parseU32)

variable {pat before : List Char} {text start stop marker : String}

/-! ### Texts -/

def startsWith (start text : String) : Bool := start.toList.isPrefixOf text.toList

def endsWith (stop text : String) : Bool := stop.toList.isSuffixOf text.toList

def trimLoop (pat : List Char) : ℕ → List Char → List Char
  | 0, text => text
  | fuel + 1, text =>
    if pat.isPrefixOf text then trimLoop pat fuel (text.drop pat.length) else text

/-- `trim_start_matches`: the pattern is removed as often as the text begins with it. -/
def trimStartMatches (pat text : String) : String :=
  .ofList (trimLoop pat.toList text.length text.toList)

/-- `trim_end_matches`. -/
def trimEndMatches (pat text : String) : String :=
  .ofList (trimLoop pat.toList.reverse text.length text.toList.reverse).reverse

/-- The text before and after the first occurrence of a marker that is not empty. -/
def splitAtMarker (marker : List Char) : List Char → Option (List Char × List Char)
  | [] => none
  | c :: rest =>
    if marker.isPrefixOf (c :: rest) then some ([], (c :: rest).drop marker.length)
    else (splitAtMarker marker rest).map fun (before, after) => (c :: before, after)

/-- `split_once` at a text. -/
def splitOnceAt (marker text : String) : Option (String × String) :=
  (splitAtMarker marker.toList text.toList).map fun (before, after) =>
    (.ofList before, .ofList after)

def contains (marker text : String) : Bool := (splitAtMarker marker.toList text.toList).isSome

def splitLoop (marker : List Char) : ℕ → List Char → List (List Char)
  | 0, text => [text]
  | fuel + 1, text =>
    match splitAtMarker marker text with
    | none => [text]
    | some (before, after) => before :: splitLoop marker fuel after

/-- `split` at a text. -/
def splitAll (marker text : String) : List String :=
  (splitLoop marker.toList text.length text.toList).map String.ofList

/-! ### Queries -/

/-- The first value of a key, as it stands in the query. -/
def queryValue (query key : String) : Option String :=
  (((query.toList.splitOn '&').filterMap fun pair => splitOnce '=' (.ofList pair)).find?
    (·.1 = key)).map (·.2)

def requiredQuery (query key : String) : Except ApiError String :=
  match queryValue query key with
  | some value => .ok value
  | none =>
    .error ⟨.validation, "missing_" ++ key, key ++ " query parameter is required"⟩

def tenantFromQuery (query : String) : Except ApiError TenantId :=
  TenantId.mk <$> requiredQuery query "tenant_id"

/-- A value that must be readable if it is there. -/
def parsed {α : Type} (parse : String → Option α) (error : ApiError) :
    Option String → Except ApiError (Option α)
  | none => .ok none
  | some value => match parse value with
    | some a => .ok (some a)
    | none => .error error

def requiredParsed {α : Type} (parse : String → Option α) (error : ApiError) (value : String) :
    Except ApiError α :=
  match parse value with
  | some a => .ok a
  | none => .error error

def invalidRange : ApiError := ⟨.validation, "invalid_range", "invalid range"⟩

def invalidRevision : ApiError := ⟨.validation, "invalid_revision", "invalid revision"⟩

def invalidLimit : ApiError := ⟨.validation, "invalid_limit", "invalid limit"⟩

def invalidHeartbeat : ApiError := ⟨.validation, "invalid_heartbeat_ms", "invalid heartbeat"⟩

def parsePreference (value : String) : Option GetPreference :=
  if value = "chunk-stream" then some .chunkStream
  else if value = "manifest-only" then some .manifestOnly
  else if value = "raw" then some .raw
  else none

def parseEventType (value : String) : Option EventType :=
  if value = "object.committed" then some .objectCommitted
  else if value = "namespace.bound" then some .namespaceBound
  else if value = "namespace.unbound" then some .namespaceUnbound
  else if value = "namespace.tombstoned" then some .namespaceTombstoned
  else if value = "auth.denied" then some .authDenied
  else if value = "pin.accepted" then some .pinAccepted
  else none

/-! ### Paths -/

def splitNamespaceOperation (path marker : String) : Except ApiError (String × String) :=
  match splitOnceAt marker (trimStartMatches "/v1/namespaces/" path) with
  | some names => .ok names
  | none => .error ⟨.validation, "invalid_namespace_route", "invalid namespace route"⟩

def splitNamespaceObjectRoute (path start : String) : Except ApiError (String × String) :=
  match splitOnce '/' (trimStartMatches start path) with
  | some names => .ok names
  | none => .error ⟨.validation, "invalid_namespace_route", "invalid namespace object route"⟩

/-! ### Operations -/

/-- The methods that are told apart. -/
inductive Method where
  | get | head | put | post | delete | other
  deriving DecidableEq

deriving instance DecidableEq for HeadRequest, GetRequest, PutChunkRequest, ResolveRequest,
  ListRequest, SubscribeFilter, SubscribeRequest

/-- What a request asks for.  Arguments that come in its body are not shown. -/
inductive Route where
  | bootstrap
  | info
  | metrics
  | logs
  | putInit
  | head (request : HeadRequest)
  | get (request : GetRequest)
  | putChunk (request : PutChunkRequest) (contentEncoding : String)
  | putCommit (sessionId : String)
  | resolve (request : ResolveRequest)
  | bind (ns path : String)
  | unbind (ns path : String)
  | list (request : ListRequest) (recursive : Bool)
  | subscribe (request : SubscribeRequest) (heartbeatMs : Option UInt64)
  deriving DecidableEq

def namespaceSelector (names : String × String) : ObjectSelector :=
  ⟨.namespace, none, some names.1, some names.2⟩

def cidSelector (cid : String) : ObjectSelector := ⟨.cid, some cid, none, none⟩

def headRoute (query : String) (selector : ObjectSelector) : Except ApiError Route := do
  let tenantId ← tenantFromQuery query
  return .head ⟨tenantId, selector⟩

def rangeFromQuery (query : String) : Except ApiError (Option RangeSpec) :=
  match queryValue query "range_start", queryValue query "range_end" with
  | some start, some stop => do
    let start ← requiredParsed parseU64 invalidRange start
    let stop ← requiredParsed parseU64 invalidRange stop
    return some ⟨start, stop⟩
  -- Half a range is no range.
  | _, _ => .ok none

def getRoute (query : String) (selector : ObjectSelector) : Except ApiError Route := do
  -- A preference that is not known is taken for none.
  let preference := (queryValue query "prefer").bind parsePreference
  let range ← rangeFromQuery query
  let tenantId ← tenantFromQuery query
  return .get ⟨tenantId, selector, preference, range⟩

def resolveRoute (query : String) (names : String × String) : Except ApiError Route := do
  let tenantId ← tenantFromQuery query
  let atRevision ← parsed parseU64 invalidRevision (queryValue query "at_revision")
  let ifRevision ← parsed parseU64 invalidRevision (queryValue query "if_revision")
  return .resolve ⟨tenantId, names.1, names.2, atRevision, ifRevision⟩

def listRoute (query ns : String) : Except ApiError Route := do
  let tenantId ← tenantFromQuery query
  let limit ← parsed parseU32 invalidLimit (queryValue query "limit")
  return .list {
    tenantId, ns
    pathPrefix := queryValue query "prefix"
    cursor := queryValue query "cursor"
    limit
    includeTombstones := queryValue query "include_tombstones" = some "true" }
    (queryValue query "recursive" = some "true")

def putChunkRoute (path query : String) : Except ApiError Route :=
  match splitAll "/chunks/" (trimStartMatches "/v1/uploads/" path) with
  | [sessionId, index] => do
    let tenantId ← tenantFromQuery query
    let chunkIndex ← requiredParsed parseU32
      ⟨.validation, "invalid_chunk_index", "invalid chunk index"⟩ index
    let chunkCid ← requiredQuery query "chunk_cid"
    let offset ← requiredQuery query "chunk_offset"
    let chunkOffset ← requiredParsed parseU64
      ⟨.validation, "invalid_chunk_offset", "invalid chunk offset"⟩ offset
    let length ← requiredQuery query "chunk_length"
    let chunkLength ← requiredParsed parseU64
      ⟨.validation, "invalid_chunk_length", "invalid chunk length"⟩ length
    let contentEncoding ← requiredQuery query "content_encoding"
    return .putChunk ⟨tenantId, sessionId, chunkIndex, chunkCid, chunkOffset, chunkLength⟩
      contentEncoding
  | _ => .error ⟨.validation, "invalid_chunk_path", "invalid upload chunk path"⟩

/-- The request of `handle_gateway_subscribe`: it has always one filter. -/
def subscribeRoute (query : String) : Except ApiError Route := do
  let tenantId ← tenantFromQuery query
  let fromSeq ← parsed parseU64 invalidRevision (queryValue query "from_seq")
  let heartbeatMs ← parsed parseU64 invalidHeartbeat (queryValue query "heartbeat_ms")
  let batchMax ← parsed parseU32 invalidLimit (queryValue query "batch_max")
  return .subscribe {
    tenantId
    filters := [{
      namespacePrefix := queryValue query "namespace_prefix"
      pathExact := queryValue query "path_exact"
      objectCid := queryValue query "object_cid"
      eventType := (queryValue query "event_type").bind parseEventType
      tenantScope := none }]
    cursor := queryValue query "cursor"
    fromSeq, batchMax } heartbeatMs

def routeNotFound : ApiError := ⟨.notFound, "route_not_found", "gateway route not found"⟩

/-- The routes of `GET` that hold a name, in the order in which they are tried. -/
def routeGetName (path query : String) : Except ApiError Route :=
  -- These two come first, so that no object whose name ends like this can be read.
  if startsWith "/v1/objects/namespace/" path && endsWith "/metadata" path then do
    let names ← splitNamespaceObjectRoute (trimEndMatches "/metadata" path) "/v1/objects/namespace/"
    headRoute query (namespaceSelector names)
  else if startsWith "/v1/objects/cid/" path && endsWith "/metadata" path then
    headRoute query (cidSelector
      (trimEndMatches "/metadata" (trimStartMatches "/v1/objects/cid/" path)))
  else if startsWith "/v1/objects/namespace/" path then do
    let names ← splitNamespaceObjectRoute path "/v1/objects/namespace/"
    getRoute query (namespaceSelector names)
  else if startsWith "/v1/objects/cid/" path then
    getRoute query (cidSelector (trimStartMatches "/v1/objects/cid/" path))
  else if startsWith "/v1/namespaces/" path && contains "/resolve/" path then do
    let names ← splitNamespaceOperation path "/resolve/"
    resolveRoute query names
  else if startsWith "/v1/namespaces/" path && endsWith "/list" path then
    listRoute query (trimEndMatches "/"
      (trimEndMatches "/list" (trimStartMatches "/v1/namespaces/" path)))
  else .error routeNotFound

/-- The routes of `GET`.  Events are asked for before any other route is tried. -/
def routeGet (path query : String) : Except ApiError Route :=
  if path = "/v1/events" then subscribeRoute query
  else if path = "/.well-known/hsp" then .ok .bootstrap
  else if path = "/v1/info" then .ok .info
  else if path = "/metrics" then .ok .metrics
  else if path = "/v1/observability/logs" then .ok .logs
  else routeGetName path query

def routeHead (path query : String) : Except ApiError Route :=
  if startsWith "/v1/objects/namespace/" path then do
    let names ← splitNamespaceObjectRoute path "/v1/objects/namespace/"
    headRoute query (namespaceSelector names)
  else if startsWith "/v1/objects/cid/" path then
    headRoute query (cidSelector (trimStartMatches "/v1/objects/cid/" path))
  else .error routeNotFound

def routePost (path : String) : Except ApiError Route :=
  if path = "/v1/uploads" then .ok .putInit
  else if startsWith "/v1/uploads/" path && endsWith ":commit" path then
    .ok (.putCommit (trimEndMatches ":commit" (trimStartMatches "/v1/uploads/" path)))
  else .error routeNotFound

def routePut (path query : String) : Except ApiError Route :=
  if startsWith "/v1/uploads/" path && contains "/chunks/" path then putChunkRoute path query
  else if startsWith "/v1/namespaces/" path && contains "/bind/" path then do
    let names ← splitNamespaceOperation path "/bind/"
    return .bind names.1 names.2
  else .error routeNotFound

def routeDelete (path : String) : Except ApiError Route :=
  if startsWith "/v1/namespaces/" path && contains "/bind/" path then do
    let names ← splitNamespaceOperation path "/bind/"
    return .unbind names.1 names.2
  else .error routeNotFound

def routeRequest (method : Method) (path query : String) : Except ApiError Route :=
  match method with
  | .get => routeGet path query
  | .head => routeHead path query
  | .post => routePost path
  | .put => routePut path query
  | .delete => routeDelete path
  | .other => .error routeNotFound

/-! ### Cutting texts -/

theorem trimLoop_of_not_isPrefix {text : List Char} (h : ¬ pat <+: text) (fuel : ℕ) :
    trimLoop pat fuel text = text := by
  cases fuel with
  | zero => rfl
  | succ fuel => rw [trimLoop, if_neg (by simpa using h)]

/-- A pattern that does not follow itself is removed once. -/
theorem trimLoop_append {text : List Char} (h : ¬ pat <+: text) (fuel : ℕ) :
    trimLoop pat (fuel + 1) (pat ++ text) = text := by
  rw [trimLoop, if_pos (by simp), drop_left, trimLoop_of_not_isPrefix h]

theorem trimStartMatches_append {rest : String} (hne : start ≠ "")
    (h : ¬ start.toList <+: rest.toList) : trimStartMatches start (start ++ rest) = rest := by
  obtain ⟨fuel, hfuel⟩ : ∃ fuel, (start ++ rest).length = fuel + 1 := by
    refine Nat.exists_eq_succ_of_ne_zero fun hzero => hne ?_
    rw [String.length_append] at hzero
    exact String.length_eq_zero_iff.1 (by omega)
  rw [trimStartMatches, hfuel, String.toList_append, trimLoop_append h, String.ofList_toList]

theorem not_prefix_trimLoop (hne : pat ≠ []) {fuel : ℕ} {text : List Char}
    (hfuel : text.length ≤ fuel) : ¬ pat <+: trimLoop pat fuel text := by
  induction fuel generalizing text with
  | zero =>
    obtain rfl := length_eq_zero_iff.1 (Nat.le_zero.1 hfuel)
    simpa [trimLoop] using hne
  | succ fuel ih =>
    rw [trimLoop]
    split
    · apply ih
      have hpos := length_pos_iff.2 hne
      rw [length_drop]
      omega
    · rename_i h
      simpa using h

theorem trimEndMatches_append (hne : stop ≠ "") (h : ¬ stop.toList <:+ text.toList) :
    trimEndMatches stop (text ++ stop) = text := by
  obtain ⟨fuel, hfuel⟩ : ∃ fuel, (text ++ stop).length = fuel + 1 := by
    refine Nat.exists_eq_succ_of_ne_zero fun hzero => hne ?_
    rw [String.length_append] at hzero
    exact String.length_eq_zero_iff.1 (by omega)
  rw [trimEndMatches, hfuel, String.toList_append, reverse_append,
    trimLoop_append (by simpa using h), reverse_reverse, String.ofList_toList]

theorem eq_of_splitOnce {c : Char} {a b : String} (h : splitOnce c text = some (a, b)) :
    text = a ++ String.singleton c ++ b := by
  have hmem : c ∈ text.toList := by
    by_contra hmem
    simp [splitOnce, hmem] at h
  obtain ⟨before, after, htext, hbefore⟩ := eq_append_cons_of_mem hmem
  have hsplit : text = .ofList before ++ String.singleton c ++ .ofList after := by
    apply String.toList_inj.1
    simpa using htext
  rw [hsplit, Cdn.splitOnce_append (by simpa using hbefore)] at h
  cases h
  exact hsplit

theorem endsWith_metadata_append (start path : String) :
    endsWith "/metadata" (start ++ ("/" ++ path)) = endsWith "/metadata" ("/" ++ path) := by
  rw [Bool.eq_iff_iff, endsWith, endsWith, isSuffixOf_iff_suffix, isSuffixOf_iff_suffix,
    toList_append (s := start)]
  refine ⟨fun h => ?_, fun h => h.trans (suffix_append _ _)⟩
  rcases suffix_or_suffix_of_suffix h (suffix_append _ _) with h | h
  · exact h
  · -- There is no slash behind the first character of the suffix.
    have hcons : ("/" ++ path).toList = '/' :: path.toList := by simp
    rw [hcons] at h ⊢
    rcases suffix_cons_iff.1 h with heq | h
    · exact heq ▸ suffix_rfl
    · exact absurd (h.mem mem_cons_self) (by decide)

theorem endsWith_append (start stop : String) : endsWith stop (start ++ stop) = true := by
  rw [endsWith, isSuffixOf_iff_suffix, String.toList_append]
  exact suffix_append _ _

theorem startsWith_append (start rest : String) : startsWith start (start ++ rest) = true := by
  simp [startsWith]

theorem append_ne_of_not (h : ¬ start.toList <+: text.toList) (rest : String) :
    start ++ rest ≠ text := by
  rintro rfl
  simp at h

/-! ### The routes of objects -/

theorem routeGet_append
    (h : ∀ fixed ∈ ["/v1/events", "/.well-known/hsp", "/v1/info", "/metrics",
      "/v1/observability/logs"], ¬ start.toList <+: fixed.toList) (rest query : String) :
    routeGet (start ++ rest) query = routeGetName (start ++ rest) query := by
  simp only [forall_mem_cons, not_mem_nil, false_imp_iff, implies_true, and_true] at h
  rw [routeGet, if_neg (append_ne_of_not h.1 rest), if_neg (append_ne_of_not h.2.1 rest),
    if_neg (append_ne_of_not h.2.2.1 rest), if_neg (append_ne_of_not h.2.2.2.1 rest),
    if_neg (append_ne_of_not h.2.2.2.2 rest)]

theorem routeGet_object {rest : String}
    (hmeta : endsWith "/metadata" ("/v1/objects/namespace/" ++ rest) = false) (query : String) :
    routeGet ("/v1/objects/namespace/" ++ rest) query =
      splitNamespaceObjectRoute ("/v1/objects/namespace/" ++ rest) "/v1/objects/namespace/" >>=
        fun names => getRoute query (namespaceSelector names) := by
  rw [routeGet_append (by decide), routeGetName, hmeta]
  simp only [Bool.and_false, Bool.false_eq_true, if_false]
  rw [if_pos (startsWith_append _ _)]

/-! ### Objects whose names look like routes -/

section Objects

variable {ns path : String} (hslash : '/' ∉ ns.toList)
include hslash

theorem splitNamespaceObjectRoute_iff (hne : start ≠ "") :
    splitNamespaceObjectRoute (start ++ (ns ++ ("/" ++ path))) start = .ok (ns, path) ↔
      ¬ startsWith start (ns ++ ("/" ++ path)) := by
  have honce : splitOnce '/' (ns ++ ("/" ++ path)) = some (ns, path) := by
    rw [← String.append_assoc]
    exact Cdn.splitOnce_append hslash path
  rw [startsWith, isPrefixOf_iff_prefix]
  constructor
  · intro h hstart
    have hsplit : splitOnce '/' (trimStartMatches start (start ++ (ns ++ ("/" ++ path)))) =
        some (ns, path) := by
      rw [splitNamespaceObjectRoute] at h
      split at h
      · rename_i hnames
        rw [hnames, Except.ok.inj h]
      · cases h
    have htrimmed := congrArg String.toList (eq_of_splitOnce hsplit)
    rw [trimStartMatches, String.toList_ofList] at htrimmed
    have hpat : start.toList ≠ [] := by simpa using hne
    have hleft := not_prefix_trimLoop hpat (le_refl (start ++ (ns ++ ("/" ++ path))).toList.length)
    rw [String.length_toList, htrimmed] at hleft
    exact hleft (by simpa using hstart)
  · intro h
    rw [splitNamespaceObjectRoute, trimStartMatches_append hne h, honce]

/-- **Which objects the routes reach**: those whose path does not end in the word for metadata, and
whose names together do not begin like the route itself. -/
theorem object_routes_iff :
    (∀ query,
      routeRequest .get ("/v1/objects/namespace/" ++ (ns ++ ("/" ++ path))) query =
        getRoute query (namespaceSelector (ns, path)) ∧
      routeRequest .get ("/v1/objects/namespace/" ++ (ns ++ ("/" ++ path)) ++ "/metadata") query =
        headRoute query (namespaceSelector (ns, path))) ↔
    ¬ endsWith "/metadata" ("/" ++ path) ∧
      ¬ startsWith "/v1/objects/namespace/" (ns ++ ("/" ++ path)) := by
  have hends : endsWith "/metadata" ("/v1/objects/namespace/" ++ (ns ++ ("/" ++ path))) =
      endsWith "/metadata" ("/" ++ path) := by
    rw [← String.append_assoc, endsWith_metadata_append]
  rw [← splitNamespaceObjectRoute_iff hslash (by decide)]
  constructor
  · intro h
    have hasked (selector : ObjectSelector) : getRoute "tenant_id=t" selector =
        .ok (.get ⟨⟨"t"⟩, selector, none, none⟩) := rfl
    have hrouted := (h "tenant_id=t").1.trans (hasked _)
    have hmeta : ¬ endsWith "/metadata" ("/" ++ path) := by
      intro hmeta
      rw [routeRequest, routeGet_append (by decide), routeGetName, hends, hmeta,
        startsWith_append] at hrouted
      simp [except_bind_eq_ok, headRoute] at hrouted
    refine ⟨hmeta, ?_⟩
    rw [routeRequest, routeGet_object (hends.trans (Bool.eq_false_iff.2 hmeta)),
      except_bind_eq_ok] at hrouted
    obtain ⟨⟨ns', path'⟩, hnames, hroute⟩ := hrouted
    obtain ⟨rfl, rfl⟩ : ns' = ns ∧ path' = path := by
      simpa [hasked, namespaceSelector] using hroute
    exact hnames
  · rintro ⟨hmeta, hnames⟩ query
    constructor
    · rw [routeRequest, routeGet_object (hends.trans (Bool.eq_false_iff.2 hmeta)), hnames]
      rfl
    · have hsuffix : ¬ "/metadata".toList <:+
          ("/v1/objects/namespace/" ++ (ns ++ ("/" ++ path))).toList := by
        rwa [← isSuffixOf_iff_suffix, ← endsWith, hends]
      rw [routeRequest, String.append_assoc, routeGet_append (by decide), ← String.append_assoc,
        routeGetName, endsWith_append, String.append_assoc, startsWith_append, Bool.and_self,
        if_pos rfl, ← String.append_assoc, trimEndMatches_append (by decide) hsuffix, hnames]
      rfl

end Objects

theorem object_routes_media :
    routeRequest .get ("/v1/objects/namespace/" ++ ("media" ++ ("/" ++ "a.png"))) "tenant_id=t" =
        getRoute "tenant_id=t" (namespaceSelector ("media", "a.png")) ∧
      routeRequest .get ("/v1/objects/namespace/" ++ ("media" ++ ("/" ++ "a.png")) ++ "/metadata")
        "tenant_id=t" = headRoute "tenant_id=t" (namespaceSelector ("media", "a.png")) :=
  (object_routes_iff (by decide)).2 (by decide) "tenant_id=t"

/-- An object whose path ends in the word for metadata cannot be read. -/
theorem object_metadata_lost :
    routeRequest .get ("/v1/objects/namespace/" ++ ("media" ++ ("/" ++ "a/metadata")))
        "tenant_id=t" = .ok (.head ⟨⟨"t"⟩, namespaceSelector ("media", "a")⟩) ∧
      routeRequest .get ("/v1/objects/namespace/" ++ ("media" ++ ("/" ++ "a/metadata")))
        "tenant_id=t" ≠ getRoute "tenant_id=t" (namespaceSelector ("media", "a/metadata")) := by
  decide +kernel

end Hsp.Gateway
