import Hsp.Distribution.Calls
import Hsp.Namespace.Listing
import Hsp.Path.Segments
import Hsp.Sample.Deployment

/-!
# Listing the objects of a bucket

`list_objects` lists the paths of the namespace of a bucket under a prefix, and looks each of them
up.  A client that follows the continuation tokens is given the live paths under the canonical form
of its prefix: the prefix itself and the paths that go on with a slash.  In an S3 listing any
beginning of a key is a prefix.

* `listObjects_ok` : what a request that succeeds shows;
* `turnObjects_shows` : the pages a client is given are the pages of the list of keys;
* `turnObjects_keys` : together they are the live paths under the prefix;
* `list_objects_complete_iff` : exactly when these are the keys that start with the prefix;
* `Sample.key_not_listed` : a key is not listed whose first segment starts with the prefix.
-/

namespace Hsp

open List

variable {ns p : String} {keys : List String}

namespace Distribution

variable {d : Deployment} {auth : AuthContext} {s s' : Server} {request : ListObjectsRequest}
  {pathPrefix q : Option String} {bindings : BTreeMap String NamespaceBindingState} {key : String}

/-! ### One request -/

/-- The list request that is made of the namespace of the bucket, if the bucket exists. -/
def ListObjectsRequest.inner (request : ListObjectsRequest) (s : Server) : Option ListRequest := do
  let name ← (canonicalBucketName request.bucket).toOption
  let record ← s.lookup (bucketSlot request.tenantId name)
  let pathPrefix ← (canonicalPrefix request.pathPrefix).toOption
  return {
    tenantId := request.tenantId
    ns := record.ns
    pathPrefix
    cursor := request.continuationToken
    limit := request.limit
    includeTombstones := false }

theorem inner_withToken {inner : ListRequest} (h : request.inner s = some inner) (token : String) :
    { request with continuationToken := some token }.inner s =
      some { inner with cursor := some token } := by
  simp only [ListObjectsRequest.inner, Option.bind_eq_bind, Option.bind_eq_some_iff] at h ⊢
  obtain ⟨name, hname, record, hrecord, pathPrefix, hgiven, hinner⟩ := h
  cases hinner
  exact ⟨name, hname, record, hrecord, pathPrefix, hgiven, rfl⟩

theorem inner_eq {inner : ListRequest} (h : request.inner s = some inner) :
    inner.tenantId = request.tenantId ∧ inner.cursor = request.continuationToken ∧
      inner.limit = request.limit ∧ inner.includeTombstones = false := by
  simp only [ListObjectsRequest.inner, Option.bind_eq_bind, Option.bind_eq_some_iff] at h
  obtain ⟨name, -, record, -, pathPrefix, -, hinner⟩ := h
  cases hinner
  exact ⟨rfl, rfl, rfl, rfl⟩

theorem inner_same (hs : ∀ name, s'.lookup (bucketSlot request.tenantId name) =
    s.lookup (bucketSlot request.tenantId name)) : request.inner s' = request.inner s := by
  simp only [ListObjectsRequest.inner, hs]

theorem keys_of_headItems {items : List ListItem} {found : List ObjectListItem}
    (h : runE (act d) (headItems auth request items) s = (.ok found, s')) :
    found.map (·.key) = items.map (·.path) := by
  induction items generalizing found s s' with
  | nil =>
    cases h
    rfl
  | cons item items ih =>
    obtain ⟨head, s₁, -, h⟩ := runE_bind_eq_ok _ h
    obtain ⟨rest, s₂, hrest, h⟩ := runE_bind_eq_ok _ h
    cases h
    rw [map_cons, ih hrest, map_cons]

/-- **What a request that succeeds shows**: a page of the namespace. -/
theorem listObjects_ok {response : ListObjectsResponse}
    (h : runE (act d) (listObjects auth request) s = (.ok response, s')) :
    ∃ inner listed w w', request.inner s = some inner ∧ SameNamespaces s.alpha w ∧
      runE (exec d.toEnv) (list d.toEnv auth inner) w = (.ok listed, w') ∧
      response.items.map (·.key) = listed.items.map (·.path) ∧
      response.nextContinuationToken = listed.nextCursor := by
  obtain ⟨record, _, hbucket, h⟩ := runE_bind_eq_ok _ h
  obtain ⟨rfl, name, hname, hrecord⟩ := requireBucket_ok hbucket
  obtain ⟨pathPrefix, hgiven, h⟩ := ofExcept_bind_ok h
  obtain ⟨_, s₁, hscope, h⟩ := runE_bind_eq_ok _ h
  have hlook := (Within.ensureBucketReadScopeFor (K := []) (C := Call.ResolvesNow) auth
    request.tenantId record.bucket pathPrefix).untouched_runE (d := d) s
  rw [hscope] at hlook
  obtain ⟨listed, s₂, hlist, h⟩ := runE_bind_eq_ok _ h
  obtain ⟨items, s₃, hitems, h⟩ := runE_bind_eq_ok _ h
  cases h
  obtain ⟨hrun, -⟩ := callAlpha_ok hlist
  refine ⟨_, listed, _, _, ?_, hlook.sameOn.sameNamespaces, hrun, keys_of_headItems hitems, rfl⟩
  simp [ListObjectsRequest.inner, hname, hrecord, hgiven, Except.toOption]

/-! ### All the pages -/

/-- The pages a client is given that follows the continuation tokens, with a caller for each. -/
def turnObjects (d : Deployment) (request : ListObjectsRequest) : List AuthContext → Server →
    Except ApiError (List ListObjectsResponse)
  | [], _ => .ok []
  | auth :: auths, s =>
    match (Request.listObjects auth request).perform d s with
    | (.error e, _) => .error e
    | (.ok response, s') =>
      match response.nextContinuationToken with
      | none => .ok [response]
      | some token =>
        (response :: ·) <$> turnObjects d { request with continuationToken := some token } auths s'

/-- **The pages are the pages of the list of keys.** -/
theorem turnObjects_shows {auths : List AuthContext} {pages : List ListObjectsResponse}
    {inner : ListRequest} {limit r i : ℕ} {l : List NamespaceBindingState} {last : Option String}
    (hinner : request.inner s = some inner)
    (hlisting : Listing d.toEnv inner ns pathPrefix limit r bindings l)
    (hheld : SnapshotHeld d.toEnv inner.tenantId ns r bindings s.alpha)
    (hi : Pages.startAfter (·.path) l last = i)
    (hstart : ∀ w, SameNamespaces s.alpha w →
      runE (exec d.toEnv) (listStart d.toEnv inner ns pathPrefix) w = (.ok (r, last), w))
    (h : turnObjects d request auths s = .ok pages) :
    pages.map (fun p => (p.items.map (·.key), p.nextContinuationToken.isSome)) =
      Pages.pagesFrom limit (l.map (·.path)) auths.length i := by
  induction auths generalizing request s inner i last pages with
  | nil =>
    cases h
    rfl
  | cons auth auths ih =>
    rw [turnObjects] at h
    split at h
    · cases h
    rename_i response s' hrun
    obtain ⟨inner', listed, w, w', hinner', hw, hlist, hkeys, htoken⟩ := listObjects_ok hrun
    obtain rfl := Option.some.inj (hinner.symm.trans hinner')
    have hstart' := fun w₁ hw₁ => hstart w₁ (hw.trans hw₁)
    obtain ⟨rfl, -⟩ := hlisting.page hi (hheld.same hw) hstart' hlist
    have hitems : response.items.map (·.key) = ((l.map (·.path)).drop i).take limit := by
      rw [hkeys, pageAt_items, map_map, ← map_drop, ← map_take]
      rfl
    have hsame : SameNamespaces s.alpha s'.alpha := by
      have hsame := (Request.listObjects auth request).sameOn_perform (d := d) s rfl
      rw [hrun] at hsame
      exact hsame.sameNamespaces
    rw [length_cons, Pages.pagesFrom, length_map, ← hitems]
    by_cases hlt : i + limit < l.length
    · rw [pageAt_more hlisting.limit_pos hlt] at htoken
      rw [htoken] at h
      have hpos := hlisting.limit_pos
      have hlast : i + limit - 1 < l.length := by omega
      have hbehind : i + limit - 1 + 1 = i + limit := by omega
      have hnodup : (l.map (·.path)).Nodup := hlisting.items ▸ nodup_listItems hlisting.kept
      have hstarts := (Pages.startAfter_getElem hnodup hlast).trans hbehind
      have hfound : request.inner s' = request.inner s := inner_same fun name => by
        have hlookup := (Request.listObjects auth request).lookup_perform (d := d) s
          (a := bucketSlot request.tenantId name) (by simp [Request.writes])
        rwa [hrun] at hlookup
      cases hrest : turnObjects d { request with continuationToken := some (ListCursor.encode
          ⟨inner.tenantId, ns, pathPrefix, r, l[i + limit - 1].path⟩) } auths s' with
      | error e =>
        dsimp only at h
        rw [hrest] at h
        cases h
      | ok rest =>
        dsimp only at h
        rw [hrest] at h
        cases h
        have hpages := ih (inner_withToken (hfound.trans hinner) _) (hlisting.withCursor _)
          (hheld.same hsame) hstarts (fun w _ => runE_listStart_some rfl
            (hlisting.decode_getElem hlast)) hrest
        simp [hlt, htoken, hpages]
    · rw [pageAt_last hlt] at htoken
      rw [htoken] at h
      cases h
      simp [hlt, htoken]

/-! ### Beginnings of keys -/

/-- A key starts with a prefix, as an S3 listing has it. -/
def StartsWith (pathPrefix : Option String) (key : String) : Prop :=
  ∀ p, pathPrefix = some p → p.toList <+: key.toList

theorem underPrefix_iff :
    underPrefix (some p) key ↔ key = p ∨ (p ++ "/").toList <+: key.toList := by
  simp [underPrefix]

theorem startsWith_of_underPrefix (h : underPrefix pathPrefix key) : StartsWith pathPrefix key := by
  rintro p rfl
  rcases underPrefix_iff.1 h with rfl | h
  · exact prefix_rfl
  · rw [String.toList_append] at h
    exact (prefix_append _ _).trans h

theorem prefix_of_plain {inner : ListRequest} (hp : request.pathPrefix = some p) (hplain : Plain p)
    (hinner : request.inner s = some inner) (htarget : canonicalListTarget inner = .ok (ns, q)) :
    q = some p := by
  have hcanon := canonicalPath_of_plain hplain
  have hgiven : inner.pathPrefix = some p := by
    simp only [ListObjectsRequest.inner, Option.bind_eq_bind, Option.bind_eq_some_iff, hp,
      canonicalPrefix, canonicalObjectKeyName, hcanon] at hinner
    obtain ⟨name, -, record, -, pathPrefix, hgiven, hinner⟩ := hinner
    cases hinner
    cases hgiven
    rfl
  rw [canonicalListTarget, hgiven] at htarget
  simp only [hcanon] at htarget
  split at htarget
  · cases htarget
  · cases htarget
    rfl

/-- A key counts as under a plain prefix it starts with if it is the prefix itself or goes on with a
slash. -/
theorem startsWith_iff_underPrefix :
    (StartsWith (some p) key ↔ underPrefix (some p) key) ↔
      (p.toList <+: key.toList → key = p ∨ (p ++ "/").toList <+: key.toList) := by
  rw [← underPrefix_iff]
  constructor
  · intro h hstarts
    exact h.1 fun _ hp => Option.some.inj hp ▸ hstarts
  · intro h
    exact ⟨fun hstarts => h (hstarts p rfl), startsWith_of_underPrefix⟩

/-- The paths of a listing without tombstones are the live ones under its prefix. -/
theorem mem_livePaths {t : TenantId} {n : String} (h : WellKept t n bindings) {r : ℕ} :
    key ∈ (listItems ⟨n, r, bindings⟩ q false).map (·.path) ↔
      isLive bindings[key]? ∧ underPrefix q key := by
  simp only [mem_map, mem_listItems, Bool.false_eq_true, false_or]
  constructor
  · rintro ⟨b, ⟨⟨p, hp⟩, hunder, htombstone⟩, rfl⟩
    rw [h.path hp, hp]
    exact ⟨htombstone, h.path hp ▸ hunder⟩
  · rintro ⟨hlive, hunder⟩
    cases hb : bindings[key]? with
    | none =>
      rw [hb] at hlive
      exact hlive.elim
    | some b =>
      rw [hb] at hlive
      exact ⟨b, ⟨⟨key, hb⟩, (h.path hb).symm ▸ hunder, hlive⟩, h.path hb⟩

/-- The requests of a server make well-formed mutations. -/
theorem chronicled_runRequests (requests : List Request) :
    Chronicled d.toEnv (runRequests d requests .empty).alpha := by
  refine runRequests_invariant (I := fun s => Chronicled d.toEnv s.alpha) (fun r s hs => ?_)
    requests .empty
  have hall : OnlyE (fun _ => True) (r.handle d) := Prog.Only.of_forall (fun _ => trivial) _
  refine hall.runE (I := fun s : Server => Chronicled d.toEnv s.alpha) (fun o s _ hs => ?_) hs
  refine alpha_act (fun w hw => hw.same fun _ _ => rfl) (fun c w hw => ?_) o s hs
  exact hw.run [c]

/-- **What a client is given that follows the continuation tokens**: after enough calls it has come
to the last page, and then it has been given the live paths under the prefix, each once. -/
theorem turnObjects_keys (henv : d.toEnv.ReadsMaps) (hmade : Chronicled d.toEnv s.alpha)
    (htoken : request.continuationToken = none) (htenant : request.tenantId.val ≠ "")
    (hlimit : 0 < (request.limit.getD 100).toNat) {inner : ListRequest}
    (hinner : request.inner s = some inner) (htarget : canonicalListTarget inner = .ok (ns, q))
    (hrevision : (s.alpha.current request.tenantId ns).revision < 2 ^ 64) :
    ∃ n, ∀ auths pages, turnObjects d request auths s = .ok pages →
      (n ≤ auths.length → pages.getLast?.map (·.nextContinuationToken) = some none) ∧
      (pages.getLast?.map (·.nextContinuationToken) = some none →
        let keys := pages.flatMap fun page => page.items.map (·.key)
        keys.Pairwise (· < ·) ∧ ∀ key, key ∈ keys ↔
          isLive (s.alpha.binding request.tenantId ns key) ∧ underPrefix q key) := by
  obtain ⟨H, hH, hvalid⟩ := hmade
  obtain ⟨ht, hcursor, hlimit', htombstones⟩ := inner_eq hinner
  rw [← ht] at htenant hrevision ⊢
  rw [← hlimit'] at hlimit
  have hkept := hH.wellKept (hvalid inner.tenantId ns)
  have hlisting : Listing d.toEnv inner ns q _ _ _ _ :=
    ⟨htarget, rfl, hlimit, htenant, henv, hrevision, hkept, rfl⟩
  rw [htombstones] at hlisting
  generalize hl : listItems _ q false = l at hlisting
  have hheld := SnapshotHeld.first hH inner.tenantId ns
  have hstart : ∀ w, SameNamespaces s.alpha w →
      runE (exec d.toEnv) (listStart d.toEnv inner ns q) w =
        (.ok ((s.alpha.current inner.tenantId ns).revision, none), w) := fun w hw => by
    rw [runE_listStart_none (hcursor.trans htoken), hw.current]
  refine ⟨l.length + 1, fun auths pages hturned => ?_⟩
  have hi : Pages.startAfter (·.path) l none = 0 := rfl
  have hpages := turnObjects_shows hinner hlisting hheld hi hstart hturned
  obtain ⟨hkeys, hended⟩ := Pages.together _ _ hpages
  rw [length_map, Nat.zero_add] at hended
  refine ⟨fun hcalls => (hended (by omega)).2 ?_, fun hdone => ?_⟩
  · exact (Nat.le_of_succ_le hcalls).trans (Nat.le_mul_of_pos_right _ hlimit)
  have hcalls : 0 < auths.length := by
    cases auths with
    | nil =>
      cases hturned
      cases hdone
    | cons auth auths => exact Nat.succ_pos _
  rw [drop_zero, take_of_length_le (by simpa using (hended hcalls).1 hdone)] at hkeys
  dsimp only
  rw [hkeys, ← hl]
  exact ⟨pairwise_map.2 (pairwise_listItems hkept), fun key => mem_livePaths hkept⟩

/-- **Following the continuation tokens.**  After enough calls that succeed the client has come to
the last page.  Then it has been given every key once, and these are the live keys that start with
the prefix exactly if of the live keys those start with the prefix that lie under its canonical
form.  For a plain prefix this means that every live key that starts with it is the prefix itself or
goes on with a slash. -/
theorem list_objects_complete_iff (henv : d.toEnv.ReadsMaps) (history : List Request)
    (request : ListObjectsRequest) (htoken : request.continuationToken = none)
    (htenant : request.tenantId.val ≠ "") (hlimit : 0 < (request.limit.getD 100).toNat)
    {s : Server} (hs : s = runRequests d history .empty) {inner : ListRequest}
    (hinner : request.inner s = some inner) {ns : String} {q : Option String}
    (htarget : canonicalListTarget inner = .ok (ns, q))
    (hrevision : (s.alpha.current request.tenantId ns).revision < 2 ^ 64) :
    (∃ n, ∀ auths pages, turnObjects d request auths s = .ok pages →
      (n ≤ auths.length → pages.getLast?.map (·.nextContinuationToken) = some none) ∧
      (pages.getLast?.map (·.nextContinuationToken) = some none →
        let keys := pages.flatMap fun page => page.items.map (·.key)
        keys.Pairwise (· < ·) ∧
          ((∀ key, key ∈ keys ↔ isLive (s.alpha.binding request.tenantId ns key) ∧
              StartsWith request.pathPrefix key) ↔
            ∀ key, isLive (s.alpha.binding request.tenantId ns key) →
              (StartsWith request.pathPrefix key ↔ underPrefix q key)))) ∧
    ∀ p, request.pathPrefix = some p → Plain p → ∀ key,
      ((StartsWith request.pathPrefix key ↔ underPrefix q key) ↔
        (p.toList <+: key.toList → key = p ∨ (p ++ "/").toList <+: key.toList)) := by
  refine ⟨?_, fun p hp hplain key => ?_⟩
  · have hmade : Chronicled d.toEnv s.alpha := hs ▸ chronicled_runRequests history
    obtain ⟨n, hturns⟩ :=
      turnObjects_keys henv hmade htoken htenant hlimit hinner htarget hrevision
    refine ⟨n, fun auths pages hturned => ?_⟩
    obtain ⟨hends, hshows⟩ := hturns auths pages hturned
    refine ⟨hends, fun hdone => ?_⟩
    obtain ⟨hsorted, hkeys⟩ := hshows hdone
    refine ⟨hsorted, ?_⟩
    simp only [hkeys]
    exact forall_congr' fun key => and_congr_right_iff.trans (imp_congr_right fun _ => iff_comm)
  · rw [hp, prefix_of_plain hp hplain hinner htarget, startsWith_iff_underPrefix]
end Distribution

namespace Sample

open Hsp.Distribution

/-- A bucket with one key, and a CBOR reader. -/
def listedDeployment : Deployment :=
  { deployment [⟨keyRecord "ab" .bind (some objectCid) none, by decide +kernel⟩] [] 0 with
    valueFromReader := readValue }

/-- The key is bound. -/
def listedHistory : List Request :=
  [.createBucket (auth "0") tenant "b", .putObject (auth "1") (putRequest "b" "ab" "i") chunk]

def listedServer : Server := runRequests listedDeployment listedHistory .empty

/-- The keys of the bucket that start with a text are asked for. -/
def listPrefix (p : String) : ListObjectsRequest := ⟨tenant, "b", some p, none, none⟩

/-- The keys a client is given that asks once, and whether there are more. -/
def listedKeys (p : String) : Option (List (List String × Bool)) :=
  (turnObjects listedDeployment (listPrefix p) [auth "2"] listedServer).toOption.map
    fun pages => pages.map fun page => (page.items.map (·.key), page.nextContinuationToken.isSome)

theorem listed_evaluated : listedKeys "a" = some [([], false)] ∧
    listedKeys "ab" = some [(["ab"], false)] ∧
    (listedServer.alpha.binding tenant "b" "ab").map (·.tombstone) = some false ∧
    (listedServer.alpha.current tenant "b").bindings.toList.map (·.1) = ["ab"] ∧
    (listedServer.alpha.current tenant "b").revision < 2 ^ 64 ∧
    ((listPrefix "ab").inner listedServer).bind
      (fun inner => (canonicalListTarget inner).toOption) = some ("b", some "ab") := by
  decide +kernel

theorem forall_live {w : World} {t : TenantId}
    (hkeys : (w.current t ns).bindings.toList.map (·.1) = keys) {P : String → Prop}
    (h : ∀ key ∈ keys, P key) : ∀ key, isLive (w.binding t ns key) → P key := by
  intro key hlive
  cases hb : w.binding t ns key with
  | none =>
    rw [hb] at hlive
    exact hlive.elim
  | some b =>
    subst hkeys
    exact h key (mem_map.2
      ⟨(key, b), Std.ExtTreeMap.mem_toList_iff_getElem?_eq_some.2 hb, rfl⟩)

theorem turned_of_listedKeys (h : listedKeys p = some [(keys, false)]) :
    ∃ page : ListObjectsResponse,
      turnObjects listedDeployment (listPrefix p) [auth "2"] listedServer = .ok [page] ∧
        page.items.map (·.key) = keys ∧ page.nextContinuationToken = none := by
  unfold listedKeys at h
  cases hturned : turnObjects listedDeployment (listPrefix p) [auth "2"] listedServer with
  | error e =>
    rw [hturned] at h
    cases h
  | ok pages =>
    rw [hturned] at h
    obtain ⟨page, rfl, hpage⟩ := map_eq_singleton_iff.1 (Option.some.inj h)
    exact ⟨page, rfl, congrArg Prod.fst hpage, by simpa using congrArg Prod.snd hpage⟩

/-- With the whole key as the prefix, the key is listed. -/
theorem key_listed : ∃ page : ListObjectsResponse,
    turnObjects listedDeployment (listPrefix "ab") [auth "2"] listedServer = .ok [page] ∧
      ∀ key, key ∈ page.items.map (·.key) ↔
        isLive (listedServer.alpha.binding tenant "b" key) ∧ StartsWith (some "ab") key := by
  obtain ⟨-, hkeys, -, hbound, hrevision, htarget⟩ := listed_evaluated
  obtain ⟨page, hturned, -, htoken⟩ := turned_of_listedKeys hkeys
  obtain ⟨inner, hinner, htarget⟩ := Option.bind_eq_some_iff.1 htarget
  have htarget : canonicalListTarget inner = .ok ("b", some "ab") := by
    cases h : canonicalListTarget inner with
    | error e =>
      rw [h] at htarget
      cases htarget
    | ok target =>
      rw [h] at htarget
      rw [Option.some.inj htarget]
  obtain ⟨⟨n, hlisted⟩, -⟩ := list_objects_complete_iff (readsMaps_of_readValue rfl) listedHistory
    (listPrefix "ab") rfl (by decide) (by decide) rfl hinner htarget hrevision
  refine ⟨page, hturned, ?_⟩
  have hdone : [page].getLast?.map (·.nextContinuationToken) = some none := congrArg some htoken
  have honly : ∀ key, isLive (listedServer.alpha.binding tenant "b" key) →
      (StartsWith (some "ab") key ↔ underPrefix (some "ab") key) := by
    refine forall_live hbound fun key hkey => ?_
    obtain rfl := mem_singleton.1 hkey
    exact iff_of_true (startsWith_of_underPrefix (by decide)) (by decide)
  have hall := ((hlisted _ _ hturned).2 hdone).2.2 honly
  rwa [flatMap_singleton] at hall

/-- **A key that starts with the prefix is not listed.** -/
theorem key_not_listed : ∃ page : ListObjectsResponse,
    turnObjects listedDeployment (listPrefix "a") [auth "2"] listedServer = .ok [page] ∧
      page.nextContinuationToken = none ∧ page.items.map (·.key) = [] ∧
      (listedServer.alpha.binding tenant "b" "ab").map (·.tombstone) = some false ∧
      StartsWith (some "a") "ab" := by
  obtain ⟨hkeys, -, hlive, -⟩ := listed_evaluated
  obtain ⟨page, hturned, hitems, htoken⟩ := turned_of_listedKeys hkeys
  refine ⟨page, hturned, htoken, hitems, hlive, ?_⟩
  rintro p ⟨⟩
  decide

end Sample

end Hsp
