import Hsp.Namespace.Listing

/-!
# Cursors that can be used

A page of a listing that is not the last carries a cursor that names the last item of the page.  A
page without items has no last item, and the cursor then names the empty path, which the decoder
does not accept.

* `list_ok` : what a list request that succeeds shows;
* `list_cursors_usable_iff` : exactly if a page may have an item, its cursor can be decoded and is
  accepted whenever the caller may list, and a client that follows the cursors comes to the last
  page;
* `Sample.cursor_refused` : the cursor of a page without items is refused.
-/

namespace Hsp

open List

variable {env : Env} {request : ListRequest}

theorem revision_of_requiredCborU64 {entries : List (CiboriumValue × CiboriumValue)} {key r : ℕ}
    {field : String} (h : requiredCborU64 entries key field = .ok r) : r < 2 ^ 64 := by
  unfold requiredCborU64 at h
  split at h
  · split at h
    · cases h
      omega
    · cases h
  · cases h

theorem ListCursor.revision_of_decode {encoded : String} {c : ListCursor}
    (h : ListCursor.decode env encoded = .ok c) : c.snapshotRevision < 2 ^ 64 := by
  simp only [ListCursor.decode, except_bind_eq_ok] at h
  obtain ⟨entries, -, t, -, n, -, p, -, r, hr, last, -, hc⟩ := h
  cases hc
  exact revision_of_requiredCborU64 hr

theorem ListCursor.lastPath_of_decode (henv : env.ReadsMaps) {c c' : ListCursor}
    (hfits : c.canonicalValue.Fits) (h : ListCursor.decode env c.encode = .ok c') :
    c.lastPath ≠ "" := by
  intro hempty
  have hentry : cborEntry c.decoded 5 = some (.text "") := by
    rw [← hempty]
    unfold ListCursor.decoded
    cases c.pathPrefix <;> rfl
  simp only [ListCursor.decode, ListCursor.cursorEntries_encode henv hfits, except_bind_eq_ok] at h
  obtain ⟨entries, hentries, t, -, n, -, p, -, r, -, last, hlast, -⟩ := h
  cases hentries
  rw [requiredCborText, hentry] at hlast
  cases hlast

section Page

variable {auth : AuthContext} {request : ListRequest} {ns : String} {pathPrefix : Option String}
  {w w' : World} {response : ListResponse}

/-- The revision of a listing is the current one, or the one its cursor names. -/
theorem listStart_ok {r : ℕ} {last : Option String}
    (h : runE (exec env) (listStart env request ns pathPrefix) w = (.ok (r, last), w')) :
    w' = w ∧ match request.cursor with
      | none => r = (w.current request.tenantId ns).revision
      | some _ => r < 2 ^ 64 := by
  unfold listStart at h
  cases hcursor : request.cursor with
  | none =>
    rw [hcursor] at h
    cases h
    exact ⟨rfl, rfl⟩
  | some encoded =>
    rw [hcursor] at h
    obtain ⟨c, w₁, hdecode, h⟩ := runE_bind_eq_ok _ h
    obtain ⟨_, w₂, hreject, h⟩ := runE_bind_eq_ok _ h
    rw [runE_ofExcept] at hdecode
    rw [runE_rejectIf] at hreject
    obtain ⟨hdecode, rfl⟩ := Prod.ext_iff.1 hdecode
    obtain ⟨-, rfl⟩ := Prod.ext_iff.1 hreject
    cases h
    exact ⟨rfl, ListCursor.revision_of_decode hdecode⟩

/-- A list request that succeeds shows the items at some revision from some position on. -/
theorem list_ok {H : Histories env} (h : Represents H w)
    (htarget : canonicalListTarget request = .ok (ns, pathPrefix))
    (hrun : runE (exec env) (list env auth request) w = (.ok response, w')) :
    SameNamespaces w w' ∧ ∃ r i,
      (match request.cursor with
        | none => r = (w.current request.tenantId ns).revision
        | some _ => r < 2 ^ 64) ∧
      response = pageAt request.tenantId ns pathPrefix (request.limit.getD 100).toNat r
        (listItems ⟨ns, r, (stateOf ns ((historySpec env).upTo r
          (H request.tenantId ns))).bindings⟩ pathPrefix request.includeTombstones) i := by
  rw [list, htarget, runE_ofExcept_bind] at hrun
  obtain ⟨decision, w₁, hauth, hrun⟩ := runE_bind_eq_ok _ hrun
  obtain ⟨⟨r, last⟩, w₂, hstart, hrun⟩ := runE_bind_eq_ok _ hrun
  obtain ⟨snapshot, w₃, hread, hrun⟩ := runE_bind_eq_ok _ hrun
  have hsame := (sameOn_of_authorize hauth).sameNamespaces
  obtain ⟨rfl, hr⟩ := listStart_ok hstart
  rw [(h.same hsame).snapshot] at hread
  cases hread
  cases hrun
  rw [hsame.current] at hr
  exact ⟨hsame, r, _, hr, listPage_eq ..⟩

theorem runE_list_refused (htarget : canonicalListTarget request = .ok (ns, pathPrefix))
    {decision : AuthorizationDecision} (hauth : runE (exec env)
      (authorize env auth (listMeta request.tenantId ns pathPrefix)) w = (.ok decision, w'))
    {encoded : String} {e : ApiError} (hcursor : request.cursor = some encoded)
    (hdecode : ListCursor.decode env encoded = .error e) :
    runE (exec env) (list env auth request) w = (.error e, w') := by
  have hstart : runE (exec env) (listStart env request ns pathPrefix) w' = (.error e, w') := by
    rw [listStart, hcursor]
    dsimp only
    rw [hdecode]
    exact runE_bind_error _ (runE_ofExcept env _ w')
  rw [list, htarget, runE_ofExcept_bind]
  exact (runE_bind_ok _ hauth).trans (runE_bind_error _ hstart)

theorem truncated_of_list
    (hrun : runE (exec env) (list env auth request) w = (.ok response, w')) :
    response.truncated = response.nextCursor.isSome := by
  unfold list at hrun
  obtain ⟨⟨ns, pathPrefix⟩, w₀, -, hrun⟩ := runE_bind_eq_ok _ hrun
  obtain ⟨decision, w₁, -, hrun⟩ := runE_bind_eq_ok _ hrun
  obtain ⟨⟨r, last⟩, w₂, -, hrun⟩ := runE_bind_eq_ok _ hrun
  obtain ⟨snapshot, w₃, -, hrun⟩ := runE_bind_eq_ok _ hrun
  cases hrun
  rw [listPage_eq, pageAt]
  dsimp only
  split <;> simp_all

end Page

theorem turnPages_truncated {visits : List Visit} {w : World} {pages : List ListResponse}
    (h : turnPages env request visits w = .ok pages) :
    ∀ page ∈ pages, page.truncated = page.nextCursor.isSome := by
  induction visits generalizing request w pages with
  | nil =>
    cases h
    simp
  | cons visit visits ih =>
    rw [turnPages] at h
    split at h
    · cases h
    · rename_i response w' hrun
      have htruncated := truncated_of_list hrun
      split at h
      · cases h
        simpa using htruncated
      · rename_i cursor _
        cases hrest : turnPages env { request with cursor := some cursor } visits w' with
        | error e =>
          rw [hrest] at h
          cases h
        | ok rest =>
          rw [hrest] at h
          cases h
          simpa [htruncated] using ih hrest

/-- The visits end with a denial or with the last page. -/
def ListingEnds (env : Env) (asks : AuthRequestMeta) (visits : List Visit)
    (result : Except ApiError (List ListResponse)) : Prop :=
  match result with
  | .error e => ∃ visit ∈ visits, ∃ w, (Prog.runE (exec env)
    (authorize env visit.auth asks) w).1 = .error e
  | .ok responses => responses.getLast?.map (·.truncated) = some false

theorem Shows.ends {asks : AuthRequestMeta} {visits : List Visit} {w : World} {limit i : ℕ}
    {items : List ListItem} (hvisits : 0 < visits.length)
    (h : Shows env asks visits (turnPages env request visits w)
      (Pages.pagesFrom limit items visits.length i))
    (hall : items.length ≤ i + visits.length * limit) :
    ListingEnds env asks visits (turnPages env request visits w) := by
  cases hturned : turnPages env request visits w with
  | error e =>
    rw [hturned] at h
    exact h
  | ok responses =>
    rw [hturned] at h
    have hpages : responses.map (fun p => (p.items, p.nextCursor.isSome)) =
      Pages.pagesFrom limit items visits.length i := h
    have hended := ((Pages.together limit items hpages).2 hvisits).2 hall
    obtain ⟨last, hlast, hnone⟩ := Option.map_eq_some_iff.1 hended
    have htruncated := turnPages_truncated hturned last (mem_of_getLast? hlast)
    simp [ListingEnds, hlast, htruncated, hnone]

/-- The cursor of a page can be used: it reads back, and the request with that cursor is accepted,
whatever others have done in between, from every caller that may list.  A client that goes on
following the cursors is turned away by the policy engine or comes to the last page, unless it made
up the revision. -/
def CursorUsable (env : Env) (request : ListRequest) (ns : String) (pathPrefix : Option String)
    (w w' : World) (response : ListResponse) : Prop :=
  ∃ cursor : ListCursor, response.nextCursor = some cursor.encode ∧
    ListCursor.decode env cursor.encode = .ok cursor ∧
    (∀ calls auth decision w'', Prog.runE (exec env) (authorize env auth
        (listMeta request.tenantId ns pathPrefix)) (runCalls env calls w') = (.ok decision, w'') →
      ∃ response', Prog.runE (exec env)
        (list env auth { request with cursor := some cursor.encode }) (runCalls env calls w') =
          (.ok response', w'')) ∧
    (request.cursor = none ∨ cursor.snapshotRevision < w.nextRevision request.tenantId ns →
      ∃ n, ∀ visits : List Visit, n ≤ visits.length →
        ListingEnds env (listMeta request.tenantId ns pathPrefix) visits
          (turnPages env { request with cursor := some cursor.encode } visits w'))

section Usable

variable {request : ListRequest} {ns : String} {pathPrefix : Option String} {w w' : World}
  {limit r i : ℕ} {l : List NamespaceBindingState}
  {bindings : BTreeMap String NamespaceBindingState}

/-- A page with an item names its last item, and what comes after it is shown next. -/
theorem Listing.cursorUsable {H : Histories env} (hH : Represents H w) (hsame : SameNamespaces w w')
    (h : Listing env request ns pathPrefix limit r bindings l)
    (hbindings : (stateOf ns ((historySpec env).upTo r (H request.tenantId ns))).bindings =
      bindings)
    (hr : request.cursor = none → r = (w.current request.tenantId ns).revision)
    (hlt : i + limit < l.length) :
    CursorUsable env request ns pathPrefix w w'
      (pageAt request.tenantId ns pathPrefix limit r l i) := by
  have hlimit := h.limit_pos
  have hlast : i + limit - 1 < l.length := by omega
  have hdecode := h.decode_getElem hlast
  refine ⟨_, pageAt_more hlimit hlt, hdecode, ?_, ?_⟩
  · intro calls auth decision w'' hauth
    obtain ⟨H', hH', -⟩ := (hH.same hsame).run calls
    have hH'' := hH'.same (sameOn_of_authorize hauth).sameNamespaces
    have hread := hH''.snapshot request.tenantId ns r
    have hnext := h.withCursor (ListCursor.encode
      ⟨request.tenantId, ns, pathPrefix, r, l[i + limit - 1].path⟩)
    exact ⟨_, runE_list_ok hnext.target hauth (runE_listStart_some rfl hdecode) hread⟩
  · intro hgiven
    have hnext : r < w.nextRevision request.tenantId ns := by
      rcases hgiven with hcursor | hgiven
      · rw [hr hcursor]
        exact hH.current_lt request.tenantId ns
      · exact hgiven
    have hheld : SnapshotHeld env request.tenantId ns r bindings w' :=
      .same ⟨H, hH, hnext, hbindings⟩ hsame
    refine ⟨l.length, fun visits hvisits => ?_⟩
    have hbehind : i + limit - 1 + 1 = i + limit := by omega
    have hsome : 0 < visits.length := by omega
    have hall : (l.map (·.item ns)).length ≤ i + limit + visits.length * limit := by
      rw [length_map]
      exact hvisits.trans ((Nat.le_mul_of_pos_right _ hlimit).trans (Nat.le_add_left _ _))
    exact (h.next_shows hlast hbehind hheld).ends hsome hall

/-- A page without items names the empty path, and its cursor does not read back. -/
theorem not_cursorUsable_of_empty (henv : env.ReadsMaps)
    (hkept : WellKept request.tenantId ns bindings)
    (hitems : listItems ⟨ns, r, bindings⟩ pathPrefix request.includeTombstones = l)
    (hlt : i < l.length) :
    ¬ CursorUsable env request ns pathPrefix w w'
      (pageAt request.tenantId ns pathPrefix 0 r l i) := by
  rintro ⟨cursor, hcursor, hdecode, -⟩
  have hempty : (pageAt request.tenantId ns pathPrefix 0 r l i).nextCursor =
      some (ListCursor.encode ⟨request.tenantId, ns, pathPrefix, r, ""⟩) := by
    simp [pageAt, hlt]
  rw [hempty, Option.some.injEq] at hcursor
  have hmem : l[i] ∈ listItems ⟨ns, r, bindings⟩ pathPrefix request.includeTombstones := by
    rw [hitems]
    exact getElem_mem hlt
  obtain ⟨⟨p, hp⟩, hunder, -⟩ := mem_listItems.1 hmem
  have hfits : (ListCursor.canonicalValue ⟨request.tenantId, ns, pathPrefix, r, ""⟩).Fits :=
    hkept.fits hp (hkept.path hp ▸ hunder) r (by decide)
  rw [← hcursor] at hdecode
  exact ListCursor.lastPath_of_decode henv hfits hdecode rfl

end Usable

/-- **When cursors can be used.**  The cursor of a truncated page can be used if and only if the
request asks for at least one item. -/
theorem list_cursors_usable_iff (henv : env.ReadsMaps) (calls : List Call) (auth : AuthContext)
    (request : ListRequest) (htenant : request.tenantId.val ≠ "") {ns : String}
    {pathPrefix : Option String} (htarget : canonicalListTarget request = .ok (ns, pathPrefix))
    {w w' : World} (hw : w = runCalls env calls World.empty)
    (hrevision : (w.current request.tenantId ns).revision < 2 ^ 64) {response : ListResponse}
    (hrun : Prog.runE (exec env) (list env auth request) w = (.ok response, w'))
    (htruncated : response.truncated = true) :
    CursorUsable env request ns pathPrefix w w' response ↔
      0 < (request.limit.getD 100).toNat := by
  have hmade : Chronicled env (runCalls env calls World.empty) := Chronicled.empty.run calls
  obtain ⟨H, hH, hvalid⟩ := hmade
  rw [← hw] at hH
  obtain ⟨hsame, r, i, hr, rfl⟩ := list_ok hH htarget hrun
  have hkept : WellKept request.tenantId ns (stateOf ns ((historySpec env).upTo r
      (H request.tenantId ns))).bindings :=
    hH.wellKept_of_subset (hvalid _ _) (takeWhile_subset _)
  simp only [pageAt, length_map, length_take, length_drop, decide_eq_true_eq]
    at htruncated
  constructor
  · intro husable
    by_contra hlimit
    rw [Nat.eq_zero_of_not_pos hlimit] at husable htruncated
    exact not_cursorUsable_of_empty henv hkept rfl (by omega) husable
  · intro hlimit
    have hr64 : r < 2 ^ 64 := by
      cases hcursor : request.cursor with
      | none =>
        simp only [hcursor] at hr
        rwa [hr]
      | some encoded => simpa only [hcursor] using hr
    have hlisting : Listing env request ns pathPrefix _ r _ _ :=
      ⟨htarget, rfl, hlimit, htenant, henv, hr64, hkept, rfl⟩
    refine hlisting.cursorUsable hH hsame rfl (fun hcursor => ?_) (by omega)
    simpa only [hcursor] using hr

namespace Sample

/-- What the service keeps when the first page is asked for. -/
def listed : World := runCalls listingEnv firstVisit.calls World.empty

/-- The namespace is listed without room for an item. -/
def emptyPage : ListRequest := { listRequest with limit := some 0 }

/-- Two paths are bound, at the revisions one and two. -/
theorem listed_two : (listed.current tenant "n").revision = 2 ∧
    (listItems ⟨"n", 2, (listed.current tenant "n").bindings⟩ none false).length = 2 := by
  rw [listItems, length_mergeSort]
  decide +kernel

/-- A listing of the namespace starts with the first of two items. -/
theorem list_first (htenant : request.tenantId = tenant)
    (htarget : canonicalListTarget request = .ok ("n", none)) (hcursor : request.cursor = none)
    (htombstones : request.includeTombstones = false) :
    ∃ (l : List NamespaceBindingState) (w : World), l.length = 2 ∧
      runE (exec listingEnv) (list listingEnv (auth "6") request) listed =
        (.ok (pageAt tenant "n" none (request.limit.getD 100).toNat 2 l 0), w) := by
  have hmade : Chronicled listingEnv listed := Chronicled.empty.run _
  obtain ⟨H, hH, -⟩ := hmade
  obtain ⟨hrevision, hlength⟩ := listed_two
  have hauth : runE (exec listingEnv) (authorize listingEnv (auth "6")
      (listMeta request.tenantId "n" none)) listed = (.ok ⟨.fresh⟩, listed.ticked 1) := by
    rw [htenant]
    exact runE_authorize_query (by rfl) rfl
  have hsame := (sameOn_of_authorize hauth).sameNamespaces
  have hstart : runE (exec listingEnv) (listStart listingEnv request "n" none)
      (listed.ticked 1) = (.ok (2, none), listed.ticked 1) := by
    rw [runE_listStart_none hcursor, hsame.current, htenant, hrevision]
  have hheld : SnapshotHeld listingEnv request.tenantId "n" 2 (listed.current tenant "n").bindings
      listed := by
    have hfirst := SnapshotHeld.first hH tenant "n"
    rw [htenant]
    rwa [hrevision] at hfirst
  refine ⟨_, listed.ticked 1, hlength,
    (runE_list_ok htarget hauth hstart (hheld.same hsame).read).trans ?_⟩
  rw [listPage_eq, htenant, htombstones]
  rfl

/-- The cursor of the first page reads back, and a client that goes on with it comes to the last
page. -/
theorem cursor_usable :
    ∃ (response : ListResponse) (w : World) (cursor : ListCursor),
      Prog.runE (exec listingEnv) (list listingEnv (auth "6") listRequest) listed =
        (.ok response, w) ∧
      response.truncated = true ∧ response.nextCursor = some cursor.encode ∧
      ListCursor.decode listingEnv cursor.encode = .ok cursor ∧
      ∃ n, ∀ visits : List Visit, n ≤ visits.length →
        ListingEnds listingEnv (listMeta tenant "n" none) visits
          (turnPages listingEnv { listRequest with cursor := some cursor.encode } visits w) := by
  have htarget : canonicalListTarget listRequest = .ok ("n", none) := by decide +kernel
  have hrevision : (listed.current tenant "n").revision < 2 ^ 64 := by
    rw [listed_two.1]
    decide
  obtain ⟨l, w, hl, hrun⟩ := list_first rfl htarget rfl rfl
  have htruncated : (pageAt tenant "n" none 1 2 l 0).truncated = true := by simp [pageAt, hl]
  have husable := list_cursors_usable_iff (readsMaps _) firstVisit.calls (auth "6") listRequest
    (by decide) htarget rfl hrevision hrun htruncated
  obtain ⟨cursor, hcursor, hdecode, -, hends⟩ := husable.2 (by decide)
  exact ⟨_, w, cursor, hrun, htruncated, hcursor, hdecode, hends (.inl rfl)⟩

/-- **The cursor of a page without items is refused.** -/
theorem cursor_refused :
    ∃ response cursor w, Prog.runE (exec listingEnv) (list listingEnv (auth "6") emptyPage) listed =
        (.ok response, w) ∧
      response.truncated = true ∧ response.nextCursor = some cursor ∧
      ListCursor.decode listingEnv cursor =
        .error (invalidCursor "cursor field last_path is missing or invalid") ∧
      (Prog.runE (exec listingEnv) (list listingEnv (auth "8")
        { emptyPage with cursor := some cursor }) w).1 =
          .error (invalidCursor "cursor field last_path is missing or invalid") := by
  have htarget : canonicalListTarget emptyPage = .ok ("n", none) := by decide +kernel
  have hdecode : ListCursor.decode listingEnv (ListCursor.encode ⟨tenant, "n", none, 2, ""⟩) =
      .error (invalidCursor "cursor field last_path is missing or invalid") := by decide +kernel
  obtain ⟨l, w, hl, hrun⟩ := list_first rfl htarget rfl rfl
  refine ⟨_, ListCursor.encode ⟨tenant, "n", none, 2, ""⟩, w, hrun, ?_, ?_, hdecode, ?_⟩
  · simp [pageAt, emptyPage, hl]
  · simp [pageAt, emptyPage, hl]
  · have hauth : runE (exec listingEnv) (authorize listingEnv (auth "8")
        (listMeta tenant "n" none)) w = (.ok ⟨.fresh⟩, w.ticked 1) :=
      runE_authorize_query (by rfl) rfl
    have htarget' : canonicalListTarget { emptyPage with cursor := some (ListCursor.encode
        ⟨tenant, "n", none, 2, ""⟩) } = .ok ("n", none) := htarget
    rw [runE_list_refused htarget' hauth rfl hdecode]

end Sample

end Hsp
