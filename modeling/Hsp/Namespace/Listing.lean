import Hsp.Log.Pages
import Hsp.Namespace.Revisions
import Hsp.Sample.Reader
import Hsp.Service.Decision

/-!
# Listing a namespace page by page

A client lists a namespace by asking for a page, and for more pages with the cursor it was given,
while others go on changing the namespace.  The cursor carries the revision of the first page, and
the journal up to a revision does not change any more.

* `SnapshotHeld` : what the service reads at the revision of a listing, whatever happens later;
* `pageAt_more` : the cursor of a page names the last item of the page;
* `Listing.first_shows` : the pages a client is given are the pages of the list of items;
* `list_pages_snapshot` : together they are the bindings of the namespace at the time of the first
  page.
-/

namespace Hsp

open List

variable {env : Env} {b : NamespaceBindingState} {H : Histories env} {w : World} {t : TenantId}
  {n p : String} {bindings : BTreeMap String NamespaceBindingState}
  {pathPrefix last : Option String} {r : ℕ}

/-! ### The items of a listing -/

/-- Bindings are kept under their paths.  Tenant, namespace and path are not empty and can be
encoded. -/
structure WellKept (t : TenantId) (n : String) (bindings : BTreeMap String NamespaceBindingState) :
    Prop where
  path : ∀ {p : String} {b}, bindings[p]? = some b → b.path = p
  named : ∀ {p : String} {b}, bindings[p]? = some b → n ≠ "" ∧ p ≠ ""
  short : ∀ {p : String} {b}, bindings[p]? = some b →
    (utf8 t.val).length < 2 ^ 64 ∧ (utf8 n).length < 2 ^ 64 ∧ (utf8 p).length < 2 ^ 64

section Items

variable {t : TenantId} {n : String} {bindings : BTreeMap String NamespaceBindingState}
  {pathPrefix : Option String} {includeTombstones : Bool} {r : ℕ}

theorem mem_listItems :
    b ∈ listItems ⟨n, r, bindings⟩ pathPrefix includeTombstones ↔
      (∃ p : String, bindings[p]? = some b) ∧ underPrefix pathPrefix b.path ∧
        (includeTombstones ∨ b.tombstone = false) := by
  rw [listItems, (mergeSort_perm _ _).mem_iff, mem_filter, mem_map]
  simp [Std.ExtTreeMap.mem_toList_iff_getElem?_eq_some]

theorem pairwise_listItems (h : WellKept t n bindings) :
    (listItems ⟨n, r, bindings⟩ pathPrefix includeTombstones).Pairwise
      fun a b => a.path < b.path := by
  have hkeys : (bindings.toList.map (·.2)).Pairwise fun a b => a.path ≠ b.path := by
    rw [pairwise_map]
    refine Std.ExtTreeMap.distinct_keys_toList.imp_of_mem fun {a b} ha hb hne => ?_
    rw [h.path (Std.ExtTreeMap.mem_toList_iff_getElem?_eq_some.1 ha),
      h.path (Std.ExtTreeMap.mem_toList_iff_getElem?_eq_some.1 hb)]
    exact fun heq => hne (Std.LawfulEqCmp.compare_eq_iff_eq.2 heq)
  have hdistinct : (listItems ⟨n, r, bindings⟩ pathPrefix includeTombstones).Pairwise
      fun a b => a.path ≠ b.path :=
    ((mergeSort_perm _ _).pairwise_iff fun hab => hab.symm).2 (hkeys.filter _)
  have hsorted : (listItems ⟨n, r, bindings⟩ pathPrefix includeTombstones).Pairwise
      fun a b => decide (a.path ≤ b.path) = true := by
    refine pairwise_mergeSort (fun a b c hab hbc => ?_) (fun a b => ?_) _
    · simp only [decide_eq_true_eq] at hab hbc ⊢
      exact String.le_trans hab hbc
    · simpa using String.le_total a.path b.path
  exact (hsorted.and hdistinct).imp fun ⟨hle, hne⟩ =>
    String.not_le.1 fun hge => hne (String.le_antisymm (of_decide_eq_true hle) hge)

theorem nodup_listItems (h : WellKept t n bindings) :
    ((listItems ⟨n, r, bindings⟩ pathPrefix includeTombstones).map (·.path)).Nodup := by
  rw [List.Nodup, pairwise_map]
  exact (pairwise_listItems h).imp fun hlt => String.ne_of_lt hlt

/-- A binding as a listing shows it. -/
def NamespaceBindingState.item (b : NamespaceBindingState) (ns : String) : ListItem where
  ns := ns
  path := b.path
  targetCid := b.targetCid
  manifestCid := b.manifestCid
  revision := b.revision
  recordCid := b.recordCid
  metadata := b.metadata
  tombstone := b.tombstone

theorem mem_items (h : WellKept t n bindings) {item : ListItem} :
    item ∈ (listItems ⟨n, r, bindings⟩ pathPrefix includeTombstones).map (·.item n) ↔
      ∃ b, bindings[item.path]? = some b ∧ item = b.item n ∧ underPrefix pathPrefix item.path ∧
        (includeTombstones ∨ b.tombstone = false) := by
  rw [mem_map]
  constructor
  · rintro ⟨b, hb, rfl⟩
    obtain ⟨⟨p, hp⟩, hunder, htombstone⟩ := mem_listItems.1 hb
    have hpath : (b.item n).path = p := h.path hp
    exact ⟨b, by rw [hpath, hp], rfl, hunder, htombstone⟩
  · rintro ⟨b, hb, hitem, hunder, htombstone⟩
    have hpath : b.path = item.path := h.path hb
    exact ⟨b, mem_listItems.2 ⟨⟨_, hb⟩, hpath ▸ hunder, htombstone⟩, hitem.symm⟩

end Items

/-! ### What a listing needs to know about the bindings -/

theorem NamespaceMutationRecord.named {record : NamespaceMutationRecord}
    (h : record.validate = .ok ()) : record.ns ≠ "" ∧ record.path ≠ "" := by
  simp only [validate, except_throw, except_error_bind, except_guard_eq_ok, Bool.not_eq_true] at h
  obtain ⟨hns, hpath, -⟩ := h
  constructor
  · intro heq
    rw [heq] at hns
    cases hns
  · intro heq
    rw [heq] at hpath
    cases hpath

theorem NamespaceMutationRecord.short (record : NamespaceMutationRecord) :
    (utf8 record.tenantId.val).length < 2 ^ 64 ∧ (utf8 record.ns).length < 2 ^ 64 ∧
      (utf8 record.path).length < 2 ^ 64 := by
  have hfits := record.fits
  simp only [CanonicalValue.Fits, NamespaceMutationFields.canonicalValue, CanonicalValue.fits,
    cons_append, entriesFit, Bool.and_eq_true, decide_eq_true_eq] at hfits
  exact ⟨hfits.2.2.1, hfits.2.2.2.1, hfits.2.2.2.2.1⟩

/-- The bindings that some of the mutations of a namespace make are well kept, if all mutations are
well-formed. -/
theorem Represents.wellKept_of_subset (h : Represents H w)
    (hvalid : ∀ e ∈ H t n, e.2.record.validate = .ok ()) {es : List (ℕ × Mutation env)}
    (hsub : es ⊆ H t n) : WellKept t n (stateOf n es).bindings := by
  have hwritten {p : String} {b : NamespaceBindingState}
      (hb : (stateOf n es).bindings[p]? = some b) :
      ∃ e ∈ H t n, e.2.record.path = p ∧ b.path = p := by
    rw [stateOf_bindings] at hb
    rcases Log.Spec.replay_eq_none_or (L := historySpec env) es p with hnone | ⟨e, he, hkey, hval⟩
    · rw [hnone] at hb
      cases hb
    · exact ⟨e, hsub he, hkey, (e.2.effect_eq_some e.1 (hval.symm.trans hb)).1.trans hkey⟩
  refine ⟨fun hb => ?_, fun hb => ?_, fun hb => ?_⟩
  · obtain ⟨-, -, -, hpath⟩ := hwritten hb
    exact hpath
  · obtain ⟨e, he, rfl, -⟩ := hwritten hb
    obtain ⟨-, rfl⟩ := h.owned t n e he
    exact NamespaceMutationRecord.named (hvalid e he)
  · obtain ⟨e, he, rfl, -⟩ := hwritten hb
    obtain ⟨rfl, rfl⟩ := h.owned t n e he
    exact e.2.record.short

theorem Represents.wellKept (h : Represents H w)
    (hvalid : ∀ e ∈ H t n, e.2.record.validate = .ok ()) :
    WellKept t n (w.current t n).bindings := by
  rw [h.current]
  exact h.wellKept_of_subset hvalid fun _ he => he

/-- The namespaces are made by well-formed mutations. -/
def Chronicled (env : Env) (w : World) : Prop :=
  ∃ H : Histories env, Represents H w ∧ ∀ t n, ∀ e ∈ H t n, e.2.record.validate = .ok ()

namespace Chronicled

variable {w w' : World}

theorem empty : Chronicled env World.empty := ⟨fun _ _ => [], .empty, by simp⟩

theorem same (h : Chronicled env w) (hw : SameNamespaces w w') : Chronicled env w' := by
  obtain ⟨H, hH, hvalid⟩ := h
  exact ⟨H, hH.same hw, hvalid⟩

/-- **The service keeps histories of well-formed mutations.** -/
theorem run (h : Chronicled env w) (calls : List Call) : Chronicled env (runCalls env calls w) := by
  obtain ⟨H, hH, hvalid⟩ := h
  obtain ⟨H', hH', hcont⟩ := hH.run calls
  refine ⟨H', hH', fun t n e he => ?_⟩
  obtain ⟨es, hes, hnew⟩ := hcont.grows t n
  rw [hes, mem_append] at he
  rcases he with he | he
  · exact hvalid t n e he
  · exact (hnew e he).2

end Chronicled

theorem utf8_append (s s' : String) : utf8 (s ++ s') = utf8 s ++ utf8 s' := by
  simp [utf8, String.toByteArray_append]

theorem length_le_of_underPrefix {path : String} (h : underPrefix (some p) path) :
    (utf8 p).length ≤ (utf8 path).length := by
  simp only [underPrefix, Bool.or_eq_true, beq_iff_eq] at h
  rcases h with rfl | h
  · exact le_rfl
  · obtain ⟨rest, hrest⟩ := isPrefixOf_iff_prefix.1 h
    have hpath : path = p ++ "/" ++ String.ofList rest := by
      apply String.toList_inj.1
      rw [String.toList_append, String.toList_ofList, hrest]
    rw [hpath, utf8_append, utf8_append]
    simp only [length_append]
    omega

/-- A cursor with the prefix of a listing that has an item can be encoded. -/
theorem WellKept.fits (h : WellKept t n bindings) (hb : bindings[p]? = some b)
    (hunder : underPrefix pathPrefix p) (r : ℕ) {last : String}
    (hlast : (utf8 last).length < 2 ^ 64) :
    (ListCursor.canonicalValue ⟨t, n, pathPrefix, r, last⟩).Fits := by
  obtain ⟨ht, hn, hp⟩ := h.short hb
  cases pathPrefix with
  | none =>
    simp [CanonicalValue.Fits, ListCursor.canonicalValue, CanonicalValue.fits, entriesFit, optText,
      optField]
    omega
  | some q =>
    have hq : (utf8 q).length < 2 ^ 64 := (length_le_of_underPrefix hunder).trans_lt hp
    simp [CanonicalValue.Fits, ListCursor.canonicalValue, CanonicalValue.fits, entriesFit, optText,
      optField]
    omega

theorem WellKept.decode_encode (h : WellKept t n bindings) (henv : env.ReadsMaps)
    (htenant : t.val ≠ "") (hr : r < 2 ^ 64) (hb : bindings[p]? = some b)
    (hunder : underPrefix pathPrefix p) :
    ListCursor.decode env (ListCursor.encode ⟨t, n, pathPrefix, r, p⟩) =
      .ok ⟨t, n, pathPrefix, r, p⟩ := by
  obtain ⟨hns, hpath⟩ := h.named hb
  obtain ⟨-, -, hp⟩ := h.short hb
  exact ListCursor.decode_encode henv (h.fits hb hunder r hp) htenant hns hr hpath

/-! ### The snapshot of a listing -/

/-- What the service reads at a revision that has been given. -/
def SnapshotHeld (env : Env) (t : TenantId) (n : String) (r : ℕ)
    (bindings : BTreeMap String NamespaceBindingState) (w : World) : Prop :=
  ∃ H : Histories env, Represents H w ∧ r < w.nextRevision t n ∧
    (stateOf n ((historySpec env).upTo r (H t n))).bindings = bindings

theorem Represents.current_lt (h : Represents H w) (t : TenantId) (n : String) :
    (w.current t n).revision < w.nextRevision t n := by
  rw [h.current]
  cases hH : H t n using List.reverseRecOn with
  | nil => exact h.pos t n
  | append_singleton es e =>
    rw [stateOf_snoc]
    exact h.below t n e (by simp [hH])

namespace SnapshotHeld

variable {t : TenantId} {n : String} {r : ℕ} {bindings : BTreeMap String NamespaceBindingState}
  {w w' : World}

theorem first (h : Represents H w) (t : TenantId) (n : String) :
    SnapshotHeld env t n (w.current t n).revision (w.current t n).bindings w := by
  refine ⟨H, h, h.current_lt t n, ?_⟩
  rw [h.current, Log.Spec.upTo_eq_self (le_stateOf_revision (h.valid t n))]

theorem same (h : SnapshotHeld env t n r bindings w) (hw : SameNamespaces w w') :
    SnapshotHeld env t n r bindings w' := by
  obtain ⟨H, hH, hr, hbindings⟩ := h
  exact ⟨H, hH.same hw, hr.trans_eq (hw.nextRevision t n).symm, hbindings⟩

/-- **Later calls do not change what is read at the revision.** -/
theorem run (h : SnapshotHeld env t n r bindings w) (calls : List Call) :
    SnapshotHeld env t n r bindings (runCalls env calls w) := by
  obtain ⟨H, hH, hr, hbindings⟩ := h
  obtain ⟨H', hH', hcont⟩ := hH.run calls
  obtain ⟨es, hes, hnew⟩ := hcont.grows t n
  refine ⟨H', hH', hr.trans_le (hcont.next t n), ?_⟩
  rw [hes, Log.Spec.upTo_append (L := historySpec env) fun e he => hr.trans_le (hnew e he).1,
    hbindings]

theorem read (h : SnapshotHeld env t n r bindings w) :
    runE (exec env) (namespaceSnapshotAt t n (some r)) w = (.ok ⟨n, r, bindings⟩, w) := by
  obtain ⟨H, hH, -, hbindings⟩ := h
  rw [hH.snapshot, hbindings]

end SnapshotHeld

/-! ### One page -/

section Page

variable (t : TenantId) (ns : String) (pathPrefix : Option String) (limit r : ℕ)
  (l : List NamespaceBindingState)

/-- The page from a position on. -/
def pageAt (i : ℕ) : ListResponse :=
  let page := ((l.drop i).take limit).map (·.item ns)
  let truncated : Bool := i + page.length < l.length
  { items := page
    nextCursor :=
      if truncated then
        some (ListCursor.encode ⟨t, ns, pathPrefix, r, (page.getLast?.map (·.path)).getD ""⟩)
      else none
    truncated
    namespaceRevisionSnapshot := r }

theorem listPage_eq (last : Option String) :
    listPage t ns pathPrefix last limit r l =
      pageAt t ns pathPrefix limit r l (Pages.startAfter (·.path) l last) := by
  cases last <;> rfl

variable {t ns pathPrefix limit r l}

@[simp] theorem pageAt_items (i : ℕ) : (pageAt t ns pathPrefix limit r l i).items =
    ((l.drop i).take limit).map (·.item ns) := rfl

theorem pageAt_last {i : ℕ} (h : ¬ i + limit < l.length) :
    (pageAt t ns pathPrefix limit r l i).nextCursor = none := by
  simp only [pageAt, length_map, length_take, length_drop, decide_eq_true_eq]
  rw [if_neg (by omega)]

/-- **The cursor of a page that is not the last names the last item of the page.** -/
theorem pageAt_more {i : ℕ} (hlimit : 0 < limit) (h : i + limit < l.length) :
    (pageAt t ns pathPrefix limit r l i).nextCursor =
      some (ListCursor.encode ⟨t, ns, pathPrefix, r, l[i + limit - 1].path⟩) := by
  have hlast : (((l.drop i).take limit).map (·.item ns)).getLast? =
      some (l[i + limit - 1].item ns) := by
    have hindex : i + (limit - 1) = i + limit - 1 := by omega
    rw [getLast?_map, getLast?_eq_getElem?, length_take, length_drop,
      Nat.min_eq_left (by omega), getElem?_take_of_lt (by omega), getElem?_drop, hindex,
      getElem?_eq_getElem (by omega)]
    rfl
  simp only [pageAt, length_map, length_take, length_drop, decide_eq_true_eq]
  rw [if_pos (by omega), hlast]
  rfl

end Page

/-! ### One request -/

/-- What a list request asks the policy engine. -/
def listMeta (tenantId : TenantId) (ns : String) (pathPrefix : Option String) :
    AuthRequestMeta where
  operation := .list
  tenantId := tenantId
  subject := "list:" ++ ns
  ns := some ns
  path := pathPrefix

section Request

variable {request : ListRequest} {ns : String} {pathPrefix : Option String} {auth : AuthContext}
  {w w₁ : World}

theorem runE_list_denied (htarget : canonicalListTarget request = .ok (ns, pathPrefix))
    {e : ApiError} (hauth : runE (exec env)
      (authorize env auth (listMeta request.tenantId ns pathPrefix)) w = (.error e, w₁)) :
    runE (exec env) (list env auth request) w = (.error e, w₁) := by
  rw [list, htarget, runE_ofExcept_bind]
  exact runE_bind_error _ hauth

theorem runE_list_ok (htarget : canonicalListTarget request = .ok (ns, pathPrefix))
    {decision : AuthorizationDecision} (hauth : runE (exec env)
      (authorize env auth (listMeta request.tenantId ns pathPrefix)) w = (.ok decision, w₁))
    (hstart : runE (exec env) (listStart env request ns pathPrefix) w₁ = (.ok (r, last), w₁))
    (hread : runE (exec env) (namespaceSnapshotAt request.tenantId ns (some r)) w₁ =
      (.ok ⟨ns, r, bindings⟩, w₁)) :
    runE (exec env) (list env auth request) w =
      (.ok (listPage request.tenantId ns pathPrefix last (request.limit.getD 100).toNat r
        (listItems ⟨ns, r, bindings⟩ pathPrefix request.includeTombstones)), w₁) := by
  rw [list, htarget, runE_ofExcept_bind]
  refine (runE_bind_ok _ hauth).trans ?_
  rw [runE_bind_ok _ hstart, runE_bind_ok _ hread]
  rfl

theorem runE_listStart_none (hcursor : request.cursor = none) :
    runE (exec env) (listStart env request ns pathPrefix) w =
      (.ok ((w.current request.tenantId ns).revision, none), w) := by
  rw [listStart, hcursor]
  rfl

theorem runE_listStart_some {encoded : String} (hcursor : request.cursor = some encoded)
    {last : String}
    (hdecode : ListCursor.decode env encoded = .ok ⟨request.tenantId, ns, pathPrefix, r, last⟩) :
    runE (exec env) (listStart env request ns pathPrefix) w = (.ok (r, some last), w) := by
  rw [listStart, hcursor]
  dsimp only
  rw [hdecode, runE_ofExcept_bind, runE_bind_ok _ (runE_rejectIf_of_not env w (by simp) _)]
  rfl

end Request

/-! ### All the pages -/

/-- A page is asked for by a caller, after some calls that others make. -/
structure Visit where
  calls : List Call
  auth : AuthContext

/-- The pages a client is given that follows the cursors, as long as it is not turned away and for
as many visits as it makes. -/
def turnPages (env : Env) (request : ListRequest) : List Visit → World →
    Except ApiError (List ListResponse)
  | [], _ => .ok []
  | visit :: visits, w =>
    match Prog.runE (exec env) (list env visit.auth request) (runCalls env visit.calls w) with
    | (.error e, _) => .error e
    | (.ok response, w') =>
      match response.nextCursor with
      | none => .ok [response]
      | some cursor =>
        (response :: ·) <$> turnPages env { request with cursor := some cursor } visits w'

/-- The visits end with a denial, or the given pages are shown. -/
def Shows (env : Env) (asks : AuthRequestMeta) (visits : List Visit)
    (result : Except ApiError (List ListResponse)) (pages : List (List ListItem × Bool)) : Prop :=
  match result with
  | .error e => ∃ visit ∈ visits, ∃ w, (Prog.runE (exec env)
    (authorize env visit.auth asks) w).1 = .error e
  | .ok responses => responses.map (fun p => (p.items, p.nextCursor.isSome)) = pages

/-- Pages that are shown make up the items, and the last of them has no cursor exactly if all items
have been shown. -/
theorem Shows.together {asks : AuthRequestMeta} {visits : List Visit}
    {responses : List ListResponse} {limit n : ℕ} {items : List ListItem} (hn : 0 < n)
    (h : Shows env asks visits (.ok responses) (Pages.pagesFrom limit items n 0)) :
    responses.flatMap (·.items) = items.take (n * limit) ∧
      (responses.getLast?.map (·.nextCursor) = some none ↔ items.length ≤ n * limit) := by
  have hpages : responses.map (fun p => (p.items, p.nextCursor.isSome)) =
    Pages.pagesFrom limit items n 0 := h
  obtain ⟨hitems, hended⟩ := Pages.together limit items hpages
  rw [drop_zero] at hitems
  rw [Nat.zero_add] at hended
  exact ⟨hitems, hended hn⟩

/-- What a listing rests on: its request names a namespace and asks for at least one item a page,
and its cursors read back. -/
structure Listing (env : Env) (request : ListRequest) (ns : String) (pathPrefix : Option String)
    (limit r : ℕ) (bindings : BTreeMap String NamespaceBindingState)
    (l : List NamespaceBindingState) : Prop where
  target : canonicalListTarget request = .ok (ns, pathPrefix)
  limit_eq : (request.limit.getD 100).toNat = limit
  limit_pos : 0 < limit
  tenant : request.tenantId.val ≠ ""
  reads : env.ReadsMaps
  revision : r < 2 ^ 64
  kept : WellKept request.tenantId ns bindings
  items : listItems ⟨ns, r, bindings⟩ pathPrefix request.includeTombstones = l

namespace Listing

variable {request : ListRequest} {ns : String} {pathPrefix : Option String} {limit r : ℕ}
  {bindings : BTreeMap String NamespaceBindingState} {l : List NamespaceBindingState}
  {visit : Visit} {visits : List Visit} {w : World} {i : ℕ}

theorem pairwise (h : Listing env request ns pathPrefix limit r bindings l) :
    (l.map (·.item ns)).Pairwise fun a b => a.path < b.path := by
  rw [pairwise_map, ← h.items]
  exact pairwise_listItems h.kept

theorem withCursor (h : Listing env request ns pathPrefix limit r bindings l) (cursor : String) :
    Listing env { request with cursor := some cursor } ns pathPrefix limit r bindings l :=
  ⟨h.target, h.limit_eq, h.limit_pos, h.tenant, h.reads, h.revision, h.kept, h.items⟩

theorem decode_getElem (h : Listing env request ns pathPrefix limit r bindings l) {j : ℕ}
    (hj : j < l.length) :
    ListCursor.decode env (ListCursor.encode ⟨request.tenantId, ns, pathPrefix, r, l[j].path⟩) =
      .ok ⟨request.tenantId, ns, pathPrefix, r, l[j].path⟩ := by
  have hmem : l[j] ∈ listItems ⟨ns, r, bindings⟩ pathPrefix request.includeTombstones := by
    rw [h.items]
    exact getElem_mem hj
  obtain ⟨⟨p, hp⟩, hunder, -⟩ := mem_listItems.1 hmem
  have hp' : bindings[l[j].path]? = some l[j] := by rwa [h.kept.path hp]
  exact h.kept.decode_encode h.reads h.tenant h.revision hp' hunder

theorem page {auth : AuthContext} {response : ListResponse} {w' : World}
    (h : Listing env request ns pathPrefix limit r bindings l)
    (hi : Pages.startAfter (·.path) l last = i)
    (hheld : SnapshotHeld env request.tenantId ns r bindings w)
    (hstart : ∀ w₁, SameNamespaces w w₁ →
      runE (exec env) (listStart env request ns pathPrefix) w₁ = (.ok (r, last), w₁))
    (hrun : runE (exec env) (list env auth request) w = (.ok response, w')) :
    response = pageAt request.tenantId ns pathPrefix limit r l i ∧ SameNamespaces w w' := by
  rcases hauth : runE (exec env) (authorize env auth
    (listMeta request.tenantId ns pathPrefix)) w with ⟨e | decision, w₁⟩
  · rw [runE_list_denied h.target hauth] at hrun
    cases hrun
  have hsame := (sameOn_of_authorize hauth).sameNamespaces
  rw [runE_list_ok h.target hauth (hstart w₁ hsame) (hheld.same hsame).read, h.items, h.limit_eq,
    listPage_eq, hi] at hrun
  cases hrun
  exact ⟨rfl, hsame⟩

/-- **One visit**: the caller is denied, or is shown the page at a position, and goes on from the
position behind it. -/
theorem visit_shows (h : Listing env request ns pathPrefix limit r bindings l)
    (hi : Pages.startAfter (·.path) l last = i)
    (hheld : SnapshotHeld env request.tenantId ns r bindings (runCalls env visit.calls w))
    (hstart : ∀ w₁, SameNamespaces (runCalls env visit.calls w) w₁ →
      runE (exec env) (listStart env request ns pathPrefix) w₁ = (.ok (r, last), w₁))
    (hnext : ∀ hlt : i + limit < l.length, ∀ w₁,
      SnapshotHeld env request.tenantId ns r bindings w₁ →
      Shows env (listMeta request.tenantId ns pathPrefix) visits
        (turnPages env { request with cursor := some (ListCursor.encode
          ⟨request.tenantId, ns, pathPrefix, r, l[i + limit - 1].path⟩) } visits w₁)
        (Pages.pagesFrom limit (l.map (·.item ns)) visits.length (i + limit))) :
    Shows env (listMeta request.tenantId ns pathPrefix) (visit :: visits)
      (turnPages env request (visit :: visits) w)
      (Pages.pagesFrom limit (l.map (·.item ns)) (visits.length + 1) i) := by
  rcases hauth : runE (exec env) (authorize env visit.auth
    (listMeta request.tenantId ns pathPrefix)) (runCalls env visit.calls w) with ⟨e | decision, w₁⟩
  · rw [turnPages, runE_list_denied h.target hauth]
    exact ⟨visit, mem_cons_self, _, congrArg Prod.fst hauth⟩
  have hsame := (sameOn_of_authorize hauth).sameNamespaces
  have hheld₁ := hheld.same hsame
  have hrun := runE_list_ok h.target hauth (hstart w₁ hsame) hheld₁.read
  rw [h.items, h.limit_eq, listPage_eq, hi] at hrun
  rw [turnPages, hrun, Pages.pagesFrom, length_map]
  by_cases hlt : i + limit < l.length
  · have hrest := hnext hlt w₁ hheld₁
    simp only [pageAt_more h.limit_pos hlt, if_pos hlt]
    cases hturned : turnPages env { request with cursor := some (ListCursor.encode
        ⟨request.tenantId, ns, pathPrefix, r, l[i + limit - 1].path⟩) } visits w₁ with
    | error e =>
      rw [hturned] at hrest
      obtain ⟨visit', hvisit', w', hdenied⟩ := hrest
      exact ⟨visit', mem_cons_of_mem _ hvisit', w', hdenied⟩
    | ok responses =>
      rw [hturned] at hrest
      have hpages : responses.map (fun p => (p.items, p.nextCursor.isSome)) = _ := hrest
      simp [Shows, ← hpages, pageAt_more h.limit_pos hlt]
  · simp [Shows, pageAt_last hlt, hlt]

/-- **The pages behind an item**, as its cursor gives them. -/
theorem next_shows (h : Listing env request ns pathPrefix limit r bindings l) {j : ℕ}
    (hj : j < l.length) (hi : j + 1 = i)
    (hheld : SnapshotHeld env request.tenantId ns r bindings w) :
    Shows env (listMeta request.tenantId ns pathPrefix) visits
      (turnPages env { request with cursor := some (ListCursor.encode
        ⟨request.tenantId, ns, pathPrefix, r, l[j].path⟩) } visits w)
      (Pages.pagesFrom limit (l.map (·.item ns)) visits.length i) := by
  induction visits generalizing i j w with
  | nil => rfl
  | cons visit visits ih =>
    have hnodup : (l.map (·.path)).Nodup := h.items ▸ nodup_listItems h.kept
    refine (h.withCursor _).visit_shows ((Pages.startAfter_getElem hnodup hj).trans hi)
      (hheld.run visit.calls) (fun w₁ _ => ?_) fun hlt w₁ hheld₁ => ?_
    · exact runE_listStart_some rfl (h.decode_getElem hj)
    · have hpos := h.limit_pos
      exact ih (by omega) (by omega) hheld₁

/-- **The pages of a listing are the pages of its items.** -/
theorem first_shows (h : Listing env request ns pathPrefix limit r bindings l)
    (hcursor : request.cursor = none)
    (hheld : SnapshotHeld env request.tenantId ns r bindings (runCalls env visit.calls w))
    (hr : ((runCalls env visit.calls w).current request.tenantId ns).revision = r) :
    Shows env (listMeta request.tenantId ns pathPrefix) (visit :: visits)
      (turnPages env request (visit :: visits) w)
      (Pages.pagesFrom limit (l.map (·.item ns)) (visits.length + 1) 0) := by
  have hi : Pages.startAfter (·.path) l none = 0 := rfl
  refine h.visit_shows hi hheld (fun w₁ hsame => ?_) fun hlt w₁ hheld₁ => ?_
  · rw [runE_listStart_none hcursor, hsame.current, hr]
  · have hpos := h.limit_pos
    exact h.next_shows (by omega) (by omega) hheld₁

end Listing

/-- **Listing a namespace is reading a snapshot of it.**  The pages a client is given, while others
go on using the service, are the bindings of the namespace at the time of the first page that lie
under the prefix, tombstones included or not, in the order of their paths and each once; and after
enough pages the client is told that there are no more. -/
theorem list_pages_snapshot (env : Env) (henv : env.ReadsMaps) (request : ListRequest)
    (hcursor : request.cursor = none) (htenant : request.tenantId.val ≠ "")
    (hlimit : 0 < (request.limit.getD 100).toNat) {ns : String} {pathPrefix : Option String}
    (htarget : canonicalListTarget request = .ok (ns, pathPrefix)) (first : Visit)
    (visits : List Visit) {w : World} (hw : w = runCalls env first.calls World.empty)
    (hrevision : (w.current request.tenantId ns).revision < 2 ^ 64) :
    ∃ items : List ListItem, items.Pairwise (fun a b => a.path < b.path) ∧
      (∀ item, item ∈ items ↔ ∃ b, w.binding request.tenantId ns item.path = some b ∧
        item = b.item ns ∧ underPrefix pathPrefix item.path ∧
        (request.includeTombstones ∨ b.tombstone = false)) ∧
      match turnPages env request (first :: visits) World.empty with
      | .error e => ∃ visit ∈ first :: visits, ∃ w', (Prog.runE (exec env) (authorize env visit.auth
          (listMeta request.tenantId ns pathPrefix)) w').1 = .error e
      | .ok pages => pages.flatMap (·.items) =
            items.take ((visits.length + 1) * (request.limit.getD 100).toNat) ∧
          (pages.getLast?.map (·.nextCursor) = some none ↔
            items.length ≤ (visits.length + 1) * (request.limit.getD 100).toNat) := by
  subst hw
  have hmade : Chronicled env (runCalls env first.calls World.empty) := Chronicled.empty.run _
  obtain ⟨H, hH, hvalid⟩ := hmade
  have hkept := hH.wellKept (hvalid request.tenantId ns)
  have hlisting : Listing env request ns pathPrefix _ _ _ _ :=
    ⟨htarget, rfl, hlimit, htenant, henv, hrevision, hkept, rfl⟩
  have hshows : Shows env _ (first :: visits) _ _ :=
    hlisting.first_shows hcursor (SnapshotHeld.first hH request.tenantId ns) rfl
  refine ⟨_, hlisting.pairwise, fun item => mem_items hkept, ?_⟩
  cases hturned : turnPages env request (first :: visits) World.empty with
  | error e =>
    rw [hturned] at hshows
    exact hshows
  | ok pages =>
    rw [hturned] at hshows
    exact hshows.together visits.length.succ_pos

namespace Sample

/-- The platform of a client that lists the namespace. -/
def listingEnv : Env := readingEnv [bindRecord, otherRecord, unbindRecord]

/-- The namespace is listed one item at a time. -/
def listRequest : ListRequest := ⟨tenant, "n", none, none, some 1, false⟩

/-- The object is uploaded and bound to two paths before the first page. -/
def firstVisit : Visit where
  calls := upload ++ [bind "4" 0,
    .bind (auth "5") ⟨tenant, "n", "q", manifestCid, none, true, ∅, none, "5", token 1⟩]
  auth := auth "6"

/-- The first path is unbound before the second page. -/
def secondVisit : Visit := ⟨[unbind "7" 2], auth "8"⟩

/-- Both paths are listed, although the first is unbound before the second page. -/
theorem listing_is_snapshot :
    ∃ (items : List ListItem) (pages : List ListResponse),
      turnPages listingEnv listRequest [firstVisit, secondVisit] World.empty = .ok pages ∧
      (∃ item ∈ items, item.path = "p") ∧ (∃ item ∈ items, item.path = "q") ∧
      pages.flatMap (·.items) = items.take 2 ∧
        (pages.getLast?.map (·.nextCursor) = some none ↔ items.length ≤ 2) := by
  have ⟨hrevision, hp, hq⟩ :
      let w := runCalls listingEnv firstVisit.calls World.empty
      (w.current tenant "n").revision < 2 ^ 64 ∧
        (w.binding tenant "n" "p").map (fun b => (b.path, b.tombstone)) = some ("p", false) ∧
        (w.binding tenant "n" "q").map (fun b => (b.path, b.tombstone)) = some ("q", false) := by
    decide +kernel
  have htarget : canonicalListTarget listRequest = .ok ("n", none) := by decide +kernel
  obtain ⟨items, -, hmem, hshown⟩ := list_pages_snapshot listingEnv (readsMaps _) listRequest rfl
    (by decide) (by decide) htarget firstVisit [secondVisit] rfl hrevision
  have hlisted {path : String} (h : ((runCalls listingEnv firstVisit.calls World.empty).binding
      tenant "n" path).map (fun b => (b.path, b.tombstone)) = some (path, false)) :
      ∃ item ∈ items, item.path = path := by
    obtain ⟨b, hb, hpair⟩ := Option.map_eq_some_iff.1 h
    obtain ⟨rfl, htombstone⟩ := Prod.mk.inj hpair
    exact ⟨b.item "n", (hmem _).2 ⟨b, hb, rfl, rfl, .inr htombstone⟩, rfl⟩
  have hallowed (jti : String) (w : World) : (runE (exec listingEnv) (authorize listingEnv
      (auth jti) (listMeta tenant "n" none)) w).1 = .ok ⟨.fresh⟩ := by
    rw [runE_authorize_query (by rfl) rfl]
  cases hturned : turnPages listingEnv listRequest [firstVisit, secondVisit] World.empty with
  | error e =>
    rw [hturned] at hshown
    obtain ⟨visit, hvisit, w, hdenied⟩ := hshown
    simp only [mem_cons, not_mem_nil, or_false] at hvisit
    rcases hvisit with rfl | rfl
    · cases (hallowed "6" w).symm.trans hdenied
    · cases (hallowed "8" w).symm.trans hdenied
  | ok pages =>
    rw [hturned] at hshown
    exact ⟨items, pages, rfl, hlisted hp, hlisted hq, hshown⟩

end Sample

end Hsp
