import Hsp.Access.Denied
import Hsp.Path.Segments
import Hsp.Replay.Keyed

/-!
# What the scopes of claims confine

Claims may be restricted to a path prefix and a namespace prefix.  The store is accessed under the
canonical form of the path a request names.  Reads by a selector compare the prefix with the path as
the request spells it.  `BIND`, `UNBIND` and `RESOLVE` compare it with the canonical form, which the
policy engine canonicalizes once more.

`confined_iff` : the scope of the claims contains the path a successful request has used, if the
request is a read by a selector or the canonical form of the prefix is ASCII, and only then.
-/

namespace Hsp

variable {env : Env} {w : World} {ns path : String}

/-! ### Scopes and keys -/

/-- The segments of a key start with those of the canonical form of a scope, if there is one. -/
def Confines (scope : Option String) (key : String) : Prop :=
  ∀ s ∈ scope, ∃ p, canonicalPath s = .ok p ∧ pathSegments p <+: pathSegments key

/-- The canonical form of a scope is ASCII, if there is one. -/
def AsciiScope (scope : Option String) : Prop :=
  ∀ s ∈ scope, ∀ p, canonicalPath s = .ok p → ∀ c ∈ p.toList, IsAscii c

theorem Covers.matches {scope : Option String} {a s : String} (h : Covers scope (some a))
    (hs : s ∈ scope) : segmentPrefixMatches s a := by
  obtain ⟨b, hb, hmatches⟩ := h s hs
  cases hb
  exact hmatches

section Scope

variable {scope : Option String} {raw key : String} (hkey : canonicalPath raw = .ok key)

include hkey

/-- A scope that covers a path confines its canonical form. -/
theorem confines_of_covers (h : Covers scope (some raw)) : Confines scope key := by
  intro s hs
  obtain ⟨p, k, hp, hk, hstart⟩ := segmentPrefixMatches_iff.1 (h.matches hs)
  obtain rfl := Except.ok.inj (hk.symm.trans hkey)
  exact ⟨p, hp, hstart⟩

/-- A scope that covers a canonical form confines it if and only if the scope is ASCII. -/
theorem confines_iff_ascii (h : Covers scope (some key)) :
    Confines scope key ↔ AsciiScope scope := by
  refine forall₂_congr fun s hs => ?_
  obtain ⟨p, _, hp, -⟩ := segmentPrefixMatches_iff.1 (h.matches hs)
  have hascii := matches_canonical_iff hkey hp (h.matches hs)
  simp [hp, hascii]

end Scope

/-! ### Filters -/

/-- **The filter of listings and events is the segment prefix.**  For plain strings it is the
comparison of the policy engine, and what passes a filter within a scope lies in the scope. -/
theorem underPrefix_iff_segments (p q : String) :
    (underPrefix (some p) q ↔ pathSegments p <+: pathSegments q) ∧
      (Plain p → Plain q → (underPrefix (some p) q ↔ segmentPrefixMatches p q)) ∧
      ∀ scope, Confines scope p → underPrefix (some p) q → Confines scope q := by
  have hsegments : underPrefix (some p) q ↔ pathSegments p <+: pathSegments q := by
    rw [pathSegments_prefix_iff]
    simp [underPrefix]
  refine ⟨hsegments, fun hp hq => ?_, fun scope hscope hunder s hs => ?_⟩
  · rw [hsegments, segmentPrefixMatches_iff, canonicalPath_of_plain hp, canonicalPath_of_plain hq]
    simp
  · obtain ⟨start, hstart, hp⟩ := hscope s hs
    exact ⟨start, hstart, hp.trans (hsegments.1 hunder)⟩

theorem underPrefix_docs : Plain "docs" ∧ Plain "docs/a" ∧
    (underPrefix (some "docs") "docs/a" ↔ segmentPrefixMatches "docs" "docs/a") :=
  ⟨by decide, by decide, (underPrefix_iff_segments "docs" "docs/a").2.1 (by decide) (by decide)⟩

/-! ### The keys calls use -/

theorem canonicalNamespaceAndPath_ok {key : String × String}
    (h : canonicalNamespaceAndPath ns path = .ok key) :
    canonicalPath ns = .ok key.1 ∧ canonicalPath path = .ok key.2 := by
  unfold canonicalNamespaceAndPath at h
  split at h
  · cases h
  · split at h
    · cases h
    · cases h
      exact ⟨‹_›, ‹_›⟩

/-- The namespace and the path a selector is resolved by. -/
def ObjectSelector.key (selector : ObjectSelector) : Option (String × String) :=
  match selector.kind with
  | .cid => none
  | .namespace =>
    (canonicalNamespaceAndPath (selector.ns.getD "") (selector.path.getD "")).toOption

/-- The namespace and the path under which a call reads or writes the store. -/
def Call.key : Call → Option (String × String)
  | .bind _ request => (canonicalNamespaceAndPath request.ns request.path).toOption
  | .unbind _ request => (canonicalNamespaceAndPath request.ns request.path).toOption
  | .resolve _ request => (canonicalNamespaceAndPath request.ns request.path).toOption
  | .head _ request => request.selector.key
  | .get _ request => request.selector.key
  | _ => none

/-- The call reads by a selector. -/
def Call.SelectorRead : Call → Prop
  | .head _ _ | .get _ _ => True
  | _ => False

section Selector

variable {selector : ObjectSelector} {t : TenantId}

/-- A selector that is resolved by a path is authorized for the path as it is spelled. -/
theorem names_of_selectorResolution {resolution : SelectorResolution} {w' : World}
    (hkind : selector.kind = .namespace)
    (h : runE (exec env) (selectorResolution t selector) w = (.ok resolution, w')) :
    resolution.ns = some (selector.ns.getD "") ∧
      resolution.path = some (selector.path.getD "") := by
  rw [selectorResolution, hkind] at h
  obtain ⟨resolved, w₁, -, h⟩ := runE_bind_eq_ok _ h
  obtain ⟨_, w₂, -, h⟩ := runE_bind_eq_ok _ h
  cases hcid : resolved.manifestCid with
  | none =>
    rw [hcid] at h
    cases h
  | some cid =>
    rw [hcid] at h
    cases h
    exact ⟨rfl, rfl⟩

/-- A read that succeeds is confined by the scopes of the claims. -/
theorem confines_readBy {α : Type} {auth : AuthContext} {operation : OperationName}
    {f : SelectorResolution → Svc α} {a : α} {w' : World} (hkey : selector.key = some (ns, path))
    (h : runE (exec env) (readBy env auth operation t selector f) w = (.ok a, w')) :
    Confines auth.claims.pathPrefix path ∧ Confines auth.claims.namespacePrefix ns := by
  have hkind : selector.kind = .namespace := by
    cases hk : selector.kind with
    | cid => simp [ObjectSelector.key, hk] at hkey
    | «namespace» => rfl
  rw [ObjectSelector.key, hkind] at hkey
  obtain ⟨hns, hpath⟩ := canonicalNamespaceAndPath_ok (except_ok_of_toOption hkey)
  obtain ⟨resolution, w₁, hresolution, h⟩ := runE_bind_eq_ok _ h
  obtain ⟨decision, w₂, hauth, -⟩ := runE_bind_eq_ok _ h
  obtain ⟨hrns, hrpath⟩ := names_of_selectorResolution hkind hresolution
  have hallows := allows_of_checkClaims (checkClaims_of_authorize hauth)
  have hcoverPath := checkScope_eq_ok.1 hallows.path
  have hcoverNs := checkScope_eq_ok.1 hallows.ns
  rw [readMeta, hrpath] at hcoverPath
  rw [readMeta, hrns] at hcoverNs
  exact ⟨confines_of_covers hpath hcoverPath, confines_of_covers hns hcoverNs⟩

end Selector

/-! ### Successful requests -/

/-- A request that is authorized for its canonical target. -/
theorem confines_iff_of_allows {auth : AuthContext} {req : AuthRequestMeta} {rawNs rawPath : String}
    (h : Allows auth req) (hcanon : canonicalNamespaceAndPath rawNs rawPath = .ok (ns, path))
    (hreq : req.ns = some ns ∧ req.path = some path) :
    (Confines auth.claims.pathPrefix path ↔ AsciiScope auth.claims.pathPrefix) ∧
      (Confines auth.claims.namespacePrefix ns ↔ AsciiScope auth.claims.namespacePrefix) := by
  obtain ⟨hns, hpath⟩ := canonicalNamespaceAndPath_ok hcanon
  have hcoverPath := checkScope_eq_ok.1 h.path
  have hcoverNs := checkScope_eq_ok.1 h.ns
  rw [hreq.2] at hcoverPath
  rw [hreq.1] at hcoverNs
  exact ⟨confines_iff_ascii hpath hcoverPath, confines_iff_ascii hns hcoverNs⟩

/-- What a call changes in the namespaces is at its key. -/
theorem Call.changes_at_key {c : Call} (hkey : c.key = some (ns, path)) {t : TenantId}
    {n p : String} (hchanged : (c.perform env w).2.binding t n p ≠ w.binding t n p) :
    t = c.tenantId ∧ n = ns ∧ p = path := by
  rcases c.outcome env w with hsame | ⟨m, hmade⟩
  · exact absurd (hsame.binding t n p) hchanged
  have hat : t = m.record.tenantId ∧ n = m.record.ns ∧ p = m.record.path := by
    by_contra hnot
    refine hchanged ?_
    rw [hmade.mutates.binding, mutate_binding, if_neg hnot]
  have htarget (request_ns request_path : String) (ifRevision : Option UInt64)
      (hkey : (canonicalNamespaceAndPath request_ns request_path).toOption = some (ns, path))
      (h : canonicalTarget c.tenantId request_ns request_path ifRevision = some m.target) :
      t = c.tenantId ∧ n = ns ∧ p = path := by
    rw [canonicalTarget, except_ok_of_toOption hkey, Option.some.injEq] at h
    obtain ⟨ht, hn, hp⟩ := hat
    have hm : m.record.tenantId = c.tenantId ∧ m.record.ns = ns ∧ m.record.path = path := by
      rw [Mutation.target, Target.mk.injEq] at h
      exact ⟨h.1.symm, h.2.1.symm, h.2.2.1.symm⟩
    exact ⟨ht.trans hm.1, hn.trans hm.2.1, hp.trans hm.2.2⟩
  cases c with
  | bind auth request => exact htarget _ _ _ hkey hmade.target
  | unbind auth request => exact htarget _ _ _ hkey hmade.target
  | resolve auth request => cases hmade.target
  | head auth request => cases hmade.target
  | get auth request => cases hmade.target
  | _ => cases hkey

/-- **What the scopes of the claims confine.**  A successful request changes the namespaces at its
key only.  The key lies within the scopes of the claims if and only if the request reads by a
selector or the canonical forms of the scopes are ASCII. -/
theorem confined_iff (env : Env) {c : Call} {w : World} {reply : Reply} {ns path : String}
    (hok : (c.perform env w).1 = .ok reply) (hkey : c.key = some (ns, path)) :
    (∀ t n p, (c.perform env w).2.binding t n p ≠ w.binding t n p →
        t = c.tenantId ∧ n = ns ∧ p = path) ∧
      (Confines c.auth.claims.pathPrefix path ↔
        c.SelectorRead ∨ AsciiScope c.auth.claims.pathPrefix) ∧
      (Confines c.auth.claims.namespacePrefix ns ↔
        c.SelectorRead ∨ AsciiScope c.auth.claims.namespacePrefix) := by
  refine ⟨fun t n p => c.changes_at_key hkey, ?_⟩
  cases c with
  | bind auth request =>
    obtain ⟨k, _, hk, -, hrun⟩ := Call.keyed_of_ok (c := .bind auth request) trivial hok
    obtain ⟨_, _, record, hcanon, rfl⟩ := Call.keyed_bind hk
    cases hcanon.symm.trans (except_ok_of_toOption hkey)
    simp only [Call.SelectorRead, false_or]
    exact confines_iff_of_allows (Keyed.allows_of_ok hrun) hcanon ⟨rfl, rfl⟩
  | unbind auth request =>
    obtain ⟨k, _, hk, -, hrun⟩ := Call.keyed_of_ok (c := .unbind auth request) trivial hok
    obtain ⟨_, _, record, hcanon, rfl⟩ := Call.keyed_unbind hk
    cases hcanon.symm.trans (except_ok_of_toOption hkey)
    simp only [Call.SelectorRead, false_or]
    exact confines_iff_of_allows (Keyed.allows_of_ok hrun) hcanon ⟨rfl, rfl⟩
  | resolve auth request =>
    have hcanon := except_ok_of_toOption hkey
    obtain ⟨response, w', hrun⟩ := runE_map_eq_ok _ hok
    obtain ⟨_, w₁, hnames, hrun⟩ := runE_bind_eq_ok _ hrun
    rw [hcanon] at hnames
    cases hnames
    obtain ⟨decision, w₂, hauth, -⟩ := runE_bind_eq_ok _ hrun
    simp only [Call.SelectorRead, false_or]
    exact confines_iff_of_allows (allows_of_checkClaims (checkClaims_of_authorize hauth)) hcanon
      ⟨rfl, rfl⟩
  | head auth request =>
    obtain ⟨response, w', hrun⟩ := runE_map_eq_ok _ hok
    obtain ⟨_, w₁, -, hrun⟩ := runE_bind_eq_ok _ hrun
    obtain ⟨hpath, hns⟩ := confines_readBy hkey hrun
    exact ⟨iff_of_true hpath (.inl trivial), iff_of_true hns (.inl trivial)⟩
  | get auth request =>
    obtain ⟨response, w', hrun⟩ := runE_map_eq_ok _ hok
    obtain ⟨_, w₁, -, hrun⟩ := runE_bind_eq_ok _ hrun
    obtain ⟨_, w₂, -, hrun⟩ := runE_bind_eq_ok _ hrun
    obtain ⟨hpath, hns⟩ := confines_readBy hkey hrun
    exact ⟨iff_of_true hpath (.inl trivial), iff_of_true hns (.inl trivial)⟩
  | _ => cases hkey

namespace Sample

/-- A caller whose claims are restricted to a path prefix binds a path. -/
def bindUnder (pathPrefix path : String) : Call :=
  .bind { auth "4" with claims := { (auth "4").claims with pathPrefix := some pathPrefix } }
    ⟨tenant, "n", path, manifestCid, none, true, ∅, none, "4", token 0⟩

/-- The object is bound to the canonical form of `é`. -/
def accentRecord : NamespaceMutationRecord :=
  ⟨{ recordFields .bind (some manifestCid) none with path := "Ã©" }, by decide +kernel⟩

/-- Claims for the prefix `Ã©` allow the bind of `é`, whose key is not below the canonical form of
the prefix. -/
theorem accent_escapes :
    ((bindUnder "Ã©" "é").perform (Sample.env [accentRecord])
        (runCalls (Sample.env [accentRecord]) upload World.empty)).1.isOk ∧
      (bindUnder "Ã©" "é").key = some ("n", "Ã©") ∧
      ¬ Confines (bindUnder "Ã©" "é").auth.claims.pathPrefix "Ã©" := by
  refine ⟨by decide +kernel, by decide +kernel, fun h => ?_⟩
  obtain ⟨p, hp, hstart⟩ := h "Ã©" rfl
  have hcanon : canonicalPath "Ã©" = .ok "Ã\u0083Â©" := by decide +kernel
  obtain rfl := Except.ok.inj (hp.symm.trans hcanon)
  revert hstart
  decide +kernel

/-- Claims for an ASCII prefix confine the bind they allow. -/
theorem ascii_confined : Confines (bindUnder "p" "p").auth.claims.pathPrefix "p" := by
  have hok : (((bindUnder "p" "p").perform (Sample.env [bindRecord])
      (runCalls (Sample.env [bindRecord]) upload World.empty)).1.toOption).isSome := by
    decide +kernel
  obtain ⟨reply, hreply⟩ := Option.isSome_iff_exists.1 hok
  have hascii : AsciiScope (bindUnder "p" "p").auth.claims.pathPrefix := by
    intro s hs p hp
    cases hs
    have hcanon : canonicalPath "p" = .ok "p" := by decide +kernel
    obtain rfl := Except.ok.inj (hp.symm.trans hcanon)
    intro c hc
    obtain rfl : c = 'p' := by simpa using hc
    decide
  have hkey : (bindUnder "p" "p").key = some ("n", "p") := by decide +kernel
  have hconfined := confined_iff (Sample.env [bindRecord]) (except_ok_of_toOption hreply) hkey
  exact hconfined.2.1.2 (.inr hascii)

end Sample

end Hsp
