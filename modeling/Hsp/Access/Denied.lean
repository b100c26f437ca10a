import Hsp.Namespace.Integrity
import Hsp.Service.Handled

/-!
# What a denied request reveals

A request may be denied before or after the service has looked something up for it.  Two worlds
that differ in the data of a tenant are compared: a request is *silent* if callers who are not
entitled to its target get the same answer in both.

* `RESOLVE`, `LIST` and reads by content identifier are authorized before anything is looked up;
* a read by path first resolves the path, and an upload first reads its session, so these requests
  tell everyone whether the path is bound and whether the session exists.

`silent_iff` is the exact condition.
-/

namespace Hsp

open World

variable {env : Env}

/-! ### Who is entitled to a target -/

/-- A scope of the claims, if there is one, covers what is asked for. -/
def Covers (scope actual : Option String) : Prop :=
  ∀ s ∈ scope, ∃ a ∈ actual, segmentPrefixMatches s a

theorem checkScope_eq_ok {scope actual : Option String} {reason : DenialReason} :
    checkScope scope actual reason = .ok () ↔ Covers scope actual := by
  cases scope with
  | none => simp [checkScope, Covers]
  | some s =>
    cases actual with
    | none => simp [checkScope, Covers]
    | some a =>
      simp only [checkScope, Covers, except_throw, except_pure, Option.mem_def, Option.some.injEq,
        forall_eq', exists_eq_left']
      split <;> simp_all

theorem not_covers_none {scope actual : Option String} (h : ¬ Covers scope actual) :
    ¬ Covers scope none := by
  intro hnone
  refine h fun s hs => ?_
  obtain ⟨a, ha, -⟩ := hnone s hs
  cases ha

/-- The namespace and the path a selector names. -/
def ObjectSelector.target (selector : ObjectSelector) : Option String × Option String :=
  match selector.kind with
  | .cid => (none, none)
  | .namespace => (some (selector.ns.getD ""), some (selector.path.getD ""))

/-- The namespace and the path a call is about.  A commit is about those its session binds. -/
def Call.names (w : World) : Call → Option String × Option String
  | .head _ request => request.selector.target
  | .get _ request => request.selector.target
  | .putCommit _ request =>
    let atomicBind := (w.store (.sessions request.tenantId request.sessionId)).bind (·.atomicBind)
    (atomicBind.map (·.ns), atomicBind.map (·.path))
  | .resolve _ request =>
    match canonicalNamespaceAndPath request.ns request.path with
    | .ok (ns, path) => (some ns, some path)
    | .error _ => (none, none)
  | .list _ request =>
    match canonicalListTarget request with
    | .ok (ns, pathPrefix) => (some ns, pathPrefix)
    | .error _ => (none, none)
  | _ => (none, none)

/-- The claims are those of the tenant, and their scopes cover a namespace and a path. -/
structure Entitles (auth : AuthContext) (t : TenantId) (names : Option String × Option String) :
    Prop where
  tenant : auth.claims.tenantId = t
  ns : Covers auth.claims.namespacePrefix names.1
  path : Covers auth.claims.pathPrefix names.2

/-- The caller is entitled to what the call is about. -/
def Call.Entitled (c : Call) (w : World) : Prop := Entitles c.auth c.tenantId (c.names w)

theorem Entitles.of_none {auth : AuthContext} {t : TenantId} {names : Option String × Option String}
    (h : Entitles auth t (none, none)) : Entitles auth t names where
  tenant := h.tenant
  ns := not_imp_not.1 not_covers_none h.ns
  path := not_imp_not.1 not_covers_none h.path

section Denied

variable {α : Type} {auth : AuthContext} {req : AuthRequestMeta} {w w' : World}

theorem exists_denial (h : ¬ Entitles auth req.tenantId (req.ns, req.path)) (now : ℕ) :
    ∃ reason, checkClaims now auth req = .error reason := by
  cases hc : checkClaims now auth req with
  | error reason => exact ⟨reason, rfl⟩
  | ok _ =>
    have hallows := allows_of_checkClaims hc
    exact absurd ⟨hallows.tenant, checkScope_eq_ok.1 hallows.ns, checkScope_eq_ok.1 hallows.path⟩ h

/-- A caller who is not entitled is told the reason of the denial. -/
theorem answer_denied (env : Env) (auth : AuthContext) (req : AuthRequestMeta)
    (h : ¬ Entitles auth req.tenantId (req.ns, req.path))
    (f : AuthorizationDecision → Svc α) (w : World) :
    ∃ reason, checkClaims (env.clock w.tick) auth req = .error reason ∧
      (runE (exec env) (authorize env auth req >>= f) w).1 =
        .error (denialToApiError reason) := by
  obtain ⟨reason, hreason⟩ := exists_denial h (env.clock w.tick)
  exact ⟨reason, hreason, by rw [runE_bind_error _ (runE_authorize_denied hreason)]⟩

theorem answer_denied_eq (h : ¬ Entitles auth req.tenantId (req.ns, req.path))
    (f : AuthorizationDecision → Svc α) (htick : w'.tick = w.tick) :
    (runE (exec env) (authorize env auth req >>= f) w).1 =
      (runE (exec env) (authorize env auth req >>= f) w').1 := by
  obtain ⟨reason, hreason, hrun⟩ := answer_denied env auth req h f w
  obtain ⟨reason', hreason', hrun'⟩ := answer_denied env auth req h f w'
  rw [htick, hreason, Except.error.injEq] at hreason'
  rw [hrun, hrun', hreason']

end Denied

/-! ### Silent requests -/

/-- The worlds differ only in the uploads, objects and namespaces of a tenant. -/
structure SameApart (t : TenantId) (w w' : World) : Prop where
  store : ∀ l : Loc, ¬ (l.tenantId = t ∧ (l.isObject || l.isNamespace)) → w'.store l = w.store l
  seen : w'.seen = w.seen
  tick : w'.tick = w.tick

theorem SameApart.set {t : TenantId} {l : Loc} (ht : l.tenantId = t)
    (hl : l.isObject || l.isNamespace) (w : World) (v : Option (Val l)) :
    SameApart t w (w.set l v) where
  store l' hl' := set_store_of_ne w (by rintro rfl; exact hl' ⟨ht, hl⟩) v
  seen := rfl
  tick := rfl

/-- Callers who are not entitled get the same answer whatever the tenant has stored. -/
def Call.Silent (env : Env) (c : Call) : Prop :=
  ∀ w w', SameApart c.tenantId w w' → ¬ c.Entitled w → ¬ c.Entitled w' →
    (c.perform env w).1 = (c.perform env w').1

/-- The selector is rejected, or it names an object without a path to look up. -/
def ObjectSelector.Discreet (selector : ObjectSelector) : Prop :=
  selector.validate ≠ .ok () ∨ selector.kind = .cid ∨
    ∃ e, canonicalNamespaceAndPath (selector.ns.getD "") (selector.path.getD "") = .error e

/-- The call is rejected or authorized before anything is looked up for it. -/
def Call.Discreet (env : Env) : Call → Prop
  | .head _ request => request.selector.Discreet
  | .get _ request => validateRange request.range ≠ .ok () ∨ request.selector.Discreet
  | .putChunk _ request ciphertextChunk => cidFromBytes env ciphertextChunk ≠ request.chunkCid
  | .putCommit _ _ => False
  | _ => True

/-- The calls that look up data of a tenant by a name the caller gives. -/
def Call.LooksUp : Call → Prop
  | .head _ _ | .get _ _ | .putChunk _ _ _ | .putCommit _ _ | .resolve _ _ | .list _ _ => True
  | _ => False

/-! ### Reads by a selector -/

section Selector

variable {α : Type} {auth : AuthContext} {t : TenantId} {selector : ObjectSelector}
  {operation : OperationName} {f : SelectorResolution → Svc α} {w w' : World} {ns path : String}

/-- `HEAD` and `GET` after their checks. -/
def readBy (env : Env) (auth : AuthContext) (operation : OperationName) (t : TenantId)
    (selector : ObjectSelector) (f : SelectorResolution → Svc α) : Svc α := do
  let resolution ← selectorResolution t selector
  let _ ← authorize env auth (readMeta operation t resolution)
  f resolution

theorem runE_selectorResolution_none (hkind : selector.kind = .namespace)
    (hcanon : canonicalNamespaceAndPath (selector.ns.getD "") (selector.path.getD "") =
      .ok (ns, path)) (hbinding : w.binding t ns path = none) :
    runE (exec env) (selectorResolution t selector) w =
      (.error ⟨.notFound, "path_not_bound", "namespace path is not bound"⟩, w) := by
  have hb : (w.current t ns).bindings[path]? = none := hbinding
  simp [selectorResolution, hkind, Prog.runE_bind, runE_resolveSnapshot, hcanon, resolveBinding, hb]

theorem runE_selectorResolution_some (env : Env) (hkind : selector.kind = .namespace)
    (hcanon : canonicalNamespaceAndPath (selector.ns.getD "") (selector.path.getD "") =
      .ok (ns, path)) {b : NamespaceBindingState} {cid : String}
    (hbinding : w.binding t ns path = some b) (hlive : b.tombstone = false)
    (hcid : b.manifestCid = some cid) :
    runE (exec env) (selectorResolution t selector) w =
      (.ok ⟨cid, some (selector.ns.getD ""), some (selector.path.getD ""), some b.revision,
        some b.recordCid⟩, w) := by
  have hb : (w.current t ns).bindings[path]? = some b := hbinding
  simp [selectorResolution, hkind, Prog.runE_bind, runE_resolveSnapshot, hcanon, resolveBinding, hb,
    hlive, hcid, runE_map, Except.map]

/-- Without a path to look up, the request is authorized first. -/
theorem readBy_cid (hkind : selector.kind = .cid) (h : ¬ Entitles auth t selector.target)
    (htick : w'.tick = w.tick) :
    (runE (exec env) (readBy env auth operation t selector f) w).1 =
      (runE (exec env) (readBy env auth operation t selector f) w').1 := by
  have hlookup (w : World) : runE (exec env) (selectorResolution t selector) w =
      (.ok ⟨selector.cid.getD "", none, none, none, none⟩, w) := by
    rw [selectorResolution, hkind]
    rfl
  rw [ObjectSelector.target, hkind] at h
  rw [readBy, runE_bind_ok _ (hlookup w), runE_bind_ok _ (hlookup w')]
  exact answer_denied_eq h _ htick

/-- A world in which a path is bound. -/
def World.bindingOnly (t : TenantId) (ns path : String) : World :=
  World.empty.set (.namespaceCurrent t ns)
    (some ⟨ns, 1, .insert ∅ path ⟨path, none, some "", 1, "", ∅, false⟩⟩)

/-- **A read by path tells everyone whether the path is bound.** -/
theorem readBy_reveals (env : Env) (operation : OperationName) (f : SelectorResolution → Svc α)
    (hkind : selector.kind = .namespace)
    (hcanon : canonicalNamespaceAndPath (selector.ns.getD "") (selector.path.getD "") =
      .ok (ns, path)) (h : ¬ Entitles auth t selector.target) :
    ∃ e e', e ≠ e' ∧
      (runE (exec env) (readBy env auth operation t selector f) World.empty).1 = .error e ∧
      (runE (exec env) (readBy env auth operation t selector f)
        (World.bindingOnly t ns path)).1 = .error e' := by
  have hbound : (World.bindingOnly t ns path).binding t ns path =
      some ⟨path, none, some "", 1, "", ∅, false⟩ := by
    simp [World.binding, World.current, World.bindingOnly]
  have hlookup := runE_selectorResolution_some env hkind hcanon hbound rfl rfl
  let resolution : SelectorResolution :=
    ⟨"", some (selector.ns.getD ""), some (selector.path.getD ""), some 1, some ""⟩
  have hreq : ¬ Entitles auth t (resolution.ns, resolution.path) := by
    rwa [ObjectSelector.target, hkind] at h
  obtain ⟨reason, -, hdenied⟩ := answer_denied env auth (readMeta operation t resolution)
    hreq (fun _ => f resolution) (World.bindingOnly t ns path)
  refine ⟨⟨.notFound, "path_not_bound", "namespace path is not bound"⟩, denialToApiError reason,
    ?_, ?_, ?_⟩
  · cases reason <;> decide
  · rw [readBy, runE_bind_error _ (runE_selectorResolution_none hkind hcanon rfl)]
  · rw [readBy, runE_bind_ok _ hlookup]
    exact hdenied

variable {c : Call} {check : Except ApiError Unit} {reply : α → Reply}

/-- A read that is checked, resolved and authorized in this order. -/
theorem silent_readBy (hhandle : c.handle env =
      reply <$> (ofExcept check >>= fun _ => readBy env auth operation c.tenantId selector f))
    (hentitled : ∀ w, c.Entitled w ↔ Entitles auth c.tenantId selector.target)
    (h : ¬ Entitles auth c.tenantId selector.target) :
    c.Silent env ↔ check ≠ .ok () ∨ selector.kind = .cid ∨
      ∃ e, canonicalNamespaceAndPath (selector.ns.getD "") (selector.path.getD "") = .error e := by
  simp only [Call.Silent, Call.perform, hhandle, runE_map, hentitled]
  cases check with
  | error e => simp [Prog.runE_bind]
  | ok _ =>
    simp only [Prog.runE_bind, runE_ofExcept, ne_eq, not_true_eq_false, false_or]
    constructor
    · intro hsilent
      by_contra hnot
      push Not at hnot
      have hkind : selector.kind = .namespace := by
        cases hk : selector.kind with
        | cid => exact absurd hk hnot.1
        | «namespace» => rfl
      rcases hcanon : canonicalNamespaceAndPath (selector.ns.getD "") (selector.path.getD "") with
        e | ⟨ns, path⟩
      · exact hnot.2 e hcanon
      obtain ⟨e, e', hne, he, he'⟩ := readBy_reveals env operation f hkind hcanon h
      have hsame : SameApart c.tenantId World.empty (World.bindingOnly c.tenantId ns path) :=
        .set (l := .namespaceCurrent c.tenantId ns) rfl rfl _ _
      have heq := hsilent _ _ hsame h h
      rw [he, he'] at heq
      exact hne (Except.error.inj heq)
    · rintro (hkind | ⟨e, hcanon⟩) w w' hw - -
      · rw [readBy_cid hkind h hw.tick]
      · cases hkind : selector.kind with
        | cid => rw [readBy_cid hkind h hw.tick]
        | «namespace» =>
          have hlookup (w : World) :
              runE (exec env) (selectorResolution c.tenantId selector) w = (.error e, w) := by
            simp [selectorResolution, hkind, Prog.runE_bind, runE_resolveSnapshot, hcanon]
          rw [readBy, runE_bind_error _ (hlookup w), runE_bind_error _ (hlookup w')]

end Selector

/-! ### Which requests are silent -/

section Silent

variable (env : Env) (auth : AuthContext) {w₀ : World}

theorem silent_get (request : GetRequest) (h : ¬ (Call.get auth request).Entitled w₀) :
    (Call.get auth request).Silent env ↔ (Call.get auth request).Discreet env := by
  have hchecks : (do request.selector.validate; validateRange request.range) ≠ .ok () ↔
      validateRange request.range ≠ .ok () ∨ request.selector.validate ≠ .ok () := by
    cases request.selector.validate with
    | error e => simp
    | ok _ => simp
  have hhandle : (Call.get auth request).handle env = .get <$> (ofExcept (do
        request.selector.validate
        validateRange request.range) >>= fun _ =>
      readBy env auth .get request.tenantId request.selector fun resolution => do
        let record ← manifestRecord request.tenantId resolution.manifestCid
        getObject request resolution record) := by
    rw [Call.handle, Hsp.get]
    cases request.selector.validate <;> rfl
  rw [silent_readBy hhandle (fun _ => Iff.rfl) h, hchecks, or_assoc]
  rfl

/-- A manifest with nothing in it. -/
def Manifest.blank : Manifest where
  version := 0
  tenantId := ⟨""⟩
  logicalSize := 0
  storedSize := 0
  chunker := ""
  chunkRefs := []
  contentType := ""
  createdAtMs := 0
  encryptionDescriptor := ⟨⟨""⟩, ⟨""⟩, "", "", .split, [], ∅, ∅⟩
  fits := by decide +kernel

/-- A world in which a session exists and is committed. -/
def World.sessionOnly (t : TenantId) (sessionId manifestCid : String) : World :=
  World.empty.set (.sessions t sessionId)
    (some ⟨sessionId, t, .blank, manifestCid, "", "", none, [], true, 0, 0⟩)

theorem World.sessionOnly_same (t : TenantId) (sessionId manifestCid : String) :
    SameApart t World.empty (World.sessionOnly t sessionId manifestCid) :=
  .set (l := .sessions t sessionId) rfl rfl _ _

theorem World.sessionOnly_store (t : TenantId) (sessionId manifestCid : String) :
    (World.sessionOnly t sessionId manifestCid).store (.sessions t sessionId) =
      some ⟨sessionId, t, .blank, manifestCid, "", "", none, [], true, 0, 0⟩ :=
  set_store_self ..

/-- A chunk with the right content identifier tells everyone whether the session exists. -/
theorem silent_putChunk (request : PutChunkRequest) (ciphertextChunk : List UInt8)
    (h : ¬ (Call.putChunk auth request ciphertextChunk).Entitled w₀) :
    (Call.putChunk auth request ciphertextChunk).Silent env ↔
      (Call.putChunk auth request ciphertextChunk).Discreet env := by
  constructor
  · intro hsilent
    by_contra hnot
    have hcid : ¬ cidFromBytes env ciphertextChunk ≠ request.chunkCid := hnot
    have hanswer := hsilent _ _
      (sessionOnly_same request.tenantId request.sessionId request.chunkCid) h h
    simp only [Call.perform, Call.handle, runE_map, Hsp.putChunk,
      runE_bind_ok _ (runE_rejectIf_of_not env _ hcid _)] at hanswer
    rw [runE_bind_error _ (runE_uploadSession_none rfl),
      runE_bind_ok _ (runE_uploadSession_some (sessionOnly_store ..))] at hanswer
    simp [checkChunk, Prog.runE_bind, Except.map] at hanswer
  · intro hmismatch w w' _ _ _
    have hcid : cidFromBytes env ciphertextChunk ≠ request.chunkCid := hmismatch
    simp only [Call.perform, Call.handle, runE_map, Hsp.putChunk,
      runE_bind_error _ (runE_rejectIf_of env _ hcid _)]

/-- A commit tells everyone whether the session exists. -/
theorem not_silent_putCommit (request : PutCommitRequest)
    (h : ¬ (Call.putCommit auth request).Entitled w₀) :
    ¬ (Call.putCommit auth request).Silent env := by
  intro hsilent
  have hnone : ¬ Entitles auth request.tenantId (none, none) := fun hnone => h hnone.of_none
  let other := request.manifestCid ++ "?"
  have hentitled : ¬ (Call.putCommit auth request).Entitled
      (World.sessionOnly request.tenantId request.sessionId other) := by
    rwa [Call.Entitled, Call.names, sessionOnly_store]
  have hanswer := hsilent _ _ (sessionOnly_same request.tenantId request.sessionId other)
    hnone hentitled
  have hother : other ≠ request.manifestCid := by
    simp [other]
  simp only [Call.perform, Call.handle, runE_map, Hsp.putCommit] at hanswer
  rw [runE_bind_error _ (runE_uploadSession_none rfl),
    runE_bind_ok _ (runE_uploadSession_some (sessionOnly_store ..)), putCommitWith,
    runE_bind_error _ (runE_rejectIf_of env _ hother _)] at hanswer
  simp [Except.map] at hanswer

theorem silent_resolve (request : ResolveRequest) (h : ¬ (Call.resolve auth request).Entitled w₀) :
    (Call.resolve auth request).Silent env := by
  intro w w' hw _ _
  simp only [Call.perform, Call.handle, runE_map, Hsp.resolve]
  simp only [Call.Entitled, Call.names] at h
  rcases hcanon : canonicalNamespaceAndPath request.ns request.path with e | ⟨ns, path⟩
  · simp only [Prog.runE_bind, runE_ofExcept]
  · rw [hcanon] at h
    rw [runE_ofExcept_bind, runE_ofExcept_bind, answer_denied_eq h _ hw.tick]

theorem silent_list (request : ListRequest) (h : ¬ (Call.list auth request).Entitled w₀) :
    (Call.list auth request).Silent env := by
  intro w w' hw _ _
  simp only [Call.perform, Call.handle, runE_map, Hsp.list]
  simp only [Call.Entitled, Call.names] at h
  rcases htarget : canonicalListTarget request with e | ⟨ns, pathPrefix⟩
  · simp only [Prog.runE_bind, runE_ofExcept]
  · rw [htarget] at h
    rw [runE_ofExcept_bind, runE_ofExcept_bind, answer_denied_eq h _ hw.tick]

/-- **Which requests reveal nothing to callers who are not entitled to their target**: those that
are rejected or authorized before anything is looked up. -/
theorem silent_iff {c : Call} (hc : c.LooksUp) (h : ¬ c.Entitled w₀) :
    c.Silent env ↔ c.Discreet env := by
  cases c with
  | head auth request => exact silent_readBy rfl (fun _ => Iff.rfl) h
  | get auth request => exact silent_get env auth request h
  | putChunk auth request ciphertextChunk =>
    exact silent_putChunk env auth request ciphertextChunk h
  | putCommit auth request => exact iff_of_false (not_silent_putCommit env auth request h) id
  | resolve auth request => exact iff_of_true (silent_resolve env auth request h) trivial
  | list auth request => exact iff_of_true (silent_list env auth request h) trivial
  | _ => exact hc.elim

end Silent

namespace Sample

/-- A caller with the claims of another tenant. -/
def stranger : AuthContext :=
  { auth "9" with claims := { (auth "9").claims with tenantId := ⟨"u"⟩ } }

/-- The stranger asks about the path. -/
def strangerHead : Call := .head stranger ⟨tenant, ⟨.namespace, none, some "n", some "p"⟩⟩

/-- The stranger learns whether the path is bound. -/
theorem head_reveals_binding :
    (∀ w, ¬ strangerHead.Entitled w) ∧
      SameApart tenant World.empty (World.bindingOnly tenant "n" "p") ∧
      (strangerHead.perform (Sample.env []) World.empty).1 =
        .error ⟨.notFound, "path_not_bound", "namespace path is not bound"⟩ ∧
      (strangerHead.perform (Sample.env []) (World.bindingOnly tenant "n" "p")).1 =
        .error ⟨.auth, "tenant_mismatch", "tenant mismatch"⟩ := by
  refine ⟨fun w h => ?_, .set (l := .namespaceCurrent tenant "n") rfl rfl _ _, ?_, ?_⟩
  · exact absurd h.tenant (by decide)
  · decide +kernel
  · decide +kernel

/-- The stranger asks for what the path resolves to. -/
def strangerResolve : Call := .resolve stranger ⟨tenant, "n", "p", none, none⟩

/-- The stranger learns nothing from a denied `RESOLVE`. -/
theorem strangerResolve_silent : strangerResolve.Silent (Sample.env []) := by
  have hnot : ¬ strangerResolve.Entitled World.empty := by
    intro h
    exact absurd h.tenant (by decide)
  exact (silent_iff (Sample.env []) (c := strangerResolve) trivial hnot).2 trivial

end Sample

end Hsp
