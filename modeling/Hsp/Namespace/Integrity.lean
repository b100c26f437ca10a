import Hsp.Namespace.Refinement
import Hsp.Sample.Basic

/-!
# Bindings and manifests

A namespace is *intact* when every path that is bound is bound to a manifest the store has.  A bind
looks the manifest up before it takes a revision, and nothing but the rollback of a commit deletes
manifests.  So calls keep namespaces intact as long as no rollback deletes a manifest that a path
is bound to (`KeepsTargets`).
-/

namespace Hsp

open World Except

variable {env : Env} {w w₀ : World} {G : Op → World → Prop} {α : Type} {selector : ObjectSelector}

/-- A path of the tenant is bound to the manifest. -/
def Targets (w : World) (t : TenantId) (cid : String) : Prop :=
  ∃ n p b, w.binding t n p = some b ∧ b.tombstone = false ∧ b.targetCid = some cid

/-- Every path that is bound is bound to a manifest of its tenant. -/
def Intact (w : World) : Prop :=
  ∀ t n p b, w.binding t n p = some b → b.tombstone = false →
    ∃ cid, b.targetCid = some cid ∧ b.manifestCid = some cid ∧
      (w.store (.manifests t cid)).isSome

/-- The operation does not delete a manifest that a path is bound to. -/
def KeepsTargets : Op → World → Prop
  | .delete (.manifests t cid), w => ¬ Targets w t cid
  | _, _ => True

/-- The manifest a call is about to bind is there. -/
def Found : Stage env → World → Prop
  | .located t cid, w => (w.store (.manifests t cid)).isSome
  | .looked m _, w | .numbered m _ _, w | .claimed m _ _, w =>
    m.record.kind = .bind → ∃ cid, m.record.targetCid = some cid ∧
      (w.store (.manifests m.record.tenantId cid)).isSome
  | _, _ => True

/-! ### Operations -/

/-- An operation that leaves the current states alone. -/
theorem Intact.exec {o : Op} (h : Intact w)
    (hcur : ∀ t n, (exec env o w).2.current t n = w.current t n) (hG : KeepsTargets o w) :
    Intact (exec env o w).2 := by
  intro t n p b hb hlive
  rw [World.binding, hcur] at hb
  obtain ⟨cid, hcid, hm, hsome⟩ := h t n p b hb hlive
  refine ⟨cid, hcid, hm, isSome_exec hsome ?_⟩
  rintro rfl
  exact hG ⟨n, p, b, hb, hlive, hcid⟩

/-- What is bound when a mutation has been applied was bound before, or is what it binds. -/
theorem Intact.apply {w' : World} {m : Mutation env} (h : Intact w)
    (hbefore : ∀ t n p, w.binding t n p = w₀.binding t n p)
    (hafter : SameNamespaces (w₀.apply m) w')
    (hmanifests : ∀ t cid, (w.store (.manifests t cid)).isSome →
      (w'.store (.manifests t cid)).isSome)
    (hfound : m.record.kind = .bind → ∃ cid, m.record.targetCid = some cid ∧
      (w.store (.manifests m.record.tenantId cid)).isSome) : Intact w' := by
  intro t n p b hb hlive
  rw [hafter.binding, apply_binding] at hb
  split at hb
  · rename_i hk
    obtain ⟨rfl, rfl, rfl⟩ := hk
    have hkind : m.record.kind = .bind := by
      rw [← m.isLive_effect (w₀.revisionFor m), hb]
      exact hlive
    obtain ⟨cid, hcid, hsome⟩ := hfound hkind
    simp only [Mutation.effect, hkind, Option.some.injEq] at hb
    subst hb
    exact ⟨cid, hcid, hcid, hmanifests _ _ hsome⟩
  · rw [← hbefore] at hb
    obtain ⟨cid, hcid, hm, hsome⟩ := h t n p b hb hlive
    exact ⟨cid, hcid, hm, hmanifests _ _ hsome⟩

theorem World.claim_binding (w : World) (m : Mutation env) (t : TenantId) (n p : String) :
    (w.claim m).binding t n p = w.binding t n p := by
  rw [World.binding, World.claim, set_current_of_ne (by simp), World.binding]

/-- **A step of the protocol keeps namespaces intact.** -/
theorem Intact.next {s s' : Stage env} {o : Op} (h : Intact w) (hf : Found s w)
    (hat : NamespacesAt w₀ s w) (hG : KeepsTargets o w) (hn : s.Next o (Hsp.exec env o w).1 s') :
    Intact (Hsp.exec env o w).2 ∧ Found s' (Hsp.exec env o w).2 := by
  have hat' := hat.next hn
  generalize hr : (Hsp.exec env o w).1 = r at hn
  cases hn with
  | plain ho =>
    exact ⟨h.exec (fun t n => (SameNamespaces.exec_plain env (.refl w) ho).current t n) hG, trivial⟩
  | @locate t cid v =>
    have hv : w.store (.manifests t cid) = some v := ok.inj hr
    exact ⟨h, Option.isSome_iff_exists.2 ⟨v, hv⟩⟩
  | refuse => exact ⟨h, trivial⟩
  | lookBind hcid => exact ⟨h, fun _ => ⟨_, hcid, hf⟩⟩
  -- An unbind needs no manifest.
  | lookUnbind hkind => exact ⟨h, fun hk => absurd hk hkind⟩
  | number => exact ⟨h, hf⟩
  | claim =>
    refine ⟨h.exec (fun t n => set_current_of_ne (by simp)) hG, fun hk => ?_⟩
    obtain ⟨cid, hcid, hsome⟩ := hf hk
    exact ⟨cid, hcid, isSome_exec hsome (by simp)⟩
  | @apply m c r =>
    refine ⟨h.apply (fun t n p => ?_) hat'.1 (fun t cid hsome => ?_) hf, trivial⟩
    · rw [hat.1.binding, claim_binding]
    · exact isSome_exec hsome (by simp)
  | fetch => exact ⟨h, trivial⟩
  | append => exact ⟨h.exec (fun t n => set_current_of_ne (by simp)) hG, trivial⟩
  | sequence => exact ⟨h, trivial⟩
  | advance => exact ⟨h.exec (fun t n => set_current_of_ne (by simp)) hG, trivial⟩
  | emit => exact ⟨h.exec (fun t n => set_current_of_ne (by simp)) hG, trivial⟩
  | cleanUp ho =>
    exact ⟨h.exec (fun t n => (SameNamespaces.exec_plain env (.refl w) ho).current t n) hG, trivial⟩

/-! ### Calls and runs -/

/-- The operations of a run meet a guard. -/
def RunAlways (env : Env) (G : Op → World → Prop) : List Call → World → Prop
  | [], _ => True
  | c :: calls, w =>
    Prog.Always (exec env) G (c.handle env).run w ∧ RunAlways env G calls (c.perform env w).2

instance (G : Op → World → Prop) [∀ o w, Decidable (G o w)] :
    (calls : List Call) → (w : World) → Decidable (RunAlways env G calls w)
  | [], _ => .isTrue trivial
  | c :: calls, w =>
    have := instDecidableRunAlways G calls (c.perform env w).2
    inferInstanceAs (Decidable (_ ∧ _))

theorem RunAlways.mono {G' : Op → World → Prop} (hGG : ∀ o w, G o w → G' o w) {calls : List Call}
    (h : RunAlways env G calls w) : RunAlways env G' calls w := by
  induction calls generalizing w with
  | nil => trivial
  | cons c calls ih => exact ⟨h.1.mono hGG, ih h.2⟩

theorem Intact.perform (h : Intact w) {c : Call}
    (hG : Prog.Always (Hsp.exec env) KeepsTargets (c.handle env).run w) :
    Intact (c.perform env w).2 := by
  have hrun := c.run_invariant env (I := fun s w => Intact w ∧ Found s w) ⟨h, trivial⟩
    (fun _ _ _ _ _ hat hI hG hn => hI.1.next hI.2 hat hG hn) hG
  rcases hrun with ⟨-, h, -⟩ | ⟨-, -, -, h, -⟩
  · exact h
  · exact h

theorem Intact.run {calls : List Call} (h : Intact w) (hG : RunAlways env KeepsTargets calls w) :
    Intact (runCalls env calls w) := by
  induction calls generalizing w with
  | nil => exact h
  | cons c calls ih => exact ih (h.perform hG.1) hG.2

theorem RunAlways.of_append {xs ys : List Call} (h : RunAlways env G (xs ++ ys) w) :
    RunAlways env G xs w := by
  induction xs generalizing w with
  | nil => trivial
  | cons c xs ih => exact ⟨h.1, ih h.2⟩

theorem intact_empty : Intact World.empty := by
  intro t n p b hb
  simp [World.binding, World.current, World.empty, NamespaceCurrentState.initial] at hb

/-! ### Reads of a bound path -/

theorem runE_resolveSnapshot (t : TenantId) (ns path : String) (w : World) :
    runE (Hsp.exec env) (resolveSnapshot t ns path none none) w =
      ((do
        let (ns, path) ← canonicalNamespaceAndPath ns path
        resolveBinding (w.current t ns) path none), w) := by
  rw [resolveSnapshot, Prog.runE_bind, runE_ofExcept]
  cases canonicalNamespaceAndPath ns path with
  | error e => rfl
  | ok np => rfl

theorem canonicalNamespaceAndPath_error {ns path : String} {e : ApiError}
    (h : canonicalNamespaceAndPath ns path = .error e) :
    e.code = "invalid_namespace" ∨ e.code = "invalid_path" := by
  unfold canonicalNamespaceAndPath at h
  split at h
  · left; rw [← error.inj h]
  · split at h
    · right; rw [← error.inj h]
    · cases h

/-- A bound path resolves to a manifest the store has, and a path that does not resolve is not
reported as a missing manifest. -/
theorem Intact.selectorResolution (env : Env) {w : World} (h : Intact w) (t : TenantId)
    {selector : ObjectSelector} (hkind : selector.kind = .namespace) :
    (runE (Hsp.exec env) (selectorResolution t selector) w).2 = w ∧
      match (runE (Hsp.exec env) (selectorResolution t selector) w).1 with
      | .error e => e.code ≠ "manifest_not_found"
      | .ok resolution => (w.store (.manifests t resolution.manifestCid)).isSome := by
  simp only [Hsp.selectorResolution, hkind, Prog.runE_bind, runE_resolveSnapshot]
  cases hcanon : canonicalNamespaceAndPath (selector.ns.getD "") (selector.path.getD "") with
  | error e =>
    refine ⟨rfl, ?_⟩
    rcases canonicalNamespaceAndPath_error hcanon with hc | hc <;> simp [hc]
  | ok np =>
    obtain ⟨ns, path⟩ := np
    cases hb : w.binding t ns path with
    | none =>
      have hb' : (w.current t ns).bindings[path]? = none := hb
      simp [resolveBinding, hb']
    | some b =>
      have hb' : (w.current t ns).bindings[path]? = some b := hb
      cases hlive : b.tombstone with
      | true => simp [resolveBinding, hb', hlive]
      | false =>
        obtain ⟨cid, -, hm, hsome⟩ := h t ns path b hb hlive
        simpa [resolveBinding, hb', hlive, hm] using hsome

/-- The manifest is there when a read looks it up, and what the read does with it does not report
a missing manifest. -/
theorem read_of_manifest {t : TenantId} {auth : AuthContext} {req : AuthRequestMeta} {cid : String}
    (hsome : (w.store (.manifests t cid)).isSome) {f : ManifestRecord → Svc α}
    (hf : ∀ record, Aside Loc.isData (fun e => e.code ≠ "manifest_not_found") (f record)) :
    ∀ e, (runE (exec env) (do
        let _ ← authorize env auth req
        let record ← manifestRecord t cid
        f record) w).1 = .error e → e.code ≠ "manifest_not_found" := by
  intro e he
  obtain ⟨result, w', hrun, hsame, herr⟩ := runE_authorize env auth req w
  rw [Prog.runE_bind, hrun] at he
  cases result with
  | error e' =>
    obtain rfl := error.inj he
    rcases herr e' rfl with ⟨reason, rfl⟩ | rfl
    · cases reason <;> decide
    · decide
  | ok decision =>
    obtain ⟨record, hrecord⟩ := Option.isSome_iff_exists.1 hsome
    rw [← hsame (.manifests t cid) rfl] at hrecord
    simp only at he
    rw [runE_bind_ok _ (runE_manifestRecord_some hrecord)] at he
    exact ((hf record).run env w').2 e he

/-- The common course of `HEAD` and `GET`, for a selector that names a path. -/
theorem Intact.read (h : Intact w) {t : TenantId} (hkind : selector.kind = .namespace)
    {auth : AuthContext} {req : SelectorResolution → AuthRequestMeta}
    {f : SelectorResolution → ManifestRecord → Svc α}
    (hf : ∀ resolution record,
      Aside Loc.isData (fun e => e.code ≠ "manifest_not_found") (f resolution record)) :
    ∀ e, (runE (Hsp.exec env) (do
        let resolution ← Hsp.selectorResolution t selector
        let _ ← authorize env auth (req resolution)
        let record ← manifestRecord t resolution.manifestCid
        f resolution record) w).1 = .error e → e.code ≠ "manifest_not_found" := by
  intro e he
  obtain ⟨hw, hres⟩ := h.selectorResolution env t hkind
  rcases hrun : runE (Hsp.exec env) (Hsp.selectorResolution t selector) w with ⟨result, w'⟩
  rw [hrun] at hw hres
  obtain rfl : w' = w := hw
  rw [Prog.runE_bind, hrun] at he
  cases result with
  | error e' => exact error.inj he ▸ hres
  | ok resolution => exact read_of_manifest hres (hf resolution) e he

theorem error_of_validate {x : Except ApiError Unit} {f : Svc α}
    (hx : ∀ e, x = .error e → e.code ≠ "manifest_not_found")
    (hf : ∀ e, (runE (exec env) f w).1 = .error e → e.code ≠ "manifest_not_found") :
    ∀ e, (runE (exec env) (ofExcept x >>= fun _ => f) w).1 = .error e →
      e.code ≠ "manifest_not_found" := by
  intro e he
  rw [Prog.runE_bind, runE_ofExcept] at he
  cases x with
  | error e' => exact error.inj he ▸ hx e' rfl
  | ok _ => exact hf e he

theorem selector_validate_error (e : ApiError) (h : selector.validate = .error e) :
    e.code ≠ "manifest_not_found" := by
  unfold ObjectSelector.validate at h
  split at h <;> split at h <;> cases h <;> simp

theorem range_validate_error {range : Option RangeSpec} (e : ApiError)
    (h : validateRange range = .error e) : e.code ≠ "manifest_not_found" := by
  unfold validateRange RangeSpec.validate at h
  split at h
  · split at h <;> cases h
    simp
  · cases h

/-- The call reads the object a path is bound to. -/
def Call.ReadsPath : Call → Prop
  | .head _ request => request.selector.kind = .namespace
  | .get _ request => request.selector.kind = .namespace
  | _ => False

theorem Intact.readsPath (h : Intact w) {c : Call} (hc : c.ReadsPath) :
    ∀ e, (c.perform env w).1 = .error e → e.code ≠ "manifest_not_found" := by
  have hmap {α β : Type} {f : α → β} {result : Except ApiError α} {e : ApiError}
      (he : result.map f = .error e) : result = .error e := by
    cases result with
    | ok a => cases he
    | error e' => exact congrArg _ (error.inj he)
  intro e he
  cases c with
  | head auth request =>
    rw [Call.perform, Call.handle, runE_map] at he
    exact error_of_validate selector_validate_error (h.read hc fun _ _ => .pure _) e (hmap he)
  | get auth request =>
    rw [Call.perform, Call.handle, runE_map] at he
    exact error_of_validate selector_validate_error
      (error_of_validate range_validate_error
        (h.read hc fun _ _ => Inquiry.aside env (.getObject _ _ _))) e (hmap he)
  | _ => exact hc.elim

/-- **Referential integrity of namespaces.**  In a run in which no rollback of a commit deletes a
manifest that a path is bound to, every bound path has its manifest in every state the run goes
through, and reads of a path do not report a missing manifest. -/
theorem referential_integrity {calls : List Call}
    (hG : RunAlways env KeepsTargets calls World.empty) {before : List Call}
    (hbefore : before <+: calls) :
    let w := runCalls env before World.empty
    Intact w ∧ ∀ c : Call, c.ReadsPath → ∀ e, (c.perform env w).1 = .error e →
      e.code ≠ "manifest_not_found" := by
  intro w
  obtain ⟨after, rfl⟩ := hbefore
  have h : Intact w := intact_empty.run hG.of_append
  exact ⟨h, fun c hc => h.readsPath hc⟩

namespace Sample

/-- The object is uploaded and bound by its commit. -/
def commitBound : List Call :=
  [putInit "1" manifest (some (atomicBind 0)), putChunk "2" manifest, putCommit "3" manifest]

/-- The object is announced and committed a second time; the path is bound already. -/
def commitTwice : List Call :=
  commitBound ++ [putInit "4" manifest (some (atomicBind 0)), putCommit "5" manifest]

/-- A read of the path. -/
def headPath : Call := .head (auth "6") ⟨tenant, ⟨.namespace, none, some "n", some "p"⟩⟩

/-- The second commit fails and takes the manifest of the first one with it: the path is bound to
a manifest the store does not have. -/
theorem commitTwice_dangles :
    let w := runCalls (Sample.env [bindRecord]) commitTwice World.empty
    (w.binding tenant "n" "p").map (fun b => (b.tombstone, b.targetCid)) =
        some (false, some manifestCid) ∧
      w.store (.manifests tenant manifestCid) = none ∧
      (headPath.perform (Sample.env [bindRecord]) w).1 =
        .error ⟨.notFound, "manifest_not_found", "manifest not found"⟩ := by
  decide +kernel

/-- Whether an operation deletes an entry. -/
def deletes : Op → Bool
  | .delete _ => true
  | _ => false

theorem keepsTargets_of_not_deletes (o : Op) (w : World) (h : deletes o = false) :
    KeepsTargets o w := by
  cases o <;> trivial

theorem commitBound_intact :
    RunAlways (Sample.env [bindRecord]) KeepsTargets commitBound World.empty ∧
      Intact (runCalls (Sample.env [bindRecord]) commitBound World.empty) := by
  have hG : RunAlways (Sample.env [bindRecord]) KeepsTargets commitBound World.empty :=
    RunAlways.mono (G := fun o _ => deletes o = false) keepsTargets_of_not_deletes
      (by decide +kernel)
  exact ⟨hG, (referential_integrity hG (List.prefix_refl _)).1⟩

end Sample

end Hsp
