import Hsp.Object.Entries

/-!
# The metadata of an object

A manifest determines what `HEAD` says about its object, except for the storage class.  The storage
class is not part of the manifest: `PUT_INIT` puts it into the session, and every commit of the
session writes it into the record of the manifest.

* `head_ok` : what a `HEAD` that succeeds has read;
* `Classed` : storage classes of sessions and manifest records were announced by a `PUT_INIT`;
* `metadata_immutable` : along a run the metadata of an object never change, up to the storage
  class, and not at all if one storage class was announced.
-/

namespace Hsp

variable {env : Env}

/-! ### HEAD -/

/-- **What a `HEAD` that succeeds has read**: the record of the manifest its selector resolves
to. -/
theorem head_ok {w w' : World} {auth : AuthContext} {request : HeadRequest}
    {response : HeadResponse}
    (h : runE (exec env) (head env auth request) w = (.ok response, w')) :
    ∃ resolution record,
      runE (exec env) (selectorResolution request.tenantId request.selector) w =
        (.ok resolution, w) ∧
      w.store (.manifests request.tenantId resolution.manifestCid) = some record ∧
      response = objectMeta resolution record := by
  obtain ⟨_, _, hselector, h⟩ := runE_bind_eq_ok _ h
  obtain rfl : w = _ := congrArg Prod.snd hselector
  obtain ⟨resolution, _, hresolution, h⟩ := runE_bind_eq_ok _ h
  obtain rfl := (selectorResolution_ok hresolution).1
  obtain ⟨decision, w₁, hauth, h⟩ := runE_bind_eq_ok _ h
  have hsame := sameOn_of_authorize hauth
  cases hrecord : w₁.store (.manifests request.tenantId resolution.manifestCid) with
  | none =>
    rw [runE_bind_error _ (runE_manifestRecord_none hrecord)] at h
    cases h
  | some record =>
    rw [runE_bind_ok _ (runE_manifestRecord_some hrecord)] at h
    cases h
    exact ⟨resolution, record, hresolution, (hsame _ rfl).symm.trans hrecord, rfl⟩

theorem head_ok_of_cid {w w' : World} {auth : AuthContext} {request : HeadRequest}
    {response : HeadResponse} (hkind : request.selector.kind = .cid)
    (h : runE (exec env) (head env auth request) w = (.ok response, w')) :
    ∃ record, w.store (.manifests request.tenantId (request.selector.cid.getD "")) = some record ∧
      response = objectMeta ⟨request.selector.cid.getD "", none, none, none, none⟩ record := by
  obtain ⟨resolution, record, hresolution, hrecord, rfl⟩ := head_ok h
  rw [selectorResolution, hkind] at hresolution
  cases hresolution
  exact ⟨record, hrecord, rfl⟩

/-! ### Storage classes -/

/-- The storage classes of sessions and manifest records are allowed for their manifests. -/
structure Classed (P : TenantId → String → String → Prop) (w : World) : Prop where
  session : ∀ t id session, w.store (.sessions t id) = some session →
    P t session.manifestCid session.storageClass
  manifest : ∀ t cid record, w.store (.manifests t cid) = some record → P t cid record.storageClass

/-- The call announces an object with a storage class. -/
def Call.Announces (env : Env) (t : TenantId) (cid storageClass : String) : Call → Prop
  | .putInit _ request => request.tenantId = t ∧ request.manifest.manifestCid env = cid ∧
      request.storageClass = storageClass
  | _ => False

/-- The entry has a storage class with a property. -/
def EntryClassed (P : TenantId → String → String → Prop) : (l : Loc) → Val l → Prop
  | .sessions t _, session => P t session.manifestCid session.storageClass
  | .manifests t cid, record => P t cid record.storageClass
  | _, _ => True

theorem Classed.perform {P : TenantId → String → String → Prop} {w : World} (h : Classed P w)
    (c : Call) (hc : ∀ t cid storageClass, c.Announces env t cid storageClass →
      P t cid storageClass) : Classed P (c.perform env w).2 := by
  have hperform : Entries (EntryClassed P) (c.perform env w).2 := by
    refine Entries.perform ⟨fun l hl v => ?_, fun _ _ _ _ hs => hs, fun _ _ _ hs => hs,
      fun _ _ _ _ hs => hs⟩ (fun l v hv => ?_) ?_
    · cases l <;> trivial
    · cases l <;> first | trivial | exact h.session _ _ v hv | exact h.manifest _ _ v hv
    · rintro auth request rfl createdAtMs base
      exact hc _ _ _ ⟨rfl, rfl, rfl⟩
  exact ⟨fun t id => hperform (.sessions t id), fun t cid => hperform (.manifests t cid)⟩

/-- **Storage classes are announced**: a run leaves no other ones in the store. -/
theorem classed_run (env : Env) (calls : List Call) :
    Classed (fun t cid storageClass => ∃ c ∈ calls, c.Announces env t cid storageClass)
      (runCalls env calls World.empty) := by
  have hpre (before after : List Call) (h : before ++ after = calls) :
      Classed (fun t cid storageClass => ∃ c ∈ calls, c.Announces env t cid storageClass)
        (runCalls env before World.empty) := by
    induction before using List.reverseRecOn generalizing after with
    | nil => exact ⟨nofun, nofun⟩
    | append_singleton before c ih =>
      rw [runCalls_append]
      refine (ih ([c] ++ after) (by simpa using h)).perform c fun t cid storageClass hc => ?_
      exact ⟨c, by simp [← h], hc⟩
  exact hpre calls [] (List.append_nil _)

/-! ### Metadata along a run -/

theorem recordsNamed_run (env : Env) (calls : List Call) :
    RecordsNamed (runCalls env calls World.empty) := by
  induction calls using List.reverseRecOn with
  | nil => exact .empty
  | append_singleton calls c ih =>
    rw [runCalls_append]
    exact ih.perform c

/-- The records of a manifest at two points of a run differ in the storage class at most, as far as
`HEAD` and `GET` tell. -/
theorem objectMeta_of_runs {calls calls' : List Call} {t : TenantId} {cid : String}
    {record record' : ManifestRecord}
    (h : (runCalls env calls World.empty).store (.manifests t cid) = some record)
    (h' : (runCalls env calls' World.empty).store (.manifests t cid) = some record')
    (resolution : SelectorResolution) :
    objectMeta resolution record' =
      { objectMeta resolution record with storageClass := record'.storageClass } := by
  have hmanifest : record'.manifest = record.manifest :=
    manifestCid_inj (((consistent_run env calls').manifest t cid record' h').trans
      ((consistent_run env calls).manifest t cid record h).symm)
  obtain ⟨hobject, hcid⟩ := recordsNamed_run env calls t cid record h
  obtain ⟨hobject', hcid'⟩ := recordsNamed_run env calls' t cid record' h'
  rw [objectMeta, objectMeta, hmanifest, hobject, hcid, hobject', hcid']

/-- **The metadata of an object never change**, up to the storage class, and not at all if only one
storage class was announced for it. -/
theorem metadata_immutable (env : Env) (before between : List Call) {auth auth' : AuthContext}
    {request request' : HeadRequest} (htenant : request'.tenantId = request.tenantId)
    (hkind : request.selector.kind = .cid) (hkind' : request'.selector.kind = .cid)
    (hcid : request'.selector.cid = request.selector.cid) {response response' : HeadResponse}
    (h : (Prog.runE (exec env) (head env auth request)
      (runCalls env before World.empty)).1 = .ok response)
    (h' : (Prog.runE (exec env) (head env auth' request')
      (runCalls env (before ++ between) World.empty)).1 = .ok response') :
    response' = { response with storageClass := response'.storageClass } ∧
      ((∀ c ∈ before ++ between, ∀ c' ∈ before ++ between, ∀ storageClass storageClass',
          c.Announces env request.tenantId (request.selector.cid.getD "") storageClass →
          c'.Announces env request.tenantId (request.selector.cid.getD "") storageClass' →
            storageClass = storageClass') →
        response' = response) := by
  obtain ⟨record, hrecord, rfl⟩ := head_ok_of_cid hkind (Prod.ext h rfl)
  obtain ⟨record', hrecord', hresponse'⟩ := head_ok_of_cid hkind' (Prod.ext h' rfl)
  rw [htenant, hcid] at hrecord'
  rw [hcid] at hresponse'
  subst hresponse'
  have hmeta := objectMeta_of_runs hrecord hrecord' ⟨request.selector.cid.getD "", none, none, none,
    none⟩
  refine ⟨hmeta, fun hone => ?_⟩
  obtain ⟨c, hc, hannounced⟩ := (classed_run env before).manifest _ _ record hrecord
  obtain ⟨c', hc', hannounced'⟩ :=
    (classed_run env (before ++ between)).manifest request.tenantId _ record' hrecord'
  have hclass : record.storageClass = record'.storageClass :=
    hone c (List.mem_append_left _ hc) c' hc' _ _ hannounced hannounced'
  rw [hmeta, ← hclass]
  rfl

namespace Sample

/-- The object is announced with a storage class, after it has been uploaded, and committed. -/
def reclassify (storageClass : String) : List Call :=
  [.putInit (auth "4") ⟨tenant, manifest, "4", ⟨""⟩, ⟨""⟩, .split, storageClass, none⟩,
    putCommit "5" manifest]

/-- The metadata of the object after some calls. -/
def headAfter (calls : List Call) : Except ApiError HeadResponse :=
  (Prog.runE (exec (Sample.env [])) (head (Sample.env []) (auth "6")
    ⟨tenant, ⟨.cid, some manifestCid, none, none⟩⟩) (runCalls (Sample.env []) calls World.empty)).1

/-- The object is announced a second time with the storage class it has. -/
theorem metadata_kept : ∃ response, headAfter upload = .ok response ∧
    headAfter (upload ++ reclassify "") = .ok response := by
  have hbefore : (headAfter upload).isOk := by decide +kernel
  have hafter : (headAfter (upload ++ reclassify "")).isOk := by decide +kernel
  obtain ⟨response, h⟩ := exists_ok hbefore
  obtain ⟨response', h'⟩ := exists_ok hafter
  have hone := (metadata_immutable (Sample.env []) upload (reclassify "") rfl rfl rfl rfl h h').2
  refine ⟨response, h, h'.trans (congrArg _ (hone ?_))⟩
  intro c hc c' hc' _ _ hannounced hannounced'
  have hannounces : ∀ c ∈ upload ++ reclassify "", ∀ storageClass,
      c.Announces (Sample.env []) tenant manifestCid storageClass → storageClass = "" := by
    simp [upload, reclassify, putInit, putChunk, putCommit, Call.Announces]
  exact (hannounces c hc _ hannounced).trans (hannounces c' hc' _ hannounced').symm

/-- A further commit of the same manifest changes the storage class of the object. -/
theorem storage_class_changed :
    (headAfter upload).map (·.storageClass) = .ok "" ∧
      (headAfter (upload ++ reclassify "cold")).map (·.storageClass) = .ok "cold" := by
  decide +kernel

end Sample

end Hsp
