import Hsp.Distribution.Calls
import Hsp.Object.Entries
import Hsp.Sample.Deployment

/-!
# Reads of one version

`get_object` reads the head of an object, proves the binding of an identifier, reads the body and
looks up the manifest of a plaintext in calls of their own, and each of them resolves the key
again.  Other requests can bind the key to another object between any two of them.

* `readHead_yields`, `readBody_yields` : the parts of a read, if the key is bound to one object
  whenever the read makes a call;
* `read_of_one_version` : then the whole answer is about this object, in every interleaving;
* `Sample.torn_read` : the head of one object and the body of another.
-/

namespace Hsp.Distribution

open Option

variable {d : Deployment}

/-! ### Requests that are handled at the same time -/

/-- A request together with what it is answered with. -/
abbrev Answer := (r : Request) × Except ApiError r.Response

/-- The object that was read. -/
def Answer.object? : Answer → Option GetObjectResponse
  | ⟨.getObject _ _, .ok response⟩ => some response
  | _ => none

/-- How the request is handled, as a program of a pool. -/
def Request.thread (d : Deployment) (r : Request) : Prog serverSig Answer :=
  (fun answer => ⟨r, answer⟩) <$> (r.handle d).run

/-- Requests that are made to a server that has just been set up. -/
def serving {ι : Type} (d : Deployment) (requests : ι → Request) :
    Pool ι serverSig Answer Server :=
  ⟨fun i => (requests i).thread d, .empty⟩

/-- What holds of a server whatever requests it handles. -/
structure Sound (d : Deployment) (s : Server) : Prop where
  consistent : Consistent d.toEnv s.alpha
  records : RecordsNamed s.alpha
  bindings : BindingsNamed s.alpha
  registered : Registered s

namespace Sound

theorem empty : Sound d .empty := ⟨.empty, .empty, .empty, .empty⟩

theorem act {o : Action} {s : Server} (ho : o.Registers d) (h : Sound d s) :
    Sound d (act d o s).2 where
  consistent := alpha_act (fun _ hw => hw.same fun _ _ => rfl) (fun c _ hw => hw.perform c) o s
    h.consistent
  records := alpha_act (fun _ hw => hw) (fun c _ hw => hw.perform c) o s h.records
  bindings := alpha_act (fun _ hw => hw) (fun c _ hw => hw.perform c) o s h.bindings
  registered := ho s h.registered

end Sound

/-! ### One object -/

/-- The path that a read of a key resolves. -/
def GetObjectRequest.place (request : GetObjectRequest) : Option (String × String) := do
  let bucket ← (canonicalBucketName (← request.bucket)).toOption
  let key ← (canonicalObjectKeyName (← request.key)).toOption
  (canonicalNamespaceAndPath bucket key).toOption

/-- When the request makes a call, its key is bound to the object, or to none. -/
def GetObjectRequest.Steady (request : GetObjectRequest) (object : String) :
    Action → Server → Prop
  | .call _, s => ∀ place ∈ request.place,
      s.alpha.objectAt request.tenantId place.1 place.2 = none ∨
        s.alpha.objectAt request.tenantId place.1 place.2 = some object
  | .own _, _ => True

instance decidableSteady (request : GetObjectRequest) (object : String) (o : Action) (s : Server) :
    Decidable (request.Steady object o s) := by
  unfold GetObjectRequest.Steady
  split
  · exact inferInstance
  · exact inferInstance

/-- The response answers the request with an object, given by its manifest and the bytes of its
chunks. -/
structure GetObjectRequest.AnsweredWith (d : Deployment) (request : GetObjectRequest)
    (response : GetObjectResponse) (m : Manifest) (chunks : List (List UInt8)) : Prop where
  contents : m.Contents d.toEnv chunks
  cid : response.head.cid = m.manifestCid d.toEnv
  etag : response.head.etag = m.manifestCid d.toEnv
  requested : ∀ cid ∈ request.cid, cid = m.manifestCid d.toEnv
  ciphertext : request.preferPlaintext = false →
    response.body = m.content request.range chunks ∧
      response.head.contentLength = m.storedSize ∧
      response.contentRange = request.range.map fun range =>
        "bytes " ++ toString range.start.toNat ++ "-" ++ toString range.end.toNat ++ "/" ++
          toString m.storedSize.toNat
  plaintext : request.preferPlaintext = true →
    (openBody d request.tenantId m (m.content none chunks)).run = .ret (.ok response.body) ∧
      response.head.contentLength = .ofNat response.body.length ∧ response.contentRange = none

section Parts

variable {request : GetObjectRequest} {object bucket key : String} {auth : AuthContext}
  {R : Action → Server → Server → Prop} {selector : ObjectSelector}

variable (d request object) in
/-- What may happen before an action of the read. -/
def Between (o : Action) (_ s : Server) : Prop := Sound d s ∧ request.Steady object o s

/-- The names that a read gives its bucket and its key. -/
structure GetObjectRequest.Names (request : GetObjectRequest) (bucket key : String) : Prop where
  bucket : ∃ name, request.bucket = some name ∧ canonicalBucketName name = .ok bucket
  key : ∃ name, request.key = some name ∧ canonicalObjectKeyName name = .ok key

theorem GetObjectRequest.Names.place {ns path : String} (h : request.Names bucket key)
    (hcanon : canonicalNamespaceAndPath bucket key = .ok (ns, path)) :
    request.place = some (ns, path) := by
  obtain ⟨⟨bucketName, hb, hbucket⟩, keyName, hk, hkey⟩ := h
  simp [GetObjectRequest.place, hb, hk, hbucket, hkey, hcanon, Except.toOption]

theorem ofExcept_yields {α : Type} {F : α → Prop} {x : Except ApiError α}
    (h : ∀ a, x = .ok a → F a) : Yields (act d) R F (ofExcept x : Dist α) := by
  cases x with
  | ok a => exact .pure (h a rfl)
  | error e => exact .throw e

theorem rejectIf_yields {c : Prop} [Decidable c] {e : ApiError} :
    Yields (act d) R (fun _ => ¬ c) (rejectIf c e) := by
  unfold rejectIf
  split
  · exact .throw e
  · rename_i hc
    exact .pure hc

theorem orObjectError_yields {α : Type} {F : α → Prop} {x : Dist α} (h : Yields (act d) R F x) :
    Yields (act d) R F (orObjectError x) :=
  .bind h.attempt fun result hresult => by
    cases result with
    | ok a => exact .pure (hresult a rfl)
    | error e => exact .throw _

theorem callAlpha_yields {c : Call} {F : c.Response → Prop}
    (h : ∀ s₀ s a w', R (.call c) s₀ s →
      runE (exec d.toEnv) (c.answer d.toEnv) s.alpha = (.ok a, w') → F a) :
    Yields (act d) R F (callAlpha c) := by
  intro s₀ _ s hR
  have hpost (result : Except ApiError c.Response) (w' : World)
      (hrun : runE (exec d.toEnv) (c.answer d.toEnv) s.alpha = (result, w')) :
      postE (fun a (_ : Server) => F a) (fun _ _ => True) result { s with alpha := w' } := by
    cases result with
    | error e => trivial
    | ok a => exact h s₀ s a w' hR hrun
  exact hpost _ _ rfl

theorem requireBucket_yields (t : TenantId) (bucket : String) :
    Yields (act d) (Between d request object)
      (fun record => canonicalBucketName bucket = .ok record.bucket ∧ record.ns = record.bucket)
      (requireBucket t bucket) := by
  refine .bind (ofExcept_yields (F := fun name => canonicalBucketName bucket = .ok name)
    fun _ h => h) fun name hname => .bind (F := fun record => ∀ found ∈ record,
      found.bucket = name ∧ found.ns = name) ?_ fun record hrecord => ?_
  · intro _ _ s hs
    exact fun found hfound => hs.1.registered t name found hfound
  · cases record with
    | none => exact .throw _
    | some found =>
      obtain ⟨hbucket, hns⟩ := hrecord found rfl
      exact .pure ⟨hname.trans (congrArg _ hbucket.symm), hns.trans hbucket.symm⟩

/-- A selector of the object: its identifier, or the key the request gives. -/
def GetObjectRequest.Selects (request : GetObjectRequest) (object : String)
    (selector : ObjectSelector) : Prop :=
  selector = cidSelector object ∨
    ∃ bucket key, request.Names bucket key ∧ selector = keySelector bucket key

theorem resolved_object (hselects : request.Selects object selector) {c : Call} {s : Server}
    (hs : request.Steady object (.call c) s) {resolution : SelectorResolution} {w' : World}
    (h : runE (exec d.toEnv) (selectorResolution request.tenantId selector) s.alpha =
      (.ok resolution, w')) : resolution.manifestCid = object := by
  rcases hselects with rfl | ⟨bucket, key, hnames, rfl⟩
  · exact (selectorResolution_ok h).2
  · obtain ⟨-, ns, path, hcanon, hobject⟩ := selectorResolution_ok h
    rcases hs (ns, path) (hnames.place hcanon) with hnone | hsome
    · rw [hobject] at hnone
      cases hnone
    · rw [hobject] at hsome
      exact some.inj hsome

/-- The answer to a read of the manifest alone. -/
structure Describes (d : Deployment) (object : String) (response : GetResponse) (m : Manifest) :
    Prop where
  named : m.manifestCid d.toEnv = object
  «manifest» : includedManifest response = .ok m
  cid : response.meta.cid = object
  objectCid : response.meta.objectCid = object
  storedSize : response.meta.storedSize = m.storedSize

theorem manifestOnly_yields (hselects : request.Selects object selector) :
    Yields (act d) (Between d request object) (fun response => ∃ m, Describes d object response m)
      (callAlpha (.get auth (manifestOnly request.tenantId selector))) := by
  refine callAlpha_yields fun _ s response w' ⟨hsound, hsteady⟩ hrun => ?_
  obtain ⟨resolution, m, hresolution, hcid, hmanifest, hmetaCid, hobjectCid, hsize⟩ :=
    manifest_of_get hsound.consistent hsound.records rfl hrun
  have hobject := hcid.trans (resolved_object hselects hsteady hresolution)
  exact ⟨m, hobject, by rw [includedManifest, hmanifest], hmetaCid.trans hobject,
    hobjectCid.trans hobject, hsize⟩

/-- The head of a read describes the object. -/
structure Heads (d : Deployment) (object : String) (head : HeadObjectResponse) : Prop where
  cid : head.cid = object
  etag : head.etag = object
  contentLength : ∃ m : Manifest, m.manifestCid d.toEnv = object ∧ head.contentLength = m.storedSize

theorem Describes.heads {response : GetResponse} {m m' : Manifest}
    (h : Describes d object response m) (bucket key : String) :
    Heads d object (headResponse bucket key response m') :=
  ⟨h.cid, h.objectCid, m, h.named, h.storedSize⟩

theorem headObject_yields (hbucket : request.bucket = some bucket) (hkey : request.key = some key) :
    Yields (act d) (Between d request object) (Heads d object)
      (headObject auth ⟨request.tenantId, bucket, key⟩) := by
  refine .bind (requireBucket_yields _ _) fun record ⟨hrecord, hns⟩ =>
    .bind (ofExcept_yields (F := fun name => canonicalObjectKeyName key = .ok name) fun _ h => h)
      fun name hname => .bind (.any _) fun _ _ => ?_
  have hnames : request.Names record.ns name :=
    ⟨⟨bucket, hbucket, hns.symm ▸ hrecord⟩, key, hkey, hname⟩
  exact .bind (orObjectError_yields (manifestOnly_yields (.inr ⟨_, _, hnames, rfl⟩)))
    fun response ⟨m, hm⟩ => .bind (.any _) fun _ _ => .pure (hm.heads _ _)

/-- The binding that is proved is that of the key, and its object is the requested one. -/
theorem cidBinding_yields {cid : String} (hbucket : request.bucket = some bucket)
    (hkey : request.key = some key) :
    Yields (act d) (Between d request object)
      (fun binding => ∃ record name, binding = some (record, name) ∧
        request.Names record.ns name ∧ cid = object)
      (cidBinding auth request cid) := by
  unfold cidBinding
  rw [hbucket, hkey]
  refine .bind (requireBucket_yields _ _) fun record ⟨hrecord, hns⟩ =>
    .bind (ofExcept_yields (F := fun name => canonicalObjectKeyName key = .ok name) fun _ h => h)
      fun name hname => .bind (.any _) fun _ _ => ?_
  have hnames : request.Names record.ns name :=
    ⟨⟨bucket, hbucket, hns.symm ▸ hrecord⟩, key, hkey, hname⟩
  refine .bind (F := fun resolved => resolved.targetCid = resolved.manifestCid ∧
    ∀ cid ∈ resolved.manifestCid, cid = object) (orObjectError_yields ?_)
    fun resolved ⟨htarget, hobject⟩ => .bind rejectIf_yields fun _ hmatch =>
    .pure ⟨record, name, rfl, hnames, ?_⟩
  · refine callAlpha_yields fun _ s resolved w' ⟨hsound, hsteady⟩ hrun => ?_
    obtain ⟨-, ns, path, hcanon, hresolved⟩ := resolve_ok rfl hrun
    obtain ⟨b, hb, htarget, hmanifest, -⟩ := binding_of_resolveBinding hresolved
    refine ⟨by rw [htarget, hmanifest, hsound.bindings _ _ _ b hb], fun cid hcid => ?_⟩
    have hat : s.alpha.objectAt request.tenantId ns path = some cid := by
      rw [World.objectAt, hb]
      exact hmanifest.symm.trans hcid
    rcases hsteady (ns, path) (hnames.place hcanon) with hnone | hsome
    · rw [hat] at hnone
      cases hnone
    · rw [hat] at hsome
      exact some.inj hsome
  · rw [htarget, and_self, not_not] at hmatch
    exact hobject cid hmatch

/-- What the first part of a read finds out: the head describes the object, the selector selects
it, and a requested identifier is its own. -/
structure FirstPart (d : Deployment) (request : GetObjectRequest) (object : String)
    (result : HeadObjectResponse × ObjectSelector × Bool) : Prop where
  heads : Heads d object result.1
  selects : request.Selects object result.2.1
  requested : ∀ cid ∈ request.cid, cid = object

/-- **The first part of a read** of a key. -/
theorem readHead_yields (hbucket : request.bucket = some bucket) (hkey : request.key = some key) :
    Yields (act d) (Between d request object) (FirstPart d request object)
      (readHead auth request) := by
  unfold readHead
  cases hcid : request.cid with
  | some cid =>
    refine .bind (cidBinding_yields hbucket hkey) fun binding => ?_
    rintro ⟨record, name, rfl, hnames, rfl⟩
    refine .bind (manifestOnly_yields (.inr ⟨_, _, hnames, rfl⟩)) fun response ⟨m, hm⟩ =>
      .bind (.any _) fun _ _ => .pure ⟨hm.heads _ _, .inr ⟨_, _, hnames, rfl⟩, fun _ h => ?_⟩
    rw [hcid] at h
    exact (some.inj h).symm
  | none =>
    rw [hbucket, hkey]
    refine .bind (F := fun name => name = bucket) (.pure rfl) ?_
    rintro _ rfl
    refine .bind (F := fun name => name = key) (.pure rfl) ?_
    rintro _ rfl
    refine .bind (headObject_yields hbucket hkey) fun head hhead =>
      .bind (requireBucket_yields _ _) fun record ⟨hrecord, hns⟩ =>
      .bind (ofExcept_yields (F := fun name => canonicalObjectKeyName _ = .ok name) fun _ h => h)
        fun name hname => .pure ⟨hhead, .inr ⟨record.ns, name, ?_, rfl⟩, fun _ h => ?_⟩
    · exact ⟨⟨_, hbucket, hns.symm ▸ hrecord⟩, _, hkey, hname⟩
    · rw [hcid] at h
      cases h

/-- **The first part of a read** by an identifier alone. -/
theorem readHead_yields_of_cid (hbucket : request.bucket = none) (hkey : request.key = none)
    (hcid : request.cid = some object) :
    Yields (act d) (Between d request object) (FirstPart d request object)
      (readHead auth request) := by
  unfold readHead
  rw [hcid]
  refine .bind (F := fun binding => binding = none) ?_ fun binding hbinding => ?_
  · unfold cidBinding
    rw [hbucket, hkey]
    exact .bind (.any _) fun _ _ => .pure rfl
  · subst hbinding
    exact .bind (manifestOnly_yields (.inl rfl)) fun response ⟨m, hm⟩ => .bind (.any _) fun _ _ =>
      .pure ⟨hm.heads _ _, .inl rfl, fun _ h => (some.inj (hcid ▸ h)).symm⟩

/-- The answer to a read of the body. -/
structure Delivered (d : Deployment) (object : String) (range : Option RangeSpec)
    (response : GetResponse) (m : Manifest) (chunks : List (List UInt8)) : Prop where
  named : m.manifestCid d.toEnv = object
  contents : m.Contents d.toEnv chunks
  «manifest» : response.meta.manifest = none
  body : bodyOf response = m.content range chunks

theorem body_yields (hselects : request.Selects object selector) :
    Yields (act d) (Between d request object)
      (fun response => ∃ m chunks, Delivered d object request.range response m chunks)
      (callAlpha (.get auth (bodyRequest request selector))) := by
  refine callAlpha_yields fun _ s response w' ⟨hsound, hsteady⟩ hrun => ?_
  obtain ⟨resolution, m, chunks, hresolution, hcid, hcontents, hmanifest, hbody⟩ :=
    body_of_get hsound.consistent rfl hrun
  exact ⟨m, chunks, hcid.trans (resolved_object hselects hsteady hresolution), hcontents,
    hmanifest, hbody⟩

/-- Opening a body takes no actions. -/
theorem openBody_run (t : TenantId) (m : Manifest) (body : List UInt8) :
    ∃ result, (openBody d t m body).run = .ret result := by
  unfold openBody
  split
  · exact ⟨_, rfl⟩
  · split
    · exact ⟨_, rfl⟩
    · rename_i wrappedKey _
      unfold ofCrypto
      cases d.unwrapObjectKeyForRecipient t wrappedKey with
      | error e => exact ⟨_, rfl⟩
      | ok objectKey => exact ⟨_, rfl⟩

/-- **The second part of a read.** -/
theorem readBody_yields (hselects : request.Selects object selector) {head : HeadObjectResponse}
    (hhead : Heads d object head) (hrequested : ∀ cid ∈ request.cid, cid = object)
    (immutable : Bool) :
    Yields (act d) (Between d request object) (fun response => ∃ m chunks,
        m.manifestCid d.toEnv = object ∧ request.AnsweredWith d response m chunks)
      (readBody d auth request head selector immutable) := by
  refine .bind (.any _) fun _ _ => .bind (body_yields hselects) fun response => ?_
  rintro ⟨m, chunks, rfl, hcontents, hmanifest, hbody⟩
  obtain ⟨hheadCid, hetag, m', hm', hlength⟩ := hhead
  obtain rfl := manifestCid_inj hm'
  cases hplain : request.preferPlaintext with
  | false =>
    refine .pure ⟨m', chunks, rfl, hcontents, hheadCid, hetag, hrequested, fun _ =>
      ⟨hbody, hlength, ?_⟩, fun h => ?_⟩
    · rw [ciphertextResponse, hlength]
    · rw [hplain] at h
      cases h
  | true =>
    refine .bind rejectIf_yields fun _ hrange => ?_
    have hnone : request.range = none := by simpa using hrange
    refine .bind (F := fun m'' => m' = m'') ?_ ?_
    · unfold manifestFor
      rw [hmanifest]
      refine .bind (manifestOnly_yields hselects) fun response ⟨m'', hm''⟩ =>
        ofExcept_yields fun found hfound => ?_
      obtain rfl := Except.ok.inj (hm''.manifest.symm.trans hfound)
      exact (manifestCid_inj hm''.named).symm
    · rintro _ rfl
      rw [hbody, hnone]
      obtain ⟨result, hresult⟩ := openBody_run (d := d) request.tenantId m' (m'.content none chunks)
      refine .bind (F := fun body => result = .ok body) ?_ fun body hopened => .pure ⟨m', chunks,
        rfl, hcontents, hheadCid, hetag, hrequested, fun h => ?_, fun _ =>
        ⟨hresult.trans (congrArg _ hopened), rfl, rfl⟩⟩
      · intro s hs
        show Prog.Safe _ _ _ (openBody d request.tenantId m' (m'.content none chunks)).run s
        rw [hresult]
        cases result with
        | error e => trivial
        | ok body => rfl
      · rw [hplain] at h
        cases h

/-- **A read**, of a key or by an identifier alone. -/
theorem getObject_yields (h : request.bucket.isSome ∧ request.key.isSome ∨
      request.bucket = none ∧ request.key = none ∧ request.cid = some object) :
    Yields (act d) (Between d request object) (fun response => ∃ m chunks,
        m.manifestCid d.toEnv = object ∧ request.AnsweredWith d response m chunks)
      (getObject d auth request) := by
  have hfirst : Yields (act d) (Between d request object) (FirstPart d request object)
      (readHead auth request) := by
    rcases h with ⟨hbucket, hkey⟩ | ⟨hbucket, hkey, hcid⟩
    · obtain ⟨bucket, hbucket⟩ := isSome_iff_exists.1 hbucket
      obtain ⟨key, hkey⟩ := isSome_iff_exists.1 hkey
      exact readHead_yields hbucket hkey
    · exact readHead_yields_of_cid hbucket hkey hcid
  exact .bind (.any _) fun _ _ => .bind (.any _) fun _ _ => .bind hfirst fun result hresult =>
    readBody_yields hresult.selects hresult.heads hresult.requested _

end Parts

/-! ### Interleavings -/

/-- **What holds of a server whatever requests it handles at the same time**: its objects are
consistent, records and bindings name their own keys, and buckets are registered under their
names. -/
theorem sound_interleaved (d : Deployment) {ι : Type} [DecidableEq ι] (requests : ι → Request)
    (schedule : List ι) : Sound d ((serving d requests).run (act d) schedule).state := by
  have honly (j : ι) : ((serving d requests).threads j).Only (Action.Registers d) :=
    Prog.Only.bind (Registered.handle (requests j)) fun _ => trivial
  exact Pool.only_run (fun _ _ ho hs => hs.act ho) honly .empty schedule

/-- **A read of one version.**  If, whenever a read of a key makes a call, the key is bound to one
object or to none, then a successful answer is about one object: the head describes it, the body
consists of its bytes in the requested range, and a requested identifier is its own. -/
theorem read_of_one_version (d : Deployment) {ι : Type} [DecidableEq ι] (requests : ι → Request)
    {i : ι} {auth : AuthContext} {request : GetObjectRequest}
    (hi : requests i = .getObject auth request) (hbucket : request.bucket.isSome)
    (hkey : request.key.isSome) {object : String} {schedule : List ι}
    (hsteady : (serving d requests).Always (act d) (fun c j => j = i →
      ∀ o ∈ (c.threads j).next?, request.Steady object o c.state) schedule)
    {response : GetObjectResponse}
    (hok : (((serving d requests).run (act d) schedule).threads i).result?.bind Answer.object? =
      some response) :
    ∃ m chunks, request.AnsweredWith d response m chunks := by
  have hyields : Yields (act d) (Between d request object) _ (getObject d auth request) :=
    getObject_yields (.inl ⟨hbucket, hkey⟩)
  have hsafe : ((serving d requests).threads i).Safe (act d) (Between d request object)
      (fun answer _ => ∀ response, answer.object? = some response →
        ∃ m chunks, request.AnsweredWith d response m chunks) .empty := by
    show ((requests i).thread d).Safe _ _ _ _
    rw [hi]
    refine Prog.Safe.bind ((hyields .empty trivial).mono fun result s hresult => ?_)
    intro response hanswer
    cases result with
    | error e => cases hanswer
    | ok answered =>
      obtain rfl : answered = response := some.inj hanswer
      obtain ⟨m, chunks, -, hanswered⟩ := hresult
      exact ⟨m, chunks, hanswered⟩
  have honly (j : ι) : ((serving d requests).threads j).Only (Action.Registers d) :=
    Prog.Only.bind (Registered.handle (requests j)) fun _ => trivial
  obtain ⟨answer, hresult, hanswer⟩ := bind_eq_some_iff.1 hok
  obtain ⟨_, hone⟩ := Pool.safe_turns (I := Sound d) (fun _ _ ho hs => hs.act ho) honly .empty
    hsafe hsteady (Prog.result?_eq_some.1 hresult)
  exact hone response hanswer

end Hsp.Distribution

namespace Hsp.Sample

open Hsp.Distribution

/-- The bytes of another object. -/
def otherChunk : List UInt8 := [9]

def otherObject : Manifest := ⟨putManifest otherChunk, by decide +kernel⟩

def otherCid : String := cid otherObject.canonicalCborBytes

/-- The key is bound to one object and then to another. -/
def versionRecords : List NamespaceMutationRecord :=
  [⟨keyRecord "k" .bind (some objectCid) none, fits_bind⟩,
    ⟨keyRecord "k" .bind (some otherCid) (some 1), by decide +kernel⟩]

/-- A read of the key. -/
def readKey : GetObjectRequest where
  tenantId := tenant
  bucket := some "b"
  key := some "k"
  cid := none
  accessProfile := .publicCiphertext
  preferPlaintext := false
  range := none
  ifMatch := none
  ifNoneMatch := none

/-- A bucket is created, an object is put, read, and overwritten. -/
def versionRequests : Fin 4 → Request
  | 0 => .createBucket (auth "1") tenant "b"
  | 1 => .putObject (auth "2") (putRequest "b" "k" "i") chunk
  | 2 => .getObject (auth "3") readKey
  | 3 => .putObject (auth "4") (putRequest "b" "k" "j") otherChunk

/-- The read among these requests. -/
def reader : Fin 4 := 2

/-- The platform of these requests. -/
def versionDeployment : Deployment := deployment versionRecords [] 0

/-- The first object is there, and its head has been read. -/
def headRead : List (Fin 4) := List.replicate 5 0 ++ List.replicate 7 1 ++ List.replicate 3 2

/-- The key is overwritten before the body is read. -/
def torn : List (Fin 4) := headRead ++ List.replicate 8 3 ++ [2]

/-- The overwrite is committed after the body has been read. -/
def whole : List (Fin 4) := headRead ++ List.replicate 7 3 ++ [2, 3]

/-- What the read is answered with. -/
def readIn (schedule : List (Fin 4)) : Option GetObjectResponse :=
  (((serving versionDeployment versionRequests).run (act versionDeployment)
    schedule).threads reader).result?.bind Answer.object?

theorem versions_evaluated :
    (readIn torn).map (fun response => (response.head.cid, response.body)) =
        some (objectCid, otherChunk) ∧
      (readIn whole).isSome ∧
      (serving versionDeployment versionRequests).Always (act versionDeployment) (fun c j =>
        j = reader → ∀ o ∈ (c.threads j).next?, readKey.Steady objectCid o c.state) whole := by
  decide +kernel

theorem object_contents : object.Contents versionDeployment.toEnv [chunk] := .cons rfl .nil

/-- **A read that is overtaken by an overwrite**: the head is that of the first object, and the body
is that of the second one. -/
theorem torn_read : ∃ response, readIn torn = some response ∧
    ¬ ∃ m chunks, readKey.AnsweredWith versionDeployment response m chunks := by
  obtain ⟨response, hread, hresponse⟩ := Option.map_eq_some_iff.1 versions_evaluated.1
  obtain ⟨hcid, hbody⟩ := Prod.mk.inj hresponse
  refine ⟨response, hread, ?_⟩
  rintro ⟨m, chunks, hanswer⟩
  have hm : m = object := manifestCid_inj (hanswer.cid.symm.trans hcid)
  subst hm
  obtain rfl : chunks = [chunk] := hanswer.contents.unique object_contents
  have hother : otherChunk = object.content none [chunk] :=
    hbody.symm.trans (hanswer.ciphertext rfl).1
  exact absurd hother (by decide +kernel)

/-- A read that is finished before the overwrite is committed. -/
theorem whole_read : ∃ response, readIn whole = some response ∧
    ∃ m chunks, readKey.AnsweredWith versionDeployment response m chunks := by
  obtain ⟨-, hsome, hsteady⟩ := versions_evaluated
  obtain ⟨response, hread⟩ := Option.isSome_iff_exists.1 hsome
  have hrequest : versionRequests reader = .getObject (auth "3") readKey := rfl
  refine ⟨response, hread, ?_⟩
  rw [readIn] at hread
  exact read_of_one_version versionDeployment versionRequests hrequest rfl rfl hsteady hread

end Hsp.Sample
