import Hsp.Backend.Interchange
import Hsp.Crypto.Envelope
import Hsp.S3.Binding
import Hsp.Sample.Reader

/-!
# Access keys

Access keys are stored for each tenant under their identifiers, and looked up by the identifier
alone: `list_all_access_keys` opens what the store lists for each directory, and the first enabled
key is taken.  A lookup fails if the store lists an envelope of another tenant, and does not find
the keys of tenants whose directories are not listed.

* `listAllAccessKeys_eq_ok` : when all keys can be listed, and which keys these are, for both
  backends and in any order.
* `accessKey_stable_iff` : the lookup is stable if and only if the keys of the identifier are
  `Reliable` at all times.
-/

namespace Hsp.S3

open Backend Crypto List
open Backend.InBucket (firstPart)
open Hsp.Distribution (Deployment hexLower hexSha256 cryptoErrorToApi)

/-! ### The store -/

inductive StoreBackend where
  | filesystem (fs : Filesystem)
  | s3 (s3 : S3ObjectStore)

namespace StoreBackend

def write (key : Text) (bytes : Value) : StoreBackend → Except ApiError Unit × StoreBackend
  | filesystem fs => ((fs.write key bytes).1, filesystem (fs.write key bytes).2)
  | s3 bucket => (.ok (), s3 (bucket.putObject key bytes false).2)

def listValues (pathPrefix : Text) : StoreBackend → Except ApiError (List Value)
  | filesystem fs => fs.listValues pathPrefix
  | s3 bucket => .ok (bucket.listValues pathPrefix)

def listChildDirs (pathPrefix : Text) : StoreBackend → Except ApiError (List Text)
  | filesystem fs => fs.listChildDirs pathPrefix
  | s3 bucket => .ok (bucket.listChildDirs pathPrefix)

/-- A new store in a directory, or in a bucket under a prefix. -/
def new : Option StorePrefix → StoreBackend
  | none => filesystem .empty
  | some config => s3 ⟨config, []⟩

end StoreBackend

/-! ### Registering keys -/

/-- What the records of access keys go through on their way to the store. -/
structure KeyService where
  deployment : Deployment
  primitives : Primitives
  kms : LocalDevKms
  /-- `serde_json` at `SigV4AccessKeyRecord`. -/
  recordToJson : SigV4AccessKeyRecord → List UInt8
  recordFromJson : List UInt8 → Option SigV4AccessKeyRecord
  record_round_trip : ∀ record, recordFromJson (recordToJson record) = some record
  /-- `serde_json` at `StoredEnvelope`, with the texts of its errors. -/
  envelopeToJson : StoredEnvelope → Value
  envelopeFromJson : Value → Except String StoredEnvelope
  envelope_round_trip : ∀ envelope, envelopeFromJson (envelopeToJson envelope) = .ok envelope
  sha256_injective : Function.Injective deployment.sha256

/-- A call of `register_sigv4_access_key`, with what its encryption draws. -/
structure Registration where
  record : SigV4AccessKeyRecord
  random : Randomness

/-- The store kind of the keys. -/
def keyKind : StoreKind := .distributionMetadata

variable (service : KeyService)

namespace KeyService

def name (record : SigV4AccessKeyRecord) : Name :=
  ⟨keyKind, record.tenantId, .distribution service.deployment ("access-key-" ++ record.accessKeyId)⟩

/-- The envelope of a record, as it is written. -/
def sealed (call : Registration) : Except ApiError Value :=
  match encryptStorePayload service.primitives service.kms call.random call.record.tenantId
    keyKind.asStr (service.recordToJson call.record) with
  | .ok envelope => .ok (service.envelopeToJson envelope)
  | .error error => .error (cryptoErrorToApi error "failed to encrypt distribution payload")

/-- The record in an envelope of a tenant, if there is one. -/
def opened (tenantId : TenantId) (bytes : Value) :
    Except ApiError (Option SigV4AccessKeyRecord) :=
  match service.envelopeFromJson bytes with
  | .error text => .error ⟨.storage, "json_deserialize_failed", text⟩
  | .ok envelope =>
    match decryptStorePayload service.primitives service.kms tenantId keyKind.asStr envelope with
    | .ok plaintext => .ok (service.recordFromJson plaintext)
    | .error error => .error (cryptoErrorToApi error "failed to decrypt distribution payload")

end KeyService

def registerSigv4AccessKey (store : StoreBackend) (call : Registration) :
    Except ApiError Unit × StoreBackend :=
  if trimIsEmpty call.record.accessKeyId ∨ trimIsEmpty call.record.secretAccessKey then
    (.error ⟨.validation, "invalid_sigv4_access_key", "access key id and secret must be non-empty"⟩,
      store)
  else match service.sealed call with
    | .error e => (.error e, store)
    | .ok bytes => store.write (service.name call.record).storeKey bytes

/-- The store, and the keys that were registered in it.  A key takes the place of that of the same
tenant and identifier. -/
def register (x : StoreBackend × List SigV4AccessKeyRecord) (call : Registration) :
    StoreBackend × List SigV4AccessKeyRecord :=
  let r := registerSigv4AccessKey service x.1 call
  (r.2, if r.1.isOk then call.record :: x.2.filter fun k =>
    k.tenantId ≠ call.record.tenantId ∨ k.accessKeyId ≠ call.record.accessKeyId else x.2)

/-- The store and the keys after a sequence of calls. -/
def registered (config : Option StorePrefix) (calls : List Registration) :
    StoreBackend × List SigV4AccessKeyRecord :=
  calls.foldl (register service) (.new config, [])

/-! ### Looking them up -/

def decodeTenantStoreDir (input : String) : Option String := do
  let decoded ← Base64.decode input
  String.fromUTF8? ⟨decoded.toArray⟩

/-- The tenant a listed directory is taken to be of. -/
def tenantOfDir (dir : Text) : TenantId :=
  ⟨(decodeTenantStoreDir (.ofList dir)).getD (.ofList dir)⟩

/-- What the store lists: directories, and the values of each. -/
structure Listing where
  children : Except ApiError (List Text)
  values : Text → Except ApiError (List Value)

/-- The order of a listing is up to the store. -/
structure Listing.Of (l : Listing) (store : StoreBackend) : Prop where
  children : (StoreResult.children (store.listChildDirs keyKind.text)).Same (.children l.children)
  values : ∀ dir, (StoreResult.values
    (store.listValues (tenantPrefix keyKind (tenantOfDir dir)))).Same (.values (l.values dir))

def listEncryptedJson (tenantId : TenantId) (values : Except ApiError (List Value)) :
    Except ApiError (List SigV4AccessKeyRecord) := do
  let items ← (← values).mapM (service.opened tenantId)
  return items.filterMap id

def listAllAccessKeys (l : Listing) : Except ApiError (List SigV4AccessKeyRecord) := do
  let records ← (← l.children).mapM fun dir =>
    listEncryptedJson service (tenantOfDir dir) (l.values dir)
  return records.flatten.filter (·.accessKeyId ≠ "")

/-- The lookup, with what the store lists. -/
def lookupIn (d : S3Deployment) (l : Listing) (id : String) :
    Except ApiError SigV4AccessKeyRecord :=
  sigv4AccessKey { d with listAllAccessKeys := listAllAccessKeys service l } id

/-- The key is in use under the identifier. -/
def Found (stored : List SigV4AccessKeyRecord) (id : String) (k : SigV4AccessKeyRecord) : Prop :=
  k ∈ stored ∧ k.accessKeyId = id ∧ k.enabled

/-- The tenants whose keys are asked for.  A directory without a name is not listed, and in a bucket
the files in it are taken for directories. -/
def Scanned (stored : List SigV4AccessKeyRecord) (t : TenantId) : Option StorePrefix → Prop
  | none => t.val ≠ "" ∧ ∃ k ∈ stored, k.tenantId = t
  | some config => config.Listable ∧ ∃ k ∈ stored,
      if k.tenantId.val = "" then t.val = .ofList (service.name k).file.text else k.tenantId = t

/-- The entry is among those that the store lists for a tenant. -/
def Shown (t : TenantId) (n : Name) : Option StorePrefix → Prop
  | none => n.tenantId = t
  | some config => config.Listable ∧ trimMatches (tenantPrefix keyKind t) <+: n.objectText

/-- Only keys of the tenant are listed for it, for each tenant that is asked for. -/
def Readable (stored : List SigV4AccessKeyRecord) (config : Option StorePrefix) : Prop :=
  ∀ t, Scanned service stored t config → ∀ k ∈ stored, Shown t (service.name k) config →
    k.tenantId = t

/-- A lookup finds the key, and no other under its identifier. -/
structure Reliable (stored : List SigV4AccessKeyRecord) (config : Option StorePrefix)
    (k : SigV4AccessKeyRecord) : Prop where
  readable : Readable service stored config
  scanned : Scanned service stored k.tenantId config
  owner : ∀ k', Found stored k.accessKeyId k' → k'.tenantId = k.tenantId

/-! ### Directories and their tenants -/

theorem tenantOfDir_dirOf (t : TenantId) : tenantOfDir (dirOf t) = t := by
  have hdecode : decodeTenantStoreDir (.ofList (dirOf t)) = some t.val := by
    rw [dirOf, String.ofList_toList, decodeTenantStoreDir, tenantStoreDir, Base64.decode_encode]
    exact fromUTF8?_utf8 t.val
  rw [tenantOfDir, hdecode]
  rfl

theorem dirOf_eq_nil_iff {t : TenantId} : dirOf t = [] ↔ t.val = "" := by
  refine ⟨fun h => congrArg TenantId.val (dirOf_injective (h.trans ?_ : dirOf t = dirOf ⟨""⟩)), ?_⟩
  · rfl
  · intro h
    obtain ⟨val⟩ := t
    cases h
    rfl

/-- A name with a dot is not that of the directory of a tenant. -/
theorem tenantOfDir_file (file : FileName) : tenantOfDir file.text = ⟨.ofList file.text⟩ := by
  have hdecode : decodeTenantStoreDir (.ofList file.text) = none := by
    rw [decodeTenantStoreDir, Base64.decode, String.toList_ofList,
      Base64.decodeChars_eq_none (by decide) file.dot]
    rfl
  rw [tenantOfDir, hdecode]
  rfl

theorem tenantOfDir_firstPart (n : Name) : tenantOfDir (firstPart n) =
    if n.tenantId.val = "" then ⟨.ofList n.file.text⟩ else n.tenantId := by
  simp only [firstPart, dirOf_eq_nil_iff]
  split
  · exact tenantOfDir_file n.file
  · exact tenantOfDir_dirOf n.tenantId

/-! ### What is in the store -/

section Store

variable {service : KeyService} {shelf : Shelf} {stored : List SigV4AccessKeyRecord}
  {config : Option StorePrefix} {store : StoreBackend} {l : Listing} {k k' : SigV4AccessKeyRecord}
  {id : String}

theorem hexLower_injective : Function.Injective hexLower := by
  have hdigit : ∀ m n : Fin 16, (if m.val < 10 then Char.ofNat (48 + m) else Char.ofNat (87 + m)) =
      (if n.val < 10 then Char.ofNat (48 + n) else Char.ofNat (87 + n)) → m = n := by decide
  intro a b h
  have hchars := String.ofList_injective h
  induction a generalizing b with
  | nil =>
    cases b with
    | nil => rfl
    | cons y b => simp at hchars
  | cons x a ih =>
    cases b with
    | nil => simp at hchars
    | cons y b =>
      simp only [flatMap_cons, cons_append, nil_append, cons.injEq] at hchars
      have hx := x.toNat_lt
      have hy := y.toNat_lt
      have hhigh := hdigit ⟨x.toNat / 16, by omega⟩ ⟨y.toNat / 16, by omega⟩ hchars.1
      have hlow := hdigit ⟨x.toNat % 16, by omega⟩ ⟨y.toNat % 16, by omega⟩ hchars.2.1
      rw [Fin.mk.injEq] at hhigh hlow
      have hxy : x = y := UInt8.toNat_inj.1 (by omega)
      rw [hxy, ih (by rw [hexLower, hexLower, hchars.2.2]) hchars.2.2]

theorem name_eq_iff : service.name k = service.name k' ↔
    k.tenantId = k'.tenantId ∧ k.accessKeyId = k'.accessKeyId := by
  constructor
  · intro h
    injection h with _ htenant hfile
    have htext := congrArg FileName.text hfile
    simp only [FileName.distribution, String.toList_inj, String.append_left_inj] at htext
    have hkey := utf8_inj (service.sha256_injective (hexLower_injective htext))
    exact ⟨htenant, (String.append_right_inj _).1 hkey⟩
  · rintro ⟨htenant, hid⟩
    rw [KeyService.name, htenant, hid, KeyService.name]

/-- The value is opened for the tenant of the record, and for no other. -/
structure Holds (service : KeyService) (k : SigV4AccessKeyRecord) (bytes : Value) : Prop where
  own : service.opened k.tenantId bytes = .ok (some k)
  other : ∀ t, t ≠ k.tenantId → ∃ e, service.opened t bytes = .error e

theorem holds_of_sealed {call : Registration} {bytes : Value}
    (h : service.sealed call = .ok bytes) : Holds service call.record bytes := by
  unfold KeyService.sealed at h
  split at h
  case h_2 => cases h
  case h_1 envelope henvelope =>
    cases h
    constructor
    · rw [KeyService.opened, service.envelope_round_trip]
      simp only [decrypt_of_encrypt henvelope, service.record_round_trip]
    · intro t ht
      obtain ⟨_, _, _, _, rfl⟩ := encryptStorePayload_ok henvelope
      rw [KeyService.opened, service.envelope_round_trip]
      dsimp only
      split
      case h_2 => exact ⟨_, rfl⟩
      case h_1 plaintext hopened =>
        -- The envelope names its tenant.
        have hname := (decryptStorePayload_eq_ok.1 hopened).1.1
        exact absurd (congrArg TenantId.mk hname.symm) ht

/-- The keys are on the shelf, each in its place. -/
structure Keeps (service : KeyService) (shelf : Shelf) (stored : List SigV4AccessKeyRecord) :
    Prop where
  ordered : shelf.Ordered
  entry : ∀ k ∈ stored, ∃ bytes, (service.name k, bytes) ∈ shelf.entries ∧ Holds service k bytes
  record : ∀ e ∈ shelf.entries, ∃ k ∈ stored, e.1 = service.name k ∧ Holds service k e.2
  opened : ∀ t, (keyKind, t) ∈ shelf.opened ↔ ∃ k ∈ stored, k.tenantId = t
  named : ∀ k ∈ stored, k.accessKeyId ≠ ""

/-- The backend follows the shelf. -/
inductive Follows (shelf : Shelf) : Option StorePrefix → StoreBackend → Prop
  | filesystem {fs : Filesystem} (h : OnDisk shelf fs) : Follows shelf none (.filesystem fs)
  | s3 {bucket : S3ObjectStore} (h : InBucket shelf bucket) :
      Follows shelf (some bucket.config) (.s3 bucket)

theorem Keeps.unique (h : Keeps service shelf stored) (hk : k ∈ stored) (hk' : k' ∈ stored)
    (htenant : k.tenantId = k'.tenantId) (hid : k.accessKeyId = k'.accessKeyId) : k = k' := by
  obtain ⟨bytes, hentry, hbytes⟩ := h.entry k hk
  obtain ⟨bytes', hentry', hbytes'⟩ := h.entry k' hk'
  rw [name_eq_iff.2 ⟨htenant, hid⟩] at hentry
  have hlookup := h.ordered.distinct.lookup hentry
  rw [h.ordered.distinct.lookup hentry'] at hlookup
  cases hlookup
  have hown := hbytes.own
  rw [htenant, hbytes'.own] at hown
  cases hown
  rfl

theorem Follows.write (h : Follows shelf config store) (n : Name) (bytes : Value) :
    (store.write n.storeKey bytes).1 = .ok () ∧
      Follows (shelf.step (.write n bytes)) config (store.write n.storeKey bytes).2 := by
  cases h with
  | filesystem h => exact ⟨(h.write n bytes).1, .filesystem (h.write n bytes).2⟩
  | s3 h => exact ⟨rfl, .s3 (h.step (.write n bytes))⟩

theorem Keeps.write (h : Keeps service shelf stored) (hid : k.accessKeyId ≠ "") {bytes : Value}
    (hbytes : Holds service k bytes) :
    Keeps service (shelf.step (.write (service.name k) bytes)) (k :: stored.filter fun k' =>
      k'.tenantId ≠ k.tenantId ∨ k'.accessKeyId ≠ k.accessKeyId) := by
  have hother (k' : SigV4AccessKeyRecord) : (k' ∈ stored.filter fun k' =>
      k'.tenantId ≠ k.tenantId ∨ k'.accessKeyId ≠ k.accessKeyId) ↔
        k' ∈ stored ∧ service.name k' ≠ service.name k := by
    rw [mem_filter, decide_eq_true_eq, ← not_and_or, ← name_eq_iff]
  refine ⟨h.ordered.step _, forall_mem_cons.2 ⟨⟨bytes, mem_cons_self, hbytes⟩, ?_⟩,
    forall_mem_cons.2 ⟨⟨k, mem_cons_self, rfl, hbytes⟩, ?_⟩, ?_,
    forall_mem_cons.2 ⟨hid, fun k' hk' => h.named k' ((hother k').1 hk').1⟩⟩
  · intro k' hk'
    obtain ⟨hk', hne⟩ := (hother k').1 hk'
    obtain ⟨bytes', hentry, hholds⟩ := h.entry k' hk'
    exact ⟨bytes', mem_cons_of_mem _ (mem_filter.2 ⟨hentry, by simpa using hne⟩), hholds⟩
  · intro e he
    obtain ⟨he, hne⟩ := mem_filter.1 he
    obtain ⟨k', hk', hname, hholds⟩ := h.record e he
    rw [decide_eq_true_eq, hname] at hne
    exact ⟨k', mem_cons_of_mem _ ((hother k').2 ⟨hk', hne⟩), hname, hholds⟩
  · intro t
    rw [Shelf.step, mem_cons, h.opened]
    constructor
    · rintro (hopen | ⟨k', hk', rfl⟩)
      · cases hopen
        exact ⟨k, mem_cons_self, rfl⟩
      · by_cases hname : service.name k' = service.name k
        · exact ⟨k, mem_cons_self, (name_eq_iff.1 hname).1.symm⟩
        · exact ⟨k', mem_cons_of_mem _ ((hother k').2 ⟨hk', hname⟩), rfl⟩
    · rintro ⟨k', hk', rfl⟩
      rcases mem_cons.1 hk' with rfl | hk'
      · exact .inl rfl
      · exact .inr ⟨k', ((hother k').1 hk').1, rfl⟩

/-- A call keeps the shelf and its backend in step. -/
theorem keeps_register (hkeeps : Keeps service shelf stored) (hfollows : Follows shelf config store)
    (call : Registration) :
    ∃ shelf', Keeps service shelf' (register service (store, stored) call).2 ∧
      Follows shelf' config (register service (store, stored) call).1 := by
  simp only [register, registerSigv4AccessKey]
  split
  · exact ⟨shelf, hkeeps, hfollows⟩
  case isFalse hvalid =>
    cases hsealed : service.sealed call with
    | error e => exact ⟨shelf, hkeeps, hfollows⟩
    | ok bytes =>
      have hid : call.record.accessKeyId ≠ "" := fun h => hvalid (.inl (by rw [h]; rfl))
      obtain ⟨hok, hnext⟩ := hfollows.write (service.name call.record) bytes
      refine ⟨_, ?_, hnext⟩
      simp only [hok, Except.isOk, Except.toBool, if_true]
      exact hkeeps.write hid (holds_of_sealed hsealed)

theorem keeps_registered (service : KeyService) (config : Option StorePrefix)
    (calls : List Registration) : ∃ shelf, Keeps service shelf (registered service config calls).2 ∧
      Follows shelf config (registered service config calls).1 := by
  induction calls using List.reverseRecOn with
  | nil =>
    refine ⟨.empty, ⟨⟨nodup_nil, fun _ h => absurd h not_mem_nil⟩, ?_, ?_, ?_, ?_⟩, ?_⟩
    · exact fun _ h => absurd h not_mem_nil
    · exact fun _ h => absurd h not_mem_nil
    · simp [Shelf.empty, registered]
    · exact fun _ h => absurd h not_mem_nil
    · cases config with
      | none => exact .filesystem onDisk_empty
      | some config =>
        have hempty : InBucket .empty ⟨config, []⟩ := ⟨rfl⟩
        exact .s3 hempty
  | append_singleton calls call ih =>
    obtain ⟨shelf, hkeeps, hfollows⟩ := ih
    rw [registered, foldl_append]
    exact keeps_register hkeeps hfollows call

/-! ### What the store lists -/

/-- The directories that are listed are those of the tenants that are asked for. -/
theorem Listing.Of.children_ok (h : l.Of store) (hkeeps : Keeps service shelf stored)
    (hfollows : Follows shelf config store) : ∃ dirs, l.children = .ok dirs ∧
      ∀ t, (∃ dir ∈ dirs, tenantOfDir dir = t) ↔ Scanned service stored t config := by
  have hlisted {dirs : List Text} (hdirs : store.listChildDirs keyKind.text = .ok dirs) :
      ∃ dirs', l.children = .ok dirs' ∧ dirs.Perm dirs' := by
    have hsame := h.children
    rw [hdirs] at hsame
    generalize l.children = children at hsame
    cases hsame with
    | refl => exact ⟨dirs, rfl, .refl _⟩
    | children hperm => exact ⟨_, rfl, hperm⟩
  cases hfollows with
  | filesystem hdisk =>
    obtain ⟨dirs, hdirs, hperm⟩ := hdisk.listChildDirs keyKind
    obtain ⟨dirs', hdirs', hperm'⟩ := hlisted hdirs
    refine ⟨dirs', hdirs', fun t => ?_⟩
    simp only [← hperm'.mem_iff, hperm.mem_iff, OnDisk.mem_childDirs, Scanned]
    constructor
    · rintro ⟨_, ⟨hne, t', hopen, rfl⟩, rfl⟩
      rw [tenantOfDir_dirOf]
      exact ⟨mt dirOf_eq_nil_iff.2 hne, (hkeeps.opened t').1 hopen⟩
    · rintro ⟨hne, hstored⟩
      exact ⟨_, ⟨mt dirOf_eq_nil_iff.1 hne, t, (hkeeps.opened t).2 hstored, rfl⟩,
        tenantOfDir_dirOf t⟩
  | s3 hbucket =>
    obtain ⟨dirs', hdirs', hperm⟩ := hlisted rfl
    refine ⟨dirs', hdirs', fun t => ?_⟩
    simp only [← hperm.mem_iff, hbucket.mem_listChildDirs, Scanned]
    have hscanned (k : SigV4AccessKeyRecord) : tenantOfDir (firstPart (service.name k)) = t ↔
        if k.tenantId.val = "" then t.val = .ofList (service.name k).file.text
        else k.tenantId = t := by
      rw [tenantOfDir_firstPart]
      show (if k.tenantId.val = "" then _ else k.tenantId) = t ↔ _
      split
      · exact ⟨fun heq => heq ▸ rfl, fun heq => congrArg TenantId.mk heq.symm⟩
      · rfl
    constructor
    · rintro ⟨_, ⟨hl, e, he, -, rfl⟩, ht⟩
      obtain ⟨k, hk, hname, -⟩ := hkeeps.record e he
      rw [hname] at ht
      exact ⟨hl, k, hk, (hscanned k).1 ht⟩
    · rintro ⟨hl, k, hk, ht⟩
      obtain ⟨bytes, hentry, -⟩ := hkeeps.entry k hk
      exact ⟨_, ⟨hl, _, hentry, rfl, rfl⟩, (hscanned k).2 ht⟩

theorem mem_listValues (hkeeps : Keeps service shelf stored) (hfollows : Follows shelf config store)
    (t : TenantId) : ∃ values, store.listValues (tenantPrefix keyKind t) = .ok values ∧
      ∀ bytes, bytes ∈ values ↔ ∃ e ∈ shelf.entries, Shown t e.1 config ∧ e.2 = bytes := by
  have hkind : ∀ e ∈ shelf.entries, e.1.kind = keyKind := fun e he => by
    obtain ⟨k, -, hname, -⟩ := hkeeps.record e he
    rw [hname]
    rfl
  cases hfollows with
  | filesystem hdisk =>
    refine ⟨_, hdisk.listValues hkeeps.ordered keyKind t, fun bytes => ?_⟩
    simp only [mem_map, mem_filter, decide_eq_true_eq, Shown]
    constructor
    · rintro ⟨e, ⟨he, -, ht⟩, rfl⟩
      exact ⟨e, he, ht, rfl⟩
    · rintro ⟨e, he, ht, rfl⟩
      exact ⟨e, ⟨he, hkind e he, ht⟩, rfl⟩
  | @s3 bucket hbucket =>
    refine ⟨_, rfl, fun bytes => ?_⟩
    by_cases hl : bucket.config.Listable
    · rw [hbucket.listValues hkeeps.ordered hl]
      simp [Shown, hl, and_assoc]
    · rw [S3ObjectStore.listValues,
        hbucket.listKeys_eq_nil hl (trimMatches_tenantPrefix_ne_nil _ _)]
      simp [Shown, hl]

/-- The values that are listed for a tenant are those of the keys that are shown. -/
theorem Listing.Of.values_ok (h : l.Of store) (hkeeps : Keeps service shelf stored)
    (hfollows : Follows shelf config store) (dir : Text) : ∃ values, l.values dir = .ok values ∧
      (∀ bytes ∈ values, ∃ k ∈ stored,
        Shown (tenantOfDir dir) (service.name k) config ∧ Holds service k bytes) ∧
      ∀ k ∈ stored, Shown (tenantOfDir dir) (service.name k) config →
        ∃ bytes ∈ values, Holds service k bytes := by
  obtain ⟨values, hvalues, hmem⟩ := mem_listValues hkeeps hfollows (tenantOfDir dir)
  have hlisted : ∃ values', l.values dir = .ok values' ∧ values.Perm values' := by
    have hsame := h.values dir
    rw [hvalues] at hsame
    generalize l.values dir = listed at hsame
    cases hsame with
    | refl => exact ⟨values, rfl, .refl _⟩
    | values hperm => exact ⟨_, rfl, hperm⟩
  obtain ⟨values', hvalues', hperm⟩ := hlisted
  simp only [hperm.mem_iff] at hmem
  refine ⟨values', hvalues', fun bytes hbytes => ?_, fun k hk hshown => ?_⟩
  · obtain ⟨e, he, hshown, rfl⟩ := (hmem bytes).1 hbytes
    obtain ⟨k, hk, hname, hholds⟩ := hkeeps.record e he
    exact ⟨k, hk, hname ▸ hshown, hholds⟩
  · obtain ⟨bytes, hentry, hholds⟩ := hkeeps.entry k hk
    exact ⟨bytes, (hmem bytes).2 ⟨_, hentry, hshown, rfl⟩, hholds⟩

/-! ### What a lookup finds -/

theorem exists_mapM_iff {α β ε : Type} {f : α → Except ε β} {xs : List α} :
    (∃ ys, xs.mapM f = .ok ys) ↔ ∀ x ∈ xs, ∃ y, f x = .ok y := by
  induction xs with
  | nil => exact iff_of_true ⟨[], rfl⟩ fun _ hx => absurd hx not_mem_nil
  | cons x xs ih =>
    rw [forall_mem_cons, ← ih]
    simp only [mapM_cons, except_bind_eq_ok, except_pure, Except.ok.injEq]
    grind

theorem mem_of_mapM {α β ε : Type} {f : α → Except ε β} {xs : List α} {ys : List β}
    (h : xs.mapM f = .ok ys) {y : β} : y ∈ ys ↔ ∃ x ∈ xs, f x = .ok y := by
  induction xs generalizing ys with
  | nil =>
    cases h
    simp
  | cons x xs ih =>
    simp only [mapM_cons, except_bind_eq_ok, except_pure, Except.ok.injEq] at h
    obtain ⟨first, hfirst, rest, hrest, rfl⟩ := h
    rw [mem_cons, ih hrest, exists_mem_cons_iff, hfirst, Except.ok.injEq, eq_comm]

/-- What is listed for a tenant is opened if all of it is the tenant's. -/
theorem listEncryptedJson_eq_ok {t : TenantId} {values : List Value}
    (hvalues : ∀ bytes ∈ values, ∃ k ∈ stored, Shown t (service.name k) config ∧
      Holds service k bytes)
    (hshown : ∀ k ∈ stored, Shown t (service.name k) config → ∃ bytes ∈ values,
      Holds service k bytes) :
    ((∃ keys, listEncryptedJson service t (.ok values) = .ok keys) ↔
      ∀ k ∈ stored, Shown t (service.name k) config → k.tenantId = t) ∧
    ∀ keys, listEncryptedJson service t (.ok values) = .ok keys → ∀ k,
      k ∈ keys ↔ k ∈ stored ∧ Shown t (service.name k) config := by
  have hown {k : SigV4AccessKeyRecord} {bytes : Value} (hholds : Holds service k bytes) :
      (∃ item, service.opened t bytes = .ok item) ↔ k.tenantId = t := by
    constructor
    · rintro ⟨item, hitem⟩
      by_contra hne
      obtain ⟨e, herror⟩ := hholds.other t (Ne.symm hne)
      rw [herror] at hitem
      cases hitem
    · rintro rfl
      exact ⟨_, hholds.own⟩
  have hopened : (∃ keys, listEncryptedJson service t (.ok values) = .ok keys) ↔
      ∀ bytes ∈ values, ∃ item, service.opened t bytes = .ok item := by
    rw [← exists_mapM_iff]
    simp [listEncryptedJson, except_bind_eq_ok]
  constructor
  · rw [hopened]
    constructor
    · intro h k hk hs
      obtain ⟨bytes, hbytes, hholds⟩ := hshown k hk hs
      exact (hown hholds).1 (h bytes hbytes)
    · intro h bytes hbytes
      obtain ⟨k, hk, hs, hholds⟩ := hvalues bytes hbytes
      exact (hown hholds).2 (h k hk hs)
  · intro keys hkeys k
    have hall := hopened.1 ⟨keys, hkeys⟩
    simp only [listEncryptedJson, except_ok_bind, except_bind_eq_ok, except_pure,
      Except.ok.injEq] at hkeys
    obtain ⟨items, hitems, rfl⟩ := hkeys
    simp only [mem_filterMap, id_eq, exists_eq_right, mem_of_mapM hitems]
    constructor
    · rintro ⟨bytes, hbytes, hitem⟩
      obtain ⟨k', hk', hs, hholds⟩ := hvalues bytes hbytes
      obtain rfl := (hown hholds).1 ⟨_, hitem⟩
      rw [hholds.own] at hitem
      cases hitem
      exact ⟨hk', hs⟩
    · rintro ⟨hk, hs⟩
      obtain ⟨bytes, hbytes, hholds⟩ := hshown k hk hs
      obtain rfl := (hown hholds).1 (hall bytes hbytes)
      exact ⟨bytes, hbytes, hholds.own⟩

/-- A key is shown to its tenant, if anything is. -/
theorem shown_own (h : Scanned service stored k.tenantId config) :
    Shown k.tenantId (service.name k) config := by
  cases config with
  | none => rfl
  | some config => exact ⟨h.1, prefix_objectText (service.name k)⟩

/-- **What a lookup goes through.**  The keys are listed if the store lists for no tenant what is
another's; those of the tenants that are asked for are then found. -/
theorem listAllAccessKeys_eq_ok (h : l.Of store) (hkeeps : Keeps service shelf stored)
    (hfollows : Follows shelf config store) :
    ((∃ keys, listAllAccessKeys service l = .ok keys) ↔ Readable service stored config) ∧
    ∀ keys, listAllAccessKeys service l = .ok keys → ∀ k,
      k ∈ keys ↔ k ∈ stored ∧ Scanned service stored k.tenantId config := by
  obtain ⟨dirs, hdirs, hscanned⟩ := h.children_ok hkeeps hfollows
  have hjson (dir : Text) : ∃ values, l.values dir = .ok values ∧
      ((∃ keys, listEncryptedJson service (tenantOfDir dir) (.ok values) = .ok keys) ↔
        ∀ k ∈ stored, Shown (tenantOfDir dir) (service.name k) config →
          k.tenantId = tenantOfDir dir) ∧
      ∀ keys, listEncryptedJson service (tenantOfDir dir) (.ok values) = .ok keys → ∀ k,
        k ∈ keys ↔ k ∈ stored ∧ Shown (tenantOfDir dir) (service.name k) config := by
    obtain ⟨values, hvalues, hheld, hshown⟩ := h.values_ok hkeeps hfollows dir
    exact ⟨values, hvalues, listEncryptedJson_eq_ok hheld hshown⟩
  have hlisted : (∃ keys, listAllAccessKeys service l = .ok keys) ↔
      ∀ dir ∈ dirs, ∃ keys, listEncryptedJson service (tenantOfDir dir) (l.values dir) =
        .ok keys := by
    rw [← exists_mapM_iff]
    simp [listAllAccessKeys, hdirs, except_bind_eq_ok]
  have hreadable : (∃ keys, listAllAccessKeys service l = .ok keys) ↔
      Readable service stored config := by
    rw [hlisted]
    constructor
    · intro hall t ht k hk hs
      obtain ⟨dir, hdir, rfl⟩ := (hscanned t).2 ht
      obtain ⟨values, hvalues, hok, -⟩ := hjson dir
      exact hok.1 (hvalues ▸ hall dir hdir) k hk hs
    · intro hall dir hdir
      obtain ⟨values, hvalues, hok, -⟩ := hjson dir
      rw [hvalues]
      exact hok.2 (hall _ ((hscanned _).1 ⟨dir, hdir, rfl⟩))
  refine ⟨hreadable, fun keys hkeys k => ?_⟩
  have hread := hreadable.1 ⟨keys, hkeys⟩
  simp only [listAllAccessKeys, hdirs, except_ok_bind, except_bind_eq_ok, except_pure,
    Except.ok.injEq] at hkeys
  obtain ⟨records, hrecords, rfl⟩ := hkeys
  simp only [mem_filter, mem_flatten, mem_of_mapM hrecords, decide_eq_true_eq]
  constructor
  · rintro ⟨⟨keys, ⟨dir, hdir, hkeys⟩, hk⟩, -⟩
    obtain ⟨values, hvalues, -, hmem⟩ := hjson dir
    rw [hvalues] at hkeys
    obtain ⟨hk, hs⟩ := (hmem keys hkeys k).1 hk
    have hdirScanned := (hscanned _).1 ⟨dir, hdir, rfl⟩
    rw [hread _ hdirScanned k hk hs]
    exact ⟨hk, hdirScanned⟩
  · rintro ⟨hk, ht⟩
    obtain ⟨dir, hdir, hdirTenant⟩ := (hscanned _).2 ht
    obtain ⟨values, hvalues, hok, hmem⟩ := hjson dir
    obtain ⟨keys, hkeys⟩ := hok.2 (hread _ (hdirTenant ▸ ht))
    refine ⟨⟨keys, ⟨dir, hdir, hvalues ▸ hkeys⟩, (hmem keys hkeys k).2 ⟨hk, ?_⟩⟩, hkeeps.named k hk⟩
    rw [hdirTenant]
    exact shown_own ht

variable {d : S3Deployment}

theorem lookupIn_eq_ok : lookupIn service d l id = .ok k ↔ ∃ keys,
    listAllAccessKeys service l = .ok keys ∧
      keys.find? (fun k => k.accessKeyId = id ∧ k.enabled) = some k := by
  simp only [lookupIn, sigv4AccessKey, except_bind_eq_ok]
  refine exists_congr fun keys => and_congr_right fun _ => ?_
  cases keys.find? fun k => k.accessKeyId = id ∧ k.enabled <;> simp

/-- A lookup finds nothing but keys that are in use. -/
theorem found_of_lookupIn (h : l.Of store) (hkeeps : Keeps service shelf stored)
    (hfollows : Follows shelf config store) (hk : lookupIn service d l id = .ok k) :
    Found stored id k ∧ Readable service stored config ∧
      Scanned service stored k.tenantId config := by
  obtain ⟨keys, hkeys, hfind⟩ := lookupIn_eq_ok.1 hk
  obtain ⟨hreadable, hmem⟩ := listAllAccessKeys_eq_ok h hkeeps hfollows
  obtain ⟨hstored, hscanned⟩ := (hmem keys hkeys k).1 (mem_of_find?_eq_some hfind)
  exact ⟨⟨hstored, by simpa using find?_some hfind⟩, hreadable.1 ⟨keys, hkeys⟩, hscanned⟩

theorem lookupIn_of_reliable (h : l.Of store) (hkeeps : Keeps service shelf stored)
    (hfollows : Follows shelf config store) (hk : Found stored id k)
    (hreliable : Reliable service stored config k) : lookupIn service d l id = .ok k := by
  obtain ⟨hreadable, hmem⟩ := listAllAccessKeys_eq_ok h hkeeps hfollows
  obtain ⟨keys, hkeys⟩ := hreadable.2 hreliable.readable
  cases hfind : keys.find? fun k => k.accessKeyId = id ∧ k.enabled with
  | none =>
    have hnot := find?_eq_none.1 hfind k ((hmem keys hkeys k).2 ⟨hk.1, hreliable.scanned⟩)
    exact absurd (decide_eq_true hk.2) hnot
  | some k' =>
    have hlookup : lookupIn service d l id = .ok k' := lookupIn_eq_ok.2 ⟨keys, hkeys, hfind⟩
    obtain ⟨hk', -⟩ := found_of_lookupIn h hkeeps hfollows hlookup
    have howner := hreliable.owner k' (hk.2.1 ▸ hk')
    rw [hlookup, hkeeps.unique hk'.1 hk.1 howner (hk'.2.1.trans hk.2.1.symm)]

theorem mem_registered_append {calls : List Registration} {call : Registration}
    (hk : k ∈ (registered service config calls).2) (ht : k.tenantId ≠ call.record.tenantId) :
    k ∈ (registered service config (calls ++ [call])).2 := by
  rw [registered, foldl_append]
  simp only [foldl_cons, foldl_nil, register]
  split
  · exact mem_cons_of_mem _ (mem_filter.2 ⟨hk, by simp [ht]⟩)
  · exact hk

/-- The store lists something. -/
theorem exists_listing (store : StoreBackend) : ∃ l : Listing, l.Of store :=
  ⟨⟨_, fun dir => store.listValues (tenantPrefix keyKind (tenantOfDir dir))⟩, .refl _,
    fun _ => .refl _⟩

end Store

/-- **Stable lookups.**  After every call of a sequence the lookup returns the key that is in use
under the identifier, in every order, and a call for another tenant does not change it, if and only
if the keys in use under the identifier are reliable at all times: the store lists no envelope of
another tenant, it lists the tenant of the key, and no other tenant uses the identifier. -/
theorem accessKey_stable_iff (service : KeyService) (config : Option StorePrefix)
    (d : S3Deployment) (calls : List Registration) (id : String) :
    (∀ before, before <+: calls →
      (∀ l k, l.Of (registered service config before).1 →
        (lookupIn service d l id = .ok k ↔ Found (registered service config before).2 id k)) ∧
      ∀ call k l l', before ++ [call] <+: calls → Found (registered service config before).2 id k →
        k.tenantId ≠ call.record.tenantId → l.Of (registered service config before).1 →
        l'.Of (registered service config (before ++ [call])).1 →
          lookupIn service d l' id = lookupIn service d l id) ↔
      ∀ before, before <+: calls → ∀ k, Found (registered service config before).2 id k →
        Reliable service (registered service config before).2 config k := by
  constructor
  · intro h before hbefore k hk
    obtain ⟨shelf, hkeeps, hfollows⟩ := keeps_registered service config before
    obtain ⟨l, hl⟩ := exists_listing (registered service config before).1
    have hlookup := ((h before hbefore).1 l k hl).2 hk
    obtain ⟨-, hreadable, hscanned⟩ := found_of_lookupIn hl hkeeps hfollows hlookup
    refine ⟨hreadable, hscanned, fun k' hk' => ?_⟩
    rw [hk.2.1] at hk'
    rw [((h before hbefore).1 l k' hl).2 hk'] at hlookup
    cases hlookup
    rfl
  · intro h before hbefore
    have hlookup {before : List Registration} (hbefore : before <+: calls) {l : Listing}
        (hl : l.Of (registered service config before).1) {k : SigV4AccessKeyRecord}
        (hk : Found (registered service config before).2 id k) :
        lookupIn service d l id = .ok k := by
      obtain ⟨shelf, hkeeps, hfollows⟩ := keeps_registered service config before
      exact lookupIn_of_reliable hl hkeeps hfollows hk (h before hbefore k hk)
    refine ⟨fun l k hl => ⟨fun hk => ?_, hlookup hbefore hl⟩, ?_⟩
    · obtain ⟨shelf, hkeeps, hfollows⟩ := keeps_registered service config before
      exact (found_of_lookupIn hl hkeeps hfollows hk).1
    · intro call k l l' hcall hk ht hl hl'
      rw [hlookup hbefore hl hk, hlookup hcall hl' ⟨mem_registered_append hk.1 ht, hk.2⟩]

namespace Sample

open Hsp.Sample
open Crypto.Sample (delimited delimited_append_inj primitives kms)

/-! ### Two tenants with one identifier -/

/-- Fields, each told from what follows it. -/
def writeFields (fields : List (List UInt8)) : List UInt8 := fields.flatMap delimited

theorem writeFields_injective : Function.Injective writeFields := by
  have hne (field rest : List UInt8) : delimited field ++ rest ≠ [] := by
    cases field <;> simp [delimited]
  intro a b h
  induction a generalizing b with
  | nil =>
    cases b with
    | nil => rfl
    | cons y b => exact absurd h.symm (hne y _)
  | cons x a ih =>
    cases b with
    | nil => exact absurd h (hne x _)
    | cons y b =>
      obtain ⟨rfl, hrest⟩ := delimited_append_inj h
      rw [ih hrest]

/-- A field that may be missing. -/
def optionField : Option (List UInt8) → List UInt8
  | none => []
  | some field => 1 :: field

theorem optionField_inj {a b : Option (List UInt8)} (h : optionField a = optionField b) :
    a = b := by
  cases a <;> cases b <;> simp_all [optionField]

theorem beBytes_toNat_inj {a b : UInt64} (h : beBytes 8 a.toNat = beBytes 8 b.toNat) : a = b := by
  have hvalue := congrArg ofBe h
  have ha := a.toNat_lt
  have hb := b.toNat_lt
  rw [ofBe_beBytes, ofBe_beBytes] at hvalue
  exact UInt64.toNat_inj.1 (by omega)

def recordFields (k : SigV4AccessKeyRecord) : List (List UInt8) :=
  [utf8 k.accessKeyId, utf8 k.secretAccessKey, utf8 k.tenantId.val,
    optionField (k.namespacePrefix.map utf8), optionField (k.pathPrefix.map utf8),
    optionField (k.maxObjectSize.map fun n => beBytes 8 n.toNat), utf8 k.keyPolicyId.val,
    utf8 k.metadataVisibility.asStr, if k.enabled then [1] else [0]] ++ k.storageClasses.map utf8

theorem recordFields_injective : Function.Injective recordFields := by
  have hutf8 : Function.Injective utf8 := fun _ _ => utf8_inj
  have hsize : Function.Injective fun n : UInt64 => beBytes 8 n.toNat := fun _ _ =>
    beBytes_toNat_inj
  rintro ⟨_, _, ⟨_⟩, _, _, _, _, ⟨_⟩, _, _⟩ ⟨_, _, ⟨_⟩, _, _, _, _, ⟨_⟩, _, _⟩ h
  simp only [recordFields, cons_append, nil_append, cons.injEq] at h
  obtain ⟨hid, hsecret, htenant, hns, hpath, hmax, hpolicy, hvisible, henabled, hclasses⟩ := h
  cases utf8_inj hid
  cases utf8_inj hsecret
  cases utf8_inj htenant
  cases Option.map_injective hutf8 (optionField_inj hns)
  cases Option.map_injective hutf8 (optionField_inj hpath)
  cases Option.map_injective hsize (optionField_inj hmax)
  cases utf8_inj hpolicy
  cases VisibilityMode.asStr_injective (utf8_inj hvisible)
  cases map_injective_iff.2 hutf8 hclasses
  congr
  split at henabled <;> split at henabled <;> simp_all

def envelopeFields (e : StoredEnvelope) : List (List UInt8) :=
  [beBytes 8 e.keyVersion.toUInt64.toNat, utf8 e.tenantId, utf8 e.storeKind, utf8 e.wrappedDekB64,
    utf8 e.wrapNonceB64, utf8 e.dataNonceB64, utf8 e.ciphertextB64]

theorem envelopeFields_injective : Function.Injective envelopeFields := by
  rintro ⟨_, _, _, _, _, _, _⟩ ⟨_, _, _, _, _, _, _⟩ h
  simp only [envelopeFields, cons.injEq, and_true] at h
  obtain ⟨hversion, htenant, hkind, hdek, hwrap, hdata, htext⟩ := h
  cases UInt32.toUInt64_inj.1 (beBytes_toNat_inj hversion)
  cases utf8_inj htenant
  cases utf8_inj hkind
  cases utf8_inj hdek
  cases utf8_inj hwrap
  cases utf8_inj hdata
  cases utf8_inj htext
  rfl

noncomputable def keyService : KeyService where
  deployment := deployment [] [] 0
  primitives := primitives
  kms := kms
  recordToJson := writeFields ∘ recordFields
  recordFromJson := Function.partialInv (writeFields ∘ recordFields)
  record_round_trip := Function.partialInv_left (writeFields_injective.comp recordFields_injective)
  envelopeToJson := writeFields ∘ envelopeFields
  envelopeFromJson bytes :=
    match Function.partialInv (writeFields ∘ envelopeFields) bytes with
    | some envelope => .ok envelope
    | none => .error "expected value"
  envelope_round_trip envelope := by
    rw [Function.partialInv_left (writeFields_injective.comp envelopeFields_injective)]
  sha256_injective := Function.injective_id

/-- A registration of the key `k` for a tenant. -/
def registration (tenant : String) : Registration where
  record := ⟨"k", "s", ⟨tenant⟩, none, none, none, [], ⟨"p"⟩, .split, true⟩
  random := ⟨⟨List.replicate 32 1, rfl⟩, ⟨List.replicate 12 1, rfl⟩, ⟨List.replicate 12 1, rfl⟩⟩

/-- The directory with the keys of two tenants. -/
noncomputable def twoTenants : StoreBackend × List SigV4AccessKeyRecord :=
  registered keyService none [registration "a", registration "b"]

/-- The directories are listed in some order. -/
def listingOf (store : StoreBackend) (dirs : List Text) : Listing where
  children := .ok dirs
  values dir := store.listValues (tenantPrefix keyKind (tenantOfDir dir))

theorem listingOf_of {store : StoreBackend} {dirs dirs' : List Text}
    (h : store.listChildDirs keyKind.text = .ok dirs) (hperm : dirs.Perm dirs') :
    (listingOf store dirs').Of store := by
  refine ⟨?_, fun dir => .refl _⟩
  rw [h]
  exact .children hperm

theorem listValues_twoTenants (tenant : String) (h : tenant = "a" ∨ tenant = "b") :
    ∃ bytes, twoTenants.1.listValues (tenantPrefix keyKind ⟨tenant⟩) = .ok [bytes] ∧
      Holds keyService (registration tenant).record bytes := by
  have hsealed : ∃ bytes, keyService.sealed (registration tenant) = .ok bytes ∧
      twoTenants.1.listValues (tenantPrefix keyKind ⟨tenant⟩) = .ok [bytes] := by
    rcases h with rfl | rfl <;> exact ⟨_, rfl, rfl⟩
  obtain ⟨bytes, hbytes, hvalues⟩ := hsealed
  exact ⟨bytes, hvalues, holds_of_sealed hbytes⟩

/-- The one that is listed first is found. -/
theorem lookupIn_listingOf {first second : String} (hfirst : first = "a" ∨ first = "b")
    (hsecond : second = "a" ∨ second = "b") :
    lookupIn keyService s3Deployment (listingOf twoTenants.1 [dirOf ⟨first⟩, dirOf ⟨second⟩]) "k" =
      .ok (registration first).record := by
  obtain ⟨bytes, hvalues, hheld⟩ := listValues_twoTenants first hfirst
  obtain ⟨bytes', hvalues', hheld'⟩ := listValues_twoTenants second hsecond
  refine lookupIn_eq_ok.2 ⟨[(registration first).record, (registration second).record], ?_, rfl⟩
  have hown : keyService.opened ⟨first⟩ bytes = .ok (some (registration first).record) := hheld.own
  have hown' : keyService.opened ⟨second⟩ bytes' = .ok (some (registration second).record) :=
    hheld'.own
  simp [listAllAccessKeys, listingOf, listEncryptedJson, tenantOfDir_dirOf, hvalues, hvalues',
    hown, hown', registration]

/-- **Two tenants have registered keys of one identifier**, and which of them is found depends on
the order in which their directories are listed. -/
theorem lookup_in_two_orders :
    (listingOf twoTenants.1 [dirOf ⟨"a"⟩, dirOf ⟨"b"⟩]).Of twoTenants.1 ∧
    (listingOf twoTenants.1 [dirOf ⟨"b"⟩, dirOf ⟨"a"⟩]).Of twoTenants.1 ∧
    lookupIn keyService s3Deployment (listingOf twoTenants.1 [dirOf ⟨"a"⟩, dirOf ⟨"b"⟩]) "k" =
      .ok (registration "a").record ∧
    lookupIn keyService s3Deployment (listingOf twoTenants.1 [dirOf ⟨"b"⟩, dirOf ⟨"a"⟩]) "k" =
      .ok (registration "b").record := by
  have hdirs : twoTenants.1.listChildDirs keyKind.text = .ok [dirOf ⟨"b"⟩, dirOf ⟨"a"⟩] := rfl
  exact ⟨listingOf_of hdirs (.swap _ _ _), listingOf_of hdirs (.refl _),
    lookupIn_listingOf (.inl rfl) (.inr rfl), lookupIn_listingOf (.inr rfl) (.inl rfl)⟩

end Sample

end Hsp.S3
