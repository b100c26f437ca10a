import Hsp.Distribution.Scope
import Hsp.Service.StoreKey
import Mathlib.Data.List.DropRight
import Mathlib.Data.List.Dedup

/-!
# Storage backends

`StoreBackend` of the source keeps values under keys such as `kind/tenant/file`, either in the
directories of a filesystem or in a bucket of an S3 server.  Both are modelled on the texts of the
keys and prefixes they are called with.  The filesystem has no limits of its own, and the S3 server
answers correctly; how requests to it are signed, and its answers written, is left out.  A prefix
with dot segments is left out too: the signature is made before they are resolved, and is wrong.

A `StoreCall` is a call as the services make it: with the key of an entry, the prefix of the
directory of a tenant, or the name of a store kind.
-/

namespace Hsp.Backend

open String (toList_append toList_ofList)

/-- A text, as a list of characters. -/
abbrev Text := List Char

abbrev Value := List UInt8

/-! ### Tables -/

section Table

variable {κ : Type} [DecidableEq κ]

/-- The table with a value under a key. -/
def put (k : κ) (v : Value) (table : List (κ × Value)) : List (κ × Value) :=
  (k, v) :: table.filter (·.1 ≠ k)

/-- The table without a key. -/
def remove (k : κ) (table : List (κ × Value)) : List (κ × Value) := table.filter (·.1 ≠ k)

end Table

/-! ### The filesystem -/

/-- The components of a path below the root directory. -/
abbrev Path := List Text

structure Filesystem where
  files : List (Path × Value)
  dirs : List Path

/-- `root_dir.join(key)`: repeated and trailing slashes do not count. -/
def join (key : Text) : Path := (key.splitOn '/').filter (· ≠ [])

namespace Filesystem

variable (fs : Filesystem)

def isFile (path : Path) : Bool := (fs.files.lookup path).isSome

def isDir (path : Path) : Bool := fs.dirs.contains path

def «exists» (path : Path) : Bool := fs.isFile path || fs.isDir path

/-- `fs::read`. -/
def readFile (path : Path) : Except ApiError Value :=
  match fs.files.lookup path with
  | some bytes => .ok bytes
  | none => .error ⟨.storage, "store_read_failed", "Is a directory"⟩

/-- `fs::create_dir_all`. -/
def createDirAll (path : Path) : Except ApiError Filesystem :=
  if path.inits.any fs.isFile then .error ⟨.storage, "mkdir_failed", "Not a directory"⟩
  else .ok { fs with dirs := path.inits ∪ fs.dirs }

/-- The names of what is directly in a directory. -/
def children (path : Path) (found : List Path) : List Text :=
  found.filterMap fun entry => if entry ≠ [] ∧ entry.dropLast = path then entry.getLast? else none

/-- What the backend does, with the filesystem after it. -/
abbrev Step (α : Type) := Except ApiError α × Filesystem

def ensureStoreRoots : Filesystem → List Text → Step Unit
  | fs, [] => (.ok (), fs)
  | fs, storeKind :: storeKinds =>
    match fs.createDirAll (join storeKind) with
    | .error e => (.error e, fs)
    | .ok fs => ensureStoreRoots fs storeKinds

def read (key : Text) : Step (Option Value) :=
  if !fs.exists (join key) then (.ok none, fs)
  else (some <$> fs.readFile (join key), fs)

def write (key : Text) (bytes : Value) : Step Unit :=
  match fs.createDirAll (join key).dropLast with
  | .error e => (.error e, fs)
  | .ok fs =>
    if fs.isDir (join key) then (.error ⟨.storage, "store_write_failed", "Is a directory"⟩, fs)
    else (.ok (), { fs with files := put (join key) bytes fs.files })

def create (key : Text) (bytes : Value) : Step Bool :=
  match fs.createDirAll (join key).dropLast with
  | .error e => (.error e, fs)
  | .ok fs =>
    -- `create_new` fails on whatever is there already.
    if fs.exists (join key) then (.ok false, fs)
    else (.ok true, { fs with files := put (join key) bytes fs.files })

def delete (key : Text) : Step Unit :=
  if !fs.exists (join key) then (.ok (), fs)
  else if fs.isDir (join key) then
    (.error ⟨.storage, "store_delete_failed", "Is a directory"⟩, fs)
  else (.ok (), { fs with files := remove (join key) fs.files })

def listValues (pathPrefix : Text) : Except ApiError (List Value) :=
  if !fs.exists (join pathPrefix) then .ok []
  else if fs.isFile (join pathPrefix) then
    .error ⟨.storage, "store_read_failed", "Not a directory"⟩
  else .ok ((fs.files.filter fun f => f.1 ≠ [] ∧ f.1.dropLast = join pathPrefix).map (·.2))

def listChildDirs (pathPrefix : Text) : Except ApiError (List Text) :=
  if !fs.exists (join pathPrefix) then .ok []
  else if fs.isFile (join pathPrefix) then
    .error ⟨.storage, "store_read_failed", "Not a directory"⟩
  else .ok (children (join pathPrefix) fs.dirs)

end Filesystem

/-! ### The object store -/

/-- `trim_start_matches('/')`. -/
def trimStart (text : Text) : Text := text.dropWhile (· == '/')

/-- `trim_matches('/')`. -/
def trimMatches (text : Text) : Text := (trimStart text).rdropWhile (· == '/')

def normalizeStorePrefix (storePrefix : Text) : Text :=
  let trimmed := trimMatches ((storePrefix.dropWhile isWhitespace).rdropWhile isWhitespace)
  if trimmed = [] then [] else trimmed ++ ['/']

/-- `strip_prefix`. -/
def stripPrefix (start text : Text) : Option Text :=
  if start.isPrefixOf text then some (text.drop start.length) else none

/-- The prefix a store is configured with. -/
structure StorePrefix where
  text : Text
  noDots : ∀ part ∈ join (normalizeStorePrefix text), part ≠ ['.'] ∧ part ≠ ['.', '.']

/-- The prefix without its outer slashes. -/
def StorePrefix.trimmed (config : StorePrefix) : Text :=
  trimMatches (normalizeStorePrefix config.text)

/-- The bucket of an S3 server, with the prefix of the store. -/
structure S3ObjectStore where
  config : StorePrefix
  objects : List (Text × Value)

namespace S3ObjectStore

variable (s3 : S3ObjectStore)

def backendKey (key : Text) : Text :=
  let trimmed := trimMatches key
  if s3.config.trimmed = [] then trimmed
  else if trimmed = [] then s3.config.trimmed
  else s3.config.trimmed ++ '/' :: trimmed

def stripBackendPrefix (key : Text) : Text :=
  if s3.config.trimmed = [] then trimStart key
  else trimStart ((stripPrefix s3.config.trimmed (trimStart key)).getD key)

/-- The object a request is for: `encode_s3_key_path` leaves out the empty parts of the path, and
what it encodes is decoded by the server. -/
def objectKey (key : Text) : Text := ['/'].intercalate (join (s3.backendKey key))

/-- The pages of the answer to a list request: as long as an answer is truncated, the keys that
follow are asked for. -/
def listPages (maxKeys : ℕ+) (keys : List Text) : List Text :=
  if keys.length ≤ maxKeys then keys
  else keys.take maxKeys ++ listPages maxKeys (keys.drop maxKeys)
termination_by keys.length
decreasing_by
  have := maxKeys.pos
  simp only [List.length_drop]
  omega

/-- The listing is asked for with the prefix as it is, its empty parts included. -/
def listKeys (keyPrefix : Text) : List Text :=
  (listPages 1000 ((s3.objects.map (·.1)).filter (s3.backendKey keyPrefix).isPrefixOf)).map
    s3.stripBackendPrefix

def headObject (key : Text) : Bool := (s3.objects.lookup (s3.objectKey key)).isSome

def getObject (key : Text) : Option Value := s3.objects.lookup (s3.objectKey key)

/-- `put_object`, with `if-none-match` if the object must not be there. -/
def putObject (key : Text) (bytes : Value) (onlyIfAbsent : Bool) : Bool × S3ObjectStore :=
  if onlyIfAbsent && (s3.objects.lookup (s3.objectKey key)).isSome then (false, s3)
  else (true, { s3 with objects := put (s3.objectKey key) bytes s3.objects })

def deleteObject (key : Text) : S3ObjectStore :=
  { s3 with objects := remove (s3.objectKey key) s3.objects }

def listValues (keyPrefix : Text) : List Value := (s3.listKeys keyPrefix).filterMap s3.getObject

/-- The first component of what follows the prefix, unless it is empty. -/
def childOf (normalizedPrefix key : Text) : Option Text := do
  let rest ← stripPrefix normalizedPrefix key
  ((rest.splitOn '/').head?).filter (· ≠ [])

/-- The children are collected in a set. -/
def listChildDirs (keyPrefix : Text) : List Text :=
  let normalizedPrefix := normalizeStorePrefix keyPrefix
  ((s3.listKeys normalizedPrefix).filterMap (childOf normalizedPrefix)).dedup

end S3ObjectStore

/-! ### Calls of the services -/

/-- The store kinds of the two services. -/
inductive StoreKind where
  | chunks | manifests | namespaceCurrent | namespaceJournal | namespaceRevisions | sessions | audit
  | idempotency | replay | events | bucketRegistry | distributionMetadata | multipartSessions
  | multipartParts | presignAudit | acl | lifecycle | objectLock | website | replication
  | workerCursor
  deriving DecidableEq

def StoreKind.asStr : StoreKind → String
  | .chunks => "chunks"
  | .manifests => "manifests"
  | .namespaceCurrent => "namespace-current"
  | .namespaceJournal => "namespace-journal"
  | .namespaceRevisions => "namespace-revisions"
  | .sessions => "sessions"
  | .audit => "audit"
  | .idempotency => "idempotency"
  | .replay => "replay"
  | .events => "events"
  | .bucketRegistry => "bucket-registry"
  | .distributionMetadata => "distribution-metadata"
  | .multipartSessions => "multipart-sessions"
  | .multipartParts => "multipart-parts"
  | .presignAudit => "presign-audit"
  | .acl => "acl"
  | .lifecycle => "lifecycle"
  | .objectLock => "object-lock"
  | .website => "website"
  | .replication => "replication"
  | .workerCursor => "worker-cursor"

/-- The name of a file: a digest with the suffix `.json.enc`. -/
structure FileName where
  text : Text
  slash : '/' ∉ text
  dot : '.' ∈ text
  deriving DecidableEq

/-- The file `AlphaService` keeps a key in. -/
def FileName.alpha (env : Env) (key : String) : FileName where
  text := (storeFileName env key).toList
  slash := by
    have hdigest : '/' ∉ (env.digest (utf8 key)).toList := fun h =>
      absurd (env.digest_alphabet _ _ h) (by decide)
    simpa [storeFileName, cidFromBytes, toList_append] using hdigest
  dot := by simp [storeFileName, toList_append]

/-- The file `DistributionService` keeps a key in. -/
def FileName.distribution (d : Distribution.Deployment) (key : String) : FileName where
  text := (Distribution.hexSha256 d (utf8 key) ++ ".json.enc").toList
  slash := by
    have hdigit : ∀ n : Fin 16, (if n.val < 10 then Char.ofNat (48 + n) else Char.ofNat (87 + n)) ≠
        '/' := by decide
    have hhex : '/' ∉ (Distribution.hexSha256 d (utf8 key)).toList := by
      simp only [Distribution.hexSha256, Distribution.hexLower, toList_ofList,
        List.mem_flatMap, List.mem_cons, List.not_mem_nil, or_false, not_exists, not_and, not_or]
      intro b _
      have hb := b.toNat_lt
      exact ⟨(hdigit ⟨b.toNat / 16, by omega⟩).symm, (hdigit ⟨b.toNat % 16, by omega⟩).symm⟩
    simpa [toList_append] using hhex
  dot := by simp [toList_append]

/-- An entry of the store, as the services name it. -/
structure Name where
  kind : StoreKind
  tenantId : TenantId
  file : FileName
  deriving DecidableEq

def StoreKind.text (kind : StoreKind) : Text := kind.asStr.toList

/-- The directory of a tenant. -/
def dirOf (tenantId : TenantId) : Text := (tenantStoreDir tenantId).toList

def Name.storeKey (n : Name) : Text :=
  n.kind.text ++ '/' :: (dirOf n.tenantId ++ '/' :: n.file.text)

/-- The prefix a tenant's entries of a kind are listed with. -/
def tenantPrefix (kind : StoreKind) (tenantId : TenantId) : Text :=
  kind.text ++ '/' :: (dirOf tenantId ++ ['/'])

/-- A call to the backend. -/
inductive StoreCall where
  | ensureStoreRoots (kinds : List StoreKind)
  | read (n : Name)
  | write (n : Name) (bytes : Value)
  | create (n : Name) (bytes : Value)
  | delete (n : Name)
  | exists (n : Name)
  | listValues (kind : StoreKind) (tenantId : TenantId)
  | listChildDirs (kind : StoreKind)

/-- What a call is answered with. -/
inductive StoreResult where
  | value (result : Except ApiError (Option Value))
  | done (result : Except ApiError Unit)
  | created (result : Except ApiError Bool)
  | found (result : Bool)
  | values (result : Except ApiError (List Value))
  | children (result : Except ApiError (List Text))

def StoreCall.onFilesystem (fs : Filesystem) : StoreCall → StoreResult × Filesystem
  | .ensureStoreRoots kinds =>
    let r := fs.ensureStoreRoots (kinds.map StoreKind.text)
    (.done r.1, r.2)
  | .read n => let r := fs.read n.storeKey; (.value r.1, r.2)
  | .write n bytes => let r := fs.write n.storeKey bytes; (.done r.1, r.2)
  | .create n bytes => let r := fs.create n.storeKey bytes; (.created r.1, r.2)
  | .delete n => let r := fs.delete n.storeKey; (.done r.1, r.2)
  | .exists n => (.found (fs.exists (join n.storeKey)), fs)
  | .listValues kind tenantId => (.values (fs.listValues (tenantPrefix kind tenantId)), fs)
  | .listChildDirs kind => (.children (fs.listChildDirs kind.text), fs)

def StoreCall.onS3 (s3 : S3ObjectStore) : StoreCall → StoreResult × S3ObjectStore
  -- Only the bucket is looked for.
  | .ensureStoreRoots _ => (.done (.ok ()), s3)
  | .read n => (.value (.ok (s3.getObject n.storeKey)), s3)
  | .write n bytes => (.done (.ok ()), (s3.putObject n.storeKey bytes false).2)
  | .create n bytes =>
    let r := s3.putObject n.storeKey bytes true
    (.created (.ok r.1), r.2)
  | .delete n => (.done (.ok ()), s3.deleteObject n.storeKey)
  | .exists n => (.found (s3.headObject n.storeKey), s3)
  | .listValues kind tenantId => (.values (.ok (s3.listValues (tenantPrefix kind tenantId))), s3)
  | .listChildDirs kind => (.children (.ok (s3.listChildDirs kind.text)), s3)

/-- The results of calls that are made one after the other. -/
def runCalls {σ : Type} (step : σ → StoreCall → StoreResult × σ) : σ → List StoreCall →
    List StoreResult
  | _, [] => []
  | s, c :: calls => (step s c).1 :: runCalls step (step s c).2 calls

/-- The same answer, with listings in any order. -/
inductive StoreResult.Same : StoreResult → StoreResult → Prop
  | refl (a : StoreResult) : Same a a
  | values {xs ys : List Value} (h : xs.Perm ys) : Same (.values (.ok xs)) (.values (.ok ys))
  | children {xs ys : List Text} (h : xs.Perm ys) : Same (.children (.ok xs)) (.children (.ok ys))

end Hsp.Backend
