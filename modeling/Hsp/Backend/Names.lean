import Hsp.Backend.Basic
import Hsp.Path.Segments

/-!
# Names as paths and as object keys

What the texts the services build come to in the two backends.

* `join_storeKey`, `join_tenantPrefix` : an entry lies in the directory of its kind and tenant.
* `S3ObjectStore.objectKey_inj` : an object key determines the entry.
* `S3ObjectStore.objectKey_of_listable` : it begins with the configured prefix, if this has no empty
  parts.
* `trimMatches_tenantPrefix` : the prefix of a listing loses its last slash.
-/

namespace Hsp.Backend

open List

/-! ### The parts of a name -/

theorem slash_not_mem_kind (kind : StoreKind) : '/' ∉ kind.text := by
  cases kind <;> decide

theorem dot_not_mem_kind (kind : StoreKind) : '.' ∉ kind.text := by
  cases kind <;> decide

theorem kind_ne_nil (kind : StoreKind) : kind.text ≠ [] := by
  cases kind <;> decide

theorem kind_text_injective : Function.Injective StoreKind.text := by
  intro a b h
  cases a <;> cases b <;> first | rfl | (revert h; decide)

theorem slash_not_mem_dirOf (tenantId : TenantId) : '/' ∉ dirOf tenantId :=
  slash_not_mem_tenantStoreDir tenantId

theorem dot_not_mem_dirOf (tenantId : TenantId) : '.' ∉ dirOf tenantId := by
  rw [dirOf, tenantStoreDir, Base64.encode, String.toList_ofList]
  exact Base64.dot_not_mem_encodeBytes _

theorem dirOf_injective : Function.Injective dirOf := fun _ _ h =>
  tenantStoreDir_inj (String.toList_inj.1 h)

theorem FileName.ne_nil (file : FileName) : file.text ≠ [] := ne_nil_of_mem file.dot

theorem FileName.text_injective : Function.Injective FileName.text := by
  rintro ⟨a, _, _⟩ ⟨b, _, _⟩ h
  cases h
  rfl

/-! ### Paths -/

/-- The directory of a tenant among the entries of a kind. -/
def place (kind : StoreKind) (tenantId : TenantId) : Path :=
  if dirOf tenantId = [] then [kind.text] else [kind.text, dirOf tenantId]

theorem join_of_slash_not_mem {text : Text} (h : '/' ∉ text) (hne : text ≠ []) :
    join text = [text] := by
  rw [join, splitOn_eq_singleton h]
  simp [hne]

theorem join_append_slash (text rest : Text) :
    join (text ++ '/' :: rest) = join text ++ join rest := by
  rw [join, splitOn_append_cons_self, filter_append]
  rfl

theorem mem_join {text part : Text} (h : part ∈ join text) : '/' ∉ part ∧ part ≠ [] := by
  rw [join, mem_filter, decide_eq_true_eq] at h
  refine ⟨?_, h.2⟩
  replace h := h.1
  induction text generalizing part with
  | nil => simp_all [List.splitOn]
  | cons c text ih =>
    obtain ⟨first, others, hsplit⟩ := exists_cons_of_ne_nil (splitOn_ne_nil '/' text)
    rw [splitOn_cons_eq_if_modifyHead, hsplit] at h
    rw [hsplit] at ih
    split at h
    · rcases mem_cons.1 h with rfl | h
      · simp
      · exact ih h
    case isFalse hc =>
      rcases mem_cons.1 h with rfl | h
      · intro hmem
        rcases mem_cons.1 hmem with rfl | hmem
        · exact hc rfl
        · exact ih mem_cons_self hmem
      · exact ih (mem_cons_of_mem _ h)

/-- A path is read back from its text. -/
theorem join_intercalate {path : Path} (h : ∀ part ∈ path, '/' ∉ part ∧ part ≠ []) :
    join (['/'].intercalate path) = path := by
  cases path with
  | nil => rfl
  | cons part path =>
    rw [join, splitOn_intercalate '/' (fun part hpart => (h part hpart).1) (cons_ne_nil _ _)]
    exact filter_eq_self.2 fun part hpart => by simpa using (h part hpart).2

theorem join_kind (kind : StoreKind) : join kind.text = [kind.text] :=
  join_of_slash_not_mem (slash_not_mem_kind kind) (kind_ne_nil kind)

theorem join_dirOf (tenantId : TenantId) :
    join (dirOf tenantId) = if dirOf tenantId = [] then [] else [dirOf tenantId] := by
  split
  case isTrue h => rw [h]; rfl
  case isFalse h => exact join_of_slash_not_mem (slash_not_mem_dirOf _) h

theorem join_storeKey (n : Name) : join n.storeKey = place n.kind n.tenantId ++ [n.file.text] := by
  rw [Name.storeKey, join_append_slash, join_kind, join_append_slash, join_dirOf,
    join_of_slash_not_mem n.file.slash n.file.ne_nil, place]
  split <;> rfl

theorem join_tenantPrefix (kind : StoreKind) (tenantId : TenantId) :
    join (tenantPrefix kind tenantId) = place kind tenantId := by
  rw [tenantPrefix, join_append_slash, join_kind, join_append_slash, join_dirOf, place]
  split <;> simp [join, List.splitOn]

theorem dot_not_mem_place {kind : StoreKind} {tenantId : TenantId} {part : Text}
    (h : part ∈ place kind tenantId) : '.' ∉ part := by
  have hparts : part = kind.text ∨ part = dirOf tenantId := by
    rw [place] at h
    split at h <;> simp_all
  rcases hparts with rfl | rfl
  · exact dot_not_mem_kind kind
  · exact dot_not_mem_dirOf tenantId

theorem place_inj {k k' : StoreKind} {t t' : TenantId} (h : place k t = place k' t') :
    k = k' ∧ t = t' := by
  unfold place at h
  split at h <;> split at h <;> simp at h
  case isTrue.isTrue ht ht' =>
    exact ⟨kind_text_injective h, dirOf_injective (ht.trans ht'.symm)⟩
  case isFalse.isFalse => exact ⟨kind_text_injective h.1, dirOf_injective h.2⟩

/-- The directories above an entry. -/
theorem prefix_place_iff {kind : StoreKind} {tenantId : TenantId} {path : Path} :
    path <+: place kind tenantId ↔
      path = [] ∨ path = [kind.text] ∨ path = place kind tenantId := by
  unfold place
  split <;> simp only [prefix_cons_iff, prefix_nil] <;> grind

theorem path_inj {n m : Name} (h : join n.storeKey = join m.storeKey) : n = m := by
  rw [join_storeKey, join_storeKey] at h
  obtain ⟨hplace, hfile⟩ := append_inj' h rfl
  obtain ⟨hkind, htenant⟩ := place_inj hplace
  obtain ⟨_, _, _⟩ := n
  obtain ⟨_, _, _⟩ := m
  cases hkind
  cases htenant
  cases FileName.text_injective (cons.inj hfile).1
  rfl

/-! ### Trimming -/

theorem trimStart_cons {c : Char} (h : c ≠ '/') (text : Text) :
    trimStart (c :: text) = c :: text := by
  simp [trimStart, h]

theorem trimStart_append {start : Text} (h : '/' ∉ start) (hne : start ≠ []) (text : Text) :
    trimStart (start ++ text) = start ++ text := by
  cases start with
  | nil => exact absurd rfl hne
  | cons c start => exact trimStart_cons (fun hc => h (hc ▸ mem_cons_self)) _

theorem trimStart_trimMatches (text : Text) : trimStart (trimMatches text) = trimMatches text := by
  have hpre : trimMatches text <+: trimStart text := rdropWhile_prefix _ _
  cases hm : trimMatches text with
  | nil => rfl
  | cons c rest =>
    refine trimStart_cons (fun hc => ?_) rest
    rw [hm] at hpre
    obtain ⟨more, hmore⟩ := hpre
    have hhead := head?_dropWhile_not (· == '/') text
    rw [show text.dropWhile (· == '/') = trimStart text from rfl, ← hmore] at hhead
    simp [hc] at hhead

theorem rdropWhile_append {stop : Text} (h : '/' ∉ stop) (hne : stop ≠ []) (text : Text) :
    (text ++ stop).rdropWhile (· == '/') = text ++ stop := by
  obtain ⟨init, c, rfl⟩ := eq_nil_or_concat stop |>.resolve_left hne
  rw [concat_eq_append, ← append_assoc]
  refine rdropWhile_concat_neg _ _ _ ?_
  have hc : c ≠ '/' := fun hc => h (by simp [hc])
  simpa using hc

/-- What begins with a kind and ends with the name of a file has no outer slashes. -/
theorem trimMatches_between (kind : StoreKind) (text : Text) (file : FileName) :
    trimMatches (kind.text ++ text ++ file.text) = kind.text ++ text ++ file.text := by
  rw [trimMatches, append_assoc, trimStart_append (slash_not_mem_kind _) (kind_ne_nil _),
    ← append_assoc, rdropWhile_append file.slash file.ne_nil]

theorem storeKey_eq (n : Name) : n.storeKey =
    n.kind.text ++ '/' :: (dirOf n.tenantId ++ ['/']) ++ n.file.text := by
  simp [Name.storeKey]

theorem trimMatches_storeKey (n : Name) : trimMatches n.storeKey = n.storeKey := by
  rw [storeKey_eq, trimMatches_between]

/-- The text of the path of an entry: the directory of a tenant without a name is left out. -/
def Name.objectText (n : Name) : Text := ['/'].intercalate (join n.storeKey)

theorem objectText_eq (n : Name) : n.objectText =
    n.kind.text ++ '/' :: ((if dirOf n.tenantId = [] then [] else dirOf n.tenantId ++ ['/']) ++
      n.file.text) := by
  rw [Name.objectText, join_storeKey, place]
  split <;> simp [intercalate]

theorem join_objectText (n : Name) : join n.objectText = join n.storeKey :=
  join_intercalate fun _ => mem_join

theorem trimMatches_objectText (n : Name) : trimMatches n.objectText = n.objectText := by
  have h := trimMatches_between n.kind
    ('/' :: if dirOf n.tenantId = [] then [] else dirOf n.tenantId ++ ['/']) n.file
  rw [objectText_eq]
  simpa using h

theorem trimMatches_kind (kind : StoreKind) : trimMatches (kind.text ++ ['/']) = kind.text := by
  rw [trimMatches, trimStart_append (slash_not_mem_kind _) (kind_ne_nil _),
    rdropWhile_concat_pos _ _ _ (by rfl)]
  exact rdropWhile_append (slash_not_mem_kind _) (kind_ne_nil _) []

/-- **The prefix of a listing loses its last slash**, and the one before it too if the directory of
the tenant has no name. -/
theorem trimMatches_tenantPrefix (kind : StoreKind) (tenantId : TenantId) :
    trimMatches (tenantPrefix kind tenantId) =
      if dirOf tenantId = [] then kind.text else kind.text ++ '/' :: dirOf tenantId := by
  rw [trimMatches, tenantPrefix, trimStart_append (slash_not_mem_kind _) (kind_ne_nil _)]
  have hassoc : kind.text ++ '/' :: (dirOf tenantId ++ ['/']) =
      (kind.text ++ ['/'] ++ dirOf tenantId) ++ ['/'] := by simp
  rw [hassoc, rdropWhile_concat_pos _ _ _ (by rfl)]
  split
  case isTrue h =>
    rw [h, append_nil, rdropWhile_concat_pos _ _ _ (by rfl)]
    exact rdropWhile_append (slash_not_mem_kind _) (kind_ne_nil _) []
  case isFalse h =>
    rw [rdropWhile_append (slash_not_mem_dirOf _) h]
    simp

theorem prefix_objectText (n : Name) :
    trimMatches (tenantPrefix n.kind n.tenantId) <+: n.objectText := by
  rw [trimMatches_tenantPrefix, objectText_eq]
  split
  · exact prefix_append _ _
  · exact ⟨'/' :: n.file.text, by simp⟩

theorem trimMatches_tenantPrefix_ne_nil (kind : StoreKind) (tenantId : TenantId) :
    trimMatches (tenantPrefix kind tenantId) ≠ [] := by
  rw [trimMatches_tenantPrefix]
  split
  · exact kind_ne_nil kind
  · simp

theorem normalizeStorePrefix_kind (kind : StoreKind) :
    normalizeStorePrefix kind.text = kind.text ++ ['/'] := by
  cases kind <;> decide

/-! ### Object keys -/

namespace S3ObjectStore

variable {s3 : S3ObjectStore}

/-- What stands before every key. -/
def base (s3 : S3ObjectStore) : Text :=
  if s3.config.trimmed = [] then [] else s3.config.trimmed ++ ['/']

theorem backendKey_eq {key : Text} (h : trimMatches key ≠ []) :
    s3.backendKey key = s3.base ++ trimMatches key := by
  unfold backendKey base
  simp only [if_neg h]
  split <;> simp

theorem join_base (text : Text) :
    join (s3.base ++ text) = join s3.config.trimmed ++ join text := by
  unfold base
  split
  case isTrue h => rw [h]; rfl
  case isFalse => simpa using join_append_slash s3.config.trimmed text

/-- The parts of an object key. -/
theorem join_objectKey (key : Text) : join (s3.objectKey key) = join (s3.backendKey key) :=
  join_intercalate fun _ => mem_join

theorem join_objectKey_storeKey (n : Name) :
    join (s3.objectKey n.storeKey) = join s3.config.trimmed ++ join n.storeKey := by
  rw [join_objectKey, backendKey_eq, trimMatches_storeKey, join_base]
  rw [trimMatches_storeKey]
  simp [Name.storeKey]

theorem objectKey_inj {n m : Name} (h : s3.objectKey n.storeKey = s3.objectKey m.storeKey) :
    n = m := by
  have hjoin := congrArg join h
  rw [join_objectKey_storeKey, join_objectKey_storeKey] at hjoin
  exact path_inj (append_cancel_left hjoin)

theorem objectText_ne_nil (n : Name) : n.objectText ≠ [] := by
  rw [objectText_eq]
  simp

/-- The text of a path leads to the object of the entry. -/
theorem objectKey_objectText (n : Name) : s3.objectKey n.objectText = s3.objectKey n.storeKey := by
  have hjoin : join (s3.backendKey n.objectText) = join (s3.backendKey n.storeKey) := by
    rw [← join_objectKey n.storeKey, join_objectKey_storeKey, backendKey_eq,
      trimMatches_objectText, join_base, join_objectText]
    rw [trimMatches_objectText]
    exact objectText_ne_nil n
  rw [objectKey, objectKey, hjoin]

theorem stripBackendPrefix_base (n : Name) :
    s3.stripBackendPrefix (s3.base ++ n.objectText) = n.objectText := by
  have hkey : trimStart n.objectText = n.objectText := by
    rw [objectText_eq]
    exact trimStart_append (slash_not_mem_kind _) (kind_ne_nil _) _
  unfold stripBackendPrefix base
  split
  case isTrue => exact hkey
  case isFalse hne =>
    have htrim : trimStart s3.config.trimmed = s3.config.trimmed := trimStart_trimMatches _
    generalize s3.config.trimmed = storePrefix at hne htrim
    have hstart : trimStart (storePrefix ++ ['/'] ++ n.objectText) =
        storePrefix ++ '/' :: n.objectText := by
      cases storePrefix with
      | nil => exact absurd rfl hne
      | cons c rest =>
        have hc : c ≠ '/' := by
          rintro rfl
          have hlen := congrArg List.length htrim
          have := (dropWhile_suffix (l := rest) (· == '/')).length_le
          simp [trimStart] at hlen
          omega
        simpa using trimStart_cons hc (rest ++ '/' :: n.objectText)
    rw [hstart, stripPrefix, if_pos (by simp)]
    simpa [trimStart] using hkey

end S3ObjectStore

/-! ### Prefixes with empty parts -/

/-- The prefix has no empty parts. -/
def StorePrefix.Listable (config : StorePrefix) : Prop :=
  config.trimmed = [] ∨ [] ∉ config.trimmed.splitOn '/'

namespace S3ObjectStore

variable {s3 : S3ObjectStore}

theorem splitOn_objectText (n : Name) : n.objectText.splitOn '/' = join n.storeKey :=
  splitOn_intercalate '/' (fun _ h => (mem_join h).1) (by simp [join_storeKey])

/-- The object keys begin with a prefix that has no empty parts. -/
theorem objectKey_of_listable (h : s3.config.Listable) (n : Name) :
    s3.objectKey n.storeKey = s3.base ++ n.objectText := by
  have hsplit : (s3.base ++ n.objectText).splitOn '/' = join (s3.objectKey n.storeKey) := by
    rw [join_objectKey_storeKey]
    unfold base
    split
    case isTrue hnil => rw [nil_append, splitOn_objectText, hnil]; rfl
    case isFalse hne =>
      have hparts : join s3.config.trimmed = s3.config.trimmed.splitOn '/' :=
        filter_eq_self.2 fun part hpart => by
          simpa using fun hnil : part = [] => h.resolve_left hne (hnil ▸ hpart)
      rw [append_assoc, singleton_append, splitOn_append_cons_self, splitOn_objectText, hparts]
  have htext : ['/'].intercalate ((s3.base ++ n.objectText).splitOn '/') = _ :=
    intercalate_splitOn '/'
  rw [← htext, hsplit, join_objectKey]
  rfl

/-- They do not begin with one that has. -/
theorem not_prefix_objectKey (h : ¬ s3.config.Listable) (n : Name) (text : Text) :
    ¬ s3.base ++ text <+: s3.objectKey n.storeKey := by
  rintro ⟨rest, hrest⟩
  obtain ⟨hne, hempty⟩ := not_or.1 h
  have hsplit : (s3.objectKey n.storeKey).splitOn '/' = join (s3.backendKey n.storeKey) := by
    refine splitOn_intercalate '/' (fun _ h => (mem_join h).1) ?_
    rw [← join_objectKey, join_objectKey_storeKey]
    simp [join_storeKey]
  rw [← hrest, base, if_neg hne, append_assoc, append_assoc, singleton_append,
    splitOn_append_cons_self] at hsplit
  have hmem : [] ∈ join (s3.backendKey n.storeKey) :=
    hsplit ▸ mem_append_left _ (not_not.1 hempty)
  exact (mem_join hmem).2 rfl

end S3ObjectStore

end Hsp.Backend
