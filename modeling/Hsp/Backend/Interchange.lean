import Hsp.Backend.Names

/-!
# The two backends side by side

The entries of a store are kept on a `Shelf`, which also remembers the directories that were made.
Both backends follow it step by step.  They give the same answers as long as a listing of values
finds no entry of another directory whose key starts with the same characters (`listValues`), and
a listing of directories neither one without entries nor a file (`listChildDirs`).  Where the
prefix of the object store has empty parts, its listings are empty.

* `same_iff_meets` : a call is answered alike if and only if the shelf meets its condition.
* `interchangeable_iff` : calls are answered alike if and only if each meets its condition.
* `filesystem_refines` : the filesystem answers every sequence of calls as the shelf does.
-/

namespace Hsp.Backend

open List

/-! ### Tables under another name -/

section Table

variable {κ κ' : Type} [DecidableEq κ] [DecidableEq κ'] {f : κ → κ'} {table : List (κ × Value)}
  {s3 : S3ObjectStore} {path : Path} {found : List Path}

/-- A table with its keys renamed. -/
def rename (f : κ → κ') (table : List (κ × Value)) : List (κ' × Value) :=
  table.map fun e => (f e.1, e.2)

omit [DecidableEq κ] [DecidableEq κ'] in
theorem lookup_rename [BEq κ] [LawfulBEq κ] [BEq κ'] [LawfulBEq κ'] (hf : Function.Injective f)
    (k : κ) :
    (rename f table).lookup (f k) = table.lookup k := by
  induction table with
  | nil => rfl
  | cons e table ih =>
    have hbeq : (f k == f e.1) = (k == e.1) := by
      rw [Bool.eq_iff_iff, beq_iff_eq, beq_iff_eq, hf.eq_iff]
    rw [rename, map_cons, lookup_cons, lookup_cons, hbeq]
    split
    · rfl
    · exact ih

theorem remove_rename (hf : Function.Injective f) (k : κ) :
    remove (f k) (rename f table) = rename f (remove k table) := by
  simp [remove, rename, filter_map, Function.comp_def, hf.eq_iff]

theorem put_rename (hf : Function.Injective f) (k : κ) (v : Value) :
    put (f k) v (rename f table) = rename f (put k v table) := by
  exact congrArg ((f k, v) :: ·) (remove_rename hf k)

/-- Every key has one value. -/
def Distinct (table : List (κ × Value)) : Prop := (table.map (·.1)).Nodup

theorem Distinct.remove (h : Distinct table) (k : κ) : Distinct (remove k table) :=
  h.sublist (filter_sublist.map _)

theorem Distinct.put (h : Distinct table) (k : κ) (v : Value) : Distinct (put k v table) := by
  refine nodup_cons.2 ⟨?_, h.remove k⟩
  simp

omit [DecidableEq κ] in
theorem Distinct.lookup [BEq κ] [LawfulBEq κ] (h : Distinct table) {e : κ × Value}
    (he : e ∈ table) :
    table.lookup e.1 = some e.2 := by
  induction table with
  | nil => exact absurd he (not_mem_nil)
  | cons e' table ih =>
    obtain ⟨hnot, hrest⟩ := nodup_cons.1 h
    rw [lookup_cons]
    rcases mem_cons.1 he with rfl | he
    · simp
    · have hne : (e.1 == e'.1) = false :=
        beq_false_of_ne fun heq => hnot (mem_map.2 ⟨e, he, heq⟩)
      rw [hne]
      exact ih hrest he

end Table

/-- Two selections of a list, one within the other, hold the same if they agree. -/
theorem perm_filter_iff {α β : Type} {p q : α → Bool} {l : List α} (f : α → β)
    (hpq : ∀ x ∈ l, p x → q x) :
    ((l.filter p).map f).Perm ((l.filter q).map f) ↔ ∀ x ∈ l, q x → p x := by
  have hsub : (l.filter q).filter p = l.filter p := by
    rw [filter_filter]
    exact filter_congr fun x hx => by
      have := hpq x hx
      cases hp : p x <;> simp_all
  constructor
  · intro hperm x hx hq
    have hlen := hperm.length_eq
    rw [length_map, length_map, ← hsub] at hlen
    have heq := filter_sublist.eq_of_length hlen
    exact filter_eq_self.1 heq x (mem_filter.2 ⟨hx, hq⟩)
  · intro hqp
    rw [filter_congr fun x hx => Bool.eq_iff_iff.2 ⟨hpq x hx, hqp x hx⟩]

/-! ### The shelf -/

structure Shelf where
  entries : List (Name × Value)
  roots : List StoreKind
  opened : List (StoreKind × TenantId)

def Shelf.empty : Shelf := ⟨[], [], []⟩

/-- The shelf after a call. -/
def Shelf.step (s : Shelf) : StoreCall → Shelf
  | .ensureStoreRoots kinds => { s with roots := kinds ++ s.roots }
  | .write n bytes =>
    { s with entries := put n bytes s.entries, opened := (n.kind, n.tenantId) :: s.opened }
  | .create n bytes =>
    { s with
      entries := if (s.entries.lookup n).isSome then s.entries else put n bytes s.entries
      opened := (n.kind, n.tenantId) :: s.opened }
  | .delete n => { s with entries := remove n s.entries }
  | .read _ | .exists _ | .listValues _ _ | .listChildDirs _ => s

/-- The directories that were made for a kind. -/
def Shelf.childDirs (s : Shelf) (kind : StoreKind) : List Text :=
  (((s.opened.filter (·.1 = kind)).map fun o => dirOf o.2).filter (· ≠ [])).dedup

/-- What a call asks for. -/
def Shelf.answer (s : Shelf) : StoreCall → StoreResult
  | .ensureStoreRoots _ | .write _ _ | .delete _ => .done (.ok ())
  | .read n => .value (.ok (s.entries.lookup n))
  | .create n _ => .created (.ok !(s.entries.lookup n).isSome)
  | .exists n => .found (s.entries.lookup n).isSome
  | .listValues kind tenantId => .values (.ok
      ((s.entries.filter fun e => e.1.kind = kind ∧ e.1.tenantId = tenantId).map (·.2)))
  | .listChildDirs kind => .children (.ok (s.childDirs kind))

/-- What a call has to find for the backends to answer it alike, if the prefix of the object store
is listable or not. -/
def Shelf.Meets (listable : Prop) (s : Shelf) : StoreCall → Prop
  | .listValues kind tenantId => ∀ e ∈ s.entries,
      listable ∧ trimMatches (tenantPrefix kind tenantId) <+: e.1.objectText ↔
        e.1.kind = kind ∧ e.1.tenantId = tenantId
  | .listChildDirs kind =>
      (∀ tenantId, (kind, tenantId) ∈ s.opened → dirOf tenantId ≠ [] →
        listable ∧ ∃ e ∈ s.entries, e.1.kind = kind ∧ e.1.tenantId = tenantId) ∧
      ∀ e ∈ s.entries, listable → e.1.kind = kind → dirOf e.1.tenantId ≠ []
  | _ => True

/-- Every call finds what it has to. -/
def EachMeets (listable : Prop) : Shelf → List StoreCall → Prop
  | _, [] => True
  | s, c :: calls => s.Meets listable c ∧ EachMeets listable (s.step c) calls

structure Shelf.Ordered (s : Shelf) : Prop where
  distinct : Distinct s.entries
  opened : ∀ e ∈ s.entries, (e.1.kind, e.1.tenantId) ∈ s.opened

theorem Shelf.Ordered.step {s : Shelf} (h : s.Ordered) (c : StoreCall) : (s.step c).Ordered := by
  have hput (n : Name) (bytes : Value) : ∀ e ∈ put n bytes s.entries,
      (e.1.kind, e.1.tenantId) ∈ (n.kind, n.tenantId) :: s.opened := by
    intro e he
    rcases mem_cons.1 he with rfl | he
    · exact mem_cons_self
    · exact mem_cons_of_mem _ (h.opened e (mem_filter.1 he).1)
  cases c with
  | write n bytes => exact ⟨h.distinct.put n bytes, hput n bytes⟩
  | create n bytes =>
    by_cases hthere : (s.entries.lookup n).isSome
    · simp only [Shelf.step, if_pos hthere]
      exact ⟨h.distinct, fun e he => mem_cons_of_mem _ (h.opened e he)⟩
    · simp only [Shelf.step, if_neg hthere]
      exact ⟨h.distinct.put n bytes, hput n bytes⟩
  | delete n => exact ⟨h.distinct.remove n, fun e he => h.opened e (mem_filter.1 he).1⟩
  | _ => exact ⟨h.distinct, h.opened⟩

/-! ### The filesystem follows the shelf -/

/-- A directory that was made. -/
def Shelf.IsDir (s : Shelf) (path : Path) : Prop :=
  path = [] ∨ (∃ kind ∈ s.roots, path = [kind.text]) ∨
    ∃ o ∈ s.opened, path = [o.1.text] ∨ path = place o.1 o.2

def pathOf (n : Name) : Path := join n.storeKey

theorem pathOf_injective : Function.Injective pathOf := fun _ _ => path_inj

structure OnDisk (s : Shelf) (fs : Filesystem) : Prop where
  files : fs.files = rename pathOf s.entries
  dirs : ∀ path, path ∈ fs.dirs ↔ s.IsDir path
  nodup : fs.dirs.Nodup

namespace OnDisk

variable {s : Shelf} {fs : Filesystem}

theorem isFile_pathOf (h : OnDisk s fs) (n : Name) :
    fs.isFile (pathOf n) = (s.entries.lookup n).isSome := by
  rw [Filesystem.isFile, h.files, lookup_rename pathOf_injective]

/-- A file has a dot in its name, and no directory has. -/
theorem isFile_of_dot_not_mem (h : OnDisk s fs) (hdot : ∀ part ∈ path, '.' ∉ part) :
    fs.isFile path = false := by
  rw [Filesystem.isFile, h.files, Option.isSome_eq_false_iff, Option.isNone_iff_eq_none]
  refine lookup_eq_none_iff.2 fun e he => ?_
  obtain ⟨e', _, rfl⟩ := mem_map.1 he
  have hne : path ≠ pathOf e'.1 := fun heq => ?_
  · simpa using hne
  refine hdot e'.1.file.text ?_ e'.1.file.dot
  rw [heq]
  show _ ∈ join e'.1.storeKey
  simp [join_storeKey]

theorem isDir_pathOf (h : OnDisk s fs) (n : Name) : fs.isDir (pathOf n) = false := by
  rw [Filesystem.isDir, contains_eq_mem, decide_eq_false_iff_not, h.dirs]
  have hmem : n.file.text ∈ pathOf n := by simp [pathOf, join_storeKey]
  rintro (hnil | ⟨kind, _, hkind⟩ | ⟨o, _, hkind | hplace⟩)
  · simp [hnil] at hmem
  · rw [hkind, mem_singleton] at hmem
    exact dot_not_mem_kind kind (hmem ▸ n.file.dot)
  · rw [hkind, mem_singleton] at hmem
    exact dot_not_mem_kind o.1 (hmem ▸ n.file.dot)
  · rw [hplace] at hmem
    exact dot_not_mem_place hmem n.file.dot

theorem exists_pathOf (h : OnDisk s fs) (n : Name) :
    fs.exists (pathOf n) = (s.entries.lookup n).isSome := by
  rw [Filesystem.exists, h.isFile_pathOf, h.isDir_pathOf, Bool.or_false]

/-- Directories can be made where no part has a dot in its name. -/
theorem createDirAll (h : OnDisk s fs) (path : Path) (hdot : ∀ part ∈ path, '.' ∉ part) :
    ∃ fs', fs.createDirAll path = .ok fs' ∧ fs'.files = fs.files ∧ fs'.dirs.Nodup ∧
      ∀ p, p ∈ fs'.dirs ↔ s.IsDir p ∨ p <+: path := by
  have hany : path.inits.any fs.isFile = false := by
    rw [any_eq_false]
    intro p hp
    have hsub : p ⊆ path := ((mem_inits _ _).1 hp).subset
    rw [h.isFile_of_dot_not_mem fun part hpart => hdot part (hsub hpart)]
    exact Bool.false_ne_true
  have hmade : fs.createDirAll path = .ok { fs with dirs := path.inits ∪ fs.dirs } := by
    rw [Filesystem.createDirAll, if_neg (by simp [hany])]
  refine ⟨_, hmade, rfl, h.nodup.union _, fun p => ?_⟩
  rw [mem_union_iff, mem_inits, h.dirs, or_comm]

theorem dropLast_pathOf (n : Name) : (pathOf n).dropLast = place n.kind n.tenantId := by
  rw [pathOf, join_storeKey, dropLast_concat]

/-- The directory of an entry is made, and the entry may be put there. -/
theorem opened (h : OnDisk s fs) (n : Name) (bytes : Value) :
    ∃ fs', fs.createDirAll (place n.kind n.tenantId) = .ok fs' ∧
      OnDisk { s with opened := (n.kind, n.tenantId) :: s.opened } fs' ∧
      OnDisk (s.step (.write n bytes)) { fs' with files := put (pathOf n) bytes fs'.files } := by
  obtain ⟨fs', hmade, hfiles, hnodup, hdirs⟩ := h.createDirAll (place n.kind n.tenantId)
    fun _ => dot_not_mem_place
  have hadd : OnDisk { s with opened := (n.kind, n.tenantId) :: s.opened } fs' := by
    refine ⟨hfiles.trans h.files, fun p => ?_, hnodup⟩
    rw [hdirs, prefix_place_iff]
    simp only [Shelf.IsDir, mem_cons, exists_eq_or_imp]
    grind
  refine ⟨fs', hmade, hadd, ?_, hadd.dirs, hnodup⟩
  rw [hfiles, h.files, put_rename pathOf_injective]
  rfl

theorem write (h : OnDisk s fs) (n : Name) (bytes : Value) :
    (fs.write n.storeKey bytes).1 = .ok () ∧
      OnDisk (s.step (.write n bytes)) (fs.write n.storeKey bytes).2 := by
  obtain ⟨fs', hmade, hadd, hput⟩ := h.opened n bytes
  have hdir : fs'.isDir (pathOf n) = false := hadd.isDir_pathOf n
  simp only [Filesystem.write, show join n.storeKey = pathOf n from rfl, dropLast_pathOf, hmade,
    hdir, Bool.false_eq_true, if_false]
  exact ⟨trivial, hput⟩

theorem create (h : OnDisk s fs) (n : Name) (bytes : Value) :
    (fs.create n.storeKey bytes).1 = .ok (!(s.entries.lookup n).isSome) ∧
      OnDisk (s.step (.create n bytes)) (fs.create n.storeKey bytes).2 := by
  obtain ⟨fs', hmade, hadd, hput⟩ := h.opened n bytes
  have hthere : fs'.exists (pathOf n) = (s.entries.lookup n).isSome := hadd.exists_pathOf n
  simp only [Filesystem.create, show join n.storeKey = pathOf n from rfl, dropLast_pathOf, hmade,
    hthere, Shelf.step]
  split
  case isTrue hsome => exact ⟨by simp [hsome], hadd⟩
  case isFalse hnone => exact ⟨by simp [hnone], hput⟩

theorem delete (h : OnDisk s fs) (n : Name) :
    (fs.delete n.storeKey).1 = .ok () ∧
      OnDisk (s.step (.delete n)) (fs.delete n.storeKey).2 := by
  have hremove : remove (pathOf n) fs.files = rename pathOf (remove n s.entries) := by
    rw [h.files, remove_rename pathOf_injective]
  simp only [Filesystem.delete, show join n.storeKey = pathOf n from rfl, h.exists_pathOf,
    h.isDir_pathOf, Bool.false_eq_true, if_false]
  split
  case isTrue hnone =>
    -- Nothing is removed from the shelf either.
    have hsame : remove n s.entries = s.entries := by
      refine filter_eq_self.2 fun e he => ?_
      have hlookup : s.entries.lookup n = none := by simpa using hnone
      have hne := lookup_eq_none_iff.1 hlookup e he
      simpa using fun heq : e.1 = n => absurd heq.symm (by simpa using hne)
    exact ⟨rfl, by simpa [Shelf.step, hsame] using h⟩
  case isFalse => exact ⟨rfl, hremove, h.dirs, h.nodup⟩

theorem ensureStoreRoots (h : OnDisk s fs) (kinds : List StoreKind) :
    (fs.ensureStoreRoots (kinds.map StoreKind.text)).1 = .ok () ∧
      OnDisk (s.step (.ensureStoreRoots kinds))
        (fs.ensureStoreRoots (kinds.map StoreKind.text)).2 := by
  induction kinds generalizing s fs with
  | nil => exact ⟨rfl, h⟩
  | cons kind kinds ih =>
    obtain ⟨fs', hmade, hfiles, hnodup, hdirs⟩ := h.createDirAll [kind.text] fun part hp =>
      mem_singleton.1 hp ▸ dot_not_mem_kind kind
    have hroot : OnDisk { s with roots := kind :: s.roots } fs' := by
      refine ⟨hfiles.trans h.files, fun p => ?_, hnodup⟩
      rw [hdirs, prefix_cons_iff]
      simp only [Shelf.IsDir, mem_cons, exists_eq_or_imp, prefix_nil, exists_eq_right]
      grind
    obtain ⟨hok, hrest⟩ := ih hroot
    simp only [map_cons, Filesystem.ensureStoreRoots, join_kind, hmade]
    refine ⟨hok, hrest.files, fun p => (hrest.dirs p).trans ?_, hrest.nodup⟩
    simp only [Shelf.IsDir, Shelf.step, mem_append, mem_cons]
    grind

theorem read (h : OnDisk s fs) (n : Name) :
    fs.read n.storeKey = (.ok (s.entries.lookup n), fs) := by
  have hlookup : fs.files.lookup (pathOf n) = s.entries.lookup n := by
    rw [h.files, lookup_rename pathOf_injective]
  simp only [Filesystem.read, show join n.storeKey = pathOf n from rfl, h.exists_pathOf,
    Filesystem.readFile, hlookup]
  cases s.entries.lookup n <;> rfl

/-- A listing of values reads the files of one directory. -/
theorem listValues (h : OnDisk s fs) (ho : s.Ordered) (kind : StoreKind) (tenantId : TenantId) :
    fs.listValues (tenantPrefix kind tenantId) = .ok
      ((s.entries.filter fun e => e.1.kind = kind ∧ e.1.tenantId = tenantId).map (·.2)) := by
  have hfile : fs.isFile (place kind tenantId) = false :=
    h.isFile_of_dot_not_mem fun _ => dot_not_mem_place
  have hplace (n : Name) : (pathOf n).dropLast = place kind tenantId ↔
      n.kind = kind ∧ n.tenantId = tenantId := by
    rw [dropLast_pathOf]
    exact ⟨place_inj, fun hn => by rw [hn.1, hn.2]⟩
  have hne (n : Name) : pathOf n ≠ [] := by simp [pathOf, join_storeKey]
  simp only [Filesystem.listValues, join_tenantPrefix, Filesystem.exists, hfile, Bool.false_or]
  split
  case isTrue hdir =>
    have hempty : (s.entries.filter fun e => e.1.kind = kind ∧ e.1.tenantId = tenantId) = [] := by
      refine filter_eq_nil_iff.2 fun e he hin => ?_
      have hopen := ho.opened e he
      rw [decide_eq_true_eq] at hin
      rw [hin.1, hin.2] at hopen
      have hmem : place kind tenantId ∈ fs.dirs :=
        (h.dirs _).2 (.inr (.inr ⟨_, hopen, .inr rfl⟩))
      simp [Filesystem.isDir, hmem] at hdir
    rw [hempty]
    rfl
  case isFalse =>
    simp only [Bool.false_eq_true, if_false, h.files, rename, filter_map, map_map,
      Function.comp_def, hplace, ne_eq, hne, not_false_eq_true, true_and]

theorem mem_childDirs {kind : StoreKind} {child : Text} : child ∈ s.childDirs kind ↔
    child ≠ [] ∧ ∃ tenantId, (kind, tenantId) ∈ s.opened ∧ dirOf tenantId = child := by
  simp only [Shelf.childDirs, mem_dedup, mem_filter, mem_map, decide_eq_true_eq,
    and_comm]
  grind

theorem mem_children {child : Text} :
    child ∈ Filesystem.children path found ↔ path ++ [child] ∈ found := by
  simp only [Filesystem.children, mem_filterMap]
  constructor
  · rintro ⟨entry, hentry, hlast⟩
    split at hlast
    case isTrue h =>
      rw [← h.2, dropLast_append_getLast? child hlast]
      exact hentry
    case isFalse => exact absurd hlast (by simp)
  · intro h
    exact ⟨_, h, by simp⟩

theorem nodup_children (h : found.Nodup) :
    (Filesystem.children path found).Nodup := by
  refine List.Nodup.filterMap (fun a b child ha hb => ?_) h
  simp only [Option.mem_def, Option.ite_none_right_eq_some] at ha hb
  rw [← dropLast_append_getLast? child ha.2, ← dropLast_append_getLast? child hb.2,
    ha.1.2, hb.1.2]

/-- A listing of directories finds those that were made. -/
theorem listChildDirs (h : OnDisk s fs) (kind : StoreKind) :
    ∃ children, fs.listChildDirs kind.text = .ok children ∧
      children.Perm (s.childDirs kind) := by
  have hfile : fs.isFile [kind.text] = false :=
    h.isFile_of_dot_not_mem fun part hp => mem_singleton.1 hp ▸ dot_not_mem_kind kind
  have hdirs (child : Text) : [kind.text, child] ∈ fs.dirs ↔ child ∈ s.childDirs kind := by
    rw [h.dirs, mem_childDirs]
    constructor
    · rintro (hnil | ⟨k, _, hk⟩ | ⟨o, ho, hk | hplace⟩)
      · simp at hnil
      · simp at hk
      · simp at hk
      · unfold place at hplace
        split at hplace
        · simp at hplace
        case isFalse hne =>
          simp only [cons.injEq, and_true] at hplace
          rw [kind_text_injective hplace.1, hplace.2]
          exact ⟨hne, o.2, ho, rfl⟩
    · rintro ⟨hne, tenantId, hopen, rfl⟩
      exact .inr (.inr ⟨_, hopen, .inr (by rw [place, if_neg hne])⟩)
  simp only [Filesystem.listChildDirs, join_kind, Filesystem.exists, hfile, Bool.false_or]
  split
  case isTrue hdir =>
    have hempty : s.childDirs kind = [] := by
      refine eq_nil_iff_forall_not_mem.2 fun child hchild => ?_
      obtain ⟨_, tenantId, hopen, _⟩ := mem_childDirs.1 hchild
      have hmem : [kind.text] ∈ fs.dirs := (h.dirs _).2 (.inr (.inr ⟨_, hopen, .inl rfl⟩))
      simp [Filesystem.isDir, hmem] at hdir
    exact ⟨[], rfl, by rw [hempty]⟩
  case isFalse =>
    refine ⟨_, rfl, (perm_ext_iff_of_nodup (nodup_children h.nodup) (nodup_dedup _)).2
      fun child => ?_⟩
    rw [mem_children]
    exact hdirs child

/-- **The filesystem answers what a call asks for.** -/
theorem step (h : OnDisk s fs) (ho : s.Ordered) (c : StoreCall) :
    (c.onFilesystem fs).1.Same (s.answer c) ∧ OnDisk (s.step c) (c.onFilesystem fs).2 := by
  cases c with
  | ensureStoreRoots kinds =>
    obtain ⟨hok, hnext⟩ := h.ensureStoreRoots kinds
    simp only [StoreCall.onFilesystem, hok]
    exact ⟨.refl _, hnext⟩
  | read n =>
    simp only [StoreCall.onFilesystem, h.read]
    exact ⟨.refl _, h⟩
  | write n bytes =>
    obtain ⟨hok, hnext⟩ := h.write n bytes
    simp only [StoreCall.onFilesystem, hok]
    exact ⟨.refl _, hnext⟩
  | create n bytes =>
    obtain ⟨hok, hnext⟩ := h.create n bytes
    simp only [StoreCall.onFilesystem, hok]
    exact ⟨.refl _, hnext⟩
  | delete n =>
    obtain ⟨hok, hnext⟩ := h.delete n
    simp only [StoreCall.onFilesystem, hok]
    exact ⟨.refl _, hnext⟩
  | «exists» n =>
    have hthere := h.exists_pathOf n
    rw [pathOf] at hthere
    simp only [StoreCall.onFilesystem, hthere]
    exact ⟨.refl _, h⟩
  | listValues kind tenantId =>
    simp only [StoreCall.onFilesystem, h.listValues ho]
    exact ⟨.refl _, h⟩
  | listChildDirs kind =>
    obtain ⟨children, hok, hperm⟩ := h.listChildDirs kind
    simp only [StoreCall.onFilesystem, hok]
    exact ⟨.children hperm, h⟩

end OnDisk

/-! ### The object store follows the shelf -/

structure InBucket (s : Shelf) (s3 : S3ObjectStore) : Prop where
  objects : s3.objects = rename (fun n => s3.objectKey n.storeKey) s.entries

/-- The pages of an answer are the whole answer. -/
theorem listPages_eq (maxKeys : ℕ+) (keys : List Text) :
    S3ObjectStore.listPages maxKeys keys = keys := by
  fun_induction S3ObjectStore.listPages with
  | case1 => rfl
  | case2 keys _ ih => rw [ih, take_append_drop]

namespace InBucket

variable {s : Shelf} {s3 : S3ObjectStore}

theorem key_injective (s3 : S3ObjectStore) :
    Function.Injective fun n : Name => s3.objectKey n.storeKey :=
  fun _ _ => S3ObjectStore.objectKey_inj

theorem lookup (h : InBucket s s3) (n : Name) :
    s3.objects.lookup (s3.objectKey n.storeKey) = s.entries.lookup n := by
  rw [h.objects]
  exact lookup_rename (key_injective s3) n

/-- The entries a listing finds are those whose key starts with the trimmed prefix. -/
theorem listKeys (h : InBucket s s3) (hl : s3.config.Listable) {keyPrefix : Text}
    (hne : trimMatches keyPrefix ≠ []) : s3.listKeys keyPrefix =
      (s.entries.filter fun e => (trimMatches keyPrefix).isPrefixOf e.1.objectText).map
        (·.1.objectText) := by
  have hprefix (n : Name) : (s3.backendKey keyPrefix).isPrefixOf (s3.base ++ n.objectText) =
      (trimMatches keyPrefix).isPrefixOf n.objectText := by
    rw [S3ObjectStore.backendKey_eq hne, Bool.eq_iff_iff, isPrefixOf_iff_prefix,
      isPrefixOf_iff_prefix, prefix_append_right_inj]
  simp only [S3ObjectStore.listKeys, listPages_eq, h.objects, rename, filter_map,
    map_map, Function.comp_def, S3ObjectStore.objectKey_of_listable hl, hprefix,
    S3ObjectStore.stripBackendPrefix_base]

/-- Under a prefix with empty parts it finds none. -/
theorem listKeys_eq_nil (h : InBucket s s3) (hl : ¬ s3.config.Listable) {keyPrefix : Text}
    (hne : trimMatches keyPrefix ≠ []) : s3.listKeys keyPrefix = [] := by
  have hprefix (n : Name) :
      (s3.backendKey keyPrefix).isPrefixOf (s3.objectKey n.storeKey) = false := by
    rw [S3ObjectStore.backendKey_eq hne, Bool.eq_false_iff, ne_eq, isPrefixOf_iff_prefix]
    exact S3ObjectStore.not_prefix_objectKey hl n _
  simp [S3ObjectStore.listKeys, listPages_eq, h.objects, rename, filter_map, Function.comp_def,
    hprefix]

theorem listValues (h : InBucket s s3) (ho : s.Ordered) (hl : s3.config.Listable)
    (kind : StoreKind) (tenantId : TenantId) :
    s3.listValues (tenantPrefix kind tenantId) =
      (s.entries.filter fun e =>
        (trimMatches (tenantPrefix kind tenantId)).isPrefixOf e.1.objectText).map (·.2) := by
  rw [S3ObjectStore.listValues, h.listKeys hl (trimMatches_tenantPrefix_ne_nil _ _),
    filterMap_map, ← filterMap_eq_map]
  refine filterMap_congr fun e he => ?_
  show s3.objects.lookup (s3.objectKey e.1.objectText) = some e.2
  rw [S3ObjectStore.objectKey_objectText]
  exact (h.lookup e.1).trans (ho.distinct.lookup (mem_filter.1 he).1)

/-- What follows the directory of a kind: the directory of the tenant, or the file if that has no
name. -/
def firstPart (n : Name) : Text :=
  if dirOf n.tenantId = [] then n.file.text else dirOf n.tenantId

theorem childOf_objectText (kind : StoreKind) (n : Name) (child : Text) :
    S3ObjectStore.childOf (kind.text ++ ['/']) n.objectText = some child ↔
      n.kind = kind ∧ firstPart n = child := by
  have hrest : ∃ rest, n.objectText = n.kind.text ++ '/' :: rest ∧
      (rest.splitOn '/').head? = some (firstPart n) ∧ firstPart n ≠ [] := by
    rw [objectText_eq, firstPart]
    split
    · refine ⟨_, rfl, ?_, n.file.ne_nil⟩
      rw [nil_append, splitOn_eq_singleton n.file.slash]
      rfl
    case isFalse hne =>
      refine ⟨_, rfl, ?_, hne⟩
      rw [append_assoc, singleton_append,
        splitOn_append_cons_self_of_not_mem (slash_not_mem_dirOf _)]
      rfl
  obtain ⟨rest, htext, hhead, hne⟩ := hrest
  by_cases hkind : n.kind = kind
  · subst hkind
    have hstrip : stripPrefix (n.kind.text ++ ['/']) n.objectText = some rest := by
      have hassoc : n.objectText = n.kind.text ++ ['/'] ++ rest := by simp [htext]
      rw [stripPrefix, hassoc, if_pos (by simp), drop_left]
    simp [S3ObjectStore.childOf, hstrip, hhead, Option.filter, hne]
  · have hstrip : stripPrefix (kind.text ++ ['/']) n.objectText = none := by
      refine if_neg fun hpre => hkind ?_
      obtain ⟨more, hmore⟩ := isPrefixOf_iff_prefix.1 hpre
      rw [append_assoc, htext] at hmore
      exact (kind_text_injective (append_cons_inj_of_not_mem (slash_not_mem_kind _)
        (slash_not_mem_kind _) hmore).1).symm
    simp [S3ObjectStore.childOf, hstrip, hkind]

theorem mem_listChildDirs (h : InBucket s s3) (kind : StoreKind) (child : Text) :
    child ∈ s3.listChildDirs kind.text ↔
      s3.config.Listable ∧ ∃ e ∈ s.entries, e.1.kind = kind ∧ firstPart e.1 = child := by
  have hne : trimMatches (kind.text ++ ['/']) ≠ [] := by
    rw [trimMatches_kind]
    exact kind_ne_nil kind
  by_cases hl : s3.config.Listable
  · simp only [S3ObjectStore.listChildDirs, normalizeStorePrefix_kind, h.listKeys hl hne, mem_dedup,
      mem_filterMap, mem_map, mem_filter, trimMatches_kind, isPrefixOf_iff_prefix, hl, true_and]
    constructor
    · rintro ⟨_, ⟨e, ⟨he, _⟩, rfl⟩, hchild⟩
      exact ⟨e, he, (childOf_objectText kind e.1 child).1 hchild⟩
    · rintro ⟨e, he, hchild⟩
      have hstart : kind.text <+: e.1.objectText := by
        rw [objectText_eq, hchild.1]
        exact prefix_append _ _
      exact ⟨_, ⟨e, ⟨he, hstart⟩, rfl⟩, (childOf_objectText kind e.1 child).2 hchild⟩
  · simp [S3ObjectStore.listChildDirs, normalizeStorePrefix_kind, h.listKeys_eq_nil hl hne, hl]

end InBucket

/-! ### Where the answers are the same -/

namespace StoreResult.Same

theorem symm {a b : StoreResult} (h : a.Same b) : b.Same a := by
  cases h with
  | refl => exact .refl _
  | values h => exact .values h.symm
  | children h => exact .children h.symm

theorem trans {a b c : StoreResult} (h : a.Same b) (h' : b.Same c) : a.Same c := by
  cases h with
  | refl => exact h'
  | values h =>
    cases h' with
    | refl => exact .values h
    | values h' => exact .values (h.trans h')
  | children h =>
    cases h' with
    | refl => exact .children h
    | children h' => exact .children (h.trans h')

theorem values_iff {xs ys : List Value} :
    (StoreResult.values (.ok xs)).Same (StoreResult.values (.ok ys)) ↔ xs.Perm ys := by
  refine ⟨fun h => ?_, .values⟩
  cases h with
  | refl => exact .refl _
  | values h => exact h

theorem children_iff {xs ys : List Text} :
    (StoreResult.children (.ok xs)).Same (StoreResult.children (.ok ys)) ↔ xs.Perm ys := by
  refine ⟨fun h => ?_, .children⟩
  cases h with
  | refl => exact .refl _
  | children h => exact h

end StoreResult.Same

namespace InBucket

variable {s : Shelf} {s3 : S3ObjectStore}

theorem step (h : InBucket s s3) (c : StoreCall) : InBucket (s.step c) (c.onS3 s3).2 := by
  have hput (n : Name) (bytes : Value) : put (s3.objectKey n.storeKey) bytes s3.objects =
      rename (fun n => s3.objectKey n.storeKey) (put n bytes s.entries) := by
    rw [h.objects]
    exact put_rename (key_injective s3) n bytes
  cases c with
  | write n bytes => exact ⟨hput n bytes⟩
  | create n bytes =>
    simp only [StoreCall.onS3, S3ObjectStore.putObject, h.lookup, Bool.true_and, Shelf.step]
    split
    · exact ⟨h.objects⟩
    · exact ⟨hput n bytes⟩
  | delete n =>
    refine ⟨?_⟩
    show remove (s3.objectKey n.storeKey) s3.objects = _
    rw [h.objects]
    exact remove_rename (key_injective s3) n
  | _ => exact ⟨h.objects⟩

/-- A listing of values by the object store is that of the directory if nothing else starts with
the trimmed prefix. -/
theorem same_listValues_iff (h : InBucket s s3) (ho : s.Ordered) (kind : StoreKind)
    (tenantId : TenantId) :
    (s.answer (.listValues kind tenantId)).Same (StoreCall.onS3 s3 (.listValues kind tenantId)).1 ↔
      s.Meets s3.config.Listable (.listValues kind tenantId) := by
  have hown : ∀ e ∈ s.entries, e.1.kind = kind ∧ e.1.tenantId = tenantId →
      trimMatches (tenantPrefix kind tenantId) <+: e.1.objectText := by
    rintro e _ ⟨rfl, rfl⟩
    exact prefix_objectText e.1
  simp only [Shelf.answer, StoreCall.onS3, StoreResult.Same.values_iff, Shelf.Meets]
  by_cases hl : s3.config.Listable
  · rw [h.listValues ho hl, perm_filter_iff _ fun e he hin =>
      isPrefixOf_iff_prefix.2 (hown e he (decide_eq_true_eq.mp hin))]
    simp only [ isPrefixOf_iff_prefix, decide_eq_true_eq, hl, true_and]
    exact forall₂_congr fun e he => ⟨fun hin => ⟨hin, hown e he⟩, Iff.mp⟩
  · rw [S3ObjectStore.listValues,
      h.listKeys_eq_nil hl (trimMatches_tenantPrefix_ne_nil kind tenantId)]
    simp [hl]

/-- A listing of directories by the object store is that of the filesystem if none is without
entries, and no file takes the place of one. -/
theorem same_listChildDirs_iff (h : InBucket s s3) (ho : s.Ordered) (kind : StoreKind) :
    (s.answer (.listChildDirs kind)).Same (StoreCall.onS3 s3 (.listChildDirs kind)).1 ↔
      s.Meets s3.config.Listable (.listChildDirs kind) := by
  have hnodup : (s.childDirs kind).Nodup := nodup_dedup _
  have hnodup' : (s3.listChildDirs kind.text).Nodup := nodup_dedup _
  simp only [Shelf.answer, StoreCall.onS3, StoreResult.Same.children_iff]
  rw [perm_ext_iff_of_nodup hnodup hnodup']
  simp only [OnDisk.mem_childDirs, h.mem_listChildDirs kind, Shelf.Meets]
  have hfile (n : Name) (hnil : dirOf n.tenantId = []) (t : TenantId) :
      dirOf t ≠ firstPart n := fun heq =>
    dot_not_mem_dirOf t (by rw [heq, firstPart, if_pos hnil]; exact n.file.dot)
  constructor
  · refine fun hsame => ⟨fun tenantId hopen hne => ?_, fun e he hl hkind hnil => ?_⟩
    · obtain ⟨hl, e, he, hkind, hdir⟩ := (hsame _).1 ⟨hne, tenantId, hopen, rfl⟩
      refine ⟨hl, e, he, hkind, dirOf_injective ?_⟩
      have hdirs : dirOf e.1.tenantId ≠ [] := fun hnil => hfile e.1 hnil tenantId hdir.symm
      rwa [firstPart, if_neg hdirs] at hdir
    · obtain ⟨-, tenantId, -, hdir⟩ := (hsame _).2 ⟨hl, e, he, hkind, rfl⟩
      exact hfile e.1 hnil tenantId hdir
  · rintro ⟨hopened, hnamed⟩ child
    constructor
    · rintro ⟨hne, tenantId, hopen, rfl⟩
      obtain ⟨hl, e, he, hkind, htenant⟩ := hopened tenantId hopen hne
      exact ⟨hl, e, he, hkind, by rw [firstPart, htenant, if_neg hne]⟩
    · rintro ⟨hl, e, he, rfl, rfl⟩
      have hne := hnamed e he hl rfl
      rw [firstPart, if_neg hne]
      exact ⟨hne, _, ho.opened e he, rfl⟩

theorem config_onS3 (c : StoreCall) : (c.onS3 s3).2.config = s3.config := by
  cases c with
  | create n bytes =>
    simp only [StoreCall.onS3, S3ObjectStore.putObject]
    split <;> rfl
  | _ => rfl

theorem same_answer_iff (h : InBucket s s3) (ho : s.Ordered) (c : StoreCall) :
    (s.answer c).Same (c.onS3 s3).1 ↔ s.Meets s3.config.Listable c := by
  cases c with
  | listValues kind tenantId => exact h.same_listValues_iff ho kind tenantId
  | listChildDirs kind => exact h.same_listChildDirs_iff ho kind
  | create n bytes =>
    refine iff_of_true ?_ trivial
    simp only [Shelf.answer, StoreCall.onS3, S3ObjectStore.putObject, h.lookup, Bool.true_and]
    cases (s.entries.lookup n).isSome <;> exact .refl _
  | read n =>
    refine iff_of_true ?_ trivial
    simp only [Shelf.answer, StoreCall.onS3, S3ObjectStore.getObject, h.lookup]
    exact .refl _
  | «exists» n =>
    refine iff_of_true ?_ trivial
    simp only [Shelf.answer, StoreCall.onS3, S3ObjectStore.headObject, h.lookup]
    exact .refl _
  | _ => exact iff_of_true (.refl _) trivial

end InBucket

/-- **A call is answered alike if and only if the shelf meets its condition.** -/
theorem same_iff_meets {s : Shelf} {fs : Filesystem} (ho : s.Ordered)
    (hdisk : OnDisk s fs) (hbucket : InBucket s s3) (c : StoreCall) :
    (c.onFilesystem fs).1.Same (c.onS3 s3).1 ↔ s.Meets s3.config.Listable c := by
  have hanswer := (hdisk.step ho c).1
  rw [← hbucket.same_answer_iff ho c]
  exact ⟨hanswer.symm.trans, hanswer.trans⟩

theorem runCalls_same_iff {s : Shelf} {fs : Filesystem} (ho : s.Ordered)
    (hdisk : OnDisk s fs) (hbucket : InBucket s s3) (calls : List StoreCall) :
    List.Forall₂ StoreResult.Same (runCalls (fun fs c => c.onFilesystem fs) fs calls)
      (runCalls (fun s3 c => c.onS3 s3) s3 calls) ↔ EachMeets s3.config.Listable s calls := by
  induction calls generalizing s fs s3 with
  | nil => exact iff_of_true .nil trivial
  | cons c calls ih =>
    rw [runCalls, runCalls, forall₂_cons, same_iff_meets ho hdisk hbucket,
      ih (ho.step c) (hdisk.step ho c).2 (hbucket.step c), InBucket.config_onS3]
    rfl

/-! ### From the start -/

/-- The root directory. -/
def Filesystem.empty : Filesystem := ⟨[], [[]]⟩

theorem onDisk_empty : OnDisk .empty .empty where
  files := rfl
  dirs path := by simp [Shelf.empty, Filesystem.empty, Shelf.IsDir]
  nodup := nodup_singleton _

/-- **The filesystem refines the shelf.**  Whatever calls are made to a new store, the filesystem
answers each of them as the shelf does. -/
theorem filesystem_refines (calls : List StoreCall) :
    List.Forall₂ StoreResult.Same (runCalls (fun fs c => c.onFilesystem fs) .empty calls)
      (runCalls (fun (s : Shelf) c => (s.answer c, s.step c)) .empty calls) := by
  have hrun {s : Shelf} {fs : Filesystem} (ho : s.Ordered) (h : OnDisk s fs) :
      List.Forall₂ StoreResult.Same (runCalls (fun fs c => c.onFilesystem fs) fs calls)
        (runCalls (fun (s : Shelf) c => (s.answer c, s.step c)) s calls) := by
    induction calls generalizing s fs with
    | nil => exact .nil
    | cons c calls ih =>
      obtain ⟨hsame, hnext⟩ := h.step ho c
      exact .cons hsame (ih (ho.step c) hnext)
  exact hrun ⟨nodup_nil, fun _ h => absurd h not_mem_nil⟩ onDisk_empty

namespace Sample

/-- The directory is `YWJj`. -/
def shortTenant : TenantId := ⟨"abc"⟩

/-- The directory is `YWJjZA`. -/
def longTenant : TenantId := ⟨"abcd"⟩

def grants : Name := ⟨.acl, longTenant, ⟨"key.json.enc".toList, by decide, by decide⟩⟩

/-- A store without a prefix. -/
def bucket : S3ObjectStore := ⟨⟨[], by decide⟩, []⟩

end Sample

end Hsp.Backend
