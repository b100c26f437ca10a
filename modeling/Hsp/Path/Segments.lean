import Hsp.Path.Basic
import Hsp.Prog.Basic
import Mathlib.Data.List.Basic

/-!
# Canonical forms and prefixes

The decoder of `hsp-path` takes the bytes of its input one by one, so it reads a string that is not
ASCII as a longer one.  A canonical form is therefore not a fixed point of canonicalization.

* `segmentPrefixMatches_iff` : what the comparison of a prefix with a path says;
* `canonicalSegments_of_canonical` : the segments of a canonical form, canonicalized again, are read
  byte by byte;
* `isPrefix_iff_ascii` : a prefix that matches a canonical form contains it if and only if the
  prefix is ASCII;
* `canonical_iff_decodedBytes` : two paths have one canonical form if and only if they decode to the
  same bytes.
-/

namespace Hsp

open List

variable {c : Char} {s : List Char} {bytes : List UInt8} {path key pathPrefix again p : String}

/-! ### Splitting and replacing -/

section Split

variable {α β : Type} [DecidableEq α] [DecidableEq β]

theorem splitOn_append_of_notMem {b : β} {xs : List β} (h : b ∉ xs) (ys : List β) :
    (xs ++ ys).splitOn b = (ys.splitOn b).modifyHead (xs ++ ·) := by
  induction xs with
  | nil =>
    rw [nil_append]
    cases ys.splitOn b <;> rfl
  | cons x xs ih =>
    rw [mem_cons, not_or] at h
    obtain ⟨hx, hxs⟩ := h
    have hbeq : (x == b) = false := beq_false_of_ne (Ne.symm hx)
    rw [cons_append, splitOn_cons_eq_if_modifyHead, hbeq, ih hxs]
    cases ys.splitOn b <;> rfl

/-- Splitting commutes with replacing every element by a list, if the separators stay the same. -/
theorem splitOn_flatMap {f : α → List β} {a : α} {b : β} (ha : f a = [b])
    (hne : ∀ c, c ≠ a → b ∉ f c) (xs : List α) :
    (xs.flatMap f).splitOn b = (xs.splitOn a).map (List.flatMap f) := by
  induction xs with
  | nil => rfl
  | cons x xs ih =>
    rw [flatMap_cons]
    by_cases hx : x = a
    · subst hx
      rw [ha]
      simp [splitOn_cons_eq_if_modifyHead, ih]
    · rw [splitOn_append_of_notMem (hne x hx), ih, splitOn_cons_eq_if_modifyHead,
        if_neg (by simpa using hx)]
      cases xs.splitOn a <;> simp

omit [DecidableEq β] in
theorem intercalate_append {s : List β} {ls ms : List (List β)} (hls : ls ≠ []) (hms : ms ≠ []) :
    s.intercalate (ls ++ ms) = s.intercalate ls ++ s ++ s.intercalate ms := by
  induction ls with
  | nil => exact absurd rfl hls
  | cons l ls ih =>
    by_cases hnil : ls = []
    · simp [hnil, intercalate_cons_of_ne_nil hms]
    · rw [cons_append, intercalate_cons_of_ne_nil (by simp [hnil]), ih hnil,
        intercalate_cons_of_ne_nil hnil]
      simp only [append_assoc]

/-- The parts of one list start with those of another exactly if the lists are the same or one goes
on after the other with the separator. -/
theorem splitOn_prefix_iff {a : α} {xs ys : List α} :
    xs.splitOn a <+: ys.splitOn a ↔ ys = xs ∨ xs ++ [a] <+: ys := by
  constructor
  · rintro ⟨tail, htail⟩
    have hys : ys = [a].intercalate (xs.splitOn a ++ tail) := by
      rw [htail, intercalate_splitOn]
    by_cases hnil : tail = []
    · left
      rw [hys, hnil, append_nil, intercalate_splitOn]
    · right
      rw [hys, intercalate_append (splitOn_ne_nil _ _) hnil, intercalate_splitOn]
      exact prefix_append _ _
  · rintro (rfl | ⟨rest, rfl⟩)
    · exact prefix_rfl
    · rw [append_assoc, singleton_append, splitOn_append_cons_self]
      exact prefix_append _ _

end Split

/-! ### Bytes read as characters -/

/-- The characters the bytes of a character are read as. -/
def byteChars (c : Char) : List Char := (String.utf8EncodeChar c).map fun b => Char.ofNat b.toNat

/-- The string the bytes of a string are read as. -/
def misread (s : List Char) : List Char := s.flatMap byteChars

/-- One of the first 128 characters. -/
def IsAscii (c : Char) : Prop := c.toNat < 128

instance (c : Char) : Decidable (IsAscii c) := inferInstanceAs (Decidable (_ < _))

theorem byteChars_of_ascii (h : IsAscii c) : byteChars c = [c] := by
  have hlt : c.val.toNat < 128 := h
  have hbyte : c.val.toNat % 256 = c.val.toNat := Nat.mod_eq_of_lt (by omega)
  simp only [byteChars, String.utf8EncodeChar, if_pos (show c.val.toNat ≤ 127 by omega),
    map_cons, map_nil, UInt8.toNat_ofNat', Nat.reducePow, hbyte]
  exact congrArg (· :: []) (Char.ofNat_toNat c)

theorem toNat_byteChar (b : UInt8) : (Char.ofNat b.toNat).toNat = b.toNat := by
  have hvalid : b.toNat.isValidChar := .inl (by have := b.toNat_lt; omega)
  rw [Char.ofNat, dif_pos hvalid]
  rfl

theorem not_ascii_ofNat {b : UInt8} (h : 128 ≤ b.toNat) : ¬ IsAscii (Char.ofNat b.toNat) := by
  rw [IsAscii, toNat_byteChar]
  omega

/-- A character beyond the first 128 is read as several characters beyond the first 128. -/
theorem byteChars_of_not_ascii (h : ¬ IsAscii c) :
    1 < (byteChars c).length ∧ ∀ d ∈ byteChars c, ¬ IsAscii d := by
  have hbytes : 1 < (String.utf8EncodeChar c).length ∧
      ∀ b ∈ String.utf8EncodeChar c, 128 ≤ b.toNat := by
    have hlt : 128 ≤ c.val.toNat := Nat.not_lt.1 h
    simp only [String.utf8EncodeChar, if_neg (show ¬ c.val.toNat ≤ 127 by omega)]
    split
    · simp; omega
    · split
      · simp; omega
      · simp; omega
  refine ⟨by simpa [byteChars] using hbytes.1, fun d hd => ?_⟩
  obtain ⟨b, hb, rfl⟩ := mem_map.1 hd
  exact not_ascii_ofNat (hbytes.2 b hb)

theorem ascii_of_byteChars (h : ∀ d ∈ byteChars c, IsAscii d) : IsAscii c := by
  by_contra hc
  obtain ⟨hlength, hchars⟩ := byteChars_of_not_ascii hc
  cases hbytes : byteChars c with
  | nil => simp [hbytes] at hlength
  | cons d rest =>
    have hd : d ∈ byteChars c := by simp [hbytes]
    exact hchars d hd (h d hd)

theorem misread_of_ascii (h : ∀ c ∈ s, IsAscii c) : misread s = s := by
  induction s with
  | nil => rfl
  | cons c s ih =>
    rw [forall_mem_cons] at h
    have htail : misread s = s := ih h.2
    rw [misread, flatMap_cons, byteChars_of_ascii h.1]
    exact congrArg (c :: ·) htail

/-- A string that is read as an ASCII string is one. -/
theorem ascii_of_ascii_misread (h : ∀ d ∈ misread s, IsAscii d) : ∀ c ∈ s, IsAscii c := by
  intro c hc
  exact ascii_of_byteChars fun d hd => h d (mem_flatMap.2 ⟨c, hc, hd⟩)

theorem one_le_length_byteChars (c : Char) : 1 ≤ (byteChars c).length := by
  by_cases hc : IsAscii c
  · simp [byteChars_of_ascii hc]
  · exact (byteChars_of_not_ascii hc).1.le

theorem length_le_misread (s : List Char) : s.length ≤ (misread s).length := by
  induction s with
  | nil => exact le_rfl
  | cons c s ih =>
    have hc := one_le_length_byteChars c
    simp only [misread] at ih
    simp only [misread, flatMap_cons, length_append, length_cons]
    omega

/-- A string that is read as itself is ASCII: any other character would be read as several. -/
theorem ascii_of_misread_eq (h : misread s = s) : ∀ c ∈ s, IsAscii c := by
  have hlength : (misread s).length ≤ s.length := by rw [h]
  clear h
  induction s with
  | nil => simp
  | cons c s ih =>
    have hs := length_le_misread s
    have hc := one_le_length_byteChars c
    simp only [misread, flatMap_cons, length_append, length_cons] at hlength hs ih
    refine forall_mem_cons.2 ⟨?_, ih (by omega)⟩
    by_contra hnot
    have hlt := (byteChars_of_not_ascii hnot).1
    omega

/-- The separator is read as itself, and nothing else is read as a separator. -/
theorem splitOn_misread (s : List Char) :
    (misread s).splitOn '/' = (s.splitOn '/').map misread := by
  refine splitOn_flatMap (byteChars_of_ascii (by decide)) (fun c hc hmem => ?_) s
  by_cases hascii : IsAscii c
  · rw [byteChars_of_ascii hascii, mem_singleton] at hmem
    exact hc hmem.symm
  · exact (byteChars_of_not_ascii hascii).2 '/' hmem (by decide)

/-! ### Decoding twice -/

theorem utf8_eq_flatMap (s : String) : utf8 s = s.toList.flatMap String.utf8EncodeChar := by
  rw [utf8, ← String.utf8Encode_toList, List.utf8Encode]
  simp

theorem map_utf8 (s : String) :
    (utf8 s).map (fun b => Char.ofNat b.toNat) = misread s.toList := by
  rw [utf8_eq_flatMap, map_flatMap]
  rfl

theorem nestedPercentBytes_of_notMem (h : 0x25 ∉ bytes) : nestedPercentBytes bytes = false := by
  induction bytes with
  | nil => rfl
  | cons byte rest ih =>
    rw [mem_cons, not_or] at h
    obtain ⟨hbyte, hrest⟩ := h
    rw [nestedPercentBytes.eq_def]
    dsimp only
    rw [ih hrest, Bool.or_false]
    split
    · rw [beq_false_of_ne (Ne.symm hbyte), Bool.false_and, Bool.false_and]
    · rfl

theorem percentDecodeBytes_of_notMem (h : 0x25 ∉ bytes) :
    percentDecodeBytes bytes = .ok (bytes.map fun b => Char.ofNat b.toNat) := by
  induction bytes with
  | nil => rfl
  | cons byte rest ih =>
    rw [mem_cons, not_or] at h
    obtain ⟨hbyte, hrest⟩ := h
    rw [percentDecodeBytes.eq_def]
    dsimp only
    rw [if_pos (Ne.symm hbyte), ih hrest]
    rfl

/-- Bytes that can be decoded and hold no escape sequence hold no percent sign. -/
theorem percent_notMem {chars : List Char} (hflat : nestedPercentBytes bytes = false)
    (h : percentDecodeBytes bytes = .ok chars) : 0x25 ∉ bytes := by
  induction bytes generalizing chars with
  | nil => exact not_mem_nil
  | cons byte rest ih =>
    rw [nestedPercentBytes.eq_def] at hflat
    dsimp only at hflat
    rw [Bool.or_eq_false_iff] at hflat
    obtain ⟨hhead, htail⟩ := hflat
    rw [percentDecodeBytes.eq_def] at h
    by_cases hbyte : byte = 0x25
    · -- The percent sign would have to be followed by two digits.
      subst hbyte
      rcases rest with _ | ⟨high, _ | ⟨low, rest⟩⟩
      · cases h
      · cases h
      · simp only [ne_eq, not_true_eq_false, if_false, except_bind_eq_ok] at h
        obtain ⟨_, hhigh, _, hlow, -⟩ := h
        simp [isAsciiHexdigit, hhigh, hlow, Except.toBool] at hhead
    · simp only [ne_eq, hbyte, not_false_eq_true, if_true, except_bind_eq_ok] at h
      obtain ⟨tail, hdecoded, -⟩ := h
      exact not_mem_cons_of_ne_of_not_mem (Ne.symm hbyte) (ih htail hdecoded)

/-! ### Canonical forms -/

/-- The segments of a key. -/
def pathSegments (key : String) : List String := (key.toList.splitOn '/').map String.ofList

/-- A canonical form is the decoded string, which holds no escape sequence. -/
theorem canonicalPath_eq_ok :
    canonicalPath path = .ok key ↔
      percentDecodeOnce path = .ok key ∧ containsNestedPercentEncoding key = false := by
  have hjoin (decoded : String) : String.intercalate "/" (pathSegments decoded) = decoded := by
    apply String.toList_inj.1
    rw [String.toList_intercalate, pathSegments, map_map]
    have hid : String.toList ∘ String.ofList = id := funext fun l => String.toList_ofList
    rw [hid, map_id]
    exact intercalate_splitOn '/'
  simp only [canonicalPath, canonicalSegments, except_throw, except_pure, except_bind_eq_ok]
  constructor
  · rintro ⟨_, ⟨decoded, hdecoded, h⟩, hkey⟩
    split at h
    · cases h
    · rename_i hflat
      cases h
      cases hkey
      have hsegments : (decoded.toList.splitOn '/').map String.ofList = pathSegments decoded := rfl
      rw [hsegments, hjoin]
      exact ⟨hdecoded, Bool.not_eq_true _ ▸ hflat⟩
  · rintro ⟨hdecoded, hflat⟩
    exact ⟨pathSegments key, ⟨key, hdecoded, by rw [hflat]; rfl⟩, by rw [hjoin]⟩

theorem canonicalSegments_eq_ok {segments : List String} :
    canonicalSegments path = .ok segments ↔
      ∃ key, canonicalPath path = .ok key ∧ segments = pathSegments key := by
  simp only [canonicalPath_eq_ok, canonicalSegments, except_throw, except_pure, except_bind_eq_ok]
  constructor
  · rintro ⟨key, hdecoded, h⟩
    split at h
    · cases h
    · rename_i hflat
      cases h
      exact ⟨key, ⟨hdecoded, Bool.not_eq_true _ ▸ hflat⟩, rfl⟩
  · rintro ⟨key, ⟨hdecoded, hflat⟩, rfl⟩
    exact ⟨key, hdecoded, by rw [hflat]; rfl⟩

/-- The loop of `segment_prefix_matches` compares the segments one by one. -/
theorem zip_all_iff (ps cs : List String) :
    (if ps.length > cs.length then false
      else (ps.zip cs).all fun (left, right) => left == right) = true ↔ ps <+: cs := by
  induction ps generalizing cs with
  | nil => simp
  | cons p ps ih =>
    cases cs with
    | nil => simp
    | cons c cs =>
      have hlength : (p :: ps).length > (c :: cs).length ↔ ps.length > cs.length := by simp
      rw [cons_prefix_cons, ← ih cs, if_congr hlength rfl rfl]
      split <;> simp

/-- **What the comparison of a prefix with a path says**: the segments of one canonical form start
with those of the other. -/
theorem segmentPrefixMatches_iff {candidate : String} :
    segmentPrefixMatches pathPrefix candidate ↔ ∃ p k, canonicalPath pathPrefix = .ok p ∧
      canonicalPath candidate = .ok k ∧ pathSegments p <+: pathSegments k := by
  have hcompare : segmentPrefixMatches pathPrefix candidate ↔
      ∃ ps cs, canonicalSegments pathPrefix = .ok ps ∧ canonicalSegments candidate = .ok cs ∧
        ps <+: cs := by
    unfold segmentPrefixMatches
    cases canonicalSegments pathPrefix with
    | error e => simp
    | ok ps =>
      cases canonicalSegments candidate with
      | error e => simp
      | ok cs => simp [← zip_all_iff]
  rw [hcompare]
  constructor
  · rintro ⟨ps, cs, hps, hcs, h⟩
    obtain ⟨p, hp, rfl⟩ := canonicalSegments_eq_ok.1 hps
    obtain ⟨k, hk, rfl⟩ := canonicalSegments_eq_ok.1 hcs
    exact ⟨p, k, hp, hk, h⟩
  · rintro ⟨p, k, hp, hk, h⟩
    exact ⟨_, _, canonicalSegments_eq_ok.2 ⟨p, hp, rfl⟩, canonicalSegments_eq_ok.2 ⟨k, hk, rfl⟩, h⟩

theorem pathSegments_prefix_iff {p k : String} :
    pathSegments p <+: pathSegments k ↔ k = p ∨ (p ++ "/").toList <+: k.toList := by
  rw [pathSegments, pathSegments,
    prefix_map_iff_of_injective fun _ _ h => String.ofList_injective h,
    splitOn_prefix_iff, String.toList_inj, String.toList_append]
  rfl

/-- A canonical form that is canonicalized again is read byte by byte. -/
theorem toList_of_canonical (hkey : canonicalPath path = .ok key)
    (hagain : canonicalPath key = .ok again) : again.toList = misread key.toList := by
  have hflat : nestedPercentBytes (utf8 key) = false := (canonicalPath_eq_ok.1 hkey).2
  have hdecoded : percentDecodeOnce key = .ok again := (canonicalPath_eq_ok.1 hagain).1
  cases hbytes : percentDecodeBytes (utf8 key) with
  | error e => simp [percentDecodeOnce, hbytes] at hdecoded
  | ok chars =>
    simp only [percentDecodeOnce, hbytes, except_map_ok, Except.ok.injEq] at hdecoded
    have hread := percentDecodeBytes_of_notMem (percent_notMem hflat hbytes)
    rw [← hdecoded, String.toList_ofList, Except.ok.inj (hbytes.symm.trans hread), map_utf8]

theorem canonicalSegments_of_canonical (hkey : canonicalPath path = .ok key)
    (hagain : canonicalPath key = .ok again) :
    pathSegments again = (pathSegments key).map fun s => String.ofList (misread s.toList) := by
  simp [pathSegments, toList_of_canonical hkey hagain, splitOn_misread]

theorem canonicalPath_again (hkey : canonicalPath path = .ok key)
    (hascii : ∀ c ∈ key.toList, IsAscii c) (hagain : canonicalPath key = .ok again) :
    again = key := by
  apply String.toList_inj.1
  rw [toList_of_canonical hkey hagain, misread_of_ascii hascii]

/-- A string of ASCII characters other than the percent sign. -/
def Plain (s : String) : Prop := ∀ c ∈ s.toList, IsAscii c ∧ c ≠ '%'

instance (s : String) : Decidable (Plain s) := List.decidableBAll _ _

theorem canonicalPath_of_plain {s : String} (h : Plain s) : canonicalPath s = .ok s := by
  have hread : (utf8 s).map (fun b => Char.ofNat b.toNat) = s.toList :=
    (map_utf8 s).trans (misread_of_ascii fun c hc => (h c hc).1)
  have hbytes : 0x25 ∉ utf8 s := by
    intro hmem
    have hpercent : '%' ∈ s.toList := hread ▸ mem_map.2 ⟨_, hmem, rfl⟩
    exact (h _ hpercent).2 rfl
  refine canonicalPath_eq_ok.2 ⟨?_, nestedPercentBytes_of_notMem hbytes⟩
  rw [percentDecodeOnce, percentDecodeBytes_of_notMem hbytes, hread, except_map_ok,
    String.ofList_toList]

/-- **A canonical form is a fixed point** of canonicalization exactly if it is plain. -/
theorem canonicalPath_self_iff (hkey : canonicalPath path = .ok key) :
    canonicalPath key = .ok key ↔ Plain key := by
  constructor
  · intro hagain c hc
    have hmisread : misread key.toList = key.toList := (toList_of_canonical hkey hagain).symm
    refine ⟨ascii_of_misread_eq hmisread c hc, ?_⟩
    rintro rfl
    have hbyte : 0x25 ∈ utf8 key := by
      rw [utf8_eq_flatMap]
      exact mem_flatMap.2 ⟨'%', hc, by decide⟩
    -- A percent sign that is left over cannot be decoded.
    cases hbytes : percentDecodeBytes (utf8 key) with
    | error e => simp [canonicalPath_eq_ok, percentDecodeOnce, hbytes] at hagain
    | ok chars => exact percent_notMem (canonicalPath_eq_ok.1 hkey).2 hbytes hbyte
  · exact canonicalPath_of_plain

theorem forall_mem_splitOn {α : Type} [DecidableEq α] {P : α → Prop} {a : α} (ha : P a)
    (xs : List α) : (∀ s ∈ xs.splitOn a, ∀ c ∈ s, P c) ↔ ∀ c ∈ xs, P c := by
  induction xs with
  | nil => simp
  | cons x xs ih =>
    rw [splitOn_cons_eq_if_modifyHead, forall_mem_cons, ← ih]
    by_cases hx : x = a
    · subst hx
      simp [ha]
    · rw [if_neg (by simpa using hx)]
      cases hsplit : xs.splitOn a with
      | nil => exact absurd hsplit (splitOn_ne_nil _ _)
      | cons head rest => simp [and_assoc]

/-- The characters of a key are those of its segments and the separator. -/
theorem forall_mem_pathSegments {P : Char → Prop} (hsep : P '/') (key : String) :
    (∀ s ∈ pathSegments key, ∀ c ∈ s.toList, P c) ↔ ∀ c ∈ key.toList, P c := by
  rw [← forall_mem_splitOn hsep]
  simp [pathSegments]

/-- A segment is what it is misread as if and only if what it is misread as is ASCII. -/
theorem misread_eq_iff {k : String} (h : p = String.ofList (misread k.toList)) :
    p = k ↔ ∀ c ∈ p.toList, IsAscii c := by
  have hp : p.toList = misread k.toList := by rw [h, String.toList_ofList]
  constructor
  · rintro rfl
    exact ascii_of_misread_eq hp.symm
  · intro hascii
    rw [hp] at hascii
    rw [h, misread_of_ascii (ascii_of_ascii_misread hascii), String.ofList_toList]

/-- Segments that are found at the start of misread segments are at the start of the segments
themselves if and only if they are ASCII. -/
theorem isPrefix_iff_ascii {ps ks : List String}
    (h : ps <+: ks.map fun s => String.ofList (misread s.toList)) :
    ps <+: ks ↔ ∀ p ∈ ps, ∀ c ∈ p.toList, IsAscii c := by
  induction ps generalizing ks with
  | nil => simp
  | cons p ps ih =>
    cases ks with
    | nil => simp at h
    | cons k ks =>
      rw [map_cons, cons_prefix_cons] at h
      rw [cons_prefix_cons, forall_mem_cons, misread_eq_iff h.1, ih h.2]

/-- **A prefix that matches a canonical form contains it if and only if the prefix is ASCII.** -/
theorem matches_canonical_iff (hkey : canonicalPath path = .ok key)
    (hp : canonicalPath pathPrefix = .ok p) (h : segmentPrefixMatches pathPrefix key) :
    pathSegments p <+: pathSegments key ↔ ∀ c ∈ p.toList, IsAscii c := by
  obtain ⟨p', again, hp', hagain, hstart⟩ := segmentPrefixMatches_iff.1 h
  obtain rfl := Except.ok.inj (hp.symm.trans hp')
  rw [canonicalSegments_of_canonical hkey hagain] at hstart
  rw [isPrefix_iff_ascii hstart, forall_mem_pathSegments (by decide)]

/-! ### Decoded bytes -/

/-- One pass of percent decoding, from bytes to bytes. -/
def decodedBytes : List UInt8 → Option (List UInt8)
  | [] => some []
  | byte :: rest =>
    if byte = 0x25 then
      match rest with
      | high :: low :: rest => do
        let h ← (decodeHex high).toOption
        let l ← (decodeHex low).toOption
        let tail ← decodedBytes rest
        return UInt8.ofNat (16 * h + l) :: tail
      | _ => none
    else (byte :: ·) <$> decodedBytes rest

theorem decodeHex_lt {byte : UInt8} {h : ℕ} (hhex : decodeHex byte = .ok h) : h < 16 := by
  simp only [decodeHex] at hhex
  split_ifs at hhex <;> cases hhex <;> omega

theorem byteChar_injective : Function.Injective fun b : UInt8 => Char.ofNat b.toNat := by
  intro a b h
  have hnumber := congrArg Char.toNat h
  rwa [toNat_byteChar, toNat_byteChar, UInt8.toNat_inj] at hnumber

/-- The decoder of `hsp-path` reads the decoded bytes as characters. -/
theorem toOption_percentDecodeBytes (bytes : List UInt8) :
    (percentDecodeBytes bytes).toOption =
      (decodedBytes bytes).map (List.map fun b => Char.ofNat b.toNat) := by
  fun_induction percentDecodeBytes bytes with
  | case1 => rfl
  | case2 byte rest hbyte ih =>
    rw [decodedBytes.eq_def]
    dsimp only
    rw [if_neg hbyte]
    cases hrest : decodedBytes rest <;> cases htail : percentDecodeBytes rest <;>
      simp_all [Except.toOption]
  | case3 byte hbyte high low rest ih =>
    rw [decodedBytes, if_pos (not_not.1 hbyte)]
    cases hhigh : decodeHex high with
    | error e => rfl
    | ok h =>
      cases hlow : decodeHex low with
      | error e => rfl
      | ok l =>
        -- The two digits make up one byte.
        have hsum : 16 * h + l < 256 := by
          have hh := decodeHex_lt hhigh
          have hl := decodeHex_lt hlow
          omega
        cases hrest : decodedBytes rest <;> cases htail : percentDecodeBytes rest <;>
          simp_all [Except.toOption, Nat.mod_eq_of_lt]
  | case4 byte rest hbyte hshort =>
    rw [decodedBytes.eq_def, not_not.1 hbyte]
    rcases rest with _ | ⟨high, _ | ⟨low, rest⟩⟩
    · rfl
    · rfl
    · exact (hshort high low rest rfl).elim

theorem decodedBytes_of_canonical {s k : String} (hk : canonicalPath s = .ok k) :
    ∃ out, decodedBytes (utf8 s) = some out ∧ k.toList = out.map fun b => Char.ofNat b.toNat := by
  have hdecoded := (canonicalPath_eq_ok.1 hk).1
  have hchars := toOption_percentDecodeBytes (utf8 s)
  rw [percentDecodeOnce] at hdecoded
  cases hbytes : percentDecodeBytes (utf8 s) with
  | error e => simp [hbytes] at hdecoded
  | ok chars =>
    rw [hbytes, except_map_ok, Except.ok.injEq] at hdecoded
    rw [hbytes] at hchars
    obtain ⟨out, hout, rfl⟩ := Option.map_eq_some_iff.1 hchars.symm
    exact ⟨out, hout, by rw [← hdecoded, String.toList_ofList]⟩

/-- **What canonicalization identifies**: two paths have one canonical form exactly if they decode
to the same bytes, and a prefix matches exactly if its decoded segments come first. -/
theorem canonical_iff_decodedBytes {s t k k' : String} (hs : canonicalPath s = .ok k)
    (ht : canonicalPath t = .ok k') :
    ∃ a b, decodedBytes (utf8 s) = some a ∧ decodedBytes (utf8 t) = some b ∧
      (canonicalPath s = canonicalPath t ↔ a = b) ∧
      (segmentPrefixMatches s t ↔ a.splitOn 0x2f <+: b.splitOn 0x2f) := by
  obtain ⟨a, ha, hka⟩ := decodedBytes_of_canonical hs
  obtain ⟨b, hb, hkb⟩ := decodedBytes_of_canonical ht
  have hinj := map_injective_iff.2 byteChar_injective
  refine ⟨a, b, ha, hb, ?_, ?_⟩
  · rw [hs, ht, Except.ok.injEq, ← String.toList_inj, hka, hkb]
    exact hinj.eq_iff
  · have hmatch : segmentPrefixMatches s t ↔ pathSegments k <+: pathSegments k' := by
      rw [segmentPrefixMatches_iff, hs, ht]
      simp
    have hslash : "/".toList = [(0x2f : UInt8)].map fun b => Char.ofNat b.toNat := rfl
    rw [hmatch, pathSegments_prefix_iff, splitOn_prefix_iff, ← String.toList_inj,
      String.toList_append, hka, hkb, hinj.eq_iff, hslash, ← map_append,
      prefix_map_iff_of_injective byteChar_injective]

theorem escaped_slash_decodedBytes :
    ∃ a b, decodedBytes (utf8 "a%2Fb") = some a ∧ decodedBytes (utf8 "a/b/c") = some b ∧
      (canonicalPath "a%2Fb" = canonicalPath "a/b/c" ↔ a = b) ∧
      (segmentPrefixMatches "a%2Fb" "a/b/c" ↔ a.splitOn 0x2f <+: b.splitOn 0x2f) := by
  have hs : canonicalPath "a%2Fb" = .ok "a/b" := by decide +kernel
  have ht : canonicalPath "a/b/c" = .ok "a/b/c" := by decide +kernel
  exact canonical_iff_decodedBytes hs ht

end Hsp
