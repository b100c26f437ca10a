import Mathlib.Data.List.Basic
import Mathlib.Data.UInt
import Mathlib.Tactic.Positivity
import Mathlib.Tactic.Ring

/-!
# Canonical CBOR

Content identifiers are hashes of a deterministic CBOR encoding.  `CanonicalValue` is the tree
of values that encoding is defined on and `encodeCanonicalCbor` the encoder of `hsp-core`:
shortest heads, definite lengths, map entries in the order of their keys.

The encoder casts every length to a `u64`.  A value is `Fits` when all its strings and lists are
shorter than `2 ^ 64`, as every value in memory is.  On such values the encoding is
self-delimiting (`encodeValue_append_inj`), hence injective (`encodeCanonicalCbor_inj`).
-/

namespace Hsp

open List

/-- The UTF-8 bytes of a string. -/
def utf8 (s : String) : List UInt8 := s.toByteArray.data.toList

theorem utf8_inj {s t : String} (h : utf8 s = utf8 t) : s = t := by
  have h' : s.toByteArray = t.toByteArray := by
    have := Array.toList_inj.1 h
    cases hs : s.toByteArray; cases ht : t.toByteArray
    rw [hs, ht] at this
    exact congrArg _ this
  exact String.toByteArray_inj.1 h'

theorem fromUTF8?_utf8 (s : String) : String.fromUTF8? ⟨(utf8 s).toArray⟩ = some s := by
  have hbytes : (⟨(utf8 s).toArray⟩ : ByteArray) = s.toByteArray := rfl
  rw [hbytes, String.fromUTF8?, dif_pos s.isValidUTF8]
  rfl

/-- The values of the deterministic encoding.  The entries of a map stand in key order. -/
inductive CanonicalValue where
  | unsigned (n : UInt64)
  | text (s : String)
  | bytes (bs : List UInt8)
  | bool (b : Bool)
  | array (items : List CanonicalValue)
  | map (entries : List (UInt64 × CanonicalValue))

/-- The `n` lowest bytes of `v`, highest first (`to_be_bytes`). -/
def beBytes : ℕ → ℕ → List UInt8
  | 0, _ => []
  | n + 1, v => UInt8.ofNat (v / 256 ^ n) :: beBytes n v

/-- The head of a CBOR item: major type and argument, in the shortest form. -/
def encodeMajor (major : ℕ) (value : UInt64) : List UInt8 :=
  let v := value.toNat
  if v ≤ 23 then [UInt8.ofNat (32 * major + v)]
  else if v ≤ 0xff then UInt8.ofNat (32 * major + 24) :: beBytes 1 v
  else if v ≤ 0xffff then UInt8.ofNat (32 * major + 25) :: beBytes 2 v
  else if v ≤ 0xffffffff then UInt8.ofNat (32 * major + 26) :: beBytes 4 v
  else UInt8.ofNat (32 * major + 27) :: beBytes 8 v

mutual

/-- The encoding of one value. -/
def encodeValue : CanonicalValue → List UInt8
  | .unsigned n => encodeMajor 0 n
  | .bytes bs => encodeMajor 2 (.ofNat bs.length) ++ bs
  | .text s => encodeMajor 3 (.ofNat (utf8 s).length) ++ utf8 s
  | .array items => encodeMajor 4 (.ofNat items.length) ++ encodeItems items
  | .map entries => encodeMajor 5 (.ofNat entries.length) ++ encodeEntries entries
  | .bool false => [0xf4]
  | .bool true => [0xf5]

/-- The items of an array, one after the other. -/
def encodeItems : List CanonicalValue → List UInt8
  | [] => []
  | v :: vs => encodeValue v ++ encodeItems vs

/-- The entries of a map, one after the other. -/
def encodeEntries : List (UInt64 × CanonicalValue) → List UInt8
  | [] => []
  | (k, v) :: es => encodeMajor 0 k ++ (encodeValue v ++ encodeEntries es)

end

/-- The deterministic encoding of a value. -/
def encodeCanonicalCbor (v : CanonicalValue) : List UInt8 := encodeValue v

mutual

/-- Every string and list of the value is shorter than `2 ^ 64`. -/
def CanonicalValue.fits : CanonicalValue → Bool
  | .unsigned _ => true
  | .bytes bs => decide (bs.length < 2 ^ 64)
  | .text s => decide ((utf8 s).length < 2 ^ 64)
  | .array items => decide (items.length < 2 ^ 64) && itemsFit items
  | .map entries => decide (entries.length < 2 ^ 64) && entriesFit entries
  | .bool _ => true

/-- All the values of the list fit. -/
def itemsFit : List CanonicalValue → Bool
  | [] => true
  | v :: vs => v.fits && itemsFit vs

/-- All the values of the entries fit. -/
def entriesFit : List (UInt64 × CanonicalValue) → Bool
  | [] => true
  | (_, v) :: es => v.fits && entriesFit es

end

/-- Every string and list of the value is shorter than `2 ^ 64`. -/
def CanonicalValue.Fits (v : CanonicalValue) : Prop := v.fits = true

instance (v : CanonicalValue) : Decidable v.Fits := inferInstanceAs (Decidable (v.fits = true))

/-! ### Heads -/

theorem length_beBytes (n v : ℕ) : (beBytes n v).length = n := by
  induction n with
  | zero => rfl
  | succ n ih => simp [beBytes, ih]

theorem beBytes_mod (n k v : ℕ) (h : n ≤ k) : beBytes n (v % 256 ^ k) = beBytes n v := by
  induction n with
  | zero => rfl
  | succ n ih =>
    have hb : v % 256 ^ k / 256 ^ n % 256 = v / 256 ^ n % 256 := by
      obtain ⟨d, rfl⟩ := Nat.exists_eq_add_of_lt h
      have hp : 256 ^ (n + d + 1) = 256 ^ n * (256 * 256 ^ d) := by ring
      rw [hp, Nat.mod_mul_right_div_self, Nat.mod_mul_right_mod]
    have hh : UInt8.ofNat (v % 256 ^ k / 256 ^ n) = UInt8.ofNat (v / 256 ^ n) :=
      UInt8.toNat_inj.1 (by simpa using hb)
    rw [beBytes, beBytes, ih (by omega), hh]

theorem beBytes_inj {n v w : ℕ} (hv : v < 256 ^ n) (hw : w < 256 ^ n)
    (h : beBytes n v = beBytes n w) : v = w := by
  induction n generalizing v w with
  | zero => simp at hv hw; omega
  | succ n ih =>
    simp only [beBytes, cons.injEq] at h
    obtain ⟨hd, ht⟩ := h
    have hq : v / 256 ^ n = w / 256 ^ n := by
      have := congrArg UInt8.toNat hd
      simp only [UInt8.toNat_ofNat'] at this
      have h1 : v / 256 ^ n < 256 := Nat.div_lt_of_lt_mul (by rwa [← pow_succ])
      have h2 : w / 256 ^ n < 256 := Nat.div_lt_of_lt_mul (by rwa [← pow_succ])
      rwa [Nat.mod_eq_of_lt (by simpa using h1), Nat.mod_eq_of_lt (by simpa using h2)] at this
    have hm : v % 256 ^ n = w % 256 ^ n := by
      refine ih (Nat.mod_lt _ (by positivity)) (Nat.mod_lt _ (by positivity)) ?_
      rw [beBytes_mod n n v le_rfl, beBytes_mod n n w le_rfl, ht]
    rw [← Nat.div_add_mod v (256 ^ n), ← Nat.div_add_mod w (256 ^ n), hq, hm]

/-- The low five bits of a head's first byte. -/
def headInfo (v : ℕ) : ℕ :=
  if v ≤ 23 then v else if v ≤ 0xff then 24 else if v ≤ 0xffff then 25
  else if v ≤ 0xffffffff then 26 else 27

/-- The number of bytes that follow a first byte with the low bits `i`. -/
def headWidth (i : ℕ) : ℕ :=
  if i ≤ 23 then 0 else if i = 24 then 1 else if i = 25 then 2 else if i = 26 then 4 else 8

theorem headInfo_lt (v : ℕ) : headInfo v < 32 := by unfold headInfo; split_ifs <;> omega

theorem encodeMajor_eq (major : ℕ) (value : UInt64) :
    encodeMajor major value = UInt8.ofNat (32 * major + headInfo value.toNat) ::
      beBytes (headWidth (headInfo value.toNat)) value.toNat := by
  unfold encodeMajor headInfo
  dsimp only
  split_ifs with h <;> simp [headWidth, h, beBytes]

theorem lt_of_headInfo {v : ℕ} (hv : v < 2 ^ 64) (h : 23 < headInfo v) :
    v < 256 ^ headWidth (headInfo v) := by
  unfold headInfo at h ⊢
  split_ifs at h ⊢ <;> simp [headWidth] <;> omega

/-- **Heads are self-delimiting**: major type, argument and rest can be read back. -/
theorem encodeMajor_append_inj {m m' : ℕ} (hm : m < 8) (hm' : m' < 8) {a b : UInt64}
    {x y : List UInt8} (h : encodeMajor m a ++ x = encodeMajor m' b ++ y) :
    m = m' ∧ a = b ∧ x = y := by
  simp only [encodeMajor_eq, cons_append, cons.injEq] at h
  obtain ⟨hd, ht⟩ := h
  have hn := congrArg UInt8.toNat hd
  simp only [UInt8.toNat_ofNat'] at hn
  have ha := headInfo_lt a.toNat
  have hb := headInfo_lt b.toNat
  have hmm : m = m' := by omega
  have hi : headInfo a.toNat = headInfo b.toNat := by omega
  rw [hi] at ht
  obtain ⟨hbe, hxy⟩ := append_inj ht (by simp [length_beBytes])
  refine ⟨hmm, UInt64.toNat_inj.1 ?_, hxy⟩
  by_cases hs : 23 < headInfo b.toNat
  · have h1 := lt_of_headInfo a.toNat_lt (by omega)
    have h2 := lt_of_headInfo b.toNat_lt hs
    rw [hi] at h1
    exact beBytes_inj h1 h2 hbe
  · unfold headInfo at hi hs
    split_ifs at hi hs <;> omega

theorem ofNat_length_inj {a b : ℕ} (ha : a < 2 ^ 64) (hb : b < 2 ^ 64)
    (h : UInt64.ofNat a = UInt64.ofNat b) : a = b := by
  have := congrArg UInt64.toNat h
  simp only [UInt64.toNat_ofNat'] at this
  omega

/-! ### Values -/

/-- The major type a value is encoded with. -/
def CanonicalValue.major : CanonicalValue → ℕ
  | .unsigned _ => 0
  | .bytes _ => 2
  | .text _ => 3
  | .array _ => 4
  | .map _ => 5
  | .bool _ => 7

/-- The argument in the head of a value. -/
def CanonicalValue.arg : CanonicalValue → UInt64
  | .unsigned n => n
  | .bytes bs => .ofNat bs.length
  | .text s => .ofNat (utf8 s).length
  | .array items => .ofNat items.length
  | .map entries => .ofNat entries.length
  | .bool b => if b then 21 else 20

/-- What follows the head of a value. -/
def CanonicalValue.body : CanonicalValue → List UInt8
  | .unsigned _ => []
  | .bytes bs => bs
  | .text s => utf8 s
  | .array items => encodeItems items
  | .map entries => encodeEntries entries
  | .bool _ => []

theorem encodeValue_eq (v : CanonicalValue) :
    encodeValue v = encodeMajor v.major v.arg ++ v.body := by
  cases v with
  | bool b => cases b <;> rfl
  | unsigned n => simp [encodeValue, CanonicalValue.major, CanonicalValue.arg, CanonicalValue.body]
  | _ => rfl

theorem head_eq_of_encodeValue_append {v w : CanonicalValue} {x y : List UInt8}
    (h : encodeValue v ++ x = encodeValue w ++ y) :
    v.major = w.major ∧ v.arg = w.arg ∧ v.body ++ x = w.body ++ y := by
  have hlt : ∀ u : CanonicalValue, u.major < 8 := by
    intro u; cases u <;> simp [CanonicalValue.major]
  rw [encodeValue_eq v, encodeValue_eq w, append_assoc, append_assoc] at h
  exact encodeMajor_append_inj (hlt v) (hlt w) h

mutual

/-- **The encoding is self-delimiting**: a value that fits and what follows it can be read
back from the bytes. -/
theorem encodeValue_append_inj (v w : CanonicalValue) {x y : List UInt8} (hv : v.Fits)
    (hw : w.Fits) (h : encodeValue v ++ x = encodeValue w ++ y) : v = w ∧ x = y := by
  obtain ⟨hmajor, harg, hbody⟩ := head_eq_of_encodeValue_append h
  match v, w with
  | .unsigned a, .unsigned b => exact ⟨congrArg _ harg, hbody⟩
  | .bool a, .bool b =>
    refine ⟨congrArg _ ?_, hbody⟩
    cases a <;> cases b <;> simp [CanonicalValue.arg] at harg ⊢
  | .bytes a, .bytes b =>
    simp only [CanonicalValue.Fits, CanonicalValue.fits, decide_eq_true_eq] at hv hw
    obtain ⟨hab, hxy⟩ := append_inj hbody (ofNat_length_inj hv hw harg)
    exact ⟨congrArg _ hab, hxy⟩
  | .text a, .text b =>
    simp only [CanonicalValue.Fits, CanonicalValue.fits, decide_eq_true_eq] at hv hw
    obtain ⟨hab, hxy⟩ := append_inj hbody (ofNat_length_inj hv hw harg)
    exact ⟨congrArg _ (utf8_inj hab), hxy⟩
  | .array a, .array b =>
    simp only [CanonicalValue.Fits, CanonicalValue.fits, Bool.and_eq_true, decide_eq_true_eq]
      at hv hw
    obtain ⟨hab, hxy⟩ := encodeItems_append_inj a b hv.2 hw.2
      (ofNat_length_inj hv.1 hw.1 harg) hbody
    exact ⟨congrArg _ hab, hxy⟩
  | .map a, .map b =>
    simp only [CanonicalValue.Fits, CanonicalValue.fits, Bool.and_eq_true, decide_eq_true_eq]
      at hv hw
    obtain ⟨hab, hxy⟩ := encodeEntries_append_inj a b hv.2 hw.2
      (ofNat_length_inj hv.1 hw.1 harg) hbody
    exact ⟨congrArg _ hab, hxy⟩

theorem encodeItems_append_inj (vs ws : List CanonicalValue) {x y : List UInt8}
    (hv : itemsFit vs = true) (hw : itemsFit ws = true) (hl : vs.length = ws.length)
    (h : encodeItems vs ++ x = encodeItems ws ++ y) : vs = ws ∧ x = y := by
  match vs, ws with
  | [], [] => exact ⟨rfl, h⟩
  | v :: vs, w :: ws =>
    simp only [itemsFit, Bool.and_eq_true] at hv hw
    simp only [encodeItems, append_assoc] at h
    obtain ⟨rfl, ht⟩ := encodeValue_append_inj v w hv.1 hw.1 h
    obtain ⟨rfl, hxy⟩ := encodeItems_append_inj vs ws hv.2 hw.2 (by simpa using hl) ht
    exact ⟨rfl, hxy⟩

theorem encodeEntries_append_inj (es fs : List (UInt64 × CanonicalValue)) {x y : List UInt8}
    (he : entriesFit es = true) (hf : entriesFit fs = true) (hl : es.length = fs.length)
    (h : encodeEntries es ++ x = encodeEntries fs ++ y) : es = fs ∧ x = y := by
  match es, fs with
  | [], [] => exact ⟨rfl, h⟩
  | (k, v) :: es, (k', w) :: fs =>
    simp only [entriesFit, Bool.and_eq_true] at he hf
    simp only [encodeEntries, append_assoc] at h
    obtain ⟨-, rfl, ht⟩ := encodeMajor_append_inj (by omega) (by omega) h
    obtain ⟨rfl, ht'⟩ := encodeValue_append_inj v w he.1 hf.1 ht
    obtain ⟨rfl, hxy⟩ := encodeEntries_append_inj es fs he.2 hf.2 (by simpa using hl) ht'
    exact ⟨rfl, hxy⟩

end

/-- **Canonical CBOR is injective** on the values that fit. -/
theorem encodeCanonicalCbor_inj {v w : CanonicalValue} (hv : v.Fits) (hw : w.Fits)
    (h : encodeCanonicalCbor v = encodeCanonicalCbor w) : v = w :=
  (encodeValue_append_inj v w hv hw (congrArg (· ++ []) h)).1

end Hsp
