import Hsp.Core.Cbor
import Mathlib.Tactic.IntervalCases

/-!
# The deterministic form of CBOR

RFC 8949 leaves an encoder choices: the width of a head, definite or indefinite lengths, the order
of the entries of a map.  Its core deterministic form takes them away.  `CoreDeterministic v bs`
says, without reference to the encoder, that `bs` is that form of `v`: every head is the shortest
of its possible forms, every string, array and map is announced with its length, and the entries of
a map stand in the increasing byte order of their encoded keys.

A `CanonicalTree` is a value the source can hold.  Its maps are `BTreeMap`s, so their keys ascend.

* `coreDeterministic_encodeValue` : the encoder writes the core deterministic form;
* `canonicalCbor_deterministic` : with `encodeValue_append_inj`, the form can be read back.
-/

namespace Hsp

open Bool

/-! ### Values whose maps are ordered -/

mutual

/-- The keys of every map in the value ascend strictly. -/
def CanonicalValue.ascends : CanonicalValue → Bool
  | .array items => itemsAscend items
  | .map entries => decide (entries.Pairwise fun a b => a.1 < b.1) && entriesAscend entries
  | _ => true

/-- The maps in all the values of the list ascend. -/
def itemsAscend : List CanonicalValue → Bool
  | [] => true
  | v :: vs => v.ascends && itemsAscend vs

/-- The maps in all the values of the entries ascend. -/
def entriesAscend : List (UInt64 × CanonicalValue) → Bool
  | [] => true
  | (_, v) :: es => v.ascends && entriesAscend es

end

/-- A value as the source builds it, with its maps ordered and its lengths below `2 ^ 64`. -/
structure CanonicalTree where
  value : CanonicalValue
  fits : value.Fits
  ascends : value.ascends = true

/-- The deterministic encoding of a tree. -/
def CanonicalTree.bytes (v : CanonicalTree) : List UInt8 := encodeCanonicalCbor v.value

/-! ### Heads -/

/-- The forms of a head: the argument in the first byte, or in the `2 ^ w` bytes after it. -/
inductive IsHead (major arg : ℕ) : List UInt8 → Prop
  | direct (h : arg < 24) : IsHead major arg [UInt8.ofNat (32 * major + arg)]
  | extended (w : ℕ) (hw : w < 4) (h : arg < 256 ^ 2 ^ w) :
      IsHead major arg (UInt8.ofNat (32 * major + (24 + w)) :: beBytes (2 ^ w) arg)

/-- The shortest form of a head. -/
structure ShortestHead (major arg : ℕ) (bytes : List UInt8) : Prop where
  isHead : IsHead major arg bytes
  shortest : ∀ other, IsHead major arg other → bytes.length ≤ other.length

theorem isHead_encodeMajor (major : ℕ) (value : UInt64) :
    IsHead major value.toNat (encodeMajor major value) := by
  have hv := value.toNat_lt
  unfold encodeMajor
  dsimp only
  split_ifs
  · exact .direct (by omega)
  · exact .extended 0 (by omega) (by norm_num; omega)
  · exact .extended 1 (by omega) (by norm_num; omega)
  · exact .extended 2 (by omega) (by norm_num; omega)
  · exact .extended 3 (by omega) (by norm_num; omega)

/-- The forms of a head grow with `w`, and an argument that needs `w` fits no narrower one. -/
theorem shortestHead_encodeMajor (major : ℕ) (value : UInt64) :
    ShortestHead major value.toNat (encodeMajor major value) := by
  refine ⟨isHead_encodeMajor major value, fun other ho => ?_⟩
  rw [encodeMajor_eq]
  cases ho with
  | direct h =>
    have : headInfo value.toNat ≤ 23 := by unfold headInfo; split_ifs <;> omega
    simp [headWidth, length_beBytes, this]
  | extended w hw h =>
    have hwidth : headWidth (headInfo value.toNat) ≤ 2 ^ w := by
      unfold headInfo headWidth
      interval_cases w <;> norm_num at h <;> split_ifs <;> omega
    simpa [length_beBytes] using hwidth

/-! ### The order of encoded keys -/

theorem lt_cons_of_lt {a b : UInt8} {x y : List UInt8} (h : a < b) : a :: x < b :: y :=
  List.Lex.rel h

theorem lt_cons_of_tail {a : UInt8} {x y : List UInt8} (h : x < y) : a :: x < a :: y :=
  List.Lex.cons h

theorem beBytes_lt {n v w : ℕ} (hw : w < 256 ^ n) (h : v < w) : beBytes n v < beBytes n w := by
  induction n generalizing v w with
  | zero => simp at hw; omega
  | succ n ih =>
    have hp : 0 < 256 ^ n := by positivity
    have hqw : w / 256 ^ n < 256 := Nat.div_lt_of_lt_mul (by rwa [← pow_succ])
    have hq : v / 256 ^ n ≤ w / 256 ^ n := Nat.div_le_div_right h.le
    simp only [beBytes]
    rcases Nat.lt_or_ge (v / 256 ^ n) (w / 256 ^ n) with hlt | hge
    · refine lt_cons_of_lt (UInt8.lt_iff_toNat_lt.2 ?_)
      rw [UInt8.toNat_ofNat', UInt8.toNat_ofNat', Nat.mod_eq_of_lt (by omega),
        Nat.mod_eq_of_lt (by omega)]
      exact hlt
    · -- The first bytes agree, so the remainders are in the same order.
      have he : v / 256 ^ n = w / 256 ^ n := by omega
      have hm : v % 256 ^ n < w % 256 ^ n := by
        have h1 := Nat.div_add_mod v (256 ^ n)
        have h2 := Nat.div_add_mod w (256 ^ n)
        rw [he] at h1
        omega
      rw [he]
      refine lt_cons_of_tail ?_
      rw [← beBytes_mod n n v le_rfl, ← beBytes_mod n n w le_rfl]
      exact ih (Nat.mod_lt _ hp) hm

theorem headInfo_mono {a b : ℕ} (h : a ≤ b) : headInfo a ≤ headInfo b := by
  unfold headInfo
  split_ifs <;> omega

/-- **Encoded keys are in the order of the keys.** -/
theorem encodeMajor_lt {a b : UInt64} (h : a < b) : encodeMajor 0 a < encodeMajor 0 b := by
  have hn : a.toNat < b.toNat := UInt64.lt_iff_toNat_lt.1 h
  have hb := headInfo_lt b.toNat
  rw [encodeMajor_eq, encodeMajor_eq]
  rcases (headInfo_mono hn.le).lt_or_eq with hlt | heq
  · refine lt_cons_of_lt (UInt8.lt_iff_toNat_lt.2 ?_)
    rw [UInt8.toNat_ofNat', UInt8.toNat_ofNat', Nat.mod_eq_of_lt (by omega),
      Nat.mod_eq_of_lt (by omega)]
    omega
  · rw [heq]
    refine lt_cons_of_tail (beBytes_lt (lt_of_headInfo b.toNat_lt ?_) hn)
    unfold headInfo at heq ⊢
    split_ifs at heq ⊢ <;> omega

/-! ### The deterministic form -/

/-- The bytes are the core deterministic encoding of the value. -/
inductive CoreDeterministic : CanonicalValue → List UInt8 → Prop
  | unsigned {n head} (h : ShortestHead 0 n.toNat head) : CoreDeterministic (.unsigned n) head
  | bytes {bs head} (h : ShortestHead 2 bs.length head) :
      CoreDeterministic (.bytes bs) (head ++ bs)
  | text {s head} (h : ShortestHead 3 (utf8 s).length head) :
      CoreDeterministic (.text s) (head ++ utf8 s)
  | array {items head} {parts : List (List UInt8)} (h : ShortestHead 4 items.length head)
      (hitems : List.Forall₂ CoreDeterministic items parts) :
      CoreDeterministic (.array items) (head ++ parts.flatten)
  | map {entries head} {parts : List (List UInt8 × List UInt8)}
      (h : ShortestHead 5 entries.length head)
      (hkeys : List.Forall₂ (fun e p => ShortestHead 0 e.1.toNat p.1) entries parts)
      (hvalues : List.Forall₂ CoreDeterministic (entries.map Prod.snd) (parts.map Prod.snd))
      (horder : parts.Pairwise fun p q => p.1 < q.1) :
      CoreDeterministic (.map entries) (head ++ (parts.map fun p => p.1 ++ p.2).flatten)
  | false : CoreDeterministic (.bool false) [0xf4]
  | true : CoreDeterministic (.bool true) [0xf5]

/-- The encoded key and the encoded value of an entry. -/
def entryParts (e : UInt64 × CanonicalValue) : List UInt8 × List UInt8 :=
  (encodeMajor 0 e.1, encodeValue e.2)

theorem encodeItems_eq (vs : List CanonicalValue) :
    encodeItems vs = (vs.map encodeValue).flatten := by
  induction vs with
  | nil => rfl
  | cons v vs ih => simp [encodeItems, ih]

theorem encodeEntries_eq (es : List (UInt64 × CanonicalValue)) :
    encodeEntries es = ((es.map entryParts).map fun p => p.1 ++ p.2).flatten := by
  induction es with
  | nil => rfl
  | cons e es ih => simp [encodeEntries, entryParts, ih]

theorem shortestHead_length {n : ℕ} (major : ℕ) (h : n < 2 ^ 64) :
    ShortestHead major n (encodeMajor major (.ofNat n)) := by
  have hs := shortestHead_encodeMajor major (.ofNat n)
  rwa [UInt64.toNat_ofNat', Nat.mod_eq_of_lt h] at hs

mutual

/-- **The encoder writes the core deterministic form.** -/
theorem coreDeterministic_encodeValue (v : CanonicalValue) (hf : v.Fits)
    (ha : v.ascends = true) : CoreDeterministic v (encodeValue v) := by
  match v with
  | .unsigned n => exact .unsigned (shortestHead_encodeMajor 0 n)
  | .bool false => exact .false
  | .bool true => exact .true
  | .bytes bs =>
    simp only [CanonicalValue.Fits, CanonicalValue.fits, decide_eq_true_eq] at hf
    exact .bytes (shortestHead_length 2 hf)
  | .text s =>
    simp only [CanonicalValue.Fits, CanonicalValue.fits, decide_eq_true_eq] at hf
    exact .text (shortestHead_length 3 hf)
  | .array items =>
    simp only [CanonicalValue.Fits, CanonicalValue.fits, and_eq_true, decide_eq_true_eq] at hf
    simp only [CanonicalValue.ascends] at ha
    rw [encodeValue, encodeItems_eq]
    exact .array (shortestHead_length 4 hf.1) (coreDeterministic_items items hf.2 ha)
  | .map entries =>
    simp only [CanonicalValue.Fits, CanonicalValue.fits, and_eq_true, decide_eq_true_eq] at hf
    simp only [CanonicalValue.ascends, and_eq_true, decide_eq_true_eq] at ha
    rw [encodeValue, encodeEntries_eq]
    refine .map (shortestHead_length 5 hf.1) ?_ ?_ ?_
    · exact List.forall₂_map_right_iff.2
        (List.forall₂_same.2 fun e _ => shortestHead_encodeMajor 0 e.1)
    · rw [List.map_map]
      exact coreDeterministic_entries entries hf.2 ha.2
    · exact List.pairwise_map.2 (ha.1.imp fun h => encodeMajor_lt h)

theorem coreDeterministic_items (vs : List CanonicalValue) (hf : itemsFit vs = true)
    (ha : itemsAscend vs = true) : List.Forall₂ CoreDeterministic vs (vs.map encodeValue) := by
  match vs with
  | [] => exact .nil
  | v :: vs =>
    simp only [itemsFit, and_eq_true] at hf
    simp only [itemsAscend, and_eq_true] at ha
    exact .cons (coreDeterministic_encodeValue v hf.1 ha.1) (coreDeterministic_items vs hf.2 ha.2)

theorem coreDeterministic_entries (es : List (UInt64 × CanonicalValue))
    (hf : entriesFit es = true) (ha : entriesAscend es = true) :
    List.Forall₂ CoreDeterministic (es.map Prod.snd) (es.map (Prod.snd ∘ entryParts)) := by
  match es with
  | [] => exact .nil
  | (k, v) :: es =>
    simp only [entriesFit, and_eq_true] at hf
    simp only [entriesAscend, and_eq_true] at ha
    exact .cons (coreDeterministic_encodeValue v hf.1 ha.1)
      (coreDeterministic_entries es hf.2 ha.2)

end

/-- **Canonical CBOR is self-delimiting and core deterministic**: a tree and what follows it can be
read back from the bytes, and the bytes are the core deterministic form of the tree. -/
theorem canonicalCbor_deterministic :
    (∀ (v w : CanonicalTree) (x y : List UInt8), v.bytes ++ x = w.bytes ++ y → v = w ∧ x = y) ∧
      ∀ v : CanonicalTree, CoreDeterministic v.value v.bytes := by
  refine ⟨fun v w x y h => ?_, fun v => coreDeterministic_encodeValue _ v.fits v.ascends⟩
  obtain ⟨hvw, hxy⟩ := encodeValue_append_inj _ _ v.fits w.fits h
  obtain ⟨v, _, _⟩ := v
  obtain ⟨w, _, _⟩ := w
  obtain rfl : v = w := hvw
  exact ⟨rfl, hxy⟩

/-- Two keys whose heads have different widths stand in the order of the keys. -/
theorem canonicalCbor_deterministic_map :
    CoreDeterministic (.map [(9, .bool true), (24, .unsigned 500)])
      [0xa2, 0x09, 0xf5, 0x18, 24, 0x19, 1, 244] :=
  canonicalCbor_deterministic.2
    ⟨.map [(9, .bool true), (24, .unsigned 500)], by decide +kernel, by decide +kernel⟩

end Hsp
