import Hsp.Sample.Basic

/-!
# A CBOR reader for the sample deployment

Enough of a CBOR decoder to read cursors: maps whose keys and values are numbers and texts.  It
reads back what `encodeCanonicalCbor` writes (`readsMaps`), so the assumption about the decoder of a
platform can be met.
-/

namespace Hsp

open List

namespace Sample

/-- The number with the given bytes, highest first. -/
def ofBe : List UInt8 → ℕ
  | [] => 0
  | b :: bs => b.toNat * 256 ^ bs.length + ofBe bs

theorem ofBe_beBytes (n v : ℕ) : ofBe (beBytes n v) = v % 256 ^ n := by
  induction n with
  | zero => simp [beBytes, ofBe, Nat.mod_one]
  | succ n ih =>
    have hsplit : v % 256 ^ (n + 1) = v % 256 ^ n + 256 ^ n * (v / 256 ^ n % 256) := by
      rw [pow_succ, Nat.mod_mul]
    rw [beBytes, ofBe, length_beBytes, ih, UInt8.toNat_ofNat', hsplit]
    ring

/-- The head of an item: major type and argument. -/
def readHead : List UInt8 → Option (ℕ × ℕ × List UInt8)
  | [] => none
  | b :: rest =>
    let info := b.toNat % 32
    let width := headWidth info
    if info ≤ 23 then some (b.toNat / 32, info, rest)
    else if 27 < info ∨ rest.length < width then none
    else some (b.toNat / 32, ofBe (rest.take width), rest.drop width)

theorem headInfo_le (v : ℕ) : headInfo v ≤ 27 := by
  unfold headInfo
  split_ifs <;> omega

theorem headInfo_eq {v : ℕ} (h : headInfo v ≤ 23) : headInfo v = v := by
  unfold headInfo at h ⊢
  split_ifs at h ⊢ <;> omega

theorem readHead_encodeMajor {major : ℕ} (hmajor : major < 8) (a : UInt64) (rest : List UInt8) :
    readHead (encodeMajor major a ++ rest) = some (major, a.toNat, rest) := by
  have hinfo := headInfo_lt a.toNat
  have hbyte : (UInt8.ofNat (32 * major + headInfo a.toNat)).toNat =
      32 * major + headInfo a.toNat := by
    rw [UInt8.toNat_ofNat']
    omega
  rw [encodeMajor_eq, cons_append, readHead]
  simp only [hbyte]
  have hmod : (32 * major + headInfo a.toNat) % 32 = headInfo a.toNat := by omega
  have hdiv : (32 * major + headInfo a.toNat) / 32 = major := by omega
  rw [hmod, hdiv]
  by_cases hsmall : headInfo a.toNat ≤ 23
  · rw [if_pos hsmall, headInfo_eq hsmall]
    have hwidth : headWidth a.toNat = 0 := by
      rw [← headInfo_eq hsmall, headWidth, if_pos hsmall]
    rw [hwidth]
    rfl
  · have hlong : ¬ (27 < headInfo a.toNat ∨ (beBytes (headWidth (headInfo a.toNat)) a.toNat ++
        rest).length < headWidth (headInfo a.toNat)) := by
      have := headInfo_le a.toNat
      simp [length_beBytes]
      omega
    have hlt := lt_of_headInfo a.toNat_lt (not_le.1 hsmall)
    rw [if_neg hsmall, if_neg hlong, take_left' (length_beBytes _ _),
      drop_left' (length_beBytes _ _), ofBe_beBytes, Nat.mod_eq_of_lt hlt]

/-- A number or a text. -/
def readScalar (bytes : List UInt8) : Option (CiboriumValue × List UInt8) := do
  let (major, arg, rest) ← readHead bytes
  if major = 0 then return (.integer arg, rest)
  else if major = 3 ∧ arg ≤ rest.length then
    let s ← String.fromUTF8? ⟨(rest.take arg).toArray⟩
    return (.text s, rest.drop arg)
  else none

theorem readScalar_encodeValue {v : CanonicalValue} (hscalar : v.isScalar) (hfits : v.Fits)
    (rest : List UInt8) : readScalar (encodeValue v ++ rest) = some (v.toCiborium, rest) := by
  cases v with
  | unsigned n =>
    rw [encodeValue, readScalar, readHead_encodeMajor (by omega)]
    rfl
  | text s =>
    have hlength : (UInt64.ofNat (utf8 s).length).toNat = (utf8 s).length := by
      rw [UInt64.toNat_ofNat', Nat.mod_eq_of_lt (of_decide_eq_true hfits)]
    rw [encodeValue, append_assoc, readScalar, readHead_encodeMajor (by omega), hlength]
    simp [fromUTF8?_utf8, CanonicalValue.toCiborium]
  | _ => cases hscalar

/-- The given number of entries. -/
def readEntries : ℕ → List UInt8 → Option (List (CiboriumValue × CiboriumValue))
  | 0, _ => some []
  | n + 1, bytes => do
    let (key, rest) ← readScalar bytes
    let (value, rest) ← readScalar rest
    let entries ← readEntries n rest
    return (key, value) :: entries

theorem readEntries_encodeEntries {entries : List (UInt64 × CanonicalValue)}
    (hscalar : ∀ e ∈ entries, e.2.isScalar) (hfits : entriesFit entries = true) :
    readEntries entries.length (encodeEntries entries) =
      some (entries.map fun e => (.integer e.1.toNat, e.2.toCiborium)) := by
  induction entries with
  | nil => rfl
  | cons e entries ih =>
    obtain ⟨key, value⟩ := e
    simp only [entriesFit, Bool.and_eq_true] at hfits
    have hkey := readScalar_encodeValue (v := .unsigned key) rfl rfl
      (encodeValue value ++ encodeEntries entries)
    have hvalue := readScalar_encodeValue (hscalar _ mem_cons_self) hfits.1
      (encodeEntries entries)
    have hrest := ih (fun e he => hscalar e (mem_cons_of_mem _ he)) hfits.2
    rw [encodeValue] at hkey
    simp [readEntries, encodeEntries, hkey, hvalue, hrest, CanonicalValue.toCiborium]

/-- A map of numbers and texts. -/
def readValue (bytes : List UInt8) : Option CiboriumValue := do
  let (major, arg, rest) ← readHead bytes
  if major = 5 then .map <$> readEntries arg rest else none

/-- The sample deployment with a CBOR reader. -/
def readingEnv (records : List NamespaceMutationRecord) : Env :=
  { Sample.env records with valueFromReader := readValue }

/-- **The reader reads back maps of numbers and texts.** -/
theorem readsMaps_of_readValue {env : Env} (h : env.valueFromReader = readValue) :
    env.ReadsMaps := by
  intro entries hscalar hfits
  simp only [CanonicalValue.Fits, CanonicalValue.fits, Bool.and_eq_true, decide_eq_true_eq] at hfits
  have hlength : (UInt64.ofNat entries.length).toNat = entries.length := by
    rw [UInt64.toNat_ofNat', Nat.mod_eq_of_lt hfits.1]
  rw [h, encodeCanonicalCbor, encodeValue, readValue, readHead_encodeMajor (by omega), hlength]
  simp [readEntries_encodeEntries hscalar hfits.2]

theorem readsMaps (records : List NamespaceMutationRecord) : (readingEnv records).ReadsMaps :=
  readsMaps_of_readValue rfl

end Sample

end Hsp
