import Mathlib.Data.UInt

/-!
# Base64 with the URL-safe alphabet and no padding

`encode` packs three bytes into four characters; a rest of one or two bytes becomes two or three
characters.  `decode` refuses other characters, padding, and a last character whose unused low
bits are not zero.  Decoding undoes encoding (`decode_encode`).
-/

namespace Hsp

open List Option

namespace Base64

/-- The characters for the values `0` to `63`. -/
def alphabet : List Char :=
  "ABCDEFGHIJKLMNOPQRSTUVWXYZabcdefghijklmnopqrstuvwxyz0123456789-_".toList

/-- The character for a value below `64`. -/
def digit (n : ℕ) : Char := alphabet.getD n 'A'

/-- The value of a character. -/
def value (c : Char) : Option ℕ :=
  if alphabet.idxOf c < 64 then some (alphabet.idxOf c) else none

def encodeBytes : List UInt8 → List Char
  | a :: b :: c :: rest =>
    digit (a.toNat / 4) :: digit (a.toNat % 4 * 16 + b.toNat / 16) ::
      digit (b.toNat % 16 * 4 + c.toNat / 64) :: digit (c.toNat % 64) :: encodeBytes rest
  | [a, b] =>
    [digit (a.toNat / 4), digit (a.toNat % 4 * 16 + b.toNat / 16), digit (b.toNat % 16 * 4)]
  | [a] => [digit (a.toNat / 4), digit (a.toNat % 4 * 16)]
  | [] => []

def decodeChars : List Char → Option (List UInt8)
  | w :: x :: y :: z :: rest => do
    let p ← value w
    let q ← value x
    let r ← value y
    let s ← value z
    let tail ← decodeChars rest
    return .ofNat (p * 4 + q / 16) :: .ofNat (q % 16 * 16 + r / 4) :: .ofNat (r % 4 * 64 + s) ::
      tail
  | [w, x, y] => do
    let p ← value w
    let q ← value x
    let r ← value y
    if r % 4 = 0 then some [.ofNat (p * 4 + q / 16), .ofNat (q % 16 * 16 + r / 4)] else none
  | [w, x] => do
    let p ← value w
    let q ← value x
    if q % 16 = 0 then some [.ofNat (p * 4 + q / 16)] else none
  | [_] => none
  | [] => some []

/-- The text for some bytes. -/
def encode (bytes : List UInt8) : String := String.ofList (encodeBytes bytes)

/-- The bytes a text stands for, if it is well formed. -/
def decode (s : String) : Option (List UInt8) := decodeChars s.toList

theorem value_digit {n : ℕ} (h : n < 64) : value (digit n) = some n := by
  have key : ∀ m : Fin 64, value (digit m) = some m.val := by decide +kernel
  exact key ⟨n, h⟩

theorem ofNat_eq_of_toNat {n : ℕ} {b : UInt8} (h : n = b.toNat) : UInt8.ofNat n = b := by
  rw [h, UInt8.ofNat_toNat]

theorem decodeChars_encodeBytes (bytes : List UInt8) :
    decodeChars (encodeBytes bytes) = some bytes := by
  induction bytes using encodeBytes.induct with
  | case1 a b c rest ih =>
    have ha := a.toNat_lt
    have hb := b.toNat_lt
    have hc := c.toNat_lt
    rw [encodeBytes, decodeChars, value_digit (by omega), value_digit (by omega),
      value_digit (by omega), value_digit (by omega), ih]
    simp only [Option.bind_eq_bind, Option.bind_some, Option.pure_def, Option.some.injEq,
      cons.injEq, and_true]
    exact ⟨ofNat_eq_of_toNat (by omega), ofNat_eq_of_toNat (by omega),
      ofNat_eq_of_toNat (by omega)⟩
  | case2 a b =>
    have ha := a.toNat_lt
    have hb := b.toNat_lt
    rw [encodeBytes, decodeChars, value_digit (by omega), value_digit (by omega),
      value_digit (by omega)]
    simp only [Option.bind_eq_bind, Option.bind_some]
    rw [if_pos (by omega)]
    simp only [some.injEq, cons.injEq, and_true]
    exact ⟨ofNat_eq_of_toNat (by omega), ofNat_eq_of_toNat (by omega)⟩
  | case3 a =>
    have ha := a.toNat_lt
    rw [encodeBytes, decodeChars, value_digit (by omega), value_digit (by omega)]
    simp only [bind_eq_bind, bind_some]
    rw [if_pos (by omega)]
    simp only [some.injEq, cons.injEq, and_true]
    exact ofNat_eq_of_toNat (by omega)
  | case4 => rfl

/-- **Decoding undoes encoding.** -/
theorem decode_encode (bytes : List UInt8) : decode (encode bytes) = some bytes := by
  rw [decode, encode, String.toList_ofList, decodeChars_encodeBytes]

theorem encode_inj {a b : List UInt8} (h : encode a = encode b) : a = b := by
  have := decode_encode a
  rw [h, decode_encode] at this
  exact (some.inj this).symm

/-- Another character is refused, wherever it stands. -/
theorem decodeChars_eq_none {x : Char} (hx : value x = none) {chars : List Char} (h : x ∈ chars) :
    decodeChars chars = none := by
  induction chars using decodeChars.induct with
  | case1 w y z u rest ih =>
    simp only [mem_cons] at h
    rw [decodeChars]
    rcases h with rfl | rfl | rfl | rfl | h
    all_goals simp [*]
  | case2 w y z =>
    simp only [mem_cons, not_mem_nil, or_false] at h
    rw [decodeChars]
    rcases h with rfl | rfl | rfl <;> simp [*]
  | case3 w y =>
    simp only [mem_cons, not_mem_nil, or_false] at h
    rw [decodeChars]
    rcases h with rfl | rfl <;> simp [*]
  | case4 => rfl
  | case5 => cases h

theorem not_mem_encodeBytes {x : Char} (key : ∀ m : Fin 64, digit m ≠ x) (bytes : List UInt8) :
    x ∉ encodeBytes bytes := by
  have hd : ∀ n, n < 64 → x ≠ digit n := fun n h => (key ⟨n, h⟩).symm
  induction bytes using encodeBytes.induct with
  | case1 a b c rest ih =>
    have ha := a.toNat_lt
    have hb := b.toNat_lt
    have hc := c.toNat_lt
    simp only [encodeBytes, mem_cons, not_or]
    exact ⟨hd _ (by omega), hd _ (by omega), hd _ (by omega), hd _ (by omega), ih⟩
  | case2 a b =>
    have ha := a.toNat_lt
    have hb := b.toNat_lt
    simp only [encodeBytes, mem_cons, not_mem_nil, or_false, not_or]
    exact ⟨hd _ (by omega), hd _ (by omega), hd _ (by omega)⟩
  | case3 a =>
    have ha := a.toNat_lt
    simp only [encodeBytes, mem_cons, not_mem_nil, or_false, not_or]
    exact ⟨hd _ (by omega), hd _ (by omega)⟩
  | case4 => simp [encodeBytes]

theorem slash_not_mem_encodeBytes (bytes : List UInt8) : '/' ∉ encodeBytes bytes :=
  not_mem_encodeBytes (by decide +kernel) bytes

theorem dot_not_mem_encodeBytes (bytes : List UInt8) : '.' ∉ encodeBytes bytes :=
  not_mem_encodeBytes (by decide +kernel) bytes

end Base64

end Hsp
