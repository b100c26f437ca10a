import Hsp.Core.Cbor

/-!
# Canonical paths

Namespaces and paths are compared after one round of percent decoding.  The decoder of
`hsp-path` works on the bytes of its input and pushes every byte as a character of its own, and
a result that could be decoded again is refused.
-/

namespace Hsp

inductive PathError where
  | invalidPercentEncoding
  | doublePercentDecodingForbidden
  deriving DecidableEq, Repr

/-- The text of the error, as `Display` prints it. -/
def PathError.display : PathError → String
  | .invalidPercentEncoding => "invalid percent encoding"
  | .doublePercentDecodingForbidden => "double percent decoding is forbidden"

/-- The value of a hexadecimal digit. -/
def decodeHex (byte : UInt8) : Except PathError ℕ :=
  let b := byte.toNat
  if 0x30 ≤ b ∧ b ≤ 0x39 then .ok (b - 0x30)
  else if 0x61 ≤ b ∧ b ≤ 0x66 then .ok (b - 0x61 + 10)
  else if 0x41 ≤ b ∧ b ≤ 0x46 then .ok (b - 0x41 + 10)
  else .error .invalidPercentEncoding

/-- `u8::is_ascii_hexdigit`. -/
def isAsciiHexdigit (byte : UInt8) : Bool := (decodeHex byte).toBool

/-- One pass of percent decoding over the bytes of a string. -/
def percentDecodeBytes : List UInt8 → Except PathError (List Char)
  | [] => .ok []
  | byte :: rest =>
    if byte ≠ 0x25 then do
      let tail ← percentDecodeBytes rest
      return Char.ofNat byte.toNat :: tail
    else match rest with
      | high :: low :: rest => do
        let h ← decodeHex high
        let l ← decodeHex low
        let tail ← percentDecodeBytes rest
        return Char.ofNat (16 * h + l) :: tail
      | _ => .error .invalidPercentEncoding

def percentDecodeOnce (input : String) : Except PathError String :=
  String.ofList <$> percentDecodeBytes (utf8 input)

/-- Some three consecutive bytes are a percent sign and two hexadecimal digits. -/
def nestedPercentBytes : List UInt8 → Bool
  | [] => false
  | byte :: rest =>
    (match rest with
      | b :: c :: _ => byte == 0x25 && isAsciiHexdigit b && isAsciiHexdigit c
      | _ => false) || nestedPercentBytes rest

def containsNestedPercentEncoding (input : String) : Bool := nestedPercentBytes (utf8 input)

/-- The segments of a path, decoded once. -/
def canonicalSegments (path : String) : Except PathError (List String) := do
  let decoded ← percentDecodeOnce path
  if containsNestedPercentEncoding decoded then
    throw .doublePercentDecodingForbidden
  return (decoded.toList.splitOn '/').map String.ofList

def canonicalPath (path : String) : Except PathError String := do
  return String.intercalate "/" (← canonicalSegments path)

/-- The segments of `pathPrefix` are an initial part of those of `candidate`. -/
def segmentPrefixMatches (pathPrefix candidate : String) : Bool :=
  match canonicalSegments pathPrefix, canonicalSegments candidate with
  | .ok ps, .ok cs =>
    if ps.length > cs.length then false
    else (ps.zip cs).all fun (left, right) => left == right
  | _, _ => false

example : canonicalPath "tenant%2Fa" = .ok "tenant/a" := by decide +kernel
example : canonicalPath "tenant/%252Fsecret" = .error .doublePercentDecodingForbidden := by
  decide +kernel

end Hsp
