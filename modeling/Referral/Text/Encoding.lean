import Referral.Text.Bytes

namespace Referral.Text

inductive Encoding where
  | utf8
  | utf16 (bigEndian : Bool)
  | utf32 (bigEndian : Bool)
  deriving DecidableEq

def Encoding.of : List Nat → Encoding
  | [0, _] => utf16 true
  | [_, 0] => utf16 false
  | 0 :: b :: _ :: _ :: _ => if b = 0 then utf32 true else utf16 true
  | _ :: 0 :: b :: c :: _ => if b = 0 && c = 0 then utf32 false else utf16 false
  | _ => utf8

def bytePair (bigEndian : Bool) (a b : Nat) : Nat := if bigEndian then 256 * a + b else a + 256 * b

def units? (bigEndian : Bool) : List Nat → Option (List Nat)
  | [] => some []
  | a :: b :: rest => (units? bigEndian rest).map (bytePair bigEndian a b :: ·)
  | [_] => none

def charOf (n : Nat) : Char := if n.isValidChar then Char.ofNat n else '\ufffd'

def joinUnits : List Nat → List Char
  | [] => []
  | [a] => [charOf a]
  | a :: b :: rest =>
    if 0xd800 ≤ a && a < 0xdc00 && 0xdc00 ≤ b && b < 0xe000 then
      charOf (0x10000 + (a - 0xd800) * 0x400 + (b - 0xdc00)) :: joinUnits rest
    else charOf a :: joinUnits (b :: rest)

def joinWide? (bigEndian : Bool) : List Nat → Option (List Char)
  | [] => some []
  | a :: b :: rest =>
    let n := if bigEndian then 65536 * a + b else a + 65536 * b
    if n < 0x110000 then (joinWide? bigEndian rest).map (charOf n :: ·) else none
  | [_] => none

def decode? (bytes : List Nat) : Encoding → Option (List Char)
  | .utf8 => some (ofBytes bytes)
  | .utf16 bigEndian => (units? bigEndian bytes).map joinUnits
  | .utf32 bigEndian => (units? bigEndian bytes).bind (joinWide? bigEndian)

end Referral.Text
