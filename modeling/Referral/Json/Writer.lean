import Referral.Number.DoubleText
import Referral.Value

namespace Referral.Json

def escapeUnit (n : Nat) : List Char := '\x5c' :: 'u' :: (hexDigits 4 n).toList

def escape (c : Symbol) : List Char :=
  let n := c.code
  if n = 0x22 || n = 0x5c then ['\x5c', Char.ofNat n]
  else if 0x20 ≤ n && n < 0x7f then [Char.ofNat n]
  else if n < 0x10000 then escapeUnit n
  else escapeUnit (0xd800 + (n - 0x10000) / 0x400) ++ escapeUnit (0xdc00 + (n - 0x10000) % 0x400)

def writeText (t : Text) : String := String.ofList ('"' :: (t.symbols.flatMap escape ++ ['"']))

def writeDouble : Double → String
  | .nan => "NaN"
  | .infinity negative => if negative then "-Infinity" else "Infinity"
  | x => x.text

mutual

def write : Value → String
  | .null => "null"
  | .bool b => if b then "true" else "false"
  | .int n => decimalText n
  | .double x => writeDouble x
  | .text t => writeText t
  | .list elems => "[" ++ String.intercalate "," (writeElems elems) ++ "]"
  | .map members => "\x7b" ++ String.intercalate "," (writeMembers members) ++ "\x7d"

def writeElems : List Value → List String
  | [] => []
  | v :: vs => write v :: writeElems vs

def writeMembers : List (Text × Value) → List String
  | [] => []
  | (key, v) :: rest => (writeText key ++ ":" ++ write v) :: writeMembers rest

end

end Referral.Json
