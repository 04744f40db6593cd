
namespace Referral

def decimalDigits (n : Nat) : String := String.ofList (Nat.toDigits 10 n)

def decimalText (n : Int) : String :=
  if n < 0 then "-" ++ decimalDigits n.natAbs else decimalDigits n.natAbs

/-- The most digits that the text of an integer may have. -/
def digitLimit : Nat := 4300

def tooLong (n : Int) : Bool := Nat.pow 10 digitLimit ≤ n.natAbs

def decimalText? (n : Int) : Option String := if tooLong n then none else some (decimalText n)

def positional (base : Nat) (digits : List Nat) : Nat := digits.foldl (fun n d => base * n + d) 0

def padded (width : Nat) (text : String) : String :=
  String.ofList (List.replicate (width - text.length) '0') ++ text

def hexDigits (width n : Nat) : String := padded width (String.ofList (Nat.toDigits 16 n))

def hexValue? (c : Char) : Option Nat :=
  if '0' ≤ c && c ≤ '9' then some (c.toNat - 48)
  else if 'a' ≤ c && c ≤ 'f' then some (c.toNat - 87)
  else if 'A' ≤ c && c ≤ 'F' then some (c.toNat - 55)
  else none

end Referral
