import Referral.Number.Digits
import Referral.Text.CharClass

namespace Referral.Text

/-- `whole.fraction` times ten to the exponent, digit by digit. -/
structure Numeral where
  whole : List Nat
  fraction : List Nat
  exponent : Int
  deriving DecidableEq

namespace Numeral

def coefficient (n : Numeral) : Nat := positional 10 (n.whole ++ n.fraction)

def scale (n : Numeral) : Int := n.exponent - n.fraction.length

end Numeral

def takeSign : List Char → Bool × List Char
  | '-' :: rest => (true, rest)
  | '+' :: rest => (false, rest)
  | s => (false, s)

def takeExponent (s : List Char) : Int × List Char :=
  match s with
  | mark :: rest =>
    if mark = 'e' || mark = 'E' then
      let (negative, unsigned) := takeSign rest
      match takeDigits digitValue? unsigned with
      | ([], _) => (0, s)
      | (ds, rest) => (let n : Int := positional 10 ds; if negative then -n else n, rest)
    else (0, s)
  | [] => (0, [])

/-- The longest numeral at the head of a text. A mark of an exponent that no digit follows is left.
-/
def Numeral.take? (s : List Char) : Option (Numeral × List Char) :=
  match takeDigits digitValue? s with
  | ([], '.' :: rest) =>
    match takeDigits digitValue? rest with
    | ([], _) => none
    | (fraction, rest) =>
      let (exponent, rest) := takeExponent rest
      some (⟨[], fraction, exponent⟩, rest)
  | ([], _) => none
  | (whole, rest) =>
    let (fraction, rest) :=
      match rest with
      | '.' :: rest => takeDigits digitValue? rest
      | rest => ([], rest)
    let (exponent, rest) := takeExponent rest
    some (⟨whole, fraction, exponent⟩, rest)

end Referral.Text
