import Referral.Number.Digits
import Referral.Schema.Checked
import Referral.Text.CharClass

namespace Referral.Schema

def withoutPlus? : List Char → Option (List Char)
  | '+' :: '-' :: _ => none
  | '+' :: rest => some rest
  | s => some s

/-- The text behind a zero and the zeros and underscores after it; `last` is the character before
the text. One zero stays where a point follows or where nothing does. -/
def afterZeros? (last : Char) : List Char → Option (List Char)
  | [] => some [last]
  | c :: rest =>
    if c = '0' || c = '_' then afterZeros? c rest
    else if c = '.' then some (last :: c :: rest)
    else if c = '-' || c.isDigit then some (c :: rest)
    else none

def withoutZeros? : List Char → Option (List Char)
  | '0' :: rest => afterZeros? '0' rest
  | c :: rest => if c = '-' || c.isDigit then some (c :: rest) else none
  | [] => none

def withoutFraction (s : List Char) : List Char :=
  let (whole, tail) := s.span (· ≠ '.')
  if 1 < tail.length && (tail.drop 1).all (· = '0') then whole else s

/-- The text without underscores, unless one stands at an end or beside another. -/
def withoutUnderscores (s : List Char) : List Char :=
  if ((String.ofList s).splitOn "_").all (!·.isEmpty) then s.filter (· ≠ '_') else s

def cleaned? (s : List Char) : Option (List Char) := do
  let s ← withoutZeros? (← withoutPlus? (Text.trimBy Text.isWhite s))
  return withoutUnderscores (withoutFraction s)

def plainInteger (s : List Char) : Checked Int :=
  let (negative, unsigned) :=
    match s with
    | '-' :: rest => (true, rest)
    | rest => (false, rest)
  let (digits, rest) := Text.takeDigits Text.asciiDigitValue? unsigned
  if 1 < digits.length && digits.head? = some 0 then .fail .malformedInteger
  else if digitLimit < (if negative then 1 else 0) + digits.length then .fail .oversizeInteger
  else if digits.isEmpty || !rest.isEmpty then .fail .malformedInteger
  else .ok (signed negative (positional 10 digits))

def integerText (s : String) : Checked Int :=
  (cleaned? s.toList).elim (.fail .malformedInteger) plainInteger

/-- An integer; a double has to be one and to need less than 64 bits. -/
def integer : Value → Checked Int
  | .int n => .ok n
  | .bool b => .ok (if b then 1 else 0)
  | .double x =>
    match x.integer? with
    | some n => if n.natAbs < Nat.pow 2 63 then .ok n else .fail .oversizeInteger
    | none => if x.isFinite then .fail .fractionalInteger else .fail .notFinite
  | .text t => do integerText (← string t)
  | _ => .fail .notInteger

end Referral.Schema
