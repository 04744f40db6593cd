import Referral.Number.DoubleReader
import Referral.Text.Plain

namespace Referral

namespace Text

def afterNumericHead? (s : List Char) : Option (List Char) :=
  let unsigned := (takeSign s).2
  match afterWord? "Infinity".toList unsigned with
  | some rest => some rest
  | none => (Numeral.take? unsigned).map (·.2)

def numericHead? (s : List Char) : Option (List Char) :=
  let body := s.dropWhile isBlank
  (afterNumericHead? body).map fun rest => body.take (body.length - rest.length)

/-- The double that the numeric head of a text stands for; NaN if it has none. A numeric head ends
before any lone surrogate. -/
def looseDouble (t : Text) : Double := ((numericHead? t.head.toList).bind Double.read?).getD .nan

end Text

def Value.looseDouble? (v : Value) : Option Double := v.loose?.map Text.looseDouble

end Referral
