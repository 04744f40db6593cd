import Referral.Number.Double
import Referral.Text.Numeral

namespace Referral.Double

def read? (s : List Char) : Option Double :=
  let (negative, rest) := Text.takeSign s
  let word := String.ofList (rest.map Char.toLower)
  if word = "inf" || word = "infinity" then some (.infinity negative)
  else if word = "nan" then some .nan
  else
    match Text.Numeral.take? rest with
    | some (n, []) => some (ofDecimal negative n.coefficient n.scale)
    | _ => none

end Referral.Double
