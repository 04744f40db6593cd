import Referral.Number.Digits
import Referral.Number.Shortest

namespace Referral

open Shortest (Scientific)

def Shortest.Scientific.plain (d : Scientific) : String :=
  let ds := Nat.toDigits 10 d.digits
  let point := d.exponent + ds.length
  if point ≤ 0 then "0." ++ String.ofList (List.replicate (-point).toNat '0' ++ ds)
  else if ds.length ≤ point.toNat then
    String.ofList (ds ++ List.replicate (point.toNat - ds.length) '0') ++ ".0"
  else String.ofList (ds.take point.toNat) ++ "." ++ String.ofList (ds.drop point.toNat)

def Shortest.Scientific.withExponent (d : Scientific) : String :=
  let ds := Nat.toDigits 10 d.digits
  let power := d.exponent + ds.length - 1
  let tail := if ds.length = 1 then "" else "." ++ String.ofList (ds.drop 1)
  let sign := if power < 0 then "-" else "+"
  String.ofList (ds.take 1) ++ tail ++ "e" ++ sign ++ padded 2 (decimalDigits power.natAbs)

def Shortest.Scientific.text (d : Scientific) : String :=
  let power := d.exponent + (Nat.toDigits 10 d.digits).length - 1
  if -4 ≤ power && power < 16 then d.plain else d.withExponent

namespace Double

def text : Double → String
  | nan => "nan"
  | infinity negative => if negative then "-inf" else "inf"
  | finite negative rank =>
    let magnitude :=
      if rank.val = 0 then "0.0"
      else (Shortest.decimal (mantissa rank) (scale rank)).text
    if negative then "-" ++ magnitude else magnitude

end Double

end Referral
