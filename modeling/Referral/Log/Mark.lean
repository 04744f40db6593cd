import Referral.Number.DoublePlaces
import Referral.Text.Plain

namespace Referral.Log

inductive FillFault where
  | tooFew
  | tooMany
  | wrongKind
  | malformed
  | missingKey
  | outOfRange
  | tooLarge
  deriving DecidableEq

structure Mark where
  leftAligned : Bool
  signed : Bool
  spaced : Bool
  alternate : Bool
  zeroed : Bool
  width : Option Nat
  precision : Option Nat
  letter : Symbol

namespace Mark

def plain : Mark := ⟨false, false, false, false, false, none, none, .char 's'⟩

def withFlag? (m : Mark) : Symbol → Option Mark
  | .char '-' => some { m with leftAligned := true }
  | .char '+' => some { m with signed := true }
  | .char ' ' => some { m with spaced := true }
  | .char '#' => some { m with alternate := true }
  | .char '0' => some { m with zeroed := true }
  | _ => none

def sizeLimit : Nat := 1000000000

def isHuge (m : Mark) : Bool :=
  let cuts := [Symbol.char 's', .char 'r', .char 'a'].contains m.letter
  sizeLimit < m.width.getD 0 || (!cuts && sizeLimit < m.precision.getD 0)

def unsized (m : Mark) : Mark := { m with width := none, precision := none }

def cut (m : Mark) (t : Text) : Text := m.precision.elim t fun n => .ofSymbols (t.symbols.take n)

def aligned (m : Mark) (t : Text) : Text :=
  let blanks : Text := String.ofList (List.replicate (m.width.getD 0 - t.symbols.length) ' ')
  if m.leftAligned then t ++ blanks else blanks ++ t

/-- A number with its sign and what stands before its digits, up to the width: zeros behind the
sign, or blanks. -/
def number (m : Mark) (negative : Bool) (before digits : String) : Text :=
  let sign := if negative then "-" else if m.signed then "+" else if m.spaced then " " else ""
  let missing := m.width.getD 0 - (sign.length + before.length + digits.length)
  let zeros := if m.zeroed && !m.leftAligned then String.ofList (List.replicate missing '0') else ""
  m.aligned (sign ++ before ++ zeros ++ digits : String)

def integer (m : Mark) (base : Nat) (before : String) (n : Int) : Text :=
  let digits := padded (m.precision.getD 0) (String.ofList (Nat.toDigits base n.natAbs))
  m.number (decide (n < 0)) (if m.alternate then before else "") digits

def whole : Value → Except FillFault Int
  | .int n => return n
  | .bool b => return if b then 1 else 0
  | .double x =>
    match x.truncated? with
    | some n => return n
    | none => throw (if x.isNaN then .malformed else .outOfRange)
  | _ => throw .wrongKind

def exact : Value → Except FillFault Int
  | .int n => return n
  | .bool b => return if b then 1 else 0
  | _ => throw .wrongKind

def double : Value → Except FillFault Double
  | .double x => return x
  | v => do
    let x := Double.ofInt (← exact v)
    if x.isFinite then return x else throw .outOfRange

def doubleText (m : Mark) (style : Char) (x : Double) : String :=
  let precision := m.precision.getD 6
  match x with
  | .nan => "nan"
  | .infinity _ => "inf"
  | .finite _ rank =>
    let m' := Double.mantissa rank
    let q := Double.scale rank
    if style = 'e' then Double.scientificText m.alternate precision m' q
    else if style = 'f' then Double.fixedText m.alternate precision m' q
    else Double.generalText m.alternate precision m' q

def isNegative : Double → Bool
  | .nan => false
  | .infinity negative | .finite negative _ => negative

def symbol : Value → Except FillFault Symbol
  | .text t =>
    match t.symbols with
    | [c] => return c
    | _ => throw .wrongKind
  | v => do
    let n ← exact v
    if 0 ≤ n && n < 0x110000 then return .ofCode n.toNat else throw .outOfRange

def asciiText (s : String) : String :=
  String.ofList (s.toList.flatMap fun c => if c.toNat < 0x80 then [c] else Text.escapeCode c.toNat)

def upper (s : String) : String := s.map Char.toUpper

def show? (m : Mark) (v : Value) : Except FillFault Text :=
  let shown (t : Option Text) : Except FillFault Text :=
    t.elim (throw .malformed) fun t => return m.aligned (m.cut t)
  match m.letter with
  | .lone _ => throw .malformed
  | .char c =>
    match c with
    | 's' => shown v.plain?
    | 'r' => shown (v.nested?.map fun s => s)
    | 'a' => shown (v.nested?.map fun s => asciiText s)
    | 'd' | 'i' | 'u' => do
      let n ← whole v
      if tooLong n then throw .malformed else return m.integer 10 "" n
    | 'o' => return m.integer 8 "0o" (← exact v)
    | 'x' => return m.integer 16 "0x" (← exact v)
    | 'X' => do
      let n ← exact v
      let digits := padded (m.precision.getD 0) (String.ofList (Nat.toDigits 16 n.natAbs))
      return m.number (decide (n < 0)) (if m.alternate then "0X" else "") (upper digits)
    | 'e' | 'f' | 'g' => do
      let x ← double v
      return m.number (isNegative x) "" (m.doubleText c x)
    | 'E' | 'F' | 'G' => do
      let x ← double v
      return m.number (isNegative x) "" (upper (m.doubleText c.toLower x))
    | 'c' => return m.aligned (.ofSymbols [← symbol v])
    | _ => throw .malformed

end Mark

end Referral.Log
