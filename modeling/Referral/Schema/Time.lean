import Referral.Number.Double
import Referral.Schema.Checked
import Referral.Text.Numeral
import Referral.Time.Iso

namespace Referral.Schema

def dateDigits (count : Nat) (why : TimeReason) (s : List Char) :
    Except TimeReason (Nat × List Char) :=
  (Iso.digits? count s).elim (.error why) .ok

def dateDash : List Char → Except TimeReason (List Char)
  | '-' :: rest => .ok rest
  | _ => .error .dateSeparator

def readDate (s : List Char) : Except TimeReason (Option Date × List Char) := do
  if (String.ofList s).utf8ByteSize < 10 then throw .tooShort
  let (year, rest) ← dateDigits 4 .yearDigit s
  let rest ← dateDash rest
  let (month, rest) ← dateDigits 2 .monthDigit rest
  let rest ← dateDash rest
  let (day, rest) ← dateDigits 2 .dayDigit rest
  if month < 1 || 12 < month then throw .monthRange
  if day < 1 || daysInMonth year month < day then throw .dayRange
  return (Date.of? year month day, rest)

def readSeconds? : List Char → Option ((Nat × Nat) × List Char)
  | ':' :: rest => do
    let (second, rest) ← Iso.digits? 2 rest
    match rest with
    | c :: after =>
      if c = '.' || c = ',' then
        let (ds, rest) := Text.takeDigits Text.asciiDigitValue? after
        let micro := positional 10 (ds.take 6) * Nat.pow 10 (6 - (ds.take 6).length)
        if ds.isEmpty then none else some ((second, micro), rest)
      else some ((second, 0), rest)
    | [] => some ((second, 0), [])
  | rest => some ((0, 0), rest)

def zoneSigns : List (Char × Bool) := [('+', false), ('-', true), ('\u2212', true)]

def readZone? : List Char → Option (Option Offset)
  | [] => some none
  | ['Z'] | ['z'] => some (some Offset.utc)
  | sign :: rest => do
    let (hours, rest) ← Iso.digits? 2 rest
    let rest := match rest with
      | ':' :: after => after
      | rest => rest
    let (minutes, rest) ← Iso.digits? 2 rest
    let span : Int := (hours * 3600 + minutes * 60 : Nat) * 1000000
    if !rest.isEmpty || 60 ≤ minutes then none
    else (Offset.of? (if ← zoneSigns.lookup sign then -span else span)).map some

def readTimeOfDay? : List Char → Option (TimeOfDay × Option Offset)
  | separator :: rest => do
    let (hour, rest) ← Iso.digits? 2 rest
    match rest with
    | ':' :: rest =>
      let (minute, rest) ← Iso.digits? 2 rest
      let ((second, micro), rest) ← readSeconds? rest
      let offset ← readZone? rest
      let time ← TimeOfDay.of? hour minute second micro
      if ['T', 't', ' ', '_'].contains separator then some (time, offset) else none
    | _ => none
  | [] => none

/-- Counts further than this from zero are milliseconds. -/
def secondsLimit : Nat := 20000000000

def isShortCount (n : Int) : Bool := -(Nat.pow 2 63 : Int) ≤ n && n < Nat.pow 2 63

def ofSeconds (seconds : Int) (micros : Nat) : Except TimeReason Timestamp :=
  if seconds < -62167219200 then .error .tooEarly
  else if 253402300799 < seconds then .error .tooLate
  else (Timestamp.ofUnix? seconds micros).elim (.error .yearZero) .ok

def ofCount (n : Int) : Except TimeReason Timestamp :=
  if secondsLimit < n.natAbs then ofSeconds (n / 1000) ((n % 1000).toNat * 1000) else ofSeconds n 0

/-- The timestamp of a count with a fraction. What is left of a second is rounded to microseconds, a
tie up. -/
def ofFraction (x : Double) : Except TimeReason Timestamp :=
  match x.ratio? with
  | none =>
    match x with
    | .infinity negative => .error (if negative then .tooEarly else .tooLate)
    | _ => .error .notANumber
  | some (num, den) =>
    let scale := if secondsLimit * den < num.natAbs then 1000 else 1
    let (num, den) := ((Double.ofRatio num (den * scale)).ratio?).getD (0, 1)
    let whole := num / den
    let (num, den) := ((Double.ofRatio (num - whole * den) den).ratio?).getD (0, 1)
    let (num, den) := ((Double.ofRatio (num * 1000000) den).ratio?).getD (0, 1)
    let micros := roundHalfUp num.toNat den
    ofSeconds (whole + (micros / 1000000 : Nat)) (micros % 1000000)

def countText? (s : List Char) : Option (Except TimeReason Timestamp) :=
  let (negative, unsigned) := Text.takeSign s
  let (whole, rest) := Text.takeDigits Text.asciiDigitValue? unsigned
  let n := signed negative (positional 10 whole)
  if !isShortCount n || n = -(Nat.pow 2 63 : Int) then none
  else
    match rest with
    | [] => if whole.isEmpty then none else some (ofCount n)
    | '.' :: rest =>
      let (fraction, rest) := Text.takeDigits Text.asciiDigitValue? rest
      let digits := whole ++ fraction
      if digits.isEmpty || !rest.isEmpty then none
      else some (ofFraction (.ofDecimal negative (positional 10 digits) (-fraction.length)))
    | _ => none

/-- The timestamp of a text. A text that is no date may be a count; where it is not, its first ten
characters say what is wrong with it. -/
def timeText (text : String) : Checked Timestamp :=
  let s := text.toList
  let inCalendar (date : Option Date) (time : TimeOfDay) (offset : Option Offset) :
      Checked Timestamp :=
    date.elim (.fail (.unreachableTime .yearZero)) fun d => .ok ⟨d, time, offset⟩
  match readDate s with
  | .ok (date, []) => inCalendar date .midnight none
  | .ok (date, rest) =>
    match readTimeOfDay? rest with
    | some (time, offset) => inCalendar date time offset
    | none => .fail (.malformedTime .extraCharacters)
  | .error why =>
    match (countText? s).getD (.error why) with
    | .ok t => .ok t
    | .error .yearZero => .fail (.unreachableTime .yearZero)
    | .error why => .fail (.malformedTime why)

def timestamp : Value → Checked Timestamp
  | .text t => do timeText (← string t)
  | .int n =>
    let x := Double.ofInt n
    if isShortCount n then reached (ofCount n)
    else if x.isFinite then reached (ofFraction x)
    else .fail .notTime
  | .double x => reached (ofFraction x)
  | _ => .fail .notTime
where
  reached : Except TimeReason Timestamp → Checked Timestamp
    | .ok t => .ok t
    | .error why => .fail (.unreachableTime why)

/-- The text of a timestamp in an answer. Its offset is rounded to seconds, a tie away from zero,
and shown without them. -/
def timeStamp (t : Timestamp) : String :=
  Iso.localText t ++ t.offset.elim "" fun o =>
    let seconds := roundHalfUp o.micros.natAbs 1000000
    let two n := padded 2 (decimalDigits n)
    let sign := if o.micros < 0 then "-" else "+"
    if seconds = 0 then "Z" else sign ++ two (seconds / 3600) ++ ":" ++ two (seconds / 60 % 60)

end Referral.Schema
