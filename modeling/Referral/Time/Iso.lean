import Referral.Number.Digits
import Referral.Text.Basic
import Referral.Text.CharClass
import Referral.Time.Timestamp

namespace Referral.Iso

def clockText (hour minute second micro : Nat) : String :=
  let two n := padded 2 (decimalDigits n)
  let fraction := if micro = 0 then "" else "." ++ padded 6 (decimalDigits micro)
  two hour ++ ":" ++ two minute ++ ":" ++ two second ++ fraction

def offsetText (o : Offset) : String :=
  let seconds := o.micros.natAbs / 1000000
  let micro := o.micros.natAbs % 1000000
  let sign := if o.micros < 0 then "-" else "+"
  let full := clockText (seconds / 3600) (seconds / 60 % 60) (seconds % 60) micro
  sign ++ (if seconds % 60 = 0 && micro = 0 then String.ofList (full.toList.take 5) else full)

def dateText (d : Date) : String :=
  padded 4 (decimalDigits d.year) ++ "-" ++ padded 2 (decimalDigits d.month) ++ "-" ++
    padded 2 (decimalDigits d.day)

def localText (t : Timestamp) : String :=
  dateText t.date ++ "T" ++ clockText t.time.hour t.time.minute t.time.second t.time.micro

def text (t : Timestamp) : String := localText t ++ (t.offset.elim "" offsetText)

def isDigit (c : Char) : Bool := '0' ≤ c && c ≤ '9'

def digits? (count : Nat) (s : List Char) : Option (Nat × List Char) :=
  let head := s.take count
  if head.length = count && head.all isDigit then
    some (positional 10 (head.map (·.toNat - 48)), s.drop count)
  else none

/-- How many characters of the text are its date. A week date without dashes has a day of the week
when an odd number of digits follows the week. -/
def dateLength (s : List Char) : Nat :=
  if s.length = 7 then 7
  else if s[4]? = some '-' then
    if s[5]? = some 'W' then
      if s[8]? = some '-' && !(s[10]?.any isDigit) then 10 else 8
    else 10
  else if s[4]? = some 'W' then
    let run := 7 + ((s.drop 7).takeWhile isDigit).length
    if run < 9 then run else if run % 2 = 0 then 7 else 8
  else 8

def afterDash? (dashes : Bool) (s : List Char) : Option (List Char) :=
  if dashes then
    match s with
    | '-' :: rest => some rest
    | _ => none
  else some s

def readDate? (s : List Char) : Option Date := do
  let (year, rest) ← digits? 4 s
  let dashes := rest.head? = some '-'
  let rest ← afterDash? dashes rest
  match rest with
  | 'W' :: rest =>
    let (week, rest) ← digits? 2 rest
    if rest.isEmpty then Date.ofWeek? year week 1
    else
      let (day, _) ← digits? 1 (← afterDash? dashes rest)
      Date.ofWeek? year week day
  | _ =>
    let (month, rest) ← digits? 2 rest
    let (day, _) ← digits? 2 (← afterDash? dashes rest)
    Date.of? year month day

/-- A clock reading and whether characters without meaning followed it. -/
structure Clock where
  hour : Nat
  minute : Nat
  second : Nat
  micro : Nat
  junk : Bool

def readFraction? (s : List Char) : Option (Nat × Bool) := do
  let width := min 6 s.length
  let (n, rest) ← digits? width s
  return (n * Nat.pow 10 (6 - width), !(rest.dropWhile isDigit).isEmpty)

/-- The parts of a clock reading after `done` of them. Where the first separator is a colon, all
are; where it is not, there are none. A single ASCII character at the end is skipped as junk. -/
def readParts? : Nat → Bool → List Nat → List Char → Option (List Nat × Nat × Bool)
  | 0, _, done, s => (readFraction? s).map fun (micro, junk) => (done.reverse, micro, junk)
  | left + 1, colons, done, s => do
    let (n, rest) ← digits? 2 s
    let done := n :: done
    match rest with
    | [] => some (done.reverse, 0, false)
    | [c] => if c.toNat < 0x80 then some (done.reverse, 0, true) else none
    | c :: after =>
      let colons := if done.length = 1 then c = ':' else colons
      if colons && c = ':' then readParts? left colons done after
      else if c = '.' || c = ',' then
        (readFraction? after).map fun (micro, junk) => (done.reverse, micro, junk)
      else if colons then none
      else readParts? left colons done rest

def readClock? (s : List Char) : Option Clock := do
  let (parts, micro, junk) ← readParts? 3 false [] s
  return ⟨parts.getD 0 0, parts.getD 1 0, parts.getD 2 0, micro, junk⟩

/-- The offset after its sign. Its parts have no bounds of their own, only the whole has. -/
def readOffset? (negative : Bool) (s : List Char) : Option Offset := do
  let c ← readClock? s
  let seconds := c.hour * 3600 + c.minute * 60 + c.second
  if c.junk then none
  else if seconds = 0 then some Offset.utc
  else Offset.of? ((if negative then -1 else 1) * (seconds * 1000000 + c.micro : Nat))

/-- The time of day and offset after the separator. Junk is let pass only before an offset. -/
def readTime? (s : List Char) : Option (TimeOfDay × Option Offset) := do
  let isZone c := c = '+' || c = '-' || c = 'Z'
  let c ← readClock? (s.takeWhile fun c => !isZone c)
  let offset ←
    match s.dropWhile fun c => !isZone c with
    | [] => if c.junk then none else some none
    | ['Z'] => some (some Offset.utc)
    | 'Z' :: _ => none
    | sign :: rest => (readOffset? (sign = '-') rest).map some
  return (← TimeOfDay.of? c.hour c.minute c.second c.micro, offset)

def read? (text : String) : Option Timestamp := do
  let s := text.toList
  let length := dateLength s
  let date ← readDate? (s.take length)
  match s.drop length with
  | [] => return ⟨date, .midnight, none⟩
  | _ :: rest =>
    let (time, offset) ← readTime? rest
    return ⟨date, time, offset⟩

/-- The timestamp that a text stands for. A lone surrogate may stand between date and time. -/
def readText? (t : Text) : Option Timestamp :=
  match t.tail with
  | [] => read? t.head
  | [(_, rest)] =>
    if [7, 8, 10].contains t.head.length then read? (t.head ++ "T" ++ rest) else none
  | _ => none

end Referral.Iso
