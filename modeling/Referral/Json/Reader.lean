import Referral.Number.DoubleReader
import Referral.Value

namespace Referral.Json

inductive Fault where
  | malformed (offset : Nat)
  | longInteger
  | tooDeep
  deriving DecidableEq

/-- Fails at the head of `rest`. While reading, an offset counts the characters up to the end. -/
def failAt {α : Type} (rest : List Char) : Except Fault α := .error (.malformed rest.length)

def isSpace (c : Char) : Bool := c = ' ' || c = '\t' || c = '\n' || c = '\r'

def skipSpace : List Char → List Char := List.dropWhile isSpace

def hexQuad? : List Char → Option (Nat × List Char)
  | a :: b :: c :: d :: rest => do
    let ds ← [a, b, c, d].mapM hexValue?
    return (positional 16 ds, rest)
  | _ => none

def unescape? : Char → Option Char
  | 'b' => some '\x08'
  | 'f' => some '\x0c'
  | 'n' => some '\n'
  | 'r' => some '\r'
  | 't' => some '\t'
  | '/' => some '/'
  | c => if c.toNat = 0x22 || c.toNat = 0x5c then some c else none

/-- The symbol of a code unit and the units that may follow it. A low surrogate behind a high one
makes one character with it; any other surrogate stands alone. -/
def codeUnit (unit : Nat) (rest : List Char) : Symbol × List Char :=
  if 0xd800 ≤ unit && unit < 0xdc00 then
    match rest with
    | b :: 'u' :: after =>
      match hexQuad? after with
      | some (low, after) =>
        if b.toNat = 0x5c && 0xdc00 ≤ low && low < 0xe000 then
          (.ofCode (0x10000 + (unit - 0xd800) * 0x400 + (low - 0xdc00)), after)
        else (.ofCode unit, rest)
      | none => (.ofCode unit, rest)
    | _ => (.ofCode unit, rest)
  else (.ofCode unit, rest)

def readString (start : List Char) :
    Nat → List Symbol → List Char → Except Fault (Text × List Char)
  | 0, _, _ => failAt start
  | _ + 1, _, [] => failAt start
  | fuel + 1, acc, c :: rest =>
    if c.toNat = 0x22 then .ok (.ofSymbols acc.reverse, rest)
    else if c.toNat < 0x20 then failAt (c :: rest)
    else if c.toNat = 0x5c then
      match rest with
      | [] => failAt start
      | 'u' :: digits =>
        match hexQuad? digits with
        | none => failAt rest
        | some (_, []) => failAt rest
        | some (unit, after) =>
          let (d, after) := codeUnit unit after
          readString start fuel (d :: acc) after
      | e :: after =>
        match unescape? e with
        | some d => readString start fuel (.char d :: acc) after
        | none => failAt (c :: rest)
    else readString start fuel (.char c :: acc) rest

def takeAscii : List Char → List Nat × List Char := Text.takeDigits Text.asciiDigitValue?

def takeFraction (s : List Char) : List Nat × List Char :=
  match s with
  | '.' :: rest =>
    match takeAscii rest with
    | ([], _) => ([], s)
    | taken => taken
  | _ => ([], s)

def takePower (s : List Char) : Option Int × List Char :=
  match s with
  | mark :: rest =>
    if mark = 'e' || mark = 'E' then
      let (negative, unsigned) := Text.takeSign rest
      match takeAscii unsigned with
      | ([], _) => (none, s)
      | (ds, rest) => (some (signed negative (positional 10 ds)), rest)
    else (none, s)
  | [] => (none, [])

def readNumber (s : List Char) : Except Fault (Value × List Char) :=
  let (negative, unsigned) :=
    match s with
    | '-' :: rest => (true, rest)
    | _ => (false, s)
  let (whole, rest) :=
    match unsigned with
    | '0' :: rest => ([0], rest)
    | _ => takeAscii unsigned
  if whole.isEmpty then failAt s
  else
    let (fraction, rest) := takeFraction rest
    let (power, rest) := takePower rest
    match fraction, power with
    | [], none =>
      if digitLimit < whole.length then .error .longInteger
      else .ok (.int (signed negative (positional 10 whole)), rest)
    | _, _ =>
      let scale := power.getD 0 - fraction.length
      .ok (.double (Double.ofDecimal negative (positional 10 (whole ++ fraction)) scale), rest)

def literals : List (String × Value) :=
  [("null", .null), ("true", .bool true), ("false", .bool false), ("NaN", .double .nan),
   ("Infinity", .double (.infinity false)), ("-Infinity", .double (.infinity true))]

def readScalar (s : List Char) : Except Fault (Value × List Char) :=
  match literals.findSome? fun (word, v) => (Text.afterWord? word.toList s).map (v, ·) with
  | some result => .ok result
  | none => readNumber s

def nestingLimit : Nat := 950

mutual

def readValue : Nat → Nat → List Char → Except Fault (Value × List Char)
  | 0, _, s => failAt s
  | fuel + 1, room, s =>
    match s with
    | [] => failAt s
    | c :: rest =>
      if c.toNat = 0x22 then do
        let (t, rest) ← readString s (s.length + 1) [] rest
        return (.text t, rest)
      else if c = '[' || c.toNat = 0x7b then
        match room with
        | 0 => throw .tooDeep
        | room + 1 => if c = '[' then readList fuel room rest else readMap fuel room rest
      else readScalar s

def readList : Nat → Nat → List Char → Except Fault (Value × List Char)
  | 0, _, s => failAt s
  | fuel + 1, room, s =>
    match skipSpace s with
    | ']' :: after => return (.list [], after)
    | body => readElems fuel room [] body

def readMap : Nat → Nat → List Char → Except Fault (Value × List Char)
  | 0, _, s => failAt s
  | fuel + 1, room, s =>
    match skipSpace s with
    | d :: after =>
      if d.toNat = 0x7d then return (.map [], after) else readMembers fuel room [] (d :: after)
    | [] => failAt []

def readElems : Nat → Nat → List Value → List Char → Except Fault (Value × List Char)
  | 0, _, _, s => failAt s
  | fuel + 1, room, acc, s => do
    let (v, rest) ← readValue fuel room s
    match skipSpace rest with
    | ']' :: after => return (.list (v :: acc).reverse, after)
    | ',' :: after => readElems fuel room (v :: acc) (skipSpace after)
    | rest => failAt rest

def readMembers : Nat → Nat → Members → List Char → Except Fault (Value × List Char)
  | 0, _, _, s => failAt s
  | fuel + 1, room, acc, s =>
    match s with
    | [] => failAt s
    | c :: rest =>
      if c.toNat = 0x22 then do
        let (key, rest) ← readString s (s.length + 1) [] rest
        match skipSpace rest with
        | ':' :: after =>
          let (v, rest) ← readValue fuel room (skipSpace after)
          let acc := setRow key v acc
          match skipSpace rest with
          | ',' :: after => readMembers fuel room acc (skipSpace after)
          | d :: after => if d.toNat = 0x7d then return (.map acc, after) else failAt (d :: after)
          | [] => failAt []
        | rest => failAt rest
      else failAt s

end

def readAll (s : List Char) : Except Fault Value := do
  let (v, rest) ← readValue (3 * s.length + 3) nestingLimit (skipSpace s)
  match skipSpace rest with
  | [] => return v
  | rest => failAt rest

def read (text : String) : Except Fault Value :=
  match readAll text.toList with
  | .error (.malformed remaining) => .error (.malformed (text.length - remaining))
  | result => result

end Referral.Json
