import Referral.Log.Mark

namespace Referral.Log

structure Arguments where
  row : List Value
  source : Option Value

namespace Arguments

def ofValue (v : Value) : Arguments :=
  match v with
  | .list _ | .map _ => ⟨[v], some v⟩
  | _ => ⟨[v], none⟩

/-- The arguments of a call: a mapping alone, unless it is empty, holds named ones. -/
def ofRow : List Value → Arguments
  | [.map (member :: members)] => ofValue (.map (member :: members))
  | row => ⟨row, none⟩

def take (a : Arguments) : Except FillFault (Value × Arguments) :=
  match a.row with
  | v :: row => return (v, { a with row := row })
  | [] => throw .tooFew

def named (a : Arguments) (name : Text) : Except FillFault Arguments :=
  match a.source with
  | some (.map members) =>
    match members.lookup name with
    | some v => return { a with row := [v] }
    | none => throw .missingKey
  | _ => throw .wrongKind

end Arguments

def takeName? : Nat → List Symbol → Option (List Symbol × List Symbol)
  | _, [] => none
  | depth, .char ')' :: rest =>
    match depth with
    | 0 => some ([], rest)
    | depth + 1 => (takeName? depth rest).map fun (name, rest) => (.char ')' :: name, rest)
  | depth, .char '(' :: rest =>
    (takeName? (depth + 1) rest).map fun (name, rest) => (.char '(' :: name, rest)
  | depth, c :: rest => (takeName? depth rest).map fun (name, rest) => (c :: name, rest)

def takeFlags (m : Mark) : List Symbol → Mark × List Symbol
  | [] => (m, [])
  | c :: rest =>
    match m.withFlag? c with
    | some m => takeFlags m rest
    | none => (m, c :: rest)

def takeCount : List Symbol → List Nat × List Symbol
  | .char c :: rest =>
    match Text.asciiDigitValue? c with
    | some d => (d :: (takeCount rest).1, (takeCount rest).2)
    | none => ([], .char c :: rest)
  | rest => ([], rest)

def widthLimit : Nat := Nat.pow 2 63

def precisionLimit : Nat := Nat.pow 2 31

/-- A width or a precision: digits, or an argument for `*`. Zero digits stand for nothing. -/
def takeSize (limit : Nat) (a : Arguments) (s : List Symbol) :
    Except FillFault (Option Int × Arguments × List Symbol) :=
  match s with
  | .char '*' :: rest => do
    let (v, a) ← a.take
    let n ← Mark.exact v
    if n < -(limit : Int) || (limit : Int) ≤ n then throw .outOfRange
    else return (some n, a, rest)
  | _ =>
    match takeCount s with
    | ([], rest) => return (none, a, rest)
    | (ds, rest) =>
      if limit ≤ positional 10 ds then throw .malformed
      else return (some (positional 10 ds), a, rest)

/-- The width of a mark; a negative one aligns to the left, and the least one stands for none. -/
def takeWidth (m : Mark) (a : Arguments) (s : List Symbol) :
    Except FillFault (Mark × Arguments × List Symbol) := do
  let (width, a, rest) ← takeSize widthLimit a s
  match width with
  | none => return (m, a, rest)
  | some n =>
    let width := if n.natAbs = widthLimit then 0 else n.natAbs
    return ({ m with width := some width, leftAligned := m.leftAligned || n < 0 }, a, rest)

/-- The precision of a mark behind a point; a negative one and none at all are zero. -/
def takePrecision (m : Mark) (a : Arguments) (s : List Symbol) :
    Except FillFault (Mark × Arguments × List Symbol) :=
  match s with
  | .char '.' :: rest => do
    let (precision, a, rest) ← takeSize precisionLimit a rest
    return ({ m with precision := some (precision.getD 0).toNat }, a, rest)
  | _ => return (m, a, s)

def afterLength : List Symbol → List Symbol
  | .char 'h' :: rest | .char 'l' :: rest | .char 'L' :: rest => rest
  | s => s

/-- The argument that a mark stands for, as it shows it, and what is left of arguments and text.
Named arguments are used up by their mark. -/
def fillMark (a : Arguments) (s : List Symbol) :
    Except FillFault (Text × Arguments × List Symbol) := do
  let (a, s) ←
    match s with
    | .char '(' :: rest =>
      if a.source.isNone then throw .wrongKind
      else
        match takeName? 0 rest with
        | some (name, rest) => pure (← a.named (.ofSymbols name), rest)
        | none => throw .malformed
    | _ => pure (a, s)
  let (m, s) := takeFlags .plain s
  let (m, a, s) ← takeWidth m a s
  let (m, a, s) ← takePrecision m a s
  match afterLength s with
  | [] => throw .malformed
  | letter :: rest =>
    let (v, a) ← a.take
    let m := { m with letter := letter }
    let shown ← if m.isHuge then m.unsized.show? v else m.show? v
    if m.isHuge then throw .tooLarge
    if a.source.isSome && !a.row.isEmpty then throw .tooMany else return (shown, a, rest)

def fillAll : Nat → Arguments → List Symbol → Except FillFault (List Symbol)
  | 0, _, _ => throw .malformed
  | _ + 1, a, [] => if a.source.isNone && !a.row.isEmpty then throw .tooMany else return []
  | fuel + 1, a, .char '%' :: .char '%' :: rest => do
    return .char '%' :: (← fillAll fuel a rest)
  | fuel + 1, a, .char '%' :: rest => do
    let (shown, a, rest) ← fillMark a rest
    return shown.symbols ++ (← fillAll fuel a rest)
  | fuel + 1, a, c :: rest => return c :: (← fillAll fuel a rest)

def fill (t : Text) (a : Arguments) : Except FillFault Text :=
  (fillAll (t.symbols.length + 1) a t.symbols).map .ofSymbols

end Referral.Log
