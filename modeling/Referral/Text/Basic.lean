
namespace Referral

/-- A code unit that is no character, by its distance from U+D800. -/
abbrev Surrogate := Fin 2048

/-- A string, or strings with a lone surrogate between each two. -/
structure Text where
  head : String
  tail : List (Surrogate × String)
  deriving DecidableEq, Inhabited

instance : Coe String Text := ⟨fun s => ⟨s, []⟩⟩

inductive Symbol where
  | char (c : Char)
  | lone (u : Surrogate)
  deriving DecidableEq

def Symbol.code : Symbol → Nat
  | char c => c.toNat
  | lone u => 0xd800 + u.val

def Symbol.ofCode (n : Nat) : Symbol :=
  if h : 0xd800 ≤ n ∧ n < 0xe000 then .lone ⟨n - 0xd800, by omega⟩
  else if n < 0x110000 then .char (Char.ofNat n)
  else .char '\ufffd'

namespace Text

def string? (t : Text) : Option String := if t.tail.isEmpty then some t.head else none

def isEmpty (t : Text) : Bool := t.tail.isEmpty && t.head.isEmpty

def symbols (t : Text) : List Symbol :=
  t.head.toList.map .char ++ t.tail.flatMap fun (u, s) => .lone u :: s.toList.map .char

def gather : List Symbol → List Char × List (Surrogate × String)
  | [] => ([], [])
  | .char c :: rest =>
    let (cs, tail) := gather rest
    (c :: cs, tail)
  | .lone u :: rest =>
    let (cs, tail) := gather rest
    ([], (u, String.ofList cs) :: tail)

def ofSymbols (s : List Symbol) : Text := ⟨String.ofList (gather s).1, (gather s).2⟩

instance : Append Text := ⟨fun a b => ofSymbols (a.symbols ++ b.symbols)⟩

theorem gather_map_char (cs : List Char) (rest : List Symbol) :
    gather (cs.map .char ++ rest) = (cs ++ (gather rest).1, (gather rest).2) := by
  induction cs with
  | nil => rfl
  | cons c cs ih => simp [gather, ih]

@[simp] theorem ofSymbols_symbols (t : Text) : ofSymbols t.symbols = t := by
  obtain ⟨head, tail⟩ := t
  have h : gather (tail.flatMap fun (u, s) => .lone u :: s.toList.map .char) = ([], tail) := by
    induction tail with
    | nil => rfl
    | cons row tail ih => simp [gather, gather_map_char, ih]
  simp [ofSymbols, symbols, gather_map_char, h]

end Text

end Referral
