
namespace Referral.Text

/-- The ranges of the bytes that have to follow a first byte, absent if no character starts with it.
-/
def followers? (first : Nat) : Option (List (Nat × Nat)) :=
  let any := (0x80, 0xbf)
  if first < 0x80 then some []
  else if first < 0xc2 then none
  else if first < 0xe0 then some [any]
  else if first = 0xe0 then some [(0xa0, 0xbf), any]
  else if first = 0xed then some [(0x80, 0x9f), any]
  else if first < 0xf0 then some [any, any]
  else if first = 0xf0 then some [(0x90, 0xbf), any, any]
  else if first < 0xf4 then some [any, any, any]
  else if first = 0xf4 then some [(0x80, 0x8f), any, any]
  else none

def takeFollowers : List (Nat × Nat) → List Nat → List Nat × List Nat
  | (low, high) :: ranges, b :: bytes =>
    if low ≤ b && b ≤ high then
      let more := takeFollowers ranges bytes
      (b :: more.1, more.2)
    else ([], b :: bytes)
  | _, bytes => ([], bytes)

theorem length_takeFollowers_le (ranges : List (Nat × Nat)) (bytes : List Nat) :
    (takeFollowers ranges bytes).2.length ≤ bytes.length := by
  induction bytes generalizing ranges with
  | nil => cases ranges <;> simp [takeFollowers]
  | cons b bytes ih =>
    cases ranges with
    | nil => simp [takeFollowers]
    | cons range ranges =>
      have := ih ranges
      simp only [takeFollowers]
      split <;> simp only [List.length_cons] <;> omega

def codePoint (first : Nat) (following : List Nat) : Nat :=
  let lead :=
    match following.length with
    | 0 => first
    | 1 => first % 0x20
    | 2 => first % 0x10
    | _ => first % 0x08
  following.foldl (fun n b => 64 * n + b % 64) lead

def ofBytes : List Nat → List Char
  | [] => []
  | first :: bytes =>
    match followers? first with
    | none => '\ufffd' :: ofBytes bytes
    | some ranges =>
      let taken := takeFollowers ranges bytes
      let c := if taken.1.length = ranges.length then Char.ofNat (codePoint first taken.1)
        else '\ufffd'
      c :: ofBytes taken.2
termination_by bytes => bytes.length
decreasing_by
  · simp
  · have := length_takeFollowers_le ranges bytes
    simp only [List.length_cons]
    omega

end Referral.Text
