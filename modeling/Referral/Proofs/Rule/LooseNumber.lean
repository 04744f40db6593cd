import Referral.Proofs.Rule.Leaf
import Referral.Proofs.Text.Numeral

namespace Referral

def Symbol.isBlank : Symbol → Bool
  | char c => Text.isBlank c
  | lone _ => false

namespace Text

def unblanked (t : Text) : List Symbol := t.symbols.dropWhile Symbol.isBlank

/-- The word is the longest number that the text starts with after its blanks. -/
structure StartsWith (t : Text) (word : List Char) : Prop where
  number : IsNumber word
  starts : word.map .char <+: t.unblanked
  longest : ∀ other, IsNumber other → other.map .char <+: t.unblanked → other.length ≤ word.length

theorem map_char_prefix_iff (word cs : List Char) {rest : List Symbol}
    (h : ∀ c, .char c ∉ rest.head?) :
    word.map .char <+: cs.map .char ++ rest ↔ word <+: cs := by
  induction word generalizing cs with
  | nil => simp
  | cons c word ih =>
      cases cs with
      | nil =>
          cases rest with
          | nil => simp
          | cons u rest =>
              have hu : Symbol.char c ≠ u := by
                rintro rfl
                exact h c rfl
              simp [List.cons_prefix_cons, hu]
      | cons d cs => simp [List.cons_prefix_cons, ih]

theorem prefix_unblanked_iff (t : Text) (word : List Char) :
    word.map .char <+: t.unblanked ↔ word <+: t.head.toList.dropWhile isBlank := by
  obtain ⟨head, tail⟩ := t
  let rest : List Symbol := tail.flatMap fun row => .lone row.1 :: row.2.toList.map .char
  have hlone : ∀ c, Symbol.char c ∉ rest.head? := by
    intro c hc
    cases tail with
    | nil => cases hc
    | cons row tail => cases hc
  have hkept : rest.dropWhile Symbol.isBlank = rest := by
    cases tail with
    | nil => rfl
    | cons row tail => rfl
  have hblank : (head.toList.map Symbol.char).dropWhile Symbol.isBlank =
      (head.toList.dropWhile isBlank).map .char := List.dropWhile_map
  have hunblanked : unblanked ⟨head, tail⟩ = (head.toList.dropWhile isBlank).map .char ++ rest := by
    change (head.toList.map Symbol.char ++ rest).dropWhile Symbol.isBlank = _
    rw [List.dropWhile_append, hblank, hkept]
    split
    next hempty => simp [List.isEmpty_iff.1 hempty]
    next => rfl
  rw [hunblanked]
  exact map_char_prefix_iff word _ hlone

theorem numericHead?_eq_some {s word : List Char} (h : numericHead? s = some word) :
    IsNumber word ∧ ∃ rest, s.dropWhile isBlank = word ++ rest ∧
      afterNumericHead? (word ++ rest) = some rest := by
  obtain ⟨rest, hafter, htake⟩ := Option.map_eq_some_iff.1 h
  obtain ⟨number, hnumber, hbody⟩ := exists_number hafter
  rw [hbody, List.length_append, Nat.add_sub_cancel, List.take_left] at htake
  subst htake
  exact ⟨hnumber, rest, hbody, hbody ▸ hafter⟩

theorem length_le_of_numericHead? {s word other : List Char} (h : numericHead? s = some word)
    (hother : IsNumber other) (hstarts : other <+: s.dropWhile isBlank) :
    other.length ≤ word.length := by
  obtain ⟨-, rest, hbody, hafter⟩ := numericHead?_eq_some h
  obtain ⟨more, hmore⟩ := hstarts
  rw [hbody] at hmore
  obtain ⟨rest', hafter', hrest⟩ := afterNumericHead?_number hother more
  rw [hmore, hafter] at hafter'
  cases hafter'
  have hlengths := congrArg List.length hmore
  have hle := hrest.length_le
  simp only [List.length_append] at hlengths
  omega

theorem exists_numericHead? {s word : List Char} (h : IsNumber word)
    (hstarts : word <+: s.dropWhile isBlank) : ∃ longest, numericHead? s = some longest := by
  obtain ⟨more, hmore⟩ := hstarts
  obtain ⟨rest, hafter, -⟩ := afterNumericHead?_number h more
  rw [hmore] at hafter
  exact ⟨_, Option.map_eq_some_iff.2 ⟨rest, hafter, rfl⟩⟩

theorem numericHead?_eq_some_iff (t : Text) (word : List Char) :
    numericHead? t.head.toList = some word ↔ t.StartsWith word := by
  constructor
  · intro h
    obtain ⟨hnumber, rest, hbody, -⟩ := numericHead?_eq_some h
    refine ⟨hnumber, (prefix_unblanked_iff t word).2 ⟨rest, hbody.symm⟩, ?_⟩
    intro other hother hstarts
    exact length_le_of_numericHead? h hother ((prefix_unblanked_iff t other).1 hstarts)
  · rintro ⟨hnumber, hstarts, hlongest⟩
    rw [prefix_unblanked_iff] at hstarts
    obtain ⟨longest, h⟩ := exists_numericHead? hnumber hstarts
    obtain ⟨hnumber', rest, hbody, -⟩ := numericHead?_eq_some h
    have hstarts' : longest <+: t.head.toList.dropWhile isBlank := ⟨rest, hbody.symm⟩
    have hle := hlongest longest hnumber' ((prefix_unblanked_iff t longest).2 hstarts')
    have hge := length_le_of_numericHead? h hnumber hstarts
    have hsame : word = longest :=
      (List.prefix_of_prefix_length_le hstarts hstarts' hge).eq_of_length (hge.antisymm hle)
    rw [h, hsame]

end Text

namespace Double

open Spelling (signChars)

theorem read?_infinity (sign : Option Bool) :
    read? (signChars sign ++ "Infinity".toList) = some (.infinity (sign == some true)) := by
  rcases sign with _ | _ | _ <;> decide +kernel

theorem exists_read? {word : List Char} (h : Text.IsNumber word) : ∃ x, read? word = some x := by
  cases h with
  | infinity sign => exact ⟨_, read?_infinity sign⟩
  | @numeral sign numeral hnumeral =>
      obtain ⟨n, rest, htake, hrest⟩ := Text.take?_numeral hnumeral []
      obtain rfl := List.suffix_nil.1 hrest
      have hsign := Text.takeSign_numeral sign hnumeral []
      rw [List.append_nil] at htake hsign
      rw [read?, hsign]
      dsimp only
      split
      · exact ⟨_, rfl⟩
      split
      · exact ⟨_, rfl⟩
      rw [htake]
      exact ⟨_, rfl⟩

end Double

namespace Text

theorem isSome_numericHead?_iff (t : Text) :
    (numericHead? t.head.toList).isSome = true ↔
      ∃ word, word ≠ [] ∧ IsNumber word ∧ word.map .char <+: t.unblanked := by
  constructor
  · intro h
    obtain ⟨word, hword⟩ := Option.isSome_iff_exists.1 h
    obtain ⟨hnumber, hstarts, -⟩ := (numericHead?_eq_some_iff t word).1 hword
    exact ⟨word, hnumber.ne_nil, hnumber, hstarts⟩
  · rintro ⟨word, -, hnumber, hstarts⟩
    rw [prefix_unblanked_iff] at hstarts
    exact Option.isSome_iff_exists.2 (exists_numericHead? hnumber hstarts)

theorem read?_of_startsWith {t : Text} {word : List Char} (h : t.StartsWith word) :
    Double.read? word = some t.looseDouble := by
  obtain ⟨x, hx⟩ := Double.exists_read? h.number
  rw [looseDouble, (numericHead?_eq_some_iff t word).2 h, Option.bind_some, hx, Option.getD_some]

theorem looseDouble_eq_nan {t : Text} (h : ∀ word, ¬ t.StartsWith word) : t.looseDouble = .nan := by
  have hnone : numericHead? t.head.toList = none :=
    Option.eq_none_iff_forall_ne_some.2 fun word hword =>
      h word ((numericHead?_eq_some_iff t word).1 hword)
  rw [looseDouble, hnone]
  rfl

end Text

theorem Value.looseDouble?_eq_none_iff (v : Value) : v.looseDouble? = none ↔ v.Unwritable := by
  rw [looseDouble?, Option.map_eq_none_iff, loose?_eq_none_iff]

namespace Operator

def compares : Operator → Bool
  | equals | notEquals | greaterThan | lessThan | contains => true
  | all | any | other _ => false

theorem holds?_eq_none_iff (op : Operator) (field operand : Value) :
    op.holds? field operand = none ↔
      op.compares = true ∧ (field.Unwritable ∨ operand.Unwritable) := by
  rw [← Value.loose?_eq_none_iff, ← Value.loose?_eq_none_iff]
  cases hfield : field.loose? <;> cases hoperand : operand.loose? <;> cases op <;>
    simp [holds?, compares, Value.looseDouble?, hfield, hoperand]

end Operator

/-- A text has a numeric head just if it starts with a number after its blanks; the head is the
longest number that it starts with, and is always read as a double, which is the text's loose
number. So a text never fails to have one: only an integer that is too long, at whatever depth,
keeps a value from having a loose number, and an operator from comparing. -/
theorem loose_number_longest :
    (∀ t : Text,
      ((Text.numericHead? t.head.toList).isSome = true ↔
        ∃ word, word ≠ [] ∧ Text.IsNumber word ∧ word.map .char <+: t.unblanked) ∧
      (∀ word, Text.numericHead? t.head.toList = some word ↔ t.StartsWith word) ∧
      (∀ word, t.StartsWith word → Double.read? word = some t.looseDouble) ∧
      ((∀ word, ¬ t.StartsWith word) → t.looseDouble = .nan) ∧
      (Value.text t).looseDouble? = some t.looseDouble) ∧
    (∀ v : Value, v.looseDouble? = none ↔ v.Unwritable) ∧
    ∀ (op : Operator) (field operand : Value), op.holds? field operand = none ↔
      op.compares = true ∧ (field.Unwritable ∨ operand.Unwritable) := by
  refine ⟨fun t => ?_, Value.looseDouble?_eq_none_iff, Operator.holds?_eq_none_iff⟩
  exact ⟨t.isSome_numericHead?_iff, t.numericHead?_eq_some_iff, fun _ => Text.read?_of_startsWith,
    Text.looseDouble_eq_nan, rfl⟩

/-- Marks of a power and points that no digit follows are not part of the number, and neither is a
second point. A number may have digits of two scripts and ends before a lone surrogate. -/
theorem loose_number_longest_cut :
    ∀ cut ∈ ([("1e", "1"), ("1e+", "1"), ("5.", "5."), ("5.e3x", "5.e3"), ("-.5.6", "-.5"),
        ("+Infinityx", "+Infinity"), ("\u3000\u066412e-\u0665e", "\u066412e-\u0665"),
        (⟨" 7", [(0, "7")]⟩, "7")] : List (Text × String)),
      cut.1.StartsWith cut.2.toList := by
  intro cut hcut
  have hheads : ∀ cut ∈ ([("1e", "1"), ("1e+", "1"), ("5.", "5."), ("5.e3x", "5.e3"),
      ("-.5.6", "-.5"), ("+Infinityx", "+Infinity"),
      ("\u3000\u066412e-\u0665e", "\u066412e-\u0665"),
      (⟨" 7", [(0, "7")]⟩, "7")] : List (Text × String)),
      Text.numericHead? cut.1.head.toList = some cut.2.toList := by
    decide +kernel
  obtain ⟨-, hlongest, -⟩ := loose_number_longest.1 cut.1
  exact (hlongest _).1 (hheads cut hcut)

end Referral
