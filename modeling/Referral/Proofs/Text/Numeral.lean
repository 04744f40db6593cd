import Referral.Proofs.Number.Spelling
import Referral.Text.NumericHead

namespace Referral.Text

open Spelling (afterPoint signChars)

/-- Digits of any script, perhaps none. -/
def AllDigits (s : List Char) : Prop := ∀ c ∈ s, (digitValue? c).isSome = true

def IsDigits (s : List Char) : Prop := s ≠ [] ∧ AllDigits s

inductive IsPower : List Char → Prop
  | none : IsPower []
  | marked {mark : Char} (hmark : mark = 'e' ∨ mark = 'E') (sign : Option Bool)
      {digits : List Char} (hdigits : IsDigits digits) :
      IsPower (mark :: (signChars sign ++ digits))

/-- A numeral without a sign: digits with a point after, among or before them, and a power. -/
inductive IsNumeral : List Char → Prop
  | whole {digits power : List Char} (hdigits : IsDigits digits) (hpower : IsPower power) :
      IsNumeral (digits ++ power)
  | pointed {digits fraction power : List Char} (hdigits : IsDigits digits)
      (hfraction : AllDigits fraction) (hpower : IsPower power) :
      IsNumeral (digits ++ '.' :: (fraction ++ power))
  | fraction {fraction power : List Char} (hfraction : IsDigits fraction) (hpower : IsPower power) :
      IsNumeral ('.' :: (fraction ++ power))

/-- A number as it may stand at the head of a text. -/
inductive IsNumber : List Char → Prop
  | infinity (sign : Option Bool) : IsNumber (signChars sign ++ "Infinity".toList)
  | numeral (sign : Option Bool) {s : List Char} (h : IsNumeral s) : IsNumber (signChars sign ++ s)

theorem takeDigits_of_head {c : Char} (h : digitValue? c = none) (s : List Char) :
    takeDigits digitValue? (c :: s) = ([], c :: s) := by
  rw [takeDigits, h]

theorem takeDigits_append {digits : List Char} (h : AllDigits digits) (s : List Char) :
    (takeDigits digitValue? (digits ++ s)).2 = (takeDigits digitValue? s).2 := by
  induction digits with
  | nil => rfl
  | cons c digits ih =>
      obtain ⟨n, hn⟩ := Option.isSome_iff_exists.1 (h c List.mem_cons_self)
      have hrest := ih fun d hd => h d (List.mem_cons_of_mem _ hd)
      simp [takeDigits, hn, hrest]

theorem takeDigits_digits {digits : List Char} (h : IsDigits digits) (s : List Char) :
    ∃ n ns, takeDigits digitValue? (digits ++ s) = (n :: ns, (takeDigits digitValue? s).2) := by
  have hrest := takeDigits_append h.2 s
  obtain ⟨c, digits, rfl⟩ := List.exists_cons_of_ne_nil h.1
  obtain ⟨n, hn⟩ := Option.isSome_iff_exists.1 (h.2 c List.mem_cons_self)
  rw [List.cons_append] at hrest ⊢
  rw [takeDigits, hn] at hrest ⊢
  exact ⟨n, _, Prod.ext rfl hrest⟩

theorem exists_digits (s : List Char) :
    ∃ digits, AllDigits digits ∧ s = digits ++ (takeDigits digitValue? s).2 ∧
      ((takeDigits digitValue? s).1 = [] ↔ digits = []) := by
  induction s with
  | nil => exact ⟨[], nofun, rfl, by simp [takeDigits]⟩
  | cons c s ih =>
      obtain ⟨digits, hdigits, hs, -⟩ := ih
      cases hc : digitValue? c with
      | none =>
          rw [takeDigits_of_head hc]
          exact ⟨[], nofun, rfl, by simp⟩
      | some n =>
          refine ⟨c :: digits, ?_, ?_, by simp [takeDigits, hc]⟩
          · exact List.forall_mem_cons.2 ⟨by simp [hc], hdigits⟩
          · simp only [takeDigits, hc, List.cons_append]
            exact congrArg _ hs

theorem takeDigits_suffix (s : List Char) : (takeDigits digitValue? s).2 <:+ s := by
  obtain ⟨digits, -, hs, -⟩ := exists_digits s
  exact ⟨digits, hs.symm⟩

theorem eq_of_takeDigits {s rest : List Char} (h : takeDigits digitValue? s = ([], rest)) :
    s = rest := by
  obtain ⟨digits, -, hs, hnil⟩ := exists_digits s
  rw [h] at hs hnil
  rw [hs, hnil.1 rfl, List.nil_append]

theorem isDigits_of_takeDigits {s rest : List Char} {n : Nat} {ns : List Nat}
    (h : takeDigits digitValue? s = (n :: ns, rest)) :
    ∃ digits, IsDigits digits ∧ s = digits ++ rest := by
  obtain ⟨digits, hdigits, hs, hnil⟩ := exists_digits s
  rw [h] at hs hnil
  exact ⟨digits, ⟨fun hempty => List.cons_ne_nil _ _ (hnil.2 hempty), hdigits⟩, hs⟩

theorem head_digits {digits : List Char} (h : IsDigits digits) (s : List Char) {c : Char}
    (hc : c ∈ (digits ++ s).head?) : (digitValue? c).isSome = true := by
  obtain ⟨d, digits, rfl⟩ := List.exists_cons_of_ne_nil h.1
  cases hc
  exact h.2 _ List.mem_cons_self

theorem takeSign_digits (sign : Option Bool) {digits : List Char} (h : IsDigits digits)
    (s : List Char) :
    takeSign (signChars sign ++ (digits ++ s)) = (sign == some true, digits ++ s) := by
  refine Spelling.takeSign_signChars sign fun c hc => ?_
  have hdigit := head_digits h s hc
  constructor
  · rintro rfl
    exact absurd hdigit (by decide)
  · rintro rfl
    exact absurd hdigit (by decide)

theorem noDigit_mark {mark : Char} (h : mark = 'e' ∨ mark = 'E') : digitValue? mark = none := by
  rcases h with rfl | rfl <;> decide

theorem exists_power (s : List Char) :
    ∃ power, IsPower power ∧ s = power ++ (takeExponent s).2 := by
  rw [takeExponent.eq_def]
  split
  next mark rest =>
    split
    next hmark =>
      rcases hsign : takeSign rest with ⟨negative, unsigned⟩
      obtain ⟨sign, rfl, -⟩ := Spelling.takeSign_sound hsign
      rcases hdigits : takeDigits digitValue? unsigned with ⟨_ | ⟨n, ns⟩, after⟩
      · exact ⟨[], .none, by simp [hdigits]⟩
      · obtain ⟨digits, hword, rfl⟩ := isDigits_of_takeDigits hdigits
        refine ⟨mark :: (signChars sign ++ digits), .marked (by simpa using hmark) sign hword, ?_⟩
        simp [hdigits]
    next => exact ⟨[], .none, rfl⟩
  next => exact ⟨[], .none, rfl⟩

theorem takeExponent_suffix (s : List Char) : (takeExponent s).2 <:+ s := by
  obtain ⟨power, -, hs⟩ := exists_power s
  exact ⟨power, hs.symm⟩

theorem takeExponent_power {power : List Char} (h : IsPower power) (s : List Char) :
    (takeExponent (power ++ s)).2 <:+ s := by
  cases h with
  | none => exact takeExponent_suffix s
  | marked hmark sign hdigits =>
      obtain ⟨n, ns, htake⟩ := takeDigits_digits hdigits s
      rw [List.cons_append, List.append_assoc, takeExponent.eq_def]
      simp only [takeSign_digits sign hdigits, htake, Bool.or_eq_true, decide_eq_true_eq, hmark,
        if_true]
      exact takeDigits_suffix s

theorem takeExponent_digits {digits power : List Char} (hdigits : AllDigits digits)
    (hpower : IsPower power) (s : List Char) :
    (takeExponent (takeDigits digitValue? (digits ++ (power ++ s))).2).2 <:+ s := by
  rw [takeDigits_append hdigits]
  cases hpower with
  | none => exact (takeExponent_suffix _).trans (takeDigits_suffix s)
  | marked hmark sign hword =>
      rw [List.cons_append, takeDigits_of_head (noDigit_mark hmark)]
      exact takeExponent_power (.marked hmark sign hword) s

theorem afterPoint_suffix (s : List Char) : (afterPoint s).2 <:+ s := by
  unfold afterPoint
  split
  next rest => exact (takeDigits_suffix rest).trans (List.suffix_cons _ _)
  next => exact List.suffix_refl _

theorem exists_fraction (s : List Char) :
    s = (afterPoint s).2 ∨
      ∃ fraction, AllDigits fraction ∧ s = '.' :: (fraction ++ (afterPoint s).2) := by
  unfold afterPoint
  split
  next rest =>
    obtain ⟨fraction, hfraction, hrest, -⟩ := exists_digits rest
    exact .inr ⟨fraction, hfraction, congrArg _ hrest⟩
  next => exact .inl rfl

theorem exists_numeral {s rest : List Char} {n : Numeral} (h : Numeral.take? s = some (n, rest)) :
    ∃ numeral, IsNumeral numeral ∧ s = numeral ++ rest := by
  rcases htake : takeDigits digitValue? s with ⟨_ | ⟨m, ms⟩, after⟩
  · obtain ⟨rest', values, more, rfl, hne, hfraction, -, rfl⟩ := Spelling.take?_point_sound htake h
    obtain rfl := eq_of_takeDigits htake
    obtain ⟨m, ms, rfl⟩ := List.exists_cons_of_ne_nil hne
    obtain ⟨fraction, hword, rfl⟩ := isDigits_of_takeDigits hfraction
    obtain ⟨power, hpower, hmore⟩ := exists_power more
    refine ⟨'.' :: (fraction ++ power), .fraction hword hpower, ?_⟩
    rw [List.cons_append, List.append_assoc, ← hmore]
  · rw [Spelling.take?_whole htake, Option.some.injEq, Prod.mk.injEq] at h
    obtain ⟨-, rfl⟩ := h
    obtain ⟨digits, hword, rfl⟩ := isDigits_of_takeDigits htake
    obtain ⟨power, hpower, hafter⟩ := exists_power (afterPoint after).2
    rcases exists_fraction after with hnone | ⟨fraction, hfraction, hpoint⟩
    · refine ⟨digits ++ power, .whole hword hpower, ?_⟩
      rw [List.append_assoc, ← hafter, ← hnone]
    · refine ⟨digits ++ '.' :: (fraction ++ power), .pointed hword hfraction hpower, ?_⟩
      rw [List.append_assoc, List.cons_append, List.append_assoc, ← hafter, ← hpoint]

theorem take?_numeral {numeral : List Char} (h : IsNumeral numeral) (s : List Char) :
    ∃ n rest, Numeral.take? (numeral ++ s) = some (n, rest) ∧ rest <:+ s := by
  cases h with
  | @whole digits power hdigits hpower =>
      obtain ⟨m, ms, htake⟩ := takeDigits_digits hdigits (power ++ s)
      rw [List.append_assoc, Spelling.take?_whole htake]
      refine ⟨_, _, rfl, ?_⟩
      cases hpower with
      | none =>
          exact (takeExponent_suffix _).trans ((afterPoint_suffix _).trans (takeDigits_suffix s))
      | @marked mark hmark sign word hword =>
          -- What stands after the digits is the mark of the power, and not a point.
          have hpoint : ∀ rest, afterPoint (mark :: rest) = ([], mark :: rest) := by
            rcases hmark with rfl | rfl <;> exact fun _ => rfl
          rw [List.cons_append, takeDigits_of_head (noDigit_mark hmark), hpoint]
          exact takeExponent_power (.marked hmark sign hword) s
  | @pointed digits fraction power hdigits hfraction hpower =>
      obtain ⟨m, ms, htake⟩ := takeDigits_digits hdigits ('.' :: (fraction ++ (power ++ s)))
      rw [takeDigits_of_head (by decide)] at htake
      rw [List.append_assoc, List.cons_append, List.append_assoc, Spelling.take?_whole htake]
      exact ⟨_, _, rfl, takeExponent_digits hfraction hpower s⟩
  | @fraction fraction power hfraction hpower =>
      obtain ⟨m, ms, htake⟩ := takeDigits_digits hfraction (power ++ s)
      rw [List.cons_append, List.append_assoc, Spelling.take?_point htake]
      refine ⟨_, _, rfl, ?_⟩
      have hrest := takeExponent_digits hfraction.2 hpower s
      rwa [takeDigits_append hfraction.2] at hrest

theorem head_numeral {numeral : List Char} (h : IsNumeral numeral) (s : List Char) {c : Char}
    (hc : c ∈ (numeral ++ s).head?) : c = '.' ∨ (digitValue? c).isSome = true := by
  cases h with
  | whole hdigits hpower | pointed hdigits hfraction hpower =>
      rw [List.append_assoc] at hc
      exact .inr (head_digits hdigits _ hc)
  | fraction hfraction hpower =>
      cases hc
      exact .inl rfl

theorem head_numeral_ne {numeral : List Char} (h : IsNumeral numeral) (s : List Char) {c d : Char}
    (hc : c ∈ (numeral ++ s).head?) (hpoint : d ≠ '.') (hdigit : digitValue? d = none) : c ≠ d := by
  rintro rfl
  rcases head_numeral h s hc with hc | hc
  · exact hpoint hc
  · rw [hdigit] at hc
    cases hc

theorem IsNumber.ne_nil {number : List Char} (h : IsNumber number) : number ≠ [] := by
  cases h with
  | infinity sign => simp
  | numeral sign hnumeral =>
      cases hnumeral with
      | whole hdigits hpower => simp [hdigits.1]
      | pointed | fraction => simp

theorem takeSign_numeral (sign : Option Bool) {numeral : List Char} (h : IsNumeral numeral)
    (s : List Char) :
    takeSign (signChars sign ++ (numeral ++ s)) = (sign == some true, numeral ++ s) :=
  Spelling.takeSign_signChars sign fun _ hc =>
    ⟨head_numeral_ne h s hc (by decide) (by decide), head_numeral_ne h s hc (by decide) (by decide)⟩

theorem takeSign_infinity (sign : Option Bool) (s : List Char) :
    takeSign (signChars sign ++ ("Infinity".toList ++ s)) =
      (sign == some true, "Infinity".toList ++ s) := by
  rcases sign with _ | _ | _ <;> rfl

theorem afterWord?_eq_some_iff (word s rest : List Char) :
    afterWord? word s = some rest ↔ s = word ++ rest := by
  induction word generalizing s with
  | nil => simp [afterWord?]
  | cons c word ih =>
      cases s with
      | nil => simp [afterWord?]
      | cons d s =>
          by_cases hcd : c = d
          · simp [afterWord?, hcd, ih]
          · simp [afterWord?, hcd, Ne.symm hcd]

theorem afterWord?_numeral {numeral : List Char} (h : IsNumeral numeral) (s : List Char) :
    afterWord? "Infinity".toList (numeral ++ s) = none := by
  rw [Option.eq_none_iff_forall_ne_some]
  intro rest hrest
  rw [afterWord?_eq_some_iff] at hrest
  have hhead : 'I' ∈ (numeral ++ s).head? := by
    rw [hrest]
    rfl
  exact head_numeral_ne h s hhead (by decide) (by decide) rfl

theorem exists_number {s rest : List Char} (h : afterNumericHead? s = some rest) :
    ∃ number, IsNumber number ∧ s = number ++ rest := by
  rw [afterNumericHead?] at h
  rcases hsign : takeSign s with ⟨negative, unsigned⟩
  obtain ⟨sign, rfl, -⟩ := Spelling.takeSign_sound hsign
  rw [hsign] at h
  dsimp only at h
  split at h
  next left hword =>
    cases h
    rw [afterWord?_eq_some_iff] at hword
    exact ⟨_, .infinity sign, by rw [hword, List.append_assoc]⟩
  next =>
    obtain ⟨⟨n, left⟩, htake, rfl⟩ := Option.map_eq_some_iff.1 h
    obtain ⟨numeral, hnumeral, rfl⟩ := exists_numeral htake
    exact ⟨_, .numeral sign hnumeral, by rw [List.append_assoc]⟩

theorem afterNumericHead?_number {number : List Char} (h : IsNumber number) (s : List Char) :
    ∃ rest, afterNumericHead? (number ++ s) = some rest ∧ rest <:+ s := by
  cases h with
  | infinity sign =>
      have hword := (afterWord?_eq_some_iff "Infinity".toList _ s).2 rfl
      rw [List.append_assoc, afterNumericHead?, takeSign_infinity]
      dsimp only
      rw [hword]
      exact ⟨s, rfl, List.suffix_refl s⟩
  | @numeral sign numeral hnumeral =>
      obtain ⟨n, rest, htake, hrest⟩ := take?_numeral hnumeral s
      rw [List.append_assoc, afterNumericHead?, takeSign_numeral sign hnumeral]
      dsimp only
      rw [afterWord?_numeral hnumeral, htake]
      exact ⟨rest, rfl, hrest⟩

end Referral.Text
