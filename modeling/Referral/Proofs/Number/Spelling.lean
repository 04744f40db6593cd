import Mathlib.Data.List.DropRight
import Referral.Number.Decimal
import Referral.Number.Rounding

namespace Referral

/-- A power of ten: a mark, which may be a capital, a sign and digits. -/
structure Spelling.Power where
  capital : Bool
  sign : Option Bool
  digits : List (Fin 10)
  digits_ne : digits ≠ []

structure Spelling where
  sign : Option Bool
  whole : List (Fin 10)
  fraction : Option (List (Fin 10))
  power : Option Spelling.Power
  digits_ne : whole ++ fraction.getD [] ≠ []

namespace Spelling

def signChars : Option Bool → List Char
  | none => []
  | some true => ['-']
  | some false => ['+']

def digitChars (ds : List (Fin 10)) : List Char := ds.map fun d => d.val.digitChar

def fractionChars : Option (List (Fin 10)) → List Char
  | none => []
  | some ds => '.' :: digitChars ds

def powerChars : Option Power → List Char
  | none => []
  | some p => (if p.capital then 'E' else 'e') :: (signChars p.sign ++ digitChars p.digits)

def unsigned (p : Spelling) : List Char :=
  digitChars p.whole ++ (fractionChars p.fraction ++ powerChars p.power)

def chars (p : Spelling) : List Char := signChars p.sign ++ p.unsigned

def value (ds : List (Fin 10)) : Nat := positional 10 (ds.map Fin.val)

def exponent : Option Power → Int
  | none => 0
  | some p => signed (p.sign == some true) (value p.digits)

def decimal (p : Spelling) : Decimal where
  negative := p.sign == some true
  coefficient := value (p.whole ++ p.fraction.getD [])
  exponent := exponent p.power - (p.fraction.getD []).length

/-- What is left of a text without blanks around it and underscores, in digits from `0` to `9`. -/
def bare (text : String) : List Char :=
  ((Text.trimBy Text.isBlank text.toList).filter (· ≠ '_')).map Quantity.plainDigit

open Text (digitValue? takeDigits takeSign takeExponent)

theorem digitValue?_digitChar (d : Fin 10) : digitValue? d.val.digitChar = some d.val := by
  revert d
  decide

theorem digitValue?_le {c : Char} {n : Nat} (h : digitValue? c = some n) : n ≤ 9 := by
  obtain ⟨first, hfirst, rfl⟩ := Option.map_eq_some_iff.1 h
  have hrange := List.find?_some hfirst
  simp only [Bool.and_eq_true, decide_eq_true_eq] at hrange
  omega

def Plain (s : List Char) : Prop :=
  ∀ c ∈ s, ∀ n, digitValue? c = some n → ∃ d : Fin 10, c = d.val.digitChar ∧ n = d.val

theorem plain_bare (text : String) : Plain (bare text) := by
  intro c hc n hn
  obtain ⟨given, -, rfl⟩ := List.mem_map.1 hc
  rw [Quantity.plainDigit] at hn ⊢
  cases hgiven : digitValue? given with
  | none =>
      rw [hgiven] at hn
      cases hgiven.symm.trans hn
  | some m =>
      have hm := digitValue?_le hgiven
      have hchar : ∀ d : Fin 10, Char.ofNat (48 + d.val) = d.val.digitChar := by decide
      have hsame := hchar ⟨m, by omega⟩
      rw [hgiven] at hn
      dsimp only at hn hsame ⊢
      rw [hsame] at hn ⊢
      have hvalue := digitValue?_digitChar ⟨m, by omega⟩
      exact ⟨⟨m, by omega⟩, rfl, Option.some.inj (hn.symm.trans hvalue)⟩

theorem Plain.of_append {s t : List Char} (h : Plain (s ++ t)) : Plain t :=
  fun c hc => h c (List.mem_append_right s hc)

def NoDigit (rest : List Char) : Prop := ∀ c ∈ rest.head?, digitValue? c = none

theorem takeDigits_digitChars (ds : List (Fin 10)) {rest : List Char} (h : NoDigit rest) :
    takeDigits digitValue? (digitChars ds ++ rest) = (ds.map Fin.val, rest) := by
  induction ds with
  | nil =>
      cases rest with
      | nil => rfl
      | cons c rest => simp [digitChars, takeDigits, h c rfl]
  | cons d ds ih =>
      rw [digitChars] at ih
      simp [digitChars, takeDigits, digitValue?_digitChar, ih]

theorem takeDigits_sound {s rest : List Char} {values : List Nat} (hs : Plain s)
    (h : takeDigits digitValue? s = (values, rest)) :
    ∃ ds : List (Fin 10), values = ds.map Fin.val ∧ s = digitChars ds ++ rest ∧ NoDigit rest := by
  induction s generalizing values with
  | nil =>
      cases h
      exact ⟨[], rfl, rfl, fun c hc => nomatch hc⟩
  | cons c s ih =>
      rw [takeDigits] at h
      cases hc : digitValue? c with
      | none =>
          rw [hc] at h
          cases h
          refine ⟨[], rfl, rfl, fun c' hc' => ?_⟩
          cases hc'
          exact hc
      | some n =>
          rw [hc] at h
          cases h
          obtain ⟨d, rfl, rfl⟩ := hs c List.mem_cons_self n hc
          obtain ⟨ds, hvalues, hchars, hrest⟩ :=
            ih (fun c' hc' => hs c' (List.mem_cons_of_mem _ hc')) rfl
          refine ⟨d :: ds, ?_, ?_, hrest⟩
          · rw [hvalues, List.map_cons]
          · rw [digitChars, List.map_cons, List.cons_append]
            exact congrArg _ hchars

theorem takeSign_signChars (sign : Option Bool) {rest : List Char}
    (h : ∀ c ∈ rest.head?, c ≠ '-' ∧ c ≠ '+') :
    takeSign (signChars sign ++ rest) = (sign == some true, rest) := by
  rcases sign with _ | _ | _
  · cases rest with
    | nil => rfl
    | cons c rest =>
        obtain ⟨hminus, hplus⟩ := h c rfl
        rw [signChars, List.nil_append, takeSign]
        · rfl
        · rintro rest' ⟨rfl, -⟩
          exact hminus rfl
        · rintro rest' ⟨rfl, -⟩
          exact hplus rfl
  · rfl
  · rfl

theorem takeSign_sound {s rest : List Char} {negative : Bool}
    (h : takeSign s = (negative, rest)) :
    ∃ sign, s = signChars sign ++ rest ∧ negative = (sign == some true) := by
  rw [Text.takeSign.eq_def] at h
  split at h
  · cases h
    exact ⟨some true, rfl, rfl⟩
  · cases h
    exact ⟨some false, rfl, rfl⟩
  · cases h
    exact ⟨none, rfl, rfl⟩

theorem head_digitChars_ne {ds : List (Fin 10)} (hds : ds ≠ []) (rest : List Char) :
    ∀ c ∈ (digitChars ds ++ rest).head?, c ≠ '-' ∧ c ≠ '+' := by
  obtain ⟨d, ds, rfl⟩ := List.exists_cons_of_ne_nil hds
  have hdigit : ∀ d : Fin 10, d.val.digitChar ≠ '-' ∧ d.val.digitChar ≠ '+' := by decide
  intro c hc
  cases hc
  exact hdigit d

theorem takeExponent_powerChars (power : Option Power) :
    takeExponent (powerChars power) = (exponent power, []) := by
  rcases power with _ | ⟨capital, sign, ds, hds⟩
  · rfl
  · have hsign := takeSign_signChars sign (head_digitChars_ne hds [])
    have hnone : NoDigit [] := fun c hc => nomatch hc
    have hdigits := takeDigits_digitChars ds hnone
    rw [List.append_nil] at hsign hdigits
    obtain ⟨d, ds, rfl⟩ := List.exists_cons_of_ne_nil hds
    rw [powerChars, Text.takeExponent.eq_def]
    dsimp only
    rw [if_pos (by cases capital <;> rfl), hsign]
    dsimp only
    rw [hdigits]
    rfl

theorem takeExponent_sound {s : List Char} {e : Int} (hs : Plain s)
    (h : takeExponent s = (e, [])) : ∃ power, s = powerChars power ∧ e = exponent power := by
  rw [Text.takeExponent.eq_def] at h
  split at h
  next mark rest =>
    split at h
    next hmark =>
      have hmark : mark = if mark == 'E' then 'E' else 'e' := by
        by_cases hcapital : mark = 'E' <;> simp_all
      rcases hsign : takeSign rest with ⟨negative, unsigned⟩
      obtain ⟨sign, rfl, rfl⟩ := takeSign_sound hsign
      rcases hdigits : takeDigits digitValue? unsigned with ⟨_ | ⟨n, ns⟩, after⟩
      · simp only [hsign, hdigits] at h
        cases h
      · simp only [hsign, hdigits] at h
        cases h
        obtain ⟨ds, hvalues, rfl, -⟩ :=
          takeDigits_sound (Plain.of_append (s := mark :: signChars sign) hs) hdigits
        have hds : ds ≠ [] := by
          rintro rfl
          cases hvalues
        refine ⟨some ⟨mark == 'E', sign, ds, hds⟩, ?_, ?_⟩
        · rw [powerChars, ← hmark, List.append_nil]
        · rw [hvalues]
          rfl
    next => cases h
  next =>
    cases h
    exact ⟨none, rfl, rfl⟩

theorem noDigit_powerChars (power : Option Power) : NoDigit (powerChars power) := by
  rcases power with _ | ⟨capital, sign, ds, hds⟩
  · exact fun c hc => nomatch hc
  · intro c hc
    cases hc
    cases capital with
    | false => exact (by decide : digitValue? 'e' = none)
    | true => exact (by decide : digitValue? 'E' = none)

theorem noDigit_fractionChars (fraction : Option (List (Fin 10))) (power : Option Power) :
    NoDigit (fractionChars fraction ++ powerChars power) := by
  cases fraction with
  | none => exact noDigit_powerChars power
  | some ds =>
      intro c hc
      cases hc
      decide

def afterPoint : List Char → List Nat × List Char
  | '.' :: rest => takeDigits digitValue? rest
  | rest => ([], rest)

theorem afterPoint_fractionChars (fraction : Option (List (Fin 10))) (power : Option Power) :
    afterPoint (fractionChars fraction ++ powerChars power) =
      ((fraction.getD []).map Fin.val, powerChars power) := by
  cases fraction with
  | none =>
      rcases power with _ | ⟨_ | _, sign, ds, hds⟩ <;> rfl
  | some ds => exact takeDigits_digitChars ds (noDigit_powerChars power)

theorem take?_whole {s rest : List Char} {n : Nat} {ns : List Nat}
    (h : takeDigits digitValue? s = (n :: ns, rest)) :
    Text.Numeral.take? s =
      some (⟨n :: ns, (afterPoint rest).1, (takeExponent (afterPoint rest).2).1⟩,
        (takeExponent (afterPoint rest).2).2) := by
  rw [Text.Numeral.take?, h]
  rfl

theorem take?_point {rest after : List Char} {n : Nat} {ns : List Nat}
    (h : takeDigits digitValue? rest = (n :: ns, after)) :
    Text.Numeral.take? ('.' :: rest) =
      some (⟨[], n :: ns, (takeExponent after).1⟩, (takeExponent after).2) := by
  have hpoint : takeDigits digitValue? ('.' :: rest) = ([], '.' :: rest) := rfl
  simp [Text.Numeral.take?, hpoint, h]

theorem take?_unsigned (p : Spelling) :
    Text.Numeral.take? p.unsigned =
      some (⟨p.whole.map Fin.val, (p.fraction.getD []).map Fin.val, exponent p.power⟩, []) := by
  obtain ⟨sign, whole, fraction, power, hne⟩ := p
  have hwhole := takeDigits_digitChars whole (noDigit_fractionChars fraction power)
  have hpower := takeExponent_powerChars power
  cases whole with
  | nil =>
      cases fraction with
      | none => exact absurd rfl hne
      | some ds =>
          obtain ⟨d, ds, rfl⟩ := List.exists_cons_of_ne_nil (show ds ≠ [] from hne)
          have hfraction := takeDigits_digitChars (d :: ds) (noDigit_powerChars power)
          refine (take?_point hfraction).trans ?_
          rw [hpower]
          rfl
  | cons d whole =>
      refine (take?_whole hwhole).trans ?_
      rw [afterPoint_fractionChars, hpower]
      rfl

theorem afterPoint_sound {s rest : List Char} {values : List Nat} (hs : Plain s)
    (h : afterPoint s = (values, rest)) :
    ∃ fraction : Option (List (Fin 10)), values = (fraction.getD []).map Fin.val ∧
      s = fractionChars fraction ++ rest := by
  rw [afterPoint.eq_def] at h
  split at h
  · obtain ⟨ds, hvalues, hchars, -⟩ := takeDigits_sound (Plain.of_append (s := ['.']) hs) h
    exact ⟨some ds, hvalues, congrArg _ hchars⟩
  · cases h
    exact ⟨none, rfl, rfl⟩

theorem take?_point_sound {s rest after : List Char} {n : Text.Numeral}
    (hdigits : takeDigits digitValue? s = ([], rest)) (h : Text.Numeral.take? s = some (n, after)) :
    ∃ rest' fraction more, rest = '.' :: rest' ∧ fraction ≠ [] ∧
      takeDigits digitValue? rest' = (fraction, more) ∧
      n = ⟨[], fraction, (takeExponent more).1⟩ ∧ (takeExponent more).2 = after := by
  rw [Text.Numeral.take?, hdigits] at h
  split at h
  next rest' heq =>
    cases heq
    split at h
    next => cases h
    next fraction more hne hmore =>
      rw [Option.some.injEq, Prod.mk.injEq] at h
      exact ⟨rest', fraction, more, rfl, hne, hmore, h.1.symm, h.2⟩
  next => cases h
  next hwhole heq =>
    cases heq
    exact absurd rfl hwhole

theorem take?_sound {s : List Char} {n : Text.Numeral} (hs : Plain s)
    (h : Text.Numeral.take? s = some (n, [])) :
    ∃ p : Spelling, s = p.unsigned ∧ p.sign = none ∧
      n = ⟨p.whole.map Fin.val, (p.fraction.getD []).map Fin.val, exponent p.power⟩ := by
  rcases hdigits : takeDigits digitValue? s with ⟨_ | ⟨m, ms⟩, rest⟩
  · obtain ⟨rest', values, more, rfl, hne, hfraction, rfl, hend⟩ := take?_point_sound hdigits h
    obtain ⟨none', hnone, rfl, -⟩ := takeDigits_sound hs hdigits
    obtain rfl : none' = [] := List.map_eq_nil_iff.1 hnone.symm
    have hrest : Plain rest' := hs.of_append (s := ['.'])
    obtain ⟨ds, rfl, rfl, -⟩ := takeDigits_sound hrest hfraction
    obtain ⟨power, rfl, hpower⟩ :=
      takeExponent_sound hrest.of_append (e := (takeExponent more).1) (Prod.ext rfl hend)
    have hds : ds ≠ [] := by
      rintro rfl
      exact hne rfl
    refine ⟨⟨none, [], some ds, power, by simpa using hds⟩, rfl, rfl, ?_⟩
    rw [hpower]
    rfl
  · rw [take?_whole hdigits, Option.some.injEq, Prod.mk.injEq] at h
    obtain ⟨ds, hvalues, rfl, -⟩ := takeDigits_sound hs hdigits
    rcases hafter : afterPoint rest with ⟨values, after⟩
    rw [hafter] at h
    obtain ⟨rfl, hend⟩ := h
    obtain ⟨fraction, rfl, rfl⟩ := afterPoint_sound hs.of_append hafter
    obtain ⟨power, rfl, hpower⟩ :=
      takeExponent_sound hs.of_append.of_append (e := (takeExponent after).1) (Prod.ext rfl hend)
    have hds : ds ≠ [] := by
      rintro rfl
      cases hvalues
    refine ⟨⟨none, ds, fraction, power, by simp [hds]⟩, rfl, rfl, ?_⟩
    rw [hvalues, hpower]

theorem exists_unsigned_eq_cons (p : Spelling) :
    ∃ c rest, p.unsigned = c :: rest ∧ c ≠ '-' ∧ c ≠ '+' ∧ c.toLower ∉ ['i', 'n', 's'] := by
  obtain ⟨sign, whole, fraction, power, hne⟩ := p
  cases whole with
  | nil =>
      cases fraction with
      | none => exact absurd rfl hne
      | some ds => exact ⟨'.', _, rfl, by decide, by decide, by decide⟩
  | cons d whole =>
      have hdigit : ∀ d : Fin 10, d.val.digitChar ≠ '-' ∧ d.val.digitChar ≠ '+' ∧
          d.val.digitChar.toLower ∉ ['i', 'n', 's'] := by decide
      exact ⟨d.val.digitChar, _, rfl, hdigit d⟩

theorem takeSign_chars (p : Spelling) : takeSign p.chars = (p.sign == some true, p.unsigned) := by
  obtain ⟨c, rest, hunsigned, hminus, hplus, -⟩ := p.exists_unsigned_eq_cons
  refine takeSign_signChars p.sign fun c' hc' => ?_
  rw [hunsigned] at hc'
  cases hc'
  exact ⟨hminus, hplus⟩

theorem isNaN_ofList {s : List Char} (h : ∀ c ∈ s.head?, c ∉ ['i', 'n', 's']) :
    Quantity.isNaN (String.ofList s) = false := by
  have hprefix : s.rdropWhile Char.isDigit <+: s := List.rdropWhile_prefix _ s
  have hother {word : String} {first : Char} (hword : word.toList.head? = some first)
      (hfirst : first ∈ ['i', 'n', 's']) : String.ofList (s.rdropWhile Char.isDigit) ≠ word := by
    intro heq
    obtain ⟨rest, hs⟩ := hprefix
    rw [← heq, String.toList_ofList] at hword
    obtain ⟨tail, htail⟩ := List.head?_eq_some_iff.1 hword
    rw [htail] at hs
    exact h first (by rw [← hs]; rfl) hfirst
  rw [Quantity.isNaN, String.toList_ofList]
  change (decide (String.ofList (s.rdropWhile Char.isDigit) = "nan") ||
    decide (String.ofList (s.rdropWhile Char.isDigit) = "snan")) = false
  rw [decide_eq_false (hother rfl (by decide)), decide_eq_false (hother rfl (by decide))]
  rfl

theorem ofList_ne_word {s : List Char} (h : ∀ c ∈ s.head?, c ∉ ['i', 'n', 's']) (word : String)
    {first : Char} (hword : word.toList.head? = some first) (hfirst : first ∈ ['i', 'n', 's']) :
    String.ofList s ≠ word := by
  rintro rfl
  rw [String.toList_ofList] at hword
  exact h first hword hfirst

theorem decimal_eq (p : Spelling) : p.decimal =
    ⟨p.sign == some true,
      (⟨p.whole.map Fin.val, (p.fraction.getD []).map Fin.val, exponent p.power⟩ :
        Text.Numeral).coefficient,
      (⟨p.whole.map Fin.val, (p.fraction.getD []).map Fin.val, exponent p.power⟩ :
        Text.Numeral).scale⟩ := by
  simp [decimal, Text.Numeral.coefficient, Text.Numeral.scale, value]

theorem read?_eq (text : String) :
    Quantity.read? text =
      let (negative, unsigned) := takeSign (bare text)
      let word := String.ofList (unsigned.map Char.toLower)
      if word = "inf" || word = "infinity" then some (.infinite negative)
      else if Quantity.isNaN word then some .nan
      else
        match Text.Numeral.take? unsigned with
        | some (n, []) =>
          let d : Decimal := ⟨negative, n.coefficient, n.scale⟩
          if d.inRange then some (.finite d) else none
        | _ => none := rfl

theorem read?_of_bare {text : String} {p : Spelling} (h : bare text = p.chars) :
    Quantity.read? text = if p.decimal.inRange then some (.finite p.decimal) else none := by
  obtain ⟨c, rest, hunsigned, -, -, hword⟩ := p.exists_unsigned_eq_cons
  have hhead : ∀ c ∈ (p.unsigned.map Char.toLower).head?, c ∉ ['i', 'n', 's'] := by
    intro c' hc'
    rw [hunsigned] at hc'
    cases hc'
    exact hword
  rw [read?_eq, h, takeSign_chars]
  dsimp only
  rw [decide_eq_false (ofList_ne_word hhead "inf" rfl (by decide)),
    decide_eq_false (ofList_ne_word hhead "infinity" rfl (by decide)),
    isNaN_ofList hhead, take?_unsigned, decimal_eq]
  rfl

theorem exists_of_read? {text : String} {d : Decimal}
    (h : Quantity.read? text = some (.finite d)) :
    d.inRange = true ∧ ∃ p : Spelling, bare text = p.chars ∧ p.decimal = d := by
  rw [read?_eq] at h
  rcases hsign : takeSign (bare text) with ⟨negative, unsigned⟩
  obtain ⟨sign, hchars, rfl⟩ := takeSign_sound hsign
  rw [hsign] at h
  dsimp only at h
  split at h
  · cases h
  split at h
  · cases h
  split at h
  next n htake =>
    split at h
    next hrange =>
      cases h
      have hplain : Plain (signChars sign ++ unsigned) := hchars ▸ plain_bare text
      obtain ⟨⟨_, whole, fraction, power, hne⟩, rfl, -, rfl⟩ := take?_sound hplain.of_append htake
      refine ⟨hrange, ⟨sign, whole, fraction, power, hne⟩, hchars, ?_⟩
      rw [decimal_eq]
    next => cases h
  next => cases h

/-- A text is read as a decimal just if it spells the decimal and the exponent is not too large. -/
theorem read?_eq_finite_iff (text : String) (d : Decimal) :
    Quantity.read? text = some (.finite d) ↔
      d.inRange = true ∧ ∃ p : Spelling, bare text = p.chars ∧ p.decimal = d := by
  refine ⟨exists_of_read?, ?_⟩
  rintro ⟨hrange, p, hchars, rfl⟩
  rw [read?_of_bare hchars, if_pos hrange]

theorem decimal_eq_of_chars {p q : Spelling} (h : p.chars = q.chars) : p.decimal = q.decimal := by
  have hsign := (takeSign_chars p).symm.trans (h ▸ takeSign_chars q)
  obtain ⟨hnegative, hunsigned⟩ := Prod.mk.inj hsign
  have htake := (take?_unsigned p).symm.trans (hunsigned ▸ take?_unsigned q)
  rw [decimal_eq, decimal_eq, hnegative, (Prod.mk.inj (Option.some.inj htake)).1]

theorem mem_of_mem_digitChars {ds : List (Fin 10)} {c : Char} (h : c ∈ digitChars ds) :
    c ∈ "0123456789+-.eE".toList := by
  obtain ⟨d, -, rfl⟩ := List.mem_map.1 h
  have hdigit : ∀ d : Fin 10, d.val.digitChar ∈ "0123456789+-.eE".toList := by decide
  exact hdigit d

theorem mem_of_mem_signChars {sign : Option Bool} {c : Char} (h : c ∈ signChars sign) :
    c ∈ "0123456789+-.eE".toList := by
  rcases sign with _ | _ | _
  · exact absurd h List.not_mem_nil
  · rw [List.mem_singleton.1 h]
    decide
  · rw [List.mem_singleton.1 h]
    decide

theorem mem_of_mem_chars {p : Spelling} {c : Char} (h : c ∈ p.chars) :
    c ∈ "0123456789+-.eE".toList := by
  obtain ⟨sign, whole, fraction, power, hne⟩ := p
  simp only [chars, unsigned, List.mem_append] at h
  rcases h with h | h | h | h
  · exact mem_of_mem_signChars h
  · exact mem_of_mem_digitChars h
  · cases fraction with
    | none => exact absurd h List.not_mem_nil
    | some ds =>
        rcases List.mem_cons.1 h with rfl | h
        · decide
        · exact mem_of_mem_digitChars h
  · cases power with
    | none => exact absurd h List.not_mem_nil
    | some q =>
        rcases List.mem_cons.1 h with rfl | h
        · cases q.capital <;> decide
        · rcases List.mem_append.1 h with h | h
          · exact mem_of_mem_signChars h
          · exact mem_of_mem_digitChars h

theorem dropWhile_eq_self {cls : Char → Bool} {s : List Char} (h : ∀ c ∈ s, cls c = false) :
    s.dropWhile cls = s := by
  cases s with
  | nil => rfl
  | cons c s => exact List.dropWhile_cons_of_neg (by simp [h c List.mem_cons_self])

theorem bare_ofList (p : Spelling) : bare (String.ofList p.chars) = p.chars := by
  have hmarks : "0123456789+-.eE".toList.all (fun c =>
      Text.isBlank c = false ∧ c ≠ '_' ∧ Quantity.plainDigit c = c) = true := by decide +kernel
  have hchars : ∀ c ∈ p.chars, Text.isBlank c = false ∧ c ≠ '_' ∧ Quantity.plainDigit c = c :=
    fun c hc => of_decide_eq_true (List.all_eq_true.1 hmarks c (mem_of_mem_chars hc))
  have hblank : ∀ c ∈ p.chars, Text.isBlank c = false := fun c hc => (hchars c hc).1
  have htrim : Text.trimBy Text.isBlank p.chars = p.chars := by
    rw [Text.trimBy, dropWhile_eq_self hblank,
      dropWhile_eq_self fun c hc => hblank c (List.mem_reverse.1 hc), List.reverse_reverse]
  have hfilter : p.chars.filter (· ≠ '_') = p.chars :=
    List.filter_eq_self.2 fun c hc => decide_eq_true (hchars c hc).2.1
  rw [bare, String.toList_ofList, htrim, hfilter]
  exact (List.map_congr_left fun c hc => (hchars c hc).2.2).trans (List.map_id _)

end Spelling

end Referral
