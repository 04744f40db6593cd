import Referral.Number.DoubleText
import Referral.Proofs.Number.Spelling
import Referral.Proofs.Number.Sum

namespace Referral

open Shortest (Scientific)

namespace Spelling

def ofDigits (cs : List Char) : List (Fin 10) := cs.map fun c => Fin.ofNat 10 (c.toNat - 48)

def digitsOf (n : Nat) : List (Fin 10) := ofDigits (Nat.toDigits 10 n)

theorem toNat_of_isDigit {c : Char} (h : c.isDigit = true) : 48 ≤ c.toNat ∧ c.toNat ≤ 57 :=
  Char.isDigit_iff_toNat.1 h

theorem digitChars_ofDigits {cs : List Char} (h : ∀ c ∈ cs, c.isDigit = true) :
    digitChars (ofDigits cs) = cs := by
  rw [digitChars, ofDigits, List.map_map]
  refine (List.map_congr_left fun c hc => ?_).trans (List.map_id _)
  have hdigit := toNat_of_isDigit (h c hc)
  have hchar : ∀ d : Fin 10, d.val.digitChar = Char.ofNat (48 + d.val) := by decide
  rw [Function.comp_apply, hchar, Fin.val_ofNat, Nat.mod_eq_of_lt (by omega)]
  rw [show 48 + (c.toNat - 48) = c.toNat by omega]
  exact Char.ofNat_toNat c

theorem isDigit_of_mem_toDigits {n : Nat} {c : Char} (h : c ∈ Nat.toDigits 10 n) :
    c.isDigit = true :=
  Nat.isDigit_of_mem_toDigits (by decide) (by decide) h

theorem digitChars_digitsOf (n : Nat) : digitChars (digitsOf n) = Nat.toDigits 10 n :=
  digitChars_ofDigits fun _ => isDigit_of_mem_toDigits

theorem digitsOf_ne_nil (n : Nat) : digitsOf n ≠ [] := by
  intro h
  have hlength := congrArg List.length h
  have hpos : 0 < (Nat.toDigits 10 n).length := Nat.length_toDigits_pos
  rw [digitsOf, ofDigits, List.length_map, List.length_nil] at hlength
  omega

theorem value_append (ds es : List (Fin 10)) :
    value (ds ++ es) = value ds * 10 ^ es.length + value es := by
  induction es using List.reverseRecOn with
  | nil => simp [value, positional]
  | append_singleton es e ih =>
      have hlast : ∀ ds : List (Fin 10), value (ds ++ [e]) = 10 * value ds + e.val := fun ds => by
        simp [value, positional]
      rw [← List.append_assoc, hlast, ih, hlast, List.length_append, List.length_singleton,
        pow_succ]
      ring

theorem value_zeros (count : Nat) : value (List.replicate count 0) = 0 := by
  induction count with
  | zero => rfl
  | succ count ih => rw [List.replicate_succ', value_append, ih]; rfl

theorem value_digitsOf (n : Nat) : value (digitsOf n) = n := by
  have hmap : (digitsOf n).map Fin.val = (Nat.toDigits 10 n).map (·.toNat - 48) := by
    rw [digitsOf, ofDigits, List.map_map]
    refine List.map_congr_left fun c hc => ?_
    have hdigit := toNat_of_isDigit (isDigit_of_mem_toDigits hc)
    rw [Function.comp_apply, Fin.val_ofNat, Nat.mod_eq_of_lt (by omega)]
  rw [value, hmap, positional, List.foldl_map]
  exact Nat.ofDigitChars_ten_toDigits

def minus (negative : Bool) : Option Bool := if negative then some true else none

theorem minus_beq (negative : Bool) : (minus negative == some true) = negative := by
  cases negative <;> rfl

def ofInt (n : Int) : Spelling where
  sign := minus (decide (n < 0))
  whole := digitsOf n.natAbs
  fraction := none
  power := none
  digits_ne := by simp [digitsOf_ne_nil]

theorem chars_ofInt (n : Int) : (ofInt n).chars = (decimalText n).toList := by
  have hchars : (ofInt n).chars =
      signChars (minus (decide (n < 0))) ++ Nat.toDigits 10 n.natAbs := by
    simp [chars, unsigned, ofInt, fractionChars, powerChars, digitChars_digitsOf]
  rw [hchars, decimalText]
  by_cases h : n < 0 <;> simp [h, minus, signChars, decimalDigits]

theorem decimal_ofInt (n : Int) : (ofInt n).decimal = .ofInt n := by
  simp [decimal, ofInt, minus_beq, value_digitsOf, Decimal.ofInt, exponent]

theorem value_zeros_append (count : Nat) (ds : List (Fin 10)) :
    value (List.replicate count 0 ++ ds) = value ds := by
  rw [value_append, value_zeros, Nat.zero_mul, Nat.zero_add]

theorem value_append_zeros (ds : List (Fin 10)) (count : Nat) :
    value (ds ++ List.replicate count 0) = value ds * 10 ^ count := by
  rw [value_append, value_zeros, List.length_replicate, Nat.add_zero]

theorem digitChars_append (ds es : List (Fin 10)) :
    digitChars (ds ++ es) = digitChars ds ++ digitChars es := List.map_append

theorem digitChars_zeros (count : Nat) :
    digitChars (List.replicate count 0) = List.replicate count '0' := List.map_replicate

theorem digitChars_take (ds : List (Fin 10)) (count : Nat) :
    digitChars (ds.take count) = (digitChars ds).take count := List.map_take

theorem digitChars_drop (ds : List (Fin 10)) (count : Nat) :
    digitChars (ds.drop count) = (digitChars ds).drop count := List.map_drop

theorem length_digitsOf (n : Nat) : (digitsOf n).length = digitCount n := List.length_map _

def pointed (negative : Bool) (ds : List (Fin 10)) (hds : ds ≠ []) (count : Nat) : Spelling where
  sign := minus negative
  whole := ds.take count
  fraction := some (ds.drop count)
  power := none
  digits_ne := by simpa using hds

theorem decimal_pointed (negative : Bool) {ds : List (Fin 10)} (hds : ds ≠ []) (count : Nat) :
    (pointed negative ds hds count).decimal =
      ⟨negative, value ds, -((ds.length - count : Nat) : Int)⟩ := by
  simp [decimal, pointed, minus_beq, exponent]

theorem chars_pointed (negative : Bool) {ds : List (Fin 10)} (hds : ds ≠ []) (count : Nat) :
    (pointed negative ds hds count).chars = signChars (minus negative) ++
      ((digitChars ds).take count ++ '.' :: (digitChars ds).drop count) := by
  simp [chars, unsigned, pointed, fractionChars, powerChars, digitChars_take, digitChars_drop]

theorem toList_plain (d : Scientific) {point : Int}
    (hpoint : d.exponent + (digitCount d.digits : Int) = point) :
    d.plain.toList =
      if point ≤ 0 then
        '0' :: '.' :: (List.replicate (-point).toNat '0' ++ Nat.toDigits 10 d.digits)
      else if digitCount d.digits ≤ point.toNat then
        Nat.toDigits 10 d.digits ++ List.replicate (point.toNat - digitCount d.digits) '0' ++
          ['.', '0']
      else
        (Nat.toDigits 10 d.digits).take point.toNat ++
          '.' :: (Nat.toDigits 10 d.digits).drop point.toNat := by
  subst hpoint
  rw [Scientific.plain, digitCount]
  split
  · simp
  split
  · simp
  · simp

theorem exists_plain (negative : Bool) (d : Scientific) :
    ∃ p : Spelling, p.chars = signChars (minus negative) ++ d.plain.toList ∧
      p.decimal = if 0 ≤ d.exponent then ⟨negative, d.digits * 10 ^ (d.exponent.toNat + 1), -1⟩
        else ⟨negative, d.digits, d.exponent⟩ := by
  obtain ⟨point, hpoint⟩ : ∃ point, d.exponent + (digitCount d.digits : Int) = point := ⟨_, rfl⟩
  have hpos := digitCount_pos d.digits
  have hlength := length_digitsOf d.digits
  rw [toList_plain d hpoint]
  split
  next hlow =>
    have hne : List.replicate ((-point).toNat + 1) (0 : Fin 10) ++ digitsOf d.digits ≠ [] := by simp
    refine ⟨pointed negative _ hne 1, ?_, ?_⟩
    · rw [chars_pointed, digitChars_append, digitChars_digitsOf, digitChars_zeros,
        List.replicate_succ]
      simp
    · rw [decimal_pointed, value_zeros_append, value_digitsOf, if_neg (by omega),
        List.length_append,
        List.length_replicate, hlength]
      congr 1
      omega
  next hlow =>
    split
    next hwhole =>
      have hne : digitsOf d.digits ++ List.replicate (d.exponent.toNat + 1) (0 : Fin 10) ≠ [] := by
        simp
      have hzeros : point.toNat - digitCount d.digits = d.exponent.toNat := by omega
      have hcount : (Nat.toDigits 10 d.digits ++ List.replicate d.exponent.toNat '0').length =
          point.toNat := by
        rw [List.length_append, List.length_replicate]
        change digitCount d.digits + _ = _
        omega
      refine ⟨pointed negative _ hne point.toNat, ?_, ?_⟩
      · rw [chars_pointed, digitChars_append, digitChars_digitsOf, digitChars_zeros,
          List.replicate_succ', ← List.append_assoc (Nat.toDigits 10 d.digits), hzeros,
          List.take_left' hcount, List.drop_left' hcount]
      · rw [decimal_pointed, value_append_zeros, value_digitsOf, if_pos (by omega),
          List.length_append, List.length_replicate, hlength]
        congr 1
        omega
    next hwhole =>
      refine ⟨pointed negative _ (digitsOf_ne_nil d.digits) point.toNat, ?_, ?_⟩
      · rw [chars_pointed, digitChars_digitsOf]
      · rw [decimal_pointed, value_digitsOf, if_neg (by omega), hlength]
        congr 1
        omega

def Power.ofInt (e : Int) : Power where
  capital := false
  sign := some (decide (e < 0))
  digits := List.replicate (2 - digitCount e.natAbs) 0 ++ digitsOf e.natAbs
  digits_ne := by simp [digitsOf_ne_nil]

theorem exponent_ofInt (e : Int) : exponent (some (.ofInt e)) = e := by
  have hsign : (some (decide (e < 0)) == some true) = decide (e < 0) := by
    by_cases h : e < 0 <;> simp [h]
  rw [exponent, Power.ofInt, hsign, value_zeros_append, value_digitsOf, signed_natAbs]

theorem powerChars_ofInt (e : Int) : powerChars (some (.ofInt e)) =
    'e' :: (if e < 0 then '-' else '+') :: (padded 2 (decimalDigits e.natAbs)).toList := by
  have hpadded : (padded 2 (decimalDigits e.natAbs)).toList =
      List.replicate (2 - digitCount e.natAbs) '0' ++ Nat.toDigits 10 e.natAbs := by
    rw [padded, String.toList_append, String.toList_ofList, decimalDigits, String.toList_ofList,
      String.length_ofList]
    rfl
  rw [powerChars, Power.ofInt, hpadded, digitChars_append, digitChars_zeros, digitChars_digitsOf]
  by_cases h : e < 0 <;> simp [h, signChars]

def powered (negative : Bool) (n : Nat) (e : Int) : Spelling where
  sign := minus negative
  whole := (digitsOf n).take 1
  fraction := if digitCount n = 1 then none else some ((digitsOf n).drop 1)
  power := some (.ofInt e)
  digits_ne := by simp [digitsOf_ne_nil]

theorem decimal_powered (negative : Bool) (n : Nat) (e : Int) :
    (powered negative n e).decimal = ⟨negative, n, e - (digitCount n - 1)⟩ := by
  have hpos := digitCount_pos n
  have hlength := length_digitsOf n
  rw [decimal, powered, exponent_ofInt, minus_beq]
  dsimp only
  split
  next hone =>
    rw [Option.getD_none, List.append_nil, List.take_of_length_le (by omega), value_digitsOf, hone]
    rfl
  next hone =>
    rw [Option.getD_some, List.take_append_drop, value_digitsOf, List.length_drop, hlength]
    congr 1
    omega

theorem toList_withExponent (d : Scientific) {e : Int}
    (he : d.exponent + (digitCount d.digits : Int) - 1 = e) :
    d.withExponent.toList =
      (Nat.toDigits 10 d.digits).take 1 ++
        ((if digitCount d.digits = 1 then [] else '.' :: (Nat.toDigits 10 d.digits).drop 1) ++
          'e' :: (if e < 0 then '-' else '+') :: (padded 2 (decimalDigits e.natAbs)).toList) := by
  subst he
  rw [Scientific.withExponent, digitCount]
  split <;> split <;> simp

theorem chars_powered (negative : Bool) (d : Scientific) {e : Int}
    (he : d.exponent + (digitCount d.digits : Int) - 1 = e) :
    (powered negative d.digits e).chars =
      signChars (minus negative) ++ d.withExponent.toList := by
  rw [toList_withExponent d he, chars, unsigned, powered, powerChars_ofInt, digitChars_take,
    digitChars_digitsOf]
  split
  next hone => rfl
  next hone => rw [fractionChars, digitChars_drop, digitChars_digitsOf]

end Spelling

def Shortest.Scientific.decimal (negative : Bool) (d : Scientific) : Decimal :=
  if 0 ≤ d.exponent ∧ d.exponent + digitCount d.digits ≤ 16 then
    ⟨negative, d.digits * 10 ^ (d.exponent.toNat + 1), -1⟩
  else ⟨negative, d.digits, d.exponent⟩

/-- The decimal of a double's text, absent where that names no number. -/
def Double.decimal? : Double → Option Decimal
  | finite negative rank =>
    if rank.val = 0 then some ⟨negative, 0, -1⟩
    else some ((Shortest.decimal (mantissa rank) (scale rank)).decimal negative)
  | _ => none

namespace Spelling

theorem exists_text (negative : Bool) (d : Scientific) :
    ∃ p : Spelling, p.chars = signChars (minus negative) ++ d.text.toList ∧
      p.decimal = d.decimal negative := by
  have hpos := digitCount_pos d.digits
  simp only [Scientific.text, Bool.and_eq_true, decide_eq_true_eq, Scientific.decimal]
  split
  next hplain =>
    obtain ⟨p, hchars, hdecimal⟩ := exists_plain negative d
    refine ⟨p, hchars, hdecimal.trans ?_⟩
    change _ ∧ d.exponent + (digitCount d.digits : Int) - 1 < 16 at hplain
    by_cases h : 0 ≤ d.exponent
    · rw [if_pos h, if_pos ⟨h, by omega⟩]
    · rw [if_neg h, if_neg fun h' => h h'.1]
  next hplain =>
    change ¬ (-4 ≤ d.exponent + (digitCount d.digits : Int) - 1 ∧
      d.exponent + (digitCount d.digits : Int) - 1 < 16) at hplain
    refine ⟨powered negative d.digits _, chars_powered negative d rfl, ?_⟩
    rw [decimal_powered, if_neg (by omega)]
    congr 1
    omega

theorem exists_double {x : Double} {d : Decimal} (h : x.decimal? = some d) :
    ∃ p : Spelling, p.chars = x.text.toList ∧ p.decimal = d := by
  cases x with
  | nan | infinity negative => cases h
  | finite negative rank =>
      have hsign (magnitude : String) : signChars (minus negative) ++ magnitude.toList =
          (if negative then "-" ++ magnitude else magnitude).toList := by
        cases negative <;> simp [signChars, minus]
      rw [Double.text, ← hsign]
      rw [Double.decimal?] at h
      by_cases hzero : rank.val = 0
      · rw [if_pos hzero] at h ⊢
        obtain rfl := Option.some.inj h
        refine ⟨pointed negative [0, 0] (by simp) 1, ?_, decimal_pointed negative (by simp) 1⟩
        rw [chars_pointed]
        exact congrArg _ (by decide)
      · rw [if_neg hzero] at h ⊢
        obtain rfl := Option.some.inj h
        exact exists_text negative _

theorem exists_decimal_finite (negative : Bool) (rank : Fin Double.ranks) :
    ∃ d, (Double.finite negative rank).decimal? = some d := by
  rw [Double.decimal?]
  split <;> exact ⟨_, rfl⟩

/-- A double's text spells its decimal and no other, and the texts that name no number spell none.
-/
theorem chars_eq_text_iff (x : Double) (d : Decimal) :
    (∃ p : Spelling, p.chars = x.text.toList ∧ p.decimal = d) ↔ x.decimal? = some d := by
  refine ⟨?_, exists_double⟩
  rintro ⟨p, hchars, rfl⟩
  have hmarks : 'n' ∉ x.text.toList := fun h =>
    absurd (mem_of_mem_chars (p := p) (hchars ▸ h)) (by decide)
  cases x with
  | nan => exact absurd (by decide : 'n' ∈ Double.nan.text.toList) hmarks
  | infinity negative =>
      have hname : ∀ negative, 'n' ∈ (Double.infinity negative).text.toList := by decide
      exact absurd (hname negative) hmarks
  | finite negative rank =>
      obtain ⟨d, hd⟩ := exists_decimal_finite negative rank
      obtain ⟨q, hq, rfl⟩ := exists_double hd
      rw [hd, decimal_eq_of_chars (hq.trans hchars.symm)]

end Spelling

namespace Shortest

theorem stripZeros_le (fuel : Nat) (d : Scientific) :
    (stripZeros fuel d).digits ≤ d.digits ∧ d.exponent ≤ (stripZeros fuel d).exponent ∧
      (stripZeros fuel d).exponent ≤ d.exponent + fuel := by
  induction fuel generalizing d with
  | zero => exact ⟨Nat.le_refl _, Int.le_refl _, Int.le_add_of_nonneg_right (Int.natCast_nonneg 0)⟩
  | succ fuel ih =>
      rw [stripZeros]
      split
      · exact ⟨Nat.le_refl _, Int.le_refl _, by omega⟩
      · obtain ⟨hdigits, hlow, hhigh⟩ := ih ⟨d.digits / 10, d.exponent + 1⟩
        dsimp only at hdigits hlow hhigh
        omega

theorem magnitude_bounds {m : Nat} {q : Int} (hm : m.log2 ≤ 54) (hlow : -1074 ≤ q)
    (hhigh : q ≤ 971) :
    -330 ≤ magnitude m q ∧ magnitude m q ≤ 330 := by
  rw [magnitude, Int.fdiv_eq_ediv_of_nonneg _ (by decide)]
  repeat' split
  all_goals omega

theorem log2_le {n k : Nat} (h : n < 2 ^ k) : n.log2 ≤ k := by
  by_cases hn : n = 0
  · rw [hn, Nat.log2_zero]
    exact Nat.zero_le k
  · exact ((Nat.log2_lt hn).2 h).le

theorem mul_pow_lt {n k b j l : Nat} (hn : n < 10 ^ k) (hb : b ≤ 10) (hj : j ≤ l) :
    n * b ^ j < 10 ^ (k + l) := by
  have hpower : b ^ j ≤ 10 ^ l :=
    (Nat.pow_le_pow_left hb j).trans (Nat.pow_le_pow_right (by decide) hj)
  rw [pow_add]
  exact Nat.mul_lt_mul_of_lt_of_le hn hpower (Nat.pow_pos (by decide))

structure Bounded (d : Scientific) : Prop where
  digits : ∃ k ≤ 1500, d.digits < 10 ^ k
  low : -1100 ≤ d.exponent
  high : d.exponent ≤ 400

variable {m : Nat} {q : Int}

theorem bounded_exact (hm : m < 10 ^ 16) (hlow : -1074 ≤ q) (hhigh : q ≤ 971) :
    Bounded (exact m q) := by
  rw [exact]
  split
  next => exact ⟨⟨16 + 971, by omega, mul_pow_lt hm (by decide) (by omega)⟩, by simp, by simp⟩
  next =>
    exact ⟨⟨16 + 1074, by omega, mul_pow_lt hm (by decide) (by omega)⟩, by simp; omega,
      by simp; omega⟩

theorem mem_neighbours {grid : Int} {d : Scientific} (h : d ∈ neighbours m q grid) :
    d.exponent = grid ∧ d.digits ≤ m * 2 ^ q.toNat * 10 ^ (-grid).toNat + 1 := by
  have hbelow : m * 2 ^ q.toNat * 10 ^ (-grid).toNat / (2 ^ (-q).toNat * 10 ^ grid.toNat) ≤
      m * 2 ^ q.toNat * 10 ^ (-grid).toNat := Nat.div_le_self _ _
  rw [neighbours] at h
  simp only [Nat.pow_eq] at h
  split at h
  all_goals
    rcases List.mem_pair.1 h with rfl | rfl
    · exact ⟨rfl, by dsimp only; omega⟩
    · exact ⟨rfl, by dsimp only; omega⟩

theorem bounded_neighbours (hm : m < 10 ^ 16) (hhigh : q ≤ 971) {grid : Int} (hgrid : -400 ≤ grid)
    (hgrid' : grid ≤ 400) {d : Scientific} (h : d ∈ neighbours m q grid) : Bounded d := by
  obtain ⟨rfl, hdigits⟩ := mem_neighbours h
  obtain ⟨k, hk, hless⟩ : ∃ k ≤ 1400, m * 2 ^ q.toNat * 10 ^ (-d.exponent).toNat < 10 ^ k :=
    ⟨16 + 971 + 400, by omega,
      mul_pow_lt (mul_pow_lt hm (by decide) (by omega)) (Nat.le_refl _) (by omega)⟩
  refine ⟨⟨k + 1, by omega, ?_⟩, by omega, hgrid'⟩
  rw [pow_succ]
  omega

theorem exists_decimal_eq (hm : m < 10 ^ 16) (hlow : -1074 ≤ q) (hhigh : q ≤ 971) :
    ∃ d, Bounded d ∧ decimal m q = stripZeros d.digits.log2 d := by
  have hlog : m.log2 ≤ 54 := log2_le (hm.trans (by decide))
  obtain ⟨hk, hk'⟩ := magnitude_bounds hlog hlow hhigh
  refine ⟨_, ?_, rfl⟩
  rcases htries : (List.range 17).findSome? (fun (n : Nat) =>
    (neighbours m q (magnitude m q - (n + 1 : Nat))).find? (readsBack m q)) with _ | d
  · exact bounded_exact hm hlow hhigh
  · obtain ⟨n, hn, hfind⟩ := List.exists_of_findSome?_eq_some htries
    have hn := List.mem_range.1 hn
    exact bounded_neighbours hm hhigh (by omega) (by omega) (List.mem_of_find?_eq_some hfind)

theorem bounded_decimal (hm : m < 10 ^ 16) (hlow : -1074 ≤ q) (hhigh : q ≤ 971) :
    digitCount (decimal m q).digits ≤ 1501 ∧ -1100 ≤ (decimal m q).exponent ∧
      (decimal m q).exponent ≤ 10000 := by
  obtain ⟨d, ⟨⟨k, hk, hdigits⟩, hlow, hhigh⟩, heq⟩ := exists_decimal_eq hm hlow hhigh
  obtain ⟨hless, hkept, hmore⟩ := stripZeros_le d.digits.log2 d
  have hsixteen : d.digits < 2 ^ (4 * k) := by
    rw [pow_mul]
    exact hdigits.trans_le (Nat.pow_le_pow_left (by decide) k)
  have hlog := log2_le hsixteen
  have hcount : digitCount (stripZeros d.digits.log2 d).digits ≤ k + 1 :=
    (digitCount_le_iff (Nat.succ_pos k)).2
      ((hless.trans_lt hdigits).trans_le (Nat.pow_le_pow_right (by decide) (Nat.le_succ k)))
  rw [heq]
  exact ⟨by omega, by omega, by omega⟩

end Shortest

theorem Decimal.inRange_of {d : Decimal} (hlow : -1999999999999999997 ≤ d.exponent)
    (hhigh : d.exponent + digitCount d.coefficient ≤ 999999999999999999) : d.inRange = true := by
  have hpos := digitCount_pos d.coefficient
  rw [inRange, adjusted, Bool.and_eq_true, decide_eq_true_eq, decide_eq_true_eq]
  split <;> omega

theorem digitCount_mul_pow (n k : Nat) : digitCount (n * 10 ^ k) ≤ digitCount n + k := by
  have hpos := digitCount_pos n
  rw [digitCount_le_iff (by omega), pow_add]
  exact Nat.mul_lt_mul_of_pos_right ((digitCount_le_iff hpos).1 (Nat.le_refl _))
    (Nat.pow_pos (by decide))

namespace Double

theorem mantissa_lt (rank : Nat) : mantissa rank < 10 ^ 16 := by
  have hbinade : binade = 4503599627370496 := rfl
  have hmod := Nat.mod_lt rank (show 0 < binade by omega)
  rw [mantissa]
  split <;> omega

theorem scale_bounds (rank : Fin ranks) : -1074 ≤ scale rank ∧ scale rank ≤ 971 := by
  have hbinade : 0 < binade := by decide
  have hrank : rank.val / binade < 2047 := (Nat.div_lt_iff_lt_mul hbinade).2 rank.isLt
  rw [scale]
  omega

theorem inRange_of_decimal? {x : Double} {d : Decimal} (h : x.decimal? = some d) :
    d.inRange = true := by
  cases x with
  | nan | infinity negative => cases h
  | finite negative rank =>
      rw [decimal?] at h
      split at h
      · obtain rfl := Option.some.inj h
        have hone : digitCount 0 = 1 := by decide
        exact Decimal.inRange_of (by simp) (by simp [hone])
      · obtain rfl := Option.some.inj h
        obtain ⟨hlow, hhigh⟩ := scale_bounds rank
        obtain ⟨hdigits, hlow, hhigh⟩ := Shortest.bounded_decimal (mantissa_lt rank) hlow hhigh
        rw [Scientific.decimal]
        split
        next hplain =>
          refine Decimal.inRange_of (by simp) ?_
          have hmul := digitCount_mul_pow
            (Shortest.decimal (mantissa rank) (scale rank)).digits
            ((Shortest.decimal (mantissa rank) (scale rank)).exponent.toNat + 1)
          dsimp only
          omega
        next => exact Decimal.inRange_of (by dsimp only; omega) (by dsimp only; omega)

end Double

namespace Spelling

theorem bare_of_chars {text : String} {p : Spelling} (h : p.chars = text.toList) :
    bare text = p.chars := by
  rw [← bare_ofList, h, String.ofList_toList]

theorem read?_double (x : Double) (d : Decimal) :
    Quantity.read? x.text = some (.finite d) ↔ x.decimal? = some d := by
  constructor
  · intro h
    cases x with
    | nan =>
        have hnan : Quantity.read? Double.nan.text = some .nan := by decide +kernel
        cases hnan.symm.trans h
    | infinity negative =>
        have hinfinity : ∀ negative, Quantity.read? (Double.infinity negative).text =
            some (.infinite negative) := by decide +kernel
        cases (hinfinity negative).symm.trans h
    | finite negative rank =>
        obtain ⟨-, p, hbare, rfl⟩ := exists_of_read? h
        obtain ⟨d, hd⟩ := exists_decimal_finite negative rank
        obtain ⟨q, hq, rfl⟩ := exists_double hd
        rw [hd, decimal_eq_of_chars ((bare_of_chars hq).symm.trans hbare)]
  · intro h
    obtain ⟨p, hchars, rfl⟩ := exists_double h
    rw [read?_of_bare (bare_of_chars hchars), if_pos (Double.inRange_of_decimal? h)]

theorem digitCount_le_digitLimit {n : Int} (h : tooLong n = false) :
    digitCount n.natAbs ≤ digitLimit := by
  have hle {k : Nat} (hk : 0 < k) (hless : n.natAbs < Nat.pow 10 k) : digitCount n.natAbs ≤ k :=
    (digitCount_le_iff hk).2 hless
  rw [tooLong, decide_eq_false_iff_not, Nat.not_le] at h
  exact hle (by decide) h

theorem inRange_ofInt {n : Int} (h : tooLong n = false) : (Decimal.ofInt n).inRange = true := by
  have hcount := digitCount_le_digitLimit h
  rw [digitLimit] at hcount
  exact Decimal.inRange_of (by simp [Decimal.ofInt]) (by simp [Decimal.ofInt]; omega)

theorem read?_decimalText {n : Int} (h : tooLong n = false) :
    Quantity.read? (decimalText n) = some (.finite (.ofInt n)) := by
  rw [read?_of_bare (bare_of_chars (chars_ofInt n)), decimal_ofInt, if_pos (inRange_ofInt h)]

end Spelling

end Referral
