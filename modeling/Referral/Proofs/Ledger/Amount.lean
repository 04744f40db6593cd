import Referral.Proofs.Ledger.Limits
import Referral.Proofs.Ledger.Race
import Referral.Proofs.Number.Shown

namespace Referral

/-- The decimal that a value writes, digit for digit. -/
inductive Writes : Value → Decimal → Prop
  | int (n : Int) : Writes (.int n) (.ofInt n)
  | double {x : Double} {p : Spelling} (shown : p.chars = x.text.toList) :
      Writes (.double x) p.decimal
  | text {s : String} {p : Spelling} (spelled : Spelling.bare s = p.chars) :
      Writes (.text s) p.decimal

theorem Writes.unique {v : Value} {d e : Decimal} (h : Writes v d) (h' : Writes v e) : d = e := by
  cases h with
  | int n =>
      cases h'
      rfl
  | double shown =>
      cases h' with
      | double shown' => exact Spelling.decimal_eq_of_chars (shown.trans shown'.symm)
  | text spelled =>
      cases h' with
      | text spelled' => exact Spelling.decimal_eq_of_chars (spelled.symm.trans spelled')

theorem writes_double_iff (x : Double) (d : Decimal) :
    Writes (.double x) d ↔ x.decimal? = some d := by
  rw [← Spelling.chars_eq_text_iff]
  constructor
  · intro h
    cases h with
    | double shown => exact ⟨_, shown, rfl⟩
  · rintro ⟨p, shown, rfl⟩
    exact .double shown

theorem exists_writes_double {x : Double} (h : x.isFinite = true) :
    ∃ d, Writes (.double x) d ∧ d.inRange = true := by
  cases x with
  | nan | infinity negative => cases h
  | finite negative rank =>
      obtain ⟨d, hd⟩ := Spelling.exists_decimal_finite negative rank
      exact ⟨d, (writes_double_iff _ d).2 hd, Double.inRange_of_decimal? hd⟩

theorem Text.string?_eq_some_iff (t : Text) (s : String) : t.string? = some s ↔ t = s := by
  obtain ⟨head, tail⟩ := t
  cases tail with
  | nil => simp [string?]
  | cons row tail => simp [string?]

namespace Schema

theorem decimal_double_iff (x : Double) (d : Decimal) :
    decimal (.double x) = .ok d ↔ Quantity.read? x.text = some (.finite d) := by
  rw [decimal]
  rcases Quantity.read? x.text with _ | _ | _ | _ <;> simp [Checked.fail]

theorem decimal_text_iff (t : Text) (d : Decimal) :
    decimal (.text t) = .ok d ↔ ∃ s : String, t = s ∧ Quantity.read? s = some (.finite d) := by
  have hread : decimal (.text t) = .ok d ↔ t.string?.bind Quantity.read? = some (.finite d) := by
    rw [decimal]
    rcases t.string?.bind Quantity.read? with _ | _ | _ | _ <;> simp [Checked.fail]
  simp only [hread, Option.bind_eq_some_iff, Text.string?_eq_some_iff]

/-- A value is read as the decimal that it writes; the exponent that a text may reach has bounds. -/
theorem decimal_eq_ok_iff (v : Value) (d : Decimal) :
    decimal v = .ok d ↔ Writes v d ∧ ((∃ n, v = .int n) ∨ d.inRange = true) := by
  cases v with
  | null | bool b | list elems | map members =>
      exact iff_of_false nofun fun h => nomatch h.1
  | int n =>
      constructor
      · intro h
        cases h
        exact ⟨.int n, .inl ⟨n, rfl⟩⟩
      · rintro ⟨h, -⟩
        cases h
        rfl
  | double x =>
      rw [decimal_double_iff, Spelling.read?_double, writes_double_iff]
      exact ⟨fun h => ⟨h, .inr (Double.inRange_of_decimal? h)⟩, And.left⟩
  | text t =>
      simp only [decimal_text_iff, Spelling.read?_eq_finite_iff]
      constructor
      · rintro ⟨s, rfl, hrange, p, hbare, rfl⟩
        exact ⟨.text hbare, .inr hrange⟩
      · rintro ⟨h, ⟨n, hn⟩ | hrange⟩
        · cases hn
        · cases h with
          | text spelled => exact ⟨_, rfl, hrange, _, spelled, rfl⟩

theorem tooLong_of_withinLimits {n : Int} (h : (Decimal.ofInt n).WithinLimits) :
    tooLong n = false := by
  have hvalue : (Decimal.ofInt n).toRat = n := by
    rw [Decimal.ofInt, Decimal.toRat_natAbs, zpow_zero, mul_one]
  obtain ⟨hlow, hhigh, -⟩ := h
  rw [hvalue] at hlow hhigh
  have hlow : 0 ≤ n := by exact_mod_cast hlow
  have hhigh : n < 10 ^ 12 := by exact_mod_cast hhigh
  have hless {k : Nat} (hk : 12 ≤ k) : n.natAbs < Nat.pow 10 k :=
    Nat.lt_of_lt_of_le (by omega) (Nat.pow_le_pow_right (by decide) hk)
  rw [tooLong, decide_eq_false_iff_not, Nat.not_le]
  exact hless (by decide)

def amount (v : Value) : Checked Decimal := do rewardAmount (← decimal v)

theorem amount_eq_ok_iff (v : Value) (d : Decimal) :
    amount v = .ok d ↔ Writes v d ∧ d.inRange = true ∧ d.WithinLimits := by
  have hread : amount v = .ok d ↔ decimal v = .ok d ∧ rewardAmount d = .ok d := by
    rw [amount]
    cases hdecimal : decimal v with
    | error faults => exact iff_of_false nofun fun h => nomatch h.1
    | ok d' =>
        change rewardAmount d' = .ok d ↔ _
        constructor
        · intro h
          obtain ⟨rfl, -⟩ := rewardAmount_eq_ok h
          exact ⟨rfl, h⟩
        · rintro ⟨heq, h⟩
          cases heq
          exact h
  rw [hread, decimal_eq_ok_iff, rewardAmount_eq_ok_iff]
  constructor
  · rintro ⟨⟨hwrites, ⟨n, rfl⟩ | hrange⟩, hlimits⟩
    · cases hwrites
      exact ⟨.int n, Spelling.inRange_ofInt (tooLong_of_withinLimits hlimits), hlimits⟩
    · exact ⟨hwrites, hrange, hlimits⟩
  · rintro ⟨hwrites, hrange, hlimits⟩
    exact ⟨⟨hwrites, .inr hrange⟩, hlimits⟩

theorem filledText_text_iff (s t : String) : filledText (.text s) = .ok t ↔ s ≠ "" ∧ t = s := by
  constructor
  · intro h
    cases filledText_eq_ok h
    exact ⟨filledText_ne_empty h, rfl⟩
  · rintro ⟨hfilled, rfl⟩
    change (if t.isEmpty then Checked.fail .emptyText else .ok t) = .ok t
    rw [if_neg (by simpa using hfilled)]

theorem textOrNull_ofOption (t : Option String) : textOrNull (.ofOption t) = .ok t := by
  cases t <;> rfl

theorem mapping_map_iff (ms ms' : Members) :
    mapping (.map ms) = .ok ms' ↔ keyFaults ms = [] ∧ ms' = ms := by
  rw [mapping]
  split
  next hnone => simp [hnone, eq_comm]
  next hsome => exact iff_of_false nofun fun h => hsome h.1

end Schema

namespace RewardRequest

open Schema

/-- The document of a request, with its members under the names of the fields. -/
def asking (userId amount reference currency description metadata : Value) : Value :=
  .map [("user_id", userId), ("amount", amount), ("reference_id", reference),
    ("currency", currency), ("description", description), ("metadata", metadata)]

theorem ofValue_asking (userId amount reference currency description metadata : Value) :
    ofValue (asking userId amount reference currency description metadata) =
      (((((Checked.app (.ok RewardRequest.mk) ((filledText userId).within (.key "user_id"))).app
        ((Schema.amount amount).within (.key "amount"))).app
        ((filledText reference).within (.key "reference_id"))).app
        ((textOrNull currency).within (.key "currency"))).app
        ((textOrNull description).within (.key "description"))).app
        ((mapping metadata).within (.key "metadata")) := rfl

theorem ofValue_asking_eq_ok_iff {userId amount reference currency description metadata : Value}
    {r : RewardRequest} :
    ofValue (asking userId amount reference currency description metadata) = .ok r ↔
      filledText userId = .ok r.userId ∧ Schema.amount amount = .ok r.amount ∧
        filledText reference = .ok r.reference ∧ textOrNull currency = .ok r.currency ∧
        textOrNull description = .ok r.description ∧ mapping metadata = .ok r.metadata := by
  rw [ofValue_asking]
  constructor
  · intro h
    obtain ⟨_, _, h₅, hmetadata, rfl⟩ := Checked.app_eq_ok h
    obtain ⟨_, _, h₄, hdescription, rfl⟩ := Checked.app_eq_ok h₅
    obtain ⟨_, _, h₃, hcurrency, rfl⟩ := Checked.app_eq_ok h₄
    obtain ⟨_, _, h₂, hreference, rfl⟩ := Checked.app_eq_ok h₃
    obtain ⟨_, _, h₁, hamount, rfl⟩ := Checked.app_eq_ok h₂
    obtain ⟨_, _, h₀, huser, rfl⟩ := Checked.app_eq_ok h₁
    cases h₀
    exact ⟨Checked.within_eq_ok huser, Checked.within_eq_ok hamount,
      Checked.within_eq_ok hreference, Checked.within_eq_ok hcurrency,
      Checked.within_eq_ok hdescription, Checked.within_eq_ok hmetadata⟩
  · rintro ⟨huser, hamount, hreference, hcurrency, hdescription, hmetadata⟩
    rw [huser, hamount, hreference, hcurrency, hdescription, hmetadata]
    rfl

/-- The document of a request for an amount, with everything else as it should be but for empty
texts and broken keys. -/
def askingFor (userId reference : String) (currency description : Option String)
    (metadata : Members) (amount : Value) : Value :=
  asking (.text userId) amount (.text reference) (.ofOption currency) (.ofOption description)
    (.map metadata)

theorem ofValue_askingFor_eq_ok_iff (userId reference : String)
    (currency description : Option String)
    (metadata : Members) (amount : Value) (r : RewardRequest) :
    ofValue (askingFor userId reference currency description metadata amount) = .ok r ↔
      (userId ≠ "" ∧ reference ≠ "" ∧ keyFaults metadata = []) ∧
        ∃ d, (Writes amount d ∧ d.inRange = true ∧ d.WithinLimits) ∧
          r = ⟨userId, d, reference, currency, description, metadata⟩ := by
  obtain ⟨user, d, reference', currency', description', metadata'⟩ := r
  simp only [askingFor, ofValue_asking_eq_ok_iff, filledText_text_iff, amount_eq_ok_iff,
    textOrNull_ofOption, mapping_map_iff, Except.ok.injEq, mk.injEq]
  constructor
  · rintro ⟨⟨huser, rfl⟩, hd, ⟨hreference, rfl⟩, rfl, rfl, hkeys, rfl⟩
    exact ⟨⟨huser, hreference, hkeys⟩, d, hd, rfl, rfl, rfl, rfl, rfl, rfl⟩
  · rintro ⟨⟨huser, hreference, hkeys⟩, d', hd, rfl, rfl, rfl, rfl, rfl, rfl⟩
    exact ⟨⟨huser, rfl⟩, hd, ⟨hreference, rfl⟩, rfl, rfl, hkeys, rfl⟩

end RewardRequest

theorem Decimal.withinLimits_congr {d e : Decimal} (h : d.toRat = e.toRat) :
    d.WithinLimits ↔ e.WithinLimits := by
  rw [WithinLimits, WithinLimits, h]

theorem Writes.inRange_of {v : Value} {d : Decimal} (h : Writes v d)
    (htext : ∀ t, v = .text t → d.inRange = true) (hlimits : d.WithinLimits) :
    d.inRange = true := by
  cases h with
  | int n => exact Spelling.inRange_ofInt (Schema.tooLong_of_withinLimits hlimits)
  | double shown =>
      exact Double.inRange_of_decimal? ((Spelling.chars_eq_text_iff _ _).1 ⟨_, shown, rfl⟩)
  | text spelled => exact htext _ rfl

namespace Ledger

open RewardRequest

variable {s : LedgerState} (config : LedgerConfig)

theorem exists_created (hq : s.Quiet) (hs : s.store.Led) {request : RewardRequest}
    (hfree : s.store.findReference? request.reference = none) :
    ∃ e t, create config request s = (.ok (.created e), t) ∧ t.store.find? e.id = some e ∧
      e.amount = request.amount :=
  ⟨_, _, create_created config hq hfree (hs _ hfree) _ rfl, Store.find?_add _ _, rfl⟩

def fives : List (Value × Decimal) :=
  [(.text "5.00", ⟨false, 500, -2⟩), (.text " +.005_e3 ", ⟨false, 5, 0⟩)]

theorem writes_fives : ∀ row ∈ fives, Writes row.1 row.2 := by
  intro row hrow
  rcases List.mem_pair.1 hrow with rfl | rfl
  · exact .text (p := ⟨none, [5], some [0, 0], none, by decide⟩) (by decide +kernel)
  · exact .text
      (p := ⟨some false, [], some [0, 0, 5], some ⟨false, none, [3], by decide⟩, by decide⟩)
      (by decide +kernel)

end Ledger

end Referral
