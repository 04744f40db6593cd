import Referral.Proofs.Number.Whole
import Referral.Proofs.Rule.Authoring
import Referral.Proofs.Rule.Leaf

namespace Referral

theorem decimalText_inj {m n : Int} : decimalText m = decimalText n ↔ m = n := by
  refine ⟨fun h => ?_, congrArg decimalText⟩
  have hchars : (Spelling.ofInt m).chars = (Spelling.ofInt n).chars := by
    rw [Spelling.chars_ofInt, Spelling.chars_ofInt, h]
  have hdecimal := Spelling.decimal_eq_of_chars hchars
  rw [Spelling.decimal_ofInt, Spelling.decimal_ofInt, Decimal.ofInt, Decimal.ofInt,
    Decimal.mk.injEq, decide_eq_decide] at hdecimal
  omega

theorem Text.ofString_inj {s t : String} : (s : Text) = t ↔ s = t := by
  rw [Text.mk.injEq, and_iff_left rfl]

namespace Double

theorem looseText_eq_decimalText_iff (negative : Bool) (rank : Fin ranks) (n : Int) :
    (finite negative rank).integer?.elim (finite negative rank).text decimalText = decimalText n ↔
      (finite negative rank).value? = some (n : ℚ) := by
  rw [← integer?_eq_some_iff]
  cases (finite negative rank).integer? with
  | none => exact iff_of_false (text_ne_decimalText negative rank n) nofun
  | some m => rw [Option.elim_some, decimalText_inj, Option.some.injEq]

end Double

namespace Value

theorem loose?_int {n : Int} (h : digitCount n.natAbs ≤ digitLimit) :
    (int n).loose? = some (decimalText n : Text) := by
  have hplain : (int n).loose? = (decimalText? n).map fun s => (s : Text) := rfl
  rw [hplain, decimalText?, (tooLong_eq_false_iff n).2 h]
  rfl

/-- What may stand for a value: itself, or its loose text, as in the leaves that are created. -/
inductive Shows (v : Value) : Value → Prop
  | itself : Shows v v
  | text {t : Text} (loose : v.loose? = some t) : Shows v (.text t)

theorem Shows.loose?_eq {v w : Value} (h : v.Shows w) : w.loose? = v.loose? := by
  cases h with
  | itself => rfl
  | text loose => rw [loose?_text, loose]

theorem shows_of_condition {source : Source} {path : List Schema.Step} {r : ConditionRequest}
    {s s' : Supply} {field operand id kind : Value} {op : Operator}
    (h : Authoring.condition source path r s = (.ok (.leaf field op operand id kind), s')) :
    r.operand.Shows operand := by
  refine (?_ : Authoring.Gives (Authoring.condition source path r) fun c =>
    ∀ field op operand id kind, c = .leaf field op operand id kind → r.operand.Shows operand)
      s _ s' h _ _ _ _ _ rfl
  obtain ⟨id, kind, field, operatorName, operand, children⟩ := r
  rw [Authoring.condition]
  split
  · exact Authoring.gives_refuse _ _ _
  dsimp only
  split
  · exact Authoring.gives_refuse _ _ _
  refine (Authoring.gives_any _).bind fun id _ => ?_
  split
  · split
    · exact Authoring.gives_refuse _ _ _
    · refine (Authoring.gives_any _).bind fun cs _ => Authoring.gives_pure ?_
      rintro _ _ _ _ _ ⟨⟩
  · split
    · exact Authoring.gives_refuse _ _ _
    split
    · refine Authoring.gives_pure ?_
      rintro _ _ _ _ _ ⟨⟩
      exact .itself
    · split
      · exact Authoring.gives_refuse _ _ _
      next loose =>
        refine Authoring.gives_pure ?_
        rintro _ _ _ _ _ ⟨⟩
        exact .text loose

/-- Wherever one of two values is a leaf's operand and the other is found under its field, they or
what may stand for them, the leaf for equality holds just if `p` does, and that for inequality just
if it does not. -/
def EqualJustIf (v w : Value) (p : Prop) : Prop :=
  ∀ found operand, v.Shows found ∧ w.Shows operand ∨ w.Shows found ∧ v.Shows operand →
    ∀ context name, lookup? context name = some found →
      ((Leaf.mk (.text name) .equals operand).holds context = true ↔ p) ∧
        ((Leaf.mk (.text name) .notEquals operand).holds context = true ↔ ¬ p)

theorem holds_iff_relates {context : Members} {name : Text} {found operand : Value}
    (hfound : lookup? context name = some found) {t u : Text} (ht : found.loose? = some t)
    (hu : operand.loose? = some u) (op : Operator) :
    (Leaf.mk (.text name) op operand).holds context = true ↔ op.relates t u = true := by
  rw [Leaf.holds_iff]
  constructor
  · rintro ⟨_, _, _, _, ⟨⟩, hfound', ht', hu', hrelates⟩
    obtain rfl := Option.some.inj (hfound.symm.trans hfound')
    obtain rfl := Option.some.inj (ht.symm.trans ht')
    obtain rfl := Option.some.inj (hu.symm.trans hu')
    exact hrelates
  · exact fun hrelates => ⟨_, _, _, _, rfl, hfound, ht, hu, hrelates⟩

theorem equalJustIf_of_loose? {v w : Value} {s t : String} {p : Prop}
    (hv : v.loose? = some (s : Text)) (hw : w.loose? = some (t : Text)) (hp : s = t ↔ p) :
    v.EqualJustIf w p := by
  rintro found operand hshows context name hfound
  obtain ⟨a, b, ha, hb, hab⟩ : ∃ a b : String, found.loose? = some (a : Text) ∧
      operand.loose? = some (b : Text) ∧ (a = b ↔ p) := by
    rcases hshows with ⟨hleft, hright⟩ | ⟨hleft, hright⟩
    · exact ⟨s, t, hleft.loose?_eq.trans hv, hright.loose?_eq.trans hw, hp⟩
    · exact ⟨t, s, hleft.loose?_eq.trans hw, hright.loose?_eq.trans hv, eq_comm.trans hp⟩
  rw [holds_iff_relates hfound ha hb, holds_iff_relates hfound ha hb, Operator.relates,
    Operator.relates, decide_eq_true_eq, decide_eq_true_eq, Ne, Text.ofString_inj, hab]
  exact ⟨Iff.rfl, Iff.rfl⟩

end Value

/-- Equality of numbers is exact: between integers that can be written, between one and a double,
and between doubles without a fraction, whatever their size and whichever of the two is the operand.
It is the same where a number is compared through its text, as it is in authored leaves. -/
theorem numbers_equal_exactly :
    (∀ m n : Int, digitCount m.natAbs ≤ digitLimit → digitCount n.natAbs ≤ digitLimit →
      (Value.int m).EqualJustIf (.int n) (m = n)) ∧
    (∀ (n : Int) (x : Double), digitCount n.natAbs ≤ digitLimit → x.isFinite = true →
      (Value.int n).EqualJustIf (.double x) (x.value? = some (n : ℚ))) ∧
    (∀ (x y : Double) (a b : Int), x.value? = some (a : ℚ) → y.value? = some (b : ℚ) →
      (Value.double x).EqualJustIf (.double y) (x.value? = y.value?)) ∧
    ∀ (source : Source) (path : List Schema.Step) (r : ConditionRequest) (s s' : Supply)
      (field operand id kind : Value) (op : Operator),
      Authoring.condition source path r s = (.ok (.leaf field op operand id kind), s') →
        r.operand.Shows operand := by
  refine ⟨fun m n hm hn => ?_, fun n x hn hx => ?_, fun x y a b hx hy => ?_,
    fun source path r s s' field operand id kind op h => Value.shows_of_condition h⟩
  · exact Value.equalJustIf_of_loose? (Value.loose?_int hm) (Value.loose?_int hn) decimalText_inj
  · cases x with
    | nan | infinity negative => cases hx
    | finite negative rank =>
        exact Value.equalJustIf_of_loose? (Value.loose?_int hn) (Value.loose?_finite negative rank)
          (eq_comm.trans (Double.looseText_eq_decimalText_iff negative rank n))
  · cases x with
    | nan | infinity negative => cases hx
    | finite negative rank =>
        cases y with
        | nan | infinity negative' => cases hy
        | finite negative' rank' =>
            refine Value.equalJustIf_of_loose? (Value.loose?_finite negative rank)
              (Value.loose?_finite negative' rank') ?_
            rw [(Double.integer?_eq_some_iff _ b).2 hy, Option.elim_some, hy]
            exact Double.looseText_eq_decimalText_iff negative rank b

/-- An integer that a double is, its successor, a double with a fraction, the two zeros, and the
operand of an authored leaf. -/
theorem numbers_equal_exactly_large :
    let large := Double.ofDecimal false 1 22
    let half := Double.ofDecimal false 5 (-1)
    let digits : Text := "10000000000000000000000"
    let context : Members := [("points", .int (10 ^ 22)), ("rate", .double half),
      ("balance", .double (.ofRank true 0))]
    digitCount (10 ^ 22 : Int).natAbs ≤ digitLimit ∧ large.isFinite = true ∧
      (Value.double large).Shows (.text digits) ∧ (Value.int 5).Shows (.text "5") ∧
      (Leaf.mk (.text "points") .equals (.double large)).holds context = true ∧
      (Leaf.mk (.text "points") .equals (.text digits)).holds context = true ∧
      (Leaf.mk (.text "points") .notEquals (.int (10 ^ 22 + 1))).holds context = true ∧
      (Leaf.mk (.text "rate") .notEquals (.int (10 ^ 22))).holds context = true ∧
      (Leaf.mk (.text "balance") .equals (.double .zero)).holds context = true := by
  intro large half digits context
  obtain ⟨hints, hmixed, hdoubles, hauthored⟩ := numbers_equal_exactly
  have hcount : digitCount (10 ^ 22 : Int).natAbs ≤ digitLimit := by decide +kernel
  have hlarge : large.value? = some ((10 ^ 22 : Int) : ℚ) :=
    (Double.integer?_eq_some_iff _ _).1 (by decide +kernel)
  have hhalf : half.value? ≠ some ((10 ^ 22 : Int) : ℚ) :=
    fun h => absurd ((Double.integer?_eq_some_iff _ _).2 h) (by decide +kernel)
  have hzero : Double.zero.value? = some ((0 : Int) : ℚ) :=
    (Double.integer?_eq_some_iff _ _).1 (by decide +kernel)
  have hnegative : (Double.ofRank true 0).value? = some ((0 : Int) : ℚ) :=
    (Double.integer?_eq_some_iff _ _).1 (by decide +kernel)
  have hdigits : (Value.double large).Shows (.text digits) := .text (by decide +kernel)
  have hloose : (Value.int 5).loose? = some ("5" : Text) := by decide +kernel
  have hfive : (Value.int 5).Shows (.text "5") :=
    hauthored (.counting ⟨⟨2024, 1, 1, by decide⟩, .midnight, none⟩ 1000000) []
      ⟨none, none, some "points", some "equals", .int 5, []⟩ .fresh _ _ _ _ _ _
      (by rw [Authoring.condition]; simp only [hloose]; rfl)
  refine ⟨hcount, by decide +kernel, hdigits, hfive, ?_, ?_, ?_, ?_, ?_⟩
  · exact (hmixed _ large hcount (by decide +kernel) _ _ (.inl ⟨.itself, .itself⟩) context _
      rfl).1.2 hlarge
  · exact (hmixed _ large hcount (by decide +kernel) _ _ (.inl ⟨.itself, hdigits⟩) context _
      rfl).1.2 hlarge
  · exact (hints _ _ hcount (by decide +kernel) _ _ (.inl ⟨.itself, .itself⟩) context _
      rfl).2.2 (by decide)
  · exact (hmixed _ half hcount (by decide +kernel) _ _ (.inr ⟨.itself, .itself⟩) context _
      rfl).2.2 hhalf
  · exact (hdoubles _ _ 0 0 hnegative hzero _ _ (.inl ⟨.itself, .itself⟩) context _
      rfl).1.2 (hnegative.trans hzero.symm)

end Referral
