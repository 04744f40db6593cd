import Referral.Ledger.Transition
import Referral.Proofs.Award.Reference
import Referral.Proofs.Supply

namespace Referral

theorem colon_notMem_symbols_id {source : Source} (hx : source.Hexadecimal) {kind : String}
    (hkind : ':' ∉ kind.toList) (n : Nat) :
    Symbol.char ':' ∉ (source.id kind n : Text).symbols := by
  rw [Text.symbols_string, List.mem_map]
  rintro ⟨c, hc, heq⟩
  cases heq
  exact hx.colon_notMem_id hkind n hc

namespace Award

structure Origin where
  evaluation : Text
  rule : Text
  index : Nat
  deriving DecidableEq

namespace Origin

def of (evaluation : Text) (r : Rule) (index : Nat) : Origin :=
  ⟨evaluation, r.id.plain?.getD "", index⟩

def reference (o : Origin) : Text := Award.reference o.evaluation o.rule o.index

theorem reference_inj {o o' : Origin} (h : Symbol.char ':' ∉ o.rule.symbols)
    (h' : Symbol.char ':' ∉ o'.rule.symbols) (heq : o.reference = o'.reference) : o = o' := by
  obtain ⟨evaluation, rule, index⟩ := o
  obtain ⟨evaluation', rule', index'⟩ := o'
  dsimp only at h h'
  -- Read from its end, a reference begins with the digits of the place, and then with the rule.
  have hreversed := congrArg (List.reverse ∘ Text.symbols) heq
  simp only [Function.comp_apply, reference, symbols_reference, List.reverse_append,
    List.reverse_cons, List.append_assoc, List.singleton_append] at hreversed
  obtain ⟨hdigits, hrest⟩ := append_cons_inj
    (fun hmem => colon_notMem_decimalDigits _ (List.mem_reverse.1 hmem))
    (fun hmem => colon_notMem_decimalDigits _ (List.mem_reverse.1 hmem)) hreversed
  obtain ⟨hrule, hevaluation⟩ := append_cons_inj (fun hmem => h (List.mem_reverse.1 hmem))
    (fun hmem => h' (List.mem_reverse.1 hmem)) hrest
  have hindex := Text.symbols_injective (List.reverse_injective hdigits)
  rw [Text.symbols_injective (List.reverse_injective hevaluation),
    Text.symbols_injective (List.reverse_injective hrule),
    decimalDigits_injective (Text.mk.inj hindex).1]

theorem reference_ne_reversal (o : Origin) {id : String} (hid : ':' ∉ id.toList) :
    o.reference ≠ (reversalReference id : Text) := by
  intro heq
  have hmem : Symbol.char ':' ∈ o.reference.symbols := by
    rw [reference, symbols_reference]
    exact List.mem_append_right _ List.mem_cons_self
  rw [heq, Text.symbols_string, reversalReference, String.toList_append, List.mem_map] at hmem
  obtain ⟨c, hc, hcolon⟩ := hmem
  cases hcolon
  rcases List.mem_append.1 hc with hc | hc
  · exact absurd hc (by decide)
  · exact hid hc

end Origin

def Rule.origins (evaluation : Text) (context : Members) (r : Rule) : List Origin :=
  if r.holds context then
    (r.actions.zipIdx.filter (·.1.givesReward)).map fun row => .of evaluation r row.2
  else []

def origins (evaluation : Text) (context : Members) (rules : List Rule) : List Origin :=
  rules.flatMap (Rule.origins evaluation context)

theorem references_origins (evaluation : Text) (context : Members) (rules : List Rule) :
    (origins evaluation context rules).map Origin.reference =
      rewardReferences evaluation context rules := by
  rw [origins, rewardReferences, List.map_flatMap]
  refine List.flatMap_congr fun r _ => ?_
  rw [Rule.origins, Rule.rewardReferences]
  split
  · rw [List.map_map]
    rfl
  · rfl

theorem exists_of_mem_origins {evaluation : Text} {context : Members} {rules : List Rule}
    {o : Origin} (h : o ∈ origins evaluation context rules) :
    ∃ r ∈ rules, ∃ index, o = .of evaluation r index := by
  obtain ⟨r, hr, ho⟩ := List.mem_flatMap.1 h
  rw [Rule.origins] at ho
  split at ho
  · obtain ⟨row, -, rfl⟩ := List.mem_map.1 ho
    exact ⟨r, hr, row.2, rfl⟩
  · exact absurd ho List.not_mem_nil

end Award

end Referral
