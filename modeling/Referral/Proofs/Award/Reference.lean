import Mathlib.Data.List.Nodup
import Referral.Award
import Referral.Proofs.Rule.Store

namespace Referral

namespace Text

theorem symbols_ofSymbols (s : List Symbol) : (ofSymbols s).symbols = s := by
  have hgather : ∀ s : List Symbol, (gather s).1.map Symbol.char ++
      (gather s).2.flatMap (fun row => Symbol.lone row.1 :: row.2.toList.map .char) = s := by
    intro s
    induction s with
    | nil => rfl
    | cons symbol s ih =>
        cases symbol with
        | char c => rw [gather]; exact congrArg (Symbol.char c :: ·) ih
        | lone u =>
            rw [gather, List.map_nil, List.nil_append, List.flatMap_cons, String.toList_ofList]
            exact congrArg (Symbol.lone u :: ·) ih
  rw [ofSymbols, symbols, String.toList_ofList]
  exact hgather s

theorem symbols_append (a b : Text) : (a ++ b).symbols = a.symbols ++ b.symbols :=
  symbols_ofSymbols _

theorem symbols_injective : Function.Injective symbols := by
  intro a b h
  rw [← ofSymbols_symbols a, h, ofSymbols_symbols]

theorem symbols_string (s : String) : (s : Text).symbols = s.toList.map .char :=
  List.append_nil _

end Text

theorem decimalDigits_injective : Function.Injective decimalDigits := by
  intro m n h
  have hdigits := congrArg String.toList h
  rw [decimalDigits, decimalDigits, String.toList_ofList, String.toList_ofList] at hdigits
  rw [← Nat.ofDigitChars_ten_toDigits (n := m), hdigits, Nat.ofDigitChars_ten_toDigits]

theorem colon_notMem_decimalDigits (n : Nat) :
    Symbol.char ':' ∉ (decimalDigits n : Text).symbols := by
  rw [Text.symbols_string, decimalDigits, String.toList_ofList, List.mem_map]
  rintro ⟨c, hc, heq⟩
  cases heq
  exact absurd (Nat.isDigit_of_mem_toDigits (by decide) (by decide) hc) (by decide)

theorem append_cons_inj {mark : Symbol} {xs ys as bs : List Symbol} (hxs : mark ∉ xs)
    (hys : mark ∉ ys) (h : xs ++ mark :: as = ys ++ mark :: bs) : xs = ys ∧ as = bs := by
  induction xs generalizing ys with
  | nil =>
      cases ys with
      | nil => exact ⟨rfl, (List.cons.inj h).2⟩
      | cons y ys => exact absurd ((List.cons.inj h).1 ▸ List.mem_cons_self) hys
  | cons x xs ih =>
      cases ys with
      | nil => exact absurd ((List.cons.inj h).1 ▸ List.mem_cons_self) hxs
      | cons y ys =>
          obtain ⟨rfl, hrest⟩ := List.cons.inj h
          obtain ⟨rfl, has⟩ := ih (fun hmem => hxs (List.mem_cons_of_mem _ hmem))
            (fun hmem => hys (List.mem_cons_of_mem _ hmem)) hrest
          exact ⟨rfl, has⟩

def Action.givesReward (a : Action) : Bool :=
  match a.kind with
  | .reward => true
  | _ => false

/-- The references of the rewards that a rule gives in a context: one for each of its reward
actions, by their places among all of its actions. -/
def Rule.rewardReferences (evaluation : Text) (context : Members) (r : Rule) : List Text :=
  if r.holds context then
    (r.actions.zipIdx.filter (·.1.givesReward)).map fun row =>
      Award.reference evaluation (r.id.plain?.getD "") row.2
  else []

def rewardReferences (evaluation : Text) (context : Members) (rules : List Rule) : List Text :=
  rules.flatMap (Rule.rewardReferences evaluation context)

namespace Award

open Ledger (ActionReward)

theorem symbols_reference (evaluation rule : Text) (index : Nat) :
    (reference evaluation rule index).symbols = evaluation.symbols ++ .char ':' ::
      (rule.symbols ++ .char ':' :: (decimalDigits index : Text).symbols) := by
  have hcolon : (":" : Text).symbols = [.char ':'] := by decide +kernel
  simp only [reference, Text.symbols_append, hcolon, List.append_assoc, List.cons_append,
    List.nil_append]

theorem reference_inj {evaluation rule rule' : Text} {index index' : Nat}
    (h : reference evaluation rule index = reference evaluation rule' index') :
    rule = rule' ∧ index = index' := by
  have hsymbols := congrArg Text.symbols h
  rw [symbols_reference, symbols_reference, List.append_right_inj, List.cons_inj_right] at hsymbols
  -- Read from its end, a reference begins with the digits of the place.
  have hreversed := congrArg List.reverse hsymbols
  simp only [List.reverse_append, List.reverse_cons, List.append_assoc, List.singleton_append]
    at hreversed
  obtain ⟨hdigits, hrules⟩ := append_cons_inj
    (fun hmem => colon_notMem_decimalDigits _ (List.mem_reverse.1 hmem))
    (fun hmem => colon_notMem_decimalDigits _ (List.mem_reverse.1 hmem)) hreversed
  refine ⟨Text.symbols_injective (List.reverse_injective hrules), decimalDigits_injective ?_⟩
  have htexts := Text.symbols_injective (List.reverse_injective hdigits)
  exact (Text.mk.inj htexts).1

theorem Rule.exists_of_mem_rewardReferences {evaluation reference : Text} {context : Members}
    {r : Rule} (h : reference ∈ r.rewardReferences evaluation context) :
    ∃ index, reference = Award.reference evaluation (r.id.plain?.getD "") index := by
  rw [Rule.rewardReferences] at h
  split at h
  · obtain ⟨row, -, rfl⟩ := List.mem_map.1 h
    exact ⟨row.2, rfl⟩
  · exact absurd h List.not_mem_nil

theorem Rule.nodup_rewardReferences (evaluation : Text) (context : Members) (r : Rule) :
    (r.rewardReferences evaluation context).Nodup := by
  rw [Rule.rewardReferences]
  split
  · have hsplit : (fun row : Action × Nat =>
        reference evaluation (r.id.plain?.getD "") row.2) =
          reference evaluation (r.id.plain?.getD "") ∘ Prod.snd := rfl
    have hplaces : ((r.actions.zipIdx.filter (·.1.givesReward)).map Prod.snd).Nodup := by
      refine List.Nodup.sublist (List.filter_sublist.map _) ?_
      rw [List.zipIdx_map_snd]
      exact List.nodup_range'
    rw [hsplit, ← List.map_map]
    exact hplaces.map fun index index' h => (reference_inj h).2
  · exact List.nodup_nil

theorem nodup_rewardReferences (evaluation : Text) (context : Members) {rules : List Rule}
    (hids : TextIds rules) (hnodup : (rules.map (·.id)).Nodup) :
    (rewardReferences evaluation context rules).Nodup := by
  refine List.pairwise_flatMap.2 ⟨fun r _ => Rule.nodup_rewardReferences evaluation context r, ?_⟩
  refine (List.pairwise_map.1 hnodup).imp_of_mem fun hr hr' hne x hx y hy heq => hne ?_
  obtain ⟨t, hid⟩ := hids _ hr
  obtain ⟨t', hid'⟩ := hids _ hr'
  obtain ⟨index, rfl⟩ := Rule.exists_of_mem_rewardReferences hx
  obtain ⟨index', rfl⟩ := Rule.exists_of_mem_rewardReferences hy
  have hsame := (reference_inj heq).1
  rw [hid, hid'] at hsame ⊢
  exact congrArg Value.text hsame

theorem ofOutcome?_execute (userId evaluation : String) {m : Match} {t : Text}
    (hid : m.ruleId = .text t) (a : Action) (index : Nat) :
    if a.givesReward then
      ∃ award, ofOutcome? userId evaluation m a.execute index = some (.ok award) ∧
        award.reference = .text (reference evaluation t index) ∧ award.userId = .text userId
    else ofOutcome? userId evaluation m a.execute index = none := by
  rw [Action.givesReward, Action.execute]
  cases a.kind with
  | reward =>
      rw [ofOutcome?, hid]
      exact ⟨_, rfl, rfl, rfl⟩
  | notification => rfl
  | other given => rfl

theorem filterMap_ofOutcome? (userId evaluation : String) {m : Match} {t : Text}
    (hid : m.ruleId = .text t) (rows : List (Action × Nat)) :
    ∃ actions : List ActionReward,
      (rows.filterMap fun row => ofOutcome? userId evaluation m row.1.execute row.2) =
        actions.map .ok ∧
      actions.map (·.reference) = ((rows.filter (·.1.givesReward)).map fun row =>
        reference evaluation t row.2).map .text ∧
      ∀ a ∈ actions, a.userId = .text userId := by
  induction rows with
  | nil => exact ⟨[], rfl, rfl, fun _ ha => absurd ha List.not_mem_nil⟩
  | cons row rows ih =>
      obtain ⟨actions, hactions, hreferences, husers⟩ := ih
      have houtcome := ofOutcome?_execute userId evaluation hid row.1 row.2
      rw [List.filterMap_cons, List.filter_cons]
      by_cases hgives : row.1.givesReward = true
      · rw [if_pos hgives] at houtcome ⊢
        obtain ⟨award, haward, hreference, huser⟩ := houtcome
        refine ⟨award :: actions, ?_, ?_, ?_⟩
        · rw [haward, hactions, List.map_cons]
        · rw [List.map_cons, hreference, hreferences]
          rfl
        · exact List.forall_mem_cons.2 ⟨huser, husers⟩
      · rw [if_neg hgives] at houtcome ⊢
        rw [houtcome]
        exact ⟨actions, hactions, hreferences, husers⟩

theorem ofMatch_rule (userId evaluation : String) (context : Members) {r : Rule} {t : Text}
    (hid : r.id = .text t) :
    ∃ actions : List ActionReward,
      ofMatch userId evaluation ⟨r.id, r.name, r.execute context⟩ = actions.map .ok ∧
      actions.map (·.reference) = (r.rewardReferences evaluation context).map .text ∧
      ∀ a ∈ actions, a.userId = .text userId := by
  rw [ofMatch, Rule.execute, Rule.rewardReferences, hid]
  by_cases hholds : r.holds context = true
  · rw [if_pos hholds, if_pos hholds, List.zipIdx_map, List.filterMap_map]
    exact filterMap_ofOutcome? userId evaluation (m := ⟨.text t, r.name, _⟩) rfl r.actions.zipIdx
  · rw [if_neg hholds, if_neg hholds]
    exact ⟨[], rfl, rfl, fun _ ha => absurd ha List.not_mem_nil⟩

theorem all_cons (userId evaluation : String) (context : Members) (r : Rule) (rules : List Rule) :
    all userId evaluation ((r :: rules).filterMap (Rule.match? context)) =
      ofMatch userId evaluation ⟨r.id, r.name, r.execute context⟩ ++
        all userId evaluation (rules.filterMap (Rule.match? context)) := by
  rw [List.filterMap_cons, Rule.match?]
  cases houtcomes : r.execute context with
  | nil => rfl
  | cons outcome outcomes => rfl

theorem all_rules (userId evaluation : String) (context : Members) {rules : List Rule}
    (hids : TextIds rules) :
    ∃ actions : List ActionReward,
      all userId evaluation (rules.filterMap (Rule.match? context)) = actions.map .ok ∧
      actions.map (·.reference) = (rewardReferences evaluation context rules).map .text ∧
      ∀ a ∈ actions, a.userId = .text userId := by
  induction rules with
  | nil => exact ⟨[], rfl, rfl, fun _ ha => absurd ha List.not_mem_nil⟩
  | cons r rules ih =>
      obtain ⟨t, hid⟩ := hids r List.mem_cons_self
      obtain ⟨first, hfirst, hreferences, husers⟩ := ofMatch_rule userId evaluation context hid
      obtain ⟨later, hlater, hreferences', husers'⟩ :=
        ih fun r' hr' => hids r' (List.mem_cons_of_mem _ hr')
      refine ⟨first ++ later, ?_, ?_, ?_⟩
      · rw [all_cons, hfirst, hlater, List.map_append]
      · rw [List.map_append, hreferences, hreferences', ← List.map_append]
        rfl
      · intro a ha
        exact (List.mem_append.1 ha).elim (husers a) (husers' a)

end Award

end Referral
