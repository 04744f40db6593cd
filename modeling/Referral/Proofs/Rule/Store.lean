import Mathlib.Data.List.Nodup
import Mathlib.Data.Option.Basic
import Referral.Proofs.Table
import Referral.Rule.Service

namespace Referral

def TextIds (rules : List Rule) : Prop := ∀ r ∈ rules, ∃ t : Text, r.id = .text t

namespace Engine

theorem add_text (e : Engine) {r : Rule} {t : Text} (hid : r.id = .text t) :
    e.add r = .ok (e.put (.text t) r) := by
  rw [add, hid]
  rfl

theorem rules_foldlM_add (e : Engine) {rules : List Rule} (hids : TextIds rules)
    (hnew : ∀ r ∈ rules, ∀ t, r.id = .text t → Key.text t ∉ e.keys)
    (hnodup : (rules.map (·.id)).Nodup) :
    ∃ e', rules.foldlM add e = .ok e' ∧ e'.rules = e.rules ++ rules := by
  induction rules generalizing e with
  | nil => exact ⟨e, rfl, (List.append_nil _).symm⟩
  | cons r rules ih =>
      obtain ⟨t, hid⟩ := hids r List.mem_cons_self
      have hfree := hnew r List.mem_cons_self t hid
      obtain ⟨hother, hnodup⟩ := List.nodup_cons.1 hnodup
      have hlater : ∀ r' ∈ rules, ∀ t', r'.id = .text t' →
          Key.text t' ∉ (e.put (.text t) r).keys := by
        intro r' hr' t' hid'
        rw [Table.keys_put, if_neg hfree, List.mem_append, List.mem_singleton, Key.text.injEq]
        rintro (hmem | rfl)
        · exact hnew r' (List.mem_cons_of_mem _ hr') t' hid' hmem
        · have hsame : r'.id = r.id := hid'.trans hid.symm
          exact hother (List.mem_map.2 ⟨r', hr', hsame⟩)
      obtain ⟨e', hfold, hrules⟩ := ih (e.put (.text t) r)
        (fun r' hr' => hids r' (List.mem_cons_of_mem _ hr')) hlater hnodup
      refine ⟨e', ?_, ?_⟩
      · rw [List.foldlM_cons, add_text e hid]
        exact hfold
      · rw [hrules, Engine.rules, Engine.rules, Table.values, Table.values,
          Table.rows_put_of_notMem hfree, List.map_append, List.append_assoc]
        rfl

theorem ofList_rules {rules : List Rule} (hids : TextIds rules)
    (hnodup : (rules.map (·.id)).Nodup) : ∃ e, ofList rules = .ok e ∧ e.rules = rules :=
  rules_foldlM_add .empty hids (fun _ _ _ _ => List.not_mem_nil) hnodup

end Engine

namespace RuleStore

variable {s s' : RuleStore}

/-- A rule whose identifier is a text stands under that text. -/
def Filed (s : RuleStore) : Prop :=
  ∀ row ∈ s.records.rows, ∀ t : Text, row.2.id = .text t → row.1 = .text t

theorem filed_empty : empty.Filed := fun _ hrow => absurd hrow List.not_mem_nil

theorem Filed.insert (h : s.Filed) {r : Rule} (hr : s.insert r = .ok s') : s'.Filed := by
  rw [RuleStore.insert, insertWithin] at hr
  split at hr
  · cases hr
  split at hr
  next key hkey =>
    cases hr
    intro row hrow t hid
    rcases Table.mem_setRow hrow with rfl | hrow
    · have hid : r.id = .text t := hid
      rw [hid] at hkey
      cases hkey
      rfl
    · exact h row hrow t hid
  next => cases hr

theorem Filed.delete (h : s.Filed) {id : Value} {found : Bool}
    (hdelete : s.delete id = .ok (found, s')) : s'.Filed := by
  rw [RuleStore.delete] at hdelete
  split at hdelete
  next key =>
    cases hdelete
    exact fun row hrow => h row (List.mem_of_mem_filter hrow)
  next =>
    split at hdelete
    · cases hdelete
      exact h
    · cases hdelete

def EveryId (P : Value → Prop) (s : RuleStore) : Prop := ∀ r ∈ s.list, P r.id

variable {P : Value → Prop}

theorem everyId_iff : s.EveryId P ↔ ∀ row ∈ s.records.rows, P row.2.id :=
  List.forall_mem_map

theorem everyId_empty (P : Value → Prop) : empty.EveryId P :=
  fun _ h => absurd h List.not_mem_nil

theorem EveryId.insert (hs : s.EveryId P) {r : Rule} (hr : P r.id) (h : s.insert r = .ok s') :
    s'.EveryId P := by
  rw [everyId_iff] at hs ⊢
  rw [RuleStore.insert, insertWithin] at h
  split at h
  · cases h
  split at h
  next =>
    cases h
    intro row hrow
    rcases Table.mem_setRow hrow with rfl | hrow
    · exact hr
    · exact hs row hrow
  next => cases h

theorem EveryId.delete (hs : s.EveryId P) {id : Value} {found : Bool}
    (h : s.delete id = .ok (found, s')) : s'.EveryId P := by
  rw [everyId_iff] at hs ⊢
  rw [RuleStore.delete] at h
  split at h
  next =>
    cases h
    exact fun row hrow => hs row (List.mem_of_mem_filter hrow)
  next =>
    split at h
    · cases h
      exact hs
    · cases h

theorem Filed.nodup_ids (h : s.Filed) (hids : TextIds s.list) : (s.list.map (·.id)).Nodup := by
  have hkeys : s.list.map (fun r => Key.of? r.id) = s.records.keys.map some := by
    rw [list, List.map_map, Table.keys, List.map_map]
    refine List.map_congr_left fun row hrow => ?_
    obtain ⟨t, hid⟩ := hids _ (List.mem_map_of_mem hrow)
    have hid : row.2.id = .text t := hid
    change Key.of? row.2.id = some row.1
    rw [h row hrow t hid, hid]
    rfl
  have hnodup : (s.list.map fun r => Key.of? r.id).Nodup :=
    hkeys ▸ s.records.nodup.map (Option.some_injective _)
  rw [← Function.comp_def, ← List.map_map] at hnodup
  exact List.Nodup.of_map _ hnodup

end RuleStore

namespace RuleService

theorem evaluate_eq {s : RuleState} (h : s.store.Filed) (hids : TextIds s.store.list)
    (context : Members) :
    evaluate s context = .ok (s.store.list.filterMap (Rule.match? context)) := by
  obtain ⟨e, he, hrules⟩ := Engine.ofList_rules hids (h.nodup_ids hids)
  rw [evaluate, he, ← hrules]
  rfl

end RuleService

end Referral
