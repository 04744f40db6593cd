import Mathlib.Data.List.MinMax
import Mathlib.Order.Nat
import Referral.Proofs.Rule.Calls
import Referral.Proofs.Rule.Lookup

namespace Referral

structure TextRule extends Rule where
  key : Text
  id_eq : id = .text key

inductive RuleChange where
  | insert (r : TextRule)
  | delete (t : Text)

namespace RuleChange

/-- Whether the stack has room for the change. A rule is copied to be stored. -/
def fits (room : Nat) : RuleChange → Bool
  | insert r => r.copySteps ≤ room
  | delete _ => true

def standing? (t : Text) : List RuleChange → Option Rule
  | [] => none
  | insert r :: past => if r.key = t then some r.toRule else standing? t past
  | delete other :: past => if other = t then none else standing? t past

/-- How many changes came before the rule of the identifier did. A rule that takes the place of
another came when the other did. -/
def arrival? (t : Text) : List RuleChange → Option Nat
  | [] => none
  | insert r :: past =>
    if r.key = t then (arrival? t past).or (some past.length) else arrival? t past
  | delete other :: past => if other = t then none else arrival? t past

variable {past : List RuleChange} {t : Text} {n : Nat}

theorem id_of_standing? {r : Rule} (h : standing? t past = some r) : r.id = .text t := by
  induction past with
  | nil => cases h
  | cons c past ih =>
      cases c with
      | insert new =>
          rw [standing?] at h
          split at h
          next hkey =>
            cases h
            rw [new.id_eq, hkey]
          next => exact ih h
      | delete other =>
          rw [standing?] at h
          split at h
          · cases h
          · exact ih h

theorem exists_insert_of_standing? {r : Rule} (h : standing? t past = some r) :
    ∃ new : TextRule, insert new ∈ past ∧ new.toRule = r := by
  induction past with
  | nil => cases h
  | cons c past ih =>
      cases c with
      | insert new =>
          rw [standing?] at h
          split at h
          next =>
            cases h
            exact ⟨new, List.mem_cons_self, rfl⟩
          next =>
            obtain ⟨earlier, hmem, rfl⟩ := ih h
            exact ⟨earlier, List.mem_cons_of_mem _ hmem, rfl⟩
      | delete other =>
          rw [standing?] at h
          split at h
          · cases h
          · obtain ⟨earlier, hmem, rfl⟩ := ih h
            exact ⟨earlier, List.mem_cons_of_mem _ hmem, rfl⟩

theorem isSome_arrival? (t : Text) (past : List RuleChange) :
    (arrival? t past).isSome = (standing? t past).isSome := by
  induction past with
  | nil => rfl
  | cons c past ih =>
      cases c with
      | insert r =>
          rw [arrival?, standing?]
          split
          · rw [Option.isSome_or]
            exact Bool.or_true _
          · exact ih
      | delete other =>
          rw [arrival?, standing?]
          split
          · rfl
          · exact ih

theorem arrival?_lt (h : arrival? t past = some n) : n < past.length := by
  induction past with
  | nil => cases h
  | cons c past ih =>
      rw [List.length_cons]
      cases c with
      | insert r =>
          rw [arrival?] at h
          split at h
          · rcases Option.or_eq_some_iff.1 h with hbefore | ⟨-, hnow⟩
            · exact Nat.lt_succ_of_lt (ih hbefore)
            · cases hnow
              exact Nat.lt_succ_self _
          · exact Nat.lt_succ_of_lt (ih h)
      | delete other =>
          rw [arrival?] at h
          split at h
          · cases h
          · exact Nat.lt_succ_of_lt (ih h)

theorem arrival?_insert (r : TextRule) (h : arrival? t past = some n) :
    arrival? t (insert r :: past) = some n := by
  rw [arrival?, h]
  split <;> rfl

theorem arrival?_delete {other : Text} (hother : other ≠ t) (h : arrival? t past = some n) :
    arrival? t (delete other :: past) = some n := by
  rw [arrival?, if_neg hother, h]

def Earlier (past : List RuleChange) (t t' : Text) : Prop :=
  ∃ n n', arrival? t past = some n ∧ arrival? t' past = some n' ∧ n < n'

theorem Earlier.insert {t t' : Text} (h : Earlier past t t') (r : TextRule) :
    Earlier (insert r :: past) t t' := by
  obtain ⟨n, n', hn, hn', hlt⟩ := h
  exact ⟨n, n', arrival?_insert r hn, arrival?_insert r hn', hlt⟩

theorem Earlier.delete {t t' other : Text} (h : Earlier past t t') (ht : other ≠ t)
    (ht' : other ≠ t') : Earlier (delete other :: past) t t' := by
  obtain ⟨n, n', hn, hn', hlt⟩ := h
  exact ⟨n, n', arrival?_delete ht hn, arrival?_delete ht' hn', hlt⟩

end RuleChange

open RuleChange

theorem Condition.allHold_eq_all (context : Members) (cs : List Condition) :
    allHold context cs = cs.all (holds context) := by
  induction cs with
  | nil => rfl
  | cons c cs ih => rw [allHold, List.all_cons, ih]

theorem Rule.match?_eq_ite (context : Members) (r : Rule) :
    r.match? context =
      if !r.enabled.isFalsy && r.conditions.all (Condition.holds context) && !r.actions.isEmpty then
        some ⟨r.id, r.name, r.actions.map Action.execute⟩
      else none := by
  rw [match?, execute, holds, Condition.allHold_eq_all]
  cases !r.enabled.isFalsy && r.conditions.all (Condition.holds context) with
  | false => rfl
  | true =>
      cases r.actions with
      | nil => rfl
      | cons a as => rfl

namespace Engine

def change (e : Engine) : RuleChange → Engine
  | .insert r => (e.add r.toRule).toOption.getD e
  | .delete t => (e.remove (.text t)).toOption.getD e

def after : List RuleChange → Engine
  | [] => .empty
  | c :: past => (after past).change c

theorem change_insert (e : Engine) (r : TextRule) :
    e.change (.insert r) = e.put (.text r.key) r.toRule := by
  rw [change, add_text e r.id_eq]
  rfl

theorem change_delete (e : Engine) (t : Text) : e.change (.delete t) = e.erase (.text t) := rfl

/-- The rules of the engine are those that the history leaves, in order of arrival. -/
structure Follows (e : Engine) (past : List RuleChange) : Prop where
  get? : ∀ t, e.get? (.text t) = standing? t past
  keys : ∀ k ∈ e.keys, ∃ t, k = .text t
  order : e.keys.Pairwise fun k k' => ∃ t t', k = .text t ∧ k' = .text t' ∧ Earlier past t t'

theorem follows_empty : Follows .empty [] where
  get? _ := rfl
  keys _ h := absurd h List.not_mem_nil
  order := .nil

variable {e : Engine} {past : List RuleChange}

theorem Follows.exists_arrival (h : e.Follows past) {k : Key} (hk : k ∈ e.keys) :
    ∃ t n, k = .text t ∧ arrival? t past = some n := by
  obtain ⟨t, rfl⟩ := h.keys k hk
  have hget : e.get? (.text t) ≠ none := fun hnone => (Table.get?_eq_none_iff e _).1 hnone hk
  rw [h.get? t, ← Option.isSome_iff_ne_none, ← isSome_arrival?] at hget
  obtain ⟨n, hn⟩ := Option.isSome_iff_exists.1 hget
  exact ⟨t, n, rfl, hn⟩

theorem Follows.insert (h : e.Follows past) (r : TextRule) :
    (e.change (.insert r)).Follows (.insert r :: past) := by
  have hkeep : e.keys.Pairwise fun k k' =>
      ∃ t t', k = .text t ∧ k' = .text t' ∧ Earlier (.insert r :: past) t t' := by
    refine h.order.imp ?_
    rintro k k' ⟨t, t', hk, hk', hearlier⟩
    exact ⟨t, t', hk, hk', hearlier.insert r⟩
  rw [change_insert]
  refine ⟨fun t => ?_, fun k hk => ?_, ?_⟩
  · rw [Table.get?_put, h.get? t, standing?]
    by_cases hkey : r.key = t
    · rw [if_pos hkey, hkey, if_pos rfl]
    · rw [if_neg hkey, if_neg fun heq => hkey (Key.text.inj heq).symm]
  · rw [Table.keys_put] at hk
    split at hk
    · exact h.keys k hk
    · rcases List.mem_append.1 hk with hk | hk
      · exact h.keys k hk
      · exact ⟨r.key, List.mem_singleton.1 hk⟩
  · rw [Table.keys_put]
    split
    next => exact hkeep
    next hnew =>
      have hnone : arrival? r.key past = none := by
        have hget := (Table.get?_eq_none_iff e _).2 hnew
        rw [h.get?] at hget
        rw [← Option.isNone_iff_eq_none, ← Option.not_isSome, isSome_arrival?, hget]
        rfl
      have hnow : arrival? r.key (.insert r :: past) = some past.length := by
        rw [arrival?, if_pos rfl, hnone]
        rfl
      refine List.pairwise_append.2 ⟨hkeep, List.pairwise_singleton _ _, fun k hk k' hk' => ?_⟩
      obtain ⟨t, n, rfl, hn⟩ := h.exists_arrival hk
      exact ⟨t, r.key, rfl, List.mem_singleton.1 hk', n, past.length, arrival?_insert r hn, hnow,
        arrival?_lt hn⟩

theorem Follows.delete (h : e.Follows past) (other : Text) :
    (e.change (.delete other)).Follows (.delete other :: past) := by
  rw [change_delete]
  refine ⟨fun t => ?_, fun k hk => ?_, ?_⟩
  · rw [standing?]
    by_cases hother : other = t
    · rw [if_pos hother, hother, Table.get?_erase_self]
    · rw [if_neg hother, ← h.get? t, Table.get?_erase e fun heq => hother (Key.text.inj heq).symm]
  · rw [Table.keys_erase] at hk
    exact h.keys k (List.mem_of_mem_filter hk)
  · rw [Table.keys_erase]
    refine (h.order.sublist List.filter_sublist).imp_of_mem fun hk hk' hearlier => ?_
    obtain ⟨t, t', rfl, rfl, hearlier⟩ := hearlier
    have hne : ∀ {t : Text}, Key.text t ∈ e.keys.filter (· ≠ Key.text other) → other ≠ t := by
      rintro t hmem rfl
      simpa using (List.mem_filter.1 hmem).2
    exact ⟨t, t', rfl, rfl, hearlier.delete (hne hk) (hne hk')⟩

theorem follows_after (past : List RuleChange) : (after past).Follows past := by
  induction past with
  | nil => exact follows_empty
  | cons c past ih =>
      cases c with
      | insert r => exact ih.insert r
      | delete t => exact ih.delete t

theorem Follows.id_of_row (h : e.Follows past) {row : Key × Rule} (hrow : row ∈ e.rows) :
    ∃ t, row.1 = .text t ∧ row.2.id = .text t ∧ standing? t past = some row.2 := by
  obtain ⟨t, hkey⟩ := h.keys row.1 (List.mem_map_of_mem hrow)
  have hget := (Table.get?_eq_some_iff e row.1 row.2).2 hrow
  rw [hkey, h.get? t] at hget
  exact ⟨t, hkey, id_of_standing? hget, hget⟩

theorem Follows.mem_rules (h : e.Follows past) (r : Rule) :
    r ∈ e.rules ↔ ∃ t, standing? t past = some r := by
  constructor
  · intro hr
    obtain ⟨row, hrow, rfl⟩ := List.mem_map.1 hr
    obtain ⟨t, -, -, hstanding⟩ := h.id_of_row hrow
    exact ⟨t, hstanding⟩
  · rintro ⟨t, hstanding⟩
    rw [← h.get? t] at hstanding
    exact List.mem_map_of_mem ((Table.get?_eq_some_iff e _ _).1 hstanding)

theorem Follows.pairwise_rules (h : e.Follows past) :
    e.rules.Pairwise fun r r' => ∃ t t', r.id = .text t ∧ r'.id = .text t' ∧ Earlier past t t' := by
  have hkeys := List.pairwise_map.1 h.order
  refine List.pairwise_map.2 (hkeys.imp_of_mem fun hrow hrow' hearlier => ?_)
  obtain ⟨t, t', hkey, hkey', hearlier⟩ := hearlier
  obtain ⟨u, hu, hid, -⟩ := h.id_of_row hrow
  obtain ⟨u', hu', hid', -⟩ := h.id_of_row hrow'
  rw [hkey, Key.text.injEq] at hu
  rw [hkey', Key.text.injEq] at hu'
  exact ⟨t, t', hu ▸ hid, hu' ▸ hid', hearlier⟩

end Engine

namespace RuleStore

variable {s s' : RuleStore} {e : Engine} {room : Nat}

def change (room : Nat) (s : RuleStore) : RuleChange → RuleStore
  | .insert r => (s.insertWithin r.toRule room).toOption.getD s
  | .delete t => (s.delete (.text t)).toOption.elim s Prod.snd

def after (room : Nat) : List RuleChange → RuleStore
  | [] => empty
  | c :: past => (after room past).change room c

def bare (r : Rule) : Rule := { r with conditions := [], actions := [] }

/-- The tables of the store hold the parts of the engine's rules. -/
structure Splits (s : RuleStore) (e : Engine) : Prop where
  records : s.records = e.map bare
  conditions : s.conditions = e.map Rule.conditions
  actions : s.actions = e.map Rule.actions

theorem splits_empty : empty.Splits .empty := ⟨rfl, rfl, rfl⟩

theorem Splits.insert (h : s.Splits e) {r : Rule} (hr : s.insertWithin r room = .ok s') :
    ∃ e', e.add r = .ok e' ∧ s'.Splits e' := by
  have hkeys : s.records.keys = e.keys := by rw [h.records, Table.keys_map]
  rw [insertWithin] at hr
  split at hr
  · cases hr
  split at hr
  next key hkey =>
    cases hr
    refine ⟨e.put (key.toPut e.keys) r, by rw [Engine.add, hkey]; rfl, ?_, ?_, ?_⟩
    · dsimp only
      rw [hkeys, h.records]
      exact Table.put_map bare e _ r
    · dsimp only
      rw [hkeys, h.conditions, Table.put_map]
    · dsimp only
      rw [hkeys, h.actions, Table.put_map]
  next => cases hr

theorem Splits.delete_text (h : s.Splits e) (t : Text) :
    ∃ s', s.delete (.text t) = .ok ((e.get? (.text t)).isSome, s') ∧
      s'.Splits (e.erase (.text t)) := by
  refine ⟨⟨s.records.erase (.text t), s.conditions.erase (.text t), s.actions.erase (.text t)⟩,
    ?_, ?_, ?_, ?_⟩
  · have hfound : s.records.contains (.text t) = (e.get? (.text t)).isSome := by
      rw [Table.contains, h.records, Table.get?_map, Option.isSome_map]
    rw [← hfound]
    rfl
  · dsimp only
    rw [h.records, Table.erase_map]
  · dsimp only
    rw [h.conditions, Table.erase_map]
  · dsimp only
    rw [h.actions, Table.erase_map]

theorem insertWithin_text (s : RuleStore) (r : TextRule) :
    (∃ s', s.insertWithin r.toRule room = .ok s') ↔ r.copySteps ≤ room := by
  rw [insertWithin, r.id_eq]
  constructor
  · rintro ⟨s', hs'⟩
    split at hs'
    next => cases hs'
    next hfits => exact Nat.not_lt.1 hfits
  · intro hfits
    rw [if_neg (Nat.not_lt.2 hfits)]
    exact ⟨_, rfl⟩

theorem Splits.change (h : s.Splits e) {c : RuleChange} (hc : c.fits room = true) :
    (s.change room c).Splits (e.change c) := by
  cases c with
  | insert r =>
      obtain ⟨s', hs'⟩ := (insertWithin_text s r).2 (of_decide_eq_true hc)
      obtain ⟨e', he', hsplits⟩ := h.insert hs'
      rw [RuleStore.change, hs', Engine.change, he']
      exact hsplits
  | delete t =>
      obtain ⟨s', hs', hsplits⟩ := h.delete_text t
      rw [RuleStore.change, hs']
      exact hsplits

theorem change_of_not_fits {c : RuleChange} (hc : ¬ c.fits room = true) : s.change room c = s := by
  cases c with
  | insert r =>
      cases hr : s.insertWithin r.toRule room with
      | ok s' => exact absurd (decide_eq_true ((insertWithin_text s r).1 ⟨s', hr⟩)) hc
      | error fault =>
          rw [change, hr]
          rfl
  | delete t => exact absurd rfl hc

theorem splits_after (room : Nat) (past : List RuleChange) :
    (after room past).Splits (Engine.after (past.filter (fits room))) := by
  induction past with
  | nil => exact splits_empty
  | cons c past ih =>
      rw [after]
      by_cases hc : c.fits room = true
      · rw [List.filter_cons_of_pos hc]
        exact ih.change hc
      · rw [List.filter_cons_of_neg hc, change_of_not_fits hc]
        exact ih

structure Agrees (s : RuleStore) (e : Engine) : Prop where
  conditions_keys : s.conditions.keys = s.records.keys
  actions_keys : s.actions.keys = s.records.keys
  list : s.list = e.rules
  find : ∀ id : Value, s.find id = e.find id
  evaluate : ∀ (supply : Supply) (context : Members),
    RuleService.evaluate ⟨s, supply⟩ context = .ok (e.evaluate context)
  evaluateWithin : ∀ (supply : Supply) (context : Members) (room : Nat),
    RuleService.evaluateWithin ⟨s, supply⟩ context (room + 1) =
      if room < s.copyCalls then .error .tooDeep
      else (e.evaluateWithin context room).mapError fun _ => .tooDeep

theorem Splits.assemble (h : s.Splits e) {key : Key} {r : Rule} (hr : e.get? key = some r) :
    s.assemble key (bare r) = r := by
  rw [RuleStore.assemble, h.conditions, h.actions, Table.get?_map, Table.get?_map, hr]
  rfl

theorem Splits.list (h : s.Splits e) : s.list = e.rules := by
  rw [RuleStore.list, h.records, Table.map, List.map_map, Engine.rules, Table.values]
  refine List.map_congr_left fun row hrow => ?_
  exact h.assemble ((Table.get?_eq_some_iff e row.1 row.2).2 hrow)

theorem Splits.find (h : s.Splits e) (id : Value) : s.find id = e.find id := by
  rw [RuleStore.find, Engine.find]
  cases Key.of? id with
  | none => rfl
  | some key =>
      dsimp only
      rw [h.records, Table.get?_map]
      cases hr : e.get? key with
      | none => rfl
      | some r =>
          rw [Option.map_some, Option.map_some, h.assemble hr]

theorem Splits.agrees (h : s.Splits e) {past : List RuleChange} (he : e.Follows past) :
    s.Agrees e := by
  have hfiled : s.Filed := by
    intro row hrow t hid
    rw [h.records] at hrow
    obtain ⟨kept, hkept, rfl⟩ := List.mem_map.1 hrow
    obtain ⟨t', hkey, hid', -⟩ := he.id_of_row hkept
    have htext : Value.text t' = .text t := hid'.symm.trans hid
    rw [← Value.text.inj htext]
    exact hkey
  have hids : TextIds s.list := by
    intro r hr
    rw [h.list] at hr
    obtain ⟨t, hstanding⟩ := (he.mem_rules r).1 hr
    exact ⟨t, id_of_standing? hstanding⟩
  refine ⟨?_, ?_, h.list, h.find, fun supply context => ?_, fun supply context room => ?_⟩
  · rw [h.conditions, h.records, Table.keys_map, Table.keys_map]
  · rw [h.actions, h.records, Table.keys_map, Table.keys_map]
  · rw [RuleService.evaluate_eq hfiled hids, h.list]
    rfl
  · obtain ⟨e', he', hrules⟩ := Engine.ofList_rules hids (hfiled.nodup_ids hids)
    have hsame : e'.evaluateWithin context = e.evaluateWithin context := by
      rw [Engine.evaluateWithin, Engine.evaluateWithin, hrules, h.list]
    rw [RuleService.evaluateWithin, inside, if_neg (Nat.not_lt.2 (Nat.le_add_left 1 room)),
      Nat.add_sub_cancel, listWithin_eq, ← hsame]
    split
    · rfl
    · change (Engine.ofList s.list >>= _) = _
      rw [he']
      rfl

theorem copyCalls_le (h : s.Splits e) {past : List RuleChange}
    (he : e.Follows (past.filter (fits room))) : s.copyCalls ≤ room := by
  have hstored : ∀ r ∈ s.list, r.copySteps ≤ room := by
    intro r hr
    rw [h.list] at hr
    obtain ⟨t, hstanding⟩ := (he.mem_rules r).1 hr
    obtain ⟨new, hnew, rfl⟩ := exists_insert_of_standing? hstanding
    exact of_decide_eq_true (List.mem_filter.1 hnew).2
  exact List.max_le_of_forall_le _ _ (List.forall_mem_map.2 hstored)

/-- A store and an engine that take the same changes agree. What they hold is what the history
leaves: the rule that was last stored under each identifier and not deleted since, in order of
arrival. A rule that the stack has no room to copy is not stored, and not given to the engine. An
evaluation copies the stored rules first, for which there is room where there was to store them. -/
theorem agrees_after (room : Nat) (past : List RuleChange) :
    let s := after room past
    let taken := past.filter (fits room)
    let e := Engine.after taken
    s.Agrees e ∧
    (∀ r : TextRule, (∃ s', s.insertWithin r.toRule room = .ok s') ↔ r.copySteps ≤ room) ∧
    (∀ t, ∃ s', s.delete (.text t) = .ok ((standing? t taken).isSome, s') ∧
      .text t ∉ s'.records.keys ∧ .text t ∉ s'.conditions.keys ∧ .text t ∉ s'.actions.keys) ∧
    (∀ t, s.find (.text t) = .ok (standing? t taken)) ∧
    (∀ r, r ∈ s.list ↔ ∃ t, standing? t taken = some r) ∧
    (s.list.Pairwise fun r r' =>
      ∃ t t', r.id = .text t ∧ r'.id = .text t' ∧ Earlier taken t t') ∧
    s.copyCalls ≤ room ∧
    ∀ (supply : Supply) (context : Members),
      let matching := s.list.filter fun r => !r.enabled.isFalsy &&
        r.conditions.all (Condition.holds context) && !r.actions.isEmpty
      let answer := matching.map fun r => (⟨r.id, r.name, r.actions.map Action.execute⟩ : Match)
      RuleService.evaluate ⟨s, supply⟩ context = .ok answer ∧
      ∀ free, RuleService.evaluateWithin ⟨s, supply⟩ context (free + 1) =
        if free < max s.copyCalls (e.calls context) then .error .tooDeep else .ok answer := by
  intro s taken e
  have hsplits : s.Splits e := splits_after room past
  have hfollows : e.Follows taken := Engine.follows_after taken
  have hagrees := hsplits.agrees hfollows
  have hfind (t : Text) : s.find (.text t) = .ok (standing? t taken) := by
    rw [hagrees.find, ← hfollows.get? t]
    rfl
  refine ⟨hagrees, insertWithin_text s, fun t => ?_, hfind, ?_, ?_, copyCalls_le hsplits hfollows,
    fun supply context => ?_⟩
  · obtain ⟨s', hdelete, hsplits'⟩ := hsplits.delete_text t
    rw [hfollows.get? t] at hdelete
    have hgone : Key.text t ∉ (e.erase (.text t)).keys :=
      (Table.get?_eq_none_iff _ _).1 (Table.get?_erase_self e _)
    refine ⟨s', hdelete, ?_, ?_, ?_⟩
    · rwa [hsplits'.records, Table.keys_map]
    · rwa [hsplits'.conditions, Table.keys_map]
    · rwa [hsplits'.actions, Table.keys_map]
  · rw [hagrees.list]
    exact hfollows.mem_rules
  · rw [hagrees.list]
    exact hfollows.pairwise_rules
  · intro matching answer
    have hmatches : e.evaluate context = answer := by
      dsimp only [answer, matching]
      rw [hagrees.list, Engine.evaluate, ← List.filterMap_eq_map, List.filterMap_filter]
      exact List.filterMap_congr fun r _ => r.match?_eq_ite context
    refine ⟨by rw [hagrees.evaluate, hmatches], fun free => ?_⟩
    rw [hagrees.evaluateWithin, Engine.evaluateWithin_eq, hmatches, Stacked.taking,
      Stacked.ite_lt_max]
    split
    · rfl
    · split <;> rfl

theorem le_copySteps_tower (c : Condition) (n : Nat) : 6 * n ≤ (c.tower n).copySteps := by
  induction n with
  | zero => exact Nat.zero_le _
  | succ n ih =>
      rw [Condition.tower, Condition.copySteps, Condition.listCopySteps]
      omega

/-- Where the stack has room for 1000 calls, a rule with a condition inside 200 groups cannot be
copied, so only the engine has it. -/
theorem only_engine_has_deep :
    let leaf := Condition.leaf (.text "a") .equals (.text "x") .null defaultKind
    let now : Timestamp := ⟨⟨2024, 1, 1, by decide⟩, .midnight, some .utc⟩
    let r : TextRule :=
      ⟨⟨.text "r", .text "r", .bool true, [leaf.tower 200], [], now, now⟩, "r", rfl⟩
    (after 1000 [.insert r]).list = [] ∧ (Engine.after [.insert r]).rules = [r.toRule] := by
  intro leaf now r
  have htower := le_copySteps_tower leaf 200
  have hdeep : ¬ (RuleChange.insert r).fits 1000 = true := by
    rw [fits, decide_eq_true_iff, Rule.copySteps, Condition.listCopySteps]
    omega
  constructor
  · rw [after, change_of_not_fits hdeep]
    rfl
  · rw [Engine.after, Engine.change_insert]
    rfl

end RuleStore

end Referral
