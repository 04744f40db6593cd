import Referral.Proofs.Rule.Authoring
import Referral.Proofs.Rule.Store
import Referral.Proofs.Supply

namespace Referral

namespace Key

theorem eq_text_of_of? {v : Value} {t : Text} (h : of? v = some (text t)) : v = .text t := by
  cases v with
  | text => cases h; rfl
  | null | bool | int | list | map => cases h
  | double x =>
      cases hx : x.integer? <;> simp [of?, hx] at h

theorem toPut_text (used : List Key) (t : Text) : (text t).toPut used = text t := by
  simp [toPut]

theorem toPut_ne_text {k : Key} {t : Text} (h : k ≠ text t) (used : List Key) :
    k.toPut used ≠ text t := by
  rw [toPut]
  split
  · simp
  · exact h

end Key

namespace RuleStore

variable {s s' : RuleStore} {t : Text} {r other : Rule}

structure Stands (s : RuleStore) (t : Text) (r : Rule) : Prop where
  id : r.id = .text t
  record : s.records.get? (.text t) = some { r with conditions := [], actions := [] }
  conditions : s.conditions.get? (.text t) = some r.conditions
  actions : s.actions.get? (.text t) = some r.actions

theorem stands_insert (hid : r.id = .text t) (h : s.insert r = .ok s') : s'.Stands t r := by
  have hkey : Key.of? r.id = some (.text t) := by
    rw [hid]
    rfl
  rw [insert, insertWithin] at h
  split at h
  · cases h
  simp only [hkey, Key.toPut_text] at h
  cases h
  refine ⟨hid, ?_, ?_, ?_⟩ <;> simp only [Table.get?_put, if_true]

theorem Stands.insert (hr : s.Stands t r) (hid : other.id ≠ .text t)
    (h : s.insert other = .ok s') : s'.Stands t r := by
  rw [RuleStore.insert, insertWithin] at h
  split at h
  · cases h
  split at h
  next key hkey =>
    cases h
    have hne : Key.text t ≠ key.toPut s.records.keys := by
      refine (Key.toPut_ne_text (fun heq => hid ?_) _).symm
      exact Key.eq_text_of_of? (heq ▸ hkey)
    refine ⟨hr.id, ?_, ?_, ?_⟩ <;>
      simp only [Table.get?_put, if_neg hne, hr.record, hr.conditions, hr.actions]
  next => cases h

theorem Stands.delete (hr : s.Stands t r) {id : Value} {found : Bool} (hid : id ≠ .text t)
    (h : s.delete id = .ok (found, s')) : s'.Stands t r := by
  rw [RuleStore.delete] at h
  split at h
  next key hkey =>
    cases h
    have hne : Key.text t ≠ key := fun heq => hid (Key.eq_text_of_of? (heq ▸ hkey))
    refine ⟨hr.id, ?_, ?_, ?_⟩ <;>
      simp only [Table.get?_erase _ hne, hr.record, hr.conditions, hr.actions]
  next =>
    split at h
    · cases h
      exact hr
    · cases h

theorem Stands.assemble (hr : s.Stands t r) :
    s.assemble (.text t) { r with conditions := [], actions := [] } = r := by
  rw [RuleStore.assemble, hr.conditions, hr.actions]
  rfl

theorem Stands.find (hr : s.Stands t r) : s.find r.id = .ok (some r) := by
  rw [hr.id, RuleStore.find]
  simp only [Key.of?, hr.record, Option.map_some, hr.assemble]
  rfl

theorem Stands.mem_list (hr : s.Stands t r) : r ∈ s.list := by
  have hrow := (Table.get?_eq_some_iff s.records _ _).1 hr.record
  rw [list, List.mem_map]
  exact ⟨_, hrow, hr.assemble⟩

theorem Stands.eq_of_mem_list (hr : s.Stands t r) (hfiled : s.Filed) (hmem : other ∈ s.list)
    (hid : other.id = .text t) : other = r := by
  obtain ⟨row, hrow, rfl⟩ := List.mem_map.1 hmem
  have hkey : row.1 = .text t := hfiled row hrow t hid
  have hget := (Table.get?_eq_some_iff s.records row.1 row.2).2 hrow
  rw [hkey, hr.record] at hget
  change s.assemble row.1 row.2 = r
  rw [hkey, ← Option.some.inj hget, hr.assemble]

def Fitting (s : RuleStore) : Prop := ∀ r ∈ s.list, (Key.of? r.id).isSome

theorem fitting_iff : s.Fitting ↔ s.EveryId fun id => (Key.of? id).isSome = true := Iff.rfl

theorem fitting_empty : empty.Fitting := fitting_iff.2 (everyId_empty _)

theorem Fitting.insert (hs : s.Fitting) (h : s.insert r = .ok s') : s'.Fitting := by
  refine fitting_iff.2 ((fitting_iff.1 hs).insert ?_ h)
  rw [RuleStore.insert, insertWithin] at h
  split at h
  · cases h
  split at h
  next key hkey => exact Option.isSome_of_eq_some hkey
  next => cases h

theorem Fitting.delete (hs : s.Fitting) {id : Value} {found : Bool}
    (h : s.delete id = .ok (found, s')) : s'.Fitting :=
  fitting_iff.2 ((fitting_iff.1 hs).delete h)

end RuleStore

namespace Engine

variable {t : Text} {r : Rule}

theorem exists_ofList {rules : List Rule} (hfit : ∀ r ∈ rules, (Key.of? r.id).isSome)
    (honly : ∀ other ∈ rules, other.id = .text t → other = r) (hid : r.id = .text t) (e : Engine)
    (hr : r ∈ rules ∨ e.get? (.text t) = some r)
    (he : ∀ other ∈ e.rules, other.id = .text t → other = r) :
    ∃ e', rules.foldlM add e = .ok e' ∧ e'.get? (.text t) = some r ∧
      ∀ other ∈ e'.rules, other.id = .text t → other = r := by
  induction rules generalizing e with
  | nil => exact ⟨e, rfl, hr.resolve_left List.not_mem_nil, he⟩
  | cons first rules ih =>
      rw [List.forall_mem_cons] at hfit honly
      obtain ⟨key, hkey⟩ := Option.isSome_iff_exists.1 hfit.1
      have hadd : e.add first = .ok (e.put (key.toPut e.keys) first) := by
        rw [add, hkey]
        rfl
      rw [List.foldlM_cons, hadd]
      refine ih hfit.2 honly.2 (e.put (key.toPut e.keys) first) ?_ ?_
      · rw [Table.get?_put]
        by_cases hfirst : first.id = .text t
        · have htext : key = .text t := by
            rw [hfirst] at hkey
            exact (Option.some.inj hkey).symm
          right
          rw [htext, Key.toPut_text, if_pos rfl, honly.1 hfirst]
        · have hne : Key.text t ≠ key.toPut e.keys :=
            (Key.toPut_ne_text (fun heq => hfirst (Key.eq_text_of_of? (heq ▸ hkey))) _).symm
          rw [if_neg hne]
          refine hr.imp (fun hmem => (List.mem_cons.1 hmem).resolve_left ?_) id
          rintro rfl
          exact hfirst hid
      · intro other hother
        obtain ⟨row, hrow, rfl⟩ := List.mem_map.1 hother
        rcases Table.mem_setRow hrow with rfl | hrow
        · exact honly.1
        · exact he _ (List.mem_map_of_mem hrow)

end Engine

/-- What can happen to the stored rules: one is authored, deleted, or stored as it is. -/
inductive RuleWrite
  | create (request : RuleRequest)
  | delete (id : Value)
  | insert (rule : Rule)

/-- The write does not delete or replace the rule of the identifier. An authored rule has a new one.
-/
def RuleWrite.Spares (id : Value) : RuleWrite → Prop
  | create _ => True
  | delete other => other ≠ id
  | insert rule => rule.id ≠ id

namespace RuleService

variable {source : Source} {s s' : RuleState} {t : Text} {r : Rule} {request : RuleRequest}

def write (source : Source) (s : RuleState) : RuleWrite → RuleState
  | .create request => (create source request s).2
  | .delete id => (delete id s).2
  | .insert rule => (insert rule s).2

def writes (source : Source) (s : RuleState) (ws : List RuleWrite) : RuleState :=
  ws.foldl (write source) s

def start : RuleState := ⟨.empty, .fresh⟩

inductive Changed (source : Source) (s s' : RuleState) : RuleWrite → Prop
  | same (w : RuleWrite) (store : s'.store = s.store) : Changed source s s' w
  | created {r : Rule} (request : RuleRequest)
      (id : r.id = .text (source.id "rule" (s.supply.ids + 1)))
      (stored : s.store.insert r = .ok s'.store) : Changed source s s' (.create request)
  | deleted {found : Bool} (id : Value) (gone : s.store.delete id = .ok (found, s'.store)) :
      Changed source s s' (.delete id)
  | inserted (r : Rule) (stored : s.store.insert r = .ok s'.store) : Changed source s s' (.insert r)

theorem changed_write (source : Source) (s : RuleState) (w : RuleWrite) :
    Changed source s (write source s w) w ∧ s.supply.ids ≤ (write source s w).supply.ids := by
  cases w with
  | create request =>
      have htakes := Authoring.takes_rule source request s.supply
      rw [write, create_eq]
      rcases hrule : Authoring.rule source request s.supply with ⟨fault | r, supply⟩
      · rw [hrule] at htakes
        exact ⟨.same _ rfl, htakes⟩
      · rw [hrule] at htakes
        dsimp only
        cases hstored : s.store.insert r with
        | error fault => exact ⟨.same _ rfl, htakes⟩
        | ok store =>
            exact ⟨.created request (Authoring.keepsRule_of_rule hrule).2.1 hstored, htakes⟩
  | delete id =>
      rw [write, delete]
      cases hgone : s.store.delete id with
      | error fault => exact ⟨.same _ rfl, Nat.le_refl _⟩
      | ok ended =>
          rcases ended with ⟨_ | _, store⟩
          · exact ⟨.deleted id hgone, Nat.le_refl _⟩
          · exact ⟨.deleted id hgone, Nat.le_refl _⟩
  | insert rule =>
      rw [write, insert, insertWithin, ← RuleStore.insert]
      cases hstored : s.store.insert rule with
      | error fault => exact ⟨.same _ rfl, Nat.le_refl _⟩
      | ok store => exact ⟨.inserted rule hstored, Nat.le_refl _⟩

structure Sound (s : RuleState) : Prop where
  filed : s.store.Filed
  fitting : s.store.Fitting

theorem sound_start : Sound start := ⟨RuleStore.filed_empty, RuleStore.fitting_empty⟩

theorem sound_write (h : Sound s) (w : RuleWrite) : Sound (write source s w) := by
  obtain ⟨hchanged, -⟩ := changed_write source s w
  cases hchanged with
  | same w store => exact ⟨store ▸ h.filed, store ▸ h.fitting⟩
  | created request id stored => exact ⟨h.filed.insert stored, h.fitting.insert stored⟩
  | deleted id gone => exact ⟨h.filed.delete gone, h.fitting.delete gone⟩
  | inserted r stored => exact ⟨h.filed.insert stored, h.fitting.insert stored⟩

theorem sound_writes (h : Sound s) (ws : List RuleWrite) : Sound (writes source s ws) := by
  induction ws generalizing s with
  | nil => exact h
  | cons w ws ih => exact ih (sound_write h w)

structure Kept (source : Source) (s : RuleState) (r : Rule) : Prop where
  sound : Sound s
  stands : ∃ n, n ≤ s.supply.ids ∧ s.store.Stands (source.id "rule" n) r

theorem kept_create (hs : Sound s) (h : create source request s = (.ok r, s')) :
    Kept source s' r ∧ Authoring.KeepsRule request r := by
  have hsound : Sound s' := by
    have hwrite : Sound (write source s (.create request)) := sound_write hs (.create request)
    rwa [write, h] at hwrite
  obtain ⟨supply, store, hrule, hstored, rfl⟩ := exists_of_create h
  obtain ⟨hkeeps, hid, hmore⟩ := Authoring.keepsRule_of_rule hrule
  exact ⟨⟨hsound, _, hmore, RuleStore.stands_insert hid hstored⟩, hkeeps⟩

theorem Kept.write (hd : source.Distinct) (h : Kept source s r) {w : RuleWrite}
    (hw : w.Spares r.id) : Kept source (write source s w) r := by
  obtain ⟨n, hn, hstands⟩ := h.stands
  obtain ⟨hchanged, hmore⟩ := changed_write source s w
  refine ⟨sound_write h.sound w, n, Nat.le_trans hn hmore, ?_⟩
  cases hchanged with
  | same w store => exact store ▸ hstands
  | created request id stored =>
      refine hstands.insert (fun hsame => ?_) stored
      have hid : source.id "rule" (s.supply.ids + 1) = source.id "rule" n := by
        simpa using id.symm.trans hsame
      exact Source.id_ne_of_lt hd "rule" (Nat.lt_succ_of_le hn) hid.symm
  | deleted id gone => exact hstands.delete (hstands.id ▸ hw) gone
  | inserted r' stored => exact hstands.insert (hstands.id ▸ hw) stored

theorem Kept.writes (hd : source.Distinct) (h : Kept source s r) {ws : List RuleWrite}
    (hws : ∀ w ∈ ws, w.Spares r.id) : Kept source (writes source s ws) r := by
  induction ws generalizing s with
  | nil => exact h
  | cons w ws ih =>
      rw [List.forall_mem_cons] at hws
      exact ih (h.write hd hws.1) hws.2

theorem Kept.find (h : Kept source s r) : find s r.id = .ok r := by
  obtain ⟨n, -, hstands⟩ := h.stands
  rw [RuleService.find, hstands.find]
  rfl

theorem Kept.mem_list (h : Kept source s r) : r ∈ s.store.list :=
  h.stands.elim fun _ hn => hn.2.mem_list

theorem Kept.evaluate (h : Kept source s r) (context : Members) :
    ∃ matched, evaluate s context = .ok matched ∧
      ∀ m, m ∈ matched ∧ m.ruleId = r.id ↔ r.match? context = some m := by
  obtain ⟨n, -, hstands⟩ := h.stands
  have honly : ∀ other ∈ s.store.list, other.id = .text (source.id "rule" n) → other = r :=
    fun other hmem => hstands.eq_of_mem_list h.sound.filed hmem
  obtain ⟨e, hfold, hget, hrules⟩ := Engine.exists_ofList h.sound.fitting honly hstands.id .empty
    (.inl hstands.mem_list) (fun _ hmem => absurd hmem List.not_mem_nil)
  have he : Engine.ofList s.store.list = .ok e := hfold
  have hr : r ∈ e.rules := List.mem_map_of_mem ((Table.get?_eq_some_iff e _ _).1 hget)
  refine ⟨e.evaluate context, ?_, fun m => ?_⟩
  · rw [RuleService.evaluate, he]
    rfl
  have hmatch : ∀ {other : Rule}, other.match? context = some m → m.ruleId = other.id := by
    intro other hother
    simp only [Rule.match?] at hother
    split at hother
    · cases hother
    · cases hother
      rfl
  rw [Engine.evaluate, List.mem_filterMap]
  constructor
  · rintro ⟨⟨other, hmem, hother⟩, hid⟩
    have hsame : other = r :=
      hrules other hmem ((hmatch hother).symm.trans (hid.trans hstands.id))
    exact hsame ▸ hother
  · exact fun hm => ⟨⟨r, hr, hm⟩, hmatch hm⟩

theorem match?_eq_some_iff (context : Members) {as : List Action} {holds : Bool} (has : as ≠ [])
    (hexecute : r.execute context = if holds then as.map Action.execute else []) (m : Match) :
    r.match? context = some m ↔ holds = true ∧ m = ⟨r.id, r.name, as.map Action.execute⟩ := by
  rw [Rule.match?, hexecute]
  cases holds with
  | false => simp
  | true =>
      have hne : (as.map Action.execute).isEmpty = false := by simpa using has
      simp only [if_true, hne, Bool.false_eq_true, if_false, Option.some.injEq, true_and]
      exact eq_comm

def layered : RuleRequest where
  name := some " layered "
  conditions := [⟨none, none, none, some "or", .null,
    [⟨none, some "amount", some "cart.total", some "greater_than", .double (.ofInt 3), []⟩,
      ⟨none, none, none, some "and", .null,
        [⟨some "same", none, some "tags", some "equals", .list [.int 1, .bool true], []⟩,
          ⟨none, none, some "rate", some "not_equals", .double .nan, []⟩]⟩]⟩]
  actions := [⟨none, some "reward", [("amount", .text "1e1")]⟩, ⟨none, some "email", []⟩]
  enabled := true

end RuleService

end Referral
