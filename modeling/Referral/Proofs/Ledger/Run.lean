import Mathlib.Data.List.Induction
import Referral.Proofs.Ledger.Step

namespace Referral

/-- What may become of an entry: only its status and the time of its last move change. -/
def Entry.Became (e e' : Entry) : Prop := e' = e.withStatus e'.status e'.updatedAt

namespace Ledger

def start (supply : Supply) : LedgerState := ⟨.empty, supply, 0⟩

def after (config : LedgerConfig) : List Command → LedgerState → LedgerState
  | [], s => s
  | c :: rest, s => after config rest (perform config c s).2

abbrev Exchange := Command × Except LedgerError Receipt

def answers (config : LedgerConfig) : List Command → LedgerState → List Exchange
  | [], _ => []
  | c :: rest, s => (c, (perform config c s).1) :: answers config rest (perform config c s).2

/-- A ledger whose identifiers are numbered and whose clock moves on by a second. -/
def counting : LedgerConfig :=
  ⟨.counting ⟨⟨2024, 1, 1, by decide⟩, .midnight, some .utc⟩ 1000000, "USD"⟩

def signup (userId : String) : RewardRequest := ⟨userId, ⟨false, 500, -2⟩, "signup", none, none, []⟩

variable {config : LedgerConfig} {s : LedgerState}

theorem distinct_counting_source : counting.source.Distinct := distinct_counting _ _

theorem mem_replaceBy {e x : Entry} {rows : List Entry} (he : e.id ∈ rows.map (·.id)) :
    x ∈ replaceBy e rows ↔ x = e ∨ (x ∈ rows ∧ x.id ≠ e.id) := by
  rw [replaceBy, List.mem_map]
  constructor
  · rintro ⟨y, hy, rfl⟩
    by_cases hid : y.id = e.id
    · exact .inl (if_pos hid)
    · rw [if_neg hid]
      exact .inr ⟨hy, hid⟩
  · rintro (rfl | ⟨hx, hid⟩)
    · obtain ⟨y, hy, hid⟩ := List.mem_map.1 he
      exact ⟨y, hy, if_pos hid⟩
    · exact ⟨x, hx, if_neg hid⟩

theorem mem_moved {e x : Entry} {rows : List Entry} (he : e ∈ rows) {status : Status}
    {at_ : Timestamp} : x ∈ replaceBy (e.withStatus status at_) rows ↔
      x = e.withStatus status at_ ∨ (x ∈ rows ∧ x.id ≠ e.id) :=
  mem_replaceBy (List.mem_map.2 ⟨e, he, rfl⟩)

theorem map_replaceBy {β : Type} (f : Entry → β) {e : Entry} {rows : List Entry}
    (h : ∀ x ∈ rows, x.id = e.id → f x = f e) : (replaceBy e rows).map f = rows.map f := by
  rw [replaceBy, List.map_map]
  refine List.map_congr_left fun x hx => ?_
  by_cases hid : x.id = e.id
  · simp [hid, h x hx hid]
  · simp [hid]

theorem map_replaceBy_withStatus {β : Type} (hs : s.store.Indexed) (f : Entry → β)
    (hf : ∀ (e : Entry) status at_, f (e.withStatus status at_) = f e) {e : Entry}
    (he : e ∈ s.store.list) (status : Status) (at_ : Timestamp) :
    (replaceBy (e.withStatus status at_) s.store.list).map f = s.store.list.map f :=
  map_replaceBy f fun x hx hid => by rw [hf, hs.eq_of_id hx he hid]

theorem list_moved (hs : s.store.Indexed) {e : Entry} (he : e ∈ s.store.list) (status : Status)
    (at_ : Timestamp) :
    (s.store.writeEntry e.id (e.withStatus status at_)).list =
      replaceBy (e.withStatus status at_) s.store.list := by
  have hid : e.id ∈ s.store.list.map (·.id) := List.mem_map_of_mem he
  exact hs.list_writeEntry (e := e.withStatus status at_) hid

theorem indexed_moved (hs : s.store.Indexed) {e : Entry} (he : e ∈ s.store.list) (status : Status)
    (at_ : Timestamp) : (s.store.writeEntry e.id (e.withStatus status at_)).Indexed := by
  have hid : e.id ∈ s.store.list.map (·.id) := List.mem_map_of_mem he
  refine hs.writeEntry (e := e.withStatus status at_) hid fun x hx heq => ?_
  rw [hs.eq_of_id hx he heq]
  rfl

theorem ids_moved (hs : s.store.Indexed) {e : Entry} (he : e ∈ s.store.list) (status : Status)
    (at_ : Timestamp) :
    (replaceBy (e.withStatus status at_) s.store.list).map (·.id) = s.store.list.map (·.id) :=
  map_replaceBy_withStatus hs (·.id) (fun _ _ _ => rfl) he status at_

theorem references_moved (hs : s.store.Indexed) {e : Entry} (he : e ∈ s.store.list)
    (status : Status) (at_ : Timestamp) :
    (replaceBy (e.withStatus status at_) s.store.list).map (·.reference) =
      s.store.list.map (·.reference) :=
  map_replaceBy_withStatus hs (·.reference) (fun _ _ _ => rfl) he status at_

theorem ne_of_map_eq (f : Entry → String) {value : String} {rows rows' : List Entry}
    (hmap : rows'.map f = rows.map f) (h : ∀ x ∈ rows, f x ≠ value) : ∀ x ∈ rows', f x ≠ value := by
  intro x hx
  have hf : f x ∈ rows.map f := hmap ▸ List.mem_map_of_mem hx
  obtain ⟨y, hy, heq⟩ := List.mem_map.1 hf
  exact heq ▸ h y hy

theorem exists_id_of_moved (hs : s.store.Indexed) {e x : Entry} (he : e ∈ s.store.list)
    {status : Status} {at_ : Timestamp}
    (hx : x ∈ replaceBy (e.withStatus status at_) s.store.list) :
    ∃ y ∈ s.store.list, y.id = x.id :=
  List.mem_map.1 (ids_moved hs he status at_ ▸ List.mem_map_of_mem hx)

theorem list_reversed (hs : Consistent config s) (hd : config.source.Distinct) {e : Entry}
    (he : e ∈ s.store.list) (at_ : Timestamp) {against : Entry}
    (hid : against.id = s.nextId config) :
    ((s.store.writeEntry e.id (e.withStatus .reversed at_)).add against).list =
      replaceBy (e.withStatus .reversed at_) s.store.list ++ [against] := by
  rw [(indexed_moved hs.indexed he .reversed at_).list_add, list_moved hs.indexed he]
  rw [list_moved hs.indexed he, hid]
  exact ne_of_map_eq (·.id) (ids_moved hs.indexed he .reversed at_)
    fun x hx => hs.ne_nextId hd hx

theorem Answers.list_applyTo {c : Command} {receipt : Receipt} (h : Answers config s c receipt)
    (hs : Consistent config s) (hd : config.source.Distinct) :
    (receipt.applyTo s).store.list = receipt.listIn s.store.list := by
  cases h with
  | created asks free => exact hs.indexed.list_add fun x hx => hs.ne_nextId hd hx
  | duplicate asks stored same => rfl
  | confirmed stored pending => exact list_moved hs.indexed stored _ _
  | paid stored confirmed => exact list_moved hs.indexed stored _ _
  | reversed reason stored live free => exact list_reversed hs hd stored _ rfl

theorem Answers.indexed_applyTo {c : Command} {receipt : Receipt} (h : Answers config s c receipt)
    (hs : Consistent config s) (hd : config.source.Distinct) :
    (receipt.applyTo s).store.Indexed := by
  cases h with
  | created asks free => exact hs.indexed.add (fun x hx => hs.ne_nextId hd hx) free
  | duplicate asks stored same => exact hs.indexed
  | confirmed stored pending => exact indexed_moved hs.indexed stored _ _
  | paid stored confirmed => exact indexed_moved hs.indexed stored _ _
  | reversed reason stored live free =>
      refine (indexed_moved hs.indexed stored .reversed _).add ?_ ?_
      · rw [list_moved hs.indexed stored]
        exact ne_of_map_eq (·.id) (ids_moved hs.indexed stored .reversed _)
          fun x hx => hs.ne_nextId hd hx
      · rw [list_moved hs.indexed stored]
        exact ne_of_map_eq (·.reference) (references_moved hs.indexed stored .reversed _) free

theorem Answers.issued_applyTo {c : Command} {receipt : Receipt} (h : Answers config s c receipt)
    (hs : Consistent config s) (hd : config.source.Distinct) :
    ∀ x ∈ (receipt.applyTo s).store.list,
      ∃ n ≤ (receipt.applyTo s).supply.ids, x.id = config.source.id "entry" n := by
  intro x hx
  rw [h.list_applyTo hs hd] at hx
  have hold (y : Entry) (hy : y ∈ s.store.list) :
      ∃ n ≤ s.supply.ids + 1, y.id = config.source.id "entry" n := by
    obtain ⟨n, hn, hid⟩ := hs.issued y hy
    exact ⟨n, Nat.le_succ_of_le hn, hid⟩
  cases h with
  | created asks free =>
      rcases List.mem_append.1 hx with hx | hx
      · exact hold x hx
      · rw [List.mem_singleton.1 hx]
        exact ⟨s.supply.ids + 1, Nat.le_refl _, rfl⟩
  | duplicate asks stored same => exact hs.issued x hx
  | @confirmed e stored pending =>
      obtain ⟨y, hy, hid⟩ := exists_id_of_moved hs.indexed stored hx
      exact hid ▸ hs.issued y hy
  | @paid e stored confirmed =>
      obtain ⟨y, hy, hid⟩ := exists_id_of_moved hs.indexed stored hx
      exact hid ▸ hs.issued y hy
  | reversed reason stored live free =>
      rcases List.mem_append.1 hx with hx | hx
      · obtain ⟨y, hy, hid⟩ := exists_id_of_moved hs.indexed stored hx
        exact hid ▸ hold y hy
      · rw [List.mem_singleton.1 hx]
        exact ⟨s.supply.ids + 1, Nat.le_refl _, rfl⟩

theorem Answers.consistent {c : Command} {receipt : Receipt} (h : Answers config s c receipt)
    (hs : Consistent config s) (hd : config.source.Distinct) :
    Consistent config (receipt.applyTo s) := by
  refine ⟨⟨?_, hs.quiet.prompt⟩, h.indexed_applyTo hs hd, h.issued_applyTo hs hd⟩
  have hclosed := hs.quiet.closed
  cases h <;> simp [Receipt.applyTo, Receipt.writeTo, Store.add, Store.writeEntry,
    Store.writeReference, hclosed]

theorem Step.consistent {c : Command} {result : Except LedgerError Receipt} {t : LedgerState}
    (h : Step config s c result t) (hs : Consistent config s) (hd : config.source.Distinct) :
    Consistent config t := by
  cases h with
  | answered h => exact h.consistent hs hd
  | refused fault supply more => exact hs.later more

theorem consistent_start (config : LedgerConfig) (supply : Supply) :
    Consistent config (start supply) :=
  ⟨⟨rfl, rfl⟩, Store.indexed_empty, fun _ he => absurd he List.not_mem_nil⟩

theorem after_append (cs ds : List Command) (s : LedgerState) :
    after config (cs ++ ds) s = after config ds (after config cs s) := by
  induction cs generalizing s with
  | nil => rfl
  | cons c cs ih => exact ih _

theorem answers_append (cs ds : List Command) (s : LedgerState) :
    answers config (cs ++ ds) s =
      answers config cs s ++ answers config ds (after config cs s) := by
  induction cs generalizing s with
  | nil => rfl
  | cons c cs ih => exact congrArg _ (ih _)

/-- What holds at first and is kept by every step, in view of the answers so far, holds after every
run. -/
theorem run_induction (hd : config.source.Distinct) (hs : Consistent config s)
    {motive : List Exchange → LedgerState → Prop} (first : motive [] s)
    (next : ∀ history t c result u, Consistent config t → Step config t c result u →
      motive history t → motive (history ++ [(c, result)]) u)
    (cs : List Command) :
    Consistent config (after config cs s) ∧
      motive (answers config cs s) (after config cs s) := by
  -- Taken from the end, a run is a shorter one and the command that its last state meets.
  induction cs using List.reverseRecOn with
  | nil => exact ⟨hs, first⟩
  | append_singleton cs c ih =>
      obtain ⟨hcs, hmotive⟩ := ih
      have hstep := perform_step hcs c
      rw [after_append, answers_append]
      exact ⟨hstep.consistent hcs hd, next _ _ c _ _ hcs hstep hmotive⟩

theorem consistent_after (hd : config.source.Distinct) (supply : Supply) (cs : List Command) :
    Consistent config (after config cs (start supply)) :=
  (run_induction hd (consistent_start config supply) (motive := fun _ _ => True) trivial
    (fun _ _ _ _ _ _ _ _ => trivial) cs).1

theorem became_refl (e : Entry) : e.Became e := rfl

theorem became_withStatus (e : Entry) (status : Status) (at_ : Timestamp) :
    e.Became (e.withStatus status at_) := rfl

theorem became_trans {e e' e'' : Entry} (h : e.Became e') (h' : e'.Became e'') : e.Became e'' := by
  rw [Entry.Became] at h h'
  rw [h] at h'
  exact h'

theorem exists_became_moved (hs : s.store.Indexed) {e x : Entry} (he : e ∈ s.store.list)
    (hx : x ∈ s.store.list) (status : Status) (at_ : Timestamp) :
    ∃ x' ∈ replaceBy (e.withStatus status at_) s.store.list, x.Became x' := by
  by_cases heq : x.id = e.id
  · rw [hs.eq_of_id hx he heq]
    exact ⟨_, (mem_moved he).2 (.inl rfl), became_withStatus e status at_⟩
  · exact ⟨x, (mem_moved he).2 (.inr ⟨hx, heq⟩), became_refl x⟩

theorem Answers.exists_became {c : Command} {receipt : Receipt} (h : Answers config s c receipt)
    (hs : s.store.Indexed) {x : Entry} (hx : x ∈ s.store.list) :
    ∃ x' ∈ receipt.listIn s.store.list, x.Became x' := by
  cases h with
  | created asks free => exact ⟨x, List.mem_append_left _ hx, became_refl x⟩
  | duplicate asks stored same => exact ⟨x, hx, became_refl x⟩
  | confirmed stored pending => exact exists_became_moved hs stored hx _ _
  | paid stored confirmed => exact exists_became_moved hs stored hx _ _
  | reversed reason stored live free =>
      obtain ⟨x', hx', hbecame⟩ := exists_became_moved hs stored hx .reversed _
      exact ⟨x', List.mem_append_left _ hx', hbecame⟩

theorem Step.exists_became {c : Command} {result : Except LedgerError Receipt} {t : LedgerState}
    (h : Step config s c result t) (hs : Consistent config s) (hd : config.source.Distinct)
    {x : Entry} (hx : x ∈ s.store.list) : ∃ x' ∈ t.store.list, x.Became x' := by
  cases h with
  | refused fault supply more => exact ⟨x, hx, became_refl x⟩
  | answered h =>
      rw [h.list_applyTo hs hd]
      exact h.exists_became hs.indexed hx

theorem exists_became_after (hd : config.source.Distinct) (hs : Consistent config s) {x : Entry}
    (hx : x ∈ s.store.list) (cs : List Command) :
    ∃ x' ∈ (after config cs s).store.list, x.Became x' := by
  refine (run_induction hd hs (motive := fun _ t => ∃ x' ∈ t.store.list, x.Became x')
    ⟨x, hx, became_refl x⟩ ?_ cs).2
  rintro history t c result u ht hstep ⟨y, hy, hbecame⟩
  obtain ⟨z, hz, hbecame'⟩ := hstep.exists_became ht hd hy
  exact ⟨z, hz, became_trans hbecame hbecame'⟩

/-- A later state is as consistent as the earlier one, and has all of its entries. -/
def Keeps (config : LedgerConfig) (s t : LedgerState) : Prop :=
  Consistent config s →
    Consistent config t ∧ ∀ x ∈ s.store.list, ∃ x' ∈ t.store.list, x.Became x'

theorem keeps_refl (config : LedgerConfig) (s : LedgerState) : Keeps config s s :=
  fun hs => ⟨hs, fun x hx => ⟨x, hx, became_refl x⟩⟩

theorem Keeps.trans {t u : LedgerState} (h : Keeps config s t) (h' : Keeps config t u) :
    Keeps config s u := by
  intro hs
  obtain ⟨ht, hold⟩ := h hs
  obtain ⟨hu, hold'⟩ := h' ht
  refine ⟨hu, fun x hx => ?_⟩
  obtain ⟨y, hy, hbecame⟩ := hold x hx
  obtain ⟨z, hz, hbecame'⟩ := hold' y hy
  exact ⟨z, hz, became_trans hbecame hbecame'⟩

theorem keeps_perform (hd : config.source.Distinct) (c : Command) (s : LedgerState) :
    Keeps config s (perform config c s).2 := by
  intro hs
  have hstep := perform_step hs c
  exact ⟨hstep.consistent hs hd, fun x hx => hstep.exists_became hs hd hx⟩

end Ledger

end Referral
