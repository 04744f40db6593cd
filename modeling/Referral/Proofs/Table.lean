import Mathlib.Data.List.Basic
import Referral.Table

namespace Referral.Table

variable {κ α : Type} [DecidableEq κ]

theorem ext_rows {t u : Table κ α} (h : t.rows = u.rows) : t = u := by
  cases t
  cases u
  congr

theorem get?_eq_none_iff (t : Table κ α) (key : κ) : t.get? key = none ↔ key ∉ t.keys := by
  simp only [get?, keys, List.lookup_eq_none_iff, List.mem_map, not_exists, not_and]
  constructor
  · intro h row hrow heq
    have hne := h row hrow
    simp [heq] at hne
  · intro h row hrow
    simpa using fun heq => h row hrow heq.symm

theorem get?_eq_some_iff (t : Table κ α) (key : κ) (value : α) :
    t.get? key = some value ↔ (key, value) ∈ t.rows := by
  rw [get?, List.lookup_eq_some_iff]
  constructor
  · rintro ⟨before, after, h, -⟩
    simp [h]
  · intro h
    obtain ⟨before, after, hrows⟩ := List.append_of_mem h
    refine ⟨before, after, hrows, fun row hrow => ?_⟩
    have hnodup := t.nodup
    rw [hrows, List.map_append, List.map_cons, List.nodup_append] at hnodup
    have hne : key ≠ row.1 := fun heq =>
      hnodup.2.2 row.1 (List.mem_map_of_mem hrow) key (by simp) heq.symm
    simpa using hne

theorem mem_keys_of_get? {t : Table κ α} {key : κ} {value : α} (h : t.get? key = some value) :
    key ∈ t.keys :=
  List.mem_map_of_mem ((get?_eq_some_iff t key value).1 h)

theorem setRow_of_notMem (key : κ) (value : α) (rows : List (κ × α))
    (h : key ∉ rows.map Prod.fst) : setRow key value rows = rows ++ [(key, value)] := by
  induction rows with
  | nil => rfl
  | cons row rows ih =>
      rw [List.map_cons, List.mem_cons, not_or] at h
      rw [setRow, if_neg (Ne.symm h.1), ih h.2]
      rfl

theorem setRow_of_mem (key : κ) (value : α) (rows : List (κ × α))
    (hnodup : (rows.map Prod.fst).Nodup) (h : key ∈ rows.map Prod.fst) :
    setRow key value rows = rows.map fun row => if row.1 = key then (key, value) else row := by
  induction rows with
  | nil => simp at h
  | cons row rows ih =>
      rw [List.map_cons, List.nodup_cons] at hnodup
      by_cases hrow : row.1 = key
      · have hrest : ∀ other ∈ rows, other.1 ≠ key := by
          intro other hother heq
          exact hnodup.1 (hrow ▸ heq ▸ List.mem_map_of_mem hother)
        rw [setRow, if_pos hrow, List.map_cons, if_pos hrow]
        congr 1
        exact (List.map_id rows).symm.trans
          (List.map_congr_left fun other hother => (if_neg (hrest other hother)).symm)
      · have hmem : key ∈ rows.map Prod.fst := by
          rw [List.map_cons, List.mem_cons] at h
          exact h.resolve_left (Ne.symm hrow)
        rw [setRow, if_neg hrow, ih hnodup.2 hmem, List.map_cons, if_neg hrow]

theorem mem_setRow {key : κ} {value : α} {rows : List (κ × α)} {row : κ × α}
    (h : row ∈ setRow key value rows) : row = (key, value) ∨ row ∈ rows := by
  induction rows with
  | nil => exact .inl (List.mem_singleton.1 h)
  | cons first rows ih =>
      rw [setRow] at h
      split at h
      · rcases List.mem_cons.1 h with h | h
        · exact .inl h
        · exact .inr (List.mem_cons_of_mem _ h)
      · rcases List.mem_cons.1 h with h | h
        · exact .inr (h ▸ List.mem_cons_self)
        · exact (ih h).imp id (List.mem_cons_of_mem _)

theorem rows_put_of_notMem {t : Table κ α} {key : κ} (h : key ∉ t.keys) (value : α) :
    (t.put key value).rows = t.rows ++ [(key, value)] :=
  setRow_of_notMem key value t.rows h

theorem rows_put_of_mem {t : Table κ α} {key : κ} (h : key ∈ t.keys) (value : α) :
    (t.put key value).rows = t.rows.map fun row => if row.1 = key then (key, value) else row :=
  setRow_of_mem key value t.rows t.nodup h

theorem lookup_cons_eq_ite (row : κ × α) (rows : List (κ × α)) (key : κ) :
    (row :: rows).lookup key = if key = row.1 then some row.2 else rows.lookup key := by
  by_cases h : key = row.1
  · rw [List.lookup_cons, if_pos h, beq_iff_eq.2 h]
  · rw [List.lookup_cons, if_neg h, beq_false_of_ne h]

theorem get?_put (t : Table κ α) (key other : κ) (value : α) :
    (t.put key value).get? other = if other = key then some value else t.get? other := by
  simp only [get?, put]
  induction t.rows with
  | nil => rw [setRow, lookup_cons_eq_ite]
  | cons row rows ih =>
      by_cases hrow : row.1 = key
      · rw [setRow, if_pos hrow, lookup_cons_eq_ite, lookup_cons_eq_ite, hrow]
        by_cases h : other = key <;> simp [h]
      · rw [setRow, if_neg hrow, lookup_cons_eq_ite, lookup_cons_eq_ite, ih]
        by_cases h : other = row.1
        · simp [h, hrow]
        · simp [h]

theorem get?_erase (t : Table κ α) {key other : κ} (h : other ≠ key) :
    (t.erase key).get? other = t.get? other := by
  simp only [get?, erase]
  induction t.rows with
  | nil => rfl
  | cons row rows ih =>
      by_cases hrow : row.1 = key
      · rw [List.filter_cons_of_neg (by simpa using hrow), ih, lookup_cons_eq_ite, hrow, if_neg h]
      · rw [List.filter_cons_of_pos (by simpa using hrow), lookup_cons_eq_ite, lookup_cons_eq_ite,
          ih]

theorem get?_erase_self (t : Table κ α) (key : κ) : (t.erase key).get? key = none := by
  rw [get?_eq_none_iff, keys_erase, List.mem_filter]
  simp

theorem filter_key (t : Table κ α) (key : κ) :
    (t.rows.filter (·.1 = key)).map Prod.snd = (t.get? key).toList := by
  obtain ⟨rows, hnodup⟩ := t
  rw [get?]
  induction rows with
  | nil => rfl
  | cons row rows ih =>
      rw [List.map_cons, List.nodup_cons] at hnodup
      rw [lookup_cons_eq_ite]
      by_cases hrow : row.1 = key
      · have hrest : rows.filter (·.1 = key) = [] := by
          refine List.filter_eq_nil_iff.2 fun other hother => ?_
          have hne : other.1 ≠ key := fun heq =>
            hnodup.1 (hrow ▸ heq ▸ List.mem_map_of_mem hother)
          simpa using hne
        rw [List.filter_cons_of_pos (by simpa using hrow), hrest, if_pos hrow.symm]
        rfl
      · rw [List.filter_cons_of_neg (by simpa using hrow), if_neg (Ne.symm hrow)]
        exact ih hnodup.2

section

variable {β : Type}

def map (f : α → β) (t : Table κ α) : Table κ β where
  rows := t.rows.map fun row => (row.1, f row.2)
  nodup := by
    rw [List.map_map]
    exact t.nodup

theorem keys_map (f : α → β) (t : Table κ α) : (t.map f).keys = t.keys := List.map_map

theorem setRow_map (f : α → β) (key : κ) (value : α) (rows : List (κ × α)) :
    setRow key (f value) (rows.map fun row => (row.1, f row.2)) =
      (setRow key value rows).map fun row => (row.1, f row.2) := by
  induction rows with
  | nil => rfl
  | cons row rows ih =>
      rw [List.map_cons, setRow, setRow, ih]
      by_cases hrow : row.1 = key
      · rw [if_pos hrow, if_pos hrow, List.map_cons]
      · rw [if_neg hrow, if_neg hrow, List.map_cons]

theorem put_map (f : α → β) (t : Table κ α) (key : κ) (value : α) :
    (t.map f).put key (f value) = (t.put key value).map f :=
  ext_rows (setRow_map f key value t.rows)

theorem erase_map (f : α → β) (t : Table κ α) (key : κ) :
    (t.map f).erase key = (t.erase key).map f :=
  ext_rows List.filter_map

theorem get?_map (f : α → β) (t : Table κ α) (key : κ) :
    (t.map f).get? key = (t.get? key).map f := by
  simp only [get?, map]
  induction t.rows with
  | nil => rfl
  | cons row rows ih =>
      rw [List.map_cons, lookup_cons_eq_ite, lookup_cons_eq_ite, ih]
      by_cases hrow : key = row.1
      · rw [if_pos hrow, if_pos hrow, Option.map_some]
      · rw [if_neg hrow, if_neg hrow]

end

theorem erase_put {t : Table κ α} {key : κ} (h : t.get? key = none) (value : α) :
    (t.put key value).erase key = t := by
  have hkey := (get?_eq_none_iff t key).1 h
  apply ext_rows
  change (t.put key value).rows.filter (fun row => decide (row.1 ≠ key)) = t.rows
  rw [rows_put_of_notMem hkey, List.filter_append]
  have hrest : t.rows.filter (fun row => decide (row.1 ≠ key)) = t.rows := by
    rw [List.filter_eq_self]
    intro row hrow
    exact decide_eq_true fun heq => hkey (heq ▸ List.mem_map_of_mem hrow)
  simpa using hrest

theorem put_put {t : Table κ α} {key : κ} {value : α} (h : t.get? key = some value) (new : α) :
    (t.put key new).put key value = t := by
  have hkey := mem_keys_of_get? h
  have hput : key ∈ (t.put key new).keys := by simp [hkey]
  apply ext_rows
  rw [rows_put_of_mem hput, rows_put_of_mem hkey, List.map_map]
  refine (List.map_congr_left fun row hrow => ?_).trans (List.map_id t.rows)
  by_cases heq : row.1 = key
  · have hrow' : t.get? row.1 = some row.2 := (get?_eq_some_iff t row.1 row.2).2 hrow
    rw [heq, h] at hrow'
    simp [heq, Option.some.inj hrow', Prod.ext_iff]
  · simp [heq]

end Referral.Table
