
namespace Referral

variable {κ α : Type} [DecidableEq κ]

def setRow (key : κ) (value : α) : List (κ × α) → List (κ × α)
  | [] => [(key, value)]
  | row :: rows => if row.1 = key then (key, value) :: rows else row :: setRow key value rows

theorem map_fst_setRow (key : κ) (value : α) (rows : List (κ × α)) :
    (setRow key value rows).map Prod.fst =
      if key ∈ rows.map Prod.fst then rows.map Prod.fst else rows.map Prod.fst ++ [key] := by
  induction rows with
  | nil => simp [setRow]
  | cons row rows ih =>
    by_cases h : row.1 = key
    · simp [setRow, h]
    · have h' : ¬ key = row.1 := fun e => h e.symm
      simp only [setRow, h, if_false, List.map_cons, ih, List.mem_cons, h', false_or]
      split <;> simp

/-- Rows under keys, no key twice, in order of arrival. -/
structure Table (κ α : Type) [DecidableEq κ] where
  rows : List (κ × α)
  nodup : (rows.map Prod.fst).Nodup

namespace Table

def empty : Table κ α := ⟨[], by simp⟩

def keys (t : Table κ α) : List κ := t.rows.map Prod.fst

def values (t : Table κ α) : List α := t.rows.map Prod.snd

def get? (t : Table κ α) (key : κ) : Option α := t.rows.lookup key

def contains (t : Table κ α) (key : κ) : Bool := (t.get? key).isSome

def put (t : Table κ α) (key : κ) (value : α) : Table κ α where
  rows := setRow key value t.rows
  nodup := by
    rw [map_fst_setRow]
    split
    · exact t.nodup
    · rename_i h
      rw [List.nodup_append]
      refine ⟨t.nodup, by simp, fun a ha b hb => ?_⟩
      rw [List.mem_singleton] at hb
      subst hb
      exact fun e => h (e ▸ ha)

def erase (t : Table κ α) (key : κ) : Table κ α where
  rows := t.rows.filter fun row => row.1 ≠ key
  nodup := List.Nodup.sublist (List.filter_sublist.map _) t.nodup

@[simp] theorem keys_put (t : Table κ α) (key : κ) (value : α) :
    (t.put key value).keys = if key ∈ t.keys then t.keys else t.keys ++ [key] :=
  map_fst_setRow key value t.rows

@[simp] theorem keys_erase (t : Table κ α) (key : κ) :
    (t.erase key).keys = t.keys.filter (· ≠ key) := by
  simp only [keys, erase, List.filter_map]
  rfl

end Table

end Referral
