import Mathlib.Data.List.Nodup
import Referral.Proofs.Ledger.Operation

namespace Referral.Store

/-- Both tables hold one row for each entry of the list, in its order. -/
structure Indexed (s : Store) : Prop where
  entries : s.entries.rows = s.list.map fun e => (e.id, e)
  references : s.references.rows = s.list.map fun e => (e.reference, e.id)

theorem indexed_empty : empty.Indexed := ⟨rfl, rfl⟩

namespace Indexed

variable {s : Store}

theorem keys_entries (h : s.Indexed) : s.entries.keys = s.list.map (·.id) := by
  rw [Table.keys, h.entries, List.map_map]
  rfl

theorem keys_references (h : s.Indexed) : s.references.keys = s.list.map (·.reference) := by
  rw [Table.keys, h.references, List.map_map]
  rfl

theorem nodup_ids (h : s.Indexed) : (s.list.map (·.id)).Nodup :=
  h.keys_entries ▸ s.entries.nodup

theorem nodup_references (h : s.Indexed) : (s.list.map (·.reference)).Nodup :=
  h.keys_references ▸ s.references.nodup

theorem eq_of_id (h : s.Indexed) {e x : Entry} (he : e ∈ s.list) (hx : x ∈ s.list)
    (heq : e.id = x.id) : e = x :=
  List.inj_on_of_nodup_map h.nodup_ids he hx heq

theorem find?_eq_some_iff (h : s.Indexed) (id : String) (e : Entry) :
    s.find? id = some e ↔ e ∈ s.list ∧ e.id = id := by
  rw [find?, Table.get?_eq_some_iff, h.entries, List.mem_map]
  constructor
  · rintro ⟨x, hx, heq⟩
    cases heq
    exact ⟨hx, rfl⟩
  · rintro ⟨he, rfl⟩
    exact ⟨e, he, rfl⟩

theorem holder_eq_some_iff (h : s.Indexed) (reference id : String) :
    s.references.get? reference = some id ↔
      ∃ e ∈ s.list, e.reference = reference ∧ e.id = id := by
  rw [Table.get?_eq_some_iff, h.references, List.mem_map]
  simp only [Prod.mk.injEq]

theorem holder_eq_none_iff (h : s.Indexed) (reference : String) :
    s.references.get? reference = none ↔ ∀ e ∈ s.list, e.reference ≠ reference := by
  rw [Table.get?_eq_none_iff, h.keys_references, List.mem_map]
  constructor
  · intro hnone e he heq
    exact hnone ⟨e, he, heq⟩
  · rintro hall ⟨e, he, heq⟩
    exact hall e he heq

theorem findReference?_eq_some (h : s.Indexed) {e : Entry} (he : e ∈ s.list) (hid : e.id ≠ "") :
    s.findReference? e.reference = some e := by
  have hholder := (h.holder_eq_some_iff e.reference e.id).2 ⟨e, he, rfl, rfl⟩
  have hfind := (h.find?_eq_some_iff e.id e).2 ⟨he, rfl⟩
  simp [findReference?, hholder, hid, hfind]

theorem findReference?_eq_none (h : s.Indexed) {reference : String}
    (hfree : ∀ e ∈ s.list, e.reference ≠ reference) : s.findReference? reference = none := by
  simp [findReference?, (h.holder_eq_none_iff reference).2 hfree]

theorem notMem_keys_entries (h : s.Indexed) {id : String} (hid : ∀ x ∈ s.list, x.id ≠ id) :
    id ∉ s.entries.keys := by
  rw [h.keys_entries, List.mem_map]
  rintro ⟨x, hx, heq⟩
  exact hid x hx heq

theorem list_add (h : s.Indexed) {e : Entry} (hid : ∀ x ∈ s.list, x.id ≠ e.id) :
    (s.add e).list = s.list ++ [e] := by
  have hkey := h.notMem_keys_entries hid
  simp only [list, Table.values, add, writeReference, writeEntry, Table.rows_put_of_notMem hkey,
    List.map_append, List.map_cons, List.map_nil]

theorem add (h : s.Indexed) {e : Entry} (hid : ∀ x ∈ s.list, x.id ≠ e.id)
    (hfree : ∀ x ∈ s.list, x.reference ≠ e.reference) : (s.add e).Indexed := by
  have hkey := h.notMem_keys_entries hid
  have hkey' : e.reference ∉ s.references.keys :=
    (Table.get?_eq_none_iff _ _).1 ((h.holder_eq_none_iff _).2 hfree)
  constructor
  · rw [h.list_add hid, List.map_append, ← h.entries]
    exact Table.rows_put_of_notMem hkey e
  · rw [h.list_add hid, List.map_append, ← h.references]
    exact Table.rows_put_of_notMem hkey' e.id

theorem list_writeEntry (h : s.Indexed) {e : Entry} (hmem : e.id ∈ s.list.map (·.id)) :
    (s.writeEntry e.id e).list = s.list.map fun x => if x.id = e.id then e else x := by
  have hkey : e.id ∈ s.entries.keys := h.keys_entries ▸ hmem
  have hrows := Table.rows_put_of_mem hkey e
  rw [h.entries, List.map_map] at hrows
  simp only [list, Table.values, writeEntry] at hrows ⊢
  rw [hrows, List.map_map]
  refine List.map_congr_left fun x hx => ?_
  by_cases heq : x.id = e.id <;> simp [heq]

theorem writeEntry (h : s.Indexed) {e : Entry} (hmem : e.id ∈ s.list.map (·.id))
    (hsame : ∀ x ∈ s.list, x.id = e.id → x.reference = e.reference) :
    (s.writeEntry e.id e).Indexed := by
  have hkey : e.id ∈ s.entries.keys := h.keys_entries ▸ hmem
  constructor
  · rw [h.list_writeEntry hmem, List.map_map]
    refine (Table.rows_put_of_mem hkey e).trans ?_
    rw [h.entries, List.map_map]
    refine List.map_congr_left fun x hx => ?_
    by_cases heq : x.id = e.id <;> simp [heq]
  · rw [h.list_writeEntry hmem, List.map_map]
    refine h.references.trans (List.map_congr_left fun x hx => ?_)
    by_cases heq : x.id = e.id
    · simp [heq, hsame x hx heq]
    · simp [heq]

end Indexed

end Referral.Store
