import Referral.Ledger.Store
import Referral.Proofs.Table

namespace Referral.Store

/-- The later store came from the earlier one by writes. A journal that is kept notes them in front
of what it held, and taking back what was added restores every row. -/
def Follows (earlier later : Store) : Prop :=
  match earlier.journal with
  | none => later.journal = none
  | some olds => ∃ news, later.journal = some (news ++ olds) ∧
      news.foldl takeBack later = { earlier with journal := later.journal }

theorem follows_of_none {s t : Store} (hs : s.journal = none) (ht : t.journal = none) :
    Follows s t := by
  rw [Follows, hs]
  exact ht

theorem Follows.journal_none {s t : Store} (h : Follows s t) (hs : s.journal = none) :
    t.journal = none := by
  rw [Follows, hs] at h
  exact h

theorem Follows.exists_news {s t : Store} (h : Follows s t) {olds : List Undo}
    (hs : s.journal = some olds) :
    ∃ news, t.journal = some (news ++ olds) ∧
      news.foldl takeBack t = { s with journal := t.journal } := by
  rw [Follows, hs] at h
  exact h

theorem Follows.refl (s : Store) : Follows s s := by
  cases hs : s.journal with
  | none => exact follows_of_none hs hs
  | some olds =>
      rw [Follows, hs]
      exact ⟨[], rfl, by rw [← hs]; rfl⟩

theorem takeBack_withJournal (s : Store) (journal : Option (List Undo)) (u : Undo) :
    takeBack { s with journal := journal } u = { takeBack s u with journal := journal } := by
  rcases u with ⟨id, _ | e⟩ | ⟨reference, _ | id⟩ <;> rfl

theorem foldl_takeBack_withJournal (writes : List Undo) (s : Store)
    (journal : Option (List Undo)) :
    writes.foldl takeBack { s with journal := journal } =
      { writes.foldl takeBack s with journal := journal } := by
  induction writes generalizing s with
  | nil => rfl
  | cons u writes ih => rw [List.foldl_cons, takeBack_withJournal, ih, List.foldl_cons]

theorem Follows.trans {s t u : Store} (hst : Follows s t) (htu : Follows t u) : Follows s u := by
  cases hs : s.journal with
  | none => exact follows_of_none hs (htu.journal_none (hst.journal_none hs))
  | some olds =>
      obtain ⟨news, ht, hback⟩ := hst.exists_news hs
      obtain ⟨newer, hu, hback'⟩ := htu.exists_news ht
      rw [Follows, hs]
      refine ⟨newer ++ news, by rw [hu, List.append_assoc], ?_⟩
      rw [List.foldl_append, hback', foldl_takeBack_withJournal, hback]

theorem follows_writeEntry (s : Store) (id : String) (e : Entry) :
    Follows s (s.writeEntry id e) := by
  cases hs : s.journal with
  | none => exact follows_of_none hs (by simp [writeEntry, hs])
  | some olds =>
      rw [Follows, hs]
      refine ⟨[.entry id (s.entries.get? id)], by simp [writeEntry, hs], ?_⟩
      cases hrow : s.entries.get? id with
      | none => simp [takeBack, writeEntry, Table.erase_put hrow]
      | some previous => simp [takeBack, writeEntry, Table.put_put hrow]

theorem follows_writeReference (s : Store) (reference id : String) :
    Follows s (s.writeReference reference id) := by
  cases hs : s.journal with
  | none => exact follows_of_none hs (by simp [writeReference, hs])
  | some olds =>
      rw [Follows, hs]
      refine ⟨[.reference reference (s.references.get? reference)],
        by simp [writeReference, hs], ?_⟩
      cases hrow : s.references.get? reference with
      | none => simp [takeBack, writeReference, Table.erase_put hrow]
      | some previous => simp [takeBack, writeReference, Table.put_put hrow]

theorem follows_of_insert {s t : Store} {e : Entry} (h : s.insert e = .ok t) : Follows s t := by
  rw [insert] at h
  split at h
  · cases h
  · cases h
    exact (follows_writeEntry s e.id e).trans (follows_writeReference _ e.reference e.id)

theorem follows_of_update {s t : Store} {id : String} {status : Status} {at_ : Timestamp}
    {e : Entry} (h : s.update id status at_ = .ok (e, t)) : Follows s t := by
  rw [update] at h
  split at h
  · cases h
  · cases h
    exact follows_writeEntry s id _

theorem openScope_of_none {s : Store} (hs : s.journal = none) :
    s.openScope = (⟨0, true⟩, { s with journal := some [] }) := by
  simp [openScope, hs]

theorem openScope_of_some {s : Store} {olds : List Undo} (hs : s.journal = some olds) :
    s.openScope = (⟨olds.length, false⟩, s) := by
  cases s
  simp_all [openScope]

theorem undoTo_of_follows {s t : Store} (h : Follows s t) {olds : List Undo}
    (hs : s.journal = some olds) : t.undoTo olds.length = s := by
  obtain ⟨news, ht, hback⟩ := h.exists_news hs
  simp only [undoTo, ht, List.length_append, Nat.add_sub_cancel, List.take_left, List.drop_left,
    hback]
  rw [← hs]

theorem closeScope_failed {s t : Store} (h : Follows s.openScope.2 t) :
    t.closeScope s.openScope.1 true = s := by
  cases hs : s.journal with
  | none =>
      rw [openScope_of_none hs] at h ⊢
      have hundo : t.undoTo 0 = { s with journal := some [] } := undoTo_of_follows h rfl
      simp only [closeScope, if_true, hundo]
      rw [← hs]
  | some olds =>
      rw [openScope_of_some hs] at h ⊢
      simp [closeScope, undoTo_of_follows h hs]

theorem closeScope_kept (s t : Store) :
    t.closeScope s.openScope.1 false =
      if s.journal = none then { t with journal := none } else t := by
  cases hs : s.journal with
  | none => simp [openScope_of_none hs, closeScope]
  | some olds => simp [openScope_of_some hs, closeScope]

theorem follows_closeScope {s t : Store} (failed : Bool) (h : Follows s.openScope.2 t) :
    Follows s (t.closeScope s.openScope.1 failed) := by
  cases failed with
  | true =>
      rw [closeScope_failed h]
      exact .refl s
  | false =>
      rw [closeScope_kept]
      split
      next hs => exact follows_of_none hs rfl
      next hs =>
        obtain ⟨olds, hs⟩ := Option.ne_none_iff_exists'.1 hs
        rwa [openScope_of_some hs] at h

end Referral.Store
