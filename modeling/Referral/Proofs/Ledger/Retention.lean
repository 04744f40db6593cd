import Referral.Proofs.Ledger.Run

namespace Referral.Store

inductive Write
  | insert (e : Entry)
  | update (id : String) (status : Status) (at_ : Timestamp)

def Write.entry? : Write → Option Entry
  | insert e => some e
  | update _ _ _ => none

def write (s : Store) : Write → Except LedgerError Store
  | .insert e => s.insert e
  | .update id status at_ => (s.update id status at_).map Prod.snd

/-- What writes leave. One that is refused leaves all as it is. -/
def writes : List Write → Store → Store
  | [], s => s
  | w :: ws, s =>
    match s.write w with
    | .ok t => writes ws t
    | .error _ => writes ws s

/-- The entries whose insertion was not refused. -/
def inserted : List Write → Store → List Entry
  | [], _ => []
  | w :: ws, s =>
    match s.write w with
    | .ok t => w.entry?.toList ++ inserted ws t
    | .error _ => inserted ws s

variable {s t : Store}

theorem writes_ok {w : Write} (h : s.write w = .ok t) (ws : List Write) :
    writes (w :: ws) s = writes ws t := by
  rw [writes, h]

theorem writes_refused {w : Write} {fault : LedgerError} (h : s.write w = .error fault)
    (ws : List Write) : writes (w :: ws) s = writes ws s := by
  rw [writes, h]

theorem inserted_ok {w : Write} (h : s.write w = .ok t) (ws : List Write) :
    inserted (w :: ws) s = w.entry?.toList ++ inserted ws t := by
  rw [inserted, h]

theorem inserted_refused {w : Write} {fault : LedgerError} (h : s.write w = .error fault)
    (ws : List Write) : inserted (w :: ws) s = inserted ws s := by
  rw [inserted, h]

inductive Written (s : Store) : Write → Store → Prop
  | added {e : Entry} (free : s.references.get? e.reference = none) :
      Written s (.insert e) (s.add e)
  | moved {e : Entry} {id : String} (found : s.find? id = some e) (status : Status)
      (at_ : Timestamp) :
      Written s (.update id status at_) (s.writeEntry id (e.withStatus status at_))

theorem written_of_write {w : Write} (h : s.write w = .ok t) : Written s w t := by
  cases w with
  | insert e =>
      rw [write, insert] at h
      split at h
      · cases h
      next hfree =>
        cases h
        exact .added hfree
  | update id status at_ =>
      rw [write, update] at h
      split at h
      · cases h
      next e hfound =>
        cases h
        exact .moved hfound status at_

theorem insert_error_iff (e : Entry) (holder : String) :
    s.insert e = .error (.duplicateReference e.reference holder) ↔
      s.references.get? e.reference = some holder := by
  rw [insert]
  cases s.references.get? e.reference with
  | none => simp [pure, Except.pure]
  | some id => simp [throw, throwThe, MonadExceptOf.throw]

theorem insert_ok_iff (e : Entry) :
    (∃ t, s.insert e = .ok t) ↔ s.references.get? e.reference = none := by
  rw [insert]
  cases s.references.get? e.reference with
  | none => simp [pure, Except.pure]
  | some id => simp [throw, throwThe, MonadExceptOf.throw]

theorem holder_writes (ws : List Write) (s : Store) (reference id : String) :
    (writes ws s).references.get? reference = some id ↔
      s.references.get? reference = some id ∨
        ∃ e ∈ inserted ws s, e.reference = reference ∧ e.id = id := by
  induction ws generalizing s with
  | nil => simp [writes, inserted]
  | cons w ws ih =>
      cases hwrite : s.write w with
      | error fault => rw [writes_refused hwrite, inserted_refused hwrite, ih]
      | ok t =>
          rw [writes_ok hwrite, inserted_ok hwrite, ih]
          cases written_of_write hwrite with
          | moved found status at_ => rfl
          | @added e free =>
              have hput : (s.add e).references.get? reference =
                  if reference = e.reference then some e.id else s.references.get? reference :=
                Table.get?_put _ _ _ _
              rw [hput]
              by_cases heq : reference = e.reference
              · subst heq
                simp [Write.entry?, free, or_and_right, exists_or]
              · simp [Write.entry?, heq, Ne.symm heq]

def Keyed (s : Store) : Prop := ∀ row ∈ s.entries.rows, row.2.id = row.1

theorem keyed_empty : empty.Keyed := fun _ hrow => absurd hrow List.not_mem_nil

theorem Keyed.id_eq (h : s.Keyed) {id : String} {e : Entry} (he : s.find? id = some e) :
    e.id = id :=
  h _ ((Table.get?_eq_some_iff _ _ _).1 he)

theorem Written.keyed {w : Write} (h : Written s w t) (hs : s.Keyed) : t.Keyed := by
  intro row hrow
  cases h with
  | added free =>
      rcases Table.mem_setRow hrow with rfl | hrow
      · rfl
      · exact hs row hrow
  | @moved e id found status at_ =>
      rcases Table.mem_setRow hrow with rfl | hrow
      · have hid : e.id = id := hs.id_eq found
        exact hid
      · exact hs row hrow

theorem keyed_writes (h : s.Keyed) (ws : List Write) : (writes ws s).Keyed := by
  induction ws generalizing s with
  | nil => exact h
  | cons w ws ih =>
      cases hwrite : s.write w with
      | error fault =>
          rw [writes_refused hwrite]
          exact ih h
      | ok t =>
          rw [writes_ok hwrite]
          exact ih ((written_of_write hwrite).keyed h)

theorem Keyed.list_filter (h : s.Keyed) (id : String) :
    s.list.filter (·.id = id) = (s.find? id).toList := by
  rw [list, Table.values, List.filter_map, find?, ← Table.filter_key]
  refine congrArg _ (List.filter_congr fun row hrow => ?_)
  simp [h row hrow]

/-- The entry is stored under its identifier and its reference, as it has become. -/
structure Lasting (s : Store) (e e' : Entry) : Prop where
  became : e.Became e'
  stored : s.find? e.id = some e'
  holder : s.references.get? e.reference = some e.id

theorem lasting_of_insert {e : Entry} (h : s.insert e = .ok t) : t.Lasting e e := by
  cases written_of_write (w := .insert e) h with
  | added free =>
      refine ⟨rfl, ?_, ?_⟩
      · exact (Table.get?_put _ _ _ _).trans (if_pos rfl)
      · exact (Table.get?_put _ _ _ _).trans (if_pos rfl)

theorem Lasting.written {e e' : Entry} (h : s.Lasting e e') {w : Write} (hw : Written s w t)
    (hother : ∀ x, w.entry? = some x → x.id ≠ e.id) : ∃ e'', t.Lasting e e'' := by
  cases hw with
  | @added x free =>
      have hreference : e.reference ≠ x.reference := by
        intro heq
        rw [← heq, h.holder] at free
        cases free
      refine ⟨e', h.became, ?_, ?_⟩
      · exact (Table.get?_put _ _ _ _).trans ((if_neg (hother x rfl).symm).trans h.stored)
      · exact (Table.get?_put _ _ _ _).trans ((if_neg hreference).trans h.holder)
  | @moved x id found status at_ =>
      by_cases hid : e.id = id
      · subst hid
        cases found.symm.trans h.stored
        refine ⟨e'.withStatus status at_, ?_, ?_, h.holder⟩
        · exact Ledger.became_trans h.became (Ledger.became_withStatus e' status at_)
        · exact (Table.get?_put _ _ _ _).trans (if_pos rfl)
      · exact ⟨e', h.became, (Table.get?_put _ _ _ _).trans ((if_neg hid).trans h.stored), h.holder⟩

theorem Lasting.writes {e e' : Entry} (h : s.Lasting e e') {ws : List Write}
    (hother : ∀ x ∈ inserted ws s, x.id ≠ e.id) : ∃ e'', (writes ws s).Lasting e e'' := by
  induction ws generalizing s e' with
  | nil => exact ⟨e', h⟩
  | cons w ws ih =>
      cases hwrite : s.write w with
      | error fault =>
          rw [inserted_refused hwrite] at hother
          rw [writes_refused hwrite]
          exact ih h hother
      | ok t =>
          rw [inserted_ok hwrite, List.forall_mem_append] at hother
          rw [writes_ok hwrite]
          obtain ⟨e'', hnext⟩ := h.written (written_of_write hwrite)
            fun x hx => hother.1 x (Option.mem_toList.2 hx)
          exact ih hnext hother.2

theorem Lasting.findReference? {e e' : Entry} (h : s.Lasting e e') (hid : e.id ≠ "") :
    s.findReference? e.reference = some e' := by
  simp [Store.findReference?, h.holder, hid, h.stored]

/-- An insertion is refused just if an entry with its reference was inserted before, and then
nothing changes. What it has inserted is from then on the one entry that is listed with its
identifier and that is found by it, and also by its reference unless the identifier is empty, until
another entry with its identifier is inserted. -/
theorem insertion_lasts (before : List Write) (e : Entry) :
    let s := writes before empty
    (∀ holder, s.insert e = .error (.duplicateReference e.reference holder) ↔
      ∃ x ∈ inserted before empty, x.reference = e.reference ∧ x.id = holder) ∧
    ((∃ x ∈ inserted before empty, x.reference = e.reference) → writes [.insert e] s = s) ∧
    ((∃ t, s.insert e = .ok t) ↔ ∀ x ∈ inserted before empty, x.reference ≠ e.reference) ∧
    ∀ t, s.insert e = .ok t → ∀ later, (∀ x ∈ inserted later t, x.id ≠ e.id) →
      ∃ e', e.Became e' ∧ (writes later t).list.filter (·.id = e.id) = [e'] ∧
        (writes later t).find? e.id = some e' ∧
        (e.id ≠ "" → (writes later t).findReference? e.reference = some e') := by
  intro s
  have hholder (holder : String) : s.insert e = .error (.duplicateReference e.reference holder) ↔
      ∃ x ∈ inserted before empty, x.reference = e.reference ∧ x.id = holder := by
    rw [insert_error_iff, holder_writes]
    exact or_iff_right nofun
  refine ⟨hholder, ?_, ?_, fun t ht later hother => ?_⟩
  · rintro ⟨x, hx, hreference⟩
    exact writes_refused (w := .insert e) ((hholder x.id).2 ⟨x, hx, hreference, rfl⟩) []
  · rw [insert_ok_iff, Option.eq_none_iff_forall_ne_some]
    constructor
    · intro hfree x hx hreference
      exact hfree x.id ((insert_error_iff e x.id).1 ((hholder x.id).2 ⟨x, hx, hreference, rfl⟩))
    · intro hfree holder htaken
      obtain ⟨x, hx, hreference, -⟩ := (hholder holder).1 ((insert_error_iff e holder).2 htaken)
      exact hfree x hx hreference
  · have hkeyed : t.Keyed := (written_of_write (w := .insert e) ht).keyed
      (keyed_writes keyed_empty before)
    obtain ⟨e', hlasting⟩ := (lasting_of_insert ht).writes hother
    refine ⟨e', hlasting.became, ?_, hlasting.stored, hlasting.findReference?⟩
    rw [(keyed_writes hkeyed later).list_filter, hlasting.stored]
    rfl

def row (id reference : String) : Entry :=
  { Ledger.newEntry Ledger.counting (Ledger.signup "ada") id (Ledger.counting.source.reading 1) with
    reference := reference }

/-- An insertion is not refused because of its identifier. The second entry takes the place of the
first, and the third is not found by its reference. -/
theorem insertion_replaced :
    let ws : List Write :=
      [.insert (row "entry-1" "a"), .insert (row "entry-1" "b"), .insert (row "" "c")]
    let s := writes ws empty
    (inserted ws empty).map (fun e => (e.id, e.reference)) =
      [("entry-1", "a"), ("entry-1", "b"), ("", "c")] ∧
    s.list.map (fun e => (e.id, e.reference)) = [("entry-1", "b"), ("", "c")] ∧
    (s.find? "entry-1").map (·.reference) = some "b" ∧
    (s.findReference? "a").map (·.reference) = some "b" ∧
    (s.findReference? "c").isNone = true ∧
    ¬ ∀ e ∈ inserted ws empty, ∃ e', e.Became e' ∧ s.find? e.id = some e' ∧
      s.findReference? e.reference = some e' := by
  intro ws s
  have hfound : (s.find? "entry-1").map (·.reference) = some "b" := by decide +kernel
  refine ⟨by decide +kernel, by decide +kernel, hfound, by decide +kernel, by decide +kernel, ?_⟩
  intro hall
  obtain ⟨e', hbecame, hfind, -⟩ := hall (row "entry-1" "a") List.mem_cons_self
  have hid : s.find? "entry-1" = some e' := hfind
  rw [hid, hbecame] at hfound
  have hreference : "a" = "b" := Option.some.inj hfound
  exact absurd hreference (by decide)

/-- An entry is moved twice, and an insertion with its reference is refused. -/
theorem insertion_lasts_moved :
    let e := row "entry-1" "a"
    let at_ := Ledger.counting.source.reading 2
    let later : List Write := [.update "entry-1" .confirmed at_, .insert (row "entry-2" "a"),
      .insert (row "entry-2" "b"), .update "entry-1" .paid at_, .update "entry-3" .paid at_]
    ∃ t, empty.insert e = .ok t ∧ (inserted later t).map (·.id) = ["entry-2"] ∧
      ∃ e', e.Became e' ∧ e'.status = .paid ∧ (writes later t).find? "entry-1" = some e' ∧
        (writes later t).findReference? "a" = some e' := by
  intro e at_ later
  obtain ⟨-, -, hok, hlasts⟩ := insertion_lasts [] e
  obtain ⟨t, ht⟩ := hok.2 fun _ hx => absurd hx List.not_mem_nil
  have hinserted : (empty.insert e).toOption.map (fun t => (inserted later t).map (·.id)) =
      some ["entry-2"] := by
    decide +kernel
  have hstatus : (empty.insert e).toOption.bind
      (fun t => ((writes later t).find? "entry-1").map (·.status)) = some .paid := by
    decide +kernel
  have ht' : empty.insert e = .ok t := ht
  rw [ht'] at hinserted hstatus
  have hids : (inserted later t).map (·.id) = ["entry-2"] := Option.some.inj hinserted
  have hother : ∀ x ∈ inserted later t, x.id ≠ e.id := by
    intro x hx
    have hid : x.id ∈ (inserted later t).map (·.id) := List.mem_map_of_mem hx
    rw [hids, List.mem_singleton] at hid
    rw [hid]
    decide
  obtain ⟨e', hbecame, -, hfind, hreference⟩ := hlasts t ht later hother
  have hfind' : (writes later t).find? "entry-1" = some e' := hfind
  have hpaid : ((writes later t).find? "entry-1").map (·.status) = some .paid := hstatus
  rw [hfind'] at hpaid
  exact ⟨t, ht, hids, e', hbecame, Option.some.inj hpaid, hfind', hreference (by decide)⟩

end Referral.Store
