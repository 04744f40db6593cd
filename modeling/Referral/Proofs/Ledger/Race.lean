import Referral.Proofs.Ledger.Refusal

namespace Referral

/-- Each reference of the index leads to a stored entry. -/
def Store.Led (s : Store) : Prop :=
  ∀ reference, s.findReference? reference = none → s.references.get? reference = none

/-- The same state for a command whose first look-up by reference finds nothing, whatever is stored.
-/
def LedgerState.racing (s : LedgerState) : LedgerState := { s with staleReads := 1 }

namespace Store

variable {s : Store}

theorem led_empty : empty.Led := fun _ _ => rfl

theorem findReference?_eq_none_iff {reference id : String}
    (h : s.references.get? reference = some id) (hid : id ≠ "") :
    s.findReference? reference = none ↔ s.find? id = none := by
  simp [findReference?, h, hid]

theorem Led.id_ne_empty (hs : s.Led) {reference id : String}
    (h : s.references.get? reference = some id) : id ≠ "" := by
  rintro rfl
  have hnone := hs reference (by simp [findReference?, h])
  rw [hnone] at h
  cases h

theorem Led.exists_entry (hs : s.Led) {reference id : String}
    (h : s.references.get? reference = some id) : ∃ e, s.find? id = some e := by
  cases hfind : s.find? id with
  | some e => exact ⟨e, rfl⟩
  | none =>
      have hnone := hs reference ((findReference?_eq_none_iff h (hs.id_ne_empty h)).2 hfind)
      rw [hnone] at h
      cases h

theorem led_of_exists
    (h : ∀ reference id,
      s.references.get? reference = some id → id ≠ "" ∧ ∃ e, s.find? id = some e) :
    s.Led := by
  intro reference hmiss
  cases hholder : s.references.get? reference with
  | none => rfl
  | some id =>
      obtain ⟨hid, e, he⟩ := h reference id hholder
      rw [findReference?_eq_none_iff hholder hid, he] at hmiss
      cases hmiss

theorem exists_find?_put {id : String} (h : ∃ e, s.find? id = some e) (key : String) (e : Entry) :
    ∃ x, (s.entries.put key e).get? id = some x := by
  rw [Table.get?_put]
  by_cases heq : id = key
  · exact ⟨e, if_pos heq⟩
  · rw [if_neg heq]
    exact h

theorem Led.writeEntry (hs : s.Led) (id : String) (e : Entry) : (s.writeEntry id e).Led :=
  led_of_exists fun _ _ hholder =>
    ⟨hs.id_ne_empty hholder, exists_find?_put (hs.exists_entry hholder) id e⟩

theorem find?_add (s : Store) (e : Entry) : (s.add e).find? e.id = some e :=
  (Table.get?_put _ _ _ _).trans (if_pos rfl)

theorem Led.add (hs : s.Led) {e : Entry} (hid : e.id ≠ "") : (s.add e).Led := by
  refine led_of_exists fun reference id hholder => ?_
  have hput : (s.references.put e.reference e.id).get? reference = some id := hholder
  rw [Table.get?_put] at hput
  by_cases heq : reference = e.reference
  · rw [if_pos heq] at hput
    cases hput
    exact ⟨hid, e, find?_add s e⟩
  · rw [if_neg heq] at hput
    exact ⟨hs.id_ne_empty hput, exists_find?_put (hs.exists_entry hput) e.id e⟩

end Store

namespace Ledger

variable {s : LedgerState} (config : LedgerConfig)

theorem led_create (hq : s.Quiet) (hs : s.store.Led) (request : RewardRequest) :
    (create config request s).2.store.Led := by
  cases hfound : s.store.findReference? request.reference with
  | some e => rwa [create_duplicate config hq hfound]
  | none =>
      rw [create_created config hq hfound (hs _ hfound) _ rfl]
      exact hs.add (config.source.id_ne_empty "entry" _)

theorem led_moveTo (hq : s.Quiet) (hs : s.store.Led) (id : String) (target : Status) :
    (moveTo config id target s).2.store.Led := by
  cases hfind : s.store.find? id with
  | none => rwa [moveTo_missing config hq hfind]
  | some e =>
      cases hmove : e.checkMove target with
      | error fault => rwa [moveTo_refused config hq hfind hmove]
      | ok _ =>
          rw [moveTo_moved config hq hfind hmove]
          exact hs.writeEntry id _

theorem led_reverse (hq : s.Quiet) (hs : s.store.Led) (id : String) (reason : Option String) :
    (reverse config id reason s).2.store.Led := by
  cases hfind : s.store.find? id with
  | none => rwa [reverse_missing config reason hq hfind]
  | some e =>
      cases hmove : e.checkMove .reversed with
      | error fault => rwa [reverse_refused config reason hq hfind hmove]
      | ok _ =>
          cases hholder : s.store.references.get? (reversalReference e.id) with
          | some holder => rwa [reverse_clash config reason hq hfind hmove hholder]
          | none =>
              rw [reverse_reversed config reason hq hfind hmove hholder _ _ rfl rfl]
              exact (hs.writeEntry id _).add (config.source.id_ne_empty "entry" _)

theorem store_bind_pure {α β : Type} (x : LedgerM α) (f : α → β) (s : LedgerState) :
    ((x >>= fun a => pure (f a)) s).2 = (x s).2 := by
  rcases hx : x s with ⟨fault | a, t⟩
  · rw [bind_error hx]
  · rw [bind_ok hx]
    rfl

theorem led_perform (hq : s.Quiet) (hs : s.store.Led) (c : Command) :
    (perform config c s).2.store.Led := by
  cases c with
  | create request => exact led_create config hq hs request
  | createFromAction action =>
      cases hrequest : actionRequest action with
      | error fault => rwa [perform, createFromAction_error config hrequest]
      | ok request =>
          rw [perform_request config (request?_createFromAction_iff.2 hrequest)]
          exact led_create config hq hs request
  | confirm id =>
      rw [perform, confirm, store_bind_pure]
      exact led_moveTo config hq hs id .confirmed
  | pay id =>
      rw [perform, pay, store_bind_pure]
      exact led_moveTo config hq hs id .paid
  | reverse id reason => exact led_reverse config hq hs id reason

theorem led_after (hq : s.Quiet) (hs : s.store.Led) (cs : List Command) :
    (after config cs s).store.Led := by
  induction cs generalizing s with
  | nil => exact hs
  | cons c cs ih => exact ih ((perform_ending config hq c).quiet hq) (led_perform config hq hs c)

theorem findReference_stale (hq : s.Quiet) (reference : String) :
    findReference reference s.racing.opened = (.ok none, s.opened) := by
  rw [findReference, LedgerState.racing, LedgerState.opened, LedgerState.opened, hq.prompt]

theorem create_racing_duplicate {request : RewardRequest} {e : Entry} {holder : String}
    (hq : s.Quiet) (hfound : s.store.findReference? request.reference = some e)
    (htaken : s.store.references.get? request.reference = some holder) :
    create config request s.racing = (.ok (.duplicate e), s.drawn) := by
  refine (transaction_ok (s := s.racing) hq.closed ?_).trans
    (congrArg _ (closed_opened (s := s.drawn) hq.closed))
  have htaken' : s.opened.drawn.store.references.get?
      (newEntry config request (s.opened.nextId config) (s.opened.nextTime config)).reference =
      some holder := htaken
  rw [bind_ok (findReference_stale hq request.reference)]
  dsimp only
  rw [bind_ok (readClock_apply config s.opened), bind_ok (takeId_apply config s.opened),
    bind_ok (insert_taken htaken')]
  dsimp only
  rw [bind_ok (findReference_prompt (s := s.opened.drawn) hq.prompt hfound)]
  rfl

theorem create_racing_created {request : RewardRequest} (hq : s.Quiet)
    (hfree : s.store.references.get? request.reference = none) (e : Entry)
    (he : e = newEntry config request (s.nextId config) (s.nextTime config)) :
    create config request s.racing =
      (.ok (.created e), { s.drawn with store := s.store.add e }) := by
  subst he
  refine (transaction_ok (s := s.racing) hq.closed ?_).trans
    (congrArg _ (closed_add (s := s.drawn) hq.closed _))
  rw [bind_ok (findReference_stale hq request.reference)]
  dsimp only
  rw [bind_ok (readClock_apply config s.opened), bind_ok (takeId_apply config s.opened),
    bind_ok (insert_free (s := s.opened.drawn)
      (e := newEntry config request (s.opened.nextId config) (s.opened.nextTime config)) hfree)]
  rfl

theorem exists_create_racing (hq : s.Quiet) (hs : s.store.Led) (request : RewardRequest) :
    ∃ receipt t, create config request s = (.ok receipt, t) ∧
      create config request s.racing = (.ok receipt, { t with supply := s.drawn.supply }) ∧
      (t.supply = s.drawn.supply ∨ t = s) := by
  cases hholder : s.store.references.get? request.reference with
  | none =>
      have hmiss : s.store.findReference? request.reference = none := by
        simp [Store.findReference?, hholder]
      exact ⟨_, _, create_created config hq hmiss hholder _ rfl,
        create_racing_created config hq hholder _ rfl, .inl rfl⟩
  | some holder =>
      cases hfound : s.store.findReference? request.reference with
      | none =>
          rw [hs _ hfound] at hholder
          cases hholder
      | some e =>
          exact ⟨_, _, create_duplicate config hq hfound,
            create_racing_duplicate config hq hfound hholder, .inr rfl⟩

/-- After any run a reward is made or found, and a first look-up that misses has the same answer and
leaves the same rows in the same order: what differs is that the identifier and the reading of a new
entry are always taken. All that comes later is answered as without it, from a source that never
held what was taken in vain. -/
theorem create_racing_agrees (config : LedgerConfig) (supply : Supply) (cs : List Command)
    (request : RewardRequest) :
    let s := after config cs (start supply)
    let normal := create config request s
    let raced := create config request s.racing
    (∃ receipt, normal.1 = .ok receipt) ∧
    raced.1 = normal.1 ∧
    raced.2 = { normal.2 with supply := s.drawn.supply } ∧
    (normal.2.supply = s.drawn.supply ∨ normal.2 = s) ∧
    ∀ ds, answers config ds raced.2 =
        answers (config.without normal.2.supply raced.2.supply) ds normal.2 ∧
      (after config ds raced.2).store =
        (after (config.without normal.2.supply raced.2.supply) ds normal.2).store := by
  intro s normal raced
  have hq : s.Quiet := quiet_after config ⟨rfl, rfl⟩ cs
  have hs : s.store.Led := led_after config ⟨rfl, rfl⟩ Store.led_empty cs
  obtain ⟨receipt, t, hnormal, hraced, hsupply⟩ := exists_create_racing config hq hs request
  have hlater : t.supply.ids ≤ s.drawn.supply.ids ∧
      t.supply.readings ≤ s.drawn.supply.readings := by
    rcases hsupply with heq | rfl
    · rw [heq]
      exact ⟨Nat.le_refl _, Nat.le_refl _⟩
    · exact ⟨Nat.le_succ _, Nat.le_succ _⟩
  have halike := alike_without config.source (s := t) (t := { t with supply := s.drawn.supply })
    rfl rfl hlater.1 hlater.2
  have hcurrency : config.defaultCurrency =
      (config.without t.supply s.drawn.supply).defaultCurrency := rfl
  simp only [normal, raced, hnormal, hraced]
  refine ⟨⟨receipt, rfl⟩, trivial, trivial, hsupply, fun ds => ?_⟩
  obtain ⟨hanswers, hafter⟩ := answers_of_alike hcurrency ds halike
  exact ⟨hanswers, hafter.store⟩

end Ledger

end Referral
