import Referral.Proofs.Ledger.Alike
import Referral.Proofs.Ledger.Reversal

namespace Referral.Ledger

variable (config : LedgerConfig) {s : LedgerState}

/-- How a command may end outside a transaction. -/
inductive Ending (s : LedgerState) : Except LedgerError Receipt → LedgerState → Prop
  | refused (fault : LedgerError) : Ending s (.error fault) s
  | clashed (reference holder : String) :
      Ending s (.error (.duplicateReference reference holder)) s.drawn
  | done {receipt : Receipt} {t : LedgerState} (quiet : t.Quiet)
      (later : s.supply.readings ≤ t.supply.readings) : Ending s (.ok receipt) t

theorem quiet_writeEntry (hq : s.Quiet) (id : String) (e : Entry) (supply : Supply) :
    ({ s with store := s.store.writeEntry id e, supply := supply } : LedgerState).Quiet :=
  ⟨by simp [Store.writeEntry, hq.closed], hq.prompt⟩

theorem quiet_add (hq : s.Quiet) (e : Entry) (supply : Supply) :
    ({ s with store := s.store.add e, supply := supply } : LedgerState).Quiet :=
  ⟨by simp [Store.add, Store.writeEntry, Store.writeReference, hq.closed], hq.prompt⟩

theorem create_clash (config : LedgerConfig) {request : RewardRequest} {holder : String}
    (hq : s.Quiet) (habsent : s.store.findReference? request.reference = none)
    (htaken : s.store.references.get? request.reference = some holder) :
    create config request s =
      (.error (.duplicateReference request.reference holder), s.drawn) := by
  refine transaction_error (t := s.opened.drawn) hq.closed (.refl _) ?_
  have htaken' : s.opened.drawn.store.references.get?
      (newEntry config request (s.opened.nextId config) (s.opened.nextTime config)).reference =
      some holder := htaken
  rw [bind_ok (findReference_prompt (s := s.opened) hq.prompt habsent)]
  dsimp only
  rw [bind_ok (readClock_apply config s.opened), bind_ok (takeId_apply config s.opened),
    bind_ok (insert_taken htaken')]
  dsimp only
  rw [bind_ok (findReference_prompt (s := s.opened.drawn) hq.prompt habsent)]
  rfl

inductive Making (config : LedgerConfig) (s : LedgerState) (request : RewardRequest) :
    Except LedgerError Receipt → LedgerState → Prop
  | found {e : Entry} (found : s.store.findReference? request.reference = some e) :
      Making config s request (.ok (.duplicate e)) s
  | clashed {holder : String} (absent : s.store.findReference? request.reference = none)
      (taken : s.store.references.get? request.reference = some holder) :
      Making config s request (.error (.duplicateReference request.reference holder)) s.drawn
  | created {e : Entry} (absent : s.store.findReference? request.reference = none)
      (free : s.store.references.get? request.reference = none)
      (same : e.reference = request.reference) :
      Making config s request (.ok (.created e)) { s.drawn with store := s.store.add e }

theorem create_making (hq : s.Quiet) (request : RewardRequest) :
    Making config s request (create config request s).1 (create config request s).2 := by
  cases hfound : s.store.findReference? request.reference with
  | some e =>
      rw [create_duplicate config hq hfound]
      exact .found hfound
  | none =>
      cases hholder : s.store.references.get? request.reference with
      | some holder =>
          rw [create_clash config hq hfound hholder]
          exact .clashed hfound hholder
      | none =>
          rw [create_created config hq hfound hholder _ rfl]
          exact .created hfound hholder rfl

theorem create_ending (hq : s.Quiet) (request : RewardRequest) :
    Ending s (create config request s).1 (create config request s).2 := by
  have hmaking := create_making config hq request
  rcases hcreate : create config request s with ⟨result, t⟩
  rw [hcreate] at hmaking
  cases hmaking with
  | found found => exact .done hq (Nat.le_refl _)
  | clashed absent taken => exact .clashed _ _
  | created absent free same => exact .done (quiet_add hq _ _) (Nat.le_succ _)

theorem moveTo_ending (hq : s.Quiet) (id : String) (target : Status) :
    (∃ fault, moveTo config id target s = (.error fault, s)) ∨
      ∃ e t, moveTo config id target s = (.ok e, t) ∧ t.Quiet ∧
        s.supply.readings ≤ t.supply.readings := by
  cases hfind : s.store.find? id with
  | none => exact .inl ⟨_, moveTo_missing config hq hfind⟩
  | some e =>
      cases hmove : e.checkMove target with
      | error fault => exact .inl ⟨fault, moveTo_refused config hq hfind hmove⟩
      | ok _ =>
          exact .inr ⟨_, _, moveTo_moved config hq hfind hmove, quiet_writeEntry hq _ _ _,
            Nat.le_succ _⟩

theorem reverse_ending (hq : s.Quiet) (id : String) (reason : Option String) :
    Ending s (reverse config id reason s).1 (reverse config id reason s).2 := by
  cases hfind : s.store.find? id with
  | none =>
      rw [reverse_missing config reason hq hfind]
      exact .refused _
  | some e =>
      cases hmove : e.checkMove .reversed with
      | error fault =>
          rw [reverse_refused config reason hq hfind hmove]
          exact .refused fault
      | ok _ =>
          cases hholder : s.store.references.get? (reversalReference e.id) with
          | some holder =>
              rw [reverse_clash config reason hq hfind hmove hholder]
              exact .clashed _ holder
          | none =>
              rw [reverse_reversed config reason hq hfind hmove hholder _ _ rfl rfl]
              exact .done (quiet_add (quiet_writeEntry hq _ _ s.supply) _ _) (Nat.le_succ _)

theorem perform_ending (hq : s.Quiet) (c : Command) :
    Ending s (perform config c s).1 (perform config c s).2 := by
  cases c with
  | create request => exact create_ending config hq request
  | createFromAction action =>
      cases hrequest : actionRequest action with
      | error fault =>
          rw [perform, createFromAction_error config hrequest]
          exact .refused fault
      | ok request =>
          rw [perform_request config (request?_createFromAction_iff.2 hrequest)]
          exact create_ending config hq request
  | confirm id =>
      obtain ⟨fault, h⟩ | ⟨e, t, h, hquiet, hlater⟩ := moveTo_ending config hq id .confirmed
      · rw [perform, confirm, bind_error h]
        exact .refused fault
      · rw [perform, confirm, bind_ok h]
        exact .done hquiet hlater
  | pay id =>
      obtain ⟨fault, h⟩ | ⟨e, t, h, hquiet, hlater⟩ := moveTo_ending config hq id .paid
      · rw [perform, pay, bind_error h]
        exact .refused fault
      · rw [perform, pay, bind_ok h]
        exact .done hquiet hlater
  | reverse id reason => exact reverse_ending config hq id reason

theorem Ending.quiet {result : Except LedgerError Receipt} {t : LedgerState}
    (h : Ending s result t) (hq : s.Quiet) : t.Quiet := by
  cases h with
  | refused fault => exact hq
  | clashed reference holder => exact ⟨hq.closed, hq.prompt⟩
  | done quiet later => exact quiet

theorem Ending.readings_le {result : Except LedgerError Receipt} {t : LedgerState}
    (h : Ending s result t) : s.supply.readings ≤ t.supply.readings := by
  cases h with
  | refused fault => exact Nat.le_refl _
  | clashed reference holder => exact Nat.le_succ _
  | done quiet later => exact later

theorem Ending.of_error {fault : LedgerError} {t : LedgerState} (h : Ending s (.error fault) t) :
    t = s ∨ (∃ reference holder, fault = .duplicateReference reference holder) ∧ t = s.drawn := by
  cases h with
  | refused fault => exact .inl rfl
  | clashed reference holder => exact .inr ⟨⟨reference, holder, rfl⟩, rfl⟩

theorem quiet_after (hq : s.Quiet) (cs : List Command) : (after config cs s).Quiet := by
  induction cs generalizing s with
  | nil => exact hq
  | cons c cs ih => exact ih ((perform_ending config hq c).quiet hq)

/-- A command that is refused after any run leaves both tables and their order as they were, and no
journal. It has taken nothing from the source, or, where a new row found its reference taken, an
identifier and a reading. All commands after it are answered, and leave the store, as they would
have without it from a source that never held what it took. -/
theorem refused_leaves_no_trace (config : LedgerConfig) (supply : Supply) (cs : List Command)
    (c : Command) {fault : LedgerError} {t : LedgerState}
    (h : perform config c (after config cs (start supply)) = (.error fault, t)) :
    let s := after config cs (start supply)
    t.store = s.store ∧ t.store.journal = none ∧
    (t = s ∨ (∃ reference holder, fault = .duplicateReference reference holder) ∧ t = s.drawn) ∧
    ∀ ds, answers config ds t = answers (config.without s.supply t.supply) ds s ∧
      (after config ds t).store = (after (config.without s.supply t.supply) ds s).store := by
  intro s
  have hquiet : s.Quiet := quiet_after config ⟨rfl, rfl⟩ cs
  have hending : Ending s (.error fault) t := by
    simpa only [s, h] using perform_ending config hquiet c
  have ht := hending.of_error
  have hstore : t.store = s.store := by
    rcases ht with rfl | ⟨-, rfl⟩ <;> rfl
  refine ⟨hstore, (hending.quiet hquiet).closed, ht, fun ds => ?_⟩
  let missing := config.without s.supply t.supply
  have halike : LedgerState.Alike config.source missing.source t s := by
    rcases ht with rfl | ⟨-, rfl⟩
    · exact alike_without config.source rfl rfl (Nat.le_refl _) (Nat.le_refl _)
    · exact alike_without config.source rfl rfl (Nat.le_succ _) (Nat.le_succ _)
  have hcurrency : config.defaultCurrency = missing.defaultCurrency := rfl
  obtain ⟨hanswers, hafter⟩ := answers_of_alike hcurrency ds halike
  exact ⟨hanswers, hafter.store⟩

/-- The reversal of the first reward takes an identifier and a reading before it fails. -/
theorem refused_leaves_no_trace_clashing :
    let s := after counting (clashing.take 2) (start .fresh)
    let c := Command.reverse "entry-00000000000000000000000000000001" none
    ∃ fault t, perform counting c s = (.error fault, t) ∧ t.supply = ⟨3, 3⟩ ∧
      t.store = s.store ∧ t.store.journal = none ∧
      ∀ ds, answers counting ds t = answers (counting.without ⟨2, 2⟩ ⟨3, 3⟩) ds s := by
  intro s c
  have hfails : (perform counting c s).1.isOk = false := by decide +kernel
  have hbefore : s.supply = ⟨2, 2⟩ := by decide +kernel
  have hafter : (perform counting c s).2.supply = ⟨3, 3⟩ := by decide +kernel
  rcases hperform : perform counting c s with ⟨fault | receipt, t⟩
  · rw [hperform] at hafter
    obtain ⟨hstore, hjournal, -, hlater⟩ :=
      refused_leaves_no_trace counting .fresh (clashing.take 2) c hperform
    refine ⟨fault, t, rfl, hafter, hstore, hjournal, fun ds => ?_⟩
    rw [← hbefore, ← hafter]
    exact (hlater ds).1
  · rw [hperform] at hfails
    cases hfails

end Referral.Ledger
