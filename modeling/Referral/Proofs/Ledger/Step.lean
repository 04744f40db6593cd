import Referral.Proofs.Ledger.Index
import Referral.Proofs.Supply

namespace Referral

namespace Ledger

def Command.request? : Command → Option RewardRequest
  | .create request => some request
  | .createFromAction action => (actionRequest action).toOption
  | _ => none

theorem request?_createFromAction_iff {a : ActionReward} {request : RewardRequest} :
    (Command.createFromAction a).request? = some request ↔ actionRequest a = .ok request := by
  rw [Command.request?]
  cases actionRequest a with
  | error fault => simp [Except.toOption]
  | ok other => simp [Except.toOption]

def replaceBy (e : Entry) (rows : List Entry) : List Entry :=
  rows.map fun x => if x.id = e.id then e else x

end Ledger

namespace Receipt

def writeTo : Receipt → Store → Store
  | created e, s => s.add e
  | duplicate _, s => s
  | confirmed e, s | paid e, s => s.writeEntry e.id e
  | reversed e against, s => (s.writeEntry e.id e).add against

def listIn : Receipt → List Entry → List Entry
  | created e, rows => rows ++ [e]
  | duplicate _, rows => rows
  | confirmed e, rows | paid e, rows => Ledger.replaceBy e rows
  | reversed e against, rows => Ledger.replaceBy e rows ++ [against]

def takenFrom : Receipt → Supply → Supply
  | created _, s | reversed _ _, s => ⟨s.ids + 1, s.readings + 1⟩
  | duplicate _, s => s
  | confirmed _, s | paid _, s => ⟨s.ids, s.readings + 1⟩

def applyTo (r : Receipt) (s : LedgerState) : LedgerState :=
  { s with store := r.writeTo s.store, supply := r.takenFrom s.supply }

end Receipt

namespace Ledger

/-- The receipts that a command may have in a state, with what has to hold for each. -/
inductive Answers (config : LedgerConfig) (s : LedgerState) : Command → Receipt → Prop
  | created {c request} (asks : c.request? = some request)
      (free : ∀ x ∈ s.store.list, x.reference ≠ request.reference) :
      Answers config s c
        (.created (newEntry config request (s.nextId config) (s.nextTime config)))
  | duplicate {c request e} (asks : c.request? = some request) (stored : e ∈ s.store.list)
      (same : e.reference = request.reference) : Answers config s c (.duplicate e)
  | confirmed {e} (stored : e ∈ s.store.list) (pending : e.status = .pending) :
      Answers config s (.confirm e.id)
        (.confirmed (e.withStatus .confirmed (s.nextTime config)))
  | paid {e} (stored : e ∈ s.store.list) (confirmed : e.status = .confirmed) :
      Answers config s (.pay e.id) (.paid (e.withStatus .paid (s.nextTime config)))
  | reversed {e} (reason : Option String) (stored : e ∈ s.store.list)
      (live : e.status ≠ .reversed)
      (free : ∀ x ∈ s.store.list, x.reference ≠ reversalReference e.id) :
      Answers config s (.reverse e.id reason)
        (.reversed (e.withStatus .reversed (s.nextTime config))
          (e.reversal (s.nextId config) (.ofOption reason) (s.nextTime config)))

/-- A command is answered by a receipt, which tells all that has changed, or it is refused and has
at most taken something from the source. -/
inductive Step (config : LedgerConfig) (s : LedgerState) (c : Command) :
    Except LedgerError Receipt → LedgerState → Prop
  | refused (fault : LedgerError) (supply : Supply) (more : s.supply.ids ≤ supply.ids) :
      Step config s c (.error fault) { s with supply := supply }
  | answered {receipt : Receipt} (h : Answers config s c receipt) :
      Step config s c (.ok receipt) (receipt.applyTo s)

/-- Both tables agree, and each entry has an identifier that was given out. -/
structure Consistent (config : LedgerConfig) (s : LedgerState) : Prop where
  quiet : s.Quiet
  indexed : s.store.Indexed
  issued : ∀ e ∈ s.store.list, ∃ n ≤ s.supply.ids, e.id = config.source.id "entry" n

variable {config : LedgerConfig} {s : LedgerState}

namespace Consistent

theorem ne_nextId (hs : Consistent config s) (hd : config.source.Distinct) {e : Entry}
    (he : e ∈ s.store.list) : e.id ≠ s.nextId config := by
  obtain ⟨n, hn, hid⟩ := hs.issued e he
  rw [hid]
  exact Source.id_ne_of_lt hd "entry" (Nat.lt_succ_of_le hn)

theorem later (hs : Consistent config s) {supply : Supply} (more : s.supply.ids ≤ supply.ids) :
    Consistent config { s with supply := supply } := by
  refine ⟨⟨hs.quiet.closed, hs.quiet.prompt⟩, hs.indexed, fun e he => ?_⟩
  obtain ⟨n, hn, hid⟩ := hs.issued e he
  exact ⟨n, Nat.le_trans hn more, hid⟩

theorem id_ne_empty (hs : Consistent config s) {e : Entry} (he : e ∈ s.store.list) : e.id ≠ "" := by
  obtain ⟨n, -, hid⟩ := hs.issued e he
  exact hid ▸ config.source.id_ne_empty "entry" n

end Consistent

theorem canBecome_confirmed_iff (status : Status) :
    status.canBecome .confirmed = true ↔ status = .pending := by
  cases status <;> decide

theorem canBecome_paid_iff (status : Status) :
    status.canBecome .paid = true ↔ status = .confirmed := by
  cases status <;> decide

theorem canBecome_reversed_iff (status : Status) :
    status.canBecome .reversed = true ↔ status ≠ .reversed := by
  cases status <;> decide

theorem canBecome_of_checkMove {e : Entry} {target : Status} (h : e.checkMove target = .ok ()) :
    e.status.canBecome target = true := by
  rw [Entry.checkMove] at h
  split at h
  · cases h
  · split at h
    next hcan => exact hcan
    · cases h

theorem create_step (hs : Consistent config s) {c : Command} {request : RewardRequest}
    (hc : c.request? = some request) :
    Step config s c (create config request s).1 (create config request s).2 := by
  by_cases h : ∃ e ∈ s.store.list, e.reference = request.reference
  · obtain ⟨e, he, hsame⟩ := h
    have hfound := hs.indexed.findReference?_eq_some he (hs.id_ne_empty he)
    rw [create_duplicate config hs.quiet (hsame ▸ hfound)]
    exact .answered (.duplicate hc he hsame)
  · simp only [not_exists, not_and] at h
    rw [create_created config hs.quiet (hs.indexed.findReference?_eq_none h)
      ((hs.indexed.holder_eq_none_iff _).2 h) _ rfl]
    exact .answered (.created hc h)

theorem moveTo_step (hs : Consistent config s) (id : String) (target : Status) :
    (∃ fault, moveTo config id target s = (.error fault, s)) ∨
      ∃ e ∈ s.store.list, e.id = id ∧ e.status.canBecome target = true ∧
        moveTo config id target s = (.ok (e.withStatus target (s.nextTime config)),
          { s.ticked with
            store := s.store.writeEntry id (e.withStatus target (s.nextTime config)) }) := by
  cases hfind : s.store.find? id with
  | none => exact .inl ⟨_, moveTo_missing config hs.quiet hfind⟩
  | some e =>
      obtain ⟨he, hid⟩ := (hs.indexed.find?_eq_some_iff id e).1 hfind
      cases hmove : e.checkMove target with
      | error fault => exact .inl ⟨fault, moveTo_refused config hs.quiet hfind hmove⟩
      | ok _ =>
          exact .inr ⟨e, he, hid, canBecome_of_checkMove hmove,
            moveTo_moved config hs.quiet hfind hmove⟩

theorem confirm_step (hs : Consistent config s) (id : String) :
    Step config s (.confirm id) (confirm config id s).1 (confirm config id s).2 := by
  obtain ⟨fault, h⟩ | ⟨e, he, rfl, hcan, h⟩ := moveTo_step hs id .confirmed
  · rw [confirm, bind_error h]
    exact .refused fault s.supply (Nat.le_refl _)
  · rw [confirm, bind_ok h]
    exact .answered (.confirmed he ((canBecome_confirmed_iff _).1 hcan))

theorem pay_step (hs : Consistent config s) (id : String) :
    Step config s (.pay id) (pay config id s).1 (pay config id s).2 := by
  obtain ⟨fault, h⟩ | ⟨e, he, rfl, hcan, h⟩ := moveTo_step hs id .paid
  · rw [pay, bind_error h]
    exact .refused fault s.supply (Nat.le_refl _)
  · rw [pay, bind_ok h]
    exact .answered (.paid he ((canBecome_paid_iff _).1 hcan))

theorem reverse_step (hs : Consistent config s) (id : String) (reason : Option String) :
    Step config s (.reverse id reason) (reverse config id reason s).1
      (reverse config id reason s).2 := by
  cases hfind : s.store.find? id with
  | none =>
      rw [reverse_missing config reason hs.quiet hfind]
      exact .refused _ s.supply (Nat.le_refl _)
  | some e =>
      obtain ⟨he, rfl⟩ := (hs.indexed.find?_eq_some_iff id e).1 hfind
      cases hmove : e.checkMove .reversed with
      | error fault =>
          rw [reverse_refused config reason hs.quiet hfind hmove]
          exact .refused fault s.supply (Nat.le_refl _)
      | ok _ =>
          have hlive := (canBecome_reversed_iff _).1 (canBecome_of_checkMove hmove)
          cases hholder : s.store.references.get? (reversalReference e.id) with
          | some holder =>
              rw [reverse_clash config reason hs.quiet hfind hmove hholder]
              exact .refused _ s.drawn.supply (Nat.le_succ _)
          | none =>
              rw [reverse_reversed config reason hs.quiet hfind hmove hholder _ _ rfl rfl]
              have hfree := (hs.indexed.holder_eq_none_iff _).1 hholder
              exact .answered (.reversed reason he hlive hfree)

theorem liftM_apply (x : Except LedgerError RewardRequest) (s : LedgerState) :
    (liftM x : LedgerM RewardRequest) s = (x, s) := by
  cases x <;> rfl

theorem createFromAction_error (config : LedgerConfig) {a : ActionReward} {fault : LedgerError}
    (h : actionRequest a = .error fault) (s : LedgerState) :
    createFromAction config a s = (.error fault, s) := by
  rw [createFromAction, h]
  exact bind_error (liftM_apply (.error fault) s) _

theorem perform_request (config : LedgerConfig) {c : Command} {request : RewardRequest}
    (h : c.request? = some request) (s : LedgerState) :
    perform config c s = create config request s := by
  cases c with
  | create other =>
      cases h
      rfl
  | createFromAction action =>
      rw [perform, createFromAction, request?_createFromAction_iff.1 h]
      exact bind_ok (liftM_apply (.ok request) s) _
  | confirm id | pay id | reverse id reason => cases h

theorem perform_step (hs : Consistent config s) (c : Command) :
    Step config s c (perform config c s).1 (perform config c s).2 := by
  cases c with
  | create request => exact create_step hs rfl
  | createFromAction action =>
      cases hrequest : actionRequest action with
      | error fault =>
          rw [perform, createFromAction_error config hrequest]
          exact .refused fault s.supply (Nat.le_refl _)
      | ok request =>
          have hasks := request?_createFromAction_iff.2 hrequest
          rw [perform_request config hasks]
          exact create_step hs hasks
  | confirm id => exact confirm_step hs id
  | pay id => exact pay_step hs id
  | reverse id reason => exact reverse_step hs id reason

end Ledger

end Referral
