import Referral.Ledger.Service
import Referral.Proofs.Ledger.Journal

namespace Referral

namespace LedgerState

/-- No transaction is open, and no look-up misses a row. -/
structure Quiet (s : LedgerState) : Prop where
  closed : s.store.journal = none
  prompt : s.staleReads = 0

def entered (s : LedgerState) : LedgerState := { s with store := s.store.openScope.2 }

def opened (s : LedgerState) : LedgerState :=
  { s with store := { s.store with journal := some [] } }

def closed (s : LedgerState) : LedgerState := { s with store := { s.store with journal := none } }

def nextId (config : LedgerConfig) (s : LedgerState) : String :=
  config.source.id "entry" (s.supply.ids + 1)

def nextTime (config : LedgerConfig) (s : LedgerState) : Timestamp :=
  config.source.reading (s.supply.readings + 1)

def ticked (s : LedgerState) : LedgerState :=
  { s with supply := ⟨s.supply.ids, s.supply.readings + 1⟩ }

def drawn (s : LedgerState) : LedgerState :=
  { s with supply := ⟨s.supply.ids + 1, s.supply.readings + 1⟩ }

end LedgerState

def Store.add (e : Entry) (s : Store) : Store :=
  (s.writeEntry e.id e).writeReference e.reference e.id

namespace Ledger

open LedgerState

variable {α β : Type} {s t : LedgerState}

theorem bind_ok {x : LedgerM α} {a : α} (h : x s = (.ok a, t)) (f : α → LedgerM β) :
    (x >>= f) s = f a t := by
  change ExceptT.bindCont f (x s).1 (x s).2 = _
  rw [h]
  rfl

theorem bind_error {x : LedgerM α} {fault : LedgerError} (h : x s = (.error fault, t))
    (f : α → LedgerM β) : (x >>= f) s = (.error fault, t) := by
  change ExceptT.bindCont f (x s).1 (x s).2 = _
  rw [h]
  rfl

theorem readClock_apply (config : LedgerConfig) (s : LedgerState) :
    readClock config s = (.ok (s.nextTime config), s.ticked) := rfl

theorem takeId_apply (config : LedgerConfig) (s : LedgerState) :
    takeId config s.ticked = (.ok (s.nextId config), s.drawn) := rfl

theorem findReference_prompt {reference : String} {row : Option Entry} (h : s.staleReads = 0)
    (hrow : s.store.findReference? reference = row) : findReference reference s = (.ok row, s) := by
  simp [findReference, h, hrow]

theorem insert_free {e : Entry} (h : s.store.references.get? e.reference = none) :
    insert e s = (.ok none, { s with store := s.store.add e }) := by
  simp [insert, Store.insert, Store.add, h, pure, Except.pure]

theorem insert_taken {e : Entry} {holder : String}
    (h : s.store.references.get? e.reference = some holder) :
    insert e s = (.ok (some (.duplicateReference e.reference holder)), s) := by
  simp [insert, Store.insert, h, throw, throwThe, MonadExceptOf.throw]

theorem find_present {id : String} {e : Entry} (h : s.store.find? id = some e) :
    find id s = (.ok e, s) := by
  simp [find, h]

theorem find_absent {id : String} (h : s.store.find? id = none) :
    find id s = (.error (.entryNotFound id), s) := by
  simp [find, h]

theorem update_present {id : String} {status : Status} {at_ : Timestamp} {e : Entry}
    (h : s.store.find? id = some e) :
    update id status at_ s = (.ok (e.withStatus status at_),
      { s with store := s.store.writeEntry id (e.withStatus status at_) }) := by
  simp [update, Store.update, h, pure, Except.pure]

theorem checkMove_apply {e : Entry} {target : Status} {result : Except LedgerError Unit}
    (h : e.checkMove target = result) (s : LedgerState) : checkMove e target s = (result, s) := by
  rw [checkMove, h]

theorem transaction_kept {body : LedgerM α} {a : α} (h : body s.entered = (.ok a, t)) :
    transaction body s =
      (.ok a, { t with store := t.store.closeScope s.store.openScope.1 false }) := by
  rw [entered] at h
  simp only [transaction, h]

theorem transaction_undone {body : LedgerM α} {fault : LedgerError}
    (h : body s.entered = (.error fault, t)) (hf : s.entered.store.Follows t.store) :
    transaction body s = (.error fault, { t with store := s.store }) := by
  have hstore : t.store.closeScope s.store.openScope.1 true = s.store :=
    Store.closeScope_failed hf
  rw [entered] at h
  simp only [transaction, h, hstore]

theorem entered_of_closed (hs : s.store.journal = none) : s.entered = s.opened := by
  rw [entered, Store.openScope_of_none hs]
  rfl

theorem transaction_ok {body : LedgerM α} {a : α} (hs : s.store.journal = none)
    (h : body s.opened = (.ok a, t)) : transaction body s = (.ok a, t.closed) := by
  rw [← entered_of_closed hs] at h
  rw [transaction_kept h, Store.closeScope_kept, if_pos hs]
  rfl

theorem transaction_error {body : LedgerM α} {fault : LedgerError} (hs : s.store.journal = none)
    (hf : s.opened.store.Follows t.store) (h : body s.opened = (.error fault, t)) :
    transaction body s = (.error fault, { t with store := s.store }) := by
  rw [← entered_of_closed hs] at h hf
  exact transaction_undone h hf

theorem closed_opened (hs : s.store.journal = none) : s.opened.closed = s := by
  cases s with
  | mk store supply staleReads =>
      cases store
      simp_all [opened, closed]

theorem closed_writeEntry (hs : s.store.journal = none) (id : String) (e : Entry) :
    ({ s with store := s.opened.store.writeEntry id e } : LedgerState).closed =
      { s with store := s.store.writeEntry id e } := by
  simp [closed, opened, Store.writeEntry, hs]

theorem closed_add (hs : s.store.journal = none) (e : Entry) :
    ({ s with store := s.opened.store.add e } : LedgerState).closed =
      { s with store := s.store.add e } := by
  simp [closed, opened, Store.add, Store.writeEntry, Store.writeReference, hs]

theorem closed_writeEntry_add (hs : s.store.journal = none) (id : String) (e against : Entry) :
    ({ s with store := (s.opened.store.writeEntry id e).add against } : LedgerState).closed =
      { s with store := (s.store.writeEntry id e).add against } := by
  simp [closed, opened, Store.add, Store.writeEntry, Store.writeReference, hs]

theorem create_duplicate (config : LedgerConfig) {request : RewardRequest} {e : Entry}
    (hq : s.Quiet) (hfound : s.store.findReference? request.reference = some e) :
    create config request s = (.ok (.duplicate e), s) := by
  refine (transaction_ok hq.closed ?_).trans (congrArg _ (closed_opened hq.closed))
  rw [bind_ok (findReference_prompt (s := s.opened) hq.prompt hfound)]
  rfl

theorem create_created (config : LedgerConfig) {request : RewardRequest} (hq : s.Quiet)
    (habsent : s.store.findReference? request.reference = none)
    (hfree : s.store.references.get? request.reference = none) (e : Entry)
    (he : e = newEntry config request (s.nextId config) (s.nextTime config)) :
    create config request s = (.ok (.created e), { s.drawn with store := s.store.add e }) := by
  subst he
  refine (transaction_ok hq.closed ?_).trans
    (congrArg _ (closed_add (s := s.drawn) hq.closed _))
  rw [bind_ok (findReference_prompt (s := s.opened) hq.prompt habsent)]
  dsimp only
  rw [bind_ok (readClock_apply config s.opened), bind_ok (takeId_apply config s.opened),
    bind_ok (insert_free (s := s.opened.drawn)
      (e := newEntry config request (s.opened.nextId config) (s.opened.nextTime config)) hfree)]
  rfl

theorem transaction_missing {id : String} (hq : s.Quiet) (h : s.store.find? id = none)
    (next : Entry → LedgerM α) :
    transaction (find id >>= next) s = (.error (.entryNotFound id), s) :=
  transaction_error (t := s.opened) hq.closed (.refl _)
    (bind_error (find_absent (s := s.opened) h) next)

theorem transaction_refused {id : String} {target : Status} {e : Entry} {fault : LedgerError}
    (hq : s.Quiet) (hfind : s.store.find? id = some e) (hmove : e.checkMove target = .error fault)
    (next : Entry → Unit → LedgerM α) :
    transaction (find id >>= fun e => checkMove e target >>= next e) s = (.error fault, s) := by
  refine transaction_error (t := s.opened) hq.closed (.refl _) ?_
  rw [bind_ok (find_present (s := s.opened) hfind)]
  exact bind_error (checkMove_apply hmove s.opened) _

theorem moveTo_missing (config : LedgerConfig) {id : String} {target : Status} (hq : s.Quiet)
    (h : s.store.find? id = none) :
    moveTo config id target s = (.error (.entryNotFound id), s) :=
  transaction_missing hq h _

theorem moveTo_refused (config : LedgerConfig) {id : String} {target : Status} {e : Entry}
    {fault : LedgerError} (hq : s.Quiet) (hfind : s.store.find? id = some e)
    (hmove : e.checkMove target = .error fault) :
    moveTo config id target s = (.error fault, s) :=
  transaction_refused hq hfind hmove _

theorem moveTo_moved (config : LedgerConfig) {id : String} {target : Status} {e : Entry}
    (hq : s.Quiet) (hfind : s.store.find? id = some e) (hmove : e.checkMove target = .ok ()) :
    moveTo config id target s = (.ok (e.withStatus target (s.nextTime config)),
      { s.ticked with
        store := s.store.writeEntry id (e.withStatus target (s.nextTime config)) }) := by
  refine (transaction_ok hq.closed ?_).trans
    (congrArg _ (closed_writeEntry (s := s.ticked) hq.closed id _))
  rw [bind_ok (find_present (s := s.opened) hfind), bind_ok (checkMove_apply hmove s.opened),
    bind_ok (readClock_apply config s.opened), update_present (s := s.opened.ticked) hfind]
  rfl

theorem reverse_missing (config : LedgerConfig) {id : String} (reason : Option String)
    (hq : s.Quiet) (h : s.store.find? id = none) :
    reverse config id reason s = (.error (.entryNotFound id), s) :=
  transaction_missing hq h _

theorem reverse_refused (config : LedgerConfig) {id : String} (reason : Option String) {e : Entry}
    {fault : LedgerError} (hq : s.Quiet) (hfind : s.store.find? id = some e)
    (hmove : e.checkMove .reversed = .error fault) :
    reverse config id reason s = (.error fault, s) :=
  transaction_refused hq hfind hmove _

theorem reverse_clash (config : LedgerConfig) {id holder : String} (reason : Option String)
    {e : Entry} (hq : s.Quiet) (hfind : s.store.find? id = some e)
    (hmove : e.checkMove .reversed = .ok ())
    (htaken : s.store.references.get? (reversalReference e.id) = some holder) :
    reverse config id reason s =
      (.error (.duplicateReference (reversalReference e.id) holder), s.drawn) := by
  have hfollows := Store.follows_writeEntry s.opened.store id
    (e.withStatus .reversed (s.nextTime config))
  refine transaction_error hq.closed (t := { s.drawn with store := _ }) hfollows ?_
  rw [bind_ok (find_present (s := s.opened) hfind), bind_ok (checkMove_apply hmove s.opened),
    bind_ok (readClock_apply config s.opened), bind_ok (takeId_apply config s.opened),
    bind_ok (update_present (s := s.opened.drawn) hfind), bind_ok (insert_taken htaken)]
  rfl

theorem reverse_reversed (config : LedgerConfig) {id : String} (reason : Option String) {e : Entry}
    (hq : s.Quiet) (hfind : s.store.find? id = some e) (hmove : e.checkMove .reversed = .ok ())
    (hfree : s.store.references.get? (reversalReference e.id) = none) (moved against : Entry)
    (hmoved : moved = e.withStatus .reversed (s.nextTime config))
    (hagainst : against = e.reversal (s.nextId config) (.ofOption reason) (s.nextTime config)) :
    reverse config id reason s = (.ok (.reversed moved against),
      { s.drawn with store := (s.store.writeEntry id moved).add against }) := by
  subst hmoved hagainst
  refine (transaction_ok hq.closed ?_).trans
    (congrArg _ (closed_writeEntry_add (s := s.drawn) hq.closed id _ _))
  rw [bind_ok (find_present (s := s.opened) hfind), bind_ok (checkMove_apply hmove s.opened),
    bind_ok (readClock_apply config s.opened), bind_ok (takeId_apply config s.opened),
    bind_ok (update_present (s := s.opened.drawn) hfind), bind_ok (insert_free hfree)]
  rfl

end Ledger

end Referral
