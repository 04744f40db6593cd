import Referral.Proofs.Ledger.Journal

namespace Referral

structure Tables where
  entries : Table String Entry
  references : Table String String

namespace Tables

def store (t : Tables) : Store := ⟨t.entries, t.references, none⟩

def insert (e : Entry) (t : Tables) : Except LedgerError Tables :=
  match t.references.get? e.reference with
  | some holder => .error (.duplicateReference e.reference holder)
  | none => .ok ⟨t.entries.put e.id e, t.references.put e.reference e.id⟩

def update (id : String) (status : Status) (at_ : Timestamp) (t : Tables) :
    Except LedgerError Tables :=
  match t.entries.get? id with
  | none => .error (.entryNotFound id)
  | some e => .ok ⟨t.entries.put id (e.withStatus status at_), t.references⟩

end Tables

def Store.tables (s : Store) : Tables := ⟨s.entries, s.references⟩

namespace Transaction

variable {ε : Type}

/-- What ends a program early: a refusal of the store, or anything that is raised in between. -/
inductive Fault (ε : Type) where
  | refused (error : LedgerError)
  | raised (x : ε)

/-- Programs of writes. What comes next may hang on all rows, and on the fault that was caught. -/
inductive Program (ε : Type) where
  | done
  | fail (fault : Fault ε)
  | insert (e : Entry)
  | update (id : String) (status : Status) (at_ : Timestamp)
  | consult (next : Tables → Program ε)
  | seq (first second : Program ε)
  | rescue (body : Program ε) (handler : Fault ε → Program ε)
  | transaction (body : Program ε)

abbrev Ended (ε σ : Type) := Except (Fault ε) Unit × σ

def written {σ : Type} (before : σ) : Except LedgerError σ → Ended ε σ
  | .ok after => (.ok (), after)
  | .error error => (.error (.refused error), before)

namespace Program

def run : Program ε → Store → Ended ε Store
  | done, s => (.ok (), s)
  | fail fault, s => (.error fault, s)
  | insert e, s => written s (s.insert e)
  | update id status at_, s => written s ((s.update id status at_).map Prod.snd)
  | consult next, s => (next s.tables).run s
  | seq first second, s =>
    match first.run s with
    | (.ok _, s) => second.run s
    | (.error fault, s) => (.error fault, s)
  | rescue body handler, s =>
    match body.run s with
    | (.ok _, s) => (.ok (), s)
    | (.error fault, s) => (handler fault).run s
  | transaction body, s =>
    let (scope, inner) := s.openScope
    match body.run inner with
    | (.ok _, inner) => (.ok (), inner.closeScope scope false)
    | (.error fault, inner) => (.error fault, inner.closeScope scope true)

/-- The same with a copy of all rows for each transaction, which is put back if it fails. -/
def runCopying : Program ε → Tables → Ended ε Tables
  | done, t => (.ok (), t)
  | fail fault, t => (.error fault, t)
  | insert e, t => written t (t.insert e)
  | update id status at_, t => written t (t.update id status at_)
  | consult next, t => (next t).runCopying t
  | seq first second, t =>
    match first.runCopying t with
    | (.ok _, t) => second.runCopying t
    | (.error fault, t) => (.error fault, t)
  | rescue body handler, t =>
    match body.runCopying t with
    | (.ok _, t) => (.ok (), t)
    | (.error fault, t) => (handler fault).runCopying t
  | transaction body, copy =>
    match body.runCopying copy with
    | (.ok _, t) => (.ok (), t)
    | (.error fault, _) => (.error fault, copy)

theorem written_follows {s : Store} {x : Except LedgerError Store}
    (h : ∀ t, x = .ok t → s.Follows t) : s.Follows (written (ε := ε) s x).2 := by
  cases x with
  | ok t => exact h t rfl
  | error error => exact .refl s

theorem run_follows (p : Program ε) (s : Store) : s.Follows (p.run s).2 := by
  induction p generalizing s with
  | done => exact .refl s
  | fail fault => exact .refl s
  | insert e => exact written_follows fun t ht => Store.follows_of_insert ht
  | update id status at_ =>
      refine written_follows fun t ht => ?_
      cases hu : s.update id status at_ with
      | error error => rw [hu] at ht; cases ht
      | ok row =>
          rw [hu] at ht
          cases ht
          exact Store.follows_of_update (e := row.1) hu
  | consult next ih => exact ih s.tables s
  | seq first second ihFirst ihSecond =>
      have h := ihFirst s
      rw [run]
      split
      next hrun => rw [hrun] at h; exact h.trans (ihSecond _)
      next hrun => rw [hrun] at h; exact h
  | rescue body handler ihBody ihHandler =>
      have h := ihBody s
      rw [run]
      split
      next hrun => rw [hrun] at h; exact h
      next hrun => rw [hrun] at h; exact h.trans (ihHandler _ _)
  | transaction body ih =>
      have h := ih s.openScope.2
      simp only [run]
      split
      next hrun => rw [hrun] at h; exact Store.follows_closeScope false h
      next hrun => rw [hrun] at h; exact Store.follows_closeScope true h

/-- A transaction that fails takes back its own writes, those of the transactions that ended well
in it included, and no other. -/
theorem run_transaction_failed {body : Program ε} {s t : Store} {fault : Fault ε}
    (h : (transaction body).run s = (.error fault, t)) : t = s := by
  have hbody := body.run_follows s.openScope.2
  simp only [run] at h
  split at h
  · cases h
  next hrun =>
    rw [hrun] at hbody
    cases h
    exact Store.closeScope_failed hbody

def tablesOf (x : Ended ε Store) : Ended ε Tables := (x.1, x.2.tables)

theorem tablesOf_written (s : Store) (x : Except LedgerError Store) :
    tablesOf (written (ε := ε) s x) = written s.tables (x.map Store.tables) := by
  cases x <;> rfl

theorem map_tables_insert (s : Store) (e : Entry) :
    (s.insert e).map Store.tables = s.tables.insert e := by
  simp only [Store.insert, Tables.insert, Store.tables]
  cases s.references.get? e.reference <;> rfl

theorem map_tables_update (s : Store) (id : String) (status : Status) (at_ : Timestamp) :
    ((s.update id status at_).map Prod.snd).map Store.tables = s.tables.update id status at_ := by
  simp only [Store.update, Tables.update, Store.tables, Store.find?]
  cases s.entries.get? id <;> rfl

theorem tables_openScope (s : Store) : s.openScope.2.tables = s.tables := rfl

theorem tables_closeScope_kept (s t : Store) :
    (t.closeScope s.openScope.1 false).tables = t.tables := by
  rw [Store.closeScope_kept]
  split <;> rfl

theorem tablesOf_run (p : Program ε) (s : Store) : tablesOf (p.run s) = p.runCopying s.tables := by
  induction p generalizing s with
  | done => rfl
  | fail fault => rfl
  | insert e => rw [run, tablesOf_written, map_tables_insert, runCopying]
  | update id status at_ => rw [run, tablesOf_written, map_tables_update, runCopying]
  | consult next ih => exact ih s.tables s
  | seq first second ihFirst ihSecond =>
      rw [run, runCopying, ← ihFirst s]
      rcases first.run s with ⟨_ | _, t⟩
      · rfl
      · exact ihSecond t
  | rescue body handler ihBody ihHandler =>
      rw [run, runCopying, ← ihBody s]
      rcases body.run s with ⟨fault | _, t⟩
      · exact ihHandler fault t
      · rfl
  | transaction body ih =>
      rcases hrun : body.run s.openScope.2 with ⟨fault | _, t⟩
      · have hclose := body.run_follows s.openScope.2
        have hcopy := ih s.openScope.2
        rw [hrun] at hclose hcopy
        simp only [run, runCopying, hrun, ← tables_openScope s, ← hcopy, tablesOf]
        rw [Store.closeScope_failed hclose, tables_openScope]
      · have hcopy := ih s.openScope.2
        rw [hrun] at hcopy
        simp only [run, runCopying, hrun, ← tables_openScope s, ← hcopy, tablesOf]
        rw [tables_closeScope_kept]

theorem run_store (p : Program ε) (t : Tables) :
    p.run t.store = ((p.runCopying t).1, (p.runCopying t).2.store) := by
  have htables := p.tablesOf_run t.store
  have hjournal := (p.run_follows t.store).journal_none rfl
  rcases hrun : p.run t.store with ⟨outcome, entries, references, journal⟩
  rw [hrun] at htables hjournal
  have hcopy : p.runCopying t = (outcome, ⟨entries, references⟩) := htables.symm
  rw [hcopy]
  simp only at hjournal
  rw [hjournal, Tables.store]

/-- Outside a transaction a program with the journal ends like one with copies: with the same
outcome, the same rows in the same order, and no journal. A transaction that fails, at any depth,
leaves the store that it found, the journal of the enclosing ones included. -/
theorem run_eq_runCopying (p : Program ε) (t : Tables) :
    p.run t.store = ((p.runCopying t).1, (p.runCopying t).2.store) ∧
      ∀ (body : Program ε) (s s' : Store) (fault : Fault ε),
        (transaction body).run s = (.error fault, s') → s' = s :=
  ⟨run_store p t, fun _ _ _ _ h => run_transaction_failed h⟩

end Program

end Transaction

end Referral
