import Referral.Ledger.Entry
import Referral.Ledger.Error
import Referral.Table

namespace Referral

inductive Undo where
  | entry (id : String) (previous : Option Entry)
  | reference (reference : String) (previous : Option String)

structure Store where
  entries : Table String Entry
  references : Table String String
  /-- The writes of the open transactions, newest first; none outside a transaction. -/
  journal : Option (List Undo)

namespace Store

def empty : Store := ⟨.empty, .empty, none⟩

def writeEntry (id : String) (e : Entry) (s : Store) : Store where
  entries := s.entries.put id e
  references := s.references
  journal := s.journal.map (.entry id (s.entries.get? id) :: ·)

def writeReference (reference id : String) (s : Store) : Store where
  entries := s.entries
  references := s.references.put reference id
  journal := s.journal.map (.reference reference (s.references.get? reference) :: ·)

def takeBack (s : Store) : Undo → Store
  | .entry id (some e) => { s with entries := s.entries.put id e }
  | .entry id none => { s with entries := s.entries.erase id }
  | .reference reference (some id) => { s with references := s.references.put reference id }
  | .reference reference none => { s with references := s.references.erase reference }

/-- Takes back all but the oldest `mark` writes of the journal. -/
def undoTo (mark : Nat) (s : Store) : Store :=
  match s.journal with
  | none => s
  | some writes =>
    let count := writes.length - mark
    { (writes.take count).foldl takeBack s with journal := some (writes.drop count) }

/-- What a transaction has to know to end: how many writes were noted before it began, and whether
it is the outermost. -/
structure Scope where
  mark : Nat
  outermost : Bool

def openScope (s : Store) : Scope × Store :=
  (⟨(s.journal.getD []).length, s.journal.isNone⟩, { s with journal := some (s.journal.getD []) })

def closeScope (scope : Scope) (failed : Bool) (s : Store) : Store :=
  let s := if failed then s.undoTo scope.mark else s
  if scope.outermost then { s with journal := none } else s

/-- Adds an entry. Its reference must be free; an entry with its identifier is replaced. -/
def insert (e : Entry) (s : Store) : Except LedgerError Store :=
  match s.references.get? e.reference with
  | some holder => throw (.duplicateReference e.reference holder)
  | none => return (s.writeEntry e.id e).writeReference e.reference e.id

def find? (s : Store) (id : String) : Option Entry := s.entries.get? id

/-- The entry with a reference. An entry without an identifier is never found. -/
def findReference? (s : Store) (reference : String) : Option Entry :=
  match s.references.get? reference with
  | some id => if id.isEmpty then none else s.find? id
  | none => none

def list (s : Store) : List Entry := s.entries.values

def ofUser (s : Store) (userId : String) : List Entry := s.list.filter (·.userId = userId)

def update (id : String) (status : Status) (at_ : Timestamp) (s : Store) :
    Except LedgerError (Entry × Store) :=
  match s.find? id with
  | none => throw (.entryNotFound id)
  | some e => return (e.withStatus status at_, s.writeEntry id (e.withStatus status at_))

end Store

end Referral
