import Referral.Ledger.Service
import Referral.Rule.Service

namespace Referral.Award

/-- Each award has a reference of its own, so that one evaluation is recorded once. -/
def reference (evaluation rule : Text) (index : Nat) : Text :=
  evaluation ++ ":" ++ rule ++ ":" ++ decimalDigits index

inductive Fault where
  | refused (error : LedgerError)
  | unsayable
  | unwritable

def ofOutcome? (userId evaluation : String) (m : Match) (outcome : Outcome) (index : Nat) :
    Option (Except Fault Ledger.ActionReward) :=
  match outcome with
  | .reward amount currency description =>
    some (m.ruleId.plain?.elim (throw .unsayable) fun rule =>
      return ⟨.text userId, .text (reference evaluation rule index), amount, currency, description,
        .map [("ruleId", m.ruleId), ("ruleName", m.ruleName)]⟩)
  | _ => none

def ofMatch (userId evaluation : String) (m : Match) : List (Except Fault Ledger.ActionReward) :=
  m.outcomes.zipIdx.filterMap fun (outcome, index) => ofOutcome? userId evaluation m outcome index

def all (userId evaluation : String) (matched : List Match) :
    List (Except Fault Ledger.ActionReward) :=
  matched.flatMap (ofMatch userId evaluation)

/-- Records awards in turn, up to the first that fails. Those before it stay recorded, and so does
one that only cannot be told of. -/
def record (config : LedgerConfig) :
    List (Except Fault Ledger.ActionReward) → LedgerState →
      List Receipt × Option Fault × LedgerState
  | [], s => ([], none, s)
  | .error fault :: _, s => ([], some fault, s)
  | .ok a :: rest, s =>
    match Ledger.createFromAction config a s with
    | (.error e, s) => ([], some (.refused e), s)
    | (.ok receipt, s) =>
      if receipt.fits then
        let (receipts, fault, s) := record config rest s
        (receipt :: receipts, fault, s)
      else ([receipt], some .unwritable, s)

/-- The awards that an evaluation records: none unless it names a user and a reference. -/
def requested (request : EvaluationRequest) (matched : List Match) :
    List (Except Fault Ledger.ActionReward) :=
  match Authoring.filled? request.userId, Authoring.filled? request.reference with
  | some userId, some evaluation => all userId evaluation matched
  | _, _ => []

end Referral.Award
