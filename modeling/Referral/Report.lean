import Referral.Schema.Checked

namespace Referral

inductive ReportKind where
  | service
  | validation
  | notFound
  | invalidTransition
  | alreadyReversed
  | storage
  | duplicateReference
  deriving DecidableEq

namespace ReportKind

def code : ReportKind → String
  | service => "SERVICE_ERROR"
  | validation => "VALIDATION_ERROR"
  | notFound => "NOT_FOUND"
  | invalidTransition => "INVALID_TRANSITION"
  | alreadyReversed => "ALREADY_REVERSED"
  | storage => "STORAGE_ERROR"
  | duplicateReference => "DUPLICATE_REFERENCE"

def status : ReportKind → Nat
  | validation | invalidTransition | alreadyReversed => 400
  | notFound => 404
  | service | storage | duplicateReference => 500

def isStorage : ReportKind → Bool
  | storage | duplicateReference => true
  | _ => false

end ReportKind

structure Report where
  kind : ReportKind
  message : Text
  details : Members

namespace Report

def toValue (r : Report) : Value :=
  .map [("code", .text r.kind.code), ("message", .text r.message), ("details", .map r.details)]

/-- A report with a message and details of any shape; details that stand for nothing are empty. -/
def of (kind : ReportKind) (message details : Value) : Schema.Checked Report :=
  (Schema.Checked.app (.ok fun (s : String) ms => ⟨kind, s, ms⟩)
    ((Schema.text message).within (.key "message"))).app
    ((Schema.mapping (details.orElse (.map []))).within (.key "details"))

end Report

end Referral
