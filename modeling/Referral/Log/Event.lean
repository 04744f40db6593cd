import Referral.Value

namespace Referral

inductive Level where
  | debug
  | info
  | warning
  | error
  | critical
  deriving DecidableEq

namespace Level

def name : Level → String
  | debug => "debug"
  | info => "info"
  | warning => "warning"
  | error => "error"
  | critical => "critical"

def weight : Level → Nat
  | debug => 10
  | info => 20
  | warning => 30
  | error => 40
  | critical => 50

end Level

structure Event where
  name : Text
  level : Level
  fields : Members

def Event.info (name : Text) (fields : Members) : Event := ⟨name, .info, fields⟩

end Referral
