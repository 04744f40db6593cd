import Referral.Ledger.Status
import Referral.Schema.Amount
import Referral.Schema.FreeForm
import Referral.Schema.Time

namespace Referral

structure Entry where
  id : String
  userId : String
  kind : EntryKind
  amount : Decimal
  currency : String
  status : Status
  reference : String
  description : Option String
  metadata : Members
  createdAt : Timestamp
  updatedAt : Timestamp

namespace Entry

def withStatus (e : Entry) (status : Status) (at_ : Timestamp) : Entry :=
  { e with status := status, updatedAt := at_ }

def toValue (e : Entry) : Value :=
  .map [("id", .text e.id), ("userId", .text e.userId), ("type", .text e.kind.name),
    ("amount", .text e.amount.text), ("currency", .text e.currency),
    ("status", .text e.status.name), ("referenceId", .text e.reference),
    ("description", .ofOption e.description),
    ("metadata", (Value.map e.metadata).numbersOnly),
    ("createdAt", .text (Schema.timeStamp e.createdAt)),
    ("updatedAt", .text (Schema.timeStamp e.updatedAt))]

def fits (outer : Nat) (e : Entry) : Bool := Schema.membersFit outer e.metadata

open Schema in
def ofValue (v : Value) : Checked Entry := do
  let ms ← document "LedgerEntry" v
  ((((((((((Checked.app (.ok Entry.mk) (required ms "id" text)).app
    (required ms "user_id" text)).app
    (required ms "type" (choice EntryKind.named))).app
    (required ms "amount" decimal)).app
    (optional ms "currency" "USD" text)).app
    (required ms "status" (choice Status.named))).app
    (required ms "reference_id" text)).app
    (optional ms "description" none textOrNull)).app
    (optional ms "metadata" [] mapping)).app
    (required ms "created_at" timestamp)).app
    (required ms "updated_at" timestamp)

end Entry

structure RewardRequest where
  userId : String
  amount : Decimal
  reference : String
  currency : Option String
  description : Option String
  metadata : Members

namespace RewardRequest

open Schema in
def ofMembers (readAmount : Value → Checked Decimal) (ms : Members) : Checked RewardRequest :=
  (((((Checked.app (.ok RewardRequest.mk) (required ms "user_id" filledText)).app
    (required ms "amount" readAmount)).app
    (required ms "reference_id" filledText)).app
    (optional ms "currency" none textOrNull)).app
    (optional ms "description" none textOrNull)).app
    (optional ms "metadata" [] mapping)

open Schema in
def ofValue (v : Value) : Checked RewardRequest := do
  let ms ← document "CreateRewardRequest" v
  ofMembers (fun v => do rewardAmount (← decimal v)) ms

def fits (r : RewardRequest) : Bool := Schema.membersFit 0 r.metadata

def toValue (r : RewardRequest) : Value :=
  .map [("userId", .text r.userId), ("amount", .text r.amount.text),
    ("referenceId", .text r.reference), ("currency", .ofOption r.currency),
    ("description", .ofOption r.description), ("metadata", (Value.map r.metadata).numbersOnly)]

end RewardRequest

structure ReversalRequest where
  reason : Option String

namespace ReversalRequest

open Schema in
def ofValue (v : Value) : Checked ReversalRequest := do
  let ms ← document "ReverseRewardRequest" v
  (optional ms "reason" none textOrNull).map ReversalRequest.mk

def toValue (r : ReversalRequest) : Value := .map [("reason", .ofOption r.reason)]

end ReversalRequest

end Referral
