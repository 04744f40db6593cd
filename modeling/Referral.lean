import Referral.Http.Service
import Referral.Json.Writer
import Referral.Ledger.Script
import Referral.Log.Call
import Referral.Rule.AnyContext
import Referral.Rule.Within
import Referral.Proofs.Stack
import Referral.Proofs.Rule.Calls
import Referral.Proofs.Rule.Room
import Referral.Proofs.Ledger.Journal
import Referral.Proofs.Ledger.Transaction
import Referral.Proofs.Ledger.Index
import Referral.Proofs.Ledger.Run
import Referral.Proofs.Ledger.Reversal
import Referral.Proofs.Ledger.Outcome
import Referral.Proofs.Ledger.Retention
import Referral.Proofs.Ledger.Idempotence
import Referral.Proofs.Ledger.Balance
import Referral.Proofs.Ledger.Request
import Referral.Proofs.Ledger.Account
import Referral.Proofs.Ledger.Script
import Referral.Proofs.Ledger.Refusal
import Referral.Proofs.Ledger.Lifetime
import Referral.Proofs.Ledger.Total
import Referral.Proofs.Ledger.Limits
import Referral.Proofs.Rule.Store
import Referral.Proofs.Rule.Supply
import Referral.Proofs.Time.Iso
import Referral.Proofs.Rule.Mapping
import Referral.Proofs.Rule.Authoring
import Referral.Proofs.Rule.Lookup
import Referral.Proofs.Rule.Agreement
import Referral.Proofs.Award.Reference
import Referral.Proofs.Award.Origin
import Referral.Proofs.Award.Record
import Referral.Proofs.Award.Recordable
import Referral.Proofs.Http.Reach
import Referral.Proofs.Http.Answer
import Referral.Proofs.Http.Evaluation
import Referral.Proofs.Http.Origin
import Referral.Proofs.Http.Rejection
import Referral.Proofs.Number.Spelling
import Referral.Proofs.Number.Shown
import Referral.Proofs.Ledger.Race
import Referral.Proofs.Ledger.Amount
import Referral.Proofs.Award.Action
import Referral.Proofs.Rule.WellFormed
import Referral.Proofs.Rule.Depth
import Referral.Proofs.Rule.FirstFault
import Referral.Proofs.Rule.Places
import Referral.Proofs.Rule.Creation
import Referral.Proofs.Number.Whole
import Referral.Proofs.Rule.Leaf
import Referral.Proofs.Rule.Combination
import Referral.Proofs.Rule.Relevance
import Referral.Proofs.Ledger.Listing
import Referral.Proofs.Ledger.Arrival
import Referral.Proofs.Rule.Equality
import Referral.Proofs.Text.Numeral
import Referral.Proofs.Rule.LooseNumber
import Referral.Proofs.Ledger.Coherence
