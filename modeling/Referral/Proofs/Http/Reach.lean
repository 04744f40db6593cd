import Referral.Http.Service
import Referral.Proofs.Award.Record
import Referral.Proofs.Rule.Store
import Referral.Proofs.Rule.Supply

namespace Referral.Http.Service

variable {c : Config} {s t u : Service}

inductive Reaches (c : Config) (s : Service) : Service → Prop
  | refl : Reaches c s s
  | rule {t u : Service} (v : Value) (before : Reaches c s t)
      (stored : t.storeRule c.source v = .ok u) : Reaches c s u
  | request {t : Service} (r : Request) (before : Reaches c s t) :
      Reaches c s (handle c r t).service

structure Keeps (c : Config) (s t : Service) : Prop where
  ledger : Ledger.Keeps (ledgerConfig c) s.ledgerState t.ledgerState
  rules : s.rules.Filed → t.rules.Filed

theorem keeps_refl (c : Config) (s : Service) : Keeps c s s :=
  ⟨Ledger.keeps_refl _ _, id⟩

theorem Keeps.trans (h : Keeps c s t) (h' : Keeps c t u) : Keeps c s u :=
  ⟨h.ledger.trans h'.ledger, h'.rules ∘ h.rules⟩

theorem ledgerState_withLedger {l : LedgerState} (h : l.staleReads = 0) :
    (s.withLedger l).ledgerState = l := by
  rw [withLedger, ledgerState, ← h]

theorem keeps_withLedger {l : LedgerState} (h : Ledger.Keeps (ledgerConfig c) s.ledgerState l) :
    Keeps c s (s.withLedger l) := by
  refine ⟨fun hs => ?_, id⟩
  obtain ⟨hl, hold⟩ := h hs
  rw [ledgerState_withLedger hl.quiet.prompt]
  exact ⟨hl, hold⟩

theorem keeps_withRules {rules : RuleStore} {supply : Supply} (h : s.rules.Filed → rules.Filed)
    (more : s.supply.ids ≤ supply.ids) :
    Keeps c s { s with rules := rules, supply := supply } :=
  ⟨fun hs => ⟨hs.later more, fun e he => ⟨e, he, Ledger.became_refl e⟩⟩, h⟩

theorem service_perform (path : String) (command : Ledger.Command) (s : Service) :
    (perform c path command s).service =
      s.withLedger (Ledger.perform (ledgerConfig c) command s.ledgerState).2 := by
  rw [perform]
  rcases Ledger.perform (ledgerConfig c) command s.ledgerState with ⟨e | receipt, l⟩
  · rfl
  · rfl

theorem keeps_perform (hd : c.source.Distinct) (path : String) (command : Ledger.Command)
    (s : Service) : Keeps c s (perform c path command s).service := by
  rw [service_perform]
  exact keeps_withLedger (Ledger.keeps_perform hd command s.ledgerState)

theorem service_ruleRefused (path : String) (e : RuleError) (s : Service) :
    (ruleRefused path e s).service = s := by
  cases e with
  | authoring fault | notFound id shown | unsayable | shape fault => rfl

theorem keeps_createRule (path : String) (request : RuleRequest) (s : Service) :
    Keeps c s (createRule c path request s).service := by
  have hmore := Authoring.takes_rule c.source request s.ruleState.supply
  rw [createRule, RuleService.create_eq]
  generalize Authoring.rule c.source request s.ruleState.supply = ended at hmore
  rcases ended with ⟨fault | rule, supply⟩
  · dsimp only
    rw [service_ruleRefused]
    exact keeps_withRules id hmore
  · dsimp only
    cases hinsert : s.ruleState.store.insert rule with
    | error fault =>
        dsimp only
        rw [service_ruleRefused]
        exact keeps_withRules id hmore
    | ok rules => exact keeps_withRules (fun h => h.insert hinsert) hmore

theorem keeps_deleteRule (path id : String) (s : Service) :
    Keeps c s (deleteRule path id s).service := by
  rw [deleteRule, RuleService.delete]
  cases hdelete : s.ruleState.store.delete (.text id) with
  | error fault =>
      dsimp only
      rw [service_ruleRefused]
      exact keeps_refl c s
  | ok ended =>
      rcases ended with ⟨found, rules⟩
      have hkeeps : Keeps c s { s with rules := rules } :=
        keeps_withRules (fun h => h.delete hdelete) (Nat.le_refl _)
      cases found with
      | false =>
          dsimp only
          rw [service_ruleRefused]
          exact hkeeps
      | true => exact hkeeps

theorem service_evaluate {path : String} {request : EvaluationRequest} {matched : List Match}
    (hmatched : RuleService.evaluate s.ruleState request.context = .ok matched) :
    (evaluate c path request s).service = s.withLedger
      (Award.record (ledgerConfig c) (Award.requested request matched) s.ledgerState).2.2 := by
  rw [evaluate, hmatched]
  dsimp only
  rcases Award.record (ledgerConfig c) (Award.requested request matched) s.ledgerState with
    ⟨receipts, fault, l⟩
  cases fault with
  | none => rfl
  | some fault => cases fault <;> rfl

theorem keeps_evaluate (hd : c.source.Distinct) (path : String) (request : EvaluationRequest)
    (s : Service) : Keeps c s (evaluate c path request s).service := by
  cases hmatched : RuleService.evaluate s.ruleState request.context with
  | error fault =>
      rw [evaluate, hmatched]
      exact keeps_refl c s
  | ok matched =>
      rw [service_evaluate hmatched]
      exact keeps_withLedger (Award.keeps_record hd _ s.ledgerState)

theorem service_queried {α : Type} (path : String) (s : Service) (x : Except QueryFault α)
    (f : α → Response) : (queried path s x f).service = s := by
  match x with
  | .ok a => rfl
  | .error (.refused e) => rfl
  | .error (.sum fault) => rfl
  | .error .mixedTimes => rfl

theorem keeps_reading {α : Type} {x : Except Response α} {f : α → Result}
    (h : ∀ a, Keeps c s (f a).service) : Keeps c s (reading s x f).service := by
  cases x with
  | error response => exact keeps_refl c s
  | ok a => exact h a

theorem keeps_queried {α : Type} (path : String) (s : Service) (x : Except QueryFault α)
    (f : α → Response) : Keeps c s (queried path s x f).service := by
  rw [service_queried]
  exact keeps_refl c s

theorem keeps_serve (hd : c.source.Distinct) (r : Request) (s : Service) (route : Route) :
    Keeps c s (serve c r s route).service := by
  cases route with
  | health | manual | listRules => exact keeps_refl c s
  | createReward => exact keeps_reading fun q => keeps_perform hd _ _ s
  | confirm id | pay id => exact keeps_perform hd _ _ s
  | reverse id => exact keeps_reading fun q => keeps_perform hd _ _ s
  | listEntries | getEntry id | balance userId | userEntries userId => exact keeps_queried _ s _ _
  | history userId => exact keeps_reading fun page => keeps_queried _ s _ _
  | createRule => exact keeps_reading fun q => keeps_createRule _ q s
  | evaluate => exact keeps_reading fun q => keeps_evaluate hd _ q s
  | getRule id =>
      rw [serve, getRule]
      split
      next => exact keeps_refl c s
      next =>
        rw [service_ruleRefused]
        exact keeps_refl c s
  | deleteRule id => exact keeps_deleteRule _ id s

theorem keeps_handle (hd : c.source.Distinct) (r : Request) (s : Service) :
    Keeps c s (handle c r s).service := by
  have hkeeps : Keeps c s (dispatched c (r.method.map Char.toUpper) r s).service := by
    rw [dispatched]
    split
    next route _ => exact keeps_serve hd r s route
    next => exact keeps_refl c s
    next => exact keeps_refl c s
    next => exact keeps_refl c s
  rw [handle]
  split
  · exact hkeeps
  · exact hkeeps

theorem ids_readMapping (source : Source) (m : RuleMapping) (supply : Supply) :
    (Rule.readMapping source m supply).2.ids = supply.ids := by
  rw [Rule.readMapping]
  cases Rule.ofMapping m with
  | ok rule => rfl
  | error fault => rfl

theorem ids_read (source : Source) (v : Value) (supply : Supply) :
    (Rule.read source v supply).2.ids = supply.ids := by
  cases v with
  | map members =>
      rw [Rule.read]
      cases RuleMapping.ofMembers members with
      | ok m => exact ids_readMapping source m supply
      | error fault => rfl
  | null | bool | int | double | text | list => rfl

theorem keeps_storeRule {v : Value} (h : s.storeRule c.source v = .ok t) : Keeps c s t := by
  have hids := ids_read c.source v s.supply
  rw [storeRule] at h
  generalize Rule.read c.source v s.supply = ended at h hids
  rcases ended with ⟨fault | rule, supply⟩
  · cases h
  · dsimp only [bind, Except.bind] at h
    cases hinsert : s.rules.insert rule with
    | error fault =>
        rw [hinsert] at h
        cases h
    | ok rules =>
        rw [hinsert] at h
        cases h
        exact keeps_withRules (fun h => h.insert hinsert) (Nat.le_of_eq hids.symm)

theorem Reaches.keeps (hd : c.source.Distinct) (h : Reaches c s t) : Keeps c s t := by
  induction h with
  | refl => exact keeps_refl c s
  | rule v before stored ih => exact ih.trans (keeps_storeRule stored)
  | request r before ih => exact ih.trans (keeps_handle hd r _)

theorem consistent_of_reaches (hd : c.source.Distinct) (h : Reaches c start s) :
    Ledger.Consistent (ledgerConfig c) s.ledgerState :=
  ((h.keeps hd).ledger (Ledger.consistent_start (ledgerConfig c) .fresh)).1

theorem filed_of_reaches (hd : c.source.Distinct) (h : Reaches c start s) : s.rules.Filed :=
  (h.keeps hd).rules RuleStore.filed_empty

end Referral.Http.Service
