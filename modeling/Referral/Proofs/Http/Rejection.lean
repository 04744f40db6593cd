import Referral.Proofs.Http.Evaluation
import Referral.Proofs.Ledger.Refusal

namespace Referral

namespace Award

open Ledger

variable {config : LedgerConfig} {s : LedgerState}

/-- Each award has its reference taken, up to one that fails. -/
def addsNothing (s : Store) : List (Except Fault ActionReward) → Bool
  | .ok a :: rest =>
    match actionRequest a with
    | .ok request =>
      match s.findReference? request.reference with
      | some e => !(Receipt.duplicate e).fits || addsNothing s rest
      | none => (s.references.get? request.reference).isSome
    | .error _ => true
  | _ => true

inductive EndsIn (config : LedgerConfig) (s : LedgerState) (a : ActionReward) :
    Except LedgerError Receipt → LedgerState → Prop
  | unread {fault : LedgerError} (asks : actionRequest a = .error fault) :
      EndsIn config s a (.error fault) s
  | read {request : RewardRequest} {result : Except LedgerError Receipt} {t : LedgerState}
      (asks : actionRequest a = .ok request) (making : Making config s request result t) :
      EndsIn config s a result t

theorem endsIn_perform (config : LedgerConfig) (hq : s.Quiet) (a : ActionReward) :
    EndsIn config s a (perform config (.createFromAction a) s).1
      (perform config (.createFromAction a) s).2 := by
  cases hasks : actionRequest a with
  | error fault =>
      rw [perform, createFromAction_error config hasks]
      exact .unread hasks
  | ok request =>
      rw [perform_request config (request?_createFromAction_iff.2 hasks)]
      exact .read hasks (create_making config hq request)

def Taken (s : LedgerState) (reference : String) : Prop :=
  (s.store.references.get? reference).isSome = true

theorem taken_add {reference : String} {e : Entry}
    (h : reference = e.reference ∨ Taken s reference) :
    Taken { s.drawn with store := s.store.add e } reference := by
  change ((s.store.references.put e.reference e.id).get? reference).isSome = true
  rw [Table.get?_put]
  split
  next => rfl
  next hother => exact h.resolve_left hother

theorem Taken.endsIn {a : ActionReward} {result : Except LedgerError Receipt} {t : LedgerState}
    {reference : String} (h : Taken s reference) (hending : EndsIn config s a result t) :
    Taken t reference := by
  cases hending with
  | unread asks => exact h
  | read asks making =>
      cases making with
      | found | clashed => exact h
      | created => exact taken_add (.inr h)

theorem Taken.record (hq : s.Quiet) (awards : List (Except Fault ActionReward)) {reference : String}
    (h : Taken s reference) : Taken (Award.record config awards s).2.2 reference := by
  have hkept : ∀ a t, t.Quiet ∧ Taken t reference →
      (perform config (.createFromAction a) t).2.Quiet ∧
        Taken (perform config (.createFromAction a) t).2 reference := by
    rintro a t ⟨hquiet, htaken⟩
    exact ⟨(perform_ending config hquiet (.createFromAction a)).quiet hquiet,
      htaken.endsIn (endsIn_perform config hquiet a)⟩
  exact (record_induction hkept awards ⟨hq, h⟩).2

theorem taken_of_created (hq : s.Quiet) {a : ActionReward} {e : Entry} {t : LedgerState}
    (hperform : perform config (.createFromAction a) s = (.ok (.created e), t))
    (h : Taken t e.reference) (rest : List (Except Fault ActionReward)) :
    Taken (record config (.ok a :: rest) s).2.2 e.reference := by
  cases hfits : (Receipt.created e).fits with
  | true =>
      have hquiet := (perform_ending config hq (.createFromAction a)).quiet hq
      rw [hperform] at hquiet
      rw [record_recorded hperform hfits]
      exact h.record hquiet rest
  | false =>
      rw [record_unwritable hperform hfits]
      exact h

theorem record_cases (config : LedgerConfig) (hq : s.Quiet)
    (awards : List (Except Fault ActionReward)) :
    (addsNothing s.store awards = true ∧ (record config awards s).2.2.store = s.store) ∨
      addsNothing s.store awards = false ∧
        ∃ reference, ¬ Taken s reference ∧ Taken (record config awards s).2.2 reference := by
  induction awards with
  | nil => exact .inl ⟨rfl, rfl⟩
  | cons award rest ih =>
      cases award with
      | error fault => exact .inl ⟨rfl, rfl⟩
      | ok a =>
          have hending := endsIn_perform config hq a
          rcases hperform : perform config (.createFromAction a) s with ⟨result, t⟩
          rw [hperform] at hending
          dsimp only at hending
          cases hending with
          | unread asks =>
              rw [record_refused hperform]
              exact .inl ⟨by simp only [addsNothing, asks], rfl⟩
          | @read request result t asks making =>
              cases making with
              | @found e found =>
                  cases hfits : (Receipt.duplicate e).fits with
                  | true =>
                      rw [record_recorded hperform hfits]
                      simpa only [addsNothing, asks, found, hfits, Bool.not_true, Bool.false_or]
                        using ih
                  | false =>
                      rw [record_unwritable hperform hfits]
                      exact .inl ⟨by simp [addsNothing, asks, found, hfits], rfl⟩
              | clashed absent taken =>
                  rw [record_refused hperform]
                  exact .inl ⟨by simp [addsNothing, asks, absent, taken], rfl⟩
              | @created e absent free same =>
                  refine .inr ⟨by simp [addsNothing, asks, absent, free], e.reference, ?_,
                    taken_of_created hq hperform (taken_add (.inl rfl)) rest⟩
                  simp [Taken, same, free]

theorem store_record_iff (config : LedgerConfig) (hq : s.Quiet)
    (awards : List (Except Fault ActionReward)) :
    (record config awards s).2.2.store = s.store ↔ addsNothing s.store awards = true := by
  obtain ⟨hadds, hsame⟩ | ⟨hadds, reference, hfree, htaken⟩ :=
    record_cases config hq awards
  · exact iff_of_true hsame hadds
  · refine iff_of_false (fun hsame => hfree ?_) (Bool.eq_false_iff.1 hadds)
    rwa [Taken, hsame] at htaken

end Award

namespace Http.Service

/-- An evaluation, rejected or not, leaves the ledger as it was exactly if it cannot be read or has
no result, or each of its awards up to the first that fails has its reference taken. -/
theorem evaluation_leaves_ledger_iff (c : Config) {s : Service} (hs : s.ledger.journal = none)
    {r : Request} (hmethod : r.method.map Char.toUpper = "POST")
    (hroute : dispatch c.settings.rootPath r.target.path "POST" = .route .evaluate) :
    (handle c r s).service.ledger = s.ledger ↔
      ∀ request matched, requiredBody r EvaluationRequest.ofValue = .ok request →
        RuleService.evaluate s.ruleState request.context = .ok matched →
        Award.addsNothing s.ledger (Award.requested request matched) = true := by
  rw [handle_evaluating hmethod hroute]
  cases hbody : requiredBody r EvaluationRequest.ofValue with
  | error response => exact iff_of_true rfl fun request matched h => nomatch h
  | ok request =>
      rw [reading]
      cases hmatched : RuleService.evaluate s.ruleState request.context with
      | error fault =>
          rw [evaluate, hmatched]
          refine iff_of_true rfl fun request' matched hsame hok => ?_
          cases hsame
          cases hmatched.symm.trans hok
      | ok matched =>
          have hquiet : s.ledgerState.Quiet := ⟨hs, rfl⟩
          rw [service_evaluate hmatched]
          refine (Award.store_record_iff _ hquiet _).trans
            ⟨fun h request' matched' hsame hok => ?_, fun h => h request matched rfl hmatched⟩
          cases hsame
          cases hmatched.symm.trans hok
          exact h

def uncoined (id : String) : Value :=
  .map [("id", .text id), ("name", .text id),
    ("actions", .list [.map [("type", .text "reward"),
      ("params", .map [("amount", .int 5), ("currency", .int 840)])]])]

def mixedShop : Service := stocked (stocked start (bonus "a")) (uncoined "b")

/-- The second award fails and the first stays, in an empty ledger. -/
theorem evaluation_leaves_first_award :
    (handle shopConfig (evaluating "ada" "signup") mixedShop).response.status = 400 ∧
      mixedShop.ledger.list = [] ∧ mixedShop.ledger.references.keys = [] ∧
      let ledger := (handle shopConfig (evaluating "ada" "signup") mixedShop).service.ledger
      ledger.list.map (·.reference) = ["signup:a:0"] ∧
        ledger.references.keys = ["signup:a:0"] := by
  rw [evaluates_ada.handle_eq]
  decide +kernel

/-- What was refused is refused again, and its first award is found. -/
theorem evaluation_leaves_ledger_again :
    let s := (handle shopConfig (evaluating "ada" "signup") mixedShop).service
    (handle shopConfig (evaluating "ada" "signup") s).response.status = 400 ∧
      (handle shopConfig (evaluating "ada" "signup") s).service.ledger = s.ledger := by
  intro s
  have hs : s.ledger.journal = none := by
    dsimp only [s]
    rw [evaluates_ada.handle_eq]
    decide +kernel
  have hadds : (RuleService.evaluate s.ruleState []).toOption.map (fun matched =>
      Award.addsNothing s.ledger (Award.requested ⟨[], some "ada", some "signup"⟩ matched)) =
        some true := by
    dsimp only [s]
    rw [evaluates_ada.handle_eq]
    decide +kernel
  refine ⟨?_, (evaluation_leaves_ledger_iff shopConfig hs evaluates_ada.method
    evaluates_ada.route).2 fun request matched hbody hmatched => ?_⟩
  · rw [evaluates_ada.handle_eq]
    dsimp only [s]
    rw [evaluates_ada.handle_eq]
    decide +kernel
  · cases evaluates_ada.body.symm.trans hbody
    rw [hmatched] at hadds
    exact Option.some.inj hadds

end Http.Service

end Referral
