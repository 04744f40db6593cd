import Referral.Proofs.Award.Reference
import Referral.Proofs.Http.Answer
import Referral.Proofs.Http.Reach

namespace Referral.Http.Service

variable {c : Config} {s t : Service} {path : String} {request : EvaluationRequest}
  {matched : List Match} {receipts : List Receipt} {l : LedgerState}

theorem rules_evaluate (path : String) (request : EvaluationRequest) (s : Service) :
    (evaluate c path request s).service.rules = s.rules := by
  cases hmatched : RuleService.evaluate s.ruleState request.context with
  | error fault => rw [evaluate, hmatched]
  | ok matched => rw [service_evaluate hmatched, withLedger]

theorem response_evaluate
    (hmatched : RuleService.evaluate s.ruleState request.context = .ok matched)
    (hrecord : Award.record (ledgerConfig c) (Award.requested request matched) s.ledgerState =
      (receipts, none, l)) :
    (evaluate c path request s).response =
      aboutRules (matched.flatMap matchParams) (evaluationValue matched receipts) := by
  rw [evaluate, hmatched]
  dsimp only
  rw [hrecord]
  rfl

theorem recorded_of_status (h : (evaluate c path request s).response.status = 200) :
    ∃ matched receipts l, RuleService.evaluate s.ruleState request.context = .ok matched ∧
      Award.record (ledgerConfig c) (Award.requested request matched) s.ledgerState =
        (receipts, none, l) := by
  rw [evaluate] at h
  cases hmatched : RuleService.evaluate s.ruleState request.context with
  | error fault =>
      rw [hmatched] at h
      cases h
  | ok matched =>
      rw [hmatched] at h
      dsimp only at h
      rcases hrecord : Award.record (ledgerConfig c) (Award.requested request matched)
        s.ledgerState with ⟨receipts, fault, l⟩
      rw [hrecord] at h
      cases fault with
      | none => exact ⟨matched, receipts, l, rfl, hrecord⟩
      | some fault =>
          cases fault with
          | refused e => exact absurd h (status_refused _ _ _ _)
          | unsayable | unwritable => cases h

theorem handle_evaluating {r : Request} (hmethod : r.method.map Char.toUpper = "POST")
    (hroute : dispatch c.settings.rootPath r.target.path "POST" = .route .evaluate) :
    handle c r s = reading s (requiredBody r EvaluationRequest.ofValue) fun request =>
      evaluate c r.target.loggedPath request s := by
  rw [handle, hmethod, if_neg (by decide), dispatched, hroute]
  rfl

/-- The request asks to evaluate the rules for a user and under a reference. -/
structure Evaluates (c : Config) (r : Request) (request : EvaluationRequest)
    (userId evaluation : String) : Prop where
  method : r.method.map Char.toUpper = "POST"
  route : dispatch c.settings.rootPath r.target.path "POST" = .route .evaluate
  body : requiredBody r EvaluationRequest.ofValue = .ok request
  user : request.userId = some userId
  user_ne_empty : userId ≠ ""
  reference : request.reference = some evaluation
  reference_ne_empty : evaluation ≠ ""

namespace Evaluates

variable {r : Request} {userId evaluation : String}

theorem handle_eq (h : Evaluates c r request userId evaluation) (s : Service) :
    handle c r s = evaluate c r.target.loggedPath request s := by
  rw [handle_evaluating h.method h.route, h.body]
  rfl

theorem requested_eq (h : Evaluates c r request userId evaluation) (matched : List Match) :
    Award.requested request matched = Award.all userId evaluation matched := by
  have hfilled : ∀ text : String, text ≠ "" → Authoring.filled? (some text) = some text := by
    intro text htext
    simp [Authoring.filled?, htext]
  rw [Award.requested, h.user, h.reference, hfilled userId h.user_ne_empty,
    hfilled evaluation h.reference_ne_empty]

theorem exists_actions (h : Evaluates c r request userId evaluation) (hfiled : s.rules.Filed)
    (hids : TextIds s.rules.list) :
    ∃ (matched : List Match) (actions : List Ledger.ActionReward),
      RuleService.evaluate s.ruleState request.context = .ok matched ∧
      Award.requested request matched = actions.map .ok ∧
      actions.map (·.reference) =
        (rewardReferences evaluation request.context s.rules.list).map .text ∧
      ∀ a ∈ actions, a.userId = .text userId := by
  obtain ⟨actions, hall, hreferences, husers⟩ :=
    Award.all_rules userId evaluation request.context hids
  have hmatched := RuleService.evaluate_eq (s := s.ruleState) hfiled hids request.context
  exact ⟨_, actions, hmatched, (h.requested_eq _).trans hall, hreferences, husers⟩

theorem exists_adds (h : Evaluates c r request userId evaluation) (hd : c.source.Distinct)
    (hs : Reaches c start s) (hids : TextIds s.rules.list) :
    ∃ count,
      Award.Adds (.text userId)
        ((rewardReferences evaluation request.context s.rules.list).take count) s.ledger
        (handle c r s).service.ledger ∧
      ((handle c r s).response.status = 200 →
        count = (rewardReferences evaluation request.context s.rules.list).length) := by
  have hconsistent := consistent_of_reaches hd hs
  obtain ⟨matched, actions, hmatched, hrequested, hreferences, husers⟩ :=
    h.exists_actions (filed_of_reaches hd hs) hids
  have hnodup := Award.nodup_rewardReferences evaluation request.context hids
    ((filed_of_reaches hd hs).nodup_ids hids)
  obtain ⟨count, hadds, hcount⟩ :=
    Award.record_exact hd hconsistent hreferences hnodup husers
  rw [← hrequested] at hadds hcount
  rw [h.handle_eq, service_evaluate hmatched]
  refine ⟨count, hadds, fun hstatus => hcount ?_⟩
  obtain ⟨matched', receipts, l, hmatched', hrecord⟩ := recorded_of_status hstatus
  cases hmatched.symm.trans hmatched'
  rw [hrecord]

theorem exists_told_of_consistent (h : Evaluates c r request userId evaluation)
    (hd : c.source.Distinct) (hconsistent : Ledger.Consistent (ledgerConfig c) s.ledgerState)
    (hfiled : s.rules.Filed) (hids : TextIds s.rules.list)
    (hstatus : (handle c r s).response.status = 200) :
    ∃ es : List Entry, (∀ e ∈ es, e ∈ (handle c r s).service.ledger.list) ∧
      es.map (fun e => (e.reference : Text)) =
        rewardReferences evaluation request.context s.rules.list ∧
      (handle c r s).response.entryIds = es.map fun e => .text e.id := by
  obtain ⟨matched, actions, hmatched, hrequested, hreferences, husers⟩ :=
    h.exists_actions hfiled hids
  rw [h.handle_eq] at hstatus ⊢
  obtain ⟨matched', receipts, l, hmatched', hrecord⟩ := recorded_of_status hstatus
  cases hmatched.symm.trans hmatched'
  obtain ⟨⟨actions', hactions, hsettled⟩, -⟩ := Award.record_settled hd hconsistent hrecord
  have hsame : actions.map (Except.ok (ε := Award.Fault)) = actions'.map .ok :=
    hrequested.symm.trans hactions
  obtain rfl := List.map_injective_iff.2 (fun _ _ => Except.ok.inj) hsame
  have hwritable := aboutRules_of_status (response_evaluate hmatched hrecord ▸ hstatus)
  refine ⟨receipts.map (·.entry), ?_, ?_, ?_⟩
  · rw [service_evaluate hmatched, hrecord]
    exact List.forall_mem_map.2 (Award.stored_of_settled hsettled)
  · have htexts := (Award.references_of_settled hsettled).trans hreferences
    rw [← Function.comp_def, ← List.map_map] at htexts
    rw [List.map_map]
    exact List.map_injective_iff.2 (fun _ _ => Value.text.inj) htexts
  · rw [response_evaluate hmatched hrecord, aboutRules_eq hwritable.1 hwritable.2,
      entryIds_evaluationValue, List.map_map]
    rfl

theorem exists_told (h : Evaluates c r request userId evaluation) (hd : c.source.Distinct)
    (hs : Reaches c start s) (hids : TextIds s.rules.list)
    (hstatus : (handle c r s).response.status = 200) :
    ∃ es : List Entry, (∀ e ∈ es, e ∈ (handle c r s).service.ledger.list) ∧
      es.map (fun e => (e.reference : Text)) =
        rewardReferences evaluation request.context s.rules.list ∧
      (handle c r s).response.entryIds = es.map fun e => .text e.id :=
  h.exists_told_of_consistent hd (consistent_of_reaches hd hs) (filed_of_reaches hd hs) hids hstatus

theorem handle_again (h : Evaluates c r request userId evaluation) (hd : c.source.Distinct)
    (hs : Reaches c start s) (hstatus : (handle c r s).response.status = 200)
    (ht : Reaches c (handle c r s).service t) (hrules : t.rules = s.rules) :
    (handle c r t).response.status = 200 ∧ (handle c r t).service = t ∧
      (handle c r t).response.entryIds = (handle c r s).response.entryIds ∧
      ∀ reward ∈ (handle c r t).response.rewards, reward.member "isDuplicate" = .bool true := by
  have hconsistent := consistent_of_reaches hd hs
  obtain ⟨hlater, hkept⟩ := (ht.keeps hd).ledger (consistent_of_reaches hd (.request r hs))
  rw [h.handle_eq] at hstatus hkept ⊢
  obtain ⟨matched, receipts, l, hmatched, hrecord⟩ := recorded_of_status hstatus
  obtain ⟨⟨actions, hactions, hsettled⟩, -⟩ := Award.record_settled hd hconsistent hrecord
  rw [service_evaluate hmatched, hrecord] at hkept
  obtain ⟨es, hbecame, hagain⟩ := Award.record_again hsettled hlater hkept
  have hmatched' : RuleService.evaluate t.ruleState request.context = .ok matched := by
    rw [← hmatched, RuleService.evaluate, RuleService.evaluate]
    change (Engine.ofList t.rules.list >>= _) = (Engine.ofList s.rules.list >>= _)
    rw [hrules]
  rw [← hactions] at hagain
  have halike : AlikeWritten (evaluationValue matched receipts)
      (evaluationValue matched (es.map .duplicate)) := by
    refine alikeWritten_map (.cons ⟨rfl, rfl⟩ (.cons ⟨rfl, alikeWritten_list ?_⟩ .nil))
    rw [List.map_map, List.forall₂_map_left_iff, List.forall₂_map_right_iff]
    exact hbecame.imp fun receipt e htold => alikeWritten_duplicate htold.1 htold.2
  have hwritable := aboutRules_of_status (response_evaluate hmatched hrecord ▸ hstatus)
  have hresponse := aboutRules_eq hwritable.1 (halike.symm.trans hwritable.2)
  rw [h.handle_eq, response_evaluate hmatched' hagain, response_evaluate hmatched hrecord,
    hresponse, aboutRules_eq hwritable.1 hwritable.2, service_evaluate hmatched', hagain]
  refine ⟨rfl, rfl, ?_, ?_⟩
  · have hids : List.Forall₂ Eq (es.map fun e => Value.text e.id)
        (receipts.map fun receipt => .text receipt.entry.id) := by
      rw [List.forall₂_map_left_iff, List.forall₂_map_right_iff]
      refine hbecame.flip.imp fun e receipt htold => ?_
      rw [htold.2]
      rfl
    rw [List.forall₂_eq_eq_eq] at hids
    rw [entryIds_evaluationValue, entryIds_evaluationValue, List.map_map]
    exact hids
  · rw [rewards_evaluationValue, List.map_map, List.forall_mem_map]
    exact fun e _ => isDuplicate_toValue (.duplicate e)

end Evaluates

/-- An evaluation adds the rewards that are due and were not recorded before, or the first of them
where it fails, and tells of all that are due. Once it succeeded it changes nothing any more and
tells of the same entries, whatever is asked in between, as long as the rules are the same. -/
theorem evaluation_records_once (c : Config) (hd : c.source.Distinct) {s : Service}
    (hs : Reaches c start s) {r : Request} {request : EvaluationRequest}
    {userId evaluation : String} (hr : Evaluates c r request userId evaluation) :
    (TextIds s.rules.list →
      ∃ count,
        Award.Adds (.text userId)
          ((rewardReferences evaluation request.context s.rules.list).take count) s.ledger
          (handle c r s).service.ledger ∧
        ((handle c r s).response.status = 200 →
          count = (rewardReferences evaluation request.context s.rules.list).length ∧
          ∃ es : List Entry, (∀ e ∈ es, e ∈ (handle c r s).service.ledger.list) ∧
            es.map (fun e => (e.reference : Text)) =
              rewardReferences evaluation request.context s.rules.list ∧
            (handle c r s).response.entryIds = es.map fun e => .text e.id)) ∧
    ((handle c r s).response.status = 200 →
      ∀ t, Reaches c (handle c r s).service t → t.rules = s.rules →
        (handle c r t).response.status = 200 ∧ (handle c r t).service = t ∧
          (handle c r t).response.entryIds = (handle c r s).response.entryIds ∧
          ∀ reward ∈ (handle c r t).response.rewards,
            reward.member "isDuplicate" = .bool true) := by
  constructor
  · intro hids
    obtain ⟨count, hadds, hcount⟩ := hr.exists_adds hd hs hids
    exact ⟨count, hadds, fun hstatus =>
      ⟨hcount hstatus, hr.exists_told hd hs hids hstatus⟩⟩
  · intro hstatus t ht hrules
    exact hr.handle_again hd hs hstatus ht hrules

def shopConfig : Config where
  settings := ⟨"local", "info", "referral-ledger", "USD", ["*"], "", "0.0.0.0", 8000⟩
  source := Ledger.counting.source
  log := ⟨"referral-ledger", 20⟩

def bonus (id : String) : Value :=
  .map [("id", .text id), ("name", .text id),
    ("actions", .list [.map [("type", .text "reward"), ("params", .map [("amount", .int 5)])]])]

def stocked (s : Service) (v : Value) : Service :=
  (s.storeRule shopConfig.source v).toOption.getD s

theorem reaches_stocked (h : Reaches shopConfig s t) (v : Value) :
    Reaches shopConfig s (stocked t v) := by
  rw [stocked]
  cases hstored : t.storeRule shopConfig.source v with
  | error fault => exact h
  | ok u => exact h.rule v hstored

def shop : Service := stocked (stocked start (bonus "a:x")) (bonus "x")

def evaluating (userId evaluation : String) : Request :=
  ⟨"post", ⟨"/rules/evaluate", []⟩, "\x7b\"userId\": \"" ++ userId ++ "\", \"referenceId\": \"" ++
    evaluation ++ "\"\x7d", "application/json"⟩

theorem dispatch_evaluating : dispatch "" "/rules/evaluate" "POST" = .route .evaluate := by
  have hlocal : localPath "" "/rules/evaluate" = "/rules/evaluate" := by decide +kernel
  have hbreak : Route.withoutBreak "/rules/evaluate" = "/rules/evaluate" := by decide +kernel
  have hsplit : "/rules/evaluate".splitOn "/" = ["", "rules", "evaluate"] := by
    simp +decide [String.splitOn, String.splitOnAux]
  rw [dispatch, hlocal, Route.atPath, hbreak, hsplit]
  rfl

theorem declaresJson_evaluating : declaresJson "application/json" = true := by
  have hkind : String.ofList (Text.trimBy Text.isBlank
      (("application/json".toList.takeWhile (· ≠ ';')).map Char.toLower)) =
        "application/json" := by
    decide +kernel
  have hsplit : "application/json".splitOn "/" = ["application", "json"] := by
    simp +decide [String.splitOn, String.splitOnAux]
  rw [declaresJson, hkind, hsplit]
  rfl

theorem evaluates_posted {r : Request} {v : Value} {context : Members} {userId evaluation : String}
    (hmethod : r.method = "post") (hpath : r.target.path = "/rules/evaluate")
    (htype : r.contentType = "application/json") (hbody : r.body.isEmpty = false)
    (htext : bodyText? r.body = some r.body) (hread : Json.read r.body = .ok v)
    (hrequest : EvaluationRequest.ofValue v = .ok ⟨context, some userId, some evaluation⟩)
    (huser : userId ≠ "") (hevaluation : evaluation ≠ "") :
    Evaluates shopConfig r ⟨context, some userId, some evaluation⟩ userId evaluation := by
  have hpost : "post".map Char.toUpper = "POST" := by decide +kernel
  have hcontent : content r = .ok (.document v) := by
    rw [content, hbody, htype, declaresJson_evaluating, htext, Option.map_some, hread]
    rfl
  have hrequired : requiredBody r EvaluationRequest.ofValue =
      ((EvaluationRequest.ofValue v).within (.key "body")).mapError ofFaults := by
    rw [requiredBody, hcontent]
    rfl
  have hroute : dispatch shopConfig.settings.rootPath r.target.path "POST" = .route .evaluate :=
    hpath ▸ dispatch_evaluating
  rw [hrequest] at hrequired
  exact ⟨hmethod ▸ hpost, hroute, hrequired, rfl, huser, rfl, hevaluation⟩

theorem evaluates_evaluating {userId evaluation : String} (huser : userId ≠ "")
    (hevaluation : evaluation ≠ "") (hbody : (evaluating userId evaluation).body.isEmpty = false)
    (htext : bodyText? (evaluating userId evaluation).body =
      some (evaluating userId evaluation).body)
    (hread : Json.read (evaluating userId evaluation).body =
      .ok (.map [("userId", .text userId), ("referenceId", .text evaluation)])) :
    Evaluates shopConfig (evaluating userId evaluation) ⟨[], some userId, some evaluation⟩ userId
      evaluation :=
  evaluates_posted rfl rfl rfl hbody htext hread rfl huser hevaluation

theorem evaluates_ada : Evaluates shopConfig (evaluating "ada" "signup")
    ⟨[], some "ada", some "signup"⟩ "ada" "signup" :=
  evaluates_evaluating (by decide) (by decide) (by decide +kernel) (by decide +kernel)
    (by with_unfolding_all rfl)

theorem evaluates_bob : Evaluates shopConfig (evaluating "bob" "signup:a")
    ⟨[], some "bob", some "signup:a"⟩ "bob" "signup:a" :=
  evaluates_evaluating (by decide) (by decide) (by decide +kernel) (by decide +kernel)
    (by with_unfolding_all rfl)

theorem textIds_shop : TextIds shop.rules.list := by
  have hids : shop.rules.list.map (·.id) = [.text "a:x", .text "x"] := by with_unfolding_all rfl
  intro r hr
  have hid : r.id ∈ shop.rules.list.map (·.id) := List.mem_map_of_mem hr
  rw [hids, List.mem_pair] at hid
  rcases hid with hid | hid
  · exact ⟨_, hid⟩
  · exact ⟨_, hid⟩

/-- Of the two rewards that are due for one user, the first was recorded for another. -/
theorem evaluation_records_once_shop :
    let s := (handle shopConfig (evaluating "bob" "signup:a") shop).service
    let first := handle shopConfig (evaluating "ada" "signup") s
    let t := (handle shopConfig (evaluating "bob" "signup:a") first.service).service
    let again := handle shopConfig (evaluating "ada" "signup") t
    first.response.status = 200 ∧
      Award.isFree s.ledger "signup:a:x:0" = false ∧
      Award.Adds (.text "ada") ["signup:a:x:0", "signup:x:0"] s.ledger first.service.ledger ∧
      again.response.status = 200 ∧ again.service = t ∧
      again.response.entryIds = first.response.entryIds := by
  intro s first t again
  have hshop : Reaches shopConfig start shop := reaches_stocked (reaches_stocked .refl _) _
  have hs : Reaches shopConfig start s := hshop.request _
  have hrules : s.rules = shop.rules := by
    dsimp only [s]
    rw [evaluates_bob.handle_eq, rules_evaluate]
  have htrules : t.rules = s.rules := by
    dsimp only [t, first]
    rw [evaluates_bob.handle_eq, rules_evaluate, evaluates_ada.handle_eq, rules_evaluate]
  have hstatus : first.response.status = 200 := by
    dsimp only [first, s]
    rw [evaluates_bob.handle_eq, evaluates_ada.handle_eq]
    decide +kernel
  have hdue : rewardReferences "signup" [] s.rules.list = ["signup:a:x:0", "signup:x:0"] := by
    rw [hrules]
    decide +kernel
  have htaken : Award.isFree s.ledger "signup:a:x:0" = false := by
    dsimp only [s]
    rw [evaluates_bob.handle_eq]
    decide +kernel
  have honce := evaluation_records_once shopConfig Ledger.distinct_counting_source hs evaluates_ada
  obtain ⟨count, hadds, hall⟩ := honce.1 (hrules ▸ textIds_shop)
  rw [(hall hstatus).1, List.take_length, hdue] at hadds
  obtain ⟨hagain, hkept, hsame, -⟩ := honce.2 hstatus t (Reaches.refl.request _) htrules
  exact ⟨hstatus, htaken, hadds, hagain, hkept, hsame⟩

end Referral.Http.Service
