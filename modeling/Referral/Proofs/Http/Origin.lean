import Referral.Proofs.Award.Origin
import Referral.Proofs.Http.Evaluation
import Referral.Proofs.Rule.Lookup

namespace Referral

open Award (Origin)

def RuleStore.Authored (source : Source) (s : RuleStore) : Prop :=
  s.EveryId fun id => ∃ n, id = .text (source.id "rule" n)

theorem RuleStore.authored_empty (source : Source) : empty.Authored source :=
  everyId_empty _

def RuleWrite.Authors : RuleWrite → Prop
  | create _ => True
  | delete _ => True
  | insert _ => False

namespace RuleService

variable {source : Source} {s s' : RuleState} {request : RuleRequest} {r : Rule}

theorem authored_write (h : s.store.Authored source) {w : RuleWrite} (hw : w.Authors) :
    (write source s w).store.Authored source := by
  obtain ⟨hchanged, -⟩ := changed_write source s w
  cases hchanged with
  | same w store => exact store ▸ h
  | created request id stored => exact h.insert ⟨_, id⟩ stored
  | deleted id gone => exact h.delete gone
  | inserted r stored => exact hw.elim

theorem authored_writes (h : s.store.Authored source) {ws : List RuleWrite}
    (hws : ∀ w ∈ ws, w.Authors) : (writes source s ws).store.Authored source := by
  induction ws generalizing s with
  | nil => exact h
  | cons w ws ih =>
      rw [List.forall_mem_cons] at hws
      exact ih (authored_write h hws.1) hws.2

theorem origin_of_create (h : create source request s = (.ok r, s')) (evaluation : Text)
    (index : Nat) :
    ∃ n, r.id = .text (source.id "rule" n) ∧
      Origin.of evaluation r index = ⟨evaluation, source.id "rule" n, index⟩ := by
  obtain ⟨supply, store, hrule, -, -⟩ := exists_of_create h
  obtain ⟨-, hid, -⟩ := Authoring.keepsRule_of_rule hrule
  refine ⟨_, hid, ?_⟩
  rw [Origin.of, hid]
  rfl

end RuleService

namespace Http.Service

variable {c : Config} {s : Service}

structure Authored (c : Config) (s : Service) : Prop where
  consistent : Ledger.Consistent (ledgerConfig c) s.ledgerState
  filed : s.rules.Filed
  rules : s.rules.Authored c.source

/-- A service with an empty ledger, for which rules were created. -/
def withRules (c : Config) (requests : List RuleRequest) : Service :=
  let rules := RuleService.writes c.source RuleService.start (requests.map .create)
  { start with rules := rules.store, supply := rules.supply }

theorem authored_withRules (c : Config) (requests : List RuleRequest) :
    Authored c (withRules c requests) where
  consistent := (Ledger.consistent_start (ledgerConfig c) .fresh).later (Nat.zero_le _)
  filed := (RuleService.sound_writes RuleService.sound_start _).filed
  rules := by
    refine RuleService.authored_writes (RuleStore.authored_empty c.source) ?_
    exact List.forall_mem_map.2 fun request _ => trivial

theorem Authored.textIds (h : Authored c s) : TextIds s.rules.list := by
  intro r hr
  obtain ⟨n, hid⟩ := h.rules r hr
  exact ⟨_, hid⟩

theorem rules_perform (path : String) (command : Ledger.Command) (s : Service) :
    (perform c path command s).service.rules = s.rules := by
  rw [service_perform]
  rfl

theorem rules_createRule (path : String) (request : RuleRequest) (s : Service) :
    (createRule c path request s).service.rules =
      (RuleService.write c.source s.ruleState (.create request)).store := by
  rw [createRule, RuleService.write]
  rcases RuleService.create c.source request s.ruleState with ⟨e | r, st⟩
  · dsimp only
    rw [service_ruleRefused]
  · rfl

theorem service_getRule (path id : String) (s : Service) : (getRule path id s).service = s := by
  rw [getRule]
  cases RuleService.find s.ruleState (.text id) with
  | error e => exact service_ruleRefused path e s
  | ok r => rfl

theorem rules_deleteRule (c : Config) (path id : String) (s : Service) :
    (deleteRule path id s).service.rules =
      (RuleService.write c.source s.ruleState (.delete (.text id))).store := by
  rw [deleteRule, RuleService.write]
  rcases RuleService.delete (.text id) s.ruleState with ⟨e | _, st⟩
  · dsimp only
    rw [service_ruleRefused]
  · rfl

theorem authored_rules_serve (h : s.rules.Authored c.source) (r : Request) (route : Route) :
    (serve c r s route).service.rules.Authored c.source := by
  have hreading {α : Type} (x : Except Response α) (f : α → Result)
      (hf : ∀ a, (f a).service.rules.Authored c.source) :
      (reading s x f).service.rules.Authored c.source := by
    cases x with
    | error response => exact h
    | ok a => exact hf a
  have hperform (path : String) (command : Ledger.Command) :
      (perform c path command s).service.rules.Authored c.source := by
    rw [rules_perform]
    exact h
  have hqueried {α : Type} (path : String) (x : Except QueryFault α) (f : α → Response) :
      (queried path s x f).service.rules.Authored c.source := by
    rw [service_queried]
    exact h
  cases route with
  | health | manual | listRules => exact h
  | createReward => exact hreading _ _ fun q => hperform _ _
  | confirm id | pay id => exact hperform _ _
  | reverse id => exact hreading _ _ fun q => hperform _ _
  | listEntries | getEntry id | balance userId | userEntries userId => exact hqueried _ _ _
  | history userId => exact hreading _ _ fun page => hqueried _ _ _
  | createRule =>
      refine hreading _ _ fun q => ?_
      rw [rules_createRule]
      exact RuleService.authored_write h trivial
  | evaluate =>
      refine hreading _ _ fun q => ?_
      rw [rules_evaluate]
      exact h
  | getRule id =>
      change (getRule _ id s).service.rules.Authored c.source
      rw [service_getRule]
      exact h
  | deleteRule id =>
      change (deleteRule _ id s).service.rules.Authored c.source
      rw [rules_deleteRule c]
      exact RuleService.authored_write h trivial

theorem Authored.handle (h : Authored c s) (hd : c.source.Distinct) (r : Request) :
    Authored c (handle c r s).service := by
  have hkeeps := keeps_handle hd r s
  refine ⟨(hkeeps.ledger h.consistent).1, hkeeps.rules h.filed, ?_⟩
  have hrules : (dispatched c (r.method.map Char.toUpper) r s).service.rules.Authored c.source := by
    rw [dispatched]
    split
    next route _ => exact authored_rules_serve h.rules r route
    next => exact h.rules
    next => exact h.rules
    next => exact h.rules
  rw [Service.handle]
  split
  · exact hrules
  · exact hrules

def after (c : Config) (rs : List Request) (s : Service) : Service :=
  rs.foldl (fun s r => (handle c r s).service) s

theorem Authored.after (h : Authored c s) (hd : c.source.Distinct) (rs : List Request) :
    Authored c (after c rs s) := by
  induction rs generalizing s with
  | nil => exact h
  | cons r rs ih => exact ih (h.handle hd r)

theorem reaches_after (c : Config) (rs : List Request) (s : Service) :
    Reaches c s (after c rs s) := by
  induction rs using List.reverseRecOn with
  | nil => exact .refl
  | append_singleton rs r ih =>
      rw [Service.after, List.foldl_append]
      exact ih.request r

/-- The answer to an evaluation tells of an entry by its identifier, for an action. -/
def Answered (c : Config) (r : Request) (s : Service) (o : Origin) (id : Value) : Prop :=
  ∃ request userId evaluation, Evaluates c r request userId evaluation ∧
    (handle c r s).response.status = 200 ∧
    (o, id) ∈ (Award.origins evaluation request.context s.rules.list).zip
      (handle c r s).response.entryIds

/-- One of the answers of a run tells of the entry for the action. -/
inductive Tells (c : Config) : List Request → Service → Origin → Value → Prop
  | now {r rs s o id} (answer : Answered c r s o id) : Tells c (r :: rs) s o id
  | later {r rs s o id} (rest : Tells c rs (handle c r s).service o id) : Tells c (r :: rs) s o id

def Recorded (c : Config) (s : Service) (o : Origin) (id : Value) : Prop :=
  (∃ n, o.rule = c.source.id "rule" n) ∧
    ∃ e ∈ s.ledger.list, id = .text e.id ∧ (e.reference : Text) = o.reference

variable {o o' : Origin} {id : Value}

theorem Recorded.later {t : Service} (h : Recorded c s o id) (hs : Authored c s)
    (hd : c.source.Distinct) (ht : Reaches c s t) : Recorded c t o id := by
  obtain ⟨hrule, e, he, rfl, hreference⟩ := h
  obtain ⟨e', he', hbecame⟩ := ((ht.keeps hd).ledger hs.consistent).2 e he
  rw [Entry.Became] at hbecame
  refine ⟨hrule, e', he', ?_, ?_⟩
  · rw [hbecame]
    rfl
  · rw [hbecame]
    exact hreference

theorem Recorded.eq (h : Recorded c s o id) (h' : Recorded c s o' id) (hs : Authored c s)
    (hx : c.source.Hexadecimal) : o = o' := by
  obtain ⟨⟨n, hn⟩, e, he, rfl, hreference⟩ := h
  obtain ⟨⟨n', hn'⟩, e', he', hid, hreference'⟩ := h'
  obtain rfl := hs.consistent.indexed.eq_of_id he he' (by simpa using hid)
  refine Origin.reference_inj ?_ ?_ (hreference.symm.trans hreference')
  · rw [hn]
    exact colon_notMem_symbols_id hx (by decide) n
  · rw [hn']
    exact colon_notMem_symbols_id hx (by decide) n'

theorem Authored.forall₂_told (hs : Authored c s) (hd : c.source.Distinct) {r : Request}
    {request : EvaluationRequest} {userId evaluation : String}
    (hr : Evaluates c r request userId evaluation)
    (hstatus : (Service.handle c r s).response.status = 200) :
    List.Forall₂ (Recorded c (Service.handle c r s).service)
      (Award.origins evaluation request.context s.rules.list)
      (Service.handle c r s).response.entryIds := by
  obtain ⟨es, hstored, hreferences, hids⟩ :=
    hr.exists_told_of_consistent hd hs.consistent hs.filed hs.textIds hstatus
  rw [← Award.references_origins] at hreferences
  have hsame : List.Forall₂ (fun o e => Origin.reference o = ((e : Entry).reference : Text))
      (Award.origins evaluation request.context s.rules.list) es := by
    have hequal := List.forall₂_eq_eq_eq ▸ hreferences.symm
    rwa [List.forall₂_map_left_iff, List.forall₂_map_right_iff] at hequal
  have hall : ∀ o e, (o, e) ∈ (Award.origins evaluation request.context s.rules.list).zip es →
      Recorded c (Service.handle c r s).service o (.text e.id) := by
    intro o e hmem
    obtain ⟨r', hr', index, rfl⟩ := Award.exists_of_mem_origins (List.of_mem_zip hmem).1
    obtain ⟨n, hid⟩ := hs.rules r' hr'
    refine ⟨⟨n, ?_⟩, e, hstored e (List.of_mem_zip hmem).2, rfl, ?_⟩
    · rw [Origin.of, hid]
      rfl
    · exact ((List.forall₂_iff_zip.1 hsame).2 hmem).symm
  rw [hids, List.forall₂_map_right_iff]
  exact List.forall₂_iff_zip.2 ⟨hsame.length_eq, fun hmem => hall _ _ hmem⟩

theorem Tells.recorded {rs : List Request} (h : Tells c rs s o id) (hs : Authored c s)
    (hd : c.source.Distinct) : Recorded c (Service.after c rs s) o id := by
  induction h with
  | @now r rs s o id answer =>
      obtain ⟨request, userId, evaluation, hr, hstatus, hmem⟩ := answer
      have hfirst := (List.forall₂_iff_zip.1 (hs.forall₂_told hd hr hstatus)).2 hmem
      exact hfirst.later (hs.handle hd r) hd (reaches_after c rs _)
  | later rest ih => exact ih (hs.handle hd _)

/-- The references of rewards for created rules tell the evaluation, the rule and the action, and
are never those of reversals. So no two answers of a run tell of the same entry, unless for the same
action of the same evaluation. -/
theorem rewards_told_apart (c : Config) (hd : c.source.Distinct) (hx : c.source.Hexadecimal) :
    (∀ {s s' t t' : RuleState} {q q' : RuleRequest} {r r' : Rule},
      RuleService.create c.source q s = (.ok r, s') →
      RuleService.create c.source q' t = (.ok r', t') →
      ∀ (evaluation evaluation' : Text) (index index' : Nat),
        (Origin.of evaluation r index).reference = (Origin.of evaluation' r' index').reference →
          evaluation = evaluation' ∧ r.id = r'.id ∧ index = index') ∧
    (∀ (evaluation : Text) (r : Rule) (index n : Nat),
      (Origin.of evaluation r index).reference ≠
        (reversalReference (c.source.id "entry" n) : Text)) ∧
    ∀ (requests : List RuleRequest) (rs : List Request),
      let s := after c rs (withRules c requests)
      (∀ e ∈ s.ledger.list, ∃ n, e.id = c.source.id "entry" n) ∧
      (s.rules.list.map (·.id)).Nodup ∧
      (∀ {r request userId evaluation}, Evaluates c r request userId evaluation →
        (handle c r s).response.status = 200 →
          (handle c r s).response.entryIds.length =
            (Award.origins evaluation request.context s.rules.list).length) ∧
      ∀ {o o' id}, Tells c rs (withRules c requests) o id →
        Tells c rs (withRules c requests) o' id → o = o' := by
  have hrule (n : Nat) : Symbol.char ':' ∉ (c.source.id "rule" n : Text).symbols :=
    colon_notMem_symbols_id hx (by decide) n
  refine ⟨?_, ?_, fun requests rs => ⟨?_, ?_, ?_, ?_⟩⟩
  · intro s s' t t' q q' r r' h h' evaluation evaluation' index index' heq
    obtain ⟨n, hid, horigin⟩ := RuleService.origin_of_create h evaluation index
    obtain ⟨n', hid', horigin'⟩ := RuleService.origin_of_create h' evaluation' index'
    rw [horigin, horigin'] at heq
    obtain ⟨hevaluation, hsame, hindex⟩ :=
      Origin.mk.inj (Origin.reference_inj (hrule n) (hrule n') heq)
    exact ⟨hevaluation, by rw [hid, hid', hsame], hindex⟩
  · intro evaluation r index n
    exact Origin.reference_ne_reversal _ (hx.colon_notMem_id (by decide) n)
  · intro e he
    obtain ⟨n, -, hid⟩ := ((authored_withRules c requests).after hd rs).consistent.issued e he
    exact ⟨n, hid⟩
  · have hs := (authored_withRules c requests).after hd rs
    exact hs.filed.nodup_ids hs.textIds
  · intro r request userId evaluation hr hstatus
    exact (((authored_withRules c requests).after hd rs).forall₂_told hd hr hstatus).length_eq.symm
  · intro o o' id h h'
    have hs := authored_withRules c requests
    exact (h.recorded hs hd).eq (h'.recorded hs hd) (hs.after hd rs) hx

def doubled : RuleRequest where
  name := some "doubled"
  conditions := [⟨none, none, some "n", some "equals", .int 1, []⟩]
  actions := [⟨none, some "reward", [("amount", .int 5)]⟩,
    ⟨none, some "reward", [("amount", .int 7)]⟩]
  enabled := true

def visiting (evaluation : String) : Request :=
  ⟨"post", ⟨"/rules/evaluate", []⟩, "\x7b\"context\": \x7b\"n\": 1\x7d, \"userId\": \"ada\", " ++
    "\"referenceId\": \"" ++ evaluation ++ "\"\x7d", "application/json"⟩

theorem evaluates_visiting {evaluation : String} (hevaluation : evaluation ≠ "")
    (hbody : (visiting evaluation).body.isEmpty = false)
    (htext : bodyText? (visiting evaluation).body = some (visiting evaluation).body)
    (hread : Json.read (visiting evaluation).body =
      .ok (.map [("context", .map [("n", .int 1)]), ("userId", .text "ada"),
        ("referenceId", .text evaluation)])) :
    Evaluates shopConfig (visiting evaluation) ⟨[("n", .int 1)], some "ada", some evaluation⟩ "ada"
      evaluation :=
  evaluates_posted rfl rfl rfl hbody htext hread rfl (by decide) hevaluation

theorem evaluates_signup : Evaluates shopConfig (visiting "signup")
    ⟨[("n", .int 1)], some "ada", some "signup"⟩ "ada" "signup" :=
  evaluates_visiting (by decide) (by decide +kernel) (by decide +kernel)
    (by with_unfolding_all rfl)

theorem evaluates_signupAgain : Evaluates shopConfig (visiting "signup:0")
    ⟨[("n", .int 1)], some "ada", some "signup:0"⟩ "ada" "signup:0" :=
  evaluates_visiting (by decide) (by decide +kernel) (by decide +kernel)
    (by with_unfolding_all rfl)

/-- The rewards of one evaluation, and those of another whose reference goes on with a colon and a
digit. -/
theorem rewards_told_apart_shop :
    let source := shopConfig.source
    let s := withRules shopConfig [doubled]
    let rs := [visiting "signup", visiting "signup:0"]
    let rule : Text := source.id "rule" 1
    source.Distinct ∧ source.Hexadecimal ∧
    (∃ r st, RuleService.create source doubled RuleService.start = (.ok r, st) ∧ r.id = .text rule ∧
      (Origin.of "signup:0" r 1).reference ≠ (Origin.of "signup" r 0).reference ∧
      (Origin.of "reversal-" r 0).reference ≠ (reversalReference (source.id "entry" 1) : Text)) ∧
    ∃ first second third, Tells shopConfig rs s ⟨"signup", rule, 0⟩ first ∧
      Tells shopConfig rs s ⟨"signup", rule, 1⟩ second ∧
      Tells shopConfig rs s ⟨"signup:0", rule, 0⟩ third ∧ first ≠ second ∧ first ≠ third ∧
      second ≠ third := by
  intro source s rs rule
  have hd : source.Distinct := Ledger.distinct_counting_source
  have hx : source.Hexadecimal := hexadecimal_counting _ _
  obtain ⟨hreferences, hreversal, hruns⟩ := rewards_told_apart shopConfig hd hx
  refine ⟨hd, hx, ?_, ?_⟩
  · have hcreated :
        (RuleService.create source doubled RuleService.start).1.toOption.isSome = true := by
      decide +kernel
    rcases hcreate : RuleService.create source doubled RuleService.start with ⟨fault | r, st⟩
    · rw [hcreate] at hcreated
      cases hcreated
    obtain ⟨supply, store, hrule, -, -⟩ := RuleService.exists_of_create hcreate
    refine ⟨r, st, rfl, (Authoring.keepsRule_of_rule hrule).2.1, fun heq => ?_,
      hreversal "reversal-" r 0 1⟩
    exact absurd (hreferences hcreate hcreate _ _ _ _ heq).2.2 (by decide)
  let later := (handle shopConfig (visiting "signup") s).service
  have hfirst : (handle shopConfig (visiting "signup") s).response.status = 200 := by
    rw [evaluates_signup.handle_eq]
    decide +kernel
  have hsecond : (handle shopConfig (visiting "signup:0") later).response.status = 200 := by
    dsimp only [later]
    rw [evaluates_signupAgain.handle_eq, evaluates_signup.handle_eq]
    decide +kernel
  have hdue : Award.origins "signup" [("n", .int 1)] s.rules.list =
      [⟨"signup", rule, 0⟩, ⟨"signup", rule, 1⟩] := by
    decide +kernel
  have hdueLater : Award.origins "signup:0" [("n", .int 1)] later.rules.list =
      [⟨"signup:0", rule, 0⟩, ⟨"signup:0", rule, 1⟩] := by
    have hrules : later.rules = s.rules := by
      dsimp only [later]
      rw [evaluates_signup.handle_eq, rules_evaluate]
    rw [hrules]
    decide +kernel
  obtain ⟨-, -, htold, -⟩ := hruns [doubled] []
  obtain ⟨-, -, htoldLater, -⟩ := hruns [doubled] [visiting "signup"]
  have hcount := htold evaluates_signup hfirst
  have hcountLater := htoldLater evaluates_signupAgain hsecond
  obtain ⟨first, second, hids⟩ := List.length_eq_two.1 (hcount.trans (congrArg List.length hdue))
  obtain ⟨third, fourth, hidsLater⟩ :=
    List.length_eq_two.1 (hcountLater.trans (congrArg List.length hdueLater))
  have h : Tells shopConfig rs s ⟨"signup", rule, 0⟩ first := by
    refine .now ⟨_, _, _, evaluates_signup, hfirst, ?_⟩
    rw [hdue]
    exact hids ▸ List.mem_cons_self
  have h' : Tells shopConfig rs s ⟨"signup", rule, 1⟩ second := by
    refine .now ⟨_, _, _, evaluates_signup, hfirst, ?_⟩
    rw [hdue]
    exact hids ▸ List.mem_cons_of_mem _ List.mem_cons_self
  have h'' : Tells shopConfig rs s ⟨"signup:0", rule, 0⟩ third := by
    refine .later (.now ⟨_, _, _, evaluates_signupAgain, hsecond, ?_⟩)
    rw [hdueLater]
    exact hidsLater ▸ List.mem_cons_self
  obtain ⟨-, -, -, hapart⟩ := hruns [doubled] rs
  refine ⟨first, second, third, h, h', h'', ?_, ?_, ?_⟩
  · rintro rfl
    exact absurd (Origin.mk.inj (hapart h h')).2.2 (by decide)
  · rintro rfl
    exact absurd (Origin.mk.inj (hapart h h'')).1 (by decide)
  · rintro rfl
    exact absurd (Origin.mk.inj (hapart h' h'')).1 (by decide)

end Http.Service

end Referral
