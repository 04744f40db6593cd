import Referral.Proofs.Ledger.Limits
import Referral.Proofs.Ledger.Refusal
import Referral.Proofs.Rule.Authoring

namespace Referral

theorem Params.get_ofMembers (members : Members) (name : Text) :
    (ofMembers members).get name = members.get name := by
  rw [get, Members.get, Members.value?]
  congr 1
  induction members with
  | nil => rfl
  | cons row members ih =>
      rw [ofMembers, List.map_cons, List.findSome?_cons, Table.lookup_cons_eq_ite]
      by_cases h : row.1 = name
      · simp [h]
      · rw [ofMembers] at ih
        simpa [h, Ne.symm h] using ih

theorem Ledger.actionAmount_eq {v : Value} {shown : String} {d : Decimal}
    (hshown : v.plain?.bind Text.string? = some shown)
    (hread : Quantity.read? shown = some (.finite d)) (hsign : d.isNegative = false) :
    actionAmount v = .ok d := by
  rw [actionAmount, hshown]
  dsimp only
  rw [hread]
  dsimp only
  rw [hsign]
  rfl

namespace Authoring

theorem exists_of_numericFault? {v : Value} (h : numericFault? v = none) :
    ∃ d, Ledger.actionAmount v = .ok d ∧ d.isNegative = false := by
  rw [numericFault?] at h
  split at h
  next hread => cases h
  next d hread =>
    obtain ⟨shown, hshown, hd⟩ := Option.bind_eq_some_iff.1 hread
    split at h
    · cases h
    next hsign =>
      rw [Bool.not_eq_true] at hsign
      exact ⟨d, Ledger.actionAmount_eq hshown hd hsign, hsign⟩
  next hread => cases h

theorem exists_actionAmount {amount : Value} (h : amountFault? amount = none) :
    ∃ d, Ledger.actionAmount (amount.orElse (.int 0)) = .ok d ∧ d.isNegative = false := by
  have hzero : numericFault? (.int 0) = none := by
    have hread : ((Value.int 0).plain?.bind Text.string?).bind Quantity.read? =
        some (.finite ⟨false, 0, 0⟩) := by decide +kernel
    rw [numericFault?, hread]
    rfl
  by_cases hfalsy : amount.isFalsy = true
  · rw [Value.orElse, if_pos hfalsy]
    exact exists_of_numericFault? hzero
  rw [Value.orElse, if_neg hfalsy]
  refine exists_of_numericFault? ?_
  cases amount with
  | null => exact absurd rfl hfalsy
  | text t =>
      have hfilled : ¬ t.isEmpty = true := hfalsy
      simpa only [amountFault?, if_neg hfilled] using h
  | int n => exact h
  | double x => exact h
  | bool | list | map => cases h

theorem exists_text {params : Members} {name : String} (h : textFault? params name = none)
    (default : String) : ∃ t, (params.get name).orElse (.text default) = .text t := by
  rw [Value.orElse]
  split
  · exact ⟨default, rfl⟩
  next hfalsy =>
    rw [textFault?] at h
    split at h
    next hnull => exact absurd (congrArg Value.isFalsy hnull) hfalsy
    next t ht => exact ⟨t, ht⟩
    next => cases h

theorem rewardFault?_eq_none {params : Members} (h : rewardFault? params = none) :
    amountFault? (params.get "amount") = none ∧ textFault? params "currency" = none ∧
      textFault? params "description" = none := by
  simpa [rewardFault?, and_assoc] using h

theorem eq_of_ofValue_reward {v : Value} (h : ActionKind.ofValue v = .reward) :
    v = .text "reward" := by
  by_contra hreward
  by_cases hnotification : v = .text "notification"
  · rw [hnotification] at h
    cases h
  · rw [ActionKind.ofValue_eq_other hreward hnotification] at h
    cases h

theorem KeepsAction.exists_reward {r : ActionRequest} {a : Action} (h : KeepsAction r a)
    {amount currency description : Value}
    (hreward : a.execute = .reward amount currency description) :
    ∃ d cur desc, Ledger.actionAmount amount = .ok d ∧ d.isNegative = false ∧
      currency = .text cur ∧ description = .text desc := by
  obtain ⟨kind, hkind, hread⟩ := h.kind
  have hname : kind = "reward" := by
    cases hcase : a.kind with
    | reward => simpa using eq_of_ofValue_reward (hread.symm.trans hcase)
    | notification | other => simp [Action.execute, hcase] at hreward
  obtain ⟨hamount, hcurrency, hdescription⟩ := rewardFault?_eq_none (h.checked (hname ▸ hkind))
  rw [Action.execute, hread, hname, h.params] at hreward
  simp only [Params.get_ofMembers] at hreward
  obtain ⟨d, hd, hsign⟩ := exists_actionAmount hamount
  obtain ⟨cur, hcur⟩ := exists_text hcurrency defaultCurrency
  obtain ⟨desc, hdesc⟩ := exists_text hdescription defaultDescription
  cases hreward
  exact ⟨d, cur, desc, hd, hsign, hcur, hdesc⟩

end Authoring

namespace Schema

variable {α β : Type} {keys : List String}

theorem isOk_app (f : Checked (α → β)) (x : Checked α) : (f.app x).isOk = (f.isOk && x.isOk) := by
  cases f <;> cases x <;> rfl

theorem isOk_within (step : Step) (x : Checked α) : (x.within step).isOk = x.isOk := by
  cases x <;> rfl

/-- The first fault, if there is any, is at one of the given members. -/
def Names (keys : List String) (x : Checked α) : Prop :=
  ∀ faults, x = .error faults → ∃ name ∈ keys, ∃ reason rest, faults = ⟨[.key name], reason⟩ :: rest

theorem names_ok (a : α) : Names keys (.ok a : Checked α) := fun _ h => nomatch h

theorem Names.app {f : Checked (α → β)} {x : Checked α} (hf : Names keys f) (hx : Names keys x) :
    Names keys (f.app x) := by
  intro faults h
  cases f with
  | ok f =>
      cases x with
      | ok a => cases h
      | error more =>
          cases h
          exact hx _ rfl
  | error first =>
      obtain ⟨name, hname, reason, rest, rfl⟩ := hf first rfl
      cases x with
      | ok a =>
          cases h
          exact ⟨name, hname, reason, rest, rfl⟩
      | error more =>
          cases h
          exact ⟨name, hname, reason, rest ++ more, rfl⟩

/-- The value has at most one fault, and it is about the value as a whole. -/
def Single (x : Checked α) : Prop := ∀ faults, x = .error faults → ∃ reason, faults = [⟨[], reason⟩]

theorem Single.names {x : Checked α} (h : Single x) {name : String} (hname : name ∈ keys) :
    Names keys (x.within (.key name)) := by
  intro faults hfaults
  cases x with
  | ok a => cases hfaults
  | error inner =>
      obtain ⟨reason, rfl⟩ := h inner rfl
      cases hfaults
      exact ⟨name, hname, reason, [], rfl⟩

theorem single_fail (reason : Reason) : Single (.fail reason : Checked α) := by
  intro faults h
  cases h
  exact ⟨reason, rfl⟩

theorem single_ok (a : α) : Single (.ok a : Checked α) := fun _ h => nomatch h

theorem single_rewardAmount (d : Decimal) : Single (rewardAmount d) := by
  rw [rewardAmount_eq]
  repeat' split
  all_goals first | exact single_fail _ | exact single_ok _

theorem isOk_rewardAmount (d : Decimal) : (rewardAmount d).isOk = true ↔ d.WithinLimits := by
  rw [← rewardAmount_eq_ok_iff]
  constructor
  · intro h
    cases hread : rewardAmount d with
    | error faults =>
        rw [hread] at h
        cases h
    | ok d' => rw [(rewardAmount_eq_ok hread).1]
  · intro h
    rw [h]
    rfl

theorem text_cases (t : Text) :
    (∃ s, t.string? = some s ∧ text (.text t) = .ok s) ∨
      t.string? = none ∧ text (.text t) = .fail .brokenText := by
  cases h : t.string? with
  | none => exact .inr ⟨rfl, by rw [text, string, h]; rfl⟩
  | some s => exact .inl ⟨s, rfl, by rw [text, string, h]; rfl⟩

theorem textOrNull_text (t : Text) :
    (textOrNull (.text t)).isOk = t.string?.isSome ∧ Single (textOrNull (.text t)) := by
  have hmap : textOrNull (.text t) = (text (.text t)).map some := rfl
  rcases text_cases t with ⟨s, hs, hread⟩ | ⟨hs, hread⟩
  · rw [hmap, hread, hs]
    exact ⟨rfl, single_ok _⟩
  · rw [hmap, hread, hs]
    exact ⟨rfl, single_fail _⟩

theorem filledText_text {t : Text} (h : t.isEmpty = false) :
    (filledText (.text t)).isOk = t.string?.isSome ∧ Single (filledText (.text t)) := by
  rcases text_cases t with ⟨s, hs, hread⟩ | ⟨hs, hread⟩
  · have hfilled : s.isEmpty = false := by
      rw [Text.string?] at hs
      split at hs
      next htail =>
        cases hs
        rwa [Text.isEmpty, htail, Bool.true_and] at h
      next => cases hs
    have hok : filledText (.text t) = .ok s := by
      rw [filledText, hread]
      change (if s.isEmpty then Checked.fail .emptyText else .ok s) = .ok s
      rw [hfilled]
      rfl
    rw [hok, hs]
    exact ⟨rfl, single_ok _⟩
  · have hfail : filledText (.text t) = .fail .brokenText := by
      rw [filledText, hread]
      rfl
    rw [hfail, hs]
    exact ⟨rfl, single_fail _⟩

end Schema

namespace Ledger

open Schema

theorem ofMembers_members (a : ActionReward) (d : Decimal) :
    RewardRequest.ofMembers (fun _ => rewardAmount d) a.members =
      (((((Checked.app (.ok RewardRequest.mk) ((filledText a.userId).within (.key "user_id"))).app
        ((rewardAmount d).within (.key "amount"))).app
        ((filledText a.reference).within (.key "reference_id"))).app
        ((textOrNull a.currency).within (.key "currency"))).app
        ((textOrNull a.description).within (.key "description"))).app
        ((mapping (a.metadata.orElse (.map []))).within (.key "metadata")) := rfl

structure Readable (a : ActionReward) (userId reference cur desc : Text) (d : Decimal) : Prop where
  userId : a.userId = .text userId ∧ userId.isEmpty = false
  reference : a.reference = .text reference ∧ reference.isEmpty = false
  amount : actionAmount a.amount = .ok d
  currency : a.currency = .text cur
  description : a.description = .text desc
  metadata : ∃ ms, mapping (a.metadata.orElse (.map [])) = .ok ms

variable {a : ActionReward} {userId reference cur desc : Text} {d : Decimal}

/-- No text has a lone surrogate, and the amount keeps the limits. -/
def Recordable (userId reference cur desc : Text) (d : Decimal) : Prop :=
  d.WithinLimits ∧ ∀ t ∈ [userId, reference, cur, desc], t.string?.isSome

theorem actionRequest_eq (ha : actionAmount a.amount = .ok d) :
    actionRequest a =
      match RewardRequest.ofMembers (fun _ => rewardAmount d) a.members with
      | .ok request => .ok request
      | .error (fault :: _) => .error (.rejectedReward fault)
      | .error [] => .error .unreadableAmount := by
  rw [actionRequest, ha]
  rfl

theorem Readable.actionRequest_cases (h : Readable a userId reference cur desc d) :
    (Recordable userId reference cur desc d ∧ ∃ request, actionRequest a = .ok request) ∨
      ¬ Recordable userId reference cur desc d ∧
        ∃ name ∈ ["user_id", "amount", "reference_id", "currency", "description"], ∃ reason,
          actionRequest a = .error (.rejectedReward ⟨[.key name], reason⟩) := by
  obtain ⟨huser, hfilled⟩ := h.userId
  obtain ⟨hreference, hfilled'⟩ := h.reference
  obtain ⟨ms, hmetadata⟩ := h.metadata
  have huser' := filledText_text hfilled
  have hreference' := filledText_text hfilled'
  have hcurrency := textOrNull_text cur
  have hdescription := textOrNull_text desc
  have hmembers := ofMembers_members a d
  rw [huser, hreference, h.currency, h.description, hmetadata] at hmembers
  have hok : (RewardRequest.ofMembers (fun _ => rewardAmount d) a.members).isOk = true ↔
      Recordable userId reference cur desc d := by
    simp only [hmembers, isOk_app, isOk_within, huser'.1, hreference'.1, hcurrency.1,
      hdescription.1, Bool.and_eq_true, isOk_rewardAmount, Recordable, List.forall_mem_cons]
    simp [Except.isOk, Except.toBool]
    tauto
  have hnames : Names ["user_id", "amount", "reference_id", "currency", "description"]
      (RewardRequest.ofMembers (fun _ => rewardAmount d) a.members) := by
    rw [hmembers]
    exact (((((names_ok _).app (huser'.2.names (by simp))).app
      ((single_rewardAmount d).names (by simp))).app (hreference'.2.names (by simp))).app
      (hcurrency.2.names (by simp))).app (hdescription.2.names (by simp)) |>.app (names_ok ms)
  rw [actionRequest_eq h.amount]
  cases hread : RewardRequest.ofMembers (fun _ => rewardAmount d) a.members with
  | ok request =>
      rw [hread] at hok
      exact .inl ⟨hok.1 rfl, request, rfl⟩
  | error faults =>
      rw [hread] at hok
      obtain ⟨name, hname, reason, rest, rfl⟩ := hnames faults hread
      exact .inr ⟨fun h => (nomatch hok.2 h), name, hname, reason, rfl⟩

def IsClash (e : LedgerError) : Prop := ∃ reference holder, e = .duplicateReference reference holder

theorem IsClash.kind_ne {e : LedgerError} (h : IsClash e) : e.report.kind ≠ .validation := by
  obtain ⟨reference, holder, rfl⟩ := h
  simp [LedgerError.report]

variable {α β : Type}

def Clashes (m : LedgerM α) (p : α → Prop) : Prop :=
  ∀ s, (∃ a, (m s).1 = .ok a ∧ p a) ∨ ∃ e, (m s).1 = .error e ∧ IsClash e

theorem clashes_pure {p : α → Prop} {a : α} (h : p a) : Clashes (pure a) p :=
  fun _ => .inl ⟨a, rfl, h⟩

theorem clashes_throw {p : α → Prop} {e : LedgerError} (h : IsClash e) : Clashes (throw e) p :=
  fun _ => .inr ⟨e, rfl, h⟩

theorem Clashes.bind {m : LedgerM α} {f : α → LedgerM β} {p : α → Prop} {q : β → Prop}
    (hm : Clashes m p) (hf : ∀ a, p a → Clashes (f a) q) : Clashes (m >>= f) q := by
  intro s
  rcases hended : m s with ⟨e | a, t⟩
  · rw [bind_error hended]
    rcases hm s with ⟨b, hb, -⟩ | ⟨e', he, hclash⟩
    · rw [hended] at hb
      cases hb
    · rw [hended] at he
      cases he
      exact .inr ⟨e, rfl, hclash⟩
  · rw [bind_ok hended]
    rcases hm s with ⟨b, hb, hp⟩ | ⟨e', he, -⟩
    · rw [hended] at hb
      cases hb
      exact hf a hp t
    · rw [hended] at he
      cases he

theorem Clashes.transaction {m : LedgerM α} {p : α → Prop} (h : Clashes m p) :
    Clashes (transaction m) p := by
  intro s
  have hbody := h { s with store := s.store.openScope.2 }
  rw [Ledger.transaction]
  dsimp only
  rcases hended : m { s with store := s.store.openScope.2 } with ⟨e | a, t⟩
  · rw [hended] at hbody
    exact hbody
  · rw [hended] at hbody
    exact hbody

theorem clashes_findReference (reference : String) :
    Clashes (findReference reference) fun _ => True := by
  intro s
  rw [findReference]
  split <;> exact .inl ⟨_, rfl, trivial⟩

theorem clashes_insert (e : Entry) :
    Clashes (insert e) fun fault => ∀ f, fault = some f → IsClash f := by
  intro s
  cases hholder : s.store.references.get? e.reference with
  | none =>
      rw [insert_free hholder]
      exact .inl ⟨none, rfl, fun f hf => nomatch hf⟩
  | some holder =>
      rw [insert_taken hholder]
      refine .inl ⟨_, rfl, fun f hf => ?_⟩
      cases hf
      exact ⟨_, _, rfl⟩

theorem clashes_create (config : LedgerConfig) (request : RewardRequest) :
    Clashes (create config request) fun _ => True := by
  refine Clashes.transaction ((clashes_findReference _).bind fun found _ => ?_)
  cases found with
  | some e => exact clashes_pure trivial
  | none =>
      refine Clashes.bind (fun _ => .inl ⟨_, rfl, trivial⟩) fun now (_ : True) => ?_
      refine Clashes.bind (fun _ => .inl ⟨_, rfl, trivial⟩) fun id (_ : True) => ?_
      refine (clashes_insert _).bind fun fault hfault => ?_
      cases fault with
      | none => exact clashes_pure trivial
      | some f =>
          refine (clashes_findReference _).bind fun winner _ => ?_
          cases winner with
          | some e => exact clashes_pure trivial
          | none => exact clashes_throw (hfault f rfl)

end Ledger

namespace Authoring

theorem KeepsRule.exists_action {request : RuleRequest} {r : Rule} (h : KeepsRule request r)
    {a : Action} (ha : a ∈ r.actions) : ∃ q ∈ request.actions, KeepsAction q a := by
  have hall := h.actions
  generalize request.actions = qs, r.actions = as at hall ha
  induction hall with
  | nil => cases ha
  | @cons q b qs as hfirst _ ih =>
      rcases List.mem_cons.1 ha with rfl | ha
      · exact ⟨q, List.mem_cons_self, hfirst⟩
      · obtain ⟨q', hq', hkeeps⟩ := ih ha
        exact ⟨q', List.mem_cons_of_mem _ hq', hkeeps⟩

theorem KeepsRule.exists_reward {request : RuleRequest} {r : Rule} (h : KeepsRule request r)
    {context : Members} {amount currency description : Value}
    (hreward : .reward amount currency description ∈ r.execute context) :
    ∃ d cur desc, Ledger.actionAmount amount = .ok d ∧ d.isNegative = false ∧
      currency = .text cur ∧ description = .text desc := by
  rw [Rule.execute] at hreward
  split at hreward
  · obtain ⟨a, ha, hexecute⟩ := List.mem_map.1 hreward
    obtain ⟨q, -, hkeeps⟩ := h.exists_action ha
    exact hkeeps.exists_reward hexecute
  · cases hreward

end Authoring

namespace RuleService

open Ledger (ActionReward Recordable IsClash createFromAction actionAmount)

/-- A rule for one reward, whatever the context holds under `n`. -/
def giving (amount currency : Value) : RuleRequest where
  name := some "bonus"
  conditions := [⟨none, none, some "n", some "contains", .text "", []⟩]
  actions := [⟨none, some "reward", [("amount", amount), ("currency", currency)]⟩]
  enabled := true

theorem execute_giving {source : Source} {amount currency : Value} {s s' : RuleState} {r : Rule}
    (h : create source (giving amount currency) s = (.ok r, s')) :
    r.execute [("n", .null)] =
      [.reward (amount.orElse (.int 0)) (currency.orElse (.text defaultCurrency))
        (.text defaultDescription)] := by
  obtain ⟨supply, store, hrule, -, -⟩ := exists_of_create h
  obtain ⟨ds, bs, hds, hbs, -, hholds, hactions⟩ :=
    (Authoring.keepsRule_of_rule hrule).1.exists_read
  cases hds
  cases hbs
  have hall : r.holds [("n", .null)] = true := (hholds _).trans rfl
  rw [Rule.execute, if_pos hall, hactions]
  rfl

def AcceptedAndRefused (amount currency : Value) : Prop :=
  ∃ r s', create Ledger.counting.source (giving amount currency) ⟨.empty, .fresh⟩ = (.ok r, s') ∧
    ∃ given coin description, .reward given coin description ∈ r.execute [("n", .null)] ∧
      ∃ e, (createFromAction Ledger.counting
          ⟨.text "ada", .text "signup", given, coin, description, .null⟩ (Ledger.start .fresh)).1 =
            .error e ∧ e.report.kind = .validation

theorem acceptedAndRefused_of {amount currency : Value}
    (haccepted : (create Ledger.counting.source (giving amount currency) ⟨.empty, .fresh⟩).1.isOk =
      true)
    (hrefused : ((createFromAction Ledger.counting ⟨.text "ada", .text "signup",
        amount.orElse (.int 0), currency.orElse (.text defaultCurrency), .text defaultDescription,
        .null⟩ (Ledger.start .fresh)).1.mapError (·.report.kind)).map (fun _ => ()) =
      .error .validation) : AcceptedAndRefused amount currency := by
  rcases hcreate : create Ledger.counting.source (giving amount currency) ⟨.empty, .fresh⟩
    with ⟨fault | r, s'⟩
  · rw [hcreate] at haccepted
    cases haccepted
  have hmem : .reward (amount.orElse (.int 0)) (currency.orElse (.text defaultCurrency))
      (.text defaultDescription) ∈ r.execute [("n", .null)] := by
    rw [execute_giving hcreate]
    exact List.mem_singleton_self _
  refine ⟨r, s', hcreate, _, _, _, hmem, ?_⟩
  generalize (createFromAction _ _ _).1 = tried at hrefused ⊢
  cases tried with
  | ok receipt => cases hrefused
  | error e => exact ⟨e, rfl, Except.error.inj hrefused⟩

end RuleService

end Referral
