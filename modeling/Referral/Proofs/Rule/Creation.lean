import Referral.Proofs.Award.Recordable
import Referral.Proofs.Rule.FirstFault
import Referral.Proofs.Rule.Places
import Referral.Proofs.Rule.Room

namespace Referral

open Authoring (blame amountFault?)

namespace RuleService

variable {source : Source} {request : RuleRequest} {s : RuleState}

inductive Creating (request : RuleRequest) (room : Nat) (s : RuleState) :
    Except RuleError Rule × RuleState → Prop
  | stored (r : Rule) (store : RuleStore) (supply : Supply) (faultless : request.faults = [])
      (copied : request.copySteps + 2 ≤ room)
      (insert : s.store.insertWithin r (room - 2) = .ok store) :
      Creating request room s (.ok r, ⟨store, supply⟩)
  | refused (f : AuthoringFault) (rest : List AuthoringFault) (supply : Supply)
      (faults : request.faults = f :: rest) :
      Creating request room s (.error (.authoring f), ⟨s.store, supply⟩)
  | tooDeep (supply : Supply) (deep : room < request.calls ∨
      request.faults = [] ∧ room < request.copySteps + 2) :
      Creating request room s (.error (.shape .tooDeep), ⟨s.store, supply⟩)

theorem creating_createWithin (source : Source) (request : RuleRequest) (room : Nat)
    (s : RuleState) : Creating request room s (createWithin source request room s) := by
  obtain hdone | ⟨hroom, supply, hdone⟩ := createWithin_eq source request room s
  · have hreports := Authoring.reports_rule source request s.supply
    rw [hdone]
    generalize Authoring.rule source request s.supply = ended at hreports
    generalize hfaults : request.faults = faults at hreports
    obtain ⟨result, supply⟩ := ended
    dsimp only at hreports
    cases hreports with
    | refused f rest => exact .refused f rest supply hfaults
    | @done r described =>
        obtain ⟨hsteps, t, hid⟩ := described
        dsimp only
        rcases Nat.lt_or_ge (room - 2) request.copySteps with hdeep | hcopied
        · have hinsert : s.store.insertWithin r (room - 2) = .error .tooDeep := by
            rw [RuleStore.insertWithin, if_pos (hsteps ▸ hdeep)]
            rfl
          rw [hinsert]
          exact .tooDeep supply (.inr ⟨hfaults, by omega⟩)
        · have hinsert : ∃ store, s.store.insertWithin r (room - 2) = .ok store := by
            rw [RuleStore.insertWithin, if_neg (Nat.not_lt.2 (hsteps ▸ hcopied)), hid]
            exact ⟨_, rfl⟩
          obtain ⟨store, hinsert⟩ := hinsert
          have hsome : 6 ≤ request.copySteps := Nat.le_add_left 6 _
          rw [hinsert]
          exact .stored r store supply hfaults (by omega) hinsert
  · rw [hdone]
    exact .tooDeep supply (.inl hroom)

/-- Where the stack has room for it, a request that is well formed becomes a stored rule, and any
other is refused for the first of its faults, whose path leads to what is wrong. Whatever fails
leaves the store as it is, and so does a want of room. -/
theorem created_iff_wellFormed (source : Source) (request : RuleRequest) (room : Nat)
    (s : RuleState) :
    let done := createWithin source request room s
    (request.calls ≤ room → ((∃ r, done.1 = .ok r) ↔
      request.WellFormed IsReadableAmount ∧ request.copySteps + 2 ≤ room)) ∧
    (∀ r, done.1 = .ok r → request.WellFormed IsReadableAmount ∧
      request.copySteps + 2 ≤ room ∧ s.store.insertWithin r (room - 2) = .ok done.2.store) ∧
    (∀ e, done.1 = .error e → done.2.store = s.store) ∧
    (¬ request.WellFormed IsReadableAmount →
      (room < request.calls ∧ done.1 = .error (.shape .tooDeep)) ∨ ∃ f rest v,
        request.faults = f :: rest ∧ done.1 = .error (.authoring f) ∧
        f.report.kind = .validation ∧
        f.report.details = ([("field", .text (writtenPath f.path))] : Members) ∧
        request.wire.at? f.path = some v ∧ f.reason.Concerns v) := by
  intro done
  rw [← request.faults_eq_nil_iff]
  have hcreating : Creating request room s done := creating_createWithin source request room s
  generalize done = done at hcreating
  cases hcreating with
  | stored r store supply faultless copied insert =>
      exact ⟨fun _ => iff_of_true ⟨r, rfl⟩ ⟨faultless, copied⟩,
        fun _ h => ⟨faultless, copied, Except.ok.inj h ▸ insert⟩, nofun,
        fun h => absurd faultless h⟩
  | refused f rest supply faults =>
      have hfaulty : request.faults ≠ [] := faults ▸ List.cons_ne_nil f rest
      obtain ⟨-, v, rfl, hat, hconcerns⟩ :=
        request.inside_faults (faults ▸ List.mem_cons_self : f ∈ request.faults)
      exact ⟨fun _ => iff_of_false nofun fun h => hfaulty h.1, nofun, fun _ _ => rfl, fun _ =>
        .inr ⟨f, rest, v, faults, rfl, rfl, rfl, hat, hconcerns⟩⟩
  | tooDeep supply deep =>
      refine ⟨fun hcalls => iff_of_false nofun ?_, nofun, fun _ _ => rfl,
        fun hfaulty => .inl ⟨?_, rfl⟩⟩
      · rintro ⟨-, hcopied⟩
        obtain hroom | ⟨-, hroom⟩ := deep <;> omega
      · exact deep.resolve_right fun h => hfaulty h.1

def joining (conditions : List ConditionRequest) : RuleRequest where
  name := some " bonus "
  conditions := [⟨none, none, none, some "and", .null,
    [⟨none, some "amount", some "total", some "greater_than", .int 5, []⟩,
      ⟨none, none, none, some "or", .null, conditions⟩]⟩]
  actions := [⟨none, some "reward", [("amount", .text "1e2")]⟩]
  enabled := true

/-- One city is stored. Without a field, the city is refused before the operator after it that is
not known. -/
theorem created_iff_wellFormed_joining :
    let city : ConditionRequest := ⟨none, none, some "city", some "equals", .text "Riga", []⟩
    let faulty := joining [{ city with field := none }, { city with operator := some "xor" }]
    (∃ r s, createWithin Ledger.counting.source (joining [city]) 32 ⟨.empty, .fresh⟩ = (.ok r, s) ∧
      RuleStore.empty.insertWithin r 30 = .ok s.store) ∧
    ∃ f s, createWithin Ledger.counting.source faulty 32 ⟨.empty, .fresh⟩ =
        (.error (.authoring f), s) ∧
      s.store = .empty ∧
      f.report.details =
        ([("field", .text "conditions[0].children[1].children[0].field")] : Members) ∧
      faulty.wire.at? f.path = some .null := by
  intro city faulty
  have hwellFormed : (joining [city]).WellFormed IsReadableAmount :=
    (joining [city]).faults_eq_nil_iff.1 (List.isEmpty_iff.1 (by decide +kernel))
  have hpath : faulty.faults.head?.map AuthoringFault.path = some [.key "conditions", .index 0,
      .key "children", .index 1, .key "children", .index 0, .key "field"] := by decide +kernel
  have hfaulty : ¬ faulty.WellFormed IsReadableAmount := fun h => by
    rw [faulty.faults_eq_nil_iff.2 h] at hpath
    cases hpath
  constructor
  · have hcreated :=
      created_iff_wellFormed Ledger.counting.source (joining [city]) 32 ⟨.empty, .fresh⟩
    rcases hended : createWithin Ledger.counting.source (joining [city]) 32 ⟨.empty, .fresh⟩ with
      ⟨result, s⟩
    rw [hended] at hcreated
    obtain ⟨r, rfl⟩ := (hcreated.1 (by decide +kernel)).2 ⟨hwellFormed, by decide +kernel⟩
    exact ⟨r, s, rfl, (hcreated.2.1 r rfl).2.2⟩
  · have hrefused := created_iff_wellFormed Ledger.counting.source faulty 32 ⟨.empty, .fresh⟩
    rcases hended : createWithin Ledger.counting.source faulty 32 ⟨.empty, .fresh⟩ with ⟨result, s⟩
    rw [hended] at hrefused
    obtain ⟨-, -, hkept, hreported⟩ := hrefused
    have hroom : ¬ 32 < faulty.calls := by decide +kernel
    obtain ⟨f, rest, v, hfaults, rfl, -, hdetails, -, -⟩ :=
      (hreported hfaulty).resolve_left fun hdeep => hroom hdeep.1
    rw [hfaults, List.head?_cons, Option.map_some, Option.some.injEq] at hpath
    rw [hpath] at hdetails
    refine ⟨f, s, rfl, hkept _ rfl, hdetails.trans ?_, ?_⟩
    · have hwritten : writtenPath [.key "conditions", .index 0, .key "children", .index 1,
          .key "children", .index 0, .key "field"] =
            "conditions[0].children[1].children[0].field" := by decide +kernel
      rw [hwritten]
    · rw [hpath]
      rfl

theorem wellFormed_giving {amounts : Value → Prop} {amount : Value} (h : amounts amount) :
    (giving amount (.text "USD")).WellFormed amounts := by
  have hfive : (giving (.int 5) (.text "USD")).WellFormed IsReadableAmount :=
    (giving (.int 5) (.text "USD")).faults_eq_nil_iff.1 (List.isEmpty_iff.1 (by decide +kernel))
  refine ⟨hfive.name, hfive.conditions_ne, List.cons_ne_nil _ _, hfive.conditions, fun a ha => ?_⟩
  obtain rfl := List.mem_singleton.1 ha
  exact ⟨⟨"reward", by decide, rfl⟩, fun _ => .inr (.inr h), fun _ =>
    List.forall_mem_cons.2 ⟨.inr ⟨"USD", rfl⟩, List.forall_mem_singleton.2 (.inl rfl)⟩⟩

theorem faults_giving (amount : Value) :
    (giving amount (.text "USD")).faults =
      blame [.key "actions", .index 0, .key "params", .key "amount"] (amountFault? amount) := by
  have hname : (giving amount (.text "USD")).trimmedName = "bonus" := by
    change String.ofList (Text.trimBy Text.isBlank "bonus".toList) = "bonus"
    decide +kernel
  have hconditions : ConditionRequest.listFaults [.key "conditions"] 0
      [⟨none, none, some "n", some "contains", .text "", []⟩] = [] :=
    List.isEmpty_iff.1 (by decide +kernel)
  have hknown : (some "reward" : Option String).any Authoring.knownActions.contains = true := by
    decide +kernel
  have hget (name : Text) : Members.get [("amount", amount), ("currency", .text "USD")] name =
      if name = "amount" then amount else if name = "currency" then .text "USD" else .null := by
    rw [Members.get_cons, Members.get_cons]
    rfl
  rw [RuleRequest.faults, hname]
  simp [giving, hconditions, ActionRequest.listFaults, ActionRequest.faults, hknown,
    ActionRequest.rewardFaults, Authoring.check, Authoring.textFault?, hget, blame]

theorem amountFault?_tooLong {n : Int} (h : tooLong n = true) :
    amountFault? (.int n) = some .amountNotNumber := by
  have hplain : (Value.int n).plain? = none := by
    simp [Value.plain?, Value.nested?, decimalText?, h]
  rw [amountFault?, Authoring.numericFault?, hplain]
  rfl

theorem createWithin_refused {f : AuthoringFault} {rest : List AuthoringFault} {room : Nat}
    (h : request.faults = f :: rest) (hroom : request.calls ≤ room) :
    (createWithin source request room s).1 = .error (.authoring f) := by
  have hcreating := creating_createWithin source request room s
  generalize createWithin source request room s = done at hcreating
  cases hcreating with
  | stored r store supply faultless copied =>
      rw [h] at faultless
      cases faultless
  | tooDeep supply deep =>
      obtain hdeep | ⟨faultless, -⟩ := deep
      · exact absurd hroom (Nat.not_le.2 hdeep)
      · rw [h] at faultless
        cases faultless
  | refused f' rest' supply faults =>
      rw [List.head_eq_of_cons_eq (faults.symm.trans h)]

theorem createWithin_tooDeep {room : Nat} (h : request.faults = [])
    (hroom : room < request.copySteps + 2) :
    (createWithin source request room s).1 = .error (.shape .tooDeep) := by
  have hcreating := creating_createWithin source request room s
  generalize createWithin source request room s = done at hcreating
  cases hcreating with
  | stored r store supply faultless copied => exact absurd hroom (Nat.not_lt.2 copied)
  | refused f rest supply faults =>
      rw [h] at faults
      cases faults
  | tooDeep => rfl

theorem tooLong_ten_pow : tooLong (10 ^ digitLimit) = true := by
  have htooLong (n : Int) : tooLong n = true ↔ Nat.pow 10 digitLimit ≤ n.natAbs :=
    decide_eq_true_iff
  have hpower (k : Nat) : Nat.pow 10 k ≤ ((10 : Int) ^ k).natAbs := by
    rw [Int.natAbs_pow]
    exact Nat.le_refl _
  exact (htooLong _).2 (hpower digitLimit)

theorem isAmount_int {n : Int} (h : 0 ≤ n) : IsAmount (.int n) := by
  refine ⟨.ofInt n, .int n, Decimal.toRat_nonneg ?_⟩
  rw [Decimal.isNegative, Decimal.ofInt, decide_eq_false (Int.not_lt.2 h), Bool.false_and]

def tower : Nat → ConditionRequest
  | 0 => ⟨none, none, some "n", some "contains", .text "", []⟩
  | n + 1 => ⟨none, none, none, some "and", .null, [tower n]⟩

/-- Two requests with nothing wrong but their size do not become rules: an integer of 4301 digits
has no text, and 201 conditions one inside another are not copied. -/
theorem refused_for_size :
    let long := giving (.int (10 ^ digitLimit)) (.text "USD")
    let deep := { giving (.int 5) (.text "USD") with conditions := [tower 200] }
    (long.WellFormed IsAmount ∧
      (createWithin Ledger.counting.source long 1000 ⟨.empty, .fresh⟩).1 = .error (.authoring
        ⟨[.key "actions", .index 0, .key "params", .key "amount"], .amountNotNumber⟩)) ∧
    deep.WellFormed IsAmount ∧
      (createWithin Ledger.counting.source deep 1000 ⟨.empty, .fresh⟩).1 =
        .error (.shape .tooDeep) := by
  intro long deep
  have hlong : long.faults =
      [⟨[.key "actions", .index 0, .key "params", .key "amount"], .amountNotNumber⟩] := by
    rw [faults_giving, amountFault?_tooLong tooLong_ten_pow]
    rfl
  have hdeep : deep.faults = [] := List.isEmpty_iff.1 (by decide +kernel)
  have hamount : IsAmount (.int (10 ^ digitLimit)) := isAmount_int (Int.pow_nonneg (by decide))
  have hlongRoom : long.calls ≤ 1000 := Nat.le_of_ble_eq_true rfl
  refine ⟨⟨wellFormed_giving hamount, createWithin_refused hlong hlongRoom⟩, ?_, ?_⟩
  · exact (deep.faults_eq_nil_iff.1 hdeep).mono fun v => IsReadableAmount.isAmount
  · exact createWithin_tooDeep hdeep (by decide +kernel)

end RuleService

end Referral
