import Referral.Proofs.Award.Recordable
import Referral.Proofs.Ledger.Amount
import Referral.Proofs.Rule.Calls

namespace Referral

theorem mem_trimBy {cls : Char → Bool} {c : Char} (hc : cls c = false) {s : List Char} (h : c ∈ s) :
    c ∈ Text.trimBy cls s := by
  have hdrop {s : List Char} (h : c ∈ s) : c ∈ s.dropWhile cls := by
    induction s with
    | nil => exact absurd h List.not_mem_nil
    | cons d s ih =>
        by_cases hd : cls d = true
        · rw [List.dropWhile_cons_of_pos hd]
          rcases List.mem_cons.1 h with rfl | h
          · rw [hc] at hd
            cases hd
          · exact ih h
        · rwa [List.dropWhile_cons_of_neg hd]
  exact List.mem_reverse.2 (hdrop (List.mem_reverse.2 (hdrop h)))

def otherMarks : List Char := ['[', '\x7b', 'N', 'T', 'F']

theorem read?_ne_finite {text : String} {c : Char} (hc : c ∈ text.toList) (hother : c ∈ otherMarks)
    (d : Decimal) : Quantity.read? text ≠ some (.finite d) := by
  intro h
  obtain ⟨-, p, hbare, -⟩ := Spelling.exists_of_read? h
  have hmarks : otherMarks.all (fun c => Text.isBlank c = false ∧ c ≠ '_' ∧
      Quantity.plainDigit c = c ∧ c ∉ "0123456789+-.eE".toList) = true := by decide +kernel
  obtain ⟨hblank, hscore, hplain, hnone⟩ :=
    of_decide_eq_true (List.all_eq_true.1 hmarks c hother)
  have hmem : c ∈ Spelling.bare text :=
    List.mem_map.2 ⟨c, List.mem_filter.2 ⟨mem_trimBy hblank hc, decide_eq_true hscore⟩, hplain⟩
  exact hnone (Spelling.mem_of_mem_chars (p := p) (hbare ▸ hmem))

namespace Ledger

open Schema

theorem actionAmount_iff (v : Value) (d : Decimal) :
    actionAmount v = .ok d ↔ ∃ shown, v.plain?.bind Text.string? = some shown ∧
      Quantity.read? shown = some (.finite d) ∧ d.isNegative = false := by
  constructor
  · intro h
    rw [actionAmount] at h
    split at h
    · cases h
    next shown hshown =>
      split at h
      · cases h
      next d' hread =>
        split at h
        · cases h
        next hsign =>
          cases h
          exact ⟨shown, hshown, hread, Bool.eq_false_iff.2 hsign⟩
      · cases h
  · rintro ⟨shown, hshown, hread, hsign⟩
    exact actionAmount_eq hshown hread hsign

theorem actionAmount_error {v : Value} {e : LedgerError} (h : actionAmount v = .error e) :
    e.report.kind = .validation ∧ e.report.details = ([("field", .text "amount")] : Members) := by
  rw [actionAmount] at h
  split at h
  · cases h
    exact ⟨rfl, rfl⟩
  · split at h
    · cases h
      exact ⟨rfl, rfl⟩
    · split at h
      · cases h
        exact ⟨rfl, rfl⟩
      · cases h
    · cases h
      exact ⟨rfl, rfl⟩

def isOther : Value → Bool
  | .null | .bool _ | .list _ | .map _ => true
  | _ => false

theorem shown_eq_nested? {v : Value} (hv : isOther v = true) :
    v.plain?.bind Text.string? = v.nested? := by
  have hplain : v.plain? = v.nested?.map fun s => (s : Text) := by
    cases v with
    | null | bool b | list elems | map members => rfl
    | int n | double x | text t => cases hv
  rw [hplain]
  cases v.nested? <;> rfl

theorem not_read?_other {v : Value} (hv : isOther v = true) {shown : String}
    (hshown : v.plain?.bind Text.string? = some shown) (d : Decimal) :
    Quantity.read? shown ≠ some (.finite d) := by
  rw [shown_eq_nested? hv] at hshown
  cases v with
  | int n | double x | text t => cases hv
  | null =>
      cases hshown
      exact read?_ne_finite (c := 'N') (by decide) (by decide) d
  | bool b =>
      cases hshown
      cases b with
      | false => exact read?_ne_finite (c := 'F') (by decide) (by decide) d
      | true => exact read?_ne_finite (c := 'T') (by decide) (by decide) d
  | list elems =>
      obtain ⟨ts, -, rfl⟩ := Option.map_eq_some_iff.1 hshown
      exact read?_ne_finite (c := '[') (by simp) (by decide) d
  | map members =>
      obtain ⟨ts, -, rfl⟩ := Option.map_eq_some_iff.1 hshown
      exact read?_ne_finite (c := '\x7b') (by simp) (by decide) d

theorem actionAmount_eq_ok_iff (v : Value) (d : Decimal) :
    actionAmount v = .ok d ↔ Writes v d ∧ d.inRange = true ∧ d.isNegative = false ∧
      ∀ n, v = .int n → tooLong n = false := by
  rw [actionAmount_iff]
  constructor
  · rintro ⟨shown, hshown, hread, hsign⟩
    cases v with
    | null | bool b | list elems | map members =>
        exact absurd hread (not_read?_other rfl hshown d)
    | int n =>
        have hlong : tooLong n = false := by
          by_contra hlong
          rw [Bool.not_eq_false] at hlong
          simp [Value.plain?, Value.nested?, decimalText?, hlong] at hshown
        obtain rfl : decimalText n = shown := by
          simpa [Value.plain?, Value.nested?, decimalText?, hlong, Text.string?] using hshown
        rw [Spelling.read?_decimalText hlong] at hread
        cases hread
        refine ⟨.int n, Spelling.inRange_ofInt hlong, hsign, ?_⟩
        rintro _ ⟨⟩
        exact hlong
    | double x =>
        cases hshown
        have hd := (Spelling.read?_double x d).1 hread
        exact ⟨(writes_double_iff x d).2 hd, Double.inRange_of_decimal? hd, hsign, by simp⟩
    | text t =>
        obtain rfl := (Text.string?_eq_some_iff t shown).1 hshown
        obtain ⟨hrange, p, hbare, rfl⟩ := Spelling.exists_of_read? hread
        exact ⟨.text hbare, hrange, hsign, by simp⟩
  · rintro ⟨hwrites, hrange, hsign, hlong⟩
    cases hwrites with
    | int n =>
        refine ⟨decimalText n, ?_, Spelling.read?_decimalText (hlong n rfl), hsign⟩
        simp [Value.plain?, Value.nested?, decimalText?, hlong n rfl, Text.string?]
    | @double x p shown =>
        refine ⟨x.text, rfl, ?_, hsign⟩
        rw [Spelling.read?_double, ← Spelling.chars_eq_text_iff]
        exact ⟨p, shown, rfl⟩
    | @text s p spelled =>
        exact ⟨s, rfl, (Spelling.read?_eq_finite_iff s _).2 ⟨hrange, p, spelled, rfl⟩, hsign⟩

theorem decimal_of_actionAmount {v : Value} {d : Decimal} (h : actionAmount v = .ok d) :
    decimal v = .ok d := by
  obtain ⟨hwrites, hrange, -, -⟩ := (actionAmount_eq_ok_iff v d).1 h
  exact (decimal_eq_ok_iff v d).2 ⟨hwrites, .inr hrange⟩

theorem actionAmount_of_amount {v : Value} {d : Decimal} (h : Schema.amount v = .ok d) :
    actionAmount v = .ok d := by
  obtain ⟨hwrites, hrange, hlimits⟩ := (amount_eq_ok_iff v d).1 h
  refine (actionAmount_eq_ok_iff v d).2
    ⟨hwrites, hrange, (Decimal.isNegative_eq_false_iff d).2 hlimits.1, ?_⟩
  rintro n rfl
  cases hwrites
  exact tooLong_of_withinLimits hlimits

end Ledger

namespace Schema

variable {α β : Type}

def Checked.faults : Checked α → List Fault
  | .ok _ => []
  | .error faults => faults

theorem Checked.faults_app (f : Checked (α → β)) (x : Checked α) :
    (f.app x).faults = f.faults ++ x.faults := by
  cases f with
  | ok g => cases x <;> rfl
  | error first =>
      cases x with
      | ok a => exact (List.append_nil first).symm
      | error more => rfl

/-- What is refused is refused for a reason. -/
def Told (x : Checked α) : Prop := x ≠ .error []

theorem told_ok (a : α) : Told (.ok a : Checked α) := nofun

theorem Told.app {f : Checked (α → β)} {x : Checked α} (hf : Told f) (hx : Told x) :
    Told (f.app x) := by
  intro h
  cases f with
  | ok g =>
      cases x with
      | ok a => cases h
      | error more =>
          cases h
          exact hx rfl
  | error first =>
      cases x with
      | ok a =>
          cases h
          exact hf rfl
      | error more =>
          have happend : first ++ more = [] := Except.error.inj h
          rw [List.append_eq_nil_iff] at happend
          exact hf (by rw [happend.1])

theorem Told.within {x : Checked α} (h : Told x) (step : Step) : Told (x.within step) := by
  intro hnone
  cases x with
  | ok a => cases hnone
  | error faults =>
      have hmap := List.map_eq_nil_iff.1 (Except.error.inj hnone)
      exact h (by rw [hmap])

theorem Single.told {x : Checked α} (h : Single x) : Told x := by
  intro hnone
  obtain ⟨reason, hfaults⟩ := h _ hnone
  cases hfaults

theorem single_text (v : Value) : Single (text v) := by
  cases v with
  | text t =>
      rcases text_cases t with ⟨s, -, hread⟩ | ⟨-, hread⟩
      · exact hread ▸ single_ok s
      · exact hread ▸ single_fail _
  | null | bool | int | double | list | map => exact single_fail _

theorem Single.bind {x : Checked α} {f : α → Checked β} (hx : Single x)
    (hf : ∀ a, Single (f a)) : Single (x >>= f) := by
  cases x with
  | ok a => exact hf a
  | error faults =>
      intro faults' h
      cases h
      exact hx _ rfl

theorem single_filledText (v : Value) : Single (filledText v) := by
  refine (single_text v).bind fun s => ?_
  split
  · exact single_fail _
  · exact single_ok s

theorem single_textOrNull (v : Value) : Single (textOrNull v) := by
  cases v with
  | null => exact single_ok none
  | text t => exact (textOrNull_text t).2
  | bool | int | double | list | map => exact single_fail _

theorem single_decimal (v : Value) : Single (decimal v) := by
  cases v with
  | int n => exact single_ok _
  | double x =>
      rw [decimal]
      rcases Quantity.read? x.text with _ | _ | _ | _ <;>
        first | exact single_ok _ | exact single_fail _
  | text t =>
      rw [decimal]
      rcases t.string?.bind Quantity.read? with _ | _ | _ | _ <;>
        first | exact single_ok _ | exact single_fail _
  | null | bool | list | map => exact single_fail _

theorem single_amount (v : Value) : Single (amount v) :=
  (single_decimal v).bind single_rewardAmount

theorem told_mapping (v : Value) : Told (mapping v) := by
  cases v with
  | map ms =>
      rw [mapping]
      split
      · exact told_ok _
      next hsome => exact fun h => hsome (Except.error.inj h)
  | null | bool | int | double | text | list => exact (single_fail _).told

end Schema

namespace RewardRequest

open Schema

theorem told_asking (userId amount reference currency description metadata : Value) :
    Told (ofValue (asking userId amount reference currency description metadata)) := by
  rw [ofValue_asking]
  exact ((((((told_ok _).app ((single_filledText userId).told.within _)).app
    ((single_amount amount).told.within _)).app ((single_filledText reference).told.within _)).app
    ((single_textOrNull currency).told.within _)).app
    ((single_textOrNull description).told.within _)).app ((told_mapping metadata).within _)

theorem mem_faults_asking (userId amount reference currency description metadata : Value)
    {reason : Reason} (h : Schema.amount amount = .fail reason) :
    (⟨[.key "amount"], reason⟩ : Fault) ∈
      (ofValue (asking userId amount reference currency description metadata)).faults := by
  have hamount : ((Schema.amount amount).within (.key "amount")).faults =
      [⟨[.key "amount"], reason⟩] := by
    rw [h]
    rfl
  simp only [ofValue_asking, Checked.faults_app, hamount, List.mem_append, List.mem_singleton]
  tauto

end RewardRequest

namespace Ledger

open Schema RewardRequest

variable {config : LedgerConfig}

theorem orElse_map (ms : Members) : (Value.map ms).orElse (.map []) = .map ms := by
  cases ms <;> rfl

theorem ofMembers_eq_asking {userId reference amount currency description : Value} {ms : Members}
    {d : Decimal} (h : actionAmount amount = .ok d) :
    RewardRequest.ofMembers (fun _ => rewardAmount d)
        (ActionReward.members ⟨userId, reference, amount, currency, description, .map ms⟩) =
      RewardRequest.ofValue (asking userId amount reference currency description (.map ms)) := by
  have hamount : Schema.amount amount = rewardAmount d := by
    rw [Schema.amount, decimal_of_actionAmount h]
    rfl
  rw [ofMembers_members, ofValue_asking, hamount, orElse_map]

theorem actionRequest_of_ok {userId reference amount currency description : Value} {ms : Members}
    {r : RewardRequest}
    (h : RewardRequest.ofValue (asking userId amount reference currency description (.map ms)) =
      .ok r) :
    actionRequest ⟨userId, reference, amount, currency, description, .map ms⟩ = .ok r := by
  obtain ⟨-, hamount, -⟩ := ofValue_asking_eq_ok_iff.1 h
  have hread := actionAmount_of_amount hamount
  rw [actionRequest_eq hread, ofMembers_eq_asking hread, h]

theorem actionRequest_of_error {userId reference amount currency description : Value} {ms : Members}
    {faults : List Fault}
    (h : RewardRequest.ofValue (asking userId amount reference currency description (.map ms)) =
      .error faults) :
    ∃ e, actionRequest ⟨userId, reference, amount, currency, description, .map ms⟩ = .error e ∧
      e.report.kind = .validation ∧
      ∃ fault ∈ faults,
        e.report.details = ([("field", .text (dottedPath fault.loc))] : Members) := by
  cases hread : actionAmount amount with
  | ok d =>
      rw [actionRequest_eq hread, ofMembers_eq_asking hread, h]
      cases faults with
      | nil => exact absurd h (told_asking _ _ _ _ _ _)
      | cons fault rest => exact ⟨_, rfl, rfl, fault, List.mem_cons_self, rfl⟩
  | error e =>
      obtain ⟨reason, hreason⟩ : ∃ reason, Schema.amount amount = .fail reason := by
        cases hamount : Schema.amount amount with
        | ok d => cases (actionAmount_of_amount hamount).symm.trans hread
        | error faults =>
            obtain ⟨reason, rfl⟩ := single_amount amount _ hamount
            exact ⟨reason, rfl⟩
      obtain ⟨hkind, hdetails⟩ := actionAmount_error hread
      have hmem :=
        mem_faults_asking userId amount reference currency description (.map ms) hreason
      rw [h] at hmem
      refine ⟨e, ?_, hkind, _, hmem, hdetails⟩
      rw [actionRequest, hread]
      rfl

variable {s : LedgerState}

theorem createFromAction_ok {a : ActionReward} {r : RewardRequest}
    (h : actionRequest a = .ok r) : createFromAction config a s = create config r s :=
  perform_request config (request?_createFromAction_iff.2 h) s

theorem exists_receipt (config : LedgerConfig) (hq : s.Quiet) (hs : s.store.Led)
    (r : RewardRequest) :
    ∃ receipt t, create config r s = (.ok receipt, t) ∧
      (receipt.isDuplicate = false →
        t.store.find? receipt.entry.id = some receipt.entry ∧ receipt.entry.amount = r.amount) := by
  cases hfound : s.store.findReference? r.reference with
  | some e => exact ⟨_, _, create_duplicate config hq hfound, nofun⟩
  | none =>
      obtain ⟨e, t, hcreate, hstored, hamount⟩ := exists_created config hq hs hfound
      exact ⟨_, t, hcreate, fun _ => ⟨hstored, hamount⟩⟩

theorem actionRequest_congr {a : ActionReward} {v : Value} (h : v.plain? = a.amount.plain?) :
    actionRequest { a with amount := v } = actionRequest a := by
  have hamount : actionAmount v = actionAmount a.amount := by rw [actionAmount, actionAmount, h]
  rw [actionRequest, actionRequest, hamount]

theorem createFromActionWithin_eq (config : LedgerConfig) (a : ActionReward) (room : Nat)
    (s : LedgerState) : createFromActionWithin config a room s =
      if room < a.amount.plainCalls + 1 then (.error .tooDeep, s)
      else ((createFromAction config a s).map .ok id) := by
  rw [createFromActionWithin, Value.plainWithin_eq, Stacked.nest_taking, Stacked.taking]
  by_cases hroom : room < a.amount.plainCalls + 1
  · rw [if_pos hroom, if_pos hroom]
  rw [if_neg hroom, if_neg hroom]
  cases hplain : a.amount.plain? with
  | none =>
      have hunread : actionRequest a = .error .unreadableAmount := by
        rw [actionRequest, actionAmount, hplain]
        rfl
      rw [createFromAction_error config hunread]
      rfl
  | some shown =>
      have hshown : actionRequest { a with amount := .text shown } = actionRequest a :=
        actionRequest_congr hplain.symm
      have hsame : createFromAction config { a with amount := .text shown } =
          createFromAction config a := by
        rw [createFromAction, createFromAction, hshown]
      dsimp only
      rw [hsame]
      rfl

theorem plainCalls_of_amount {v : Value} {d : Decimal} (h : Schema.amount v = .ok d) :
    v.plainCalls ≤ 1 := by
  obtain ⟨hwrites, -, -⟩ := (amount_eq_ok_iff v d).1 h
  cases hwrites with
  | int n => exact Nat.le_refl 1
  | double shown => exact Nat.le_refl 1
  | text spelled => exact Nat.zero_le 1

/-- After any run, and where the stack has room to write the amount, an action makes a reward just
if a request with the same values is accepted, and then it is answered, and changes the ledger, as
that request, and a new entry has the amount of the request digit for digit. Otherwise it is refused
as invalid, with the name of a member that is also refused in the request. Without that room, which
no amount needs that a request accepts, it fails; either way the ledger stays as it is. -/
theorem action_agrees (config : LedgerConfig) (supply : Supply) (cs : List Command)
    (userId reference amount currency description : Value) (metadata : Members) (room : Nat) :
    let s := after config cs (start supply)
    let done := createFromActionWithin config
      ⟨userId, reference, amount, currency, description, .map metadata⟩ room s
    let asked := RewardRequest.ofValue
      (asking userId amount reference currency description (.map metadata))
    (room ≤ amount.plainCalls → done = (.error .tooDeep, s)) ∧
    (∀ r, asked = .ok r → amount.plainCalls ≤ 1) ∧
    (amount.plainCalls < room →
      ((∃ receipt, done.1 = .ok (.ok receipt)) ↔ ∃ r, asked = .ok r) ∧
      (∀ r, asked = .ok r → ∃ receipt t, create config r s = (.ok receipt, t) ∧
        done = (.ok (.ok receipt), t) ∧
        (receipt.isDuplicate = false →
          t.store.find? receipt.entry.id = some receipt.entry ∧
            receipt.entry.amount = r.amount)) ∧
      ∀ faults, asked = .error faults → ∃ e, done = (.ok (.error e), s) ∧
        e.report.kind = .validation ∧ ∃ fault ∈ faults,
          e.report.details = ([("field", .text (dottedPath fault.loc))] : Members)) := by
  intro s done asked
  have hq : s.Quiet := quiet_after config ⟨rfl, rfl⟩ cs
  have hs : s.store.Led := led_after config ⟨rfl, rfl⟩ Store.led_empty cs
  have hwithin := createFromActionWithin_eq config
    ⟨userId, reference, amount, currency, description, .map metadata⟩ room s
  refine ⟨fun hroom => ?_, fun r hr => ?_, fun hroom => ?_⟩
  · exact hwithin.trans (if_pos (Nat.lt_succ_of_le hroom))
  · exact plainCalls_of_amount (ofValue_asking_eq_ok_iff.1 hr).2.1
  have hdone : done = (createFromAction config
      ⟨userId, reference, amount, currency, description, .map metadata⟩ s).map .ok id :=
    hwithin.trans (if_neg (Nat.not_lt.2 hroom))
  have haccepted (r : RewardRequest) (hr : asked = .ok r) :
      ∃ receipt t, create config r s = (.ok receipt, t) ∧ done = (.ok (.ok receipt), t) ∧
        (receipt.isDuplicate = false →
          t.store.find? receipt.entry.id = some receipt.entry ∧
            receipt.entry.amount = r.amount) := by
    obtain ⟨receipt, t, hcreate, hstored⟩ := exists_receipt config hq hs r
    refine ⟨receipt, t, hcreate, ?_, hstored⟩
    rw [hdone, createFromAction_ok (actionRequest_of_ok hr), hcreate]
    rfl
  have hrefused (faults : List Fault) (hfaults : asked = .error faults) :
      ∃ e, done = (.ok (.error e), s) ∧ e.report.kind = .validation ∧ ∃ fault ∈ faults,
        e.report.details = ([("field", .text (dottedPath fault.loc))] : Members) := by
    obtain ⟨e, he, hkind, hfault⟩ := actionRequest_of_error hfaults
    refine ⟨e, ?_, hkind, hfault⟩
    rw [hdone, createFromAction_error config he s]
    rfl
  refine ⟨⟨?_, ?_⟩, haccepted, hrefused⟩
  · rintro ⟨receipt, hreceipt⟩
    cases hasked : asked with
    | ok r => exact ⟨r, rfl⟩
    | error faults =>
        obtain ⟨e, he, -⟩ := hrefused faults hasked
        rw [he] at hreceipt
        cases hreceipt
  · rintro ⟨r, hr⟩
    obtain ⟨receipt, t, -, hreceipt, -⟩ := haccepted r hr
    exact ⟨receipt, by rw [hreceipt]⟩

/-- An amount of 1001 lists, one inside another, is refused in a request, but in an action it fails
on a stack with room for 1000 calls. -/
theorem action_overflows :
    let s := start .fresh
    let amount := Value.listTower 1000
    createFromActionWithin counting
      ⟨.text "ada", .text "signup", amount, .text "USD", .text "Bonus", .map []⟩ 1000 s =
        (.error .tooDeep, s) ∧
    ∃ faults, RewardRequest.ofValue
      (asking (.text "ada") amount (.text "signup") (.text "USD") (.text "Bonus") (.map [])) =
        .error faults ∧ [Step.key "amount"] ∈ faults.map Fault.loc := by
  intro s amount
  have hcalls : amount.plainCalls = 1001 := Value.nestedCalls_listTower 1000
  constructor
  · rw [createFromActionWithin_eq, if_pos]
    dsimp only
    omega
  · have hmem := mem_faults_asking (.text "ada") amount (.text "signup") (.text "USD")
      (.text "Bonus") (.map []) (rfl : Schema.amount amount = .fail .notDecimal)
    cases hasked : RewardRequest.ofValue
        (asking (.text "ada") amount (.text "signup") (.text "USD") (.text "Bonus") (.map [])) with
    | ok r =>
        rw [hasked] at hmem
        cases hmem
    | error faults =>
        rw [hasked] at hmem
        exact ⟨faults, rfl, List.mem_map_of_mem hmem⟩

end Ledger

end Referral
