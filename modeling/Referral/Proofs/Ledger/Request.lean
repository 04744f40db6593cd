import Referral.Ledger.Service

namespace Referral

namespace Schema

variable {α β : Type}

theorem Checked.app_eq_ok {f : Checked (α → β)} {x : Checked α} {b : β} (h : f.app x = .ok b) :
    ∃ g a, f = .ok g ∧ x = .ok a ∧ b = g a := by
  cases f with
  | error faults => cases x <;> cases h
  | ok g =>
      cases x with
      | error faults => cases h
      | ok a =>
          cases h
          exact ⟨g, a, rfl, rfl, rfl⟩

theorem Checked.within_eq_ok {step : Step} {x : Checked α} {a : α} (h : x.within step = .ok a) :
    x = .ok a := by
  cases x with
  | error faults => cases h
  | ok b => exact h

theorem required_eq_ok {members : Members} {name : String} {read : Value → Checked α} {a : α}
    (h : required members name read = .ok a) : ∃ v, read v = .ok a := by
  rw [required] at h
  split at h
  next spelling v hfind => exact ⟨v, Checked.within_eq_ok h⟩
  next hfind => cases Checked.within_eq_ok h

theorem required_of_find {members : Members} {name spelling : String} {read : Value → Checked α}
    {v : Value} {a : α} (hfind : find? members name = some (spelling, v))
    (h : required members name read = .ok a) : read v = .ok a := by
  rw [required, hfind] at h
  exact Checked.within_eq_ok h

theorem text_eq_ok {v : Value} {s : String} (h : text v = .ok s) : v = .text s := by
  cases v with
  | text t =>
      obtain ⟨head, tail⟩ := t
      rw [text, string, Text.string?] at h
      cases tail with
      | nil =>
          cases h
          rfl
      | cons row tail => cases h
  | null | bool | int | double | list | map => cases h

theorem filledText_eq_ok {v : Value} {s : String} (h : filledText v = .ok s) : v = .text s := by
  refine text_eq_ok ?_
  rw [filledText] at h
  cases htext : text v with
  | error faults => rw [htext] at h; cases h
  | ok t =>
      rw [htext] at h
      change (if t.isEmpty then Checked.fail .emptyText else .ok t) = .ok s at h
      split at h
      next => cases h
      next => exact h

theorem filledText_ne_empty {v : Value} {s : String} (h : filledText v = .ok s) : s ≠ "" := by
  rw [filledText] at h
  cases htext : text v with
  | error faults => rw [htext] at h; cases h
  | ok t =>
      rw [htext] at h
      change (if t.isEmpty then Checked.fail .emptyText else .ok t) = .ok s at h
      split at h
      next hempty => cases h
      next hfilled =>
          cases h
          rintro rfl
          exact hfilled rfl

theorem rewardAmount_eq_ok {d d' : Decimal} (h : rewardAmount d = .ok d') :
    d' = d ∧ d.isNegative = false := by
  simp only [rewardAmount] at h
  split at h
  · cases h
  split at h
  · cases h
  split at h
  · cases h
  split at h
  · cases h
  next hnegative =>
    cases h
    exact ⟨rfl, Bool.eq_false_iff.2 hnegative⟩

end Schema

structure RewardRequest.Valid (r : RewardRequest) : Prop where
  userId : r.userId ≠ ""
  amount : Schema.rewardAmount r.amount = .ok r.amount
  reference : r.reference ≠ ""

namespace RewardRequest

open Schema

theorem Valid.isNegative_amount {r : RewardRequest} (h : r.Valid) : r.amount.isNegative = false :=
  (rewardAmount_eq_ok h.amount).2

theorem ofMembers_eq_ok {readAmount : Value → Checked Decimal} {ms : Members} {r : RewardRequest}
    (h : ofMembers readAmount ms = .ok r) :
    required ms "user_id" filledText = .ok r.userId ∧
      required ms "amount" readAmount = .ok r.amount ∧
      required ms "reference_id" filledText = .ok r.reference := by
  obtain ⟨_, metadata, h₅, -, rfl⟩ := Checked.app_eq_ok h
  obtain ⟨_, description, h₄, -, rfl⟩ := Checked.app_eq_ok h₅
  obtain ⟨_, currency, h₃, -, rfl⟩ := Checked.app_eq_ok h₄
  obtain ⟨_, reference, h₂, hreference, rfl⟩ := Checked.app_eq_ok h₃
  obtain ⟨_, amount, h₁, hamount, rfl⟩ := Checked.app_eq_ok h₂
  obtain ⟨_, userId, h₀, huser, rfl⟩ := Checked.app_eq_ok h₁
  cases h₀
  exact ⟨huser, hamount, hreference⟩

theorem valid_of_ofMembers {readAmount : Value → Checked Decimal}
    (hread : ∀ v d, readAmount v = .ok d → rewardAmount d = .ok d) {ms : Members}
    {r : RewardRequest} (h : ofMembers readAmount ms = .ok r) : r.Valid := by
  obtain ⟨huser, hamount, hreference⟩ := ofMembers_eq_ok h
  obtain ⟨v, huser⟩ := required_eq_ok huser
  obtain ⟨v', hamount⟩ := required_eq_ok hamount
  obtain ⟨v'', hreference⟩ := required_eq_ok hreference
  exact ⟨filledText_ne_empty huser, hread v' r.amount hamount, filledText_ne_empty hreference⟩

theorem valid_of_ofValue {v : Value} {r : RewardRequest} (h : ofValue v = .ok r) : r.Valid := by
  rw [ofValue] at h
  cases hdocument : document "CreateRewardRequest" v with
  | error faults => rw [hdocument] at h; cases h
  | ok ms =>
      rw [hdocument] at h
      refine valid_of_ofMembers (fun w d hread => ?_) h
      cases hdecimal : decimal w with
      | error faults => rw [hdecimal] at hread; cases hread
      | ok d' =>
          rw [hdecimal] at hread
          have hread : rewardAmount d' = .ok d := hread
          obtain rfl := (rewardAmount_eq_ok hread).1
          exact hread

end RewardRequest

namespace Ledger

def ActionReward.members (a : ActionReward) : Members :=
  [("user_id", a.userId), ("amount", .null), ("reference_id", a.reference),
    ("currency", a.currency), ("description", a.description),
    ("metadata", a.metadata.orElse (.map []))]

theorem actionRequest_eq_ok {a : ActionReward} {r : RewardRequest} (h : actionRequest a = .ok r) :
    ∃ amount, RewardRequest.ofMembers (fun _ => Schema.rewardAmount amount) a.members = .ok r := by
  rw [actionRequest] at h
  cases hamount : actionAmount a.amount with
  | error fault => rw [hamount] at h; cases h
  | ok amount =>
      rw [hamount] at h
      simp only [bind, Except.bind] at h
      split at h
      next request hrequest =>
        cases h
        exact ⟨amount, hrequest⟩
      next => cases h
      next => cases h

theorem valid_of_actionRequest {a : ActionReward} {r : RewardRequest}
    (h : actionRequest a = .ok r) : r.Valid := by
  obtain ⟨amount, h⟩ := actionRequest_eq_ok h
  refine RewardRequest.valid_of_ofMembers (fun v d hread => ?_) h
  obtain rfl := (Schema.rewardAmount_eq_ok hread).1
  exact hread

theorem texts_of_actionRequest {a : ActionReward} {r : RewardRequest}
    (h : actionRequest a = .ok r) :
    a.userId = .text r.userId ∧ a.reference = .text r.reference := by
  obtain ⟨amount, h⟩ := actionRequest_eq_ok h
  obtain ⟨huser, -, hreference⟩ := RewardRequest.ofMembers_eq_ok h
  have hfinduser : Schema.find? a.members "user_id" = some ("user_id", a.userId) := rfl
  have hfindreference : Schema.find? a.members "reference_id" =
      some ("reference_id", a.reference) := rfl
  exact ⟨Schema.filledText_eq_ok (Schema.required_of_find hfinduser huser),
    Schema.filledText_eq_ok (Schema.required_of_find hfindreference hreference)⟩

end Ledger

end Referral
