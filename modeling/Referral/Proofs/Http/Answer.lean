import Referral.Http.Service
import Referral.Proofs.Ledger.Run

namespace Referral

def Value.member (v : Value) (name : Text) : Value :=
  match v with
  | .map members => Members.get members name
  | _ => .null

namespace Http

def Response.rewards (r : Response) : List Value :=
  match r.body with
  | .json v =>
    match v.member "rewards" with
    | .list rewards => rewards
    | _ => []
  | .text _ => []

def Response.entryIds (r : Response) : List Value :=
  r.rewards.map fun reward => (reward.member "entry").member "id"

def isPrivate (name : Text) : Bool := "_sa".toList.isPrefixOf name.head.toList

theorem elemsWithoutPrivate_eq (elems : List Value) :
    elemsWithoutPrivate elems = elems.map withoutPrivate := by
  induction elems with
  | nil => rfl
  | cons v elems ih => rw [elemsWithoutPrivate, ih, List.map_cons]

theorem lookup_membersWithoutPrivate {name : Text} (h : isPrivate name = false)
    (members : List (Text × Value)) :
    (membersWithoutPrivate members).lookup name = (members.lookup name).map withoutPrivate := by
  induction members with
  | nil => rfl
  | cons row members ih =>
      obtain ⟨key, v⟩ := row
      rw [membersWithoutPrivate, Table.lookup_cons_eq_ite]
      by_cases hkey : name = key
      · subst hkey
        rw [isPrivate] at h
        rw [if_neg (Bool.eq_false_iff.1 h), Table.lookup_cons_eq_ite, if_pos rfl, if_pos rfl]
        rfl
      · rw [if_neg hkey, ← ih]
        split
        · rfl
        · rw [Table.lookup_cons_eq_ite, if_neg hkey]

theorem member_withoutPrivate (v : Value) {name : Text} (h : isPrivate name = false) :
    (withoutPrivate v).member name = withoutPrivate (v.member name) := by
  cases v with
  | map members =>
      rw [withoutPrivate, Value.member, Value.member, Members.get, Members.get, Members.value?,
        Members.value?, lookup_membersWithoutPrivate h]
      cases members.lookup name <;> rfl
  | null | bool | int | double | text | list => rfl

def evaluationValue (matched : List Match) (receipts : List Receipt) : Value :=
  .map [("matches", .list (matched.map Match.toValue)),
    ("rewards", .list (receipts.map Receipt.toValue))]

theorem rewards_evaluationValue (matched : List Match) (receipts : List Receipt) :
    Response.rewards ⟨200, .json (withoutPrivate (evaluationValue matched receipts))⟩ =
      receipts.map fun receipt => withoutPrivate receipt.toValue := by
  have hpublic : isPrivate "rewards" = false := by decide +kernel
  have hrewards : (evaluationValue matched receipts).member "rewards" =
      .list (receipts.map Receipt.toValue) := rfl
  rw [Response.rewards]
  dsimp only
  rw [member_withoutPrivate _ hpublic, hrewards, withoutPrivate, elemsWithoutPrivate_eq,
    List.map_map]
  rfl

theorem entryId_toValue (receipt : Receipt) :
    ((withoutPrivate receipt.toValue).member "entry").member "id" = .text receipt.entry.id := by
  have hentry : isPrivate "entry" = false := by decide +kernel
  have hid : isPrivate "id" = false := by decide +kernel
  rw [member_withoutPrivate _ hentry, member_withoutPrivate _ hid]
  rfl

theorem entryIds_evaluationValue (matched : List Match) (receipts : List Receipt) :
    Response.entryIds ⟨200, .json (withoutPrivate (evaluationValue matched receipts))⟩ =
      receipts.map fun receipt => .text receipt.entry.id := by
  rw [Response.entryIds, rewards_evaluationValue, List.map_map]
  exact List.map_congr_left fun receipt _ => entryId_toValue receipt

theorem isDuplicate_toValue (receipt : Receipt) :
    (withoutPrivate receipt.toValue).member "isDuplicate" = .bool receipt.isDuplicate := by
  have hduplicate : isPrivate "isDuplicate" = false := by decide +kernel
  rw [member_withoutPrivate _ hduplicate]
  rfl

def AlikeWritten (v w : Value) : Prop :=
  isWritable (withoutPrivate v) = isWritable (withoutPrivate w)

theorem alikeWritten_list {vs ws : List Value} (h : List.Forall₂ AlikeWritten vs ws) :
    AlikeWritten (.list vs) (.list ws) := by
  rw [AlikeWritten, withoutPrivate, withoutPrivate, isWritable, isWritable]
  induction h with
  | nil => rfl
  | cons hfirst hrest ih =>
      rw [elemsWithoutPrivate, elemsWithoutPrivate, elemsWritable, elemsWritable, hfirst, ih]

theorem alikeWritten_map {ms ns : List (Text × Value)}
    (h : List.Forall₂ (fun a b => a.1 = b.1 ∧ AlikeWritten a.2 b.2) ms ns) :
    AlikeWritten (.map ms) (.map ns) := by
  rw [AlikeWritten, withoutPrivate, withoutPrivate, isWritable, isWritable]
  induction h with
  | nil => rfl
  | @cons row row' rows rows' hfirst hrest ih =>
      obtain ⟨key, v⟩ := row
      obtain ⟨key', w⟩ := row'
      obtain ⟨rfl, hvalue⟩ := hfirst
      rw [membersWithoutPrivate, membersWithoutPrivate]
      split
      · exact ih
      · rw [membersWritable, membersWritable, hvalue, ih]

theorem alikeWritten_refl (v : Value) : AlikeWritten v v := rfl

theorem alikeWritten_string (s s' : String) : AlikeWritten (.text s) (.text s') := rfl

theorem alikeWritten_entry {e e' : Entry} (h : e.Became e') :
    AlikeWritten e.toValue e'.toValue := by
  obtain ⟨id, userId, kind, amount, currency, status, reference, description, metadata, created,
    updated⟩ := e
  rw [h]
  refine alikeWritten_map ?_
  simp only [Entry.withStatus, List.forall₂_cons, alikeWritten_refl, alikeWritten_string, and_self,
    List.Forall₂.nil]

theorem alikeWritten_duplicate {receipt : Receipt} {e : Entry} (hreward : receipt.reversal? = none)
    (h : receipt.entry.Became e) :
    AlikeWritten receipt.toValue (Receipt.duplicate e).toValue := by
  rw [Receipt.toValue, hreward]
  refine alikeWritten_map (.cons ⟨rfl, rfl⟩ (.cons ⟨rfl, alikeWritten_entry h⟩ ?_))
  exact .cons ⟨rfl, rfl⟩ (.cons ⟨rfl, rfl⟩ .nil)

namespace Service

variable {path : String} {s : Service}

theorem told_of_status {fits : Bool} {v : Value} (h : (told fits v).status = 200) :
    fits = true ∧ isWritable v = true := by
  rw [told, ok, answer] at h
  split at h
  next hfits =>
    split at h
    next hwritable => exact ⟨hfits, hwritable⟩
    next => cases h
  next => cases h

theorem told_eq {v : Value} (h : isWritable v = true) : told true v = ⟨200, .json v⟩ := by
  rw [told, if_pos rfl, ok, answer, if_pos h]

theorem status_refused (path : String) (r : Report) (events : List (String × Event)) (s : Service) :
    (refused path r events s).response.status ≠ 200 := by
  have hkind : r.kind.status ≠ 200 := by cases r.kind <;> decide
  rw [refused, answer]
  split
  · exact hkind
  · change (500 : Nat) ≠ 200
    decide

theorem aboutRules_of_status {params : List Params} {v : Value}
    (h : (aboutRules params v).status = 200) :
    params.all Params.keysWritable = true ∧ isWritable (withoutPrivate v) = true :=
  told_of_status h

theorem aboutRules_eq {params : List Params} {v : Value}
    (hparams : params.all Params.keysWritable = true) (hv : isWritable (withoutPrivate v) = true) :
    aboutRules params v = ⟨200, .json (withoutPrivate v)⟩ := by
  rw [aboutRules, hparams, told_eq hv]

end Service

end Http

end Referral
