import Referral.Award
import Referral.Proofs.Ledger.Idempotence
import Referral.Proofs.Ledger.Request

namespace Referral.Award

open Ledger

variable {config : LedgerConfig} {s t u : LedgerState}

theorem record_refused {a : ActionReward} {e : LedgerError}
    (h : perform config (.createFromAction a) s = (.error e, t))
    (rest : List (Except Fault ActionReward)) :
    record config (.ok a :: rest) s = ([], some (.refused e), t) := by
  rw [perform] at h
  rw [record, h]

theorem record_unwritable {a : ActionReward} {receipt : Receipt}
    (h : perform config (.createFromAction a) s = (.ok receipt, t)) (hfits : receipt.fits = false)
    (rest : List (Except Fault ActionReward)) :
    record config (.ok a :: rest) s = ([receipt], some .unwritable, t) := by
  rw [perform] at h
  rw [record, h]
  simp [hfits]

theorem record_recorded {a : ActionReward} {receipt : Receipt}
    (h : perform config (.createFromAction a) s = (.ok receipt, t)) (hfits : receipt.fits = true)
    (rest : List (Except Fault ActionReward)) :
    record config (.ok a :: rest) s =
      (receipt :: (record config rest t).1, (record config rest t).2) := by
  rw [perform] at h
  rw [record, h]
  simp [hfits]

theorem record_induction {P : LedgerState → Prop}
    (hstep : ∀ a t, P t → P (perform config (.createFromAction a) t).2)
    (awards : List (Except Fault ActionReward)) (h : P s) : P (record config awards s).2.2 := by
  induction awards generalizing s with
  | nil => exact h
  | cons award rest ih =>
      cases award with
      | error fault => exact h
      | ok a =>
          have hfirst := hstep a s h
          rcases hperform : perform config (.createFromAction a) s with ⟨e | receipt, t⟩
          · rw [hperform] at hfirst
            rw [record_refused hperform]
            exact hfirst
          · rw [hperform] at hfirst
            cases hfits : receipt.fits with
            | true =>
                rw [record_recorded hperform hfits]
                exact ih hfirst
            | false =>
                rw [record_unwritable hperform hfits]
                exact hfirst

theorem keeps_record (hd : config.source.Distinct) (awards : List (Except Fault ActionReward))
    (s : LedgerState) : Keeps config s (record config awards s).2.2 :=
  record_induction (fun a t h => h.trans (keeps_perform hd (.createFromAction a) t)) awards
    (keeps_refl config s)

def isFree (s : Store) (reference : Text) : Bool :=
  s.list.all fun e => (e.reference : Text) ≠ reference

/-- The later store has in addition pending credits for the user, one for each of the references
that was free. -/
def Adds (userId : Value) (references : List Text) (s t : Store) : Prop :=
  ∃ new, t.list = s.list ++ new ∧
    new.map (fun e => (e.reference : Text)) = references.filter (isFree s) ∧
    ∀ e ∈ new, e.kind = .credit ∧ e.status = .pending ∧ userId = .text e.userId

theorem isFree_eq_true {s : Store} {reference : Text} :
    isFree s reference = true ↔ ∀ e ∈ s.list, (e.reference : Text) ≠ reference := by
  simp [isFree]

theorem adds_nil (userId : Value) {s t : Store} (h : t.list = s.list) : Adds userId [] s t :=
  ⟨[], by rw [h, List.append_nil], rfl, fun _ he => absurd he List.not_mem_nil⟩

theorem Adds.append {userId : Value} {references later : List Text} {s t u : Store}
    (h : Adds userId references s t) (h' : Adds userId later t u)
    (hother : ∀ reference ∈ later, reference ∉ references) :
    Adds userId (references ++ later) s u := by
  obtain ⟨new, hnew, hreferences, hcredits⟩ := h
  obtain ⟨new', hnew', hreferences', hcredits'⟩ := h'
  have hfree : later.filter (isFree t) = later.filter (isFree s) := by
    refine List.filter_congr fun reference hreference => Bool.eq_iff_iff.2 ?_
    rw [isFree_eq_true, isFree_eq_true, hnew, List.forall_mem_append]
    refine and_iff_left fun e he heq => hother reference hreference ?_
    have hmem : (e.reference : Text) ∈ new.map fun e => (e.reference : Text) :=
      List.mem_map_of_mem he
    rw [hreferences, heq] at hmem
    exact (List.mem_filter.1 hmem).1
  refine ⟨new ++ new', ?_, ?_, List.forall_mem_append.2 ⟨hcredits, hcredits'⟩⟩
  · rw [hnew', hnew, List.append_assoc]
  · rw [List.map_append, List.filter_append, hreferences, hreferences', hfree]

theorem adds_of_answers (hd : config.source.Distinct) (hs : Consistent config s)
    {a : ActionReward} {reference : Text} (hreference : a.reference = .text reference)
    {receipt : Receipt} (h : Answers config s (.createFromAction a) receipt) :
    Adds a.userId [reference] s.store (receipt.applyTo s).store := by
  have hasks : ∀ {request : RewardRequest},
      (Command.createFromAction a).request? = some request →
        a.userId = .text request.userId ∧ reference = request.reference := by
    intro request hrequest
    obtain ⟨huser, htext⟩ := texts_of_actionRequest (request?_createFromAction_iff.1 hrequest)
    exact ⟨huser, Value.text.inj (hreference.symm.trans htext)⟩
  have hlist := h.list_applyTo hs hd
  cases h with
  | @created _ request asks free =>
      obtain ⟨huser, rfl⟩ := hasks asks
      have hfree : isFree s.store request.reference = true :=
        isFree_eq_true.2 fun e he heq => free e he (Text.mk.inj heq).1
      refine ⟨_, hlist, ?_, ?_⟩
      · rw [List.filter_cons, if_pos hfree]
        rfl
      · rw [List.forall_mem_singleton]
        exact ⟨rfl, rfl, huser⟩
  | @duplicate _ request e asks stored same =>
      obtain ⟨huser, rfl⟩ := hasks asks
      have htaken : ¬ isFree s.store request.reference = true :=
        fun hfree => isFree_eq_true.1 hfree e stored (congrArg (Text.mk · []) same)
      refine ⟨[], by rw [hlist, List.append_nil]; rfl, ?_, fun _ he => absurd he List.not_mem_nil⟩
      rw [List.filter_cons, if_neg htaken]
      rfl

theorem record_exact (hd : config.source.Distinct) {userId : Value} {actions : List ActionReward}
    {references : List Text} (hs : Consistent config s)
    (hreferences : actions.map (·.reference) = references.map .text) (hnodup : references.Nodup)
    (husers : ∀ a ∈ actions, a.userId = userId) :
    ∃ count,
      Adds userId (references.take count) s.store
        (record config (actions.map .ok) s).2.2.store ∧
      ((record config (actions.map .ok) s).2.1 = none → count = references.length) := by
  induction actions generalizing s references with
  | nil =>
      obtain rfl : references = [] := List.map_eq_nil_iff.1 hreferences.symm
      exact ⟨0, adds_nil userId rfl, fun _ => rfl⟩
  | cons a actions ih =>
      obtain ⟨reference, later, rfl, hreference, hlater⟩ :=
        List.map_eq_cons_iff.1 hreferences.symm
      obtain ⟨hother, hnodup⟩ := List.nodup_cons.1 hnodup
      obtain ⟨huser, husers⟩ := List.forall_mem_cons.1 husers
      rcases hperform : perform config (.createFromAction a) s with ⟨result, t⟩
      have hstep : Step config s (.createFromAction a) result t := by
        simpa only [hperform] using perform_step hs (.createFromAction a)
      rw [List.map_cons]
      cases hstep with
      | refused fault supply more =>
          rw [record_refused hperform]
          exact ⟨0, adds_nil userId rfl, fun hnone => by cases hnone⟩
      | @answered receipt h =>
          have hfirst := adds_of_answers hd hs hreference.symm h
          rw [huser] at hfirst
          cases hfits : receipt.fits with
          | false =>
              rw [record_unwritable hperform hfits]
              exact ⟨1, hfirst, fun hnone => by cases hnone⟩
          | true =>
              obtain ⟨count, hrest, hall⟩ := ih (h.consistent hs hd) hlater.symm hnodup husers
              have hnew : ∀ x ∈ later.take count, x ∉ [reference] := fun x hx hmem =>
                hother (List.mem_singleton.1 hmem ▸ List.mem_of_mem_take hx)
              rw [record_recorded hperform hfits]
              exact ⟨count + 1, hfirst.append hrest hnew,
                fun hnone => congrArg (· + 1) (hall hnone)⟩

/-- The one entry that a receipt tells of is stored under the reference of the award, and can be
told of in an answer. -/
structure Settled (s : LedgerState) (a : ActionReward) (receipt : Receipt) : Prop where
  stored : receipt.entry ∈ s.store.list
  single : receipt.reversal? = none
  asks : ∃ request, actionRequest a = .ok request ∧ request.reference = receipt.entry.reference
  fits : receipt.entry.fits 1 = true

theorem Settled.later {a : ActionReward} {receipt : Receipt} (h : Settled s a receipt)
    (hall : ∀ e ∈ s.store.list, e ∈ t.store.list) : Settled t a receipt :=
  ⟨hall _ h.stored, h.single, h.asks, h.fits⟩

theorem settled_of_answers (hd : config.source.Distinct) (hs : Consistent config s)
    {a : ActionReward} {receipt : Receipt} (h : Answers config s (.createFromAction a) receipt)
    (hfits : receipt.fits = true) :
    Settled (receipt.applyTo s) a receipt ∧
      ∀ e ∈ s.store.list, e ∈ (receipt.applyTo s).store.list := by
  have hlist := h.list_applyTo hs hd
  have hentry : receipt.entry.fits 1 = true := (Bool.and_eq_true_iff.1 hfits).1
  cases h with
  | created asks free =>
      rw [hlist]
      exact ⟨⟨hlist ▸ List.mem_append_right _ (List.mem_singleton.2 rfl), rfl,
        ⟨_, request?_createFromAction_iff.1 asks, rfl⟩, hentry⟩,
        fun e he => List.mem_append_left _ he⟩
  | duplicate asks stored same =>
      exact ⟨⟨stored, rfl, ⟨_, request?_createFromAction_iff.1 asks, same.symm⟩, hentry⟩,
        fun e he => he⟩

theorem record_settled (hd : config.source.Distinct) (hs : Consistent config s)
    {awards : List (Except Fault ActionReward)} {receipts : List Receipt}
    (h : record config awards s = (receipts, none, t)) :
    (∃ actions, awards = actions.map .ok ∧ List.Forall₂ (Settled t) actions receipts) ∧
      ∀ e ∈ s.store.list, e ∈ t.store.list := by
  induction awards generalizing s receipts with
  | nil =>
      cases h
      exact ⟨⟨[], rfl, .nil⟩, fun e he => he⟩
  | cons award rest ih =>
      cases award with
      | error fault => cases h
      | ok a =>
          rcases hperform : perform config (.createFromAction a) s with ⟨result, u⟩
          have hstep : Step config s (.createFromAction a) result u := by
            simpa only [hperform] using perform_step hs (.createFromAction a)
          cases hstep with
          | refused fault supply more =>
              rw [record_refused hperform] at h
              cases h
          | @answered receipt hanswer =>
              cases hfits : receipt.fits with
              | false =>
                  rw [record_unwritable hperform hfits] at h
                  cases h
              | true =>
                  obtain ⟨hsettled, hfirst⟩ := settled_of_answers hd hs hanswer hfits
                  rw [record_recorded hperform hfits] at h
                  rcases hrest : record config rest (receipt.applyTo s) with ⟨later, fault, v⟩
                  rw [hrest] at h
                  cases h
                  obtain ⟨⟨actions, rfl, hall⟩, hlater⟩ := ih (hanswer.consistent hs hd) hrest
                  exact ⟨⟨a :: actions, rfl, .cons (hsettled.later hlater) hall⟩,
                    fun e he => hlater e (hfirst e he)⟩

theorem Settled.reference {a : ActionReward} {receipt : Receipt} (h : Settled s a receipt) :
    a.reference = .text receipt.entry.reference := by
  obtain ⟨request, haction, hreference⟩ := h.asks
  rw [← hreference]
  exact (texts_of_actionRequest haction).2

theorem references_of_settled {actions : List ActionReward} {receipts : List Receipt}
    (h : List.Forall₂ (Settled s) actions receipts) :
    receipts.map (fun receipt => Value.text receipt.entry.reference) =
      actions.map (·.reference) := by
  induction h with
  | nil => rfl
  | cons hsettled hall ih => rw [List.map_cons, List.map_cons, ih, hsettled.reference]

theorem stored_of_settled {actions : List ActionReward} {receipts : List Receipt}
    (h : List.Forall₂ (Settled s) actions receipts) :
    ∀ receipt ∈ receipts, receipt.entry ∈ s.store.list := by
  induction h with
  | nil => exact fun _ hmem => absurd hmem List.not_mem_nil
  | cons hsettled hall ih => exact List.forall_mem_cons.2 ⟨hsettled.stored, ih⟩

theorem record_again {actions : List ActionReward} {receipts : List Receipt}
    (h : List.Forall₂ (Settled t) actions receipts) (hu : Consistent config u)
    (hkept : ∀ e ∈ t.store.list, ∃ e' ∈ u.store.list, e.Became e') :
    ∃ es, List.Forall₂ (fun receipt e => receipt.reversal? = none ∧ receipt.entry.Became e)
        receipts es ∧
      record config (actions.map .ok) u = (es.map .duplicate, none, u) := by
  induction h with
  | nil => exact ⟨[], .nil, rfl⟩
  | @cons a receipt actions receipts hsettled hall ih =>
      obtain ⟨es, hbecame, hrecord⟩ := ih
      obtain ⟨e, he, hfirst⟩ := hkept _ hsettled.stored
      obtain ⟨request, haction, hreference⟩ := hsettled.asks
      have hrequest := request?_createFromAction_iff.2 haction
      have hsame : request.reference = e.reference := by
        rw [hreference, hfirst]
        rfl
      have hfits : (Receipt.duplicate e).fits = true := by
        have hentry : e.fits 1 = true := by
          rw [hfirst]
          exact hsettled.fits
        exact Bool.and_eq_true_iff.2 ⟨hentry, rfl⟩
      refine ⟨e :: es, .cons ⟨hsettled.single, hfirst⟩ hbecame, ?_⟩
      rw [List.map_cons, record_recorded (perform_repeated hu he hrequest hsame) hfits, hrecord]
      rfl

end Referral.Award
