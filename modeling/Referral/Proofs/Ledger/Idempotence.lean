import Mathlib.Data.List.Perm.Basic
import Referral.Ledger.Balance
import Referral.Proofs.Ledger.Run

namespace Referral.Ledger

variable {config : LedgerConfig} {s : LedgerState}

def makes (reference : String) : Exchange → Bool
  | (c, .ok receipt) =>
    c.request?.any (fun request => request.reference = reference) && !receipt.isDuplicate
  | _ => false

theorem makes_iff {reference : String} {c : Command} {receipt : Receipt} :
    makes reference (c, .ok receipt) = true ↔
      (∃ request, c.request? = some request ∧ request.reference = reference) ∧
        receipt.isDuplicate = false := by
  simp [makes, Option.any_eq_true]

theorem Answers.created_of_makes {c : Command} {receipt : Receipt} {reference : String}
    (h : Answers config s c receipt) (hmakes : makes reference (c, .ok receipt) = true) :
    (∀ x ∈ s.store.list, x.reference ≠ reference) ∧
      ∃ e ∈ receipt.listIn s.store.list, e.reference = reference := by
  obtain ⟨⟨request, hasks, href⟩, hnew⟩ := makes_iff.1 hmakes
  cases h with
  | created asks free =>
      cases asks.symm.trans hasks
      exact ⟨href ▸ free, _, List.mem_append_right _ (List.mem_singleton.2 rfl), href⟩
  | duplicate asks stored same => cases hnew
  | confirmed stored pending | paid stored confirmed | reversed reason stored live free =>
      cases hasks

/-- At most one answer so far tells of a reward made for the reference, and then it is stored. -/
def MadeOnce (reference : String) (history : List Exchange) (s : LedgerState) : Prop :=
  (history.filter (makes reference)).length ≤ 1 ∧
    (history.filter (makes reference) ≠ [] → ∃ e ∈ s.store.list, e.reference = reference)

theorem Step.madeOnce {reference : String} {c : Command} {result : Except LedgerError Receipt}
    {t : LedgerState} {history : List Exchange} (h : Step config s c result t)
    (hs : Consistent config s) (hd : config.source.Distinct)
    (hhistory : MadeOnce reference history s) :
    MadeOnce reference (history ++ [(c, result)]) t := by
  obtain ⟨hle, hstored⟩ := hhistory
  rw [MadeOnce, List.filter_append]
  by_cases hmakes : makes reference (c, result) = true
  · cases h with
    | refused fault supply more => cases hmakes
    | answered h =>
        obtain ⟨hfree, e, he, href⟩ := h.created_of_makes hmakes
        have hnone : history.filter (makes reference) = [] := by
          by_contra hsome
          obtain ⟨x, hx, heq⟩ := hstored hsome
          exact hfree x hx heq
        rw [hnone, h.list_applyTo hs hd]
        exact ⟨List.length_filter_le _ [_], fun _ => ⟨e, he, href⟩⟩
  · rw [List.filter_cons_of_neg hmakes, List.filter_nil, List.append_nil]
    refine ⟨hle, fun hsome => ?_⟩
    obtain ⟨x, hx, heq⟩ := hstored hsome
    obtain ⟨x', hx', hbecame⟩ := h.exists_became hs hd hx
    exact ⟨x', hx', hbecame ▸ heq⟩

theorem madeOnce_after (hd : config.source.Distinct) (supply : Supply) (cs : List Command)
    (reference : String) :
    MadeOnce reference (answers config cs (start supply)) (after config cs (start supply)) :=
  (run_induction hd (consistent_start config supply) (motive := MadeOnce reference)
    ⟨Nat.zero_le _, fun h => absurd rfl h⟩
    (fun _ _ _ _ _ ht hstep hhistory => hstep.madeOnce ht hd hhistory) cs).2

theorem perform_repeated (hs : Consistent config s) {e : Entry}
    (he : e ∈ s.store.list) {c : Command} {request : RewardRequest}
    (hasks : c.request? = some request) (href : request.reference = e.reference) :
    perform config c s = (.ok (.duplicate e), s) := by
  rw [perform_request config hasks]
  exact create_duplicate config hs.quiet
    (href ▸ hs.indexed.findReference?_eq_some he (hs.id_ne_empty he))

theorem perform_repeated_after (hd : config.source.Distinct) (hs : Consistent config s) {e : Entry}
    (he : e ∈ s.store.list) (ds : List Command) {c : Command} {request : RewardRequest}
    (hasks : c.request? = some request) (href : request.reference = e.reference) :
    ∃ e', (after config ds s).store.find? e.id = some e' ∧ e'.id = e.id ∧
      perform config c (after config ds s) = (.ok (.duplicate e'), after config ds s) := by
  have hafter := (run_induction hd hs (motive := fun _ _ => True) trivial
    (fun _ _ _ _ _ _ _ _ => trivial) ds).1
  obtain ⟨e', he', hbecame⟩ := exists_became_after hd hs he ds
  have hid : e'.id = e.id := by rw [hbecame]; rfl
  have href' : e'.reference = e.reference := by rw [hbecame]; rfl
  exact ⟨e', (hafter.indexed.find?_eq_some_iff _ _).2 ⟨he', hid⟩, hid,
    perform_repeated hafter he' hasks (href.trans href'.symm)⟩

theorem perm_of_allEntries {s : Store} {es : List Entry} (h : allEntries s = .ok es) :
    es.Perm s.list := by
  rw [allEntries, newestFirst] at h
  split at h
  · cases h
    exact List.mergeSort_perm _ _
  · cases h

/-- In every run at most one answer tells of a reward made for a reference. From when an entry has
the reference, a request with it at any later time, whatever else is in it, is answered with that
entry as it then is and leaves the ledger as it is. References of listed entries are distinct. -/
theorem create_once (config : LedgerConfig) (hd : config.source.Distinct) (supply : Supply)
    (cs : List Command) :
    let s := after config cs (start supply)
    (∀ reference, ((answers config cs (start supply)).filter (makes reference)).length ≤ 1) ∧
    (∀ e ∈ s.store.list, ∀ (ds : List Command) (c : Command) (request : RewardRequest),
      c.request? = some request → request.reference = e.reference →
      ∃ e', (after config ds s).store.find? e.id = some e' ∧ e'.id = e.id ∧
        perform config c (after config ds s) = (.ok (.duplicate e'), after config ds s)) ∧
    (s.store.list.map (·.reference)).Nodup ∧
    ∀ es, allEntries s.store = .ok es → (es.map (·.reference)).Nodup := by
  intro s
  have hs : Consistent config s := consistent_after hd supply cs
  refine ⟨fun reference => (madeOnce_after hd supply cs reference).1, ?_, ?_, fun es hes => ?_⟩
  · intro e he ds c request hasks href
    exact perform_repeated_after hd hs he ds hasks href
  · exact hs.indexed.nodup_references
  · exact ((perm_of_allEntries hes).map _).nodup_iff.2 hs.indexed.nodup_references

/-- A reward that was reversed is not made again, whoever asks for it. -/
theorem create_once_reversed :
    counting.source.Distinct ∧
      let s := after counting [.create (signup "ada"),
        .reverse "entry-00000000000000000000000000000001" none] (start .fresh)
      ∃ e, s.store.find? "entry-00000000000000000000000000000001" = some e ∧
        perform counting (.create (signup "bob")) s =
          (.ok (.duplicate e), s) := by
  refine ⟨distinct_counting_source, ?_⟩
  intro s
  have hrows : s.store.list.map (fun e => (e.id, e.reference)) =
      [("entry-00000000000000000000000000000001", "signup"),
        ("entry-00000000000000000000000000000002",
          "reversal-entry-00000000000000000000000000000001")] := by
    decide +kernel
  obtain ⟨e, he, hrow⟩ := List.mem_map.1 (hrows ▸ List.mem_cons_self)
  obtain ⟨hid, href⟩ := Prod.mk.inj hrow
  obtain ⟨e', hfind, -, hanswer⟩ :=
    (create_once counting distinct_counting_source .fresh _).2.1 e he [] (.create (signup "bob"))
      (signup "bob") rfl href.symm
  exact ⟨e', hid ▸ hfind, hanswer⟩

end Referral.Ledger
