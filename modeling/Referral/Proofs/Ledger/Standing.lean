import Referral.Proofs.Ledger.Balance

namespace Referral.Ledger

variable {config : LedgerConfig} {s : LedgerState}

def takesBack (id : String) : Exchange → Bool
  | (.reverse id' _, .ok _) => id' = id
  | _ => false

/-- The entries of rewards that were made and not taken back later. -/
def outstanding : List Exchange → List Entry
  | [] => []
  | (_, .ok (.created e)) :: rest =>
    if rest.any (takesBack e.id) then outstanding rest else e :: outstanding rest
  | _ :: rest => outstanding rest

theorem takesBack_of_request {c : Command} {request : RewardRequest}
    (h : c.request? = some request) (id : String) (result : Except LedgerError Receipt) :
    takesBack id (c, result) = false := by
  cases c with
  | create request | createFromAction action => rfl
  | confirm id | pay id | reverse id reason => cases h

theorem outstanding_append (history : List Exchange) (x : Exchange) :
    outstanding (history ++ [x]) =
      (outstanding history).filter (fun e => !takesBack e.id x) ++ outstanding [x] := by
  induction history with
  | nil => rfl
  | cons y history ih =>
      obtain ⟨c, fault | receipt⟩ := y
      · exact ih
      cases receipt with
      | created e =>
          rw [List.cons_append, outstanding, outstanding, List.any_append, List.any_cons,
            List.any_nil, Bool.or_false]
          by_cases hany : history.any (takesBack e.id) = true
          · rw [if_pos hany, if_pos (by rw [hany]; rfl), ih]
          · rw [if_neg hany]
            by_cases hx : takesBack e.id x = true
            · rw [if_pos (by rw [hx, Bool.or_true]), List.filter_cons_of_neg (by simp [hx]), ih]
            · rw [if_neg (by simp [hany, hx]), List.filter_cons_of_pos (by simp [hx]), ih]
              rfl
      | duplicate e | confirmed e | paid e | reversed e against => exact ih

theorem standing_append (rows rows' : List Entry) :
    standing (rows ++ rows') = standing rows ++ standing rows' :=
  List.filterMap_append

theorem standing_moved {rows : List Entry} (hids : (rows.map (·.id)).Nodup) {e : Entry}
    (he : e ∈ rows) (hlive : e.status ≠ .reversed) (status : Status) (hstatus : status ≠ .reversed)
    (at_ : Timestamp) : standing (replaceBy (e.withStatus status at_) rows) = standing rows := by
  rw [standing, replaceBy, List.filterMap_map]
  refine List.filterMap_congr fun x hx => ?_
  rw [Function.comp_apply]
  split
  next hid =>
    rw [List.inj_on_of_nodup_map hids hx he hid, Entry.standing?_of_live hlive]
    exact Entry.standing?_of_live hstatus
  next hid => rfl

theorem filter_standing? (e : Entry) (id : String) :
    e.standing?.filter (·.id ≠ id) = if e.id = id then none else e.standing? := by
  rw [Entry.standing?]
  by_cases hreversed : e.status = .reversed
  · simp [hreversed]
  · by_cases hid : e.id = id
    · simp [hreversed, hid, Entry.withStatus]
    · simp [hreversed, hid, Entry.withStatus]

theorem standing_reversed (rows : List Entry) (e : Entry) (at_ : Timestamp) :
    standing (replaceBy (e.withStatus .reversed at_) rows) =
      (standing rows).filter (·.id ≠ e.id) := by
  rw [standing, replaceBy, List.filterMap_map, standing, List.filter_filterMap]
  refine List.filterMap_congr fun x _ => ?_
  rw [filter_standing?, Function.comp_apply]
  by_cases hid : x.id = e.id
  · have hsame : x.id = (e.withStatus .reversed at_).id := hid
    rw [if_pos hid, if_pos hsame]
    exact if_pos rfl
  · have hother : x.id ≠ (e.withStatus .reversed at_).id := hid
    rw [if_neg hid, if_neg hother]

theorem Answers.standing_listIn {c : Command} {receipt : Receipt}
    (h : Answers config s c receipt) (hs : Consistent config s) :
    standing (receipt.listIn s.store.list) =
      (standing s.store.list).filter (fun e => !takesBack e.id (c, .ok receipt)) ++
        outstanding [(c, .ok receipt)] := by
  have hids := hs.indexed.nodup_ids
  cases h with
  | created asks free =>
      simp only [takesBack_of_request asks, Bool.not_false, List.filter_true]
      exact standing_append _ _
  | duplicate asks stored same =>
      simp only [takesBack_of_request asks, Bool.not_false, List.filter_true]
      exact (List.append_nil _).symm
  | @confirmed e stored pending =>
      have hmoved := standing_moved hids stored (by simp [pending]) .confirmed (by decide)
        (s.nextTime config)
      simp only [takesBack, Bool.not_false, List.filter_true]
      exact hmoved.trans (List.append_nil _).symm
  | @paid e stored confirmed =>
      have hmoved := standing_moved hids stored (by simp [confirmed]) .paid (by decide)
        (s.nextTime config)
      simp only [takesBack, Bool.not_false, List.filter_true]
      exact hmoved.trans (List.append_nil _).symm
  | @reversed e reason stored live free =>
      have hreversed := standing_reversed s.store.list e (s.nextTime config)
      rw [Receipt.listIn, standing_append, hreversed]
      congr 1
      refine List.filter_congr fun x hx => ?_
      simp [takesBack, eq_comm]

theorem standing_after (hd : config.source.Distinct) (supply : Supply) (cs : List Command) :
    standing (after config cs (start supply)).store.list =
      outstanding (answers config cs (start supply)) := by
  refine (run_induction hd (consistent_start config supply)
    (motive := fun history t => standing t.store.list = outstanding history) rfl ?_ cs).2
  intro history t c result u ht hstep hstanding
  cases hstep with
  | refused fault supply more =>
      rw [outstanding_append, ← hstanding]
      cases c <;> simp [takesBack, outstanding]
  | answered h =>
      rw [h.list_applyTo ht hd, h.standing_listIn ht, outstanding_append, hstanding]

theorem exists_created_of_mem_outstanding {e : Entry} {history : List Exchange}
    (h : e ∈ outstanding history) : ∃ c, (c, .ok (.created e)) ∈ history := by
  induction history with
  | nil => cases h
  | cons y history ih =>
      have hlater (h : e ∈ outstanding history) : ∃ c, (c, .ok (.created e)) ∈ y :: history := by
        obtain ⟨c, hc⟩ := ih h
        exact ⟨c, List.mem_cons_of_mem _ hc⟩
      obtain ⟨c, fault | receipt⟩ := y
      · exact hlater h
      cases receipt with
      | created e' =>
          rw [outstanding] at h
          split at h
          · exact hlater h
          · rcases List.mem_cons.1 h with rfl | h
            · exact ⟨c, List.mem_cons_self⟩
            · exact hlater h
      | duplicate e' | confirmed e' | paid e' | reversed e' against => exact hlater h

theorem asked_of_created (hd : config.source.Distinct) (supply : Supply) (cs : List Command) :
    ∀ c e, (c, .ok (.created e)) ∈ answers config cs (start supply) →
      ∃ request, c.request? = some request ∧ e.amount = request.amount := by
  refine (run_induction hd (consistent_start config supply) (motive := fun history _ =>
    ∀ c e, (c, .ok (.created e)) ∈ history →
      ∃ request, c.request? = some request ∧ e.amount = request.amount) (by simp) ?_ cs).2
  intro history t c result u ht hstep hasked c' e he
  rcases List.mem_append.1 he with he | he
  · exact hasked c' e he
  · cases List.mem_singleton.1 he
    cases hstep with
    | answered h =>
        cases h with
        | created asks free => exact ⟨_, asks, rfl⟩

end Referral.Ledger
