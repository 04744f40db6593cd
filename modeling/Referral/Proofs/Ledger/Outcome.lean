import Referral.Proofs.Ledger.Reversal

namespace Referral.Ledger

variable {config : LedgerConfig} {s : LedgerState}

/-- What a reversal comes to, with what has to be stored for it. -/
inductive Reversing (config : LedgerConfig) (s : LedgerState) (id : String)
    (reason : Option String) : Except LedgerError Receipt → Prop
  | missing (absent : ∀ e ∈ s.store.list, e.id ≠ id) :
      Reversing config s id reason (.error (.entryNotFound id))
  | again {e : Entry} (stored : e ∈ s.store.list) (same : e.id = id)
      (reversed : e.status = .reversed) :
      Reversing config s id reason (.error (.alreadyReversed id))
  | blocked {e x : Entry} (stored : e ∈ s.store.list) (same : e.id = id)
      (live : e.status ≠ .reversed) (holds : x ∈ s.store.list)
      (reference : x.reference = reversalReference id) :
      Reversing config s id reason (.error (.duplicateReference (reversalReference id) x.id))
  | reversed {e : Entry} (stored : e ∈ s.store.list) (same : e.id = id)
      (live : e.status ≠ .reversed)
      (free : ∀ x ∈ s.store.list, x.reference ≠ reversalReference id) :
      Reversing config s id reason
        (.ok (.reversed (e.withStatus .reversed (s.nextTime config))
          (e.reversal (s.nextId config) (.ofOption reason) (s.nextTime config))))

theorem checkMove_reversed (e : Entry) : e.checkMove .reversed =
    if e.status = .reversed then .error (.alreadyReversed e.id) else .ok () := by
  rw [Entry.checkMove]
  by_cases h : e.status = .reversed
  · simp only [h, and_self, if_true]
    rfl
  · simp only [h, and_false, if_false, (canBecome_reversed_iff _).2 h, if_true]
    rfl

theorem reverse_reversing (hs : Consistent config s) (id : String) (reason : Option String) :
    Reversing config s id reason (reverse config id reason s).1 := by
  cases hfind : s.store.find? id with
  | none =>
      rw [reverse_missing config reason hs.quiet hfind]
      refine .missing fun e he hid => ?_
      rw [(hs.indexed.find?_eq_some_iff id e).2 ⟨he, hid⟩] at hfind
      cases hfind
  | some e =>
      obtain ⟨he, hid⟩ := (hs.indexed.find?_eq_some_iff id e).1 hfind
      have hmove := checkMove_reversed e
      by_cases hstatus : e.status = .reversed
      · rw [if_pos hstatus] at hmove
        rw [reverse_refused config reason hs.quiet hfind hmove, hid]
        exact .again he hid hstatus
      · rw [if_neg hstatus] at hmove
        cases hholder : s.store.references.get? (reversalReference e.id) with
        | some holder =>
            obtain ⟨x, hx, hreference, rfl⟩ := (hs.indexed.holder_eq_some_iff _ _).1 hholder
            rw [reverse_clash config reason hs.quiet hfind hmove hholder, hid]
            exact .blocked he hid hstatus hx (hid ▸ hreference)
        | none =>
            have hfree := (hs.indexed.holder_eq_none_iff _).1 hholder
            rw [reverse_reversed config reason hs.quiet hfind hmove hholder _ _ rfl rfl]
            exact .reversed he hid hstatus (hid ▸ hfree)

theorem exists_id_iff {rows : List Entry} (hids : (rows.map (·.id)).Nodup) {e : Entry}
    (he : e ∈ rows) (p : Entry → Prop) : (∃ x ∈ rows, x.id = e.id ∧ p x) ↔ p e := by
  constructor
  · rintro ⟨x, hx, hid, hp⟩
    exact List.inj_on_of_nodup_map hids hx he hid ▸ hp
  · exact fun hp => ⟨e, he, rfl, hp⟩

theorem not_exists_id {rows : List Entry} {id : String} (absent : ∀ e ∈ rows, e.id ≠ id)
    (p : Entry → Prop) : ¬ ∃ x ∈ rows, x.id = id ∧ p x :=
  fun ⟨x, hx, hid, _⟩ => absent x hx hid

namespace Reversing

variable {id : String} {reason : Option String} {result : Except LedgerError Receipt}

theorem missing_iff (h : Reversing config s id reason result) :
    result = .error (.entryNotFound id) ↔ ∀ e ∈ s.store.list, e.id ≠ id := by
  cases h with
  | missing absent => exact iff_of_true rfl absent
  | again stored same | blocked stored same | reversed stored same =>
      exact iff_of_false nofun fun absent => absent _ stored same

theorem again_iff (h : Reversing config s id reason result)
    (hids : (s.store.list.map (·.id)).Nodup) :
    result = .error (.alreadyReversed id) ↔
      ∃ e ∈ s.store.list, e.id = id ∧ e.status = .reversed := by
  cases h with
  | missing absent => exact iff_of_false nofun (not_exists_id absent _)
  | again stored same reversed => exact iff_of_true rfl ⟨_, stored, same, reversed⟩
  | blocked stored same live | reversed stored same live =>
      subst same
      rw [exists_id_iff hids stored]
      exact iff_of_false nofun live

theorem blocked_iff (h : Reversing config s id reason result)
    (hids : (s.store.list.map (·.id)).Nodup) :
    (∃ holder, result = .error (.duplicateReference (reversalReference id) holder)) ↔
      (∃ e ∈ s.store.list, e.id = id ∧ e.status ≠ .reversed) ∧
        ∃ x ∈ s.store.list, x.reference = reversalReference id := by
  cases h with
  | missing absent =>
      exact iff_of_false nofun fun hstored => not_exists_id absent _ hstored.1
  | again stored same reversed =>
      subst same
      rw [exists_id_iff hids stored]
      exact iff_of_false nofun fun hlive => hlive.1 reversed
  | blocked stored same live holds reference =>
      exact iff_of_true ⟨_, rfl⟩ ⟨⟨_, stored, same, live⟩, _, holds, reference⟩
  | reversed stored same live free =>
      exact iff_of_false nofun fun ⟨_, x, hx, hreference⟩ => free x hx hreference

theorem reversed_iff (h : Reversing config s id reason result)
    (hids : (s.store.list.map (·.id)).Nodup) :
    (∃ moved against, result = .ok (.reversed moved against)) ↔
      (∃ e ∈ s.store.list, e.id = id ∧ e.status ≠ .reversed) ∧
        ∀ x ∈ s.store.list, x.reference ≠ reversalReference id := by
  have hrefused (fault : LedgerError) :
      ¬ ∃ moved against, Except.error fault = .ok (Receipt.reversed moved against) := by
    rintro ⟨moved, against, heq⟩
    cases heq
  cases h with
  | missing absent =>
      exact iff_of_false (hrefused _) fun hstored => not_exists_id absent _ hstored.1
  | again stored same reversed =>
      subst same
      rw [exists_id_iff hids stored]
      exact iff_of_false (hrefused _) fun hlive => hlive.1 reversed
  | blocked stored same live holds reference =>
      exact iff_of_false (hrefused _) fun hfree => hfree.2 _ holds reference
  | reversed stored same live free =>
      exact iff_of_true ⟨_, _, rfl⟩ ⟨⟨_, stored, same, live⟩, free⟩

end Reversing

theorem Answers.became_or_new {c : Command} {receipt : Receipt} (h : Answers config s c receipt)
    {x : Entry} (hx : x ∈ receipt.listIn s.store.list) :
    (∃ y ∈ s.store.list, y.Became x) ∨ receipt = .created x ∨ ∃ e, receipt = .reversed e x := by
  have hmoved {e : Entry} (he : e ∈ s.store.list) {status : Status} {at_ : Timestamp}
      (hx : x ∈ replaceBy (e.withStatus status at_) s.store.list) :
      ∃ y ∈ s.store.list, y.Became x := by
    rcases (mem_moved he).1 hx with rfl | ⟨hx, -⟩
    · exact ⟨e, he, became_withStatus e status at_⟩
    · exact ⟨x, hx, became_refl x⟩
  cases h with
  | created asks free =>
      rcases List.mem_append.1 hx with hx | hx
      · exact .inl ⟨x, hx, became_refl x⟩
      · exact .inr (.inl (List.mem_singleton.1 hx ▸ rfl))
  | duplicate asks stored same => exact .inl ⟨x, hx, became_refl x⟩
  | confirmed stored pending => exact .inl (hmoved stored hx)
  | paid stored confirmed => exact .inl (hmoved stored hx)
  | reversed reason stored live free =>
      rcases List.mem_append.1 hx with hx | hx
      · exact .inl (hmoved stored hx)
      · rw [List.mem_singleton.1 hx]
        exact .inr (.inr ⟨_, rfl⟩)

/-- An answer told that the entry was made as a client had asked, under the reference that the
client had chosen. -/
def AskedFor (history : List Exchange) (e : Entry) : Prop :=
  ∃ c request made, (c, .ok (.created made)) ∈ history ∧ c.request? = some request ∧
    request.reference = e.reference ∧ made.id = e.id

/-- Credits were asked for, and what answers told of as made against an entry stands as such. -/
structure Traced (history : List Exchange) (rows : List Entry) : Prop where
  asked : ∀ e ∈ rows, e.kind = .credit → AskedFor history e
  against : ∀ c e v, (c, .ok (.reversed e v)) ∈ history →
    ∃ x ∈ rows, x.kind = .reversal ∧ x.id = v.id

theorem traced_nil : Traced [] [] :=
  ⟨fun _ he => absurd he List.not_mem_nil, fun _ _ _ h => absurd h List.not_mem_nil⟩

theorem AskedFor.later {history : List Exchange} {e e' : Entry} (h : AskedFor history e)
    (hbecame : e.Became e') (exchange : Exchange) : AskedFor (history ++ [exchange]) e' := by
  obtain ⟨c, request, made, hmem, hasks, hreference, hid⟩ := h
  rw [hbecame]
  exact ⟨c, request, made, List.mem_append_left _ hmem, hasks, hreference, hid⟩

theorem Answers.traced {history : List Exchange} {c : Command} {receipt : Receipt}
    (h : Answers config s c receipt) (hs : s.store.Indexed)
    (ht : Traced history s.store.list) :
    Traced (history ++ [(c, .ok receipt)]) (receipt.listIn s.store.list) := by
  constructor
  · intro x hx hcredit
    rcases h.became_or_new hx with ⟨y, hy, hbecame⟩ | rfl | ⟨e, rfl⟩
    · have hkind : y.kind = .credit := by rw [← hcredit, hbecame]; rfl
      exact (ht.asked y hy hkind).later hbecame _
    · cases h with
      | created asks free =>
          exact ⟨c, _, _, List.mem_append_right _ (List.mem_singleton.2 rfl), asks, rfl, rfl⟩
    · cases h with
      | reversed reason stored live free => cases hcredit
  · intro c' e v hmem
    rcases List.mem_append.1 hmem with hmem | hmem
    · obtain ⟨x, hx, hkind, hid⟩ := ht.against c' e v hmem
      obtain ⟨x', hx', hbecame⟩ := h.exists_became hs hx
      rw [hbecame] at hx'
      exact ⟨_, hx', hkind, hid⟩
    · cases List.mem_singleton.1 hmem
      cases h with
      | reversed reason stored live free =>
          exact ⟨_, List.mem_append_right _ (List.mem_singleton.2 rfl), rfl, rfl⟩

theorem traced_after (hd : config.source.Distinct) (supply : Supply) (cs : List Command) :
    Traced (answers config cs (start supply)) (after config cs (start supply)).store.list := by
  refine (run_induction hd (consistent_start config supply)
    (motive := fun history t => Traced history t.store.list) traced_nil ?_ cs).2
  intro history t c result u ht hstep htraced
  cases hstep with
  | refused fault supply more =>
      refine ⟨fun e he hcredit => (htraced.asked e he hcredit).later (became_refl e) _, ?_⟩
      intro c' e v hmem
      rcases List.mem_append.1 hmem with hmem | hmem
      · exact htraced.against c' e v hmem
      · cases List.mem_singleton.1 hmem
  | answered h =>
      rw [h.list_applyTo ht hd]
      exact h.traced ht.indexed htraced

theorem Paired.credit_of_holder {rows : List Entry} (h : Paired rows)
    (hids : (rows.map (·.id)).Nodup) {e x : Entry} (he : e ∈ rows) (hlive : e.status ≠ .reversed)
    (hx : x ∈ rows) (hreference : x.reference = reversalReference e.id) : x.kind = .credit := by
  rcases h.kinds x hx with ⟨hcredit, -⟩ | hreversal
  · exact hcredit
  · obtain ⟨-, o, ho, -, hreversed, hboth⟩ := h.original x hx hreversal
    have hid := reversalReference_injective (hboth.reference.symm.trans hreference)
    rw [List.inj_on_of_nodup_map hids ho he hid] at hreversed
    exact absurd hreversed hlive

/-- After any run, taking an entry back fails just if there is none, if it is reversed, or if it is
not but the reference of its reversal is taken; and it succeeds in all other cases. What has taken
the reference is a credit that some command asked for under it, and no answer told of it as a
reversal. -/
theorem reverse_outcome (config : LedgerConfig) (hd : config.source.Distinct) (supply : Supply)
    (cs : List Command) (id : String) (reason : Option String) :
    let history := answers config cs (start supply)
    let rows := (after config cs (start supply)).store.list
    let result := (perform config (.reverse id reason) (after config cs (start supply))).1
    (result = .error (.entryNotFound id) ↔ ∀ e ∈ rows, e.id ≠ id) ∧
    (result = .error (.alreadyReversed id) ↔ ∃ e ∈ rows, e.id = id ∧ e.status = .reversed) ∧
    ((∃ holder, result = .error (.duplicateReference (reversalReference id) holder)) ↔
      (∃ e ∈ rows, e.id = id ∧ e.status ≠ .reversed) ∧
        ∃ x ∈ rows, x.reference = reversalReference id) ∧
    ((∃ moved against, result = .ok (.reversed moved against)) ↔
      (∃ e ∈ rows, e.id = id ∧ e.status ≠ .reversed) ∧
        ∀ x ∈ rows, x.reference ≠ reversalReference id) ∧
    ∀ reference holder, result = .error (.duplicateReference reference holder) →
      ∃ x ∈ rows, x.id = holder ∧ x.reference = reversalReference id ∧ x.kind = .credit ∧
        AskedFor history x ∧ ∀ c e v, (c, .ok (.reversed e v)) ∈ history → v.id ≠ holder := by
  intro history rows result
  have hs := consistent_after hd supply cs
  have hids := hs.indexed.nodup_ids
  have hresult : Reversing config _ id reason result := reverse_reversing hs id reason
  refine ⟨hresult.missing_iff, hresult.again_iff hids, hresult.blocked_iff hids,
    hresult.reversed_iff hids, fun reference holder hblocked => ?_⟩
  rw [hblocked] at hresult
  cases hresult with
  | @blocked e x stored same live holds hreference =>
      have htraced := traced_after hd supply cs
      have hcredit := (paired_after hd supply cs).credit_of_holder hids stored live holds
        (same ▸ hreference)
      refine ⟨x, holds, rfl, hreference, hcredit, htraced.asked x holds hcredit, ?_⟩
      intro c e v hmem hid
      obtain ⟨y, hy, hreversal, hsame⟩ := htraced.against c e v hmem
      rw [List.inj_on_of_nodup_map hids hy holds (hsame.trans hid), hcredit] at hreversal
      cases hreversal

/-- The reward of the first is kept from being taken back by what the second asked for. -/
theorem reverse_outcome_clashing :
    let cs := clashing.take 2
    let s := after counting cs (start .fresh)
    let id := "entry-00000000000000000000000000000001"
    counting.source.Distinct ∧
      (∃ holder, (perform counting (.reverse id none) s).1 =
        .error (.duplicateReference (reversalReference id) holder)) ∧
      ∃ x ∈ s.store.list, x.reference = reversalReference id ∧ x.kind = .credit ∧
        AskedFor (answers counting cs (start .fresh)) x := by
  intro cs s id
  obtain ⟨-, -, hblocked, -, hholder⟩ :=
    reverse_outcome counting distinct_counting_source .fresh cs id none
  have hrows : s.store.list.map (fun e => (e.id, e.status, e.reference)) =
      [(id, .pending, "signup"),
        ("entry-00000000000000000000000000000002", .pending, reversalReference id)] := by
    decide +kernel
  obtain ⟨e, he, hfirst⟩ := List.mem_map.1 (hrows ▸ List.mem_cons_self)
  obtain ⟨x, hx, hsecond⟩ :=
    List.mem_map.1 (hrows ▸ List.mem_cons_of_mem _ (List.mem_singleton.2 rfl))
  simp only [Prod.mk.injEq] at hfirst hsecond
  have hlive : e.status ≠ .reversed := by simp [hfirst.2.1]
  obtain ⟨holder, herror⟩ :=
    hblocked.2 ⟨⟨e, he, hfirst.1, hlive⟩, x, hx, hsecond.2.2⟩
  obtain ⟨y, hy, -, hreference, hcredit, hasked, -⟩ := hholder _ _ herror
  exact ⟨distinct_counting_source, ⟨holder, herror⟩, y, hy, hreference, hcredit, hasked⟩

end Referral.Ledger
