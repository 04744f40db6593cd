import Mathlib.Data.List.Perm.Lattice
import Referral.Proofs.Ledger.Run

namespace Referral

/-- The row against a reversed one has all from it, and was made when it was reversed. -/
structure Entry.Reverses (against original : Entry) : Prop where
  reference : against.reference = reversalReference original.id
  userId : against.userId = original.userId
  amount : against.amount = original.amount
  currency : against.currency = original.currency
  description : ∃ d, original.description = some d ∧
    against.description = some ("Reversal: " ++ d)
  noted : Members.get against.metadata "originalEntryId" = .text original.id
  createdAt : against.createdAt = original.updatedAt
  updatedAt : against.updatedAt = original.updatedAt

namespace Ledger

theorem reversalReference_injective : Function.Injective reversalReference :=
  fun _ _ h => (String.append_right_inj reversalMark).1 h

theorem reverses_reversal {e : Entry} {d : String} (hd : e.description = some d) (id : String)
    (reason : Value) (at_ : Timestamp) :
    (e.reversal id reason at_).Reverses (e.withStatus .reversed at_) where
  reference := rfl
  userId := rfl
  amount := rfl
  currency := rfl
  description := ⟨d, hd, by rw [Entry.reversal, hd]; rfl⟩
  noted := by simp [Entry.reversal, Entry.withStatus, Members.get, Members.value?]
  createdAt := rfl
  updatedAt := rfl

structure Paired (rows : List Entry) : Prop where
  kinds : ∀ e ∈ rows, e.kind = .credit ∧ e.description.isSome ∨ e.kind = .reversal
  original : ∀ v ∈ rows, v.kind = .reversal → v.status = .reversed ∧
    ∃ o ∈ rows, o.kind = .credit ∧ o.status = .reversed ∧ v.Reverses o
  against : ∀ o ∈ rows, o.kind = .credit → o.status = .reversed →
    ∃ v ∈ rows, v.kind = .reversal ∧ v.reference = reversalReference o.id

theorem paired_nil : Paired [] := ⟨by simp, by simp, by simp⟩

namespace Paired

variable {rows : List Entry} {e : Entry}

theorem credit_of_live (h : Paired rows) (he : e ∈ rows) (hlive : e.status ≠ .reversed) :
    e.kind = .credit ∧ e.description.isSome := by
  rcases h.kinds e he with hkind | hkind
  · exact hkind
  · exact absurd (h.original e he hkind).1 hlive

theorem mem_moved_of_reversed (hids : (rows.map (·.id)).Nodup) (he : e ∈ rows)
    (hlive : e.status ≠ .reversed) (status : Status) (at_ : Timestamp) {x : Entry} (hx : x ∈ rows)
    (hreversed : x.status = .reversed) : x ∈ replaceBy (e.withStatus status at_) rows := by
  refine (mem_moved he).2 (.inr ⟨hx, fun heq => hlive ?_⟩)
  rw [← List.inj_on_of_nodup_map hids hx he heq]
  exact hreversed

theorem created (h : Paired rows) (hkind : e.kind = .credit) (hstatus : e.status = .pending)
    (hdescription : e.description.isSome) : Paired (rows ++ [e]) := by
  constructor
  · intro x hx
    rcases List.mem_append.1 hx with hx | hx
    · exact h.kinds x hx
    · rw [List.mem_singleton.1 hx]
      exact .inl ⟨hkind, hdescription⟩
  · intro v hv hreversal
    rcases List.mem_append.1 hv with hv | hv
    · obtain ⟨hstatus, o, ho, horiginal⟩ := h.original v hv hreversal
      exact ⟨hstatus, o, List.mem_append_left _ ho, horiginal⟩
    · rw [List.mem_singleton.1 hv, hkind] at hreversal
      cases hreversal
  · intro o ho hcredit hreversed
    rcases List.mem_append.1 ho with ho | ho
    · obtain ⟨v, hv, hagainst⟩ := h.against o ho hcredit hreversed
      exact ⟨v, List.mem_append_left _ hv, hagainst⟩
    · rw [List.mem_singleton.1 ho, hstatus] at hreversed
      cases hreversed

theorem kinds_moved (h : Paired rows) (he : e ∈ rows) {status : Status} {at_ : Timestamp} :
    ∀ x ∈ replaceBy (e.withStatus status at_) rows,
      x.kind = .credit ∧ x.description.isSome ∨ x.kind = .reversal := by
  intro x hx
  rcases (mem_moved he).1 hx with rfl | ⟨hx, -⟩
  · exact h.kinds e he
  · exact h.kinds x hx

theorem original_moved (h : Paired rows) (hids : (rows.map (·.id)).Nodup) (he : e ∈ rows)
    (hlive : e.status ≠ .reversed) {status : Status} {at_ : Timestamp} :
    ∀ v ∈ replaceBy (e.withStatus status at_) rows, v.kind = .reversal → v.status = .reversed ∧
      ∃ o ∈ replaceBy (e.withStatus status at_) rows,
        o.kind = .credit ∧ o.status = .reversed ∧ v.Reverses o := by
  intro v hv hreversal
  rcases (mem_moved he).1 hv with rfl | ⟨hv, -⟩
  · have hkind : e.kind = .reversal := hreversal
    rw [(h.credit_of_live he hlive).1] at hkind
    cases hkind
  · obtain ⟨hstatus, o, ho, hcredit, hreversed, hboth⟩ := h.original v hv hreversal
    have ho' := mem_moved_of_reversed hids he hlive status at_ ho hreversed
    exact ⟨hstatus, o, ho', hcredit, hreversed, hboth⟩

theorem against_moved (h : Paired rows) (hids : (rows.map (·.id)).Nodup) (he : e ∈ rows)
    (hlive : e.status ≠ .reversed) (status : Status) (at_ : Timestamp) {o : Entry} (ho : o ∈ rows)
    (hcredit : o.kind = .credit) (hreversed : o.status = .reversed) :
    ∃ v ∈ replaceBy (e.withStatus status at_) rows,
      v.kind = .reversal ∧ v.reference = reversalReference o.id := by
  obtain ⟨v, hv, hreversal, href⟩ := h.against o ho hcredit hreversed
  have hmem := mem_moved_of_reversed hids he hlive status at_ hv (h.original v hv hreversal).1
  exact ⟨v, hmem, hreversal, href⟩

theorem moved (h : Paired rows) (hids : (rows.map (·.id)).Nodup) (he : e ∈ rows)
    (hlive : e.status ≠ .reversed) {status : Status} (hstatus : status ≠ .reversed)
    (at_ : Timestamp) : Paired (replaceBy (e.withStatus status at_) rows) := by
  refine ⟨h.kinds_moved he, h.original_moved hids he hlive, fun o ho hcredit hreversed => ?_⟩
  rcases (mem_moved he).1 ho with rfl | ⟨ho, -⟩
  · exact absurd hreversed hstatus
  · exact h.against_moved hids he hlive status at_ ho hcredit hreversed

theorem reversed (h : Paired rows) (hids : (rows.map (·.id)).Nodup) (he : e ∈ rows)
    (hlive : e.status ≠ .reversed) (id : String) (reason : Value) (at_ : Timestamp) :
    Paired (replaceBy (e.withStatus .reversed at_) rows ++ [e.reversal id reason at_]) := by
  obtain ⟨hkind, hdescription⟩ := h.credit_of_live he hlive
  obtain ⟨d, hd⟩ := Option.isSome_iff_exists.1 hdescription
  have hmoved : e.withStatus .reversed at_ ∈ replaceBy (e.withStatus .reversed at_) rows :=
    (mem_moved he).2 (.inl rfl)
  constructor
  · intro x hx
    rcases List.mem_append.1 hx with hx | hx
    · exact h.kinds_moved he x hx
    · rw [List.mem_singleton.1 hx]
      exact .inr rfl
  · intro v hv hreversal
    rcases List.mem_append.1 hv with hv | hv
    · obtain ⟨hstatus, o, ho, hboth⟩ := h.original_moved hids he hlive v hv hreversal
      exact ⟨hstatus, o, List.mem_append_left _ ho, hboth⟩
    · rw [List.mem_singleton.1 hv]
      exact ⟨rfl, _, List.mem_append_left _ hmoved, hkind, rfl, reverses_reversal hd id reason at_⟩
  · intro o ho hcredit hreversed
    rcases List.mem_append.1 ho with ho | ho
    · rcases (mem_moved he).1 ho with rfl | ⟨ho, -⟩
      · exact ⟨_, List.mem_append_right _ (List.mem_singleton.2 rfl), rfl, rfl⟩
      · obtain ⟨v, hv, hagainst⟩ :=
          h.against_moved hids he hlive .reversed at_ ho hcredit hreversed
        exact ⟨v, List.mem_append_left _ hv, hagainst⟩
    · rw [List.mem_singleton.1 ho] at hcredit
      cases hcredit

end Paired

variable {config : LedgerConfig} {s : LedgerState}

theorem Answers.paired {c : Command} {receipt : Receipt} (h : Answers config s c receipt)
    (hs : Consistent config s) (hp : Paired s.store.list) :
    Paired (receipt.listIn s.store.list) := by
  have hids := hs.indexed.nodup_ids
  cases h with
  | created asks free => exact hp.created rfl rfl rfl
  | duplicate asks stored same => exact hp
  | confirmed stored pending => exact hp.moved hids stored (by simp [pending]) (by decide) _
  | paid stored confirmed => exact hp.moved hids stored (by simp [confirmed]) (by decide) _
  | reversed reason stored live free => exact hp.reversed hids stored live _ _ _

theorem paired_after (hd : config.source.Distinct) (supply : Supply) (cs : List Command) :
    Paired (after config cs (start supply)).store.list := by
  refine (run_induction hd (consistent_start config supply)
    (motive := fun _ t => Paired t.store.list) paired_nil ?_ cs).2
  intro history t c result u ht hstep hpaired
  cases hstep with
  | refused fault supply more => exact hpaired
  | answered h =>
      rw [h.list_applyTo ht hd]
      exact h.paired ht hpaired

theorem filter_eq_singleton {rows : List Entry} (hnodup : rows.Nodup) {p : Entry → Bool} {x : Entry}
    (hx : x ∈ rows) (hp : p x = true) (huniq : ∀ y ∈ rows, p y = true → y = x) :
    rows.filter p = [x] := by
  refine List.perm_singleton.1 ((List.perm_ext_iff_of_nodup (hnodup.filter p)
    (List.nodup_singleton x)).2 fun y => ?_)
  rw [List.mem_filter, List.mem_singleton]
  constructor
  · rintro ⟨hy, hpy⟩
    exact huniq y hy hpy
  · rintro rfl
    exact ⟨hx, hp⟩

/-- What readers of the ledger rely on. A credit is reversed just if one reversing row has its
reference; a reversing row has one original, and no two have the same. -/
structure ReversalsMatch (rows : List Entry) : Prop where
  reversed_iff : ∀ o ∈ rows, o.kind = .credit → (o.status = .reversed ↔
    ∃ v, rows.filter (fun v => v.kind = .reversal ∧ v.reference = reversalReference o.id) = [v])
  original : ∀ v ∈ rows, v.kind = .reversal → v.status = .reversed ∧
    ∃ o, rows.filter (fun o => o.kind = .credit ∧ v.reference = reversalReference o.id) = [o] ∧
      o.status = .reversed ∧ v.Reverses o
  nodup_originals : ((rows.filter (·.kind = .reversal)).map
    fun v => Members.get v.metadata "originalEntryId").Nodup
  original_ne : ∀ v ∈ rows, ∀ w ∈ rows, v.kind = .reversal → w.kind = .reversal →
    Members.get v.metadata "originalEntryId" ≠ .text w.id

namespace Paired

variable {rows : List Entry}

theorem reversed_iff (h : Paired rows) (hids : (rows.map (·.id)).Nodup)
    (hreferences : (rows.map (·.reference)).Nodup) {o : Entry} (ho : o ∈ rows)
    (hcredit : o.kind = .credit) : o.status = .reversed ↔ ∃ v,
      rows.filter (fun v => v.kind = .reversal ∧ v.reference = reversalReference o.id) = [v] := by
  constructor
  · intro hreversed
    obtain ⟨v, hv, hreversal, href⟩ := h.against o ho hcredit hreversed
    have hpv : decide (v.kind = .reversal ∧ v.reference = reversalReference o.id) = true := by
      simp [hreversal, href]
    refine ⟨v, filter_eq_singleton (.of_map _ hids) hv hpv fun w hw hpw => ?_⟩
    simp only [decide_eq_true_eq] at hpw
    exact List.inj_on_of_nodup_map hreferences hw hv (hpw.2.trans href.symm)
  · rintro ⟨v, hfilter⟩
    have hv : v ∈ rows.filter _ := hfilter ▸ List.mem_singleton.2 rfl
    simp only [List.mem_filter, decide_eq_true_eq] at hv
    obtain ⟨hv, hreversal, href⟩ := hv
    obtain ⟨-, o', ho', -, hreversed, hboth⟩ := h.original v hv hreversal
    have hid := reversalReference_injective (href.symm.trans hboth.reference)
    rw [List.inj_on_of_nodup_map hids ho ho' hid]
    exact hreversed

theorem exists_original (h : Paired rows) (hids : (rows.map (·.id)).Nodup) {v : Entry}
    (hv : v ∈ rows) (hreversal : v.kind = .reversal) : v.status = .reversed ∧
      ∃ o, rows.filter (fun o => o.kind = .credit ∧ v.reference = reversalReference o.id) = [o] ∧
        o.status = .reversed ∧ v.Reverses o := by
  obtain ⟨hstatus, o, ho, hcredit, hreversed, hboth⟩ := h.original v hv hreversal
  refine ⟨hstatus, o, ?_, hreversed, hboth⟩
  refine filter_eq_singleton (.of_map _ hids) ho (by simp [hcredit, hboth.reference]) ?_
  intro x hx hpx
  simp only [decide_eq_true_eq] at hpx
  exact List.inj_on_of_nodup_map hids hx ho
    (reversalReference_injective (hpx.2.symm.trans hboth.reference))

theorem nodup_originals (h : Paired rows) (hreferences : (rows.map (·.reference)).Nodup) :
    ((rows.filter (·.kind = .reversal)).map
      fun v => Members.get v.metadata "originalEntryId").Nodup := by
  have hnodup : rows.Nodup := .of_map _ hreferences
  refine (List.nodup_map_iff_inj_on (hnodup.filter _)).2 fun v hv w hw heq => ?_
  simp only [List.mem_filter, decide_eq_true_eq] at hv hw
  obtain ⟨-, o, -, -, -, hboth⟩ := h.original v hv.1 hv.2
  obtain ⟨-, o', -, -, -, hboth'⟩ := h.original w hw.1 hw.2
  rw [hboth.noted, hboth'.noted] at heq
  simp only [Value.text.injEq, Text.mk.injEq, and_true] at heq
  refine List.inj_on_of_nodup_map hreferences hv.1 hw.1 ?_
  rw [hboth.reference, hboth'.reference, heq]

theorem original_ne (h : Paired rows) (hids : (rows.map (·.id)).Nodup) {v w : Entry}
    (hv : v ∈ rows) (hw : w ∈ rows) (hreversal : v.kind = .reversal)
    (hreversal' : w.kind = .reversal) :
    Members.get v.metadata "originalEntryId" ≠ .text w.id := by
  intro heq
  obtain ⟨-, o, ho, hcredit, -, hboth⟩ := h.original v hv hreversal
  rw [hboth.noted] at heq
  simp only [Value.text.injEq, Text.mk.injEq, and_true] at heq
  rw [List.inj_on_of_nodup_map hids ho hw heq, hreversal'] at hcredit
  cases hcredit

end Paired

theorem reversalsMatch_after (config : LedgerConfig) (hd : config.source.Distinct)
    (supply : Supply) (cs : List Command) :
    ReversalsMatch (after config cs (start supply)).store.list := by
  have hpaired := paired_after hd supply cs
  have hindexed := (consistent_after hd supply cs).indexed
  have hids := hindexed.nodup_ids
  have hreferences := hindexed.nodup_references
  exact ⟨fun o ho => hpaired.reversed_iff hids hreferences ho,
    fun v hv => hpaired.exists_original hids hv, hpaired.nodup_originals hreferences,
    fun v hv w hw => hpaired.original_ne hids hv hw⟩

/-- The second reward has the reference that a row against the first would have. So the first cannot
be reversed, and the second can. -/
def clashing : List Command :=
  [.create (signup "ada"),
    .create ⟨"bob", ⟨false, 1, 0⟩, "reversal-entry-00000000000000000000000000000001", none, none,
      []⟩,
    .reverse "entry-00000000000000000000000000000001" none,
    .reverse "entry-00000000000000000000000000000002" none]

theorem reversalsMatch_clashing :
    counting.source.Distinct ∧
      (after counting clashing (start .fresh)).store.list.map (·.status) =
        [.pending, .reversed, .reversed] ∧
      ReversalsMatch (after counting clashing (start .fresh)).store.list :=
  ⟨distinct_counting_source, by decide +kernel,
    reversalsMatch_after counting distinct_counting_source .fresh clashing⟩

end Ledger

end Referral
