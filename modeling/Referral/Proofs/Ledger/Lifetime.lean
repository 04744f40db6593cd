import Mathlib.Data.List.Destutter
import Referral.Proofs.Ledger.Refusal

namespace Referral

namespace Status

/-- Some way along pending, confirmed and paid, and perhaps reversed at the end. -/
def Advances (path : List Status) : Prop :=
  ∃ way, way ≠ [] ∧ way <+: [pending, confirmed, paid] ∧
    (path = way ∨ path = way ++ [reversed])

abbrev Allowed (path : List Status) : Prop := path.IsChain fun a b => a.canBecome b = true

theorem eq_nil_of_allowed_reversed {path : List Status} (h : Allowed (reversed :: path)) :
    path = [] := by
  cases path with
  | nil => rfl
  | cons b path =>
      have hmove := (List.isChain_cons_cons.1 h).1
      cases b <;> cases hmove

theorem eq_of_allowed_paid {path : List Status} (h : Allowed (paid :: path)) :
    path = [] ∨ path = [reversed] := by
  cases path with
  | nil => exact .inl rfl
  | cons b path =>
      obtain ⟨hmove, hrest⟩ := List.isChain_cons_cons.1 h
      cases b with
      | reversed => exact .inr (congrArg _ (eq_nil_of_allowed_reversed hrest))
      | pending | confirmed | paid => cases hmove

theorem eq_of_allowed_confirmed {path : List Status} (h : Allowed (confirmed :: path)) :
    path = [] ∨ path = [reversed] ∨ path = [paid] ∨ path = [paid, reversed] := by
  cases path with
  | nil => exact .inl rfl
  | cons b path =>
      obtain ⟨hmove, hrest⟩ := List.isChain_cons_cons.1 h
      cases b with
      | reversed => exact .inr (.inl (congrArg _ (eq_nil_of_allowed_reversed hrest)))
      | paid => rcases eq_of_allowed_paid hrest with rfl | rfl <;> simp
      | pending | confirmed => cases hmove

theorem advances_of_allowed {path : List Status} (h : Allowed (pending :: path)) :
    Advances (pending :: path) := by
  cases path with
  | nil => exact ⟨[pending], by decide, by decide, .inl rfl⟩
  | cons b path =>
      obtain ⟨hmove, hrest⟩ := List.isChain_cons_cons.1 h
      cases b with
      | reversed =>
          rw [eq_nil_of_allowed_reversed hrest]
          exact ⟨[pending], by decide, by decide, .inr rfl⟩
      | confirmed =>
          rcases eq_of_allowed_confirmed hrest with rfl | rfl | rfl | rfl
          · exact ⟨[pending, confirmed], by decide, by decide, .inl rfl⟩
          · exact ⟨[pending, confirmed], by decide, by decide, .inr rfl⟩
          · exact ⟨[pending, confirmed, paid], by decide, by decide, .inl rfl⟩
          · exact ⟨[pending, confirmed, paid], by decide, by decide, .inr rfl⟩
      | pending | paid => cases hmove

theorem Advances.nodup {path : List Status} (h : Advances path) : path.Nodup := by
  obtain ⟨way, -, hway, hpath⟩ := h
  have hall : ([pending, confirmed, paid] ++ [reversed]).Nodup := by decide
  have hsub : path.Sublist ([pending, confirmed, paid] ++ [reversed]) := by
    rcases hpath with rfl | rfl
    · exact hway.sublist.trans (List.sublist_append_left _ _)
    · exact hway.sublist.append_right _
  exact hsub.nodup hall

theorem destutter_cons_cons_ne (a b : Status) (path : List Status) :
    (a :: b :: path).destutter (· ≠ ·) =
      if a = b then (b :: path).destutter (· ≠ ·) else a :: (b :: path).destutter (· ≠ ·) := by
  rw [List.destutter_cons_cons]
  by_cases h : a = b
  · rw [if_neg (not_not.2 h), if_pos h, h]
    rfl
  · rw [if_pos h, if_neg h]
    rfl

end Status

/-- A clock that never goes back. -/
def Source.Steady (source : Source) : Prop :=
  ∀ ⦃m n⦄, m ≤ n → (source.reading m).instant ≤ (source.reading n).instant

namespace Ledger

variable {config : LedgerConfig} {s t : LedgerState} {id : String}

def states (config : LedgerConfig) : List Command → LedgerState → List LedgerState
  | [], s => [s]
  | c :: rest, s => s :: states config rest (perform config c s).2

/-- The statuses under an identifier in the states of a run in which it is stored. -/
def statuses (config : LedgerConfig) (id : String) (cs : List Command) (s : LedgerState) :
    List Status :=
  ((states config cs s).filterMap (·.store.find? id)).map (·.status)

/-- The statuses under an identifier in a run, each told once for as long as it lasts. -/
def statusPath (config : LedgerConfig) (id : String) (cs : List Command) (s : LedgerState) :
    List Status :=
  (statuses config id cs s).destutter (· ≠ ·)

def moves (id : String) : Exchange → Bool
  | (.confirm id', .ok _) | (.pay id', .ok _) | (.reverse id' _, .ok _) => id' = id
  | _ => false

def readingsTaken (config : LedgerConfig) (c : Command) (s : LedgerState) : List Timestamp :=
  (List.range' (s.supply.readings + 1)
    ((perform config c s).2.supply.readings - s.supply.readings)).map config.source.reading

/-- The reading that was taken to move the entry for the last time. -/
def lastMove? (config : LedgerConfig) (id : String) : List Command → LedgerState → Option Timestamp
  | [], _ => none
  | c :: rest, s =>
    (lastMove? config id rest (perform config c s).2).or
      (if moves id (c, (perform config c s).1) then (readingsTaken config c s).getLast? else none)

theorem statuses_of_absent (c : Command) (cs : List Command) (h : s.store.find? id = none) :
    statuses config id (c :: cs) s = statuses config id cs (perform config c s).2 := by
  simp [statuses, states, h]

theorem statuses_of_stored (c : Command) (cs : List Command) {e : Entry}
    (h : s.store.find? id = some e) :
    statuses config id (c :: cs) s = e.status :: statuses config id cs (perform config c s).2 := by
  simp [statuses, states, h]

theorem exists_statuses_eq_cons (config : LedgerConfig) (cs : List Command) {e : Entry}
    (h : s.store.find? id = some e) : ∃ later, statuses config id cs s = e.status :: later := by
  cases cs with
  | nil => exact ⟨[], by simp [statuses, states, h]⟩
  | cons c cs => exact ⟨_, statuses_of_stored c cs h⟩

theorem readingsTaken_eq {c : Command}
    (h : (perform config c s).2.supply.readings = s.supply.readings + 1) :
    readingsTaken config c s = [s.nextTime config] := by
  simp [readingsTaken, h, LedgerState.nextTime]

theorem moves_of_request {c : Command} {request : RewardRequest} (h : c.request? = some request)
    (id : String) (result : Except LedgerError Receipt) : moves id (c, result) = false := by
  cases c with
  | create request | createFromAction action => rfl
  | confirm id | pay id | reverse id reason => cases h

/-- What a command makes of a stored entry. -/
structure Carried (config : LedgerConfig) (s : LedgerState) (moved : Bool) (t : LedgerState)
    (e e' : Entry) : Prop where
  became : e.Became e'
  kept : moved = false → e' = e
  moved : moved = true → e.status.canBecome e'.status = true ∧ e'.updatedAt = s.nextTime config ∧
    t.supply.readings = s.supply.readings + 1

theorem carried_refl (config : LedgerConfig) (s t : LedgerState) (e : Entry) :
    Carried config s false t e e :=
  ⟨became_refl e, fun _ => rfl, fun h => nomatch h⟩

theorem exists_carried_moved (hs : s.store.Indexed) {e x : Entry} (he : e ∈ s.store.list)
    (hx : x ∈ s.store.list) {status : Status} (hmove : e.status.canBecome status = true)
    (hreadings : t.supply.readings = s.supply.readings + 1) :
    ∃ x' ∈ replaceBy (e.withStatus status (s.nextTime config)) s.store.list,
      Carried config s (decide (e.id = x.id)) t x x' := by
  by_cases hid : e.id = x.id
  · obtain rfl := hs.eq_of_id he hx hid
    refine ⟨_, (mem_moved he).2 (.inl rfl), became_withStatus _ _ _, fun h => ?_, fun _ => ?_⟩
    · simp at h
    · exact ⟨hmove, rfl, hreadings⟩
  · refine ⟨x, (mem_moved he).2 (.inr ⟨hx, Ne.symm hid⟩), ?_⟩
    rw [decide_eq_false hid]
    exact carried_refl config s t x

theorem Answers.exists_carried {c : Command} {receipt : Receipt} (h : Answers config s c receipt)
    (hs : s.store.Indexed) {x : Entry} (hx : x ∈ s.store.list) :
    ∃ x' ∈ receipt.listIn s.store.list,
      Carried config s (moves x.id (c, .ok receipt)) (receipt.applyTo s) x x' := by
  cases h with
  | created asks free =>
      rw [moves_of_request asks]
      exact ⟨x, List.mem_append_left _ hx, carried_refl config s _ x⟩
  | duplicate asks stored same =>
      rw [moves_of_request asks]
      exact ⟨x, hx, carried_refl config s _ x⟩
  | confirmed stored pending => exact exists_carried_moved hs stored hx (by rw [pending]; rfl) rfl
  | paid stored confirmed => exact exists_carried_moved hs stored hx (by rw [confirmed]; rfl) rfl
  | reversed reason stored live free =>
      obtain ⟨x', hx', hcarried⟩ :=
        exists_carried_moved (t := Receipt.applyTo (.reversed _ _) s) hs stored hx
          ((canBecome_reversed_iff _).2 live) rfl
      exact ⟨x', List.mem_append_left _ hx', hcarried⟩

theorem Step.exists_carried {c : Command} {result : Except LedgerError Receipt}
    (h : Step config s c result t) (hs : Consistent config s) (hd : config.source.Distinct)
    {e : Entry} (he : s.store.find? id = some e) :
    ∃ e', t.store.find? id = some e' ∧ Carried config s (moves id (c, result)) t e e' := by
  obtain ⟨hmem, rfl⟩ := (hs.indexed.find?_eq_some_iff id e).1 he
  have ht := (h.consistent hs hd).indexed
  cases h with
  | refused fault supply more =>
      have hmoves : moves e.id (c, .error fault) = false := by cases c <;> rfl
      rw [hmoves]
      exact ⟨e, he, carried_refl config s _ e⟩
  | answered h =>
      obtain ⟨e', he', hcarried⟩ := h.exists_carried hs.indexed hmem
      rw [← h.list_applyTo hs hd] at he'
      have hid : e'.id = e.id := by rw [hcarried.became]; rfl
      exact ⟨e', (ht.find?_eq_some_iff _ _).2 ⟨he', hid⟩, hcarried⟩

structure New (e : Entry) : Prop where
  kind : e.kind = .credit ∧ e.status = .pending ∨ e.kind = .reversal ∧ e.status = .reversed
  updatedAt : e.updatedAt = e.createdAt

theorem Answers.new_of_absent {c : Command} {receipt : Receipt} (h : Answers config s c receipt)
    (hs : s.store.Indexed) (hfree : ∀ x ∈ s.store.list, x.id ≠ id) :
    moves id (c, .ok receipt) = false ∧
      ∀ x ∈ receipt.listIn s.store.list, x.id = id → New x := by
  have hmoved {e x : Entry} {status : Status} {at_ : Timestamp} (he : e ∈ s.store.list)
      (hx : x ∈ replaceBy (e.withStatus status at_) s.store.list) (hid : x.id = id) : New x := by
    obtain ⟨y, hy, heq⟩ := exists_id_of_moved hs he hx
    exact absurd (heq.trans hid) (hfree y hy)
  cases h with
  | created asks free =>
      refine ⟨moves_of_request asks id _, fun x hx hid => ?_⟩
      rcases List.mem_append.1 hx with hx | hx
      · exact absurd hid (hfree x hx)
      · rw [List.mem_singleton.1 hx]
        exact ⟨.inl ⟨rfl, rfl⟩, rfl⟩
  | duplicate asks stored same =>
      exact ⟨moves_of_request asks id _, fun x hx hid => absurd hid (hfree x hx)⟩
  | confirmed stored pending =>
      exact ⟨decide_eq_false (hfree _ stored), fun x hx hid => hmoved stored hx hid⟩
  | paid stored confirmed =>
      exact ⟨decide_eq_false (hfree _ stored), fun x hx hid => hmoved stored hx hid⟩
  | reversed reason stored live free =>
      refine ⟨decide_eq_false (hfree _ stored), fun x hx hid => ?_⟩
      rcases List.mem_append.1 hx with hx | hx
      · exact hmoved stored hx hid
      · rw [List.mem_singleton.1 hx]
        exact ⟨.inr ⟨rfl, rfl⟩, rfl⟩

theorem Step.new_of_absent {c : Command} {result : Except LedgerError Receipt}
    (h : Step config s c result t) (hs : Consistent config s) (hd : config.source.Distinct)
    (hnone : s.store.find? id = none) :
    moves id (c, result) = false ∧ ∀ e, t.store.find? id = some e → New e := by
  have ht := (h.consistent hs hd).indexed
  have hfree : ∀ x ∈ s.store.list, x.id ≠ id := by
    intro x hx hid
    rw [(hs.indexed.find?_eq_some_iff id x).2 ⟨hx, hid⟩] at hnone
    cases hnone
  cases h with
  | refused fault supply more =>
      refine ⟨by cases c <;> rfl, fun e he => ?_⟩
      have hsome : s.store.find? id = some e := he
      rw [hnone] at hsome
      cases hsome
  | answered h =>
      obtain ⟨hmoves, hnew⟩ := h.new_of_absent hs.indexed hfree
      refine ⟨hmoves, fun e he => ?_⟩
      obtain ⟨hmem, hid⟩ := (ht.find?_eq_some_iff id e).1 he
      rw [h.list_applyTo hs hd] at hmem
      exact hnew e hmem hid

theorem lastMove?_of_moved {c : Command} {cs : List Command}
    (h : moves id (c, (perform config c s).1) = true)
    (hreadings : (perform config c s).2.supply.readings = s.supply.readings + 1) :
    lastMove? config id (c :: cs) s =
      (lastMove? config id cs (perform config c s).2).or (some (s.nextTime config)) := by
  rw [lastMove?, if_pos h, readingsTaken_eq hreadings]
  rfl

theorem lastMove?_of_not_moved {c : Command} {cs : List Command}
    (h : moves id (c, (perform config c s).1) = false) :
    lastMove? config id (c :: cs) s = lastMove? config id cs (perform config c s).2 := by
  rw [lastMove?, h, if_neg Bool.false_ne_true, Option.or_none]

theorem carried_after (hd : config.source.Distinct) (hs : Consistent config s) {e : Entry}
    (he : s.store.find? id = some e) (cs : List Command) :
    ∃ e', (after config cs s).store.find? id = some e' ∧ e.Became e' ∧
      (∃ path, statusPath config id cs s = e.status :: path ∧ Status.Allowed (e.status :: path)) ∧
      e'.updatedAt = (lastMove? config id cs s).getD e.updatedAt := by
  induction cs generalizing s e with
  | nil =>
      refine ⟨e, he, became_refl e, ⟨[], ?_, List.isChain_singleton _⟩, rfl⟩
      simp [statusPath, statuses, states, he]
  | cons c cs ih =>
      have hstep := perform_step hs c
      obtain ⟨e₁, he₁, hcarried⟩ := hstep.exists_carried hs hd he
      obtain ⟨e', he', hbecame, ⟨path, hpath, hallowed⟩, htime⟩ :=
        ih (hstep.consistent hs hd) he₁
      obtain ⟨later, hlater⟩ := exists_statuses_eq_cons config cs he₁
      have hcons : statusPath config id (c :: cs) s =
          if e.status = e₁.status then e₁.status :: path else e.status :: e₁.status :: path := by
        rw [← hpath, statusPath, statuses_of_stored c cs he, hlater,
          Status.destutter_cons_cons_ne, statusPath, hlater]
      refine ⟨e', he', became_trans hcarried.became hbecame, ?_⟩
      cases hmoves : moves id (c, (perform config c s).1) with
      | false =>
          have heq : e₁ = e := hcarried.kept hmoves
          subst heq
          rw [if_pos rfl] at hcons
          exact ⟨⟨path, hcons, hallowed⟩, by rw [lastMove?_of_not_moved hmoves, htime]⟩
      | true =>
          obtain ⟨hmove, hupdated, hreadings⟩ := hcarried.moved hmoves
          have hne : e.status ≠ e₁.status := by
            intro heq
            rw [← heq] at hmove
            cases hstatus : e.status <;> rw [hstatus] at hmove <;> cases hmove
          rw [if_neg hne] at hcons
          refine ⟨⟨e₁.status :: path, hcons, List.isChain_cons_cons.2 ⟨hmove, hallowed⟩⟩, ?_⟩
          rw [lastMove?_of_moved hmoves hreadings, htime, hupdated, Option.getD_or,
            Option.getD_some]

theorem lifetime_of_absent (hd : config.source.Distinct) (hs : Consistent config s)
    (hnone : s.store.find? id = none) (cs : List Command) {e : Entry}
    (he : (after config cs s).store.find? id = some e) :
    (e.kind = .credit ∧ Status.Advances (statusPath config id cs s) ∨
      e.kind = .reversal ∧ statusPath config id cs s = [.reversed]) ∧
    e.updatedAt = (lastMove? config id cs s).getD e.createdAt := by
  induction cs generalizing s with
  | nil =>
      rw [after, hnone] at he
      cases he
  | cons c cs ih =>
      have hstep := perform_step hs c
      have hs₁ := hstep.consistent hs hd
      obtain ⟨hmoves, hnew⟩ := hstep.new_of_absent hs hd hnone
      rw [lastMove?_of_not_moved hmoves, statusPath, statuses_of_absent c cs hnone, ← statusPath]
      cases hfound : (perform config c s).2.store.find? id with
      | none => exact ih hs₁ hfound he
      | some e₁ =>
          obtain ⟨e', he', hbecame, ⟨path, hpath, hallowed⟩, htime⟩ :=
            carried_after hd hs₁ hfound cs
          have heq : e' = e := Option.some.inj (he'.symm.trans he)
          subst heq
          have hkind : e'.kind = e₁.kind := by rw [hbecame]; rfl
          have hcreated : e'.createdAt = e₁.createdAt := by rw [hbecame]; rfl
          obtain ⟨hkind₁, hupdated⟩ := hnew e₁ hfound
          refine ⟨?_, by rw [htime, hupdated, hcreated]⟩
          rw [hkind, hpath]
          rcases hkind₁ with ⟨hcredit, hstatus⟩ | ⟨hreversal, hstatus⟩
          · rw [hstatus] at hallowed ⊢
            exact .inl ⟨hcredit, Status.advances_of_allowed hallowed⟩
          · rw [hstatus] at hallowed ⊢
            rw [Status.eq_nil_of_allowed_reversed hallowed]
            exact .inr ⟨hreversal, rfl⟩

/-- Entries were made at readings of the clock, and not after their last move. -/
def Timely (config : LedgerConfig) (s : LedgerState) : Prop :=
  ∀ e ∈ s.store.list, e.createdAt.instant ≤ e.updatedAt.instant ∧
    ∃ n ≤ s.supply.readings, e.createdAt = config.source.reading n

theorem timely_moved (hsteady : config.source.Steady) (htimely : Timely config s) {e x : Entry}
    (he : e ∈ s.store.list) {status : Status}
    (hx : x ∈ replaceBy (e.withStatus status (s.nextTime config)) s.store.list) :
    x.createdAt.instant ≤ x.updatedAt.instant ∧
      ∃ n ≤ s.supply.readings + 1, x.createdAt = config.source.reading n := by
  rcases (mem_moved he).1 hx with rfl | ⟨hx, -⟩
  · obtain ⟨-, n, hn, hcreated⟩ := htimely e he
    refine ⟨?_, n, Nat.le_succ_of_le hn, hcreated⟩
    change e.createdAt.instant ≤ (s.nextTime config).instant
    rw [hcreated]
    exact hsteady (Nat.le_succ_of_le hn)
  · obtain ⟨hle, n, hn, hcreated⟩ := htimely x hx
    exact ⟨hle, n, Nat.le_succ_of_le hn, hcreated⟩

theorem Answers.timely {c : Command} {receipt : Receipt} (h : Answers config s c receipt)
    (hs : Consistent config s) (hd : config.source.Distinct) (hsteady : config.source.Steady)
    (htimely : Timely config s) : Timely config (receipt.applyTo s) := by
  intro x hx
  rw [h.list_applyTo hs hd] at hx
  cases h with
  | created asks free =>
      rcases List.mem_append.1 hx with hx | hx
      · obtain ⟨hle, n, hn, hcreated⟩ := htimely x hx
        exact ⟨hle, n, Nat.le_succ_of_le hn, hcreated⟩
      · rw [List.mem_singleton.1 hx]
        exact ⟨Int.le_refl _, s.supply.readings + 1, Nat.le_refl _, rfl⟩
  | duplicate asks stored same => exact htimely x hx
  | confirmed stored pending => exact timely_moved hsteady htimely stored hx
  | paid stored confirmed => exact timely_moved hsteady htimely stored hx
  | reversed reason stored live free =>
      rcases List.mem_append.1 hx with hx | hx
      · exact timely_moved hsteady htimely stored hx
      · rw [List.mem_singleton.1 hx]
        exact ⟨Int.le_refl _, s.supply.readings + 1, Nat.le_refl _, rfl⟩

theorem timely_after (hd : config.source.Distinct) (hsteady : config.source.Steady)
    (supply : Supply) (cs : List Command) : Timely config (after config cs (start supply)) := by
  induction cs using List.reverseRecOn with
  | nil => exact fun e he => absurd he List.not_mem_nil
  | append_singleton cs c ih =>
      have hs : Consistent config (after config cs (start supply)) := consistent_after hd supply cs
      rw [after_append]
      change Timely config (perform config c _).2
      generalize after config cs (start supply) = s at hs ih
      have hlater := (perform_ending config hs.quiet c).readings_le
      have hstep := perform_step hs c
      generalize perform config c s = ended at hlater hstep
      rcases ended with ⟨result, t⟩
      cases hstep with
      | answered h => exact h.timely hs hd hsteady ih
      | refused fault supply more =>
          intro x hx
          obtain ⟨hle, n, hn, hcreated⟩ := ih x hx
          exact ⟨hle, n, Nat.le_trans hn hlater, hcreated⟩

/-- An entry that is stored at some point of a run is stored ever after, and only its status and the
time of its last move change. A reward goes from pending to confirmed to paid, any of which may be
where it stays or is reversed, and never comes back to a status; a row against a reward is reversed
throughout. The time of the last move is the reading that was taken for it, and the time of making
until there is one. -/
theorem entry_lifetime (config : LedgerConfig) (hd : config.source.Distinct) (supply : Supply)
    (cs : List Command) (id : String) {e : Entry}
    (he : (after config cs (start supply)).store.find? id = some e) :
    let path := statusPath config id cs (start supply)
    e.id = id ∧
    (∀ ds, ∃ e', (after config (cs ++ ds) (start supply)).store.find? id = some e' ∧
      e.Became e') ∧
    (e.kind = .credit ∧ Status.Advances path ∨ e.kind = .reversal ∧ path = [.reversed]) ∧
    path.Nodup ∧
    e.updatedAt = (lastMove? config id cs (start supply)).getD e.createdAt ∧
    (config.source.Steady → e.createdAt.instant ≤ e.updatedAt.instant) := by
  intro path
  have hs : Consistent config (after config cs (start supply)) := consistent_after hd supply cs
  obtain ⟨hmem, hid⟩ := (hs.indexed.find?_eq_some_iff id e).1 he
  obtain ⟨hpath, htime⟩ :=
    lifetime_of_absent hd (consistent_start config supply) rfl cs he
  refine ⟨hid, fun ds => ?_, hpath, ?_, htime, fun hsteady => ?_⟩
  · rw [after_append]
    obtain ⟨e', he', hbecame, -⟩ := carried_after hd hs he ds
    exact ⟨e', he', hbecame⟩
  · rcases hpath with ⟨-, hadvances⟩ | ⟨-, hreversed⟩
    · exact hadvances.nodup
    · rw [show path = _ from hreversed]
      exact List.nodup_singleton _
  · exact (timely_after hd hsteady supply cs e hmem).1

def waking : LedgerConfig where
  source := {
    token := hexDigits 32
    reading := fun n =>
      if n < 5 then ⟨⟨2025, 1, 1, by decide⟩, .midnight, some .utc⟩
      else ⟨⟨2025, 1, 2, by decide⟩, .midnight, some .utc⟩ }
  defaultCurrency := "USD"

theorem steady_waking : waking.source.Steady := by
  intro m n h
  by_cases hm : m < 5
  · by_cases hn : n < 5
    · simp [waking, hm, hn]
    · simp only [waking, hm, hn, if_true, if_false]
      decide
  · have hn : ¬ n < 5 := by omega
    simp [waking, hm, hn]

/-- A reward that is confirmed, cannot be reversed as the reference against it is taken, and is paid
at the fifth reading. -/
theorem entry_lifetime_paid :
    let id := "entry-00000000000000000000000000000001"
    let cs := [.create (signup "ada"), .confirm id,
      .create ⟨"bob", ⟨false, 1, 0⟩, reversalReference id, none, none, []⟩, .reverse id none,
      .pay id]
    waking.source.Distinct ∧ waking.source.Steady ∧
      statusPath waking id cs (start .fresh) = [.pending, .confirmed, .paid] ∧
      ∃ e, (after waking cs (start .fresh)).store.find? id = some e ∧
        e.updatedAt = waking.source.reading 5 ∧ e.createdAt.instant ≤ e.updatedAt.instant ∧
        ∀ ds, ∃ e', (after waking (cs ++ ds) (start .fresh)).store.find? id = some e' ∧
          e.Became e' := by
  intro id cs
  have hdistinct : waking.source.Distinct := hexDigits_injective 32
  have hpath : statusPath waking id cs (start .fresh) = [.pending, .confirmed, .paid] := by
    decide +kernel
  have hlast : lastMove? waking id cs (start .fresh) = some (waking.source.reading 5) := by
    decide +kernel
  have hstored : ((after waking cs (start .fresh)).store.find? id).isSome := by decide +kernel
  obtain ⟨e, he⟩ := Option.isSome_iff_exists.1 hstored
  obtain ⟨-, hstays, -, -, htime, hsteady⟩ := entry_lifetime waking hdistinct .fresh cs id he
  rw [hlast] at htime
  exact ⟨hdistinct, steady_waking, hpath, e, he, htime, hsteady steady_waking, hstays⟩

end Ledger

end Referral
