import Referral.Ledger.Script
import Referral.Proofs.Ledger.Transaction

namespace Referral.Script

open Transaction (Ended Program written)

def Call.program : Call → Program Fault
  | insert document =>
    match Entry.ofValue document with
    | .ok e => .insert e
    | .error faults => .fail (.raised (.given (.document faults)))
  | find id | findReference id =>
    match Given.lookupId? id with
    | .ok _ => .done
    | .error fault => .fail (.raised (.given fault))
  | ofUser _ => .done
  | update id status at_ =>
    match statusOf? status, timeOf at_, Given.entryId id with
    | none, _, _ => .fail (.raised .unknownStatus)
    | some _, .error fault, _ => .fail (.raised fault)
    | some _, .ok _, .error fault => .fail (.raised (.given fault))
    | some status, .ok time, .ok id => .update id status time

mutual

/-- A step as a program. What follows a transaction does not see its failure. -/
def Step.program : Step → Program Fault
  | .call c => c.program
  | .transaction steps stopping failing =>
    .rescue (.transaction (.seq (programs stopping steps)
      (if failing then .fail (.raised .told) else .done))) fun _ => .done

def programs (stopping : Bool) : List Step → Program Fault
  | [] => .done
  | step :: rest =>
    .seq (if stopping then step.program else .rescue step.program fun _ => .done)
      (programs stopping rest)

end

def Item.failed : Item → Bool
  | .call result _ => !result.isOk
  | .transaction _ _ _ => false

def outcome (x : Ended Fault Store) : Bool × Store := (x.1.isOk, x.2)

theorem outcome_seq (p q : Program Fault) (s : Store) :
    outcome ((Program.seq p q).run s) =
      if (outcome (p.run s)).1 then outcome (q.run (outcome (p.run s)).2)
      else outcome (p.run s) := by
  rw [Program.run]
  rcases p.run s with ⟨_ | _, t⟩ <;> rfl

theorem outcome_rescue (p : Program Fault) (s : Store) :
    outcome ((Program.rescue p fun _ => .done).run s) = (true, (outcome (p.run s)).2) := by
  rw [Program.run]
  rcases p.run s with ⟨_ | _, t⟩ <;> rfl

theorem outcome_transaction (p : Program Fault) (s : Store) :
    outcome ((Program.transaction p).run s) =
      ((outcome (p.run s.openScope.2)).1, (outcome (p.run s.openScope.2)).2.closeScope
        s.openScope.1 !(outcome (p.run s.openScope.2)).1) := by
  simp only [Program.run]
  rcases p.run s.openScope.2 with ⟨_ | _, t⟩ <;> rfl

theorem outcome_insert (s : Store) (document : Value) :
    outcome ((Call.insert document).program.run s) =
      ((runCall s (.insert document)).1.isOk, (runCall s (.insert document)).2) := by
  cases hentry : Entry.ofValue document with
  | error faults =>
      simp only [Call.program, runCall, Call.run, hentry]
      rfl
  | ok e =>
      have hrun : (Call.insert document).run s =
          ((s.insert e).mapError (.given ∘ .refused ∘ LedgerError.report)).map (.nothing, ·) := by
        rw [Call.run, hentry]
        rfl
      simp only [Call.program, runCall, hrun, Program.run, hentry]
      cases s.insert e <;> rfl

theorem outcome_find (s : Store) (id : Value) :
    outcome ((Call.find id).program.run s) =
      ((runCall s (.find id)).1.isOk, (runCall s (.find id)).2) := by
  simp only [Call.program, runCall, Call.run]
  cases Given.lookupId? id <;> rfl

theorem outcome_findReference (s : Store) (reference : Value) :
    outcome ((Call.findReference reference).program.run s) =
      ((runCall s (.findReference reference)).1.isOk,
        (runCall s (.findReference reference)).2) := by
  simp only [Call.program, runCall, Call.run]
  cases Given.lookupId? reference <;> rfl

theorem outcome_update (s : Store) (id status at_ : Value) :
    outcome ((Call.update id status at_).program.run s) =
      ((runCall s (.update id status at_)).1.isOk, (runCall s (.update id status at_)).2) := by
  cases hstatus : statusOf? status with
  | none =>
      simp only [Call.program, runCall, Call.run, hstatus]
      rfl
  | some target =>
      cases htime : timeOf at_ with
      | error fault =>
          simp only [Call.program, runCall, Call.run, hstatus, htime]
          rfl
      | ok time =>
          cases hid : Given.entryId id with
          | error fault =>
              simp only [Call.program, runCall, Call.run, hstatus, htime, hid]
              rfl
          | ok key =>
              have hrun : (Call.update id status at_).run s =
                  ((s.update key target time).mapError
                    (.given ∘ .refused ∘ LedgerError.report)).map
                    fun row => (.entry (some row.1), row.2) := by
                rw [Call.run, hstatus, htime, hid]
                rfl
              simp only [Call.program, runCall, hrun, Program.run, hstatus, htime, hid]
              cases s.update key target time <;> rfl

theorem outcome_runCall (s : Store) (c : Call) :
    outcome (c.program.run s) = ((runCall s c).1.isOk, (runCall s c).2) := by
  cases c with
  | insert document => exact outcome_insert s document
  | find id => exact outcome_find s id
  | findReference reference => exact outcome_findReference s reference
  | ofUser userId => rfl
  | update id status at_ => exact outcome_update s id status at_

theorem run_transaction (s : Store) (steps : List Step) (stopping failing : Bool) :
    let ended := runAll stopping s.openScope.2 steps
    (run s (.transaction steps stopping failing)).1.failed = false ∧
      (run s (.transaction steps stopping failing)).2 =
        ended.2.2.closeScope s.openScope.1 (ended.2.1.isSome || failing) := by
  intro ended
  rw [run]
  refine ⟨rfl, ?_⟩
  change ended.2.2.closeScope s.openScope.1
    (ended.2.1.or (if failing then some .told else none)).isSome = _
  rw [Option.isSome_or]
  cases failing <;> rfl

theorem runAll_stopped {s : Store} {step : Step} (h : (run s step).1.failed = true)
    (rest : List Step) : (runAll true s (step :: rest)).2.1.isSome = true ∧
      (runAll true s (step :: rest)).2.2 = (run s step).2 := by
  rw [runAll]
  rcases hrun : run s step with ⟨⟨fault | answer, after⟩ | ⟨fault, items, after⟩, t⟩
  · exact ⟨rfl, rfl⟩
  · rw [hrun] at h
    cases h
  · rw [hrun] at h
    cases h

theorem runAll_next {stopping : Bool} {s : Store} {step : Step}
    (h : stopping = false ∨ (run s step).1.failed = false) (rest : List Step) :
    (runAll stopping s (step :: rest)).2 = (runAll stopping (run s step).2 rest).2 := by
  rw [runAll]
  rcases hrun : run s step with ⟨⟨fault | answer, after⟩ | ⟨fault, items, after⟩, t⟩
  · rw [hrun] at h
    rcases h with rfl | h
    · rfl
    · cases h
  · rfl
  · rfl

mutual

theorem outcome_run (s : Store) (step : Step) :
    outcome (step.program.run s) = (!(run s step).1.failed, (run s step).2) := by
  cases step with
  | call c =>
      rw [Step.program, outcome_runCall, run]
      simp [Item.failed]
  | transaction steps stopping failing =>
      have hsteps := outcome_runAll stopping s.openScope.2 steps
      obtain ⟨hfailed, hstore⟩ := run_transaction s steps stopping failing
      rw [Step.program, outcome_rescue, outcome_transaction, outcome_seq, hsteps, hfailed, hstore]
      rcases runAll stopping s.openScope.2 steps with ⟨items, _ | fault, t⟩
      · cases failing <;> rfl
      · rfl

theorem outcome_runAll (stopping : Bool) (s : Store) (steps : List Step) :
    outcome ((programs stopping steps).run s) =
      ((runAll stopping s steps).2.1.isNone, (runAll stopping s steps).2.2) := by
  cases steps with
  | nil => rfl
  | cons step rest =>
      have hstep := outcome_run s step
      have hrest := outcome_runAll stopping (run s step).2 rest
      rw [programs, outcome_seq]
      cases stopping with
      | false =>
          have hnext : (runAll false s (step :: rest)).2 = (runAll false (run s step).2 rest).2 :=
            runAll_next (.inl rfl) rest
          have hkept : outcome ((Program.rescue step.program fun _ => .done).run s) =
              (true, (run s step).2) := by
            rw [outcome_rescue, hstep]
          simp only [Bool.false_eq_true, if_false, hkept, if_true]
          rw [hrest, hnext]
      | true =>
          simp only [if_true, hstep]
          cases hfailed : (run s step).1.failed with
          | false =>
              simp only [Bool.not_false, if_true]
              rw [hrest, runAll_next (.inr hfailed)]
          | true =>
              obtain ⟨hsome, hstore⟩ := runAll_stopped hfailed rest
              simp [hsome, hstore]

end

theorem store_run (t : Tables) (step : Step) :
    (run t.store step).2 = (step.program.runCopying t).2.store := by
  have hrun := congrArg Prod.snd (outcome_run t.store step)
  rw [← hrun, outcome, Program.run_store]

end Referral.Script
