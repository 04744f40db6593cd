import Referral.Text.Plain

namespace Referral.Stacked

variable {α β γ : Type} {c d : Nat} {a : α} {b : β}

/-- The step that makes so many calls, one inside another, and gives a result. -/
def taking (calls : Nat) (a : α) : Stacked α := fun room =>
  if room < calls then .error .tooDeep else .ok a

theorem taking_eq_error_iff {room : Nat} {fault : StackFault} :
    taking c a room = .error fault ↔ room < c := by
  cases fault
  rw [taking]
  split <;> simp <;> omega

theorem pure_eq (a : α) : (pure a : Stacked α) = taking 0 a := rfl

theorem nest_taking (calls : Nat) : nest calls (taking c a) = taking (c + calls) a := by
  funext room
  rw [nest, inside, taking, taking]
  by_cases hroom : room < calls
  · rw [if_pos hroom, if_pos (Nat.lt_add_left c hroom)]
  · rw [if_neg hroom]
    congr 1
    exact propext (Nat.sub_lt_iff_lt_add (Nat.not_lt.1 hroom))

theorem nest_pure (calls : Nat) (a : α) : nest calls (pure a) = taking calls a := by
  rw [pure_eq, nest_taking, Nat.zero_add]

theorem ite_lt_max (room c d : Nat) (deep enough : α) :
    (if room < max c d then deep else enough) =
      if room < c then deep else if room < d then deep else enough := by
  by_cases hc : room < c
  · rw [if_pos hc, if_pos (Nat.lt_of_lt_of_le hc (Nat.le_max_left c d))]
  · rw [if_neg hc]
    congr 1
    exact propext (by omega)

theorem bind_taking {f : α → Stacked β} (h : f a = taking d b) :
    taking c a >>= f = taking (max c d) b := by
  funext room
  change (taking c a room >>= fun x => f x room) = _
  rw [taking, taking, ite_lt_max]
  split
  · rfl
  · change f a room = _
    rw [h, taking]

theorem bind_pure_taking (f : α → β) :
    (taking c a >>= fun x => pure (f x)) = taking c (f a) := by
  rw [bind_taking (f := fun x => pure (f x)) (pure_eq (f a)), Nat.max_zero]

theorem both_taking {x : Option α} {y : Option β} (f : α → β → γ) :
    both (taking c x) (taking d y) f =
      taking (max c (if x.isSome then d else 0)) (do return f (← x) (← y)) := by
  cases x with
  | none => exact bind_taking (pure_eq none)
  | some a =>
      have hsecond := bind_pure_taking (c := d) (a := y) (Option.map (f a))
      rw [Option.map_eq_bind] at hsecond
      exact bind_taking hsecond

end Referral.Stacked

namespace Referral.Value
open Stacked

mutual

/-- How many calls one inside another it takes to write the value, up to what cannot be written. -/
def nestedCalls : Value → Nat
  | list elems => elemsCalls elems + 1
  | map members => membersCalls members + 1
  | _ => 1

def elemsCalls : List Value → Nat
  | [] => 0
  | v :: rest => max v.nestedCalls (if v.nested?.isSome then elemsCalls rest else 0)

def membersCalls : List (Text × Value) → Nat
  | [] => 0
  | (_, v) :: rest => max v.nestedCalls (if v.nested?.isSome then membersCalls rest else 0)

end

def plainCalls : Value → Nat
  | text _ => 0
  | v => v.nestedCalls

def looseCalls (v : Value) : Nat :=
  match v with
  | null | bool _ | double .nan | double (.infinity _) => 1
  | v => v.plainCalls + 1

mutual

theorem nestedWithin_eq : ∀ v : Value, v.nestedWithin = taking v.nestedCalls v.nested?
  | null | bool _ | int _ | double _ | text _ => by
      rw [nestedWithin, pure_eq, nest_taking] <;> simp [nestedCalls]
  | list elems => by
      rw [nestedWithin, nestedElemsWithin_eq elems, bind_pure_taking, nest_taking]
      rfl
  | map members => by
      rw [nestedWithin, nestedMembersWithin_eq members, bind_pure_taking, nest_taking]
      rfl

theorem nestedElemsWithin_eq : ∀ elems : List Value,
    nestedElemsWithin elems = taking (elemsCalls elems) (nestedElems? elems)
  | [] => rfl
  | v :: rest => by
      rw [nestedElemsWithin, nestedWithin_eq v, nestedElemsWithin_eq rest, both_taking]
      rfl

theorem nestedMembersWithin_eq : ∀ members : List (Text × Value),
    nestedMembersWithin members = taking (membersCalls members) (nestedMembers? members)
  | [] => rfl
  | (key, v) :: rest => by
      rw [nestedMembersWithin, nestedWithin_eq v, nestedMembersWithin_eq rest, both_taking]
      rfl

end

theorem plainWithin_eq (v : Value) : v.plainWithin = taking v.plainCalls v.plain? := by
  cases v with
  | text t => rfl
  | null | bool b | int n | double x | list elems | map members =>
      rw [plainWithin, nestedWithin_eq, bind_pure_taking, plainCalls, plain?] <;> simp

theorem looseWithin_eq (v : Value) : v.looseWithin = taking v.looseCalls v.loose? := by
  cases v with
  | null | bool b => rw [looseWithin, pure_eq, nest_taking, looseCalls]
  | double x =>
      cases x with
      | nan | infinity negative => rw [looseWithin, pure_eq, nest_taking, looseCalls]
      | finite negative rank =>
          rw [looseWithin, pure_eq, nest_taking, nest_taking] <;>
            simp [looseCalls, plainCalls, nestedCalls]
  | int n | text t | list elems | map members =>
      rw [looseWithin, plainWithin_eq, nest_taking, looseCalls, loose?] <;> simp

end Referral.Value
