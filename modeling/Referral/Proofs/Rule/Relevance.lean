import Referral.Proofs.Rule.Leaf

namespace Referral

def Symbol.dot : Symbol := .char '.'

namespace Text

/-- The part of a name before its first dot; all of it if there is none. -/
def beforeDot (name : Text) : Text := ofSymbols (name.symbols.takeWhile (· ≠ .dot))

def path (name : Text) : List Text := (segments name.symbols).map ofSymbols

end Text

theorem exists_segments_eq_cons (s : List Symbol) :
    ∃ rest, segments s = s.takeWhile (· ≠ .dot) :: rest := by
  induction s with
  | nil => exact ⟨[], rfl⟩
  | cons c s ih =>
      obtain ⟨rest, hrest⟩ := ih
      by_cases hdot : c = .dot
      · exact ⟨segments s, by simp [segments, hdot, Symbol.dot]⟩
      · exact ⟨rest, by simp [segments, hrest, show ¬ c = .char '.' from hdot, hdot]⟩

theorem lookup?_of_some {context : Members} {name : Text} {v : Value}
    (h : context.lookup name = some v) : lookup? context name = some v := by
  rw [lookup?, h]

theorem lookup?_of_none {context : Members} {name : Text} (h : context.lookup name = none) :
    lookup? context name =
      if name.symbols.contains .dot then walk? (segments name.symbols) (.map context)
      else none := by
  rw [lookup?, h]
  rfl

theorem lookup?_congr {a b : Members} {name : Text} (hname : a.lookup name = b.lookup name)
    (hdotted : .dot ∈ name.symbols → walk? (segments name.symbols) (.map a) =
      walk? (segments name.symbols) (.map b)) :
    lookup? a name = lookup? b name := by
  cases hfound : b.lookup name with
  | some v => rw [lookup?_of_some (hname.trans hfound), lookup?_of_some hfound]
  | none =>
      rw [lookup?_of_none (hname.trans hfound), lookup?_of_none hfound]
      split
      next hdot => exact hdotted (List.contains_iff_mem.1 hdot)
      next => rfl

namespace Members

/-- The contexts agree, in presence and value, on the entry under a name and, if the name is dotted,
on the one under its first part. -/
def AgreeOn (name : Text) (a b : Members) : Prop :=
  a.lookup name = b.lookup name ∧
    (.dot ∈ name.symbols → a.lookup name.beforeDot = b.lookup name.beforeDot)

variable {a b : Members} {name : Text}

theorem AgreeOn.lookup?_eq (h : AgreeOn name a b) : lookup? a name = lookup? b name := by
  refine lookup?_congr h.1 fun hdot => ?_
  obtain ⟨rest, hsegments⟩ := exists_segments_eq_cons name.symbols
  have hfirst : a.lookup (Text.ofSymbols (name.symbols.takeWhile (· ≠ .dot))) =
      b.lookup (Text.ofSymbols (name.symbols.takeWhile (· ≠ .dot))) := h.2 hdot
  rw [hsegments, walk?, walk?, hfirst]

/-- Contexts that differ in a single entry: under the last name of the path, in the mapping that the
names before it lead to. There the one may have any value or none, and so may the other. -/
inductive DifferAt : List Text → Members → Members → Prop
  | here {key a b} (others : ∀ other, other ≠ key → a.lookup other = b.lookup other) :
      DifferAt [key] a b
  | within {key path a b x y} (others : ∀ other, other ≠ key → a.lookup other = b.lookup other)
      (left : a.lookup key = some (.map x)) (right : b.lookup key = some (.map y))
      (inner : DifferAt path x y) : DifferAt (key :: path) a b

def Apart (p q : List Text) : Prop := ¬ p <+: q ∧ ¬ q <+: p

theorem Apart.of_cons {key : Text} {p q : List Text} (h : Apart (key :: p) (key :: q)) :
    Apart p q :=
  ⟨fun hp => h.1 ((List.prefix_cons_inj key).2 hp), fun hq => h.2 ((List.prefix_cons_inj key).2 hq)⟩

theorem DifferAt.lookup_eq {p : List Text} (h : DifferAt p a b) (hapart : Apart p [name]) :
    a.lookup name = b.lookup name := by
  cases h with
  | here others | within others =>
      refine others name ?_
      rintro rfl
      exact hapart.2 ⟨_, rfl⟩

theorem DifferAt.walk?_eq {p : List Text} (h : DifferAt p a b) :
    ∀ parts, Apart p (parts.map Text.ofSymbols) → walk? parts (.map a) = walk? parts (.map b) := by
  induction h with
  | @here key a b others =>
      rintro (_ | ⟨part, parts⟩) hapart
      · exact absurd List.nil_prefix hapart.2
      · have hne : Text.ofSymbols part ≠ key := by
          rintro rfl
          exact hapart.1 ⟨_, rfl⟩
        rw [walk?, walk?, others _ hne]
  | @within key path a b x y others left right inner ih =>
      rintro (_ | ⟨part, parts⟩) hapart
      · exact absurd List.nil_prefix hapart.2
      · by_cases heq : Text.ofSymbols part = key
        · rw [List.map_cons, heq] at hapart
          rw [walk?, walk?, heq, left, right]
          exact ih parts hapart.of_cons
        · rw [walk?, walk?, others _ heq]

theorem DifferAt.lookup?_eq {p : List Text} (h : DifferAt p a b) (hname : Apart p [name])
    (hpath : Apart p name.path) : lookup? a name = lookup? b name :=
  lookup?_congr (h.lookup_eq hname) fun _ => h.walk?_eq _ hpath

end Members

def Rule.names (r : Rule) : List Text := (Condition.listLeaves r.conditions).filterMap Leaf.name?

def Engine.names (e : Engine) : List Text := e.rules.flatMap Rule.names

theorem Rule.match?_congr {a b : Members} {r : Rule}
    (h : ∀ name ∈ r.names, lookup? a name = lookup? b name) : r.match? a = r.match? b := by
  have hleaves : ∀ l ∈ Condition.listLeaves r.conditions, l.holds a = l.holds b := fun l hl =>
    Leaf.holds_congr fun name hname => h name (List.mem_filterMap.2 ⟨l, hl, hname⟩)
  rw [match?, match?, execute, execute, holds, holds, Condition.allHold_eq_of_leaves hleaves]

theorem Engine.evaluate_congr {a b : Members} {e : Engine}
    (h : ∀ name ∈ e.names, lookup? a name = lookup? b name) : e.evaluate a = e.evaluate b :=
  List.filterMap_congr fun _ hr =>
    Rule.match?_congr fun name hname => h name (List.mem_flatMap.2 ⟨_, hr, hname⟩)

/-- Rules see only what they name. Two contexts that agree on the entries under the names of their
leaves, and on those under the first parts of dotted names, make the same matches with the same
outcomes; and so do two that differ in one entry, at whatever depth, unless it lies on the way to a
named field, is one, or lies in one. -/
theorem Engine.sees_only_named (e : Engine) {a b : Members} :
    ((∀ name ∈ e.names, Members.AgreeOn name a b) → e.evaluate a = e.evaluate b) ∧
    ∀ p, Members.DifferAt p a b →
      (∀ name ∈ e.names, Members.Apart p [name] ∧ Members.Apart p name.path) →
        e.evaluate a = e.evaluate b :=
  ⟨fun h => evaluate_congr fun name hname => (h name hname).lookup?_eq,
    fun _ hdiffer h => evaluate_congr fun name hname =>
      hdiffer.lookup?_eq (h name hname).1 (h name hname).2⟩

/-- A rule on a part of the entry `user`, in a context with another entry before it and in one where
another part of it has changed. -/
theorem Engine.sees_only_named_profile :
    let r : Rule := ⟨.text "a", .text "gold", .bool true,
      [.group .any [.leaf (.text "user.tier") .equals (.text "gold") .null .null] .null .null
        .null],
      [⟨.reward, [(.text "amount", .int 5)], .null⟩], ⟨⟨2024, 1, 1, by decide⟩, .midnight, none⟩,
      ⟨⟨2024, 1, 1, by decide⟩, .midnight, none⟩⟩
    let e : Engine := Table.empty.put (.text "a") r
    let user : Members := [("tier", .text "gold"), ("age", .int 30)]
    let context : Members := [("user", .map user)]
    let noisy : Members := [("device", .null), ("user", .map user)]
    let older : Members := [("user", .map [("tier", .text "gold"), ("age", .int 31)])]
    (∀ name ∈ e.names, Members.AgreeOn name noisy context) ∧
      Members.DifferAt ["user", "age"] older context ∧
      (∀ name ∈ e.names, Members.Apart ["user", "age"] [name] ∧
        Members.Apart ["user", "age"] name.path) ∧
      (e.evaluate context).length = 1 ∧ e.evaluate noisy = e.evaluate context ∧
      e.evaluate older = e.evaluate context := by
  intro r e user context noisy older
  have hnames : e.names = [("user.tier" : Text)] := by decide +kernel
  have hagree : ∀ name ∈ e.names, Members.AgreeOn name noisy context := by
    rw [hnames, List.forall_mem_singleton]
    exact ⟨rfl, fun _ => rfl⟩
  have hdiffer : Members.DifferAt ["user", "age"] older context := by
    refine .within (fun other hother => ?_) rfl rfl (.here fun other hother => ?_)
    · simp [older, context, List.lookup_cons, beq_eq_false_iff_ne.2 hother]
    · simp [user, List.lookup_cons, beq_eq_false_iff_ne.2 hother]
  have hapart : ∀ name ∈ e.names, Members.Apart ["user", "age"] [name] ∧
      Members.Apart ["user", "age"] name.path := by
    rw [hnames, List.forall_mem_singleton]
    exact ⟨⟨by decide +kernel, by decide +kernel⟩, ⟨by decide +kernel, by decide +kernel⟩⟩
  exact ⟨hagree, hdiffer, hapart, by decide +kernel, (e.sees_only_named).1 hagree,
    (e.sees_only_named).2 _ hdiffer hapart⟩

end Referral
