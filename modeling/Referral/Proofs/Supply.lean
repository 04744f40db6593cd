import Mathlib.Logic.Function.Basic
import Referral.Supply

namespace Referral

namespace Source

/-- No token is given out twice. -/
def Distinct (source : Source) : Prop := Function.Injective source.token

variable {source : Source}

theorem id_injective (hd : source.Distinct) (kind : String) : Function.Injective (source.id kind) :=
  fun _ _ h => hd ((String.append_right_inj (kind ++ "-")).1 h)

theorem id_ne_of_lt (hd : source.Distinct) (kind : String) {n m : Nat} (h : n < m) :
    source.id kind n ≠ source.id kind m :=
  (id_injective hd kind).ne (Nat.ne_of_lt h)

theorem id_ne_empty (source : Source) (kind : String) (n : Nat) : source.id kind n ≠ "" := by
  simp [id]

def Hexadecimal (source : Source) : Prop :=
  ∀ n, ∀ c ∈ (source.token n).toList, (hexValue? c).isSome

theorem Hexadecimal.colon_notMem_id (hx : source.Hexadecimal) {kind : String}
    (hkind : ':' ∉ kind.toList) (n : Nat) : ':' ∉ (source.id kind n).toList := by
  rw [id, String.toList_append, String.toList_append, List.mem_append, List.mem_append]
  rintro ((h | h) | h)
  · exact hkind h
  · exact absurd h (by decide)
  · exact absurd (hx n ':' h) (by decide)

end Source

def hexDigitValues (digits : List Char) : List Nat := digits.map fun c => (hexValue? c).getD 0

theorem positional_append (base : Nat) (xs ys : List Nat) :
    positional base (xs ++ ys) = ys.foldl (fun n d => base * n + d) (positional base xs) :=
  List.foldl_append

theorem hexValue?_digitChar {k : Nat} (h : k < 16) : hexValue? k.digitChar = some k := by
  have hall : ∀ k : Fin 16, hexValue? k.val.digitChar = some k.val := by decide
  exact hall ⟨k, h⟩

theorem isSome_hexValue?_of_mem_toDigits {n : Nat} {c : Char} (h : c ∈ Nat.toDigits 16 n) :
    (hexValue? c).isSome := by
  induction n using Nat.base_induction 16 (by decide) with
  | single m hm =>
      rw [Nat.toDigits_of_lt_base hm, List.mem_singleton] at h
      rw [h, hexValue?_digitChar hm]
      rfl
  | digit m k hk hm ih =>
      rw [← Nat.toDigits_append_toDigits (by decide) hm hk, Nat.toDigits_of_lt_base hk,
        List.mem_append, List.mem_singleton] at h
      rcases h with h | rfl
      · exact ih h
      · rw [hexValue?_digitChar hk]
        rfl

theorem positional_toDigits (n : Nat) :
    positional 16 (hexDigitValues (Nat.toDigits 16 n)) = n := by
  induction n using Nat.base_induction 16 (by decide) with
  | single m hm =>
      rw [Nat.toDigits_of_lt_base hm]
      simp [hexDigitValues, positional, hexValue?_digitChar hm]
  | digit m k hk hm ih =>
      rw [← Nat.toDigits_append_toDigits (by decide) hm hk, Nat.toDigits_of_lt_base hk]
      rw [hexDigitValues, List.map_append, positional_append]
      change List.foldl _ (positional 16 (hexDigitValues (Nat.toDigits 16 m))) _ = _
      simp [ih, hexValue?_digitChar hk]

theorem positional_zeros (count : Nat) :
    positional 16 (hexDigitValues (List.replicate count '0')) = 0 := by
  induction count with
  | zero => rfl
  | succ count ih =>
      rw [List.replicate_succ', hexDigitValues, List.map_append, positional_append]
      change List.foldl _ (positional 16 (hexDigitValues (List.replicate count '0'))) _ = _
      rw [ih]
      rfl

theorem positional_hexDigits (width n : Nat) :
    positional 16 (hexDigitValues (hexDigits width n).toList) = n := by
  rw [hexDigits, padded, String.toList_append, String.toList_ofList, String.toList_ofList,
    hexDigitValues, List.map_append, positional_append]
  change List.foldl _ (positional 16 (hexDigitValues (List.replicate _ '0'))) _ = _
  rw [positional_zeros]
  exact positional_toDigits n

theorem hexDigits_injective (width : Nat) : Function.Injective (hexDigits width) := by
  intro m n h
  rw [← positional_hexDigits width m, h, positional_hexDigits]

theorem distinct_counting (start : Timestamp) (step : Int) :
    (Source.counting start step).Distinct :=
  hexDigits_injective 32

theorem hexadecimal_counting (start : Timestamp) (step : Int) :
    (Source.counting start step).Hexadecimal := by
  intro n c hc
  change c ∈ (hexDigits 32 n).toList at hc
  rw [hexDigits, padded, String.toList_append, String.toList_ofList,
    String.toList_ofList, List.mem_append, List.mem_replicate] at hc
  rcases hc with ⟨-, rfl⟩ | hc
  · rfl
  · exact isSome_hexValue?_of_mem_toDigits hc

end Referral
