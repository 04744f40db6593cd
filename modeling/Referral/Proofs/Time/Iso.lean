import Mathlib.Algebra.Group.Nat.Defs
import Mathlib.Data.List.Basic
import Referral.Time.Iso

namespace Referral.Iso

def field (width n : Nat) : List Char := (padded width (decimalDigits n)).toList

theorem field_eq (width n : Nat) :
    field width n =
      List.replicate (width - (Nat.toDigits 10 n).length) '0' ++ Nat.toDigits 10 n := by
  simp [field, padded, decimalDigits]

theorem length_field (width : Nat) {n : Nat} (hwidth : 0 < width) (hn : n < 10 ^ width) :
    (field width n).length = width := by
  have hle := (Nat.length_toDigits_le_iff (b := 10) (by decide) hwidth).2 hn
  simp only [field_eq, List.length_append, List.length_replicate]
  omega

theorem isDigit_of_mem_field {width n : Nat} {c : Char} (hc : c ∈ field width n) :
    isDigit c = true := by
  rw [field_eq, List.mem_append, List.mem_replicate] at hc
  rcases hc with ⟨-, rfl⟩ | hc
  · rfl
  · exact Nat.isDigit_of_mem_toDigits (by decide) (by decide) hc

theorem positional_field (width n : Nat) :
    positional 10 ((field width n).map (·.toNat - 48)) = n := by
  have hzeros : ∀ count, ((List.replicate count '0').map (·.toNat - 48)).foldl
      (fun n d => 10 * n + d) 0 = 0 := by
    intro count
    induction count with
    | zero => rfl
    | succ count ih => simpa [List.replicate_succ] using ih
  rw [positional, field_eq, List.map_append, List.foldl_append, hzeros, List.foldl_map]
  exact Nat.ofDigitChars_ten_toDigits

theorem digits?_field (width : Nat) {n : Nat} (hwidth : 0 < width) (hn : n < 10 ^ width)
    (rest : List Char) : digits? width (field width n ++ rest) = some (n, rest) := by
  have hlength := length_field width hwidth hn
  have hall : (field width n).all isDigit = true :=
    List.all_eq_true.2 fun c hc => isDigit_of_mem_field hc
  simp only [digits?, List.take_left' hlength, List.drop_left' hlength, hlength, hall,
    positional_field]
  simp

theorem field_ne_nil (width : Nat) {n : Nat} (hwidth : 0 < width) (hn : n < 10 ^ width) :
    field width n ≠ [] := by
  intro h
  have hlength := length_field width hwidth hn
  simp only [h, List.length_nil] at hlength
  omega

def fractionField (micro : Nat) : List Char := if micro = 0 then [] else '.' :: field 6 micro

theorem toList_clockText (hour minute second micro : Nat) :
    (clockText hour minute second micro).toList =
      field 2 hour ++ ':' ::
        (field 2 minute ++ ':' :: (field 2 second ++ fractionField micro)) := by
  by_cases hmicro : micro = 0 <;> simp [clockText, field, fractionField, hmicro]

theorem readFraction?_field {micro : Nat} (h : micro < 1000000) :
    readFraction? (field 6 micro) = some (micro, false) := by
  have hlength := length_field 6 (by decide) h
  have hdigits := digits?_field 6 (by decide) h []
  rw [List.append_nil] at hdigits
  simp [readFraction?, hlength, hdigits]

theorem readParts?_colon (left : Nat) {colons : Bool} {done : List Nat} {n : Nat}
    {after : List Char} (hn : n < 100) (hcolons : colons = true ∨ done = []) (hafter : after ≠ []) :
    readParts? (left + 1) colons done (field 2 n ++ ':' :: after) =
      readParts? left true (n :: done) after := by
  obtain ⟨c, more, rfl⟩ := List.exists_cons_of_ne_nil hafter
  rcases hcolons with rfl | rfl <;> simp [readParts?, digits?_field 2 (by decide) hn]

theorem readParts?_last (left : Nat) (colons : Bool) (done : List Nat) {n : Nat} (hn : n < 100) :
    readParts? (left + 1) colons done (field 2 n) = some ((n :: done).reverse, 0, false) := by
  have hdigits := digits?_field 2 (by decide) hn []
  rw [List.append_nil] at hdigits
  simp [readParts?, hdigits]

theorem readParts?_fraction (left : Nat) {done : List Nat} {n micro : Nat} (hn : n < 100)
    (hdone : done ≠ []) (hmicro : micro < 1000000) :
    readParts? (left + 1) true done (field 2 n ++ '.' :: field 6 micro) =
      some ((n :: done).reverse, micro, false) := by
  have hfraction := readFraction?_field hmicro
  obtain ⟨c, more, hfield⟩ := List.exists_cons_of_ne_nil
    (field_ne_nil 6 (by decide) hmicro)
  rw [hfield] at hfraction ⊢
  obtain ⟨d, earlier, rfl⟩ := List.exists_cons_of_ne_nil hdone
  simp [readParts?, digits?_field 2 (by decide) hn, hfraction]

theorem readClock?_clockText {hour minute second micro : Nat} (hhour : hour < 100)
    (hminute : minute < 100) (hsecond : second < 100) (hmicro : micro < 1000000) :
    readClock? (clockText hour minute second micro).toList =
      some ⟨hour, minute, second, micro, false⟩ := by
  have hne : ∀ n < 100, ∀ rest, field 2 n ++ rest ≠ [] := fun n hn rest h =>
    field_ne_nil 2 (by decide) hn (List.append_eq_nil_iff.1 h).1
  rw [readClock?, toList_clockText, readParts?_colon 2 hhour (.inr rfl) (hne _ hminute _),
    readParts?_colon 1 hminute (.inl rfl) (hne _ hsecond _), fractionField]
  by_cases hzero : micro = 0
  · rw [if_pos hzero, List.append_nil, readParts?_last 0 true _ hsecond, hzero]
    rfl
  · rw [if_neg hzero, readParts?_fraction 0 hsecond (by simp) hmicro]
    rfl

/-- The timestamp has no offset, or one that its text tells. -/
def Legible (t : Timestamp) : Prop :=
  ∀ o, t.offset = some o → o.micros = 0 ∨ 1000000 ≤ o.micros.natAbs

def offsetField (seconds micro : Nat) : List Char :=
  if seconds % 60 = 0 ∧ micro = 0 then
    field 2 (seconds / 3600) ++ ':' :: field 2 (seconds / 60 % 60)
  else (clockText (seconds / 3600) (seconds / 60 % 60) (seconds % 60) micro).toList

theorem take_clockText {hour minute : Nat} (hhour : hour < 100) (hminute : minute < 100)
    (second micro : Nat) :
    (clockText hour minute second micro).toList.take 5 = field 2 hour ++ ':' :: field 2 minute := by
  have hlength : (field 2 hour ++ ':' :: field 2 minute).length = 5 := by
    simp [length_field 2 (by decide) hhour, length_field 2 (by decide) hminute]
  have hsplit : (clockText hour minute second micro).toList =
      (field 2 hour ++ ':' :: field 2 minute) ++
        ':' :: (field 2 second ++ fractionField micro) := by
    simp [toList_clockText]
  rw [hsplit, List.take_left' hlength]

theorem toList_offsetText (o : Offset) :
    (offsetText o).toList = (if o.micros < 0 then '-' else '+') ::
      offsetField (o.micros.natAbs / 1000000) (o.micros.natAbs % 1000000) := by
  have hbound := o.valid
  rw [offsetText, offsetField]
  generalize hseconds : o.micros.natAbs / 1000000 = seconds
  have hhour : seconds / 3600 < 100 := by omega
  have hminute : seconds / 60 % 60 < 100 := by omega
  have htake := take_clockText hhour hminute (seconds % 60) (o.micros.natAbs % 1000000)
  have hsign :
      (if o.micros < 0 then "-" else "+").toList = [if o.micros < 0 then '-' else '+'] := by
    split <;> rfl
  simp only [String.toList_append, hsign, Bool.and_eq_true, decide_eq_true_eq,
    List.singleton_append]
  by_cases hshort : seconds % 60 = 0 ∧ o.micros.natAbs % 1000000 = 0
  · rw [if_pos hshort, if_pos hshort, String.toList_ofList, htake]
  · rw [if_neg hshort, if_neg hshort]

theorem readClock?_offsetField {seconds micro : Nat} (hseconds : seconds < 86400)
    (hmicro : micro < 1000000) :
    readClock? (offsetField seconds micro) =
      some ⟨seconds / 3600, seconds / 60 % 60, seconds % 60, micro, false⟩ := by
  rw [offsetField]
  split
  next hshort =>
    have hne := field_ne_nil 2 (n := seconds / 60 % 60) (by decide) (by omega)
    rw [readClock?, readParts?_colon 2 (by omega) (.inr rfl) hne,
      readParts?_last 1 true _ (by omega), hshort.1, hshort.2]
    rfl
  next => exact readClock?_clockText (by omega) (by omega) (by omega) hmicro

theorem readOffset?_offsetField {o : Offset} (h : o.micros = 0 ∨ 1000000 ≤ o.micros.natAbs) :
    readOffset? (decide (o.micros < 0))
      (offsetField (o.micros.natAbs / 1000000) (o.micros.natAbs % 1000000)) = some o := by
  obtain ⟨micros, valid⟩ := o
  dsimp only at h ⊢
  have hseconds : micros.natAbs / 1000000 < 86400 := by omega
  have hmicro : micros.natAbs % 1000000 < 1000000 := by omega
  have hread := readClock?_offsetField hseconds hmicro
  have hwhole (n : Nat) : n / 3600 * 3600 + n / 60 % 60 * 60 + n % 60 = n := by omega
  simp only [readOffset?, hread, Option.bind_eq_bind, Option.bind_some, hwhole, Bool.false_eq_true,
    if_false]
  by_cases hzero : micros.natAbs / 1000000 = 0
  · have hnone : micros = 0 := by omega
    simp [hnone, Offset.utc]
  · have hvalue : ((if decide (micros < 0) = true then -1 else 1) : Int) *
        (micros.natAbs / 1000000 * 1000000 + micros.natAbs % 1000000 : Nat) = micros := by
      rw [Nat.div_add_mod']
      by_cases hneg : micros < 0
      · rw [if_pos (decide_eq_true hneg)]
        omega
      · rw [if_neg (by simpa using hneg)]
        omega
    rw [if_neg hzero, hvalue, Offset.of?, dif_pos valid]

theorem micros_of?_eq_some {micros : Int} {o : Offset} (h : Offset.of? micros = some o) :
    o.micros = micros := by
  rw [Offset.of?] at h
  split at h
  · cases h
    rfl
  · cases h

theorem readOffset?_bounds {negative : Bool} {s : List Char} {o : Offset}
    (h : readOffset? negative s = some o) : o.micros = 0 ∨ 1000000 ≤ o.micros.natAbs := by
  simp only [readOffset?, Option.bind_eq_bind, Option.bind_eq_some_iff] at h
  obtain ⟨c, -, h⟩ := h
  split at h
  · cases h
  split at h
  · cases h
    exact .inl rfl
  next hseconds =>
    have hmicros := micros_of?_eq_some h
    right
    cases negative <;> simp at hmicros <;> omega

def isZone (c : Char) : Bool := c = '+' || c = '-' || c = 'Z'

theorem isZone_of_isDigit {c : Char} (h : isDigit c = true) : isZone c = false := by
  simp only [isDigit, Bool.and_eq_true, decide_eq_true_eq] at h
  have hne : ∀ d : Char, isDigit d = false → c ≠ d := by
    rintro d hd rfl
    simp [isDigit, h] at hd
  simp [isZone, hne '+' rfl, hne '-' rfl, hne 'Z' rfl]

theorem isZone_of_mem_clockText {hour minute second micro : Nat} {c : Char}
    (hc : c ∈ (clockText hour minute second micro).toList) : isZone c = false := by
  have hdigits : ∀ {width n : Nat}, c ∈ field width n → isZone c = false :=
    fun h => isZone_of_isDigit (isDigit_of_mem_field h)
  rw [toList_clockText] at hc
  simp only [List.mem_append, List.mem_cons, fractionField] at hc
  rcases hc with hc | rfl | hc | rfl | hc | hc
  · exact hdigits hc
  · rfl
  · exact hdigits hc
  · rfl
  · exact hdigits hc
  · split at hc
    · exact absurd hc List.not_mem_nil
    · rcases List.mem_cons.1 hc with rfl | hc
      · rfl
      · exact hdigits hc

theorem of?_time (t : TimeOfDay) : TimeOfDay.of? t.hour t.minute t.second t.micro = some t :=
  dif_pos t.valid

theorem readTime?_text (t : TimeOfDay) {offset : Option Offset}
    (h : ∀ o, offset = some o → o.micros = 0 ∨ 1000000 ≤ o.micros.natAbs) :
    readTime? ((clockText t.hour t.minute t.second t.micro ++ offset.elim "" offsetText).toList) =
      some (t, offset) := by
  obtain ⟨hhour, hminute, hsecond, hmicro⟩ := t.valid
  have hclock : readClock? (clockText t.hour t.minute t.second t.micro).toList =
      some ⟨t.hour, t.minute, t.second, t.micro, false⟩ :=
    readClock?_clockText (by omega) (by omega) (by omega) hmicro
  have hzones : ∀ c ∈ (clockText t.hour t.minute t.second t.micro).toList,
      (!isZone c) = true := fun c hc => by rw [isZone_of_mem_clockText hc]; rfl
  have hzone : (fun c => !(decide (c = '+') || decide (c = '-') || decide (c = 'Z'))) =
      fun c => !isZone c := rfl
  rw [String.toList_append, readTime?]
  simp only [hzone, List.takeWhile_append_of_pos hzones, List.dropWhile_append_of_pos hzones]
  cases offset with
  | none => simp [hclock, of?_time]
  | some o =>
      have hread := readOffset?_offsetField (h o rfl)
      rw [Option.elim_some, toList_offsetText]
      by_cases hneg : o.micros < 0
      · rw [if_pos hneg]
        simp only [hneg, decide_true] at hread
        simp [isZone, hclock, hread, of?_time]
      · rw [if_neg hneg]
        simp only [hneg, decide_false] at hread
        simp [isZone, hclock, hread, of?_time]

theorem toList_dateText (d : Date) :
    (dateText d).toList = field 4 d.year ++ '-' :: (field 2 d.month ++ '-' :: field 2 d.day) := by
  simp [dateText, field]

theorem daysInMonth_le (year month : Nat) : daysInMonth year month ≤ 31 := by
  simp only [daysInMonth]
  repeat' split
  all_goals omega

theorem of?_date (d : Date) : Date.of? d.year d.month d.day = some d := dif_pos d.valid

theorem date_bounds (d : Date) : d.year < 10000 ∧ d.month < 100 ∧ d.day < 100 := by
  obtain ⟨hyear, hmonth, hday⟩ := d.valid
  have := daysInMonth_le d.year d.month
  omega

theorem length_dateText (d : Date) : (dateText d).toList.length = 10 := by
  obtain ⟨hyear, hmonth, hday⟩ := date_bounds d
  simp [toList_dateText, length_field 4 (by decide) hyear,
    length_field 2 (by decide) hmonth, length_field 2 (by decide) hday]

theorem readDate?_dateText (d : Date) : readDate? (dateText d).toList = some d := by
  obtain ⟨hyear, hmonth, hday⟩ := date_bounds d
  have hlast := digits?_field 2 (by decide) hday []
  rw [List.append_nil] at hlast
  have hmiddle := digits?_field 2 (by decide) hmonth ('-' :: field 2 d.day)
  have hfield := field_ne_nil 2 (n := d.month) (by decide) (by omega)
  obtain ⟨c, more, hcons⟩ := List.exists_cons_of_ne_nil hfield
  have hc : c ≠ 'W' := by
    rintro rfl
    exact absurd (isDigit_of_mem_field (hcons ▸ List.mem_cons_self)) (by decide)
  rw [toList_dateText, readDate?, digits?_field 4 (by decide) hyear]
  rw [hcons] at hmiddle ⊢
  simp only [Option.bind_eq_bind, Option.bind_some, List.head?_cons, decide_true, afterDash?,
    if_true, List.cons_append] at hmiddle ⊢
  split
  next h => exact absurd (List.cons.inj h).1 hc
  next => simp [hmiddle, hlast, of?_date]

theorem dateLength_dateText (d : Date) (rest : List Char) :
    dateLength ((dateText d).toList ++ 'T' :: rest) = 10 := by
  obtain ⟨hyear, hmonth, hday⟩ := date_bounds d
  have hfour := length_field 4 (by decide) hyear
  obtain ⟨c, more, hcons⟩ := List.exists_cons_of_ne_nil
    (field_ne_nil 2 (n := d.month) (by decide) (by omega))
  have hc : c ≠ 'W' := by
    rintro rfl
    exact absurd (isDigit_of_mem_field (hcons ▸ List.mem_cons_self)) (by decide)
  have hlength := length_dateText d
  rw [dateLength, if_neg (by simp only [List.length_append, hlength]; omega), toList_dateText,
    hcons]
  simp [List.getElem?_append_right, hfour, hc]

theorem text_ne_empty (t : Timestamp) : text t ≠ "" := by
  intro h
  have hempty : (text t).toList = [] := congrArg String.toList h
  simp [text, localText] at hempty

theorem read?_text {t : Timestamp} (h : Legible t) : read? (text t) = some t := by
  have hlength := length_dateText t.date
  have hsplit : (text t).toList = (dateText t.date).toList ++ 'T' ::
      (clockText t.time.hour t.time.minute t.time.second t.time.micro ++
        t.offset.elim "" offsetText).toList := by
    simp [text, localText]
  have htime := readTime?_text t.time h
  simp only [read?, hsplit, dateLength_dateText, List.take_left' hlength, List.drop_left' hlength,
    readDate?_dateText, htime, Option.bind_eq_bind, Option.bind_some]
  rfl

theorem readText?_text {t : Timestamp} (h : Legible t) : readText? (text t) = some t := by
  simp only [readText?]
  exact read?_text h

theorem legible_of_read? {s : String} {t : Timestamp} (h : read? s = some t) : Legible t := by
  intro o ho
  simp only [read?, Option.bind_eq_bind, Option.bind_eq_some_iff] at h
  obtain ⟨date, -, h⟩ := h
  split at h
  · cases h
    cases ho
  · simp only [Option.bind_eq_some_iff] at h
    obtain ⟨⟨time, offset⟩, htime, h⟩ := h
    cases h
    obtain rfl : offset = some o := ho
    simp only [readTime?, Option.bind_eq_bind, Option.bind_eq_some_iff] at htime
    obtain ⟨c, -, htime⟩ := htime
    split at htime
    · split at htime <;> simp [Option.bind_eq_some_iff] at htime
    · simp only [Option.bind_eq_some_iff, Option.some.injEq, exists_eq_left'] at htime
      obtain ⟨_, -, h⟩ := htime
      cases h
      exact .inl rfl
    · simp at htime
    · simp only [Option.bind_eq_some_iff, Option.map_eq_some_iff] at htime
      obtain ⟨_, ⟨o', hread, rfl⟩, _, -, h⟩ := htime
      cases h
      exact readOffset?_bounds hread

theorem legible_of_readText? {s : Text} {t : Timestamp} (h : readText? s = some t) : Legible t := by
  rw [readText?] at h
  split at h
  · exact legible_of_read? h
  · split at h
    · exact legible_of_read? h
    · cases h
  · cases h

end Referral.Iso
