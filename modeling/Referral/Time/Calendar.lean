
namespace Referral

def isLeap (year : Nat) : Bool := year % 4 = 0 && (year % 100 ≠ 0 || year % 400 = 0)

def daysInMonth (year month : Nat) : Nat :=
  if month = 2 then (if isLeap year then 29 else 28)
  else if month = 4 || month = 6 || month = 9 || month = 11 then 30
  else 31

structure Date where
  year : Nat
  month : Nat
  day : Nat
  valid : (1 ≤ year ∧ year ≤ 9999) ∧ (1 ≤ month ∧ month ≤ 12) ∧
    (1 ≤ day ∧ day ≤ daysInMonth year month)
  deriving DecidableEq

namespace Date

def of? (year month day : Nat) : Option Date :=
  if h : (1 ≤ year ∧ year ≤ 9999) ∧ (1 ≤ month ∧ month ≤ 12) ∧
      (1 ≤ day ∧ day ≤ daysInMonth year month) then
    some ⟨year, month, day, h⟩
  else none

def daysBeforeYear (year : Nat) : Nat :=
  let y := year - 1
  365 * y + y / 4 - y / 100 + y / 400

def daysBeforeMonth (year month : Nat) : Nat :=
  ((List.range month).drop 1).foldl (fun n m => n + daysInMonth year m) 0

def number (d : Date) : Nat := daysBeforeYear d.year + daysBeforeMonth d.year d.month + d.day

def monthOf : Nat → Nat → Nat → Nat → Nat × Nat
  | 0, _, month, day => (month, day)
  | fuel + 1, year, month, day =>
    if daysInMonth year month < day then
      monthOf fuel year (month + 1) (day - daysInMonth year month)
    else (month, day)

/-- The date of a day number. Years are found through the cycles of 400, 100, 4 and 1 years; the
last day of a cycle still belongs to it. -/
def ofNumber? (n : Nat) : Option Date :=
  let d := n - 1
  let d400 := d % 146097
  let c100 := min (d400 / 36524) 3
  let d100 := d400 - c100 * 36524
  let d4 := d100 % 1461
  let c1 := min (d4 / 365) 3
  let year := 400 * (d / 146097) + 100 * c100 + 4 * (d100 / 1461) + c1 + 1
  let (month, day) := monthOf 11 year 1 (d4 - c1 * 365 + 1)
  if n = 0 then none else of? year month day

/-- The day number of the Monday that starts the first week of a year, the week of its first
Thursday. -/
def firstMonday (year : Nat) : Int :=
  let newYear : Int := daysBeforeYear year + 1
  let weekday := (newYear + 6) % 7
  if 3 < weekday then newYear - weekday + 7 else newYear - weekday

def ofWeek? (year week day : Nat) : Option Date :=
  let jan1 := (daysBeforeYear year + 1) % 7
  let long := jan1 = 4 || (jan1 = 3 && isLeap year)
  if 1 ≤ year && year ≤ 9999 && 1 ≤ week && (week ≤ 52 || (week = 53 && long)) &&
      1 ≤ day && day ≤ 7 then
    ofNumber? (firstMonday year + ((week - 1) * 7 + (day - 1) : Nat)).toNat
  else none

end Date

end Referral
