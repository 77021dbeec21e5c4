import Mathlib.Algebra.Order.Ring.Int
import Mathlib.Tactic.Ring
import Mathlib.Tactic.Linarith

namespace Finiex.Lib.IsoTime

section Calendar

structure CivilDate where
  year : ℕ
  month : ℕ
  day : ℕ
  deriving DecidableEq

def isLeap (year : ℕ) : Bool := decide (year % 4 = 0 ∧ (year % 100 ≠ 0 ∨ year % 400 = 0))

def monthLengths (leap : Bool) : List ℕ :=
  [31, if leap then 29 else 28, 31, 30, 31, 30, 31, 31, 30, 31, 30, 31]

/-- Days of a year before its `month`, counted from one. -/
def daysBeforeMonth (leap : Bool) (month : ℕ) : ℕ := ((monthLengths leap).take (month - 1)).sum

def monthOf (leap : Bool) (day : ℕ) : ℕ :=
  ((List.range 12).filter fun m => decide (daysBeforeMonth leap (m + 1) ≤ day)).length

def daysBeforeYear (year : ℕ) : ℕ :=
  (year - 1) * 365 + (year - 1) / 4 - (year - 1) / 100 + (year - 1) / 400

def CivilDate.Valid (date : CivilDate) : Prop :=
  1 ≤ date.year ∧ date.year ≤ 9999 ∧ 1 ≤ date.month ∧ date.month ≤ 12 ∧ 1 ≤ date.day ∧
    date.day ≤ (monthLengths (isLeap date.year)).getD (date.month - 1) 0

instance (date : CivilDate) : Decidable date.Valid :=
  inferInstanceAs (Decidable (_ ∧ _ ∧ _ ∧ _ ∧ _ ∧ _))

def CivilDate.toDays (date : CivilDate) : ℕ :=
  daysBeforeYear date.year + daysBeforeMonth (isLeap date.year) date.month + (date.day - 1)

def dateIn (year day : ℕ) : CivilDate where
  year := year
  month := monthOf (isLeap year) day
  day := day - daysBeforeMonth (isLeap year) (monthOf (isLeap year) day) + 1

/-- By cycles of 400, 100 and 4 years; the last day of a leap year would open a fifth year. -/
def ofDays (days : ℕ) : CivilDate :=
  let n400 := days / 146097
  let n100 := days % 146097 / 36524
  let n4 := days % 146097 % 36524 / 1461
  let n1 := days % 146097 % 36524 % 1461 / 365
  let year := n400 * 400 + n100 * 100 + n4 * 4 + n1 + 1
  if n1 = 4 ∨ n100 = 4 then dateIn (year - 1) 365
  else dateIn year (days % 146097 % 36524 % 1461 % 365)

theorem month_of_day (leap : Bool) (day : Fin 366) (h : leap = true ∨ day.val ≤ 364) :
    1 ≤ monthOf leap day ∧ monthOf leap day ≤ 12 ∧
      daysBeforeMonth leap (monthOf leap day) ≤ day ∧
        day.val - daysBeforeMonth leap (monthOf leap day) + 1 ≤
          (monthLengths leap).getD (monthOf leap day - 1) 0 := by
  revert leap day
  decide +kernel

theorem dateIn_spec {year day : ℕ} (hyear : 1 ≤ year ∧ year ≤ 9999) (hday : day ≤ 365)
    (hleap : isLeap year = true ∨ day ≤ 364) :
    (dateIn year day).Valid ∧ (dateIn year day).toDays = daysBeforeYear year + day := by
  obtain ⟨hlow, hhigh, hbefore, hlength⟩ :=
    month_of_day (isLeap year) ⟨day, by omega⟩ hleap
  refine ⟨⟨hyear.1, hyear.2, hlow, hhigh, ?_, hlength⟩, ?_⟩
  · exact Nat.le_add_left 1 _
  · unfold CivilDate.toDays dateIn
    dsimp only at hbefore ⊢
    omega

def dayLimit : ℕ := 3652059

theorem daysBeforeYear_of_cycles {n400 n100 n4 n1 : ℕ} (h100 : n100 ≤ 3) (h4 : n4 ≤ 24)
    (h1 : n1 ≤ 3) : daysBeforeYear (n400 * 400 + n100 * 100 + n4 * 4 + n1 + 1) =
      n400 * 146097 + n100 * 36524 + n4 * 1461 + n1 * 365 := by
  unfold daysBeforeYear
  omega

/-- The last day of a cycle belongs to a leap year. -/
theorem leap_of_carry (n400 : ℕ) {n100 n4 n1 : ℕ} (h4 : n4 ≤ 24) (h1 : n1 ≤ 4)
    (h400 : n100 = 4 → n4 = 0 ∧ n1 = 0) (hcentury : n4 = 24 → n1 ≤ 3)
    (h : n1 = 4 ∨ n100 = 4) : isLeap (n400 * 400 + n100 * 100 + n4 * 4 + n1) = true := by
  unfold isLeap
  rw [decide_eq_true_eq]
  omega

theorem daysBeforeYear_of_carry (n400 : ℕ) {n100 n4 n1 : ℕ} (h100 : n100 ≤ 4) (h4 : n4 ≤ 24)
    (h1 : n1 ≤ 4) (h400 : n100 = 4 → n4 = 0 ∧ n1 = 0) (hcentury : n4 = 24 → n1 ≤ 3)
    (h : n1 = 4 ∨ n100 = 4) : daysBeforeYear (n400 * 400 + n100 * 100 + n4 * 4 + n1) + 365 =
      n400 * 146097 + n100 * 36524 + n4 * 1461 + n1 * 365 := by
  unfold daysBeforeYear
  omega

theorem ofDays_spec {days : ℕ} (h : days < dayLimit) :
    (ofDays days).Valid ∧ (ofDays days).toDays = days := by
  unfold dayLimit at h
  unfold ofDays
  dsimp only
  have hdays : days = days / 146097 * 146097 + days % 146097 / 36524 * 36524 +
      days % 146097 % 36524 / 1461 * 1461 + days % 146097 % 36524 % 1461 / 365 * 365 +
        days % 146097 % 36524 % 1461 % 365 := by
    omega
  have hrest : days % 146097 % 36524 % 1461 % 365 < 365 := Nat.mod_lt _ (by decide)
  have h100 : days % 146097 / 36524 ≤ 4 := by omega
  have h4 : days % 146097 % 36524 / 1461 ≤ 24 := by omega
  have h1 : days % 146097 % 36524 % 1461 / 365 ≤ 4 := by omega
  have hfour : days % 146097 / 36524 = 4 →
      days % 146097 % 36524 / 1461 = 0 ∧ days % 146097 % 36524 % 1461 / 365 = 0 := by
    omega
  have hcentury : days % 146097 % 36524 / 1461 = 24 →
      days % 146097 % 36524 % 1461 / 365 ≤ 3 := by
    omega
  have hlast : days % 146097 % 36524 % 1461 / 365 = 4 ∨ days % 146097 / 36524 = 4 →
      days % 146097 % 36524 % 1461 % 365 = 0 := by
    omega
  have hyear : days / 146097 * 400 + days % 146097 / 36524 * 100 +
      days % 146097 % 36524 / 1461 * 4 + days % 146097 % 36524 % 1461 / 365 + 1 ≤ 9999 := by
    omega
  generalize days / 146097 = n400 at *
  generalize days % 146097 / 36524 = n100 at *
  generalize days % 146097 % 36524 / 1461 = n4 at *
  generalize days % 146097 % 36524 % 1461 / 365 = n1 at *
  generalize days % 146097 % 36524 % 1461 % 365 = rest at *
  split
  · next hcarry =>
      have hleap := leap_of_carry n400 h4 h1 hfour hcentury hcarry
      have hbefore := daysBeforeYear_of_carry n400 h100 h4 h1 hfour hcentury hcarry
      have hfirst : 1 ≤ n400 * 400 + n100 * 100 + n4 * 4 + n1 := by omega
      rw [Nat.add_sub_cancel]
      have hfits := (Nat.le_succ (n400 * 400 + n100 * 100 + n4 * 4 + n1)).trans hyear
      obtain ⟨hvalid, hcount⟩ := dateIn_spec ⟨hfirst, hfits⟩ (Nat.le_refl 365) (.inl hleap)
      refine ⟨hvalid, ?_⟩
      rw [hcount, hbefore, hdays, hlast hcarry, Nat.add_zero]
  · next hinner =>
      have hfirst : 1 ≤ n400 * 400 + n100 * 100 + n4 * 4 + n1 + 1 := Nat.le_add_left 1 _
      have hday : rest ≤ 364 := Nat.le_of_lt_succ hrest
      obtain ⟨hvalid, hcount⟩ := dateIn_spec ⟨hfirst, hyear⟩ (hday.trans (Nat.le_succ 364))
        (.inr hday)
      refine ⟨hvalid, ?_⟩
      rw [hcount, hdays, daysBeforeYear_of_cycles (by omega) h4 (by omega)]

end Calendar

section Digits

/-- The last decimal digits of a number, as many as `width`. -/
def digits : ℕ → ℕ → List Char
  | 0, _ => []
  | width + 1, n => Nat.digitChar (n / 10 ^ width % 10) :: digits width n

def digitValue (c : Char) : Option ℕ :=
  if c.isDigit then some (c.toNat - 48) else none

/-- Reads as many digits as `width` behind a value, and returns the text behind them. -/
def readDigits (value : ℕ) : ℕ → List Char → Option (ℕ × List Char)
  | 0, text => some (value, text)
  | _ + 1, [] => none
  | width + 1, c :: text =>
      match digitValue c with
      | none => none
      | some digit => readDigits (value * 10 + digit) width text

def readMark (mark : Char) : List Char → Option (List Char)
  | [] => none
  | c :: text => if c = mark then some text else none

theorem digitValue_digitChar (digit : Fin 10) : digitValue (Nat.digitChar digit) = some digit.val := by
  revert digit
  decide

theorem readDigits_digits (value width n : ℕ) (rest : List Char) :
    readDigits value width (digits width n ++ rest) =
      some (value * 10 ^ width + n % 10 ^ width, rest) := by
  induction width generalizing value with
  | zero => simp [digits, readDigits, Nat.mod_one]
  | succ width ih =>
      have hdigit := digitValue_digitChar ⟨n / 10 ^ width % 10, Nat.mod_lt _ (by decide)⟩
      dsimp only at hdigit
      rw [digits, List.cons_append, readDigits, hdigit]
      dsimp only
      rw [ih, Nat.mod_pow_succ]
      congr 2
      ring

@[simp]
theorem readMark_cons (mark : Char) (text : List Char) :
    readMark mark (mark :: text) = some text := if_pos rfl

end Digits

section Texts

def epochDays : ℕ := 719162

def microsecondsPerDay : ℕ := 86400000000

/-- The instants that a `datetime` can stand for. -/
def Representable (t : ℤ) : Prop :=
  -(epochDays * microsecondsPerDay : ℕ) ≤ t ∧
    t + (epochDays * microsecondsPerDay : ℕ) < (dayLimit * microsecondsPerDay : ℕ)

instance (t : ℤ) : Decidable (Representable t) := inferInstanceAs (Decidable (_ ∧ _))

def utcOffset : List Char := ['+', '0', '0', ':', '0', '0']

/-- A fraction of a second, which is left out if it is zero. -/
def fraction (microseconds : ℕ) : List Char :=
  if microseconds = 0 then [] else '.' :: digits 6 microseconds

def readFraction : List Char → Option (ℕ × List Char)
  | [] => some (0, [])
  | c :: text => if c = '.' then readDigits 0 6 text else some (0, c :: text)

def clockText (clock : ℕ) : List Char :=
  digits 2 (clock / 3600000000) ++ ':' :: (digits 2 (clock / 60000000 % 60) ++
    ':' :: (digits 2 (clock / 1000000 % 60) ++ (fraction (clock % 1000000) ++ utcOffset)))

def dateText (date : CivilDate) (rest : List Char) : List Char :=
  digits 4 date.year ++ '-' :: (digits 2 date.month ++ '-' :: (digits 2 date.day ++ rest))

def elapsed (t : ℤ) : ℕ := (t + (epochDays * microsecondsPerDay : ℕ)).toNat

def isoformat (t : ℤ) : String :=
  String.ofList (dateText (ofDays (elapsed t / microsecondsPerDay))
    ('T' :: clockText (elapsed t % microsecondsPerDay)))

def readDate (text : List Char) : Option (CivilDate × List Char) := do
  let (year, text) ← readDigits 0 4 text
  let text ← readMark '-' text
  let (month, text) ← readDigits 0 2 text
  let text ← readMark '-' text
  let (day, text) ← readDigits 0 2 text
  if (CivilDate.mk year month day).Valid then some (⟨year, month, day⟩, text) else none

def readClock (text : List Char) : Option ℕ := do
  let (hour, text) ← readDigits 0 2 text
  let text ← readMark ':' text
  let (minute, text) ← readDigits 0 2 text
  let text ← readMark ':' text
  let (second, text) ← readDigits 0 2 text
  let (microsecond, text) ← readFraction text
  if text = utcOffset ∧ hour < 24 ∧ minute < 60 ∧ second < 60 then
    some (((hour * 60 + minute) * 60 + second) * 1000000 + microsecond)
  else none

/-- `datetime.fromisoformat`, of texts with an offset of zero and a fraction of six digits or
none. -/
def fromisoformat (text : String) : Option ℤ := do
  let (date, text) ← readDate text.toList
  let text ← readMark 'T' text
  let clock ← readClock text
  return (date.toDays * microsecondsPerDay + clock : ℕ) - (epochDays * microsecondsPerDay : ℕ)

theorem monthLength_le (leap : Bool) (place : Fin 12) :
    (monthLengths leap).getD place 0 ≤ 31 := by
  revert leap place
  decide

theorem readDate_dateText {date : CivilDate} (h : date.Valid) (rest : List Char) :
    readDate (dateText date rest) = some (date, rest) := by
  obtain ⟨-, hyear, -, hmonth, -, hlength⟩ := id h
  have hyear : date.year % 10000 = date.year := Nat.mod_eq_of_lt (Nat.lt_succ_of_le hyear)
  have hday : date.day % 100 = date.day := by
    have hlimit := monthLength_le (isLeap date.year) ⟨date.month - 1, by omega⟩
    apply Nat.mod_eq_of_lt
    exact (hlength.trans hlimit).trans_lt (by decide)
  have hmonth : date.month % 100 = date.month := Nat.mod_eq_of_lt (by omega)
  unfold readDate dateText
  simp only [readDigits_digits, readMark_cons, Option.bind_eq_bind, Option.bind_some, Nat.zero_mul,
    Nat.zero_add, Nat.reducePow, hmonth, hyear, hday]
  exact if_pos h

theorem readFraction_fraction {microseconds : ℕ} (h : microseconds < 1000000) :
    readFraction (fraction microseconds ++ utcOffset) = some (microseconds, utcOffset) := by
  unfold fraction
  split
  · next hzero =>
      rw [hzero]
      rfl
  · rw [List.cons_append, readFraction, if_pos rfl, readDigits_digits, Nat.zero_mul, Nat.zero_add,
      Nat.mod_eq_of_lt (by simpa using h)]

theorem readClock_clockText {clock : ℕ} (h : clock < microsecondsPerDay) :
    readClock (clockText clock) = some clock := by
  unfold microsecondsPerDay at h
  have hhour : clock / 3600000000 % 100 = clock / 3600000000 := by omega
  have hminute : clock / 60000000 % 60 % 100 = clock / 60000000 % 60 := by omega
  have hsecond : clock / 1000000 % 60 % 100 = clock / 1000000 % 60 := by omega
  have hfraction := readFraction_fraction (Nat.mod_lt clock (by decide : 0 < 1000000))
  unfold readClock clockText
  simp only [readDigits_digits, readMark_cons, Option.bind_eq_bind, Option.bind_some, Nat.zero_mul,
    Nat.zero_add, Nat.reducePow, hhour, hminute, hsecond, hfraction]
  rw [if_pos ⟨trivial, by omega, by omega, by omega⟩]
  congr 1
  omega

/-- What `isoformat` writes is read back as the same instant. -/
theorem fromisoformat_isoformat {t : ℤ} (h : Representable t) :
    fromisoformat (isoformat t) = some t := by
  obtain ⟨hlow, hhigh⟩ := h
  have helapsed : (elapsed t : ℤ) = t + (epochDays * microsecondsPerDay : ℕ) := by
    unfold elapsed
    omega
  have hdays : elapsed t / microsecondsPerDay < dayLimit := by
    apply Nat.div_lt_of_lt_mul
    rw [Nat.mul_comm]
    omega
  obtain ⟨hvalid, hcount⟩ := ofDays_spec hdays
  have hclock := readClock_clockText (Nat.mod_lt (elapsed t) (by decide : 0 < microsecondsPerDay))
  unfold fromisoformat isoformat
  simp only [String.toList_ofList, readDate_dateText hvalid, Option.bind_eq_bind, Option.bind_some,
    readMark_cons, hclock, hcount]
  rw [Nat.div_add_mod', helapsed]
  simp

end Texts

end Finiex.Lib.IsoTime
