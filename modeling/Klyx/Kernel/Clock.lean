import Klyx.Kernel.Hardware
import Klyx.Lib.Gregorian
import Klyx.Lib.MachineExpr

/-!
# The clock

`kernel/time.c`.  The real-time clock shows the date and time in registers of
two decimal digits; `time` makes seconds since 1970 of them.  The kernel runs on
a 32-bit machine, where `time_t` is an unsigned word.

The formula of `mktime` counts days of a year from 0, but `tm_yday` starts with
1 and comes from a table of the months of a leap year, and two days are
subtracted at the end.

**Results.**
* `mktimeExpr_fits`: nothing overflows on the way.
* `time_eq`: the result for every date, which is right or one day early.
* `time_correct_iff`: it is right exactly from March on in common years.
-/

namespace Klyx

open Gregorian MachineExpr

/-- `struct tm`, as far as the kernel assigns it. -/
structure Tm where
  tmSec : Word
  tmMin : Word
  tmHour : Word
  tmMday : Word
  tmMon : Word
  tmYear : Word
  tmYday : Word
  tmWday : Word

/-- `__decode_bcd`. -/
def decodeBcd (d : Byte) : Byte :=
  (d >>> 4) * 10 + (d &&& 15)

/-- `month`: the days before each month of a leap year. -/
def month (i : Word) : Word :=
  [0, 31, 31 + 29, 31 + 29 + 31, 31 + 29 + 31 + 30, 31 + 29 + 31 + 30 + 31,
    31 + 29 + 31 + 30 + 31 + 30, 31 + 29 + 31 + 30 + 31 + 30 + 31,
    31 + 29 + 31 + 30 + 31 + 30 + 31 + 31, 31 + 29 + 31 + 30 + 31 + 30 + 31 + 31 + 30,
    31 + 29 + 31 + 30 + 31 + 30 + 31 + 31 + 30 + 31,
    31 + 29 + 31 + 30 + 31 + 30 + 31 + 31 + 30 + 31 + 30].getD i.toNat 0

/-- `__get_time`, once no update of the clock is in progress; `rtc` are its
registers. -/
def getTime (rtc : Nat → Byte) : Tm :=
  let field (reg : Nat) : Word := (decodeBcd (rtc reg)).setWidth 32
  let mday := field 0x07
  let mon := field 0x08 - 1
  { tmSec := field 0x00
    tmMin := field 0x02
    tmHour := field 0x04
    tmMday := mday
    tmMon := mon
    tmYear := field 0x09 + 2000
    tmYday := mday + month mon
    tmWday := mday.srem 7 }

/-- `DAY`. -/
def day : Word := 24 * (60 * 60)

/-- `mktime`. -/
def mktime (tm : Tm) : Word :=
  let year := tm.tmYear - 1900
  tm.tmSec + tm.tmMin * 60 + tm.tmHour * 3600 + tm.tmYday * 86400 +
    (year - 70) * 31536000 + ((year - 69) / 4) * 86400 -
    ((year - 1) / 100) * 86400 + ((year + 299) / 400) * 86400 - 2 * day

/-- `time`. -/
def time (rtc : Nat → Byte) : Word :=
  mktime (getTime rtc)

/-- The fields of `struct tm` that `mktime` reads. -/
inductive TmField where
  | sec
  | min
  | hour
  | year
  | yday

/-- The value of a field. -/
def Tm.get (tm : Tm) : TmField → Word
  | .sec => tm.tmSec
  | .min => tm.tmMin
  | .hour => tm.tmHour
  | .year => tm.tmYear
  | .yday => tm.tmYday

/-- The expression in `mktime`, with the types that C gives to its parts: the
fields are `int`, and the operators from `year` on work on `time_t`. -/
def mktimeExpr : Expr TmField .unsigned :=
  let year : Expr TmField .unsigned := .convert (.var .int .year - 1900)
  .convert (.var .int .sec + .var .int .min * 60 + .var .int .hour * 3600 +
      .var .int .yday * 86400) +
    (year - 70) * 31536000 + ((year - 69) / 4) * 86400 -
    ((year - 1) / 100) * 86400 + ((year + 299) / 400) * 86400 -
    .convert (2 * (24 * (60 * 60)))

theorem mktime_eq_eval (tm : Tm) :
    mktime tm = mktimeExpr.eval tm.get := rfl

/-- A date and time of the years 2000 to 2099. -/
structure DateTime where
  year : Nat
  month : Nat
  mday : Nat
  hour : Nat
  min : Nat
  sec : Nat
  year_mem : 2000 ≤ year ∧ year ≤ 2099
  month_mem : 1 ≤ month ∧ month ≤ 12
  mday_mem : 1 ≤ mday ∧ mday ≤ monthLength (isLeap year) month
  hour_lt : hour < 24
  min_lt : min < 60
  sec_lt : sec < 60

/-- Seconds since the Epoch. -/
def DateTime.seconds (t : DateTime) : Nat :=
  dayNumber t.year t.month t.mday * 86400 + t.hour * 3600 + t.min * 60 + t.sec

/-- Two decimal digits in a byte. -/
def bcd (n : Nat) : Byte :=
  BitVec.ofNat 8 (n / 10 * 16 + n % 10)

/-- The clock shows a date and time. -/
structure Displays (rtc : Nat → Byte) (t : DateTime) : Prop where
  sec : rtc 0x00 = bcd t.sec
  min : rtc 0x02 = bcd t.min
  hour : rtc 0x04 = bcd t.hour
  mday : rtc 0x07 = bcd t.mday
  month : rtc 0x08 = bcd t.month
  year : rtc 0x09 = bcd (t.year - 2000)

/-- The registers of a clock that shows a date and time. -/
def DateTime.registers (t : DateTime) : Nat → Byte
  | 0x00 => bcd t.sec
  | 0x02 => bcd t.min
  | 0x04 => bcd t.hour
  | 0x07 => bcd t.mday
  | 0x08 => bcd t.month
  | 0x09 => bcd (t.year - 2000)
  | _ => 0

theorem displays_registers (t : DateTime) :
    Displays t.registers t :=
  ⟨rfl, rfl, rfl, rfl, rfl, rfl⟩

/-- A date from March on in a common year. -/
def DateTime.CommonFromMarch (t : DateTime) : Prop :=
  isLeap t.year = false ∧ 3 ≤ t.month

instance (t : DateTime) : Decidable t.CommonFromMarch :=
  inferInstanceAs (Decidable (_ ∧ _))

theorem decodeBcd_bcd : ∀ n < 100, decodeBcd (bcd n) = BitVec.ofNat 8 n := by
  decide +kernel

theorem decodeBcd_digits {n : Nat}
    (hn : n < 100) :
    (decodeBcd (bcd n)).setWidth 32 = BitVec.ofNat 32 n := by
  rw [decodeBcd_bcd n hn]
  apply BitVec.eq_of_toNat_eq
  simp only [BitVec.toNat_setWidth, BitVec.toNat_ofNat]
  omega

/-- The table holds the days before each month of a leap year. -/
theorem month_eq : ∀ m < 13, 1 ≤ m →
    month (BitVec.ofNat 32 m - 1) = BitVec.ofNat 32 (daysBeforeMonth true m) := by
  decide +kernel

theorem daysBeforeMonth_le : ∀ m < 13, daysBeforeMonth true m ≤ 335 := by
  decide +kernel

theorem monthLength_le (leap : Bool) (m : Nat) :
    monthLength leap m ≤ 31 := by
  unfold monthLength
  split_ifs <;> omega

/-- The fields that `mktime` reads, as numbers of a date of this century. -/
structure Fields (ρ : TmField → Word) (sec min hour year yday : Nat) : Prop where
  sec_eq : Kind.int.value (ρ .sec) = sec
  min_eq : Kind.int.value (ρ .min) = min
  hour_eq : Kind.int.value (ρ .hour) = hour
  year_eq : Kind.int.value (ρ .year) = year
  yday_eq : Kind.int.value (ρ .yday) = yday
  sec_lt : sec < 60
  min_lt : min < 60
  hour_lt : hour < 24
  year_mem : 2000 ≤ year ∧ year ≤ 2099
  yday_le : yday ≤ 366

section Formula

variable {ρ : TmField → Word} {sec min hour year yday : Nat}

/-- The formula of `mktime` on integers. -/
theorem mktimeExpr_exact
    (h : Fields ρ sec min hour year yday) :
    mktimeExpr.exact ρ =
      sec + min * 60 + hour * 3600 + yday * 86400 + (year - 1900 - 70) * 31536000 +
        (year - 1900 - 69) / 4 * 86400 - (year - 1900 - 1) / 100 * 86400 +
        (year - 1900 + 299) / 400 * 86400 - 2 * (24 * (60 * 60)) := by
  simp only [mktimeExpr, Expr.exact_add, Expr.exact_sub, Expr.exact_mul, Expr.exact_div,
    Expr.exact_convert, Expr.exact_var, Expr.exact_ofNat, h.sec_eq, h.min_eq, h.hour_eq, h.year_eq,
    h.yday_eq,
    Nat.cast_ofNat, Int.natCast_one]

/-- No part of the formula leaves the range of its type. -/
theorem mktimeExpr_fits
    (h : Fields ρ sec min hour year yday) :
    mktimeExpr.Fits ρ := by
  simp only [mktimeExpr, Expr.fits_add, Expr.fits_sub, Expr.fits_mul, Expr.fits_div,
    Expr.fits_convert, Expr.fits_var, Expr.fits_ofNat, Expr.exact_add, Expr.exact_sub,
    Expr.exact_mul, Expr.exact_div, Expr.exact_convert, Expr.exact_var, Expr.exact_ofNat,
    h.sec_eq, h.min_eq, h.hour_eq, h.year_eq,
    h.yday_eq, Kind.InRange, Nat.cast_ofNat, Int.natCast_one, true_and]
  obtain ⟨hlow, hhigh⟩ := h.year_mem
  have hsec := h.sec_lt
  have hmin := h.min_lt
  have hhour := h.hour_lt
  have hyday := h.yday_le
  generalize hcentury : (year : Int) - 1900 = y
  -- the three quotients of the leap year rule
  have hfours : 7 ≤ (y - 69) / 4 ∧ (y - 69) / 4 ≤ 32 := by omega
  have hcenturies : 0 ≤ (y - 1) / 100 ∧ (y - 1) / 100 ≤ 1 := by omega
  have hfourth : 0 ≤ (y + 299) / 400 ∧ (y + 299) / 400 ≤ 1 := by omega
  generalize (y - 69) / 4 = fours at *
  generalize (y - 1) / 100 = centuries at *
  generalize (y + 299) / 400 = fourths at *
  and_intros <;> omega

/-- The leap year rule of the formula, against the calendar. -/
theorem leapDays {year : Nat}
    (hyear : 2000 ≤ year) :
    ((year : Int) - 1900 - 70) * 365 + (year - 1900 - 69) / 4 - (year - 1900 - 1) / 100 +
      (year - 1900 + 299) / 400 =
      (∑ k ∈ Finset.Ico 1970 year, yearLength (isLeap k) : Nat) := by
  have hsum := sum_yearLength (y := year) (by omega)
  have hfours : ((year : Int) - 1900 - 69) / 4 = ((year - 1969) / 4 : Nat) := by omega
  have hcenturies : ((year : Int) - 1900 - 1) / 100 = ((year - 1901) / 100 : Nat) := by omega
  have hfourth : ((year : Int) - 1900 + 299) / 400 = ((year - 1601) / 400 : Nat) := by omega
  rw [hfours, hcenturies, hfourth]
  omega

end Formula

section Time

variable {rtc : Nat → Byte} {t : DateTime}

theorem value_ofNat {n : Nat}
    (hn : n < 3000) :
    Kind.int.value (BitVec.ofNat 32 n) = n :=
  value_const ⟨by omega, by omega⟩

/-- What `mktime` reads of the clock. -/
theorem getTime_fields
    (h : Displays rtc t) :
    Fields (getTime rtc).get t.sec t.min t.hour t.year
      (t.mday + daysBeforeMonth true t.month) := by
  obtain ⟨hyear, hyear'⟩ := t.year_mem
  obtain ⟨hmonth, hmonth'⟩ := t.month_mem
  have hmday := Nat.le_trans t.mday_mem.2 (monthLength_le _ _)
  have hbefore := daysBeforeMonth_le t.month (by omega)
  have hsec := t.sec_lt
  have hmin := t.min_lt
  have hhour := t.hour_lt
  refine ⟨?_, ?_, ?_, ?_, ?_, hsec, hmin, hhour, ⟨hyear, hyear'⟩, by omega⟩
  · simp only [getTime, Tm.get, h.sec]
    rw [decodeBcd_digits (by omega), value_ofNat (by omega)]
  · simp only [getTime, Tm.get, h.min]
    rw [decodeBcd_digits (by omega), value_ofNat (by omega)]
  · simp only [getTime, Tm.get, h.hour]
    rw [decodeBcd_digits (by omega), value_ofNat (by omega)]
  · simp only [getTime, Tm.get, h.year]
    have hsum : BitVec.ofNat 32 (t.year - 2000) + 2000 = BitVec.ofNat 32 t.year := by
      rw [← Nat.sub_add_cancel hyear, Nat.add_sub_cancel, BitVec.ofNat_add]
      rfl
    rw [decodeBcd_digits (by omega), hsum, value_ofNat (by omega)]
  · simp only [getTime, Tm.get, h.mday, h.month]
    rw [decodeBcd_digits (by omega), decodeBcd_digits (by omega), month_eq _ (by omega) hmonth,
      ← BitVec.ofNat_add, value_ofNat (by omega)]

/-- The formula counts the days of the years and of this year, less two. -/
theorem formula_eq {result sec min hour yday y fours centuries fourths years : Int}
    (hvalue : result =
      sec + min * 60 + hour * 3600 + yday * 86400 + (y - 70) * 31536000 + fours * 86400 -
        centuries * 86400 + fourths * 86400 - 2 * (24 * (60 * 60)))
    (hyears : (y - 70) * 365 + fours - centuries + fourths = years) :
    result = (years + yday - 2) * 86400 + hour * 3600 + min * 60 + sec := by
  omega

/-- The result of `time`, counted in days. -/
theorem time_value
    (h : Displays rtc t) :
    ((time rtc).toNat : Int) =
      ((∑ k ∈ Finset.Ico 1970 t.year, yearLength (isLeap k) : Nat) +
        (t.mday + daysBeforeMonth true t.month : Nat) - 2) * 86400 +
      t.hour * 3600 + t.min * 60 + t.sec := by
  have hfields := getTime_fields h
  have hvalue := value_eval (mktimeExpr_fits hfields)
  rw [mktimeExpr_exact hfields, ← mktime_eq_eval, ← time, Kind.value] at hvalue
  exact formula_eq hvalue (leapDays t.year_mem.1)

/-- The clock is right or one day slow. -/
theorem time_eq
    (h : Displays rtc t) :
    ((time rtc).toNat : Int) = t.seconds - (if t.CommonFromMarch then 0 else 1) * 86400 := by
  have hvalue := time_value h
  have hmonth : daysBeforeMonth true t.month = daysBeforeMonth (isLeap t.year) t.month +
      if t.CommonFromMarch then 1 else 0 :=
    daysBeforeMonth_leap (isLeap t.year) t.month (by have := t.month_mem; omega)
  have hmday := t.mday_mem.1
  unfold DateTime.seconds dayNumber
  by_cases hcommon : t.CommonFromMarch
  · rw [if_pos hcommon] at hmonth ⊢
    omega
  · rw [if_neg hcommon] at hmonth ⊢
    omega

end Time

/-- **The clock is right exactly from March on in common years, and nothing
overflows.** -/
theorem time_correct_iff (rtc : Nat → Byte) (t : DateTime)
    (h : Displays rtc t) :
    ((time rtc).toNat = t.seconds ∧ mktimeExpr.Fits (getTime rtc).get) ↔ t.CommonFromMarch := by
  have htime := time_eq h
  constructor
  · rintro ⟨heq, -⟩
    by_contra hcommon
    rw [if_neg hcommon] at htime
    omega
  · intro hcommon
    rw [if_pos hcommon] at htime
    exact ⟨by omega, mktimeExpr_fits (getTime_fields h)⟩

/-- 1 March 2023, 12:34:56. -/
def marchSample : DateTime where
  year := 2023
  month := 3
  mday := 1
  hour := 12
  min := 34
  sec := 56
  year_mem := by decide
  month_mem := by decide
  mday_mem := by decide
  hour_lt := by decide
  min_lt := by decide
  sec_lt := by decide

theorem time_correct_iff_sample :
    (time marchSample.registers).toNat = 1677674096 ∧
    (((time marchSample.registers).toNat = marchSample.seconds ∧
        mktimeExpr.Fits (getTime marchSample.registers).get) ↔
      marchSample.CommonFromMarch) :=
  ⟨by decide +kernel, time_correct_iff _ _ (displays_registers marchSample)⟩

/-- The first second of the year 2000. -/
def newYearSample : DateTime where
  year := 2000
  month := 1
  mday := 1
  hour := 0
  min := 0
  sec := 0
  year_mem := by decide
  month_mem := by decide
  mday_mem := by decide
  hour_lt := by decide
  min_lt := by decide
  sec_lt := by decide

/-- The clock is a day behind on New Year's Day of 2000. -/
theorem clock_one_day_slow :
    (¬ ∀ rtc t, Displays rtc t → (time rtc).toNat = t.seconds) ∧
    (time newYearSample.registers).toNat = 946598400 ∧
    newYearSample.seconds = 946684800 := by
  have htime : (time newYearSample.registers).toNat = 946598400 := by decide +kernel
  have hseconds : newYearSample.seconds = 946684800 := by decide +kernel
  refine ⟨?_, htime, hseconds⟩
  intro h
  have heq := h _ _ (displays_registers newYearSample)
  rw [htime, hseconds] at heq
  exact absurd heq (by decide)

end Klyx
