import PumpResearch.Library.Framing

/-! The proleptic Gregorian calendar of Python's datetime: dates by their ordinal, instants of
UTC by the microseconds since the first day of year 1. -/
namespace Calendar

open Framing

/-! ### Dates -/

structure YearMonthDay where
  year : Nat
  month : Nat
  day : Nat
deriving DecidableEq, Repr

def isLeap (year : Nat) : Bool := year % 4 == 0 && (year % 100 != 0 || year % 400 == 0)

/-- Days before the first of January of a year. -/
def daysBeforeYear (year : Nat) : Nat :=
  (year - 1) * 365 + (year - 1) / 4 - (year - 1) / 100 + (year - 1) / 400

/-- Days of a year before the first of a month. -/
def daysBeforeMonth (leap : Bool) (month : Nat) : Nat :=
  ([0, 0, 31, 59, 90, 120, 151, 181, 212, 243, 273, 304, 334].getD month 0) +
    if leap && 2 < month then 1 else 0

def ymdToOrdinal (date : YearMonthDay) : Nat :=
  daysBeforeYear date.year + daysBeforeMonth (isLeap date.year) date.month + date.day

/-- Month and day of the day that has `n` days of its year before it. The estimate of the month
is exact or one too many. -/
def monthAndDay (leap : Bool) (n : Nat) : Nat × Nat :=
  let estimate := (n + 50) / 32
  let month := if n < daysBeforeMonth leap estimate then estimate - 1 else estimate
  (month, n - daysBeforeMonth leap month + 1)

/-- The date of an ordinal, `1` for the first of January of year 1: cycles of 400, 100, 4 years
and single years are counted off. -/
def ordinalToYmd (ordinal : Nat) : YearMonthDay :=
  let n := ordinal - 1
  let n400 := n / 146097
  let n100 := n % 146097 / 36524
  let n4 := n % 146097 % 36524 / 1461
  let n1 := n % 146097 % 36524 % 1461 / 365
  let year := n400 * 400 + n100 * 100 + n4 * 4 + n1 + 1
  -- the last day of a cycle of 400 or of 4 years
  if n1 = 4 ∨ n100 = 4 then ⟨year - 1, 12, 31⟩
  else
    let md := monthAndDay (n1 == 3 && (n4 != 24 || n100 == 3)) (n % 146097 % 36524 % 1461 % 365)
    ⟨year, md.1, md.2⟩

theorem monthAndDay_spec (leap : Bool) {n : Nat} (h : n < 365 + leap.toNat) :
    daysBeforeMonth leap (monthAndDay leap n).1 + (monthAndDay leap n).2 = n + 1 := by
  have hall : ∀ leap : Bool, ∀ n < 365 + leap.toNat,
      daysBeforeMonth leap (monthAndDay leap n).1 + (monthAndDay leap n).2 = n + 1 := by
    decide +kernel
  exact hall leap n h

/-- The year that is `a`, `b`, `c` and `d` cycles after year 1. -/
theorem daysBeforeYear_cycles {a b c d : Nat} (hb : b < 4) (hc : c < 25) (hd : d < 4) :
    daysBeforeYear (a * 400 + b * 100 + c * 4 + d + 1) =
      a * 146097 + b * 36524 + c * 1461 + d * 365 := by
  have h4 : (a * 400 + b * 100 + c * 4 + d) / 4 = a * 100 + b * 25 + c := by omega
  have h100 : (a * 400 + b * 100 + c * 4 + d) / 100 = a * 4 + b := by omega
  have h400 : (a * 400 + b * 100 + c * 4 + d) / 400 = a := by omega
  simp only [daysBeforeYear, Nat.add_sub_cancel, h4, h100, h400]
  omega

theorem isLeap_cycles {a b c d : Nat} (hb : b < 4) (hc : c < 25) (hd : d < 4) :
    isLeap (a * 400 + b * 100 + c * 4 + d + 1) = (d == 3 && (c != 24 || b == 3)) := by
  have h4 : (a * 400 + b * 100 + c * 4 + d + 1) % 4 = (d + 1) % 4 := by omega
  have h100 : (a * 400 + b * 100 + c * 4 + d + 1) % 100 = (c * 4 + d + 1) % 100 := by omega
  have h400 : (a * 400 + b * 100 + c * 4 + d + 1) % 400 = (b * 100 + c * 4 + d + 1) % 400 := by
    omega
  rw [isLeap, h4, h100, h400, Bool.eq_iff_iff]
  simp only [Bool.and_eq_true, Bool.or_eq_true, beq_iff_eq, bne_iff_ne, ne_eq]
  omega

/-- Every ordinal is the ordinal of its date. -/
theorem ymdToOrdinal_ordinalToYmd {ordinal : Nat} (h : 0 < ordinal) :
    ymdToOrdinal (ordinalToYmd ordinal) = ordinal := by
  obtain ⟨n, rfl⟩ : ∃ n, ordinal = n + 1 := ⟨ordinal - 1, by omega⟩
  simp only [ordinalToYmd, Nat.add_sub_cancel]
  have hn := Nat.div_add_mod n 146097
  have hn400 := Nat.mod_lt n (by decide : 0 < 146097)
  generalize n / 146097 = a at *
  generalize n % 146097 = r at *
  have hr := Nat.div_add_mod r 36524
  have hr100 := Nat.mod_lt r (by decide : 0 < 36524)
  generalize r / 36524 = b at *
  generalize r % 36524 = s at *
  have hs := Nat.div_add_mod s 1461
  have hs4 := Nat.mod_lt s (by decide : 0 < 1461)
  generalize s / 1461 = c at *
  generalize s % 1461 = t at *
  have ht := Nat.div_add_mod t 365
  have ht1 := Nat.mod_lt t (by decide : 0 < 365)
  generalize t / 365 = d at *
  generalize t % 365 = u at *
  split
  · next hlast =>
    -- 31 December: the year before begins 365 or 366 days earlier
    have hyear : ∃ a' b' c' d', b' < 4 ∧ c' < 25 ∧ d' = 3 ∧ (c' ≠ 24 ∨ b' = 3) ∧
        a * 400 + b * 100 + c * 4 + d = a' * 400 + b' * 100 + c' * 4 + d' + 1 ∧
        n = a' * 146097 + b' * 36524 + c' * 1461 + d' * 365 + 365 := by
      by_cases hb : b = 4
      · exact ⟨a, 3, 24, 3, by omega, by omega, rfl, by omega, by omega, by omega⟩
      · exact ⟨a, b, c, 3, by omega, by omega, rfl, by omega, by omega, by omega⟩
    obtain ⟨a', b', c', d', hb', hc', hd', hleap, hyear, hn'⟩ := hyear
    have hd4 : d' < 4 := by omega
    have hleap' : (d' == 3 && (c' != 24 || b' == 3)) = true := by
      simp only [Bool.and_eq_true, Bool.or_eq_true, beq_iff_eq, bne_iff_ne, ne_eq]
      exact ⟨hd', hleap⟩
    rw [ymdToOrdinal]
    simp only [hyear, daysBeforeYear_cycles hb' hc' hd4, isLeap_cycles hb' hc' hd4, hleap']
    have hdecember : daysBeforeMonth true 12 = 335 := by decide
    rw [hdecember]
    linarith only [hn']
  · next hlast =>
    have hb : b < 4 := by omega
    have hc : c < 25 := by omega
    have hd : d < 4 := by omega
    have hday : u < 365 + (d == 3 && (c != 24 || b == 3)).toNat := by omega
    have hmonth := monthAndDay_spec _ hday
    rw [ymdToOrdinal]
    simp only [daysBeforeYear_cycles hb hc hd, isLeap_cycles hb hc hd]
    omega

theorem ordinalToYmd_injective {m n : Nat} (hm : 0 < m) (hn : 0 < n)
    (h : ordinalToYmd m = ordinalToYmd n) : m = n := by
  rw [← ymdToOrdinal_ordinalToYmd hm, h, ymdToOrdinal_ordinalToYmd hn]

/-! ### Instants -/

def dayMicros : Nat := 86400000000

/-- The ordinal of the last day of year 9999, the last date there is. -/
def maxOrdinal : Nat := 3652059

/-- Microseconds from the first day of year 1 to the end of the last date. -/
def maxMicros : Nat := maxOrdinal * dayMicros

/-- An aware datetime in UTC. -/
@[ext]
structure UtcDatetime where
  micros : Nat
  lt_max : micros < maxMicros
deriving DecidableEq

namespace UtcDatetime

theorem micros_injective : Function.Injective micros := fun _ _ h => UtcDatetime.ext h

instance linearOrder : LinearOrder UtcDatetime := LinearOrder.lift' micros micros_injective

theorem le_iff {c d : UtcDatetime} : c ≤ d ↔ c.micros ≤ d.micros := Iff.rfl

theorem lt_iff {c d : UtcDatetime} : c < d ↔ c.micros < d.micros := Iff.rfl

/-- The ordinal of the date. -/
def date (d : UtcDatetime) : Nat := d.micros / dayMicros + 1

def ymd (d : UtcDatetime) : YearMonthDay := ordinalToYmd d.date

theorem ymd_inj {c d : UtcDatetime} (h : c.ymd = d.ymd) : c.date = d.date :=
  ordinalToYmd_injective (Nat.succ_pos _) (Nat.succ_pos _) h

/-- The first instant of the next date; the last date has none. -/
def nextMidnight (d : UtcDatetime) : Option UtcDatetime :=
  if h : d.date < maxOrdinal then
    some ⟨d.date * dayMicros, Nat.mul_lt_mul_of_pos_right h (by decide)⟩
  else none

theorem nextMidnight_eq_some {d boundary : UtcDatetime} (h : d.nextMidnight = some boundary) :
    boundary.micros = d.date * dayMicros := by
  unfold nextMidnight at h
  split at h
  · rw [← Option.some.inj h]
  · cases h

theorem lt_nextMidnight {d boundary : UtcDatetime} (h : d.nextMidnight = some boundary) :
    d < boundary := by
  rw [lt_iff, nextMidnight_eq_some h, date, dayMicros]
  omega

/-- Digits of the microsecond, where there is one to tell. -/
def fraction (microsecond : Nat) : List Char :=
  if microsecond = 0 then [] else '.' :: padded 6 microsecond

/-- Python's isoformat with the given separator of date and time. -/
def isoformat (separator : Char) (d : UtcDatetime) : List Char :=
  let second := d.micros / 1000000 % 86400
  padded 4 d.ymd.year ++ '-' :: (padded 2 d.ymd.month ++ '-' :: (padded 2 d.ymd.day ++
    separator :: (padded 2 (second / 3600) ++ ':' :: (padded 2 (second / 60 % 60) ++
      ':' :: (padded 2 (second % 60) ++
        (fraction (d.micros % 1000000) ++ ['+', '0', '0', ':', '0', '0']))))))

/-- A number of the format and the symbol after it. -/
theorem padded_cons_inj {width m n : Nat} {a : Char} {s t : List Char}
    (ha : ¬ a.isDigit = true) (h : padded width m ++ a :: s = padded width n ++ a :: t) :
    m = n ∧ s = t := by
  have hstop (u : List Char) : StartsWith (fun c : Char => ¬ c.isDigit = true) (a :: u) := by
    intro b hb
    rw [List.head?_cons, Option.mem_some_iff] at hb
    rw [← hb]
    exact ha
  obtain ⟨hmn, hst⟩ := readable_padded width m n _ _ (hstop s) (hstop t) h
  exact ⟨hmn, (List.cons_inj_right a).mp hst⟩

theorem startsWith_fraction (microsecond : Nat) (s : List Char) :
    StartsWith (fun c : Char => ¬ c.isDigit = true) (fraction microsecond ++ '+' :: s) := by
  intro c hc
  unfold fraction at hc
  split at hc
  · rw [List.nil_append, List.head?_cons, Option.mem_some_iff] at hc
    rw [← hc]
    decide
  · rw [List.cons_append, List.head?_cons, Option.mem_some_iff] at hc
    rw [← hc]
    decide

theorem fraction_inj {m n : Nat} {s t : List Char}
    (h : fraction m ++ '+' :: s = fraction n ++ '+' :: t) : m = n := by
  unfold fraction at h
  split at h
  · next hm =>
    split at h
    · next hn => rw [hm, hn]
    · simp only [List.nil_append, List.cons_append, List.cons.injEq] at h
      exact absurd h.1 (by decide)
  · split at h
    · simp only [List.nil_append, List.cons_append, List.cons.injEq] at h
      exact absurd h.1 (by decide)
    · simp only [List.cons_append, List.cons.injEq, true_and] at h
      exact (padded_cons_inj (by decide) h).1

/-- The text of an instant tells the instant. -/
theorem isoformat_injective {separator : Char} (hseparator : ¬ separator.isDigit = true) :
    Function.Injective (isoformat separator) := by
  intro c d h
  unfold isoformat at h
  obtain ⟨hyear, h⟩ := padded_cons_inj (by decide) h
  obtain ⟨hmonth, h⟩ := padded_cons_inj (by decide) h
  obtain ⟨hday, h⟩ := padded_cons_inj hseparator h
  obtain ⟨hhour, h⟩ := padded_cons_inj (by decide) h
  obtain ⟨hminute, h⟩ := padded_cons_inj (by decide) h
  obtain ⟨hsecond, h⟩ := readable_padded 2 _ _ _ _ (startsWith_fraction _ _)
    (startsWith_fraction _ _) h
  have hmicro := fraction_inj h
  have hdate : c.date = d.date := by
    apply ymd_inj
    rw [YearMonthDay.mk.injEq]
    exact ⟨hyear, hmonth, hday⟩
  apply micros_injective
  unfold date dayMicros at hdate
  omega

end UtcDatetime

end Calendar
