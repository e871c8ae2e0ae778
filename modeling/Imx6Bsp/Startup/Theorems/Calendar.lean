import Imx6Bsp.Startup.Calendar

/-!
# `calc_time_t()` は `_gmtime()` の逆である

二つの関数の閏年は、2100 年だけで食い違う。
-/

namespace Imx6Bsp.Startup

/-! ## 年 -/

/-- 1970 年から `year` 年間の日数。 -/
def daysBefore (year : Nat) : Nat := year * 365 + (year + 1) / 4

theorem daysBefore_succ (year : Nat) : daysBefore (year + 1) = daysBefore year + gmtimeYearLen year := by
  unfold daysBefore gmtimeYearLen
  split <;> omega

theorem gmtimeYear_spec (year days : Nat) :
    daysBefore (gmtimeYear year days).1 + (gmtimeYear year days).2 = daysBefore year + days ∧
      (gmtimeYear year days).2 < gmtimeYearLen (gmtimeYear year days).1 := by
  induction year, days using gmtimeYear.induct with
  | case1 year days h =>
      rw [gmtimeYear, dif_pos h]
      exact ⟨rfl, h⟩
  | case2 year days h ih =>
      rw [gmtimeYear, dif_neg h]
      rw [daysBefore_succ] at ih
      refine ⟨?_, ih.2⟩
      rw [ih.1]
      omega

/-! ## 月 -/

/-- 年の初めから `mon` の月までの日数。 -/
def daysBeforeMon (leap : Bool) (mon : Nat) : Nat :=
  [0, 31, 59, 90, 120, 151, 181, 212, 243, 273, 304, 334].getD mon 0 + if leap ∧ mon ≥ 2 then 1 else 0

theorem monthSec_eq : ∀ mon < 12, monthSec.getD mon 0 = daysBeforeMon false mon * secPerDay := by decide

/-- 年の中の日 `yday` は、月 `mon` の `mday` 日目（0 から数える）である。 -/
structure InMonth (leap : Bool) (yday mon mday : Nat) : Prop where
  mon_lt : mon < 12
  mday_lt : mday < 31
  day_eq : daysBeforeMon leap mon + mday = yday
  march : 2 ≤ mon ↔ daysBeforeMon leap 2 ≤ yday

instance (leap : Bool) (yday mon mday : Nat) : Decidable (InMonth leap yday mon mday) :=
  decidable_of_iff (mon < 12 ∧ mday < 31 ∧ daysBeforeMon leap mon + mday = yday ∧ (2 ≤ mon ↔ daysBeforeMon leap 2 ≤ yday))
    ⟨fun h => ⟨h.1, h.2.1, h.2.2.1, h.2.2.2⟩, fun h => ⟨h.mon_lt, h.mday_lt, h.day_eq, h.march⟩⟩

/-- `_gmtime()` の閏年。 -/
def gmtimeLeap (year : Nat) : Bool := decide ((year + 2) % 4 = 0)

/-- 月の繰り返しは、残りの日数がその月の日数より少ない月で止まる。 -/
theorem gmtimeMon_take {ts : List Nat} (mon : Nat) {days : Nat} (h : days < ts.sum) :
    ∃ i < ts.length, gmtimeMon ts mon days = (mon + i, days - (ts.take i).sum) ∧ (ts.take i).sum ≤ days ∧ days < (ts.take (i + 1)).sum := by
  induction ts generalizing mon days with
  | nil => exact absurd h (Nat.not_lt_zero days)
  | cons t ts ih =>
      rw [gmtimeMon]
      by_cases hstop : t > days
      · refine ⟨0, Nat.succ_pos _, if_pos hstop, Nat.zero_le _, ?_⟩
        rw [List.take_succ_cons, List.sum_cons]
        exact hstop.trans_le (Nat.le_add_right _ _)
      · rw [List.sum_cons] at h
        obtain ⟨i, hi, heq, hle, hlt⟩ := ih (mon + 1) (show days - t < ts.sum by omega)
        refine ⟨i + 1, Nat.succ_lt_succ hi, ?_, ?_, ?_⟩
        · rw [if_neg hstop, heq, List.take_succ_cons, List.sum_cons, Nat.sub_sub, Nat.add_assoc, Nat.add_comm 1]
        · rw [List.take_succ_cons, List.sum_cons]
          omega
        · rw [List.take_succ_cons, List.sum_cons]
          omega

/-- 二つの年の月の表。 -/
theorem mdays_take : ∀ leap : Bool, ∀ i < 12,
    ((if leap then mdays 2 else mdays 0).take i).sum = daysBeforeMon leap i ∧
      ((if leap then mdays 2 else mdays 0).take (i + 1)).sum ≤ daysBeforeMon leap i + 31 ∧
      (2 ≤ i → daysBeforeMon leap 2 ≤ daysBeforeMon leap i) ∧
      (i < 2 → ((if leap then mdays 2 else mdays 0).take (i + 1)).sum ≤ daysBeforeMon leap 2) := by decide

theorem gmtimeMon_spec {year yday : Nat} (h : yday < gmtimeYearLen year) :
    InMonth (gmtimeLeap year) yday (gmtimeMon (mdays year) 0 yday).1 (gmtimeMon (mdays year) 0 yday).2 := by
  have htable : mdays year = if gmtimeLeap year then mdays 2 else mdays 0 := by
    unfold gmtimeLeap mdays
    by_cases hleap : (year + 2) % 4 = 0
    · simp [hleap]
    · simp [hleap]
  have hsum : (mdays year).sum = gmtimeYearLen year := by
    unfold mdays gmtimeYearLen
    split <;> rfl
  have hlength : (mdays year).length = 12 := by
    unfold mdays
    split <;> rfl
  obtain ⟨i, hi, heq, hle, hlt⟩ := gmtimeMon_take 0 (hsum ▸ h)
  obtain ⟨hbefore, hnext, hlate, hearly⟩ := mdays_take (gmtimeLeap year) i (hlength ▸ hi)
  rw [heq, Nat.zero_add]
  rw [htable] at hle hlt ⊢
  rw [hbefore] at hle ⊢
  refine ⟨hlength ▸ hi, by omega, Nat.add_sub_cancel' hle, fun h2 => (hlate h2).trans hle, fun hmarch => ?_⟩
  by_contra h2
  have := hearly (Nat.lt_of_not_le h2)
  omega

/-! ## 往復 -/

/-- `_gmtime()` が 2100 年の 3 月から 12 月とする時刻。 -/
def MissedCentury (t : Nat) : Prop := 47542 * secPerDay ≤ t ∧ t < 47848 * secPerDay

/-- `_gmtime()` の年、月、日の欄。 -/
theorem gmtime_spec (t : Nat) : ∃ year yday mon mday, (gmtime t).tmYear = year + 70 ∧ (gmtime t).tmMon = mon ∧
    (gmtime t).tmMday = mday + 1 ∧ daysBefore year + yday = t / secPerDay ∧ yday < gmtimeYearLen year ∧
    InMonth (gmtimeLeap year) yday mon mday := by
  obtain ⟨hdays, hlen⟩ := gmtimeYear_spec 0 (t / secPerDay)
  refine ⟨_, _, _, _, rfl, rfl, rfl, ?_, hlen, gmtimeMon_spec hlen⟩
  rw [hdays]
  simp [daysBefore]

/-- 年の範囲では、二つの閏年は 2100 年のほかで一致する。 -/
theorem gregorian_leap : ∀ year < 137, (wrap32 (year + 70 + 1900) % 4 = 0 ∧
    (wrap32 (year + 70 + 1900) % 100 ≠ 0 ∨ wrap32 (year + 70 + 1900) % 400 = 0) ↔ gmtimeLeap year ∧ year ≠ 130) := by
  decide

/-- `calc_time_t()` が足す日数。 -/
theorem calcTimeT_eq {tm : Tm} {year mday : Nat} (hyear : tm.tmYear = year + 70) (hmday : tm.tmMday = mday + 1) (hmon : tm.tmMon < 12)
    (hle : year < 137) :
    calcTimeT tm = wrap32 ((daysBefore year + daysBeforeMon (gmtimeLeap year && decide (year ≠ 130)) tm.tmMon + mday) * secPerDay +
      tm.tmHour * secPerHour + tm.tmMin * secPerMin + tm.tmSec) := by
  have hyears : wrap32 (year + 70 + (2 ^ 32 - 70)) = year := by
    unfold wrap32
    omega
  have hshift : (year + 1) >>> 2 = (year + 1) / 4 := by rw [Nat.shiftRight_eq_div_pow]
  unfold calcTimeT
  simp only [hyear, hmday, hyears, hshift, Nat.add_sub_cancel, monthSec_eq tm.tmMon hmon, daysBeforeMon, daysBefore,
    gregorian_leap year hle, Bool.and_eq_true, decide_eq_true_eq]
  generalize [0, 31, 59, 90, 120, 151, 181, 212, 243, 273, 304, 334].getD tm.tmMon 0 = d
  by_cases hadd : tm.tmMon ≥ 2 ∧ gmtimeLeap year ∧ year ≠ 130
  · rw [if_pos hadd, if_neg (by simp), if_pos ⟨hadd.2, hadd.1⟩]
    unfold wrap32 secPerDay secPerHour secPerMin
    omega
  · rw [if_neg hadd, if_neg (by simp), if_neg fun h => hadd ⟨h.2, h.1⟩]
    unfold wrap32 secPerDay secPerHour secPerMin
    omega

/-- 2100 年に限り、3 月からの日数が一日足りない。 -/
theorem daysBeforeMon_missed (leap : Bool) (year mon : Nat) :
    daysBeforeMon leap mon = daysBeforeMon (leap && decide (year ≠ 130)) mon + if leap ∧ mon ≥ 2 ∧ year = 130 then 1 else 0 := by
  unfold daysBeforeMon
  cases leap with
  | false => simp
  | true =>
      by_cases hyear : year = 130 <;> simp [hyear]

theorem missedCentury_iff {t year yday mon mday : Nat} (hdays : daysBefore year + yday = t / secPerDay)
    (hlen : yday < gmtimeYearLen year) (hin : InMonth (gmtimeLeap year) yday mon mday) :
    MissedCentury t ↔ gmtimeLeap year ∧ mon ≥ 2 ∧ year = 130 := by
  have hmarch := hin.march
  have hday : secPerDay = 86400 := rfl
  have hafter := daysBefore_succ year
  have hfeb : daysBeforeMon true 2 = 60 := rfl
  rw [hday] at hdays
  have hdaysIff : MissedCentury t ↔ 47542 ≤ daysBefore year + yday ∧ daysBefore year + yday < 47848 := by
    unfold MissedCentury
    rw [hday]
    omega
  rw [hdaysIff]
  by_cases hyear : year = 130
  · subst hyear
    have hleap : gmtimeLeap 130 = true := rfl
    have hbefore : daysBefore 130 = 47482 := rfl
    have hyearLen : gmtimeYearLen 130 = 366 := rfl
    rw [hleap, hfeb] at hmarch
    simp only [hleap, hbefore, hyearLen, true_and, and_true] at *
    omega
  · refine ⟨fun h => absurd h ?_, fun h => absurd h.2.2 hyear⟩
    unfold daysBefore at h hafter
    omega

theorem calc_time_t_inverts_gmtime {t : Nat} (ht : t < 2 ^ 32) :
    ((gmtime t).tmMon < 12 ∧ 1 ≤ (gmtime t).tmMday ∧ (gmtime t).tmMday ≤ 31 ∧ (gmtime t).tmHour < 24 ∧ (gmtime t).tmMin < 60 ∧
      (gmtime t).tmSec < 60) ∧ (calcTimeT (gmtime t) = t ↔ ¬ MissedCentury t) := by
  obtain ⟨year, yday, mon, mday, hyear, hmon, hmday, hdays, hlen, hin⟩ := gmtime_spec t
  have hsec : (gmtime t).tmSec = t % secPerDay % 60 := rfl
  have hmin : (gmtime t).tmMin = t % secPerDay / 60 % 60 := rfl
  have hhour : (gmtime t).tmHour = t % secPerDay / 60 / 60 := rfl
  have hday : secPerDay = 86400 := rfl
  have h12 := hin.mon_lt
  have h31 := hin.mday_lt
  rw [hday] at hsec hmin hhour hdays
  refine ⟨by omega, ?_⟩
  have hle : year < 137 := by
    unfold daysBefore at hdays
    omega
  have hdayEq := hin.day_eq
  rw [daysBeforeMon_missed (gmtimeLeap year) year mon] at hdayEq
  rw [calcTimeT_eq hyear hmday (by omega) hle, hsec, hmin, hhour, hmon, missedCentury_iff (by rw [hday]; exact hdays) hlen hin, hday]
  generalize daysBeforeMon (gmtimeLeap year && decide (year ≠ 130)) mon = d at hdayEq ⊢
  unfold wrap32 secPerHour secPerMin
  by_cases hmissed : gmtimeLeap year ∧ mon ≥ 2 ∧ year = 130
  · rw [if_pos hmissed] at hdayEq
    refine ⟨fun h => absurd h (by omega), fun h => absurd hmissed h⟩
  · rw [if_neg hmissed] at hdayEq
    refine ⟨fun _ => hmissed, fun _ => by omega⟩

theorem calc_time_t_inverts_gmtime_epoch :
    0 < 2 ^ 32 ∧ (calcTimeT (gmtime 0) = 0 ↔ ¬ MissedCentury 0) :=
  ⟨by decide, (calc_time_t_inverts_gmtime (by decide)).2⟩

/-- 2100 年 3 月 1 日の零時（`_gmtime()` の暦による）は、一日前に戻る。 -/
theorem calc_time_t_misses_century :
    calcTimeT (gmtime 4107628800) ≠ 4107628800 ∧ calcTimeT (gmtime 4107628800) = 4107542400 := by
  have hyear : gmtimeYear 0 47542 = (130, 60) := by
    obtain ⟨hdays, hlen⟩ := gmtimeYear_spec 0 47542
    generalize gmtimeYear 0 47542 = p at hdays hlen ⊢
    obtain ⟨year, yday⟩ := p
    have hstart : year * 365 + (year + 1) / 4 + yday = 47542 := hdays
    have hend : yday < 366 := hlen.trans_le (by unfold gmtimeYearLen; split <;> omega)
    have hlast : year = 129 → yday < 365 := by
      rintro rfl
      exact hlen.trans_le (show gmtimeYearLen 129 ≤ 365 by decide)
    exact Prod.ext (show year = 130 by omega) (show yday = 60 by omega)
  have htm : gmtime 4107628800 = { tmSec := 0, tmMin := 0, tmHour := 0, tmMday := 1, tmMon := 2, tmYear := 200, tmWday := 2, tmYday := 60 } := by
    have hdays : 4107628800 / secPerDay = 47542 := by decide
    unfold gmtime
    dsimp only
    rw [hdays, hyear]
    rfl
  rw [htm]
  decide

end Imx6Bsp.Startup
