import Imx6Bsp.Startup.Basic
import Imx6Bsp.Lib.Checked

/-!
# 暦（`calc_time_t.c`、`gmtime.c`）

`time_t` と `unsigned long` は 32 ビットである。`_gmtime()` は四年ごとに閏年とし、`calc_time_t()` は年の数え方では四年ごと、月の数え方では
グレゴリオ暦による。
-/

namespace Imx6Bsp.Startup

def secPerMin : Nat := 60

def secPerHour : Nat := 60 * secPerMin

def secPerDay : Nat := 24 * secPerHour

/-- `struct tm`。 -/
structure Tm where
  tmSec : Nat
  tmMin : Nat
  tmHour : Nat
  tmMday : Nat
  tmMon : Nat
  tmYear : Nat
  tmWday : Nat
  tmYday : Nat
deriving DecidableEq, Repr

/-! ## `_gmtime` -/

/-- 1970 年から `year` 年後の日数。 -/
def gmtimeYearLen (year : Nat) : Nat := 365 + if (year + 2) % 4 = 0 then 1 else 0

def mdays (year : Nat) : List Nat :=
  if (year + 2) % 4 = 0 then [31, 29, 31, 30, 31, 30, 31, 31, 30, 31, 30, 31]
  else [31, 28, 31, 30, 31, 30, 31, 31, 30, 31, 30, 31]

/-- 年を数える繰り返し。 -/
def gmtimeYear (year days : Nat) : Nat × Nat :=
  if _h : gmtimeYearLen year > days then (year, days) else gmtimeYear (year + 1) (days - gmtimeYearLen year)
termination_by days
decreasing_by
  unfold gmtimeYearLen at *
  omega

/-- 月を数える繰り返し。残りの月の日数の列について繰り返す。 -/
def gmtimeMon : List Nat → Nat → Nat → Nat × Nat
  | [], mon, days => (mon, days)
  | t :: ts, mon, days => if t > days then (mon, days) else gmtimeMon ts (mon + 1) (days - t)

/-- `_gmtime()`。 -/
def gmtime (timer : Nat) : Tm :=
  let days := timer / secPerDay
  let secs := timer % secPerDay
  let (year, yday) := gmtimeYear 0 days
  let (mon, mday) := gmtimeMon (mdays year) 0 yday
  { tmSec := secs % 60
    tmMin := secs / 60 % 60
    tmHour := secs / 60 / 60
    tmMday := mday + 1
    tmMon := mon
    tmYear := year + 70
    tmWday := (days + 4) % 7
    tmYday := yday }

/-! ## `calc_time_t` -/

def monthSec : List Nat :=
  [0, 2678400, 5097600, 7776000, 10368000, 13046400, 15638400, 18316800, 20995200, 23587200, 26265600, 28857600]

/-- `calc_time_t()`。 -/
def calcTimeT (tm : Tm) : Nat :=
  let year := wrap32 (tm.tmYear + (2 ^ 32 - 70))
  let sec := wrap32 ((year * 365 + (year + 1) >>> 2) * secPerDay)
  let sec := wrap32 (sec + monthSec.getD tm.tmMon 0)
  let year := wrap32 (tm.tmYear + 1900)
  let sec :=
    if tm.tmMon ≥ 2 ∧ year % 4 = 0 ∧ (year % 100 ≠ 0 ∨ year % 400 = 0) then wrap32 (sec + secPerDay) else sec
  let sec := wrap32 (sec + (tm.tmMday - 1) * secPerDay)
  let sec := wrap32 (sec + tm.tmHour * secPerHour)
  let sec := wrap32 (sec + tm.tmMin * secPerMin)
  wrap32 (sec + tm.tmSec)

/-! ## タイマの周期（`invert_timer_freq.c`、`timer_tick2ns.c`、`timer_ns2tick.c`）

周期は、有効数字 `timer_rate` と十の冪 `timer_scale` で表す。`unsigned long` は 32 ビットである。和、積と除算は `Lib.Calc` の計算で、
桁あふれと零除算を残す。`crash()` も零除算と同じく止まったとみなす。 -/

open Imx6Bsp.Lib

def ulongMax : Nat := 4294967295

/-- `struct qtime_entry` のうち、周期の欄。 -/
structure Qtime where
  timerRate : Nat
  timerScale : Int
deriving DecidableEq

/-! ### `invert_timer_freq` -/

/-- 筆算の繰り返し。`none` は、回数 `fuel` の中で終わらなかったことを表す。 -/
def invertLoop (freq : Nat) : Nat → Nat → Nat → Int → Calc (Option Qtime)
  | 0, _, _, _ => pure none
  | fuel + 1, quot, rate, scale => do
      let div ← Calc.div quot freq
      let rate10 ← Calc.mul rate 10
      let rate ← Calc.add rate10 div
      if ulongMax / 10 - 10 ≤ rate then pure (some ⟨rate, scale⟩)
      else do
        let rem ← Calc.mod quot freq
        if rem = 0 then pure (some ⟨rate, scale⟩)
        else do
          let quot ← Calc.mul rem 10
          invertLoop freq fuel quot rate (scale - 1)

/-- `invert_timer_freq()`。大きい周波数は、最後の桁を捨てて割る。 -/
def invertTimerFreq (fuel freq : Nat) : Calc (Option Qtime) :=
  if freq = 0 then .fault
  else if freq > ulongMax / 10 then invertLoop (freq / 10) fuel 1 0 (-1)
  else invertLoop freq fuel 1 0 0

/-! ### `timer_tick2ns` -/

/-- 積を試みる。`ns` が 0 でなければ何もせず、桁があふれれば 0 のままにする。 -/
def tick2nsTry (rate ticks ns : Nat) : Calc Nat :=
  if ns = 0 then do
    let ns := wrap32 (rate * ticks)
    let back ← Calc.div ns rate
    pure (if back ≠ ticks then 0 else ns)
  else pure ns

/-- 正の `power` についての繰り返し。 -/
def tick2nsLoop (ticks : Nat) : Nat → Nat → Nat → Calc Nat
  | 0, rate, ns => tick2nsTry rate ticks ns
  | power + 1, rate, ns => do
      let ns ← tick2nsTry rate ticks ns
      tick2nsLoop ticks power (rate / 10) (ns / 10)

/-- 負の `power` についての繰り返し。 -/
def tick2nsScale : Nat → Nat → Nat
  | 0, ns => ns
  | power + 1, ns => tick2nsScale power (wrap32 (ns * 10))

/-- `timer_tick2ns()`。 -/
def timerTick2ns (q : Qtime) (ticks : Nat) : Calc Nat := do
  let power := -9 - q.timerScale
  let ns ← tick2nsLoop ticks power.toNat q.timerRate 0
  pure (tick2nsScale (-power).toNat ns)

/-- `timer_ns2tick()`。 -/
def timerNs2tick (q : Qtime) (ns : Nat) : Calc Nat := do
  let t ← timerTick2ns q 1
  Calc.div ns t

end Imx6Bsp.Startup
