import Imx6Bsp.Lib.Checked
import Mathlib.Data.Rat.Defs

/-!
# UART の速度（`devc/sermx1/tto.c` の `ser_stty()`）

基準の時計の分周と、`FCR`、`BIPR1`、`BIR`、`BMR` に書く値を求める部分を写す。値は 32 ビットの符号なしである。前と同じ値なら
レジスタへの書き込みを省くところは、求める値に関わらないので写さない。
-/

namespace Imx6Bsp.Devc

open Imx6Bsp.Lib

/-- `clk` は分周した後の局所変数の値、ほかは同じ名のレジスタに書く値である。 -/
structure BaudSetting where
  clk : Nat
  fcr : Nat
  bipr1 : Nat
  bir : Nat
  bmr : Nat
deriving DecidableEq, Repr

/-- `rfdiv` と、分周した後の `clk`。 -/
def refDivide (clk baud : Nat) : Nat × Nat :=
  if baud = 4000000 then (5, clk) -- divide by 1
  else
    let rfdiv := clk / 16000000
    if rfdiv > 6 then (6, clk / 7)
    else if rfdiv > 0 then (6 - rfdiv, clk / rfdiv)
    else (5, clk)

/-- `ser_stty()` の速度の部分。`fifo` は `dev->fifo` である。 -/
def serSttyBaud (clk baud fifo : Nat) : Calc BaudSetting := do
  let rfdiv := (refDivide clk baud).1
  let clk := (refDivide clk baud).2
  let fcr := (fifo &&& 0xFC3F) ||| (rfdiv <<< 7)
  let product ← Calc.mul baud 16
  let ratio ← Calc.div product (clk / 10000)
  let bir := (ratio + (Calc.word - 1)) % Calc.word
  return { clk, fcr, bipr1 := clk / 1000, bir, bmr := 9999 }

/-! ## レジスタの意味 -/

/-- `FCR` の `RFDIV` の欄。 -/
def BaudSetting.rfdiv (s : BaudSetting) : Nat := s.fcr / 2 ^ 7 % 2 ^ 3

/-- `RFDIV` の値が表す除数。7 は使わない。 -/
def rfdivDivisor : Nat → Nat
  | 0 => 6
  | 1 => 5
  | 2 => 4
  | 3 => 3
  | 4 => 2
  | 5 => 1
  | 6 => 7
  | _ => 0

/-- 基準の周波数は、モジュールの時計を `RFDIV` の表す除数で割ったものである。 -/
def BaudSetting.ref (s : BaudSetting) (clk : Nat) : ℚ := clk / rfdivDivisor s.rfdiv

/-- 生じる速度。 -/
def BaudSetting.rate (s : BaudSetting) (clk : Nat) : ℚ := s.ref clk * (s.bir + 1) / (16 * (s.bmr + 1))

/-- 一段の幅。 -/
def BaudSetting.stepSize (s : BaudSetting) (clk : Nat) : ℚ := s.ref clk / (16 * (s.bmr + 1))

/-- 途中の積は一周せず、`RFDIV` は実際の除数を表し、`BIR` は 16 ビットに収まり、生じる速度は要求を越えず、その下一段の内にある。 -/
structure BaudExact (clk baud fifo : Nat) (s : BaudSetting) : Prop where
  runs : Calc.Runs (serSttyBaud clk baud fifo) s
  divides : s.clk = clk / rfdivDivisor s.rfdiv
  bir_le : s.bir ≤ 0xffff
  rate_le : s.rate clk ≤ baud
  lt_rate : (baud : ℚ) - s.stepSize clk < s.rate clk

/-- `clk` を割る数。 -/
def refDivisor (clk baud : Nat) : Nat := if baud = 4000000 then 1 else min (clk / 16000000) 7

/-- `f` は万分の一の基準の周波数である。速度が遅すぎも速すぎもせず、`f` を求めるときに切り捨てた分が、`16 * baud` を `f` で割った余りに収まる。 -/
structure BaudFits (clk baud : Nat) : Prop where
  slow : clk / (10000 * refDivisor clk baud) ≤ 16 * baud
  fast : 16 * baud < 65537 * (clk / (10000 * refDivisor clk baud))
  lost : clk % (10000 * refDivisor clk baud) * (16 * baud / (clk / (10000 * refDivisor clk baud))) ≤
    10000 * refDivisor clk baud * (16 * baud % (clk / (10000 * refDivisor clk baud)))

end Imx6Bsp.Devc
