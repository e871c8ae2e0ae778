import Imx6Bsp.Lib.Checked

/-!
# PTP の時計の補正（`mx6q_ptp_set_compensation`）

補正は二つのレジスタに書かれる。`TIMER_INCR` は下位七ビットが基本の増分、八ビット目からの七ビットが補正の増分で、
`TIMER_CORR` は補正の周期である。
-/

namespace Imx6Bsp.Devnp

open Imx6Bsp.Lib

/-- `mx6q_ptp_cal` が求める周波数。 -/
def mx6qClockFreq (period : Nat) : Nat := 1000000000 / period

/-- `inc_cor`、`cor_period`、`min_err`。 -/
structure CompBest where
  incCor : Nat
  corPeriod : Nat
  minErr : Nat
deriving DecidableEq

/-- `i` から `k` 回の `for`。 -/
def compLoop (freq remOffset offset : Nat) : Nat → Nat → CompBest → Calc CompBest
  | 0, _, b => pure b
  | k + 1, i, b => do
      let num ← Calc.mul freq i
      let testPeriod ← Calc.div num remOffset
      let num ← Calc.mul freq i
      let testOffset ← Calc.div num testPeriod
      let err ← Calc.sub testOffset offset
      if err = 0 then pure { b with incCor := i, corPeriod := testPeriod }
      else if err < b.minErr then compLoop freq remOffset offset k (i + 1) ⟨i, testPeriod, err⟩
      else compLoop freq remOffset offset k (i + 1) b

/-- 書き込まれたレジスタ。`ignored` は大きすぎる補正を捨てた場合である。 -/
inductive CompOutcome
  | ignored
  | set (incr corr : Nat)
deriving DecidableEq

/-- `~0`。 -/
def maxErr : Nat := 4294967295

/-- 大きな補正は基本の増分に入れる。`coarse` は `offset / freq`。 -/
def compInc (period freq offset coarse : Nat) (ops : Bool) : Calc Nat :=
  if freq ≤ offset then
    if ops then pure ((period + coarse) % Calc.word) else Calc.sub period coarse
  else pure period

/-- 補正する tick での増分。`ops` は遅らせる向きである。 -/
def compIncCor (inc incCor : Nat) (ops : Bool) : Calc Nat :=
  if ops then pure ((inc + incCor) % Calc.word) else Calc.sub inc incCor

/-- `mx6q_ptp_set_compensation`。 -/
def ptpSetCompensation (period offset : Nat) (ops : Bool) : Calc CompOutcome :=
  let freq := mx6qClockFreq period
  if offset = 0 then pure (.set period 0)
  else do
    let coarse ← Calc.div offset freq
    if freq / 2 < coarse then pure .ignored
    else do
      let inc ← compInc period freq offset coarse ops
      let remOffset ← Calc.sub offset coarse
      let b ← compLoop freq remOffset offset inc 1 ⟨inc, 0, maxErr⟩
      let incCor ← compIncCor inc b.incCor ops
      pure (.set (inc ||| incCor <<< 8 % Calc.word) b.corPeriod)

/-! ## レジスタの読み方 -/

/-- `MX6Q_TIMER_INCR_MASK` の欄。 -/
def incField (incr : Nat) : Nat := incr % 128

/-- `MX6Q_TIMER_INCR_CORR_OFF` からの欄。 -/
def incCorrField (incr : Nat) : Nat := incr / 256 % 128

/-- 補正の増分 `i` を周期 `t` で足すときの、一秒あたりの補正と、求める補正との差。 -/
def compGap (freq offset i t : Nat) : Nat :=
  (freq * i / t - offset % freq) + (offset % freq - freq * i / t)

/-- レジスタが、基本の増分と、候補 `i` による補正の増分をそのまま持つ。 -/
structure Programs (period offset : Nat) (ops : Bool) (incr corr i : Nat) : Prop where
  base : if ops then incField incr = period + offset / mx6qClockFreq period
    else incField incr + offset / mx6qClockFreq period = period
  range : 1 ≤ i ∧ i ≤ incField incr
  cor : if ops then incCorrField incr = incField incr + i else incCorrField incr + i = incField incr
  period : 0 < corr

/-- 計算が安全で、0 でない補正を受け付けたなら、書いた組が `tried` の組の中で最もよい。 -/
def Compensates (period offset : Nat) (ops : Bool) (tried : Nat → Nat → Prop) : Prop :=
  ∃ r, (ptpSetCompensation period offset ops).Runs r ∧
    (offset ≠ 0 → ∀ incr corr, r = .set incr corr →
      ∃ i, Programs period offset ops incr corr i ∧
        ∀ j t, 1 ≤ j → j ≤ incField incr → tried j t →
          compGap (mx6qClockFreq period) offset i corr ≤ compGap (mx6qClockFreq period) offset j t)

end Imx6Bsp.Devnp
