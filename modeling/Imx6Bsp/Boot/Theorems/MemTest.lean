import Imx6Bsp.Boot.Lemmas.MemTest

/-!
# `_mem_test()` の報告

戻り値は最後の検査だけで決まり、番地 0 で見つかった失敗は成功とみなされる。
-/

namespace Imx6Bsp.Boot

open Imx6Bsp.Lib Imx6Bsp.Startup

section

variable {σ : Type}

/-- `cur` から領域の終わりまで、検査を繰り返してすべて通る。 -/
inductive Covers (testFn : TestFn σ) (start memSize : Nat) : Nat → TestState σ → TestState σ → Prop
  | done (s : TestState σ) : Covers testFn start memSize (start + memSize) s s
  | step {cur : Nat} {s s' : TestState σ} : cur < start + memSize → (testFn s cur memSize).1.passed = true →
      Covers testFn start memSize (cur + (testFn s cur memSize).1.n) (testFn s cur memSize).2 s' →
      Covers testFn start memSize cur s s'

variable (ram : Memory σ) (fuel : Nat) (cells : σ) (start memSize : Nat)

end

variable {σ : Type} {ram : Memory σ} {start memSize last : Nat}

theorem Covers.passed {testFn : TestFn σ} {cur : Nat} {s s' : TestState σ} (h : Covers testFn start memSize cur s s')
    (hlt : cur < start + memSize) : (testFn s cur memSize).1.passed = true := by
  cases h with
  | done => exact absurd hlt (lt_irrefl _)
  | step _ hpassed _ => exact hpassed

/-! ## 一つの検査の繰り返し -/

section

variable {w : Nat} (hsize : w ∣ memSize) (hpos : 0 < memSize)

include hsize hpos

end

end Imx6Bsp.Boot
