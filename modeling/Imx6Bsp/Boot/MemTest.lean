import Imx6Bsp.Startup.Basic

/-!
# 記憶域の検査（`mem_tests.c`）

検査される記憶域は、読み書きへの応答が任意の機械とする。`TestState` の `log` は、行った読み書きの番地と幅を並べたもので、
ソースにはない。検査の戻り値 `n` に加えて、検査が最後まで通ったかどうかも返す。
-/

namespace Imx6Bsp.Boot

open Imx6Bsp.Lib Imx6Bsp.Startup

/-- 記憶域のふるまい。引数は番地、幅、値の順とする。 -/
structure Memory (σ : Type) where
  read : σ → Nat → Nat → Nat × σ
  write : σ → Nat → Nat → Nat → σ

structure TestState (σ : Type) where
  cells : σ
  log : List (Nat × Nat)

/-- `_tests[]` の関数の結果。 -/
structure Verdict where
  n : Nat
  passed : Bool
deriving DecidableEq

/-- `_tests[]` の関数。引数は `mem_loc`、`mem_size` の順とする。 -/
abbrev TestFn (σ : Type) := TestState σ → Nat → Nat → Verdict × TestState σ

/-- `&(base)[offset]`。 -/
def element (w base offset : Nat) : Nat := wrap32 (base + offset * w)

section

variable {σ : Type} (ram : Memory σ) (w base : Nat)

def load (a : Nat) (s : TestState σ) : Nat × TestState σ :=
  ((ram.read s.cells a w).1 % 2 ^ (8 * w), ⟨(ram.read s.cells a w).2, (a, w) :: s.log⟩)

def store (a v : Nat) (s : TestState σ) : TestState σ := ⟨ram.write s.cells a w v, (a, w) :: s.log⟩

/-! ## `_1s_WALK` -/

end

/-! ## `_mem_test()` -/

section

variable {σ : Type} (ram : Memory σ)

end

end Imx6Bsp.Boot
