import Imx6Bsp.Lib.Words

/-!
# 起動ライブラリの共通の定義（`startup.h`）

このビルド（`a.le.v7`）では `_PADDR_BITS` が定義されないので、`paddr_t` は 32 ビットである
（`sys/platform.h`）。番地と大きさは自然数で表し、32 ビットの計算で桁があふれうるところに `wrap32` を書く。
-/

namespace Imx6Bsp.Startup

open Imx6Bsp.Lib

/-- 32 ビットの符号なし整数への切り詰め。 -/
def wrap32 (x : Nat) : Nat := x % 2 ^ 32

/-- `NULL_PADDR` と `NULL_PADDR32`。 -/
def nullPaddr : Nat := 2 ^ 32 - 1

/-- `MAX_PADDR32`。 -/
def maxPaddr32 : Nat := 0xffffffff

/-- `TRUNC(_x, _a)`、すなわち `(paddr_t)(_x) & ~((paddr_t)(_a) - 1)`。 -/
def trunc (x a : Nat) : Nat := wrap32 x &&& (2 ^ 32 - 1 - wrap32 (a + (2 ^ 32 - 1)))

/-- `ROUND(_x, _a)`、すなわち `TRUNC((paddr_t)(_x) + ((paddr_t)(_a) - 1), _a)`。 -/
def round (x a : Nat) : Nat := trunc (wrap32 x + wrap32 (a + (2 ^ 32 - 1))) a

/-- `__PAGESIZE`。 -/
def pageSize : Nat := 4096

/-- `crash()` で止まる理由。 -/
inductive Crash
  | ramEntryArrayOverflow
  | cantRemoveWholeSysramEntry
  | noMemoryForWatcher
  | couldNotReserve (size : Nat)
  | syspageRequestExceedsMaximum (newSize maxSize : Nat)
  | noMemoryForCalloutInfo
deriving DecidableEq, Repr

/-! ## 二の冪の位置合わせ -/

theorem wrap32_of_lt {x : Nat} (h : x < 2 ^ 32) : wrap32 x = x := Nat.mod_eq_of_lt h

theorem wrap32_lt (x : Nat) : wrap32 x < 2 ^ 32 := Nat.mod_lt _ (by decide)

/-- 負にならない差は、32 ビットの引き算で求まる。 -/
theorem wrap32_sub {a b : Nat} (hba : b ≤ a) (ha : a < 2 ^ 32) : wrap32 (a + (2 ^ 32 - b)) = a - b := by
  unfold wrap32; omega

theorem pred_two_pow {k : Nat} (hk : k < 32) : wrap32 (2 ^ k + (2 ^ 32 - 1)) = 2 ^ k - 1 := by
  have h1 := Nat.two_pow_pos k
  have h2 : 2 ^ k < 2 ^ 32 := Nat.pow_lt_pow_right (by omega) hk
  unfold wrap32; omega

theorem trunc_two_pow (x : Nat) {k : Nat} (hk : k < 32) : trunc x (2 ^ k) = wrap32 x / 2 ^ k * 2 ^ k := by
  have h1 := Nat.two_pow_pos k
  rw [trunc, pred_two_pow hk, show 2 ^ 32 - 1 - (2 ^ k - 1) = 2 ^ 32 - 2 ^ k by omega,
    land_high_mask (wrap32_lt x) hk.le]

theorem trunc_le (x a : Nat) : trunc x a ≤ x := Nat.and_le_left.trans (Nat.mod_le _ _)

/-- 桁があふれなければ、`ROUND` は倍数への切り上げである。 -/
theorem round_two_pow {x k : Nat} (hk : k < 32) (h : x + 2 ^ k ≤ 2 ^ 32) :
    round x (2 ^ k) = roundUp x (2 ^ k) := by
  have h1 := Nat.two_pow_pos k
  rw [round, pred_two_pow hk, trunc_two_pow _ hk, wrap32_of_lt (x := x) (by omega),
    wrap32_of_lt (by omega), roundUp]

/-- 二の冪の位置合わせの値。 -/
def IsAlign (a : Nat) : Prop := ∃ k < 32, a = 2 ^ k

theorem IsAlign.pos {a : Nat} (h : IsAlign a) : 0 < a := by
  obtain ⟨k, _, rfl⟩ := h; exact Nat.two_pow_pos k

theorem IsAlign.round_eq {x a : Nat} (ha : IsAlign a) (h : x + a ≤ 2 ^ 32) : round x a = roundUp x a := by
  obtain ⟨k, hk, rfl⟩ := ha; exact round_two_pow hk h

theorem IsAlign.le_round {x a : Nat} (ha : IsAlign a) (h : x + a ≤ 2 ^ 32) : x ≤ round x a := by
  rw [ha.round_eq h]; exact le_roundUp x ha.pos

theorem IsAlign.dvd_round {x a : Nat} (ha : IsAlign a) (h : x + a ≤ 2 ^ 32) : a ∣ round x a := by
  rw [ha.round_eq h]; exact dvd_roundUp x a

theorem isAlign_eight : IsAlign 8 := ⟨3, by decide, rfl⟩

theorem isAlign_four : IsAlign 4 := ⟨2, by decide, rfl⟩

theorem isAlign_page : IsAlign pageSize := ⟨12, by decide, rfl⟩

end Imx6Bsp.Startup
