import Mathlib

/-!
# 並んだ線の語

幅 `w` の線の組を `n` 個並べた語を読む。`mask` は、どの組でも同じ位置 `k` の線だけを残す印である。
-/

namespace Imx6Bsp.Lib

/-- 組 `i` の線 `k`。 -/
def laneBit {W : Nat} (w : Nat) (x : BitVec W) (i k : Nat) : Bool := x.getLsbD (w * i + k)

/-- 組を並べた語。 -/
def laneWord (W w n : Nat) (lane : Nat → Nat → Bool) : BitVec W :=
  BitVec.ofFnLE fun j : Fin W => decide (j.val < w * n) && lane (j.val / w) (j.val % w)

/-- 位置 `k` の印。 -/
def IsLaneMask {W : Nat} (w n k : Nat) (mask : BitVec W) : Prop := ∀ j, mask.getLsbD j = true ↔ ∃ i < n, j = w * i + k

section

variable {W w n k d : Nat} {x y mask : BitVec W}

theorem laneBit_laneWord {lane : Nat → Nat → Bool} {i : Nat} (hi : i < n) (hk : k < w) (hW : w * n ≤ W) :
    laneBit w (laneWord W w n lane) i k = lane i k := by
  have hlt : w * i + k < w * n := by
    calc w * i + k < w * i + w := Nat.add_lt_add_left hk _
      _ = w * (i + 1) := (Nat.mul_succ w i).symm
      _ ≤ w * n := Nat.mul_le_mul_left w hi
  have hdiv : (w * i + k) / w = i := by
    rw [Nat.mul_add_div (Nat.zero_lt_of_lt hk), Nat.div_eq_of_lt hk, Nat.add_zero]
  rw [laneBit, laneWord, BitVec.getLsbD_ofFnLE, dif_pos (hlt.trans_le hW)]
  simp only [hlt, decide_true, Bool.true_and, hdiv, Nat.mul_add_mod, Nat.mod_eq_of_lt hk]

@[simp]
theorem laneBit_and (i : Nat) : laneBit w (x &&& y) i k = (laneBit w x i k && laneBit w y i k) := BitVec.getLsbD_and

@[simp]
theorem laneBit_xor (i : Nat) : laneBit w (x ^^^ y) i k = (laneBit w x i k ^^ laneBit w y i k) := BitVec.getLsbD_xor

theorem IsLaneMask.bit (h : IsLaneMask w n k mask) {i : Nat} (hi : i < n) : laneBit w mask i k = true := (h _).mpr ⟨i, hi, rfl⟩

/-- 印の外の線は落ちる。 -/
theorem IsLaneMask.eq_iff (h : IsLaneMask w n k mask) (hx : x &&& mask = x) (hy : y &&& mask = y) :
    x = y ↔ ∀ i < n, laneBit w x i k = laneBit w y i k := by
  refine ⟨fun hxy i _ => by rw [hxy], fun hbits => ?_⟩
  rw [← hx, ← hy]
  refine BitVec.eq_of_getLsbD_eq fun j _ => ?_
  rw [BitVec.getLsbD_and, BitVec.getLsbD_and]
  by_cases hj : mask.getLsbD j = true
  · obtain ⟨i, hi, rfl⟩ := (h j).mp hj
    rw [show x.getLsbD (w * i + k) = y.getLsbD (w * i + k) from hbits i hi]
  · rw [Bool.not_eq_true] at hj
    rw [hj, Bool.and_false, Bool.and_false]

theorem IsLaneMask.and_eq_zero_iff (h : IsLaneMask w n k mask) : x &&& mask = 0#W ↔ ∀ i < n, laneBit w x i k = false := by
  rw [h.eq_iff (by rw [BitVec.and_assoc, BitVec.and_self]) BitVec.zero_and]
  refine forall₂_congr fun i hi => ?_
  rw [laneBit_and, h.bit hi, Bool.and_true, laneBit, laneBit, BitVec.getLsbD_zero]

/-- 線 `k` が立つ組で、`d` だけ下の線も立つこと。 -/
theorem IsLaneMask.shift_eq_iff (h : IsLaneMask w n k mask) (hx : x &&& mask = x) (hd : d ≤ k) :
    (y &&& x >>> d) <<< d = x ↔ ∀ i < n, laneBit w x i k = true → laneBit w y i (k - d) = true := by
  have hindex : ∀ i, w * i + k - d = w * i + (k - d) := fun i => Nat.add_sub_assoc hd _
  constructor
  · intro heq i hi hbit
    rw [← heq] at hbit
    simp only [laneBit, BitVec.getLsbD_shiftLeft, BitVec.getLsbD_and, Bool.and_eq_true, hindex] at hbit
    exact hbit.2.1
  · intro hbits
    refine BitVec.eq_of_getLsbD_eq fun j hj => ?_
    rw [BitVec.getLsbD_shiftLeft, BitVec.getLsbD_and, BitVec.getLsbD_ushiftRight]
    cases hxj : x.getLsbD j with
    | false =>
        by_cases hlt : j < d
        · rw [decide_eq_true hlt, Bool.not_true, Bool.and_false, Bool.false_and]
        · rw [Nat.add_sub_cancel' (Nat.le_of_not_lt hlt), hxj, Bool.and_false, Bool.and_false]
    | true =>
        have hmask : mask.getLsbD j = true := by
          rw [← hx, BitVec.getLsbD_and, Bool.and_eq_true] at hxj
          exact hxj.2
        obtain ⟨i, hi, rfl⟩ := (h j).mp hmask
        have hle : d ≤ w * i + k := hd.trans (Nat.le_add_left _ _)
        have hlow : y.getLsbD (w * i + (k - d)) = true := hbits i hi hxj
        rw [Nat.add_sub_cancel' hle, hxj, hindex, hlow, decide_eq_true hj, decide_eq_false (Nat.not_lt.mpr hle)]
        rfl

end

/-! ## 同じ値を並べた語 -/

/-- どの組も 1 である語。 -/
def onesWord (w : Nat) : Nat → Nat
  | 0 => 0
  | n + 1 => 1 + 2 ^ w * onesWord w n

theorem mul_onesWord_lt {w v : Nat} (hv : v < 2 ^ w) (n : Nat) : v * onesWord w n < 2 ^ (w * n) := by
  induction n with
  | zero => exact Nat.one_pos
  | succ n ih =>
      calc v * onesWord w (n + 1) = v + 2 ^ w * (v * onesWord w n) := by rw [onesWord]; ring
        _ < 2 ^ w + 2 ^ w * (v * onesWord w n) := Nat.add_lt_add_right hv _
        _ = 2 ^ w * (v * onesWord w n + 1) := by ring
        _ ≤ 2 ^ w * 2 ^ (w * n) := Nat.mul_le_mul_left _ ih
        _ = 2 ^ (w * (n + 1)) := by rw [← pow_add, Nat.mul_succ, Nat.add_comm]

/-- どの組からも同じ値が読める。 -/
theorem mul_onesWord_lane {w v i n : Nat} (hv : v < 2 ^ w) (hi : i < n) : v * onesWord w n / 2 ^ (w * i) % 2 ^ w = v := by
  induction n generalizing i with
  | zero => exact absurd hi (Nat.not_lt_zero i)
  | succ n ih =>
      have hsplit : v * onesWord w (n + 1) = v + 2 ^ w * (v * onesWord w n) := by rw [onesWord]; ring
      rw [hsplit]
      cases i with
      | zero => rw [Nat.mul_zero, pow_zero, Nat.div_one, Nat.add_mul_mod_self_left, Nat.mod_eq_of_lt hv]
      | succ i =>
          rw [Nat.mul_succ, Nat.add_comm (w * i), pow_add, ← Nat.div_div_eq_div_mul, Nat.add_mul_div_left _ _ (Nat.two_pow_pos w),
            Nat.div_eq_of_lt hv, Nat.zero_add]
          exact ih (Nat.lt_of_succ_lt_succ hi)

/-- どの組でも、線 `k` だけが立つ。 -/
theorem testBit_mul_onesWord {w k : Nat} (hk : k < w) (n j : Nat) : (2 ^ k * onesWord w n).testBit j = true ↔ ∃ i < n, j = w * i + k := by
  induction n generalizing j with
  | zero => simp [onesWord]
  | succ n ih =>
      have hsplit : 2 ^ k * onesWord w (n + 1) = 2 ^ w * (2 ^ k * onesWord w n) + 2 ^ k := by rw [onesWord]; ring
      rw [hsplit, Nat.testBit_two_pow_mul_add _ (Nat.pow_lt_pow_right (by decide) hk)]
      by_cases hj : j < w
      · rw [if_pos hj, Nat.testBit_two_pow, decide_eq_true_iff]
        constructor
        · rintro rfl
          exact ⟨0, Nat.succ_pos n, by rw [Nat.mul_zero, Nat.zero_add]⟩
        · rintro ⟨i, -, rfl⟩
          rcases Nat.eq_zero_or_pos i with rfl | hi
          · rw [Nat.mul_zero, Nat.zero_add]
          · have hle := Nat.le_mul_of_pos_right w hi
            omega
      · rw [if_neg hj, ih]
        constructor
        · rintro ⟨i, hi, hij⟩
          exact ⟨i + 1, Nat.succ_lt_succ hi, by rw [Nat.mul_succ]; omega⟩
        · rintro ⟨i, hi, rfl⟩
          cases i with
          | zero => omega
          | succ i => exact ⟨i, Nat.lt_of_succ_lt_succ hi, by rw [Nat.mul_succ]; omega⟩

end Imx6Bsp.Lib
