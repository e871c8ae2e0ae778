import Mathlib
import Mathlib.Data.Nat.Bitwise

/-!
# 二の冪への切り下げと切り上げ

下位のビットを落とす演算を、割り算と掛け算で表す。
-/

namespace Imx6Bsp.Lib

/-- 下位 `k` ビットを落とすマスクとの論理積は、`2 ^ k` の倍数への切り下げである。 -/
theorem land_high_mask {w k x : Nat} (hx : x < 2 ^ w) (hk : k ≤ w) :
    x &&& (2 ^ w - 2 ^ k) = x / 2 ^ k * 2 ^ k := by
  have hmask : 2 ^ w - 2 ^ k = 2 ^ w - ((2 ^ k - 1) + 1) := by
    have := Nat.two_pow_pos k; congr 1; omega
  have hlt : 2 ^ k - 1 < 2 ^ w := by
    have := Nat.two_pow_pos k
    have := Nat.pow_le_pow_right (show 0 < 2 by omega) hk
    omega
  apply Nat.eq_of_testBit_eq
  intro i
  rw [Nat.testBit_and, hmask, Nat.testBit_two_pow_sub_succ hlt, Nat.testBit_two_pow_sub_one,
    Nat.testBit_mul_two_pow, Nat.testBit_div_two_pow]
  by_cases hik : i < k
  · simp [hik, Nat.not_le.mpr hik]
  · have hki : k ≤ i := Nat.not_lt.mp hik
    rw [Nat.sub_add_cancel hki]
    by_cases hiw : i < w
    · simp [hik, hki, hiw]
    · have : x.testBit i = false :=
        Nat.testBit_lt_two_pow (hx.trans_le (Nat.pow_le_pow_right (by omega) (Nat.not_lt.mp hiw)))
      simp [this]

/-- `a` の倍数への切り上げ。 -/
def roundUp (x a : Nat) : Nat := (x + (a - 1)) / a * a

theorem le_roundUp {a : Nat} (x : Nat) (ha : 0 < a) : x ≤ roundUp x a := by
  have h := Nat.div_add_mod (x + (a - 1)) a
  have := Nat.mod_lt (x + (a - 1)) ha
  rw [Nat.mul_comm] at h
  unfold roundUp; omega

theorem roundUp_lt {a : Nat} (x : Nat) (ha : 0 < a) : roundUp x a < x + a := by
  have h := Nat.div_mul_le_self (x + (a - 1)) a
  unfold roundUp; omega

theorem dvd_roundUp (x a : Nat) : a ∣ roundUp x a := Nat.dvd_mul_left _ _

theorem roundUp_of_dvd {x a : Nat} (ha : 0 < a) (h : a ∣ x) : roundUp x a = x := by
  obtain ⟨k, rfl⟩ := h
  have : (a * k + (a - 1)) / a = k := by
    rw [Nat.mul_add_div ha, Nat.div_eq_of_lt (by omega), Nat.add_zero]
  rw [roundUp, this, Nat.mul_comm]

theorem roundUp_mono {x y a : Nat} (h : x ≤ y) : roundUp x a ≤ roundUp y a :=
  Nat.mul_le_mul_right _ (Nat.div_le_div_right (by omega))

theorem roundUp_add_of_dvd {x y a : Nat} (ha : 0 < a) (h : a ∣ x) : roundUp (x + y) a = x + roundUp y a := by
  obtain ⟨k, rfl⟩ := h
  have : (a * k + y + (a - 1)) / a = k + (y + (a - 1)) / a := by
    rw [Nat.add_assoc, Nat.mul_add_div ha]
  rw [roundUp, this, roundUp, Nat.add_mul, Nat.mul_comm k a]

theorem roundUp_pos {x a : Nat} (ha : 0 < a) (hx : 0 < x) : 0 < roundUp x a :=
  hx.trans_le (le_roundUp x ha)

/-! ## マスクと和 -/

theorem land_mask (x : Nat) {w k : Nat} (hk : k ≤ w) : x &&& (2 ^ w - 2 ^ k) = x % 2 ^ w / 2 ^ k * 2 ^ k := by
  have hpos := Nat.two_pow_pos k
  have hpos' := Nat.two_pow_pos w
  have hmask : 2 ^ w - 2 ^ k < 2 ^ w := by omega
  have hmod := @Nat.and_mod_two_pow x (2 ^ w - 2 ^ k) w
  rw [Nat.mod_eq_of_lt (Nat.and_lt_two_pow _ hmask), Nat.mod_eq_of_lt hmask] at hmod
  rw [hmod, land_high_mask (Nat.mod_lt _ hpos') hk]

theorem or_eq_add {a m j : Nat} (ha : a < 2 ^ j) (hm : 2 ^ j ∣ m) : a ||| m = a + m := by
  obtain ⟨c, rfl⟩ := hm
  rw [Nat.or_comm, ← Nat.two_pow_add_eq_or_of_lt ha, Nat.add_comm]

/-- 下の `k` 桁と上の桁の、それぞれの積。 -/
theorem and_split {k a b x y : Nat} (ha : a < 2 ^ k) (hb : b < 2 ^ k) :
    (a + 2 ^ k * x) &&& (b + 2 ^ k * y) = (a &&& b) + 2 ^ k * (x &&& y) := by
  have hmod := @Nat.and_mod_two_pow (a + 2 ^ k * x) (b + 2 ^ k * y) k
  have hdiv := @Nat.and_div_two_pow (a + 2 ^ k * x) (b + 2 ^ k * y) k
  rw [Nat.add_mul_mod_self_left, Nat.add_mul_mod_self_left, Nat.mod_eq_of_lt ha, Nat.mod_eq_of_lt hb] at hmod
  rw [Nat.add_mul_div_left _ _ (Nat.two_pow_pos k), Nat.add_mul_div_left _ _ (Nat.two_pow_pos k), Nat.div_eq_of_lt ha,
    Nat.div_eq_of_lt hb, Nat.zero_add, Nat.zero_add] at hdiv
  rw [← hmod, ← hdiv]
  exact (Nat.mod_add_div _ _).symm

theorem or_split {k a b x y : Nat} (ha : a < 2 ^ k) (hb : b < 2 ^ k) :
    (a + 2 ^ k * x) ||| (b + 2 ^ k * y) = (a ||| b) + 2 ^ k * (x ||| y) := by
  have hmod := @Nat.or_mod_two_pow (a + 2 ^ k * x) (b + 2 ^ k * y) k
  have hdiv := @Nat.or_div_two_pow (a + 2 ^ k * x) (b + 2 ^ k * y) k
  rw [Nat.add_mul_mod_self_left, Nat.add_mul_mod_self_left, Nat.mod_eq_of_lt ha, Nat.mod_eq_of_lt hb] at hmod
  rw [Nat.add_mul_div_left _ _ (Nat.two_pow_pos k), Nat.add_mul_div_left _ _ (Nat.two_pow_pos k), Nat.div_eq_of_lt ha,
    Nat.div_eq_of_lt hb, Nat.zero_add, Nat.zero_add] at hdiv
  rw [← hmod, ← hdiv]
  exact (Nat.mod_add_div _ _).symm

end Imx6Bsp.Lib

namespace Imx6Bsp.Lib

/-! ## マスクによる桁の差し替え

`w` ビットの数の、マスク `mask` の桁だけを `v` に差し替える演算を置く。 -/

/-- `w` ビットの数 `x` の、`mask` の桁を `v` に差し替える。 -/
def withBits (w x mask v : Nat) : Nat := (x &&& (2 ^ w - 1 - mask)) ||| v

variable {w x y mask v k : Nat}

theorem testBit_compl (hm : mask < 2 ^ w) (i : Nat) :
    (2 ^ w - 1 - mask).testBit i = (decide (i < w) && !mask.testBit i) := by
  rw [Nat.sub_sub, Nat.add_comm]
  exact Nat.testBit_two_pow_sub_succ hm i

/-- 差し替えた桁は `v` である。 -/
theorem withBits_and (hm : mask < 2 ^ w) (hv : v &&& mask = v) : withBits w x mask v &&& mask = v := by
  refine Nat.eq_of_testBit_eq fun i => ?_
  have hi := congrArg (Nat.testBit · i) hv
  simp only [Nat.testBit_and] at hi
  simp only [withBits, Nat.testBit_and, Nat.testBit_or, testBit_compl hm]
  cases hb : mask.testBit i
  · simpa [hb] using hi
  · simp

theorem or_le_add (a b : Nat) : a ||| b ≤ a + b := by
  induction a using Nat.strongRecOn generalizing b with
  | ind a ih =>
      rcases Nat.eq_zero_or_pos a with rfl | ha
      · simp
      · have hdiv : (a ||| b) / 2 = a / 2 ||| b / 2 := Nat.or_div_two
        have hmod : (a ||| b) % 2 ≤ a % 2 + b % 2 := by
          have h : (a ||| b) % 2 = a % 2 ||| b % 2 := by
            have := @Nat.or_mod_two_pow a b 1
            rwa [Nat.pow_one] at this
          rw [h]
          rcases Nat.mod_two_eq_zero_or_one a with h1 | h1 <;> rcases Nat.mod_two_eq_zero_or_one b with h2 | h2 <;> simp [h1, h2]
        have hrec := ih (a / 2) (by omega) (b / 2)
        omega

/-- 差し替えても、`mask` より多くは減らない。 -/
theorem le_withBits_add (hx : x < 2 ^ w) (hm : mask < 2 ^ w) : x ≤ withBits w x mask v + mask := by
  have hle : x ≤ (x &&& (2 ^ w - 1 - mask)) ||| mask := by
    refine Nat.le_of_testBit fun i hi => ?_
    simp only [Nat.testBit_or, Nat.testBit_and, testBit_compl hm, hi, Bool.true_and]
    have hlt : i < w := by
      by_contra hge
      rw [Nat.testBit_lt_two_pow (hx.trans_le (Nat.pow_le_pow_right (by decide) (Nat.not_lt.mp hge)))] at hi
      cases hi
    cases mask.testBit i <;> simp [hlt]
  have hor := or_le_add (x &&& (2 ^ w - 1 - mask)) mask
  have hleft : x &&& (2 ^ w - 1 - mask) ≤ withBits w x mask v := Nat.left_le_or
  omega

theorem withBits_lt (hx : x < 2 ^ w) (hv : v < 2 ^ w) : withBits w x mask v < 2 ^ w :=
  Nat.or_lt_two_pow (Nat.and_le_left.trans_lt hx) hv

/-- 下の `k` 桁は、もとの数の下の `k` 桁で決まる。 -/
theorem withBits_mod (h : x % 2 ^ k = y % 2 ^ k) : withBits w x mask v % 2 ^ k = withBits w y mask v % 2 ^ k := by
  simp only [withBits, Nat.or_mod_two_pow, Nat.and_mod_two_pow, h]

end Imx6Bsp.Lib
