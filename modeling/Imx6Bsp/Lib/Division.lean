import Mathlib

/-!
# 引き戻し除算

除数を二倍ずつずらして被除数を超えさせ、ずらした分だけ戻しながら引けるところで引く除算の、自然数の上の一般論である。
-/

namespace Imx6Bsp.Lib

/-- 残りの `k` けたの引き戻し除算。商と余りを返す。 -/
def restoring (den : Nat) : Nat → Nat → Nat × Nat
  | 0, num => (0, num)
  | k + 1, num =>
      if den * 2 ^ k ≤ num then
        let r := restoring den k (num - den * 2 ^ k)
        (2 ^ k + r.1, r.2)
      else restoring den k num

/-- 商が `k` けたに収まれば、引き戻し除算は正しい。 -/
theorem restoring_eq {den : Nat} (hden : 0 < den) {k num : Nat} (h : num < den * 2 ^ k) :
    restoring den k num = (num / den, num % den) := by
  induction k generalizing num with
  | zero =>
      have h : num < den := by omega
      rw [restoring, Nat.div_eq_of_lt h, Nat.mod_eq_of_lt h]
  | succ k ih =>
      have hsplit : den * 2 ^ (k + 1) = den * 2 ^ k + den * 2 ^ k := by rw [pow_succ]; ring
      rw [restoring]
      split
      · rename_i hle
        have hsub : num - den * 2 ^ k + den * 2 ^ k = num := Nat.sub_add_cancel hle
        rw [ih (by omega)]
        ext
        · show 2 ^ k + (num - den * 2 ^ k) / den = num / den
          rw [← hsub, Nat.add_sub_cancel, Nat.add_mul_div_left _ _ hden, Nat.add_comm]
        · show (num - den * 2 ^ k) % den = num % den
          rw [← hsub, Nat.add_sub_cancel, Nat.add_mul_mod_self_left]
      · exact ih (by omega)

/-- 商は `k` けたに収まる。 -/
theorem restoring_lt {den : Nat} (k num : Nat) : (restoring den k num).1 < 2 ^ k := by
  induction k generalizing num with
  | zero => exact Nat.one_pos
  | succ k ih =>
      have hsplit : 2 ^ (k + 1) = 2 ^ k + 2 ^ k := by rw [pow_succ]; ring
      rw [restoring]
      split
      · have := ih (num - den * 2 ^ k)
        show 2 ^ k + (restoring den k (num - den * 2 ^ k)).1 < 2 ^ (k + 1)
        omega
      · have := ih num
        omega

/-- 下の `k` けたが空いている数への、けた `k` の書き込みは足し算である。 -/
theorem or_two_pow (a k : Nat) : 2 ^ (k + 1) * a ||| 2 ^ k = 2 ^ (k + 1) * a + 2 ^ k := by
  rw [Nat.two_pow_add_eq_or_of_lt (Nat.pow_lt_pow_right (by omega) (Nat.lt_succ_self k))]

end Imx6Bsp.Lib
