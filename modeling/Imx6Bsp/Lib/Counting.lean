import Mathlib

/-!
# 性質を満たす構成員の数

有限個の構成員のうち性質を満たすものの数と、一つの構成員を置き換えたときの増減を置く。
-/

namespace Imx6Bsp.Lib

variable {ι α : Type*} [Fintype ι] {p : α → Prop} [DecidablePred p] {f : ι → α} {i : ι} {x : α}

/-- `p` を満たす構成員の数。 -/
def countIf (p : α → Prop) [DecidablePred p] (f : ι → α) : Nat := (Finset.univ.filter fun i => p (f i)).card

/-- 一つしかなければ、それがすべてである。 -/
theorem eq_of_countIf_eq_one (h : countIf p f = 1) {j : ι} (hi : p (f i)) (hj : p (f j)) : j = i :=
  Finset.card_le_one.mp (Nat.le_of_eq h) j (by simpa using hj) i (by simpa using hi)

/-- 一つでなければ、ほかにもある。 -/
theorem exists_ne_of_countIf_ne_one (h : countIf p f ≠ 1) (hi : p (f i)) : ∃ j, j ≠ i ∧ p (f j) := by
  have hmem : i ∈ Finset.univ.filter fun j => p (f j) := by simpa using hi
  have hpos : 0 < countIf p f := Finset.card_pos.mpr ⟨i, hmem⟩
  obtain ⟨j, hj, hne⟩ := Finset.exists_mem_ne (show 1 < countIf p f by omega) i
  exact ⟨j, hne, by simpa using hj⟩

theorem countIf_eq_zero : countIf p f = 0 ↔ ∀ i, ¬p (f i) := by
  simp [countIf, Finset.filter_eq_empty_iff]

theorem countIf_congr {q : α → Prop} [DecidablePred q] (h : ∀ i, p (f i) ↔ q (f i)) : countIf p f = countIf q f := by
  unfold countIf
  congr 1
  exact Finset.filter_congr fun i _ => h i

/-! ## 置き換え -/

section

variable [DecidableEq ι]

theorem countIf_update_same (h : p x ↔ p (f i)) : countIf p (Function.update f i x) = countIf p f := by
  unfold countIf
  congr 1
  refine Finset.filter_congr fun j _ => ?_
  rcases eq_or_ne j i with rfl | hj
  · rw [Function.update_self, h]
  · rw [Function.update_of_ne hj]

theorem countIf_update_join (hx : p x) (h : ¬p (f i)) : countIf p (Function.update f i x) = countIf p f + 1 := by
  unfold countIf
  rw [← Finset.card_insert_of_notMem (s := Finset.univ.filter fun j => p (f j)) (a := i) (by simpa using h)]
  congr 1
  ext j
  rcases eq_or_ne j i with rfl | hj
  · simp [hx]
  · simp [hj]

theorem countIf_update_leave (hx : ¬p x) (h : p (f i)) : countIf p (Function.update f i x) + 1 = countIf p f := by
  have hi : i ∈ Finset.univ.filter fun j => p (f j) := by simpa using h
  unfold countIf
  rw [← Finset.card_erase_add_one hi]
  congr 2
  ext j
  rcases eq_or_ne j i with rfl | hj
  · simp [hx]
  · simp [hj]

end

end Imx6Bsp.Lib
