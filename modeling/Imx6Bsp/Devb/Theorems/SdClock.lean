import Imx6Bsp.Devb.Card
import Imx6Bsp.Lib.Words

/-!
# SD の時計の分周

`pre_div` は 2 から 256 までの二の冪、`div` は 1 から 16 までとなり、得る時計は要求を越えない。得る時計が 0 になるのは、元の時計が 1 のときに限る。
-/

namespace Imx6Bsp.Devb

open Imx6Bsp.Lib

section

variable {maxClk clock preDiv : Nat}

theorem mulInt_ok {a b : Nat} (h : a * b < 2 ^ 31) : mulInt a b = .ok (a * b) := if_pos h

/-! ## 二つの繰り返し -/

/-- `pre_div` の繰り返しは、`16 * clock` 以下になる最も小さい二の冪か 256 で止まる。 -/
theorem preDivLoop_spec (hlimit : clock * 16 < 2 ^ 31) (fuel k : Nat) (hk : k ≤ 8) (hfuel : 8 ≤ fuel + k) :
    ∃ n, preDivLoop maxClk clock fuel (2 ^ k) = .ok (2 ^ n) ∧ k ≤ n ∧ n ≤ 8 ∧ (n = 8 ∨ maxClk / 2 ^ n ≤ clock * 16) ∧
      ∀ j, k ≤ j → j < n → clock * 16 < maxClk / 2 ^ j := by
  induction fuel generalizing k with
  | zero => exact ⟨k, rfl, Nat.le_refl k, hk, Or.inl (by omega), fun j h h' => absurd h' (Nat.not_lt.mpr h)⟩
  | succ fuel ih =>
      rw [preDivLoop]
      by_cases hlast : k = 8
      · subst hlast
        exact ⟨8, rfl, Nat.le_refl 8, Nat.le_refl 8, Or.inl rfl, fun j h h' => absurd h' (Nat.not_lt.mpr h)⟩
      · have hlt : k < 8 := Nat.lt_of_le_of_ne hk hlast
        have hsmall : 2 ^ k < 256 := Nat.pow_lt_pow_right (by decide) hlt
        have hnext : 2 ^ k * 2 < 2 ^ 31 := by omega
        rw [if_pos hsmall, mulInt_ok hlimit]
        dsimp only [bind, Except.bind]
        by_cases hstop : maxClk / 2 ^ k ≤ clock * 16
        · rw [if_pos hstop]
          exact ⟨k, rfl, Nat.le_refl k, hk, Or.inr hstop, fun j h h' => absurd h' (Nat.not_lt.mpr h)⟩
        · rw [if_neg hstop, mulInt_ok hnext]
          obtain ⟨n, hrun, hle, hn, hexit, hbelow⟩ := ih (k + 1) hlt (by omega)
          refine ⟨n, hrun, Nat.le_of_succ_le hle, hn, hexit, fun j hj hjn => ?_⟩
          rcases Nat.eq_or_lt_of_le hj with rfl | hgt
          · exact Nat.lt_of_not_le hstop
          · exact hbelow j hgt hjn

/-- `div` の繰り返しは、要求を満たす最も小さい `div` で止まる。 -/
theorem divLoop_spec (hpre : preDiv ≤ 256) (hlast : maxClk / (16 * preDiv) ≤ clock) (fuel div : Nat) (hdiv : div ≤ 16)
    (hfuel : 17 ≤ fuel + div) :
    ∃ d, divLoop maxClk clock preDiv fuel div = .ok d ∧ div ≤ d ∧ d ≤ 16 ∧ maxClk / (d * preDiv) ≤ clock ∧
      ∀ j, div ≤ j → j < d → clock < maxClk / (j * preDiv) := by
  induction fuel generalizing div with
  | zero => omega
  | succ fuel ih =>
      have hprod : div * preDiv < 2 ^ 31 := lt_of_le_of_lt (Nat.mul_le_mul hdiv hpre) (by decide)
      rw [divLoop, if_pos hdiv, mulInt_ok hprod]
      dsimp only [bind, Except.bind]
      by_cases hstop : maxClk / (div * preDiv) ≤ clock
      · rw [if_pos hstop]
        exact ⟨div, rfl, Nat.le_refl div, hdiv, hstop, fun j h h' => absurd h' (Nat.not_lt.mpr h)⟩
      · rw [if_neg hstop]
        have hlt : div < 16 := Nat.lt_of_le_of_ne hdiv fun h => hstop (h ▸ hlast)
        obtain ⟨d, hrun, hle, hd, hok, hbelow⟩ := ih (div + 1) hlt (by omega)
        refine ⟨d, hrun, Nat.le_of_succ_le hle, hd, hok, fun j hj hjd => ?_⟩
        rcases Nat.eq_or_lt_of_le hj with rfl | hgt
        · exact Nat.lt_of_not_le hstop
        · exact hbelow j hgt hjd

/-! ## 初めの分周 -/

/-- 初めの分周で、`div` が 16 までに収まる。速い時計でなければ、その半分では収まらない。 -/
theorem choosePreDiv_spec (hmax : maxClk < 2 ^ 31) (hratio : maxClk ≤ clock * 4096) :
    ∃ n, choosePreDiv maxClk clock = .ok (2 ^ n) ∧ 1 ≤ n ∧ n ≤ 8 ∧ maxClk / (16 * 2 ^ n) ≤ clock ∧
      (n = 1 ∨ clock * 16 < maxClk / 2 ^ (n - 1)) := by
  have hsplit : ∀ n, maxClk / (16 * 2 ^ n) = maxClk / 2 ^ n / 16 := fun n => by rw [Nat.mul_comm, Nat.div_div_eq_div_mul]
  rw [choosePreDiv]
  by_cases hslow : maxClk / 16 > clock
  · have hlimit : clock * 16 < maxClk := by omega
    obtain ⟨n, hrun, -, hn, hexit, hbelow⟩ := preDivLoop_spec (hlimit.trans hmax) 9 0 (Nat.zero_le 8) (by decide)
    have hpos : n ≠ 0 := by
      rintro rfl
      rcases hexit with h | h
      · exact absurd h (by decide)
      · rw [Nat.pow_zero, Nat.div_one] at h
        exact absurd h (Nat.not_le.mpr hlimit)
    have hrounded : maxClk / 2 ^ n ≤ clock * 16 := by
      rcases hexit with rfl | h
      · exact Nat.div_le_of_le_mul (by omega)
      · exact h
    rw [if_pos hslow]
    refine ⟨n, hrun, Nat.pos_of_ne_zero hpos, hn, ?_, Or.inr (hbelow (n - 1) (Nat.zero_le _) (by omega))⟩
    rw [hsplit]
    omega
  · rw [if_neg hslow]
    refine ⟨1, rfl, Nat.le_refl 1, by decide, ?_, Or.inl rfl⟩
    rw [hsplit]
    omega

/-- 得る時計が 0 なのは、元の時計が 1 のときに限る。 -/
theorem clock_pos_iff {n d : Nat} (hclock : 0 < clock) (hd : 1 ≤ d) (hn : 1 ≤ n)
    (hpre : n = 1 ∨ clock * 16 < maxClk / 2 ^ (n - 1)) (hbelow : ∀ j, 1 ≤ j → j < d → clock < maxClk / (j * 2 ^ n)) :
    0 < maxClk / (2 ^ n * d) ↔ 2 ≤ maxClk := by
  have hpos : 0 < 2 ^ n * d := Nat.mul_pos (Nat.two_pow_pos n) hd
  have hhalf : 2 ^ n = 2 * 2 ^ (n - 1) := by rw [← Nat.pow_succ', Nat.succ_eq_add_one, Nat.sub_add_cancel hn]
  constructor
  · intro h
    have hle : 2 ^ n * d ≤ maxClk := (Nat.div_pos_iff.mp h).2
    have htwo : 2 ≤ 2 ^ n := Nat.le_self_pow (Nat.ne_of_gt hn) 2
    exact (htwo.trans (Nat.le_mul_of_pos_right _ hd)).trans hle
  · intro h
    refine Nat.div_pos ?_ hpos
    rcases Nat.eq_or_lt_of_le hd with rfl | hgt
    · rw [Nat.mul_one]
      rcases hpre with rfl | hslow
      · exact h
      · have hle : (clock * 16 + 1) * 2 ^ (n - 1) ≤ maxClk := (Nat.le_div_iff_mul_le (Nat.two_pow_pos _)).mp hslow
        have hdouble : 2 * 2 ^ (n - 1) ≤ (clock * 16 + 1) * 2 ^ (n - 1) := Nat.mul_le_mul_right _ (by omega)
        rw [hhalf]
        exact hdouble.trans hle
    · have hprev := hbelow (d - 1) (by omega) (by omega)
      have hle : (clock + 1) * ((d - 1) * 2 ^ n) ≤ maxClk :=
        (Nat.le_div_iff_mul_le (Nat.mul_pos (by omega) (Nat.two_pow_pos n))).mp hprev
      have hdouble : 2 ^ n * d ≤ (clock + 1) * ((d - 1) * 2 ^ n) := by
        rw [← Nat.mul_assoc, Nat.mul_comm (2 ^ n) d]
        apply Nat.mul_le_mul_right
        calc d ≤ 2 * (d - 1) := by omega
          _ ≤ (clock + 1) * (d - 1) := Nat.mul_le_mul_right _ (by omega)
      exact hdouble.trans hle

/-! ## レジスタの欄 -/

/-- 二つの欄は溢れない。 -/
theorem sysctlOf_fields {p d sdcken : Nat} (hp : p < 2 ^ 8) (hd : d < 2 ^ 4) :
    sysctlOf p d sdcken / 2 ^ 8 % 2 ^ 8 = p ∧ sysctlOf p d sdcken / 2 ^ 4 % 2 ^ 4 = d := by
  have hlow : (if sdcken = 0 then 0x07 else 0) < 2 ^ 4 := by split <;> decide
  have hvalue : sysctlOf p d sdcken = (if sdcken = 0 then 0x07 else 0) + d * 2 ^ 4 + p * 2 ^ 8 + 0xe * 2 ^ 16 := by
    rw [sysctlOf, Nat.shiftLeft_eq, Nat.shiftLeft_eq, Nat.shiftLeft_eq, Nat.or_comm (0xe * 2 ^ 16),
      or_eq_add (j := 16) (by omega) (Nat.dvd_mul_left _ _), Nat.or_comm _ (d * 2 ^ 4),
      or_eq_add (j := 8) (by omega) (Nat.dvd_add (Nat.dvd_mul_left _ _) (by decide)), Nat.or_comm,
      or_eq_add (j := 4) hlow (by omega)]
    omega
  omega

end

/-- 分周の結果。 -/
theorem mx35_clock_divides {maxClk clock : Nat} (hmax : 0 < maxClk) (hint : maxClk < 2 ^ 31) (hclock : 0 < clock)
    (hratio : maxClk ≤ clock * 4096) (sdcken : Nat) :
    ∃ s, mx35Clock maxClk clock sdcken = .ok s ∧ (∃ n, 1 ≤ n ∧ n ≤ 8 ∧ s.preDiv = 2 ^ n) ∧ 1 ≤ s.div ∧ s.div ≤ 16 ∧
      s.clock = maxClk / (s.preDiv * s.div) ∧ s.clock ≤ min clock maxClk ∧ (0 < s.clock ↔ 2 ≤ maxClk) ∧
      (∀ d, 1 ≤ d → d < s.div → min clock maxClk < maxClk / (s.preDiv * d)) ∧
      s.sysctl / 2 ^ 8 % 2 ^ 8 = s.preDiv / 2 ∧ s.sysctl / 2 ^ 4 % 2 ^ 4 = s.div - 1 := by
  have hcap : (if clock > maxClk then maxClk else clock) = min clock maxClk := by
    split <;> omega
  have hcapped : 0 < min clock maxClk := Nat.lt_min.mpr ⟨hclock, hmax⟩
  have hcapRatio : maxClk ≤ min clock maxClk * 4096 := by
    rcases Nat.le_total clock maxClk with h | h
    · rw [Nat.min_eq_left h]
      exact hratio
    · rw [Nat.min_eq_right h]
      exact Nat.le_mul_of_pos_right maxClk (by decide)
  obtain ⟨n, hchoose, hn, hn8, hlast, hpre⟩ := @choosePreDiv_spec maxClk (min clock maxClk) hint hcapRatio
  have hle : 2 ^ n ≤ 256 := Nat.pow_le_pow_right (by decide) hn8
  obtain ⟨d, hdiv, hd, hd16, hok, hbelow⟩ := divLoop_spec hle hlast 17 1 (by decide) (by decide)
  have hprod : 2 ^ n * d < 2 ^ 31 := lt_of_le_of_lt (Nat.mul_le_mul hle hd16) (by decide)
  have hhalf : 2 ^ n >>> 1 = 2 ^ n / 2 := by rw [Nat.shiftRight_eq_div_pow, Nat.pow_one]
  have hfields := @sysctlOf_fields (2 ^ n / 2) (d - 1) sdcken (by omega) (by omega)
  refine ⟨{ preDiv := 2 ^ n, div := d, clock := maxClk / (2 ^ n * d), sysctl := sysctlOf (2 ^ n >>> 1) (d - 1) sdcken }, ?_,
    ⟨n, hn, hn8, rfl⟩, hd, hd16, rfl, ?_, clock_pos_iff hcapped hd hn hpre hbelow, ?_, ?_⟩
  · rw [mx35Clock, if_neg hclock.ne']
    dsimp only
    rw [hcap, hchoose]
    dsimp only [bind, Except.bind]
    rw [hdiv]
    dsimp only
    rw [mulInt_ok hprod]
    rfl
  · dsimp only
    rwa [Nat.mul_comm]
  · intro j hj hjd
    dsimp only at hjd ⊢
    rw [Nat.mul_comm]
    exact hbelow j hj hjd
  · dsimp only
    rw [hhalf]
    exact hfields

theorem mx35_clock_divides_sample : ∃ s, mx35Clock 198000000 400000 0 = .ok s ∧ 0 < s.clock := by
  obtain ⟨s, hs, -, -, -, -, -, hpos, -⟩ := @mx35_clock_divides 198000000 400000 (by decide) (by decide) (by decide) (by decide) 0
  exact ⟨s, hs, hpos.mpr (by decide)⟩

/-- 元の時計が 1 なら、得る時計は 0 である。 -/
theorem mx35_clock_zero : ¬ ∃ s, mx35Clock 1 1 0 = .ok s ∧ 0 < s.clock := by
  rintro ⟨s, hs, hpos⟩
  have hzero : mx35Clock 1 1 0 = .ok { preDiv := 2, div := 1, clock := 0, sysctl := sysctlOf 1 0 0 } := rfl
  rw [hzero] at hs
  cases hs
  exact absurd hpos (by decide)

end Imx6Bsp.Devb
