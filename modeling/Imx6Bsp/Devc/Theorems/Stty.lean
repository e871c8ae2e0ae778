import Imx6Bsp.Devc.Stty
import Mathlib

/-!
# UART の速度

除数の欄はいつも実際の除数を表し、積は一周しない。残りは、`BIR` が 16 ビットに収まることと、切り捨てで基準の周波数を低く見積もった分が
現れないことである。
-/

namespace Imx6Bsp.Devc

open Imx6Bsp.Lib

section

variable {clk baud : Nat}

/-! ## 基準の時計 -/

theorem refDivisor_pos (hclk : 16000000 ≤ clk) : 0 < refDivisor clk baud := by
  rw [refDivisor]
  split <;> omega

theorem refDivide_fst_le (clk baud : Nat) : (refDivide clk baud).1 ≤ 6 := by
  rw [refDivide]
  split
  · exact Nat.le_succ 5
  · dsimp only
    split_ifs <;> omega

theorem refDivide_snd (hclk : 16000000 ≤ clk) : (refDivide clk baud).2 = clk / refDivisor clk baud := by
  rw [refDivide, refDivisor]
  by_cases hfour : baud = 4000000
  · rw [if_pos hfour, if_pos hfour, Nat.div_one]
  · have hpos : clk / 16000000 > 0 := Nat.div_pos hclk (by decide)
    rw [if_neg hfour, if_neg hfour]
    by_cases hbig : clk / 16000000 > 6
    · rw [if_pos hbig, min_eq_right (by omega)]
    · rw [if_neg hbig, if_pos hpos, min_eq_left (by omega)]

theorem rfdivDivisor_refDivide (hclk : 16000000 ≤ clk) : rfdivDivisor (refDivide clk baud).1 = refDivisor clk baud := by
  rw [refDivide, refDivisor]
  by_cases hfour : baud = 4000000
  · rw [if_pos hfour, if_pos hfour]; rfl
  · have hpos : clk / 16000000 > 0 := Nat.div_pos hclk (by decide)
    rw [if_neg hfour, if_neg hfour]
    by_cases hbig : clk / 16000000 > 6
    · rw [if_pos hbig, min_eq_right (by omega)]; rfl
    · rw [if_neg hbig, if_pos hpos, min_eq_left (by omega)]
      have hle : clk / 16000000 ≤ 6 := by omega
      generalize clk / 16000000 = n at hpos hle ⊢
      interval_cases n <;> rfl

/-- `fifo` は `RFDIV` の欄に重ならない。 -/
theorem fcr_field (fifo r : Nat) (hr : r ≤ 6) : ((fifo &&& 0xFC3F) ||| (r <<< 7)) / 2 ^ 7 % 2 ^ 3 = r := by
  have hfifo : ((fifo &&& 0xFC3F) >>> 7) % 2 ^ 3 = 0 := by
    rw [Nat.shiftRight_and_distrib, Nat.and_mod_two_pow]
    exact Nat.and_zero _
  have hfield : ((r <<< 7) >>> 7) % 2 ^ 3 = r := by
    rw [Nat.shiftLeft_shiftRight]
    exact Nat.mod_eq_of_lt (by omega)
  rw [← Nat.shiftRight_eq_div_pow, Nat.shiftRight_or_distrib, Nat.or_mod_two_pow, hfifo, hfield, Nat.zero_or]

/-- 分周した時計を万で割ったものは、16 MHz 以上の時計では 0 でない。 -/
theorem refHundredth_pos (hclk : 16000000 ≤ clk) : 0 < clk / (10000 * refDivisor clk baud) := by
  have hpos : 0 < refDivisor clk baud := refDivisor_pos hclk
  refine Nat.div_pos ?_ (by omega)
  rw [refDivisor]
  split <;> omega

end

/-! ## 速度の計算 -/

section

variable {clk baud fifo : Nat} {s : BaudSetting}

/-- 積は一周せず、割り算は 0 で割らない。 -/
theorem serSttyBaud_runs (hclk : 16000000 ≤ clk) (hword : clk < 2 ^ 32) (hbaud : baud ≤ clk / 16) :
    Calc.Runs (serSttyBaud clk baud fifo) s ↔
      s = { clk := clk / refDivisor clk baud, fcr := (fifo &&& 0xFC3F) ||| ((refDivide clk baud).1 <<< 7),
            bipr1 := clk / refDivisor clk baud / 1000,
            bir := (16 * baud / (clk / (10000 * refDivisor clk baud)) + (Calc.word - 1)) % Calc.word, bmr := 9999 } := by
  have hfit : baud * 16 < Calc.word := by rw [Calc.word]; omega
  have hne : clk / refDivisor clk baud / 10000 ≠ 0 := by
    rw [Nat.div_div_eq_div_mul, Nat.mul_comm]
    exact Nat.ne_of_gt (refHundredth_pos hclk)
  rw [serSttyBaud, Calc.runs_bind]
  simp only [Calc.runs_bind, Calc.runs_mul, Calc.runs_div, Calc.runs_pure, refDivide_snd hclk]
  rw [Nat.mul_comm 16 baud, Nat.mul_comm 10000, ← Nat.div_div_eq_div_mul]
  constructor
  · rintro ⟨_, ⟨-, rfl⟩, _, ⟨-, rfl⟩, rfl⟩; rfl
  · rintro rfl
    exact ⟨_, ⟨hfit, rfl⟩, _, ⟨hne, rfl⟩, rfl⟩

/-- `BIR` が 16 ビットに収まるのは、商が 1 から 65536 までのときである。 -/
theorem bir_le_iff {q : Nat} (hq : q < Calc.word) : (q + (Calc.word - 1)) % Calc.word ≤ 0xffff ↔ 1 ≤ q ∧ q ≤ 65536 := by
  rw [Calc.word] at hq ⊢
  omega

theorem bir_eq {q : Nat} (hpos : 1 ≤ q) (hq : q < Calc.word) : (q + (Calc.word - 1)) % Calc.word + 1 = q := by
  rw [Calc.word] at hq ⊢
  omega

/-- 生じる速度は要求を、除数を払った形で比べればよい。 -/
theorem rate_le_iff {k q : Nat} (hk : 0 < k) :
    (clk : ℚ) / k * q / (16 * (9999 + 1)) ≤ baud ↔ clk * q ≤ 160000 * k * baud := by
  have hk' : (0 : ℚ) < k := by exact_mod_cast hk
  rw [div_le_iff₀ (by norm_num), div_mul_eq_mul_div, div_le_iff₀ hk']
  rw [← @Nat.cast_le ℚ]
  push_cast
  constructor <;> intro h <;> linarith

theorem lt_rate_iff {k q : Nat} (hk : 0 < k) :
    (baud : ℚ) - (clk : ℚ) / k / (16 * (9999 + 1)) < (clk : ℚ) / k * q / (16 * (9999 + 1)) ↔
      160000 * k * baud < clk * (q + 1) := by
  have hk' : (0 : ℚ) < k := by exact_mod_cast hk
  rw [sub_lt_iff_lt_add, ← add_div, lt_div_iff₀ (by norm_num), ← @Nat.cast_lt ℚ]
  have hsplit : (clk : ℚ) / k * q + (clk : ℚ) / k = clk * (q + 1) / k := by ring
  rw [hsplit, lt_div_iff₀ hk']
  push_cast
  constructor <;> intro h <;> linarith

/-- 基準の周波数を切り捨てた分は、商を小さくはしない。 -/
theorem lt_step (baud : Nat) {d : Nat} (hd : 0 < clk / d) : d * (16 * baud) < clk * (16 * baud / (clk / d) + 1) := by
  have hquot : 16 * baud < clk / d * (16 * baud / (clk / d) + 1) := Nat.lt_mul_div_succ _ hd
  have hpos : 0 < d := Nat.pos_of_ne_zero fun h => by simp [h] at hd
  have hle : d * (clk / d) ≤ clk := Nat.mul_div_le clk d
  calc d * (16 * baud) < d * (clk / d * (16 * baud / (clk / d) + 1)) := Nat.mul_lt_mul_of_pos_left hquot hpos
    _ = d * (clk / d) * (16 * baud / (clk / d) + 1) := (Nat.mul_assoc _ _ _).symm
    _ ≤ clk * (16 * baud / (clk / d) + 1) := Nat.mul_le_mul_right _ hle

/-- 要求を越えないのは、切り捨てた分の商倍が、要求の余りに収まるときである。 -/
theorem le_step_iff (baud d : Nat) :
    clk * (16 * baud / (clk / d)) ≤ d * (16 * baud) ↔
      clk % d * (16 * baud / (clk / d)) ≤ d * (16 * baud % (clk / d)) := by
  have hclk : clk = d * (clk / d) + clk % d := (Nat.div_add_mod clk d).symm
  have hbaud : 16 * baud = clk / d * (16 * baud / (clk / d)) + 16 * baud % (clk / d) := (Nat.div_add_mod _ _).symm
  generalize hf : clk / d = f at *
  generalize hq : 16 * baud / f = q at *
  generalize clk % d = r at *
  generalize 16 * baud % f = t at *
  rw [hbaud, hclk, Nat.add_mul, Nat.mul_add, Nat.mul_assoc]
  exact Nat.add_le_add_iff_left

/-- 速度が正しく求まるのは、要求が遅すぎも速すぎもせず、切り捨てが要求を越えさせないときに限る。 -/
theorem serSttyBaud_exact_iff (hclk : 16000000 ≤ clk) (hword : clk < 2 ^ 32) (hbaud : baud ≤ clk / 16) :
    (∃ s, BaudExact clk baud fifo s) ↔ BaudFits clk baud := by
  have hk : 0 < refDivisor clk baud := refDivisor_pos hclk
  have hf : 0 < clk / (10000 * refDivisor clk baud) := refHundredth_pos hclk
  have hq : 16 * baud / (clk / (10000 * refDivisor clk baud)) < Calc.word :=
    lt_of_le_of_lt (Nat.div_le_self _ _) (by rw [Calc.word]; omega)
  have hruns := fun s => @serSttyBaud_runs clk baud fifo s hclk hword hbaud
  have hfield : ∀ s : BaudSetting, s.fcr = (fifo &&& 0xFC3F) ||| ((refDivide clk baud).1 <<< 7) →
      rfdivDivisor s.rfdiv = refDivisor clk baud := fun s h => by
    rw [BaudSetting.rfdiv, h, fcr_field _ _ (refDivide_fst_le clk baud), rfdivDivisor_refDivide hclk]
  have hcross : clk * (16 * baud / (clk / (10000 * refDivisor clk baud))) ≤ 160000 * refDivisor clk baud * baud ↔
      clk % (10000 * refDivisor clk baud) * (16 * baud / (clk / (10000 * refDivisor clk baud))) ≤
        10000 * refDivisor clk baud * (16 * baud % (clk / (10000 * refDivisor clk baud))) := by
    rw [← le_step_iff baud (10000 * refDivisor clk baud)]
    have hassoc : 160000 * refDivisor clk baud * baud = 10000 * refDivisor clk baud * (16 * baud) := by ring
    rw [hassoc]
  constructor
  · rintro ⟨s, h⟩
    have hs := (hruns s).mp h.runs
    have hbir := h.bir_le
    have hrate := h.rate_le
    rw [BaudSetting.rate, BaudSetting.ref, hfield s (by rw [hs])] at hrate
    subst hs
    have hrange := (bir_le_iff hq).mp hbir
    have hsucc := bir_eq hrange.1 hq
    dsimp only at hrate
    have hcast : (((16 * baud / (clk / (10000 * refDivisor clk baud)) + (Calc.word - 1)) % Calc.word : Nat) : ℚ) + 1 =
        ((16 * baud / (clk / (10000 * refDivisor clk baud)) : Nat) : ℚ) := by exact_mod_cast hsucc
    rw [hcast] at hrate
    refine ⟨?_, ?_, hcross.mp ((rate_le_iff hk).mp (by exact_mod_cast hrate))⟩
    · exact (Nat.div_pos_iff.mp hrange.1).2
    · exact (Nat.div_lt_iff_lt_mul hf).mp (Nat.lt_succ_of_le hrange.2)
  · intro h
    have hone : 1 ≤ 16 * baud / (clk / (10000 * refDivisor clk baud)) := Nat.div_pos h.slow hf
    have hlast : 16 * baud / (clk / (10000 * refDivisor clk baud)) ≤ 65536 :=
      Nat.le_of_lt_succ ((Nat.div_lt_iff_lt_mul hf).mpr h.fast)
    have hcast : (((16 * baud / (clk / (10000 * refDivisor clk baud)) + (Calc.word - 1)) % Calc.word : Nat) : ℚ) + 1 =
        ((16 * baud / (clk / (10000 * refDivisor clk baud)) : Nat) : ℚ) := by exact_mod_cast bir_eq hone hq
    refine ⟨_, (hruns _).mpr rfl, ?_, (bir_le_iff hq).mpr ⟨hone, hlast⟩, ?_, ?_⟩
    · rw [hfield _ rfl]
    · rw [BaudSetting.rate, BaudSetting.ref, hfield _ rfl]
      dsimp only
      rw [hcast]
      exact_mod_cast (rate_le_iff hk).mpr (hcross.mpr h.lost)
    · rw [BaudSetting.rate, BaudSetting.stepSize, BaudSetting.ref, hfield _ rfl]
      dsimp only
      rw [hcast]
      have hlt := lt_step baud hf
      have hassoc : 10000 * refDivisor clk baud * (16 * baud) = 160000 * refDivisor clk baud * baud := by ring
      rw [hassoc] at hlt
      exact_mod_cast (lt_rate_iff hk).mpr hlt

end

theorem serSttyBaud_exact_sample : (∃ s, BaudExact 96000000 115200 0 s) ↔ BaudFits 96000000 115200 :=
  serSttyBaud_exact_iff (by decide) (by decide) (by decide)

/-- 16 MHz で 50 ボーを求めると、商が 0 になって `BIR` が一周する。 -/
theorem serSttyBaud_not_exact :
    ¬ ∀ clk baud fifo, 16000000 ≤ clk → clk < 2 ^ 32 → 0 < baud → baud ≤ clk / 16 → ∃ s, BaudExact clk baud fifo s := by
  intro h
  obtain ⟨s, hs⟩ := h 16000000 50 0 (by decide) (by decide) (by decide) (by decide)
  have hrun : Calc.Runs (serSttyBaud 16000000 50 0) { clk := 16000000, fcr := 640, bipr1 := 16000, bir := 4294967295, bmr := 9999 } := by
    rfl
  have heq : s = { clk := 16000000, fcr := 640, bipr1 := 16000, bir := 4294967295, bmr := 9999 } := by
    have := hs.runs.symm.trans hrun
    injection this
  have hle := hs.bir_le
  rw [heq] at hle
  exact absurd hle (by decide)

end Imx6Bsp.Devc
