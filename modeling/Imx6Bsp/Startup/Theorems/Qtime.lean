import Imx6Bsp.Startup.Calendar

/-!
# 周期の計算の正しさ

`invert_timer_freq()` は十の冪を周波数で割る筆算であり、`n` 桁目の商と余りは `10 ^ n` の商と余りに等しい。`timer_tick2ns()` が零除算を
しないのは、周期の有効数字が `10 ^ power` より小さくならないからである。
-/

namespace Imx6Bsp.Startup

open Imx6Bsp.Lib

/-! ## 筆算 -/

section
variable {f n : Nat}

/-- `n` 桁目の割られる数。 -/
def quotAt (f : Nat) : Nat → Nat
  | 0 => 1
  | n + 1 => 10 ^ n % f * 10

/-- `n` 桁目の前の商。 -/
def rateAt (f : Nat) : Nat → Nat
  | 0 => 0
  | n + 1 => 10 ^ n / f

theorem rateAt_mul_add : rateAt f n * 10 * f + quotAt f n = 10 ^ n := by
  cases n with
  | zero => simp [rateAt, quotAt]
  | succ n =>
      have h := Nat.div_add_mod (10 ^ n) f
      calc 10 ^ n / f * 10 * f + 10 ^ n % f * 10 = (f * (10 ^ n / f) + 10 ^ n % f) * 10 := by ring
        _ = 10 ^ (n + 1) := by rw [h, pow_succ]

theorem quotAt_mod : quotAt f n % f = 10 ^ n % f := by
  rw [← rateAt_mul_add (f := f) (n := n), Nat.add_comm, Nat.add_mul_mod_self_right]

theorem rateAt_next (hf : 0 < f) : rateAt f n * 10 + quotAt f n / f = 10 ^ n / f := by
  rw [← rateAt_mul_add (f := f) (n := n), Nat.add_comm (_ * f), Nat.add_mul_div_right _ _ hf, Nat.add_comm]

theorem quotAt_lt (hf : 0 < f) : quotAt f n < 10 * f := by
  cases n with
  | zero => simp only [quotAt]; omega
  | succ n =>
      have h := Nat.mod_lt (10 ^ n) hf
      simp only [quotAt]; omega

/-- `n` 桁目で筆算が止まる。 -/
def InvertStops (f n : Nat) : Prop := ulongMax / 10 - 10 ≤ 10 ^ n / f ∨ 10 ^ n % f = 0

instance (f n : Nat) : Decidable (InvertStops f n) := inferInstanceAs (Decidable (_ ∨ _))

/-- 周波数が 32 ビットなら、二十桁までに止まる。 -/
theorem exists_invertStops (hf : f ≤ ulongMax / 10) (hpos : 0 < f) : ∃ n ≤ 19, InvertStops f n := by
  refine ⟨19, le_rfl, .inl ?_⟩
  rw [Nat.le_div_iff_mul_le hpos]
  calc (ulongMax / 10 - 10) * f ≤ (ulongMax / 10 - 10) * (ulongMax / 10) := Nat.mul_le_mul_left _ hf
    _ ≤ 10 ^ 19 := by decide

/-- `n` 桁目から始めた筆算は、止まる桁 `N` の商を返し、桁があふれない。 -/
theorem invertLoop_runs (hf : f ≤ ulongMax / 10) (hpos : 0 < f) {N : Nat} (hN : InvertStops f N) (s : Int) :
    ∀ fuel n, n ≤ N → N < n + fuel → (∀ m < N, ¬ InvertStops f m) →
      Calc.Runs (invertLoop f fuel (quotAt f n) (rateAt f n) (s - n)) (some ⟨10 ^ N / f, s - N⟩) := by
  intro fuel
  induction fuel with
  | zero => intro n h1 h2; omega
  | succ fuel ih =>
      intro n hn hfuel hmin
      have hquot := quotAt_lt (n := n) hpos
      have hdiv : quotAt f n / f < 10 := (Nat.div_lt_iff_lt_mul hpos).mpr hquot
      have hrate : rateAt f n < ulongMax / 10 - 10 := by
        cases n with
        | zero =>
            change 0 < ulongMax / 10 - 10
            decide
        | succ n =>
            have h := hmin n (by omega)
            simp only [InvertStops, not_or, Nat.not_le] at h
            exact h.1
      have hnext := rateAt_next (n := n) hpos
      have hlong : ulongMax = 4294967295 := rfl
      simp only [invertLoop, Calc.runs_bind, Calc.runs_div, Calc.runs_mul, Calc.runs_add, Calc.word]
      refine ⟨_, ⟨by omega, rfl⟩, _, ⟨by omega, rfl⟩, 10 ^ n / f, ⟨by omega, hnext.symm⟩, ?_⟩
      by_cases hstop : InvertStops f n
      · obtain rfl : n = N := by
          by_contra hne
          exact hmin n (by omega) hstop
        by_cases hbig : ulongMax / 10 - 10 ≤ 10 ^ n / f
        · rw [if_pos hbig, Calc.runs_pure]
        · rw [if_neg hbig, Calc.runs_bind]
          refine ⟨10 ^ n % f, Calc.runs_mod.mpr ⟨by omega, quotAt_mod.symm⟩, ?_⟩
          rw [if_pos (hstop.resolve_left hbig), Calc.runs_pure]
      · simp only [InvertStops, not_or] at hstop
        have hlt : n < N := by
          apply Nat.lt_of_le_of_ne hn
          rintro rfl
          exact hN.elim hstop.1 hstop.2
        have hrem := Nat.mod_lt (10 ^ n) hpos
        rw [if_neg hstop.1, Calc.runs_bind]
        refine ⟨10 ^ n % f, Calc.runs_mod.mpr ⟨by omega, quotAt_mod.symm⟩, ?_⟩
        rw [if_neg hstop.2, Calc.runs_bind]
        refine ⟨10 ^ n % f * 10, Calc.runs_mul.mpr ⟨by unfold Calc.word; omega, rfl⟩, ?_⟩
        have hscale : s - (n : Int) - 1 = s - ((n + 1 : Nat) : Int) := by omega
        rw [hscale]
        exact ih (n + 1) hlt (by omega) hmin

end

/-- 止まる前の商は大きくないので、止まる桁の商も 32 ビットに収まる。 -/
theorem rate_lt (hpos : 0 < f) {N : Nat} (hmin : ∀ m < N, ¬ InvertStops f m) : 10 ^ N / f < 2 ^ 32 := by
  cases N with
  | zero => exact (Nat.div_le_self _ _).trans_lt (by decide)
  | succ n =>
      have h := hmin n (Nat.lt_succ_self n)
      simp only [InvertStops, not_or, Nat.not_le] at h
      have hlong : ulongMax / 10 - 10 = 429496719 := rfl
      have hdiv : quotAt f (n + 1) / f < 10 := (Nat.div_lt_iff_lt_mul hpos).mpr (quotAt_lt hpos)
      have hnext := rateAt_next (f := f) (n := n + 1) hpos
      simp only [rateAt] at hnext
      omega

/-- 終わった筆算は、回数を増やしても同じ値を返す。 -/
theorem invertLoop_mono {f : Nat} {q : Qtime} (m : Nat) : ∀ fuel quot rate (scale : Int),
    Calc.Runs (invertLoop f fuel quot rate scale) (some q) → Calc.Runs (invertLoop f (fuel + m) quot rate scale) (some q) := by
  intro fuel
  induction fuel with
  | zero =>
      intro quot rate scale h
      rw [invertLoop, Calc.runs_pure] at h
      cases h
  | succ fuel ih =>
      intro quot rate scale h
      rw [Nat.add_right_comm]
      simp only [invertLoop, Calc.runs_bind] at h ⊢
      obtain ⟨div, hdiv, r10, h10, r, hr, h⟩ := h
      refine ⟨div, hdiv, r10, h10, r, hr, ?_⟩
      split at h
      · rename_i hbig
        rwa [if_pos hbig]
      · rename_i hbig
        rw [if_neg hbig]
        rw [Calc.runs_bind] at h ⊢
        obtain ⟨rem, hrem, h⟩ := h
        refine ⟨rem, hrem, ?_⟩
        split at h
        · rename_i hzero
          rwa [if_pos hzero]
        · rename_i hzero
          rw [if_neg hzero]
          rw [Calc.runs_bind] at h ⊢
          obtain ⟨next, hnext, h⟩ := h
          exact ⟨next, hnext, ih next r _ h⟩

/-! ## `invert_timer_freq()` -/

/-- 割るのに使う周波数。 -/
def keptFreq (freq : Nat) : Nat := if freq > ulongMax / 10 then freq / 10 else freq

/-- 捨てた桁の数。 -/
def droppedDigits (freq : Nat) : Nat := if freq > ulongMax / 10 then 1 else 0

section
variable {freq : Nat}

theorem keptFreq_pos (h : 1 ≤ freq) : 0 < keptFreq freq := by
  have hlong : ulongMax = 4294967295 := rfl
  unfold keptFreq
  split <;> omega

theorem keptFreq_le (h : freq < 2 ^ 32) : keptFreq freq ≤ ulongMax / 10 := by
  have hlong : ulongMax = 4294967295 := rfl
  unfold keptFreq
  split <;> omega

theorem invertTimerFreq_eq (h : 1 ≤ freq) (fuel : Nat) :
    invertTimerFreq fuel freq = invertLoop (keptFreq freq) fuel 1 0 (-(droppedDigits freq : Int)) := by
  unfold invertTimerFreq keptFreq droppedDigits
  rw [if_neg (by omega)]
  split <;> rfl

/-- 止まる桁と、格納する値。 -/
theorem invertTimerFreq_stops (h : 1 ≤ freq) (hlt : freq < 2 ^ 32) :
    ∃ N ≤ 19, InvertStops (keptFreq freq) N ∧ (∀ m < N, ¬ InvertStops (keptFreq freq) m) ∧
      ∀ fuel, N < fuel →
        Calc.Runs (invertTimerFreq fuel freq) (some ⟨10 ^ N / keptFreq freq, -(droppedDigits freq : Int) - N⟩) := by
  have hpos := keptFreq_pos h
  have hle := keptFreq_le hlt
  obtain ⟨n, hn, hstop⟩ := exists_invertStops hle hpos
  have hex : ∃ n, InvertStops (keptFreq freq) n := ⟨n, hstop⟩
  refine ⟨Nat.find hex, (Nat.find_le hstop).trans hn, Nat.find_spec hex, fun m hm => Nat.find_min hex hm, fun fuel hfuel => ?_⟩
  have hrun := invertLoop_runs hle hpos (Nat.find_spec hex) (-(droppedDigits freq : Int)) fuel 0 (Nat.zero_le _) (by omega)
    fun m hm => Nat.find_min hex hm
  rw [invertTimerFreq_eq h]
  simpa [quotAt, rateAt] using hrun

theorem invertTimerFreq_unique (h : 1 ≤ freq) {fuel N : Nat} {q q' : Qtime} (hq : Calc.Runs (invertTimerFreq fuel freq) (some q))
    (hq' : ∀ fuel, N < fuel → Calc.Runs (invertTimerFreq fuel freq) (some q')) : q = q' := by
  rw [invertTimerFreq_eq h] at hq
  have hmore := invertLoop_mono (N + 1) fuel _ _ _ hq
  rw [← invertTimerFreq_eq h] at hmore
  have hsame := hmore.symm.trans (hq' (fuel + (N + 1)) (by omega))
  injection hsame with hsome
  exact Option.some.inj hsome

/-- `invert_timer_freq()` は二十周以内に桁あふれなく終わり、格納する周期は、割り切れるか、九桁の有効数字を持つ。 -/
theorem invert_timer_freq_exact (h : 1 ≤ freq) (hlt : freq < 2 ^ 32) :
    ∃ rate scale, (∀ fuel, 20 ≤ fuel → Calc.Runs (invertTimerFreq fuel freq) (some ⟨rate, scale⟩)) ∧
      ∃ n : Nat, (n : Int) = -scale - droppedDigits freq ∧ rate * keptFreq freq ≤ 10 ^ n ∧
        10 ^ n < (rate + 1) * keptFreq freq ∧ (rate * keptFreq freq = 10 ^ n ∨ ulongMax / 10 - 10 ≤ rate) := by
  have hpos := keptFreq_pos h
  obtain ⟨N, hN, hstop, _, hrun⟩ := invertTimerFreq_stops h hlt
  refine ⟨_, _, fun fuel hfuel => hrun fuel (by omega), N, by omega, Nat.div_mul_le_self _ _, ?_, ?_⟩
  · exact (Nat.div_lt_iff_lt_mul hpos).mp (Nat.lt_succ_self _)
  · cases hstop with
    | inl hbig => exact .inr hbig
    | inr hrem => exact .inl (Nat.div_mul_cancel (Nat.dvd_of_mod_eq_zero hrem))

theorem invert_timer_freq_mhz :
    ∃ rate scale, (∀ fuel, 20 ≤ fuel → Calc.Runs (invertTimerFreq fuel 66000000) (some ⟨rate, scale⟩)) ∧
      ∃ n : Nat, (n : Int) = -scale - droppedDigits 66000000 ∧ rate * keptFreq 66000000 ≤ 10 ^ n ∧
        10 ^ n < (rate + 1) * keptFreq 66000000 ∧ (rate * keptFreq 66000000 = 10 ^ n ∨ ulongMax / 10 - 10 ≤ rate) :=
  invert_timer_freq_exact (by decide) (by decide)

end

/-! ## `timer_tick2ns()` -/

section
variable {rate ticks k ns : Nat}

/-- 積が収まれば積を、あふれれば 0 を得る。 -/
theorem tick2nsTry_zero (ticks : Nat) (hrate : 0 < rate) (hlt : rate < 2 ^ 32) :
    Calc.Runs (tick2nsTry rate ticks 0) (if rate * ticks < 2 ^ 32 then rate * ticks else 0) := by
  simp only [tick2nsTry, if_true, Calc.runs_bind, Calc.runs_div, Calc.runs_pure]
  refine ⟨wrap32 (rate * ticks) / rate, ⟨by omega, rfl⟩, ?_⟩
  by_cases hfit : rate * ticks < 2 ^ 32
  · rw [wrap32_of_lt hfit, Nat.mul_div_cancel_left _ hrate, if_neg (by simp), if_pos hfit]
  · -- あふれた積は `2 ^ 32` 以上減るので、割り戻した値は小さくなる。
    have hsmall : wrap32 (rate * ticks) < rate * ticks := (wrap32_lt _).trans_le (Nat.not_lt.mp hfit)
    have hback : wrap32 (rate * ticks) / rate < ticks := (Nat.div_lt_iff_lt_mul hrate).mpr (by rw [Nat.mul_comm ticks]; exact hsmall)
    rw [if_pos (by omega), if_neg hfit]

theorem tick2nsTry_pos (hns : ns ≠ 0) : tick2nsTry rate ticks ns = pure ns := if_neg hns

/-- 一度得た積は、桁を落とすだけになる。 -/
theorem tick2nsLoop_keep (h : ns / 10 ^ k ≠ 0) : Calc.Runs (tick2nsLoop ticks k rate ns) (ns / 10 ^ k) := by
  induction k generalizing rate ns with
  | zero =>
      rw [pow_zero, Nat.div_one] at h ⊢
      rw [tick2nsLoop, tick2nsTry_pos h, Calc.runs_pure]
  | succ k ih =>
      have hns : ns ≠ 0 := by
        rintro rfl
        simp at h
      rw [pow_succ', ← Nat.div_div_eq_div_mul] at h ⊢
      rw [tick2nsLoop, tick2nsTry_pos hns, Calc.runs_bind]
      exact ⟨ns, Calc.runs_pure.mpr rfl, ih h⟩

/-- 最初に収まる積の桁を落とした値。 -/
def TickNs (rate ticks k ns : Nat) : Prop :=
  ∃ j ≤ k, (∀ i < j, 2 ^ 32 ≤ rate / 10 ^ i * ticks) ∧ rate / 10 ^ j * ticks < 2 ^ 32 ∧ ns = rate / 10 ^ j * ticks / 10 ^ (k - j)

theorem tick2nsLoop_zero (hrate : rate / 10 ^ k ≠ 0) (hlt : rate < 2 ^ 32) : Calc.Runs (tick2nsLoop 0 k rate 0) 0 := by
  induction k generalizing rate with
  | zero =>
      have h := tick2nsTry_zero 0 (Nat.pos_of_ne_zero (by simpa using hrate)) hlt
      simpa [tick2nsLoop] using h
  | succ k ih =>
      have hpos : 0 < rate := by
        apply Nat.pos_of_ne_zero
        rintro rfl
        simp at hrate
      rw [pow_succ', ← Nat.div_div_eq_div_mul] at hrate
      have h := tick2nsTry_zero 0 hpos hlt
      simp only [tick2nsLoop, Calc.runs_bind]
      exact ⟨0, by simpa using h, ih hrate (by omega)⟩

/-- 有効数字が `10 ^ k` より小さくなければ零除算はなく、落とした桁の積が収まれば結果は `TickNs` である。 -/
theorem tick2nsLoop_runs (hrate : rate / 10 ^ k ≠ 0) (hlt : rate < 2 ^ 32) (hfit : rate / 10 ^ k * ticks < 2 ^ 32) :
    ∃ ns, Calc.Runs (tick2nsLoop ticks k rate 0) ns ∧ TickNs rate ticks k ns := by
  cases ticks with
  | zero => exact ⟨0, tick2nsLoop_zero hrate hlt, 0, Nat.zero_le _, fun i hi => absurd hi (Nat.not_lt_zero i), by simp, by simp⟩
  | succ t =>
      induction k generalizing rate with
      | zero =>
          rw [pow_zero, Nat.div_one] at hrate hfit
          have h := tick2nsTry_zero (t + 1) (Nat.pos_of_ne_zero hrate) hlt
          rw [if_pos hfit] at h
          exact ⟨_, h, 0, le_rfl, fun i hi => absurd hi (Nat.not_lt_zero i), by simpa using hfit, by simp⟩
      | succ k ih =>
          have hpos : 0 < rate := by
            apply Nat.pos_of_ne_zero
            rintro rfl
            simp at hrate
          have h := tick2nsTry_zero (t + 1) hpos hlt
          by_cases hnow : rate * (t + 1) < 2 ^ 32
          · rw [if_pos hnow] at h
            have hge : rate / 10 ^ (k + 1) ≤ rate * (t + 1) / 10 ^ (k + 1) :=
              Nat.div_le_div_right (Nat.le_mul_of_pos_right _ (Nat.succ_pos t))
            have hkeep : rate * (t + 1) / 10 ^ (k + 1) ≠ 0 := ((Nat.pos_of_ne_zero hrate).trans_le hge).ne'
            refine ⟨rate * (t + 1) / 10 ^ (k + 1), ?_, 0, Nat.zero_le _, fun i hi => absurd hi (Nat.not_lt_zero i), ?_, ?_⟩
            · rw [pow_succ', ← Nat.div_div_eq_div_mul] at hkeep ⊢
              rw [tick2nsLoop, Calc.runs_bind]
              exact ⟨_, h, tick2nsLoop_keep hkeep⟩
            · simpa using hnow
            · simp
          · rw [if_neg hnow] at h
            rw [pow_succ', ← Nat.div_div_eq_div_mul] at hrate hfit
            obtain ⟨ns, hrun, j, hj, hover, hok, hns⟩ := ih hrate (by omega) hfit
            have hshift : ∀ i, rate / 10 ^ (i + 1) = rate / 10 / 10 ^ i := fun i => by
              rw [pow_succ', ← Nat.div_div_eq_div_mul]
            refine ⟨ns, ?_, j + 1, by omega, fun i hi => ?_, ?_, ?_⟩
            · rw [tick2nsLoop, Calc.runs_bind]
              exact ⟨0, h, by simpa using hrun⟩
            · cases i with
              | zero => simpa using Nat.not_lt.mp hnow
              | succ i =>
                  rw [hshift]
                  exact hover i (by omega)
            · rw [hshift]
              exact hok
            · rw [hshift, hns, Nat.add_sub_add_right]

theorem tick2nsScale_eq (h : ns * 10 ^ k < 2 ^ 32) : tick2nsScale k ns = ns * 10 ^ k := by
  induction k generalizing ns with
  | zero => simp [tick2nsScale]
  | succ k ih =>
      have hpow : ns * 10 ^ (k + 1) = ns * 10 * 10 ^ k := by rw [pow_succ']; ring
      have hle : ns * 10 ≤ ns * 10 * 10 ^ k := Nat.le_mul_of_pos_right _ (by positivity)
      rw [hpow] at h ⊢
      rw [tick2nsScale, wrap32_of_lt (by omega), ih h]

/-! ## 格納した周期 -/

/-- `ns` は、周期 `q` の `ticks` 倍を、収まるように桁を落として計算した値である。 -/
def Tick2nsExact (q : Qtime) (ticks ns : Nat) : Prop :=
  if q.timerScale < -9 then TickNs q.timerRate ticks (-9 - q.timerScale).toNat ns
  else ns = q.timerRate * ticks * 10 ^ (9 + q.timerScale).toNat

variable {freq : Nat}

/-- 整数の周期が 2 ナノ秒で、積が 32 ビットからあふれる。 -/
def PeriodOverflows (freq ticks : Nat) : Prop := 500000000 < freq ∧ freq < 500000010 ∧ 2 ^ 31 ≤ ticks

instance (freq ticks : Nat) : Decidable (PeriodOverflows freq ticks) := inferInstanceAs (Decidable (_ ∧ _ ∧ _))

/-- ナノ秒単位の整数の周期。 -/
def periodNs (freq : Nat) : Nat := 10 ^ (9 - droppedDigits freq) / keptFreq freq

theorem periodNs_pos (h : 1 ≤ freq) (h9 : freq ≤ 10 ^ 9) : 0 < periodNs freq := by
  apply Nat.div_pos _ (keptFreq_pos h)
  unfold keptFreq droppedDigits
  split <;> omega

/-- 整数の周期の積は、一つの場合を除いて 32 ビットに収まる。 -/
theorem periodNs_mul_lt (h : 1 ≤ freq) (h9 : freq ≤ 10 ^ 9) (ht : ticks < 2 ^ 32) (hdur : ticks * 10 ^ 9 < 2 ^ 32 * freq)
    (hno : ¬ PeriodOverflows freq ticks) : periodNs freq * ticks < 2 ^ 32 := by
  have hdiv := Nat.div_mul_le_self (10 ^ (9 - droppedDigits freq)) (keptFreq freq)
  have hlong : ulongMax / 10 = 429496729 := rfl
  change periodNs freq * keptFreq freq ≤ _ at hdiv
  by_cases hbig : freq > ulongMax / 10
  · -- 捨てた桁があるとき、整数の周期は 1 か 2 である。
    simp only [keptFreq, droppedDigits, if_pos hbig] at hdiv
    have hp : periodNs freq ≤ 2 := by
      by_contra hp
      have hmul : 3 * (freq / 10) ≤ periodNs freq * (freq / 10) := Nat.mul_le_mul_right _ (by omega)
      omega
    have h2 : periodNs freq = 2 → freq / 10 ≤ 50000000 := by
      intro h2
      rw [h2] at hdiv
      omega
    unfold PeriodOverflows at hno
    interval_cases hper : periodNs freq
    · omega
    · omega
    · have := h2 rfl
      omega
  · simp only [keptFreq, droppedDigits, if_neg hbig] at hdiv
    by_contra hge
    have hmul : periodNs freq * freq * ticks ≤ 10 ^ 9 * ticks := Nat.mul_le_mul_right _ hdiv
    have hge' : 2 ^ 32 * freq ≤ periodNs freq * ticks * freq := Nat.mul_le_mul_right _ (Nat.not_lt.mp hge)
    have hcomm : periodNs freq * freq * ticks = periodNs freq * ticks * freq := by ring
    omega

/-- 桁を落としきった有効数字は、整数の周期である。 -/
theorem rate_div_pow {N : Nat} (hN : 9 ≤ N + droppedDigits freq) :
    10 ^ N / keptFreq freq / 10 ^ (N + droppedDigits freq - 9) = periodNs freq := by
  have hd : droppedDigits freq ≤ 1 := by
    unfold droppedDigits
    split <;> omega
  have hpow : (10 : Nat) ^ N = 10 ^ (9 - droppedDigits freq) * 10 ^ (N + droppedDigits freq - 9) := by
    rw [← pow_add]
    congr 1
    omega
  rw [Nat.div_div_eq_div_mul, hpow, Nat.mul_div_mul_right _ _ (by positivity), periodNs]

/-- 九桁に満たないうちに割り切れた有効数字。 -/
theorem rate_mul_pow {N : Nat} (h : 1 ≤ freq) (hN : N + droppedDigits freq < 9) (hstop : InvertStops (keptFreq freq) N) :
    10 ^ N / keptFreq freq * 10 ^ (9 - (N + droppedDigits freq)) = periodNs freq := by
  have hpos := keptFreq_pos h
  have hsmall : (10 : Nat) ^ N / keptFreq freq < ulongMax / 10 - 10 := by
    calc (10 : Nat) ^ N / keptFreq freq ≤ 10 ^ N := Nat.div_le_self _ _
      _ ≤ 10 ^ 8 := Nat.pow_le_pow_right (by decide) (by omega)
      _ < ulongMax / 10 - 10 := by decide
  have hdvd : keptFreq freq ∣ 10 ^ N := Nat.dvd_of_mod_eq_zero (hstop.resolve_left (by omega))
  have hpow : (10 : Nat) ^ (9 - droppedDigits freq) = 10 ^ N * 10 ^ (9 - (N + droppedDigits freq)) := by
    rw [← pow_add]
    congr 1
    omega
  rw [periodNs, hpow, Nat.mul_comm, Nat.mul_comm (10 ^ N), Nat.mul_div_assoc _ hdvd]

theorem TickNs.le (h : TickNs rate ticks k ns) : ns * 10 ^ k ≤ rate * ticks := by
  obtain ⟨j, hj, _, _, rfl⟩ := h
  have hpow : (10 : Nat) ^ k = 10 ^ (k - j) * 10 ^ j := by
    rw [← pow_add]
    congr 1
    omega
  calc rate / 10 ^ j * ticks / 10 ^ (k - j) * 10 ^ k = rate / 10 ^ j * ticks / 10 ^ (k - j) * 10 ^ (k - j) * 10 ^ j := by
        rw [hpow]; ring
    _ ≤ rate / 10 ^ j * ticks * 10 ^ j := Nat.mul_le_mul_right _ (Nat.div_mul_le_self _ _)
    _ = rate / 10 ^ j * 10 ^ j * ticks := by ring
    _ ≤ rate * ticks := Nat.mul_le_mul_right _ (Nat.div_mul_le_self _ _)

theorem TickNs.pos (h : TickNs rate ticks k ns) (hrate : rate / 10 ^ k ≠ 0) (ht : ticks ≠ 0) : ns ≠ 0 := by
  obtain ⟨j, hj, _, _, rfl⟩ := h
  have hpow : (10 : Nat) ^ k = 10 ^ j * 10 ^ (k - j) := by
    rw [← pow_add]
    congr 1
    omega
  rw [hpow, ← Nat.div_div_eq_div_mul] at hrate
  have hle : rate / 10 ^ j / 10 ^ (k - j) ≤ rate / 10 ^ j * ticks / 10 ^ (k - j) :=
    Nat.div_le_div_right (Nat.le_mul_of_pos_right _ (Nat.pos_of_ne_zero ht))
  exact ((Nat.pos_of_ne_zero hrate).trans_le hle).ne'

theorem timerTick2ns_eq (rate N d ticks : Nat) : timerTick2ns ⟨rate, -(d : Int) - N⟩ ticks =
    (tick2nsLoop ticks (N + d - 9) rate 0 >>= fun ns => pure (tick2nsScale (9 - (N + d)) ns)) := by
  have hpos : (-9 - (-(d : Int) - N)).toNat = N + d - 9 := by omega
  have hneg : (-(-9 - (-(d : Int) - N))).toNat = 9 - (N + d) := by omega
  simp only [timerTick2ns, hpos, hneg]

/-- 積が収まるときの `timer_tick2ns()`。 -/
theorem timerTick2ns_runs {N : Nat} (h : 1 ≤ freq) (h9 : freq ≤ 10 ^ 9) (hlt : 10 ^ N / keptFreq freq < 2 ^ 32)
    (hstop : InvertStops (keptFreq freq) N) (hfit : periodNs freq * ticks < 2 ^ 32) :
    ∃ ns, Calc.Runs (timerTick2ns ⟨10 ^ N / keptFreq freq, -(droppedDigits freq : Int) - N⟩ ticks) ns ∧
      Tick2nsExact ⟨10 ^ N / keptFreq freq, -(droppedDigits freq : Int) - N⟩ ticks ns ∧
      ns * keptFreq freq ≤ ticks * 10 ^ (9 - droppedDigits freq) ∧ (ticks ≠ 0 → ns ≠ 0) := by
  have hper := periodNs_pos h h9
  rw [timerTick2ns_eq]
  by_cases hP : 9 ≤ N + droppedDigits freq
  · have hrate := rate_div_pow hP
    rw [← hrate] at hfit hper
    obtain ⟨ns, hrun, hns⟩ := tick2nsLoop_runs hper.ne' hlt hfit
    refine ⟨ns, ?_, ?_, ?_, hns.pos hper.ne'⟩
    · rw [Nat.sub_eq_zero_of_le hP, Calc.runs_bind]
      exact ⟨ns, hrun, Calc.runs_pure.mpr rfl⟩
    · have hk : (-9 - (-(droppedDigits freq : Int) - N)).toNat = N + droppedDigits freq - 9 := by omega
      unfold Tick2nsExact
      dsimp only
      split
      · rwa [hk]
      · have hz : N + droppedDigits freq - 9 = 0 := by omega
        rw [hz] at hns
        obtain ⟨j, hj, _, _, rfl⟩ := hns
        obtain rfl : j = 0 := by omega
        rw [show (9 + (-(droppedDigits freq : Int) - N)).toNat = 0 by omega]
        simp
    · have hle := hns.le
      have hd : droppedDigits freq ≤ 1 := by
        unfold droppedDigits
        split <;> omega
      have hpow : (10 : Nat) ^ N = 10 ^ (9 - droppedDigits freq) * 10 ^ (N + droppedDigits freq - 9) := by
        rw [← pow_add]
        congr 1
        omega
      apply Nat.le_of_mul_le_mul_right _ (show 0 < 10 ^ (N + droppedDigits freq - 9) by positivity)
      calc ns * keptFreq freq * 10 ^ (N + droppedDigits freq - 9)
          = ns * 10 ^ (N + droppedDigits freq - 9) * keptFreq freq := by ring
        _ ≤ 10 ^ N / keptFreq freq * ticks * keptFreq freq := Nat.mul_le_mul_right _ hle
        _ = 10 ^ N / keptFreq freq * keptFreq freq * ticks := by ring
        _ ≤ 10 ^ N * ticks := Nat.mul_le_mul_right _ (Nat.div_mul_le_self _ _)
        _ = ticks * 10 ^ (9 - droppedDigits freq) * 10 ^ (N + droppedDigits freq - 9) := by rw [hpow]; ring
  · have hP : N + droppedDigits freq < 9 := by omega
    have hrate := rate_mul_pow h hP hstop
    rw [← hrate] at hfit hper
    have hpos : 0 < 10 ^ N / keptFreq freq := Nat.pos_of_mul_pos_right hper
    have hcomm : 10 ^ N / keptFreq freq * 10 ^ (9 - (N + droppedDigits freq)) * ticks =
        10 ^ N / keptFreq freq * ticks * 10 ^ (9 - (N + droppedDigits freq)) := by ring
    rw [hcomm] at hfit
    have hsmall : 10 ^ N / keptFreq freq * ticks < 2 ^ 32 := (Nat.le_mul_of_pos_right _ (by positivity)).trans_lt hfit
    have htry := tick2nsTry_zero ticks hpos hlt
    rw [if_pos hsmall] at htry
    refine ⟨10 ^ N / keptFreq freq * ticks * 10 ^ (9 - (N + droppedDigits freq)), ?_, ?_, ?_, fun ht => ?_⟩
    · rw [Nat.sub_eq_zero_of_le hP.le, tick2nsLoop, Calc.runs_bind]
      exact ⟨_, htry, Calc.runs_pure.mpr (tick2nsScale_eq hfit)⟩
    · unfold Tick2nsExact
      dsimp only
      rw [if_neg (by omega), show (9 + (-(droppedDigits freq : Int) - N)).toNat = 9 - (N + droppedDigits freq) by omega]
    · rw [← hcomm, hrate]
      calc periodNs freq * ticks * keptFreq freq = periodNs freq * keptFreq freq * ticks := by ring
        _ ≤ 10 ^ (9 - droppedDigits freq) * ticks := Nat.mul_le_mul_right _ (Nat.div_mul_le_self _ _)
        _ = ticks * 10 ^ (9 - droppedDigits freq) := Nat.mul_comm _ _
    · have hne : 10 ^ N / keptFreq freq * ticks ≠ 0 := Nat.mul_ne_zero hpos.ne' ht
      exact Nat.mul_ne_zero hne (by positivity)

/-- 積があふれる場合の周期は `2 * 10 ^ -9` であり、結果は 0 になる。 -/
theorem timerTick2ns_overflows {N : Nat} (hp : PeriodOverflows freq ticks) (ht : ticks < 2 ^ 32) (hstop : InvertStops (keptFreq freq) N)
    (hmin : ∀ m < N, ¬ InvertStops (keptFreq freq) m) :
    Calc.Runs (timerTick2ns ⟨10 ^ N / keptFreq freq, -(droppedDigits freq : Int) - N⟩ ticks) 0 := by
  obtain ⟨h1, h2, h3⟩ := hp
  have hbig : freq > ulongMax / 10 := by
    have hlong : ulongMax / 10 = 429496729 := rfl
    omega
  have hf : keptFreq freq = 50000000 := by
    rw [keptFreq, if_pos hbig]
    omega
  have hd : droppedDigits freq = 1 := if_pos hbig
  rw [hf] at hstop hmin ⊢
  have hN : N = 8 := by
    have hearly : ∀ m < 8, ¬ InvertStops 50000000 m := by decide
    have hat : InvertStops 50000000 8 := by decide
    rcases Nat.lt_trichotomy N 8 with hlt | heq | hgt
    · exact absurd hstop (hearly N hlt)
    · exact heq
    · exact absurd hat (hmin 8 hgt)
  subst hN
  rw [timerTick2ns_eq, hd, Calc.runs_bind]
  have htry := tick2nsTry_zero ticks (show 0 < 2 by decide) (by decide)
  rw [if_neg (by omega)] at htry
  exact ⟨0, htry, Calc.runs_pure.mpr rfl⟩

/-- `timer_tick2ns()` も `timer_ns2tick()` も零除算をしない。結果は実際の時間を超えず、桁を落とした積に等しい。ただし、捨てた桁のために
整数の周期が 2 になる周波数で `ticks` が `2 ^ 31` に達すると、積があふれて 0 を返す。 -/
theorem timer_tick2ns_accurate (h : 1 ≤ freq) (h9 : freq ≤ 10 ^ 9) {fuel : Nat} {q : Qtime}
    (hq : Calc.Runs (invertTimerFreq fuel freq) (some q)) (ht : ticks < 2 ^ 32) (hdur : ticks * 10 ^ 9 < 2 ^ 32 * freq) :
    (∃ ns, Calc.Runs (timerTick2ns q ticks) ns ∧ ns * (keptFreq freq * 10 ^ droppedDigits freq) ≤ ticks * 10 ^ 9 ∧
      if PeriodOverflows freq ticks then ns = 0 else Tick2nsExact q ticks ns) ∧
      ∀ ns, ∃ t, Calc.Runs (timerNs2tick q ns) t := by
  obtain ⟨N, hN, hstop, hmin, hrun⟩ := invertTimerFreq_stops h (h9.trans_lt (by decide))
  obtain rfl := invertTimerFreq_unique h hq hrun
  have hlt := rate_lt (keptFreq_pos h) hmin
  constructor
  · by_cases hp : PeriodOverflows freq ticks
    · refine ⟨0, timerTick2ns_overflows hp ht hstop hmin, by simp, ?_⟩
      rw [if_pos hp]
    · obtain ⟨ns, hns, hexact, hle, _⟩ := timerTick2ns_runs h h9 hlt hstop (periodNs_mul_lt h h9 ht hdur hp)
      refine ⟨ns, hns, ?_, ?_⟩
      · have hd : droppedDigits freq ≤ 9 := by
          unfold droppedDigits
          split <;> omega
        calc ns * (keptFreq freq * 10 ^ droppedDigits freq) = ns * keptFreq freq * 10 ^ droppedDigits freq := by ring
          _ ≤ ticks * 10 ^ (9 - droppedDigits freq) * 10 ^ droppedDigits freq := Nat.mul_le_mul_right _ hle
          _ = ticks * 10 ^ 9 := by rw [Nat.mul_assoc, ← pow_add, Nat.sub_add_cancel hd]
      · rwa [if_neg hp]
  · intro ns
    have hone : periodNs freq * 1 < 2 ^ 32 := by
      have hle : periodNs freq ≤ 10 ^ (9 - droppedDigits freq) := Nat.div_le_self _ _
      have hpow : (10 : Nat) ^ (9 - droppedDigits freq) ≤ 10 ^ 9 := Nat.pow_le_pow_right (by decide) (Nat.sub_le _ _)
      omega
    obtain ⟨t, hrunt, _, _, hpos⟩ := timerTick2ns_runs h h9 hlt hstop hone
    refine ⟨ns / t, Calc.runs_bind.mpr ⟨t, hrunt, Calc.runs_div.mpr ⟨hpos one_ne_zero, rfl⟩⟩⟩

theorem timer_tick2ns_mhz :
    (∃ ns, Calc.Runs (timerTick2ns ⟨1515151515, -17⟩ 6600) ns ∧
      ns * (keptFreq 66000000 * 10 ^ droppedDigits 66000000) ≤ 6600 * 10 ^ 9 ∧
      if PeriodOverflows 66000000 6600 then ns = 0 else Tick2nsExact ⟨1515151515, -17⟩ 6600 ns) ∧
      ∀ ns, ∃ t, Calc.Runs (timerNs2tick ⟨1515151515, -17⟩ ns) t :=
  timer_tick2ns_accurate (by decide) (by decide) (show Calc.Runs (invertTimerFreq 20 66000000) (some ⟨1515151515, -17⟩) from rfl)
    (by decide) (by decide)

/-- 2 ナノ秒の周期の `2147483686` 倍は、実際の時間は 32 ビットに収まるのに 0 になる。 -/
theorem timer_tick2ns_overflow :
    ∃ q, Calc.Runs (invertTimerFreq 20 500000009) (some q) ∧ 2147483686 * 10 ^ 9 < 2 ^ 32 * 500000009 ∧
      Calc.Runs (timerTick2ns q 2147483686) 0 ∧ ¬ Tick2nsExact q 2147483686 0 :=
  ⟨⟨2, -9⟩, by unfold Calc.Runs; rfl, by decide, by unfold Calc.Runs; rfl, by simp [Tick2nsExact]⟩

end

end Imx6Bsp.Startup
