import Imx6Bsp.Devnp.Compensation

/-!
# PTP の時計の補正が正しい範囲

補正が周波数より小さいうちは、どの除算も安全で、最もよい候補を選ぶ。周波数以上の補正は、余りではなく
`offset - offset / freq` を使うので、0 で割るか一周するか、余りのない補正を足し過ぎる。
-/

namespace Imx6Bsp.Devnp

open Imx6Bsp.Lib

/-! ## 候補の良さ -/

/-- 候補 `i` の誤差。周期は切り捨てで求めるので、補正が足りなくなることはない。 -/
def compOver (freq offset i : Nat) : Nat := freq * i / (freq * i / offset) - offset

/-- 誤差が最も小さい候補のうち最初のもの。 -/
structure IsBest (freq offset n i : Nat) : Prop where
  range : 1 ≤ i ∧ i ≤ n
  least : ∀ j, 1 ≤ j → j ≤ n → compOver freq offset i ≤ compOver freq offset j
  first : ∀ j, 1 ≤ j → j < i → compOver freq offset i < compOver freq offset j

theorem IsBest.unique {freq offset n i i' : Nat} (h : IsBest freq offset n i) (h' : IsBest freq offset n i') : i = i' := by
  rcases Nat.lt_trichotomy i i' with hlt | heq | hgt
  · exact absurd (h'.first i h.range.1 hlt) (Nat.not_lt.mpr (h.least i' h'.range.1 h'.range.2))
  · exact heq
  · exact absurd (h.first i' h'.range.1 hgt) (Nat.not_lt.mpr (h'.least i h.range.1 h.range.2))

section

variable {freq offset : Nat}

theorem compPeriod_pos (ho : 0 < offset) (hf : offset < freq) {i : Nat} (hi : 1 ≤ i) : 0 < freq * i / offset :=
  Nat.div_pos (hf.le.trans (Nat.le_mul_of_pos_right freq hi)) ho

theorem maxErr_lt_word : maxErr < Calc.word := by
  rw [maxErr, Calc.word]; omega

theorem offset_le_test {i t : Nat} (ht : 0 < t)
    (hle : t ≤ freq * i / offset) : offset ≤ freq * i / t := by
  rw [Nat.le_div_iff_mul_le ht]
  calc offset * t ≤ offset * (freq * i / offset) := Nat.mul_le_mul_left _ hle
    _ ≤ freq * i := Nat.mul_div_le _ _

/-! ## 繰り返し -/

/-- `i` 番目に入る前の `inc_cor`、`cor_period`、`min_err`。 -/
def LoopInv (freq offset i : Nat) (b : CompBest) : Prop :=
  (i = 1 ∧ b.minErr = maxErr) ∨
  (1 < i ∧ IsBest freq offset (i - 1) b.incCor ∧ b.corPeriod = freq * b.incCor / offset ∧
    b.minErr = compOver freq offset b.incCor ∧ 0 < b.minErr)

theorem LoopInv.zero {i : Nat} {b : CompBest} (h : LoopInv freq offset i b) (hi : 1 ≤ i) {n : Nat} (hn : i ≤ n)
    (h0 : compOver freq offset i = 0) : IsBest freq offset n i where
  range := ⟨hi, hn⟩
  least := fun j _ _ => by rw [h0]; exact Nat.zero_le _
  first := by
    intro j hj hlt
    rw [h0]
    rcases h with ⟨rfl, -⟩ | ⟨-, hb, -, hm, hpos⟩
    · omega
    · exact (hm ▸ hpos).trans_le (hb.least j hj (by omega))

theorem LoopInv.better {i : Nat} {b : CompBest} (h : LoopInv freq offset i b) (hi : 1 ≤ i)
    (h0 : compOver freq offset i ≠ 0) (hlt : compOver freq offset i < b.minErr) :
    LoopInv freq offset (i + 1) ⟨i, freq * i / offset, compOver freq offset i⟩ := by
  refine .inr ⟨by omega, ?_, rfl, rfl, Nat.pos_of_ne_zero h0⟩
  have hfirst : ∀ j, 1 ≤ j → j < i → compOver freq offset i < compOver freq offset j := by
    intro j hj hji
    rcases h with ⟨rfl, -⟩ | ⟨-, hb, -, hm, -⟩
    · omega
    · exact (hm ▸ hlt).trans_le (hb.least j hj (by omega))
  refine ⟨⟨hi, by simp⟩, fun j hj hji => ?_, hfirst⟩
  rcases Nat.lt_or_ge j i with hlt' | hge
  · exact (hfirst j hj hlt').le
  · rw [show j = i by simp only [Nat.add_sub_cancel] at hji; omega]

theorem LoopInv.worse {i : Nat} {b : CompBest} (h : LoopInv freq offset i b) (hlt : ¬compOver freq offset i < b.minErr)
    (hmax : compOver freq offset i < maxErr) : LoopInv freq offset (i + 1) b := by
  rcases h with ⟨rfl, hm⟩ | ⟨hi, hb, hp, hm, hpos⟩
  · rw [hm] at hlt; exact absurd hmax hlt
  · refine .inr ⟨by omega, ⟨⟨hb.range.1, by have := hb.range.2; omega⟩, fun j hj hji => ?_, hb.first⟩, hp, hm, hpos⟩
    rcases Nat.lt_or_ge j i with hlt' | hge
    · exact hb.least j hj (by omega)
    · rw [show j = i by simp only [Nat.add_sub_cancel] at hji; omega, ← hm]
      exact Nat.not_lt.mp hlt

/-- 補正が周波数より小さければ、繰り返しは安全で、最もよい候補と、その周期を残す。 -/
theorem compLoop_runs (ho : 0 < offset) (hf : offset < freq) {n : Nat} (hn : freq * n < maxErr) (k i : Nat) (b : CompBest)
    (hk : i + k = n + 1) (hi : 1 ≤ i) (h : LoopInv freq offset i b) :
    ∃ b', (compLoop freq offset offset k i b).Runs b' ∧
      (1 ≤ n → IsBest freq offset n b'.incCor ∧ b'.corPeriod = freq * b'.incCor / offset) := by
  induction k generalizing i b with
  | zero =>
      refine ⟨b, Calc.runs_pure.mpr rfl, fun hn1 => ?_⟩
      rcases h with ⟨rfl, -⟩ | ⟨-, hb, hp, -⟩
      · omega
      · rw [show n = i - 1 by omega]
        exact ⟨hb, hp⟩
  | succ k ih =>
      have hin : i ≤ n := by omega
      have hmul : freq * i < maxErr := (Nat.mul_le_mul_left freq hin).trans_lt hn
      have hword : freq * i < Calc.word := hmul.trans maxErr_lt_word
      have htest : freq * i / (freq * i / offset) < maxErr := (Nat.div_le_self _ _).trans_lt hmul
      have hle := offset_le_test (compPeriod_pos ho hf hi) (Nat.le_refl _)
      have hmax : compOver freq offset i < maxErr := (Nat.sub_le _ _).trans_lt htest
      have head : ∀ b', Calc.Runs (if compOver freq offset i = 0 then pure { b with incCor := i, corPeriod := freq * i / offset }
          else if compOver freq offset i < b.minErr then
            compLoop freq offset offset k (i + 1) ⟨i, freq * i / offset, compOver freq offset i⟩
          else compLoop freq offset offset k (i + 1) b) b' → (compLoop freq offset offset (k + 1) i b).Runs b' := by
        intro b' hb'
        simp only [compLoop, Calc.runs_bind, Calc.runs_mul, Calc.runs_div]
        refine ⟨freq * i, ⟨hword, rfl⟩, freq * i / offset, ⟨ho.ne', rfl⟩, freq * i, ⟨hword, rfl⟩,
          freq * i / (freq * i / offset), ⟨(compPeriod_pos ho hf hi).ne', rfl⟩, compOver freq offset i, ?_, hb'⟩
        exact Calc.runs_sub.mpr ⟨hle, rfl⟩
      by_cases h0 : compOver freq offset i = 0
      · refine ⟨{ b with incCor := i, corPeriod := freq * i / offset }, head _ ?_, fun _ => ⟨h.zero hi hin h0, rfl⟩⟩
        rw [if_pos h0]
        exact Calc.runs_pure.mpr rfl
      · by_cases hlt : compOver freq offset i < b.minErr
        · obtain ⟨b', hb', hbest⟩ := ih (i + 1) _ (by omega) (by omega) (h.better hi h0 hlt)
          refine ⟨b', head _ ?_, hbest⟩
          rw [if_neg h0, if_pos hlt]; exact hb'
        · obtain ⟨b', hb', hbest⟩ := ih (i + 1) b (by omega) (by omega) (h.worse hlt hmax)
          refine ⟨b', head _ ?_, hbest⟩
          rw [if_neg h0, if_neg hlt]; exact hb'

/-! ## 誤差 -/

theorem compGap_tried (ho : 0 < offset) (hf : offset < freq) {j : Nat} (hj : 1 ≤ j) :
    compGap freq offset j (freq * j / offset) = compOver freq offset j := by
  have hle := offset_le_test (compPeriod_pos ho hf hj) (Nat.le_refl _)
  rw [compGap, compOver, Nat.mod_eq_of_lt hf]
  omega

/-- 短い周期は補正し過ぎ、長い周期は補正が足りない。どちらも境目の周期が最もよい。 -/
theorem compGap_ge (hf : offset < freq) {j t : Nat} (ht : 0 < t) :
    compOver freq offset j ≤ compGap freq offset j t ∨
      offset - freq * j / (freq * j / offset + 1) ≤ compGap freq offset j t := by
  rw [compGap, compOver, Nat.mod_eq_of_lt hf]
  rcases Nat.lt_or_ge (freq * j / offset) t with hlt | hge
  · have : freq * j / t ≤ freq * j / (freq * j / offset + 1) := Nat.div_le_div_left hlt (Nat.succ_pos _)
    exact .inr (by omega)
  · have : freq * j / (freq * j / offset) ≤ freq * j / t := Nat.div_le_div_left hge ht
    exact .inl (by omega)

theorem compGap_below (ho : 0 < offset) (hf : offset < freq) {j : Nat} :
    compGap freq offset j (freq * j / offset + 1) = offset - freq * j / (freq * j / offset + 1) := by
  have hlt : freq * j / (freq * j / offset + 1) < offset := by
    rw [Nat.div_lt_iff_lt_mul (Nat.succ_pos _)]
    have := Nat.lt_div_mul_add ho (a := freq * j)
    calc freq * j < freq * j / offset * offset + offset := this
      _ = offset * (freq * j / offset + 1) := by ring
  rw [compGap, Nat.mod_eq_of_lt hf]
  omega

end

/-! ## 欄 -/

theorem incField_or (p c : Nat) : incField (p ||| c <<< 8 % Calc.word) = p % 128 := by
  have hc : c <<< 8 % Calc.word % 128 = 0 := by
    rw [Nat.shiftLeft_eq, Calc.word]; omega
  rw [incField, show 128 = 2 ^ 7 by rfl, Nat.or_mod_two_pow, show 2 ^ 7 = 128 by rfl, hc, Nat.or_zero]

theorem incCorrField_or {p : Nat} (hp : p < 128) (c : Nat) : incCorrField (p ||| c <<< 8 % Calc.word) = c % 128 := by
  have hdiv : (p ||| c <<< 8 % Calc.word) / 256 = p / 256 ||| c <<< 8 % Calc.word / 256 := by
    have := Nat.shiftRight_or_distrib (i := 8) (a := p) (b := c <<< 8 % Calc.word)
    simpa only [Nat.shiftRight_eq_div_pow] using this
  rw [incCorrField, hdiv, Nat.div_eq_of_lt (by omega), Nat.zero_or, Nat.shiftLeft_eq, Calc.word]
  omega

/-! ## 補正が周波数より小さい場合 -/

theorem mul_clockFreq_lt (period : Nat) : mx6qClockFreq period * period < maxErr :=
  (Nat.div_mul_le_self 1000000000 period).trans_lt (by rw [maxErr]; omega)

/-- 最もよい候補 `i` を、その周期とともに書く。 -/
theorem ptpSetCompensation_small {period offset : Nat} (hp : 1 ≤ period) (ho : 0 < offset) (hf : offset < mx6qClockFreq period)
    (ops : Bool) :
    ∃ i, IsBest (mx6qClockFreq period) offset period i ∧
      (ptpSetCompensation period offset ops).Runs
        (.set (period ||| (if ops then (period + i) % Calc.word else period - i) <<< 8 % Calc.word)
          (mx6qClockFreq period * i / offset)) := by
  obtain ⟨b, hrun, hbest⟩ := compLoop_runs ho hf (mul_clockFreq_lt period) period 1 ⟨period, 0, maxErr⟩ (by omega) (Nat.le_refl _)
    (.inl ⟨rfl, rfl⟩)
  obtain ⟨hbest, hper⟩ := hbest hp
  refine ⟨b.incCor, hbest, ?_⟩
  simp only [ptpSetCompensation, if_neg ho.ne']
  refine Calc.runs_bind.mpr ⟨0, Calc.runs_div.mpr ⟨by omega, (Nat.div_eq_of_lt hf).symm⟩, ?_⟩
  rw [if_neg (Nat.not_lt_zero _)]
  refine Calc.runs_bind.mpr ⟨period, by rw [compInc, if_neg (Nat.not_le.mpr hf)]; exact Calc.runs_pure.mpr rfl, ?_⟩
  refine Calc.runs_bind.mpr ⟨offset, Calc.runs_sub.mpr ⟨Nat.zero_le _, rfl⟩, ?_⟩
  refine Calc.runs_bind.mpr ⟨b, hrun, ?_⟩
  refine Calc.runs_bind.mpr ⟨if ops then (period + b.incCor) % Calc.word else period - b.incCor, ?_, ?_⟩
  · cases ops with
    | true => exact Calc.runs_pure.mpr rfl
    | false => exact Calc.runs_sub.mpr ⟨hbest.range.2, rfl⟩
  · rw [hper]
    exact Calc.runs_pure.mpr rfl

/-- 欄に収まるとき、書いたレジスタは候補 `i` を表す。収まらなければ、どの候補も表さない。 -/
theorem programs_iff {period offset i i' : Nat} (ho : 0 < offset) (hf : offset < mx6qClockFreq period) (ops : Bool)
    (hi : 1 ≤ i) (hip : i ≤ period) :
    Programs period offset ops (period ||| (if ops then (period + i) % Calc.word else period - i) <<< 8 % Calc.word)
      (mx6qClockFreq period * i / offset) i' ↔ i' = i ∧ period ≤ 127 ∧ (ops = true → period + i ≤ 127) := by
  have hper := compPeriod_pos ho hf hi
  have hq : offset / mx6qClockFreq period = 0 := Nat.div_eq_of_lt hf
  constructor
  · intro h
    have hbase := h.base
    rw [incField_or, hq] at hbase
    have hp : period % 128 = period := by
      cases ops with
      | true => simpa using hbase
      | false => simpa using hbase
    have hp' : period < 128 := by omega
    obtain ⟨h1, h2⟩ := h.range
    have hcor := h.cor
    rw [incField_or, hp] at h2
    rw [incCorrField_or hp', incField_or, hp] at hcor
    cases ops with
    | true =>
        simp only [if_true] at hcor
        rw [Nat.mod_eq_of_lt (show period + i < Calc.word by rw [Calc.word]; omega)] at hcor
        have hle : period + i ≤ 127 := by omega
        exact ⟨by omega, by omega, fun _ => hle⟩
    | false =>
        simp only [Bool.false_eq_true, if_false] at hcor
        exact ⟨by omega, by omega, nofun⟩
  · rintro ⟨rfl, hp, hc⟩
    have hp' : period < 128 := by omega
    have hmod : period % 128 = period := Nat.mod_eq_of_lt hp'
    refine ⟨?_, ?_, ?_, hper⟩
    · rw [incField_or, hq, hmod]
      cases ops <;> rfl
    · rw [incField_or, hmod]
      exact ⟨hi, hip⟩
    · rw [incCorrField_or hp', incField_or, hmod]
      cases ops with
      | true =>
          have := hc rfl
          simp only [if_true]
          rw [Nat.mod_eq_of_lt (show period + i' < Calc.word by rw [Calc.word]; omega), Nat.mod_eq_of_lt (by omega)]
      | false =>
          simp only [Bool.false_eq_true, if_false]
          omega

/-! ## 補正が周波数以上の場合 -/

/-- 受け付けた補正が周波数以上なら、安全でないか、余りを表さない。 -/
theorem not_compensates_large {period offset : Nat} (ops : Bool) {tried : Nat → Nat → Prop} (ho : 0 < offset)
    (hf : mx6qClockFreq period ≤ offset) (hacc : ¬mx6qClockFreq period / 2 < offset / mx6qClockFreq period)
    (htried : offset = mx6qClockFreq period → ∃ t, tried 1 t ∧ mx6qClockFreq period * 1 / t = 0) :
    ¬Compensates period offset ops tried := by
  generalize hF : mx6qClockFreq period = F at hf hacc htried
  rintro ⟨r, hr, hbest⟩
  simp only [ptpSetCompensation, if_neg ho.ne', hF] at hr
  obtain ⟨q, hq, hr⟩ := Calc.runs_bind.mp hr
  obtain ⟨hF0, rfl⟩ := Calc.runs_div.mp hq
  rw [if_neg hacc] at hr
  obtain ⟨inc, -, hr⟩ := Calc.runs_bind.mp hr
  obtain ⟨rem, -, hr⟩ := Calc.runs_bind.mp hr
  obtain ⟨b, hb, hr⟩ := Calc.runs_bind.mp hr
  obtain ⟨c, -, hr⟩ := Calc.runs_bind.mp hr
  have hr := Calc.runs_pure.mp hr
  obtain ⟨i, hi, hleast⟩ := hbest ho.ne' _ _ hr.symm
  cases inc with
  | zero =>
      -- 繰り返しに入らず、周期は 0 のままである。
      rw [← Calc.runs_pure.mp hb] at hi
      exact absurd hi.period (Nat.lt_irrefl 0)
  | succ k =>
      simp only [compLoop, Calc.runs_bind, Calc.runs_mul, Calc.runs_div, Calc.runs_sub] at hb
      obtain ⟨_, ⟨_, rfl⟩, tp, ⟨_, rfl⟩, _, ⟨_, rfl⟩, _, ⟨htp, rfl⟩, err, ⟨hle, rfl⟩, hb⟩ := hb
      have hdiv : F * 1 / (F * 1 / rem) ≤ F := (Nat.div_le_self _ _).trans (Nat.mul_one F).le
      have heq : offset = F := by omega
      have htp1 : F * 1 / rem = 1 := by
        by_contra hne
        have h2 : 2 ≤ F * 1 / rem := (Nat.two_le_iff _).mpr ⟨htp, hne⟩
        have := Nat.div_le_div_left h2 (by omega) (a := F * 1)
        omega
      have herr : F * 1 / (F * 1 / rem) - offset = 0 := by omega
      rw [if_pos herr] at hb
      rw [← Calc.runs_pure.mp hb] at hi hleast
      simp only [htp1] at hi hleast
      obtain ⟨t, ht, ht0⟩ := htried heq
      have hgap := hleast 1 t (Nat.le_refl _) (hi.range.1.trans hi.range.2) ht
      rw [hF, compGap, compGap, ht0, heq, Nat.mod_self, Nat.div_one] at hgap
      have := Nat.le_mul_of_pos_right F hi.range.1
      omega

/-! ## 正しい範囲 -/

/-- 補正が周波数より小さく、増分が両方の欄に収まる。 -/
structure CompFits (period offset : Nat) (ops : Bool) : Prop where
  small : offset < mx6qClockFreq period
  base : period ≤ 127
  cor : ops = true → ∀ i, IsBest (mx6qClockFreq period) offset period i → period + i ≤ 127

/-- 足りない側にも、選ばれた候補より近い組がない。 -/
def NoCloserBelow (period offset : Nat) : Prop :=
  ∀ i, IsBest (mx6qClockFreq period) offset period i → ∀ j, 1 ≤ j → j ≤ period →
    compOver (mx6qClockFreq period) offset i ≤
      offset - mx6qClockFreq period * j / (mx6qClockFreq period * j / offset + 1)

/-- 補正が 0 か、大きすぎて捨てられる。 -/
def Skipped (period offset : Nat) : Prop :=
  offset = 0 ∨ (mx6qClockFreq period ≠ 0 ∧ mx6qClockFreq period / 2 < offset / mx6qClockFreq period)

theorem Skipped.compensates {period offset : Nat} (h : Skipped period offset) (ops : Bool) (tried : Nat → Nat → Prop) :
    Compensates period offset ops tried := by
  by_cases ho : offset = 0
  · refine ⟨.set period 0, ?_, fun hne => absurd ho hne⟩
    simp only [ptpSetCompensation, if_pos ho]
    exact Calc.runs_pure.mpr rfl
  · obtain ⟨hF, hacc⟩ := h.resolve_left ho
    refine ⟨.ignored, ?_, fun _ incr corr he => by cases he⟩
    simp only [ptpSetCompensation, if_neg ho]
    refine Calc.runs_bind.mpr ⟨_, Calc.runs_div.mpr ⟨hF, rfl⟩, ?_⟩
    rw [if_pos hacc]
    exact Calc.runs_pure.mpr rfl

/-- 補正が周波数より小さいとき、正しいことは、欄に収まることと、候補の中で最もよいことである。 -/
theorem compensates_small_iff {period offset : Nat} (hp : 1 ≤ period) (ho : 0 < offset) (hf : offset < mx6qClockFreq period)
    (ops : Bool) (tried : Nat → Nat → Prop) :
    Compensates period offset ops tried ↔ CompFits period offset ops ∧
      ∀ i, IsBest (mx6qClockFreq period) offset period i → ∀ j t, 1 ≤ j → j ≤ period → tried j t →
        compOver (mx6qClockFreq period) offset i ≤ compGap (mx6qClockFreq period) offset j t := by
  obtain ⟨i, hi, hrun⟩ := ptpSetCompensation_small hp ho hf ops
  have hprog := fun i' => @programs_iff period offset i i' ho hf ops hi.range.1 hi.range.2
  constructor
  · rintro ⟨r, hr, hbest⟩
    cases hrun.symm.trans hr
    obtain ⟨i', hi', hleast⟩ := hbest ho.ne' _ _ rfl
    obtain ⟨rfl, hbase, hcor⟩ := (hprog i').mp hi'
    refine ⟨⟨hf, hbase, fun hops k hk => ?_⟩, fun k hk j t hj hjp ht => ?_⟩
    · rw [hk.unique hi]; exact hcor hops
    · rw [hk.unique hi, ← compGap_tried ho hf hi.range.1]
      refine hleast j t hj ?_ ht
      rwa [incField_or, Nat.mod_eq_of_lt (by omega)]
  · rintro ⟨hfits, hleast⟩
    refine ⟨_, hrun, fun _ incr corr he => ?_⟩
    cases he
    refine ⟨i, (hprog i).mpr ⟨rfl, hfits.base, fun hops => hfits.cor hops i hi⟩, fun j t hj hjp ht => ?_⟩
    rw [incField_or, Nat.mod_eq_of_lt (by have := hfits.base; omega)] at hjp
    rw [compGap_tried ho hf hi.range.1]
    exact hleast i hi j t hj hjp ht

/-- 試した組の中で、またどの周期も許した中で、安全に最もよい組を書く条件。 -/
theorem ptp_compensation_iff {period offset : Nat} (hp : 1 ≤ period) (ops : Bool) :
    (Compensates period offset ops (fun j t => t = mx6qClockFreq period * j / (offset % mx6qClockFreq period)) ↔
      Skipped period offset ∨ CompFits period offset ops) ∧
    (Compensates period offset ops (fun _ t => 0 < t) ↔
      Skipped period offset ∨ (CompFits period offset ops ∧ NoCloserBelow period offset)) := by
  by_cases hs : Skipped period offset
  · exact ⟨iff_of_true (hs.compensates ops _) (.inl hs), iff_of_true (hs.compensates ops _) (.inl hs)⟩
  · have ho : 0 < offset := Nat.pos_of_ne_zero fun h => hs (.inl h)
    rcases Nat.lt_or_ge offset (mx6qClockFreq period) with hf | hf
    · constructor
      · rw [compensates_small_iff hp ho hf, or_iff_right hs, and_iff_left_iff_imp]
        rintro - i hi j t hj hjp rfl
        rw [Nat.mod_eq_of_lt hf, compGap_tried ho hf hj]
        exact hi.least j hj hjp
      · rw [compensates_small_iff hp ho hf, or_iff_right hs, and_congr_right_iff]
        rintro -
        refine forall₂_congr fun i hi => ⟨fun h j hj hjp => ?_, fun h j t hj hjp ht => ?_⟩
        · rw [← compGap_below ho hf]
          exact h j _ hj hjp (Nat.succ_pos _)
        · rcases compGap_ge hf ht with hge | hge
          · exact (hi.least j hj hjp).trans hge
          · exact (h j hj hjp).trans hge
    · have hno : ∀ ops tried, (offset = mx6qClockFreq period → ∃ t, tried 1 t ∧ mx6qClockFreq period * 1 / t = 0) →
          ¬Compensates period offset ops tried := by
        intro ops tried htried hc
        by_cases hF : mx6qClockFreq period = 0
        · obtain ⟨r, hr, -⟩ := hc
          simp only [ptpSetCompensation, if_neg ho.ne'] at hr
          obtain ⟨q, hq, -⟩ := Calc.runs_bind.mp hr
          exact (Calc.runs_div.mp hq).1 hF
        · exact not_compensates_large ops ho hf (fun h => hs (.inr ⟨hF, h⟩)) htried hc
      have hfits : ¬CompFits period offset ops := fun h => absurd h.small (Nat.not_lt.mpr hf)
      refine ⟨iff_of_false (hno _ _ fun he => ⟨0, ?_, Nat.div_zero _⟩) (not_or.mpr ⟨hs, hfits⟩),
        iff_of_false (hno _ _ fun _ => ⟨mx6qClockFreq period + 1, Nat.succ_pos _, ?_⟩) (not_or.mpr ⟨hs, fun h => hfits h.1⟩)⟩
      · rw [he, Nat.mod_self, Nat.div_zero]
      · exact Nat.div_eq_of_lt (by omega)

/-- 周期 8 ns、125 MHz の時計。 -/
theorem ptp_compensation_run :
    1 ≤ 8 ∧ Compensates 8 1000 true (fun j t => t = mx6qClockFreq 8 * j / (1000 % mx6qClockFreq 8)) := by
  refine ⟨by decide, (ptp_compensation_iff (by decide) true).1.mpr (.inr ⟨by decide, by decide, fun _ i hi => ?_⟩)⟩
  have := hi.range.2
  omega

/-- 周波数を超える補正では 0 で割る。 -/
theorem ptp_compensation_fault :
    ¬∀ (period offset : Nat) (ops : Bool), 1 ≤ period → offset < Calc.word →
      Compensates period offset ops (fun j t => t = mx6qClockFreq period * j / (offset % mx6qClockFreq period)) := by
  intro h
  obtain ⟨r, hr, -⟩ := h 8 250000000 true (by decide) (by decide)
  have hfault : ptpSetCompensation 8 250000000 true = .fault := by decide
  rw [Calc.Runs, hfault] at hr
  cases hr

end Imx6Bsp.Devnp
