import Imx6Bsp.Flash.Lemmas.Poll
import Imx6Bsp.Flash.Bus

/-!
# 状態の読み出しの結果

失敗の種類が一つであれば `amd_poll()` は正しく決める。DQ5 の失敗と DQ1 の中断が混ざると、どちらの印とも等しくならず、終わらない。
-/

namespace Imx6Bsp.Flash

variable {c : FlashCfg} {value : BitVec 64} {dq1 : Bool} {chips : Nat → StatusChip}

theorem amdPoll_failed {last fuel i : Nat} (hi : i < c.chipInter) (hfail : (chips i).outcome ≠ .success) (hmixed : ¬ MixedFailure c chips)
    (hdq1 : dq1 = false → ∀ i < c.chipInter, (chips i).outcome ≠ .abort)
    (hlast : ∀ i < c.chipInter, (chips i).duration ≤ last) (hfuel : last < fuel) :
    amdPoll c value dq1 (statusRead c value value chips) fuel = some (-1) := by
  obtain ⟨fuel, rfl⟩ := Nat.exists_eq_succ_of_ne_zero (Nat.ne_zero_of_lt hfuel)
  rw [amdPoll, toggleLoop_failed hi hfail hmixed hdq1 hlast fuel 0 (by omega)]

theorem amdPoll_mixed (h : MixedFailure c chips) (fuel : Nat) : amdPoll c value dq1 (statusRead c value value chips) fuel = none := by
  rw [amdPoll, toggleLoop_mixed h]

/-- `amd_poll()` が正しく決めるのは、失敗の種類が混ざらないときである。 -/
theorem poll_decides_iff (hdq1 : dq1 = false → ∀ i < c.chipInter, (chips i).outcome ≠ .abort) :
    PollDecides c value dq1 chips ↔ ¬ MixedFailure c chips := by
  constructor
  · rintro ⟨r, hr, -⟩ hmixed
    have hlast : ∀ i < c.chipInter, (chips i).duration ≤ ∑ j ∈ Finset.range c.chipInter, (chips j).duration := fun i hi =>
      Finset.single_le_sum (f := fun j => (chips j).duration) (fun _ _ => Nat.zero_le _) (Finset.mem_range.mpr hi)
    have hpoll := hr _ hlast _ (Nat.lt_succ_self _)
    rw [amdPoll_mixed hmixed] at hpoll
    cases hpoll
  · intro hmixed
    by_cases hok : ∀ i < c.chipInter, (chips i).outcome = .success
    · exact ⟨0, fun last hlast fuel hfuel => amdPoll_success hok hlast hfuel fun _ _ => rfl, iff_of_true rfl hok⟩
    · have hbad := hok
      push Not at hbad
      obtain ⟨i, hi, hfail⟩ := hbad
      exact ⟨-1, fun last hlast fuel hfuel => amdPoll_failed hi hfail hmixed hdq1 hlast hfuel, iff_of_false (by decide) hok⟩

theorem poll_decides_iff_sample :
    PollDecides ⟨2, 2, twoChips⟩ 0x1234#64 true (fun _ => { duration := 3, outcome := .timeout }) ↔
      ¬ MixedFailure ⟨2, 2, twoChips⟩ fun _ => { duration := 3, outcome := .timeout } :=
  poll_decides_iff fun h => by cases h

/-- 二つのチップの一方が DQ5、他方が DQ1 で失敗する。 -/
theorem poll_decides_wrong : ¬ ∀ (c : FlashCfg) (value : BitVec 64) (dq1 : Bool) (chips : Nat → StatusChip),
    (dq1 = false → ∀ i < c.chipInter, (chips i).outcome ≠ .abort) → PollDecides c value dq1 chips := by
  intro h
  obtain ⟨r, hr, -⟩ := h ⟨2, 2, twoChips⟩ 0#64 true (fun i => { outcome := if i = 0 then .timeout else .abort }) fun h => by cases h
  have hpoll := hr 0 (fun _ _ => Nat.le_refl 0) 1 Nat.one_pos
  rw [amdPoll_mixed ⟨⟨0, by decide, rfl⟩, 1, by decide, rfl⟩] at hpoll
  cases hpoll

end Imx6Bsp.Flash

namespace Imx6Bsp.Flash

/-! ## MirrorBit の消去の結果

終わったチップのデータの線は DQ5 が立つように読める。遅いチップがあると、消去が成功しても失敗と返す。 -/

open Imx6Bsp.Lib

variable {c : FlashCfg} {chips : Nat → StatusChip} {i t : Nat}

/-! ### 一回の読み出し -/

/-- 消去の間に、チップ `i` の DQ6 が変わる。 -/
def ErasingAt (c : FlashCfg) (chips : Nat → StatusChip) (t i : Nat) : Prop := TogglesAt c (BitVec.allOnes 64) (BitVec.allOnes 64) chips t i

theorem bit_allOnes {k : Nat} (hi : i < c.chipInter) (hk : k < 8) : c.bit (BitVec.allOnes 64) i k = true := by
  rw [FlashCfg.bit, laneBit, BitVec.getLsbD_allOnes]
  exact decide_eq_true ((c.index_lt hi hk).trans_le c.width_le)

theorem eraseToggle_eq_zero :
    (eraseRead c chips t ^^^ eraseRead c chips (t + 1)) &&& c.mask 6 = 0 ↔ ∀ i < c.chipInter, ¬ ErasingAt c chips t i := toggleWord_eq_zero

/-- DQ5 は、結果の出たチップがあれば立つ。 -/
theorem erase_dq5 (habort : ∀ i < c.chipInter, (chips i).outcome ≠ .abort) :
    eraseRead c chips t &&& c.mask 5 ≠ 0 ↔ ∃ i < c.chipInter, (chips i).duration ≤ t := by
  rw [Ne, show eraseRead c chips t &&& c.mask 5 = 0 ↔ _ from (c.isLaneMask (by decide : 5 < 8)).and_eq_zero_iff]
  push Not
  refine exists_congr fun i => and_congr_right fun hi => ?_
  have hread : laneBit _ (eraseRead c chips t) i 5 = _ := bit_statusRead hi (by decide)
  rw [hread, Bool.ne_false_iff]
  by_cases hdone : (chips i).Done t
  · rw [StatusChip.line_done hdone, bit_allOnes hi (by decide)]
    exact iff_of_true rfl hdone.2
  · rw [StatusChip.line_timeout hdone, decide_eq_true_iff]
    refine ⟨fun h => h.1, fun h => ⟨h, ?_⟩⟩
    cases ho : (chips i).outcome with
    | success => exact absurd ⟨ho, h⟩ hdone
    | timeout => rfl
    | abort => exact absurd ho (habort i hi)

/-- 結果が出る前のチップの DQ6 は変わる。 -/
theorem erasing_of_busy (h : t + 1 < (chips i).duration) : ErasingAt c chips t i :=
  StatusChip.toggles_of_not_done fun hd => absurd hd.2 (Nat.not_le.mpr h)

/-- 消去の成功するチップの DQ6 が、偶数番目の読み出しとその次の間で変わらないのはいつか。 -/
theorem not_erasing_iff {m : Nat} (hi : i < c.chipInter) (hok : (chips i).outcome = .success) :
    ¬ ErasingAt c chips (2 * m) i ↔ (chips i).duration ≤ 2 * m ∨ ((chips i).duration = 2 * m + 1 ∧ (chips i).phase = true) := by
  rcases Nat.lt_trichotomy (chips i).duration (2 * m + 1) with hlt | heq | hgt
  · have hle := Nat.le_of_lt_succ hlt
    exact iff_of_true (StatusChip.not_toggles_of_done ⟨hok, hle⟩) (.inl hle)
  · have hbusy : ¬ (chips i).Done (2 * m) := fun hd => absurd hd.2 (by omega)
    have hdone : (chips i).Done (2 * m + 1) := ⟨hok, heq.le⟩
    rw [ErasingAt, TogglesAt, StatusChip.Toggles, StatusChip.line_toggle hbusy, StatusChip.line_done hdone, bit_allOnes hi (by decide),
      Nat.mul_mod_right, decide_eq_false (by decide), Bool.xor_false, not_not]
    exact ⟨fun h => .inr ⟨heq, h⟩, fun h => h.elim (fun h => absurd h (by omega)) fun h => h.2⟩
  · refine iff_of_false (not_not.mpr (erasing_of_busy hgt)) ?_
    rintro (h | ⟨h, -⟩) <;> omega

/-! ### ループ -/

/-- 失敗したチップがあれば、ループは `EOK` で戻らない。 -/
theorem mirrorLoop_ne_none (hi : i < c.chipInter) (hfail : (chips i).outcome ≠ .success) (left : Nat) (n : Nat) :
    mirrorLoop c (eraseRead c chips) left n ≠ none := by
  have htoggle : ∀ t, ¬ (eraseRead c chips t ^^^ eraseRead c chips (t + 1)) &&& c.mask 6 = 0 := fun t h =>
    eraseToggle_eq_zero.mp h i hi (StatusChip.toggles_of_failed hfail)
  induction left generalizing n with
  | zero =>
      rw [mirrorLoop, if_neg (htoggle _)]
      split <;> exact Option.some_ne_none _
  | succ left ih =>
      rw [mirrorLoop, if_neg (htoggle _)]
      split
      · exact Option.some_ne_none _
      · exact ih (n + 1)

theorem mirrorStatus_failed (hi : i < c.chipInter) (hfail : (chips i).outcome ≠ .success) : mirrorStatus c (eraseRead c chips) = -1 := by
  have htoggle : ∀ t, (eraseRead c chips t ^^^ eraseRead c chips (t + 1)) &&& c.mask 6 ≠ 0 := fun t h =>
    eraseToggle_eq_zero.mp h i hi (StatusChip.toggles_of_failed hfail)
  obtain ⟨x, hx⟩ := Option.ne_none_iff_exists'.mp (mirrorLoop_ne_none hi hfail (maxIterTimeout + 1) 0)
  rw [mirrorStatus, hx]
  dsimp only
  rw [if_pos (htoggle _), ite_self]

/-- どのチップも終わっていない組は、読み飛ばされる。 -/
theorem mirrorLoop_skip (hn : 0 < c.chipInter) (habort : ∀ i < c.chipInter, (chips i).outcome ≠ .abort) {m : Nat}
    (hbusy : ∀ i < c.chipInter, 2 * m ≤ (chips i).duration) (k left : Nat) (hk : k ≤ m) :
    mirrorLoop c (eraseRead c chips) (left + k) 0 = mirrorLoop c (eraseRead c chips) left k := by
  induction k generalizing left with
  | zero => rfl
  | succ k ih =>
      rw [← Nat.add_assoc, Nat.add_right_comm, ih (left + 1) (Nat.le_of_succ_le hk), mirrorLoop, if_neg, if_neg]
      · rw [erase_dq5 habort]
        rintro ⟨i, hi, hle⟩
        have := hbusy i hi
        omega
      · rw [eraseToggle_eq_zero]
        have := hbusy 0 hn
        exact fun h => h 0 hn (erasing_of_busy (by omega))

/-- 最初に終わるチップの組で DQ5 を見て、次の組の DQ6 で決まる。 -/
theorem mirrorStatus_success {j : Nat} (hok : AllErased c chips) (hlimit : ∀ i < c.chipInter, (chips i).duration ≤ 2 * (maxIterTimeout + 1))
    (hj : j < c.chipInter) (hmin : ∀ i < c.chipInter, (chips j).duration ≤ (chips i).duration) :
    mirrorStatus c (eraseRead c chips) = 0 ↔ ∀ i < c.chipInter, ¬ ErasingAt c chips (2 * ((chips j).duration / 2 + 1)) i := by
  generalize hm : (chips j).duration / 2 = m
  have habort : ∀ i < c.chipInter, (chips i).outcome ≠ .abort := by
    intro i hi
    rw [hok i hi]
    decide
  have hlast := hlimit j hj
  have hstart : mirrorLoop c (eraseRead c chips) (maxIterTimeout + 1) 0 = mirrorLoop c (eraseRead c chips) (maxIterTimeout + 1 - m) m := by
    have hsum : maxIterTimeout + 1 = maxIterTimeout + 1 - m + m := by omega
    rw [hsum, mirrorLoop_skip (Nat.zero_lt_of_lt hj) habort (fun i hi => (by omega : 2 * m ≤ (chips j).duration).trans (hmin i hi)) m _ (Nat.le_refl m),
      ← hsum]
  by_cases hquiet : ∀ i < c.chipInter, ¬ ErasingAt c chips (2 * m) i
  · -- この組で止まれば、次の組でも止まっている。
    have hnone : mirrorLoop c (eraseRead c chips) (maxIterTimeout + 1 - m) m = none := by
      cases maxIterTimeout + 1 - m with
      | zero => exact if_pos (eraseToggle_eq_zero.mpr hquiet)
      | succ left => exact if_pos (eraseToggle_eq_zero.mpr hquiet)
    rw [mirrorStatus, hstart, hnone]
    refine iff_of_true rfl fun i hi => StatusChip.not_toggles_of_done ⟨hok i hi, ?_⟩
    rcases (not_erasing_iff hi (hok i hi)).mp (hquiet i hi) with h | h
    · omega
    · omega
  · have hle : m ≤ maxIterTimeout := by
      by_contra hgt
      refine hquiet fun i hi => StatusChip.not_toggles_of_done ⟨hok i hi, (hlimit i hi).trans ?_⟩
      omega
    have hsome : mirrorLoop c (eraseRead c chips) (maxIterTimeout + 1 - m) m = some (m, 2 * m + 2) := by
      rw [Nat.succ_sub hle]
      refine (if_neg fun h => hquiet (eraseToggle_eq_zero.mp h)).trans (if_pos ((erase_dq5 habort).mpr ⟨j, hj, ?_⟩))
      omega
    rw [mirrorStatus, hstart, hsome]
    dsimp only
    rw [if_neg (Nat.not_lt.mpr hle), ← eraseToggle_eq_zero, Nat.mul_succ]
    by_cases hzero : (eraseRead c chips (2 * m + 2) ^^^ eraseRead c chips (2 * m + 2 + 1)) &&& c.mask 6 = 0
    · rw [if_neg (not_not.mpr hzero)]
      exact iff_of_true rfl hzero
    · rw [if_pos hzero]
      exact iff_of_false (by decide) hzero

theorem exists_fastest (c : FlashCfg) (chips : Nat → StatusChip) :
    ∃ j < c.chipInter, ∀ i < c.chipInter, (chips j).duration ≤ (chips i).duration := by
  obtain ⟨j, hj, hmin⟩ := Finset.exists_min_image (Finset.range c.chipInter) (fun i => (chips i).duration) ⟨0, Finset.mem_range.mpr c.inter_pos⟩
  exact ⟨j, Finset.mem_range.mp hj, fun i hi => hmin i (Finset.mem_range.mpr hi)⟩

theorem finishTogether_iff {j : Nat} (hok : AllErased c chips) (hj : j < c.chipInter)
    (hmin : ∀ i < c.chipInter, (chips j).duration ≤ (chips i).duration) :
    FinishTogether c chips ↔ ∀ i < c.chipInter, ¬ ErasingAt c chips (2 * ((chips j).duration / 2 + 1)) i := by
  constructor
  · intro h i hi
    rw [not_erasing_iff hi (hok i hi), Nat.mul_succ]
    exact h i hi j hj
  · intro h i hi k hk
    have hfast := (not_erasing_iff hi (hok i hi)).mp (h i hi)
    rw [Nat.mul_succ] at hfast
    have hdiv := Nat.div_le_div_right (hmin k hk) (c := 2)
    rcases Nat.lt_or_eq_of_le hdiv with hlt | heq
    · left
      omega
    · rw [← heq]
      exact hfast

theorem aMBv2Erase_ret (memory : Nat) {dq4 : Option (BitVec 64)} {malloc : Bool} (hmem : dq4.isSome = true ∨ malloc = true)
    (read : Nat → BitVec 64) : (aMBv2Erase c (.ok memory) dq4 malloc read).ret = mirrorStatus c read := by
  refine congrArg MirrorEraseResult.ret (if_neg ?_)
  rintro ⟨hnone, hmalloc⟩
  rcases hmem with h | h
  · rw [Option.isSome_iff_ne_none] at h
    exact h (Option.isNone_iff_eq_none.mp hnone)
  · exact hmalloc h

/-- 返り値が正しいのは、失敗したチップがあるか、どのチップもほぼ同時に終わるときである。 -/
theorem mirror_erase_iff {memory : Nat} {dq4 : Option (BitVec 64)} {malloc : Bool} (hmem : dq4.isSome = true ∨ malloc = true)
    (hrun : ∀ i < c.chipInter, (chips i).outcome ≠ .abort)
    (hlimit : ∀ i < c.chipInter, (chips i).duration ≤ 2 * (maxIterTimeout + 1)) :
    ((aMBv2Erase c (.ok memory) dq4 malloc (eraseRead c chips)).ret = 0 ↔ AllErased c chips) ↔
      (∃ i < c.chipInter, (chips i).outcome = .timeout) ∨ FinishTogether c chips := by
  rw [aMBv2Erase_ret memory hmem]
  by_cases hok : AllErased c chips
  · have hnot : ¬ ∃ i < c.chipInter, (chips i).outcome = .timeout := by
      rintro ⟨i, hi, ht⟩
      cases (hok i hi).symm.trans ht
    obtain ⟨j, hj, hmin⟩ := exists_fastest c chips
    rw [mirrorStatus_success hok hlimit hj hmin, ← finishTogether_iff hok hj hmin]
    exact ⟨fun h => .inr (h.mpr hok), fun h => iff_of_true (h.resolve_left hnot) hok⟩
  · have hfail := hok
    rw [AllErased] at hfail
    push Not at hfail
    obtain ⟨i, hi, hfail⟩ := hfail
    rw [mirrorStatus_failed hi hfail]
    refine iff_of_true (iff_of_false (by decide) hok) (.inl ⟨i, hi, ?_⟩)
    cases ho : (chips i).outcome with
    | success => exact absurd ho hfail
    | timeout => rfl
    | abort => exact absurd ho (hrun i hi)

theorem mirror_erase_iff_sample :
    ((aMBv2Erase ⟨2, 2, twoChips⟩ (.ok 0) none true (eraseRead ⟨2, 2, twoChips⟩ fun i => { duration := 7 + i })).ret = 0 ↔
        AllErased ⟨2, 2, twoChips⟩ fun i => { duration := 7 + i }) ↔
      (∃ i < 2, ({ duration := 7 + i } : StatusChip).outcome = .timeout) ∨ FinishTogether ⟨2, 2, twoChips⟩ fun i => { duration := 7 + i } :=
  mirror_erase_iff (.inr rfl) (fun i hi h => by cases h) (by decide)

/-- 後のチップほど遅く終わる。 -/
def slowChips (i : Nat) : StatusChip := { duration := 4 * i }

theorem slowChips_limit : ∀ i < 2, (slowChips i).duration ≤ 2 * (maxIterTimeout + 1) := by
  intro i hi
  have hle : 4 * i ≤ 4 := Nat.mul_le_mul_left 4 (Nat.le_of_lt_succ hi)
  exact hle.trans (by decide)

/-- 二つのチップの一方が、他方より遅く終わる。 -/
theorem mirror_erase_wrong : ¬ ∀ (c : FlashCfg) (memory : Nat) (dq4 : Option (BitVec 64)) (chips : Nat → StatusChip),
    (∀ i < c.chipInter, (chips i).outcome ≠ .abort) → (∀ i < c.chipInter, (chips i).duration ≤ 2 * (maxIterTimeout + 1)) →
      ((aMBv2Erase c (.ok memory) dq4 true (eraseRead c chips)).ret = 0 ↔ AllErased c chips) := by
  intro h
  have hrun : ∀ i < 2, (slowChips i).outcome ≠ .abort := fun i hi h => by cases h
  have hok : AllErased ⟨2, 2, twoChips⟩ slowChips := fun i hi => rfl
  have hret := (h ⟨2, 2, twoChips⟩ 0 none slowChips hrun slowChips_limit).mpr hok
  rw [aMBv2Erase_ret 0 (.inr rfl)] at hret
  refine (mirrorStatus_success hok slowChips_limit (by decide : 0 < 2) fun i hi => ?_).mp hret 1 (by decide) ?_
  · exact Nat.mul_le_mul_left 4 (Nat.zero_le i)
  · exact erasing_of_busy (by decide)

end Imx6Bsp.Flash
