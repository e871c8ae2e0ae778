import Imx6Bsp.Flash.Bus

/-!
# 状態の読み出しの補題

二つの読み出しの間で DQ6 が変わるチップと、語の上の印の比較を結び付ける。
-/

namespace Imx6Bsp.Flash

open Imx6Bsp.Lib

variable {c : FlashCfg} {value array : BitVec 64} {dq1 : Bool} {chips : Nat → StatusChip} {t : Nat}

/-! ## 一つのチップ -/

section

variable {p : StatusChip} {inverse : Bool} {data : Nat → Bool}

theorem StatusChip.line_done (h : p.Done t) (k : Nat) : p.line inverse data t k = data k := if_pos h

theorem StatusChip.line_toggle (h : ¬ p.Done t) : p.line inverse data t 6 = (p.phase ^^ decide (t % 2 = 1)) := if_neg h

theorem StatusChip.line_timeout (h : ¬ p.Done t) : p.line inverse data t 5 = decide (p.duration ≤ t ∧ p.outcome = .timeout) := if_neg h

theorem StatusChip.line_abort (h : ¬ p.Done t) : p.line inverse data t 1 = decide (p.duration ≤ t ∧ p.outcome = .abort) := if_neg h

theorem StatusChip.Done.mono {t' : Nat} (h : p.Done t) (ht : t ≤ t') : p.Done t' := ⟨h.1, h.2.trans ht⟩

/-- 次の読み出しで DQ6 が変わる。 -/
def StatusChip.Toggles (p : StatusChip) (inverse : Bool) (data : Nat → Bool) (t : Nat) : Prop := p.line inverse data t 6 ≠ p.line inverse data (t + 1) 6

theorem StatusChip.toggles_of_not_done (h : ¬ p.Done (t + 1)) : p.Toggles inverse data t := by
  have hprev : ¬ p.Done t := fun hd => h (hd.mono (Nat.le_succ t))
  rw [Toggles, line_toggle h, line_toggle hprev]
  rcases Nat.mod_two_eq_zero_or_one t with heven | hodd
  · rw [decide_eq_false (show ¬ t % 2 = 1 by omega), decide_eq_true (show (t + 1) % 2 = 1 by omega)]
    cases p.phase <;> decide
  · rw [decide_eq_true hodd, decide_eq_false (show ¬ (t + 1) % 2 = 1 by omega)]
    cases p.phase <;> decide

theorem StatusChip.toggles_of_failed (h : p.outcome ≠ .success) : p.Toggles inverse data t := toggles_of_not_done fun hd => h hd.1

theorem StatusChip.not_toggles_of_done (h : p.Done t) : ¬ p.Toggles inverse data t := by
  rw [Toggles, line_done h, line_done (h.mono (Nat.le_succ t))]
  exact fun hne => hne rfl

theorem StatusChip.Toggles.timeout_iff (h : p.Toggles inverse data t) : p.line inverse data t 5 = true ↔ p.duration ≤ t ∧ p.outcome = .timeout := by
  rw [line_timeout fun hd => not_toggles_of_done hd h]
  exact decide_eq_true_iff

theorem StatusChip.Toggles.abort_iff (h : p.Toggles inverse data t) : p.line inverse data t 1 = true ↔ p.duration ≤ t ∧ p.outcome = .abort := by
  rw [line_abort fun hd => not_toggles_of_done hd h]
  exact decide_eq_true_iff

/-- 結果が出た後も変わるのは、失敗したチップである。 -/
theorem StatusChip.Toggles.failed (h : p.Toggles inverse data t) (hd : p.duration ≤ t) : p.outcome ≠ .success :=
  fun hs => not_toggles_of_done ⟨hs, hd⟩ h

end

/-! ## 並んだチップ -/

/-- チップ `i` の DQ6 が変わる。 -/
def TogglesAt (c : FlashCfg) (value array : BitVec 64) (chips : Nat → StatusChip) (t i : Nat) : Prop :=
  (chips i).Toggles (!c.bit value i 7) (c.bit array i) t

/-- DQ6 の変化の語。 -/
def toggleWord (c : FlashCfg) (read : Nat → BitVec 64) (t : Nat) : BitVec 64 := (read t ^^^ read (t + 1)) &&& c.mask 6

theorem bit_statusRead {i k : Nat} (hi : i < c.chipInter) (hk : k < 8) :
    c.bit (statusRead c value array chips t) i k = (chips i).line (!c.bit value i 7) (c.bit array i) t k := c.bit_word hi hk

theorem toggleWord_under (read : Nat → BitVec 64) : toggleWord c read t &&& c.mask 6 = toggleWord c read t := by
  rw [toggleWord, BitVec.and_assoc, BitVec.and_self]

theorem bit_toggleWord {i : Nat} (hi : i < c.chipInter) :
    c.bit (toggleWord c (statusRead c value array chips) t) i 6 = true ↔ TogglesAt c value array chips t i := by
  have hmask := (c.isLaneMask (by decide : 6 < 8)).bit hi
  rw [FlashCfg.bit, toggleWord, laneBit_and, hmask, Bool.and_true, laneBit_xor]
  rw [show laneBit _ (statusRead c value array chips t) i 6 = _ from bit_statusRead hi (by decide),
    show laneBit _ (statusRead c value array chips (t + 1)) i 6 = _ from bit_statusRead hi (by decide)]
  exact bne_iff_ne

theorem toggleWord_eq_zero : toggleWord c (statusRead c value array chips) t = 0 ↔ ∀ i < c.chipInter, ¬ TogglesAt c value array chips t i := by
  rw [show toggleWord c (statusRead c value array chips) t = 0 ↔ _ from (c.isLaneMask (by decide : 6 < 8)).and_eq_zero_iff]
  refine forall₂_congr fun i hi => ?_
  rw [← bit_toggleWord hi, FlashCfg.bit, toggleWord, laneBit_and, (c.isLaneMask (by decide : 6 < 8)).bit hi, Bool.and_true,
    Bool.not_eq_true]

/-- 止まっていないチップのどれもが、線 `6 - d` を立てている。 -/
theorem shift_toggleWord {d : Nat} (hd : d ≤ 6) :
    (statusRead c value array chips t &&& toggleWord c (statusRead c value array chips) t >>> d) <<< d = toggleWord c (statusRead c value array chips) t ↔
      ∀ i < c.chipInter, TogglesAt c value array chips t i → (chips i).line (!c.bit value i 7) (c.bit array i) t (6 - d) = true := by
  rw [(c.isLaneMask (by decide : 6 < 8)).shift_eq_iff (toggleWord_under _) hd]
  refine forall₂_congr fun i hi => ?_
  rw [← bit_statusRead hi (by omega), ← bit_toggleWord hi]
  rfl

theorem and_toggleWord_ne_zero {t' i : Nat} (hi : i < c.chipInter) (h : TogglesAt c value array chips t i) (h' : TogglesAt c value array chips t' i) :
    (statusRead c value array chips t' ^^^ statusRead c value array chips (t' + 1)) &&& toggleWord c (statusRead c value array chips) t ≠ 0 := by
  intro hzero
  have hbit := congrArg (fun x => c.bit x i 6) hzero
  have ht : c.bit (toggleWord c (statusRead c value array chips) t) i 6 = true := (bit_toggleWord hi).mpr h
  have ht' : c.bit (toggleWord c (statusRead c value array chips) t') i 6 = true := (bit_toggleWord hi).mpr h'
  rw [FlashCfg.bit] at ht ht'
  rw [toggleWord, laneBit_and, Bool.and_eq_true] at ht'
  simp only [FlashCfg.bit, laneBit_and, ht, ht'.1] at hbit
  rw [laneBit, show (0 : BitVec 64) = 0#64 from rfl, BitVec.getLsbD_zero] at hbit
  cases hbit

/-! ## DQ6 のループの一回 -/

/-- 変わっているチップは、どれも DQ5 を立てている。 -/
def OnlyTimeouts (c : FlashCfg) (chips : Nat → StatusChip) (value array : BitVec 64) (t : Nat) : Prop :=
  ∀ i < c.chipInter, TogglesAt c value array chips t i → (chips i).duration ≤ t ∧ (chips i).outcome = .timeout

/-- 変わっているチップは、どれも DQ1 を立てている。 -/
def OnlyAborts (c : FlashCfg) (chips : Nat → StatusChip) (value array : BitVec 64) (t : Nat) : Prop :=
  ∀ i < c.chipInter, TogglesAt c value array chips t i → (chips i).duration ≤ t ∧ (chips i).outcome = .abort

theorem timeoutMask_iff :
    (statusRead c value array chips t &&& toggleWord c (statusRead c value array chips) t >>> 1) <<< 1 = toggleWord c (statusRead c value array chips) t ↔
      OnlyTimeouts c chips value array t := by
  rw [shift_toggleWord (by decide)]
  exact forall₂_congr fun i _ => forall_congr' fun h => StatusChip.Toggles.timeout_iff h

theorem abortMask_iff :
    (statusRead c value array chips t &&& toggleWord c (statusRead c value array chips) t >>> 5) <<< 5 = toggleWord c (statusRead c value array chips) t ↔
      OnlyAborts c chips value array t := by
  rw [shift_toggleWord (by decide)]
  exact forall₂_congr fun i _ => forall_congr' fun h => StatusChip.Toggles.abort_iff h

theorem toggleLoop_stop (fuel : Nat) (h : ∀ i < c.chipInter, ¬ TogglesAt c value array chips t i) :
    toggleLoop c dq1 (statusRead c value array chips) (fuel + 1) t = some (.stopped (t + 2)) := if_pos (toggleWord_eq_zero.mpr h)

/-- 変わっているチップの失敗が知らされたとき。 -/
theorem toggleLoop_fail {fuel i : Nat} (hi : i < c.chipInter) (ht : TogglesAt c value array chips t i)
    (h : OnlyTimeouts c chips value array t ∨ dq1 = true ∧ OnlyAborts c chips value array t) :
    toggleLoop c dq1 (statusRead c value array chips) (fuel + 1) t = some .failed := by
  have hfailed : (chips i).outcome ≠ .success := by
    rcases h with h | ⟨-, h⟩
    · rw [(h i hi ht).2]
      decide
    · rw [(h i hi ht).2]
      decide
  have hpeek : (statusRead c value array chips (t + 2) ^^^ statusRead c value array chips (t + 3)) &&& toggleWord c (statusRead c value array chips) t ≠ 0 :=
    and_toggleWord_ne_zero hi ht (StatusChip.toggles_of_failed hfailed)
  have hne : toggleWord c (statusRead c value array chips) t ≠ 0 := fun hzero => toggleWord_eq_zero.mp hzero i hi ht
  refine (if_neg hne).trans ?_
  by_cases htimeout : OnlyTimeouts c chips value array t
  · exact (if_pos (timeoutMask_iff.mpr htimeout)).trans (if_pos hpeek)
  · refine (if_neg fun hmask => htimeout (timeoutMask_iff.mp hmask)).trans ?_
    obtain ⟨hdq1, habort⟩ := h.resolve_left htimeout
    exact (if_pos ⟨hdq1, abortMask_iff.mpr habort⟩).trans (if_pos hpeek)

theorem toggleLoop_again {fuel i : Nat} (hi : i < c.chipInter) (ht : TogglesAt c value array chips t i)
    (h : ¬ (OnlyTimeouts c chips value array t ∨ dq1 = true ∧ OnlyAborts c chips value array t)) :
    toggleLoop c dq1 (statusRead c value array chips) (fuel + 1) t = toggleLoop c dq1 (statusRead c value array chips) fuel (t + 2) := by
  have hne : toggleWord c (statusRead c value array chips) t ≠ 0 := fun hzero => toggleWord_eq_zero.mp hzero i hi ht
  refine (if_neg hne).trans ((if_neg fun hmask => h (.inl (timeoutMask_iff.mp hmask))).trans (if_neg ?_))
  exact fun hmask => h (.inr ⟨hmask.1, abortMask_iff.mp hmask.2⟩)

/-! ## DQ6 のループ -/

/-- どのチップも成功するなら、結果が出た後に止まる。 -/
theorem toggleLoop_success (dq1 : Bool) (value array : BitVec 64) {last : Nat} (hok : ∀ i < c.chipInter, (chips i).outcome = .success)
    (hlast : ∀ i < c.chipInter, (chips i).duration ≤ last) (fuel : Nat) (t : Nat) (hfuel : last ≤ t + 2 * fuel) :
    ∃ t', toggleLoop c dq1 (statusRead c value array chips) (fuel + 1) t = some (.stopped t') ∧ ∀ i < c.chipInter, (chips i).duration ≤ t' := by
  induction fuel generalizing t with
  | zero =>
      refine ⟨t + 2, toggleLoop_stop 0 fun i hi => ?_, fun i hi => (hlast i hi).trans (hfuel.trans (Nat.le_add_right t 2))⟩
      exact StatusChip.not_toggles_of_done ⟨hok i hi, (hlast i hi).trans hfuel⟩
  | succ fuel ih =>
      by_cases htoggle : ∀ i < c.chipInter, ¬ TogglesAt c value array chips t i
      · refine ⟨t + 2, toggleLoop_stop _ htoggle, fun i hi => ?_⟩
        by_contra hbusy
        exact htoggle i hi (StatusChip.toggles_of_not_done fun hd => hbusy (hd.2.trans (Nat.le_succ _)))
      · push Not at htoggle
        obtain ⟨i, hi, ht⟩ := htoggle
        rw [toggleLoop_again hi ht]
        · exact ih (t + 2) (by omega)
        · rintro (h | ⟨-, h⟩)
          · cases (hok i hi).symm.trans (h i hi ht).2
          · cases (hok i hi).symm.trans (h i hi ht).2

/-- 失敗の種類が一つなら、結果が出た後に失敗を返す。 -/
theorem toggleLoop_failed {last i : Nat} (hi : i < c.chipInter) (hfail : (chips i).outcome ≠ .success) (hmixed : ¬ MixedFailure c chips)
    (hdq1 : dq1 = false → ∀ i < c.chipInter, (chips i).outcome ≠ .abort)
    (hlast : ∀ i < c.chipInter, (chips i).duration ≤ last) (fuel : Nat) (t : Nat) (hfuel : last ≤ t + 2 * fuel) :
    toggleLoop c dq1 (statusRead c value array chips) (fuel + 1) t = some .failed := by
  have htoggle : ∀ t, TogglesAt c value array chips t i := fun t => StatusChip.toggles_of_failed hfail
  induction fuel generalizing t with
  | zero =>
      refine toggleLoop_fail hi (htoggle t) ?_
      have hdone : ∀ j < c.chipInter, (chips j).duration ≤ t := fun j hj => (hlast j hj).trans hfuel
      by_cases hsome : ∃ j < c.chipInter, (chips j).outcome = .abort
      · refine .inr ⟨?_, fun j hj ht => ⟨hdone j hj, ?_⟩⟩
        · by_contra hd
          obtain ⟨j, hj, ha⟩ := hsome
          exact hdq1 (eq_false_of_ne_true hd) j hj ha
        · cases ho : (chips j).outcome with
          | success => exact absurd ho (StatusChip.Toggles.failed ht (hdone j hj))
          | timeout => exact absurd ⟨⟨j, hj, ho⟩, hsome⟩ hmixed
          | abort => rfl
      · refine .inl fun j hj ht => ⟨hdone j hj, ?_⟩
        cases ho : (chips j).outcome with
        | success => exact absurd ho (StatusChip.Toggles.failed ht (hdone j hj))
        | timeout => rfl
        | abort => exact absurd ⟨j, hj, ho⟩ hsome
  | succ fuel ih =>
      by_cases honly : OnlyTimeouts c chips value array t ∨ dq1 = true ∧ OnlyAborts c chips value array t
      · exact toggleLoop_fail hi (htoggle t) honly
      · rw [toggleLoop_again hi (htoggle t) honly]
        exact ih (t + 2) (by omega)

/-- 失敗の種類が二つなら、いつまでも終わらない。 -/
theorem toggleLoop_mixed (h : MixedFailure c chips) (fuel : Nat) (t : Nat) : toggleLoop c dq1 (statusRead c value array chips) fuel t = none := by
  obtain ⟨⟨i, hi, htimeout⟩, j, hj, habort⟩ := h
  have hti : ∀ t, TogglesAt c value array chips t i := fun t => StatusChip.toggles_of_failed (by rw [htimeout]; decide)
  have htj : ∀ t, TogglesAt c value array chips t j := fun t => StatusChip.toggles_of_failed (by rw [habort]; decide)
  induction fuel generalizing t with
  | zero => rfl
  | succ fuel ih =>
      rw [toggleLoop_again hi (hti t)]
      · exact ih (t + 2)
      · rintro (h | ⟨-, h⟩)
        · cases habort.symm.trans (h j hj (htj t)).2
        · cases htimeout.symm.trans (h i hi (hti t)).2

/-- DQ6 が止まったのは、どのチップも成功したときだけである。 -/
theorem toggleLoop_stopped {fuel t t' : Nat} (h : toggleLoop c dq1 (statusRead c value array chips) fuel t = some (.stopped t')) :
    ∀ i < c.chipInter, (chips i).outcome = .success := by
  intro i hi
  by_contra hfail
  have htoggle : ∀ t, TogglesAt c value array chips t i := fun t => StatusChip.toggles_of_failed hfail
  induction fuel generalizing t with
  | zero => cases h
  | succ fuel ih =>
      by_cases hend : OnlyTimeouts c chips value array t ∨ dq1 = true ∧ OnlyAborts c chips value array t
      · cases (toggleLoop_fail hi (htoggle t) hend).symm.trans h
      · exact ih ((toggleLoop_again hi (htoggle t) hend).symm.trans h)

/-- DQ1 を見なければ、中断したチップのために終わらない。 -/
theorem toggleLoop_aborted {i : Nat} (hi : i < c.chipInter) (habort : (chips i).outcome = .abort) (fuel t : Nat) :
    toggleLoop c false (statusRead c value array chips) fuel t = none := by
  have htoggle : ∀ t, TogglesAt c value array chips t i := fun t => StatusChip.toggles_of_failed (by rw [habort]; decide)
  induction fuel generalizing t with
  | zero => rfl
  | succ fuel ih =>
      rw [toggleLoop_again hi (htoggle t)]
      · exact ih (t + 2)
      · rintro (h | ⟨h, -⟩)
        · cases habort.symm.trans (h i hi (htoggle t)).2
        · cases h

/-! ## DQ7 のループ -/

/-- どのチップも終わっていて、読む番地の DQ7 が書いたものと同じなら、一回の読み出しで終わる。 -/
theorem dataLoop_done (fuel : Nat) (h : ∀ i < c.chipInter, (chips i).Done t) (hdata : ∀ i < c.chipInter, c.bit array i 7 = c.bit value i 7) :
    dataLoop c dq1 (c.trunc value &&& c.mask 7) (statusRead c value array chips) (fuel + 1) t = some 0 := by
  refine if_pos ((c.isLaneMask (by decide : 7 < 8)).and_eq_zero_iff.mpr fun i hi => ?_)
  have hread : laneBit _ (statusRead c value array chips t) i 7 = _ := bit_statusRead hi (by decide)
  have htrunc : laneBit _ (c.trunc value) i 7 = _ := c.bit_trunc value hi (by decide)
  rw [laneBit_xor, laneBit_and, hread, htrunc, (c.isLaneMask (by decide : 7 < 8)).bit hi, StatusChip.line_done (h i hi), hdata i hi,
    Bool.and_true, Bool.xor_self]

/-- 読む番地の DQ7 が書いたものと違えば、0 を返すことはない。 -/
theorem dataLoop_wrong {data : BitVec 64} {read : Nat → BitVec 64} (fuel : Nat) {t : Nat}
    (h : ∀ t' ≥ t, (read t' ^^^ data) &&& c.mask 7 ≠ 0) :
    dataLoop c dq1 data read fuel t = none ∨ dataLoop c dq1 data read fuel t = some (-1) := by
  induction fuel generalizing t with
  | zero => exact .inl rfl
  | succ fuel ih =>
      have hnext : ∀ n, ∀ t' ≥ t + n, (read t' ^^^ data) &&& c.mask 7 ≠ 0 := fun n t' ht => h t' ((Nat.le_add_right t n).trans ht)
      rw [dataLoop, if_neg (h t (Nat.le_refl t))]
      split
      · split
        · exact .inr rfl
        · exact ih (hnext 2)
      · split
        · split
          · exact .inr rfl
          · exact ih (hnext 2)
        · exact ih (hnext 1)

/-! ## `amd_poll()` -/

theorem amdPoll_success {last fuel : Nat} (hok : ∀ i < c.chipInter, (chips i).outcome = .success)
    (hlast : ∀ i < c.chipInter, (chips i).duration ≤ last) (hfuel : last < fuel)
    (hdata : ∀ i < c.chipInter, c.bit array i 7 = c.bit value i 7) :
    amdPoll c value dq1 (statusRead c value array chips) fuel = some 0 := by
  obtain ⟨fuel, rfl⟩ := Nat.exists_eq_succ_of_ne_zero (Nat.ne_zero_of_lt hfuel)
  obtain ⟨t, ht, hdone⟩ := toggleLoop_success dq1 value array hok hlast fuel 0 (by omega)
  rw [amdPoll, ht]
  exact dataLoop_done fuel (fun i hi => ⟨hok i hi, hdone i hi⟩) hdata

/-- 終わった後に読む DQ7 が書いたものと違えば、失敗するか、終わらない。 -/
theorem amdPoll_wrong {last fuel i : Nat} (hok : ∀ i < c.chipInter, (chips i).outcome = .success)
    (hlast : ∀ i < c.chipInter, (chips i).duration ≤ last) (hfuel : last < fuel) (hi : i < c.chipInter)
    (hdata : c.bit array i 7 ≠ c.bit value i 7) :
    amdPoll c value dq1 (statusRead c value array chips) fuel = none ∨
      amdPoll c value dq1 (statusRead c value array chips) fuel = some (-1) := by
  obtain ⟨fuel, rfl⟩ := Nat.exists_eq_succ_of_ne_zero (Nat.ne_zero_of_lt hfuel)
  obtain ⟨t, ht, hdone⟩ := toggleLoop_success dq1 value array hok hlast fuel 0 (by omega)
  rw [amdPoll, ht]
  refine dataLoop_wrong _ fun t' ht' hzero => hdata ?_
  have hbit := (c.isLaneMask (by decide : 7 < 8)).and_eq_zero_iff.mp hzero i hi
  have hread : laneBit _ (statusRead c value array chips t') i 7 = _ := bit_statusRead hi (by decide)
  have htrunc : laneBit _ (c.trunc value) i 7 = _ := c.bit_trunc value hi (by decide)
  rw [laneBit_xor, laneBit_and, hread, htrunc, (c.isLaneMask (by decide : 7 < 8)).bit hi,
    StatusChip.line_done ⟨hok i hi, (hdone i hi).trans ht'⟩, Bool.and_true] at hbit
  exact bne_eq_false_iff_eq.mp hbit

/-- `-1` でないものを返すのは、どのチップも成功したときだけである。 -/
theorem amdPoll_ok {fuel : Nat} {ret : Int} (h : amdPoll c value dq1 (statusRead c value array chips) fuel = some ret) (hret : ret ≠ -1) :
    ∀ i < c.chipInter, (chips i).outcome = .success := by
  rw [amdPoll] at h
  cases hloop : toggleLoop c dq1 (statusRead c value array chips) fuel 0 with
  | none =>
      rw [hloop] at h
      cases h
  | some exit =>
      cases exit with
      | failed =>
          rw [hloop] at h
          cases h
          exact absurd rfl hret
      | stopped t => exact toggleLoop_stopped hloop

theorem amdPoll_not_aborted {fuel : Nat} {ret : Int} (h : amdPoll c value false (statusRead c value array chips) fuel = some ret) :
    ∀ i < c.chipInter, (chips i).outcome ≠ .abort := by
  intro i hi habort
  rw [amdPoll, toggleLoop_aborted hi habort] at h
  cases h

end Imx6Bsp.Flash
