import Imx6Bsp.I2c.Transfer

/-!
# I2C の速度

表の前半だけで、後半のどの値より大きい値まである。だから後半は選ばれない。どの実行のどの呼び出しも、効いている分周は最後の速度から決まり、
正しいかどうかは時計と速度だけによる。
-/

namespace Imx6Bsp.I2c

open Imx6Bsp.Lib

/-! ## 表の検索 -/

/-- 狭義に増える列の前からの検索は、`n` 以上の最小のものを見つける。 -/
theorem findIdx?_least {l : List Nat} {n : Nat} (hsorted : l.Pairwise (· < ·)) (hex : ∃ d ∈ l, n ≤ d) :
    ∃ i d, l.findIdx? (fun d => decide (n ≤ d)) = some i ∧ l[i]? = some d ∧ d ∈ l ∧ n ≤ d ∧ ∀ e ∈ l, e < d → e < n := by
  induction l with
  | nil =>
      obtain ⟨d, hd, -⟩ := hex
      exact absurd hd List.not_mem_nil
  | cons a l ih =>
      rw [List.pairwise_cons] at hsorted
      by_cases ha : n ≤ a
      · refine ⟨0, a, ?_, rfl, List.mem_cons_self, ha, fun e he hlt => ?_⟩
        · rw [List.findIdx?_cons, if_pos (decide_eq_true ha)]
        · rcases List.mem_cons.mp he with rfl | he
          · exact absurd hlt (Nat.lt_irrefl e)
          · exact absurd hlt (Nat.lt_asymm (hsorted.1 e he))
      · have htail : ∃ d ∈ l, n ≤ d := by
          obtain ⟨d, hd, hn⟩ := hex
          rcases List.mem_cons.mp hd with rfl | hd
          · exact absurd hn ha
          · exact ⟨d, hd, hn⟩
        obtain ⟨i, d, hfind, hget, hmem, hn, hleast⟩ := ih hsorted.2 htail
        refine ⟨i + 1, d, ?_, hget, List.mem_cons_of_mem a hmem, hn, fun e he hlt => ?_⟩
        · rw [List.findIdx?_cons, if_neg (by simpa using ha), hfind]; rfl
        · rcases List.mem_cons.mp he with rfl | he
          · exact Nat.lt_of_not_le ha
          · exact hleast e he hlt

theorem firstDivs_sorted : firstDivs.Pairwise (· < ·) := by decide

theorem i2cDivs_le {e : Nat} (h : e ∈ i2cDivs) : e ≤ 3840 := by
  revert e
  decide

/-- 3840 までの商には、前半の最小のものが選ばれる。 -/
theorem findBestIc_first {n : Nat} (hn : n ≤ 3840) :
    ∃ d ∈ firstDivs, i2cDivs[findBestIc n]? = some d ∧ n ≤ d ∧ ∀ e ∈ firstDivs, e < d → e < n := by
  obtain ⟨i, d, hfind, hget, hmem, hle, hleast⟩ := findIdx?_least firstDivs_sorted ⟨3840, by decide, hn⟩
  refine ⟨d, hmem, ?_, hle, hleast⟩
  have hlt : i < firstDivs.length := (List.getElem?_eq_some_iff.mp hget).1
  have hidx : findBestIc n = i := by
    rw [findBestIc, i2cDivs, List.findIdx?_append, hfind]; rfl
  rw [hidx, i2cDivs, List.getElem?_append_left hlt, hget]

/-- どの商にも、表の値が選ばれる。 -/
theorem findBestIc_valid (n : Nat) : ∃ d, i2cDivs[findBestIc n]? = some d := by
  by_cases hn : n ≤ 3840
  · obtain ⟨d, -, h, -⟩ := findBestIc_first hn
    exact ⟨d, h⟩
  · have hnone : i2cDivs.findIdx? (fun d => decide (n ≤ d)) = none := by
      rw [List.findIdx?_eq_none_iff]
      intro e he
      exact decide_eq_false fun h => hn (h.trans (i2cDivs_le he))
    refine ⟨768, ?_⟩
    rw [findBestIc, hnone]
    rfl

theorem findBestIc_small (n : Nat) : findBestIc n < 2 ^ 16 := by
  obtain ⟨d, hd⟩ := findBestIc_valid n
  exact lt_of_lt_of_le (List.getElem?_eq_some_iff.mp hd).1 (by decide)

/-! ## 一つの速度 -/

section

variable {clk speed d : Nat}

/-- 選ばれた分周が正しいのは、`SpeedServed` のときに限る。 -/
theorem chosen_right_iff (hspeed : speed ≠ 0) (hd : i2cDivs[findBestIc (clk / speed)]? = some d) :
    ((∃ e ∈ i2cDivs, DivSuits clk speed e) → DivSuits clk speed d ∧ ∀ e ∈ i2cDivs, DivSuits clk speed e → d ≤ e) ↔
      SpeedServed clk speed := by
  have hpos : 0 < speed := Nat.pos_of_ne_zero hspeed
  have hquot : ∀ e, DivSuits clk speed e → clk / speed ≤ e := fun e he => Nat.div_le_of_le_mul (by rwa [Nat.mul_comm])
  by_cases hfar : 3840 * speed < clk
  · refine iff_of_true ?_ ⟨hspeed, Or.inl hfar⟩
    rintro ⟨e, he, hsuit⟩
    exact absurd (hsuit.trans (Nat.mul_le_mul_right speed (i2cDivs_le he))) (Nat.not_le.mpr hfar)
  · have hsuit : DivSuits clk speed 3840 := Nat.le_of_not_lt hfar
    obtain ⟨d', hmem, hget, hle, hleast⟩ := findBestIc_first (hquot 3840 hsuit)
    have heq : d' = d := Option.some.inj (hget.symm.trans hd)
    subst heq
    constructor
    · intro h
      obtain ⟨hok, hmin⟩ := h ⟨3840, by decide, hsuit⟩
      refine ⟨hspeed, Or.inr ⟨d', hmem, hok, hleast, fun e he hlt hse => ?_⟩⟩
      exact absurd (hmin e (List.mem_append_right _ he) hse) (Nat.not_le.mpr hlt)
    · rintro ⟨-, hcase⟩ -
      obtain ⟨d, hd', hok, hbelow, hsecond⟩ := hcase.resolve_left hfar
      have hsame : d' = d := by
        rcases Nat.lt_trichotomy d' d with hlt | heq | hgt
        · exact absurd (hbelow d' hmem hlt) (Nat.not_lt.mpr hle)
        · exact heq
        · exact absurd (hleast d hd' hgt) (Nat.not_lt.mpr (hquot d hok))
      subst hsame
      refine ⟨hok, fun e he hse => Nat.le_of_not_lt fun hlt => ?_⟩
      rcases List.mem_append.mp he with he | he
      · exact absurd (hbelow e he hlt) (Nat.not_lt.mpr (hquot e hse))
      · exact hsecond e he hlt hse

end

/-! ## 実行 -/

/-- 効いている分周は、`dev->speed` から選んだものである。 -/
structure Follows (clk : Nat) (dev : SpeedDev) : Prop where
  inputClk : dev.inputClk = clk
  speed_ne : dev.speed ≠ 0
  i2cFreqVal : dev.i2cFreqVal = findBestIc (clk / dev.speed)
  frqreg : dev.frqreg = dev.i2cFreqVal

section

variable {clk speed : Nat} {dev dev' raw : SpeedDev}

/-- 選んで書けば、効いている分周は新しい速度のものになる。 -/
theorem Follows.chosen (clk : Nat) (hclk : dev.inputClk = clk) (hspeed : speed ≠ 0) :
    Follows clk { dev with speed := speed, i2cFreqVal := findBestIc (dev.inputClk / speed),
                           frqreg := findBestIc (dev.inputClk / speed) % 2 ^ 16 } :=
  { inputClk := hclk, speed_ne := hspeed, i2cFreqVal := by rw [hclk], frqreg := Nat.mod_eq_of_lt (findBestIc_small _) }

/-- 速度を設定した後、効いている分周はその速度のものである。零での除算は、速度が 0 のときに限る。 -/
theorem Follows.chooseSpeed (h : Follows clk dev) (speed : Nat) :
    (speed = 0 ∧ chooseSpeed dev speed = .error .divZero) ∨
      (speed ≠ 0 ∧ ∃ dev', chooseSpeed dev speed = .ok dev' ∧ Follows clk dev' ∧ dev'.speed = speed) := by
  unfold I2c.chooseSpeed
  by_cases hsame : speed = dev.speed
  · rw [if_pos hsame]
    exact Or.inr ⟨hsame ▸ h.speed_ne, dev, rfl, h, hsame.symm⟩
  · rw [if_neg hsame]
    by_cases hzero : speed = 0
    · exact Or.inl ⟨hzero, if_pos hzero⟩
    · rw [if_neg hzero]
      exact Or.inr ⟨hzero, _, rfl, Follows.chosen clk h.inputClk hzero, rfl⟩

/-- 受け入れられた設定は、零での除算をしないかぎり終わる。 -/
theorem Follows.setBusSpeed (h : Follows clk dev) (hle : speed ≤ 400000) (hspeed : speed ≠ 0) (out : Bool) :
    ∃ dev' d, mx35SetBusSpeed dev speed out = .ok (dev', .ok (if out then some (clk / d) else none)) ∧ Follows clk dev' ∧
      dev'.speed = speed ∧ i2cDivs[dev'.frqreg]? = some d ∧ i2cDivs[findBestIc (clk / speed)]? = some d := by
  obtain ⟨hzero, -⟩ | ⟨-, dev', hrun, hfol, hsp⟩ := h.chooseSpeed speed
  · exact absurd hzero hspeed
  · obtain ⟨d, hd⟩ := findBestIc_valid (clk / speed)
    have hval : i2cDivs[dev'.i2cFreqVal]? = some d := by rw [hfol.i2cFreqVal, hsp, hd]
    refine ⟨dev', d, ?_, hfol, hsp, hfol.frqreg ▸ hval, hd⟩
    rw [mx35SetBusSpeed, if_neg (Nat.not_lt.mpr hle), hrun]
    cases out with
    | false => rfl
    | true =>
        dsimp only [bind, Except.bind]
        rw [if_pos rfl, hval, hfol.inputClk]
        rfl

/-- どの出来事も、効いている分周と `dev->speed` の対応を保つ。 -/
theorem Follows.step (h : Follows clk dev) (event : SpeedEvent) (hstep : speedStep dev event = .ok dev') : Follows clk dev' := by
  cases event with
  | setBusSpeed speed out =>
      obtain ⟨⟨devNext, reply⟩, hset, heq⟩ := Except.map_eq_ok.mp hstep
      dsimp only at heq
      subst heq
      by_cases hbig : 400000 < speed
      · rw [mx35SetBusSpeed, if_pos hbig] at hset
        cases hset
        exact h
      · by_cases hzero : speed = 0
        · obtain ⟨-, hfault⟩ | ⟨hne, -⟩ := h.chooseSpeed speed
          · rw [mx35SetBusSpeed, if_neg hbig, hfault] at hset
            cases hset
          · exact absurd hzero hne
        · obtain ⟨devNext', d, hrun, hfol, -⟩ := h.setBusSpeed (Nat.le_of_not_lt hbig) hzero out
          rw [hset] at hrun
          cases hrun
          exact hfol
  | reset =>
      cases hstep
      have hsmall : dev.i2cFreqVal < 2 ^ 16 := h.i2cFreqVal ▸ findBestIc_small _
      exact { inputClk := h.inputClk, speed_ne := h.speed_ne, i2cFreqVal := h.i2cFreqVal, frqreg := Nat.mod_eq_of_lt hsmall }

/-- `malloc()` された値が、たまたま 100000 でなければ、初めの設定は書かれる。 -/
theorem follows_init (hraw : raw.speed ≠ 100000) (h : speedStep raw (.setBusSpeed 100000 false) = .ok dev) :
    Follows raw.inputClk dev := by
  rw [speedStep, mx35SetBusSpeed, if_neg (by decide), chooseSpeed, if_neg (Ne.symm hraw), if_neg (by decide)] at h
  cases h
  exact Follows.chosen raw.inputClk rfl (by decide)

theorem follows_run (hraw : raw.speed ≠ 100000) {events : List SpeedEvent} (hrun : speedRun raw events = .ok dev) :
    Follows raw.inputClk dev := by
  obtain ⟨start, hinit, hrest⟩ := Except.bind_eq_ok.mp hrun
  have hstart := follows_init hraw hinit
  clear hrun hinit
  induction events generalizing start with
  | nil => cases hrest; exact hstart
  | cons event events ih =>
      rw [List.foldlM_cons] at hrest
      obtain ⟨next, hstep, hrest⟩ := Except.bind_eq_ok.mp hrest
      exact ih next hrest (hstart.step event hstep)

/-- どの実行の後の呼び出しも、正しいのは `SpeedServed` のときに限る。 -/
theorem set_bus_speed_right_iff (hraw : raw.speed ≠ 100000) {events : List SpeedEvent} (hrun : speedRun raw events = .ok dev)
    (hle : speed ≤ 400000) (out : Bool) : SpeedRight dev speed out ↔ SpeedServed raw.inputClk speed := by
  have h := follows_run hraw hrun
  by_cases hzero : speed = 0
  · refine iff_of_false ?_ fun hserved => hserved.1 hzero
    rintro ⟨dev', d, hset, -⟩
    obtain ⟨-, hfault⟩ | ⟨hne, -⟩ := h.chooseSpeed speed
    · rw [mx35SetBusSpeed, if_neg (Nat.not_lt.mpr hle), hfault] at hset
      cases hset
    · exact hne hzero
  · obtain ⟨dev₁, d₁, hset₁, -, -, hreg₁, hd₁⟩ := h.setBusSpeed hle hzero out
    rw [← chosen_right_iff hzero hd₁, SpeedRight, h.inputClk]
    constructor
    · rintro ⟨dev', d, hset, hreg, hright⟩
      rw [hset₁] at hset
      have hdev : dev₁ = dev' := congrArg Prod.fst (Except.ok.inj hset)
      subst hdev
      have hd : d₁ = d := Option.some.inj (hreg₁.symm.trans hreg)
      subst hd
      exact hright
    · intro hright
      exact ⟨dev₁, d₁, hset₁, hreg₁, hright⟩

end

theorem set_bus_speed_right_sample :
    SpeedRight ⟨66000000, 400000, 14, 14⟩ 100000 true ↔ SpeedServed 66000000 100000 := by
  have hrun : speedRun ⟨66000000, 0, 0, 0⟩ [.setBusSpeed 400000 true, .reset] = .ok ⟨66000000, 400000, 14, 14⟩ := by decide
  exact set_bus_speed_right_iff (by decide) hrun (by decide) true

/-- 66 MHz で 103044 ボーを求めると、切り捨てた商 640 がそのまま選ばれ、103125 ボーになる。 -/
theorem set_bus_speed_not_right :
    ¬ ∀ (raw dev : SpeedDev) (events : List SpeedEvent) (speed : Nat) (out : Bool), speedRun raw events = .ok dev → speed ≤ 400000 →
      SpeedRight dev speed out := by
  intro h
  have hrun : speedRun ⟨66000000, 0, 0, 0⟩ [] = .ok ⟨66000000, 100000, 22, 22⟩ := by decide
  obtain ⟨dev', d, hset, hreg, hright⟩ := h _ _ _ 103044 true hrun (by decide)
  have hcall : mx35SetBusSpeed ⟨66000000, 100000, 22, 22⟩ 103044 true =
      .ok (⟨66000000, 103044, 21, 21⟩, .ok (some 103125)) := by decide
  have hdev : dev' = ⟨66000000, 103044, 21, 21⟩ := congrArg Prod.fst (Except.ok.inj (hset.symm.trans hcall))
  have hd : d = 640 := by
    rw [hdev] at hreg
    exact (Option.some.inj hreg).symm
  have hsuit := (hright ⟨768, by decide, by unfold DivSuits; decide⟩).1
  rw [hd] at hsuit
  exact absurd hsuit (by unfold DivSuits; decide)

end Imx6Bsp.I2c
