import Imx6Bsp.Startup.Lemmas.Smp

/-!
# CPU の起動の排他と、待ち合わせの詳細化

起動の間、一つしかないスタックと起動ライブラリの変数に触れる CPU が一つずつであることと、`ldrex` と `strex` による待ち合わせの
実行が、不可分な交換による待ち合わせの実行であることを示す。
-/

namespace Imx6Bsp.Startup

open Imx6Bsp.Lib

variable {cfg : SmpConfig} {spin : SpinCallout} {s t : Smp}

/-! ## 二つの CPU の例 -/

/-- 二つの CPU の例。 -/
def sampleSmp : SmpConfig where
  maxCpus := 4
  scuConfig := 1
  cpuid k := 0x412fc09a + BitVec.ofNat 32 k
  smpStartMx6x := 0x10001000

/-- 起動から、CPU 1 が `0x80001000` に跳び、カーネルが終了を命じるまで。 -/
def sampleSmpRun : List SmpEvent :=
  [.cpu0, .cpu0, .cpu0, .ap 1, .ap 1, .ap 1, .ap 1, .ap 1, .cpu0, .cpu0, .cpu0, .cpu0, .cpu0, .ap 1, .ap 1, .cpu0, .cpu0,
    .kernel 0x80001000, .ap 1, .ap 1, .ap 1, .ap 1]

instance (rule : BitVec 32 → List (BitVec 32) → BitVec 32 → Prop) [∀ a vs v, Decidable (rule a vs v)] :
    ∀ s e, Decidable (kernelObeys rule s e)
  | s, .kernel v => inferInstanceAs (Decidable (rule s.startAddr s.offered v))
  | _, .cpu0 | _, .ap _ | _, .strexFails _ => isTrue trivial

theorem sampleSmp_runs : ((runAll (smpStep .smpSpinPl310 sampleSmp) (kernelObeys fun a vs _ => a = 0 ∧ -1 ∉ vs)
    sampleSmpRun (Smp.init sampleSmp fun _ => 0)).any fun s => s.ap 1 = .jumped 1 0x80001000) = true := by
  decide

theorem exists_sampleSmp : ∃ s, Reaches (smpStep .smpSpinPl310 sampleSmp) (kernelObeys fun a vs _ => a = 0 ∧ -1 ∉ vs)
    (Smp.init sampleSmp fun _ => 0) s ∧ s.ap 1 = .jumped 1 0x80001000 := by
  obtain ⟨s, hs, hj⟩ := (Option.any_eq_true _ _).mp sampleSmp_runs
  exact ⟨s, runAll_reaches hs, of_decide_eq_true hj⟩

/-! ## 起動の排他 -/

/-- どの順に歩んでも、待たずに動いている CPU は高々一つで、その間 CPU 0 はその CPU を待っている。番号は CPU 自身の番号で、
`cpuinfo` の欄はその CPU が一度書き、`smp_start_mx6x` を出た後のリセットベクタは元の値である。 -/
theorem smp_start_exclusive {ok : Smp → SmpEvent → Prop} {src : Nat → BitVec 32}
    (h : Reaches (smpStep spin cfg) ok (Smp.init cfg src) s) :
    (∀ j k, (s.ap j).Busy → (s.ap k).Busy → j = k) ∧
      (∀ k, (s.ap k).Busy → (∃ c, s.boot = .polling k c) ∨ s.boot = .apFail k ∨ s.boot = .awaiting k) ∧
      (∀ k n, (s.ap k).number? = some n → n = k) ∧
      (∀ k, s.cpuinfo k = if k = 0 ∨ (s.ap k).informed = true then some (cfg.cpuid k) else none) ∧
      ∀ k, s.ap k ≠ .reset → s.src (mx6xSrcGpr k) = src (mx6xSrcGpr k) := by
  have hinv := (Smp.reaches_inv h).1
  have hdata := Smp.Data.reaches h
  exact ⟨fun _ _ => hinv.busy_unique, fun k => (hinv.core k).busy, fun k n => (hinv.core k).number, hdata.info, hdata.vec⟩

theorem smp_start_exclusive_sample : ∃ s : Smp, s.ap 1 = .jumped 1 0x80001000 ∧
    (∀ j k, (s.ap j).Busy → (s.ap k).Busy → j = k) ∧ s.cpuinfo 1 = some 0x412fc09b ∧ s.src (mx6xSrcGpr 1) = 0 := by
  obtain ⟨s, h, hj⟩ := exists_sampleSmp
  obtain ⟨hbusy, -, -, hinfo, hvec⟩ := smp_start_exclusive h
  have hinfo := hinfo 1
  rw [hj, if_pos (.inr rfl)] at hinfo
  exact ⟨s, hj, hbusy, hinfo, hvec 1 (by simp [hj])⟩

/-! ## `ldrex` と `strex` による交換 -/

/-- `strex` の成功より前の位置は、どれも `start_addr` を読む前の位置と見る。 -/
def ApAt.view : ApAt → ApAt
  | .swapping n | .reserved n _ => .spin n
  | a => a

def Smp.view (s : Smp) : Smp := { s with ap := fun k => (s.ap k).view, monitor := fun _ => false }

theorem Smp.view_setAp (s : Smp) (k : Nat) (a : ApAt) : (s.setAp k a).view = s.view.setAp k a.view := by
  simp only [Smp.view, Smp.setAp, Smp.mk.injEq, true_and, and_true]
  funext j
  simp only [Function.update_apply]
  split <;> rfl

theorem Smp.setAp_self {k : Nat} {a : ApAt} (h : s.ap k = a) : s.setAp k a = s := by
  simp only [Smp.setAp, ← h, Function.update_eq_self]

theorem Smp.view_setAp_same {k : Nat} {a : ApAt} (h : (s.ap k).view = a.view) : (s.setAp k a).view = s.view := by
  rw [Smp.view_setAp]
  exact Smp.setAp_self h

theorem boardSmpStart_view (s : Smp) (i : Nat) : boardSmpStart cfg s.view i = ((boardSmpStart cfg s i).1.view, 1) := by
  have h : (s.setAp i .reset).view.ap = (s.view.setAp i .reset).ap := by rw [Smp.view_setAp]; rfl
  simp only [boardSmpStart, Prod.mk.injEq, and_true, Smp.view, Smp.setAp, Smp.mk.injEq, true_and] at h ⊢
  exact h.symm

theorem cpu0Step_view (s : Smp) : cpu0Step cfg s.view = (cpu0Step cfg s).map Smp.view := by
  have hb : s.view.boot = s.boot := rfl
  cases hboot : s.boot <;> rw [hboot] at hb <;> simp only [cpu0Step, hboot, hb, boardSmpStart_view]
  case starting i => split_ifs <;> rfl
  case polling i c =>
    rw [show s.view.cpuStarting = s.cpuStarting from rfl]
    split_ifs <;> rfl
  case transferring i => split_ifs <;> rfl
  case awaiting i =>
    rw [show s.view.pending = s.pending from rfl]
    split_ifs <;> rfl
  all_goals rfl

/-- 交換の途中でない CPU の一歩は、見える状態でも同じ一歩である。 -/
theorem apStep_view_same {k : Nat} (hsw : ∀ n, s.ap k ≠ .swapping n) (hre : ∀ n v, s.ap k ≠ .reserved n v)
    (hsp : ∀ n, s.ap k = .spin n → s.startAddr = 0) (hs : apStep .smpSpinPl310 cfg s k = some t) :
    apStep .smpSpin cfg s.view k = some t.view := by
  have hk : s.view.ap k = s.ap k := by
    show (s.ap k).view = s.ap k
    cases ha : s.ap k <;> first | rfl | exact absurd ha (hsw _) | exact absurd ha (hre _ _)
  cases ha : s.ap k <;> simp only [apStep, ha] at hs <;> rw [ha] at hk <;> simp only [apStep, hk]
  case swapping n => exact absurd ha (hsw n)
  case reserved n v => exact absurd ha (hre n v)
  case spin n =>
    rw [if_pos (hsp n ha)] at hs
    rw [if_pos (show s.view.startAddr = 0 from hsp n ha)]
    cases hs; rfl
  case off => cases hs
  case jumped n v => cases hs
  case halted n => cases hs
  case entered =>
    have : t = s.setAp k (.startup (boardSmpAdjustNum (wrap32 (s.cpuStarting + (2 ^ 32 - 1))))) :=
      (Option.some.inj hs).symm
    rw [this, Smp.view_setAp]
    rfl
  case parked n =>
    rw [show s.view.syspageAvailable = s.syspageAvailable from rfl]
    split_ifs at hs ⊢ <;> cases hs
    · rw [Smp.view_setAp]; rfl
    · rfl
  case taken n v =>
    split_ifs at hs ⊢ <;> cases hs
    · rw [Smp.view_setAp]; rfl
    · rw [Smp.view_setAp]; rfl
  case reset =>
    cases hs
    exact congrArg (fun u : Smp => some { u with src := Function.update s.src s.startupResetVecAddr s.startupResetVec })
      (Smp.view_setAp s k .entered).symm
  case startup n =>
    cases hs
    exact congrArg (fun u : Smp => some { u with cpuinfo := Function.update s.cpuinfo n (some (cfg.cpuid k)) })
      (Smp.view_setAp s k (.started n)).symm
  case started n =>
    cases hs
    exact congrArg (fun u : Smp => some { u with cpuStarting := 0 }) (Smp.view_setAp s k (.parked n)).symm
  case startnext n =>
    cases hs
    exact congrArg (fun u : Smp => some { u with pending := 0 }) (Smp.view_setAp s k (.spin n)).symm

theorem smpStep_ap_iff {k : Nat} : smpStep spin cfg s (.ap k) = .ok t ↔ apStep spin cfg s k = some t := elim_eq_ok

/-- `ldrex` と `strex` による待ち合わせの一歩は、不可分な交換による待ち合わせの零歩、一歩か二歩である。 -/
theorem apStep_view (hr : s.Reserved) {ok : Smp → SmpEvent → Prop} (hok : ∀ u j, ok u (.ap j)) {k : Nat}
    (hs : apStep .smpSpinPl310 cfg s k = some t) : Reaches (smpStep .smpSpin cfg) ok s.view t.view := by
  have hsame (h1 : ∀ n, s.ap k ≠ .swapping n) (h2 : ∀ n v, s.ap k ≠ .reserved n v)
      (h3 : ∀ n, s.ap k = .spin n → s.startAddr = 0) : Reaches (smpStep .smpSpin cfg) ok s.view t.view :=
    .tail .refl (hok _ k) (smpStep_ap_iff.mpr (apStep_view_same h1 h2 h3 hs))
  cases ha : s.ap k
  case spin n =>
    by_cases h0 : s.startAddr = 0
    · exact hsame (by simp [ha]) (by simp [ha]) fun _ _ => h0
    · simp only [apStep, ha, if_neg h0, Option.some.injEq] at hs
      rw [← hs, Smp.view_setAp_same (by rw [ha]; rfl)]
      exact .refl
  case swapping n =>
    simp only [apStep, ha, Option.some.injEq] at hs
    have hview : t.view = s.view := by
      rw [← hs]
      exact Smp.view_setAp_same (a := .reserved n s.startAddr) (by rw [ha]; rfl)
    rw [hview]
    exact .refl
  case reserved n v =>
    simp only [apStep, ha] at hs
    split at hs
    · rename_i hmon
      obtain ⟨m, hm⟩ := hr k hmon
      obtain ⟨rfl, hv⟩ : n = m ∧ v = s.startAddr := by simpa [ha] using hm
      cases hs
      have hspin : s.view.ap k = .spin n := by
        show (s.ap k).view = .spin n
        rw [ha]; rfl
      rw [Smp.view_setAp]
      by_cases h0 : v = 0
      · -- `0` を読んで `0` を書いたので、何も変わらない。
        have h1 : afterSwap n v = .spin n := if_pos h0
        have h2 : (s.store 0).view = s.view := by rw [← h0, hv]; rfl
        rw [h1, h2, Smp.setAp_self (a := (ApAt.spin n).view) hspin]
        exact .refl
      · have h1 : (afterSwap n v).view = .taken n v := by rw [afterSwap, if_neg h0]; rfl
        have hread : apStep .smpSpin cfg s.view k = some (s.view.setAp k (.swapping n)) := by
          simp only [apStep, hspin]
          exact if_neg (by rw [show s.view.startAddr = v from hv.symm]; exact h0)
        have hswap : apStep .smpSpin cfg (s.view.setAp k (.swapping n)) k =
            some ((s.store 0).view.setAp k (.taken n v)) := by
          have hk : (s.view.setAp k (.swapping n)).ap k = .swapping n := Function.update_self ..
          simp only [apStep, hk, Option.some.injEq]
          rw [show (s.view.setAp k (.swapping n)).startAddr = v from hv.symm, afterSwap, if_neg h0]
          simp only [Smp.store, Smp.setAp, Smp.view, Function.update_idem]
        rw [h1]
        exact .tail (.tail .refl (hok _ k) (smpStep_ap_iff.mpr hread)) (hok _ k) (smpStep_ap_iff.mpr hswap)
    · cases hs
      rw [Smp.view_setAp_same (by rw [ha]; rfl)]
      exact .refl
  all_goals exact hsame (by simp [ha]) (by simp [ha]) (by simp [ha])

/-- `board_smp_init` が選ぶ待ち合わせ（`ldrex` と `strex`）の実行は、CPU ごとの位置を粗く見れば、不可分な交換（`swp`）による
待ち合わせの実行である。カーネルの書き方の約束は問わない。 -/
theorem smpSpinPl310_refines {rule : BitVec 32 → List (BitVec 32) → BitVec 32 → Prop} {src : Nat → BitVec 32}
    (h : Reaches (smpStep .smpSpinPl310 cfg) (kernelObeys rule) (Smp.init cfg src) s) :
    Reaches (smpStep .smpSpin cfg) (kernelObeys rule) (Smp.init cfg src) s.view := by
  have hview : (Smp.init cfg src).view = Smp.init cfg src := rfl
  suffices h' : s.Inv cfg ∧ s.Reserved ∧
      Reaches (smpStep .smpSpin cfg) (kernelObeys rule) (Smp.init cfg src) s.view from h'.2.2
  refine h.invariant (P := fun s => s.Inv cfg ∧ s.Reserved ∧
    Reaches (smpStep .smpSpin cfg) (kernelObeys rule) (Smp.init cfg src) s.view)
    ⟨Smp.inv_init src, .clear _ fun _ => rfl, .refl⟩ fun u e v hu hok hs => ?_
  obtain ⟨hinv, hr, hu⟩ := hu
  refine ⟨hinv.step hs, hr.step hinv hs, ?_⟩
  cases e with
  | cpu0 =>
      refine .tail (i := .cpu0) hu trivial (elim_eq_ok.mpr ?_)
      rw [cpu0Step_view, elim_eq_ok.mp hs]
      rfl
  | ap k => exact hu.trans (apStep_view hr (fun _ _ => trivial) (elim_eq_ok.mp hs))
  | strexFails k =>
      have hs := elim_eq_ok.mp hs
      cases ha : u.ap k <;> simp only [strexFailStep, ha, reduceCtorEq] at hs
      case reserved n w =>
        cases hs
        have hsame : (u.setAp k (.spin n)).view = u.view := Smp.view_setAp_same (by rw [ha]; rfl)
        exact hsame ▸ hu
  | kernel w =>
      refine .tail (i := .kernel w) hu hok (elim_eq_ok.mpr ?_)
      have hs := elim_eq_ok.mp hs
      unfold kernelStep at hs ⊢
      split at hs <;> cases hs
      rename_i hb
      exact if_pos hb

theorem smpSpinPl310_refines_sample : ∃ s : Smp, s.ap 1 = .jumped 1 0x80001000 ∧
    Reaches (smpStep .smpSpin sampleSmp) (kernelObeys fun a vs _ => a = 0 ∧ -1 ∉ vs) (Smp.init sampleSmp fun _ => 0)
      s.view := by
  obtain ⟨s, h, hj⟩ := exists_sampleSmp
  exact ⟨s, hj, smpSpinPl310_refines h⟩

end Imx6Bsp.Startup
