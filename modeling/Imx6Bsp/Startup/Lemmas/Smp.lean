import Imx6Bsp.Startup.Smp

/-!
# 起動する CPU の位置の不変条件

CPU 0 の位置ごとに、ほかの CPU がありうる位置を一つの述語にまとめ、どの一歩でも保たれることを示す。
-/

namespace Imx6Bsp.Startup

open Imx6Bsp.Lib

/-! ## 位置の組み合わせ -/

namespace ApAt

/-- CPU 0 が動き出させ、次に待つまでの間の位置。スタック `stack` を使うのはこの間だけである。 -/
def Busy : ApAt → Prop
  | .reset | .entered | .startup _ | .started _ | .startnext _ => True
  | _ => False

/-- `cpu_starting` を消す前の CPU `k` の位置。 -/
def Coming (k : Nat) : ApAt → Prop
  | .reset | .entered => True
  | .startup n | .started n => n = k
  | _ => False

/-- `pending` を消した後の CPU `k` の位置。 -/
def Released (k : Nat) : ApAt → Prop
  | .spin n | .swapping n | .reserved n _ | .taken n _ | .jumped n _ | .halted n => n = k
  | _ => False

/-- `cpuinfo` を書いた後の位置。 -/
def informed : ApAt → Bool
  | .off | .reset | .entered | .startup _ => false
  | _ => true

def number? : ApAt → Option Nat
  | .off | .reset | .entered => none
  | .startup n | .started n | .parked n | .startnext n | .spin n | .swapping n | .reserved n _ | .taken n _
  | .jumped n _ | .halted n => some n

end ApAt

/-- CPU 0 の位置ごとに、CPU `k` がありうる位置。 -/
def Expects (numCpu cpuStarting pending k : Nat) (a : ApAt) : BootAt → Prop
  | .starting i | .releasing i => if 1 ≤ k ∧ k < i then a = .parked k else a = .off
  | .polling i _ | .apFail i =>
      if k = i then (a.Coming k ∧ cpuStarting = i + 1) ∨ (a = .parked k ∧ cpuStarting = 0)
      else if 1 ≤ k ∧ k < i then a = .parked k else a = .off
  | .building => if 1 ≤ k ∧ k < numCpu then a = .parked k else a = .off
  | .transferring i | .offering i =>
      if 1 ≤ k ∧ k < i then a.Released k else if 1 ≤ k ∧ k < numCpu then a = .parked k else a = .off
  | .awaiting i =>
      if k = i then ((a = .parked k ∨ a = .startnext k) ∧ pending ≠ 0) ∨ (a.Released k ∧ pending = 0)
      else if 1 ≤ k ∧ k < i then a.Released k else if 1 ≤ k ∧ k < numCpu then a = .parked k else a = .off
  | .startnext => if 1 ≤ k ∧ k < numCpu then a.Released k else a = .off

/-- CPU 0 の位置ごとに、CPU 0 が書いた変数の値。 -/
def BootOk (numCpu cpuStarting syspageAvailable pending : Nat) : BootAt → Prop
  | .starting i => 1 ≤ i ∧ i ≤ numCpu ∧ cpuStarting = 0 ∧ syspageAvailable = 0
  | .releasing i => 1 ≤ i ∧ i < numCpu ∧ cpuStarting = i + 1 ∧ syspageAvailable = 0
  | .polling i _ | .apFail i => 1 ≤ i ∧ i < numCpu ∧ syspageAvailable = 0
  | .building => syspageAvailable = 0
  | .transferring i => 1 ≤ i ∧ i ≤ numCpu ∧ syspageAvailable + 1 = i
  | .offering i => 1 ≤ i ∧ i < numCpu ∧ syspageAvailable + 1 = i ∧ pending ≠ 0
  | .awaiting i => 1 ≤ i ∧ i < numCpu ∧ syspageAvailable = i
  | .startnext => True

structure Smp.Inv (cfg : SmpConfig) (s : Smp) : Prop where
  boot : BootOk cfg.numCpu s.cpuStarting s.syspageAvailable s.pending s.boot
  core : ∀ k, Expects cfg.numCpu s.cpuStarting s.pending k (s.ap k) s.boot

theorem SmpConfig.numCpu_pos (cfg : SmpConfig) : 1 ≤ cfg.numCpu := by
  unfold SmpConfig.numCpu boardSmpNumCpu
  split
  · split <;> omega
  · omega

variable {cfg : SmpConfig} {spin : SpinCallout} {s t : Smp}

theorem Smp.inv_init (src : Nat → BitVec 32) : Smp.Inv cfg (Smp.init cfg src) where
  boot := ⟨Nat.le_refl _, cfg.numCpu_pos, rfl, rfl⟩
  core k := by
    show if 1 ≤ k ∧ k < 1 then _ else _
    rw [if_neg (by omega)]
    rfl

theorem Smp.Inv.cpu0 (h : s.Inv cfg) (hs : cpu0Step cfg s = some t) : t.Inv cfg := by
  obtain ⟨hb, hc⟩ := h
  cases hboot : s.boot <;> rw [hboot] at hb hc <;> simp only [cpu0Step, hboot] at hs
  case starting i =>
    split at hs <;> cases hs
    · exact ⟨⟨hb.1, ‹_›, rfl, hb.2.2.2⟩, hc⟩
    · refine ⟨hb.2.2.2, fun k => ?_⟩
      have hk := hc k
      have : i = cfg.numCpu := by have := hb.2.1; omega
      subst this
      exact hk
  case releasing i =>
    obtain ⟨hi, hlt, hcs, hsa⟩ := hb
    simp only [boardSmpStart, ne_eq, one_ne_zero, not_false_eq_true, ↓reduceIte, Option.some.injEq] at hs
    subst hs
    refine ⟨⟨hi, hlt, hsa⟩, fun k => ?_⟩
    have hk := hc k
    simp only [Expects, Smp.setAp, Function.update_apply] at hk ⊢
    by_cases hki : k = i
    · rw [if_pos hki, if_pos hki]
      exact .inl ⟨trivial, hcs⟩
    · rw [if_neg hki, if_neg hki]
      exact hk
  case polling i c =>
    obtain ⟨hi, hlt, hsa⟩ := hb
    split at hs
    · cases hs
      exact ⟨⟨hi, hlt, hsa⟩, hc⟩
    · split at hs <;> cases hs
      · exact ⟨⟨hi, hlt, hsa⟩, hc⟩
      · rename_i hcs
        have hcs : s.cpuStarting = 0 := not_not.mp hcs
        refine ⟨⟨by omega, by omega, hcs, hsa⟩, fun k => ?_⟩
        have hk := hc k
        simp only [Expects] at hk ⊢
        by_cases hki : k = i
        · rw [if_pos hki] at hk
          rw [if_pos (by omega)]
          exact hk.elim (fun h => by omega) And.left
        · rw [if_neg hki] at hk
          by_cases hlt : 1 ≤ k ∧ k < i
          · rw [if_pos hlt] at hk
            rw [if_pos (by omega)]
            exact hk
          · rw [if_neg hlt] at hk
            rw [if_neg (by omega)]
            exact hk
  case apFail i => cases hs
  case building =>
    cases hs
    refine ⟨⟨Nat.le_refl _, cfg.numCpu_pos, by rw [show s.syspageAvailable = 0 from hb]⟩, fun k => ?_⟩
    have hk := hc k
    simp only [Expects] at hk ⊢
    rw [if_neg (by omega)]
    exact hk
  case transferring i =>
    obtain ⟨hi, hle, hsa⟩ := hb
    split at hs <;> cases hs
    · exact ⟨⟨hi, ‹_›, hsa, one_ne_zero⟩, hc⟩
    · refine ⟨trivial, fun k => ?_⟩
      have hk := hc k
      have : i = cfg.numCpu := by omega
      subst this
      simp only [Expects] at hk ⊢
      by_cases hlt : 1 ≤ k ∧ k < cfg.numCpu
      · rw [if_pos hlt] at hk ⊢
        exact hk
      · rw [if_neg hlt, if_neg hlt] at hk
        rw [if_neg hlt]
        exact hk
  case offering i =>
    obtain ⟨hi, hlt, hsa, hp⟩ := hb
    cases hs
    refine ⟨⟨hi, hlt, rfl⟩, fun k => ?_⟩
    have hk := hc k
    simp only [Expects] at hk ⊢
    by_cases hki : k = i
    · rw [if_neg (by omega), if_pos (by omega)] at hk
      rw [if_pos hki]
      exact .inl ⟨.inl hk, hp⟩
    · rw [if_neg hki]
      exact hk
  case awaiting i =>
    obtain ⟨hi, hlt, hsa⟩ := hb
    split at hs <;> cases hs
    · exact ⟨by rw [hboot]; exact ⟨hi, hlt, hsa⟩, by rw [hboot]; exact hc⟩
    · rename_i hp
      have hp : s.pending = 0 := not_not.mp hp
      refine ⟨⟨by omega, hlt, congrArg (· + 1) hsa⟩, fun k => ?_⟩
      have hk := hc k
      simp only [Expects] at hk ⊢
      by_cases hki : k = i
      · rw [if_pos hki] at hk
        rw [if_pos (by omega)]
        exact hk.elim (fun h => absurd hp h.2) And.left
      · rw [if_neg hki] at hk
        by_cases hlt : 1 ≤ k ∧ k < i
        · rw [if_pos hlt] at hk
          rw [if_pos (by omega)]
          exact hk
        · rw [if_neg hlt] at hk
          rw [if_neg (by omega)]
          exact hk
  case startnext => cases hs

/-! ## 二番目以降の CPU の一歩 -/

section

variable {n cs p k m : Nat} {a : ApAt} {b : BootAt}

/-- 起動の途中の CPU は、CPU 0 が待っている CPU である。 -/
theorem Expects.coming (h : Expects n cs p k a b) (ha : a.Busy) (hne : ∀ m, a ≠ .startnext m) :
    a.Coming k ∧ cs = k + 1 ∧ ((∃ c, b = .polling k c) ∨ b = .apFail k) := by
  have hpark : a ≠ .parked k := by rintro rfl; exact ha
  have hoff : a ≠ .off := by rintro rfl; exact ha
  have hrel : ¬a.Released k := by
    cases a <;> first | exact ha.elim | exact fun h => h
  cases b with
  | polling i c | apFail i =>
      simp only [Expects] at h
      split at h
      · rename_i hki
        subst hki
        rcases h with h | h
        · exact ⟨h.1, h.2, by simp⟩
        · exact absurd h.1 hpark
      · split at h
        · exact absurd h hpark
        · exact absurd h hoff
  | awaiting i =>
      simp only [Expects] at h
      split at h
      · rcases h with ⟨h | h, -⟩ | h
        · exact absurd h hpark
        · exact absurd h (hne k)
        · exact absurd h.1 hrel
      · split at h
        · exact absurd h hrel
        · split at h
          · exact absurd h hpark
          · exact absurd h hoff
  | _ =>
      simp only [Expects] at h
      repeat' split at h
      all_goals first | exact absurd h hpark | exact absurd h hoff | exact absurd h hrel

theorem Expects.parked (h : Expects n cs p k (.parked m) b) : m = k := by
  cases b <;> simp only [Expects, ApAt.Coming, ApAt.Released, reduceCtorEq, ApAt.parked.injEq, false_and, false_or,
    or_false, ite_self] at h <;> (repeat' split at h) <;> first | exact h | exact h.1 | exact h.elim

theorem Expects.startnext (h : Expects n cs p k (.startnext m) b) : m = k ∧ p ≠ 0 ∧ b = .awaiting k := by
  cases b <;> simp only [Expects, ApAt.Coming, ApAt.Released, reduceCtorEq, ApAt.startnext.injEq, false_and, false_or,
    or_false, ite_self] at h
  case awaiting i =>
    split at h
    · rename_i hki
      subst hki
      exact ⟨h.1, h.2, rfl⟩
    · exact h.elim

/-- 待ち合わせの呼び出しに入った CPU の位置は、その中のどこでもよい。 -/
theorem Expects.released (h : Expects n cs p k a b) (ha : a.Released m) :
    m = k ∧ ∀ a' : ApAt, a'.Released k → Expects n cs p k a' b := by
  have hpark : a ≠ .parked k := by rintro rfl; exact ha
  have hoff : a ≠ .off := by rintro rfl; exact ha
  have hnext : a ≠ .startnext k := by rintro rfl; exact ha
  have hcom : ¬a.Coming k := by
    cases a <;> first | exact ha.elim | exact fun h => h
  have hm : a.Released k → m = k := by
    cases a <;> first | exact fun _ => ha.elim | exact fun h => Eq.trans (Eq.symm ha) h
  cases b with
  | polling i c | apFail i =>
      simp only [Expects] at h
      split at h
      · rcases h with h | h
        · exact absurd h.1 hcom
        · exact absurd h.1 hpark
      · split at h
        · exact absurd h hpark
        · exact absurd h hoff
  | awaiting i =>
      simp only [Expects] at h ⊢
      split_ifs at h ⊢
      · rcases h with ⟨h | h, -⟩ | h
        · exact absurd h hpark
        · exact absurd h hnext
        · exact ⟨hm h.1, fun a' ha' => .inr ⟨ha', h.2⟩⟩
      · exact ⟨hm h, fun a' ha' => ha'⟩
      · exact absurd h hpark
      · exact absurd h hoff
  | transferring i | offering i =>
      simp only [Expects] at h ⊢
      split_ifs at h ⊢
      · exact ⟨hm h, fun a' ha' => ha'⟩
      · exact absurd h hpark
      · exact absurd h hoff
  | startnext =>
      simp only [Expects] at h ⊢
      split_ifs at h ⊢
      · exact ⟨hm h, fun a' ha' => ha'⟩
      · exact absurd h hoff
  | _ =>
      simp only [Expects] at h
      split at h
      · exact absurd h hpark
      · exact absurd h hoff

/-- `syspage_available` が番号に等しくなった CPU は、CPU 0 が待っている CPU である。 -/
theorem Expects.called (h : Expects n cs p k (.parked k) b) (hb : BootOk n cs k p b) : p ≠ 0 ∧ b = .awaiting k := by
  cases b with
  | awaiting i =>
      obtain ⟨-, -, rfl⟩ := hb
      simp only [Expects, ↓reduceIte, ApAt.Released, false_and, or_false, true_or, true_and] at h
      exact ⟨h, rfl⟩
  | building =>
      obtain rfl : k = 0 := hb
      simp [Expects] at h
  | transferring i | offering i =>
      have hlt : i = k + 1 := by have := hb.2.2; omega
      simp only [Expects] at h
      split_ifs at h
      · exact h.elim
      · omega
  | polling i c | apFail i =>
      obtain rfl : k = 0 := hb.2.2
      have := hb.1
      simp [Expects, show (0 : Nat) ≠ i by omega] at h
  | starting i | releasing i =>
      obtain rfl : k = 0 := hb.2.2.2
      simp [Expects] at h
  | startnext =>
      simp only [Expects] at h
      split_ifs at h
      exact h.elim

/-- CPU `k` を待っている間、ほかの CPU の位置は `cpu_starting` によらない。 -/
theorem Expects.other {cs' : Nat} {j : Nat} (hb : (∃ c, b = .polling k c) ∨ b = .apFail k) (hj : j ≠ k)
    (h : Expects n cs p j a b) : Expects n cs' p j a b := by
  rcases hb with ⟨c, rfl⟩ | rfl <;> simpa only [Expects, if_neg hj] using h

end

namespace Smp

/-- CPU `k` の位置だけを、CPU 0 の位置に合う別の位置に変える。 -/
theorem Inv.setAp (h : s.Inv cfg) {k : Nat} {a : ApAt} (hk : Expects cfg.numCpu s.cpuStarting s.pending k a s.boot) :
    (s.setAp k a).Inv cfg where
  boot := h.boot
  core j := by
    show Expects cfg.numCpu s.cpuStarting s.pending j (Function.update s.ap k a j) s.boot
    rw [Function.update_apply]
    split
    · rename_i hj
      rw [hj]; exact hk
    · exact h.core j

theorem Inv.congr (h : s.Inv cfg) (hboot : t.boot = s.boot) (hap : t.ap = s.ap) (hcs : t.cpuStarting = s.cpuStarting)
    (hsa : t.syspageAvailable = s.syspageAvailable) (hp : t.pending = s.pending) : t.Inv cfg := by
  obtain ⟨hb, hc⟩ := h
  constructor
  · rw [hboot, hcs, hsa, hp]; exact hb
  · rw [hboot, hcs, hp, hap]; exact hc

theorem Inv.waiting_reset (h : s.Inv cfg) {k : Nat} {a : ApAt} (ha : (s.ap k).Busy) (hne : ∀ m, s.ap k ≠ .startnext m)
    (hcom : a.Coming k) : (s.setAp k a).Inv cfg := by
  obtain ⟨-, hcs, hb⟩ := (h.core k).coming ha hne
  refine h.setAp ?_
  rcases hb with ⟨c, hb⟩ | hb <;> rw [hb] <;> simp only [Expects, ↓reduceIte] <;> exact .inl ⟨hcom, hcs⟩

theorem Inv.afterSwap (h : s.Inv cfg) {k n : Nat} {v : BitVec 32} (ha : (s.ap k).Released n) :
    (s.setAp k (afterSwap n v)).Inv cfg := by
  obtain ⟨rfl, hk⟩ := (h.core k).released ha
  refine h.setAp (hk _ ?_)
  unfold Startup.afterSwap
  split <;> exact rfl

theorem Inv.apStep (h : s.Inv cfg) {k : Nat} (hs : apStep spin cfg s k = some t) : t.Inv cfg := by
  have hk := h.core k
  cases ha : s.ap k <;> rw [ha] at hk <;> simp only [Startup.apStep, ha] at hs
  case off => cases hs
  case reset =>
    cases hs
    exact (h.waiting_reset (a := .entered) (by rw [ha]; trivial) (by simp [ha]) trivial).congr rfl rfl rfl rfl rfl
  case entered =>
    obtain ⟨-, hcs, hb⟩ := hk.coming trivial (by simp)
    have hlt : k < cfg.numCpu := by
      have := h.boot
      rcases hb with ⟨c, hb⟩ | hb <;> rw [hb] at this <;> exact this.2.1
    have hnum : boardSmpAdjustNum (wrap32 (s.cpuStarting + (2 ^ 32 - 1))) = k := by
      have := cfg.numCpu_le
      rw [boardSmpAdjustNum, wrap32]
      omega
    rw [hnum, Option.some.injEq] at hs
    subst hs
    exact h.waiting_reset (by rw [ha]; trivial) (by simp [ha]) rfl
  case startup n =>
    cases hs
    obtain ⟨hcom, -, -⟩ := hk.coming trivial (by simp)
    exact (h.waiting_reset (a := .started n) (by rw [ha]; trivial) (by simp [ha]) hcom).congr rfl rfl rfl rfl rfl
  case started n =>
    cases hs
    obtain ⟨hcom, -, hb⟩ := hk.coming trivial (by simp)
    obtain rfl : n = k := hcom
    refine ⟨?_, fun j => ?_⟩
    · have := h.boot
      rcases hb with ⟨c, hb⟩ | hb <;> rw [hb] at this <;> simp only [Smp.setAp, hb] <;> exact this
    · show Expects cfg.numCpu 0 s.pending j (Function.update s.ap n (.parked n) j) s.boot
      rw [Function.update_apply]
      split
      · rename_i hj
        subst hj
        rcases hb with ⟨c, hb⟩ | hb <;> rw [hb] <;> simp [Expects]
      · rename_i hj
        exact (h.core j).other hb hj
  case parked n =>
    obtain rfl := hk.parked
    split at hs <;> cases hs
    · rename_i hsa
      obtain ⟨hp, hb⟩ := hk.called (by rw [← hsa]; exact h.boot)
      refine h.setAp ?_
      simp only [hb, Expects, ↓reduceIte]
      exact .inl ⟨.inr trivial, hp⟩
    · exact h
  case startnext n =>
    cases hs
    obtain ⟨rfl, hp, hb⟩ := hk.startnext
    refine ⟨?_, fun j => ?_⟩
    · have := h.boot
      rw [hb] at this
      simp only [Smp.setAp, hb]; exact this
    · have hj := h.core j
      show Expects cfg.numCpu s.cpuStarting 0 j (Function.update s.ap n (.spin n) j) s.boot
      rw [hb] at hj ⊢
      simp only [Expects] at hj ⊢
      by_cases hne : j = n
      · subst hne
        rw [if_pos rfl, Function.update_self]
        simp [ApAt.Released]
      · rw [if_neg hne, Function.update_of_ne hne]
        rw [if_neg hne] at hj
        exact hj
  case spin n =>
    split at hs <;> cases hs
    · exact h
    · exact h.setAp ((hk.released rfl).2 _ (hk.released rfl).1)
  case swapping n =>
    have ha : (s.ap k).Released n := by rw [ha]; rfl
    cases spin <;> cases hs
    · exact (h.afterSwap ha).congr rfl rfl rfl rfl rfl
    · exact (h.setAp (a := .reserved n s.startAddr) ((hk.released rfl).2 _ (hk.released rfl).1)).congr rfl rfl rfl rfl rfl
  case reserved n v =>
    have ha : (s.ap k).Released n := by rw [ha]; rfl
    split at hs <;> cases hs
    · exact (h.afterSwap ha).congr rfl rfl rfl rfl rfl
    · exact h.setAp ((hk.released rfl).2 _ (hk.released rfl).1)
  case taken n v =>
    split at hs <;> cases hs
    · exact (h.setAp (a := .halted n) ((hk.released rfl).2 _ (hk.released rfl).1)).congr rfl rfl rfl rfl rfl
    · exact h.setAp ((hk.released rfl).2 _ (hk.released rfl).1)
  case jumped n v => cases hs
  case halted n => cases hs

theorem Inv.strexFail (h : s.Inv cfg) {k : Nat} (hs : strexFailStep s k = some t) : t.Inv cfg := by
  have hk := h.core k
  cases ha : s.ap k <;> simp only [strexFailStep, ha, reduceCtorEq] at hs
  case reserved n v =>
    rw [ha] at hk
    cases hs
    exact (h.setAp (a := .spin n) ((hk.released rfl).2 _ (hk.released rfl).1)).congr rfl rfl rfl rfl rfl

theorem Inv.kernel (h : s.Inv cfg) {v : BitVec 32} (hs : kernelStep s v = some t) : t.Inv cfg := by
  unfold kernelStep at hs
  split at hs <;> cases hs
  exact h.congr rfl rfl rfl rfl rfl

end Smp

theorem elim_eq_ok {o : Option Smp} : o.elim (Except.error ()) .ok = .ok t ↔ o = some t := by
  cases o <;> simp

theorem Smp.Inv.step (h : s.Inv cfg) {e : SmpEvent} (hs : smpStep spin cfg s e = .ok t) : t.Inv cfg := by
  cases e with
  | cpu0 => exact h.cpu0 (elim_eq_ok.mp hs)
  | ap k => exact h.apStep (elim_eq_ok.mp hs)
  | strexFails k => exact h.strexFail (elim_eq_ok.mp hs)
  | kernel v => exact h.kernel (elim_eq_ok.mp hs)

/-! ## 番号と記録 -/

section

variable {n cs p k m : Nat} {a : ApAt} {b : BootAt}

theorem Expects.number (h : Expects n cs p k a b) (hm : a.number? = some m) : m = k := by
  cases a with
  | off | reset | entered => cases hm
  | startup i | started i => cases hm; exact (h.coming trivial (by simp)).1
  | parked i => cases hm; exact h.parked
  | startnext i => cases hm; exact h.startnext.1
  | _ => cases hm; exact (h.released rfl).1

theorem Expects.busy (h : Expects n cs p k a b) (ha : a.Busy) :
    (∃ c, b = .polling k c) ∨ b = .apFail k ∨ b = .awaiting k := by
  by_cases hn : ∃ m, a = .startnext m
  · obtain ⟨m, rfl⟩ := hn
    exact .inr (.inr h.startnext.2.2)
  · rcases (h.coming ha fun m hm => hn ⟨m, hm⟩).2.2 with hb | hb
    · exact .inl hb
    · exact .inr (.inl hb)

end

/-! ## 記録とリセットベクタ -/

/-- CPU ごとの `cpuinfo` の欄とリセットベクタ。 -/
structure Smp.Data (cfg : SmpConfig) (src : Nat → BitVec 32) (s : Smp) : Prop where
  info : ∀ k, s.cpuinfo k = if k = 0 ∨ (s.ap k).informed = true then some (cfg.cpuid k) else none
  saved : ∀ k, s.ap k = .reset → s.startupResetVecAddr = mx6xSrcGpr k ∧ s.startupResetVec = src (mx6xSrcGpr k)
  vec : ∀ k, s.ap k ≠ .reset → s.src (mx6xSrcGpr k) = src (mx6xSrcGpr k)

theorem mx6xSrcGpr_ne {j k : Nat} (h : j ≠ k) : mx6xSrcGpr j ≠ mx6xSrcGpr k := by
  unfold mx6xSrcGpr; omega

theorem mx6xSrcGpr_ne_arg (j k : Nat) : mx6xSrcGpr j ≠ mx6xSrcGpr k + 4 := by
  unfold mx6xSrcGpr; omega

theorem mx6xSrcGpr_ne_scr (k : Nat) : mx6xSrcGpr k ≠ mx6xSrcScr := by
  unfold mx6xSrcGpr mx6xSrcScr; omega

theorem afterSwap_informed (n : Nat) (v : BitVec 32) : (afterSwap n v).informed = true := by
  unfold afterSwap; split <;> rfl

theorem afterSwap_ne_reset (n : Nat) (v : BitVec 32) : afterSwap n v ≠ .reset := by
  unfold afterSwap; split <;> nofun

namespace Smp

/-- 待たずに動いている CPU は高々一つである。 -/
theorem Inv.busy_unique (h : s.Inv cfg) {j k : Nat} (hj : (s.ap j).Busy) (hk : (s.ap k).Busy) : j = k := by
  rcases (h.core j).busy hj with ⟨c, hb⟩ | hb | hb <;> rcases (h.core k).busy hk with ⟨d, hb'⟩ | hb' | hb' <;>
    simp_all

variable {src : Nat → BitVec 32}

theorem data_init : Smp.Data cfg src (Smp.init cfg src) where
  info k := by
    simp only [Smp.init, Function.update_apply, ApAt.informed, Bool.false_eq_true, or_false]
    split
    · rename_i hk; rw [hk]
    · rfl
  saved k h := by simp [Smp.init] at h
  vec k _ := rfl

theorem Data.congr (h : s.Data cfg src) (hap : t.ap = s.ap) (hi : t.cpuinfo = s.cpuinfo) (hsrc : t.src = s.src)
    (hv : t.startupResetVec = s.startupResetVec) (ha : t.startupResetVecAddr = s.startupResetVecAddr) :
    t.Data cfg src := by
  obtain ⟨h1, h2, h3⟩ := h
  constructor
  · rw [hap, hi]; exact h1
  · rw [hap, hv, ha]; exact h2
  · rw [hap, hsrc]; exact h3

/-- 記録の済み方が変わらない一歩。 -/
theorem Data.setAp (h : s.Data cfg src) {k : Nat} {a : ApAt} (hi : a.informed = (s.ap k).informed) (ha : a ≠ .reset)
    (hk : s.ap k ≠ .reset) : (s.setAp k a).Data cfg src where
  info j := by
    simp only [Smp.setAp, Function.update_apply]
    split
    · rename_i hj
      rw [hi, ← hj]; exact h.info j
    · exact h.info j
  saved j hj := by
    simp only [Smp.setAp, Function.update_apply] at hj
    split at hj
    · exact absurd hj ha
    · exact h.saved j hj
  vec j hj := by
    simp only [Smp.setAp, Function.update_apply] at hj
    split at hj
    · rename_i hjk
      rw [hjk]; exact h.vec k hk
    · exact h.vec j hj

theorem Data.cpu0 (h : s.Data cfg src) (hinv : s.Inv cfg) (hs : cpu0Step cfg s = some t) : t.Data cfg src := by
  cases hboot : s.boot <;> simp only [cpu0Step, hboot] at hs
  case releasing i =>
    simp only [boardSmpStart, ne_eq, one_ne_zero, not_false_eq_true, ↓reduceIte, Option.some.injEq] at hs
    subst hs
    have hoff : s.ap i = .off := by
      have := hinv.core i
      simpa [Expects, hboot] using this
    have hother : ∀ j, s.ap j ≠ .reset := by
      intro j hj
      have := hinv.core j
      simp only [hboot, Expects, hj] at this
      split at this <;> cases this
    have hsrc : ∀ j, j ≠ i → ∀ x y z w : BitVec 32,
        Function.update (Function.update (Function.update (Function.update s.src (mx6xSrcGpr i) x)
          (mx6xSrcGpr i + 4) y) mx6xSrcScr z) (mx6xSrcGpr i + 4) w (mx6xSrcGpr j) = s.src (mx6xSrcGpr j) := by
      intro j hj x y z w
      rw [Function.update_of_ne (mx6xSrcGpr_ne_arg j i), Function.update_of_ne (mx6xSrcGpr_ne_scr j),
        Function.update_of_ne (mx6xSrcGpr_ne_arg j i), Function.update_of_ne (mx6xSrcGpr_ne hj)]
    refine ⟨fun j => ?_, fun j hj => ?_, fun j hj => ?_⟩
    · simp only [Smp.setAp, Function.update_apply]
      split
      · rename_i hji
        have := h.info j
        rw [hji, hoff] at this
        rw [hji]; exact this
      · exact h.info j
    · have hji : j = i := by
        by_contra hji
        simp only [Smp.setAp, Function.update_of_ne hji] at hj
        exact hother j hj
      exact ⟨by rw [hji], by rw [hji]; exact h.vec i (by simp [hoff])⟩
    · have hji : j ≠ i := by
        rintro rfl
        exact hj (by simp [Smp.setAp])
      exact (hsrc j hji _ _ _ _).trans (h.vec j (hother j))
  case apFail i => cases hs
  case startnext => cases hs
  all_goals
    (try split at hs) <;> (try split at hs) <;> cases hs <;> exact h.congr rfl rfl rfl rfl rfl

theorem Data.apStep (h : s.Data cfg src) (hinv : s.Inv cfg) {k : Nat} (hs : apStep spin cfg s k = some t) :
    t.Data cfg src := by
  have hk := hinv.core k
  cases ha : s.ap k <;> simp only [Startup.apStep, ha] at hs <;> rw [ha] at hk
  case off => cases hs
  case reset =>
    cases hs
    obtain ⟨haddr, hvec⟩ := h.saved k ha
    have honly : ∀ j, j ≠ k → s.ap j ≠ .reset := fun j hj hr =>
      hj (hinv.busy_unique (by rw [hr]; trivial) (by rw [ha]; trivial))
    refine ⟨fun j => ?_, fun j hj => ?_, fun j hj => ?_⟩
    · simp only [Smp.setAp, Function.update_apply]
      split
      · rename_i hjk
        have := h.info j
        rw [hjk, ha] at this
        rw [hjk]; exact this
      · exact h.info j
    · simp only [Smp.setAp, Function.update_apply] at hj
      split at hj
      · cases hj
      · exact absurd hj (honly j ‹_›)
    · simp only [Function.update_apply, haddr, hvec]
      by_cases hjk : j = k
      · rw [if_pos (by rw [hjk]), hjk]
      · rw [if_neg (mx6xSrcGpr_ne hjk)]
        exact h.vec j (honly j hjk)
  case startup n =>
    cases hs
    obtain rfl : n = k := hk.number rfl
    refine ⟨fun j => ?_, fun j hj => ?_, fun j hj => ?_⟩
    · simp only [Smp.setAp, Function.update_apply]
      split
      · rename_i hjn
        rw [hjn]
        simp [ApAt.informed]
      · exact h.info j
    · simp only [Smp.setAp, Function.update_apply] at hj
      split at hj
      · cases hj
      · exact h.saved j hj
    · simp only [Smp.setAp, Function.update_apply] at hj
      split at hj
      · rename_i hjn
        rw [hjn]; exact h.vec n (by simp [ha])
      · exact h.vec j hj
  case jumped n v => cases hs
  case halted n => cases hs
  case swapping n =>
    cases spin <;> cases hs
    · exact (h.setAp (a := afterSwap n s.startAddr) (by rw [ha]; exact afterSwap_informed n _) (afterSwap_ne_reset n _)
        (by simp [ha])).congr rfl rfl rfl rfl rfl
    · exact (h.setAp (a := .reserved n s.startAddr) (by rw [ha]; rfl) (by simp) (by simp [ha])).congr rfl rfl rfl rfl rfl
  case reserved n v =>
    split at hs <;> cases hs
    · exact (h.setAp (a := afterSwap n v) (by rw [ha]; exact afterSwap_informed n _) (afterSwap_ne_reset n _)
        (by simp [ha])).congr rfl rfl rfl rfl rfl
    · exact h.setAp (by rw [ha]; rfl) (by simp) (by simp [ha])
  case taken n v =>
    split at hs <;> cases hs
    · exact (h.setAp (a := .halted n) (by rw [ha]; rfl) (by simp) (by simp [ha])).congr rfl rfl rfl rfl rfl
    · exact h.setAp (by rw [ha]; rfl) (by simp) (by simp [ha])
  case started n =>
    cases hs
    exact (h.setAp (a := .parked n) (by rw [ha]; rfl) (by simp) (by simp [ha])).congr rfl rfl rfl rfl rfl
  case startnext n =>
    cases hs
    exact (h.setAp (a := .spin n) (by rw [ha]; rfl) (by simp) (by simp [ha])).congr rfl rfl rfl rfl rfl
  case entered =>
    have : t = s.setAp k (.startup (boardSmpAdjustNum (wrap32 (s.cpuStarting + (2 ^ 32 - 1))))) :=
      (Option.some.inj hs).symm
    rw [this]
    exact h.setAp (by rw [ha]; rfl) (by simp) (by simp [ha])
  case parked n | spin n =>
    split at hs <;> cases hs
    all_goals first | exact h | exact h.setAp (by rw [ha]; rfl) (by simp) (by simp [ha])

theorem Data.step (h : s.Data cfg src) (hinv : s.Inv cfg) {e : SmpEvent} (hs : smpStep spin cfg s e = .ok t) :
    t.Data cfg src := by
  cases e with
  | cpu0 => exact h.cpu0 hinv (elim_eq_ok.mp hs)
  | ap k => exact h.apStep hinv (elim_eq_ok.mp hs)
  | strexFails k =>
      have hs := elim_eq_ok.mp hs
      cases ha : s.ap k <;> simp only [strexFailStep, ha, reduceCtorEq] at hs
      case reserved n v =>
        cases hs
        exact (h.setAp (a := .spin n) (by rw [ha]; rfl) (by simp) (by simp [ha])).congr rfl rfl rfl rfl rfl
  | kernel v =>
      have hs := elim_eq_ok.mp hs
      unfold kernelStep at hs
      split at hs <;> cases hs
      exact h.congr rfl rfl rfl rfl rfl

end Smp

/-! ## 排他の予約 -/

/-- 予約が残っている CPU が読んだ値は、今の `start_addr` である。 -/
def Smp.Reserved (s : Smp) : Prop := ∀ k, s.monitor k = true → ∃ n, s.ap k = .reserved n s.startAddr

theorem Smp.Reserved.clear (s : Smp) (h : ∀ k, s.monitor k = false) : s.Reserved := fun k hk => by
  rw [h k] at hk; cases hk

theorem Smp.Reserved.cpu0 (h : s.Reserved) (hinv : s.Inv cfg) (hs : cpu0Step cfg s = some t) : t.Reserved := by
  cases hboot : s.boot <;> simp only [cpu0Step, hboot] at hs
  case releasing i =>
    simp only [boardSmpStart, ne_eq, one_ne_zero, not_false_eq_true, ↓reduceIte, Option.some.injEq] at hs
    subst hs
    intro k hk
    obtain ⟨n, hn⟩ := h k hk
    have hki : k ≠ i := by
      rintro rfl
      have := hinv.core k
      simp only [hboot, Expects, hn] at this
      split at this <;> cases this
    exact ⟨n, by simpa [Smp.setAp, Function.update_of_ne hki] using hn⟩
  case apFail i => cases hs
  case startnext => cases hs
  all_goals
    (try split at hs) <;> (try split at hs) <;> cases hs <;> exact h

/-- `start_addr` に書かず、予約している CPU でもない CPU の一歩。 -/
theorem Smp.Reserved.setAp (h : s.Reserved) {k : Nat} {a : ApAt} (hk : ∀ n v, s.ap k ≠ .reserved n v)
    (hap : t.ap = (s.setAp k a).ap) (hm : t.monitor = s.monitor) (hv : t.startAddr = s.startAddr) : t.Reserved := by
  intro j hj
  rw [hm] at hj
  obtain ⟨n, hn⟩ := h j hj
  have hjk : j ≠ k := by rintro rfl; exact hk _ _ hn
  exact ⟨n, by rw [hap, hv]; simpa [Smp.setAp, Function.update_of_ne hjk] using hn⟩

theorem Smp.Reserved.apStep (h : s.Reserved) {k : Nat} (hs : apStep spin cfg s k = some t) : t.Reserved := by
  cases ha : s.ap k <;> simp only [Startup.apStep, ha] at hs
  case off => cases hs
  case jumped n v => cases hs
  case halted n => cases hs
  case swapping n =>
    cases spin <;> cases hs
    · exact .clear _ fun _ => rfl
    · intro j hj
      by_cases hjk : j = k
      · subst hjk
        exact ⟨n, by simp [Smp.setAp]⟩
      · simp only [Function.update_of_ne hjk] at hj
        obtain ⟨m, hm⟩ := h j hj
        exact ⟨m, by simpa [Smp.setAp, Function.update_of_ne hjk] using hm⟩
  case reserved n v =>
    split at hs <;> cases hs
    · exact .clear _ fun _ => rfl
    · rename_i hmon
      intro j hj
      have hjk : j ≠ k := by rintro rfl; exact hmon hj
      obtain ⟨m, hm⟩ := h j hj
      exact ⟨m, by simpa [Smp.setAp, Function.update_of_ne hjk] using hm⟩
  case taken n v =>
    split at hs <;> cases hs
    · exact .clear _ fun _ => rfl
    · exact h.setAp (a := .jumped n v) (by simp [ha]) rfl rfl rfl
  case parked n | spin n =>
    split at hs <;> cases hs
    all_goals first | exact h | exact h.setAp (k := k) (by simp [ha]) rfl rfl rfl
  case entered =>
    have : t = s.setAp k (.startup (boardSmpAdjustNum (wrap32 (s.cpuStarting + (2 ^ 32 - 1))))) :=
      (Option.some.inj hs).symm
    rw [this]
    exact h.setAp (k := k) (by simp [ha]) rfl rfl rfl
  all_goals
    cases hs
    exact h.setAp (k := k) (by simp [ha]) rfl rfl rfl

theorem Smp.Reserved.step (h : s.Reserved) (hinv : s.Inv cfg) {e : SmpEvent} (hs : smpStep spin cfg s e = .ok t) :
    t.Reserved := by
  cases e with
  | cpu0 => exact h.cpu0 hinv (elim_eq_ok.mp hs)
  | ap k => exact h.apStep (elim_eq_ok.mp hs)
  | strexFails k =>
      have hs := elim_eq_ok.mp hs
      cases ha : s.ap k <;> simp only [strexFailStep, ha, reduceCtorEq] at hs
      case reserved n v =>
        cases hs
        intro j hj
        have hjk : j ≠ k := by rintro rfl; simp at hj
        simp only [Function.update_of_ne hjk] at hj
        obtain ⟨m, hm⟩ := h j hj
        exact ⟨m, by simpa [Smp.setAp, Function.update_of_ne hjk] using hm⟩
  | kernel v =>
      have hs := elim_eq_ok.mp hs
      unfold kernelStep at hs
      split at hs <;> cases hs
      exact .clear _ fun _ => rfl

theorem Smp.reaches_inv {ok : Smp → SmpEvent → Prop} {src : Nat → BitVec 32}
    (h : Reaches (smpStep spin cfg) ok (Smp.init cfg src) s) : s.Inv cfg ∧ s.Reserved :=
  h.invariant (P := fun s => s.Inv cfg ∧ s.Reserved) ⟨Smp.inv_init src, .clear _ fun _ => rfl⟩
    fun _ _ _ hi _ hs => ⟨hi.1.step hs, hi.2.step hi.1 hs⟩

theorem Smp.Data.reaches {ok : Smp → SmpEvent → Prop} {src : Nat → BitVec 32}
    (h : Reaches (smpStep spin cfg) ok (Smp.init cfg src) s) : s.Data cfg src :=
  (h.invariant (P := fun s => s.Inv cfg ∧ s.Data cfg src) ⟨Smp.inv_init src, Smp.data_init⟩
    fun _ _ _ hi _ hs => ⟨hi.1.step hs, hi.2.step hi.1 hs⟩).2

end Imx6Bsp.Startup
