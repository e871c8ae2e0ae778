import Imx6Bsp.Lib.Counting
import Imx6Bsp.Startup.Theorems.Smp

/-!
# 番地の引き渡しと起動の完了

カーネルが `start_addr` に書いた番地が失われも重なりもしないことと、起動が行き詰まらないことを示す。
-/

namespace Imx6Bsp.Startup

open Imx6Bsp.Lib

variable {cfg : SmpConfig} {spin : SpinCallout} {s t : Smp}

/-! ## 番地の引き渡し -/

/-- `v` を取り出した CPU の位置。 -/
def ApAt.Holds (v : BitVec 32) : ApAt → Prop
  | .taken _ w | .jumped _ w => w = v
  | _ => False

instance (v : BitVec 32) : DecidablePred (ApAt.Holds v)
  | .taken _ w | .jumped _ w => inferInstanceAs (Decidable (w = v))
  | .off | .reset | .entered | .startup _ | .started _ | .parked _ | .startnext _ | .spin _ | .swapping _
  | .reserved _ _ | .halted _ => isFalse id

/-- `v` を取り出した CPU の数。 -/
def Smp.holders (n : Nat) (s : Smp) (v : BitVec 32) : Nat := countIf (ApAt.Holds v) fun k : Fin n => s.ap k

theorem Smp.setAp_comp {n k : Nat} (hk : k < n) (a : ApAt) :
    (fun j : Fin n => (s.setAp k a).ap j) = Function.update (fun j : Fin n => s.ap j) ⟨k, hk⟩ a := by
  funext j
  simp only [Smp.setAp, Function.update_apply, Fin.ext_iff]

section

variable {n k : Nat} {a : ApAt} {v : BitVec 32}

theorem Smp.holders_same (h : a.Holds v ↔ (s.ap k).Holds v) : (s.setAp k a).holders n v = s.holders n v := by
  by_cases hk : k < n
  · rw [Smp.holders, Smp.setAp_comp hk]
    exact countIf_update_same h
  · have hout : (fun j : Fin n => (s.setAp k a).ap j) = fun j : Fin n => s.ap j :=
      funext fun j => Function.update_of_ne (by omega) _ _
    rw [Smp.holders, hout, Smp.holders]

theorem Smp.holders_join (hk : k < n) (ha : a.Holds v) (h : ¬(s.ap k).Holds v) :
    (s.setAp k a).holders n v = s.holders n v + 1 := by
  rw [Smp.holders, Smp.setAp_comp hk]
  exact countIf_update_join ha h

theorem Smp.holders_leave (hk : k < n) (ha : ¬a.Holds v) (h : (s.ap k).Holds v) :
    (s.setAp k a).holders n v + 1 = s.holders n v := by
  rw [Smp.holders, Smp.setAp_comp hk]
  exact countIf_update_leave ha h

theorem Smp.holders_congr (h : t.ap = s.ap) : t.holders n v = s.holders n v := by
  rw [Smp.holders, Smp.holders, h]

end

/-- 引き渡しから見た一歩。何も変わらないか、一つの CPU が取り出すか、`-1` を書き戻すか、カーネルが書く。 -/
inductive HandOver (n : Nat) (s t : Smp) : SmpEvent → Prop
  | none {e} (hv : t.startAddr = s.startAddr) (ho : t.offered = s.offered) (hh : ∀ v, t.holders n v = s.holders n v) :
      HandOver n s t e
  | take {e} (h0 : s.startAddr ≠ 0) (hv : t.startAddr = 0) (ho : t.offered = s.offered)
      (hh : ∀ v, t.holders n v = s.holders n v + if s.startAddr = v then 1 else 0) : HandOver n s t e
  | back {e} (hv : t.startAddr = -1) (ho : t.offered = s.offered)
      (hh : ∀ v, t.holders n v + (if v = -1 then 1 else 0) = s.holders n v) : HandOver n s t e
  | offer {v} (hv : t.startAddr = v) (ho : t.offered = v :: s.offered) (hh : ∀ v, t.holders n v = s.holders n v) :
      HandOver n s t (.kernel v)

theorem Expects.released_lt {n cs sa p k m : Nat} {a : ApAt} {b : BootAt} (h : Expects n cs p k a b) (hb : BootOk n cs sa p b)
    (ha : a.Released m) : k < n := by
  have hpark : a ≠ .parked k := by rintro rfl; exact ha
  have hoff : a ≠ .off := by rintro rfl; exact ha
  have hcom : ¬a.Coming k := by
    cases a <;> first | exact ha.elim | exact fun h => h
  cases b with
  | starting i | releasing i | building =>
      simp only [Expects] at h
      split_ifs at h <;> first | exact absurd h hpark | exact absurd h hoff
  | polling i c | apFail i =>
      simp only [Expects] at h
      split_ifs at h
      · rcases h with h | h
        · exact absurd h.1 hcom
        · exact absurd h.1 hpark
      · exact absurd h hpark
      · exact absurd h hoff
  | transferring i | offering i =>
      simp only [Expects] at h
      have hlt : i ≤ n := by first | exact hb.2.1 | exact hb.2.1.le
      split_ifs at h
      · omega
      · omega
      · exact absurd h hoff
  | awaiting i =>
      simp only [Expects] at h
      have hlt := hb.2.1
      split_ifs at h
      · omega
      · omega
      · omega
      · exact absurd h hoff
  | startnext =>
      simp only [Expects] at h
      split_ifs at h
      · omega
      · exact absurd h hoff

/-- 取り出し。`v` が `0` なら何も起こらない。 -/
theorem HandOver.swap {e : SmpEvent} {n k m : Nat} (hk : k < n) (ha : ∀ v, ¬(s.ap k).Holds v) :
    HandOver n s ((s.store 0).setAp k (afterSwap m s.startAddr)) e := by
  by_cases h0 : s.startAddr = 0
  · have hspin : afterSwap m s.startAddr = .spin m := if_pos h0
    rw [hspin]
    exact .none h0.symm rfl fun v => Smp.holders_same (s := s.store 0) (iff_of_false id (ha v))
  · have htaken : afterSwap m s.startAddr = .taken m s.startAddr := if_neg h0
    rw [htaken]
    refine .take h0 rfl rfl fun v => ?_
    split
    · rename_i hv
      subst hv
      exact Smp.holders_join (s := s.store 0) hk rfl (ha _)
    · rename_i hv
      exact Smp.holders_same (s := s.store 0) (iff_of_false hv (ha v))

theorem handOver_apStep (hinv : s.Inv cfg) (hr : s.Reserved) {k : Nat} (hs : apStep spin cfg s k = some t) {e : SmpEvent} :
    HandOver cfg.numCpu s t e := by
  have hk := hinv.core k
  have quiet {a : ApAt} {u : Smp} (h : ∀ v, a.Holds v ↔ (s.ap k).Holds v) (hap : u.ap = (s.setAp k a).ap)
      (hv : u.startAddr = s.startAddr) (ho : u.offered = s.offered) : HandOver cfg.numCpu s u e :=
    .none hv ho fun v => (Smp.holders_congr hap).trans (Smp.holders_same (h v))
  cases ha : s.ap k <;> simp only [apStep, ha] at hs <;> rw [ha] at hk
  case off => cases hs
  case jumped n v => cases hs
  case halted n => cases hs
  case swapping n =>
    have hlt : k < cfg.numCpu := hk.released_lt hinv.boot (m := n) rfl
    cases spin <;> cases hs
    · exact .swap hlt (by simp [ha, ApAt.Holds])
    · exact quiet (a := .reserved n s.startAddr) (by simp [ha, ApAt.Holds]) rfl rfl rfl
  case reserved n v =>
    have hlt : k < cfg.numCpu := hk.released_lt hinv.boot (m := n) rfl
    split at hs <;> cases hs
    · rename_i hmon
      obtain ⟨m, hm⟩ := hr k hmon
      obtain ⟨rfl, rfl⟩ : n = m ∧ v = s.startAddr := by simpa [ha] using hm
      exact .swap hlt (by simp [ha, ApAt.Holds])
    · exact quiet (a := .spin n) (by simp [ha, ApAt.Holds]) rfl rfl rfl
  case taken n v =>
    have hlt : k < cfg.numCpu := hk.released_lt hinv.boot (m := n) rfl
    split at hs <;> cases hs
    · rename_i hv
      refine .back rfl rfl fun w => ?_
      split
      · rename_i hw
        exact Smp.holders_leave (s := s.store (-1)) hlt id (by rw [show (s.store (-1)).ap = s.ap from rfl, ha, hv, hw]; rfl)
      · rename_i hw
        refine Smp.holders_same (s := s.store (-1)) (iff_of_false id ?_)
        rw [show (s.store (-1)).ap = s.ap from rfl, ha, hv]
        exact fun h => hw h.symm
    · exact quiet (a := .jumped n v) (by simp [ha, ApAt.Holds]) rfl rfl rfl
  case parked n =>
    split at hs <;> cases hs
    · exact quiet (a := .startnext n) (by simp [ha, ApAt.Holds]) rfl rfl rfl
    · exact .none rfl rfl fun _ => rfl
  case spin n =>
    split at hs <;> cases hs
    · exact .none rfl rfl fun _ => rfl
    · exact quiet (a := .swapping n) (by simp [ha, ApAt.Holds]) rfl rfl rfl
  case entered =>
    have : t = s.setAp k (.startup (boardSmpAdjustNum (wrap32 (s.cpuStarting + (2 ^ 32 - 1))))) :=
      (Option.some.inj hs).symm
    rw [this]
    exact quiet (a := .startup _) (by simp [ha, ApAt.Holds]) rfl rfl rfl
  case reset =>
    cases hs
    exact quiet (a := .entered) (by simp [ha, ApAt.Holds]) rfl rfl rfl
  case startup n =>
    cases hs
    exact quiet (a := .started n) (by simp [ha, ApAt.Holds]) rfl rfl rfl
  case started n =>
    cases hs
    exact quiet (a := .parked n) (by simp [ha, ApAt.Holds]) rfl rfl rfl
  case startnext n =>
    cases hs
    exact quiet (a := .spin n) (by simp [ha, ApAt.Holds]) rfl rfl rfl

theorem handOver_cpu0 (hinv : s.Inv cfg) (hs : cpu0Step cfg s = some t) {e : SmpEvent} : HandOver cfg.numCpu s t e := by
  cases hboot : s.boot <;> simp only [cpu0Step, hboot] at hs
  case releasing i =>
    have hoff : s.ap i = .off := by simpa [Expects, hboot] using hinv.core i
    cases hs
    exact .none rfl rfl fun v => Smp.holders_same (a := .reset) (by rw [hoff]; rfl)
  case apFail i => cases hs
  case startnext => cases hs
  all_goals
    (try split at hs) <;> (try split at hs) <;> cases hs <;> exact .none rfl rfl fun _ => rfl

theorem handOver_step (hinv : s.Inv cfg) (hr : s.Reserved) {e : SmpEvent} (hs : smpStep spin cfg s e = .ok t) :
    HandOver cfg.numCpu s t e := by
  cases e with
  | cpu0 => exact handOver_cpu0 hinv (elim_eq_ok.mp hs)
  | ap k => exact handOver_apStep hinv hr (elim_eq_ok.mp hs)
  | strexFails k =>
      have hs := elim_eq_ok.mp hs
      cases ha : s.ap k <;> simp only [strexFailStep, ha, reduceCtorEq] at hs
      case reserved n v =>
        cases hs
        exact .none rfl rfl fun w => Smp.holders_same (a := .spin n) (by rw [ha]; rfl)
  | kernel v =>
      have hs := elim_eq_ok.mp hs
      unfold kernelStep at hs
      split at hs <;> cases hs
      exact .offer rfl rfl fun _ => rfl

theorem Smp.holders_init {n : Nat} {src : Nat → BitVec 32} (v : BitVec 32) : (Smp.init cfg src).holders n v = 0 :=
  countIf_eq_zero.mpr fun _ => id

/-- `start_addr` に残る `v` の数。 -/
def Smp.slot (s : Smp) (v : BitVec 32) : Nat := if s.startAddr = v then 1 else 0

theorem Smp.slot_zero {v : BitVec 32} (h : s.startAddr = 0) (hv : v ≠ 0) : s.slot v = 0 :=
  if_neg (by rw [h]; exact hv.symm)

/-- カーネルがどのように書いても、番地 `v` を取り出した CPU の数は、カーネルが `v` を書いた回数を超えない。 -/
theorem startAddr_taken_once {ok : Smp → SmpEvent → Prop} {src : Nat → BitVec 32}
    (h : Reaches (smpStep spin cfg) ok (Smp.init cfg src) s) {v : BitVec 32} (h0 : v ≠ 0) (h1 : v ≠ -1) :
    s.holders cfg.numCpu v + s.slot v ≤ s.offered.count v := by
  suffices h' : s.Inv cfg ∧ s.Reserved ∧ s.holders cfg.numCpu v + s.slot v ≤ s.offered.count v from h'.2.2
  refine h.invariant (P := fun s => s.Inv cfg ∧ s.Reserved ∧ s.holders cfg.numCpu v + s.slot v ≤ s.offered.count v)
    ⟨Smp.inv_init src, .clear _ fun _ => rfl, ?_⟩ fun u e w hu _ hs => ?_
  · rw [Smp.holders_init, Smp.slot_zero rfl h0]
    exact Nat.zero_le _
  · obtain ⟨hinv, hr, hle⟩ := hu
    refine ⟨hinv.step hs, hr.step hinv hs, ?_⟩
    unfold Smp.slot at hle ⊢
    cases handOver_step hinv hr hs with
    | none hv ho hh => rw [hv, ho, hh]; exact hle
    | take hne hv ho hh =>
        rw [hv, ho, hh, if_neg (show (0 : BitVec 32) ≠ v from h0.symm)]
        exact hle
    | back hv ho hh =>
        have := hh v
        rw [if_neg h1] at this
        rw [hv, ho, if_neg (Ne.symm h1)]
        omega
    | offer hv ho hh =>
        rw [hv, ho, hh, List.count_cons]
        split <;> simp_all <;> omega

theorem startAddr_taken_once_sample : ∃ s : Smp, s.ap 1 = .jumped 1 0x80001000 ∧
    s.holders 2 0x80001000 + s.slot 0x80001000 ≤ s.offered.count 0x80001000 := by
  obtain ⟨s, h, hj⟩ := exists_sampleSmp
  exact ⟨s, hj, startAddr_taken_once h (by decide) (by decide)⟩

/-- `start_addr` が空のときに限って書き、`-1` の後は書かないカーネルのもとで保たれること。 -/
structure Smp.Conserved (n : Nat) (s : Smp) : Prop where
  found : ∀ v ≠ 0, s.holders n v + s.slot v = s.offered.count v
  last : -1 ∈ s.offered → s.startAddr = 0 ∨ s.startAddr = -1
  once : s.offered.count (-1) ≤ 1

theorem Smp.Conserved.handOver {n : Nat} (h : s.Conserved n) {e : SmpEvent} (hs : HandOver n s t e)
    (hok : kernelObeys (fun a vs _ => a = 0 ∧ -1 ∉ vs) s e) : t.Conserved n := by
  cases hs with
  | none hv ho hh =>
      constructor
      · intro v h0
        rw [hh, Smp.slot, hv, ho]; exact h.found v h0
      · rw [hv, ho]; exact h.last
      · rw [ho]; exact h.once
  | take hne hv ho hh =>
      constructor
      · intro v h0
        rw [hh, Smp.slot_zero hv h0, ho]; exact h.found v h0
      · exact fun _ => .inl hv
      · rw [ho]; exact h.once
  | back hv ho hh =>
      have hone : t.holders n (-1) + 1 = s.holders n (-1) := by simpa using hh (-1)
      have hcount : s.holders n (-1) + s.slot (-1) = s.offered.count (-1) := h.found (-1) (by decide)
      have honce := h.once
      have hmem : -1 ∈ s.offered := List.count_pos_iff.mp (by omega)
      have hslot : s.slot (-1) = 0 := by omega
      have hempty : s.startAddr = 0 := (h.last hmem).resolve_right fun heq => by simp [Smp.slot, heq] at hslot
      constructor
      · intro v h0
        by_cases hv1 : v = -1
        · have : t.slot (-1) = 1 := if_pos hv
          rw [ho, hv1]; omega
        · have hsame := hh v
          rw [if_neg hv1, Nat.add_zero] at hsame
          have hnone : t.slot v = 0 := if_neg (by rw [hv]; exact Ne.symm hv1)
          have := h.found v h0
          rw [Smp.slot_zero hempty h0] at this
          rw [ho]; omega
      · exact fun _ => .inr hv
      · rw [ho]; exact honce
  | @offer w hv ho hh =>
      obtain ⟨hempty, hlast⟩ : s.startAddr = 0 ∧ -1 ∉ s.offered := hok
      constructor
      · intro v h0
        have := h.found v h0
        rw [Smp.slot_zero hempty h0] at this
        rw [hh, ho, List.count_cons, Smp.slot, hv]
        simp only [beq_iff_eq]
        omega
      · intro hmem
        rw [ho, List.mem_cons] at hmem
        rw [hv]
        exact .inr (hmem.resolve_right hlast).symm
      · rw [ho, List.count_cons, List.count_eq_zero_of_not_mem hlast]
        split <;> omega

/-! ### 取り出した値の由来 -/

/-- 位置に残る値は、どれもカーネルが書いたものである。 -/
def ApAt.Sound (vs : List (BitVec 32)) : ApAt → Prop
  | .reserved _ v => v = 0 ∨ v ∈ vs
  | .taken _ v => v ≠ 0 ∧ v ∈ vs
  | .jumped _ v => v ≠ 0 ∧ v ≠ -1 ∧ v ∈ vs
  | .halted _ => -1 ∈ vs
  | _ => True

structure Smp.Sound (s : Smp) : Prop where
  slot : s.startAddr = 0 ∨ s.startAddr ∈ s.offered
  core : ∀ k, (s.ap k).Sound s.offered

theorem Smp.Sound.setAp (h : s.Sound) {k : Nat} {a : ApAt} (ha : a.Sound s.offered) (hap : t.ap = (s.setAp k a).ap)
    (hv : t.startAddr = 0 ∨ t.startAddr ∈ s.offered) (ho : t.offered = s.offered) : t.Sound where
  slot := by rw [ho]; exact hv
  core j := by
    rw [ho, hap]
    simp only [Smp.setAp, Function.update_apply]
    split
    · exact ha
    · exact h.core j

theorem afterSwap_sound {n : Nat} {v : BitVec 32} {vs : List (BitVec 32)} (h : v = 0 ∨ v ∈ vs) : (afterSwap n v).Sound vs := by
  unfold afterSwap
  split
  · trivial
  · rename_i h0
    exact ⟨h0, h.resolve_left h0⟩

theorem Smp.Sound.apStep (h : s.Sound) {k : Nat} (hs : apStep spin cfg s k = some t) : t.Sound := by
  have hk := h.core k
  cases ha : s.ap k <;> simp only [Startup.apStep, ha] at hs <;> rw [ha] at hk
  case off => cases hs
  case jumped n v => cases hs
  case halted n => cases hs
  case swapping n =>
    cases spin <;> cases hs
    · exact h.setAp (afterSwap_sound h.slot) rfl (.inl rfl) rfl
    · exact h.setAp (a := .reserved n s.startAddr) h.slot rfl h.slot rfl
  case reserved n v =>
    split at hs <;> cases hs
    · exact h.setAp (afterSwap_sound hk) rfl (.inl rfl) rfl
    · exact h.setAp (a := .spin n) trivial rfl h.slot rfl
  case taken n v =>
    split at hs <;> cases hs
    · rename_i hv
      have hmem : -1 ∈ s.offered := hv ▸ hk.2
      exact h.setAp (a := .halted n) hmem rfl (.inr hmem) rfl
    · rename_i hv
      exact h.setAp (a := .jumped n v) ⟨hk.1, hv, hk.2⟩ rfl h.slot rfl
  case parked n =>
    split at hs <;> cases hs
    · exact h.setAp (a := .startnext n) trivial rfl h.slot rfl
    · exact h
  case spin n =>
    split at hs <;> cases hs
    · exact h
    · exact h.setAp (a := .swapping n) trivial rfl h.slot rfl
  case entered =>
    have : t = s.setAp k (.startup (boardSmpAdjustNum (wrap32 (s.cpuStarting + (2 ^ 32 - 1))))) :=
      (Option.some.inj hs).symm
    rw [this]
    exact h.setAp (a := .startup _) trivial rfl h.slot rfl
  case reset =>
    cases hs
    exact h.setAp (a := .entered) trivial rfl h.slot rfl
  case startup n =>
    cases hs
    exact h.setAp (a := .started n) trivial rfl h.slot rfl
  case started n =>
    cases hs
    exact h.setAp (a := .parked n) trivial rfl h.slot rfl
  case startnext n =>
    cases hs
    exact h.setAp (a := .spin n) trivial rfl h.slot rfl

theorem ApAt.Sound.mono {vs : List (BitVec 32)} {a : ApAt} (h : a.Sound vs) (w : BitVec 32) : a.Sound (w :: vs) := by
  cases a with
  | reserved n v => exact h.imp_right (List.mem_cons_of_mem w)
  | taken n v => exact ⟨h.1, List.mem_cons_of_mem w h.2⟩
  | jumped n v => exact ⟨h.1, h.2.1, List.mem_cons_of_mem w h.2.2⟩
  | halted n => exact List.mem_cons_of_mem w h
  | _ => trivial

theorem Smp.Sound.step (h : s.Sound) {e : SmpEvent} (hs : smpStep spin cfg s e = .ok t) : t.Sound := by
  cases e with
  | cpu0 =>
      have hs := elim_eq_ok.mp hs
      cases hboot : s.boot <;> simp only [cpu0Step, hboot] at hs
      case releasing i =>
        cases hs
        exact h.setAp (a := .reset) trivial rfl h.slot rfl
      case apFail i => cases hs
      case startnext => cases hs
      all_goals
        (try split at hs) <;> (try split at hs) <;> cases hs <;> exact ⟨h.slot, h.core⟩
  | ap k => exact h.apStep (elim_eq_ok.mp hs)
  | strexFails k =>
      have hs := elim_eq_ok.mp hs
      cases ha : s.ap k <;> simp only [strexFailStep, ha, reduceCtorEq] at hs
      case reserved n v =>
        cases hs
        exact h.setAp (a := .spin n) trivial rfl h.slot rfl
  | kernel v =>
      have hs := elim_eq_ok.mp hs
      unfold kernelStep at hs
      split at hs <;> cases hs
      exact ⟨.inr List.mem_cons_self, fun k => (h.core k).mono v⟩

/-- 空の `start_addr` に書き、`-1` の後は書かないカーネルのもとで、書かれた値は失われも重なりもしない。取り出されたか、`start_addr` に
残っている。CPU が跳ぶ先はカーネルが書いた番地だけで、`-1` の後の `start_addr` は、CPU が `-1` を書き戻すまでの間のほかは `-1` である。 -/
theorem startAddr_conserved {src : Nat → BitVec 32}
    (h : Reaches (smpStep spin cfg) (kernelObeys fun a vs _ => a = 0 ∧ -1 ∉ vs) (Smp.init cfg src) s) :
    (∀ v ≠ 0, s.holders cfg.numCpu v + s.slot v = s.offered.count v) ∧
      (-1 ∈ s.offered → (s.startAddr = 0 ∨ s.startAddr = -1) ∧ s.holders cfg.numCpu (-1) + s.slot (-1) = 1) ∧
      (∀ k n v, s.ap k = .jumped n v → v ≠ 0 ∧ v ≠ -1 ∧ v ∈ s.offered) ∧ ∀ k n, s.ap k = .halted n → -1 ∈ s.offered := by
  suffices h' : (s.Inv cfg ∧ s.Reserved) ∧ s.Conserved cfg.numCpu ∧ s.Sound by
    obtain ⟨-, hc, hsound⟩ := h'
    refine ⟨hc.found, fun hmem => ⟨hc.last hmem, ?_⟩, fun k n v hk => ?_, fun k n hk => ?_⟩
    · have := List.count_pos_iff.mpr hmem
      have := hc.once
      rw [hc.found (-1) (by decide)]
      omega
    · have := hsound.core k
      rwa [hk] at this
    · have := hsound.core k
      rwa [hk] at this
  have hinit : (Smp.init cfg src).Conserved cfg.numCpu :=
    ⟨fun v h0 => by rw [Smp.holders_init, Smp.slot_zero rfl h0]; rfl, nofun, Nat.zero_le _⟩
  refine h.invariant (P := fun s => (s.Inv cfg ∧ s.Reserved) ∧ s.Conserved cfg.numCpu ∧ s.Sound)
    ⟨⟨Smp.inv_init src, .clear _ fun _ => rfl⟩, hinit, .inl rfl, fun _ => trivial⟩ fun u e w hu hok hs => ?_
  obtain ⟨⟨hinv, hr⟩, hc, hsound⟩ := hu
  exact ⟨⟨hinv.step hs, hr.step hinv hs⟩, hc.handOver (handOver_step hinv hr hs) hok, hsound.step hs⟩

theorem startAddr_conserved_sample : ∃ s : Smp, s.ap 1 = .jumped 1 0x80001000 ∧
    (∀ v ≠ 0, s.holders 2 v + s.slot v = s.offered.count v) ∧ 0x80001000 ∈ s.offered := by
  obtain ⟨s, h, hj⟩ := exists_sampleSmp
  obtain ⟨hfound, -, hjumped, -⟩ := startAddr_conserved h
  exact ⟨s, hj, hfound, (hjumped 1 1 _ hj).2.2⟩

/-! ## 行き詰まりのないこと -/

/-- `cpu_starting` を消すまでの残りの歩数。 -/
def ApAt.coming : ApAt → Nat
  | .reset => 4
  | .entered => 3
  | .startup _ => 2
  | .started _ => 1
  | _ => 0

/-- `pending` を消すまでの残りの歩数。 -/
def ApAt.leaving : ApAt → Nat
  | .parked _ => 2
  | .startnext _ => 1
  | _ => 0

/-- 待たせている CPU から順に進めたときの、残りの歩数の上界。 -/
def Smp.rank (n : Nat) (s : Smp) : Nat :=
  match s.boot with
  | .starting i => 5 * n + 7 * (n - i) + 2
  | .releasing i => 5 * n + 7 * (n - i) + 1
  | .polling i _ => 5 * n + 7 * (n - (i + 1)) + 3 + (s.ap i).coming
  | .apFail _ => 0
  | .building => 5 * n + 1
  | .transferring i => 5 * (n - i) + 1
  | .offering i => 5 * (n - i)
  | .awaiting i => 5 * (n - (i + 1)) + 2 + (s.ap i).leaving
  | .startnext => 0

/-- CPU 0 は諦めておらず、問い合わせの数も尽きていない。 -/
def BootAt.Alive : BootAt → Prop
  | .polling _ c => c + 1 < 2 ^ 32
  | .apFail _ => False
  | _ => True

/-- CPU 0 が待っていればその CPU が、そうでなければ CPU 0 が、残りの歩数の減る一歩を進められる。 -/
theorem Smp.Inv.advance (h : s.Inv cfg) (ha : s.boot.Alive) (hn : s.boot ≠ .startnext) :
    ∃ e t, smpStep spin cfg s e = .ok t ∧ t.boot.Alive ∧ t.rank cfg.numCpu < s.rank cfg.numCpu ∧ ∀ v, e ≠ .kernel v := by
  obtain ⟨hb, hc⟩ := h
  have cpu0 {t : Smp} (hs : cpu0Step cfg s = some t) (hal : t.boot.Alive) (hr : t.rank cfg.numCpu < s.rank cfg.numCpu) :
      ∃ e t, smpStep spin cfg s e = .ok t ∧ t.boot.Alive ∧ t.rank cfg.numCpu < s.rank cfg.numCpu ∧ ∀ v, e ≠ .kernel v :=
    ⟨.cpu0, t, elim_eq_ok.mpr hs, hal, hr, fun _ he => by cases he⟩
  cases hboot : s.boot <;> rw [hboot] at hb hc ha
  case starting i =>
    by_cases hi : i < cfg.numCpu
    · refine cpu0 (t := { s with cpuStarting := i + 1, boot := .releasing i }) ?_ trivial ?_
      · simp only [cpu0Step, hboot, if_pos hi]
      · simp only [Smp.rank, hboot]; omega
    · refine cpu0 (t := { s with boot := .building }) ?_ trivial ?_
      · simp only [cpu0Step, hboot, if_neg hi]
      · simp only [Smp.rank, hboot]; omega
  case releasing i =>
    obtain ⟨hi, hlt, hcs, hsa⟩ := hb
    refine cpu0 (t := { (boardSmpStart cfg s i).1 with boot := .polling i 0 }) ?_ ?_ ?_
    · simp [cpu0Step, hboot, boardSmpStart]
    · exact show 0 + 1 < 2 ^ 32 by decide
    · simp only [Smp.rank, hboot, boardSmpStart, Smp.setAp, Function.update_self, ApAt.coming]; omega
  case polling i c =>
    have hi := hc i
    simp only [Expects, ↓reduceIte] at hi
    rcases hi with ⟨hcom, -⟩ | ⟨hpark, hcs⟩
    · have core {t : Smp} (hs : Startup.apStep spin cfg s i = some t) (hbt : t.boot = s.boot)
          (hr : (t.ap i).coming < (s.ap i).coming) :
          ∃ e t, smpStep spin cfg s e = .ok t ∧ t.boot.Alive ∧ t.rank cfg.numCpu < s.rank cfg.numCpu ∧
            ∀ v, e ≠ .kernel v :=
        ⟨.ap i, t, elim_eq_ok.mpr hs, by rw [hbt, hboot]; exact ha, by simp only [Smp.rank, hbt, hboot]; omega, fun _ he => by cases he⟩
      cases hai : s.ap i <;> rw [hai] at hcom <;> try exact hcom.elim
      case reset =>
        refine core (t := { s.setAp i .entered with src := Function.update s.src s.startupResetVecAddr s.startupResetVec })
          ?_ rfl (by simp [hai, Smp.setAp, ApAt.coming])
        simp only [Startup.apStep, hai]
      case entered =>
        refine core (t := s.setAp i (.startup (boardSmpAdjustNum (wrap32 (s.cpuStarting + (2 ^ 32 - 1)))))) ?_ rfl
          (by simp [hai, Smp.setAp, ApAt.coming])
        simp only [Startup.apStep, hai]
      case startup n =>
        refine core (t := { s.setAp i (.started n) with cpuinfo := Function.update s.cpuinfo n (some (cfg.cpuid i)) })
          ?_ rfl (by simp [hai, Smp.setAp, ApAt.coming])
        simp only [Startup.apStep, hai]
      case started n =>
        refine core (t := { s.setAp i (.parked n) with cpuStarting := 0 }) ?_ rfl (by simp [hai, Smp.setAp, ApAt.coming])
        simp only [Startup.apStep, hai]
    · have hc : c + 1 < 2 ^ 32 := ha
      have hw : wrap32 (c + 1) ≠ 0 := by rw [wrap32_of_lt hc]; omega
      refine cpu0 (t := { s with boot := .starting (i + 1) }) ?_ trivial ?_
      · simp only [cpu0Step, hboot, if_neg hw, hcs, ne_eq, not_true_eq_false, ↓reduceIte]
      · simp only [Smp.rank, hboot]; omega
  case apFail i => exact ha.elim
  case building =>
    refine cpu0 (t := { s with boot := .transferring 1 }) ?_ trivial ?_
    · simp only [cpu0Step, hboot]
    · have := cfg.numCpu_pos
      simp only [Smp.rank, hboot]; omega
  case transferring i =>
    by_cases hi : i < cfg.numCpu
    · refine cpu0 (t := { s with pending := 1, boot := .offering i }) ?_ trivial ?_
      · simp only [cpu0Step, hboot, if_pos hi]
      · simp only [Smp.rank, hboot]; omega
    · refine cpu0 (t := { s with boot := .startnext }) ?_ trivial ?_
      · simp only [cpu0Step, hboot, if_neg hi]
      · simp only [Smp.rank, hboot]; omega
  case offering i =>
    obtain ⟨hi, hlt, hsa, hp⟩ := hb
    refine cpu0 (t := { s with syspageAvailable := i, boot := .awaiting i }) ?_ trivial ?_
    · simp only [cpu0Step, hboot]
    · have hle : (s.ap i).leaving ≤ 2 := by cases s.ap i <;> simp [ApAt.leaving]
      simp only [Smp.rank, hboot]; omega
  case awaiting i =>
    have hi := hc i
    simp only [Expects, ↓reduceIte] at hi
    have core {t : Smp} (hs : Startup.apStep spin cfg s i = some t) (hbt : t.boot = s.boot)
        (hr : (t.ap i).leaving < (s.ap i).leaving) :
        ∃ e t, smpStep spin cfg s e = .ok t ∧ t.boot.Alive ∧ t.rank cfg.numCpu < s.rank cfg.numCpu ∧
          ∀ v, e ≠ .kernel v :=
      ⟨.ap i, t, elim_eq_ok.mpr hs, by rw [hbt, hboot]; exact ha, by simp only [Smp.rank, hbt, hboot]; omega, fun _ he => by cases he⟩
    rcases hi with ⟨hai | hai, -⟩ | ⟨-, hp⟩
    · refine core (t := s.setAp i (.startnext i)) ?_ rfl (by simp [hai, Smp.setAp, ApAt.leaving])
      simp only [Startup.apStep, hai, if_pos hb.2.2]
    · refine core (t := { s.setAp i (.spin i) with pending := 0 }) ?_ rfl (by simp [hai, Smp.setAp, ApAt.leaving])
      simp only [Startup.apStep, hai]
    · refine cpu0 (t := { s with boot := .transferring (i + 1) }) ?_ trivial ?_
      · simp only [cpu0Step, hboot, hp, ne_eq, not_true_eq_false, ↓reduceIte]
      · simp only [Smp.rank, hboot]; omega
  case startnext => exact absurd hboot hn

/-- CPU 0 が諦めておらず問い合わせを使い切ってもいない、どの到達した状態からも、起動を終え、すべての CPU が待ち合わせの呼び出しに入った
状態に行ける。CPU とカーネルのほかの歩みをどのように混ぜた後でもそうである。 -/
theorem smp_start_completes {ok : Smp → SmpEvent → Prop} {src : Nat → BitVec 32}
    (h : Reaches (smpStep spin cfg) ok (Smp.init cfg src) s) (ha : s.boot.Alive) :
    ∃ t, Reaches (smpStep spin cfg) (fun _ e => ∀ v, e ≠ .kernel v) s t ∧ t.boot = .startnext ∧
      ∀ k, 1 ≤ k → k < cfg.numCpu → (t.ap k).Released k := by
  have hinv := (Smp.reaches_inv h).1
  clear h
  generalize hr : s.rank cfg.numCpu = r
  induction r using Nat.strong_induction_on generalizing s with
  | _ r ih =>
      by_cases hn : s.boot = .startnext
      · refine ⟨s, .refl, hn, fun k h1 h2 => ?_⟩
        have := hinv.core k
        rw [hn] at this
        simpa [Expects, h1, h2] using this
      · obtain ⟨e, t, hs, hal, hlt, he⟩ := Smp.Inv.advance hinv ha hn
        obtain ⟨u, hu, hb, hc⟩ := ih _ (hr ▸ hlt) hal (hinv.step hs) rfl
        exact ⟨u, (Reaches.tail .refl he hs).trans hu, hb, hc⟩

theorem smp_start_completes_sample : ∃ t, Reaches (smpStep .smpSpinPl310 sampleSmp) (fun _ e => ∀ v, e ≠ .kernel v)
    (Smp.init sampleSmp fun _ => 0) t ∧ t.boot = .startnext ∧ ∀ k, 1 ≤ k → k < sampleSmp.numCpu → (t.ap k).Released k :=
  smp_start_completes (.refl : Reaches _ (fun _ _ => True) _ _) trivial

end Imx6Bsp.Startup
