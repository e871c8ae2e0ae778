import Imx6Bsp.Devc.Uart

/-!
# UART の事象の逆転

どの事象も、一つの装置と静的な `byte_cnt` だけを変える。
-/

namespace Imx6Bsp.Devc

open Imx6Bsp.Lib

/-- 事象が一つの装置にすること。 -/
inductive Moves (byteCnt : Nat) : Event → Dev → Dev → Nat → Prop
  | consume {i cnt dev} : Moves byteCnt (.consume i cnt) dev { dev with rx.ibufCnt := cnt } byteCnt
  | rxComplete {i bytes error dev rx} (h : dev.rx.complete bytes error = some rx) :
      Moves byteCnt (.rxComplete i bytes error) dev { dev with rx } byteCnt
  | rxPulse {i e a dev} (h : dev.rx.pulses ≠ 0) :
      Moves byteCnt (.rxPulse i e a) dev { dev with rx := dev.rx.mx53RxPulseHdlr e a } byteCnt
  | ctrl {i arg a dev} : Moves byteCnt (.ctrl i arg a) dev (dev.ttoCtrl arg a) byteCnt
  | output {i out dev} : Moves byteCnt (.output i out) dev { dev with tx.out := out } byteCnt
  | data {i call dev} :
      Moves byteCnt (.data i call) dev { dev with tx := (dev.tx.ttoData call byteCnt).1 } (dev.tx.ttoData call byteCnt).2
  | emit {i dev tx} (h : dev.tx.emit = some tx) : Moves byteCnt (.emit i) dev { dev with tx } byteCnt
  | txPulse {i dev} (h : dev.tx.pulses ≠ 0) : Moves byteCnt (.txPulse i) dev { dev with tx := dev.tx.mx53TxPulseHdlr } byteCnt

/-- 事象の相手の装置。 -/
def Event.dev : Event → Nat
  | .consume i _ => i
  | .rxComplete i _ _ => i
  | .rxPulse i _ _ => i
  | .ctrl i _ _ => i
  | .output i _ => i
  | .data i _ => i
  | .emit i => i
  | .txPulse i => i

theorem Driver.modify_ok {d d' : Driver} {i : Nat} {f : Dev → Except Unit Dev} (h : d.modify i f = .ok d') :
    ∃ dev dev', d.devs[i]? = some dev ∧ f dev = .ok dev' ∧ d' = ⟨d.devs.set i dev', d.byteCnt⟩ := by
  simp only [Driver.modify] at h
  cases hd : d.devs[i]? with
  | none => rw [hd] at h; cases h
  | some dev =>
      rw [hd] at h
      obtain ⟨dev', hf, he⟩ := Except.map_eq_ok.mp h
      exact ⟨dev, dev', rfl, hf, he.symm⟩

theorem Driver.step_cases {d d' : Driver} {e : Event} (h : d.step e = .ok d') :
    ∃ dev dev', d.devs[e.dev]? = some dev ∧ d'.devs = d.devs.set e.dev dev' ∧ Moves d.byteCnt e dev dev' d'.byteCnt := by
  cases e with
  | consume i cnt =>
      obtain ⟨dev, dev', hd, hf, rfl⟩ := Driver.modify_ok h
      cases hf
      exact ⟨dev, _, hd, rfl, .consume⟩
  | rxComplete i bytes error =>
      obtain ⟨dev, dev', hd, hf, rfl⟩ := Driver.modify_ok h
      split at hf
      · cases hf
      · rename_i rx hrx
        cases hf
        exact ⟨dev, _, hd, rfl, .rxComplete hrx⟩
  | rxPulse i e a =>
      obtain ⟨dev, dev', hd, hf, rfl⟩ := Driver.modify_ok h
      split at hf
      · cases hf
      · rename_i hp
        cases hf
        exact ⟨dev, _, hd, rfl, .rxPulse hp⟩
  | ctrl i arg a =>
      obtain ⟨dev, dev', hd, hf, rfl⟩ := Driver.modify_ok h
      cases hf
      exact ⟨dev, _, hd, rfl, .ctrl⟩
  | output i out =>
      obtain ⟨dev, dev', hd, hf, rfl⟩ := Driver.modify_ok h
      cases hf
      exact ⟨dev, _, hd, rfl, .output⟩
  | data i call =>
      simp only [Driver.step] at h
      cases hd : d.devs[i]? with
      | none => rw [hd] at h; cases h
      | some dev =>
          rw [hd] at h
          cases h
          exact ⟨dev, _, hd, rfl, .data⟩
  | emit i =>
      obtain ⟨dev, dev', hd, hf, rfl⟩ := Driver.modify_ok h
      split at hf
      · cases hf
      · rename_i tx htx
        cases hf
        exact ⟨dev, _, hd, rfl, .emit htx⟩
  | txPulse i =>
      obtain ⟨dev, dev', hd, hf, rfl⟩ := Driver.modify_ok h
      split at hf
      · cases hf
      · rename_i hp
        cases hf
        exact ⟨dev, _, hd, rfl, .txPulse hp⟩

/-! ## 変わらない欄 -/

@[simp] theorem Dev.ttoCtrl_tx (dev : Dev) (arg : SerCtl) (a : Tti2) : (dev.ttoCtrl arg a).tx = dev.tx := by
  simp only [Dev.ttoCtrl]
  split_ifs <;> rfl

theorem Dev.ttoCtrl_rx (dev : Dev) (arg : SerCtl) (a : Tti2) :
    (dev.ttoCtrl arg a).rx = if arg.rtsChg = true ∧ dev.tx.usedma = true ∧ arg.rts = true then dev.rx.handOver a else dev.rx := by
  simp only [Dev.ttoCtrl]
  split_ifs <;> simp_all

/-- 送信の繰り返しが変えない欄。 -/
structure TxSide.SameLine (t u : TxSide) : Prop where
  usedma : u.usedma = t.usedma
  xferSize : u.xferSize = t.xferSize
  xfer : u.xfer = t.xfer
  enabled : u.enabled = t.enabled
  pulses : u.pulses = t.pulses

theorem TxSide.fill_sameLine (call : TtoCall) (room k : Nat) (t : TxSide) (byteCnt : Nat) :
    t.SameLine (TxSide.fill call room k t byteCnt).1 := by
  induction room generalizing k t byteCnt with
  | zero => exact ⟨rfl, rfl, rfl, rfl, rfl⟩
  | succ room ih =>
      simp only [TxSide.fill]
      split_ifs with h hp ho
      · exact ⟨rfl, rfl, rfl, rfl, rfl⟩
      · obtain ⟨h₁, h₂, h₃, h₄, h₅⟩ := ih (k + 1) (TxSide.stageChar { t with out := call.outside k t.out } call byteCnt) (byteCnt + 1)
        exact ⟨h₁, h₂, h₃, h₄, h₅⟩
      · obtain ⟨h₁, h₂, h₃, h₄, h₅⟩ := ih (k + 1) (TxSide.stageBlock { t with out := call.outside k t.out } byteCnt).1
          (TxSide.stageBlock { t with out := call.outside k t.out } byteCnt).2
        exact ⟨h₁, h₂, h₃, h₄, h₅⟩
      · exact ⟨rfl, rfl, rfl, rfl, rfl⟩

theorem TxSide.poll_usedma (call : TtoCall) (trdy k : Nat) (t : TxSide) : (t.poll call k trdy).usedma = t.usedma := by
  induction trdy generalizing k t with
  | zero => rfl
  | succ trdy ih =>
      simp only [TxSide.poll]
      split_ifs
      · rfl
      · rfl
      · rfl
      · exact ih ..

theorem TxSide.ttoData_usedma (t : TxSide) (call : TtoCall) (byteCnt : Nat) : (t.ttoData call byteCnt).1.usedma = t.usedma := by
  simp only [TxSide.ttoData, TxSide.flush]
  split_ifs
  · exact (TxSide.fill_sameLine ..).usedma
  · exact (TxSide.fill_sameLine ..).usedma
  · rfl
  · exact TxSide.poll_usedma ..
  · exact TxSide.poll_usedma ..

theorem TxSide.emit_usedma {t u : TxSide} (h : t.emit = some u) : u.usedma = t.usedma := by
  simp only [TxSide.emit] at h
  split at h
  · cases h
  · split_ifs at h <;> cases h <;> rfl

theorem Moves.usedma {byteCnt byteCnt' : Nat} {e : Event} {dev dev' : Dev} (h : Moves byteCnt e dev dev' byteCnt') :
    dev'.tx.usedma = dev.tx.usedma := by
  cases h with
  | data => exact TxSide.ttoData_usedma ..
  | emit h => exact TxSide.emit_usedma h
  | ctrl => rw [Dev.ttoCtrl_tx]
  | consume => rfl
  | rxComplete => rfl
  | rxPulse => rfl
  | output => rfl
  | txPulse => rfl

end Imx6Bsp.Devc
