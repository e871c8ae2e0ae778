import Imx6Bsp.Flash.Amd
import Imx6Bsp.Flash.Lemmas.Poll
import Imx6Bsp.Lib.Words

/-!
# AMD の命令の補題

どのチップも同じ状態であれば、命令の後も同じ状態である。演算が成功すると、配列の語は書いた語との論理積になる。
-/

namespace Imx6Bsp.Flash

open Imx6Bsp.Lib

/-! ## 命令の語と番地 -/

section

variable {c : FlashCfg} {i : Nat}

/-- 命令の語では、どのチップの線も命令の値である。 -/
theorem FlashCfg.lane_command {v : Nat} (hv : v < 2 ^ (8 * c.deviceWidth)) (hi : i < c.chipInter) : c.lane (c.command v) i = v := by
  have hbus : 2 ^ (8 * c.deviceWidth * c.chipInter) ≤ 2 ^ 64 := Nat.pow_le_pow_right (by decide) c.width_le
  have hlane : 2 ^ (8 * c.deviceWidth) ≤ 2 ^ (8 * c.deviceWidth * c.chipInter) :=
    Nat.pow_le_pow_right (by decide) (Nat.le_mul_of_pos_right _ c.inter_pos)
  rw [lane, command, BitVec.toNat_mul, BitVec.toNat_ofNat, Nat.mod_eq_of_lt (hv.trans_le (hlane.trans hbus)), c.mult_eq,
    Nat.mod_eq_of_lt ((mul_onesWord_lt hv _).trans_le hbus), mul_onesWord_lane hv hi]

/-- 一バイトの命令。 -/
theorem FlashCfg.lane_byte {v : Nat} (hv : v < 256) (hi : i < c.chipInter) : c.lane (c.command v) i % 256 = v := by
  have hle : 2 ^ 8 ≤ 2 ^ (8 * c.deviceWidth) := Nat.pow_le_pow_right (by decide) (Nat.le_mul_of_pos_right 8 c.width_pos)
  rw [c.lane_command (hv.trans_le hle) hi, Nat.mod_eq_of_lt hv]

/-- 命令の番地の下位の桁。 -/
theorem FlashCfg.decode_add (c : FlashCfg) {q x : Nat} (hx : x < if c.deviceWidth = 1 then 0x1000 else 0x800) :
    c.decode (q * (c.busWidth * (if c.deviceWidth = 1 then 0x1000 else 0x800)) + x * c.busWidth) = x := by
  have hpos : 0 < c.busWidth := Nat.mul_pos c.width_pos c.inter_pos
  have hsplit : q * (c.busWidth * (if c.deviceWidth = 1 then 0x1000 else 0x800)) + x * c.busWidth =
      c.busWidth * (x + (if c.deviceWidth = 1 then 0x1000 else 0x800) * q) := by ring
  rw [decode, hsplit, Nat.mul_div_cancel_left _ hpos, Nat.add_mul_mod_self_left, Nat.mod_eq_of_lt hx]

/-- `offset & amd_command_mask` は、チップの命令の番地の周期に揃っている。 -/
theorem FlashCfg.command_aligned (c : FlashCfg) {offset : Nat} (h : offset < 2 ^ 32) :
    ∃ q, offset &&& c.commandMask = q * (c.busWidth * (if c.deviceWidth = 1 then 0x1000 else 0x800)) := by
  have htable : ∀ p ∈ busShapes, ∃ k < 33, amdCommandMask p.1 (p.1 * p.2) = 2 ^ 32 - 2 ^ k ∧
      p.1 * p.2 * (if p.1 = 1 then 0x1000 else 0x800) = 2 ^ k := by
    decide
  obtain ⟨k, hk, hmask, hstep⟩ := htable _ c.valid
  refine ⟨offset / 2 ^ k, ?_⟩
  rw [show c.commandMask = 2 ^ 32 - 2 ^ k from hmask, land_high_mask h (Nat.le_of_lt_succ hk),
    show c.busWidth * (if c.deviceWidth = 1 then 0x1000 else 0x800) = 2 ^ k from hstep]

/-- 命令の二つの番地。 -/
structure FlashCfg.AtCommand (c : FlashCfg) (command : Nat) : Prop where
  cmd1 : c.IsCmd1 (command + c.amdCmd1)
  cmd2 : c.IsCmd2 (command + c.amdCmd2)

theorem FlashCfg.atCommand (c : FlashCfg) {offset : Nat} (h : offset < 2 ^ 32) : c.AtCommand (offset &&& c.commandMask) := by
  obtain ⟨q, hq⟩ := c.command_aligned h
  have h1 : (if c.deviceWidth = 1 then 0xAAA else 0x555) < if c.deviceWidth = 1 then 0x1000 else 0x800 := by
    split <;> decide
  have h2 : (if c.deviceWidth = 1 then 0x555 else 0x2AA) < if c.deviceWidth = 1 then 0x1000 else 0x800 := by
    split <;> decide
  rw [hq]
  exact ⟨c.decode_add h1, c.decode_add h2⟩

end

/-! ## 同じ状態のチップ -/

/-- どのチップも状態 `m` である。 -/
def AmdBus.All (p : AmdPart) (b : AmdBus) (m : AmdMode) : Prop := ∀ i < p.cfg.chipInter, b.mode i = m

section

variable {p : AmdPart} {b : AmdBus} {command addr : Nat}

theorem AmdBus.All.send {m m' : AmdMode} {v : Nat} (h : b.All p m)
    (hstep : ∀ i < p.cfg.chipInter, m.write p i addr (p.cfg.command v) = m') : (b.send p addr v).All p m' := by
  intro i hi
  show (b.mode i).write p i addr (p.cfg.command v) = m'
  rw [h i hi, hstep i hi]

theorem AmdBus.All.unlock (h : b.All p .read) (hc : p.cfg.AtCommand command) : (b.unlock p command).All p .unlock2 := by
  have h1 : (b.send p (command + p.cfg.amdCmd1) 0xAA).All p .unlock1 :=
    h.send fun i hi => if_pos ⟨FlashCfg.lane_byte (by decide) hi, hc.cmd1⟩
  exact h1.send fun i hi => if_pos ⟨FlashCfg.lane_byte (by decide) hi, hc.cmd2⟩

theorem AmdBus.All.program (h : b.All p .read) (hc : p.cfg.AtCommand command) :
    ((b.unlock p command).send p (command + p.cfg.amdCmd1) 0xA0).All p .program :=
  (h.unlock hc).send fun i hi => if_pos ⟨FlashCfg.lane_byte (by decide) hi, hc.cmd1⟩

theorem AmdBus.All.enterBypass (h : b.All p .read) (hc : p.cfg.AtCommand command) :
    ((b.unlock p command).send p (command + p.cfg.amdCmd1) 0x20).All p .bypass := by
  refine (h.unlock hc).send fun i hi => ?_
  have hlane : p.cfg.lane (p.cfg.command 0x20) i % 256 = 0x20 := FlashCfg.lane_byte (by decide) hi
  exact (if_neg fun h => absurd (hlane.symm.trans h.1) (by decide)).trans (if_pos ⟨hlane, hc.cmd1⟩)

theorem AmdBus.All.bypassProgram (h : b.All p .bypass) (addr : Nat) : (b.send p addr 0xA0).All p .bypassProgram :=
  h.send fun i hi => if_pos (FlashCfg.lane_byte (by decide) hi)

theorem AmdBus.All.leaveBypass (h : b.All p .bypass) (addr : Nat) : ((b.send p addr 0x90).send p addr 0x00).All p .read := by
  have hreset : (b.send p addr 0x90).All p .bypassReset := by
    refine h.send fun i hi => ?_
    have hlane : p.cfg.lane (p.cfg.command 0x90) i % 256 = 0x90 := FlashCfg.lane_byte (by decide) hi
    exact (if_neg fun h => absurd (hlane.symm.trans h) (by decide)).trans (if_pos hlane)
  exact hreset.send fun i hi => if_pos (FlashCfg.lane_byte (by decide) hi)

/-- 一語の書き込みが始まる。 -/
theorem AmdBus.All.writeWord {inBypass : Bool} (h : b.All p (if inBypass then .bypassProgram else .program)) (addr : Nat)
    (value : BitVec 64) :
    (b.write p addr value).All p (.busy inBypass [(addr / p.cfg.busWidth, value)]) := by
  intro i hi
  show (b.mode i).write p i addr value = _
  rw [h i hi]
  cases inBypass <;> rfl

end

/-! ## 演算の終わり -/

section

variable {p : AmdPart} {b : AmdBus} {chips : Nat → StatusChip} {inBypass : Bool} {data : List (Nat × BitVec 64)}

theorem FlashCfg.bits_eq (c : FlashCfg) : 8 * c.busWidth = 8 * c.deviceWidth * c.chipInter := (Nat.mul_assoc 8 _ _).symm

theorem FlashCfg.bits_le (c : FlashCfg) : 8 * c.busWidth ≤ 64 := c.bits_eq.trans_le c.width_le

/-- 線 `j` を持つチップ。 -/
theorem FlashCfg.chip_lt (c : FlashCfg) {j : Nat} (hj : j < 8 * c.busWidth) : j / (8 * c.deviceWidth) < c.chipInter := by
  rw [c.bits_eq] at hj
  exact Nat.div_lt_of_lt_mul hj

theorem AmdBus.All.settle (h : b.All p (.busy inBypass data)) (hok : ∀ i < p.cfg.chipInter, (chips i).outcome = .success) :
    (b.settle p chips).All p (if inBypass then .bypass else .read) := by
  intro i hi
  show (b.mode i).settle (chips i).outcome = _
  rw [h i hi, hok i hi]
  rfl

/-- 成功した演算の後の語。 -/
theorem AmdBus.All.settle_array (h : b.All p (.busy inBypass data)) (hok : ∀ i < p.cfg.chipInter, (chips i).outcome = .success)
    (w : Nat) {j : Nat} (hj : j < 8 * p.cfg.busWidth) :
    ((b.settle p chips).array w).getLsbD j = ((b.array w).getLsbD j && decide (∀ d ∈ data, d.1 = w → d.2.getLsbD j = true)) := by
  have hchip := p.cfg.chip_lt hj
  rw [AmdBus.settle]
  dsimp only
  rw [BitVec.getLsbD_ofFnLE, dif_pos (hj.trans_le p.cfg.bits_le)]
  dsimp only
  rw [h _ hchip, hok _ hchip]
  simp only [AmdMode.keeps, forall_const]

theorem AmdBus.All.chip (h : b.All p (.busy inBypass data)) : ∀ i < p.cfg.chipInter, (b.mode i).chip (chips i) = chips i := by
  intro i hi
  rw [h i hi]
  rfl

/-- どのチップも成功し、読む番地の DQ7 が書いたものと同じなら、`amd_poll()` は 0 を返す。 -/
theorem AmdBus.All.poll {value : BitVec 64} {addr : Nat} {fuel : Nat} (h : b.All p (.busy inBypass data)) (dq1 : Bool)
    (hok : ∀ i < p.cfg.chipInter, (chips i).outcome = .success) (hfuel : ∀ i < p.cfg.chipInter, (chips i).duration < fuel)
    (hdata : ∀ i < p.cfg.chipInter,
      p.cfg.bit ((b.settle p chips).array (addr / p.cfg.busWidth)) i 7 = p.cfg.bit value i 7) :
    b.poll p chips value addr dq1 fuel = some (true, b.settle p chips) := by
  have hpos := Nat.zero_lt_of_lt (hfuel 0 p.cfg.inter_pos)
  have hzero : amdPoll p.cfg value dq1
      (statusRead p.cfg value ((b.settle p chips).array (addr / p.cfg.busWidth)) fun i => (b.mode i).chip (chips i)) fuel = some 0 := by
    refine amdPoll_success (fun i hi => ?_) (fun i hi => ?_) (Nat.sub_one_lt_of_lt hpos) hdata
    · rw [h.chip i hi]
      exact hok i hi
    · rw [h.chip i hi]
      exact Nat.le_sub_one_of_lt (hfuel i hi)
  rw [AmdBus.poll, hzero]
  rfl

/-- 読む番地の DQ7 が書いたものと違えば、`amd_poll()` は 0 を返さない。 -/
theorem AmdBus.All.poll_wrong {value : BitVec 64} {addr i : Nat} {fuel : Nat} (h : b.All p (.busy inBypass data)) (dq1 : Bool)
    (hok : ∀ i < p.cfg.chipInter, (chips i).outcome = .success) (hfuel : ∀ i < p.cfg.chipInter, (chips i).duration < fuel)
    (hi : i < p.cfg.chipInter)
    (hdata : p.cfg.bit ((b.settle p chips).array (addr / p.cfg.busWidth)) i 7 ≠ p.cfg.bit value i 7) :
    b.poll p chips value addr dq1 fuel = none ∨ b.poll p chips value addr dq1 fuel = some (false, b.settle p chips) := by
  have hpos := Nat.zero_lt_of_lt (hfuel 0 p.cfg.inter_pos)
  have hwrong : amdPoll p.cfg value dq1
      (statusRead p.cfg value ((b.settle p chips).array (addr / p.cfg.busWidth)) fun i => (b.mode i).chip (chips i)) fuel = none ∨
      amdPoll p.cfg value dq1
        (statusRead p.cfg value ((b.settle p chips).array (addr / p.cfg.busWidth)) fun i => (b.mode i).chip (chips i)) fuel = some (-1) := by
    refine amdPoll_wrong (fun i hi => ?_) (fun i hi => ?_) (Nat.sub_one_lt_of_lt hpos) hi hdata
    · rw [h.chip i hi]
      exact hok i hi
    · rw [h.chip i hi]
      exact Nat.le_sub_one_of_lt (hfuel i hi)
  rw [AmdBus.poll]
  rcases hwrong with hnone | hfail
  · rw [hnone]
    exact .inl rfl
  · rw [hfail]
    exact .inr rfl

/-- `amd_poll()` が返ったときの、チップごとの結果。 -/
theorem AmdBus.All.poll_some {value : BitVec 64} {addr : Nat} {dq1 : Bool} {fuel : Nat} {ok : Bool} {b' : AmdBus}
    (h : b.All p (.busy inBypass data)) (hpoll : b.poll p chips value addr dq1 fuel = some (ok, b')) :
    b' = b.settle p chips ∧ (ok = true → ∀ i < p.cfg.chipInter, (chips i).outcome = .success) ∧
      (dq1 = false → ∀ i < p.cfg.chipInter, (chips i).outcome ≠ .abort) := by
  rw [AmdBus.poll] at hpoll
  obtain ⟨ret, hret, heq⟩ := Option.map_eq_some_iff.mp hpoll
  obtain ⟨rfl, rfl⟩ := Prod.mk.inj heq
  refine ⟨rfl, fun hok i hi => ?_, ?_⟩
  · exact (congrArg StatusChip.outcome (h.chip i hi)).symm.trans (amdPoll_ok hret (of_decide_eq_true hok) i hi)
  · rintro rfl i hi habort
    exact amdPoll_not_aborted hret i hi ((congrArg StatusChip.outcome (h.chip i hi)).trans habort)

/-- 失敗した一語の後の `AMD_READ_MODE`。アンロックバイパスからは抜けない。 -/
theorem AmdBus.All.reset (h : b.All p (.busy inBypass data)) (ho : ∀ i < p.cfg.chipInter, (chips i).outcome ≠ .abort) (addr : Nat) :
    ((b.settle p chips).send p addr 0xF0).All p (if inBypass then .bypass else .read) := by
  intro i hi
  have hlane : p.cfg.lane (p.cfg.command 0xF0) i % 256 = 0xF0 := FlashCfg.lane_byte (by decide) hi
  show ((b.mode i).settle (chips i).outcome).write p i addr (p.cfg.command 0xF0) = _
  rw [h i hi]
  cases hout : (chips i).outcome with
  | success => cases inBypass <;> simp [AmdMode.settle, AmdMode.write, hlane]
  | timeout => simp [AmdMode.settle, AmdMode.write, hlane]
  | abort => exact absurd hout (ho i hi)

/-- 失敗した書き込みバッファの後の三つの命令。 -/
theorem AmdBus.All.abortReset (h : b.All p (.busy false data)) {command : Nat} (hc : p.cfg.AtCommand command) :
    (((b.settle p chips).unlock p command).send p (command + p.cfg.amdCmd1) 0xF0).All p .read := by
  intro i hi
  have hAA : p.cfg.lane (p.cfg.command 0xAA) i % 256 = 0xAA := FlashCfg.lane_byte (by decide) hi
  have h55 : p.cfg.lane (p.cfg.command 0x55) i % 256 = 0x55 := FlashCfg.lane_byte (by decide) hi
  have hF0 : p.cfg.lane (p.cfg.command 0xF0) i % 256 = 0xF0 := FlashCfg.lane_byte (by decide) hi
  show ((((b.mode i).settle (chips i).outcome).write p i (command + p.cfg.amdCmd1) (p.cfg.command 0xAA)).write p i
    (command + p.cfg.amdCmd2) (p.cfg.command 0x55)).write p i (command + p.cfg.amdCmd1) (p.cfg.command 0xF0) = _
  rw [h i hi]
  cases hout : (chips i).outcome <;> simp [AmdMode.settle, AmdMode.write, hAA, h55, hF0, hc.cmd1, hc.cmd2]

/-- メモリとして読んだ線。 -/
theorem AmdBus.All.data_bit {m : AmdMode} (h : b.All p m) (hm : m.Readable) (w : Nat) {j : Nat} (hj : j < 8 * p.cfg.busWidth) :
    (b.data p w).getLsbD j = (b.array w).getLsbD j := by
  rw [AmdBus.data, BitVec.getLsbD_ofFnLE, dif_pos (hj.trans_le p.cfg.bits_le)]
  dsimp only
  rw [h _ (p.cfg.chip_lt hj), decide_eq_true hm, Bool.true_and]

end

end Imx6Bsp.Flash
