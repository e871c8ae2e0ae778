import Imx6Bsp.Lib.Lanes

/-!
# フラッシュの母線（`flash/mtd-flash/flash_probe.c`、`mem_access.c`）

一つの母線に、同じ幅のチップを `chip_inter` 個並べる。`flashcfg_setup()` は、どのチップの線も同じ位置に来る倍数 `device_mult` を決める。
-/

namespace Imx6Bsp.Flash

open Imx6Bsp.Lib

/-- `device_width` と `chip_inter` の組。 -/
def busShapes : List (Nat × Nat) := [(1, 1), (1, 2), (1, 4), (1, 8), (2, 1), (2, 2), (2, 4), (4, 1), (4, 2)]

/-- `flashcfg`。 -/
structure FlashCfg where
  deviceWidth : Nat
  chipInter : Nat
  valid : (deviceWidth, chipInter) ∈ busShapes

/-- 16 ビットのチップを二つ並べる。 -/
theorem twoChips : (2, 2) ∈ busShapes := by decide

/-- 16 ビットのチップ一つ。 -/
theorem oneChip : (2, 1) ∈ busShapes := by decide

/-- `bus_width`。 -/
def FlashCfg.busWidth (c : FlashCfg) : Nat := c.deviceWidth * c.chipInter

/-- `flashcfg_setup()` の倍数。 -/
def deviceMult (deviceWidth chipInter : Nat) : BitVec 64 :=
  if deviceWidth = 1 then
    if chipInter = 1 then 0x01#64
    else if chipInter = 2 then 0x0101#64
    else if chipInter = 4 then 0x01010101#64
    else 0x0101010101010101#64
  else if deviceWidth = 2 then
    if chipInter = 1 then 0x0001#64
    else if chipInter = 2 then 0x00010001#64
    else 0x0001000100010001#64
  else
    if chipInter = 1 then 0x00000001#64
    else 0x0000000100000001#64

/-- `device_mult`。 -/
def FlashCfg.deviceMult (c : FlashCfg) : BitVec 64 := Flash.deviceMult c.deviceWidth c.chipInter

/-- `(1 << k) * flashcfg.device_mult`。 -/
def FlashCfg.mask (c : FlashCfg) (k : Nat) : BitVec 64 := BitVec.ofNat 64 (2 ^ k) * c.deviceMult

/-- `readmem()` が返す語。`line` はチップごとのデータ線である。 -/
def FlashCfg.word (c : FlashCfg) (line : Nat → Nat → Bool) : BitVec 64 := laneWord 64 (8 * c.deviceWidth) c.chipInter line

/-- チップ `i` のデータ線 `k`。 -/
def FlashCfg.bit (c : FlashCfg) (x : BitVec 64) (i k : Nat) : Bool := laneBit (8 * c.deviceWidth) x i k

/-- `send_command()` が書く語。 -/
def FlashCfg.command (c : FlashCfg) (command : Nat) : BitVec 64 := BitVec.ofNat 64 command * c.deviceMult

/-- `amd_cmd1`。 -/
def FlashCfg.amdCmd1 (c : FlashCfg) : Nat := (if c.deviceWidth = 1 then 0xAAA else 0x555) * c.busWidth

/-- `amd_cmd2`。 -/
def FlashCfg.amdCmd2 (c : FlashCfg) : Nat := (if c.deviceWidth = 1 then 0x555 else 0x2AA) * c.busWidth

/-- 母線の幅に切り詰める。 -/
def FlashCfg.trunc (c : FlashCfg) (x : BitVec 64) : BitVec 64 := (x.setWidth (8 * c.busWidth)).setWidth 64

theorem FlashCfg.width_pos (c : FlashCfg) : 0 < c.deviceWidth :=
  (by decide : ∀ p ∈ busShapes, 0 < p.1) _ c.valid

theorem FlashCfg.inter_pos (c : FlashCfg) : 0 < c.chipInter :=
  (by decide : ∀ p ∈ busShapes, 0 < p.2) _ c.valid

theorem FlashCfg.width_le (c : FlashCfg) : 8 * c.deviceWidth * c.chipInter ≤ 64 :=
  (by decide : ∀ p ∈ busShapes, 8 * p.1 * p.2 ≤ 64) _ c.valid

theorem FlashCfg.bit_word (c : FlashCfg) {line : Nat → Nat → Bool} {i k : Nat} (hi : i < c.chipInter) (hk : k < 8) :
    c.bit (c.word line) i k = line i k :=
  laneBit_laneWord hi (hk.trans_le (Nat.le_mul_of_pos_right 8 c.width_pos)) c.width_le

theorem FlashCfg.index_lt (c : FlashCfg) {i k : Nat} (hi : i < c.chipInter) (hk : k < 8) :
    8 * c.deviceWidth * i + k < 8 * c.deviceWidth * c.chipInter := by
  have hlane := Nat.mul_le_mul_left (8 * c.deviceWidth) (Nat.succ_le_of_lt hi)
  have hpos := c.width_pos
  rw [Nat.mul_succ] at hlane
  omega

/-- 切り詰めても、チップの線は変わらない。 -/
theorem FlashCfg.bit_trunc (c : FlashCfg) (x : BitVec 64) {i k : Nat} (hi : i < c.chipInter) (hk : k < 8) :
    c.bit (c.trunc x) i k = c.bit x i k := by
  have hlt := c.index_lt hi hk
  have hbus : 8 * c.deviceWidth * i + k < 8 * c.busWidth := by
    rw [busWidth, ← Nat.mul_assoc]
    exact hlt
  rw [bit, laneBit, trunc, BitVec.getLsbD_setWidth, BitVec.getLsbD_setWidth, decide_eq_true (hlt.trans_le c.width_le), decide_eq_true hbus]
  rfl

/-- 倍数は、どのチップの線 0 も立てる。 -/
theorem FlashCfg.mult_eq (c : FlashCfg) : c.deviceMult.toNat = onesWord (8 * c.deviceWidth) c.chipInter :=
  (by decide : ∀ p ∈ busShapes, (Flash.deviceMult p.1 p.2).toNat = onesWord (8 * p.1) p.2) _ c.valid

/-- 倍数を掛けた印は、どのチップの線 `k` も立てる。 -/
theorem FlashCfg.isLaneMask (c : FlashCfg) {k : Nat} (hk : k < 8) : IsLaneMask (8 * c.deviceWidth) c.chipInter k (c.mask k) := by
  have hlane : k < 8 * c.deviceWidth := hk.trans_le (Nat.le_mul_of_pos_right 8 c.width_pos)
  have hword := mul_onesWord_lt (Nat.pow_lt_pow_right (by decide) hlane) c.chipInter
  have hbus : 2 ^ (8 * c.deviceWidth * c.chipInter) ≤ 2 ^ 64 := Nat.pow_le_pow_right (by decide) c.width_le
  intro j
  rw [← testBit_mul_onesWord hlane, ← BitVec.testBit_toNat, mask, BitVec.toNat_mul, BitVec.toNat_ofNat, c.mult_eq,
    Nat.mod_eq_of_lt (Nat.pow_lt_pow_right (by decide) (hk.trans (by decide))), Nat.mod_eq_of_lt (hword.trans_le hbus)]

/-! ## 状態の読み出し（`flash/mtd-flash/amd/amd_poll.c`）

`read t` は、命令の後の `t` 番目の `readmem()` が返す語である。ループは、終わらないことがあるので、回数の上限を付けて写す。 -/

/-! ### チップ -/

/-- チップの中の演算の結果。`timeout` は DQ5、`abort` は DQ1 で知らせる。 -/
inductive Outcome
  | success
  | timeout
  | abort
deriving DecidableEq, Repr

/-- 演算中のチップ。`duration` 番目の読み出しから、結果が出ている。`noise` は、決まっていない線の値である。 -/
structure StatusChip where
  duration : Nat := 0
  outcome : Outcome := .success
  phase : Bool := false
  noise : Nat → Nat → Bool := fun _ _ => false

/-- `t` 番目の読み出しで、正しく終わっている。 -/
def StatusChip.Done (p : StatusChip) (t : Nat) : Prop := p.outcome = .success ∧ p.duration ≤ t

instance StatusChip.decidableDone (p : StatusChip) (t : Nat) : Decidable (p.Done t) := inferInstanceAs (Decidable (_ ∧ _))

/-- `t` 番目の読み出しの、データ線 `k`。終わるまでと失敗の後は、DQ6 が読むたびに反転し、DQ7 は `inverse` である。 -/
def StatusChip.line (p : StatusChip) (inverse : Bool) (data : Nat → Bool) (t k : Nat) : Bool :=
  if p.Done t then data k
  else if k = 7 then inverse
  else if k = 6 then p.phase ^^ decide (t % 2 = 1)
  else if k = 5 then decide (p.duration ≤ t ∧ p.outcome = .timeout)
  else if k = 1 then decide (p.duration ≤ t ∧ p.outcome = .abort)
  else p.noise t k

/-- 並んだチップの語。`value` は最後に書いた語で、DQ7 はその逆を返す。`array` は、読む番地のデータである。 -/
def statusRead (c : FlashCfg) (value array : BitVec 64) (chips : Nat → StatusChip) (t : Nat) : BitVec 64 :=
  c.word fun i => (chips i).line (!c.bit value i 7) (c.bit array i) t

/-! ### `amd_poll()` -/

/-- DQ6 のループの終わり方。`stopped` は、次の読み出しの番号である。 -/
inductive ToggleExit
  | failed
  | stopped (t : Nat)
deriving DecidableEq, Repr

/-- DQ6 が止まるまでのループ。 -/
def toggleLoop (c : FlashCfg) (dq1 : Bool) (read : Nat → BitVec 64) : Nat → Nat → Option ToggleExit
  | 0, _ => none
  | fuel + 1, t =>
      let toggle := (read t ^^^ read (t + 1)) &&& c.mask 6
      if toggle = 0 then some (.stopped (t + 2))
      else if (read t &&& toggle >>> 1) <<< 1 = toggle then
        if (read (t + 2) ^^^ read (t + 3)) &&& toggle ≠ 0 then some .failed
        else toggleLoop c dq1 read fuel (t + 4)
      else if dq1 ∧ (read t &&& toggle >>> 5) <<< 5 = toggle then
        if (read (t + 2) ^^^ read (t + 3)) &&& toggle ≠ 0 then some .failed
        else toggleLoop c dq1 read fuel (t + 4)
      else toggleLoop c dq1 read fuel (t + 2)

/-- DQ7 が書いたデータになるまでのループ。 -/
def dataLoop (c : FlashCfg) (dq1 : Bool) (data : BitVec 64) (read : Nat → BitVec 64) : Nat → Nat → Option Int
  | 0, _ => none
  | fuel + 1, t =>
      let check := (read t ^^^ data) &&& c.mask 7
      if check = 0 then some 0
      else if read t &&& c.mask 5 = check >>> 2 then
        if (read (t + 1) &&& c.mask 7) ^^^ data ≠ 0 then some (-1)
        else dataLoop c dq1 data read fuel (t + 2)
      else if dq1 ∧ read t &&& check >>> 6 ≠ 0 then
        if (read (t + 1) &&& c.mask 7) ^^^ data ≠ 0 then some (-1)
        else dataLoop c dq1 data read fuel (t + 2)
      else dataLoop c dq1 data read fuel (t + 1)

/-- `amd_poll()`。 -/
def amdPoll (c : FlashCfg) (value : BitVec 64) (dq1 : Bool) (read : Nat → BitVec 64) (fuel : Nat) : Option Int :=
  match toggleLoop c dq1 read fuel 0 with
  | none => none
  | some .failed => some (-1)
  | some (.stopped t) => dataLoop c dq1 (c.trunc value &&& c.mask 7) read fuel t

/-! ### 仕様 -/

/-- どのチップも結果が出れば有限の回数で戻り、どのチップも成功したときだけ 0 を返す。 -/
def PollDecides (c : FlashCfg) (value : BitVec 64) (dq1 : Bool) (chips : Nat → StatusChip) : Prop :=
  ∃ r, (∀ last, (∀ i < c.chipInter, (chips i).duration ≤ last) → ∀ fuel > last,
      amdPoll c value dq1 (statusRead c value value chips) fuel = some r) ∧
    (r = 0 ↔ ∀ i < c.chipInter, (chips i).outcome = .success)

/-- DQ5 の失敗と DQ1 の中断が、別のチップで起こる。 -/
def MixedFailure (c : FlashCfg) (chips : Nat → StatusChip) : Prop :=
  (∃ i < c.chipInter, (chips i).outcome = .timeout) ∧ ∃ i < c.chipInter, (chips i).outcome = .abort

/-! ### MirrorBit の消去（`flash/mtd-flash/amd/aMB_v2erase.c`）

`f3s_aMB_v2erase()` は、DQ6 が止まるか、どれかの線の DQ5 が立つまで状態を二回ずつ読む。 -/

def maxIterTimeout : Nat := 1000000

/-- 呼び出しの結果。`commands` は書いた番地と語、`dq4` はスレッドごとの記録である。 -/
structure MirrorEraseResult where
  ret : Int
  commands : List (Nat × BitVec 64) := []
  dq4 : Option (BitVec 64)

/-- 消去の命令。 -/
def mirrorEraseCommands (c : FlashCfg) (memory : Nat) : List (Nat × BitVec 64) :=
  [(memory + c.amdCmd1, c.command 0xAA), (memory + c.amdCmd2, c.command 0x55), (memory + c.amdCmd1, c.command 0x80),
    (memory + c.amdCmd1, c.command 0xAA), (memory + c.amdCmd2, c.command 0x55), (memory, c.command 0x30)]

/-- DQ6 のループ。`left` は、残りの回数 `MAX_ITER_TIMEOUT + 1 - i` である。`none` は `EOK` で戻ること、`some` はループを出たときの `i` と
次の読み出しの番号である。 -/
def mirrorLoop (c : FlashCfg) (read : Nat → BitVec 64) : (left i : Nat) → Option (Nat × Nat)
  | 0, i =>
      if (read (2 * i) ^^^ read (2 * i + 1)) &&& c.mask 6 = 0 then none
      else if read (2 * i + 1) &&& c.mask 5 ≠ 0 then some (i, 2 * i + 2)
      else some (i + 1, 2 * i + 2)
  | left + 1, i =>
      if (read (2 * i) ^^^ read (2 * i + 1)) &&& c.mask 6 = 0 then none
      else if read (2 * i + 1) &&& c.mask 5 ≠ 0 then some (i, 2 * i + 2)
      else mirrorLoop c read left (i + 1)

/-- ループの後の判定。 -/
def mirrorStatus (c : FlashCfg) (read : Nat → BitVec 64) : Int :=
  match mirrorLoop c read (maxIterTimeout + 1) 0 with
  | none => 0
  | some (i, t) =>
      if i > maxIterTimeout then -1
      else if (read t ^^^ read (t + 1)) &&& c.mask 6 ≠ 0 then -1
      else 0

/-- `f3s_aMB_v2erase()`。`page` は `page()` の番地か `errno`、`malloc` は割り当ての成否である。 -/
def aMBv2Erase (c : FlashCfg) (page : Except Int Nat) (dq4 : Option (BitVec 64)) (malloc : Bool) (read : Nat → BitVec 64) :
    MirrorEraseResult :=
  match page with
  | .error errno => { ret := errno, dq4 }
  | .ok memory =>
      if dq4.isNone ∧ ¬malloc then { ret := 12, dq4 }
      else { ret := mirrorStatus c read, commands := mirrorEraseCommands c memory, dq4 := some 0 }

/-! #### 仕様 -/

/-- 消去は、全ての線が 1 のデータになる。 -/
def eraseRead (c : FlashCfg) (chips : Nat → StatusChip) (t : Nat) : BitVec 64 := statusRead c (BitVec.allOnes 64) (BitVec.allOnes 64) chips t

/-- どのチップも消去された。 -/
def AllErased (c : FlashCfg) (chips : Nat → StatusChip) : Prop := ∀ i < c.chipInter, (chips i).outcome = .success

/-- 最初に終わったチップの次の組の読み出しまでに、どのチップも終わっている。その間に終わるチップの DQ6 は 1 と読める。 -/
def FinishTogether (c : FlashCfg) (chips : Nat → StatusChip) : Prop :=
  ∀ i < c.chipInter, ∀ j < c.chipInter,
    (chips i).duration ≤ 2 * ((chips j).duration / 2) + 2 ∨
      ((chips i).duration = 2 * ((chips j).duration / 2) + 3 ∧ (chips i).phase = true)

end Imx6Bsp.Flash
