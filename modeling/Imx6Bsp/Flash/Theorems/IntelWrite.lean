import Imx6Bsp.Flash.IntelWrite
import Imx6Bsp.Flash.Lemmas.AmdWrite

/-!
# 書き込みの正しさ

Intel の命令を受けるチップの補題と、`f3s_aCFI_v2write()`、`f3s_iCFI_v2write()` の両方が正しく書く条件を示す。ポインタと配列の不変条件は、
チップの状態を忘れて AMD の書き込みのものを使う。
-/

namespace Imx6Bsp.Flash

open Imx6Bsp.Lib

/-! ## 状態の語 -/

section

variable {c : FlashCfg} {x : BitVec 64}

theorem FlashCfg.ready_iff : x &&& c.mask 7 = c.mask 7 ↔ ∀ i < c.chipInter, c.bit x i 7 = true := by
  have hmask : IsLaneMask (8 * c.deviceWidth) c.chipInter 7 (c.mask 7) := c.isLaneMask (by decide)
  rw [hmask.eq_iff (by rw [BitVec.and_assoc, BitVec.and_self]) (BitVec.and_self ..)]
  refine forall₂_congr fun i hi => ?_
  rw [laneBit_and, hmask.bit hi, Bool.and_true]
  rfl

theorem FlashCfg.clear_iff {k : Nat} (hk : k < 8) : x &&& c.mask k = 0 ↔ ∀ i < c.chipInter, c.bit x i k = false :=
  (c.isLaneMask hk).and_eq_zero_iff

theorem FlashCfg.sequence_mask (c : FlashCfg) : c.command 0x30 = c.mask 4 ||| c.mask 5 ∧ c.command 0x30 ≠ 0 :=
  (by decide : ∀ p ∈ busShapes, BitVec.ofNat 64 0x30 * Flash.deviceMult p.1 p.2 =
      (BitVec.ofNat 64 (2 ^ 4) * Flash.deviceMult p.1 p.2 ||| BitVec.ofNat 64 (2 ^ 5) * Flash.deviceMult p.1 p.2) ∧
    BitVec.ofNat 64 0x30 * Flash.deviceMult p.1 p.2 ≠ 0) _ c.valid

/-- どのチップにも誤りがない。 -/
theorem intelReadStatus_clear (h : ∀ k < 7, ∀ i < c.chipInter, c.bit x i k = false) : intelReadStatus c x = 1 := by
  have hclear : ∀ k < 7, x &&& c.mask k = 0 := fun k hk => (FlashCfg.clear_iff (by omega)).mpr (h k hk)
  obtain ⟨hmask, hne⟩ := c.sequence_mask
  have hsequence : x &&& c.command 0x30 ≠ c.command 0x30 := by
    rw [hmask, BitVec.and_or_distrib_left, hclear 4 (by decide), hclear 5 (by decide), ← hmask]
    exact fun h => hne (h.symm.trans (BitVec.or_self ..))
  rw [intelReadStatus, if_neg (not_not.mpr (hclear 3 (by decide))), if_neg (not_not.mpr (hclear 1 (by decide))), if_neg hsequence,
    if_neg (not_not.mpr (hclear 4 (by decide))), if_neg (not_not.mpr (hclear 5 (by decide)))]

/-- 命令の順の誤りがある。 -/
theorem intelReadStatus_sequence (h : c.bit x 0 4 = true) : intelReadStatus c x = -1 := by
  have hset : x &&& c.mask 4 ≠ 0 := by
    intro hzero
    have hfalse := (FlashCfg.clear_iff (by decide)).mp hzero 0 c.inter_pos
    rw [h] at hfalse
    exact Bool.noConfusion hfalse
  rw [intelReadStatus]
  split_ifs <;> rfl

theorem intelPoll_ready {read : Nat → BitVec 64} (last : Nat) (hready : read last &&& c.mask 7 = c.mask 7) {polls t : Nat} (ht : t ≤ last)
    (hlast : last < t + polls) : intelPoll c read polls t = 1 := by
  induction polls generalizing t with
  | zero => omega
  | succ polls ih =>
      rw [intelPoll]
      by_cases hnow : read t &&& c.mask 7 = c.mask 7
      · exact if_pos hnow
      · rw [if_neg hnow]
        rcases Nat.lt_or_eq_of_le ht with hlt | rfl
        · exact ih hlt (by omega)
        · exact absurd hready hnow

end

/-! ## 同じ状態のチップ -/

/-- 命令を待っている。 -/
def IntelMode.Waits (m : IntelMode) : Prop := m = .array ∨ m = .status

/-- どのチップも状態 `m` で、誤りの印は `e` である。 -/
def IntelBus.All (p : AmdPart) (b : IntelBus) (m : IntelMode) (e : Bool) : Prop := ∀ i < p.cfg.chipInter, b.chip i = ⟨m, e⟩

section

variable {p : AmdPart} {b : IntelBus} {m : IntelMode} {e : Bool} {data : List (Nat × BitVec 64)}

theorem IntelBus.All.write {m' : IntelMode} {e' : Bool} {addr : Nat} {word : BitVec 64} (h : b.All p m e)
    (hstep : ∀ i < p.cfg.chipInter, IntelChip.write p i addr word ⟨m, e⟩ = ⟨m', e'⟩) : (b.write p addr word).All p m' e' := by
  intro i hi
  show (b.chip i).write p i addr word = _
  rw [h i hi, hstep i hi]

/-- 待っているチップへの命令。 -/
theorem IntelBus.All.send {m' : IntelMode} {v : Nat} (h : b.All p m e) (hm : m.Waits) (hv : v < 256) (addr : Nat)
    (hcommand : IntelChip.command ⟨m, e⟩ v = ⟨m', e⟩) : (b.send p addr v).All p m' e := by
  refine h.write fun i hi => ?_
  have hlane : p.cfg.lane (p.cfg.command v) i % 256 = v := FlashCfg.lane_byte hv hi
  rcases hm with rfl | rfl
  · exact (congrArg (IntelChip.command ⟨.array, e⟩) hlane).trans hcommand
  · exact (congrArg (IntelChip.command ⟨.status, e⟩) hlane).trans hcommand

theorem IntelBus.All.readArray (h : b.All p m e) (hm : m.Waits) (addr : Nat) : (b.send p addr 0xFF).All p .array e :=
  h.send hm (by decide) addr rfl

theorem IntelBus.All.readStatus (h : b.All p m e) (hm : m.Waits) (addr : Nat) : (b.send p addr 0x70).All p .status e :=
  h.send hm (by decide) addr rfl

/-- 一語の書き込みが始まる。 -/
theorem IntelBus.All.program (h : b.All p m e) (hm : m.Waits) (addr : Nat) (value : BitVec 64) :
    ((b.send p addr 0x40).write p addr value).All p (.busy [(addr / p.cfg.busWidth, value)]) e := by
  have hprogram : (b.send p addr 0x40).All p .program e := h.send hm (by decide) addr rfl
  exact hprogram.write fun i _ => rfl

/-- 演算の外で、状態レジスタを読む。 -/
theorem IntelBus.All.read_bit (h : b.All p m e) (hm : m ≠ .array) {done : Nat → Bool} {addr i k : Nat} (hi : i < p.cfg.chipInter) (hk : k < 8) :
    p.cfg.bit (b.read p done addr) i k = IntelChip.line ⟨m, e⟩ (done i) k := by
  rw [IntelBus.read, p.cfg.bit_word hi hk, h i hi, if_neg hm]

/-- 書き込みバッファは、すぐに使える。 -/
theorem IntelBus.All.requestBuffer (h : b.All p m e) (hm : m.Waits) (addr : Nat) :
    ∃ b' : IntelBus, Flash.requestBuffer p addr i28f008Poll b = (true, b') ∧ b'.All p .count e ∧ b'.array = b.array := by
  obtain ⟨polls, hpolls⟩ : ∃ n, i28f008Poll = n + 2 := ⟨0xFFFFFFE, rfl⟩
  have hcount : (b.send p addr 0xE8).All p .count e := h.send hm (by decide) addr rfl
  refine ⟨b.send p addr 0xE8, ?_, hcount, rfl⟩
  rw [hpolls, Flash.requestBuffer]
  rw [if_pos (FlashCfg.ready_iff.mpr fun i hi => hcount.read_bit (by decide) hi (by decide)), decide_eq_true (Nat.succ_ne_zero polls)]

/-- 演算が終わった後の配列。 -/
theorem IntelBus.All.settle_array (h : b.All p (.busy data) e) (w : Nat) {j : Nat} (hj : j < 8 * p.cfg.busWidth) :
    ((b.settle p).array w).getLsbD j = ((b.array w).getLsbD j && decide (∀ d ∈ data, d.1 = w → d.2.getLsbD j = true)) := by
  rw [IntelBus.settle]
  dsimp only
  rw [BitVec.getLsbD_ofFnLE, dif_pos (hj.trans_le p.cfg.bits_le)]
  dsimp only
  rw [h _ (p.cfg.chip_lt hj)]
  rfl

theorem IntelBus.All.settle (h : b.All p (.busy data) e) : (b.settle p).All p .status e := by
  intro i hi
  show (b.chip i).settle = _
  rw [h i hi]
  rfl

/-- 終わるまでの読み出しが足りれば、`intel_poll()` は成功する。 -/
theorem IntelBus.All.poll {duration : Nat → Nat} (h : b.All p (.busy data) e) (hduration : ∀ i < p.cfg.chipInter, duration i < i28f008Poll)
    (addr : Nat) : b.poll p duration addr = (true, b.settle p) := by
  have hpos : 0 < i28f008Poll := by decide
  have hready : intelPoll p.cfg (fun t => b.read p (fun i => decide (duration i ≤ t)) addr) i28f008Poll 0 = 1 := by
    refine intelPoll_ready (i28f008Poll - 1) (FlashCfg.ready_iff.mpr fun i hi => ?_) (Nat.zero_le _) (by omega)
    rw [h.read_bit (by simp) hi (by decide)]
    exact decide_eq_true (Nat.le_sub_one_of_lt (hduration i hi))
  rw [IntelBus.poll, hready]
  rfl

/-- メモリとして読んだ線。 -/
theorem IntelBus.All.data_bit (h : b.All p .array e) (w : Nat) {j : Nat} (hj : j < 8 * p.cfg.busWidth) :
    (b.data p w).getLsbD j = (b.array w).getLsbD j := by
  rw [IntelBus.data, BitVec.getLsbD_ofFnLE, dif_pos (hj.trans_le p.cfg.bits_le)]
  dsimp only
  rw [h _ (p.cfg.chip_lt hj), decide_eq_true rfl, Bool.true_and]

end

/-! ## チップの状態を忘れる -/

/-- 同じ中身の、読める状態のバス。 -/
def IntelBus.view (b : IntelBus) : AmdBus where
  mode _ := .read
  array := b.array

/-- 同じポインタと値。 -/
def IntelRegs.view (r : IntelRegs) : AmdRegs where
  bus := r.bus.view
  op := r.op
  value := r.value
  left := r.left
  offset := r.offset
  memory := r.memory
  buffer := r.buffer

theorem IntelBus.view_all (p : AmdPart) (b : IntelBus) : b.view.All p .read := fun _ _ => rfl

section

variable {p : AmdPart} {b : IntelBus} {e : Bool}

theorem IntelBus.All.view_data (h : b.All p .array e) (w : Nat) {j : Nat} (hj : j < 8 * p.cfg.busWidth) :
    (b.data p w).getLsbD j = (b.view.data p w).getLsbD j :=
  (h.data_bit w hj).trans ((b.view_all p).data_bit (.inl rfl) w hj).symm

theorem IntelBus.All.view_byte (h : b.All p .array e) (addr : Nat) : b.byte p addr = b.view.byte p addr := by
  have hpos : 0 < p.cfg.busWidth := Nat.mul_pos p.cfg.width_pos p.cfg.inter_pos
  have hmod := Nat.mod_lt addr hpos
  refine BitVec.eq_of_getLsbD_eq fun k hk => ?_
  rw [IntelBus.byte, AmdBus.byte, BitVec.getLsbD_extractLsb', BitVec.getLsbD_extractLsb', h.view_data _ (by omega)]

/-- 埋める値は、母線の幅の中のビットだけで決まる。 -/
theorem padValue_congr {c : FlashCfg} {value x y : BitVec 64} {shift : Nat} {front : Bool} (h : ∀ j < 8 * c.busWidth, x.getLsbD j = y.getLsbD j) :
    padValue c value x shift front = padValue c value y shift front := by
  refine BitVec.eq_of_getLsbD_eq fun j hj => ?_
  rcases Nat.lt_or_ge j (8 * c.busWidth) with hlt | hge
  · by_cases hone : c.busWidth = 1
    · rw [padValue, padValue, if_pos hone, if_pos hone]
    · rw [WriteSpec.padValue_bit hone hj, WriteSpec.padValue_bit hone hj, h j hlt]
  · rw [WriteSpec.padValue_upper hge, WriteSpec.padValue_upper hge]

theorem IntelRegs.view_padTail {env : AmdEnv} {r : IntelRegs} (h : r.left < env.part.cfg.busWidth → r.bus.All env.part .array e) :
    (intelPadTail env r).view = padTail env r.view := by
  rw [intelPadTail, padTail]
  by_cases hshort : r.left < env.part.cfg.busWidth
  · rw [if_pos hshort, if_pos (show r.view.left < _ from hshort), padValue_congr fun j hj => (h hshort).view_data _ hj]
    rfl
  · rw [if_neg hshort, if_neg (show ¬r.view.left < _ from hshort)]

theorem copyInFrom_bit {value : BitVec 64} {pad n j : Nat} {bytes : Nat → BitVec 8} (hj : j < 64) (hpad : pad ≤ j / 8) :
    (copyInFrom value pad n bytes).getLsbD j = (copyIn value n bytes).getLsbD j := by
  rw [copyInFrom, BitVec.getLsbD_ofFnLE, dif_pos hj]
  exact if_pos hpad

/-- 前を埋めた値は、頭のバイトによらない。 -/
theorem padValue_from {c : FlashCfg} {value current : BitVec 64} {pad n : Nat} {bytes : Nat → BitVec 8} (hpad : pad < c.busWidth)
    (hwidth : c.busWidth ≠ 1) :
    padValue c (copyInFrom value pad n bytes) current ((c.busWidth - pad) * 8) true =
      padValue c (copyIn value n bytes) current ((c.busWidth - pad) * 8) true := by
  refine BitVec.eq_of_getLsbD_eq fun j hj => ?_
  rw [WriteSpec.padValue_bit hwidth hj, WriteSpec.padValue_bit hwidth hj]
  by_cases hmask : (padMask c ((c.busWidth - pad) * 8) true).getLsbD j = true
  · rw [if_pos hmask, if_pos hmask]
  · rw [if_neg hmask, if_neg hmask]
    refine copyInFrom_bit hj ?_
    rcases Nat.lt_or_ge j (8 * c.busWidth) with hlt | hge
    · rw [WriteSpec.padMask_front hlt, decide_eq_true_iff] at hmask
      omega
    · omega

theorem view_start {s : WriteSpec} (h : b.All s.env.part .array e) :
    (intelStart s.env b s.offset s.length s.stack).view = writeStart s.env b.view s.offset s.length s.stack := by
  have hpad : s.pad < s.env.part.cfg.busWidth := s.pad_lt_width
  rw [intelStart, writeStart]
  dsimp only [IntelRegs.view]
  rw [s.land_width]
  by_cases hzero : s.pad = 0
  · rw [if_neg (not_not.mpr hzero), if_neg (not_not.mpr hzero), hzero]
    congr 1
    exact BitVec.eq_of_getLsbD_eq fun j hj => copyInFrom_bit hj (Nat.zero_le _)
  · rw [if_pos hzero, if_pos hzero, padValue_from hpad (by omega), padValue_congr fun j hj => h.view_data _ hj]

theorem view_verify {env : AmdEnv} {r : IntelRegs} (h : r.bus.All env.part .array e) (size : Int) :
    intelVerifyBytes env r size = verifyBytes env r.view size := by
  rw [intelVerifyBytes, verifyBytes]
  simp only [h.view_byte]
  rfl

end

/-! ## 書き込みのループ -/

namespace WriteSpec

variable {s : WriteSpec} {k : Nat} {r : IntelRegs} {duration : Nat → Nat → Nat} {m : IntelMode} {e : Bool}

/-- どの演算も、`intel_poll()` の回数のうちに終わる。 -/
def Timely (s : WriteSpec) (duration : Nat → Nat → Nat) : Prop :=
  ∀ o < s.length, ∀ i < s.env.part.cfg.chipInter, duration o i < i28f008Poll

/-- 演算が終わると、続く `n` 語だけが変わる。 -/
theorem settled_wrote {n : Nat} {data : List (Nat × BitVec 64)} {q : IntelRegs} (hr : s.Progress k r.view)
    (hbusy : q.bus.All s.env.part (.busy data) e) (hsent : s.Sent k n data) (hn : 0 < n) (harray : q.bus.array = r.bus.array)
    (hop : q.op = r.op + 1) (hleft : q.left = s.length - ((k + n) * s.width : Nat))
    (hmemory : q.memory + s.width = (s.base + (k + n)) * s.width) (hbuffer : q.buffer + s.width = ((k + n) * s.width : Nat) - (s.pad : Int))
    (hupper : ∀ j, 8 * s.width ≤ j → q.value.getLsbD j = s.stack.getLsbD j) :
    s.Wrote (k + n) { q with bus := q.bus.settle s.env.part }.view where
  left := hleft
  array w j hj := by
    refine hsent.settled (hr.array w j hj) ?_ hj
    show ((q.bus.settle s.env.part).array w).getLsbD j = _
    rw [hbusy.settle_array w hj, harray]
    rfl
  mode := IntelBus.view_all _ _
  op := by
    have hle : r.op ≤ k := hr.op
    show q.op ≤ k + n
    omega
  memory := hmemory
  buffer := hbuffer
  upper := hupper

/-- 一語を書く。 -/
theorem intelProgramWord_run (hduration : s.Timely duration) (h : s.Ready k r.view) (hall : r.bus.All s.env.part m e) (hm : m.Waits)
    (hleft : 0 < r.left) (hvalue : ∀ j < 8 * s.width, r.value.getLsbD j = s.bit (s.base + k) j) :
    ∃ r' m', intelProgramWord s.env duration r = (true, r') ∧ s.Wrote (k + 1) { r' with left := r'.left - s.env.part.cfg.busWidth }.view ∧
      r'.bus.All s.env.part m' e ∧ m'.Waits := by
  have hl : r.left = s.length - (k * s.width : Nat) := h.left
  have hwidth : s.width = s.env.part.cfg.busWidth := rfl
  rw [intelProgramWord]
  by_cases hskip : r.value = BitVec.allOnes 64
  · rw [if_pos hskip]
    exact ⟨r, m, rfl, h.skipped ((h.skip_iff hvalue).mp hskip), hall, hm⟩
  · rw [if_neg hskip]
    have hbusy := hall.program hm r.memory r.value
    have hop : r.op < s.length := h.toProgress.op_lt (by omega)
    rw [IntelRegs.poll]
    dsimp only
    rw [hbusy.poll (hduration r.op hop)]
    have hmemory : r.memory = (s.base + k) * s.width := h.memory
    have hbuffer : r.buffer = (k * s.width : Nat) - (s.pad : Int) := h.buffer
    have hword : r.memory / s.env.part.cfg.busWidth = s.base + k := by rw [hmemory, s.memory_div]
    refine ⟨_, .status, rfl, ?_, hbusy.settle, .inr rfl⟩
    rw [hword] at hbusy
    refine settled_wrote (q := { r with
      bus := (r.bus.send s.env.part r.memory 0x40).write s.env.part r.memory r.value, op := r.op + 1
      left := r.left - s.env.part.cfg.busWidth }) h.toProgress hbusy ((Sent.nil s k).snoc hvalue) Nat.one_pos rfl rfl ?_ ?_ ?_ h.upper
    · dsimp only
      rw [Nat.succ_mul]
      omega
    · dsimp only
      rw [hmemory, ← Nat.add_assoc, Nat.succ_mul]
    · dsimp only
      rw [hbuffer, Nat.succ_mul]
      omega

/-- 残りのバイトのループは、範囲の終わりまで書く。 -/
theorem intelWordLoop_run (hpad : s.pad < s.length) (hduration : s.Timely duration) {fuel : Nat} (h : s.Ready k r.view)
    (hall : r.bus.All s.env.part m e) (hm : m.Waits) (htail : r.left < s.width → m = .array) (hleft : 0 < r.left) (hfuel : r.left.toNat < fuel) :
    ∃ r' k' m', intelWordLoop s.env duration fuel r = some (true, r') ∧ s.Wrote k' r'.view ∧ r'.left ≤ 0 ∧ r'.bus.All s.env.part m' e ∧
      m'.Waits := by
  induction fuel generalizing k r m with
  | zero => exact absurd hfuel (Nat.not_lt_zero _)
  | succ fuel ih =>
      have hwidth := s.width_pos
      have hbus : s.width = s.env.part.cfg.busWidth := rfl
      have hpadded : (intelPadTail s.env r).view = padTail s.env r.view := IntelRegs.view_padTail fun hshort => (htail hshort) ▸ hall
      obtain ⟨hready, hvalue⟩ := h.padTail hleft hpad
      rw [← hpadded] at hready hvalue
      have hsame : (intelPadTail s.env r).left = r.left := Eq.trans hready.left h.left.symm
      have hkeep : (intelPadTail s.env r).bus = r.bus := by
        rw [intelPadTail]
        split <;> rfl
      obtain ⟨r₁, m₁, hword, hwrote, hall₁, hm₁⟩ := intelProgramWord_run hduration hready (hkeep ▸ hall) hm (hsame.symm ▸ hleft) hvalue
      have hl₁ : r₁.left - s.env.part.cfg.busWidth = s.length - ((k + 1) * s.width : Nat) := hwrote.left
      have hl : r.left = s.length - (k * s.width : Nat) := h.left
      rw [Nat.succ_mul] at hl₁
      rw [intelWordLoop, if_pos hleft, hword]
      dsimp only
      rw [intelNext]
      dsimp only
      by_cases hmore : r₁.left - s.env.part.cfg.busWidth > 0
      · rw [if_pos hmore]
        have hadvance := hwrote.advance (Nat.succ_pos k) (Int.le_refl _) (Int.min_le_left _ _)
        by_cases hshort : r₁.left - s.env.part.cfg.busWidth < s.env.part.cfg.busWidth
        · rw [if_pos (show (IntelRegs.advance s.env _ _).left < _ from hshort)]
          refine ih (r := (IntelRegs.advance s.env _ _).readArray s.env) (m := .array)
            ⟨⟨hadvance.left, hadvance.array, IntelBus.view_all _ _, hadvance.op⟩, hadvance.memory, hadvance.buffer, hadvance.value, hadvance.upper⟩
            (hall₁.readArray hm₁ _) (.inl rfl) (fun _ => rfl) hmore ?_
          dsimp only [IntelRegs.readArray, IntelRegs.advance]
          omega
        · rw [if_neg (show ¬(IntelRegs.advance s.env _ _).left < _ from hshort)]
          refine ih hadvance hall₁ hm₁ (fun h => absurd h hshort) hmore ?_
          dsimp only [IntelRegs.advance]
          omega
      · rw [if_neg hmore]
        obtain ⟨fuel, rfl⟩ := Nat.exists_eq_succ_of_ne_zero (show fuel ≠ 0 by omega)
        rw [intelWordLoop, if_neg hmore]
        exact ⟨_, k + 1, m₁, rfl, hwrote, Int.not_lt.mp hmore, hall₁, hm₁⟩

/-! ### 書き込みバッファ -/

/-- 書き込みバッファに語を送り終え、最後の語を指している。 -/
structure IntelFilled (s : WriteSpec) (k n : Nat) (e : Bool) (r r' : IntelRegs) : Prop where
  mode : ∃ data, r'.bus.All s.env.part (.confirm data) e ∧ s.Sent k n data
  array : r'.bus.array = r.bus.array
  memory : r'.memory + s.width = (s.base + (k + n)) * s.width
  buffer : r'.buffer + s.width = ((k + n) * s.width : Nat) - (s.pad : Int)
  upper : ∀ j, 8 * s.width ≤ j → r'.value.getLsbD j = s.stack.getLsbD j
  left : r'.left = r.left
  offset : r'.offset = r.offset
  op : r'.op = r.op

/-- 一語を送る。 -/
theorem intelLoadWord_next {n count q : Nat} {data : List (Nat × BitVec 64)} {word : BitVec 64} (hdata : s.Sent k n data)
    (hpage : ∀ t < n + (count + 1), s.env.part.page ((s.base + k + t) * s.width) = q) :
    IntelChip.loadWord s.env.part ⟨.load (count + 1) data, e⟩ (count + 1) data ((s.base + k + n) * s.width) word =
      ⟨if count = 0 then .confirm (data ++ [(s.base + k + n, word)]) else .load count (data ++ [(s.base + k + n, word)]), e⟩ := by
  have hsame : ∀ d ∈ data, s.env.part.page (d.1 * s.env.part.cfg.busWidth) = s.env.part.page ((s.base + k + n) * s.width) := by
    intro d hd
    obtain ⟨hlo, hhi, -⟩ := hdata.word d hd
    obtain ⟨t, ht⟩ := Nat.exists_eq_add_of_le hlo
    rw [hpage n (by omega), ht]
    exact hpage t (by omega)
  have hword : (s.base + k + n) * s.width / s.env.part.cfg.busWidth = s.base + k + n := Nat.mul_div_cancel _ s.width_pos
  rw [IntelChip.loadWord, if_pos hsame, hword]
  rcases Nat.eq_zero_or_pos count with rfl | hpos
  · rfl
  · rw [if_neg (by omega), if_neg (by omega)]
    rfl

theorem intelBufferWords_filled {n count q : Nat} {data : List (Nat × BitVec 64)} (hcount : 0 < count)
    (hmode : r.bus.All s.env.part (.load count data) e) (hdata : s.Sent k n data) (hmemory : r.memory = (s.base + k + n) * s.width)
    (hbuffer : r.buffer = ((k + n) * s.width : Nat) - (s.pad : Int)) (hvalue : ∀ j < 8 * s.width, r.value.getLsbD j = s.bit (s.base + k + n) j)
    (hupper : ∀ j, 8 * s.width ≤ j → r.value.getLsbD j = s.stack.getLsbD j)
    (hpage : ∀ t < n + count, s.env.part.page ((s.base + k + t) * s.width) = q) (hlen : (k + n + count) * s.width ≤ s.length) :
    ∃ r', s.IntelFilled k (n + count) e r r' ∧
      intelBufferWords s.env count r = if r.left ≥ (s.width : Int) then r'.advance s.env s.width else r' := by
  induction count generalizing r n data with
  | zero => exact absurd hcount (Nat.lt_irrefl 0)
  | succ count ih =>
      have hwidth : s.width = s.env.part.cfg.busWidth := rfl
      have hstep : (r.bus.write s.env.part r.memory r.value).All s.env.part
          (if count = 0 then .confirm (data ++ [(s.base + k + n, r.value)]) else .load count (data ++ [(s.base + k + n, r.value)])) e := by
        refine hmode.write fun i _ => ?_
        rw [hmemory]
        exact intelLoadWord_next hdata hpage
      have hsent := hdata.snoc hvalue
      rw [intelBufferWords]
      dsimp only
      rcases Nat.eq_zero_or_pos count with rfl | hpos
      · refine ⟨{ r with bus := r.bus.write s.env.part r.memory r.value }, ⟨⟨_, hstep, hsent⟩, rfl, ?_, ?_, hupper, rfl, rfl, rfl⟩, ?_⟩
        · dsimp only
          rw [hmemory, ← Nat.add_assoc, ← Nat.add_assoc, Nat.succ_mul]
        · dsimp only
          rw [hbuffer, ← Nat.add_assoc, Nat.succ_mul]
          omega
        · by_cases hmore : r.left ≥ (s.width : Int)
          · rw [if_pos (.inr hmore), if_pos hmore]
            rfl
          · rw [if_neg (show ¬(0 > 0 ∨ r.left ≥ (s.env.part.cfg.busWidth : Int)) from not_or.mpr ⟨Nat.lt_irrefl 0, hmore⟩), if_neg hmore]
            rfl
      · rw [if_neg (Nat.pos_iff_ne_zero.mp hpos)] at hstep
        rw [if_pos (.inl hpos)]
        have hadd : n + 1 + count = n + (count + 1) := Nat.add_right_comm n 1 count
        have hbuf : r.buffer + (s.width : Int) = ((k + (n + 1)) * s.width : Nat) - (s.pad : Int) := by
          rw [hbuffer, ← Nat.add_assoc, Nat.succ_mul]
          omega
        have hfits : (k + (n + 1)) * s.width + s.width ≤ s.length := by
          refine Nat.le_trans ?_ hlen
          rw [← Nat.succ_mul]
          exact Nat.mul_le_mul_right _ (by omega)
        have hmem : r.memory + s.width = (s.base + k + (n + 1)) * s.width := by
          rw [hmemory, ← Nat.add_assoc, Nat.succ_mul]
        have hval : ∀ j < 8 * s.width,
            (IntelRegs.advance s.env { r with bus := r.bus.write s.env.part r.memory r.value } s.env.part.cfg.busWidth).value.getLsbD j =
              s.bit (s.base + k + (n + 1)) j := by
          intro j hj
          rw [Nat.add_assoc s.base]
          exact advance_value (r := r.view) (Nat.succ_pos (k + n)) hbuf hj (by omega) (show (k + (n + 1)) * s.width + j / 8 < s.length by omega)
        have hrest : (k + (n + 1) + count) * s.width ≤ s.length := by
          rw [Nat.add_assoc, hadd, ← Nat.add_assoc]
          exact hlen
        obtain ⟨r', hfilled, hrun⟩ := ih (r := IntelRegs.advance s.env { r with bus := r.bus.write s.env.part r.memory r.value } s.env.part.cfg.busWidth)
          hpos hstep hsent hmem hbuf hval (fun j hj => (advance_upper (r := r.view) (Int.le_refl _) hj).trans (hupper j hj)) (by rw [hadd]; exact hpage)
          hrest
        rw [hadd] at hfilled
        exact ⟨r', ⟨hfilled.mode, hfilled.array, hfilled.memory, hfilled.buffer, hfilled.upper, hfilled.left, hfilled.offset, hfilled.op⟩, hrun⟩

/-- 語の数を送った後。 -/
theorem intelLoad_mode {n : Nat} (hmode : r.bus.All s.env.part .count e) (hn : 0 < n) (hfit : n * s.width ≤ s.env.part.bufferSize) (addr : Nat) :
    (r.bus.write s.env.part addr (BitVec.ofInt 64 ((n : Int) - 1) * s.env.part.cfg.deviceMult)).All s.env.part (.load n []) e := by
  refine hmode.write fun i hi => ?_
  have hlt : n - 1 < 2 ^ (8 * s.env.part.cfg.deviceWidth) := by
    have hle := hfit.trans s.env.part.fits
    rw [Nat.mul_comm] at hle
    have := Nat.le_of_mul_le_mul_left hle s.width_pos
    omega
  have hcommand : BitVec.ofInt 64 ((n : Int) - 1) * s.env.part.cfg.deviceMult = s.env.part.cfg.command (n - 1) := by
    rw [FlashCfg.command, show ((n : Int) - 1) = ((n - 1 : Nat) : Int) by omega, BitVec.ofInt_natCast]
  have hlane : s.env.part.cfg.lane (s.env.part.cfg.command (n - 1)) i + 1 = n := by
    rw [FlashCfg.lane_command hlt hi, Nat.sub_add_cancel hn]
  rw [hcommand]
  refine (if_pos ?_).trans (by rw [hlane])
  rw [hlane]
  exact hfit

/-- 書き込みバッファで書いた後。まだ一語以上残っていれば、次の語を読んでいる。 -/
structure IntelSent (s : WriteSpec) (k : Nat) (e : Bool) (r : IntelRegs) : Prop where
  mode : r.bus.All s.env.part .status e
  left : r.left = s.length - (k * s.width : Nat)
  nonneg : 0 ≤ r.left
  offset : r.offset = (s.base + k) * s.width
  pos : 0 < k
  ready : (s.width : Int) ≤ r.left → s.Ready k r.view
  wrote : r.left < (s.width : Int) → s.Wrote k r.view

/-- 一度のバッファの書き込み。 -/
theorem intelBufferChunk_run (hbig : s.width ≤ s.env.part.bufferSize) (hduration : s.Timely duration) (h : s.Ready k r.view)
    (hall : r.bus.All s.env.part m e) (hm : m.Waits) (hoffset : r.offset = (s.base + k) * s.width) (hleft : (s.width : Int) ≤ r.left) :
    ∃ r' k', intelBufferChunk s.env duration r = (true, r') ∧ s.IntelSent k' e r' ∧ r'.left < r.left := by
  obtain ⟨bus, hrequest, hcount, harray⟩ := hall.requestBuffer hm r.memory
  obtain ⟨n, hn, hsize, hnleft, hfit, hpage, -⟩ := chunkSize_eq hbig k hleft
  have hwidth : s.width = s.env.part.cfg.busWidth := rfl
  have hl : r.left = s.length - (k * s.width : Nat) := h.left
  have hsum : (k + n) * s.width = k * s.width + n * s.width := Nat.add_mul _ _ _
  have hposn := Nat.mul_pos hn s.width_pos
  have hwords : n * s.width / s.env.part.cfg.busWidth = n := Nat.mul_div_cancel n s.width_pos
  have hload := intelLoad_mode (r := { r with bus }) hcount hn hfit r.memory
  rw [intelBufferChunk, hrequest]
  dsimp only
  rw [if_pos rfl, intelBufferSend]
  dsimp only
  rw [hoffset, hsize, hwords]
  obtain ⟨r₁, hfilled, hrun⟩ := intelBufferWords_filled (k := k) (q := s.env.part.page ((s.base + k) * s.width))
    (r := { r with
      bus := bus.write s.env.part r.memory (BitVec.ofInt 64 ((n : Int) - 1) * s.env.part.cfg.deviceMult)
      left := r.left - (n * s.width : Nat), offset := (s.base + k) * s.width + n * s.width })
    hn hload (.nil s k) h.memory h.buffer (fun j hj => h.value j hj (by omega)) h.upper (fun t ht => (hpage t (by omega)).1)
    (by rw [Nat.add_zero, hsum]; omega)
  rw [Nat.zero_add] at hfilled
  obtain ⟨⟨data, hconfirm, hsent⟩, harray₁, hmemory, hbuffer, hupper, hleft₁, hoffset₁, hop⟩ := hfilled
  have hop' : r₁.op = r.op := hop
  have hlast : r₁.left = s.length - ((k + n) * s.width : Nat) := by
    rw [hleft₁]
    dsimp only
    omega
  have hbusy : ∀ addr, (r₁.bus.send s.env.part addr 0xD0).All s.env.part (.busy data) e :=
    fun addr => hconfirm.write fun i hi => if_pos (FlashCfg.lane_byte (by decide) hi)
  have hwrote : ∀ addr, s.Wrote (k + n) (IntelRegs.view { r₁ with
      bus := (r₁.bus.send s.env.part addr 0xD0).settle s.env.part, op := r₁.op + 1 }) := fun addr =>
    settled_wrote (q := { r₁ with bus := r₁.bus.send s.env.part addr 0xD0, op := r₁.op + 1 }) h.toProgress (hbusy addr) hsent hn
      (harray₁.trans harray) (congrArg (· + 1) hop') hlast hmemory hbuffer hupper
  have htime : ∀ i < s.env.part.cfg.chipInter, duration r.op i < i28f008Poll := hduration r.op (h.toProgress.op_lt (by omega))
  have hoff : r₁.offset = (s.base + (k + n)) * s.width := by
    rw [hoffset₁]
    dsimp only
    rw [← Nat.add_mul, Nat.add_assoc]
  rw [hrun]
  dsimp only
  by_cases hmore : r.left - (n * s.width : Nat) ≥ (s.width : Int)
  · rw [if_pos hmore, IntelRegs.poll]
    dsimp only [IntelRegs.advance]
    rw [hop', (hbusy _).poll htime]
    refine ⟨_, k + n, rfl, ⟨(hbusy _).settle, hlast, ?_, hoff, Nat.add_pos_right k hn, fun _ => ?_, fun hshort => ?_⟩, ?_⟩
    · dsimp only
      omega
    · rw [← hop']
      exact (hwrote _).advance (Nat.add_pos_right k hn) (by omega) (Int.le_refl _)
    · dsimp only at hshort
      omega
    · dsimp only
      omega
  · rw [if_neg hmore, IntelRegs.poll]
    dsimp only
    rw [hop', (hbusy _).poll htime]
    refine ⟨_, k + n, rfl, ⟨(hbusy _).settle, hlast, ?_, hoff, Nat.add_pos_right k hn, fun hlong => ?_, fun _ => ?_⟩, ?_⟩
    · dsimp only
      omega
    · dsimp only at hlong
      omega
    · rw [← hop']
      exact hwrote _
    · dsimp only
      omega

/-- 書き込みバッファのループ。 -/
theorem intelBufferLoop_run (hbig : s.width ≤ s.env.part.bufferSize) (hduration : s.Timely duration) (fuel : Nat) (h : s.Ready k r.view)
    (hall : r.bus.All s.env.part m e) (hm : m.Waits) (hoffset : r.offset = (s.base + k) * s.width) (hleft : (s.width : Int) ≤ r.left)
    (hfuel : r.left.toNat < fuel) :
    ∃ r' k', intelBufferLoop s.env duration fuel r = some (true, r') ∧
      (s.Ready k' r'.view ∧ 0 < r'.left ∧ r'.bus.All s.env.part .array e ∨ s.Wrote k' r'.view ∧ r'.left ≤ 0 ∧ r'.bus.All s.env.part .status e) := by
  have hwidth := s.width_pos
  have hbus : s.width = s.env.part.cfg.busWidth := rfl
  induction fuel generalizing k r m with
  | zero => exact absurd hfuel (Nat.not_lt_zero _)
  | succ fuel ih =>
      obtain ⟨r₁, k₁, hchunk, hsent, hlt⟩ := intelBufferChunk_run hbig hduration h hall hm hoffset hleft
      rw [intelBufferLoop, if_pos (show r.left ≥ (s.env.part.cfg.busWidth : Int) from hleft), hchunk]
      dsimp only
      by_cases hmore : r₁.left ≥ (s.env.part.cfg.busWidth : Int)
      · exact ih (hsent.ready hmore) hsent.mode (.inr rfl) hsent.offset hmore (by omega)
      · have hwrote := hsent.wrote (Int.not_le.mp hmore)
        have hnonneg := hsent.nonneg
        obtain ⟨fuel, rfl⟩ := Nat.exists_eq_succ_of_ne_zero (show fuel ≠ 0 by omega)
        rw [intelBufferLoop, if_neg hmore]
        by_cases hzero : r₁.left = 0
        · rw [if_neg (not_not.mpr hzero)]
          exact ⟨r₁, k₁, rfl, .inr ⟨hwrote, hzero.le, hsent.mode⟩⟩
        · rw [if_pos hzero]
          have hadvance := hwrote.advance hsent.pos (n := min r₁.left s.env.part.cfg.busWidth) (by
            show min (s.width : Int) r₁.left ≤ _
            omega) (by omega)
          refine ⟨_, k₁, rfl, .inl ⟨⟨⟨hadvance.left, hadvance.array, IntelBus.view_all _ _, hadvance.op⟩, hadvance.memory, hadvance.buffer,
            hadvance.value, hadvance.upper⟩, lt_of_le_of_ne hnonneg (Ne.symm hzero), hsent.mode.readArray (.inr rfl) _⟩⟩

/-- 二つの方法のループ。 -/
theorem intelLoops_run (hs : s.Healthy) (hduration : s.Timely duration) {writeBuffer : Bool} (hfit : ¬s.Starves writeBuffer) {bus : IntelBus}
    (hold : bus.array = s.old) (hall : bus.All s.env.part .array e) :
    ∃ r k m, intelLoops s.env writeBuffer duration (intelStart s.env bus s.offset s.length s.stack) = some (true, r) ∧ s.Wrote k r.view ∧
      r.left ≤ 0 ∧ r.bus.All s.env.part m e ∧ m.Waits := by
  have hbus : s.width = s.env.part.cfg.busWidth := rfl
  have hstart : s.Buffering 0 (writeStart s.env bus.view s.offset s.length s.stack) := start_buffering hold (IntelBus.view_all _ _)
  rw [← view_start hall] at hstart
  have hleft : (intelStart s.env bus s.offset s.length s.stack).left = s.length := rfl
  have hmode : (intelStart s.env bus s.offset s.length s.stack).bus.All s.env.part .array e := hall
  have hlen := hs.pad_lt
  have hfuel := hs.fuel
  rw [intelLoops]
  by_cases hbuffer : UsesIntelBuffer s.env.part writeBuffer (intelStart s.env bus s.offset s.length s.stack).left
  · have hfull : (s.width : Int) ≤ (intelStart s.env bus s.offset s.length s.stack).left := by
      have h := hbuffer.2
      omega
    have hbig : s.width ≤ s.env.part.bufferSize := Nat.le_of_not_lt fun hlt => hfit ⟨hleft ▸ hbuffer, hlt⟩
    obtain ⟨r, k, hloop, hcase⟩ := intelBufferLoop_run hbig hduration s.env.fuel hstart.toReady hmode (.inl rfl) hstart.offset hfull (by omega)
    rw [if_pos hbuffer, hloop]
    dsimp only
    rcases hcase with ⟨hready, hpos, harray⟩ | ⟨hwrote, hnone, hstatus⟩
    · have hl : r.left = s.length - (k * s.width : Nat) := hready.left
      exact intelWordLoop_run hs.pad_lt hduration hready harray (.inl rfl) (fun _ => rfl) hpos (by omega)
    · obtain ⟨fuel, hf⟩ := Nat.exists_eq_succ_of_ne_zero (show s.env.fuel ≠ 0 by omega)
      rw [hf, intelWordLoop, if_neg (Int.not_lt.mpr hnone)]
      exact ⟨r, k, .status, rfl, hwrote, hnone, hstatus, .inr rfl⟩
  · rw [if_neg hbuffer]
    exact intelWordLoop_run hs.pad_lt hduration hstart.toReady hmode (.inl rfl) (fun _ => rfl) (by omega) (by omega)

/-- 状態を調べ、確かめる。 -/
theorem intelFinish_run (hpad : s.pad < s.length) (h : s.Wrote k r.view) (hleft : r.left ≤ 0) (hall : r.bus.All s.env.part m false)
    (hm : m.Waits) (verify : Bool) :
    ∃ bus', intelFinish s.env verify (s.length - s.pad) r = (s.exit verify, bus') ∧ bus'.All s.env.part .array false ∧
      bus'.array = r.bus.array := by
  have hstatus := hall.readStatus hm r.memory
  have hclear : intelReadStatus s.env.part.cfg ((r.bus.send s.env.part r.memory 0x70).read s.env.part (fun _ => true) r.memory) = 1 := by
    refine intelReadStatus_clear fun k hk i hi => ?_
    rw [hstatus.read_bit (by decide) hi (by omega), IntelChip.line, if_neg (by omega)]
    split <;> rfl
  have harray := hstatus.readArray (.inr rfl) r.memory
  have hwritten := h.written hleft hpad
  have hverify : intelVerifyBytes s.env
      (IntelRegs.readArray s.env { r with bus := r.bus.send s.env.part r.memory 0x70 }) (s.length - s.pad) = true ↔ s.Exact := by
    rw [view_verify harray]
    exact h.verify_iff hpad (IntelBus.view_all s.env.part r.bus) (.inl rfl) hwritten
  have hsize : ((s.length : Int) - s.pad) = s.size := by
    rw [size]
    omega
  refine ⟨_, ?_, harray, rfl⟩
  rw [intelFinish]
  dsimp only
  rw [hclear, if_neg (by decide), exit]
  by_cases hexact : s.Exact
  · rw [if_neg (fun h => h.2 (hverify.mpr hexact)), if_neg (fun h => h.2 hexact), hsize]
    rfl
  · by_cases hv : verify = true
    · rw [if_pos ⟨hv, fun h => hexact (hverify.mp h)⟩, if_pos ⟨hv, hexact⟩]
      rfl
    · rw [if_neg (fun h => hv h.1), if_neg (fun h => hv h.1), hsize]
      rfl

/-! ### 語の入らない書き込みバッファ -/

/-- 誤りの印は消えない。 -/
theorem intelProgramWord_failed (hall : r.bus.All s.env.part m true) (hm : m.Waits) {ok : Bool} {r' : IntelRegs}
    (hrun : intelProgramWord s.env duration r = (ok, r')) : ∃ m', r'.bus.All s.env.part m' true ∧ m'.Waits := by
  rw [intelProgramWord] at hrun
  by_cases hskip : r.value = BitVec.allOnes 64
  · rw [if_pos hskip] at hrun
    obtain ⟨-, rfl⟩ := Prod.mk.inj hrun
    exact ⟨m, hall, hm⟩
  · rw [if_neg hskip] at hrun
    obtain ⟨-, rfl⟩ := Prod.mk.inj hrun
    exact ⟨.status, (hall.program hm r.memory r.value).settle, .inr rfl⟩

theorem intelWordLoop_failed {fuel : Nat} (hall : r.bus.All s.env.part m true) (hm : m.Waits) {r' : IntelRegs}
    (hrun : intelWordLoop s.env duration fuel r = some (true, r')) : ∃ m', r'.bus.All s.env.part m' true ∧ m'.Waits := by
  induction fuel generalizing r m with
  | zero => cases hrun
  | succ fuel ih =>
      rw [intelWordLoop] at hrun
      by_cases hleft : r.left > 0
      · have hkeep : (intelPadTail s.env r).bus = r.bus := by
          rw [intelPadTail]
          split <;> rfl
        cases hword : intelProgramWord s.env duration (intelPadTail s.env r) with
        | mk ok r₁ =>
            obtain ⟨m₁, hall₁, hm₁⟩ := intelProgramWord_failed (hkeep ▸ hall) hm hword
            rw [if_pos hleft, hword] at hrun
            cases ok with
            | false => cases hrun
            | true =>
                dsimp only at hrun
                rw [intelNext] at hrun
                dsimp only at hrun
                split at hrun
                · split at hrun
                  · exact ih (hall₁.readArray hm₁ _) (.inl rfl) hrun
                  · exact ih (r := IntelRegs.advance s.env { r₁ with left := r₁.left - s.env.part.cfg.busWidth } _) hall₁ hm₁ hrun
                · exact ih (r := { r₁ with left := r₁.left - s.env.part.cfg.busWidth }) hall₁ hm₁ hrun
      · rw [if_neg hleft] at hrun
        obtain ⟨-, rfl⟩ := Prod.mk.inj (Option.some.inj hrun)
        exact ⟨m, hall, hm⟩

/-- 一語も送らず、語の数は誤りになる。 -/
theorem intelBufferChunk_starved (hsmall : s.env.part.bufferSize < s.width) (hall : r.bus.All s.env.part m e) (hm : m.Waits) {ok : Bool}
    {r' : IntelRegs} (hrun : intelBufferChunk s.env duration r = (ok, r')) : r'.bus.All s.env.part .status true := by
  obtain ⟨bus, hrequest, hcount, -⟩ := hall.requestBuffer hm r.memory
  have hbus : s.width = s.env.part.cfg.busWidth := rfl
  have hnone : chunkSize s.env.part r.left r.offset / s.env.part.cfg.busWidth = 0 := by
    refine Nat.div_eq_of_lt ?_
    rw [chunkSize]
    omega
  have hfail : ∀ word, (bus.write s.env.part r.memory word).All s.env.part .status true := by
    intro word
    refine hcount.write fun i _ => if_neg fun hle => ?_
    have hmul : s.env.part.cfg.busWidth ≤ (s.env.part.cfg.lane word i + 1) * s.env.part.cfg.busWidth :=
      Nat.le_mul_of_pos_left _ (Nat.succ_pos _)
    omega
  have hsame : ∀ word addr, ((bus.write s.env.part r.memory word).send s.env.part addr 0xD0).All s.env.part .status true :=
    fun word addr => (hfail word).send (.inr rfl) (by decide) addr rfl
  rw [intelBufferChunk, hrequest] at hrun
  dsimp only at hrun
  rw [if_pos rfl, intelBufferSend] at hrun
  dsimp only at hrun
  rw [hnone, intelBufferWords] at hrun
  obtain ⟨-, rfl⟩ := Prod.mk.inj hrun
  intro i hi
  show (IntelChip.settle _) = _
  rw [hsame _ _ i hi]
  rfl

theorem intelBufferLoop_starved (hsmall : s.env.part.bufferSize < s.width) {fuel : Nat} (hall : r.bus.All s.env.part m e) (hm : m.Waits)
    (hfirst : (s.width : Int) ≤ r.left ∨ e = true) {r' : IntelRegs} (hrun : intelBufferLoop s.env duration fuel r = some (true, r')) :
    ∃ m', r'.bus.All s.env.part m' true ∧ m'.Waits := by
  induction fuel generalizing r m e with
  | zero => cases hrun
  | succ fuel ih =>
      rw [intelBufferLoop] at hrun
      by_cases hmore : r.left ≥ (s.env.part.cfg.busWidth : Int)
      · cases hchunk : intelBufferChunk s.env duration r with
        | mk ok r₁ =>
            have hfailed := intelBufferChunk_starved hsmall hall hm hchunk
            rw [if_pos hmore, hchunk] at hrun
            cases ok with
            | false => cases hrun
            | true => exact ih hfailed (.inr rfl) (.inr rfl) hrun
      · rw [if_neg hmore] at hrun
        obtain rfl : e = true := hfirst.resolve_left hmore
        obtain ⟨-, rfl⟩ := Prod.mk.inj (Option.some.inj hrun)
        split
        · exact ⟨.array, hall.readArray hm _, .inl rfl⟩
        · exact ⟨m, hall, hm⟩

/-- 書き込みのループの後には、誤りの印がある。 -/
theorem intelLoops_starved {writeBuffer : Bool} (hstarves : s.Starves writeBuffer) {bus : IntelBus} (hall : bus.All s.env.part .array false)
    (hrun : intelLoops s.env writeBuffer duration (intelStart s.env bus s.offset s.length s.stack) = some (true, r)) :
    ∃ m, r.bus.All s.env.part m true ∧ m.Waits := by
  have hbus : s.width = s.env.part.cfg.busWidth := rfl
  have hlong := hstarves.1.2
  rw [intelLoops, if_pos (show UsesIntelBuffer s.env.part writeBuffer (intelStart s.env bus s.offset s.length s.stack).left from hstarves.1)]
    at hrun
  cases hbuffer : intelBufferLoop s.env duration s.env.fuel (intelStart s.env bus s.offset s.length s.stack) with
  | none =>
      rw [hbuffer] at hrun
      cases hrun
  | some x =>
      obtain ⟨ok, r₁⟩ := x
      rw [hbuffer] at hrun
      cases ok with
      | false => cases hrun
      | true =>
          obtain ⟨m₁, hall₁, hm₁⟩ := intelBufferLoop_starved hstarves.2 (r := intelStart s.env bus s.offset s.length s.stack) hall (.inl rfl)
            (.inl (show (s.width : Int) ≤ s.length by omega)) hbuffer
          exact intelWordLoop_failed hall₁ hm₁ hrun

/-- 誤りの印があれば、`-1` を返す。 -/
theorem intelFinish_failed (hall : r.bus.All s.env.part m true) (hm : m.Waits) (verify : Bool) (size : Int) :
    (intelFinish s.env verify size r).1 = .programError := by
  have hstatus := hall.readStatus hm r.memory
  have hbit : s.env.part.cfg.bit ((r.bus.send s.env.part r.memory 0x70).read s.env.part (fun _ => true) r.memory) 0 4 = true :=
    hstatus.read_bit (by decide) s.env.part.cfg.inter_pos (by decide)
  rw [intelFinish]
  dsimp only
  rw [if_pos (intelReadStatus_sequence hbit)]

/-- 語の入らない書き込みバッファでは、`-1` を返す。 -/
theorem iCFIv2Write_starved {writeBuffer : Bool} (hstarves : s.Starves writeBuffer) {bus : IntelBus} (hall : bus.All s.env.part .array false)
    {verify : Bool} {size : Int} (hgrant : s.env.page (s.base * s.width) (size + s.pad) = some (s.length : Int)) {exit : WriteExit}
    {bus' : IntelBus} (hrun : iCFIv2Write s.env writeBuffer duration bus verify s.offset size s.stack = some (exit, bus')) :
    exit = .programError := by
  rw [iCFIv2Write] at hrun
  rw [s.land_width, s.start_memory, hgrant] at hrun
  dsimp only at hrun
  cases hloops : intelLoops s.env writeBuffer duration (intelStart s.env bus s.offset s.length s.stack) with
  | none =>
      rw [hloops] at hrun
      cases hrun
  | some x =>
      obtain ⟨ok, r⟩ := x
      rw [hloops] at hrun
      cases ok with
      | false =>
          obtain ⟨rfl, -⟩ := Prod.mk.inj (Option.some.inj hrun)
          rfl
      | true =>
          obtain ⟨m, hall, hm⟩ := intelLoops_starved hstarves hall hloops
          exact (congrArg Prod.fst (Option.some.inj hrun)).symm.trans (intelFinish_failed hall hm verify _)

/-! ## 二つの書き込み -/

/-- どちらの書き込みも正しいのは、書き込みバッファに一語でも入るときである。 -/
theorem buffered_write_exact_iff (hs : s.Healthy) (hrep : s.Reports) (hduration : s.Timely duration) (writeBuffer : Bool) {amd : AmdBus}
    {intel : IntelBus} (hamd : amd.array = s.old) (hread : amd.All s.env.part .read) (hintel : intel.array = s.old)
    (harray : intel.All s.env.part .array false) {size : Int} (hcommand : s.env.page (s.offset &&& s.env.part.cfg.commandMask) 0 ≠ none)
    (hgrant : s.env.page (s.base * s.width) (size + s.pad) = some (s.length : Int)) (verify : Bool) :
    s.AmdExact amd verify size ∧ s.IntelExact writeBuffer duration intel verify size ↔ ¬s.Starves writeBuffer := by
  constructor
  · rintro ⟨-, bus', hrun, -⟩ hstarves
    have hexit := iCFIv2Write_starved hstarves harray hgrant hrun
    rw [exit] at hexit
    split at hexit <;> cases hexit
  · intro hfit
    refine ⟨aCFIv2Write_spec hs hrep hamd hread hcommand hgrant verify, ?_⟩
    obtain ⟨r, k, m, hloops, hwrote, hleft, hall, hm⟩ := intelLoops_run hs hduration hfit hintel harray
    obtain ⟨bus', hfinish, hdone, hsame⟩ := intelFinish_run hs.pad_lt hwrote hleft hall hm verify
    refine ⟨bus', ?_, fun i hi => congrArg IntelChip.mode (hdone i hi), ?_⟩
    · rw [iCFIv2Write]
      rw [s.land_width, s.start_memory, hgrant]
      dsimp only
      rw [hloops]
      exact congrArg some hfinish
    · rw [hsame]
      exact hwrote.written hleft hs.pad_lt

/-! ### 二つのチップに 16 バイトを書く -/

/-- 16 ビットの二つのチップで、書き込みバッファは、合わせて 32 バイトである。 -/
def bufferedPart : AmdPart := ⟨⟨2, 2, twoChips⟩, 5, 1, Nat.le_of_ble_eq_true rfl⟩

/-- 16 ビットの二つのチップで、書き込みバッファは無い。`iCFI_ident()` は、1 をチップの数だけ倍にする。 -/
def bufferlessPart : AmdPart := ⟨⟨2, 2, twoChips⟩, 1, 1, Nat.le_of_ble_eq_true rfl⟩

/-- 消えている配列の先頭に、16 バイトの 0 を書く。 -/
def clearBlock (part : AmdPart) : WriteSpec where
  env :=
    { part
      page := fun _ size => some size
      buf := fun _ => 0
      ops := fun _ _ => {}
      fuel := 20 }
  old _ := BitVec.allOnes 64
  offset := 0
  length := 16
  stack := 0

theorem clearBlock_healthy (part : AmdPart) : (clearBlock part).Healthy where
  outcome _ _ _ := rfl
  duration _ _ _ _ := (by decide : 0 < 20)
  fuel := (by decide : 16 < 20)
  pad_lt := (Nat.mod_le 0 _).trans_lt (by decide : 0 < 16)
  offset_lt := (by decide : 0 < 2 ^ 32)

theorem clearBlock_reports (part : AmdPart) : (clearBlock part).Reports := by
  intro k _ _ i hi _
  have hlt := (clearBlock part).dq7_lt hi
  have hle := part.cfg.bits_le
  exact BitVec.getLsbD_allOnes.trans (decide_eq_true (hlt.trans_le hle))

theorem clearBlock_timely (part : AmdPart) : (clearBlock part).Timely fun _ _ => 0 := fun _ _ _ _ => (by decide : 0 < i28f008Poll)

/-- 消えている配列の、Intel のチップ。 -/
def erasedIntelBus : IntelBus where
  chip _ := {}
  array _ := BitVec.allOnes 64

theorem buffered_write_exact_iff_sample :
    (clearBlock bufferedPart).AmdExact erasedBus true 16 ∧
      (clearBlock bufferedPart).IntelExact true (fun _ _ => 0) erasedIntelBus true 16 :=
  (@buffered_write_exact_iff (clearBlock bufferedPart) (fun _ _ => 0) (clearBlock_healthy _) (clearBlock_reports _) (clearBlock_timely _) true
    erasedBus erasedIntelBus rfl (fun _ _ => rfl) rfl (fun _ _ => rfl) 16 (Option.some_ne_none 0) rfl true).mpr (by decide)

/-- 書き込みバッファの無い二つのチップへの 16 バイトの書き込みは失敗する。 -/
theorem buffered_write_not_exact : ¬ ∀ (s : WriteSpec) (duration : Nat → Nat → Nat) (writeBuffer : Bool) (amd : AmdBus) (intel : IntelBus)
    (verify : Bool) (size : Int), s.Healthy → s.Reports → s.Timely duration → amd.array = s.old → amd.All s.env.part .read →
      intel.array = s.old → intel.All s.env.part .array false → s.env.page (s.offset &&& s.env.part.cfg.commandMask) 0 ≠ none →
        s.env.page (s.base * s.width) (size + s.pad) = some (s.length : Int) →
          s.AmdExact amd verify size ∧ s.IntelExact writeBuffer duration intel verify size := by
  intro h
  obtain ⟨-, bus', hrun, -⟩ := h (clearBlock bufferlessPart) (fun _ _ => 0) true erasedBus erasedIntelBus true 16 (clearBlock_healthy _)
    (clearBlock_reports _) (clearBlock_timely _) rfl (fun _ _ => rfl) rfl (fun _ _ => rfl) (Option.some_ne_none 0) rfl
  have hexit := iCFIv2Write_starved (by decide) (fun _ _ => rfl) rfl hrun
  rw [exit] at hexit
  split at hexit <;> cases hexit

end WriteSpec

end Imx6Bsp.Flash
