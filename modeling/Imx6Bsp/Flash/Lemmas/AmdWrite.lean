import Imx6Bsp.Flash.Lemmas.Amd

/-!
# 書き込みのループの補題

`k` 番目の語を書く前の状態 `Ready` と、書いた後の状態 `Wrote` を、ループの一回ごとに保つ。
-/

namespace Imx6Bsp.Flash

open Imx6Bsp.Lib

namespace WriteSpec

variable {s : WriteSpec} {k : Nat} {r : AmdRegs} {command : Nat}

/-! ## 位置 -/

theorem width_pos (s : WriteSpec) : 0 < s.width := Nat.mul_pos s.env.part.cfg.width_pos s.env.part.cfg.inter_pos

theorem base_mul (s : WriteSpec) : s.base * s.width + s.pad = s.offset := by
  rw [base, pad, Nat.mul_comm]
  exact Nat.div_add_mod _ _

theorem pad_lt_width (s : WriteSpec) : s.pad < s.width := Nat.mod_lt _ s.width_pos

/-- 先頭から `k` 番目の語で、書く範囲の中のビット。 -/
theorem bit_inside {j : Nat} (hlo : s.pad ≤ k * s.width + j / 8) (hhi : k * s.width + j / 8 < s.length) :
    s.bit (s.base + k) j = (s.env.buf ((k * s.width + j / 8 : Nat) - (s.pad : Int))).getLsbD (j % 8) := by
  have hbase := s.base_mul
  have hq : (s.base + k) * s.width + j / 8 = s.base * s.width + (k * s.width + j / 8) := by
    rw [Nat.add_mul, Nat.add_assoc]
  rw [bit, hq, if_pos ⟨by omega, by rw [size]; omega⟩]
  congr 2
  omega

/-- 頭の前のビット。 -/
theorem bit_before {j : Nat} (h : j / 8 < s.pad) : s.bit s.base j = (s.old s.base).getLsbD j := by
  have hbase := s.base_mul
  rw [bit, if_neg fun h' => by omega]

/-- 終わりの後のビット。 -/
theorem bit_after {j : Nat} (h : s.length ≤ k * s.width + j / 8) (hpad : s.pad < s.length) :
    s.bit (s.base + k) j = (s.old (s.base + k)).getLsbD j := by
  have hbase := s.base_mul
  have hq : (s.base + k) * s.width + j / 8 = s.base * s.width + (k * s.width + j / 8) := by
    rw [Nat.add_mul, Nat.add_assoc]
  rw [bit, hq, if_neg fun h' => ?_]
  rw [size] at h'
  omega

theorem bit_outside {w j : Nat} (hj : j < 8 * s.width) (h : w < s.base ∨ s.length ≤ (w - s.base) * s.width ∧ s.base ≤ w) (hpad : s.pad < s.length) :
    s.bit w j = (s.old w).getLsbD j := by
  have hbase := s.base_mul
  rcases h with h | ⟨h, hle⟩
  · have hmul := Nat.mul_le_mul_right s.width (Nat.succ_le_of_lt h)
    rw [Nat.succ_mul] at hmul
    rw [bit, if_neg fun h' => by omega]
  · obtain ⟨k, rfl⟩ := Nat.exists_eq_add_of_le hle
    rw [Nat.add_sub_cancel_left] at h
    exact bit_after (h.trans (Nat.le_add_right _ _)) hpad

/-! ## 不変条件 -/

/-- 先頭から `k` 語を書いた。 -/
structure Progress (s : WriteSpec) (k : Nat) (r : AmdRegs) : Prop where
  left : r.left = s.length - (k * s.width : Nat)
  array : ∀ w, ∀ j < 8 * s.width,
    (r.bus.array w).getLsbD j = if s.base ≤ w ∧ w < s.base + k then ((s.old w).getLsbD j && s.bit w j) else (s.old w).getLsbD j
  mode : r.bus.All s.env.part (if r.unlock then .bypass else .read)
  op : r.op ≤ k

/-- 次の語を `value` に読んだ。 -/
structure Ready (s : WriteSpec) (k : Nat) (r : AmdRegs) : Prop extends s.Progress k r where
  memory : r.memory = (s.base + k) * s.width
  buffer : r.buffer = (k * s.width : Nat) - (s.pad : Int)
  value : ∀ j < 8 * s.width, k * s.width + j / 8 < s.length → r.value.getLsbD j = s.bit (s.base + k) j
  upper : ∀ j, 8 * s.width ≤ j → r.value.getLsbD j = s.stack.getLsbD j

/-- ポインタは、書いた最後の語を指す。 -/
structure Wrote (s : WriteSpec) (k : Nat) (r : AmdRegs) : Prop extends s.Progress k r where
  memory : r.memory + s.width = (s.base + k) * s.width
  buffer : r.buffer + s.width = (k * s.width : Nat) - (s.pad : Int)
  upper : ∀ j, 8 * s.width ≤ j → r.value.getLsbD j = s.stack.getLsbD j

theorem readable_mode (unlock : Bool) : (if unlock then AmdMode.bypass else AmdMode.read).Readable := by
  cases unlock
  · exact .inl rfl
  · exact .inr rfl

theorem memory_div (s : WriteSpec) (k : Nat) : (s.base + k) * s.width / s.env.part.cfg.busWidth = s.base + k :=
  Nat.mul_div_cancel _ s.width_pos

/-- 残りがなければ、範囲の全体を書いている。 -/
theorem Progress.written (h : s.Progress k r) (hleft : r.left ≤ 0) (hpad : s.pad < s.length) : s.Written r.bus.array := by
  intro w j hj
  have hdone : s.length ≤ k * s.width := by
    have := h.left
    omega
  rw [h.array w j hj]
  by_cases hin : s.base ≤ w ∧ w < s.base + k
  · rw [if_pos hin]
  · rw [if_neg hin, bit_outside hj ?_ hpad, Bool.and_self]
    rcases Nat.lt_or_ge w s.base with hlt | hge
    · exact .inl hlt
    · refine .inr ⟨hdone.trans (Nat.mul_le_mul_right _ ?_), hge⟩
      omega

theorem copyIn_bit {value : BitVec 64} {n : Nat} {bytes : Nat → BitVec 8} {j : Nat} (hj : j < 64) (hn : j / 8 < n) :
    (copyIn value n bytes).getLsbD j = (bytes (j / 8)).getLsbD (j % 8) := by
  rw [copyIn, BitVec.getLsbD_ofFnLE, dif_pos hj]
  exact if_pos hn

theorem copyIn_upper {value : BitVec 64} {n : Nat} {bytes : Nat → BitVec 8} {j : Nat} (hn : n ≤ j / 8) :
    (copyIn value n bytes).getLsbD j = value.getLsbD j := by
  by_cases hj : j < 64
  · rw [copyIn, BitVec.getLsbD_ofFnLE, dif_pos hj]
    exact if_neg (Nat.not_lt.mpr hn)
  · rw [BitVec.getLsbD_of_ge _ _ (Nat.le_of_not_lt hj), BitVec.getLsbD_of_ge _ _ (Nat.le_of_not_lt hj)]

theorem bit_lt (s : WriteSpec) {j : Nat} (hj : j < 8 * s.width) : j < 64 := hj.trans_le s.env.part.cfg.bits_le

/-- `memcpy()` で読んだ語のビット。 -/
theorem advance_value {n : Int} {j : Nat} (hk : 0 < k) (hbuffer : r.buffer + s.width = (k * s.width : Nat) - (s.pad : Int))
    (hj : j < 8 * s.width) (hn : (j / 8 : Nat) < n) (hlen : k * s.width + j / 8 < s.length) :
    (r.advance s.env n).value.getLsbD j = s.bit (s.base + k) j := by
  have hwidth : s.width ≤ k * s.width := Nat.le_mul_of_pos_left _ hk
  have hpad := s.pad_lt_width
  have hbuf : r.buffer + (s.env.part.cfg.busWidth : Int) = (k * s.width : Nat) - (s.pad : Int) := hbuffer
  rw [AmdRegs.advance]
  dsimp only
  rw [copyIn_bit (s.bit_lt hj) (by omega), bit_inside (by omega) hlen, hbuf]
  congr 2
  omega

theorem advance_upper {n : Int} {j : Nat} (hn : n ≤ s.width) (hj : 8 * s.width ≤ j) :
    (r.advance s.env n).value.getLsbD j = r.value.getLsbD j := by
  rw [AmdRegs.advance]
  dsimp only
  rw [copyIn_upper (by omega)]

/-- 次の語に進む。 -/
theorem Wrote.advance (h : s.Wrote k r) (hk : 0 < k) {n : Int} (hn : min (s.width : Int) r.left ≤ n) (hle : n ≤ s.width) :
    s.Ready k (r.advance s.env n) where
  left := h.left
  array := h.array
  mode := h.mode
  op := h.op
  memory := h.memory
  buffer := h.buffer
  value j hj hlen := by
    have hl := h.left
    exact advance_value hk h.buffer hj (by omega) hlen
  upper j hj := (advance_upper hle hj).trans (h.upper j hj)

theorem padMask_tail {c : FlashCfg} {shift j : Nat} (hj : j < 8 * c.busWidth) : (padMask c shift false).getLsbD j = decide (shift ≤ j) := by
  have h64 := hj.trans_le c.bits_le
  rw [padMask, if_neg Bool.false_ne_true, BitVec.getLsbD_setWidth, BitVec.getLsbD_shiftLeft, BitVec.getLsbD_allOnes, decide_eq_true h64,
    decide_eq_true hj]
  by_cases hlt : j < shift
  · rw [decide_eq_true hlt, decide_eq_false (Nat.not_le.mpr hlt)]
    rfl
  · rw [decide_eq_false hlt, decide_eq_true (Nat.le_of_not_lt hlt), decide_eq_true (show j - shift < 8 * c.busWidth by omega)]
    rfl

theorem padMask_front {c : FlashCfg} {shift j : Nat} (hj : j < 8 * c.busWidth) :
    (padMask c shift true).getLsbD j = decide (shift + j < 8 * c.busWidth) := by
  have h64 := hj.trans_le c.bits_le
  rw [padMask, if_pos rfl, BitVec.getLsbD_setWidth, BitVec.getLsbD_ushiftRight, BitVec.getLsbD_allOnes, decide_eq_true h64, Bool.true_and]

/-- 母線の外のビットは変わらない。 -/
theorem padValue_upper {c : FlashCfg} {value current : BitVec 64} {shift j : Nat} {front : Bool} (hj : 8 * c.busWidth ≤ j) :
    (padValue c value current shift front).getLsbD j = value.getLsbD j := by
  have hmask : (padMask c shift front).getLsbD j = false := by
    unfold padMask
    cases front
    · rw [if_neg Bool.false_ne_true, BitVec.getLsbD_setWidth, BitVec.getLsbD_of_ge _ _ hj, Bool.and_false]
    · rw [if_pos rfl, BitVec.getLsbD_setWidth, BitVec.getLsbD_of_ge _ _ hj, Bool.and_false]
  unfold padValue
  split
  · rfl
  · rw [BitVec.getLsbD_or, BitVec.getLsbD_and, BitVec.getLsbD_and, BitVec.getLsbD_not, hmask, Bool.false_and, Bool.or_false, Bool.not_false,
      Bool.and_true]
    by_cases h64 : j < 64
    · rw [decide_eq_true h64, Bool.and_true]
    · rw [BitVec.getLsbD_of_ge _ _ (Nat.le_of_not_lt h64), Bool.false_and]

/-- 埋めた語のビット。 -/
theorem padValue_bit {c : FlashCfg} {value current : BitVec 64} {shift j : Nat} {front : Bool} (hwidth : c.busWidth ≠ 1) (hj : j < 64) :
    (padValue c value current shift front).getLsbD j =
      if (padMask c shift front).getLsbD j then current.getLsbD j else value.getLsbD j := by
  rw [padValue, if_neg hwidth, BitVec.getLsbD_or, BitVec.getLsbD_and, BitVec.getLsbD_and, BitVec.getLsbD_not, decide_eq_true hj, Bool.true_and]
  cases (padMask c shift front).getLsbD j
  · rw [Bool.not_false, Bool.and_true, Bool.false_and, Bool.or_false, if_neg Bool.false_ne_true]
  · rw [Bool.not_true, Bool.and_false, Bool.true_and, Bool.false_or, if_pos rfl]

/-- 終わりの語を埋めると、どのビットも揃う。 -/
theorem Ready.padTail (h : s.Ready k r) (hleft : 0 < r.left) (hpad : s.pad < s.length) :
    s.Ready k (padTail s.env r) ∧ ∀ j < 8 * s.width, (Flash.padTail s.env r).value.getLsbD j = s.bit (s.base + k) j := by
  have hl := h.left
  unfold Flash.padTail
  dsimp only
  by_cases hshort : r.left < s.env.part.cfg.busWidth
  · rw [if_pos hshort]
    have hwidth : s.env.part.cfg.busWidth ≠ 1 := by omega
    have hbits : ∀ j < 8 * s.width,
        (padValue s.env.part.cfg r.value (r.bus.data s.env.part (r.memory / s.env.part.cfg.busWidth)) (8 * r.left.toNat) false).getLsbD j =
          s.bit (s.base + k) j := by
      intro j hj
      rw [padValue_bit hwidth (s.bit_lt hj), padMask_tail hj]
      by_cases hin : 8 * r.left.toNat ≤ j
      · rw [decide_eq_true hin, if_pos rfl, h.memory, s.memory_div, h.mode.data_bit (readable_mode _) _ hj, h.array _ _ hj,
          if_neg (by omega), bit_after (by omega) hpad]
      · rw [decide_eq_false hin, if_neg Bool.false_ne_true]
        exact h.value j hj (by omega)
    exact ⟨{ h with value := fun j hj _ => hbits j hj, upper := fun j hj => (padValue_upper hj).trans (h.upper j hj) }, hbits⟩
  · rw [if_neg hshort]
    have hwidth : s.width = s.env.part.cfg.busWidth := rfl
    exact ⟨h, fun j hj => h.value j hj (by omega)⟩

/-! ## 一語の書き込み -/

/-- 全てのビットが 1 の語は、書かれない。 -/
theorem Ready.skip_iff (h : s.Ready k r) (hvalue : ∀ j < 8 * s.width, r.value.getLsbD j = s.bit (s.base + k) j) :
    r.value = BitVec.allOnes 64 ↔ s.Skips k := by
  constructor
  · intro hones
    refine ⟨fun j hj => ?_, fun j hj hge => ?_⟩
    · rw [← hvalue j hj, hones, BitVec.getLsbD_allOnes]
      exact decide_eq_true (s.bit_lt hj)
    · rw [← h.upper j hge, hones, BitVec.getLsbD_allOnes]
      exact decide_eq_true hj
  · intro hskip
    refine BitVec.eq_of_getLsbD_eq fun j hj => ?_
    rw [BitVec.getLsbD_allOnes, decide_eq_true hj]
    rcases Nat.lt_or_ge j (8 * s.width) with hlt | hge
    · rw [hvalue j hlt, hskip.1 j hlt]
    · rw [h.upper j hge, hskip.2 j hj hge]

/-- 書かない語を通り過ぎる。 -/
theorem Ready.skipped (h : s.Ready k r) (hskip : s.Skips k) : s.Wrote (k + 1) { r with left := r.left - s.env.part.cfg.busWidth } where
  left := by
    have hl := h.left
    have hwidth : s.width = s.env.part.cfg.busWidth := rfl
    dsimp only
    rw [Nat.succ_mul]
    omega
  array w j hj := by
    dsimp only
    rw [h.array w j hj]
    by_cases hw : w = s.base + k
    · rw [if_neg (by omega), if_pos (by omega), hw, hskip.1 j hj, Bool.and_true]
    · by_cases hin : s.base ≤ w ∧ w < s.base + k
      · rw [if_pos hin, if_pos (by omega)]
      · rw [if_neg hin, if_neg (by omega)]
  mode := h.mode
  op := h.op.trans (Nat.le_succ k)
  memory := by
    dsimp only
    rw [h.memory, ← Nat.add_assoc, Nat.succ_mul]
  buffer := by
    dsimp only
    rw [h.buffer, Nat.succ_mul]
    omega
  upper := h.upper

/-! ### 送る語 -/

/-- チップに送った語。 -/
structure Sent (s : WriteSpec) (k n : Nat) (data : List (Nat × BitVec 64)) : Prop where
  word : ∀ d ∈ data, s.base + k ≤ d.1 ∧ d.1 < s.base + k + n ∧ ∀ j < 8 * s.width, d.2.getLsbD j = s.bit d.1 j
  full : ∀ w, s.base + k ≤ w → w < s.base + k + n → ∃ d ∈ data, d.1 = w

theorem Sent.nil (s : WriteSpec) (k : Nat) : s.Sent k 0 [] where
  word d hd := by cases hd
  full w hlo hhi := absurd hhi (Nat.not_lt.mpr hlo)

theorem Sent.snoc {n : Nat} {data : List (Nat × BitVec 64)} {value : BitVec 64} (h : s.Sent k n data)
    (hvalue : ∀ j < 8 * s.width, value.getLsbD j = s.bit (s.base + k + n) j) : s.Sent k (n + 1) (data ++ [(s.base + k + n, value)]) where
  word d hd := by
    rcases List.mem_append.mp hd with hd | hd
    · obtain ⟨hlo, hhi, hbits⟩ := h.word d hd
      exact ⟨hlo, Nat.lt_succ_of_lt hhi, hbits⟩
    · rw [List.mem_singleton.mp hd]
      exact ⟨Nat.le_add_right _ _, Nat.lt_succ_self _, hvalue⟩
  full w hlo hhi := by
    rcases Nat.lt_succ_iff_lt_or_eq.mp hhi with hlt | rfl
    · obtain ⟨d, hd, rfl⟩ := h.full w hlo hlt
      exact ⟨d, List.mem_append_left _ hd, rfl⟩
    · exact ⟨_, List.mem_append_right _ List.mem_cons_self, rfl⟩

/-- 送った語だけが変わる。 -/
theorem Sent.all_iff {n w j : Nat} {data : List (Nat × BitVec 64)} (h : s.Sent k n data) (hj : j < 8 * s.width) :
    (∀ d ∈ data, d.1 = w → d.2.getLsbD j = true) ↔ (s.base + k ≤ w ∧ w < s.base + k + n → s.bit w j = true) := by
  constructor
  · rintro hall ⟨hlo, hhi⟩
    obtain ⟨d, hd, rfl⟩ := h.full w hlo hhi
    rw [← (h.word d hd).2.2 j hj]
    exact hall d hd rfl
  · rintro hbit d hd rfl
    obtain ⟨hlo, hhi, hvalue⟩ := h.word d hd
    rw [hvalue j hj]
    exact hbit ⟨hlo, hhi⟩

/-- 送った語を書き終えた配列の、語 `w` のビット `j`。 -/
theorem Sent.settled {n w j : Nat} {data : List (Nat × BitVec 64)} {before after : Bool} (h : s.Sent k n data)
    (hbefore : before = if s.base ≤ w ∧ w < s.base + k then ((s.old w).getLsbD j && s.bit w j) else (s.old w).getLsbD j)
    (hafter : after = (before && decide (∀ d ∈ data, d.1 = w → d.2.getLsbD j = true))) (hj : j < 8 * s.width) :
    after = if s.base ≤ w ∧ w < s.base + (k + n) then ((s.old w).getLsbD j && s.bit w j) else (s.old w).getLsbD j := by
  rw [hafter, hbefore, decide_eq_decide.mpr (h.all_iff hj)]
  by_cases hnew : s.base + k ≤ w ∧ w < s.base + k + n
  · rw [if_neg (by omega), if_pos (by omega)]
    simp only [hnew, true_and, forall_const, Bool.decide_eq_true]
  · rw [decide_eq_true (fun h => absurd h hnew), Bool.and_true]
    by_cases hin : s.base ≤ w ∧ w < s.base + k
    · rw [if_pos hin, if_pos (by omega)]
    · rw [if_neg hin, if_neg (by omega)]

/-- 続く `n` 語を送り、チップが演算を始めた。 -/
structure Sending (s : WriteSpec) (k n : Nat) (data : List (Nat × BitVec 64)) (r r' : AmdRegs) : Prop where
  busy : r'.bus.All s.env.part (.busy r'.unlock data)
  sent : s.Sent k n data
  pos : 0 < n
  array : r'.bus.array = r.bus.array
  memory : r'.memory + s.width = (s.base + k + n) * s.width
  buffer : r'.buffer + s.width = ((k + n) * s.width : Nat) - (s.pad : Int)
  value : ∀ j < 8 * s.width, r'.value.getLsbD j = s.bit (s.base + k + (n - 1)) j
  upper : ∀ j, 8 * s.width ≤ j → r'.value.getLsbD j = s.stack.getLsbD j
  op : r'.op = r.op

section

variable {n : Nat} {data : List (Nat × BitVec 64)} {r' : AmdRegs}

/-- 演算が成功すると、続く `n` 語だけが変わる。 -/
theorem Sending.settled (h : s.Sending k n data r r') (hr : s.Progress k r)
    (hok : ∀ i < s.env.part.cfg.chipInter, (s.env.ops r.op i).outcome = .success) (w : Nat) {j : Nat} (hj : j < 8 * s.width) :
    ((r'.bus.settle s.env.part (s.env.ops r'.op)).array w).getLsbD j =
      if s.base ≤ w ∧ w < s.base + (k + n) then ((s.old w).getLsbD j && s.bit w j) else (s.old w).getLsbD j := by
  refine h.sent.settled (hr.array w j hj) ?_ hj
  rw [h.op, h.busy.settle_array hok w hj, h.array]

theorem Sending.wrote (h : s.Sending k n data r r') (hr : s.Progress k r)
    (hok : ∀ i < s.env.part.cfg.chipInter, (s.env.ops r.op i).outcome = .success) {left : Int}
    (hleft : left = s.length - ((k + n) * s.width : Nat)) :
    s.Wrote (k + n) { r' with bus := r'.bus.settle s.env.part (s.env.ops r'.op), op := r'.op + 1, left } where
  left := hleft
  array w j hj := h.settled hr hok w hj
  mode := by
    dsimp only
    rw [h.op]
    exact h.busy.settle hok
  op := by
    have hop := hr.op
    have hpos := h.pos
    dsimp only
    rw [h.op]
    omega
  memory := by
    rw [← Nat.add_assoc]
    exact h.memory
  buffer := h.buffer
  upper := h.upper

/-- 送った最後の語。 -/
theorem Sending.last (h : s.Sending k n data r r') : r'.memory / s.env.part.cfg.busWidth = s.base + k + (n - 1) := by
  have hsplit : (s.base + k + n) * s.width = (s.base + k + (n - 1)) * s.width + s.width := by
    rw [← Nat.succ_mul]
    congr 1
    have := h.pos
    omega
  rw [show r'.memory = (s.base + k + (n - 1)) * s.width from Nat.add_right_cancel (h.memory.trans hsplit)]
  exact Nat.mul_div_cancel _ s.width_pos

theorem Progress.op_lt (hr : s.Progress k r) (hlen : k * s.width < s.length) : r.op < s.length := by
  have hwidth := Nat.le_mul_of_pos_right k s.width_pos
  have hop := hr.op
  omega

theorem dq7_lt (s : WriteSpec) {i : Nat} (hi : i < s.env.part.cfg.chipInter) :
    8 * s.env.part.cfg.deviceWidth * i + 7 < 8 * s.width := by
  rw [width, FlashCfg.bits_eq]
  exact s.env.part.cfg.index_lt hi (by decide)

theorem poll_eq {env : AmdEnv} {addr : Nat} {dq1 ok : Bool} {bus : AmdBus}
    (h : r.bus.poll env.part (env.ops r.op) r.value addr dq1 env.fuel = some (ok, bus)) :
    r.poll env addr dq1 = some (ok, { r with bus, op := r.op + 1 }) := by
  rw [AmdRegs.poll, h]
  rfl

/-- 演算の終わりを待つ。 -/
theorem Sending.poll (hs : s.Healthy) (h : s.Sending k n data r r') (hseen : s.Sees (k + (n - 1))) (hr : s.Progress k r)
    (hlen : k * s.width < s.length) (dq1 : Bool) :
    r'.poll s.env r'.memory dq1 = some (true, { r' with bus := r'.bus.settle s.env.part (s.env.ops r'.op), op := r'.op + 1 }) := by
  have hop := hr.op_lt hlen
  refine poll_eq (h.busy.poll dq1 (fun i hi => hs.outcome r'.op i hi) (fun i hi => hs.duration r'.op (h.op ▸ hop) i hi) fun i hi => ?_)
  have hj := s.dq7_lt hi
  have hpos := h.pos
  rw [FlashCfg.bit, laneBit, h.last, h.settled hr (fun i hi => hs.outcome _ i hi) _ hj, FlashCfg.bit, laneBit, h.value _ hj,
    if_pos (by omega)]
  rw [Nat.add_assoc]
  cases hbit : s.bit (s.base + (k + (n - 1))) (8 * s.env.part.cfg.deviceWidth * i + 7) with
  | false => exact Bool.and_false _
  | true => rw [hseen i hi hbit, Bool.and_true]

/-- 返ったときの、チップごとの結果。 -/
theorem Sending.poll_some (h : s.Sending k n data r r') {addr : Nat} {dq1 ok : Bool} {r'' : AmdRegs}
    (hpoll : r'.poll s.env addr dq1 = some (ok, r'')) :
    r'' = { r' with bus := r'.bus.settle s.env.part (s.env.ops r'.op), op := r'.op + 1 } ∧
      (ok = true → ∀ i < s.env.part.cfg.chipInter, (s.env.ops r.op i).outcome = .success) ∧
      (dq1 = false → ∀ i < s.env.part.cfg.chipInter, (s.env.ops r'.op i).outcome ≠ .abort) := by
  rw [AmdRegs.poll] at hpoll
  obtain ⟨⟨ok', bus⟩, hbus, heq⟩ := Option.map_eq_some_iff.mp hpoll
  obtain ⟨rfl, rfl⟩ := Prod.mk.inj heq
  obtain ⟨rfl, hok, habort⟩ := h.busy.poll_some hbus
  exact ⟨rfl, fun h' => h.op ▸ hok h', habort⟩

end

/-! ### 一語を送る -/

/-- 書いた後の `unlock`。 -/
def unlockAfter (env : AmdEnv) (r : AmdRegs) : Bool := r.unlock || decide (2 * (env.part.cfg.busWidth : Int) < r.left)

/-- 命令を選んだ後は、次に書く語がデータである。 -/
theorem programSend_eq {env : AmdEnv} {r : AmdRegs} (hc : env.part.cfg.AtCommand command)
    (hmode : r.bus.All env.part (if r.unlock then .bypass else .read)) :
    ∃ bus : AmdBus, programSend env command r = { r with bus := bus.write env.part r.memory r.value, unlock := unlockAfter env r } ∧
      bus.All env.part (if unlockAfter env r then .bypassProgram else .program) ∧ bus.array = r.bus.array := by
  unfold programSend chooseProgram unlockAfter
  dsimp only
  cases hunlock : r.unlock with
  | true =>
      rw [hunlock, if_pos rfl] at hmode
      refine ⟨_, ?_, hmode.bypassProgram command, rfl⟩
      rw [if_pos rfl, if_pos hunlock, hunlock, Bool.true_or]
  | false =>
      rw [hunlock, if_neg Bool.false_ne_true] at hmode
      rw [if_neg Bool.false_ne_true, Bool.false_or]
      by_cases hshort : r.left ≤ 2 * env.part.cfg.busWidth
      · rw [if_pos hshort, if_neg Bool.false_ne_true, decide_eq_false (Int.not_lt.mpr hshort)]
        exact ⟨_, rfl, hmode.program hc, rfl⟩
      · rw [if_neg hshort, if_pos rfl, decide_eq_true (Int.not_le.mp hshort)]
        exact ⟨_, rfl, (hmode.enterBypass hc).bypassProgram command, rfl⟩

theorem Ready.send {bus : AmdBus} {unlock : Bool} (h : s.Ready k r)
    (hmode : bus.All s.env.part (if unlock then .bypassProgram else .program)) (harray : bus.array = r.bus.array)
    (hvalue : ∀ j < 8 * s.width, r.value.getLsbD j = s.bit (s.base + k) j) :
    s.Sending k 1 [(s.base + k, r.value)] r { r with bus := bus.write s.env.part r.memory r.value, unlock } where
  busy := by
    have hbusy := hmode.writeWord r.memory r.value
    rw [h.memory, s.memory_div] at hbusy
    dsimp only
    rw [h.memory]
    exact hbusy
  sent := (Sent.nil s k).snoc hvalue
  pos := Nat.one_pos
  array := harray
  memory := by
    dsimp only
    rw [h.memory, Nat.succ_mul]
  buffer := by
    dsimp only
    rw [h.buffer, Nat.succ_mul]
    omega
  value := hvalue
  upper := h.upper
  op := rfl

/-- 一語の書き込みが返ったとき。失敗すると、アンロックバイパスからは抜けない。 -/
theorem Ready.programWord_some (hc : s.env.part.cfg.AtCommand command) (h : s.Ready k r)
    (hvalue : ∀ j < 8 * s.width, r.value.getLsbD j = s.bit (s.base + k) j) {ok : Bool} {r' : AmdRegs}
    (hrun : programWord s.env command r = some (ok, r')) :
    (ok = true → s.Wrote (k + 1) { r' with left := r'.left - s.env.part.cfg.busWidth } ∧
      r'.unlock = if r.value = BitVec.allOnes 64 then r.unlock else unlockAfter s.env r) ∧
    (ok = false → ¬s.Skips k ∧ r'.bus.All s.env.part (if unlockAfter s.env r then .bypass else .read)) := by
  rw [Flash.programWord] at hrun
  by_cases hskip : r.value = BitVec.allOnes 64
  · rw [if_pos hskip] at hrun ⊢
    obtain ⟨rfl, rfl⟩ := Prod.mk.inj (Option.some.inj hrun)
    exact ⟨fun _ => ⟨h.skipped ((h.skip_iff hvalue).mp hskip), rfl⟩, fun hfail => by cases hfail⟩
  · rw [if_neg hskip] at hrun ⊢
    obtain ⟨bus, heq, hmode, harray⟩ := programSend_eq hc h.mode
    have hsend := h.send hmode harray hvalue
    rw [heq] at hrun
    dsimp only at hrun
    cases hpoll : AmdRegs.poll s.env { r with bus := bus.write s.env.part r.memory r.value, unlock := unlockAfter s.env r } r.memory false with
    | none =>
        rw [hpoll] at hrun
        cases hrun
    | some x =>
        obtain ⟨ok', r''⟩ := x
        obtain ⟨rfl, hok, habort⟩ := hsend.poll_some hpoll
        rw [hpoll] at hrun
        cases ok' with
        | true =>
            obtain ⟨rfl, rfl⟩ := Prod.mk.inj (Option.some.inj hrun)
            refine ⟨fun _ => ⟨hsend.wrote h.toProgress (hok rfl) ?_, rfl⟩, fun hfail => by cases hfail⟩
            have hl := h.left
            have hwidth : s.width = s.env.part.cfg.busWidth := rfl
            dsimp only
            rw [Nat.succ_mul]
            omega
        | false =>
            obtain ⟨rfl, rfl⟩ := Prod.mk.inj (Option.some.inj hrun)
            exact ⟨fun hok => Bool.noConfusion hok, fun _ => ⟨fun hs => hskip ((h.skip_iff hvalue).mpr hs), hsend.busy.reset (habort rfl) r.memory⟩⟩

theorem Ready.programWord (hs : s.Healthy) (hc : s.env.part.cfg.AtCommand command) (h : s.Ready k r)
    (hseen : ¬s.Skips k → s.Sees k) (hleft : 0 < r.left) (hvalue : ∀ j < 8 * s.width, r.value.getLsbD j = s.bit (s.base + k) j) :
    ∃ r', programWord s.env command r = some (true, r') ∧ s.Wrote (k + 1) { r' with left := r'.left - s.env.part.cfg.busWidth } := by
  have hdone : ∃ r', Flash.programWord s.env command r = some (true, r') := by
    rw [Flash.programWord]
    by_cases hskip : r.value = BitVec.allOnes 64
    · exact ⟨r, if_pos hskip⟩
    · obtain ⟨bus, heq, hmode, harray⟩ := programSend_eq hc h.mode
      have hl := h.left
      rw [if_neg hskip, heq]
      dsimp only
      rw [(h.send hmode harray hvalue).poll hs (hseen fun hs => hskip ((h.skip_iff hvalue).mpr hs)) h.toProgress (by omega) false]
      exact ⟨_, rfl⟩
  obtain ⟨r', hrun⟩ := hdone
  exact ⟨r', hrun, ((h.programWord_some hc hvalue hrun).1 rfl).1⟩

/-- 残りのバイトのループは、範囲の終わりまで書く。 -/
theorem Ready.wordLoop {program : AmdRegs → Option (Bool × AmdRegs)} {I : Bool → Prop} (hpad : s.pad < s.length)
    (hprogram : ∀ k' r, k ≤ k' → s.Ready k' r → 0 < r.left → (∀ j < 8 * s.width, r.value.getLsbD j = s.bit (s.base + k') j) → I r.unlock →
      ∃ r', program r = some (true, r') ∧ s.Wrote (k' + 1) { r' with left := r'.left - s.env.part.cfg.busWidth } ∧ I r'.unlock)
    {fuel : Nat} (h : s.Ready k r) (hunlock : I r.unlock) (hleft : 0 < r.left) (hfuel : r.left.toNat < fuel) :
    ∃ r' k', wordLoop s.env program fuel r = some (true, r') ∧ s.Wrote k' r' ∧ r'.left ≤ 0 := by
  induction fuel generalizing k r with
  | zero => exact absurd hfuel (Nat.not_lt_zero _)
  | succ fuel ih =>
      have hwidth := s.width_pos
      obtain ⟨hready, hvalue⟩ := h.padTail hleft hpad
      have hsame : (Flash.padTail s.env r).left = r.left := hready.left.trans h.left.symm
      have hkeep : (Flash.padTail s.env r).unlock = r.unlock := by
        unfold Flash.padTail
        dsimp only
        split <;> rfl
      obtain ⟨r', hword, hwrote, hunlock'⟩ := hprogram k _ (Nat.le_refl k) hready (hsame.symm ▸ hleft) hvalue (hkeep.symm ▸ hunlock)
      have hl : r'.left - s.env.part.cfg.busWidth = s.length - ((k + 1) * s.width : Nat) := hwrote.left
      have hl₀ := h.left
      rw [Nat.succ_mul] at hl
      rw [Flash.wordLoop, if_pos hleft, hword]
      dsimp only
      by_cases hmore : r'.left - s.env.part.cfg.busWidth > 0
      · rw [if_pos hmore]
        exact ih (fun k' r hle => hprogram k' r (Nat.le_of_succ_le hle)) (hwrote.advance (Nat.succ_pos k) (Int.le_refl _) (Int.min_le_left _ _))
          hunlock' hmore (by dsimp only [AmdRegs.advance]; omega)
      · rw [if_neg hmore]
        obtain ⟨fuel, rfl⟩ := Nat.exists_eq_succ_of_ne_zero (show fuel ≠ 0 by omega)
        rw [Flash.wordLoop, if_neg hmore]
        exact ⟨_, k + 1, rfl, hwrote, Int.not_lt.mp hmore⟩

/-! ## 書き込みバッファ -/

/-- 書き込みバッファに語を送り終えた。 -/
structure Filled (s : WriteSpec) (k n sector : Nat) (r r' : AmdRegs) : Prop where
  mode : ∃ data, r'.bus.All s.env.part (.confirm sector data) ∧ s.Sent k n data
  array : r'.bus.array = r.bus.array
  memory : r'.memory + s.width = (s.base + k + n) * s.width
  buffer : r'.buffer + s.width = ((k + n) * s.width : Nat) - (s.pad : Int)
  value : ∀ j < 8 * s.width, r'.value.getLsbD j = s.bit (r'.memory / s.width) j
  left : r'.left = r.left
  offset : r'.offset = r.offset
  op : r'.op = r.op
  unlock : r'.unlock = r.unlock
  upper : ∀ j, 8 * s.width ≤ j → r'.value.getLsbD j = s.stack.getLsbD j

/-- 一つのバッファに入る語の番地。 -/
def OnePage (s : WriteSpec) (k n page sector : Nat) : Prop :=
  ∀ t < n, s.env.part.page ((s.base + k + t) * s.width) = page ∧ s.env.part.sector ((s.base + k + t) * s.width) = sector

/-- 一語を送る。 -/
theorem loadWord_next {n count page sector : Nat} {data : List (Nat × BitVec 64)} {word : BitVec 64} (hdata : s.Sent k n data)
    (hpage : s.OnePage k (n + (count + 1)) page sector) :
    s.env.part.loadWord sector (count + 1) data ((s.base + k + n) * s.width) word =
      if count = 0 then .confirm sector (data ++ [(s.base + k + n, word)]) else .load sector count (data ++ [(s.base + k + n, word)]) := by
  have hhere := hpage n (by omega)
  have hsame : ∀ d ∈ data, s.env.part.page (d.1 * s.env.part.cfg.busWidth) = s.env.part.page ((s.base + k + n) * s.width) := by
    intro d hd
    obtain ⟨hlo, hhi, -⟩ := hdata.word d hd
    obtain ⟨t, ht⟩ := Nat.exists_eq_add_of_le hlo
    rw [hhere.1, ht]
    exact (hpage t (by omega)).1
  have hword : (s.base + k + n) * s.width / s.env.part.cfg.busWidth = s.base + k + n := Nat.mul_div_cancel _ s.width_pos
  rw [AmdPart.loadWord, if_pos ⟨hhere.2, hsame⟩, hword]
  simp only [Nat.add_eq_right, Nat.add_sub_cancel]

theorem bufferWords_filled {n count page sector : Nat} {data : List (Nat × BitVec 64)} (hcount : 0 < count)
    (hmode : r.bus.All s.env.part (.load sector count data)) (hdata : s.Sent k n data)
    (hmemory : r.memory = (s.base + k + n) * s.width) (hbuffer : r.buffer = ((k + n) * s.width : Nat) - (s.pad : Int))
    (hvalue : ∀ j < 8 * s.width, r.value.getLsbD j = s.bit (s.base + k + n) j)
    (hupper : ∀ j, 8 * s.width ≤ j → r.value.getLsbD j = s.stack.getLsbD j) (hpage : s.OnePage k (n + count) page sector)
    (hlen : (k + n + count) * s.width ≤ s.length) : s.Filled k (n + count) sector r (bufferWords s.env count r) := by
  induction count generalizing r n data with
  | zero => exact absurd hcount (Nat.lt_irrefl 0)
  | succ count ih =>
      have hstep : (r.bus.write s.env.part r.memory r.value).All s.env.part
          (if count = 0 then .confirm sector (data ++ [(s.base + k + n, r.value)]) else .load sector count (data ++ [(s.base + k + n, r.value)])) := by
        intro i hi
        rw [← loadWord_next hdata hpage, ← hmemory]
        show (r.bus.mode i).write s.env.part i r.memory r.value = _
        rw [hmode i hi]
        rfl
      have hsent := hdata.snoc hvalue
      have hwidth : s.width = s.env.part.cfg.busWidth := rfl
      rw [bufferWords]
      rcases Nat.eq_zero_or_pos count with rfl | hpos
      · rw [if_neg (Nat.lt_irrefl 0), bufferWords]
        refine ⟨⟨_, hstep, hsent⟩, rfl, ?_, ?_, ?_, rfl, rfl, rfl, rfl, hupper⟩
        · dsimp only
          rw [hmemory, ← Nat.add_assoc, Nat.succ_mul]
        · dsimp only
          rw [hbuffer, ← Nat.add_assoc, Nat.succ_mul]
          omega
        · intro j hj
          dsimp only
          rw [hmemory, Nat.mul_div_cancel _ s.width_pos]
          exact hvalue j hj
      · rw [if_neg (Nat.pos_iff_ne_zero.mp hpos)] at hstep
        rw [if_pos hpos]
        have hadd : n + 1 + count = n + (count + 1) := Nat.add_right_comm n 1 count
        have hbuf : r.buffer + (s.width : Int) = ((k + (n + 1)) * s.width : Nat) - (s.pad : Int) := by
          rw [hbuffer, ← Nat.add_assoc, Nat.succ_mul]
          omega
        have hfits : (k + (n + 1)) * s.width + s.width ≤ s.length := by
          refine Nat.le_trans ?_ hlen
          rw [← Nat.succ_mul]
          exact Nat.mul_le_mul_right _ (by omega)
        have hmem : r.memory + s.width = (s.base + k + (n + 1)) * s.width := by
          rw [hmemory, ← Nat.add_assoc, Nat.succ_mul]
        have hval : ∀ j < 8 * s.width,
            (AmdRegs.advance s.env { r with bus := r.bus.write s.env.part r.memory r.value } s.env.part.cfg.busWidth).value.getLsbD j =
              s.bit (s.base + k + (n + 1)) j := by
          intro j hj
          rw [Nat.add_assoc s.base]
          exact advance_value (Nat.succ_pos (k + n)) hbuf hj (by omega) (show (k + (n + 1)) * s.width + j / 8 < s.length by omega)
        have hrest : (k + (n + 1) + count) * s.width ≤ s.length := by
          rw [Nat.add_assoc, hadd, ← Nat.add_assoc]
          exact hlen
        have hnext := ih (r := AmdRegs.advance s.env { r with bus := r.bus.write s.env.part r.memory r.value } s.env.part.cfg.busWidth)
          hpos hstep hsent hmem hbuf hval (fun j hj => (advance_upper (Int.le_refl _) hj).trans (hupper j hj)) (by rw [hadd]; exact hpage) hrest
        rw [hadd] at hnext
        exact ⟨hnext.mode, hnext.array, hnext.memory, hnext.buffer, hnext.value, hnext.left, hnext.offset, hnext.op,
          hnext.unlock, hnext.upper⟩

/-! ## 一度に送る量 -/

theorem width_two_pow (s : WriteSpec) : ∃ e, s.width = 2 ^ e := by
  obtain ⟨e, -, he⟩ := (by decide : ∀ p ∈ busShapes, ∃ e < 4, p.1 * p.2 = 2 ^ e) _ s.env.part.cfg.valid
  exact ⟨e, he⟩

/-- 一度に送る語の数。 -/
theorem chunkSize_eq (hbig : s.width ≤ s.env.part.bufferSize) (k : Nat) {left : Int} (hleft : (s.width : Int) ≤ left) :
    ∃ m, 0 < m ∧ chunkSize s.env.part left ((s.base + k) * s.width) = m * s.width ∧ ((m * s.width : Nat) : Int) ≤ left ∧
      m * s.width ≤ s.env.part.bufferSize ∧
      s.OnePage k m (s.env.part.page ((s.base + k) * s.width)) (s.env.part.sector ((s.base + k) * s.width)) ∧
      ((s.base + k + m) * s.width % s.env.part.bufferSize = 0 ∨ left < ((m + 1) * s.width : Nat)) := by
  obtain ⟨e, he⟩ := s.width_two_pow
  have hpos := s.width_pos
  have hdvd : s.width ∣ s.env.part.bufferSize := by
    rw [AmdPart.bufferSize, he] at hbig ⊢
    exact Nat.pow_dvd_pow 2 ((Nat.pow_le_pow_iff_right (by decide)).mp hbig)
  obtain ⟨size, hsize⟩ := hdvd
  have hsizepos : 0 < size := by
    rcases Nat.eq_zero_or_pos size with rfl | h
    · omega
    · exact h
  have hmod : (s.base + k) * s.width &&& (s.env.part.bufferSize - 1) = s.width * ((s.base + k) % size) := by
    rw [AmdPart.bufferSize, Nat.and_two_pow_sub_one_eq_mod, ← AmdPart.bufferSize, hsize, Nat.mul_comm _ s.width, Nat.mul_mod_mul_left]
  have hq : 0 < left.toNat / s.width := Nat.div_pos (by omega) hpos
  have hrest : 0 < size - (s.base + k) % size := Nat.sub_pos_of_lt (Nat.mod_lt _ hsizepos)
  -- どの量も母線の幅の倍数である。
  refine ⟨min (min size (left.toNat / s.width)) (size - (s.base + k) % size), by omega, ?_, ?_, ?_, ?_, ?_⟩
  · rw [chunkSize, hmod, hsize, show left.toNat / s.env.part.cfg.busWidth * s.env.part.cfg.busWidth = s.width * (left.toNat / s.width) from
      Nat.mul_comm _ _, ← Nat.mul_sub, Nat.mul_min_mul_left, Nat.mul_min_mul_left, Nat.mul_comm]
  · have hle : min (min size (left.toNat / s.width)) (size - (s.base + k) % size) * s.width ≤ left.toNat / s.width * s.width :=
      Nat.mul_le_mul_right _ (by omega)
    have hdiv := Nat.div_mul_le_self left.toNat s.width
    omega
  · rw [hsize, Nat.mul_comm s.width]
    exact Nat.mul_le_mul_right _ (by omega)
  · intro t ht
    have hpage : s.env.part.page ((s.base + k + t) * s.width) = s.env.part.page ((s.base + k) * s.width) := by
      rw [AmdPart.page, AmdPart.page, hsize, Nat.mul_comm _ s.width, Nat.mul_comm _ s.width, Nat.mul_div_mul_left _ _ hpos,
        Nat.mul_div_mul_left _ _ hpos]
      have hlt : (s.base + k) % size + t < size := by omega
      rw [← Nat.div_add_mod (s.base + k) size, Nat.add_assoc, Nat.mul_add_div hsizepos, Nat.mul_add_div hsizepos, Nat.div_eq_of_lt hlt,
        Nat.div_eq_of_lt (Nat.mod_lt _ hsizepos)]
    refine ⟨hpage, ?_⟩
    rw [AmdPart.sector, AmdPart.sector, ← Nat.div_div_eq_div_mul, ← Nat.div_div_eq_div_mul]
    exact congrArg (· / s.env.part.sectorPages) hpage
  · have hlast := Nat.lt_div_mul_add (a := left.toNat) hpos
    by_cases hshort : left.toNat / s.width < size - (s.base + k) % size
    · refine .inr ?_
      rw [min_eq_left (by omega), min_eq_right (by omega), Nat.succ_mul]
      omega
    · refine .inl ?_
      rw [min_eq_right (by omega), hsize, Nat.mul_comm s.width, Nat.mul_mod_mul_right]
      have hend : (s.base + k + (size - (s.base + k) % size)) % size = 0 := by
        have hsplit := Nat.div_add_mod (s.base + k) size
        rw [show s.base + k + (size - (s.base + k) % size) = size * ((s.base + k) / size + 1) by rw [Nat.mul_succ]; omega]
        exact Nat.mul_mod_right _ _
      rw [hend, Nat.zero_mul]

/-- 語の数を送る命令の後。 -/
theorem load_mode {n : Nat} (hc : s.env.part.cfg.AtCommand command) (hmode : r.bus.All s.env.part .read) (hn : 0 < n)
    (hfit : n * s.width ≤ s.env.part.bufferSize) (addr : Nat) :
    (((r.bus.unlock s.env.part command).send s.env.part addr 0x25).send s.env.part addr (n - 1)).All s.env.part
      (.load (s.env.part.sector addr) n []) := by
  have hcount : ((r.bus.unlock s.env.part command).send s.env.part addr 0x25).All s.env.part (.count (s.env.part.sector addr)) := by
    refine (hmode.unlock hc).send fun i hi => ?_
    have hlane : s.env.part.cfg.lane (s.env.part.cfg.command 0x25) i % 256 = 0x25 := FlashCfg.lane_byte (by decide) hi
    exact (if_neg fun h => absurd (hlane.symm.trans h.1) (by decide)).trans
      ((if_neg fun h => absurd (hlane.symm.trans h.1) (by decide)).trans (if_pos hlane))
  refine hcount.send fun i hi => ?_
  have hlt : n - 1 < 2 ^ (8 * s.env.part.cfg.deviceWidth) := by
    have hle := hfit.trans s.env.part.fits
    rw [Nat.mul_comm] at hle
    have := Nat.le_of_mul_le_mul_left hle s.width_pos
    omega
  have hlane : s.env.part.cfg.lane (s.env.part.cfg.command (n - 1)) i + 1 = n := by
    rw [FlashCfg.lane_command hlt hi, Nat.sub_add_cancel hn]
  refine (if_pos ⟨rfl, ?_⟩).trans (by rw [hlane])
  rw [hlane]
  exact hfit

/-- 書き込みバッファで書く前の状態。 -/
structure Buffering (s : WriteSpec) (k : Nat) (r : AmdRegs) : Prop extends s.Ready k r where
  unlock : r.unlock = false
  offset : r.offset = (s.base + k) * s.width

/-- 書き込みバッファで書いた後の状態。 -/
structure Buffered (s : WriteSpec) (k : Nat) (r : AmdRegs) : Prop extends s.Wrote k r where
  unlock : r.unlock = false
  pos : 0 < k

/-- 一つのバッファに語を送る。 -/
theorem Buffering.send (hc : s.env.part.cfg.AtCommand command) (h : s.Buffering k r) (hbig : s.width < s.env.part.bufferSize)
    (hleft : (s.width : Int) ≤ r.left) :
    ∃ n data, s.Sending k n data r (bufferSend s.env command r) ∧ ((n * s.width : Nat) : Int) ≤ r.left ∧
      (bufferSend s.env command r).left = s.length - ((k + n) * s.width : Nat) ∧
      (bufferSend s.env command r).offset = (s.base + (k + n)) * s.width ∧ (bufferSend s.env command r).unlock = false ∧
      ((s.base + k + n) * s.width % s.env.part.bufferSize = 0 ∨ r.left < ((n + 1) * s.width : Nat)) := by
  obtain ⟨n, hn, hsize, hnleft, hfit, hpage, hlast⟩ := chunkSize_eq hbig.le k hleft
  have hmode : r.bus.All s.env.part .read := by
    have := h.mode
    rw [h.unlock] at this
    exact this
  have hl := h.left
  have hsum : (k + n) * s.width = k * s.width + n * s.width := Nat.add_mul _ _ _
  have hcount : n * s.width / s.env.part.cfg.deviceWidth / s.env.part.cfg.chipInter = n := by
    rw [Nat.div_div_eq_div_mul]
    exact Nat.mul_div_cancel n s.width_pos
  have hload := load_mode hc hmode hn hfit r.memory
  have hpagek : s.OnePage k (0 + n) (s.env.part.page r.memory) (s.env.part.sector r.memory) := by
    rw [Nat.zero_add, h.memory]
    exact hpage
  unfold bufferSend
  dsimp only
  rw [h.offset, hsize, hcount]
  have hfill := bufferWords_filled (k := k)
    (r := { r with
      bus := ((r.bus.unlock s.env.part command).send s.env.part r.memory 0x25).send s.env.part r.memory (n - 1)
      left := r.left - (n * s.width : Nat), offset := (s.base + k) * s.width + n * s.width })
    hn hload (.nil s k) h.memory h.buffer (fun j hj => h.value j hj (by omega)) h.upper hpagek (by rw [Nat.add_zero, hsum]; omega)
  rw [Nat.zero_add] at hfill
  generalize bufferWords s.env n _ = r₁ at hfill ⊢
  obtain ⟨⟨data, hconfirm, hsent⟩, harray, hmemory, hbuffer, hvalue, hleft₁, hoffset, hop, hunlock, hupper⟩ := hfill
  have hmemlast : r₁.memory = (s.base + k + (n - 1)) * s.width := by
    have hsplit : (s.base + k + n) * s.width = (s.base + k + (n - 1)) * s.width + s.width := by
      rw [← Nat.succ_mul]
      congr 1
      omega
    omega
  have hword : r₁.memory / s.width = s.base + k + (n - 1) := by rw [hmemlast, Nat.mul_div_cancel _ s.width_pos]
  have hbusy : (r₁.bus.send s.env.part r₁.memory 0x29).All s.env.part (.busy false data) :=
    hconfirm.send fun i hi => if_pos ⟨FlashCfg.lane_byte (by decide) hi, by rw [hmemlast]; exact (hpagek (n - 1) (by omega)).2⟩
  have hunlock₁ : r₁.unlock = false := hunlock.trans h.unlock
  refine ⟨n, data, ⟨?_, hsent, hn, harray, hmemory, hbuffer, fun j hj => ?_, hupper, hop⟩, hnleft, ?_, ?_, hunlock₁, hlast⟩
  · dsimp only
    rw [hunlock₁]
    exact hbusy
  · dsimp only
    rw [hvalue j hj, hword]
  · dsimp only at hleft₁ ⊢
    omega
  · dsimp only at hoffset ⊢
    rw [hoffset, ← Nat.add_mul, Nat.add_assoc]

/-- 送った語を書き終えた。 -/
theorem Buffering.sent {n : Nat} {data : List (Nat × BitVec 64)} {r' : AmdRegs} (h : s.Buffering k r) (hsend : s.Sending k n data r r')
    (hok : ∀ i < s.env.part.cfg.chipInter, (s.env.ops r.op i).outcome = .success)
    (hleft : r'.left = s.length - ((k + n) * s.width : Nat)) (hunlock : r'.unlock = false) :
    s.Buffered (k + n) { r' with bus := r'.bus.settle s.env.part (s.env.ops r'.op), op := r'.op + 1 } where
  toWrote := hsend.wrote h.toProgress hok hleft
  unlock := hunlock
  pos := Nat.add_pos_right k hsend.pos

/-- 一度のバッファの書き込みが返ったとき。失敗しても、配列を読める状態に戻る。 -/
theorem Buffering.chunk_some (hc : s.env.part.cfg.AtCommand command) (h : s.Buffering k r) (hbig : s.width < s.env.part.bufferSize)
    (hleft : (s.width : Int) ≤ r.left) {ok : Bool} {r₂ : AmdRegs} (hrun : bufferChunk s.env command r = some (ok, r₂)) :
    (ok = true → ∃ r' k', r₂ = (if r'.left ≥ (s.env.part.cfg.busWidth : Int) then r'.advance s.env s.env.part.cfg.busWidth else r') ∧
      s.Buffered k' r' ∧ r'.offset = (s.base + k') * s.width ∧ 0 ≤ r'.left ∧ r'.left < r.left) ∧
    (ok = false → r₂.bus.All s.env.part .read) := by
  obtain ⟨n, data, hsend, hnleft, hsent, hoffset, hunlock, -⟩ := h.send hc hbig hleft
  rw [bufferChunk] at hrun
  cases hpoll : (bufferSend s.env command r).poll s.env (bufferSend s.env command r).memory true with
  | none =>
      rw [hpoll] at hrun
      cases hrun
  | some x =>
      obtain ⟨ok', r''⟩ := x
      obtain ⟨rfl, hok, -⟩ := hsend.poll_some hpoll
      rw [hpoll] at hrun
      cases ok' with
      | true =>
          obtain ⟨rfl, rfl⟩ := Prod.mk.inj (Option.some.inj hrun)
          refine ⟨fun _ => ⟨_, k + n, rfl, h.sent hsend (hok rfl) hsent hunlock, hoffset, ?_, ?_⟩, fun hfail => by cases hfail⟩
          all_goals
            have hl := h.left
            have hmul := Nat.mul_pos hsend.pos s.width_pos
            have hsum : (k + n) * s.width = k * s.width + n * s.width := Nat.add_mul _ _ _
            dsimp only
            omega
      | false =>
          obtain ⟨rfl, rfl⟩ := Prod.mk.inj (Option.some.inj hrun)
          have hbusy := hsend.busy
          rw [hunlock] at hbusy
          exact ⟨fun hok => Bool.noConfusion hok, fun _ => hbusy.abortReset hc⟩

/-- 一度のバッファの書き込み。 -/
theorem Buffering.chunk (hs : s.Healthy) (hrep : s.Reports) (huse : UsesBuffer s.env.part s.length)
    (hc : s.env.part.cfg.AtCommand command) (h : s.Buffering k r) (hbig : s.width < s.env.part.bufferSize) (hleft : (s.width : Int) ≤ r.left) :
    ∃ r' k', bufferChunk s.env command r = some (true, if r'.left ≥ (s.env.part.cfg.busWidth : Int) then r'.advance s.env s.env.part.cfg.busWidth else r') ∧
      s.Buffered k' r' ∧ r'.offset = (s.base + k') * s.width ∧ 0 ≤ r'.left ∧ r'.left < r.left := by
  have hdone : ∃ r₂, bufferChunk s.env command r = some (true, r₂) := by
    obtain ⟨n, data, hsend, hnleft, -, -, -, hlast⟩ := h.send hc hbig hleft
    have hl := h.left
    have hwidth := s.width_pos
    have hpos := hsend.pos
    have hsum : (k + (n - 1) + 1) * s.width = k * s.width + n * s.width := by
      rw [← Nat.add_mul]
      congr 1
      omega
    have hpolls : s.Polls (k + (n - 1)) := by
      rw [Polls, if_pos ⟨huse, by omega⟩, show s.base + (k + (n - 1)) + 1 = s.base + k + n by omega]
      refine hlast.imp id fun hshort => ?_
      rw [show k + (n - 1) + 2 = k + (n + 1) by omega, Nat.add_mul]
      omega
    have hseen : s.Sees (k + (n - 1)) := hrep _ (by rw [Nat.succ_mul] at hsum; omega) hpolls
    rw [bufferChunk, hsend.poll hs hseen h.toProgress (by omega) true]
    exact ⟨_, rfl⟩
  obtain ⟨r₂, hrun⟩ := hdone
  obtain ⟨r', k', rfl, hbuffered⟩ := (h.chunk_some hc hbig hleft hrun).1 rfl
  exact ⟨r', k', hrun, hbuffered⟩

/-- 書き込みバッファのループ。 -/
theorem Buffering.loop (hs : s.Healthy) (hrep : s.Reports) (huse : UsesBuffer s.env.part s.length)
    (hc : s.env.part.cfg.AtCommand command) (hbig : s.width < s.env.part.bufferSize) (fuel : Nat) (h : s.Buffering k r)
    (hleft : (s.width : Int) ≤ r.left) (hfuel : r.left.toNat < fuel) :
    ∃ r' k', bufferLoop s.env command fuel r = some (true, r') ∧
      (s.Ready k' r' ∧ 0 < r'.left ∧ r'.left < s.width ∨ s.Wrote k' r' ∧ r'.left ≤ 0) := by
  have hwidth := s.width_pos
  have hbus : s.width = s.env.part.cfg.busWidth := rfl
  induction fuel generalizing k r with
  | zero => exact absurd hfuel (Nat.not_lt_zero _)
  | succ fuel ih =>
      obtain ⟨r₁, k₁, hchunk, hbuffered, hoffset, hnonneg, hlt⟩ := h.chunk hs hrep huse hc hbig hleft
      rw [bufferLoop, if_pos (show r.left ≥ (s.env.part.cfg.busWidth : Int) from hleft), hchunk]
      dsimp only
      by_cases hmore : r₁.left ≥ (s.env.part.cfg.busWidth : Int)
      · rw [if_pos hmore]
        have hready : s.Buffering k₁ (r₁.advance s.env s.env.part.cfg.busWidth) :=
          { hbuffered.toWrote.advance hbuffered.pos (by omega) (Int.le_refl _) with unlock := hbuffered.unlock, offset := hoffset }
        exact ih hready hmore (by dsimp only [AmdRegs.advance]; omega)
      · rw [if_neg hmore]
        obtain ⟨fuel, rfl⟩ := Nat.exists_eq_succ_of_ne_zero (show fuel ≠ 0 by omega)
        rw [bufferLoop, if_neg hmore]
        by_cases hzero : r₁.left = 0
        · rw [if_neg (not_not.mpr hzero)]
          exact ⟨r₁, k₁, rfl, .inr ⟨hbuffered.toWrote, hzero.le⟩⟩
        · rw [if_pos hzero]
          refine ⟨_, k₁, rfl, .inl ⟨hbuffered.toWrote.advance hbuffered.pos (by omega) (by omega), ?_, Int.not_le.mp hmore⟩⟩
          exact lt_of_le_of_ne hnonneg (Ne.symm hzero)

/-! ## 始めと終わり -/

theorem land_width (s : WriteSpec) : s.offset &&& (s.env.part.cfg.busWidth - 1) = s.pad := by
  obtain ⟨e, he⟩ := s.width_two_pow
  rw [pad, he, show s.env.part.cfg.busWidth = 2 ^ e from he, Nat.and_two_pow_sub_one_eq_mod]

theorem start_memory (s : WriteSpec) : s.offset - s.pad = s.base * s.width := by
  have := s.base_mul
  omega

/-- 頭を埋めた後。 -/
theorem start_buffering {bus : AmdBus} (hold : bus.array = s.old) (hmode : bus.All s.env.part .read) :
    s.Buffering 0 (writeStart s.env bus s.offset s.length s.stack) := by
  have hpad := s.pad_lt_width
  have hwidth : s.width = s.env.part.cfg.busWidth := rfl
  have hcopy : ∀ j < 8 * s.width, s.pad ≤ j / 8 → j / 8 < s.length →
      (copyIn s.stack (min (s.env.part.cfg.busWidth : Int) s.length).toNat fun j => s.env.buf (-s.pad + j)).getLsbD j = s.bit s.base j := by
    intro j hj hlo hhi
    rw [copyIn_bit (s.bit_lt hj) (by omega), ← Nat.add_zero s.base, bit_inside (by omega) (by omega)]
    congr 2
    omega
  unfold writeStart
  dsimp only
  rw [s.land_width, s.start_memory]
  refine ⟨⟨⟨?_, ?_, hmode, Nat.le_refl 0⟩, ?_, ?_, ?_, ?_⟩, rfl, by rw [Nat.add_zero]⟩
  · dsimp only
    omega
  · intro w j hj
    have hnone : ¬ (s.base ≤ w ∧ w < s.base + 0) := by omega
    rw [if_neg hnone]
    exact congrArg (fun a => (a w).getLsbD j) hold
  · rw [Nat.add_zero]
  · dsimp only
    omega
  · intro j hj hlen
    rw [Nat.zero_mul, Nat.zero_add] at hlen
    dsimp only
    rw [Nat.add_zero]
    by_cases hzero : s.pad = 0
    · rw [if_neg (not_not.mpr hzero)]
      exact hcopy j hj (by omega) hlen
    · rw [if_pos hzero, padValue_bit (by omega) (s.bit_lt hj), padMask_front hj]
      by_cases hin : j / 8 < s.pad
      · have hdata := hmode.data_bit (.inl rfl) s.base hj
        rw [decide_eq_true (by omega), if_pos rfl, show s.base * s.width / s.env.part.cfg.busWidth = s.base from Nat.mul_div_cancel _ s.width_pos,
          hdata, hold, bit_before hin]
      · rw [decide_eq_false (by omega), if_neg Bool.false_ne_true]
        exact hcopy j hj (by omega) hlen
  · intro j hj
    dsimp only
    split
    · exact (padValue_upper hj).trans (copyIn_upper (by omega))
    · exact copyIn_upper (by omega)

/-- 範囲の `q` 番目のバイトに書くビット。 -/
theorem bit_byte {q b : Nat} (hq : q < s.size) (hb : b < 8) :
    s.bit ((s.offset + q) / s.width) (8 * ((s.offset + q) % s.width) + b) = (s.env.buf q).getLsbD b := by
  have hdiv : (8 * ((s.offset + q) % s.width) + b) / 8 = (s.offset + q) % s.width := by omega
  have hsplit := Nat.div_add_mod (s.offset + q) s.width
  rw [bit, hdiv, Nat.mul_comm, hsplit, if_pos ⟨Nat.le_add_right _ _, by omega⟩, Nat.add_sub_cancel_left]
  congr 1
  omega

/-- 読み返したバイト。 -/
theorem byte_eq_iff {bus : AmdBus} {m : AmdMode} (hmode : bus.All s.env.part m) (hm : m.Readable) (harray : s.Written bus.array) {q : Nat}
    (hq : q < s.size) :
    s.env.buf q = bus.byte s.env.part (s.offset + q) ↔
      ∀ b < 8, (s.env.buf q).getLsbD b = true → (s.old ((s.offset + q) / s.width)).getLsbD (8 * ((s.offset + q) % s.width) + b) = true := by
  have hmod := Nat.mod_lt (s.offset + q) s.width_pos
  have hbyte : ∀ b < 8, (bus.byte s.env.part (s.offset + q)).getLsbD b =
      ((s.old ((s.offset + q) / s.width)).getLsbD (8 * ((s.offset + q) % s.width) + b) && (s.env.buf q).getLsbD b) := by
    intro b hb
    have hj : 8 * ((s.offset + q) % s.width) + b < 8 * s.width := by omega
    rw [AmdBus.byte, BitVec.getLsbD_extractLsb', decide_eq_true hb, Bool.true_and, ← bit_byte hq hb]
    exact (hmode.data_bit hm _ hj).trans (harray _ _ hj)
  constructor
  · intro heq b hb hset
    rw [heq, hbyte b hb, Bool.and_eq_true] at hset
    exact hset.1
  · intro hall
    refine BitVec.eq_of_getLsbD_eq fun b hb => ?_
    rw [hbyte b hb]
    cases hset : (s.env.buf q).getLsbD b with
    | false => rw [Bool.and_false]
    | true => rw [hall b hb hset, Bool.and_true]

/-- 確かめるのは、ちょうど書いたバイトである。 -/
theorem Wrote.verify_iff {m : AmdMode} {bus : AmdBus} (h : s.Wrote k r) (hpad : s.pad < s.length) (hmode : bus.All s.env.part m)
    (hm : m.Readable) (harray : s.Written bus.array) :
    verifyBytes s.env { r with bus } (s.length - s.pad) = true ↔ s.Exact := by
  have hsize : ((s.length : Int) - s.pad).toNat = s.size := by
    rw [size]
    omega
  have hl := h.left
  have hb := h.buffer
  have hm' := h.memory
  have hbase := s.base_mul
  have hwidth : s.width = s.env.part.cfg.busWidth := rfl
  rw [Nat.add_mul] at hm'
  rw [verifyBytes, hsize, List.all_eq_true]
  simp only [List.mem_range, decide_eq_true_iff]
  refine forall₂_congr fun q hq => ?_
  rw [show r.buffer - ((s.length : Int) - s.pad) + r.left + s.env.part.cfg.busWidth + q = (q : Int) by omega,
    show ((r.memory : Int) - ((s.length : Int) - s.pad) + r.left + s.env.part.cfg.busWidth + q).toNat = s.offset + q by omega]
  exact byte_eq_iff hmode hm harray hq

/-- 三つの方法のループ。 -/
theorem writeLoops_run (hs : s.Healthy) (hrep : s.Reports) {bus : AmdBus} (hold : bus.array = s.old) (hmode : bus.All s.env.part .read) :
    ∃ r k, writeLoops s.env (s.offset &&& s.env.part.cfg.commandMask) (writeStart s.env bus s.offset s.length s.stack) = some (true, r) ∧
      s.Wrote k r ∧ r.left ≤ 0 := by
  have hc := s.env.part.cfg.atCommand hs.offset_lt
  have hstart := start_buffering hold hmode
  have hleft : (writeStart s.env bus s.offset s.length s.stack).left = s.length := rfl
  have hlen := hs.pad_lt
  have hfuel := hs.fuel
  have hprogram : ∀ k r, ¬(UsesBuffer s.env.part s.length ∧ (k + 1) * s.width ≤ s.length) → s.Ready k r → 0 < r.left →
      (∀ j < 8 * s.width, r.value.getLsbD j = s.bit (s.base + k) j) → True →
      ∃ r', programWord s.env (s.offset &&& s.env.part.cfg.commandMask) r = some (true, r') ∧
        s.Wrote (k + 1) { r' with left := r'.left - s.env.part.cfg.busWidth } ∧ True := by
    intro k r hword h hl hv _
    have hleft := h.left
    have hseen : ¬s.Skips k → s.Sees k := fun hskip => hrep k (by omega) (by rw [Polls, if_neg hword]; exact hskip)
    obtain ⟨r', hprogram, hwrote⟩ := h.programWord hs hc hseen hl hv
    exact ⟨r', hprogram, hwrote, trivial⟩
  unfold writeLoops
  by_cases hbuffer : UsesBuffer s.env.part (writeStart s.env bus s.offset s.length s.stack).left
  · have hbig : s.width < s.env.part.bufferSize := by
      have h := hbuffer.1
      have hwidth : s.width = s.env.part.cfg.busWidth := rfl
      omega
    have hfull : (s.width : Int) ≤ (writeStart s.env bus s.offset s.length s.stack).left := by
      have h := hbuffer.2
      have hwidth : s.width = s.env.part.cfg.busWidth := rfl
      omega
    obtain ⟨r, k, hloop, hcase⟩ := Buffering.loop hs hrep hbuffer hc hbig s.env.fuel hstart hfull (by omega)
    rw [if_pos hbuffer, hloop]
    dsimp only
    rcases hcase with ⟨hready, hpos, hshort⟩ | ⟨hwrote, hnone⟩
    · have hl := hready.left
      refine hready.wordLoop (I := fun _ => True) hs.pad_lt (fun k' r' hle => hprogram k' r' fun hword => ?_) trivial hpos (by omega)
      have hmul : (k + 1) * s.width ≤ (k' + 1) * s.width := Nat.mul_le_mul_right s.width (Nat.succ_le_succ hle)
      have hfull := hword.2
      rw [Nat.succ_mul k] at hmul
      omega
    · obtain ⟨fuel, hf⟩ := Nat.exists_eq_succ_of_ne_zero (show s.env.fuel ≠ 0 by omega)
      rw [hf, Flash.wordLoop, if_neg (Int.not_lt.mpr hnone)]
      exact ⟨r, k, rfl, hwrote, hnone⟩
  · rw [if_neg hbuffer]
    exact hstart.toReady.wordLoop (I := fun _ => True) hs.pad_lt (fun k' r' _ => hprogram k' r' fun h => hbuffer h.1) trivial (by omega) (by omega)

/-- `f3s_aCFI_v2write()` は、範囲のバイトを論理積にし、配列を読める状態で返る。 -/
theorem aCFIv2Write_spec (hs : s.Healthy) (hrep : s.Reports) {bus : AmdBus} (hold : bus.array = s.old) (hmode : bus.All s.env.part .read)
    {size : Int} (hcommand : s.env.page (s.offset &&& s.env.part.cfg.commandMask) 0 ≠ none)
    (hgrant : s.env.page (s.base * s.width) (size + s.pad) = some (s.length : Int)) (verify : Bool) :
    ∃ bus', aCFIv2Write s.env bus verify s.offset size s.stack = some (s.exit verify, bus') ∧ bus'.All s.env.part .read ∧
      s.Written bus'.array := by
  obtain ⟨granted, hgranted⟩ := Option.ne_none_iff_exists'.mp hcommand
  obtain ⟨r, k, hloops, hwrote, hleft⟩ := writeLoops_run hs hrep hold hmode
  have hwritten := hwrote.written hleft hs.pad_lt
  unfold aCFIv2Write
  dsimp only
  rw [s.land_width, s.start_memory, hgranted, hgrant]
  dsimp only
  rw [hloops]
  dsimp only
  generalize s.offset &&& s.env.part.cfg.commandMask = command
  -- アンロックバイパスに入っていれば抜ける。
  obtain ⟨bus', hbus, hread, harray⟩ : ∃ bus',
      (if r.unlock then { r with bus := (r.bus.send s.env.part command 0x90).send s.env.part command 0x00 } else r) = { r with bus := bus' } ∧
        bus'.All s.env.part .read ∧ bus'.array = r.bus.array := by
    have hm := hwrote.mode
    cases hunlock : r.unlock with
    | true =>
        rw [hunlock] at hm
        exact ⟨_, if_pos rfl, AmdBus.All.leaveBypass hm _, rfl⟩
    | false =>
        rw [hunlock] at hm
        exact ⟨r.bus, by rw [if_neg Bool.false_ne_true, ← hunlock], hm, rfl⟩
  have hverify := hwrote.verify_iff hs.pad_lt hread (.inl rfl) (harray.symm ▸ hwritten)
  refine ⟨bus', ?_, hread, harray.symm ▸ hwritten⟩
  unfold writeFinish
  dsimp only
  rw [hbus, exit]
  have hsize : ((s.length : Int) - s.pad) = s.size := by
    have := hs.pad_lt
    rw [WriteSpec.size]
    omega
  by_cases hexact : s.Exact
  · rw [if_neg (fun h => h.2 (hverify.mpr hexact)), if_neg (fun h => h.2 hexact), hsize]
  · by_cases hv : verify = true
    · rw [if_pos ⟨hv, fun h => hexact (hverify.mp h)⟩, if_pos ⟨hv, hexact⟩]
    · rw [if_neg (fun h => hv h.1), if_neg (fun h => hv h.1), hsize]

end WriteSpec

/-! ## 一つのチップ -/

theorem oneChip_fits : 2 ^ 0 ≤ (⟨2, 1, oneChip⟩ : FlashCfg).busWidth * 2 ^ (8 * 2) := by decide

/-- 16 ビットの一つのチップで、書き込みバッファはない。 -/
def wordPart : AmdPart := ⟨⟨2, 1, oneChip⟩, 0, 0x10000, oneChip_fits⟩

/-- 消えている配列。 -/
def erasedBus : AmdBus where
  mode _ := .read
  array _ := BitVec.allOnes 64

end Imx6Bsp.Flash
