import Imx6Bsp.Pci.Config
import Imx6Bsp.Lib.Words

/-!
# 設定空間の読み書きの補題

二つの繰り返しを、まとめて読み書きしたものに書き直す。語に満たない読み書きは、読んだ語の範囲のバイトだけを扱う。
-/

namespace Imx6Bsp.Pci

open Imx6Bsp.Lib

variable {sp : Space} {check : PciexCheck} {stack temp buf : Mem} {offset p n k cnt : Nat}

/-! ## 桁の差し替え -/

theorem latch_plain (old new : UInt8) : latch old 0xff new = new := by
  rw [latch, show (0xff : UInt8) = -1 from rfl]
  simp

theorem latch_self (old mask : UInt8) : latch old mask old = old := by
  apply UInt8.toBitVec_inj.mp
  rw [latch, UInt8.toBitVec_or, UInt8.toBitVec_and, UInt8.toBitVec_and, UInt8.toBitVec_not]
  ext i hi
  rw [BitVec.getElem_or, BitVec.getElem_and, BitVec.getElem_and, BitVec.getElem_not]
  cases old.toBitVec[i] with
  | false => rfl
  | true => exact Bool.not_or_self _

/-! ## 設定空間への書き込み -/

@[simp] theorem Space.put_size (sp : Space) (offset n : Nat) (f : Nat → UInt8) : (sp.put offset n f).size = sp.size := rfl

@[simp] theorem Space.put_writable (sp : Space) (offset n : Nat) (f : Nat → UInt8) : (sp.put offset n f).writable = sp.writable := rfl

theorem Space.put_in {i : Nat} {f : Nat → UInt8} (h : i < n) :
    (sp.put offset n f).regs (offset + i) = latch (sp.regs (offset + i)) (sp.writable (offset + i)) (f i) := by
  unfold Space.put
  dsimp only
  rw [Mem.fill_in h]

theorem Space.put_out {x : Nat} {f : Nat → UInt8} (h : x < offset ∨ offset + n ≤ x) : (sp.put offset n f).regs x = sp.regs x := by
  unfold Space.put
  dsimp only
  rw [Mem.fill_out h]

theorem Space.put_congr {f g : Nat → UInt8} (h : ∀ i < n, f i = g i) : sp.put offset n f = sp.put offset n g := by
  unfold Space.put
  congr 1
  apply Mem.fill_congr
  intro i hi
  rw [h i hi]

/-- 何も書かない。 -/
theorem Space.put_zero {f : Nat → UInt8} : sp.put offset 0 f = sp := by
  have hregs : (sp.put offset 0 f).regs = sp.regs := by
    funext x
    apply Space.put_out
    omega
  cases sp
  exact congrArg (fun regs => Space.mk _ _ regs _) hregs

/-- 続きの範囲に書く。 -/
theorem Space.put_append {f g : Nat → UInt8} :
    (sp.put offset n f).put (offset + n) k g = sp.put offset (n + k) fun i => if i < n then f i else g (i - n) := by
  have htail : (sp.put offset n f).put (offset + n) k g
      = { sp with
          regs := (sp.put offset n f).regs.fill (offset + n) k fun i =>
            latch (sp.regs (offset + n + i)) (sp.writable (offset + n + i)) (g i) } := by
    unfold Space.put
    congr 1
    apply Mem.fill_congr
    intro i _
    dsimp only
    rw [Mem.fill_out (by omega)]
  rw [htail]
  unfold Space.put
  congr 1
  dsimp only
  rw [Mem.fill_append]
  apply Mem.fill_congr
  intro i hi
  by_cases hin : i < n
  · rw [if_pos hin, if_pos hin]
  · rw [if_neg hin, if_neg hin, show offset + n + (i - n) = offset + i by omega]

/-! ## 繰り返し -/

theorem readLoop_eq (h : offset + 4 * cnt ≤ sp.size) :
    readLoop sp cnt offset p temp = .ok (temp.fill p (4 * cnt) fun i => sp.regs (offset + i)) := by
  induction cnt generalizing offset p temp with
  | zero =>
      refine congrArg Except.ok (funext fun x => ?_)
      exact (Mem.fill_out (by omega)).symm
  | succ cnt ih =>
      have hword : temp.writeLE p 4 (sp.regs.readLE offset 4) = temp.fill p 4 fun i => sp.regs (offset + i) := by
        funext x
        unfold Mem.writeLE Mem.fill
        by_cases hx : p ≤ x ∧ x < p + 4
        · rw [if_pos hx, if_pos hx, Mem.ofNat_readLE _ (by omega)]
        · rw [if_neg hx, if_neg hx]
      rw [readLoop, Space.readCnfg, if_pos (by omega)]
      dsimp only [bind, Except.bind]
      rw [ih (by omega), hword, Mem.fill_append, show 4 + 4 * cnt = 4 * (cnt + 1) by omega]
      refine congrArg Except.ok (Mem.fill_congr fun i hi => ?_)
      by_cases hin : i < 4
      · rw [if_pos hin]
      · rw [if_neg hin, show offset + 4 + (i - 4) = offset + i by omega]

theorem writeLoop_eq (h : offset + 4 * cnt ≤ sp.size) :
    writeLoop temp cnt offset p sp = (sp.put offset (4 * cnt) fun i => temp (p + i), .ok ()) := by
  induction cnt generalizing offset p sp with
  | zero => rw [writeLoop, Nat.mul_zero, Space.put_zero]
  | succ cnt ih =>
      have hword : sp.put offset 4 (fun i => UInt8.ofNat (temp.readLE p 4 / 256 ^ i)) = sp.put offset 4 fun i => temp (p + i) :=
        Space.put_congr fun i hi => Mem.ofNat_readLE _ hi
      rw [writeLoop, Space.writeCnfg, if_pos (by omega)]
      dsimp only
      rw [hword, ih (by rw [Space.put_size]; omega), Space.put_append, show 4 + 4 * cnt = 4 * (cnt + 1) by omega]
      refine congrArg (·, _) (Space.put_congr fun i hi => ?_)
      by_cases hin : i < 4
      · rw [if_pos hin]
      · rw [if_neg hin, show p + 4 + (i - 4) = p + i by omega]

/-! ## 語に満たない読み書き -/

theorem alignDown_add_mod (offset : Nat) : alignDown offset + offset % 4 = offset := Nat.sub_add_cancel (Nat.mod_le _ _)

theorem readNarrow_eq (hgate : gate check (alignDown offset) cnt = .ok ()) (h : alignDown offset + 4 * cnt ≤ sp.size) :
    readNarrow check stack sp offset cnt =
      .ok fun i => stack.fill 0 (4 * cnt) (fun j => sp.regs (alignDown offset + j)) (offset % 4 + i) := by
  rw [readNarrow, hgate]
  dsimp only [bind, Except.bind]
  rw [readLoop_eq h]
  rfl

theorem writeNarrow_eq (hgate : gate check (alignDown offset) cnt = .ok ()) (h : alignDown offset + 4 * cnt ≤ sp.size) :
    writeNarrow check stack sp offset n cnt buf =
      (sp.put (alignDown offset) (4 * cnt) fun i =>
        (stack.fill 0 (4 * cnt) fun j => sp.regs (alignDown offset + j)).fill (offset % 4) n buf (0 + i), .ok ()) := by
  rw [writeNarrow, hgate]
  dsimp only
  rw [readLoop_eq h]
  exact writeLoop_eq h

/-! ## 語の範囲 -/

/-- バイトの個数から決まる語の数。 -/
def dwords (n : Nat) : Nat := (n + 3) / 4

theorem alignDown_le_size (h : offset + n ≤ sp.size) : alignDown offset + 4 * dwords n ≤ sp.size := by
  have hsize := sp.size_eq
  unfold alignDown dwords
  omega

theorem dwords8 (h : cnt ≤ 256) : min ((cnt + 3) >>> 2) 64 = dwords cnt := by
  rw [Nat.shiftRight_eq_div_pow, dwords]
  omega

theorem dwords16 (h : cnt * 2 ≤ 256) : min ((cnt + 1) >>> 1) 64 = dwords (cnt * 2) := by
  rw [Nat.shiftRight_eq_div_pow, dwords]
  omega

theorem readNarrow_get {stack buf : Mem} {i : Nat} (hgate : gate check (alignDown offset) (dwords n) = .ok ())
    (hin : offset + n ≤ sp.size) (h : readNarrow check stack sp offset (dwords n) = .ok buf) :
    buf i = if offset % 4 + i < 4 * dwords n then sp.regs (offset + i) else stack (offset % 4 + i) := by
  rw [readNarrow_eq hgate (alignDown_le_size hin)] at h
  cases h
  by_cases hi : offset % 4 + i < 4 * dwords n
  · have hbyte : alignDown offset + (offset % 4 + i) = offset + i := by rw [← Nat.add_assoc, alignDown_add_mod]
    rw [if_pos hi, ← hbyte]
    unfold Mem.fill
    dsimp only
    rw [if_pos (by omega), Nat.sub_zero]
  · rw [if_neg hi]
    exact Mem.fill_out (by omega)

theorem writeNarrow_get {stack buf : Mem} {r : Space × Except Refusal Unit} {x : Nat}
    (hgate : gate check (alignDown offset) (dwords n) = .ok ()) (hin : offset + n ≤ sp.size)
    (h : writeNarrow check stack sp offset n (dwords n) buf = r) :
    r.2 = .ok () ∧
      r.1.regs x = if offset ≤ x ∧ x < offset + n ∧ x < alignDown offset + 4 * dwords n then
          latch (sp.regs x) (sp.writable x) (buf (x - offset)) else sp.regs x := by
  rw [writeNarrow_eq hgate (alignDown_le_size hin)] at h
  cases h
  refine ⟨rfl, ?_⟩
  dsimp only
  have halign := alignDown_add_mod offset
  by_cases hx : alignDown offset ≤ x ∧ x < alignDown offset + 4 * dwords n
  · obtain ⟨i, rfl⟩ := Nat.exists_eq_add_of_le hx.1
    rw [Space.put_in (by omega), Nat.zero_add]
    by_cases hi : offset % 4 ≤ i ∧ i < offset % 4 + n
    · obtain ⟨j, rfl⟩ := Nat.exists_eq_add_of_le hi.1
      rw [Mem.fill_in (by omega), if_pos (by omega), show alignDown offset + (offset % 4 + j) - offset = j by omega]
    · rw [Mem.fill_out (by omega), if_neg (by omega)]
      unfold Mem.fill
      rw [if_pos (by omega), Nat.sub_zero, latch_self]
  · rw [Space.put_out (by omega), if_neg (by omega)]

/-! ## `0x100` より下の一つのレジスタ -/

theorem Space.le_size (sp : Space) : 256 ≤ sp.size := by
  have := sp.size_eq
  omega

theorem gate_low (h : offset < 256) : gate check (alignDown offset) cnt = .ok () := by
  rw [gate, if_neg]
  unfold alignDown
  omega

theorem readConfig8_one (h : offset < 256) :
    ∃ buf, readConfig8 check stack sp offset 1 = .ok buf ∧ buf 0 = sp.regs offset := by
  have hin : offset + 1 ≤ sp.size := h.trans_le sp.le_size
  have hgate : gate check (alignDown offset) (dwords 1) = .ok () := gate_low h
  have hread := @readNarrow_eq sp check stack _ _ hgate (alignDown_le_size hin)
  refine ⟨_, hread, ?_⟩
  rw [readNarrow_get hgate hin hread, Nat.add_zero, if_pos, Nat.add_zero]
  unfold dwords
  omega

theorem readConfig16_one (heven : offset % 2 = 0) (h : offset < 256) :
    ∃ buf, readConfig16 check stack sp offset 1 = .ok buf ∧ buf.readLE 0 2 = sp.regs.readLE offset 2 := by
  have hin : offset + 2 ≤ sp.size := by
    have := sp.le_size
    omega
  have hgate : gate check (alignDown offset) (dwords 2) = .ok () := gate_low h
  have hread := @readNarrow_eq sp check stack _ _ hgate (alignDown_le_size hin)
  have hconfig : readConfig16 check stack sp offset 1 = readNarrow check stack sp offset (dwords 2) := by
    rw [readConfig16, if_neg (by decide), if_neg (by omega)]
    rfl
  refine ⟨_, hconfig.trans hread, Mem.readLE_congr fun i hi => ?_⟩
  rw [readNarrow_get hgate hin hread, if_pos, Nat.zero_add]
  unfold dwords
  omega

end Imx6Bsp.Pci

namespace Imx6Bsp.Pci

open Imx6Bsp.Lib

/-! ## 一つの語の読み書き

`0x100` より下の語の読み書きは、必ず成功する。書いた語は、書ける桁だけが変わる。 -/

variable {sp : Space} {check : PciexCheck} {offset n v old : Nat}

/-! ### バイトごとの差し替え -/

theorem latch_toNat (old mask new : UInt8) :
    (latch old mask new).toNat = (old.toNat &&& (255 - mask.toNat)) ||| (new.toNat &&& mask.toNat) := by
  rw [latch, UInt8.toNat_or, UInt8.toNat_and, UInt8.toNat_and, UInt8.toNat_not]
  rfl

/-- 二度書いた桁は、後の値になる。 -/
theorem latch_latch (old mask new new' : UInt8) : latch (latch old mask new) mask new' = latch old mask new' := by
  apply UInt8.toBitVec_inj.mp
  simp only [latch, UInt8.toBitVec_or, UInt8.toBitVec_and, UInt8.toBitVec_not]
  ext i hi
  simp only [BitVec.getElem_or, BitVec.getElem_and, BitVec.getElem_not]
  cases mask.toBitVec[i] with
  | false => simp
  | true => simp

/-- バイトごとの差し替えは、語の桁の差し替えである。 -/
theorem readLE_latch {r f m g : Mem} (a b c d n : Nat) (h : ∀ i < n, r (a + i) = latch (f (b + i)) (m (c + i)) (g (d + i))) :
    r.readLE a n = withBits (8 * n) (f.readLE b n) (m.readLE c n) (g.readLE d n &&& m.readLE c n) := by
  induction n generalizing a b c d with
  | zero => simp [Mem.readLE, withBits]
  | succ n ih =>
      have hrest := ih (a + 1) (b + 1) (c + 1) (d + 1) fun i hi => by
        have := h (i + 1) (Nat.succ_lt_succ hi)
        rwa [← Nat.add_assoc, ← Nat.add_assoc, ← Nat.add_assoc, ← Nat.add_assoc, Nat.add_right_comm a, Nat.add_right_comm b,
          Nat.add_right_comm c, Nat.add_right_comm d] at this
      have h0 := congrArg UInt8.toNat (h 0 (Nat.succ_pos n))
      rw [latch_toNat] at h0
      have hm := (m c).toNat_lt
      have hcompl : 2 ^ (8 * (n + 1)) - 1 - ((m c).toNat + 256 * m.readLE (c + 1) n)
          = (255 - (m c).toNat) + 256 * (2 ^ (8 * n) - 1 - m.readLE (c + 1) n) := by
        have hlt := Mem.readLE_lt m (c + 1) n
        rw [show 256 ^ n = 2 ^ (8 * n) by rw [Nat.pow_mul]] at hlt
        rw [show 8 * (n + 1) = 8 * n + 8 by omega, Nat.pow_add]
        omega
      rw [Mem.readLE, Mem.readLE, Mem.readLE, Mem.readLE, hrest, withBits, withBits, hcompl, show (256 : Nat) = 2 ^ 8 from rfl,
        and_split (f b).toNat_lt (by omega),
        and_split (g d).toNat_lt hm, or_split (Nat.and_lt_two_pow (n := 8) _ (by omega)) (Nat.and_lt_two_pow (n := 8) _ hm)]
      exact congrArg (· + _) h0

/-! ### 一つの語の読み書き -/

theorem readLE_dwordBytes (h : v < 2 ^ 32) : (dwordBytes v).readLE 0 4 = v := by
  have hbytes : (dwordBytes v).readLE 0 4 = (Mem.writeLE (dwordBytes v) 0 4 v).readLE 0 4 :=
    Mem.readLE_congr fun i hi => by
      rw [Mem.writeLE, if_pos (by omega)]
      rfl
  rw [hbytes, Mem.readLE_writeLE_self]
  exact Nat.mod_eq_of_lt h

theorem read32_eq (halign : offset % 4 = 0) (h : offset < 256) : read32 check sp offset old = sp.regs.readLE offset 4 := by
  have hsize := sp.le_size
  have hread : readConfig32 check (dwordBytes old) sp offset 1
      = .ok ((dwordBytes old).fill 0 (4 * 1) fun i => sp.regs (offset + i)) := by
    rw [readConfig32, if_neg (not_not_intro halign), if_neg (by omega)]
    exact readLoop_eq (by omega)
  rw [read32, hread]
  apply Mem.readLE_congr
  intro i hi
  exact Mem.fill_in hi

theorem write32_eq (halign : offset % 4 = 0) (h : offset < 256) : write32 check sp offset v = sp.put offset 4 (dwordBytes v) := by
  have hsize := sp.le_size
  rw [write32, writeConfig32, if_neg (not_not_intro halign), if_neg (by omega)]
  dsimp only
  rw [writeLoop_eq (by omega)]
  dsimp only
  apply Space.put_congr
  intro i hi
  rw [Nat.zero_add]

/-- 書いた語。 -/
theorem readLE_put_self (hv : v < 2 ^ 32) :
    (sp.put offset 4 (dwordBytes v)).regs.readLE offset 4
      = withBits 32 (sp.regs.readLE offset 4) (sp.writable.readLE offset 4) (v &&& sp.writable.readLE offset 4) := by
  have h := readLE_latch (r := (sp.put offset 4 (dwordBytes v)).regs) (f := sp.regs) (m := sp.writable) (g := dwordBytes v)
    offset offset offset 0 4 fun i hi => by rw [Space.put_in hi, Nat.zero_add]
  rw [h, readLE_dwordBytes hv]

/-- 他の語は変わらない。 -/
theorem readLE_put_of_disjoint {a k : Nat} {f : Nat → UInt8} (h : a + k ≤ offset ∨ offset + n ≤ a) :
    (sp.put offset n f).regs.readLE a k = sp.regs.readLE a k :=
  Mem.readLE_congr fun i hi => Space.put_out (by omega)

/-! ### 書き直し -/

/-- 二度書いた範囲は、後の値になる。 -/
theorem Space.put_put {k : Nat} {f g : Nat → UInt8} (h : n ≤ k) : (sp.put offset n f).put offset k g = sp.put offset k g := by
  unfold Space.put
  congr 1
  dsimp only
  funext x
  by_cases hx : offset ≤ x ∧ x < offset + k
  · obtain ⟨i, rfl⟩ := Nat.exists_eq_add_of_le hx.1
    have hik : i < k := by omega
    rw [Mem.fill_in hik, Mem.fill_in hik]
    by_cases hi : i < n
    · rw [Mem.fill_in hi, latch_latch]
    · rw [Mem.fill_out (by omega)]
  · rw [Mem.fill_out (by omega), Mem.fill_out (by omega), Mem.fill_out (by omega)]

/-- 今の値を書いても変わらない。 -/
theorem Space.put_self : sp.put offset n (fun i => sp.regs (offset + i)) = sp := by
  have hregs : (sp.put offset n fun i => sp.regs (offset + i)).regs = sp.regs := by
    funext x
    by_cases hx : offset ≤ x ∧ x < offset + n
    · obtain ⟨i, rfl⟩ := Nat.exists_eq_add_of_le hx.1
      rw [Space.put_in (by omega), latch_self]
    · exact Space.put_out (by omega)
  cases sp
  exact congrArg (fun regs => Space.mk _ _ regs _) hregs

end Imx6Bsp.Pci
