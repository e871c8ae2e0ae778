import Imx6Bsp.Pci.Lemmas.Config

/-!
# 窓の大きさと、レジスタの内容

`window_size()` はレジスタを必ず元に戻す。大きさは、4 GB 以上の 64 ビットの窓に、上の語のすべての桁が立った番地があるときに限って誤る。
-/

namespace Imx6Bsp.Pci

open Imx6Bsp.Lib

variable {sp : Space} {check : PciexCheck} {offset junk k t : Nat} {reg64 : Bool} {type : WindowType}

/-! ## 元に戻すこと -/

/-- レジスタの長さ。 -/
def windowBytes (reg64 : Bool) : Nat := if reg64 then 8 else 4

theorem writeOnes_eq (halign : offset % 4 = 0) (h : offset + 4 < 256) :
    writeOnes check sp offset reg64 = sp.put offset (windowBytes reg64) fun _ => 0xff := by
  have hones : ∀ i < 4, dwordBytes 0xffffffff i = 0xff := by decide
  rw [writeOnes, windowBytes, write32_eq halign (by omega)]
  cases reg64 with
  | false => exact Space.put_congr hones
  | true =>
      rw [if_pos rfl, if_pos rfl, write32_eq (by omega) h, Space.put_append]
      apply Space.put_congr
      intro i hi
      by_cases hlow : i < 4
      · rw [if_pos hlow, hones i hlow]
      · rw [if_neg hlow, hones (i - 4) (by omega)]

/-- `cur_addr` に読んだ値を書き戻す。 -/
theorem restore_eq {probed : Space} {cur1 : Nat} (halign : offset % 4 = 0) (h : offset + 4 < 256)
    (hcur1 : reg64 = true → cur1 = sp.regs.readLE (offset + 4) 4) :
    restore check probed offset reg64 (sp.regs.readLE offset 4) cur1
      = probed.put offset (windowBytes reg64) fun i => sp.regs (offset + i) := by
  have hcur0 : ∀ i < 4, dwordBytes (sp.regs.readLE offset 4) i = sp.regs (offset + i) := fun i hi => Mem.ofNat_readLE _ hi
  rw [restore, windowBytes, write32_eq halign (by omega)]
  cases reg64 with
  | false => exact Space.put_congr hcur0
  | true =>
      rw [if_pos rfl, if_pos rfl, write32_eq (by omega) h, Space.put_append, hcur1 rfl]
      apply Space.put_congr
      intro i hi
      by_cases hlow : i < 4
      · rw [if_pos hlow, hcur0 i hlow]
      · rw [if_neg hlow, dwordBytes, Mem.ofNat_readLE _ (by omega), show offset + 4 + (i - 4) = offset + i by omega]

/-- レジスタの内容を変えない。 -/
theorem windowSize_restores (halign : offset % 4 = 0) (h : offset + 4 < 256) :
    (windowSize check junk sp offset type reg64).2 = sp := by
  have hcur0 : read32 check sp offset junk = sp.regs.readLE offset 4 := read32_eq halign (by omega)
  have hcur1 : reg64 = true → (if reg64 then read32 check sp (offset + 4) 0xffffffff else 0xffffffff) = sp.regs.readLE (offset + 4) 4 :=
    fun hreg => by rw [if_pos hreg, read32_eq (by omega) h]
  have hback : ∀ probed : Space, probed = sp.put offset (windowBytes reg64) (fun _ => 0xff) ∨
        probed = (sp.put offset (windowBytes reg64) fun _ => 0xff).put offset 4 (dwordBytes 0) →
      probed.put offset (windowBytes reg64) (fun i => sp.regs (offset + i)) = sp := by
    have hle : 4 ≤ windowBytes reg64 := by cases reg64 <;> decide
    rintro probed (rfl | rfl)
    · rw [Space.put_put (Nat.le_refl _), Space.put_self]
    · rw [Space.put_put hle, Space.put_put (Nat.le_refl _), Space.put_self]
  rw [windowSize, hcur0]
  dsimp only
  rw [restore_eq halign h hcur1]
  apply hback
  rw [writeOnes_eq halign h]
  exact (ite_eq_or_eq _ _ _).symm.imp_right fun hprobed => hprobed.trans (write32_eq halign (by omega))

/-! ## 読み戻した値 -/

/-- 1 を書いて読み戻した値。 -/
theorem readLE_ones {a : Nat} (ha : offset ≤ a ∧ a + 4 ≤ offset + windowBytes reg64) :
    (sp.put offset (windowBytes reg64) fun _ => 0xff).regs.readLE a 4
      = withBits 32 (sp.regs.readLE a 4) (sp.writable.readLE a 4) (sp.writable.readLE a 4) := by
  have h := readLE_latch (r := (sp.put offset (windowBytes reg64) fun _ => 0xff).regs) (f := sp.regs) (m := sp.writable)
    (g := dwordBytes 0xffffffff) a a a 0 4 fun i hi => by
      obtain ⟨j, rfl⟩ := Nat.exists_eq_add_of_le ha.1
      have hones : ∀ i < 4, dwordBytes 0xffffffff i = 0xff := by decide
      rw [Nat.add_assoc, Space.put_in (by omega), Nat.zero_add, hones i hi]
  have hlt : sp.writable.readLE a 4 < 2 ^ 32 := Mem.readLE_lt _ _ _
  rw [h, readLE_dwordBytes (by decide)]
  refine congrArg (withBits 32 _ _) ?_
  rw [show 0xffffffff = 2 ^ 32 - 1 from rfl, Nat.and_comm, Nat.and_two_pow_sub_one_of_lt_two_pow hlt]

/-- 1 に続いて 0 を書いて読み戻した値。 -/
theorem readLE_zeros :
    ((sp.put offset (windowBytes reg64) fun _ => 0xff).put offset 4 (dwordBytes 0)).regs.readLE offset 4
      = withBits 32 (sp.regs.readLE offset 4) (sp.writable.readLE offset 4) 0 := by
  have hle : 4 ≤ windowBytes reg64 := by cases reg64 <;> decide
  have h := readLE_latch (r := ((sp.put offset (windowBytes reg64) fun _ => 0xff).put offset 4 (dwordBytes 0)).regs) (f := sp.regs)
    (m := sp.writable) (g := dwordBytes 0) offset offset offset 0 4 fun i hi => by
      rw [Space.put_in hi, Space.put_in (by omega), Space.put_writable, latch_latch, Nat.zero_add]
  rw [h, readLE_dwordBytes (by decide), Nat.zero_and]

/-! ## 規格に従うレジスタ -/

/-- レジスタの種類。`decode32` は I/O の上の 16 桁があること、`full` は 64 桁すべてがあること（なければ 40 桁）を表す。 -/
inductive BarKind
  | io (decode32 : Bool)
  | mem
  | mem64 (full : Bool)
  | rom
deriving DecidableEq, Repr

namespace BarKind

/-- 番地の桁の数。 -/
def width : BarKind → Nat
  | io decode32 => if decode32 then 32 else 16
  | mem => 32
  | mem64 full => if full then 64 else 40
  | rom => 32

/-- 大きさの下限の桁。 -/
def minLog : BarKind → Nat
  | io _ => 2
  | mem => 4
  | mem64 _ => 4
  | rom => 11

/-- 種類を表す、書けない桁。 -/
def TypeBits : BarKind → Nat → Prop
  | io _, t => t = 1
  | mem, t => t = 0 ∨ t = 2 ∨ t = 8 ∨ t = 10
  | mem64 _, t => t = 4 ∨ t = 12
  | rom, t => t = 0

/-- ROM の、書ける最下位の桁。 -/
def enable : BarKind → Nat
  | rom => 1
  | _ => 0

/-- 二つの語からなる。 -/
def paired : BarKind → Bool
  | mem64 _ => true
  | _ => false

/-- `window_size()` に渡す種類。 -/
def Asks : BarKind → WindowType → Prop
  | io _, type => type = .io
  | mem, type => type = .mem
  | mem64 _, type => type = .mem
  | rom, type => type = .mem ∨ type = .rom

/-- 大きさ `2 ^ k` のレジスタの、番地の桁。 -/
def mask (kind : BarKind) (k : Nat) : Nat := 2 ^ kind.width - 2 ^ k

end BarKind

/-- 大きさ `2 ^ k` の、規格に従うレジスタ。番地は、書ける桁のどの値でもよい。 -/
structure Register (sp : Space) (offset : Nat) (kind : BarKind) (k t : Nat) : Prop where
  log : kind.minLog ≤ k
  bits : k < kind.width
  type : kind.TypeBits t
  lowMask : sp.writable.readLE offset 4 = kind.mask k % 2 ^ 32 + kind.enable
  low : sp.regs.readLE offset 4 &&& (2 ^ 32 - 1 - sp.writable.readLE offset 4) = t
  highMask : kind.paired = true → sp.writable.readLE (offset + 4) 4 = kind.mask k / 2 ^ 32
  high : kind.paired = true → sp.regs.readLE (offset + 4) 4 &&& (2 ^ 32 - 1 - sp.writable.readLE (offset + 4) 4) = 0

/-- 読めない、番地のないレジスタ。 -/
structure Unimplemented (sp : Space) (offset : Nat) : Prop where
  low : sp.regs.readLE offset 4 = 0
  mask : sp.writable.readLE offset 4 = 0

/-! ## マスク -/

/-- 上の桁を立てる。 -/
theorem or_extend {k w v : Nat} (hk : k ≤ w) (hw : w ≤ v) : (2 ^ w - 2 ^ k) ||| (2 ^ v - 2 ^ w) = 2 ^ v - 2 ^ k := by
  have h1 : 2 ^ k ≤ 2 ^ w := Nat.pow_le_pow_right (by decide) hk
  have h2 : 2 ^ w ≤ 2 ^ v := Nat.pow_le_pow_right (by decide) hw
  have hdvd : 2 ^ w ∣ 2 ^ v - 2 ^ w := Nat.dvd_sub (Nat.pow_dvd_pow 2 hw) (Nat.dvd_refl _)
  have hpos := Nat.two_pow_pos k
  rw [or_eq_add (by omega) hdvd]
  omega

theorem widen_mid {x : Nat} (h : 0x10000 ≤ x) (h' : x < 0x100000000) : widen x = x ||| 0xffffffff00000000 := by
  rw [widen, if_neg (by omega)]
  dsimp only
  rw [if_neg (Nat.not_lt.mpr h), if_pos h']

theorem widen_high {x : Nat} (h : 0x100000000 ≤ x) : widen x = x := by
  have hport : ¬ x < 0x10000 := by omega
  rw [widen, if_neg (by omega)]
  dsimp only
  rw [if_neg hport, if_neg (Nat.not_lt.mpr h)]

theorem widen_low {x : Nat} (h : x ≠ 0) (h' : x < 0x10000) (hor : x ||| 0xffff0000 < 0x100000000) :
    widen x = (x ||| 0xffff0000) ||| 0xffffffff00000000 := by
  rw [widen, if_neg h]
  dsimp only
  rw [if_pos h', if_pos hor]

theorem widen_32 (hk : k < 32) : widen (2 ^ 32 - 2 ^ k) = 2 ^ 64 - 2 ^ k := by
  have hpos := Nat.two_pow_pos k
  have hhalf : 2 ^ k ≤ 2 ^ 31 := Nat.pow_le_pow_right (by decide) (by omega)
  rw [widen_mid (by omega) (by omega)]
  exact or_extend (w := 32) (v := 64) hk.le (by decide)

theorem widen_16 (hk : k < 16) : widen (2 ^ 16 - 2 ^ k) = 2 ^ 64 - 2 ^ k := by
  have hpos := Nat.two_pow_pos k
  have hhalf : 2 ^ k ≤ 2 ^ 15 := Nat.pow_le_pow_right (by decide) (by omega)
  have hport : (2 ^ 16 - 2 ^ k) ||| 0xffff0000 = 2 ^ 32 - 2 ^ k := or_extend (w := 16) (v := 32) hk.le (by decide)
  rw [widen_low (by omega) (by omega) (by rw [hport]; omega), hport]
  exact or_extend (w := 32) (v := 64) (by omega) (by decide)

theorem widen64_40 (hk : k < 40) : widen64 (2 ^ 40 - 2 ^ k) = 2 ^ 64 - 2 ^ k := by
  have hpos := Nat.two_pow_pos k
  have hhigh : (2 ^ 40 - 2 ^ k) &&& 0xffffff0000000000 = 0 := by
    have h := land_high_mask (w := 64) (k := 40) (x := 2 ^ 40 - 2 ^ k) (by omega) (by decide)
    rw [Nat.div_eq_of_lt (by omega), Nat.zero_mul] at h
    exact h
  rw [widen64, if_pos hhigh]
  exact or_extend (w := 40) (v := 64) hk.le (by decide)

theorem widen64_64 (hk : k < 64) : widen64 (2 ^ 64 - 2 ^ k) = 2 ^ 64 - 2 ^ k := by
  have hpos := Nat.two_pow_pos k
  have hhalf : 2 ^ k ≤ 2 ^ 63 := Nat.pow_le_pow_right (by decide) (by omega)
  have hhigh : (2 ^ 64 - 2 ^ k) &&& 0xffffff0000000000 ≠ 0 := by
    have h := land_high_mask (w := 64) (k := 40) (x := 2 ^ 64 - 2 ^ k) (by omega) (by decide)
    intro h0
    have := h.symm.trans h0
    omega
  rw [widen64, if_neg hhigh]

/-- 番地の桁は、上の桁を立てると `2 ^ k` の補数になる。 -/
theorem widen_mask {kind : BarKind} (hk : k < kind.width) :
    (if kind.paired then widen64 (widen (kind.mask k)) else widen (kind.mask k)) = 2 ^ 64 - 2 ^ k := by
  cases kind with
  | io decode32 =>
      cases decode32 with
      | false => exact widen_16 hk
      | true => exact widen_32 hk
  | mem => exact widen_32 hk
  | rom => exact widen_32 hk
  | mem64 full =>
      have hpos := Nat.two_pow_pos k
      cases full with
      | true =>
          have hhalf : 2 ^ k ≤ 2 ^ 63 := Nat.pow_le_pow_right (by decide) (Nat.le_of_lt_succ hk)
          have hwiden : widen (2 ^ 64 - 2 ^ k) = 2 ^ 64 - 2 ^ k := widen_high (by omega)
          exact (congrArg widen64 hwiden).trans (widen64_64 hk)
      | false =>
          have hhalf : 2 ^ k ≤ 2 ^ 39 := Nat.pow_le_pow_right (by decide) (Nat.le_of_lt_succ hk)
          have hwiden : widen (2 ^ 40 - 2 ^ k) = 2 ^ 40 - 2 ^ k := widen_high (by omega)
          exact (congrArg widen64 hwiden).trans (widen64_40 hk)

/-! ## 読み戻した値からのマスク -/

variable {kind : BarKind}

theorem TypeBits_lt (h : kind.TypeBits t) : t + kind.enable < 2 ^ kind.minLog := by
  cases kind with
  | io decode32 =>
      obtain rfl : t = 1 := h
      exact (by decide : 1 + 0 < 2 ^ 2)
  | rom =>
      obtain rfl : t = 0 := h
      exact (by decide : 0 + 1 < 2 ^ 11)
  | mem =>
      have hlt : t < 16 := by
        rcases h with rfl | rfl | rfl | rfl
        all_goals decide
      exact hlt
  | mem64 full =>
      have hlt : t < 16 := by
        rcases h with rfl | rfl
        all_goals decide
      exact hlt

theorem width_le (kind : BarKind) : kind.width ≤ 64 := by
  cases kind with
  | io d => cases d <;> decide
  | mem => decide
  | rom => decide
  | mem64 d => cases d <;> decide

/-- 種類の桁を落とすと、番地の桁が残る。 -/
theorem address_mask (hasks : kind.Asks type) (ht : kind.TypeBits t) (hlog : kind.minLog ≤ k) (hk : k < kind.width) :
    type.address (kind.mask k + (t + kind.enable)) = kind.mask k := by
  have hwidth := width_le kind
  have hlt := TypeBits_lt ht
  have hk2 : 2 ^ kind.minLog ≤ 2 ^ k := Nat.pow_le_pow_right (by decide) hlog
  have hw2 : 2 ^ k ≤ 2 ^ kind.width := Nat.pow_le_pow_right (by decide) hk.le
  have hbound : kind.mask k + (t + kind.enable) < 2 ^ 64 := by
    have : 2 ^ kind.width ≤ 2 ^ 64 := Nat.pow_le_pow_right (by decide) hwidth
    rw [BarKind.mask]
    omega
  have hdrop : ∀ j ≤ kind.minLog, t + kind.enable < 2 ^ j →
      (kind.mask k + (t + kind.enable)) &&& (2 ^ 64 - 2 ^ j) = kind.mask k := by
    intro j hj hs
    have hjk : j ≤ k := hj.trans hlog
    have hdvd : 2 ^ j ∣ kind.mask k := Nat.dvd_sub (Nat.pow_dvd_pow 2 (hjk.trans hk.le)) (Nat.pow_dvd_pow 2 hjk)
    obtain ⟨c, hc⟩ := hdvd
    rw [land_high_mask hbound ((hjk.trans hk.le).trans hwidth), hc, Nat.mul_add_div (Nat.two_pow_pos j), Nat.div_eq_of_lt hs,
      Nat.add_zero, Nat.mul_comm]
  cases kind with
  | io d =>
      obtain rfl : type = .io := hasks
      exact hdrop 2 (Nat.le_refl 2) hlt
  | mem =>
      obtain rfl : type = .mem := hasks
      exact hdrop 4 (Nat.le_refl 4) hlt
  | mem64 d =>
      obtain rfl : type = .mem := hasks
      exact hdrop 4 (Nat.le_refl 4) hlt
  | rom =>
      obtain rfl : t = 0 := ht
      rcases hasks with rfl | rfl
      · exact hdrop 4 (by decide) (by decide)
      · exact hdrop 1 (by decide) (by decide)

theorem mask_pos (hk : k < kind.width) : 2 ^ k ≤ kind.mask k := by
  have hhalf : 2 ^ (k + 1) ≤ 2 ^ kind.width := Nat.pow_le_pow_right (by decide) hk
  rw [Nat.pow_succ] at hhalf
  rw [BarKind.mask]
  omega

/-- 二つの語の和。 -/
theorem low_dvd (hlog : kind.minLog ≤ k) (hk : k < kind.width) : 2 ^ kind.minLog ∣ kind.mask k % 2 ^ 32 := by
  have hmin : kind.minLog ≤ 32 := by
    cases kind with
    | io d => exact (by decide : 2 ≤ 32)
    | mem => decide
    | mem64 d => exact (by decide : 4 ≤ 32)
    | rom => decide
  have hdvd : 2 ^ kind.minLog ∣ kind.mask k :=
    Nat.dvd_sub (Nat.pow_dvd_pow 2 (hlog.trans hk.le)) (Nat.pow_dvd_pow 2 hlog)
  exact (Nat.dvd_mod_iff (Nat.pow_dvd_pow 2 hmin)).mpr hdvd

/-- 種類の桁と番地の桁は重ならない。 -/
theorem low_ones (ht : kind.TypeBits t) (hlog : kind.minLog ≤ k) (hk : k < kind.width) :
    t ||| (kind.mask k % 2 ^ 32 + kind.enable) = kind.mask k % 2 ^ 32 + (t + kind.enable) := by
  have hlt := TypeBits_lt ht
  have hplain : kind.enable = 0 → t ||| (kind.mask k % 2 ^ 32 + kind.enable) = kind.mask k % 2 ^ 32 + (t + kind.enable) := by
    intro h0
    rw [h0, Nat.add_zero] at hlt ⊢
    rw [Nat.add_zero, or_eq_add hlt (low_dvd hlog hk), Nat.add_comm]
  cases kind with
  | io d => exact hplain rfl
  | mem => exact hplain rfl
  | mem64 d => exact hplain rfl
  | rom =>
      obtain rfl : t = 0 := ht
      rw [Nat.zero_or, Nat.zero_add]

theorem low_lt (ht : kind.TypeBits t) (hlog : kind.minLog ≤ k) (hk : k < kind.width) :
    kind.mask k % 2 ^ 32 + (t + kind.enable) < 2 ^ 32 := by
  have hlt := TypeBits_lt ht
  obtain ⟨c, hc⟩ := low_dvd hlog hk
  have hmod := Nat.mod_lt (kind.mask k) (by decide : 0 < 2 ^ 32)
  rw [hc] at hmod ⊢
  cases kind with
  | io d =>
      change t + _ < 4 at hlt
      change 4 * c < _ at hmod
      change 4 * c + _ < _
      omega
  | mem =>
      change t + _ < 16 at hlt
      change 16 * c < _ at hmod
      change 16 * c + _ < _
      omega
  | mem64 d =>
      change t + _ < 16 at hlt
      change 16 * c < _ at hmod
      change 16 * c + _ < _
      omega
  | rom =>
      change t + _ < 2048 at hlt
      change 2048 * c < _ at hmod
      change 2048 * c + _ < _
      omega

/-- 一つの語のレジスタの番地の桁は、32 桁までである。 -/
theorem mask_mod (h : kind.paired = false) : kind.mask k % 2 ^ 32 = kind.mask k := by
  have hpos := Nat.two_pow_pos k
  have hwidth : kind.width ≤ 32 := by
    cases kind with
    | io d => cases d <;> decide
    | mem => decide
    | rom => decide
    | mem64 d => cases h
  have hw2 : 2 ^ kind.width ≤ 2 ^ 32 := Nat.pow_le_pow_right (by decide) hwidth
  apply Nat.mod_eq_of_lt
  rw [BarKind.mask]
  omega

theorem windowMask_eq (hasks : kind.Asks type) (ht : kind.TypeBits t) (hlog : kind.minLog ≤ k) (hk : k < kind.width)
    {addr : Nat} (haddr : kind.paired = true → addr = kind.mask k / 2 ^ 32) :
    windowMask type kind.paired (kind.mask k % 2 ^ 32 + (t + kind.enable)) addr = 2 ^ 64 - 2 ^ k := by
  have htmp : (if kind.paired then (kind.mask k % 2 ^ 32 + (t + kind.enable)) ||| addr <<< 32 else kind.mask k % 2 ^ 32 + (t + kind.enable))
      = kind.mask k + (t + kind.enable) := by
    cases hpair : kind.paired with
    | false =>
        rw [mask_mod hpair]
        rfl
    | true =>
        rw [if_pos rfl, haddr hpair, Nat.shiftLeft_eq, or_eq_add (low_lt ht hlog hk) (Nat.dvd_mul_left _ _)]
        have := Nat.mod_add_div (kind.mask k) (2 ^ 32)
        omega
  rw [windowMask, htmp, address_mask hasks ht hlog hk]
  exact widen_mask hk

/-! ## 主定理 -/

/-- 読み戻した値から答えを決める。 -/
def sizeOf (type : WindowType) (reg64 : Bool) (cur0 cur1 cleared tmp1 tmpAddr : Nat) : Nat :=
  if (if tmp1 ≠ 0 ∧ cur0 ≠ 0 ∧ tmpAddr = cur1 then cleared else tmpAddr) = tmp1 then defaultSize
  else (2 ^ 64 - 1 - windowMask type reg64 tmp1 tmpAddr + 1) % 2 ^ 64

theorem windowSize_fst (halign : offset % 4 = 0) (h : offset + 4 < 256) :
    (windowSize check junk sp offset type reg64).1 =
      sizeOf type reg64 (sp.regs.readLE offset 4) (if reg64 then sp.regs.readLE (offset + 4) 4 else 0xffffffff)
        (withBits 32 (sp.regs.readLE offset 4) (sp.writable.readLE offset 4) 0)
        (withBits 32 (sp.regs.readLE offset 4) (sp.writable.readLE offset 4) (sp.writable.readLE offset 4))
        (if reg64 then withBits 32 (sp.regs.readLE (offset + 4) 4) (sp.writable.readLE (offset + 4) 4) (sp.writable.readLE (offset + 4) 4)
          else 0xffffffff) := by
  have hoff : offset < 256 := by omega
  have hle : 4 ≤ windowBytes reg64 := by cases reg64 <;> decide
  have hcur1 : (if reg64 then read32 check sp (offset + 4) 0xffffffff else 0xffffffff)
      = if reg64 then sp.regs.readLE (offset + 4) 4 else 0xffffffff := by
    rw [read32_eq (by omega) h]
  have hhigh : (if reg64 then read32 check (sp.put offset (windowBytes reg64) fun _ => 0xff) (offset + 4) 0xffffffff else 0xffffffff)
      = if reg64 then withBits 32 (sp.regs.readLE (offset + 4) 4) (sp.writable.readLE (offset + 4) 4) (sp.writable.readLE (offset + 4) 4)
          else 0xffffffff := by
    cases reg64 with
    | false => rfl
    | true => rw [if_pos rfl, if_pos rfl, read32_eq (by omega) h, readLE_ones ⟨by omega, Nat.le_refl _⟩]
  rw [windowSize, sizeOf]
  dsimp only
  rw [writeOnes_eq halign h, read32_eq halign hoff, read32_eq halign hoff, readLE_ones ⟨Nat.le_refl _, by omega⟩, hcur1, hhigh]
  by_cases hfixed : withBits 32 (sp.regs.readLE offset 4) (sp.writable.readLE offset 4) (sp.writable.readLE offset 4) ≠ 0 ∧
      sp.regs.readLE offset 4 ≠ 0 ∧
      (if reg64 then withBits 32 (sp.regs.readLE (offset + 4) 4) (sp.writable.readLE (offset + 4) 4) (sp.writable.readLE (offset + 4) 4)
        else 0xffffffff) = (if reg64 then sp.regs.readLE (offset + 4) 4 else 0xffffffff)
  · rw [if_pos hfixed, if_pos hfixed, if_pos hfixed, write32_eq halign hoff, read32_eq halign hoff, readLE_zeros]
  · rw [if_neg hfixed, if_neg hfixed]

/-- 上の語のすべての桁が立った、4 GB 以上の 64 ビットの窓。 -/
def TopAddress (sp : Space) (offset : Nat) (kind : BarKind) (k : Nat) : Prop :=
  kind.paired = true ∧ 32 ≤ k ∧ sp.regs.readLE (offset + 4) 4 = kind.mask k / 2 ^ 32

/-- 一つの語のレジスタでは、特別な場合に当たらない。 -/
theorem single_ne (hpair : kind.paired = false) (ht : kind.TypeBits t) (hlog : kind.minLog ≤ k) (hk : k < kind.width) {cur0 : Nat} :
    (if kind.mask k % 2 ^ 32 + (t + kind.enable) ≠ 0 ∧ cur0 ≠ 0 ∧ 0xffffffff = 0xffffffff then t else 0xffffffff)
      ≠ kind.mask k % 2 ^ 32 + (t + kind.enable) := by
  have hmask := mask_pos hk
  have hpos := Nat.two_pow_pos k
  have hmod := mask_mod (k := k) hpair
  obtain ⟨c, hc⟩ := low_dvd hlog hk
  split
  · omega
  · rw [hc]
    cases kind with
    | io d =>
        obtain rfl : t = 1 := ht
        change _ ≠ 4 * c + (1 + 0)
        omega
    | mem =>
        change _ ≠ 16 * c + (t + 0)
        rcases ht with rfl | rfl | rfl | rfl
        all_goals omega
    | rom =>
        obtain rfl : t = 0 := ht
        change _ ≠ 2048 * c + (0 + 1)
        omega
    | mem64 d => cases hpair

/-- 下の語に番地の桁がないのは、4 GB 以上の窓に限る。 -/
theorem mask_mod_eq_zero_iff (hpair : kind.paired = true) (hk : k < kind.width) : kind.mask k % 2 ^ 32 = 0 ↔ 32 ≤ k := by
  have hwidth : 32 ≤ kind.width := by
    cases kind with
    | io d => cases hpair
    | mem => cases hpair
    | rom => cases hpair
    | mem64 d => cases d <;> decide
  have hle : 2 ^ k ≤ 2 ^ kind.width := Nat.pow_le_pow_right (by decide) hk.le
  have hdvd : 2 ^ 32 ∣ 2 ^ kind.width := Nat.pow_dvd_pow 2 hwidth
  constructor
  · intro h0
    by_contra hlow
    have hsmall : 2 ^ k < 2 ^ 32 := Nat.pow_lt_pow_right (by decide) (Nat.not_le.mp hlow)
    have hsub : 2 ^ 32 ∣ 2 ^ k := (Nat.dvd_sub_iff_right hle hdvd).mp (Nat.dvd_of_mod_eq_zero h0)
    exact absurd (Nat.le_of_dvd (Nat.two_pow_pos k) hsub) (Nat.not_le.mpr hsmall)
  · intro hhigh
    exact Nat.mod_eq_zero_of_dvd (Nat.dvd_sub hdvd (Nat.pow_dvd_pow 2 hhigh))

/-- 上の語の桁は、下の語の値と等しくない。 -/
theorem high_ne (hpair : kind.paired = true) (ht : kind.TypeBits t) (hlog : kind.minLog ≤ k) (hk : k < kind.width) :
    kind.mask k / 2 ^ 32 ≠ kind.mask k % 2 ^ 32 + (t + kind.enable) := by
  have hpos := Nat.two_pow_pos k
  obtain ⟨c, hc⟩ := low_dvd hlog hk
  have hzero := mask_mod_eq_zero_iff hpair hk
  cases kind with
  | io d => cases hpair
  | mem => cases hpair
  | rom => cases hpair
  | mem64 d =>
      by_cases hlow : 32 ≤ k
      · rw [hzero.mpr hlow]
        change _ ≠ 0 + (t + 0)
        cases d with
        | true =>
            change (2 ^ 64 - 2 ^ k) / 2 ^ 32 ≠ _
            have hhalf : 2 ^ k ≤ 2 ^ 63 := Nat.pow_le_pow_right (by decide) (Nat.le_of_lt_succ hk)
            rcases ht with rfl | rfl
            all_goals omega
        | false =>
            change k < 40 at hk
            change (2 ^ 40 - 2 ^ k) / 2 ^ 32 ≠ _
            rcases ht with rfl | rfl
            all_goals (interval_cases k <;> decide)
      · have hhalf : 2 ^ k ≤ 2 ^ 31 := Nat.pow_le_pow_right (by decide) (by omega)
        rw [hc]
        change _ ≠ 16 * c + (t + 0)
        cases d with
        | true =>
            change (2 ^ 64 - 2 ^ k) / 2 ^ 32 ≠ _
            rcases ht with rfl | rfl
            all_goals omega
        | false =>
            change (2 ^ 40 - 2 ^ k) / 2 ^ 32 ≠ _
            rcases ht with rfl | rfl
            all_goals omega

/-- 読み戻した値から求めた大きさ。 -/
theorem size_of_mask (hasks : kind.Asks type) (ht : kind.TypeBits t) (hlog : kind.minLog ≤ k) (hk : k < kind.width)
    {addr : Nat} (haddr : kind.paired = true → addr = kind.mask k / 2 ^ 32) :
    (2 ^ 64 - 1 - windowMask type kind.paired (kind.mask k % 2 ^ 32 + (t + kind.enable)) addr + 1) % 2 ^ 64 = 2 ^ k := by
  have hpos := Nat.two_pow_pos k
  have hlt : 2 ^ k < 2 ^ 64 := Nat.pow_lt_pow_right (by decide) (hk.trans_le (width_le kind))
  rw [windowMask_eq hasks ht hlog hk haddr]
  omega

theorem sizeOf_single (hpair : kind.paired = false) (hasks : kind.Asks type) (ht : kind.TypeBits t) (hlog : kind.minLog ≤ k)
    (hk : k < kind.width) (cur0 : Nat) :
    sizeOf type kind.paired cur0 0xffffffff t (kind.mask k % 2 ^ 32 + (t + kind.enable)) 0xffffffff = 2 ^ k := by
  rw [sizeOf, if_neg (single_ne hpair ht hlog hk)]
  exact size_of_mask hasks ht hlog hk fun h => absurd (hpair.symm.trans h) Bool.false_ne_true

theorem sizeOf_pair (hpair : kind.paired = true) (hasks : kind.Asks type) (ht : kind.TypeBits t) (hlog : kind.minLog ≤ k)
    (hk : k < kind.width) {cur0 cur1 : Nat} (hcur0 : cur0 ≠ 0) :
    sizeOf type kind.paired cur0 cur1 t (kind.mask k % 2 ^ 32 + (t + kind.enable)) (kind.mask k / 2 ^ 32) = 2 ^ k ↔
      ¬ (32 ≤ k ∧ cur1 = kind.mask k / 2 ^ 32) := by
  have htype : t ≠ 0 := by
    cases kind with
    | io d => cases hpair
    | mem => cases hpair
    | rom => cases hpair
    | mem64 d => rcases ht with rfl | rfl <;> decide
  have henable : kind.enable = 0 := by
    cases kind with
    | io d => rfl
    | mem => rfl
    | mem64 d => rfl
    | rom => cases hpair
  have hsize := @size_of_mask _ _ _ _ hasks ht hlog hk (kind.mask k / 2 ^ 32) fun _ => rfl
  by_cases hfixed : kind.mask k % 2 ^ 32 + (t + kind.enable) ≠ 0 ∧ cur0 ≠ 0 ∧ kind.mask k / 2 ^ 32 = cur1
  · rw [sizeOf, if_pos hfixed]
    have htop := hfixed.2.2
    by_cases hhigh : 32 ≤ k
    · have hwrong : defaultSize ≠ 2 ^ k := by
        have : 2 ^ 32 ≤ 2 ^ k := Nat.pow_le_pow_right (by decide) hhigh
        unfold defaultSize
        omega
      rw [(mask_mod_eq_zero_iff hpair hk).mpr hhigh, henable, if_pos (by omega)]
      exact ⟨fun h => absurd h hwrong, fun h => absurd ⟨hhigh, htop.symm⟩ h⟩
    · have hne := mt (mask_mod_eq_zero_iff hpair hk).mp hhigh
      rw [if_neg (by omega), hsize]
      exact ⟨fun _ h => hhigh h.1, fun _ => rfl⟩
  · rw [sizeOf, if_neg hfixed, if_neg (high_ne hpair ht hlog hk), hsize]
    exact ⟨fun _ h => hfixed ⟨by omega, hcur0, h.2.symm⟩, fun _ => rfl⟩

/-- `window_size()` はレジスタを元に戻す。規格に従うレジスタの大きさを正しく返すのは、4 GB 以上の 64 ビットの窓に、上の語のすべての桁が
立った番地があるときを除いたすべてのときである。番地のないレジスタの大きさは 0 とする。 -/
theorem window_size_iff (check : PciexCheck) (junk : Nat) (halign : offset % 4 = 0) (h : offset + 4 < 256) :
    (∀ type, Unimplemented sp offset → windowSize check junk sp offset type false = (0, sp)) ∧
    ∀ kind k t type, Register sp offset kind k t → kind.Asks type →
      (windowSize check junk sp offset type kind.paired = (2 ^ k, sp) ↔ ¬ TopAddress sp offset kind k) := by
  constructor
  · rintro type ⟨hregs, hmask⟩
    refine Prod.ext ?_ (windowSize_restores halign h)
    rw [windowSize_fst halign h, hregs, hmask]
    change sizeOf type false 0 0xffffffff (withBits 32 0 0 0) (withBits 32 0 0 0) 0xffffffff = 0
    cases type <;> decide
  · intro kind k t type hr hasks
    have hlow : withBits 32 (sp.regs.readLE offset 4) (sp.writable.readLE offset 4) (sp.writable.readLE offset 4)
        = kind.mask k % 2 ^ 32 + (t + kind.enable) := by
      rw [withBits, hr.low, hr.lowMask, low_ones hr.type hr.log hr.bits]
    have hclear : withBits 32 (sp.regs.readLE offset 4) (sp.writable.readLE offset 4) 0 = t := by
      rw [withBits, hr.low, Nat.or_zero]
    have hpair : windowSize check junk sp offset type kind.paired = (2 ^ k, sp) ↔
        (windowSize check junk sp offset type kind.paired).1 = 2 ^ k :=
      ⟨fun heq => congrArg Prod.fst heq, fun heq => Prod.ext heq (windowSize_restores halign h)⟩
    rw [hpair, windowSize_fst halign h, hlow, hclear, TopAddress]
    cases hkind : kind.paired with
    | false =>
        have hsize := sizeOf_single hkind hasks hr.type hr.log hr.bits (sp.regs.readLE offset 4)
        rw [hkind] at hsize
        exact iff_of_true hsize fun htop => Bool.false_ne_true htop.1
    | true =>
        have hhigh : withBits 32 (sp.regs.readLE (offset + 4) 4) (sp.writable.readLE (offset + 4) 4)
            (sp.writable.readLE (offset + 4) 4) = kind.mask k / 2 ^ 32 := by
          rw [withBits, hr.high hkind, Nat.zero_or, hr.highMask hkind]
        have hcur0 : sp.regs.readLE offset 4 ≠ 0 := by
          intro h0
          have hzero := hr.low
          rw [h0, Nat.zero_and] at hzero
          have htype := hr.type
          cases kind with
          | io d => cases hkind
          | mem => cases hkind
          | rom => cases hkind
          | mem64 d => rcases htype with rfl | rfl <;> cases hzero
        have hsize := @sizeOf_pair _ _ _ _ hkind hasks hr.type hr.log hr.bits _ (sp.regs.readLE (offset + 4) 4) hcur0
        rw [hkind] at hsize
        rw [if_pos rfl, if_pos rfl, hhigh, hsize]
        exact not_congr (and_iff_right rfl).symm

/-- 番地 `0x10` に、4 GB の、40 桁の 64 ビットの窓をもつ設定空間。上の語の番地は `upper` である。 -/
def wideSpace (upper : UInt8) : Space :=
  { size := 256, size_eq := plainSize
    regs := fun x => if x = 0x10 then 4 else if x = 0x14 then upper else 0
    writable := fun x => if x = 0x14 then 0xff else 0 }

theorem wideSpace_register (upper : UInt8) (h : upper = 0xff ∨ upper = 0) : Register (wideSpace upper) 0x10 (.mem64 false) 32 4 := by
  rcases h with rfl | rfl
  all_goals
    refine ⟨by decide, by decide, Or.inl rfl, ?_, ?_, fun _ => ?_, fun _ => ?_⟩
    all_goals decide

theorem window_size_iff_sample :
    windowSize (fun _ _ => .ok ()) 0 (wideSpace 0) 0x10 .mem true = (2 ^ 32, wideSpace 0) :=
  ((window_size_iff (fun _ _ => .ok ()) 0 (by decide) (by decide)).2 _ _ _ .mem (wideSpace_register 0 (Or.inr rfl)) rfl).mpr
    fun h => absurd h.2.2 (by decide)

/-- 上の語のすべての桁が立った窓の大きさは、256 になる。 -/
theorem window_size_default :
    Register (wideSpace 0xff) 0x10 (.mem64 false) 32 4 ∧
      (windowSize (fun _ _ => .ok ()) 0 (wideSpace 0xff) 0x10 .mem true).1 = 256 :=
  ⟨wideSpace_register 0xff (Or.inl rfl), by decide⟩

end Imx6Bsp.Pci
