import Imx6Bsp.Devb.Partition
import Imx6Bsp.Lib.Words

/-!
# CSD の容量

MMC の容量はいつも正しい。SD の容量は、塊が 512 バイトより小さい版 1 と、`C_SIZE` が最大の版 2 で誤る。
-/

namespace Imx6Bsp.Devb

open Imx6Bsp.Lib

section

variable {csd : BitVec 128} {q : Resp} {d : Ident} {version : Version}

/-! ## 応答のずらし -/

theorem shiftWord {a b : BitVec 32} : (a <<< 8 ||| b >>> 24).toNat = a.toNat * 2 ^ 8 % 2 ^ 32 + b.toNat / 2 ^ 24 := by
  have hb : b.toNat / 2 ^ 24 < 2 ^ 8 := by have := b.isLt; omega
  rw [BitVec.toNat_or, BitVec.toNat_shiftLeft, BitVec.toNat_ushiftRight, Nat.shiftLeft_eq, Nat.shiftRight_eq_div_pow, Nat.or_comm,
    or_eq_add hb (by omega), Nat.add_comm]

/-- ずらした応答は、CSD の三つの語である。 -/
theorem shift_words (h : HoldsCsd csd q) :
    (mx35Shift q).r1.toNat = csd.toNat / 2 ^ 32 % 2 ^ 32 ∧ (mx35Shift q).r2.toNat = csd.toNat / 2 ^ 64 % 2 ^ 32 ∧
      (mx35Shift q).r3.toNat = csd.toNat / 2 ^ 96 % 2 ^ 32 := by
  have h0 := h.r0
  have h1 := h.r1
  have h2 := h.r2
  have h3 := h.r3
  have hcsd := csd.isLt
  refine ⟨?_, ?_, ?_⟩
  · rw [mx35Shift, shiftWord]
    omega
  · rw [mx35Shift, shiftWord]
    omega
  · rw [mx35Shift, shiftWord]
    omega

/-- 語の欄は、CSD の欄である。 -/
theorem field_of_word {w : BitVec 32} {k lo n : Nat} (hw : w.toNat = csd.toNat / 2 ^ k % 2 ^ 32) (hfit : lo + n ≤ 32) :
    bits w lo n = csdField csd (k + lo) n := by
  rw [bits, csdField, hw, Nat.pow_add, ← Nat.div_div_eq_div_mul]
  generalize csd.toNat / 2 ^ k = x
  obtain ⟨m, hm⟩ := Nat.exists_eq_add_of_le hfit
  rw [hm, Nat.add_assoc, Nat.pow_add, Nat.mod_mul_right_div_self, Nat.pow_add, Nat.mod_mul_right_mod]

/-- 隣り合う二つの欄。 -/
theorem field_join (lo m n : Nat) : csdField csd (lo + m) n * 2 ^ m + csdField csd lo m = csdField csd lo (m + n) := by
  rw [csdField, csdField, csdField, Nat.pow_add 2 lo m, ← Nat.div_div_eq_div_mul, Nat.pow_add 2 m n, Nat.mod_mul, Nat.add_comm,
    Nat.mul_comm]

/-! ## 塊の大きさ -/

theorem csdField_lt (lo n : Nat) : csdField csd lo n < 2 ^ n := Nat.mod_lt _ (Nat.two_pow_pos n)

/-- 512 にそろえても、積は変わらない。 -/
theorem forceBlock_spec {csize k : Nat} (hc : csize ≤ 2 ^ 12) (hk : k < 16) :
    (forceBlock csize (2 ^ k)).1 * (forceBlock csize (2 ^ k)).2 = csize * 2 ^ k ∧ (forceBlock csize (2 ^ k)).1 ≤ 2 ^ 18 ∧
      (forceBlock csize (2 ^ k)).2 = 2 ^ min k 9 := by
  by_cases hbig : 9 < k
  · obtain ⟨j, rfl⟩ := Nat.exists_eq_add_of_lt hbig
    have hsplit : 2 ^ (9 + j + 1) = 2 ^ (j + 1) * mmcDfltBlksize := by rw [Nat.add_assoc, Nat.pow_add, Nat.mul_comm]; rfl
    have hts : 2 ^ (j + 1) ≤ 2 ^ 6 := Nat.pow_le_pow_right (by decide) (by omega)
    have htwo : 2 ^ 1 ≤ 2 ^ (j + 1) := Nat.pow_le_pow_right (by decide) (by omega)
    have hprod : csize * 2 ^ (j + 1) ≤ 2 ^ 12 * 2 ^ 6 := Nat.mul_le_mul hc hts
    have hdiv : 2 ^ (j + 1) * mmcDfltBlksize / mmcDfltBlksize = 2 ^ (j + 1) := Nat.mul_div_cancel _ (by decide)
    have hsize : 2 ^ (j + 1) * mmcDfltBlksize / 2 ^ (j + 1) = 2 ^ 9 := Nat.mul_div_cancel_left _ (Nat.two_pow_pos _)
    have hmore : 2 ^ (j + 1) * mmcDfltBlksize > mmcDfltBlksize ∧ 2 ^ (j + 1) * mmcDfltBlksize % mmcDfltBlksize = 0 :=
      ⟨by unfold mmcDfltBlksize; omega, Nat.mul_mod_left _ _⟩
    have hnowrap : csize * 2 ^ (j + 1) % 2 ^ 32 = csize * 2 ^ (j + 1) := Nat.mod_eq_of_lt (by omega)
    have hmin : min (9 + j + 1) 9 = 9 := by omega
    rw [hsplit, forceBlock, if_pos hmore]
    dsimp only
    rw [hdiv, hsize, hnowrap, hmin]
    exact ⟨Nat.mul_assoc _ _ _, hprod, rfl⟩
  · have hle : 2 ^ k ≤ 2 ^ 9 := Nat.pow_le_pow_right (by decide) (Nat.not_lt.mp hbig)
    rw [forceBlock, if_neg fun h => absurd h.1 (Nat.not_lt.mpr hle), Nat.min_eq_left (Nat.not_lt.mp hbig)]
    exact ⟨rfl, hc.trans (by decide), rfl⟩

/-- 一周しない積。 -/
theorem blocks_nowrap {n m : Nat} (hn : n ≤ 2 ^ 18) (hm : m < 8) : n * 2 ^ (m + 2) % 2 ^ 32 = n * 2 ^ (m + 2) := by
  have hpow : 2 ^ (m + 2) ≤ 2 ^ 9 := Nat.pow_le_pow_right (by decide) (by omega)
  have hprod : n * 2 ^ (m + 2) ≤ 2 ^ 18 * 2 ^ 9 := Nat.mul_le_mul hn hpow
  exact Nat.mod_eq_of_lt (hprod.trans_lt (by decide))

/-! ## 読み取った欄 -/

theorem mmc_fields (h : HoldsCsd csd q) (old : MmcCsd) :
    (parseMmcCsd old (mx35Shift q)).cSize = csdField csd 62 12 ∧ (parseMmcCsd old (mx35Shift q)).cSizeMult = csdField csd 47 3 ∧
      (parseMmcCsd old (mx35Shift q)).readBlLen = csdField csd 80 4 := by
  obtain ⟨h1, h2, -⟩ := shift_words h
  refine ⟨?_, ?_, ?_⟩
  · rw [← field_join 62 2 10, ← field_of_word h2 (by decide : 0 + 10 ≤ 32), ← field_of_word h1 (by decide : 30 + 2 ≤ 32)]
    rfl
  · exact field_of_word h1 (by decide)
  · exact field_of_word h2 (by decide)

theorem sd_fields (h : HoldsCsd csd q) :
    (parseSdCsd (mx35Shift q)).readBlLen = csdField csd 80 4 ∧
      (csdField csd 126 2 = 0 → ∃ a b c e, (parseSdCsd (mx35Shift q)).size = .ver1 (csdField csd 62 12) a b c e (csdField csd 47 3)) ∧
      (csdField csd 126 2 ≠ 0 → (parseSdCsd (mx35Shift q)).size = .ver2 (csdField csd 48 22)) := by
  obtain ⟨h1, h2, h3⟩ := shift_words h
  have hstructure : bits (mx35Shift q).r3 30 2 = csdField csd 126 2 := field_of_word h3 (by decide)
  refine ⟨field_of_word h2 (by decide), fun hzero => ⟨bits (mx35Shift q).r1 27 3, bits (mx35Shift q).r1 24 3,
    bits (mx35Shift q).r1 21 3, bits (mx35Shift q).r1 18 3, ?_⟩, fun hone => ?_⟩
  · rw [← field_join 62 2 10, ← field_of_word h2 (by decide : 0 + 10 ≤ 32), ← field_of_word h1 (by decide : 30 + 2 ≤ 32),
      ← field_of_word h1 (by decide : 15 + 3 ≤ 32)]
    exact if_pos (hstructure.trans hzero)
  · rw [← field_join 48 16 6, ← field_of_word h2 (by decide : 0 + 6 ≤ 32), ← field_of_word h1 (by decide : 16 + 16 ≤ 32)]
    exact if_neg fun hzero => hone (hstructure.symm.trans hzero)

/-! ## 容量 -/

theorem mmc_capacity (h : HoldsCsd csd q) (old : MmcCsd) :
    (parseMmcCsd old (mx35Shift q)).capacity.1 * (parseMmcCsd old (mx35Shift q)).capacity.2 = csdBytes csd := by
  obtain ⟨hsize, hmult, hlen⟩ := mmc_fields h old
  obtain ⟨hprod, hle, -⟩ := forceBlock_spec (Nat.succ_le_of_lt (csdField_lt 62 12 : csdField csd 62 12 < 2 ^ 12))
    (csdField_lt 80 4 : csdField csd 80 4 < 2 ^ 4)
  rw [MmcCsd.capacity, hsize, hmult, hlen]
  dsimp only
  rw [blocks_nowrap hle (csdField_lt 47 3), csdBytes, Nat.mul_right_comm, hprod]
  exact Nat.mul_right_comm _ _ _

theorem sd1_capacity (h : HoldsCsd csd q) (hzero : csdField csd 126 2 = 0) :
    (parseSdCsd (mx35Shift q)).capacity * mmcDfltBlksize = csdBytes csd ↔ 9 ≤ csdField csd 80 4 := by
  obtain ⟨hlen, hver, -⟩ := sd_fields h
  obtain ⟨a, b, c, e, hsize⟩ := hver hzero
  obtain ⟨hprod, hle, hblock⟩ := forceBlock_spec (Nat.succ_le_of_lt (csdField_lt 62 12 : csdField csd 62 12 < 2 ^ 12))
    (csdField_lt 80 4 : csdField csd 80 4 < 2 ^ 4)
  rw [SdCsd.capacity, hsize, hlen]
  dsimp only
  rw [blocks_nowrap hle (csdField_lt 47 3), csdBytes, Nat.mul_right_comm, Nat.mul_right_comm (_ + 1), Nat.mul_left_inj (Nat.two_pow_pos _).ne',
    ← hprod]
  have hpos : 0 < (forceBlock (csdField csd 62 12 + 1) (2 ^ csdField csd 80 4)).1 := by
    refine Nat.pos_of_mul_pos_right (a := _) (b := (forceBlock (csdField csd 62 12 + 1) (2 ^ csdField csd 80 4)).2) ?_
    rw [hprod]
    exact Nat.mul_pos (Nat.succ_pos _) (Nat.two_pow_pos _)
  rw [Nat.mul_right_inj hpos.ne', hblock]
  constructor
  · intro heq
    have hmin : 9 = min (csdField csd 80 4) 9 := Nat.pow_right_injective (Nat.le_refl 2) heq
    omega
  · intro hge
    rw [Nat.min_eq_right hge]
    rfl

theorem sd2_capacity (h : HoldsCsd csd q) (hone : csdField csd 126 2 ≠ 0) :
    (parseSdCsd (mx35Shift q)).capacity * mmcDfltBlksize = (csdField csd 48 22 + 1) * (512 * 1024) ↔
      csdField csd 48 22 ≠ 2 ^ 22 - 1 := by
  obtain ⟨-, -, hver⟩ := sd_fields h
  have hlt : csdField csd 48 22 < 2 ^ 22 := csdField_lt 48 22
  rw [SdCsd.capacity, hver hone, mmcDfltBlksize]
  dsimp only
  omega

end

/-- 容量が正しいのは、MMC であるか、SD の版 1 で塊が 512 バイト以上か、SD の版 2 で `C_SIZE` が最大でないときである。 -/
theorem csd_capacity_iff {csd : BitVec 128} {q : Resp} (h : HoldsCsd csd q) (d : Ident) (version : Version) :
    (∀ bytes ∈ csdCapacity version csd,
      ((d.parseCsd version (mx35Shift q)).partitions 0).nlba * (d.parseCsd version (mx35Shift q)).transferSize version = bytes) ↔
      (version ≠ .mmc1 → (csdField csd 126 2 = 0 → 9 ≤ csdField csd 80 4) ∧ (csdField csd 126 2 = 1 → csdField csd 48 22 ≠ 2 ^ 22 - 1)) := by
  by_cases hmmc : version = .mmc1
  · have hprod := mmc_capacity h d.mmcCsd
    rw [csdCapacity, if_pos (Or.inl hmmc), Ident.parseCsd, if_pos hmmc, Ident.transferSize, if_pos hmmc]
    refine iff_of_true (fun bytes hbytes => ?_) fun hne => absurd hmmc hne
    cases hbytes
    exact hprod
  · rw [Ident.parseCsd, if_neg hmmc, Ident.transferSize, if_neg hmmc, csdCapacity]
    have hnlba : ((d.parseSd (mx35Shift q)).partitions 0).nlba = (parseSdCsd (mx35Shift q)).capacity := rfl
    rw [hnlba]
    by_cases hzero : csdField csd 126 2 = 0
    · rw [if_pos (Or.inr hzero)]
      constructor
      · intro hall _
        refine ⟨fun _ => (sd1_capacity h hzero).mp (hall _ rfl), fun hone => ?_⟩
        rw [hzero] at hone
        cases hone
      · intro hcond bytes hbytes
        cases hbytes
        exact (sd1_capacity h hzero).mpr ((hcond hmmc).1 hzero)
    · rw [if_neg fun hor => hor.elim hmmc hzero]
      by_cases hone : csdField csd 126 2 = 1
      · rw [if_pos hone]
        constructor
        · intro hall _
          exact ⟨fun h0 => absurd h0 hzero, fun _ => (sd2_capacity h hzero).mp (hall _ rfl)⟩
        · intro hcond bytes hbytes
          cases hbytes
          exact (sd2_capacity h hzero).mpr ((hcond hmmc).2 hone)
      · rw [if_neg hone]
        refine iff_of_true (fun bytes hbytes => by cases hbytes) fun _ => ⟨fun h0 => absurd h0 hzero, fun h1 => absurd h1 hone⟩

/-- すべての欄が 0 の、応答のレジスタ。 -/
theorem holdsCsd_zero : HoldsCsd 0 {} := ⟨rfl, rfl, rfl, rfl⟩

theorem csd_capacity_iff_sample : csdCapacity .mmc1 0 = some 4 ∧
    ((({} : Ident).parseCsd .mmc1 (mx35Shift {})).partitions 0).nlba * (({} : Ident).parseCsd .mmc1 (mx35Shift {})).transferSize .mmc1 = 4 := by
  have hcap : csdCapacity .mmc1 0 = some 4 := by decide
  exact ⟨hcap, (csd_capacity_iff holdsCsd_zero {} .mmc1).mpr (fun h => absurd rfl h) 4 hcap⟩

/-- 版 1 の、塊が 1 バイトの SD は、512 倍の容量になる。 -/
theorem sd_capacity_wrong : HoldsCsd 0 {} ∧ csdCapacity .sd1 0 = some 4 ∧
    ((({} : Ident).parseCsd .sd1 (mx35Shift {})).partitions 0).nlba * (({} : Ident).parseCsd .sd1 (mx35Shift {})).transferSize .sd1 ≠ 4 := by
  refine ⟨holdsCsd_zero, by decide, by decide⟩

end Imx6Bsp.Devb
