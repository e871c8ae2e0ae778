import Imx6Bsp.Boot.Theorems.Sdmmc

/-!
# SD と MMC の読み出し

容量は、512 バイトより小さいブロックのカードと、2 TiB の 2.0 版のカードでだけ失われる。読み出しは、個数と番地が欄に収まり、
覚えている状態が `MMC_TRAN` でないときに限り、正しく終わる。
-/

namespace Imx6Bsp.Boot.Sd

open Imx6Bsp.Lib

/-! ## CSD の欄 -/

theorem rspWord_succ (csd : BitVec 128) (i : Nat) : rspWord csd (i + 1) = csd.extractLsb' (32 * (i + 1)) 32 := by
  refine BitVec.eq_of_getLsbD_eq fun k hk => ?_
  simp only [rspWord, cmdRsp, BitVec.getLsbD_or, BitVec.getLsbD_shiftLeft, BitVec.getLsbD_ushiftRight, BitVec.getLsbD_extractLsb', hk]
  by_cases h8 : k < 8
  · have h1 : 24 + k < 32 := by omega
    simp [h8, h1, show 8 + 32 * i + (24 + k) = 32 * (i + 1) + k by omega]
  · have h2 : k - 8 < 32 := by omega
    have h3 : ¬ 24 + k < 32 := by omega
    simp [h8, h2, h3, show 8 + 32 * (i + 1) + (k - 8) = 32 * (i + 1) + k by omega]

theorem toNat_extractLsb' {n : Nat} (x : BitVec n) (lo k : Nat) : (x.extractLsb' lo k).toNat = x.toNat / 2 ^ lo % 2 ^ k := by
  rw [BitVec.extractLsb'_toNat, Nat.shiftRight_eq_div_pow]

theorem readBlLen_toNat (csd : BitVec 128) : (readBlLen (rspWord csd)).toNat = csdField csd 80 4 := by
  rw [readBlLen, rspWord_succ, csdField, BitVec.toNat_and, BitVec.toNat_ushiftRight, toNat_extractLsb', toNat_extractLsb',
    Nat.shiftRight_eq_div_pow]
  rw [show (0x0f : BitVec 32).toNat = 2 ^ 4 - 1 from rfl, Nat.and_two_pow_sub_one_eq_mod]
  omega

theorem rspWord_toNat (csd : BitVec 128) (i : Nat) : (rspWord csd (i + 1)).toNat = csd.toNat / 2 ^ (32 * (i + 1)) % 2 ^ 32 := by
  rw [rspWord_succ, toNat_extractLsb']

theorem csdStructure_toNat (csd : BitVec 128) : (csdStructure (rspWord csd)).toNat = csdField csd 126 2 := by
  rw [csdStructure, csdField, BitVec.toNat_ushiftRight, rspWord_toNat, toNat_extractLsb', Nat.shiftRight_eq_div_pow]
  omega

theorem cSizeMult_toNat (csd : BitVec 128) : (cSizeMult (rspWord csd)).toNat = csdField csd 47 3 := by
  rw [cSizeMult, csdField, BitVec.toNat_and, BitVec.toNat_ushiftRight, rspWord_toNat, toNat_extractLsb', Nat.shiftRight_eq_div_pow,
    show (0x07 : BitVec 32).toNat = 2 ^ 3 - 1 from rfl, Nat.and_two_pow_sub_one_eq_mod]
  omega

theorem cSizeVer1_toNat (csd : BitVec 128) : (cSizeVer1 (rspWord csd)).toNat = csdField csd 62 12 := by
  have hlow : csd.toNat / 2 ^ 32 % 2 ^ 32 / 2 ^ 30 < 2 ^ 2 := by omega
  rw [cSizeVer1, csdField, BitVec.toNat_or, BitVec.toNat_shiftLeft, BitVec.toNat_and, BitVec.toNat_ushiftRight, rspWord_toNat, rspWord_toNat,
    toNat_extractLsb', Nat.shiftRight_eq_div_pow, show (0x3ff : BitVec 32).toNat = 2 ^ 10 - 1 from rfl, Nat.and_two_pow_sub_one_eq_mod,
    Nat.mod_eq_of_lt (show (csd.toNat / 2 ^ (32 * (1 + 1)) % 2 ^ 32 % 2 ^ 10) <<< 2 < 2 ^ 32 by rw [Nat.shiftLeft_eq]; omega),
    ← Nat.shiftLeft_add_eq_or_of_lt hlow, Nat.shiftLeft_eq]
  omega

theorem cSizeVer2_toNat (csd : BitVec 128) : (cSizeVer2 (rspWord csd)).toNat = csdField csd 48 22 := by
  have hlow : csd.toNat / 2 ^ 32 % 2 ^ 32 / 2 ^ 16 < 2 ^ 16 := by omega
  rw [cSizeVer2, csdField, BitVec.toNat_or, BitVec.toNat_shiftLeft, BitVec.toNat_and, BitVec.toNat_ushiftRight, rspWord_toNat, rspWord_toNat,
    toNat_extractLsb', Nat.shiftRight_eq_div_pow, show (0x3f : BitVec 32).toNat = 2 ^ 6 - 1 from rfl, Nat.and_two_pow_sub_one_eq_mod,
    Nat.mod_eq_of_lt (show (csd.toNat / 2 ^ (32 * (1 + 1)) % 2 ^ 32 % 2 ^ 6) <<< 16 < 2 ^ 32 by rw [Nat.shiftLeft_eq]; omega),
    ← Nat.shiftLeft_add_eq_or_of_lt hlow, Nat.shiftLeft_eq]
  omega

/-! ## 容量 -/

section

variable {size num mult : BitVec 32} {b : Nat}

theorem one_shiftLeft_toNat {x : BitVec 32} (h : x.toNat < 32) : ((1 : BitVec 32) <<< x).toNat = 2 ^ x.toNat := by
  have hlt : 2 ^ x.toNat < 2 ^ 32 := Nat.pow_lt_pow_right (by decide) h
  rw [BitVec.shiftLeft_eq', BitVec.toNat_shiftLeft, Nat.shiftLeft_eq, show (1 : BitVec 32).toNat = 1 from rfl, Nat.one_mul, Nat.mod_eq_of_lt hlt]

theorem blockSize_toNat : blockSize.toNat = 512 := rfl

/-- 512 バイトのブロックへの換算は、桁があふれない。 -/
theorem rescale_toNat (hsize : size.toNat = 2 ^ b) (hb : b < 16) (hnum : num.toNat ≤ 4096) (hmult : mult.toNat ≤ 512) :
    (rescale ⟨size, num * mult⟩).blkNum.toNat = num.toNat * mult.toNat * (2 ^ b / 512) := by
  have hprod : num.toNat * mult.toNat ≤ 4096 * 512 := Nat.mul_le_mul hnum hmult
  have hpow : 2 ^ b ≤ 2 ^ 15 := Nat.pow_le_pow_right (by decide) (by omega)
  have hratio : 2 ^ b / 512 ≤ 64 := by omega
  have htotal : num.toNat * mult.toNat * (2 ^ b / 512) ≤ 4096 * 512 * 64 := Nat.mul_le_mul hprod hratio
  rw [rescale, BitVec.toNat_mul, BitVec.toNat_mul, BitVec.toNat_udiv, hsize, blockSize_toNat,
    Nat.mod_eq_of_lt (show num.toNat * mult.toNat < 2 ^ 32 by omega), Nat.mod_eq_of_lt (by omega)]

theorem forceBlock_toNat (hsize : size.toNat = 2 ^ b) (hb : b < 16) (hnum : num.toNat ≤ 4096) (hmult : mult.toNat ≤ 512) :
    (rescale (forceBlock size num mult)).blkNum.toNat = num.toNat * mult.toNat * (2 ^ b / 512) := by
  rw [forceBlock]
  split
  · have hpow : 2 ^ b ≤ 2 ^ 15 := Nat.pow_le_pow_right (by decide) (by omega)
    have hratio : 2 ^ b / 512 ≤ 64 := by omega
    have hscaled : num.toNat * (2 ^ b / 512) ≤ 4096 * 64 := Nat.mul_le_mul hnum hratio
    have htotal : num.toNat * (2 ^ b / 512) * mult.toNat ≤ 4096 * 64 * 512 := Nat.mul_le_mul hscaled hmult
    have hunit : blockSize / blockSize = 1#32 := by decide
    dsimp only [rescale]
    rw [hunit, BitVec.mul_one, BitVec.toNat_mul, BitVec.toNat_mul, BitVec.toNat_udiv, hsize, blockSize_toNat,
      Nat.mod_eq_of_lt (show num.toNat * (2 ^ b / 512) < 2 ^ 32 by omega), Nat.mod_eq_of_lt (by omega), Nat.mul_right_comm]
  · exact rescale_toNat hsize hb hnum hmult
end

theorem cSizeVer1_succ (csd : BitVec 128) : (cSizeVer1 (rspWord csd) + 1).toNat = csdField csd 62 12 + 1 := by
  have hlt : csdField csd 62 12 < 2 ^ 12 := (csd.extractLsb' 62 12).isLt
  rw [BitVec.toNat_add, cSizeVer1_toNat]
  exact Nat.mod_eq_of_lt (show csdField csd 62 12 + 1 < 2 ^ 32 by omega)

theorem cSizeVer2_succ (csd : BitVec 128) : (cSizeVer2 (rspWord csd) + 1).toNat = csdField csd 48 22 + 1 := by
  have hlt : csdField csd 48 22 < 2 ^ 22 := (csd.extractLsb' 48 22).isLt
  rw [BitVec.toNat_add, cSizeVer2_toNat]
  exact Nat.mod_eq_of_lt (show csdField csd 48 22 + 1 < 2 ^ 32 by omega)

theorem readBlLen_size (csd : BitVec 128) : ((1 : BitVec 32) <<< readBlLen (rspWord csd)).toNat = 2 ^ csdField csd 80 4 := by
  have hlt : csdField csd 80 4 < 2 ^ 4 := (csd.extractLsb' 80 4).isLt
  rw [one_shiftLeft_toNat (by rw [readBlLen_toNat]; omega), readBlLen_toNat]

theorem cSizeMult_size (csd : BitVec 128) : ((1 : BitVec 32) <<< (cSizeMult (rspWord csd) + 2)).toNat = 2 ^ (csdField csd 47 3 + 2) := by
  have hlt : csdField csd 47 3 < 2 ^ 3 := (csd.extractLsb' 47 3).isLt
  have hsum : (cSizeMult (rspWord csd) + 2).toNat = csdField csd 47 3 + 2 := by
    rw [BitVec.toNat_add, cSizeMult_toNat]
    exact Nat.mod_eq_of_lt (show csdField csd 47 3 + 2 < 2 ^ 32 by omega)
  rw [one_shiftLeft_toNat (by rw [hsum]; omega), hsum]

/-- 1.0 版の容量のブロック数。 -/
def blocksVer1 (csd : BitVec 128) : Nat := (csdField csd 62 12 + 1) * 2 ^ (csdField csd 47 3 + 2) * (2 ^ csdField csd 80 4 / 512)

theorem csd_bounds (csd : BitVec 128) :
    csdField csd 80 4 < 16 ∧ (cSizeVer1 (rspWord csd) + 1).toNat ≤ 4096 ∧ ((1 : BitVec 32) <<< (cSizeMult (rspWord csd) + 2)).toNat ≤ 512 := by
  have hlen : csdField csd 80 4 < 2 ^ 4 := (csd.extractLsb' 80 4).isLt
  have hnum : csdField csd 62 12 < 2 ^ 12 := (csd.extractLsb' 62 12).isLt
  have hmult : csdField csd 47 3 < 2 ^ 3 := (csd.extractLsb' 47 3).isLt
  have hpow : 2 ^ (csdField csd 47 3 + 2) ≤ 2 ^ 9 := Nat.pow_le_pow_right (by decide) (by omega)
  rw [cSizeVer1_succ, cSizeMult_size]
  omega

/-- 2.0 版でない CSD は、SD でも MMC でも同じ数になる。 -/
theorem blkNum_ver1 {type : CardType} {csd : BitVec 128} (h : ¬ IsVer2 type csd) : (parseCsd type csd).blkNum.toNat = blocksVer1 csd := by
  obtain ⟨hlen, hnum, hmult⟩ := csd_bounds csd
  rw [blocksVer1, ← cSizeVer1_succ, ← cSizeMult_size, parseCsd]
  by_cases hsd : type.isSd = true
  · have hzero : csdField csd 126 2 = 0 := by_contra fun hne => h ⟨hsd, hne⟩
    have hver : csdStructure (rspWord csd) = 0 := BitVec.eq_of_toNat_eq ((csdStructure_toNat csd).trans hzero)
    rw [if_pos hsd, sdParseCsd, if_pos hver]
    exact forceBlock_toNat (readBlLen_size csd) hlen hnum hmult
  · rw [if_neg hsd, mmcParseCsd]
    exact rescale_toNat (readBlLen_size csd) hlen hnum hmult

theorem blkNum_ver2 {type : CardType} {csd : BitVec 128} (h : IsVer2 type csd) :
    (parseCsd type csd).blkNum.toNat = (csdField csd 48 22 + 1) * 1024 % 2 ^ 32 := by
  have hver : csdStructure (rspWord csd) ≠ 0 := fun hzero => h.2 (by rw [← csdStructure_toNat, hzero]; rfl)
  have hsmall : ¬ (blockSize > blockSize ∧ blockSize % blockSize = 0) := by decide
  have hunit : blockSize / blockSize = 1#32 := by decide
  rw [parseCsd, if_pos h.1, sdParseCsd, if_neg hver, forceBlock, if_neg hsmall]
  dsimp only [rescale]
  rw [hunit, BitVec.mul_one, BitVec.toNat_mul, cSizeVer2_succ]
  rfl

theorem bytesVer1_div {csd : BitVec 128} (h : 9 ≤ csdField csd 80 4) : bytesVer1 csd / 512 = blocksVer1 csd := by
  have hdvd : 512 ∣ 2 ^ csdField csd 80 4 := pow_dvd_pow 2 h
  exact Nat.mul_div_assoc _ hdvd

theorem blocksVer1_small {csd : BitVec 128} (h : csdField csd 80 4 < 9) : blocksVer1 csd = 0 := by
  have hpow : 2 ^ csdField csd 80 4 < 512 := Nat.pow_lt_pow_right (by decide : 1 < 2) h
  rw [blocksVer1, Nat.div_eq_of_lt hpow, Nat.mul_zero]

/-- 欄が収まれば、容量が求まる。 -/
theorem blkNum_of_decodes {type : CardType} {csd : BitVec 128} (h : Decodes type csd) :
    (parseCsd type csd).blkNum.toNat = capacity type csd := by
  by_cases hver : IsVer2 type csd
  · have hlt : csdField csd 48 22 < 2 ^ 22 := (csd.extractLsb' 48 22).isLt
    rw [Decodes, if_pos hver] at h
    rw [blkNum_ver2 hver, capacity, if_pos hver, Nat.mod_eq_of_lt (by omega)]
  · rw [Decodes, if_neg hver] at h
    rw [blkNum_ver1 hver, capacity, if_neg hver]
    rcases Nat.lt_or_ge (csdField csd 80 4) 9 with hsmall | hlarge
    · rw [blocksVer1_small hsmall, Nat.div_eq_of_lt (h.resolve_left (by omega))]
    · rw [bytesVer1_div hlarge]

/-- 欄が収まらなければ、容量は 0 と読まれる。 -/
theorem blkNum_of_not_decodes {type : CardType} {csd : BitVec 128} (h : ¬ Decodes type csd) :
    (parseCsd type csd).blkNum.toNat = 0 ∧ 0 < capacity type csd := by
  by_cases hver : IsVer2 type csd
  · rw [Decodes, if_pos hver, not_not] at h
    rw [blkNum_ver2 hver, capacity, if_pos hver, h]
    decide
  · rw [Decodes, if_neg hver, not_or, Nat.not_le, Nat.not_lt] at h
    rw [blkNum_ver1 hver, capacity, if_neg hver]
    exact ⟨blocksVer1_small h.1, Nat.div_pos h.2 (by decide)⟩

/-! ## 命令 -/

section

variable {answers : Nat → Answer} {fuel n : Nat} {c t : Card} {buf blkno blkcnt : BitVec 32} {x : Xfer}

/-- 読み出しの命令 `x` を送った後のカード。 -/
def Card.issued (c : Card) (answers : Nat → Answer) (x : Xfer) : Card :=
  { c with sdmmc := c.sdmmc.sent answers x.cmd x.arg, xfers := c.xfers ++ [x] }

/-- 状態を尋ねた後のカード。 -/
def Card.polled (c : Card) (answers : Nat → Answer) : Card :=
  { c with
    sdmmc :=
      { c.sdmmc.sent answers mmcSendStatus (c.sdmmc.rca <<< 16) with state := (answers c.sdmmc.log.length).rsp &&& 0x1e00 } }

/-- 状態を尋ねて失敗した後のカード。 -/
def Card.unanswered (c : Card) (answers : Nat → Answer) : Card :=
  { c with sdmmc := c.sdmmc.sent answers mmcSendStatus (c.sdmmc.rca <<< 16) }

/-- 一つの要求の命令と、データ転送の設定。 -/
def readXfer (type : CardType) (buf blkno blkcnt : BitVec 32) : Xfer :=
  let cmd := if blkcnt = 1 then mmcReadSingleBlock else mmcReadMultipleBlock
  { cmd, arg := if type.byteAddressed then blkno * blockSize else blkno, blatr := (blkcnt <<< 16) ||| blockSize, dmaSysAdd := buf,
    mixCtrl := mixCtrl cmd }

theorem sendCmd_eq (answers : Nat → Answer) {cmd : Nat} (h : cmd ∈ cmdtab) (arg : BitVec 32) (s : Sdmmc) :
    sendCmd answers cmd arg s =
      .ok (if (answers s.log.length).ok then some (answers s.log.length).rsp else none) (s.sent answers cmd arg) := by
  rw [sendCmd, if_pos h]
  rfl

theorem getState_eq (answers : Nat → Answer) (s : Sdmmc) :
    sdmmcGetState answers s =
      if (answers s.log.length).ok then
        .ok ⟨⟩ { s.sent answers mmcSendStatus (s.rca <<< 16) with state := (answers s.log.length).rsp &&& 0x1e00 }
      else .error () (s.sent answers mmcSendStatus (s.rca <<< 16)) := by
  have hsend := sendCmd_eq answers (show mmcSendStatus ∈ cmdtab by decide) (s.rca <<< 16) s
  cases hok : (answers s.log.length).ok with
  | true =>
      rw [hok] at hsend
      simp [sdmmcGetState, mustSend, bind, EStateM.bind, get, getThe, MonadStateOf.get, EStateM.get, hsend, pure, EStateM.pure, modify,
        modifyGet, MonadStateOf.modifyGet, EStateM.modifyGet]
  | false =>
      rw [hok] at hsend
      simp [sdmmcGetState, mustSend, bind, EStateM.bind, get, getThe, MonadStateOf.get, EStateM.get, hsend, throw, throwThe,
        MonadExceptOf.throw, EStateM.throw]

theorem sendRead_eq (answers : Nat → Answer) (c : Card) (h : x.cmd ∈ cmdtab) (hx : x.mixCtrl = mixCtrl x.cmd) (bsize bcnt : BitVec 32)
    (hblatr : x.blatr = (bcnt <<< 16) ||| bsize) :
    sendRead answers x.cmd x.arg bsize bcnt x.dmaSysAdd c =
      .ok (if (answers c.sdmmc.log.length).ok then some (answers c.sdmmc.log.length).rsp else none) (c.issued answers x) := by
  have hxfer : (⟨x.cmd, x.arg, (bcnt <<< 16) ||| bsize, x.dmaSysAdd, mixCtrl x.cmd⟩ : Xfer) = x := by rw [← hx, ← hblatr]
  rw [sendRead, hxfer]
  simp only [bind, EStateM.bind, modify, modifyGet, MonadStateOf.modifyGet, EStateM.modifyGet, onCard, sendCmd_eq answers h]
  rfl

/-! ## `MMC_TRAN` を待つ繰り返し -/

theorem waitTran_zero : waitTran answers 0 c = .ok false c := rfl

theorem waitTran_done (h : c.sdmmc.state = mmcTran) : waitTran answers (fuel + 1) c = .ok true c := by
  simp [waitTran, bind, EStateM.bind, get, getThe, MonadStateOf.get, EStateM.get, h, pure, EStateM.pure]

theorem waitTran_ask (h : c.sdmmc.state ≠ mmcTran) :
    waitTran answers (fuel + 1) c =
      if (answers c.sdmmc.log.length).ok then waitTran answers fuel (c.polled answers) else .error () (c.unanswered answers) := by
  have hget := getState_eq answers c.sdmmc
  cases hok : (answers c.sdmmc.log.length).ok with
  | true =>
      rw [hok, if_pos rfl] at hget
      simp [waitTran, bind, EStateM.bind, get, getThe, MonadStateOf.get, EStateM.get, h, onCard, hget, Card.polled]
  | false =>
      rw [hok, if_neg Bool.false_ne_true] at hget
      simp [waitTran, bind, EStateM.bind, get, getThe, MonadStateOf.get, EStateM.get, h, onCard, hget, Card.unanswered]

/-- 待つ間に変わらない欄。 -/
structure SameCard (c t : Card) : Prop where
  xfers : t.xfers = c.xfers
  geometry : t.geometry = c.geometry
  type : t.sdmmc.type = c.sdmmc.type

theorem waitTran_same (answers : Nat → Answer) (fuel : Nat) (c : Card) :
    Meets (waitTran answers fuel) c (fun _ t => SameCard c t) (fun _ t => SameCard c t) := by
  induction fuel generalizing c with
  | zero => exact ⟨rfl, rfl, rfl⟩
  | succ fuel ih =>
      unfold Meets
      by_cases hstate : c.sdmmc.state = mmcTran
      · rw [waitTran_done hstate]
        exact ⟨rfl, rfl, rfl⟩
      · rw [waitTran_ask hstate]
        cases (answers c.sdmmc.log.length).ok with
        | true =>
            rw [if_pos rfl]
            exact (ih (c.polled answers)).mono (fun _ t h => ⟨h.xfers, h.geometry, h.type⟩) fun _ t h => ⟨h.xfers, h.geometry, h.type⟩
        | false => exact ⟨rfl, rfl, rfl⟩

/-- `n` 番目からの応答が、失敗する前に `MMC_TRAN` を示す。 -/
def Settles (answers : Nat → Answer) (n : Nat) : Prop :=
  ∃ k, (∀ j ≤ k, (answers (n + j)).ok = true) ∧ (answers (n + k)).rsp &&& 0x1e00 = mmcTran

theorem Settles.here (hok : (answers n).ok = true) (h : (answers n).rsp &&& 0x1e00 = mmcTran) : Settles answers n := by
  refine ⟨0, fun j hj => ?_, h⟩
  rw [Nat.le_zero.mp hj]
  exact hok

theorem Settles.later (hok : (answers n).ok = true) (h : Settles answers (n + 1)) : Settles answers n := by
  obtain ⟨k, hall, hlast⟩ := h
  refine ⟨k + 1, fun j hj => ?_, ?_⟩
  · cases j with
    | zero => exact hok
    | succ j =>
        rw [Nat.add_comm j, ← Nat.add_assoc]
        exact hall j (by omega)
  · rwa [Nat.add_comm k, ← Nat.add_assoc]

/-- 初めの応答で終わるか、次からの応答で終わる。 -/
theorem Settles.cases (h : Settles answers n) :
    (answers n).ok = true ∧ ((answers n).rsp &&& 0x1e00 = mmcTran ∨ Settles answers (n + 1)) := by
  obtain ⟨k, hall, hlast⟩ := h
  refine ⟨hall 0 (Nat.zero_le k), ?_⟩
  cases k with
  | zero => exact Or.inl hlast
  | succ k =>
      rw [Nat.add_comm k, ← Nat.add_assoc] at hlast
      refine Or.inr ⟨k, fun j hj => ?_, hlast⟩
      rw [Nat.add_assoc, Nat.add_comm 1]
      exact hall (j + 1) (by omega)

/-- 待って成功した後の記録。初めから `MMC_TRAN` なら、何も尋ねない。 -/
structure Waited (answers : Nat → Answer) (c t : Card) (polls : List Sent) : Prop where
  log : t.sdmmc.log = c.sdmmc.log ++ polls
  status : ∀ y ∈ polls, y.cmd = mmcSendStatus
  asked : (c.sdmmc.state = mmcTran ∧ polls = []) ∨
    (c.sdmmc.state ≠ mmcTran ∧ (∃ y ∈ polls, ObservesTran y) ∧ Settles answers c.sdmmc.log.length)

theorem waitTran_waited (h : waitTran answers fuel c = .ok true t) : ∃ polls, Waited answers c t polls := by
  induction fuel generalizing c with
  | zero => cases h
  | succ fuel ih =>
      by_cases hstate : c.sdmmc.state = mmcTran
      · rw [waitTran_done hstate] at h
        cases h
        exact ⟨[], (List.append_nil _).symm, fun y hy => absurd hy List.not_mem_nil, Or.inl ⟨hstate, rfl⟩⟩
      · rw [waitTran_ask hstate] at h
        cases hok : (answers c.sdmmc.log.length).ok with
        | false =>
            rw [hok] at h
            cases h
        | true =>
            rw [hok, if_pos rfl] at h
            obtain ⟨polls, hlog, hstatus, hasked⟩ := ih h
            refine ⟨⟨mmcSendStatus, c.sdmmc.rca <<< 16, answers c.sdmmc.log.length⟩ :: polls, ?_, ?_, Or.inr ⟨hstate, ?_⟩⟩
            · rw [hlog]
              exact List.append_assoc _ _ _
            · exact List.forall_mem_cons.mpr ⟨rfl, hstatus⟩
            · rcases hasked with ⟨htran, -⟩ | ⟨-, ⟨y, hy, hobs⟩, hsettles⟩
              · exact ⟨⟨_, List.mem_cons_self, rfl, hok, htran⟩, Settles.here hok htran⟩
              · have hlen : (c.polled answers).sdmmc.log.length = c.sdmmc.log.length + 1 := List.length_append
                exact ⟨⟨y, List.mem_cons_of_mem _ hy, hobs⟩, Settles.later hok (hlen ▸ hsettles)⟩

/-- 応答が `MMC_TRAN` を示せば、繰り返しは終わる。 -/
theorem waitTran_finishes (k : Nat) (hall : ∀ j ≤ k, (answers (c.sdmmc.log.length + j)).ok = true)
    (hlast : (answers (c.sdmmc.log.length + k)).rsp &&& 0x1e00 = mmcTran) : ∃ fuel t, waitTran answers fuel c = .ok true t := by
  induction k generalizing c with
  | zero =>
      by_cases hstate : c.sdmmc.state = mmcTran
      · exact ⟨1, c, waitTran_done hstate⟩
      · refine ⟨2, c.polled answers, ?_⟩
        have hok : (answers c.sdmmc.log.length).ok = true := hall 0 le_rfl
        rw [waitTran_ask hstate, hok, if_pos rfl]
        exact waitTran_done hlast
  | succ k ih =>
      by_cases hstate : c.sdmmc.state = mmcTran
      · exact ⟨1, c, waitTran_done hstate⟩
      · have hlen : (c.polled answers).sdmmc.log.length = c.sdmmc.log.length + 1 := List.length_append
        have hok : (answers c.sdmmc.log.length).ok = true := hall 0 (Nat.zero_le _)
        obtain ⟨fuel, t, hrun⟩ := ih (c := c.polled answers) (fun j hj => by
          rw [hlen, Nat.add_assoc, Nat.add_comm 1]
          exact hall (j + 1) (by omega)) (by rwa [hlen, Nat.add_assoc, Nat.add_comm 1])
        refine ⟨fuel + 1, t, ?_⟩
        rw [waitTran_ask hstate, hok, if_pos rfl]
        exact hrun

/-! ## 一つの要求 -/

theorem inRange_iff (n blkno blkcnt : BitVec 32) :
    InRange n.toNat blkno blkcnt ↔ ¬ (blkno ≥ n ∨ blkno + blkcnt > n ∨ blkno + blkcnt < blkno) := by
  have h1 := blkno.isLt
  have h2 := blkcnt.isLt
  have h3 := n.isLt
  simp only [InRange, ge_iff_le, gt_iff_lt, BitVec.le_def, BitVec.lt_def, BitVec.toNat_add]
  omega

theorem sdmmcRead_rejected (h : ¬ InRange c.geometry.blkNum.toNat blkno blkcnt) :
    sdmmcRead answers fuel buf blkno blkcnt c = .error () c := by
  rw [inRange_iff, not_not] at h
  simp [sdmmcRead, bind, EStateM.bind, get, getThe, MonadStateOf.get, EStateM.get, h, throw, throwThe, MonadExceptOf.throw, EStateM.throw]

theorem sdmmcRead_empty (h : InRange c.geometry.blkNum.toNat blkno 0) : sdmmcRead answers fuel buf blkno 0 c = .ok true c := by
  rw [inRange_iff] at h
  simp only [sdmmcRead, bind, EStateM.bind, get, getThe, MonadStateOf.get, EStateM.get, if_neg h]
  rfl

theorem readXfer_mem (type : CardType) (buf blkno blkcnt : BitVec 32) : (readXfer type buf blkno blkcnt).cmd ∈ cmdtab := by
  unfold readXfer
  dsimp only
  split <;> decide

theorem sdmmcRead_issued (h : InRange c.geometry.blkNum.toNat blkno blkcnt) (hcnt : blkcnt ≠ 0) :
    sdmmcRead answers fuel buf blkno blkcnt c =
      if (answers c.sdmmc.log.length).ok then
        waitTran answers fuel (c.issued answers (readXfer c.sdmmc.type buf blkno blkcnt))
      else .error () (c.issued answers (readXfer c.sdmmc.type buf blkno blkcnt)) := by
  have hsend := sendRead_eq answers c (readXfer_mem c.sdmmc.type buf blkno blkcnt) rfl blockSize blkcnt rfl
  rw [inRange_iff] at h
  simp only [sdmmcRead, bind, EStateM.bind, get, getThe, MonadStateOf.get, EStateM.get, if_neg h, if_neg hcnt]
  dsimp only [readXfer] at hsend ⊢
  rw [hsend]
  cases (answers c.sdmmc.log.length).ok with
  | true => rfl
  | false => rfl

/-- 読み出しの前後で、容量と種類は変わらない。 -/
theorem sdmmcRead_same (answers : Nat → Answer) (fuel : Nat) (buf blkno blkcnt : BitVec 32) (c : Card) :
    Meets (sdmmcRead answers fuel buf blkno blkcnt) c (fun _ t => t.geometry = c.geometry ∧ t.sdmmc.type = c.sdmmc.type)
      fun _ t => t.geometry = c.geometry ∧ t.sdmmc.type = c.sdmmc.type := by
  by_cases hin : InRange c.geometry.blkNum.toNat blkno blkcnt
  · by_cases hcnt : blkcnt = 0
    · subst hcnt
      unfold Meets
      rw [sdmmcRead_empty hin]
      exact ⟨rfl, rfl⟩
    · have hwait := waitTran_same answers fuel (c.issued answers (readXfer c.sdmmc.type buf blkno blkcnt))
      unfold Meets at hwait ⊢
      rw [sdmmcRead_issued hin hcnt]
      cases (answers c.sdmmc.log.length).ok with
      | true =>
          rw [if_pos rfl]
          exact Meets.mono hwait (fun _ t h => ⟨h.geometry, h.type⟩) fun _ t h => ⟨h.geometry, h.type⟩
      | false => exact ⟨rfl, rfl⟩
  · unfold Meets
    rw [sdmmcRead_rejected hin]
    exact ⟨rfl, rfl⟩

theorem Reached.geometry {stack icr ocr : BitVec 32} {csd : BitVec 128} (h : Reached answers stack icr ocr csd c) :
    c.geometry = parseCsd c.sdmmc.type csd := by
  induction h with
  | init h =>
      unfold initCard at h
      split at h
      · cases h
        rfl
      · cases h
  | read hc h ih =>
      obtain ⟨hgeometry, htype⟩ := (sdmmcRead_same _ _ _ _ _ _).of_ok h
      rw [hgeometry, htype, ih]
  | failed hc h ih =>
      obtain ⟨hgeometry, htype⟩ := (sdmmcRead_same _ _ _ _ _ _).of_error h
      rw [hgeometry, htype, ih]

theorem accepts_iff : Accepts answers fuel c buf blkno blkcnt ↔ InRange c.geometry.blkNum.toNat blkno blkcnt := by
  unfold Accepts
  constructor
  · intro h
    by_contra hin
    unfold Meets at h
    rw [sdmmcRead_rejected hin] at h
    exact h rfl
  · intro hin
    by_cases hcnt : blkcnt = 0
    · subst hcnt
      unfold Meets
      rw [sdmmcRead_empty hin]
      trivial
    · have hnew : (c.issued answers (readXfer c.sdmmc.type buf blkno blkcnt)).xfers ≠ c.xfers := by simp [Card.issued]
      have hwait := waitTran_same answers fuel (c.issued answers (readXfer c.sdmmc.type buf blkno blkcnt))
      unfold Meets at hwait ⊢
      rw [sdmmcRead_issued hin hcnt]
      cases (answers c.sdmmc.log.length).ok with
      | true =>
          rw [if_pos rfl]
          exact Meets.mono hwait (fun _ _ _ => trivial) fun _ t h => h.xfers ▸ hnew
      | false => exact hnew

/-- 成功した読み出しの後の、命令の記録。 -/
structure Done (answers : Nat → Answer) (c t : Card) (x : Xfer) (polls : List Sent) : Prop where
  xfers : t.xfers = c.xfers ++ [x]
  log : t.sdmmc.log = c.sdmmc.log ++ ⟨x.cmd, x.arg, answers c.sdmmc.log.length⟩ :: polls
  status : ∀ y ∈ polls, y.cmd = mmcSendStatus
  asked : (c.sdmmc.state = mmcTran ∧ polls = []) ∨ (c.sdmmc.state ≠ mmcTran ∧ ∃ y ∈ polls, ObservesTran y)

theorem sdmmcRead_done (hin : InRange c.geometry.blkNum.toNat blkno blkcnt) (hcnt : blkcnt ≠ 0)
    (h : sdmmcRead answers fuel buf blkno blkcnt c = .ok true t) :
    Completes answers c.sdmmc ∧ ∃ polls, Done answers c t (readXfer c.sdmmc.type buf blkno blkcnt) polls := by
  rw [sdmmcRead_issued hin hcnt] at h
  cases hok : (answers c.sdmmc.log.length).ok with
  | false =>
      rw [hok] at h
      cases h
  | true =>
      rw [hok, if_pos rfl] at h
      obtain ⟨polls, hlog, hstatus, hasked⟩ := waitTran_waited h
      have hlen : (c.issued answers (readXfer c.sdmmc.type buf blkno blkcnt)).sdmmc.log.length = c.sdmmc.log.length + 1 := List.length_append
      rw [hlen] at hasked
      refine ⟨⟨hok, hasked.imp (fun h => h.1) fun h => h.2.2⟩, polls, ?_, ?_, hstatus, hasked.imp id fun h => ⟨h.1, h.2.1⟩⟩
      · exact ((waitTran_same _ _ _).of_ok h).xfers
      · rw [hlog]
        exact List.append_assoc _ _ _

/-- 命令が成功し、状態が落ち着けば、読み出しは終わる。 -/
theorem sdmmcRead_finishes (hin : InRange c.geometry.blkNum.toNat blkno blkcnt) (hcnt : blkcnt ≠ 0) (h : Completes answers c.sdmmc)
    (buf : BitVec 32) : ∃ fuel t, sdmmcRead answers fuel buf blkno blkcnt c = .ok true t := by
  obtain ⟨hok, hstate⟩ := h
  have hrun : ∃ fuel t, waitTran answers fuel (c.issued answers (readXfer c.sdmmc.type buf blkno blkcnt)) = .ok true t := by
    rcases hstate with hstate | ⟨k, hall, hlast⟩
    · exact ⟨1, _, waitTran_done hstate⟩
    · have hlen : (c.issued answers (readXfer c.sdmmc.type buf blkno blkcnt)).sdmmc.log.length = c.sdmmc.log.length + 1 := List.length_append
      exact waitTran_finishes k (by rwa [hlen]) (by rwa [hlen])
  obtain ⟨fuel, t, hrun⟩ := hrun
  refine ⟨fuel, t, ?_⟩
  rw [sdmmcRead_issued hin hcnt, hok, if_pos rfl]
  exact hrun

/-! ## データ転送の設定 -/

theorem readXfer_count (type : CardType) (buf blkno blkcnt : BitVec 32) :
    (readXfer type buf blkno blkcnt).count = blkcnt.toNat % 2 ^ 16 := by
  have hlow : ((blkcnt <<< 16) ||| blockSize) >>> 16 = (blkcnt <<< 16) >>> 16 := by
    rw [BitVec.ushiftRight_or_distrib, show blockSize >>> 16 = 0#32 by decide, BitVec.or_zero]
  rw [Xfer.count, readXfer, hlow, BitVec.toNat_ushiftRight, BitVec.toNat_shiftLeft, Nat.shiftLeft_eq, Nat.shiftRight_eq_div_pow]
  omega

theorem readXfer_arg (type : CardType) (buf blkno blkcnt : BitVec 32) :
    (readXfer type buf blkno blkcnt).arg.toNat = if type.byteAddressed then 512 * blkno.toNat % 2 ^ 32 else blkno.toNat := by
  rw [readXfer]
  cases type.byteAddressed with
  | true => exact (BitVec.toNat_mul _ _).trans (by rw [blockSize_toNat, Nat.mul_comm]; rfl)
  | false => rfl

theorem readXfer_read (type : CardType) (buf blkno blkcnt : BitVec 32) : IsRead (readXfer type buf blkno blkcnt).cmd := by
  unfold readXfer IsRead
  dsimp only
  split
  · exact Or.inl rfl
  · exact Or.inr rfl

/-- 個数が欄に収まれば、データはその個数のブロックである。 -/
theorem readXfer_dataEnd (type : CardType) (buf blkno : BitVec 32) (hcnt : blkcnt.toNat < 2 ^ 16) :
    (readXfer type buf blkno blkcnt).dataEnd = buf.toNat + 512 * blkcnt.toNat := by
  have hsize : (((blkcnt <<< 16) ||| blockSize) &&& 0x1fff).toNat = 512 := by
    have hhigh : (blkcnt <<< 16) &&& 0x1fff = 0#32 := by
      refine BitVec.eq_of_toNat_eq ?_
      rw [BitVec.toNat_and, BitVec.toNat_shiftLeft, Nat.shiftLeft_eq, show (0x1fff : BitVec 32).toNat = 2 ^ 13 - 1 from rfl,
        Nat.and_two_pow_sub_one_eq_mod]
      show _ = 0
      omega
    rw [BitVec.and_or_distrib_right, hhigh, BitVec.zero_or]
    rfl
  have hcount := readXfer_count type buf blkno blkcnt
  rw [Nat.mod_eq_of_lt hcnt] at hcount
  have hblocks : (if (readXfer type buf blkno blkcnt).mixCtrl &&& multiBlock = multiBlock then blkcnt.toNat else 1) = blkcnt.toNat := by
    by_cases hone : blkcnt = 1
    · subst hone
      exact ite_self _
    · have hmix : (readXfer type buf blkno blkcnt).mixCtrl = mixCtrl mmcReadMultipleBlock := congrArg mixCtrl (if_neg hone)
      rw [hmix, if_pos (by decide)]
  rw [Xfer.dataEnd, hcount, hblocks]
  exact congrArg (fun k => buf.toNat + k * blkcnt.toNat) hsize

/-- 欄に収まる要求で、状態を尋ねて終われば、正しい読み出しである。 -/
theorem Done.issued {polls : List Sent} (h : Done answers c t (readXfer c.sdmmc.type buf blkno blkcnt) polls)
    (hfits : Fits c.sdmmc blkno blkcnt) :
    Issued c t buf blkno blkcnt (readXfer c.sdmmc.type buf blkno blkcnt) (answers c.sdmmc.log.length) polls := by
  obtain ⟨hcnt, haddr, hstate⟩ := hfits
  have hobs := (h.asked.resolve_left fun hpair => hstate hpair.1).2
  refine ⟨h.xfers, h.log, readXfer_read _ _ _ _, fun y hy hread => ?_, ?_, ?_, readXfer_dataEnd _ _ _ hcnt, hobs⟩
  · rw [h.status y hy] at hread
    exact absurd hread (by unfold IsRead; decide)
  · rw [readXfer_count, Nat.mod_eq_of_lt hcnt]
  · rw [readXfer_arg]
    cases htype : c.sdmmc.type.byteAddressed with
    | true =>
        have hlt := haddr htype
        exact Nat.mod_eq_of_lt (by omega)
    | false => rfl

/-- 正しい読み出しなら、要求は欄に収まる。 -/
theorem Done.fits {polls polls' : List Sent} {answer : Answer} (h : Done answers c t (readXfer c.sdmmc.type buf blkno blkcnt) polls)
    (hissued : Issued c t buf blkno blkcnt x answer polls') : Fits c.sdmmc blkno blkcnt := by
  obtain rfl : readXfer c.sdmmc.type buf blkno blkcnt = x := List.singleton_inj.mp (List.append_cancel_left (h.xfers.symm.trans hissued.xfers))
  obtain rfl : polls = polls' := (List.cons.inj (List.append_cancel_left (h.log.symm.trans hissued.log))).2
  have hcount := hissued.count
  have harg := hissued.arg
  rw [readXfer_count] at hcount
  rw [readXfer_arg] at harg
  refine ⟨by omega, fun htype => ?_, fun hstate => ?_⟩
  · rw [htype, if_pos rfl, if_pos rfl] at harg
    omega
  · obtain ⟨y, hy, -⟩ := hissued.observed
    rcases h.asked with ⟨-, rfl⟩ | ⟨hne, -⟩
    · exact List.not_mem_nil hy
    · exact hne hstate

end

/-- 要求が正しく果たされるのは、容量の外にあるか、容量が求まり、空であるか、終わらないか、欄に収まって状態が `MMC_TRAN` でないときに限る。 -/
theorem serves_iff {answers : Nat → Answer} {stack icr ocr : BitVec 32} {csd : BitVec 128} {c : Card}
    (hc : Reached answers stack icr ocr csd c) (buf blkno blkcnt : BitVec 32) :
    Serves answers c (capacity c.sdmmc.type csd) buf blkno blkcnt ↔
      (InRange (capacity c.sdmmc.type csd) blkno blkcnt →
        Decodes c.sdmmc.type csd ∧ (blkcnt = 0 ∨ ¬ Completes answers c.sdmmc ∨ Fits c.sdmmc blkno blkcnt)) := by
  have hgeometry := hc.geometry
  constructor
  · intro h hin
    have haccept := accepts_iff.mp ((h.accepts 0).mpr hin)
    have hdecodes : Decodes c.sdmmc.type csd := by
      by_contra hbad
      rw [hgeometry, (blkNum_of_not_decodes hbad).1] at haccept
      exact absurd haccept.1 (Nat.not_lt_zero _)
    refine ⟨hdecodes, or_iff_not_imp_left.mpr fun hcnt => or_iff_not_imp_left.mpr fun hdone => ?_⟩
    obtain ⟨fuel, t, hrun⟩ := sdmmcRead_finishes haccept hcnt (not_not.mp hdone) buf
    obtain ⟨-, polls, hlog⟩ := sdmmcRead_done haccept hcnt hrun
    have hpos : 0 < blkcnt.toNat := Nat.pos_of_ne_zero fun hzero => hcnt (BitVec.eq_of_toNat_eq hzero)
    obtain ⟨x, answer, polls', hissued⟩ := h.reads fuel t hrun hpos
    exact hlog.fits hissued
  · intro h
    have hrange : InRange c.geometry.blkNum.toNat blkno blkcnt ↔ InRange (capacity c.sdmmc.type csd) blkno blkcnt := by
      rw [hgeometry]
      constructor
      · intro hin
        by_cases hdecodes : Decodes c.sdmmc.type csd
        · rwa [blkNum_of_decodes hdecodes] at hin
        · rw [(blkNum_of_not_decodes hdecodes).1] at hin
          exact absurd hin.1 (Nat.not_lt_zero _)
      · intro hin
        rwa [blkNum_of_decodes (h hin).1]
    refine ⟨fun fuel => accepts_iff.trans hrange, fun fuel t hrun hpos => ?_⟩
    have hcnt : blkcnt ≠ 0 := fun hzero => by simp [hzero] at hpos
    have hin : InRange c.geometry.blkNum.toNat blkno blkcnt := by
      by_contra hout
      rw [sdmmcRead_rejected hout] at hrun
      cases hrun
    obtain ⟨hdone, polls, hlog⟩ := sdmmcRead_done hin hcnt hrun
    have hfits := ((h (hrange.mp hin)).2.resolve_left hcnt).resolve_left (not_not_intro hdone)
    exact ⟨_, _, polls, hlog.issued hfits⟩

/-- いつも成功し、電源が入った大容量のカードで、`MMC_TRAN` だと答える。 -/
def readySd : Nat → Answer := fun _ => ⟨true, 0xc0300800⟩

/-- 2.0 版で、`C_SIZE` が 15159 の CSD。 -/
def sdhcCsd : BitVec 128 := 1 <<< 126 ||| 15159 <<< 48

theorem exists_readySd :
    ∃ c, Reached readySd 0 0x1aa 0x00300000 sdhcCsd c ∧ c.sdmmc.type = .sdcHc ∧ c.sdmmc.state = mmcTran := by
  have hinit : (initCard readySd 0 sdhcCsd { icr := 0x1aa, ocr := 0x00300000 }).map (fun c => (c.sdmmc.type, c.sdmmc.state)) =
    some (.sdcHc, mmcTran) := rfl
  obtain ⟨c, hc, hfields⟩ := Option.map_eq_some_iff.mp hinit
  exact ⟨c, .init hc, congrArg Prod.fst hfields, congrArg Prod.snd hfields⟩

theorem serves_sample :
    ∃ c, Reached readySd 0 0x1aa 0x00300000 sdhcCsd c ∧
      (Serves readySd c (capacity c.sdmmc.type sdhcCsd) 0x10800000 0 1 ↔
        (InRange (capacity c.sdmmc.type sdhcCsd) 0 1 →
          Decodes c.sdmmc.type sdhcCsd ∧ ((1 : BitVec 32) = 0 ∨ ¬ Completes readySd c.sdmmc ∨ Fits c.sdmmc 0 1))) := by
  obtain ⟨c, hc, -⟩ := exists_readySd
  exact ⟨c, hc, serves_iff hc 0x10800000 0 1⟩

/-- そのカードの初めのブロックの読み出しは、状態を一度も尋ねない。 -/
theorem not_serves :
    ¬ ∀ (answers : Nat → Answer) (stack icr ocr : BitVec 32) (csd : BitVec 128) (c : Card) (buf blkno blkcnt : BitVec 32),
      Reached answers stack icr ocr csd c → Supported c.sdmmc.type csd →
        Serves answers c (capacity c.sdmmc.type csd) buf blkno blkcnt := by
  intro h
  obtain ⟨c, hc, htype, hstate⟩ := exists_readySd
  have hsup : Supported c.sdmmc.type sdhcCsd := by
    rw [htype]
    exact Or.inl ⟨rfl, by decide⟩
  have hdecodes : Decodes c.sdmmc.type sdhcCsd := by
    rw [htype, Decodes]
    decide
  have hin : InRange c.geometry.blkNum.toNat 0 1 := by
    rw [hc.geometry, blkNum_of_decodes hdecodes, htype, InRange, capacity]
    decide
  have hends : Completes readySd c.sdmmc := ⟨rfl, Or.inl hstate⟩
  obtain ⟨fuel, t, hrun⟩ := sdmmcRead_finishes hin (by decide) hends 0x10800000
  obtain ⟨-, polls, hdone⟩ := sdmmcRead_done hin (by decide) hrun
  obtain ⟨x, answer, polls', hissued⟩ := (h _ _ _ _ _ _ 0x10800000 0 1 hc hsup).reads fuel t hrun (by decide)
  exact (hdone.fits hissued).2.2 hstate

end Imx6Bsp.Boot.Sd
