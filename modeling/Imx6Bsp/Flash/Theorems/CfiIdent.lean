import Imx6Bsp.Flash.CfiIdent

/-!
# CFI の表の読み出しの正しさ

二つの `ident()` は同じ値を読むが、128 バイトの単位と、`geo_num` の初めの値の扱いが違う。`f3s_flash_probe()` は、続くチップでは初期化
しない構造体を使うので、Intel の命令では、続くチップが二つになると必ず失敗する。
-/

namespace Imx6Bsp.Flash

variable {c : FlashCfg}

/-! ## 一つのチップの値 -/

theorem FlashCfg.command_toNat (c : FlashCfg) {n : Nat} (hn : n < 256) : (c.command n).toNat = n * c.deviceMult.toNat := by
  have hmult : 255 * c.deviceMult.toNat < 2 ^ 64 :=
    (by decide : ∀ p ∈ busShapes, 255 * (Flash.deviceMult p.1 p.2).toNat < 2 ^ 64) _ c.valid
  have hle : n * c.deviceMult.toNat ≤ 255 * c.deviceMult.toNat := Nat.mul_le_mul_right _ (Nat.lt_succ_iff.mp hn)
  rw [command, BitVec.toNat_mul, BitVec.toNat_ofNat, Nat.mod_eq_of_lt (hn.trans (by decide)), Nat.mod_eq_of_lt (hle.trans_lt hmult)]

/-- 割っても、一つのチップの値になる。 -/
theorem FlashCfg.perChip_command (c : FlashCfg) {n : Nat} (hn : n < 256) : c.perChip (c.command n) = n := by
  have hpos : 0 < c.deviceMult.toNat := (by decide : ∀ p ∈ busShapes, 0 < (Flash.deviceMult p.1 p.2).toNat) _ c.valid
  rw [perChip, c.command_toNat hn, Nat.mul_div_cancel _ hpos]

/-- 残す桁を選んでも、一つのチップの値になる。 -/
theorem FlashCfg.masked_command (c : FlashCfg) {n : Nat} (hn : n < 256) : c.masked (c.command n) = n := by
  have hone : c.deviceMult.toNat % 2 ^ (if c.deviceWidth = 2 then 16 else 8) = 1 :=
    (by decide : ∀ p ∈ busShapes, (Flash.deviceMult p.1 p.2).toNat % 2 ^ (if p.1 = 2 then 16 else 8) = 1) _ c.valid
  have hsize : c.deviceSize.toNat = 2 ^ (if c.deviceWidth = 2 then 16 else 8) - 1 := by
    rw [deviceSize]
    split <;> rfl
  have hlt : n < 2 ^ (if c.deviceWidth = 2 then 16 else 8) := by
    refine hn.trans_le ?_
    split <;> decide
  rw [masked, BitVec.toNat_and, c.command_toNat hn, hsize, Nat.and_two_pow_sub_one_eq_mod, Nat.mul_mod, hone, Nat.mul_one,
    Nat.mod_mod, Nat.mod_eq_of_lt hlt]

/-! ## 2 の冪への換算 -/

theorem halve_two_pow {fuel k : Nat} (hk : k ≤ fuel) (unitPow2 : Nat) : halve fuel (2 ^ k) unitPow2 = unitPow2 + k := by
  induction fuel generalizing k unitPow2 with
  | zero => rw [Nat.le_zero.mp hk]; rfl
  | succ fuel ih =>
      rw [halve]
      cases k with
      | zero => rfl
      | succ k =>
          rw [if_pos (Nat.one_lt_two_pow (Nat.succ_ne_zero k)), Nat.pow_succ, Nat.mul_div_cancel _ Nat.two_pos,
            ih (Nat.le_of_succ_le_succ hk)]
          omega

theorem findPow2_two_pow {fuel k unitPow2 : Nat} (hk : k < 32) (hle : unitPow2 ≤ k) (hfuel : k ≤ unitPow2 + fuel) :
    findPow2 (2 ^ k) fuel unitPow2 = k := by
  have hshl : ∀ n < 32, shl1 n = 2 ^ n := fun n hn => Nat.mod_eq_of_lt (Nat.pow_lt_pow_right Nat.one_lt_two hn)
  induction fuel generalizing unitPow2 with
  | zero => exact Nat.le_antisymm hle hfuel
  | succ fuel ih =>
      rw [findPow2, hshl unitPow2 (hle.trans_lt hk)]
      rcases Nat.eq_or_lt_of_le hle with rfl | hlt
      · rw [if_neg fun h => h.1 rfl]
      · have hne : 2 ^ unitPow2 ≠ 2 ^ k := fun h => Nat.ne_of_lt hlt (Nat.pow_right_injective le_rfl h)
        rw [if_pos ⟨hne, hlt.trans hk⟩, ih hlt (by omega)]

/-- 大きさが 0 のときは、最後まで進む。 -/
theorem findPow2_zero : findPow2 0 32 1 = 32 := by decide

theorem CfiTable.z_eq (t : CfiTable) (i : Nat) :
    t.z i = (t.byte (0x2d + 4 * i + 2)).toNat + 256 * (t.byte (0x2d + 4 * i + 3)).toNat := rfl

theorem CfiTable.bufferExp_eq (t : CfiTable) : t.bufferExp = (t.byte 0x2a).toNat + 256 * (t.byte 0x2b).toNat := rfl

/-- 大きさは 2 の冪である。 -/
theorem CfiTable.Valid.unit_pow {t : CfiTable} (h : t.Valid c) {i : Nat} (hi : i < t.regions) :
    ∃ k, 1 ≤ k ∧ k < 32 ∧ t.unit i * c.chipInter = 2 ^ k := by
  obtain ⟨j, hj, hinter⟩ : ∃ j ≤ 3, c.chipInter = 2 ^ j :=
    (by decide : ∀ p ∈ busShapes, ∃ j ≤ 3, p.2 = 2 ^ j) _ c.valid
  rw [unit, hinter]
  rcases h.pow i hi with hz | ⟨k, hz⟩
  · refine ⟨7 + j, by omega, by omega, ?_⟩
    rw [if_pos hz, Nat.pow_add]
  · have hlt : t.z i < 2 ^ 16 := by
      have hlo := (t.byte (0x2d + 4 * i + 2)).isLt
      have hhi := (t.byte (0x2d + 4 * i + 3)).isLt
      rw [t.z_eq]
      omega
    rw [hz, Nat.pow_lt_pow_iff_right Nat.one_lt_two] at hlt
    refine ⟨8 + k + j, by omega, by omega, ?_⟩
    rw [hz, if_neg (Nat.two_pow_pos k).ne', Nat.pow_add, Nat.pow_add]

/-! ## 領域の繰り返し -/

theorem geoLoop_geoVect (geo : Nat → Geo) (n i pos : Nat) (d : Dbase) (j : Nat) :
    (geoLoop geo n i pos d).geoVect j = if i ≤ j ∧ j < i + n then geo (pos + 4 * (j - i)) else d.geoVect j := by
  induction n generalizing i pos d with
  | zero => rw [geoLoop, if_neg (by omega)]
  | succ n ih =>
      rw [geoLoop, ih, Dbase.setGeo]
      dsimp only
      by_cases hj : j = i
      · subst hj
        rw [if_neg (by omega), if_pos rfl, if_pos (by omega), Nat.sub_self, Nat.mul_zero, Nat.add_zero]
      · by_cases hin : i + 1 ≤ j ∧ j < i + 1 + n
        · rw [if_pos hin, if_pos (by omega), show pos + 4 + 4 * (j - (i + 1)) = pos + 4 * (j - i) by omega]
        · rw [if_neg hin, if_neg hj, if_neg (by omega)]

/-- 繰り返しは `geo_vect` だけを変える。 -/
theorem geoLoop_eq (geo : Nat → Geo) (n i pos : Nat) (d : Dbase) :
    geoLoop geo n i pos d = { d with geoVect := (geoLoop geo n i pos d).geoVect } := by
  induction n generalizing i pos d with
  | zero => rfl
  | succ n ih => rw [geoLoop, ih]; rfl

/-! ## 一つの呼び出し -/

/-- 領域の欄の番地。 -/
theorem isGeometry_region {t : CfiTable} (hv : t.Valid c) {i : Nat} (hi : i < t.regions) {j : Nat} (hj : j < 4) :
    IsGeometry (0x2d + 4 * i + j) := by
  have hle := hv.le
  constructor <;> omega

/-- `f3s_aCFI_ident()` が書く領域。 -/
theorem AmdView.geo_shows {v : AmdView} {t : CfiTable} (hv : t.Valid c)
    (hshows : ∀ a, IsGeometry a → v.query (a * c.amdMult) = c.command (t.byte a).toNat) {i : Nat} (hi : i < t.regions) :
    (v.geo c (0x2d + 4 * i)).unitNum = BitVec.ofNat 16 (t.y i + 1) ∧ 2 ^ (v.geo c (0x2d + 4 * i)).unitPow2.toNat = t.unit i * c.chipInter := by
  have hread : ∀ j < 4, v.read c (0x2d + 4 * i + j) = (t.byte (0x2d + 4 * i + j)).toNat := fun j hj => by
    rw [read, hshows _ (isGeometry_region hv hi hj), c.perChip_command (t.byte _).isLt]
  have h0 := hread 0 (by decide)
  have h1 := hread 1 (by decide)
  have h2 := hread 2 (by decide)
  have h3 := hread 3 (by decide)
  rw [Nat.add_zero] at h0
  obtain ⟨k, -, hk, hunit⟩ := hv.unit_pow hi
  constructor
  · simp only [AmdView.geo, h0, h1, CfiTable.y, CfiTable.half]
    apply BitVec.eq_of_toNat_eq
    simp only [u16, BitVec.toNat_add, BitVec.toNat_shiftLeft, BitVec.toNat_ofNat, Nat.shiftLeft_eq]
    omega
  · have hsize : (if v.read c (0x2d + 4 * i + 3) * 2 ^ 8 + v.read c (0x2d + 4 * i + 2) = 0 then 128
        else (v.read c (0x2d + 4 * i + 3) * 2 ^ 8 + v.read c (0x2d + 4 * i + 2)) * 256) = t.unit i := by
      have hz : v.read c (0x2d + 4 * i + 3) * 2 ^ 8 + v.read c (0x2d + 4 * i + 2) = t.z i := by
        rw [h2, h3, t.z_eq]
        omega
      rw [hz, CfiTable.unit, Nat.mul_comm]
    dsimp only [AmdView.geo]
    rw [hsize, hunit, halve_two_pow (by omega), Nat.zero_add, u16, BitVec.toNat_ofNat, Nat.mod_eq_of_lt (by omega)]

/-- `f3s_iCFI_ident()` が書く領域。 -/
theorem intelGeo_shows {query : Nat → BitVec 64} {w : Nat} {t : CfiTable} (hv : t.Valid c)
    (hshows : ∀ a, IsGeometry a → query (a * w) = c.command (t.byte a).toNat) {i : Nat} (hi : i < t.regions) :
    (intelGeo c query w (0x2d + 4 * i)).unitNum = BitVec.ofNat 16 (t.y i + 1) ∧
      (2 ^ (intelGeo c query w (0x2d + 4 * i)).unitPow2.toNat = t.unit i * c.chipInter ↔ t.z i ≠ 0) := by
  have hread : ∀ j < 4, c.masked (query ((0x2d + 4 * i + j) * w)) = (t.byte (0x2d + 4 * i + j)).toNat := fun j hj => by
    rw [hshows _ (isGeometry_region hv hi hj), c.masked_command (t.byte _).isLt]
  have h0 := hread 0 (by decide)
  have h1 := hread 1 (by decide)
  rw [Nat.add_zero] at h0
  obtain ⟨k, hone, hk, hunit⟩ := hv.unit_pow hi
  constructor
  · simp only [intelGeo, h0, h1, CfiTable.y, CfiTable.half, u16]
    congr 1
    omega
  · have hz : c.masked (query ((0x2d + 4 * i + 2) * w)) + c.masked (query ((0x2d + 4 * i + 3) * w)) * 0x100 = t.z i := by
      rw [hread 2 (by decide), hread 3 (by decide), t.z_eq]
      omega
    dsimp only [intelGeo]
    rw [hz, hunit]
    by_cases hzero : t.z i = 0
    · rw [hzero, Nat.zero_mul, Nat.zero_mod, findPow2_zero]
      refine iff_of_false (fun h => ?_) (fun h => h rfl)
      exact Nat.ne_of_lt hk (Nat.pow_right_injective le_rfl h).symm
    · have hlt : 2 ^ k < 2 ^ 32 := Nat.pow_lt_pow_right Nat.one_lt_two hk
      rw [CfiTable.unit, if_neg hzero, Nat.mul_comm 256] at hunit
      rw [show t.z i * 0x100 = t.z i * 256 from rfl, hunit, Nat.mod_eq_of_lt hlt, findPow2_two_pow hk hone (by omega), u16, BitVec.toNat_ofNat,
        Nat.mod_eq_of_lt (by omega : k < 2 ^ 16)]
      exact iff_of_true rfl hzero

/-- 大きさの合計は、一つのチップの大きさの `chip_inter` 倍になる。 -/
theorem Decoded.of_regions {t : CfiTable} {before after : Dbase} (hnum : after.geoNum.toNat = t.regions)
    (hunits : ∀ i < t.regions, (after.geoVect i).unitNum.toNat = t.y i + 1)
    (hsizes : ∀ i < t.regions, 2 ^ (after.geoVect i).unitPow2.toNat = t.unit i * c.chipInter)
    (hbuffer : after.bufferSize.toNat = 2 ^ t.bufferExp * c.chipInter) (houtside : ∀ i ≥ 8, after.geoVect i = before.geoVect i) :
    Decoded c t before after := by
  refine ⟨hnum, hunits, hsizes, hbuffer, houtside, ?_⟩
  rw [hnum, CfiTable.chipSize, ← List.sum_map_mul_right]
  congr 1
  refine List.map_congr_left fun i hi => ?_
  rw [List.mem_range] at hi
  rw [hunits i hi, hsizes i hi, Nat.mul_assoc]

/-- 領域の数が合うところから順に読んだとき、正しいのは、どの領域も欄に収まるときである。 -/
theorem decoded_iff {t : CfiTable} (hv : t.Valid c) {before after : Dbase} {geo : Nat → Geo} (hnum : after.geoNum.toNat = t.regions)
    (hbuffer : after.bufferSize.toNat = 2 ^ t.bufferExp * c.chipInter)
    (hgeo : ∀ j, after.geoVect j = if j < t.regions then geo (0x2d + 4 * j) else before.geoVect j)
    (hunits : ∀ i < t.regions, (geo (0x2d + 4 * i)).unitNum = BitVec.ofNat 16 (t.y i + 1)) :
    Decoded c t before after ↔
      ∀ i < t.regions, t.y i + 1 < 2 ^ 16 ∧ 2 ^ (geo (0x2d + 4 * i)).unitPow2.toNat = t.unit i * c.chipInter := by
  constructor
  · intro h i hi
    have hunit := h.units i hi
    have hsize := h.sizes i hi
    rw [hgeo, if_pos hi] at hunit hsize
    rw [hunits i hi, BitVec.toNat_ofNat] at hunit
    exact ⟨hunit ▸ Nat.mod_lt _ (by decide), hsize⟩
  · intro h
    refine .of_regions hnum (fun i hi => ?_) (fun i hi => ?_) hbuffer fun i hi => ?_
    · rw [hgeo, if_pos hi, hunits i hi, BitVec.toNat_ofNat, Nat.mod_eq_of_lt (h i hi).1]
    · rw [hgeo, if_pos hi]
      exact (h i hi).2
    · rw [hgeo, if_neg (by have := hv.le; omega)]

theorem CfiTable.Valid.bufferExp_lt {t : CfiTable} (h : t.Valid c) : t.bufferExp < 16 := by
  have hle : 2 ^ t.bufferExp ≤ 2 ^ t.bufferExp * c.chipInter := Nat.le_mul_of_pos_right _ c.inter_pos
  exact (Nat.pow_lt_pow_iff_right Nat.one_lt_two).mp (hle.trans_lt h.buffer)

/-- バッファの大きさは欄に収まる。 -/
theorem CfiTable.Valid.bufferSize {t : CfiTable} (h : t.Valid c) :
    (u16 (shl1 t.bufferExp) * u16 c.chipInter).toNat = 2 ^ t.bufferExp * c.chipInter := by
  have hexp := h.bufferExp_lt
  have hshl : shl1 t.bufferExp = 2 ^ t.bufferExp := Nat.mod_eq_of_lt (Nat.pow_lt_pow_right Nat.one_lt_two (by omega))
  rw [u16, u16, ← BitVec.ofNat_mul, hshl, BitVec.toNat_ofNat, Nat.mod_eq_of_lt h.buffer]

theorem CfiTable.Valid.geoNum {t : CfiTable} (h : t.Valid c) : (u16 t.regions).toNat = t.regions := by
  have hle := h.le
  rw [u16, BitVec.toNat_ofNat, Nat.mod_eq_of_lt (by omega)]

/-- `f3s_aCFI_ident()` は、単位の数が欄に収まるときに限って正しく読む。 -/
theorem aCFIIdent_decoded (chip : CfiChip c) (d : Dbase) :
    ∃ d', aCFIIdent c chip.amd d = some d' ∧ (Decoded c chip.table d d' ↔ ∀ i < chip.table.regions, chip.table.y i + 1 < 2 ^ 16) := by
  have hv := chip.valid
  have hread : ∀ a, IsGeometry a → chip.amd.read c a = (chip.table.byte a).toNat := fun a ha => by
    rw [AmdView.read, chip.amdShows a ha, c.perChip_command (chip.table.byte a).isLt]
  have hexp : ((u16 (chip.amd.read c 0x2b) <<< 8) + u16 (chip.amd.read c 0x2a)).toNat = chip.table.bufferExp := by
    have hhi := (chip.table.byte 0x2b).isLt
    have hlo := (chip.table.byte 0x2a).isLt
    simp only [hread 0x2a (by decide), hread 0x2b (by decide), chip.table.bufferExp_eq, u16, BitVec.toNat_add, BitVec.toNat_shiftLeft, BitVec.toNat_ofNat, Nat.shiftLeft_eq]
    omega
  have hnum : u16 (chip.amd.read c 0x2c) = u16 chip.table.regions := by rw [hread 0x2c (by decide)]; rfl
  rw [aCFIIdent, if_pos chip.amdAccepted]
  refine ⟨_, rfl, ?_⟩
  rw [@decoded_iff c chip.table hv _ _ (chip.amd.geo c)]
  · exact forall₂_congr fun i hi => and_iff_left (chip.amd.geo_shows hv chip.amdShows hi).2
  · rw [geoLoop_eq]
    exact (congrArg BitVec.toNat hnum).trans hv.geoNum
  · rw [geoLoop_eq]
    dsimp only
    rw [hexp, hv.bufferSize]
  · intro j
    dsimp only
    rw [geoLoop_geoVect, hnum, hv.geoNum]
    simp
  · exact fun i hi => (chip.amd.geo_shows hv chip.amdShows hi).1

/-- `f3s_iCFI_ident()` は、`geo_num` に足す。正しく読むのは、それが 0 で、どの領域も 128 バイトの単位でなく、欄に収まるときに限る。 -/
theorem iCFIIdent_decoded (chip : CfiChip c) (d : Dbase) :
    ∃ d', iCFIIdent c chip.intel d = some d' ∧ d'.geoNum = d.geoNum + u16 chip.table.regions ∧
      (Decoded c chip.table d d' ↔ d.geoNum = 0#16 ∧ chip.table.Plain) := by
  have hv := chip.valid
  have hread : ∀ a, IsGeometry a → c.masked (chip.intel (a * chip.width)) = (chip.table.byte a).toNat := fun a ha => by
    rw [chip.intelShows a ha, c.masked_command (chip.table.byte a).isLt]
  have hnum : c.masked (chip.intel (0x2c * chip.width)) = chip.table.regions := hread 0x2c (by decide)
  have hexp : c.masked (chip.intel (0x2a * chip.width)) + c.masked (chip.intel (0x2b * chip.width)) * 100 = chip.table.bufferExp := by
    have hlt := hv.bufferExp_lt
    rw [hread 0x2a (by decide), hread 0x2b (by decide)]
    rw [chip.table.bufferExp_eq] at hlt ⊢
    omega
  simp only [iCFIIdent, chip.intelWidth, if_pos chip.intelAccepted]
  refine ⟨_, rfl, ?_, ?_⟩
  · rw [geoLoop_eq, hnum]
  · rw [geoLoop_eq, hnum]
    by_cases hzero : d.geoNum = 0#16
    · rw [@decoded_iff c chip.table hv _ _ (intelGeo c chip.intel chip.width), and_iff_right hzero]
      · exact forall₂_congr fun i hi => and_congr_right fun _ => (intelGeo_shows hv chip.intelShows hi).2
      · dsimp only
        rw [hzero, BitVec.zero_add, hv.geoNum]
      · dsimp only
        rw [hexp, hv.bufferSize]
      · intro j
        dsimp only
        rw [geoLoop_geoVect, hzero]
        simp
      · exact fun i hi => (intelGeo_shows hv chip.intelShows hi).1
    · refine iff_of_false (fun h => hzero ?_) fun h => hzero h.1
      exact BitVec.add_left_eq_self.mp (BitVec.eq_of_toNat_eq (h.num.trans hv.geoNum.symm))

/-! ## `f3s_flash_probe()` -/

theorem allDecoded_cons {t : CfiTable} {ts : List CfiTable} {before after : Dbase} {rest : List (Dbase × Dbase)} :
    AllDecoded c (t :: ts) ((before, after) :: rest) ↔ Decoded c t before after ∧ AllDecoded c ts rest := by
  constructor
  · intro h
    cases h with
    | cons hd hrest => exact ⟨hd, hrest⟩
  · exact fun h => .cons h.1 h.2

/-- AMD の命令では、続くチップの数によらない。 -/
theorem probeFurther_amd (further : List (CfiChip c)) (dummy : Dbase) :
    AllDecoded c (further.map (·.table)) (probeFurther (aCFIIdent c) dummy (further.map (·.amd))) ↔
      ∀ chip ∈ further, ∀ i < chip.table.regions, chip.table.y i + 1 < 2 ^ 16 := by
  induction further generalizing dummy with
  | nil => exact iff_of_true .nil fun _ h => absurd h List.not_mem_nil
  | cons chip further ih =>
      obtain ⟨d, hd, hright⟩ := aCFIIdent_decoded chip dummy
      rw [List.map_cons, List.map_cons, probeFurther, hd]
      dsimp only
      rw [allDecoded_cons, hright, ih, List.forall_mem_cons]

/-- Intel の命令では、続くチップは前のチップの `geo_num` の続きに書く。 -/
theorem probeFurther_intel (further : List (CfiChip c)) (dummy : Dbase) :
    AllDecoded c (further.map (·.table)) (probeFurther (iCFIIdent c) dummy (further.map (·.intel))) ↔
      (∀ chip ∈ further, chip.table.Plain) ∧ DummyClean dummy further := by
  cases further with
  | nil => exact iff_of_true .nil ⟨fun _ h => absurd h List.not_mem_nil, trivial⟩
  | cons chip further =>
      obtain ⟨d, hd, hnum, hright⟩ := iCFIIdent_decoded chip dummy
      rw [List.map_cons, List.map_cons, probeFurther, hd]
      dsimp only
      rw [allDecoded_cons, hright]
      cases further with
      | nil =>
          rw [List.forall_mem_singleton]
          exact ⟨fun h => ⟨h.1.2, h.1.1⟩, fun h => ⟨⟨h.2, h.1⟩, .nil⟩⟩
      | cons chip' further =>
          obtain ⟨d', hd', -, hright'⟩ := iCFIIdent_decoded chip' d
          rw [List.map_cons, List.map_cons, probeFurther, hd']
          dsimp only
          rw [allDecoded_cons, hright']
          refine iff_of_false (fun h => ?_) fun h => h.2
          -- 一つ目の後の `geo_num` は領域の数で、0 でない。
          have hsum := h.2.1.1
          rw [hnum, h.1.1, BitVec.zero_add] at hsum
          have hpos := chip.valid.pos
          rw [← chip.valid.geoNum, hsum] at hpos
          exact absurd hpos (by decide)

/-- 二つの命令がどのチップの表も正しく読むのは、どの領域の単位の数も欄に収まり、128 バイトの単位がなく、続くチップが高々一つで、そのときの
`dummy_dbase` の `geo_num` が 0 のときである。 -/
theorem probe_decodes_iff (dbase dummy : Dbase) (first : CfiChip c) (further : List (CfiChip c)) :
    ProbeDecodes c dbase dummy first further ↔ (∀ chip ∈ first :: further, chip.table.Plain) ∧ DummyClean dummy further := by
  obtain ⟨da, hda, hamd⟩ := aCFIIdent_decoded first { dbase with geoNum := 0#16 }
  obtain ⟨di, hdi, -, hintel⟩ := iCFIIdent_decoded first { dbase with geoNum := 0#16 }
  have hiffAmd : AllDecoded c ((first :: further).map (·.table)) (probeIdents (aCFIIdent c) dbase dummy first.amd (further.map (·.amd))) ↔
      ∀ chip ∈ first :: further, ∀ i < chip.table.regions, chip.table.y i + 1 < 2 ^ 16 := by
    rw [probeIdents, hda, List.map_cons]
    dsimp only
    rw [allDecoded_cons, hamd, probeFurther_amd, List.forall_mem_cons]
  have hiffIntel : AllDecoded c ((first :: further).map (·.table))
      (probeIdents (iCFIIdent c) dbase dummy first.intel (further.map (·.intel))) ↔
      (∀ chip ∈ first :: further, chip.table.Plain) ∧ DummyClean dummy further := by
    rw [probeIdents, hdi, List.map_cons]
    dsimp only
    rw [allDecoded_cons, hintel, probeFurther_intel, List.forall_mem_cons, and_iff_right rfl, and_assoc]
  refine ⟨fun h => hiffIntel.mp h.intel, fun h => ⟨hiffAmd.mpr fun chip hchip i hi => ?_, hiffIntel.mpr h⟩⟩
  exact (h.1 chip hchip i hi).1

/-- 16 ビットのチップ一つ。 -/
def oneCfi : FlashCfg := ⟨2, 1, oneChip⟩

/-- 128 バイトの単位が八つの表。 -/
def smallTable : CfiTable where
  byte a := if a = 0x2c then 0x01#8 else if a = 0x2d then 0x07#8 else 0x00#8

/-- `smallTable` の前に、識別のための値を並べる。 -/
def cfiWord (heads : List (Nat × Nat)) (a : Nat) : BitVec 64 :=
  BitVec.ofNat 64 ((heads.lookup a).getD (smallTable.byte a).toNat)

/-- AMD の番号と、CFI の表。 -/
def smallAmd : AmdView where
  auto _ := 0x01#64
  query addr := cfiWord [(0x10, 0x51), (0x11, 0x52), (0x12, 0x59), (0x15, 0x40), (0x40, 0x50), (0x41, 0x52), (0x42, 0x49)] (addr / 2)

/-- Intel の番号と、CFI の表。 -/
def smallIntel (addr : Nat) : BitVec 64 := cfiWord [(0x00, 0x89), (0x10, 0x51), (0x11, 0x52), (0x12, 0x59), (0x13, 0x01)] (addr / 2)

theorem cfiWord_geometry {heads : List (Nat × Nat)} (hheads : heads.all (fun p => p.1 < 0x2a || 0x3c < p.1) = true) {a : Nat}
    (ha : IsGeometry a) : cfiWord heads a = oneCfi.command (smallTable.byte a).toNat := by
  have hnone : heads.lookup a = none := by
    rw [List.lookup_eq_none_iff]
    intro p hp
    have hlt := List.all_eq_true.mp hheads p hp
    rw [bne_iff_ne]
    rintro rfl
    rw [Bool.or_eq_true, decide_eq_true_eq, decide_eq_true_eq] at hlt
    exact hlt.elim (Nat.not_lt.mpr ha.1) (Nat.not_lt.mpr ha.2)
  rw [cfiWord, hnone, FlashCfg.command, show oneCfi.deviceMult = 1#64 from rfl, BitVec.mul_one]
  rfl

theorem smallTable_valid : smallTable.Valid oneCfi :=
  ⟨by decide, by decide, fun i hi => .inl ((by decide : ∀ i < smallTable.regions, smallTable.z i = 0) i hi), by decide⟩

theorem smallAmd_shows (a : Nat) (ha : IsGeometry a) :
    smallAmd.query (a * oneCfi.amdMult) = oneCfi.command (smallTable.byte a).toNat := by
  rw [show oneCfi.amdMult = 2 from rfl, smallAmd]
  dsimp only
  rw [Nat.mul_div_cancel a Nat.two_pos]
  exact cfiWord_geometry rfl ha

theorem smallIntel_shows (a : Nat) (ha : IsGeometry a) : smallIntel (a * 2) = oneCfi.command (smallTable.byte a).toNat := by
  rw [smallIntel, Nat.mul_div_cancel a Nat.two_pos]
  exact cfiWord_geometry rfl ha

theorem smallAmd_accepted : smallAmd.Accepted oneCfi := by decide

theorem smallIntel_width : cfiWidth oneCfi smallIntel = some 2 := by decide

theorem smallIntel_accepted : IntelAccepted oneCfi smallIntel 2 := by decide

/-- `smallTable` を持つチップ。 -/
def smallChip : CfiChip oneCfi where
  table := smallTable
  amd := smallAmd
  intel := smallIntel
  width := 2
  valid := smallTable_valid
  amdAccepted := smallAmd_accepted
  amdShows := smallAmd_shows
  intelWidth := smallIntel_width
  intelAccepted := smallIntel_accepted
  intelShows := smallIntel_shows

/-- 全ての欄が 0 の構造体。 -/
def blankDbase : Dbase := ⟨0, 0, 0, "", 0, 0, 0, 0, 0, fun _ => ⟨0, 0⟩⟩

/-- 128 バイトの単位では、Intel の `unit_pow2` が 32 になる。 -/
theorem not_probe_decodes : ¬ ∀ (c : FlashCfg) (dbase dummy : Dbase) (first : CfiChip c) (further : List (CfiChip c)),
    ProbeDecodes c dbase dummy first further := by
  intro h
  obtain ⟨d, hd, -, hright⟩ := iCFIIdent_decoded smallChip blankDbase
  have hall := (h oneCfi blankDbase blankDbase smallChip []).intel
  rw [probeIdents, show iCFIIdent oneCfi smallChip.intel { blankDbase with geoNum := 0#16 } = some d from hd, List.map_cons] at hall
  have hplain := (hright.mp (allDecoded_cons.mp hall).1).2
  exact absurd rfl (hplain 0 (by decide)).2

end Imx6Bsp.Flash
