import Imx6Bsp.Boot.FatGeometry

/-!
# `fat_detect_type()` の停止と配置の整合

二つの割り算は、割る数が 0 でないか、一度も引けないときに限り終わる。データ領域の始まりは FAT を二つとして数え、データ領域の
大きさは FAT の個数を掛けて数えるので、二つの配置が一致しないことがある。
-/

namespace Imx6Bsp.Boot

open Imx6Bsp.Lib Imx6Bsp.Startup

/-! ## 引き算の繰り返し -/

/-- 引けないか、割る数が正なら、繰り返しは終わる。 -/
def DivHalts (r d : Int) : Prop := r < d ∨ 0 < d

theorem ediv_step {r d : Int} (hd : 0 < d) (h : r ≥ d) : (r / d).toNat = ((r - d) / d).toNat + 1 := by
  have hstep : r / d = (r - d) / d + 1 := by
    rw [← Int.add_mul_ediv_right (r - d) 1 hd.ne', Int.one_mul, Int.sub_add_cancel]
  have hpos : 0 ≤ (r - d) / d := Int.ediv_nonneg (by omega) hd.le
  omega

theorem divLoop_eq {fuel : Nat} {r d : Int} {n k : Nat} (hd : 0 < d) (h : divLoop fuel r d n = some k) : k = n + (r / d).toNat := by
  induction fuel generalizing r n with
  | zero => cases h
  | succ fuel ih =>
      rw [divLoop] at h
      split_ifs at h with hge
      · rw [ih h, ediv_step hd hge]
        omega
      · cases h
        have hneg : r / d ≤ 0 := by
          apply Int.lt_add_one_iff.mp
          apply Int.ediv_lt_of_lt_mul hd
          omega
        omega

theorem divLoop_enough {fuel : Nat} {r d : Int} (hd : 0 < d) (n : Nat) (hfuel : r.toNat < fuel) : ∃ k, divLoop fuel r d n = some k := by
  induction fuel generalizing r n with
  | zero => exact absurd hfuel (Nat.not_lt_zero _)
  | succ fuel ih =>
      rw [divLoop]
      split_ifs with hge
      · apply ih
        omega
      · exact ⟨n, rfl⟩

theorem divLoop_stuck {fuel : Nat} {r d : Int} {n : Nat} (h : ¬ DivHalts r d) : divLoop fuel r d n = none := by
  unfold DivHalts at h
  induction fuel generalizing r n with
  | zero => rfl
  | succ fuel ih =>
      rw [divLoop, if_pos (by omega)]
      apply ih
      omega

theorem divLoop_halts_iff {r d : Int} : (∃ N, ∀ fuel ≥ N, ∃ k, divLoop fuel r d 0 = some k) ↔ DivHalts r d := by
  constructor
  · rintro ⟨N, h⟩
    by_contra hstuck
    obtain ⟨k, hk⟩ := h N le_rfl
    rw [divLoop_stuck hstuck] at hk
    cases hk
  · intro h
    refine ⟨r.toNat + 1, fun fuel hfuel => ?_⟩
    cases h with
    | inl hlt =>
        obtain ⟨fuel, rfl⟩ := Nat.exists_eq_add_of_le' hfuel
        refine ⟨0, ?_⟩
        rw [← Nat.add_assoc, divLoop, if_neg (by omega)]
    | inr hd => exact divLoop_enough hd 0 (by omega)

/-! ## 停止 -/

/-- `fat_detect_type()` の二つの繰り返しが、どちらも終わる。`data_sectors` は `int` として負のことがある。 -/
def Terminating (m : Mem) (bpb : Nat) (fsInfo : FsInfo) : Prop :=
  (secSize m bpb ≠ 0 ∨ numRootEnts m bpb = 0) ∧
    (secPerClus m bpb ≠ 0 ∨
      2 ^ 31 ≤ (layoutOf m bpb (((numRootEnts m bpb : Int) * 32 + secSize m bpb - 1) / secSize m bpb).toNat fsInfo).dataSectors)

/-- 512 バイトのセクタで、クラスタが空でなく、管理領域が全体に収まる BPB。 -/
structure Layout512 (m : Mem) (bpb : Nat) : Prop where
  sector : secSize m bpb = 512
  cluster : secPerClus m bpb ≠ 0
  fits : numRsvdSecs m bpb + numFats m bpb * (if num16FatSecs m bpb = 0 then num32FatSecs m bpb else num16FatSecs m bpb) +
    (numRootEnts m bpb * 32 + 511) / 512 ≤ if num16Secs m bpb = 0 then num32Secs m bpb else num16Secs m bpb

/-- データ領域の二つの数え方が一致し、どのクラスタも全体に収まる。 -/
structure Consistent (fsInfo : FsInfo) : Prop where
  start : fsInfo.cluster2Start = fsInfo.reservedSectors + fsInfo.numberOfFats * fsInfo.fatSize + fsInfo.rootDirSectors
  total : fsInfo.cluster2Start + fsInfo.dataSectors = fsInfo.totalSectors
  clusters : ∀ c, 2 ≤ c → c < fsInfo.countOfClusters + 2 → clust2fsect fsInfo c + fsInfo.clusterSize ≤ fsInfo.totalSectors

/-- FAT が二つであるか、空である。 -/
def TwoFats (m : Mem) (bpb : Nat) : Prop :=
  let fatSize := if num16FatSecs m bpb = 0 then num32FatSecs m bpb else num16FatSecs m bpb
  numFats m bpb = 2 ∨ fatSize = 0 ∨ numFats m bpb = 0 ∧ fatSize = 2 ^ 31

theorem readLE_two_lt (m : Mem) (a : Nat) : m.readLE a 2 < 2 ^ 16 := m.readLE_lt a 2

theorem readLE_four_lt (m : Mem) (a : Nat) : m.readLE a 4 < 2 ^ 32 := m.readLE_lt a 4

theorem fatDetectType_some {fuel : Nat} {m : Mem} {bpb : Nat} {fsInfo : FsInfo} {r : Int × FsInfo} (hsig : bpbSig m bpb = 0xaa55)
    (h : fatDetectType fuel m bpb fsInfo = some r) :
    ∃ ns nc root, divLoop fuel ((numRootEnts m bpb : Int) * 32 + secSize m bpb - 1) (secSize m bpb) 0 = some ns ∧
      divLoop fuel (int32 (layoutOf m bpb ns fsInfo).dataSectors) (secPerClus m bpb) 0 = some nc ∧
      r.2 = { layoutOf m bpb ns fsInfo with countOfClusters := nc, rootDirStart := root } := by
  unfold fatDetectType at h
  rw [if_neg (not_not.mpr hsig)] at h
  dsimp only at h
  split at h
  · cases h
  · rename_i ns hns
    split at h
    · cases h
    · rename_i nc hnc
      split_ifs at h
      · cases h
        exact ⟨ns, nc, _, hns, hnc, rfl⟩
      · cases h
        exact ⟨ns, nc, _, hns, hnc, rfl⟩
      · cases h
        exact ⟨ns, nc, _, hns, hnc, rfl⟩

theorem fatDetectType_halts {fuel ns nc : Nat} {m : Mem} {bpb : Nat} {fsInfo : FsInfo}
    (hns : divLoop fuel ((numRootEnts m bpb : Int) * 32 + secSize m bpb - 1) (secSize m bpb) 0 = some ns)
    (hnc : divLoop fuel (int32 (layoutOf m bpb ns fsInfo).dataSectors) (secPerClus m bpb) 0 = some nc) :
    ∃ r, fatDetectType fuel m bpb fsInfo = some r := by
  unfold fatDetectType
  split
  · exact ⟨_, rfl⟩
  · have hcs : (layoutOf m bpb ns fsInfo).clusterSize = secPerClus m bpb := rfl
    simp only [hns, hcs, hnc]
    split_ifs
    · exact ⟨_, rfl⟩
    · exact ⟨_, rfl⟩
    · exact ⟨_, rfl⟩

/-- `num_root_ents` の割り算の商。 -/
theorem rootSectors_eq {fuel ns : Nat} {m : Mem} {bpb : Nat} (hbs : secSize m bpb ≠ 0 ∨ numRootEnts m bpb = 0)
    (h : divLoop fuel ((numRootEnts m bpb : Int) * 32 + secSize m bpb - 1) (secSize m bpb) 0 = some ns) :
    ns = (((numRootEnts m bpb : Int) * 32 + secSize m bpb - 1) / secSize m bpb).toNat := by
  by_cases hzero : secSize m bpb = 0
  · have hroot := hbs.resolve_left (not_not.mpr hzero)
    rw [hzero, hroot] at h ⊢
    cases fuel with
    | zero => cases h
    | succ fuel =>
        rw [divLoop, if_neg (by decide)] at h
        cases h
        rfl
  · rw [divLoop_eq (by omega) h, Nat.zero_add]

theorem int32_neg_iff {x : Nat} (hx : x < 2 ^ 32) : int32 x < 0 ↔ 2 ^ 31 ≤ x := by
  unfold int32
  split_ifs <;> omega

theorem dataSectors_lt (m : Mem) (bpb ns : Nat) (fsInfo : FsInfo) : (layoutOf m bpb ns fsInfo).dataSectors < 2 ^ 32 := wrap32_lt _

/-- `fat_detect_type()` の停止。 -/
theorem fatDetectType_terminates_iff {m : Mem} {bpb : Nat} {fsInfo : FsInfo} (hsig : bpbSig m bpb = 0xaa55) :
    (∃ fuel r, fatDetectType fuel m bpb fsInfo = some r) ↔ Terminating m bpb fsInfo := by
  have hroot : DivHalts ((numRootEnts m bpb : Int) * 32 + secSize m bpb - 1) (secSize m bpb) ↔
      secSize m bpb ≠ 0 ∨ numRootEnts m bpb = 0 := by
    unfold DivHalts
    omega
  have hdata : ∀ ns, DivHalts (int32 (layoutOf m bpb ns fsInfo).dataSectors) (secPerClus m bpb) ↔
      secPerClus m bpb ≠ 0 ∨ 2 ^ 31 ≤ (layoutOf m bpb ns fsInfo).dataSectors := by
    intro ns
    have hneg := int32_neg_iff (dataSectors_lt m bpb ns fsInfo)
    unfold DivHalts
    by_cases hspc : secPerClus m bpb = 0
    · rw [hspc]
      omega
    · omega
  constructor
  · rintro ⟨fuel, r, h⟩
    obtain ⟨ns, nc, root, hns, hnc, -⟩ := fatDetectType_some hsig h
    have hbs : secSize m bpb ≠ 0 ∨ numRootEnts m bpb = 0 := by
      by_contra hstuck
      rw [← hroot] at hstuck
      rw [divLoop_stuck hstuck] at hns
      cases hns
    refine ⟨hbs, ?_⟩
    rw [← rootSectors_eq hbs hns, ← hdata]
    by_contra hstuck
    rw [divLoop_stuck hstuck] at hnc
    cases hnc
  · rintro ⟨hbs, hcs⟩
    obtain ⟨N, hN⟩ := divLoop_halts_iff.mpr (hroot.mpr hbs)
    rw [← hdata] at hcs
    obtain ⟨M, hM⟩ := divLoop_halts_iff.mpr hcs
    obtain ⟨ns, hns⟩ := hN (max N M) (le_max_left N M)
    obtain ⟨nc, hnc⟩ := hM (max N M) (le_max_right N M)
    rw [← rootSectors_eq hbs hns] at hnc
    exact ⟨_, fatDetectType_halts hns hnc⟩

/-! ## 配置の整合 -/

/-- 二つの配置の始まりは、FAT が二つであるか空のときに限り一致する。 -/
theorem two_fats_iff {n f base : Nat} (hf : f < 2 ^ 32) (hfits : base + n * f < 2 ^ 32) :
    wrap32 (base + 2 * f) = base + n * f ↔ n = 2 ∨ f = 0 ∨ n = 0 ∧ f = 2 ^ 31 := by
  unfold wrap32
  rcases n with _ | _ | _ | n
  · omega
  · omega
  · omega
  · have hmul : (n + 1 + 1 + 1) * f = 2 * f + (n + 1) * f := by ring
    have hge : f ≤ (n + 1) * f := Nat.le_mul_of_pos_left f (Nat.succ_pos n)
    have hzero : (n + 1) * f = 0 ↔ f = 0 := by simp
    omega

theorem cluster2Start_eq (m : Mem) (bpb ns : Nat) (fsInfo : FsInfo) :
    (layoutOf m bpb ns fsInfo).cluster2Start =
      wrap32 (numRsvdSecs m bpb + (numRootEnts m bpb * 32 + 511) / 512 + 2 * (layoutOf m bpb ns fsInfo).fatSize) := by
  simp only [layoutOf, wrap32]
  omega

/-- 管理領域の大きさ。 -/
def metaSectors (fsInfo : FsInfo) : Nat :=
  fsInfo.reservedSectors + fsInfo.rootDirSectors + fsInfo.numberOfFats * fsInfo.fatSize

theorem dataSectors_eq {m : Mem} {bpb ns : Nat} {fsInfo : FsInfo} (hlt : (layoutOf m bpb ns fsInfo).totalSectors < 2 ^ 32)
    (hfits : metaSectors (layoutOf m bpb ns fsInfo) ≤ (layoutOf m bpb ns fsInfo).totalSectors) :
    (layoutOf m bpb ns fsInfo).dataSectors = (layoutOf m bpb ns fsInfo).totalSectors - metaSectors (layoutOf m bpb ns fsInfo) := by
  have hdata : (layoutOf m bpb ns fsInfo).dataSectors = wrap32 ((layoutOf m bpb ns fsInfo).totalSectors + (2 ^ 32 -
      wrap32 ((layoutOf m bpb ns fsInfo).reservedSectors + (layoutOf m bpb ns fsInfo).numberOfFats * (layoutOf m bpb ns fsInfo).fatSize
        + ns))) := rfl
  have hns : (layoutOf m bpb ns fsInfo).rootDirSectors = ns := rfl
  rw [hdata]
  unfold metaSectors at *
  rw [wrap32_of_lt (x := _ + _ + ns) (by omega), wrap32_sub (by omega) hlt]
  omega

/-- 始まりが管理領域の直後なら、どのクラスタも全体に収まる。 -/
theorem consistent_of_start {fsInfo : FsInfo} (hspc : 0 < fsInfo.clusterSize) (hlt : fsInfo.totalSectors < 2 ^ 32)
    (hfits : metaSectors fsInfo ≤ fsInfo.totalSectors) (hstart : fsInfo.cluster2Start = metaSectors fsInfo)
    (hdata : fsInfo.dataSectors = fsInfo.totalSectors - metaSectors fsInfo)
    (hcount : fsInfo.countOfClusters = (int32 fsInfo.dataSectors / fsInfo.clusterSize).toNat) : Consistent fsInfo := by
  constructor
  · rw [hstart]
    unfold metaSectors
    omega
  · omega
  · intro c hc hcn
    rw [hcount] at hcn
    have hsmall : fsInfo.dataSectors < 2 ^ 31 := by
      by_contra hlarge
      have hneg : int32 fsInfo.dataSectors / fsInfo.clusterSize < 0 :=
        Int.ediv_neg_of_neg_of_pos ((int32_neg_iff (by omega)).mpr (by omega)) (by omega)
      omega
    have hint : int32 fsInfo.dataSectors = fsInfo.dataSectors := if_pos hsmall
    rw [hint, ← Int.natCast_ediv, Int.toNat_natCast] at hcn
    have hmul : (c - 2 + 1) * fsInfo.clusterSize ≤ fsInfo.dataSectors :=
      (Nat.mul_le_mul_right _ (by omega)).trans (Nat.div_mul_le_self _ _)
    have hle : c - 2 ≤ (c - 2) * fsInfo.clusterSize := Nat.le_mul_of_pos_right _ hspc
    rw [Nat.succ_mul] at hmul
    have hsub : wrap32 (c + (2 ^ 32 - 2)) = c - 2 := wrap32_sub hc (by omega)
    unfold clust2fsect
    rw [hsub, wrap32_of_lt (by omega)]
    omega

theorem consistent_iff {m : Mem} {bpb nc root : Nat} {fsInfo : FsInfo} (h : Layout512 m bpb)
    (hnc : nc = (int32 (layoutOf m bpb ((numRootEnts m bpb * 32 + 511) / 512) fsInfo).dataSectors / secPerClus m bpb).toNat) :
    Consistent { layoutOf m bpb ((numRootEnts m bpb * 32 + 511) / 512) fsInfo with countOfClusters := nc, rootDirStart := root } ↔
      TwoFats m bpb := by
  have hspc := h.cluster
  have hfat : (layoutOf m bpb ((numRootEnts m bpb * 32 + 511) / 512) fsInfo).fatSize < 2 ^ 32 := by
    have h2 : num16FatSecs m bpb < 2 ^ 16 := readLE_two_lt m _
    have h4 : num32FatSecs m bpb < 2 ^ 32 := readLE_four_lt m _
    dsimp only [layoutOf]
    split <;> omega
  have htotal : (layoutOf m bpb ((numRootEnts m bpb * 32 + 511) / 512) fsInfo).totalSectors < 2 ^ 32 := by
    have h2 : num16Secs m bpb < 2 ^ 16 := readLE_two_lt m _
    have h4 : num32Secs m bpb < 2 ^ 32 := readLE_four_lt m _
    dsimp only [layoutOf]
    split <;> omega
  have hfits : metaSectors (layoutOf m bpb ((numRootEnts m bpb * 32 + 511) / 512) fsInfo) ≤
      (layoutOf m bpb ((numRootEnts m bpb * 32 + 511) / 512) fsInfo).totalSectors := by
    have hle := h.fits
    dsimp only [layoutOf, metaSectors]
    omega
  have htwo : TwoFats m bpb ↔ wrap32 (numRsvdSecs m bpb + (numRootEnts m bpb * 32 + 511) / 512 + 2 * _) =
      numRsvdSecs m bpb + (numRootEnts m bpb * 32 + 511) / 512 + numFats m bpb * _ :=
    (two_fats_iff hfat (hfits.trans_lt htotal)).symm
  have hstart := cluster2Start_eq m bpb ((numRootEnts m bpb * 32 + 511) / 512) fsInfo
  rw [htwo, ← hstart]
  constructor
  · intro hc
    have hs := hc.start
    dsimp only [layoutOf] at hs ⊢
    omega
  · intro hs
    exact consistent_of_start (Nat.pos_of_ne_zero hspc) htotal hfits hs (dataSectors_eq htotal hfits) hnc

/-! ## 停止と整合 -/

/-- 停止し、配置の決まる BPB では整合する。 -/
def SoundGeometry (m : Mem) (bpb : Nat) (fsInfo : FsInfo) : Prop :=
  (∃ fuel r, fatDetectType fuel m bpb fsInfo = some r) ∧
    (Layout512 m bpb → ∀ fuel r, fatDetectType fuel m bpb fsInfo = some r → Consistent r.2)

theorem fat_detect_type_sound_iff {m : Mem} {bpb : Nat} (fsInfo : FsInfo) (hsig : bpbSig m bpb = 0xaa55) :
    SoundGeometry m bpb fsInfo ↔ Terminating m bpb fsInfo ∧ (Layout512 m bpb → TwoFats m bpb) := by
  have hresult : Layout512 m bpb → ∀ fuel r, fatDetectType fuel m bpb fsInfo = some r → (Consistent r.2 ↔ TwoFats m bpb) := by
    intro hlayout fuel r h
    obtain ⟨ns, nc, root, hns, hnc, hr⟩ := fatDetectType_some hsig h
    have hspc := hlayout.cluster
    have hsector : ns = (numRootEnts m bpb * 32 + 511) / 512 := by
      rw [rootSectors_eq (.inl (by rw [hlayout.sector]; decide)) hns, hlayout.sector]
      omega
    rw [hr]
    subst hsector
    apply consistent_iff hlayout
    rw [divLoop_eq (by omega) hnc, Nat.zero_add]
  unfold SoundGeometry
  rw [fatDetectType_terminates_iff hsig]
  constructor
  · rintro ⟨hterm, hcons⟩
    refine ⟨hterm, fun hlayout => ?_⟩
    obtain ⟨fuel, r, h⟩ := (fatDetectType_terminates_iff hsig).mpr hterm
    exact (hresult hlayout fuel r h).mp (hcons hlayout fuel r h)
  · rintro ⟨hterm, htwo⟩
    exact ⟨hterm, fun hlayout fuel r h => (hresult hlayout fuel r h).mpr (htwo hlayout)⟩

/-- 512 バイトのセクタ、8 セクタのクラスタ、`fats` 個の FAT の BPB。 -/
def sampleBpb (fats : UInt8) : Mem := fun x =>
  ([(12, 2), (13, 8), (14, 1), (16, fats), (17, 16), (19, 100), (22, 1), (510, 0x55), (511, 0xaa)] : List (Nat × UInt8)).lookup x |>.getD 0

def blankFsInfo : FsInfo := ⟨0, 0, 0, 0, 0, 0, 0, 0, 0, 0, 0, 0, 0, 0, 0⟩

theorem fat_detect_type_two_fats : bpbSig (sampleBpb 2) 0 = 0xaa55 ∧ SoundGeometry (sampleBpb 2) 0 blankFsInfo :=
  ⟨by decide, (fat_detect_type_sound_iff blankFsInfo (by decide)).mpr ⟨⟨.inl (by decide), .inl (by decide)⟩, fun _ => .inl (by decide)⟩⟩

/-- FAT が一つの BPB では、データ領域が一セクタ後ろにずれる。 -/
theorem fat_detect_type_one_fat : bpbSig (sampleBpb 1) 0 = 0xaa55 ∧ Layout512 (sampleBpb 1) 0 ∧
    ∃ r, fatDetectType 20 (sampleBpb 1) 0 blankFsInfo = some r ∧ r.2.cluster2Start = 4 ∧
      r.2.reservedSectors + r.2.numberOfFats * r.2.fatSize + r.2.rootDirSectors = 3 :=
  ⟨by decide, ⟨by decide, by decide, by decide⟩, _, rfl, by decide, by decide⟩

end Imx6Bsp.Boot
