import Imx6Bsp.Devb.Ident

/-!
# eMMC の区画の選択（`devb/mmcsd/sim.c`、`sim_mmc.c`）

`mmc_sim_action()` の論理ユニット番号の確かめ、`mmc_set_partition()`、`mmc_capacity()` を写す。番号は、論理ユニットの番号、`partitions` の番号、
カードの `PART_CONFIG` の番号の三通りがある。
-/

namespace Imx6Bsp.Devb

/-! ## 要求 -/

/-- `mmc_sim_action()` が受け付ける宛先。`MMC_MAX_TARGET` は 1 である。 -/
def Ident.accepts (d : Ident) (target lun : Nat) : Bool := target < 1 && lun ≤ d.nluns

/-- `mmc_capacity()` の答える、最後の塊の番号と塊の大きさ。`uint32_t` で計算する。 -/
def Ident.mmcCapacity (d : Ident) (lun : Nat) : Nat × Nat := (((d.partitions lun).nlba + 2 ^ 32 - 1) % 2 ^ 32, d.blksize)

/-- `mmc_switch()` の結果。`refused` は命令を送れず、`lost` は送った後の待ちが失敗した場合で、`executed` はカードが実行したかである。 -/
inductive Switch
  | refused
  | lost (executed : Bool)
  | done
deriving DecidableEq, Repr

/-- `reg` はカードの `PART_CONFIG`、`selected` は `mmc_set_partition()` が成功した番号と、そのときの `reg` の記録である。 -/
structure Selector where
  pactive : Nat
  reg : Nat
  selected : List (Nat × Nat) := []
deriving DecidableEq, Repr

/-- `mmc_set_partition()`。 -/
def Selector.mmcSetPartition (d : Ident) (s : Selector) (lun : Nat) (o : Switch) : Selector :=
  let config := (d.partitions lun).config
  if s.pactive = lun then { s with selected := s.selected ++ [(lun, s.reg)] }
  else
    match o with
    | .refused => s
    | .lost executed => if executed then { s with reg := config } else s
    | .done => { pactive := lun, reg := config, selected := s.selected ++ [(lun, config)] }

/-- 受け付けた要求の一回。 -/
def Selector.step (d : Ident) (s : Selector) (i : Nat × Switch) : Except Unit Selector :=
  if d.accepts 0 i.1 then .ok (s.mmcSetPartition d i.1 i.2) else .error ()

/-- カードが実行した切り替えは、失敗と報告されない。 -/
def Settled (i : Nat × Switch) : Prop := i.2 ≠ .lost true

instance decidableSettled (i : Nat × Switch) : Decidable (Settled i) := inferInstanceAs (Decidable (i.2 ≠ .lost true))

/-! ## 識別の後 -/

/-- 初期化したばかりのドライバが、CSD の応答 `r` と拡張 CSD `x` を読んだ後。 -/
def emmc (r : Resp) (x : ExtCsd) : Ident := ((({} : Ident).parseMmc r).takeExtCsd x).partitionConfig x

/-- 識別のとき、`pactive` は `PART_CONFIG` の下位のビットである。 -/
def Selector.start (r : Resp) (x : ExtCsd) : Selector where
  pactive := (emmc r x).pactive
  reg := x.byte 179

/-! ## 拡張 CSD の定める区画 -/

/-- カードの区画。 -/
inductive Area
  | user
  | gp (k : Nat)
deriving DecidableEq, Repr

/-- `PART_CONFIG` での番号。 -/
def Area.access : Area → Nat
  | .user => 0
  | .gp k => 4 + k

/-- 区画の分割が使え、済んでいる。 -/
def ExtCsd.Partitioned (x : ExtCsd) : Prop := x.byte 160 % 2 = 1 ∧ x.byte 155 % 2 = 1

/-- その区画がある。 -/
def ExtCsd.Has (x : ExtCsd) : Area → Prop
  | .user => True
  | .gp k => k < mmcGpPartMax ∧ x.Partitioned ∧ x.gpMult k ≠ 0

/-- 区画の、512 バイトの塊の数。汎用区画は `GP_SIZE_MULT × HC_WP_GRP_SIZE × HC_ERASE_GRP_SIZE × 512 KiB` である。 -/
def ExtCsd.capacity (c : MmcCsd) (x : ExtCsd) : Area → Nat
  | .user => if 2 ≤ x.byte 192 ∧ x.secCnt ≠ 0 then x.secCnt else c.capacity.1
  | .gp k => x.gpMult k * (x.byte 221 * x.byte 224 * mmcEraseGrp512k) / 512

/-- 論理ユニット `lun` が区画 `a` を表す。 -/
structure Denotes (r : Resp) (x : ExtCsd) (lun : Nat) (a : Area) : Prop where
  exist : x.Has a
  config : ((emmc r x).partitions lun).config % 8 = a.access
  nlba : ((emmc r x).partitions lun).nlba = x.capacity (parseMmcCsd {} r) a
  reported : ((emmc r x).mmcCapacity lun).1 + 1 = x.capacity (parseMmcCsd {} r) a
  pos : 0 < ((emmc r x).partitions lun).nlba

/-- 受け付ける論理ユニットは別々の区画を表し、`mmc_set_partition()` が成功したときカードはその区画にある。 -/
structure PartitionsSound (r : Resp) (x : ExtCsd) : Prop where
  denotes : ∀ lun, (emmc r x).accepts 0 lun = true → ∃ a, Denotes r x lun a
  distinct : ∀ lun lun' a, (emmc r x).accepts 0 lun = true → (emmc r x).accepts 0 lun' = true → Denotes r x lun a → Denotes r x lun' a →
    lun = lun'
  selected : ∀ s, Lib.Reaches (Selector.step (emmc r x)) (fun _ i => Settled i) (Selector.start r x) s →
    ∀ p ∈ s.selected, p.2 = ((emmc r x).partitions p.1).config

/-- 空でない汎用区画の数。 -/
def gpCount (c : MmcCsd) (x : ExtCsd) : Nat := ((List.range mmcGpPartMax).filter fun k => gpBlocks c x k ≠ 0).length

/-- 空でない汎用区画が前に詰まっていて、大きさが `HC_WP_GRP_SIZE` と `HC_ERASE_GRP_SIZE` から決まる大きさと一致し、識別のときの `PART_CONFIG` の番号が
0 か、論理ユニットの番号にならない。 -/
structure ExtCsd.Regular (c : MmcCsd) (x : ExtCsd) : Prop where
  packed : x.Partitioned → ∀ k < mmcGpPartMax, ∀ j < k, gpBlocks c x k ≠ 0 → gpBlocks c x j ≠ 0
  sized : x.Partitioned → ∀ k < mmcGpPartMax, gpBlocks c x k ≠ 0 →
    gpBlocks c x k = x.gpMult k * (x.byte 221 * x.byte 224 * mmcEraseGrp512k) / 512
  access : x.byte 179 % 8 = 0 ∨ ¬(x.Partitioned ∧ x.byte 179 % 8 ≤ gpCount c x)

/-! ## CSD の容量（`devb/mmcsd/chipsets/sim_mx35.c`）

`mx35_interrupt()` は、CRC を除いて並ぶ応答のレジスタを 8 ビットずらし、128 ビットの CSD の並びに戻す。CSD の規格の欄と容量は、レジスタの番地で与える。 -/

/-- `MMC_RSP_136` の応答のずらし。 -/
def mx35Shift (q : Resp) : Resp where
  r3 := q.r3 <<< 8 ||| q.r2 >>> 24
  r2 := q.r2 <<< 8 ||| q.r1 >>> 24
  r1 := q.r1 <<< 8 ||| q.r0 >>> 24
  r0 := q.r0 <<< 8

/-- レジスタ `q` が、CSD の上の 120 ビットをもつこと。`CMDRSP3` の上の 8 ビットは問わない。 -/
structure HoldsCsd (csd : BitVec 128) (q : Resp) : Prop where
  r0 : q.r0.toNat = csd.toNat / 2 ^ 8 % 2 ^ 32
  r1 : q.r1.toNat = csd.toNat / 2 ^ 40 % 2 ^ 32
  r2 : q.r2.toNat = csd.toNat / 2 ^ 72 % 2 ^ 32
  r3 : q.r3.toNat % 2 ^ 24 = csd.toNat / 2 ^ 104

/-- CSD の、`lo` から `n` ビットの欄。 -/
def csdField (csd : BitVec 128) (lo n : Nat) : Nat := csd.toNat / 2 ^ lo % 2 ^ n

/-- `(C_SIZE + 1) * 2 ^ (C_SIZE_MULT + 2) * 2 ^ READ_BL_LEN`。 -/
def csdBytes (csd : BitVec 128) : Nat := (csdField csd 62 12 + 1) * 2 ^ (csdField csd 47 3 + 2) * 2 ^ csdField csd 80 4

/-- 規格の定める容量。SD の `CSD_STRUCTURE` の 2 と 3 は予約である。 -/
def csdCapacity (version : Version) (csd : BitVec 128) : Option Nat :=
  if version = .mmc1 ∨ csdField csd 126 2 = 0 then some (csdBytes csd)
  else if csdField csd 126 2 = 1 then some ((csdField csd 48 22 + 1) * (512 * 1024))
  else none

/-- 版に応じた読み取り。 -/
def Ident.parseCsd (d : Ident) (version : Version) (r : Resp) : Ident := if version = .mmc1 then d.parseMmc r else d.parseSd r

/-- 後の転送の塊の大きさ。SD では 512 である。 -/
def Ident.transferSize (d : Ident) (version : Version) : Nat := if version = .mmc1 then d.blksize else mmcDfltBlksize

end Imx6Bsp.Devb
