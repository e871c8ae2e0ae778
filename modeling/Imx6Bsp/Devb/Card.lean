import Imx6Bsp.Lib.Runs
import Mathlib

/-!
# MMC/SD カードの属性（`devb/mmcsd/mmcsd.c`）

応答から `csd`、`cid` を読み取る関数と、拡張 CSD から区画を作る関数を写す。
-/

namespace Imx6Bsp.Devb

/-! ## 応答 -/

/-- `mmc_resp`。 -/
structure Resp where
  r0 : BitVec 32 := 0
  r1 : BitVec 32 := 0
  r2 : BitVec 32 := 0
  r3 : BitVec 32 := 0
deriving DecidableEq, Repr

/-- `lo` から `n` ビット。 -/
def bits (r : BitVec 32) (lo n : Nat) : Nat := r.toNat / 2 ^ lo % 2 ^ n

/-- `sd_csd_t` のうち、版によって異なる部分。 -/
inductive SdSize
  | ver1 (cSize vddRCurrMin vddRCurrMax vddWCurrMin vddWCurrMax cSizeMult : Nat)
  | ver2 (cSize : Nat)
deriving DecidableEq, Repr

/-- `sd_csd_t`。 -/
structure SdCsd where
  csdStructure : Nat := 0
  taac : Nat := 0
  nsac : Nat := 0
  tranSpeed : Nat := 0
  ccc : Nat := 0
  readBlLen : Nat := 0
  readBlPartial : Nat := 0
  writeBlkMisalign : Nat := 0
  readBlkMisalign : Nat := 0
  dsrImp : Nat := 0
  size : SdSize := .ver1 0 0 0 0 0 0
  eraseBlkEn : Nat := 0
  sectorSize : Nat := 0
  wpGrpSize : Nat := 0
  wpGrpEnable : Nat := 0
  r2wFactor : Nat := 0
  writeBlLen : Nat := 0
  writeBlPartial : Nat := 0
  fileFormatGrp : Nat := 0
  copy : Nat := 0
  permWriteProtect : Nat := 0
  tmpWriteProtect : Nat := 0
  fileFormat : Nat := 0
deriving DecidableEq, Repr

/-- `mmc_ext_csd_t`。 -/
structure MmcExtCsd where
  hsMaxDtr : Nat := 0
  sectors : Nat := 0
  eraseGrpDef : Nat := 0
  hcEraseGroupSize : Nat := 0
  hcWpGrpSize : Nat := 0
  userWp : Nat := 0
deriving DecidableEq, Repr

/-- `mmc_csd_t`。`erase` の二つの形は、同じ二バイトに同じビットを入れる。 -/
structure MmcCsd where
  csdStructure : Nat := 0
  mmcProt : Nat := 0
  taac : Nat := 0
  nsac : Nat := 0
  tranSpeed : Nat := 0
  ccc : Nat := 0
  readBlLen : Nat := 0
  readBlPartial : Nat := 0
  writeBlkMisalign : Nat := 0
  readBlkMisalign : Nat := 0
  dsrImp : Nat := 0
  cSize : Nat := 0
  vddRCurrMin : Nat := 0
  vddRCurrMax : Nat := 0
  vddWCurrMin : Nat := 0
  vddWCurrMax : Nat := 0
  cSizeMult : Nat := 0
  eraseGrpSize : Nat := 0
  eraseGrpMult : Nat := 0
  extCsd : MmcExtCsd := {}
  wpGrpSize : Nat := 0
  wpGrpEnable : Nat := 0
  r2wFactor : Nat := 0
  writeBlLen : Nat := 0
  writeBlPartial : Nat := 0
  copy : Nat := 0
  permWriteProtect : Nat := 0
  tmpWriteProtect : Nat := 0
  ecc : Nat := 0
deriving DecidableEq, Repr

/-- `sd_cid_t`。 -/
structure SdCid where
  mid : Nat := 0
  oid : List Nat := []
  pnm : List Nat := []
  prv : Nat := 0
  psn : Nat := 0
  mdt : Nat := 0
deriving DecidableEq, Repr

/-- `mmc_cid_t`。 -/
structure MmcCid where
  mid : Nat := 0
  oid : Nat := 0
  pnm : List Nat := List.replicate 8 0
  hwr : Nat := 0
  fwr : Nat := 0
  psn : Nat := 0
  mcd : Nat := 0
  ycd : Nat := 0
deriving DecidableEq, Repr

/-! ## CSD -/

/-- `MMC_DFLT_BLKSIZE`。 -/
def mmcDfltBlksize : Nat := 512

/-- 512 より大きい塊を 512 にそろえる。返すのは `csize` と `bsize` である。 -/
def forceBlock (csize bsize : Nat) : Nat × Nat :=
  if bsize > mmcDfltBlksize ∧ bsize % mmcDfltBlksize = 0 then
    let ts := bsize / mmcDfltBlksize
    (csize * ts % 2 ^ 32, bsize / ts)
  else (csize, bsize)

/-- `mmc_parse_mmc_csd()` の読み取り。書き換えない欄は前の値のままである。 -/
def parseMmcCsd (old : MmcCsd) (r : Resp) : MmcCsd where
  csdStructure := bits r.r3 30 2
  mmcProt := bits r.r3 26 4
  taac := bits r.r3 16 8
  nsac := bits r.r3 8 8
  tranSpeed := bits r.r3 0 8
  ccc := bits r.r2 20 12
  readBlLen := bits r.r2 16 4
  readBlPartial := bits r.r2 15 1
  writeBlkMisalign := bits r.r2 14 1
  readBlkMisalign := bits r.r2 13 1
  dsrImp := bits r.r2 12 1
  cSize := bits r.r2 0 10 * 4 + bits r.r1 30 2
  vddRCurrMin := bits r.r1 27 3
  vddRCurrMax := bits r.r1 24 3
  vddWCurrMin := bits r.r1 21 3
  vddWCurrMax := bits r.r1 18 3
  cSizeMult := bits r.r1 15 3
  eraseGrpSize := bits r.r1 10 5
  eraseGrpMult := bits r.r1 5 5
  extCsd := old.extCsd
  wpGrpSize := bits r.r1 0 5
  wpGrpEnable := bits r.r0 31 1
  r2wFactor := bits r.r0 26 3
  writeBlLen := bits r.r0 22 4
  writeBlPartial := bits r.r0 21 1
  copy := bits r.r0 14 1
  permWriteProtect := bits r.r0 13 1
  tmpWriteProtect := bits r.r0 12 1
  ecc := bits r.r0 8 2

/-- `mmc_parse_mmc_csd()` の `csize * csizem` と `bsize`。 -/
def MmcCsd.capacity (c : MmcCsd) : Nat × Nat :=
  let f := forceBlock (c.cSize + 1) (2 ^ c.readBlLen)
  (f.1 * 2 ^ (c.cSizeMult + 2) % 2 ^ 32, f.2)

/-- `mmc_parse_sd_csd()` の読み取り。 -/
def parseSdCsd (r : Resp) : SdCsd where
  csdStructure := bits r.r3 30 2
  taac := bits r.r3 16 8
  nsac := bits r.r3 8 8
  tranSpeed := bits r.r3 0 8
  ccc := bits r.r2 20 12
  readBlLen := bits r.r2 16 4
  readBlPartial := bits r.r2 15 1
  writeBlkMisalign := bits r.r2 14 1
  readBlkMisalign := bits r.r2 13 1
  dsrImp := bits r.r2 12 1
  size :=
    if bits r.r3 30 2 = 0 then
      .ver1 (bits r.r2 0 10 * 4 + bits r.r1 30 2) (bits r.r1 27 3) (bits r.r1 24 3) (bits r.r1 21 3) (bits r.r1 18 3) (bits r.r1 15 3)
    else .ver2 (bits r.r2 0 6 * 2 ^ 16 + bits r.r1 16 16)
  eraseBlkEn := bits r.r1 14 1
  sectorSize := bits r.r1 7 7
  wpGrpSize := bits r.r1 0 7
  wpGrpEnable := bits r.r0 31 1
  r2wFactor := bits r.r0 26 3
  writeBlLen := bits r.r0 22 4
  writeBlPartial := bits r.r0 21 1
  fileFormatGrp := bits r.r0 15 1
  copy := bits r.r0 14 1
  permWriteProtect := bits r.r0 13 1
  tmpWriteProtect := bits r.r0 12 1
  fileFormat := bits r.r0 10 2

/-- `mmc_parse_sd_csd()` の `csize * csizem`。`bsize` は残さない。 -/
def SdCsd.capacity (c : SdCsd) : Nat :=
  match c.size with
  | .ver1 cSize _ _ _ _ cSizeMult => (forceBlock (cSize + 1) (2 ^ c.readBlLen)).1 * 2 ^ (cSizeMult + 2) % 2 ^ 32
  | .ver2 cSize => (cSize + 1) * 1024 % 2 ^ 32

/-! ## CID -/

/-- `mmc_parse_mmc_cid()`。書き換えない欄は前の値のままである。 -/
def parseMmcCid (old : MmcCid) (mmcProt : Nat) (r : Resp) : MmcCid :=
  let name := [bits r.r3 0 8, bits r.r2 24 8, bits r.r2 16 8, bits r.r2 8 8, bits r.r2 0 8, bits r.r1 24 8]
  let cid := { old with
    psn := bits r.r1 0 16 * 2 ^ 16 + bits r.r0 16 16
    mcd := bits r.r0 12 4
    ycd := bits r.r0 8 4 + 1997 }
  if mmcProt < 2 then
    { cid with mid := bits r.r3 8 24, pnm := name ++ [bits r.r1 16 8, 0], hwr := bits r.r1 12 4, fwr := bits r.r1 8 4 }
  else { cid with mid := bits r.r3 24 8, oid := bits r.r3 8 16, pnm := name ++ [0, old.pnm.getD 7 0] }

/-- `mmc_parse_sd_cid()`。 -/
def parseSdCid (r : Resp) : SdCid where
  mid := bits r.r3 24 8
  oid := [bits r.r3 8 8, bits r.r3 16 8, 0]
  pnm := [bits r.r3 0 8, bits r.r2 24 8, bits r.r2 16 8, bits r.r2 8 8, bits r.r2 0 8, 0]
  prv := bits r.r1 24 8
  psn := bits r.r1 0 24 * 2 ^ 8 + bits r.r0 24 8
  mdt := bits r.r0 8 16

/-! ## 区画 -/

/-- 512 バイトの拡張 CSD。 -/
abbrev ExtCsd := Nat → UInt8

def ExtCsd.byte (x : ExtCsd) (i : Nat) : Nat := (x i).toNat

/-- `MMC_PARTITION`。 -/
structure Partition where
  config : Nat := 0
  nlba : Nat := 0
deriving DecidableEq, Repr

/-- `MMC_PARTITION_MAX`。 -/
def mmcPartitionMax : Nat := 8

/-- `MMC_GP_PART_MAX`。 -/
def mmcGpPartMax : Nat := 4

/-- `MMC_ERASE_GRP_512K`。 -/
def mmcEraseGrp512k : Nat := 0x80000

/-- 拡張 CSD の `SEC_CNT`。 -/
def ExtCsd.secCnt (x : ExtCsd) : Nat := x.byte 212 + x.byte 213 * 2 ^ 8 + x.byte 214 * 2 ^ 16 + x.byte 215 * 2 ^ 24

/-- `GP_SIZE_MULT`。 -/
def ExtCsd.gpMult (x : ExtCsd) (pidx : Nat) : Nat :=
  x.byte (143 + pidx * 3) + x.byte (144 + pidx * 3) * 2 ^ 8 + x.byte (145 + pidx * 3) * 2 ^ 16

/-- `wp_grp_size`。番号 175 の `ERASE_GRP_DEF` ではなく、`MMC_SWITCH_MODE_WRITE` の値である番号 3 のバイトで分ける。 -/
def wpGrpSize (c : MmcCsd) (x : ExtCsd) : Nat :=
  if x.byte 3 % 2 = 1 then x.byte 221 * x.byte 224 * mmcEraseGrp512k
  else (c.eraseGrpSize + 1) * (c.eraseGrpMult + 1) * (c.wpGrpSize + 1) * 512

/-- `pidx` 番の区画の塊の数。`uint32_t` に入れる。 -/
def gpBlocks (c : MmcCsd) (x : ExtCsd) (pidx : Nat) : Nat := x.gpMult pidx * wpGrpSize c x / 512 % 2 ^ 32

/-! ## SD の時計の分周（`devb/mmcsd/chipsets/sim_mx35.c`）

`mx35_clock()` を写す。`int` の値は負にならないので `Nat` とし、積が 31 ビットに収まらなければ `overflow` とする。 -/

/-- `failure` は `MMC_FAILURE`、`overflow` は `int` の溢れである。 -/
inductive ClockFault
  | failure
  | overflow
deriving DecidableEq, Repr

/-- `int` の積。 -/
def mulInt (a b : Nat) : Except ClockFault Nat := if a * b < 2 ^ 31 then .ok (a * b) else .error .overflow

/-- `pre_div` と `div` は `MX35_MMCSYSCTL` の形にする前の値、`sysctl` は初めに書く値である。 -/
structure ClockSetting where
  preDiv : Nat
  div : Nat
  clock : Nat
  sysctl : Nat
deriving DecidableEq, Repr

/-- `pre_div` を倍にしていく繰り返し。 -/
def preDivLoop (maxClk clock : Nat) : Nat → Nat → Except ClockFault Nat
  | 0, preDiv => .ok preDiv
  | fuel + 1, preDiv =>
      if preDiv < 256 then do
        let limit ← mulInt clock 16
        if maxClk / preDiv ≤ limit then return preDiv
        else
          let next ← mulInt preDiv 2
          preDivLoop maxClk clock fuel next
      else .ok preDiv

/-- `div` を増やしていく繰り返し。 -/
def divLoop (maxClk clock preDiv : Nat) : Nat → Nat → Except ClockFault Nat
  | 0, div => .ok div
  | fuel + 1, div =>
      if div ≤ 16 then do
        let p ← mulInt div preDiv
        if maxClk / p ≤ clock then return div else divLoop maxClk clock preDiv fuel (div + 1)
      else .ok div

/-- 初めの `pre_div`。 -/
def choosePreDiv (maxClk clock : Nat) : Except ClockFault Nat := if maxClk / 16 > clock then preDivLoop maxClk clock 9 1 else .ok 2

/-- `MX35_MMCSYSCTL` に書く値。 -/
def sysctlOf (preDiv div sdcken : Nat) : Nat :=
  (0xe <<< 16 ||| preDiv <<< 8 ||| div <<< 4) ||| (if sdcken = 0 then 0x07 else 0)

/-- `mx35_clock()`。 -/
def mx35Clock (maxClk clock sdcken : Nat) : Except ClockFault ClockSetting :=
  if clock = 0 then .error .failure
  else do
    let clock := if clock > maxClk then maxClk else clock
    let preDiv ← choosePreDiv maxClk clock
    let div ← divLoop maxClk clock preDiv 17 1
    let p ← mulInt preDiv div
    return { preDiv, div, clock := maxClk / p, sysctl := sysctlOf (preDiv >>> 1) (div - 1) sdcken }

end Imx6Bsp.Devb
