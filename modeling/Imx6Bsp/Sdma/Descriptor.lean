import Imx6Bsp.Lib.Words

/-!
# 転送の記述子の列（`lib/dma/sdma/api.c`）

`sdma_setup_xfer()` は、断片ごとに一つの buffer descriptor を書き、最後のものに `WRAP` を置く。engine は先頭から `WRAP` のある
記述子までを使い、使い終えた記述子の `DONE` を消す。
-/

namespace Imx6Bsp.Sdma.Ring

/-! ## 定数 -/

def maxDescriptors : Nat := 1024

def countMask : Nat := 0xffff
def doneMask : Nat := 0x10000
def wrapMask : Nat := 0x20000
def contMask : Nat := 0x40000
def intMask : Nat := 0x80000
def extMask : Nat := 0x800000
def cmdPos : Nat := 24

/-- `SDMA_CMD_XFER_SIZE()`。 -/
def cmdXferSize (s : Nat) : Nat := (if s = 8 then 1 else if s = 16 then 2 else if s = 24 then 3 else 0) <<< cmdPos

def chtypeAp2Ap : Nat := 0
def chtypeMcu2Ap : Nat := 1
def chtypeAp2Mcu : Nat := 2
def chtypeMcu2Shp : Nat := 3
def chtypeShp2Mcu : Nat := 4
def chtypeMcu2Spdif : Nat := 5
def chtypeSpdif2Mcu : Nat := 6
def chtypeUartsh2Mcu : Nat := 7

def attachEventOnComplete : Nat := 0x10
def attachEventPerSegment : Nat := 0x20

/-! ## 状態 -/

/-- `sdma_bd_t`。 -/
structure Bd where
  cmdAndStatus : Nat
  bufPaddr : Nat
  extBufPaddr : Nat
deriving DecidableEq

/-- `dma_addr_t`。`paddr` は 64 ビットの `off64_t` である。 -/
structure DmaAddr where
  paddr : Int
  len : Nat

/-- `dma_transfer_t`。 -/
structure Transfer where
  srcAddrs : Nat → DmaAddr
  dstAddrs : Nat → DmaAddr
  srcFragments : Nat
  dstFragments : Nat
  xferUnitSize : Nat

/-- `sdma_chan_t` のうち、転送の設定に使うもの。 -/
structure Chan where
  chType : Nat
  attachFlags : Nat
  contDescrLoop : Nat
  bd : Nat → Bd
  nFrags : Nat

/-! ## `sdma_setup_xfer()` -/

/-- `sdma_channel_info()` が知らせる、番地の上限。 -/
def memUpperLimit : Nat := 0xffffffff

/-- 型 `uint32_t` への変換。 -/
def paddr32 (a : Int) : Nat := (a % 2 ^ 32).toNat

/-- 32 ビットでの `n - 1`。 -/
def pred32 (n : Nat) : Nat := (n + (2 ^ 32 - 1)) % 2 ^ 32

/-- `cmd_and_status` の初めの値。 -/
def Chan.cmdAndStatus (c : Chan) (t : Transfer) : Nat :=
  let cmd := extMask ||| contMask ||| cmdXferSize t.xferUnitSize
  if c.attachFlags &&& attachEventPerSegment ≠ 0 then cmd ||| intMask else cmd

/-- 最後の記述子の、`DONE` を立てる前の値。 -/
def Chan.lastStatus (c : Chan) (t : Transfer) (len : Nat) : Nat :=
  let cmd := extMask ||| cmdXferSize t.xferUnitSize ||| wrapMask ||| len
  let cmd := if c.contDescrLoop ≠ 0 then cmd ||| contMask else cmd
  if c.attachFlags &&& attachEventOnComplete ≠ 0 ∨ c.attachFlags &&& attachEventPerSegment ≠ 0 then cmd ||| intMask else cmd

/-- 一つの記述子を書く。`ext` があれば、外部の番地も書く。 -/
def writeBd (bd : Nat → Bd) (i cmd : Nat) (paddr : Int) (ext : Option (Nat → DmaAddr)) : Nat → Bd :=
  Function.update bd i
    { cmdAndStatus := cmd ||| doneMask
      bufPaddr := paddr32 paddr
      extBufPaddr := match ext with
        | some addrs => paddr32 (addrs i).paddr
        | none => (bd i).extBufPaddr }

/-- 最後より前の記述子を書く `for`。 -/
def fillLoop (cmd : Nat) (addrs : Nat → DmaAddr) (ext : Option (Nat → DmaAddr)) : Nat → (Nat → Bd) → Nat → Bd
  | 0, bd => bd
  | k + 1, bd =>
      let bd := fillLoop cmd addrs ext k bd
      writeBd bd k (cmd ||| (addrs k).len) (addrs k).paddr ext

/-- `switch` の三つの場合に共通の部分。 -/
def Chan.fill (c : Chan) (t : Transfer) (addrs : Nat → DmaAddr) (ext : Option (Nat → DmaAddr)) (nFrags : Nat) : Chan :=
  let last := pred32 nFrags
  let bd := fillLoop (c.cmdAndStatus t) addrs ext last c.bd
  { c with bd := writeBd bd last (c.lastStatus t (addrs last).len) (addrs last).paddr ext, nFrags }

/-- 装置から記憶域への転送の型。 -/
def deviceToMemory (chType : Nat) : Prop :=
  chType = chtypeAp2Mcu ∨ chType = chtypeShp2Mcu ∨ chType = chtypeUartsh2Mcu ∨ chType = chtypeSpdif2Mcu

/-- 記憶域から装置への転送の型。 -/
def memoryToDevice (chType : Nat) : Prop := chType = chtypeMcu2Ap ∨ chType = chtypeMcu2Shp ∨ chType = chtypeMcu2Spdif

instance (n : Nat) : Decidable (deviceToMemory n) := inferInstanceAs (Decidable (_ ∨ _))
instance (n : Nat) : Decidable (memoryToDevice n) := inferInstanceAs (Decidable (_ ∨ _))

/-- `sdma_setup_xfer()`。`default` は `SDMA_CHTYPE_AP_2_AP` と同じ場合である。 -/
def sdmaSetupXfer (c : Chan) (t : Transfer) : Chan :=
  if deviceToMemory c.chType then c.fill t t.dstAddrs none t.dstFragments
  else if memoryToDevice c.chType then c.fill t t.srcAddrs none t.srcFragments
  else c.fill t t.srcAddrs (some t.dstAddrs) t.srcFragments

/-- `callback_reenable_descr()` の `for`。 -/
def reenableLoop : Nat → (Nat → Bd) → Nat → Bd
  | 0, bd => bd
  | k + 1, bd =>
      let bd := reenableLoop k bd
      Function.update bd k { bd k with cmdAndStatus := (bd k).cmdAndStatus ||| doneMask }

/-- `callback_reenable_descr()`。`c` は `chan_ptr_list[ch_num]` の channel である。 -/
def callbackReenableDescr (c : Chan) : Chan := { c with bd := reenableLoop c.nFrags c.bd }

/-! ## engine の読み方 -/

/-- 記述子の内容。`ext` は、記憶域から記憶域への転送だけが使う。 -/
structure Fragment where
  addr : Nat
  ext : Option Nat
  len : Nat
  unitSize : Nat
  done : Bool
  wrap : Bool
  cont : Bool
  int : Bool
deriving DecidableEq

/-- 転送の単位の符号を読む。 -/
def readSize (cmd : Nat) : Nat :=
  match cmd >>> cmdPos with
  | 1 => 8
  | 2 => 16
  | 3 => 24
  | _ => 32

/-- 型 `chType` の channel で、記述子を読む。 -/
def Bd.decode (chType : Nat) (b : Bd) : Fragment where
  addr := b.bufPaddr
  ext := if deviceToMemory chType ∨ memoryToDevice chType then none else some b.extBufPaddr
  len := b.cmdAndStatus &&& countMask
  unitSize := readSize b.cmdAndStatus
  done := b.cmdAndStatus &&& doneMask ≠ 0
  wrap := b.cmdAndStatus &&& wrapMask ≠ 0
  cont := b.cmdAndStatus &&& contMask ≠ 0
  int := b.cmdAndStatus &&& intMask ≠ 0

/-- 番号 `i` から `WRAP` のある記述子までの、多くても `fuel` 個を読む。 -/
def Chan.ringFrom (c : Chan) : Nat → Nat → List Fragment
  | 0, _ => []
  | fuel + 1, i =>
      let f := (c.bd i).decode c.chType
      if f.wrap then [f] else f :: c.ringFrom fuel (i + 1)

/-- engine が使う記述子の列。 -/
def Chan.ring (c : Chan) : List Fragment := c.ringFrom maxDescriptors 0

/-- engine が、番号 `s` の記述子の `DONE` を消す。 -/
def Chan.clearDone (c : Chan) (s : Nat → Bool) : Chan :=
  { c with bd := fun i => if s i then
      { c.bd i with cmdAndStatus := (c.bd i).cmdAndStatus ^^^ ((c.bd i).cmdAndStatus &&& doneMask) } else c.bd i }

/-! ## 約束 -/

/-- 転送の相手となる断片の列とその数。 -/
def Chan.addrs (c : Chan) (t : Transfer) : Nat → DmaAddr := if deviceToMemory c.chType then t.dstAddrs else t.srcAddrs

def Chan.fragments (c : Chan) (t : Transfer) : Nat := if deviceToMemory c.chType then t.dstFragments else t.srcFragments

/-- 番号 `i` の断片を表す記述子の内容。番地は下の 32 ビットで、8、16、24 のほかの単位は 32 になる。 -/
def Chan.wanted (c : Chan) (t : Transfer) (i : Nat) : Fragment where
  addr := paddr32 (c.addrs t i).paddr
  ext := if deviceToMemory c.chType ∨ memoryToDevice c.chType then none else some (paddr32 (t.dstAddrs i).paddr)
  len := (c.addrs t i).len
  unitSize := if t.xferUnitSize = 8 ∨ t.xferUnitSize = 16 ∨ t.xferUnitSize = 24 then t.xferUnitSize else 32
  done := true
  wrap := i + 1 = c.fragments t
  cont := i + 1 ≠ c.fragments t ∨ c.contDescrLoop ≠ 0
  int := c.attachFlags &&& attachEventPerSegment ≠ 0 ∨
    (i + 1 = c.fragments t ∧ c.attachFlags &&& attachEventOnComplete ≠ 0)

end Imx6Bsp.Sdma.Ring
