import Imx6Bsp.Pci.Device
import Imx6Bsp.Pci.Config

/-!
# 橋の窓（`pci/server.c`）

`configure_bridge_io()`、`configure_bridge_mem()`、`configure_bridge_pref()` と、窓を読み取る `configure_bridge()`、`check_range()` を写す。
`configure_bridge()` の `none` は -1 を返すことを表す。見つけた `BUSMAP` の窓は `Windows` とし、資源の管理者に窓を渡すところは除く。
-/

namespace Imx6Bsp.Pci

open Imx6Bsp.Lib

/-- `BUSMAP` の窓。 -/
structure Windows where
  ioStart : Nat := 0
  ioEnd : Nat := 0
  memStart : Nat := 0
  memEnd : Nat := 0
  prefetchMemStart : Nat := 0
  prefetchMemEnd : Nat := 0
deriving DecidableEq, Repr

/-- `find_ranges()` の求めた範囲と、バスの窓。 -/
structure PciRanges where
  ioPciLow : Nat
  ioPciHigh : Nat
  memPciLow : Nat
  memPciHigh : Nat
  findBus : Nat → Option Windows

/-! ## 一つの半語 -/

/-- 半語の読み出し。 -/
def read16 (check : PciexCheck) (stack : Mem) (sp : Space) (offset : Nat) : Option Nat :=
  (readConfig16 check stack sp offset 1).toOption.map fun buf => buf.readLE 0 2

/-- 答えを見ない、半語の書き込み。 -/
def write16 (check : PciexCheck) (stack : Mem) (sp : Space) (offset v : Nat) : Space :=
  (writeConfig16 check stack sp offset 1 (dwordBytes v)).1

/-- 語の読み出し。 -/
def fetch32 (check : PciexCheck) (stack : Mem) (sp : Space) (offset : Nat) : Option Nat :=
  (readConfig32 check stack sp offset 1).toOption.map fun buf => buf.readLE 0 4

/-! ## 窓を書く -/

/-- `PCI_COMMAND_IO_ENABLE`、`PCI_COMMAND_MEM_ENABLE`、`PCI_COMMAND_MASTER_ENABLE`。 -/
def commandIoEnable : Nat := 0x1
def commandMemEnable : Nat := 0x2
def commandMasterEnable : Nat := 0x4

/-- `Command` に `bits` を立てる。読めなければ -1 を返す。 -/
def enableCommand (check : PciexCheck) (stack : Mem) (sp : Space) (bits : Nat) : Int × Space :=
  match read16 check stack sp 0x04 with
  | none => (-1, sp)
  | some base => (0, write16 check stack sp 0x04 (base ||| bits))

/-- `configure_bridge_io()`。`bit_32` のときの、捨てられる読み出しは除く。 -/
def configureBridgeIo (check : PciexCheck) (stack : Mem) (sp : Space) (startAddr endAddr : Nat) : Int × Space :=
  match read16 check stack sp 0x1c with
  | none => (-1, sp)
  | some word =>
      let bit32 := word &&& 1 ≠ 0
      let ioBase := (startAddr &&& 0xf000) >>> 8
      let ioLimit := (endAddr &&& 0xf000) >>> 8
      let sp := write16 check stack sp 0x1c (ioBase ||| ioLimit <<< 8)
      let sp :=
        if bit32 then
          write16 check stack (write16 check stack sp 0x30 ((startAddr >>> 16) % 2 ^ 16)) 0x32 ((endAddr >>> 16) % 2 ^ 16)
        else sp
      enableCommand check stack sp (commandIoEnable ||| commandMasterEnable)

/-- `configure_bridge_mem()` と `configure_bridge_pref()` の、下の半語の組。 -/
def memWords (startAddr endAddr : Nat) : Nat := ((startAddr &&& 0xfff00000) >>> 16) ||| ((endAddr &&& 0xfff00000) >>> 16) <<< 16

/-- `configure_bridge_mem()`。 -/
def configureBridgeMem (check : PciexCheck) (stack : Mem) (sp : Space) (startAddr endAddr : Nat) : Int × Space :=
  match fetch32 check stack sp 0x20 with
  | none => (-1, sp)
  | some _ =>
      enableCommand check stack (write32 check sp 0x20 (memWords startAddr endAddr)) (commandMemEnable ||| commandMasterEnable)

/-- `configure_bridge_pref()`。`bit_64` のときの、捨てられる読み出しは除く。 -/
def configureBridgePref (check : PciexCheck) (stack : Mem) (sp : Space) (startAddr endAddr : Nat) : Int × Space :=
  match fetch32 check stack sp 0x24 with
  | none => (-1, sp)
  | some dword =>
      let bit64 := dword &&& 1 ≠ 0
      let sp := write32 check sp 0x24 (memWords startAddr endAddr)
      let sp :=
        if bit64 then write32 check (write32 check sp 0x28 ((startAddr >>> 32) % 2 ^ 32)) 0x2c ((endAddr >>> 32) % 2 ^ 32) else sp
      enableCommand check stack sp (commandMemEnable ||| commandMasterEnable)

/-! ## `check_range()` -/

/-- I/O の範囲。 -/
def ioLimits (g : PciRanges) (map : Windows) (bus : Nat) : Nat × Nat :=
  if bus ≠ 0 ∧ (map.ioStart ≠ 0 ∨ map.ioEnd ≠ 0) then (map.ioStart, map.ioEnd) else (g.ioPciLow, g.ioPciHigh)

/-- メモリの範囲。 -/
def memLimits (g : PciRanges) (map : Windows) (type : BitVec 32) (bus : Nat) : Nat × Nat :=
  let r :=
    if bus ≠ 0 then
      if has type pciMemPrefetch then (map.prefetchMemStart, map.prefetchMemEnd) else (map.memStart, map.memEnd)
    else (0, 0)
  if bus = 0 ∨ (r.1 = 0 ∧ r.2 = 0) then (g.memPciLow, g.memPciHigh) else r

/-- `check_range()`。バスがなければ `EINVAL` を返す。 -/
def checkRange (g : PciRanges) (start length : Nat) (type : BitVec 32) (bus : Nat) : Nat :=
  if bus ≠ 0 ∧ g.findBus bus = none then 22
  else
    let map := (g.findBus bus).getD {}
    let r :=
      if has type pciIoSpace then
        let r := ioLimits g map bus
        -- 橋のための特別な場合。
        if r.1 = 0xf000 ∧ length = 0xfff then (r.1, 0xffff) else r
      else memLimits g map type bus
    if r.1 ≤ start ∧ (start + length + 2 ^ 64 - 1) % 2 ^ 64 ≤ r.2 then 0 else 1

/-! ## 窓を読み取る -/

/-- 使われていない窓と、範囲の外の窓を 0 にする。範囲の外の窓は、レジスタも消す。 -/
def acceptWindow (g : PciRanges) (start stop : Nat) (type : BitVec 32) (bus : Nat) : (Nat × Nat) × Bool :=
  if stop < start then ((0, 0), false)
  else if checkRange g start (stop - start) type bus ≠ 0 then ((0, 0), true)
  else ((start, stop), false)

/-- `(uint64_t)(word1 << 16)`。`word1` は `int` になるので、最上位の桁が上に広がる。 -/
def signedUpper (word1 : Nat) : Nat := if word1 < 0x8000 then word1 <<< 16 else 2 ^ 64 - 2 ^ 32 + word1 <<< 16

/-- 上の半語。`wide` でなければ読まずに 0 とする。 -/
def upper16 (check : PciexCheck) (stack : Mem) (sp : Space) (wide : Prop) [Decidable wide] (offset : Nat) : Option Nat :=
  if wide then read16 check stack sp offset else some 0

/-- 上の語。`wide` でなければ読まずに 0 とする。 -/
def upper32 (check : PciexCheck) (stack : Mem) (sp : Space) (wide : Prop) [Decidable wide] (offset : Nat) : Option Nat :=
  if wide then fetch32 check stack sp offset else some 0

/-- I/O の窓を読み取る。 -/
def decodeIo (check : PciexCheck) (stack : Mem) (g : PciRanges) (bus : Nat) (sp : Space) : Option ((Nat × Nat) × Space) := do
  let word ← read16 check stack sp 0x1c
  let word1 ← upper16 check stack sp (word &&& 0x0f ≠ 0) 0x30
  let start := signedUpper word1 ||| (word &&& 0xf0) <<< 8
  let word1 ← upper16 check stack sp (word &&& 0x0f00 ≠ 0) 0x32
  let stop := ((signedUpper word1 ||| (word &&& 0xf000)) + 0xfff) % 2 ^ 64
  let r := acceptWindow g start stop pciIoSpace bus
  return (r.1, if r.2 then write16 check stack sp 0x1c 0xff else sp)

/-- メモリの窓を読み取る。 -/
def decodeMem (check : PciexCheck) (stack : Mem) (g : PciRanges) (bus : Nat) (sp : Space) : Option ((Nat × Nat) × Space) := do
  let dword ← fetch32 check stack sp 0x20
  let start := (dword &&& 0xffff) <<< 16
  let stop := ((dword &&& 0xfff00000) + 0xfffff) % 2 ^ 32
  let r := acceptWindow g start stop pciMemSpace bus
  return (r.1, if r.2 then write32 check sp 0x20 0xffff else sp)

/-- 先読みのできるメモリの窓を読み取る。 -/
def decodePref (check : PciexCheck) (stack : Mem) (g : PciRanges) (bus : Nat) (sp : Space) : Option ((Nat × Nat) × Space) := do
  let dword ← fetch32 check stack sp 0x24
  let qword ← upper32 check stack sp (dword &&& 0x0f ≠ 0) 0x28
  let start := qword <<< 32 ||| (dword &&& 0xfff0) <<< 16
  let qword ← upper32 check stack sp (dword &&& 0xf0000 ≠ 0) 0x2c
  let stop := ((qword <<< 32 ||| (dword &&& 0xfff00000)) + 0xfffff) % 2 ^ 64
  let r := acceptWindow g start stop pciMemPrefetch bus
  return (r.1, if r.2 then write32 check sp 0x24 0xffff else sp)

/-- `PCI_PRIMARY_BUS_INSERT()`、`PCI_SECONDARY_BUS_INSERT()`、`PCI_SUBORDINATE_BUS_INSERT()` でバスの番号を入れる。 -/
def busNumbers (dword bus secBus : Nat) : Nat := dword &&& 0xff000000 ||| 0xff <<< 16 ||| secBus <<< 8 ||| bus

/-- バスの番号と `Command` を書く。 -/
def openBridge (check : PciexCheck) (stack : Mem) (bus secBus junk : Nat) (sp : Space) : Space :=
  let sp := write32 check sp 0x18 (busNumbers (read32 check sp 0x18 junk) bus secBus)
  write16 check stack sp 0x04 ((read16 check stack sp 0x04).getD junk ||| commandMasterEnable)

/-- `configure_bridge()` の、`BUSMAP` が決まった後。`junk` は初期化しない変数の値である。 -/
def configureBridge (check : PciexCheck) (stack : Mem) (g : PciRanges) (bus secBus junk : Nat) (map : Windows) (sp : Space) :
    Option (Windows × Space) := do
  let byte ← (readConfig8 check stack sp 0x0e 1).toOption
  let headerType := (byte 0).toNat &&& 0x7f
  if headerType = 0 then
    return ({ map with ioStart := g.ioPciLow, ioEnd := g.ioPciHigh, memStart := g.memPciLow, memEnd := g.memPciHigh }, sp)
  else if headerType = 1 then
    let io ← decodeIo check stack g bus (openBridge check stack bus secBus junk sp)
    let mem ← decodeMem check stack g bus io.2
    let pref ← decodePref check stack g bus mem.2
    return (⟨io.1.1, io.1.2, mem.1.1, mem.1.2, pref.1.1, pref.1.2⟩, pref.2)
  else return (map, openBridge check stack bus secBus junk sp)

end Imx6Bsp.Pci
