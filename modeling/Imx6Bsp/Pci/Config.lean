import Imx6Bsp.Lib.Copying

/-!
# 設定空間の読み書き（`pci/server.c`）

下位のドライバの `read_cnfg` と `write_cnfg` は、一つの機能の設定空間 `Space` の 4 バイトを読み書きする。書いても変わらない桁は `writable` で表す。
`pciex_check()` の答えは引数 `check` とする。`stack` は `temp` の最初の内容で、`temp` の 256 バイトを超える番地も続きの領域として扱う。
読み出した `ConfigBuffer` は、その先頭からのバイトとして返す。
-/

namespace Imx6Bsp.Pci

open Imx6Bsp.Lib

/-- `PCI_BUFFER_TOO_SMALL` など、`PCI_SUCCESS` でない答え。 -/
inductive Refusal
  | bufferTooSmall
  | badRegisterNumber
  | unsupportedFunct
  | deviceNotFound
deriving DecidableEq, Repr

/-- 一つの機能の設定空間。 -/
structure Space where
  size : Nat
  size_eq : size = 256 ∨ size = 4096
  regs : Mem
  writable : Mem

/-- PCI の設定空間の大きさ。 -/
theorem plainSize : 256 = 256 ∨ 256 = 4096 := Or.inl rfl

/-- `pciex_check()` の答え。引数は `offset` と `cnt` である。 -/
abbrev PciexCheck := Nat → Nat → Except Refusal Unit

/-! ## `read_cnfg` と `write_cnfg` -/

/-- 書ける桁だけを差し替える。 -/
def latch (old mask new : UInt8) : UInt8 := (old &&& ~~~mask) ||| (new &&& mask)

def Space.readCnfg (sp : Space) (offset : Nat) : Except Refusal Nat :=
  if offset + 4 ≤ sp.size then .ok (sp.regs.readLE offset 4) else .error .badRegisterNumber

/-- `offset` からの `n` バイトに `f` のバイトを書いた設定空間。 -/
def Space.put (sp : Space) (offset n : Nat) (f : Nat → UInt8) : Space :=
  { sp with regs := sp.regs.fill offset n fun i => latch (sp.regs (offset + i)) (sp.writable (offset + i)) (f i) }

def Space.writeCnfg (sp : Space) (offset dword : Nat) : Except Refusal Space :=
  if offset + 4 ≤ sp.size then .ok (sp.put offset 4 fun i => UInt8.ofNat (dword / 256 ^ i)) else .error .badRegisterNumber

/-! ## 繰り返し -/

/-- `cnt` 個の語を `offset` から読み、`p` から並べる。 -/
def readLoop (sp : Space) : (cnt offset p : Nat) → Mem → Except Refusal Mem
  | 0, _, _, temp => .ok temp
  | cnt + 1, offset, p, temp => do
      let dword ← sp.readCnfg offset
      readLoop sp cnt (offset + 4) (p + 4) (temp.writeLE p 4 dword)

/-- `p` から並んだ `cnt` 個の語を `offset` から書く。途中で失敗しても、それまでに書いた語は残る。 -/
def writeLoop (temp : Mem) : (cnt offset p : Nat) → Space → Space × Except Refusal Unit
  | 0, _, _, sp => (sp, .ok ())
  | cnt + 1, offset, p, sp =>
      match sp.writeCnfg offset (temp.readLE p 4) with
      | .ok sp' => writeLoop temp cnt (offset + 4) (p + 4) sp'
      | .error e => (sp, .error e)

/-- `int` の `offset` が `0x100` 以上ならば `pciex_check()` を呼ぶ。 -/
def gate (check : PciexCheck) (offset cnt : Nat) : Except Refusal Unit :=
  if 0x100 ≤ offset ∧ offset < 2 ^ 31 then check offset cnt else .ok ()

/-- `Offset & ~3`。 -/
def alignDown (offset : Nat) : Nat := offset - offset % 4

/-- 語に満たない読み出し。`cnt` 個の語を読み、`offset` のバイトから取り出す。 -/
def readNarrow (check : PciexCheck) (stack : Mem) (sp : Space) (offset cnt : Nat) : Except Refusal Mem := do
  gate check (alignDown offset) cnt
  let temp ← readLoop sp cnt (alignDown offset) 0 stack
  return fun i => temp (offset % 4 + i)

/-- 語に満たない書き込み。`cnt` 個の語を読み、`n` バイトを差し替えて書き戻す。 -/
def writeNarrow (check : PciexCheck) (stack : Mem) (sp : Space) (offset n cnt : Nat) (buf : Mem) : Space × Except Refusal Unit :=
  match gate check (alignDown offset) cnt with
  | .error e => (sp, .error e)
  | .ok () =>
      match readLoop sp cnt (alignDown offset) 0 stack with
      | .error e => (sp, .error e)
      | .ok temp => writeLoop (temp.fill (offset % 4) n buf) cnt (alignDown offset) 0 sp

/-! ## 読み出し -/

/-- `PCI_read_config8()`。 -/
def readConfig8 (check : PciexCheck) (stack : Mem) (sp : Space) (offset cnt : Nat) : Except Refusal Mem :=
  if 256 < cnt then .error .bufferTooSmall else readNarrow check stack sp offset (min ((cnt + 3) >>> 2) 64)

/-- `PCI_read_config16()`。 -/
def readConfig16 (check : PciexCheck) (stack : Mem) (sp : Space) (offset cnt : Nat) : Except Refusal Mem :=
  if 256 < cnt * 2 % 2 ^ 32 then .error .bufferTooSmall
  else if offset % 2 = 1 then .error .badRegisterNumber
  else readNarrow check stack sp offset (min ((cnt + 1) >>> 1) 64)

/-- `PCI_read_config32()`。 -/
def readConfig32 (check : PciexCheck) (buf : Mem) (sp : Space) (offset cnt : Nat) : Except Refusal Mem :=
  if offset % 4 ≠ 0 then .error .badRegisterNumber
  else do
    if 0x100 ≤ offset then check offset (min cnt 64)
    readLoop sp (min cnt 64) offset 0 buf

/-! ## 書き込み -/

/-- `PCI_write_config8()`。 -/
def writeConfig8 (check : PciexCheck) (stack : Mem) (sp : Space) (offset cnt : Nat) (buf : Mem) : Space × Except Refusal Unit :=
  if 256 < cnt then (sp, .error .bufferTooSmall) else writeNarrow check stack sp offset cnt (min ((cnt + 3) >>> 2) 64) buf

/-- `PCI_write_config16()`。 -/
def writeConfig16 (check : PciexCheck) (stack : Mem) (sp : Space) (offset cnt : Nat) (buf : Mem) : Space × Except Refusal Unit :=
  if 256 < cnt * 2 % 2 ^ 32 then (sp, .error .bufferTooSmall)
  else if offset % 2 = 1 then (sp, .error .badRegisterNumber)
  else writeNarrow check stack sp offset (cnt * 2) (min ((cnt + 1) >>> 1) 64) buf

/-- `PCI_write_config32()`。 -/
def writeConfig32 (check : PciexCheck) (sp : Space) (offset cnt : Nat) (buf : Mem) : Space × Except Refusal Unit :=
  if offset % 4 ≠ 0 then (sp, .error .badRegisterNumber)
  else
    match if 0x100 ≤ offset then check offset cnt else .ok () with
    | .error e => (sp, .error e)
    | .ok () => writeLoop buf cnt offset 0 sp

end Imx6Bsp.Pci

namespace Imx6Bsp.Pci

/-! ## 窓の大きさ（`pci/server.c` の `window_size()`）

`PCI_read_config32()` と `PCI_write_config32()` の答えは見ない。読み出しに失敗した変数は、前の値のままである。 -/

open Imx6Bsp.Lib

/-! ### 一つの語 -/

/-- 語のバイト。 -/
def dwordBytes (v : Nat) : Mem := fun i => UInt8.ofNat (v / 256 ^ i)

/-- 答えを見ない、一つの語の読み出し。`old` は変数の前の値である。 -/
def read32 (check : PciexCheck) (sp : Space) (offset old : Nat) : Nat :=
  match readConfig32 check (dwordBytes old) sp offset 1 with
  | .ok buf => buf.readLE 0 4
  | .error _ => old

/-- 答えを見ない、一つの語の書き込み。 -/
def write32 (check : PciexCheck) (sp : Space) (offset v : Nat) : Space := (writeConfig32 check sp offset 1 (dwordBytes v)).1

/-! ### `window_size()` -/

/-- `PCI_IO_SPACE`、`PCI_MEM_SPACE`、`PCI_ROM_SPACE`。 -/
inductive WindowType
  | io
  | mem
  | rom
deriving DecidableEq, Repr

/-- `DEFAULT_SIZE`。 -/
def defaultSize : Nat := 256

/-- `PCI_IO_ADDR()`、`PCI_MEM_ADDR()`、`PCI_ROM_ADDR()`。 -/
def WindowType.address (tmp : Nat) : WindowType → Nat
  | .io => tmp &&& (2 ^ 64 - 2 ^ 2)
  | .mem => tmp &&& (2 ^ 64 - 2 ^ 4)
  | .rom => tmp &&& (2 ^ 64 - 2 ^ 1)

/-- 16 ビットと 32 ビットの窓の、上の桁を立てる。 -/
def widen (tmp : Nat) : Nat :=
  if tmp = 0 then tmp
  else
    let tmp := if tmp < 0x10000 then tmp ||| 0xffff0000 else tmp
    if tmp < 0x100000000 then tmp ||| 0xffffffff00000000 else tmp

/-- 40 ビットの装置の、上の桁を立てる。 -/
def widen64 (tmp : Nat) : Nat := if tmp &&& 0xffffff0000000000 = 0 then tmp ||| 0xffffff0000000000 else tmp

/-- 読み戻した値から求めたマスク。 -/
def windowMask (type : WindowType) (reg64 : Bool) (tmp1 tmpAddr : Nat) : Nat :=
  let tmp := widen (type.address (if reg64 then tmp1 ||| tmpAddr <<< 32 else tmp1))
  if reg64 then widen64 tmp else tmp

/-- すべての桁に 1 を書く。 -/
def writeOnes (check : PciexCheck) (sp : Space) (offset : Nat) (reg64 : Bool) : Space :=
  let sp := write32 check sp offset 0xffffffff
  if reg64 then write32 check sp (offset + 4) 0xffffffff else sp

/-- `cur_addr` を書き戻す。 -/
def restore (check : PciexCheck) (sp : Space) (offset : Nat) (reg64 : Bool) (cur0 cur1 : Nat) : Space :=
  let sp := write32 check sp offset cur0
  if reg64 then write32 check sp (offset + 4) cur1 else sp

/-- `window_size()`。`junk` は `cur_addr [0]` の最初の値である。 -/
def windowSize (check : PciexCheck) (junk : Nat) (sp : Space) (offset : Nat) (type : WindowType) (reg64 : Bool) : Nat × Space :=
  let cur0 := read32 check sp offset junk
  let cur1 := if reg64 then read32 check sp (offset + 4) 0xffffffff else 0xffffffff
  let ones := writeOnes check sp offset reg64
  let tmp1 := read32 check ones offset 0xffffffff
  let tmpAddr := if reg64 then read32 check ones (offset + 4) 0xffffffff else 0xffffffff
  let tmp := windowMask type reg64 tmp1 tmpAddr
  -- 番地の変わらない装置には、既定の大きさを使う。
  let fixed := tmp1 ≠ 0 ∧ cur0 ≠ 0 ∧ tmpAddr = cur1
  let probed := if fixed then write32 check ones offset 0 else ones
  let tmpAddr := if fixed then read32 check probed offset 0 else tmpAddr
  (if tmpAddr = tmp1 then defaultSize else (2 ^ 64 - 1 - tmp + 1) % 2 ^ 64, restore check probed offset reg64 cur0 cur1)

end Imx6Bsp.Pci

namespace Imx6Bsp.Pci

/-! ## 能力の並び（`pci/server.c` の `check_capabilities()`）

`fuel` は繰り返しの回数の上限で、結果の `none` は `fuel` では足りないことを表す。 -/

open Imx6Bsp.Lib

/-- `PCI_CAP_POWER_MANAGEMENT`、`PCI_CAP_PCIX`、`PCI_CAP_PCI_EXPRESS`。 -/
def capPowerManagement : UInt8 := 0x01
def capPcix : UInt8 := 0x07
def capPciExpress : UInt8 := 0x10

/-- `PCI_TYPE_PCIX` と `PCI_TYPE_PCIEXPRESS`。 -/
def typePcix : Nat := 1
def typePciExpress : Nat := 2

/-- `Device` のうち `check_capabilities()` が書く欄。 -/
structure CapRecord where
  pciType : Nat := 0
  pmCap : Nat := 0
  pmState : Nat := 0
deriving DecidableEq, Repr

/-- `Capabilities_Pointer` の番地。CardBus の橋では場所が違う。 -/
def capabilitiesPointer (headerType : Nat) : Nat := if headerType &&& 0x7f = 2 then 0x14 else 0x34

/-- `PciType` を記録する。 -/
def CapRecord.noteType (dev : CapRecord) (cap : UInt8) : CapRecord :=
  let dev := if cap = capPcix then { dev with pciType := typePcix } else dev
  if cap = capPciExpress then { dev with pciType := typePciExpress } else dev

/-- 電源管理の能力ならば、`PmState` と `PmCap` を記録する。 -/
def notePower (check : PciexCheck) (stack : Mem) (sp : Space) (capPtr : Nat) (cap : UInt8) (dev : CapRecord) :
    Except Refusal CapRecord :=
  if cap = capPowerManagement then do
    let pwr ← readConfig16 check stack sp (capPtr + 4) 1
    return { dev with pmState := pwr.readLE 0 2, pmCap := capPtr }
  else .ok dev

/-- `while (1)` の繰り返し。 -/
def capLoop (check : PciexCheck) (stack : Mem) (sp : Space) : (fuel capPtr : Nat) → CapRecord → Option (Int × CapRecord)
  | 0, _, _ => none
  | fuel + 1, capPtr, dev =>
      match readConfig8 check stack sp capPtr 1 with
      | .error _ => some (-1, dev)
      | .ok cap =>
          if capPtr = 0 ∨ capPtr = 0xff then some (0, dev)
          else
            match notePower check stack sp capPtr (cap 0) (dev.noteType (cap 0)) with
            | .error _ => some (-1, dev.noteType (cap 0))
            | .ok dev =>
                match readConfig8 check stack sp (capPtr + 1) 1 with
                | .error _ => some (-1, dev)
                | .ok next => if next 0 = 0 ∨ next 0 = 0xff then some (0, dev) else capLoop check stack sp fuel (next 0).toNat dev

/-- `check_capabilities()`。 -/
def checkCapabilities (check : PciexCheck) (stack : Mem) (sp : Space) (headerType fuel : Nat) (dev : CapRecord) :
    Option (Int × CapRecord) :=
  match readConfig8 check stack sp (capabilitiesPointer headerType) 1 with
  | .error _ => some (-1, dev)
  | .ok capPtr => if capPtr 0 ≠ 0 then capLoop check stack sp fuel (capPtr 0).toNat dev else some (0, dev)

end Imx6Bsp.Pci
