import Mathlib

/-!
# PCI の装置の並びと接続（`pci/server.c`）

`Device` と `BUSMAP`、`DEV_LIST` と、装置を探す関数を写す。装置への指し手は並びの中の番号とし、`BUSMAP` は作った後に変わらない欄だけを持つ。
旗は 32 ビットの語、番地と大きさは自然数である。
-/

namespace Imx6Bsp.Pci

/-! ## 旗 -/

/-- `PCI_SHARE`。 -/
def pciShare : BitVec 32 := 0x1

/-- `PCI_PERSIST`。 -/
def pciPersist : BitVec 32 := 0x2

/-- `PCI_SEARCH_VEND` から `PCI_SEARCH_BUSDEV` までと `PCI_SEARCH_MASK`。 -/
def pciSearchVend : BitVec 32 := 0x10
def pciSearchVendev : BitVec 32 := 0x20
def pciSearchClass : BitVec 32 := 0x40
def pciSearchBusdev : BitVec 32 := 0x80
def pciSearchMask : BitVec 32 := 0xf0

/-- `PCI_MASK_VENDDEV`。 -/
def pciMaskVenddev : BitVec 32 := 0x100

/-- `PCI_INIT_IRQ`、`PCI_INIT_ROM`、`PCI_INIT_BASE0`、`PCI_INIT_ALL`。 -/
def pciInitIrq : BitVec 32 := 0x10000
def pciInitRom : BitVec 32 := 0x20000
def pciInitBase0 : BitVec 32 := 0x40000
def pciInitAll : BitVec 32 := 0xfd0000

/-- `PCI_HW_INIT`。 -/
def pciHwInit : BitVec 32 := 0xfe0000

/-- `PCI_MGR_ATTACH`。 -/
def pciMgrAttach : BitVec 32 := 0x4000000

/-- `PCI_BUS_INFO`。 -/
def pciBusInfo : BitVec 32 := 0x10000000

/-- 基底レジスタの旗。`PCI_IO_SPACE` などである。 -/
def pciIoSpace : BitVec 32 := 0x01
def pciMemSpace : BitVec 32 := 0x02
def pciRomSpace : BitVec 32 := 0x04
def pciIsaSpace : BitVec 32 := 0x08
def pciBmstrSpace : BitVec 32 := 0x10
def pciMemPrefetch : BitVec 32 := 0x20
def pciDeviceEnabled : BitVec 32 := 0x80

/-- `PCI_MAP_ADDR_CPU` と `PCI_MAP_ADDR_PCI`。 -/
def pciMapAddrCpu : BitVec 32 := 0x40000000
def pciMapAddrPci : BitVec 32 := 0x80000000

/-- `PCI_CLASS_BRIDGE | PCI_SUBCLASS_BRIDGE_CARDBUS`。 -/
def pciCardbus : Nat := 0x60700

/-- `flags & bits`。 -/
def has (flags bits : BitVec 32) : Bool := flags &&& bits != 0

/-! ## 装置 -/

/-- `struct BaseRegister`。 -/
structure BaseRegister where
  address : Nat := 0
  size : Nat := 0
  flags : BitVec 32 := 0
deriving DecidableEq, Repr

/-- `BUSMAP` とその `bdev` のうち、走査の後に変わらない欄。`bdev` は装置の番号である。 -/
structure BusMap where
  primaryBus : Nat
  bdev : Nat
  bdevBus : Nat
  bdevDevfn : Nat
  bdevHeaderType : Nat
  bdevClassCode : Nat
  ioStart : Nat := 0
  ioEnd : Nat := 0
  memStart : Nat := 0
  memEnd : Nat := 0
  prefetchMemStart : Nat := 0
  prefetchMemEnd : Nat := 0
deriving DecidableEq, Repr

/-- `Device`。`bmap` は走査で必ず付く。 -/
structure Device where
  bmap : BusMap
  busNumber : Nat
  devFuncNumber : Nat
  irqNumber : Nat := 0
  vendorId : Nat := 0
  deviceId : Nat := 0
  subVendorId : Nat := 0
  subDeviceId : Nat := 0
  classCode : Nat := 0
  baseReg : Fin 6 → BaseRegister := fun _ => {}
  romBase : BaseRegister := {}
  memAlloc : BaseRegister := {}
  prefAlloc : BaseRegister := {}
  ioAlloc : BaseRegister := {}
  attachFlags : BitVec 32 := 0
  lockFlg : Nat := 0
  index : Nat := 0
  revisionId : Nat := 0
  persistent : Bool := false
  intPin : Nat := 0
  mgrAttach : Bool := false
  pmState : Nat := 0
deriving DecidableEq

/-- `NUM_DEVICES`。 -/
def numDevicesMax : Nat := 20

/-- `DEV_LIST`。 -/
structure DevList where
  numDevices : Int := 0
  lockflg : Nat := 0
  devList : List (Option Nat) := List.replicate numDevicesMax none
  size : devList.length = numDevicesMax := by rfl
deriving DecidableEq, Repr

/-- `struct pci_dev_info`。 -/
structure PciDevInfo where
  deviceId : Nat := 0
  vendorId : Nat := 0
  subsystemId : Nat := 0
  subsystemVendorId : Nat := 0
  busNumber : Nat := 0
  devFunc : Nat := 0
  revision : Nat := 0
  classCode : Nat := 0
  irq : Nat := 0
  cpuIoTranslation : Int := 0
  cpuMemTranslation : Int := 0
  cpuIsaTranslation : Int := 0
  cpuBmstrTranslation : Int := 0
  pciBaseAddress : Fin 6 → Nat := fun _ => 0
  cpuBaseAddress : Fin 6 → Nat := fun _ => 0
  baseAddressSize : Fin 6 → Nat := fun _ => 0
  pciRom : Nat := 0
  cpuRom : Nat := 0
  romSize : Nat := 0
  busIoStart : Nat := 0
  busIoEnd : Nat := 0
  busMemStart : Nat := 0
  busMemEnd : Nat := 0

/-! ## 装置を探す -/

/-- 条件に合う最初の装置の番号。 -/
def searchDevice (devs : List Device) (p : Device → Bool) : Option Nat := devs.findIdx? p

def searchClassLoop (classCode idx : Nat) : List Device → Nat → Nat → Option Nat
  | [], _, _ => none
  | d :: ds, i, oidx =>
      if d.classCode = classCode then
        if oidx = idx then some i else searchClassLoop classCode idx ds (i + 1) (oidx + 1)
      else searchClassLoop classCode idx ds (i + 1) oidx

/-- `search_class()`。 -/
def searchClass (devs : List Device) (classCode idx : Nat) : Option Nat := searchClassLoop classCode idx devs 0 0

/-- `search_vendor()`。 -/
def searchVendor (devs : List Device) (vendor vendorMask idx : Nat) : Option Nat :=
  searchDevice devs fun d => d.vendorId &&& vendorMask = vendor ∧ d.index = idx

/-- `search_venddev()`。 -/
def searchVenddev (devs : List Device) (vendor device vendorMask deviceMask idx : Nat) : Option Nat :=
  searchDevice devs fun d => d.vendorId &&& vendorMask = vendor ∧ d.deviceId &&& deviceMask = device ∧ d.index = idx

/-- `search_busdev()`。 -/
def searchBusdev (devs : List Device) (bus devfunc : Nat) : Option Nat :=
  searchDevice devs fun d => d.busNumber = bus ∧ d.devFuncNumber = devfunc

/-- `validate_handle()`。 -/
def validateHandle (devs : List Device) (handle : Nat) : Option Nat := if handle < devs.length then some handle else none

/-- `PCI_attach_device()` の、`ConfigBuffer` と旗による装置の選び方。 -/
def searchFor (devs : List Device) (flags : BitVec 32) (idx : Nat) (config : PciDevInfo) : Option Nat :=
  let masked := has flags pciMaskVenddev
  let vendorMask := if masked then config.subsystemVendorId else 0xffff
  let deviceMask := if masked then config.subsystemId else 0xffff
  let kind := flags &&& pciSearchMask
  if kind = pciSearchVend then searchVendor devs config.vendorId vendorMask idx
  else if kind = pciSearchVendev then searchVenddev devs config.vendorId config.deviceId vendorMask deviceMask idx
  else if kind = pciSearchClass then searchClass devs config.classCode idx
  else if kind = pciSearchBusdev then searchBusdev devs config.busNumber config.devFunc
  else if config.deviceId ≠ 0 ∨ config.vendorId ≠ 0 then
    searchVenddev devs config.vendorId config.deviceId vendorMask deviceMask idx
  else if config.classCode ≠ 0 then searchClass devs config.classCode idx
  else searchBusdev devs config.busNumber config.devFunc

end Imx6Bsp.Pci
