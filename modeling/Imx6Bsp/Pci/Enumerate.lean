import Imx6Bsp.Pci.Rescan

/-!
# 装置の番号付けと列挙（`pci/server.c` の `scan_device()`、`search_*()`、`PCI_find_*()`）

`scan_device()` は、並びの中の同じベンダーと装置の番号を持つ最後の装置の `Index` の次を、新しい装置の `Index` とする。
-/

namespace Imx6Bsp.Pci

/-! ## 番号付け -/

/-- `scan_device()` の、`Index` を求める繰り返し。 -/
def indexLoop (nodes : Nat → Node) (vendor deviceid : Nat) : (fuel : Nat) → (device : Option Nat) → (index : Nat) → Option Nat
  | 0, _, _ => none
  | _ + 1, none, index => some index
  | fuel + 1, some a, index =>
      if (nodes a).dev.vendorId = vendor ∧ (nodes a).dev.deviceId = deviceid then
        indexLoop nodes vendor deviceid fuel (nodes a).next ((nodes a).dev.index + 1)
      else indexLoop nodes vendor deviceid fuel (nodes a).next index

/-- `scan_device()` の `index`。並びの節は `brk` より少ない。 -/
def scanIndex (s : Registry) (vendor deviceid : Nat) : Nat :=
  (indexLoop s.nodes vendor deviceid (s.brk + 1) s.deviceHead 0).getD 0

/-- `Vendor_ID` と `Revision_ID` の語から `scan_device()` が入れる値。 -/
def ConfigSpace.numbered (cfg : ConfigSpace) : ConfigSpace :=
  { cfg with
    newDevice := fun s bus devfn =>
      let vendor := cfg.vendorId bus devfn &&& 0xffff
      let deviceid := cfg.vendorId bus devfn >>> 16 &&& 0xffff
      { cfg.newDevice s bus devfn with
        vendorId := vendor
        deviceId := deviceid
        -- `Index` の欄は `uint8_t` である。
        index := scanIndex s vendor deviceid % 256
        revisionId := cfg.revisionId bus devfn &&& 0xff
        classCode := cfg.revisionId bus devfn >>> 8 } }

/-! ## 列挙 -/

/-- `PCI_SUCCESS`、`PCI_UNSUPPORTED_FUNCT`、`PCI_DEVICE_NOT_FOUND`。 -/
inductive PciStatus
  | success
  | unsupportedFunct
  | deviceNotFound
deriving DecidableEq, Repr

/-- `PCI_find_device()`。 -/
def pciFindDevice (devs : List Device) (deviceId vendorId index : Nat) : PciStatus × Option (Nat × Nat) :=
  match searchVenddev devs vendorId deviceId 0xffff 0xffff index with
  | none => (.deviceNotFound, none)
  | some i => (.success, devs[i]?.map Device.key)

/-- `PCI_find_class()`。`present` は、`bus` と `devfn` が `NULL` でないことである。 -/
def pciFindClass (devs : List Device) (present : Bool) (classCode index : Nat) : PciStatus × Option (Nat × Nat) :=
  if present then
    match searchClass devs classCode index with
    | none => (.deviceNotFound, none)
    | some i => (.success, devs[i]?.map Device.key)
  else (.unsupportedFunct, none)

/-! ## 走査の列 -/

/-- 起動の走査の一つの機能か、`rescan()` か。設定空間の内容はそのつど変わってよい。 -/
inductive PciEvent
  | scan (cfg : ConfigSpace) (bus devfn : Nat)
  | rescan (cfg : ConfigSpace) (fuel : Nat)

def pciStep (s : Registry) : PciEvent → Except Unit Registry
  | .scan cfg bus devfn => (scanDevice cfg.numbered s bus devfn).elim (.error ()) .ok
  | .rescan cfg fuel => (Pci.rescan cfg.numbered fuel s).elim (.error ()) .ok

/-- 装置のない並び。 -/
def Registry.empty (nodes : Nat → Node) : Registry := ⟨nodes, none, none, 0, 0, []⟩

end Imx6Bsp.Pci
