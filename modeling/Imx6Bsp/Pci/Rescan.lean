import Imx6Bsp.Lib.Links
import Imx6Bsp.Pci.Device

/-!
# 抜き差しの走査（`pci/server.c` の `rescan()`）

装置の並びは、番地から節への関数で表した片方向のリストである。設定空間の読み取りは常に成功するとし、読み取れる値を `ConfigSpace` で
与える。`scan_device()` が新しい記録に入れる値は、番号の他は `ConfigSpace` の引数とする。取り除いた装置の IRQ と区画の返却は、その記録を
`released` に残す。表 `res` は列で表す。結果の `none` は、`NULL` の参照か、`fuel` では足りないことを表す。
-/

namespace Imx6Bsp.Pci

open Imx6Bsp.Lib

/-- `PCI_CLASS_BRIDGE` と `PCI_CLASS_BRIDGE | PCI_SUBCLASS_BRIDGE_PCI`。 -/
def pciClassBridge : Nat := 0x60000
def pciBridgePci : Nat := 0x60400

structure Node where
  dev : Device
  next : Option Nat

/-- `DeviceHead`、`DeviceTail`、`numdevices` と、次に `calloc()` が返す番地。 -/
structure Registry where
  nodes : Nat → Node
  deviceHead : Option Nat
  deviceTail : Option Nat
  numdevices : Nat
  brk : Nat
  released : List Device

/-- 設定空間の内容と、`scan_buses`、`scan_device()` の作る記録。 -/
structure ConfigSpace where
  scanBuses : Nat
  vendorId : Nat → Nat → Nat
  headerType : Nat → Nat → Nat
  revisionId : Nat → Nat → Nat
  newDevice : Registry → Nat → Nat → Device

def Registry.setNode (s : Registry) (a : Nat) (node : Node) : Registry :=
  { s with nodes := fun x => if x = a then node else s.nodes x }

def Registry.setNext (s : Registry) (a : Nat) (next : Option Nat) : Registry :=
  s.setNode a { s.nodes a with next }

/-- 装置の番号。 -/
def Device.key (dev : Device) : Nat × Nat := (dev.busNumber, dev.devFuncNumber)

/-! ## `scan_device()` -/

/-- `calloc()` で得た節に記録を置く。 -/
def Registry.addNode (s : Registry) (dev : Device) : Registry :=
  { s.setNode s.brk ⟨dev, none⟩ with brk := s.brk + 1, numdevices := s.numdevices + 1 }

/-- `scan_device()` の作る記録。 -/
def scanned (cfg : ConfigSpace) (s : Registry) (bus devfn : Nat) : Device :=
  { cfg.newDevice s bus devfn with busNumber := bus, devFuncNumber := devfn }

/-- `scan_device()`。 -/
def scanDevice (cfg : ConfigSpace) (s : Registry) (bus devfn : Nat) : Option Registry :=
  let new := s.brk
  let added := s.addNode (scanned cfg s bus devfn)
  match s.deviceHead with
  | none => some { added with deviceHead := some new, deviceTail := some new }
  | some _ => s.deviceTail.map fun tail => { added.setNext tail (some new) with deviceTail := some new }

/-! ## 走査 -/

/-- 番号の等しい装置を探す。 -/
def findDevice (nodes : Nat → Node) (key : Nat × Nat) : (fuel : Nat) → (nextdev : Nat) → Option Bool
  | 0, _ => none
  | fuel + 1, nextdev =>
      if (nodes nextdev).dev.key = key then some true
      else
        match (nodes nextdev).next with
        | none => some false
        | some next => findDevice nodes key fuel next

/-- 走査の間の変数。 -/
structure Scan where
  reg : Registry
  res : List (Nat × Nat)
  count : Nat
  numFuncs : Nat

/-- 次の機能に進むか、`break` で装置を終える。 -/
inductive Control
  | next
  | stop
deriving DecidableEq

/-- 応答のある機能。 -/
def ConfigSpace.Responds (cfg : ConfigSpace) (bus devfn : Nat) : Prop :=
  ¬ (cfg.vendorId bus devfn = 0 ∨ cfg.vendorId bus devfn = 0xffffffff)

instance (cfg : ConfigSpace) (bus devfn : Nat) : Decidable (cfg.Responds bus devfn) := inferInstanceAs (Decidable (¬ _))

/-- `Revision_ID` の語の上の 24 ビット。 -/
def ConfigSpace.classCode (cfg : ConfigSpace) (bus devfn : Nat) : Nat := (cfg.revisionId bus devfn &&& 0xffffff00) >>> 8

/-- クラスの読めない機能。 -/
def ConfigSpace.NullClass (cfg : ConfigSpace) (bus devfn : Nat) : Prop :=
  cfg.revisionId bus devfn &&& 0xffffff00 = 0 ∨ cfg.revisionId bus devfn &&& 0xffffff00 = 0xffffff00

instance (cfg : ConfigSpace) (bus devfn : Nat) : Decidable (cfg.NullClass bus devfn) := inferInstanceAs (Decidable (_ ∨ _))

/-- すでに設定してある橋。 -/
def ConfigSpace.IsBridge (cfg : ConfigSpace) (bus devfn : Nat) : Prop :=
  cfg.classCode bus devfn &&& 0xffff00 = pciClassBridge ∨ cfg.classCode bus devfn &&& 0xffff00 = pciBridgePci

instance (cfg : ConfigSpace) (bus devfn : Nat) : Decidable (cfg.IsBridge bus devfn) := inferInstanceAs (Decidable (_ ∨ _))

/-- 一つの機能を調べる。 -/
def scanFunction (cfg : ConfigSpace) (fuel bus dev func : Nat) (st : Scan) : Option (Control × Scan) :=
  let devfn := dev <<< 3 ||| func
  if cfg.Responds bus devfn then
    let numFuncs := if func = 0 ∧ cfg.headerType bus devfn &&& 0x80 ≠ 0 then 8 else st.numFuncs
    let counted := { st with count := st.count + 1, numFuncs }
    (st.reg.deviceHead.bind (findDevice st.reg.nodes (bus, devfn) fuel)).bind fun found =>
      if found then some (.next, { counted with res := st.res ++ [(bus, devfn)] })
      else if cfg.NullClass bus devfn then some (.stop, counted)
      else if cfg.IsBridge bus devfn then some (.next, counted)
      else (scanDevice cfg st.reg bus devfn).map fun reg => (.next, { counted with reg })
  else some (.next, st)

/-- `FuncNumber` の、残り `n` 回の繰り返し。`NumFuncs` は 8 を超えない。 -/
def functionLoop (cfg : ConfigSpace) (fuel bus dev : Nat) : (n func : Nat) → Scan → Option Scan
  | 0, _, st => some st
  | n + 1, func, st =>
      if func < st.numFuncs then
        (scanFunction cfg fuel bus dev func st).bind fun r =>
          match r.1 with
          | .next => functionLoop cfg fuel bus dev n (func + 1) r.2
          | .stop => some r.2
      else some st

/-- 一つの装置を調べる。 -/
def scanSlot (cfg : ConfigSpace) (fuel : Nat) (st : Scan) (slot : Nat × Nat) : Option Scan :=
  functionLoop cfg fuel slot.1 slot.2 8 0 { st with numFuncs := 1 }

/-- 調べる順の、バスと装置の番号。 -/
def slots (cfg : ConfigSpace) : List (Nat × Nat) :=
  (List.range (cfg.scanBuses + 1)).flatMap fun bus => (List.range 32).map fun dev => (bus, dev)

/-! ## 取り除き -/

/-- 節 `a` を、前の節 `prev` の次から外す。 -/
def Registry.unlink (s : Registry) (prev : Option Nat) (a : Nat) : Registry :=
  let s' := { s with released := s.released ++ [(s.nodes a).dev] }
  match prev with
  | none => { s' with deviceHead := (s.nodes a).next }
  | some p => s'.setNext p (s.nodes a).next

/-- 見つからなかった装置を並びから外す繰り返し。 -/
def unlinkLoop (res : List (Nat × Nat)) : (fuel : Nat) → Registry → (prev : Option Nat) → (nextdev : Nat) → Option Registry
  | 0, _, _, _ => none
  | fuel + 1, s, prev, nextdev =>
      if (s.nodes nextdev).dev.key ∈ res then
        match (s.nodes nextdev).next with
        | none => some s
        | some next => unlinkLoop res fuel s (some nextdev) next
      else
        match (s.nodes nextdev).next with
        | none => some { s.unlink prev nextdev with deviceTail := prev }
        | some _ =>
            -- `nextdev = prev` のあと、`nextdev->next` を読む。
            match prev with
            | none => none
            | some p =>
                match ((s.unlink prev nextdev).nodes p).next with
                | none => some (s.unlink prev nextdev)
                | some next => unlinkLoop res fuel (s.unlink prev nextdev) prev next

/-- `rescan()`。 -/
def rescan (cfg : ConfigSpace) (fuel : Nat) (s : Registry) : Option Registry := do
  let numDev := s.numdevices
  let st ← (slots cfg).foldlM (scanSlot cfg fuel) ⟨s, [], 0, 1⟩
  if st.count < numDev then
    unlinkLoop st.res fuel { st.reg with numdevices := st.count } none (← st.reg.deviceHead)
  else return st.reg

end Imx6Bsp.Pci
