import Imx6Bsp.Pci.Resources
import Imx6Bsp.Lib.Runs

/-!
# PCI の接続と切り離し（`pci/server.c`）

`PCI_attach_device()` と `PCI_detach_device()`、`PCI_OcbFree()` を写し、複数の接続からの要求を任意の順に処理するサーバとする。資源の
管理者、設定空間、下位のドライバの答えは、要求ごとの `Answers` で与える。ハードウェアへの書き込みのうち、結果を誰も見ないもの
（`on_pci()`、`off_pci()`、`map_irq`、電源を切ること）は除く。
-/

namespace Imx6Bsp.Pci

/-! ## 要求と答え -/

/-- `PCI_attach_device()` の引数。`handle` の `none` は `NULL` である。 -/
structure AttachRequest where
  handle : Option Nat := none
  flags : BitVec 32
  idx : Nat := 0
  config : PciDevInfo := {}

/-- `flags & PCI_MGR_ATTACH`。 -/
def AttachRequest.mgr (req : AttachRequest) : Bool := has req.flags pciMgrAttach

/-- `show_pci`。 -/
def AttachRequest.showPci (req : AttachRequest) : Bool := !has req.flags (pciInitAll ||| pciInitRom)

/-- 以後に使う旗。 -/
def AttachRequest.fullFlags (req : AttachRequest) : BitVec 32 :=
  if req.showPci then pciInitAll ||| pciInitRom ||| req.flags else req.flags

/-- 要求の間に外から返る答え。`intline` は `Interrupt_Line` の読み出し、`powerUp` は `power_up_device()` の成功、`io` などは資源の
管理者、`writeBar` などは設定空間への書き込みの成功、`availIrq` は `avail_irq` の答えた個数で、失敗なら `none`、`irqlist0` は
`irqlist[0]`、`allocIrq` は管理者が渡した IRQ である。 -/
structure Answers where
  intline : Nat := 0
  powerUp : Bool := true
  io : Grants := fun _ _ => none
  mem : Grants := fun _ _ => none
  pref : Grants := fun _ _ => none
  writeBar : Fin 6 → Bool := fun _ => true
  writeRom : Bool := true
  irqOk : Bool := false
  notBridge : Bool := true
  sameInt : Bool := false
  availIrq : Option Nat := none
  irqlist0 : Nat := 0
  allocIrq : Option Nat := none
  writeIrq : Bool := true

/-! ## 装置を決める -/

/-- `check_flags()` の答え。 -/
inductive FlagCheck
  | refuse
  | again
  | same
deriving DecidableEq, Repr

/-- `check_flags()`。 -/
def checkFlags (p : Platform) (dev : Device) (flags : BitVec 32) : FlagCheck :=
  if has dev.attachFlags pciHwInit = false then if has flags pciHwInit then .again else .same
  else if has (dev.attachFlags ^^^ flags) pciHwInit then if p.hwOverride then .refuse else .again
  else .same

/-- 装置の決まり方。`relock` は `Path3`、`again` は `Path2`、`found` は探して見つけた場合で、引数は `next_attach` である。 -/
inductive Way
  | relock
  | again
  | found (nextAttach : Bool)
deriving DecidableEq, Repr

/-- 探して見つけた装置を使えるか。 -/
def chooseWay (dev : Device) (req : AttachRequest) : Except Errno Way :=
  if dev.lockFlg = 0 then .ok (.found false)
  else if req.mgr = false ∧ req.showPci = false then
    if has dev.attachFlags pciShare then if has req.flags pciShare then .ok (.found true) else .error .ebusy
    else .error .ebusy
  else .ok (.found true)

/-- `PCI_attach_device()` の、装置を決めるところ。 -/
def lookup (p : Platform) (devs : List Device) (req : AttachRequest) : Except Errno (Nat × Way) :=
  match req.handle with
  | some h =>
      match validateHandle devs h, devs[h]? with
      | some d, some dev =>
          match checkFlags p dev req.flags with
          | .refuse => .error .einval
          | .again => .ok (d, .again)
          | .same => .ok (d, .relock)
      | _, _ => .error .einval
  | none =>
      match searchFor devs req.flags req.idx req.config with
      | none => .error .enodev
      | some d =>
          match devs[d]? with
          | none => .error .enodev
          | some dev => (chooseWay dev req).map fun way => (d, way)

/-! ## 接続の記録 -/

/-- `dev_list` の、最初の空きに入れる繰り返し。すでにあれば何もしない。入れたかどうかも返す。 -/
def putSlot (d : Nat) : List (Option Nat) → List (Option Nat) × Bool
  | [] => ([], false)
  | none :: rest => (some d :: rest, true)
  | some e :: rest => if e = d then (some e :: rest, false) else (some e :: (putSlot d rest).1, (putSlot d rest).2)

theorem putSlot_length (d : Nat) (slots : List (Option Nat)) : (putSlot d slots).1.length = slots.length := by
  induction slots with
  | nil => rfl
  | cons e slots ih =>
      cases e with
      | none => rfl
      | some e =>
          simp only [putSlot]
          split
          · rfl
          · simp [ih]

/-- `Path3` の記録。 -/
def DevList.relist (list : DevList) (d : Nat) : DevList :=
  { list with
    devList := (putSlot d list.devList).1
    numDevices := if (putSlot d list.devList).2 then list.numDevices + 1 else list.numDevices
    size := (putSlot_length d list.devList).trans list.size }

/-- 成功した接続の記録。 -/
def DevList.enlist (list : DevList) (d : Nat) : DevList :=
  { list with
    devList := if list.numDevices = 0 then list.devList.set 0 (some d) else (putSlot d list.devList).1
    numDevices := list.numDevices + 1
    size := by
      split
      · rw [List.length_set, list.size]
      · rw [putSlot_length, list.size] }

/-- `LockFlg` と `lockflg` を一つ増やす。`LockFlg` は 8 ビットである。 -/
def Call.lock (s : Call) : Call :=
  { s with
    dev := { s.dev with lockFlg := (s.dev.lockFlg + 1) % 256 }
    list := { s.list with lockflg := s.list.lockflg + 1 } }

/-! ## `PCI_attach_device()` -/

/-- `fill_config()`。 -/
def fillConfig (ans : Answers) (s : Call) : Call :=
  let dev := { s.dev with irqNumber := ans.intline }
  { s with
    dev
    config :=
      { s.config with
        deviceId := dev.deviceId, vendorId := dev.vendorId, classCode := dev.classCode, busNumber := dev.busNumber
        devFunc := dev.devFuncNumber, revision := dev.revisionId, subsystemId := dev.subDeviceId
        subsystemVendorId := dev.subVendorId, irq := dev.irqNumber } }

/-- レジスタ一つ分を `ConfigBuffer` に書く。 -/
def fillBar (p : Platform) (s : Call) (i : Fin 6) : Call :=
  let r := s.dev.baseReg i
  { s with
    config :=
      { s.config with
        pciBaseAddress := Function.update s.config.pciBaseAddress i (p.mapAddr r.address (r.flags ||| pciMapAddrPci))
        cpuBaseAddress := Function.update s.config.cpuBaseAddress i r.address
        baseAddressSize := Function.update s.config.baseAddressSize i (trunc32 r.size) } }

/-- ROM を `ConfigBuffer` に書く。 -/
def fillRom (p : Platform) (s : Call) : Call :=
  let r := s.dev.romBase
  { s with
    config :=
      { s.config with
        pciRom := p.mapAddr r.address (r.flags ||| pciMapAddrPci), cpuRom := r.address, romSize := trunc32 r.size } }

/-- `PCI_translation()`。 -/
def pciTranslation (p : Platform) (s : Call) : Call :=
  { s with
    config :=
      { s.config with
        cpuIoTranslation := -(p.mapAddr 0 (pciIoSpace ||| pciMapAddrPci))
        cpuMemTranslation := -(p.mapAddr 0 (pciMemSpace ||| pciMapAddrPci))
        cpuIsaTranslation := -(p.mapAddr 0 (pciIsaSpace ||| pciMapAddrPci))
        cpuBmstrTranslation := p.mapAddr 0 (pciBmstrSpace ||| pciMapAddrPci) } }

def fillBars (p : Platform) : List (Fin 6) → Call → Call
  | [], s => s
  | i :: is, s => fillBars p is (if (s.dev.baseReg i).size = 0 then s else fillBar p s i)

/-- `fill_base()`。 -/
def fillBase (p : Platform) (s : Call) : Call :=
  let s := fillBars p (barIndices false) s
  pciTranslation p (if has s.dev.romBase.flags pciRomSpace then fillRom p s else s)

/-- `Path3` の接続。 -/
def relock (p : Platform) (d : Nat) (ans : Answers) (s : Call) : Call :=
  let s := (fillBase p (fillConfig ans s)).lock
  { s with list := s.list.relist d }

/-- 選ばれた基底レジスタを一つ書く。 -/
def writeBar (p : Platform) (flags : BitVec 32) (showPci : Bool) (ans : Answers) (i : Fin 6) : CallM Unit := do
  let r := (← get).dev.baseReg i
  if wantsBar flags i = true ∧ r.size ≠ 0 then
    modify fun s => if has r.flags (pciIoSpace ||| pciMemSpace ||| pciMemPrefetch) then fillBar p s i else s
    if showPci = false ∧ ans.writeBar i = false then throw .enxio

def writeBars (p : Platform) (flags : BitVec 32) (showPci : Bool) (ans : Answers) : List (Fin 6) → CallM Unit
  | [] => return ()
  | i :: is => do
      writeBar p flags showPci ans i
      writeBars p flags showPci ans is

/-- ROM を書く。 -/
def writeRom (p : Platform) (flags : BitVec 32) (showPci cardbus : Bool) (ans : Answers) : CallM Unit := do
  let dev := (← get).dev
  if has dev.romBase.flags pciRomSpace = true ∧ has flags pciInitRom = true ∧ cardbus = false then
    modify (fillRom p)
    if showPci = false ∧ ans.writeRom = false then throw .enxio

/-- 番号 0 の機能と割り込みを共有する。 -/
def sharesPin (dev : Device) (ans : Answers) : Bool := dev.devFuncNumber % 8 ≠ 0 ∧ dev.intPin = 1 ∧ ans.notBridge ∧ ans.sameInt

/-- CardBus の制御装置の下にある。 -/
def behindCardbus (dev : Device) (cardbus : Bool) : Bool := !cardbus && dev.bmap.bdevClassCode = pciCardbus

def Call.setIrq (s : Call) (irq : Nat) : Call := { s with dev := { s.dev with irqNumber := irq } }

/-- `pci_alloc_irq()`。断られたときと、IRQ 0 を渡されたときに 0 を返す。 -/
def pciAllocIrq (ans : Answers) : CallM Nat := do
  match ans.allocIrq with
  | none => return 0
  | some irq =>
      modify fun s => { s with db := { s.db with irqs := irq :: s.db.irqs } }
      return irq

/-- `pci_alloc_irq()` の答えを使う。 -/
def takeIrq (behind : Bool) (numIrq : Nat) (ans : Answers) : CallM Unit := do
  let irq ← pciAllocIrq ans
  modify fun s => s.setIrq irq
  if irq ≠ 0 then modify fun s => if behind then { s with bdevIrq := irq } else s
  else if numIrq ≠ 1 then throw .enxio
  else modify fun s => s.setIrq ans.irqlist0

/-- 割り込みの番号を決める。 -/
def chooseIrq (cardbus : Bool) (ans : Answers) : CallM Unit := do
  let s ← get
  match ans.availIrq with
  | none => throw .enxio
  | some numIrq =>
      if sharesPin s.dev ans then modify fun s => s.setIrq ans.irqlist0
      else if behindCardbus s.dev cardbus = true ∧ s.bdevIrq ≠ 0 then modify fun s => s.setIrq s.bdevIrq
      else if numIrq ≠ 0 then takeIrq (behindCardbus s.dev cardbus) numIrq ans

def Call.setConfigIrq (s : Call) (irq : Nat) : Call := { s with config := { s.config with irq } }

/-- 割り込みを決めて `Interrupt_Line` に書く。 -/
def setupIrq (flags : BitVec 32) (quiet cardbus : Bool) (ans : Answers) : CallM Unit := do
  let dev := (← get).dev
  if quiet = true then modify fun s => s.setConfigIrq s.dev.irqNumber
  else
    modify fun s => s.setConfigIrq 0xff
    if dev.intPin ≠ 0 ∧ has flags pciInitIrq = true ∧ ans.irqOk = true then
      chooseIrq cardbus ans
      modify fun s => s.setConfigIrq s.dev.irqNumber
      if ans.writeIrq = false then throw .enxio

/-- `PCI_PERSIST` の装置のレジスタに `PCI_DEVICE_ENABLED` を立てる。 -/
def Device.persist (dev : Device) : Device :=
  let enable : BaseRegister → BaseRegister := fun r => if r.flags = 0 then r else { r with flags := r.flags ||| pciDeviceEnabled }
  { dev with persistent := true, baseReg := fun i => enable (dev.baseReg i), romBase := enable dev.romBase }

/-- 旗を加える。 -/
def Call.addFlags (s : Call) (flags : BitVec 32) : Call :=
  { s with dev := { s.dev with attachFlags := s.dev.attachFlags ||| flags } }

/-- 最後の、旗と `LockFlg` と接続の記録。 -/
def Call.register (d : Nat) (req : AttachRequest) (reAttach : Bool) (s : Call) : Call :=
  let flags := req.fullFlags
  if req.showPci then (if reAttach then s else s.lock).addFlags flags
  else
    let s :=
      if s.dev.attachFlags = 0 then
        let s := s.addFlags flags
        let s := if req.mgr = false ∧ reAttach = false then s.lock else s
        if s.dev.persistent = false ∧ has flags pciPersist = true then { s with dev := s.dev.persist } else s
      else (s.addFlags flags).lock
    { s with list := s.list.enlist d }

/-- `PCI_BUS_INFO` の返事。 -/
def fillBusInfo (p : Platform) (flags : BitVec 32) (s : Call) : Call :=
  if has flags pciBusInfo then
    match p.findBus s.dev.busNumber with
    | some map =>
        { s with
          config :=
            { s.config with
              busIoStart := map.ioStart, busIoEnd := map.ioEnd, busMemStart := map.memStart, busMemEnd := map.memEnd } }
    | none => s
  else s

/-- `PCI_attach_device()` の終わり。 -/
def finish (p : Platform) (d : Nat) (req : AttachRequest) (reAttach : Bool) (s : Call) : Call :=
  fillBusInfo p req.fullFlags ((pciTranslation p s).register d req reAttach)

/-- `next_attach`。管理者がすでにいれば真になる。 -/
def Way.next (way : Way) (dev : Device) : Bool :=
  dev.mgrAttach ||
    match way with
    | .found next => next
    | _ => false

/-- 装置を決めた後の最初の書き換え。`Path2` なら `LockFlg` を増やし、`MgrAttach` を記録する。 -/
def beginAttach (way : Way) (req : AttachRequest) (s : Call) : Call :=
  let s := if way = .again then s.lock else s
  { s with dev := { s.dev with mgrAttach := s.dev.mgrAttach || req.mgr } }

/-- 電源を入れる。 -/
def powerUp (req : AttachRequest) (ans : Answers) : CallM Unit := do
  let dev := (← get).dev
  if req.showPci = false ∧ dev.pmState % 4 ≠ 0 ∧ ans.powerUp = false then throw .eio

/-- 番地と割り込みを装置に書くところ。 -/
def program (p : Platform) (req : AttachRequest) (next cardbus : Bool) (ans : Answers) : CallM Unit := do
  writeBars p req.fullFlags req.showPci ans (barIndices cardbus)
  writeRom p req.fullFlags req.showPci cardbus ans
  setupIrq req.fullFlags (req.showPci || next) cardbus ans

/-- `MgrAttach` の記録から `LockFlg` の前までの、外の答えを使うところ。 -/
def acquire (p : Platform) (d : Nat) (req : AttachRequest) (next cardbus : Bool) (ans : Answers) : CallM Unit := do
  modify (fillConfig ans)
  powerUp req ans
  addupResources p d req.fullFlags req.showPci cardbus next ans.io ans.mem ans.pref
  program p req next cardbus ans

/-- `Path3` でない接続。 -/
def attachCall (p : Platform) (d : Nat) (way : Way) (req : AttachRequest) (ans : Answers) : CallM Unit := do
  let dev := (← get).dev
  modify (beginAttach way req)
  acquire p d req (way.next dev) (dev.classCode = pciCardbus) ans
  modify (finish p d req (way = .again))

/-! ## `PCI_detach_device()` と `PCI_OcbFree()` -/

/-- `LockFlg` から引く数。`close_flag` のとき、接続の合計が装置の `LockFlg` に等しければ全部である。 -/
def lockDrop (closeFlag : Bool) (lockflg lockFlg : Nat) : Nat := if closeFlag = true ∧ lockflg = lockFlg then lockflg else 1

/-- `PCI_detach_device()` の、`LockFlg` か `MgrAttach` を戻すところ。 -/
def unlock (closeFlag : Bool) (s : Call) : Call :=
  if s.dev.lockFlg ≠ 0 then
    if s.list.lockflg ≠ 0 then
      let i := lockDrop closeFlag s.list.lockflg s.dev.lockFlg
      { s with
        dev := { s.dev with lockFlg := s.dev.lockFlg - i }
        list := { s.list with lockflg := s.list.lockflg - i } }
    else { s with dev := { s.dev with lockFlg := s.dev.lockFlg - 1 } }
  else { s with dev := { s.dev with mgrAttach := false } }

/-- 装置に `LockFlg` も `MgrAttach` もない。 -/
def Device.idle (dev : Device) : Bool := dev.lockFlg = 0 ∧ dev.mgrAttach = false

/-- `dev_list` から装置を消す。 -/
def DevList.unlist (list : DevList) (d : Nat) : DevList :=
  { list with
    devList := list.devList.map fun e => if e = some d then none else e
    numDevices := list.numDevices - list.devList.count (some d)
    size := by rw [List.length_map, list.size] }

/-- `release_resources()` を呼ぶか。 -/
def Device.releasable (dev : Device) : Bool :=
  !dev.persistent && has dev.attachFlags (pciInitAll ||| pciInitRom) && dev.idle

/-- 装置が見つかったときの `PCI_detach_device()`。`release_resources()` を呼んだかどうかも返す。 -/
def detachCall (p : Platform) (d : Nat) (closeFlag : Bool) (s : Call) : Call × Bool :=
  let s := unlock closeFlag s
  let released := s.dev.releasable
  let s := if released then (releaseResources p s).1 else s
  let s := { s with list := s.list.unlist d }
  (if s.dev.idle then { s with dev := { s.dev with attachFlags := 0 } } else s, released)

/-- `last_device`、`clast_bus`、`clast_devfn`。 -/
structure LastDevice where
  device : Nat
  bus : Nat
  devfn : Nat
deriving DecidableEq, Repr

/-- `clients` は接続の番号順の並びで、閉じた接続は `none` である。 -/
structure Server where
  devices : List Device
  clients : List (Option DevList) := []
  db : Db := {}
  last : Option LastDevice := none

/-- 装置 `d` についての呼び出しの状態を取り出す。 -/
def Server.call (s : Server) (dev : Device) (list : DevList) (config : PciDevInfo) : Call :=
  { dev, list, db := s.db, bdevIrq := ((s.devices[dev.bmap.bdev]?).map (·.irqNumber)).getD 0, config }

/-- 呼び出しの結果をサーバに戻す。 -/
def Server.store (s : Server) (d c : Nat) (r : Call) : Server :=
  { s with
    devices := (s.devices.modify r.dev.bmap.bdev fun b => { b with irqNumber := r.bdevIrq }).set d r.dev
    clients := s.clients.set c (some r.list)
    db := r.db }

/-- `PCI_attach_device()`。成功すれば装置の番号を返す。 -/
def pciAttachDevice (p : Platform) (s : Server) (c : Nat) (list : DevList) (req : AttachRequest) (ans : Answers) :
    Server × Except Errno Nat :=
  match lookup p s.devices req with
  | .error e => (s, .error e)
  | .ok (d, way) =>
      match s.devices[d]? with
      | none => (s, .error .enodev)
      | some dev =>
          if way = .relock then (s.store d c (relock p d ans (s.call dev list req.config)), .ok d)
          else
            let s' := { s with last := some ⟨d, dev.busNumber, dev.devFuncNumber⟩ }
            match attachCall p d way req ans (s.call dev list req.config) with
            | .ok _ r => (s'.store d c r, .ok d)
            | .error e r => (s'.store d c r, .error e)

/-- `PCI_detach_device()`。装置がなければ `none` を返し、あれば `release_resources()` を呼んだかどうかも返す。 -/
def pciDetachDevice (p : Platform) (s : Server) (c : Nat) (list : DevList) (handle : Nat) (closeFlag : Bool) :
    Option (Server × DevList × Bool) :=
  match s.devices[handle]? with
  | none => none
  | some dev =>
      let r := detachCall p handle closeFlag (s.call dev list {})
      some (s.store handle c r.1, r.1.list, r.2)

/-- `PCI_OcbFree()` の、`dev_list` の `i` 番から先の繰り返し。`release_resources()` を呼んだ装置も返す。 -/
def freeLoop (p : Platform) (c : Nat) : Nat → Nat → Server → DevList → Server × List Nat
  | _, 0, s, _ => (s, [])
  | i, n + 1, s, list =>
      match (list.devList[i]?).join with
      | none => freeLoop p c (i + 1) n s list
      | some d =>
          match pciDetachDevice p s c list d true with
          | none => freeLoop p c (i + 1) n s list
          | some (s, list, released) =>
              let r := freeLoop p c (i + 1) n s list
              (r.1, if released then d :: r.2 else r.2)

/-- `PCI_OcbFree()`。 -/
def pciOcbFree (p : Platform) (s : Server) (c : Nat) (list : DevList) : Server × List Nat :=
  let r := freeLoop p c 0 numDevicesMax s list
  ({ r.1 with clients := r.1.clients.set c none }, r.2)

/-! ## 小さな例 -/

/-- バス 0 だけの環境。 -/
def samplePlatform : Platform :=
  { findBus := fun _ => none, name := fun _ _ => "", mapAddr := fun a _ => a, pages := [(0x10000000, 0x1fffffff)]
    ioCpuLow := 0x1000, ioCpuHigh := 0xffff, hwOverride := false }

/-- I/O のレジスタを一つ持つ装置。 -/
def sampleDevice : Device :=
  { bmap := { primaryBus := 0, bdev := 0, bdevBus := 0, bdevDevfn := 0, bdevHeaderType := 0, bdevClassCode := 0x60000 }
    busNumber := 0, devFuncNumber := 8, vendorId := 0x8086, deviceId := 1
    baseReg := fun i => if i.val = 0 then { size := 0x100, flags := pciIoSpace } else {} }

/-- その装置を探す接続。 -/
def sampleRequest (flags : BitVec 32) : AttachRequest :=
  { flags := pciSearchVendev ||| flags, config := { vendorId := 0x8086, deviceId := 1 } }

end Imx6Bsp.Pci
