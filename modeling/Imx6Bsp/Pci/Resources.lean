import Imx6Bsp.Pci.Device

/-!
# PCI の資源（`pci/server.c`）

`pci_alloc_resource()` と `addup_resources()`、`pci_free_resource()`、`release_resources()` を写す。資源の管理者は、求めた区画の
始まりを答えるか断るかの、与えられた答えとする。管理者がこのサーバに渡している区画と IRQ を `Db` に記録し、区画には、どの装置の
ための呼び出しで渡したかを添える。返すときは名前と範囲だけで探す。
-/

namespace Imx6Bsp.Pci

/-! ## 資源の管理者 -/

inductive ResKind
  | io
  | mem
  | pref
deriving DecidableEq, Repr

instance ResKind.fintype : Fintype ResKind where
  elems := {.io, .mem, .pref}
  complete kind := by cases kind <;> decide

def ResKind.space : ResKind → BitVec 32
  | .io => pciIoSpace
  | .mem => pciMemSpace
  | .pref => pciMemPrefetch

/-- 管理者が渡した区画。`name` は `make_name()` の名前である。 -/
structure Block where
  name : String
  start : Nat
  length : Nat
deriving DecidableEq, Repr

/-- サーバが持っている区画。`dev` は求めた装置の番号である。 -/
structure Held where
  dev : Nat
  block : Block
deriving DecidableEq, Repr

structure Db where
  blocks : List Held := []
  irqs : List Nat := []
deriving DecidableEq, Repr

/-- `rsrcdbmgr_detach()`。持っている区画でなければ失敗して何も変えない。 -/
def Db.detach (db : Db) (b : Block) : Db := { db with blocks := db.blocks.eraseP fun h => h.block = b }

inductive Errno
  | einval
  | enodev
  | ebusy
  | eio
  | enxio
deriving DecidableEq, Repr

/-- 走査で決まり、その後に変わらないもの。`pages` は `pci_memory` の `start_cpu_addr` と `end_cpu_addr`、`mapAddr` は番地の変換、
`name` は `make_name()` である。 -/
structure Platform where
  findBus : Nat → Option BusMap
  name : ResKind → Nat → String
  mapAddr : Nat → BitVec 32 → Nat
  pages : List (Nat × Nat)
  ioCpuLow : Nat
  ioCpuHigh : Nat
  hwOverride : Bool

/-- `rsrcdbmgr_attach()` に渡す要求のうち、範囲と長さと境界。 -/
structure RsrcRequest where
  start : Nat
  stop : Nat
  length : Nat
  align : Nat
deriving DecidableEq, Repr

/-- 管理者の答え。要求の順の番号と要求から、渡した区画の始まりを決める。 -/
abbrev Grants := Nat → RsrcRequest → Option Nat

/-! ## `pci_alloc_resource()` -/

/-- バスの窓。 -/
def BusMap.window (map : BusMap) : ResKind → Nat × Nat
  | .io => (map.ioStart, map.ioEnd)
  | .mem => (map.memStart, map.memEnd)
  | .pref => (map.prefetchMemStart, map.prefetchMemEnd)

/-- バスの窓を CPU の番地にしたもの。 -/
def cpuWindow (p : Platform) (kind : ResKind) (space : BitVec 32) (map : Option BusMap) : Nat × Nat :=
  match map with
  | some map => (p.mapAddr (map.window kind).1 (space ||| pciMapAddrCpu), p.mapAddr (map.window kind).2 (space ||| pciMapAddrCpu))
  | none => (0, 0)

/-- メモリの要求の範囲。始まりと終わりが等しければ 0 とする。 -/
def memRange (p : Platform) (kind : ResKind) (bus : Nat) (page : Nat × Nat) : Nat × Nat :=
  let r := if bus = 0 then page else cpuWindow p kind pciMemSpace (p.findBus bus)
  if r.1 = r.2 then (0, 0) else r

/-- メモリの区画を求める繰り返し。`start` は断られた最後の要求の始まりである。 -/
def memLoop (p : Platform) (kind : ResKind) (bus length align : Nat) (ans : Grants) :
    List (Nat × Nat) → Nat → Nat → Except Errno (Nat × Option Nat)
  | [], _, start => .ok (start, none)
  | page :: pages, i, _ =>
      let r := memRange p kind bus page
      match ans i ⟨r.1, r.2, length, align⟩ with
      | some start => .ok (start, some start)
      | none => if bus ≠ 0 then .error .einval else memLoop p kind bus length align ans pages (i + 1) r.1

/-- I/O の要求の範囲。バスの窓がなければ全体とする。 -/
def ioRange (p : Platform) (bus : Nat) : Nat × Nat :=
  let r := if bus = 0 then (0, 0) else cpuWindow p .io pciIoSpace (p.findBus bus)
  if r.1 = r.2 then (p.ioCpuLow, p.ioCpuHigh) else r

/-- I/O の区画を求める。 -/
def ioAttach (p : Platform) (bus length align : Nat) (ans : Grants) : Except Errno (Nat × Option Nat) :=
  let r := ioRange p bus
  match ans 0 ⟨r.1, r.2, length, align⟩ with
  | some start => .ok (start, some start)
  | none => .error .einval

/-- 要求の長さ。 -/
def requestLength (size : Nat) : Nat := if size < 256 then 256 else size

/-- メモリのレジスタか。 -/
def BaseRegister.isMem (r : BaseRegister) : Bool :=
  has r.flags pciMemSpace || has r.flags pciRomSpace || has r.flags pciMemPrefetch

/-- メモリのレジスタの種類。 -/
def BaseRegister.memKind (r : BaseRegister) : ResKind := if has r.flags pciMemPrefetch then .pref else .mem

/-- `pci_alloc_resource()`。書き換えた `BaseReg` と、失敗か、渡された区画の始まりを返す。見つけたバスの名前は必ず作れる。 -/
def pciAllocResource (p : Platform) (reg : BaseRegister) (align bus : Nat) (ans : Grants) :
    BaseRegister × Except Errno (Option Nat) :=
  if has reg.flags pciDeviceEnabled then (reg, .ok none)
  else if bus ≠ 0 ∧ p.findBus bus = none then (reg, .error .einval)
  else
    let length := requestLength reg.size
    let align := if align ≠ 0 then align else length
    if reg.isMem then
      let reg := { reg with address := reg.address % 16 }
      match memLoop p reg.memKind bus length align ans p.pages 0 0 with
      | .ok r => ({ reg with address := reg.address ||| r.1 }, .ok r.2)
      | .error e => (reg, .error e)
    else if has reg.flags pciIoSpace then
      let reg := { reg with address := reg.address % 4 }
      match ioAttach p bus length align ans with
      | .ok r => ({ reg with address := reg.address ||| r.1 }, .ok r.2)
      | .error e => (reg, .error e)
    else (reg, .error .einval)

/-! ## `addup_resources()` -/

/-- 資源を取るバス。CardBus の制御装置の下では、その一次側のバスである。 -/
def allocBusOf (p : Platform) (bus : Nat) : Nat :=
  if bus = 0 then bus
  else
    match p.findBus bus with
    | some map => if map.bdevHeaderType &&& 2 ≠ 0 then map.primaryBus else bus
    | none => bus

/-- 基底レジスタの番号を順に並べたもの。 -/
def barIndices (cardbus : Bool) : List (Fin 6) := if cardbus then [0] else [0, 1, 2, 3, 4, 5]

/-- `flags & (PCI_INIT_BASE0 << i)`。 -/
def wantsBar (flags : BitVec 32) (i : Fin 6) : Bool := has flags (pciInitBase0 <<< i.val)

/-- 番地がまだない。 -/
def BaseRegister.unassigned (r : BaseRegister) : Bool := r.address < if has r.flags pciIoSpace then 4 else 16

/-- 足し合わせた大きさと境界、並べる前の `reg_sort`。番号 6 は ROM である。 -/
structure Sizes where
  io : Nat := 0
  mem : Nat := 0
  pref : Nat := 0
  align : Nat := 0
  prefAlign : Nat := 0
  enabled : Bool := false
  regSort : List (Nat × Nat) := []
deriving DecidableEq, Repr

/-- 32 ビットに丸める。 -/
def trunc32 (n : Nat) : Nat := n % 2 ^ 32

/-- メモリの大きさを加える。 -/
def Sizes.addMem (z : Sizes) (size : Nat) : Sizes :=
  { z with mem := trunc32 (z.mem + size), align := if size > z.align then trunc32 size else z.align }

def Sizes.addPref (z : Sizes) (size : Nat) : Sizes :=
  { z with pref := trunc32 (z.pref + size), prefAlign := if size > z.prefAlign then trunc32 size else z.prefAlign }

/-- 基底レジスタ一つ分を加える。`quiet` は `show_pci` か `next_attach` である。 -/
def Sizes.addBar (flags : BitVec 32) (quiet : Bool) (dev : Device) (z : Sizes) (i : Fin 6) : Sizes :=
  let r := dev.baseReg i
  if !wantsBar flags i || r.flags = 0 then z
  else
    let enabled := (z.enabled || has r.flags pciDeviceEnabled) && !r.unassigned
    let z := { z with enabled, regSort := z.regSort ++ [(r.size, i.val)] }
    if enabled || quiet then z
    else if has r.flags pciIoSpace then { z with io := trunc32 (z.io + requestLength r.size) }
    else if has r.flags pciMemPrefetch then z.addPref r.size
    else z.addMem r.size

/-- ROM の分を加える。 -/
def Sizes.addRom (flags : BitVec 32) (quiet cardbus : Bool) (dev : Device) (z : Sizes) : Sizes :=
  let r := dev.romBase
  if has flags pciInitRom && has r.flags pciRomSpace && !cardbus && !(has r.flags pciDeviceEnabled && r.address ≥ 2) && !quiet then
    { z.addMem r.size with regSort := z.regSort ++ [(r.size, 6)] }
  else z

/-- `addup_resources()` の最初の繰り返し。 -/
def sizesOf (flags : BitVec 32) (quiet cardbus : Bool) (dev : Device) : Sizes :=
  ((barIndices cardbus).foldl (Sizes.addBar flags quiet dev) {}).addRom flags quiet cardbus dev

/-- 大きさの降順に並べる一回り。入れ替えたかどうかも返す。 -/
def sortPass : Nat × Nat → List (Nat × Nat) → List (Nat × Nat) × Bool
  | a, [] => ([a], false)
  | a, b :: rest =>
      if a.1 < b.1 then (b :: (sortPass a rest).1, true)
      else (a :: (sortPass b rest).1, (sortPass b rest).2)

/-- 入れ替えがなくなるまで繰り返す。 -/
def sortRegs : Nat → List (Nat × Nat) → List (Nat × Nat)
  | 0, regs => regs
  | _, [] => []
  | fuel + 1, a :: rest =>
      let r := sortPass a rest
      if r.2 then sortRegs fuel r.1 else r.1

def Device.reg (dev : Device) (i : Nat) : BaseRegister := if h : i < 6 then dev.baseReg ⟨i, h⟩ else dev.romBase

def Device.setReg (dev : Device) (i : Nat) (r : BaseRegister) : Device :=
  if h : i < 6 then { dev with baseReg := Function.update dev.baseReg ⟨i, h⟩ r } else { dev with romBase := r }

/-- 次に割り当てる番地。 -/
structure Cursor where
  io : Nat
  mem : Nat
  pref : Nat
deriving DecidableEq, Repr

/-- 番地のないレジスタに番地を割り当てる。 -/
def placeRegs (cardbus : Bool) : List (Nat × Nat) → Cursor → Device → Device
  | [], _, dev => dev
  | e :: regs, cur, dev =>
      let i := e.2
      let r := dev.reg i
      if r.unassigned && r.size ≠ 0 then
        let flags := if cardbus then r.flags ||| pciDeviceEnabled else r.flags
        if has r.flags pciIoSpace then
          placeRegs cardbus regs { cur with io := cur.io + requestLength r.size }
            (dev.setReg i { r with address := r.address ||| cur.io, flags })
        else if has r.flags pciMemPrefetch then
          placeRegs cardbus regs { cur with pref := cur.pref + r.size }
            (dev.setReg i { r with address := r.address ||| cur.pref, flags })
        else
          placeRegs cardbus regs { cur with mem := cur.mem + r.size }
            (dev.setReg i { r with address := r.address ||| cur.mem, flags })
      else placeRegs cardbus regs cur dev

def Device.alloc (dev : Device) : ResKind → BaseRegister
  | .io => dev.ioAlloc
  | .mem => dev.memAlloc
  | .pref => dev.prefAlloc

def Device.setAlloc (dev : Device) : ResKind → BaseRegister → Device
  | .io, r => { dev with ioAlloc := r }
  | .mem, r => { dev with memAlloc := r }
  | .pref, r => { dev with prefAlloc := r }

/-- `PCI_attach_device()` と `PCI_detach_device()` が書き換えるもの。`bdevIrq` は `dev_ptr->bmap->bdev->IrqNumber` である。 -/
structure Call where
  dev : Device
  list : DevList
  db : Db
  bdevIrq : Nat := 0
  config : PciDevInfo := {}

/-- 途中で失敗しても、それまでの書き換えは残る。 -/
abbrev CallM := EStateM Errno Call

/-- 種類 `kind` の区画を求めた結果。番地と、渡された区画の始まりである。 -/
def blockAnswer (p : Platform) (kind : ResKind) (size align bus : Nat) (ans : Grants) : Except Errno (Nat × Option Nat) :=
  let r := pciAllocResource p { size, flags := kind.space } align bus ans
  r.2.map fun grant => (r.1.address, grant)

/-- 番地と大きさを装置に記録する。渡された区画があれば `db` に加える。 -/
def Call.take (p : Platform) (d : Nat) (kind : ResKind) (size bus : Nat) (r : Nat × Option Nat) (s : Call) : Call :=
  { s with
    dev := s.dev.setAlloc kind ⟨r.1, size, kind.space⟩
    db :=
      match r.2 with
      | some start => { s.db with blocks := ⟨d, ⟨p.name kind bus, start, requestLength size⟩⟩ :: s.db.blocks }
      | none => s.db }

/-- 種類 `kind` の区画を求める。 -/
def takeBlock (p : Platform) (d : Nat) (kind : ResKind) (size align bus : Nat) (ans : Grants) : CallM Nat := do
  if size = 0 then return 0
  else
    match blockAnswer p kind size align bus ans with
    | .error e => throw e
    | .ok r =>
        modify (Call.take p d kind size bus r)
        return r.1

/-- `addup_resources()`。`io`、`mem`、`pref` は管理者の答えである。 -/
def addupResources (p : Platform) (d : Nat) (flags : BitVec 32) (showPci cardbus nextAttach : Bool) (io mem pref : Grants) :
    CallM Unit := do
  let dev := (← get).dev
  let z := sizesOf flags (showPci || nextAttach) cardbus dev
  let bus := allocBusOf p dev.busNumber
  let ioAddr ← takeBlock p d .io z.io 0 bus io
  let memAddr ← takeBlock p d .mem z.mem z.align bus mem
  let prefAddr ← takeBlock p d .pref z.pref z.prefAlign bus pref
  if (z.mem ≠ 0 ∨ z.io ≠ 0 ∨ z.pref ≠ 0) ∧ showPci = false then
    modify fun s => { s with dev := placeRegs cardbus (sortRegs (z.regSort.length + 1) z.regSort) ⟨ioAddr, memAddr, prefAddr⟩ s.dev }

/-! ## `release_resources()` -/

/-- `pci_free_resource()`。 -/
def pciFreeResource (p : Platform) (bus : Nat) (reg : BaseRegister) (db : Db) : BaseRegister × Db :=
  let fBus := allocBusOf p bus
  if fBus ≠ 0 ∧ p.findBus fBus = none then (reg, db)
  else
    let length := requestLength reg.size
    if reg.isMem then
      ({ reg with address := reg.address % 16 }, db.detach ⟨p.name reg.memKind fBus, reg.address / 16 * 16, length⟩)
    else if has reg.flags pciIoSpace then
      ({ reg with address := reg.address % 4 }, db.detach ⟨p.name .io fBus, reg.address / 4 * 4, length⟩)
    else (reg, db)

/-- 番地のある記録の区画を返す。 -/
def freeAlloc (p : Platform) (kind : ResKind) (s : Call) : Call :=
  if (s.dev.alloc kind).address ≠ 0 then
    let r := pciFreeResource p s.dev.busNumber (s.dev.alloc kind) s.db
    { s with dev := s.dev.setAlloc kind r.1, db := r.2 }
  else s

/-- 基底レジスタの番地を消す繰り返し。`enabled` は、それまでに `PCI_DEVICE_ENABLED` のレジスタがあったことである。 -/
def clearBars : List (Fin 6) → Bool → Device → Device × Bool
  | [], enabled, dev => (dev, enabled)
  | i :: is, enabled, dev =>
      let r := dev.baseReg i
      let enabled := enabled || has r.flags pciDeviceEnabled
      if r.address ≠ 0 ∧ enabled = false then
        clearBars is enabled
          { dev with baseReg := Function.update dev.baseReg i { r with address := r.address % if r.address % 2 = 1 then 4 else 16 } }
      else clearBars is enabled dev

/-- ROM の番地を消す。 -/
def clearRom (enabled : Bool) (dev : Device) : Device × Bool :=
  let r := dev.romBase
  let enabled := enabled || has r.flags pciDeviceEnabled
  if r.address ≠ 0 ∧ enabled = false then ({ dev with romBase := { r with address := r.address &&& 0x7fe } }, enabled)
  else (dev, enabled)

/-- 番地を消すところ。 -/
def clearRegs (dev : Device) : Device × Bool :=
  let bars := clearBars [0, 1, 2, 3, 4, 5] false dev
  clearRom bars.2 bars.1

/-- 区画を返すところ。 -/
def freeAllocs (p : Platform) (s : Call) : Call := freeAlloc p .pref (freeAlloc p .mem (freeAlloc p .io s))

/-- `release_resources()`。`__X86__` ではない場合である。IRQ は、CardBus の制御装置の下でなければ返す。 -/
def releaseResources (p : Platform) (s : Call) : Call × Bool :=
  let regs := clearRegs s.dev
  let s := freeAllocs p { s with dev := regs.1 }
  if s.dev.bmap.bdevClassCode = pciCardbus then (s, true)
  else if s.dev.irqNumber ≠ 0 ∧ s.dev.irqNumber ≠ 0xffffffff then
    ({ s with db := { s.db with irqs := s.db.irqs.erase s.dev.irqNumber } }, regs.2)
  else (s, regs.2)

end Imx6Bsp.Pci
