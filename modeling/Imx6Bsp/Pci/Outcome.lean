import Imx6Bsp.Pci.Attach

/-!
# 接続の成否を決める答え

`PCI_attach_device()` の呼び出しが成功するかどうかを、呼び出しの前の装置と外の答えだけで述べる。
-/

namespace Imx6Bsp.Pci

/-! ## 区画 -/

/-- 一種類の区画の要求と、それへの答え。 -/
structure Want where
  size : Nat
  align : Nat
  bus : Nat
  ans : Grants

/-- `addup_resources()` が求める区画。 -/
def wantOf (p : Platform) (req : AttachRequest) (next cardbus : Bool) (ans : Answers) (dev : Device) (kind : ResKind) : Want :=
  let z := sizesOf req.fullFlags (req.showPci || next) cardbus dev
  let bus := allocBusOf p dev.busNumber
  match kind with
  | .io => ⟨z.io, 0, bus, ans.io⟩
  | .mem => ⟨z.mem, z.align, bus, ans.mem⟩
  | .pref => ⟨z.pref, z.prefAlign, bus, ans.pref⟩

def Want.answer (w : Want) (p : Platform) (kind : ResKind) : Except Errno (Nat × Option Nat) :=
  blockAnswer p kind w.size w.align w.bus w.ans

/-- 要求が断られる。 -/
def Want.Refused (w : Want) (p : Platform) (kind : ResKind) : Prop := w.size ≠ 0 ∧ (w.answer p kind).toOption = none

/-- 要求がないか、区画を渡されないまま、すでにある記録と同じものを書く。 -/
def Want.Traceless (w : Want) (p : Platform) (kind : ResKind) (dev : Device) : Prop :=
  w.size = 0 ∨ ∃ address, w.answer p kind = .ok (address, none) ∧ dev.alloc kind = ⟨address, w.size, kind.space⟩

/-- 要求の後の記録。 -/
def Want.record (w : Want) (p : Platform) (kind : ResKind) (old : BaseRegister) : BaseRegister :=
  if w.size = 0 then old
  else
    match w.answer p kind with
    | .ok r => ⟨r.1, w.size, kind.space⟩
    | .error _ => old

/-- 要求で渡された区画。 -/
def Want.held (w : Want) (p : Platform) (d : Nat) (kind : ResKind) : List Held :=
  if w.size = 0 then []
  else
    match w.answer p kind with
    | .ok (_, some start) => [⟨d, ⟨p.name kind w.bus, start, requestLength w.size⟩⟩]
    | _ => []

/-- 渡された番地。 -/
def Want.address (w : Want) (p : Platform) (kind : ResKind) : Nat :=
  if w.size = 0 then 0 else ((w.answer p kind).toOption.map Prod.fst).getD 0

/-- 要求の後の状態。 -/
def Call.takeIf (p : Platform) (d : Nat) (kind : ResKind) (w : Want) (s : Call) : Call :=
  { s with
    dev := s.dev.setAlloc kind (w.record p kind (s.dev.alloc kind))
    db := { s.db with blocks := w.held p d kind ++ s.db.blocks } }

/-- 三種類の要求の後の装置に番地を割り当てたもの。 -/
def placed (p : Platform) (req : AttachRequest) (next cardbus : Bool) (w : ResKind → Want) (dev dev' : Device) : Device :=
  let z := sizesOf req.fullFlags (req.showPci || next) cardbus dev
  if (z.mem ≠ 0 ∨ z.io ≠ 0 ∨ z.pref ≠ 0) ∧ req.showPci = false then
    placeRegs cardbus (sortRegs (z.regSort.length + 1) z.regSort)
      ⟨(w .io).address p .io, (w .mem).address p .mem, (w .pref).address p .pref⟩ dev'
  else dev'

/-! ## 設定空間と割り込み -/

/-- 電源が入る。 -/
def Powered (req : AttachRequest) (ans : Answers) (dev : Device) : Prop :=
  req.showPci = true ∨ dev.pmState % 4 = 0 ∨ ans.powerUp = true

/-- 選ばれた基底レジスタをすべて書ける。 -/
def BarsWritten (req : AttachRequest) (cardbus : Bool) (ans : Answers) (dev : Device) : Prop :=
  ∀ i ∈ barIndices cardbus, wantsBar req.fullFlags i = true → (dev.baseReg i).size ≠ 0 →
    req.showPci = true ∨ ans.writeBar i = true

/-- ROM を書ける。 -/
def RomWritten (req : AttachRequest) (cardbus : Bool) (ans : Answers) (dev : Device) : Prop :=
  has dev.romBase.flags pciRomSpace = true → has req.fullFlags pciInitRom = true → cardbus = false →
    req.showPci = true ∨ ans.writeRom = true

/-- 割り込みを決める。 -/
def IrqAsked (req : AttachRequest) (next : Bool) (ans : Answers) (dev : Device) : Prop :=
  (req.showPci || next) = false ∧ dev.intPin ≠ 0 ∧ has req.fullFlags pciInitIrq = true ∧ ans.irqOk = true

/-- `pci_alloc_irq()` を呼ぶ。 -/
def IrqTaken (cardbus : Bool) (ans : Answers) (s : Call) : Prop :=
  (ans.availIrq ≠ none ∧ ans.availIrq ≠ some 0) ∧ sharesPin s.dev ans = false ∧ ¬(behindCardbus s.dev cardbus = true ∧ s.bdevIrq ≠ 0)

/-- 割り込みが決まって書ける。 -/
def IrqSettled (cardbus : Bool) (ans : Answers) (s : Call) : Prop :=
  ans.availIrq ≠ none ∧ (IrqTaken cardbus ans s → ans.allocIrq.getD 0 ≠ 0 ∨ ans.availIrq = some 1) ∧ ans.writeIrq = true

/-- 割り込みの段で IRQ を求める。 -/
def IrqReached (req : AttachRequest) (next cardbus : Bool) (ans : Answers) (s : Call) : Prop :=
  IrqAsked req next ans s.dev ∧ IrqTaken cardbus ans s

/-- IRQ を求めるところまで進む。 -/
def IrqStage (req : AttachRequest) (next cardbus : Bool) (ans : Answers) (s : Call) : Prop :=
  BarsWritten req cardbus ans s.dev ∧ RomWritten req cardbus ans s.dev ∧ IrqReached req next cardbus ans s

/-- 番地と割り込みをすべて書ける。 -/
def Programs (req : AttachRequest) (next cardbus : Bool) (ans : Answers) (s : Call) : Prop :=
  BarsWritten req cardbus ans s.dev ∧ RomWritten req cardbus ans s.dev ∧ (IrqAsked req next ans s.dev → IrqSettled cardbus ans s)

/-- 外の呼び出しのうち必要なものがすべて成功する。 -/
def Answered (p : Platform) (req : AttachRequest) (next cardbus : Bool) (ans : Answers) (s : Call) : Prop :=
  Powered req ans s.dev ∧ (∀ kind, ¬(wantOf p req next cardbus ans s.dev kind).Refused p kind) ∧ Programs req next cardbus ans s

section

variable (p : Platform) (req : AttachRequest) (next cardbus : Bool) (ans : Answers) (dev : Device) (s : Call)

instance Want.decidableRefused (w : Want) (kind : ResKind) : Decidable (w.Refused p kind) := inferInstanceAs (Decidable (_ ∧ _))

instance decidablePowered : Decidable (Powered req ans dev) := inferInstanceAs (Decidable (_ ∨ _ ∨ _))

instance decidableBarsWritten : Decidable (BarsWritten req cardbus ans dev) :=
  inferInstanceAs (Decidable (∀ i ∈ barIndices cardbus, wantsBar req.fullFlags i = true → (dev.baseReg i).size ≠ 0 →
    req.showPci = true ∨ ans.writeBar i = true))

instance decidableRomWritten : Decidable (RomWritten req cardbus ans dev) :=
  inferInstanceAs (Decidable (_ → _ → _ → _ ∨ _))

instance decidableIrqAsked : Decidable (IrqAsked req next ans dev) := inferInstanceAs (Decidable (_ ∧ _ ∧ _ ∧ _))

instance decidableIrqTaken : Decidable (IrqTaken cardbus ans s) := inferInstanceAs (Decidable ((_ ∧ _) ∧ _ ∧ ¬_))

instance decidableIrqSettled : Decidable (IrqSettled cardbus ans s) := inferInstanceAs (Decidable (_ ∧ (_ → _ ∨ _) ∧ _))

instance decidablePrograms : Decidable (Programs req next cardbus ans s) := inferInstanceAs (Decidable (_ ∧ _ ∧ (_ → _)))

instance decidableAnswered : Decidable (Answered p req next cardbus ans s) :=
  inferInstanceAs (Decidable (_ ∧ (∀ kind, ¬(wantOf p req next cardbus ans s.dev kind).Refused p kind) ∧ _))

end

/-! ## 失敗した接続 -/

/-- 失敗した接続の後に元のままであるべき、装置の欄。 -/
structure Exposed where
  lockFlg : Nat
  mgrAttach : Bool
  attachFlags : BitVec 32
  bars : Fin 6 → Nat
  rom : Nat
  ioAlloc : BaseRegister
  memAlloc : BaseRegister
  prefAlloc : BaseRegister

def Device.exposed (dev : Device) : Exposed :=
  ⟨dev.lockFlg, dev.mgrAttach, dev.attachFlags, fun i => (dev.baseReg i).address, dev.romBase.address, dev.ioAlloc, dev.memAlloc,
    dev.prefAlloc⟩

/-- 装置も接続も元のままで、渡された区画も IRQ も残らない。 -/
structure Unaffected (s t : Server) : Prop where
  devices : t.devices.map Device.exposed = s.devices.map Device.exposed
  clients : t.clients = s.clients
  db : t.db = s.db

/-- 番地の割り当てが、どのレジスタの番地も変えない。 -/
def PlacesNothing (p : Platform) (req : AttachRequest) (next cardbus : Bool) (w : ResKind → Want) (dev : Device) : Prop :=
  (placed p req next cardbus w dev dev).exposed = dev.exposed

/-- 失敗する呼び出しが、何かを取る前に失敗する。 -/
def LeavesNothing (p : Platform) (req : AttachRequest) (next cardbus : Bool) (ans : Answers) (s : Call) : Prop :=
  let w := wantOf p req next cardbus ans s.dev
  ¬Powered req ans s.dev ∨
  (w .io).Refused p .io ∨
  ((w .io).Traceless p .io s.dev ∧ (w .mem).Refused p .mem) ∨
  ((w .io).Traceless p .io s.dev ∧ (w .mem).Traceless p .mem s.dev ∧ (w .pref).Refused p .pref) ∨
  ((∀ kind, (w kind).Traceless p kind s.dev) ∧ PlacesNothing p req next cardbus w s.dev ∧
    (IrqStage req next cardbus ans s → ans.allocIrq = none))

/-- 接続が何も残さずに失敗する条件。装置を決めるところで断られるか、`Path2` でも最初の管理者の接続でもなく、何かを取る前に失敗する。 -/
def CleanFailure (p : Platform) (s : Server) (list : DevList) (req : AttachRequest) (ans : Answers) : Prop :=
  ∀ d way dev, lookup p s.devices req = .ok (d, way) → s.devices[d]? = some dev →
    way ≠ .again ∧ (req.mgr = true → dev.mgrAttach = true) ∧
      LeavesNothing p req (way.next dev) (dev.classCode = pciCardbus) ans (s.call dev list req.config)

end Imx6Bsp.Pci
