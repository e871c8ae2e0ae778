import Imx6Bsp.Pci.Attach
import Imx6Bsp.Lib.Runs
import Imx6Bsp.Pci.Outcome

/-!
# `PCI_attach_device()` が書き換えるもの

接続の呼び出しを段に分け、それぞれが変えないものを示す。
-/

namespace Imx6Bsp.Pci

open Imx6Bsp.Lib

/-! ## 変わらないもの -/

/-- 接続の数え方に関わる欄。 -/
structure Admin where
  lockFlg : Nat
  mgrAttach : Bool
  attachFlags : BitVec 32
  persistent : Bool
  bmap : BusMap
  busNumber : Nat
  list : DevList

def Call.admin (s : Call) : Admin :=
  ⟨s.dev.lockFlg, s.dev.mgrAttach, s.dev.attachFlags, s.dev.persistent, s.dev.bmap, s.dev.busNumber, s.list⟩

/-- 割り込みの番号と IRQ と返事のほかのすべて。 -/
def Call.core (s : Call) : Device × DevList × List Held := ({ s.dev with irqNumber := 0 }, s.list, s.db.blocks)

theorem Call.admin_of_core {s t : Call} (h : t.core = s.core) : t.admin = s.admin := by
  simp only [Call.core, Prod.mk.injEq, Device.mk.injEq] at h
  simp only [Call.admin, h]

theorem Device.admin_setAlloc (dev : Device) (kind : ResKind) (r : BaseRegister) (s : Call) :
    Call.admin { s with dev := dev.setAlloc kind r } = Call.admin { s with dev } := by
  cases kind <;> rfl

theorem Device.setReg_eq (dev : Device) (i : Nat) (r : BaseRegister) :
    ∃ baseReg romBase, dev.setReg i r = { dev with baseReg, romBase } := by
  simp only [Device.setReg]
  split
  · exact ⟨_, _, rfl⟩
  · exact ⟨_, _, rfl⟩

/-- 番地の割り当ては、レジスタのほかを変えない。 -/
theorem placeRegs_eq (cardbus : Bool) (regs : List (Nat × Nat)) (cur : Cursor) (dev : Device) :
    ∃ baseReg romBase, placeRegs cardbus regs cur dev = { dev with baseReg, romBase } := by
  induction regs generalizing cur dev with
  | nil => exact ⟨_, _, rfl⟩
  | cons e regs ih =>
      have step : ∀ (cur : Cursor) (r : BaseRegister),
          ∃ baseReg romBase, placeRegs cardbus regs cur (dev.setReg e.2 r) = { dev with baseReg, romBase } := by
        intro cur r
        obtain ⟨baseReg, romBase, h⟩ := dev.setReg_eq e.2 r
        obtain ⟨baseReg', romBase', h'⟩ := ih cur (dev.setReg e.2 r)
        exact ⟨baseReg', romBase', by rw [h', h]⟩
      simp only [placeRegs]
      split
      · split
        · exact step _ _
        · split
          · exact step _ _
          · exact step _ _
      · exact ih _ _

/-! ## 段ごとの枠 -/

theorem takeBlock_admin (p : Platform) (d : Nat) (kind : ResKind) (size align bus : Nat) (ans : Grants) :
    Fixes Call.admin (takeBlock p d kind size align bus ans) := by
  refine .ite .pure ?_
  split
  · exact .throw
  · exact .bind (.modify fun s => Device.admin_setAlloc ..) fun _ => .pure

theorem addupResources_admin (p : Platform) (d : Nat) (flags : BitVec 32) (showPci cardbus next : Bool) (io mem pref : Grants) :
    Fixes Call.admin (addupResources p d flags showPci cardbus next io mem pref) := by
  refine .bind .get fun s₀ => ?_
  refine .bind (takeBlock_admin _ _ _ _ _ _ _) fun ioAddr => ?_
  refine .bind (takeBlock_admin _ _ _ _ _ _ _) fun memAddr => ?_
  refine .bind (takeBlock_admin _ _ _ _ _ _ _) fun prefAddr => ?_
  refine .ite (.modify fun s => ?_) .pure
  obtain ⟨baseReg, romBase, h⟩ := placeRegs_eq cardbus _ _ s.dev
  rw [h]; rfl

section

variable {p : Platform} {req : AttachRequest} {flags : BitVec 32} {showPci quiet next cardbus : Bool} {ans : Answers}

theorem writeBar_core (i : Fin 6) : Fixes Call.core (writeBar p flags showPci ans i) := by
  refine .bind .get fun s₀ => .ite (.bind (.modify fun s => ?_) fun _ => .ite .throw .pure) .pure
  split <;> rfl

theorem writeBars_core (is : List (Fin 6)) : Fixes Call.core (writeBars p flags showPci ans is) := by
  induction is with
  | nil => exact .pure
  | cons i is ih => exact .bind (writeBar_core i) fun _ => ih

theorem writeRom_core : Fixes Call.core (writeRom p flags showPci cardbus ans) :=
  .bind .get fun _ => .ite (.bind (.modify fun _ => rfl) fun _ => .ite .throw .pure) .pure

theorem pciAllocIrq_core : Fixes Call.core (pciAllocIrq ans) := by
  simp only [pciAllocIrq]
  split
  · exact .pure
  · exact .bind (.modify fun _ => rfl) fun _ => .pure

theorem takeIrq_core (behind : Bool) (numIrq : Nat) : Fixes Call.core (takeIrq behind numIrq ans) := by
  refine .bind pciAllocIrq_core fun irq => .bind (.modify fun _ => rfl) fun _ => ?_
  refine .ite (.modify fun s => ?_) (.ite .throw (.modify fun _ => rfl))
  split <;> rfl

theorem chooseIrq_core : Fixes Call.core (chooseIrq cardbus ans) := by
  refine .bind .get fun s₀ => ?_
  split
  · exact .throw
  · exact .ite (.modify fun _ => rfl) (.ite (.modify fun _ => rfl) (.ite (takeIrq_core _ _) .pure))

theorem setupIrq_core : Fixes Call.core (setupIrq flags quiet cardbus ans) := by
  refine .bind .get fun s₀ => .ite (.modify fun _ => rfl) (.bind (.modify fun _ => rfl) fun _ => .ite ?_ .pure)
  exact .bind chooseIrq_core fun _ => .bind (.modify fun _ => rfl) fun _ => .ite .throw .pure

theorem program_core : Fixes Call.core (program p req next cardbus ans) :=
  .bind (writeBars_core _) fun _ => .bind writeRom_core fun _ => setupIrq_core

theorem powerUp_core : Fixes Call.core (powerUp req ans) := .bind .get fun _ => .ite .throw .pure

theorem acquire_admin (d : Nat) : Fixes Call.admin (acquire p d req next cardbus ans) := by
  have ofCore : ∀ {x : CallM Unit}, Fixes Call.core x → Fixes Call.admin x := by
    intro x h s
    exact (h s).mono (fun _ t => Call.admin_of_core) fun _ t => Call.admin_of_core
  refine .bind (.modify fun _ => rfl) fun _ => .bind (ofCore powerUp_core) fun _ => ?_
  exact .bind (addupResources_admin _ _ _ _ _ _ _ _ _) fun _ => ofCore program_core

end

end Imx6Bsp.Pci

namespace Imx6Bsp.Pci

open Imx6Bsp.Lib

/-! ## 接続の段ごとの成否

各段が成功する条件が `Imx6Bsp.Pci.Outcome` の条件そのものであることと、そのときの状態を示す。 -/

/-! ### 区画 -/

theorem Device.setAlloc_alloc (dev : Device) (kind : ResKind) : dev.setAlloc kind (dev.alloc kind) = dev := by
  cases kind <;> rfl

theorem Call.takeIf_of_zero {p : Platform} {d : Nat} {kind : ResKind} {w : Want} {s : Call} (h : w.size = 0) :
    s.takeIf p d kind w = s := by
  simp only [Call.takeIf, Want.record, Want.held, h, if_true, Device.setAlloc_alloc, List.nil_append]

theorem Call.takeIf_of_ok {p : Platform} {d : Nat} {kind : ResKind} {w : Want} {s : Call} {r : Nat × Option Nat}
    (h : w.size ≠ 0) (hr : w.answer p kind = .ok r) : s.takeIf p d kind w = s.take p d kind w.size w.bus r := by
  obtain ⟨address, grant⟩ := r
  cases grant with
  | none => simp [Call.takeIf, Call.take, Want.record, Want.held, h, hr]
  | some start => simp [Call.takeIf, Call.take, Want.record, Want.held, h, hr]

theorem takeBlock_meets (p : Platform) (d : Nat) (kind : ResKind) (w : Want) (s : Call) :
    Meets (takeBlock p d kind w.size w.align w.bus w.ans) s
      (fun a t => ¬w.Refused p kind ∧ a = w.address p kind ∧ t = s.takeIf p d kind w)
      (fun _ t => w.Refused p kind ∧ t = s) := by
  by_cases hz : w.size = 0
  · simp [takeBlock, hz, Want.Refused, Want.address, Call.takeIf_of_zero hz]
  · cases ha : w.answer p kind with
    | error e =>
        have hb : blockAnswer p kind w.size w.align w.bus w.ans = .error e := ha
        simp [takeBlock, hz, hb, Want.Refused, ha, Except.toOption]
    | ok r =>
        have hb : blockAnswer p kind w.size w.align w.bus w.ans = .ok r := ha
        simp only [takeBlock, hz, hb, if_false, meets_bind, meets_modify, meets_pure, Call.takeIf_of_ok hz ha]
        simp [hz, Want.Refused, Want.address, ha, Except.toOption]

section

variable {p : Platform} {req : AttachRequest} {next cardbus : Bool} {ans : Answers}

/-- 三種類の要求を順に出した後の状態。 -/
def Call.takeAll (p : Platform) (d : Nat) (w : ResKind → Want) (s : Call) : Call :=
  ((s.takeIf p d .io (w .io)).takeIf p d .mem (w .mem)).takeIf p d .pref (w .pref)

theorem addupResources_meets (d : Nat) (s : Call) :
    let w := wantOf p req next cardbus ans s.dev
    Meets (addupResources p d req.fullFlags req.showPci cardbus next ans.io ans.mem ans.pref) s
      (fun _ t => (∀ kind, ¬(w kind).Refused p kind) ∧
        t = { s.takeAll p d w with dev := placed p req next cardbus w s.dev (s.takeAll p d w).dev })
      (fun _ t => ((w .io).Refused p .io ∧ t = s) ∨
        (¬(w .io).Refused p .io ∧ (w .mem).Refused p .mem ∧ t = s.takeIf p d .io (w .io)) ∨
        (¬(w .io).Refused p .io ∧ ¬(w .mem).Refused p .mem ∧ (w .pref).Refused p .pref ∧
          t = (s.takeIf p d .io (w .io)).takeIf p d .mem (w .mem))) := by
  intro w
  simp only [addupResources, meets_bind, meets_get]
  refine (takeBlock_meets p d .io (w .io) s).mono ?_ fun _ t h => .inl h
  rintro ioAddr t₁ ⟨hio, rfl, rfl⟩
  refine (takeBlock_meets p d .mem (w .mem) _).mono ?_ fun _ t h => .inr (.inl ⟨hio, h⟩)
  rintro memAddr t₂ ⟨hmem, rfl, rfl⟩
  refine (takeBlock_meets p d .pref (w .pref) _).mono ?_ fun _ t h => .inr (.inr ⟨hio, hmem, h⟩)
  rintro prefAddr t₃ ⟨hpref, rfl, rfl⟩
  have hall : ∀ kind, ¬(w kind).Refused p kind := by
    intro kind
    cases kind with
    | io => exact hio
    | mem => exact hmem
    | pref => exact hpref
  rw [meets_ite]
  refine ⟨fun hc => meets_modify.mpr ⟨hall, ?_⟩, fun hc => meets_pure.mpr ⟨hall, ?_⟩⟩
  · simp only [placed, if_pos hc]; rfl
  · simp only [placed, if_neg hc]; rfl

/-! ### 設定空間 -/

/-- 返事のほかのすべて。 -/
def Call.state (s : Call) : Device × DevList × Db × Nat := (s.dev, s.list, s.db, s.bdevIrq)

theorem Call.eq_of_state {s t : Call} (h : t.state = s.state) : ∃ config, t = { s with config } := by
  cases s; cases t
  simp only [Call.state, Prod.mk.injEq] at h
  obtain ⟨rfl, rfl, rfl, rfl⟩ := h
  exact ⟨_, rfl⟩

theorem writeBar_meets (i : Fin 6) (s : Call) :
    Meets (writeBar p req.fullFlags req.showPci ans i) s
      (fun _ t => (wantsBar req.fullFlags i = true → (s.dev.baseReg i).size ≠ 0 → req.showPci = true ∨ ans.writeBar i = true) ∧
        t.state = s.state)
      (fun _ t => ¬(wantsBar req.fullFlags i = true → (s.dev.baseReg i).size ≠ 0 → req.showPci = true ∨ ans.writeBar i = true) ∧
        t.state = s.state) := by
  have hfill : ∀ s' : Call, (if has (s.dev.baseReg i).flags (pciIoSpace ||| pciMemSpace ||| pciMemPrefetch) then fillBar p s' i
      else s').state = s'.state := by
    intro s'
    split <;> rfl
  simp only [writeBar, meets_bind, meets_get, meets_ite, meets_modify, meets_throw, meets_pure, hfill]
  refine ⟨fun hw => ⟨fun hf => ?_, fun hf => ?_⟩, fun hw => ?_⟩
  · simp [hw, hf]
  · cases hs : req.showPci <;> simp_all
  · simp only [not_and, not_not] at hw
    exact ⟨fun h h' => absurd (hw h) h', trivial⟩

theorem writeBars_meets (is : List (Fin 6)) (s : Call) :
    let ok := ∀ i ∈ is, wantsBar req.fullFlags i = true → (s.dev.baseReg i).size ≠ 0 → req.showPci = true ∨ ans.writeBar i = true
    Meets (writeBars p req.fullFlags req.showPci ans is) s (fun _ t => ok ∧ t.state = s.state) (fun _ t => ¬ok ∧ t.state = s.state) := by
  induction is generalizing s with
  | nil => simp [writeBars]
  | cons i is ih =>
      simp only [writeBars, meets_bind, List.forall_mem_cons]
      refine (writeBar_meets i s).mono ?_ ?_
      · rintro _ t ⟨hi, ht⟩
        have hdev : t.dev = s.dev := congrArg (fun x => x.1) ht
        refine (ih t).mono ?_ ?_
        · rintro _ u ⟨hu, hst⟩
          rw [hdev] at hu
          exact ⟨⟨hi, hu⟩, hst.trans ht⟩
        · rintro _ u ⟨hu, hst⟩
          rw [hdev] at hu
          exact ⟨fun h => hu h.2, hst.trans ht⟩
      · rintro _ t ⟨hi, ht⟩
        exact ⟨fun h => hi h.1, ht⟩

theorem writeRom_meets (s : Call) :
    Meets (writeRom p req.fullFlags req.showPci cardbus ans) s
      (fun _ t => RomWritten req cardbus ans s.dev ∧ t.state = s.state)
      (fun _ t => ¬RomWritten req cardbus ans s.dev ∧ t.state = s.state) := by
  simp only [writeRom, meets_bind, meets_get, meets_ite, meets_modify, meets_throw, meets_pure, RomWritten]
  refine ⟨fun hw => ⟨fun hf => ?_, fun hf => ?_⟩, fun hw => ?_⟩
  · obtain ⟨h₁, h₂, h₃⟩ := hw
    obtain ⟨h₄, h₅⟩ := hf
    refine ⟨fun h => ?_, rfl⟩
    have := h h₁ h₂ h₃
    simp [h₄, h₅] at this
  · refine ⟨fun _ _ _ => ?_, rfl⟩
    cases hs : req.showPci <;> simp_all
  · exact ⟨fun h₁ h₂ h₃ => absurd ⟨h₁, h₂, h₃⟩ hw, trivial⟩

/-! ### 割り込み -/

/-- `pci_alloc_irq()` を呼んだ後に持っている IRQ。 -/
def irqsAfter (ans : Answers) (s : Call) : List Nat := ans.allocIrq.toList ++ s.db.irqs

theorem pciAllocIrq_meets (s : Call) :
    Meets (pciAllocIrq ans) s (fun irq t => irq = ans.allocIrq.getD 0 ∧ t.db.irqs = irqsAfter ans s) (fun _ _ => False) := by
  simp only [pciAllocIrq, irqsAfter]
  cases ans.allocIrq with
  | none => exact meets_pure.mpr ⟨rfl, rfl⟩
  | some irq => exact ⟨rfl, rfl⟩

theorem takeIrq_meets (behind : Bool) (n : Nat) (s : Call) :
    Meets (takeIrq behind n ans) s
      (fun _ t => (ans.allocIrq.getD 0 ≠ 0 ∨ n = 1) ∧ t.db.irqs = irqsAfter ans s)
      (fun _ t => ¬(ans.allocIrq.getD 0 ≠ 0 ∨ n = 1) ∧ t.db.irqs = irqsAfter ans s) := by
  simp only [takeIrq, meets_bind]
  refine (pciAllocIrq_meets s).mono ?_ fun _ _ h => h.elim
  rintro irq t ⟨hirq, ht⟩
  simp only [meets_modify, meets_ite, meets_throw]
  refine ⟨fun h => ⟨.inl (hirq ▸ h), ?_⟩, fun h => ⟨fun hn => ⟨?_, ht⟩, fun hn => ⟨.inr (not_not.mp hn), ht⟩⟩⟩
  · split
    · exact ht
    · exact ht
  · rintro (h' | h')
    · exact h (hirq ▸ h')
    · exact hn h'

theorem chooseIrq_meets (s : Call) :
    let ok := ans.availIrq ≠ none ∧ (IrqTaken cardbus ans s → ans.allocIrq.getD 0 ≠ 0 ∨ ans.availIrq = some 1)
    let irqs := fun t : Call => (IrqTaken cardbus ans s → t.db.irqs = irqsAfter ans s) ∧ (¬IrqTaken cardbus ans s → t.db.irqs = s.db.irqs)
    Meets (chooseIrq cardbus ans) s (fun _ t => ok ∧ irqs t) (fun _ t => ¬ok ∧ irqs t) := by
  intro ok irqs
  simp only [chooseIrq, meets_bind, meets_get]
  cases ha : ans.availIrq with
  | none =>
      have hno : ¬IrqTaken cardbus ans s := fun h => h.1.1 ha
      refine meets_throw.mpr ⟨fun h => h.1 ha, fun h => absurd h hno, fun _ => rfl⟩
  | some n =>
      have hne : ans.availIrq ≠ none := by rw [ha]; exact Option.some_ne_none n
      have skip : ∀ {g : Call → Call}, ¬IrqTaken cardbus ans s → (∀ t, (g t).db.irqs = t.db.irqs) → ok ∧ irqs (g s) :=
        fun hno hg => ⟨⟨hne, fun h => absurd h hno⟩, fun h => absurd h hno, fun _ => hg s⟩
      simp only [meets_ite, meets_modify, meets_pure]
      refine ⟨fun hs => skip ?_ fun _ => rfl, fun hs => ⟨fun hb => skip ?_ fun _ => rfl, fun hb => ⟨fun hn => ?_, fun hn => ?_⟩⟩⟩
      · exact fun h => Bool.false_ne_true (h.2.1.symm.trans hs)
      · exact fun h => h.2.2 hb
      · have hn' : ans.availIrq ≠ some 0 := by rw [ha]; exact fun h => hn (Option.some.inj h)
        have htaken : IrqTaken cardbus ans s := ⟨⟨hne, hn'⟩, by simpa using hs, hb⟩
        refine (takeIrq_meets _ n s).mono ?_ ?_
        · rintro _ t ⟨h, ht⟩
          refine ⟨⟨hne, fun _ => h.imp_right fun h => ?_⟩, fun _ => ht, fun h => absurd htaken h⟩
          rw [ha, h]
        · rintro _ t ⟨h, ht⟩
          refine ⟨fun hok => h ((hok.2 htaken).imp_right fun h' => ?_), fun _ => ht, fun h => absurd htaken h⟩
          rw [ha] at h'; exact Option.some.inj h'
      · have hno : ¬IrqTaken cardbus ans s := by
          rintro ⟨⟨_, hm⟩, _⟩
          exact hm (by rw [ha, not_not.mp hn])
        exact skip (g := id) hno fun _ => rfl

theorem setupIrq_meets (s : Call) :
    let ok := IrqAsked req next ans s.dev → IrqSettled cardbus ans s
    let irqs := fun t : Call =>
      (IrqReached req next cardbus ans s → t.db.irqs = irqsAfter ans s) ∧ (¬IrqReached req next cardbus ans s → t.db.irqs = s.db.irqs)
    Meets (setupIrq req.fullFlags (req.showPci || next) cardbus ans) s (fun _ t => ok ∧ irqs t) (fun _ t => ¬ok ∧ irqs t) := by
  intro ok irqs
  have skip : ∀ {g : Call → Call}, ¬IrqAsked req next ans s.dev → (∀ t, (g t).db.irqs = t.db.irqs) → ok ∧ irqs (g s) :=
    fun hno hg => ⟨fun h => absurd h hno, fun h => absurd h.1 hno, fun _ => hg s⟩
  simp only [setupIrq, meets_bind, meets_get, meets_ite, meets_modify, meets_pure, meets_throw]
  refine ⟨fun hq => skip ?_ fun _ => rfl, fun hq => ⟨fun ha => ?_, fun ha => skip ?_ fun _ => rfl⟩⟩
  · exact fun h => Bool.false_ne_true (h.1.symm.trans hq)
  · have hasked : IrqAsked req next ans s.dev := ⟨by simpa using hq, ha⟩
    refine (chooseIrq_meets (s.setConfigIrq 0xff)).mono ?_ ?_
    · rintro _ t ⟨⟨hok, hok'⟩, hirqs, hirqs'⟩
      have hi : irqs (t.setConfigIrq t.dev.irqNumber) := ⟨fun h => hirqs h.2, fun h => hirqs' fun h' => h ⟨hasked, h'⟩⟩
      refine ⟨fun hw => ⟨fun h => ?_, hi⟩, fun hw => ⟨fun _ => ⟨hok, hok', by simpa using hw⟩, hi⟩⟩
      exact Bool.false_ne_true (hw.symm.trans (h hasked).2.2)
    · rintro _ t ⟨hok, hirqs, hirqs'⟩
      exact ⟨fun h => hok ⟨(h hasked).1, (h hasked).2.1⟩, fun h => hirqs h.2, fun h => hirqs' fun h' => h ⟨hasked, h'⟩⟩
  · exact fun h => ha ⟨h.2.1, h.2.2⟩

/-- 番地と割り込みを書く段の成否と、その後に持っている IRQ。 -/
theorem program_meets (s : Call) :
    let reached := BarsWritten req cardbus ans s.dev ∧ RomWritten req cardbus ans s.dev ∧ IrqReached req next cardbus ans s
    let irqs := fun t : Call => (reached → t.db.irqs = irqsAfter ans s) ∧ (¬reached → t.db.irqs = s.db.irqs)
    Meets (program p req next cardbus ans) s
      (fun _ t => Programs req next cardbus ans s ∧ irqs t) (fun _ t => ¬Programs req next cardbus ans s ∧ irqs t) := by
  intro reached irqs
  simp only [program, meets_bind]
  refine (writeBars_meets _ s).mono ?_ ?_
  · rintro _ t ⟨hbars, ht⟩
    obtain ⟨config, rfl⟩ := Call.eq_of_state ht
    refine (writeRom_meets _).mono ?_ ?_
    · rintro _ u ⟨hrom, hu⟩
      obtain ⟨config', rfl⟩ := Call.eq_of_state hu
      refine (setupIrq_meets _).mono ?_ ?_
      · rintro _ v ⟨hok, h, h'⟩
        exact ⟨⟨hbars, hrom, hok⟩, fun hr => h hr.2.2, fun hr => h' fun h'' => hr ⟨hbars, hrom, h''⟩⟩
      · rintro _ v ⟨hok, h, h'⟩
        exact ⟨fun hp => hok hp.2.2, fun hr => h hr.2.2, fun hr => h' fun h'' => hr ⟨hbars, hrom, h''⟩⟩
    · rintro _ u ⟨hrom, hu⟩
      obtain ⟨config', rfl⟩ := Call.eq_of_state hu
      exact ⟨fun hp => hrom hp.2.1, fun hr => absurd hr.2.1 hrom, fun _ => rfl⟩
  · rintro _ t ⟨hbars, ht⟩
    obtain ⟨config, rfl⟩ := Call.eq_of_state ht
    exact ⟨fun hp => hbars hp.1, fun hr => absurd hr.1 hbars, fun _ => rfl⟩

end

end Imx6Bsp.Pci

namespace Imx6Bsp.Pci

open Imx6Bsp.Lib

/-! ## 接続の呼び出し全体の成否

段の成否を合わせ、外の答えを使うところの全体が、必要な答えがそろうときに限って成功することと、失敗した場所ごとに何が残るかを示す。 -/

theorem has_or (f g b : BitVec 32) : has (f ||| g) b = (has f b || has g b) := by
  have h : (f ||| g) &&& b = 0#32 ↔ f &&& b = 0#32 ∧ g &&& b = 0#32 := by
    rw [BitVec.and_or_distrib_right, BitVec.or_eq_zero_iff]
  rw [Bool.eq_iff_iff]
  simp only [has, Bool.or_eq_true, bne_iff_ne, ne_eq, BitVec.ofNat_eq_ofNat, h]
  tauto

/-! ### 割り当ての前後で同じもの -/

/-- 成否の条件が見る、装置の欄。 -/
def Device.shape (dev : Device) : (Fin 6 → Nat) × Bool × Nat × Nat × BusMap :=
  (fun i => (dev.baseReg i).size, has dev.romBase.flags pciRomSpace, dev.intPin, dev.devFuncNumber, dev.bmap)

theorem Device.shape_setReg (dev : Device) (i : Nat) (address : Nat) (cardbus : Bool) :
    (dev.setReg i { dev.reg i with
      address, flags := if cardbus then (dev.reg i).flags ||| pciDeviceEnabled else (dev.reg i).flags }).shape = dev.shape := by
  by_cases hi : i < 6
  · simp only [Device.setReg, Device.reg, hi, dif_pos, Device.shape, Prod.mk.injEq, and_true]
    funext j
    by_cases hj : j = ⟨i, hi⟩
    · subst hj; simp
    · simp [Function.update_of_ne hj]
  · have hbit : has pciDeviceEnabled pciRomSpace = false := by decide
    simp only [Device.setReg, Device.reg, hi, dif_neg, not_false_eq_true, Device.shape]
    cases cardbus <;> simp [has_or, hbit]

theorem placeRegs_shape (cardbus : Bool) (regs : List (Nat × Nat)) (cur : Cursor) (dev : Device) :
    (placeRegs cardbus regs cur dev).shape = dev.shape := by
  induction regs generalizing cur dev with
  | nil => rfl
  | cons e regs ih =>
      simp only [placeRegs]
      split
      · split
        · rw [ih, Device.shape_setReg]
        · split
          · rw [ih, Device.shape_setReg]
          · rw [ih, Device.shape_setReg]
      · exact ih _ _

theorem takeIf_shape (p : Platform) (d : Nat) (kind : ResKind) (w : Want) (s : Call) :
    (s.takeIf p d kind w).dev.shape = s.dev.shape := by
  cases kind <;> rfl

/-! ### 外の答えを使うところ -/

section

variable {p : Platform} {req : AttachRequest} {next cardbus : Bool} {ans : Answers}

/-- 区画を取り、番地を割り当てた状態。 -/
def Call.settled (p : Platform) (d : Nat) (req : AttachRequest) (next cardbus : Bool) (w : ResKind → Want) (s : Call) : Call :=
  { s.takeAll p d w with dev := placed p req next cardbus w s.dev (s.takeAll p d w).dev }

variable (p req next cardbus) in
theorem settled_shape (d : Nat) (w : ResKind → Want) (s : Call) :
    (s.settled p d req next cardbus w).dev.shape = s.dev.shape ∧ (s.settled p d req next cardbus w).bdevIrq = s.bdevIrq ∧
      (s.settled p d req next cardbus w).db.irqs = s.db.irqs := by
  have hplaced : ∀ dev dev', (placed p req next cardbus w dev dev').shape = dev'.shape := by
    intro dev dev'
    simp only [placed]
    split
    · exact placeRegs_shape ..
    · rfl
  refine ⟨?_, rfl, rfl⟩
  exact (hplaced _ _).trans ((takeIf_shape ..).trans ((takeIf_shape ..).trans (takeIf_shape ..)))

variable (req next cardbus ans) in
/-- 成否の条件は、装置の `shape` と `bdevIrq` だけで決まる。 -/
theorem programs_congr {s t : Call} (hd : t.dev.shape = s.dev.shape) (hb : t.bdevIrq = s.bdevIrq) :
    (BarsWritten req cardbus ans t.dev ↔ BarsWritten req cardbus ans s.dev) ∧
      (RomWritten req cardbus ans t.dev ↔ RomWritten req cardbus ans s.dev) ∧
      (IrqReached req next cardbus ans t ↔ IrqReached req next cardbus ans s) ∧
      (Programs req next cardbus ans t ↔ Programs req next cardbus ans s) := by
  simp only [Device.shape, Prod.mk.injEq] at hd
  obtain ⟨hsize, hrom, hpin, hfn, hmap⟩ := hd
  have hsize' : ∀ i, (t.dev.baseReg i).size = (s.dev.baseReg i).size := fun i => congrFun hsize i
  have hbars : BarsWritten req cardbus ans t.dev ↔ BarsWritten req cardbus ans s.dev := by simp only [BarsWritten, hsize']
  have hromw : RomWritten req cardbus ans t.dev ↔ RomWritten req cardbus ans s.dev := by simp only [RomWritten, hrom]
  have hasked : IrqAsked req next ans t.dev ↔ IrqAsked req next ans s.dev := by simp only [IrqAsked, hpin]
  have htaken : IrqTaken cardbus ans t ↔ IrqTaken cardbus ans s := by
    simp only [IrqTaken, sharesPin, behindCardbus, hpin, hfn, hmap, hb]
  refine ⟨hbars, hromw, and_congr hasked htaken, ?_⟩
  simp only [Programs, IrqSettled, hbars, hromw, hasked, htaken]

theorem powerUp_meets (s : Call) :
    Meets (powerUp req ans) s (fun _ t => Powered req ans s.dev ∧ t = s) (fun _ t => ¬Powered req ans s.dev ∧ t = s) := by
  simp only [powerUp, meets_bind, meets_get, meets_ite, meets_throw, meets_pure, Powered]
  refine ⟨fun h => ⟨?_, trivial⟩, fun h => ⟨?_, trivial⟩⟩
  · obtain ⟨h₁, h₂, h₃⟩ := h
    simp [h₁, h₂, h₃]
  · cases h₁ : req.showPci <;> cases h₃ : ans.powerUp <;> simp_all

/-- 失敗した場所ごとに残るもの。 -/
inductive Leftover (p : Platform) (d : Nat) (req : AttachRequest) (next cardbus : Bool) (ans : Answers) (w : ResKind → Want) (s t : Call) : Prop
  | power (h : ¬Powered req ans s.dev) (ht : t = s)
  | io (hpow : Powered req ans s.dev) (h : (w .io).Refused p .io) (ht : t = s)
  | mem (hpow : Powered req ans s.dev) (hio : ¬(w .io).Refused p .io) (h : (w .mem).Refused p .mem) (ht : t = s.takeIf p d .io (w .io))
  | pref (hpow : Powered req ans s.dev) (hio : ¬(w .io).Refused p .io) (hmem : ¬(w .mem).Refused p .mem) (h : (w .pref).Refused p .pref)
      (ht : t = (s.takeIf p d .io (w .io)).takeIf p d .mem (w .mem))
  | program (hpow : Powered req ans s.dev) (hw : ∀ kind, ¬(w kind).Refused p kind) (h : ¬Programs req next cardbus ans s)
      (ht : t.core = (s.settled p d req next cardbus w).core)
      (hirq : IrqStage req next cardbus ans s → t.db.irqs = irqsAfter ans s)
      (hirq' : ¬IrqStage req next cardbus ans s → t.db.irqs = s.db.irqs)

theorem acquire_meets (d : Nat) (s₀ : Call) :
    let s := fillConfig ans s₀
    let w := wantOf p req next cardbus ans s.dev
    Meets (acquire p d req next cardbus ans) s₀
      (fun _ t => Answered p req next cardbus ans s ∧ t.core = (s.settled p d req next cardbus w).core)
      (fun _ t => ¬Answered p req next cardbus ans s ∧ Leftover p d req next cardbus ans w s t) := by
  intro s w
  simp only [acquire, meets_bind, meets_modify]
  refine (powerUp_meets s).mono ?_ fun _ t h => ⟨fun ha => h.1 ha.1, .power h.1 h.2⟩
  rintro _ t ⟨hpow, rfl⟩
  refine (addupResources_meets d s).mono ?_ ?_
  · rintro _ t ⟨hw, ht⟩
    obtain ⟨hshape, hbdev, hirqs⟩ := settled_shape p req next cardbus d w s
    obtain rfl : t = s.settled p d req next cardbus w := ht
    obtain ⟨hbars, hrom, hreach, hprog⟩ := programs_congr req next cardbus ans hshape hbdev
    refine ((program_meets _).and (program_core _)).mono ?_ ?_
    · rintro _ u ⟨⟨hok, _⟩, hu⟩
      exact ⟨⟨hpow, hw, hprog.mp hok⟩, hu⟩
    · rintro _ u ⟨⟨hok, h, h'⟩, hu⟩
      refine ⟨fun ha => hok (hprog.mpr ha.2.2), .program hpow hw (fun hp => hok (hprog.mpr hp)) hu ?_ ?_⟩
      · intro hs
        rw [h ⟨hbars.mpr hs.1, hrom.mpr hs.2.1, hreach.mpr hs.2.2⟩]
        exact congrArg (ans.allocIrq.toList ++ ·) hirqs
      · intro hs
        exact (h' fun hr => hs ⟨hbars.mp hr.1, hrom.mp hr.2.1, hreach.mp hr.2.2⟩).trans hirqs
  · rintro _ t (⟨h, ht⟩ | ⟨hio, h, ht⟩ | ⟨hio, hmem, h, ht⟩)
    · exact ⟨fun ha => ha.2.1 _ h, .io hpow h ht⟩
    · exact ⟨fun ha => ha.2.1 _ h, .mem hpow hio h ht⟩
    · exact ⟨fun ha => ha.2.1 _ h, .pref hpow hio hmem h ht⟩

end

end Imx6Bsp.Pci
