import Imx6Bsp.Pci.Lemmas.Attach

/-!
# 失敗した接続が残すもの

`PCI_attach_device()` が `NULL` を返すとき、装置、接続、資源が元のままであるための必要十分条件を示す。
-/

namespace Imx6Bsp.Pci

open Imx6Bsp.Lib

/-! ## 呼び出しの状態 -/

/-- 失敗の後に比べるもの。 -/
def Call.exposed (s : Call) : Exposed × DevList × Db := (s.dev.exposed, s.list, s.db)

theorem Want.traceless_iff (w : Want) (p : Platform) (d : Nat) (kind : ResKind) (dev : Device) :
    w.Traceless p kind dev ↔
      ¬w.Refused p kind ∧ w.record p kind (dev.alloc kind) = dev.alloc kind ∧ w.held p d kind = [] := by
  by_cases hz : w.size = 0
  · simp [Want.Traceless, Want.Refused, Want.record, Want.held, hz]
  · cases ha : w.answer p kind with
    | error e => simp [Want.Traceless, Want.Refused, hz, ha, Except.toOption]
    | ok r =>
        obtain ⟨address, grant⟩ := r
        cases grant with
        | none => simp [Want.Traceless, Want.Refused, Want.record, Want.held, hz, ha, Except.toOption, eq_comm]
        | some start => simp [Want.Traceless, Want.Refused, Want.record, Want.held, hz, ha]

theorem Device.exposed_setAlloc (dev : Device) (kind : ResKind) (r : BaseRegister) :
    (dev.setAlloc kind r).exposed = dev.exposed ↔ r = dev.alloc kind := by
  cases kind <;> simp [Device.setAlloc, Device.exposed, Device.alloc]

theorem Call.takeIf_exposed (p : Platform) (d : Nat) (kind : ResKind) (w : Want) (s : Call) (hw : ¬w.Refused p kind) :
    (s.takeIf p d kind w).exposed = s.exposed ↔ w.Traceless p kind s.dev := by
  rw [w.traceless_iff p d]
  simp only [Call.exposed, Call.takeIf, Prod.mk.injEq, Device.exposed_setAlloc, true_and, hw, not_false_eq_true]
  refine and_congr_right fun _ => ⟨fun h => ?_, fun h => by rw [h]; rfl⟩
  have hb : w.held p d kind ++ s.db.blocks = s.db.blocks := congrArg Db.blocks h
  exact List.append_left_eq_self.mp hb

/-- 二種類目の要求は、一種類目の跡を消さない。 -/
theorem Call.exposed_takeIf_takeIf {p : Platform} {d : Nat} {kind kind' : ResKind} {w w' : Want} {s : Call} (hne : kind ≠ kind')
    (h : ((s.takeIf p d kind w).takeIf p d kind' w').exposed = s.exposed) : (s.takeIf p d kind w).exposed = s.exposed := by
  simp only [Call.exposed, Call.takeIf, Prod.mk.injEq, true_and] at h ⊢
  obtain ⟨hdev, hdb⟩ := h
  constructor
  · cases kind <;> cases kind' <;>
      first | exact absurd rfl hne | simp_all [Device.setAlloc, Device.exposed, Device.alloc]
  · have hb : w'.held p d kind' ++ (w.held p d kind ++ s.db.blocks) = s.db.blocks := congrArg Db.blocks hdb
    rw [← List.append_assoc] at hb
    have := (List.append_eq_nil_iff.mp (List.append_left_eq_self.mp hb)).2
    rw [this]; rfl

section

variable {p : Platform} {d : Nat} {req : AttachRequest} {next cardbus : Bool} {ans : Answers} {w : ResKind → Want} {s t : Call}

/-- 跡を残さない要求は状態を変えない。 -/
theorem Call.takeIf_eq_self {kind : ResKind} {w : Want} (h : w.Traceless p kind s.dev) : s.takeIf p d kind w = s := by
  obtain ⟨_, hr, hh⟩ := (w.traceless_iff p d kind s.dev).mp h
  simp only [Call.takeIf, hr, hh, Device.setAlloc_alloc, List.nil_append]

/-- 二種類の要求の後の比べるもの。 -/
theorem Call.takeIf_takeIf_exposed {kind kind' : ResKind} {w w' : Want} (hne : kind ≠ kind') (hw : ¬w.Refused p kind)
    (hw' : ¬w'.Refused p kind') :
    ((s.takeIf p d kind w).takeIf p d kind' w').exposed = s.exposed ↔ w.Traceless p kind s.dev ∧ w'.Traceless p kind' s.dev := by
  constructor
  · intro h
    have ht := (s.takeIf_exposed p d kind w hw).mp (Call.exposed_takeIf_takeIf hne h)
    rw [Call.takeIf_eq_self ht] at h
    exact ⟨ht, (s.takeIf_exposed p d kind' w' hw').mp h⟩
  · rintro ⟨ht, ht'⟩
    rw [Call.takeIf_eq_self ht, Call.takeIf_eq_self ht']

/-- 番地の割り当ては記録を変えない。 -/
theorem exposed_placed {dev dev' : Device} (h : (placed p req next cardbus w dev dev').exposed = dev.exposed) :
    dev'.ioAlloc = dev.ioAlloc ∧ dev'.memAlloc = dev.memAlloc ∧ dev'.prefAlloc = dev.prefAlloc := by
  have hex : ∃ baseReg romBase, placed p req next cardbus w dev dev' = { dev' with baseReg, romBase } := by
    simp only [placed]
    split
    · exact placeRegs_eq ..
    · exact ⟨_, _, rfl⟩
  obtain ⟨baseReg, romBase, he⟩ := hex
  rw [he] at h
  simp only [Device.exposed, Exposed.mk.injEq] at h
  exact h.2.2.2.2.2

theorem settled_exposed (hw : ∀ kind, ¬(w kind).Refused p kind) (hcore : t.core = (s.settled p d req next cardbus w).core) :
    (t.exposed = s.exposed ↔
      (∀ kind, (w kind).Traceless p kind s.dev) ∧ PlacesNothing p req next cardbus w s.dev ∧ t.db.irqs = s.db.irqs) := by
  have hlist : t.list = s.list := congrArg (fun x => x.2.1) hcore
  have hblocks : t.db.blocks = (w .pref).held p d .pref ++ ((w .mem).held p d .mem ++ ((w .io).held p d .io ++ s.db.blocks)) :=
    congrArg (fun x => x.2.2) hcore
  have hdev : t.dev.exposed = (placed p req next cardbus w s.dev (s.takeAll p d w).dev).exposed :=
    congrArg (fun x => x.1.exposed) hcore
  have hall : (∀ kind, (w kind).Traceless p kind s.dev) → s.takeAll p d w = s := by
    intro h
    simp only [Call.takeAll, Call.takeIf_eq_self (h _)]
  constructor
  · intro h
    simp only [Call.exposed, Prod.mk.injEq] at h
    obtain ⟨hd, -, hdb⟩ := h
    rw [hdb, eq_comm, ← List.append_assoc, ← List.append_assoc, List.append_left_eq_self, List.append_eq_nil_iff,
      List.append_eq_nil_iff] at hblocks
    obtain ⟨⟨hpref, hmem⟩, hio⟩ := hblocks
    obtain ⟨hio', hmem', hpref'⟩ := exposed_placed (hdev.symm.trans hd)
    have ht : ∀ kind, (w kind).Traceless p kind s.dev := by
      intro kind
      refine ((w kind).traceless_iff p d kind s.dev).mpr ⟨hw kind, ?_⟩
      cases kind with
      | io => exact ⟨hio', hio⟩
      | mem => exact ⟨hmem', hmem⟩
      | pref => exact ⟨hpref', hpref⟩
    rw [hall ht] at hdev
    exact ⟨ht, hdev.symm.trans hd, by rw [hdb]⟩
  · rintro ⟨ht, hplace, hirqs⟩
    rw [hall ht] at hdev
    have hheld : ∀ kind, (w kind).held p d kind = [] := fun kind => (((w kind).traceless_iff p d kind s.dev).mp (ht kind)).2.2
    simp only [hheld, List.nil_append] at hblocks
    have hdb : t.db = s.db := by
      cases ht : t.db; cases hs : s.db
      simp_all
    simp only [Call.exposed, hdev.trans hplace, hlist, hdb]

theorem not_refused_of_traceless {kind : ResKind} {w : Want} {dev : Device} (h : w.Traceless p kind dev) : ¬w.Refused p kind :=
  ((w.traceless_iff p 0 kind dev).mp h).1

theorem irqsAfter_eq_self : irqsAfter ans s = s.db.irqs ↔ ans.allocIrq = none := by
  cases h : ans.allocIrq <;> simp [irqsAfter, h]

/-- 失敗した場所のそれぞれで、何も残らないのは条件を満たすときに限る。 -/
theorem Leftover.exposed_iff (h : Leftover p d req next cardbus ans (wantOf p req next cardbus ans s.dev) s t) :
    t.exposed = s.exposed ↔ LeavesNothing p req next cardbus ans s := by
  set w := wantOf p req next cardbus ans s.dev with hw
  simp only [LeavesNothing, ← hw]
  cases h with
  | power hpow ht => exact iff_of_true (ht ▸ rfl) (.inl hpow)
  | io hpow hio ht => exact iff_of_true (ht ▸ rfl) (.inr (.inl hio))
  | mem hpow hio hmem ht =>
      rw [ht, Call.takeIf_exposed _ _ _ _ _ hio]
      constructor
      · exact fun h => .inr (.inr (.inl ⟨h, hmem⟩))
      · rintro (h | h | h | h | h)
        · exact absurd hpow h
        · exact absurd h hio
        · exact h.1
        · exact h.1
        · exact h.1 .io
  | pref hpow hio hmem hpref ht =>
      rw [ht, Call.takeIf_takeIf_exposed (by decide) hio hmem]
      constructor
      · exact fun h => .inr (.inr (.inr (.inl ⟨h.1, h.2, hpref⟩)))
      · rintro (h | h | h | h | h)
        · exact absurd hpow h
        · exact absurd h hio
        · exact absurd h.2 hmem
        · exact ⟨h.1, h.2.1⟩
        · exact ⟨h.1 .io, h.1 .mem⟩
  | program hpow hall hprog hcore hirq hirq' =>
      rw [settled_exposed hall hcore]
      have hirqs : t.db.irqs = s.db.irqs ↔ (IrqStage req next cardbus ans s → ans.allocIrq = none) := by
        by_cases hs : IrqStage req next cardbus ans s
        · rw [hirq hs, irqsAfter_eq_self]
          exact ⟨fun h _ => h, fun h => h hs⟩
        · exact iff_of_true (hirq' hs) fun h => absurd h hs
      rw [hirqs]
      constructor
      · exact fun h => .inr (.inr (.inr (.inr h)))
      · rintro (h | h | h | h | h)
        · exact absurd hpow h
        · exact absurd h (hall _)
        · exact absurd h.2 (hall _)
        · exact absurd h.2.2 (hall _)
        · exact h

end

/-! ## 割り込みの番号によらないこと -/

theorem Device.setReg_irq (dev : Device) (n i : Nat) (r : BaseRegister) :
    ({ dev with irqNumber := n } : Device).setReg i r = { dev.setReg i r with irqNumber := n } := by
  simp only [Device.setReg]
  split <;> rfl

theorem placeRegs_irq (cardbus : Bool) (regs : List (Nat × Nat)) (cur : Cursor) (dev : Device) (n : Nat) :
    placeRegs cardbus regs cur { dev with irqNumber := n } = { placeRegs cardbus regs cur dev with irqNumber := n } := by
  induction regs generalizing cur dev with
  | nil => rfl
  | cons e regs ih =>
      have hreg : ({ dev with irqNumber := n } : Device).reg e.2 = dev.reg e.2 := rfl
      simp only [placeRegs, hreg, Device.setReg_irq, ih]
      split
      · split
        · rfl
        · split <;> rfl
      · rfl

theorem placed_irq (p : Platform) (req : AttachRequest) (next cardbus : Bool) (w : ResKind → Want) (dev : Device) (n : Nat) :
    placed p req next cardbus w { dev with irqNumber := n } { dev with irqNumber := n } =
      { placed p req next cardbus w dev dev with irqNumber := n } := by
  have hsizes : sizesOf req.fullFlags (req.showPci || next) cardbus { dev with irqNumber := n } =
      sizesOf req.fullFlags (req.showPci || next) cardbus dev := rfl
  simp only [placed, hsizes, placeRegs_irq]
  split <;> rfl

theorem leavesNothing_fillConfig (p : Platform) (req : AttachRequest) (next cardbus : Bool) (ans : Answers) (s : Call) :
    LeavesNothing p req next cardbus ans (fillConfig ans s) ↔ LeavesNothing p req next cardbus ans s := by
  have hplace : ∀ w, PlacesNothing p req next cardbus w (fillConfig ans s).dev ↔ PlacesNothing p req next cardbus w s.dev := by
    intro w
    have hdev : (fillConfig ans s).dev = { s.dev with irqNumber := ans.intline } := rfl
    simp only [PlacesNothing, hdev, placed_irq]
    rfl
  exact or_congr Iff.rfl (or_congr Iff.rfl (or_congr Iff.rfl (or_congr Iff.rfl (and_congr Iff.rfl (and_congr (hplace _) Iff.rfl)))))

/-! ## 接続の呼び出し -/

theorem attachCall_error {p : Platform} {d : Nat} {way : Way} {req : AttachRequest} {ans : Answers} {s t : Call} {e : Errno}
    (h : attachCall p d way req ans s = .error e t) :
    t.exposed = s.exposed ↔
      way ≠ .again ∧ (req.mgr = true → s.dev.mgrAttach = true) ∧
        LeavesNothing p req (way.next s.dev) (s.dev.classCode = pciCardbus) ans s := by
  have hmeets : Meets (attachCall p d way req ans) s (fun _ _ => True) fun _ t =>
      t.admin = (beginAttach way req s).admin ∧
        Leftover p d req (way.next s.dev) (s.dev.classCode = pciCardbus) ans
          (wantOf p req (way.next s.dev) (s.dev.classCode = pciCardbus) ans (fillConfig ans (beginAttach way req s)).dev)
          (fillConfig ans (beginAttach way req s)) t := by
    simp only [attachCall, meets_bind, meets_get, meets_modify]
    refine ((acquire_admin d _).and (acquire_meets d _)).mono ?_ fun _ t h => ⟨h.1, h.2.2⟩
    exact fun _ _ _ => trivial
  obtain ⟨hadmin, hleft⟩ := hmeets.of_error h
  by_cases hagain : way = .again
  · have hlist : t.list.lockflg = s.list.lockflg + 1 := by
      have := congrArg (fun a => a.list.lockflg) hadmin
      simpa [Call.admin, beginAttach, hagain, Call.lock] using this
    refine iff_of_false (fun he => ?_) fun hc => hc.1 hagain
    have : t.list = s.list := congrArg (fun x => x.2.1) he
    rw [this] at hlist
    omega
  · by_cases hmgr : req.mgr = true → s.dev.mgrAttach = true
    · have hbegin : beginAttach way req s = s := by
        have hor : (s.dev.mgrAttach || req.mgr) = s.dev.mgrAttach := by
          cases hm : req.mgr
          · simp
          · simp [hmgr hm]
        simp only [beginAttach, hagain, if_false, hor]
      rw [hbegin] at hleft
      have hexp : t.exposed = s.exposed ↔ t.exposed = (fillConfig ans s).exposed := Iff.rfl
      rw [hexp, hleft.exposed_iff, leavesNothing_fillConfig]
      exact ⟨fun h => ⟨hagain, hmgr, h⟩, fun h => h.2.2⟩
    · refine iff_of_false (fun he => hmgr fun hm => ?_) fun hc => hmgr hc.2.1
      have hmgr' : t.dev.mgrAttach = (s.dev.mgrAttach || req.mgr) := by
        have := congrArg Admin.mgrAttach hadmin
        simpa [Call.admin, beginAttach, hagain] using this
      have : t.dev.mgrAttach = s.dev.mgrAttach := congrArg (fun x => x.1.mgrAttach) he
      rw [hm, Bool.or_true] at hmgr'
      exact this.symm.trans hmgr'

/-! ## サーバ -/

private theorem list_set_eq_self {α : Type*} {l : List α} {i : Nat} {a b : α} (h : l[i]? = some a) : l.set i b = l ↔ b = a := by
  have hi : i < l.length := (List.getElem?_eq_some_iff.mp h).1
  constructor
  · intro he
    have : (l.set i b)[i]? = some b := by simp [hi]
    rw [he, h] at this
    exact (Option.some.inj this).symm
  · rintro rfl
    obtain ⟨_, rfl⟩ := List.getElem?_eq_some_iff.mp h
    exact List.set_getElem_self hi

theorem Server.store_unaffected {s : Server} {d c : Nat} {dev : Device} {list : DevList} {config : PciDevInfo} {last : Option LastDevice}
    {r : Call} (hd : s.devices[d]? = some dev) (hc : s.clients[c]? = some (some list)) :
    Unaffected s (Server.store { s with last } d c r) ↔ r.exposed = (s.call dev list config).exposed := by
  have hmap : (((s.devices.modify r.dev.bmap.bdev fun b => { b with irqNumber := r.bdevIrq }).set d r.dev).map Device.exposed) =
      (s.devices.map Device.exposed).set d r.dev.exposed := by
    rw [List.map_set]
    congr 1
    refine List.ext_getElem? fun i => ?_
    simp only [List.getElem?_map, List.getElem?_modify]
    cases s.devices[i]? with
    | none => rfl
    | some b =>
        simp only [Option.map_eq_map, Option.map_some]
        split <;> rfl
  have hd' : (s.devices.map Device.exposed)[d]? = some dev.exposed := by simp [hd]
  have hdevs : (s.devices.map Device.exposed).set d r.dev.exposed = s.devices.map Device.exposed ↔ r.dev.exposed = dev.exposed :=
    list_set_eq_self hd'
  have hclients : s.clients.set c (some r.list) = s.clients ↔ r.list = list :=
    (list_set_eq_self hc).trans Option.some_inj
  simp only [Call.exposed, Server.call, Prod.mk.injEq]
  constructor
  · rintro ⟨h₁, h₂, h₃⟩
    exact ⟨hdevs.mp (hmap.symm.trans h₁), hclients.mp h₂, h₃⟩
  · rintro ⟨h₁, h₂, h₃⟩
    exact ⟨hmap.trans (hdevs.mpr h₁), hclients.mpr h₂, h₃⟩

/-- `PCI_attach_device()` が `NULL` を返すとき、装置の `LockFlg`、`MgrAttach`、`AttachFlags`、番地、記録と接続の記録が元のままで、渡された
区画も IRQ も残らないのは、`CleanFailure` のときに限る。 -/
theorem failed_attach_unaffected_iff (p : Platform) (s t : Server) (c : Nat) (list : DevList) (req : AttachRequest) (ans : Answers)
    (e : Errno) (hc : s.clients[c]? = some (some list)) (h : pciAttachDevice p s c list req ans = (t, .error e)) :
    Unaffected s t ↔ CleanFailure p s list req ans := by
  have same : Unaffected s s := ⟨rfl, rfl, rfl⟩
  simp only [pciAttachDevice] at h
  cases hl : lookup p s.devices req with
  | error e' =>
      simp only [hl, Prod.mk.injEq] at h
      obtain ⟨rfl, -⟩ := h
      refine iff_of_true same fun d way dev hl' => ?_
      rw [hl] at hl'; cases hl'
  | ok r =>
      obtain ⟨d, way⟩ := r
      simp only [hl] at h
      cases hd : s.devices[d]? with
      | none =>
          simp only [hd, Prod.mk.injEq] at h
          obtain ⟨rfl, -⟩ := h
          refine iff_of_true same fun d' way' dev hl' hd' => ?_
          rw [hl] at hl'; cases hl'
          rw [hd] at hd'; cases hd'
      | some dev =>
          simp only [hd] at h
          split at h
          · cases h
          · cases ha : attachCall p d way req ans (s.call dev list req.config) with
            | ok a r => simp [ha] at h
            | error e' r =>
                simp only [ha, Prod.mk.injEq] at h
                obtain ⟨rfl, -⟩ := h
                rw [Server.store_unaffected hd hc, attachCall_error ha]
                constructor
                · intro hclean d' way' dev' hl' hd'
                  rw [hl] at hl'; cases hl'
                  rw [hd] at hd'; cases hd'
                  exact hclean
                · exact fun hclean => hclean d way dev hl hd

theorem failed_attach_unaffected_iff_sample :
    let s : Server := { devices := [sampleDevice], clients := [some {}] }
    let r := pciAttachDevice samplePlatform s 0 {} (sampleRequest pciInitBase0) {}
    r.2 = .error .einval ∧ (Unaffected s r.1 ↔ CleanFailure samplePlatform s {} (sampleRequest pciInitBase0) {}) :=
  ⟨rfl, failed_attach_unaffected_iff _ _ _ 0 _ _ _ .einval rfl (Prod.ext rfl rfl)⟩

/-- 基底レジスタへの書き込みに失敗した接続は、渡された I/O の区画を持ったままである。 -/
theorem bar_write_failure_leaks :
    let s : Server := { devices := [sampleDevice], clients := [some {}] }
    let r := pciAttachDevice samplePlatform s 0 {} (sampleRequest pciInitBase0)
      { io := fun _ _ => some 0x1000, writeBar := fun _ => false }
    r.2 = .error .enxio ∧ ¬Unaffected s r.1 := by
  refine ⟨rfl, fun h => ?_⟩
  have hlen := congrArg (fun db => db.blocks.length) h.db
  exact absurd hlen (by decide)

end Imx6Bsp.Pci
