import Imx6Bsp.Pci.Locks
import Imx6Bsp.Pci.Lemmas.Attach

/-!
# `LockFlg` の増減

接続と切り離しの呼び出しが、装置の `LockFlg`、`MgrAttach`、`AttachFlags` と接続の記録をどう変えるかを示す。
-/

namespace Imx6Bsp.Pci

open Imx6Bsp.Lib

/-! ## 接続 -/

/-- 最後に `LockFlg` を増やすか。 -/
def locks (req : AttachRequest) (reAttach : Bool) (attachFlags : BitVec 32) : Bool :=
  if req.showPci then !reAttach else attachFlags ≠ 0 || !req.mgr && !reAttach

/-- `lockflg` を一つ増やす。 -/
def DevList.lock (list : DevList) : DevList := { list with lockflg := list.lockflg + 1 }

/-- 最初の書き換え。 -/
def Admin.begin (way : Way) (req : AttachRequest) (a : Admin) : Admin :=
  { a with
    lockFlg := if way = .again then (a.lockFlg + 1) % 256 else a.lockFlg
    mgrAttach := a.mgrAttach || req.mgr
    list := if way = .again then a.list.lock else a.list }

/-- 最後の書き換え。 -/
def Admin.register (d : Nat) (req : AttachRequest) (reAttach : Bool) (a : Admin) : Admin :=
  { a with
    lockFlg := if locks req reAttach a.attachFlags then (a.lockFlg + 1) % 256 else a.lockFlg
    attachFlags := a.attachFlags ||| req.fullFlags
    persistent := a.persistent || !req.showPci && a.attachFlags = 0 && has req.fullFlags pciPersist
    list :=
      let list := if locks req reAttach a.attachFlags then a.list.lock else a.list
      if req.showPci then list else list.enlist d }

theorem beginAttach_admin (way : Way) (req : AttachRequest) (s : Call) :
    (beginAttach way req s).admin = s.admin.begin way req := by
  by_cases h : way = .again
  · simp [beginAttach, h, Call.admin, Admin.begin, Call.lock, DevList.lock]
  · simp [beginAttach, h, Call.admin, Admin.begin]

theorem fillBusInfo_state (p : Platform) (flags : BitVec 32) (s : Call) : (fillBusInfo p flags s).state = s.state := by
  simp only [fillBusInfo]
  split
  · split <;> rfl
  · rfl

theorem Call.register_admin (d : Nat) (req : AttachRequest) (reAttach : Bool) (s : Call) :
    (s.register d req reAttach).admin = s.admin.register d req reAttach := by
  by_cases hs : req.showPci = true
  · cases reAttach <;> simp [Call.register, Admin.register, locks, hs, Call.addFlags, Call.lock, Call.admin, DevList.lock]
  · by_cases hf : s.dev.attachFlags = 0#32
    · by_cases hm : req.mgr = true <;> by_cases hp : s.dev.persistent = true <;> by_cases hb : has req.fullFlags pciPersist = true <;>
        cases reAttach <;>
          simp [Call.register, Admin.register, locks, hs, hf, hm, hp, hb, Call.addFlags, Call.lock, Call.admin, DevList.lock,
            DevList.enlist, Device.persist]
    · simp [Call.register, Admin.register, locks, hs, hf, Call.addFlags, Call.lock, Call.admin, DevList.lock, DevList.enlist]

theorem Call.admin_of_state {s t : Call} (h : t.state = s.state) : t.admin = s.admin := by
  obtain ⟨config, rfl⟩ := Call.eq_of_state h
  rfl

theorem finish_admin (p : Platform) (d : Nat) (req : AttachRequest) (reAttach : Bool) (s : Call) :
    (finish p d req reAttach s).admin = s.admin.register d req reAttach :=
  (Call.admin_of_state (fillBusInfo_state ..)).trans (Call.register_admin ..)

/-- 必要な答えがそろうかどうかは、最初の書き換えによらない。 -/
theorem answered_beginAttach (p : Platform) (req : AttachRequest) (next cardbus : Bool) (ans : Answers) (way : Way) (s : Call) :
    Answered p req next cardbus ans (fillConfig ans (beginAttach way req s)) ↔ Answered p req next cardbus ans s := by
  cases way <;> exact Iff.rfl

theorem attachCall_admin (p : Platform) (d : Nat) (way : Way) (req : AttachRequest) (ans : Answers) (s : Call) :
    let answered := Answered p req (way.next s.dev) (s.dev.classCode = pciCardbus) ans s
    Meets (attachCall p d way req ans) s
      (fun _ t => answered ∧ t.admin = (s.admin.begin way req).register d req (way = .again))
      (fun _ t => ¬answered ∧ t.admin = s.admin.begin way req) := by
  intro answered
  simp only [attachCall, meets_bind, meets_get, meets_modify]
  refine ((acquire_admin d _).and (acquire_meets d _)).mono ?_ ?_
  · rintro _ t ⟨hadmin, hans, -⟩
    rw [finish_admin, hadmin, beginAttach_admin]
    exact ⟨(answered_beginAttach ..).mp hans, rfl⟩
  · rintro _ t ⟨hadmin, hans, -⟩
    rw [hadmin, beginAttach_admin]
    exact ⟨fun h => hans ((answered_beginAttach ..).mpr h), rfl⟩

theorem fillBars_state (p : Platform) (is : List (Fin 6)) (s : Call) : (fillBars p is s).state = s.state := by
  induction is generalizing s with
  | nil => rfl
  | cons i is ih =>
      rw [fillBars, ih]
      split <;> rfl

theorem fillBase_state (p : Platform) (s : Call) : (fillBase p s).state = s.state := by
  have htr : ∀ u : Call, (pciTranslation p u).state = u.state := fun _ => rfl
  have hrom : ∀ u : Call, (fillRom p u).state = u.state := fun _ => rfl
  rw [fillBase, htr]
  split
  · rw [hrom, fillBars_state]
  · rw [fillBars_state]

theorem relock_admin (p : Platform) (d : Nat) (ans : Answers) (s : Call) :
    (relock p d ans s).admin =
      { s.admin with lockFlg := (s.dev.lockFlg + 1) % 256, list := s.list.lock.relist d } := by
  have h := fillBase_state p (fillConfig ans s)
  obtain ⟨config, hc⟩ := Call.eq_of_state h
  simp only [relock, hc]
  rfl

/-! ## 切り離し -/

theorem clearBars_eq (is : List (Fin 6)) (enabled : Bool) (dev : Device) :
    ∃ baseReg, (clearBars is enabled dev).1 = { dev with baseReg } := by
  induction is generalizing enabled dev with
  | nil => exact ⟨_, rfl⟩
  | cons i is ih =>
      simp only [clearBars]
      split
      · obtain ⟨baseReg, h⟩ := ih (enabled || has (dev.baseReg i).flags pciDeviceEnabled) _
        exact ⟨baseReg, h⟩
      · exact ih _ _

theorem clearRom_eq (enabled : Bool) (dev : Device) : ∃ romBase, (clearRom enabled dev).1 = { dev with romBase } := by
  simp only [clearRom]
  split
  · exact ⟨_, rfl⟩
  · exact ⟨_, rfl⟩

theorem clearRegs_eq (dev : Device) : ∃ baseReg romBase, (clearRegs dev).1 = { dev with baseReg, romBase } := by
  obtain ⟨baseReg, hbars⟩ := clearBars_eq [0, 1, 2, 3, 4, 5] false dev
  obtain ⟨romBase, hrom⟩ := clearRom_eq (clearBars [0, 1, 2, 3, 4, 5] false dev).2 (clearBars [0, 1, 2, 3, 4, 5] false dev).1
  exact ⟨baseReg, romBase, by rw [clearRegs, hrom, hbars]⟩

theorem freeAlloc_admin (p : Platform) (kind : ResKind) (s : Call) : (freeAlloc p kind s).admin = s.admin := by
  simp only [freeAlloc]
  split
  · cases kind <;> rfl
  · rfl

theorem releaseResources_admin (p : Platform) (s : Call) : (releaseResources p s).1.admin = s.admin := by
  obtain ⟨baseReg, romBase, h⟩ := clearRegs_eq s.dev
  have hfree : (freeAllocs p { s with dev := (clearRegs s.dev).1 }).admin = s.admin := by
    rw [freeAllocs, freeAlloc_admin, freeAlloc_admin, freeAlloc_admin, h]
    rfl
  simp only [releaseResources]
  generalize freeAllocs p { s with dev := (clearRegs s.dev).1 } = u at hfree ⊢
  split
  · exact hfree
  · split
    · exact hfree
    · exact hfree

/-- `LockFlg` か `MgrAttach` を戻す。 -/
def Admin.unlock (closeFlag : Bool) (a : Admin) : Admin :=
  if a.lockFlg ≠ 0 then
    if a.list.lockflg ≠ 0 then
      let i := lockDrop closeFlag a.list.lockflg a.lockFlg
      { a with lockFlg := a.lockFlg - i, list := { a.list with lockflg := a.list.lockflg - i } }
    else { a with lockFlg := a.lockFlg - 1 }
  else { a with mgrAttach := false }

def Admin.idle (a : Admin) : Bool := a.lockFlg = 0 ∧ a.mgrAttach = false

/-- 切り離しの全体。 -/
def Admin.detach (d : Nat) (closeFlag : Bool) (a : Admin) : Admin :=
  let a := a.unlock closeFlag
  { a with attachFlags := if a.idle then 0 else a.attachFlags, list := a.list.unlist d }

theorem unlock_admin (closeFlag : Bool) (s : Call) : (unlock closeFlag s).admin = s.admin.unlock closeFlag := by
  by_cases h : s.dev.lockFlg = 0
  · simp [unlock, Admin.unlock, Call.admin, h]
  · by_cases h' : s.list.lockflg = 0
    · simp [unlock, Admin.unlock, Call.admin, h, h']
    · simp [unlock, Admin.unlock, Call.admin, h, h']

theorem detachCall_admin (p : Platform) (d : Nat) (closeFlag : Bool) (s : Call) :
    (detachCall p d closeFlag s).1.admin = s.admin.detach d closeFlag ∧
      ((detachCall p d closeFlag s).2 = true → (s.admin.unlock closeFlag).idle = true) := by
  have hu := unlock_admin closeFlag s
  have hr : (if (unlock closeFlag s).dev.releasable then (releaseResources p (unlock closeFlag s)).1
      else unlock closeFlag s).admin = s.admin.unlock closeFlag := by
    split
    · rw [releaseResources_admin, hu]
    · exact hu
  constructor
  · simp only [detachCall, Admin.detach]
    set r := if (unlock closeFlag s).dev.releasable then (releaseResources p (unlock closeFlag s)).1 else unlock closeFlag s
    have hidle : r.dev.idle = (s.admin.unlock closeFlag).idle := by rw [← hr]; rfl
    rw [hidle, ← hr]
    split <;> rfl
  · intro h
    have : (unlock closeFlag s).dev.idle = true := by
      simp only [detachCall, Device.releasable, Bool.and_eq_true] at h
      exact h.2
    rw [← hu]; exact this

end Imx6Bsp.Pci
