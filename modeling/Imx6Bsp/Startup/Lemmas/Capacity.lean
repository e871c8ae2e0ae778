import Imx6Bsp.Startup.Lemmas.FindRam
import Imx6Bsp.Startup.RamCalls

/-!
# 一覧の大きさ

`add_mem()` は差し込む前に容量を調べるので、`ram_list` は容量を超えない。`avoid_list` は、項目を加える呼び出しのたびに
一つずつ伸びる。
-/

namespace Imx6Bsp.Startup

open Imx6Bsp.Lib

/-! ## `ram_list` -/

theorem addMemInsert_length (start size : Nat) (l : List RamEntry) :
    (addMemInsert start size l).length = l.length + 1 := by
  induction l with
  | nil => rfl
  | cons r l ih =>
      simp only [addMemInsert]
      split
      · rfl
      · simp only [List.length_cons, ih]

theorem addMemMerge_length (l : List RamEntry) : ∀ prev, (addMemMerge prev l).length ≤ l.length + 1 := by
  induction l with
  | nil => intro prev; simp [addMemMerge]
  | cons r l ih =>
      intro prev
      simp only [addMemMerge]
      split
      · exact (ih _).trans (by simp)
      · simpa using ih r

theorem addMem_size {l l' : List RamEntry} {start size : Nat} (h : addMem l start size = .ok l')
    (hl : ramListSize l ≤ maxRamListSize) : ramListSize l' ≤ maxRamListSize := by
  unfold addMem at h
  split at h
  · split at h
    · cases h
    · rename_i hfull
      have hlen := addMemInsert_length start size l
      cases hins : addMemInsert start size l with
      | nil => rw [hins] at hlen; simp at hlen
      | cons r rest =>
          rw [hins] at h hlen
          cases h
          have := addMemMerge_length rest r
          simp only [List.length_cons, Nat.add_right_cancel_iff] at hlen
          simp only [ramListSize, maxRamListSize] at hfull ⊢; omega
  · cases h; exact hl

theorem allocRamWalk_size {addr stop fuel i : Nat} {l l' : List RamEntry}
    (h : allocRamWalk addr stop fuel i l = .ok l') (hl : ramListSize l ≤ maxRamListSize) :
    ramListSize l' ≤ maxRamListSize := by
  induction fuel generalizing i l with
  | zero => cases h; exact hl
  | succ fuel ih =>
      simp only [allocRamWalk] at h
      cases hr : l[i]? with
      | none => rw [hr] at h; cases h; exact hl
      | some r =>
          rw [hr] at h
          dsimp only at h
          generalize (if stop > r.addr + r.size then stop else r.addr + r.size) = e at h
          generalize (if addr < r.addr then addr else r.addr) = s at h
          split at h
          · split at h
            · refine ih h (le_trans ?_ hl)
              have := List.length_eraseIdx_le l i
              simp only [ramListSize]; omega
            · split at h
              · exact ih h (by simpa [ramListSize] using hl)
              · split at h
                · obtain ⟨l₁, hl₁, h⟩ := Except.bind_eq_ok.mp h
                  exact ih h (addMem_size hl₁ (by simpa [ramListSize] using hl))
                · exact ih h (by simpa [ramListSize] using hl)
          · exact ih h hl

theorem allocRam_size {s s' : Ram} {addr size align a : Nat} (h : allocRam s addr size align = .ok (s', a))
    (hl : ramListSize s.ramList ≤ maxRamListSize) : ramListSize s'.ramList ≤ maxRamListSize := by
  obtain ⟨_, ⟨_, rfl⟩ | ⟨_, l, as, rfl, hwalk, _⟩⟩ := allocRam_ok h
  · exact hl
  · exact allocRamWalk_size hwalk hl

/-! ## 呼び出しごとの大きさ -/

/-- 呼び出しが `avoid_list` に項目を加えるか。 -/
def appendsAvoid (hdr : StartupHeader) (s : Ram) : RamCall → Bool
  | .addRam start size =>
      match addRamList hdr s start size with
      | .ok s₁ => s.tempSyspage = nullPaddr && findRam s₁ tempSyspageSize pageSize 0 0 ≠ nullPaddr
      | .error _ => false
  | .avoidRam _ _ => true
  | .wsAlloc size => (wsPlace s (round size 8)).isSome
  | .watchAddRam _ => (wsPlace s (round 8 8)).isSome
  | .allocRam _ _ _ | .callocRam _ _ | .reserveRam _ _ _ => false

/-- 呼び出しの前後の二つの一覧の大きさの関係。 -/
structure SizeStep (s s' : Ram) (appended : Bool) : Prop where
  ram : ramListSize s.ramList ≤ maxRamListSize → ramListSize s'.ramList ≤ maxRamListSize
  avoid : avoidListSize s'.avoidList = avoidListSize s.avoidList + if appended then 8 else 0

theorem allocRam_avoidList {s s' : Ram} {addr size align a : Nat}
    (h : allocRam s addr size align = .ok (s', a)) :
    s'.avoidList = s.avoidList ∧ s'.tempSyspage = s.tempSyspage := by
  obtain ⟨_, ⟨_, rfl⟩ | ⟨_, l, as, rfl, _⟩⟩ := allocRam_ok h
  · exact ⟨rfl, rfl⟩
  · exact ⟨rfl, rfl⟩

theorem allocRam_sizeStep {s s' : Ram} {addr size align a : Nat}
    (h : allocRam s addr size align = .ok (s', a)) : SizeStep s s' false :=
  ⟨allocRam_size h, by simp [(allocRam_avoidList h).1]⟩

theorem wsAlloc_sizeStep (s : Ram) (size : Nat) :
    SizeStep s (wsAlloc s size).1 (wsPlace s (round size 8)).isSome := by
  simp only [wsAlloc]
  cases wsPlace s (round size 8) with
  | none => exact ⟨id, rfl⟩
  | some p => exact ⟨id, by simp [avoidRam, avoidListSize]; omega⟩

/-- `add_ram()` の前半の、状態の変わり方。 -/
theorem addRamList_ok {hdr : StartupHeader} {s s₁ : Ram} {start size : Nat}
    (h : addRamList hdr s start size = .ok s₁) : ∃ as l a, addMem s.ramList start size = .ok l ∧
      allocRam { s with asinfo := as, ramList := l } (wrap32 (hdr.ramPaddr + hdr.startupSize))
        (wrap32 (hdr.ramSize + (2 ^ 32 - hdr.startupSize))) 1 = .ok (s₁, a) := by
  obtain ⟨l, hl, h⟩ := Except.bind_eq_ok.mp h
  obtain ⟨⟨s₂, a⟩, ha, h⟩ := Except.bind_eq_ok.mp h
  cases h
  exact ⟨_, l, a, hl, ha⟩

theorem addRam_sizeStep {hdr : StartupHeader} {s s' : Ram} {start size : Nat} {temp : Option Nat}
    (h : addRam hdr s start size = .ok (s', temp)) :
    SizeStep s s' (appendsAvoid hdr s (.addRam start size)) := by
  obtain ⟨s₁, hs₁, h⟩ := Except.bind_eq_ok.mp h
  obtain ⟨as, l, a, hl, ha⟩ := addRamList_ok hs₁
  obtain ⟨hav, htemp⟩ := allocRam_avoidList ha
  dsimp only at hav htemp
  have hram : ramListSize s.ramList ≤ maxRamListSize → ramListSize s₁.ramList ≤ maxRamListSize := fun h0 =>
    allocRam_size ha (addMem_size hl h0)
  simp only [pure, Except.pure, Except.ok.injEq, placeTempSyspage, htemp] at h
  simp only [appendsAvoid, hs₁]
  split at h
  · rename_i hnull
    split at h
    · rename_i hfind
      cases h
      refine ⟨hram, ?_⟩
      simp only [hnull, decide_true, Bool.true_and, decide_eq_true_eq, if_pos hfind]
      simp [avoidRam, avoidListSize, hav]; omega
    · rename_i hfind
      cases h
      refine ⟨hram, ?_⟩
      simp only [hnull, decide_true, Bool.true_and, decide_eq_true_eq, if_neg hfind]
      simp [avoidListSize, hav]
  · rename_i hnull
    cases h
    exact ⟨hram, by simp [hnull, hav]⟩

/-- 一回の呼び出しが二つの一覧の大きさにすることのすべて。 -/
theorem runCall_sizeStep {hdr : StartupHeader} {s s' : Ram} {c : RamCall} {events : List RamEvent}
    (h : runCall hdr s c = .ok (s', events)) : SizeStep s s' (appendsAvoid hdr s c) := by
  cases c with
  | addRam start size =>
      obtain ⟨⟨s₁, temp⟩, hs₁, h⟩ := Except.bind_eq_ok.mp h
      cases h
      exact addRam_sizeStep hs₁
  | avoidRam start size =>
      cases h
      exact ⟨id, by simp [avoidRam, avoidListSize, appendsAvoid]; omega⟩
  | wsAlloc size =>
      cases h
      exact wsAlloc_sizeStep s size
  | watchAddRam func =>
      obtain ⟨s₁, hs₁, h⟩ := Except.bind_eq_ok.mp h
      cases h
      have hws := wsAlloc_sizeStep s 8
      unfold watchAddRam at hs₁
      split at hs₁
      · cases hs₁
      · rename_i s₂ p heq
        rw [heq] at hws
        cases hs₁
        exact ⟨hws.ram, hws.avoid⟩
  | allocRam addr size align =>
      obtain ⟨⟨s₁, a⟩, hs₁, h⟩ := Except.bind_eq_ok.mp h
      cases h
      exact allocRam_sizeStep hs₁
  | callocRam size align =>
      obtain ⟨⟨s₁, m, a⟩, hs₁, h⟩ := Except.bind_eq_ok.mp h
      cases h
      exact allocRam_sizeStep (callocRam_ok hs₁)
  | reserveRam size align pagesize =>
      obtain ⟨⟨s₁, a⟩, hs₁, h⟩ := Except.bind_eq_ok.mp h
      cases h
      rcases reserveRam_ok hs₁ with ⟨_, rfl, _⟩ | ⟨_, _, s₂, as, _, _, hs₂, rfl, _⟩
      · exact ⟨id, rfl⟩
      · exact ⟨(allocRam_sizeStep hs₂).ram, (allocRam_sizeStep hs₂).avoid⟩

end Imx6Bsp.Startup
