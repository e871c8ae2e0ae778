import Imx6Bsp.Lib.Runs
import Imx6Bsp.Startup.Lemmas.RamList

/-!
# 空きの探索と `alloc_ram` の仕様

`find_ram()` と `find_top_ram_aligned()` が返す範囲は、`ram_list` の一つの項目に収まり、`avoid_list` のどの範囲とも
重ならない。`alloc_ram()` の結果はその範囲を `ram_list` から取り除く。
-/

namespace Imx6Bsp.Startup

open Imx6Bsp.Lib

/-! ## `avoid_list` による候補の狭まり -/

/-- 番兵と紛れる項目がなく、どの範囲も折り返さない。 -/
def AvoidOk (av : List AvoidEntry) : Prop := ∀ a ∈ av, a.stop ≠ 0 ∧ a.start ≤ a.stop

theorem fixSize_spec {s e as ae s' e' : Nat} (hse : s < e)
    (h : fixSize s e as ae = some (s', e')) :
    s ≤ s' ∧ s' < e' ∧ e' ≤ e ∧ (e' ≤ as ∨ ae ≤ s') := by
  unfold fixSize at h
  split at h
  · cases h; omega
  · split at h
    · split at h
      · cases h
      · cases h; omega
    · split at h
      · cases h; omega
      · split at h
        · cases h; omega
        · cases h; omega

/-- 狭めた候補は、元の候補の中の空でない範囲である。 -/
theorem avoidWalk_bounds {av : List AvoidEntry} :
    ∀ {s e s' e' : Nat}, s < e → avoidWalk av s e = some (s', e') → s ≤ s' ∧ s' < e' ∧ e' ≤ e := by
  induction av with
  | nil =>
      intro s e s' e' hse h
      simp only [avoidWalk, Option.some.injEq, Prod.mk.injEq] at h
      obtain ⟨rfl, rfl⟩ := h
      exact ⟨le_rfl, hse, le_rfl⟩
  | cons a av ih =>
      intro s e s' e' hse h
      simp only [avoidWalk] at h
      split at h
      · cases h; exact ⟨le_rfl, hse, le_rfl⟩
      · cases hfix : fixSize s e a.start a.stop with
        | none => rw [hfix] at h; cases h
        | some p =>
            obtain ⟨s₁, e₁⟩ := p
            rw [hfix] at h
            obtain ⟨h1, h2, h3, _⟩ := fixSize_spec hse hfix
            obtain ⟨h5, h6, h7⟩ := ih h2 h
            exact ⟨h1.trans h5, h6, h7.trans h3⟩

/-- 狭めた候補は、番兵より前のどの避ける範囲からも外れる。 -/
theorem avoidWalk_off {av : List AvoidEntry} (hav : ∀ a ∈ av, a.stop ≠ 0) :
    ∀ {s e s' e' : Nat}, s < e → avoidWalk av s e = some (s', e') →
    s ≤ s' ∧ s' < e' ∧ e' ≤ e ∧ ∀ a ∈ av, e' ≤ a.start ∨ a.stop ≤ s' := by
  induction av with
  | nil =>
      intro s e s' e' hse h
      simp only [avoidWalk, Option.some.injEq, Prod.mk.injEq] at h
      obtain ⟨rfl, rfl⟩ := h
      exact ⟨le_rfl, hse, le_rfl, by simp⟩
  | cons a av ih =>
      intro s e s' e' hse h
      have hstop := hav a (by simp)
      simp only [avoidWalk, hstop, ↓reduceIte] at h
      cases hfix : fixSize s e a.start a.stop with
      | none => rw [hfix] at h; cases h
      | some p =>
          obtain ⟨s₁, e₁⟩ := p
          rw [hfix] at h
          obtain ⟨h1, h2, h3, h4⟩ := fixSize_spec hse hfix
          obtain ⟨h5, h6, h7, h8⟩ := ih (fun b hb => hav b (by simp [hb])) h2 h
          refine ⟨h1.trans h5, h6, h7.trans h3, ?_⟩
          intro b hb
          rcases List.mem_cons.mp hb with rfl | hb
          · omega
          · exact h8 b hb

theorem avoidWalk_spec {av : List AvoidEntry} (hav : AvoidOk av) {s e s' e' : Nat} (h : s < e)
    (hw : avoidWalk av s e = some (s', e')) : s ≤ s' ∧ s' < e' ∧ e' ≤ e ∧ ∀ a ∈ av, e' ≤ a.start ∨ a.stop ≤ s' :=
  avoidWalk_off (fun a ha => (hav a ha).1) h hw

/-! ## 見つかる範囲 -/

/-- 範囲 `[addr, addr + size)` が `ram_list` の一つの項目に収まり、`avoid_list` のどの範囲とも重ならない。 -/
def Fits (l : List RamEntry) (av : List AvoidEntry) (addr size : Nat) : Prop :=
  (∃ r ∈ l, r.addr ≤ addr ∧ addr + size ≤ r.addr + r.size) ∧ ∀ a ∈ av, addr + size ≤ a.start ∨ a.stop ≤ addr

theorem Fits.mono {l l' : List RamEntry} {av : List AvoidEntry} {addr size : Nat} (h : Fits l av addr size)
    (hl : ∀ r ∈ l, r ∈ l') : Fits l' av addr size := by
  obtain ⟨⟨r, hr, h1⟩, h2⟩ := h; exact ⟨⟨r, hl r hr, h1⟩, h2⟩

theorem Fits.shorter {l : List RamEntry} {av : List AvoidEntry} {addr size size' : Nat}
    (h : Fits l av addr size) (hs : size' ≤ size) : Fits l av addr size' := by
  obtain ⟨⟨r, hr, h1, h2⟩, h3⟩ := h
  refine ⟨⟨r, hr, h1, by omega⟩, fun a ha => ?_⟩
  have := h3 a ha; omega

theorem Fits.subset_free {l : List RamEntry} {av : List AvoidEntry} {addr size : Nat}
    (h : Fits l av addr size) : Set.Ico addr (addr + size) ⊆ freeSet l := by
  obtain ⟨⟨r, hr, h1, h2⟩, _⟩ := h
  intro x hx
  exact ⟨r.span, List.mem_map_of_mem hr, h1.trans hx.1, hx.2.trans_le h2⟩

theorem placeAddr_plain (s align : Nat) : placeAddr s align 0 0 0 = round s align := by
  simp [placeAddr]

theorem round_lt (x a : Nat) : round x a < 2 ^ 32 := Nat.lt_of_le_of_lt Nat.and_le_left (wrap32_lt _)

/-- `find_ram()` が返す番地は、ある項目を狭めた候補の先頭を切り上げた番地であり、範囲は候補に収まる。 -/
theorem findRamWalk_some {av : List AvoidEntry} {size align : Nat} {l : List RamEntry}
    (h : findRamWalk av 0 maxPaddr32 size align 0 0 l ≠ nullPaddr) :
    ∃ r ∈ l, ∃ s e, avoidWalk av r.addr (r.addr + r.size) = some (s, e) ∧
      findRamWalk av 0 maxPaddr32 size align 0 0 l = round s align ∧
      round s align + size ≤ e ∧ round s align + size ≤ maxPaddr32 := by
  induction l with
  | nil => exact absurd rfl h
  | cons r l ih =>
      have hrest : findRamWalk av 0 maxPaddr32 size align 0 0 l ≠ nullPaddr →
          ∃ r' ∈ r :: l, ∃ s e, avoidWalk av r'.addr (r'.addr + r'.size) = some (s, e) ∧
            findRamWalk av 0 maxPaddr32 size align 0 0 l = round s align ∧
            round s align + size ≤ e ∧ round s align + size ≤ maxPaddr32 := fun h => by
        obtain ⟨r', hr', hx⟩ := ih h
        exact ⟨r', List.mem_cons_of_mem _ hr', hx⟩
      simp only [findRamWalk, placeAddr_plain] at h ⊢
      cases hw : avoidWalk av r.addr (r.addr + r.size) with
      | none => rw [hw] at h; exact hrest h
      | some p =>
          obtain ⟨s, e⟩ := p
          rw [hw] at h
          dsimp only at h ⊢
          have hmax : maxPaddr32 ≠ 0 := by decide
          have he : (if maxPaddr32 ≠ 0 ∧ e > maxPaddr32 then maxPaddr32 else e) ≤ e ∧
              (if maxPaddr32 ≠ 0 ∧ e > maxPaddr32 then maxPaddr32 else e) ≤ maxPaddr32 := by
            split <;> omega
          generalize (if maxPaddr32 ≠ 0 ∧ e > maxPaddr32 then maxPaddr32 else e) = e' at h he ⊢
          split at h
          · rename_i hge
            rw [if_pos hge]; exact hrest h
          · rename_i hge
            rw [if_neg hge]
            split at h
            · rename_i hsz
              rw [if_pos hsz]
              exact ⟨r, List.mem_cons_self, s, e, hw, rfl, by omega, by omega⟩
            · rename_i hsz
              rw [if_neg hsz]; exact hrest h

/-- `find_ram()` の範囲は、`NULL_PADDR` を超えない。 -/
theorem findRam_end {s : Ram} {size align : Nat} (h : findRam s size align 0 0 ≠ nullPaddr) :
    findRam s size align 0 0 + size < 2 ^ 32 := by
  obtain ⟨r, _, lo, hi, _, heq, _, hle⟩ := findRamWalk_some h
  rw [findRam, findRamInRange, heq]
  simp only [maxPaddr32] at hle; omega

/-- 切り上げが桁あふれしなければ、`find_ram()` の範囲は空いている。 -/
theorem findRam_subset_free {s : Ram} {size align : Nat} (ha : IsAlign align)
    (hl : ∀ r ∈ s.ramList, 0 < r.size ∧ r.addr + r.size + align ≤ 2 ^ 32)
    (h : findRam s size align 0 0 ≠ nullPaddr) :
    Set.Ico (findRam s size align 0 0) (findRam s size align 0 0 + size) ⊆ freeSet s.ramList := by
  obtain ⟨r, hr, lo, hi, hw, heq, hle, _⟩ := findRamWalk_some h
  obtain ⟨hpos, hb⟩ := hl r hr
  obtain ⟨h1, h2, h3⟩ := avoidWalk_bounds (by omega) hw
  have hround := ha.le_round (x := lo) (by omega)
  rw [findRam, findRamInRange, heq]
  intro x hx
  refine ⟨r.span, List.mem_map_of_mem hr, ?_⟩
  simp only [Span.mem_toSet, RamEntry.span_lo, RamEntry.span_hi, Set.mem_Ico] at hx ⊢; omega

theorem findRam_fits {s : Ram} (hav : AvoidOk s.avoidList) {size align : Nat} (ha : IsAlign align)
    (hl : ∀ r ∈ s.ramList, 0 < r.size ∧ r.addr + r.size + align ≤ 2 ^ 32)
    (h : findRam s size align 0 0 ≠ nullPaddr) :
    Fits s.ramList s.avoidList (findRam s size align 0 0) size := by
  obtain ⟨r, hr, lo, hi, hw, heq, hle, _⟩ := findRamWalk_some h
  obtain ⟨hpos, hb⟩ := hl r hr
  obtain ⟨h1, h2, h3, h4⟩ := avoidWalk_spec hav (by omega) hw
  have hround := ha.le_round (x := lo) (by omega)
  rw [findRam, findRamInRange, heq]
  refine ⟨⟨r, hr, by omega, by omega⟩, fun a ha' => ?_⟩
  have := h4 a ha'; omega

theorem findTopWalk_spec {av : List AvoidEntry} (hav : AvoidOk av) {size align : Nat} {l : List RamEntry}
    (hl : ∀ r ∈ l, 0 < r.size) :
    ∀ top, findTopWalk av size align l top = top ∨ Fits l av (findTopWalk av size align l top) size := by
  induction l with
  | nil => intro top; exact Or.inl rfl
  | cons r l ih =>
      intro top
      have hrest := ih fun x hx => hl x (by simp [hx])
      have hpos := hl r (by simp)
      have hcons : ∀ t, findTopWalk av size align l t = t ∨
          Fits (r :: l) av (findTopWalk av size align l t) size := fun t =>
        (hrest t).imp_right fun h => h.mono (fun x hx => by simp [hx])
      simp only [findTopWalk]
      split
      · exact hcons top
      · rename_i s e hw
        obtain ⟨h1, h2, h3, h4⟩ := avoidWalk_spec hav (by omega) hw
        split
        · rename_i hsz
          have hle : (if align ≠ 0 then trunc (e - size) align else wrap32 (e - size)) ≤ e - size := by
            split
            · exact trunc_le _ _
            · exact Nat.mod_le _ _
          generalize (if align ≠ 0 then trunc (e - size) align else wrap32 (e - size)) = chk at hle ⊢
          split
          · rename_i hchk
            rcases hcons chk with h | h
            · refine Or.inr ?_
              rw [h]
              refine ⟨⟨r, by simp, by omega, by omega⟩, fun a ha => ?_⟩
              have := h4 a ha; omega
            · exact Or.inr h
          · exact hcons top
        · exact hcons top

theorem findTopRamAligned_fits {s : Ram} (hav : AvoidOk s.avoidList) (size align pagesize : Nat)
    (hl : ∀ r ∈ s.ramList, 0 < r.size) (h : findTopRamAligned s size align pagesize ≠ nullPaddr) :
    Fits s.ramList s.avoidList (findTopRamAligned s size align pagesize) (round size pagesize) := by
  simp only [findTopRamAligned] at h ⊢
  split at h
  · exact absurd rfl h
  · rename_i hne
    simp only [hne, ↓reduceIte]
    exact (findTopWalk_spec hav hl 0).resolve_left hne

/-! ## `alloc_ram` -/

/-- `alloc_ram()` が戻ったときの、番地と状態の変わり方のすべて。 -/
theorem allocRam_ok {s s' : Ram} {addr size align a : Nat} (h : allocRam s addr size align = .ok (s', a)) :
    a = allocAddr s addr size align ∧
    ((a = nullPaddr ∧ s' = s) ∨
      (a ≠ nullPaddr ∧ ∃ l as, s' = { s with ramList := l, asinfo := as } ∧
        allocRamWalk a (wrap32 (a + size)) (2 * s.ramList.length + 1) 0 s.ramList = .ok l ∧
        (s.sysramAdded = false → as = s.asinfo) ∧
        (s.sysramAdded = true → allocSysramWalk a ((wrap32 (a + size) + (2 ^ 64 - 1)) % 2 ^ 64)
          (2 * s.asinfo.length + 2) none s.asinfo = .ok as))) := by
  simp only [allocRam] at h
  generalize allocAddr s addr size align = b at h ⊢
  split at h
  · rename_i hb
    cases h
    exact ⟨hb.symm, Or.inl ⟨rfl, rfl⟩⟩
  · rename_i hb
    obtain ⟨l, hl, h⟩ := Except.bind_eq_ok.mp h
    split at h
    · rename_i hsys
      obtain ⟨as, has, h⟩ := Except.bind_eq_ok.mp h
      cases h
      exact ⟨rfl, Or.inr ⟨hb, l, as, rfl, hl, by simp [hsys], fun _ => has⟩⟩
    · rename_i hsys
      cases h
      exact ⟨rfl, Or.inr ⟨hb, l, s.asinfo, rfl, hl, fun _ => rfl, fun h => absurd h hsys⟩⟩

/-- 番地を決めた後の `alloc_ram()` は、`ram_list` からその範囲を取り除く。 -/
theorem allocRam_free {s s' : Ram} {addr size align a : Nat} (hwf : RamWF s.ramList)
    (ha : a ≠ nullPaddr) (hb : a + size < 2 ^ 32) (h : allocRam s addr size align = .ok (s', a)) :
    RamWF s'.ramList ∧ freeSet s'.ramList = freeSet s.ramList \ Set.Ico a (a + size) := by
  obtain ⟨_, ⟨hnull, _⟩ | ⟨_, l, as, rfl, hl, _⟩⟩ := allocRam_ok h
  · exact absurd hnull ha
  · rw [wrap32_of_lt hb] at hl
    rcases allocRamWalk_spec hwf (Nat.le_add_right a size) le_rfl with ⟨l', hl', hw, hf⟩ | ⟨herr, _⟩
    · rw [hl] at hl'; cases hl'; exact ⟨hw, hf⟩
    · rw [hl] at herr; cases herr

theorem callocRam_ok {s s' : Ram} {m m' : Nat → UInt8} {size align a : Nat}
    (h : callocRam s m size align = .ok (s', m', a)) : allocRam s nullPaddr size align = .ok (s', a) := by
  obtain ⟨⟨s₁, b⟩, hs₁, h⟩ := Except.bind_eq_ok.mp h
  dsimp only at h
  split at h <;> cases h <;> exact hs₁

theorem reserveRam_ok {s s' : Ram} {size align pagesize : Nat} {r : Option Nat}
    (h : reserveRam s size align pagesize = .ok (s', r)) :
    (size = 0 ∧ s' = s ∧ r = none) ∨
      ∃ al a s₁ as, a = findTopRamAligned s size al pagesize ∧ a ≠ nullPaddr ∧
        allocRam s a size al = .ok (s₁, a) ∧ s' = { s₁ with asinfo := as } ∧ r = some a := by
  unfold reserveRam at h
  split at h
  · rename_i hsize
    cases h; exact Or.inl ⟨hsize, rfl, rfl⟩
  · right
    generalize (if align ≠ 0 then align else pagesize) = al at h
    dsimp only at h
    split at h
    · cases h
    · rename_i hnull
      obtain ⟨⟨s₁, b⟩, hs₁, h⟩ := Except.bind_eq_ok.mp h
      cases h
      have hb : b = findTopRamAligned s size al pagesize := by
        rw [(allocRam_ok hs₁).1, allocAddr, if_neg hnull]
      exact ⟨al, _, s₁, _, rfl, hnull, hb ▸ hs₁, rfl, rfl⟩

end Imx6Bsp.Startup
