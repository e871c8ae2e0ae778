import Imx6Bsp.Lib.Carving
import Imx6Bsp.Pci.Lemmas.Attach

/-!
# 基底レジスタの番地の割り当て

`addup_resources()` は、選ばれたレジスタの大きさを種類ごとに足し合わせて区画を一つ求め、大きさの降順にその区画を切り分ける。番地がまだなく、
大きさが 2 の冪のレジスタでは、どの番地も区画の中に収まり、同じ種類の番地は重ならない。メモリの番地は大きさの倍数になる。I/O の区画の境界は
求めた長さそのものなので、I/O の番地が大きさの倍数になるのは、区画の始まりがその倍数であるときに限る。
-/

namespace Imx6Bsp.Pci

open Imx6Bsp.Lib

/-! ## 選ばれたレジスタ -/

/-- レジスタの種類。 -/
def BaseRegister.kind (r : BaseRegister) : ResKind := if has r.flags pciIoSpace then .io else r.memKind

/-- 区画の中で占める長さ。 -/
def BaseRegister.stride (r : BaseRegister) : Nat := if has r.flags pciIoSpace then requestLength r.size else r.size

/-- 番地のない番地の上限。番地のこれより下は旗である。 -/
def BaseRegister.granule (r : BaseRegister) : Nat := if has r.flags pciIoSpace then 4 else 16

/-- 旗を除いた番地。 -/
def BaseRegister.base (r : BaseRegister) : Nat := r.address / r.granule * r.granule

/-- 呼び出しの旗が選ぶ基底レジスタ。 -/
def selectedBars (flags : BitVec 32) (dev : Device) (is : List (Fin 6)) : List Nat :=
  (is.filter fun i => wantsBar flags i && (dev.baseReg i).flags != 0).map Fin.val

/-- 呼び出しの旗が選ぶレジスタ。番号 6 は ROM である。 -/
def selected (flags : BitVec 32) (cardbus : Bool) (dev : Device) : List Nat :=
  selectedBars flags dev (barIndices cardbus) ++
    if has flags pciInitRom && has dev.romBase.flags pciRomSpace && !cardbus &&
      !(has dev.romBase.flags pciDeviceEnabled && dev.romBase.address ≥ 2) then [6] else []

/-- 選ばれたレジスタのうち、種類 `kind` のものが占める長さの和。 -/
def total (dev : Device) (sel : List Nat) (kind : ResKind) : Nat :=
  ((sel.filter fun i => (dev.reg i).kind = kind).map fun i => (dev.reg i).stride).sum

/-- 選ばれたレジスタにはまだ番地がなく、大きさは旗のビットより大きい 2 の冪である。ROM はメモリである。 -/
structure Unplaced (flags : BitVec 32) (cardbus : Bool) (dev : Device) : Prop where
  unassigned : ∀ i ∈ selected flags cardbus dev, (dev.reg i).unassigned = true
  pow : ∀ i ∈ selected flags cardbus dev, ∃ k, (dev.reg i).size = 2 ^ k
  granule : ∀ i ∈ selected flags cardbus dev, (dev.reg i).granule ≤ (dev.reg i).size
  rom : 6 ∈ selected flags cardbus dev → dev.romBase.kind = .mem

/-! ## 並べ替え -/

theorem sortPass_eq (a : Nat × Nat) (l : List (Nat × Nat)) :
    sortPass a l = bubblePass (fun x y => y.1 ≤ x.1) a l := by
  induction l generalizing a with
  | nil => rfl
  | cons b l ih =>
      rw [sortPass, bubblePass, ih, ih]
      by_cases h : a.1 < b.1
      · rw [if_pos h, if_neg (Nat.not_le.mpr h)]
      · rw [if_neg h, if_pos (Nat.not_lt.mp h)]

theorem sortRegs_eq (fuel : Nat) (l : List (Nat × Nat)) : sortRegs fuel l = bubbleSort (fun x y => y.1 ≤ x.1) fuel l := by
  induction fuel generalizing l with
  | zero => rfl
  | succ fuel ih =>
      cases l with
      | nil => rfl
      | cons a l => rw [sortRegs, bubbleSort, sortPass_eq, ih]

/-! ## 大きさの和 -/

/-- 種類 `kind` の和と境界の途中の値。境界は、その種類の大きさがすべて割り切る 2 の冪である。 -/
structure Gauge (dev : Device) (sel : List Nat) (kind : ResKind) (sum align : Nat) : Prop where
  sum : sum = trunc32 (total dev sel kind)
  pow : align = 0 ∨ ∃ k, align = 2 ^ k
  dvd : ∀ i ∈ sel, (dev.reg i).kind = kind → (dev.reg i).size ∣ align ∧ align ≠ 0

/-- 足し合わせる途中の値。 -/
structure Tracks (dev : Device) (sel : List Nat) (z : Sizes) : Prop where
  idle : z.enabled = false
  regSort : z.regSort = sel.map fun i => ((dev.reg i).size, i)
  io : z.io = trunc32 (total dev sel .io)
  mem : Gauge dev sel .mem z.mem z.align
  pref : Gauge dev sel .pref z.pref z.prefAlign

theorem total_concat (dev : Device) (sel : List Nat) (i : Nat) (kind : ResKind) :
    total dev (sel ++ [i]) kind = total dev sel kind + if (dev.reg i).kind = kind then (dev.reg i).stride else 0 := by
  unfold total
  rw [List.filter_append, List.map_append, List.sum_append]
  by_cases h : (dev.reg i).kind = kind
  · rw [List.filter_singleton, if_pos h, decide_eq_true h]
    simp
  · rw [List.filter_singleton, if_neg h, decide_eq_false h]
    simp

theorem trunc32_add (a b : Nat) : trunc32 (trunc32 a + b) = trunc32 (a + b) := Nat.mod_add_mod a (2 ^ 32) b

theorem two_pow_dvd {m n : Nat} (h : 2 ^ m ≤ 2 ^ n) : 2 ^ m ∣ 2 ^ n := Nat.pow_dvd_pow 2 ((Nat.pow_le_pow_iff_right (by decide)).mp h)

section

variable {dev : Device} {sel : List Nat} {kind : ResKind} {sum align i k : Nat}

theorem Gauge.skip (h : Gauge dev sel kind sum align) (hk : (dev.reg i).kind ≠ kind) : Gauge dev (sel ++ [i]) kind sum align := by
  refine ⟨?_, h.pow, fun j hj hkj => ?_⟩
  · rw [total_concat, if_neg hk, Nat.add_zero, h.sum]
  · rcases List.mem_append.mp hj with hj | hj
    · exact h.dvd j hj hkj
    · exact absurd (List.mem_singleton.mp hj ▸ hkj) hk

/-- 大きさが 2 の冪のレジスタ一つ分を加える。境界は、大きい方になる。 -/
theorem Gauge.add (h : Gauge dev sel kind sum align) (hk : (dev.reg i).kind = kind) (hstride : (dev.reg i).stride = (dev.reg i).size)
    (hs : (dev.reg i).size = 2 ^ k) (hlt : (dev.reg i).size < 2 ^ 32) :
    Gauge dev (sel ++ [i]) kind (trunc32 (sum + (dev.reg i).size))
      (if (dev.reg i).size > align then trunc32 (dev.reg i).size else align) := by
  have hsum : trunc32 (sum + (dev.reg i).size) = trunc32 (total dev (sel ++ [i]) kind) := by
    rw [total_concat, if_pos hk, hstride, h.sum, trunc32_add]
  by_cases hgt : (dev.reg i).size > align
  · rw [if_pos hgt, show trunc32 (dev.reg i).size = (dev.reg i).size from Nat.mod_eq_of_lt hlt]
    have h0 : (dev.reg i).size ≠ 0 := Nat.ne_zero_of_lt hgt
    refine ⟨hsum, .inr ⟨k, hs⟩, fun j hj hkj => ?_⟩
    rcases List.mem_append.mp hj with hj | hj
    · obtain ⟨hdvd, hne⟩ := h.dvd j hj hkj
      obtain ⟨m, rfl⟩ := h.pow.resolve_left hne
      rw [hs] at hgt h0 ⊢
      exact ⟨hdvd.trans (two_pow_dvd (le_of_lt hgt)), h0⟩
    · rw [List.mem_singleton.mp hj]
      exact ⟨dvd_rfl, h0⟩
  · rw [if_neg hgt]
    have h0 : align ≠ 0 := by
      intro h0
      rw [h0, hs] at hgt
      exact hgt (Nat.two_pow_pos k)
    refine ⟨hsum, h.pow, fun j hj hkj => ?_⟩
    rcases List.mem_append.mp hj with hj | hj
    · exact h.dvd j hj hkj
    · obtain ⟨m, rfl⟩ := h.pow.resolve_left h0
      rw [List.mem_singleton.mp hj, hs]
      rw [hs] at hgt
      exact ⟨two_pow_dvd (Nat.not_lt.mp hgt), h0⟩

theorem BaseRegister.stride_of_kind {r : BaseRegister} (h : r.kind ≠ .io) : r.stride = r.size := by
  unfold BaseRegister.kind at h
  unfold BaseRegister.stride
  split at h
  · exact absurd rfl h
  · rename_i hio
    exact if_neg hio

theorem Tracks.start (dev : Device) : Tracks dev [] {} :=
  ⟨rfl, rfl, rfl, ⟨rfl, .inl rfl, fun _ h => absurd h List.not_mem_nil⟩, ⟨rfl, .inl rfl, fun _ h => absurd h List.not_mem_nil⟩⟩

variable {z : Sizes}

/-- 番地のない基底レジスタ一つ分を加える。 -/
theorem Tracks.addBar (h : Tracks dev sel z) {flags : BitVec 32} {j : Fin 6} (hwant : wantsBar flags j = true)
    (hflags : (dev.baseReg j).flags ≠ 0) (hun : (dev.reg j).unassigned = true) (hs : (dev.reg j).size = 2 ^ k)
    (hlt : (dev.reg j).size < 2 ^ 32) : Tracks dev (sel ++ [j.val]) (z.addBar flags false dev j) := by
  have hreg : dev.baseReg j = dev.reg j := by rw [Device.reg, dif_pos j.isLt]
  have hidle : ((z.enabled || has (dev.reg j).flags pciDeviceEnabled) && !(dev.reg j).unassigned) = false := by rw [hun]; simp
  have hsort : z.regSort ++ [((dev.reg j).size, j.val)] = (sel ++ [j.val]).map fun i => ((dev.reg i).size, i) := by
    rw [h.regSort, List.map_append]; rfl
  rw [Sizes.addBar, if_neg (by rw [hwant]; simpa using hflags)]
  simp only [hreg, hidle, Bool.or_self, Bool.false_eq_true, if_false]
  by_cases hio : has (dev.reg j).flags pciIoSpace = true
  · have hk : (dev.reg j).kind = .io := if_pos hio
    rw [if_pos hio]
    refine ⟨rfl, hsort, ?_, h.mem.skip (by rw [hk]; decide), h.pref.skip (by rw [hk]; decide)⟩
    rw [total_concat, if_pos hk, BaseRegister.stride, if_pos hio, h.io, trunc32_add]
  · have hkind : (dev.reg j).kind = (dev.reg j).memKind := if_neg hio
    have hne : (dev.reg j).kind ≠ .io := by
      rw [hkind, BaseRegister.memKind]
      split <;> decide
    have hstride := BaseRegister.stride_of_kind hne
    have hiosum : z.io = trunc32 (total dev (sel ++ [j.val]) .io) := by rw [total_concat, if_neg hne, Nat.add_zero, h.io]
    rw [if_neg hio]
    by_cases hpref : has (dev.reg j).flags pciMemPrefetch = true
    · have hk : (dev.reg j).kind = .pref := hkind.trans (if_pos hpref)
      rw [if_pos hpref]
      exact ⟨rfl, hsort, hiosum, h.mem.skip (by rw [hk]; decide), h.pref.add hk hstride hs hlt⟩
    · have hk : (dev.reg j).kind = .mem := hkind.trans (if_neg hpref)
      rw [if_neg hpref]
      exact ⟨rfl, hsort, hiosum, h.mem.add hk hstride hs hlt, h.pref.skip (by rw [hk]; decide)⟩

/-- 基底レジスタの繰り返し。 -/
theorem Tracks.addBars (h : Tracks dev sel z) {flags : BitVec 32} (is : List (Fin 6))
    (hun : ∀ i ∈ selectedBars flags dev is, (dev.reg i).unassigned = true ∧ (∃ k, (dev.reg i).size = 2 ^ k) ∧ (dev.reg i).size < 2 ^ 32) :
    Tracks dev (sel ++ selectedBars flags dev is) (is.foldl (Sizes.addBar flags false dev) z) := by
  induction is generalizing sel z with
  | nil => simpa [selectedBars] using h
  | cons j is ih =>
      rw [List.foldl_cons]
      by_cases hj : (wantsBar flags j && (dev.baseReg j).flags != 0) = true
      · have hcons : selectedBars flags dev (j :: is) = j.val :: selectedBars flags dev is := by
          simp only [selectedBars, List.filter_cons, hj, if_true, List.map_cons]
        rw [hcons] at hun ⊢
        obtain ⟨hun', ⟨k, hs⟩, hlt⟩ := hun j.val List.mem_cons_self
        obtain ⟨hwant, hflags⟩ := Bool.and_eq_true_iff.mp hj
        have hstep := h.addBar hwant (bne_iff_ne.mp hflags) hun' hs hlt
        rw [show sel ++ j.val :: selectedBars flags dev is = sel ++ [j.val] ++ selectedBars flags dev is by simp]
        exact ih hstep fun i hi => hun i (List.mem_cons_of_mem _ hi)
      · have hcons : selectedBars flags dev (j :: is) = selectedBars flags dev is := by
          simp only [selectedBars, List.filter_cons, hj, if_false, Bool.false_eq_true]
        have hskip : z.addBar flags false dev j = z := by
          rw [Sizes.addBar, if_pos]
          simp only [Bool.and_eq_true, bne_iff_ne, not_and, not_not] at hj
          cases hw : wantsBar flags j with
          | false => rfl
          | true => simpa using hj hw
        rw [hskip, hcons]
        exact ih h fun i hi => hun i (hcons ▸ hi)

/-- 和の計算の全体。 -/
theorem sizesOf_tracks {flags : BitVec 32} {cardbus : Bool} (h : Unplaced flags cardbus dev)
    (hlt : ∀ i ∈ selected flags cardbus dev, (dev.reg i).size < 2 ^ 32) :
    Tracks dev (selected flags cardbus dev) (sizesOf flags false cardbus dev) := by
  have hbars : Tracks dev (selectedBars flags dev (barIndices cardbus)) ((barIndices cardbus).foldl (Sizes.addBar flags false dev) {}) :=
    (Tracks.start dev).addBars (barIndices cardbus) fun i hi =>
      ⟨h.unassigned i (List.mem_append_left _ hi), h.pow i (List.mem_append_left _ hi), hlt i (List.mem_append_left _ hi)⟩
  rw [sizesOf, Sizes.addRom]
  by_cases hrom : (has flags pciInitRom && has dev.romBase.flags pciRomSpace && !cardbus &&
      !(has dev.romBase.flags pciDeviceEnabled && dev.romBase.address ≥ 2)) = true
  · have hsel : selected flags cardbus dev = selectedBars flags dev (barIndices cardbus) ++ [6] := by rw [selected, if_pos hrom]
    have hmem : 6 ∈ selected flags cardbus dev := hsel ▸ List.mem_append_right _ (List.mem_singleton_self 6)
    have hk : (dev.reg 6).kind = .mem := h.rom hmem
    have hne : (dev.reg 6).kind ≠ .io := by rw [hk]; decide
    obtain ⟨k, hs⟩ := h.pow 6 hmem
    rw [hsel]
    simp only [hrom, Bool.not_false, Bool.and_self, if_true]
    refine ⟨hbars.idle, ?_, ?_, hbars.mem.add hk (BaseRegister.stride_of_kind hne) hs (hlt 6 hmem), ?_⟩
    · rw [hbars.regSort, List.map_append]; rfl
    · rw [total_concat, if_neg hne, Nat.add_zero]
      exact hbars.io
    · exact hbars.pref.skip (by rw [hk]; decide)
  · have hsel : selected flags cardbus dev = selectedBars flags dev (barIndices cardbus) := by
      rw [selected, if_neg hrom, List.append_nil]
    rw [hsel, if_neg (by simpa using hrom)]
    exact hbars

end

/-! ## 番地の割り当て -/

/-- 種類ごとの次の番地。 -/
def Cursor.next (cur : Cursor) : ResKind → Nat
  | .io => cur.io
  | .mem => cur.mem
  | .pref => cur.pref

def Cursor.bump (cur : Cursor) (n : Nat) : ResKind → Cursor
  | .io => { cur with io := cur.io + n }
  | .mem => { cur with mem := cur.mem + n }
  | .pref => { cur with pref := cur.pref + n }

/-- 番地 `a` を割り当てたレジスタ。 -/
def BaseRegister.assign (cardbus : Bool) (r : BaseRegister) (a : Nat) : BaseRegister :=
  { r with address := r.address ||| a, flags := if cardbus then r.flags ||| pciDeviceEnabled else r.flags }

/-- 種類 `kind` のレジスタに切り分けた番地。 -/
def placedSlots (dev : Device) (kind : ResKind) (start : Nat) (regs : List Nat) : List (Nat × Nat) :=
  carve (fun i => (dev.reg i).stride) start (regs.filter fun i => (dev.reg i).kind = kind)

section

variable {cardbus : Bool} {regs : List (Nat × Nat)} {cur : Cursor} {dev orig : Device}

theorem Cursor.next_bump (cur : Cursor) (n : Nat) (kind kind' : ResKind) :
    (cur.bump n kind).next kind' = cur.next kind' + if kind = kind' then n else 0 := by
  cases kind <;> cases kind' <;> rfl

theorem Device.reg_setReg {i j : Nat} (hi : i ≤ 6) (hj : j ≤ 6) (r : BaseRegister) :
    (dev.setReg i r).reg j = if j = i then r else dev.reg j := by
  by_cases hi' : i < 6
  · by_cases hj' : j < 6
    · rw [Device.setReg, dif_pos hi', Device.reg, dif_pos hj', Device.reg, dif_pos hj']
      by_cases hji : j = i
      · subst hji
        rw [if_pos rfl]
        exact Function.update_self ..
      · rw [if_neg hji]
        exact Function.update_of_ne (fun h => hji (congrArg Fin.val h)) ..
    · rw [Device.setReg, dif_pos hi', Device.reg, dif_neg hj', if_neg (by omega), Device.reg, dif_neg hj']
  · by_cases hj' : j < 6
    · rw [Device.setReg, dif_neg hi', Device.reg, dif_pos hj', if_neg (by omega), Device.reg, dif_pos hj']
    · rw [Device.setReg, dif_neg hi', Device.reg, dif_neg hj', if_pos (by omega)]

theorem placeRegs_cons {e : Nat × Nat} (hun : (dev.reg e.2).unassigned = true) (hsize : (dev.reg e.2).size ≠ 0) :
    placeRegs cardbus (e :: regs) cur dev =
      placeRegs cardbus regs (cur.bump (dev.reg e.2).stride (dev.reg e.2).kind)
        (dev.setReg e.2 ((dev.reg e.2).assign cardbus (cur.next (dev.reg e.2).kind))) := by
  simp only [placeRegs]
  rw [if_pos (by rw [hun]; simpa using hsize)]
  unfold BaseRegister.kind BaseRegister.stride BaseRegister.memKind
  split
  · rfl
  · split <;> rfl

/-- 割り当ての繰り返しは、並べたレジスタに切り分けた番地を加え、ほかのレジスタを変えない。 -/
theorem placeRegs_reg (hle : ∀ i ∈ regs.map Prod.snd, i ≤ 6) (hnodup : (regs.map Prod.snd).Nodup)
    (hun : ∀ i ∈ regs.map Prod.snd, (orig.reg i).unassigned = true ∧ (orig.reg i).size ≠ 0)
    (hsame : ∀ i ∈ regs.map Prod.snd, dev.reg i = orig.reg i) :
    (∀ j ≤ 6, j ∉ regs.map Prod.snd → (placeRegs cardbus regs cur dev).reg j = dev.reg j) ∧
    ∀ kind i a, (i, a) ∈ placedSlots orig kind (cur.next kind) (regs.map Prod.snd) →
      (placeRegs cardbus regs cur dev).reg i = (orig.reg i).assign cardbus a := by
  induction regs generalizing cur dev with
  | nil => exact ⟨fun _ _ _ => rfl, fun _ _ _ h => absurd h List.not_mem_nil⟩
  | cons e regs ih =>
      rw [List.map_cons] at hle hnodup hun hsame
      obtain ⟨he, hnodup⟩ := List.nodup_cons.mp hnodup
      have hle6 := hle e.2 List.mem_cons_self
      obtain ⟨hun', hsize⟩ := hun e.2 List.mem_cons_self
      have heq := hsame e.2 List.mem_cons_self
      rw [placeRegs_cons (heq ▸ hun') (heq ▸ hsize), heq]
      have hset : ∀ j ≤ 6, j ≠ e.2 → ∀ r, (dev.setReg e.2 r).reg j = dev.reg j := fun j hj hne r => by
        rw [Device.reg_setReg hle6 hj, if_neg hne]
      obtain ⟨hrest, hslots⟩ := @ih (cur.bump (orig.reg e.2).stride (orig.reg e.2).kind)
        (dev.setReg e.2 ((orig.reg e.2).assign cardbus (cur.next (orig.reg e.2).kind)))
        (fun i hi => hle i (List.mem_cons_of_mem _ hi)) hnodup (fun i hi => hun i (List.mem_cons_of_mem _ hi)) fun i hi => by
          rw [hset i (hle i (List.mem_cons_of_mem _ hi)) (fun h => he (h ▸ hi))]
          exact hsame i (List.mem_cons_of_mem _ hi)
      refine ⟨fun j hj hnot => ?_, fun kind i a hmem => ?_⟩
      · rw [List.map_cons, List.mem_cons, not_or] at hnot
        rw [hrest j hj hnot.2, hset j hj hnot.1]
      · rw [List.map_cons, placedSlots] at hmem
        by_cases hk : (orig.reg e.2).kind = kind
        · rw [List.filter_cons_of_pos (by simpa using hk), carve] at hmem
          rcases List.mem_cons.mp hmem with h | h
          · obtain ⟨rfl, rfl⟩ := Prod.mk.inj h
            rw [hrest e.2 hle6 he, Device.reg_setReg hle6 hle6, if_pos rfl, hk]
          · refine hslots kind i a ?_
            rw [placedSlots, Cursor.next_bump, if_pos hk]
            exact h
        · rw [List.filter_cons_of_neg (by simpa using hk)] at hmem
          refine hslots kind i a ?_
          rw [placedSlots, Cursor.next_bump, if_neg hk, Nat.add_zero]
          exact hmem

end

/-! ## 渡された区画 -/

/-- 管理者は、求められた境界に合う区画だけを渡す。 -/
def Grants.Aligning (ans : Grants) : Prop := ∀ n r start, ans n r = some start → r.align ∣ start

theorem memLoop_granted {p : Platform} {kind : ResKind} {bus length align : Nat} {ans : Grants} {pages : List (Nat × Nat)}
    {i prev a start : Nat} (h : memLoop p kind bus length align ans pages i prev = .ok (a, some start)) :
    a = start ∧ ∃ n r, ans n r = some start ∧ r.align = align := by
  induction pages generalizing i prev with
  | nil => cases h
  | cons page pages ih =>
      rw [memLoop] at h
      split at h
      · rename_i start' hans
        cases h
        exact ⟨rfl, i, _, hans, rfl⟩
      · split at h
        · cases h
        · exact ih h

/-- 渡された区画の始まりは、そのまま番地になり、境界に合う。 -/
theorem Want.answer_granted {p : Platform} {kind : ResKind} {w : Want} {a start : Nat} (h : w.answer p kind = .ok (a, some start))
    (hans : w.ans.Aligning) : a = start ∧ (if w.align ≠ 0 then w.align else requestLength w.size) ∣ start := by
  have hbits : ∀ kind : ResKind, has kind.space pciDeviceEnabled = false ∧
      (({ flags := kind.space } : BaseRegister).isMem = true ↔ kind ≠ .io) ∧ has ResKind.io.space pciIoSpace = true := by decide
  have hmem : ∀ size, ({ size, flags := kind.space } : BaseRegister).isMem = ({ flags := kind.space } : BaseRegister).isMem := fun _ => rfl
  unfold Want.answer blockAnswer pciAllocResource at h
  simp only [(hbits kind).1, Bool.false_eq_true, if_false, hmem] at h
  split at h
  · cases h
  · split at h
    · split at h
      · rename_i r hloop
        obtain ⟨a', grant⟩ := r
        cases h
        obtain ⟨rfl, n, req, hgrant, hal⟩ := memLoop_granted hloop
        exact ⟨by simp, hal ▸ hans n req _ hgrant⟩
      · cases h
    · rename_i hk
      obtain rfl : kind = .io := by
        by_contra hne
        exact hk ((hbits kind).2.1.mpr hne)
      rw [if_pos (hbits .io).2.2] at h
      unfold ioAttach at h
      dsimp only at h
      split at h
      · rename_i r hio
        split at hio
        · rename_i start' hgrant
          cases hio
          cases h
          exact ⟨by simp, hans 0 _ _ hgrant⟩
        · cases hio
      · cases h

theorem Want.held_granted {p : Platform} {d : Nat} {kind : ResKind} {w : Want} {b : Held} (h : b ∈ w.held p d kind) :
    w.size ≠ 0 ∧ ∃ a, w.answer p kind = .ok (a, some b.block.start) := by
  unfold Want.held at h
  split at h
  · cases h
  · rename_i hz
    split at h
    · rename_i a start hans
      rw [List.mem_singleton.mp h]
      exact ⟨hz, a, hans⟩
    · cases h

/-! ## 番地の並び -/

section

variable {flags : BitVec 32} {cardbus : Bool} {dev : Device} {i k : Nat}

theorem BaseRegister.granule_pow (r : BaseRegister) : ∃ k, r.granule = 2 ^ k := by
  unfold BaseRegister.granule
  split
  · exact ⟨2, rfl⟩
  · exact ⟨4, rfl⟩

theorem granule_dvd_size (h : Unplaced flags cardbus dev) (hi : i ∈ selected flags cardbus dev) :
    (dev.reg i).granule ∣ (dev.reg i).size := by
  obtain ⟨k, hk⟩ := h.pow i hi
  have hle := h.granule i hi
  obtain ⟨m, hm⟩ := (dev.reg i).granule_pow
  rw [hk, hm] at hle ⊢
  exact two_pow_dvd hle

/-- 大きさが 2 の冪なら、占める長さも 2 の冪であり、大きさで割り切れる。I/O では 256 より小さくならない。 -/
theorem BaseRegister.stride_pow {r : BaseRegister} (h : ∃ k, r.size = 2 ^ k) :
    (∃ k, r.stride = 2 ^ k) ∧ r.size ∣ r.stride ∧ (r.kind = .io → 256 ∣ r.stride) := by
  obtain ⟨k, hs⟩ := h
  have h256 : (256 : Nat) = 2 ^ 8 := by decide
  have hkind : has r.flags pciIoSpace = true ↔ r.kind = .io := by
    unfold BaseRegister.kind BaseRegister.memKind
    split
    · simp_all
    · split <;> simp_all
  unfold BaseRegister.stride requestLength
  split
  · split
    · rename_i hlt
      exact ⟨⟨8, h256⟩, by rw [hs] at hlt ⊢; rw [h256] at hlt ⊢; exact two_pow_dvd (le_of_lt hlt), fun _ => dvd_rfl⟩
    · rename_i hlt
      exact ⟨⟨k, hs⟩, dvd_rfl, fun _ => by rw [hs, h256] at *; exact two_pow_dvd (Nat.not_lt.mp hlt)⟩
  · rename_i hio
    exact ⟨⟨k, hs⟩, dvd_rfl, fun h => absurd (hkind.mpr h) hio⟩

theorem BaseRegister.size_le_stride {r : BaseRegister} (h : ∃ k, r.size = 2 ^ k) : r.size ≤ r.stride := by
  obtain ⟨⟨k, hk⟩, hdvd, -⟩ := BaseRegister.stride_pow h
  exact Nat.le_of_dvd (hk ▸ Nat.two_pow_pos k) hdvd

/-- 占める長さは、大きさの順に並ぶ。 -/
theorem BaseRegister.stride_mono {r r' : BaseRegister} (hk : r.kind = r'.kind) (h : r.size ≤ r'.size) : r.stride ≤ r'.stride := by
  by_cases hio : r.kind = .io
  · have key : ∀ {q : BaseRegister}, q.kind = .io → q.stride = requestLength q.size := by
      intro q hq
      refine if_pos ?_
      unfold BaseRegister.kind BaseRegister.memKind at hq
      split at hq
      · assumption
      · split at hq <;> cases hq
    rw [key hio, key (hk ▸ hio)]
    unfold requestLength
    split <;> split <;> omega
  · rw [BaseRegister.stride_of_kind hio, BaseRegister.stride_of_kind (hk ▸ hio)]
    exact h

theorem selected_le (hi : i ∈ selected flags cardbus dev) : i ≤ 6 := by
  rcases List.mem_append.mp hi with h | h
  · obtain ⟨j, _, rfl⟩ := List.mem_map.mp h
    omega
  · split at h
    · rw [List.mem_singleton.mp h]
    · cases h

theorem selected_nodup (flags : BitVec 32) (cardbus : Bool) (dev : Device) : (selected flags cardbus dev).Nodup := by
  refine List.nodup_append'.mpr ⟨?_, ?_, fun i hi h6 => ?_⟩
  · refine List.Nodup.map Fin.val_injective (List.Nodup.filter _ ?_)
    cases cardbus <;> decide
  · split
    · exact List.nodup_singleton 6
    · exact List.nodup_nil
  · obtain ⟨j, _, rfl⟩ := List.mem_map.mp hi
    split at h6
    · have := List.mem_singleton.mp h6
      omega
    · cases h6

theorem total_perm {sel sel' : List Nat} (h : sel.Perm sel') (kind : ResKind) : total dev sel kind = total dev sel' kind :=
  ((h.filter _).map _).sum_eq

theorem stride_le_total {sel : List Nat} (h : i ∈ sel) : (dev.reg i).stride ≤ total dev sel (dev.reg i).kind :=
  List.le_sum_of_mem (List.mem_map_of_mem (List.mem_filter.mpr ⟨h, decide_eq_true rfl⟩))

theorem io_dvd_total {sel : List Nat} (h : ∀ j ∈ sel, ∃ k, (dev.reg j).size = 2 ^ k) : 256 ∣ total dev sel .io := by
  refine List.dvd_sum fun x hx => ?_
  obtain ⟨j, hj, rfl⟩ := List.mem_map.mp hx
  obtain ⟨hsel, hk⟩ := List.mem_filter.mp hj
  exact (BaseRegister.stride_pow (h j hsel)).2.2 (of_decide_eq_true hk)

/-- 並べたレジスタは、選ばれたレジスタの置き換えであり、占める長さは後のもので割り切れる。 -/
theorem sorted_regs (h : Unplaced flags cardbus dev) {z : Sizes} (hz : Tracks dev (selected flags cardbus dev) z) :
    let regs := (sortRegs (z.regSort.length + 1) z.regSort).map Prod.snd
    regs.Perm (selected flags cardbus dev) ∧
      ∀ kind, (regs.filter fun i => (dev.reg i).kind = kind).Pairwise fun i j => (dev.reg j).stride ∣ (dev.reg i).stride := by
  intro regs
  have hperm : (sortRegs (z.regSort.length + 1) z.regSort).Perm z.regSort := sortRegs_eq _ _ ▸ bubbleSort_perm ..
  have hsorted : (sortRegs (z.regSort.length + 1) z.regSort).Pairwise fun x y => y.1 ≤ x.1 := by
    rw [sortRegs_eq]
    exact bubbleSort_pairwise (fun x y => le_total y.1 x.1) (fun x y w h h' => h'.trans h) (Nat.le_succ _)
  have hregs : regs.Perm (selected flags cardbus dev) := by
    have := hperm.map Prod.snd
    rwa [hz.regSort, List.map_map, show (Prod.snd ∘ fun i => ((dev.reg i).size, i)) = id from rfl, List.map_id, ← hz.regSort] at this
  refine ⟨hregs, fun kind => ?_⟩
  have hsize : regs.Pairwise fun i j => (dev.reg j).size ≤ (dev.reg i).size := by
    refine List.pairwise_map.mpr (hsorted.imp_of_mem fun {x y} hx hy hle => ?_)
    have key : ∀ e ∈ sortRegs (z.regSort.length + 1) z.regSort, e.1 = (dev.reg e.2).size := by
      intro e he
      have := hperm.mem_iff.mp he
      rw [hz.regSort] at this
      obtain ⟨j, _, rfl⟩ := List.mem_map.mp this
      rfl
    rwa [← key x hx, ← key y hy]
  refine (hsize.filter _).imp_of_mem fun {i j} hi hj hle => ?_
  obtain ⟨hi, hki⟩ := List.mem_filter.mp hi
  obtain ⟨hj, hkj⟩ := List.mem_filter.mp hj
  have hk : (dev.reg j).kind = (dev.reg i).kind := (of_decide_eq_true hkj).trans (of_decide_eq_true hki).symm
  obtain ⟨⟨m, hm⟩, -⟩ := BaseRegister.stride_pow (h.pow i (hregs.mem_iff.mp hi))
  obtain ⟨⟨n, hn⟩, -⟩ := BaseRegister.stride_pow (h.pow j (hregs.mem_iff.mp hj))
  have hmono := BaseRegister.stride_mono hk hle
  rw [hm, hn] at hmono ⊢
  exact two_pow_dvd hmono

/-- 旗のビットより大きい単位に揃った番地を加えると、番地はそれ自身になり、旗は残る。 -/
theorem BaseRegister.assign_base {r : BaseRegister} {a : Nat} (hun : r.unassigned = true) (ha : r.granule ∣ a) :
    (r.assign cardbus a).base = a ∧ (r.assign cardbus a).address % r.granule = r.address := by
  have hbit : has pciDeviceEnabled pciIoSpace = false := by decide
  have hgran : (r.assign cardbus a).granule = r.granule := by
    unfold BaseRegister.granule BaseRegister.assign
    cases cardbus
    · rfl
    · simp only [if_true, has_or, hbit, Bool.or_false]
  have hlt : r.address < r.granule := of_decide_eq_true hun
  have hor : (r.assign cardbus a).address = r.address + a := by
    obtain ⟨k, hk⟩ := r.granule_pow
    obtain ⟨q, rfl⟩ := ha
    rw [hk] at hlt ⊢
    change r.address ||| 2 ^ k * q = _
    rw [Nat.or_comm, ← Nat.two_pow_add_eq_or_of_lt hlt, Nat.add_comm]
  obtain ⟨q, rfl⟩ := ha
  rw [BaseRegister.base, hgran, hor, Nat.add_mul_mod_self_left, Nat.mod_eq_of_lt hlt]
  refine ⟨?_, rfl⟩
  rw [Nat.add_mul_div_left _ _ (by omega), Nat.div_eq_of_lt hlt, Nat.zero_add, Nat.mul_comm]

end

/-! ## `addup_resources()` の番地 -/

section

variable {p : Platform} {d : Nat} {req : AttachRequest} {cardbus : Bool} {ans : Answers} {s t : Call}

/-- 選ばれたレジスタが種類ごとに占める長さ。 -/
def totalOf (req : AttachRequest) (cardbus : Bool) (dev : Device) (kind : ResKind) : Nat :=
  total dev (selected req.fullFlags cardbus dev) kind

def Answers.grants (ans : Answers) : ResKind → Grants
  | .io => ans.io
  | .mem => ans.mem
  | .pref => ans.pref

/-- 始まりが `start` で長さが `length` の区画の中に、番地を割り当てたこと。 -/
structure PlacedIn (old new : BaseRegister) (start length : Nat) : Prop where
  size : new.size = old.size
  inside : start ≤ new.base ∧ new.base + old.stride ≤ start + length
  offset : old.size ∣ new.base - start
  flags : new.address % old.granule = old.address

theorem tracks_of_fit (h : Unplaced req.fullFlags cardbus s.dev) (hfit : ∀ kind, totalOf req cardbus s.dev kind < 2 ^ 32) :
    Tracks s.dev (selected req.fullFlags cardbus s.dev) (sizesOf req.fullFlags false cardbus s.dev) :=
  sizesOf_tracks h fun i hi =>
    lt_of_le_of_lt (BaseRegister.size_le_stride (h.pow i hi)) (lt_of_le_of_lt (stride_le_total hi) (hfit _))

/-- 求める区画の大きさと境界。 -/
theorem wantOf_size (hshow : req.showPci = false) (h : Unplaced req.fullFlags cardbus s.dev)
    (hfit : ∀ kind, totalOf req cardbus s.dev kind < 2 ^ 32) (kind : ResKind) :
    (wantOf p req false cardbus ans s.dev kind).size = totalOf req cardbus s.dev kind ∧
      (wantOf p req false cardbus ans s.dev kind).ans = ans.grants kind ∧
      (kind = .io → (wantOf p req false cardbus ans s.dev kind).align = 0) ∧
      (kind ≠ .io → ∀ i ∈ selected req.fullFlags cardbus s.dev, (s.dev.reg i).kind = kind →
        (s.dev.reg i).size ∣ (wantOf p req false cardbus ans s.dev kind).align ∧ (wantOf p req false cardbus ans s.dev kind).align ≠ 0) := by
  have hz := tracks_of_fit h hfit
  have htrunc : ∀ kind, trunc32 (total s.dev (selected req.fullFlags cardbus s.dev) kind) = totalOf req cardbus s.dev kind :=
    fun kind => Nat.mod_eq_of_lt (hfit kind)
  cases kind with
  | io => exact ⟨by simp only [wantOf, hshow, Bool.or_self, hz.io, htrunc], rfl, fun _ => rfl, fun hne => absurd rfl hne⟩
  | mem =>
      refine ⟨by simp only [wantOf, hshow, Bool.or_self, hz.mem.sum, htrunc], rfl, fun hk => absurd hk (by decide), fun _ => ?_⟩
      simpa only [wantOf, hshow, Bool.or_self] using hz.mem.dvd
  | pref =>
      refine ⟨by simp only [wantOf, hshow, Bool.or_self, hz.pref.sum, htrunc], rfl, fun hk => absurd hk (by decide), fun _ => ?_⟩
      simpa only [wantOf, hshow, Bool.or_self] using hz.pref.dvd

/-- 渡された区画の始まりは、種類のどのレジスタの旗のビットよりも大きい単位に揃い、メモリならその大きさの倍数である。 -/
theorem granted_aligned (hshow : req.showPci = false) (h : Unplaced req.fullFlags cardbus s.dev)
    (hfit : ∀ kind, totalOf req cardbus s.dev kind < 2 ^ 32) {kind : ResKind} (hans : (ans.grants kind).Aligning) {start : Nat}
    (hheld : ⟨d, ⟨p.name kind (allocBusOf p s.dev.busNumber), start, requestLength (totalOf req cardbus s.dev kind)⟩⟩ ∈
      (wantOf p req false cardbus ans s.dev kind).held p d kind)
    {i : Nat} (hi : i ∈ selected req.fullFlags cardbus s.dev) (hk : (s.dev.reg i).kind = kind) :
    (wantOf p req false cardbus ans s.dev kind).address p kind = start ∧ (s.dev.reg i).granule ∣ start ∧
      (kind ≠ .io → (s.dev.reg i).size ∣ start) := by
  obtain ⟨hsize, hgrants, halign, hdvd⟩ := @wantOf_size p req cardbus ans s hshow h hfit kind
  obtain ⟨hne, a, hanswer⟩ := Want.held_granted hheld
  obtain ⟨rfl, hal⟩ := Want.answer_granted hanswer (hgrants ▸ hans)
  refine ⟨by rw [Want.address, if_neg hne, hanswer]; rfl, ?_⟩
  have hgran := granule_dvd_size h hi
  by_cases hio : kind = .io
  · subst hio
    rw [if_neg (not_not.mpr (halign rfl)), hsize] at hal
    have htotal : 256 ∣ totalOf req cardbus s.dev .io := io_dvd_total h.pow
    have hlen : requestLength (totalOf req cardbus s.dev .io) = totalOf req cardbus s.dev .io :=
      if_neg (Nat.not_lt.mpr (Nat.le_of_dvd (by rw [hsize] at hne; omega) htotal))
    rw [hlen] at hal
    refine ⟨?_, fun hn => absurd rfl hn⟩
    have h256 : (s.dev.reg i).granule ∣ 256 := by
      unfold BaseRegister.granule
      split <;> decide
    exact h256.trans (htotal.trans hal)
  · obtain ⟨hsz, h0⟩ := hdvd hio i hi hk
    rw [if_pos h0] at hal
    exact ⟨hgran.trans (hsz.trans hal), fun _ => hsz.trans hal⟩

theorem takeAll_reg (w : ResKind → Want) (i : Nat) : (s.takeAll p d w).dev.reg i = s.dev.reg i := rfl

theorem held_takeAll {w : ResKind → Want} {kind : ResKind} {b : Held} (h : b ∈ (w kind).held p d kind) :
    b ∈ (s.takeAll p d w).db.blocks := by
  cases kind with
  | io => exact List.mem_append_right _ (List.mem_append_right _ (List.mem_append_left _ h))
  | mem => exact List.mem_append_right _ (List.mem_append_left _ h)
  | pref => exact List.mem_append_left _ h

/-- 番地の割り当てが終わった装置では、選ばれたレジスタに、区画から切り分けた番地が加わっている。 -/
theorem placed_slot (hshow : req.showPci = false) (h : Unplaced req.fullFlags cardbus s.dev)
    (hfit : ∀ kind, totalOf req cardbus s.dev kind < 2 ^ 32) {kind : ResKind} {dev : Device}
    (hdev : ∀ i, dev.reg i = s.dev.reg i) {w : ResKind → Want} (hw : w = wantOf p req false cardbus ans s.dev)
    (hne : (w kind).size ≠ 0) :
    ∃ regs : List Nat, regs.Perm (selected req.fullFlags cardbus s.dev) ∧
      ((regs.filter fun i => (s.dev.reg i).kind = kind).Pairwise fun i j => (s.dev.reg j).stride ∣ (s.dev.reg i).stride) ∧
      ∀ i a, (i, a) ∈ placedSlots s.dev kind ((w kind).address p kind) regs →
        (placed p req false cardbus w s.dev dev).reg i = (s.dev.reg i).assign cardbus a := by
  subst hw
  have hz := tracks_of_fit h hfit
  obtain ⟨hperm, hdvd⟩ := sorted_regs h hz
  have hsel : ∀ i ∈ (sortRegs _ (sizesOf req.fullFlags false cardbus s.dev).regSort).map Prod.snd,
      i ∈ selected req.fullFlags cardbus s.dev := fun i hi => hperm.mem_iff.mp hi
  refine ⟨_, hperm, hdvd kind, fun i a hslot => ?_⟩
  have hsome : (sizesOf req.fullFlags false cardbus s.dev).mem ≠ 0 ∨ (sizesOf req.fullFlags false cardbus s.dev).io ≠ 0 ∨
      (sizesOf req.fullFlags false cardbus s.dev).pref ≠ 0 := by
    cases kind <;> simp only [wantOf, hshow, Bool.or_self] at hne
    · exact .inr (.inl hne)
    · exact .inl hne
    · exact .inr (.inr hne)
  simp only [placed, hshow, Bool.or_self, and_true, if_pos hsome]
  refine (placeRegs_reg (fun i hi => selected_le (hsel i hi)) (hperm.nodup_iff.mpr (selected_nodup ..)) (fun i hi => ?_)
    fun i _ => hdev i).2 kind i a ?_
  · obtain ⟨k, hk⟩ := h.pow i (hsel i hi)
    exact ⟨h.unassigned i (hsel i hi), hk ▸ (Nat.two_pow_pos k).ne'⟩
  · cases kind <;> exact hslot

/-- `addup_resources()` が成功して種類 `kind` の区画が渡されたとき、選ばれたレジスタの番地はその区画の中に大きさの単位で並び、互いに
重ならない。メモリの番地は、大きさの倍数である。 -/
theorem addupResources_places (hshow : req.showPci = false) (h : Unplaced req.fullFlags cardbus s.dev)
    (hfit : ∀ kind, totalOf req cardbus s.dev kind < 2 ^ 32)
    (hok : addupResources p d req.fullFlags req.showPci cardbus false ans.io ans.mem ans.pref s = .ok () t) {kind : ResKind}
    (hans : (ans.grants kind).Aligning) {start : Nat}
    (hheld : ⟨d, ⟨p.name kind (allocBusOf p s.dev.busNumber), start, requestLength (totalOf req cardbus s.dev kind)⟩⟩ ∈
      (wantOf p req false cardbus ans s.dev kind).held p d kind) :
    (⟨d, ⟨p.name kind (allocBusOf p s.dev.busNumber), start, requestLength (totalOf req cardbus s.dev kind)⟩⟩ ∈ t.db.blocks) ∧
    (∀ i ∈ selected req.fullFlags cardbus s.dev, (s.dev.reg i).kind = kind →
      PlacedIn (s.dev.reg i) (t.dev.reg i) start (totalOf req cardbus s.dev kind) ∧
        (kind ≠ .io → (s.dev.reg i).size ∣ (t.dev.reg i).base)) ∧
    ∀ i ∈ selected req.fullFlags cardbus s.dev, ∀ j ∈ selected req.fullFlags cardbus s.dev,
      (s.dev.reg i).kind = kind → (s.dev.reg j).kind = kind → i ≠ j →
        (t.dev.reg i).base + (s.dev.reg i).stride ≤ (t.dev.reg j).base ∨ (t.dev.reg j).base + (s.dev.reg j).stride ≤ (t.dev.reg i).base := by
  have hmeets := @addupResources_meets p req false cardbus ans d s
  unfold Meets at hmeets
  rw [hok] at hmeets
  obtain ⟨-, rfl⟩ := hmeets
  obtain ⟨regs, hperm, hdvd, hassign⟩ := @placed_slot p req cardbus ans s hshow h hfit kind _
    (@takeAll_reg p d s (wantOf p req false cardbus ans s.dev)) _ rfl (Want.held_granted hheld).1
  -- 選ばれたレジスタの番地は、切り分けた番地そのものである。
  have key : ∀ i ∈ selected req.fullFlags cardbus s.dev, (s.dev.reg i).kind = kind → ∃ a,
      (i, a) ∈ placedSlots s.dev kind start regs ∧ (s.dev.reg i).size ∣ a - start ∧ (kind ≠ .io → (s.dev.reg i).size ∣ a) ∧
        (placed p req false cardbus (wantOf p req false cardbus ans s.dev) s.dev
          (s.takeAll p d (wantOf p req false cardbus ans s.dev)).dev).reg i = (s.dev.reg i).assign cardbus a ∧
        ((s.dev.reg i).assign cardbus a).base = a ∧ ((s.dev.reg i).assign cardbus a).address % (s.dev.reg i).granule = (s.dev.reg i).address := by
    intro i hi hk
    obtain ⟨haddr, hgran, hsize⟩ := granted_aligned hshow h hfit hans hheld hi hk
    have hmem : i ∈ (placedSlots s.dev kind start regs).map Prod.fst := by
      rw [placedSlots, carve_map_fst]
      exact List.mem_filter.mpr ⟨hperm.mem_iff.mpr hi, decide_eq_true hk⟩
    obtain ⟨⟨i, a⟩, hslot, rfl⟩ := List.mem_map.mp hmem
    have hstride := (BaseRegister.stride_pow (h.pow i hi)).2
    have hle := (carve_bounds hslot).1
    have hoff : (s.dev.reg i).stride ∣ a - start := @carve_offset _ (fun i => (s.dev.reg i).stride) _ _ _ _ hdvd hslot
    have hback : a = a - start + start := (Nat.sub_add_cancel hle).symm
    have hga : (s.dev.reg i).granule ∣ a := by
      rw [hback]
      exact Nat.dvd_add ((granule_dvd_size h hi).trans (hstride.1.trans hoff)) hgran
    refine ⟨a, hslot, hstride.1.trans hoff, fun hne => ?_, hassign i a (haddr ▸ hslot),
      BaseRegister.assign_base (h.unassigned i hi) hga⟩
    rw [hback]
    exact Nat.dvd_add (hstride.1.trans hoff) (hsize hne)
  refine ⟨held_takeAll hheld, fun i hi hk => ?_, fun i hi j hj hki hkj hij => ?_⟩
  · obtain ⟨a, hslot, hoff, hal, hreg, hbase, hflags⟩ := key i hi hk
    have hbounds := carve_bounds hslot
    have hsum : ((regs.filter fun i => (s.dev.reg i).kind = kind).map fun i => (s.dev.reg i).stride).sum =
        totalOf req cardbus s.dev kind := total_perm hperm kind
    rw [hsum] at hbounds
    dsimp only
    rw [hreg, hbase]
    exact ⟨⟨rfl, by rwa [hbase], by rwa [hbase], hflags⟩, hal⟩
  · obtain ⟨a, hslot, -, -, hreg, hbase, -⟩ := key i hi hki
    obtain ⟨b, hslot', -, -, hreg', hbase', -⟩ := key j hj hkj
    dsimp only
    rw [hreg, hbase, hreg', hbase']
    exact @carve_disjoint _ (fun i => (s.dev.reg i).stride) _ _ _ _ _ _ hslot hslot' hij

end

/-! ## 割り当ての例 -/

/-- 二つのメモリの窓がある、バス 0 だけの機械。 -/
def placePlatform : Platform where
  findBus := fun _ => none
  name := fun _ _ => ""
  mapAddr := fun a _ => a
  pages := [(0x1000000, 0x10fffff), (0x2000000, 0x3ffffff)]
  ioCpuLow := 0x1000
  ioCpuHigh := 0xffff
  hwOverride := false

/-- メモリのレジスタ二つと I/O のレジスタ二つ、ROM のある装置。 -/
def placeCall : Call where
  dev := {
    bmap := ⟨0, 0, 0, 0, 0, 0, 0, 0, 0, 0, 0, 0⟩
    busNumber := 0
    devFuncNumber := 8
    baseReg := fun i =>
      [{ size := 0x1000, flags := pciMemSpace }, { address := 1, size := 32, flags := pciIoSpace },
        { size := 0x100000, flags := pciMemSpace }, { address := 1, size := 512, flags := pciIoSpace }].getD i {}
    romBase := { size := 0x10000, flags := pciRomSpace } }
  list := { devList := List.replicate 20 none }
  db := {}

def placeRequest : AttachRequest where
  flags := pciInitAll ||| pciInitRom

/-- 二つ目の窓のメモリと、境界に合う I/O だけを渡す管理者。 -/
def placeAnswers : Answers where
  io := fun _ r => if r.align ∣ 5376 then some 5376 else none
  mem := fun n r => if n = 1 ∧ r.align ∣ 0x2000000 then some 0x2000000 else none

theorem placeCall_unplaced : Unplaced placeRequest.fullFlags false placeCall.dev := by
  have hsel : selected placeRequest.fullFlags false placeCall.dev = [0, 1, 2, 3, 6] := by decide
  refine ⟨?_, ?_, ?_, fun _ => by decide⟩ <;> rw [hsel]
  · decide
  · intro i hi
    fin_cases hi
    · exact ⟨12, rfl⟩
    · exact ⟨5, rfl⟩
    · exact ⟨20, rfl⟩
    · exact ⟨9, rfl⟩
    · exact ⟨16, rfl⟩
  · decide

theorem addupResources_places_sample :
    ∃ t, addupResources placePlatform 0 placeRequest.fullFlags placeRequest.showPci false false placeAnswers.io placeAnswers.mem
        placeAnswers.pref placeCall = .ok () t ∧
      (0x100000 ∣ (t.dev.reg 2).base ∧ 0x10000 ∣ (t.dev.reg 6).base) ∧
      PlacedIn (placeCall.dev.reg 3) (t.dev.reg 3) 5376 768 ∧ ¬0x200 ∣ (t.dev.reg 3).base := by
  have hfit : ∀ kind, totalOf placeRequest false placeCall.dev kind < 2 ^ 32 := by
    intro kind
    cases kind <;> decide
  have hio : placeAnswers.io.Aligning := by
    intro n r start h
    simp only [placeAnswers, Option.ite_none_right_eq_some, Option.some.injEq] at h
    exact h.2 ▸ h.1
  have hmem : placeAnswers.mem.Aligning := by
    intro n r start h
    simp only [placeAnswers, Option.ite_none_right_eq_some, Option.some.injEq] at h
    exact h.2 ▸ h.1.2
  have key (kind : ResKind) (hans : (placeAnswers.grants kind).Aligning) (start : Nat) :=
    @addupResources_places placePlatform 0 placeRequest false placeAnswers placeCall _ rfl placeCall_unplaced hfit rfl kind hans start
  refine ⟨_, rfl, ⟨?_, ?_⟩, ?_, by decide⟩
  · exact ((key .mem hmem 0x2000000 (by decide)).2.1 2 (by decide) (by decide)).2 (by decide)
  · exact ((key .mem hmem 0x2000000 (by decide)).2.1 6 (by decide) (by decide)).2 (by decide)
  · exact ((key .io hio 5376 (by decide)).2.1 3 (by decide) (by decide)).1

end Imx6Bsp.Pci
