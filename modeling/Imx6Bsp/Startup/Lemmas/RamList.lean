import Imx6Bsp.Lib.Spans
import Imx6Bsp.Startup.Ram

/-!
# `ram_list` の加算と取り除き

`ram_list` を半開区間の並びとして読み、`add_mem()` が区間の併合を、`alloc_ram()` が区間の切り抜きを計算することを示す。
-/

namespace Imx6Bsp.Startup

open Imx6Bsp.Lib

/-! ## 区間としての `ram_list` -/

/-- 項目が表す番地の範囲。 -/
def RamEntry.span (r : RamEntry) : Span Nat := ⟨r.addr, r.addr + r.size⟩

@[simp] theorem RamEntry.span_lo (r : RamEntry) : r.span.lo = r.addr := rfl

@[simp] theorem RamEntry.span_hi (r : RamEntry) : r.span.hi = r.addr + r.size := rfl

theorem RamEntry.span_injective : Function.Injective RamEntry.span := by
  intro r r' h
  cases r; cases r'
  simp only [RamEntry.span, Span.mk.injEq] at h
  obtain ⟨rfl, h⟩ := h
  simp only [RamEntry.mk.injEq, true_and]; omega

/-- `ram_list` を区間の並びとして読む。 -/
def spans (l : List RamEntry) : List (Span Nat) := l.map RamEntry.span

@[simp] theorem spans_nil : spans [] = [] := rfl

@[simp] theorem spans_cons (r : RamEntry) (l : List RamEntry) : spans (r :: l) = r.span :: spans l := rfl

@[simp] theorem spans_append (l l' : List RamEntry) : spans (l ++ l') = spans l ++ spans l' :=
  List.map_append

theorem spans_injective : Function.Injective spans := RamEntry.span_injective.list_map

/-- 空いている番地の集合。 -/
def freeSet (l : List RamEntry) : Set Nat := covered (spans l)

/-- 項目の大きさが正で、番地の順に間を空けて並び、どの項目も `paddr_t` の番地の範囲に収まる。 -/
structure RamWF (l : List RamEntry) : Prop where
  sep : Separated (spans l)
  bound : ∀ r ∈ l, r.addr + r.size ≤ 2 ^ 32

namespace RamWF

theorem nil : RamWF [] := ⟨.nil, by simp⟩

theorem size_pos {l : List RamEntry} (h : RamWF l) {r : RamEntry} (hr : r ∈ l) : 0 < r.size := by
  have := h.sep.pos r.span (List.mem_map_of_mem hr)
  simp only [RamEntry.span_lo, RamEntry.span_hi] at this; omega

/-- 空いている番地の上限は、どの項目の終わりの上限でもある。 -/
theorem end_le {l : List RamEntry} (h : RamWF l) {b : Nat} (hb : freeSet l ⊆ Set.Iio b) {r : RamEntry}
    (hr : r ∈ l) : r.addr + r.size ≤ b := by
  have hpos := h.size_pos hr
  have hmem : r.addr + r.size - 1 ∈ freeSet l := by
    refine ⟨r.span, List.mem_map_of_mem hr, ?_⟩
    simp only [Span.mem_toSet, RamEntry.span_lo, RamEntry.span_hi]; omega
  have := Set.mem_Iio.mp (hb hmem)
  omega

theorem beyond {pre rest : List RamEntry} {r : RamEntry} (h : RamWF (pre ++ r :: rest)) :
    ∀ x ∈ rest, r.addr + r.size < x.addr := by
  intro x hx
  have hs := h.sep
  simp only [spans_append, spans_cons] at hs
  exact hs.right.head_lt x.span (List.mem_map_of_mem hx)

/-- 項目を消しても整合は保たれる。 -/
theorem erase {pre rest : List RamEntry} {r : RamEntry} (h : RamWF (pre ++ r :: rest)) :
    RamWF (pre ++ rest) := by
  refine ⟨⟨fun s hs => h.sep.pos s ?_, ?_⟩, fun x hx => h.bound x ?_⟩
  · simp only [spans_append, spans_cons, List.mem_append, List.mem_cons] at hs ⊢; tauto
  · exact h.sep.sep.sublist (by simp)
  · simp only [List.mem_append, List.mem_cons] at hx ⊢; tauto

/-- 項目を、その中に収まる空でない項目に置き換えても、整合は保たれる。 -/
theorem shrink {pre rest : List RamEntry} {r q : RamEntry} (h : RamWF (pre ++ r :: rest))
    (hpos : 0 < q.size) (hlo : r.addr ≤ q.addr) (hhi : q.addr + q.size ≤ r.addr + r.size) :
    RamWF (pre ++ q :: rest) := by
  have hs := h.sep
  simp only [spans_append, spans_cons] at hs
  refine ⟨?_, ?_⟩
  · simp only [spans_append, spans_cons]
    refine hs.left.append (.cons ?_ ?_ hs.right.tail) ?_
    · simp only [RamEntry.span_lo, RamEntry.span_hi]; omega
    · intro t ht
      have := hs.right.head_lt t ht
      simp only [RamEntry.span_hi] at this ⊢; omega
    · intro a ha b hb
      rcases List.mem_cons.mp hb with rfl | hb
      · have := hs.cross a ha r.span (by simp)
        simp only [RamEntry.span_lo] at this ⊢; omega
      · exact hs.cross a ha b (by simp [hb])
  · intro x hx
    rcases List.mem_append.mp hx with hx | hx
    · exact h.bound x (by simp [hx])
    · rcases List.mem_cons.mp hx with rfl | hx
      · have := h.bound r (by simp); omega
      · exact h.bound x (by simp [hx])

end RamWF

/-! ## `add_mem` -/

theorem spans_addMemInsert (start size : Nat) (l : List RamEntry) :
    spans (addMemInsert start size l) = insertByLo ⟨start, start + size⟩ (spans l) := by
  induction l with
  | nil => rfl
  | cons r l ih =>
      by_cases hlt : start < r.addr
      · simp [addMemInsert, insertByLo, hlt, RamEntry.span]
      · simp [addMemInsert, insertByLo, hlt, ih]

theorem spans_addMemMerge (p : RamEntry) (l : List RamEntry) :
    spans (addMemMerge p l) = absorb p.span (spans l) := by
  induction l generalizing p with
  | nil => rfl
  | cons r l ih =>
      by_cases hle : r.addr ≤ p.addr + p.size
      · simp only [addMemMerge, spans_cons, absorb, RamEntry.span_lo, RamEntry.span_hi, hle, ↓reduceIte, ih]
        congr 1
        simp only [RamEntry.span, Span.mk.injEq, true_and]
        split <;> omega
      · simp [addMemMerge, absorb, hle, ih]

theorem addMemInsert_ne_nil (start size : Nat) (l : List RamEntry) : addMemInsert start size l ≠ [] := by
  cases l with
  | nil => simp [addMemInsert]
  | cons r l => simp only [addMemInsert]; split <;> simp

/-- `add_mem()` は、一覧が満杯のときに限り `crash()` し、そうでなければ範囲を併合した一覧を返す。 -/
theorem addMem_spec {l : List RamEntry} (h : Separated (spans l)) (start size : Nat) :
    (∃ l', addMem l start size = .ok l' ∧ Separated (spans l') ∧
      freeSet l' = freeSet l ∪ Set.Ico start (start + size) ∧
      ∀ b, start + size ≤ b → (∀ r ∈ l, r.addr + r.size ≤ b) → ∀ r ∈ l', r.addr + r.size ≤ b) ∨
    (addMem l start size = .error .ramEntryArrayOverflow ∧ 0 < size ∧ ramListSize l > maxRamListSize - 16) := by
  by_cases hsize : size = 0
  · left
    subst hsize
    exact ⟨l, by simp [addMem], h, by simp, fun b _ hb => hb⟩
  have hpos : 0 < size := Nat.pos_of_ne_zero hsize
  by_cases hfull : ramListSize l > maxRamListSize - 16
  · exact Or.inr ⟨by simp [addMem, hpos, hfull], hpos, hfull⟩
  left
  obtain ⟨r, rest, hr⟩ := List.exists_cons_of_ne_nil (addMemInsert_ne_nil start size l)
  have hins : insertByLo ⟨start, start + size⟩ (spans l) = r.span :: spans rest := by
    rw [← spans_addMemInsert, hr]; rfl
  have hsort : SortedByLo (r.span :: spans rest) := by
    rw [← hins]; exact sortedByLo_insertByLo _ h.sortedByLo
  have hmem : ∀ s ∈ r.span :: spans rest, s = ⟨start, start + size⟩ ∨ s ∈ spans l := by
    intro s hs; rw [← hins] at hs; exact mem_insertByLo.mp hs
  refine ⟨addMemMerge r rest, by simp [addMem, hpos, hfull, hr], ?_, ?_, ?_⟩
  · rw [spans_addMemMerge]
    refine separated_absorb ?_ hsort
    intro s hs
    rcases hmem s hs with rfl | hs
    · show start < start + size; omega
    · exact h.pos s hs
  · rw [freeSet, spans_addMemMerge, covered_absorb hsort, ← hins, covered_insertByLo]; rfl
  · intro b hb hl x hx
    have hx' : x.span ∈ absorb r.span (spans rest) := by
      rw [← spans_addMemMerge]; exact List.mem_map_of_mem hx
    refine hi_le_of_mem_absorb (b := b) ?_ hx'
    intro s hs
    rcases hmem s hs with rfl | hs
    · exact hb
    · obtain ⟨y, hy, rfl⟩ := List.mem_map.mp hs
      exact hl y hy

theorem addMem_wf {l l' : List RamEntry} {start size : Nat} (h : RamWF l) (hb : start + size ≤ 2 ^ 32)
    (hl : addMem l start size = .ok l') :
    RamWF l' ∧ freeSet l' = freeSet l ∪ Set.Ico start (start + size) := by
  rcases addMem_spec h.sep start size with ⟨l₁, hl₁, hsep, hfree, hbound⟩ | ⟨herr, _⟩
  · rw [hl] at hl₁; cases hl₁
    exact ⟨⟨hsep, hbound _ hb h.bound⟩, hfree⟩
  · rw [hl] at herr; cases herr

/-! ## `alloc_ram` が `ram_list` を歩く繰り返し -/

/-- 項目の途中を切り取るとき、`add_mem()` は後ろの残りをその項目のすぐ後に置く。 -/
theorem addMem_split {pre rest : List RamEntry} {r : RamEntry} {addr stop : Nat}
    (h : RamWF (pre ++ r :: rest)) (h1 : r.addr < addr) (h2 : addr < stop) (h3 : stop < r.addr + r.size) :
    addMem (pre ++ ⟨r.addr, addr - r.addr⟩ :: rest) stop (r.addr + r.size - stop) =
        .ok (pre ++ ⟨r.addr, addr - r.addr⟩ :: ⟨stop, r.addr + r.size - stop⟩ :: rest) ∨
      (addMem (pre ++ ⟨r.addr, addr - r.addr⟩ :: rest) stop (r.addr + r.size - stop) =
          .error .ramEntryArrayOverflow ∧ ramListSize (pre ++ r :: rest) > maxRamListSize - 16) := by
  have hleft := h.shrink (q := ⟨r.addr, addr - r.addr⟩) (by simp; omega) le_rfl (by simp; omega)
  have hright := h.shrink (q := ⟨stop, r.addr + r.size - stop⟩) (by simp; omega) (by simp; omega) (by simp; omega)
  rcases addMem_spec hleft.sep stop (r.addr + r.size - stop) with ⟨l', hl', hsep, hfree, _⟩ | ⟨herr, _, hfull⟩
  · left
    rw [hl']
    congr 1
    -- 間を空けた並びは覆う集合で決まるので、並びの形は集合の計算から決まる。
    refine spans_injective (hsep.ext ?_ ?_)
    · have hs := hleft.sep
      have ht := hright.sep
      simp only [spans_append, spans_cons] at hs ht ⊢
      refine hs.left.append (.cons hs.right.head_pos ?_ ht.right) ?_
      · intro t ht'
        rcases List.mem_cons.mp ht' with rfl | ht'
        · simp; omega
        · exact hs.right.head_lt t ht'
      · intro a ha b hb
        rcases List.mem_cons.mp hb with rfl | hb
        · exact hs.cross a ha _ (by simp)
        · exact ht.cross a ha b hb
    · change freeSet l' = _
      rw [hfree]
      ext x
      simp only [freeSet, spans_append, spans_cons, covered_append, covered_cons, Set.mem_union,
        Span.mem_toSet, RamEntry.span_lo, RamEntry.span_hi, Set.mem_Ico]
      tauto
  · exact Or.inr ⟨herr, by simpa [ramListSize] using hfull⟩

section

variable {addr stop : Nat}

theorem allocRamWalk_done (fuel : Nat) (l : List RamEntry) :
    allocRamWalk addr stop fuel l.length l = .ok l := by
  cases fuel with
  | zero => rfl
  | succ fuel => simp [allocRamWalk]

theorem allocRamWalk_skip {pre rest : List RamEntry} {r : RamEntry} (fuel : Nat)
    (h : r.addr + r.size ≤ addr ∨ stop < r.addr) (hle : addr ≤ stop) (hpos : 0 < r.size) :
    allocRamWalk addr stop (fuel + 1) pre.length (pre ++ r :: rest) =
      allocRamWalk addr stop fuel (pre ++ [r]).length (pre ++ [r] ++ rest) := by
  have hc : ¬ ((addr ≤ r.addr ∧ r.addr < stop) ∨ (r.addr ≤ addr ∧ addr < r.addr + r.size) ∨
      (r.addr ≤ stop ∧ stop < r.addr + r.size)) := by omega
  simp [allocRamWalk, hc]

theorem allocRamWalk_erase {pre rest : List RamEntry} {r : RamEntry} (fuel : Nat)
    (h1 : addr ≤ r.addr) (h2 : r.addr + r.size ≤ stop) (hpos : 0 < r.size) :
    allocRamWalk addr stop (fuel + 1) pre.length (pre ++ r :: rest) =
      allocRamWalk addr stop fuel pre.length (pre ++ rest) := by
  have hc : (addr ≤ r.addr ∧ r.addr < stop) := by omega
  have he : (if r.addr + r.size < stop then stop else r.addr + r.size) = stop := by split <;> omega
  have hs : (if addr < r.addr then addr else r.addr) = addr := by split <;> omega
  simp [allocRamWalk, hc, he, hs, List.eraseIdx_append_of_length_le]

theorem allocRamWalk_left {pre rest : List RamEntry} {r : RamEntry} (fuel : Nat)
    (h1 : addr ≤ r.addr) (h2 : r.addr ≤ stop) (h3 : stop < r.addr + r.size) :
    allocRamWalk addr stop (fuel + 1) pre.length (pre ++ r :: rest) =
      allocRamWalk addr stop fuel (pre ++ [(⟨stop, r.addr + r.size - stop⟩ : RamEntry)]).length
        (pre ++ [⟨stop, r.addr + r.size - stop⟩] ++ rest) := by
  have hc : r.addr ≤ stop ∧ stop < r.addr + r.size := ⟨h2, h3⟩
  have he : (if r.addr + r.size < stop then stop else r.addr + r.size) = r.addr + r.size := by split <;> omega
  have hs : (if addr < r.addr then addr else r.addr) = addr := by split <;> omega
  have hne : stop ≠ r.addr + r.size := by omega
  simp [allocRamWalk, hc, he, hs, hne]

theorem allocRamWalk_right {pre rest : List RamEntry} {r : RamEntry} (fuel : Nat)
    (h1 : r.addr < addr) (h2 : addr < r.addr + r.size) (h3 : r.addr + r.size ≤ stop) :
    allocRamWalk addr stop (fuel + 1) pre.length (pre ++ r :: rest) =
      allocRamWalk addr stop fuel (pre ++ [(⟨r.addr, addr - r.addr⟩ : RamEntry)]).length
        (pre ++ [⟨r.addr, addr - r.addr⟩] ++ rest) := by
  have hc : r.addr ≤ addr ∧ addr < r.addr + r.size := ⟨h1.le, h2⟩
  have he : (if r.addr + r.size < stop then stop else r.addr + r.size) = stop := by split <;> omega
  have hs : (if addr < r.addr then addr else r.addr) = r.addr := by split <;> omega
  have hne : addr ≠ r.addr := by omega
  simp [allocRamWalk, hc, he, hs, hne]

theorem allocRamWalk_split {pre rest : List RamEntry} {r : RamEntry} (fuel : Nat)
    (h1 : r.addr < addr) (h2 : addr ≤ stop) (h3 : stop < r.addr + r.size) (hb : r.addr + r.size ≤ 2 ^ 32) :
    allocRamWalk addr stop (fuel + 1) pre.length (pre ++ r :: rest) =
      (addMem (pre ++ ⟨r.addr, addr - r.addr⟩ :: rest) stop (r.addr + r.size - stop)).bind
        (allocRamWalk addr stop fuel (pre.length + 1)) := by
  have hc : r.addr ≤ addr ∧ addr < r.addr + r.size := by omega
  have he : (if r.addr + r.size < stop then stop else r.addr + r.size) = r.addr + r.size := by split <;> omega
  have hs : (if addr < r.addr then addr else r.addr) = r.addr := by split <;> omega
  have hne : addr ≠ r.addr := by omega
  have hne' : r.addr + r.size ≠ stop := by omega
  have hw : wrap32 stop = stop := wrap32_of_lt (by omega)
  have hw' : wrap32 (r.addr + r.size - stop) = r.addr + r.size - stop := wrap32_of_lt (by omega)
  simp [allocRamWalk, hc, he, hs, hne, hne', hw, hw', bind]

/-- 残りの項目がすべて取り除く範囲より後ろにあれば、繰り返しは何も変えない。 -/
theorem allocRamWalk_beyond (hle : addr ≤ stop) (rest : List RamEntry) :
    ∀ (pre : List RamEntry) (fuel : Nat), (∀ r ∈ rest, stop < r.addr ∧ 0 < r.size) →
    allocRamWalk addr stop fuel pre.length (pre ++ rest) = .ok (pre ++ rest) := by
  induction rest with
  | nil => intro pre fuel _; simpa using allocRamWalk_done fuel pre
  | cons r rest ih =>
      intro pre fuel h
      cases fuel with
      | zero => rfl
      | succ fuel =>
          have hr := h r (by simp)
          rw [allocRamWalk_skip fuel (Or.inr hr.1) hle hr.2,
            ih _ _ (fun x hx => h x (by simp [hx]))]
          simp

/-- 取り除きの結果。満杯の一覧で項目を二つに分けるときだけ `crash()` する。 -/
def WalkResult (res : Except Crash (List RamEntry)) (l : List RamEntry) (target : List (Span Nat)) : Prop :=
  (∃ l', res = .ok l' ∧ spans l' = target) ∨
    (res = .error .ramEntryArrayOverflow ∧ ramListSize l > maxRamListSize - 16)

theorem WalkResult.mono {res : Except Crash (List RamEntry)} {l l' : List RamEntry} {t t' : List (Span Nat)}
    (h : WalkResult res l t) (hl : l.length ≤ l'.length) (ht : t = t') : WalkResult res l' t' := by
  subst ht
  rcases h with h | ⟨he, hf⟩
  · exact Or.inl h
  · refine Or.inr ⟨he, ?_⟩
    simp only [ramListSize] at hf ⊢; omega

/-- 空でない範囲を取り除く繰り返しは、残りの項目からその範囲を切り抜く。 -/
theorem allocRamWalk_carve (hcut : addr < stop) (rest : List RamEntry) :
    ∀ (pre : List RamEntry) (fuel : Nat), RamWF (pre ++ rest) → 2 * rest.length + 1 ≤ fuel →
    WalkResult (allocRamWalk addr stop fuel pre.length (pre ++ rest)) (pre ++ rest)
      (spans pre ++ (spans rest).flatMap (Span.carve ⟨addr, stop⟩)) := by
  induction rest with
  | nil =>
      intro pre fuel _ _
      exact Or.inl ⟨pre, by simpa using allocRamWalk_done fuel pre, by simp⟩
  | cons r rest ih =>
      intro pre fuel hwf hfuel
      simp only [List.length_cons] at hfuel
      obtain ⟨fuel, rfl⟩ : ∃ f, fuel = f + 1 := ⟨fuel - 1, by omega⟩
      have hpos := hwf.size_pos (r := r) (by simp)
      have hbound := hwf.bound r (by simp)
      -- 先頭の項目を空でない項目 `r'` に狭めて次へ進む周の、共通の議論。
      have next : ∀ r' : RamEntry, 0 < r'.size → r.addr ≤ r'.addr → r'.addr + r'.size ≤ r.addr + r.size →
          Span.carve ⟨addr, stop⟩ r.span = [r'.span] →
          WalkResult (allocRamWalk addr stop fuel (pre ++ [r']).length (pre ++ [r'] ++ rest)) (pre ++ r :: rest)
            (spans pre ++ (spans (r :: rest)).flatMap (Span.carve ⟨addr, stop⟩)) := by
        intro r' h1 h2 h3 hcarve
        have hwf' : RamWF (pre ++ [r'] ++ rest) := by simpa using hwf.shrink h1 h2 h3
        exact (ih (pre ++ [r']) fuel hwf' (by omega)).mono (by simp) (by simp [hcarve])
      rcases Nat.lt_or_ge stop r.addr with hbefore | hbefore
      · rw [allocRamWalk_skip fuel (Or.inr hbefore) hcut.le hpos]
        exact next r hpos le_rfl le_rfl
          (Span.carve_eq_self (by simp; omega) hcut.le (Or.inr (by simp; omega)))
      rcases Nat.lt_or_ge addr (r.addr + r.size) with hafter | hafter
      · rcases Nat.lt_or_ge r.addr addr with hlo | hlo
        · rcases Nat.lt_or_ge stop (r.addr + r.size) with hhi | hhi
          · rw [allocRamWalk_split fuel hlo hcut.le hhi hbound]
            have hbeyond := hwf.beyond
            rcases addMem_split hwf hlo hcut hhi with hok | ⟨herr, hfull⟩
            · rw [hok]
              left
              obtain ⟨fuel, rfl⟩ : ∃ f, fuel = f + 1 := ⟨fuel - 1, by omega⟩
              have hskip := @allocRamWalk_left addr stop (pre ++ [⟨r.addr, addr - r.addr⟩]) rest
                ⟨stop, r.addr + r.size - stop⟩ fuel hcut.le le_rfl (by simp; omega)
              rw [allocRamWalk_beyond hcut.le rest _ _ (fun x hx => ⟨by have := hbeyond x hx; omega,
                hwf.size_pos (by simp [hx])⟩)] at hskip
              refine ⟨_, by simpa [Except.bind] using hskip, ?_⟩
              have h1 : r.addr + (addr - r.addr) = addr := by omega
              have h2 : stop + (r.addr + r.size - stop) = r.addr + r.size := by omega
              have hcarve : Span.carve ⟨addr, stop⟩ r.span = [⟨r.addr, addr⟩, ⟨stop, r.addr + r.size⟩] :=
                Span.carve_inside hlo hcut.le hhi
              have hrest : (spans rest).flatMap (Span.carve ⟨addr, stop⟩) = spans rest := by
                refine flatMap_carve_eq_self hcut.le (fun t ht => hwf.sep.pos t (by simp [ht])) ?_
                intro t ht
                obtain ⟨x, hx, rfl⟩ := List.mem_map.mp ht
                have := hbeyond x hx
                exact Or.inr (by simp; omega)
              rw [spans_cons r rest, List.flatMap_cons, hcarve, hrest]
              simp [RamEntry.span, h1, h2]
            · rw [herr]; exact Or.inr ⟨rfl, hfull⟩
          · rw [allocRamWalk_right fuel hlo hafter hhi]
            refine next ⟨r.addr, addr - r.addr⟩ (by simp; omega) le_rfl (by simp; omega) ?_
            have h1 : r.addr + (addr - r.addr) = addr := by omega
            rw [Span.carve_right (c := ⟨addr, stop⟩) (s := r.span) hlo hafter.le hhi]
            simp only [RamEntry.span, h1]
        · rcases Nat.lt_or_ge stop (r.addr + r.size) with hhi | hhi
          · rw [allocRamWalk_left fuel hlo hbefore hhi]
            refine next ⟨stop, r.addr + r.size - stop⟩ (by simp; omega) hbefore (by simp; omega) ?_
            have h1 : stop + (r.addr + r.size - stop) = r.addr + r.size := by omega
            rw [Span.carve_left (c := ⟨addr, stop⟩) (s := r.span) hlo hbefore hhi]
            simp only [RamEntry.span, h1]
          · rw [allocRamWalk_erase fuel hlo hhi hpos]
            refine (ih pre fuel hwf.erase (by omega)).mono (by simp) ?_
            rw [spans_cons, List.flatMap_cons, Span.carve_whole (c := ⟨addr, stop⟩) (s := r.span) hlo hhi, List.nil_append]
      · rw [allocRamWalk_skip fuel (Or.inl hafter) hcut.le hpos]
        exact next r hpos le_rfl le_rfl
          (Span.carve_eq_self (by simp; omega) hcut.le (Or.inl (by simp; omega)))

/-- 空の範囲を取り除く繰り返しは、一覧を変えない。項目の途中では、いったん分けた項目を `add_mem()` がつなぎ直す。 -/
theorem allocRamWalk_empty (rest : List RamEntry) :
    ∀ (pre : List RamEntry) (fuel : Nat), RamWF (pre ++ rest) →
    WalkResult (allocRamWalk addr addr fuel pre.length (pre ++ rest)) (pre ++ rest) (spans (pre ++ rest)) := by
  induction rest with
  | nil =>
      intro pre fuel _
      exact Or.inl ⟨pre, by simpa using allocRamWalk_done fuel pre, by simp⟩
  | cons r rest ih =>
      intro pre fuel hwf
      cases fuel with
      | zero => exact Or.inl ⟨_, rfl, rfl⟩
      | succ fuel =>
          have hpos := hwf.size_pos (r := r) (by simp)
          have hwf' : RamWF (pre ++ [r] ++ rest) := by simpa using hwf
          have hnext : WalkResult _ (pre ++ r :: rest) (spans (pre ++ r :: rest)) :=
            (ih (pre ++ [r]) fuel hwf').mono (by simp) (by simp)
          by_cases hout : r.addr + r.size ≤ addr ∨ addr < r.addr
          · rw [allocRamWalk_skip fuel hout le_rfl hpos]; exact hnext
          · rcases Nat.eq_or_lt_of_le (show r.addr ≤ addr by omega) with rfl | hlo
            · rw [allocRamWalk_left fuel le_rfl le_rfl (by omega)]
              simpa using hnext
            · rw [allocRamWalk_split fuel hlo le_rfl (by omega) (hwf.bound r (by simp))]
              have hleft := hwf.shrink (q := ⟨r.addr, addr - r.addr⟩) (by simp; omega) le_rfl (by simp; omega)
              rcases addMem_spec hleft.sep addr (r.addr + r.size - addr) with ⟨l', hl', hsep, hfree, _⟩ | ⟨herr, _, hf⟩
              · have heq : l' = pre ++ r :: rest := by
                  refine spans_injective (hsep.ext hwf.sep ?_)
                  change freeSet l' = _
                  rw [hfree]
                  ext x
                  simp only [freeSet, spans_append, spans_cons, covered_append, covered_cons, Set.mem_union,
                    Span.mem_toSet, RamEntry.span_lo, RamEntry.span_hi, Set.mem_Ico]
                  constructor
                  · rintro ((h | h | h) | h)
                    · exact Or.inl h
                    · exact Or.inr (Or.inl (by omega))
                    · exact Or.inr (Or.inr h)
                    · exact Or.inr (Or.inl (by omega))
                  · rintro (h | h | h)
                    · exact Or.inl (Or.inl h)
                    · by_cases hx : x < addr
                      · exact Or.inl (Or.inr (Or.inl (by omega)))
                      · exact Or.inr (by omega)
                    · exact Or.inl (Or.inr (Or.inr h))
                rw [hl', heq]
                simpa [Except.bind] using hnext
              · rw [herr]
                exact Or.inr ⟨rfl, by simpa [ramListSize] using hf⟩

/-- `alloc_ram()` の繰り返しは、整った一覧から範囲を取り除いた整った一覧を返すか、満杯の一覧で `crash()` する。 -/
theorem allocRamWalk_spec {l : List RamEntry} (hwf : RamWF l) (hle : addr ≤ stop) {fuel : Nat}
    (hfuel : 2 * l.length + 1 ≤ fuel) :
    (∃ l', allocRamWalk addr stop fuel 0 l = .ok l' ∧ RamWF l' ∧
      freeSet l' = freeSet l \ Set.Ico addr stop) ∨
    (allocRamWalk addr stop fuel 0 l = .error .ramEntryArrayOverflow ∧ ramListSize l > maxRamListSize - 16) := by
  rcases Nat.eq_or_lt_of_le hle with rfl | hcut
  · rcases allocRamWalk_empty l [] fuel hwf with ⟨l', hl', hs⟩ | h
    · have : l' = l := spans_injective (by simpa using hs)
      subst this
      exact Or.inl ⟨l', hl', hwf, by simp⟩
    · exact Or.inr h
  · rcases allocRamWalk_carve hcut l [] fuel hwf hfuel with ⟨l', hl', hs⟩ | h
    · simp only [spans_nil, List.nil_append] at hs
      refine Or.inl ⟨l', hl', ⟨by rw [hs]; exact hwf.sep.carve hcut, ?_⟩, ?_⟩
      · intro r hr
        have hr' : r.span ∈ (spans l).flatMap (Span.carve ⟨addr, stop⟩) := by
          rw [← hs]; exact List.mem_map_of_mem hr
        obtain ⟨s, hs', hrs⟩ := List.mem_flatMap.mp hr'
        obtain ⟨x, hx, rfl⟩ := List.mem_map.mp hs'
        exact (Span.carve_bounds hrs).2.trans (hwf.bound x hx)
      · rw [freeSet, hs, covered_carve]; rfl
    · exact Or.inr h

end

end Imx6Bsp.Startup
