import Imx6Bsp.Lib.Carving
import Imx6Bsp.Pci.Resources

/-!
# PCI の番地の範囲（`pci/server.c`）

`find_ranges()` は、管理者の答えた窓を大きさの昇順に並べて `pci_memory` に写し、窓を一つ見るたびに、それまでの窓を包む範囲をバス 0 の資源と
して作る。`pci_alloc_resource()` は、並んだ窓を順に求めて、最初に渡されたところで止まる。
-/

namespace Imx6Bsp.Pci

open Imx6Bsp.Lib

/-! ## `find_ranges()` -/

/-- `addr_map_t`。 -/
structure AddrMap where
  startCpuAddr : Nat
  endCpuAddr : Nat
  startPciAddr : Nat
  endPciAddr : Nat
deriving DecidableEq, Repr

/-- `find_ranges()` の大域の変数と、メモリについての `reserve_resource()` の引数。 -/
structure Ranges where
  pciMemory : List AddrMap := []
  memCpuLow : Nat := 0xffffffff
  memCpuHigh : Nat := 0
  memPciLow : Nat := 0xffffffff
  memPciHigh : Nat := 0
  seeds : List (Nat × Nat) := []
deriving DecidableEq, Repr

/-- `list->end - list->start`。 -/
def pageSpan (page : Nat × Nat) : Nat := (page.2 + 2 ^ 64 - page.1) % 2 ^ 64

/-- 大きさの昇順に並べた窓。 -/
def sortPages (pages : List (Nat × Nat)) : List (Nat × Nat) :=
  bubbleSort (fun a b => pageSpan a ≤ pageSpan b) pages.length pages

/-- 窓一つを写し、範囲を広げる。 -/
def Ranges.addPage (mapAddr : Nat → BitVec 32 → Nat) (r : Ranges) (page : Nat × Nat) : Ranges :=
  let m : AddrMap := ⟨page.1, page.2, mapAddr page.1 (pciMemSpace ||| pciMapAddrPci), mapAddr page.2 (pciMemSpace ||| pciMapAddrPci)⟩
  let r := { r with pciMemory := r.pciMemory ++ [m] }
  let r := if page.1 < r.memCpuLow then { r with memCpuLow := page.1, memPciLow := m.startPciAddr } else r
  let r := if page.2 > r.memCpuHigh then { r with memCpuHigh := page.2, memPciHigh := m.endPciAddr } else r
  { r with seeds := r.seeds ++ [(r.memCpuLow, r.memCpuHigh)] }

/-- `find_ranges()` のメモリのところ。`pages` は `rsrcdbmgr_query()` の答えた窓で、失敗すれば空である。 -/
def findRanges (mapAddr : Nat → BitVec 32 → Nat) (pages : List (Nat × Nat)) : Ranges :=
  (sortPages pages).foldl (Ranges.addPage mapAddr) {}

/-! ## 包む範囲 -/

/-- 窓を包む範囲の始まり。窓がなければ `0xffffffff` である。 -/
def hullLow (pages : List (Nat × Nat)) : Nat := pages.foldl (fun low page => min low page.1) 0xffffffff

/-- 窓を包む範囲の終わり。 -/
def hullHigh (pages : List (Nat × Nat)) : Nat := pages.foldl (fun high page => max high page.2) 0

/-- 番地 `x` は範囲の中にある。 -/
def InRange (x : Nat) (range : Nat × Nat) : Prop := range.1 ≤ x ∧ x ≤ range.2

section

variable {pages : List (Nat × Nat)} {page : Nat × Nat} {mapAddr : Nat → BitVec 32 → Nat}

theorem hullLow_concat (pages : List (Nat × Nat)) (page : Nat × Nat) : hullLow (pages ++ [page]) = min (hullLow pages) page.1 := by
  rw [hullLow, List.foldl_concat, ← hullLow]

theorem hullHigh_concat (pages : List (Nat × Nat)) (page : Nat × Nat) : hullHigh (pages ++ [page]) = max (hullHigh pages) page.2 := by
  rw [hullHigh, List.foldl_concat, ← hullHigh]

/-- 包む範囲の始まりは、下限のうちで最大である。 -/
theorem le_hullLow {n : Nat} : n ≤ hullLow pages ↔ n ≤ 0xffffffff ∧ ∀ page ∈ pages, n ≤ page.1 := by
  induction pages using List.reverseRecOn with
  | nil => simp [hullLow]
  | append_singleton pages page ih =>
      rw [hullLow_concat, Nat.le_min, ih]
      simp only [List.mem_append, List.mem_singleton, or_imp, forall_and, forall_eq]
      tauto

/-- 窓を順に見た後の値。 -/
structure Ranges.Covers (mapAddr : Nat → BitVec 32 → Nat) (pages : List (Nat × Nat)) (r : Ranges) : Prop where
  pciMemory : r.pciMemory = pages.map fun page =>
    ⟨page.1, page.2, mapAddr page.1 (pciMemSpace ||| pciMapAddrPci), mapAddr page.2 (pciMemSpace ||| pciMapAddrPci)⟩
  low : r.memCpuLow = hullLow pages
  high : r.memCpuHigh = hullHigh pages
  pciLow : r.memPciLow = if hullLow pages < 0xffffffff then mapAddr (hullLow pages) (pciMemSpace ||| pciMapAddrPci) else 0xffffffff
  pciHigh : r.memPciHigh = if 0 < hullHigh pages then mapAddr (hullHigh pages) (pciMemSpace ||| pciMapAddrPci) else 0
  seeds : r.seeds = (List.range pages.length).map fun k => (hullLow (pages.take (k + 1)), hullHigh (pages.take (k + 1)))

/-- 窓一つを見た後の欄。 -/
theorem Ranges.addPage_fields (mapAddr : Nat → BitVec 32 → Nat) (r : Ranges) (page : Nat × Nat) :
    (r.addPage mapAddr page).memCpuLow = min r.memCpuLow page.1 ∧ (r.addPage mapAddr page).memCpuHigh = max r.memCpuHigh page.2 ∧
      (r.addPage mapAddr page).memPciLow =
        (if page.1 < r.memCpuLow then mapAddr page.1 (pciMemSpace ||| pciMapAddrPci) else r.memPciLow) ∧
      (r.addPage mapAddr page).memPciHigh =
        (if page.2 > r.memCpuHigh then mapAddr page.2 (pciMemSpace ||| pciMapAddrPci) else r.memPciHigh) ∧
      (r.addPage mapAddr page).seeds = r.seeds ++ [(min r.memCpuLow page.1, max r.memCpuHigh page.2)] := by
  by_cases hl : page.1 < r.memCpuLow
  · by_cases hh : page.2 > r.memCpuHigh
    · simp [Ranges.addPage, hl, hh, Nat.min_eq_right (le_of_lt hl), Nat.max_eq_right (le_of_lt hh)]
    · simp [Ranges.addPage, hl, hh, Nat.min_eq_right (le_of_lt hl), Nat.max_eq_left (Nat.not_lt.mp hh)]
  · by_cases hh : page.2 > r.memCpuHigh
    · simp [Ranges.addPage, hl, hh, Nat.min_eq_left (Nat.not_lt.mp hl), Nat.max_eq_right (le_of_lt hh)]
    · simp [Ranges.addPage, hl, hh, Nat.min_eq_left (Nat.not_lt.mp hl), Nat.max_eq_left (Nat.not_lt.mp hh)]

theorem Ranges.Covers.addPage {r : Ranges} (h : r.Covers mapAddr pages) (page : Nat × Nat) :
    (r.addPage mapAddr page).Covers mapAddr (pages ++ [page]) := by
  obtain ⟨hlow, hhigh, hpciLow, hpciHigh, hseeds⟩ := Ranges.addPage_fields mapAddr r page
  rw [h.low] at hlow hpciLow hseeds
  rw [h.high] at hhigh hpciHigh hseeds
  refine ⟨?_, hlow.trans (hullLow_concat ..).symm, hhigh.trans (hullHigh_concat ..).symm, ?_, ?_, ?_⟩
  · rw [List.map_append, ← h.pciMemory]
    simp only [Ranges.addPage]
    split <;> split <;> rfl
  · have hcap : hullLow pages ≤ 0xffffffff := (le_hullLow.mp le_rfl).1
    rw [hpciLow, hullLow_concat, h.pciLow]
    by_cases hl : page.1 < hullLow pages
    · rw [if_pos hl, Nat.min_eq_right (le_of_lt hl), if_pos (by omega)]
    · rw [if_neg hl, Nat.min_eq_left (Nat.not_lt.mp hl)]
  · rw [hpciHigh, hullHigh_concat, h.pciHigh]
    by_cases hh : page.2 > hullHigh pages
    · rw [if_pos hh, Nat.max_eq_right (le_of_lt hh), if_pos (by omega)]
    · rw [if_neg hh, Nat.max_eq_left (Nat.not_lt.mp hh)]
  · rw [hseeds, h.seeds, List.length_append, List.length_singleton, List.range_succ, List.map_append, List.map_singleton,
      List.take_of_length_le (by simp), hullLow_concat, hullHigh_concat]
    congr 1
    refine List.map_congr_left fun k hk => ?_
    rw [List.take_append_of_le_length (by have := List.mem_range.mp hk; omega)]

theorem findRanges_covers (mapAddr : Nat → BitVec 32 → Nat) (pages : List (Nat × Nat)) :
    (findRanges mapAddr pages).Covers mapAddr (sortPages pages) := by
  unfold findRanges
  induction sortPages pages using List.reverseRecOn with
  | nil => exact ⟨rfl, rfl, rfl, rfl, rfl, rfl⟩
  | append_singleton l page ih =>
      rw [List.foldl_concat]
      exact ih.addPage page

theorem sortPages_perm (pages : List (Nat × Nat)) : (sortPages pages).Perm pages := bubbleSort_perm ..

theorem sortPages_pairwise (pages : List (Nat × Nat)) : (sortPages pages).Pairwise fun a b => pageSpan a ≤ pageSpan b :=
  bubbleSort_pairwise (fun a b => le_total (pageSpan a) (pageSpan b)) (fun _ _ _ h h' => h.trans h') le_rfl

end

/-! ## 最初に渡された要求 -/

/-- 番号 `i` から順に求めて、最初に渡された区画の始まり。 -/
def firstGrant (ans : Grants) : Nat → List RsrcRequest → Option Nat
  | _, [] => none
  | i, r :: rs => (ans i r).or (firstGrant ans (i + 1) rs)

/-- `pci_alloc_resource()` が順に出す要求。バス 0 のほかでは、一度断られると続けない。 -/
def allocRequests (p : Platform) (reg : BaseRegister) (align bus : Nat) : List RsrcRequest :=
  let length := requestLength reg.size
  let align := if align ≠ 0 then align else length
  if reg.isMem then
    (if bus = 0 then p.pages else p.pages.take 1).map fun page =>
      ⟨(memRange p reg.memKind bus page).1, (memRange p reg.memKind bus page).2, length, align⟩
  else [⟨(ioRange p bus).1, (ioRange p bus).2, length, align⟩]

section

variable {p : Platform} {reg : BaseRegister} {align bus : Nat} {ans : Grants}

theorem firstGrant_eq_some {i start : Nat} {reqs : List RsrcRequest} (h : firstGrant ans i reqs = some start) :
    ∃ k r, reqs[k]? = some r ∧ ans (i + k) r = some start ∧ ∀ j < k, ∀ r', reqs[j]? = some r' → ans (i + j) r' = none := by
  induction reqs generalizing i with
  | nil => cases h
  | cons r rs ih =>
      rw [firstGrant] at h
      cases hr : ans i r with
      | some s =>
          rw [hr, Option.some_or] at h
          exact ⟨0, r, rfl, hr.trans h, fun j hj => absurd hj (Nat.not_lt_zero j)⟩
      | none =>
          rw [hr, Option.none_or] at h
          obtain ⟨k, r', hk, hans, hbefore⟩ := ih h
          refine ⟨k + 1, r', hk, by rwa [show i + (k + 1) = i + 1 + k by omega], fun j hj r'' hj' => ?_⟩
          cases j with
          | zero =>
              obtain rfl : r = r'' := Option.some.inj hj'
              exact hr
          | succ j =>
              rw [show i + (j + 1) = i + 1 + j by omega]
              exact hbefore j (by omega) r'' hj'

theorem firstGrant_eq_none {i : Nat} {reqs : List RsrcRequest} :
    firstGrant ans i reqs = none ↔ ∀ j r, reqs[j]? = some r → ans (i + j) r = none := by
  induction reqs generalizing i with
  | nil => simp [firstGrant]
  | cons r rs ih =>
      rw [firstGrant, Option.or_eq_none_iff, ih]
      refine ⟨fun h j r' hj => ?_, fun h => ⟨h 0 r rfl, fun j r' hj => ?_⟩⟩
      · cases j with
        | zero =>
            obtain rfl : r = r' := Option.some.inj hj
            exact h.1
        | succ j =>
            rw [show i + (j + 1) = i + 1 + j by omega]
            exact h.2 j r' hj
      · rw [show i + 1 + j = i + (j + 1) by omega]
        exact h (j + 1) r' hj

/-- バス 0 のメモリの繰り返しは、失敗しない。 -/
theorem memLoop_zero (kind : ResKind) (length align : Nat) (pages : List (Nat × Nat)) (i prev : Nat) :
    ∃ a, memLoop p kind 0 length align ans pages i prev = .ok (a, firstGrant ans i (pages.map fun page =>
        ⟨(memRange p kind 0 page).1, (memRange p kind 0 page).2, length, align⟩)) ∧
      ∀ start, firstGrant ans i (pages.map fun page => ⟨(memRange p kind 0 page).1, (memRange p kind 0 page).2, length, align⟩) =
        some start → a = start := by
  induction pages generalizing i prev with
  | nil => exact ⟨prev, rfl, fun _ h => by cases h⟩
  | cons page pages ih =>
      rw [List.map_cons, firstGrant, memLoop]
      cases hans : ans i ⟨(memRange p kind 0 page).1, (memRange p kind 0 page).2, length, align⟩ with
      | some start => exact ⟨start, rfl, fun _ h => Option.some.inj h⟩
      | none => exact ih (i + 1) _

/-- バス 0 のほかでは、最初の窓だけを求める。 -/
theorem memLoop_bus (kind : ResKind) (length align : Nat) (pages : List (Nat × Nat)) (hbus : bus ≠ 0) :
    memLoop p kind bus length align ans pages 0 0 =
      if pages = [] then .ok (0, none)
      else (firstGrant ans 0 ((pages.take 1).map fun page =>
        ⟨(memRange p kind bus page).1, (memRange p kind bus page).2, length, align⟩)).elim (.error .einval) fun s => .ok (s, some s) := by
  cases pages with
  | nil => rfl
  | cons page pages =>
      rw [if_neg (List.cons_ne_nil _ _), List.take_succ_cons, List.take_zero, List.map_singleton, firstGrant, firstGrant, Option.or_none,
        memLoop]
      cases hans : ans 0 ⟨(memRange p kind bus page).1, (memRange p kind bus page).2, length, align⟩ with
      | some start => rfl
      | none => exact if_pos hbus

/-- 旗を残した番地。 -/
def BaseRegister.kept (r : BaseRegister) : Nat := r.address % if r.isMem then 16 else 4

/-- `pci_alloc_resource()` の結果は、出した要求のうち最初に渡されたもので決まる。 -/
theorem alloc_eq_firstGrant (hoff : has reg.flags pciDeviceEnabled = false) (hbus : bus = 0 ∨ p.findBus bus ≠ none)
    (hspace : reg.isMem = true ∨ has reg.flags pciIoSpace = true) :
    (∀ start, firstGrant ans 0 (allocRequests p reg align bus) = some start →
      pciAllocResource p reg align bus ans = ({ reg with address := reg.kept ||| start }, .ok (some start))) ∧
    (firstGrant ans 0 (allocRequests p reg align bus) = none → reg.isMem = true ∧ (bus = 0 ∨ p.pages = []) →
      (pciAllocResource p reg align bus ans).2 = .ok none) ∧
    (firstGrant ans 0 (allocRequests p reg align bus) = none → ¬(reg.isMem = true ∧ (bus = 0 ∨ p.pages = [])) →
      (pciAllocResource p reg align bus ans).2 = .error .einval) := by
  have hkind : ∀ address, ({ reg with address } : BaseRegister).memKind = reg.memKind := fun _ => rfl
  have hfound : ¬(bus ≠ 0 ∧ p.findBus bus = none) := fun h => hbus.elim h.1 fun hne => hne h.2
  unfold pciAllocResource allocRequests BaseRegister.kept
  rw [hoff, if_neg Bool.false_ne_true, if_neg hfound]
  by_cases hmem : reg.isMem = true
  · simp only [hmem, hkind, if_true, true_and]
    by_cases hzero : bus = 0
    · subst hzero
      obtain ⟨a, hloop, ha⟩ := @memLoop_zero p ans reg.memKind (requestLength reg.size)
        (if align ≠ 0 then align else requestLength reg.size) p.pages 0 0
      rw [hloop]
      refine ⟨fun start h => ?_, fun h _ => ?_, fun _ h => absurd (.inl rfl) h⟩
      · rw [if_pos rfl] at h
        rw [ha start h, h]
      · rw [if_pos rfl] at h
        rw [h]
    · rw [memLoop_bus _ _ _ _ hzero, if_neg hzero]
      by_cases hpages : p.pages = []
      · rw [if_pos hpages, hpages]
        exact ⟨fun start h => (by cases h), fun _ _ => rfl, fun _ h => absurd (.inr rfl) h⟩
      · rw [if_neg hpages]
        refine ⟨fun start h => by rw [h]; rfl, fun _ h => absurd h (not_or.mpr ⟨hzero, hpages⟩), fun h _ => by rw [h]; rfl⟩
  · have hio : has reg.flags pciIoSpace = true := hspace.resolve_left hmem
    simp only [hmem, hio, if_true, Bool.false_eq_true, if_false, false_and, not_false_eq_true, IsEmpty.forall_iff, implies_true, true_and,
      forall_const, firstGrant, Option.or_none, ioAttach]
    cases hans : ans 0 ⟨(ioRange p bus).1, (ioRange p bus).2, requestLength reg.size,
      if align ≠ 0 then align else requestLength reg.size⟩ with
    | some s => exact ⟨fun start h => by rw [Option.some.inj h], fun h => (by cases h)⟩
    | none => exact ⟨fun start h => (by cases h), fun _ => rfl⟩

/-- 割り当てを試みる前に失敗しない。 -/
def Allocatable (p : Platform) (reg : BaseRegister) (bus : Nat) : Prop :=
  (bus = 0 ∨ p.findBus bus ≠ none) ∧ (reg.isMem = true ∨ has reg.flags pciIoSpace = true)

theorem alloc_not_allocatable (hoff : has reg.flags pciDeviceEnabled = false) (h : ¬Allocatable p reg bus) :
    (pciAllocResource p reg align bus ans).2 = .error .einval := by
  unfold pciAllocResource
  rw [hoff, if_neg Bool.false_ne_true]
  by_cases hfound : bus ≠ 0 ∧ p.findBus bus = none
  · rw [if_pos hfound]
  · rw [if_neg hfound]
    have hspace : ¬(reg.isMem = true ∨ has reg.flags pciIoSpace = true) := fun hs =>
      h ⟨by by_contra hn; exact hfound (by simpa [not_or] using hn), hs⟩
    rw [not_or] at hspace
    simp only [if_neg hspace.1, if_neg hspace.2]

variable (p reg align bus ans) in
/-- 使われていないレジスタへの割り当てが成功して区画を記録するのは、出した要求が順に断られた後の最初の承諾に限り、そのとき番地はその区画の
始まりである。区画のないまま成功するのは、バス 0 か窓のない機械のメモリで、要求がすべて断られたときに限る。失敗したときには、何も渡されて
いない。 -/
theorem pciAllocResource_outcome :
    (∀ start, (pciAllocResource p reg align bus ans).2 = .ok (some start) →
      (∃ k r, (allocRequests p reg align bus)[k]? = some r ∧ ans k r = some start ∧
        ∀ j < k, ∀ r', (allocRequests p reg align bus)[j]? = some r' → ans j r' = none) ∧
      (pciAllocResource p reg align bus ans).1 = { reg with address := reg.kept ||| start }) ∧
    ((pciAllocResource p reg align bus ans).2 = .ok none ↔ has reg.flags pciDeviceEnabled = true ∨
      Allocatable p reg bus ∧ (reg.isMem = true ∧ (bus = 0 ∨ p.pages = [])) ∧
        ∀ j r, (allocRequests p reg align bus)[j]? = some r → ans j r = none) ∧
    ∀ e, (pciAllocResource p reg align bus ans).2 = .error e → Allocatable p reg bus →
      ∀ j r, (allocRequests p reg align bus)[j]? = some r → ans j r = none := by
  have hnone : firstGrant ans 0 (allocRequests p reg align bus) = none ↔
      ∀ j r, (allocRequests p reg align bus)[j]? = some r → ans j r = none := by
    rw [firstGrant_eq_none]
    simp only [Nat.zero_add]
  by_cases hoff : has reg.flags pciDeviceEnabled = true
  · have hskip : pciAllocResource p reg align bus ans = (reg, .ok none) := if_pos hoff
    rw [hskip]
    exact ⟨fun start h => (by cases h), ⟨fun _ => .inl hoff, fun _ => rfl⟩, fun e h => (by cases h)⟩
  rw [Bool.not_eq_true] at hoff
  by_cases hall : Allocatable p reg bus
  swap
  · rw [alloc_not_allocatable hoff hall]
    refine ⟨fun start h => (by cases h), ⟨fun h => (by cases h), fun h => ?_⟩, fun e _ h => absurd h hall⟩
    rcases h with h | h
    · rw [hoff] at h
      cases h
    · exact absurd h.1 hall
  obtain ⟨hsome, hempty, hfail⟩ := @alloc_eq_firstGrant p reg align _ ans hoff hall.1 hall.2
  cases hfirst : firstGrant ans 0 (allocRequests p reg align bus) with
  | some start =>
      obtain ⟨k, r, hk, hans, hbefore⟩ := firstGrant_eq_some hfirst
      simp only [Nat.zero_add] at hans hbefore
      rw [hsome start hfirst]
      refine ⟨fun start' h => ?_, ⟨fun h => (by cases h), fun h => ?_⟩, fun e h => (by cases h)⟩
      · cases h
        exact ⟨⟨k, r, hk, hans, hbefore⟩, rfl⟩
      · rcases h with h | h
        · rw [hoff] at h
          cases h
        · rw [h.2.2 k r hk] at hans
          cases hans
  | none =>
      by_cases hfree : reg.isMem = true ∧ (bus = 0 ∨ p.pages = [])
      · rw [hempty hfirst hfree]
        exact ⟨fun start h => (by cases h), ⟨fun _ => .inr ⟨hall, hfree, hnone.mp hfirst⟩, fun _ => rfl⟩, fun e h => (by cases h)⟩
      · rw [hfail hfirst hfree]
        refine ⟨fun start h => (by cases h), ⟨fun h => (by cases h), fun h => ?_⟩, fun e _ _ => hnone.mp hfirst⟩
        rcases h with h | h
        · rw [hoff] at h
          cases h
        · exact absurd h.2.1 hfree

/-- `find_ranges()` が並べた窓から、バス 0 のメモリは最も小さい窓の順に取られる。渡された窓より小さい窓は、すべて先に断られている。 -/
theorem memory_bestFit {mapAddr : Nat → BitVec 32 → Nat} {windows : List (Nat × Nat)}
    (hpages : p.pages = (findRanges mapAddr windows).pciMemory.map fun m => (m.startCpuAddr, m.endCpuAddr))
    (hmem : reg.isMem = true) {start : Nat} (hok : (pciAllocResource p reg align 0 ans).2 = .ok (some start)) :
    let request (page : Nat × Nat) : RsrcRequest := ⟨(memRange p reg.memKind 0 page).1, (memRange p reg.memKind 0 page).2,
      requestLength reg.size, if align ≠ 0 then align else requestLength reg.size⟩
    ∃ k page, p.pages[k]? = some page ∧ page ∈ windows ∧ ans k (request page) = some start ∧
      ∀ small ∈ windows, pageSpan small < pageSpan page → ∃ j < k, p.pages[j]? = some small ∧ ans j (request small) = none := by
  intro request
  have hsorted : p.pages = sortPages windows := by
    rw [hpages, (findRanges_covers mapAddr windows).pciMemory, List.map_map]
    exact List.map_id _
  have hoff : has reg.flags pciDeviceEnabled = false := by
    by_contra h
    rw [Bool.not_eq_false] at h
    rw [show pciAllocResource p reg align 0 ans = (reg, .ok none) from if_pos h] at hok
    cases hok
  have hreqs : allocRequests p reg align 0 = p.pages.map request := by
    rw [allocRequests, if_pos hmem, if_pos rfl]
  obtain ⟨hsome, hempty, hfail⟩ := @alloc_eq_firstGrant p reg align _ ans hoff (.inl rfl) (.inl hmem)
  cases hfirst : firstGrant ans 0 (allocRequests p reg align 0) with
  | none =>
      rw [hempty hfirst ⟨hmem, .inl rfl⟩] at hok
      cases hok
  | some start' =>
      rw [hsome start' hfirst] at hok
      cases hok
      obtain ⟨k, r, hk, hans, hbefore⟩ := firstGrant_eq_some hfirst
      simp only [Nat.zero_add, hreqs, List.getElem?_map] at hans hbefore hk
      obtain ⟨page, hpage, rfl⟩ := Option.map_eq_some_iff.mp hk
      have hin : page ∈ windows := (sortPages_perm windows).mem_iff.mp (hsorted ▸ List.mem_of_getElem? hpage)
      refine ⟨k, page, hpage, hin, hans, fun small hsmall hlt => ?_⟩
      obtain ⟨j, hj⟩ := List.mem_iff_getElem?.mp ((sortPages_perm windows).mem_iff.mpr hsmall)
      rw [← hsorted] at hj
      -- 昇順に並んでいるので、小さい窓は前にある。
      have hjk : j < k := by
        by_contra hn
        rcases Nat.lt_or_eq_of_le (Nat.not_lt.mp hn) with hlt' | heq
        · have hpair := List.pairwise_iff_getElem.mp (hsorted ▸ sortPages_pairwise windows : p.pages.Pairwise _)
          obtain ⟨hk', hpk⟩ := List.getElem?_eq_some_iff.mp hpage
          obtain ⟨hj', hpj⟩ := List.getElem?_eq_some_iff.mp hj
          have := hpair k j hk' hj' hlt'
          rw [hpk, hpj] at this
          omega
        · rw [heq, hj] at hpage
          obtain rfl := Option.some.inj hpage
          exact absurd hlt (lt_irrefl _)
      exact ⟨j, hjk, hj, hbefore j hjk _ (by rw [hj]; rfl)⟩

end

/-- 大きい窓を先に答える管理者。 -/
def sampleWindows : List (Nat × Nat) := [(0x2000000, 0x3ffffff), (0x1000000, 0x10fffff)]

def rangePlatform : Platform where
  findBus := fun _ => none
  name := fun _ _ => ""
  mapAddr := fun a _ => a
  pages := (findRanges (fun a _ => a) sampleWindows).pciMemory.map fun m => (m.startCpuAddr, m.endCpuAddr)
  ioCpuLow := 0
  ioCpuHigh := 0
  hwOverride := false

/-- 小さい窓を断る管理者からは、次の窓の区画を受け取る。 -/
theorem memory_bestFit_sample :
    ∃ (k : Nat) (page : Nat × Nat), rangePlatform.pages[k]? = some page ∧ page ∈ sampleWindows ∧
      ∃ j < k, rangePlatform.pages[j]? = some (0x1000000, 0x10fffff) := by
  have hok : (pciAllocResource rangePlatform { size := 0x1000, flags := pciMemSpace } 0 0
      fun n _ => if n = 1 then some 0x2000000 else none).2 = .ok (some 0x2000000) := rfl
  obtain ⟨k, page, hk, hin, hans, hsmall⟩ := memory_bestFit rfl (by decide) hok
  have hbig : page = (0x2000000, 0x3ffffff) := by
    rcases List.mem_cons.mp hin with h | h
    · exact h
    · obtain rfl := List.mem_singleton.mp h
      have h1 : k = 1 := by
        by_contra hne
        rw [if_neg hne] at hans
        cases hans
      subst h1
      exact absurd hk (by decide)
  obtain ⟨j, hj, hpage, -⟩ := hsmall (0x1000000, 0x10fffff) (by decide) (by rw [hbig]; decide)
  exact ⟨k, page, hk, hin, j, hj, hpage⟩

end Imx6Bsp.Pci
