import Imx6Bsp.Startup.Lemmas.AsPieces

/-!
# `"sysram"` の項目と `ram_list` の一致

カーネルは、空いている番地を `"sysram"` の項目から知る。`add_sysram()` の後、`alloc_ram()` を何度呼んでも、`"sysram"` の
項目が覆う番地の集合は `ram_list` の空いている番地の集合と一致する。
-/

namespace Imx6Bsp.Startup

open Imx6Bsp.Lib

/-! ## `add_sysram` -/

/-- `add_sysram()` を呼ぶときの前提。`ram_list` の番地は、`"ram"` の項目かその子孫に含まれる。 -/
structure SysramReady (s : Ram) : Prop where
  wf : RamWF s.ramList
  owners : OwnersBefore s.asinfo
  fresh : ∀ e ∈ s.asinfo, e.name ≠ "sysram"
  laminar : Laminar s.asinfo "ram"
  inside : ∀ x ∈ freeSet s.ramList, ∃ i e, IsContainer s.asinfo "ram" i e ∧ e.start ≤ x ∧ x ≤ e.stop

/-- 表が `base` に `"sysram"` の項目を加えたもので、その区間が集合 `free` の分割である。 -/
structure SysramOf (base : Asinfo) (free : Set Nat) (as : Asinfo) : Prop where
  shape : ∃ ext, strip as = strip base ++ ext ∧
    ∀ e ∈ ext, e.name = "sysram" ∧ e.start ≤ e.stop ∧ e.stop < 2 ^ 32 ∧ ∃ o < base.length, e.owner = some o
  apart : Apart (sysrams as)
  cover : covered (sysrams as) = free

theorem SysramOf.ok {base as : Asinfo} {free : Set Nat} (hown : OwnersBefore base)
    (hfresh : ∀ e ∈ base, e.name ≠ "sysram") (h : SysramOf base free as) : SysramOk as := by
  obtain ⟨ext, hstrip, hext⟩ := h.shape
  have hplain : ∀ o < base.length, ∃ w : AsinfoEntry, (strip base ++ ext)[o]? = some w ∧ w.name ≠ "sysram" := by
    intro o ho
    have hne := hfresh base[o] (List.getElem_mem ho)
    refine ⟨{ base[o] with attr := {} }, ?_, hne⟩
    rw [List.getElem?_append_left (by rw [strip_length]; exact ho), strip_getElem?, List.getElem?_eq_getElem ho]
    rfl
  rw [← sysramOk_strip, hstrip]
  refine ⟨fun e he o ho => hplain o ?_, fun e he hname => ?_⟩
  · rcases List.mem_append.mp he with he | he
    · obtain ⟨i, hi⟩ := List.mem_iff_getElem?.mp he
      rw [strip_getElem?] at hi
      obtain ⟨e', he', rfl⟩ := Option.map_eq_some_iff.mp hi
      have := hown i e' o he' ho
      have := (List.getElem?_eq_some_iff.mp he').1
      omega
    · obtain ⟨_, _, _, o', ho', hown'⟩ := hext e he
      rw [ho] at hown'; cases hown'; exact ho'
  · rcases List.mem_append.mp he with he | he
    · obtain ⟨e', he', rfl⟩ := List.mem_map.mp he
      exact absurd hname (hfresh e' he')
    · exact ⟨(hext e he).2.1, (hext e he).2.2.1⟩

/-- `ram_list` の項目一つについての `as_add_containing()`。 -/
theorem SysramOf.add {base as : Asinfo} {free : Set Nat} {r : RamEntry} (hown : OwnersBefore base)
    (hlam : Laminar base "ram") (hpos : 0 < r.size) (hbound : r.addr + r.size ≤ 2 ^ 32)
    (hinside : ∀ x ∈ r.span.toSet, ∃ i e, IsContainer base "ram" i e ∧ e.start ≤ x ∧ x ≤ e.stop)
    (hfree : Disjoint free r.span.toSet) (h : SysramOf base free as) :
    SysramOf base (free ∪ r.span.toSet)
      (asAddContaining as (wrap32 r.addr) (wrap32 (r.addr + r.size - 1)) .ram "sysram" "ram").1 := by
  rw [wrap32_of_lt (show r.addr < 2 ^ 32 by omega), wrap32_of_lt (show r.addr + r.size - 1 < 2 ^ 32 by omega)]
  obtain ⟨ext, hstrip, hext⟩ := h.shape
  have hpieces : asPieces as r.addr (r.addr + r.size - 1) "ram" = asPieces base r.addr (r.addr + r.size - 1) "ram" := by
    refine asPieces_append hown hstrip fun e he => ?_
    obtain ⟨hname, hle, hlt, _⟩ := hext e he
    rw [Bool.eq_false_iff, ne_eq, AsinfoEntry.touches_iff hle (by omega)]
    -- 先に加えた項目は `free` に収まり、この範囲とは重ならない。
    have hsub : e.span ∈ sysrams as := by
      rw [← sysrams_strip, hstrip, sysrams_append, List.mem_append]
      exact Or.inr (mem_sysrams.mpr ⟨e, he, hname, rfl⟩)
    rintro ⟨h1, h2⟩
    have hmem : max e.start r.addr ∈ free := by
      rw [← h.cover]
      refine ⟨e.span, hsub, ?_⟩
      simp only [Span.mem_toSet, AsinfoEntry.span]; omega
    refine Set.disjoint_left.mp hfree hmem ?_
    simp only [Span.mem_toSet, RamEntry.span]; omega
  obtain ⟨hvalid, hapart, hcover⟩ := @asPieces_spec _ r.addr (r.addr + r.size - 1) _ hlam (by omega) (by omega)
  have hadd := asAddContaining_strip as r.addr (r.addr + r.size - 1) "sysram" "ram"
    (by rw [hpieces]; exact fun p hp => (hvalid p hp).1)
  rw [hpieces] at hadd
  have hsys : sysrams (asAddContaining as r.addr (r.addr + r.size - 1) .ram "sysram" "ram").1 =
      sysrams as ++ (asPieces base r.addr (r.addr + r.size - 1) "ram").map AsRange.span := by
    rw [← sysrams_strip, hadd, sysrams_append, sysrams_strip, sysrams_map_toEntry]
  have hnew : covered ((asPieces base r.addr (r.addr + r.size - 1) "ram").map AsRange.span) = r.span.toSet := by
    rw [hcover]
    ext x
    simp only [Set.mem_ofPred_eq]
    constructor
    · rintro ⟨h1, h2, _⟩
      simp only [Span.mem_toSet, RamEntry.span]; omega
    · intro hx
      obtain ⟨i, e, hc, h3, h4⟩ := hinside x hx
      simp only [Span.mem_toSet, RamEntry.span] at hx
      exact ⟨by omega, by omega, i, e, hc, h3, h4⟩
  refine ⟨⟨ext ++ (asPieces base r.addr (r.addr + r.size - 1) "ram").map (AsRange.toEntry "sysram"), ?_, ?_⟩, ?_, ?_⟩
  · rw [hadd, hstrip, List.append_assoc]
  · intro e he
    rcases List.mem_append.mp he with he | he
    · exact hext e he
    · obtain ⟨p, hp, rfl⟩ := List.mem_map.mp he
      obtain ⟨⟨h1, h2⟩, h3⟩ := hvalid p hp
      exact ⟨rfl, h1, h2, p.owner, h3, rfl⟩
  · rw [hsys]
    refine List.pairwise_append.mpr ⟨h.apart, hapart, ?_⟩
    rintro a ha b hb ⟨x, hxa, hxb⟩
    have hx : x ∈ free := by rw [← h.cover]; exact ⟨a, ha, hxa⟩
    refine Set.disjoint_left.mp hfree hx ?_
    rw [← hnew]; exact ⟨b, hb, hxb⟩
  · rw [hsys, covered_append, h.cover, hnew]

/-- `add_sysram()` の繰り返し。 -/
theorem SysramOf.addAll {base : Asinfo} (hown : OwnersBefore base) (hlam : Laminar base "ram") (l : List RamEntry) :
    ∀ (free : Set Nat) (as : Asinfo), RamWF l → Disjoint free (freeSet l) →
    (∀ x ∈ freeSet l, ∃ i e, IsContainer base "ram" i e ∧ e.start ≤ x ∧ x ≤ e.stop) → SysramOf base free as →
    SysramOf base (free ∪ freeSet l) (l.foldl (fun as r =>
      (asAddContaining as (wrap32 r.addr) (wrap32 (r.addr + r.size - 1)) .ram "sysram" "ram").1) as) := by
  induction l with
  | nil => intro free as _ _ _ h; simpa [freeSet] using h
  | cons r l ih =>
      intro free as hwf hfree hinside h
      have hsplit : freeSet (r :: l) = r.span.toSet ∪ freeSet l := by simp [freeSet]
      rw [hsplit] at hfree hinside ⊢
      obtain ⟨hfr, hfl⟩ := Set.disjoint_union_right.mp hfree
      have hrl : Disjoint r.span.toSet (freeSet l) := by
        refine Set.disjoint_left.mpr fun x hx hxl => ?_
        have h1 := hwf.sep.head_notMem hxl
        have h2 := hx.2
        omega
      have hwf' : RamWF l := @RamWF.erase [] _ _ hwf
      have hadd := h.add hown hlam (hwf.size_pos (r := r) (by simp)) (hwf.bound r (by simp))
        (fun x hx => hinside x (Or.inl hx)) hfr
      rw [← Set.union_assoc]
      exact ih _ _ hwf' (Set.disjoint_union_left.mpr ⟨hfl, hrl⟩) (fun x hx => hinside x (Or.inr hx)) hadd

/-! ## `alloc_ram` の列 -/

/-- 二つの表し方が一致している状態。 -/
structure SysramAgrees (s : Ram) : Prop where
  added : s.sysramAdded = true
  wf : RamWF s.ramList
  ok : SysramOk s.asinfo
  apart : Apart (sysrams s.asinfo)
  cover : covered (sysrams s.asinfo) = freeSet s.ramList

theorem addSysram_agrees {s : Ram} (h : SysramReady s) : SysramAgrees (addSysram s) := by
  have hnone : sysrams s.asinfo = [] := by
    simp only [sysrams, List.map_eq_nil_iff, List.filter_eq_nil_iff, decide_eq_true_eq]
    exact h.fresh
  have hinit : SysramOf s.asinfo ∅ s.asinfo :=
    ⟨⟨[], by simp, by simp⟩, by rw [hnone]; exact .nil, by rw [hnone]; exact covered_nil⟩
  have hall := hinit.addAll h.owners h.laminar s.ramList ∅ s.asinfo h.wf (Set.empty_disjoint _) h.inside
  rw [Set.empty_union] at hall
  exact ⟨rfl, h.wf, hall.ok h.owners h.fresh, hall.apart, hall.cover⟩

/-- `alloc_ram(addr, size)` は、二つの表し方から同じ範囲を取り除く。 -/
theorem SysramAgrees.alloc {s s' : Ram} {addr size align a : Nat} (h : SysramAgrees s) (hsize : 0 < size)
    (hb : addr + size < 2 ^ 32) (hs : allocRam s addr size align = .ok (s', a)) : SysramAgrees s' := by
  have hnull : addr ≠ nullPaddr := by simp only [nullPaddr]; omega
  have haddr : a = addr := by rw [(allocRam_ok hs).1, allocAddr, if_neg hnull]
  subst haddr
  obtain ⟨hwf, hfree⟩ := allocRam_free h.wf hnull hb hs
  obtain ⟨_, ⟨habs, _⟩ | ⟨_, l, as, rfl, _, _, hwalk⟩⟩ := allocRam_ok hs
  · exact absurd habs hnull
  have hlast : (wrap32 (a + size) + (2 ^ 64 - 1)) % 2 ^ 64 = a + size - 1 := by
    rw [wrap32_of_lt hb]; omega
  have hwalk := hwalk h.added
  rw [hlast] at hwalk
  have hpend : Pending a (a + size - 1) (2 * s.asinfo.length + 2) (scanFrom none) s.asinfo := by
    refine ⟨by simp [scanFrom], ?_⟩
    have := List.countP_le_length (p := SysramTouched a (a + size - 1)) (l := s.asinfo)
    simp only [scanFrom, List.drop_zero]; omega
  obtain ⟨hok, hperm⟩ := allocSysramWalk_perm (by omega) (by omega) _ none s.asinfo as h.ok hpend hwalk
  rw [show a + size - 1 + 1 = a + size by omega] at hperm
  refine ⟨h.added, hwf, hok, (h.apart.carve (by dsimp only; omega)).perm hperm.symm, ?_⟩
  rw [covered_perm hperm, covered_carve, h.cover, hfree]
  rfl

/-- 整った入れ物の上で `add_sysram()` を呼ぶと、その後 `alloc_ram()` をどのような列で呼んでも、`"sysram"` の項目は
互いに重ならず、`ram_list` の空いている番地をちょうど覆う。 -/
theorem sysram_eq_free (s : Ram) (h : SysramReady s) (s' : Ram)
    (hrun : Reaches (fun s (c : Nat × Nat × Nat) => (allocRam s c.1 c.2.1 c.2.2).map Prod.fst)
      (fun _ c => 0 < c.2.1 ∧ c.1 + c.2.1 < 2 ^ 32) (addSysram s) s') :
    covered (sysrams s'.asinfo) = freeSet s'.ramList ∧ Apart (sysrams s'.asinfo) := by
  have hagree : SysramAgrees s' := by
    refine hrun.invariant (addSysram_agrees h) fun u c v hu hok hs => ?_
    obtain ⟨⟨s₁, a⟩, ha, rfl⟩ := Except.map_eq_ok.mp hs
    exact hu.alloc hok.1 hok.2 ha
  exact ⟨hagree.cover, hagree.apart⟩

/-- `"ram"` の中にもう一つの入れ物を持つ表と、その両方にまたがる空き。 -/
def nestedRam : Ram where
  wsEarlyNext := 0x3000
  avoidList := []
  ramList := [⟨0x10000000, 0x1000000⟩]
  asinfo := [⟨0, 0xffffffff, none, "memory", {}⟩, ⟨0x10000000, 0x1fffffff, some 0, "ram", .ram⟩,
    ⟨0x10800000, 0x108fffff, some 1, "boot", .ram⟩]

/-- `nestedRam` の入れ物は、`"ram"` の項目とその中の項目だけである。 -/
theorem nestedRam_container {i : Nat} {e : AsinfoEntry} (h : IsContainer nestedRam.asinfo "ram" i e) :
    (i = 1 ∧ e = ⟨0x10000000, 0x1fffffff, some 0, "ram", .ram⟩) ∨
      (i = 2 ∧ e = ⟨0x10800000, 0x108fffff, some 1, "boot", .ram⟩) := by
  obtain ⟨he, hm⟩ := h
  match i, he, hm with
  | 0, _, hm => exact absurd hm (by decide)
  | 1, he, _ => cases he; exact Or.inl ⟨rfl, rfl⟩
  | 2, he, _ => cases he; exact Or.inr ⟨rfl, rfl⟩
  | i + 3, he, _ => cases he

theorem nestedRam_ready : SysramReady nestedRam where
  wf := ⟨.cons (by decide) (by simp) .nil, by simp [nestedRam]⟩
  owners := by
    intro i e o he ho
    match i, he with
    | 0, he => cases he; cases ho
    | 1, he => cases he; cases ho; decide
    | 2, he => cases he; cases ho; decide
    | i + 3, he => cases he
  fresh := by decide
  laminar := by
    refine ⟨fun i e h => ?_, fun i j a b hij ha hb => ?_⟩
    · rcases nestedRam_container h with ⟨_, rfl⟩ | ⟨_, rfl⟩ <;> decide
    · rcases nestedRam_container ha with ⟨rfl, rfl⟩ | ⟨rfl, rfl⟩ <;>
        rcases nestedRam_container hb with ⟨rfl, rfl⟩ | ⟨rfl, rfl⟩
      · omega
      · exact Or.inl ⟨by decide, by decide⟩
      · omega
      · omega
  inside := by
    rintro x ⟨t, ht, hx⟩
    refine ⟨1, ⟨0x10000000, 0x1fffffff, some 0, "ram", .ram⟩, ⟨rfl, by decide⟩, ?_⟩
    simp only [nestedRam, spans_cons, spans_nil, List.mem_singleton] at ht
    subst ht
    simp only [Span.mem_toSet, RamEntry.span] at hx
    dsimp only; omega

/-- 内側の入れ物を切り取った範囲の前から取り除く列。 -/
theorem sysram_eq_free_nestedRam :
    ∃ s', Reaches (fun s (c : Nat × Nat × Nat) => (allocRam s c.1 c.2.1 c.2.2).map Prod.fst)
        (fun _ c => 0 < c.2.1 ∧ c.1 + c.2.1 < 2 ^ 32) (addSysram nestedRam) s' ∧
      (sysrams s'.asinfo).length = 4 ∧ covered (sysrams s'.asinfo) = freeSet s'.ramList := by
  have hrun : (runAll (fun s (c : Nat × Nat × Nat) => (allocRam s c.1 c.2.1 c.2.2).map Prod.fst)
      (fun _ c => 0 < c.2.1 ∧ c.1 + c.2.1 < 2 ^ 32) [(0x10400000, 0x100000, 1)] (addSysram nestedRam)).any
        (fun s => decide ((sysrams s.asinfo).length = 4)) = true := by decide
  obtain ⟨s', hs', hlen⟩ := (Option.any_eq_true _ _).mp hrun
  have hreach := runAll_reaches hs'
  exact ⟨s', hreach, of_decide_eq_true hlen, (sysram_eq_free nestedRam nestedRam_ready s' hreach).1⟩

end Imx6Bsp.Startup
