import Imx6Bsp.Pci.BusMap

/-!
# バスの表の定理

`make_name()` は親のバスを飛ばし、`alloc_bus()` は兄弟の並びの途中に加えるとき後ろの兄弟の `prev` を新しい兄弟に向けるので、表が正しいのは
バスがすべてバス 0 の下にあって、兄弟を並びの最後に加える実行である。
-/

namespace Imx6Bsp.Pci

/-! ## バスの表の補題

バスがすべてバス 0 の下にあって、兄弟の並びの途中に加わらない表では、`subordinate_bus` の値によらず、`find_bus()` は兄弟の並びを
端から端まで見る。 -/

/-- バス 0 の下に、バス `kids` をこの順に並べた表。`subordinate_bus` は問わない。 -/
structure FlatNodes (nodes : List BusNode) (kids : List Nat) : Prop where
  len : nodes.length = kids.length + 1
  root : ∃ r, nodes[0]? = some r ∧ r.primaryBus = 0 ∧ r.secondaryBus = 0 ∧ r.prev = none ∧ r.peer = none ∧
    r.next = if 0 < kids.length then some 1 else none
  kid : ∀ j b, kids[j]? = some b → ∃ n, nodes[j + 1]? = some n ∧ n.secondaryBus = b ∧ n.primaryBus = 0 ∧ n.prev = some 0 ∧
    n.next = none ∧ n.peer = if j + 1 < kids.length then some (j + 2) else none

theorem getElem?_setNode (nodes : List BusNode) (i j : Nat) (f : BusNode → BusNode) :
    (setNode nodes i f)[j]? = if i = j then nodes[j]?.map f else nodes[j]? := by
  rw [setNode, List.getElem?_modify]
  by_cases h : i = j
  · simp [h]
  · simp [h]

theorem length_setNode (nodes : List BusNode) (i : Nat) (f : BusNode → BusNode) : (setNode nodes i f).length = nodes.length :=
  List.length_modify ..

namespace FlatNodes

variable {nodes : List BusNode} {kids : List Nat}

/-- `subordinate_bus` の書き換えは、表の形を変えない。 -/
theorem setSub (h : FlatNodes nodes kids) (i v : Nat) :
    FlatNodes (setNode nodes i fun n => { n with subordinateBus := v }) kids := by
  obtain ⟨r, hr, hrest⟩ := h.root
  refine ⟨by rw [length_setNode]; exact h.len, ?_, fun j b hj => ?_⟩
  · rw [getElem?_setNode, hr]
    by_cases hi : i = 0
    · exact ⟨{ r with subordinateBus := v }, by rw [if_pos hi]; rfl, hrest⟩
    · exact ⟨r, by rw [if_neg hi], hrest⟩
  · obtain ⟨n, hn, hkid⟩ := h.kid j b hj
    rw [getElem?_setNode, hn]
    by_cases hi : i = j + 1
    · exact ⟨{ n with subordinateBus := v }, by rw [if_pos hi]; rfl, hkid⟩
    · exact ⟨n, by rw [if_neg hi], hkid⟩

/-! ### `find_bus()` -/

/-- 兄弟の並びの途中から探す。 -/
theorem findKid (h : FlatNodes nodes kids) {b : Nat} {l : List Nat} {j : Nat} (hl : kids.drop j = l) {fuel : Nat}
    (hf : l.length < fuel) :
    findBusLoop nodes b (if j < kids.length then some (j + 1) else none) fuel =
      some (if b ∈ l then some (j + l.idxOf b + 1) else none) := by
  induction l generalizing j fuel with
  | nil =>
      have hj : ¬ j < kids.length := by
        have := congrArg List.length hl
        simp at this; omega
      rw [if_neg hj, if_neg (List.not_mem_nil)]
      cases fuel <;> rfl
  | cons c l ih =>
      have hc : kids[j]? = some c := by rw [← List.head?_drop, hl]; rfl
      have hj : j < kids.length := (List.getElem?_eq_some_iff.mp hc).1
      have hl' : kids.drop (j + 1) = l := by rw [← List.tail_drop, hl]; rfl
      obtain ⟨n, hn, hsec, _, _, hnext, hpeer⟩ := h.kid j c hc
      obtain ⟨fuel, rfl⟩ := Nat.exists_eq_add_of_lt (Nat.lt_of_lt_of_le (Nat.succ_pos _) hf.le)
      rw [if_pos hj, findBusLoop, hn]
      dsimp only
      by_cases hcb : c = b
      · subst hcb
        rw [if_pos hsec, if_pos (by simp), List.idxOf_cons_self, Nat.add_zero]
      · rw [if_neg (by rw [hsec]; exact hcb)]
        have hfollow : n.follow b = if j + 1 < kids.length then some (j + 1 + 1) else none := by
          unfold BusNode.follow
          rw [hnext, hpeer]
          split_ifs <;> rfl
        have hlen : l.length < 0 + fuel := by simp at hf; omega
        rw [hfollow, ih hl' hlen]
        simp only [List.mem_cons, Ne.symm hcb, false_or, List.idxOf_cons_ne _ hcb]
        congr 1
        split_ifs
        · congr 1; omega
        · rfl

/-- `find_bus()` の結果。 -/
theorem findBus_eq {s : BusState} (h : FlatNodes s.nodes kids) (b : Nat) :
    findBus s b = some (if b = 0 then some 0 else if b ∈ kids then some (kids.idxOf b + 1) else none) := by
  obtain ⟨r, hr, _, hsec, _, hpeer, hnext⟩ := h.root
  have hne : s.nodes ≠ [] := by
    intro h0
    rw [h0] at hr; cases hr
  rw [findBus, if_neg hne, h.len, findBusLoop, hr]
  dsimp only
  by_cases h0 : b = 0
  · rw [if_pos h0, if_pos (by rw [hsec, h0])]
  · rw [if_neg h0, if_neg (by rw [hsec]; exact Ne.symm h0)]
    have hfollow : r.follow b = if 0 < kids.length then some (0 + 1) else none := by
      unfold BusNode.follow
      rw [hpeer, hnext, hsec, if_pos (by omega)]
      split_ifs <;> rfl
    rw [hfollow, h.findKid (l := kids) (j := 0) rfl (by omega), Nat.zero_add]

/-! ### `alloc_bus()` -/

/-- 兄弟の並びの最後に加える。 -/
theorem insertPeer_eq (h : FlatNodes nodes kids) {sec : Nat} (hlt : ∀ b ∈ kids.drop 1, b < sec) (new : BusNode)
    {l : List Nat} {j : Nat} (hl : kids.drop j = l) (hne : l ≠ []) {fuel : Nat} (hf : l.length ≤ fuel) :
    insertPeer nodes.length sec (j + 1) fuel (nodes ++ [new]) =
      some (setNode (nodes ++ [new]) kids.length fun n => { n with peer := some nodes.length }) := by
  induction l generalizing j fuel with
  | nil => exact absurd rfl hne
  | cons c l ih =>
      have hc : kids[j]? = some c := by rw [← List.head?_drop, hl]; rfl
      have hj : j < kids.length := (List.getElem?_eq_some_iff.mp hc).1
      have hl' : kids.drop (j + 1) = l := by rw [← List.tail_drop, hl]; rfl
      obtain ⟨n, hn, _, _, _, _, hpeer⟩ := h.kid j c hc
      obtain ⟨fuel, rfl⟩ := Nat.exists_eq_add_of_lt (Nat.lt_of_lt_of_le (Nat.succ_pos _) hf)
      have hget : ∀ i, i < nodes.length → (nodes ++ [new])[i]? = nodes[i]? := fun i hi => List.getElem?_append_left hi
      have hlen := h.len
      rw [insertPeer, hget _ (by omega), hn]
      simp only [Option.bind_eq_bind, Option.bind_some]
      by_cases hlast : j + 1 < kids.length
      · obtain ⟨d, hd⟩ : ∃ d, kids[j + 1]? = some d := ⟨_, List.getElem?_eq_getElem hlast⟩
        obtain ⟨m, hm, hsec, _⟩ := h.kid (j + 1) d hd
        have hdlt : d < sec := hlt d (List.mem_of_getElem? (i := j) (by rw [List.getElem?_drop, Nat.add_comm]; exact hd))
        rw [hpeer, if_pos hlast]
        dsimp only
        rw [hget _ (by omega), hm, Option.bind_some, if_neg (by omega)]
        refine ih hl' ?_ (by simpa using hf)
        rw [← hl']
        exact fun h0 => absurd (List.drop_eq_nil_iff.mp h0) (by omega)
      · rw [hpeer, if_neg hlast]
        dsimp only
        rw [show j + 1 = kids.length by omega]; rfl

/-- 加えるバスの項目。 -/
private def newKid (sec : Nat) : BusNode := { primaryBus := 0, secondaryBus := sec, prev := some 0 }

/-- 前からある兄弟と新しい兄弟の項目をまとめて示す。 -/
private theorem snoc {nodes' : List BusNode} {sec : Nat} (h : FlatNodes nodes kids)
    (hlen : nodes'.length = nodes.length + 1)
    (hroot : ∃ r, nodes'[0]? = some r ∧ r.primaryBus = 0 ∧ r.secondaryBus = 0 ∧ r.prev = none ∧ r.peer = none ∧ r.next = some 1)
    (hold : ∀ j < kids.length, nodes'[j + 1]? =
      nodes[j + 1]?.map fun n => if j + 1 = kids.length then { n with peer := some nodes.length } else n)
    (hnew : nodes'[nodes.length]? = some (newKid sec)) : FlatNodes nodes' (kids ++ [sec]) := by
  have hl := h.len
  refine ⟨by rw [hlen, List.length_append, hl]; rfl, ?_, fun j b hj => ?_⟩
  · obtain ⟨r, hr, h1, h2, h3, h4, h5⟩ := hroot
    exact ⟨r, hr, h1, h2, h3, h4, by rw [h5, if_pos (by simp)]⟩
  · by_cases hjl : j < kids.length
    · rw [List.getElem?_append_left hjl] at hj
      obtain ⟨n, hn, h1, h2, h3, h4, h5⟩ := h.kid j b hj
      rw [hold j hjl, hn, Option.map_some, List.length_append, if_pos (show j + 1 < kids.length + [sec].length by simp; omega)]
      by_cases hlast : j + 1 = kids.length
      · rw [if_pos hlast]
        exact ⟨_, rfl, h1, h2, h3, h4, by dsimp only; rw [hl, ← hlast]⟩
      · rw [if_neg hlast]
        exact ⟨n, rfl, h1, h2, h3, h4, by rw [h5, if_pos (by omega)]⟩
    · have hjk : j = kids.length := by
        have := (List.getElem?_eq_some_iff.mp hj).1
        rw [List.length_append, List.length_singleton] at this; omega
      subst hjk
      rw [List.getElem?_append_right le_rfl, Nat.sub_self] at hj
      cases hj
      refine ⟨newKid sec, by rw [← hl]; exact hnew, rfl, rfl, rfl, rfl, ?_⟩
      rw [if_neg (by simp)]; rfl

/-- バス 0 の下に、最後の兄弟として加える。 -/
theorem link (h : FlatNodes nodes kids) {sec : Nat} (hlt : ∀ b ∈ kids.drop 1, b < sec) :
    ∃ nodes', linkBus nodes 0 0 sec = some nodes' ∧ FlatNodes nodes' (kids ++ [sec]) := by
  obtain ⟨r, hr, hp, hs, hpv, hpe, hnx⟩ := h.root
  have hl := h.len
  have hget : ∀ i < nodes.length, (nodes ++ [newKid sec])[i]? = nodes[i]? := fun i hi => List.getElem?_append_left hi
  have hend : (nodes ++ [newKid sec])[nodes.length]? = some (newKid sec) := by
    rw [List.getElem?_append_right le_rfl, Nat.sub_self]; rfl
  rw [linkBus, hr]
  simp only [Option.bind_eq_bind, Option.bind_some]
  rcases Nat.eq_zero_or_pos kids.length with hk | hk
  · rw [hnx, if_neg (by omega)]
    refine ⟨_, rfl, h.snoc ?_ ⟨{ r with next := some nodes.length }, ?_, hp, hs, hpv, hpe, ?_⟩ (fun j hj => by omega) ?_⟩
    · rw [length_setNode, List.length_append]; rfl
    · rw [getElem?_setNode, if_pos rfl]
      change (nodes ++ [newKid sec])[0]?.map _ = _
      rw [hget 0 (by omega), hr]; rfl
    · dsimp only
      rw [hl, hk]
    · rw [getElem?_setNode, if_neg (by omega)]; exact hend
  · obtain ⟨n, hn, _, hprim, _⟩ := h.kid 0 kids[0] (List.getElem?_eq_getElem hk)
    rw [hnx, if_pos hk]
    dsimp only
    change ∃ nodes', ((nodes ++ [newKid sec])[1]?.bind fun child => if child.primaryBus = 0 then
      insertPeer nodes.length sec 1 (nodes ++ [newKid sec]).length (nodes ++ [newKid sec]) else _) = some nodes' ∧ _
    rw [hget 1 (by omega), hn, Option.bind_some, if_pos hprim,
      h.insertPeer_eq hlt (newKid sec) (j := 0) rfl (List.ne_nil_of_length_pos hk) (by simp; omega)]
    refine ⟨_, rfl, h.snoc ?_ ⟨r, ?_, hp, hs, hpv, hpe, by rw [hnx, if_pos hk]⟩ (fun j hj => ?_) ?_⟩
    · rw [length_setNode, List.length_append]; rfl
    · rw [getElem?_setNode, if_neg (by omega), hget 0 (by omega), hr]
    · rw [getElem?_setNode, hget (j + 1) (by omega)]
      by_cases hlast : j + 1 = kids.length
      · simp [hlast]
      · simp [hlast, Ne.symm hlast]
    · rw [getElem?_setNode, if_neg (by omega)]; exact hend

/-- `lastbus` と `subordinate_bus` を直しても、表の形は変わらない。 -/
theorem settle {s : BusState} (h : FlatNodes s.nodes kids) (pri sec : Nat) : FlatNodes (settleBus s pri sec).nodes kids := by
  rw [settleBus]
  split
  · dsimp only
    split
    · exact (h.setSub _ _).setSub _ _
    · exact h.setSub _ _
  · dsimp only
    split
    · exact h.setSub _ _
    · exact h.setSub _ _

/-! ### 名前と `prev` -/

theorem prevChain_root (h : FlatNodes nodes kids) {fuel : Nat} : prevChain nodes (some 0) (fuel + 1) = some [0] := by
  obtain ⟨r, hr, _, hs, hpv, _⟩ := h.root
  rw [prevChain, hr]
  simp only [Option.bind_eq_bind, Option.bind_some, hpv, prevChain, hs]
  rfl

end FlatNodes

end Imx6Bsp.Pci

namespace Imx6Bsp.Pci

open Imx6Bsp.Lib

/-- 実行の不変条件。 -/
def BusTrace.Inv (t : BusTrace) : Prop :=
  (t.made = [] ∧ t.s.nodes = []) ∨ ∃ kids, FlatNodes t.s.nodes kids ∧ t.made = (0, 0) :: kids.map (0, ·) ∧ 0 ∉ kids

namespace BusTrace

variable {t t' : BusTrace}

private theorem buses_eq {kids : List Nat} (h : t.made = (0, 0) :: kids.map (0, ·)) : t.buses = 0 :: kids := by
  rw [buses, h, List.map_cons, List.map_map]
  simp

/-- 最初の `alloc_bus(0, 0)`。 -/
theorem Inv.first (hnil : t.made = []) (hn : t.s.nodes = []) (hs : t.step (.alloc 0 0) = .ok t') : t'.Inv := by
  obtain ⟨s, ha, ht⟩ := Except.bind_eq_ok.mp hs
  cases ht
  simp only [allocBus, hn, if_true] at ha
  cases ha
  refine Or.inr ⟨[], FlatNodes.settle ⟨rfl, ⟨_, rfl, rfl, rfl, rfl, rfl, rfl⟩, by simp⟩ 0 0, ?_, by simp⟩
  rw [hnil]; rfl

/-- バス 0 の下に最後の兄弟として加える `alloc_bus()`。 -/
theorem Inv.alloc {kids : List Nat} {sec : Nat} (hflat : FlatNodes t.s.nodes kids) (hmade : t.made = (0, 0) :: kids.map (0, ·))
    (h0 : 0 ∉ kids) (hlt : ∀ b ∈ kids.drop 1, b < sec) (hsec : sec ≠ 0) (hs : t.step (.alloc 0 sec) = .ok t') : t'.Inv := by
  obtain ⟨s, ha, ht⟩ := Except.bind_eq_ok.mp hs
  cases ht
  obtain ⟨r, hr, _⟩ := hflat.root
  have hne : t.s.nodes ≠ [] := by
    intro hnil
    rw [hnil] at hr; cases hr
  obtain ⟨nodes', hlink, hflat'⟩ := hflat.link hlt
  have hflat1 : FlatNodes ({ t.s with endbus := if sec > t.s.endbus then sec else t.s.endbus } : BusState).nodes kids := hflat
  simp only [allocBus, if_neg hne, hflat1.findBus_eq 0, if_true, hlink] at ha
  cases ha
  refine Or.inr ⟨kids ++ [sec], FlatNodes.settle hflat' 0 sec, ?_, ?_⟩
  · rw [hmade]; simp
  · simp [h0, Ne.symm hsec]

theorem Inv.step {c : BusCall} (h : t.Inv) (hc : t.InDomain c) (hflat : t.Flat c) (hs : t.step c = .ok t') : t'.Inv := by
  cases c with
  | setSub i v =>
      cases hs
      rcases h with ⟨hnil, hn⟩ | ⟨kids, hf, hmade, h0⟩
      · exact Or.inl ⟨hnil, by simp [setNode, hn]⟩
      · exact Or.inr ⟨kids, hf.setSub i v, hmade, h0⟩
  | alloc pri sec =>
      obtain ⟨rfl, hlt⟩ := hflat
      rcases h with ⟨hnil, hn⟩ | ⟨kids, hf, hmade, h0⟩
      · rw [InDomain, if_pos hnil] at hc
        obtain ⟨_, rfl⟩ := hc
        exact first hnil hn hs
      · have hb := buses_eq hmade
        rw [InDomain, if_neg (by rw [hmade]; exact List.cons_ne_nil _ _), hb] at hc
        rw [hb] at hlt
        exact alloc hf hmade h0 hlt (fun he => hc.2.1 (by simp [he])) hs

/-- 記録による祖先は、バス 0 だけである。 -/
theorem ancestors_flat {kids : List Nat} (hmade : t.made = (0, 0) :: kids.map (0, ·)) {b : Nat} (hb : b ∈ kids) (hb0 : b ≠ 0) :
    t.ancestors b t.made.length = [0] := by
  have hparent : t.parent b = some 0 := by
    rw [parent, hmade, List.find?_cons_of_neg (by simpa using Ne.symm hb0), List.find?_map]
    obtain ⟨c, hc⟩ : ∃ c, kids.find? ((fun e : Nat × Nat => decide (e.2 = b)) ∘ fun x => (0, x)) = some c := by
      rw [← Option.isSome_iff_exists, List.find?_isSome]
      exact ⟨b, hb, by simp⟩
    rw [hc]; rfl
  rw [hmade, List.length_cons, ancestors, if_neg hb0, hparent]
  dsimp only
  cases (kids.map ((0 : Nat), ·)).length with
  | zero => rfl
  | succ n => rw [ancestors, if_pos rfl]

theorem ancestors_zero (t : BusTrace) (fuel : Nat) : t.ancestors 0 fuel = [] := by
  cases fuel with
  | zero => rfl
  | succ n => rw [ancestors, if_pos rfl]

/-- 不変条件を満たす表は正しい。 -/
theorem Inv.correct (h : t.Inv) : t.Correct := by
  rcases h with ⟨hnil, hn⟩ | ⟨kids, hf, hmade, h0⟩
  · have hb : t.buses = [] := by rw [buses, hnil]; rfl
    refine ⟨by simp [hb], fun b _ => ?_, by simp [hb]⟩
    rw [findBus, if_pos hn]; rfl
  · have hb := buses_eq hmade
    obtain ⟨r, hr, hprim, hsec, hprev, _⟩ := hf.root
    have hkid : ∀ b ∈ kids, b ≠ 0 ∧ ∃ n, findBus t.s b = some (some (kids.idxOf b + 1)) ∧
        t.s.nodes[kids.idxOf b + 1]? = some n ∧ n.secondaryBus = b ∧ n.primaryBus = 0 ∧ n.prev = some 0 := by
      intro b hbk
      have hb0 : b ≠ 0 := fun he => h0 (he ▸ hbk)
      obtain ⟨n, hn, h1, h2, h3, _⟩ := hf.kid _ _ (List.getElem?_idxOf hbk)
      exact ⟨hb0, n, by rw [hf.findBus_eq, if_neg hb0, if_pos hbk], hn, h1, h2, h3⟩
    refine ⟨fun b hbt => ?_, fun b hbt => ?_, fun b hbt kind pref => ?_⟩
    · rw [hb] at hbt
      rcases List.mem_cons.mp hbt with rfl | hbk
      · refine ⟨0, r, by rw [hf.findBus_eq, if_pos rfl], hr, hsec, ?_⟩
        rw [hprev, ancestors_zero, prevChain]
      · obtain ⟨hb0, n, h1, h2, h3, h4, h5⟩ := hkid b hbk
        refine ⟨_, n, h1, h2, h3, ?_⟩
        rw [h5, hf.len, hf.prevChain_root, ancestors_flat hmade hbk hb0]
    · rw [hb, List.mem_cons, not_or] at hbt
      rw [hf.findBus_eq, if_neg hbt.1, if_neg hbt.2]
    · rw [hb] at hbt
      rcases List.mem_cons.mp hbt with rfl | hbk
      · rw [makeName, nameBuses, if_pos rfl, ancestors_zero]; rfl
      · obtain ⟨hb0, n, h1, h2, h3, h4, h5⟩ := hkid b hbk
        rw [makeName, nameBuses, if_neg hb0, h1, ancestors_flat hmade hbk hb0]
        simp only [Option.bind_eq_bind, Option.bind_some, h2, h4, ne_eq, not_true_eq_false, if_false]
        rfl

end BusTrace

/-- バスをすべてバス 0 の下に、兄弟の並びの最後に加えるどの実行でも、`subordinate_bus` がどう書き換えられても、表は正しい。 -/
theorem busMap_correct (bridges : List PciBridge) (t : BusTrace)
    (h : Reaches BusTrace.step (fun t c => t.InDomain c ∧ t.Flat c) (.start bridges) t) : t.Correct := by
  have h0 : (BusTrace.start bridges).Inv := Or.inl ⟨rfl, rfl⟩
  exact (h.invariant h0 fun _ _ _ hu hok hs => hu.step hok.1 hok.2 hs).correct

theorem busMap_correct_sample :
    ∃ t, Reaches BusTrace.step (fun t c => t.InDomain c ∧ t.Flat c) (.start [⟨0, 3, 4⟩]) t ∧
      t.buses = [0, 3, 1, 2] ∧ t.Correct := by
  have hrun : (runAll BusTrace.step (fun t c => t.InDomain c ∧ t.Flat c)
      [.alloc 0 0, .alloc 0 3, .setSub 1 4, .alloc 0 1, .alloc 0 2] (.start [⟨0, 3, 4⟩])).any
        (fun t => decide (t.buses = [0, 3, 1, 2])) = true := by decide
  obtain ⟨t, ht, hb⟩ := (Option.any_eq_true _ _).mp hrun
  exact ⟨t, runAll_reaches ht, of_decide_eq_true hb, busMap_correct [⟨0, 3, 4⟩] t (runAll_reaches ht)⟩

/-- バス 0、1、2 が一列につながる表で、バス 2 の名前にはバス 1 がない。 -/
theorem makeName_skips_parent :
    ∃ t, Reaches BusTrace.step BusTrace.InDomain (.start []) t ∧ t.buses = [0, 1, 2] ∧ t.ancestors 2 3 = [1, 0] ∧
      nameBuses t.s 2 = some [0, 2] ∧ makeName t.s .memory 2 false = some "pcimemory/Bus0/Bus2" := by
  have hrun : (runAll BusTrace.step BusTrace.InDomain [.alloc 0 0, .alloc 0 1, .alloc 1 2] (.start [])).any
      (fun t => decide (t.buses = [0, 1, 2] ∧ t.ancestors 2 3 = [1, 0] ∧ nameBuses t.s 2 = some [0, 2])) = true := by
    decide
  obtain ⟨t, ht, hfin⟩ := (Option.any_eq_true _ _).mp hrun
  obtain ⟨h1, h2, h3⟩ := of_decide_eq_true hfin
  refine ⟨t, runAll_reaches ht, h1, h2, h3, ?_⟩
  rw [makeName, h3]
  decide

end Imx6Bsp.Pci
