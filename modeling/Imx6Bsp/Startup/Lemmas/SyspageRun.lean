import Imx6Bsp.Startup.Lemmas.SyspageLayout

/-!
# システムページの節の実行の不変条件

配置の不変条件と、節の中身と `fixed_size` の記録を、どの呼び出しも保つことを示す。`init_syspage_memory()` は不変条件を満たす状態を
作り、ヘッダのほかの節は 0 で埋まっている。
-/

namespace Imx6Bsp.Startup

open Imx6Bsp.Lib

variable {fmt : SyspageFormat} {rtns : Nat → CalloutRtn}

/-! ## 一回の呼び出し -/

/-- 実行の不変条件。 -/
structure SyspageTrace.Inv (fmt : SyspageFormat) (t : SyspageTrace) : Prop where
  layout : t.sp.Layout fmt t.fixed
  length : ∀ s, (t.content s).length = t.sp.size s
  content : t.sp.HasContent t.content fmt.Skip
  fixedSize : t.fixedGrown = false → t.sp.fixedSize = (t.fixed.map t.sp.size).sum

theorem SyspageFormat.skip_counter (fmt : SyspageFormat) (i : Nat) (h : fmt.IsCounter i) : fmt.Skip .syspage i := ⟨rfl, h⟩

private theorem length_update {content : Sect → List UInt8} {size : Sect → Nat} (h : ∀ s, (content s).length = size s)
    (sect : Sect) (k : Nat) (s : Sect) :
    (Function.update content sect (content sect ++ List.replicate k 0) s).length =
      Function.update size sect (size sect + k) s := by
  by_cases hs : s = sect
  · subst hs; simp [h]
  · rw [Function.update_of_ne hs, Function.update_of_ne hs, h]

namespace SyspageTrace.Inv

variable {t u : SyspageTrace}

theorem step_set (hfmt : fmt.Ok) (h : t.Inv fmt) {sect : Sect} {size : Nat} (h0 : t.sp.size sect = 0)
    (hg : t.fixedGrown = false) (hb : t.sp.totalSize fmt + size + 8 ≤ 2 ^ 32)
    (hs : t.step fmt rtns (.set sect size) = .ok u) : u.Inv fmt := by
  obtain ⟨sp, hsp, heq⟩ := Except.bind_eq_ok.mp hs
  cases heq
  have hf := h.fixedSize hg
  have hl := h.layout
  have hmax := hl.total_le
  have hroom := hl.room
  have hle := hl.fixed_le
  rcases setSyspageSection_ok hl h0 hf hb hsp with ⟨hk, rfl⟩ | ⟨hpos, hfit, rfl⟩
  · refine ⟨?_, fun s => ?_, ?_, fun _ => ?_⟩
    · rw [if_pos hk]; exact hl.place h0 hf
    · rw [hk]
      simpa [placeAt] using h.length s
    · rw [hk]
      simpa using hl.holds_place h0 hf h.content
    · rw [if_pos hk]
      change wrap32 (t.sp.fixedSize + 0) = (t.fixed.map t.sp.size).sum
      rw [hf, wrap32_of_lt (by omega), Nat.add_zero]
  · generalize round size 8 = k at *
    have hpl := hl.place (k := k) h0 hf
    refine ⟨?_, ?_, ?_, fun _ => ?_⟩
    · rw [if_neg (by omega)]; exact hl.grow_placeAt hfmt h0 hf hpos hfit
    · exact length_update h.length sect k
    · exact hpl.holds_grow hfmt fmt.skip_counter (hl.holds_place h0 hf h.content) sect (h.length sect)
    · rw [if_neg (by omega)]
      have hsf : sect ∉ t.fixed := fun hm => by
        have := hl.packed.pos sect hm
        omega
      have hmap : t.fixed.map (Function.update t.sp.size sect (t.sp.size sect + k)) = t.fixed.map t.sp.size :=
        List.map_congr_left fun v hv => Function.update_of_ne (fun he : v = sect => hsf (he ▸ hv)) _ _
      change wrap32 (t.sp.fixedSize + k) =
        ((t.fixed ++ [sect]).map (Function.update t.sp.size sect (t.sp.size sect + k))).sum
      rw [hf, wrap32_of_lt (by omega), List.map_append, List.sum_append, hmap]
      simp [h0]

theorem step_grow (hfmt : fmt.Ok) (h : t.Inv fmt) {sect : Sect} {add : Nat}
    (hb : t.sp.totalSize fmt + add + 8 ≤ 2 ^ 32) (hs : t.step fmt rtns (.grow sect add) = .ok u) : u.Inv fmt := by
  obtain ⟨sp, hsp, heq⟩ := Except.bind_eq_ok.mp hs
  cases heq
  have hl := h.layout
  rcases Nat.eq_zero_or_pos add with rfl | hadd
  · rw [growSyspageSection, if_neg (by omega)] at hsp
    cases hsp
    have hr : round 0 8 = 0 := by decide
    refine ⟨hl, fun s => ?_, ?_, fun hg => h.fixedSize (by simpa using hg)⟩
    · rw [hr]; simpa using h.length s
    · rw [hr]; simpa using h.content
  · have hlt := round_eight_lt (x := add) (by omega)
    obtain ⟨hfit, rfl⟩ := growSyspageSection_ok hl hadd (by omega) hsp
    generalize round add 8 = k at *
    refine ⟨hl.grow hfmt sect hfit, length_update h.length sect k,
      hl.holds_grow hfmt fmt.skip_counter h.content sect (h.length sect), fun hg => ?_⟩
    simp only [Bool.or_eq_false_iff, Bool.and_eq_false_iff, decide_eq_false_iff_not] at hg
    have hsf : sect ∉ t.fixed := hg.2.resolve_right (by omega)
    have hmap : t.fixed.map (Function.update t.sp.size sect (t.sp.size sect + k)) = t.fixed.map t.sp.size :=
      List.map_congr_left fun v hv => Function.update_of_ne (fun he : v = sect => hsf (he ▸ hv)) _ _
    change t.sp.fixedSize = (t.fixed.map (Function.update t.sp.size sect (t.sp.size sect + k))).sum
    rw [hmap]; exact h.fixedSize hg.1

theorem step_store (hfmt : fmt.Ok) (h : t.Inv fmt) {sect : Sect} {off : Nat} {v : UInt8} (hoff : off < t.sp.size sect)
    (hns : ¬ fmt.Skip sect off) (hs : t.step fmt rtns (.store sect off v) = .ok u) : u.Inv fmt := by
  cases hs
  refine ⟨h.layout.setMem fun i hi => h.layout.store_counter hfmt hns hi, fun s => ?_,
    h.layout.holds_store h.content hoff v (h.length sect), h.fixedSize⟩
  change (Function.update t.content sect ((t.content sect).set off v) s).length = t.sp.size s
  by_cases hs : s = sect
  · subst hs; rw [Function.update_self, List.length_set, h.length]
  · rw [Function.update_of_ne hs, h.length]

/-- どの呼び出しも不変条件を保つ。 -/
theorem step (hfmt : fmt.Ok) (h : t.Inv fmt) {c : SyspageCall} (hc : t.InDomain fmt c)
    (hs : t.step fmt rtns c = .ok u) : u.Inv fmt := by
  cases c with
  | set sect size => exact h.step_set hfmt hc.1 hc.2.1 hc.2.2 hs
  | grow sect add => exact h.step_grow hfmt hc hs
  | reloc base maxSize =>
      cases hs
      exact ⟨h.layout.reloc hfmt hc.1 hc.2.1 hc.2.2, h.length,
        h.layout.holds_reloc hc.1 hc.2.2 fmt.skip_counter hfmt h.content, h.fixedSize⟩
  | store sect off v => exact h.step_store hfmt hc.1 hc.2 hs
  | register sect off data =>
      cases hs
      exact ⟨⟨h.layout.total_le, h.layout.room, h.layout.base_le, h.layout.packed, h.layout.head, h.layout.header⟩,
        h.length, h.content, h.fixedSize⟩

/-- 節を作る、伸ばす、移す呼び出しは、もとの中身を変えず、加わったバイトは 0 である。 -/
theorem step_bytes (hfmt : fmt.Ok) (h : t.Inv fmt) {c : SyspageCall} (hc : t.InDomain fmt c)
    (hs : t.step fmt rtns c = .ok u) (hst : ∀ sect off v, c ≠ .store sect off v) (s : Sect) :
    ∃ k, u.sp.size s = t.sp.size s + k ∧ u.content s = t.content s ++ List.replicate k 0 := by
  have hu := h.step hfmt hc hs
  have key : ∀ k, u.content s = t.content s ++ List.replicate k 0 → u.sp.size s = t.sp.size s + k := by
    intro k hk
    rw [← hu.length, ← h.length, hk, List.length_append, List.length_replicate]
  have upd : ∀ sect k, u.content = Function.update t.content sect (t.content sect ++ List.replicate k 0) →
      ∃ k, u.content s = t.content s ++ List.replicate k 0 := by
    intro sect k hk
    by_cases hss : s = sect
    · subst hss; exact ⟨k, by rw [hk, Function.update_self]⟩
    · exact ⟨0, by rw [hk, Function.update_of_ne hss]; simp⟩
  have same : u.content = t.content → ∃ k, u.content s = t.content s ++ List.replicate k 0 :=
    fun he => ⟨0, by rw [he]; simp⟩
  have : ∃ k, u.content s = t.content s ++ List.replicate k 0 := by
    cases c with
    | set sect size =>
        obtain ⟨sp, _, heq⟩ := Except.bind_eq_ok.mp hs
        cases heq; exact upd sect _ rfl
    | grow sect add =>
        obtain ⟨sp, _, heq⟩ := Except.bind_eq_ok.mp hs
        cases heq; exact upd sect _ rfl
    | reloc base maxSize => cases hs; exact same rfl
    | store sect off v => exact absurd rfl (hst sect off v)
    | register sect off data => cases hs; exact same rfl
  obtain ⟨k, hk⟩ := this
  exact ⟨k, key k hk, hk⟩

end SyspageTrace.Inv

/-! ## `init_syspage_memory()` -/

/-- `init_syspage_memory()` の途中の状態。`l` は作った節、`used` は空でないかもしれない節、`n` は大きさの上限である。
`max` はヘッダに記した上限である。 -/
structure Booted (fmt : SyspageFormat) (max : Nat) (l used : List Sect) (n : Nat) (s : Syspage) : Prop where
  layout : s.Layout fmt (l.filter (0 < s.size ·))
  fixedSize : s.fixedSize = ((l.filter (0 < s.size ·)).map s.size).sum
  zeros : s.HasContent (fun t => List.replicate (s.size t) 0) (fun t _ => t = .syspage)
  empty : ∀ t ∉ used, s.size t = 0
  filled : ∀ t ∈ used, t ∉ l → 8 ≤ s.size t
  sub : l ⊆ used
  bound : s.totalSize fmt ≤ n
  limit : s.maxSize fmt = max
  patch : s.patchData = []

private theorem filter_update {l : List Sect} {size : Sect → Nat} {sect : Sect} (hs : sect ∉ l) (v : Nat) :
    l.filter (0 < Function.update size sect v ·) = l.filter (0 < size ·) :=
  List.filter_congr fun t ht => by rw [Function.update_of_ne fun he : t = sect => hs (he ▸ ht)]

private theorem map_filter_update {l : List Sect} {size : Sect → Nat} {sect : Sect} (hs : sect ∉ l) (v : Nat) :
    (l.filter (0 < size ·)).map (Function.update size sect v) = (l.filter (0 < size ·)).map size :=
  List.map_congr_left fun t ht =>
    Function.update_of_ne (fun he : t = sect => hs (he ▸ (List.mem_filter.mp ht).1)) _ _

private theorem zeros_update (size : Sect → Nat) (sect : Sect) (k : Nat) :
    Function.update (fun t => List.replicate (size t) (0 : UInt8)) sect
        (List.replicate (size sect) 0 ++ List.replicate k 0) =
      fun t => List.replicate (Function.update size sect (size sect + k) t) 0 := by
  funext t
  by_cases ht : t = sect
  · subst ht
    rw [Function.update_self, Function.update_self, List.replicate_append_replicate]
  · rw [Function.update_of_ne ht, Function.update_of_ne ht]

namespace Booted

variable {max : Nat} {l used : List Sect} {n : Nat} {s s' : Syspage} {sect : Sect}

theorem grow (hfmt : fmt.Ok) (h : Booted fmt max l used n s) (hs : sect ∉ l) {add : Nat} (hadd : 0 < add)
    (hb : n + add + 8 ≤ 2 ^ 32) (he : growSyspageSection fmt s sect add = .ok s') :
    Booted fmt max l (sect :: used) (n + add + 8) s' := by
  have hn := h.bound
  have hlt := round_eight_lt (x := add) (by omega)
  have hge := le_round_eight (x := add) (by omega)
  have hdvd := isAlign_eight.dvd_round (x := add) (by omega)
  obtain ⟨hfit, rfl⟩ := growSyspageSection_ok h.layout hadd (by omega) he
  generalize round add 8 = k at *
  have hsize : (growBy fmt s sect k).size = Function.update s.size sect (s.size sect + k) := rfl
  refine ⟨?_, ?_, ?_, fun t ht => ?_, fun t ht htl => ?_, fun t ht => List.mem_cons_of_mem _ (h.sub ht), ?_,
    (h.layout.growBy_max hfmt sect k).trans h.limit, ?_⟩
  · rw [hsize, filter_update hs]; exact h.layout.grow hfmt sect hfit
  · rw [hsize, filter_update hs, map_filter_update hs]; exact h.fixedSize
  · rw [hsize, ← zeros_update]
    exact h.layout.holds_grow hfmt (fun _ _ => rfl) h.zeros sect List.length_replicate
  · rw [hsize, Function.update_of_ne fun he : t = sect => ht (he ▸ List.mem_cons_self)]
    exact h.empty t fun hm => ht (List.mem_cons_of_mem _ hm)
  · rw [hsize]
    by_cases hts : t = sect
    · subst hts; rw [Function.update_self]; omega
    · rw [Function.update_of_ne hts]
      exact h.filled t ((List.mem_cons.mp ht).resolve_left hts) htl
  · rw [h.layout.growBy_total sect hfit]; omega
  · change calloutRelocData _ _ _ s.patchData = []
    rw [h.patch]; rfl

theorem set (hfmt : fmt.Ok) (h : Booted fmt max l used n s) (hs : sect ∉ used) {size : Nat} (hb : n + size + 8 ≤ 2 ^ 32)
    (he : setSyspageSection fmt s sect size = .ok s') : Booted fmt max (l ++ [sect]) (sect :: used) (n + size + 8) s' := by
  have hn := h.bound
  have h0 := h.empty sect hs
  have hsl : sect ∉ l := fun hm => hs (h.sub hm)
  have hlt := round_eight_lt (x := size) (by omega)
  have hl := h.layout
  have hle := hl.fixed_le
  have hmax := hl.total_le
  have hroom := hl.room
  have hsub : l ++ [sect] ⊆ sect :: used := by
    intro t ht
    rcases List.mem_append.mp ht with ht | ht
    · exact List.mem_cons_of_mem _ (h.sub ht)
    · rw [List.mem_singleton.mp ht]; exact List.mem_cons_self
  have hused : ∀ t ∈ sect :: used, t ∉ l ++ [sect] → t ≠ sect ∧ 8 ≤ s.size t := by
    intro t ht htl
    simp only [List.mem_append, List.mem_singleton, not_or] at htl
    exact ⟨htl.2, h.filled t ((List.mem_cons.mp ht).resolve_left htl.2) htl.1⟩
  rcases setSyspageSection_ok hl h0 h.fixedSize (by omega) he with ⟨hk, rfl⟩ | ⟨hpos, hfit, rfl⟩
  · have hfilter : (l ++ [sect]).filter (0 < (placeAt s sect 0).size ·) = l.filter (0 < s.size ·) := by
      have hz : (placeAt s sect 0).size = s.size := rfl
      rw [hz, List.filter_append]; simp [h0]
    refine ⟨?_, ?_, hl.holds_place h0 h.fixedSize h.zeros, fun t ht => ?_, fun t ht htl => (hused t ht htl).2, hsub, ?_,
      (hl.placeAt_max h0).trans h.limit, h.patch⟩
    · rw [hfilter]; exact hl.place h0 h.fixedSize
    · rw [hfilter]
      change wrap32 (s.fixedSize + 0) = _
      rw [h.fixedSize, wrap32_of_lt (by omega)]; rfl
    · exact h.empty t fun hm => ht (List.mem_cons_of_mem _ hm)
    · rw [hl.placeAt_total h0]; omega
  · generalize round size 8 = k at *
    have hpl := hl.place (k := k) h0 h.fixedSize
    have hsize : (growBy fmt (placeAt s sect k) sect k).size = Function.update s.size sect (s.size sect + k) := rfl
    have hfilter : (l ++ [sect]).filter (0 < (growBy fmt (placeAt s sect k) sect k).size ·) =
        l.filter (0 < s.size ·) ++ [sect] := by
      rw [hsize, List.filter_append, filter_update hsl]; simp [hpos]
    refine ⟨?_, ?_, ?_, fun t ht => ?_, fun t ht htl => ?_, hsub, ?_,
      (hpl.growBy_max hfmt sect k).trans ((hl.placeAt_max h0).trans h.limit), ?_⟩
    · rw [hfilter]; exact hl.grow_placeAt hfmt h0 h.fixedSize hpos hfit
    · rw [hfilter, List.map_append, List.sum_append, hsize, map_filter_update hsl]
      change wrap32 (s.fixedSize + k) = _
      rw [h.fixedSize, wrap32_of_lt (by omega)]
      simp [h0]
    · rw [hsize, ← zeros_update]
      exact hpl.holds_grow hfmt (fun _ _ => rfl) (hl.holds_place h0 h.fixedSize h.zeros) sect List.length_replicate
    · rw [hsize, Function.update_of_ne fun he : t = sect => ht (he ▸ List.mem_cons_self)]
      exact h.empty t fun hm => ht (List.mem_cons_of_mem _ hm)
    · rw [hsize, Function.update_of_ne (hused t ht htl).1]
      exact (hused t ht htl).2
    · rw [hpl.growBy_total sect (by rw [hl.placeAt_total h0, hl.placeAt_max h0]; exact hfit), hl.placeAt_total h0]
      omega
    · change calloutRelocData _ _ _ s.patchData = []
      rw [h.patch]; rfl

/-- `num_cpu` の書き込み。 -/
theorem numCpu (hfmt : fmt.Ok) (h : Booted fmt max l used n s) :
    Booted fmt max l used n { s with mem := s.mem.writeLE (s.p .syspage + fmt.numCpuOff) fmt.fieldBytes 1 } := by
  have h1 := hfmt.size_num
  have h2 := hfmt.total_num
  have hm : ∀ i, fmt.IsCounter i → s.mem.writeLE (s.p .syspage + fmt.numCpuOff) fmt.fieldBytes 1 (s.p .syspage + i) =
      s.mem (s.p .syspage + i) := by
    intro i hi
    unfold SyspageFormat.IsCounter at hi
    exact Mem.writeLE_of_disjoint (by omega)
  refine ⟨h.layout.setMem hm, h.fixedSize, ?_, h.empty, h.filled, h.sub, ?_,
    (Syspage.counters_congr (s := s) hm).2.trans h.limit, h.patch⟩
  · refine h.zeros.congr fun t i hi hskip => Mem.writeLE_of_disjoint ?_
    have hf := h.layout.front hskip
    have hn := hfmt.num_in
    have hh := h.layout.header
    change _ ∨ _ ≤ s.p .syspage + s.off t + i
    omega
  · rw [(Syspage.counters_congr (s := s) hm).1]; exact h.bound

end Booted

section

variable {mem : Mem} {base maxSize : Nat}

theorem emptySyspage_size (fmt : SyspageFormat) (mem : Mem) (base maxSize : Nat) {t : Sect} (ht : t ≠ .syspage) :
    (emptySyspage fmt mem base maxSize).size t = 0 := by
  change Function.update (fun _ => 0) Sect.syspage (round fmt.headerSize 8) t = 0
  rw [Function.update_of_ne ht]

theorem emptySyspage_total (hfmt : fmt.Ok) (mem : Mem) (base maxSize : Nat) :
    (emptySyspage fmt mem base maxSize).totalSize fmt = round fmt.headerSize 8 := by
  have hst := hfmt.size_total
  have hfit := hfmt.fits
  have hsmall := hfmt.small
  have hlt := round_eight_lt (x := fmt.headerSize) (by omega)
  change Mem.readLE (Mem.writeLE (Mem.writeLE _ _ _ _) _ _ _) (base + _) _ = _
  rw [Mem.readLE_writeLE_of_disjoint (by omega), Mem.readLE_writeLE_self]
  exact Nat.mod_eq_of_lt (by omega)

theorem emptySyspage_max (fmt : SyspageFormat) (mem : Mem) (base : Nat) {maxSize : Nat} (hx : maxSize < 256 ^ fmt.fieldBytes) :
    (emptySyspage fmt mem base maxSize).maxSize fmt = maxSize :=
  (Mem.readLE_writeLE_self _ _ _ _).trans (Nat.mod_eq_of_lt hx)

variable (fmt mem) in
theorem emptySyspage_off (hb : base + maxSize < 2 ^ 32) (hle : round fmt.headerSize 8 ≤ maxSize) {t : Sect}
    (ht : t ≠ .syspage) : (emptySyspage fmt mem base maxSize).off t = round fmt.headerSize 8 := by
  change Function.update (fun _ => wrap32 (base + round fmt.headerSize 8)) Sect.syspage base t - base = _
  rw [Function.update_of_ne ht, wrap32_of_lt (by omega), Nat.add_sub_cancel_left]

theorem emptySyspage_packed (hfmt : fmt.Ok) (mem : Mem) (hb : base + maxSize < 2 ^ 32) (hle : round fmt.headerSize 8 ≤ maxSize) :
    Packed Sect.all (emptySyspage fmt mem base maxSize).off (emptySyspage fmt mem base maxSize).size [.syspage]
      (round fmt.headerSize 8) := by
  have hoff := fun t ht => emptySyspage_off fmt mem hb hle (t := t) ht
  have h0 := (emptySyspage fmt mem base maxSize).off_syspage
  have hsmall := hfmt.small
  have hpos : 0 < round fmt.headerSize 8 := by
    have := le_round_eight (x := fmt.headerSize) (by omega)
    have := hfmt.bytes_pos
    have := hfmt.size_in
    omega
  have hsz := fun t ht => emptySyspage_size fmt mem base maxSize (t := t) ht
  have hs0 : (emptySyspage fmt mem base maxSize).size .syspage = round fmt.headerSize 8 := rfl
  refine ⟨fun s => ?_, fun s t hst => ?_, ?_, by simp, ?_, ?_, fun s hs => ?_⟩
  · by_cases hs : s = .syspage
    · subst hs; omega
    · rw [hoff s hs, hsz s hs]; omega
  · by_cases hs : s = .syspage
    · subst hs; rw [hoff t (Ne.symm hst)]; omega
    · by_cases ht : t = .syspage
      · subst ht; rw [hoff s hs]; omega
      · rw [hoff s hs, hoff t ht, hsz s hs]; omega
  · have := sum_map_update Sect.all_nodup (fun _ => 0) .syspage (round fmt.headerSize 8) (Sect.mem_all _)
    rw [Nat.zero_add] at this
    exact this.trans (by simp [Sect.all])
  · simp [hs0, hpos]
  · exact ⟨h0, by simp [Chain]⟩
  · have hs' : s ≠ .syspage := fun h => hs (by simp [h])
    rw [hoff s hs']; simp [hs0]

theorem emptySyspage_booted (hfmt : fmt.Ok) (mem : Mem) (hx : maxSize < 256 ^ fmt.fieldBytes)
    (hb : base + maxSize < 2 ^ 32) (hle : round fmt.headerSize 8 ≤ maxSize) :
    Booted fmt maxSize [.syspage] [.syspage] (fmt.headerSize + 8) (emptySyspage fmt mem base maxSize) := by
  have hsmall := hfmt.small
  have hlt := round_eight_lt (x := fmt.headerSize) (by omega)
  have hge := le_round_eight (x := fmt.headerSize) (by omega)
  have htot := emptySyspage_total hfmt mem base maxSize
  have hmax := emptySyspage_max fmt mem base hx
  have hpk := emptySyspage_packed hfmt mem hb hle
  have hpos : 0 < (emptySyspage fmt mem base maxSize).size .syspage := hpk.pos _ (by simp)
  have hfilter : [Sect.syspage].filter (0 < (emptySyspage fmt mem base maxSize).size ·) = [.syspage] := by
    simp [hpos]
  refine ⟨?_, ?_, fun t i hi ht => ?_, fun t ht => ?_, fun t ht htl => absurd ht htl, by simp, by omega, hmax, rfl⟩
  · rw [hfilter]
    refine ⟨by omega, by rw [hmax]; exact hb, fun t => ?_, by rw [htot]; exact hpk, by simp, hge⟩
    by_cases ht : t = .syspage
    · subst ht; exact le_rfl
    · change base ≤ Function.update (fun _ => wrap32 (base + round fmt.headerSize 8)) Sect.syspage base t
      rw [Function.update_of_ne ht, wrap32_of_lt (by omega)]; omega
  · rw [hfilter]; rfl
  · have hz := emptySyspage_size fmt mem base maxSize ht
    omega
  · exact emptySyspage_size fmt mem base maxSize fun h : t = .syspage => ht (by simp [h])

/-! ### 上限がヘッダより小さいとき -/

private theorem grow_full {s : Syspage} {sect : Sect} {add : Nat} (hfull : s.maxSize fmt < s.totalSize fmt)
    (hadd : 0 < add) (hb : s.totalSize fmt + round add 8 < 2 ^ 32) {s' : Syspage} :
    growSyspageSection fmt s sect add ≠ .ok s' := by
  rw [growSyspageSection, if_pos hadd]
  simp only [wrap32_of_lt hb]
  rw [if_pos (by omega)]
  intro h
  cases h

private theorem set_full {s : Syspage} {sect : Sect} {size : Nat} (hfull : s.maxSize fmt < s.totalSize fmt)
    (hsect : sect ≠ .syspage) (hb : s.totalSize fmt + size + 8 ≤ 2 ^ 32) {s' : Syspage}
    (hs : setSyspageSection fmt s sect size = .ok s') :
    s'.maxSize fmt = s.maxSize fmt ∧ s'.totalSize fmt = s.totalSize fmt := by
  have hlt := round_eight_lt (x := size) (by omega)
  have hdvd := isAlign_eight.dvd_round (x := size) (by omega)
  have hrr := round_round_eight (x := size) (by omega) (by omega)
  have hbase : (placeAt s sect (round size 8)).p .syspage = s.p .syspage := Function.update_of_ne hsect.symm _ _
  have htot : (placeAt s sect (round size 8)).totalSize fmt = s.totalSize fmt := by
    rw [Syspage.totalSize, hbase]; rfl
  have hmax : (placeAt s sect (round size 8)).maxSize fmt = s.maxSize fmt := by
    rw [Syspage.maxSize, hbase]; rfl
  rw [setSyspageSection_eq] at hs
  rcases Nat.eq_zero_or_pos (round size 8) with hk | hpos
  · rw [growSyspageSection, if_neg (by omega)] at hs
    cases hs
    exact ⟨hmax, htot⟩
  · exact absurd hs (grow_full (by omega) hpos (by rw [htot, hrr]; omega))

/-- `init_syspage_memory()` が終われば、上限はヘッダより小さくない。 -/
theorem initSyspageMemory_fits (hfmt : fmt.Ok) (hx : maxSize < 256 ^ fmt.fieldBytes) {sp : Syspage}
    (h : initSyspageMemory fmt mem base maxSize = .ok sp) : round fmt.headerSize 8 ≤ maxSize := by
  by_contra hlt
  have hsmall := hfmt.small
  have hhd := round_eight_lt (x := fmt.headerSize) (by omega)
  have htot := emptySyspage_total hfmt mem base maxSize
  have hmax := emptySyspage_max fmt mem base hx
  obtain ⟨s1, h1, h⟩ := Except.bind_eq_ok.mp h
  obtain ⟨s2, h2, h⟩ := Except.bind_eq_ok.mp h
  obtain ⟨s3, h3, _⟩ := Except.bind_eq_ok.mp h
  obtain ⟨hm1, ht1⟩ := set_full (by omega) (by decide) (by omega) h1
  obtain ⟨hm2, ht2⟩ := set_full (by omega) (by decide) (by omega) h2
  have hr : round 4 8 = 8 := by decide
  exact grow_full (by omega) (by decide) (by omega) h3

/-- `init_syspage_memory()` の結果。 -/
theorem initSyspageMemory_booted (hfmt : fmt.Ok) (hx : maxSize < 256 ^ fmt.fieldBytes) (hb : base + maxSize < 2 ^ 32)
    {sp : Syspage} (h : initSyspageMemory fmt mem base maxSize = .ok sp) :
    ∃ n, Booted fmt maxSize [.syspage, .callout, .callin, .armCpu]
      [.armCpu, .hwinfo, .strings, .typedStrings, .callin, .callout, .syspage] n sp := by
  have hsmall := hfmt.small
  have h0 := emptySyspage_booted hfmt mem hx hb (initSyspageMemory_fits hfmt hx h)
  obtain ⟨s1, h1, h⟩ := Except.bind_eq_ok.mp h
  obtain ⟨s2, h2, h⟩ := Except.bind_eq_ok.mp h
  obtain ⟨s3, h3, h⟩ := Except.bind_eq_ok.mp h
  obtain ⟨s4, h4, h⟩ := Except.bind_eq_ok.mp h
  obtain ⟨s5, h5, h6⟩ := Except.bind_eq_ok.mp h
  have b1 := h0.set hfmt (by decide) (by omega) h1
  have b2 := b1.set hfmt (by decide) (by omega) h2
  have b3 := b2.grow hfmt (by decide) (by decide) (by omega) h3
  have b4 := b3.grow hfmt (by decide) (by decide) (by omega) h4
  have b5 := b4.grow hfmt (by decide) (by decide) (by omega) h5
  exact ⟨_, (b5.numCpu hfmt).set hfmt (by decide) (by omega) h6⟩

/-- `init_syspage_memory()` を終えた状態は、実行の不変条件を満たす。 -/
theorem SyspageTrace.start_inv (hfmt : fmt.Ok) (hx : maxSize < 256 ^ fmt.fieldBytes) (hb : base + maxSize < 2 ^ 32)
    {sp : Syspage} (h : initSyspageMemory fmt mem base maxSize = .ok sp) : (SyspageTrace.start sp).Inv fmt := by
  obtain ⟨n, hbt⟩ := initSyspageMemory_booted hfmt hx hb h
  refine ⟨hbt.layout, fun s => by simp [SyspageTrace.start], fun s i hi _ => ?_, fun _ => hbt.fixedSize⟩
  have hi' : i < sp.size s := hi
  have hp := hbt.layout.p_eq s
  change ((List.range (sp.size s)).map fun i => sp.mem (sp.p s + i))[i]? = some (sp.mem (sp.p .syspage + sp.off s + i))
  rw [List.getElem?_map, List.getElem?_range hi', ← hp]; rfl

end

end Imx6Bsp.Startup

namespace Imx6Bsp.Startup

open Imx6Bsp.Lib

/-! ## 節ごとの補題

一つの節を伸ばすか、一つの節の中に書くとき、その節とほかの節のバイトがどうなるかをまとめる。 -/

variable {fmt : SyspageFormat} {fixed : List Sect} {s : Syspage}

namespace Syspage.Layout

theorem size_le (hl : s.Layout fmt fixed) (t : Sect) : s.size t < 2 ^ 32 := by
  have := hl.inside t
  have := hl.total_le
  have := hl.room
  omega

/-- ヘッダでない節の中への書き込みは、配置の不変条件を保つ。 -/
theorem setSect (hfmt : fmt.Ok) (hl : s.Layout fmt fixed) (sect : Sect) (hs : sect ≠ .syspage) {mem : Mem}
    (hm : ∀ x, x < s.p sect → mem x = s.mem x) : ({ s with mem } : Syspage).Layout fmt fixed := by
  refine hl.setMem fun i hi => hm _ ?_
  have h1 := hl.p_eq sect
  have h2 := hl.front hs
  have h3 := hl.header
  have h4 := hfmt.size_in
  have h5 := hfmt.total_in
  unfold SyspageFormat.IsCounter at hi
  omega

/-- 節を伸ばしても、節の先頭とバイトは変わらず、加わったバイトは 0 である。 -/
theorem growBy_self (hfmt : fmt.Ok) (hl : s.Layout fmt fixed) (sect : Sect) (hs : sect ≠ .syspage) (k : Nat) :
    (growBy fmt s sect k).p sect = s.p sect ∧ (growBy fmt s sect k).size sect = s.size sect + k ∧
      (∀ x < s.size sect, (growBy fmt s sect k).mem (s.p sect + x) = s.mem (s.p sect + x)) ∧
      ∀ x, s.size sect ≤ x → x < s.size sect + k → (growBy fmt s sect k).mem (s.p sect + x) = 0 := by
  have hp := hl.p_eq sect
  have hfr := hl.front hs
  have hh := hl.header
  have ht := hfmt.total_in
  refine ⟨?_, Function.update_self _ _ _, fun x hx => ?_, fun x h1 h2 => ?_⟩
  · change s.p .syspage + openGap s.off s.size sect k sect = s.p sect
    rw [openGap_self, hp]
  · change Mem.writeLE _ _ _ _ _ = _
    rw [Mem.writeLE_of_disjoint (by omega), Mem.insertGap_below (by omega)]
  · change Mem.writeLE _ _ _ _ _ = _
    rw [Mem.writeLE_of_disjoint (by omega), Mem.insertGap_gap (by omega) (by omega)]

end Syspage.Layout

/-- 節 `t` の大きさとバイトが変わらない。 -/
def SameBytes (s s' : Syspage) (t : Sect) : Prop :=
  s'.size t = s.size t ∧ ∀ x < s.size t, s'.mem (s'.p t + x) = s.mem (s.p t + x)

theorem SameBytes.trans {s s' s'' : Syspage} {t : Sect} (h : SameBytes s s' t) (h' : SameBytes s' s'' t) :
    SameBytes s s'' t :=
  ⟨h'.1.trans h.1, fun x hx => (h'.2 x (by rw [h.1]; exact hx)).trans (h.2 x hx)⟩

namespace Syspage.Layout

/-- ほかの節を伸ばしても、節のバイトは変わらない。 -/
theorem growBy_other (hfmt : fmt.Ok) (hl : s.Layout fmt fixed) {sect t : Sect} (hne : t ≠ sect) (ht : t ≠ .syspage) (k : Nat) :
    SameBytes s (growBy fmt s sect k) t := by
  have hp := hl.p_eq t
  have hfr := hl.front ht
  have hin := hl.inside t
  have hh := hl.header
  have hti := hfmt.total_in
  refine ⟨Function.update_of_ne hne _ _, fun x hx => ?_⟩
  change Mem.writeLE _ _ _ _ (s.p .syspage + openGap s.off s.size sect k t + x) = _
  rcases hl.packed.apart t sect hne with hlt | hge
  · have hsect := hl.header_le_bottom sect
    have hpos := hl.header_pos
    rw [openGap_of_lt k (by omega), Mem.writeLE_of_disjoint (by omega), Mem.insertGap_below (by omega), hp]
  · rw [openGap_of_le k hne hge, Mem.writeLE_of_disjoint (by omega),
      show s.p .syspage + (s.off t + k) + x = s.p .syspage + s.off t + x + k by omega,
      Mem.insertGap_above (by omega) (by omega), hp]

/-- 節の中への書き込みは、ほかの節のバイトを変えない。 -/
theorem write_other (hl : s.Layout fmt fixed) (sect : Sect) {t : Sect} (hne : t ≠ sect) {mem : Mem}
    (hm : ∀ x, x < s.p sect ∨ s.p sect + s.size sect ≤ x → mem x = s.mem x) : SameBytes s { s with mem } t := by
  refine ⟨rfl, fun x hx => hm (s.p t + x) ?_⟩
  have h1 := hl.p_eq t
  have h2 := hl.p_eq sect
  have := hl.packed.apart t sect hne
  omega

/-- ヘッダでない節の中への書き込みは、大きさの上限を変えない。 -/
theorem setSect_max (hfmt : fmt.Ok) (hl : s.Layout fmt fixed) (sect : Sect) (hs : sect ≠ .syspage) {mem : Mem}
    (hm : ∀ x, x < s.p sect → mem x = s.mem x) : ({ s with mem } : Syspage).maxSize fmt = s.maxSize fmt := by
  have h1 := hl.p_eq sect
  have h2 := hl.front hs
  have h3 := hl.header
  have h4 := hfmt.size_in
  exact Mem.readLE_congr fun i hi => hm (s.p .syspage + fmt.sizeOff + i) (by omega)

end Syspage.Layout

end Imx6Bsp.Startup
