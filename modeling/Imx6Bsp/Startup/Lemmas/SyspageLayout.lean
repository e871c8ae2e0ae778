import Imx6Bsp.Startup.SyspageMemory

/-!
# システムページの配置の不変条件

節の位置を先頭からの差で表すと、節は一つの領域に詰めて並んだ区画である。節を伸ばす操作は区画の末尾に隙間を空ける操作であり、
ヘッダの欄は動かない。
-/

namespace Imx6Bsp.Startup

open Imx6Bsp.Lib

theorem Sect.all_nodup : Sect.all.Nodup := by decide

theorem Sect.mem_all (s : Sect) : s ∈ Sect.all := by cases s <;> decide

/-! ## 切り上げ -/

theorem round_eight_lt {x : Nat} (h : x + 8 ≤ 2 ^ 32) : round x 8 < x + 8 := by
  rw [isAlign_eight.round_eq h]; exact roundUp_lt x (by omega)

theorem le_round_eight {x : Nat} (h : x + 8 ≤ 2 ^ 32) : x ≤ round x 8 := isAlign_eight.le_round h

/-- `set_syspage_section()` で切り上げた大きさは、`grow_syspage_section()` でもう一度切り上げても変わらない。 -/
theorem round_round_eight {x : Nat} (h : x + 8 ≤ 2 ^ 32) (h' : round x 8 + 8 ≤ 2 ^ 32) :
    round (round x 8) 8 = round x 8 := by
  rw [isAlign_eight.round_eq h', roundUp_of_dvd (by omega) (isAlign_eight.dvd_round h)]

/-! ## 配置 -/

namespace Syspage

/-- システムページの先頭からの節の位置。 -/
def off (s : Syspage) (t : Sect) : Nat := s.p t - s.p .syspage

/-- 節が `content` を持つ。`skip` の位置は問わない。 -/
def HasContent (s : Syspage) (content : Sect → List UInt8) (skip : Sect → Nat → Prop) : Prop :=
  Holds s.mem (s.p .syspage) s.off s.size content skip

theorem off_syspage (s : Syspage) : s.off .syspage = 0 := Nat.sub_self _

/-- 節の配置の不変条件。列 `fixed` は先頭に並ぶ節である。 -/
structure Layout (fmt : SyspageFormat) (fixed : List Sect) (s : Syspage) : Prop where
  total_le : s.totalSize fmt ≤ s.maxSize fmt
  room : s.p .syspage + s.maxSize fmt < 2 ^ 32
  base_le : ∀ t, s.p .syspage ≤ s.p t
  packed : Packed Sect.all s.off s.size fixed (s.totalSize fmt)
  head : .syspage ∈ fixed
  header : fmt.headerSize ≤ s.size .syspage

namespace Layout

variable {fmt : SyspageFormat} {fixed : List Sect} {s : Syspage}

theorem p_eq (h : s.Layout fmt fixed) (t : Sect) : s.p t = s.p .syspage + s.off t := by
  have := h.base_le t
  unfold off; omega

theorem header_pos (h : s.Layout fmt fixed) : 0 < s.size .syspage := h.packed.pos _ h.head

/-- ヘッダのほかの節は、ヘッダの後ろにある。 -/
theorem front (h : s.Layout fmt fixed) {t : Sect} (ht : t ≠ .syspage) : s.size .syspage ≤ s.off t := by
  have h0 := s.off_syspage
  by_cases hf : t ∈ fixed
  · have := h.packed.pos t hf
    have := h.packed.apart t .syspage ht
    omega
  · have := h.packed.after t hf
    have := (h.packed.chain.bounds h.head).2
    omega

theorem header_le_bottom (h : s.Layout fmt fixed) (t : Sect) : s.size .syspage ≤ s.off t + s.size t := by
  by_cases ht : t = .syspage
  · subst ht; omega
  · have := h.front ht; omega

theorem inside (h : s.Layout fmt fixed) (t : Sect) : s.off t + s.size t ≤ s.totalSize fmt := h.packed.inside t

/-- 節の中の番地は、節と節の中の位置を一意に決める。 -/
theorem addr_inj (h : s.Layout fmt fixed) {t u : Sect} {i j : Nat} (hi : i < s.size t) (hj : j < s.size u)
    (heq : s.p t + i = s.p u + j) : t = u ∧ i = j := by
  have ht := h.p_eq t
  have hu := h.p_eq u
  by_cases htu : t = u
  · subst htu; exact ⟨rfl, by omega⟩
  · have := h.packed.apart t u htu
    omega

end Layout

end Syspage

/-! ## 節を伸ばす操作 -/

section

variable {fmt : SyspageFormat} {fixed : List Sect} {s : Syspage}

/-- 節 `sect` の末尾に `k` バイトの隙間を空けた状態。 -/
def growBy (fmt : SyspageFormat) (s : Syspage) (sect : Sect) (k : Nat) : Syspage :=
  { s with
    mem := (s.mem.insertGap (s.p .syspage + s.off sect + s.size sect) k
      (s.totalSize fmt - (s.off sect + s.size sect))).writeLE (s.p .syspage + fmt.totalSizeOff) fmt.fieldBytes
      (s.totalSize fmt + k)
    p := fun t => s.p .syspage + openGap s.off s.size sect k t
    patchData := calloutRelocData (s.p .syspage + s.off sect + s.size sect)
      (s.totalSize fmt - (s.off sect + s.size sect)) k s.patchData
    size := Function.update s.size sect (s.size sect + k) }

/-- 桁があふれなければ、`grow_syspage_section()` は隙間を空けるか、上限を超えて止まる。 -/
theorem growSyspageSection_eq (h : s.Layout fmt fixed) (sect : Sect) {add : Nat} (hadd : 0 < add)
    (hb : s.totalSize fmt + round add 8 < 2 ^ 32) :
    growSyspageSection fmt s sect add =
      if s.totalSize fmt + round add 8 > s.maxSize fmt then
        .error (.syspageRequestExceedsMaximum (s.totalSize fmt + round add 8) (s.maxSize fmt))
      else .ok (growBy fmt s sect (round add 8)) := by
  generalize hkk : round add 8 = k at hb
  have hnew : wrap32 (s.totalSize fmt + k) = s.totalSize fmt + k := wrap32_of_lt (by omega)
  rw [growSyspageSection, if_pos hadd]
  simp only [hkk, hnew]
  split
  · rfl
  · rename_i hle
    have hroom := h.room
    have hsect := h.p_eq sect
    have hin := h.inside sect
    have hhead := h.header_le_bottom sect
    have hpos := h.header_pos
    have h0 := s.off_syspage
    have hbot : wrap32 (s.p sect + s.size sect) = s.p sect + s.size sect := wrap32_of_lt (by omega)
    have hp : (fun t => if t ≠ sect ∧ s.p t ≥ s.p sect + s.size sect then wrap32 (s.p t + k) else s.p t) =
        fun t => s.p .syspage + openGap s.off s.size sect k t := by
      funext t
      have ht := h.p_eq t
      have htin := h.inside t
      have hw : wrap32 (s.p t + k) = s.p t + k := wrap32_of_lt (by omega)
      rw [hw, openGap]
      by_cases hc : t ≠ sect ∧ s.off sect + s.size sect ≤ s.off t
      · rw [if_pos hc, if_pos ⟨hc.1, by omega⟩]; omega
      · rw [if_neg hc, if_neg fun hn => hc ⟨hn.1, by omega⟩]; exact ht
    have hp0 : (if Sect.syspage ≠ sect ∧ s.p .syspage ≥ s.p sect + s.size sect then wrap32 (s.p .syspage + k)
        else s.p .syspage) = s.p .syspage := if_neg (by omega)
    have hlen : wrap32 (s.totalSize fmt + s.p .syspage + (2 ^ 32 - (s.p sect + s.size sect))) =
        s.totalSize fmt - (s.off sect + s.size sect) := by
      have : s.totalSize fmt + s.p .syspage + (2 ^ 32 - (s.p sect + s.size sect)) =
          s.totalSize fmt - (s.off sect + s.size sect) + 2 ^ 32 := by omega
      rw [this, wrap32, Nat.add_mod_right]
      exact Nat.mod_eq_of_lt (by omega)
    have hdst : wrap32 (s.p sect + s.size sect + k) = s.p sect + s.size sect + k := wrap32_of_lt (by omega)
    have hsz : wrap32 (s.size sect + k) = s.size sect + k := wrap32_of_lt (by omega)
    have htot : s.mem.readLE (s.p .syspage + fmt.totalSizeOff) fmt.fieldBytes = s.totalSize fmt := rfl
    simp only [hbot, hp, hp0, htot, hlen, hdst, hsz]
    rw [hsect]; rfl

theorem growSyspageSection_ok (h : s.Layout fmt fixed) {sect : Sect} {add : Nat} {s' : Syspage} (hadd : 0 < add)
    (hb : s.totalSize fmt + round add 8 < 2 ^ 32) (hs : growSyspageSection fmt s sect add = .ok s') :
    s.totalSize fmt + round add 8 ≤ s.maxSize fmt ∧ s' = growBy fmt s sect (round add 8) := by
  rw [growSyspageSection_eq h sect hadd hb] at hs
  split at hs
  · cases hs
  · rename_i hle
    exact ⟨Nat.not_lt.mp hle, (Except.ok.inj hs).symm⟩

namespace Syspage.Layout

theorem growBy_base (h : s.Layout fmt fixed) (sect : Sect) (k : Nat) :
    (growBy fmt s sect k).p .syspage = s.p .syspage := by
  have h0 := s.off_syspage
  have hpos := h.header_pos
  have hhead := h.header_le_bottom sect
  change s.p .syspage + openGap s.off s.size sect k .syspage = s.p .syspage
  rw [openGap_of_lt k (by omega), h0, Nat.add_zero]

theorem growBy_off (h : s.Layout fmt fixed) (sect : Sect) (k : Nat) :
    (growBy fmt s sect k).off = openGap s.off s.size sect k := by
  funext t
  rw [off, h.growBy_base]
  exact Nat.add_sub_cancel_left _ _

/-- 隙間を空けても、ヘッダの `total_size` の欄の外は変わらない。 -/
theorem growBy_header (hfmt : fmt.Ok) (h : s.Layout fmt fixed) (sect : Sect) (k : Nat) {i : Nat}
    (hi : i < s.size .syspage) (ht : i < fmt.totalSizeOff ∨ fmt.totalSizeOff + fmt.fieldBytes ≤ i) :
    (growBy fmt s sect k).mem (s.p .syspage + i) = s.mem (s.p .syspage + i) := by
  have hhead := h.header_le_bottom sect
  have := hfmt.total_in
  change Mem.writeLE _ _ _ _ _ = _
  rw [Mem.writeLE_of_disjoint (by omega), Mem.insertGap_below (by omega)]

theorem growBy_total (h : s.Layout fmt fixed) (sect : Sect) {k : Nat} (hk : s.totalSize fmt + k ≤ s.maxSize fmt) :
    (growBy fmt s sect k).totalSize fmt = s.totalSize fmt + k := by
  have hlt : s.maxSize fmt < 256 ^ fmt.fieldBytes := Mem.readLE_lt _ _ _
  rw [totalSize, h.growBy_base]
  exact (Mem.readLE_writeLE_self _ _ _ _).trans (Nat.mod_eq_of_lt (by omega))

theorem growBy_max (hfmt : fmt.Ok) (h : s.Layout fmt fixed) (sect : Sect) (k : Nat) :
    (growBy fmt s sect k).maxSize fmt = s.maxSize fmt := by
  have hsize := hfmt.size_in
  have hst := hfmt.size_total
  have hh := h.header
  rw [maxSize, h.growBy_base]
  refine Mem.readLE_congr fun i hi => ?_
  rw [Nat.add_assoc]
  exact h.growBy_header hfmt sect k (by omega) (by omega)

/-- 節を伸ばしても、配置の不変条件は保たれる。 -/
theorem grow (hfmt : fmt.Ok) (h : s.Layout fmt fixed) (sect : Sect) {k : Nat}
    (hk : s.totalSize fmt + k ≤ s.maxSize fmt) : (growBy fmt s sect k).Layout fmt fixed where
  total_le := by rw [h.growBy_total sect hk, h.growBy_max hfmt]; exact hk
  room := by rw [h.growBy_base, h.growBy_max hfmt]; exact h.room
  base_le := fun t => by rw [h.growBy_base]; exact Nat.le_add_right _ _
  packed := by
    rw [h.growBy_off, h.growBy_total sect hk]
    exact h.packed.grow Sect.all_nodup Sect.mem_all sect k
  head := h.head
  header := by
    refine h.header.trans ?_
    change s.size .syspage ≤ Function.update s.size sect (s.size sect + k) .syspage
    by_cases hs : sect = .syspage
    · subst hs; rw [Function.update_self]; omega
    · rw [Function.update_of_ne (Ne.symm hs)]

/-- 節を伸ばしても、節の中身は変わらず、加わったバイトは 0 である。 -/
theorem holds_grow (hfmt : fmt.Ok) (h : s.Layout fmt fixed) {content : Sect → List UInt8}
    {skip : Sect → Nat → Prop} (hsk : ∀ i, fmt.IsCounter i → skip .syspage i)
    (hc : s.HasContent content skip) (sect : Sect) {k : Nat} (hlen : (content sect).length = s.size sect) :
    (growBy fmt s sect k).HasContent (Function.update content sect (content sect ++ List.replicate k 0)) skip := by
  unfold HasContent at hc ⊢
  rw [h.growBy_base, h.growBy_off]
  refine (hc.grow h.packed k hlen).congr fun t i hi hskip => ?_
  have htot := hfmt.total_in
  have hh := h.header
  refine Mem.writeLE_of_disjoint ?_
  by_cases ht : t = .syspage
  · subst ht
    have h0 := s.off_syspage
    have hb := h.header_le_bottom sect
    have hpos := h.header_pos
    have hnc : ¬ fmt.IsCounter i := fun hcnt => hskip (hsk i hcnt)
    unfold SyspageFormat.IsCounter at hnc
    rw [openGap_of_lt k (by omega), h0]; omega
  · have hf := h.front ht
    have : s.off t ≤ openGap s.off s.size sect k t := by
      unfold openGap; split <;> omega
    omega

end Syspage.Layout

end

/-! ## 節を作る操作 -/

section

variable {fmt : SyspageFormat} {fixed : List Sect} {s : Syspage}

/-- 節 `sect` の先頭を `fixed_size` の位置に移し、`fixed_size` を進めた状態。 -/
def placeAt (s : Syspage) (sect : Sect) (k : Nat) : Syspage :=
  { s with
    p := Function.update s.p sect (wrap32 (s.p .syspage + s.fixedSize))
    fixedSize := wrap32 (s.fixedSize + k) }

theorem setSyspageSection_eq (fmt : SyspageFormat) (s : Syspage) (sect : Sect) (size : Nat) :
    setSyspageSection fmt s sect size = growSyspageSection fmt (placeAt s sect (round size 8)) sect (round size 8) :=
  rfl

namespace Syspage.Layout

variable {sect : Sect} {k : Nat}

theorem ne_syspage (h : s.Layout fmt fixed) (h0 : s.size sect = 0) : sect ≠ .syspage := by
  have := h.header_pos
  rintro rfl; omega

theorem placeAt_base (h : s.Layout fmt fixed) (h0 : s.size sect = 0) : (placeAt s sect k).p .syspage = s.p .syspage :=
  Function.update_of_ne (h.ne_syspage h0).symm _ _

theorem placeAt_total (h : s.Layout fmt fixed) (h0 : s.size sect = 0) :
    (placeAt s sect k).totalSize fmt = s.totalSize fmt := by
  rw [totalSize, h.placeAt_base h0]; rfl

theorem placeAt_max (h : s.Layout fmt fixed) (h0 : s.size sect = 0) :
    (placeAt s sect k).maxSize fmt = s.maxSize fmt := by
  rw [maxSize, h.placeAt_base h0]; rfl

theorem fixed_le (h : s.Layout fmt fixed) : (fixed.map s.size).sum ≤ s.totalSize fmt :=
  h.packed.fixed_le (List.ne_nil_of_mem h.head)

theorem placeAt_off (h : s.Layout fmt fixed) (h0 : s.size sect = 0) (hf : s.fixedSize = (fixed.map s.size).sum) :
    (placeAt s sect k).off = Function.update s.off sect (fixed.map s.size).sum := by
  have hle := h.fixed_le
  have hmax := h.total_le
  have hroom := h.room
  funext t
  rw [off, h.placeAt_base h0]
  by_cases ht : t = sect
  · subst ht
    rw [Function.update_self]
    change Function.update s.p t (wrap32 (s.p .syspage + s.fixedSize)) t - s.p .syspage = _
    rw [Function.update_self, hf, wrap32_of_lt (by omega), Nat.add_sub_cancel_left]
  · rw [Function.update_of_ne ht]
    change Function.update s.p sect (wrap32 (s.p .syspage + s.fixedSize)) t - s.p .syspage = _
    rw [Function.update_of_ne ht]; rfl

/-- 空の節の先頭を移しても、配置の不変条件は保たれる。 -/
theorem place (h : s.Layout fmt fixed) (h0 : s.size sect = 0) (hf : s.fixedSize = (fixed.map s.size).sum) :
    (placeAt s sect k).Layout fmt fixed where
  total_le := by rw [h.placeAt_total h0, h.placeAt_max h0]; exact h.total_le
  room := by rw [h.placeAt_base h0, h.placeAt_max h0]; exact h.room
  base_le := fun t => by
    have hle := h.fixed_le
    have hmax := h.total_le
    have hroom := h.room
    rw [h.placeAt_base h0]
    by_cases ht : t = sect
    · subst ht
      change _ ≤ Function.update s.p t (wrap32 (s.p .syspage + s.fixedSize)) t
      rw [Function.update_self, hf, wrap32_of_lt (by omega)]; omega
    · change _ ≤ Function.update s.p sect (wrap32 (s.p .syspage + s.fixedSize)) t
      rw [Function.update_of_ne ht]; exact h.base_le t
  packed := by
    rw [h.placeAt_off h0 hf, h.placeAt_total h0]
    exact h.packed.place h0
  head := h.head
  header := h.header

theorem holds_place (h : s.Layout fmt fixed) (h0 : s.size sect = 0) (hf : s.fixedSize = (fixed.map s.size).sum)
    {content : Sect → List UInt8} {skip : Sect → Nat → Prop} (hc : s.HasContent content skip) :
    (placeAt s sect k).HasContent content skip := by
  unfold HasContent at hc ⊢
  rw [h.placeAt_base h0, h.placeAt_off h0 hf]
  exact hc.place h0 _

/-- 移した節を伸ばすと、節は列の終わりに加わる。 -/
theorem grow_placeAt (hfmt : fmt.Ok) (h : s.Layout fmt fixed) (h0 : s.size sect = 0)
    (hf : s.fixedSize = (fixed.map s.size).sum) (hpos : 0 < k) (hk : s.totalSize fmt + k ≤ s.maxSize fmt) :
    (growBy fmt (placeAt s sect k) sect k).Layout fmt (fixed ++ [sect]) := by
  have hpl := h.place (k := k) h0 hf
  have hk' : (placeAt s sect k).totalSize fmt + k ≤ (placeAt s sect k).maxSize fmt := by
    rw [h.placeAt_total h0, h.placeAt_max h0]; exact hk
  have hg := hpl.grow hfmt sect hk'
  have hsf : sect ∉ fixed := fun hm => by
    have := h.packed.pos sect hm
    omega
  have hsize : (growBy fmt (placeAt s sect k) sect k).size = Function.update s.size sect (s.size sect + k) := rfl
  have hsum : fixed.map (growBy fmt (placeAt s sect k) sect k).size = fixed.map s.size :=
    List.map_congr_left fun t ht => by
      rw [hsize, Function.update_of_ne fun he : t = sect => hsf (he ▸ ht)]
  have hoff : (growBy fmt (placeAt s sect k) sect k).off sect = (fixed.map s.size).sum := by
    rw [hpl.growBy_off, openGap_self, h.placeAt_off h0 hf, Function.update_self]
  refine { hg with packed := hg.packed.extend hsf ?_ ?_ fun t htf hts => ?_, head := List.mem_append_left _ h.head }
  · rw [hsize, Function.update_self]; omega
  · rw [hoff, hsum]
  · have hself : (placeAt s sect k).off sect = (fixed.map s.size).sum := by
      rw [h.placeAt_off h0 hf, Function.update_self]
    have hafter : (fixed.map s.size).sum ≤ (placeAt s sect k).off t := hpl.packed.after t htf
    have hz : (placeAt s sect k).size sect = 0 := h0
    rw [hoff, hsize, Function.update_self, h0, hpl.growBy_off, openGap_of_le k hts (by omega)]; omega

end Syspage.Layout

/-- `set_syspage_section()` の結果。 -/
theorem setSyspageSection_ok (h : s.Layout fmt fixed) {sect : Sect} {size : Nat} {s' : Syspage}
    (h0 : s.size sect = 0) (hf : s.fixedSize = (fixed.map s.size).sum) (hb : s.totalSize fmt + size + 8 ≤ 2 ^ 32)
    (hs : setSyspageSection fmt s sect size = .ok s') :
    (round size 8 = 0 ∧ s' = placeAt s sect 0) ∨
    (0 < round size 8 ∧ s.totalSize fmt + round size 8 ≤ s.maxSize fmt ∧
      s' = growBy fmt (placeAt s sect (round size 8)) sect (round size 8)) := by
  have hlt := round_eight_lt (x := size) (by omega)
  have hdvd := isAlign_eight.dvd_round (x := size) (by omega)
  have hrr := round_round_eight (x := size) (by omega) (by omega)
  rw [setSyspageSection_eq] at hs
  generalize round size 8 = k at *
  rcases Nat.eq_zero_or_pos k with rfl | hpos
  · rw [growSyspageSection, if_neg (by omega)] at hs
    exact Or.inl ⟨rfl, (Except.ok.inj hs).symm⟩
  · obtain ⟨hle, heq⟩ := growSyspageSection_ok (h.place h0 hf) hpos
      (by rw [h.placeAt_total h0, hrr]; omega) hs
    rw [h.placeAt_total h0, h.placeAt_max h0, hrr] at hle
    rw [hrr] at heq
    exact Or.inr ⟨hpos, hle, heq⟩

end

/-! ## 移す操作と、節の中への書き込み -/

section

variable {fmt : SyspageFormat} {fixed : List Sect} {s : Syspage}

namespace Syspage

/-- 二つの欄が同じ記憶域では、`total_size` と `size` も同じである。 -/
theorem counters_congr {s t : Syspage}
    (hm : ∀ i, fmt.IsCounter i → t.mem (t.p .syspage + i) = s.mem (s.p .syspage + i)) :
    t.totalSize fmt = s.totalSize fmt ∧ t.maxSize fmt = s.maxSize fmt := by
  constructor <;> refine Mem.readLE_congr fun i hi => ?_
  · rw [Nat.add_assoc, Nat.add_assoc]
    exact hm _ (Or.inr ⟨by omega, by omega⟩)
  · rw [Nat.add_assoc, Nat.add_assoc]
    exact hm _ (Or.inl ⟨by omega, by omega⟩)

namespace Layout

/-- 二つの欄を変えない書き込みは、配置の不変条件を保つ。 -/
theorem setMem (h : s.Layout fmt fixed) {mem : Mem}
    (hm : ∀ i, fmt.IsCounter i → mem (s.p .syspage + i) = s.mem (s.p .syspage + i)) :
    ({ s with mem } : Syspage).Layout fmt fixed := by
  obtain ⟨ht, hx⟩ := counters_congr (s := s) (t := { s with mem }) hm
  exact ⟨by rw [ht, hx]; exact h.total_le, by rw [hx]; exact h.room, h.base_le, by rw [ht]; exact h.packed, h.head,
    h.header⟩

/-- 移した後の節の先頭。 -/
theorem reloc_p (h : s.Layout fmt fixed) {base maxSize : Nat} (hle : s.totalSize fmt ≤ maxSize)
    (hb : base + maxSize < 2 ^ 32) (t : Sect) : (relocSyspageMemory fmt s base maxSize).p t = base + s.off t := by
  have hp := h.p_eq t
  have hin := h.inside t
  have hroom := h.room
  have hmax := h.total_le
  change wrap32 (s.p t + wrap32 (base + (2 ^ 32 - s.p .syspage))) = base + s.off t
  rw [hp]
  unfold wrap32; omega

theorem reloc_base (h : s.Layout fmt fixed) {base maxSize : Nat} (hle : s.totalSize fmt ≤ maxSize)
    (hb : base + maxSize < 2 ^ 32) : (relocSyspageMemory fmt s base maxSize).p .syspage = base := by
  rw [h.reloc_p hle hb, s.off_syspage, Nat.add_zero]

theorem reloc_off (h : s.Layout fmt fixed) {base maxSize : Nat} (hle : s.totalSize fmt ≤ maxSize)
    (hb : base + maxSize < 2 ^ 32) : (relocSyspageMemory fmt s base maxSize).off = s.off := by
  funext t
  rw [off, h.reloc_p hle hb, h.reloc_base hle hb, Nat.add_sub_cancel_left]

/-- 移した後の中身は、`size` の欄を除いて元と同じである。 -/
theorem reloc_mem (h : s.Layout fmt fixed) {base maxSize : Nat} (hle : s.totalSize fmt ≤ maxSize)
    (hb : base + maxSize < 2 ^ 32) {i : Nat} (hi : i < s.totalSize fmt)
    (hs : i < fmt.sizeOff ∨ fmt.sizeOff + fmt.fieldBytes ≤ i) :
    (relocSyspageMemory fmt s base maxSize).mem (base + i) = s.mem (s.p .syspage + i) := by
  have hbase := h.reloc_base hle hb
  change ((s.mem.move base (s.p .syspage) (s.totalSize fmt)).writeLE
    ((relocSyspageMemory fmt s base maxSize).p .syspage + fmt.sizeOff) fmt.fieldBytes maxSize) (base + i) = _
  rw [hbase, Mem.writeLE_of_disjoint (by omega), Mem.move_in hi]

theorem reloc_total (hfmt : fmt.Ok) (h : s.Layout fmt fixed) {base maxSize : Nat} (hle : s.totalSize fmt ≤ maxSize)
    (hb : base + maxSize < 2 ^ 32) : (relocSyspageMemory fmt s base maxSize).totalSize fmt = s.totalSize fmt := by
  have htot := hfmt.total_in
  have hst := hfmt.size_total
  have hhd := h.header
  have hin := h.inside .syspage
  rw [totalSize, h.reloc_base hle hb]
  refine Mem.readLE_congr fun i hi => ?_
  rw [Nat.add_assoc, Nat.add_assoc]
  exact h.reloc_mem hle hb (by omega) (by omega)

theorem reloc_max (h : s.Layout fmt fixed) {base maxSize : Nat} (hle : s.totalSize fmt ≤ maxSize)
    (hx : maxSize < 256 ^ fmt.fieldBytes) (hb : base + maxSize < 2 ^ 32) :
    (relocSyspageMemory fmt s base maxSize).maxSize fmt = maxSize := by
  have hbase := h.reloc_base hle hb
  change ((s.mem.move base (s.p .syspage) (s.totalSize fmt)).writeLE
    ((relocSyspageMemory fmt s base maxSize).p .syspage + fmt.sizeOff) fmt.fieldBytes maxSize).readLE
    ((relocSyspageMemory fmt s base maxSize).p .syspage + fmt.sizeOff) fmt.fieldBytes = maxSize
  rw [Mem.readLE_writeLE_self, Nat.mod_eq_of_lt hx]

/-- システムページを移しても、配置の不変条件は保たれる。 -/
theorem reloc (hfmt : fmt.Ok) (h : s.Layout fmt fixed) {base maxSize : Nat} (hle : s.totalSize fmt ≤ maxSize)
    (hx : maxSize < 256 ^ fmt.fieldBytes) (hb : base + maxSize < 2 ^ 32) :
    (relocSyspageMemory fmt s base maxSize).Layout fmt fixed where
  total_le := by rw [h.reloc_total hfmt hle hb, h.reloc_max hle hx hb]; exact hle
  room := by rw [h.reloc_base hle hb, h.reloc_max hle hx hb]; exact hb
  base_le := fun t => by rw [h.reloc_base hle hb, h.reloc_p hle hb]; omega
  packed := by rw [h.reloc_off hle hb, h.reloc_total hfmt hle hb]; exact h.packed
  head := h.head
  header := h.header

theorem holds_reloc (h : s.Layout fmt fixed) {base maxSize : Nat} (hle : s.totalSize fmt ≤ maxSize)
    (hb : base + maxSize < 2 ^ 32) {content : Sect → List UInt8} {skip : Sect → Nat → Prop}
    (hsk : ∀ i, fmt.IsCounter i → skip .syspage i) (hfmt : fmt.Ok) (hc : s.HasContent content skip) :
    (relocSyspageMemory fmt s base maxSize).HasContent content skip := by
  unfold HasContent at hc ⊢
  rw [h.reloc_base hle hb, h.reloc_off hle hb]
  refine hc.congr fun t i hi hskip => ?_
  have hsz : i < s.size t := hi
  have hin := h.inside t
  have hs := hfmt.size_in
  have hh := h.header
  rw [Nat.add_assoc, Nat.add_assoc]
  refine h.reloc_mem hle hb (by omega) ?_
  by_cases ht : t = .syspage
  · subst ht
    have h0 := s.off_syspage
    have hnc : ¬ fmt.IsCounter i := fun hcnt => hskip (hsk i hcnt)
    unfold SyspageFormat.IsCounter at hnc
    omega
  · have := h.front ht
    omega

/-- 節の中の、二つの欄ではない位置への書き込みは、二つの欄を変えない。 -/
theorem store_counter (hfmt : fmt.Ok) (h : s.Layout fmt fixed) {sect : Sect} {j : Nat} (hns : ¬ fmt.Skip sect j)
    {v : UInt8} {i : Nat} (hi : fmt.IsCounter i) :
    Function.update s.mem (s.p sect + j) v (s.p .syspage + i) = s.mem (s.p .syspage + i) := by
  refine Function.update_of_ne (fun heq => ?_) _ _
  have hsize := hfmt.size_in
  have htot := hfmt.total_in
  have hh := h.header
  have hp := h.p_eq sect
  by_cases hs : sect = .syspage
  · subst hs
    exact hns ⟨rfl, by rwa [show j = i by omega]⟩
  · have := h.front hs
    unfold SyspageFormat.IsCounter at hi
    omega

theorem holds_store (h : s.Layout fmt fixed) {content : Sect → List UInt8} {skip : Sect → Nat → Prop}
    (hc : s.HasContent content skip) {sect : Sect} {j : Nat} (hj : j < s.size sect) (v : UInt8)
    (hlen : (content sect).length = s.size sect) :
    ({ s with mem := Function.update s.mem (s.p sect + j) v } : Syspage).HasContent
      (Function.update content sect ((content sect).set j v)) skip := by
  intro t i hi hskip
  have hi' : i < s.size t := hi
  have hold := hc t i hi' hskip
  have hp := h.p_eq t
  change _ = some (Function.update s.mem (s.p sect + j) v (s.p .syspage + s.off t + i))
  rw [← hp] at hold ⊢
  by_cases ht : t = sect
  · subst ht
    rw [Function.update_self]
    by_cases hij : i = j
    · subst hij
      rw [Function.update_self, List.getElem?_set_self (by omega)]
    · rw [Function.update_of_ne (by omega), List.getElem?_set_ne (Ne.symm hij)]
      exact hold
  · rw [Function.update_of_ne ht, Function.update_of_ne fun heq => ht (h.addr_inj hi' hj heq).1]
    exact hold

end Layout

end Syspage

end

end Imx6Bsp.Startup
