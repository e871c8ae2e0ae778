import Imx6Bsp.Startup.Lemmas.HwSection

/-!
# ハードウェア情報の節の実行の不変条件

`hwi_alloc_tag()` と `hwi_alloc_item()`、`hwi_grow_tag()` のそれぞれについて、節が表す札の列がどう変わるかを示す。
-/

namespace Imx6Bsp.Startup

open Imx6Bsp.Lib

/-- 状態の節が、札の列を表す。 -/
structure HwiOk (fmt : SyspageFormat) (fixed : List Sect) (sp : Syspage) (tags : List HwTag) : Prop where
  layout : sp.Layout fmt fixed
  max : sp.maxSize fmt ≤ 2 ^ 16
  strings : ∃ l e, StringSection sp l e
  hw : HwSection sp tags

variable {fmt : SyspageFormat} {fixed : List Sect} {sp : Syspage} {st : HwiState} {tags : List HwTag}

namespace HwiOk

theorem size_le (h : HwiOk fmt fixed sp tags) : sp.size .hwinfo ≤ 2 ^ 16 := by
  have := h.layout.inside .hwinfo
  have := h.layout.total_le
  have := h.max
  omega

/-- `lsp.hwinfo` の中への書き込み。 -/
theorem setMem (hfmt : fmt.Ok) (h : HwiOk fmt fixed sp tags) {mem : Mem} {tags' : List HwTag}
    (hm : ∀ x, x < sp.p .hwinfo ∨ sp.p .hwinfo + sp.size .hwinfo ≤ x → mem x = sp.mem x)
    (hw : HwSection { sp with mem } tags') : HwiOk fmt fixed { sp with mem } tags' := by
  have hlow : ∀ x, x < sp.p .hwinfo → mem x = sp.mem x := fun x hx => hm x (Or.inl hx)
  obtain ⟨l, e, hs⟩ := h.strings
  refine ⟨h.layout.setSect hfmt .hwinfo (by decide) hlow, ?_,
    ⟨l, e, hs.congr (h.layout.write_other .hwinfo (by decide) hm)⟩, hw⟩
  rw [h.layout.setSect_max hfmt .hwinfo (by decide) hlow]; exact h.max

/-- `add_string()` は、札の列を変えない。 -/
theorem addString (hfmt : fmt.Ok) (h : HwiOk fmt fixed sp tags) {name : List UInt8} (hname : ∀ c ∈ name, c ≠ 0)
    (hlen : name.length < 2 ^ 31) : Except.Meets .outside (addString fmt sp name) fun r =>
      HwiOk fmt fixed r.1 tags ∧ KeepsTags tags sp r.1 := by
  obtain ⟨l, e, hs⟩ := h.strings
  obtain ⟨hne, hok⟩ := hs.add hfmt h.layout hname hlen h.max
  refine ⟨hne, fun r hres => ?_⟩
  obtain ⟨hl', hmax', hs', hsame⟩ := hok r.1 r.2 hres
  have hhw := hsame .hwinfo (by decide) (by decide)
  exact ⟨⟨hl', by rw [hmax']; exact h.max, hs', h.hw.congr hhw⟩, SameBytes.keepsTags h.hw hhw⟩

/-- `grow_syspage_section()` で節を伸ばしても、札の列は変わらない。 -/
theorem grow (hfmt : fmt.Ok) (h : HwiOk fmt fixed sp tags) {size : Nat} (hpos : 0 < size) (hlt : size < 2 ^ 31) :
    Except.Meets .outside ((growSyspageSection fmt sp .hwinfo size).mapError StringFault.crash) fun sp' =>
      HwiOk fmt fixed sp' tags ∧ KeepsTags tags sp sp' ∧ sp.size .hwinfo + size ≤ sp'.size .hwinfo := by
  refine .mapError nofun fun sp' hg => ?_
  have htot := h.layout.total_le
  have hmax := h.max
  have hle := le_round_eight (x := size) (by omega)
  have hro := round_eight_lt (x := size) (by omega)
  obtain ⟨hfit, rfl⟩ := growSyspageSection_ok h.layout hpos (by omega) hg
  obtain ⟨hp, hsize, _⟩ := h.layout.growBy_self hfmt .hwinfo (by decide) (round size 8)
  obtain ⟨hhw, hkeep⟩ := h.hw.growBy hfmt h.layout (round size 8)
  obtain ⟨l, e, hs⟩ := h.strings
  refine ⟨⟨h.layout.grow hfmt .hwinfo hfit, ?_, ⟨l, e, ?_⟩, hhw⟩, hkeep, by omega⟩
  · rw [h.layout.growBy_max hfmt]; exact hmax
  · exact hs.congr (h.layout.growBy_other hfmt (by decide) (by decide) _)

end HwiOk

/-! ## 札を置く -/

theorem tagMem_outside {m : Mem} {p li off size nameOff n x : Nat} (hli : li + 6 ≤ n) (hoff : off + 4 ≤ n)
    (hx : x < p ∨ p + n ≤ x) : tagMem m p li off size nameOff x = m x := by
  rw [tagMem, Mem.writeLE_of_disjoint (by omega), Mem.writeLE_of_disjoint (by omega), addField_out (by omega)]

/-- 札を置いた後の状態。 -/
structure Placed (fmt : SyspageFormat) (fixed : List Sect) (tags tags' : List HwTag) (st st' : HwiState) : Prop where
  ok : HwiOk fmt fixed st'.sp tags'
  keeps : KeepsTags tags st.sp st'.sp
  offset : st'.offset = tagsEnd tags'

/-- 位置合わせの後の `hwi_alloc_tag()`。 -/
theorem putTag_spec (hfmt : fmt.Ok) (h : HwiOk fmt fixed st.sp tags) (hoff : st.offset = tagsEnd tags) {t : HwTag}
    (ht : NewTag tags st.lastItem t) (hlt : t.size < 2 ^ 31) {name : List UInt8} (hname : ∀ c ∈ name, c ≠ 0)
    (hlen : name.length < 2 ^ 31) : Except.Meets .outside (putTag fmt st name t.size) fun r =>
      Placed fmt fixed tags (tags ++ [t]) st r.1 ∧ r.1.lastItem = st.lastItem ∧ r.2 = tagsEnd tags := by
  have hpos := t.four_le_headerSize.trans ht.header
  rw [putTag]
  refine (h.addString hfmt hname hlen).bind ?_
  rintro ⟨sp1, nameOff⟩ ⟨h1, hk1⟩
  refine (h1.grow hfmt (by omega) hlt).bind fun sp2 ⟨h2, hk2, hsize⟩ => ?_
  have hr := h1.hw.room
  have hle := h2.size_le
  have hli : st.lastItem + 6 ≤ sp2.size .hwinfo := by
    rcases ht.li_field h2.hw with ⟨_, hle, _⟩ | ⟨_, heq, _⟩ <;> omega
  rw [hoff]
  refine .ok ⟨⟨h2.setMem hfmt (fun x hx => ?_) (h2.hw.put ht (by omega) hle),
    (hk1.trans hk2).trans (h2.hw.put_keeps ht), ?_⟩, rfl, rfl⟩
  · exact tagMem_outside hli (by omega) hx
  · change wrap32 (tagsEnd tags + t.size) = _
    rw [tagsEnd_append, tagsEnd_singleton, wrap32_of_lt (by omega)]

/-! ## 位置合わせ -/

theorem tagsEnd_padTags (tags : List HwTag) (align : Nat) :
    tagsEnd (padTags tags align) = tagsEnd tags + if tagsEnd tags % align = 0 then 0 else 4 := by
  rw [padTags]
  split
  · rfl
  · rw [tagsEnd_append]; rfl

theorem lastItemOff_padTags (tags : List HwTag) (align : Nat) : lastItemOff (padTags tags align) = lastItemOff tags := by
  rw [padTags]
  split
  · rfl
  · exact lastItemOff_snoc_tag tags rfl

/-- 4 の倍数の位置は、`pad` を置いた後は 4 か 8 の倍数になる。 -/
theorem tagsEnd_padTags_mod {align : Nat} (hmod : tagsEnd tags % 4 = 0) (halign : align = 4 ∨ align = 8) :
    tagsEnd (padTags tags align) % align = 0 := by
  rw [tagsEnd_padTags]
  rcases halign with rfl | rfl <;> split <;> omega

/-- 「`align_tag()` が `pad` を置かない」ことは、位置が揃っていることと同じである。 -/
theorem round_grow_eq_zero {x align : Nat} (hx : x < 2 ^ 31) (halign : align = 4 ∨ align = 8) :
    wrap32 (round x align + (2 ^ 32 - x)) = 0 ↔ x % align = 0 := by
  have ha : IsAlign align := by
    rcases halign with rfl | rfl
    · exact ⟨2, by omega, rfl⟩
    · exact ⟨3, by omega, rfl⟩
  have hle := ha.le_round (x := x) (by omega)
  rw [ha.round_eq (by omega)] at hle ⊢
  have hlt : roundUp x align < 2 ^ 32 := by
    unfold roundUp
    rcases halign with rfl | rfl <;> omega
  rw [wrap32_sub hle hlt]
  unfold roundUp at hle ⊢
  rcases halign with rfl | rfl <;> omega

/-- 位置が揃っていれば、`align_tag()` は何もしない。 -/
theorem alignTag_of_aligned {align : Nat} (hoff : st.offset < 2 ^ 31) (halign : align = 4 ∨ align = 8)
    (h : st.offset % align = 0) : alignTag fmt st align = .ok st := by
  rw [alignTag, if_neg (not_not.mpr ((round_grow_eq_zero hoff halign).mpr h))]

variable (st) in
/-- `align_tag()`。 -/
theorem alignTag_spec (hfmt : fmt.Ok) (h : HwiOk fmt fixed st.sp tags) (hoff : st.offset = tagsEnd tags)
    (hli : tags ≠ [] → lastItemOff tags = some st.lastItem) {align : Nat} (halign : align = 4 ∨ align = 8) :
    Except.Meets .outside (alignTag fmt st align) fun st' =>
      Placed fmt fixed tags (padTags tags align) st st' ∧ st'.lastItem = st.lastItem := by
  have hmod := tagsEnd_mod fun g hg => (h.hw.shape g hg).1
  have hr := h.hw.room
  have hle := h.size_le
  by_cases hal : tagsEnd tags % align = 0
  · rw [alignTag_of_aligned (by omega) halign (by rw [hoff]; exact hal), padTags, if_pos hal]
    exact .ok ⟨⟨h, fun _ _ _ _ _ _ => rfl, hoff⟩, rfl⟩
  · have hgrow := (round_grow_eq_zero (x := st.offset) (by omega) halign).not.mpr (by rw [hoff]; exact hal)
    have hfour := (round_grow_eq_zero (x := st.offset) (by omega) (Or.inl rfl)).mpr (by rw [hoff]; exact hmod)
    rw [alignTag, if_pos hgrow, if_neg (not_not.mpr hfour), padTags, if_neg hal]
    have hne : tags ≠ [] := by
      rintro rfl
      exact hal (Nat.zero_mod _)
    have hnew : NewTag tags st.lastItem ⟨tagsEnd tags, 4, 4, none⟩ :=
      ⟨rfl, by simp, by simp [HwTag.headerSize, HwTag.isItem], Nat.dvd_of_mod_eq_zero hmod, Or.inl ⟨rfl, hli hne⟩⟩
    have hput := putTag_spec hfmt h hoff hnew (by simp) (by simp [padName] : ∀ c ∈ padName, c ≠ 0) (by decide)
    exact hput.map fun r hr => ⟨hr.1, hr.2.1⟩

theorem mem_padTags {g : HwTag} (hg : g ∈ tags) (align : Nat) : g ∈ padTags tags align := by
  rw [padTags]
  split
  · exact hg
  · exact List.mem_append_left _ hg

theorem KeepsTags.of_padTags {s s' : Syspage} {align : Nat} (h : KeepsTags (padTags tags align) s s') : KeepsTags tags s s' :=
  fun g hg => h g (mem_padTags hg align)

/-- `hwi_alloc_tag()`。 -/
theorem hwiAllocTag_spec (hfmt : fmt.Ok) (h : HwiOk fmt fixed st.sp tags) (hoff : st.offset = tagsEnd tags)
    (hli : lastItemOff tags = some st.lastItem) {size align : Nat} (hsize : 0 < size ∧ size % 4 = 0 ∧ size < 2 ^ 31)
    (halign : align = 4 ∨ align = 8) {name : List UInt8} (hname : ∀ c ∈ name, c ≠ 0) (hlen : name.length < 2 ^ 31) :
    Except.Meets .outside (hwiAllocTag fmt st name size align) fun r =>
      Placed fmt fixed tags (placeTag tags r.2 size align none) st r.1 ∧ r.1.lastItem = st.lastItem := by
  have hmod := tagsEnd_mod fun g hg => (h.hw.shape g hg).1
  rw [hwiAllocTag]
  refine (alignTag_spec st hfmt h hoff (fun _ => hli) halign).bind fun st1 ⟨h1, hl1⟩ => ?_
  have hnew : NewTag (padTags tags align) st1.lastItem ⟨tagsEnd (padTags tags align), size, align, none⟩ := by
    refine ⟨rfl, hsize.2.1, ?_, Nat.dvd_of_mod_eq_zero (tagsEnd_padTags_mod hmod halign), Or.inl ⟨rfl, ?_⟩⟩
    · change 4 ≤ size
      omega
    · rw [lastItemOff_padTags, hl1]; exact hli
  refine (putTag_spec hfmt h1.ok h1.offset hnew hsize.2.2 hname hlen).mono fun r ⟨h2, hl2, hr⟩ => ?_
  rw [placeTag, hr]
  exact ⟨⟨h2.ok, h1.keeps.trans h2.keeps.of_padTags, h2.offset⟩, hl2.trans hl1⟩

/-! ## 項目 -/

/-- 項目の `itemname` と `owner` を書く書き込み。 -/
def itemMem (m : Mem) (p off itemname owner : Nat) : Mem :=
  (m.writeLE (p + (off + 6)) 2 itemname).writeLE (p + (off + 8)) 2 owner

theorem itemMem_out {m : Mem} {p off itemname owner x : Nat} (h : x < p + (off + 6) ∨ p + (off + 10) ≤ x) :
    itemMem m p off itemname owner x = m x := by
  rw [itemMem, Mem.writeLE_of_disjoint (by omega), Mem.writeLE_of_disjoint (by omega)]

theorem HwiOk.setItem (hfmt : fmt.Ok) {t : HwTag} (h : HwiOk fmt fixed sp (tags ++ [t])) (ht : t.isItem = true)
    (itemname owner : Nat) :
    HwiOk fmt fixed { sp with mem := itemMem sp.mem (sp.p .hwinfo) t.off itemname owner } (tags ++ [t]) ∧
      KeepsTags tags sp { sp with mem := itemMem sp.mem (sp.p .hwinfo) t.off itemname owner } := by
  have htm : t ∈ tags ++ [t] := by simp
  have hb := h.hw.bounds htm
  have h12 := hb.2.2 ht
  have hr := h.hw.room
  obtain ⟨m, hc1, hc2⟩ := h.hw.chain.split
  refine ⟨h.setMem hfmt (fun x hx => itemMem_out (by omega)) (h.hw.setInside htm fun x hx => ?_), fun g hg x h1 h2 _ => ?_⟩
  · have hin : t.off + 6 ≤ x ∧ x < t.off + 10 := by
      by_contra hout
      exact hx (itemMem_out (by omega))
    refine ⟨by omega, by omega, fun hc => ?_⟩
    rcases hc.2 with hc | hc <;> omega
  · have hlt := (hc1.bounds hg).2
    have hto := hc2.1
    exact itemMem_out (x := sp.p .hwinfo + x) (by omega)

/-- 親の `kids` を一つ増やす。 -/
theorem HwiOk.setOwner (hfmt : fmt.Ok) {t : HwTag} (h : HwiOk fmt fixed sp (tags ++ [t])) (ht : t.owner = some hwiNullOff)
    {g0 : HwTag} (hg0 : g0 ∈ tags) (hi0 : g0.isItem = true) :
    HwiOk fmt fixed { sp with mem := addField sp.mem (sp.p .hwinfo + (g0.off + 10)) 1 }
        (tags ++ [{ t with owner := some g0.off }]) ∧
      KeepsTags tags sp { sp with mem := addField sp.mem (sp.p .hwinfo + (g0.off + 10)) 1 } := by
  have hg0' : g0 ∈ tags ++ [t] := List.mem_append_left _ hg0
  have hb0 := h.hw.bounds hg0'
  have h12 := hb0.2.2 hi0
  have hr := h.hw.room
  refine ⟨h.setMem hfmt (fun x hx => addField_out (by omega)) (h.hw.setOwner ht hg0 hi0 h.size_le), fun g hg x h1 h2 h3 => ?_⟩
  refine addField_out (x := sp.p .hwinfo + x) ?_
  by_cases hgg : g = g0
  · subst hgg
    have : ¬ (g.off + 10 ≤ x ∧ x < g.off + 12) := fun hx => h3 ⟨hi0, Or.inr hx⟩
    omega
  · have := h.hw.chain.apart (List.mem_append_left _ hg) hg0' hgg
    omega

/-- `hwi_alloc_item()` の、札を置いた後の書き込み。 -/
def ownerMem (lib : HwiLib) (m : Mem) (p off itemname owner : Nat) : Mem :=
  if owner ≠ hwiNullOff then addField (itemMem m p off itemname owner) (lib.off2tag p owner + 10) 1
  else itemMem m p off itemname owner

theorem HwiOk.setItemOwner (lib : HwiLib) (hfmt : fmt.Ok) {off size align owner : Nat}
    (h : HwiOk fmt fixed sp (tags ++ [⟨off, size, align, some hwiNullOff⟩])) (itemname : Nat)
    (howner : owner = hwiNullOff ∨ ∃ g ∈ tags, g.isItem = true ∧ g.off = owner) :
    HwiOk fmt fixed { sp with mem := ownerMem lib sp.mem (sp.p .hwinfo) off itemname owner }
        (tags ++ [⟨off, size, align, some owner⟩]) ∧
      KeepsTags tags sp { sp with mem := ownerMem lib sp.mem (sp.p .hwinfo) off itemname owner } := by
  obtain ⟨h1, hk1⟩ := h.setItem hfmt rfl itemname owner
  by_cases hnull : owner = hwiNullOff
  · rw [ownerMem, if_neg (not_not.mpr hnull)]
    rw [hnull] at h1 hk1 ⊢
    exact ⟨h1, hk1⟩
  · obtain ⟨g0, hg0, hi0, rfl⟩ := howner.resolve_left hnull
    obtain ⟨h2, hk2⟩ := h1.setOwner hfmt rfl hg0 hi0
    rw [ownerMem, if_pos hnull, lib.off2tag_eq, Nat.add_assoc]
    exact ⟨h2, hk1.trans hk2⟩

variable (st) in
/-- `hwi_alloc_item()` の、札を置くところ。親はまだ決まっていない。 -/
theorem hwiAllocTag_item (hfmt : fmt.Ok) (h : HwiOk fmt fixed st.sp tags) (hoff : st.offset = tagsEnd tags)
    (hlast : st.lastItem = tagsEnd tags) {size align : Nat} (hsize : size % 4 = 0 ∧ size < 2 ^ 31)
    (hitem : hwiItemSize ≤ size) (halign : align = 4 ∨ align = 8) (hal : tagsEnd tags % align = 0) {name : List UInt8}
    (hname : ∀ c ∈ name, c ≠ 0) (hlen : name.length < 2 ^ 31) :
    Except.Meets .outside (hwiAllocTag fmt st name size align) fun r =>
      Placed fmt fixed tags (tags ++ [⟨tagsEnd tags, size, align, some hwiNullOff⟩]) st r.1 ∧
        r.1.lastItem = st.lastItem ∧ r.2 = tagsEnd tags := by
  have hr := h.hw.room
  have hle := h.size_le
  have hnew : NewTag tags st.lastItem ⟨tagsEnd tags, size, align, some hwiNullOff⟩ :=
    ⟨rfl, hsize.1, hitem, Nat.dvd_of_mod_eq_zero hal, Or.inr ⟨rfl, hlast⟩⟩
  rw [hwiAllocTag, alignTag_of_aligned (by omega) halign (by rw [hoff]; exact hal)]
  exact putTag_spec hfmt h hoff hnew hsize.2 hname hlen

/-- `hwi_alloc_item()`。 -/
theorem hwiAllocItem_spec (lib : HwiLib) (hfmt : fmt.Ok) (h : HwiOk fmt fixed st.sp tags) (hoff : st.offset = tagsEnd tags)
    (hli : tags ≠ [] → lastItemOff tags = some st.lastItem) {size align owner : Nat} (hsize : size % 4 = 0 ∧ size < 2 ^ 31)
    (hitem : hwiItemSize ≤ size) (halign : align = 4 ∨ align = 8) {name itemname : List UInt8}
    (hname : (∀ c ∈ name, c ≠ 0) ∧ name.length < 2 ^ 31) (hitemname : (∀ c ∈ itemname, c ≠ 0) ∧ itemname.length < 2 ^ 31)
    (howner : owner = hwiNullOff ∨ ∃ g ∈ tags, g.isItem = true ∧ g.off = owner) :
    Except.Meets .outside (hwiAllocItem lib fmt st name size align itemname owner) fun r =>
      Placed fmt fixed tags (placeTag tags r.2 size align (some owner)) st r.1 ∧ r.1.lastItem = r.2 := by
  have hmod := tagsEnd_mod fun g hg => (h.hw.shape g hg).1
  rw [hwiAllocItem]
  refine (h.addString hfmt hitemname.1 hitemname.2).bind ?_
  rintro ⟨sp1, savedIn⟩ ⟨h1, hk1⟩
  refine (alignTag_spec { st with sp := sp1 } hfmt h1 hoff hli halign).bind fun st2 ⟨h2, hl2⟩ => ?_
  refine (hwiAllocTag_item { st2 with lastItem := st2.offset } hfmt h2.ok h2.offset h2.offset hsize hitem halign
    (tagsEnd_padTags_mod hmod halign) hname.1 hname.2).bind ?_
  rintro ⟨st3, off⟩ ⟨h3, hl3, rfl⟩
  have howner' : owner = hwiNullOff ∨ ∃ g ∈ padTags tags align, g.isItem = true ∧ g.off = owner := by
    rcases howner with hn | ⟨g, hg, hgi⟩
    · exact Or.inl hn
    · exact Or.inr ⟨g, mem_padTags hg align, hgi⟩
  obtain ⟨h4, hk4⟩ := h3.ok.setItemOwner lib hfmt savedIn howner'
  refine .ok ⟨⟨h4, (hk1.trans h2.keeps).trans (h3.keeps.trans hk4).of_padTags, ?_⟩, hl3.trans h2.offset⟩
  rw [placeTag, tagsEnd_append, tagsEnd_singleton]
  refine h3.offset.trans ?_
  rw [tagsEnd_append, tagsEnd_singleton]

/-! ## 札を伸ばす -/

theorem growLast_snoc (tags : List HwTag) (t : HwTag) (size : Nat) :
    growLast (tags ++ [t]) size = tags ++ [{ t with size := t.size + size }] := by
  simp [growLast]

/-- `hwi_grow_tag()`。 -/
theorem hwiGrowTag_spec (hfmt : fmt.Ok) (h : HwiOk fmt fixed st.sp tags) (hli : lastItemOff tags = some st.lastItem)
    {off size : Nat} (hsize : 0 < size ∧ size % 4 = 0 ∧ size < 2 ^ 31) (hlast : ∃ g ∈ tags.getLast?, g.off = off) :
    Except.Meets .outside (hwiGrowTag fmt st off size) fun st' =>
      HwiOk fmt fixed st'.sp (growLast tags size) ∧ lastItemOff (growLast tags size) = some st'.lastItem := by
  obtain ⟨t, ht, rfl⟩ := hlast
  obtain ⟨init, rfl⟩ := List.getLast?_eq_some_iff.mp ht
  rw [hwiGrowTag, growLast_snoc]
  refine (h.grow hfmt hsize.1 hsize.2.2).bind fun sp1 ⟨h1, _, hroom⟩ => ?_
  obtain ⟨g, hg, hgi, hgo⟩ := lastItemOff_mem hli
  have hbg := h1.hw.bounds hg
  have hg12 := hbg.2.2 hgi
  have hbt := h1.hw.bounds (g := t) (by simp)
  have hr := h.hw.room
  have hr1 := h1.hw.room
  refine .ok ⟨h1.setMem hfmt (fun x hx => ?_) (h1.hw.growTag hli hsize.2.1 (by omega) h1.size_le), ?_⟩
  · rw [addField_out (by omega), addField_out (by omega)]
  · by_cases hti : t.isItem = true
    · rw [lastItemOff_snoc_item _ hti] at hli
      rw [lastItemOff_snoc_item _ (t := { t with size := t.size + size }) hti]; exact hli
    · rw [Bool.not_eq_true] at hti
      rw [lastItemOff_snoc_tag _ hti] at hli
      rw [lastItemOff_snoc_tag _ (t := { t with size := t.size + size }) hti]; exact hli

/-! ## 実行の不変条件 -/

structure HwiTrace.Inv (fmt : SyspageFormat) (t : HwiTrace) : Prop where
  ok : ∃ fixed, HwiOk fmt fixed t.st.sp t.tags
  last : t.tags ≠ [] → lastItemOff t.tags = some t.st.lastItem
  cursor : t.grown = false → t.st.offset = tagsEnd t.tags

/-- 札を加える呼び出しである。 -/
def HwiCall.IsAlloc : HwiCall → Prop
  | .item _ _ _ _ _ => True
  | .tag _ _ _ => True
  | .grow _ _ => False
  | .store _ _ => False

namespace HwiTrace.Inv

variable {t : HwiTrace}

/-- 札の欄の後ろへの書き込み。 -/
theorem store (hfmt : fmt.Ok) (h : t.Inv fmt) {off : Nat} {g : HwTag} (hg : g ∈ t.tags) (h1 : g.off + g.headerSize ≤ off)
    (h2 : off < g.off + g.size) (v : UInt8) :
    Inv fmt { t with st := { t.st with
      sp := { t.st.sp with mem := Function.update t.st.sp.mem (t.st.sp.p .hwinfo + off) v } } } := by
  obtain ⟨fixed, hok⟩ := h.ok
  have hb := hok.hw.bounds hg
  have h4 := g.four_le_headerSize
  have hr := hok.hw.room
  refine ⟨⟨fixed, hok.setMem hfmt (fun x hx => Function.update_of_ne (by omega) _ _)
    (hok.hw.setInside hg fun x hx => ?_)⟩, h.last, h.cursor⟩
  have hxo : x = off := by
    by_contra hne
    exact hx (Function.update_of_ne (by omega) _ _)
  subst hxo
  refine ⟨by omega, h2, fun ⟨hi, hc⟩ => ?_⟩
  rw [HwTag.headerSize_item hi] at h1
  omega

/-- 前提を満たす呼び出しは、走査が節の外に出ず、不変条件を保つ。札を加える呼び出しは、置いてある札の中身を変えない。 -/
theorem step (lib : HwiLib) (hfmt : fmt.Ok) (h : t.Inv fmt) {c : HwiCall} (hc : t.InDomain c) (hclean : t.Clean c) :
    Except.Meets .outside (t.step lib fmt c) fun t' =>
      t'.Inv fmt ∧ (c.IsAlloc → KeepsTags t.tags t.st.sp t'.st.sp) := by
  obtain ⟨fixed, hok⟩ := h.ok
  cases c with
  | item name size align itemname owner =>
      obtain ⟨hsize, halign, hname, hitemname, howner⟩ := hc
      refine (hwiAllocItem_spec lib hfmt hok (h.cursor hclean.1) h.last ⟨hsize.2.1, hsize.2.2⟩ hclean.2 halign hname
        hitemname howner).bind fun r ⟨hp, hl⟩ => ?_
      refine .ok ⟨⟨⟨fixed, hp.ok⟩, fun _ => ?_, fun _ => hp.offset⟩, fun _ => hp.keeps⟩
      rw [hl]
      exact lastItemOff_snoc_item _ rfl
  | tag name size align =>
      obtain ⟨hne, hsize, halign, hname, hlen⟩ := hc
      refine (hwiAllocTag_spec hfmt hok (h.cursor hclean) (h.last hne) hsize halign hname hlen).bind fun r ⟨hp, hl⟩ => ?_
      refine .ok ⟨⟨⟨fixed, hp.ok⟩, fun _ => ?_, fun _ => hp.offset⟩, fun _ => hp.keeps⟩
      rw [hl, ← h.last hne, ← lastItemOff_padTags t.tags align]
      exact lastItemOff_snoc_tag _ rfl
  | grow off size =>
      obtain ⟨hsize, hlast⟩ := hc
      have hne : t.tags ≠ [] := by
        rintro hnil
        rw [hnil] at hlast
        obtain ⟨g, hg, _⟩ := hlast
        cases hg
      refine (hwiGrowTag_spec hfmt hok (h.last hne) hsize hlast).bind fun st' ⟨hp, hl⟩ => ?_
      exact .ok ⟨⟨⟨fixed, hp⟩, fun _ => hl, nofun⟩, nofun⟩
  | store off v =>
      obtain ⟨g, hg, h1, h2⟩ := hc
      exact .ok ⟨h.store hfmt hg h1 h2 v, nofun⟩

end HwiTrace.Inv

/-! ## 走査 -/

/-- 列の後ろには大きさ 0 の札がある。 -/
theorem HwSection.terminator {s : Syspage} (h : HwSection s tags) : s.mem.readLE (s.p .hwinfo + tagsEnd tags) 2 = 0 := by
  have hr := h.room
  refine Mem.readLE_zero fun i hi => ?_
  rw [Nat.add_assoc]
  exact h.zeros _ (by omega) (by omega)

theorem HwSection.size_ne_zero {s : Syspage} (h : HwSection s tags) {g : HwTag} (hg : g ∈ tags) :
    s.mem.readLE (s.p .hwinfo + g.off) 2 ≠ 0 := by
  have hb := h.bounds hg
  rw [h.size g hg]
  omega

/-- 大きさの欄で進む走査は、残りの札をちょうど訪れる。 -/
theorem HwSection.walk_tags {s : Syspage} (h : HwSection s tags) {l : List HwTag} {a : Nat} (hsub : ∀ g ∈ l, g ∈ tags)
    (hc : Chain HwTag.off HwTag.size a l (tagsEnd tags)) {fuel : Nat} (hf : l.length ≤ fuel) :
    hwiWalk s 0 a (fuel + 1) = some (l.map HwTag.off) := by
  induction l generalizing a fuel with
  | nil =>
      have ha : a = tagsEnd tags := hc
      rw [hwiWalk, ha, if_pos h.terminator]; rfl
  | cons g l ih =>
      obtain ⟨rfl, hc⟩ := hc
      have hg := hsub g (by simp)
      have hmod := (h.shape g hg).1
      obtain ⟨fuel, rfl⟩ := Nat.exists_eq_add_of_lt (Nat.lt_of_lt_of_le (Nat.succ_pos _) hf)
      rw [hwiWalk, if_neg (h.size_ne_zero hg), Nat.add_zero, h.size g hg, Nat.mul_div_cancel' (Nat.dvd_of_mod_eq_zero hmod),
        ih (fun u hu => hsub u (by simp [hu])) hc (by simpa using hf)]
      rfl

/-- `itemsize` の欄で進む走査は、残りの項目をちょうど訪れる。列の先頭の、項目でない札は飛ばして始める。 -/
theorem HwSection.walk_items {s : Syspage} (h : HwSection s tags) {pre l : List HwTag} (heq : tags = pre ++ l) {a : Nat}
    (hc : Chain HwTag.off HwTag.size a l (tagsEnd tags)) {fuel : Nat} (hf : l.length ≤ fuel) :
    hwiWalk s 4 (a + lead l) (fuel + 1) = some ((l.filter HwTag.isItem).map HwTag.off) := by
  induction l generalizing a fuel pre with
  | nil =>
      have ha : a = tagsEnd tags := hc
      rw [hwiWalk, lead, Nat.add_zero, ha, if_pos h.terminator]; rfl
  | cons g l ih =>
      obtain ⟨rfl, hc⟩ := hc
      have hg : g ∈ tags := by rw [heq]; simp
      have hsnoc : tags = (pre ++ [g]) ++ l := by rw [heq]; simp
      by_cases hi : g.isItem = true
      · have hmod : (g.size + lead l) % 4 = 0 := by
          have h1 := (h.shape g hg).1
          have h2 : lead l % 4 = 0 := lead_mod fun u hu => (h.shape u (by rw [hsnoc]; simp [hu])).1
          omega
        obtain ⟨fuel, rfl⟩ := Nat.exists_eq_add_of_lt (Nat.lt_of_lt_of_le (Nat.succ_pos _) hf)
        rw [lead, if_pos hi, Nat.add_zero, hwiWalk, if_neg (h.size_ne_zero hg), h.itemsize pre g l heq hi,
          Nat.mul_div_cancel' (Nat.dvd_of_mod_eq_zero hmod), ← Nat.add_assoc, ih hsnoc hc (by simpa using hf),
          List.filter_cons_of_pos hi]
        rfl
      · rw [lead, if_neg hi, ← Nat.add_assoc, List.filter_cons_of_neg hi]
        exact ih hsnoc hc (by rw [List.length_cons] at hf; omega)

end Imx6Bsp.Startup
