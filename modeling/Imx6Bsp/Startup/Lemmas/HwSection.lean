import Imx6Bsp.Startup.Hwinfo
import Imx6Bsp.Startup.Lemmas.StringTable

/-!
# ハードウェア情報の節の不変条件

札の列と、節の中の `size`、`itemsize`、`kids` の欄の値の関係を定め、札を加える書き込みと札を伸ばす書き込みが関係を保つことを示す。
-/

namespace Imx6Bsp.Startup

open Imx6Bsp.Lib

/-! ## 札の列 -/

/-- 列の先頭の、項目でない札の大きさの和。 -/
def lead : List HwTag → Nat
  | [] => 0
  | t :: l => if t.isItem then 0 else t.size + lead l

theorem lead_snoc (l : List HwTag) (t : HwTag) :
    lead (l ++ [t]) = if l.any HwTag.isItem then lead l else lead l + (if t.isItem then 0 else t.size) := by
  induction l with
  | nil => simp [lead]
  | cons u l ih =>
      rw [List.cons_append, lead, lead, List.any_cons]
      by_cases hu : u.isItem
      · simp [hu]
      · rw [Bool.not_eq_true] at hu
        simp only [hu, Bool.false_or, ih, Bool.false_eq_true, if_false]
        generalize (if t.isItem then 0 else t.size) = n
        split <;> omega

theorem lead_le (l : List HwTag) : lead l ≤ tagsEnd l := by
  induction l with
  | nil => simp [lead]
  | cons t l ih =>
      rw [lead, tagsEnd, List.map_cons, List.sum_cons, ← tagsEnd]
      split <;> omega

theorem lead_mod {l : List HwTag} (h : ∀ g ∈ l, g.size % 4 = 0) : lead l % 4 = 0 := by
  induction l with
  | nil => rfl
  | cons t l ih =>
      have h1 := h t (by simp)
      have h2 := ih fun g hg => h g (by simp [hg])
      rw [lead]
      split <;> omega

theorem tagsEnd_append (l l' : List HwTag) : tagsEnd (l ++ l') = tagsEnd l + tagsEnd l' := by
  rw [tagsEnd, List.map_append, List.sum_append]; rfl

theorem tagsEnd_singleton (t : HwTag) : tagsEnd [t] = t.size := by simp [tagsEnd]

theorem tagsEnd_mod {tags : List HwTag} (h : ∀ g ∈ tags, g.size % 4 = 0) : tagsEnd tags % 4 = 0 := by
  induction tags with
  | nil => rfl
  | cons t l ih =>
      have h1 := h t (by simp)
      have h2 := ih fun g hg => h g (by simp [hg])
      rw [tagsEnd, List.map_cons, List.sum_cons, ← tagsEnd]; omega

/-- 位置 `off` の項目を親とする項目の数。 -/
def kidsOf (tags : List HwTag) (off : Nat) : Nat := tags.countP fun u => decide (u.owner = some off)

theorem kidsOf_snoc (tags : List HwTag) (t : HwTag) (off : Nat) :
    kidsOf (tags ++ [t]) off = kidsOf tags off + if t.owner = some off then 1 else 0 := by
  simp [kidsOf, List.countP_append, List.countP_singleton]

/-- 列の最後の項目の位置。 -/
def lastItemOff (tags : List HwTag) : Option Nat := ((tags.filter HwTag.isItem).getLast?).map HwTag.off

theorem lastItemOff_snoc_item (tags : List HwTag) {t : HwTag} (h : t.isItem = true) :
    lastItemOff (tags ++ [t]) = some t.off := by
  simp [lastItemOff, List.filter_append, h]

theorem lastItemOff_snoc_tag (tags : List HwTag) {t : HwTag} (h : t.isItem = false) :
    lastItemOff (tags ++ [t]) = lastItemOff tags := by
  simp [lastItemOff, List.filter_append, h]

theorem lastItemOff_mem {tags : List HwTag} {li : Nat} (h : lastItemOff tags = some li) :
    ∃ g ∈ tags, g.isItem = true ∧ g.off = li := by
  obtain ⟨g, hg, rfl⟩ := Option.map_eq_some_iff.mp h
  have := List.mem_of_getLast? hg
  exact ⟨g, List.mem_of_mem_filter this, (List.mem_filter.mp this).2, rfl⟩

/-- 後ろに項目のない項目が、最後の項目である。 -/
theorem lastItemOff_split_last (pre : List HwTag) {post : List HwTag} {g : HwTag} (hg : g.isItem = true)
    (hpost : post.any HwTag.isItem = false) : lastItemOff (pre ++ g :: post) = some g.off := by
  have : post.filter HwTag.isItem = [] := by
    rw [List.filter_eq_nil_iff]
    intro u hu
    rw [List.any_eq_false] at hpost
    exact hpost u hu
  simp [lastItemOff, List.filter_append, hg, this]

/-- 後ろに項目のある項目は、最後の項目より前にある。 -/
theorem lastItemOff_split_before {pre post : List HwTag} {g : HwTag} {a e li : Nat}
    (hc : Chain HwTag.off HwTag.size a (pre ++ g :: post) e) (hpost : post.any HwTag.isItem = true)
    (hli : lastItemOff (pre ++ g :: post) = some li) : g.off + g.size ≤ li := by
  have hlast : ∃ u ∈ post, u.off = li := by
    obtain ⟨u, hu, hui⟩ := List.any_eq_true.mp hpost
    have hne : post.filter HwTag.isItem ≠ [] := List.ne_nil_of_mem (List.mem_filter.mpr ⟨hu, hui⟩)
    obtain ⟨w, hw, rfl⟩ := Option.map_eq_some_iff.mp hli
    have hmem : w ∈ post.filter HwTag.isItem := by
      have hsuf : (pre ++ g :: post).filter HwTag.isItem =
          (pre ++ [g]).filter HwTag.isItem ++ post.filter HwTag.isItem := by
        rw [← List.filter_append, List.append_assoc]; rfl
      rw [hsuf, List.getLast?_append_of_ne_nil _ hne] at hw
      exact List.mem_of_getLast? hw
    exact ⟨w, List.mem_of_mem_filter hmem, rfl⟩
  obtain ⟨u, hu, rfl⟩ := hlast
  clear hli hpost
  induction pre generalizing a with
  | nil =>
      have hb := hc.2.bounds hu
      have := hc.1
      omega
  | cons w pre ih => exact ih hc.2

/-! ## 節の欄 -/

/-- 節のバイトが札の列を表す。欄の値は 4 バイト単位である。 -/
structure HwSection (s : Syspage) (tags : List HwTag) : Prop where
  chain : Chain HwTag.off HwTag.size 0 tags (tagsEnd tags)
  room : tagsEnd tags + 8 ≤ s.size .hwinfo
  zeros : ∀ x, tagsEnd tags ≤ x → x < s.size .hwinfo → s.mem (s.p .hwinfo + x) = 0
  shape : ∀ g ∈ tags, g.size % 4 = 0 ∧ g.headerSize ≤ g.size ∧ g.off % 4 = 0 ∧ g.align ∣ g.off
  size : ∀ g ∈ tags, s.mem.readLE (s.p .hwinfo + g.off) 2 = g.size / 4
  itemsize : ∀ pre g post, tags = pre ++ g :: post → g.isItem = true →
    s.mem.readLE (s.p .hwinfo + (g.off + 4)) 2 = (g.size + lead post) / 4
  kids : ∀ g ∈ tags, g.isItem = true →
    s.mem.readLE (s.p .hwinfo + (g.off + 10)) 2 = kidsOf tags g.off
  owners : ∀ g ∈ tags, ∀ o, g.owner = some o → o = hwiNullOff ∨ ∃ g' ∈ tags, g'.isItem = true ∧ g'.off = o
  first : ∀ g, tags.head? = some g → g.isItem = true

/-- `hwi_alloc.c` が後から書き換える、札の中の位置。 -/
def HwTag.IsCounter (g : HwTag) (x : Nat) : Prop :=
  g.isItem = true ∧ (g.off + 4 ≤ x ∧ x < g.off + 6 ∨ g.off + 10 ≤ x ∧ x < g.off + 12)

/-- 札の中身が、後から書き換える欄を除いて変わらない。 -/
def KeepsTags (tags : List HwTag) (s s' : Syspage) : Prop :=
  ∀ g ∈ tags, ∀ x, g.off ≤ x → x < g.off + g.size → ¬ g.IsCounter x →
    s'.mem (s'.p .hwinfo + x) = s.mem (s.p .hwinfo + x)

theorem HwTag.headerSize_item {g : HwTag} (h : g.isItem = true) : g.headerSize = 12 := by simp [HwTag.headerSize, h, hwiItemSize]

theorem HwTag.four_le_headerSize (g : HwTag) : 4 ≤ g.headerSize := by
  unfold HwTag.headerSize hwiItemSize
  split <;> omega

namespace HwSection

variable {s s' : Syspage} {tags : List HwTag}

theorem bounds (h : HwSection s tags) {g : HwTag} (hg : g ∈ tags) :
    4 ≤ g.size ∧ g.off + g.size ≤ tagsEnd tags ∧ (g.isItem = true → 12 ≤ g.size) := by
  have h1 := (h.shape g hg).2.1
  have h2 := g.four_le_headerSize
  have h3 := (h.chain.bounds hg).2
  refine ⟨by omega, h3, fun hi => ?_⟩
  rw [HwTag.headerSize_item hi] at h1; exact h1

/-- 札の位置はすべて異なる。 -/
theorem off_inj (h : HwSection s tags) {g g' : HwTag} (hg : g ∈ tags) (hg' : g' ∈ tags) (he : g.off = g'.off) : g = g' := by
  by_contra hne
  have h1 := h.chain.apart hg hg' hne
  have h2 := h.bounds hg
  have h3 := h.bounds hg'
  omega

/-- 節のバイトが変わらなければ、関係は保たれる。 -/
theorem congr (h : HwSection s tags) (hsame : SameBytes s s' .hwinfo) : HwSection s' tags := by
  obtain ⟨hsize, hbytes⟩ := hsame
  have hr := h.room
  have hread : ∀ a, a + 2 ≤ tagsEnd tags →
      s'.mem.readLE (s'.p .hwinfo + a) 2 = s.mem.readLE (s.p .hwinfo + a) 2 := fun a ha =>
    Mem.readLE_congr fun i hi => by
      rw [Nat.add_assoc, Nat.add_assoc]; exact hbytes _ (by omega)
  refine ⟨h.chain, by omega, fun x h1 h2 => ?_, h.shape, fun g hg => ?_, fun pre g post heq hi => ?_, fun g hg hi => ?_,
    h.owners, h.first⟩
  · rw [hbytes x (by omega)]; exact h.zeros x h1 (by omega)
  · have := h.bounds hg
    rw [hread _ (by omega)]; exact h.size g hg
  · have hb := h.bounds (g := g) (by rw [heq]; simp)
    have := hb.2.2 hi
    rw [hread _ (by omega)]; exact h.itemsize pre g post heq hi
  · have hb := h.bounds hg
    have := hb.2.2 hi
    rw [hread _ (by omega)]; exact h.kids g hg hi

end HwSection

theorem KeepsTags.trans {tags : List HwTag} {s s' s'' : Syspage} (h : KeepsTags tags s s') (h' : KeepsTags tags s' s'') :
    KeepsTags tags s s'' := fun g hg x h1 h2 h3 => (h' g hg x h1 h2 h3).trans (h g hg x h1 h2 h3)

theorem SameBytes.keepsTags {tags : List HwTag} {s s' : Syspage} (h : HwSection s tags) (hsame : SameBytes s s' .hwinfo) :
    KeepsTags tags s s' := by
  intro g hg x _ h2 _
  have hb := h.bounds hg
  have hr := h.room
  exact hsame.2 x (by omega)

/-! ## 札を加える書き込み -/

theorem addField_out {m : Mem} {a v x : Nat} (h : x < a ∨ a + 2 ≤ x) : addField m a v x = m x :=
  Mem.writeLE_of_disjoint h

theorem readLE_addField_self {m : Mem} {a v : Nat} (h : m.readLE a 2 + v < 2 ^ 16) :
    (addField m a v).readLE a 2 = m.readLE a 2 + v :=
  (Mem.readLE_writeLE_self _ _ _ _).trans (Nat.mod_eq_of_lt h)

theorem readLE_addField_of_disjoint {m : Mem} {a b v : Nat} (h : b + 2 ≤ a ∨ a + 2 ≤ b) :
    (addField m a v).readLE b 2 = m.readLE b 2 :=
  Mem.readLE_writeLE_of_disjoint h

/-- `hwi_alloc_tag()` が札を書く書き込み。`li` は `last_item`、`off` は `offset` である。 -/
def tagMem (m : Mem) (p li off size nameOff : Nat) : Mem :=
  ((addField m (p + (li + 4)) (size / 4)).writeLE (p + off) 2 (size / 4)).writeLE (p + (off + 2)) 2 nameOff

section

variable {m : Mem} {p li off size nameOff : Nat}

theorem tagMem_out {x : Nat} (h1 : x < li + 4 ∨ li + 6 ≤ x) (h2 : x < off ∨ off + 4 ≤ x) :
    tagMem m p li off size nameOff (p + x) = m (p + x) := by
  rw [tagMem, Mem.writeLE_of_disjoint (by omega), Mem.writeLE_of_disjoint (by omega), addField_out (by omega)]

theorem tagMem_read_out {a : Nat} (h1 : a + 2 ≤ li + 4 ∨ li + 6 ≤ a) (h2 : a + 2 ≤ off ∨ off + 4 ≤ a) :
    (tagMem m p li off size nameOff).readLE (p + a) 2 = m.readLE (p + a) 2 :=
  Mem.readLE_congr fun i hi => by
    rw [Nat.add_assoc]; exact tagMem_out (by omega) (by omega)

theorem tagMem_read_item (h : li + 12 ≤ off ∨ li = off) (hlt : m.readLE (p + (li + 4)) 2 + size / 4 < 2 ^ 16) :
    (tagMem m p li off size nameOff).readLE (p + (li + 4)) 2 = m.readLE (p + (li + 4)) 2 + size / 4 := by
  rw [tagMem, Mem.readLE_writeLE_of_disjoint (by omega), Mem.readLE_writeLE_of_disjoint (by omega),
    readLE_addField_self hlt]

theorem tagMem_read_size (hlt : size / 4 < 2 ^ 16) :
    (tagMem m p li off size nameOff).readLE (p + off) 2 = size / 4 := by
  rw [tagMem, Mem.readLE_writeLE_of_disjoint (by omega), Mem.readLE_writeLE_self]
  exact Nat.mod_eq_of_lt hlt

end

theorem split_snoc {tags pre post : List HwTag} {g t : HwTag} (h : tags ++ [t] = pre ++ g :: post) :
    (post = [] ∧ g = t ∧ pre = tags) ∨ ∃ post', post = post' ++ [t] ∧ tags = pre ++ g :: post' := by
  rcases List.eq_nil_or_concat post with rfl | ⟨post', u, rfl⟩
  · obtain ⟨h1, h2⟩ := List.append_inj' h rfl
    exact Or.inl ⟨rfl, (List.cons.inj h2).1.symm, h1.symm⟩
  · rw [List.concat_eq_append, ← List.cons_append, ← List.append_assoc] at h
    obtain ⟨h1, h2⟩ := List.append_inj' h rfl
    rw [(List.cons.inj h2).1, List.concat_eq_append]
    exact Or.inr ⟨post', rfl, h1⟩

/-- 新しい札。項目の札の親は、後から書く。 -/
structure NewTag (tags : List HwTag) (li : Nat) (t : HwTag) : Prop where
  off : t.off = tagsEnd tags
  size : t.size % 4 = 0
  header : t.headerSize ≤ t.size
  align : t.align ∣ t.off
  owner : (t.owner = none ∧ lastItemOff tags = some li) ∨ (t.owner = some hwiNullOff ∧ li = tagsEnd tags)

section

variable {s : Syspage} {tags : List HwTag} {li nameOff : Nat} {t : HwTag}

theorem NewTag.li_field (h : HwSection s tags) (ht : NewTag tags li t) :
    (t.isItem = false ∧ li + 12 ≤ tagsEnd tags ∧ ∃ g ∈ tags, g.isItem = true ∧ g.off = li) ∨
    (t.isItem = true ∧ li = tagsEnd tags ∧ 12 ≤ t.size) := by
  rcases ht.owner with ⟨ho, hli⟩ | ⟨ho, rfl⟩
  · obtain ⟨g, hg, hi, rfl⟩ := lastItemOff_mem hli
    have hb := h.bounds hg
    have := hb.2.2 hi
    exact Or.inl ⟨by simp [HwTag.isItem, ho], by omega, g, hg, hi, rfl⟩
  · have hi : t.isItem = true := by simp [HwTag.isItem, ho]
    have := ht.header
    rw [HwTag.headerSize_item hi] at this
    exact Or.inr ⟨hi, rfl, this⟩

/-- 札を書いた節は、札を加えた列を表す。 -/
theorem HwSection.put (h : HwSection s tags) (ht : NewTag tags li t) (hroom : tagsEnd tags + t.size + 8 ≤ s.size .hwinfo)
    (hmax : s.size .hwinfo ≤ 2 ^ 16) :
    HwSection { s with mem := tagMem s.mem (s.p .hwinfo) li (tagsEnd tags) t.size nameOff } (tags ++ [t]) := by
  have hend : tagsEnd (tags ++ [t]) = tagsEnd tags + t.size := by rw [tagsEnd_append, tagsEnd_singleton]
  have hmod := tagsEnd_mod fun g hg => (h.shape g hg).1
  have hoff := ht.off
  have hts := ht.size
  have hli := ht.li_field h
  have h4 := t.four_le_headerSize.trans ht.header
  have hmem : ∀ {g}, g ∈ tags ++ [t] → g ∈ tags ∨ g = t := fun hg => by simpa using hg
  set p := s.p .hwinfo with hp
  -- 前からある札の欄は、最後の項目の `itemsize` を除いて変わらない。
  have hold : ∀ a, a + 2 ≤ tagsEnd tags → (a + 2 ≤ li + 4 ∨ li + 6 ≤ a) →
      (tagMem s.mem p li (tagsEnd tags) t.size nameOff).readLE (p + a) 2 = s.mem.readLE (p + a) 2 := fun a h1 h2 =>
    tagMem_read_out h2 (Or.inl h1)
  have hfields : ∀ g ∈ tags, ∀ k, (k = 0 ∨ g.isItem = true ∧ k = 10) → g.off + k + 2 ≤ tagsEnd tags ∧
      (g.off + k + 2 ≤ li + 4 ∨ li + 6 ≤ g.off + k) := by
    intro g hg k hk
    have hb := h.bounds hg
    have hb12 := hb.2.2
    have hend : g.off + k + 2 ≤ tagsEnd tags := by
      rcases hk with rfl | ⟨hi, rfl⟩
      · omega
      · have := hb12 hi; omega
    refine ⟨hend, ?_⟩
    rcases hli with ⟨_, _, g0, hg0, hi0, rfl⟩ | ⟨_, rfl, _⟩
    · have hb0 := (h.bounds hg0).2.2 hi0
      by_cases hgg : g = g0
      · subst hgg; rcases hk with rfl | ⟨_, rfl⟩ <;> omega
      · have := h.chain.apart hg hg0 hgg
        rcases hk with rfl | ⟨hi, rfl⟩
        · omega
        · have := hb12 hi; omega
    · rcases hk with rfl | ⟨hi, rfl⟩
      · omega
      · have := hb12 hi; omega
  have hzero : ∀ a, tagsEnd tags ≤ a → a + 2 ≤ s.size .hwinfo → s.mem.readLE (p + a) 2 = 0 := fun a h1 h2 =>
    Mem.readLE_zero fun i hi => by rw [Nat.add_assoc]; exact h.zeros _ (by omega) (by omega)
  refine ⟨?_, by change tagsEnd (tags ++ [t]) + 8 ≤ s.size .hwinfo; omega, fun x h1 h2 => ?_, fun g hg => ?_, fun g hg => ?_,
    fun pre g post heq hi => ?_, fun g hg hi => ?_, fun g hg o ho => ?_, fun g hg => ?_⟩
  · rw [hend]
    exact h.chain.append ⟨hoff, rfl⟩
  · rw [hend] at h1
    refine (tagMem_out (by omega) (by omega)).trans (h.zeros x (by omega) h2)
  · rcases hmem hg with hg | rfl
    · exact h.shape g hg
    · exact ⟨hts, ht.header, by omega, ht.align⟩
  · rcases hmem hg with hg | rfl
    · have hf := hfields g hg 0 (Or.inl rfl)
      exact (hold g.off (by omega) (by omega)).trans (h.size g hg)
    · rw [hoff]
      exact tagMem_read_size (by omega)
  · rcases split_snoc heq with ⟨rfl, rfl, rfl⟩ | ⟨post', rfl, rfl⟩
    · -- 新しい項目の `itemsize` は 0 から始まる。
      rcases hli with ⟨hni, _⟩ | ⟨_, rfl, _⟩
      · rw [hi] at hni; cases hni
      · have hz := hzero (tagsEnd pre + 4) (by omega) (by omega)
        rw [hoff]
        refine (tagMem_read_item (Or.inr rfl) (by rw [hz]; omega)).trans ?_
        rw [hz, lead, Nat.zero_add, Nat.add_zero]
    · have hg : g ∈ pre ++ g :: post' := by simp
      have hb := h.bounds hg
      have hb12 := hb.2.2 hi
      have hit := h.itemsize pre g post' rfl hi
      have hle := lead_le post'
      have hpe : tagsEnd (pre ++ g :: post') = tagsEnd pre + (g.size + tagsEnd post') := by
        rw [tagsEnd_append]; rfl
      rw [lead_snoc]
      rcases hli with ⟨hni, _, _⟩ | ⟨hti, hle', _⟩
      · rw [hni]
        have hlast : lastItemOff (pre ++ g :: post') = some li := by
          rcases ht.owner with ⟨_, hl⟩ | ⟨ho, _⟩
          · exact hl
          · rw [HwTag.isItem, ho] at hni; cases hni
        by_cases hany : post'.any HwTag.isItem = true
        · have hbef := lastItemOff_split_before h.chain hany hlast
          rw [if_pos hany]
          exact (hold (g.off + 4) (by omega) (by omega)).trans hit
        · rw [Bool.not_eq_true] at hany
          have heq' := lastItemOff_split_last pre hi hany
          rw [hlast] at heq'
          cases heq'
          rw [hany]
          refine (tagMem_read_item (Or.inl (by omega)) (by rw [hit]; omega)).trans ?_
          rw [hit]
          simp only [Bool.false_eq_true, if_false]
          omega
      · rw [hti]
        have : (if post'.any HwTag.isItem = true then lead post' else lead post' + 0) = lead post' := by split <;> rfl
        simp only [if_true, this]
        exact (hold (g.off + 4) (by omega) (by omega)).trans hit
  · have hcount : kidsOf (tags ++ [t]) g.off = kidsOf tags g.off := by
      rw [kidsOf_snoc, if_neg, Nat.add_zero]
      rcases ht.owner with ⟨ho, _⟩ | ⟨ho, _⟩
      · rw [ho]; simp
      · rw [ho]
        intro heq
        have hg4 : g.off % 4 = 0 := by
          rcases hmem hg with hg | rfl
          · exact (h.shape g hg).2.2.1
          · omega
        have := Option.some.inj heq
        unfold hwiNullOff at this
        omega
    rw [hcount]
    rcases hmem hg with hg | rfl
    · have hf := hfields g hg 10 (Or.inr ⟨hi, rfl⟩)
      exact (hold (g.off + 10) (by omega) (by omega)).trans (h.kids g hg hi)
    · -- 新しい項目を親とする項目はまだない。
      have hnone : kidsOf tags g.off = 0 := by
        refine List.countP_eq_zero.mpr fun u hu => ?_
        rw [decide_eq_true_eq]
        intro ho
        rcases h.owners u hu _ ho with hnull | ⟨w, hw, _, hwo⟩
        · unfold hwiNullOff at hnull; omega
        · have := h.bounds hw; omega
      rw [hnone]
      rcases hli with ⟨hni, _⟩ | ⟨_, rfl, hsz⟩
      · rw [hi] at hni; cases hni
      · rw [hoff]
        exact (tagMem_read_out (by omega) (by omega)).trans (hzero _ (by omega) (by omega))
  · rcases hmem hg with hg | rfl
    · rcases h.owners g hg o ho with hn | ⟨w, hw, hwi, hwo⟩
      · exact Or.inl hn
      · exact Or.inr ⟨w, List.mem_append_left _ hw, hwi, hwo⟩
    · rcases ht.owner with ⟨ho', _⟩ | ⟨ho', _⟩
      · rw [ho'] at ho; cases ho
      · rw [ho'] at ho; exact Or.inl (Option.some.inj ho).symm
  · cases tags with
    | nil =>
        cases hg
        rcases ht.owner with ⟨_, hl⟩ | ⟨ho, _⟩
        · cases hl
        · simp [HwTag.isItem, ho]
    | cons u l => exact h.first g hg

/-- 札を書いても、前からある札の中身は変わらない。 -/
theorem HwSection.put_keeps (h : HwSection s tags) (ht : NewTag tags li t) :
    KeepsTags tags s { s with mem := tagMem s.mem (s.p .hwinfo) li (tagsEnd tags) t.size nameOff } := by
  intro g hg x h1 h2 h3
  have hb := h.bounds hg
  refine tagMem_out ?_ (by omega)
  rcases ht.li_field h with ⟨_, _, g0, hg0, hi0, rfl⟩ | ⟨_, rfl, _⟩
  · have hb0 := (h.bounds hg0).2.2 hi0
    by_cases hgg : g = g0
    · subst hgg
      have : ¬ (g.off + 4 ≤ x ∧ x < g.off + 6) := fun hx => h3 ⟨hi0, Or.inl hx⟩
      omega
    · have := h.chain.apart hg hg0 hgg
      omega
  · omega

/-! ## 欄を変えない書き込み -/

/-- 三つの欄と列の後ろを変えない書き込みは、関係を保つ。 -/
theorem HwSection.setMem (h : HwSection s tags) {mem : Mem}
    (hz : ∀ x, tagsEnd tags ≤ x → x < s.size .hwinfo → mem (s.p .hwinfo + x) = s.mem (s.p .hwinfo + x))
    (hf : ∀ g ∈ tags, ∀ k, (k = 0 ∨ g.isItem = true ∧ (k = 4 ∨ k = 10)) →
      mem.readLE (s.p .hwinfo + (g.off + k)) 2 = s.mem.readLE (s.p .hwinfo + (g.off + k)) 2) :
    HwSection { s with mem } tags where
  chain := h.chain
  room := h.room
  zeros := fun x h1 h2 => (hz x h1 h2).trans (h.zeros x h1 h2)
  shape := h.shape
  size := fun g hg => (hf g hg 0 (Or.inl rfl)).trans (h.size g hg)
  itemsize := fun pre g post heq hi =>
    (hf g (by rw [heq]; simp) 4 (Or.inr ⟨hi, Or.inl rfl⟩)).trans (h.itemsize pre g post heq hi)
  kids := fun g hg hi => (hf g hg 10 (Or.inr ⟨hi, Or.inr rfl⟩)).trans (h.kids g hg hi)
  owners := h.owners
  first := h.first

/-- 一つの札の、三つの欄の外への書き込みは、関係を保つ。 -/
theorem HwSection.setInside (h : HwSection s tags) {g0 : HwTag} (hg0 : g0 ∈ tags) {mem : Mem}
    (hm : ∀ x, mem (s.p .hwinfo + x) ≠ s.mem (s.p .hwinfo + x) → g0.off + 4 ≤ x ∧ x < g0.off + g0.size ∧ ¬ g0.IsCounter x) :
    HwSection { s with mem } tags := by
  have hb0 := h.bounds hg0
  have hsame : ∀ x, (x < g0.off + 4 ∨ g0.off + g0.size ≤ x ∨ g0.IsCounter x) →
      mem (s.p .hwinfo + x) = s.mem (s.p .hwinfo + x) := by
    intro x hx
    by_contra hne
    obtain ⟨h1, h2, h3⟩ := hm x hne
    rcases hx with hx | hx | hx
    · omega
    · omega
    · exact h3 hx
  refine h.setMem (fun x h1 _ => hsame x (Or.inr (Or.inl (by omega)))) fun g hg k hk => ?_
  have hb := h.bounds hg
  refine Mem.readLE_congr fun i hi => ?_
  rw [Nat.add_assoc]
  refine hsame _ ?_
  by_cases hgg : g = g0
  · subst hgg
    rcases hk with rfl | ⟨hi', rfl | rfl⟩
    · exact Or.inl (by omega)
    · exact Or.inr (Or.inr ⟨hi', Or.inl ⟨by omega, by omega⟩⟩)
    · exact Or.inr (Or.inr ⟨hi', Or.inr ⟨by omega, by omega⟩⟩)
  · have hap := h.chain.apart hg hg0 hgg
    rcases hk with rfl | ⟨hi', rfl | rfl⟩
    · omega
    · have := hb.2.2 hi'; omega
    · have := hb.2.2 hi'; omega

/-! ## 親の欄 -/

theorem HwSection.length_le (h : HwSection s tags) : 4 * tags.length ≤ tagsEnd tags := by
  have key : ∀ l : List HwTag, (∀ g ∈ l, 4 ≤ g.size) → 4 * l.length ≤ tagsEnd l := by
    intro l hl
    induction l with
    | nil => simp
    | cons g l ih =>
        have h1 := hl g (by simp)
        have h2 := ih fun u hu => hl u (by simp [hu])
        rw [tagsEnd, List.map_cons, List.sum_cons, ← tagsEnd, List.length_cons]; omega
  exact key tags fun g hg => (h.bounds hg).1

/-- 最後の項目の親を決め、親の `kids` を一つ増やす。 -/
theorem HwSection.setOwner (h : HwSection s (tags ++ [t])) (ht : t.owner = some hwiNullOff) {g0 : HwTag} (hg0 : g0 ∈ tags)
    (hi0 : g0.isItem = true) (hmax : s.size .hwinfo ≤ 2 ^ 16) :
    HwSection { s with mem := addField s.mem (s.p .hwinfo + (g0.off + 10)) 1 }
      (tags ++ [{ t with owner := some g0.off }]) := by
  have hti : t.isItem = true := by simp [HwTag.isItem, ht]
  have hg0' : g0 ∈ tags ++ [t] := List.mem_append_left _ hg0
  have hb0 := h.bounds hg0'
  have hb12 := hb0.2.2 hi0
  have hroom := h.room
  have hlen := h.length_le
  have hcnt := h.kids g0 hg0' hi0
  have hle : kidsOf (tags ++ [t]) g0.off ≤ (tags ++ [t]).length := List.countP_le_length
  obtain ⟨m, hc1, hc2⟩ := h.chain.split
  have hne : t ≠ g0 := by
    rintro rfl
    have := h.bounds hg0'
    have hb := hc1.bounds hg0
    have := hc2.1
    omega
  have hoff0 : g0.off + g0.size ≤ t.off := by
    have := (hc1.bounds hg0).2
    have := hc2.1
    omega
  set t' : HwTag := { t with owner := some g0.off } with ht'
  have hti' : t'.isItem = true := rfl
  have hend : tagsEnd (tags ++ [t']) = tagsEnd (tags ++ [t]) := by
    rw [tagsEnd_append, tagsEnd_append]; rfl
  have hold : ∀ g ∈ tags ++ [t], ∀ k, (k = 0 ∨ g.isItem = true ∧ (k = 4 ∨ k = 10)) → (k = 10 → g ≠ g0) →
      (addField s.mem (s.p .hwinfo + (g0.off + 10)) 1).readLE (s.p .hwinfo + (g.off + k)) 2 =
        s.mem.readLE (s.p .hwinfo + (g.off + k)) 2 := by
    intro g hg k hk hk0
    have hb := h.bounds hg
    refine readLE_addField_of_disjoint ?_
    by_cases hgg : g = g0
    · subst hgg
      rcases hk with rfl | ⟨_, rfl | rfl⟩
      · omega
      · omega
      · exact absurd rfl (hk0 rfl)
    · have := h.chain.apart hg hg0' hgg
      rcases hk with rfl | ⟨hi', rfl | rfl⟩
      · omega
      · have := hb.2.2 hi'; omega
      · have := hb.2.2 hi'; omega
  have hmem : ∀ {g}, g ∈ tags ++ [t'] → g ∈ tags ∨ g = t' := fun hg => by simpa using hg
  refine ⟨?_, by rw [hend]; exact hroom, fun x h1 h2 => ?_, fun g hg => ?_, fun g hg => ?_, fun pre g post heq hi => ?_,
    fun g hg hi => ?_, fun g hg o ho => ?_, fun g hg => ?_⟩
  · rw [hend]
    exact hc1.append ⟨hc2.1, hc2.2⟩
  · rw [hend] at h1
    exact (addField_out (x := s.p .hwinfo + x) (by omega)).trans (h.zeros x h1 h2)
  · rcases hmem hg with hg | rfl
    · exact h.shape g (List.mem_append_left _ hg)
    · have hs := h.shape t (by simp)
      refine ⟨hs.1, ?_, hs.2.2⟩
      have := hs.2.1
      rwa [HwTag.headerSize_item hti] at this
  · rcases hmem hg with hg | rfl
    · exact (hold g (List.mem_append_left _ hg) 0 (Or.inl rfl) (by omega)).trans (h.size g (List.mem_append_left _ hg))
    · exact (hold t (by simp) 0 (Or.inl rfl) (by omega)).trans (h.size t (by simp))
  · rcases split_snoc heq with ⟨rfl, rfl, rfl⟩ | ⟨post', rfl, rfl⟩
    · exact (hold t (by simp) 4 (Or.inr ⟨hti, Or.inl rfl⟩) (by omega)).trans (h.itemsize _ t [] rfl hti)
    · have hit := h.itemsize pre g (post' ++ [t]) (by simp) hi
      rw [lead_snoc, hti] at hit
      rw [lead_snoc, hti']
      exact (hold g (by simp) 4 (Or.inr ⟨hi, Or.inl rfl⟩) (by omega)).trans hit
  · -- `kids` は、新しい親を持つ項目の分だけ増える。
    have hcount : kidsOf (tags ++ [t']) g.off = kidsOf (tags ++ [t]) g.off + if g0.off = g.off then 1 else 0 := by
      have hg4 : g.off % 4 = 0 := by
        rcases hmem hg with hg | rfl
        · exact (h.shape g (List.mem_append_left _ hg)).2.2.1
        · exact (h.shape t (by simp)).2.2.1
      have hnull : t.owner ≠ some g.off := by
        rw [ht]
        intro heq
        have := Option.some.inj heq
        unfold hwiNullOff at this; omega
      have howner : t'.owner = some g.off ↔ g0.off = g.off := Option.some_inj
      rw [kidsOf_snoc, kidsOf_snoc, if_neg hnull, Nat.add_zero]
      simp only [howner]
    rw [hcount]
    rcases hmem hg with hg | rfl
    · have hgm : g ∈ tags ++ [t] := List.mem_append_left _ hg
      by_cases hgg : g = g0
      · subst hgg
        rw [if_pos rfl, ← hcnt]
        exact readLE_addField_self (by omega)
      · rw [if_neg fun he => hgg (h.off_inj hgm hg0' he.symm), Nat.add_zero]
        exact (hold g hgm 10 (Or.inr ⟨hi, Or.inr rfl⟩) fun _ => hgg).trans (h.kids g hgm hi)
    · rw [if_neg (show g0.off ≠ t.off by omega), Nat.add_zero]
      exact (hold t (by simp) 10 (Or.inr ⟨hti, Or.inr rfl⟩) fun _ => hne).trans (h.kids t (by simp) hti)
  · rcases hmem hg with hg | rfl
    · rcases h.owners g (List.mem_append_left _ hg) o ho with hn | ⟨w, hw, hwi, hwo⟩
      · exact Or.inl hn
      · rcases List.mem_append.mp hw with hw | hw
        · exact Or.inr ⟨w, List.mem_append_left _ hw, hwi, hwo⟩
        · rw [List.mem_singleton.mp hw] at hwo
          exact Or.inr ⟨t', by simp, rfl, hwo⟩
    · cases ho
      exact Or.inr ⟨g0, List.mem_append_left _ hg0, hi0, rfl⟩
  · cases tags with
    | nil => cases hg0
    | cons u l => exact h.first g hg

/-! ## 最後の札を伸ばす書き込み -/

/-- `hwi_grow_tag()` が札を伸ばす書き込み。 -/
def growMem (m : Mem) (p li off size : Nat) : Mem := addField (addField m (p + (li + 4)) (size / 4)) (p + off) (size / 4)

/-- 最後の札を伸ばした節は、伸ばした列を表す。 -/
theorem HwSection.growTag (h : HwSection s (tags ++ [t])) (hli : lastItemOff (tags ++ [t]) = some li) {size : Nat}
    (hsize : size % 4 = 0) (hroom : tagsEnd (tags ++ [t]) + size + 8 ≤ s.size .hwinfo) (hmax : s.size .hwinfo ≤ 2 ^ 16) :
    HwSection { s with mem := growMem s.mem (s.p .hwinfo) li t.off size } (tags ++ [{ t with size := t.size + size }]) := by
  obtain ⟨g0, hg0, hi0, hoff0⟩ := lastItemOff_mem hli
  have htm : t ∈ tags ++ [t] := by simp
  have hb0 := h.bounds hg0
  have hb12 := hb0.2.2 hi0
  have hbt := h.bounds htm
  have hst := h.shape t htm
  obtain ⟨m, hc1, hc2⟩ := h.chain.split
  set t' : HwTag := { t with size := t.size + size } with ht'
  have hti' : t'.isItem = t.isItem := rfl
  have hend : tagsEnd (tags ++ [t']) = tagsEnd (tags ++ [t]) + size := by
    rw [tagsEnd_append, tagsEnd_append, tagsEnd_singleton, tagsEnd_singleton, Nat.add_assoc]
  have hlit : li = t.off ∨ li + 12 ≤ t.off := by
    by_cases hgt : g0 = t
    · exact Or.inl (by rw [← hoff0, hgt])
    · have hmem : g0 ∈ tags := by
        rcases List.mem_append.mp hg0 with hm | hm
        · exact hm
        · exact absurd (List.mem_singleton.mp hm) hgt
      have := (hc1.bounds hmem).2
      have := hc2.1
      exact Or.inr (by omega)
  set p := s.p .hwinfo with hp
  have hout : ∀ x, (x < li + 4 ∨ li + 6 ≤ x) → (x < t.off ∨ t.off + 2 ≤ x) →
      growMem s.mem p li t.off size (p + x) = s.mem (p + x) := fun x h1 h2 => by
    rw [growMem, addField_out (by omega), addField_out (by omega)]
  have hread : ∀ a, (a + 2 ≤ li + 4 ∨ li + 6 ≤ a) → (a + 2 ≤ t.off ∨ t.off + 2 ≤ a) →
      (growMem s.mem p li t.off size).readLE (p + a) 2 = s.mem.readLE (p + a) 2 := fun a h1 h2 =>
    Mem.readLE_congr fun i hi => by rw [Nat.add_assoc]; exact hout _ (by omega) (by omega)
  have hread_item : s.mem.readLE (p + (li + 4)) 2 + size / 4 < 2 ^ 16 →
      (growMem s.mem p li t.off size).readLE (p + (li + 4)) 2 = s.mem.readLE (p + (li + 4)) 2 + size / 4 := fun hlt => by
    rw [growMem, readLE_addField_of_disjoint (by omega), readLE_addField_self hlt]
  have hread_size : s.mem.readLE (p + t.off) 2 + size / 4 < 2 ^ 16 →
      (growMem s.mem p li t.off size).readLE (p + t.off) 2 = s.mem.readLE (p + t.off) 2 + size / 4 := fun hlt => by
    have heq : (addField s.mem (p + (li + 4)) (size / 4)).readLE (p + t.off) 2 = s.mem.readLE (p + t.off) 2 :=
      readLE_addField_of_disjoint (by omega)
    rw [growMem, readLE_addField_self (by rw [heq]; exact hlt), heq]
  have hmem : ∀ {g}, g ∈ tags ++ [t'] → g ∈ tags ∨ g = t' := fun hg => by simpa using hg
  -- 前からある札は、伸ばす札より前にある。
  have hbefore : ∀ g ∈ tags, g.off + g.size ≤ t.off := fun g hg => by
    have := (hc1.bounds hg).2
    have := hc2.1
    omega
  have hkids : ∀ off, kidsOf (tags ++ [t']) off = kidsOf (tags ++ [t]) off := fun off => by
    rw [kidsOf_snoc, kidsOf_snoc]
  refine ⟨?_, by rw [hend]; exact hroom, fun x h1 h2 => ?_, fun g hg => ?_, fun g hg => ?_, fun pre g post heq hi => ?_,
    fun g hg hi => ?_, fun g hg o ho => ?_, fun g hg => ?_⟩
  · rw [hend]
    refine hc1.append ⟨hc2.1, ?_⟩
    have he : m + t.size = tagsEnd (tags ++ [t]) := hc2.2
    change m + (t.size + size) = tagsEnd (tags ++ [t]) + size
    omega
  · rw [hend] at h1
    exact (hout x (by omega) (by omega)).trans (h.zeros x (by omega) h2)
  · rcases hmem hg with hg | rfl
    · exact h.shape g (List.mem_append_left _ hg)
    · refine ⟨?_, ?_, hst.2.2⟩
      · change (t.size + size) % 4 = 0
        omega
      · exact hst.2.1.trans (Nat.le_add_right _ _)
  · rcases hmem hg with hg | rfl
    · have hgm : g ∈ tags ++ [t] := List.mem_append_left _ hg
      have hb := h.bounds hgm
      have hbef := hbefore g hg
      refine (hread g.off ?_ (by omega)).trans (h.size g hgm)
      by_cases hgg : g = g0
      · subst hgg; omega
      · have := h.chain.apart hgm hg0 hgg
        omega
    · have hsz := h.size t htm
      refine (hread_size (by rw [hsz]; omega)).trans ?_
      rw [hsz]
      change t.size / 4 + size / 4 = (t.size + size) / 4
      omega
  · rcases split_snoc heq with ⟨rfl, rfl, rfl⟩ | ⟨post', rfl, rfl⟩
    · have hit : t.isItem = true := hi
      have hlast := lastItemOff_snoc_item pre hit
      rw [hli] at hlast
      cases hlast
      have hold := h.itemsize pre t [] rfl hit
      rw [lead, Nat.add_zero] at hold ⊢
      refine (hread_item (by rw [hold]; omega)).trans ?_
      rw [hold]
      change t.size / 4 + size / 4 = (t.size + size) / 4
      omega
    · have hgm : g ∈ pre ++ g :: post' ++ [t] := by simp
      have hb := h.bounds hgm
      have hg12 := hb.2.2 hi
      have hbef := hbefore g (by simp)
      have hold := h.itemsize pre g (post' ++ [t]) (by simp) hi
      have hassoc : pre ++ g :: post' ++ [t] = pre ++ g :: (post' ++ [t]) := by simp
      have hpe : g.size + lead (post' ++ [t]) ≤ tagsEnd (pre ++ g :: post' ++ [t]) := by
        have := lead_le (post' ++ [t])
        rw [hassoc, tagsEnd_append, tagsEnd, tagsEnd, List.map_cons, List.sum_cons, ← tagsEnd]
        rw [tagsEnd] at this
        omega
      by_cases hany : (post' ++ [t]).any HwTag.isItem = true
      · -- 後ろに項目があれば、`itemsize` も先頭の札の和も変わらない。
        have hlt := lastItemOff_split_before (hassoc ▸ h.chain) hany (hassoc ▸ hli)
        have hlead : lead (post' ++ [t']) = lead (post' ++ [t]) := by
          rw [lead_snoc, lead_snoc, hti']
          by_cases hp' : post'.any HwTag.isItem = true
          · rw [if_pos hp', if_pos hp']
          · rw [List.any_append, Bool.or_eq_true] at hany
            have hit : t.isItem = true := by simpa using hany.resolve_left hp'
            simp [hit]
        rw [hlead]
        exact (hread (g.off + 4) (by omega) (by omega)).trans hold
      · rw [Bool.not_eq_true] at hany
        have hlast := lastItemOff_split_last pre hi hany
        rw [← hassoc, hli] at hlast
        cases hlast
        rw [List.any_append, Bool.or_eq_false_iff] at hany
        have hit : t.isItem = false := by simpa using hany.2
        have hlead : lead (post' ++ [t']) = lead (post' ++ [t]) + size := by
          rw [lead_snoc, lead_snoc, hti', hany.1, hit]
          change lead post' + (t.size + size) = lead post' + t.size + size
          omega
        rw [hlead]
        refine (hread_item (by rw [hold]; omega)).trans ?_
        rw [hold]; omega
  · rw [hkids]
    rcases hmem hg with hg | rfl
    · have hgm : g ∈ tags ++ [t] := List.mem_append_left _ hg
      have hb := h.bounds hgm
      have hg12 := hb.2.2 hi
      have hbef := hbefore g hg
      refine (hread (g.off + 10) ?_ (by omega)).trans (h.kids g hgm hi)
      by_cases hgg : g = g0
      · subst hgg; omega
      · have := h.chain.apart hgm hg0 hgg
        omega
    · exact (hread (t.off + 10) (by omega) (by omega)).trans (h.kids t htm hi)
  · have hg' : ∃ u ∈ tags ++ [t], u.owner = g.owner := by
      rcases hmem hg with hg | rfl
      · exact ⟨g, List.mem_append_left _ hg, rfl⟩
      · exact ⟨t, htm, rfl⟩
    obtain ⟨u, hu, huo⟩ := hg'
    rcases h.owners u hu o (huo.trans ho) with hn | ⟨w, hw, hwi, hwo⟩
    · exact Or.inl hn
    · rcases List.mem_append.mp hw with hw | hw
      · exact Or.inr ⟨w, List.mem_append_left _ hw, hwi, hwo⟩
      · rw [List.mem_singleton.mp hw] at hwi hwo
        exact Or.inr ⟨t', by simp, hwi, hwo⟩
  · cases tags with
    | nil =>
        cases hg
        exact h.first t rfl
    | cons u l => exact h.first g hg

/-- 節を伸ばしても、関係は保たれる。 -/
theorem HwSection.growBy {fmt : SyspageFormat} {fixed : List Sect} (hfmt : fmt.Ok) (hl : s.Layout fmt fixed)
    (h : HwSection s tags) (k : Nat) : HwSection (growBy fmt s .hwinfo k) tags ∧ KeepsTags tags s (growBy fmt s .hwinfo k) := by
  obtain ⟨hp, hsize, hold, hnew⟩ := hl.growBy_self hfmt .hwinfo (by decide) k
  have hr := h.room
  have hread : ∀ a, a + 2 ≤ tagsEnd tags →
      (Startup.growBy fmt s .hwinfo k).mem.readLE (s.p .hwinfo + a) 2 = s.mem.readLE (s.p .hwinfo + a) 2 := fun a ha =>
    Mem.readLE_congr fun i hi => by rw [Nat.add_assoc]; exact hold _ (by omega)
  refine ⟨⟨h.chain, by omega, fun x h1 h2 => ?_, h.shape, fun g hg => ?_, fun pre g post heq hi => ?_, fun g hg hi => ?_,
    h.owners, h.first⟩, fun g hg x h1 h2 h3 => ?_⟩
  · rw [hp]
    by_cases hx : x < s.size .hwinfo
    · rw [hold x hx]; exact h.zeros x h1 hx
    · exact hnew x (by omega) (by omega)
  · have := h.bounds hg
    rw [hp, hread _ (by omega)]; exact h.size g hg
  · have hb := h.bounds (g := g) (by rw [heq]; simp)
    have := hb.2.2 hi
    rw [hp, hread _ (by omega)]; exact h.itemsize pre g post heq hi
  · have hb := h.bounds hg
    have := hb.2.2 hi
    rw [hp, hread _ (by omega)]; exact h.kids g hg hi
  · have := h.bounds hg
    rw [hp]; exact hold x (by omega)

end

end Imx6Bsp.Startup
