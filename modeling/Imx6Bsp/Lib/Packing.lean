import Mathlib
import Imx6Bsp.Lib.Bytes

/-!
# 詰めて並べた区画

一つの領域に区画を詰めて並べ、区画の末尾に隙間を空けて伸ばす配置を扱う。区画の添字は任意の型である。先頭の区画と、
後から順に置いた区画の列は、領域の先頭に順に並ぶ（`Chain`）。区画の中身は、配置を変えても変わらない（`Holds`）。
-/

namespace Imx6Bsp.Lib

variable {ι : Type*}

/-! ## 一つの値を変えた和 -/

theorem sum_map_update [DecidableEq ι] {l : List ι} (hnd : l.Nodup) (f : ι → Nat) (x : ι) (k : Nat) (hx : x ∈ l) :
    (l.map (Function.update f x (f x + k))).sum = (l.map f).sum + k := by
  induction l with
  | nil => simp at hx
  | cons a l ih =>
      obtain ⟨hal, hl⟩ := List.nodup_cons.mp hnd
      rw [List.map_cons, List.map_cons, List.sum_cons, List.sum_cons]
      rcases List.mem_cons.mp hx with rfl | hx
      · have hrest : l.map (Function.update f x (f x + k)) = l.map f :=
          List.map_congr_left fun b hb => Function.update_of_ne (fun h : b = x => hal (h ▸ hb)) _ _
        rw [hrest, Function.update_self]; omega
      · have hne : a ≠ x := fun h => hal (h ▸ hx)
        rw [ih hl hx, Function.update_of_ne hne]; omega

/-! ## 配置 -/

/-- 区画の列が、位置 `a` から隙間なく順に並び、`e` で終わる。 -/
def Chain (off size : ι → Nat) : Nat → List ι → Nat → Prop
  | a, [], e => a = e
  | a, s :: l, e => off s = a ∧ Chain off size (a + size s) l e

theorem Chain.le {off size : ι → Nat} {l : List ι} {a e : Nat} (h : Chain off size a l e) : a ≤ e := by
  induction l generalizing a with
  | nil => exact Nat.le_of_eq h
  | cons s l ih => have := ih h.2; omega

theorem Chain.end_eq {off size : ι → Nat} {l : List ι} {a e : Nat} (h : Chain off size a l e) :
    e = a + (l.map size).sum := by
  induction l generalizing a with
  | nil => simpa [Chain] using h.symm
  | cons s l ih =>
      rw [ih h.2, List.map_cons, List.sum_cons]; omega

/-- 列の区画は、列の範囲に収まる。 -/
theorem Chain.bounds {off size : ι → Nat} {l : List ι} {a e : Nat} (h : Chain off size a l e) {s : ι} (hs : s ∈ l) :
    a ≤ off s ∧ off s + size s ≤ e := by
  induction l generalizing a with
  | nil => simp at hs
  | cons t l ih =>
      obtain ⟨h1, h2⟩ := h
      rcases List.mem_cons.mp hs with rfl | hs
      · exact ⟨h1.symm.le, h1 ▸ h2.le⟩
      · have := ih h2 hs; omega

/-- 列の終わりは、最後の区画の終わりである。 -/
theorem Chain.exists_end {off size : ι → Nat} {l : List ι} {a e : Nat} (h : Chain off size a l e) (hl : l ≠ []) :
    ∃ s ∈ l, off s + size s = e := by
  induction l generalizing a with
  | nil => exact absurd rfl hl
  | cons s l ih =>
      cases l with
      | nil => exact ⟨s, by simp, by rw [h.1]; exact h.2⟩
      | cons t l =>
          obtain ⟨u, hu, he⟩ := ih h.2 (by simp)
          exact ⟨u, by simp [hu], he⟩

/-- 列の異なる区画は重ならない。 -/
theorem Chain.apart {off size : ι → Nat} {l : List ι} {a e : Nat} (h : Chain off size a l e) {s t : ι} (hs : s ∈ l)
    (ht : t ∈ l) (hst : s ≠ t) : off s + size s ≤ off t ∨ off t + size t ≤ off s := by
  induction l generalizing a with
  | nil => simp at hs
  | cons u l ih =>
      obtain ⟨h1, h2⟩ := h
      rcases List.mem_cons.mp hs with rfl | hsl
      · have htl := (List.mem_cons.mp ht).resolve_left (Ne.symm hst)
        exact Or.inl (h1 ▸ (h2.bounds htl).1)
      · rcases List.mem_cons.mp ht with rfl | htl
        · exact Or.inr (h1 ▸ (h2.bounds hsl).1)
        · exact ih h2 hsl htl

theorem Chain.append {off size : ι → Nat} {l l' : List ι} {a m e : Nat} (h : Chain off size a l m)
    (h' : Chain off size m l' e) : Chain off size a (l ++ l') e := by
  induction l generalizing a with
  | nil => cases h; exact h'
  | cons s l ih => exact ⟨h.1, ih h.2⟩

theorem Chain.split {off size : ι → Nat} {l l' : List ι} {a e : Nat} (h : Chain off size a (l ++ l') e) :
    ∃ m, Chain off size a l m ∧ Chain off size m l' e := by
  induction l generalizing a with
  | nil => exact ⟨a, rfl, h⟩
  | cons s l ih =>
      obtain ⟨m, h1, h2⟩ := ih h.2
      exact ⟨m, ⟨h.1, h1⟩, h2⟩

theorem Chain.congr {off size f g : ι → Nat} {l : List ι} {a e d : Nat} (h : Chain off size a l e)
    (hoff : ∀ s ∈ l, f s = off s + d) (hsize : ∀ s ∈ l, g s = size s) : Chain f g (a + d) l (e + d) := by
  induction l generalizing a with
  | nil => cases h; rfl
  | cons s l ih =>
      refine ⟨by rw [hoff s (by simp), h.1], ?_⟩
      rw [hsize s (by simp), Nat.add_right_comm]
      exact ih h.2 (fun t ht => hoff t (by simp [ht])) fun t ht => hsize t (by simp [ht])

variable [DecidableEq ι]

/-- 区画 `x` の末尾に `k` の隙間を空けたときの、区画の位置。 -/
def openGap (off size : ι → Nat) (x : ι) (k : Nat) : ι → Nat := fun t =>
  if t ≠ x ∧ off x + size x ≤ off t then off t + k else off t

theorem openGap_self (off size : ι → Nat) (x : ι) (k : Nat) : openGap off size x k x = off x := by
  simp [openGap]

theorem openGap_of_le {off size : ι → Nat} {x t : ι} (k : Nat) (hne : t ≠ x) (h : off x + size x ≤ off t) :
    openGap off size x k t = off t + k := by simp [openGap, hne, h]

theorem openGap_of_lt {off size : ι → Nat} {x t : ι} (k : Nat) (h : off t < off x + size x) :
    openGap off size x k t = off t := by
  rw [openGap, if_neg]; omega

/-- 区画 `x` を伸ばすと、列の `x` より後ろがずれる。 -/
theorem Chain.grow {off size : ι → Nat} {l : List ι} {a e : Nat} (k : Nat) {x : ι} (h : Chain off size a l e)
    (hnd : l.Nodup) (hx : x ∈ l) (hpos : ∀ s ∈ l, 0 < size s) :
    Chain (openGap off size x k) (Function.update size x (size x + k)) a l (e + k) := by
  induction l generalizing a with
  | nil => simp at hx
  | cons s l ih =>
      obtain ⟨hsl, hnd'⟩ := List.nodup_cons.mp hnd
      obtain ⟨h1, h2⟩ := h
      by_cases hxs : x = s
      · subst hxs
        refine ⟨by rw [openGap_self, h1], ?_⟩
        rw [Function.update_self, ← Nat.add_assoc]
        refine h2.congr (fun t ht => ?_) fun t ht => ?_
        · have hne : t ≠ x := fun h => hsl (h ▸ ht)
          have := (h2.bounds ht).1
          exact openGap_of_le k hne (by omega)
        · exact Function.update_of_ne (fun h : t = x => hsl (h ▸ ht)) _ _
      · have hxl : x ∈ l := (List.mem_cons.mp hx).resolve_left hxs
        have hb := h2.bounds hxl
        have hs := hpos s (by simp)
        refine ⟨by rw [openGap_of_lt k (by omega), h1], ?_⟩
        rw [Function.update_of_ne (Ne.symm hxs)]
        exact ih h2 hnd' hxl fun t ht => hpos t (by simp [ht])

/-- 区画 `x` が列の後ろにあれば、`x` を伸ばしても列は変わらない。 -/
theorem Chain.grow_after {off size : ι → Nat} {l : List ι} {a e : Nat} (k : Nat) {x : ι} (h : Chain off size a l e)
    (hx : x ∉ l) (hpos : ∀ s ∈ l, 0 < size s) (hafter : e ≤ off x) :
    Chain (openGap off size x k) (Function.update size x (size x + k)) a l e := by
  refine h.congr (d := 0) (fun t ht => ?_) fun t ht => ?_
  · have := h.bounds ht
    have := hpos t ht
    rw [openGap_of_lt k (by omega), Nat.add_zero]
  · exact Function.update_of_ne (fun h : t = x => hx (h ▸ ht)) _ _

/-- 区画は領域に収まり、互いに重ならず、大きさの和が領域の大きさであり、列 `fixed` が先頭に並ぶ。 -/
structure Packed (all : List ι) (off size : ι → Nat) (fixed : List ι) (total : Nat) : Prop where
  inside : ∀ s, off s + size s ≤ total
  apart : ∀ s t, s ≠ t → off s + size s ≤ off t ∨ off t + size t ≤ off s
  sum : (all.map size).sum = total
  nodup : fixed.Nodup
  pos : ∀ s ∈ fixed, 0 < size s
  chain : Chain off size 0 fixed (fixed.map size).sum
  after : ∀ s ∉ fixed, (fixed.map size).sum ≤ off s

namespace Packed

variable {all : List ι} {off size : ι → Nat} {fixed : List ι} {total : Nat}

/-- 区画を伸ばしても、配置の整合は保たれる。 -/
theorem grow (hnd : all.Nodup) (hall : ∀ s, s ∈ all) (h : Packed all off size fixed total) (x : ι) (k : Nat) :
    Packed all (openGap off size x k) (Function.update size x (size x + k)) fixed (total + k) := by
  have hbelow : ∀ t, t ≠ x → off t < off x + size x → off t + size t ≤ off x := by
    intro t hne hlt
    have := h.apart t x hne
    omega
  have hsize : ∀ t, t ≠ x → Function.update size x (size x + k) t = size t := fun t hne => Function.update_of_ne hne _ _
  have hself : Function.update size x (size x + k) x = size x + k := Function.update_self _ _ _
  have hmove : ∀ t, t ≠ x → (off x + size x ≤ off t ∧ openGap off size x k t = off t + k) ∨
      (off t + size t ≤ off x ∧ off t < off x + size x ∧ openGap off size x k t = off t) := by
    intro t hne
    rcases Nat.lt_or_ge (off t) (off x + size x) with hlt | hge
    · exact Or.inr ⟨hbelow t hne hlt, hlt, openGap_of_lt k hlt⟩
    · exact Or.inl ⟨hge, openGap_of_le k hne hge⟩
  have hxself := openGap_self off size x k
  refine ⟨fun s => ?_, fun s t hst => ?_, ?_, h.nodup, fun s hs => ?_, ?_, fun s hs => ?_⟩
  · by_cases hs : s = x
    · subst hs
      have := h.inside s
      rw [hself, hxself]; omega
    · have h1 := h.inside s
      have h2 := h.inside x
      rw [hsize s hs]
      rcases hmove s hs with ⟨_, heq⟩ | ⟨_, _, heq⟩ <;> rw [heq] <;> omega
  · by_cases hs : s = x
    · subst hs
      rw [hself, hxself, hsize t (Ne.symm hst)]
      rcases hmove t (Ne.symm hst) with ⟨_, heq⟩ | ⟨_, _, heq⟩ <;> rw [heq] <;> omega
    · by_cases ht : t = x
      · subst ht
        rw [hself, hxself, hsize s hs]
        rcases hmove s hs with ⟨_, heq⟩ | ⟨_, _, heq⟩ <;> rw [heq] <;> omega
      · have := h.apart s t hst
        rw [hsize s hs, hsize t ht]
        rcases hmove s hs with ⟨_, heq⟩ | ⟨_, _, heq⟩ <;> rcases hmove t ht with ⟨_, heq'⟩ | ⟨_, _, heq'⟩ <;>
          rw [heq, heq'] <;> omega
  · rw [sum_map_update hnd size x k (hall x), h.sum]
  · by_cases hsx : s = x
    · subst hsx
      have := h.pos s hs
      rw [hself]; omega
    · rw [hsize s hsx]; exact h.pos s hs
  · by_cases hx : x ∈ fixed
    · rw [sum_map_update h.nodup size x k hx]
      exact h.chain.grow k h.nodup hx h.pos
    · have heq : fixed.map (Function.update size x (size x + k)) = fixed.map size :=
        List.map_congr_left fun t ht => hsize t fun h => hx (h ▸ ht)
      rw [heq]
      exact h.chain.grow_after k hx h.pos (h.after x hx)
  · have hoff := h.after s hs
    by_cases hx : x ∈ fixed
    · have hb := (h.chain.bounds hx).2
      have hne : s ≠ x := fun h => hs (h ▸ hx)
      rw [sum_map_update h.nodup size x k hx, openGap_of_le k hne (by omega)]; omega
    · have heq : fixed.map (Function.update size x (size x + k)) = fixed.map size :=
        List.map_congr_left fun t ht => hsize t fun h => hx (h ▸ ht)
      rw [heq]
      by_cases hsx : s = x
      · subst hsx; rw [hxself]; exact hoff
      · rcases hmove s hsx with ⟨_, heq⟩ | ⟨_, _, heq⟩ <;> rw [heq] <;> omega

omit [DecidableEq ι] in
theorem fixed_le (h : Packed all off size fixed total) (hf : fixed ≠ []) : (fixed.map size).sum ≤ total := by
  obtain ⟨s, _, he⟩ := h.chain.exists_end hf
  exact he ▸ h.inside s

/-- 空の区画の位置を、列の終わりに移す。 -/
theorem place (h : Packed all off size fixed total) {x : ι} (hx : size x = 0) :
    Packed all (Function.update off x (fixed.map size).sum) size fixed total := by
  have hxf : x ∉ fixed := fun hm => absurd (h.pos x hm) (by omega)
  have hoff : ∀ t, t ≠ x → Function.update off x (fixed.map size).sum t = off t := fun t hne => Function.update_of_ne hne _ _
  have hself : Function.update off x (fixed.map size).sum x = (fixed.map size).sum := Function.update_self _ _ _
  -- ほかの区画は、列に属して列の範囲に収まるか、列の終わりより後ろにある。
  have hside : ∀ t, off t + size t ≤ (fixed.map size).sum ∨ (fixed.map size).sum ≤ off t := by
    intro t
    by_cases ht : t ∈ fixed
    · exact Or.inl (h.chain.bounds ht).2
    · exact Or.inr (h.after t ht)
  have hle : (fixed.map size).sum ≤ total := (h.after x hxf).trans (Nat.le_of_add_right_le (h.inside x))
  refine ⟨fun s => ?_, fun s t hst => ?_, h.sum, h.nodup, h.pos, ?_, fun s hs => ?_⟩
  · by_cases hs : s = x
    · subst hs; rw [hself]; omega
    · rw [hoff s hs]; exact h.inside s
  · by_cases hs : s = x
    · subst hs
      have := hside t
      rw [hself, hoff t (Ne.symm hst)]; omega
    · by_cases ht : t = x
      · subst ht
        have := hside s
        rw [hself, hoff s hs]; omega
      · rw [hoff s hs, hoff t ht]; exact h.apart s t hst
  · have := h.chain.congr (f := Function.update off x (fixed.map size).sum) (g := size) (d := 0)
      (fun t ht => by rw [hoff t fun h => hxf (h ▸ ht), Nat.add_zero]) fun _ _ => rfl
    exact this
  · by_cases hsx : s = x
    · subst hsx; rw [hself]
    · rw [hoff s hsx]; exact h.after s hs

omit [DecidableEq ι] in
/-- 列の終わりの位置にあり、ほかの区画より前にある区画は、列に加えてよい。 -/
theorem extend (h : Packed all off size fixed total) {x : ι} (hx : x ∉ fixed) (hpos : 0 < size x)
    (hoff : off x = (fixed.map size).sum) (hafter : ∀ s ∉ fixed, s ≠ x → off x + size x ≤ off s) : Packed all off size (fixed ++ [x]) total := by
  refine ⟨h.inside, h.apart, h.sum, ?_, ?_, ?_, ?_⟩
  · exact List.nodup_append.mpr ⟨h.nodup, by simp, fun a ha b hb => by
      rw [List.mem_singleton] at hb
      exact fun hab => hx (hb ▸ hab ▸ ha)⟩
  · intro s hs
    rcases List.mem_append.mp hs with hs | hs
    · exact h.pos s hs
    · rw [List.mem_singleton] at hs
      rw [hs]; exact hpos
  · rw [List.map_append, List.sum_append]
    exact h.chain.append ⟨hoff, by simp [Chain]⟩
  · intro s hs
    simp only [List.mem_append, List.mem_singleton, not_or] at hs
    have := hafter s hs.1 hs.2
    simp only [List.map_append, List.map_cons, List.map_nil, List.sum_append, List.sum_cons, List.sum_nil]
    omega

end Packed

/-! ## 区画の中身 -/

/-- 番地 `base` から始まる領域の区画が `content` を持つ。`skip` の位置は問わない。 -/
def Holds (m : Mem) (base : Nat) (off size : ι → Nat) (content : ι → List UInt8) (skip : ι → Nat → Prop) : Prop :=
  ∀ s i, i < size s → ¬ skip s i → (content s)[i]? = some (m (base + off s + i))

section

variable {m : Mem} {base : Nat} {all : List ι} {off size : ι → Nat} {fixed : List ι} {total : Nat}
  {content : ι → List UInt8} {skip : ι → Nat → Prop}

/-- 区画を伸ばす操作は、どの区画の中身も変えず、伸ばした区画の末尾に 0 を加える。 -/
theorem Holds.grow (hp : Packed all off size fixed total) (h : Holds m base off size content skip) {x : ι} (k : Nat)
    (hlen : (content x).length = size x) :
    Holds (m.insertGap (base + off x + size x) k (total - (off x + size x))) base (openGap off size x k)
      (Function.update size x (size x + k)) (Function.update content x (content x ++ List.replicate k 0)) skip := by
  intro s i hi hskip
  have hins := hp.inside s
  by_cases hs : s = x
  · subst hs
    rw [Function.update_self] at hi ⊢
    rw [openGap_self]
    by_cases hlt : i < size s
    · rw [List.getElem?_append_left (by omega), Mem.insertGap_below (by omega)]
      exact h s i hlt hskip
    · rw [List.getElem?_append_right (by omega), Mem.insertGap_gap (by omega) (by omega),
        List.getElem?_replicate, if_pos (by omega)]
  · rw [Function.update_of_ne hs] at hi ⊢
    rcases Nat.lt_or_ge (off s) (off x + size x) with hlt | hge
    · have := hp.apart s x hs
      rw [openGap_of_lt k hlt, Mem.insertGap_below (by omega)]
      exact h s i hi hskip
    · rw [openGap_of_le k hs hge, show base + (off s + k) + i = base + off s + i + k by omega,
        Mem.insertGap_above (by omega) (by omega)]
      exact h s i hi hskip

theorem Holds.place (h : Holds m base off size content skip) {x : ι} (hx : size x = 0) (v : Nat) :
    Holds m base (Function.update off x v) size content skip := by
  intro s i hi hskip
  have hs : s ≠ x := fun heq => by rw [heq] at hi; omega
  rw [Function.update_of_ne hs]
  exact h s i hi hskip

omit [DecidableEq ι] in
/-- 領域の中で、`skip` の位置を除いて一致する記憶域は、同じ中身を持つ。 -/
theorem Holds.congr {m' : Mem} {base' : Nat} (h : Holds m base off size content skip)
    (hm : ∀ s i, i < size s → ¬ skip s i → m' (base' + off s + i) = m (base + off s + i)) :
    Holds m' base' off size content skip := by
  intro s i hi hskip
  rw [hm s i hi hskip]; exact h s i hi hskip

end

end Imx6Bsp.Lib
