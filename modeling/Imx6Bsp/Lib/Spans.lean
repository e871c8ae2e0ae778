import Mathlib

/-!
# 半開区間の並び

線形順序の上の半開区間の並びと、それが覆う点の集合を扱う。間を空けて並んだ区間の列（`Separated`）は、覆う集合で
一意に決まる。区間の併合（`insertByLo` と `absorb`）は和集合を、区間の切り抜き（`carve`）は差集合を計算する。
-/

namespace Imx6Bsp.Lib

/-- 半開区間 `[lo, hi)`。 -/
structure Span (α : Type*) where
  lo : α
  hi : α
deriving DecidableEq, Repr

variable {α : Type*} [LinearOrder α]

/-- 区間に含まれる点の集合。 -/
def Span.toSet (s : Span α) : Set α := Set.Ico s.lo s.hi

@[simp] theorem Span.mem_toSet {s : Span α} {x : α} : x ∈ s.toSet ↔ s.lo ≤ x ∧ x < s.hi := Iff.rfl

/-- 二つの区間が共通の点を持つこと。 -/
def Span.Overlaps (s t : Span α) : Prop := ∃ x, x ∈ s.toSet ∧ x ∈ t.toSet

theorem Span.Overlaps.symm {s t : Span α} (h : s.Overlaps t) : t.Overlaps s := by
  obtain ⟨x, hs, ht⟩ := h; exact ⟨x, ht, hs⟩

theorem Span.overlaps_iff {s t : Span α} :
    s.Overlaps t ↔ s.lo < s.hi ∧ t.lo < t.hi ∧ s.lo < t.hi ∧ t.lo < s.hi := by
  constructor
  · rintro ⟨x, ⟨h1, h2⟩, h3, h4⟩
    exact ⟨h1.trans_lt h2, h3.trans_lt h4, h1.trans_lt h4, h3.trans_lt h2⟩
  · rintro ⟨h1, h2, h3, h4⟩
    exact ⟨max s.lo t.lo, ⟨le_max_left _ _, max_lt h1 h4⟩, le_max_right _ _, max_lt h3 h2⟩

instance (s t : Span α) : Decidable (s.Overlaps t) := decidable_of_iff _ Span.overlaps_iff.symm

/-! ## 覆う集合 -/

/-- 並びのどれかの区間に含まれる点の集合。 -/
def covered (l : List (Span α)) : Set α := {x | ∃ s ∈ l, x ∈ s.toSet}

@[simp] theorem mem_covered {l : List (Span α)} {x : α} :
    x ∈ covered l ↔ ∃ s ∈ l, s.lo ≤ x ∧ x < s.hi := Iff.rfl

@[simp] theorem covered_nil : covered ([] : List (Span α)) = ∅ := by ext x; simp

@[simp] theorem covered_cons (s : Span α) (l : List (Span α)) :
    covered (s :: l) = s.toSet ∪ covered l := by ext x; simp

@[simp] theorem covered_append (l l' : List (Span α)) :
    covered (l ++ l') = covered l ∪ covered l' := by
  ext x; simp only [mem_covered, List.mem_append, Set.mem_union, or_and_right, exists_or]

theorem covered_flatMap {β : Type*} (f : β → List (Span α)) (l : List β) :
    covered (l.flatMap f) = {x | ∃ b ∈ l, x ∈ covered (f b)} := by
  ext x
  simp only [mem_covered, List.mem_flatMap, Set.mem_ofPred_eq]
  constructor
  · rintro ⟨s, ⟨b, hb, hs⟩, hx⟩; exact ⟨b, hb, s, hs, hx⟩
  · rintro ⟨b, hb, s, hs, hx⟩; exact ⟨s, ⟨b, hb, hs⟩, hx⟩

/-! ## 間を空けて並んだ区間の列 -/

/-- どの区間も空でなく、前の区間が終わった後に間を空けて次の区間が始まる。 -/
structure Separated (l : List (Span α)) : Prop where
  pos : ∀ s ∈ l, s.lo < s.hi
  sep : l.Pairwise (fun a b => a.hi < b.lo)

namespace Separated

theorem nil : Separated ([] : List (Span α)) := ⟨by simp, .nil⟩

theorem tail {s : Span α} {l : List (Span α)} (h : Separated (s :: l)) : Separated l :=
  ⟨fun t ht => h.pos t (List.mem_cons_of_mem _ ht), (List.pairwise_cons.mp h.sep).2⟩

theorem head_pos {s : Span α} {l : List (Span α)} (h : Separated (s :: l)) : s.lo < s.hi :=
  h.pos s List.mem_cons_self

theorem head_lt {s : Span α} {l : List (Span α)} (h : Separated (s :: l)) :
    ∀ t ∈ l, s.hi < t.lo := (List.pairwise_cons.mp h.sep).1

theorem cons {s : Span α} {l : List (Span α)} (hs : s.lo < s.hi) (hl : ∀ t ∈ l, s.hi < t.lo)
    (h : Separated l) : Separated (s :: l) :=
  ⟨by simpa using ⟨hs, h.pos⟩, List.pairwise_cons.mpr ⟨hl, h.sep⟩⟩

theorem append {l l' : List (Span α)} (h : Separated l) (h' : Separated l')
    (hll : ∀ a ∈ l, ∀ b ∈ l', a.hi < b.lo) : Separated (l ++ l') :=
  ⟨fun s hs => (List.mem_append.mp hs).elim (h.pos s) (h'.pos s),
    List.pairwise_append.mpr ⟨h.sep, h'.sep, hll⟩⟩

theorem left {l l' : List (Span α)} (h : Separated (l ++ l')) : Separated l :=
  ⟨fun s hs => h.pos s (List.mem_append_left _ hs), (List.pairwise_append.mp h.sep).1⟩

theorem right {l l' : List (Span α)} (h : Separated (l ++ l')) : Separated l' :=
  ⟨fun s hs => h.pos s (List.mem_append_right _ hs), (List.pairwise_append.mp h.sep).2.1⟩

theorem cross {l l' : List (Span α)} (h : Separated (l ++ l')) : ∀ a ∈ l, ∀ b ∈ l', a.hi < b.lo :=
  (List.pairwise_append.mp h.sep).2.2

/-- 先頭の区間は、残りの区間が覆うどの点よりも前にある。 -/
theorem head_notMem {s : Span α} {l : List (Span α)} (h : Separated (s :: l)) {x : α}
    (hx : x ∈ covered l) : s.hi < x := by
  obtain ⟨t, ht, h1, _⟩ := hx
  exact (h.head_lt t ht).trans_le h1

theorem covered_tail {s : Span α} {l : List (Span α)} (h : Separated (s :: l)) :
    covered l = covered (s :: l) \ s.toSet := by
  ext x
  simp only [covered_cons, Set.mem_sdiff, Set.mem_union]
  constructor
  · intro hx; exact ⟨Or.inr hx, fun hs => absurd hs.2 (not_lt.mpr (h.head_notMem hx).le)⟩
  · rintro ⟨hx | hx, hn⟩
    · exact absurd hx hn
    · exact hx

private theorem head_le {s t : Span α} {l l' : List (Span α)} (h : Separated (s :: l))
    (h' : Separated (t :: l')) (hc : covered (s :: l) = covered (t :: l')) : t.lo ≤ s.lo ∧ s.hi ≤ t.hi := by
  have hs : s.lo ∈ covered (t :: l') := by rw [← hc]; exact ⟨s, by simp, le_rfl, h.head_pos⟩
  have hlo : t.lo ≤ s.lo := by
    obtain ⟨u, hu, h1, _⟩ := hs
    rcases List.mem_cons.mp hu with rfl | hu
    · exact h1
    · exact (h'.head_pos.trans (h'.head_lt u hu)).le.trans h1
  refine ⟨hlo, not_lt.mp fun hlt => ?_⟩
  -- `t.hi` は `t :: l'` のどの区間にも含まれないが、`s` には含まれる。
  have ht : t.hi ∈ covered (s :: l) := by
    refine ⟨s, by simp, ?_, hlt⟩
    obtain ⟨u, hu, h1, h2⟩ := hs
    rcases List.mem_cons.mp hu with rfl | hu
    · exact h2.le
    · have htl : t.lo ∈ covered (s :: l) := by rw [hc]; exact ⟨t, by simp, le_rfl, h'.head_pos⟩
      obtain ⟨v, hv, h3, _⟩ := htl
      have hsv : s.lo ≤ t.lo := by
        rcases List.mem_cons.mp hv with rfl | hv
        · exact h3
        · exact (h.head_pos.trans (h.head_lt v hv)).le.trans h3
      exact hsv.trans h'.head_pos.le
  rw [hc] at ht
  obtain ⟨u, hu, h1, h2⟩ := ht
  rcases List.mem_cons.mp hu with rfl | hu
  · exact lt_irrefl _ h2
  · exact absurd h1 (not_le.mpr (h'.head_lt u hu))

/-- 間を空けて並んだ区間の列は、覆う集合で一意に決まる。 -/
theorem ext : {l l' : List (Span α)} → Separated l → Separated l' → covered l = covered l' → l = l'
  | [], [], _, _, _ => rfl
  | [], t :: l', _, h', hc => by
      have : t.lo ∈ covered (t :: l') := ⟨t, by simp, le_rfl, h'.head_pos⟩
      rw [← hc] at this; simp at this
  | s :: l, [], h, _, hc => by
      have : s.lo ∈ covered (s :: l) := ⟨s, by simp, le_rfl, h.head_pos⟩
      rw [hc] at this; simp at this
  | s :: l, t :: l', h, h', hc => by
      have h1 := head_le h h' hc
      have h2 := head_le h' h hc.symm
      have hst : s = t := by
        cases s; cases t; simp only [Span.mk.injEq]
        exact ⟨le_antisymm h2.1 h1.1, le_antisymm h1.2 h2.2⟩
      subst hst
      rw [ext h.tail h'.tail (by rw [h.covered_tail, h'.covered_tail, hc])]

end Separated

/-! ## 併合 -/

/-- 始まりが早い順の並びに、始まりが同じものの後へ区間を差し込む。 -/
def insertByLo (n : Span α) : List (Span α) → List (Span α)
  | [] => [n]
  | s :: rest => if n.lo < s.lo then n :: s :: rest else s :: insertByLo n rest

/-- 前の区間 `p` に接するか重なる区間を、前から順に `p` へ吸収する。 -/
def absorb : Span α → List (Span α) → List (Span α)
  | p, [] => [p]
  | p, s :: rest => if s.lo ≤ p.hi then absorb ⟨p.lo, max p.hi s.hi⟩ rest else p :: absorb s rest

/-- 始まりが早い順に並んでいること。 -/
abbrev SortedByLo (l : List (Span α)) : Prop := l.Pairwise (fun a b => a.lo ≤ b.lo)

theorem Separated.sortedByLo {l : List (Span α)} (h : Separated l) : SortedByLo l := by
  refine h.sep.imp_of_mem ?_
  intro a b ha _ hab
  exact ((h.pos a ha).trans hab).le

theorem mem_insertByLo {n s : Span α} {l : List (Span α)} : s ∈ insertByLo n l ↔ s = n ∨ s ∈ l := by
  induction l with
  | nil => simp [insertByLo]
  | cons t l ih =>
      simp only [insertByLo]
      split
      · simp
      · simp only [List.mem_cons, ih]; tauto

theorem covered_insertByLo (n : Span α) (l : List (Span α)) :
    covered (insertByLo n l) = covered l ∪ n.toSet := by
  ext x
  simp only [mem_covered, mem_insertByLo, Set.mem_union, Span.mem_toSet]
  constructor
  · rintro ⟨s, rfl | hs, hx⟩
    · exact Or.inr hx
    · exact Or.inl ⟨s, hs, hx⟩
  · rintro (⟨s, hs, hx⟩ | hx)
    · exact ⟨s, Or.inr hs, hx⟩
    · exact ⟨n, Or.inl rfl, hx⟩

theorem sortedByLo_insertByLo (n : Span α) {l : List (Span α)} (h : SortedByLo l) :
    SortedByLo (insertByLo n l) := by
  induction l with
  | nil => simp [insertByLo]
  | cons t l ih =>
      obtain ⟨ht, hl⟩ := List.pairwise_cons.mp h
      simp only [insertByLo]
      split
      · rename_i hlt
        refine List.pairwise_cons.mpr ⟨?_, h⟩
        intro b hb
        rcases List.mem_cons.mp hb with rfl | hb
        · exact hlt.le
        · exact hlt.le.trans (ht b hb)
      · rename_i hlt
        refine List.pairwise_cons.mpr ⟨?_, ih hl⟩
        intro b hb
        rcases mem_insertByLo.mp hb with rfl | hb
        · exact not_lt.mp hlt
        · exact ht b hb

theorem covered_absorb {p : Span α} {l : List (Span α)} (h : SortedByLo (p :: l)) :
    covered (absorb p l) = covered (p :: l) := by
  induction l generalizing p with
  | nil => rfl
  | cons s l ih =>
      obtain ⟨hp, hs⟩ := List.pairwise_cons.mp h
      have hps := hp s List.mem_cons_self
      simp only [absorb]
      split
      · rename_i hle
        have hsort : SortedByLo (⟨p.lo, max p.hi s.hi⟩ :: l) :=
          List.pairwise_cons.mpr ⟨fun b hb => hp b (List.mem_cons_of_mem _ hb), (List.pairwise_cons.mp hs).2⟩
        rw [ih hsort]
        simp only [covered_cons, ← Set.union_assoc]
        congr 1
        ext x
        simp only [Span.mem_toSet, Set.mem_union, lt_max_iff]
        constructor
        · rintro ⟨h1, h2 | h2⟩
          · exact Or.inl ⟨h1, h2⟩
          · by_cases hx : x < p.hi
            · exact Or.inl ⟨h1, hx⟩
            · exact Or.inr ⟨hle.trans (not_lt.mp hx), h2⟩
        · rintro (⟨h1, h2⟩ | ⟨h1, h2⟩)
          · exact ⟨h1, Or.inl h2⟩
          · exact ⟨hps.trans h1, Or.inr h2⟩
      · rw [covered_cons, ih hs, covered_cons p]

theorem lo_le_of_mem_absorb {p s : Span α} {l : List (Span α)} (h : SortedByLo (p :: l))
    (hs : s ∈ absorb p l) : p.lo ≤ s.lo := by
  induction l generalizing p with
  | nil => simp only [absorb, List.mem_singleton] at hs; rw [hs]
  | cons t l ih =>
      obtain ⟨hp, ht⟩ := List.pairwise_cons.mp h
      simp only [absorb] at hs
      split at hs
      · exact ih (p := ⟨p.lo, max p.hi t.hi⟩) (List.pairwise_cons.mpr
          ⟨fun b hb => hp b (List.mem_cons_of_mem _ hb), (List.pairwise_cons.mp ht).2⟩) hs
      · rcases List.mem_cons.mp hs with rfl | hs
        · exact le_rfl
        · exact (hp t List.mem_cons_self).trans (ih ht hs)

theorem separated_absorb {p : Span α} {l : List (Span α)} (hpos : ∀ s ∈ p :: l, s.lo < s.hi)
    (h : SortedByLo (p :: l)) : Separated (absorb p l) := by
  induction l generalizing p with
  | nil => exact .cons (hpos p (by simp)) (by simp) .nil
  | cons s l ih =>
      obtain ⟨hp, hs⟩ := List.pairwise_cons.mp h
      simp only [absorb]
      split
      · refine ih ?_ (List.pairwise_cons.mpr
          ⟨fun b hb => hp b (List.mem_cons_of_mem _ hb), (List.pairwise_cons.mp hs).2⟩)
        intro t ht
        rcases List.mem_cons.mp ht with rfl | ht
        · exact lt_max_of_lt_left (hpos p (by simp))
        · exact hpos t (by simp [ht])
      · rename_i hlt
        refine .cons (hpos p (by simp)) ?_ (ih (fun t ht => hpos t (by simp [List.mem_cons.mp ht])) hs)
        intro t ht
        exact (not_le.mp hlt).trans_le (lo_le_of_mem_absorb hs ht)

theorem hi_le_of_mem_absorb {p s : Span α} {l : List (Span α)} {b : α} (hb : ∀ t ∈ p :: l, t.hi ≤ b)
    (hs : s ∈ absorb p l) : s.hi ≤ b := by
  induction l generalizing p with
  | nil => simp only [absorb, List.mem_singleton] at hs; rw [hs]; exact hb p (by simp)
  | cons t l ih =>
      simp only [absorb] at hs
      split at hs
      · refine ih (p := ⟨p.lo, max p.hi t.hi⟩) ?_ hs
        intro u hu
        rcases List.mem_cons.mp hu with rfl | hu
        · exact max_le (hb p (by simp)) (hb t (by simp))
        · exact hb u (by simp [hu])
      · rcases List.mem_cons.mp hs with rfl | hs
        · exact hb _ (by simp)
        · exact ih (fun u hu => hb u (by simp [List.mem_cons.mp hu])) hs

/-! ## 切り抜き -/

/-- 区間 `s` から `cut` を切り抜いた残り。 -/
def Span.carve (cut s : Span α) : List (Span α) :=
  [⟨s.lo, min s.hi cut.lo⟩, ⟨max s.lo cut.hi, s.hi⟩].filter (fun t => t.lo < t.hi)

theorem Span.mem_carve {cut s t : Span α} :
    t ∈ Span.carve cut s ↔ (t = ⟨s.lo, min s.hi cut.lo⟩ ∨ t = ⟨max s.lo cut.hi, s.hi⟩) ∧ t.lo < t.hi := by
  simp [Span.carve]

theorem Span.covered_carve (cut s : Span α) :
    covered (Span.carve cut s) = s.toSet \ cut.toSet := by
  ext x
  simp only [mem_covered, Span.mem_carve, Set.mem_sdiff, Span.mem_toSet, not_and, not_lt]
  constructor
  · rintro ⟨t, ⟨rfl | rfl, _⟩, h1, h2⟩
    · have h3 := lt_min_iff.mp h2
      exact ⟨⟨h1, h3.1⟩, fun h => absurd h (not_le.mpr h3.2)⟩
    · have h3 := max_le_iff.mp h1
      exact ⟨⟨h3.1, h2⟩, fun _ => h3.2⟩
  · rintro ⟨⟨h1, h2⟩, h3⟩
    by_cases hx : x < cut.lo
    · exact ⟨_, ⟨Or.inl rfl, h1.trans_lt (lt_min h2 hx)⟩, h1, lt_min h2 hx⟩
    · have h4 := h3 (not_lt.mp hx)
      exact ⟨_, ⟨Or.inr rfl, (max_le h1 h4).trans_lt h2⟩, max_le h1 h4, h2⟩

theorem covered_carve (cut : Span α) (l : List (Span α)) :
    covered (l.flatMap (Span.carve cut)) = covered l \ cut.toSet := by
  rw [covered_flatMap]
  ext x
  simp only [Span.covered_carve, Set.mem_ofPred_eq, Set.mem_sdiff]
  constructor
  · rintro ⟨s, hs, hx, hn⟩; exact ⟨⟨s, hs, hx⟩, hn⟩
  · rintro ⟨⟨s, hs, hx⟩, hn⟩; exact ⟨s, hs, hx, hn⟩

/-- 切り抜いた残りは、元の区間の中に収まる。 -/
theorem Span.carve_bounds {cut s t : Span α} (ht : t ∈ Span.carve cut s) : s.lo ≤ t.lo ∧ t.hi ≤ s.hi := by
  obtain ⟨rfl | rfl, _⟩ := Span.mem_carve.mp ht
  · exact ⟨le_rfl, min_le_left _ _⟩
  · exact ⟨le_max_left _ _, le_rfl⟩

theorem Span.carve_eq_self {cut s : Span α} (hs : s.lo < s.hi) (hcut : cut.lo ≤ cut.hi)
    (h : s.hi ≤ cut.lo ∨ cut.hi ≤ s.lo) : Span.carve cut s = [s] := by
  rcases h with h | h
  · have h1 : ¬ max s.lo cut.hi < s.hi := not_lt.mpr ((h.trans hcut).trans (le_max_right _ _))
    simp [Span.carve, min_eq_left h, hs, h1]
  · have h1 : ¬ s.lo < min s.hi cut.lo :=
      not_lt.mpr ((min_le_right _ _).trans (hcut.trans h))
    simp [Span.carve, max_eq_left h, hs, h1]

theorem Span.carve_whole {c s : Span α} (h1 : c.lo ≤ s.lo) (h2 : s.hi ≤ c.hi) : Span.carve c s = [] := by
  have h3 : ¬ s.lo < min s.hi c.lo := not_lt.mpr ((min_le_right _ _).trans h1)
  have h4 : ¬ max s.lo c.hi < s.hi := not_lt.mpr (h2.trans (le_max_right _ _))
  simp [Span.carve, h3, h4]

theorem Span.carve_left {c s : Span α} (h1 : c.lo ≤ s.lo) (h2 : s.lo ≤ c.hi) (h3 : c.hi < s.hi) :
    Span.carve c s = [⟨c.hi, s.hi⟩] := by
  have h4 : ¬ s.lo < min s.hi c.lo := not_lt.mpr ((min_le_right _ _).trans h1)
  simp [Span.carve, h4, max_eq_right h2, h3]

theorem Span.carve_right {c s : Span α} (h1 : s.lo < c.lo) (h2 : c.lo ≤ s.hi) (h3 : s.hi ≤ c.hi) :
    Span.carve c s = [⟨s.lo, c.lo⟩] := by
  have h4 : ¬ max s.lo c.hi < s.hi := not_lt.mpr (h3.trans (le_max_right _ _))
  simp [Span.carve, h4, min_eq_right h2, h1]

theorem Span.carve_inside {c s : Span α} (h1 : s.lo < c.lo) (h2 : c.lo ≤ c.hi) (h3 : c.hi < s.hi) :
    Span.carve c s = [⟨s.lo, c.lo⟩, ⟨c.hi, s.hi⟩] := by
  simp [Span.carve, min_eq_right (h2.trans h3.le), max_eq_right (h1.le.trans h2), h1, h3]

theorem flatMap_carve_eq_self {cut : Span α} (hcut : cut.lo ≤ cut.hi) {l : List (Span α)}
    (hpos : ∀ s ∈ l, s.lo < s.hi) (h : ∀ s ∈ l, s.hi ≤ cut.lo ∨ cut.hi ≤ s.lo) :
    l.flatMap (Span.carve cut) = l := by
  induction l with
  | nil => rfl
  | cons s l ih =>
      rw [List.flatMap_cons, Span.carve_eq_self (hpos s (by simp)) hcut (h s (by simp)),
        ih (fun t ht => hpos t (by simp [ht])) (fun t ht => h t (by simp [ht]))]
      rfl

theorem Separated.carve {cut : Span α} (hcut : cut.lo < cut.hi) {l : List (Span α)} (h : Separated l) :
    Separated (l.flatMap (Span.carve cut)) := by
  refine ⟨?_, List.pairwise_flatMap.mpr ⟨?_, ?_⟩⟩
  · intro t ht
    obtain ⟨s, _, hts⟩ := List.mem_flatMap.mp ht
    exact (Span.mem_carve.mp hts).2
  · intro s _
    refine List.Pairwise.filter _ (List.pairwise_pair.mpr ?_)
    exact (min_le_right _ _).trans_lt (hcut.trans_le (le_max_right _ _))
  · refine h.sep.imp ?_
    intro a b hab x hx y hy
    exact ((Span.carve_bounds hx).2.trans_lt hab).trans_le (Span.carve_bounds hy).1

/-! ## 重ならない区間の並び -/

/-- どの二つの区間も重ならない。 -/
def Apart (l : List (Span α)) : Prop := l.Pairwise (fun a b => ¬ a.Overlaps b)

theorem covered_perm {l l' : List (Span α)} (h : l.Perm l') : covered l = covered l' := by
  ext x
  simp only [mem_covered, h.mem_iff]

theorem Apart.perm {l l' : List (Span α)} (h : Apart l) (hp : l.Perm l') : Apart l' :=
  hp.pairwise h fun hab hba => hab hba.symm

theorem Span.Overlaps.mono {s t s' t' : Span α} (h : s'.Overlaps t') (hs : s.lo ≤ s'.lo ∧ s'.hi ≤ s.hi)
    (ht : t.lo ≤ t'.lo ∧ t'.hi ≤ t.hi) : s.Overlaps t := by
  obtain ⟨x, ⟨h1, h2⟩, h3, h4⟩ := h
  exact ⟨x, ⟨hs.1.trans h1, h2.trans_le hs.2⟩, ht.1.trans h3, h4.trans_le ht.2⟩

theorem Span.not_overlaps_carve {cut s t : Span α} (ht : t ∈ Span.carve cut s) : ¬ cut.Overlaps t := by
  rintro ⟨x, ⟨h1, h2⟩, h3, h4⟩
  obtain ⟨rfl | rfl, _⟩ := Span.mem_carve.mp ht
  · exact absurd (h4.trans_le (min_le_right _ _)) (not_lt.mpr h1)
  · exact absurd ((le_max_right _ _).trans h3) (not_le.mpr h2)

/-- 切り抜いた残りも、互いに重ならない。 -/
theorem Apart.carve {cut : Span α} (hcut : cut.lo ≤ cut.hi) {l : List (Span α)} (h : Apart l) :
    Apart (l.flatMap (Span.carve cut)) := by
  refine List.pairwise_flatMap.mpr ⟨fun s _ => ?_, h.imp ?_⟩
  · refine List.Pairwise.filter _ (List.pairwise_pair.mpr ?_)
    rintro ⟨x, ⟨_, h2⟩, h3, _⟩
    exact absurd (h2.trans_le (min_le_right _ _)) (not_lt.mpr (hcut.trans ((le_max_right _ _).trans h3)))
  · intro a b hab x hx y hy hxy
    exact hab (hxy.mono (Span.carve_bounds hx) (Span.carve_bounds hy))

/-- `s` は `t` に収まるか、`t` と重ならない。 -/
def Span.NestedIn (s t : Span α) : Prop := (t.lo ≤ s.lo ∧ s.hi ≤ t.hi) ∨ s.hi ≤ t.lo ∨ t.hi ≤ s.lo

theorem Span.NestedIn.carve {j c cut t : Span α} (hj : j.lo < j.hi) (hcut : cut.lo ≤ cut.hi) (h : j.NestedIn c)
    (h' : j.NestedIn cut) (ht : t ∈ Span.carve cut c) : j.NestedIn t := by
  obtain ⟨rfl | rfl, hlt⟩ := Span.mem_carve.mp ht
  · unfold NestedIn at *
    dsimp only at *
    rcases le_total c.hi cut.lo with hle | hle
    · rw [min_eq_left hle]; exact h
    · rw [min_eq_right hle]
      rcases h with h | h | h <;> rcases h' with h1 | h1 | h1 <;> grind
  · unfold NestedIn at *
    dsimp only at *
    rcases le_total c.lo cut.hi with hle | hle
    · rw [max_eq_right hle]
      rcases h with h | h | h <;> rcases h' with h1 | h1 | h1 <;> grind
    · rw [max_eq_left hle]; exact h

/-- `ps` は、入れ子の区間 `cs` の覆う集合の分割である。`cs` のどれとも入れ子になる区間は、どの断片とも入れ子になる。 -/
structure Tiling (cs ps : List (Span α)) : Prop where
  pos : ∀ p ∈ ps, p.lo < p.hi
  apart : Apart ps
  cover : covered ps = covered cs
  nested : ∀ j : Span α, j.lo < j.hi → (∀ c ∈ cs, j.NestedIn c) → ∀ p ∈ ps, j.NestedIn p

theorem Tiling.nil : Tiling ([] : List (Span α)) [] := ⟨by simp, .nil, rfl, by simp⟩

/-- 入れ子の区間を一つ加えると、断片はその区間を切り抜いた残りとその区間になる。 -/
theorem Tiling.insert {cs ps ps' : List (Span α)} {n : Span α} (h : Tiling cs ps) (hn : n.lo < n.hi)
    (hp : ps'.Perm (n :: ps.flatMap (Span.carve n))) : Tiling (cs ++ [n]) ps' where
  pos := by
    intro p hm
    rcases List.mem_cons.mp (hp.mem_iff.mp hm) with rfl | hm
    · exact hn
    · obtain ⟨s, _, hs⟩ := List.mem_flatMap.mp hm
      exact (Span.mem_carve.mp hs).2
  apart := by
    refine Apart.perm (List.pairwise_cons.mpr ⟨fun p hm => ?_, h.apart.carve hn.le⟩) hp.symm
    obtain ⟨s, _, hs⟩ := List.mem_flatMap.mp hm
    exact Span.not_overlaps_carve hs
  cover := by
    rw [covered_perm hp, covered_cons, covered_carve, Set.union_sdiff_self, covered_append, h.cover, covered_cons,
      covered_nil, Set.union_empty, Set.union_comm]
  nested := by
    intro j hj hcs p hm
    rcases List.mem_cons.mp (hp.mem_iff.mp hm) with rfl | hm
    · exact hcs p (by simp)
    · obtain ⟨s, hs, hps⟩ := List.mem_flatMap.mp hm
      exact (h.nested j hj (fun c hc => hcs c (by simp [hc])) s hs).carve hj hn.le (hcs n (by simp)) hps

end Imx6Bsp.Lib
