import Imx6Bsp.Startup.Lemmas.FindRam

/-!
# 上からの探索と、番地の上限で終わる範囲の取り除き

`find_top_ram_aligned()` の返す番地は、候補のうちで最も大きい。選ばれた範囲が番地の上限で終わると、`alloc_ram()` の `end` は 0 に折り返す。
-/

namespace Imx6Bsp.Startup

open Imx6Bsp.Lib

/-! ## 上からの探索 -/

/-- `avoid_list` の番兵より前の項目。 -/
def liveAvoids (av : List AvoidEntry) : List AvoidEntry := av.takeWhile fun a => a.stop ≠ 0

theorem avoidWalk_liveAvoids (av : List AvoidEntry) : ∀ s e, avoidWalk (liveAvoids av) s e = avoidWalk av s e := by
  induction av with
  | nil => exact fun _ _ => rfl
  | cons a av ih =>
      intro s e
      by_cases hstop : a.stop = 0
      · simp [liveAvoids, avoidWalk, hstop]
      · have hlive : liveAvoids (a :: av) = a :: liveAvoids av := List.takeWhile_cons_of_pos (by simpa using hstop)
        rw [hlive]
        simp only [avoidWalk, hstop, if_false]
        cases fixSize s e a.start a.stop with
        | none => rfl
        | some p => exact ih p.1 p.2

theorem liveAvoids_stop {av : List AvoidEntry} : ∀ a ∈ liveAvoids av, a.stop ≠ 0 := fun a ha => by
  simpa using List.mem_takeWhile_imp ha

/-- 終わりが `e` の候補から決まる番地。 -/
def topAddr (size align e : Nat) : Nat := if align ≠ 0 then trunc (e - size) align else wrap32 (e - size)

theorem topAddr_le (size align e : Nat) : topAddr size align e ≤ e - size := by
  unfold topAddr
  split
  · exact trunc_le _ _
  · exact Nat.mod_le _ _

theorem dvd_topAddr {size align e : Nat} (h : IsAlign align) : align ∣ topAddr size align e := by
  rw [topAddr, if_pos h.pos.ne']
  obtain ⟨k, hk, rfl⟩ := h
  rw [trunc_two_pow _ hk]
  exact Nat.dvd_mul_left _ _

/-- 項目 `r` の、避ける範囲を除いた残りの上の端に `size` バイトが収まり、その番地が `c` である。 -/
def TopCandidate (av : List AvoidEntry) (size align : Nat) (r : RamEntry) (c : Nat) : Prop :=
  ∃ lo hi, avoidWalk av r.addr (r.addr + r.size) = some (lo, hi) ∧ size ≤ hi - lo ∧ lo ≤ c ∧ c = topAddr size align hi

/-- 探索の結果は、初めの値と候補の番地のうちで最も大きい。 -/
theorem findTopWalk_max (av : List AvoidEntry) (size align : Nat) (l : List RamEntry) : ∀ top,
    top ≤ findTopWalk av size align l top ∧
      (∀ r ∈ l, ∀ c, TopCandidate av size align r c → c ≤ findTopWalk av size align l top) ∧
      (findTopWalk av size align l top = top ∨ ∃ r ∈ l, TopCandidate av size align r (findTopWalk av size align l top)) := by
  induction l with
  | nil => exact fun top => ⟨le_rfl, fun _ h => absurd h List.not_mem_nil, .inl rfl⟩
  | cons r l ih =>
      intro top
      -- 項目 `r` の後の最大値が `t` であれば、残りは帰納法の仮定による。
      have hstep : ∀ t, top ≤ t → (∀ c, TopCandidate av size align r c → c ≤ t) →
          (t = top ∨ TopCandidate av size align r t) → findTopWalk av size align (r :: l) top = findTopWalk av size align l t →
          top ≤ findTopWalk av size align (r :: l) top ∧
            (∀ r' ∈ r :: l, ∀ c, TopCandidate av size align r' c → c ≤ findTopWalk av size align (r :: l) top) ∧
            (findTopWalk av size align (r :: l) top = top ∨
              ∃ r' ∈ r :: l, TopCandidate av size align r' (findTopWalk av size align (r :: l) top)) := by
        intro t hle hmax ht heq
        obtain ⟨h1, h2, h3⟩ := ih t
        rw [heq]
        refine ⟨hle.trans h1, ?_, ?_⟩
        · intro r' hr' c hc
          rcases List.mem_cons.mp hr' with rfl | hr'
          · exact (hmax c hc).trans h1
          · exact h2 r' hr' c hc
        · rcases h3 with h3 | ⟨r', hr', hc⟩
          · rw [h3]
            exact ht.imp_right fun hc => ⟨r, List.mem_cons_self, hc⟩
          · exact .inr ⟨r', List.mem_cons_of_mem _ hr', hc⟩
      cases hw : avoidWalk av r.addr (r.addr + r.size) with
      | none =>
          refine hstep top le_rfl (fun c hc => ?_) (.inl rfl) (by simp only [findTopWalk, hw])
          obtain ⟨lo, hi, h, _⟩ := hc
          cases hw.symm.trans h
      | some p =>
          obtain ⟨lo, hi⟩ := p
          have hcand : ∀ c, TopCandidate av size align r c ↔ size ≤ hi - lo ∧ lo ≤ c ∧ c = topAddr size align hi := by
            intro c
            constructor
            · rintro ⟨lo', hi', h, hfit⟩
              cases hw.symm.trans h
              exact hfit
            · exact fun h => ⟨lo, hi, hw, h⟩
          by_cases hsize : size ≤ hi - lo
          · by_cases hchk : topAddr size align hi ≥ lo ∧ topAddr size align hi > top
            · refine hstep (topAddr size align hi) hchk.2.le (fun c hc => ?_) (.inr ?_) ?_
              · exact ((hcand c).mp hc).2.2.le
              · exact (hcand _).mpr ⟨hsize, hchk.1, rfl⟩
              · simp only [findTopWalk, hw, if_pos hsize]
                exact congrArg _ (if_pos hchk)
            · refine hstep top le_rfl (fun c hc => ?_) (.inl rfl) ?_
              · obtain ⟨_, h1, rfl⟩ := (hcand c).mp hc
                omega
              · simp only [findTopWalk, hw, if_pos hsize]
                exact congrArg _ (if_neg hchk)
          · refine hstep top le_rfl (fun c hc => absurd ((hcand c).mp hc).1 hsize) (.inl rfl) ?_
            simp only [findTopWalk, hw, if_neg hsize]

/-- 候補は、項目に収まり、避ける範囲から外れる。 -/
theorem TopCandidate.fits {av : List AvoidEntry} {size align c : Nat} {r : RamEntry} {l : List RamEntry} (hr : r ∈ l)
    (hpos : 0 < r.size) (h : TopCandidate av size align r c) : Fits l (liveAvoids av) c size := by
  obtain ⟨lo, hi, hw, hsize, hlo, rfl⟩ := h
  rw [← avoidWalk_liveAvoids] at hw
  obtain ⟨h1, h2, h3, h4⟩ := avoidWalk_off liveAvoids_stop (by omega) hw
  have hle := topAddr_le size align hi
  refine ⟨⟨r, hr, by omega, by omega⟩, fun a ha => ?_⟩
  have := h4 a ha
  omega

/-! ## 番地の上限で終わる範囲の取り除き -/

section

variable {a : Nat}

/-- 範囲が番地の上限で終わると、手前の項目のうち、番地 0 から始まらないものは変わらない。 -/
theorem allocRamWalk_top_skip (mid : List RamEntry) (rest : List RamEntry) :
    ∀ (pre : List RamEntry) (fuel : Nat), (∀ q ∈ mid, 0 < q.addr ∧ q.addr + q.size ≤ a) →
      allocRamWalk a 0 (fuel + mid.length) pre.length (pre ++ (mid ++ rest)) =
        allocRamWalk a 0 fuel (pre ++ mid).length (pre ++ mid ++ rest) := by
  induction mid with
  | nil => intro pre fuel _; simp
  | cons q mid ih =>
      intro pre fuel h
      have hq := h q List.mem_cons_self
      have hc : ¬ ((a ≤ q.addr ∧ 0 > q.addr) ∨ (a ≥ q.addr ∧ a < q.addr + q.size) ∨ (0 ≥ q.addr ∧ 0 < q.addr + q.size)) := by
        omega
      have hget : (pre ++ (q :: mid ++ rest))[pre.length]? = some q := by simp
      rw [List.length_cons, ← Nat.add_assoc, allocRamWalk, hget]
      simp only [if_neg hc]
      have hih := ih (pre ++ [q]) fuel fun x hx => h x (List.mem_cons_of_mem _ hx)
      simpa using hih

variable {l l' : List RamEntry} {r : RamEntry} {fuel : Nat}

/-- 番地の上限で終わる項目は、最後の項目である。 -/
theorem RamWF.last (hwf : RamWF l) (hr : r ∈ l) (hend : r.addr + r.size = 2 ^ 32) :
    ∃ pre, l = pre ++ [r] ∧ ∀ q ∈ pre, q.addr + q.size < r.addr := by
  obtain ⟨pre, post, rfl⟩ := List.append_of_mem hr
  cases post with
  | nil =>
      refine ⟨pre, rfl, fun q hq => ?_⟩
      have hs := hwf.sep
      simp only [spans_append, spans_cons] at hs
      exact hs.cross q.span (List.mem_map_of_mem hq) r.span (by simp)
  | cons x post =>
      have h1 := hwf.beyond x List.mem_cons_self
      have h2 := hwf.bound x (by simp)
      omega

/-- 番地 0 から始まるほかの項目がなければ、変わるのは最後の項目だけである。範囲が項目の先頭から始まると、項目は番地 0 から上限までに広がる。 -/
theorem allocRamWalk_top_last {pre : List RamEntry} (hpre : ∀ q ∈ pre, 0 < q.addr ∧ q.addr + q.size ≤ a)
    (hend : r.addr + r.size = 2 ^ 32) (hlo : r.addr ≤ a) (ha : a < 2 ^ 32) (hfuel : pre.length + 2 ≤ fuel) :
    allocRamWalk a 0 fuel 0 (pre ++ [r]) = .ok (pre ++ [if a = r.addr then ⟨0, 2 ^ 32⟩ else ⟨r.addr, a - r.addr⟩]) := by
  obtain ⟨f, rfl⟩ : ∃ f, fuel = f + 1 + pre.length := ⟨fuel - 1 - pre.length, by omega⟩
  have hwalk := allocRamWalk_top_skip pre [r] [] (f + 1) hpre
  simp only [List.nil_append, List.length_nil] at hwalk
  have hdone := fun q => @allocRamWalk_done a 0 f (pre ++ [q])
  simp only [List.length_append, List.length_cons, List.length_nil] at hdone
  have hc : (a ≤ r.addr ∧ 0 > r.addr) ∨ (a ≥ r.addr ∧ a < r.addr + r.size) ∨ (0 ≥ r.addr ∧ 0 < r.addr + r.size) := by omega
  have he : (if 0 > r.addr + r.size then 0 else r.addr + r.size) = 2 ^ 32 := (if_neg (Nat.not_lt_zero _)).trans hend
  have hs : (if a < r.addr then a else r.addr) = r.addr := if_neg (by omega)
  have hset : ∀ q, (pre ++ [r]).set pre.length q = pre ++ [q] := fun q => by simp
  rw [hwalk, allocRamWalk, List.getElem?_concat_length]
  simp only [if_pos hc, he, hs, hset]
  rw [if_neg (by omega)]
  by_cases heq : a = r.addr
  · rw [if_pos heq, if_pos heq]
    exact hdone _
  · -- 残りの大きさ `2 ^ 32` は 32 ビットでは 0 なので、`add_mem()` は何も加えない。
    have hadd : ∀ l : List RamEntry, addMem l (wrap32 0) (wrap32 (2 ^ 32 - 0)) = .ok l := fun _ => rfl
    rw [if_neg heq, if_neg heq, if_pos (by decide), hadd]
    exact hdone _

/-- 範囲が項目の先頭から始まらず、番地 0 から始まるほかの項目がなければ、範囲はちょうど取り除かれる。 -/
theorem allocRamWalk_top_ok (hwf : RamWF l) (hr : r ∈ l) (hend : r.addr + r.size = 2 ^ 32) (hlo : r.addr < a) (ha : a < 2 ^ 32)
    (hzero : ∀ q ∈ l, q.addr = 0 → q.addr + q.size = 2 ^ 32) (hfuel : l.length + 1 ≤ fuel)
    (hl : allocRamWalk a 0 fuel 0 l = .ok l') : freeSet l' = freeSet l \ Set.Ico a (2 ^ 32) := by
  obtain ⟨pre, rfl, hpre⟩ := hwf.last hr hend
  have hskip : ∀ q ∈ pre, 0 < q.addr ∧ q.addr + q.size ≤ a := by
    intro q hq
    have h1 := hpre q hq
    have h2 := hzero q (by simp [hq])
    omega
  have hwalk := allocRamWalk_top_last hskip hend hlo.le ha (show pre.length + 2 ≤ fuel from by rwa [List.length_append] at hfuel)
  rw [if_neg (by omega)] at hwalk
  cases hwalk.symm.trans hl
  ext x
  have hout : x ∈ freeSet pre → x < a := by
    rintro ⟨s, hs, h⟩
    obtain ⟨q, hq, rfl⟩ := List.mem_map.mp hs
    have := hpre q hq
    simp only [Span.mem_toSet, RamEntry.span_lo, RamEntry.span_hi] at h
    omega
  simp only [freeSet, spans_append, spans_cons, spans_nil, covered_append, covered_cons, covered_nil, Set.union_empty,
    Set.mem_sdiff, Set.mem_union, Span.mem_toSet, RamEntry.span_lo, RamEntry.span_hi, Set.mem_Ico]
  change x ∈ freeSet pre ∨ _ ↔ (x ∈ freeSet pre ∨ _) ∧ _
  by_cases hx : x ∈ freeSet pre
  · have := hout hx
    simp only [hx, true_or, true_iff, true_and]
    omega
  · simp only [hx, false_or]
    omega

/-- 範囲が項目の先頭から始まると、すべての番地が空きになる。 -/
theorem allocRamWalk_top_whole (hwf : RamWF l) (hr : r ∈ l) (hend : r.addr + r.size = 2 ^ 32) (hlo : r.addr = a) (ha : 0 < a)
    (hzero : ∀ q ∈ l, q.addr = 0 → q.addr + q.size = 2 ^ 32) (hfuel : l.length + 1 ≤ fuel)
    (hl : allocRamWalk a 0 fuel 0 l = .ok l') : Set.Ico 0 (2 ^ 32) ⊆ freeSet l' := by
  have hpos := hwf.size_pos hr
  obtain ⟨pre, rfl, hpre⟩ := hwf.last hr hend
  have hskip : ∀ q ∈ pre, 0 < q.addr ∧ q.addr + q.size ≤ a := by
    intro q hq
    have h1 := hpre q hq
    have h2 := hzero q (by simp [hq])
    omega
  have hwalk := allocRamWalk_top_last hskip hend hlo.le (by omega) (show pre.length + 2 ≤ fuel from by rwa [List.length_append] at hfuel)
  rw [if_pos hlo.symm] at hwalk
  cases hwalk.symm.trans hl
  exact fun x hx => ⟨⟨0, 2 ^ 32⟩, by simp [RamEntry.span], hx⟩

/-- 番地 0 から始まるほかの項目があると、`add_mem()` の併合ですべての番地が空きになる。 -/
theorem allocRamWalk_top_origin {q : RamEntry} (hwf : RamWF l) (hr : r ∈ l) (hend : r.addr + r.size = 2 ^ 32) (hlo : r.addr ≤ a)
    (ha : 0 < a) (ha' : a < 2 ^ 32) (hq : q ∈ l) (hzero : q.addr = 0) (hne : q.addr + q.size ≠ 2 ^ 32) (hfuel : l.length + 1 ≤ fuel)
    (hl : allocRamWalk a 0 fuel 0 l = .ok l') : Set.Ico 0 (2 ^ 32) ⊆ freeSet l' := by
  have hqpos := hwf.size_pos hq
  -- 番地 0 から始まる項目は先頭にあり、`r` はその後ろにある。
  obtain ⟨rest, rfl⟩ : ∃ rest, l = q :: rest := by
    obtain ⟨pre, post, rfl⟩ := List.append_of_mem hq
    cases pre with
    | nil => exact ⟨post, rfl⟩
    | cons p pre =>
        have hs := hwf.sep
        simp only [spans_append, spans_cons, List.cons_append] at hs
        have := hs.head_lt q.span (by simp)
        simp only [RamEntry.span_lo, hzero] at this
        omega
  have hrest : r ∈ rest := by
    rcases List.mem_cons.mp hr with rfl | h
    · exact absurd hend hne
    · exact h
  have hlt : q.addr + q.size < r.addr := @RamWF.beyond [] rest q hwf r hrest
  obtain ⟨f, rfl⟩ : ∃ f, fuel = f + 1 := ⟨fuel - 1, by omega⟩
  have hc : (a ≤ q.addr ∧ 0 > q.addr) ∨ (a ≥ q.addr ∧ a < q.addr + q.size) ∨ (0 ≥ q.addr ∧ 0 < q.addr + q.size) := by omega
  have he : (if 0 > q.addr + q.size then 0 else q.addr + q.size) = q.size := by
    rw [if_neg (Nat.not_lt_zero _), hzero, Nat.zero_add]
  have hs : (if a < q.addr then a else q.addr) = 0 := (if_neg (by omega)).trans hzero
  rw [allocRamWalk] at hl
  simp only [List.getElem?_cons_zero, if_pos hc, he, hs, List.set_cons_zero] at hl
  rw [if_neg (by omega), if_neg (by omega), if_pos (by omega)] at hl
  obtain ⟨l₁, hl₁, hl⟩ := Except.bind_eq_ok.mp hl
  -- 併合の結果は、覆う集合から一つの項目に決まる。
  have hl₁ : addMem (⟨0, a⟩ :: rest) 0 q.size = .ok l₁ := by
    rw [← hl₁, hzero, Nat.sub_zero, Nat.sub_zero, wrap32_of_lt (x := q.size) (by omega)]
    rfl
  have hmerge : l₁ = addMemMerge ⟨0, a⟩ (addMemInsert 0 q.size rest) := by
    rw [addMem, if_pos hqpos] at hl₁
    split at hl₁
    · cases hl₁
    · simp only [addMemInsert, gt_iff_lt, Nat.lt_irrefl, if_false] at hl₁
      exact (Except.ok.inj hl₁).symm
  have hsrest : Separated (spans rest) := by
    have := hwf.sep
    rw [spans_cons] at this
    exact this.tail
  have hsort : SortedByLo (⟨0, a⟩ :: insertByLo ⟨0, q.size⟩ (spans rest)) :=
    List.pairwise_cons.mpr ⟨fun _ _ => Nat.zero_le _, sortedByLo_insertByLo _ hsrest.sortedByLo⟩
  have hspans : spans l₁ = absorb ⟨0, a⟩ (insertByLo ⟨0, q.size⟩ (spans rest)) := by
    rw [hmerge, spans_addMemMerge, spans_addMemInsert, Nat.zero_add]
    simp only [RamEntry.span, Nat.zero_add]
  have hsep : Separated (spans l₁) := by
    rw [hspans]
    refine separated_absorb (fun s hs => ?_) hsort
    rcases List.mem_cons.mp hs with rfl | hs
    · exact ha
    · rcases mem_insertByLo.mp hs with rfl | hs
      · exact hqpos
      · exact hsrest.pos s hs
  have hcov : covered (spans l₁) = covered (spans [⟨0, 2 ^ 32⟩]) := by
    rw [hspans, covered_absorb hsort, covered_cons, covered_insertByLo]
    ext x
    have hin : x ∈ covered (spans rest) → x < 2 ^ 32 := by
      rintro ⟨s, hs, h⟩
      obtain ⟨y, hy, rfl⟩ := List.mem_map.mp hs
      have hb := hwf.bound y (List.mem_cons_of_mem _ hy)
      simp only [Span.mem_toSet, RamEntry.span_lo, RamEntry.span_hi] at h
      omega
    have htop : r.addr ≤ x → x < 2 ^ 32 → x ∈ covered (spans rest) := fun h1 h2 =>
      ⟨r.span, List.mem_map_of_mem hrest, h1, h2.trans_eq hend.symm⟩
    simp only [Set.mem_union, Span.mem_toSet, spans_cons, spans_nil, covered_cons, covered_nil, Set.union_empty,
      RamEntry.span_lo, RamEntry.span_hi]
    by_cases hx : x ∈ covered (spans rest)
    · have := hin hx
      simp only [hx, true_or, or_true, true_iff]
      omega
    · have : ¬ (r.addr ≤ x ∧ x < 2 ^ 32) := fun h => hx (htop h.1 h.2)
      simp only [hx, false_or]
      omega
  have hone : l₁ = [⟨0, 2 ^ 32⟩] :=
    spans_injective (hsep.ext (.cons (by decide) (by simp) .nil) hcov)
  subst hone
  cases (@allocRamWalk_done a 0 f [⟨0, 2 ^ 32⟩]).symm.trans hl
  exact fun x hx => ⟨⟨0, 2 ^ 32⟩, by simp [RamEntry.span], hx⟩

end

end Imx6Bsp.Startup
