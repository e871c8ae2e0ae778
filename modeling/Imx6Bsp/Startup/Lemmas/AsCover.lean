import Imx6Bsp.Startup.Lemmas.AsPieces

/-!
# 入れ子でない入れ物での分割

入れ物が入れ子に並ばなくても、断片の覆う集合は入れ物の切り取りの覆う集合である。ただし、番地 `0xffffffff` で終わる切り取りが、手前で
終わる断片の途中から始まると、残りの先頭が 0 に折り返す（`Wraps`）。
-/

namespace Imx6Bsp.Startup

open Imx6Bsp.Lib

/-- 断片の並びが覆う番地。 -/
def coveredBy (ps : List AsRange) : Set Nat := {x | ∃ p ∈ ps, p.start ≤ x ∧ x ≤ p.stop}

@[simp] theorem mem_coveredBy_nil {x : Nat} : x ∈ coveredBy [] ↔ False := by simp [coveredBy]

@[simp] theorem mem_coveredBy_cons {x : Nat} {p : AsRange} {ps : List AsRange} :
    x ∈ coveredBy (p :: ps) ↔ (p.start ≤ x ∧ x ≤ p.stop) ∨ x ∈ coveredBy ps := by simp [coveredBy]

@[simp] theorem mem_coveredBy_append {x : Nat} {ps qs : List AsRange} :
    x ∈ coveredBy (ps ++ qs) ↔ x ∈ coveredBy ps ∨ x ∈ coveredBy qs := by simp [coveredBy, or_and_right, exists_or]

/-- 差し込む断片 `n` の先頭を含む最初の断片が `n` より手前で終わり、`n` は番地の上限で終わる。 -/
def Wraps (n : AsRange) (ps : List AsRange) : Prop :=
  ∃ c, ps.find? (fun c => c.start ≤ n.start ∧ n.start ≤ c.stop) = some c ∧ c.stop ≠ n.stop ∧ n.stop + 1 = 2 ^ 32

theorem wraps_cons {n c : AsRange} {ps : List AsRange} : Wraps n (c :: ps) ↔
    if c.start ≤ n.start ∧ n.start ≤ c.stop then c.stop ≠ n.stop ∧ n.stop + 1 = 2 ^ 32 else Wraps n ps := by
  unfold Wraps
  rw [List.find?_cons]
  by_cases hin : c.start ≤ n.start ∧ n.start ≤ c.stop
  · simp [hin]
  · simp only [hin, decide_false, if_false]

theorem insertPiece_bounded {n : AsRange} {ps : List AsRange} (hn : n.start ≤ n.stop ∧ n.stop < 2 ^ 32)
    (hps : ∀ p ∈ ps, p.stop < 2 ^ 32) : ∀ p ∈ insertPiece n ps, p.stop < 2 ^ 32 := by
  induction ps with
  | nil => simpa [insertPiece] using hn.2
  | cons c ps ih =>
      have hc := hps c List.mem_cons_self
      have hrest : ∀ p ∈ ps, p.stop < 2 ^ 32 := fun p hp => hps p (List.mem_cons_of_mem _ hp)
      simp only [insertPiece]
      split_ifs
      · simpa using ⟨hc, hrest⟩
      · simpa using ⟨hn.2, hc, hrest⟩
      · simpa using ⟨by omega, hn.2, hc, hrest⟩
      · simpa using ⟨by omega, hn.2, hrest⟩
      · simpa using ⟨hc, ih hrest⟩

theorem insertPiece_covered {n : AsRange} {ps : List AsRange} (hn : n.start ≤ n.stop ∧ n.stop < 2 ^ 32) (hw : ¬ Wraps n ps)
    {x : Nat} : x ∈ coveredBy (insertPiece n ps) ↔ x ∈ coveredBy ps ∨ (n.start ≤ x ∧ x ≤ n.stop) := by
  induction ps with
  | nil => simp [insertPiece]
  | cons c ps ih =>
      rw [wraps_cons] at hw
      by_cases hin : c.start ≤ n.start ∧ n.start ≤ c.stop
      · rw [if_pos hin] at hw
        have hwrap : c.stop ≠ n.stop → wrap32 (n.stop + 1) = n.stop + 1 := fun h => wrap32_of_lt (by omega)
        rw [insertPiece, if_pos hin]
        by_cases heq : c.start = n.start ∧ c.stop = n.stop
        · rw [if_pos heq, mem_coveredBy_cons, mem_coveredBy_cons]
          by_cases hx : x ∈ coveredBy ps
          · simp only [hx, or_true, true_or]
          · simp only [hx, or_false]
            omega
        · rw [if_neg heq]
          by_cases hlo : c.start = n.start
          · rw [if_pos hlo, mem_coveredBy_cons, mem_coveredBy_cons, mem_coveredBy_cons, hwrap (by omega)]
            by_cases hx : x ∈ coveredBy ps
            · simp only [hx, or_true, true_or]
            · simp only [hx, or_false]
              omega
          · rw [if_neg hlo, mem_coveredBy_cons, mem_coveredBy_cons, mem_coveredBy_cons]
            by_cases hend : c.stop ≠ n.stop
            · rw [if_pos hend, mem_coveredBy_cons, hwrap hend]
              by_cases hx : x ∈ coveredBy ps
              · simp only [hx, or_true, true_or]
              · simp only [hx, or_false]
                omega
            · rw [if_neg hend]
              by_cases hx : x ∈ coveredBy ps
              · simp only [hx, or_true, true_or]
              · simp only [hx, or_false]
                omega
      · rw [if_neg hin] at hw
        rw [insertPiece, if_neg hin, mem_coveredBy_cons, mem_coveredBy_cons, ih hw, or_assoc]

/-- 折り返すと、番地 0 が覆われる。 -/
theorem insertPiece_wrapped {n : AsRange} {ps : List AsRange} (hw : Wraps n ps) : 0 ∈ coveredBy (insertPiece n ps) := by
  induction ps with
  | nil =>
      obtain ⟨c, hc, _⟩ := hw
      cases hc
  | cons c ps ih =>
      rw [wraps_cons] at hw
      by_cases hin : c.start ≤ n.start ∧ n.start ≤ c.stop
      · rw [if_pos hin] at hw
        have hzero : wrap32 (n.stop + 1) = 0 := by rw [hw.2]; rfl
        rw [insertPiece, if_pos hin, if_neg fun h => hw.1 h.2]
        by_cases hlo : c.start = n.start
        · rw [if_pos hlo, mem_coveredBy_cons, mem_coveredBy_cons, hzero]
          exact .inr (.inl ⟨le_rfl, Nat.zero_le _⟩)
        · rw [if_neg hlo, if_pos hw.1, mem_coveredBy_cons, mem_coveredBy_cons, mem_coveredBy_cons, hzero]
          exact .inr (.inr (.inl ⟨le_rfl, Nat.zero_le _⟩))
      · rw [if_neg hin] at hw
        rw [insertPiece, if_neg hin, mem_coveredBy_cons]
        exact .inr (ih hw)

/-- 番地 0 より後ろの断片を差し込んでも、0 は覆われたままである。 -/
theorem insertPiece_zero {n : AsRange} {ps : List AsRange} (hn : 0 < n.start) (h : 0 ∈ coveredBy ps) :
    0 ∈ coveredBy (insertPiece n ps) := by
  induction ps with
  | nil => exact absurd h (by simp)
  | cons c ps ih =>
      rw [mem_coveredBy_cons] at h
      by_cases hin : c.start ≤ n.start ∧ n.start ≤ c.stop
      · rw [insertPiece, if_pos hin]
        by_cases heq : c.start = n.start ∧ c.stop = n.stop
        · rw [if_pos heq, mem_coveredBy_cons]
          exact .inr (h.resolve_left (by omega))
        · rw [if_neg heq]
          by_cases hlo : c.start = n.start
          · rw [if_pos hlo, mem_coveredBy_cons, mem_coveredBy_cons]
            exact .inr (.inr (h.resolve_left (by omega)))
          · rw [if_neg hlo, mem_coveredBy_cons, mem_coveredBy_cons]
            rcases h with h | h
            · exact .inl ⟨h.1, Nat.zero_le _⟩
            · refine .inr (.inr ?_)
              split_ifs
              · exact mem_coveredBy_cons.mpr (.inr h)
              · exact h
      · rw [insertPiece, if_neg hin, mem_coveredBy_cons]
        exact h.imp id ih

/-- どの差し込みでも折り返さない。 -/
def NeverWraps (ns : List AsRange) : Prop :=
  ∀ pre n post, ns = pre ++ n :: post → ¬ Wraps n (pre.foldl (fun l n => insertPiece n l) [])

theorem neverWraps_concat {ns : List AsRange} {n : AsRange} : NeverWraps (ns ++ [n]) ↔
    NeverWraps ns ∧ ¬ Wraps n (ns.foldl (fun l n => insertPiece n l) []) := by
  constructor
  · intro h
    refine ⟨fun pre m post hsplit => h pre m (post ++ [n]) (by rw [hsplit]; simp), h ns n [] rfl⟩
  · rintro ⟨h, hn⟩ pre m post hsplit
    rcases List.eq_nil_or_concat post with rfl | ⟨post, k, rfl⟩
    · obtain ⟨rfl, hm⟩ := List.append_inj' hsplit rfl
      rw [List.singleton_inj] at hm
      exact hm ▸ hn
    · rw [List.concat_eq_append, ← List.cons_append, ← List.append_assoc] at hsplit
      exact h pre m post (List.append_inj' hsplit rfl).1

section
variable {ns : List AsRange}

theorem foldl_insertPiece_bounded (hns : ∀ n ∈ ns, n.start ≤ n.stop ∧ n.stop < 2 ^ 32) :
    ∀ p ∈ ns.foldl (fun l n => insertPiece n l) [], p.stop < 2 ^ 32 := by
  induction ns using List.reverseRecOn with
  | nil => exact fun p hp => absurd hp List.not_mem_nil
  | append_singleton ns n ih =>
      rw [List.foldl_append]
      exact insertPiece_bounded (hns n (by simp)) (ih fun m hm => hns m (by simp [hm]))

theorem foldl_insertPiece_covered (hns : ∀ n ∈ ns, n.start ≤ n.stop ∧ n.stop < 2 ^ 32) (hw : NeverWraps ns) {x : Nat} :
    x ∈ coveredBy (ns.foldl (fun l n => insertPiece n l) []) ↔ x ∈ coveredBy ns := by
  induction ns using List.reverseRecOn with
  | nil => rfl
  | append_singleton ns n ih =>
      obtain ⟨hw, hn⟩ := neverWraps_concat.mp hw
      rw [List.foldl_append, mem_coveredBy_append, ← ih (fun m hm => hns m (by simp [hm])) hw]
      simp only [List.foldl_cons, List.foldl_nil]
      rw [insertPiece_covered (hns n (by simp)) hn, mem_coveredBy_cons]
      simp

/-- 一度でも折り返すと、最後まで番地 0 が覆われる。 -/
theorem foldl_insertPiece_wrapped (hns : ∀ n ∈ ns, 0 < n.start) (hw : ¬ NeverWraps ns) :
    0 ∈ coveredBy (ns.foldl (fun l n => insertPiece n l) []) := by
  induction ns using List.reverseRecOn with
  | nil => exact absurd (fun pre n post h => absurd h.symm (by simp)) hw
  | append_singleton ns n ih =>
      rw [List.foldl_append]
      simp only [List.foldl_cons, List.foldl_nil]
      rw [neverWraps_concat, not_and_or, not_not] at hw
      rcases hw with hw | hw
      · exact insertPiece_zero (hns n (by simp)) (ih (fun m hm => hns m (by simp [hm])) hw)
      · exact insertPiece_wrapped hw

end

/-- 番地の上限に届かない切り取りは、折り返さない。 -/
theorem neverWraps_of_lt {ns : List AsRange} (h : ∀ n ∈ ns, n.stop + 1 < 2 ^ 32) : NeverWraps ns := by
  rintro pre n post rfl ⟨c, _, _, hn⟩
  have := h n (by simp)
  omega

/-! ## 加える項目 -/

theorem asAddPieces_filter (attr : AsAttr) (name : String) (ps : List AsRange) :
    ∀ (as : Asinfo) (offs : Option (Nat × Nat)),
      asAddPieces attr name ps as offs = asAddPieces attr name (ps.filter fun p => p.start ≤ p.stop) as offs := by
  induction ps with
  | nil => exact fun _ _ => rfl
  | cons p ps ih =>
      intro as offs
      by_cases hp : p.start ≤ p.stop
      · rw [List.filter_cons_of_pos (by simpa using hp)]
        simp only [asAddPieces, hp, if_true]
        exact ih _ _
      · rw [List.filter_cons_of_neg (by simpa using hp)]
        simp only [asAddPieces, hp, if_false]
        exact ih _ _

theorem asAddContaining_strip_filter (as : Asinfo) (start stop : Nat) (name container : String)
    (hps : ∀ p ∈ asPieces as start stop container, p.stop < 2 ^ 32) :
    strip (asAddContaining as start stop .ram name container).1 =
      strip as ++ ((asPieces as start stop container).filter fun p => p.start ≤ p.stop).map (AsRange.toEntry name) := by
  have hvalid : ∀ p ∈ (asPieces as start stop container).filter fun p => p.start ≤ p.stop, p.Valid := fun p hp =>
    ⟨by simpa using (List.mem_filter.mp hp).2, hps p (List.mem_filter.mp hp).1⟩
  have hadd := asAddPieces_strip { AsAttr.ram with overlayIo := false, continued := true } rfl name _ as none hvalid
  rw [← asAddPieces_filter] at hadd
  simp only [asAddContaining]
  generalize asAddPieces _ name (asPieces as start stop container) as none = res at hadd ⊢
  obtain ⟨as₁, offs⟩ := res
  cases offs with
  | none => exact hadd
  | some o =>
      rw [← hadd]
      exact strip_modify_attr as₁ o.2 fun a => { a with continued := false }

/-- 表の `k` 番目から後ろの項目の覆う集合。 -/
def addedSpans (as : Asinfo) (k : Nat) : List (Span Nat) := (as.drop k).map AsinfoEntry.span

/-- 範囲のうち、入れ物に含まれる部分。 -/
def Contained (as : Asinfo) (container : String) (start stop : Nat) : Set Nat :=
  {x | start ≤ x ∧ x ≤ stop ∧ ∃ i e, IsContainer as container i e ∧ e.start ≤ x ∧ x ≤ e.stop}

section
variable {as : Asinfo} {start stop : Nat} {name container : String}

theorem asClips_valid (hv : ∀ i e, IsContainer as container i e → e.start ≤ e.stop) (hle : start ≤ stop)
    (hstop : stop < 2 ^ 32) : ∀ n ∈ asClips as start stop container, n.start ≤ n.stop ∧ n.stop < 2 ^ 32 := by
  intro n hn
  obtain ⟨i, e, hc, ht, rfl⟩ := mem_asClips.mp hn
  have := hv i e hc
  rw [AsinfoEntry.touches_iff this hle] at ht
  dsimp only
  omega

theorem coveredBy_asClips (hv : ∀ i e, IsContainer as container i e → e.start ≤ e.stop) (hle : start ≤ stop) {x : Nat} :
    x ∈ coveredBy (asClips as start stop container) ↔ x ∈ Contained as container start stop := by
  constructor
  · rintro ⟨n, hn, h1, h2⟩
    obtain ⟨i, e, hc, _, rfl⟩ := mem_asClips.mp hn
    dsimp only at h1 h2
    exact ⟨by omega, by omega, i, e, hc, by omega, by omega⟩
  · rintro ⟨h1, h2, i, e, hc, h3, h4⟩
    refine ⟨⟨max start e.start, min stop e.stop, i⟩, mem_asClips.mpr ⟨i, e, hc, ?_, rfl⟩, ?_, ?_⟩
    · rw [AsinfoEntry.touches_iff (hv i e hc) hle]
      omega
    · dsimp only
      omega
    · dsimp only
      omega

/-- 加えた項目の名前は、与えた名前である。 -/
theorem asAddContaining_named (hle : start ≤ stop) (hstop : stop < 2 ^ 32)
    (hv : ∀ i e, IsContainer as container i e → e.start ≤ e.stop) :
    ∀ e ∈ (asAddContaining as start stop .ram name container).1.drop as.length, e.name = name := by
  intro e he
  have hstrip := congrArg (List.drop as.length)
    (asAddContaining_strip_filter as start stop name container (foldl_insertPiece_bounded (asClips_valid hv hle hstop)))
  rw [List.drop_left' (strip_length as), strip, ← List.map_drop] at hstrip
  have hmem := hstrip ▸ List.mem_map_of_mem (f := fun e : AsinfoEntry => { e with attr := {} }) he
  obtain ⟨p, _, hp⟩ := List.mem_map.mp hmem
  exact (congrArg AsinfoEntry.name hp).symm

/-- 加えた項目が範囲のうち入れ物に含まれる部分をちょうど覆うのは、差し込みが折り返さないときであり、そのときに限る。 -/
theorem asAddContaining_covered_iff (hv : ∀ i e, IsContainer as container i e → e.start ≤ e.stop) (hle : start ≤ stop)
    (hstop : stop < 2 ^ 32) (h0 : 0 < start) :
    covered (addedSpans (asAddContaining as start stop .ram name container).1 as.length) = Contained as container start stop ↔
      NeverWraps (asClips as start stop container) := by
  have hvalid := asClips_valid hv hle hstop
  have hbound : ∀ p ∈ asPieces as start stop container, p.stop < 2 ^ 32 := foldl_insertPiece_bounded hvalid
  have hstrip := asAddContaining_strip_filter as start stop name container hbound
  have hadded : ∀ x, x ∈ covered (addedSpans (asAddContaining as start stop .ram name container).1 as.length) ↔
      x ∈ coveredBy (asPieces as start stop container) := by
    intro x
    have hdrop := congrArg (fun l => (l.drop as.length).map AsinfoEntry.span) hstrip
    rw [List.drop_left' (strip_length as), List.map_map] at hdrop
    have hspan : addedSpans (asAddContaining as start stop .ram name container).1 as.length =
        ((strip (asAddContaining as start stop .ram name container).1).drop as.length).map AsinfoEntry.span := by
      unfold addedSpans strip
      rw [← List.map_drop, List.map_map]
      rfl
    rw [hspan, hdrop, mem_covered]
    constructor
    · rintro ⟨t, ht, h1, h2⟩
      obtain ⟨p, hp, rfl⟩ := List.mem_map.mp ht
      exact ⟨p, (List.mem_filter.mp hp).1, h1, Nat.le_of_lt_succ h2⟩
    · rintro ⟨p, hp, h1, h2⟩
      exact ⟨_, List.mem_map_of_mem (List.mem_filter.mpr ⟨hp, by simpa using h1.trans h2⟩), h1, Nat.lt_succ_of_le h2⟩
  constructor
  · intro hcov
    by_contra hw
    have hzero : 0 ∈ coveredBy (asPieces as start stop container) := foldl_insertPiece_wrapped (fun n hn => by
      obtain ⟨i, e, _, _, rfl⟩ := mem_asClips.mp hn
      dsimp only
      omega) hw
    rw [← hadded, hcov] at hzero
    exact absurd hzero.1 (by omega)
  · intro hw
    ext x
    rw [hadded, ← coveredBy_asClips hv hle]
    exact foldl_insertPiece_covered hvalid hw

end

end Imx6Bsp.Startup
