import Imx6Bsp.Startup.Lemmas.Sysram

/-!
# `as_add_containing()` の分割

入れ物が入れ子に並んでいれば、`as_add_containing()` は範囲を、入れ物に収まる互いに重ならない断片に分ける。
-/

namespace Imx6Bsp.Startup

open Imx6Bsp.Lib

/-! ## 断片の差し込み -/

def AsRange.span (p : AsRange) : Span Nat := ⟨p.start, p.stop + 1⟩

/-- 断片は空でなく、番地の範囲に収まる。 -/
def AsRange.Valid (p : AsRange) : Prop := p.start ≤ p.stop ∧ p.stop < 2 ^ 32

theorem insertPiece_valid {n : AsRange} {ps : List AsRange} (hn : n.Valid) (hps : ∀ p ∈ ps, p.Valid)
    (hnest : ∀ p ∈ ps, n.span.NestedIn p.span) : ∀ p ∈ insertPiece n ps, p.Valid := by
  induction ps with
  | nil => simpa [insertPiece] using hn
  | cons c ps ih =>
      have hc := hps c (by simp)
      have hnc := hnest c (by simp)
      have hrest : ∀ p ∈ ps, p.Valid := fun p hp => hps p (by simp [hp])
      simp only [AsRange.Valid, Span.NestedIn, AsRange.span] at hn hc hnc
      simp only [insertPiece]
      have hwrap : n.stop < c.stop → wrap32 (n.stop + 1) = n.stop + 1 := fun h => wrap32_of_lt (by omega)
      split
      · rename_i hin
        split
        · simp only [List.forall_mem_cons]
          exact ⟨hc, hrest⟩
        · split
          · rename_i hne heq
            simp only [List.forall_mem_cons, AsRange.Valid, hwrap (by omega)]
            exact ⟨hn, by omega, hrest⟩
          · split
            · simp only [List.forall_mem_cons, AsRange.Valid, hwrap (by omega)]
              exact ⟨by omega, hn, by omega, hrest⟩
            · simp only [List.forall_mem_cons, AsRange.Valid]
              exact ⟨by omega, hn, hrest⟩
      · simp only [List.forall_mem_cons]
        exact ⟨hc, ih hrest fun p hp => hnest p (by simp [hp])⟩

theorem insertPiece_owner {n : AsRange} {ps : List AsRange} {b : Nat} (hn : n.owner < b)
    (hps : ∀ p ∈ ps, p.owner < b) : ∀ p ∈ insertPiece n ps, p.owner < b := by
  induction ps with
  | nil => simpa [insertPiece] using hn
  | cons c ps ih =>
      have hc := hps c (by simp)
      have hrest : ∀ p ∈ ps, p.owner < b := fun p hp => hps p (by simp [hp])
      simp only [insertPiece]
      split
      · split
        · simpa using ⟨hn, hrest⟩
        · split
          · simpa using ⟨hn, hc, hrest⟩
          · split
            · simpa using ⟨hc, hn, hc, hrest⟩
            · simpa using ⟨hc, hn, hrest⟩
      · simpa using ⟨hc, ih hrest⟩

/-- 断片の差し込みは、ほかの断片から差し込む断片を切り抜く。 -/
theorem insertPiece_perm {n : AsRange} {ps : List AsRange} (hn : n.Valid) (hps : ∀ p ∈ ps, p.Valid)
    (hnest : ∀ p ∈ ps, n.span.NestedIn p.span) (hapart : Apart (ps.map AsRange.span)) :
    ((insertPiece n ps).map AsRange.span).Perm
      (n.span :: (ps.map AsRange.span).flatMap (Span.carve n.span)) := by
  induction ps with
  | nil => simp [insertPiece]
  | cons c ps ih =>
      have hc := hps c (by simp)
      have hnc := hnest c (by simp)
      obtain ⟨hhead, htail⟩ := List.pairwise_cons.mp hapart
      have hps' : ∀ p ∈ ps, p.Valid := fun p hp => hps p (by simp [hp])
      have hnest' : ∀ p ∈ ps, n.span.NestedIn p.span := fun p hp => hnest p (by simp [hp])
      have hnle := hn.1
      have hnpos : n.span.lo < n.span.hi := by simp only [AsRange.span]; omega
      rw [List.map_cons, List.flatMap_cons]
      simp only [insertPiece]
      split
      · rename_i hin
        -- `n` は断片 `c` に収まり、残りの断片とは重ならない。
        have hsub : n.stop ≤ c.stop := by
          simp only [Span.NestedIn, AsRange.span] at hnc
          omega
        have hrest : (ps.map AsRange.span).flatMap (Span.carve n.span) = ps.map AsRange.span := by
          refine flatMap_carve_eq_self hnpos.le ?_ ?_
          · intro t ht
            obtain ⟨p, hp, rfl⟩ := List.mem_map.mp ht
            have := (hps' p hp).1
            simp only [AsRange.span]; omega
          · intro t ht
            have hno := hhead t ht
            obtain ⟨p, hp, rfl⟩ := List.mem_map.mp ht
            have hv := (hps' p hp).1
            rw [Span.overlaps_iff] at hno
            simp only [AsRange.span] at hno hnpos ⊢
            rcases hnest' p hp with h | h | h <;> simp only [AsRange.span] at h <;> omega
        have hwrap : n.stop < c.stop → wrap32 (n.stop + 1) = n.stop + 1 := fun h => by
          have := hc.2
          exact wrap32_of_lt (by omega)
        rw [hrest]
        split
        · rename_i heq
          have hcarve : Span.carve n.span c.span = [] :=
            Span.carve_whole (by simp only [AsRange.span]; omega) (by simp only [AsRange.span]; omega)
          have hspan : AsRange.span { c with owner := n.owner } = n.span := by
            simp only [AsRange.span, Span.mk.injEq]; omega
          rw [List.map_cons, hcarve, hspan, List.nil_append]
        · split
          · rename_i hne heq
            have hcarve : Span.carve n.span c.span = [⟨n.stop + 1, c.stop + 1⟩] :=
              Span.carve_left (by simp only [AsRange.span]; omega) (by simp only [AsRange.span]; omega)
                (by simp only [AsRange.span]; omega)
            rw [hwrap (by omega), List.map_cons, List.map_cons, hcarve]
            exact List.Perm.refl _
          · rename_i hne hlo
            have hleft : AsRange.span { c with stop := n.start - 1 } = ⟨c.start, n.start⟩ := by
              simp only [AsRange.span, Span.mk.injEq, true_and]; omega
            split
            · have hcarve : Span.carve n.span c.span = [⟨c.start, n.start⟩, ⟨n.stop + 1, c.stop + 1⟩] :=
                Span.carve_inside (by simp only [AsRange.span]; omega) hnpos.le (by simp only [AsRange.span]; omega)
              rw [hwrap (by omega), List.map_cons, List.map_cons, List.map_cons, hcarve, hleft]
              exact List.Perm.swap _ _ _
            · have hcarve : Span.carve n.span c.span = [⟨c.start, n.start⟩] :=
                Span.carve_right (by simp only [AsRange.span]; omega) (by simp only [AsRange.span]; omega)
                  (by simp only [AsRange.span]; omega)
              rw [List.map_cons, List.map_cons, hcarve, hleft]
              exact List.Perm.swap _ _ _
      · rename_i hin
        have hcarve : Span.carve n.span c.span = [c.span] := by
          refine Span.carve_eq_self ?_ hnpos.le ?_
          · have := hc.1
            simp only [AsRange.span]; omega
          · rcases hnc with h | h | h <;> simp only [AsRange.span] at h ⊢ <;> omega
        rw [hcarve, List.map_cons]
        exact ((ih hps' hnest' htail).cons _).trans (List.Perm.swap _ _ _)

/-! ## 入れ物による分割 -/

/-- 入れ子の入れ物を順に差し込むと、断片は入れ物の覆う集合の分割になる。 -/
theorem foldl_insertPiece_tiling (ns : List AsRange) :
    ∀ (done : List (Span Nat)) (ps : List AsRange), Tiling done (ps.map AsRange.span) → (∀ p ∈ ps, p.Valid) →
    (∀ n ∈ ns, n.Valid) → (∀ n ∈ ns, ∀ c ∈ done, n.span.NestedIn c) →
    ns.Pairwise (fun a b => b.span.NestedIn a.span) →
    Tiling (done ++ ns.map AsRange.span) ((ns.foldl (fun l n => insertPiece n l) ps).map AsRange.span) ∧
      ∀ p ∈ ns.foldl (fun l n => insertPiece n l) ps, p.Valid := by
  induction ns with
  | nil => intro done ps htile hps _ _ _; simpa using ⟨htile, hps⟩
  | cons n ns ih =>
      intro done ps htile hps hns hdone hpair
      obtain ⟨hhead, htail⟩ := List.pairwise_cons.mp hpair
      have hn := hns n (by simp)
      have hnpos : n.span.lo < n.span.hi := by
        have := hn.1
        simp only [AsRange.span]; omega
      have hnest : ∀ p ∈ ps, n.span.NestedIn p.span := fun p hp =>
        htile.nested n.span hnpos (hdone n (by simp)) p.span (List.mem_map_of_mem hp)
      have htile' := htile.insert hnpos (insertPiece_perm hn hps hnest htile.apart)
      have hdone' : ∀ m ∈ ns, ∀ c ∈ done ++ [n.span], m.span.NestedIn c := by
        intro m hm c hc
        rcases List.mem_append.mp hc with hc | hc
        · exact hdone m (by simp [hm]) c hc
        · rw [List.mem_singleton] at hc
          rw [hc]; exact hhead m hm
      have hnext := ih (done ++ [n.span]) (insertPiece n ps) htile' (insertPiece_valid hn hps hnest)
        (fun m hm => hns m (by simp [hm])) hdone' htail
      simpa using hnext

theorem foldl_insertPiece_owner {b : Nat} (ns : List AsRange) :
    ∀ ps : List AsRange, (∀ p ∈ ps, p.owner < b) → (∀ n ∈ ns, n.owner < b) →
    ∀ p ∈ ns.foldl (fun l n => insertPiece n l) ps, p.owner < b := by
  induction ns with
  | nil => intro ps hps _; exact hps
  | cons n ns ih =>
      intro ps hps hns
      exact ih _ (insertPiece_owner (hns n (by simp)) hps) fun m hm => hns m (by simp [hm])

/-- 位置 `i` の項目が、`name` という名前の項目かその子孫である。 -/
def IsContainer (as : Asinfo) (name : String) (i : Nat) (e : AsinfoEntry) : Prop :=
  as[i]? = some e ∧ matchName as name as.length i = true

/-- 入れ物は空でなく、入れ子か互いに重ならず、外側の入れ物が先に並ぶ。 -/
structure Laminar (as : Asinfo) (name : String) : Prop where
  valid : ∀ i e, IsContainer as name i e → e.start ≤ e.stop
  nested : ∀ i j a b, i < j → IsContainer as name i a → IsContainer as name j b → b.span.NestedIn a.span

/-- `asClips` の要素は、範囲に触れる入れ物の切り取りである。 -/
theorem mem_asClips {as : Asinfo} {start stop : Nat} {name : String} {n : AsRange} :
    n ∈ asClips as start stop name ↔ ∃ i e, IsContainer as name i e ∧ e.touches start stop = true ∧
      n = ⟨max start e.start, min stop e.stop, i⟩ := by
  simp only [asClips, List.mem_map, List.mem_filter, List.mem_range, asContains, Bool.and_eq_true, IsContainer]
  constructor
  · rintro ⟨i, ⟨hi, hm, ht⟩, rfl⟩
    refine ⟨i, as[i], ⟨List.getElem?_eq_getElem hi, hm⟩, ?_, ?_⟩
    · simpa [List.getElem?_eq_getElem hi] using ht
    · simp [asClip, List.getElem?_eq_getElem hi]
  · rintro ⟨i, e, ⟨he, hm⟩, ht, rfl⟩
    refine ⟨i, ⟨(List.getElem?_eq_some_iff.mp he).1, hm, by simp [he, ht]⟩, ?_⟩
    simp [asClip, he]

theorem asClips_pairwise {as : Asinfo} {start stop : Nat} {name : String} (h : Laminar as name)
    (hle : start ≤ stop) : (asClips as start stop name).Pairwise (fun a b => b.span.NestedIn a.span) := by
  rw [asClips, List.pairwise_map]
  have hmem : ∀ i ∈ (List.range as.length).filter (asContains as start stop name),
      ∃ e, IsContainer as name i e ∧ e.touches start stop = true ∧
        asClip as start stop i = ⟨max start e.start, min stop e.stop, i⟩ := by
    intro i hi
    obtain ⟨hi, hc⟩ := List.mem_filter.mp hi
    have hlt := List.mem_range.mp hi
    have hget := List.getElem?_eq_getElem hlt
    obtain ⟨hm, ht⟩ := Bool.and_eq_true_iff.mp hc
    exact ⟨as[i], ⟨hget, hm⟩, by simpa [hget] using ht, by simp [asClip, hget]⟩
  refine (List.pairwise_lt_range.filter _).imp_of_mem ?_
  intro i j hi hj hij
  obtain ⟨a, ha, hat, hca⟩ := hmem i hi
  obtain ⟨b, hb, hbt, hcb⟩ := hmem j hj
  have hva := h.valid i a ha
  have hvb := h.valid j b hb
  rw [AsinfoEntry.touches_iff hva hle] at hat
  rw [AsinfoEntry.touches_iff hvb hle] at hbt
  have hnest := h.nested i j a b hij ha hb
  rw [hca, hcb]
  simp only [Span.NestedIn, AsRange.span, AsinfoEntry.span] at hnest ⊢
  omega

/-- `as_add_containing()` の断片は、範囲のうち入れ物に含まれる部分の分割である。 -/
theorem asPieces_spec {as : Asinfo} {start stop : Nat} {name : String} (h : Laminar as name) (hle : start ≤ stop)
    (hstop : stop < 2 ^ 32) :
    (∀ p ∈ asPieces as start stop name, p.Valid ∧ p.owner < as.length) ∧
      Apart ((asPieces as start stop name).map AsRange.span) ∧
      covered ((asPieces as start stop name).map AsRange.span) =
        {x | start ≤ x ∧ x ≤ stop ∧ ∃ i e, IsContainer as name i e ∧ e.start ≤ x ∧ x ≤ e.stop} := by
  have hvalid : ∀ n ∈ asClips as start stop name, n.Valid := by
    intro n hn
    obtain ⟨i, e, hc, ht, rfl⟩ := mem_asClips.mp hn
    have hv := h.valid i e hc
    rw [AsinfoEntry.touches_iff hv hle] at ht
    simp only [AsRange.Valid]; omega
  have howner : ∀ n ∈ asClips as start stop name, n.owner < as.length := by
    intro n hn
    obtain ⟨i, e, hc, _, rfl⟩ := mem_asClips.mp hn
    exact (List.getElem?_eq_some_iff.mp hc.1).1
  obtain ⟨htile, hpieces⟩ := foldl_insertPiece_tiling (asClips as start stop name) [] [] .nil (by simp) hvalid
    (by simp) (asClips_pairwise h hle)
  refine ⟨fun p hp => ⟨hpieces p hp, foldl_insertPiece_owner _ [] (by simp) howner p hp⟩, htile.apart, ?_⟩
  refine htile.cover.trans ?_
  ext x
  simp only [List.nil_append, mem_covered, List.mem_map, Set.mem_ofPred_eq]
  constructor
  · rintro ⟨t, ⟨n, hn, rfl⟩, hx1, hx2⟩
    obtain ⟨i, e, hc, _, rfl⟩ := mem_asClips.mp hn
    simp only [AsRange.span] at hx1 hx2
    exact ⟨by omega, by omega, i, e, hc, by omega, by omega⟩
  · rintro ⟨h1, h2, i, e, hc, h3, h4⟩
    have hv := h.valid i e hc
    refine ⟨_, ⟨⟨max start e.start, min stop e.stop, i⟩, mem_asClips.mpr ⟨i, e, hc, ?_, rfl⟩, rfl⟩, ?_⟩
    · rw [AsinfoEntry.touches_iff hv hle]; omega
    · simp only [AsRange.span]; omega

/-! ## 断片の追加 -/

/-- 断片から作る項目。 -/
def AsRange.toEntry (name : String) (p : AsRange) : AsinfoEntry := ⟨p.start, p.stop, some p.owner, name, {}⟩

theorem sysrams_map_toEntry (ps : List AsRange) :
    sysrams (ps.map (AsRange.toEntry "sysram")) = ps.map AsRange.span := by
  induction ps with
  | nil => rfl
  | cons p ps ih =>
      rw [List.map_cons, sysrams_cons, ih]
      rfl

theorem asAddPieces_strip (attr : AsAttr) (hattr : attr.overlayIo = false) (name : String) (ps : List AsRange) :
    ∀ (as : Asinfo) (offs : Option (Nat × Nat)), (∀ p ∈ ps, p.Valid) →
    strip (asAddPieces attr name ps as offs).1 = strip as ++ ps.map (AsRange.toEntry name) := by
  induction ps with
  | nil => intro as offs _; simp [asAddPieces]
  | cons p ps ih =>
      intro as offs hps
      obtain ⟨hle, hlt⟩ := hps p (by simp)
      simp only [asAddPieces, hle, ↓reduceIte]
      rw [ih _ _ fun q hq => hps q (by simp [hq]), strip_asAdd _ _ _ _ _ hattr, wrap32_of_lt (by omega),
        wrap32_of_lt hlt]
      simp [AsRange.toEntry]

/-- `AS_OVERLAY_IO` のない `as_add_containing()` は、断片のそれぞれを一つの項目として加える。 -/
theorem asAddContaining_strip (as : Asinfo) (start stop : Nat) (name container : String)
    (hps : ∀ p ∈ asPieces as start stop container, p.Valid) :
    strip (asAddContaining as start stop .ram name container).1 =
      strip as ++ (asPieces as start stop container).map (AsRange.toEntry name) := by
  have hadd := asAddPieces_strip { AsAttr.ram with overlayIo := false, continued := true } rfl name
    (asPieces as start stop container) as none hps
  simp only [asAddContaining]
  generalize asAddPieces _ name (asPieces as start stop container) as none = res at hadd ⊢
  obtain ⟨as₁, offs⟩ := res
  cases offs with
  | none => exact hadd
  | some o =>
      obtain ⟨startOff, off⟩ := o
      rw [← hadd]
      exact strip_modify_attr as₁ off fun a => { a with continued := false }

/-! ## 末尾に項目を加えた表 -/

/-- 持ち主は、自分より前の項目である。 -/
def OwnersBefore (as : Asinfo) : Prop := ∀ (i : Nat) (e : AsinfoEntry) (o : Nat), as[i]? = some e → e.owner = some o → o < i

/-- 持ち主をたどる回数が足りていれば、`match_name()` の結果は回数によらない。 -/
theorem matchName_fuel {as : Asinfo} (h : OwnersBefore as) (name : String) (fuel : Nat) :
    ∀ (fuel' i : Nat), i < fuel → i < fuel' → matchName as name fuel i = matchName as name fuel' i := by
  induction fuel with
  | zero => intro fuel' i hi _; omega
  | succ fuel ih =>
      intro fuel' i hi hi'
      obtain ⟨fuel', rfl⟩ : ∃ f, fuel' = f + 1 := ⟨fuel' - 1, by omega⟩
      simp only [matchName]
      cases he : as[i]? with
      | none => rfl
      | some e =>
          dsimp only
          split
          · rfl
          · cases ho : e.owner with
            | none => rfl
            | some o =>
                have := h i e o he ho
                exact ih fuel' o (by omega) (by omega)

theorem matchName_append {as ext : Asinfo} (h : OwnersBefore as) (name : String) (fuel : Nat) :
    ∀ i, i < as.length → matchName (as ++ ext) name fuel i = matchName as name fuel i := by
  induction fuel with
  | zero => intros; rfl
  | succ fuel ih =>
      intro i hi
      simp only [matchName, List.getElem?_append_left hi]
      cases he : as[i]? with
      | none => rfl
      | some e =>
          dsimp only
          split
          · rfl
          · cases ho : e.owner with
            | none => rfl
            | some o =>
                have := h i e o he ho
                exact ih o (by omega)

/-- 加えた項目が範囲に触れなければ、断片は元の表のものと同じである。 -/
theorem asPieces_append {base as ext : Asinfo} {start stop : Nat} {name : String} (hown : OwnersBefore base)
    (hstrip : strip as = strip base ++ ext) (hext : ∀ e ∈ ext, e.touches start stop = false) :
    asPieces as start stop name = asPieces base start stop name := by
  have hlen : as.length = base.length + ext.length := by
    rw [← strip_length as, hstrip, List.length_append, strip_length]
  have hown' : OwnersBefore (strip base) := by
    intro i e o he ho
    rw [strip_getElem?] at he
    obtain ⟨e', he', rfl⟩ := Option.map_eq_some_iff.mp he
    exact hown i e' o he' ho
  have hget : ∀ i < base.length, as[i]?.map (fun e => { e with attr := {} }) =
      base[i]?.map (fun e => { e with attr := {} }) := by
    intro i hi
    rw [← strip_getElem?, hstrip, List.getElem?_append_left (by rw [strip_length]; exact hi), strip_getElem?]
  -- 元の表の位置では、探索の条件も切り取りも変わらない。
  have hold : ∀ i < base.length, asContains as start stop name i = asContains base start stop name i ∧
      asClip as start stop i = asClip base start stop i := by
    intro i hi
    have hmatch : matchName as name as.length i = matchName base name base.length i := by
      rw [← matchName_strip as, hstrip, matchName_append hown' _ _ i (by rw [strip_length]; exact hi),
        matchName_fuel hown' name _ base.length i (by omega) hi, matchName_strip]
    have hi' := hget i hi
    rw [List.getElem?_eq_getElem hi, List.getElem?_eq_getElem (by omega)] at hi'
    simp only [Option.map_some, Option.some.injEq, AsinfoEntry.mk.injEq] at hi'
    obtain ⟨h1, h2, _⟩ := hi'
    constructor
    · simp only [asContains, hmatch, List.getElem?_eq_getElem hi, List.getElem?_eq_getElem (show i < as.length by omega),
        Option.any_some, AsinfoEntry.touches, h1, h2]
    · simp only [asClip, List.getElem?_eq_getElem hi, List.getElem?_eq_getElem (show i < as.length by omega),
        Option.map_some, h1, h2]
  have hnew : ∀ i, base.length ≤ i → asContains as start stop name i = false := by
    intro i hi
    cases he : as[i]? with
    | none => simp [asContains, he]
    | some e =>
        have hmem : ({ e with attr := {} } : AsinfoEntry) ∈ ext := by
          refine List.mem_of_getElem? (i := i - (strip base).length) ?_
          rw [← List.getElem?_append_right (by rw [strip_length]; exact hi), ← hstrip, strip_getElem?, he]
          rfl
        have htouch := hext _ hmem
        simp only [AsinfoEntry.touches] at htouch
        simp only [asContains, he, Option.any_some, AsinfoEntry.touches, htouch, Bool.and_false]
  unfold asPieces
  congr 1
  have hfilter : ((List.range ext.length).map (base.length + ·)).filter (asContains as start stop name) = [] := by
    refine List.filter_eq_nil_iff.mpr fun i hi => ?_
    obtain ⟨j, _, rfl⟩ := List.mem_map.mp hi
    simp [hnew _ (Nat.le_add_right _ _)]
  unfold asClips
  rw [hlen, List.range_add, List.filter_append, hfilter, List.append_nil,
    List.filter_congr fun i hi => (hold i (List.mem_range.mp hi)).1]
  exact List.map_congr_left fun i hi => (hold i (List.mem_range.mp (List.mem_filter.mp hi).1)).2

end Imx6Bsp.Startup
