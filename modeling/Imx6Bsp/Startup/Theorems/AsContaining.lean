import Imx6Bsp.Startup.Lemmas.AsPieces

/-!
# `as_add_containing()` の分割と持ち主

断片の持ち主は、断片に触れる入れ物のうち最も後ろのものである（`OwnedBy`）。外側の入れ物が先に並ぶので、それは最も内側の入れ物である。
-/

namespace Imx6Bsp.Startup

open Imx6Bsp.Lib

/-! ## 断片の持ち主 -/

/-- 差し込んだ後の断片は、差し込んだものか、それと重ならない元の断片の一部である。 -/
theorem mem_insertPiece {n p : AsRange} {ps : List AsRange} (hn : n.Valid) (hps : ∀ q ∈ ps, q.Valid)
    (hnest : ∀ q ∈ ps, n.span.NestedIn q.span) (hapart : Apart (ps.map AsRange.span)) (hp : p ∈ insertPiece n ps) :
    p = n ∨ ∃ q ∈ ps, p.owner = q.owner ∧ q.start ≤ p.start ∧ p.stop ≤ q.stop ∧ (p.stop < n.start ∨ n.stop < p.start) := by
  induction ps with
  | nil => exact .inl (List.mem_singleton.mp hp)
  | cons c ps ih =>
      have hc := hps c List.mem_cons_self
      have hnc := hnest c List.mem_cons_self
      obtain ⟨hhead, htail⟩ := List.pairwise_cons.mp hapart
      have hps' : ∀ q ∈ ps, q.Valid := fun q hq => hps q (List.mem_cons_of_mem _ hq)
      have hnest' : ∀ q ∈ ps, n.span.NestedIn q.span := fun q hq => hnest q (List.mem_cons_of_mem _ hq)
      simp only [AsRange.Valid, Span.NestedIn, AsRange.span] at hn hc hnc
      have hwrap : n.stop < c.stop → wrap32 (n.stop + 1) = n.stop + 1 := fun h => wrap32_of_lt (by omega)
      simp only [insertPiece] at hp
      by_cases hin : c.start ≤ n.start ∧ n.start ≤ c.stop
      · -- `n` は `c` に収まるので、残りの断片とは重ならない。
        have hrest : ∀ q ∈ ps, q.stop < n.start ∨ n.stop < q.start := fun q hq => by
          have hno := hhead _ (List.mem_map_of_mem hq)
          have hv := (hps' q hq).1
          rw [Span.overlaps_iff] at hno
          simp only [AsRange.span] at hno
          omega
        have hkeep : p ∈ ps → ∃ q ∈ c :: ps, p.owner = q.owner ∧ q.start ≤ p.start ∧ p.stop ≤ q.stop ∧
            (p.stop < n.start ∨ n.stop < p.start) := fun hp =>
          ⟨p, List.mem_cons_of_mem _ hp, rfl, le_rfl, le_rfl, hrest p hp⟩
        rw [if_pos hin] at hp
        by_cases heq : c.start = n.start ∧ c.stop = n.stop
        · rw [if_pos heq] at hp
          rcases List.mem_cons.mp hp with rfl | hp
          · refine .inl ?_
            obtain ⟨ns, ne, no⟩ := n
            obtain ⟨rfl, rfl⟩ := heq
            rfl
          · exact .inr (hkeep hp)
        · rw [if_neg heq] at hp
          by_cases hlo : c.start = n.start
          · rw [if_pos hlo] at hp
            rcases List.mem_cons.mp hp with rfl | hp
            · exact .inl rfl
            · rcases List.mem_cons.mp hp with rfl | hp
              · have hw := hwrap (by omega)
                refine .inr ⟨c, List.mem_cons_self, rfl, ?_, le_rfl, ?_⟩ <;> dsimp only <;> omega
              · exact .inr (hkeep hp)
          · rw [if_neg hlo] at hp
            rcases List.mem_cons.mp hp with rfl | hp
            · refine .inr ⟨c, List.mem_cons_self, rfl, le_rfl, ?_, ?_⟩ <;> dsimp only <;> omega
            · rcases List.mem_cons.mp hp with rfl | hp
              · exact .inl rfl
              · by_cases hend : c.stop ≠ n.stop
                · rw [if_pos hend] at hp
                  rcases List.mem_cons.mp hp with rfl | hp
                  · have hw := hwrap (by omega)
                    refine .inr ⟨c, List.mem_cons_self, rfl, ?_, le_rfl, ?_⟩ <;> dsimp only <;> omega
                  · exact .inr (hkeep hp)
                · rw [if_neg hend] at hp
                  exact .inr (hkeep hp)
      · rw [if_neg hin] at hp
        rcases List.mem_cons.mp hp with rfl | hp
        · exact .inr ⟨p, List.mem_cons_self, rfl, le_rfl, le_rfl, by omega⟩
        · rcases ih hps' hnest' htail hp with h | ⟨q, hq, h⟩
          · exact .inl h
          · exact .inr ⟨q, List.mem_cons_of_mem _ hq, h⟩

/-- 断片 `p` は、持ち主の切り取りに収まり、触れる切り取りの中で持ち主が最も後ろである。 -/
structure OwnedBy (ns : List AsRange) (p : AsRange) : Prop where
  inside : ∃ n ∈ ns, n.owner = p.owner ∧ n.start ≤ p.start ∧ p.stop ≤ n.stop
  last : ∀ m ∈ ns, m.start ≤ p.stop → p.start ≤ m.stop → m.owner ≤ p.owner

theorem foldl_insertPiece_owned {ns : List AsRange} (hns : ∀ n ∈ ns, n.Valid)
    (hnest : ns.Pairwise fun a b => b.span.NestedIn a.span) (hown : ns.Pairwise fun a b => a.owner < b.owner) :
    ∀ p ∈ ns.foldl (fun l n => insertPiece n l) [], OwnedBy ns p := by
  induction ns using List.reverseRecOn with
  | nil => exact fun p hp => absurd hp List.not_mem_nil
  | append_singleton ns n ih =>
      obtain ⟨hnest₁, -, hnest₂⟩ := List.pairwise_append.mp hnest
      obtain ⟨hown₁, -, hown₂⟩ := List.pairwise_append.mp hown
      have hns₁ : ∀ m ∈ ns, m.Valid := fun m hm => hns m (List.mem_append_left _ hm)
      have hn := hns n (List.mem_append_right _ List.mem_cons_self)
      obtain ⟨htile, hvalid⟩ := foldl_insertPiece_tiling ns [] [] .nil (fun _ h => absurd h List.not_mem_nil) hns₁
        (fun _ _ _ h => absurd h List.not_mem_nil) hnest₁
      rw [List.nil_append] at htile
      rw [List.foldl_append]
      intro p hp
      have hpos : n.span.lo < n.span.hi := by
        have := hn.1
        simp only [AsRange.span]
        omega
      have hnested : ∀ q ∈ ns.foldl (fun l n => insertPiece n l) [], n.span.NestedIn q.span := fun q hq =>
        htile.nested n.span hpos (fun c hc => by
          obtain ⟨m, hm, rfl⟩ := List.mem_map.mp hc
          exact hnest₂ m hm n List.mem_cons_self) q.span (List.mem_map_of_mem hq)
      rcases mem_insertPiece hn hvalid hnested htile.apart hp with rfl | ⟨q, hq, howner, hlo, hhi, hoff⟩
      · refine ⟨⟨p, List.mem_append_right _ List.mem_cons_self, rfl, le_rfl, le_rfl⟩, fun m hm _ _ => ?_⟩
        rcases List.mem_append.mp hm with hm | hm
        · exact (hown₂ m hm p List.mem_cons_self).le
        · rw [List.mem_singleton.mp hm]
      · obtain ⟨⟨m, hm, h1, h2, h3⟩, hlast⟩ := ih hns₁ hnest₁ hown₁ q hq
        refine ⟨⟨m, List.mem_append_left _ hm, h1.trans howner.symm, h2.trans hlo, hhi.trans h3⟩, fun k hk hk1 hk2 => ?_⟩
        rcases List.mem_append.mp hk with hk | hk
        · rw [howner]
          exact hlast k hk (hk1.trans hhi) (hlo.trans hk2)
        · rw [List.mem_singleton.mp hk] at hk1 hk2
          omega

/-- 断片の持ち主は、断片を覆う入れ物のうち最も内側のものである。 -/
structure Innermost (as : Asinfo) (container : String) (p : AsRange) (o : AsinfoEntry) : Prop where
  isContainer : IsContainer as container p.owner o
  covers : o.start ≤ p.start ∧ p.stop ≤ o.stop
  inner : ∀ i e, IsContainer as container i e → e.start ≤ p.stop → p.start ≤ e.stop →
    e.start ≤ o.start ∧ o.stop ≤ e.stop ∧ i ≤ p.owner

theorem asClips_owner_lt (as : Asinfo) (start stop : Nat) (container : String) :
    (asClips as start stop container).Pairwise fun a b => a.owner < b.owner := by
  rw [asClips, List.pairwise_map]
  exact List.pairwise_lt_range.filter _

theorem asPieces_innermost {as : Asinfo} {start stop : Nat} {container : String} (h : Laminar as container)
    (hle : start ≤ stop) (hstop : stop < 2 ^ 32) :
    ∀ p ∈ asPieces as start stop container, ∃ o, Innermost as container p o := by
  intro p hp
  have hvalid : ∀ n ∈ asClips as start stop container, n.Valid := by
    intro n hn
    obtain ⟨i, e, hc, ht, rfl⟩ := mem_asClips.mp hn
    have hv := h.valid i e hc
    rw [AsinfoEntry.touches_iff hv hle] at ht
    simp only [AsRange.Valid]
    omega
  have hpv := ((asPieces_spec h hle hstop).1 p hp).1.1
  obtain ⟨⟨n, hn, hno, hlo, hhi⟩, hlast⟩ := foldl_insertPiece_owned hvalid (asClips_pairwise h hle)
    (asClips_owner_lt as start stop container) p hp
  obtain ⟨i, o, hc, _, rfl⟩ := mem_asClips.mp hn
  subst hno
  dsimp only at hlo hhi
  refine ⟨o, hc, by omega, fun j e hj h1 h2 => ?_⟩
  have hej := h.valid j e hj
  have hji : j ≤ p.owner := hlast ⟨max start e.start, min stop e.stop, j⟩
    (mem_asClips.mpr ⟨j, e, hj, (AsinfoEntry.touches_iff hej hle).mpr (by omega), rfl⟩)
    (by dsimp only; omega) (by dsimp only; omega)
  rcases Nat.lt_or_eq_of_le hji with hlt | rfl
  · have := h.nested j p.owner e o hlt hj hc
    simp only [Span.NestedIn, AsinfoEntry.span] at this
    omega
  · obtain rfl := Option.some.inj (hj.1.symm.trans hc.1)
    exact ⟨le_rfl, le_rfl, le_rfl⟩

/-! ## 加える項目 -/

/-- `AS_ATTR_KIDS` を除いた表。`as_add64()` は、加えた項目のほかは持ち主のこのビットだけを変える。 -/
def noKids (as : Asinfo) : Asinfo := as.map fun e => { e with attr := { e.attr with kids := false } }

@[simp] theorem noKids_append (as as' : Asinfo) : noKids (as ++ as') = noKids as ++ noKids as' := List.map_append

@[simp] theorem noKids_length (as : Asinfo) : (noKids as).length = as.length := List.length_map _

theorem noKids_getElem? (as : Asinfo) (i : Nat) :
    (noKids as)[i]? = as[i]?.map fun e => { e with attr := { e.attr with kids := false } } := List.getElem?_map

theorem noKids_markKids (as : Asinfo) (o : Option Nat) : noKids (markKids as o) = noKids as := by
  cases o with
  | none => rfl
  | some o =>
      refine List.ext_getElem? fun j => ?_
      rw [noKids_getElem?, noKids_getElem?, markKids, List.getElem?_modify]
      cases as[j]? with
      | none => rfl
      | some e => by_cases h : o = j <;> simp [h]

/-- 断片の項目。 -/
def pieceEntry (attr : AsAttr) (name : String) (continued : Bool) (p : AsRange) : AsinfoEntry :=
  ⟨p.start, p.stop, some p.owner, name, { access := attr.access, continued }⟩

/-- 断片の項目の並び。最後のほかは `AS_ATTR_CONTINUED` を持つ。 -/
def pieceEntries (attr : AsAttr) (name : String) (ps : List AsRange) : Asinfo :=
  ps.mapIdx fun i p => pieceEntry attr name (i + 1 < ps.length) p

/-- `AS_OVERLAY_IO` で断片に重ねる項目の並び。位置 `base` からの断片が持ち主となる。 -/
def overlayEntries (attr : AsAttr) (name : String) (base : Nat) (ps : List AsRange) : Asinfo :=
  ps.mapIdx fun i p => ⟨p.start, p.stop, some (base + i), name, { access := attr.access, continued := attr.continued }⟩

theorem noKids_asAdd (as : Asinfo) (start stop : Nat) (attr : AsAttr) (name : String) (owner : Option Nat)
    (h : attr.overlayIo = false) : noKids (asAdd as start stop attr name owner).1 =
      noKids as ++ [⟨wrap32 start, wrap32 stop, owner, name, { access := attr.access, continued := attr.continued }⟩] := by
  simp only [asAdd, asAdd64, h, Bool.false_eq_true, ↓reduceIte, noKids_markKids, noKids_append]
  rfl

theorem asAdd_off (as : Asinfo) (start stop : Nat) {attr : AsAttr} (name : String) (owner : Option Nat)
    (h : attr.overlayIo = false) : (asAdd as start stop attr name owner).2 = as.length := by
  simp only [asAdd, asAdd64, h, Bool.false_eq_true, ↓reduceIte]

theorem pieceEntries_concat (attr : AsAttr) (name : String) (ps : List AsRange) (p : AsRange) :
    pieceEntries attr name (ps ++ [p]) = ps.map (pieceEntry attr name true) ++ [pieceEntry attr name false p] := by
  unfold pieceEntries
  rw [List.mapIdx_concat, List.length_append, List.length_singleton, List.mapIdx_eq_ofFn]
  congr 1
  · refine List.ext_getElem (by simp) fun i h1 h2 => ?_
    simp only [List.length_ofFn] at h1
    simp
  · simp

theorem asAddPieces_noKids (attr : AsAttr) (hattr : attr.overlayIo = false) (name : String) (ps : List AsRange) :
    ∀ (as : Asinfo) (offs : Option (Nat × Nat)), (∀ p ∈ ps, p.Valid) →
    noKids (asAddPieces attr name ps as offs).1 = noKids as ++ ps.map (pieceEntry attr name attr.continued) ∧
      (asAddPieces attr name ps as offs).2 =
        if ps = [] then offs else some ((offs.map Prod.fst).getD as.length, as.length + ps.length - 1) := by
  induction ps with
  | nil => exact fun as offs _ => ⟨(List.append_nil _).symm, rfl⟩
  | cons p ps ih =>
      intro as offs hps
      obtain ⟨hle, hlt⟩ := hps p List.mem_cons_self
      have hadd := noKids_asAdd as p.start p.stop _ name (some p.owner) hattr
      have hoff := asAdd_off as p.start p.stop name (some p.owner) hattr
      have hlen : (asAdd as p.start p.stop attr name (some p.owner)).1.length = as.length + 1 := by
        rw [← noKids_length, hadd, List.length_append, noKids_length, List.length_singleton]
      obtain ⟨h1, h2⟩ := ih (asAdd as p.start p.stop attr name (some p.owner)).1
        (some ((offs.map Prod.fst).getD as.length, as.length)) fun q hq => hps q (List.mem_cons_of_mem _ hq)
      simp only [asAddPieces, hle, ↓reduceIte, hoff]
      rw [h1, h2, hadd, hlen, wrap32_of_lt (by omega), wrap32_of_lt hlt, List.append_assoc]
      refine ⟨rfl, ?_⟩
      rw [if_neg (List.cons_ne_nil p ps), List.length_cons]
      by_cases hnil : ps = []
      · rw [if_pos hnil, hnil]
        rfl
      · rw [if_neg hnil, Option.map_some, Option.getD_some]
        congr 2
        omega

theorem noKids_modify (as : Asinfo) (i : Nat) :
    noKids (as.modify i fun e => { e with attr := { e.attr with continued := false } }) =
      (noKids as).modify i fun e => { e with attr := { e.attr with continued := false } } := by
  refine List.ext_getElem? fun j => ?_
  rw [noKids_getElem?, List.getElem?_modify, List.getElem?_modify, noKids_getElem?]
  cases as[j]? with
  | none => rfl
  | some e => by_cases h : i = j <;> simp [h]

theorem overlayEntries_cons (attr : AsAttr) (name : String) (base : Nat) (p : AsRange) (ps : List AsRange) :
    overlayEntries attr name base (p :: ps) =
      ⟨p.start, p.stop, some base, name, { access := attr.access, continued := attr.continued }⟩ ::
        overlayEntries attr name (base + 1) ps := by
  unfold overlayEntries
  rw [List.mapIdx_cons, Nat.add_zero]
  congr 2
  funext i p
  rw [Nat.add_right_comm, Nat.add_assoc]

theorem pieceEntries_cons (attr : AsAttr) (name : String) (p : AsRange) (ps : List AsRange) :
    pieceEntries attr name (p :: ps) = pieceEntry attr name (decide (ps ≠ [])) p :: pieceEntries attr name ps := by
  unfold pieceEntries
  rw [List.mapIdx_cons]
  congr 1
  · congr 1
    cases ps <;> simp
  · congr 1
    funext i q
    simp

/-- 重ねる繰り返しは、`off` からの断片のそれぞれに一つずつ項目を加える。 -/
theorem asOverlay_noKids (attr : AsAttr) (name : String) (ps : List AsRange) :
    ∀ (fuel off : Nat) (as pre post : Asinfo), (∀ p ∈ ps, p.Valid) → ps ≠ [] → ps.length ≤ fuel → pre.length = off →
      noKids as = pre ++ (pieceEntries attr name ps ++ post) →
      noKids (asOverlay attr name fuel off as) = noKids as ++ overlayEntries attr name off ps := by
  induction ps with
  | nil => exact fun _ _ _ _ _ _ h => absurd rfl h
  | cons p ps ih =>
      intro fuel off as pre post hps _ hfuel hoff has
      obtain ⟨hle, hlt⟩ := hps p List.mem_cons_self
      cases fuel with
      | zero => exact absurd hfuel (Nat.not_succ_le_zero _)
      | succ fuel =>
          have hget := noKids_getElem? as off
          rw [has, List.getElem?_append_right hoff.le, hoff, Nat.sub_self, pieceEntries_cons] at hget
          obtain ⟨e, he, heq⟩ := Option.map_eq_some_iff.mp hget.symm
          simp only [pieceEntry, AsinfoEntry.mk.injEq, AsAttr.mk.injEq] at heq
          obtain ⟨hstart, hstop, -, -, -, -, hcont, -⟩ := heq
          have hadd := noKids_asAdd as e.start e.stop { attr with overlayIo := false } name (some off) rfl
          rw [hstart, hstop, wrap32_of_lt (by omega), wrap32_of_lt hlt] at hadd
          simp only [asOverlay, he, hcont]
          rw [hstart, hstop, overlayEntries_cons]
          by_cases hnil : ps = []
          · simp only [hnil, ne_eq, not_true_eq_false, decide_false, Bool.false_eq_true, if_false]
            exact hadd
          · simp only [hnil, ne_eq, not_false_eq_true, decide_true, if_true]
            rw [ih fuel (off + 1) _ (pre ++ [pieceEntry attr name true p])
              (post ++ [⟨p.start, p.stop, some off, name, { access := attr.access, continued := attr.continued }⟩])
              (fun q hq => hps q (List.mem_cons_of_mem _ hq)) hnil (by rw [List.length_cons] at hfuel; omega)
              (by rw [List.length_append, hoff, List.length_singleton]) ?_, hadd, List.append_assoc]
            · rfl
            · rw [hadd, has, pieceEntries_cons, decide_eq_true hnil]
              simp only [List.append_assoc, List.cons_append, List.nil_append]

theorem modify_concat {α : Type*} (l : List α) (a : α) (f : α → α) : (l ++ [a]).modify l.length f = l ++ [f a] := by
  induction l with
  | nil => rfl
  | cons b l ih => rw [List.cons_append, List.length_cons, List.modify_succ_cons, ih, List.cons_append]

/-- `as_add_containing()` が加える項目。 -/
theorem asAddContaining_entries {as : Asinfo} {start stop : Nat} (attr : AsAttr) (name : String) {container : String}
    (hps : ∀ p ∈ asPieces as start stop container, p.Valid) :
    noKids (asAddContaining as start stop attr name container).1 =
        noKids as ++ pieceEntries attr name (asPieces as start stop container) ++
          (if attr.overlayIo then overlayEntries attr name as.length (asPieces as start stop container) else []) ∧
      (asAddContaining as start stop attr name container).2 =
        if asPieces as start stop container = [] then none else some as.length := by
  have hadd := asAddPieces_noKids { attr with overlayIo := false, continued := true } rfl name
    (asPieces as start stop container) as none hps
  simp only [asAddContaining]
  generalize asPieces as start stop container = ps at hps hadd ⊢
  generalize asAddPieces _ name ps as none = res at hadd ⊢
  obtain ⟨as₁, offs⟩ := res
  obtain ⟨h1, h2⟩ := hadd
  dsimp only at h1 h2
  by_cases hnil : ps = []
  · rw [if_pos hnil] at h2
    subst h2
    rw [if_pos hnil]
    refine ⟨?_, rfl⟩
    subst hnil
    change noKids as₁ = _
    rw [h1]
    cases attr.overlayIo <;> exact (List.append_nil _).symm
  · rw [if_neg hnil, Option.map_none, Option.getD_none] at h2
    subst h2
    rw [if_neg hnil]
    refine ⟨?_, rfl⟩
    -- 最後に加えた断片の `AS_ATTR_CONTINUED` を消す。
    have hmod : noKids (as₁.modify (as.length + ps.length - 1)
        fun e => { e with attr := { e.attr with continued := false } }) = noKids as ++ pieceEntries attr name ps := by
      obtain ⟨init, last, hsplit⟩ := (List.eq_nil_or_concat ps).resolve_left hnil
      rw [List.concat_eq_append] at hsplit
      rw [noKids_modify, h1, hsplit, pieceEntries_concat, List.map_append, List.map_singleton, ← List.append_assoc,
        ← List.append_assoc, List.length_append, List.length_singleton]
      have := modify_concat (noKids as ++ init.map (pieceEntry { attr with overlayIo := false, continued := true } name true))
        (pieceEntry { attr with overlayIo := false, continued := true } name true last)
        fun e => { e with attr := { e.attr with continued := false } }
      rw [List.length_append, noKids_length, List.length_map] at this
      exact this
    cases hover : attr.overlayIo with
    | false =>
        simp only [Bool.false_eq_true, if_false, List.append_nil]
        exact hmod
    | true =>
        simp only [if_true]
        rw [asOverlay_noKids attr name ps ps.length as.length _ (noKids as) [] hps hnil le_rfl (noKids_length as)
          (by rw [hmod, List.append_nil]), hmod]

/-! ## 約束 -/

/-- `as_add_containing()` が返す表と位置は、範囲のうち入れ物に含まれる部分を、入れ物ごとの断片 `ps` に分けたものである。 -/
structure Splits (as : Asinfo) (start stop : Nat) (attr : AsAttr) (name container : String) (ps : List AsRange)
    (res : Asinfo × Option Nat) : Prop where
  apart : Apart (ps.map AsRange.span)
  cover : covered (ps.map AsRange.span) =
    {x | start ≤ x ∧ x ≤ stop ∧ ∃ i e, IsContainer as container i e ∧ e.start ≤ x ∧ x ≤ e.stop}
  owned : ∀ p ∈ ps, p.Valid ∧ ∃ o, Innermost as container p o
  entries : noKids res.1 = noKids as ++ pieceEntries attr name ps ++
    (if attr.overlayIo then overlayEntries attr name as.length ps else [])
  off : res.2 = if ps = [] then none else some as.length
  nothing : ps = [] ↔ ∀ i e, IsContainer as container i e → stop < e.start ∨ e.stop < start

/-- 入れ物が入れ子に並ぶ表で、`as_add_containing()` は範囲を入れ物ごとに分ける。 -/
theorem as_add_containing_splits {as : Asinfo} {start stop : Nat} (attr : AsAttr) (name : String) {container : String}
    (h : Laminar as container) (hle : start ≤ stop) (hstop : stop < 2 ^ 32) :
    ∃ ps, Splits as start stop attr name container ps (asAddContaining as start stop attr name container) := by
  obtain ⟨hvalid, hapart, hcover⟩ := asPieces_spec h hle hstop
  obtain ⟨hentries, hoff⟩ := asAddContaining_entries attr name fun p hp => (hvalid p hp).1
  refine ⟨asPieces as start stop container, hapart, hcover,
    fun p hp => ⟨(hvalid p hp).1, asPieces_innermost h hle hstop p hp⟩, hentries, hoff, fun hnil i e hc => ?_, fun hno => ?_⟩
  · rw [hnil] at hcover
    by_contra hcon
    have hv := h.valid i e hc
    have hx : max start e.start ∈ (∅ : Set Nat) := by
      rw [← covered_nil, ← List.map_nil (f := AsRange.span), hcover]
      exact ⟨by omega, by omega, i, e, hc, by omega, by omega⟩
    exact hx
  · refine List.eq_nil_iff_forall_not_mem.mpr fun p hp => ?_
    obtain ⟨o, ho⟩ := asPieces_innermost h hle hstop p hp
    have hp1 := (hvalid p hp).1.1
    have hx : p.start ∈ covered ((asPieces as start stop container).map AsRange.span) :=
      mem_covered.mpr ⟨p.span, List.mem_map_of_mem hp, le_rfl, Nat.lt_succ_of_le hp1⟩
    rw [hcover] at hx
    obtain ⟨h1, h2, i, e, hc, h3, h4⟩ := hx
    have := hno i e hc
    omega

/-! ## 二つの入れ物 -/

/-- `"memory"` の中に `"ram"` がある表。 -/
def ramInMemory : Asinfo := [⟨0, 0xffffffff, none, "memory", {}⟩, ⟨0x10000000, 0x1fffffff, some 0, "ram", {}⟩]

theorem ramInMemory_laminar : Laminar ramInMemory "memory" := by
  have hcases : ∀ i e, IsContainer ramInMemory "memory" i e →
      (i = 0 ∧ e = ⟨0, 0xffffffff, none, "memory", {}⟩) ∨ (i = 1 ∧ e = ⟨0x10000000, 0x1fffffff, some 0, "ram", {}⟩) := by
    intro i e h
    have he := h.1
    rcases i with _ | _ | i
    · exact .inl ⟨rfl, (Option.some.inj he).symm⟩
    · exact .inr ⟨rfl, (Option.some.inj he).symm⟩
    · cases he
  constructor
  · intro i e h
    rcases hcases i e h with ⟨_, rfl⟩ | ⟨_, rfl⟩ <;> decide
  · intro i j a b hij ha hb
    rcases hcases i a ha with ⟨rfl, rfl⟩ | ⟨rfl, rfl⟩ <;> rcases hcases j b hb with ⟨rfl, rfl⟩ | ⟨rfl, rfl⟩
    · exact absurd hij (lt_irrefl 0)
    · exact .inl (by decide)
    · exact absurd hij (by decide)
    · exact absurd hij (lt_irrefl 1)

theorem as_add_containing_splits_ram :
    ∃ ps, Splits ramInMemory 0x0f000000 0x20ffffff .ram "boot" "memory" ps
      (asAddContaining ramInMemory 0x0f000000 0x20ffffff .ram "boot" "memory") :=
  as_add_containing_splits .ram "boot" ramInMemory_laminar (by decide) (by decide)

/-- `AS_OVERLAY_IO` があると、加えた項目どうしが重なる。 -/
theorem as_add_containing_overlay : Laminar ramInMemory "memory" ∧ ¬ Apart
    (((asAddContaining ramInMemory 0x08000000 0x0800ffff { overlayIo := true } "boot" "memory").1.drop 2).map
      AsinfoEntry.span) := by
  have h : ((asAddContaining ramInMemory 0x08000000 0x0800ffff { overlayIo := true } "boot" "memory").1.drop 2).map
      (fun e => (e.start, e.stop)) = [(0x08000000, 0x0800ffff), (0x08000000, 0x0800ffff)] := by decide
  have hspan : ∀ l : Asinfo, l.map AsinfoEntry.span = (l.map fun e => (e.start, e.stop)).map fun x => ⟨x.1, x.2 + 1⟩ := fun l => by
    rw [List.map_map]
    rfl
  refine ⟨ramInMemory_laminar, fun hapart => ?_⟩
  rw [hspan, h] at hapart
  exact (List.pairwise_cons.mp hapart).1 _ List.mem_cons_self ⟨0x08000000, ⟨le_rfl, by decide⟩, le_rfl, by decide⟩

end Imx6Bsp.Startup
