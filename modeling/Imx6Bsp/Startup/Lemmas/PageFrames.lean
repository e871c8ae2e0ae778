import Imx6Bsp.Startup.Lemmas.MmuRuns

/-!
# ページの項目

セクションのない表で、組の表とページの項目を関数として読む。組についての周が変える項目を示す。
-/

namespace Imx6Bsp.Startup

open Imx6Bsp.Lib

/-! ## 組の表と項目 -/

/-- 組 `g` の表の番地。 -/
def tableOf (b : MmuBase) (mem : WordMem) (cpu g : Nat) : Option Nat :=
  if mem (b.l1Word cpu (g * 4)) % 4 = 1 then some (bic (mem (b.l1Word cpu (g * 4))) pgMask) else none

/-- 番号 `p` のページの項目。表がなければ 0 とする。 -/
def pteWord (b : MmuBase) (mem : WordMem) (cpu p : Nat) : Nat :=
  match tableOf b mem cpu (p / 1024) with
  | some T => mem (T + 4 * (p % 1024))
  | none => 0

/-- 項目 `w` による、変位 `off` の番地の変換。 -/
def pteWalk (w off : Nat) : Option Nat := if w % 4 < 2 then none else some (bic w pgMask + off)

/-- 組 `g` は、どれかの CPU のページディレクトリを写す窓である。 -/
def PdWindow (b : MmuBase) (mem : WordMem) (g : Nat) : Prop := ∃ c < b.numCpu, tableOf b mem c g = some (b.l2Table c)

instance (b : MmuBase) (mem : WordMem) (g : Nat) : Decidable (PdWindow b mem g) :=
  inferInstanceAs (Decidable (∃ c < b.numCpu, _))

/-! ## 表だけの状態 -/

/-- 組はどれも空か表であり、これから使うページはどの表でもなく、取ったページは一つの組だけの表である。 -/
structure Mmu.Plain (k : ArmvPte) (b : MmuBase) (s : Mmu) : Prop where
  ok : s.Ok k b
  noSections : ∀ g < 1024, NoSections b s.mem g
  nodup : s.pages.Nodup
  fresh : ∀ c < b.numCpu, ∀ g < 1024, ∀ T, tableOf b s.mem c g = some T → T ∉ s.pages
  owner : ∀ c < b.numCpu, ∀ g < 1024, ∀ c' < b.numCpu, ∀ g' < 1024, ∀ T, b.PageOk T →
    tableOf b s.mem c g = some T → tableOf b s.mem c' g' = some T → g = g'

section

variable {k : ArmvPte} {b : MmuBase} {s s' : Mmu} {mem mem' : WordMem} {cpu c g p T : Nat}

theorem tableOf_table (hk : k.Ok) (h : TableGroup k b mem cpu g T) (hT : 2 ^ 12 ∣ T ∧ T + 2 ^ 12 ≤ 2 ^ 32) :
    tableOf b mem cpu g = some T := by
  obtain ⟨hone, hbase⟩ := h.head hk hT
  rw [tableOf, if_pos hone, hbase]

theorem tableOf_open (h : OpenGroup b mem cpu g) : tableOf b mem cpu g = none := by
  have hhead := h 0 (by decide)
  rw [Nat.add_zero] at hhead
  exact if_neg (by omega)

/-- 組の形を表の番地で言い換える。 -/
theorem Mmu.Ok.tableOf (hk : k.Ok) (hb : b.Ok) (h : s.Ok k b) (hc : c < b.numCpu) (hg : g < 1024)
    (hT : tableOf b s.mem c g = some T) : b.IsTable c T ∧ TableGroup k b s.mem c g T := by
  rcases h.shaped c hc g hg with hopen | ⟨T', hT', hgroup⟩
  · rw [tableOf_open hopen] at hT
    cases hT
  · rw [tableOf_table hk hgroup (hT'.align hb hc)] at hT
    cases hT
    exact ⟨hT', hgroup⟩

theorem tableOf_congr (hb : b.Ok) (hc : c < b.numCpu) (hg : g < 1024) (hm : ∀ x, ¬ b.OffL1 x → mem' x = mem x) :
    tableOf b mem' c g = tableOf b mem c g := by
  unfold tableOf
  rw [hm _ (l1Word_inside hb hc (by omega))]

/-- 表を入れた後の組の表。 -/
theorem tableOf_mapAll (hk : k.Ok) (hb : b.Ok) {vaddr : Nat} (hv : vaddr < 2 ^ 32) (pt : Nat → Nat) {cpus : List Nat}
    (hcpus : ∀ c ∈ cpus, c < b.numCpu) (hpt : ∀ c ∈ cpus, b.IsTable c (pt c)) (hc : c < b.numCpu) (hg : g < 1024) (mem : WordMem) :
    tableOf b (cpus.foldl (fun mem cpu => mapPtblCpu k b mem cpu (pt cpu) vaddr) mem) c g =
      if c ∈ cpus ∧ g = vaddr / 2 ^ 22 then some (pt c) else tableOf b mem c g := by
  have hword := mapAll_l1 hb hv pt cpus hcpus hc (j := g * 4) (by omega) mem (k := k)
  by_cases hin : c ∈ cpus ∧ g = vaddr / 2 ^ 22
  · have hal := (hpt c hin.1).align hb hc
    have hpg := hk.l1Pgtable
    have hone : wrap32 (pt c + g * 4 % 4 * armL2Size) ||| k.l1Pgtable = pt c + k.l1Pgtable := by
      rw [armL2Size, wrap32_of_lt (by omega), or_low (k := 10) (by omega) hpg.1]
      omega
    rw [if_pos ⟨hin.1, by omega⟩, hone] at hword
    rw [if_pos hin, tableOf, hword, if_pos (by omega), bic_pgMask (by omega)]
    congr 1
    omega
  · rw [if_neg fun h => hin ⟨h.1, by omega⟩] at hword
    rw [if_neg hin, tableOf, hword, tableOf]

/-- MMU の変換は、ページの項目で決まる。 -/
theorem Mmu.Plain.hwWalk (hk : k.Ok) (hb : b.Ok) (h : s.Plain k b) (hc : c < b.numCpu) {v : Nat} (hv : v < 2 ^ 32) :
    hwWalk b s.mem c v = pteWalk (pteWord b s.mem c (v / 2 ^ 12)) (v % 2 ^ 12) := by
  have hgrp : v / 2 ^ 12 / 1024 = v / 2 ^ 22 := by omega
  rcases h.ok.shaped c hc (v / 2 ^ 22) (by omega) with hopen | ⟨T, hT, hgroup⟩
  · have hzero : s.mem (b.l1Table c + 4 * (v / 2 ^ 20)) = 0 := by
      have hword := hopen (v / 2 ^ 20 % 4) (by omega)
      have hno := h.noSections (v / 2 ^ 22) (by omega) c hc (v / 2 ^ 20 % 4) (by omega)
      rw [show v / 2 ^ 22 * 4 + v / 2 ^ 20 % 4 = v / 2 ^ 20 by omega] at hword hno
      exact hword.resolve_right hno
    rw [pteWord, hgrp, tableOf_open hopen, Startup.hwWalk]
    dsimp only
    rw [hzero]
    rfl
  · have hal := hT.align hb hc
    rw [hwWalk_table hk hgroup hal, pteWord, hgrp, tableOf_table hk hgroup hal]
    rfl

/-! ## 表だけの状態を保つ操作 -/

/-- L1 の表の外への書き込み。 -/
theorem Mmu.Plain.off (hb : b.Ok) (h : s.Plain k b) (hm : ∀ x, ¬ b.OffL1 x → s'.mem x = s.mem x) (hp : s'.pages.Sublist s.pages) :
    s'.Plain k b := by
  have hkeep := h.ok.off hb hm fun p hp' => hp.subset hp'
  refine ⟨hkeep.1, fun g hg => hkeep.noSections hg (h.noSections g hg), h.nodup.sublist hp, fun c hc g hg T hT => ?_,
    fun c hc g hg c' hc' g' hg' T hT h1 h2 => ?_⟩
  · rw [tableOf_congr hb hc hg hm] at hT
    exact fun hin => h.fresh c hc g hg T hT (hp.subset hin)
  · rw [tableOf_congr hb hc hg hm] at h1
    rw [tableOf_congr hb hc' hg' hm] at h2
    exact h.owner c hc g hg c' hc' g' hg' T hT h1 h2

/-- どの表でもない表を、組に入れる。 -/
theorem Mmu.Plain.install (hk : k.Ok) (hb : b.Ok) (h : s.Plain k b) {vaddr : Nat} (hv : vaddr < 2 ^ 32) (pt : Nat → Nat) {cpus : List Nat}
    (hcpus : ∀ c ∈ cpus, c < b.numCpu) (hpt : ∀ c ∈ cpus, b.IsTable c (pt c)) (hfresh : ∀ c ∈ cpus, pt c ∉ s.pages)
    (hnew : ∀ c ∈ cpus, b.PageOk (pt c) → ∀ c' < b.numCpu, ∀ g < 1024, tableOf b s.mem c' g ≠ some (pt c)) :
    Mmu.Plain k b { s with mem := cpus.foldl (fun mem cpu => mapPtblCpu k b mem cpu (pt cpu) vaddr) s.mem } := by
  have hkeep := h.ok.install hk hb hv pt hcpus hpt
  have htable : ∀ c < b.numCpu, ∀ g < 1024, _ := fun c hc g hg => tableOf_mapAll hk hb hv pt hcpus hpt hc hg s.mem
  refine ⟨hkeep.1, fun g hg => hkeep.noSections hg (h.noSections g hg), h.nodup, fun c hc g hg T hT => ?_,
    fun c hc g hg c' hc' g' hg' T hT h1 h2 => ?_⟩
  · rw [htable c hc g hg] at hT
    split at hT
    · rename_i hin
      cases hT
      exact hfresh c hin.1
    · exact h.fresh c hc g hg T hT
  · rw [htable c hc g hg] at h1
    rw [htable c' hc' g' hg'] at h2
    split at h1
    · rename_i hin
      cases h1
      split at h2
      · rename_i hin'
        rw [hin.2, hin'.2]
      · exact absurd h2 (hnew c hin.1 hT c' hc' g' hg')
    · split at h2
      · rename_i hin'
        cases h2
        exact absurd h1 (hnew c' hin'.1 hT c hc g hg)
      · exact h.owner c hc g hg c' hc' g' hg' T hT h1 h2

/-- 新しいページ `T` を表として入れ、表の中に書く。 -/
theorem Mmu.Plain.alloc (hk : k.Ok) (hb : b.Ok) (h : s.Plain k b) {vaddr T : Nat} (hv : vaddr < 2 ^ 32) {rest : List Nat}
    (hpages : s.pages = T :: rest) (cpus : List Nat) (hcpus : ∀ c ∈ cpus, c < b.numCpu) {mem : WordMem}
    (hm : ∀ x, ¬ b.OffL1 x → mem x = cpus.foldl (fun mem cpu => mapPtblCpu k b mem cpu T vaddr) (zeroPage s.mem T) x) :
    Mmu.Plain k b { s with mem, pages := rest } := by
  have hmem : T ∈ s.pages := by
    rw [hpages]
    exact List.mem_cons_self
  have hT := h.ok.pages T hmem
  have hzero : ∀ x, ¬ b.OffL1 x → zeroPage s.mem T x = s.mem x := fun x hx => if_neg fun hin => hx (hT.offL1 x hin.1 hin.2)
  have hplain : Mmu.Plain k b { s with mem := zeroPage s.mem T, pages := rest } := by
    refine h.off hb hzero ?_
    rw [hpages]
    exact List.sublist_cons_self _ _
  have hinst := hplain.install hk hb hv (fun _ => T) hcpus (fun _ _ => .inl hT) (fun _ _ hin => ?_) fun _ _ _ c' hc' g hg htab => ?_
  · exact hinst.off hb hm (List.Sublist.refl _)
  · have hnodup := h.nodup
    rw [hpages, List.nodup_cons] at hnodup
    exact hnodup.1 hin
  · rw [tableOf_congr hb hc' hg hzero] at htab
    exact h.fresh c' hc' g hg T htab hmem

/-! ## 組についての周が変える項目 -/

theorem MmuBase.PageOk.ne_l2Table (hb : b.Ok) (hT : b.PageOk T) (hc : c < b.numCpu) : T ≠ b.l2Table c := by
  rintro rfl
  exact (offL1_l2Table hb hc le_rfl (by omega)).2 (hT.offL2 _ le_rfl (by omega))

/-- 窓でない組の表は、取ったページである。 -/
theorem Mmu.Plain.pageOk (hk : k.Ok) (hb : b.Ok) (h : s.Plain k b) (hc : c < b.numCpu) (hg : g < 1024) (hw : ¬ PdWindow b s.mem g)
    (hT : Startup.tableOf b s.mem c g = some T) : b.PageOk T := by
  rcases (h.ok.tableOf hk hb hc hg hT).1 with hpage | rfl
  · exact hpage
  · exact absurd ⟨c, hc, hT⟩ hw

/-- 番号 `p₁` から `n` ページを `pa` から続くページに写す周の結果。窓でない組だけを述べる。表がなければ、組の項目はすべての CPU で
新しい表のものになる。 -/
structure GroupStep (k : ArmvPte) (b : MmuBase) (s s' : Mmu) (cpu p₁ pa n : Nat) : Prop where
  plain : s'.Plain k b
  nextAddr : s'.nextAddr = s.nextAddr
  lacking : ∀ c < b.numCpu, ∀ g < 1024, tableOf b s'.mem c g = none → tableOf b s.mem c g = none
  window : ∀ g < 1024, PdWindow b s'.mem g → PdWindow b s.mem g
  maps : ∀ p, p₁ ≤ p → p < p₁ + n → pteWord b s'.mem cpu p = wrap32 (pa + (p - p₁) * pageSize)
  keeps : ∀ c < b.numCpu, ∀ p, p₁ ≤ p → p < p₁ + n →
    pteWord b s'.mem c p = pteWord b s.mem c p ∨ pteWord b s'.mem c p = wrap32 (pa + (p - p₁) * pageSize)
  frame : ∀ c < b.numCpu, ∀ p < 2 ^ 20, ¬ PdWindow b s.mem (p / 1024) → ¬ (p₁ ≤ p ∧ p < p₁ + n) →
    pteWord b s'.mem c p = pteWord b s.mem c p ∨
      (p / 1024 = p₁ / 1024 ∧ tableOf b s.mem cpu (p₁ / 1024) = none ∧ pteWord b s'.mem c p = 0)

/-- 元からある表に書く周。 -/
theorem Mmu.Plain.groupFill (hk : k.Ok) (hb : b.Ok) (h : s.Plain k b) (hcpu : cpu < b.numCpu) {p₁ pa n : Nat} (hp₁ : p₁ < 2 ^ 20)
    (hn : p₁ % 1024 + n ≤ 1024) (hw : ¬ PdWindow b s.mem (p₁ / 1024)) (hT : Startup.tableOf b s.mem cpu (p₁ / 1024) = some T) :
    GroupStep k b s { s with mem := fillWords s.mem (T + 4 * (p₁ % 1024)) pa n } cpu p₁ pa n := by
  have hpage := h.pageOk hk hb hcpu (by omega) hw hT
  have hfill : ∀ x, ¬ b.OffL1 x → fillWords s.mem (T + 4 * (p₁ % 1024)) pa n x = s.mem x :=
    fun _ => MmuBase.IsTable.fill_offL1 hb hcpu (.inl hpage) hn _ _
  have htable : ∀ c < b.numCpu, ∀ g < 1024, _ := fun c hc g hg => tableOf_congr hb hc hg hfill
  have hin : ∀ p, p₁ ≤ p → p < p₁ + n → fillWords s.mem (T + 4 * (p₁ % 1024)) pa n (T + 4 * (p % 1024)) =
      wrap32 (pa + (p - p₁) * pageSize) := by
    intro p h1 h2
    rw [show T + 4 * (p % 1024) = T + 4 * (p₁ % 1024) + 4 * (p - p₁) by omega, fillWords_in (by omega)]
  refine ⟨h.off hb hfill (List.Sublist.refl _), rfl, fun c hc g hg hnone => ?_, fun g hg hwin => ?_, fun p h1 h2 => ?_,
    fun c hc p h1 h2 => ?_, fun c hc p hp hpw hout => .inl ?_⟩
  · rwa [htable c hc g hg] at hnone
  · obtain ⟨c, hc, hwin⟩ := hwin
    rw [htable c hc g hg] at hwin
    exact ⟨c, hc, hwin⟩
  · rw [pteWord, htable cpu hcpu _ (by omega), show p / 1024 = p₁ / 1024 by omega, hT]
    exact hin p h1 h2
  · rw [pteWord, pteWord, htable c hc _ (by omega), show p / 1024 = p₁ / 1024 by omega]
    cases hT' : tableOf b s.mem c (p₁ / 1024) with
    | none => exact .inl rfl
    | some T' =>
        by_cases heq : T' = T
        · subst heq
          exact .inr (hin p h1 h2)
        · have hpage' := h.pageOk hk hb hc (by omega) hw hT'
          have hal := hpage.align
          have hal' := hpage'.align
          exact .inl (fillWords_out (by omega))
  · rw [pteWord, pteWord, htable c hc _ (by omega)]
    cases hT' : tableOf b s.mem c (p / 1024) with
    | none => rfl
    | some T' =>
        have hpage' := h.pageOk hk hb hc (by omega) hpw hT'
        refine fillWords_out ?_
        by_cases heq : T' = T
        · subst heq
          have hg := h.owner c hc _ (by omega) cpu hcpu _ (by omega) T' hpage hT' hT
          omega
        · have hal := hpage.align
          have hal' := hpage'.align
          omega

/-- 新しい表を入れて書く周。 -/
theorem Mmu.Plain.groupAlloc (hk : k.Ok) (hb : b.Ok) (h : s.Plain k b) (hcpu : cpu < b.numCpu) {p₁ pa n va : Nat} (hva : va < 2 ^ 32)
    (hp₁ : p₁ = va / 2 ^ 12) (hn : p₁ % 1024 + n ≤ 1024) (hnone : Startup.tableOf b s.mem cpu (p₁ / 1024) = none) {rest : List Nat}
    (hpages : s.pages = T :: rest) :
    GroupStep k b s { s with mem := fillWords (mapPtbl k b (zeroPage s.mem T) T va) (T + 4 * (p₁ % 1024)) pa n, pages := rest }
      cpu p₁ pa n := by
  have hmem : T ∈ s.pages := by
    rw [hpages]
    exact List.mem_cons_self
  have hpage := h.ok.pages T hmem
  have hcpus : ∀ c ∈ List.range b.numCpu, c < b.numCpu := fun c => List.mem_range.mp
  have hfill : ∀ x, ¬ b.OffL1 x → fillWords (mapPtbl k b (zeroPage s.mem T) T va) (T + 4 * (p₁ % 1024)) pa n x =
      mapPtbl k b (zeroPage s.mem T) T va x := fun _ => MmuBase.IsTable.fill_offL1 hb hcpu (.inl hpage) hn _ _
  have hzero : ∀ x, ¬ b.OffL1 x → zeroPage s.mem T x = s.mem x := fun x hx => if_neg fun hin => hx (hpage.offL1 x hin.1 hin.2)
  have htable : ∀ c < b.numCpu, ∀ g < 1024,
      tableOf b (fillWords (mapPtbl k b (zeroPage s.mem T) T va) (T + 4 * (p₁ % 1024)) pa n) c g =
        if g = p₁ / 1024 then some T else tableOf b s.mem c g := by
    intro c hc g hg
    have hgrp : va / 2 ^ 22 = p₁ / 1024 := by omega
    have hmap := tableOf_mapAll hk hb hva (fun _ => T) hcpus (fun _ _ => .inl hpage) hc hg (zeroPage s.mem T)
    rw [tableOf_congr hb hc hg hfill, mapPtbl, hmap, tableOf_congr hb hc hg hzero, hgrp]
    simp only [List.mem_range, hc, true_and]
  have hin : ∀ p, p₁ ≤ p → p < p₁ + n →
      fillWords (mapPtbl k b (zeroPage s.mem T) T va) (T + 4 * (p₁ % 1024)) pa n (T + 4 * (p % 1024)) =
        wrap32 (pa + (p - p₁) * pageSize) := by
    intro p h1 h2
    rw [show T + 4 * (p % 1024) = T + 4 * (p₁ % 1024) + 4 * (p - p₁) by omega, fillWords_in (by omega)]
  -- 表のページの語は、L1 の表とページディレクトリの外にある。
  have hword : ∀ {T' i}, b.PageOk T' → i < 1024 → mapPtbl k b (zeroPage s.mem T) T va (T' + 4 * i) = zeroPage s.mem T (T' + 4 * i) :=
    fun hT' hi => mapAll_off hb hva (fun _ => T) _ hcpus (hT'.offL1 _ (by omega) (by omega)) (hT'.offL2 _ (by omega) (by omega)) _
  have hmaps : ∀ c < b.numCpu, ∀ p, p₁ ≤ p → p < p₁ + n →
      pteWord b (fillWords (mapPtbl k b (zeroPage s.mem T) T va) (T + 4 * (p₁ % 1024)) pa n) c p = wrap32 (pa + (p - p₁) * pageSize) := by
    intro c hc p h1 h2
    rw [pteWord, htable c hc _ (by omega), if_pos (by omega)]
    exact hin p h1 h2
  refine ⟨h.alloc hk hb hva hpages (List.range b.numCpu) hcpus hfill, rfl, fun c hc g hg hnone' => ?_, fun g hg hwin => ?_,
    hmaps cpu hcpu, fun c hc p h1 h2 => .inr (hmaps c hc p h1 h2), fun c hc p hp hpw hout => ?_⟩
  · rw [htable c hc g hg] at hnone'
    split at hnone'
    · cases hnone'
    · exact hnone'
  · obtain ⟨c, hc, hwin⟩ := hwin
    rw [htable c hc g hg] at hwin
    split at hwin
    · exact absurd (Option.some.inj hwin) (hpage.ne_l2Table hb hc)
    · exact ⟨c, hc, hwin⟩
  · rw [pteWord, htable c hc _ (by omega)]
    by_cases hg : p / 1024 = p₁ / 1024
    · refine .inr ⟨hg, hnone, ?_⟩
      rw [if_pos hg]
      dsimp only
      rw [fillWords_out (by omega), hword hpage (by omega)]
      exact if_pos ⟨by omega, by unfold pageSize; omega⟩
    · rw [if_neg hg, pteWord]
      cases hT' : tableOf b s.mem c (p / 1024) with
      | none => exact .inl rfl
      | some T' =>
          have hpage' := h.pageOk hk hb hc (by omega) hpw hT'
          have hne : T' ≠ T := fun heq => h.fresh c hc _ (by omega) T' hT' (by rwa [heq])
          have hal := hpage.align
          have hal' := hpage'.align
          refine .inl ?_
          dsimp only
          rw [fillWords_out (by omega), hword hpage' (by omega)]
          exact if_neg (by unfold pageSize; omega)

/-- 組についての周。 -/
theorem Mmu.Plain.group (hk : k.Ok) (hb : b.Ok) (h : s.Plain k b) (hcpu : cpu < b.numCpu) {va pa m : Nat} (hva : va < 2 ^ 32)
    (hw : ¬ PdWindow b s.mem (va / 2 ^ 22)) (hok : armMapGroup k b s (b.l1Word cpu (va / 2 ^ 22 * 4)) va pa m = .ok s') :
    GroupStep k b s s' cpu (va / 2 ^ 12) pa (min (1024 - va / 2 ^ 12 % 1024) m) := by
  have hgrp : va / 2 ^ 22 = va / 2 ^ 12 / 1024 := by omega
  have hns := h.noSections (va / 2 ^ 22) (by omega) cpu hcpu 0 (by decide)
  rcases armMapGroup_ok hk hb h.ok.shaped h.ok.pages hcpu hva hns hok with ⟨T, hT, hgroup, rfl⟩ | ⟨T, rest, hT, hzero, hpages, rfl⟩
  · have htable := tableOf_table hk hgroup (hT.align hb hcpu)
    rw [hgrp] at hw htable
    exact h.groupFill hk hb hcpu (by omega) (by omega) hw htable
  · have hnone : tableOf b s.mem cpu (va / 2 ^ 22) = none := by
      rw [tableOf, hzero]
      rfl
    rw [hgrp] at hnone
    exact h.groupAlloc hk hb hcpu hva rfl (by omega) hnone hpages

end

end Imx6Bsp.Startup
