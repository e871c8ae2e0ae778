import Imx6Bsp.Startup.Lemmas.PageFrames

/-!
# `arm_map()` が変える変換

空の L1 の表から `arm_map()`、`arm_map_cpu()`、`arm_pdmap()` だけを呼んだ状態で、`arm_map()` は範囲のページをすべての CPU で写す。新しい表を
入れると、ページディレクトリの窓の変換も変わる。
-/

namespace Imx6Bsp.Startup

open Imx6Bsp.Lib

/-! ## 呼び出しの前提 -/

/-- セクションを使わない呼び出しで、番地は 32 ビットであり、範囲は番地の上限を超えない。 -/
def Mmu.InRange (b : MmuBase) (s : Mmu) : MmuCall → Prop
  | .scmap _ _ _ => False
  | .map vaddr paddr size _ => (armMapRange s vaddr paddr size).1 < 2 ^ 32 ∧
      (armMapRange s vaddr paddr size).1 / 2 ^ 12 * 2 ^ 12 + (armMapRange s vaddr paddr size).2 ≤ 2 ^ 32
  | .mapCpu cpu vaddr _ _ => cpu < b.numCpu ∧ vaddr < 2 ^ 32
  | .pdmap vaddr => vaddr < 2 ^ 32

/-- `arm_map()` が番地を割り当てても、`next_addr` は折り返さない。 -/
def Mmu.Assignable (s : Mmu) : MmuCall → Prop
  | .map vaddr paddr size _ => vaddr = 2 ^ 32 - 1 → s.nextAddr + (armMapRange s vaddr paddr size).2 < 2 ^ 32
  | _ => True

instance Mmu.decidableInRange (b : MmuBase) (s : Mmu) : (c : MmuCall) → Decidable (s.InRange b c)
  | .scmap _ _ _ => inferInstanceAs (Decidable False)
  | .map _ _ _ _ => inferInstanceAs (Decidable (_ ∧ _))
  | .mapCpu _ _ _ _ => inferInstanceAs (Decidable (_ ∧ _))
  | .pdmap _ => inferInstanceAs (Decidable (_ < _))

instance Mmu.decidableAssignable (s : Mmu) : (c : MmuCall) → Decidable (s.Assignable c)
  | .scmap _ _ _ => inferInstanceAs (Decidable True)
  | .map _ _ _ _ => inferInstanceAs (Decidable (_ → _))
  | .mapCpu _ _ _ _ => inferInstanceAs (Decidable True)
  | .pdmap _ => inferInstanceAs (Decidable True)

/-- 番地 `v` は、`va` から `sz` バイトのページの中にある。 -/
def InPages (va sz v : Nat) : Prop := va / 2 ^ 12 * 2 ^ 12 ≤ v ∧ v < va / 2 ^ 12 * 2 ^ 12 + sz

instance (va sz v : Nat) : Decidable (InPages va sz v) := inferInstanceAs (Decidable (_ ∧ _))

section

variable {k : ArmvPte} {b : MmuBase} {s s' : Mmu}

/-! ## 実行の不変条件 -/

theorem Mmu.Plain.start {mem : WordMem} {pages : List Nat} (hzero : ∀ c < b.numCpu, ∀ j < 4096, mem (b.l1Word c j) = 0)
    (hpages : ∀ p ∈ pages, b.PageOk p) (hnodup : pages.Nodup) : (Mmu.start mem pages).Plain k b := by
  have hnone : ∀ c < b.numCpu, ∀ g < 1024, ∀ T, tableOf b mem c g ≠ some T := by
    intro c hc g hg T hT
    rw [tableOf, hzero c hc _ (by omega)] at hT
    cases hT
  refine ⟨.start hzero hpages, fun g hg c hc i hi hsec => ?_, hnodup, fun c hc g hg T hT => absurd hT (hnone c hc g hg T),
    fun c hc g hg _ _ _ _ T _ hT => absurd hT (hnone c hc g hg T)⟩
  change mem (b.l1Word c (g * 4 + i)) % 4 = 2 at hsec
  rw [hzero c hc _ (by omega)] at hsec
  cases hsec

/-- 組についての周は、窓の組でも、表だけの状態を保つ。 -/
theorem Mmu.Plain.groupKeeps (hk : k.Ok) (hb : b.Ok) (h : s.Plain k b) {cpu : Nat} (hcpu : cpu < b.numCpu) {va pa m : Nat}
    (hva : va < 2 ^ 32) (hok : armMapGroup k b s (b.l1Word cpu (va / 2 ^ 22 * 4)) va pa m = .ok s') : s'.Plain k b := by
  have hns := h.noSections (va / 2 ^ 22) (by omega) cpu hcpu 0 (by decide)
  rcases armMapGroup_ok hk hb h.ok.shaped h.ok.pages hcpu hva hns hok with ⟨T, hT, _, rfl⟩ | ⟨T, rest, hT, _, hpages, rfl⟩
  · exact h.off hb (fun _ => hT.fill_offL1 hb hcpu (by omega) _ _) (List.Sublist.refl _)
  · exact h.alloc hk hb hva hpages (List.range b.numCpu) (fun _ => List.mem_range.mp) fun _ =>
      MmuBase.IsTable.fill_offL1 hb hcpu (.inl hT) (by omega) _ _

theorem Mmu.Plain.mapCpu (hk : k.Ok) (hb : b.Ok) (h : s.Plain k b) {cpu : Nat} (hcpu : cpu < b.numCpu) {va paddr flags : Nat}
    (hva : va < 2 ^ 32) (hok : armMapCpu k b s cpu va paddr flags = .ok s') : s'.Plain k b := by
  have hns := h.noSections (va / 2 ^ 22) (by omega) cpu hcpu 0 (by decide)
  rcases armMapCpu_ok hk hb h.ok.shaped h.ok.pages hcpu hva hns hok with ⟨T, hT, _, rfl⟩ | ⟨T, rest, hT, _, hpages, rfl⟩
  · exact h.off hb (fun _ => hT.update_offL1 hb hcpu (by omega) _ _) (List.Sublist.refl _)
  · refine h.alloc hk hb hva hpages [cpu] (fun c hc => ?_) fun x hx => ?_
    · rwa [List.mem_singleton.mp hc]
    · rw [List.foldl_cons, List.foldl_nil]
      exact MmuBase.IsTable.update_offL1 hb hcpu (.inl hT) (by omega) _ _ hx

theorem Mmu.Plain.map (hk : k.Ok) (hb : b.Ok) (h : s.Plain k b) {vaddr paddr size flags r : Nat}
    (hin : s.InRange b (.map vaddr paddr size flags)) (hok : armMap k b s vaddr paddr size flags = .ok (s', r)) : s'.Plain k b := by
  by_cases hvirtual : b.isVirtual
  swap
  · rw [armMap, if_neg hvirtual] at hok
    cases hok
    exact h
  obtain ⟨va, m, hrange⟩ := armMapRange_pages s vaddr paddr size
  obtain ⟨hva, hend⟩ := hin
  rw [hrange] at hva hend
  refine (armMap_run hk (P := fun _ _ u => u.Plain k b) hrange hva hend (fun _ _ _ hP => hP) ?_ ?_ hvirtual hok).1
  · exact fun c hc t _ u u' hP hlt _ hgroup => hP.groupKeeps hk hb hc hlt hgroup
  · exact h.off hb (fun _ _ => rfl) (List.Sublist.refl _)

/-- どの呼び出しも、表だけの状態を保つ。 -/
theorem Mmu.Plain.step (hk : k.Ok) (hb : b.Ok) (h : s.Plain k b) {call : MmuCall} (hin : s.InRange b call)
    (hok : s.step k b call = .ok s') : s'.Plain k b := by
  cases call with
  | scmap vaddr paddr flags => exact hin.elim
  | map vaddr paddr size flags =>
      obtain ⟨⟨t, r⟩, hmap, rfl⟩ := Except.map_eq_ok.mp hok
      exact h.map hk hb hin hmap
  | mapCpu cpu vaddr paddr flags => exact h.mapCpu hk hb hin.1 hin.2 hok
  | pdmap vaddr =>
      cases hok
      refine h.install hk hb hin (fun c => b.l2Table c) (fun _ => List.mem_range.mp) (fun _ _ => .inr rfl) (fun c hc hmem => ?_)
        fun c hc hpage => ?_
      · exact (h.ok.pages _ hmem).ne_l2Table hb (List.mem_range.mp hc) rfl
      · exact absurd rfl (hpage.ne_l2Table hb (List.mem_range.mp hc))

/-! ## `arm_map()` の不変条件 -/

/-- `arm_map()` の途中の状態 `u`。CPU `c` より前のすべてのページと、CPU `c` の先頭の `t` ページを写した。 -/
structure MapProgress (k : ArmvPte) (b : MmuBase) (s u : Mmu) (p₁ pa m c t : Nat) : Prop where
  plain : u.Plain k b
  lacking : ∀ c < b.numCpu, ∀ g < 1024, tableOf b u.mem c g = none → tableOf b s.mem c g = none
  window : ∀ g < 1024, PdWindow b u.mem g → PdWindow b s.mem g
  done : ∀ c' < c, ∀ p, p₁ ≤ p → p < p₁ + m → pteWord b u.mem c' p = wrap32 (pa + (p - p₁) * pageSize)
  part : ∀ p, p₁ ≤ p → p < p₁ + t → pteWord b u.mem c p = wrap32 (pa + (p - p₁) * pageSize)
  frame : ∀ c < b.numCpu, ∀ p < 2 ^ 20, ¬ PdWindow b s.mem (p / 1024) → ¬ (p₁ ≤ p ∧ p < p₁ + m) →
    pteWord b u.mem c p = pteWord b s.mem c p ∨
      ((∃ q, p₁ ≤ q ∧ q < p₁ + m ∧ q / 1024 = p / 1024) ∧ (∃ c' < b.numCpu, tableOf b s.mem c' (p / 1024) = none) ∧
        pteWord b u.mem c p = 0)
  group : t = 0 ∨ t = m ∨ (p₁ + t) % 1024 = 0

theorem MapProgress.next {u : Mmu} {p₁ pa m c : Nat} (h : MapProgress k b s u p₁ pa m c m) : MapProgress k b s u p₁ pa m (c + 1) 0 := by
  refine ⟨h.plain, h.lacking, h.window, fun c' hc' p h1 h2 => ?_, fun p h1 h2 => absurd h2 (Nat.not_lt.mpr h1), h.frame, .inl rfl⟩
  rcases Nat.lt_succ_iff_lt_or_eq.mp hc' with hlt | rfl
  · exact h.done c' hlt p h1 h2
  · exact h.part p h1 h2

/-- 組についての周は、不変条件を保つ。 -/
theorem MapProgress.group_step {u u' : Mmu} {p₁ pa m c t : Nat} (h : MapProgress k b s u p₁ pa m c t) (hc : c < b.numCpu)
    (ht : t < m) (hend : p₁ + m ≤ 2 ^ 20) (hwin : ∀ p, p₁ ≤ p → p < p₁ + m → ¬ PdWindow b s.mem (p / 1024))
    (hs : GroupStep k b u u' c (p₁ + t) (wrap32 (pa + t * pageSize)) (min (1024 - (p₁ + t) % 1024) (m - t))) :
    MapProgress k b s u' p₁ pa m c (t + min (1024 - (p₁ + t) % 1024) (m - t)) := by
  have hgroup := h.group
  generalize hn : min (1024 - (p₁ + t) % 1024) (m - t) = n at hs
  have hval : ∀ p, p₁ + t ≤ p →
      wrap32 (wrap32 (pa + t * pageSize) + (p - (p₁ + t)) * pageSize) = wrap32 (pa + (p - p₁) * pageSize) := by
    intro p hp
    obtain ⟨d, rfl⟩ := Nat.exists_eq_add_of_le hp
    rw [show p₁ + t + d - (p₁ + t) = d by omega, show p₁ + t + d - p₁ = t + d by omega]
    unfold wrap32 pageSize
    omega
  -- 写し終えたページの項目は、書き直しても変わらない。
  have hkeep : ∀ c' < b.numCpu, ∀ p, p₁ ≤ p → p < p₁ + m → pteWord b u.mem c' p = wrap32 (pa + (p - p₁) * pageSize) →
      pteWord b u'.mem c' p = wrap32 (pa + (p - p₁) * pageSize) := by
    intro c' hc' p h1 h2 hold
    by_cases hin : p₁ + t ≤ p ∧ p < p₁ + t + n
    · rcases hs.keeps c' hc' p hin.1 hin.2 with heq | heq
      · rw [heq, hold]
      · rw [heq, hval p hin.1]
    · rcases hs.frame c' hc' p (by omega) (fun hw => hwin p h1 h2 (h.window _ (by omega) hw)) hin with heq | ⟨hg, _⟩
      · rw [heq, hold]
      · omega
  refine ⟨hs.plain, fun c' hc' g hg hnone => h.lacking c' hc' g hg (hs.lacking c' hc' g hg hnone),
    fun g hg hw => h.window g hg (hs.window g hg hw), fun c' hc' p h1 h2 => ?_, fun p h1 h2 => ?_, fun c' hc' p hp hw hout => ?_, ?_⟩
  · exact hkeep c' (by omega) p h1 h2 (h.done c' hc' p h1 h2)
  · by_cases hold : p < p₁ + t
    · exact hkeep c hc p h1 (by omega) (h.part p h1 hold)
    · rw [hs.maps p (by omega) (by omega), hval p (by omega)]
  · have hwu : ¬ PdWindow b u.mem (p / 1024) := fun hw' => hw (h.window _ (by omega) hw')
    rcases hs.frame c' hc' p hp hwu (by omega) with heq | ⟨hg, hnone, hzero⟩
    · rw [heq]
      exact h.frame c' hc' p hp hw hout
    · rw [← hg] at hnone
      exact .inr ⟨⟨p₁ + t, by omega, by omega, hg.symm⟩, ⟨c, hc, h.lacking c hc _ (by omega) hnone⟩, hzero⟩
  · omega

/-- `arm_map()` の後のページの項目。 -/
theorem Mmu.Plain.armMap (hk : k.Ok) (hb : b.Ok) (h : s.Plain k b) {vaddr paddr size flags va m r : Nat}
    (hrange : armMapRange s vaddr paddr size = (va, m * pageSize)) (hva : va < 2 ^ 32)
    (hend : va / 2 ^ 12 * 2 ^ 12 + m * pageSize ≤ 2 ^ 32) (hvirtual : b.isVirtual = true)
    (hwin : ∀ g < 1024, TouchesGroup va (m * pageSize) g → ¬ PdWindow b s.mem g)
    (hok : armMap k b s vaddr paddr size flags = .ok (s', r)) :
    MapProgress k b s s' (va / 2 ^ 12) (setProt k (bic paddr pgMask) flags) m b.numCpu 0 ∧ r = wrap32 (va + (paddr &&& pgMask)) := by
  unfold pageSize at hend
  refine armMap_run hk (P := fun c t u => MapProgress k b s u (va / 2 ^ 12) (setProt k (bic paddr pgMask) flags) m c t) hrange hva
    (by unfold pageSize; omega) (fun c hc u hP => hP.next) ?_ ?_ hvirtual hok
  · intro c hc t ht u u' hP hlt htouch hgroup
    have hg : (va + t * pageSize) / 2 ^ 22 < 1024 := by omega
    have hstep := hP.plain.group hk hb hc hlt (fun hw => hwin _ hg htouch (hP.window _ hg hw)) hgroup
    rw [show (va + t * pageSize) / 2 ^ 12 = va / 2 ^ 12 + t by unfold pageSize; omega] at hstep
    refine hP.group_step hc ht (by omega) (fun p h1 h2 => hwin _ (by omega) ⟨by omega, ?_⟩) hstep
    unfold pageSize
    omega
  · exact ⟨h.off hb (fun _ _ => rfl) (List.Sublist.refl _), fun _ _ _ _ hn => hn, fun _ _ hw => hw,
      fun _ hc => absurd hc (Nat.not_lt_zero _), fun p h1 h2 => absurd h2 (Nat.not_lt.mpr h1), fun _ _ _ _ _ _ => .inl rfl, .inl rfl⟩

/-! ## 割り当てる番地 -/

theorem armMapGroup_nextAddr {ptp va pa m : Nat} (hok : armMapGroup k b s ptp va pa m = .ok s') : s'.nextAddr = s.nextAddr := by
  obtain ⟨⟨s₁, pte⟩, htable, hok⟩ := Except.bind_eq_ok.mp hok
  cases hok
  unfold armMapTable at htable
  split at htable
  · obtain ⟨⟨s₂, q⟩, hcalloc, htable⟩ := Except.bind_eq_ok.mp htable
    cases htable
    obtain ⟨rest, _, rfl⟩ := callocPage_ok hcalloc
    rfl
  · cases htable
    rfl

theorem armMapCpu_nextAddr {cpu vaddr paddr flags : Nat} (hok : armMapCpu k b s cpu vaddr paddr flags = .ok s') :
    s'.nextAddr = s.nextAddr := by
  obtain ⟨⟨s₁, pte⟩, htable, hok⟩ := Except.bind_eq_ok.mp hok
  cases hok
  unfold armMapCpuTable at htable
  split at htable
  · obtain ⟨⟨s₂, q⟩, hcalloc, htable⟩ := Except.bind_eq_ok.mp htable
    cases htable
    obtain ⟨rest, _, rfl⟩ := callocPage_ok hcalloc
    rfl
  · cases htable
    rfl

/-- `arm_map()` は、番地を割り当てたときだけ `next_addr` を進める。 -/
theorem armMap_nextAddr (hk : k.Ok) {vaddr paddr size flags r : Nat} (hin : s.InRange b (.map vaddr paddr size flags))
    (hvirtual : b.isVirtual = true) (hok : armMap k b s vaddr paddr size flags = .ok (s', r)) :
    s'.nextAddr = if vaddr = 2 ^ 32 - 1 then wrap32 (s.nextAddr + (armMapRange s vaddr paddr size).2) else s.nextAddr := by
  obtain ⟨va, m, hrange⟩ := armMapRange_pages s vaddr paddr size
  obtain ⟨hva, hend⟩ := hin
  rw [hrange] at hva hend ⊢
  refine (armMap_run hk (P := fun _ _ u => u.nextAddr = if vaddr = 2 ^ 32 - 1 then wrap32 (s.nextAddr + m * pageSize) else s.nextAddr)
    hrange hva hend (fun _ _ _ hP => hP) ?_ rfl hvirtual hok).1
  exact fun c _ t _ u u' hP _ _ hgroup => (armMapGroup_nextAddr hgroup).trans hP

/-- 折り返さない限り、`next_addr` は減らない。 -/
theorem Mmu.step_nextAddr (hk : k.Ok) {call : MmuCall} (hin : s.InRange b call) (has : s.Assignable call)
    (hok : s.step k b call = .ok s') : s.nextAddr ≤ s'.nextAddr := by
  cases call with
  | scmap vaddr paddr flags => exact hin.elim
  | map vaddr paddr size flags =>
      obtain ⟨⟨t, r⟩, hmap, rfl⟩ := Except.map_eq_ok.mp hok
      by_cases hvirtual : b.isVirtual
      · rw [armMap_nextAddr hk hin hvirtual hmap]
        split
        · rename_i heq
          rw [wrap32_of_lt (has heq)]
          exact Nat.le_add_right _ _
        · exact le_rfl
      · rw [armMap, if_neg hvirtual] at hmap
        cases hmap
        exact le_rfl
  | mapCpu cpu vaddr paddr flags => exact (armMapCpu_nextAddr hok).ge
  | pdmap vaddr =>
      cases hok
      exact le_rfl

/-! ## `arm_map()` -/

/-- 窓に触れない `arm_map()` は、範囲のページをすべての CPU で `paddr` から続くページに写し、範囲と窓の外の変換を変えない。新しい表が要る組
では、範囲の外のページをどの CPU も写していないとする。番地を割り当てる続きの呼び出しは、重ならない範囲を返す。 -/
theorem arm_map_frames (hk : k.Ok) (hb : b.Ok) (hvirtual : b.isVirtual = true) {mem : WordMem} {pages : List Nat}
    (hzero : ∀ c < b.numCpu, ∀ j < 4096, mem (b.l1Word c j) = 0) (hpages : ∀ p ∈ pages, b.PageOk p) (hnodup : pages.Nodup)
    (hrun : Reaches (Mmu.step k b) (Mmu.InRange b) (Mmu.start mem pages) s) {vaddr paddr size flags r va sz : Nat}
    (hin : s.InRange b (.map vaddr paddr size flags)) (hrange : armMapRange s vaddr paddr size = (va, sz))
    (hwin : ∀ g < 1024, TouchesGroup va sz g → ¬ PdWindow b s.mem g)
    (hprivate : ∀ c < b.numCpu, ∀ v < 2 ^ 32, TouchesGroup va sz (v / 2 ^ 22) → ¬ InPages va sz v →
      (∃ c' < b.numCpu, tableOf b s.mem c' (v / 2 ^ 22) = none) → hwWalk b s.mem c v = none)
    (hok : armMap k b s vaddr paddr size flags = .ok (s', r)) :
    r = wrap32 (va + (paddr &&& pgMask)) ∧
    (∀ c < b.numCpu, ∀ v, InPages va sz v →
      hwWalk b s'.mem c v = some (wrap32 (bic paddr pgMask + (v / 2 ^ 12 - va / 2 ^ 12) * pageSize) + v % 2 ^ 12)) ∧
    (∀ c < b.numCpu, ∀ v < 2 ^ 32, ¬ InPages va sz v → ¬ PdWindow b s.mem (v / 2 ^ 22) →
      hwWalk b s'.mem c v = hwWalk b s.mem c v) ∧
    (vaddr = 2 ^ 32 - 1 → va + sz < 2 ^ 32 → ∀ u u' paddr₂ size₂ flags₂ r₂ v,
      Reaches (Mmu.step k b) (fun u call => u.InRange b call ∧ u.Assignable call) s' u →
      armMap k b u (2 ^ 32 - 1) paddr₂ size₂ flags₂ = .ok (u', r₂) → InPages va sz v →
      ¬ InPages (armMapRange u (2 ^ 32 - 1) paddr₂ size₂).1 (armMapRange u (2 ^ 32 - 1) paddr₂ size₂).2 v) := by
  have h : s.Plain k b := hrun.invariant (Mmu.Plain.start hzero hpages hnodup) fun _ _ _ hP hin hs => hP.step hk hb hin hs
  have hplain := h.map hk hb hin hok
  have hnext := armMap_nextAddr hk hin hvirtual hok
  obtain ⟨va', m, hrange'⟩ := armMapRange_pages s vaddr paddr size
  obtain ⟨hva, hend⟩ := hin
  obtain ⟨rfl, rfl⟩ := Prod.mk.inj (hrange.symm.trans hrange')
  rw [hrange] at hva hend hnext
  dsimp only at hva hend hnext
  obtain ⟨hmap, hr⟩ := h.armMap hk hb hrange hva hend hvirtual hwin hok
  have hsz : m * pageSize = m * 2 ^ 12 := rfl
  obtain ⟨hdvd, hlt⟩ := bic_page_dvd paddr
  refine ⟨hr, fun c hc v hv => ?_, fun c hc v hv hout hw => ?_, fun heq hfit u u' paddr₂ size₂ flags₂ r₂ v hrun₂ _ hv hv₂ => ?_⟩
  · unfold InPages at hv
    rw [hplain.hwWalk hk hb hc (by omega), hmap.done c hc _ (by omega) (by omega)]
    have hpte := (setProt_isPte hk hdvd hlt flags).next hdvd (v / 2 ^ 12 - va / 2 ^ 12)
    have hread := hpte.read (by unfold wrap32 pageSize; omega) (wrap32_lt _)
    rw [pteWalk, if_neg hread.1, hread.2.1]
  · rw [hplain.hwWalk hk hb hc hv, h.hwWalk hk hb hc hv]
    have hgrp : v / 2 ^ 12 / 1024 = v / 2 ^ 22 := by omega
    have hrest : ¬ (va / 2 ^ 12 ≤ v / 2 ^ 12 ∧ v / 2 ^ 12 < va / 2 ^ 12 + m) := by
      unfold InPages at hout
      omega
    rcases hmap.frame c hc (v / 2 ^ 12) (by omega) (by rwa [hgrp]) hrest with heq | ⟨⟨q, h1, h2, hq⟩, hlack, hnil⟩
    · rw [heq]
    · -- 新しい表が入った組では、範囲の外のページはどちらの状態でも写されていない。
      rw [hgrp] at hlack hq
      have hnone := hprivate c hc v hv ⟨by omega, by omega⟩ hout hlack
      rw [h.hwWalk hk hb hc hv] at hnone
      rw [hnone, hnil]
      rfl
  · have hmono : s'.nextAddr ≤ u.nextAddr :=
      hrun₂.invariant (P := fun u => s'.nextAddr ≤ u.nextAddr) le_rfl fun _ _ _ hP hin hs =>
        hP.trans (Mmu.step_nextAddr hk hin.1 hin.2 hs)
    have hfirst : va = s.nextAddr := by
      have h1 := congrArg Prod.fst hrange
      rw [armMapRange, if_pos heq] at h1
      exact h1.symm
    rw [if_pos heq, ← hfirst, wrap32_of_lt hfit] at hnext
    rw [armMapRange, if_pos rfl] at hv₂
    unfold InPages at hv hv₂
    dsimp only at hv₂
    omega

end

/-! ## 二つの CPU の表 -/

/-- 二つの CPU の表。 -/
def dualMmuBase : MmuBase where
  l1Paddr := 0x4000
  l2Paddr := 0xc000
  numCpu := 2
  isVirtual := true

theorem dualMmuBase_ok : dualMmuBase.Ok := by constructor <;> decide

/-- 0 で埋めた記憶と三つのページ。 -/
def dualMmu : Mmu := Mmu.start (fun _ => 0) [0xe000, 0xf000, 0x10000]

theorem dualMmu_pages : ∀ p ∈ [0xe000, 0xf000, 0x10000], dualMmuBase.PageOk p := by
  have hpage : ∀ p, 0xe000 ≤ p → 2 ^ 12 ∣ p → p + 2 ^ 12 ≤ 2 ^ 32 → dualMmuBase.PageOk p := fun p h hal hstop =>
    ⟨hal, hstop, fun x hx _ => .inr (le_trans (by decide) (h.trans hx)), fun x hx _ => .inr (le_trans (by decide) (h.trans hx))⟩
  intro p hp
  simp only [List.mem_cons, List.not_mem_nil, or_false] at hp
  rcases hp with rfl | rfl | rfl <;> exact hpage _ (by decide) (by decide) (by decide)

/-- 二つの CPU の表での二つの実行。 -/
theorem dualMmu_runs :
    (runAll (Mmu.step armvPteV7mp dualMmuBase) (Mmu.InRange dualMmuBase)
      [.pdmap 0xfc000000, .mapCpu 0 0x80001000 0x30000000 1] dualMmu).any (fun s =>
        (armMap armvPteV7mp dualMmuBase s 0x80000000 0x20000000 0x1000 1).toOption.any fun t =>
          (¬ InPages 0x80000000 0x1000 0xfc200000 ∧
            hwWalk dualMmuBase s.mem 0 0xfc200000 = some 0xe000 ∧ hwWalk dualMmuBase t.1.mem 0 0xfc200000 = some 0xf000) ∧
          ¬ InPages 0x80000000 0x1000 0x80001000 ∧
            hwWalk dualMmuBase s.mem 0 0x80001000 = some 0x30000000 ∧ hwWalk dualMmuBase t.1.mem 0 0x80001000 = none) = true ∧
    (runAll (Mmu.step armvPteV7mp dualMmuBase) (Mmu.InRange dualMmuBase)
      [.pdmap 0xfc000000, .mapCpu 1 0x80001000 0x30000000 1, .map (2 ^ 32 - 1) 0x20000234 0x2000 1] dualMmu).any (fun s =>
        s.InRange dualMmuBase (.map (2 ^ 32 - 1) 0x21000234 0xc00 1) ∧
        armMapRange s (2 ^ 32 - 1) 0x21000234 0xc00 = (0xfc403000, 0x1000) ∧
        ¬ PdWindow dualMmuBase s.mem 1009 ∧ (∀ c < 2, tableOf dualMmuBase s.mem c 1009 ≠ none) ∧
        ¬ PdWindow dualMmuBase s.mem (0x80001008 / 2 ^ 22) ∧ hwWalk dualMmuBase s.mem 1 0x80001008 = some 0x30000008 ∧
        (armMap armvPteV7mp dualMmuBase s (2 ^ 32 - 1) 0x21000234 0xc00 1).toOption.any (fun _ => true)) = true := by
  decide +kernel

/-- CPU 0 だけの表がある組に、CPU 1 のための表を入れると、窓の変換が変わり、CPU 0 のほかのページが失われる。 -/
theorem arm_map_replaces_private_table :
    ∃ s s' r, Reaches (Mmu.step armvPteV7mp dualMmuBase) (Mmu.InRange dualMmuBase) dualMmu s ∧
      armMap armvPteV7mp dualMmuBase s 0x80000000 0x20000000 0x1000 1 = .ok (s', r) ∧
      (¬ InPages 0x80000000 0x1000 0xfc200000 ∧
        hwWalk dualMmuBase s.mem 0 0xfc200000 = some 0xe000 ∧ hwWalk dualMmuBase s'.mem 0 0xfc200000 = some 0xf000) ∧
      ¬ InPages 0x80000000 0x1000 0x80001000 ∧
        hwWalk dualMmuBase s.mem 0 0x80001000 = some 0x30000000 ∧ hwWalk dualMmuBase s'.mem 0 0x80001000 = none := by
  obtain ⟨s, hs, h⟩ := (Option.any_eq_true ..).mp dualMmu_runs.1
  obtain ⟨⟨s', r⟩, hok, hval⟩ := Except.exists_of_any h
  exact ⟨s, s', r, runAll_reaches hs, hok, of_decide_eq_true hval⟩

theorem arm_map_frames_dual :
    ∃ s s' r, Reaches (Mmu.step armvPteV7mp dualMmuBase) (Mmu.InRange dualMmuBase) dualMmu s ∧
      armMap armvPteV7mp dualMmuBase s (2 ^ 32 - 1) 0x21000234 0xc00 1 = .ok (s', r) ∧
      hwWalk dualMmuBase s'.mem 1 0xfc403234 = some 0x21000234 ∧ hwWalk dualMmuBase s'.mem 1 0x80001008 = some 0x30000008 := by
  obtain ⟨s, hs, h⟩ := (Option.any_eq_true ..).mp dualMmu_runs.2
  obtain ⟨hin, hrange, hwin, htable, hother, hold, hok⟩ := of_decide_eq_true h
  obtain ⟨⟨s', r⟩, hok, _⟩ := Except.exists_of_any hok
  have hgroup : ∀ g, TouchesGroup 0xfc403000 0x1000 g → g = 1009 := by
    intro g hg
    unfold TouchesGroup at hg
    omega
  have hframes := arm_map_frames armvPteV7mp_ok dualMmuBase_ok rfl (fun _ _ _ _ => rfl) dualMmu_pages (by decide)
    (runAll_reaches hs) hin hrange (fun g _ hg => by rwa [hgroup g hg]) (fun c _ v _ hg _ hnone => by
      rw [hgroup _ hg] at hnone
      obtain ⟨c', hc', hnone⟩ := hnone
      exact absurd hnone (htable c' hc')) hok
  refine ⟨s, s', r, runAll_reaches hs, hok, ?_, ?_⟩
  · exact hframes.2.1 1 (by decide) 0xfc403234 (by decide)
  · rw [hframes.2.2.1 1 (by decide) 0x80001008 (by decide) (by decide) hother]
    exact hold

end Imx6Bsp.Startup
