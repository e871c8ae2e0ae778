import Imx6Bsp.Startup.Lemmas.PageGroups

/-!
# ページ表への呼び出しの列

セクションとページの表を一つの組に混ぜない呼び出しの列は、組の形を保つ。
-/

namespace Imx6Bsp.Startup

open Imx6Bsp.Lib

/-! ## 呼び出しの前提 -/

/-- どの CPU の組 `g` にもセクションがない。 -/
def NoSections (b : MmuBase) (mem : WordMem) (g : Nat) : Prop :=
  ∀ c < b.numCpu, ∀ i < 4, mem (b.l1Word c (g * 4 + i)) % 4 ≠ 2

/-- どの CPU の組 `g` にも表がない。 -/
def NoTables (b : MmuBase) (mem : WordMem) (g : Nat) : Prop :=
  ∀ c < b.numCpu, ∀ i < 4, mem (b.l1Word c (g * 4 + i)) % 4 ≠ 1

/-- 範囲 `[va, va + sz)` のページが、組 `g` に触れる。 -/
def TouchesGroup (va sz g : Nat) : Prop := va / 2 ^ 22 ≤ g ∧ g * 2 ^ 22 < va / 2 ^ 12 * 2 ^ 12 + sz

/-- 呼び出しの前提。番地は 32 ビットで、範囲は番地の上限を超えない。セクションの番地はメガバイトの境界にあり、一つの組にセクションとページの
表を混ぜない。 -/
def Mmu.Separate (b : MmuBase) (s : Mmu) : MmuCall → Prop
  | .scmap vaddr paddr _ => vaddr < 2 ^ 32 ∧ 2 ^ 20 ∣ paddr ∧ NoTables b s.mem (vaddr / 2 ^ 22)
  | .map vaddr paddr size _ => (armMapRange s vaddr paddr size).1 < 2 ^ 32 ∧
      (armMapRange s vaddr paddr size).1 / 2 ^ 12 * 2 ^ 12 + (armMapRange s vaddr paddr size).2 ≤ 2 ^ 32 ∧
      ∀ g < 1024, TouchesGroup (armMapRange s vaddr paddr size).1 (armMapRange s vaddr paddr size).2 g → NoSections b s.mem g
  | .mapCpu cpu vaddr _ _ => cpu < b.numCpu ∧ vaddr < 2 ^ 32 ∧ NoSections b s.mem (vaddr / 2 ^ 22)
  | .pdmap vaddr => vaddr < 2 ^ 32 ∧ NoSections b s.mem (vaddr / 2 ^ 22)

instance (b : MmuBase) (mem : WordMem) (g : Nat) : Decidable (NoSections b mem g) :=
  inferInstanceAs (Decidable (∀ c < b.numCpu, ∀ i < 4, _ ≠ 2))

instance (b : MmuBase) (mem : WordMem) (g : Nat) : Decidable (NoTables b mem g) :=
  inferInstanceAs (Decidable (∀ c < b.numCpu, ∀ i < 4, _ ≠ 1))

instance (va sz g : Nat) : Decidable (TouchesGroup va sz g) := inferInstanceAs (Decidable (_ ∧ _))

instance Mmu.decidableSeparate (b : MmuBase) (s : Mmu) : (c : MmuCall) → Decidable (s.Separate b c)
  | .scmap _ _ _ => inferInstanceAs (Decidable (_ ∧ _ ∧ _))
  | .map _ _ _ _ => inferInstanceAs (Decidable (_ ∧ _ ∧ ∀ g < 1024, _ → _))
  | .mapCpu _ _ _ _ => inferInstanceAs (Decidable (_ ∧ _ ∧ _))
  | .pdmap _ => inferInstanceAs (Decidable (_ ∧ _))

/-! ## 実行の不変条件 -/

/-- 組の形と、これから使うページの整合。 -/
structure Mmu.Ok (k : ArmvPte) (b : MmuBase) (s : Mmu) : Prop where
  shaped : Shaped k b s.mem
  pages : ∀ p ∈ s.pages, b.PageOk p

section

variable {k : ArmvPte} {b : MmuBase} {s s' : Mmu} {cpu : Nat}

/-- 表を持たない組は、空かセクションである。 -/
theorem Shaped.open_of_noTables (hk : k.Ok) (hb : b.Ok) {mem : WordMem} (h : Shaped k b mem) {g : Nat} (hg : g < 1024)
    (hno : NoTables b mem g) : ∀ c < b.numCpu, OpenGroup b mem c g := by
  intro c hc
  rcases h c hc g hg with h | ⟨T, hT, h⟩
  · exact h
  · have hhead := (h.head hk (hT.align hb hc)).1
    exact absurd hhead (hno c hc 0 (by decide))

theorem scnProt_type (hk : k.Ok) (flags : Nat) : scnProt k flags < 2 ^ 20 ∧ scnProt k flags % 4 = 2 := by
  have hro := hk.kscnRo
  have hrw := hk.kscnRw
  have hcb := hk.kscnCb
  have hprot : (if flags &&& armPteRw ≠ 0 then k.kscnRw else k.kscnRo) < 2 ^ 20 ∧
      (if flags &&& armPteRw ≠ 0 then k.kscnRw else k.kscnRo) % 4 = 2 := by
    split
    · exact hrw
    · exact hro
  unfold scnProt
  dsimp only
  split
  · refine ⟨Nat.or_lt_two_pow hprot.1 hcb.1, ?_⟩
    have hor := Nat.or_mod_two_pow (a := if flags &&& armPteRw ≠ 0 then k.kscnRw else k.kscnRo) (b := k.kscnCb) (n := 2)
    rw [show 2 ^ 2 = 4 from rfl, hprot.2, hcb.2] at hor
    exact hor
  · exact hprot

/-- 表を入れる書き込みは、セクションを増やさない。 -/
theorem mapAll_noNew (hk : k.Ok) (hb : b.Ok) {mem : WordMem} {vaddr : Nat} (hv : vaddr < 2 ^ 32) (pt : Nat → Nat) {cpus : List Nat}
    (hcpus : ∀ c ∈ cpus, c < b.numCpu) (hpt : ∀ c ∈ cpus, b.IsTable c (pt c)) {c j : Nat} (hc : c < b.numCpu) (hj : j < 4096)
    (hsec : cpus.foldl (fun mem cpu => mapPtblCpu k b mem cpu (pt cpu) vaddr) mem (b.l1Word c j) % 4 = 2) :
    mem (b.l1Word c j) % 4 = 2 := by
  rw [mapAll_l1 hb hv pt cpus hcpus hc hj] at hsec
  split at hsec
  · rename_i hin
    have hal := (hpt c hin.1).align hb hc
    have hpg := hk.l1Pgtable
    rw [armL2Size, wrap32_of_lt (by omega), or_low (k := 10) (by omega) hpg.1] at hsec
    omega
  · exact hsec

/-- 呼び出しは形を保ち、セクションを増やさない。 -/
def Mmu.Keeps (k : ArmvPte) (b : MmuBase) (s s' : Mmu) : Prop :=
  s'.Ok k b ∧ ∀ c < b.numCpu, ∀ j < 4096, s'.mem (b.l1Word c j) % 4 = 2 → s.mem (b.l1Word c j) % 4 = 2

theorem Mmu.Keeps.noSections {g : Nat} (h : s.Keeps k b s') (hg : g < 1024) (hno : NoSections b s.mem g) : NoSections b s'.mem g :=
  fun c hc i hi hsec => hno c hc i hi (h.2 c hc _ (by omega) hsec)

/-- L1 の表の外への書き込みとページの取得。 -/
theorem Mmu.Ok.off (hb : b.Ok) (h : s.Ok k b) (hm : ∀ x, ¬ b.OffL1 x → s'.mem x = s.mem x) (hp : ∀ p ∈ s'.pages, p ∈ s.pages) :
    s.Keeps k b s' := by
  refine ⟨⟨h.shaped.congr hb hm, fun p hp' => h.pages p (hp p hp')⟩, fun c hc j hj hsec => ?_⟩
  rwa [hm _ (l1Word_inside hb hc hj)] at hsec

/-- 表を入れる書き込み。 -/
theorem Mmu.Ok.install (hk : k.Ok) (hb : b.Ok) (h : s.Ok k b) {vaddr : Nat} (hv : vaddr < 2 ^ 32) (pt : Nat → Nat) {cpus : List Nat}
    (hcpus : ∀ c ∈ cpus, c < b.numCpu) (hpt : ∀ c ∈ cpus, b.IsTable c (pt c)) :
    s.Keeps k b { s with mem := cpus.foldl (fun mem cpu => mapPtblCpu k b mem cpu (pt cpu) vaddr) s.mem } :=
  ⟨⟨(h.shaped.mapAll hb hv pt hcpus hpt).1, h.pages⟩, fun _ hc _ hj => mapAll_noNew hk hb hv pt hcpus hpt hc hj⟩

theorem Mmu.Keeps.trans {s₁ s₂ s₃ : Mmu} (h : s₁.Keeps k b s₂) (h' : s₂.Keeps k b s₃) : s₁.Keeps k b s₃ :=
  ⟨h'.1, fun c hc j hj hsec => h.2 c hc j hj (h'.2 c hc j hj hsec)⟩

/-- 新しいページ `T` を表として入れ、表の中に書く。 -/
theorem Mmu.Ok.alloc (hk : k.Ok) (hb : b.Ok) (h : s.Ok k b) {vaddr T : Nat} (hv : vaddr < 2 ^ 32) {rest : List Nat}
    (hT : b.PageOk T) (hpages : s.pages = T :: rest) (cpus : List Nat) (hcpus : ∀ c ∈ cpus, c < b.numCpu) {mem : WordMem}
    (hm : ∀ x, ¬ b.OffL1 x → mem x = cpus.foldl (fun mem cpu => mapPtblCpu k b mem cpu T vaddr) (zeroPage s.mem T) x) :
    s.Keeps k b { s with mem, pages := rest } := by
  have hzero : s.Keeps k b { s with mem := zeroPage s.mem T, pages := rest } :=
    h.off hb (fun x hx => if_neg fun hin => hx (hT.offL1 x hin.1 hin.2)) fun p hp => by
      rw [hpages]
      exact List.mem_cons_of_mem _ hp
  have hinst := hzero.1.install hk hb hv (fun _ => T) hcpus fun _ _ => .inl hT
  exact (hzero.trans hinst).trans (hinst.1.off hb hm fun p hp => hp)

/-- 組についての周。 -/
theorem Mmu.Ok.group (hk : k.Ok) (hb : b.Ok) (h : s.Ok k b) (hcpu : cpu < b.numCpu) {va pa m : Nat} (hva : va < 2 ^ 32)
    (hns : s.mem (b.l1Word cpu (va / 2 ^ 22 * 4)) % 4 ≠ 2)
    (hok : armMapGroup k b s (b.l1Word cpu (va / 2 ^ 22 * 4)) va pa m = .ok s') : s.Keeps k b s' := by
  rcases armMapGroup_ok hk hb h.shaped h.pages hcpu hva hns hok with ⟨T, hT, _, rfl⟩ | ⟨T, rest, hT, _, hpages, rfl⟩
  · exact h.off hb (fun _ => hT.fill_offL1 hb hcpu (by omega) _ _) fun p hp => hp
  · exact h.alloc hk hb hva hT hpages (List.range b.numCpu) (fun _ => List.mem_range.mp) fun _ =>
      MmuBase.IsTable.fill_offL1 hb hcpu (.inl hT) (by omega) _ _

theorem Mmu.Ok.mapCpu (hk : k.Ok) (hb : b.Ok) (h : s.Ok k b) (hcpu : cpu < b.numCpu) {va paddr flags : Nat} (hva : va < 2 ^ 32)
    (hns : s.mem (b.l1Word cpu (va / 2 ^ 22 * 4)) % 4 ≠ 2) (hok : armMapCpu k b s cpu va paddr flags = .ok s') : s.Keeps k b s' := by
  rcases armMapCpu_ok hk hb h.shaped h.pages hcpu hva hns hok with ⟨T, hT, _, rfl⟩ | ⟨T, rest, hT, _, hpages, rfl⟩
  · exact h.off hb (fun _ => hT.update_offL1 hb hcpu (by omega) _ _) fun p hp => hp
  · refine h.alloc hk hb hva hT hpages [cpu] (fun c hc => ?_) fun x hx => ?_
    · rwa [List.mem_singleton.mp hc]
    · rw [List.foldl_cons, List.foldl_nil]
      exact MmuBase.IsTable.update_offL1 hb hcpu (.inl hT) (by omega) _ _ hx

/-- `arm_map()` の規則。組についての周は、32 ビットに収まる範囲の中の番地から始まる。 -/
theorem armMap_run (hk : k.Ok) {P : Nat → Nat → Mmu → Prop} {vaddr paddr size flags va m r : Nat}
    (hrange : armMapRange s vaddr paddr size = (va, m * pageSize)) (hva : va < 2 ^ 32)
    (hend : va / 2 ^ 12 * 2 ^ 12 + m * pageSize ≤ 2 ^ 32)
    (hnext : ∀ c < b.numCpu, ∀ u, P c m u → P (c + 1) 0 u)
    (hstep : ∀ c < b.numCpu, ∀ t < m, ∀ u u', P c t u → va + t * pageSize < 2 ^ 32 →
      TouchesGroup va (m * pageSize) ((va + t * pageSize) / 2 ^ 22) →
      armMapGroup k b u (b.l1Word c ((va + t * pageSize) / 2 ^ 22 * 4)) (va + t * pageSize)
        (wrap32 (setProt k (bic paddr pgMask) flags + t * pageSize)) (m - t) = .ok u' →
      P c (t + min (1024 - (va / 2 ^ 12 + t) % 1024) (m - t)) u')
    (h0 : P 0 0 { s with nextAddr := if vaddr = 2 ^ 32 - 1 then wrap32 (s.nextAddr + m * pageSize) else s.nextAddr })
    (hvirtual : b.isVirtual = true) (hok : armMap k b s vaddr paddr size flags = .ok (s', r)) :
    P b.numCpu 0 s' ∧ r = wrap32 (va + (paddr &&& pgMask)) := by
  rw [armMap, if_pos hvirtual, hrange] at hok
  obtain ⟨s₁, hfold, hok⟩ := Except.bind_eq_ok.mp hok
  cases hok
  obtain ⟨hdvd, hlt⟩ := bic_page_dvd paddr
  have hprot := (setProt_isPte hk hdvd hlt flags).read hdvd hlt
  unfold pageSize at hend
  refine ⟨armMap_rule (P := P) (m := m) hva hprot.2.2 (by omega) hnext ?_ h0 hfold, rfl⟩
  intro c hc t ht u u' hP hgroup
  have hgrp : (va + t * pageSize) / 2 ^ 22 = (va / 2 ^ 12 + t) / 1024 := by
    unfold pageSize
    omega
  rw [← hgrp] at hgroup
  exact hstep c hc t ht u u' hP (by unfold pageSize; omega) ⟨by omega, by unfold pageSize; omega⟩ hgroup

theorem armMapRange_pages (s : Mmu) (vaddr paddr size : Nat) :
    ∃ va m, armMapRange s vaddr paddr size = (va, m * pageSize) := by
  obtain ⟨m, hm⟩ := roundPg_pages (wrap32 (size + (paddr &&& pgMask)))
  exact ⟨_, m, by rw [armMapRange, hm]⟩

/-- `arm_map()` は形を保つ。 -/
theorem Mmu.Ok.map (hk : k.Ok) (hb : b.Ok) (h : s.Ok k b) {vaddr paddr size flags r : Nat}
    (hok : armMap k b s vaddr paddr size flags = .ok (s', r)) (hsep : s.Separate b (.map vaddr paddr size flags)) : s.Keeps k b s' := by
  obtain ⟨hva, hend, hno⟩ := hsep
  have hself : s.Keeps k b s := ⟨h, fun _ _ _ _ hsec => hsec⟩
  by_cases hvirtual : b.isVirtual
  swap
  · rw [armMap, if_neg hvirtual] at hok
    cases hok
    exact hself
  obtain ⟨va, m, hrange⟩ := armMapRange_pages s vaddr paddr size
  rw [hrange] at hva hend hno
  refine (armMap_run hk (P := fun _ _ u => s.Keeps k b u) hrange hva hend (fun _ _ _ hP => hP) ?_ ?_ hvirtual hok).1
  · intro c hc t ht u u' hP hlt htouch hgroup
    have hg : (va + t * pageSize) / 2 ^ 22 < 1024 := by omega
    exact hP.trans (hP.1.group hk hb hc hlt (hP.noSections hg (hno _ hg htouch) c hc 0 (by decide)) hgroup)
  · exact ⟨⟨h.shaped, h.pages⟩, hself.2⟩

/-- どの呼び出しも形を保つ。 -/
theorem Mmu.Ok.step (hk : k.Ok) (hb : b.Ok) (h : s.Ok k b) {call : MmuCall} (hsep : s.Separate b call)
    (hok : s.step k b call = .ok s') : s'.Ok k b := by
  cases call with
  | scmap vaddr paddr flags =>
      obtain ⟨hv, hal, hno⟩ := hsep
      cases hok
      have hscn := scnProt_type hk flags
      refine ⟨h.shaped.scmap hb hv ?_ (h.shaped.open_of_noTables hk hb (by omega) hno), h.pages⟩
      rw [or_low hal hscn.1]
      omega
  | map vaddr paddr size flags =>
      obtain ⟨⟨t, r⟩, hmap, rfl⟩ := Except.map_eq_ok.mp hok
      exact (h.map hk hb hmap hsep).1
  | mapCpu cpu vaddr paddr flags =>
      obtain ⟨hcpu, hv, hno⟩ := hsep
      exact (h.mapCpu hk hb hcpu hv (hno cpu hcpu 0 (by decide)) hok).1
  | pdmap vaddr =>
      cases hok
      exact (h.install hk hb hsep.1 (fun c => b.l2Table c) (fun _ => List.mem_range.mp) fun _ _ => .inr rfl).1

theorem Mmu.Ok.start {mem : WordMem} {pages : List Nat} (hzero : ∀ c < b.numCpu, ∀ j < 4096, mem (b.l1Word c j) = 0)
    (hpages : ∀ p ∈ pages, b.PageOk p) : (Mmu.start mem pages).Ok k b :=
  ⟨fun c hc g hg => .inl fun i hi => .inl (hzero c hc _ (by omega)), hpages⟩

end

end Imx6Bsp.Startup
