import Imx6Bsp.Lib.Words
import Imx6Bsp.Startup.Lemmas.PageTable

/-!
# 4 メガバイトの組の形

L1 の四つの項目は、表を一つずつ指すか、どれも空かセクションである。どの呼び出しもこの形を保つ。
-/

namespace Imx6Bsp.Startup

open Imx6Bsp.Lib

/-! ## 組の形 -/

/-- 組 `g` の四つの項目は、ページ `T` の中の四つの L2 の表を指す。 -/
def TableGroup (k : ArmvPte) (b : MmuBase) (mem : WordMem) (cpu g T : Nat) : Prop :=
  ∀ i < 4, mem (b.l1Word cpu (g * 4 + i)) = (T + i * armL2Size) ||| k.l1Pgtable

/-- 組 `g` の四つの項目は、空かセクションである。 -/
def OpenGroup (b : MmuBase) (mem : WordMem) (cpu g : Nat) : Prop :=
  ∀ i < 4, mem (b.l1Word cpu (g * 4 + i)) = 0 ∨ mem (b.l1Word cpu (g * 4 + i)) % 4 = 2

/-- どの組も、空かセクションであるか、表を指す。 -/
def Shaped (k : ArmvPte) (b : MmuBase) (mem : WordMem) : Prop :=
  ∀ cpu < b.numCpu, ∀ g < 1024, OpenGroup b mem cpu g ∨ ∃ T, b.IsTable cpu T ∧ TableGroup k b mem cpu g T

section

variable {k : ArmvPte} {b : MmuBase} {mem mem' : WordMem} {cpu g T : Nat}

theorem TableGroup.congr (h : TableGroup k b mem cpu g T)
    (hm : ∀ i < 4, mem' (b.l1Word cpu (g * 4 + i)) = mem (b.l1Word cpu (g * 4 + i))) : TableGroup k b mem' cpu g T :=
  fun i hi => (hm i hi).trans (h i hi)

theorem OpenGroup.congr (h : OpenGroup b mem cpu g)
    (hm : ∀ i < 4, mem' (b.l1Word cpu (g * 4 + i)) = mem (b.l1Word cpu (g * 4 + i))) : OpenGroup b mem' cpu g := by
  intro i hi
  rw [hm i hi]
  exact h i hi

/-- L1 の表の外への書き込みは、組の形を変えない。 -/
theorem Shaped.congr (hb : b.Ok) (h : Shaped k b mem) (hm : ∀ x, ¬ b.OffL1 x → mem' x = mem x) : Shaped k b mem' := by
  intro cpu hcpu g hg
  have hword : ∀ i < 4, mem' (b.l1Word cpu (g * 4 + i)) = mem (b.l1Word cpu (g * 4 + i)) := fun i hi =>
    hm _ (l1Word_inside hb hcpu (by omega))
  rcases h cpu hcpu g hg with h | ⟨T, hT, h⟩
  · exact .inl (h.congr hword)
  · exact .inr ⟨T, hT, h.congr hword⟩

/-- 表を指す項目の値。 -/
theorem TableGroup.word (hk : k.Ok) (h : TableGroup k b mem cpu g T) (hT : 2 ^ 12 ∣ T) {i : Nat} (hi : i < 4) :
    mem (b.l1Word cpu (g * 4 + i)) = T + i * 1024 + k.l1Pgtable := by
  have hpg := hk.l1Pgtable.1
  rw [h i hi, or_low (k := 10) _ hpg, armL2Size]
  unfold armL2Size
  omega

theorem TableGroup.unique (hk : k.Ok) {T' : Nat} (h : TableGroup k b mem cpu g T) (h' : TableGroup k b mem cpu g T') (hT : 2 ^ 12 ∣ T)
    (hT' : 2 ^ 12 ∣ T') : T = T' := by
  have h1 := h.word hk hT (i := 0) (by decide)
  rw [h'.word hk hT' (i := 0) (by decide)] at h1
  omega

/-- 表を指す組での MMU の変換。 -/
theorem hwWalk_table (hk : k.Ok) {vaddr : Nat} (h : TableGroup k b mem cpu (vaddr / 2 ^ 22) T) (hT : 2 ^ 12 ∣ T ∧ T + 2 ^ 12 ≤ 2 ^ 32) :
    hwWalk b mem cpu vaddr =
      if mem (T + 4 * (vaddr / 2 ^ 12 % 1024)) % 4 < 2 then none
      else some (bic (mem (T + 4 * (vaddr / 2 ^ 12 % 1024))) pgMask + vaddr % 2 ^ 12) := by
  have hpg := hk.l1Pgtable
  have hword := h.word hk hT.1 (i := vaddr / 2 ^ 20 % 4) (by omega)
  rw [show vaddr / 2 ^ 22 * 4 + vaddr / 2 ^ 20 % 4 = vaddr / 2 ^ 20 by omega, MmuBase.l1Word] at hword
  have hbase : bic (T + vaddr / 2 ^ 20 % 4 * 1024 + k.l1Pgtable) (armL2Size - 1) = T + vaddr / 2 ^ 20 % 4 * 1024 := by
    rw [bic_l2 (by omega)]
    omega
  rw [hwWalk, hword]
  dsimp only
  rw [if_neg (by omega), if_pos (by omega), hbase,
    show T + vaddr / 2 ^ 20 % 4 * 1024 + 4 * (vaddr / 2 ^ 12 % 256) = T + 4 * (vaddr / 2 ^ 12 % 1024) by omega]

/-- 表を指す組の先頭の項目から、コードは表の番地を得る。 -/
theorem TableGroup.head (hk : k.Ok) (h : TableGroup k b mem cpu g T) (hT : 2 ^ 12 ∣ T ∧ T + 2 ^ 12 ≤ 2 ^ 32) :
    mem (b.l1Word cpu (g * 4)) % 4 = 1 ∧ bic (mem (b.l1Word cpu (g * 4))) pgMask = T := by
  have hpg := hk.l1Pgtable
  have hword := h.word hk hT.1 (i := 0) (by decide)
  rw [Nat.add_zero, Nat.zero_mul, Nat.add_zero] at hword
  rw [hword, bic_pgMask (by omega)]
  omega

/-! ## 表を入れる操作 -/

/-- すべての CPU の組 `g` に表を入れた後の形。 -/
theorem Shaped.mapAll (hb : b.Ok) {vaddr : Nat} (hv : vaddr < 2 ^ 32) (pt : Nat → Nat) {cpus : List Nat} (hcpus : ∀ c ∈ cpus, c < b.numCpu)
    (hpt : ∀ c ∈ cpus, b.IsTable c (pt c)) (h : Shaped k b mem) :
    Shaped k b (cpus.foldl (fun mem cpu => mapPtblCpu k b mem cpu (pt cpu) vaddr) mem) ∧
      ∀ c ∈ cpus, TableGroup k b (cpus.foldl (fun mem cpu => mapPtblCpu k b mem cpu (pt cpu) vaddr) mem) c (vaddr / 2 ^ 22) (pt c) := by
  have hnew : ∀ c ∈ cpus, TableGroup k b (cpus.foldl (fun mem cpu => mapPtblCpu k b mem cpu (pt cpu) vaddr) mem) c (vaddr / 2 ^ 22)
      (pt c) := by
    intro c hc i hi
    have hal := (hpt c hc).align hb (hcpus c hc)
    rw [mapAll_l1 hb hv pt cpus hcpus (hcpus c hc) (by omega), if_pos ⟨hc, by omega⟩,
      show (vaddr / 2 ^ 22 * 4 + i) % 4 = i by omega, wrap32_of_lt (by unfold armL2Size; omega)]
  refine ⟨fun c hc g hg => ?_, hnew⟩
  by_cases hin : c ∈ cpus ∧ g = vaddr / 2 ^ 22
  · obtain ⟨hin, rfl⟩ := hin
    exact .inr ⟨pt c, hpt c hin, hnew c hin⟩
  · have hword : ∀ i < 4, cpus.foldl (fun mem cpu => mapPtblCpu k b mem cpu (pt cpu) vaddr) mem (b.l1Word c (g * 4 + i)) =
        mem (b.l1Word c (g * 4 + i)) := by
      intro i hi
      rw [mapAll_l1 hb hv pt cpus hcpus hc (by omega), if_neg fun h => hin ⟨h.1, by omega⟩]
    rcases h c hc g hg with h | ⟨T, hT, h⟩
    · exact .inl (h.congr hword)
    · exact .inr ⟨T, hT, h.congr hword⟩

/-- `arm_scmap()` は、表を指さない組の形を保つ。 -/
theorem Shaped.scmap (hb : b.Ok) {vaddr w : Nat} (hv : vaddr < 2 ^ 32) (hw : w % 4 = 2) (h : Shaped k b mem)
    (hopen : ∀ c < b.numCpu, OpenGroup b mem c (vaddr / 2 ^ 22)) :
    Shaped k b ((List.range b.numCpu).foldl
      (fun mem cpu => Function.update mem (b.l1Table cpu + 4 * (vaddr >>> 20)) w) mem) := by
  intro c hc g hg
  have hword := fun i (hi : g * 4 + i < 4096) => scmap_l1 hb hv w (List.range b.numCpu) (fun c => List.mem_range.mp) hc hi mem
  by_cases hgv : g = vaddr / 2 ^ 22
  · subst hgv
    refine .inl fun i hi => ?_
    rw [hword i (by omega)]
    by_cases hj : vaddr / 2 ^ 22 * 4 + i = vaddr / 2 ^ 20
    · rw [if_pos ⟨List.mem_range.mpr hc, hj⟩]
      exact .inr hw
    · rw [if_neg fun h => hj h.2]
      exact hopen c hc i hi
  · have hsame : ∀ i < 4, (List.range b.numCpu).foldl (fun mem cpu => Function.update mem (b.l1Table cpu + 4 * (vaddr >>> 20)) w) mem
        (b.l1Word c (g * 4 + i)) = mem (b.l1Word c (g * 4 + i)) := by
      intro i hi
      rw [hword i (by omega), if_neg fun h => hgv (by omega)]
    rcases h c hc g hg with h | ⟨T, hT, h⟩
    · exact .inl (h.congr hsame)
    · exact .inr ⟨T, hT, h.congr hsame⟩

/-! ## `arm_map` の一周 -/

variable {s s' : Mmu}

theorem callocPage_ok {p : Nat} (h : callocPage s = .ok (s', p)) :
    ∃ rest, s.pages = p :: rest ∧ s' = { s with mem := zeroPage s.mem p, pages := rest } := by
  unfold callocPage at h
  split at h
  · cases h
  · rename_i q rest hq
    cases h
    exact ⟨rest, hq, rfl⟩

/-- 組一つについての周。`pa` から始まる `m` ページのうち、組に収まる分を写す。 -/
def armMapGroup (k : ArmvPte) (b : MmuBase) (s : Mmu) (ptp va pa m : Nat) : Except MmuFault Mmu := do
  let (s, pte) ← armMapTable k b s ptp va
  return { s with mem := fillWords s.mem (pte + 4 * (va / 2 ^ 12 % 1024)) pa (min (1024 - va / 2 ^ 12 % 1024) m) }

theorem armMapLoop_succ {va pa : Nat} (hva : va < 2 ^ 32) (hpa : pa < 2 ^ 32) (fuel : Nat) (s : Mmu) (ptp m : Nat) :
    armMapLoop k b (fuel + 1) s ptp va pa ((m + 1) * pageSize) =
      (armMapGroup k b s ptp va pa (m + 1)).bind fun s =>
        armMapLoop k b fuel s (ptp + 16) (wrap32 (va + min (1024 - va / 2 ^ 12 % 1024) (m + 1) * pageSize))
          (wrap32 (pa + min (1024 - va / 2 ^ 12 % 1024) (m + 1) * pageSize))
          ((m + 1 - min (1024 - va / 2 ^ 12 % 1024) (m + 1)) * pageSize) := by
  rw [armMapLoop, if_neg (by unfold pageSize; omega), armMapGroup]
  cases armMapTable k b s ptp va with
  | error e => rfl
  | ok r =>
      obtain ⟨s, pte⟩ := r
      change armMapLoop k b fuel _ (ptp + 16) _ _ _ = armMapLoop k b fuel _ (ptp + 16) _ _ _
      have hi : (va >>> 12) &&& (armL2Size - 1) = va / 2 ^ 12 % 1024 := by
        rw [and_l2, Nat.shiftRight_eq_div_pow]
      rw [hi, armL2Size, armMapFill_eq _ _ _ _ _ _ hpa hva]

/-- 組ごとの周が性質 `P` を保てば、一つの CPU についての繰り返しの後に `P` が成り立つ。`P` の引数は写したページの数である。 -/
theorem armMapLoop_rule {P : Nat → Mmu → Prop} {va pa m : Nat} (hend : va / 2 ^ 12 + m ≤ 2 ^ 20)
    (hstep : ∀ t < m, ∀ s s', P t s → armMapGroup k b s (b.l1Word cpu ((va / 2 ^ 12 + t) / 1024 * 4)) (va + t * pageSize)
      (wrap32 (pa + t * pageSize)) (m - t) = .ok s' → P (t + min (1024 - (va / 2 ^ 12 + t) % 1024) (m - t)) s') :
    ∀ fuel t s ptp, t ≤ m → m - t < fuel → (t < m → ptp = b.l1Word cpu ((va / 2 ^ 12 + t) / 1024 * 4)) → P t s →
      armMapLoop k b fuel s ptp (wrap32 (va + t * pageSize)) (wrap32 (pa + t * pageSize)) ((m - t) * pageSize) = .ok s' → P m s' := by
  intro fuel
  induction fuel with
  | zero => exact fun t s ptp _ hf => absurd hf (Nat.not_lt_zero _)
  | succ fuel ih =>
      intro t s ptp ht hf hptp hP hok
      rcases Nat.eq_or_lt_of_le ht with rfl | hlt
      · rw [Nat.sub_self, Nat.zero_mul, armMapLoop, if_pos rfl] at hok
        cases hok
        exact hP
      · have hpage : va / 2 ^ 12 + t < 2 ^ 20 := by omega
        have hwrap : wrap32 (va + t * pageSize) = va + t * pageSize := wrap32_of_lt (by unfold pageSize; omega)
        have hidx : (va + t * pageSize) / 2 ^ 12 = va / 2 ^ 12 + t := by
          unfold pageSize
          omega
        have hstep' := hstep t hlt s
        generalize hc : min (1024 - (va / 2 ^ 12 + t) % 1024) (m - t) = c at hstep'
        obtain ⟨r, hr⟩ : ∃ r, m - t = r + 1 := ⟨m - t - 1, by omega⟩
        rw [hr, hwrap, armMapLoop_succ (by unfold pageSize; omega) (wrap32_lt _), hidx, ← hr, hc] at hok
        obtain ⟨s₁, hs₁, hok⟩ := Except.bind_eq_ok.mp hok
        have hP₁ := hstep' s₁ hP (by rw [← hptp hlt]; exact hs₁)
        have hsum : ∀ x, wrap32 (x + t * pageSize + c * pageSize) = wrap32 (x + (t + c) * pageSize) := fun x => by
          rw [Nat.add_assoc, ← Nat.add_mul]
        have hsum' : wrap32 (wrap32 (pa + t * pageSize) + c * pageSize) = wrap32 (pa + (t + c) * pageSize) := by
          unfold wrap32 pageSize
          omega
        rw [hsum, hsum', Nat.sub_sub] at hok
        refine ih (t + c) s₁ (ptp + 16) (by omega) (by omega) (fun hlt' => ?_) hP₁ hok
        rw [hptp hlt, MmuBase.l1Word, MmuBase.l1Word]
        omega

/-- 表を得る周の結果。表は元からあるか、新しいページである。 -/
theorem armMapGroup_ok (hk : k.Ok) (hb : b.Ok) (h : Shaped k b s.mem) (hpages : ∀ p ∈ s.pages, b.PageOk p) (hcpu : cpu < b.numCpu)
    {va pa m : Nat} (hva : va < 2 ^ 32) (hns : s.mem (b.l1Word cpu (va / 2 ^ 22 * 4)) % 4 ≠ 2)
    (hok : armMapGroup k b s (b.l1Word cpu (va / 2 ^ 22 * 4)) va pa m = .ok s') :
    (∃ T, b.IsTable cpu T ∧ TableGroup k b s.mem cpu (va / 2 ^ 22) T ∧
      s' = { s with mem := fillWords s.mem (T + 4 * (va / 2 ^ 12 % 1024)) pa (min (1024 - va / 2 ^ 12 % 1024) m) }) ∨
    ∃ T rest, b.PageOk T ∧ s.mem (b.l1Word cpu (va / 2 ^ 22 * 4)) = 0 ∧ s.pages = T :: rest ∧
      s' = { s with
        mem := fillWords (mapPtbl k b (zeroPage s.mem T) T va) (T + 4 * (va / 2 ^ 12 % 1024)) pa (min (1024 - va / 2 ^ 12 % 1024) m)
        pages := rest } := by
  obtain ⟨⟨s₁, pte⟩, htable, hok⟩ := Except.bind_eq_ok.mp hok
  cases hok
  unfold armMapTable at htable
  rw [and_valid] at htable
  rcases h cpu hcpu (va / 2 ^ 22) (by omega) with hopen | ⟨T, hT, hgroup⟩
  · -- 項目が空なので、ページを取って表にする。
    have hzero : s.mem (b.l1Word cpu (va / 2 ^ 22 * 4)) = 0 := (hopen 0 (by decide)).resolve_right hns
    rw [hzero, if_pos rfl] at htable
    obtain ⟨⟨s₂, p⟩, hcalloc, htable⟩ := Except.bind_eq_ok.mp htable
    cases htable
    obtain ⟨rest, hq, rfl⟩ := callocPage_ok hcalloc
    exact .inr ⟨pte, rest, hpages pte (by rw [hq]; exact List.mem_cons_self), hzero, hq, rfl⟩
  · have hal := hT.align hb hcpu
    obtain ⟨hone, hbase⟩ := hgroup.head hk hal
    rw [hone, if_neg (by decide)] at htable
    cases htable
    rw [hbase]
    exact .inl ⟨T, hT, hgroup, rfl⟩

end

/-! ## `set_prot` -/

/-- ページの境界の番地に、下の 12 ビットの記述子を加えた値。 -/
def IsPte (P w : Nat) : Prop := ∃ a < 2 ^ 12, a.testBit 1 ∧ w = P ||| a

section

variable {k : ArmvPte} {P w c m : Nat}

theorem IsPte.or (h : IsPte P w) (hc : c < 2 ^ 12) : IsPte P (w ||| c) := by
  obtain ⟨a, ha, hbit, rfl⟩ := h
  exact ⟨a ||| c, Nat.or_lt_two_pow ha hc, by rw [Nat.testBit_or, hbit, Bool.true_or], Nat.or_assoc P a c⟩

theorem IsPte.bic (hP : 2 ^ 12 ∣ P) (hlt : P < 2 ^ 32) (h : IsPte P w) (hm : m < 2 ^ 12) (hbit : ¬ m.testBit 1) : IsPte P (bic w m) := by
  obtain ⟨a, ha, habit, rfl⟩ := h
  have hcompl : ∀ i, (2 ^ 32 - 1 - m).testBit i = (decide (i < 32) && !m.testBit i) := testBit_compl (by omega)
  have hkeep : P &&& (2 ^ 32 - 1 - m) = P := by
    apply Nat.eq_of_testBit_eq
    intro i
    rw [Nat.testBit_and, hcompl]
    by_cases hi : i < 12
    · obtain ⟨q, rfl⟩ := hP
      rw [Nat.testBit_two_pow_mul, decide_eq_false (by omega), Bool.false_and, Bool.false_and]
    · by_cases hi' : i < 32
      · have hno : m.testBit i = false := Nat.testBit_lt_two_pow (hm.trans_le (Nat.pow_le_pow_right (by decide) (by omega)))
        simp [hno, hi']
      · have hno : P.testBit i = false := Nat.testBit_lt_two_pow (hlt.trans_le (Nat.pow_le_pow_right (by decide) (by omega)))
        rw [hno, Bool.false_and]
  refine ⟨a &&& (2 ^ 32 - 1 - m), Nat.and_le_left.trans_lt ha, ?_, ?_⟩
  · rw [Nat.testBit_and, habit, hcompl]
    simpa using hbit
  · rw [Startup.bic, Nat.and_or_distrib_right, hkeep]

/-- `set_prot()` は、番地の下の 12 ビットに記述子を加えるだけである。 -/
theorem setProt_isPte (hk : k.Ok) (hP : 2 ^ 12 ∣ P) (hlt : P < 2 ^ 32) (flags : Nat) : IsPte P (setProt k P flags) := by
  have hbase : ∀ a : Nat, a < 2 ^ 12 ∧ a.testBit 1 → IsPte P (P ||| a) := fun a ha => ⟨a, ha.1, ha.2, rfl⟩
  have hmask : ∀ f m : Nat, m < 2 ^ 12 → f &&& m < 2 ^ 12 := fun f m hm => Nat.and_le_right.trans_lt hm
  unfold setProt
  by_cases hsys : flags = armMapSyspage
  · rw [if_pos hsys]
    by_cases hv6 : k.v6
    · rw [if_pos hv6]
      exact (hbase _ hk.upteRw).bic hP hlt (by decide) (by decide)
    · rw [if_neg hv6]
      exact hbase _ hk.upteRo
  · rw [if_neg hsys]
    dsimp only
    have hprot : IsPte P (P ||| (if flags &&& armPteU ≠ 0 then (if flags &&& armPteRw ≠ 0 then k.upteRw else k.upteRo)
        else if flags &&& armPteRw ≠ 0 then k.kpteRw else k.kpteRo)) := by
      refine hbase _ ?_
      split_ifs
      · exact hk.upteRw
      · exact hk.upteRo
      · exact hk.kpteRw
      · exact hk.kpteRo
    generalize P ||| (if flags &&& armPteU ≠ 0 then (if flags &&& armPteRw ≠ 0 then k.upteRw else k.upteRo)
        else if flags &&& armPteRw ≠ 0 then k.kpteRw else k.kpteRo) = w at hprot
    have hnc : IsPte P (if flags &&& armPteCb ≠ armPteCb then bic w k.maskNc else w) := by
      split
      · exact hprot.bic hP hlt hk.maskNc.1 hk.maskNc.2
      · exact hprot
    generalize (if flags &&& armPteCb ≠ armPteCb then bic w k.maskNc else w) = w' at hnc
    split
    · have hor := hnc.or (hmask flags (0x400 ||| 0x1c0 ||| armPteCb) (by decide))
      split
      · exact hor.or (by decide)
      · exact hor
    · exact hnc.or (hmask flags (0x3c0 ||| armPteCb) (by decide))

/-- 続きのページの項目。番地は 32 ビットで折り返す。 -/
theorem IsPte.next (hP : 2 ^ 12 ∣ P) (h : IsPte P w) (j : Nat) :
    IsPte (wrap32 (P + j * pageSize)) (wrap32 (w + j * pageSize)) := by
  obtain ⟨a, ha, hbit, rfl⟩ := h
  refine ⟨a, ha, hbit, ?_⟩
  have hdvd : 2 ^ 12 ∣ wrap32 (P + j * pageSize) := by
    unfold wrap32 pageSize
    omega
  rw [or_low hdvd ha, or_low hP ha]
  unfold wrap32 pageSize at *
  omega

/-- 項目は有効であり、ページの番地を保つ。 -/
theorem IsPte.read (hP : 2 ^ 12 ∣ P) (hlt : P < 2 ^ 32) (h : IsPte P w) : ¬ w % 4 < 2 ∧ Startup.bic w pgMask = P ∧ w < 2 ^ 32 := by
  obtain ⟨a, ha, hbit, rfl⟩ := h
  have hmod : 2 ≤ a % 4 := by
    rw [Nat.testBit_eq_decide_div_mod_eq] at hbit
    have := of_decide_eq_true hbit
    omega
  rw [or_low hP ha, bic_pgMask (by omega)]
  omega

end

/-! ## `arm_map` の繰り返し -/

section

variable {k : ArmvPte} {b : MmuBase}

/-- 写す大きさはページの倍数である。 -/
theorem roundPg_pages (x : Nat) : ∃ m, roundPg x = m * pageSize := by
  rw [roundPg, round, show pageSize = 2 ^ 12 from rfl, trunc_two_pow _ (by decide)]
  exact ⟨_, rfl⟩

theorem bic_page_dvd (x : Nat) : 2 ^ 12 ∣ bic x pgMask ∧ bic x pgMask < 2 ^ 32 := by
  have hlt : bic x pgMask < 2 ^ 32 := Nat.and_le_right.trans_lt (by decide)
  have hmod : bic x pgMask = bic (wrap32 x) pgMask := by
    have h := Nat.and_mod_two_pow (a := x) (b := 2 ^ 32 - 1 - pgMask) (n := 32)
    rw [Nat.mod_eq_of_lt (a := x &&& _) hlt] at h
    exact h
  refine ⟨?_, hlt⟩
  rw [hmod, bic_pgMask (wrap32_lt x)]
  exact Nat.dvd_mul_left _ _

/-- CPU ごとに組の周が性質 `P` を保てば、`arm_map()` の後に `P` が成り立つ。`P` の引数は CPU の番号と写したページの数である。 -/
theorem armMap_rule {P : Nat → Nat → Mmu → Prop} {va pa m : Nat} (hva : va < 2 ^ 32) (hpa : pa < 2 ^ 32) (hend : va / 2 ^ 12 + m ≤ 2 ^ 20)
    (hnext : ∀ c < b.numCpu, ∀ s, P c m s → P (c + 1) 0 s)
    (hstep : ∀ c < b.numCpu, ∀ t < m, ∀ s s', P c t s → armMapGroup k b s (b.l1Word c ((va / 2 ^ 12 + t) / 1024 * 4)) (va + t * pageSize)
      (wrap32 (pa + t * pageSize)) (m - t) = .ok s' → P c (t + min (1024 - (va / 2 ^ 12 + t) % 1024) (m - t)) s')
    {s s' : Mmu} (h0 : P 0 0 s)
    (hok : (List.range b.numCpu).foldlM (fun s cpu => armMapCpuRange k b s cpu va pa (m * pageSize)) s = .ok s') : P b.numCpu 0 s' := by
  refine foldlM_range_rule (Q := fun c => P c 0) (fun c hc s s' hP hok => hnext c hc s' ?_) h0 hok
  have hptp : b.l1Table c + 4 * bic (va >>> 20) 3 = b.l1Word c ((va / 2 ^ 12 + 0) / 1024 * 4) := by
    rw [MmuBase.l1Word, Nat.shiftRight_eq_div_pow, bic_three (by omega)]
    omega
  have hpage : m * pageSize / pageSize = m := Nat.mul_div_cancel _ (by decide)
  rw [armMapCpuRange, hpage] at hok
  refine armMapLoop_rule hend (fun t ht => hstep c hc t ht) (m + 1) 0 s _ (Nat.zero_le _) (by omega) (fun _ => hptp) hP ?_
  rwa [Nat.zero_mul, Nat.add_zero va, Nat.add_zero pa, wrap32_of_lt hva, wrap32_of_lt hpa, Nat.sub_zero]

/-- `arm_map_cpu()` の結果。表は元からあるか、その CPU だけに入れた新しいページである。 -/
theorem armMapCpu_ok (hk : k.Ok) (hb : b.Ok) {s s' : Mmu} (h : Shaped k b s.mem) (hpages : ∀ p ∈ s.pages, b.PageOk p) {cpu : Nat}
    (hcpu : cpu < b.numCpu) {va paddr flags : Nat} (hva : va < 2 ^ 32) (hns : s.mem (b.l1Word cpu (va / 2 ^ 22 * 4)) % 4 ≠ 2)
    (hok : armMapCpu k b s cpu va paddr flags = .ok s') :
    (∃ T, b.IsTable cpu T ∧ TableGroup k b s.mem cpu (va / 2 ^ 22) T ∧
      s' = { s with mem := Function.update s.mem (T + 4 * (va / 2 ^ 12 % 1024)) (setProt k paddr flags) }) ∨
    ∃ T rest, b.PageOk T ∧ s.mem (b.l1Word cpu (va / 2 ^ 22 * 4)) = 0 ∧ s.pages = T :: rest ∧
      s' = { s with
        mem := Function.update (mapPtblCpu k b (zeroPage s.mem T) cpu T va) (T + 4 * (va / 2 ^ 12 % 1024)) (setProt k paddr flags)
        pages := rest } := by
  have hptp : b.l1Table cpu + 4 * bic (va >>> 20) 3 = b.l1Word cpu (va / 2 ^ 22 * 4) := by
    rw [MmuBase.l1Word, Nat.shiftRight_eq_div_pow, bic_three (by omega)]
    omega
  have hi : (va >>> 12) &&& (armL2Size - 1) = va / 2 ^ 12 % 1024 := by
    rw [and_l2, Nat.shiftRight_eq_div_pow]
  unfold armMapCpu at hok
  rw [hptp, hi] at hok
  obtain ⟨⟨s₁, pte⟩, htable, hok⟩ := Except.bind_eq_ok.mp hok
  cases hok
  unfold armMapCpuTable at htable
  rw [and_valid] at htable
  rcases h cpu hcpu (va / 2 ^ 22) (by omega) with hopen | ⟨T, hT, hgroup⟩
  · have hzero : s.mem (b.l1Word cpu (va / 2 ^ 22 * 4)) = 0 := (hopen 0 (by decide)).resolve_right hns
    rw [hzero, if_pos rfl] at htable
    obtain ⟨⟨s₂, p⟩, hcalloc, htable⟩ := Except.bind_eq_ok.mp htable
    cases htable
    obtain ⟨rest, hq, rfl⟩ := callocPage_ok hcalloc
    exact .inr ⟨pte, rest, hpages pte (by rw [hq]; exact List.mem_cons_self), hzero, hq, rfl⟩
  · have hal := hT.align hb hcpu
    obtain ⟨hone, hbase⟩ := hgroup.head hk hal
    rw [hone, if_neg (by decide)] at htable
    cases htable
    rw [hbase]
    exact .inl ⟨T, hT, hgroup, rfl⟩

end

end Imx6Bsp.Startup
