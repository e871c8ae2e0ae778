import Imx6Bsp.Startup.PageTable

/-!
# ページ表の語

表の番地の計算を割り算で表し、表への書き込みが変える語をまとめる。
-/

namespace Imx6Bsp.Startup

open Imx6Bsp.Lib

/-! ## マスク -/

theorem bic_low {x k : Nat} (hx : x < 2 ^ 32) (hk : k ≤ 32) : bic x (2 ^ k - 1) = x / 2 ^ k * 2 ^ k := by
  have h1 := Nat.two_pow_pos k
  rw [bic, show 2 ^ 32 - 1 - (2 ^ k - 1) = 2 ^ 32 - 2 ^ k by omega, land_high_mask hx hk]

theorem bic_pgMask {x : Nat} (hx : x < 2 ^ 32) : bic x pgMask = x / 2 ^ 12 * 2 ^ 12 := bic_low (k := 12) hx (by decide)

theorem bic_scMask {x : Nat} (hx : x < 2 ^ 32) : bic x armScMask = x / 2 ^ 20 * 2 ^ 20 := bic_low (k := 20) hx (by decide)

theorem bic_l2 {x : Nat} (hx : x < 2 ^ 32) : bic x (armL2Size - 1) = x / 2 ^ 10 * 2 ^ 10 := bic_low (k := 10) hx (by decide)

theorem bic_attr {x : Nat} (hx : x < 2 ^ 32) : bic x 0x7f = x / 2 ^ 7 * 2 ^ 7 := bic_low (k := 7) hx (by decide)

theorem bic_three {x : Nat} (hx : x < 2 ^ 32) : bic x 3 = x / 4 * 4 := bic_low (k := 2) hx (by decide)

theorem and_valid (x : Nat) : x &&& armPtpValid = x % 4 := Nat.and_two_pow_sub_one_eq_mod x 2

theorem and_pgMask (x : Nat) : x &&& pgMask = x % 2 ^ 12 := Nat.and_two_pow_sub_one_eq_mod x 12

theorem and_scMask (x : Nat) : x &&& armScMask = x % 2 ^ 20 := Nat.and_two_pow_sub_one_eq_mod x 20

theorem and_l2 (x : Nat) : x &&& (armL2Size - 1) = x % 1024 := Nat.and_two_pow_sub_one_eq_mod x 10

/-- 下の `k` ビットが 0 の値に下のビットを加える。 -/
theorem or_low {k a b : Nat} (ha : 2 ^ k ∣ a) (hb : b < 2 ^ k) : a ||| b = a + b := by
  obtain ⟨q, rfl⟩ := ha
  exact (Nat.two_pow_add_eq_or_of_lt hb q).symm

/-! ## 表の配置 -/

/-- 記述子のビットは、番地のビットと重ならず、種別を正しく表す。 -/
structure ArmvPte.Ok (k : ArmvPte) : Prop where
  upteRo : k.upteRo < 2 ^ 12 ∧ k.upteRo.testBit 1
  upteRw : k.upteRw < 2 ^ 12 ∧ k.upteRw.testBit 1
  kpteRo : k.kpteRo < 2 ^ 12 ∧ k.kpteRo.testBit 1
  kpteRw : k.kpteRw < 2 ^ 12 ∧ k.kpteRw.testBit 1
  maskNc : k.maskNc < 2 ^ 12 ∧ ¬ k.maskNc.testBit 1
  l1Pgtable : k.l1Pgtable < 2 ^ 10 ∧ k.l1Pgtable % 4 = 1
  kscnRo : k.kscnRo < 2 ^ 20 ∧ k.kscnRo % 4 = 2
  kscnRw : k.kscnRw < 2 ^ 20 ∧ k.kscnRw % 4 = 2
  kscnCb : k.kscnCb < 2 ^ 20 ∧ k.kscnCb % 4 = 0
  pteAttr : k.pteAttr < 2 ^ 12

theorem armvPteV7mp_ok : armvPteV7mp.Ok := by constructor <;> decide

/-- L1 の表の並びの先頭。 -/
def MmuBase.l1Base (b : MmuBase) : Nat := b.l1Paddr / 2 ^ 7 * 2 ^ 7

/-- CPU ごとの L1 の表とページディレクトリは、`calloc_ram()` で境界をそろえて取った別々の領域に並ぶ。 -/
structure MmuBase.Ok (b : MmuBase) : Prop where
  cpus : 0 < b.numCpu
  l1Align : 2 ^ 14 ∣ b.l1Base
  l1Paddr : b.l1Paddr + b.numCpu * 2 ^ 14 < 2 ^ 32
  l2Align : 2 ^ 12 ∣ b.l2Paddr
  l2End : b.l2Paddr + b.numCpu * 2 ^ 12 ≤ 2 ^ 32
  apart : b.l1Base + b.numCpu * 2 ^ 14 ≤ b.l2Paddr ∨ b.l2Paddr + b.numCpu * 2 ^ 12 ≤ b.l1Base

section

variable {k : ArmvPte} {b : MmuBase} {cpu cpu' : Nat}

theorem MmuBase.l1Table_eq (hb : b.Ok) (hcpu : cpu < b.numCpu) : b.l1Table cpu = b.l1Base + cpu * 2 ^ 14 := by
  have hmul : cpu * 2 ^ 14 ≤ b.numCpu * 2 ^ 14 := Nat.mul_le_mul_right _ hcpu.le
  have hend := hb.l1Paddr
  have hlt : b.l1Paddr + cpu * armL1Size < 2 ^ 32 := (Nat.add_le_add_left hmul b.l1Paddr).trans_lt hend
  rw [MmuBase.l1Table, wrap32_of_lt hlt, bic_attr hlt, MmuBase.l1Base, armL1Size]
  omega

theorem MmuBase.l2Table_eq (hb : b.Ok) (hcpu : cpu < b.numCpu) : b.l2Table cpu = b.l2Paddr + cpu * 2 ^ 12 := by
  have hmul : (cpu + 1) * 2 ^ 12 ≤ b.numCpu * 2 ^ 12 := Nat.mul_le_mul_right _ hcpu
  have hle := hb.l2End
  rw [MmuBase.l2Table, pageSize, wrap32_of_lt (by omega)]
  omega

/-- L1 の表の `j` 番目の語の番地。 -/
def MmuBase.l1Word (b : MmuBase) (cpu j : Nat) : Nat := b.l1Table cpu + 4 * j

/-- 番地 `x` は L1 の表の外にある。 -/
def MmuBase.OffL1 (b : MmuBase) (x : Nat) : Prop := x < b.l1Base ∨ b.l1Base + b.numCpu * 2 ^ 14 ≤ x

/-- 番地 `x` はページディレクトリの外にある。 -/
def MmuBase.OffL2 (b : MmuBase) (x : Nat) : Prop := x < b.l2Paddr ∨ b.l2Paddr + b.numCpu * 2 ^ 12 ≤ x

theorem l1Word_inj (hb : b.Ok) (hcpu : cpu < b.numCpu) (hcpu' : cpu' < b.numCpu) {j j' : Nat} (hj : j < 4096) (hj' : j' < 4096) :
    b.l1Word cpu j = b.l1Word cpu' j' ↔ cpu = cpu' ∧ j = j' := by
  rw [MmuBase.l1Word, MmuBase.l1Word, MmuBase.l1Table_eq hb hcpu, MmuBase.l1Table_eq hb hcpu']
  omega

theorem l1Word_inside (hb : b.Ok) (hcpu : cpu < b.numCpu) {j : Nat} (hj : j < 4096) : ¬ b.OffL1 (b.l1Word cpu j) := by
  have hmul : (cpu + 1) * 2 ^ 14 ≤ b.numCpu * 2 ^ 14 := Nat.mul_le_mul_right _ hcpu
  rw [MmuBase.OffL1, MmuBase.l1Word, MmuBase.l1Table_eq hb hcpu]
  omega

/-- ページディレクトリの中の番地は、L1 の表の外にある。 -/
theorem offL1_l2Table (hb : b.Ok) (hcpu : cpu < b.numCpu) {x : Nat} (hx : b.l2Table cpu ≤ x) (hx' : x < b.l2Table cpu + 2 ^ 12) :
    b.OffL1 x ∧ ¬ b.OffL2 x := by
  have hmul : (cpu + 1) * 2 ^ 12 ≤ b.numCpu * 2 ^ 12 := Nat.mul_le_mul_right _ hcpu
  have hap := hb.apart
  rw [MmuBase.l2Table_eq hb hcpu] at hx hx'
  unfold MmuBase.OffL1 MmuBase.OffL2
  omega

/-- 表に使えるページ。境界がそろい、L1 の表とページディレクトリの外にある。 -/
structure MmuBase.PageOk (b : MmuBase) (p : Nat) : Prop where
  align : 2 ^ 12 ∣ p
  stop : p + 2 ^ 12 ≤ 2 ^ 32
  offL1 : ∀ x, p ≤ x → x < p + 2 ^ 12 → b.OffL1 x
  offL2 : ∀ x, p ≤ x → x < p + 2 ^ 12 → b.OffL2 x

/-- 4 メガバイトの組の表。取ったページか、その CPU のページディレクトリである。 -/
def MmuBase.IsTable (b : MmuBase) (cpu T : Nat) : Prop := b.PageOk T ∨ T = b.l2Table cpu

theorem MmuBase.IsTable.align (hb : b.Ok) (hcpu : cpu < b.numCpu) {T : Nat} (h : b.IsTable cpu T) :
    2 ^ 12 ∣ T ∧ T + 2 ^ 12 ≤ 2 ^ 32 := by
  rcases h with h | rfl
  · exact ⟨h.align, h.stop⟩
  · have hmul : (cpu + 1) * 2 ^ 12 ≤ b.numCpu * 2 ^ 12 := Nat.mul_le_mul_right _ hcpu
    have hle := hb.l2End
    have hal := hb.l2Align
    rw [MmuBase.l2Table_eq hb hcpu]
    omega

theorem MmuBase.IsTable.offL1 (hb : b.Ok) (hcpu : cpu < b.numCpu) {T x : Nat} (h : b.IsTable cpu T) (hx : T ≤ x)
    (hx' : x < T + 2 ^ 12) : b.OffL1 x := by
  rcases h with h | rfl
  · exact h.offL1 x hx hx'
  · exact (offL1_l2Table hb hcpu hx hx').1

/-! ## 表への書き込み -/

variable {mem : WordMem} {vaddr ptbl : Nat}

/-- `map_ptbl_cpu()` が書いた後の L1 の語。 -/
theorem mapPtblCpu_l1 (hb : b.Ok) (hcpu : cpu < b.numCpu) (hcpu' : cpu' < b.numCpu) (hv : vaddr < 2 ^ 32) {j : Nat} (hj : j < 4096) :
    mapPtblCpu k b mem cpu ptbl vaddr (b.l1Word cpu' j) =
      if cpu' = cpu ∧ j / 4 = vaddr / 2 ^ 22 then wrap32 (ptbl + j % 4 * armL2Size) ||| k.l1Pgtable else mem (b.l1Word cpu' j) := by
  have hl2 : b.l1Word cpu' j ≠ b.l2Table cpu + 4 * (vaddr / 2 ^ 22) := fun heq => by
    have hin := l1Word_inside hb hcpu' hj
    rw [heq] at hin
    exact hin (offL1_l2Table hb hcpu (by omega) (by omega)).1
  have hptp : ∀ i < 4, b.l1Table cpu + 4 * bic (vaddr >>> 20) 3 + 4 * i = b.l1Word cpu (vaddr / 2 ^ 22 * 4 + i) := by
    intro i hi
    rw [MmuBase.l1Word, Nat.shiftRight_eq_div_pow, bic_three (by omega)]
    omega
  have hword : ∀ i < 4, (b.l1Word cpu' j = b.l1Word cpu (vaddr / 2 ^ 22 * 4 + i) ↔ cpu' = cpu ∧ j = vaddr / 2 ^ 22 * 4 + i) :=
    fun i hi => l1Word_inj hb hcpu' hcpu hj (by omega)
  simp only [mapPtblCpu, List.range_succ, List.range_zero, List.nil_append, List.cons_append, List.foldl_cons, List.foldl_nil,
    Nat.shiftRight_eq_div_pow _ 22]
  rw [hptp 0 (by decide), hptp 1 (by decide), hptp 2 (by decide), hptp 3 (by decide)]
  simp only [Function.update_apply, hword 0 (by decide), hword 1 (by decide), hword 2 (by decide), hword 3 (by decide), if_neg hl2]
  by_cases hc : cpu' = cpu ∧ j / 4 = vaddr / 2 ^ 22
  · rw [if_pos hc]
    have hmod : j = vaddr / 2 ^ 22 * 4 + j % 4 := by omega
    have h4 : j % 4 = 0 ∨ j % 4 = 1 ∨ j % 4 = 2 ∨ j % 4 = 3 := by omega
    rcases h4 with h | h | h | h
    all_goals
      rw [h] at hmod ⊢
      simp only [hc.1, hmod, true_and]
      simp
  · rw [if_neg hc, if_neg (by omega), if_neg (by omega), if_neg (by omega), if_neg (by omega)]

/-- `map_ptbl_cpu()` は、L1 の表とページディレクトリの外の語を変えない。 -/
theorem mapPtblCpu_off (hb : b.Ok) (hcpu : cpu < b.numCpu) (hv : vaddr < 2 ^ 32) {x : Nat} (h1 : b.OffL1 x) (h2 : b.OffL2 x) :
    mapPtblCpu k b mem cpu ptbl vaddr x = mem x := by
  have hl2 : x ≠ b.l2Table cpu + 4 * (vaddr / 2 ^ 22) := fun heq =>
    (offL1_l2Table hb hcpu (x := x) (by omega) (by omega)).2 h2
  have hptp : ∀ i < 4, x ≠ b.l1Table cpu + 4 * bic (vaddr >>> 20) 3 + 4 * i := by
    intro i hi heq
    rw [Nat.shiftRight_eq_div_pow, bic_three (by omega)] at heq
    have hin := l1Word_inside hb hcpu (j := vaddr / 2 ^ 22 * 4 + i) (by omega)
    rw [MmuBase.l1Word] at hin
    exact hin (by rwa [show b.l1Table cpu + 4 * (vaddr / 2 ^ 22 * 4 + i) = x by omega])
  simp only [mapPtblCpu, List.range_succ, List.range_zero, List.nil_append, List.cons_append, List.foldl_cons, List.foldl_nil,
    Nat.shiftRight_eq_div_pow _ 22]
  rw [Function.update_of_ne (hptp 3 (by decide)), Function.update_of_ne (hptp 2 (by decide)),
    Function.update_of_ne (hptp 1 (by decide)), Function.update_of_ne (hptp 0 (by decide)), Function.update_of_ne hl2]

/-- すべての CPU について表を入れた後の L1 の語。 -/
theorem mapAll_l1 (hb : b.Ok) (hv : vaddr < 2 ^ 32) (pt : Nat → Nat) (cpus : List Nat) (hcpus : ∀ c ∈ cpus, c < b.numCpu)
    (hcpu' : cpu' < b.numCpu) {j : Nat} (hj : j < 4096) : ∀ mem,
      cpus.foldl (fun mem cpu => mapPtblCpu k b mem cpu (pt cpu) vaddr) mem (b.l1Word cpu' j) =
        if cpu' ∈ cpus ∧ j / 4 = vaddr / 2 ^ 22 then wrap32 (pt cpu' + j % 4 * armL2Size) ||| k.l1Pgtable else mem (b.l1Word cpu' j) := by
  induction cpus with
  | nil => exact fun mem => (if_neg (fun h => List.not_mem_nil h.1)).symm
  | cons c cpus ih =>
      intro mem
      rw [List.foldl_cons, ih fun x hx => hcpus x (List.mem_cons_of_mem _ hx),
        mapPtblCpu_l1 hb (hcpus c List.mem_cons_self) hcpu' hv hj]
      by_cases hg : j / 4 = vaddr / 2 ^ 22
      · by_cases hmem : cpu' ∈ cpus
        · simp [hg, hmem]
        · by_cases hc : cpu' = c
          · simp [hg, hc]
          · simp [hg, hmem, hc]
      · rw [if_neg fun h => hg h.2, if_neg fun h => hg h.2, if_neg fun h => hg h.2]

theorem mapAll_off (hb : b.Ok) (hv : vaddr < 2 ^ 32) (pt : Nat → Nat) (cpus : List Nat) (hcpus : ∀ c ∈ cpus, c < b.numCpu) {x : Nat}
    (h1 : b.OffL1 x) (h2 : b.OffL2 x) : ∀ mem,
      cpus.foldl (fun mem cpu => mapPtblCpu k b mem cpu (pt cpu) vaddr) mem x = mem x := by
  induction cpus with
  | nil => exact fun mem => rfl
  | cons c cpus ih =>
      intro mem
      rw [List.foldl_cons, ih fun x hx => hcpus x (List.mem_cons_of_mem _ hx),
        mapPtblCpu_off hb (hcpus c List.mem_cons_self) hv h1 h2]

/-- `arm_scmap()` が書いた後の L1 の語。 -/
theorem scmap_l1 (hb : b.Ok) (hv : vaddr < 2 ^ 32) (w : Nat) (cpus : List Nat) (hcpus : ∀ c ∈ cpus, c < b.numCpu)
    (hcpu' : cpu' < b.numCpu) {j : Nat} (hj : j < 4096) : ∀ mem : WordMem,
      cpus.foldl (fun mem cpu => Function.update mem (b.l1Table cpu + 4 * (vaddr >>> 20)) w) mem (b.l1Word cpu' j) =
        if cpu' ∈ cpus ∧ j = vaddr / 2 ^ 20 then w else mem (b.l1Word cpu' j) := by
  induction cpus with
  | nil => exact fun mem => (if_neg (fun h => List.not_mem_nil h.1)).symm
  | cons c cpus ih =>
      intro mem
      have hinj : b.l1Word cpu' j = b.l1Word c (vaddr / 2 ^ 20) ↔ cpu' = c ∧ j = vaddr / 2 ^ 20 :=
        l1Word_inj hb hcpu' (hcpus c List.mem_cons_self) hj (by omega)
      rw [List.foldl_cons, ih fun x hx => hcpus x (List.mem_cons_of_mem _ hx), Nat.shiftRight_eq_div_pow]
      change (if _ then _ else Function.update mem (b.l1Word c (vaddr / 2 ^ 20)) w (b.l1Word cpu' j)) = _
      rw [Function.update_apply]
      simp only [hinj, List.mem_cons]
      by_cases hjv : j = vaddr / 2 ^ 20
      · by_cases hmem : cpu' ∈ cpus
        · rw [if_pos ⟨hmem, hjv⟩, if_pos ⟨.inr hmem, hjv⟩]
        · by_cases hc : cpu' = c
          · rw [if_neg fun h => hmem h.1, if_pos ⟨hc, hjv⟩, if_pos ⟨.inl hc, hjv⟩]
          · rw [if_neg fun h => hmem h.1, if_neg fun h => hc h.1, if_neg fun h => h.1.elim hc hmem]
      · rw [if_neg fun h => hjv h.2, if_neg fun h => hjv h.2, if_neg fun h => hjv h.2]

/-! ## ページの項目への書き込み -/

/-- 番地 `pte` からの `n` 個の項目に、`pa` から続くページを書いた記憶。 -/
def fillWords (mem : WordMem) (pte pa n : Nat) : WordMem := fun x =>
  if pte ≤ x ∧ x < pte + 4 * n ∧ (x - pte) % 4 = 0 then wrap32 (pa + (x - pte) / 4 * pageSize) else mem x

theorem fillWords_out {pte pa n x : Nat} (h : x < pte ∨ pte + 4 * n ≤ x) : fillWords mem pte pa n x = mem x :=
  if_neg (by omega)

theorem fillWords_in {pte pa n i : Nat} (h : i < n) : fillWords mem pte pa n (pte + 4 * i) = wrap32 (pa + i * pageSize) := by
  rw [fillWords, if_pos ⟨by omega, by omega, by omega⟩, show (pte + 4 * i - pte) / 4 = i by omega]

theorem fillWords_succ (mem : WordMem) {pte pa n : Nat} (hpa : pa < 2 ^ 32) :
    fillWords (Function.update mem pte pa) (pte + 4) (wrap32 (pa + pageSize)) n = fillWords mem pte pa (n + 1) := by
  funext x
  unfold fillWords
  by_cases hx : x = pte
  · subst hx
    rw [if_neg (by omega), if_pos ⟨le_rfl, by omega, by omega⟩, Function.update_self, Nat.sub_self, Nat.zero_div, Nat.zero_mul,
      Nat.add_zero, wrap32_of_lt hpa]
  · rw [Function.update_of_ne hx]
    by_cases hin : pte + 4 ≤ x ∧ x < pte + 4 + 4 * n ∧ (x - (pte + 4)) % 4 = 0
    · rw [if_pos hin, if_pos (by omega), show (x - pte) / 4 = (x - (pte + 4)) / 4 + 1 by omega]
      unfold wrap32 pageSize
      omega
    · rw [if_neg hin, if_neg (by omega)]

/-- 内側の繰り返しは、項目とページの少ない方の数だけ書く。 -/
theorem armMapFill_eq (n : Nat) : ∀ (mem : WordMem) (pte pa va m : Nat), pa < 2 ^ 32 → va < 2 ^ 32 →
    armMapFill n mem pte pa va (m * pageSize) =
      (fillWords mem pte pa (min n m), wrap32 (pa + min n m * pageSize), wrap32 (va + min n m * pageSize),
        (m - min n m) * pageSize) := by
  induction n with
  | zero =>
      intro mem pte pa va m hpa hva
      have hfill : fillWords mem pte pa 0 = mem := funext fun x => if_neg (by omega)
      rw [armMapFill, Nat.zero_min, hfill, Nat.zero_mul, Nat.add_zero, Nat.add_zero, wrap32_of_lt hpa, wrap32_of_lt hva, Nat.sub_zero]
  | succ n ih =>
      intro mem pte pa va m hpa hva
      cases m with
      | zero =>
          have hfill : fillWords mem pte pa 0 = mem := funext fun x => if_neg (by omega)
          rw [armMapFill, if_pos (Nat.zero_mul _), Nat.min_zero, hfill, Nat.zero_mul, Nat.add_zero, Nat.add_zero, wrap32_of_lt hpa,
            wrap32_of_lt hva]
      | succ m =>
          have hsz : (m + 1) * pageSize - pageSize = m * pageSize := by
            rw [Nat.add_mul, Nat.one_mul, Nat.add_sub_cancel]
          rw [armMapFill, if_neg (by unfold pageSize; omega), hsz, ih _ _ _ _ _ (wrap32_lt _) (wrap32_lt _), fillWords_succ mem hpa,
            Nat.add_min_add_right]
          have hwrap : ∀ x j, wrap32 (wrap32 (x + pageSize) + j * pageSize) = wrap32 (x + (j + 1) * pageSize) := by
            intro x j
            unfold wrap32 pageSize
            omega
          rw [hwrap, hwrap, Nat.add_sub_add_right]

/-- 表の中の項目への書き込みは、L1 の表を変えない。 -/
theorem MmuBase.IsTable.fill_offL1 (hb : b.Ok) (hcpu : cpu < b.numCpu) {T i n : Nat} (h : b.IsTable cpu T) (hn : i + n ≤ 1024)
    (mem : WordMem) (pa : Nat) {x : Nat} (hx : ¬ b.OffL1 x) : fillWords mem (T + 4 * i) pa n x = mem x := by
  refine fillWords_out ?_
  by_contra hin
  exact hx (h.offL1 hb hcpu (by omega) (by omega))

theorem MmuBase.IsTable.update_offL1 (hb : b.Ok) (hcpu : cpu < b.numCpu) {T i : Nat} (h : b.IsTable cpu T) (hi : i < 1024)
    (mem : WordMem) (w : Nat) {x : Nat} (hx : ¬ b.OffL1 x) : Function.update mem (T + 4 * i) w x = mem x := by
  refine Function.update_of_ne (fun heq => hx ?_) _ _
  exact h.offL1 hb hcpu (by omega) (by omega)

end

end Imx6Bsp.Startup
