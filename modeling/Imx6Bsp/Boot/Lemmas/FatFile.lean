import Imx6Bsp.Boot.FatGeometry

/-!
# `fat_copy_file()` の読み込みの補題

最後の FAT の読み込みの結果は使わないので、その成否は問わない。
-/

namespace Imx6Bsp.Boot

open Imx6Bsp.Lib Imx6Bsp.Startup

/-! ## カードの上のファイル -/

section

variable (card : Card) (fsInfo : FsInfo)

def clusterBytes : Nat := fsInfo.clusterSize * sectSize

/-- カードにある FAT の項。 -/
def fatEntry (clust : Nat) : Nat :=
  Mem.readLE (card.block (wrap32 (wrap32 (fsInfo.fat1Start + wrap32 (clust * 4) / sectSize) + fsInfo.fsOffset)))
    (wrap32 (clust * 4) % sectSize) 4 &&& 0x0fffffff

/-- `clust` から始まる連鎖の `i` 番目のクラスタ。 -/
def fatChain (clust : Nat) : Nat → Nat
  | 0 => clust
  | i + 1 => fatEntry card fsInfo (fatChain clust i)

theorem fatChain_succ (clust i : Nat) : fatChain card fsInfo clust (i + 1) = fatChain card fsInfo (fatEntry card fsInfo clust) i := by
  induction i with
  | zero => rfl
  | succ i ih =>
      rw [fatChain, ih]
      rfl

/-- データのクラスタの番号。 -/
def IsData (clust : Nat) : Prop := 2 ≤ clust ∧ clust < fsInfo.countOfClusters + 2 ∧ clust < 0x0ffffff7

/-- クラスタの `i` バイト目。 -/
def clusterByte (clust i : Nat) : UInt8 :=
  card.block (wrap32 (clust2fsect fsInfo clust + fsInfo.fsOffset + i / sectSize)) (i % sectSize)

/-- 連鎖のクラスタをつないだ `i` バイト目。 -/
def fileByte (clust i : Nat) : UInt8 :=
  clusterByte card fsInfo (fatChain card fsInfo clust (i / clusterBytes fsInfo)) (i % clusterBytes fsInfo)

/-- 使った読み込みはすべて成功し、`size` バイトに足りるだけのデータのクラスタがあり、`buf` にはその内容だけを書いた。 -/
structure Loaded (clust size buf : Nat) (s s' : FatState) : Prop where
  reads : ∀ r, s.reads ≤ r → r + 1 < s'.reads → card.fails r = false
  chain : ∀ i, i * clusterBytes fsInfo < size → IsData fsInfo (fatChain card fsInfo clust i)
  content : ∀ i < size, s'.mem (buf + i) = fileByte card fsInfo clust i
  frame : ∀ x, x < buf ∨ buf + size ≤ x → s'.mem x = s.mem x

/-! ## 読み込みの成否 -/

/-- `txf` バイトの `read_clust()` の読み込みの回数。 -/
def dataReads (txf : Nat) : Nat := (if txf / sectSize ≠ 0 then 1 else 0) + if txf % sectSize ≠ 0 then 1 else 0

/-- `n` 回目の読み込みから始めて、`i` 番目にたどるクラスタ。FAT を読めなければ 0 である。 -/
def visited (clust n : Nat) : Nat → Nat
  | 0 => clust
  | i + 1 => if card.fails (n + 2 * i + 1) then 0 else fatEntry card fsInfo (visited clust n i)

/-- `n` 回目の読み込みから始めて、終わりの印より前のクラスタの読み込みが失敗する。 -/
def ReadFails (clust size n : Nat) : Prop :=
  ∃ k, k * clusterBytes fsInfo < size ∧ (∀ j ≤ k, endOfFile (visited card fsInfo clust n j) = false) ∧
    ∃ j < dataReads (min (size - k * clusterBytes fsInfo) (clusterBytes fsInfo)), card.fails (n + 2 * k + j) = true

/-- 必要なクラスタはすべてデータのクラスタで、その間の FAT の読み込みは成功する。 -/
structure SoundChain (clust size n : Nat) : Prop where
  data : ∀ i, i * clusterBytes fsInfo < size → IsData fsInfo (fatChain card fsInfo clust i)
  links : ∀ i, (i + 1) * clusterBytes fsInfo < size → card.fails (n + 2 * i + 1) = false

end

variable {card : Card} {fsInfo : FsInfo} {s s' : FatState} {clust buf : Nat}

/-! ## 一つのクラスタ -/

theorem transfer_ok {n blkno : Nat} (h : card.fails n = false) (i : Nat) :
    card.transfer n blkno i = card.block (wrap32 (blkno + i / sectSize)) (i % sectSize) := by
  rw [Card.transfer, h]
  rfl

variable (card fsInfo)

theorem readFsect_spec (s : FatState) (sector buf cnt : Nat) :
    (card.fails s.reads = true ∧ ∃ s', readFsect card fsInfo s sector buf cnt = (.error, s')) ∨
      (card.fails s.reads = false ∧ ∃ s', readFsect card fsInfo s sector buf cnt = (.ok, s') ∧ s'.reads = s.reads + 1 ∧
        s'.mem = Mem.fill s.mem buf (cnt * sectSize) fun i =>
          card.block (wrap32 (sector + fsInfo.fsOffset + i / sectSize)) (i % sectSize)) := by
  unfold readFsect readStatus
  cases hfail : card.fails s.reads with
  | true => exact .inl ⟨rfl, _, rfl⟩
  | false =>
      refine .inr ⟨rfl, _, rfl, rfl, ?_⟩
      apply Mem.fill_congr
      intro i _
      rw [transfer_ok hfail]
      congr 1
      unfold wrap32
      omega

theorem readFsectBlk_spec (s : FatState) (sector : Nat) :
    (card.fails s.reads = true ∧ ∃ s', readFsectBlk card fsInfo s sector = (.error, s') ∧ s'.reads = s.reads + 1 ∧ s'.mem = s.mem) ∨
      (card.fails s.reads = false ∧ ∃ s', readFsectBlk card fsInfo s sector = (.ok, s') ∧ s'.reads = s.reads + 1 ∧ s'.mem = s.mem ∧
        ∀ i < sectSize, s'.blk i = card.block (wrap32 (sector + fsInfo.fsOffset)) i) := by
  unfold readFsectBlk readStatus
  cases hfail : card.fails s.reads with
  | true => exact .inl ⟨rfl, _, rfl, rfl, rfl⟩
  | false =>
      refine .inr ⟨rfl, _, rfl, rfl, rfl, fun i hi => ?_⟩
      have hin := Mem.fill_in (m := s.blk) (a := 0) (f := card.transfer s.reads (wrap32 (sector + fsInfo.fsOffset))) hi
      rw [Nat.zero_add, transfer_ok hfail, Nat.div_eq_of_lt hi, Nat.mod_eq_of_lt hi, Nat.add_zero, wrap32_of_lt (wrap32_lt _)] at hin
      exact hin

theorem fatGetFatEntry_spec (s : FatState) (clust : Nat) : ∃ s', s'.mem = s.mem ∧ s'.reads = s.reads + 1 ∧
    fatGetFatEntry card fsInfo s clust = (if card.fails s.reads then 0 else fatEntry card fsInfo clust, s') := by
  unfold fatGetFatEntry
  dsimp only
  rcases readFsectBlk_spec card fsInfo s (wrap32 (fsInfo.fat1Start + wrap32 (clust * 4) / sectSize)) with
    ⟨hfail, s', hread, hreads, hmem⟩ | ⟨hfail, s', hread, hreads, hmem, hblk⟩
  · rw [hread, hfail]
    exact ⟨s', hmem, hreads, rfl⟩
  · rw [hread, hfail]
    refine ⟨s', hmem, hreads, ?_⟩
    have hoffs : wrap32 (clust * 4) % sectSize + 4 ≤ sectSize := by
      unfold wrap32 sectSize
      omega
    have hentry : s'.blk.readLE (wrap32 (clust * 4) % sectSize) 4 = _ :=
      Mem.readLE_congr fun i hi => hblk (wrap32 (clust * 4) % sectSize + i) (by omega)
    rw [if_neg Bool.false_ne_true, fatEntry, ← hentry]

omit card in
/-- `read_clust()` の端数の計算。 -/
theorem clusterSplit {txf : Nat} (hle : txf ≤ clusterBytes fsInfo) :
    (if txf / sectSize ≥ fsInfo.clusterSize then fsInfo.clusterSize else txf / sectSize) = txf / sectSize ∧
      (if txf / sectSize ≥ fsInfo.clusterSize then 0 else txf % sectSize) = txf % sectSize := by
  unfold clusterBytes sectSize at *
  split_ifs with hfull
  · omega
  · exact ⟨rfl, rfl⟩

/-- 端数を読むところ。 -/
theorem readRest_spec (sectors : Nat) {rest : Nat} (s : FatState) (clust buf : Nat) (hrest : rest < sectSize) :
    (∃ s', readRest card fsInfo s clust buf sectors rest = (.error, s') ∧ rest ≠ 0 ∧ card.fails s.reads = true) ∨
      ∃ s', readRest card fsInfo s clust buf sectors rest = (.ok, s') ∧ (rest ≠ 0 → card.fails s.reads = false) ∧
        s'.reads = s.reads + (if rest ≠ 0 then 1 else 0) ∧
        s'.mem = Mem.fill s.mem (buf + sectors * sectSize) rest fun i => clusterByte card fsInfo clust (sectors * sectSize + i) := by
  unfold readRest
  by_cases hzero : rest = 0
  · right
    subst hzero
    refine ⟨s, rfl, fun h => absurd rfl h, rfl, ?_⟩
    funext x
    exact (Mem.fill_out (by omega)).symm
  · rw [if_pos hzero, if_pos hzero]
    rcases readFsectBlk_spec card fsInfo s (wrap32 (clust2fsect fsInfo clust + sectors)) with
      ⟨hfail, s', hread, hreads, hmem⟩ | ⟨hfail, s', hread, hreads, hmem, hblk⟩
    · rw [hread]
      exact .inl ⟨s', rfl, hzero, hfail⟩
    · rw [hread]
      refine .inr ⟨_, rfl, fun _ => hfail, hreads, ?_⟩
      dsimp only
      rw [hmem]
      apply Mem.fill_congr
      intro i hi
      have hdiv : (sectors * sectSize + i) / sectSize = sectors := by
        unfold sectSize at *
        omega
      have hmod : (sectors * sectSize + i) % sectSize = i := by
        unfold sectSize at *
        omega
      rw [hblk i (hi.trans hrest), clusterByte, hdiv, hmod]
      congr 1
      unfold wrap32
      omega

/-- 一つのクラスタの読み込み。 -/
theorem readClust_spec {txf : Nat} (s : FatState) (clust buf : Nat) (hle : txf ≤ clusterBytes fsInfo) :
    (∃ s', readClust card fsInfo s clust buf txf = (.error, s') ∧ ∃ j < dataReads txf, card.fails (s.reads + j) = true) ∨
      ∃ s', readClust card fsInfo s clust buf txf = (.ok, s') ∧ (∀ j < dataReads txf, card.fails (s.reads + j) = false) ∧
        s'.reads = s.reads + dataReads txf ∧ s'.mem = Mem.fill s.mem buf txf (clusterByte card fsInfo clust) := by
  have hsplit := Nat.div_add_mod' txf sectSize
  unfold readClust
  rw [(clusterSplit fsInfo hle).1, (clusterSplit fsInfo hle).2]
  unfold dataReads
  generalize txf / sectSize = sectors at *
  generalize hrest : txf % sectSize = rest at *
  have hrestLt : rest < sectSize := hrest ▸ Nat.mod_lt _ (by decide)
  dsimp only
  by_cases hsectors : sectors = 0
  · subst hsectors
    rw [Nat.zero_mul, Nat.zero_add] at hsplit
    subst hsplit
    rw [if_neg (not_not.mpr rfl), if_neg (not_not.mpr rfl), Nat.zero_add]
    rcases readRest_spec card fsInfo 0 s clust buf hrestLt with
      ⟨s', hread, hne, hfail⟩ | ⟨s', hread, hok, hreads, hmem⟩
    · refine .inl ⟨s', hread, 0, ?_, hfail⟩
      rw [if_pos hne]
      exact Nat.one_pos
    · refine .inr ⟨s', hread, fun j hj => ?_, hreads, ?_⟩
      · split_ifs at hj with hne
        · rw [Nat.lt_one_iff.mp hj]
          exact hok hne
        · exact absurd hj (Nat.not_lt_zero j)
      · simpa using hmem
  · rw [if_pos hsectors, if_pos hsectors]
    rcases readFsect_spec card fsInfo s (clust2fsect fsInfo clust) buf sectors with
      ⟨hfail, s₁, hread⟩ | ⟨hfail, s₁, hread, hreads, hmem⟩
    · rw [hread]
      exact .inl ⟨s₁, rfl, 0, by omega, hfail⟩
    · rw [hread]
      dsimp only
      rcases readRest_spec card fsInfo sectors s₁ clust buf hrestLt with
        ⟨s', hread', hne, hfail'⟩ | ⟨s', hread', hok, hreads', hmem'⟩
      · refine .inl ⟨s', hread', 1, ?_, ?_⟩
        · rw [if_pos hne]
          exact Nat.one_lt_two
        · rw [← hreads]
          exact hfail'
      · refine .inr ⟨s', hread', fun j hj => ?_, by omega, ?_⟩
        · rcases Nat.eq_zero_or_pos j with rfl | hpos
          · exact hfail
          · split_ifs at hj with hne
            · obtain rfl : j = 1 := by omega
              rw [← hreads]
              exact hok hne
            · omega
        · rw [hmem', hmem, Mem.fill_append, hsplit]
          apply Mem.fill_congr
          intro i _
          split_ifs with hi
          · rfl
          · rw [Nat.add_sub_of_le (by omega)]

/-! ## 繰り返し -/

variable {card fsInfo}

/-- 読み込みの失敗は、先頭のクラスタか、残りのファイルで起こる。 -/
theorem readFails_iff {clust size n : Nat} (hsize : 0 < size) (hend : endOfFile clust = false) :
    ReadFails card fsInfo clust size n ↔
      (∃ j < dataReads (min size (clusterBytes fsInfo)), card.fails (n + j) = true) ∨
        ReadFails card fsInfo (visited card fsInfo clust n 1) (size - clusterBytes fsInfo) (n + 2) := by
  have hshift : ∀ k, visited card fsInfo clust n (k + 1) = visited card fsInfo (visited card fsInfo clust n 1) (n + 2) k := by
    intro k
    induction k with
    | zero => rfl
    | succ k ih =>
        rw [visited, ih, show n + 2 * (k + 1) + 1 = n + 2 + 2 * k + 1 by omega]
        rfl
  constructor
  · rintro ⟨k, hk, hends, j, hj, hfail⟩
    cases k with
    | zero =>
        rw [Nat.zero_mul, Nat.sub_zero] at hj
        exact .inl ⟨j, hj, hfail⟩
    | succ k =>
        rw [Nat.succ_mul] at hk hj
        refine .inr ⟨k, by omega, fun i hi => ?_, j, ?_, ?_⟩
        · rw [← hshift]
          exact hends (i + 1) (Nat.succ_le_succ hi)
        · rw [Nat.sub_sub, Nat.add_comm (clusterBytes fsInfo)]
          exact hj
        · rw [← hfail]
          congr 1
          omega
  · rintro (⟨j, hj, hfail⟩ | ⟨k, hk, hends, j, hj, hfail⟩)
    · refine ⟨0, by omega, fun i hi => ?_, j, ?_, hfail⟩
      · rw [Nat.le_zero.mp hi]
        exact hend
      · rw [Nat.zero_mul, Nat.sub_zero]
        exact hj
    · refine ⟨k + 1, ?_, fun i hi => ?_, j, ?_, ?_⟩
      · rw [Nat.succ_mul]
        omega
      · cases i with
        | zero => exact hend
        | succ i =>
            rw [hshift]
            exact hends i (Nat.le_of_succ_le_succ hi)
      · rw [Nat.succ_mul, Nat.add_comm (k * clusterBytes fsInfo), ← Nat.sub_sub]
        exact hj
      · rw [← hfail]
        congr 1
        omega

/-- 二つ以上のクラスタが要るとき、健全な連鎖は先頭とその先に分かれる。 -/
theorem soundChain_iff {clust size n : Nat} (hlarge : clusterBytes fsInfo < size) :
    SoundChain card fsInfo clust size n ↔ IsData fsInfo clust ∧ card.fails (n + 1) = false ∧
      SoundChain card fsInfo (fatEntry card fsInfo clust) (size - clusterBytes fsInfo) (n + 2) := by
  have hshift := fatChain_succ card fsInfo clust
  constructor
  · intro h
    refine ⟨h.data 0 (by omega), h.links 0 (by omega), fun i hi => ?_, fun i hi => ?_⟩
    · rw [← hshift]
      apply h.data
      rw [Nat.succ_mul]
      omega
    · rw [show n + 2 + 2 * i + 1 = n + 2 * (i + 1) + 1 by omega]
      apply h.links
      rw [Nat.succ_mul]
      omega
  · rintro ⟨hdata, hlink, h⟩
    refine ⟨fun i hi => ?_, fun i hi => ?_⟩
    · cases i with
      | zero => exact hdata
      | succ i =>
          rw [hshift]
          rw [Nat.succ_mul] at hi
          exact h.data i (by omega)
    · cases i with
      | zero => exact hlink
      | succ i =>
          rw [show n + 2 * (i + 1) + 1 = n + 2 + 2 * i + 1 by omega]
          rw [Nat.succ_mul] at hi
          exact h.links i (by omega)

section

variable {clust sz buf : Nat} {s s₂ s' : FatState}

theorem fileByte_head {i : Nat} (hi : i < clusterBytes fsInfo) : fileByte card fsInfo clust i = clusterByte card fsInfo clust i := by
  rw [fileByte, Nat.div_eq_of_lt hi, Nat.mod_eq_of_lt hi]
  rfl

theorem fileByte_tail (hcb : 0 < clusterBytes fsInfo) (i : Nat) :
    fileByte card fsInfo clust (clusterBytes fsInfo + i) = fileByte card fsInfo (fatEntry card fsInfo clust) i := by
  rw [fileByte, Nat.add_div_left _ hcb, Nat.add_mod_left, fatChain_succ]
  rfl

/-- 一つのクラスタに収まるファイル。 -/
theorem loaded_single (hle : sz ≤ clusterBytes fsInfo) (hok : ∀ j < dataReads sz, card.fails (s.reads + j) = false)
    (hreads : s₂.reads = s.reads + dataReads sz + 1) (hmem : s₂.mem = Mem.fill s.mem buf sz (clusterByte card fsInfo clust)) :
    Loaded card fsInfo clust sz buf s s₂ ↔ SoundChain card fsInfo clust sz s.reads := by
  have hone : ∀ i, i * clusterBytes fsInfo < sz → i = 0 := by
    intro i hi
    by_contra hne
    have := Nat.le_mul_of_pos_left (clusterBytes fsInfo) (Nat.pos_of_ne_zero hne)
    omega
  constructor
  · intro h
    exact ⟨h.chain, fun i hi => absurd (hone _ hi) (Nat.succ_ne_zero i)⟩
  · intro h
    refine ⟨fun r hr hlt => ?_, h.data, fun i hi => ?_, fun x hx => ?_⟩
    · obtain ⟨j, rfl⟩ := Nat.exists_eq_add_of_le hr
      exact hok j (by omega)
    · rw [hmem, Mem.fill_in hi, fileByte_head (hi.trans_le hle)]
    · rw [hmem, Mem.fill_out hx]

/-- 一つのクラスタに続きのあるファイル。 -/
theorem loaded_cons (hcb : 0 < clusterBytes fsInfo) (hlarge : clusterBytes fsInfo < sz) (hdata : card.fails s.reads = false)
    (hlink : card.fails (s.reads + 1) = false) (hreads : s₂.reads = s.reads + 2)
    (hmem : s₂.mem = Mem.fill s.mem buf (clusterBytes fsInfo) (clusterByte card fsInfo clust)) :
    Loaded card fsInfo clust sz buf s s' ↔ IsData fsInfo clust ∧
      Loaded card fsInfo (fatEntry card fsInfo clust) (sz - clusterBytes fsInfo) (buf + clusterBytes fsInfo) s₂ s' := by
  constructor
  · intro h
    refine ⟨h.chain 0 (by omega), fun r hr hlt => h.reads r (by omega) hlt, fun i hi => ?_, fun i hi => ?_, fun x hx => ?_⟩
    · rw [← fatChain_succ]
      apply h.chain
      rw [Nat.succ_mul]
      omega
    · rw [← fileByte_tail hcb, Nat.add_assoc]
      exact h.content _ (by omega)
    · by_cases hin : buf ≤ x ∧ x < buf + clusterBytes fsInfo
      · obtain ⟨i, rfl⟩ := Nat.exists_eq_add_of_le hin.1
        have hi : i < clusterBytes fsInfo := by omega
        rw [hmem, Mem.fill_in hi, h.content i (by omega), fileByte_head hi]
      · rw [hmem, Mem.fill_out (by omega), h.frame x (by omega)]
  · rintro ⟨hhead, h⟩
    refine ⟨fun r hr hlt => ?_, fun i hi => ?_, fun i hi => ?_, fun x hx => ?_⟩
    · by_cases hlate : s₂.reads ≤ r
      · exact h.reads r hlate hlt
      · have hr : r = s.reads ∨ r = s.reads + 1 := by omega
        cases hr with
        | inl h => rw [h]; exact hdata
        | inr h => rw [h]; exact hlink
    · cases i with
      | zero => exact hhead
      | succ i =>
          rw [fatChain_succ]
          rw [Nat.succ_mul] at hi
          exact h.chain i (by omega)
    · by_cases hin : i < clusterBytes fsInfo
      · rw [h.frame _ (by omega), hmem, Mem.fill_in hin, fileByte_head hin]
      · obtain ⟨k, rfl⟩ := Nat.exists_eq_add_of_le (Nat.le_of_not_lt hin)
        rw [fileByte_tail hcb, ← Nat.add_assoc]
        exact h.content k (by omega)
    · rw [h.frame x (by omega), hmem, Mem.fill_out (by omega)]

end

variable (card fsInfo) in
/-- `copyFileLoop` の結果。 -/
structure Outcome (clust sz buf : Nat) (s s' : FatState) (status : SdmmcStatus) : Prop where
  error_iff : status = .error ↔ ReadFails card fsInfo clust sz s.reads
  loaded_iff : status = .ok → (Loaded card fsInfo clust sz buf s s' ↔ SoundChain card fsInfo clust sz s.reads)
  reads_le : status = .ok → s.reads ≤ s'.reads
  reads_two : status = .ok → endOfFile clust = false → 0 < sz → s.reads + 2 ≤ s'.reads

theorem dataReads_pos {txf : Nat} (h : 0 < txf) : 0 < dataReads txf := by
  unfold dataReads sectSize
  split_ifs <;> omega

theorem dataReads_cluster (hcb : 0 < clusterBytes fsInfo) : dataReads (clusterBytes fsInfo) = 1 := by
  unfold dataReads clusterBytes sectSize at *
  rw [if_pos (by omega), if_neg (by omega)]

theorem not_data_of_end {clust : Nat} (h : endOfFile clust = true) : ¬ IsData fsInfo clust := by
  have hend := of_decide_eq_true h
  rintro ⟨-, -, hlt⟩
  omega

theorem copyFileLoop_outcome (hcb : 0 < clusterBytes fsInfo) {sz fuel : Nat} (s : FatState) (clust buf : Nat) (hfuel : sz < fuel) :
    ∃ status s', copyFileLoop card fsInfo fuel s clust buf sz = some (status, s') ∧
      Outcome card fsInfo clust sz buf s s' status := by
  induction fuel generalizing s clust buf sz with
  | zero => exact absurd hfuel (Nat.not_lt_zero _)
  | succ fuel ih =>
      rw [copyFileLoop]
      by_cases hstop : endOfFile clust = false ∧ sz > 0
      · rw [if_pos hstop]
        obtain ⟨hend, hpos⟩ := hstop
        have hfails : ReadFails card fsInfo clust sz s.reads ↔ _ := readFails_iff hpos hend
        have htxf : min sz (fsInfo.clusterSize * sectSize) = min sz (clusterBytes fsInfo) := rfl
        dsimp only
        rw [htxf]
        rcases readClust_spec card fsInfo s clust buf (min_le_right sz (clusterBytes fsInfo)) with
          ⟨s₁, hread, hfail⟩ | ⟨s₁, hread, hok, hreads, hmem⟩
        · rw [hread]
          refine ⟨.error, s₁, rfl, iff_of_true rfl (hfails.mpr (.inl hfail)), fun h => ?_, fun h => ?_, fun h => ?_⟩
          · cases h
          · cases h
          · cases h
        · obtain ⟨s₂, hmem₂, hreads₂, hget⟩ := fatGetFatEntry_spec card fsInfo s₁ clust
          rw [hread]
          dsimp only
          rw [hget]
          dsimp only
          rw [hmem] at hmem₂
          have hpos' := dataReads_pos hpos
          rcases Nat.lt_or_ge (clusterBytes fsInfo) sz with hlarge | hle
          · rw [min_eq_right hlarge.le] at *
            rw [dataReads_cluster hcb] at *
            have hone := hok 0 Nat.one_pos
            obtain ⟨status, s', hrun, hout⟩ := ih s₂ (visited card fsInfo clust s.reads 1) (buf + clusterBytes fsInfo)
              (show sz - clusterBytes fsInfo < fuel by omega)
            have hreads₂ : s₂.reads = s.reads + 2 := by omega
            rw [hreads] at hget ⊢
            refine ⟨status, s', hrun, ?_, fun hstatus => ?_, fun hstatus => ?_, fun hstatus _ _ => ?_⟩
            · rw [hout.error_iff, hfails, hreads₂]
              refine ⟨.inr, fun h => h.resolve_left ?_⟩
              rintro ⟨j, hj, hbad⟩
              rw [hok j hj] at hbad
              cases hbad
            · rw [soundChain_iff hlarge]
              cases hlink : card.fails (s.reads + 1) with
              | true =>
                  refine iff_of_false (fun h => ?_) (fun h => ?_)
                  · have hzero : visited card fsInfo clust s.reads 1 = 0 := if_pos hlink
                    have htwo := hout.reads_two hstatus (by rw [hzero]; rfl) (by omega)
                    have hread := h.reads (s.reads + 1) (by omega) (by omega)
                    rw [hlink] at hread
                    cases hread
                  · cases h.2.1
              | false =>
                  have hnext : visited card fsInfo clust s.reads 1 = fatEntry card fsInfo clust := if_neg (by rw [hlink]; decide)
                  have hloaded := hout.loaded_iff hstatus
                  rw [hnext, hreads₂] at hloaded
                  rw [loaded_cons hcb hlarge hone hlink hreads₂ hmem₂, hloaded]
                  simp
            · have := hout.reads_le hstatus
              omega
            · have := hout.reads_le hstatus
              omega
          · rw [min_eq_left hle] at *
            obtain ⟨fuel, rfl⟩ := Nat.exists_eq_succ_of_ne_zero (n := fuel) (by omega)
            refine ⟨.ok, s₂, ?_, ?_, fun _ => ?_, fun _ => by omega, fun _ _ _ => by omega⟩
            · rw [Nat.sub_self, copyFileLoop, if_neg (by omega)]
            · refine iff_of_false (by decide) ?_
              rw [hfails]
              rintro (⟨j, hj, hbad⟩ | ⟨k, hk, -⟩)
              · rw [hok j hj] at hbad
                cases hbad
              · omega
            · exact loaded_single hle hok (by omega) hmem₂
      · rw [if_neg hstop]
        refine ⟨.ok, s, rfl, ?_, fun _ => ?_, fun _ => le_rfl, fun _ hend hpos => absurd ⟨hend, hpos⟩ hstop⟩
        · refine iff_of_false (by decide) ?_
          rintro ⟨k, hk, hends, -⟩
          exact hstop ⟨hends 0 (Nat.zero_le k), by omega⟩
        · rcases Nat.eq_zero_or_pos sz with rfl | hpos
          · refine iff_of_true ⟨?_, ?_, ?_, fun x _ => rfl⟩ ⟨?_, ?_⟩
            · intro r hr hlt
              omega
            · intro i hi
              exact absurd hi (Nat.not_lt_zero _)
            · intro i hi
              exact absurd hi (Nat.not_lt_zero i)
            · intro i hi
              exact absurd hi (Nat.not_lt_zero _)
            · intro i hi
              exact absurd hi (Nat.not_lt_zero _)
          · have hend : endOfFile clust = true := by
              rw [← Bool.not_eq_false]
              exact fun h => hstop ⟨h, hpos⟩
            refine iff_of_false (fun h => ?_) (fun h => ?_)
            · exact not_data_of_end hend (h.chain 0 (by omega))
            · exact not_data_of_end hend (h.data 0 (by omega))

end Imx6Bsp.Boot
