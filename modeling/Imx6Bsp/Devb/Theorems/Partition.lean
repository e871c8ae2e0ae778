import Imx6Bsp.Devb.Partition

/-!
# eMMC の区画の選択の正しさ

受け付ける論理ユニットが別々の区画を正しい大きさで表し、選択が正しく働くのは、拡張 CSD が整っているとき、かつそのときに限る。
-/

namespace Imx6Bsp.Devb

open Imx6Bsp.Lib

section

variable {c : MmcCsd} {r : Resp} {x : ExtCsd}

/-! ## 区画の表 -/

/-- 一つの汎用区画を加えた後の表。 -/
theorem Ident.addGp_fields (d : Ident) (n : Nat) :
    (Ident.addGp x d n).mmcCsd = d.mmcCsd ∧ (Ident.addGp x d n).pactive = d.pactive ∧ (Ident.addGp x d n).blksize = d.blksize := by
  unfold Ident.addGp
  split
  · exact ⟨rfl, rfl, rfl⟩
  · exact ⟨rfl, rfl, rfl⟩

theorem Ident.addGp_nluns (d : Ident) (n : Nat) :
    (Ident.addGp x d n).nluns = d.nluns + if gpBlocks d.mmcCsd x n ≠ 0 then 1 else 0 := by
  unfold Ident.addGp
  split
  · rfl
  · rfl

theorem Ident.addGp_partitions (d : Ident) (n : Nat) :
    (Ident.addGp x d n).partitions = if gpBlocks d.mmcCsd x n ≠ 0 then
      Function.update d.partitions (n + 1) ⟨x.byte 179 / 8 * 8 ||| (4 + n), gpBlocks d.mmcCsd x n⟩ else d.partitions := by
  unfold Ident.addGp
  split
  · rfl
  · rfl

/-- `n` 個の汎用区画を加えた後の表。 -/
theorem Ident.foldGp (d : Ident) (n : Nat) :
    let u := (List.range n).foldl (Ident.addGp x) d
    u.mmcCsd = d.mmcCsd ∧ u.pactive = d.pactive ∧ u.blksize = d.blksize ∧
      u.nluns = d.nluns + ((List.range n).filter fun k => gpBlocks d.mmcCsd x k ≠ 0).length ∧
      u.partitions 0 = d.partitions 0 ∧
      ∀ k, u.partitions (k + 1) =
        if k < n ∧ gpBlocks d.mmcCsd x k ≠ 0 then ⟨x.byte 179 / 8 * 8 ||| (4 + k), gpBlocks d.mmcCsd x k⟩ else d.partitions (k + 1) := by
  induction n with
  | zero => exact ⟨rfl, rfl, rfl, rfl, rfl, fun k => by simp⟩
  | succ n ih =>
      obtain ⟨hcsd, hp, hb, hn, h0, hk⟩ := ih
      dsimp only
      rw [List.range_succ, List.foldl_concat, List.filter_append, List.length_append]
      generalize (List.range n).foldl (Ident.addGp x) d = u at hcsd hp hb hn h0 hk ⊢
      obtain ⟨hcsd', hp', hb'⟩ := u.addGp_fields (x := x) n
      refine ⟨hcsd'.trans hcsd, hp'.trans hp, hb'.trans hb, ?_, ?_, fun k => ?_⟩
      · rw [u.addGp_nluns, hn, hcsd, Nat.add_assoc]
        by_cases hz : gpBlocks d.mmcCsd x n ≠ 0
        · simp [hz]
        · simp [hz]
      · rw [u.addGp_partitions]
        split
        · rw [Function.update_of_ne (Nat.succ_ne_zero n).symm, h0]
        · exact h0
      · rw [u.addGp_partitions, hcsd]
        by_cases hkn : k = n
        · subst hkn
          by_cases hz : gpBlocks d.mmcCsd x k ≠ 0
          · rw [if_pos hz, Function.update_self, if_pos ⟨Nat.lt_succ_self k, hz⟩]
          · rw [if_neg hz, hk k, if_neg (fun hc => hz hc.2), if_neg (fun hc => hz hc.2)]
        · have hlt : k < n + 1 ↔ k < n := by omega
          have hsame : (if gpBlocks d.mmcCsd x n ≠ 0 then
              Function.update u.partitions (n + 1) ⟨x.byte 179 / 8 * 8 ||| (4 + n), gpBlocks d.mmcCsd x n⟩ else u.partitions) (k + 1) =
              u.partitions (k + 1) := by
            split
            · exact Function.update_of_ne (fun hc => hkn (Nat.succ.inj hc)) _ _
            · rfl
          rw [hsame, hk k]
          simp only [hlt]

theorem ExtCsd.byte_lt (i : Nat) : x.byte i < 256 := UInt8.toNat_lt _

theorem ExtCsd.secCnt_lt : x.secCnt < 2 ^ 32 := by
  have h₁ := x.byte_lt 212
  have h₂ := x.byte_lt 213
  have h₃ := x.byte_lt 214
  have h₄ := x.byte_lt 215
  unfold ExtCsd.secCnt
  omega

theorem bits_lt (v : BitVec 32) (lo n : Nat) : bits v lo n < 2 ^ n := Nat.mod_lt _ (Nat.two_pow_pos n)

theorem forceBlock_bounds {csize l : Nat} (hpos : 0 < csize) (hc : csize ≤ 2 ^ 12) (hl : l ≤ 15) :
    0 < (forceBlock csize (2 ^ l)).1 ∧ (forceBlock csize (2 ^ l)).1 ≤ 2 ^ 18 := by
  have hb : 2 ^ l ≤ 2 ^ 15 := Nat.pow_le_pow_right (by decide) hl
  unfold forceBlock mmcDfltBlksize
  split
  · rename_i h
    have hts : 0 < 2 ^ l / 512 ∧ 2 ^ l / 512 ≤ 2 ^ 6 := by omega
    have hle : csize * (2 ^ l / 512) ≤ 2 ^ 12 * 2 ^ 6 := Nat.mul_le_mul hc hts.2
    have hlt : 0 < csize * (2 ^ l / 512) := Nat.mul_pos hpos hts.1
    dsimp only
    rw [Nat.mod_eq_of_lt (by omega)]
    exact ⟨hlt, hle⟩
  · exact ⟨hpos, Nat.le_trans hc (by decide)⟩

/-- CSD の容量は正である。 -/
theorem csd_capacity_pos : 0 < (parseMmcCsd {} r).capacity.1 := by
  have hc : (parseMmcCsd {} r).cSize + 1 ≤ 2 ^ 12 := by
    have h₁ := bits_lt r.r2 0 10
    have h₂ := bits_lt r.r1 30 2
    simp only [parseMmcCsd]
    omega
  have hl : (parseMmcCsd {} r).readBlLen < 2 ^ 4 := bits_lt ..
  have hm : (parseMmcCsd {} r).cSizeMult < 2 ^ 3 := bits_lt ..
  obtain ⟨hpos, hle⟩ := forceBlock_bounds (Nat.succ_pos _) hc (Nat.le_of_lt_succ hl)
  have hpow : 2 ^ ((parseMmcCsd {} r).cSizeMult + 2) ≤ 2 ^ 9 := Nat.pow_le_pow_right (by decide) (by omega)
  have hprod : (forceBlock ((parseMmcCsd {} r).cSize + 1) (2 ^ (parseMmcCsd {} r).readBlLen)).1 * 2 ^ ((parseMmcCsd {} r).cSizeMult + 2) ≤
      2 ^ 18 * 2 ^ 9 := Nat.mul_le_mul hle hpow
  unfold MmcCsd.capacity
  dsimp only
  rw [Nat.mod_eq_of_lt (by omega)]
  exact Nat.mul_pos hpos (Nat.two_pow_pos _)

/-- 区画を加える前の状態。 -/
def beforeGp (r : Resp) (x : ExtCsd) : Ident :=
  let d := (({} : Ident).parseMmc r).takeExtCsd x
  { d with
    pactive := x.byte 179 % 8
    partitions := Function.update d.partitions 0 { d.partitions 0 with config := x.byte 179 / 8 * 8 } }

instance ExtCsd.decidablePartitioned : Decidable x.Partitioned := inferInstanceAs (Decidable (_ ∧ _))

theorem emmc_eq : emmc r x = if x.Partitioned then (List.range mmcGpPartMax).foldl (Ident.addGp x) (beforeGp r x) else beforeGp r x := rfl

theorem beforeGp_user (h : 4 ≤ bits r.r3 26 4) :
    (beforeGp r x).partitions 0 = ⟨x.byte 179 / 8 * 8, x.capacity (parseMmcCsd {} r) .user⟩ := by
  have hprot : 4 ≤ (parseMmcCsd {} r).mmcProt := h
  simp only [beforeGp, Function.update_self, Ident.takeExtCsd, Ident.parseMmc, hprot, true_and, ExtCsd.sectors, ExtCsd.capacity]
  by_cases hrev : 2 ≤ x.byte 192
  · simp only [hrev, if_true, true_and]
    split
    · rw [Ident.setUser, Function.update_self]
    · rw [Ident.setUser, Function.update_self]
  · simp [hrev, parseMmcCsd, Ident.setUser]

theorem Ident.takeExtCsd_other (d : Ident) (k : Nat) : (d.takeExtCsd x).partitions (k + 1) = d.partitions (k + 1) := by
  by_cases hc : 4 ≤ d.mmcCsd.mmcProt ∧ x.sectors d.mmcCsd.extCsd.sectors ≠ 0
  · have : (d.takeExtCsd x).partitions = d.setUser (x.sectors d.mmcCsd.extCsd.sectors) := if_pos hc
    rw [this, Ident.setUser, Function.update_of_ne (Nat.succ_ne_zero k)]
  · have : (d.takeExtCsd x).partitions = d.partitions := if_neg hc
    rw [this]

theorem beforeGp_other {k : Nat} : (beforeGp r x).partitions (k + 1) = {} := by
  simp only [beforeGp, Function.update_of_ne (Nat.succ_ne_zero k), Ident.takeExtCsd_other, Ident.parseMmc, Ident.setUser]

/-- 識別の後の表。 -/
structure Table (r : Resp) (x : ExtCsd) : Prop where
  pactive : (emmc r x).pactive = x.byte 179 % 8
  nluns : (emmc r x).nluns = if x.Partitioned then gpCount (parseMmcCsd {} r) x else 0
  user : (emmc r x).partitions 0 = ⟨x.byte 179 / 8 * 8, x.capacity (parseMmcCsd {} r) .user⟩
  gp : ∀ k, (emmc r x).partitions (k + 1) = if x.Partitioned ∧ k < mmcGpPartMax ∧ gpBlocks (parseMmcCsd {} r) x k ≠ 0
    then ⟨x.byte 179 / 8 * 8 ||| (4 + k), gpBlocks (parseMmcCsd {} r) x k⟩ else {}

theorem emmc_table (h : 4 ≤ bits r.r3 26 4) : Table r x := by
  obtain ⟨-, hp, -, hn, h0, hk⟩ := (beforeGp r x).foldGp (x := x) mmcGpPartMax
  by_cases hpart : x.Partitioned
  · constructor
    · rw [emmc_eq, if_pos hpart, hp]
      rfl
    · rw [emmc_eq, if_pos hpart, if_pos hpart, hn]
      exact Nat.zero_add _
    · rw [emmc_eq, if_pos hpart, h0, beforeGp_user h]
    · intro k
      rw [emmc_eq, if_pos hpart, hk k, beforeGp_other]
      simp only [hpart, true_and]
      rfl
  · constructor
    · rw [emmc_eq, if_neg hpart]
      rfl
    · rw [emmc_eq, if_neg hpart, if_neg hpart]
      rfl
    · rw [emmc_eq, if_neg hpart, beforeGp_user h]
    · intro k
      rw [emmc_eq, if_neg hpart, if_neg (fun hc => hpart hc.1), beforeGp_other]

/-! ## 空でない区画の数 -/

/-- 空でない汎用区画。 -/
def gpSet (c : MmcCsd) (x : ExtCsd) : Finset Nat := (Finset.range mmcGpPartMax).filter fun k => gpBlocks c x k ≠ 0

theorem card_gpSet : (gpSet c x).card = gpCount c x := rfl

theorem mem_gpSet {k : Nat} : k ∈ gpSet c x ↔ k < mmcGpPartMax ∧ gpBlocks c x k ≠ 0 := by
  rw [gpSet, Finset.mem_filter, Finset.mem_range]

/-- 先頭の区画がどれも空でなければ、空でない区画はそれだけである。 -/
theorem gpSet_eq_range (h : ∀ k < gpCount c x, gpBlocks c x k ≠ 0) : gpSet c x = Finset.range (gpCount c x) := by
  have hle : gpCount c x ≤ mmcGpPartMax := by
    rw [← card_gpSet]
    exact Nat.le_trans (Finset.card_filter_le ..) (Nat.le_of_eq (Finset.card_range _))
  refine (Finset.eq_of_subset_of_card_le (fun k hk => ?_) ?_).symm
  · have hk := Finset.mem_range.mp hk
    exact mem_gpSet.mpr ⟨Nat.lt_of_lt_of_le hk hle, h k hk⟩
  · rw [Finset.card_range, card_gpSet]

/-- 前に詰まっていることと、先頭の区画がどれも空でないことは同じである。 -/
theorem packed_iff : (∀ k < mmcGpPartMax, ∀ j < k, gpBlocks c x k ≠ 0 → gpBlocks c x j ≠ 0) ↔ ∀ k < gpCount c x, gpBlocks c x k ≠ 0 := by
  constructor
  · intro h k hk hz
    have hsub : gpSet c x ⊆ Finset.range k := by
      intro j hj
      obtain ⟨hj, hb⟩ := mem_gpSet.mp hj
      refine Finset.mem_range.mpr (Nat.lt_of_not_le fun hkj => ?_)
      rcases Nat.eq_or_lt_of_le hkj with rfl | hkj
      · exact hb hz
      · exact h j hj k hkj hb hz
    have := Finset.card_le_card hsub
    rw [Finset.card_range, card_gpSet] at this
    omega
  · intro h k hk j hj hb
    have hkr : k ∈ gpSet c x := mem_gpSet.mpr ⟨hk, hb⟩
    rw [gpSet_eq_range h, Finset.mem_range] at hkr
    exact h j (Nat.lt_trans hj hkr)

/-! ## 番号 -/

/-- 汎用区画の設定の値の下位のビットは、その区画の番号である。 -/
theorem gp_config_mod {k : Nat} (b : Nat) (hk : k < mmcGpPartMax) : (b / 8 * 8 ||| (4 + k)) % 8 = 4 + k := by
  have hlt : 4 + k < 2 ^ 3 := Nat.add_lt_add_left hk 4
  rw [Nat.mul_comm, ← Nat.two_pow_add_eq_or_of_lt hlt]
  omega

theorem accepts_iff {lun : Nat} (ht : Table r x) :
    (emmc r x).accepts 0 lun = true ↔ lun ≤ if x.Partitioned then gpCount (parseMmcCsd {} r) x else 0 := by
  simp only [Ident.accepts, Nat.zero_lt_one, decide_true, Bool.true_and, decide_eq_true_eq, ht.nluns]

/-- 受け付ける番号の区画。 -/
theorem accepted_cases {lun : Nat} (ht : Table r x) (h : (emmc r x).accepts 0 lun = true) :
    lun = 0 ∨ ∃ k, lun = k + 1 ∧ x.Partitioned ∧ k < gpCount (parseMmcCsd {} r) x := by
  rw [accepts_iff ht] at h
  cases lun with
  | zero => exact .inl rfl
  | succ k =>
      split at h
      · exact .inr ⟨k, rfl, ‹_›, h⟩
      · cases h

theorem mmcCapacity_eq {d : Ident} {lun : Nat} (hpos : 0 < (d.partitions lun).nlba) (hlt : (d.partitions lun).nlba < 2 ^ 32) :
    (d.mmcCapacity lun).1 + 1 = (d.partitions lun).nlba := by
  unfold Ident.mmcCapacity
  dsimp only
  omega

theorem user_capacity_bounds : 0 < x.capacity (parseMmcCsd {} r) .user ∧ x.capacity (parseMmcCsd {} r) .user < 2 ^ 32 := by
  unfold ExtCsd.capacity
  dsimp only
  split
  · rename_i h
    exact ⟨Nat.pos_of_ne_zero h.2, ExtCsd.secCnt_lt⟩
  · exact ⟨csd_capacity_pos, Nat.mod_lt _ (by decide)⟩

/-- 利用者の区画は、いつも番号 0 で表される。 -/
theorem denotes_user (ht : Table r x) : Denotes r x 0 .user := by
  obtain ⟨hpos, hlt⟩ := user_capacity_bounds (r := r) (x := x)
  have hn : ((emmc r x).partitions 0).nlba = x.capacity (parseMmcCsd {} r) .user := by rw [ht.user]
  refine ⟨trivial, ?_, hn, ?_, hn ▸ hpos⟩
  · rw [ht.user]
    exact Nat.mul_mod_left ..
  · rw [mmcCapacity_eq (hn ▸ hpos) (hn ▸ hlt), hn]

theorem gp_eq {k : Nat} (ht : Table r x) (hpart : x.Partitioned) (hk : k < mmcGpPartMax) (hb : gpBlocks (parseMmcCsd {} r) x k ≠ 0) :
    (emmc r x).partitions (k + 1) = ⟨x.byte 179 / 8 * 8 ||| (4 + k), gpBlocks (parseMmcCsd {} r) x k⟩ := by
  rw [ht.gp, if_pos ⟨hpart, hk, hb⟩]

theorem denotes_gp {k : Nat} (ht : Table r x) (hpart : x.Partitioned) (hk : k < mmcGpPartMax) (hb : gpBlocks (parseMmcCsd {} r) x k ≠ 0)
    (hs : gpBlocks (parseMmcCsd {} r) x k = x.gpMult k * (x.byte 221 * x.byte 224 * mmcEraseGrp512k) / 512) : Denotes r x (k + 1) (.gp k) := by
  have heq := gp_eq ht hpart hk hb
  have hn : ((emmc r x).partitions (k + 1)).nlba = gpBlocks (parseMmcCsd {} r) x k := by rw [heq]
  refine ⟨⟨hk, hpart, fun hz => hb ?_⟩, ?_, hn.trans hs, ?_, hn ▸ Nat.pos_of_ne_zero hb⟩
  · rw [gpBlocks, hz, Nat.zero_mul, Nat.zero_div, Nat.zero_mod]
  · rw [heq]
    exact gp_config_mod (x.byte 179) hk
  · rw [mmcCapacity_eq (hn ▸ Nat.pos_of_ne_zero hb) (hn ▸ Nat.mod_lt _ (by decide)), hn]
    exact hs

/-! ## 選択 -/

/-- 覚えている番号を受け付けるなら、カードはその区画にある。 -/
structure Selector.Inv (r : Resp) (x : ExtCsd) (s : Selector) : Prop where
  active : (emmc r x).accepts 0 s.pactive = true → s.reg = ((emmc r x).partitions s.pactive).config
  selected : ∀ p ∈ s.selected, p.2 = ((emmc r x).partitions p.1).config

theorem Selector.Inv.start (ht : Table r x) (ha : x.byte 179 % 8 = 0 ∨ ¬(x.Partitioned ∧ x.byte 179 % 8 ≤ gpCount (parseMmcCsd {} r) x)) :
    Selector.Inv r x (Selector.start r x) := by
  refine ⟨fun hacc => ?_, nofun⟩
  have hp : (Selector.start r x).pactive = x.byte 179 % 8 := ht.pactive
  rw [hp] at hacc ⊢
  rcases accepted_cases ht hacc with h0 | ⟨k, hk, hpart, hlt⟩
  · rw [h0, ht.user]
    show x.byte 179 = x.byte 179 / 8 * 8
    omega
  · rcases ha with ha | ha
    · omega
    · exact absurd ⟨hpart, by omega⟩ ha

theorem Selector.Inv.step {s t : Selector} {i : Nat × Switch} (h : s.Inv r x) (hok : Settled i) (hs : s.step (emmc r x) i = .ok t) :
    t.Inv r x := by
  obtain ⟨lun, o⟩ := i
  unfold Selector.step at hs
  split at hs
  · rename_i hacc
    cases hs
    unfold Selector.mmcSetPartition
    dsimp only
    split
    · rename_i heq
      refine ⟨h.active, fun p hp => ?_⟩
      rcases List.mem_append.mp hp with hp | hp
      · exact h.selected p hp
      · cases List.mem_singleton.mp hp
        dsimp only
        rw [h.active (heq ▸ hacc), heq]
    · cases o with
      | refused => exact h
      | lost executed =>
          cases executed with
          | true => exact absurd rfl hok
          | false => exact h
      | done =>
          refine ⟨fun _ => rfl, fun p hp => ?_⟩
          rcases List.mem_append.mp hp with hp | hp
          · exact h.selected p hp
          · cases List.mem_singleton.mp hp
            rfl
  · cases hs

/-- 空の汎用区画を、受け付ける番号は表さない。 -/
theorem not_denotes_hole {k : Nat} {a : Area} (ht : Table r x) (hb : gpBlocks (parseMmcCsd {} r) x k = 0) : ¬Denotes r x (k + 1) a := by
  intro hd
  have hpos := hd.pos
  rw [ht.gp, if_neg (fun hc => hc.2.2 hb)] at hpos
  exact absurd hpos (Nat.lt_irrefl 0)

/-- 空でない汎用区画を表すのは、その番号だけである。 -/
theorem denotes_gp_area {k : Nat} {a : Area} (ht : Table r x) (hpart : x.Partitioned) (hk : k < mmcGpPartMax)
    (hb : gpBlocks (parseMmcCsd {} r) x k ≠ 0) (hd : Denotes r x (k + 1) a) : a = .gp k := by
  have hc := hd.config
  rw [gp_eq ht hpart hk hb, gp_config_mod (x.byte 179) hk] at hc
  cases a with
  | user => exact absurd hc (by simp only [Area.access]; omega)
  | gp j =>
      simp only [Area.access] at hc
      rw [show j = k by omega]

theorem PartitionsSound.packed (ht : Table r x) (h : PartitionsSound r x) (hpart : x.Partitioned) :
    ∀ k < gpCount (parseMmcCsd {} r) x, gpBlocks (parseMmcCsd {} r) x k ≠ 0 := by
  intro k hk hz
  have hacc : (emmc r x).accepts 0 (k + 1) = true := by
    rw [accepts_iff ht, if_pos hpart]
    exact hk
  obtain ⟨a, ha⟩ := h.denotes (k + 1) hacc
  exact not_denotes_hole ht hz ha

theorem PartitionsSound.sized (ht : Table r x) (h : PartitionsSound r x) (hpart : x.Partitioned) {k : Nat} (hk : k < mmcGpPartMax)
    (hb : gpBlocks (parseMmcCsd {} r) x k ≠ 0) :
    gpBlocks (parseMmcCsd {} r) x k = x.gpMult k * (x.byte 221 * x.byte 224 * mmcEraseGrp512k) / 512 := by
  have hkn : k ∈ gpSet (parseMmcCsd {} r) x := mem_gpSet.mpr ⟨hk, hb⟩
  rw [gpSet_eq_range (h.packed ht hpart), Finset.mem_range] at hkn
  have hacc : (emmc r x).accepts 0 (k + 1) = true := by
    rw [accepts_iff ht, if_pos hpart]
    exact hkn
  obtain ⟨a, ha⟩ := h.denotes (k + 1) hacc
  have hn := ha.nlba
  rw [gp_eq ht hpart hk hb, denotes_gp_area ht hpart hk hb ha] at hn
  exact hn

/-- 識別のときの番号が汎用区画の論理ユニットの番号と重なると、最初の選択は何も切り替えずに成功する。 -/
theorem PartitionsSound.access (ht : Table r x) (h : PartitionsSound r x) :
    x.byte 179 % 8 = 0 ∨ ¬(x.Partitioned ∧ x.byte 179 % 8 ≤ gpCount (parseMmcCsd {} r) x) := by
  by_contra hc
  obtain ⟨hne, hpart, hle⟩ : x.byte 179 % 8 ≠ 0 ∧ x.Partitioned ∧ x.byte 179 % 8 ≤ gpCount (parseMmcCsd {} r) x := by
    tauto
  obtain ⟨k, hk⟩ := Nat.exists_eq_succ_of_ne_zero hne
  have hp : (Selector.start r x).pactive = k + 1 := ht.pactive.trans hk
  have hacc : (emmc r x).accepts 0 (k + 1) = true := by
    rw [accepts_iff ht, if_pos hpart]
    omega
  have hb := h.packed ht hpart k (by omega)
  have hk4 : k < mmcGpPartMax := by
    have hkr : k ∈ Finset.range (gpCount (parseMmcCsd {} r) x) := Finset.mem_range.mpr (by omega)
    rw [← gpSet_eq_range (h.packed ht hpart)] at hkr
    exact (mem_gpSet.mp hkr).1
  have hs : (Selector.start r x).step (emmc r x) (k + 1, .done) =
      .ok { Selector.start r x with selected := [(k + 1, x.byte 179)] } := by
    rw [Selector.step, if_pos hacc, Selector.mmcSetPartition, if_pos hp]
    rfl
  have hreg := h.selected _ (.tail .refl (nofun : Settled (k + 1, .done)) hs) (k + 1, x.byte 179) (List.mem_singleton.mpr rfl)
  dsimp only at hreg
  rw [gp_eq ht hpart hk4 hb] at hreg
  have := gp_config_mod (x.byte 179) hk4
  dsimp only at hreg
  omega

/-- 受け付ける論理ユニットが別々の区画を正しい大きさで表し、選択がその区画に至るのは、拡張 CSD が整っているとき、かつそのときに限る。 -/
theorem emmc_partitions_iff (r : Resp) (x : ExtCsd) (h : 4 ≤ bits r.r3 26 4) : PartitionsSound r x ↔ x.Regular (parseMmcCsd {} r) := by
  have ht : Table r x := emmc_table h
  constructor
  · intro hs
    exact ⟨fun hpart => packed_iff.mpr (hs.packed ht hpart), fun hpart k hk hb => hs.sized ht hpart hk hb, hs.access ht⟩
  · intro hr
    have hgp : ∀ k, x.Partitioned → k < gpCount (parseMmcCsd {} r) x → Denotes r x (k + 1) (.gp k) := by
      intro k hpart hk
      have hkr : k ∈ gpSet (parseMmcCsd {} r) x := by
        rw [gpSet_eq_range (packed_iff.mp (hr.packed hpart))]
        exact Finset.mem_range.mpr hk
      obtain ⟨hk4, hb⟩ := mem_gpSet.mp hkr
      exact denotes_gp ht hpart hk4 hb (hr.sized hpart k hk4 hb)
    refine ⟨fun lun hacc => ?_, fun lun lun' a hacc hacc' hd hd' => ?_, fun s hs => ?_⟩
    · rcases accepted_cases ht hacc with rfl | ⟨k, rfl, hpart, hk⟩
      · exact ⟨.user, denotes_user ht⟩
      · exact ⟨.gp k, hgp k hpart hk⟩
    · have hc := hd.config.trans hd'.config.symm
      rcases accepted_cases ht hacc with rfl | ⟨k, rfl, hpart, hk⟩ <;>
        rcases accepted_cases ht hacc' with rfl | ⟨k', rfl, hpart', hk'⟩
      · rfl
      · rw [(denotes_user ht).config, (hgp k' hpart' hk').config] at hc
        exact absurd hc (by simp only [Area.access]; omega)
      · rw [(denotes_user ht).config, (hgp k hpart hk).config] at hc
        exact absurd hc (by simp only [Area.access]; omega)
      · rw [(hgp k hpart hk).config, (hgp k' hpart' hk').config] at hc
        simp only [Area.access] at hc
        omega
    · exact (hs.invariant (P := Selector.Inv r x) (.start ht hr.access) fun _ _ _ hu hok hst => hu.step hok hst).selected

end

/-- 汎用区画を一つ持つカード。 -/
def oneGpCsd : ExtCsd := fun i => if i ∈ [3, 143, 155, 160, 221, 224] then 1 else if i = 192 then 5 else if i = 212 then 64 else 0

theorem emmc_partitions_iff_sample :
    PartitionsSound { r3 := 0x10000000 } oneGpCsd ∧ (emmc { r3 := 0x10000000 } oneGpCsd).accepts 0 1 = true ∧
      (emmc { r3 := 0x10000000 } oneGpCsd).partitions 1 = ⟨4, 1024⟩ := by
  refine ⟨(emmc_partitions_iff _ _ (by decide)).mpr ⟨?_, ?_, ?_⟩, by decide, by decide⟩
  · intro _
    decide
  · intro _
    decide
  · exact .inl (by decide)

/-- 一番目の汎用区画が空で、二番目が空でないカード。 -/
def holeGpCsd : ExtCsd := fun i => if i ∈ [3, 146, 155, 160, 221, 224] then 1 else if i = 192 then 5 else if i = 212 then 64 else 0

/-- 番号 1 を受け付けるが、その番号の区画は無い。 -/
theorem hole_lun_accepted : ¬PartitionsSound { r3 := 0x10000000 } holeGpCsd := by
  intro h
  obtain ⟨a, ha⟩ := h.denotes 1 (by decide)
  have hz : ((emmc { r3 := 0x10000000 } holeGpCsd).partitions 1).nlba = 0 := by decide
  have hpos := ha.pos
  omega

end Imx6Bsp.Devb
