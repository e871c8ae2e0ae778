import Imx6Bsp.Devb.Erase

/-!
# 消去の範囲

終わりの印は要求の次の塊を指し、カードの番地の単位も、論理ユニットの区画も見ない。正しいのは、バイトで数えるカードの先頭の塊だけを消すときである。
-/

namespace Imx6Bsp.Devb

variable {d : Ident} {reply : Replies} {q : WriteSame}

/-! ## 送る命令 -/

/-- 三つの命令が送られる。 -/
structure TrimIssued (d : Ident) (reply : Replies) (q : WriteSame) : Prop where
  trim : d.trim = true
  unmap : q.unmap = true
  start : reply 0 = (0, 0)
  stop : reply 1 = (0, 0)
  erase : (reply 2).1 = 0

theorem TrimIssued.writeSame (h : TrimIssued d reply q) :
    mmcWriteSame d reply q = (if (reply 2).2 ≠ 0 then .cmpErr else .cmp,
      [⟨35, q.lba.setWidth 32, 0⟩, ⟨36, (q.lba + q.nlba.signExtend 64).setWidth 32, 0⟩, ⟨38, 1, (reply 2).2⟩]) := by
  have hrefuse : ¬(d.trim = false ∨ q.unmap = false) := by
    rw [h.trim, h.unmap]
    decide
  rw [mmcWriteSame, if_neg hrefuse]
  simp [mmcErase, sendWait, h.start, h.stop, h.erase]

/-- 三つの命令が送られなければ、要求は失敗する。 -/
theorem writeSame_refused (h : ¬TrimIssued d reply q) :
    (mmcWriteSame d reply q).1 = .cmpErr ∧ (mmcWriteSame d reply q).2.length < 3 := by
  rw [mmcWriteSame]
  by_cases hrefuse : d.trim = false ∨ q.unmap = false
  · rw [if_pos hrefuse]
    exact ⟨rfl, by decide⟩
  · rw [if_neg hrefuse]
    rw [not_or, Bool.not_eq_false, Bool.not_eq_false] at hrefuse
    by_cases h0 : (reply 0).1 = 0
    · by_cases h0' : (reply 0).2 = 0
      · by_cases h1 : (reply 1).1 = 0
        · by_cases h1' : (reply 1).2 = 0
          · have h2 : (reply 2).1 ≠ 0 := fun h2 => h ⟨hrefuse.1, hrefuse.2, Prod.ext h0 h0', Prod.ext h1 h1', h2⟩
            simp [mmcErase, sendWait, h0, h0', h1, h1', h2]
          · simp [mmcErase, sendWait, h0, h0', h1, h1']
        · simp [mmcErase, sendWait, h0, h0', h1]
      · simp [mmcErase, sendWait, h0, h0']
    · simp [mmcErase, sendWait, h0]

/-! ## 指す塊 -/

theorem stop_toNat (lba : BitVec 64) (nlba : BitVec 32) :
    ((lba + nlba.signExtend 64).setWidth 32).toNat = (lba.toNat + nlba.toNat) % 2 ^ 32 := by
  have hsign : (nlba.signExtend 64).setWidth 32 = nlba := by
    refine BitVec.eq_of_getLsbD_eq fun i hi => ?_
    rw [BitVec.getLsbD_setWidth, BitVec.getLsbD_signExtend, if_pos hi, decide_eq_true hi, decide_eq_true (show i < 64 by omega)]
    rfl
  rw [BitVec.setWidth_add _ _ (by decide), hsign, BitVec.toNat_add, BitVec.toNat_setWidth, Nat.mod_add_mod]

/-- 塊で数えるカードでは、両端を含む印は一つ余分な塊を指す。 -/
theorem sectors_wrong {l n : Nat} (hpos : 0 < n) (hn : n < 2 ^ 32) :
    ¬∀ b, (l % 2 ^ 32 ≤ b ∧ b ≤ (l + n) % 2 ^ 32) ↔ (l ≤ b ∧ b < l + n) := by
  intro h
  have hl := h l
  have hlast := h (l + n)
  omega

/-- バイトで数えるカードでは、先頭の塊でなければ、手前の塊を指す。 -/
theorem bytes_right_iff {l n size : Nat} (hpos : 0 < n) (hn : n < 2 ^ 32) :
    (∀ b, (l % 2 ^ 32 / size ≤ b ∧ b ≤ (l + n) % 2 ^ 32 / size) ↔ (l ≤ b ∧ b < l + n)) ↔ l = 0 ∧ n / size = n - 1 := by
  constructor
  · intro h
    have hdiv := Nat.div_le_self ((l + n) % 2 ^ 32) size
    have hmod := Nat.mod_lt (l + n) (show 0 < 2 ^ 32 by decide)
    obtain ⟨hlow, hhigh⟩ := (h l).mpr ⟨Nat.le_refl l, Nat.lt_add_of_pos_right hpos⟩
    have hsmall : l % 2 ^ 32 = l := Nat.mod_eq_of_lt (hhigh.trans hdiv |>.trans_lt hmod)
    rw [hsmall] at h
    have hfirst := ((h (l / size)).mp ⟨Nat.le_refl _, (Nat.div_le_self l size).trans hhigh⟩).1
    have hzero : l = 0 := by
      by_contra hne
      rcases Nat.lt_or_ge 1 size with hbig | hsize
      · exact absurd (Nat.div_lt_self (Nat.pos_of_ne_zero hne) hbig) (Nat.not_lt.mpr hfirst)
      · obtain rfl | rfl : size = 0 ∨ size = 1 := by omega
        · rw [Nat.div_zero] at hfirst
          omega
        · rw [Nat.div_one] at hhigh h
          have hlast := h (l + n)
          omega
    subst hzero
    rw [Nat.zero_add, Nat.mod_eq_of_lt hn, Nat.zero_div] at h
    have hend := (h (n / size)).mp ⟨Nat.zero_le _, Nat.le_refl _⟩
    have hlast := (h (n - 1)).mpr ⟨Nat.zero_le _, by omega⟩
    exact ⟨rfl, by omega⟩
  · rintro ⟨rfl, hlast⟩ b
    rw [Nat.zero_add, Nat.mod_eq_of_lt hn, Nat.zero_mod, Nat.zero_div, hlast]
    omega

/-! ## 範囲 -/

/-- 消去が正しいのは、三つの命令が揃わないときか、選ばれた区画の、バイトで数えるカードの先頭の塊だけを消すときである。 -/
theorem trim_right_iff (hn : q.nlba ≠ 0) :
    TrimRight d reply q ↔
      ¬TrimIssued d reply q ∨ d.hc = false ∧ d.pactive = q.lun ∧ q.lba = 0 ∧ q.nlba.toNat / d.blksize = q.nlba.toNat - 1 := by
  have hpos : 0 < q.nlba.toNat := Nat.pos_of_ne_zero fun h => hn (BitVec.eq_of_toNat_eq h)
  have hlt := q.nlba.isLt
  by_cases hissued : TrimIssued d reply q
  · have hrun := hissued.writeSame
    have hlba : (q.lba.setWidth 32).toNat = q.lba.toNat % 2 ^ 32 := BitVec.toNat_setWidth _ _
    have hzero : q.lba = 0 ↔ q.lba.toNat = 0 := ⟨fun h => by rw [h]; rfl, fun h => BitVec.eq_of_toNat_eq h⟩
    rw [or_iff_right (not_not.mpr hissued), hzero]
    constructor
    · intro h
      have hblocks := h.blocks _ _ _ (congrArg Prod.snd hrun)
      have hactive : q.lun = d.pactive := ((hblocks q.lun q.lba.toNat).mpr ⟨rfl, Nat.le_refl _, Nat.lt_add_of_pos_right hpos⟩).1
      have hall := fun b => hblocks d.pactive b
      simp only [hactive, true_and, Designates, hlba, stop_toNat] at hall
      cases hc : d.hc with
      | true =>
          simp only [hc, if_true] at hall
          exact absurd hall (sectors_wrong hpos hlt)
      | false =>
          simp only [hc, Bool.false_eq_true, if_false] at hall
          exact ⟨rfl, hactive.symm, (bytes_right_iff hpos hlt).mp hall⟩
    · rintro ⟨hc, hactive, hbytes⟩
      refine ⟨fun first last erase hlog p b => ?_, fun hok => ?_⟩
      · rw [hrun] at hlog
        obtain ⟨rfl, hrest⟩ := List.cons.inj hlog
        obtain ⟨rfl, -⟩ := List.cons.inj hrest
        rw [← hactive, Designates, if_neg (by rw [hc]; decide)]
        dsimp only
        rw [hlba, stop_toNat, (bytes_right_iff hpos hlt).mpr hbytes b]
      · rw [hrun] at hok ⊢
        by_cases herase : (reply 2).2 = 0
        · rw [herase]
          rfl
        · dsimp only at hok
          rw [if_pos herase] at hok
          cases hok
  · obtain ⟨hfail, hshort⟩ := writeSame_refused hissued
    refine iff_of_true ⟨fun first last erase hlog => ?_, fun hok => ?_⟩ (.inl hissued)
    · rw [hlog] at hshort
      exact absurd hshort (Nat.lt_irrefl 3)
    · cases hfail.symm.trans hok

theorem trim_right_iff_sample :
    TrimRight { trim := true } (fun _ => (0, 0)) ⟨0, true, 0, 1⟩ ↔
      ¬TrimIssued { trim := true } (fun _ => (0, 0)) ⟨0, true, 0, 1⟩ ∨
        ({ trim := true } : Ident).hc = false ∧ ({ trim := true } : Ident).pactive = 0 ∧ (0 : BitVec 64) = 0 ∧
          (1 : BitVec 32).toNat / ({ trim := true } : Ident).blksize = (1 : BitVec 32).toNat - 1 :=
  trim_right_iff (by decide)

/-- 塊で数えるカードの一つの塊の消去は、次の塊も消す。 -/
theorem trim_right_wrong : ¬ ∀ (d : Ident) (reply : Replies) (q : WriteSame), q.nlba ≠ 0 → TrimRight d reply q := by
  intro h
  have hissued : TrimIssued { trim := true, hc := true } (fun _ => (0, 0)) ⟨0, true, 8, 1⟩ := ⟨rfl, rfl, rfl, rfl, rfl⟩
  have hblocks := (h { trim := true, hc := true } (fun _ => (0, 0)) ⟨0, true, 8, 1⟩ (by decide)).blocks _ _ _ (congrArg Prod.snd hissued.writeSame)
  exact absurd ((hblocks 0 9).mp ⟨rfl, by decide, by decide⟩).2.2 (by decide)

end Imx6Bsp.Devb
