import Imx6Bsp.Startup.SdmaCopy
import Imx6Bsp.Startup.Lemmas.LoadElf

/-!
# SDMA によるイメージの複写

転送の列は、`size + size % 4` バイトをいつも隙間なく順に写す。それが 4 の倍数になるのは、余りが 0 か 2 のときに限る。
`mdriver_max` は、初めの転送がたまたま収まるときだけ守られる。
-/

namespace Imx6Bsp.Startup

open Imx6Bsp.Lib

section

variable {drivers max fuel size dst src total : Nat} {m : Mem} {x : SdmaXfer} {xfers : List SdmaXfer}

/-! ## 記述子 -/

/-- 長さの二つの欄は、23 ビットまでの長さを表す。 -/
theorem sdmaXfer_count (h : x.len < 2 ^ 23) : (sdmaXfer x).count = x.len := by
  have hlow : (sdmaXfer x).cmdAndStatus % 2 ^ 16 = x.len % 2 ^ 16 := by
    have hmask : x.len &&& 0xffff = x.len % 2 ^ 16 := Nat.and_two_pow_sub_one_eq_mod _ 16
    have hshift : ((x.len >>> 16) &&& 0x7f) <<< 24 % 2 ^ 16 = 0 := by
      rw [Nat.shiftLeft_eq]
      omega
    simp only [sdmaXfer, Nat.or_mod_two_pow, hshift, hmask, sdmaCmdstatExt, sdmaCmdstatWrap, sdmaCmdstatInt, sdmaCmdstatDone, Nat.mod_mod]
    norm_num
  have hhigh : (sdmaXfer x).cmdAndStatus / 2 ^ 24 % 2 ^ 8 = x.len / 2 ^ 16 := by
    have hmask : (x.len >>> 16) &&& 0x7f = x.len / 2 ^ 16 := by
      rw [Nat.shiftRight_eq_div_pow, show (0x7f : Nat) = 2 ^ 7 - 1 from rfl, Nat.and_two_pow_sub_one_eq_mod]
      omega
    have hlen : (x.len &&& 0xffff) >>> 24 = 0 := by
      rw [show (0xffff : Nat) = 2 ^ 16 - 1 from rfl, Nat.and_two_pow_sub_one_eq_mod, Nat.shiftRight_eq_div_pow]
      omega
    rw [← Nat.shiftRight_eq_div_pow]
    simp only [sdmaXfer, Nat.shiftRight_or_distrib, hmask, hlen, sdmaCmdstatExt, sdmaCmdstatWrap, sdmaCmdstatInt, sdmaCmdstatDone,
      Nat.shiftLeft_shiftRight, Nat.reduceShiftRight, Nat.or_zero]
    omega
  rw [SdmaBd.count, hlow, hhigh]
  omega

/-- 転送の先のバイト。 -/
theorem run_in (h : x.len < 2 ^ 23) (hdst : x.dst < 2 ^ 32) {i : Nat} (hi : i < x.len) :
    (sdmaXfer x).run m (wrap32 (x.dst + i)) = m (wrap32 (x.src + i)) := by
  have hoff : wrap32 (wrap32 (x.dst + i) + 2 ^ 32 - x.dst) = i := by unfold wrap32; omega
  have hbase : (sdmaXfer x).extBufPaddr = x.dst := rfl
  rw [SdmaBd.run, hbase, hoff, sdmaXfer_count h, if_pos ⟨wrap32_lt _, hi⟩]
  rfl

/-- 転送の先でないバイトは変わらない。 -/
theorem run_out (h : x.len < 2 ^ 23) (hdst : x.dst < 2 ^ 32) {a : Nat} (ha : ∀ i < x.len, a ≠ wrap32 (x.dst + i)) :
    (sdmaXfer x).run m a = m a := by
  have hbase : (sdmaXfer x).extBufPaddr = x.dst := rfl
  rw [SdmaBd.run, hbase, sdmaXfer_count h]
  refine if_neg ?_
  rintro ⟨hlt, hoff⟩
  refine ha _ hoff ?_
  unfold wrap32
  omega

/-! ## 転送の列 -/

/-- 並んだ転送の長さの和は、一通りである。 -/
theorem Contiguous.total_unique {total' : Nat} (h : Contiguous src dst total xfers) (h' : Contiguous src dst total' xfers) :
    total = total' := by
  induction h generalizing total' with
  | nil => cases h'; rfl
  | cons src dst len h ih =>
      cases h' with
      | cons _ _ _ h' => rw [ih h']

/-- 並んだ転送は、先に写したところから読まないかぎり、もとのバイトを写す。 -/
theorem Contiguous.copies (h : Contiguous src dst total xfers) (hlen : ∀ x ∈ xfers, x.len < 2 ^ 23) (hdst : dst < 2 ^ 32)
    (htotal : total ≤ 2 ^ 32) :
    (∀ i < total, (∀ j < i, wrap32 (src + i) ≠ wrap32 (dst + j)) → runXfers m xfers (wrap32 (dst + i)) = m (wrap32 (src + i))) ∧
      ∀ a, (∀ i < total, a ≠ wrap32 (dst + i)) → runXfers m xfers a = m a := by
  induction h generalizing m with
  | nil => exact ⟨fun i hi => absurd hi (Nat.not_lt_zero i), fun _ _ => rfl⟩
  | cons src dst len h ih =>
      rename_i total xfers
      have hhead := hlen _ List.mem_cons_self
      obtain ⟨hcopy, hframe⟩ := ih (m := (sdmaXfer ⟨src, dst, len⟩).run m) (fun x hx => hlen x (List.mem_cons_of_mem _ hx))
        (wrap32_lt _) (by omega)
      have hwrap : ∀ a i, wrap32 (wrap32 (a + len) + i) = wrap32 (a + (len + i)) := fun a i => by unfold wrap32; omega
      have hrun : ∀ a, runXfers m (⟨src, dst, len⟩ :: xfers) a = runXfers ((sdmaXfer ⟨src, dst, len⟩).run m) xfers a := fun _ => rfl
      constructor
      · intro i hi hsafe
        rw [hrun]
        rcases Nat.lt_or_ge i len with hin | hin
        · rw [hframe _ fun j hj => ?_]
          · exact run_in hhead hdst hin
          · rw [hwrap]
            unfold wrap32
            omega
        · obtain ⟨j, rfl⟩ := Nat.exists_eq_add_of_le hin
          have htail := hcopy j (by omega) fun k hk => by
            rw [hwrap, hwrap]
            exact hsafe (len + k) (by omega)
          rw [hwrap, hwrap] at htail
          rw [htail]
          exact run_out hhead hdst fun k hk => hsafe k (hk.trans_le hin)
      · intro a ha
        rw [hrun, hframe a fun i hi => ?_]
        · exact run_out hhead hdst fun i (hi : i < len) => ha i (by omega)
        · rw [hwrap]
          exact ha (len + i) (by omega)

/-! ## 二つの繰り返し -/

theorem sdmaCopyLoop_contiguous (hfuel : size ≤ fuel) (dst src : Nat) : Contiguous src dst size (sdmaCopyLoop fuel size dst src) := by
  induction fuel generalizing size dst src with
  | zero =>
      obtain rfl := Nat.le_zero.mp hfuel
      exact .nil src dst
  | succ fuel ih =>
      rw [sdmaCopyLoop]
      by_cases hpos : size > 0
      · rw [if_pos hpos]
        have hle : (if size ≥ maxSdmaXferSize then maxSdmaXferSize else size) ≤ size := by split <;> omega
        have hone : 0 < (if size ≥ maxSdmaXferSize then maxSdmaXferSize else size) := by
          split
          · decide
          · exact hpos
        have hrest : size - (if size ≥ maxSdmaXferSize then maxSdmaXferSize else size) ≤ fuel := by omega
        have hcons := Contiguous.cons src dst (if size ≥ maxSdmaXferSize then maxSdmaXferSize else size) (ih hrest _ _)
        rwa [Nat.add_sub_cancel' hle] at hcons
      · obtain rfl : size = 0 := by omega
        exact .nil src dst

/-- どの転送も、初めの転送より長くない。 -/
theorem sdmaCopyLoop_len (fuel size dst src : Nat) :
    ∀ x ∈ sdmaCopyLoop fuel size dst src, 0 < x.len ∧ (4 ∣ size → 4 ∣ x.len) ∧ x.len ≤ min size maxSdmaXferSize := by
  induction fuel generalizing size dst src with
  | zero => exact fun x hx => absurd hx List.not_mem_nil
  | succ fuel ih =>
      intro x hx
      rw [sdmaCopyLoop] at hx
      by_cases hpos : size > 0
      · rw [if_pos hpos] at hx
        have hmin : (if size ≥ maxSdmaXferSize then maxSdmaXferSize else size) = min size maxSdmaXferSize := by split <;> omega
        have hdvd : 4 ∣ size → 4 ∣ min size maxSdmaXferSize := fun h => by
          rcases Nat.le_total size maxSdmaXferSize with hle | hle
          · rwa [min_eq_left hle]
          · rw [min_eq_right hle]
            decide
        have hmax : 0 < maxSdmaXferSize := by decide
        rw [hmin] at hx
        rcases List.mem_cons.mp hx with rfl | hx
        · exact ⟨Nat.lt_min.mpr ⟨hpos, hmax⟩, hdvd, Nat.le_refl _⟩
        · obtain ⟨h1, h2, h3⟩ := ih _ _ _ x hx
          refine ⟨h1, fun h => h2 (Nat.dvd_sub h (hdvd h)), h3.trans ?_⟩
          omega
      · rw [if_neg hpos] at hx
        exact absurd hx List.not_mem_nil

/-- `mdriver_max` で決めた長さは、すぐに上書きされる。 -/
theorem sdmaLoadIfsLoop_eq (drivers max fuel dmasz size dst src : Nat) :
    sdmaLoadIfsLoop drivers max fuel dmasz size dst src = sdmaCopyLoop fuel size dst src := by
  induction fuel generalizing dmasz size dst src with
  | zero => rfl
  | succ fuel ih =>
      rw [sdmaLoadIfsLoop, sdmaCopyLoop]
      dsimp only [sizeLimit]
      rw [ih]

/-! ## 複写の正しさ -/

theorem sdmaRound_eq_iff (size : Nat) : sdmaRound size = (size + 3) / 4 * 4 ↔ size % 4 = 0 ∨ size % 4 = 2 := by
  unfold sdmaRound
  omega

/-- `sdma_copy()` の複写が正しいのは、余りが 0 か 2 のときに限る。 -/
theorem sdmaCopy_copiesImage_iff (hpos : 0 < size) (hsize : size < 2 ^ 31 - 4) (hmax : 0 < max) (hdst : dst + size ≤ 2 ^ 32)
    (hsrc : src + size ≤ 2 ^ 32) (hapart : src + size ≤ dst ∨ dst + size ≤ src) (m : Mem) :
    CopiesImage drivers max m dst src size (sdmaCopy dst src size) ↔ size % 4 = 0 ∨ size % 4 = 2 := by
  have hcont : Contiguous src dst (sdmaRound size) (sdmaCopy dst src size) := sdmaCopyLoop_contiguous (Nat.le_refl _) dst src
  rw [← sdmaRound_eq_iff]
  constructor
  · intro h
    exact hcont.total_unique h.contiguous
  · intro hround
    have hlens := sdmaCopyLoop_len (sdmaRound size) (sdmaRound size) dst src
    have hdvd : 4 ∣ sdmaRound size := hround ▸ Nat.dvd_mul_left 4 _
    have hsmall : ∀ x ∈ sdmaCopy dst src size, x.len < 2 ^ 23 := fun x hx =>
      lt_of_le_of_lt ((hlens x hx).2.2.trans (Nat.min_le_right _ _)) (by decide)
    have hbound : sdmaRound size ≤ size + 3 := by unfold sdmaRound; omega
    obtain ⟨hcopy, hframe⟩ := hcont.copies (m := m) hsmall (by omega) (by omega)
    refine ⟨fun x hx => ?_, fun x hx => sdmaXfer_count (hsmall x hx), hround ▸ hcont, fun i hi => ?_, fun a ha => ?_⟩
    · obtain ⟨h1, h2, h3⟩ := hlens x hx
      exact ⟨h1, h2 hdvd, h3.trans (Nat.min_le_right _ _)⟩
    · have hsrc' : wrap32 (src + i) = src + i := wrap32_of_lt (by omega)
      have hdst' : ∀ j, j ≤ i → wrap32 (dst + j) = dst + j := fun j hj => wrap32_of_lt (by omega)
      have hsdma := hcopy i (by unfold sdmaRound; omega) fun j hj => by
        rw [hsrc', hdst' j (Nat.le_of_lt hj)]
        omega
      have hlimit : 0 < if drivers > 0 then max else size := by split <;> assumption
      have hmem := (Elf.copyMemoryLoop_spec hlimit (size + 1) m dst src size (Nat.lt_succ_self size) hdst).1 i hi (by
        rw [hsrc', Elf.InBlock]
        omega)
      rw [hdst' i (Nat.le_refl i)] at hsdma
      rw [hsdma, copyMemoryWith, hmem]
    · exact hframe a fun i hi => ha i (hi.trans_le hbound)

/-- `mdriver_max` が守られるのは、初めの転送が収まるときに限る。 -/
theorem withinDriverMax_iff (hpos : 0 < size) (dst src : Nat) :
    WithinDriverMax drivers max (sdmaCopy dst src size) ↔ drivers = 0 ∨ min (sdmaRound size) maxSdmaXferSize ≤ max := by
  have hround : sdmaRound size > 0 := Nat.add_pos_left hpos _
  have hmin : (if sdmaRound size ≥ maxSdmaXferSize then maxSdmaXferSize else sdmaRound size) = min (sdmaRound size) maxSdmaXferSize := by
    split <;> omega
  constructor
  · intro h
    rcases Nat.eq_zero_or_pos drivers with hzero | hdrv
    · exact Or.inl hzero
    · have hhead : ⟨src, dst, min (sdmaRound size) maxSdmaXferSize⟩ ∈ sdmaCopy dst src size := by
        obtain ⟨fuel, hfuel⟩ : ∃ fuel, sdmaRound size = fuel + 1 := ⟨sdmaRound size - 1, by omega⟩
        rw [← hmin, sdmaCopy]
        generalize sdmaRound size = n at hfuel hround ⊢
        subst hfuel
        rw [sdmaCopyLoop, if_pos hround]
        exact List.mem_cons_self
      exact Or.inr (h hdrv _ hhead)
  · rintro h hdrv x hx
    have hle := (sdmaCopyLoop_len _ _ _ _ x hx).2.2
    exact hle.trans (h.resolve_left (Nat.ne_of_gt hdrv))

end

/-- 二つの関数の複写が正しいのは、余りが 0 か 2 のときに限り、`sdma_load_ifs()` では初めの転送が `mdriver_max` に収まることも要る。 -/
theorem sdma_copies_image_iff {drivers max size dst src : Nat} (hpos : 0 < size) (hsize : size < 2 ^ 31 - 4) (hmax : 0 < max)
    (hdst : dst + size ≤ 2 ^ 32) (hsrc : src + size ≤ 2 ^ 32) (hapart : src + size ≤ dst ∨ dst + size ≤ src) (m : Mem) (dmasz : Nat) :
    (CopiesImage drivers max m dst src size (sdmaCopy dst src size) ↔ size % 4 = 0 ∨ size % 4 = 2) ∧
      (CopiesImage drivers max m dst src size (sdmaLoadIfs drivers max dmasz dst src size) ∧
          WithinDriverMax drivers max (sdmaLoadIfs drivers max dmasz dst src size) ↔
        (size % 4 = 0 ∨ size % 4 = 2) ∧ (drivers = 0 ∨ min (sdmaRound size) maxSdmaXferSize ≤ max)) := by
  have hsame : sdmaLoadIfs drivers max dmasz dst src size = sdmaCopy dst src size := sdmaLoadIfsLoop_eq drivers max _ dmasz _ dst src
  have hcopy := @sdmaCopy_copiesImage_iff drivers max size dst src hpos hsize hmax hdst hsrc hapart m
  rw [hsame]
  exact ⟨hcopy, and_congr hcopy (withinDriverMax_iff hpos dst src)⟩

theorem sdma_copies_image_sample :
    (CopiesImage 1 4096 (fun _ => 0) 0x20000000 0x10000000 6 (sdmaCopy 0x20000000 0x10000000 6) ↔ 6 % 4 = 0 ∨ 6 % 4 = 2) ∧
      (CopiesImage 1 4096 (fun _ => 0) 0x20000000 0x10000000 6 (sdmaLoadIfs 1 4096 0 0x20000000 0x10000000 6) ∧
          WithinDriverMax 1 4096 (sdmaLoadIfs 1 4096 0 0x20000000 0x10000000 6) ↔
        (6 % 4 = 0 ∨ 6 % 4 = 2) ∧ (1 = 0 ∨ min (sdmaRound 6) maxSdmaXferSize ≤ 4096)) :=
  sdma_copies_image_iff (by decide) (by decide) (by decide) (by decide) (by decide) (Or.inl (by decide)) _ 0

/-- 一バイトの複写は、二バイトの転送になる。 -/
theorem sdma_not_copies_image :
    ¬ ∀ (drivers max size dst src dmasz : Nat) (m : Mem), 0 < size → size < 2 ^ 31 - 4 → 0 < max → 4 ∣ max → dst + size ≤ 2 ^ 32 →
      src + size ≤ 2 ^ 32 → src + size ≤ dst ∨ dst + size ≤ src →
        CopiesImage drivers max m dst src size (sdmaCopy dst src size) ∧
          CopiesImage drivers max m dst src size (sdmaLoadIfs drivers max dmasz dst src size) ∧
            WithinDriverMax drivers max (sdmaLoadIfs drivers max dmasz dst src size) := by
  intro h
  have hcopy := (h 0 4 1 0x20000000 0x10000000 0 (fun _ => 0) (by decide) (by decide) (by decide) (by decide) (by decide) (by decide)
    (Or.inl (by decide))).1
  have hcall : sdmaCopy 0x20000000 0x10000000 1 = [⟨0x10000000, 0x20000000, 2⟩] := by decide
  have hlen := hcopy.lengths ⟨0x10000000, 0x20000000, 2⟩ (hcall ▸ List.mem_singleton_self _)
  exact absurd hlen.2.1 (by decide)

end Imx6Bsp.Startup
