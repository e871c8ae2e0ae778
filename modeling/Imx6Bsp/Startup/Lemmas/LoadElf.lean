import Imx6Bsp.Startup.LoadElf
import Imx6Bsp.Startup.Lemmas.PageTable

/-!
# 一つの区画の読み込み

区画の写像は、ファイルのバイトをその場で、または新しいブロックに写して指し、残りは 0 のブロックを指す。
-/

namespace Imx6Bsp.Startup.Elf

open Imx6Bsp.Lib

variable {env : LoadEnv} {m : Mem} {s : LoadState} {addr : Nat} {p : Phdr}

/-- ブロックの中の番地。 -/
def InBlock (block : Nat × Nat) (x : Nat) : Prop := block.1 ≤ x ∧ x < block.1 + block.2

instance (block : Nat × Nat) (x : Nat) : Decidable (InBlock block x) := inferInstanceAs (Decidable (_ ∧ _))

/-! ## `copy_memory()` -/

theorem copyMemoryLoop_spec {max : Nat} (hmax : 0 < max) (fuel : Nat) :
    ∀ (m : Mem) (dst src len : Nat), len < fuel → dst + len ≤ 2 ^ 32 →
      (∀ i < len, ¬ InBlock (dst, len) (wrap32 (src + i)) →
        copyMemoryLoop max fuel m dst src len (dst + i) = m (wrap32 (src + i))) ∧
      ∀ x, ¬ InBlock (dst, len) x → copyMemoryLoop max fuel m dst src len x = m x := by
  induction fuel with
  | zero =>
      intro m dst src len hfuel
      exact absurd hfuel (Nat.not_lt_zero len)
  | succ fuel ih =>
      intro m dst src len hfuel hdst
      have hamount : (if len > max then max else len) = min len max := by split <;> omega
      have hle : min len max ≤ len := Nat.min_le_left _ _
      have hpos : 0 < len → 0 < min len max := fun h => Nat.lt_min.mpr ⟨h, hmax⟩
      rw [copyMemoryLoop, hamount]
      generalize min len max = k at hle hpos
      have hfill : ∀ x, ¬ InBlock (dst, len) x → m.fill dst k (fun i => m (wrap32 (src + i))) x = m x := by
        intro x hx
        apply Mem.fill_out
        unfold InBlock at hx
        omega
      by_cases hend : len - k = 0
      · obtain rfl : k = len := by omega
        rw [if_pos hend]
        exact ⟨fun i hi _ => Mem.fill_in hi, hfill⟩
      · rw [if_neg hend, wrap32_of_lt (show dst + k < 2 ^ 32 by omega)]
        obtain ⟨hcopy, hframe⟩ := ih (m.fill dst k fun i => m (wrap32 (src + i))) (dst + k) (wrap32 (src + k)) (len - k)
          (by omega) (by omega)
        constructor
        · intro i hi hout
          rcases Nat.lt_or_ge i k with hik | hik
          · rw [hframe _ (by unfold InBlock; omega)]
            exact Mem.fill_in hik
          · obtain ⟨j, rfl⟩ := Nat.exists_eq_add_of_le hik
            have hsrc : wrap32 (wrap32 (src + k) + j) = wrap32 (src + (k + j)) := by unfold wrap32; omega
            have hout' : ¬ InBlock (dst + k, len - k) (wrap32 (src + (k + j))) := by
              unfold InBlock at hout ⊢
              omega
            rw [← Nat.add_assoc dst, hcopy j (by omega) (hsrc ▸ hout'), hsrc]
            exact hfill _ hout
        · intro x hx
          rw [hframe x (by unfold InBlock at hx ⊢; omega)]
          exact hfill x hx

theorem copyMemory_spec (env : LoadEnv) (m : Mem) {dst src len : Nat} (hdst : dst + len ≤ 2 ^ 32) :
    (∀ i < len, ¬ InBlock (dst, len) (wrap32 (src + i)) → copyMemory env m dst src len (dst + i) = m (wrap32 (src + i))) ∧
    ∀ x, ¬ InBlock (dst, len) x → copyMemory env m dst src len x = m x := by
  rcases Nat.eq_zero_or_pos len with rfl | hlen
  · have hnone : copyMemory env m dst src 0 = m := by
      rw [copyMemory, copyMemoryLoop, if_neg (Nat.not_lt_zero _), if_pos (Nat.sub_self 0)]
      funext x
      exact Mem.fill_out (by omega)
    rw [hnone]
    exact ⟨fun i hi => absurd hi (Nat.not_lt_zero i), fun _ _ => rfl⟩
  · refine copyMemoryLoop_spec ?_ _ m dst src len (Nat.lt_succ_self len) hdst
    split
    · decide
    · exact hlen

/-! ## 新しいブロック -/

/-- `calloc_ram()` と `copy_memory()` のあとの状態。 -/
def callocCopy (env : LoadEnv) (s : LoadState) (size src len : Nat) : LoadState :=
  { (callocRam env s size).1 with
    mem := copyMemory env (callocRam env s size).1.mem (callocRam env s size).2 src len }

theorem callocRam_mem {size x : Nat} (hsize : pageSize ∣ size) (hfit : env.alloc s.blocks size + size ≤ 2 ^ 32) :
    (callocRam env s size).1.mem x = if InBlock (env.alloc s.blocks size, size) x then 0 else s.mem x := by
  rw [callocRam]
  dsimp only
  by_cases hnull : env.alloc s.blocks size = nullPaddr
  · have hzero : size = 0 := by
      obtain ⟨k, rfl⟩ := hsize
      unfold nullPaddr at hnull
      unfold pageSize at *
      omega
    rw [if_neg (not_not_intro hnull), if_neg]
    unfold InBlock
    omega
  · rw [if_pos hnull, Mem.fill]
    rfl

/-- 新しいブロックには、複写したバイトのあとに 0 が並ぶ。 -/
theorem callocCopy_spec (src : Nat) {size len : Nat} (hsize : pageSize ∣ size) (hlen : len ≤ size)
    (hfit : env.alloc s.blocks size + size ≤ 2 ^ 32) :
    (∀ i < len, ¬ InBlock (env.alloc s.blocks size, size) (wrap32 (src + i)) →
      (callocCopy env s size src len).mem (env.alloc s.blocks size + i) = s.mem (wrap32 (src + i))) ∧
    (∀ i, len ≤ i → i < size → (callocCopy env s size src len).mem (env.alloc s.blocks size + i) = 0) ∧
    ∀ x, ¬ InBlock (env.alloc s.blocks size, size) x → (callocCopy env s size src len).mem x = s.mem x := by
  have hmem : ∀ x, (callocRam env s size).1.mem x = if InBlock (env.alloc s.blocks size, size) x then 0 else s.mem x :=
    fun x => callocRam_mem hsize hfit
  have hdst : env.alloc s.blocks size + len ≤ 2 ^ 32 := by omega
  obtain ⟨hcopy, hframe⟩ := copyMemory_spec env (callocRam env s size).1.mem hdst
  have hsub : ∀ x, ¬ InBlock (env.alloc s.blocks size, size) x → ¬ InBlock (env.alloc s.blocks size, len) x := by
    intro x hx
    unfold InBlock at *
    omega
  refine ⟨fun i hi hout => ?_, fun i hi hlt => ?_, fun x hx => ?_⟩
  · exact (hcopy i hi (hsub _ hout)).trans ((hmem _).trans (if_neg hout))
  · refine (hframe _ ?_).trans ((hmem _).trans (if_pos ?_))
    · unfold InBlock
      omega
    · unfold InBlock
      omega
  · exact (hframe x (hsub x hx)).trans ((hmem x).trans (if_neg hx))

/-! ## 区画の写像 -/

/-- 番地 `v` を写す。 -/
def Mapping.Has (mp : Mapping) (v : Nat) : Prop := mp.vaddr ≤ v ∧ v < mp.vaddr + mp.size

/-- 番地 `v` を写した先。 -/
def Mapping.phys (mp : Mapping) (v : Nat) : Nat := wrap32 (mp.paddr + (v - mp.vaddr))

/-- ページ `q` の番地を写す。 -/
def Mapping.Covers (mp : Mapping) (q : Nat) : Prop :=
  0 < mp.size ∧ mp.vaddr < (q + 1) * pageSize ∧ q * pageSize < mp.vaddr + mp.size

instance (mp : Mapping) (q : Nat) : Decidable (mp.Covers q) := inferInstanceAs (Decidable (_ ∧ _ ∧ _))

/-- ファイルの `i` 番目のバイトの番地。 -/
def Phdr.fileAddr (addr : Nat) (p : Phdr) (i : Nat) : Nat := wrap32 ((if p.pPaddr ≠ 0 then p.pPaddr else addr + p.pOffset) + i)

/-- 区画は、最初のページの始めから数えて、ページ `q` に掛かる。 -/
def Phdr.Touches (p : Phdr) (q : Nat) : Prop := p.pVaddr / pageSize ≤ q ∧ q * pageSize < p.pVaddr + p.pMemsz

instance (p : Phdr) (q : Nat) : Decidable (p.Touches q) := inferInstanceAs (Decidable (_ ∧ _))

/-- 32 ビットの番地に収まり、`p_paddr` があれば、そのページの中の位置は `p_vaddr` と等しい。 -/
structure Phdr.WellFormed (p : Phdr) : Prop where
  filesz : p.pFilesz ≤ p.pMemsz
  stop : p.pVaddr + p.pMemsz < 2 ^ 32
  pages : p.pVaddr % pageSize + p.pMemsz ≤ 2 ^ 32 - pageSize
  paddr : p.pPaddr < 2 ^ 32
  congruent : p.pPaddr ≠ 0 → p.pPaddr % pageSize = p.pVaddr % pageSize

/-- 新しいブロックは 32 ビットの番地に収まり、区画のファイルのバイトに重ならない。 -/
structure Fresh (addr : Nat) (p : Phdr) (block : Nat × Nat) : Prop where
  fits : block.1 + block.2 ≤ 2 ^ 32
  unused : ∀ i < p.pFilesz, ¬ InBlock block (p.fileAddr addr i)

/-- 区画 `p` の読み込みが、写像 `new` とブロック `fresh` を加え、記憶域を `m` から `m'` に変える。 -/
structure Loads (addr : Nat) (p : Phdr) (m m' : Mem) (new : List Mapping) (fresh : List (Nat × Nat)) : Prop where
  frame : ∀ x, (∀ b ∈ fresh, ¬ InBlock b x) → m' x = m x
  count : ∀ q, new.countP (fun mp => mp.Covers q) = if p.Touches q then 1 else 0
  has : ∀ v, p.pVaddr ≤ v → v < p.pVaddr + p.pMemsz → ∃ mp ∈ new, mp.Has v
  file : ∀ i < p.pFilesz, ∀ mp ∈ new, mp.Has (p.pVaddr + i) → mp.phys (p.pVaddr + i) = p.fileAddr addr i ∨
    ∃ b ∈ fresh, InBlock b (mp.phys (p.pVaddr + i)) ∧ m' (mp.phys (p.pVaddr + i)) = m (p.fileAddr addr i)
  zero : ∀ i, p.pFilesz ≤ i → i < p.pMemsz → ∀ mp ∈ new, mp.Has (p.pVaddr + i) →
    ∃ b ∈ fresh, InBlock b (mp.phys (p.pVaddr + i)) ∧ m' (mp.phys (p.pVaddr + i)) = 0

theorem covers_iff {a paddr size flags q : Nat} :
    (Mapping.mk (a * pageSize) paddr size flags).Covers q ↔ a ≤ q ∧ q * pageSize < a * pageSize + size := by
  unfold Mapping.Covers pageSize
  dsimp only
  omega

theorem roundPg_eq {x : Nat} (h : x ≤ 2 ^ 32 - pageSize) : roundPg x = roundUp x pageSize := by
  apply isAlign_page.round_eq
  unfold pageSize at *
  omega

theorem bic_pageBits {x : Nat} (hx : x < 2 ^ 32) : bic x pageBits = x / pageSize * pageSize := bic_low (k := 12) hx (by decide)

theorem and_pageBits (x : Nat) : x &&& pageBits = x % pageSize := Nat.and_two_pow_sub_one_eq_mod x 12

/-- 区画の大きさ。最初のページの始めから数える。 -/
def Phdr.span (p : Phdr) : Nat := p.pMemsz + p.pVaddr % pageSize

/-- ファイルにある部分の大きさ。最初のページの始めから数える。 -/
def Phdr.fileSpan (p : Phdr) : Nat := p.pFilesz + p.pVaddr % pageSize

theorem phys_block {vaddr paddr size flags v j : Nat} (hv : v = vaddr + j) (hlt : paddr + j < 2 ^ 32) :
    (Mapping.mk vaddr paddr size flags).phys v = paddr + j := by
  rw [Mapping.phys, hv, Nat.add_sub_cancel_left, wrap32_of_lt hlt]

/-- 区画の全体をその場で写す。 -/
theorem loads_inPlace (hp : p.WellFormed) (hpaddr : p.pPaddr ≠ 0) (heq : p.pMemsz = p.pFilesz) :
    Loads addr p m m
      [⟨p.pVaddr / pageSize * pageSize, p.pPaddr / pageSize * pageSize, roundUp p.span pageSize, p.pFlags⟩] [] := by
  have hcong := hp.congruent hpaddr
  have hle := le_roundUp p.span (show 0 < pageSize by decide)
  constructor
  case frame =>
    intro x _
    rfl
  case count =>
    intro q
    have hiff : (p.pVaddr / pageSize ≤ q ∧ q * pageSize < p.pVaddr / pageSize * pageSize + roundUp p.span pageSize) ↔
        p.Touches q := by
      unfold Phdr.Touches roundUp Phdr.span pageSize
      omega
    rw [List.countP_singleton]
    simp only [covers_iff, hiff, decide_eq_true_eq]
  case has =>
    intro v hv hlt
    refine ⟨_, List.mem_singleton_self _, ?_⟩
    unfold Mapping.Has
    unfold Phdr.span pageSize at *
    dsimp only
    omega
  case file =>
    intro i hi mp hm hhas
    obtain rfl := List.mem_singleton.mp hm
    left
    rw [Mapping.phys, Phdr.fileAddr, if_pos hpaddr]
    congr 1
    unfold pageSize at *
    dsimp only
    omega
  case zero =>
    intro i hi hlt
    omega

/-- `p_filesz` を越える最後のページから先は、新しいブロックに置く。 -/
theorem loads_bss {whole size src : Nat} (hp : p.WellFormed) (hpaddr : p.pPaddr ≠ 0) (hlt : p.pFilesz < p.pMemsz)
    (hwhole : whole = p.fileSpan / pageSize * pageSize) (hsize : size = roundUp (p.span - whole) pageSize)
    (hsrc : src = wrap32 (p.pPaddr / pageSize * pageSize + whole))
    (hfresh : Fresh addr p (env.alloc s.blocks size, size)) :
    Loads addr p s.mem (callocCopy env s size src (p.fileSpan % pageSize)).mem
      [⟨p.pVaddr / pageSize * pageSize, p.pPaddr / pageSize * pageSize, whole, p.pFlags⟩,
        ⟨p.pVaddr / pageSize * pageSize + whole, env.alloc s.blocks size, size, p.pFlags⟩]
      [(env.alloc s.blocks size, size)] := by
  have hcong := hp.congruent hpaddr
  have hdvd : pageSize ∣ size := hsize ▸ dvd_roundUp _ _
  have hle : p.span - whole ≤ size := hsize ▸ le_roundUp _ (show 0 < pageSize by decide)
  have hlen : p.fileSpan % pageSize ≤ size := by
    unfold Phdr.fileSpan Phdr.span pageSize at *
    omega
  obtain ⟨hcopy, hzero, hframe⟩ := callocCopy_spec src hdvd hlen hfresh.fits
  have hfit := hfresh.fits
  constructor
  case frame =>
    intro x hx
    exact hframe x (hx _ (List.mem_singleton_self _))
  case count =>
    intro q
    have hfirst : (Mapping.mk (p.pVaddr / pageSize * pageSize) (p.pPaddr / pageSize * pageSize) whole p.pFlags).Covers q ↔
        p.Touches q ∧ q < (p.pVaddr + p.pFilesz) / pageSize := by
      rw [covers_iff]
      unfold Phdr.Touches
      unfold Phdr.fileSpan pageSize at *
      omega
    have hsecond : (Mapping.mk (p.pVaddr / pageSize * pageSize + whole) (env.alloc s.blocks size) size p.pFlags).Covers q ↔
        p.Touches q ∧ (p.pVaddr + p.pFilesz) / pageSize ≤ q := by
      rw [hwhole, ← Nat.add_mul, covers_iff]
      unfold Phdr.Touches
      unfold roundUp Phdr.span Phdr.fileSpan pageSize at *
      omega
    rw [List.countP_cons, List.countP_singleton]
    simp only [hfirst, hsecond, decide_eq_true_eq]
    by_cases htouch : p.Touches q
    · rcases Nat.lt_or_ge q ((p.pVaddr + p.pFilesz) / pageSize) with hq | hq
      · simp [htouch, hq, Nat.not_le.mpr hq]
      · simp [htouch, hq, Nat.not_lt.mpr hq]
    · simp [htouch]
  case has =>
    intro v hv hstop
    unfold Mapping.Has
    rcases Nat.lt_or_ge v (p.pVaddr / pageSize * pageSize + whole) with hv' | hv'
    · refine ⟨_, List.mem_cons_self, ?_, hv'⟩
      dsimp only
      unfold pageSize
      omega
    · refine ⟨_, List.mem_cons_of_mem _ (List.mem_singleton_self _), hv', ?_⟩
      dsimp only
      unfold Phdr.span pageSize at *
      omega
  case file =>
    intro i hi mp hm hhas
    rcases List.mem_cons.mp hm with rfl | hm
    · left
      rw [Mapping.phys, Phdr.fileAddr, if_pos hpaddr]
      congr 1
      unfold pageSize at *
      dsimp only
      omega
    · obtain rfl := List.mem_singleton.mp hm
      obtain ⟨j, hj⟩ := Nat.exists_eq_add_of_le hhas.1
      dsimp only at hj
      have hjlen : j < p.fileSpan % pageSize := by
        unfold Phdr.fileSpan pageSize at *
        omega
      have hfile : wrap32 (src + j) = p.fileAddr addr i := by
        rw [hsrc, Phdr.fileAddr, if_pos hpaddr]
        unfold wrap32
        unfold pageSize at *
        omega
      rw [phys_block hj (by omega)]
      refine .inr ⟨_, List.mem_singleton_self _, ⟨Nat.le_add_right _ _, by dsimp only; omega⟩, ?_⟩
      rw [← hfile]
      apply hcopy j hjlen
      rw [hfile]
      exact hfresh.unused i hi
  case zero =>
    intro i hi hstop mp hm hhas
    rcases List.mem_cons.mp hm with rfl | hm
    · exfalso
      have := hhas.2
      unfold Phdr.fileSpan pageSize at *
      dsimp only at this
      omega
    · obtain rfl := List.mem_singleton.mp hm
      obtain ⟨j, hj⟩ := Nat.exists_eq_add_of_le hhas.1
      have hjsize := hhas.2
      dsimp only at hj hjsize
      rw [phys_block hj (by omega)]
      refine ⟨_, List.mem_singleton_self _, ⟨Nat.le_add_right _ _, by dsimp only; omega⟩, ?_⟩
      apply hzero j _ (by omega)
      unfold Phdr.fileSpan pageSize at *
      omega

/-- 区画の全体を、新しいブロックに写して置く。 -/
theorem loads_copied {memsz size src len : Nat} (hp : p.WellFormed) (hpaddr : p.pPaddr = 0)
    (hmemsz : p.span ≤ memsz ∧ memsz ≤ roundUp p.span pageSize) (hsize : size = roundUp p.span pageSize)
    (hlen : p.fileSpan ≤ len ∧ len ≤ size) (htail : p.pFilesz < p.pMemsz → len = p.fileSpan)
    (hsrc : src = wrap32 (wrap32 (addr + p.pOffset) + (2 ^ 32 - p.pVaddr % pageSize)))
    (hfresh : Fresh addr p (env.alloc s.blocks size, size)) :
    Loads addr p s.mem (callocCopy env s size src len).mem
      [⟨p.pVaddr / pageSize * pageSize, env.alloc s.blocks size, memsz, p.pFlags⟩] [(env.alloc s.blocks size, size)] := by
  have hdvd : pageSize ∣ size := hsize ▸ dvd_roundUp _ _
  obtain ⟨hcopy, hzero, hframe⟩ := callocCopy_spec src hdvd hlen.2 hfresh.fits
  have hfit := hfresh.fits
  have hfilesz := hp.filesz
  have hspan : p.span ≤ size := hsize ▸ hmemsz.1.trans hmemsz.2
  -- 区画の `i` 番目のバイトは、ブロックの `p_vaddr & PAGEBITS` 足す `i` の位置にある。
  have hphys : ∀ i < p.pMemsz, (Mapping.mk (p.pVaddr / pageSize * pageSize) (env.alloc s.blocks size) memsz p.pFlags).phys
      (p.pVaddr + i) = env.alloc s.blocks size + (p.pVaddr % pageSize + i) := by
    intro i hi
    apply phys_block
    · unfold pageSize
      omega
    · unfold Phdr.span at hspan
      omega
  have hblock : ∀ i < p.pMemsz, InBlock (env.alloc s.blocks size, size) (env.alloc s.blocks size + (p.pVaddr % pageSize + i)) := by
    intro i hi
    unfold Phdr.span at hspan
    exact ⟨Nat.le_add_right _ _, by dsimp only; omega⟩
  constructor
  case frame =>
    intro x hx
    exact hframe x (hx _ (List.mem_singleton_self _))
  case count =>
    intro q
    have hiff : (p.pVaddr / pageSize ≤ q ∧ q * pageSize < p.pVaddr / pageSize * pageSize + memsz) ↔ p.Touches q := by
      unfold Phdr.Touches
      unfold roundUp Phdr.span pageSize at *
      omega
    rw [List.countP_singleton]
    simp only [covers_iff, hiff, decide_eq_true_eq]
  case has =>
    intro v hv hlt
    refine ⟨_, List.mem_singleton_self _, ?_⟩
    unfold Mapping.Has
    unfold Phdr.span pageSize at *
    dsimp only
    omega
  case file =>
    intro i hi mp hm hhas
    obtain rfl := List.mem_singleton.mp hm
    have hi' : i < p.pMemsz := by omega
    have hfile : wrap32 (src + (p.pVaddr % pageSize + i)) = p.fileAddr addr i := by
      rw [hsrc, Phdr.fileAddr, if_neg (not_not_intro hpaddr)]
      unfold wrap32 pageSize
      omega
    rw [hphys i hi']
    refine .inr ⟨_, List.mem_singleton_self _, hblock i hi', ?_⟩
    rw [← hfile]
    apply hcopy
    · unfold Phdr.fileSpan at hlen
      omega
    · rw [hfile]
      exact hfresh.unused i hi
  case zero =>
    intro i hi hlt mp hm hhas
    obtain rfl := List.mem_singleton.mp hm
    have hlen' := htail (hi.trans_lt hlt)
    rw [hphys i hlt]
    refine ⟨_, List.mem_singleton_self _, hblock i hlt, ?_⟩
    apply hzero
    · unfold Phdr.fileSpan at hlen'
      omega
    · exact Nat.lt_of_add_lt_add_left (hblock i hlt).2

/-! ## `load_elf32mmu()` の一つの区画 -/

theorem elfMap_callocCopy {vaddr paddr size flags src len : Nat} (t : LoadState) (ht : t.mem = s.mem) (hb : t.blocks = s.blocks) :
    (elfMap (callocCopy env t size src len) vaddr paddr size flags).mem = (callocCopy env s size src len).mem := by
  simp only [elfMap, callocCopy, callocRam, ht, hb]

theorem Phdr.WellFormed.roundUp_lt (hp : p.WellFormed) {x : Nat} (hx : x ≤ p.span) : roundUp x pageSize < 2 ^ 32 := by
  have := hp.pages
  unfold roundUp
  unfold Phdr.span pageSize at *
  omega

theorem Phdr.WellFormed.roundPg_eq (hp : p.WellFormed) {x : Nat} (hx : x ≤ p.span) : roundPg x = roundUp x pageSize := by
  apply Elf.roundPg_eq
  have := hp.pages
  unfold Phdr.span at hx
  omega

theorem Phdr.WellFormed.fileSpan_le (hp : p.WellFormed) : p.fileSpan ≤ p.span := Nat.add_le_add_right hp.filesz _

theorem roundPg_roundUp {x : Nat} (h : roundUp x pageSize < 2 ^ 32) : roundPg (roundUp x pageSize) = roundUp x pageSize := by
  rw [roundPg_eq, roundUp_of_dvd (by decide) (dvd_roundUp _ _)]
  unfold roundUp at *
  unfold pageSize at *
  omega

theorem loadInPlace_full {vaddr paddr filesz memsz whole : Nat} (heq : p.pMemsz = p.pFilesz) (hround : roundPg filesz = whole)
    (hdvd : pageSize ∣ whole) (hlt : whole < 2 ^ 32) :
    loadInPlace env p vaddr paddr filesz memsz s = elfMap s vaddr paddr whole p.pFlags := by
  have hbic : bic whole pageBits = whole := by
    rw [bic_pageBits hlt, Nat.div_mul_cancel hdvd]
  have hrest : wrap32 (whole + (2 ^ 32 - whole)) = 0 := by
    rw [Nat.add_sub_cancel' hlt.le]
    rfl
  have hzero : roundPg 0 = 0 := by decide
  rw [loadInPlace, if_pos heq]
  dsimp only
  rw [hround, hbic, hrest, hzero, if_neg (not_not_intro rfl)]

theorem loadInPlace_bss {vaddr paddr filesz memsz whole : Nat} (hne : p.pMemsz ≠ p.pFilesz)
    (hwhole : whole = filesz / pageSize * pageSize) (hfilesz : filesz ≤ memsz) (hmemsz : memsz ≤ 2 ^ 32 - pageSize)
    (hlt : whole < memsz) (hvaddr : vaddr + whole < 2 ^ 32) :
    loadInPlace env p vaddr paddr filesz memsz s =
      elfMap (callocCopy env (elfMap s vaddr paddr whole p.pFlags) (roundUp (memsz - whole) pageSize) (wrap32 (paddr + whole))
        (filesz % pageSize)) (vaddr + whole) (env.alloc s.blocks (roundUp (memsz - whole) pageSize))
        (roundUp (memsz - whole) pageSize) p.pFlags := by
  have hmem32 : memsz < 2 ^ 32 := by
    unfold pageSize at hmemsz
    omega
  have hbic : bic filesz pageBits = whole := by rw [bic_pageBits (hfilesz.trans_lt hmem32), hwhole]
  have hrest : wrap32 (memsz + (2 ^ 32 - whole)) = memsz - whole := wrap32_sub hlt.le hmem32
  have hround : roundPg (memsz - whole) = roundUp (memsz - whole) pageSize := roundPg_eq (by omega)
  have hpos : roundUp (memsz - whole) pageSize ≠ 0 := (roundUp_pos (by decide) (Nat.sub_pos_of_lt hlt)).ne'
  rw [loadInPlace, if_neg hne]
  dsimp only
  rw [hbic, hrest, hround, if_pos hpos, and_pageBits, wrap32_of_lt hvaddr]
  rfl

theorem loadCopied_eq {vaddr filesz memsz : Nat} :
    loadCopied env addr p vaddr filesz memsz s =
      elfMap (callocCopy env s (roundPg memsz) (wrap32 (wrap32 (addr + p.pOffset) + (2 ^ 32 - p.pVaddr % pageSize))) filesz)
        vaddr (env.alloc s.blocks (roundPg memsz)) memsz p.pFlags := by
  rw [loadCopied, and_pageBits]
  rfl

/-- 一つの区画の読み込みが加える写像とブロック。 -/
structure Extends (addr : Nat) (p : Phdr) (s s' : LoadState) (new : List Mapping) (fresh : List (Nat × Nat)) : Prop where
  mappings : s'.mappings = s.mappings ++ new
  blocks : s'.blocks = s.blocks ++ fresh
  loads : (∀ b ∈ fresh, Fresh addr p b) → Loads addr p s.mem s'.mem new fresh

theorem loadSegment_extends (env : LoadEnv) (addr : Nat) (s : LoadState) (hp : p.WellFormed) :
    ∃ new fresh, Extends addr p s (loadSegment env addr s p) new fresh := by
  have hstop := hp.stop
  have hmemsz : wrap32 (p.pMemsz + (p.pVaddr &&& pageBits)) = p.span := by
    rw [and_pageBits]
    apply wrap32_of_lt
    unfold pageSize
    omega
  have hfilesz : wrap32 (p.pFilesz + (p.pVaddr &&& pageBits)) = p.fileSpan := by
    rw [and_pageBits]
    apply wrap32_of_lt
    have := hp.filesz
    unfold pageSize
    omega
  have hpages : p.span ≤ 2 ^ 32 - pageSize := (Nat.add_comm _ _).trans_le hp.pages
  have hspan := hp.fileSpan_le
  rw [loadSegment, hmemsz, hfilesz, bic_pageBits (by omega), bic_pageBits hp.paddr]
  dsimp only
  have hle := le_roundUp p.span (show 0 < pageSize by decide)
  have hround : roundPg p.span = roundUp p.span pageSize := hp.roundPg_eq le_rfl
  have htwice : roundPg (roundUp p.span pageSize) = roundUp p.span pageSize := roundPg_roundUp (hp.roundUp_lt le_rfl)
  obtain ⟨filesz, memsz, hsizes, hcases⟩ : ∃ filesz memsz,
      (if p.pFlags &&& pfW = 0 ∧ p.span = p.fileSpan then (roundPg p.fileSpan, roundPg p.fileSpan) else (p.fileSpan, p.span)) =
        (filesz, memsz) ∧
      (p.fileSpan = p.span ∧ filesz = roundUp p.span pageSize ∧ memsz = roundUp p.span pageSize ∨
        filesz = p.fileSpan ∧ memsz = p.span) := by
    split
    · next h => exact ⟨_, _, rfl, .inl ⟨h.2.symm, h.2 ▸ hround, h.2 ▸ hround⟩⟩
    · exact ⟨_, _, rfl, .inr ⟨rfl, rfl⟩⟩
  rw [hsizes]
  by_cases hpaddr : p.pPaddr = 0
  · have hsize : roundPg memsz = roundUp p.span pageSize := by
      rcases hcases with ⟨-, -, rfl⟩ | ⟨-, rfl⟩
      · exact htwice
      · exact hround
    have hmem : p.span ≤ memsz ∧ memsz ≤ roundUp p.span pageSize := by
      rcases hcases with ⟨-, -, rfl⟩ | ⟨-, rfl⟩
      · exact ⟨hle, le_rfl⟩
      · exact ⟨le_rfl, hle⟩
    have hlen : p.fileSpan ≤ filesz ∧ filesz ≤ roundPg memsz := by
      rw [hsize]
      rcases hcases with ⟨-, rfl, -⟩ | ⟨rfl, -⟩
      · exact ⟨hspan.trans hle, le_rfl⟩
      · exact ⟨le_rfl, hspan.trans hle⟩
    have htail : p.pFilesz < p.pMemsz → filesz = p.fileSpan := by
      intro hlt
      rcases hcases with ⟨heq, -, -⟩ | ⟨rfl, -⟩
      · exact absurd heq (Nat.add_lt_add_right hlt _).ne
      · rfl
    rw [if_neg (not_not_intro hpaddr), loadCopied_eq]
    refine ⟨_, _, rfl, rfl, fun hfresh => ?_⟩
    exact loads_copied hp hpaddr hmem hsize hlen htail rfl (hfresh _ (List.mem_singleton_self _))
  · rw [if_pos hpaddr]
    by_cases heq : p.pMemsz = p.pFilesz
    · have hspaneq : p.fileSpan = p.span := by rw [Phdr.fileSpan, Phdr.span, heq]
      have hfull : roundPg filesz = roundUp p.span pageSize := by
        rcases hcases with ⟨-, rfl, -⟩ | ⟨rfl, -⟩
        · exact htwice
        · rw [hspaneq, hround]
      rw [loadInPlace_full heq hfull (dvd_roundUp _ _) (hp.roundUp_lt le_rfl)]
      exact ⟨_, [], rfl, (List.append_nil _).symm, fun _ => loads_inPlace hp hpaddr heq⟩
    · have hlt : p.pFilesz < p.pMemsz := lt_of_le_of_ne hp.filesz (Ne.symm heq)
      have hspanlt : p.fileSpan < p.span := Nat.add_lt_add_right hlt _
      obtain ⟨rfl, rfl⟩ : filesz = p.fileSpan ∧ memsz = p.span := by
        rcases hcases with ⟨h, -, -⟩ | h
        · exact absurd h hspanlt.ne
        · exact h
      rw [loadInPlace_bss heq rfl hspan hpages]
      · refine ⟨_, _, List.append_assoc _ _ _, rfl, fun hfresh => ?_⟩
        exact loads_bss hp hpaddr hlt rfl rfl rfl (hfresh _ (List.mem_singleton_self _))
      · exact (Nat.div_mul_le_self _ _).trans_lt hspanlt
      · have := hp.filesz
        unfold Phdr.fileSpan pageSize
        omega

end Imx6Bsp.Startup.Elf
