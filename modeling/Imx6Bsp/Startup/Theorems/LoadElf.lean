import Imx6Bsp.Startup.Lemmas.LoadElf

/-!
# `load_elf32mmu()` が読み込む区画

区画がページを共有しなければ、どの区画も正しく読み込まれ、各ページはちょうど一度写される。`boot_vaddr_base` は最も低い区画の
ページの始めであり、`boot_vaddr_end` は最も高い区画の終わりである。
-/

namespace Imx6Bsp.Startup.Elf

open Imx6Bsp.Lib

/-- `PT_LOAD` の区画。 -/
def loadable (phdrs : List Phdr) : List Phdr := phdrs.filter fun p => p.pType = ptLoad

/-- 最初の実行形式の読み込みの結果。 -/
def loaded (env : LoadEnv) (m : Mem) (addr : Nat) (phdrs : List Phdr) : LoadState :=
  loadElf32mmu env addr phdrs ⟨m, [], [], 0, 0⟩

/-- 区画の最初のページの始め。 -/
def Phdr.page (p : Phdr) : Nat := p.pVaddr / pageSize * pageSize

def Phdr.stop (p : Phdr) : Nat := p.pVaddr + p.pMemsz

/-- `calloc_ram()` は、区画のファイルのバイトにも、ほかのブロックにも重ならない記憶域を返す。 -/
structure FreshBlocks (addr : Nat) (loads : List Phdr) (blocks : List (Nat × Nat)) : Prop where
  apart : blocks.Pairwise fun b b' => ∀ x, InBlock b x → ¬ InBlock b' x
  fresh : ∀ p ∈ loads, ∀ b ∈ blocks, Fresh addr p b

/-- 区画は、ページを共有しない。 -/
def SeparatePages (loads : List Phdr) : Prop := loads.Pairwise fun p p' => ∀ q, p.Touches q → ¬ p'.Touches q

/-- 区画のどの番地も写され、各ページは一度だけ写され、写した先にはファイルのバイトと 0 が並ぶ。 -/
structure Phdr.Loaded (m : Mem) (addr : Nat) (s : LoadState) (p : Phdr) : Prop where
  has : ∀ v, p.pVaddr ≤ v → v < p.stop → ∃ mp ∈ s.mappings, mp.Has v
  once : ∀ v, p.pVaddr ≤ v → v < p.stop → s.mappings.countP (fun mp => mp.Covers (v / pageSize)) = 1
  file : ∀ i < p.pFilesz, ∀ mp ∈ s.mappings, mp.Has (p.pVaddr + i) → s.mem (mp.phys (p.pVaddr + i)) = m (p.fileAddr addr i)
  zero : ∀ i, p.pFilesz ≤ i → i < p.pMemsz → ∀ mp ∈ s.mappings, mp.Has (p.pVaddr + i) → s.mem (mp.phys (p.pVaddr + i)) = 0

/-- どの区画も正しく読み込まれ、`boot_vaddr_base` と `boot_vaddr_end` は区画の全体を囲む最小の範囲である。 -/
def LoadsFaithfully (env : LoadEnv) (m : Mem) (addr : Nat) (phdrs : List Phdr) : Prop :=
  (∀ p ∈ loadable phdrs, p.Loaded m addr (loaded env m addr phdrs)) ∧
    (loadable phdrs ≠ [] → IsLeast {a | ∃ p ∈ loadable phdrs, p.pVaddr = a} (loaded env m addr phdrs).bootVaddrBase ∧
      IsGreatest {e | ∃ p ∈ loadable phdrs, p.stop = e} (loaded env m addr phdrs).bootVaddrEnd)

variable {env : LoadEnv} {m : Mem} {s : LoadState} {addr : Nat} {p : Phdr}

theorem loadElf32mmu_eq (phdrs : List Phdr) :
    loadElf32mmu env addr phdrs s = (loadable phdrs).foldl (loadSegment env addr) s := by
  rw [loadElf32mmu, loadable, List.foldl_filter]
  simp only [decide_eq_true_eq]

/-! ## 区画の列 -/

theorem Mapping.Has.covers {mp : Mapping} {v : Nat} (h : mp.Has v) : mp.Covers (v / pageSize) := by
  obtain ⟨hle, hlt⟩ := h
  unfold Mapping.Covers pageSize
  omega

theorem Phdr.touches_div {v : Nat} (hv : p.pVaddr ≤ v) (hlt : v < p.stop) : p.Touches (v / pageSize) := by
  unfold Phdr.Touches
  unfold Phdr.stop at hlt
  unfold pageSize
  omega

/-- 区画の列の読み込みが加える写像とブロック。 -/
structure Appends (addr : Nat) (loads : List Phdr) (s s' : LoadState) (new : List Mapping) (fresh : List (Nat × Nat)) : Prop where
  mappings : s'.mappings = s.mappings ++ new
  blocks : s'.blocks = s.blocks ++ fresh
  frame : (∀ p ∈ loads, ∀ b ∈ fresh, Fresh addr p b) → ∀ x, (∀ b ∈ fresh, ¬ InBlock b x) → s'.mem x = s.mem x
  count : (∀ p ∈ loads, ∀ b ∈ fresh, Fresh addr p b) → ∀ q, (∀ p ∈ loads, ¬ p.Touches q) →
    new.countP (fun mp => mp.Covers q) = 0

theorem foldl_appends (env : LoadEnv) (addr : Nat) {loads : List Phdr} (hok : ∀ p ∈ loads, p.WellFormed) :
    ∀ s : LoadState, ∃ new fresh, Appends addr loads s (loads.foldl (loadSegment env addr) s) new fresh := by
  induction loads with
  | nil =>
      intro s
      exact ⟨[], [], (List.append_nil _).symm, (List.append_nil _).symm, fun _ _ _ => rfl, fun _ _ _ => rfl⟩
  | cons p loads ih =>
      intro s
      obtain ⟨new, fresh, hseg⟩ := loadSegment_extends env addr s (hok p List.mem_cons_self)
      obtain ⟨new', fresh', hrest⟩ := ih (fun p' hm => hok p' (List.mem_cons_of_mem _ hm)) (loadSegment env addr s p)
      refine ⟨new ++ new', fresh ++ fresh', ?_, ?_, ?_, ?_⟩
      · rw [List.foldl_cons, hrest.mappings, hseg.mappings, List.append_assoc]
      · rw [List.foldl_cons, hrest.blocks, hseg.blocks, List.append_assoc]
      · intro hfresh x hx
        have h1 := hseg.loads fun b hb => hfresh p List.mem_cons_self b (List.mem_append_left _ hb)
        have h2 := hrest.frame fun p' hm b hb => hfresh p' (List.mem_cons_of_mem _ hm) b (List.mem_append_right _ hb)
        exact (h2 x fun b hb => hx b (List.mem_append_right _ hb)).trans
          (h1.frame x fun b hb => hx b (List.mem_append_left _ hb))
      · intro hfresh q hq
        have h1 := hseg.loads fun b hb => hfresh p List.mem_cons_self b (List.mem_append_left _ hb)
        have h2 := hrest.count fun p' hm b hb => hfresh p' (List.mem_cons_of_mem _ hm) b (List.mem_append_right _ hb)
        rw [List.countP_append, h1.count q, if_neg (hq p List.mem_cons_self),
          h2 q fun p' hm => hq p' (List.mem_cons_of_mem _ hm)]

theorem not_covers_of_count {ms : List Mapping} {q : Nat} (h : ms.countP (fun mp => mp.Covers q) = 0) {mp : Mapping}
    (hm : mp ∈ ms) : ¬ mp.Covers q := by
  intro hc
  exact List.countP_eq_zero.mp h mp hm (decide_eq_true hc)

/-- ページを共有しない区画の列の中では、どの区画も正しく読み込まれる。 -/
theorem foldl_loaded {before after : List Phdr} (hok : ∀ p' ∈ before ++ p :: after, p'.WellFormed)
    (hapart : SeparatePages (before ++ p :: after))
    (hfresh : FreshBlocks addr (before ++ p :: after) ((before ++ p :: after).foldl (loadSegment env addr) ⟨m, [], [], 0, 0⟩).blocks) :
    p.Loaded m addr ((before ++ p :: after).foldl (loadSegment env addr) ⟨m, [], [], 0, 0⟩) := by
  have hp : p ∈ before ++ p :: after := List.mem_append_right _ List.mem_cons_self
  have hbefore : ∀ p' ∈ before, p' ∈ before ++ p :: after := fun p' hm => List.mem_append_left _ hm
  have hafter : ∀ p' ∈ after, p' ∈ before ++ p :: after :=
    fun p' hm => List.mem_append_right _ (List.mem_cons_of_mem _ hm)
  obtain ⟨ms, bs, hall⟩ := foldl_appends env addr hok ⟨m, [], [], 0, 0⟩
  rw [List.foldl_append, List.foldl_cons] at hfresh hall ⊢
  obtain ⟨new₁, fresh₁, h₁⟩ := foldl_appends env addr (fun p' hm => hok p' (hbefore p' hm)) ⟨m, [], [], 0, 0⟩
  generalize before.foldl (loadSegment env addr) ⟨m, [], [], 0, 0⟩ = s₁ at h₁ hfresh hall ⊢
  obtain ⟨new, fresh, hseg⟩ := loadSegment_extends env addr s₁ (hok p hp)
  generalize loadSegment env addr s₁ p = s₂ at hseg hfresh hall ⊢
  obtain ⟨new₂, fresh₂, h₂⟩ := foldl_appends env addr (fun p' hm => hok p' (hafter p' hm)) s₂
  generalize after.foldl (loadSegment env addr) s₂ = s₃ at h₂ hfresh hall ⊢
  -- 写像とブロックは、前の区画、この区画、後の区画の順に並ぶ。
  have hmappings : s₃.mappings = new₁ ++ (new ++ new₂) := by
    rw [h₂.mappings, hseg.mappings, h₁.mappings, List.nil_append, List.append_assoc]
  have hblocks : s₃.blocks = fresh₁ ++ (fresh ++ fresh₂) := by
    rw [h₂.blocks, hseg.blocks, h₁.blocks, List.nil_append, List.append_assoc]
  obtain ⟨hpair, hfree⟩ := hfresh
  rw [hblocks] at hpair hfree
  have hfree₁ : ∀ p' ∈ before ++ p :: after, ∀ b ∈ fresh₁, Fresh addr p' b :=
    fun p' hm b hb => hfree p' hm b (List.mem_append_left _ hb)
  have hfree₂ : ∀ p' ∈ before ++ p :: after, ∀ b ∈ fresh₂, Fresh addr p' b :=
    fun p' hm b hb => hfree p' hm b (List.mem_append_right _ (List.mem_append_right _ hb))
  have hloads := hseg.loads fun b hb => hfree p hp b (List.mem_append_right _ (List.mem_append_left _ hb))
  have hframe₁ := h₁.frame fun p' hm => hfree₁ p' (hbefore p' hm)
  have hframe₂ := h₂.frame fun p' hm => hfree₂ p' (hafter p' hm)
  -- この区画のページは、ほかの区画の写像に含まれない。
  obtain ⟨-, htail, hcross⟩ := List.pairwise_append.mp hapart
  have hcount₁ : ∀ q, p.Touches q → new₁.countP (fun mp => mp.Covers q) = 0 := by
    intro q hq
    apply h₁.count fun p' hm => hfree₁ p' (hbefore p' hm)
    intro p' hm hq'
    exact hcross p' hm p List.mem_cons_self q hq' hq
  have hcount₂ : ∀ q, p.Touches q → new₂.countP (fun mp => mp.Covers q) = 0 := by
    intro q hq
    apply h₂.count fun p' hm => hfree₂ p' (hafter p' hm)
    intro p' hm
    exact (List.pairwise_cons.mp htail).1 p' hm q hq
  have hown : ∀ mp ∈ s₃.mappings, ∀ v, p.pVaddr ≤ v → v < p.stop → mp.Has v → mp ∈ new := by
    intro mp hm v hv hlt hhas
    have htouch := Phdr.touches_div hv hlt
    rw [hmappings] at hm
    rcases List.mem_append.mp hm with hm | hm
    · exact absurd hhas.covers (not_covers_of_count (hcount₁ _ htouch) hm)
    · rcases List.mem_append.mp hm with hm | hm
      · exact hm
      · exact absurd hhas.covers (not_covers_of_count (hcount₂ _ htouch) hm)
  -- 新しいブロックは、後の区画の読み込みで変わらない。
  obtain ⟨-, hpair₂, -⟩ := List.pairwise_append.mp hpair
  have hkeep : ∀ b ∈ fresh, ∀ x, InBlock b x → s₃.mem x = s₂.mem x := by
    intro b hb x hx
    apply hframe₂
    intro b' hb'
    exact (List.pairwise_append.mp hpair₂).2.2 b hb b' hb' x hx
  have hfile₁ : ∀ i < p.pFilesz, s₁.mem (p.fileAddr addr i) = m (p.fileAddr addr i) := by
    intro i hi
    exact hframe₁ _ fun b hb => (hfree₁ p hp b hb).unused i hi
  have hfile₃ : ∀ i < p.pFilesz, s₃.mem (p.fileAddr addr i) = m (p.fileAddr addr i) := by
    intro i hi
    obtain rfl : bs = fresh₁ ++ (fresh ++ fresh₂) := hall.blocks.symm.trans hblocks
    exact hall.frame hfree _ fun b hb => (hfree p hp b hb).unused i hi
  have hfilesz := (hok p hp).filesz
  constructor
  case has =>
    intro v hv hlt
    obtain ⟨mp, hm, hhas⟩ := hloads.has v hv hlt
    exact ⟨mp, hmappings ▸ List.mem_append_right _ (List.mem_append_left _ hm), hhas⟩
  case once =>
    intro v hv hlt
    have htouch := Phdr.touches_div hv hlt
    rw [hmappings, List.countP_append, List.countP_append, hcount₁ _ htouch, hcount₂ _ htouch, hloads.count, if_pos htouch]
  case file =>
    intro i hi mp hm hhas
    have hlt : p.pVaddr + i < p.stop := Nat.add_lt_add_left (hi.trans_le hfilesz) _
    have hmem := hown mp hm _ (Nat.le_add_right _ _) hlt hhas
    rcases hloads.file i hi mp hmem hhas with heq | ⟨b, hb, hin, heq⟩
    · rw [heq]
      exact hfile₃ i hi
    · rw [hkeep b hb _ hin, heq]
      exact hfile₁ i hi
  case zero =>
    intro i hi hlt mp hm hhas
    have hmem := hown mp hm _ (Nat.le_add_right _ _) (Nat.add_lt_add_left hlt _) hhas
    obtain ⟨b, hb, hin, heq⟩ := hloads.zero i hi hlt mp hmem hhas
    rw [hkeep b hb _ hin, heq]

/-! ## `boot_vaddr_base` と `boot_vaddr_end` -/

theorem loadInPlace_boot (vaddr paddr filesz memsz : Nat) :
    (loadInPlace env p vaddr paddr filesz memsz s).bootVaddrBase = s.bootVaddrBase ∧
      (loadInPlace env p vaddr paddr filesz memsz s).bootVaddrEnd = s.bootVaddrEnd := by
  rw [loadInPlace]
  dsimp only
  split
  · split
    · exact ⟨rfl, rfl⟩
    · exact ⟨rfl, rfl⟩
  · split
    · exact ⟨rfl, rfl⟩
    · exact ⟨rfl, rfl⟩

theorem loadSegment_boot (hp : p.WellFormed) :
    (loadSegment env addr s p).bootVaddrBase =
        (if s.bootVaddrBase = 0 ∨ s.bootVaddrBase > p.page then p.page else s.bootVaddrBase) ∧
      (loadSegment env addr s p).bootVaddrEnd = max s.bootVaddrEnd p.stop := by
  have hstop := hp.stop
  have hvaddr : p.pVaddr < 2 ^ 32 := by omega
  have hend : wrap32 (bic p.pVaddr pageBits + wrap32 (p.pMemsz + (p.pVaddr &&& pageBits))) = p.stop := by
    rw [and_pageBits, bic_pageBits hvaddr, Phdr.stop]
    unfold wrap32 pageSize
    omega
  have hgrow : (growBootVaddr s (bic p.pVaddr pageBits) (wrap32 (p.pMemsz + (p.pVaddr &&& pageBits)))).bootVaddrBase =
        (if s.bootVaddrBase = 0 ∨ s.bootVaddrBase > p.page then p.page else s.bootVaddrBase) ∧
      (growBootVaddr s (bic p.pVaddr pageBits) (wrap32 (p.pMemsz + (p.pVaddr &&& pageBits)))).bootVaddrEnd =
        max s.bootVaddrEnd p.stop := by
    rw [growBootVaddr, hend, bic_pageBits hvaddr]
    refine ⟨rfl, ?_⟩
    dsimp only
    split
    · next h => exact (Nat.max_eq_right h.le).symm
    · next h => exact (Nat.max_eq_left (Nat.not_lt.mp h)).symm
  rw [loadSegment]
  dsimp only
  split
  · rw [(loadInPlace_boot _ _ _ _).1, (loadInPlace_boot _ _ _ _).2]
    exact hgrow
  · exact hgrow

theorem setOf_snoc (f : Phdr → Nat) (loads : List Phdr) (p : Phdr) :
    {a | ∃ p' ∈ loads ++ [p], f p' = a} = {a | ∃ p' ∈ loads, f p' = a} ∪ {f p} := by
  ext a
  simp only [List.mem_append, List.mem_singleton, Set.mem_ofPred_eq, Set.mem_union, Set.mem_singleton_iff]
  constructor
  · rintro ⟨p', hm | rfl, rfl⟩
    · exact .inl ⟨p', hm, rfl⟩
    · exact .inr rfl
  · rintro (⟨p', hm, rfl⟩ | rfl)
    · exact ⟨p', .inl hm, rfl⟩
    · exact ⟨p, .inr rfl, rfl⟩

theorem setOf_singleton (f : Phdr → Nat) (p : Phdr) : {a | ∃ p' ∈ [p], f p' = a} = {f p} := by
  have h := setOf_snoc f [] p
  rw [List.nil_append] at h
  rw [h]
  ext a
  simp

theorem foldl_bootVaddrEnd {loads : List Phdr} (hok : ∀ p ∈ loads, p.WellFormed) (hne : loads ≠ []) :
    IsGreatest {e | ∃ p ∈ loads, p.stop = e} (loads.foldl (loadSegment env addr) ⟨m, [], [], 0, 0⟩).bootVaddrEnd := by
  induction loads using List.reverseRecOn with
  | nil => exact absurd rfl hne
  | append_singleton loads p ih =>
      have hp := hok p (List.mem_append_right _ (List.mem_singleton_self _))
      rw [List.foldl_append, List.foldl_cons, List.foldl_nil, (loadSegment_boot hp).2]
      rcases eq_or_ne loads [] with rfl | hnil
      · rw [List.nil_append, List.foldl_nil, setOf_singleton, Nat.zero_max]
        exact isGreatest_singleton
      · rw [setOf_snoc]
        exact (ih (fun p' hm => hok p' (List.mem_append_left _ hm)) hnil).union isGreatest_singleton

/-- どの区画もページ 0 にないときは、`boot_vaddr_base` の 0 は、まだ区画がないことだけを表す。 -/
theorem foldl_bootVaddrBase {loads : List Phdr} (hok : ∀ p ∈ loads, p.WellFormed) (hpages : ∀ p ∈ loads, 0 < p.page)
    (hne : loads ≠ []) :
    IsLeast {a | ∃ p ∈ loads, p.page = a} (loads.foldl (loadSegment env addr) ⟨m, [], [], 0, 0⟩).bootVaddrBase := by
  induction loads using List.reverseRecOn with
  | nil => exact absurd rfl hne
  | append_singleton loads p ih =>
      have hp := hok p (List.mem_append_right _ (List.mem_singleton_self _))
      rw [List.foldl_append, List.foldl_cons, List.foldl_nil, (loadSegment_boot hp).1]
      rcases eq_or_ne loads [] with rfl | hnil
      · rw [List.nil_append, List.foldl_nil, setOf_singleton, if_pos (.inl rfl)]
        exact isLeast_singleton
      · have hleast := ih (fun p' hm => hok p' (List.mem_append_left _ hm))
          (fun p' hm => hpages p' (List.mem_append_left _ hm)) hnil
        have hmin := hleast.union (isLeast_singleton (a := p.page))
        obtain ⟨p₀, hp₀, hbase⟩ := hleast.1
        have hpos : 0 < p₀.page := hpages p₀ (List.mem_append_left _ hp₀)
        rw [setOf_snoc]
        generalize (loads.foldl (loadSegment env addr) ⟨m, [], [], 0, 0⟩).bootVaddrBase = base at hmin hbase ⊢
        split
        · next h => rwa [min_eq_right (by omega)] at hmin
        · next h => rwa [min_eq_left (by omega)] at hmin

/-! ## 主定理 -/

/-- 区画は正しく読み込まれ、その範囲は、最も低い区画のページの始めから、最も高い区画の終わりまでである。 -/
theorem load_elf32mmu_loads_segments (env : LoadEnv) (m : Mem) (addr : Nat) (phdrs : List Phdr)
    (hok : ∀ p ∈ loadable phdrs, p.WellFormed) (hapart : SeparatePages (loadable phdrs))
    (hfresh : FreshBlocks addr (loadable phdrs) (loaded env m addr phdrs).blocks) :
    (∀ p ∈ loadable phdrs, p.Loaded m addr (loaded env m addr phdrs)) ∧
      (loadable phdrs ≠ [] → IsGreatest {e | ∃ p ∈ loadable phdrs, p.stop = e} (loaded env m addr phdrs).bootVaddrEnd) ∧
      (loadable phdrs ≠ [] → (∀ p ∈ loadable phdrs, 0 < p.page) →
        IsLeast {a | ∃ p ∈ loadable phdrs, p.page = a} (loaded env m addr phdrs).bootVaddrBase) := by
  rw [loaded, loadElf32mmu_eq] at hfresh ⊢
  generalize loadable phdrs = loads at hok hapart hfresh ⊢
  refine ⟨fun p hp => ?_, foldl_bootVaddrEnd hok, fun hne hpages => foldl_bootVaddrBase hok hpages hne⟩
  obtain ⟨before, after, rfl⟩ := List.append_of_mem hp
  exact foldl_loaded hok hapart hfresh

/-- 割り当てのたびに、次の 64 キロバイトを返す。 -/
def sampleEnv : LoadEnv := ⟨false, fun blocks _ => 0x90000000 + blocks.length * 0x10000⟩

/-- `.bss` のある区画と、`p_paddr` が 0 の区画。 -/
def sampleImage : List Phdr := [⟨1, 0x1010, 0x3010, 0x80003010, 4, 20, 6⟩, ⟨1, 0x2004, 0x5004, 0, 4, 4, 5⟩]

theorem load_elf32mmu_loads_sample :
    (∀ p ∈ loadable sampleImage, p.Loaded (fun _ => 7) 0x80000000 (loaded sampleEnv (fun _ => 7) 0x80000000 sampleImage)) ∧
      (loadable sampleImage ≠ [] → IsGreatest {e | ∃ p ∈ loadable sampleImage, p.stop = e}
        (loaded sampleEnv (fun _ => 7) 0x80000000 sampleImage).bootVaddrEnd) ∧
      (loadable sampleImage ≠ [] → (∀ p ∈ loadable sampleImage, 0 < p.page) →
        IsLeast {a | ∃ p ∈ loadable sampleImage, p.page = a}
          (loaded sampleEnv (fun _ => 7) 0x80000000 sampleImage).bootVaddrBase) := by
  have hmem : ∀ {P : Phdr → Prop}, P ⟨1, 0x1010, 0x3010, 0x80003010, 4, 20, 6⟩ → P ⟨1, 0x2004, 0x5004, 0, 4, 4, 5⟩ →
      ∀ p ∈ loadable sampleImage, P p := by
    intro P h1 h2
    exact List.forall_mem_cons.mpr ⟨h1, List.forall_mem_cons.mpr ⟨h2, List.forall_mem_nil _⟩⟩
  have hblocks : (loaded sampleEnv (fun _ => 7) 0x80000000 sampleImage).blocks = [(0x90000000, 4096), (0x90010000, 4096)] := by
    decide
  apply load_elf32mmu_loads_segments
  · exact hmem ⟨by decide, by decide, by decide, by decide, by decide⟩ ⟨by decide, by decide, by decide, by decide, by decide⟩
  · refine List.pairwise_pair.mpr ?_
    intro q h1 h2
    unfold Phdr.Touches pageSize at h1 h2
    dsimp only at h1 h2
    omega
  · rw [hblocks]
    constructor
    · refine List.pairwise_pair.mpr ?_
      intro x h1 h2
      unfold InBlock at h1 h2
      dsimp only at h1 h2
      omega
    · apply hmem
      · exact List.forall_mem_cons.mpr ⟨⟨by decide, by decide⟩, List.forall_mem_cons.mpr
          ⟨⟨by decide, by decide⟩, List.forall_mem_nil _⟩⟩
      · exact List.forall_mem_cons.mpr ⟨⟨by decide, by decide⟩, List.forall_mem_cons.mpr
          ⟨⟨by decide, by decide⟩, List.forall_mem_nil _⟩⟩

/-- ページの途中から始まる区画。 -/
def unalignedImage : List Phdr := [⟨1, 0x1010, 0x3010, 0x80003010, 32, 32, 5⟩]

/-- 一つのページを共有する二つの区画。 -/
def sharedImage : List Phdr := [⟨1, 0, 0x1000, 0x80001000, 0x800, 0x800, 5⟩, ⟨1, 0x800, 0x1800, 0x80001800, 0x800, 0x800, 5⟩]

/-- `boot_vaddr_base` は区画の始めではなくページの始めであり、共有されるページは二度写される。 -/
theorem load_elf32mmu_rounds_base_and_maps_twice :
    ((∀ p ∈ loadable unalignedImage, p.WellFormed) ∧ (loaded sampleEnv (fun _ => 7) 0 unalignedImage).blocks = [] ∧
      ¬ LoadsFaithfully sampleEnv (fun _ => 7) 0 unalignedImage) ∧
    (∀ p ∈ loadable sharedImage, p.WellFormed) ∧ (loaded sampleEnv (fun _ => 7) 0 sharedImage).blocks = [] ∧
      ¬ LoadsFaithfully sampleEnv (fun _ => 7) 0 sharedImage := by
  refine ⟨⟨?_, by decide, ?_⟩, ?_, by decide, ?_⟩
  · exact List.forall_mem_cons.mpr ⟨⟨by decide, by decide, by decide, by decide, by decide⟩, List.forall_mem_nil _⟩
  · intro h
    have hno : ∀ p ∈ loadable unalignedImage,
        p.pVaddr ≠ (loaded sampleEnv (fun _ => 7) 0 unalignedImage).bootVaddrBase := by decide
    obtain ⟨p, hm, hp⟩ := (h.2 (List.cons_ne_nil _ _)).1.1
    exact hno p hm hp
  · exact List.forall_mem_cons.mpr ⟨⟨by decide, by decide, by decide, by decide, by decide⟩,
      List.forall_mem_cons.mpr ⟨⟨by decide, by decide, by decide, by decide, by decide⟩, List.forall_mem_nil _⟩⟩
  · intro h
    have htwice : (loaded sampleEnv (fun _ => 7) 0 sharedImage).mappings.countP (fun mp => mp.Covers (0x1000 / pageSize)) = 2 := by
      decide
    have honce := (h.1 _ List.mem_cons_self).once 0x1000 (by decide) (by decide)
    exact absurd (htwice.symm.trans honce) (by decide)

end Imx6Bsp.Startup.Elf
