import Imx6Bsp.Startup.Theorems.ArmMap

/-!
# ELF のセグメントの写像（`arm/elf_map.c`）

`elf_map()` は、物理番地が続いている間はセグメントをメガバイトのセクションで写し、続かないセグメントが来ると、それまでのセクションを消して、
すべてをページで写し直す。静的な変数 `phdr` はそれまでのセグメントの数であり、ページで写した後は −1 である。消すのはセグメントの最初の
メガバイトだけなので、写し直すときは、セグメントが一つのメガバイトに収まっていなければならない。
-/

namespace Imx6Bsp.Startup

open Imx6Bsp.Lib

/-! ## `elf_map()` -/

/-- `PF_W`。 -/
def pfW : Nat := 2

/-- `MAX_PHDR`。 -/
def maxPhdr : Nat := 2

/-- `ARM_SCSIZE`。 -/
def armScSize : Nat := 0x100000

/-- `elf_map()` の引数。覚えるときは、`flags` を `ARM_PTE_RW` などに改める。 -/
structure ElfSeg where
  vaddr : Nat
  paddr : Nat
  size : Nat
  flags : Nat
deriving DecidableEq, Repr

/-- 静的な変数 `phdr` と、`va`、`pa`、`sz`、`fl` の先頭の `phdr` 個。 -/
inductive Phdr
  | recorded (segs : List ElfSeg)
  | paged
deriving DecidableEq, Repr

/-- `i < phdr` の繰り返しが見るセグメント。 -/
def Phdr.segs : Phdr → List ElfSeg
  | .recorded segs => segs
  | .paged => []

structure ElfState where
  mmu : Mmu
  phdr : Phdr := .recorded []

inductive ElfFault
  | mmu (f : MmuFault)
  | tooManySegments
deriving DecidableEq, Repr

/-- `arm_scunmap()`。 -/
def armScunmap (b : MmuBase) (mem : WordMem) (vaddr : Nat) : WordMem :=
  (List.range b.numCpu).foldl (fun mem cpu => Function.update mem (b.l1Table cpu + 4 * (vaddr >>> 20)) 0) mem

/-- `PF_W` による、ページとしての旗。 -/
def ElfSeg.converted (e : ElfSeg) : ElfSeg := { e with flags := if e.flags &&& pfW ≠ 0 then armPteRw ||| armPteCb else armPteCb }

/-- ページで写さなければならない。 -/
def Phdr.mustPage : Phdr → ElfSeg → Bool
  | .paged, _ => true
  | .recorded segs, e => e.vaddr &&& armScMask != e.paddr &&& armScMask ||
      segs.getLast?.any fun l => wrap32 (l.paddr + l.size) != e.paddr

/-- セグメントのセクションの数。`size` を切り上げたものである。 -/
def ElfSeg.sections (e : ElfSeg) : Nat := bic (wrap32 (e.size + (e.vaddr &&& armScMask) + armScMask)) armScMask / armScSize

/-- `arm_scmap()` の繰り返し。`i` 周目までに、番地は `ARM_SCSIZE` の `i` 倍だけ進む。 -/
def scmapLoop (k : ArmvPte) (b : MmuBase) (n : Nat) (mem : WordMem) (vaddr paddr : Nat) : WordMem :=
  (List.range n).foldl (fun mem i =>
    armScmap k b mem (wrap32 (vaddr + i * armScSize)) (wrap32 (paddr + i * armScSize)) (armPteRw ||| armPteCb)) mem

def ElfSeg.pageMap (k : ArmvPte) (b : MmuBase) (s : Mmu) (e : ElfSeg) : Except MmuFault Mmu :=
  (armMap k b s e.vaddr e.paddr e.size e.flags).map Prod.fst

/-- `elf_map()`。 -/
def elfMap (k : ArmvPte) (b : MmuBase) (st : ElfState) (seg : ElfSeg) : Except ElfFault ElfState :=
  let e := seg.converted
  if st.phdr.mustPage e then
    let mem := st.phdr.segs.foldl (fun mem e => armScunmap b mem e.vaddr) st.mmu.mem
    match (st.phdr.segs ++ [e]).foldlM (ElfSeg.pageMap k b) { st.mmu with mem } with
    | .ok mmu => .ok ⟨mmu, .paged⟩
    | .error f => .error (.mmu f)
  else if st.phdr.segs.length = maxPhdr then .error .tooManySegments
  else
    let mem := scmapLoop k b e.sections st.mmu.mem (bic e.vaddr armScMask) (bic e.paddr armScMask)
    .ok ⟨{ st.mmu with mem }, .recorded (st.phdr.segs ++ [e])⟩

/-! ## L1 の語 -/

section

variable {k : ArmvPte} {b : MmuBase} {mem : WordMem}

/-- すべての CPU の L1 の `j` 番目の語に `w` を書いた記憶。 -/
def putL1 (b : MmuBase) (mem : WordMem) (j w : Nat) : WordMem :=
  (List.range b.numCpu).foldl (fun mem cpu => Function.update mem (b.l1Word cpu j) w) mem

theorem putL1_out {j w x : Nat} (h : ∀ c < b.numCpu, x ≠ b.l1Word c j) : putL1 b mem j w x = mem x := by
  have key : ∀ (cpus : List Nat) (mem : WordMem), (∀ c ∈ cpus, x ≠ b.l1Word c j) →
      cpus.foldl (fun mem cpu => Function.update mem (b.l1Word cpu j) w) mem x = mem x := by
    intro cpus
    induction cpus with
    | nil => exact fun _ _ => rfl
    | cons c cpus ih =>
        intro mem h
        rw [List.foldl_cons, ih _ fun c' hc' => h c' (List.mem_cons_of_mem _ hc'), Function.update_of_ne (h c List.mem_cons_self)]
  exact key _ mem fun c hc => h c (List.mem_range.mp hc)

theorem putL1_word {c j w : Nat} (hc : c < b.numCpu) : putL1 b mem j w (b.l1Word c j) = w := by
  have key : ∀ (cpus : List Nat) (mem : WordMem), (c ∈ cpus ∨ mem (b.l1Word c j) = w) →
      cpus.foldl (fun mem cpu => Function.update mem (b.l1Word cpu j) w) mem (b.l1Word c j) = w := by
    intro cpus
    induction cpus with
    | nil => exact fun _ h => h.resolve_left List.not_mem_nil
    | cons d cpus ih =>
        intro mem h
        rw [List.foldl_cons]
        refine ih _ ?_
        by_cases hd : b.l1Word c j = b.l1Word d j
        · right
          rw [hd, Function.update_self]
        · rw [Function.update_of_ne hd]
          exact h.imp_left fun hmem => (List.mem_cons.mp hmem).resolve_left fun heq => hd (by rw [heq])
  exact key _ mem (.inl (List.mem_range.mpr hc))

theorem armScmap_eq (mem : WordMem) (vaddr paddr flags : Nat) :
    armScmap k b mem vaddr paddr flags = putL1 b mem (vaddr / 2 ^ 20) (paddr ||| scnProt k flags) := by
  rw [armScmap, Nat.shiftRight_eq_div_pow]
  rfl

theorem armScunmap_eq (mem : WordMem) (vaddr : Nat) : armScunmap b mem vaddr = putL1 b mem (vaddr / 2 ^ 20) 0 := by
  rw [armScunmap, Nat.shiftRight_eq_div_pow]
  rfl

/-- `J` 番目のメガバイトを写す語。 -/
def scWord (k : ArmvPte) (P : Nat) : Nat := P * 2 ^ 20 ||| scnProt k (armPteRw ||| armPteCb)

/-- 続きのメガバイトを写した記憶。 -/
theorem scmapLoop_spec (hb : b.Ok) (mem : WordMem) {J P : Nat} (n : Nat) (hJ : J + n < 2 ^ 12) (hP : P + n < 2 ^ 12) :
    (∀ c < b.numCpu, ∀ i < n, scmapLoop k b n mem (J * 2 ^ 20) (P * 2 ^ 20) (b.l1Word c (J + i)) = scWord k (P + i)) ∧
    ∀ x, (∀ c < b.numCpu, ∀ i < n, x ≠ b.l1Word c (J + i)) → scmapLoop k b n mem (J * 2 ^ 20) (P * 2 ^ 20) x = mem x := by
  induction n with
  | zero => exact ⟨fun _ _ _ hi => absurd hi (Nat.not_lt_zero _), fun _ _ => rfl⟩
  | succ n ih =>
      obtain ⟨hin, hout⟩ := ih (by omega) (by omega)
      have hadd : ∀ A, A + (n + 1) < 2 ^ 12 → wrap32 (A * 2 ^ 20 + n * armScSize) = (A + n) * 2 ^ 20 := by
        intro A hA
        rw [show armScSize = 2 ^ 20 by decide, ← Nat.add_mul, wrap32_of_lt (by omega)]
      have hloop : scmapLoop k b (n + 1) mem (J * 2 ^ 20) (P * 2 ^ 20) =
          putL1 b (scmapLoop k b n mem (J * 2 ^ 20) (P * 2 ^ 20)) (J + n) (scWord k (P + n)) := by
        rw [scmapLoop, List.range_succ, List.foldl_append, List.foldl_cons, List.foldl_nil, armScmap_eq, hadd J hJ, hadd P hP,
          Nat.mul_div_cancel _ (by decide), scWord, scmapLoop]
      rw [hloop]
      refine ⟨fun c hc i hi => ?_, fun x hx => ?_⟩
      · by_cases heq : i = n
        · subst heq
          exact putL1_word hc
        · rw [putL1_out fun c' hc' hword => ?_]
          · exact hin c hc i (by omega)
          · have := ((l1Word_inj hb hc hc' (by omega) (by omega)).mp hword).2
            omega
      · rw [putL1_out fun c hc => hx c hc n (Nat.lt_succ_self n)]
        exact hout x fun c hc i hi => hx c hc i (by omega)

end

/-! ## セグメントの前提 -/

/-- ページの境界から始まり、番地の最後のメガバイトに届かない。 -/
structure ElfSeg.Ok (e : ElfSeg) : Prop where
  vaddr : 2 ^ 12 ∣ e.vaddr
  paddr : 2 ^ 12 ∣ e.paddr
  vstop : e.vaddr + e.size ≤ 2 ^ 32 - 2 ^ 20
  pstop : e.paddr + e.size ≤ 2 ^ 32 - 2 ^ 20

/-- 一つのメガバイトに収まる。 -/
def ElfSeg.OneSection (e : ElfSeg) : Prop := e.vaddr % 2 ^ 20 + e.size ≤ 2 ^ 20

/-- 組 `g` に触れる。 -/
def ElfSeg.Touches (e : ElfSeg) (g : Nat) : Prop := e.vaddr / 2 ^ 22 ≤ g ∧ (g = e.vaddr / 2 ^ 22 ∨ g * 2 ^ 22 < e.vaddr + e.size)

section

variable {k : ArmvPte} {b : MmuBase} {s : Mmu} {e f : ElfSeg}

theorem ElfSeg.Ok.sections (h : e.Ok) : e.sections = (e.vaddr % 2 ^ 20 + e.size + (2 ^ 20 - 1)) / 2 ^ 20 := by
  have hv := h.vstop
  rw [ElfSeg.sections, and_scMask, armScMask, wrap32_of_lt (by omega)]
  have hb := bic_scMask (x := e.size + e.vaddr % 2 ^ 20 + 0xfffff) (by omega)
  rw [armScMask] at hb
  rw [hb, armScSize]
  omega

theorem ElfSeg.Ok.converted (h : e.Ok) : e.converted.Ok := ⟨h.vaddr, h.paddr, h.vstop, h.pstop⟩

/-- セグメントのセクションが写す L1 の語。 -/
structure Sectioned (k : ArmvPte) (b : MmuBase) (s : Mmu) (segs : List ElfSeg) (mem : WordMem) : Prop where
  word : ∀ e ∈ segs, ∀ c < b.numCpu, ∀ i < e.sections, mem (b.l1Word c (e.vaddr / 2 ^ 20 + i)) = scWord k (e.paddr / 2 ^ 20 + i)
  rest : ∀ x, (∀ e ∈ segs, ∀ c < b.numCpu, ∀ i < e.sections, x ≠ b.l1Word c (e.vaddr / 2 ^ 20 + i)) → mem x = s.mem x
  same : ∀ e ∈ segs, e.vaddr % 2 ^ 20 = e.paddr % 2 ^ 20

theorem Sectioned.start : Sectioned k b s [] s.mem :=
  ⟨fun _ h => absurd h List.not_mem_nil, fun _ _ => rfl, fun _ h => absurd h List.not_mem_nil⟩

/-- 物理番地が続くセグメントは、同じメガバイトを同じ語で写す。 -/
theorem sections_agree (he : e.Ok) (hle : e.vaddr + e.size ≤ f.vaddr) (hnext : e.paddr + e.size = f.paddr)
    (hse : e.vaddr % 2 ^ 20 = e.paddr % 2 ^ 20) (hsf : f.vaddr % 2 ^ 20 = f.paddr % 2 ^ 20) {i j : Nat} (hi : i < e.sections)
    (heq : e.vaddr / 2 ^ 20 + i = f.vaddr / 2 ^ 20 + j) : e.paddr / 2 ^ 20 + i = f.paddr / 2 ^ 20 + j := by
  rw [he.sections] at hi
  omega

/-- 続きのセグメントを写す。 -/
theorem Sectioned.extend (hb : b.Ok) {mem : WordMem} {segs : List ElfSeg} (h : Sectioned k b s segs mem) (hsegs : ∀ e ∈ segs, e.Ok)
    (hf : f.Ok) (hsame : f.vaddr % 2 ^ 20 = f.paddr % 2 ^ 20)
    (hnext : ∀ e ∈ segs, e.vaddr + e.size ≤ f.vaddr ∧ e.paddr + e.size = f.paddr) :
    Sectioned k b s (segs ++ [f]) (scmapLoop k b f.sections mem (bic f.vaddr armScMask) (bic f.paddr armScMask)) := by
  have hv := hf.vstop
  have hp := hf.pstop
  have hn := hf.sections
  rw [bic_scMask (by omega), bic_scMask (by omega)]
  obtain ⟨hin, hout⟩ := @scmapLoop_spec k b hb mem (f.vaddr / 2 ^ 20) (f.paddr / 2 ^ 20) f.sections (by omega) (by omega)
  refine ⟨fun e he c hc i hi => ?_, fun x hx => ?_, fun e he => ?_⟩
  · rcases List.mem_append.mp he with he | he
    · obtain ⟨hle, hcont⟩ := hnext e he
      have hok := hsegs e he
      have hev := hok.vstop
      have hen := hok.sections
      by_cases hhit : ∃ j < f.sections, e.vaddr / 2 ^ 20 + i = f.vaddr / 2 ^ 20 + j
      · obtain ⟨j, hj, heq⟩ := hhit
        rw [heq, hin c hc j hj, sections_agree hok hle hcont (h.same e he) hsame hi heq]
      · rw [hout _ fun c' hc' j hj heq => hhit ⟨j, hj, ((l1Word_inj hb hc hc' (by omega) (by omega)).mp heq).2⟩]
        exact h.word e he c hc i hi
    · rw [List.mem_singleton.mp he] at hi ⊢
      exact hin c hc i hi
  · rw [hout x (hx f (List.mem_append_right _ (List.mem_singleton_self f)))]
    exact h.rest x fun e he => hx e (List.mem_append_left _ he)
  · rcases List.mem_append.mp he with he | he
    · exact h.same e he
    · rw [List.mem_singleton.mp he]
      exact hsame

/-- 一つのメガバイトに収まるセグメントの最初の語を消すと、初めの記憶に戻る。 -/
theorem Sectioned.unmap {mem : WordMem} {segs : List ElfSeg} (h : Sectioned k b s segs mem) (hsegs : ∀ e ∈ segs, e.Ok)
    (hone : ∀ e ∈ segs, e.OneSection) (hzero : ∀ e ∈ segs, ∀ c < b.numCpu, s.mem (b.l1Word c (e.vaddr / 2 ^ 20)) = 0) :
    segs.foldl (fun mem e => armScunmap b mem e.vaddr) mem = s.mem := by
  -- 消し終えていないセグメントの語を除いて、記憶は初めと同じである。
  have key : ∀ (left : List ElfSeg) (mem : WordMem), (∀ e ∈ left, e ∈ segs) →
      (∀ x, (∀ e ∈ left, ∀ c < b.numCpu, x ≠ b.l1Word c (e.vaddr / 2 ^ 20)) → mem x = s.mem x) →
      left.foldl (fun mem e => armScunmap b mem e.vaddr) mem = s.mem := by
    intro left
    induction left with
    | nil => exact fun mem _ hrest => funext fun x => hrest x fun _ h => absurd h List.not_mem_nil
    | cons e left ih =>
        intro mem hsub hrest
        rw [List.foldl_cons, armScunmap_eq]
        refine ih _ (fun e' he' => hsub e' (List.mem_cons_of_mem _ he')) fun x hx => ?_
        by_cases hhit : ∃ c < b.numCpu, x = b.l1Word c (e.vaddr / 2 ^ 20)
        · obtain ⟨c, hc, rfl⟩ := hhit
          rw [putL1_word hc, hzero e (hsub e List.mem_cons_self) c hc]
        · have hmiss : ∀ c < b.numCpu, x ≠ b.l1Word c (e.vaddr / 2 ^ 20) := fun c hc heq => hhit ⟨c, hc, heq⟩
          rw [putL1_out hmiss]
          refine hrest x fun e' he' => ?_
          rcases List.mem_cons.mp he' with rfl | he'
          · exact hmiss
          · exact hx e' he'
  refine key segs mem (fun _ he => he) fun x hx => h.rest x fun e he c hc i hi => ?_
  have hsec := (hsegs e he).sections
  have hle : e.vaddr % 2 ^ 20 + e.size ≤ 2 ^ 20 := hone e he
  rw [show e.vaddr / 2 ^ 20 + i = e.vaddr / 2 ^ 20 by omega]
  exact hx e he c hc

/-- 触れない組の変換は、セクションを写しても変わらない。 -/
theorem Sectioned.frame (hk : k.Ok) (hb : b.Ok) (hplain : s.Plain k b) {mem : WordMem} {segs : List ElfSeg}
    (h : Sectioned k b s segs mem) (hsegs : ∀ e ∈ segs, e.Ok) {c v : Nat} (hc : c < b.numCpu) (hv : v < 2 ^ 32)
    (hfar : ∀ e ∈ segs, ¬e.Touches (v / 2 ^ 22)) : hwWalk b mem c v = hwWalk b s.mem c v := by
  have hword : ∀ i < 4, mem (b.l1Word c (v / 2 ^ 22 * 4 + i)) = s.mem (b.l1Word c (v / 2 ^ 22 * 4 + i)) := by
    intro i hi
    refine h.rest _ fun e he c' hc' j hj heq => hfar e he ?_
    have hsec := (hsegs e he).sections
    have hstop := (hsegs e he).vstop
    have hJ := ((l1Word_inj hb hc hc' (by omega) (by omega)).mp heq).2
    exact ⟨by omega, by omega⟩
  rcases hplain.ok.shaped c hc (v / 2 ^ 22) (by omega) with hopen | ⟨T, hT, hgroup⟩
  · have hentry := hword (v / 2 ^ 20 % 4) (by omega)
    have hkind := hopen (v / 2 ^ 20 % 4) (by omega)
    rw [show v / 2 ^ 22 * 4 + v / 2 ^ 20 % 4 = v / 2 ^ 20 by omega, MmuBase.l1Word] at hentry hkind
    unfold hwWalk
    dsimp only
    rw [hentry, if_neg (show ¬s.mem (b.l1Table c + 4 * (v / 2 ^ 20)) % 4 = 1 by omega),
      if_neg (show ¬s.mem (b.l1Table c + 4 * (v / 2 ^ 20)) % 4 = 1 by omega)]
  · have hal := hT.align hb hc
    have hsame : mem (T + 4 * (v / 2 ^ 12 % 1024)) = s.mem (T + 4 * (v / 2 ^ 12 % 1024)) := by
      refine h.rest _ fun e he c' hc' j hj heq => ?_
      have hsec := (hsegs e he).sections
      have hstop := (hsegs e he).vstop
      refine l1Word_inside hb hc' (j := e.vaddr / 2 ^ 20 + j) (by omega) ?_
      rw [← heq]
      exact hT.offL1 hb hc (by omega) (by omega)
    rw [hwWalk_table hk (hgroup.congr hword) hal, hwWalk_table hk hgroup hal, hsame]

/-! ## ページで写したセグメント -/

/-- セグメントのページの項目。 -/
structure Paged (k : ArmvPte) (b : MmuBase) (s : Mmu) (done : List ElfSeg) (u : Mmu) : Prop where
  plain : u.Plain k b
  window : ∀ g < 1024, PdWindow b u.mem g → PdWindow b s.mem g
  maps : ∀ e ∈ done, ∀ c < b.numCpu, ∀ p, e.vaddr / 2 ^ 12 ≤ p → p * 2 ^ 12 < e.vaddr + e.size →
    pteWord b u.mem c p = wrap32 (setProt k e.paddr e.flags + (p - e.vaddr / 2 ^ 12) * pageSize)
  frame : ∀ c < b.numCpu, ∀ p < 2 ^ 20, ¬PdWindow b s.mem (p / 1024) → (∀ e ∈ done, ¬e.Touches (p / 1024)) →
    pteWord b u.mem c p = pteWord b s.mem c p

theorem Paged.start (h : s.Plain k b) : Paged k b s [] s :=
  ⟨h, fun _ _ hw => hw, fun _ he => absurd he List.not_mem_nil, fun _ _ _ _ _ _ => rfl⟩

/-- ページの項目は、番地の続きを保つ有効な項目である。 -/
theorem ElfSeg.Ok.pte (hk : k.Ok) (he : e.Ok) (n : Nat) :
    let w := wrap32 (setProt k e.paddr e.flags + n * pageSize)
    ¬w % 4 < 2 ∧ bic w pgMask = wrap32 (e.paddr + n * pageSize) := by
  have hp := he.pstop
  have hpte := (setProt_isPte hk he.paddr (by omega) e.flags).next he.paddr n
  have hal := he.paddr
  have hread := hpte.read (by unfold wrap32 pageSize; omega) (wrap32_lt _)
  exact ⟨hread.1, hread.2.1⟩

theorem ElfSeg.Ok.range (he : e.Ok) (u : Mmu) :
    armMapRange u e.vaddr e.paddr e.size = (e.vaddr, (e.size + 4095) / 2 ^ 12 * pageSize) := by
  have hv := he.vaddr
  have hp := he.paddr
  have hvs := he.vstop
  rw [armMapRange, if_neg (by omega), and_pgMask, show e.paddr % 2 ^ 12 = 0 by omega, Nat.add_zero, wrap32_of_lt (by omega), roundPg,
    round, show pageSize = 2 ^ 12 from rfl, wrap32_of_lt (by omega), show wrap32 (2 ^ 12 + (2 ^ 32 - 1)) = 4095 by decide,
    trunc_two_pow _ (by decide), wrap32_of_lt (by omega)]

theorem touches_of_page {p : Nat} (h1 : e.vaddr / 2 ^ 12 ≤ p) (h2 : p * 2 ^ 12 < e.vaddr + e.size) : e.Touches (p / 1024) := by
  have hg : p / 1024 * 1024 ≤ p := Nat.div_mul_le_self p 1024
  unfold ElfSeg.Touches
  omega

/-- 空の組は、ページディレクトリの窓ではない。 -/
theorem not_pdWindow {mem : WordMem} {g : Nat} (h : ∀ c < b.numCpu, ∀ i < 4, mem (b.l1Word c (g * 4 + i)) = 0) : ¬PdWindow b mem g := by
  rintro ⟨c, hc, hT⟩
  have hzero := h c hc 0 (by decide)
  rw [Nat.add_zero] at hzero
  rw [tableOf, hzero] at hT
  cases hT

/-- ページで写すと、前のセグメントのページは変わらず、新しいセグメントのページが加わる。 -/
theorem Paged.map (hk : k.Ok) (hb : b.Ok) (hvirtual : b.isVirtual = true) {done : List ElfSeg} {u u' : Mmu} (h : Paged k b s done u)
    (hdone : ∀ e ∈ done, e.Ok ∧ e.vaddr + e.size ≤ f.vaddr) (hf : f.Ok) (hwin : ∀ e ∈ done ++ [f], ∀ g, e.Touches g → ¬PdWindow b s.mem g)
    (hok : f.pageMap k b u = .ok u') : Paged k b s (done ++ [f]) u' := by
  obtain ⟨⟨u', r⟩, hmap, rfl⟩ := Except.map_eq_ok.mp hok
  have hv := hf.vaddr
  have hp := hf.paddr
  have hvs := hf.vstop
  have hps := hf.pstop
  have htouch : ∀ g < 1024, TouchesGroup f.vaddr ((f.size + 4095) / 2 ^ 12 * pageSize) g → f.Touches g := by
    intro g _ hg
    unfold TouchesGroup pageSize at hg
    exact ⟨hg.1, .inr (by omega)⟩
  have hnow : ∀ e ∈ done ++ [f], ∀ g < 1024, e.Touches g → ¬PdWindow b u.mem g := fun e he g hg ht hw =>
    hwin e he g ht (h.window g hg hw)
  have hend : f.vaddr / 2 ^ 12 * 2 ^ 12 + (f.size + 4095) / 2 ^ 12 * pageSize ≤ 2 ^ 32 := by
    unfold pageSize
    omega
  obtain ⟨hprog, -⟩ := h.plain.armMap hk hb (hf.range u) (by omega) hend hvirtual
    (fun g hg ht => hnow f (List.mem_append_right _ (List.mem_singleton_self f)) g hg (htouch g hg ht)) hmap
  have hbase : bic f.paddr pgMask = f.paddr := by
    rw [bic_pgMask (by omega)]
    omega
  rw [hbase] at hprog
  refine ⟨hprog.plain, fun g hg hw => h.window g hg (hprog.window g hg hw), fun e he c hc p h1 h2 => ?_, fun c hc p hp' hw hfar => ?_⟩
  · rcases List.mem_append.mp he with he' | he'
    · obtain ⟨heok, hle⟩ := hdone e he'
      have hev := heok.vaddr
      have hold := h.maps e he' c hc p h1 h2
      have hpg := touches_of_page h1 h2
      rcases hprog.frame c hc p (by omega) (hnow e he _ (by omega) hpg) (by omega) with heq | ⟨-, ⟨c', hc', hnone⟩, -⟩
      · rw [heq, hold]
      · -- 前のセグメントの項目があるので、どの CPU にも表がある。
        have hother := h.maps e he' c' hc' p h1 h2
        rw [pteWord, hnone] at hother
        have hpte := (heok.pte hk (p - e.vaddr / 2 ^ 12)).1
        dsimp only at hother hpte
        rw [← hother] at hpte
        exact absurd (show 0 % 4 < 2 by decide) hpte
    · rw [List.mem_singleton.mp he'] at h1 h2 ⊢
      exact hprog.done c hc p h1 (by omega)
  · have hfar' : ∀ e ∈ done, ¬e.Touches (p / 1024) := fun e he => hfar e (List.mem_append_left _ he)
    have hnot : ¬f.Touches (p / 1024) := hfar f (List.mem_append_right _ (List.mem_singleton_self f))
    have hwu : ¬PdWindow b u.mem (p / 1024) := fun hw' => hw (h.window _ (by omega) hw')
    unfold ElfSeg.Touches at hnot
    rcases hprog.frame c hc p hp' hwu (by omega) with heq | ⟨⟨q, h1, h2, hq⟩, -, -⟩
    · rw [heq]
      exact h.frame c hc p hp' hw hfar'
    · exact absurd ⟨by omega, by omega⟩ hnot

/-- 残りのセグメントを順にページで写す。 -/
theorem Paged.mapAll (hk : k.Ok) (hb : b.Ok) (hvirtual : b.isVirtual = true) {done left : List ElfSeg} {u u' : Mmu}
    (h : Paged k b s done u) (hsegs : ∀ e ∈ done ++ left, e.Ok)
    (horder : (done ++ left).Pairwise fun e f => e.vaddr + e.size ≤ f.vaddr)
    (hwin : ∀ e ∈ done ++ left, ∀ g, e.Touches g → ¬PdWindow b s.mem g)
    (hok : left.foldlM (ElfSeg.pageMap k b) u = .ok u') : Paged k b s (done ++ left) u' := by
  induction left generalizing done u with
  | nil =>
      cases hok
      rwa [List.append_nil]
  | cons f left ih =>
      rw [List.foldlM_cons] at hok
      obtain ⟨v, hv, hok⟩ := Except.bind_eq_ok.mp hok
      rw [show done ++ f :: left = done ++ [f] ++ left by simp] at hsegs horder hwin ⊢
      have hsub : ∀ e ∈ done ++ [f], e ∈ done ++ [f] ++ left := fun e he => List.mem_append_left _ he
      have hlast : f ∈ done ++ [f] := List.mem_append_right _ (List.mem_singleton_self f)
      have hbefore : ∀ e ∈ done, e.Ok ∧ e.vaddr + e.size ≤ f.vaddr := fun e he =>
        ⟨hsegs e (hsub e (List.mem_append_left _ he)),
          (List.pairwise_append.mp (List.pairwise_append.mp horder).1).2.2 e he f (List.mem_singleton_self f)⟩
      exact ih (h.map hk hb hvirtual hbefore (hsegs f (hsub f hlast)) (fun e he => hwin e (hsub e he)) hv) hsegs horder hwin hok

/-! ## 実行の不変条件 -/

/-- セグメント `done` を写した後の状態。セクションで写しているか、すべてをページで写した。 -/
inductive ElfInv (k : ArmvPte) (b : MmuBase) (s : Mmu) (done : List ElfSeg) : ElfState → Prop
  | sections {mem : WordMem} (hlen : done.length ≤ maxPhdr) (h : Sectioned k b s done mem) :
      ElfInv k b s done ⟨{ s with mem }, .recorded done⟩
  | pages {u : Mmu} (h : Paged k b s done u) : ElfInv k b s done ⟨u, .paged⟩

/-- これまでのセグメントと次のセグメントの前提。 -/
structure ElfReady (b : MmuBase) (s : Mmu) (segs : List ElfSeg) : Prop where
  ok : ∀ e ∈ segs, e.Ok
  order : segs.Pairwise fun e f => e.vaddr + e.size ≤ f.vaddr
  empty : ∀ e ∈ segs, ∀ g, e.Touches g → ∀ c < b.numCpu, ∀ i < 4, s.mem (b.l1Word c (g * 4 + i)) = 0

theorem ElfReady.prefix {segs rest : List ElfSeg} (h : ElfReady b s (segs ++ rest)) : ElfReady b s segs :=
  ⟨fun e he => h.ok e (List.mem_append_left _ he), (List.pairwise_append.mp h.order).1,
    fun e he => h.empty e (List.mem_append_left _ he)⟩

theorem ElfReady.window {segs : List ElfSeg} (h : ElfReady b s segs) : ∀ e ∈ segs, ∀ g, e.Touches g → ¬PdWindow b s.mem g :=
  fun e he g ht => not_pdWindow (h.empty e he g ht)

theorem ElfReady.before {done : List ElfSeg} (h : ElfReady b s (done ++ [f])) : ∀ e ∈ done, e.vaddr + e.size ≤ f.vaddr := fun e he =>
  (List.pairwise_append.mp h.order).2.2 e he f (List.mem_singleton_self f)

/-- 写し直すときは、それまでのセクションをすべて消し、初めの記憶からページで写す。 -/
theorem Sectioned.remap (hk : k.Ok) (hb : b.Ok) (hvirtual : b.isVirtual = true) (hplain : s.Plain k b) {mem : WordMem}
    {done : List ElfSeg} {u : Mmu} (h : Sectioned k b s done mem) (hready : ElfReady b s (done ++ [f]))
    (hone : ∀ e ∈ done, e.OneSection)
    (hok : (done ++ [f]).foldlM (ElfSeg.pageMap k b) { s with mem := done.foldl (fun mem e => armScunmap b mem e.vaddr) mem } = .ok u) :
    Paged k b s (done ++ [f]) u := by
  have hzero : ∀ e ∈ done, ∀ c < b.numCpu, s.mem (b.l1Word c (e.vaddr / 2 ^ 20)) = 0 := by
    intro e he c hc
    have hword := hready.empty e (List.mem_append_left _ he) (e.vaddr / 2 ^ 22) ⟨le_rfl, .inl rfl⟩ c hc (e.vaddr / 2 ^ 20 % 4) (by omega)
    rwa [show e.vaddr / 2 ^ 22 * 4 + e.vaddr / 2 ^ 20 % 4 = e.vaddr / 2 ^ 20 by omega] at hword
  rw [h.unmap (fun e he => hready.ok e (List.mem_append_left _ he)) hone hzero] at hok
  exact (Paged.mapAll hk hb hvirtual (.start hplain) hready.ok hready.order hready.window hok : Paged k b s ([] ++ (done ++ [f])) u)

/-- 一つのセグメントを写す。 -/
theorem ElfInv.step (hk : k.Ok) (hb : b.Ok) (hvirtual : b.isVirtual = true) (hplain : s.Plain k b) {done : List ElfSeg} {st st' : ElfState}
    (h : ElfInv k b s done st) (hready : ElfReady b s (done ++ [f.converted]))
    (hone : (∀ e ∈ done, e.OneSection) ∨ st'.phdr ≠ .paged) (hok : elfMap k b st f = .ok st') :
    ElfInv k b s (done ++ [f.converted]) st' := by
  unfold elfMap at hok
  dsimp only at hok
  split at hok
  · rename_i hmust
    split at hok
    swap
    · cases hok
    rename_i u hfold
    cases hok
    have hone' : ∀ e ∈ done, e.OneSection := hone.resolve_right fun hn => hn rfl
    cases h with
    | sections hlen h => exact .pages (h.remap hk hb hvirtual hplain hready hone' hfold)
    | pages h =>
        refine .pages (Paged.mapAll hk hb hvirtual h hready.ok hready.order hready.window ?_)
        exact hfold
  · rename_i hsec
    split at hok
    · cases hok
    rename_i hroom
    cases hok
    cases h with
    | pages h => exact absurd rfl hsec
    | sections hlen h =>
        rw [Bool.not_eq_true, Phdr.mustPage, Bool.or_eq_false_iff, bne_eq_false_iff_eq, and_scMask, and_scMask] at hsec
        have hshort : done.length ≤ 1 := by
          have : done.length ≠ 2 := hroom
          have : done.length ≤ 2 := hlen
          omega
        have hnext : ∀ e ∈ done, e.vaddr + e.size ≤ f.converted.vaddr ∧ e.paddr + e.size = f.converted.paddr := by
          intro e he
          have hlast : done.getLast? = some e := by
            cases done with
            | nil => cases he
            | cons e' rest =>
                have hrest : rest = [] := List.length_eq_zero_iff.mp (by rw [List.length_cons] at hshort; omega)
                subst hrest
                rw [List.mem_singleton.mp he]
                rfl
          have hp := (hready.ok e (List.mem_append_left _ he)).pstop
          have hcont := hsec.2
          rw [hlast, Option.any_some, bne_eq_false_iff_eq, wrap32_of_lt (by omega)] at hcont
          exact ⟨hready.before e he, hcont⟩
        refine .sections ?_ (h.extend hb (fun e he => hready.ok e (List.mem_append_left _ he))
          (hready.ok _ (List.mem_append_right _ (List.mem_singleton_self _))) hsec.1 hnext)
        rw [List.length_append, List.length_singleton]
        exact Nat.succ_le_succ hshort

/-- ページで写した後は、ずっとページで写す。 -/
theorem elfMap_paged {st st' : ElfState} {segs : List ElfSeg} (h : st.phdr = .paged) (hok : segs.foldlM (elfMap k b) st = .ok st') :
    st'.phdr = .paged := by
  induction segs generalizing st with
  | nil =>
      cases hok
      exact h
  | cons f segs ih =>
      rw [List.foldlM_cons] at hok
      obtain ⟨v, hv, hok⟩ := Except.bind_eq_ok.mp hok
      refine ih ?_ hok
      unfold elfMap at hv
      dsimp only at hv
      split at hv
      · split at hv
        · cases hv
          rfl
        · cases hv
      · rename_i hsec
        rw [h] at hsec
        exact absurd rfl hsec

theorem ElfInv.run (hk : k.Ok) (hb : b.Ok) (hvirtual : b.isVirtual = true) (hplain : s.Plain k b) {done segs : List ElfSeg}
    {st st' : ElfState} (h : ElfInv k b s done st) (hready : ElfReady b s (done ++ segs.map ElfSeg.converted))
    (hone : (∀ e ∈ done ++ segs.map ElfSeg.converted, e.OneSection) ∨ st'.phdr ≠ .paged)
    (hok : segs.foldlM (elfMap k b) st = .ok st') : ElfInv k b s (done ++ segs.map ElfSeg.converted) st' := by
  induction segs generalizing done st with
  | nil =>
      cases hok
      rwa [List.map_nil, List.append_nil]
  | cons f segs ih =>
      rw [List.foldlM_cons] at hok
      obtain ⟨v, hv, hok⟩ := Except.bind_eq_ok.mp hok
      rw [List.map_cons, show done ++ f.converted :: segs.map ElfSeg.converted =
        done ++ [f.converted] ++ segs.map ElfSeg.converted by simp] at hready hone ⊢
      refine ih (h.step hk hb hvirtual hplain hready.prefix ?_ hv) hready hone hok
      exact hone.imp (fun h e he => h e (List.mem_append_left _ (List.mem_append_left _ he))) fun hn hp => hn (elfMap_paged hp hok)

end

end Imx6Bsp.Startup
