import Imx6Bsp.Startup.Lemmas.MmuRuns

/-!
# `elf_vaddr_to_paddr()` と MMU の変換

`elf_vaddr_to_paddr()` は、組の先頭の項目だけを読む。ページで写した番地では MMU の変換と一致するが、セクションはメガバイトごとに別の項目を
持つ。
-/

namespace Imx6Bsp.Startup

open Imx6Bsp.Lib

section

variable {k : ArmvPte} {b : MmuBase} {s : Mmu}

/-! ## `elf_vaddr_to_paddr()` -/

/-- `vaddr` を写す L1 の項目。 -/
def MmuBase.l1Entry (b : MmuBase) (mem : WordMem) (vaddr : Nat) : Nat := mem (b.l1Word 0 (vaddr / 2 ^ 20))

/-- `vaddr` の組の先頭の L1 の項目。 -/
def MmuBase.groupEntry (b : MmuBase) (mem : WordMem) (vaddr : Nat) : Nat := mem (b.l1Word 0 (vaddr / 2 ^ 22 * 4))

/-- `elf_vaddr_to_paddr()` が正しい番地。ページで写した番地と組の最初のメガバイトのほかでは、組の先頭のセクションが同じ基底を持つか、先頭の
項目が空で、0 番地からのページを表と見て読んだ語がたまたま同じページを持つ。 -/
def ElfOk (b : MmuBase) (mem : WordMem) (vaddr : Nat) : Prop :=
  b.l1Entry mem vaddr % 4 = 1 ∨ vaddr / 2 ^ 20 % 4 = 0 ∨
    (b.groupEntry mem vaddr % 4 = 2 ∧ bic (b.groupEntry mem vaddr) armScMask = bic (b.l1Entry mem vaddr) armScMask) ∨
    (b.groupEntry mem vaddr = 0 ∧
      bic (mem (4 * (vaddr / 2 ^ 12 % 1024))) pgMask + vaddr % 2 ^ 12 = bic (b.l1Entry mem vaddr) armScMask + vaddr % 2 ^ 20)

/-- マスクした番地に、その範囲の変位を加えても桁はあふれない。 -/
theorem wrap32_bic_add {x m d : Nat} (hm : m < 2 ^ 32) (hd : d ≤ m) : wrap32 (bic x m + d) = bic x m + d := by
  have hle : bic x m ≤ 2 ^ 32 - 1 - m := Nat.and_le_right
  exact wrap32_of_lt (by omega)

/-- `elf_vaddr_to_paddr()` の計算を、組の先頭の項目で表す。 -/
theorem elfVaddrToPaddr_eq (mem : WordMem) {vaddr : Nat} (hv : vaddr < 2 ^ 32) : elfVaddrToPaddr b mem vaddr =
    if b.groupEntry mem vaddr % 4 = 2 then bic (b.groupEntry mem vaddr) armScMask + vaddr % 2 ^ 20
    else bic (mem (bic (b.groupEntry mem vaddr) pgMask + 4 * (vaddr / 2 ^ 12 % 1024))) pgMask + vaddr % 2 ^ 12 := by
  have hptp : b.l1Table 0 + 4 * bic (vaddr >>> 20) 3 = b.l1Word 0 (vaddr / 2 ^ 22 * 4) := by
    rw [MmuBase.l1Word, Nat.shiftRight_eq_div_pow, bic_three (by omega)]
    omega
  have hsc : ∀ x, wrap32 (bic x armScMask + vaddr % 2 ^ 20) = bic x armScMask + vaddr % 2 ^ 20 := fun x =>
    wrap32_bic_add (by decide) (by unfold armScMask; omega)
  have hpg : ∀ x, wrap32 (bic x pgMask + vaddr % 2 ^ 12) = bic x pgMask + vaddr % 2 ^ 12 := fun x =>
    wrap32_bic_add (by decide) (by unfold pgMask; omega)
  unfold elfVaddrToPaddr
  dsimp only
  rw [hptp, and_valid, and_scMask, and_pgMask, and_l2, Nat.shiftRight_eq_div_pow, hsc, hpg]
  rfl

/-- 表を指さない項目での MMU の変換。 -/
theorem hwWalk_open {mem : WordMem} {v : Nat} (h : b.l1Entry mem v % 4 ≠ 1) :
    hwWalk b mem 0 v = if b.l1Entry mem v % 4 = 2 then some (bic (b.l1Entry mem v) armScMask + v % 2 ^ 20) else none := by
  change (if b.l1Entry mem v % 4 = 2 then some (bic (b.l1Entry mem v) armScMask + v % 2 ^ 20)
    else if b.l1Entry mem v % 4 = 1 then _ else none) = _
  rw [if_neg h]

/-- 非干渉な呼び出しの列が作るどの状態でも、写した番地 `v` について `elf_vaddr_to_paddr()` が MMU の変換と一致するのは、`ElfOk` のときである。 -/
theorem elf_vaddr_to_paddr_agrees (hk : k.Ok) (hb : b.Ok) {mem : WordMem} {pages : List Nat}
    (hzero : ∀ c < b.numCpu, ∀ j < 4096, mem (b.l1Word c j) = 0) (hpages : ∀ p ∈ pages, b.PageOk p)
    (hrun : Reaches (Mmu.step k b) (Mmu.Separate b) (Mmu.start mem pages) s) {v a : Nat} (hv : v < 2 ^ 32)
    (hmap : hwWalk b s.mem 0 v = some a) : elfVaddrToPaddr b s.mem v = a ↔ ElfOk b s.mem v := by
  have hok : s.Ok k b := hrun.invariant (Mmu.Ok.start hzero hpages) fun _ _ _ hP hsep hs => hP.step hk hb hsep hs
  rw [elfVaddrToPaddr_eq _ hv]
  rcases hok.shaped 0 hb.cpus (v / 2 ^ 22) (by omega) with hopen | ⟨T, hT, hgroup⟩
  · -- セクションの組では、先頭の項目がそのメガバイトの項目と違いうる。
    have hword : b.l1Entry s.mem v = 0 ∨ b.l1Entry s.mem v % 4 = 2 := by
      have h := hopen (v / 2 ^ 20 % 4) (by omega)
      rwa [show v / 2 ^ 22 * 4 + v / 2 ^ 20 % 4 = v / 2 ^ 20 by omega] at h
    have hhead : b.groupEntry s.mem v = 0 ∨ b.groupEntry s.mem v % 4 = 2 := hopen 0 (by decide)
    have hfirst : v / 2 ^ 20 % 4 = 0 → b.groupEntry s.mem v = b.l1Entry s.mem v := by
      intro h
      rw [MmuBase.groupEntry, MmuBase.l1Entry, show v / 2 ^ 22 * 4 = v / 2 ^ 20 by omega]
    rw [hwWalk_open (by omega)] at hmap
    split at hmap
    swap
    · cases hmap
    rename_i hsec
    cases hmap
    unfold ElfOk
    rcases hhead with hnil | hsame
    · have hfar : v / 2 ^ 20 % 4 ≠ 0 := fun h => by
        rw [← hfirst h, hnil] at hsec
        exact absurd hsec (by decide)
      have hbase : bic 0 pgMask = 0 := by decide
      rw [hnil, if_neg (by decide), hbase, Nat.zero_add]
      refine ⟨fun heq => .inr (.inr (.inr ⟨rfl, heq⟩)), fun h => ?_⟩
      rcases h with h | h | h | h
      · omega
      · exact absurd h hfar
      · exact absurd h.1 (by decide)
      · exact h.2
    · rw [if_pos hsame]
      refine ⟨fun heq => .inr (.inr (.inl ⟨hsame, Nat.add_right_cancel heq⟩)), fun h => ?_⟩
      rcases h with h | h | h | h
      · omega
      · rw [hfirst h]
      · rw [h.2]
      · rw [h.1] at hsame
        exact absurd hsame (by decide)
  · -- 表の組では、組の四つの項目が一つのページを指す。
    have hal := hT.align hb hb.cpus
    obtain ⟨hone, hbase⟩ := hgroup.head hk hal
    change b.groupEntry s.mem v % 4 = 1 at hone
    change bic (b.groupEntry s.mem v) pgMask = T at hbase
    rw [hwWalk_table hk hgroup hal] at hmap
    split at hmap
    · cases hmap
    · cases hmap
      have hword := hgroup.word hk hal.1 (i := v / 2 ^ 20 % 4) (by omega)
      rw [show v / 2 ^ 22 * 4 + v / 2 ^ 20 % 4 = v / 2 ^ 20 by omega] at hword
      have hpg := hk.l1Pgtable
      rw [if_neg (by omega), hbase]
      refine iff_of_true rfl (.inl ?_)
      rw [MmuBase.l1Entry, hword]
      omega

end

/-! ## 具体的な表 -/

/-- 一つの CPU の表。 -/
def sampleMmuBase : MmuBase where
  l1Paddr := 0x4000
  l2Paddr := 0x8000
  numCpu := 1
  isVirtual := true

theorem sampleMmuBase_ok : sampleMmuBase.Ok := by constructor <;> decide

/-- 0 で埋めた記憶と、番地 `0x9000` のページ。 -/
def sampleMmu : Mmu := Mmu.start (fun _ => 0) [0x9000]

theorem sampleMmu_pages : ∀ p ∈ [0x9000], sampleMmuBase.PageOk p := by
  intro p hp
  cases List.mem_singleton.mp hp
  refine ⟨by decide, by decide, fun x h1 h2 => ?_, fun x h1 h2 => ?_⟩
  · exact .inr (le_trans (by decide) h1)
  · exact .inr (le_trans (by decide) h1)

/-- 三つのセクションと一つのページを写した状態。 -/
def sampleMmuCalls : List MmuCall :=
  [.scmap 0x80000000 0x10000000 1, .scmap 0x80100000 0x10100000 1, .scmap 0x80200000 0x10000000 1, .map 0xfc400000 0x20001000 0x1000 1]

theorem elf_vaddr_to_paddr_second_section :
    ∃ s, Reaches (Mmu.step armvPteV7mp sampleMmuBase) (Mmu.Separate sampleMmuBase) sampleMmu s ∧
      hwWalk sampleMmuBase s.mem 0 0x80100000 = some 0x10100000 ∧ elfVaddrToPaddr sampleMmuBase s.mem 0x80100000 = 0x10000000 := by
  have h : (runAll (Mmu.step armvPteV7mp sampleMmuBase) (Mmu.Separate sampleMmuBase) (sampleMmuCalls.take 2) sampleMmu).any
      (fun s => hwWalk sampleMmuBase s.mem 0 0x80100000 = some 0x10100000 ∧
        elfVaddrToPaddr sampleMmuBase s.mem 0x80100000 = 0x10000000) = true := by
    decide
  obtain ⟨s, hs, hval⟩ := (Option.any_eq_true ..).mp h
  exact ⟨s, runAll_reaches hs, of_decide_eq_true hval⟩

theorem elf_vaddr_to_paddr_sample :
    ∃ s, Reaches (Mmu.step armvPteV7mp sampleMmuBase) (Mmu.Separate sampleMmuBase) sampleMmu s ∧
      elfVaddrToPaddr sampleMmuBase s.mem 0xfc400123 = 0x20001123 := by
  have h : (runAll (Mmu.step armvPteV7mp sampleMmuBase) (Mmu.Separate sampleMmuBase) sampleMmuCalls sampleMmu).any
      (fun s => hwWalk sampleMmuBase s.mem 0 0xfc400123 = some 0x20001123 ∧ sampleMmuBase.l1Entry s.mem 0xfc400123 % 4 = 1) = true := by
    decide +kernel
  obtain ⟨s, hs, hval⟩ := (Option.any_eq_true ..).mp h
  have hval := of_decide_eq_true hval
  have hrun := runAll_reaches hs
  exact ⟨s, hrun, (elf_vaddr_to_paddr_agrees armvPteV7mp_ok sampleMmuBase_ok (fun _ _ _ _ => rfl) sampleMmu_pages hrun (by decide)
    hval.1).mpr (.inl hval.2)⟩

end Imx6Bsp.Startup
