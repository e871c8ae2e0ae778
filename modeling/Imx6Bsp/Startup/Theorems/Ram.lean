import Imx6Bsp.Startup.Lemmas.RamSound

/-!
# RAM の割り当ての定理

`ram_list` の演算が集合の演算を計算すること、渡したブロックが重ならないこと、二つの一覧が容量に収まることを示す。
-/

namespace Imx6Bsp.Startup

open Imx6Bsp.Lib

/-! ## `ram_list` の集合としての意味 -/

/-- 前提を満たし、欠陥に触れない呼び出しだけからなるどの実行でも、渡したブロックは加えられた RAM に収まり、
イメージとも、先に避けるとされた範囲とも、渡し済みのブロックとも重ならない。 -/
theorem no_double_allocation (hdr : StartupHeader) (hhdr : HeaderOk hdr) (top : Nat)
    (htop : top + pageSize ≤ 2 ^ 32) (t : RamTrace)
    (h : Reaches (RamTrace.step hdr) (fun t c => InDomain hdr top t c ∧ NoDefect t c) (.init hdr) t) :
    Sound hdr t.log := by
  have hinv : t.Inv hdr top := h.invariant (RamTrace.init_inv hhdr) fun u c v hu hok hs =>
    hu.step hhdr htop hok.1 hok.2 hs
  exact hinv.sound

/-- 4K の起動部分を持つ 8K のイメージ。 -/
def sampleHeader : StartupHeader := { ramPaddr := 0x10000000, ramSize := 0x2000, startupSize := 0x1000 }

theorem sampleHeader_ok : HeaderOk sampleHeader := ⟨by decide, by decide, by decide⟩

/-- RAM を加え、三つの関数でブロックを取る列。 -/
def sampleCalls : List RamCall :=
  [.addRam 0x20000000 0x20000, .allocRam nullPaddr 0x1000 4096, .wsAlloc 16, .reserveRam 0x100 0 4096]

theorem no_double_allocation_sampleCalls :
    ∃ t, Reaches (RamTrace.step sampleHeader) (fun t c => InDomain sampleHeader 0x40000000 t c ∧ NoDefect t c)
        (.init sampleHeader) t ∧
      RamEvent.block 0x20008000 0x1000 ∈ t.log ∧ RamEvent.block 0x20009000 16 ∈ t.log ∧
      RamEvent.block 0x2001f000 0x100 ∈ t.log ∧ Sound sampleHeader t.log := by
  have hrun : (runAll (RamTrace.step sampleHeader)
      (fun t c => InDomain sampleHeader 0x40000000 t c ∧ NoDefect t c) sampleCalls (.init sampleHeader)).any
        (fun t => decide (RamEvent.block 0x20008000 0x1000 ∈ t.log ∧ RamEvent.block 0x20009000 16 ∈ t.log ∧
          RamEvent.block 0x2001f000 0x100 ∈ t.log)) = true := by decide +kernel
  obtain ⟨t, ht, hmem⟩ := (Option.any_eq_true _ _).mp hrun
  obtain ⟨h1, h2, h3⟩ := of_decide_eq_true hmem
  have hreach := runAll_reaches ht
  exact ⟨t, hreach, h1, h2, h3, no_double_allocation _ sampleHeader_ok 0x40000000 (by decide) t hreach⟩

/-- 加えた RAM をすべて渡した後の `ws_alloc()` は、渡し済みのブロックの番地をもう一度渡す。 -/
theorem wsAlloc_reuses_block :
    ∃ t, Reaches (RamTrace.step sampleHeader) (InDomain sampleHeader 0x40000000) (.init sampleHeader) t ∧
      ¬ Sound sampleHeader t.log := by
  have hrun : (runAll (RamTrace.step sampleHeader) (InDomain sampleHeader 0x40000000)
      [.addRam 0x10003000 0x1000, .allocRam nullPaddr 0x1000 4096, .wsAlloc 16] (.init sampleHeader)).any
        (fun t => decide (t.log.take 3 = [.avoided 0x10003000 16, .block 0x10003000 16, .block 0x10003000 0x1000])) =
          true := by decide
  obtain ⟨t, ht, hlog⟩ := (Option.any_eq_true _ _).mp hrun
  have hlog := of_decide_eq_true hlog
  refine ⟨t, runAll_reaches ht, fun hsound => ?_⟩
  rw [← List.take_append_drop 3 t.log, hlog] at hsound
  have hdisj := hsound.1.blocks 0x10003000 0x1000 (by simp)
  have hmem : ∀ n, 0 < n → 0x10003000 ∈ Set.Ico 0x10003000 (0x10003000 + n) := fun n hn => ⟨le_rfl, by omega⟩
  exact Set.disjoint_left.mp hdisj (hmem 16 (by decide)) (hmem 0x1000 (by decide))

/-! ## 一覧の容量 -/

/-- `avoid_list` に項目を加えるどの呼び出しも容量の残る状態で行われる実行では、二つの一覧は常に容量に収まる。 -/
theorem listSizes_le_max (hdr : StartupHeader) (t : RamTrace)
    (h : Reaches (RamTrace.step hdr) (fun t c => appendsAvoid hdr t.ram c = true →
      avoidListSize t.ram.avoidList + 8 ≤ maxAvoidListSize) (.init hdr) t) :
    avoidListSize t.ram.avoidList ≤ maxAvoidListSize ∧ ramListSize t.ram.ramList ≤ maxRamListSize := by
  refine h.invariant (P := fun t => avoidListSize t.ram.avoidList ≤ maxAvoidListSize ∧
    ramListSize t.ram.ramList ≤ maxRamListSize) ?_ ?_
  · simp [RamTrace.init, wsInit, wsAlloc, wsPlace, avoidRam, ramListSize, avoidListSize, maxAvoidListSize,
      maxRamListSize]
  · intro u c v hu hok hs
    obtain ⟨⟨s', events⟩, hrun, hs⟩ := Except.bind_eq_ok.mp hs
    cases hs
    have hstep := runCall_sizeStep hrun
    refine ⟨?_, hstep.ram hu.2⟩
    rw [hstep.avoid]
    split
    · rename_i happ; exact hok happ
    · exact hu.1

theorem listSizes_le_max_sampleCalls :
    ∃ t, Reaches (RamTrace.step sampleHeader) (fun t c => appendsAvoid sampleHeader t.ram c = true →
        avoidListSize t.ram.avoidList + 8 ≤ maxAvoidListSize) (.init sampleHeader) t ∧
      t.ram.avoidList.length = 5 ∧ avoidListSize t.ram.avoidList ≤ maxAvoidListSize := by
  have hrun : (runAll (RamTrace.step sampleHeader) (fun t c => appendsAvoid sampleHeader t.ram c = true →
      avoidListSize t.ram.avoidList + 8 ≤ maxAvoidListSize) sampleCalls (.init sampleHeader)).any
        (fun t => decide (t.ram.avoidList.length = 5)) = true := by decide
  obtain ⟨t, ht, hlen⟩ := (Option.any_eq_true _ _).mp hrun
  have hreach := runAll_reaches ht
  exact ⟨t, hreach, of_decide_eq_true hlen, (listSizes_le_max _ t hreach).1⟩

/-- `avoid_ram()` は容量を調べないので、繰り返すと `avoid_list` は `ram_list` の上に書き込む。 -/
theorem avoidRam_overflows :
    ∃ t, Reaches (RamTrace.step sampleHeader) (fun _ _ => True) (.init sampleHeader) t ∧
      avoidListSize t.ram.avoidList > maxAvoidListSize := by
  have hrun : (runAll (RamTrace.step sampleHeader) (fun _ _ => True)
      (List.replicate 125 (.avoidRam 0x30000000 0x1000)) (.init sampleHeader)).any
        (fun t => decide (avoidListSize t.ram.avoidList > maxAvoidListSize)) = true := by decide +kernel
  obtain ⟨t, ht, hsize⟩ := (Option.any_eq_true _ _).mp hrun
  exact ⟨t, runAll_reaches ht, of_decide_eq_true hsize⟩

end Imx6Bsp.Startup
