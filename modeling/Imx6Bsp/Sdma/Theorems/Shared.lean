import Imx6Bsp.Sdma.Lemmas.Shared

/-!
# 共有の構造の寿命

`process_cnt` は成功した `sdma_init` を持つ process の数であり、engine は 0 から 1 になるときにだけ初期化される。control block と
command descriptor は最初の process の確保した記憶域にあり、その process が先に `sdma_fini` を終えると、ほかの process が
使っていても解放される。
-/

namespace Imx6Bsp.Sdma

open Imx6Bsp.Lib

variable {n : Nat}

/-- 確保した process の最後の `sdma_fini` は、ほかに数えられた process がないときに限る。 -/
def OwnerLast (s : State n) : Op n → Prop
  | .finiShared p => s.owner s.mc0ptr = some p → s.processCnt = 1
  | _ => True

instance decidableOwnerLast (s : State n) : (op : Op n) → Decidable (OwnerLast s op)
  | .finiShared _ => inferInstanceAs (Decidable (_ → _))
  | .initBegin .. => inferInstanceAs (Decidable True)
  | .initShared _ => inferInstanceAs (Decidable True)
  | .ccbCreate .. => inferInstanceAs (Decidable True)
  | .cmdchCreate .. => inferInstanceAs (Decidable True)
  | .finiBegin _ => inferInstanceAs (Decidable True)
  | .finiDestroy _ => inferInstanceAs (Decidable True)
  | .scribble .. => inferInstanceAs (Decidable True)

/-! ## 不変条件 -/

section

variable {s : State n}

theorem Inv.run (h : Inv s) {op : Op n} (he : Enabled s op) (hk : OwnerLast s op) : Inv (run s op) := by
  cases op with
  | initBegin p localOk => exact h.initBegin he
  | initShared p => exact h.initShared he.1 he.2
  | ccbCreate p paddr mapOk offsetOk => exact h.ccbCreate he.1 he.2
  | cmdchCreate p paddr mapOk offsetOk restOk => exact h.cmdchCreate he.1 he.2
  | finiBegin p => exact h.finiBegin he
  | finiShared p => exact h.finiShared he.1 he.2 hk
  | finiDestroy p => exact h.finiDestroy he
  | scribble paddr value =>
      refine ⟨⟨h.counts.lock, h.counts.count, h.counts.users⟩, fun q hq => ?_, fun q hq => ?_, h.shares.entered⟩
      all_goals
        obtain ⟨o, ho, h1, h2⟩ := h.shares.alive q hq
        have hne : s.mc0ptr ≠ paddr := by
          rintro rfl
          exact Option.some_ne_none o (h1.symm.trans he)
      · change (s.proc q).ccbPtr = s.mc0ptr ∧ (s.proc q).cmdBdPtr = Function.update s.baseBd paddr value s.mc0ptr
        rw [Function.update_of_ne hne]
        exact h.shares.same q hq
      · refine ⟨o, ho, h1, ?_⟩
        change s.owner (Function.update s.baseBd paddr value s.mc0ptr) = some o
        rw [Function.update_of_ne hne]
        exact h2

end

theorem Inv.start (n : Nat) : Inv (init n) := by
  refine ⟨⟨fun _ hl => absurd hl Bool.false_ne_true, ?_, fun _ => rfl⟩, fun _ hq => absurd hq Bool.false_ne_true,
    fun _ hq => absurd hq Bool.false_ne_true, fun _ hq => by cases hq⟩
  have hzero : countIf Proc.counted (init n).proc = 0 := countIf_eq_zero.mpr fun _ => Bool.false_ne_true
  rw [hzero]
  rfl

theorem Inv.reaches {s : State n} (h : Reaches step OwnerLast (init n) s) : Inv s := by
  refine h.invariant (P := Inv) (.start n) fun u op v hu hk hs => ?_
  simp only [step] at hs
  split_ifs at hs with he
  cases hs
  exact hu.run he hk

/-! ## 共有の構造の寿命 -/

/-- 約束。engine の初期化は、数が 0 から 1 になるときにだけ起きる。 -/
structure SharedKept (s : State n) : Prop where
  count : s.libinit = none → s.processCnt = countIf Proc.attached s.proc
  users : ∀ p, ((s.proc p).pc = .inside → 0 < (s.proc p).users) ∧ ((s.proc p).pc = .out → (s.proc p).users = 0)
  same : ∀ p q, (s.proc p).attached → (s.proc q).attached →
    (s.proc p).ccbPtr = (s.proc q).ccbPtr ∧ (s.proc p).cmdBdPtr = (s.proc q).cmdBdPtr
  designated : ∀ p, (s.proc p).attached → (s.proc p).ccbPtr = s.mc0ptr ∧ (s.proc p).cmdBdPtr = s.baseBd s.mc0ptr
  mapped : (∃ p, (s.proc p).attached) → ∃ o, s.owner s.mc0ptr = some o ∧ s.owner (s.baseBd s.mc0ptr) = some o
  reset : ∀ op, Enabled s op →
    ((run s op).resets = s.resets + 1 ∧ s.processCnt = 0 ∧ (run s op).processCnt = 1) ∨
      ((run s op).resets = s.resets ∧ ¬(s.processCnt = 0 ∧ (run s op).processCnt = 1))

theorem munmap_resets (s : State n) (p : Fin n) (a : Nat) : (s.munmap p a).resets = s.resets := by
  rw [State.munmap]
  split_ifs <;> rfl

/-- engine を初期化せず、数を増やさない。 -/
def Quiet (s t : State n) : Prop := t.resets = s.resets ∧ t.processCnt ≤ s.processCnt

theorem Quiet.munmap {s t : State n} (h : Quiet s t) (p : Fin n) (a : Nat) : Quiet s (t.munmap p a) :=
  ⟨(munmap_resets t p a).trans h.1, (munmap_frame t p a).2.1 ▸ h.2⟩

theorem Quiet.initFailed {s t : State n} (h : Quiet s t) (p : Fin n) : Quiet s (initFailed t p) := by
  refine ⟨h.1, ?_⟩
  have := h.2
  change t.processCnt - 1 ≤ s.processCnt
  omega

theorem Quiet.ccbFailed {s t : State n} (h : Quiet s t) (p : Fin n) : Quiet s (ccbFailed t p) :=
  (h.munmap p _).initFailed p

theorem Quiet.refl (s : State n) : Quiet s s := ⟨rfl, le_refl _⟩

/-- 数を増やすのは `sdma_init` の共有部分の初めだけである。 -/
theorem run_quiet (s : State n) {op : Op n} (hop : ∀ p, op ≠ .initShared p) : Quiet s (run s op) := by
  cases op with
  | initShared p => exact absurd rfl (hop p)
  | initBegin p localOk =>
      simp only [run, initBegin]
      split_ifs <;> exact .refl s
  | ccbCreate p paddr mapOk offsetOk =>
      simp only [run, ccbCreate]
      split_ifs
      · exact (Quiet.refl s).initFailed p
      · exact .refl s
      · exact Quiet.initFailed (Quiet.munmap (t := s.mmap p paddr) (.refl s) p paddr) p
      · exact .refl s
  | cmdchCreate p paddr mapOk offsetOk restOk =>
      simp only [run, cmdchCreate]
      split_ifs
      · exact (Quiet.refl s).ccbFailed p
      · exact .refl s
      · refine Quiet.ccbFailed (Quiet.munmap ?_ p paddr) p
        exact .refl s
      · exact Quiet.ccbFailed (Quiet.munmap (t := s.mmap p paddr) (.refl s) p paddr) p
      · exact .refl s
      · exact ((Quiet.refl s).munmap p _).ccbFailed p
  | finiBegin p => exact .refl s
  | finiShared p =>
      refine ⟨rfl, ?_⟩
      change s.processCnt - 1 ≤ s.processCnt
      omega
  | finiDestroy p => exact ((Quiet.refl s).munmap p _).munmap p _
  | scribble paddr value => exact .refl s

/-- engine の初期化は、数が 0 から 1 になるときと同じである。 -/
theorem run_reset (s : State n) (op : Op n) :
    ((run s op).resets = s.resets + 1 ∧ s.processCnt = 0 ∧ (run s op).processCnt = 1) ∨
      ((run s op).resets = s.resets ∧ ¬(s.processCnt = 0 ∧ (run s op).processCnt = 1)) := by
  by_cases hop : ∃ p, op = .initShared p
  · obtain ⟨p, rfl⟩ := hop
    by_cases h0 : s.processCnt + 1 = 1
    · refine .inl ?_
      simp only [run, initShared, State.isFirst, State.set, h0, decide_true, if_true, true_and, and_true]
      omega
    · refine .inr ?_
      simp only [run, initShared, State.isFirst, State.set, h0, decide_false, Bool.false_eq_true, if_false, true_and, and_false,
        not_false_eq_true]
  · obtain ⟨hresets, hcnt⟩ := run_quiet s fun p hp => hop ⟨p, hp⟩
    exact .inr ⟨hresets, fun h => by omega⟩

/-- 条件を満たす実行では、どの状態でも約束が守られる。 -/
theorem sdma_shared_kept {s : State n} (h : Reaches step OwnerLast (init n) s) : SharedKept s := by
  have hinv := Inv.reaches h
  refine ⟨hinv.counts.attached, fun p => ?_, fun p q hp hq => ?_, hinv.shares.same, ?_, fun op _ => run_reset s op⟩
  · have husers := hinv.counts.users p
    unfold Proc.usersOk at husers
    constructor
    · intro hp
      rw [hp] at husers
      exact husers
    · intro hp
      rw [hp] at husers
      exact husers
  · obtain ⟨hp1, hp2⟩ := hinv.shares.same p hp
    obtain ⟨hq1, hq2⟩ := hinv.shares.same q hq
    exact ⟨hp1.trans hq1.symm, hp2.trans hq2.symm⟩
  · rintro ⟨p, hp⟩
    obtain ⟨o, _, h1, h2⟩ := hinv.shares.alive p hp
    exact ⟨o, h1, h2⟩

/-- 一つの process の `sdma_init`。 -/
def initOps (p : Fin n) (ccb cmd : Nat) : List (Op n) :=
  [.initBegin p true, .initShared p, .ccbCreate p ccb true true, .cmdchCreate p cmd true true true]

def finiOps (p : Fin n) : List (Op n) := [.finiBegin p, .finiShared p, .finiDestroy p]

theorem sdma_shared_kept_run :
    ∃ s : State 2, Reaches step OwnerLast (init 2) s ∧ (s.proc 0).attached ∧ SharedKept s := by
  obtain ⟨s, hs, hp⟩ := (Option.any_eq_true _ _).mp (by decide :
    (runAll step OwnerLast (initOps 0 0x1000 0x2000 ++ initOps 1 0x3000 0x4000 ++ finiOps 1) (init 2)).any
      (fun s => decide (s.proc 0).attached) = true)
  exact ⟨s, runAll_reaches hs, of_decide_eq_true hp, sdma_shared_kept (runAll_reaches hs)⟩

/-- 確保した process が先に `sdma_fini` を終えると、残る process の使う記憶域は解放されている。 -/
theorem sdma_shared_freed : ¬∀ (n : Nat) (s : State n), Reaches step (fun _ _ => True) (init n) s → SharedKept s := by
  intro hall
  obtain ⟨s, hs, hp⟩ := (Option.any_eq_true _ _).mp (by decide :
    (runAll step (fun _ _ => True) (initOps 0 0x1000 0x2000 ++ initOps 1 0x3000 0x4000 ++ finiOps 0) (init 2)).any
      (fun s => decide (s.proc 1).attached && (s.owner s.mc0ptr).isNone) = true)
  obtain ⟨hattached, hfree⟩ := Bool.and_eq_true_iff.mp hp
  obtain ⟨o, ho, _⟩ := (hall 2 s (runAll_reaches hs)).mapped ⟨1, of_decide_eq_true hattached⟩
  rw [ho] at hfree
  cases hfree

end Imx6Bsp.Sdma
