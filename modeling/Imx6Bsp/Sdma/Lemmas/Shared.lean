import Imx6Bsp.Lib.Counting
import Imx6Bsp.Sdma.Shared

/-!
# 共有の構造の不変条件

`process_cnt` に数えられた process と、`libinit_mutex` を持つ process と、確保されている記憶域の対応を保つ。
-/

namespace Imx6Bsp.Sdma

open Imx6Bsp.Lib

variable {n : Nat}

/-- `libinit_mutex` を持つ。 -/
def Pc.locking : Pc → Bool
  | .ccbCreate | .cmdchCreate | .destroying => true
  | _ => false

/-- 成功した `sdma_init` があり、その `sdma_fini` が数を減らしていない。 -/
def Pc.attached : Pc → Bool
  | .inside | .leaving => true
  | _ => false

/-- `process_cnt` に数えられている。 -/
def Pc.counted : Pc → Bool
  | .ccbCreate | .cmdchCreate | .inside | .leaving => true
  | _ => false

abbrev Proc.attached (x : Proc) : Prop := x.pc.attached = true

abbrev Proc.counted (x : Proc) : Prop := x.pc.counted = true

/-- 呼び出しの進み具合と `n_users_in_process` の対応。 -/
def Proc.usersOk (x : Proc) : Prop :=
  match x.pc with
  | .out | .leaving | .destroying => x.users = 0
  | .entering | .ccbCreate | .cmdchCreate => x.users = 1
  | .inside => 0 < x.users

/-! ## 数と排他 -/

/-- 記憶域に関わらない部分。 -/
structure Counts (s : State n) : Prop where
  lock : ∀ p, (s.proc p).pc.locking = true → s.libinit = some p
  count : s.processCnt = countIf Proc.counted s.proc
  users : ∀ p, (s.proc p).usersOk

/-- 一つの process を置き換えた状態。 -/
theorem Counts.update {s t : State n} (h : Counts s) {p : Fin n} {x : Proc} (hproc : t.proc = Function.update s.proc p x)
    (hlock : x.pc.locking = true → t.libinit = some p)
    (hother : ∀ q, q ≠ p → (s.proc q).pc.locking = true → t.libinit = some q)
    (hcount : t.processCnt = countIf Proc.counted (Function.update s.proc p x)) (husers : x.usersOk) : Counts t where
  lock := by
    intro q
    rw [hproc]
    rcases eq_or_ne q p with rfl | hq
    · rw [Function.update_self]
      exact hlock
    · rw [Function.update_of_ne hq]
      exact hother q hq
  count := hproc ▸ hcount
  users := by
    intro q
    rw [hproc]
    rcases eq_or_ne q p with rfl | hq
    · rw [Function.update_self]
      exact husers
    · rw [Function.update_of_ne hq]
      exact h.users q

/-- 鍵を持つ process は一つである。 -/
theorem Counts.alone {s : State n} (h : Counts s) {p q : Fin n} (hp : s.libinit = some p) (hq : (s.proc q).pc.locking = true) :
    q = p := Option.some.inj ((h.lock q hq).symm.trans hp)

/-- 数えられた process は、鍵を持つものを除けば、成功した `sdma_init` を持つ。 -/
theorem Counts.attached_of_counted {s : State n} (h : Counts s) {q : Fin n} (hc : (s.proc q).counted)
    (hne : s.libinit ≠ some q) : (s.proc q).attached := by
  have hlock : (s.proc q).pc.locking ≠ true := fun hl => hne (h.lock q hl)
  unfold Proc.counted at hc
  unfold Proc.attached
  cases hpc : (s.proc q).pc <;> rw [hpc] at hc hlock <;> simp_all [Pc.counted, Pc.locking, Pc.attached]

theorem attached_iff {x : Proc} {a : Pc} (h : x.pc = a) : x.attached ↔ a.attached = true := by
  unfold Proc.attached
  rw [h]

theorem counted_iff {x : Proc} {a : Pc} (h : x.pc = a) : x.counted ↔ a.counted = true := by
  unfold Proc.counted
  rw [h]

theorem counted_of_attached {x : Proc} (h : x.attached) : x.counted := by
  unfold Proc.attached at h
  unfold Proc.counted
  cases hpc : x.pc <;> rw [hpc] at h <;> first | rfl | cases h

/-- 鍵が空いていれば、数えられているのは成功した `sdma_init` を持つ process である。 -/
theorem Counts.attached {s : State n} (h : Counts s) (hfree : s.libinit = none) :
    s.processCnt = countIf Proc.attached s.proc := by
  rw [h.count]
  congr 1
  refine countIf_congr fun p => ⟨fun hc => h.attached_of_counted hc ?_, counted_of_attached⟩
  rw [hfree]
  exact Option.some_ne_none p |>.symm

section

variable {s t : State n} {p : Fin n} {x : Proc}

/-- 数に関わらない置き換え。 -/
theorem Counts.keep (h : Counts s) (hproc : t.proc = Function.update s.proc p x) (hcnt : t.processCnt = s.processCnt)
    (hlock : x.pc.locking = true → t.libinit = some p)
    (hother : ∀ q, q ≠ p → (s.proc q).pc.locking = true → t.libinit = some q)
    (hcounted : x.counted ↔ (s.proc p).counted) (husers : x.usersOk) : Counts t :=
  h.update hproc hlock hother (by rw [hcnt, h.count, countIf_update_same hcounted]) husers

theorem Counts.join (h : Counts s) (hproc : t.proc = Function.update s.proc p x) (hcnt : t.processCnt = s.processCnt + 1)
    (hlock : x.pc.locking = true → t.libinit = some p)
    (hother : ∀ q, q ≠ p → (s.proc q).pc.locking = true → t.libinit = some q)
    (hx : x.counted) (hp : ¬(s.proc p).counted) (husers : x.usersOk) : Counts t :=
  h.update hproc hlock hother (by rw [hcnt, h.count, countIf_update_join hx hp, Nat.cast_add, Nat.cast_one]) husers

theorem Counts.leave (h : Counts s) (hproc : t.proc = Function.update s.proc p x) (hcnt : t.processCnt = s.processCnt - 1)
    (hlock : x.pc.locking = true → t.libinit = some p)
    (hother : ∀ q, q ≠ p → (s.proc q).pc.locking = true → t.libinit = some q)
    (hx : ¬x.counted) (hp : (s.proc p).counted) (husers : x.usersOk) : Counts t :=
  h.update hproc hlock hother (by rw [hcnt, h.count, ← countIf_update_leave hx hp, Nat.cast_add, Nat.cast_one]; omega) husers

/-- 鍵を持つ process がするとき、ほかの process は鍵を持たない。 -/
theorem Counts.others (h : Counts s) (hp : (s.proc p).pc.locking = true) {o : Option (Fin n)} :
    ∀ q, q ≠ p → (s.proc q).pc.locking = true → o = some q :=
  fun _ hq hl => absurd (h.alone (h.lock p hp) hl) hq

theorem Counts.none_locking (h : Counts s) (hfree : s.libinit = none) {o : Option (Fin n)} :
    ∀ q, q ≠ p → (s.proc q).pc.locking = true → o = some q := by
  intro q _ hl
  have := h.lock q hl
  rw [hfree] at this
  cases this

/-- `fail4` から後。 -/
theorem Counts.failed (h : Counts s) (hp : (s.proc p).pc = .ccbCreate ∨ (s.proc p).pc = .cmdchCreate)
    (hu : t.proc = s.proc) (hcnt : t.processCnt = s.processCnt) : Counts (initFailed t p) := by
  have husers := h.users p
  have hproc : (initFailed t p).proc = Function.update s.proc p { s.proc p with pc := .out, users := (s.proc p).users - 1 } := by
    simp only [initFailed, State.set, hu]
  have hone : (s.proc p).users = 1 := by
    unfold Proc.usersOk at husers
    rcases hp with hp | hp <;> rw [hp] at husers <;> exact husers
  have hlocking : (s.proc p).pc.locking = true := by rcases hp with hp | hp <;> rw [hp] <;> rfl
  have hcounted : (s.proc p).counted := by
    unfold Proc.counted
    rcases hp with hp | hp <;> rw [hp] <;> rfl
  refine h.leave hproc (by rw [initFailed, ← hcnt]; rfl) nofun (h.others hlocking) Bool.false_ne_true hcounted ?_
  change (s.proc p).users - 1 = 0
  rw [hone]

/-- 数が 1 で `p` が数えられていれば、ほかに成功した `sdma_init` はない。 -/
theorem Counts.first_alone (h : Counts s) (hfirst : s.isFirst = true) (hp : (s.proc p).counted) {q : Fin n}
    (hq : (s.proc q).attached) : q = p := by
  have hone : s.processCnt = 1 := of_decide_eq_true hfirst
  rw [h.count] at hone
  exact eq_of_countIf_eq_one (Nat.cast_eq_one.mp hone) hp (counted_of_attached hq)

end

/-! ## 共有の記憶域 -/

/-- 成功した `sdma_init` を持つ process は同じものを写像し、それを確保した process もまだ `sdma_fini` を終えていない。 -/
structure Shares (s : State n) : Prop where
  same : ∀ p, (s.proc p).attached → (s.proc p).ccbPtr = s.mc0ptr ∧ (s.proc p).cmdBdPtr = s.baseBd s.mc0ptr
  alive : ∀ p, (s.proc p).attached →
    ∃ o, (s.proc o).attached ∧ s.owner s.mc0ptr = some o ∧ s.owner (s.baseBd s.mc0ptr) = some o
  entered : ∀ p, (s.proc p).pc = .cmdchCreate →
    (s.proc p).ccbPtr = s.mc0ptr ∧ (s.isFirst = true → s.owner s.mc0ptr = some p)

section

variable {s t : State n} {p : Fin n} {x : Proc}

theorem munmap_owner {b : Nat} {o : Fin n} (hne : o ≠ p) (a : Nat) (h : s.owner b = some o) : (s.munmap p a).owner b = some o := by
  rw [State.munmap]
  split_ifs with ha
  · rcases eq_or_ne b a with rfl | hb
    · exact absurd (Option.some.inj (h.symm.trans ha)) hne
    · simp only [Function.update_of_ne hb, h]
  · exact h

theorem munmap_frame (s : State n) (p : Fin n) (a : Nat) :
    (s.munmap p a).proc = s.proc ∧ (s.munmap p a).processCnt = s.processCnt ∧ (s.munmap p a).mc0ptr = s.mc0ptr ∧
      (s.munmap p a).baseBd = s.baseBd := by
  rw [State.munmap]
  split_ifs <;> exact ⟨rfl, rfl, rfl, rfl⟩

/-- `q` から見た記憶域が変わらず、`p` のほかの process の確保したものが残る。 -/
def Spares (s t : State n) (p : Fin n) : Prop :=
  t.mc0ptr = s.mc0ptr ∧ t.baseBd s.mc0ptr = s.baseBd s.mc0ptr ∧ ∀ b o, o ≠ p → s.owner b = some o → t.owner b = some o

theorem Spares.munmap {u : State n} (h : Spares s u p) (a : Nat) : Spares s (u.munmap p a) p := by
  obtain ⟨_, _, hm, hb⟩ := munmap_frame u p a
  exact ⟨hm.trans h.1, hb ▸ h.2.1, fun b o hne ho => munmap_owner hne a (h.2.2 b o hne ho)⟩

theorem Spares.refl : Spares s s p := ⟨rfl, rfl, fun _ _ _ h => h⟩

/-- `p` が写像を使っていない間の変化。 -/
theorem Shares.outside (h : Shares s) (hproc : t.proc = Function.update s.proc p x) (hp : ¬(s.proc p).attached) (hx : ¬x.attached)
    (hmem : ∀ q, q ≠ p → (s.proc q).attached → Spares s t p)
    (hentered : ∀ q, (t.proc q).pc = .cmdchCreate →
      (t.proc q).ccbPtr = t.mc0ptr ∧ (t.isFirst = true → t.owner t.mc0ptr = some q)) : Shares t where
  same := by
    intro q hq
    rw [hproc] at hq ⊢
    rcases eq_or_ne q p with rfl | hne
    · rw [Function.update_self] at hq
      exact absurd hq hx
    · rw [Function.update_of_ne hne] at hq ⊢
      obtain ⟨hmc0, hbase, _⟩ := hmem q hne hq
      rw [hmc0, hbase]
      exact h.same q hq
  alive := by
    intro q hq
    rw [hproc] at hq ⊢
    rcases eq_or_ne q p with rfl | hne
    · rw [Function.update_self] at hq
      exact absurd hq hx
    · rw [Function.update_of_ne hne] at hq
      obtain ⟨hmc0, hbase, howner⟩ := hmem q hne hq
      obtain ⟨o, ho, h1, h2⟩ := h.alive q hq
      have hop : o ≠ p := fun he => hp (he ▸ ho)
      refine ⟨o, ?_, ?_, ?_⟩
      · rw [Function.update_of_ne hop]
        exact ho
      · rw [hmc0]
        exact howner _ _ hop h1
      · rw [hmc0, hbase]
        exact howner _ _ hop h2
  entered := hentered

/-- 写像も記憶域も変わらない変化。 -/
theorem Shares.keep (h : Shares s) (hproc : t.proc = Function.update s.proc p x)
    (hmem : t.mc0ptr = s.mc0ptr ∧ t.baseBd = s.baseBd ∧ t.owner = s.owner ∧ t.processCnt = s.processCnt)
    (hp : x.attached → (s.proc p).attached) (hp' : (s.proc p).attached → x.attached)
    (hptr : x.ccbPtr = (s.proc p).ccbPtr ∧ x.cmdBdPtr = (s.proc p).cmdBdPtr) (hx : x.pc ≠ .cmdchCreate) : Shares t := by
  obtain ⟨hmc0, hbase, howner, hcnt⟩ := hmem
  have hattached : ∀ q, (t.proc q).attached ↔ (s.proc q).attached := by
    intro q
    rw [hproc]
    rcases eq_or_ne q p with rfl | hne
    · rw [Function.update_self]
      exact ⟨hp, hp'⟩
    · rw [Function.update_of_ne hne]
  have hptrs : ∀ q, (t.proc q).ccbPtr = (s.proc q).ccbPtr ∧ (t.proc q).cmdBdPtr = (s.proc q).cmdBdPtr := by
    intro q
    rw [hproc]
    rcases eq_or_ne q p with rfl | hne
    · rw [Function.update_self]
      exact hptr
    · rw [Function.update_of_ne hne]
      exact ⟨rfl, rfl⟩
  refine ⟨fun q hq => ?_, fun q hq => ?_, fun q hq => ?_⟩
  · rw [hmc0, hbase, (hptrs q).1, (hptrs q).2]
    exact h.same q ((hattached q).mp hq)
  · obtain ⟨o, ho, h1, h2⟩ := h.alive q ((hattached q).mp hq)
    rw [hmc0, hbase, howner]
    exact ⟨o, (hattached o).mpr ho, h1, h2⟩
  · have hne : q ≠ p := by
      rintro rfl
      rw [hproc, Function.update_self] at hq
      exact hx hq
    rw [(hptrs q).1, hmc0, howner, State.isFirst, hcnt]
    rw [hproc, Function.update_of_ne hne] at hq
    exact h.entered q hq

end

/-! ## 一回の進み -/

structure Inv (s : State n) : Prop where
  counts : Counts s
  shares : Shares s

section

variable {s t : State n} {p : Fin n}

theorem not_entered (hother : ∀ q, q ≠ p → (s.proc q).pc.locking = true → False) {x : Proc}
    (hproc : t.proc = Function.update s.proc p x) (hx : x.pc ≠ .cmdchCreate) {q : Fin n} (hq : (t.proc q).pc = .cmdchCreate) :
    (t.proc q).ccbPtr = t.mc0ptr ∧ (t.isFirst = true → t.owner t.mc0ptr = some q) := by
  rw [hproc] at hq
  rcases eq_or_ne q p with rfl | hne
  · rw [Function.update_self] at hq
    exact absurd hq hx
  · rw [Function.update_of_ne hne] at hq
    exact (hother q hne (by rw [hq]; rfl)).elim

/-- 失敗した `sdma_init` は、ほかの process の使うものに触れない。 -/
theorem Inv.failed (h : Inv s) (hp : (s.proc p).pc = .ccbCreate ∨ (s.proc p).pc = .cmdchCreate)
    (hu : t.proc = s.proc) (hcnt : t.processCnt = s.processCnt) (hmem : s.isFirst = false → Spares s t p) :
    Inv (initFailed t p) := by
  have hlocking : (s.proc p).pc.locking = true := by rcases hp with hp | hp <;> rw [hp] <;> rfl
  have hcounted : (s.proc p).counted := by
    unfold Proc.counted
    rcases hp with hp | hp <;> rw [hp] <;> rfl
  have hattached : ¬(s.proc p).attached := by
    unfold Proc.attached
    rcases hp with hp | hp <;> rw [hp] <;> exact Bool.false_ne_true
  have hproc : (initFailed t p).proc = Function.update s.proc p { s.proc p with pc := .out, users := (s.proc p).users - 1 } := by
    simp only [initFailed, State.set, hu]
  refine ⟨h.counts.failed hp hu hcnt, h.shares.outside hproc hattached Bool.false_ne_true (fun q hne hq => ?_) fun q hq => ?_⟩
  · rcases Bool.eq_false_or_eq_true s.isFirst with hfirst | hfirst
    · exact absurd (h.counts.first_alone hfirst hcounted hq) hne
    · exact hmem hfirst
  · refine not_entered (fun q hne hl => ?_) hproc nofun hq
    exact hne (h.counts.alone (h.counts.lock p hlocking) hl)

theorem Inv.initBegin (h : Inv s) {localOk : Bool} (hp : (s.proc p).pc = .out ∨ (s.proc p).pc = .inside) :
    Inv (initBegin s p localOk) := by
  have husers := h.counts.users p
  unfold Proc.usersOk at husers
  rw [Sdma.initBegin]
  rcases hp with hp | hp
  · rw [hp] at husers
    rw [if_pos (by simp only at husers; omega)]
    split_ifs
    · have hne : ({ s.proc p with users := (s.proc p).users + 1, pc := .entering } : Proc).pc ≠ .cmdchCreate := nofun
      refine ⟨h.counts.keep rfl rfl nofun (fun q _ hl => h.counts.lock q hl) ?_ ?_, h.shares.keep rfl ⟨rfl, rfl, rfl, rfl⟩ nofun ?_ ⟨rfl, rfl⟩ hne⟩
      · exact iff_of_false Bool.false_ne_true fun hc => Bool.false_ne_true ((counted_iff hp).mp hc)
      · change (s.proc p).users + 1 = 1
        simp only at husers
        omega
      · exact fun ha => absurd ((attached_iff hp).mp ha) Bool.false_ne_true
    · exact h
  · rw [hp] at husers
    rw [if_neg (by simp only at husers; omega)]
    have hne : ({ s.proc p with users := (s.proc p).users + 1 } : Proc).pc ≠ .cmdchCreate := by rw [hp]; exact nofun
    refine ⟨h.counts.keep rfl rfl (fun hl => h.counts.lock p hl) (fun q _ hl => h.counts.lock q hl) Iff.rfl ?_,
      h.shares.keep rfl ⟨rfl, rfl, rfl, rfl⟩ id id ⟨rfl, rfl⟩ hne⟩
    unfold Proc.usersOk
    simp only [hp]
    omega

theorem Inv.finiBegin (h : Inv s) (hp : (s.proc p).pc = .inside) : Inv (finiBegin s p) := by
  have husers := h.counts.users p
  unfold Proc.usersOk at husers
  rw [hp] at husers
  have hne : (if (s.proc p).users - 1 = 0 then Pc.leaving else (s.proc p).pc) ≠ .cmdchCreate := by
    rw [hp]
    split_ifs <;> exact nofun
  have hattached : (if (s.proc p).users - 1 = 0 then Pc.leaving else (s.proc p).pc).attached = true := by
    rw [hp]
    split_ifs <;> rfl
  have hcounted : (if (s.proc p).users - 1 = 0 then Pc.leaving else (s.proc p).pc).counted = true := by
    rw [hp]
    split_ifs <;> rfl
  have hlocking : (if (s.proc p).users - 1 = 0 then Pc.leaving else (s.proc p).pc).locking = false := by
    rw [hp]
    split_ifs <;> rfl
  refine ⟨h.counts.keep rfl rfl ?_ (fun q _ hl => h.counts.lock q hl) ?_ ?_,
    h.shares.keep rfl ⟨rfl, rfl, rfl, rfl⟩ (fun _ => ?_) (fun _ => hattached) ⟨rfl, rfl⟩ hne⟩
  · exact fun hl => absurd (hlocking.symm.trans hl) Bool.false_ne_true
  · exact iff_of_true hcounted ((counted_iff hp).mpr rfl)
  · unfold Proc.usersOk
    simp only [hp]
    split_ifs with h0
    · exact h0
    · exact Nat.pos_of_ne_zero h0
  · exact (attached_iff hp).mpr rfl

theorem Inv.initShared (h : Inv s) (hp : (s.proc p).pc = .entering) (hfree : s.libinit = none) : Inv (initShared s p) := by
  have husers := h.counts.users p
  unfold Proc.usersOk at husers
  rw [hp] at husers
  have hattached : ¬(s.proc p).attached := fun ha => Bool.false_ne_true ((attached_iff hp).mp ha)
  have hcounted : ¬(s.proc p).counted := fun hc => Bool.false_ne_true ((counted_iff hp).mp hc)
  have hmain : ∀ t : State n, t.proc = Function.update s.proc p { s.proc p with pc := .ccbCreate } →
      t.libinit = some p → t.processCnt = s.processCnt + 1 → t.mc0ptr = s.mc0ptr → t.baseBd = s.baseBd → t.owner = s.owner →
        Inv t := by
    intro t hproc hlib hcnt hmc0 hbase howner
    refine ⟨h.counts.join hproc hcnt (fun _ => hlib) (h.counts.none_locking hfree) rfl hcounted husers,
      h.shares.outside hproc hattached Bool.false_ne_true (fun q _ _ => ⟨hmc0, by rw [hbase], fun b o _ ho => howner ▸ ho⟩) fun q hq => ?_⟩
    refine not_entered (fun q _ hl => ?_) hproc nofun hq
    have := h.counts.lock q hl
    rw [hfree] at this
    cases this
  rw [Sdma.initShared]
  simp only
  split_ifs
  · exact hmain _ rfl rfl rfl rfl rfl rfl
  · exact hmain _ rfl rfl rfl rfl rfl rfl

theorem mmap_munmap {a : Nat} (hfree : s.owner a = none) : ((s.mmap p a).munmap p a) = s := by
  rw [State.munmap, State.mmap]
  simp only [Function.update_self, if_true, Function.update_idem]
  rw [← hfree, Function.update_eq_self]

theorem Inv.ccbCreate (h : Inv s) {paddr : Nat} {mapOk offsetOk : Bool} (hp : (s.proc p).pc = .ccbCreate)
    (hfree : s.owner paddr = none) : Inv (ccbCreate s p paddr mapOk offsetOk) := by
  have husers := h.counts.users p
  unfold Proc.usersOk at husers
  rw [hp] at husers
  have hlocking : (s.proc p).pc.locking = true := by rw [hp]; rfl
  have hlib := h.counts.lock p hlocking
  have hattached : ¬(s.proc p).attached := fun ha => Bool.false_ne_true ((attached_iff hp).mp ha)
  have hcounted : (s.proc p).counted := (counted_iff hp).mpr rfl
  have hlone : ∀ q, q ≠ p → (s.proc q).pc.locking = true → False := fun q hne hl => hne (h.counts.alone hlib hl)
  have hmain : ∀ (t : State n) (b : Nat), t.proc = Function.update s.proc p { s.proc p with pc := .cmdchCreate, ccbPtr := b } →
      t.libinit = s.libinit → t.processCnt = s.processCnt → t.mc0ptr = b →
        (s.isFirst = true → t.owner b = some p) → (s.isFirst = false → Spares s t p) → Inv t := by
    intro t b hproc hlib' hcnt hmc0 howner hmem
    refine ⟨h.counts.keep hproc hcnt (fun _ => hlib'.trans hlib) (h.counts.others hlocking) (iff_of_true rfl hcounted) husers,
      h.shares.outside hproc hattached Bool.false_ne_true (fun q hne hq => ?_) fun q hq => ?_⟩
    · rcases Bool.eq_false_or_eq_true s.isFirst with hfirst | hfirst
      · exact absurd (h.counts.first_alone hfirst hcounted hq) hne
      · exact hmem hfirst
    · rw [hproc] at hq ⊢
      rcases eq_or_ne q p with rfl | hne
      · rw [Function.update_self, hmc0]
        refine ⟨rfl, fun hfirst => howner ?_⟩
        rw [State.isFirst, ← hcnt]
        exact hfirst
      · rw [Function.update_of_ne hne] at hq
        exact (hlone q hne (by rw [hq]; rfl)).elim
  rw [Sdma.ccbCreate]
  split_ifs with hm hfirst hoff
  · exact h.failed (.inl hp) rfl rfl fun _ => .refl
  · refine hmain _ paddr rfl rfl rfl rfl (fun _ => Function.update_self ..) fun hf => ?_
    exact absurd (hfirst.symm.trans hf) Bool.true_eq_false.mp
  · rw [mmap_munmap hfree]
    exact h.failed (.inl hp) rfl rfl fun _ => .refl
  · exact hmain _ s.mc0ptr rfl rfl rfl rfl (fun hf => absurd hf hfirst) fun _ => .refl

/-- 二つ目からの process の `ccb_destroy` までの失敗。 -/
theorem Inv.ccbFailed (h : Inv s) (hp : (s.proc p).pc = .cmdchCreate) (hu : t.proc = s.proc)
    (hcnt : t.processCnt = s.processCnt) (hmem : s.isFirst = false → Spares s t p) : Inv (ccbFailed t p) := by
  obtain ⟨hproc, hcnt', _⟩ := munmap_frame t p (t.proc p).ccbPtr
  exact h.failed (.inr hp) (hproc.trans hu) (hcnt'.trans hcnt) fun hf => (hmem hf).munmap _

theorem Inv.cmdchCreate (h : Inv s) {paddr : Nat} {mapOk offsetOk restOk : Bool} (hp : (s.proc p).pc = .cmdchCreate)
    (hfree : s.owner paddr = none) : Inv (cmdchCreate s p paddr mapOk offsetOk restOk) := by
  have husers := h.counts.users p
  unfold Proc.usersOk at husers
  rw [hp] at husers
  have hlocking : (s.proc p).pc.locking = true := by rw [hp]; rfl
  have hlib := h.counts.lock p hlocking
  have hcounted : (s.proc p).counted := (counted_iff hp).mpr rfl
  have hlone : ∀ q, q ≠ p → (s.proc q).pc.locking = true → False := fun q hne hl => hne (h.counts.alone hlib hl)
  obtain ⟨hccb, hown⟩ := h.shares.entered p hp
  have hcounts : ∀ (t : State n) (b : Nat), t.proc = Function.update s.proc p { s.proc p with pc := .inside, cmdBdPtr := b } →
      t.processCnt = s.processCnt → Counts t := by
    intro t b hproc hcnt
    refine h.counts.keep hproc hcnt nofun (h.counts.others hlocking) (iff_of_true rfl hcounted) ?_
    change 0 < (s.proc p).users
    simp only at husers
    omega
  rw [Sdma.cmdchCreate]
  split_ifs with hm hfirst hoff hrest hrest
  · exact h.ccbFailed hp rfl rfl fun _ => .refl
  · -- 最初の process では、ほかに写像を使うものはない。
    refine ⟨hcounts _ paddr rfl rfl, fun q hq => ?_, fun q hq => ?_, fun q hq => ?_⟩
    · change (Function.update s.proc p _ q).attached at hq
      change (Function.update s.proc p _ q).ccbPtr = _ ∧ (Function.update s.proc p _ q).cmdBdPtr = _
      rcases eq_or_ne q p with rfl | hne
      · rw [Function.update_self]
        refine ⟨hccb, ?_⟩
        change paddr = Function.update s.baseBd (s.proc q).ccbPtr paddr s.mc0ptr
        rw [hccb, Function.update_self]
      · rw [Function.update_of_ne hne] at hq
        exact absurd (h.counts.first_alone hfirst hcounted hq) hne
    · refine ⟨p, ?_, ?_, ?_⟩
      · change (Function.update s.proc p _ p).attached
        rw [Function.update_self]
        rfl
      · change Function.update s.owner paddr (some p) s.mc0ptr = some p
        rcases eq_or_ne s.mc0ptr paddr with heq | hne
        · rw [heq, Function.update_self]
        · rw [Function.update_of_ne hne]
          exact hown hfirst
      · change Function.update s.owner paddr (some p) (Function.update s.baseBd (s.proc p).ccbPtr paddr s.mc0ptr) = some p
        rw [hccb, Function.update_self, Function.update_self]
    · exact @not_entered _ _ _ _ hlone { s.proc p with pc := .inside, cmdBdPtr := _ } rfl nofun _ hq
  · refine h.ccbFailed hp ?_ ?_ fun hf => absurd (hfirst.symm.trans hf) Bool.true_eq_false.mp
    · exact (munmap_frame ..).1
    · exact (munmap_frame ..).2.1
  · rw [mmap_munmap hfree]
    exact h.ccbFailed hp rfl rfl fun _ => .refl
  · -- 二つ目からの process は、前からある記憶域を写像する。
    obtain ⟨r, hr, hrc⟩ : ∃ r, r ≠ p ∧ (s.proc r).counted := by
      refine exists_ne_of_countIf_ne_one (fun hone => hfirst ?_) hcounted
      rw [State.isFirst, h.counts.count, hone]
      rfl
    have hra : (s.proc r).attached := h.counts.attached_of_counted hrc (by rw [hlib]; exact fun he => hr (Option.some.inj he).symm)
    refine ⟨hcounts _ _ rfl rfl, fun q hq => ?_, fun q hq => ?_, fun q hq => ?_⟩
    · change (Function.update s.proc p _ q).attached at hq
      change (Function.update s.proc p _ q).ccbPtr = s.mc0ptr ∧ (Function.update s.proc p _ q).cmdBdPtr = s.baseBd s.mc0ptr
      rcases eq_or_ne q p with rfl | hne
      · rw [Function.update_self]
        exact ⟨hccb, by rw [hccb]⟩
      · rw [Function.update_of_ne hne] at hq ⊢
        exact h.shares.same q hq
    · obtain ⟨o, ho, h1, h2⟩ := h.shares.alive r hra
      have hop : o ≠ p := by
        rintro rfl
        unfold Proc.attached at ho
        rw [hp] at ho
        cases ho
      refine ⟨o, ?_, h1, h2⟩
      change (Function.update s.proc p _ o).attached
      rw [Function.update_of_ne hop]
      exact ho
    · exact @not_entered _ _ _ _ hlone { s.proc p with pc := .inside, cmdBdPtr := _ } rfl nofun _ hq
  · refine h.ccbFailed hp ?_ ?_ fun _ => Spares.refl.munmap _
    · exact (munmap_frame ..).1
    · exact (munmap_frame ..).2.1

theorem Inv.finiShared (h : Inv s) (hp : (s.proc p).pc = .leaving) (hfree : s.libinit = none)
    (hlast : s.owner s.mc0ptr = some p → s.processCnt = 1) : Inv (finiShared s p) := by
  have husers := h.counts.users p
  unfold Proc.usersOk at husers
  rw [hp] at husers
  have hcounted : (s.proc p).counted := (counted_iff hp).mpr rfl
  refine ⟨h.counts.leave rfl rfl (fun _ => rfl) (h.counts.none_locking hfree) Bool.false_ne_true hcounted husers,
    fun q hq => ?_, fun q hq => ?_, fun q hq => ?_⟩
  · change (Function.update s.proc p _ q).attached at hq
    change (Function.update s.proc p _ q).ccbPtr = s.mc0ptr ∧ (Function.update s.proc p _ q).cmdBdPtr = s.baseBd s.mc0ptr
    rcases eq_or_ne q p with rfl | hne
    · rw [Function.update_self] at hq
      cases hq
    · rw [Function.update_of_ne hne] at hq ⊢
      exact h.shares.same q hq
  · change (Function.update s.proc p _ q).attached at hq
    rcases eq_or_ne q p with rfl | hne
    · rw [Function.update_self] at hq
      cases hq
    · rw [Function.update_of_ne hne] at hq
      obtain ⟨o, ho, h1, h2⟩ := h.shares.alive q hq
      have hop : o ≠ p := by
        rintro rfl
        exact hne (h.counts.first_alone (decide_eq_true (hlast h1)) hcounted hq)
      refine ⟨o, ?_, h1, h2⟩
      change (Function.update s.proc p _ o).attached
      rw [Function.update_of_ne hop]
      exact ho
  · refine @not_entered _ _ _ _ (fun q _ hl => ?_) { s.proc p with pc := .destroying } rfl nofun _ hq
    have := h.counts.lock q hl
    rw [hfree] at this
    cases this

theorem Inv.finiDestroy (h : Inv s) (hp : (s.proc p).pc = .destroying) : Inv (Sdma.finiDestroy s p) := by
  have husers := h.counts.users p
  unfold Proc.usersOk at husers
  rw [hp] at husers
  have hlocking : (s.proc p).pc.locking = true := by rw [hp]; rfl
  have hattached : ¬(s.proc p).attached := fun ha => Bool.false_ne_true ((attached_iff hp).mp ha)
  have hcounted : ¬(s.proc p).counted := fun hc => Bool.false_ne_true ((counted_iff hp).mp hc)
  obtain ⟨hproc₁, hcnt₁, _⟩ := munmap_frame s p (s.proc p).cmdBdPtr
  obtain ⟨hproc₂, hcnt₂, _⟩ := munmap_frame (s.munmap p (s.proc p).cmdBdPtr) p (s.proc p).ccbPtr
  have hproc : (Sdma.finiDestroy s p).proc = Function.update s.proc p { s.proc p with pc := .out } := by
    simp only [Sdma.finiDestroy, State.set, hproc₂, hproc₁]
  refine ⟨h.counts.keep hproc (hcnt₂.trans hcnt₁) nofun (h.counts.others hlocking) (iff_of_false Bool.false_ne_true hcounted) husers,
    h.shares.outside hproc hattached Bool.false_ne_true (fun q _ _ => ?_) fun q hq => ?_⟩
  · exact (Spares.refl.munmap _).munmap _
  · exact not_entered (fun q hne hl => hne (h.counts.alone (h.counts.lock p hlocking) hl)) hproc nofun hq

end

end Imx6Bsp.Sdma
