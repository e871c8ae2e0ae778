import Imx6Bsp.Flash.Erase

/-!
# 消去の中断の正しさ

`suspended` をその装置が立てたときにだけ使う実行では、中断が成功した装置は読め、同期が成功した装置の消去は終わっている。
-/

namespace Imx6Bsp.Flash

open Imx6Bsp.Lib

/-! ## チップ -/

/-- 中断に入った回数と再開した回数の差は、中断していることを表す。 -/
def Chip.Counted (c : Chip) : Prop := c.suspends = c.resumes + if c.mode = .suspended then 1 else 0

/-- `c` のチップが、命令を受けずに `d` になりうる。 -/
structure Chip.Later (c d : Chip) : Prop where
  counted : c.Counted → d.Counted
  ready : ∀ data, c.mode = .ready data → d.mode = .ready data
  suspended : c.mode = .suspended → d.mode = .suspended
  failed : c.mode = .failed → d.mode = .failed
  erasing : ∀ b, d.mode = .erasing b → c.mode = .erasing b

theorem Chip.Later.refl (c : Chip) : c.Later c := ⟨id, fun _ => id, id, id, fun _ => id⟩

theorem Chip.Later.trans {c d e : Chip} (h₁ : c.Later d) (h₂ : d.Later e) : c.Later e :=
  ⟨fun h => h₂.counted (h₁.counted h), fun data h => h₂.ready data (h₁.ready data h), fun h => h₂.suspended (h₁.suspended h),
    fun h => h₂.failed (h₁.failed h), fun b h => h₁.erasing b (h₂.erasing b h)⟩

theorem Chip.later_read (noise : Lane) (c : Chip) : c.Later (c.read noise).2 := by
  have hmode : (c.read noise).2.mode = c.mode ∧ (c.Counted → (c.read noise).2.Counted) := by
    simp only [Chip.read]
    split <;> exact ⟨rfl, id⟩
  obtain ⟨hm, hc⟩ := hmode
  exact ⟨hc, fun _ => hm.trans, hm.trans, hm.trans, fun _ => hm.symm.trans⟩

theorem Chip.later_progress (p : Progress) (c : Chip) : c.Later (c.progress p) := by
  obtain ⟨mode, dq6, dq2, n, m⟩ := c
  cases mode with
  | ready data => exact .refl _
  | suspended => exact .refl _
  | failed => exact .refl _
  | erasing b =>
      cases p with
      | stay => exact .refl _
      | finish => exact ⟨id, nofun, nofun, nofun, nofun⟩
      | fail => exact ⟨id, nofun, nofun, nofun, nofun⟩
      | halt =>
          cases b with
          | false => exact .refl _
          | true =>
              refine ⟨fun h => ?_, nofun, nofun, nofun, nofun⟩
              have h : n = m + 0 := h
              simp [Chip.progress, Chip.Counted, h]

theorem Chip.Later.readable {c d : Chip} (h : c.Later d) (hr : c.Readable) : d.Readable := by
  rcases hr with hr | ⟨data, hr⟩
  · exact .inl (h.suspended hr)
  · exact .inr ⟨data, h.ready data hr⟩

/-- 続けて二度読む。 -/
def Chip.twice (n₀ n₁ : Lane) (p : Progress) (c : Chip) : Lane × Lane × Chip :=
  let r := c.read n₀
  let q := (r.2.progress p).read n₁
  (r.1, q.1, q.2)

section

variable {n₀ n₁ : Lane} {p : Progress} {c : Chip}

/-- `DQ6` が反転しなければ、消去中でも失敗でもない。 -/
theorem Chip.twice_readable (h : (c.twice n₀ n₁ p).1.dq6 = (c.twice n₀ n₁ p).2.1.dq6) : (c.twice n₀ n₁ p).2.2.Readable := by
  obtain ⟨mode, dq6, dq2, n, m⟩ := c
  cases mode with
  | ready data => exact .inr ⟨data, rfl⟩
  | suspended => exact .inl rfl
  | failed => simp [Chip.twice, Chip.read, Chip.progress] at h
  | erasing b => cases b <;> cases p <;> simp [Chip.twice, Chip.read, Chip.progress, Chip.Readable] at h ⊢

/-- `DQ6` も `DQ2` も反転しなければ消去は終わっている。 -/
theorem Chip.twice_ready (h₆ : (c.twice n₀ n₁ p).1.dq6 = (c.twice n₀ n₁ p).2.1.dq6)
    (h₂ : (c.twice n₀ n₁ p).1.dq2 = (c.twice n₀ n₁ p).2.1.dq2) (hp : c.mode ≠ .erasing true) :
    ∃ data, (c.twice n₀ n₁ p).2.2.mode = .ready data := by
  obtain ⟨mode, dq6, dq2, n, m⟩ := c
  cases mode with
  | ready data => exact ⟨data, rfl⟩
  | suspended => simp [Chip.twice, Chip.read, Chip.progress] at h₂
  | failed => simp [Chip.twice, Chip.read, Chip.progress] at h₆
  | erasing b =>
      cases b with
      | true => exact absurd rfl hp
      | false => cases p <;> simp [Chip.twice, Chip.read, Chip.progress] at h₆ ⊢

/-- `DQ5` が立って `DQ6` が反転すれば失敗している。 -/
theorem Chip.twice_failed (h₅ : (c.twice n₀ n₁ p).1.dq5 = true) (h₆ : (c.twice n₀ n₁ p).1.dq6 ≠ (c.twice n₀ n₁ p).2.1.dq6) :
    (c.twice n₀ n₁ p).2.2.mode = .failed := by
  obtain ⟨mode, dq6, dq2, n, m⟩ := c
  cases mode with
  | ready data => exact absurd rfl h₆
  | suspended => simp [Chip.twice, Chip.read] at h₅
  | failed => rfl
  | erasing b => simp [Chip.twice, Chip.read] at h₅

end

/-! ## 装置の組 -/

/-- どのチップも、命令を受けずに変わりうる。 -/
structure Arrays.Later (f g : Arrays) : Prop where
  suspended : g.suspended = f.suspended
  owner : g.owner = f.owner
  width : ∀ i, (g.bank i).width = (f.bank i).width
  chip : ∀ i j, ((f.bank i).chip j).Later ((g.bank i).chip j)

theorem Arrays.Later.trans {f g h : Arrays} (h₁ : f.Later g) (h₂ : g.Later h) : f.Later h :=
  ⟨h₂.suspended.trans h₁.suspended, h₂.owner.trans h₁.owner, fun i => (h₂.width i).trans (h₁.width i),
    fun i j => (h₁.chip i j).trans (h₂.chip i j)⟩

theorem Arrays.later_progress (t : Tick) (f : Arrays) : f.Later (f.progress t) :=
  ⟨rfl, rfl, fun _ => rfl, fun _ _ => Chip.later_progress _ _⟩

@[simp] theorem Arrays.each_width (i : Nat) (g : Nat → Chip → Chip) (f : Arrays) (k : Nat) :
    ((f.each i g).bank k).width = (f.bank k).width := by
  by_cases hk : k = i
  · subst hk; simp [Arrays.each]
  · simp [Arrays.each, hk]

theorem Arrays.each_self (i : Nat) (g : Nat → Chip → Chip) (f : Arrays) (j : Nat) :
    ((f.each i g).bank i).chip j = g j ((f.bank i).chip j) := by
  simp [Arrays.each]

theorem Arrays.each_of_ne {i k : Nat} (h : k ≠ i) (g : Nat → Chip → Chip) (f : Arrays) : (f.each i g).bank k = f.bank k := by
  simp [Arrays.each, h]

theorem Arrays.later_readmem (i : Nat) (t : Tick) (f : Arrays) : f.Later (f.readmem i t).2 := by
  refine (Arrays.later_progress t f).trans ⟨rfl, rfl, fun k => ?_, fun k j => ?_⟩
  · rw [Arrays.readmem, Arrays.each_width]
  by_cases hk : k = i
  · subst hk
    rw [Arrays.readmem, Arrays.each_self]
    exact Chip.later_read _ _
  · rw [Arrays.readmem, Arrays.each_of_ne hk]
    exact .refl _

/-- 続けて二度の読み出しを、チップごとに見る。 -/
theorem Arrays.readmem_twice (i : Nat) (t₀ t₁ : Tick) (f : Arrays) (j : Nat) :
    ((f.readmem i t₀).1 j, ((f.readmem i t₀).2.readmem i t₁).1 j, (((f.readmem i t₀).2.readmem i t₁).2.bank i).chip j) =
      (((f.bank i).chip j).progress (t₀.progress i j)).twice (t₀.noise j) (t₁.noise j) (t₁.progress i j) := by
  simp [Arrays.readmem, Arrays.each, Arrays.progress, Chip.twice]

/-! ## 不変条件 -/

/-- 中断を待つチップのある装置には、失敗したチップがある。 -/
def Arrays.Excused (f : Arrays) (i : Nat) : Prop :=
  (∃ j < (f.bank i).width, ((f.bank i).chip j).mode = .erasing true) → ∃ j < (f.bank i).width, ((f.bank i).chip j).mode = .failed

structure Arrays.Inv (f : Arrays) : Prop where
  counted : ∀ i j, ((f.bank i).chip j).Counted
  excused : ∀ i, f.Excused i
  held : f.suspended = true → ∀ i, f.owner = some i → f.Chips i Chip.Readable

theorem Arrays.Later.excused {f g : Arrays} {i : Nat} (h : f.Later g) (he : f.Excused i) : g.Excused i := by
  rintro ⟨j, hj, hm⟩
  rw [h.width] at hj
  obtain ⟨k, hk, hf⟩ := he ⟨j, hj, (h.chip i j).erasing true hm⟩
  exact ⟨k, by rw [h.width]; exact hk, (h.chip i k).failed hf⟩

theorem Arrays.Later.readable {f g : Arrays} {i : Nat} (h : f.Later g) (hr : f.Chips i Chip.Readable) : g.Chips i Chip.Readable := by
  intro j hj
  rw [h.width] at hj
  exact (h.chip i j).readable (hr j hj)

theorem Arrays.Later.inv {f g : Arrays} (h : f.Later g) (hi : f.Inv) : g.Inv where
  counted i j := (h.chip i j).counted (hi.counted i j)
  excused i := h.excused (hi.excused i)
  held hs i ho := h.readable (hi.held (h.suspended ▸ hs) i (h.owner ▸ ho))

theorem Chip.resume_counted {c : Chip} (h : c.Counted) : c.resume.Counted := by
  obtain ⟨mode, dq6, dq2, n, m⟩ := c
  cases mode with
  | suspended =>
      have h : n = m + 1 := h
      simp [Chip.resume, Chip.Counted, h]
  | ready data => exact h
  | erasing b => exact h
  | failed => exact h

theorem Chip.resume_mode (c : Chip) : c.resume.mode = if c.mode = .suspended then .erasing false else c.mode := by
  obtain ⟨mode, dq6, dq2, n, m⟩ := c
  cases mode <;> rfl

theorem Chip.erase_mode (c : Chip) : c.erase.mode = c.mode ∨ c.erase.mode = .erasing false := by
  obtain ⟨mode, dq6, dq2, n, m⟩ := c
  cases mode with
  | ready data => exact .inr rfl
  | erasing b => exact .inl rfl
  | suspended => exact .inl rfl
  | failed => exact .inl rfl

theorem Chip.erase_counted {c : Chip} (h : c.Counted) : c.erase.Counted := by
  obtain ⟨mode, dq6, dq2, n, m⟩ := c
  cases mode <;> exact h

theorem Chip.suspend_counted {c : Chip} (h : c.Counted) : c.suspend.Counted := by
  obtain ⟨mode, dq6, dq2, n, m⟩ := c
  cases mode <;> exact h

/-- 命令は、ほかの装置のチップを変えない。 -/
theorem Arrays.sendCommand_counted {f : Arrays} {i : Nat} {g : Chip → Chip} (hg : ∀ c : Chip, c.Counted → (g c).Counted)
    (h : ∀ i j, ((f.bank i).chip j).Counted) (k j : Nat) : (((f.sendCommand i g).bank k).chip j).Counted := by
  by_cases hk : k = i
  · subst hk
    rw [Arrays.sendCommand, Arrays.each_self]
    exact hg _ (h k j)
  · rw [Arrays.sendCommand, Arrays.each_of_ne hk]
    exact h k j

/-- 中断を待つチップを作らず、失敗したチップを変えない命令は、装置の条件を保つ。 -/
theorem Arrays.sendCommand_excused {f : Arrays} {i : Nat} {g : Chip → Chip}
    (hg : ∀ c : Chip, (g c).mode = .erasing true → c.mode = .erasing true) (hf : ∀ c : Chip, c.mode = .failed → (g c).mode = .failed)
    {k : Nat} (h : f.Excused k) : (f.sendCommand i g).Excused k := by
  by_cases hk : k = i
  · subst hk
    simp only [Arrays.Excused, Arrays.sendCommand, Arrays.each_self, Arrays.each_width]
    rintro ⟨j, hj, hm⟩
    obtain ⟨l, hl, hm'⟩ := h ⟨j, hj, hg _ hm⟩
    exact ⟨l, hl, hf _ hm'⟩
  · simpa only [Arrays.Excused, Arrays.sendCommand, Arrays.each_of_ne hk] using h

theorem Arrays.Inv.resume {f : Arrays} (i : Nat) (h : f.Inv) (hs : f.suspended = false) : (f.sendCommand i Chip.resume).Inv where
  counted := Arrays.sendCommand_counted (fun _ => Chip.resume_counted) h.counted
  excused k := by
    refine Arrays.sendCommand_excused (fun c hc => ?_) (fun c hc => ?_) (h.excused k)
    · rw [Chip.resume_mode] at hc
      split at hc
      · cases hc
      · exact hc
    · rw [Chip.resume_mode, hc]
      rfl
  held hs' := by
    have : f.suspended = true := hs'
    rw [hs] at this
    cases this

theorem Arrays.Inv.erase {f : Arrays} (i : Nat) (h : f.Inv) :
    ({ f.sendCommand i Chip.erase with owner := if f.owner = some i then none else f.owner } : Arrays).Inv where
  counted := Arrays.sendCommand_counted (fun _ => Chip.erase_counted) h.counted
  excused k := by
    refine Arrays.sendCommand_excused (f := f) (fun c hc => ?_) (fun c hc => ?_) (h.excused k)
    · rcases Chip.erase_mode c with he | he
      · rwa [he] at hc
      · rw [he] at hc; cases hc
    · simp only [Chip.erase, hc]
  held hs k ho := by
    simp only at ho
    split at ho
    · cases ho
    · rename_i hne
      have hk : k ≠ i := fun hk => hne (hk ▸ ho)
      have := h.held hs k ho
      simpa only [Arrays.Chips, Arrays.All, Arrays.sendCommand, Arrays.each_of_ne hk] using this

/-! ## 中断 -/

/-- 装置 `i` の中断を待つ間の条件。 -/
structure Arrays.Suspending (f : Arrays) (i : Nat) : Prop where
  flag : f.suspended = false
  counted : ∀ i j, ((f.bank i).chip j).Counted
  excused : ∀ k, k ≠ i → f.Excused k

theorem Arrays.Later.suspending {f g : Arrays} {i : Nat} (h : f.Later g) (hi : f.Suspending i) : g.Suspending i :=
  ⟨h.suspended.trans hi.flag, fun i j => (h.chip i j).counted (hi.counted i j), fun k hk => h.excused (hi.excused k hk)⟩

theorem suspendLoop_inv {i : Nat} {ts : List (Tick × Tick)} {f g : Arrays} {e : Errno} (h : f.Suspending i)
    (hl : suspendLoop i ts f = some (e, g)) : g.Inv ∧ (e = .eok → g.Chips i Chip.Readable) := by
  induction ts generalizing f with
  | nil => cases hl
  | cons t ts ih =>
      obtain ⟨t₀, t₁⟩ := t
      simp only [suspendLoop] at hl
      have htwice := Arrays.readmem_twice i t₀ t₁ f
      have hlater := (Arrays.later_readmem i t₀ f).trans (Arrays.later_readmem i t₁ (f.readmem i t₀).2)
      generalize (f.readmem i t₀).1 = s₀ at hl htwice
      generalize ((f.readmem i t₀).2.readmem i t₁).1 = s₁ at hl htwice
      generalize ((f.readmem i t₀).2.readmem i t₁).2 = f' at hl htwice hlater
      have hs := hlater.suspending h
      simp only [Prod.ext_iff] at htwice
      split at hl
      · rename_i hq
        cases hl
        have hread : f'.Chips i Chip.Readable := by
          intro j hj
          obtain ⟨e₀, e₁, e₂⟩ := htwice j
          have hj : (s₀ j).dq6 = (s₁ j).dq6 := hq j hj
          rw [e₀, e₁] at hj
          rw [e₂]
          exact Chip.twice_readable hj
        refine ⟨⟨hs.counted, fun k => ?_, fun _ k hk => ?_⟩, fun _ => hread⟩
        · by_cases hk : k = i
          · subst hk
            rintro ⟨j, hj, hm⟩
            rcases hread j hj with hr | ⟨data, hr⟩ <;> rw [hr] at hm <;> cases hm
          · exact hs.excused k hk
        · cases hk
          exact hread
      · split at hl
        · rename_i hq
          cases hl
          have hfail : ∃ j < (g.bank i).width, ((g.bank i).chip j).mode = .failed := by
            simp only [Arrays.All, not_forall, not_not] at hq
            obtain ⟨j, hj, h₆, h₅⟩ := hq
            obtain ⟨e₀, e₁, e₂⟩ := htwice j
            rw [e₀, e₁] at h₆
            rw [e₀] at h₅
            exact ⟨j, hj, by rw [e₂]; exact Chip.twice_failed h₅ h₆⟩
          refine ⟨⟨hs.counted, fun k => ?_, fun hf => ?_⟩, nofun⟩
          · by_cases hk : k = i
            · subst hk
              exact fun _ => hfail
            · exact hs.excused k hk
          · rw [hs.flag] at hf; cases hf
        · exact ih hs hl

theorem Arrays.Inv.suspending {f : Arrays} (i : Nat) (h : f.Inv) (hs : f.suspended = false) : (f.sendCommand i Chip.suspend).Suspending i where
  flag := hs
  counted := Arrays.sendCommand_counted (fun _ => Chip.suspend_counted) h.counted
  excused k hk := by
    have := h.excused k
    simpa only [Arrays.Excused, Arrays.sendCommand, Arrays.each_of_ne hk] using this

theorem Arrays.Inv.suspend {f g : Arrays} {i : Nat} {page : Bool} {ts : List (Tick × Tick)} {e : Errno} (h : f.Inv)
    (hok : f.suspended = true → f.owner = some i) (hc : f.f3sACFIV2suspend i page ts = some (e, g)) :
    g.Inv ∧ (e = .eok → g.Chips i Chip.Readable) := by
  simp only [Arrays.f3sACFIV2suspend] at hc
  split at hc
  · rename_i hs
    cases hc
    exact ⟨h, fun _ => h.held hs i (hok hs)⟩
  · rename_i hs
    rw [Bool.not_eq_true] at hs
    split at hc
    · cases hc
      exact ⟨h, nofun⟩
    · exact suspendLoop_inv (h.suspending i hs) hc

/-! ## 同期 -/

theorem Chip.later_twice (n₀ n₁ : Lane) (p : Progress) (c : Chip) : c.Later (c.twice n₀ n₁ p).2.2 :=
  (Chip.later_read n₀ c).trans ((Chip.later_progress p _).trans (Chip.later_read n₁ _))

/-- 続けて二度読んで、どのチップの `DQ6` も `DQ2` も反転しなければ、どのチップも消去を終えている。 -/
theorem Arrays.Inv.twice_ready {f : Arrays} (i : Nat) (t₀ t₁ : Tick) (h : f.Inv)
    (h₆ : ∀ j < (f.bank i).width, ((f.readmem i t₀).1 j).dq6 = (((f.readmem i t₀).2.readmem i t₁).1 j).dq6)
    (h₂ : ∀ j < (f.bank i).width, ((f.readmem i t₀).1 j).dq2 = (((f.readmem i t₀).2.readmem i t₁).1 j).dq2) :
    ∀ j < (f.bank i).width, ∃ data, ((((f.readmem i t₀).2.readmem i t₁).2.bank i).chip j).mode = .ready data := by
  have htwice := Arrays.readmem_twice i t₀ t₁ f
  simp only [Prod.ext_iff] at htwice
  have h₆' : ∀ j < (f.bank i).width, _ := fun j hj => (htwice j).1 ▸ (htwice j).2.1 ▸ h₆ j hj
  have h₂' : ∀ j < (f.bank i).width, _ := fun j hj => (htwice j).1 ▸ (htwice j).2.1 ▸ h₂ j hj
  intro j hj
  rw [(htwice j).2.2]
  refine Chip.twice_ready (h₆' j hj) (h₂' j hj) fun hp => ?_
  -- 中断を待つチップがあれば、失敗したチップの `DQ6` が反転する。
  obtain ⟨k, hk, hf⟩ := (Arrays.later_progress t₀ f).excused (h.excused i) ⟨j, hj, hp⟩
  have hread := Chip.twice_readable (h₆' k hk)
  have hfail := (Chip.later_twice (t₀.noise k) (t₁.noise k) (t₁.progress i k)
    (((f.bank i).chip k).progress (t₀.progress i k))).failed hf
  rcases hread with hr | ⟨data, hr⟩ <;> rw [hfail] at hr <;> cases hr

theorem Arrays.Inv.complete {f : Arrays} {i : Nat} (h : f.Inv) (hr : ∀ j < (f.bank i).width, ∃ data, ((f.bank i).chip j).mode = .ready data) :
    f.Chips i Chip.Complete := by
  intro j hj
  obtain ⟨data, hm⟩ := hr j hj
  refine ⟨⟨data, hm⟩, ?_⟩
  have := h.counted i j
  rwa [Chip.Counted, hm] at this

/-- 二度の読み出しの後の確かめ。 -/
theorem Arrays.Inv.syncTail {f : Arrays} (i : Nat) (t₀ t₁ t : Tick) (h : f.Inv) (hs : f.suspended = false)
    (h₆ : ((f.readmem i t₀).2.readmem i t₁).2.All i fun j => ((f.readmem i t₀).1 j).dq6 = (((f.readmem i t₀).2.readmem i t₁).1 j).dq6)
    {e : Errno} {g : Arrays}
    (hc : ((f.readmem i t₀).2.readmem i t₁).2.syncTail i (f.readmem i t₀).1 ((f.readmem i t₀).2.readmem i t₁).1 t = (e, g)) :
    g.Inv ∧ (e = .eok → g.Chips i Chip.Complete) := by
  have hlater := (Arrays.later_readmem i t₀ f).trans (Arrays.later_readmem i t₁ (f.readmem i t₀).2)
  have hready := h.twice_ready i t₀ t₁
  rw [Arrays.All, hlater.width] at h₆
  have hready := hready h₆
  generalize (f.readmem i t₀).1 = s₀ at hc hready
  generalize ((f.readmem i t₀).2.readmem i t₁).1 = s₁ at hc hready
  generalize ((f.readmem i t₀).2.readmem i t₁).2 = f₂ at hc hready hlater
  have hlater₃ := Arrays.later_readmem i t f₂
  have hinv := (hlater.trans hlater₃).inv h
  simp only [Arrays.syncTail] at hc
  generalize (f₂.readmem i t).1 = s₃ at hc
  generalize (f₂.readmem i t).2 = f₃ at hc hlater₃ hinv
  have hflag : f₃.suspended = false := (hlater.trans hlater₃).suspended.trans hs
  split_ifs at hc with h₇ h₂
  · cases hc
    exact ⟨hinv, nofun⟩
  · cases hc
    refine ⟨hinv, fun _ => hinv.complete fun j hj => ?_⟩
    have hw : (g.bank i).width = (f.bank i).width := (hlater.trans hlater₃).width i
    obtain ⟨data, hd⟩ := hready (fun k hk => h₂ k (hw ▸ hk)) j (hw ▸ hj)
    exact ⟨data, (hlater₃.chip i j).ready data hd⟩
  · cases hc
    exact ⟨hinv.resume i hflag, nofun⟩

theorem Arrays.Inv.sync {f : Arrays} {i : Nat} {page : Bool} {t₀ t₁ t₂ t₃ : Tick} (h : f.Inv) {e : Errno} {g : Arrays}
    (hc : f.f3sA29f040V2sync i page t₀ t₁ t₂ t₃ = (e, g)) : g.Inv ∧ (e = .eok → g.Chips i Chip.Complete) := by
  simp only [Arrays.f3sA29f040V2sync] at hc
  split at hc
  · cases hc
    exact ⟨h, nofun⟩
  have hstart : (if f.suspended then { f.sendCommand i Chip.resume with suspended := false, owner := none } else f).Inv ∧
      (if f.suspended then { f.sendCommand i Chip.resume with suspended := false, owner := none } else f).suspended = false := by
    split
    · have hf : ({ f with suspended := false, owner := none } : Arrays).Inv := ⟨h.counted, h.excused, nofun⟩
      exact ⟨hf.resume i rfl, rfl⟩
    · rename_i hs
      exact ⟨h, Bool.not_eq_true _ ▸ hs⟩
  generalize (if f.suspended then { f.sendCommand i Chip.resume with suspended := false, owner := none } else f) = f₀ at hc hstart
  obtain ⟨hi, hs⟩ := hstart
  have hlater₁ := Arrays.later_readmem i t₀ f₀
  split at hc
  · rename_i h₆
    exact hi.syncTail i t₀ t₁ t₃ hs h₆ hc
  · split at hc
    · split at hc
      · cases hc
        exact ⟨((hlater₁.trans (Arrays.later_readmem i t₁ _)).trans (Arrays.later_readmem i t₂ _)).inv hi, nofun⟩
      · split at hc
        · cases hc
          exact ⟨((hlater₁.trans (Arrays.later_readmem i t₁ _)).trans (Arrays.later_readmem i t₂ _)).inv hi, nofun⟩
        · rename_i h₆
          exact (hlater₁.inv hi).syncTail i t₁ t₂ t₃ (hlater₁.suspended.trans hs) (not_not.mp h₆) hc
    · cases hc
      exact ⟨(hlater₁.trans (Arrays.later_readmem i t₁ _)).inv hi, nofun⟩

/-! ## 実行 -/

theorem acceptLoop_later {i : Nat} {ts : List (Tick × Tick)} {f g : Arrays} (h : acceptLoop i ts f = some g) : f.Later g := by
  induction ts generalizing f with
  | nil => cases h
  | cons t ts ih =>
      have hlater := (Arrays.later_readmem i t.1 f).trans (Arrays.later_readmem i t.2 _)
      simp only [acceptLoop] at h
      split at h
      · cases h
        exact hlater
      · exact hlater.trans (ih h)

theorem startLoop_later {i : Nat} {ts : List Tick} {f g : Arrays} (h : startLoop i ts f = some g) : f.Later g := by
  induction ts generalizing f with
  | nil => cases h
  | cons t ts ih =>
      simp only [startLoop] at h
      split at h
      · cases h
        exact Arrays.later_readmem i t f
      · exact (Arrays.later_readmem i t f).trans (ih h)

theorem Arrays.Inv.step {f g : Arrays} {c : Callout} (h : f.Inv) (hok : f.Owned c) (hs : f.step c = .ok g) : g.Inv := by
  cases c with
  | progress t =>
      cases hs
      exact (Arrays.later_progress t f).inv h
  | erase i page ts us =>
      simp only [Arrays.step] at hs
      cases hc : f.f3sA29f040V2erase i page ts us with
      | none => rw [hc] at hs; cases hs
      | some r =>
          rw [hc] at hs
          cases hs
          simp only [Arrays.f3sA29f040V2erase] at hc
          split at hc
          · cases hc
            exact h
          · obtain ⟨f', hf', rfl⟩ := Option.map_eq_some_iff.mp hc
            obtain ⟨f₁, h₁, h₂⟩ := Option.bind_eq_some_iff.mp hf'
            exact ((acceptLoop_later h₁).trans (startLoop_later h₂)).inv (h.erase i)
  | suspend i page ts =>
      simp only [Arrays.step] at hs
      cases hc : f.f3sACFIV2suspend i page ts with
      | none => rw [hc] at hs; cases hs
      | some r =>
          rw [hc] at hs
          cases hs
          exact (h.suspend hok hc).1
  | resume i =>
      cases hs
      exact h
  | sync i page t₀ t₁ t₂ t₃ =>
      cases hs
      exact (h.sync rfl).1

theorem Arrays.Start.inv {f : Arrays} (h : f.Start) : f.Inv where
  counted i j := by
    obtain ⟨⟨data, hd⟩, hc⟩ := h.2 i j
    rw [Chip.Counted, hd]
    exact hc
  excused i := by
    rintro ⟨j, -, hm⟩
    obtain ⟨⟨data, hd⟩, -⟩ := h.2 i j
    rw [hd] at hm
    cases hm
  held hs := by
    rw [h.1] at hs
    cases hs

/-- `suspended` をその装置が立てたときにだけ使う実行では、中断が `EOK` を返した装置はどのチップも読め、同期が `EOK` を返した装置はどの
チップも消去を終え、中断のたびに再開している。 -/
theorem erase_suspend_protocol (f₀ f : Arrays) (h₀ : f₀.Start) (h : Reaches Arrays.step Arrays.Owned f₀ f) :
    (∀ i page ts g, f.Owned (.suspend i page ts) → f.f3sACFIV2suspend i page ts = some (.eok, g) → g.Chips i Chip.Readable) ∧
      ∀ i page t₀ t₁ t₂ t₃ g, f.f3sA29f040V2sync i page t₀ t₁ t₂ t₃ = (.eok, g) → g.Chips i Chip.Complete := by
  have hinv : f.Inv := h.invariant h₀.inv fun _ _ _ hu hok hs => hu.step hok hs
  exact ⟨fun i page ts g hok hc => (hinv.suspend hok hc).2 rfl, fun i page t₀ t₁ t₂ t₃ g hc => (hinv.sync hc).2 rfl⟩

/-- チップ一つの装置が並んだ組。 -/
def sampleArrays : Arrays := { bank := fun _ => { width := 1, chip := fun _ => { mode := .ready {} } } }

/-- 装置 0 のチップだけに起こること。 -/
def sampleTick (p : Progress) : Tick := { progress := fun i _ => if i = 0 then p else .stay }

/-- 消去を中断し、同期で再開し、終わらせる。 -/
theorem erase_suspend_protocol_sample :
    ∃ f g g', Reaches Arrays.step Arrays.Owned sampleArrays f ∧ f.f3sACFIV2suspend 0 true [] = some (.eok, g) ∧ g.Chips 0 Chip.Readable ∧
      f.f3sA29f040V2sync 0 true {} (sampleTick .finish) {} {} = (.eagain, g') ∧
      (g'.f3sA29f040V2sync 0 true {} {} {} {}).1 = .eok ∧ (g'.f3sA29f040V2sync 0 true {} {} {} {}).2.Chips 0 Chip.Complete := by
  have hstart : sampleArrays.Start := ⟨rfl, fun _ _ => ⟨⟨{}, rfl⟩, rfl⟩⟩
  obtain ⟨f, hf, hp⟩ := (Option.any_eq_true _ _).mp
    (by decide :
      (runAll Arrays.step Arrays.Owned
        [.erase 0 true [({}, {})] [{}], .suspend 0 true [({}, {}), (sampleTick .halt, {})], .resume 0] sampleArrays).any
        (fun f => f.suspended = true ∧ f.owner = some 0 ∧
          (f.f3sA29f040V2sync 0 true {} (sampleTick .finish) {} {}).1 = .eagain ∧
          ((f.f3sA29f040V2sync 0 true {} (sampleTick .finish) {} {}).2.f3sA29f040V2sync 0 true {} {} {} {}).1 = .eok) = true)
  obtain ⟨h₁, h₂, h₃, h₄⟩ := of_decide_eq_true hp
  have hr := runAll_reaches hf
  have hs : f.f3sACFIV2suspend 0 true [] = some (.eok, f) := by simp only [Arrays.f3sACFIV2suspend, h₁, if_true]
  have hsync : f.Owned (.sync 0 true {} (sampleTick .finish) {} {}) := trivial
  have hr' := hr.tail hsync rfl
  exact ⟨f, f, _, hr, hs, (erase_suspend_protocol sampleArrays f hstart hr).1 0 true [] f (fun _ => h₂) hs, Prod.ext h₃ rfl, h₄,
    (erase_suspend_protocol sampleArrays _ hstart hr').2 0 true {} {} {} {} _ (Prod.ext h₄ rfl)⟩

/-- 装置 0 の中断で立った `suspended` のために、消去中の装置 1 の中断もすぐ `EOK` を返す。 -/
theorem suspend_of_other_array :
    ∃ f₀ f g, f₀.Start ∧ Reaches Arrays.step (fun _ _ => True) f₀ f ∧ f.f3sACFIV2suspend 1 true [] = some (.eok, g) ∧
      ¬g.Chips 1 Chip.Readable := by
  obtain ⟨f, hf, hp⟩ := (Option.any_eq_true _ _).mp
    (by decide :
      (runAll Arrays.step (fun _ _ => True)
        [.erase 0 true [({}, {})] [{}], .erase 1 true [({}, {})] [{}], .suspend 0 true [(sampleTick .halt, {})]] sampleArrays).any
        (fun f => f.suspended = true ∧ (f.bank 1).width = 1 ∧ ((f.bank 1).chip 0).mode = .erasing false) = true)
  obtain ⟨h₁, h₂, h₃⟩ := of_decide_eq_true hp
  refine ⟨sampleArrays, f, f, ⟨rfl, fun _ _ => ⟨⟨{}, rfl⟩, rfl⟩⟩, runAll_reaches hf, ?_, fun hg => ?_⟩
  · simp only [Arrays.f3sACFIV2suspend, h₁, if_true]
  · rcases hg 0 (by rw [h₂]; decide) with hm | ⟨data, hm⟩ <;> rw [h₃] at hm <;> cases hm

end Imx6Bsp.Flash
