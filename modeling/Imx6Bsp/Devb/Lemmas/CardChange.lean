import Imx6Bsp.Devb.Lemmas.Request

/-!
# カードの交換の補題

データ命令の送り先の不変条件を、どの処理も保つことを示す。データ命令を送るのは、CCB を取り出したときのカードが入っている状態からに限る。
-/

namespace Imx6Bsp.Devb

namespace Sim

/-! ## 不変条件 -/

/-- カードの番号と、データ命令の送り先。 -/
structure CardInv (s : Sim) : Prop where
  fresh : ∀ g, s.present = some g → g < s.cards
  home : ∀ g, s.home = some g → g < s.cards
  gone : ∀ g k, s.home = some g → s.gone = some k → g < k
  posted : ∀ n ∈ s.posted, n.OneCard
  cmds : ∀ n, s.nexus = some n → ∀ c ∈ n.all, (c.card = none ∨ c.card = s.home) ∧ c.Timely
  near : ∀ n, s.nexus = some n → (∀ c ∈ n.all, c.card = s.home) ∨ s.present ≠ s.home
  done : ∀ n, s.nexus = some n → n.req.isRw → n.status = .cmp → ∀ c ∈ n.all, c.card = s.home ∧ s.home.isSome

/-- データ命令を送ってよい状態。 -/
structure Live (s : Sim) : Prop extends CardInv s where
  slot : s.present = none ∨ s.present = s.home
  inprog : ∀ n, s.nexus = some n → n.status = .inprog
  whole : ∀ n, s.nexus = some n → ∀ c ∈ n.all, c.card = s.home ∧ s.home.isSome

section

variable {h : Host} {s t : Sim} {o : Hw} {q : Request}

theorem CardInv.congr (hc : CardInv s) (h₁ : t.present = s.present) (h₂ : t.cards = s.cards) (h₃ : t.home = s.home) (h₄ : t.gone = s.gone)
    (h₅ : t.posted = s.posted) (h₆ : t.nexus = s.nexus) : CardInv t := by
  obtain ⟨hf, hh, hg, hp, hm, hn, hd⟩ := hc
  constructor <;> simp only [h₁, h₂, h₃, h₄, h₅, h₆] <;> assumption

theorem Live.congr (hl : Live s) (h₁ : t.present = s.present) (h₂ : t.cards = s.cards) (h₃ : t.home = s.home) (h₄ : t.gone = s.gone)
    (h₅ : t.posted = s.posted) (h₆ : t.nexus = s.nexus) : Live t := by
  refine ⟨hl.toCardInv.congr h₁ h₂ h₃ h₄ h₅ h₆, ?_, ?_, ?_⟩
  · rw [h₁, h₃]
    exact hl.slot
  · rw [h₆]
    exact hl.inprog
  · rw [h₃, h₆]
    exact hl.whole

/-! ## 外で起きること -/

theorem CardInv.ambient (hc : CardInv s) (a : Ambient) : CardInv (s.ambient h a) := by
  cases a with
  | remove =>
      refine { hc with fresh := nofun, near := fun n hn => ?_ }
      show (∀ c ∈ n.all, c.card = s.home) ∨ none ≠ s.home
      cases hh : s.home with
      | none =>
          refine .inl fun c hm => ?_
          rcases (hc.cmds n hn c hm).1 with h0 | h0
          · exact h0
          · exact h0.trans hh
      | some g => exact .inr nofun
  | insert =>
      unfold Sim.ambient
      dsimp only
      split
      · refine { hc with fresh := ?_, home := ?_, near := fun n hn => .inr ?_ }
        · intro g hg
          cases hg
          exact Nat.lt_succ_self _
        · exact fun g hg => Nat.lt_succ_of_lt (hc.home g hg)
        · intro heq
          exact absurd (hc.home _ heq.symm) (Nat.lt_irrefl _)
      · exact hc
  | enqueue r =>
      unfold Sim.ambient mmcSimAction
      dsimp only
      split
      · exact hc.congr rfl rfl rfl rfl rfl rfl
      · exact hc
  | control e =>
      unfold Sim.ambient mmcControl
      dsimp only
      split
      · exact hc
      · exact hc.congr rfl rfl rfl rfl rfl rfl
      · exact hc.congr rfl rfl rfl rfl rfl rfl

theorem CardInv.mediaCheck (hc : CardInv s) : CardInv (s.mmcMediaCheck h) := by
  unfold mmcMediaCheck
  split
  · split
    · exact hc
    · exact hc.congr rfl rfl rfl rfl rfl rfl
  · split
    · refine { hc with gone := fun g k hg hk => ?_ }
      cases hgone : s.gone with
      | none =>
          simp only [hgone, Option.getD_none, Option.some.injEq] at hk
          exact hk ▸ hc.home g hg
      | some m =>
          simp only [hgone, Option.getD_some, Option.some.injEq] at hk
          exact hk ▸ hc.gone g m hg hgone
    · exact hc

theorem CardInv.chipset (hc : CardInv s) (i : Intr) : CardInv (s.chipset i) := by
  unfold Sim.chipset
  split
  · exact hc.congr rfl rfl rfl rfl rfl rfl
  · split
    · exact hc.congr rfl rfl rfl rfl rfl rfl
    · exact hc

theorem cardInv_stable : Stable h (fun _ => True) CardInv where
  ambient _ a _ hc := hc.ambient a
  check _ hc := hc.mediaCheck
  chipset _ i hc := hc.chipset i

/-- 不変条件が保たれ、CCB と取り出したときのカードが変わらず、カードが増えなければ、データ命令を送ってよいままである。 -/
theorem Live.drift (hl : Live s) (hd : Drift s t) (hc : CardInv t) (hp : t.present = none ∨ t.present = s.present) : Live t := by
  refine ⟨hc, ?_, ?_, ?_⟩
  · rw [hd.home]
    rcases hp with hp | hp
    · exact .inl hp
    · rw [hp]
      exact hl.slot
  · rw [hd.nexus]
    exact hl.inprog
  · rw [hd.nexus, hd.home]
    exact hl.whole

theorem live_stable : Stable h (·.isInsert = false) Live where
  ambient s a ha hl := by
    refine hl.drift (drift_ambient (.refl s) a) (hl.ambient a) ?_
    cases a with
    | remove => exact .inl rfl
    | insert => cases ha
    | enqueue r =>
        unfold Sim.ambient mmcSimAction
        dsimp only
        split <;> exact .inr rfl
    | control e =>
        unfold Sim.ambient mmcControl
        dsimp only
        split <;> exact .inr rfl
  check s hl := by
    refine hl.drift (drift_mediaCheck (.refl s)) hl.mediaCheck ?_
    unfold mmcMediaCheck
    split
    · split <;> exact .inr rfl
    · split <;> exact .inr rfl
  chipset s i hl := by
    refine hl.drift (drift_chipset (.refl s) i) (hl.chipset i) ?_
    unfold Sim.chipset
    split
    · exact .inr rfl
    · split <;> exact .inr rfl

/-! ## CCB の更新 -/

/-- `f` はデータ命令の送り先を変えない。 -/
def Keeps (f : Nexus → Nexus) : Prop := ∀ n, (f n).req = n.req ∧ ∀ c ∈ (f n).all, ∃ c' ∈ n.all, c.card = c'.card ∧ c.gone = c'.gone

theorem Keeps.status (st : CamStatus) (b : Bool) : Keeps fun n => { n with status := st, check := b } := fun _ => ⟨rfl, fun c hc => ⟨c, hc, rfl, rfl⟩⟩

theorem Keeps.error : Keeps fun n => { n with status := .cmdTimeout } := fun _ => ⟨rfl, fun c hc => ⟨c, hc, rfl, rfl⟩⟩

theorem Keeps.last {g : Cmd → Cmd} (hg : ∀ c, (g c).card = c.card ∧ (g c).gone = c.gone) : Keeps (Nexus.last g) := by
  intro n
  refine ⟨rfl, fun c hc => ?_⟩
  rcases List.mem_append.mp hc with hc | hc
  · cases hcm : n.cmds with
    | nil => simp [Nexus.last, hcm] at hc
    | cons d ds =>
        simp only [Nexus.last, hcm, List.modifyHead_cons, List.mem_cons] at hc
        rcases hc with rfl | hc
        · exact ⟨d, by simp [Nexus.all, hcm], hg d⟩
        · exact ⟨c, by simp [Nexus.all, hcm, hc], rfl, rfl⟩
  · exact ⟨c, List.mem_append_right _ hc, rfl, rfl⟩

theorem CardInv.update {f : Nexus → Nexus} (hc : CardInv s) (hf : Keeps f)
    (hd : ∀ n, s.nexus = some n → n.req.isRw → (f n).status = .cmp → ∀ c ∈ n.all, c.card = s.home ∧ s.home.isSome) :
    CardInv (s.update f) := by
  refine { hc with cmds := ?_, near := ?_, done := ?_ }
  · intro n hn c hm
    obtain ⟨m, hs, rfl⟩ := update_some hn
    obtain ⟨c', hm', hcard, hgone⟩ := (hf m).2 c hm
    obtain ⟨h₁, h₂⟩ := hc.cmds m hs c' hm'
    refine ⟨?_, ?_⟩
    · rw [hcard]
      exact h₁
    · unfold Cmd.Timely
      rw [hcard, hgone]
      exact h₂
  · intro n hn
    obtain ⟨m, hs, rfl⟩ := update_some hn
    refine (hc.near m hs).imp (fun hall c hm => ?_) id
    obtain ⟨c', hm', hcard, -⟩ := (hf m).2 c hm
    rw [hcard]
    exact hall c' hm'
  · intro n hn hrw hst c hm
    obtain ⟨m, hs, rfl⟩ := update_some hn
    obtain ⟨c', hm', hcard, -⟩ := (hf m).2 c hm
    rw [hcard]
    rw [(hf m).1] at hrw
    exact hd m hs hrw hst c' hm'

/-- 成功でない状態を置く。 -/
theorem CardInv.refuse {f : Nexus → Nexus} (hc : CardInv s) (hf : Keeps f) (hst : ∀ n, (f n).status ≠ .cmp) : CardInv (s.update f) :=
  hc.update hf fun n _ _ hcmp => absurd hcmp (hst n)

theorem CardInv.mmcError (hc : CardInv s) : CardInv s.mmcError := hc.refuse .error fun _ h => by cases h

theorem CardInv.mmcSense (hc : CardInv s) : CardInv s.mmcSense := hc.refuse (.status _ _) fun _ h => by cases h

theorem Live.finish (hl : Live s) : CardInv s.finish := hl.toCardInv.update (.status _ _) fun n hn _ _ => hl.whole n hn

/-- データ命令の記録を変える。 -/
theorem Live.last {g : Cmd → Cmd} (hl : Live s) (hg : ∀ c, (g c).card = c.card ∧ (g c).gone = c.gone) : Live (s.update (Nexus.last g)) := by
  refine ⟨hl.toCardInv.update (.last hg) fun n hn _ _ => hl.whole n hn, hl.slot, ?_, ?_⟩
  · intro n hn
    obtain ⟨m, hs, rfl⟩ := update_some hn
    exact hl.inprog m hs
  · intro n hn c hm
    obtain ⟨m, hs, rfl⟩ := update_some hn
    obtain ⟨c', hm', hcard, -⟩ := (Keeps.last hg m).2 c hm
    rw [hcard]
    exact hl.whole m hs c' hm'

/-! ## データ命令 -/

theorem Live.sendRwcmd (hl : Live s) (nbytes : Int) (dma sent : Bool) : CardInv (s.mmcSendRwcmd h nbytes dma sent).2 := by
  unfold mmcSendRwcmd
  dsimp only
  split
  · refine { hl.toCardInv with cmds := ?_, near := ?_, done := ?_ }
    · intro n hn c hm
      obtain ⟨m, hs, rfl⟩ := update_some hn
      rcases List.mem_cons.mp hm with rfl | hm
      · refine ⟨hl.slot, fun g k hg hk => ?_⟩
        rcases hl.slot with h0 | h0
        · rw [h0] at hg
          cases hg
        · exact hl.gone g k (h0 ▸ hg) hk
      · exact hl.cmds m hs c hm
    · intro n hn
      obtain ⟨m, hs, rfl⟩ := update_some hn
      by_cases hp : s.present = s.home
      · refine .inl fun c hm => ?_
        rcases List.mem_cons.mp hm with rfl | hm
        · exact hp
        · exact (hl.whole m hs c hm).1
      · exact .inr hp
    · intro n hn _ hst
      obtain ⟨m, hs, rfl⟩ := update_some hn
      have hst : m.status = .cmp := hst
      rw [hl.inprog m hs] at hst
      cases hst
  · exact hl.toCardInv.congr rfl rfl rfl rfl rfl rfl

theorem Live.dmaXfer (hl : Live s) (hq : o.Quiet) : CardInv (s.mmcDmaXfer h o).2 := by
  have hr := live_stable.cardReady (h := h) hq hl
  unfold mmcDmaXfer
  dsimp only
  split
  · exact hr.toCardInv
  · split
    · exact hr.toCardInv
    · exact hr.sendRwcmd ..

theorem Live.dmaRw (hl : Live s) (hq : o.Quiet) : CardInv (s.mmcDmaRw h o) := by
  unfold mmcDmaRw
  dsimp only
  split
  · exact hl.finish
  · split
    · exact (hl.dmaXfer hq).congr rfl rfl rfl rfl rfl rfl
    · exact (hl.dmaXfer hq).mmcError

theorem Live.pioXfer (hl : Live s) (nbytes : Int) (hq : o.Quiet) : CardInv (s.mmcPioXfer h nbytes o).2 := by
  have hr := live_stable.cardReady (h := h) hq hl
  unfold mmcPioXfer
  dsimp only
  split
  · exact hr.toCardInv
  · split
    · exact hr.toCardInv
    · exact hr.sendRwcmd ..

theorem Live.pioInitiate (hl : Live s) (hq : o.Quiet) : CardInv (s.mmcPioInitiate h q o) := by
  have hl' : Live { s with nbytes := q.buf.total } := hl.congr rfl rfl rfl rfl rfl rfl
  have hr := hl'.pioXfer (h := h) q.buf.total hq
  unfold mmcPioInitiate
  dsimp only
  split
  · exact hl.toCardInv.mmcError
  · split
    · exact hr.congr rfl rfl rfl rfl rfl rfl
    · exact hr.mmcError

theorem Live.dmaInitiate (hl : Live s) (hq : o.Quiet) : CardInv (s.mmcDmaInitiate h q o) := by
  unfold mmcDmaInitiate
  dsimp only
  split
  · split
    · split
      · exact (hl.dmaXfer hq).congr rfl rfl rfl rfl rfl rfl
      · exact (hl.dmaXfer hq).mmcError
    · exact hl.toCardInv.mmcError
  · rename_i len _
    have hl' : Live { s with nbytes := (len : Int) } := hl.congr rfl rfl rfl rfl rfl rfl
    have hr := hl'.dmaRw (h := h) hq
    split
    · exact hr.congr rfl rfl rfl rfl rfl rfl
    · exact hr

theorem Live.rw (hl : Live s) (dirIn : Bool) (hq : o.Quiet) : CardInv (s.mmcRw h q dirIn o) := by
  unfold mmcRw
  dsimp only
  split
  · have hs : Live ({ s with offset := 0, curSg := 0, dirIn, blkno := q.lba }.update fun n => { n with cmds := [], past := n.all }) := by
      have hk : Keeps fun n => { n with cmds := [], past := n.all } := fun _ => ⟨rfl, fun c hc => ⟨c, hc, rfl, rfl⟩⟩
      have hl' : Live { s with offset := 0, curSg := 0, dirIn, blkno := q.lba } := hl.congr rfl rfl rfl rfl rfl rfl
      refine ⟨hl'.toCardInv.update hk fun n hn _ _ => hl.whole n hn, hl.slot, ?_, ?_⟩
      · intro n hn
        obtain ⟨m, hs, rfl⟩ := update_some hn
        exact hl.inprog m hs
      · intro n hn c hm
        obtain ⟨m, hs, rfl⟩ := update_some hn
        exact hl.whole m hs c hm
    have hr := live_stable.setPartition (h := h) (fun _ _ hl => hl.congr rfl rfl rfl rfl rfl rfl) q.lun hq hs
    split
    · exact hr.toCardInv.mmcError
    · split
      · split
        · exact hr.pioInitiate hq
        · exact hr.toCardInv.mmcError
      · split
        · exact hr.dmaInitiate hq
        · exact hr.toCardInv.mmcError
  · exact hl.toCardInv.mmcSense

/-! ## 実行 -/

/-- データを運ばない CCB に状態を置く。 -/
theorem CardInv.settle_other (hc : CardInv s) (hq : ∀ n, s.nexus = some n → n.req = q) (hrw : q.isRw = false) (st : CamStatus) (b : Nexus → Bool) :
    CardInv (s.update fun n => { n with status := st, check := b n }) := by
  refine hc.update (fun _ => ⟨rfl, fun c hc => ⟨c, hc, rfl, rfl⟩⟩) fun n hn hr => ?_
  rw [hq n hn, hrw] at hr
  cases hr

theorem CardInv.ioCmds (hc : CardInv s) (hq : ∀ n, s.nexus = some n → n.req = q) (hl : q.isRw → Live s ∧ o.Quiet) :
    CardInv (s.mmcIoCmds h q o) := by
  unfold mmcIoCmds
  split
  · exact hc
  · split
    · rename_i hf
      obtain ⟨hlive, hquiet⟩ := hl (by simp [Request.isRw, hf])
      exact hlive.rw _ hquiet
    · rename_i hf
      obtain ⟨hlive, hquiet⟩ := hl (by simp [Request.isRw, hf])
      split
      · exact hc.mmcSense
      · exact hlive.rw _ hquiet
    all_goals
      rename_i hf
      have hfin : q.isRw = false → CardInv s.finish := fun hrw => hc.settle_other hq hrw _ fun _ => false
    · split
      · exact hfin (by simp [Request.isRw, hf])
      · exact hc.mmcSense
    · unfold mmcUnitReady
      split
      · exact hc.mmcSense.congr rfl rfl rfl rfl rfl rfl
      · split
        · split
          · exact hc.settle_other hq (by simp [Request.isRw, hf]) _ Nexus.check
          · exact hc.mediaCheck.mmcSense
        · exact hc.mmcSense
    · unfold mmcInquiry
      split
      · split
        · exact hfin (by simp [Request.isRw, hf])
        · exact hc.mmcSense
      · split
        · exact hfin (by simp [Request.isRw, hf])
        · exact hc.mmcSense
    · split
      · exact hc.mmcError
      · split
        · exact hfin (by simp [Request.isRw, hf])
        · exact hc.mmcSense
    · split
      · exact hfin (by simp [Request.isRw, hf])
      · exact hc.mmcSense
    · exact hfin (by simp [Request.isRw, hf])
    · exact hc.mmcSense

/-- 返した CCB の記録。 -/
theorem CardInv.oneCard (hc : CardInv s) {n : Nexus} (hn : s.nexus = some n) : n.OneCard := by
  refine ⟨fun c hm => (hc.cmds n hn c hm).2, fun hrw hst => ⟨s.home.getD 0, fun c hm => ?_⟩⟩
  obtain ⟨hcard, hsome⟩ := hc.done n hn hrw hst c hm
  obtain ⟨g, hg⟩ := Option.isSome_iff_exists.mp hsome
  rw [hcard, hg, Option.getD_some]

/-- ステップの前後で成り立つ条件。 -/
structure CardOk (s : Sim) : Prop extends CardInv s where
  inprog : ∀ n, s.nexus = some n → n.status = .inprog

theorem CardInv.post (hc : CardInv s) : CardOk s.post := by
  unfold Sim.post
  split
  · rename_i n hn
    split
    · rename_i hst
      refine ⟨hc, fun m hm => ?_⟩
      cases hn.symm.trans hm
      exact hst
    · refine ⟨{ hc with posted := ?_, cmds := forall_none rfl, near := forall_none rfl, done := forall_none rfl }, forall_none rfl⟩
      intro m hm
      rcases List.mem_append.mp hm with hm | hm
      · exact hc.posted m hm
      · cases List.mem_singleton.mp hm
        exact hc.oneCard hn
  · rename_i hn
    refine ⟨hc, fun m hm => ?_⟩
    cases hn.symm.trans hm

theorem CardInv.settle (hc : CardInv s) : CardOk s.settle := by
  unfold Sim.settle
  split
  · have hc' : CardInv { s with state := .idle } := hc.congr rfl rfl rfl rfl rfl rfl
    exact hc'.post
  · rename_i hst
    refine ⟨hc, fun n hn => ?_⟩
    simpa [hn] using hst

theorem CardOk.startCcb (hc : CardOk s) (k : Nat) (hq : ∀ p ∈ s.queue[k]?, p.2.isRw → o.Quiet) :
    CardOk (s.mmcStartCcb h k o) := by
  unfold mmcStartCcb
  split
  · rename_i id q _ hk
    refine CardInv.post ?_
    have hl : Live (s.dequeue k id q) := by
      refine ⟨{ hc.toCardInv with home := hc.fresh, gone := fun _ _ _ hk => (by cases hk), cmds := ?_, near := ?_, done := ?_ },
        .inr rfl, ?_, ?_⟩
      all_goals
        intro n hn
        cases hn
      · exact fun c hc => (List.not_mem_nil hc).elim
      · exact .inl fun c hc => (List.not_mem_nil hc).elim
      · exact fun _ _ c hc => (List.not_mem_nil hc).elim
      · rfl
      · exact fun c hc => (List.not_mem_nil hc).elim
    have hreq : ∀ n, (s.dequeue k id q).nexus = some n → n.req = q := by
      intro n hn
      cases hn
      rfl
    unfold execute
    split
    · exact hl.toCardInv.ioCmds hreq fun hrw => ⟨hl, hq (id, q) hk hrw⟩
    · rename_i hf
      exact hl.toCardInv.settle_other hreq (by simp [Request.isRw, hf]) _ Nexus.check
    · exact hl.toCardInv.mmcSense
  · exact hc

/-! ## 割り込み -/

/-- 条件が成り立てば、データ命令を送ってよい。 -/
theorem CardOk.live (hc : CardOk s) (hp : s.present = s.home) (hs : s.home.isSome) : Live s := by
  refine ⟨hc.toCardInv, .inr hp, hc.inprog, fun n hn c hm => ⟨?_, hs⟩⟩
  rcases hc.near n hn with hall | hne
  · exact hall c hm
  · exact absurd hp hne

theorem CardOk.chipset (hc : CardOk s) (i : Intr) : CardOk (s.chipset i) := by
  refine ⟨hc.toCardInv.chipset i, ?_⟩
  rw [(drift_chipset (.refl s) i).nexus]
  exact hc.inprog

theorem CardOk.identIrq (hc : CardOk s) (i : Intr) (e : Event)
    (hl : ∀ n, s.nexus = some n → n.req.isRw → s.d.ident = .start ∨ Live s ∧ o.Quiet) : CardInv (s.mmcIdentIrq h i e o) := by
  have hw : CardInv (s.identWait h o).2 := cardInv_stable.identWait .trivial hc.toCardInv
  have hd : Drift s (s.identWait h o).2 := identWait_drift
  unfold mmcIdentIrq
  dsimp only
  split
  · split
    · rename_i hnone
      split
      · rename_i n hn
        have hc' : CardInv { (s.identWait h o).2 with
            d := (s.d.cardIdent h.toConf { e with
              command := i.command, error := i.error, detect := s.present.isSome, ready := (s.identWait h o).1 }).2
            state := .idle
            ready := true } := hw.congr rfl rfl rfl rfl rfl rfl
        refine hc'.ioCmds (fun m hm => ?_) fun hrw => ?_
        · cases hn.symm.trans hm
          rfl
        · rcases hl n (hd.nexus ▸ hn) hrw with hst | ⟨hlive, hquiet⟩
          · exact absurd hnone (Ident.start_pending hst)
          · have hlw : Live (s.identWait h o).2 := live_stable.identWait hquiet hlive
            exact ⟨hlw.congr rfl rfl rfl rfl rfl rfl, hquiet⟩
      · exact hw.congr rfl rfl rfl rfl rfl rfl
    · exact hw.congr rfl rfl rfl rfl rfl rfl
  · refine CardInv.mmcError ?_
    split
    · exact hw.congr rfl rfl rfl rfl rfl rfl
    · refine CardInv.mediaCheck ?_
      exact hw.congr rfl rfl rfl rfl rfl rfl

theorem Live.dmaIrq (hl : Live s) (hq : o.Quiet) : CardInv (s.mmcDmaIrq h o) := by
  unfold mmcDmaIrq
  split
  · split
    · exact hl.toCardInv.congr rfl rfl rfl rfl rfl rfl
    · exact hl.toCardInv.mmcError.congr rfl rfl rfl rfl rfl rfl
  · exact hl.dmaRw hq

theorem Live.pioStop (hl : Live s) (dirIn : Bool) : CardInv (s.mmcPioStop o dirIn) := by
  unfold mmcPioStop
  split
  · split
    · split
      · exact hl.toCardInv.congr rfl rfl rfl rfl rfl rfl
      · exact hl.toCardInv.mmcError.congr rfl rfl rfl rfl rfl rfl
    · exact hl.finish
  · exact hl.toCardInv

theorem Live.pioRw (hl : Live s) : CardInv (s.mmcPioRw q o) := by
  unfold mmcPioRw
  split
  · exact hl.pioStop _
  · dsimp only
    generalize s.pioMoved q o = r
    have hl' : Live { s with curSg := r.1, offset := r.2.1 } := hl.congr rfl rfl rfl rfl rfl rfl
    have hl'' := hl'.last (g := Cmd.move r.2.2) fun _ => ⟨rfl, rfl⟩
    split
    · exact hl''.pioStop _
    · exact hl''.toCardInv

theorem CardInv.stopIrq (hc : CardInv s) {n : Nexus} {i : Intr} (hl : i.error = false → Live s ∧ o.Quiet) : CardInv (s.stopIrq h n i o) := by
  unfold Sim.stopIrq
  split
  · split
    · exact hc.mmcError.congr rfl rfl rfl rfl rfl rfl
    · exact hc.congr rfl rfl rfl rfl rfl rfl
  · rename_i herr
    obtain ⟨hlive, hquiet⟩ := hl (Bool.not_eq_true _ ▸ herr)
    have hl' : Live { s with stop := .none, stopsRetry := 0 } := hlive.congr rfl rfl rfl rfl rfl rfl
    have hl'' := hl'.last (g := Cmd.halt) fun _ => ⟨rfl, rfl⟩
    split
    · dsimp only
      split
      · exact hl''.toCardInv.mmcError
      · split
        · exact hl''.finish
        · exact hl''.dmaIrq hquiet
    · exact hc

theorem CardInv.dataIrq (hc : CardInv s) {n : Nexus} {i : Intr} (hl : i.error = false → Live s ∧ o.Quiet) : CardInv (s.mmcDataIrq h n i o) := by
  have hc' : CardInv { s with stopsRetry := 0 } := hc.congr rfl rfl rfl rfl rfl rfl
  unfold mmcDataIrq
  split
  · exact hc.stopIrq hl
  · dsimp only
    split
    · split
      · have hi : CardInv { s with stopsRetry := 0, stop := .issued } := hc.congr rfl rfl rfl rfl rfl rfl
        refine hi.update (fun _ => ⟨rfl, fun c hc => ⟨c, hc, rfl, rfl⟩⟩) fun n hn hrw hst => hc.done n hn hrw hst
      · exact hc'.mmcError.congr rfl rfl rfl rfl rfl rfl
    · rename_i herr
      obtain ⟨hlive, hquiet⟩ := hl (Bool.not_eq_true _ ▸ herr)
      have hl' : Live { s with stopsRetry := 0 } := hlive.congr rfl rfl rfl rfl rfl rfl
      split
      · split
        · exact hl'.pioRw
        · split
          · exact (hl'.last (g := Cmd.complete) fun _ => ⟨rfl, rfl⟩).dmaIrq hquiet
          · exact hc'.mmcError
      · split
        · exact hl'.pioRw
        · exact hc'

theorem chipset_present (i : Intr) : (s.chipset i).present = s.present := by
  unfold Sim.chipset
  split
  · rfl
  · split <;> rfl

/-- 割り込みの関数が識別の状態にするなら、識別は始めからになる。 -/
theorem chipset_ident {i : Intr} (hst : (s.chipset i).state = .ident) : (s.chipset i).d.ident = .start ∨ s.state = .ident := by
  unfold Sim.chipset at hst ⊢
  split
  · exact .inl rfl
  · rename_i hre
    rw [if_neg hre] at hst
    split at hst <;> exact .inr hst

theorem CardOk.processInterrupt (hc : CardOk s) (hb : Busy s) {i : Intr} {e : Event} (ha : s.Attended (.interrupt i e o)) :
    CardOk (s.mmcProcessInterrupt h i e o) := by
  have ht : CardOk (s.chipset i) := hc.chipset i
  have hd : Drift s (s.chipset i) := drift_chipset (.refl s) i
  have hlive : ∀ n, s.nexus = some n → n.req.isRw → i.card = false → (s.state = .ident ∨ s.state = .data ∧ i.error = false) →
      Live (s.chipset i) ∧ o.Quiet := by
    intro n hn hrw hcard hst
    obtain ⟨hquiet, hp⟩ := ha n hn hrw hcard
    obtain ⟨hpre, hsome⟩ := hp hst
    refine ⟨ht.live ?_ ?_, hquiet⟩
    · rw [chipset_present, hd.home]
      exact hpre
    · rw [hd.home]
      exact hsome
  unfold mmcProcessInterrupt
  dsimp only
  split
  · exact ht
  · split
    · exact ht.toCardInv.mediaCheck.mmcError.settle
    · rename_i hcard
      have hcard : i.card = false := Bool.not_eq_true _ ▸ hcard
      split
      · rename_i hst
        refine (ht.identIrq i e fun n hn hrw => ?_).settle
        rcases chipset_ident hst with hstart | hident
        · exact .inl hstart
        · exact .inr (hlive n (hd.nexus ▸ hn) hrw hcard (.inl hident))
      · rename_i n hst hn
        refine (CardInv.dataIrq ?_ fun herr => ?_).settle
        · split
          · exact ht.toCardInv.update (.last fun _ => ⟨rfl, rfl⟩) fun m hm hrw hcmp => ht.done m hm hrw hcmp
          · exact ht.toCardInv
        · rw [if_neg (by simp [herr])]
          obtain ⟨m, hm, hrw⟩ := hb.data (hd.state hst)
          exact hlive m hm hrw hcard (.inr ⟨hd.state hst, herr⟩)
      · exact ht.toCardInv.settle

theorem CardOk.step (hc : CardOk s) (hb : Busy s) {i : Step} (ha : s.Attended i) (hs : s.step h i = .ok t) : CardOk t := by
  have hdrift : ∀ u, Drift s u → CardInv u → CardOk u := by
    intro u hd hu
    refine ⟨hu, ?_⟩
    rw [hd.nexus]
    exact hc.inprog
  cases i with
  | ambient a =>
      cases hs
      exact hdrift _ (drift_ambient (.refl s) a) (hc.ambient a)
  | start k o =>
      cases hs
      exact hc.startCcb k ha
  | interrupt i e o =>
      cases hs
      exact hc.processInterrupt hb ha
  | timer =>
      cases hs
      split
      · exact hc
      · exact hdrift _ (drift_mediaCheck (.refl s)) hc.mediaCheck

end

end Sim

end Imx6Bsp.Devb
