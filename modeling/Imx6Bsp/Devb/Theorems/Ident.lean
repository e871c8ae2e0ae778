import Imx6Bsp.Devb.Ident
import Imx6Bsp.Devb.Lemmas.Ident

/-!
# 識別の再現性

消されない欄が初期値のときに始めた識別は、初期化したばかりのドライバと並んで進み、同じ属性で終わる。
-/

namespace Imx6Bsp.Devb

/-! ## 識別の一段の仕様

成功する一段では、残りの段の数の上限 `budget` が減る。アプリケーション命令は、誤りなく終わった `MMC_APP_CMD` のすぐ後にだけ送られる。 -/

/-- その段より後の割り込みの数。 -/
def Stage.quota : Stage → Nat
  | .none => 0
  | .final => 1
  | .mmcSwitchModeBuswidth => 2
  | .mmcSwitchModeHs => 3
  | .extCsd => 4
  | .switchMode => 2
  | .checkMode => 3
  | .parseScr => 4
  | .sendScr => 5
  | .setBw => 6
  | .setBwApp => 7
  | .checkSts => 8
  | .selDesCard => 9
  | .sendCsd => 10
  | .sendCid => 11
  | .setAddress => 12
  | .allSendCid => 13
  | .mmcPowerup => 14
  | .sdPowerup => 3017
  | .cardVersion => 4023
  | .goIdle => 4024
  | .start => 4025

/-- 段に留まる回数。 -/
def Stage.slack (retry istage count : Nat) : Stage → Nat
  | .mmcPowerup => 3002 - istage
  | .sdPowerup => 1005 - istage
  | .start => retry + 1 - count
  | _ => 0

/-- 残りの割り込みの数の上限。 -/
def Ident.budget (c : Conf) (d : Ident) : Nat := d.ident.quota + d.ident.slack c.pwrRetry d.istage d.count

/-- 直前の命令 `prev` が `MMC_APP_CMD` で、誤りなく終わった。 -/
def AppDone (prev : Option (Nat × Nat)) (e : Event) : Prop := IsApp prev ∧ e.error = false

/-- 割り込みの間の不変条件。 -/
structure Ident.Tidy (d : Ident) (prev : Option (Nat × Nat)) : Prop where
  powerup : d.ident = .sdPowerup → (d.istage = 1 ∨ d.istage % 3 = 0 → IsApp prev) ∧ (d.istage % 3 = 1 → d.istage = 1)
  app : d.ident = .setBwApp ∨ d.ident = .sendScr → IsApp prev

/-- 一段の結果が満たすこと。 -/
structure Turn (c : Conf) (d : Ident) (prev : Option (Nat × Nat)) (e : Event) (r : Bool × Ident) : Prop where
  falls : r.1 = true → r.2.budget c < d.budget c ∧ r.2.Tidy r.2.cmd
  order : ∀ opcode a, r.2.cmd = some (opcode, a) → d.ident.NeedsApp opcode → AppDone prev e

variable {c : Conf} {d d' : Ident} {prev : Option (Nat × Nat)} {e : Event}

theorem Turn.ite {P : Prop} [Decidable P] {x y : Bool × Ident} (h₁ : P → Turn c d prev e x) (h₂ : ¬P → Turn c d prev e y) :
    Turn c d prev e (if P then x else y) := by
  split
  · exact h₁ ‹_›
  · exact h₂ ‹_›

theorem Turn.fail (h : d'.cmd = none) : Turn c d prev e (false, d') where
  falls hr := by cases hr
  order opcode a hcmd := by
    have hcmd : d'.cmd = some (opcode, a) := hcmd
    rw [h] at hcmd
    cases hcmd

theorem Turn.send {opcode argument : Nat} (hbudget : d'.budget c < d.budget c) (htidy : d'.Tidy (some (opcode, argument)))
    (horder : d.ident.NeedsApp opcode → AppDone prev e) : Turn c d prev e (d'.sendcmd e opcode argument) where
  falls _ := ⟨hbudget, ⟨htidy.powerup, htidy.app⟩⟩
  order op a hcmd hneeds := by
    cases hcmd
    exact horder hneeds

/-- `MMC_APP_CMD` を前に要らない命令。 -/
theorem Stage.NeedsApp.plain {s : Stage} {opcode : Nat} (h : opcode ≠ 41 ∧ opcode ≠ 51 ∧ opcode ≠ 6) : ¬ s.NeedsApp opcode := by
  rintro (h41 | h51 | ⟨h6, -⟩)
  · exact h.1 h41
  · exact h.2.1 h51
  · exact h.2.2 h6

/-- 電源とアプリケーション命令の他の段は、いつも不変条件を満たす。 -/
theorem Ident.Tidy.other (s : Stage) (hs : d.ident = s) (h : s ≠ .sdPowerup ∧ s ≠ .setBwApp ∧ s ≠ .sendScr) : d.Tidy prev where
  powerup hp := absurd (hs.symm.trans hp) h.1
  app ha := ha.elim (fun ha => absurd (hs.symm.trans ha) h.2.1) fun ha => absurd (hs.symm.trans ha) h.2.2

/-- 留まることのない段に進む。 -/
theorem Ident.budget_lt (s : Stage) {t : Stage} (hs : d'.ident = s) (ht : d.ident = t)
    (h : s.quota < t.quota ∧ s ≠ .mmcPowerup ∧ s ≠ .sdPowerup ∧ s ≠ .start) : d'.budget c < d.budget c := by
  have hslack : s.slack c.pwrRetry d'.istage d'.count = 0 := by
    cases s with
    | mmcPowerup => exact absurd rfl h.2.1
    | sdPowerup => exact absurd rfl h.2.2.1
    | start => exact absurd rfl h.2.2.2
    | _ => rfl
  rw [budget, budget, hs, ht, hslack]
  exact h.1.trans_le (Nat.le_add_right _ _)

/-- 電源とアプリケーション命令の他の段に進む命令。 -/
theorem Turn.next (s : Stage) {t : Stage} {opcode argument : Nat} (hs : d'.ident = s) (ht : d.ident = t)
    (h : s.quota < t.quota ∧ s ≠ .mmcPowerup ∧ s ≠ .sdPowerup ∧ s ≠ .start) (hother : s ≠ .setBwApp ∧ s ≠ .sendScr)
    (hplain : opcode ≠ 41 ∧ opcode ≠ 51 ∧ (opcode = 6 → t ≠ .setBwApp)) : Turn c d prev e (d'.sendcmd e opcode argument) := by
  refine .send (Ident.budget_lt s hs ht h) (.other s hs ⟨h.2.2.1, hother⟩) ?_
  rintro (h41 | h51 | ⟨h6, happ⟩)
  · exact absurd h41 hplain.1
  · exact absurd h51 hplain.2.1
  · exact absurd (ht.symm.trans happ) (hplain.2.2 h6)

theorem Turn.clock {t : Stage} (ht : d.ident = t) (h : 1 < t.quota) : Turn c d prev e (d'.clock e) :=
  .next .final rfl ht ⟨h, by decide, by decide, by decide⟩ (by decide) ⟨by decide, by decide, fun h => absurd h (by decide)⟩

/-! ### 電源 -/

theorem turn_start (hs : d.ident = .start) (hcmd : d.cmd = none) : Turn c d prev e (d.start c e) := by
  have hclear : d.clearOld.cmd = none ∧ d.clearOld.ident = .start ∧ d.clearOld.count = d.count := by
    unfold Ident.clearOld
    split
    · exact ⟨hcmd, hs, rfl⟩
    · exact ⟨hcmd, hs, rfl⟩
  refine .ite (fun _ => .fail hclear.1) fun _ => .ite (fun _ => .fail hclear.1) fun _ => .ite (fun _ => ?_) fun hcount => ?_
  · exact .next .goIdle rfl hs (by decide) (by decide) (by decide)
  · refine .send ?_ (.other .start hclear.2.1 (by decide)) fun h => absurd h (Stage.NeedsApp.plain (by decide))
    rw [Ident.budget, Ident.budget, hs]
    dsimp only
    rw [hclear.2.1]
    dsimp only [Stage.slack]
    rw [hclear.2.2] at hcount ⊢
    omega

theorem turn_goIdle (hs : d.ident = .goIdle) (hcmd : d.cmd = none) (he : e.command = true ∨ e.error = true) :
    Turn c d prev e (d.goIdle e) := by
  refine .ite (fun _ => .fail hcmd) fun herror => .ite (fun _ => ?_) fun hcommand => ?_
  · exact .next .cardVersion rfl hs (by decide) (by decide) (by decide)
  · exact absurd he (not_or.mpr ⟨hcommand, herror⟩)

/-- 電源が入った。 -/
theorem turn_powered {version : Version} {t : Stage} (hs : d.ident = t) (h : 13 < t.quota) : Turn c d prev e (d'.powered e version) :=
  .next .allSendCid rfl hs ⟨h, by decide, by decide, by decide⟩ (by decide) ⟨by decide, by decide, fun h => absurd h (by decide)⟩

theorem noteHc_cmd (d : Ident) : (d.noteHc e).cmd = d.cmd := by rw [Ident.noteHc_eq]

theorem noteHc_istage (d : Ident) : (d.noteHc e).istage = d.istage := by rw [Ident.noteHc_eq]

theorem turn_mmcPowerup (hs : d.ident = .mmcPowerup) (hcmd : d.cmd = none) : Turn c d prev e (d.mmcCardPowerup c e) := by
  have hpoll : ∀ d' : Ident, ¬ (c.pwrDelay * d.istage > 3000 ∨ d.istage > 3000) → d'.ident = .mmcPowerup → d'.istage = d.istage + 1 →
      ∀ argument, Turn c d prev e (d'.sendcmd e 1 argument) := by
    intro d' hlimit hs' histage argument
    refine .send ?_ (.other .mmcPowerup hs' (by decide)) fun h => absurd h (Stage.NeedsApp.plain (by decide))
    rw [Ident.budget, Ident.budget, hs, hs', histage]
    dsimp only [Stage.slack]
    omega
  refine .ite (fun _ => .fail hcmd) fun hlimit => .ite (fun _ => .ite (fun _ => .fail hcmd) fun _ => .ite (fun _ => ?_) fun _ => ?_) fun _ => ?_
  · exact turn_powered hs (by decide)
  · exact hpoll (Ident.noteHc { d with istage := d.istage + 1 } e) hlimit ((Ident.noteHc_ident _).trans hs) (noteHc_istage _) _
  · exact hpoll { d with istage := d.istage + 1 } hlimit hs rfl _

/-- `istage` を進める。 -/
theorem Turn.advance {opcode argument : Nat} (hs : d'.ident = .sdPowerup) (hstage : d'.istage ≤ 1001) (hlt : d'.budget c ≤ d.budget c)
    (hmod : (d'.istage + 1) % 3 = 0 → opcode = 55) (hone : (d'.istage + 1) % 3 ≠ 1)
    (horder : d.ident.NeedsApp opcode → AppDone prev e) :
    Turn c d prev e ({ d' with istage := d'.istage + 1 }.sendcmd e opcode argument) := by
  refine .send (lt_of_lt_of_le ?_ hlt) ⟨fun _ => ⟨?_, fun h => absurd h hone⟩, ?_⟩ horder
  · rw [Ident.budget, Ident.budget, hs]
    dsimp only [Stage.slack]
    omega
  · rintro (h | h)
    · exact absurd (congrArg (· % 3) h) hone
    · exact ⟨_, by rw [hmod h]⟩
  · rintro (h | h)
    · cases hs.symm.trans h
    · cases hs.symm.trans h

theorem turn_sdStage {ocr : Nat} {t : Stage} (hs : d'.ident = .sdPowerup) (ht : d.ident = t) (hquota : 13 < t.quota) (hcmd : d'.cmd = none)
    (hstage : d'.istage ≤ 1001) (hlt : d'.budget c ≤ d.budget c) (happ : d'.istage % 3 = 1 → IsApp prev) :
    Turn c d prev e (d'.sdStage e ocr) := by
  refine .ite (fun hone => ?_) fun hone => .ite (fun htwo => ?_) fun _ => .fail hcmd
  · refine .ite (fun _ => .fail hcmd) fun herror => ?_
    exact .advance hs hstage hlt (fun h => by omega) (by omega) fun _ => ⟨happ hone, eq_false_of_ne_true herror⟩
  · refine .ite (fun _ => .fail hcmd) fun _ => .ite (fun _ => turn_powered ht hquota) fun _ => ?_
    have hnote : (d'.noteHc e).budget c = d'.budget c := by
      rw [Ident.noteHc_eq]
      rfl
    refine .advance ((Ident.noteHc_ident _).trans hs) (by rw [noteHc_istage]; exact hstage) (hnote.trans_le hlt) (fun _ => rfl) ?_
      fun h => absurd h (Stage.NeedsApp.plain (by decide))
    rw [noteHc_istage]
    omega

/-- 最初の `MMC_APP_CMD`。 -/
theorem turn_firstApp (hs : d'.ident = .sdPowerup) (hzero : d'.istage = 0)
    (h : Stage.quota .sdPowerup + 1005 ≤ d.budget c) : Turn c d prev e (d'.sdCardPowerup e) := by
  unfold Ident.sdCardPowerup
  rw [if_neg (by omega), if_pos hzero]
  refine .send ?_ ⟨fun _ => ⟨fun _ => ⟨_, rfl⟩, fun _ => rfl⟩, fun hs' => ?_⟩ fun h => absurd h (Stage.NeedsApp.plain (by decide))
  · refine lt_of_lt_of_le ?_ h
    rw [Ident.budget, hs]
    dsimp only [Stage.slack]
    omega
  · rcases hs' with hs' | hs'
    · cases hs.symm.trans hs'
    · cases hs.symm.trans hs'

theorem turn_cardVersion (hs : d.ident = .cardVersion) (hcmd : d.cmd = none) : Turn c d prev e (d.cardVersion e) := by
  have hbudget : Stage.quota .sdPowerup + 1005 ≤ d.budget c := by
    rw [Ident.budget, hs]
    exact (by decide : 4022 ≤ 4023)
  refine .ite (fun _ => ?_) fun _ => .ite (fun _ => ?_) fun _ => .fail hcmd
  · exact turn_firstApp rfl rfl hbudget
  · exact turn_firstApp rfl rfl hbudget

theorem turn_sdPowerup (hs : d.ident = .sdPowerup) (hcmd : d.cmd = none) (htidy : d.Tidy prev) : Turn c d prev e (d.sdCardPowerup e) := by
  have happ := htidy.powerup hs
  unfold Ident.sdCardPowerup
  refine .ite (fun _ => .fail hcmd) fun hlimit => .ite (fun _ => ?_) fun hzero => ?_
  · refine .send ?_ ⟨fun _ => ⟨fun _ => ⟨_, rfl⟩, fun _ => rfl⟩, fun hs' => ?_⟩ fun h => absurd h (Stage.NeedsApp.plain (by decide))
    · rw [Ident.budget, Ident.budget, hs]
      dsimp only [Stage.slack]
      omega
    · rcases hs' with hs' | hs'
      · cases hs.symm.trans hs'
      · cases hs.symm.trans hs'
  · -- 飛ばした後の `istage` でも、上限は増えない。
    have hrest : ∀ d' : Ident, d'.ident = .sdPowerup → d'.cmd = none → d'.istage ≤ 1001 → d'.budget c ≤ d.budget c →
        (d'.istage % 3 = 1 → IsApp prev) →
        Turn c d prev e
          (if d'.istage = 1 then
            if d'.version = .sd1 ∧ e.cmdTo then { d' with ident := .mmcPowerup, istage := 0, ppl := false }.sendcmd e 0 0
            else if e.error then (false, d')
            else d'.sdStage e 0
          else d'.sdStage e 0x00ff8000) := by
      intro d' hs' hcmd' hstage hlt happ'
      refine .ite (fun _ => .ite (fun _ => ?_) fun _ => .ite (fun _ => .fail hcmd') fun _ => ?_) fun _ => ?_
      · refine .send ?_ (.other .mmcPowerup rfl (by decide)) fun h => absurd h (Stage.NeedsApp.plain (by decide))
        rw [Ident.budget, Ident.budget, hs]
        exact (by decide : 3016 < 3017).trans_le (Nat.le_add_right _ _)
      · exact turn_sdStage hs' hs (by decide) hcmd' hstage hlt happ'
      · exact turn_sdStage hs' hs (by decide) hcmd' hstage hlt happ'
    by_cases hskip : d.istage % 3 = 0
    · rw [if_pos hskip]
      refine hrest { d with istage := d.istage + 1 } hs hcmd (Nat.succ_le_succ (Nat.le_of_not_gt hlimit)) ?_ fun _ => happ.1 (.inr hskip)
      rw [Ident.budget, Ident.budget]
      dsimp only
      rw [hs]
      dsimp only [Stage.slack]
      omega
    · rw [if_neg hskip]
      exact hrest d hs hcmd (by omega) (Nat.le_refl _) fun h => happ.1 (.inl (happ.2 h))

/-! ### 番号と動作の設定 -/

theorem turn_final (hs : d.ident = .final) (hcmd : d.cmd = none) : Turn c d prev e (decide ¬e.error, { d with ident := .none }) where
  falls _ := by
    exact ⟨Ident.budget_lt .none rfl hs (by decide), .other .none rfl (by decide)⟩
  order opcode a h := by cases hcmd.symm.trans h

/-- `MMC_APP_CMD` を送り、アプリケーション命令の段に進む。 -/
theorem Turn.sendApp (s : Stage) {t : Stage} {argument : Nat} (hs : d'.ident = s) (ht : d.ident = t) (hs' : s = .setBwApp ∨ s = .sendScr)
    (h : s.quota < t.quota) : Turn c d prev e (d'.sendcmd e 55 argument) := by
  have hfree : s ≠ .mmcPowerup ∧ s ≠ .sdPowerup ∧ s ≠ .start := by
    rcases hs' with rfl | rfl
    · decide
    · decide
  refine .send (Ident.budget_lt s hs ht ⟨h, hfree⟩) ⟨fun h' => absurd (hs.symm.trans h') hfree.2.1, fun _ => ⟨_, rfl⟩⟩ ?_
  exact fun h => absurd h (Stage.NeedsApp.plain (by decide))

theorem turn_statusDone (hs : d.ident = .checkSts) (hcmd : d.cmd = none) : Turn c d prev e (d.statusDone c e) := by
  refine .ite (fun _ => .fail hcmd) fun _ => .ite (fun _ => .ite (fun _ => ?_) fun _ => .clock hs (by decide)) fun _ => ?_
  · exact .ite (fun _ => .fail hcmd) fun _ => .next .extCsd rfl hs (by decide) (by decide) (by decide)
  · refine .ite (fun _ => ?_) fun _ => ?_
    · exact .sendApp .setBwApp rfl hs (.inl rfl) (by decide)
    · exact .sendApp .sendScr rfl hs (.inr rfl) (by decide)

theorem turn_setBwApp (hs : d.ident = .setBwApp) (hcmd : d.cmd = none) (htidy : d.Tidy prev) : Turn c d prev e (d.setBwApp e) := by
  refine .ite (fun _ => .fail hcmd) fun herror => ?_
  refine .send (Ident.budget_lt .setBw rfl hs (by decide)) (.other .setBw rfl (by decide)) fun _ => ?_
  exact ⟨htidy.app (.inl hs), eq_false_of_ne_true herror⟩

theorem turn_setBw (hs : d.ident = .setBw) (hcmd : d.cmd = none) : Turn c d prev e (d.setBw c e) := by
  refine .ite (fun _ => .fail hcmd) fun _ => .ite (fun _ => .clock hs (by decide)) fun _ => ?_
  exact .sendApp .sendScr rfl hs (.inr rfl) (by decide)

theorem turn_sendScr (hs : d.ident = .sendScr) (hcmd : d.cmd = none) (htidy : d.Tidy prev) : Turn c d prev e (d.sendScr e) := by
  refine .ite (fun _ => .fail hcmd) fun herror => .ite (fun _ => .fail hcmd) fun _ => ?_
  refine .send (Ident.budget_lt .parseScr rfl hs (by decide)) (.other .parseScr rfl (by decide)) fun _ => ?_
  exact ⟨htidy.app (.inr hs), eq_false_of_ne_true herror⟩

theorem turn_parseScr (hs : d.ident = .parseScr) (hcmd : d.cmd = none) : Turn c d prev e (d.parseScr e) := by
  have hclock : Turn c d prev e (d.clock e) := .clock hs (by decide)
  refine .ite (fun _ => .fail hcmd) fun _ => ?_
  cases e.pio with
  | none => exact .fail hcmd
  | some scr =>
      refine .ite (fun _ => hclock) fun _ => .ite (fun _ => hclock) fun _ => ?_
      exact .next .checkMode rfl hs (by decide) (by decide) (by decide)

theorem turn_checkMode (hs : d.ident = .checkMode) (hcmd : d.cmd = none) : Turn c d prev e (d.checkMode c e) := by
  have hclock : Turn c d prev e (d.clock e) := .clock hs (by decide)
  refine .ite (fun _ => hclock) fun _ => ?_
  cases e.pio with
  | none => exact .fail hcmd
  | some tmp =>
      refine .ite (fun _ => hclock) fun _ => .ite (fun _ => hclock) fun _ => .ite (fun _ => hclock) fun _ => ?_
      exact .ite (fun _ => .fail hcmd) fun _ => .next .switchMode rfl hs (by decide) (by decide) (by decide)

theorem turn_switchMode (hs : d.ident = .switchMode) (hcmd : d.cmd = none) : Turn c d prev e (d.switchMode e) := by
  refine .ite (fun _ => .fail hcmd) fun _ => ?_
  cases e.pio with
  | none => exact .fail hcmd
  | some tmp => exact .clock hs (by decide)

/-! ### 拡張 CSD -/

theorem Turn.widen {t : Stage} (ht : d.ident = t) (hcmd : d'.cmd = none) (h : 2 < t.quota) (hbw : t ≠ .setBwApp) :
    Turn c d prev e (d'.widen c e) := by
  refine .ite (fun _ => .ite (fun _ => .fail hcmd) fun _ => ?_) fun _ => .clock ht (Nat.lt_of_succ_lt h)
  exact .next .mmcSwitchModeBuswidth rfl ht ⟨h, by decide, by decide, by decide⟩ (by decide) ⟨by decide, by decide, fun _ => hbw⟩

theorem foldGp_cmd (x : ExtCsd) (l : List Nat) (d : Ident) : (l.foldl (Ident.addGp x) d).cmd = d.cmd := by
  induction l generalizing d with
  | nil => rfl
  | cons pidx l ih =>
      refine (ih _).trans ?_
      unfold Ident.addGp
      split <;> rfl

theorem partitionConfig_cmd (x : ExtCsd) (d : Ident) : (d.partitionConfig x).cmd = d.cmd := by
  unfold Ident.partitionConfig
  dsimp only
  split
  · exact foldGp_cmd x _ _
  · rfl

theorem turn_readExtCsd (hs : d.ident = .extCsd) (hcmd : d.cmd = none) : Turn c d prev e (d.readExtCsd c e) := by
  refine .ite (fun _ => .fail hcmd) fun _ => ?_
  cases e.pio with
  | none => exact .fail hcmd
  | some x =>
      refine .ite (fun _ => ?_) fun _ => .widen hs ((partitionConfig_cmd x _).trans hcmd) (by decide) (by decide)
      exact .next .mmcSwitchModeHs rfl hs (by decide) (by decide) (by decide)

/-! ### 一段 -/

/-- `mmc_card_ident()` の一段は、失敗するか、残りの段の上限を減らす。 -/
theorem turn_interrupt (he : e.command = true ∨ e.error = true) (htidy : d.Tidy prev) : Turn c d prev e (d.interrupt c e) := by
  have hclear : { d with cmd := none }.Tidy prev := ⟨htidy.powerup, htidy.app⟩
  suffices h : ∀ d : Ident, d.cmd = none → d.Tidy prev → Turn c d prev e (d.cardIdent c e) from
    ⟨(h _ rfl hclear).falls, (h _ rfl hclear).order⟩
  intro d hcmd htidy
  unfold Ident.cardIdent
  cases hs : d.ident with
  | none => exact .fail hcmd
  | start => exact turn_start hs hcmd
  | goIdle => exact turn_goIdle hs hcmd he
  | cardVersion => exact turn_cardVersion hs hcmd
  | sdPowerup => exact turn_sdPowerup hs hcmd htidy
  | mmcPowerup => exact turn_mmcPowerup hs hcmd
  | allSendCid =>
      exact .ite (fun _ => .fail hcmd) fun _ => .next .setAddress rfl hs (by decide) (by decide) (by decide)
  | setAddress =>
      exact .ite (fun _ => .fail hcmd) fun _ => .next .sendCid rfl hs (by decide) (by decide) (by decide)
  | sendCid =>
      exact .ite (fun _ => .fail hcmd) fun _ => .next .sendCsd rfl hs (by decide) (by decide) (by decide)
  | sendCsd =>
      exact .ite (fun _ => .fail hcmd) fun _ => .next .selDesCard rfl hs (by decide) (by decide) (by decide)
  | selDesCard =>
      exact .ite (fun _ => .fail hcmd) fun _ => .next .checkSts rfl hs (by decide) (by decide) (by decide)
  | checkSts => exact turn_statusDone hs hcmd
  | setBwApp => exact turn_setBwApp hs hcmd htidy
  | setBw => exact turn_setBw hs hcmd
  | sendScr => exact turn_sendScr hs hcmd htidy
  | parseScr => exact turn_parseScr hs hcmd
  | checkMode => exact turn_checkMode hs hcmd
  | switchMode => exact turn_switchMode hs hcmd
  | extCsd => exact turn_readExtCsd hs hcmd
  | mmcSwitchModeHs => exact .ite (fun _ => .fail hcmd) fun _ => .widen hs hcmd (by decide) (by decide)
  | mmcSwitchModeBuswidth => exact .ite (fun _ => .fail hcmd) fun _ => .ite (fun _ => .fail hcmd) fun _ => .clock hs (by decide)
  | final => exact turn_final hs hcmd

end Imx6Bsp.Devb

namespace Imx6Bsp.Devb

open Imx6Bsp.Lib

/-! ## 履歴 -/

/-- 並んで走らせたドライバとの一致と、容量のビット。 -/
structure Slot.Inv (s : Slot) : Prop where
  agree : s.busy = true → s.d.ident = s.fresh.ident ∧ s.d.AgreeAt s.d.ident.rank s.fresh
  hc : 4 ≤ s.d.ident.rank → (s.d.hc = true ↔ s.d.ocr.getLsbD 30 = true)
  sound : s.Sound

theorem Ident.AgreeAt.attrs {a b : Ident} (h : a.AgreeAt 8 b) : a.attrs = b.attrs := by
  have hnlba : ∀ i ∈ List.range mmcPartitionMax, (a.partitions i).nlba = (b.partitions i).nlba := by
    intro i hm
    by_cases hi : i = 0
    · subst hi
      exact h.user (Nat.le_refl 8)
    · exact h.gp i (List.mem_range.mp hm) hi
  simp only [Ident.attrs, h.hc, h.hs, h.trim, h.blksize, h.rca (by decide), h.sdCsd, h.mmcCsd, h.sdCid, h.mmcCid, h.nluns,
    List.map_congr_left hnlba]

/-- 消されない欄が初期値なら、初期化したばかりのドライバと並ぶ。 -/
theorem Ident.Clean.agree {d : Ident} (h : d.Clean) : Ident.AgreeAt 0 (Ident.clearOld { d with ident := .start }) (Ident.clearOld { ident := .start }) := by
  unfold Ident.clearOld
  rw [if_pos h.count, if_pos rfl]
  refine ⟨h.count, rfl, rfl, h.trim, h.nluns, h.blksize, rfl, rfl, rfl, rfl, h.nlba, ?_, ?_, ?_, ?_, ?_⟩
  all_goals exact fun hr => absurd hr (by decide)

theorem Slot.Inv.step {c : Conf} {s t : Slot} {i : SlotStep} (h : s.Inv) (hok : s.Tame i) (hs : s.step c i = .ok t) : t.Inv := by
  cases i with
  | insertion e =>
      cases hs
      have htog : Together (Ident.cardIdent c { s.d with ident := .start } e) (Ident.cardIdent c { ident := .start } e) :=
        (Ident.Clean.agree hok).powerCycle (Ident.clearOld_ident _) (Ident.clearOld_ident _)
      refine ⟨fun _ => ⟨htog.ident, htog.agree⟩, ?_, h.sound⟩
      intro hr
      rcases Ident.cardIdent_hc (c := c) (e := e) { s.d with ident := .start } with hlow | ⟨⟨⟨hc, -⟩ | ⟨hc, -⟩, -⟩, -⟩ | ⟨hc, -⟩
      · exact absurd hr (Nat.not_le.mpr (Nat.lt_succ_of_le hlow))
      · cases hc
      · cases hc
      · exact absurd hc (by decide : ¬4 ≤ Stage.rank .start)
  | removal =>
      cases hs
      exact ⟨nofun, h.hc, h.sound⟩
  | post =>
      cases hs
      exact ⟨nofun, h.hc, h.sound⟩
  | interrupt e =>
      simp only [Slot.step] at hs
      split at hs
      · rename_i hbusy
        cases hs
        obtain ⟨hid, hagree⟩ := h.agree hbusy
        have htog := hagree.cardIdent (c := c) (e := e) hid
        have hhc : 4 ≤ (s.d.cardIdent c e).2.ident.rank →
            ((s.d.cardIdent c e).2.hc = true ↔ (s.d.cardIdent c e).2.ocr.getLsbD 30 = true) := by
          intro hr
          rcases Ident.cardIdent_hc (c := c) (e := e) s.d with hlow | ⟨hp, hhc, hocr⟩ | ⟨hr', hhc, hocr⟩
          · exact absurd hr (Nat.not_le.mpr (Nat.lt_succ_of_le hlow))
          · rw [hhc, hocr, Bool.or_eq_true]
            exact ⟨fun ho => ho.elim (hok hbusy hp) id, .inr⟩
          · rw [hhc, hocr]
            exact h.hc hr'
        simp only [Slot.identIrq]
        split
        · split
          · rename_i hn
            have hr : (s.d.cardIdent c e).2.ident.rank = 8 := by rw [hn]; rfl
            refine ⟨nofun, hhc, ?_⟩
            intro x hx
            rcases List.mem_append.mp hx with hx | hx
            · exact h.sound x hx
            · cases List.mem_singleton.mp hx
              exact ⟨Ident.AgreeAt.attrs (hr ▸ htog.agree), hhc (by rw [hr]; decide)⟩
          · exact ⟨fun _ => ⟨htog.ident, htog.agree⟩, hhc, h.sound⟩
        · exact ⟨nofun, hhc, h.sound⟩
      · cases hs
        exact h

/-- 挿入のたびに消されない欄が初期値であり、容量のビットが電源が入ったと答える応答でだけ立つ履歴では、どの識別の結果も、初期化したばかりの
ドライバが同じ応答を受けた結果と同じである。 -/
theorem identification_reproducible (c : Conf) (s : Slot) (h : Reaches (Slot.step c) Slot.Tame {} s) : s.Sound := by
  have hinv : Slot.Inv {} := ⟨fun hb => absurd hb (by decide),
    fun _ => ⟨fun hb => absurd hb (by decide), fun hb => absurd hb (by decide)⟩, fun x hx => (List.not_mem_nil hx).elim⟩
  exact (h.invariant hinv fun _ _ _ hu hok hs => hu.step hok hs).sound

/-- TRIM に対応した MMC カードの識別。 -/
def trimCard : List SlotStep :=
  let none : Event := {}
  let timeout : Event := { error := true, cmdTo := true }
  [.insertion none] ++
    [none, none, none, none, timeout, timeout, none, { resp := { r0 := 0xC0000000 } }, none, none, none,
      { resp := { r3 := 0x10000000, r2 := 0x00090000 } }, none, none,
      { pio := some fun i => if i = 192 then 5 else if i = 231 then 0x10 else if i = 212 then 64 else 0 }, none, none, none].map .interrupt

/-- SD カードの識別。 -/
def sdCard : List SlotStep :=
  let none : Event := {}
  [.insertion none] ++
    [none, none, none, none, { resp := { r0 := 0x1AA } }, none, { resp := { r0 := 0xC0000000 } }, none, { resp := { r0 := 0x12340000 } }, none,
      { resp := { r3 := 0x40000000, r1 := 0x00010000 } }, none, none, none, none, none, { pio := some fun _ => 0 }, none].map .interrupt

theorem identification_reproducible_sample :
    ∃ s, Reaches (Slot.step {}) Slot.Tame {} s ∧
      s.log.map (fun x => (x.attrs.hc, x.attrs.trim, x.attrs.rca, x.attrs.nlba)) = [(true, true, 2, [64, 0, 0, 0, 0, 0, 0, 0])] ∧ s.Sound := by
  obtain ⟨s, hs, hp⟩ := (Option.any_eq_true _ _).mp
    (by decide :
      (runAll (Slot.step {}) Slot.Tame trimCard {}).any
        (fun s => s.log.map (fun x => (x.attrs.hc, x.attrs.trim, x.attrs.rca, x.attrs.nlba)) =
          [(true, true, 2, [64, 0, 0, 0, 0, 0, 0, 0])]) = true)
  have hr := runAll_reaches hs
  exact ⟨s, hr, of_decide_eq_true hp, identification_reproducible {} s hr⟩

/-- TRIM に対応した MMC カードの後の SD カードは、TRIM に対応したことになる。 -/
theorem trim_left_by_previous_card : ∃ s, Reaches (Slot.step {}) (fun _ _ => True) {} s ∧ ¬s.Sound := by
  obtain ⟨s, hs, hp⟩ := (Option.any_eq_true _ _).mp
    (by decide :
      (runAll (Slot.step {}) (fun _ _ => True) (trimCard ++ [.removal] ++ sdCard) {}).any
        (fun s => (s.log.getLast?.map fun x => (x.attrs.trim, x.fresh.trim)) = some (true, false)) = true)
  have hr := runAll_reaches hs
  refine ⟨s, hr, fun hsound => ?_⟩
  obtain ⟨x, hx, hne⟩ := Option.map_eq_some_iff.mp (of_decide_eq_true hp)
  have heq := (hsound x (List.mem_of_getLast? hx)).1
  rw [heq] at hne
  exact absurd hne (by simp)

/-! ## 識別の終わりと命令の順

どの割り込みの列でも、識別は `identLimit` 回までに終わる。アプリケーション命令のすぐ前には、誤りなく終わった `MMC_APP_CMD` がある。 -/

/-- 最後に送った命令。 -/
def lastCmd (log : List IdentTurn) : Option (Nat × Nat) := log.getLast?.bind IdentTurn.cmd

theorem AppOrdered.nil : AppOrdered [] := by
  intro i t opcode a hi
  cases hi

theorem AppOrdered.append {log : List IdentTurn} {t : IdentTurn} (hlog : AppOrdered log)
    (ht : ∀ opcode a, t.cmd = some (opcode, a) → t.stage.NeedsApp opcode → IsApp (lastCmd log) ∧ t.error = false) :
    AppOrdered (log ++ [t]) := by
  intro i t' opcode a hi hcmd hneeds
  by_cases hlt : i < log.length
  · rw [List.getElem?_append_left hlt] at hi
    obtain ⟨herror, j, u, rfl, hj, hu⟩ := hlog i t' opcode a hi hcmd hneeds
    exact ⟨herror, j, u, rfl, by rw [List.getElem?_append_left (Nat.lt_of_succ_lt hlt)]; exact hj, hu⟩
  · -- 最後の一つだけが新しい。
    rw [List.getElem?_append_right (Nat.le_of_not_lt hlt)] at hi
    have hindex : i - log.length = 0 := Nat.lt_one_iff.mp (List.getElem?_eq_some_iff.mp hi).1
    rw [hindex] at hi
    cases hi
    obtain ⟨⟨a', ha'⟩, herror⟩ := ht opcode a hcmd hneeds
    obtain ⟨u, hu, hcmd'⟩ := Option.bind_eq_some_iff.mp ha'
    have hpos : log.length ≠ 0 := by
      intro hzero
      rw [List.length_eq_zero_iff.mp hzero] at hu
      cases hu
    rw [List.getLast?_eq_getElem?] at hu
    refine ⟨herror, log.length - 1, u, by omega, ?_, a', hcmd'⟩
    rw [List.getElem?_append_left (by omega)]
    exact hu

/-- `n` 回の割り込みの後に保たれること。 -/
structure IdentRun.Good (c : Conf) (n : Nat) (r : IdentRun) : Prop where
  busy : r.result = none → r.d.budget c + n ≤ 4026 + c.pwrRetry ∧ r.d.Tidy (lastCmd r.log)
  done : r.result = some true → r.d.ident = .none
  order : AppOrdered r.log

theorem IdentRun.good_start {c : Conf} {d : Ident} (hd : d.ident = .start) : IdentRun.Good c 0 { d } where
  busy _ := by
    refine ⟨?_, .other .start hd (by decide)⟩
    rw [Ident.budget, hd]
    dsimp only [Stage.slack, Stage.quota]
    omega
  done h := by cases h
  order := .nil

theorem IdentRun.Good.step {c : Conf} {n : Nat} {r : IdentRun} {e : Event} (h : r.Good c n) (he : e.command = true ∨ e.error = true) :
    (r.step c e).Good c (n + 1) := by
  unfold IdentRun.step
  by_cases hr : r.result = none
  · rw [if_neg (by rw [hr]; decide)]
    obtain ⟨hbudget, htidy⟩ := h.busy hr
    have hturn := turn_interrupt (c := c) he htidy
    refine ⟨fun hbusy => ?_, fun hdone => ?_, h.order.append ?_⟩
    · dsimp only at hbusy
      by_cases hok : (r.d.interrupt c e).1 = true
      · refine ⟨?_, ?_⟩
        · have hlt := (hturn.falls hok).1
          dsimp only
          omega
        · rw [lastCmd, List.getLast?_concat]
          exact (hturn.falls hok).2
      · rw [if_neg hok] at hbusy
        cases hbusy
    · dsimp only at hdone
      by_cases hok : (r.d.interrupt c e).1 = true
      · rw [if_pos hok] at hdone
        by_contra hne
        rw [if_neg hne] at hdone
        cases hdone
      · rw [if_neg hok] at hdone
        cases hdone
    · intro opcode a hcmd hneeds
      exact hturn.order opcode a hcmd hneeds
  · rw [if_pos (Option.isSome_iff_ne_none.mpr hr)]
    exact ⟨fun hbusy => absurd hbusy hr, h.done, h.order⟩

theorem IdentRun.Good.foldl {c : Conf} {es : List Event} {n : Nat} {r : IdentRun} (h : r.Good c n)
    (hes : ∀ e ∈ es, e.command = true ∨ e.error = true) : (es.foldl (IdentRun.step c) r).Good c (n + es.length) := by
  induction es generalizing n r with
  | nil => exact h
  | cons e es ih =>
      have hnext := ih (h.step (hes e List.mem_cons_self)) fun e' he' => hes e' (List.mem_cons_of_mem e he')
      rw [List.length_cons, Nat.add_comm es.length, ← Nat.add_assoc]
      exact hnext

/-- 識別は終わり、アプリケーション命令の順を守る。 -/
theorem ident_terminates {c : Conf} {d : Ident} (es : List Event) (hd : d.ident = .start)
    (hes : ∀ e ∈ es, e.command = true ∨ e.error = true) :
    (identLimit c ≤ es.length →
        (IdentRun.run c d es).result = some true ∧ (IdentRun.run c d es).d.ident = .none ∨
          (IdentRun.run c d es).result = some false) ∧
      AppOrdered (IdentRun.run c d es).log := by
  have h := (IdentRun.good_start (c := c) hd).foldl hes
  refine ⟨fun hlimit => ?_, h.order⟩
  have hdone : (IdentRun.run c d es).result ≠ none := by
    intro hbusy
    have hbudget := (h.busy hbusy).1
    rw [identLimit] at hlimit
    omega
  obtain ⟨ok, hok⟩ := Option.ne_none_iff_exists'.mp hdone
  cases ok with
  | true => exact .inl ⟨hok, h.done hok⟩
  | false => exact .inr hok

theorem ident_terminates_sample :
    ((IdentRun.run {} { ident := .start } (List.replicate 4030 { resp := { r0 := 0x1AA } })).result = some true ∧
        (IdentRun.run {} { ident := .start } (List.replicate 4030 { resp := { r0 := 0x1AA } })).d.ident = .none ∨
      (IdentRun.run {} { ident := .start } (List.replicate 4030 { resp := { r0 := 0x1AA } })).result = some false) ∧
      AppOrdered (IdentRun.run {} { ident := .start } (List.replicate 4030 { resp := { r0 := 0x1AA } })).log := by
  have h := ident_terminates (c := {}) (d := { ident := .start }) (List.replicate 4030 { resp := { r0 := 0x1AA } }) rfl
    fun e he => .inl (by rw [List.eq_of_mem_replicate he])
  exact ⟨h.1 (by rw [List.length_replicate]; decide), h.2⟩

end Imx6Bsp.Devb
