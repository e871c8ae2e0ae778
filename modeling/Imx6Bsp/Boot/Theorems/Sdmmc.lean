import Imx6Bsp.Boot.Sdmmc

/-!
# SD と MMC の識別

`MMC_IF_COND` に応じない SD では、`SD_SEND_OP_COND` の前に `MMC_APP_CMD` が送られない。ほかの経路では手順が守られる。
-/

namespace Imx6Bsp.Boot.Sd

open Imx6Bsp.Lib

/-! ## 記録 -/

section

variable {l l' : List Sent} {x : Sent}

theorem appOrdered_nil : AppOrdered [] := fun before x after h => absurd h.symm (by simp)

theorem AppOrdered.append (h : AppOrdered l) (hx : NeedsApp x.cmd → AfterApp l) : AppOrdered (l ++ [x]) := by
  intro before y after heq hneeds
  rcases List.eq_nil_or_concat after with rfl | ⟨rest, z, rfl⟩
  · obtain ⟨rfl, hxy⟩ := List.append_inj' heq rfl
    cases hxy
    exact hx hneeds
  · rw [List.concat_eq_append, ← List.cons_append, ← List.append_assoc] at heq
    obtain ⟨hl, -⟩ := List.append_inj' heq rfl
    exact h before y rest hl hneeds

theorem AppOrdered.of_append (h : AppOrdered (l ++ l')) : AppOrdered l := by
  rintro before y after rfl hneeds
  exact h before y (after ++ l') (by rw [List.append_assoc, List.cons_append]) hneeds

theorem not_appOrdered (hx : NeedsApp x.cmd) (hl : ¬ AfterApp l) : ¬ AppOrdered (l ++ [x]) := fun h => hl (h l x [] rfl hx)

theorem afterApp_append (hcmd : x.cmd = mmcAppCmd) (hok : x.answer.ok = true) : AfterApp (l ++ [x]) :=
  ⟨x, List.getLast?_concat, hcmd, hok⟩

theorem not_afterApp_append (hcmd : x.cmd ≠ mmcAppCmd) : ¬ AfterApp (l ++ [x]) := by
  rintro ⟨y, hy, happ, -⟩
  rw [List.getLast?_concat] at hy
  cases hy
  exact hcmd happ

end

/-! ## 命令 -/

section

variable {answers : Nat → Answer} {cmd : Nat} {arg : BitVec 32} {s : Sdmmc}

/-- `cmd` を送った後の状態。 -/
def Sdmmc.sent (s : Sdmmc) (answers : Nat → Answer) (cmd : Nat) (arg : BitVec 32) : Sdmmc :=
  { s with log := s.log ++ [⟨cmd, arg, answers s.log.length⟩] }

theorem meets_sendCmd {Q : Option (BitVec 32) → Sdmmc → Prop} {E : Unit → Sdmmc → Prop} (h : cmd ∈ cmdtab) :
    Meets (sendCmd answers cmd arg) s Q E ↔
      Q (if (answers s.log.length).ok then some (answers s.log.length).rsp else none) (s.sent answers cmd arg) := by
  rw [sendCmd, if_pos h]
  rfl

theorem meets_mustSend {Q : BitVec 32 → Sdmmc → Prop} {E : Unit → Sdmmc → Prop} (h : cmd ∈ cmdtab) :
    Meets (mustSend answers cmd arg) s Q E ↔
      ((answers s.log.length).ok = true → Q (answers s.log.length).rsp (s.sent answers cmd arg)) ∧
        ((answers s.log.length).ok = false → E () (s.sent answers cmd arg)) := by
  rw [mustSend, meets_bind, meets_sendCmd h]
  cases (answers s.log.length).ok with
  | true => simp
  | false => simp

/-- 動作条件を尋ねない命令と、記録の他の欄の書き換えで保たれる性質。 -/
structure Closed (answers : Nat → Answer) (I : Sdmmc → Prop) : Prop where
  sent : ∀ s cmd arg, I s → ¬ IsOpCond cmd → (NeedsApp cmd → AfterApp s.log) → I (s.sent answers cmd arg)
  fields : ∀ (s : Sdmmc) (rca state : BitVec 32), I s → I { s with rca, state }

theorem closed_ordered : Closed answers fun s => AppOrdered s.log :=
  ⟨fun _ _ _ h _ hneeds => h.append hneeds, fun _ _ _ h => h⟩

theorem closed_not_ordered : Closed answers fun s => ¬ AppOrdered s.log :=
  ⟨fun _ _ _ h _ _ h' => h h'.of_append, fun _ _ _ h => h⟩

theorem closed_powered : Closed answers fun s => AppOrdered s.log ∧ Powered s := by
  refine ⟨?_, fun s rca state h => h⟩
  rintro s cmd arg ⟨hord, before, x, after, hlog, hop, hafter, hok, hpower, htype⟩ hplain hneeds
  refine ⟨hord.append hneeds, before, x, after ++ [⟨cmd, arg, answers s.log.length⟩], ?_, hop, fun y hy => ?_, hok, hpower, htype⟩
  · dsimp only [Sdmmc.sent]
    rw [hlog, List.append_assoc, List.cons_append]
  · rcases List.mem_append.mp hy with hy | hy
    · exact hafter y hy
    · obtain rfl := List.mem_singleton.mp hy
      exact hplain

/-! ## 電源が入った後 -/

variable {I : Sdmmc → Prop}

/-- `MMC_APP_CMD` の要らず、動作条件を尋ねない命令。 -/
theorem Closed.mustSend (hI : Closed answers I) (h : cmd ∈ cmdtab ∧ ¬ NeedsApp cmd ∧ ¬ IsOpCond cmd) (arg : BitVec 32) :
    Stable I (mustSend answers cmd arg) := by
  intro s hs
  have hsent := hI.sent s cmd arg hs h.2.2 fun hn => absurd hn h.2.1
  exact (meets_mustSend h.1).mpr ⟨fun _ => hsent, fun _ => hsent⟩

theorem Closed.getState (hI : Closed answers I) : Stable I (sdmmcGetState answers) :=
  .bind .get fun _ => .bind (hI.mustSend (by decide) _) fun rsp =>
    .modify fun s hs => hI.fields s s.rca (rsp &&& 0x1e00) hs

theorem Closed.setAddress (hI : Closed answers I) : Stable I (setAddress answers) :=
  .bind .get fun _ => .ite
    (.bind (hI.mustSend (by decide) _) fun rsp =>
      .bind (.modify fun s hs => hI.fields s (rsp >>> 16) s.state hs) fun _ => hI.getState)
    (.ite
      (.bind (hI.mustSend (by decide) _) fun _ =>
        .bind (.modify fun s hs => hI.fields s 0x0001 s.state hs) fun _ => hI.getState)
      .throw)

theorem Closed.sendCsd (hI : Closed answers I) : Stable I (sendCsd answers) :=
  .bind .get fun _ => .bind (hI.mustSend (by decide) _) fun _ =>
    .ite hI.getState (.ite .pure .throw)

theorem Closed.selectCard (hI : Closed answers I) : Stable I (selectCard answers) :=
  .bind .get fun _ => .bind (hI.mustSend (by decide) _) fun _ =>
    .bind hI.getState fun _ => .bind (hI.mustSend (by decide) _) fun _ =>
      hI.getState

theorem Closed.mmcSwitchMode (hI : Closed answers I) : Stable I (mmcSwitchMode answers) :=
  .bind (hI.mustSend (by decide) _) fun _ =>
    .bind (hI.mustSend (by decide) _) fun _ => .pure

/-- バス幅の命令は、成功した `MMC_APP_CMD` のすぐ後に送られる。 -/
theorem Closed.sdSwitchWidth (hI : Closed answers I) (rca : BitVec 32) : Stable I (sdSwitchWidth answers rca) := by
  intro s hs
  have happ := hI.sent s mmcAppCmd (rca <<< 16) hs (by decide) fun hn => absurd hn (by decide)
  rw [Sd.sdSwitchWidth, meets_bind, meets_mustSend (by decide)]
  refine ⟨fun hok => ?_, fun _ => happ⟩
  have hwidth := hI.sent _ sdSetBusWidth 2 happ (by decide) fun _ => afterApp_append rfl hok
  rw [meets_bind, meets_mustSend (by decide)]
  exact ⟨fun _ => hwidth, fun _ => hwidth⟩

theorem Closed.switchMode (hI : Closed answers I) : Stable I (switchMode answers) :=
  .bind .get fun s => .ite (hI.sdSwitchWidth s.rca) (.ite hI.mmcSwitchMode .throw)

theorem Closed.identify (hI : Closed answers I) : Stable I (identify answers) :=
  .bind (.modify fun s hs => hI.fields s s.rca mmcReady hs) fun _ =>
    .bind (hI.mustSend (by decide) _) fun _ =>
      .bind (.modify fun s hs => hI.fields s s.rca mmcIdent hs) fun _ =>
        .bind hI.setAddress fun _ => .bind hI.sendCsd fun _ => .bind hI.selectCard fun _ => hI.switchMode

/-! ## 電源 -/

/-- 大容量のビットを尋ねた動作条件の応答 `rsp` が、最後の応答である。 -/
structure Asked (type : CardType) (rsp : BitVec 32) (s : Sdmmc) : Prop where
  ordered : AppOrdered s.log
  type : s.type = type
  last : ∃ before x, s.log = before ++ [x] ∧ IsOpCond x.cmd ∧ x.answer.ok = true ∧ x.answer.rsp = rsp ∧ x.arg.getLsbD 30 = true

variable {type : CardType} {rsp : BitVec 32}

theorem asked_sent (hs : AppOrdered s.log) (htype : s.type = type) (hop : IsOpCond cmd) (hneeds : NeedsApp cmd → AfterApp s.log)
    (harg : arg.getLsbD 30 = true) (hok : (answers s.log.length).ok = true) :
    Asked type (answers s.log.length).rsp (s.sent answers cmd arg) :=
  { ordered := hs.append hneeds, type := htype, last := ⟨s.log, _, rfl, hop, hok, rfl, harg⟩ }

theorem hcs_bit (ocr : BitVec 32) : (0xc0000000 ||| ocr).getLsbD 30 = true := by
  rw [BitVec.getLsbD_or]
  exact Bool.or_eq_true_iff.mpr (Or.inl (by decide))

theorem pollV200_asked (hs : AppOrdered s.log) (htype : s.type = type) :
    Meets (pollV200 answers) s (fun rsp t => Asked type rsp t) (fun _ t => AppOrdered t.log) := by
  have happ : AppOrdered (s.sent answers mmcAppCmd (s.rca <<< 16)).log :=
    closed_ordered.sent s _ _ hs (by decide) fun hn => absurd hn (by decide)
  rw [pollV200, meets_bind, meets_get, meets_bind, meets_mustSend (by decide)]
  refine ⟨fun hok => ?_, fun _ => happ⟩
  have hafter : AfterApp (s.sent answers mmcAppCmd (s.rca <<< 16)).log := afterApp_append rfl hok
  rw [meets_mustSend (by decide)]
  exact ⟨asked_sent happ htype (Or.inl rfl) (fun _ => hafter) (hcs_bit s.ocr), fun _ => happ.append fun _ => hafter⟩

theorem pollMmc_asked (hs : AppOrdered s.log) (htype : s.type = type) :
    Meets (pollMmc answers) s (fun rsp t => Asked type rsp t) (fun _ t => AppOrdered t.log) := by
  have hplain : NeedsApp mmcSendOpCond → AfterApp s.log := fun hn => absurd hn (by decide)
  rw [pollMmc, meets_bind, meets_get, meets_mustSend (by decide)]
  exact ⟨asked_sent hs htype (Or.inr rfl) hplain (hcs_bit s.ocr), fun _ => hs.append hplain⟩

/-- 合う電圧があれば何もせず、なければ `MMC_GO_IDLE_STATE` を送って失敗する。 -/
theorem checkOcr_meets (hI : Closed answers I) (hs : I s) (ocr : BitVec 32) :
    Meets (sdmmcCheckOcr answers ocr) s (fun _ t => t = s) (fun _ t => I t) := by
  rw [sdmmcCheckOcr, meets_bind, meets_get, meets_ite]
  refine ⟨fun _ => rfl, fun _ => ?_⟩
  rw [meets_bind, meets_sendCmd (by decide)]
  exact hI.sent s _ _ hs (by decide) fun hn => absurd hn (by decide)

theorem firstCheck_meets (hI : Closed answers I) (hs : I s) (i : Nat) (ocr : BitVec 32) :
    Meets (firstCheck answers i ocr) s (fun _ t => t = s) (fun _ t => I t) := by
  rw [firstCheck, meets_ite]
  exact ⟨fun _ => checkOcr_meets hI hs ocr, fun _ => rfl⟩

/-- 繰り返しが抜けるのは、電源が入ったという応答の直後である。 -/
theorem powerUp_asked {poll : Ipl (BitVec 32)}
    (hpoll : ∀ s, AppOrdered s.log → s.type = type → Meets poll s (fun rsp t => Asked type rsp t) (fun _ t => AppOrdered t.log))
    (n i : Nat) (stack : BitVec 32) (s : Sdmmc) (hs : AppOrdered s.log) (htype : s.type = type) :
    Meets (powerUp answers poll n i stack) s
      (fun r t => AppOrdered t.log ∧ (r.1 = true → Asked type r.2 t ∧ r.2.getLsbD 31 = true)) (fun _ t => AppOrdered t.log) := by
  induction n generalizing i stack s with
  | zero => exact ⟨hs, fun h => Bool.noConfusion h⟩
  | succ n ih =>
      rw [powerUp, meets_bind]
      refine (hpoll s hs htype).mono (fun rsp t ht => ?_) fun _ _ h => h
      rw [meets_bind]
      refine (firstCheck_meets closed_ordered ht.ordered i rsp).mono (fun _ u hu => ?_) fun _ _ h => h
      rw [hu, meets_ite]
      exact ⟨fun hbit => ⟨ht.ordered, fun _ => ⟨ht, hbit⟩⟩, fun _ => ih (i + 1) rsp t ht.ordered ht.type⟩

/-- 種類を決めれば、電源の入ったカードになる。 -/
theorem Asked.powered {newType : CardType} (h : Asked type rsp s) (hpower : rsp.getLsbD 31 = true)
    (htype : (newType = .sdcHc ∨ newType = .mmcHc) ↔ rsp.getLsbD 30 = true) : Powered { s with type := newType } := by
  obtain ⟨before, x, hlog, hop, hok, rfl, harg⟩ := h.last
  refine ⟨before, x, [], hlog, hop, fun y hy => absurd hy List.not_mem_nil, hok, hpower, ?_⟩
  rw [htype, harg]
  simp

theorem powerV200_powered (hs : AppOrdered s.log) (stack : BitVec 32) :
    Meets (powerV200 answers stack) s (fun b t => AppOrdered t.log ∧ (b = true → Powered t)) (fun _ t => AppOrdered t.log) := by
  have hsent : AppOrdered (s.sent answers mmcIfCond s.icr).log :=
    closed_ordered.sent s _ _ hs (by decide) fun hn => absurd hn (by decide)
  rw [powerV200, meets_bind, meets_get, meets_bind, meets_mustSend (by decide)]
  refine ⟨fun _ => ?_, fun _ => hsent⟩
  rw [meets_bind]
  refine (powerUp_asked (fun s h1 h2 => pollV200_asked h1 h2) powerUpWait 0 stack _ hsent rfl).mono (fun r t ht => ?_) fun _ _ h => h
  refine ⟨ht.1, fun hr => ?_⟩
  obtain ⟨hasked, hpower⟩ := ht.2 hr
  refine hasked.powered hpower ?_
  cases r.2.getLsbD 30 <;> simp

theorem powerMmc_powered (hs : AppOrdered s.log) (htype : s.type = .mmc) (stack : BitVec 32) :
    Meets (powerMmc answers stack) s (fun b t => AppOrdered t.log ∧ (b = true → Powered t)) (fun _ t => AppOrdered t.log) := by
  rw [powerMmc, meets_bind]
  refine (powerUp_asked (fun s h1 h2 => pollMmc_asked h1 h2) powerUpWait 0 stack s hs htype).mono (fun r t ht => ?_) fun _ _ h => h
  refine ⟨ht.1, fun hr => ?_⟩
  obtain ⟨hasked, hpower⟩ := ht.2 hr
  refine hasked.powered hpower ?_
  rw [hasked.type]
  cases r.2.getLsbD 30 <;> simp

/-! ## `MMC_IF_COND` に応じない SD -/

theorem Closed.powerUp (hI : Closed answers I) {poll : Ipl (BitVec 32)} (hpoll : Stable I poll) (n i : Nat) (stack : BitVec 32) :
    Stable I (powerUp answers poll n i stack) := by
  induction n generalizing i stack with
  | zero => exact .pure
  | succ n ih =>
      refine .bind hpoll fun rsp => .bind (fun s hs => ?_) fun _ => .ite .pure (ih (i + 1) rsp)
      exact (firstCheck_meets hI hs i rsp).mono (fun _ t ht => ht ▸ hs) fun _ _ h => h

theorem pollSdc_meets {Q : Sdmmc → Prop} (h : Q (s.sent answers sdSendOpCond (0x80000000 ||| s.ocr))) :
    Meets (pollSdc answers) s (fun _ t => Q t) (fun _ t => Q t) := by
  rw [pollSdc, meets_bind, meets_get, meets_mustSend (by decide)]
  exact ⟨fun _ => h, fun _ => h⟩

/-- `eSDC` の繰り返しは、`MMC_APP_CMD` なしに `SD_SEND_OP_COND` を送る。 -/
theorem powerSdc_disordered (hs : ¬ AfterApp s.log) (stack : BitVec 32) :
    Meets (powerSdc answers stack) s (fun _ t => ¬ AppOrdered t.log) (fun _ t => ¬ AppOrdered t.log) := by
  have hfirst := @pollSdc_meets answers s (fun t => ¬ AppOrdered t.log) (not_appOrdered (Or.inl rfl) hs)
  have hpoll : Stable (fun t => ¬ AppOrdered t.log) (pollSdc answers) := fun s hs => pollSdc_meets fun h => hs h.of_append
  rw [powerSdc, meets_bind, powerUpWait, powerUp, meets_bind]
  refine hfirst.mono (fun rsp t ht => ?_) fun _ _ h => h
  rw [meets_bind]
  refine (firstCheck_meets closed_not_ordered ht 0 rsp).mono (fun _ u hu => ?_) fun _ _ h => h
  rw [hu, meets_ite]
  refine ⟨fun _ => ht, fun _ => (closed_not_ordered.powerUp hpoll 39 1 rsp t ht).mono (fun _ u hu => hu) fun _ _ h => h⟩

/-! ## 種類の判定 -/

/-- 種類が決まった後の状態。 -/
structure Probed (answers : Nat → Answer) (s : Sdmmc) : Prop where
  ordered : AppOrdered s.log
  path : (¬ OldSdProbed answers ∧ (s.type = .sdcV200 ∨ s.type = .mmc)) ∨ (OldSdProbed answers ∧ s.type = .sdc ∧ ¬ AfterApp s.log)

/-- 二つの命令の成否が、種類を決める。 -/
theorem probe_meets {Q : PUnit → Sdmmc → Prop} {E : Unit → Sdmmc → Prop}
    (hnew : (answers s.log.length).ok = true → Q ⟨⟩ { s.sent answers mmcIfCond s.icr with type := .sdcV200 })
    (hold : (answers s.log.length).ok = false → (answers (s.log.length + 1)).ok = true →
      Q ⟨⟩ { (s.sent answers mmcIfCond s.icr).sent answers mmcAppCmd 0 with type := .sdc })
    (hmmc : (answers s.log.length).ok = false → (answers (s.log.length + 1)).ok = false →
      Q ⟨⟩ { (s.sent answers mmcIfCond s.icr).sent answers mmcAppCmd 0 with type := .mmc }) : Meets (probe answers) s Q E := by
  have hlen : (s.sent answers mmcIfCond s.icr).log.length = s.log.length + 1 := List.length_append
  rw [probe, meets_bind, meets_get, meets_bind, meets_sendCmd (by decide)]
  cases hif : (answers s.log.length).ok with
  | true => exact hnew hif
  | false =>
      rw [if_neg Bool.false_ne_true, meets_bind, meets_sendCmd (by decide), hlen]
      cases happ : (answers (s.log.length + 1)).ok with
      | true => exact hold hif happ
      | false => exact hmmc hif happ

/-- 二度目の `MMC_GO_IDLE_STATE` の後。 -/
theorem goIdle_probed {n : Nat} (hn : s.log.length = n) (hs : AppOrdered s.log)
    (hfail : (answers n).ok = false → ¬ OldSdProbed answers)
    (hpath : (answers n).ok = true →
      (¬ OldSdProbed answers ∧ (s.type = .sdcV200 ∨ s.type = .mmc)) ∨ (OldSdProbed answers ∧ s.type = .sdc)) :
    Meets (do let _ ← mustSend answers mmcGoIdleState 0 : Ipl PUnit) s (fun _ t => Probed answers t)
      (fun _ t => AppOrdered t.log ∧ ¬ OldSdProbed answers) := by
  subst hn
  have hsent : AppOrdered (s.sent answers mmcGoIdleState 0).log :=
    closed_ordered.sent s _ _ hs (by decide) fun hn => absurd hn (by decide)
  rw [meets_bind, meets_mustSend (by decide)]
  refine ⟨fun hok => ⟨hsent, ?_⟩, fun hok => ⟨hsent, hfail hok⟩⟩
  obtain hnew | ⟨hold, htype⟩ := hpath hok
  · exact Or.inl hnew
  · exact Or.inr ⟨hold, htype, not_afterApp_append (show mmcGoIdleState ≠ mmcAppCmd by decide)⟩

theorem probeCard_probed (answers : Nat → Answer) (icr ocr : BitVec 32) :
    Meets (probeCard answers) { icr, ocr } (fun _ t => Probed answers t) (fun _ t => AppOrdered t.log ∧ ¬ OldSdProbed answers) := by
  have hplain : ∀ (s : Sdmmc) cmd arg, ¬ NeedsApp cmd → AppOrdered s.log → AppOrdered (s.sent answers cmd arg).log :=
    fun s cmd arg hcmd hs => hs.append fun hn => absurd hn hcmd
  have hfirst : AppOrdered (({ icr, ocr } : Sdmmc).sent answers mmcGoIdleState 0).log := hplain _ _ _ (by decide) appOrdered_nil
  have hif := hplain _ mmcIfCond icr (by decide) hfirst
  have happ := hplain _ mmcAppCmd 0 (by decide) hif
  rw [probeCard, meets_bind, meets_modify, meets_bind, meets_mustSend (by decide)]
  refine ⟨fun h0 => ?_, fun h0 => ⟨hfirst, fun hold => Bool.noConfusion (hold.1.symm.trans h0)⟩⟩
  rw [meets_bind, meets_modify, meets_bind]
  refine probe_meets (fun h1 => ?_) (fun h1 h2 => ?_) fun h1 h2 => ?_
  · -- `MMC_IF_COND` に応じた
    have hnot : ¬ OldSdProbed answers := fun hold => Bool.noConfusion (hold.2.1.symm.trans h1)
    exact goIdle_probed rfl hif (fun _ => hnot) fun _ => Or.inl ⟨hnot, Or.inl rfl⟩
  · -- `MMC_APP_CMD` だけに応じた
    exact goIdle_probed (n := 3) rfl happ (fun h3 hold => Bool.noConfusion (hold.2.2.2.symm.trans h3)) fun h3 =>
      Or.inr ⟨⟨h0, h1, h2, h3⟩, rfl⟩
  · -- どちらにも応じない
    have hnot : ¬ OldSdProbed answers := fun hold => Bool.noConfusion (hold.2.2.1.symm.trans h2)
    exact goIdle_probed rfl happ (fun _ => hnot) fun _ => Or.inl ⟨hnot, Or.inr rfl⟩

/-! ## 全体 -/

theorem powerByType_powered (hs : AppOrdered s.log) (htype : s.type = .sdcV200 ∨ s.type = .mmc) (stack : BitVec 32) :
    Meets (powerByType answers stack) s (fun b t => AppOrdered t.log ∧ (b = true → Powered t)) (fun _ t => AppOrdered t.log) := by
  rw [powerByType, meets_bind, meets_get]
  rcases htype with htype | htype
  · rw [htype]
    exact powerV200_powered hs stack
  · rw [htype]
    exact powerMmc_powered hs htype stack

/-- 古い SD でなければ、手順が守られ、成功すれば電源が入っている。 -/
theorem initCard_right (hold : ¬ OldSdProbed answers) (stack icr ocr : BitVec 32) :
    Meets (sdmmcInitCard answers stack) { icr, ocr } (fun _ t => AppOrdered t.log ∧ Powered t) (fun _ t => AppOrdered t.log) := by
  rw [sdmmcInitCard, meets_bind]
  refine (probeCard_probed answers icr ocr).mono (fun _ t ht => ?_) fun _ _ h => h.1
  have htype := (ht.path.resolve_right fun h => hold h.1).2
  rw [meets_bind]
  refine (powerByType_powered ht.ordered htype stack).mono (fun b u hu => ?_) fun _ _ h => h
  rw [meets_ite]
  exact ⟨fun hb => (closed_powered.identify u ⟨hu.1, hu.2 hb⟩).mono (fun _ _ h => h) fun _ _ h => h.1, fun _ => hu.1⟩

/-- 古い SD では、手順が守られない。 -/
theorem initCard_disordered (hold : OldSdProbed answers) (stack icr ocr : BitVec 32) :
    Meets (sdmmcInitCard answers stack) { icr, ocr } (fun _ t => ¬ AppOrdered t.log) (fun _ t => ¬ AppOrdered t.log) := by
  rw [sdmmcInitCard, meets_bind]
  refine (probeCard_probed answers icr ocr).mono (fun _ t ht => ?_) fun _ _ h => absurd hold h.2
  obtain ⟨-, htype, hafter⟩ := ht.path.resolve_left fun h => h.1 hold
  rw [meets_bind, powerByType, meets_bind, meets_get, htype]
  refine (powerSdc_disordered hafter stack).mono (fun b u hu => ?_) fun _ _ h => h
  rw [meets_ite]
  exact ⟨fun _ => closed_not_ordered.identify u hu, fun _ => hu⟩

theorem finalLog_of_meets {P : List Sent → Prop} {stack icr ocr : BitVec 32}
    (h : Meets (sdmmcInitCard answers stack) { icr, ocr } (fun _ t => P t.log) (fun _ t => P t.log)) :
    P (finalLog answers stack icr ocr) := by
  unfold Meets at h
  unfold finalLog
  split at h
  · rename_i heq
    rw [heq]
    exact h
  · rename_i heq
    rw [heq]
    exact h

/-- 識別が手順に従うのは、古い SD と判定されないときに限る。 -/
theorem identifies_right_iff (answers : Nat → Answer) (stack icr ocr : BitVec 32) :
    IdentifiesRight answers stack icr ocr ↔ ¬ OldSdProbed answers := by
  constructor
  · intro h hold
    have hbad := finalLog_of_meets (P := fun l => ¬ AppOrdered l) (initCard_disordered hold stack icr ocr)
    exact hbad h.ordered
  · intro hold
    have h := initCard_right hold stack icr ocr
    have hord := finalLog_of_meets (P := AppOrdered) (h.mono (fun _ _ ht => ht.1) fun _ _ ht => ht)
    exact ⟨hord, fun s hs => (h.of_ok hs).2⟩

end

/-- `MMC_IF_COND` だけに応じず、いつも電源が入っていると答えるカード。 -/
def oldSd : Nat → Answer := fun n => ⟨n ≠ 1, 0x80300000⟩

/-- そのカードでは、`MMC_GO_IDLE_STATE` のすぐ後に `SD_SEND_OP_COND` が送られる。 -/
theorem not_identifies_right : ¬ ∀ (answers : Nat → Answer) (stack icr ocr : BitVec 32), IdentifiesRight answers stack icr ocr := by
  intro h
  have hold : OldSdProbed oldSd := ⟨by decide, by decide, by decide, by decide⟩
  have hbad := finalLog_of_meets (P := fun l => ¬ AppOrdered l) (initCard_disordered hold 0 0x1aa 0x00300000)
  exact hbad (h oldSd 0 0x1aa 0x00300000).ordered

end Imx6Bsp.Boot.Sd
