import Imx6Bsp.Flash.Amd
import Imx6Bsp.Flash.Lemmas.AmdWrite

/-!
# 一語ずつの書き込みの補題

命令の番地の DQ7 が書いた値と同じ語は書き終わり、違う語で止まる。
-/

namespace Imx6Bsp.Flash

open Imx6Bsp.Lib

namespace WriteSpec

variable {s : WriteSpec} {k command : Nat} {r : AmdRegs}

/-- 状態を読む語の番号。 -/
def polled (s : WriteSpec) : Nat := (s.offset &&& s.env.part.cfg.commandMask) / s.width

/-- 一語を書く命令の後。 -/
def wordSend (env : AmdEnv) (command : Nat) (r : AmdRegs) : AmdRegs :=
  { r with
    bus := ((r.bus.unlock env.part command).send env.part (command + env.part.cfg.amdCmd1) 0xA0).write env.part r.memory r.value
    unlock := false }

theorem Ready.wordSend (h : s.Ready k r) (hunlock : r.unlock = false) (hc : s.env.part.cfg.AtCommand command)
    (hvalue : ∀ j < 8 * s.width, r.value.getLsbD j = s.bit (s.base + k) j) :
    s.Sending k 1 [(s.base + k, r.value)] r (wordSend s.env command r) := by
  have hmode : r.bus.All s.env.part .read := by
    have hm := h.mode
    rw [hunlock] at hm
    exact hm
  have hprogram : ((r.bus.unlock s.env.part command).send s.env.part (command + s.env.part.cfg.amdCmd1) 0xA0).All s.env.part
      (if false then .bypassProgram else .program) := hmode.program hc
  exact h.send hprogram rfl hvalue

/-- 書かれる語の書き込み。 -/
theorem wordWriteProgram_send (hunlock : r.unlock = false) (hskip : r.value ≠ BitVec.allOnes 64) :
    wordWriteProgram s.env command r = (wordSend s.env command r).poll s.env command false := by
  unfold wordWriteProgram wordSend
  dsimp only
  rw [if_neg hskip, ← hunlock]

/-- 状態を読む番地の DQ7 は、`Visible` の左辺である。 -/
theorem Sending.polled_bit (hs : s.Healthy) {data : List (Nat × BitVec 64)} {r' : AmdRegs} (h : s.Sending k 1 data r r') (hr : s.Progress k r)
    {i : Nat} (hi : i < s.env.part.cfg.chipInter) :
    s.env.part.cfg.bit ((r'.bus.settle s.env.part (s.env.ops r'.op)).array s.polled) i 7 =
      s.upto (k + 1) s.polled (8 * s.env.part.cfg.deviceWidth * i + 7) :=
  h.settled hr (fun i hi => hs.outcome _ i hi) s.polled (s.dq7_lt hi)

theorem Ready.wordWrite (hs : s.Healthy) (h : s.Ready k r) (hunlock : r.unlock = false) (hleft : 0 < r.left)
    (hvalue : ∀ j < 8 * s.width, r.value.getLsbD j = s.bit (s.base + k) j) (hvisible : ¬s.Skips k → s.Visible s.polled k) :
    ∃ r', wordWriteProgram s.env (s.offset &&& s.env.part.cfg.commandMask) r = some (true, r') ∧
      s.Wrote (k + 1) { r' with left := r'.left - s.env.part.cfg.busWidth } ∧ r'.unlock = false := by
  by_cases hskip : r.value = BitVec.allOnes 64
  · exact ⟨r, if_pos hskip, h.skipped ((h.skip_iff hvalue).mp hskip), hunlock⟩
  · have hsend := h.wordSend hunlock (s.env.part.cfg.atCommand hs.offset_lt) hvalue
    have hl := h.left
    have hop := h.op_lt (show k * s.width < s.length by omega)
    have hseen := hvisible fun hs' => hskip ((h.skip_iff hvalue).mpr hs')
    rw [wordWriteProgram_send hunlock hskip]
    refine ⟨_, poll_eq (hsend.busy.poll false (fun i hi => hs.outcome _ i hi) (fun i hi => hs.duration r.op hop i hi) fun i hi =>
      (hsend.polled_bit hs h.toProgress hi).trans ((hseen i hi).trans (hvalue _ (s.dq7_lt hi)).symm)), hsend.wrote h.toProgress (fun i hi => hs.outcome _ i hi) ?_, rfl⟩
    have hwidth : s.width = s.env.part.cfg.busWidth := rfl
    dsimp only [Flash.WriteSpec.wordSend]
    rw [Nat.succ_mul]
    omega

/-- 命令の番地の DQ7 が違えば、失敗するか、終わらない。 -/
theorem Ready.wordWrite_stops (hs : s.Healthy) (h : s.Ready k r) (hunlock : r.unlock = false) (hleft : 0 < r.left)
    (hvalue : ∀ j < 8 * s.width, r.value.getLsbD j = s.bit (s.base + k) j) (hskip : ¬s.Skips k) (hvisible : ¬s.Visible s.polled k) :
    wordWriteProgram s.env (s.offset &&& s.env.part.cfg.commandMask) r = none ∨
      ∃ r', wordWriteProgram s.env (s.offset &&& s.env.part.cfg.commandMask) r = some (false, r') := by
  have hsend := h.wordSend hunlock (s.env.part.cfg.atCommand hs.offset_lt) hvalue
  have hl := h.left
  have hop := h.op_lt (show k * s.width < s.length by omega)
  rw [Visible] at hvisible
  push Not at hvisible
  obtain ⟨i, hi, hne⟩ := hvisible
  rw [wordWriteProgram_send hunlock fun hones => hskip ((h.skip_iff hvalue).mp hones)]
  refine (hsend.busy.poll_wrong false (fun i hi => hs.outcome _ i hi) (fun i hi => hs.duration r.op hop i hi) hi fun heq =>
    hne ((hsend.polled_bit hs h.toProgress hi).symm.trans (heq.trans (hvalue _ (s.dq7_lt hi))))).imp (fun hnone => ?_) fun hfail =>
      ⟨_, poll_eq hfail⟩
  rw [AmdRegs.poll]
  exact congrArg (Option.map _) hnone

/-- 最初に違う語で、ループは止まる。 -/
theorem Ready.wordWrite_loop (hs : s.Healthy) {bad : Nat} (hbad : bad * s.width < s.length) (hskip : ¬s.Skips bad)
    (hvisible : ¬s.Visible s.polled bad) (hfirst : ∀ k < bad, ¬s.Skips k → s.Visible s.polled k) (fuel : Nat) (h : s.Ready k r)
    (hk : k ≤ bad) (hunlock : r.unlock = false) :
    Flash.wordLoop s.env (wordWriteProgram s.env (s.offset &&& s.env.part.cfg.commandMask)) fuel r = none ∨
      ∃ r', Flash.wordLoop s.env (wordWriteProgram s.env (s.offset &&& s.env.part.cfg.commandMask)) fuel r = some (false, r') := by
  induction fuel generalizing k r with
  | zero => exact .inl rfl
  | succ fuel ih =>
      have hmul := Nat.mul_le_mul_right s.width hk
      have hl := h.left
      have hleft : 0 < r.left := by omega
      obtain ⟨hready, hvalue⟩ := h.padTail hleft hs.pad_lt
      have hsame : (Flash.padTail s.env r).left = r.left := hready.left.trans h.left.symm
      have hkeep : (Flash.padTail s.env r).unlock = r.unlock := by
        unfold Flash.padTail
        dsimp only
        split <;> rfl
      rw [Flash.wordLoop, if_pos hleft]
      rcases Nat.lt_or_eq_of_le hk with hlt | rfl
      · obtain ⟨r', hword, hwrote, hunlock'⟩ := hready.wordWrite hs (hkeep.trans hunlock) (hsame.symm ▸ hleft) hvalue (hfirst k hlt)
        have hnext : (k + 1) * s.width ≤ bad * s.width := Nat.mul_le_mul_right s.width hlt
        have hl' := hwrote.left
        rw [hword]
        dsimp only at hl' ⊢
        rw [if_pos (by omega)]
        exact ih (hwrote.advance (Nat.succ_pos k) (Int.le_refl _) (Int.min_le_left _ _)) hlt hunlock'
      · rcases hready.wordWrite_stops hs (hkeep.trans hunlock) (hsame.symm ▸ hleft) hvalue hskip hvisible with hnone | ⟨r', hfail⟩
        · rw [hnone]
          exact .inl rfl
        · rw [hfail]
          exact .inr ⟨r', rfl⟩

/-! ## 二つの書き込み -/

theorem Programmable.reports (h : s.Programmable) : s.Reports := fun _ _ _ _ hi hbit => h _ _ (s.dq7_lt hi) hbit

theorem Programmable.exact (h : s.Programmable) : s.Exact := by
  intro q hq b hb hset
  have hmod := Nat.mod_lt (s.offset + q) s.width_pos
  exact h _ _ (by omega) ((bit_byte hq hb).trans hset)

/-- 書いた語の DQ7 が見えれば、範囲の全体を書いて返る。 -/
theorem amdV2WordWrite_visible (hs : s.Healthy) (hexact : s.Exact) {bus : AmdBus} (hold : bus.array = s.old)
    (hmode : bus.All s.env.part .read) (hvisible : s.PollsVisible) {size : Int}
    (hgrant : s.env.page (s.base * s.width) (size + s.pad) = some (s.length : Int)) (verify : Bool) :
    ∃ bus', amdV2WordWrite s.env bus verify s.offset size s.stack = some (.done s.size, bus') ∧ s.Written bus'.array := by
  have hstart := start_buffering hold hmode
  have hleft : (writeStart s.env bus s.offset s.length s.stack).left = s.length := rfl
  have hlen := hs.pad_lt
  have hfuel := hs.fuel
  have hprogram : ∀ k r, s.Ready k r → 0 < r.left → (∀ j < 8 * s.width, r.value.getLsbD j = s.bit (s.base + k) j) → r.unlock = false →
      ∃ r', wordWriteProgram s.env (s.offset &&& s.env.part.cfg.commandMask) r = some (true, r') ∧
        s.Wrote (k + 1) { r' with left := r'.left - s.env.part.cfg.busWidth } ∧ r'.unlock = false := by
    intro k r h hl hv hunlock
    have hk := h.left
    exact h.wordWrite hs hunlock hl hv (hvisible k (by omega))
  obtain ⟨r, k, hloop, hwrote, hdone⟩ : ∃ r k, Flash.wordLoop s.env (wordWriteProgram s.env (s.offset &&& s.env.part.cfg.commandMask))
      s.env.fuel (writeStart s.env bus s.offset s.length s.stack) = some (true, r) ∧ s.Wrote k r ∧ r.left ≤ 0 :=
    hstart.toReady.wordLoop (I := fun u => u = false) hlen (fun k' r' _ => hprogram k' r') hstart.unlock (by omega) (by omega)
  have hwritten := hwrote.written hdone hlen
  have hverify := (hwrote.verify_iff hlen hwrote.mode (readable_mode _) hwritten).mpr hexact
  have hsize : (s.length : Int) - s.pad = s.size := by
    rw [WriteSpec.size]
    omega
  refine ⟨r.bus, ?_, hwritten⟩
  unfold amdV2WordWrite
  dsimp only
  rw [s.land_width, s.start_memory, hgrant]
  dsimp only
  rw [hloop]
  dsimp only
  rw [if_neg (fun h => h.2 hverify), hsize]

/-- 見えない語があれば、失敗するか、終わらない。 -/
theorem amdV2WordWrite_stops (hs : s.Healthy) {bus : AmdBus} (hold : bus.array = s.old) (hmode : bus.All s.env.part .read)
    (hvisible : ¬s.PollsVisible) {size : Int} (hgrant : s.env.page (s.base * s.width) (size + s.pad) = some (s.length : Int))
    (verify : Bool) :
    amdV2WordWrite s.env bus verify s.offset size s.stack = none ∨
      ∃ bus', amdV2WordWrite s.env bus verify s.offset size s.stack = some (.programError, bus') := by
  have hstart := start_buffering hold hmode
  rw [PollsVisible] at hvisible
  push Not at hvisible
  classical
  obtain ⟨bad, ⟨hbad, hskip, hwrong⟩, hfirst⟩ := Nat.findX hvisible
  have hbefore : ∀ k < bad, ¬s.Skips k → s.Visible s.polled k := by
    intro k hk hskip'
    by_contra hnot
    exact hfirst k hk ⟨(Nat.mul_le_mul_right _ hk.le).trans_lt hbad, hskip', hnot⟩
  unfold amdV2WordWrite
  dsimp only
  rw [s.land_width, s.start_memory, hgrant]
  dsimp only
  rcases Ready.wordWrite_loop hs hbad hskip hwrong hbefore s.env.fuel hstart.toReady (Nat.zero_le bad) hstart.unlock with
    hnone | ⟨r, hfail⟩
  · rw [hnone]
    exact .inl rfl
  · rw [hfail]
    exact .inr ⟨r.bus, rfl⟩

theorem not_agrees (hs : s.Healthy) (hprog : s.Programmable) {bus : AmdBus} (hold : bus.array = s.old)
    (hmode : bus.All s.env.part .read) {size : Int} (hcommand : s.env.page (s.offset &&& s.env.part.cfg.commandMask) 0 ≠ none)
    (hgrant : s.env.page (s.base * s.width) (size + s.pad) = some (s.length : Int)) (verify : Bool) (hvisible : ¬s.PollsVisible) :
    ¬s.Agrees bus verify size := by
  rintro ⟨x, y, hx, hy, hret, -⟩
  obtain ⟨bus', hwrite, -, -⟩ := aCFIv2Write_spec hs hprog.reports hold hmode hcommand hgrant verify
  rw [exit, if_neg (fun h => h.2 hprog.exact)] at hwrite
  obtain rfl := Option.some.inj (hwrite.symm.trans hy)
  rcases amdV2WordWrite_stops hs hold hmode hvisible hgrant verify with hnone | ⟨bus₁, hfail⟩
  · cases hnone.symm.trans hx
  · obtain rfl := Option.some.inj (hfail.symm.trans hx)
    have hret : (-1 : Int) = s.size := hret
    omega

/-- 二つの書き込みが一致するのは、書くどの語の後にも、状態を読む語の DQ7 が書いた値と同じになるときである。 -/
theorem word_write_agrees_iff (hs : s.Healthy) (hprog : s.Programmable) {bus : AmdBus} (hold : bus.array = s.old)
    (hmode : bus.All s.env.part .read) {size : Int} (hcommand : s.env.page (s.offset &&& s.env.part.cfg.commandMask) 0 ≠ none)
    (hgrant : s.env.page (s.base * s.width) (size + s.pad) = some (s.length : Int)) (verify : Bool) :
    s.Agrees bus verify size ↔ s.PollsVisible := by
  constructor
  · intro hagree
    by_contra hvisible
    exact not_agrees hs hprog hold hmode hcommand hgrant verify hvisible hagree
  · intro hvisible
    obtain ⟨bus', hwrite, -, hwritten⟩ := aCFIv2Write_spec hs hprog.reports hold hmode hcommand hgrant verify
    rw [exit, if_neg (fun h => h.2 hprog.exact)] at hwrite
    obtain ⟨bus₁, hword, hwritten₁⟩ := amdV2WordWrite_visible hs hprog.exact hold hmode hvisible hgrant verify
    exact ⟨_, _, hword, hwrite, rfl, fun w j hj => (hwritten₁ w j hj).trans (hwritten w j hj).symm⟩

/-- 16 ビットの一つのチップに、`0x100` から二バイトの 0 を書く。 -/
def clearWord : WriteSpec where
  env :=
    { part := wordPart
      page := fun _ size => some size
      buf := fun _ => 0
      ops := fun _ _ => {}
      fuel := 10 }
  old _ := BitVec.allOnes 64
  offset := 0x100
  length := 2
  stack := 0

theorem clearWord_healthy : clearWord.Healthy where
  outcome _ _ _ := rfl
  duration _ _ _ _ := (by decide : 0 < 10)
  fuel := by decide
  pad_lt := by decide
  offset_lt := by decide

theorem clearWord_programmable : clearWord.Programmable := by
  intro w j hj _
  have hj : j < 16 := hj
  exact BitVec.getLsbD_allOnes.trans (decide_eq_true (by omega))

theorem word_write_agrees_iff_sample : clearWord.Agrees erasedBus true 2 ↔ clearWord.PollsVisible :=
  word_write_agrees_iff clearWord_healthy clearWord_programmable rfl (fun _ _ => rfl) (by decide) rfl true

/-- 命令の番地の語が消えたままなので、0 を書くと DQ7 が揃わない。 -/
theorem word_write_differs : ¬ ∀ (s : WriteSpec) (bus : AmdBus) (verify : Bool) (size : Int), s.Healthy → s.Programmable →
    bus.array = s.old → bus.All s.env.part .read → s.env.page (s.offset &&& s.env.part.cfg.commandMask) 0 ≠ none →
      s.env.page (s.base * s.width) (size + s.pad) = some (s.length : Int) → s.Agrees bus verify size := by
  intro h
  refine not_agrees clearWord_healthy clearWord_programmable rfl (fun _ _ => rfl) (by decide) rfl true (fun hvisible => ?_)
    (h clearWord erasedBus true 2 clearWord_healthy clearWord_programmable rfl (fun _ _ => rfl) (by decide) rfl)
  have hskip : ¬clearWord.Skips 0 := fun hs => absurd (hs.1 0 (by decide)) (by decide)
  exact absurd (hvisible 0 (by decide) hskip 0 (by decide)) (by decide)

end WriteSpec

/-! ## 失敗した書き込みの後の状態

書き込みバッファと一語ずつの書き込みの後始末は、配列を読める状態に戻す。アンロックバイパスの間の後始末は、そこから抜けない。 -/

namespace WriteSpec

variable {s : WriteSpec} {k lo command : Nat} {r : AmdRegs}

/-! ### 一語ずつのループ -/

/-- `lo` 番目から `k` 番目より前の語で、アンロックバイパスに入る。 -/
def Enters (s : WriteSpec) (lo k : Nat) : Prop := ∃ m, lo ≤ m ∧ m < k ∧ s.LongWord m

theorem enters_succ (hlo : lo ≤ k) : s.Enters lo (k + 1) ↔ s.Enters lo k ∨ s.LongWord k := by
  constructor
  · rintro ⟨m, hm, hlt, hlong⟩
    rcases Nat.lt_succ_iff_lt_or_eq.mp hlt with h | rfl
    · exact .inl ⟨m, hm, h, hlong⟩
    · exact .inr hlong
  · rintro (⟨m, hm, hlt, hlong⟩ | hlong)
    · exact ⟨m, hm, Nat.lt_succ_of_lt hlt, hlong⟩
    · exact ⟨k, hlo, Nat.lt_succ_self k, hlong⟩

/-- 書く語より前に入るかどうかで、入るかどうかが決まる。 -/
theorem enters_iff {m : Nat} (hskip : ¬s.Skips m) (hlo : lo ≤ m) : s.Enters lo (m + 1) ↔ ∃ k, lo ≤ k ∧ s.LongWord k := by
  constructor
  · rintro ⟨k, hk, -, hlong⟩
    exact ⟨k, hk, hlong⟩
  · rintro ⟨k, hk, hlong⟩
    rcases Nat.lt_or_ge m k with hlt | hge
    · have hmul := Nat.mul_le_mul_right s.width hlt.le
      have hlen := hlong.2
      exact ⟨m, hlo, Nat.lt_succ_self m, hskip, by omega⟩
    · exact ⟨k, hk, Nat.lt_succ_of_le hge, hlong⟩

theorem unlockAfter_iff (h : s.Ready k r) (hlo : lo ≤ k) (hunlock : r.unlock = true ↔ s.Enters lo k) (hskip : ¬s.Skips k) :
    unlockAfter s.env r = true ↔ s.Enters lo (k + 1) := by
  have hl := h.left
  have hwidth : s.width = s.env.part.cfg.busWidth := rfl
  rw [unlockAfter, Bool.or_eq_true, hunlock, decide_eq_true_iff, enters_succ hlo, LongWord]
  refine or_congr_right ⟨fun hlt => ⟨hskip, by omega⟩, fun hlong => ?_⟩
  have hlen := hlong.2
  omega

/-- 失敗した語が、アンロックバイパスの中にあるかどうか。 -/
theorem Ready.wordLoop_error (hc : s.env.part.cfg.AtCommand command) (hpad : s.pad < s.length) {fuel : Nat} {r' : AmdRegs} (h : s.Ready k r)
    (hlo : lo ≤ k) (hunlock : r.unlock = true ↔ s.Enters lo k)
    (hrun : Flash.wordLoop s.env (Flash.programWord s.env command) fuel r = some (false, r')) :
    ∃ m unlock, lo ≤ m ∧ ¬s.Skips m ∧ (unlock = true ↔ s.Enters lo (m + 1)) ∧
      r'.bus.All s.env.part (if unlock then .bypass else .read) := by
  induction fuel generalizing k r with
  | zero => cases hrun
  | succ fuel ih =>
      rw [Flash.wordLoop] at hrun
      by_cases hleft : r.left > 0
      · rw [if_pos hleft] at hrun
        obtain ⟨hready, hvalue⟩ := h.padTail hleft hpad
        have hkeep : (Flash.padTail s.env r).unlock = r.unlock := by
          unfold Flash.padTail
          dsimp only
          split <;> rfl
        have hunlock' : (Flash.padTail s.env r).unlock = true ↔ s.Enters lo k := by rw [hkeep, hunlock]
        cases hword : Flash.programWord s.env command (Flash.padTail s.env r) with
        | none =>
            rw [hword] at hrun
            cases hrun
        | some x =>
            obtain ⟨ok, r₁⟩ := x
            obtain ⟨hok, hfail⟩ := hready.programWord_some hc hvalue hword
            rw [hword] at hrun
            cases ok with
            | false =>
                obtain ⟨hskip, hmode⟩ := hfail rfl
                cases hrun
                exact ⟨k, _, hlo, hskip, unlockAfter_iff hready hlo hunlock' hskip, hmode⟩
            | true =>
                obtain ⟨hwrote, hkept⟩ := hok rfl
                have hnext : r₁.unlock = true ↔ s.Enters lo (k + 1) := by
                  rw [hkept]
                  by_cases hskip : (Flash.padTail s.env r).value = BitVec.allOnes 64
                  · rw [if_pos hskip, hunlock', enters_succ hlo]
                    exact ⟨.inl, fun h' => h'.resolve_right fun hlong => hlong.1 ((hready.skip_iff hvalue).mp hskip)⟩
                  · rw [if_neg hskip]
                    exact unlockAfter_iff hready hlo hunlock' fun hs => hskip ((hready.skip_iff hvalue).mpr hs)
                dsimp only at hrun
                by_cases hmore : r₁.left - s.env.part.cfg.busWidth > 0
                · rw [if_pos hmore] at hrun
                  exact ih (hwrote.advance (Nat.succ_pos k) (Int.le_refl _) (Int.min_le_left _ _)) (hlo.trans (Nat.le_succ k)) hnext hrun
                · rw [if_neg hmore] at hrun
                  cases fuel with
                  | zero => cases hrun
                  | succ fuel =>
                      rw [Flash.wordLoop, if_neg hmore] at hrun
                      cases hrun
      · rw [if_neg hleft] at hrun
        cases hrun

/-! ### 書き込みバッファのループ -/

theorem Buffering.loop_some (hc : s.env.part.cfg.AtCommand command) (hbig : s.width < s.env.part.bufferSize) {fuel : Nat} {ok : Bool}
    {r' : AmdRegs} (h : s.Buffering k r) (hleft : (s.width : Int) ≤ r.left)
    (hrun : bufferLoop s.env command fuel r = some (ok, r')) :
    (ok = true → r'.unlock = false ∧ r'.left < s.width ∧ (0 < r'.left → ∃ k', s.Ready k' r')) ∧
      (ok = false → r'.bus.All s.env.part .read) := by
  have hbus : s.width = s.env.part.cfg.busWidth := rfl
  induction fuel generalizing k r with
  | zero => cases hrun
  | succ fuel ih =>
      rw [bufferLoop, if_pos (show r.left ≥ (s.env.part.cfg.busWidth : Int) from hleft)] at hrun
      cases hchunk : bufferChunk s.env command r with
      | none =>
          rw [hchunk] at hrun
          cases hrun
      | some x =>
          obtain ⟨ok', r₂⟩ := x
          obtain ⟨hok, hfail⟩ := h.chunk_some hc hbig hleft hchunk
          rw [hchunk] at hrun
          cases ok' with
          | false =>
              cases hrun
              exact ⟨fun h => Bool.noConfusion h, hfail⟩
          | true =>
              obtain ⟨r₁, k₁, rfl, hbuffered, hoffset, hnonneg, hlt⟩ := hok rfl
              dsimp only at hrun
              by_cases hmore : r₁.left ≥ (s.env.part.cfg.busWidth : Int)
              · rw [if_pos hmore] at hrun
                have hready : s.Buffering k₁ (r₁.advance s.env s.env.part.cfg.busWidth) :=
                  { hbuffered.toWrote.advance hbuffered.pos (by omega) (Int.le_refl _) with unlock := hbuffered.unlock, offset := hoffset }
                exact ih hready hmore hrun
              · rw [if_neg hmore] at hrun
                cases fuel with
                | zero => cases hrun
                | succ fuel =>
                    rw [bufferLoop, if_neg hmore] at hrun
                    by_cases hzero : r₁.left = 0
                    · rw [if_neg (not_not.mpr hzero)] at hrun
                      cases hrun
                      exact ⟨fun _ => ⟨hbuffered.unlock, by omega, fun hpos => by omega⟩, fun h => Bool.noConfusion h⟩
                    · rw [if_pos hzero] at hrun
                      cases hrun
                      exact ⟨fun _ => ⟨hbuffered.unlock, Int.not_le.mp hmore, fun _ =>
                        ⟨k₁, hbuffered.toWrote.advance hbuffered.pos (by omega) (by omega)⟩⟩, fun h => Bool.noConfusion h⟩

/-! ### 後始末の後 -/

/-- 失敗したループの後のチップの状態。 -/
theorem writeLoops_error (hc : s.env.part.cfg.AtCommand command) (hpad : s.pad < s.length) {bus : AmdBus} (hold : bus.array = s.old)
    (hmode : bus.All s.env.part .read) {r : AmdRegs}
    (hrun : writeLoops s.env command (writeStart s.env bus s.offset s.length s.stack) = some (false, r)) :
    ∃ unlock, r.bus.All s.env.part (if unlock then .bypass else .read) ∧ (unlock = true ↔ s.UsesBypass) := by
  have hstart := start_buffering hold hmode
  have hwidth : s.width = s.env.part.cfg.busWidth := rfl
  rw [writeLoops, show (writeStart s.env bus s.offset s.length s.stack).left = s.length from rfl] at hrun
  by_cases hbuffer : UsesBuffer s.env.part s.length
  · have hnever : ¬s.UsesBypass := fun h => h.1 hbuffer
    have hbig := hbuffer.1
    have hfull : (s.width : Int) ≤ (writeStart s.env bus s.offset s.length s.stack).left := by
      have h := hbuffer.2
      show (s.width : Int) ≤ s.length
      omega
    rw [if_pos hbuffer] at hrun
    refine ⟨false, ?_, iff_of_false Bool.false_ne_true hnever⟩
    cases hloop : bufferLoop s.env command s.env.fuel (writeStart s.env bus s.offset s.length s.stack) with
    | none =>
        rw [hloop] at hrun
        cases hrun
    | some x =>
        obtain ⟨ok, r₁⟩ := x
        obtain ⟨hok, hfail⟩ := Buffering.loop_some hc (by omega) hstart hfull hloop
        rw [hloop] at hrun
        cases ok with
        | false =>
            cases hrun
            exact hfail rfl
        | true =>
            obtain ⟨hunlock, hshort, hready⟩ := hok rfl
            dsimp only at hrun
            by_cases hpos : 0 < r₁.left
            · obtain ⟨k, hk⟩ := hready hpos
              have hl := hk.left
              -- 残りは一語に満たない。
              have hnone : ∀ m, ¬s.Enters k m := by
                rintro m ⟨j, hj, -, hlong⟩
                have hmul := Nat.mul_le_mul_right s.width hj
                have hlen := hlong.2
                omega
              obtain ⟨m, unlock, -, -, hiff, hall⟩ :=
                hk.wordLoop_error hc hpad (Nat.le_refl k) (iff_of_false (by rw [hunlock]; exact Bool.false_ne_true) (hnone k)) hrun
              rw [if_neg fun hu => hnone _ (hiff.mp hu)] at hall
              exact hall
            · cases hfuel : s.env.fuel with
              | zero =>
                  rw [hfuel] at hrun
                  cases hrun
              | succ fuel =>
                  rw [hfuel, Flash.wordLoop, if_neg hpos] at hrun
                  cases hrun
  · rw [if_neg hbuffer] at hrun
    have hnone : ¬s.Enters 0 0 := by
      rintro ⟨m, -, hm, -⟩
      exact absurd hm (Nat.not_lt_zero m)
    obtain ⟨m, unlock, -, hskip, hiff, hall⟩ :=
      hstart.toReady.wordLoop_error hc hpad (Nat.le_refl 0) (iff_of_false (by rw [hstart.unlock]; exact Bool.false_ne_true) hnone) hrun
    refine ⟨unlock, hall, hiff.trans ((enters_iff hskip (Nat.zero_le m)).trans ?_)⟩
    rw [UsesBypass, and_iff_right hbuffer]
    exact exists_congr fun k => and_iff_right (Nat.zero_le k)

theorem writeFinish_ne (env : AmdEnv) (command : Nat) (verify : Bool) (size : Int) (r : AmdRegs) :
    (writeFinish env command verify size r).1 ≠ .programError := by
  unfold writeFinish
  dsimp only
  generalize (if r.unlock = true then _ else r) = r₁
  split
  · exact fun h => by cases h
  · exact fun h => by cases h

/-- 失敗して返ったときのチップの状態。 -/
theorem writeError_mode (hoffset : s.offset < 2 ^ 32) (hpad : s.pad < s.length) {bus bus' : AmdBus} (hold : bus.array = s.old)
    (hmode : bus.All s.env.part .read) {size : Int} (hgrant : s.env.page (s.base * s.width) (size + s.pad) = some (s.length : Int))
    {verify : Bool} (hrun : aCFIv2Write s.env bus verify s.offset size s.stack = some (.programError, bus')) :
    ∃ unlock, bus'.All s.env.part (if unlock then .bypass else .read) ∧ (unlock = true ↔ s.UsesBypass) := by
  unfold aCFIv2Write at hrun
  dsimp only at hrun
  rw [s.land_width, s.start_memory, hgrant] at hrun
  cases hcommand : s.env.page (s.offset &&& s.env.part.cfg.commandMask) 0 with
  | none =>
      rw [hcommand] at hrun
      cases hrun
  | some granted =>
      rw [hcommand] at hrun
      dsimp only at hrun
      cases hloops : writeLoops s.env (s.offset &&& s.env.part.cfg.commandMask) (writeStart s.env bus s.offset s.length s.stack) with
      | none =>
          rw [hloops] at hrun
          cases hrun
      | some x =>
          obtain ⟨ok, r⟩ := x
          rw [hloops] at hrun
          cases ok with
          | false =>
              obtain ⟨-, rfl⟩ := Prod.mk.inj (Option.some.inj hrun)
              exact writeLoops_error (s.env.part.cfg.atCommand hoffset) hpad hold hmode hloops
          | true =>
              exact absurd (congrArg Prod.fst (Option.some.inj hrun)) (writeFinish_ne _ _ _ _ _)

/-- 失敗した書き込みが配列を読める状態で返るのは、アンロックバイパスに入らないときである。 -/
theorem write_error_readable_iff (hoffset : s.offset < 2 ^ 32) (hpad : s.pad < s.length) {bus bus' : AmdBus} (hold : bus.array = s.old)
    (hmode : bus.All s.env.part .read) {size : Int} (hgrant : s.env.page (s.base * s.width) (size + s.pad) = some (s.length : Int))
    {verify : Bool} (hrun : aCFIv2Write s.env bus verify s.offset size s.stack = some (.programError, bus')) :
    bus'.All s.env.part .read ↔ ¬s.UsesBypass := by
  obtain ⟨unlock, hall, hiff⟩ := writeError_mode hoffset hpad hold hmode hgrant hrun
  rw [← hiff]
  cases unlock with
  | true =>
      refine iff_of_false (fun hread => ?_) (not_not.mpr rfl)
      cases (hall 0 s.env.part.cfg.inter_pos).symm.trans (hread 0 s.env.part.cfg.inter_pos)
  | false => exact iff_of_true hall Bool.false_ne_true

/-- 16 ビットの一つのチップに、先頭から六バイトの 0 を書く。最初の語が時間切れになる。 -/
def failedWord : WriteSpec where
  env :=
    { part := wordPart
      page := fun _ size => some size
      buf := fun _ => 0
      ops := fun _ _ => { outcome := .timeout }
      fuel := 10 }
  old _ := BitVec.allOnes 64
  offset := 0
  length := 6
  stack := 0

theorem failedWord_run : (aCFIv2Write failedWord.env erasedBus false failedWord.offset 6 failedWord.stack).map Prod.fst = some .programError := by
  decide +kernel

theorem failedWord_run_exists : ∃ bus', aCFIv2Write failedWord.env erasedBus false failedWord.offset 6 failedWord.stack = some (.programError, bus') := by
  obtain ⟨⟨exit, bus'⟩, hrun, hexit⟩ := Option.map_eq_some_iff.mp failedWord_run
  obtain rfl : exit = .programError := hexit
  exact ⟨bus', hrun⟩

theorem write_error_readable_iff_sample :
    ∃ bus', aCFIv2Write failedWord.env erasedBus false failedWord.offset 6 failedWord.stack = some (.programError, bus') ∧
      (bus'.All wordPart .read ↔ ¬failedWord.UsesBypass) := by
  obtain ⟨bus', hrun⟩ := failedWord_run_exists
  exact ⟨bus', hrun, write_error_readable_iff (s := failedWord) (by decide) (by decide) rfl (fun _ _ => rfl) rfl hrun⟩

/-- 三語の書き込みの最初の語で失敗すると、チップはアンロックバイパスに残る。 -/
theorem write_error_not_readable : ¬ ∀ (s : WriteSpec) (bus bus' : AmdBus) (size : Int) (verify : Bool), s.offset < 2 ^ 32 → s.pad < s.length →
    bus.array = s.old → bus.All s.env.part .read → s.env.page (s.base * s.width) (size + s.pad) = some (s.length : Int) →
      aCFIv2Write s.env bus verify s.offset size s.stack = some (.programError, bus') → bus'.All s.env.part .read := by
  intro h
  obtain ⟨bus', hrun⟩ := failedWord_run_exists
  have hread := h failedWord erasedBus bus' 6 false (by decide) (by decide) rfl (fun _ _ => rfl) rfl hrun
  obtain ⟨unlock, hall, hiff⟩ := writeError_mode (s := failedWord) (by decide) (by decide) rfl (fun _ _ => rfl) rfl hrun
  have hskip : ¬failedWord.Skips 0 := fun hs => absurd (hs.1 0 (by decide)) (by decide)
  rw [hiff.mpr ⟨by decide, 0, hskip, by decide⟩] at hall
  cases (hall 0 (by decide)).symm.trans (hread 0 (by decide))

end WriteSpec

end Imx6Bsp.Flash
