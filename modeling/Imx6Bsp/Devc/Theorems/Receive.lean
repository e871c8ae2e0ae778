import Imx6Bsp.Devc.Lemmas.Uart

/-!
# UART の受信

`RTS` を立てる要求が、渡していない中身が残っているときにだけ来る実行では、届いたバイトが一つも失われず、重ならずに `tti2()` に渡る。
-/

namespace Imx6Bsp.Devc

open Imx6Bsp.Lib

/-! ## 不変条件 -/

/-- 受信側は、転送中、完了のパルスの処理の前、空き待ちのどれかである。 -/
inductive RxSide.Phase (r : RxSide) : Prop
  | running (ho : r.outstanding = [!r.buffer0]) (hu : r.unpassed = []) (hp : r.pulses = 0) (hs : r.received = r.passed)
  | done (ho : r.outstanding = []) (hu : r.unpassed = [!r.buffer0]) (hp : r.pulses = 1)
      (hs : r.received = r.passed ++ (r.buf !r.buffer0).take r.count)
  | waiting (ho : r.outstanding = []) (hu : r.unpassed = [!r.buffer0]) (hp : r.pulses = 0) (hc : r.count = r.bytesRead)
      (hs : r.received = r.passed ++ (r.buf !r.buffer0).take r.count)

theorem RxSide.Phase.faithful {r : RxSide} (h : r.Phase) : r.Faithful := by
  cases h with
  | running ho hu _ hs => exact ⟨by simp [hu, hs], by simp [ho], by simp [hu]⟩
  | done ho hu _ hs => exact ⟨by simp [hu, hs], by simp [ho], by simp [ho]⟩
  | waiting ho hu _ _ hs => exact ⟨by simp [hu, hs], by simp [ho], by simp [ho]⟩

/-- 完了した半分を渡すと、もう一方への転送が始まる。 -/
theorem RxSide.handOver_phase {r : RxSide} (a : Tti2) (ho : r.outstanding = []) (hu : r.unpassed = [!r.buffer0]) (hp : r.pulses = 0)
    (hs : r.received = r.passed ++ (r.buf !r.buffer0).take r.bytesRead) : (r.handOver a).Phase := by
  refine .running ?_ ?_ hp hs
  · simp [RxSide.handOver, RxSide.startXfer, ho]
  · simp [RxSide.handOver, RxSide.startXfer, hu]

theorem RxSide.Phase.complete {r r' : RxSide} {bytes : List UInt8} {error : Bool} (h : r.Phase) (hc : r.complete bytes error = some r') :
    r'.Phase := by
  cases h with
  | running ho hu hp hs =>
      simp only [RxSide.complete, ho] at hc
      split at hc
      · cases hc
        refine .done rfl ?_ ?_ ?_
        · simp [hu]
        · simp [hp]
        · simp [hs, overwrite]
      · cases hc
  | done ho hu hp hs => simp only [RxSide.complete, ho] at hc; cases hc
  | waiting ho hu hp hc' hs => simp only [RxSide.complete, ho] at hc; cases hc

theorem RxSide.Phase.pulse {r : RxSide} (e : RxErrors) (a : Tti2) (h : r.Phase) (hp : r.pulses ≠ 0) : (r.mx53RxPulseHdlr e a).Phase := by
  cases h with
  | running _ _ hp' _ => exact absurd hp' hp
  | waiting _ _ hp' _ _ => exact absurd hp' hp
  | done ho hu hp' hs =>
      simp only [RxSide.mx53RxPulseHdlr]
      split
      · exact .waiting ho hu (by simp [hp']) rfl hs
      · exact RxSide.handOver_phase a ho hu (by simp [hp']) hs

theorem RxSide.Phase.resume {r : RxSide} (a : Tti2) (h : r.Phase) (hu : r.unpassed ≠ []) (hp : r.pulses = 0) : (r.handOver a).Phase := by
  cases h with
  | running _ hu' _ _ => exact absurd hu' hu
  | done _ _ hp' _ => rw [hp] at hp'; cases hp'
  | waiting ho hu' _ hc hs => exact RxSide.handOver_phase a ho hu' hp (hc ▸ hs)

/-! ## 実行 -/

/-- DMA を使う装置の受信側はどれかの段にある。 -/
def Dev.RxInv (dev : Dev) : Prop := dev.tx.usedma = true → dev.rx.Phase

theorem createDevice_rxInv (dip : TtyInit) : (createDevice dip).RxInv := by
  intro h
  have h : (dip.usedma && decide (dip.port = mx53Uart3BaseAddr)) = true := h
  refine .running ?_ ?_ ?_ ?_ <;> simp [createDevice, h, RxSide.startXfer]

theorem Moves.rxInv {byteCnt byteCnt' : Nat} {e : Event} {d : Driver} {dev dev' : Dev} (h : Moves byteCnt e dev dev' byteCnt')
    (hd : d.devs[e.dev]? = some dev) (hok : d.Resumes e) (hi : dev.RxInv) : dev'.RxInv := by
  intro hdma
  have hphase := hi (h.usedma ▸ hdma)
  cases h with
  | consume =>
      cases hphase with
      | running ho hu hp hs => exact .running ho hu hp hs
      | done ho hu hp hs => exact .done ho hu hp hs
      | waiting ho hu hp hc hs => exact .waiting ho hu hp hc hs
  | rxComplete hc => exact hphase.complete hc
  | rxPulse hp => exact hphase.pulse _ _ hp
  | @ctrl i arg a _ =>
      rw [Dev.ttoCtrl_tx] at hdma
      rw [Dev.ttoCtrl_rx]
      split
      · rename_i harg
        obtain ⟨hu, hp⟩ := hok dev hd hdma harg.1 harg.2.2
        exact hphase.resume a hu hp
      · exact hphase
  | output => exact hphase
  | data => exact hphase
  | emit => exact hphase
  | txPulse => exact hphase

/-- `RTS` を立てる要求が空き待ちのときにだけ来る実行では、DMA で届いたバイトがちょうど一度ずつ順に `tti2()` に渡り、転送は高々一つで、
渡していない半分には書かない。 -/
theorem rx_dma_stream (dips : List TtyInit) (d : Driver) (h : Reaches Driver.step Driver.Resumes (Driver.start dips) d) (i : Nat)
    (dev : Dev) (hd : d.devs[i]? = some dev) (hdma : dev.tx.usedma = true) : dev.rx.Faithful := by
  have hinv : ∀ dev ∈ d.devs, dev.RxInv := by
    refine h.invariant (P := fun d => ∀ dev ∈ d.devs, dev.RxInv) ?_ ?_
    · intro dev hd
      obtain ⟨dip, -, rfl⟩ := List.mem_map.mp hd
      exact createDevice_rxInv dip
    · intro u e v hu hok hs dev hv
      obtain ⟨old, new, hold, hdevs, hmoves⟩ := Driver.step_cases hs
      rw [hdevs] at hv
      rcases List.mem_or_eq_of_mem_set hv with hv | rfl
      · exact hu dev hv
      · exact hmoves.rxInv hold hok (hu old (List.mem_of_getElem? hold))
  exact (hinv dev (List.mem_of_getElem? hd) hdma).faithful

theorem rx_dma_stream_sample :
    ∃ d dev, Reaches Driver.step Driver.Resumes (Driver.start [uart3]) d ∧ d.devs[0]? = some dev ∧
      dev.rx.passed = [1, 2, 3] ∧ dev.rx.received = [1, 2, 3] ∧ dev.rx.Faithful := by
  obtain ⟨d, hd, hp⟩ := (Option.any_eq_true _ _).mp
    (by decide :
      (runAll Driver.step Driver.Resumes
        [.rxComplete 0 [1, 2] false, .rxPulse 0 {} {}, .consume 0 2048, .rxComplete 0 [3] false, .rxPulse 0 {} {}, .consume 0 0,
          .ctrl 0 { rtsChg := true, rts := true } {}] (Driver.start [uart3])).any
        (fun d => d.devs[0]?.any fun dev => dev.tx.usedma = true ∧ dev.rx.passed = [1, 2, 3] ∧ dev.rx.received = [1, 2, 3]) = true)
  obtain ⟨dev, hdev, hp⟩ := (Option.any_eq_true _ _).mp hp
  obtain ⟨hdma, h₁, h₂⟩ := of_decide_eq_true hp
  have hr := runAll_reaches hd
  exact ⟨d, dev, hr, hdev, h₁, h₂, rx_dma_stream [uart3] d hr 0 dev hdev hdma⟩

/-- 渡していない中身がないときに `RTS` を立てると、受け取っていないバイトが渡り、二つ目の転送が始まる。 -/
theorem rts_without_waiting_buffer :
    ∃ d dev, Reaches Driver.step (fun _ _ => True) (Driver.start [uart3]) d ∧ d.devs[0]? = some dev ∧ dev.tx.usedma = true ∧
      dev.rx.received = [1] ∧ dev.rx.passed = [1, 0] ∧ dev.rx.outstanding = [true, false] := by
  obtain ⟨d, hd, hp⟩ := (Option.any_eq_true _ _).mp
    (by decide :
      (runAll Driver.step (fun _ _ => True)
        [.rxComplete 0 [1] false, .rxPulse 0 {} {}, .ctrl 0 { rtsChg := true, rts := true } {}] (Driver.start [uart3])).any
        (fun d => d.devs[0]?.any fun dev =>
          dev.tx.usedma = true ∧ dev.rx.received = [1] ∧ dev.rx.passed = [1, 0] ∧ dev.rx.outstanding = [true, false]) = true)
  obtain ⟨dev, hdev, hp⟩ := (Option.any_eq_true _ _).mp hp
  exact ⟨d, dev, runAll_reaches hd, hdev, of_decide_eq_true hp⟩

end Imx6Bsp.Devc
