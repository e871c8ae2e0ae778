import Imx6Bsp.Devc.Lemmas.Uart

/-!
# UART の送信

DMA を使う装置が一つで、`TXDC` を読むとき終わっていない転送も処理していないパルスもない実行では、出力バッファから取り出したバイトが
ちょうど一度ずつ順に線に出る。
-/

namespace Imx6Bsp.Devc

open Imx6Bsp.Lib

/-! ## まとめての写し -/

/-- 写したバイトは先頭の `n` 個で、残りは後ろの部分である。 -/
theorem OutBuf.copy_spec (b : OutBuf) (n : Nat) (h : n ≤ b.cnt) :
    (b.copy n h).1 = b.contents.take n ∧ (b.copy n h).2.contents = b.contents.drop n := by
  have hc := b.cnt_le
  have ht := b.tail_le
  have htake : b.contents.take n = window b.buff b.tail n := window_take h
  have hdrop : b.contents.drop n = window b.buff (b.tail + n) (b.cnt - n) := window_drop h hc
  rw [htake, hdrop]
  simp only [OutBuf.copy]
  split
  · rename_i hn
    refine ⟨(window_eq_take (by omega)).symm, ?_⟩
    simp only [OutBuf.contents]
    split
    · rename_i he
      have := window_sub_length (c := b.cnt - n) (l := b.buff) (t := b.tail + n) (by omega)
      rwa [show b.tail + n - b.buff.length = 0 by omega] at this
    · rfl
  · rename_i hn
    refine ⟨?_, ?_⟩
    · rw [window_eq_append ht (by omega) (by omega), List.take_of_length_le (by rw [List.length_drop]),
        show b.tail + n - b.buff.length = n - (b.buff.length - b.tail) by omega]
    · simp only [OutBuf.contents]
      have := window_sub_length (c := b.cnt - n) (l := b.buff) (t := b.tail + n) (by omega)
      rw [← this]
      congr 1
      omega

/-! ## 埋める繰り返し -/

/-- DMA のバッファの先頭 `byteCnt` 個が、取り出してまだ送っていないバイトである。 -/
structure TxSide.Staged (t : TxSide) (byteCnt : Nat) : Prop where
  stream : t.removed = t.sent ++ t.buf.take byteCnt
  inside : t.buf.length = t.xferSize
  fits : byteCnt ≤ t.xferSize

theorem TxSide.Staged.stage {t u : TxSide} {byteCnt : Nat} {bytes : List UInt8} (h : t.Staged byteCnt) (hs : u.sent = t.sent)
    (hx : u.xferSize = t.xferSize) (hb : u.buf = overwrite t.buf byteCnt bytes) (hr : u.removed = t.removed ++ bytes)
    (hf : byteCnt + bytes.length ≤ t.xferSize) : u.Staged (byteCnt + bytes.length) := by
  refine ⟨?_, ?_, by rw [hx]; exact hf⟩
  · rw [hr, hs, hb, overwrite_take (by rw [h.inside]; exact h.fits), h.stream, List.append_assoc]
  · rw [hb, overwrite_length (by rw [h.inside]; exact hf), h.inside, hx]

theorem TxSide.Staged.char {t : TxSide} {byteCnt : Nat} (call : TtoCall) (h : t.Staged byteCnt) (hlt : byteCnt < t.xferSize) :
    (t.stageChar call byteCnt).Staged (byteCnt + 1) := by
  have hb : (t.stageChar call byteCnt).buf = overwrite t.buf byteCnt [(call.getchar t.out.obuf).1] := rfl
  refine h.stage ?_ ?_ hb ?_ hlt <;> rfl

theorem TxSide.Staged.block {t : TxSide} {byteCnt : Nat} (h : t.Staged byteCnt) (hlt : byteCnt < t.xferSize) :
    (t.stageBlock byteCnt).1.Staged (t.stageBlock byteCnt).2 := by
  obtain ⟨hcopy, -⟩ := t.out.obuf.copy_spec (min t.out.obuf.cnt (t.xferSize - byteCnt)) (Nat.min_le_left ..)
  have hlen : (t.out.obuf.contents.take (min t.out.obuf.cnt (t.xferSize - byteCnt))).length =
      min t.out.obuf.cnt (t.xferSize - byteCnt) := by
    rw [List.length_take, OutBuf.contents, window_length t.out.obuf.cnt_le]
    omega
  have := h.stage (u := (t.stageBlock byteCnt).1) rfl rfl (congrArg (overwrite t.buf byteCnt) hcopy) rfl (by rw [hlen]; omega)
  rwa [hlen] at this

theorem TxSide.Staged.fill (call : TtoCall) (room k : Nat) {t : TxSide} {byteCnt : Nat} (h : t.Staged byteCnt) :
    (TxSide.fill call room k t byteCnt).1.Staged (TxSide.fill call room k t byteCnt).2 := by
  induction room generalizing k t byteCnt with
  | zero => exact ⟨h.stream, h.inside, h.fits⟩
  | succ room ih =>
      have ht : TxSide.Staged { t with out := call.outside k t.out } byteCnt := ⟨h.stream, h.inside, h.fits⟩
      simp only [TxSide.fill]
      split_ifs with hlt hp ho
      · exact ht
      · exact ih (k + 1) (ht.char call hlt.2)
      · exact ih (k + 1) (ht.block hlt.2)
      · exact ht

/-- `room` 回で足りる。繰り返しは、バッファが空か、埋まったか、止められたかのときに終わる。 -/
theorem TxSide.fill_stops (call : TtoCall) (room k : Nat) (t : TxSide) (byteCnt : Nat) (h : t.xferSize - byteCnt ≤ room) :
    let r := TxSide.fill call room k t byteCnt
    r.1.out.obuf.cnt = 0 ∨ t.xferSize ≤ r.2 ∨ r.1.out.paged = true := by
  induction room generalizing k t byteCnt with
  | zero => exact .inr (.inl (by simpa [TxSide.fill] using Nat.sub_eq_zero_iff_le.mp (Nat.le_zero.mp h)))
  | succ room ih =>
      simp only [TxSide.fill]
      split_ifs with hlt hp ho
      · exact .inr (.inr hp.1)
      · exact ih (k + 1) (TxSide.stageChar { t with out := call.outside k t.out } call byteCnt) (byteCnt + 1)
          (by simp only [TxSide.stageChar]; omega)
      · have hn : 0 < min (call.outside k t.out).obuf.cnt (t.xferSize - byteCnt) := by
          have hlt' : byteCnt < t.xferSize := hlt.2
          have hcnt : 0 < (call.outside k t.out).obuf.cnt := hlt.1
          omega
        exact ih (k + 1) (TxSide.stageBlock { t with out := call.outside k t.out } byteCnt).1 _
          (by simp only [TxSide.stageBlock]; omega)
      · simp only [not_and, Nat.not_lt] at hlt
        by_cases hz : (call.outside k t.out).obuf.cnt = 0
        · exact .inl hz
        · exact .inr (.inl (hlt (Nat.pos_of_ne_zero hz)))

/-! ## 不変条件 -/

/-- DMA を使う装置の送信側。転送中は `byte_cnt` が 0 である。 -/
structure TxSide.Inv (t : TxSide) (byteCnt : Nat) : Prop extends t.Faithful byteCnt where
  fits : byteCnt ≤ t.xferSize
  active : ∀ pos len, t.xfer = some (pos, len) → pos < len ∧ len ≤ t.xferSize ∧ byteCnt = 0 ∧ t.pulses = 0

theorem TxSide.Inv.staged {t : TxSide} {byteCnt : Nat} (h : t.Inv byteCnt) (hx : t.xfer = none) : t.Staged byteCnt := by
  refine ⟨?_, h.inside, h.fits⟩
  have := h.stream
  rwa [TxSide.pending, hx] at this

theorem TxSide.Staged.inv {t : TxSide} {byteCnt : Nat} (h : t.Staged byteCnt) (hx : t.xfer = none) : t.Inv byteCnt := by
  refine ⟨⟨?_, h.inside, fun hn => absurd hx hn⟩, h.fits, fun pos len he => by rw [hx] at he; cases he⟩
  rw [TxSide.pending, hx]
  exact h.stream

theorem TxSide.Staged.flush {t : TxSide} {byteCnt : Nat} (h : t.Staged byteCnt) (hx : t.xfer = none) (hp : t.pulses = 0) :
    (t.flush byteCnt).1.Inv (t.flush byteCnt).2 := by
  simp only [TxSide.flush]
  split
  · rename_i hb
    refine ⟨⟨?_, h.inside, fun _ => rfl⟩, Nat.zero_le _, ?_⟩
    · simp only [TxSide.pending, List.drop_zero]
      exact h.stream
    · intro pos len he
      cases he
      exact ⟨Nat.pos_of_ne_zero hb.1, h.fits, rfl, hp⟩
  · exact h.inv hx

theorem TxSide.Inv.ttoData {t : TxSide} {byteCnt : Nat} (call : TtoCall) (h : t.Inv byteCnt) (hdma : t.usedma = true)
    (hok : call.txdc = true → t.xfer = none ∧ t.pulses = 0) : (t.ttoData call byteCnt).1.Inv (t.ttoData call byteCnt).2 := by
  simp only [TxSide.ttoData, hdma, if_true]
  by_cases htx : call.txdc = true
  · obtain ⟨hx, hp⟩ := hok htx
    obtain ⟨h₁, h₂, h₃, h₄, h₅⟩ := TxSide.fill_sameLine call (t.xferSize - byteCnt) 0 t byteCnt
    obtain ⟨s₁, s₂, s₃⟩ := (h.staged hx).fill call (t.xferSize - byteCnt) 0
    simp only [htx, not_true_eq_false, if_false]
    exact TxSide.Staged.flush ⟨s₁, s₂, s₃⟩ (h₃.trans hx) (h₅.trans hp)
  · rw [if_pos htx]
    exact ⟨⟨h.stream, h.inside, h.running⟩, h.fits, h.active⟩

theorem TxSide.Inv.emit {t u : TxSide} {byteCnt : Nat} (h : t.Inv byteCnt) (he : t.emit = some u) : u.Inv byteCnt := by
  simp only [TxSide.emit] at he
  cases hx : t.xfer with
  | none => rw [hx] at he; cases he
  | some x =>
      obtain ⟨pos, len⟩ := x
      obtain ⟨hpos, hlen, hb, hp⟩ := h.active pos len hx
      subst hb
      have hin : pos < (t.buf.take len).length := by
        rw [List.length_take, h.inside]
        omega
      have hstream : t.removed = t.sent ++ (t.buf.take len).drop pos := by
        have := h.stream
        rwa [TxSide.pending, hx] at this
      have hhead : (t.buf[pos]?).toList ++ (t.buf.take len).drop (pos + 1) = (t.buf.take len).drop pos := by
        rw [List.drop_eq_getElem_cons hin, List.getElem_take]
        have : pos < t.buf.length := by rw [h.inside]; omega
        simp [this]
      rw [hx] at he
      simp only at he
      split_ifs at he with hen hl
      · cases he
        refine ⟨⟨?_, h.inside, fun hn => absurd rfl hn⟩, Nat.zero_le _, fun _ _ he => ?_⟩
        swap
        · cases he
        have hnil : (t.buf.take len).drop (pos + 1) = [] := List.drop_eq_nil_of_le (by rw [List.length_take]; omega)
        simp only [TxSide.pending, List.take_zero, List.append_nil]
        rw [hstream, ← hhead, hnil, List.append_nil]
      · cases he
        refine ⟨⟨?_, h.inside, fun _ => hen⟩, Nat.zero_le _, ?_⟩
        · simp only [TxSide.pending, List.append_assoc]
          rw [hstream, hhead]
        · intro pos' len' he
          cases he
          exact ⟨by omega, hlen, rfl, hp⟩

theorem TxSide.Inv.pulse {t : TxSide} {byteCnt : Nat} (h : t.Inv byteCnt) (hp : t.pulses ≠ 0) : t.mx53TxPulseHdlr.Inv byteCnt := by
  have hx : t.xfer = none := by
    cases hx : t.xfer with
    | none => rfl
    | some x => exact absurd (h.active x.1 x.2 hx).2.2.2 hp
  obtain ⟨s₁, s₂, s₃⟩ := h.staged hx
  exact TxSide.Staged.inv ⟨s₁, s₂, s₃⟩ hx

/-! ## 実行 -/

/-- どの装置の送信側も正しく、DMA を使う装置は高々一つである。 -/
structure Driver.TxInv (d : Driver) : Prop where
  dma : ∀ (i : Nat) (dev : Dev), d.devs[i]? = some dev → dev.tx.usedma = true → dev.tx.Inv d.byteCnt
  unique : ∀ (i j : Nat) (dev dev' : Dev), d.devs[i]? = some dev → d.devs[j]? = some dev' → dev.tx.usedma = true → dev'.tx.usedma = true → i = j

theorem Driver.txInv_start {dips : List TtyInit} (hports : (dips.map TtyInit.port).Nodup) : (Driver.start dips).TxInv := by
  have hget : ∀ {i : Nat} {dev : Dev}, (Driver.start dips).devs[i]? = some dev → ∃ dip, dips[i]? = some dip ∧ createDevice dip = dev := by
    intro i dev hd
    simp only [Driver.start, List.getElem?_map, Option.map_eq_some_iff] at hd
    exact hd
  constructor
  · intro i dev hd _
    obtain ⟨dip, -, rfl⟩ := hget hd
    refine TxSide.Staged.inv ⟨rfl, ?_, Nat.zero_le _⟩ rfl
    simp [createDevice]
  · intro i j dev dev' hi hj hdma hdma'
    obtain ⟨dip, hi', rfl⟩ := hget hi
    obtain ⟨dip', hj', rfl⟩ := hget hj
    have hport : dip.port = mx53Uart3BaseAddr := of_decide_eq_true (Bool.and_eq_true_iff.mp hdma).2
    have hport' : dip'.port = mx53Uart3BaseAddr := of_decide_eq_true (Bool.and_eq_true_iff.mp hdma').2
    have hlt : i < (dips.map TtyInit.port).length := by
      rw [List.length_map]
      exact (List.getElem?_eq_some_iff.mp hi').1
    refine (List.getElem?_inj hlt hports).mp ?_
    rw [List.getElem?_map, List.getElem?_map, hi', hj', Option.map_some, Option.map_some, hport, hport']

/-- 一つの装置の変化。DMA を使わない装置は `byte_cnt` を変えない。 -/
theorem Moves.txInv {byteCnt byteCnt' : Nat} {e : Event} {d : Driver} {dev dev' : Dev} (h : Moves byteCnt e dev dev' byteCnt')
    (hd : d.devs[e.dev]? = some dev) (hok : d.Quiet e) (hi : dev.tx.usedma = true → dev.tx.Inv byteCnt) :
    (dev.tx.usedma = true → dev'.tx.Inv byteCnt') ∧ (dev.tx.usedma = false → byteCnt' = byteCnt) := by
  cases h with
  | consume => exact ⟨hi, fun _ => rfl⟩
  | rxComplete => exact ⟨hi, fun _ => rfl⟩
  | rxPulse => exact ⟨hi, fun _ => rfl⟩
  | ctrl => exact ⟨by rw [Dev.ttoCtrl_tx]; exact hi, fun _ => rfl⟩
  | output =>
      refine ⟨fun hdma => ?_, fun _ => rfl⟩
      obtain ⟨⟨h₁, h₂, h₃⟩, h₄, h₅⟩ := hi hdma
      exact ⟨⟨h₁, h₂, h₃⟩, h₄, h₅⟩
  | @data i call _ =>
      refine ⟨fun hdma => (hi hdma).ttoData call hdma (hok dev hd hdma), fun hdma => ?_⟩
      simp only [TxSide.ttoData, hdma, Bool.false_eq_true, if_false]
  | emit he => exact ⟨fun hdma => (hi hdma).emit he, fun _ => rfl⟩
  | txPulse hp => exact ⟨fun hdma => (hi hdma).pulse hp, fun _ => rfl⟩

theorem Driver.TxInv.step {d d' : Driver} {e : Event} (h : d.TxInv) (hok : d.Quiet e) (hs : d.step e = .ok d') : d'.TxInv := by
  obtain ⟨old, new, hold, hdevs, hm⟩ := Driver.step_cases hs
  obtain ⟨hnew, hkeep⟩ := hm.txInv hold hok (h.dma _ _ hold)
  have hlt : e.dev < d.devs.length := (List.getElem?_eq_some_iff.mp hold).1
  have hdma : ∀ (i : Nat) (dev : Dev), d'.devs[i]? = some dev →
      (i = e.dev ∧ dev = new) ∨ (i ≠ e.dev ∧ d.devs[i]? = some dev) := by
    intro i dev hi
    rw [hdevs] at hi
    by_cases he : i = e.dev
    · subst he
      rw [List.getElem?_set_self hlt] at hi
      cases hi
      exact .inl ⟨rfl, rfl⟩
    · rw [List.getElem?_set_ne (Ne.symm he)] at hi
      exact .inr ⟨he, hi⟩
  -- 変わった装置も変わらない装置も、前の列で同じ番号の装置と DMA の使い方が同じである。
  have hback : ∀ (i : Nat) (dev : Dev), d'.devs[i]? = some dev → ∃ dev₀ : Dev, d.devs[i]? = some dev₀ ∧ dev₀.tx.usedma = dev.tx.usedma := by
    intro i dev hi
    rcases hdma i dev hi with ⟨rfl, rfl⟩ | ⟨-, hi⟩
    · exact ⟨old, hold, hm.usedma.symm⟩
    · exact ⟨dev, hi, rfl⟩
  constructor
  · intro i dev hi hu
    rcases hdma i dev hi with ⟨rfl, rfl⟩ | ⟨hne, hi⟩
    · exact hnew (hm.usedma ▸ hu)
    · have hold' : old.tx.usedma = false := by
        by_contra hc
        exact hne (h.unique _ _ _ _ hi hold hu (Bool.not_eq_false _ ▸ hc))
      rw [hkeep hold']
      exact h.dma i dev hi hu
  · intro i j dev dev' hi hj hu hu'
    obtain ⟨a, ha, hea⟩ := hback i dev hi
    obtain ⟨b, hb, heb⟩ := hback j dev' hj
    exact h.unique i j a b ha hb (hea.trans hu) (heb.trans hu')

/-- 同じ口を二度使わず、`TXDC` を読むとき終わっていない転送も処理していないパルスもない実行では、出力バッファから取り出したバイトが
ちょうど一度ずつ順に線に出て、DMA のバッファの外には書かない。 -/
theorem tx_dma_stream (dips : List TtyInit) (hports : (dips.map TtyInit.port).Nodup) (d : Driver)
    (h : Reaches Driver.step Driver.Quiet (Driver.start dips) d) (i : Nat) (dev : Dev) (hd : d.devs[i]? = some dev)
    (hdma : dev.tx.usedma = true) : dev.tx.Faithful d.byteCnt := by
  have hinv : d.TxInv := h.invariant (Driver.txInv_start hports) fun _ _ _ hu hok hs => hu.step hok hs
  exact (hinv.dma i dev hd hdma).toFaithful

/-- 一字だけの出力バッファ。 -/
def oneByte (c : UInt8) : Output := { obuf := ⟨[c], 0, 1, Nat.zero_le _, Nat.le_refl _⟩ }

/-- `tto_getchar()` の代わりをする関数。 -/
def takeFirst (b : OutBuf) : UInt8 × OutBuf := (b.contents.headD 0, ⟨b.buff, 0, b.cnt - 1, Nat.zero_le _, by have := b.cnt_le; omega⟩)

theorem tx_dma_stream_sample :
    ∃ d dev, Reaches Driver.step Driver.Quiet (Driver.start [uart3, { port := 0x53fbc000, usedma := true }]) d ∧
      d.devs[0]? = some dev ∧ dev.tx.sent = [65] ∧ dev.tx.removed = [65, 66] ∧ dev.tx.Faithful d.byteCnt := by
  obtain ⟨d, hd, hp⟩ := (Option.any_eq_true _ _).mp
    (by decide :
      (runAll Driver.step Driver.Quiet
        [.output 0 (oneByte 65), .data 0 { getchar := takeFirst }, .emit 0, .txPulse 0, .output 0 (oneByte 66),
          .data 0 { getchar := takeFirst }] (Driver.start [uart3, { port := 0x53fbc000, usedma := true }])).any
        (fun d => d.devs[0]?.any fun dev => dev.tx.usedma = true ∧ dev.tx.sent = [65] ∧ dev.tx.removed = [65, 66]) = true)
  obtain ⟨dev, hdev, hp⟩ := (Option.any_eq_true _ _).mp hp
  obtain ⟨hdma, h₁, h₂⟩ := of_decide_eq_true hp
  have hr := runAll_reaches hd
  exact ⟨d, dev, hr, hdev, h₁, h₂, tx_dma_stream _ (by decide) d hr 0 dev hdev hdma⟩

/-- 完了のパルスを処理する前に次の転送を始めると、パルスの処理がその転送を止め、その次の転送が上書きする。 -/
theorem late_pulse_loses_byte :
    ∃ d dev, Reaches Driver.step Driver.Plausible (Driver.start [uart3]) d ∧ d.devs[0]? = some dev ∧ dev.tx.usedma = true ∧
      dev.tx.removed = [65, 66, 67] ∧ dev.tx.sent = [65, 67] ∧ dev.tx.pending d.byteCnt = [] := by
  obtain ⟨d, hd, hp⟩ := (Option.any_eq_true _ _).mp
    (by decide :
      (runAll Driver.step Driver.Plausible
        [.output 0 (oneByte 65), .data 0 { getchar := takeFirst }, .emit 0, .output 0 (oneByte 66), .data 0 { getchar := takeFirst },
          .txPulse 0, .output 0 (oneByte 67), .data 0 { getchar := takeFirst }, .emit 0] (Driver.start [uart3])).any
        (fun d => d.devs[0]?.any fun dev =>
          dev.tx.usedma = true ∧ dev.tx.removed = [65, 66, 67] ∧ dev.tx.sent = [65, 67] ∧ dev.tx.pending d.byteCnt = []) = true)
  obtain ⟨dev, hdev, hp⟩ := (Option.any_eq_true _ _).mp hp
  exact ⟨d, dev, runAll_reaches hd, hdev, of_decide_eq_true hp⟩

end Imx6Bsp.Devc
