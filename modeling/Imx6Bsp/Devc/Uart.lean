import Imx6Bsp.Lib.Rings
import Imx6Bsp.Lib.Runs

/-!
# UART の DMA（`devc/sermx1`）

`tto()` と二つのパルスの処理、`create_device()` の DMA に関わる部分を写す。SDMA のチャネルは、渡した転送と、まだ処理していない完了の
パルスの数で表す。`tti2()` と `tto_getchar()` は `io-char` の関数なので、前者は返す値を、後者は関数を外から与える。
-/

namespace Imx6Bsp.Devc

open Imx6Bsp.Lib

/-! ## 受信側 -/

/-- `TTI_BREAK` などの、文字に付ける印。 -/
inductive RxKey
  | none
  | break
  | frame
  | parity
  | overrun
deriving DecidableEq, Repr

/-- `buf` は二重バッファの半分ごとの中身で、`true` が後ろの半分である。`outstanding` は始めて終わっていない転送の先、`count` と `error` は
記述子の値、`pulses` はまだ処理していない完了のパルスの数である。`received`、`passed`、`unpassed` は、届いたバイト、`tti2()` に渡した
バイト、中身をまだ渡していない半分の記録で、ドライバは持たない。 -/
structure RxSide where
  xferSize : Nat
  ibufSize : Nat
  ibufCnt : Nat := 0
  buf : Bool → List UInt8
  bytesRead : Nat := 0
  buffer0 : Bool := true
  status : BitVec 32 := 0
  key : RxKey := .none
  obandData : Bool := false
  count : Nat := 0
  error : Bool := false
  outstanding : List Bool := []
  pulses : Nat := 0
  received : List UInt8 := []
  passed : List UInt8 := []
  unpassed : List Bool := []

/-- `tti2()` の返す値と、その後の入力バッファの数。 -/
structure Tti2 where
  status : BitVec 32 := 0
  cnt : Nat := 0

/-- パルスの処理が読む `USR1` と `USR2` のビット。 -/
structure RxErrors where
  brcd : Bool := false
  framerr : Bool := false
  parityerr : Bool := false
  ore : Bool := false

def RxErrors.key (e : RxErrors) : RxKey :=
  if e.brcd then .break else if e.framerr then .frame else if e.parityerr then .parity else if e.ore then .overrun else .none

/-- `setup_xfer()` と `xfer_start()`。 -/
def RxSide.startXfer (r : RxSide) (half : Bool) : RxSide :=
  { r with count := r.xferSize, error := false, outstanding := r.outstanding ++ [half] }

/-- `buffer0` の指す半分を `tti2()` に渡し、もう一方への転送を始める。パルスの処理と `tto()` が同じ文を持つ。 -/
def RxSide.handOver (r : RxSide) (a : Tti2) : RxSide :=
  let full := !r.buffer0
  let r := { r with
    status := r.status ||| a.status, ibufCnt := a.cnt
    passed := r.passed ++ (r.buf full).take r.bytesRead, unpassed := r.unpassed.erase full }
  { r.startXfer r.buffer0 with buffer0 := !r.buffer0 }

/-- SDMA が転送を終える。`sdma_bytes_left()` は、この転送では運んだ数を返す。 -/
def RxSide.complete (r : RxSide) (bytes : List UInt8) (error : Bool) : Option RxSide :=
  match r.outstanding with
  | [] => none
  | half :: rest =>
      if bytes.length ≤ r.xferSize then
        some { r with
          buf := Function.update r.buf half (overwrite (r.buf half) 0 bytes)
          count := bytes.length, error, outstanding := rest, pulses := r.pulses + 1
          received := r.received ++ bytes, unpassed := r.unpassed ++ [half] }
      else none

/-- `mx53_rx_pulse_hdlr()`。 -/
def RxSide.mx53RxPulseHdlr (r : RxSide) (e : RxErrors) (a : Tti2) : RxSide :=
  let r := { r with
    bytesRead := r.count, key := if r.error then e.key else .none, status := 0, obandData := r.obandData || r.error
    pulses := r.pulses - 1 }
  -- 空きが足りなければ、次の転送は `tto()` が始める。
  if r.ibufSize - r.ibufCnt < r.bytesRead then r else r.handOver a

/-! ## 送信側 -/

/-- `TTYBUF`。 -/
structure OutBuf where
  buff : List UInt8
  tail : Nat
  cnt : Nat
  tail_le : tail ≤ buff.length
  cnt_le : cnt ≤ buff.length

/-- 出力バッファにある、これから送るバイト。 -/
def OutBuf.contents (b : OutBuf) : List UInt8 := window b.buff b.tail b.cnt

/-- `tto()` の、折り返しのあるまとめての写し。写したバイトと、その後のバッファを返す。 -/
def OutBuf.copy (b : OutBuf) (n : Nat) (h : n ≤ b.cnt) : List UInt8 × OutBuf :=
  let firstPass := b.buff.length - b.tail
  have hc := b.cnt_le
  have ht := b.tail_le
  if hn : n ≤ firstPass then
    ((b.buff.drop b.tail).take n,
      ⟨b.buff, if b.tail + n = b.buff.length then 0 else b.tail + n, b.cnt - n, by split <;> omega, by omega⟩)
  else
    ((b.buff.drop b.tail).take firstPass ++ b.buff.take (n - firstPass), ⟨b.buff, n - firstPass, b.cnt - n, by omega, by omega⟩)

/-- 送信のうち、ドライバの外から変わる部分。`paged` は `OHW_PAGED | OSW_PAGED`、`override` は `OSW_PAGED_OVERRIDE` である。 -/
structure Output where
  obuf : OutBuf
  opost : Bool := false
  paged : Bool := false
  override : Bool := false

/-- `xfer` は進行中の転送の、送った数と長さ、`enabled` はチャネルの `HOSTOVR` のビットである。`sent` は線に出たバイト、`removed` は出力
バッファから取り出したバイトの記録である。 -/
structure TxSide where
  usedma : Bool
  xferSize : Nat
  out : Output
  buf : List UInt8
  txTmr : Nat := 0
  eventTto : Bool := false
  trdyen : Bool := false
  xfer : Option (Nat × Nat) := none
  enabled : Bool := false
  pulses : Nat := 0
  sent : List UInt8 := []
  removed : List UInt8 := []

/-- `tto()` の呼び出しの間に外から与えるもの。`getchar` は `tto_getchar()`、`outside k` は `k` 回目の繰り返しの前の変化、`txdc` は `USR2` の
`TXDC`、`trdy` は `USR1` の `TRDY` が続けて立っている回数である。`settle` は繰り返しの後の変化である。 -/
structure TtoCall where
  getchar : OutBuf → UInt8 × OutBuf
  outside : Nat → Output → Output := fun _ o => o
  settle : Output → Output := fun o => o
  txdc : Bool := true
  trdy : Nat := 0

/-- `tto_getchar()` で一字取り出して DMA のバッファに置く。 -/
def TxSide.stageChar (t : TxSide) (call : TtoCall) (byteCnt : Nat) : TxSide :=
  let r := call.getchar t.out.obuf
  { t with
    out := { t.out with obuf := r.2, override := false }
    buf := overwrite t.buf byteCnt [r.1], removed := t.removed ++ [r.1] }

/-- まとめて取り出して DMA のバッファに置く。 -/
def TxSide.stageBlock (t : TxSide) (byteCnt : Nat) : TxSide × Nat :=
  let n := min t.out.obuf.cnt (t.xferSize - byteCnt)
  let r := t.out.obuf.copy n (Nat.min_le_left ..)
  ({ t with out := { t.out with obuf := r.2 }, buf := overwrite t.buf byteCnt r.1, removed := t.removed ++ t.out.obuf.contents.take n },
    byteCnt + n)

/-- DMA のバッファを埋める繰り返し。一回ごとに空きが減るので、最初の空きの数 `room` だけ繰り返せば止まる。 -/
def TxSide.fill (call : TtoCall) : (room k : Nat) → TxSide → (byteCnt : Nat) → TxSide × Nat
  | 0, k, t, byteCnt => ({ t with out := call.outside k t.out }, byteCnt)
  | room + 1, k, t, byteCnt =>
      let t := { t with out := call.outside k t.out }
      if 0 < t.out.obuf.cnt ∧ byteCnt < t.xferSize then
        if t.out.paged ∧ ¬t.out.override then (t, byteCnt)
        else if t.out.opost ∨ t.out.override then fill call room (k + 1) (t.stageChar call byteCnt) (byteCnt + 1)
        else fill call room (k + 1) (t.stageBlock byteCnt).1 (t.stageBlock byteCnt).2
      else (t, byteCnt)

/-- 埋めたバッファの転送を始める。始められなければ `byte_cnt` はそのまま残る。 -/
def TxSide.flush (t : TxSide) (byteCnt : Nat) : TxSide × Nat :=
  if byteCnt ≠ 0 ∧ ¬t.out.paged then ({ t with xfer := some (0, byteCnt), enabled := true, txTmr := 3 }, 0) else (t, byteCnt)

/-- DMA を使わない送信の繰り返し。 -/
def TxSide.poll (t : TxSide) (call : TtoCall) (k : Nat) : Nat → TxSide
  | 0 => t
  | trdy + 1 =>
      let t := { t with out := call.outside k t.out }
      if t.out.obuf.cnt = 0 then t
      else if t.out.paged ∧ ¬t.out.override then t
      else
        let r := call.getchar t.out.obuf
        let u := { t with
          out := { t.out with obuf := r.2, override := false }
          txTmr := 3, sent := t.sent ++ [r.1], removed := t.removed ++ [r.1] }
        if t.out.override then u else u.poll call (k + 1) trdy

/-- `tto()` の `TTO_DATA` と `TTO_EVENT`。`byteCnt` は、どの装置も同じ静的な変数 `byte_cnt` である。 -/
def TxSide.ttoData (t : TxSide) (call : TtoCall) (byteCnt : Nat) : TxSide × Nat :=
  if t.usedma then
    if ¬call.txdc then ({ t with txTmr := 3 }, byteCnt)
    else
      let r := TxSide.fill call (t.xferSize - byteCnt) 0 t byteCnt
      { r.1 with out := call.settle r.1.out }.flush r.2
  else
    let t := t.poll call 0 call.trdy
    let t := { t with out := call.settle t.out }
    (if ¬t.out.paged ∧ t.out.obuf.cnt ≠ 0 then { t with trdyen := true } else t, byteCnt)

/-- SDMA が一バイトを線に出す。 -/
def TxSide.emit (t : TxSide) : Option TxSide :=
  match t.xfer with
  | none => none
  | some (pos, len) =>
      if t.enabled then
        let t := { t with sent := t.sent ++ (t.buf[pos]?).toList }
        some (if pos + 1 = len then { t with xfer := none, pulses := t.pulses + 1 } else { t with xfer := some (pos + 1, len) })
      else none

/-- `mx53_tx_pulse_hdlr()`。`xfer_complete()` はチャネルを止める。 -/
def TxSide.mx53TxPulseHdlr (t : TxSide) : TxSide := { t with enabled := false, pulses := t.pulses - 1, txTmr := 0, eventTto := true }

/-! ## 装置 -/

/-- `tto()` が書く制御レジスタのビット。 -/
structure Modem where
  sndbrk : Bool := false
  dsr : Bool := true
  cts : Bool := true

structure Dev where
  modem : Modem := {}
  rx : RxSide
  tx : TxSide

/-- `TTO_CTRL` の引数。 -/
structure SerCtl where
  brkChg : Bool := false
  brk : Bool := false
  dtrChg : Bool := false
  dtr : Bool := false
  rtsChg : Bool := false
  rts : Bool := false

/-- `tto()` の `TTO_CTRL`。 -/
def Dev.ttoCtrl (dev : Dev) (arg : SerCtl) (a : Tti2) : Dev :=
  let dev := if arg.brkChg then { dev with modem.sndbrk := arg.brk } else dev
  let dev := if arg.dtrChg then { dev with modem.dsr := arg.dtr } else dev
  if arg.rtsChg then
    if ¬dev.tx.usedma then { dev with modem.cts := arg.rts }
    else if arg.rts then { dev with rx := dev.rx.handOver a }
    else dev
  else dev

/-- 装置を作るときの指定。 -/
structure TtyInit where
  port : Nat
  usedma : Bool := false
  isize : Nat := 2048
  osize : Nat := 2048

def mx53Uart3BaseAddr : Nat := 0x5000c000

def dmaXferSize : Nat := 512

/-- `create_device()`。DMA は UART3 だけで使う。 -/
def createDevice (dip : TtyInit) : Dev :=
  let usedma := dip.usedma && dip.port = mx53Uart3BaseAddr
  let rx : RxSide := { xferSize := dmaXferSize, ibufSize := dip.isize, buf := fun _ => List.replicate dmaXferSize 0 }
  { rx := if usedma then rx.startXfer false else rx
    tx :=
      { usedma, xferSize := dmaXferSize, buf := List.replicate dmaXferSize 0
        out := { obuf := ⟨List.replicate dip.osize 0, 0, 0, Nat.zero_le _, Nat.zero_le _⟩ } } }

/-- ドライバの全体。 -/
structure Driver where
  devs : List Dev
  byteCnt : Nat := 0

def Driver.start (dips : List TtyInit) : Driver := { devs := dips.map createDevice }

/-! ## 実行 -/

inductive Event
  | consume (i cnt : Nat)
  | rxComplete (i : Nat) (bytes : List UInt8) (error : Bool)
  | rxPulse (i : Nat) (e : RxErrors) (a : Tti2)
  | ctrl (i : Nat) (arg : SerCtl) (a : Tti2)
  | output (i : Nat) (out : Output)
  | data (i : Nat) (call : TtoCall)
  | emit (i : Nat)
  | txPulse (i : Nat)

/-- 装置 `i` を変える。 -/
def Driver.modify (d : Driver) (i : Nat) (f : Dev → Except Unit Dev) : Except Unit Driver :=
  match d.devs[i]? with
  | none => .error ()
  | some dev => (f dev).map fun dev => { d with devs := d.devs.set i dev }

/-- 一つの事象。起こりえない事象は失敗とする。 -/
def Driver.step (d : Driver) : Event → Except Unit Driver
  | .consume i cnt => d.modify i fun dev => .ok { dev with rx.ibufCnt := cnt }
  | .rxComplete i bytes error =>
      d.modify i fun dev =>
        match dev.rx.complete bytes error with
        | none => .error ()
        | some rx => .ok { dev with rx }
  | .rxPulse i e a => d.modify i fun dev => if dev.rx.pulses = 0 then .error () else .ok { dev with rx := dev.rx.mx53RxPulseHdlr e a }
  | .ctrl i arg a => d.modify i fun dev => .ok (dev.ttoCtrl arg a)
  | .output i out => d.modify i fun dev => .ok { dev with tx.out := out }
  | .data i call =>
      match d.devs[i]? with
      | none => .error ()
      | some dev =>
          let r := dev.tx.ttoData call d.byteCnt
          .ok ⟨d.devs.set i { dev with tx := r.1 }, r.2⟩
  | .emit i =>
      d.modify i fun dev =>
        match dev.tx.emit with
        | none => .error ()
        | some tx => .ok { dev with tx }
  | .txPulse i => d.modify i fun dev => if dev.tx.pulses = 0 then .error () else .ok { dev with tx := dev.tx.mx53TxPulseHdlr }

/-! ## 条件と性質 -/

/-- `RTS` を立てる要求は、渡していない中身が残っていて、その完了のパルスを処理した後にだけ来る。 -/
def Driver.Resumes (d : Driver) : Event → Prop
  | .ctrl i arg _ =>
      ∀ dev ∈ d.devs[i]?, dev.tx.usedma = true → arg.rtsChg = true → arg.rts = true → dev.rx.unpassed ≠ [] ∧ dev.rx.pulses = 0
  | _ => True

/-- `TXDC` が立っているのは、進行中の転送がないときである。 -/
def Driver.Plausible (d : Driver) : Event → Prop
  | .data i call => ∀ dev ∈ d.devs[i]?, dev.tx.usedma = true → call.txdc = true → ¬(dev.tx.enabled = true ∧ dev.tx.xfer ≠ none)
  | _ => True

/-- `TXDC` を読んだとき、終わっていない転送も、処理していない完了のパルスもない。 -/
def Driver.Quiet (d : Driver) : Event → Prop
  | .data i call => ∀ dev ∈ d.devs[i]?, dev.tx.usedma = true → call.txdc = true → dev.tx.xfer = none ∧ dev.tx.pulses = 0
  | _ => True

instance Driver.decidableResumes (d : Driver) : (e : Event) → Decidable (d.Resumes e)
  | .ctrl i arg _ =>
      inferInstanceAs (Decidable (∀ dev ∈ d.devs[i]?,
        dev.tx.usedma = true → arg.rtsChg = true → arg.rts = true → dev.rx.unpassed ≠ [] ∧ dev.rx.pulses = 0))
  | .consume .. | .rxComplete .. | .rxPulse .. | .output .. | .data .. | .emit .. | .txPulse .. => .isTrue trivial

instance Driver.decidablePlausible (d : Driver) : (e : Event) → Decidable (d.Plausible e)
  | .data i call =>
      inferInstanceAs (Decidable (∀ dev ∈ d.devs[i]?,
        dev.tx.usedma = true → call.txdc = true → ¬(dev.tx.enabled = true ∧ dev.tx.xfer ≠ none)))
  | .consume .. | .rxComplete .. | .rxPulse .. | .output .. | .ctrl .. | .emit .. | .txPulse .. => .isTrue trivial

instance Driver.decidableQuiet (d : Driver) : (e : Event) → Decidable (d.Quiet e)
  | .data i call =>
      inferInstanceAs (Decidable (∀ dev ∈ d.devs[i]?,
        dev.tx.usedma = true → call.txdc = true → dev.tx.xfer = none ∧ dev.tx.pulses = 0))
  | .consume .. | .rxComplete .. | .rxPulse .. | .output .. | .ctrl .. | .emit .. | .txPulse .. => .isTrue trivial

/-- 届いたバイトは、渡したバイトの後に、渡していない半分の中身が続いたものである。 -/
structure RxSide.Faithful (r : RxSide) : Prop where
  stream : r.received = r.passed ++ r.unpassed.flatMap fun half => (r.buf half).take r.count
  single : r.outstanding.length ≤ 1
  apart : ∀ half ∈ r.outstanding, half ∉ r.unpassed

/-- 取り出して、まだ線に出ていないバイト。 -/
def TxSide.pending (t : TxSide) (byteCnt : Nat) : List UInt8 :=
  match t.xfer with
  | some (pos, len) => (t.buf.take len).drop pos
  | none => t.buf.take byteCnt

/-- 取り出したバイトは、線に出たバイトの後に、まだ出ていないバイトが続いたものである。DMA のバッファの外には書かない。 -/
structure TxSide.Faithful (t : TxSide) (byteCnt : Nat) : Prop where
  stream : t.removed = t.sent ++ t.pending byteCnt
  inside : t.buf.length = t.xferSize
  running : t.xfer ≠ none → t.enabled = true

/-- DMA を使う UART3。 -/
def uart3 : TtyInit := { port := mx53Uart3BaseAddr, usedma := true }

end Imx6Bsp.Devc
