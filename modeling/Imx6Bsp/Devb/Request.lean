import Imx6Bsp.Devb.Partition

/-!
# MMC/SD の要求の処理（`devb/mmcsd/sim.c`、`sim_mmc.c`）

ドライバのスレッドはパルスを一つずつ受け、CCB を一つだけ抱えて実行する。制御のスレッドは挿入と取り外しのパルスを受ける。命令を待つ間に起きることは、
待ちごとに列で与える。中止された CCB、応答のデータ、センスの中身は写さない。
-/

namespace Imx6Bsp.Devb

/-! ## 要求 -/

/-- `cam_status`。`cmpErr` は `mmc_sense()`、`cmdTimeout` は `mmc_error()` の置く値である。 -/
inductive CamStatus
  | inprog
  | cmp
  | cmpErr
  | cmdTimeout
deriving DecidableEq, Repr

/-- データの置き場所。`linear` は `cam_dxfer_len`、`scatter` は各要素の `cam_sg_count` である。 -/
inductive Buf
  | linear (len : Nat)
  | scatter (counts : List Nat)
deriving DecidableEq, Repr

def Buf.total : Buf → Nat
  | .linear len => len
  | .scatter counts => counts.sum

/-- 命令の種類。`msense` は知っているページか、`inquiry` は VPD ならそのページを知っていて長さが足りるか、`spindle` は停止か開始か、を持つ。 -/
inductive Cdb
  | msense (known : Bool)
  | unitReady
  | inquiry (evpd : Option Bool)
  | rdCap
  | spindle (known : Bool)
  | sync
  | read
  | write
  | unknown
deriving DecidableEq, Repr

/-- `cam_func_code`。 -/
inductive Func
  | scsiIo (cdb : Cdb)
  | devctl
  | other
deriving DecidableEq, Repr

/-- 呼び出し側の作る CCB。`phys` は `CAM_DATA_PHYS`、`check` は積まれたときの `cam_scsi_status` が `SCS_CHECK` かである。塊の数は 16 ビットなので、
長さは `int32_t` に収まる。 -/
structure Request where
  func : Func
  lun : Nat := 0
  lba : Nat := 0
  phys : Bool := false
  check : Bool := false
  buf : Buf
  fits : buf.total < 2 ^ 31

/-- `READ10` か `WRITE10` である。 -/
def Request.isRw (r : Request) : Bool := r.func = .scsiIo .read || r.func = .scsiIo .write

/-! ## 記録 -/

/-- 送ったデータ命令の記録。`multi` は自動停止の無い複数塊の命令であること、`card` は送った先のカード、`gone` はそれまでに取り外しが見つかっていれば、
そのときまでに挿入されたカードの数である。 -/
structure Cmd where
  bytes : Int
  blkno : Nat
  multi : Bool
  dma : Bool
  card : Option Nat
  gone : Option Nat
  moved : Int := 0
  completed : Bool := false
  errored : Bool := false
  stopped : Bool := false
deriving DecidableEq, Repr

/-- `pio_done()` が `k` バイトを移した。 -/
def Cmd.move (k : Int) (c : Cmd) : Cmd :=
  { c with moved := c.moved + k, completed := c.completed || (!c.dma && c.moved + k = c.bytes) }

/-- DATA の割り込みで終わった。 -/
def Cmd.complete (c : Cmd) : Cmd := { c with completed := true }

/-- 終わる前に ERROR の割り込みが来た。 -/
def Cmd.fail (c : Cmd) : Cmd := { c with errored := c.errored || !c.completed }

/-- 停止の命令が成功した。 -/
def Cmd.halt (c : Cmd) : Cmd := { c with stopped := true }

/-- 実行中の CCB。`cmds` は今の実行で送ったデータ命令で、新しいものが先である。`past` は前の実行のものである。 -/
structure Nexus where
  id : Nat
  req : Request
  status : CamStatus := .inprog
  check : Bool
  cmds : List Cmd := []
  past : List Cmd := []

def Nexus.all (n : Nexus) : List Cmd := n.cmds ++ n.past

/-- 最後に送ったデータ命令の記録を変える。 -/
def Nexus.last (f : Cmd → Cmd) (n : Nexus) : Nexus := { n with cmds := n.cmds.modifyHead f }

/-! ## ドライバ -/

/-- ホストの能力と、呼び先の有無。 -/
structure Host extends Conf where
  pio : Bool := false
  acmd12 : Bool := false
  cdIntr : Bool := false
  nocdBusy : Bool := false
  busyRetry : Nat := 0
  normval : Bool := false
  setupPio : Bool := true
  setupDma : Bool := true
  sgdma : Bool := false

/-- `MMCSD_STATE_*`。 -/
inductive SimState
  | idle
  | ident
  | data
deriving DecidableEq, Repr

/-- `MMCSD_STOP_*`。 -/
inductive Stop
  | none
  | pend
  | issued
  | auto
deriving DecidableEq, Repr

/-- 制御のスレッドへのパルス。 -/
inductive CtlPulse
  | insertion
  | removal
deriving DecidableEq, Repr

/-- `SIM_MMC_EXT` のうち要求の処理に関わる欄。`present` は入っているカードの番号、`cards` はこれまでに挿入されたカードの数、`home` は今の CCB を
取り出したときのカード、`gone` はその後に取り外しが見つかったときの `cards`、`dequeued` は取り出した CCB の記録である。 -/
structure Sim where
  d : Ident := {}
  inserted : Bool := false
  ready : Bool := false
  invalidCard : Bool := false
  mediaChanged : Bool := false
  state : SimState := .idle
  stop : Stop := .none
  offset : Int := 0
  nbytes : Int := 0
  curSg : Nat := 0
  blkno : Nat := 0
  dirIn : Bool := true
  stopsRetry : Nat := 0
  nexus : Option Nexus := none
  queue : List (Nat × Request) := []
  pulses : List CtlPulse := []
  present : Option Nat := none
  cards : Nat := 0
  home : Option Nat := none
  gone : Option Nat := none
  nextId : Nat := 0
  dequeued : List Nat := []
  posted : List Nexus := []

/-- `ext->interrupt()` の返すビット。`reident` と `pend` は、誤りのときにチップセットの関数が `state` と `ident`、`stop` を書き換えることである。 -/
structure Intr where
  command : Bool := false
  data : Bool := false
  ready : Bool := false
  card : Bool := false
  error : Bool := false
  reident : Bool := false
  pend : Bool := false
deriving DecidableEq, Repr

/-- `intr` が 0 である。 -/
def Intr.isNone (i : Intr) : Bool := !(i.command || i.data || i.ready || i.card || i.error)

/-- ドライバのスレッドの外で起きること。 -/
inductive Ambient
  | remove
  | insert
  | enqueue (r : Request)
  | control (e : Event)

/-- `mmc_wait_command()` の受けるパルス。 -/
inductive WaitPulse
  | interrupt (i : Intr)
  | timer
  | other
deriving DecidableEq, Repr

/-- 命令を送れたかと、待つ間に受けたパルス。パルスの前に、外で起きたことが並ぶ。 -/
structure Wait where
  sent : Bool := true
  recv : List (List Ambient × WaitPulse) := []

/-- 一回の実行での呼び先の結果。`wp` は `MMC_EFLAG_WP`、`setup` は転送の準備の返り値、`pieces` は `pio_done()` の返り値の列である。 -/
structure Hw where
  wp : Bool := false
  switch : Wait := {}
  polls : List (Wait × Bool) := []
  setup : Int := 0
  sent : Bool := true
  stopSent : Bool := true
  dmaDone : Bool := true
  pieces : List Int := []

namespace Sim

/-! ## カードの検出 -/

/-- `mmc_media_check()`。 -/
def mmcMediaCheck (h : Host) (s : Sim) : Sim :=
  if s.present.isSome then
    if s.inserted then s
    else { s with inserted := true, mediaChanged := s.mediaChanged || h.normval, pulses := s.pulses ++ [.insertion] }
  else if s.inserted then
    { s with
      inserted := false, ready := false, invalidCard := false, mediaChanged := s.mediaChanged || h.normval
      pulses := s.pulses ++ [.removal], gone := some (s.gone.getD s.cards) }
  else s

/-- `mmc_control_thread()` の一回。 -/
def mmcControl (h : Host) (s : Sim) (e : Event) : Sim :=
  match s.pulses with
  | [] => s
  | .insertion :: ps =>
      let r := { s.d with ident := .start }.cardIdent h.toConf { e with command := false, error := false, detect := s.present.isSome }
      { s with pulses := ps, inserted := true, d := r.2, state := if r.1 then .ident else s.state }
  | .removal :: ps => { s with pulses := ps, ready := false, inserted := false, state := .idle }

/-- `mmc_sim_action()` が受け付ければ列に積む。 -/
def mmcSimAction (s : Sim) (r : Request) : Sim :=
  if s.d.accepts 0 r.lun then { s with queue := s.queue ++ [(s.nextId, r)], nextId := s.nextId + 1 } else s

def ambient (h : Host) (s : Sim) : Ambient → Sim
  | .remove => { s with present := none }
  | .insert => if s.present = none then { s with present := some s.cards, cards := s.cards + 1 } else s
  | .enqueue r => s.mmcSimAction r
  | .control e => s.mmcControl h e

/-- 割り込みの関数が書き換える欄。 -/
def chipset (s : Sim) (i : Intr) : Sim :=
  if i.error ∧ i.reident then { s with state := .ident, d := { s.d with ident := .start } }
  else if i.error ∧ i.pend then { s with stop := .pend }
  else s

/-! ## 命令の待ち -/

/-- `mmc_wait_command()`。列が尽きた後は、関わりの無いパルスが続くものとする。 -/
def mmcWaitCommand (h : Host) : List (List Ambient × WaitPulse) → Nat → Sim → Bool × Sim
  | [], _, s => (false, s)
  | (as, p) :: rs, retry, s =>
      let s := as.foldl (ambient h) s
      match p with
      | .interrupt i =>
          let s := s.chipset i
          if i.card then (false, s.mmcMediaCheck h)
          else if i.command ∧ ¬i.error then (true, s)
          else if retry > 5 then (false, s)
          else mmcWaitCommand h rs (retry + 1) s
      | .timer =>
          let s := if h.cdIntr then s else s.mmcMediaCheck h
          if ¬s.inserted then (false, s)
          else if retry > 5 then (false, s)
          else mmcWaitCommand h rs (retry + 1) s
      | .other => if retry > 5 then (false, s) else mmcWaitCommand h rs (retry + 1) s

/-- 命令を送って待つ。 -/
def sendWait (h : Host) (s : Sim) (w : Wait) : Bool × Sim := if w.sent then s.mmcWaitCommand h w.recv 0 else (false, s)

def pollReady (h : Host) : Nat → List (Wait × Bool) → Sim → Bool × Sim
  | 0, _, s => (false, s)
  | _ + 1, [], s => (false, s)
  | n + 1, (w, rdy) :: ps, s =>
      let r := s.sendWait h w
      if r.1 then if rdy then r else pollReady h n ps r.2 else r

/-- `mmc_wait_card_ready()`。 -/
def mmcWaitCardReady (h : Host) (s : Sim) (o : Hw) : Bool × Sim :=
  if h.nocdBusy then pollReady h h.busyRetry o.polls s else (true, s)

/-! ## 転送 -/

def update (s : Sim) (f : Nexus → Nexus) : Sim := { s with nexus := s.nexus.map f }

/-- `mmc_error()`。 -/
def mmcError (s : Sim) : Sim := s.update fun n => { n with status := .cmdTimeout }

/-- `mmc_sense()`。 -/
def mmcSense (s : Sim) : Sim := s.update fun n => { n with status := .cmpErr, check := true }

/-- `CAM_REQ_CMP` と `SCS_GOOD` を置く。 -/
def finish (s : Sim) : Sim := s.update fun n => { n with status := .cmp, check := false }

/-- `mmc_send_rwcmd()`。 -/
def mmcSendRwcmd (h : Host) (s : Sim) (nbytes : Int) (dma sent : Bool) : Bool × Sim :=
  let single := decide (nbytes = s.d.blksize)
  let s := { s with stop := if single then .none else if h.acmd12 then .auto else .pend }
  let c : Cmd := { bytes := nbytes, blkno := s.blkno, multi := !single && !h.acmd12, dma, card := s.present, gone := s.gone }
  if sent then (true, s.update fun n => { n with cmds := c :: n.cmds }) else (false, s)

/-- `mmc_dma_xfer()`。負の返り値は `uint32_t` に入るので、成功と同じに扱われる。 -/
def mmcDmaXfer (h : Host) (s : Sim) (o : Hw) : Bool × Sim :=
  let r := s.mmcWaitCardReady h o
  if ¬r.1 then r
  else if o.setup = 0 then (false, r.2)
  else r.2.mmcSendRwcmd h o.setup true o.sent

/-- `mmc_dma_rw()`。 -/
def mmcDmaRw (h : Host) (s : Sim) (o : Hw) : Sim :=
  if s.nbytes = s.offset then s.finish
  else
    let r := s.mmcDmaXfer h o
    if r.1 then
      { r.2 with offset := r.2.offset + o.setup, blkno := (r.2.blkno + (o.setup % 2 ^ 32).toNat / r.2.d.blksize) % 2 ^ 32 }
    else r.2.mmcError

/-- `mmc_pio_xfer()`。 -/
def mmcPioXfer (h : Host) (s : Sim) (nbytes : Int) (o : Hw) : Bool × Sim :=
  let r := s.mmcWaitCardReady h o
  if ¬r.1 then r
  else if o.setup ≠ nbytes then (false, r.2)
  else r.2.mmcSendRwcmd h nbytes false o.sent

/-- `mmc_pio_initiate()`。 -/
def mmcPioInitiate (h : Host) (s : Sim) (q : Request) (o : Hw) : Sim :=
  if q.phys then s.mmcError
  else
    let r := { s with nbytes := q.buf.total }.mmcPioXfer h q.buf.total o
    if r.1 ∧ 0 < q.buf.total then { r.2 with state := .data } else r.2.mmcError

/-- `mmc_dma_initiate()`。散らばった要求では、`setup_sgdma()` の返り値を全体の長さとする。 -/
def mmcDmaInitiate (h : Host) (s : Sim) (q : Request) (o : Hw) : Sim :=
  match q.buf with
  | .scatter _ =>
      if h.sgdma then
        let r := s.mmcDmaXfer h o
        if r.1 then { r.2 with state := .data, nbytes := o.setup, offset := o.setup } else r.2.mmcError
      else s.mmcError
  | .linear len =>
      let s := { s with nbytes := len }.mmcDmaRw h o
      if s.nexus.any fun n => n.status = .inprog then { s with state := .data } else s

/-- `mmc_pio_stop()`。 -/
def mmcPioStop (s : Sim) (o : Hw) (dirIn : Bool) : Sim :=
  if s.dirIn = dirIn then
    if s.stop = .pend then if o.stopSent then { s with stop := .issued } else { s.mmcError with stop := .none }
    else s.finish
  else s

/-- 線形の要求での `mmc_pio_rw()` の繰り返し。返すのは、次の `offset` と移したバイト数である。列が尽きた後の `pio_done()` は 0 を返す。 -/
def pioLinear (nbytes : Int) : List Int → Int → Int × Int
  | [], off => (if off = nbytes then -1 else off, 0)
  | k :: ks, off =>
      let off := if off + k = nbytes then -1 else off + k
      if k ≠ 0 ∧ off ≠ -1 then
        let r := pioLinear nbytes ks off
        (r.1, k + r.2)
      else (off, k)

/-- 要素の終わりに達したら次の要素に進む。 -/
def sgAdvance (counts : List Nat) (sgi : Nat) (off : Int) : Nat × Int :=
  if off = counts.getD sgi 0 then if sgi + 1 ≥ counts.length then (sgi + 1, -1) else (sgi + 1, 0) else (sgi, off)

/-- 散らばった要求での `mmc_pio_rw()` の繰り返し。 -/
def pioScatter (counts : List Nat) : List Int → Nat → Int → Nat × Int × Int
  | [], sgi, off =>
      let p := sgAdvance counts sgi off
      (p.1, p.2, 0)
  | k :: ks, sgi, off =>
      let p := sgAdvance counts sgi (off + k)
      if k ≠ 0 ∧ p.2 ≠ -1 then
        let r := pioScatter counts ks p.1 p.2
        (r.1, r.2.1, k + r.2.2)
      else (p.1, p.2, k)

/-- 次の `cur_sg` と `offset`、移したバイト数。 -/
def pioMoved (s : Sim) (q : Request) (o : Hw) : Nat × Int × Int :=
  match q.buf with
  | .scatter counts => pioScatter counts o.pieces s.curSg s.offset
  | .linear _ => (s.curSg, pioLinear s.nbytes o.pieces s.offset)

/-- `mmc_pio_rw()`。 -/
def mmcPioRw (s : Sim) (q : Request) (o : Hw) : Sim :=
  if s.offset = -1 then s.mmcPioStop o false
  else
    let r := s.pioMoved q o
    let s := { s with curSg := r.1, offset := r.2.1 }.update (Nexus.last (Cmd.move r.2.2))
    if s.offset = -1 then s.mmcPioStop o true else s

/-! ## 実行 -/

/-- `mmc_set_partition()`。 -/
def setPartition (h : Host) (s : Sim) (lun : Nat) (o : Hw) : Bool × Sim :=
  if s.d.pactive = lun then (true, s)
  else
    let r := s.sendWait h o.switch
    if r.1 then (true, { r.2 with d := { r.2.d with pactive := lun } }) else r

/-- `mmc_io_cmds()` の `READ10` と `WRITE10`。 -/
def mmcRw (h : Host) (s : Sim) (q : Request) (dirIn : Bool) (o : Hw) : Sim :=
  if s.ready then
    let s := { s with offset := 0, curSg := 0, dirIn, blkno := q.lba }.update fun n => { n with cmds := [], past := n.all }
    let r := s.setPartition h q.lun o
    if ¬r.1 then r.2.mmcError
    else if h.pio then if h.setupPio then r.2.mmcPioInitiate h q o else r.2.mmcError
    else if h.setupDma then r.2.mmcDmaInitiate h q o
    else r.2.mmcError
  else s.mmcSense

/-- `mmc_unit_ready()`。 -/
def mmcUnitReady (h : Host) (s : Sim) : Sim :=
  if s.mediaChanged then { s.mmcSense with mediaChanged := false }
  else if s.ready then
    if s.present.isSome then s.update fun n => { n with status := .cmp } else (s.mmcMediaCheck h).mmcSense
  else s.mmcSense

/-- `mmc_inquiry()`。 -/
def mmcInquiry (h : Host) (s : Sim) (evpd : Option Bool) : Sim :=
  if s.ready then if evpd.getD true then s.finish else s.mmcSense
  else if h.normval then s.finish
  else s.mmcSense

/-- `mmc_io_cmds()`。 -/
def mmcIoCmds (h : Host) (s : Sim) (q : Request) (o : Hw) : Sim :=
  if s.state = .ident then s
  else
    match q.func with
    | .scsiIo .read => s.mmcRw h q true o
    | .scsiIo .write => if o.wp then s.mmcSense else s.mmcRw h q false o
    | .scsiIo (.msense known) => if s.ready ∧ known then s.finish else s.mmcSense
    | .scsiIo .unitReady => s.mmcUnitReady h
    | .scsiIo (.inquiry evpd) => s.mmcInquiry h evpd
    | .scsiIo .rdCap => if q.phys then s.mmcError else if s.ready then s.finish else s.mmcSense
    | .scsiIo (.spindle known) => if s.ready ∧ known then s.finish else s.mmcSense
    | .scsiIo .sync => s.finish
    | _ => s.mmcSense

/-- CCB の種類で分ける。 -/
def execute (h : Host) (s : Sim) (q : Request) (o : Hw) : Sim :=
  match q.func with
  | .scsiIo _ => s.mmcIoCmds h q o
  | .devctl => s.update fun n => { n with status := .cmp }
  | .other => s.update fun n => { n with status := .cmpErr, check := true }

/-- 進行中でなければ返す。 -/
def post (s : Sim) : Sim :=
  match s.nexus with
  | some n => if n.status = .inprog then s else { s with nexus := none, posted := s.posted ++ [n] }
  | none => s

/-- `simq_ccb_dequeue()` が `k` 番目を取り出す。 -/
def dequeue (s : Sim) (k id : Nat) (q : Request) : Sim :=
  { s with
    queue := s.queue.eraseIdx k, dequeued := s.dequeued ++ [id], home := s.present, gone := none
    nexus := some { id, req := q, check := q.check } }

/-- `mmc_start_ccb()` の繰り返しの一回。`k` の位置に CCB が無ければ、`simq_ccb_dequeue()` は `NULL` を返す。 -/
def mmcStartCcb (h : Host) (s : Sim) (k : Nat) (o : Hw) : Sim :=
  match s.nexus, s.queue[k]? with
  | none, some (id, q) => ((s.dequeue k id q).execute h q o).post
  | _, _ => s

/-! ## 割り込み -/

/-- `mmc_dma_irq()`。 -/
def mmcDmaIrq (h : Host) (s : Sim) (o : Hw) : Sim :=
  if s.stop = .pend then if o.stopSent then { s with stop := .issued } else { s.mmcError with stop := .none }
  else s.mmcDmaRw h o

/-- 識別の途中の待ち。`mmc_partition_config()` と `mmc_ident_switch_buswidth()` にある。 -/
def identWait (h : Host) (s : Sim) (o : Hw) : Bool × Sim :=
  match s.d.ident with
  | .extCsd => s.sendWait h o.switch
  | .mmcSwitchModeBuswidth => s.mmcWaitCardReady h o
  | _ => (true, s)

/-- `mmc_ident_irq()`。 -/
def mmcIdentIrq (h : Host) (s : Sim) (i : Intr) (e : Event) (o : Hw) : Sim :=
  let w := s.identWait h o
  let r := s.d.cardIdent h.toConf { e with command := i.command, error := i.error, detect := s.present.isSome, ready := w.1 }
  let s := { w.2 with d := r.2 }
  if r.1 then
    if r.2.ident = .none then
      let s := { s with state := .idle, ready := true }
      match s.nexus with
      | some n => s.mmcIoCmds h n.req o
      | none => s
    else s
  else
    let s := { s with state := .idle }
    (if s.present.isSome then { s with invalidCard := true } else s.mmcMediaCheck h).mmcError

/-- `mmc_data_irq()` で停止の命令を送ってある場合。 -/
def stopIrq (h : Host) (s : Sim) (n : Nexus) (i : Intr) (o : Hw) : Sim :=
  if i.error then
    if s.stopsRetry > 5 ∨ ¬o.stopSent then { s.mmcError with stop := .none, stopsRetry := s.stopsRetry + 1 }
    else { s with stopsRetry := s.stopsRetry + 1 }
  else if i.command then
    let s := { s with stop := .none, stopsRetry := 0 }.update (Nexus.last Cmd.halt)
    if n.check then s.mmcError
    else if h.pio then s.finish
    else s.mmcDmaIrq h o
  else s

/-- `mmc_data_irq()`。 -/
def mmcDataIrq (h : Host) (s : Sim) (n : Nexus) (i : Intr) (o : Hw) : Sim :=
  if s.stop = .issued then s.stopIrq h n i o
  else
    let s := { s with stopsRetry := 0 }
    if i.error then
      if o.stopSent then { s with stop := .issued }.update fun n => { n with check := true } else { s.mmcError with stop := .none }
    else if i.data then
      if h.pio then s.mmcPioRw n.req o
      else if o.dmaDone then (s.update (Nexus.last Cmd.complete)).mmcDmaIrq h o
      else s.mmcError
    else if i.ready then s.mmcPioRw n.req o
    else s

/-- 進行中でなければ、`state` を戻して返す。 -/
def settle (s : Sim) : Sim := if s.nexus.any fun n => n.status ≠ .inprog then { s with state := .idle }.post else s

/-- `mmc_process_interrupt()`。データの状態での ERROR は、終わっていないデータ命令の記録に残す。 -/
def mmcProcessInterrupt (h : Host) (s : Sim) (i : Intr) (e : Event) (o : Hw) : Sim :=
  let s := s.chipset i
  if i.isNone then s
  else if i.card then (s.mmcMediaCheck h).mmcError.settle
  else
    match s.state, s.nexus with
    | .ident, _ => (s.mmcIdentIrq h i e o).settle
    | .data, some n => ((if i.error then s.update (Nexus.last Cmd.fail) else s).mmcDataIrq h n i o).settle
    | _, _ => s.settle

/-! ## 一歩 -/

/-- ドライバのスレッドの外で起きること、または `mmc_pulse_handler()` の受ける割り込みと `SIM_TIMER`、その後の `mmc_start_ccb()` の繰り返しの一回。 -/
inductive Step
  | ambient (a : Ambient)
  | start (k : Nat) (o : Hw)
  | interrupt (i : Intr) (e : Event) (o : Hw)
  | timer

def step (h : Host) (s : Sim) : Step → Except Unit Sim
  | .ambient a => .ok (s.ambient h a)
  | .start k o => .ok (s.mmcStartCcb h k o)
  | .interrupt i e o => .ok (s.mmcProcessInterrupt h i e o)
  | .timer => .ok (if h.cdIntr then s else s.mmcMediaCheck h)

end Sim

end Imx6Bsp.Devb
