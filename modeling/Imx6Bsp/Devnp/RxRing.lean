import Imx6Bsp.Devnp.TxRing
import Imx6Bsp.Lib.Rings

/-!
# イーサネットの受信リング（`devnp/mx6x/receive.c`、`ptp.c`）

`mx6q_receive()` の一回の繰り返しを二歩に分ける。`poll` は記述子の `status` を読むところから `mx6q_add_pkt()` まで、`pass` は時刻印と
`if_input()` である。`poll` の間は `RXBD_E` が落ちていて NIC はその記述子に触れず、二歩の間には NIC の歩みが何歩でも入る。
-/

namespace Imx6Bsp.Devnp

open Imx6Bsp.Lib

/-! ## データ -/

/-- NIC が一つの記述子に受けたもの。`bytes` は CRC を含む。 -/
structure Frame where
  bytes : List UInt8
  last : Bool := true
  err : Bool := false
  timestamp : BitVec 32
  fits : bytes.length < 2 ^ 16

/-- `mpc_bd_t`。`buffer` は mbuf の番号、`empty`、`wrap`、`last`、`err` は `status` のビットである。 -/
structure RxBd where
  length : Nat := 0
  buffer : Nat
  empty : Bool := true
  wrap : Bool
  last : Bool := false
  err : Bool := false
  timestamp : BitVec 32 := 0
deriving DecidableEq, Repr

/-- `mx6q_ptp_timestamp_t`。 -/
structure Stamp where
  sportIdentity : List UInt8 := List.replicate 10 0
  sequenceId : Nat := 0
  sec : BitVec 32 := 0
  nsec : BitVec 32 := 0
deriving DecidableEq, Repr

/-- 時刻印を残す PTP の伝言。 -/
inductive PtpMsg
  | sync
  | delayReq
  | pdelayReq
  | pdelayResp
deriving DecidableEq, Repr

/-- 伝言ごとの時刻印の列と、次に書く位置。`pdelayReq` の位置は `rx_pdelayresp_cnt`、`pdelayResp` の位置は `rx_pdelayreq_cnt` である。 -/
structure PtpBufs where
  ts : PtpMsg → Nat → Stamp := fun _ _ => {}
  cnt : PtpMsg → Nat := fun _ => 0

/-- `poll` が取り出した mbuf と、その記述子の番号、`length`、`RXBD_L`。 -/
structure Held where
  idx : Nat
  id : Nat
  len : Nat
  last : Bool
deriving DecidableEq, Repr

/-- `if_input()` に渡したもの。`len` は `m_len`、`pktLen` は `m_pkthdr.len`、`stamp` は残した時刻印である。 -/
structure Passed where
  data : List UInt8
  len : Nat
  pktLen : Nat
  stamp : Option Stamp
deriving DecidableEq, Repr

/-- 新しい mbuf。`hdrLen` は割り当てたときの `m_pkthdr.len` である。 -/
structure NewMbuf where
  data : List UInt8 := []
  hdrLen : Nat := 0

/-- `received` は NIC が受けたものの記録、`allocs` は取り出した順の、代わりの mbuf が取れたかの記録である。 -/
structure RxRing where
  num : Nat
  bd : Nat → RxBd
  pkts : Nat → Option Nat
  cidx : Nat := 0
  nic : Nat := 0
  mem : Nat → List UInt8
  hdrLen : Nat → Nat
  issued : Nat
  held : Option Held := none
  ptp : PtpBufs := {}
  received : List Frame := []
  allocs : List Bool := []
  passed : List Passed := []

def minNumRxDescriptors : Nat := 16

def maxNumRxDescriptors : Nat := 2048

/-- `mx6q_init()` の後のリング。 -/
def RxRing.start (requested : Nat) (new : Nat → NewMbuf) : RxRing :=
  let num := clampDescriptors minNumRxDescriptors maxNumRxDescriptors requested
  { num
    bd := fun i => { buffer := i, wrap := i + 1 = num }
    pkts := fun i => if i < num then some i else none
    mem := fun id => (new id).data
    hdrLen := fun id => (new id).hdrLen
    issued := num }

/-! ## NIC -/

/-- NIC が一つ受ける。`RXBD_E` が落ちていれば受けない。 -/
def RxRing.receive (t : RxRing) (f : Frame) : RxRing :=
  let b := t.bd t.nic
  if b.empty then
    { t with
      mem := Function.update t.mem b.buffer (overwrite (t.mem b.buffer) 0 f.bytes)
      bd := Function.update t.bd t.nic
        { b with length := f.bytes.length, empty := false, last := f.last, err := f.err, timestamp := f.timestamp }
      nic := if b.wrap then 0 else t.nic + 1
      received := t.received ++ [f] }
  else t

/-! ## 記述子 -/

/-- `mx6q_add_pkt()`。 -/
def RxRing.mx6qAddPkt (t : RxRing) (id idx : Nat) : RxRing :=
  { t with
    pkts := Function.update t.pkts idx (some id)
    bd := Function.update t.bd idx { buffer := id, wrap := idx + 1 = t.num, timestamp := (t.bd idx).timestamp } }

/-- CRC を除いた長さ。`uint16_t` で計算する。 -/
def rxLength (length : Nat) : Nat := (length % 2 ^ 11 + 2 ^ 16 - 4) % 2 ^ 16

def RxRing.next (t : RxRing) (i : Nat) : Nat := (i + 1) % t.num

/-- 繰り返しの前半。`new` は `m_getcl_wtp()` の答えである。 -/
def RxRing.poll (t : RxRing) (new : Option NewMbuf) : Except Unit RxRing :=
  let idx := t.cidx
  let b := t.bd idx
  if b.empty then .ok t
  else
    match t.pkts idx with
    | none => .error ()
    | some rpkt =>
        let t := { t with cidx := t.next idx, allocs := t.allocs ++ [new.isSome] }
        if b.err then .ok (t.mx6qAddPkt rpkt idx)
        else
          match new with
          | none => .ok (t.mx6qAddPkt rpkt idx)
          | some m =>
              let id := t.issued
              let t := { t with
                issued := id + 1, mem := Function.update t.mem id m.data, hdrLen := Function.update t.hdrLen id m.hdrLen }
              .ok { t.mx6qAddPkt id idx with held := some ⟨idx, rpkt, rxLength b.length, b.last⟩ }

/-! ## 時刻印 -/

def byteAt (m : List UInt8) (i : Nat) : Nat := (m.getD i 0).toNat

/-- `ntohs()` で読む。 -/
def be16At (m : List UInt8) (i : Nat) : Nat := byteAt m i * 256 + byteAt m (i + 1)

/-- `mx6q_ptp_is_eventmsg()`。PTP の頭の位置を返す。 -/
def mx6qPtpIsEventmsg (m : List UInt8) : Option Nat :=
  if be16At m 12 = 0x88f7 then some 14
  else if be16At m 12 = 0x0800 then
    if byteAt m 23 = 17 then
      let udph := 14 + 4 * (byteAt m 14 % 16)
      if be16At m (udph + 2) = 0x13f then some (udph + 8) else none
    else none
  else none

/-- `mx6q_ptp_add_rx_timestamp()` が時刻印を残す伝言。 -/
def ptpMsg (m : List UInt8) (ph : Nat) : Option PtpMsg :=
  if byteAt m (ph + 1) % 16 ≠ 2 then none
  else
    match byteAt m ph % 16 with
    | 0 => some .sync
    | 1 => some .delayReq
    | 2 => some .pdelayReq
    | 3 => some .pdelayResp
    | _ => none

/-- 時刻印を残す場合の、伝言の種類と頭の位置。 -/
def recordedAs (m : List UInt8) : Option (PtpMsg × Nat) := do
  let ph ← mx6qPtpIsEventmsg m
  let k ← ptpMsg m ph
  return (k, ph)

/-- `mx6q_ptp_add_ts()`。`portNumber` は `ntohs()` した値がリトルエンディアンで写される。 -/
def mx6qPtpAddTs (rtc : BitVec 32) (m : List UInt8) (ph : Nat) (timestamp : BitVec 32) : Stamp where
  sportIdentity := ((List.range 8).map fun i => m.getD (ph + 20 + i) 0) ++ [m.getD (ph + 29) 0, m.getD (ph + 28) 0]
  sequenceId := be16At m (ph + 30)
  sec := rtc
  nsec := timestamp

/-- `MX6Q_RX_TIMESTAMP_BUF_SZ`。 -/
def rxTimestampBufSz : Nat := 64

/-- 一つ書き、位置を進める。 -/
def PtpBufs.add (p : PtpBufs) (k : PtpMsg) (s : Stamp) : PtpBufs where
  ts := Function.update p.ts k (Function.update (p.ts k) (p.cnt k) s)
  cnt := Function.update p.cnt k (if p.cnt k + 1 ≥ rxTimestampBufSz then 0 else p.cnt k + 1)

/-- `mx6q_ptp_add_rx_timestamp()`。残した時刻印も返す。 -/
def PtpBufs.mx6qPtpAddRxTimestamp (p : PtpBufs) (rtc : BitVec 32) (m : List UInt8) (timestamp : BitVec 32) : PtpBufs × Option Stamp :=
  match recordedAs m with
  | none => (p, none)
  | some (k, ph) =>
      let q := p.add k (mx6qPtpAddTs rtc m ph timestamp)
      (q, some (q.ts k (p.cnt k)))

/-- 繰り返しの後半。`rtc` はそのときの `mx6q->rtc` である。 -/
def RxRing.pass (t : RxRing) (rtc : BitVec 32) : Except Unit RxRing :=
  match t.held with
  | none => .error ()
  | some h =>
      let data := t.mem h.id
      let pktLen := if h.last then h.len else t.hdrLen h.id
      -- 記述子はもう NIC のものなので、`timestamp` は書き換わっているかもしれない。
      let r := t.ptp.mx6qPtpAddRxTimestamp rtc data (t.bd h.idx).timestamp
      .ok { t with held := none, ptp := r.1, passed := t.passed ++ [⟨data.take h.len, h.len, pktLen, r.2⟩] }

/-! ## 実行 -/

inductive RxStep
  | receive (f : Frame)
  | poll (new : Option NewMbuf)
  | pass (rtc : BitVec 32)

def RxRing.step (t : RxRing) : RxStep → Except Unit RxRing
  | .receive f => .ok (t.receive f)
  | .poll new => if t.held.isSome then .error () else t.poll new
  | .pass rtc => t.pass rtc

/-- 時刻印を読む前の記述子に NIC が書かず、渡す枠は一つの記述子に収まり、長さが 11 ビットに収まる。 -/
def RxRing.Tame (t : RxRing) : RxStep → Prop
  | .receive _ => (t.bd t.nic).empty = true → ∀ h ∈ t.held, h.idx = t.nic → recordedAs (t.mem h.id) = none
  | .poll new =>
      let b := t.bd t.cidx
      b.empty = true ∨ b.err = true ∨ new.isNone = true ∨ b.last = true ∧ 4 ≤ b.length ∧ b.length < 2 ^ 11
  | .pass _ => True

instance RxRing.decidableTame (t : RxRing) (s : RxStep) : Decidable (t.Tame s) :=
  match s with
  | .receive _ => inferInstanceAs (Decidable ((t.bd t.nic).empty = true → ∀ h ∈ t.held, h.idx = t.nic → recordedAs (t.mem h.id) = none))
  | .poll new => inferInstanceAs (Decidable ((t.bd t.cidx).empty = true ∨ (t.bd t.cidx).err = true ∨ new.isNone = true ∨
      (t.bd t.cidx).last = true ∧ 4 ≤ (t.bd t.cidx).length ∧ (t.bd t.cidx).length < 2 ^ 11))
  | .pass _ => .isTrue trivial

/-! ## 正しさ -/

/-- 渡すべき枠。受けた順に、誤りがなく、代わりの mbuf が取れたもの。 -/
def RxRing.wanted (t : RxRing) : List Frame :=
  ((t.received.zip t.allocs).filter fun x => !x.1.err && x.2).map Prod.fst

/-- 枠を渡したときの形。 -/
structure Frame.Delivers (f : Frame) (p : Passed) : Prop where
  data : p.data = f.bytes.take (f.bytes.length - 4)
  len : p.len = f.bytes.length - 4
  pktLen : p.pktLen = f.bytes.length - 4
  stamp : ∀ s ∈ p.stamp, s.nsec = f.timestamp

/-- 受けた枠が入っている記述子。 -/
structure RxRing.Filled (t : RxRing) (b : RxBd) (f : Frame) : Prop where
  empty : b.empty = false
  length : b.length = f.bytes.length
  last : b.last = f.last
  err : b.err = f.err
  timestamp : b.timestamp = f.timestamp
  data : (t.mem b.buffer).take f.bytes.length = f.bytes

/-- リングの正しさ。`queued` は、まだ取り出していない枠がリングに残っていることを表す。 -/
structure RxRing.Sound (t : RxRing) : Prop where
  buffers : ∀ i < t.num, t.pkts i = some (t.bd i).buffer
  wrap : ∀ i < t.num, ((t.bd i).wrap = true ↔ i + 1 = t.num)
  passed : List.Forall₂ Frame.Delivers (t.wanted.take t.passed.length) t.passed
  inHand : t.wanted.length = t.passed.length + t.held.toList.length
  taken : t.allocs.length ≤ t.received.length
  queued : ∀ j f, t.received[t.allocs.length + j]? = some f → j < t.num ∧ t.Filled (t.bd ((t.cidx + j) % t.num)) f
  recorded : ∀ k i, t.ptp.ts k i = {} ∨ ∃ p ∈ t.passed, p.stamp = some (t.ptp.ts k i)

end Imx6Bsp.Devnp
