import Imx6Bsp.Lib.Rings

/-!
# PTP の時刻印（`devnp/mx6x/ptp.c`）

受信と送信のそれぞれに、message の種類ごとの環が四つある。記録は環を順に上書きし、問い合わせは環を先頭から探す。
番号の変数は `PDELAY_REQ` と `PDELAY_RESP` で名前が入れ替わっているが、環との組はいつも同じである。
-/

namespace Imx6Bsp.Devnp.Ptp

open Imx6Bsp.Lib

/-! ## データ -/

/-- `mx6q_ptp_time_t`。 -/
structure PtpTime where
  sec : BitVec 32
  nsec : BitVec 32
deriving DecidableEq

abbrev SportIdentity := Fin 10 → BitVec 8

/-- `mx6q_ptp_timestamp_t`。 -/
structure PtpTimestamp where
  sportIdentity : SportIdentity
  sequenceId : BitVec 16
  timestamp : PtpTime
deriving DecidableEq

/-- `memset` で消した `mx6q_ptp_timestamp_t`。 -/
def PtpTimestamp.zero : PtpTimestamp := ⟨fun _ => 0, 0, ⟨0, 0⟩⟩

/-- `ptpv2hdr_t` のうち読まれるもの。`sequenceId` はネットワークの順のままである。 -/
structure Ptpv2hdr where
  messageId : BitVec 8
  version : BitVec 8
  sourcePortIdentity : SportIdentity
  sequenceId : BitVec 16

/-- `mx6q_ptp_extts_t`。 -/
structure PtpExtts where
  msgType : BitVec 8
  sportIdentity : SportIdentity
  sequenceId : BitVec 16
  ts : PtpTime
deriving DecidableEq

inductive PtpMsg
  | sync | delayReq | pdelayReq | pdelayResp
deriving DecidableEq

/-- `PTP_MSG_SYNC` から `PTP_MSG_PDELAY_RESP` まで。ほかの種類に環はない。 -/
def PtpMsg.ofCode (code : BitVec 8) : Option PtpMsg :=
  if code = 0 then some .sync
  else if code = 1 then some .delayReq
  else if code = 2 then some .pdelayReq
  else if code = 3 then some .pdelayResp
  else none

/-- little endian の機械での `ntohs`。 -/
def ntohs (x : BitVec 16) : BitVec 16 := x <<< 8 ||| x >>> 8

/-- 片方の向きの環と番号。 -/
structure TsBufs where
  syncTs : List PtpTimestamp
  delayreqTs : List PtpTimestamp
  pdelayreqTs : List PtpTimestamp
  pdelayrespTs : List PtpTimestamp
  syncCnt : Nat
  delayreqCnt : Nat
  pdelayrespCnt : Nat
  pdelayreqCnt : Nat

/-- `MX6Q_RX_TIMESTAMP_BUF_SZ`。 -/
def rxTimestampBufSz : Nat := 64

/-- `MX6Q_TX_TIMESTAMP_BUF_SZ`。 -/
def txTimestampBufSz : Nat := 16

/-- `mx6q_dev_t` の環。 -/
structure PtpState where
  rx : TsBufs
  tx : TsBufs

/-- `mx6q_attach` が用意する環。 -/
def TsBufs.start (size : Nat) : TsBufs :=
  let zeros := List.replicate size PtpTimestamp.zero
  ⟨zeros, zeros, zeros, zeros, 0, 0, 0, 0⟩

def PtpState.start : PtpState := ⟨.start rxTimestampBufSz, .start txTimestampBufSz⟩

/-! ## 記録 -/

/-- `mx6q_ptp_add_ts` が書く項目。port の番号は host の順で置かれる。 -/
def ptpAddTs (rtc : BitVec 32) (ph : Ptpv2hdr) (bdTimestamp : BitVec 32) : PtpTimestamp where
  sportIdentity := fun i =>
    if i.val = 8 then ph.sourcePortIdentity ⟨9, by decide⟩
    else if i.val = 9 then ph.sourcePortIdentity ⟨8, by decide⟩
    else ph.sourcePortIdentity i
  sequenceId := ntohs ph.sequenceId
  timestamp := ⟨rtc, bdTimestamp⟩

/-- `mx6q_ptp_add_rx_timestamp` と `mx6q_ptp_add_tx_timestamp` に共通の形。 -/
def ptpAddTimestamp (size : Nat) (b : TsBufs) (rtc : BitVec 32) (ph : Ptpv2hdr) (bdTimestamp : BitVec 32) : TsBufs :=
  if ph.version &&& 0x0f ≠ 0x2 then b
  else
    let ts := ptpAddTs rtc ph bdTimestamp
    match PtpMsg.ofCode (ph.messageId &&& 0x0f) with
    | some .sync =>
        let r := ringPut size (b.syncTs, b.syncCnt) ts
        { b with syncTs := r.1, syncCnt := r.2 }
    | some .delayReq =>
        let r := ringPut size (b.delayreqTs, b.delayreqCnt) ts
        { b with delayreqTs := r.1, delayreqCnt := r.2 }
    | some .pdelayReq =>
        -- 番号は `pdelayresp_cnt` である。
        let r := ringPut size (b.pdelayreqTs, b.pdelayrespCnt) ts
        { b with pdelayreqTs := r.1, pdelayrespCnt := r.2 }
    | some .pdelayResp =>
        let r := ringPut size (b.pdelayrespTs, b.pdelayreqCnt) ts
        { b with pdelayrespTs := r.1, pdelayreqCnt := r.2 }
    | none => b

/-- `mx6q_ptp_add_rx_timestamp`。 -/
def ptpAddRxTimestamp (s : PtpState) (rtc : BitVec 32) (ph : Ptpv2hdr) (bdTimestamp : BitVec 32) : PtpState :=
  { s with rx := ptpAddTimestamp rxTimestampBufSz s.rx rtc ph bdTimestamp }

/-- `mx6q_ptp_add_tx_timestamp`。 -/
def ptpAddTxTimestamp (s : PtpState) (rtc : BitVec 32) (ph : Ptpv2hdr) (bdTimestamp : BitVec 32) : PtpState :=
  { s with tx := ptpAddTimestamp txTimestampBufSz s.tx rtc ph bdTimestamp }

/-! ## 問い合わせ -/

/-- `mx6q_ptp_get_ts`。見つかれば、時刻を写した構造体を返す。 -/
def ptpGetTs (tsbuff : List PtpTimestamp) (extts : PtpExtts) (buffsz : Nat) : Option PtpExtts :=
  ((tsbuff.take buffsz).find? fun e => extts.sequenceId = e.sequenceId).map fun e => { extts with ts := e.timestamp }

/-- `mx6q_ptp_get_rx_timestamp` と `mx6q_ptp_get_tx_timestamp` に共通の形。 -/
def ptpGetTimestamp (size : Nat) (b : TsBufs) (ts : PtpExtts) : Option PtpExtts :=
  match PtpMsg.ofCode ts.msgType with
  | some .sync => ptpGetTs b.syncTs ts size
  | some .delayReq => ptpGetTs b.delayreqTs ts size
  | some .pdelayReq => ptpGetTs b.pdelayreqTs ts size
  | some .pdelayResp => ptpGetTs b.pdelayrespTs ts size
  | none => none

/-- `mx6q_ptp_get_rx_timestamp`。 -/
def ptpGetRxTimestamp (s : PtpState) (ts : PtpExtts) : Option PtpExtts := ptpGetTimestamp rxTimestampBufSz s.rx ts

/-- `mx6q_ptp_get_tx_timestamp`。 -/
def ptpGetTxTimestamp (s : PtpState) (ts : PtpExtts) : Option PtpExtts := ptpGetTimestamp txTimestampBufSz s.tx ts

/-! ## 履歴 -/

inductive Direction
  | rx | tx
deriving DecidableEq

/-- 一回の記録。`rtc` はそのときの秒である。 -/
structure PtpRecord where
  dir : Direction
  rtc : BitVec 32
  ph : Ptpv2hdr
  bdTimestamp : BitVec 32

def PtpState.record (s : PtpState) (r : PtpRecord) : PtpState :=
  match r.dir with
  | .rx => ptpAddRxTimestamp s r.rtc r.ph r.bdTimestamp
  | .tx => ptpAddTxTimestamp s r.rtc r.ph r.bdTimestamp

def PtpState.run (hist : List PtpRecord) : PtpState := hist.foldl PtpState.record .start

def PtpState.query (s : PtpState) : Direction → PtpExtts → Option PtpExtts
  | .rx => ptpGetRxTimestamp s
  | .tx => ptpGetTxTimestamp s

/-- 記録された PTPv2 の event message の種類。 -/
def PtpRecord.msg (r : PtpRecord) : Option PtpMsg :=
  if r.ph.version &&& 0x0f ≠ 0x2 then none else PtpMsg.ofCode (r.ph.messageId &&& 0x0f)

def PtpRecord.stamp (r : PtpRecord) : PtpTimestamp := ptpAddTs r.rtc r.ph r.bdTimestamp

/-- その向きと種類の記録を古い順に並べたもの。 -/
def recorded (hist : List PtpRecord) (d : Direction) (t : PtpMsg) : List PtpTimestamp :=
  (hist.filter fun r => r.dir = d ∧ r.msg = some t).map PtpRecord.stamp

def Direction.bufSz : Direction → Nat
  | .rx => rxTimestampBufSz
  | .tx => txTimestampBufSz

/-- 環の大きさだけ遡った中で、問い合わせに合う最も新しい記録。 -/
def latest (hist : List PtpRecord) (d : Direction) (q : PtpExtts) (t : PtpMsg) : Option PtpTimestamp :=
  (lastOf d.bufSz (recorded hist d t)).reverse.find? fun e =>
    e.sequenceId = q.sequenceId ∧ e.sportIdentity = q.sportIdentity

/-- 説明の通りの答え。 -/
def PtpExtts.answer (q : PtpExtts) (hist : List PtpRecord) (d : Direction) : Option PtpTime :=
  (PtpMsg.ofCode q.msgType).bind fun t => (latest hist d q t).map PtpTimestamp.timestamp

end Imx6Bsp.Devnp.Ptp
