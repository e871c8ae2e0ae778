import Imx6Bsp.Lib.Bursts

/-!
# ECSPI の転送（`spi/mx51ecspi` の `mxecspi.c`、`intr.c`）

burst の転送を写す。番地は `buf` からのバイト数である。制御器は `XCH` のたびに `CONTROLREG` の長さだけ送り、同じ長さを受ける。時間の計算、
chip select と `mx51_wait()` の時間切れは省く。
-/

namespace Imx6Bsp.Spi

open Imx6Bsp.Lib

/-! ## 語の幅 -/

/-- `dlen`。 -/
inductive Width
  | w8
  | w16
  | w32
deriving DecidableEq, Repr

def Width.bytes : Width → Nat
  | .w8 => 1
  | .w16 => 2
  | .w32 => 4

/-- `buf[t]` からの四バイトで送る語。 -/
def loadWord (w : Width) (mem : Nat → BitVec 8) (t : Nat) : BitVec 32 :=
  match w with
  | .w8 => word4 (mem t) (mem (t + 1)) (mem (t + 2)) (mem (t + 3))
  | .w16 => word4 (mem (t + 1)) (mem t) (mem (t + 3)) (mem (t + 2))
  | .w32 => word4 (mem (t + 3)) (mem (t + 2)) (mem (t + 1)) (mem t)

/-- `buf[r]` からの四バイトに置く値。 -/
def storeBytes (w : Width) (data : BitVec 32) : List (BitVec 8) :=
  match w with
  | .w8 => [(data >>> 24).setWidth 8, (data >>> 16).setWidth 8, (data >>> 8).setWidth 8, data.setWidth 8]
  | .w16 => [(data >>> 16).setWidth 8, (data >>> 24).setWidth 8, data.setWidth 8, (data >>> 8).setWidth 8]
  | .w32 => [data.setWidth 8, (data >>> 8).setWidth 8, (data >>> 16).setWidth 8, (data >>> 24).setWidth 8]

/-! ## 制御器と `mx51_cspi_t` -/

/-- 転送の相手。`slave` は、何番目かのバイトで返る値、`junk` は、何番目かの burst の最初の語の上位に残る値である。 -/
structure SpiSlave where
  slave : Nat → BitVec 8
  junk : Nat → BitVec 32

/-- `bcnt` は次の burst のビット数から 1 を引いたもの、`tx` と `rx` は FIFO である。`writes`、`sent`、`loads` は、書いた番地、送ったバイトと、
burst ごとの積んだ語とバイトの数の記録である。 -/
structure Cspi where
  width : Width
  mem : Nat → BitVec 8
  xlen : Nat
  tlen : Nat := 0
  rlen : Nat := 0
  bcnt : Nat := 0
  tx : List (BitVec 32) := []
  rx : List (BitVec 32) := []
  writes : List Nat := []
  sent : List (BitVec 8) := []
  loads : List (Nat × Nat) := []

/-- `XCH`。 -/
def exchange (env : SpiSlave) (s : Cspi) : Cspi :=
  let k := (s.bcnt + 1) / 8
  { s with
    tx := s.tx.drop (burstWords k)
    rx := s.rx ++ shiftIn k (env.junk s.loads.length) ((List.range' s.sent.length k).map env.slave)
    sent := s.sent ++ shiftOut k s.tx
    loads := s.loads ++ [(s.tx.length, k)] }

/-! ## 送る語 -/

/-- `MX51_CSPI_BURST_MAX`。 -/
def burstMax : Nat := 32

/-- 語に満たない分を送る語。合わない長さでは何も積まない。 -/
def remainder (s : Cspi) (rest : Nat) : List (BitVec 32) :=
  match rest, s.width with
  | 1, .w8 => [word4 0 0 0 (s.mem s.tlen)]
  | 2, .w8 => [word4 0 0 (s.mem s.tlen) (s.mem (s.tlen + 1))]
  | 2, .w16 => [word4 0 0 (s.mem (s.tlen + 1)) (s.mem s.tlen)]
  | 3, .w8 => [word4 0 (s.mem s.tlen) (s.mem (s.tlen + 1)) (s.mem (s.tlen + 2))]
  | _, _ => []

/-- 語に満たない分を積む。 -/
def loadRemainder (rest : Nat) (s : Cspi) : Cspi :=
  let words := remainder s rest
  { s with tx := s.tx ++ words, tlen := if words = [] then s.tlen else s.tlen + rest }

/-- 残りの語を積む繰り返し。 -/
def fillLoop : Nat → Cspi → Cspi
  | 0, s => s
  | n + 1, s => if s.xlen > s.tlen then fillLoop n { s with tx := s.tx ++ [loadWord s.width s.mem s.tlen], tlen := s.tlen + 4 } else s

/-- 残りが `count` バイトのときの burst。`mx51_xfer()` と `spi_intr()` が同じことをする。 -/
def loadBurst (count : Nat) (s : Cspi) : Cspi :=
  if count ≥ burstMax then fillLoop 8 { s with bcnt := burstMax * 8 - 1 }
  else fillLoop 8 (loadRemainder (count % 4) { s with bcnt := count * 8 - 1 })

/-! ## `spi_intr()` -/

/-- 一つの語を `pbuf` に置く。 -/
def storeWord (s : Cspi) (data : BitVec 32) : Cspi :=
  { s with
    mem := fun a => if s.rlen ≤ a ∧ a < s.rlen + 4 then (storeBytes s.width data).getD (a - s.rlen) 0 else s.mem a
    writes := s.writes ++ List.range' s.rlen 4
    rlen := s.rlen + 4 }

/-- 受けた語を全て置く。 -/
def drain (s : Cspi) : Cspi := { s.rx.foldl storeWord s with rx := [] }

/-- `spi_intr()`。真は、待っている `mx51_xfer()` を起こすことを表す。 -/
def spiIntr (s : Cspi) : Bool × Cspi :=
  let s := if s.xlen - s.tlen > 0 then loadBurst (s.xlen - s.tlen) s else s
  let s := drain s
  (decide (s.rlen ≥ s.xlen), s)

/-- 起こされるまでの転送と割り込み。 -/
def bursts (env : SpiSlave) : Nat → Cspi → Option Cspi
  | 0, _ => none
  | fuel + 1, s =>
      let (done, s) := spiIntr (exchange env s)
      if done then some s else bursts env fuel s

/-! ## `mx51_xfer()` -/

/-- `memcpy(&buf[burst], &buf[burst + skip], xlen - burst)` と `rlen` の直し。 -/
def discard (skip : Nat) (s : Cspi) : Cspi :=
  let burst := s.xlen / burstMax * burstMax
  { s with
    mem := fun a => if burst ≤ a ∧ a < s.xlen then s.mem (a + skip) else s.mem a
    writes := s.writes ++ List.range' burst (s.xlen - burst)
    rlen := s.rlen - skip }

/-- 最後の burst の、最初の語の余分なバイトを捨てる。 -/
def repair (s : Cspi) : Cspi :=
  match s.xlen % 4 with
  | 1 => discard 3 s
  | 2 => discard 2 s
  | 3 => discard 1 s
  | _ => s

/-- `mx51_xfer()`。`rlen` が `*len` になる。`none` は、`fuel` 回の burst で終わらないことを表す。 -/
def mx51Xfer (fuel : Nat) (env : SpiSlave) (width : Width) (buf : Nat → BitVec 8) (len : Nat) : Option Cspi :=
  (bursts env fuel (loadBurst len { width, mem := buf, xlen := len })).map repair

/-! ## 仕様 -/

/-- `i` 番目に送るバイトの番地。語の中では、上位のバイトから送る。 -/
def wireIndex : Width → Nat → Nat
  | .w8, i => i
  | .w16, i => i / 2 * 2 + (1 - i % 2)
  | .w32, i => i / 4 * 4 + (3 - i % 4)

/-- 転送の後の状態が正しい。 -/
structure XferRight (env : SpiSlave) (width : Width) (buf : Nat → BitVec 8) (len : Nat) (s : Cspi) : Prop where
  sent : s.sent = (List.range len).map fun i => buf (wireIndex width i)
  loads : ∀ p ∈ s.loads, p.1 ≤ burstWords p.2
  length : s.rlen = len
  received : ∀ i < len, s.mem (wireIndex width i) = env.slave i
  inside : ∀ a ∈ s.writes, a < len

/-- 転送が終わって正しい。 -/
def XferExact (env : SpiSlave) (width : Width) (buf : Nat → BitVec 8) (len : Nat) : Prop :=
  ∃ fuel s, mx51Xfer fuel env width buf len = some s ∧ XferRight env width buf len s

end Imx6Bsp.Spi
