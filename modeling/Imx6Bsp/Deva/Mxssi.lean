import Imx6Bsp.Lib.Bytes
import Imx6Bsp.Lib.Runs

/-!
# SSI の音声（`deva/ctrl/mx/mxssi_dll.c`）

再生の流れが一つと、録音の副 channel が `cap_subchn` 個ある。`cap_subchn > 1` のときは、一つの DMA が二つの半分からなる
共有 buffer に録音し、完了のたびに `mx_cap_pulse_hdlr` が各 client の buffer に写す。
`hw_lock` を持つ間の処理はまとまって起きる。client の観測したものは `ClientLog` に、DMA の録音したものは `Hist` に記録する。
-/

namespace Imx6Bsp.Deva

open Imx6Bsp.Lib

/-! ## client の buffer -/

/-- 一回の `memcpy` と、その直後に `dma_interrupt` を呼んだかどうか。 -/
structure Copy where
  offset : Nat
  bytes : List UInt8
  irq : Bool
deriving DecidableEq

/-- `subchn_dmacapture` の `while`。`src` は残りのバイトで、一回ごとに減る。 -/
def copyLoop (fragSize size : Nat) : Nat → Nat → List UInt8 → List Copy × Nat
  | 0, offset, _ => ([], offset)
  | fuel + 1, offset, src =>
      if src = [] then ([], offset)
      else
        let n := if offset < fragSize then min (fragSize - offset) src.length else min (size - offset) src.length
        let offset' := (offset + n) % size
        let r := copyLoop fragSize size fuel offset' (src.drop n)
        (⟨offset, src.take n, offset' % fragSize = 0⟩ :: r.1, r.2)

/-- client が自分の buffer に見るもの。`writes` は取得からの書き込み、`session` は最後の go からのバイト、`since` は
そのうち最初のバイトの前に処理されていた長さである。 -/
structure ClientLog where
  writes : List Copy
  session : List UInt8
  since : Option Nat

def bytesOf (ws : List Copy) : List UInt8 := ws.flatMap Copy.bytes

def ClientLog.fresh : ClientLog := ⟨[], [], none⟩

def ClientLog.note (l : ClientLog) (at' : Nat) (ws : List Copy) : ClientLog :=
  ⟨l.writes ++ ws, l.session ++ bytesOf ws, some (l.since.getD at')⟩

/-- go の trigger から数え直す。 -/
def ClientLog.restart (l : ClientLog) : ClientLog := { l with session := [], since := none }

/-- `mx_strm_t` のうち録音が使うもの。`rate` は取得したときの `config->format.rate`。 -/
structure Strm where
  pcmSubchn : Option Nat
  rate : Nat
  aquired : Bool
  go : Bool
  dmaSize : Nat
  dmaFragSize : Nat
  dmaOffset : Nat
  log : ClientLog

/-- `pcm_subchn` が NULL でない。 -/
def Strm.opened (st : Strm) : Bool := st.pcmSubchn.isSome

def Strm.zero : Strm := ⟨none, 0, false, false, 0, 0, 0, .fresh⟩

/-! ## DMA -/

/-- `cap_strm[0].dma_chn`。二つの descriptor は `len` バイトずつ続けて置かれ、`ping` と `pong` はその DONE のビットである。
`pos` は次に使う descriptor。 -/
structure Dma where
  running : Bool
  pos : Nat
  ping : Bool
  pong : Bool
  len : Nat

/-- `sdma_setup_xfer`。 -/
def Dma.setupXfer (d : Dma) (len : Nat) : Dma := { d with ping := true, pong := true, len }

/-- `sdma_xfer_start`。 -/
def Dma.xferStart (d : Dma) : Dma := { d with running := true }

/-- `sdma_xfer_abort`。descriptor の番号は先頭に戻るが、DONE のビットは戻らない。 -/
def Dma.xferAbort (d : Dma) : Dma := { d with running := false, pos := 0 }

/-- `sdma_xfer_complete`。 -/
def Dma.xferComplete (d : Dma) : Dma := { d with running := false }

/-- 次の descriptor が使えるか。 -/
def Dma.ready (d : Dma) : Bool := d.running && (if d.pos = 0 then d.ping else d.pong)

/-- 半分が一つ埋まる。`pong` の descriptor には WRAP がある。 -/
def Dma.advance (d : Dma) : Dma :=
  if d.pos = 0 then { d with ping := false, pos := 1 } else { d with pong := false, pos := 0 }

/-! ## 状態 -/

/-- SCR のビットと clock。 -/
structure Ssi where
  master : Bool
  sampleRateMin : Nat
  sampleRateMax : Nat
  sampleRate : Nat
  ssiEn : Bool
  txEn : Bool
  rxEn : Bool

/-- `play_strm`。 -/
structure Play where
  pcmSubchn : Option Nat
  rate : Nat
  aquired : Bool

/-- 録音の側。`captureVirtual` は `capture_virtual_addr` が NULL でないこと、`mem` はそこから数えた共有 buffer、
`pulses` はまだ受け取っていない完了の pulse の数。 -/
structure Cap where
  strm : List Strm
  fragIndex : Nat
  captureBuffSize : Nat
  captureBuffSizeMod : Nat
  captureVirtual : Bool
  tinfoLen : Nat
  dma : Dma
  mem : Mem
  pulses : Nat

/-- DMA の録音したバイト、そのうち pulse が処理されたもの、まだのもの。 -/
structure Hist where
  captured : List UInt8
  handled : List UInt8
  pending : List (List UInt8)

structure Mx where
  ssi : Ssi
  play : Play
  cap : Cap
  hist : Hist

inductive Errno
  | eagain | ebusy | enomem
deriving DecidableEq

/-- 呼び出しの結果。`clock` は `set_ssi_clock_rate` に渡した値、`shared` は共有 buffer を確保したか解放したことを表す。 -/
structure Outcome where
  mx : Mx
  clock : Option Nat
  shared : Bool
  rc : Except Errno Unit

/-- `num_open_capture_subChnl`。 -/
def Cap.numOpen (c : Cap) : Nat := c.strm.countP Strm.opened

/-! ## clock -/

/-- `set_ssi_clock_rate`。送受信を止め、最後に SSI だけを有効にする。 -/
def Ssi.setClockRate (s : Ssi) (rate : Nat) : Ssi :=
  { s with sampleRate := rate, ssiEn := true, txEn := false, rxEn := false }

/-- rate を変えられる設定か。 -/
def Ssi.rateLocked (s : Ssi) : Bool := s.master && s.sampleRateMin != s.sampleRateMax

/-- 取得の三つの関数に共通の rate の判定。`busy` は反対側の使用中を表す。 -/
def Ssi.checkRate (s : Ssi) (rate : Nat) (busy : Bool) : Option (Ssi × Option Nat) :=
  if s.rateLocked then
    if rate ≠ s.sampleRate then
      if busy then none else some (s.setClockRate rate, some rate)
    else some (s, none)
  else some (s, none)

/-! ## 再生 -/

/-- `mx_playback_aquire`。`allocOk` は `ado_shm_alloc` の成否。 -/
def playbackAquire (s : Mx) (subchn rate : Nat) (allocOk : Bool) : Outcome :=
  if s.play.pcmSubchn.isSome then ⟨s, none, false, .error .eagain⟩
  else
    match s.ssi.checkRate rate (s.cap.numOpen > 0) with
    | none => ⟨s, none, false, .error .ebusy⟩
    | some (ssi, clock) =>
        if allocOk then ⟨{ s with ssi, play := ⟨some subchn, rate, true⟩ }, clock, false, .ok ()⟩
        else ⟨{ s with ssi }, clock, false, .error .enomem⟩

/-- `mx_playback_release`。 -/
def playbackRelease (s : Mx) : Outcome :=
  ⟨{ s with play := { s.play with pcmSubchn := none, aquired := false } }, none, false, .ok ()⟩

/-! ## 一つだけの録音 -/

/-- `mx_capture_aquire`。DMA は client の buffer を直接回すので、共有 buffer は使わない。 -/
def captureAquire (s : Mx) (subchn rate : Nat) (allocOk : Bool) : Outcome :=
  match s.cap.strm with
  | [] => ⟨s, none, false, .error .eagain⟩
  | st :: rest =>
      if st.opened then ⟨s, none, false, .error .eagain⟩
      else
        match s.ssi.checkRate rate s.play.aquired with
        | none => ⟨s, none, false, .error .ebusy⟩
        | some (ssi, clock) =>
            if allocOk then
              ⟨{ s with ssi, cap := { s.cap with strm := { st with pcmSubchn := some subchn, rate, aquired := true } :: rest } },
                clock, false, .ok ()⟩
            else ⟨{ s with ssi }, clock, false, .error .enomem⟩

/-- `mx_capture_release`。`aquired` は残る。 -/
def captureRelease (s : Mx) : Outcome :=
  match s.cap.strm with
  | [] => ⟨s, none, false, .ok ()⟩
  | st :: rest => ⟨{ s with cap := { s.cap with strm := { st with pcmSubchn := none } :: rest } }, none, false, .ok ()⟩

/-! ## 共有する録音 -/

/-- `mx_frag_dmabuf_sizer` が決める fragment の大きさ。 -/
def fragDmabufSizer (intSize : Nat) : Nat := intSize / 16 * 16

/-- `pcm_caps.max_frags`。 -/
def fragsTotal : Nat := 2

/-- 最初の副 channel のための共有 buffer の用意。`allocOk` は `ado_shm_alloc` の成否。 -/
def Cap.openShared (c : Cap) (fragSize : Nat) (allocOk : Bool) : Cap :=
  let c := { c with
    captureBuffSize := fragsTotal * fragSize
    captureBuffSizeMod := fragsTotal * fragSize
    captureVirtual := allocOk }
  if allocOk then { c with tinfoLen := fragSize, dma := c.dma.setupXfer fragSize } else c

/-- 取得した副 channel の欄。`go` には触れない。 -/
def Strm.acquire (st : Strm) (subchn rate fragSize : Nat) : Strm :=
  { st with
    pcmSubchn := some subchn
    rate
    aquired := true
    dmaSize := fragsTotal * fragSize
    dmaFragSize := fragSize
    dmaOffset := 0
    log := .fresh }

/-- rate の判定を通った後の `mx_capture_aquire2`。`i` は空いている副 channel。 -/
def Cap.aquire2 (c : Cap) (i subchn rate fragSize : Nat) (allocOk sharedOk : Bool) : Cap × Bool × Except Errno Unit :=
  if c.strm.length > 1 && !allocOk then (c, false, .error .enomem)
  else
    let size := fragsTotal * fragSize
    let c' := { c with captureBuffSizeMod := if size < c.captureBuffSize then size else c.captureBuffSizeMod }
    let fst := c.numOpen = 0
    let c' := if fst then c'.openShared fragSize sharedOk else c'
    if fst && !sharedOk then (c', true, .error .enomem)
    else ({ c' with strm := c'.strm.modify i (·.acquire subchn rate fragSize) }, fst, .ok ())

/-- `mx_capture_aquire2`。 -/
def captureAquire2 (s : Mx) (subchn rate intSize : Nat) (allocOk sharedOk : Bool) : Outcome :=
  match s.cap.strm.findIdx? (fun st => !st.opened) with
  | none => ⟨s, none, false, .error .eagain⟩
  | some i =>
      match s.ssi.checkRate rate s.play.aquired with
      | none => ⟨s, none, false, .error .ebusy⟩
      | some (ssi, clock) =>
          let r := s.cap.aquire2 i subchn rate (fragDmabufSizer intSize) allocOk sharedOk
          ⟨{ s with ssi, cap := r.1 }, clock, r.2.1, r.2.2⟩

/-- `mx_capture_release2`。 -/
def captureRelease2 (s : Mx) (i : Nat) : Outcome :=
  let cap := { s.cap with strm := s.cap.strm.modify i fun st => { st with pcmSubchn := none, aquired := false } }
  ⟨{ s with cap }, none, cap.numOpen = 0, .ok ()⟩

/-- `mx_capture_trigger2`。`go` は `ADO_PCM_TRIGGER_GO`。 -/
def captureTrigger2 (s : Mx) (i : Nat) (go : Bool) : Outcome :=
  let one := s.cap.numOpen = 1
  let ssi := if one then { s.ssi with rxEn := go } else s.ssi
  let dma := if one then (if go then s.cap.dma.xferStart else s.cap.dma.xferAbort) else s.cap.dma
  let strm := s.cap.strm.modify i fun st => { st with go, log := if go then st.log.restart else st.log }
  ⟨{ s with ssi, cap := { s.cap with dma, strm } }, none, false, .ok ()⟩

/-! ## 完了 -/

/-- `subchn_dmacapture` の一つの副 channel。`at'` はそれまでに処理されたバイト数。 -/
def Strm.deliver (st : Strm) (at' : Nat) (src : List UInt8) : Strm :=
  if st.opened && st.go && src.length ≤ st.dmaFragSize then
    let r := copyLoop st.dmaFragSize st.dmaSize src.length st.dmaOffset src
    { st with dmaOffset := r.2, log := st.log.note at' r.1 }
  else st

/-- 共有 buffer の `off` から `n` バイト。 -/
def Cap.read (c : Cap) (off n : Nat) : List UInt8 := (List.range n).map fun i => c.mem (off + i)

/-- `subchn_dmacapture`。 -/
def Cap.dmacapture (c : Cap) (at' off size : Nat) : Cap :=
  if (off = 0 && !c.captureVirtual) || size = 0 then c
  else { c with strm := c.strm.map (·.deliver at' (c.read off size)) }

/-- 次の pulse で写される半分。 -/
def Cap.nextHalf (c : Cap) : List UInt8 :=
  c.read (if c.fragIndex = 1 then c.captureBuffSize / 2 else 0) (c.captureBuffSize / 2)

/-- `mx_cap_pulse_hdlr`。解放された `dst_addrs` を使うときは、そこに残る値とする。 -/
def Cap.pulseHdlr (c : Cap) (at' : Nat) : Cap :=
  let size := c.captureBuffSize / 2
  if c.strm.length = 1 then c
  else if c.fragIndex = 1 then
    let tinfoLen := if c.captureBuffSizeMod ≠ c.captureBuffSize then c.captureBuffSizeMod / 2 else c.tinfoLen
    let c := { c with tinfoLen, dma := (c.dma.xferComplete.setupXfer tinfoLen).xferStart, fragIndex := 0 }
    let c := c.dmacapture at' size size
    { c with captureBuffSize := c.captureBuffSizeMod }
  else if c.fragIndex = 0 then { c with fragIndex := 1 }.dmacapture at' 0 size
  else c

/-- 半分が `bytes` で埋まり、pulse が送られる。 -/
def complete (s : Mx) (bytes : List UInt8) : Mx :=
  { s with
    cap := { s.cap with
      mem := s.cap.mem.copy (s.cap.dma.pos * s.cap.dma.len) bytes
      dma := s.cap.dma.advance
      pulses := s.cap.pulses + 1 }
    hist := { s.hist with captured := s.hist.captured ++ bytes, pending := s.hist.pending ++ [bytes] } }

/-- pulse を一つ受け取って処理する。 -/
def pulse (s : Mx) : Mx :=
  { s with
    cap := { s.cap.pulseHdlr s.hist.handled.length with pulses := s.cap.pulses - 1 }
    hist := { s.hist with handled := s.hist.handled ++ s.hist.pending.headD [], pending := s.hist.pending.tail } }

/-! ## 実行 -/

/-- `cap_subchn` が 1 なら `mx_capture_aquire` など、それ以外は `mx_capture_aquire2` などが呼ばれる。 -/
inductive Op
  | playbackAquire (subchn rate : Nat) (allocOk : Bool)
  | playbackRelease
  | captureAquire (subchn rate : Nat) (allocOk : Bool)
  | captureRelease
  | captureAquire2 (subchn rate intSize : Nat) (allocOk sharedOk : Bool)
  | captureRelease2 (i : Nat)
  | captureTrigger2 (i : Nat) (go : Bool)
  | complete (bytes : List UInt8)
  | pulse

/-- 副 channel `i` は取得されている。 -/
def Cap.opened (c : Cap) (i : Nat) : Bool := c.strm[i]?.any Strm.opened

/-- 呼び出しができるとき。解放と trigger は取得した副 channel にだけ、完了は使える descriptor がある間だけ起きる。
fragment は 16 バイトより小さくない。 -/
def Enabled (s : Mx) : Op → Prop
  | .playbackAquire .. => True
  | .playbackRelease => s.play.pcmSubchn ≠ none
  | .captureAquire .. => s.cap.strm.length = 1
  | .captureRelease => s.cap.strm.length = 1 ∧ s.cap.opened 0 = true
  | .captureAquire2 _ _ intSize _ _ => 1 < s.cap.strm.length ∧ 16 ≤ intSize
  | .captureRelease2 i => 1 < s.cap.strm.length ∧ s.cap.opened i = true
  | .captureTrigger2 i _ => 1 < s.cap.strm.length ∧ s.cap.opened i = true
  | .complete bytes => s.cap.dma.ready = true ∧ bytes.length = s.cap.dma.len
  | .pulse => 0 < s.cap.pulses

def run (s : Mx) : Op → Outcome
  | .playbackAquire subchn rate allocOk => playbackAquire s subchn rate allocOk
  | .playbackRelease => playbackRelease s
  | .captureAquire subchn rate allocOk => captureAquire s subchn rate allocOk
  | .captureRelease => captureRelease s
  | .captureAquire2 subchn rate intSize allocOk sharedOk => captureAquire2 s subchn rate intSize allocOk sharedOk
  | .captureRelease2 i => captureRelease2 s i
  | .captureTrigger2 i go => captureTrigger2 s i go
  | .complete bytes => ⟨complete s bytes, none, false, .ok ()⟩
  | .pulse => ⟨pulse s, none, false, .ok ()⟩

instance decidableEnabled (s : Mx) : (op : Op) → Decidable (Enabled s op)
  | .playbackAquire .. => inferInstanceAs (Decidable True)
  | .playbackRelease => inferInstanceAs (Decidable (_ ≠ _))
  | .captureAquire .. => inferInstanceAs (Decidable (_ = _))
  | .captureRelease => inferInstanceAs (Decidable (_ ∧ _))
  | .captureAquire2 .. => inferInstanceAs (Decidable (_ ∧ _))
  | .captureRelease2 _ => inferInstanceAs (Decidable (_ ∧ _))
  | .captureTrigger2 .. => inferInstanceAs (Decidable (_ ∧ _))
  | .complete _ => inferInstanceAs (Decidable (_ ∧ _))
  | .pulse => inferInstanceAs (Decidable (_ < _))

def step (s : Mx) (op : Op) : Except Unit Mx := if Enabled s op then .ok (run s op).mx else .error ()

/-- 何も取得されていない始まり。`n` は `cap_subchn`。 -/
def init (ssi : Ssi) (n : Nat) (mem : Mem) : Mx where
  ssi := { ssi with rxEn := false, txEn := false }
  play := ⟨none, 0, false⟩
  cap := ⟨List.replicate n .zero, 0, 0, 0, false, 0, ⟨false, 0, false, false, 0⟩, mem, 0⟩
  hist := ⟨[], [], []⟩

end Imx6Bsp.Deva
