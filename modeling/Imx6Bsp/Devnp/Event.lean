import Imx6Bsp.Lib.Runs

/-!
# イーサネットの割り込み処理（`devnp/mx6x/event.c`）

`mx6q_process_interrupt()` の繰り返しを、`IEVENT` を読む、書き戻す、処理する、の三つの段に分け、NIC が `IEVENT` のビットを
立てる段と任意の順に交ぜる。`IEVENT` は 1 を書いたビットを落とす。`mx6q_receive()` と `mx6q_transmit_complete()` は、呼んだことだけを
記録する。
-/

namespace Imx6Bsp.Devnp

/-- `IEVENT_RFINT`。 -/
def ieventRfint : BitVec 32 := 1 <<< 25

/-- `IEVENT_RXB`。 -/
def ieventRxb : BitVec 32 := 1 <<< 24

/-- `IEVENT_TS_AVAIL`。 -/
def ieventTsAvail : BitVec 32 := 1 <<< 16

/-- `IEVENT_TS_TIMER`。 -/
def ieventTsTimer : BitVec 32 := 1 <<< 15

/-- 読んだ値に応じて行うこと。 -/
inductive Handler
  | receive
  | transmitComplete
  | tick
deriving DecidableEq, Repr

/-- `mx6q_process_interrupt()` の、読んだ値による場合分け。 -/
def dispatch (ievent : BitVec 32) : List Handler :=
  if ievent &&& (ieventRfint ||| ieventRxb) ≠ 0 then [.receive]
  else if ievent &&& ieventTsAvail ≠ 0 then [.transmitComplete]
  else if ievent &&& ieventTsTimer ≠ 0 then [.tick]
  else []

/-- 処理のどこにいるか。 -/
inductive Stage
  | idle
  | read
  | ack (ievent : BitVec 32)
  | handle (ievent : BitVec 32)
deriving DecidableEq, Repr

/-- `ievent` は `IEVENT` の値、`served` は書き戻した値とそのとき行ったことを順に並べた記録である。 -/
structure EventState where
  ievent : BitVec 32
  rtc : BitVec 32
  stage : Stage
  served : List (BitVec 32 × List Handler)
deriving DecidableEq, Repr

inductive EventStep
  | raise (bits : BitVec 32)
  | enter
  | read
  | ack
  | handle
deriving DecidableEq, Repr

/-- 一つの段。順の違う段は取れない。 -/
def EventState.step (s : EventState) : EventStep → Except Unit EventState
  | .raise bits => .ok { s with ievent := s.ievent ||| bits }
  | .enter =>
      match s.stage with
      | .idle => .ok { s with stage := .read }
      | _ => .error ()
  | .read =>
      match s.stage with
      | .read => .ok { s with stage := if s.ievent = 0 then .idle else .ack s.ievent }
      | _ => .error ()
  | .ack =>
      match s.stage with
      | .ack v => .ok { s with ievent := s.ievent &&& ~~~v, stage := .handle v }
      | _ => .error ()
  | .handle =>
      match s.stage with
      | .handle v =>
          .ok { s with
            rtc := if .tick ∈ dispatch v then s.rtc + 1 else s.rtc
            stage := .read
            served := s.served ++ [(v, dispatch v)] }
      | _ => .error ()

/-- 割り込み処理を始める前の状態。 -/
def EventState.start (ievent rtc : BitVec 32) : EventState := ⟨ievent, rtc, .idle, []⟩

/-- 受信の事象を含む。 -/
def HasRx (v : BitVec 32) : Prop := v &&& (ieventRfint ||| ieventRxb) ≠ 0

/-- `TS_AVAIL` を含む。 -/
def HasTsAvail (v : BitVec 32) : Prop := v &&& ieventTsAvail ≠ 0

/-- `TS_TIMER` を含む。 -/
def HasTsTimer (v : BitVec 32) : Prop := v &&& ieventTsTimer ≠ 0

instance HasRx.decidable (v : BitVec 32) : Decidable (HasRx v) := inferInstanceAs (Decidable (_ ≠ _))

instance HasTsAvail.decidable (v : BitVec 32) : Decidable (HasTsAvail v) := inferInstanceAs (Decidable (_ ≠ _))

instance HasTsTimer.decidable (v : BitVec 32) : Decidable (HasTsTimer v) := inferInstanceAs (Decidable (_ ≠ _))

/-- 書き戻した事象のそれぞれに、対応する処理をした。 -/
def Serves (e : BitVec 32 × List Handler) : Prop :=
  (HasRx e.1 → .receive ∈ e.2) ∧ (HasTsAvail e.1 → .transmitComplete ∈ e.2) ∧ (HasTsTimer e.1 → e.2.count .tick = 1)

/-- 三種の事象のうち、含むのは高々一種である。 -/
def OneKind (v : BitVec 32) : Prop :=
  ¬ (HasRx v ∧ HasTsAvail v) ∧ ¬ (HasRx v ∧ HasTsTimer v) ∧ ¬ (HasTsAvail v ∧ HasTsTimer v)

instance OneKind.decidable (v : BitVec 32) : Decidable (OneKind v) := inferInstanceAs (Decidable (_ ∧ _ ∧ _))

/-- `IEVENT` を読むとき、三種の事象のうち立っているのは高々一種である。 -/
def EventState.ReadsOneKind (s : EventState) : EventStep → Prop
  | .read => OneKind s.ievent
  | .raise _ => True
  | .enter => True
  | .ack => True
  | .handle => True

instance EventState.decidableReadsOneKind (s : EventState) : (c : EventStep) → Decidable (s.ReadsOneKind c)
  | .read => inferInstanceAs (Decidable (OneKind _))
  | .raise _ => .isTrue trivial
  | .enter => .isTrue trivial
  | .ack => .isTrue trivial
  | .handle => .isTrue trivial

/-! ## PTP の時計の読み出し（`devnp/mx6x/ptp.c`）

`mx6q_ptp_get_cnt()` を、`CAPTURE` を書く、`TIMER_VALUER` を読む、`rtc` を読む、の三つの段に分け、進み続ける計数器と割り込み処理に任意の順に
交ぜる。計数器は一秒で戻り、そのとき `TS_TIMER` を立てる。 -/

open Imx6Bsp.Lib

/-- `MX6Q_TIMER_PER1SEC`。 -/
def timerPer1sec : Nat := 1000000000

/-- 返した時刻。`wraps` は `CAPTURE` を書いたときまでに計数器が戻った回数、`ticks` は `rtc` を読んだときまでに `rtc` を進めた回数である。 -/
structure Reading where
  sec : Nat
  nsec : Nat
  wraps : Nat
  ticks : Nat
deriving DecidableEq, Repr

/-- 読み出しのどこにいるか。`wraps` は `CAPTURE` を書いたときの値である。 -/
inductive GetStage
  | idle
  | captured (wraps nsec : Nat)
  | valued (wraps nsec : Nat)
deriving DecidableEq, Repr

/-- `nsec` は計数器、`get` は進行中の `PTP_GET_TIME`、`readings` は返した時刻を新しい順に並べたものである。 -/
structure Clock where
  event : EventState
  nsec : Nat
  get : GetStage := .idle
  wraps : Nat := 0
  ticks : Nat := 0
  readings : List Reading := []

inductive ClockStep
  | event (s : EventStep)
  | advance (inc : Nat)
  | capture
  | readNsec
  | readSec
deriving DecidableEq, Repr

/-- 割り込み処理が `rtc` を進める段か。 -/
def EventState.ticksOn (s : EventState) : EventStep → Bool
  | .handle =>
      match s.stage with
      | .handle v => .tick ∈ dispatch v
      | _ => false
  | _ => false

/-- `TS_TIMER` を立てるのは計数器だけである。 -/
def EventStep.foreign : EventStep → Bool
  | .raise bits => bits &&& ieventTsTimer = 0
  | _ => true

def Clock.step (c : Clock) : ClockStep → Except Unit Clock
  | .event s =>
      if s.foreign then (c.event.step s).map fun event => { c with event, ticks := if c.event.ticksOn s then c.ticks + 1 else c.ticks }
      else .error ()
  | .advance inc =>
      if inc ≤ timerPer1sec then
        if c.nsec + inc < timerPer1sec then .ok { c with nsec := c.nsec + inc }
        else
          .ok { c with
            nsec := c.nsec + inc - timerPer1sec, wraps := c.wraps + 1
            event := { c.event with ievent := c.event.ievent ||| ieventTsTimer } }
      else .error ()
  | .capture =>
      match c.get with
      | .idle => .ok { c with get := .captured c.wraps c.nsec }
      | _ => .error ()
  | .readNsec =>
      match c.get with
      | .captured wraps nsec => .ok { c with get := .valued wraps nsec }
      | _ => .error ()
  | .readSec =>
      match c.get with
      | .valued wraps nsec => .ok { c with get := .idle, readings := ⟨c.event.rtc.toNat, nsec, wraps, c.ticks⟩ :: c.readings }
      | _ => .error ()

/-- 計数器が `nsec` にあり、`rtc` が `rtc` である初めの状態。 -/
def Clock.start (rtc : BitVec 32) (nsec : Nat) : Clock := { event := .start 0 rtc, nsec }

/-- まだ `rtc` に数えていない、計数器が戻った回数。 -/
def Reading.late (r : Reading) : Int := r.wraps - r.ticks

/-- これから返す時刻の、数え残し。 -/
def Clock.late (c : Clock) : Option Int :=
  match c.get with
  | .valued wraps _ => some (wraps - c.ticks)
  | _ => none

/-- `rtc` は溢れず、時刻を返すときの数え残しは、前に返したときより多くない。 -/
def Clock.OnTime (c : Clock) : ClockStep → Prop
  | .event s => c.event.ticksOn s = true → c.event.rtc.toNat + 1 < 2 ^ 32
  | .readSec => ∀ n ∈ c.late, ∀ last ∈ c.readings.head?, n ≤ last.late
  | .advance _ => True
  | .capture => True
  | .readNsec => True

instance Clock.decidableOnTime (c : Clock) : (s : ClockStep) → Decidable (c.OnTime s)
  | .event s => inferInstanceAs (Decidable (c.event.ticksOn s = true → c.event.rtc.toNat + 1 < 2 ^ 32))
  | .readSec => inferInstanceAs (Decidable (∀ n ∈ c.late, ∀ last ∈ c.readings.head?, n ≤ last.late))
  | .advance _ => .isTrue trivial
  | .capture => .isTrue trivial
  | .readNsec => .isTrue trivial

/-- 時刻 `r` は `s` より後でない。 -/
def Reading.NotAfter (r s : Reading) : Prop := r.sec < s.sec ∨ (r.sec = s.sec ∧ r.nsec ≤ s.nsec)

/-- 後に返した時刻は、前に返したどの時刻よりも前でない。 -/
def Clock.Monotone (c : Clock) : Prop := c.readings.Pairwise fun later earlier => earlier.NotAfter later

end Imx6Bsp.Devnp
