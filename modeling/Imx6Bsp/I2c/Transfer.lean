import Imx6Bsp.Lib.Runs

/-!
# I2C の転送（`i2c/mx35` の `send.c`、`recv.c`、`wait.c`）

制御器は `CTRREG` と、失った調停の印 `IAL` で表す。調停を失うと `MSTA` が落ち、`IAL` は消すまで残る。バスの振る舞いは、呼び出しごとの
`Bus` で与える。`FRQREG` と `delay()` は省く。
-/

namespace Imx6Bsp.I2c

open Imx6Bsp.Lib

/-! ## バスと制御器 -/

/-- `mx35_wait_status()` の一回。`timeout` は割り込みのないまま時間が切れること、`lost` はそのとき調停を失うことである。 -/
inductive Wait
  | timeout
  | done (icf iaas rxak lost : Bool) (data : UInt8)

/-- 一回の呼び出しの間のバス。`idleIbb` と `startIbb` は `IBB` を読むたびの値、`resetIbb` はリセットの後の値、`startLost` は START で
調停を失うこと、`wait` は `mx35_wait_status()` の順の結果である。 -/
structure Bus where
  idleIbb : Nat → Bool
  resetIbb : Bool
  startIbb : Nat → Bool
  startLost : Bool
  wait : Nat → Wait

/-- `CTRREG`。 -/
structure Ctr where
  ien : Bool := false
  iien : Bool := false
  msta : Bool := false
  mtx : Bool := false
  txak : Bool := false
  rsta : Bool := false
deriving DecidableEq, Repr

/-- 呼び出しの初めの START。`master` はそのとき `MSTA` が立っていたこと、`idle` は直前に `IBB` が落ちているのを見たことである。 -/
structure Start where
  rsta : Bool
  master : Bool
  idle : Bool
deriving DecidableEq, Repr

/-- `mx35_dev_t` の使う欄と制御器。`waits` からの欄は呼び出しの記録で、ドライバは持たない。`received` は、受けたバイトと、それに NACK を
返したかどうかである。 -/
structure I2cDev where
  restart : Bool
  ctr : Ctr
  ial : Bool
  waits : Nat := 0
  idle : Bool := false
  starts : List Start := []
  received : List (UInt8 × Bool) := []
  sent : List UInt8 := []

/-- `i2c_status_t` の失敗の値。 -/
inductive I2cError
  | error
  | arbl
  | nack
deriving DecidableEq, Repr

abbrev I2cM (α : Type) : Type := EStateM I2cError I2cDev α

/-- `slave_addr` と `slave_addr_fmt`。 -/
structure SlaveAddr where
  addr : Nat
  ten : Bool
deriving DecidableEq, Repr

/-- `MX35_I2C_XADDR1`。 -/
def xaddr1 (addr : Nat) : Nat := 0xf0 ||| ((addr >>> 7) &&& 0x6)

/-- `MX35_I2C_XADDR2`。 -/
def xaddr2 (addr : Nat) : Nat := addr &&& 0xff

def setCtr (ctr : Ctr) : I2cM PUnit := modify fun s => { s with ctr }

/-! ## `wait.c` -/

/-- `mx35_i2c_reset()`。 -/
def mx35I2cReset : I2cM PUnit := modify fun s => { s with ctr := { ien := true }, ial := false, restart := false }

/-- `IBB` が落ちるまでの繰り返し。 -/
def idleLoop (ibb : Nat → Bool) : (tries i : Nat) → Bool
  | 0, i => !ibb i
  | tries + 1, i => if ibb i then idleLoop ibb tries (i + 1) else true

/-- `mx35_wait_bus_not_busy()`。 -/
def mx35WaitBusNotBusy (bus : Bus) : I2cM PUnit := do
  let s ← get
  if s.restart then return ⟨⟩
  else if idleLoop bus.idleIbb 1000000 0 then modify fun s => { s with idle := true }
  else
    mx35I2cReset
    if bus.resetIbb then throw .error else modify fun s => { s with idle := true }

/-- `mx35_wait_status()` が返す値の使うビット。 -/
structure Status where
  icf : Bool
  iaas : Bool
  ial : Bool
  rxak : Bool
  data : UInt8

/-- `mx35_wait_status()`。`none` は 0 を返すことを表す。 -/
def mx35WaitStatus (bus : Bus) : I2cM (Option Status) := do
  let s ← get
  modify fun s => { s with waits := s.waits + 1 }
  match bus.wait s.waits with
  | .timeout =>
      mx35I2cReset
      return none
  | .done icf iaas rxak lost data =>
      modify fun s => { s with ctr := { s.ctr with msta := s.ctr.msta && !lost }, ial := s.ial || lost }
      return some { icf, iaas, ial := s.ial || lost, rxak, data }

/-- リセットして失敗する。 -/
def resetFail {α : Type} (e : I2cError) : I2cM α := do
  mx35I2cReset
  throw e

/-- `mx35_recvbyte()`。 -/
def mx35Recvbyte (bus : Bus) (nack stop : Bool) : I2cM PUnit := do
  match ← mx35WaitStatus bus with
  | none => throw .error
  | some status =>
      if status.icf then
        modify fun s => { s with received := s.received ++ [(status.data, s.ctr.txak)] }
        if nack then setCtr { ien := true, iien := true, msta := true, txak := true }
        else if stop then setCtr { ien := true, txak := true }
        else return ⟨⟩
      else resetFail .error

/-- `mx35_sendbyte()`。 -/
def mx35Sendbyte (bus : Bus) (byte : UInt8) : I2cM PUnit := do
  modify fun s => { s with ctr := { s.ctr with mtx := true }, sent := s.sent ++ [byte] }
  match ← mx35WaitStatus bus with
  | none => throw .error
  | some status =>
      let s ← get
      if ¬ status.icf then resetFail .error
      else if ¬ s.ctr.msta ∧ status.ial then resetFail .arbl
      else if ¬ s.ctr.msta ∧ status.iaas then resetFail .error
      else if status.rxak then
        setCtr { ien := true }
        resetFail .nack
      else return ⟨⟩

/-- `mx35_wait_busy()` の繰り返し。真偽は、抜けたときの `timeout` が正であることを表す。 -/
def busyLoop (ibb : Nat → Bool) : (timeout i : Nat) → Bool
  | 0, _ => false
  | timeout + 1, i => if ibb i then true else busyLoop ibb timeout (i + 1)

/-- `mx35_wait_busy()`。 -/
def mx35WaitBusy (bus : Bus) : I2cM PUnit := if busyLoop bus.startIbb 5000 0 then return ⟨⟩ else resetFail .error

/-- START と、バスが使用中になるまでの待ち。 -/
def sendStart (bus : Bus) (restart : Bool) : I2cM PUnit := do
  modify fun s => { s with starts := s.starts ++ [⟨restart, s.ctr.msta, s.idle⟩] }
  setCtr { ien := true, iien := true, msta := !bus.startLost, mtx := true, rsta := restart }
  modify fun s => { s with ial := s.ial || bus.startLost }
  mx35WaitBusy bus

/-- `mx35_sendaddr7()`。 -/
def mx35Sendaddr7 (bus : Bus) (addr : Nat) (read restart : Bool) : I2cM PUnit := do
  sendStart bus restart
  mx35Sendbyte bus (UInt8.ofNat ((addr <<< 1) ||| read.toNat))

/-- `mx35_sendaddr10()`。 -/
def mx35Sendaddr10 (bus : Bus) (addr : Nat) (read restart : Bool) : I2cM PUnit := do
  sendStart bus restart
  mx35Sendbyte bus (UInt8.ofNat (xaddr1 addr))
  mx35Sendbyte bus (UInt8.ofNat (xaddr2 addr))
  if read then
    setCtr { ien := true, iien := true, msta := true, rsta := true, mtx := true }
    mx35Sendbyte bus (UInt8.ofNat (xaddr1 addr ||| read.toNat))
  else return ⟨⟩

/-- 番地の形式による選択。 -/
def sendAddr (bus : Bus) (slave : SlaveAddr) (read : Bool) : I2cM PUnit := do
  let s ← get
  if slave.ten then mx35Sendaddr10 bus slave.addr read s.restart else mx35Sendaddr7 bus slave.addr read s.restart

/-! ## `send.c` と `recv.c` -/

/-- `mx35_send()` の繰り返し。 -/
def sendBytes (bus : Bus) : List UInt8 → I2cM PUnit
  | [] => return ⟨⟩
  | byte :: buf => do
      mx35Sendbyte bus byte
      sendBytes bus buf

/-- `mx35_send()`。 -/
def mx35Send (bus : Bus) (slave : SlaveAddr) (buf : List UInt8) (stop : Bool) : I2cM PUnit :=
  if buf = [] then return ⟨⟩
  else do
    mx35WaitBusNotBusy bus
    sendAddr bus slave false
    sendBytes bus buf
    if stop then setCtr { ien := true } else pure ⟨⟩
    modify fun s => { s with restart := !stop }

/-- `mx35_recv()` の繰り返し。 -/
def recvBytes (bus : Bus) (stop : Bool) : Nat → I2cM PUnit
  | 0 => return ⟨⟩
  | len + 1 => do
      mx35Recvbyte bus (len + 1 = 2) (len + 1 = 1 && stop)
      recvBytes bus stop len

/-- `stop` でないときの、最後の `mx35_wait_status()`。 -/
def waitTail (bus : Bus) (stop : Bool) : I2cM PUnit :=
  if stop then return ⟨⟩
  else do
    let _ ← mx35WaitStatus bus

/-- `mx35_recv()`。 -/
def mx35Recv (bus : Bus) (slave : SlaveAddr) (len : Nat) (stop : Bool) : I2cM PUnit :=
  if len = 0 then return ⟨⟩
  else do
    mx35WaitBusNotBusy bus
    sendAddr bus slave true
    setCtr { ien := true, iien := true, msta := true, txak := ¬ 1 < len }
    recvBytes bus stop len
    waitTail bus stop
    modify fun s => { s with restart := !stop }

/-! ## 呼び出しの列 -/

/-- 一回の呼び出し。 -/
inductive I2cCall
  | send (slave : SlaveAddr) (buf : List UInt8) (stop : Bool)
  | recv (slave : SlaveAddr) (len : Nat) (stop : Bool)

def I2cCall.run (bus : Bus) : I2cCall → I2cM PUnit
  | .send slave buf stop => mx35Send bus slave buf stop
  | .recv slave len stop => mx35Recv bus slave len stop

/-- 記録を空にする。 -/
def I2cDev.begin (s : I2cDev) : I2cDev := { s with waits := 0, idle := false, starts := [], received := [], sent := [] }

/-- 呼び出しの後の状態と、成功したかどうか。 -/
def I2cCall.exec (call : I2cCall) (bus : Bus) (s : I2cDev) : Bool × I2cDev :=
  match call.run bus s.begin with
  | .ok _ t => (true, t)
  | .error _ t => (false, t)

/-- `mx35_init()` の後の状態。 -/
def I2cDev.init : I2cDev where
  restart := false
  ctr := { ien := true, iien := true }
  ial := false

/-! ## 仕様 -/

/-- `restart` は、バスの主であることを表す。 -/
def Owns (s : I2cDev) : Prop := s.restart = true ↔ s.ctr.msta = true

/-- 主のときに限って反復の START をし、そうでなければ空いているバスで START をする。 -/
def StartsRight (starts : List Start) : Prop := ∀ x ∈ starts, x.rsta = x.master ∧ (x.rsta = false → x.idle = true)

/-- 最後のバイトにだけ NACK を返す。 -/
def nackLast : Nat → List Bool
  | 0 => []
  | n + 1 => List.replicate n false ++ [true]

/-- 受信に成功したなら、NACK を返したのは最後のバイトだけである。 -/
def NacksRight (call : I2cCall) (s : I2cDev) : Prop :=
  ∀ slave len stop, call = .recv slave len stop → s.received.map Prod.snd = nackLast len

/-- 一回の呼び出しが正しい。 -/
structure CallRight (call : I2cCall) (bus : Bus) (s : I2cDev) : Prop where
  owns : Owns (call.exec bus s).2
  starts : StartsRight (call.exec bus s).2.starts
  nacks : (call.exec bus s).1 = true → NacksRight call (call.exec bus s).2

/-- 呼び出しの列のどれもが正しい。 -/
def AllRight : I2cDev → List (I2cCall × Bus) → Prop
  | _, [] => True
  | s, (call, bus) :: calls => CallRight call bus s ∧ AllRight (call.exec bus s).2 calls

/-! ### 条件 -/

/-- 主のまま送れて、ACK が返る。 -/
def Wait.acked : Wait → Bool
  | .timeout => false
  | .done icf _ rxak lost _ => icf && !rxak && !lost

/-- バイトが届く。 -/
def Wait.arrives : Wait → Bool
  | .timeout => false
  | .done icf _ _ _ _ => icf

/-- 時間が切れず、調停を失わない。 -/
def Wait.keeps : Wait → Bool
  | .timeout => false
  | .done _ _ _ lost _ => !lost

/-- 調停を失わない。 -/
def Wait.unlost : Wait → Bool
  | .timeout => true
  | .done _ _ _ lost _ => !lost

/-- 読み出しの番地のバイトの数。 -/
def SlaveAddr.readBytes (slave : SlaveAddr) : Nat := if slave.ten then 3 else 1

/-- 呼び出しがバスを得て、番地が受け取られる。 -/
structure Addressed (bus : Bus) (bytes : Nat) (s : I2cDev) : Prop where
  idle : s.restart = true ∨ idleLoop bus.idleIbb 1000000 0 = true ∨ bus.resetIbb = false
  busy : busyLoop bus.startIbb 5000 0 = true
  start : bus.startLost = false
  acked : ∀ i < bytes, (bus.wait i).acked = true

/-- STOP のない読み出しで全部のバイトが届いたなら、最後のバイトで調停を失わず、その後の待ちでも時間が切れず調停を失わない。 -/
def TailKept (call : I2cCall) (bus : Bus) (s : I2cDev) : Prop :=
  ∀ slave len, call = .recv slave (len + 1) false → Addressed bus slave.readBytes s →
    (∀ i < len + 1, (bus.wait (slave.readBytes + i)).arrives = true) →
      (bus.wait (slave.readBytes + len)).unlost = true ∧ (bus.wait (slave.readBytes + (len + 1))).keeps = true

/-- 呼び出しの列のどれもが条件を満たす。 -/
def AllTailKept : I2cDev → List (I2cCall × Bus) → Prop
  | _, [] => True
  | s, (call, bus) :: calls => TailKept call bus s ∧ AllTailKept (call.exec bus s).2 calls

/-! ## I2C の速度（`i2c/mx35/bus_speed.c`）

`mx35_set_bus_speed()` を写す。`FRQREG` を書くのは、この関数と `mx35_i2c_reset()` だけである。`dev` は `malloc()` されたままなので、
`mx35_init()` が初めに呼ぶときの `speed` と `i2c_freq_val` は、何であるか分からない。 -/

/-- `mx35_dev_t` の速度に関わる部分と、レジスタ `FRQREG`。 -/
structure SpeedDev where
  inputClk : Nat
  speed : Nat
  i2cFreqVal : Nat
  frqreg : Nat
deriving DecidableEq, Repr

/-- 零除算と、表の外の読み出し。 -/
inductive SpeedFault
  | divZero
  | outside
deriving DecidableEq, Repr

/-- `-1` を返すか、`*ospeed` に書く値とともに 0 を返す。`ospeed` が `NULL` なら書かない。 -/
inductive SpeedReply
  | einval
  | ok (ospeed : Option Nat)
deriving DecidableEq, Repr

/-- 表の前半。 -/
def firstDivs : List Nat :=
  [30, 32, 36, 42, 48, 52, 60, 72, 80, 88, 104, 128, 144, 160, 192, 240, 288, 320, 384, 480, 576, 640, 768, 960, 1152, 1280, 1536,
    1920, 2304, 2560, 3072, 3840]

/-- 表の後半。 -/
def secondDivs : List Nat :=
  [22, 24, 26, 28, 32, 36, 40, 44, 48, 56, 64, 72, 80, 96, 112, 128, 160, 192, 224, 256, 320, 384, 448, 512, 640, 768, 896, 1024, 1280,
    1536, 1792, 2048]

/-- `I2C_Divs`。 -/
def i2cDivs : List Nat := firstDivs ++ secondDivs

/-- `MX35_DEFAULT_IC`。 -/
def mx35DefaultIc : Nat := 0x16

/-- `find_best_ic()`。 -/
def findBestIc (i2cDiv : Nat) : Nat :=
  match i2cDivs.findIdx? (fun d => decide (i2cDiv ≤ d)) with
  | some ic => ic
  | none => mx35DefaultIc

/-- 速度が前と違うときだけ、分周を選んで書く。 -/
def chooseSpeed (dev : SpeedDev) (speed : Nat) : Except SpeedFault SpeedDev :=
  if speed = dev.speed then .ok dev
  else if speed = 0 then .error .divZero
  else
    let i2cFreqVal := findBestIc (dev.inputClk / speed)
    .ok { dev with speed, i2cFreqVal, frqreg := i2cFreqVal % 2 ^ 16 }

/-- `mx35_set_bus_speed()`。`out` は `ospeed` が `NULL` でないことである。 -/
def mx35SetBusSpeed (dev : SpeedDev) (speed : Nat) (out : Bool) : Except SpeedFault (SpeedDev × SpeedReply) :=
  if 400000 < speed then .ok (dev, .einval)
  else do
    let dev ← chooseSpeed dev speed
    if out then
      match i2cDivs[dev.i2cFreqVal]? with
      | some d => return (dev, .ok (some (dev.inputClk / d)))
      | none => throw .outside
    else return (dev, .ok none)

/-! ### 実行 -/

/-- 速度の設定と、`mx35_i2c_reset()`。 -/
inductive SpeedEvent
  | setBusSpeed (speed : Nat) (out : Bool)
  | reset
deriving DecidableEq, Repr

def speedStep (dev : SpeedDev) : SpeedEvent → Except SpeedFault SpeedDev
  | .setBusSpeed speed out => (mx35SetBusSpeed dev speed out).map Prod.fst
  | .reset => .ok { dev with frqreg := dev.i2cFreqVal % 2 ^ 16 }

/-- `mx35_init()` の後の実行。`raw` は `malloc()` されたままの `dev` である。 -/
def speedRun (raw : SpeedDev) (events : List SpeedEvent) : Except SpeedFault SpeedDev := do
  let dev ← speedStep raw (.setBusSpeed 100000 false)
  events.foldlM speedStep dev

/-! ### 仕様 -/

/-- `d` の作る周波数は、要求を越えない。 -/
def DivSuits (clk speed d : Nat) : Prop := clk ≤ d * speed

/-- 零で割らず、効いている分周は要求を越えない最小のものであり、`*ospeed` はその周波数である。要求を越えない分周が表になければ、どれでもよい。 -/
def SpeedRight (dev : SpeedDev) (speed : Nat) (out : Bool) : Prop :=
  ∃ dev' d, mx35SetBusSpeed dev speed out = .ok (dev', .ok (if out then some (dev.inputClk / d) else none)) ∧
    i2cDivs[dev'.frqreg]? = some d ∧
      ((∃ e ∈ i2cDivs, DivSuits dev.inputClk speed e) →
        DivSuits dev.inputClk speed d ∧ ∀ e ∈ i2cDivs, DivSuits dev.inputClk speed e → d ≤ e)

/-- 速度は 0 でなく、どの分周でも要求を越えるか、切り捨てた商以上の前半の最小のものが要求を越えず、それより小さい後半のものは要求を越える。 -/
def SpeedServed (clk speed : Nat) : Prop :=
  speed ≠ 0 ∧ (3840 * speed < clk ∨
    ∃ d ∈ firstDivs, DivSuits clk speed d ∧ (∀ e ∈ firstDivs, e < d → e < clk / speed) ∧ ∀ e ∈ secondDivs, e < d → ¬ DivSuits clk speed e)

end Imx6Bsp.I2c
