import Imx6Bsp.Lib.Runs

/-!
# SDMA の command channel（`cmd.c` と `irq.c`）

`sdmacmd_ctx_load` の呼び出しに番号を付け、`proc` でそれを実行する process を表す。engine、割り込みの handler、pulse、
時間切れは、呼び出しの各手順の間のどこでも起きる。
-/

namespace Imx6Bsp.Sdma.Command

/-! ## 状態 -/

/-- `sdmacmd_ctx_load` の進み具合。`received` から後は返す値を持つ。 -/
inductive Call
  | idle
  | locked
  | masked
  | attached
  | cleared
  | half
  | written
  | waiting
  | received (ok : Bool)
  | unmasked (ok : Bool)
  | detached (ok : Bool)
  | returned (ok : Bool)
deriving DecidableEq

/-- `irq_handler` の進み具合。`seen` は channel 0 のビットを読んだ後、`cleared` はそれを消した後である。 -/
inductive Handler
  | idle | seen | cleared
deriving DecidableEq

/-- `cmd_bd_ptr[0]`。`content` は書き終えた呼び出し。書きかけなら `none`。 -/
structure Desc where
  done : Bool
  content : Option Nat
deriving DecidableEq

/-- `start` は HSTART による起動、`engine` は実行中の descriptor、`intr` は `SDMA_INTR` の channel 0 のビットである。
`mask` は `channel_mask` の、`event` は `event_array` の channel 0 の欄、`pulses` は `cmd_chid` に届いている完了の pulse の数。 -/
structure State (n : Nat) where
  mutex : Option Nat
  call : Nat → Call
  bd : Desc
  start : Bool
  engine : Option (Option Nat)
  executed : List (Option Nat)
  intr : Bool
  mask : Fin n → Bool
  event : Fin n → Bool
  handler : Fin n → Handler
  pulses : Fin n → Nat

variable {n : Nat}

def State.setCall (s : State n) (i : Nat) (c : Call) : State n := { s with call := Function.update s.call i c }

/-- process `p` の中での `sdmairq_event_add` から起動までと、`sdmairq_event_remove` から `mutex` を放すまでの一手順。 -/
def advance (s : State n) (p : Fin n) (i : Nat) : State n :=
  match s.call i with
  | .locked => { s with mask := Function.update s.mask p true }.setCall i .masked
  | .masked => { s with event := Function.update s.event p true }.setCall i .attached
  | .attached => { s with bd := ⟨false, none⟩ }.setCall i .cleared
  | .cleared => { s with bd := ⟨true, none⟩ }.setCall i .half
  | .half => { s with bd := { s.bd with content := some i } }.setCall i .written
  | .written => { s with start := true }.setCall i .waiting
  | .received ok => { s with mask := Function.update s.mask p false }.setCall i (.unmasked ok)
  | .unmasked ok => { s with event := Function.update s.event p false }.setCall i (.detached ok)
  | .detached ok => { s with mutex := none }.setCall i (.returned ok)
  | _ => s

/-- 起動された engine が descriptor を読む。DONE がなければ止まる。 -/
def fetch (s : State n) : State n :=
  if s.bd.done then { s with start := false, engine := some s.bd.content } else { s with start := false }

/-- 実行が終わる。実行中の起動は `keep` のときだけ残る。 -/
def finish (s : State n) (c : Option Nat) (keep : Bool) : State n :=
  { s with
    engine := none
    executed := c :: s.executed
    intr := true
    bd := { s.bd with done := false }
    start := s.start && keep }

/-- `irq_handler` の一手順。`event_array` が NULL でなければ pulse が届く。 -/
def handle (s : State n) (p : Fin n) : State n :=
  match s.handler p with
  | .idle => if s.intr && s.mask p then { s with handler := Function.update s.handler p .seen } else s
  | .seen => { s with intr := false, handler := Function.update s.handler p .cleared }
  | .cleared =>
      { s with
        handler := Function.update s.handler p .idle
        pulses := if s.event p then Function.update s.pulses p (s.pulses p + 1) else s.pulses }

/-! ## 実行 -/

inductive Op (n : Nat)
  | lock (i : Nat)
  | advance (i : Nat)
  | receive (i : Nat)
  | timeout (i : Nat)
  | fetch
  | finish (keep : Bool)
  | handle (p : Fin n)

/-- `mutex` を持って手順を進めている。 -/
def Call.active : Call → Bool
  | .idle | .returned _ => false
  | _ => true

variable (proc : Nat → Fin n)

def Enabled (s : State n) : Op n → Prop
  | .lock i => s.call i = .idle ∧ s.mutex = none
  | .advance i => (s.call i).active = true ∧ s.call i ≠ .waiting
  | .receive i => s.call i = .waiting ∧ 0 < s.pulses (proc i)
  | .timeout i => s.call i = .waiting
  | .fetch => s.start = true ∧ s.engine = none
  | .finish _ => s.engine.isSome = true
  | .handle _ => True

def run (s : State n) : Op n → State n
  | .lock i => { s with mutex := some i }.setCall i .locked
  | .advance i => advance s (proc i) i
  | .receive i =>
      { s with pulses := Function.update s.pulses (proc i) (s.pulses (proc i) - 1) }.setCall i (.received true)
  | .timeout i => s.setCall i (.received false)
  | .fetch => fetch s
  | .finish keep => finish s (s.engine.getD none) keep
  | .handle p => handle s p

instance decidableEnabled (s : State n) : (op : Op n) → Decidable (Enabled proc s op)
  | .lock _ => inferInstanceAs (Decidable (_ ∧ _))
  | .advance _ => inferInstanceAs (Decidable (_ ∧ _))
  | .receive _ => inferInstanceAs (Decidable (_ ∧ _))
  | .timeout _ => inferInstanceAs (Decidable (_ = _))
  | .fetch => inferInstanceAs (Decidable (_ ∧ _))
  | .finish _ => inferInstanceAs (Decidable (_ = _))
  | .handle _ => inferInstanceAs (Decidable True)

def step (s : State n) (op : Op n) : Except Unit (State n) :=
  if Enabled proc s op then .ok (run proc s op) else .error ()

def init (n : Nat) : State n where
  mutex := none
  call _ := .idle
  bd := ⟨false, none⟩
  start := false
  engine := none
  executed := []
  intr := false
  mask _ := false
  event _ := false
  handler _ := .idle
  pulses _ := 0

end Imx6Bsp.Sdma.Command
