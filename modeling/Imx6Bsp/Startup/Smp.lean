import Imx6Bsp.Lib.Runs
import Imx6Bsp.Startup.Basic

/-!
# 二番目以降の CPU の起動（`init_smp.c`、`board_smp.c`、`smp_start.S`、`callout_smp_spin*.S`）

CPU 0 は `start_aps` でほかの CPU を一つずつ起こし、システムページを書き終えてから `transfer_aps` で一つずつ待ち合わせの
呼び出し（`smp_spin`）へ移す。カーネルは `start_addr` に番地を書き、待っている CPU の一つがそれを取り出して跳ぶ。
どの CPU も一歩に一回だけ共有の変数に触れ、歩みの順序は任意である。書き込みは順に見えるものとする（`mem_barrier` と
キャッシュの書き戻しがこれを保証する）。
-/

namespace Imx6Bsp.Startup

open Imx6Bsp.Lib

/-! ## 状態 -/

/-- CPU 0 の位置。 -/
inductive BootAt
  /-- `start_aps` の繰り返しの先頭。 -/
  | starting (i : Nat)
  /-- `cpu_starting` を書いた後、`board_smp_start` の前。 -/
  | releasing (i : Nat)
  | polling (i count : Nat)
  | apFail (i : Nat)
  /-- 二つの `smp_hook_rtn()` の間。 -/
  | building
  /-- `transfer_aps` の繰り返しの先頭。 -/
  | transferring (i : Nat)
  | offering (i : Nat)
  | awaiting (i : Nat)
  | startnext
deriving DecidableEq, Repr

/-- 二番目以降の CPU の位置。`n` は `r4` に残した自分の番号、`v` は `ip` に読んだ値である。 -/
inductive ApAt
  | off
  /-- `smp_start_mx6x`。 -/
  | reset
  /-- `smp_start`。 -/
  | entered
  /-- `cpu_startup` と `init_one_cpuinfo`。 -/
  | startup (n : Nat)
  | started (n : Nat)
  /-- `syspage_available` を待つ。 -/
  | parked (n : Nat)
  /-- `cpu_startnext` から、`pending` を消すまで。 -/
  | startnext (n : Nat)
  /-- `start_addr` を待つ。 -/
  | spin (n : Nat)
  | swapping (n : Nat)
  /-- `ldrex` の後、`strex` の前。 -/
  | reserved (n : Nat) (v : BitVec 32)
  | taken (n : Nat) (v : BitVec 32)
  | jumped (n : Nat) (v : BitVec 32)
  | halted (n : Nat)
deriving DecidableEq, Repr

/-- 各 CPU の位置と共有の変数。`monitor` は CPU ごとの排他の予約、`cpuinfo` は書かれた `cpu` の欄、`src` は番地ごとの
SRC のレジスタ、`offered` はカーネルがこれまでに `start_addr` へ書いた値である。 -/
structure Smp where
  boot : BootAt
  ap : Nat → ApAt
  cpuStarting : Nat
  syspageAvailable : Nat
  pending : Nat
  startAddr : BitVec 32
  monitor : Nat → Bool
  cpuinfo : Nat → Option (BitVec 32)
  src : Nat → BitVec 32
  startupResetVec : BitVec 32
  startupResetVecAddr : Nat
  offered : List (BitVec 32)

/-- 起動の間は変わらない値。`scuConfig` は `MPCORE_SCU_CONFIG` の読み、`cpuid k` は CPU `k` の番号のレジスタ、
`smpStartMx6x` は `smp_start_mx6x` の番地である。 -/
structure SmpConfig where
  maxCpus : Nat
  scuConfig : BitVec 32
  cpuid : Nat → BitVec 32
  smpStartMx6x : BitVec 32

def boardSmpNumCpu (scuConfig : BitVec 32) : Nat := (scuConfig &&& 0xf).toNat + 1

/-- `init_smp` が `num_cpu` に書く数。`max_cpus` が 1 以下なら、もとの 1 のままである。 -/
def SmpConfig.numCpu (cfg : SmpConfig) : Nat :=
  if cfg.maxCpus > 1 then
    if boardSmpNumCpu cfg.scuConfig > cfg.maxCpus then cfg.maxCpus else boardSmpNumCpu cfg.scuConfig
  else 1

theorem SmpConfig.numCpu_le (cfg : SmpConfig) : cfg.numCpu ≤ 16 := by
  have h : boardSmpNumCpu cfg.scuConfig ≤ 16 := by
    have h := Nat.and_le_right (n := cfg.scuConfig.toNat) (m := 15)
    rw [boardSmpNumCpu, BitVec.toNat_and, show (15 : BitVec 32).toNat = 15 from rfl]
    omega
  unfold SmpConfig.numCpu
  split
  · split <;> omega
  · omega

/-- 待ち合わせの呼び出し。`board_smp_init` は `smp_spin_pl310` を選ぶ。 -/
inductive SpinCallout
  | smpSpin
  | smpSpinPl310
deriving DecidableEq, Repr

/-- 一歩の主。`strexFails k` は、理由なく失敗する CPU `k` の `strex` である。 -/
inductive SmpEvent
  | cpu0
  | ap (k : Nat)
  | strexFails (k : Nat)
  | kernel (v : BitVec 32)
deriving DecidableEq, Repr

namespace Smp

def setAp (s : Smp) (k : Nat) (a : ApAt) : Smp := { s with ap := Function.update s.ap k a }

/-- `start_addr` への書き込み。すべての予約が消える。 -/
def store (s : Smp) (v : BitVec 32) : Smp := { s with startAddr := v, monitor := fun _ => false }

end Smp

/-! ## `board_smp.c` -/

def mx6xSrcBase : Nat := 0x020D8000
def mx6xSrcScr : Nat := mx6xSrcBase + 0x000
/-- `MX6X_SRC_BASE + MX6X_SRC_GPR1 + (4 * 2 * cpu)`。 -/
def mx6xSrcGpr (cpu : Nat) : Nat := mx6xSrcBase + 0x020 + 4 * 2 * cpu

/-- `board_smp_start`。CPU `cpu` は、`SRC_SCR` を書いたところで `smp_start_mx6x` から動き出す。 -/
def boardSmpStart (cfg : SmpConfig) (s : Smp) (cpu : Nat) : Smp × Nat :=
  let gpr := mx6xSrcGpr cpu
  let src := Function.update (Function.update s.src gpr cfg.smpStartMx6x) (gpr + 4) 0
  let rval := src mx6xSrcScr ||| 1#32 <<< (13 + cpu) ||| 1#32 <<< (21 + cpu)
  let src := Function.update (Function.update src mx6xSrcScr rval) (gpr + 4) 0
  ({ s.setAp cpu .reset with src := src, startupResetVec := s.src gpr, startupResetVecAddr := gpr }, 1)

def boardSmpAdjustNum (cpu : Nat) : Nat := cpu

/-! ## CPU 0（`start_aps` と `transfer_aps`） -/

def cpu0Step (cfg : SmpConfig) (s : Smp) : Option Smp :=
  match s.boot with
  | .starting i =>
      if i < cfg.numCpu then some { s with cpuStarting := i + 1, boot := .releasing i }
      else some { s with boot := .building }
  | .releasing i =>
      let r := boardSmpStart cfg s i
      if r.2 ≠ 0 then some { r.1 with boot := .polling i 0 } else some { r.1 with boot := .apFail i }
  | .polling i count =>
      if wrap32 (count + 1) = 0 then some { s with boot := .apFail i }
      else if s.cpuStarting ≠ 0 then some { s with boot := .polling i (wrap32 (count + 1)) }
      else some { s with boot := .starting (i + 1) }
  | .apFail _ => none
  | .building => some { s with boot := .transferring 1 }
  | .transferring i =>
      if i < cfg.numCpu then some { s with pending := 1, boot := .offering i }
      else some { s with boot := .startnext }
  | .offering i => some { s with syspageAvailable := i, boot := .awaiting i }
  | .awaiting i => if s.pending ≠ 0 then some s else some { s with boot := .transferring (i + 1) }
  | .startnext => none

/-! ## 二番目以降の CPU -/

/-- 取り出した値が `0` なら待ち直す。 -/
def afterSwap (n : Nat) (v : BitVec 32) : ApAt := if v = 0 then .spin n else .taken n v

def apStep (spin : SpinCallout) (cfg : SmpConfig) (s : Smp) (k : Nat) : Option Smp :=
  match s.ap k with
  | .off => none
  -- 元のリセットベクタを戻してから `smp_start` へ跳ぶ。
  | .reset => some { s.setAp k .entered with src := Function.update s.src s.startupResetVecAddr s.startupResetVec }
  | .entered => some (s.setAp k (.startup (boardSmpAdjustNum (wrap32 (s.cpuStarting + (2 ^ 32 - 1))))))
  | .startup n => some { s.setAp k (.started n) with cpuinfo := Function.update s.cpuinfo n (some (cfg.cpuid k)) }
  | .started n => some { s.setAp k (.parked n) with cpuStarting := 0 }
  | .parked n => if s.syspageAvailable = n then some (s.setAp k (.startnext n)) else some s
  | .startnext n => some { s.setAp k (.spin n) with pending := 0 }
  | .spin n => if s.startAddr = 0 then some s else some (s.setAp k (.swapping n))
  | .swapping n =>
      match spin with
      | .smpSpin => some ((s.store 0).setAp k (afterSwap n s.startAddr))
      | .smpSpinPl310 =>
          some { s.setAp k (.reserved n s.startAddr) with monitor := Function.update s.monitor k true }
  | .reserved n v =>
      if s.monitor k = true then some ((s.store 0).setAp k (afterSwap n v))
      else some (s.setAp k (.spin n))
  | .taken n v =>
      -- `-1` は次の CPU のために書き戻す。
      if v = -1 then some ((s.store (-1)).setAp k (.halted n)) else some (s.setAp k (.jumped n v))
  | .jumped _ _ => none
  | .halted _ => none

/-- `strex` の失敗。予約を失って待ち直す。 -/
def strexFailStep (s : Smp) (k : Nat) : Option Smp :=
  match s.ap k with
  | .reserved n _ => some { s.setAp k (.spin n) with monitor := Function.update s.monitor k false }
  | _ => none

/-! ## 系全体 -/

/-- カーネルは、`startnext` の後で動き出し、`start_addr` に値を書く。 -/
def kernelStep (s : Smp) (v : BitVec 32) : Option Smp :=
  if s.boot = .startnext then some { s.store v with offered := v :: s.offered } else none

def smpStep (spin : SpinCallout) (cfg : SmpConfig) (s : Smp) : SmpEvent → Except Unit Smp
  | .cpu0 => (cpu0Step cfg s).elim (.error ()) .ok
  | .ap k => (apStep spin cfg s k).elim (.error ()) .ok
  | .strexFails k => (strexFailStep s k).elim (.error ()) .ok
  | .kernel v => (kernelStep s v).elim (.error ()) .ok

/-- カーネルの書き方の約束。`rule a vs v` は、`start_addr` が `a` で、これまでに `vs` を書いたときに `v` を書いてよいことである。 -/
def kernelObeys (rule : BitVec 32 → List (BitVec 32) → BitVec 32 → Prop) (s : Smp) : SmpEvent → Prop
  | .kernel v => rule s.startAddr s.offered v
  | _ => True

/-- `init_smp` の後の状態。CPU 0 の `cpuinfo` は書かれている。 -/
def Smp.init (cfg : SmpConfig) (src : Nat → BitVec 32) : Smp where
  boot := .starting 1
  ap := fun _ => .off
  cpuStarting := 0
  syspageAvailable := 0
  pending := 0
  startAddr := 0
  monitor := fun _ => false
  cpuinfo := Function.update (fun _ => none) 0 (some (cfg.cpuid 0))
  src := src
  startupResetVec := 0
  startupResetVecAddr := 0
  offered := []

end Imx6Bsp.Startup
