import Imx6Bsp.Lib.Runs

/-!
# SPI の device の施錠

`hardware/spi/master` の資源管理部を写す。施錠の一覧は `drvhdl->lock` の連結リストで、先頭に足す。
`hw/spi-master.h` はリポジトリの外にあるので、番号の形は `DevCodes` として引数にする。
-/

namespace Imx6Bsp.Spi

/-! ## device 番号 -/

/-- `hw/spi-master.h` の定数。番号は 16 ビットに収まり、`SPI_DEV_ID_NONE` も番号の一つである。 -/
structure DevCodes where
  idMask : BitVec 32
  idNone : BitVec 32
  lockBit : BitVec 32
  unlockBit : BitVec 32
  defaultBit : BitVec 32
  mask_narrow : 0xffff#32 &&& idMask = idMask
  none_masked : idNone &&& idMask = idNone

/-- `device & flag` の真偽。 -/
def hasBit (device flag : BitVec 32) : Bool := device &&& flag != 0

/-- `uint16_t` の変数を通した値。 -/
def toU16 (x : BitVec 32) : BitVec 32 := x &&& 0xffff#32

inductive Errno
  | enosys | einval | enomem | eperm | enodev | eagain | efault | enotsup | eio | errno
deriving DecidableEq

/-- `spi_lock_t`。 -/
structure SpiLock where
  owner : Nat
  device : BitVec 32
deriving DecidableEq

variable (c : DevCodes)

/-! ## `_spi_devlock.c` -/

/-- `_spi_islock`。 -/
def spiIslock (device : BitVec 32) : List SpiLock → Option SpiLock
  | [] => none
  | l :: ls => if l.device == device &&& c.idMask then some l else spiIslock device ls

/-- `_spi_lock_dev`。`callocOk` は `calloc` の成否。 -/
def spiLockDev (callocOk : Bool) (device : BitVec 32) (ocb : Nat) (lock : List SpiLock) :
    Except Errno (List SpiLock) :=
  if callocOk then .ok (⟨ocb, device &&& c.idMask⟩ :: lock) else .error .enomem

/-- `_spi_unlock_dev` の走査。`device` は番号に落としてある。 -/
def unlockScan (device : BitVec 32) (ocb : Nat) : List SpiLock → Option (List SpiLock)
  | [] => none
  | curr :: next =>
      if (curr.device == device || device == c.idNone) && curr.owner == ocb then some next
      else (unlockScan device ocb next).map (curr :: ·)

/-- `_spi_unlock_dev`。 -/
def spiUnlockDev (device : BitVec 32) (ocb : Nat) (lock : List SpiLock) : Except Errno (List SpiLock) :=
  if lock.isEmpty then .error .einval
  else
    match unlockScan c (device &&& c.idMask) ocb lock with
    | some lock' => .ok lock'
    | none => .error .enodev

/-- `_spi_lock_check`。`EOK` のときは新しい一覧を返す。 -/
def spiLockCheck (callocOk : Bool) (device : BitVec 32) (ocb : Nat) (lock : List SpiLock) :
    Except Errno (List SpiLock) :=
  match spiIslock c device lock with
  | some l =>
      if l.owner == ocb then
        if hasBit device c.unlockBit then spiUnlockDev c device ocb lock else .ok lock
      else .error .eperm
  | none =>
      if hasBit device c.lockBit then spiLockDev c callocOk device ocb lock
      else if hasBit device c.unlockBit then .error .einval
      else .ok lock

/-- `_spi_close_ocb` の `while`。成功した解錠は一覧を一つ短くするので、長さだけ回せば足りる。 -/
def unlockAll (ocb : Nat) : Nat → List SpiLock → List SpiLock
  | 0, lock => lock
  | n + 1, lock =>
      match spiUnlockDev c c.idNone ocb lock with
      | .ok lock' => unlockAll ocb n lock'
      | .error _ => lock

/-! ## 転送 -/

inductive Subtype
  | read | write | exchange | cmdread | dmaxchange
deriving DecidableEq

/-- `spi_msg_t`。`subtype` は範囲の外なら `none`。`wpaddr` と `rpaddr` は後に続く `spi_dma_paddr_t`。 -/
structure SpiMsg where
  combineLen : Nat
  isSpi : Bool
  subtype : Option Subtype
  device : BitVec 32
  xlen : Int
  wpaddr : Nat
  rpaddr : Nat

/-- 一回の呼び出しで外側が返す値。`xferBytes` は driver が返した `nbytes`。 -/
structure Env where
  callocOk : Bool
  mallocOk : Bool
  msgMaxSize : Nat
  msgread : Int
  hasDmaXfer : Bool
  xferBytes : Int

/-- `sizeof(spi_msg_t)` と `sizeof(spi_dma_paddr_t)`。 -/
def sizeofSpiMsg : Nat := 24

def sizeofDmaPaddr : Nat := 16

/-- `SPIDEV` と各 `spi_ocb_t`。`ocbs` は開いている ocb の `chip`。 -/
structure State where
  lock : List SpiLock
  ocbs : Nat → Option (BitVec 32)
  buflen : Nat

/-- 呼び出しの結果。`xfer` は driver の `xfer` か `dma_xfer` に渡した chip。 -/
structure Outcome where
  state : State
  xfer : Option (BitVec 32)
  reply : Except Errno Int

/-- 番号が `SPI_DEV_ID_NONE` なら `ocb->chip` を使う。 -/
def resolveChip (device chip : BitVec 32) : BitVec 32 :=
  if toU16 (device &&& c.idMask) == c.idNone then toU16 chip else toU16 (device &&& c.idMask)

/-- `dev->buf` を `len` バイトにする。確保に失敗すると `buflen` は 0 になる。 -/
def growBuf (s : State) (env : Env) (len : Int) : Bool × State :=
  if len ≤ env.msgMaxSize || len ≤ s.buflen then (true, s)
  else if env.mallocOk then (true, { s with buflen := len.toNat })
  else (false, { s with buflen := 0 })

/-- driver を呼んだ後の返事。`floor` は返すデータの前に置かれるバイト数。 -/
def xferReply (floor nbytes : Int) : Except Errno Int :=
  if nbytes = 0 then .error .eagain
  else if floor < nbytes then .ok (nbytes - floor)
  else .error .eio

/-- 外側のメッセージを `len` バイト読み直す。全体が `msg_max_size` に収まるなら読まない。 -/
def rereadMsg (env : Env) (msglen len : Int) : Option Errno :=
  if msglen ≤ env.msgMaxSize then none
  else if env.msgread < 0 then some .errno
  else if env.msgread < len then some .efault
  else none

/-- `_spi_iomsg_read`。 -/
def spiIomsgRead (s : State) (chip : BitVec 32) (m : SpiMsg) (env : Env) : Outcome :=
  if m.xlen ≤ 0 then ⟨s, none, .ok 0⟩
  else
    match growBuf s env m.xlen with
    | (false, s') => ⟨s', none, .error .enomem⟩
    | (true, s') => ⟨s', some (resolveChip c m.device chip), xferReply 0 env.xferBytes⟩

/-- `_spi_iomsg_write` と `_spi_iomsg_xchange` に共通の形。 -/
def spiIomsgSend (s : State) (chip : BitVec 32) (m : SpiMsg) (env : Env) : Outcome :=
  if m.xlen ≤ 0 then ⟨s, none, .ok 0⟩
  else
    match growBuf s env (m.xlen + sizeofSpiMsg) with
    | (false, s') => ⟨s', none, .error .enomem⟩
    | (true, s') =>
        match rereadMsg env (m.xlen + sizeofSpiMsg) (m.xlen + sizeofSpiMsg) with
        | some e => ⟨s', none, .error e⟩
        | none => ⟨s', some (resolveChip c m.device chip), xferReply 0 env.xferBytes⟩

/-- `_spi_iomsg_write`。 -/
def spiIomsgWrite := spiIomsgSend c

/-- `_spi_iomsg_xchange`。 -/
def spiIomsgXchange := spiIomsgSend c

/-- `_spi_iomsg_cmdread`。ここだけは `xlen` が 0 でも driver を呼ぶ。 -/
def spiIomsgCmdread (s : State) (chip : BitVec 32) (m : SpiMsg) (env : Env) : Outcome :=
  match growBuf s env (m.combineLen + m.xlen) with
  | (false, s') => ⟨s', none, .error .enomem⟩
  | (true, s') =>
      match rereadMsg env (m.combineLen + m.xlen) m.combineLen with
      | some e => ⟨s', none, .error e⟩
      | none =>
          ⟨s', some (resolveChip c m.device chip), xferReply (m.combineLen - sizeofSpiMsg) env.xferBytes⟩

/-- `_spi_iomsg_dmaxchange`。chip は 32 ビットの変数で、`ocb->chip` の旗も残る。 -/
def spiIomsgDmaxchange (s : State) (chip : BitVec 32) (m : SpiMsg) (env : Env) : Outcome :=
  if m.combineLen < sizeofSpiMsg + sizeofDmaPaddr then ⟨s, none, .error .enosys⟩
  else if !env.hasDmaXfer then ⟨s, none, .error .enotsup⟩
  else if m.xlen ≤ 0 && (m.wpaddr != 0 || m.rpaddr != 0) then ⟨s, none, .ok 0⟩
  else
    let dev := m.device &&& c.idMask
    ⟨s, some (if dev == c.idNone then chip else dev), xferReply 0 env.xferBytes⟩

/-- `_spi_iomsg`。 -/
def spiIomsg (s : State) (o : Nat) (chip : BitVec 32) (m : SpiMsg) (env : Env) : Outcome :=
  if m.combineLen < sizeofSpiMsg || !m.isSpi then ⟨s, none, .error .enosys⟩
  else
    match m.subtype with
    | none => ⟨s, none, .error .einval⟩
    | some sub =>
        match spiLockCheck c env.callocOk m.device o s.lock with
        | .error e => ⟨s, none, .error e⟩
        | .ok lock =>
            let s' := { s with lock }
            match sub with
            | .read => spiIomsgRead c s' chip m env
            | .write => spiIomsgWrite c s' chip m env
            | .exchange => spiIomsgXchange c s' chip m env
            | .cmdread => spiIomsgCmdread c s' chip m env
            | .dmaxchange => spiIomsgDmaxchange c s' chip m env

/-- `_spi_close_ocb`。 -/
def spiCloseOcb (s : State) (o : Nat) : State :=
  { s with
    lock := unlockAll c o s.lock.length s.lock
    ocbs := fun i => if i = o then none else s.ocbs i }

/-- `_spi_ocb_calloc`。 -/
def spiOcbCalloc (s : State) (o : Nat) : State :=
  { s with ocbs := fun i => if i = o then some c.idNone else s.ocbs i }

/-- `_spi_devctl` の `DCMD_SPI_SET_CONFIG` が `ocb->chip` に対してすること。 -/
def spiSetConfig (s : State) (o : Nat) (device : BitVec 32) : State :=
  if device &&& c.idMask = c.idNone then s
  else if hasBit device c.defaultBit then { s with ocbs := fun i => if i = o then some device else s.ocbs i }
  else s

/-! ## 呼び出しの列 -/

/-- 依頼者たちから届く呼び出し。資源管理部は一本の thread で順に処理する。 -/
inductive Op
  | openOcb (o : Nat)
  | setConfig (o : Nat) (device : BitVec 32)
  | iomsg (o : Nat) (m : SpiMsg) (env : Env)
  | close (o : Nat)

/-- 一回の呼び出し。開いている ocb にだけ届き、新しい ocb は使われていない場所に置かれる。 -/
def handle (s : State) : Op → Option Outcome
  | .openOcb o =>
      match s.ocbs o with
      | some _ => none
      | none => some ⟨spiOcbCalloc c s o, none, .ok 0⟩
  | .setConfig o device => (s.ocbs o).map fun _ => ⟨spiSetConfig c s o device, none, .ok 0⟩
  | .iomsg o m env => (s.ocbs o).map fun chip => spiIomsg c s o chip m env
  | .close o => (s.ocbs o).map fun _ => ⟨spiCloseOcb c s o, none, .ok 0⟩

def step (s : State) (op : Op) : Except Unit State :=
  match handle c s op with
  | some r => .ok r.state
  | none => .error ()

def init : State := ⟨[], fun _ => none, 0⟩

end Imx6Bsp.Spi
