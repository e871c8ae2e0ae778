import Imx6Bsp.Lib.Bursts
import Imx6Bsp.Lib.Runs

/-!
# 直列の NOR フラッシュ（`flash/boards/norspi`）

`sabresmart` の構成で、`ecspi/arm/mxecspi.c`、`spi_cmds.c`、`f3s_spi_write.c`、`f3s_spi_read.c`、`f3s_spi_page.c` を写す。一回の burst の間、
チップは選ばれたままである。ECSPI を止めると FIFO は空になる。返り値の `-1` は失敗で表す。
-/

namespace Imx6Bsp.Flash

open Imx6Bsp.Lib

/-! ## チップ -/

/-- `PAGE_SIZE`。 -/
def pageSize : Nat := 256

/-- `TOTAL_SIZE_BYTES`。 -/
def totalSizeBytes : Nat := 64 * 256 * pageSize

/-- `wel` は書き込みの許可、`busy` は `DEVICE_SR_WIP` である。 -/
structure NorChip where
  array : Nat → BitVec 8
  wel : Bool
  busy : Bool

/-- 番地の三バイト。 -/
def address (a b c : BitVec 8) : Nat := (a.toNat * 2 ^ 16 + b.toNat * 2 ^ 8 + c.toNat) % totalSizeBytes

/-- 一つの頁に書く。頁の終わりでは、頁の初めに戻る。 -/
def NorChip.program (chip : NorChip) (addr : Nat) (data : List (BitVec 8)) : NorChip :=
  { chip with
    array := fun x =>
      let i := (x + pageSize - addr % pageSize) % pageSize
      if x / pageSize = addr / pageSize ∧ i < data.length then chip.array x &&& data.getD i 0 else chip.array x
    wel := false
    busy := true }

/-- 状態レジスタ。 -/
def NorChip.status (chip : NorChip) : BitVec 8 := (if chip.wel then 2#8 else 0#8) ||| (if chip.busy then 1#8 else 0#8)

/-- 一回の burst。送られたバイトに対する、何番目かのバイトの返事を返す。命令でないバイトの間と、書き込みの間の返事は `junk` である。 -/
def NorChip.burst (chip : NorChip) (junk : Nat → BitVec 8) (sent : List (BitVec 8)) : NorChip × (Nat → BitVec 8) :=
  match sent with
  | [0x06#8] => (if chip.busy then chip else { chip with wel := true }, junk)
  | 0x05#8 :: _ => (chip, fun i => if i = 0 then junk i else chip.status)
  | 0x03#8 :: a :: b :: c :: _ =>
      (chip, fun i => if chip.busy ∨ i < 4 then junk i else chip.array ((address a b c + (i - 4)) % totalSizeBytes))
  | 0x02#8 :: a :: b :: c :: data =>
      (if chip.busy = false ∧ chip.wel = true ∧ data ≠ [] ∧ data.length ≤ pageSize then chip.program (address a b c) data else chip, junk)
  | _ => (chip, junk)

/-! ## ECSPI -/

/-- burst ごとの周り。`finish` はその前に書き込みが終わること、`waitFails` は `spi_wait()` が失敗することで、`junk` と `upper` は、意味のない返事と、
受ける最初の語の上位である。 -/
structure NorEnv where
  finish : Nat → Bool
  waitFails : Nat → Bool
  junk : Nat → Nat → BitVec 8
  upper : Nat → BitVec 32

/-- チップと受信の FIFO。`log` は burst ごとの送ったバイトの記録である。 -/
structure Nor where
  chip : NorChip
  rx : List (BitVec 32) := []
  log : List (List (BitVec 8)) := []

abbrev NorM (α : Type) : Type := EStateM Unit Nor α

/-- 次の burst のときのチップ。 -/
def Nor.ready (env : NorEnv) (s : Nor) : NorChip := if env.finish s.log.length then { s.chip with busy := false } else s.chip

/-- `words` を積んで `k` バイトを送り、待つ。真は、待てたことを表す。 -/
def spiExchange (env : NorEnv) (k : Nat) (words : List (BitVec 32)) : NorM Bool := do
  let s ← get
  let sent := shiftOut k words
  let result := (s.ready env).burst (env.junk s.log.length) sent
  set { s with
    chip := result.1, rx := s.rx ++ shiftIn k (env.upper s.log.length) ((List.range k).map result.2), log := s.log ++ [sent] }
  return !env.waitFails s.log.length

/-- `spi_end_exchange()`。 -/
def spiEndExchange : NorM PUnit := modify fun s => { s with rx := [] }

/-- `cmd[4]`。 -/
structure SpiCmd where
  op : BitVec 8
  a2 : BitVec 8
  a1 : BitVec 8
  a0 : BitVec 8
deriving DecidableEq

def SpiCmd.bytes (cmd : SpiCmd) : List (BitVec 8) := [cmd.op, cmd.a2, cmd.a1, cmd.a0]

/-- 命令と、語に満たない分のデータの語。 -/
def headWords (cmd : SpiCmd) (data : List (BitVec 8)) : List (BitVec 32) :=
  match data.length % 4 with
  | 0 => [word4 cmd.op cmd.a2 cmd.a1 cmd.a0]
  | 1 => [word4 0 0 0 cmd.op, word4 cmd.a2 cmd.a1 cmd.a0 (data.getD 0 0)]
  | 2 => [word4 0 0 cmd.op cmd.a2, word4 cmd.a1 cmd.a0 (data.getD 0 0) (data.getD 1 0)]
  | _ => [word4 0 cmd.op cmd.a2 cmd.a1, word4 cmd.a0 (data.getD 0 0) (data.getD 1 0) (data.getD 2 0)]

/-- 積む語の全部。 -/
def cmdWords (cmd : SpiCmd) (data : List (BitVec 8)) : List (BitVec 32) := headWords cmd data ++ packWords (data.drop (data.length % 4))

/-- `spi_cmd_write()`。真は `EOK` である。 -/
def spiCmdWrite (env : NorEnv) (cmd : SpiCmd) (data : List (BitVec 8)) : NorM Bool := do
  let rc ← spiExchange env (4 + data.length) (cmdWords cmd data)
  if rc then
    spiEndExchange
    return true
  else return false

/-- 受けた語から読むデータ。初めの語は捨て、次の語は下位の `len & 3` バイトだけを残す。 -/
def readRx (len : Nat) (rx : List (BitVec 32)) : List (BitVec 8) :=
  let rx := rx.drop 1
  match len % 4 with
  | 0 => (rx.take (len / 4)).flatMap wordBytes
  | rest => (wordBytes (rx.headD 0)).drop (4 - rest) ++ ((rx.drop 1).take (len / 4)).flatMap wordBytes

/-- `spi_cmd_read()`。`none` は `-1` である。データの代わりに 0 を送る。 -/
def spiCmdRead (env : NorEnv) (cmd : SpiCmd) (len : Nat) : NorM (Option (List (BitVec 8))) := do
  let rc ← spiExchange env (4 + len) (cmdWords cmd (List.replicate len 0#8))
  if rc then
    let s ← get
    spiEndExchange
    return some (readRx len s.rx)
  else return none

/-- `spi_write_1byte()`。 -/
def spiWrite1byte (env : NorEnv) (cmd : BitVec 8) : NorM Bool := do
  let rc ← spiExchange env 1 [word4 0 0 0 cmd]
  if rc then
    spiEndExchange
    return true
  else return false

/-! ## `spi_cmds.c` -/

/-- `set_address()` を使った命令。 -/
def addressCmd (op : BitVec 8) (addr : Nat) : SpiCmd :=
  ⟨op, BitVec.ofNat 8 (addr / 2 ^ 16), BitVec.ofNat 8 (addr / 2 ^ 8), BitVec.ofNat 8 addr⟩

/-- `MAX_BURST - header_size`。 -/
def maxData : Nat := 256 - 4

/-- `write_enable()`。 -/
def writeEnable (env : NorEnv) : NorM PUnit := do
  let rc ← spiWrite1byte env 0x06#8
  if rc then return ⟨⟩ else throw ⟨⟩

/-- `CMD_RDSR`。 -/
def statusCmd : SpiCmd := ⟨0x05#8, 0#8, 0#8, 0#8⟩

/-- `iswriting()`。 -/
def iswriting (env : NorEnv) : NorM Bool := do
  let status ← spiCmdRead env statusCmd 4
  match status with
  | none => throw ⟨⟩
  | some status => return (status.getD 3 0 &&& 1#8) ≠ 0#8

/-- `wait_for_completion()`。 -/
def waitForCompletion (env : NorEnv) : (count : Nat) → NorM PUnit
  | 0 => throw ⟨⟩
  | count + 1 => do
      let rc ← iswriting env
      if rc then waitForCompletion env count else return ⟨⟩

/-- `nbytes`。頁の終わりを越えない。 -/
def pageBytes (offset len : Nat) : Nat := min (min len maxData) (offset / pageSize * pageSize + pageSize - offset)

/-- `page_program()`。 -/
def pageProgram (env : NorEnv) (offset : Nat) (data : List (BitVec 8)) : NorM Nat := do
  let nbytes := pageBytes offset data.length
  writeEnable env
  let rc ← spiCmdWrite env (addressCmd 0x02#8 offset) (data.take nbytes)
  waitForCompletion env 2500
  if rc then return nbytes else throw ⟨⟩

/-- `read_from()`。 -/
def readFrom (env : NorEnv) (offset len : Nat) : NorM (List (BitVec 8)) :=
  if len = 0 then return []
  else do
    let rc ← spiCmdRead env (addressCmd 0x03#8 offset) (min len maxData)
    match rc with
    | none => throw ⟨⟩
    | some bytes => return bytes

/-! ## `f3s_spi_write()` と `f3s_spi_read()` -/

/-- 書いたデータを読み返す繰り返し。 -/
def verifyLoop (env : NorEnv) : (fuel offset : Nat) → List (BitVec 8) → NorM PUnit
  | 0, _, _ => return ⟨⟩
  | fuel + 1, offset, data =>
      if data = [] then return ⟨⟩
      else do
        let bytes ← readFrom env offset (min pageSize data.length)
        if bytes = data.take bytes.length then verifyLoop env fuel (offset + bytes.length) (data.drop bytes.length) else throw ⟨⟩

/-- `f3s_spi_write()`。`verify` は `F3S_VERIFY_WRITE` である。 -/
def f3sSpiWrite (env : NorEnv) (verify : Bool) (offset : Nat) (buffer : List (BitVec 8)) : NorM Nat :=
  if offset ≥ totalSizeBytes then throw ⟨⟩
  else do
    let data := buffer.take (min buffer.length (totalSizeBytes - offset))
    let rc ← pageProgram env offset data
    (if verify then verifyLoop env rc offset (buffer.take rc) else pure ⟨⟩)
    return rc

/-- `f3s_spi_read()`。 -/
def f3sSpiRead (env : NorEnv) (offset size : Nat) : NorM (List (BitVec 8)) :=
  if offset ≥ totalSizeBytes then throw ⟨⟩ else readFrom env offset (min size (totalSizeBytes - offset))

/-! ## 呼び出しの繰り返し -/

/-- 全部を書く。 -/
def writeAll (env : NorEnv) (verify : Bool) : (fuel offset : Nat) → List (BitVec 8) → NorM PUnit
  | 0, _, _ => throw ⟨⟩
  | fuel + 1, offset, data =>
      if data = [] then return ⟨⟩
      else do
        let rc ← f3sSpiWrite env verify offset data
        writeAll env verify fuel (offset + rc) (data.drop rc)

/-- 全部を読む。 -/
def readAll (env : NorEnv) : (fuel offset len : Nat) → NorM (List (BitVec 8))
  | 0, _, _ => throw ⟨⟩
  | fuel + 1, offset, len =>
      if len = 0 then return []
      else do
        let bytes ← f3sSpiRead env offset len
        let rest ← readAll env fuel (offset + bytes.length) (len - bytes.length)
        return bytes ++ rest

/-- 全部を書いて、全部を読む。 -/
def writeThenRead (env : NorEnv) (verify : Bool) (offset : Nat) (data : List (BitVec 8)) : NorM (List (BitVec 8)) := do
  writeAll env verify (data.length + 1) offset data
  readAll env (data.length + 1) offset data.length

/-! ## 仕様 -/

/-- 番地の三バイト。 -/
def addressBytes (addr : Nat) : List (BitVec 8) := [BitVec.ofNat 8 (addr / 2 ^ 16), BitVec.ofNat 8 (addr / 2 ^ 8), BitVec.ofNat 8 addr]

/-- `page_program()` の burst の列。許可の後に、命令と番地と初めの `n` バイトを送って、状態を読む。 -/
def ProgramSends (offset : Nat) (data : List (BitVec 8)) (n : Nat) (before after : List (List (BitVec 8))) : Prop :=
  ∃ polls, after = before ++ [[0x06#8], 0x02#8 :: addressBytes offset ++ data.take n] ++ polls ∧ ∀ p ∈ polls, p.head? = some 0x05#8

/-- `offset` から `len` バイト。 -/
def NorChip.bytes (chip : NorChip) (offset len : Nat) : List (BitVec 8) := (List.range' offset len).map chip.array

/-- チップが書き込み中でなく、受信の FIFO が空である。 -/
structure Nor.Idle (s : Nor) : Prop where
  busy : s.chip.busy = false
  rx : s.rx = []

/-- 待ちが失敗せず、書き込みは 2500 回の状態の読み出しの間に終わる。 -/
structure NorEnv.Prompt (env : NorEnv) : Prop where
  waits : ∀ n, env.waitFails n = false
  finishes : ∀ n, ∃ k < 2500, env.finish (n + k) = true

/-- 直列の NOR フラッシュの書き込みと読み出しが正しい。 -/
structure NorExact (env : NorEnv) : Prop where
  program : ∀ s offset data, offset < totalSizeBytes → data ≠ [] →
    pageBytes offset data.length = min (min data.length maxData) (pageSize - offset % pageSize) ∧ 1 ≤ pageBytes offset data.length ∧
      Meets (pageProgram env offset data) s
        (fun n t => n = pageBytes offset data.length ∧ ProgramSends offset data n s.log t.log)
        (fun _ t => t.log = s.log ++ [[0x06#8]] ∨ ProgramSends offset data (pageBytes offset data.length) s.log t.log)
  write : ∀ s verify offset data, offset < totalSizeBytes → data ≠ [] →
    Meets (f3sSpiWrite env verify offset data) s (fun n t => n = pageBytes offset data.length ∧ t.Idle) (fun _ _ => True)
  read : ∀ s offset len, s.Idle → offset + len ≤ totalSizeBytes →
    Meets (readFrom env offset len) s (fun bytes t => bytes = s.chip.bytes offset (min len maxData) ∧ t.Idle ∧ t.chip.array = s.chip.array)
      (fun _ _ => True)
  roundTrip : ∀ s verify offset data, s.Idle → offset + data.length ≤ totalSizeBytes → (∀ i < data.length, s.chip.array (offset + i) = 0xff#8) →
    Meets (writeThenRead env verify offset data) s (fun bytes _ => bytes = data) (fun _ _ => ¬ env.Prompt)

end Imx6Bsp.Flash
