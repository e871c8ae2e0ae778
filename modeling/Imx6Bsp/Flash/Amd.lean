import Imx6Bsp.Flash.Bus

/-!
# AMD の命令を受けるチップ（`flash/mtd-flash/amd`）

母線に並んだチップは、同じ番地に書かれた語のうち、自分の線だけを見る。番地はフラッシュの先頭からのバイト数で、`addr / bus_width` 番目の語を
指す。
-/

namespace Imx6Bsp.Flash

/-! ## 装置 -/

/-- `bufferBits` は `dbase->buffer_size` の指数、`sectorPages` は一つの区画に入る書き込みバッファの数である。語の数は、一つのチップの線で送る。 -/
structure AmdPart where
  cfg : FlashCfg
  bufferBits : Nat
  sectorPages : Nat
  fits : 2 ^ bufferBits ≤ cfg.busWidth * 2 ^ (8 * cfg.deviceWidth)

/-- `dbase->buffer_size`。 -/
def AmdPart.bufferSize (p : AmdPart) : Nat := 2 ^ p.bufferBits

def AmdPart.page (p : AmdPart) (addr : Nat) : Nat := addr / p.bufferSize

def AmdPart.sector (p : AmdPart) (addr : Nat) : Nat := addr / (p.bufferSize * p.sectorPages)

/-- チップ `i` の線の値。 -/
def FlashCfg.lane (c : FlashCfg) (word : BitVec 64) (i : Nat) : Nat :=
  word.toNat / 2 ^ (8 * c.deviceWidth * i) % 2 ^ (8 * c.deviceWidth)

/-- チップが調べる番地の下位の桁。 -/
def FlashCfg.decode (c : FlashCfg) (addr : Nat) : Nat := addr / c.busWidth % (if c.deviceWidth = 1 then 0x1000 else 0x800)

/-- 命令の第一の番地。 -/
def FlashCfg.IsCmd1 (c : FlashCfg) (addr : Nat) : Prop := c.decode addr = if c.deviceWidth = 1 then 0xAAA else 0x555

/-- 命令の第二の番地。 -/
def FlashCfg.IsCmd2 (c : FlashCfg) (addr : Nat) : Prop := c.decode addr = if c.deviceWidth = 1 then 0x555 else 0x2AA

instance FlashCfg.decidableIsCmd1 (c : FlashCfg) (addr : Nat) : Decidable (c.IsCmd1 addr) := inferInstanceAs (Decidable (_ = _))

instance FlashCfg.decidableIsCmd2 (c : FlashCfg) (addr : Nat) : Decidable (c.IsCmd2 addr) := inferInstanceAs (Decidable (_ = _))

/-! ## 一つのチップ -/

/-- チップの状態。`inBypass` は、アンロックバイパスの間の演算であることを表す。書き込むデータは、語の番号と語の組である。 -/
inductive AmdMode
  | read
  | unlock1
  | unlock2
  | program
  | count (sector : Nat)
  | load (sector left : Nat) (data : List (Nat × BitVec 64))
  | confirm (sector : Nat) (data : List (Nat × BitVec 64))
  | bypass
  | bypassProgram
  | bypassReset
  | busy (inBypass : Bool) (data : List (Nat × BitVec 64))
  | timeout (inBypass : Bool)
  | abort
  | abort1
  | abort2
deriving DecidableEq, Repr

/-- 書き込みバッファへの一語。区画かバッファの境を越えると中断する。 -/
def AmdPart.loadWord (p : AmdPart) (sector left : Nat) (data : List (Nat × BitVec 64)) (addr : Nat) (word : BitVec 64) : AmdMode :=
  if p.sector addr = sector ∧ ∀ d ∈ data, p.page (d.1 * p.cfg.busWidth) = p.page addr then
    if left = 1 then .confirm sector (data ++ [(addr / p.cfg.busWidth, word)])
    else .load sector (left - 1) (data ++ [(addr / p.cfg.busWidth, word)])
  else .abort

/-- 番地 `addr` に語 `word` が書かれた。`cmd` は命令を表す下位 8 本の線である。 -/
def AmdMode.write (p : AmdPart) (i addr : Nat) (word : BitVec 64) (m : AmdMode) : AmdMode :=
  let cmd := p.cfg.lane word i % 256
  match m with
  | .read => if cmd = 0xAA ∧ p.cfg.IsCmd1 addr then .unlock1 else .read
  | .unlock1 => if cmd = 0x55 ∧ p.cfg.IsCmd2 addr then .unlock2 else .read
  | .unlock2 =>
      if cmd = 0xA0 ∧ p.cfg.IsCmd1 addr then .program
      else if cmd = 0x20 ∧ p.cfg.IsCmd1 addr then .bypass
      else if cmd = 0x25 then .count (p.sector addr)
      else .read
  | .program => .busy false [(addr / p.cfg.busWidth, word)]
  | .count sector =>
      if p.sector addr = sector ∧ (p.cfg.lane word i + 1) * p.cfg.busWidth ≤ p.bufferSize then .load sector (p.cfg.lane word i + 1) []
      else .abort
  | .load sector left data => p.loadWord sector left data addr word
  | .confirm sector data => if cmd = 0x29 ∧ p.sector addr = sector then .busy false data else .abort
  | .bypass => if cmd = 0xA0 then .bypassProgram else if cmd = 0x90 then .bypassReset else .bypass
  | .bypassProgram => .busy true [(addr / p.cfg.busWidth, word)]
  | .bypassReset => if cmd = 0x00 then .read else .bypass
  | .busy inBypass data => .busy inBypass data
  | .timeout inBypass => if cmd = 0xF0 then (if inBypass then .bypass else .read) else .timeout inBypass
  | .abort => if cmd = 0xAA ∧ p.cfg.IsCmd1 addr then .abort1 else .abort
  | .abort1 => if cmd = 0x55 ∧ p.cfg.IsCmd2 addr then .abort2 else .abort
  | .abort2 => if cmd = 0xF0 ∧ p.cfg.IsCmd1 addr then .read else .abort

/-- 演算が終わった後の状態。 -/
def AmdMode.settle (outcome : Outcome) : AmdMode → AmdMode
  | .busy inBypass _ =>
      match outcome with
      | .success => if inBypass then .bypass else .read
      | .timeout => .timeout inBypass
      | .abort => .abort
  | m => m

/-- 演算の後、語 `w` の線 `j` が 0 にならない。書き込みは 1 を 0 にするだけで、失敗したチップの中身は変えない。 -/
def AmdMode.keeps (outcome : Outcome) (w j : Nat) : AmdMode → Bool
  | .busy _ data => decide (outcome = .success → ∀ d ∈ data, d.1 = w → d.2.getLsbD j = true)
  | _ => true

/-- 状態を読んだときの振る舞い。演算の外では、止まったチップか失敗したチップと同じである。 -/
def AmdMode.chip (chip : StatusChip) : AmdMode → StatusChip
  | .busy _ _ => chip
  | .timeout _ => { outcome := .timeout }
  | .abort => { outcome := .abort }
  | .abort1 => { outcome := .abort }
  | .abort2 => { outcome := .abort }
  | _ => {}

/-- 読み出しで、配列のデータが見える。 -/
def AmdMode.Readable (m : AmdMode) : Prop := m = .read ∨ m = .bypass

instance AmdMode.decidableReadable (m : AmdMode) : Decidable m.Readable := inferInstanceAs (Decidable (_ ∨ _))

/-! ## 母線 -/

/-- `mode` はチップごとの状態、`array` は語ごとの中身である。 -/
structure AmdBus where
  mode : Nat → AmdMode
  array : Nat → BitVec 64

/-- `writemem()`。 -/
def AmdBus.write (p : AmdPart) (b : AmdBus) (addr : Nat) (word : BitVec 64) : AmdBus :=
  { b with mode := fun i => (b.mode i).write p i addr word }

/-- `send_command()`。 -/
def AmdBus.send (p : AmdPart) (b : AmdBus) (addr command : Nat) : AmdBus := b.write p addr (p.cfg.command command)

/-- 二つの解除の命令。 -/
def AmdBus.unlock (p : AmdPart) (b : AmdBus) (command : Nat) : AmdBus :=
  (b.send p (command + p.cfg.amdCmd1) 0xAA).send p (command + p.cfg.amdCmd2) 0x55

/-- メモリとして読んだ語。状態を返しているチップの線は、決まっていないので 0 とする。 -/
def AmdBus.data (p : AmdPart) (b : AmdBus) (w : Nat) : BitVec 64 :=
  BitVec.ofFnLE fun j : Fin 64 => decide (b.mode (j.val / (8 * p.cfg.deviceWidth))).Readable && (b.array w).getLsbD j.val

/-- メモリとして読んだバイト。 -/
def AmdBus.byte (p : AmdPart) (b : AmdBus) (addr : Nat) : BitVec 8 :=
  (b.data p (addr / p.cfg.busWidth)).extractLsb' (8 * (addr % p.cfg.busWidth)) 8

/-- 演算がすべて終わった。 -/
def AmdBus.settle (p : AmdPart) (b : AmdBus) (chips : Nat → StatusChip) : AmdBus where
  mode i := (b.mode i).settle (chips i).outcome
  array w := BitVec.ofFnLE fun j : Fin 64 =>
    (b.array w).getLsbD j.val &&
      (b.mode (j.val / (8 * p.cfg.deviceWidth))).keeps (chips (j.val / (8 * p.cfg.deviceWidth))).outcome w j.val

/-- `amd_poll()` の間に演算が終わる。`chips` は、その演算のチップごとの経過である。 -/
def AmdBus.poll (p : AmdPart) (b : AmdBus) (chips : Nat → StatusChip) (value : BitVec 64) (addr : Nat) (dq1 : Bool) (fuel : Nat) :
    Option (Bool × AmdBus) :=
  let after := b.settle p chips
  let read := statusRead p.cfg value (after.array (addr / p.cfg.busWidth)) fun i => (b.mode i).chip (chips i)
  (amdPoll p.cfg value dq1 read fuel).map fun r => (r ≠ -1, after)

/-! ## バッファを使う書き込み（`flash/mtd-flash/amd/aCFI_v2write.c`、`pad_value.c`）

`f3s_aCFI_v2write()` は、書き込みバッファ、アンロックバイパス、一語ずつの三つの方法で書く。ポインタは、フラッシュの先頭とバッファの先頭からの
バイト数とする。ループと状態の読み出しには回数の上限を付ける。 -/

/-! ### `pad_value()` -/

/-- `mask`。`front` は前を埋めることを表す。 -/
def padMask (c : FlashCfg) (shift : Nat) (front : Bool) : BitVec 64 :=
  if front then (BitVec.allOnes (8 * c.busWidth) >>> shift).setWidth 64 else (BitVec.allOnes (8 * c.busWidth) <<< shift).setWidth 64

/-- `pad_value()`。一バイトの母線では何もしない。 -/
def padValue (c : FlashCfg) (value current : BitVec 64) (shift : Nat) (front : Bool) : BitVec 64 :=
  if c.busWidth = 1 then value else (value &&& ~~~padMask c shift front) ||| (padMask c shift front &&& current)

/-! ### 環境 -/

/-- `flashcfg_setup()` の `amd_command_mask`。 -/
def amdCommandMask (deviceWidth busWidth : Nat) : Nat :=
  let mask :=
    if busWidth = 1 then 0xfffff800
    else if busWidth = 2 then 0xfffff000
    else if busWidth = 4 then 0xffffe000
    else 0xffffc000
  if deviceWidth = 1 then mask * 2 % 2 ^ 32 else mask

/-- `amd_command_mask`。 -/
def FlashCfg.commandMask (c : FlashCfg) : Nat := amdCommandMask c.deviceWidth c.busWidth

/-- 書き込みの環境。`page` は `page()` が許すバイト数で、`none` は `NULL` である。`buf` はバッファの中身で、負の添字はその前を指す。`ops` は
何番目かの演算の、チップごとの経過である。 -/
structure AmdEnv where
  part : AmdPart
  page : Nat → Int → Option Int
  buf : Int → BitVec 8
  ops : Nat → Nat → StatusChip
  fuel : Nat

/-- `memcpy((void *)&value, buffer, n)`。 -/
def copyIn (value : BitVec 64) (n : Nat) (bytes : Nat → BitVec 8) : BitVec 64 :=
  BitVec.ofFnLE fun j : Fin 64 => if j.val / 8 < n then (bytes (j.val / 8)).getLsbD (j.val % 8) else value.getLsbD j.val

/-- 局所変数と装置。`op` は、始めた演算の数である。 -/
structure AmdRegs where
  bus : AmdBus
  op : Nat := 0
  value : BitVec 64
  left : Int
  offset : Nat
  memory : Nat
  buffer : Int
  unlock : Bool := false

/-- 返り方。`done` の他は `-1` を返す。 -/
inductive WriteExit
  | noPage
  | programError
  | verifyError
  | done (size : Int)
deriving DecidableEq, Repr

def WriteExit.ret : WriteExit → Int
  | .done size => size
  | _ => -1

/-- 一語進み、`n` バイトを読む。 -/
def AmdRegs.advance (env : AmdEnv) (r : AmdRegs) (n : Int) : AmdRegs :=
  let width := env.part.cfg.busWidth
  { r with
    buffer := r.buffer + width
    memory := r.memory + width
    value := copyIn r.value n.toNat fun j => env.buf (r.buffer + width + j) }

/-- `amd_poll()`。演算を一つ進める。 -/
def AmdRegs.poll (env : AmdEnv) (r : AmdRegs) (addr : Nat) (dq1 : Bool) : Option (Bool × AmdRegs) :=
  (r.bus.poll env.part (env.ops r.op) r.value addr dq1 env.fuel).map fun x => (x.1, { r with bus := x.2, op := r.op + 1 })

/-! ### 書き込みバッファ -/

/-- バッファに `count` 語を送る。 -/
def bufferWords (env : AmdEnv) : Nat → AmdRegs → AmdRegs
  | 0, r => r
  | count + 1, r =>
      let r := { r with bus := r.bus.write env.part r.memory r.value }
      bufferWords env count (if count > 0 then r.advance env env.part.cfg.busWidth else r)

/-- 一度に送るバイト数。 -/
def chunkSize (p : AmdPart) (left : Int) (offset : Nat) : Nat :=
  min (min p.bufferSize (left.toNat / p.cfg.busWidth * p.cfg.busWidth)) (p.bufferSize - (offset &&& (p.bufferSize - 1)))

/-- 語の数とデータを送り、書き込みを始める。 -/
def bufferSend (env : AmdEnv) (command : Nat) (r : AmdRegs) : AmdRegs :=
  let p := env.part
  let size := chunkSize p r.left r.offset
  let count := size / p.cfg.deviceWidth / p.cfg.chipInter
  let bus := ((r.bus.unlock p command).send p r.memory 0x25).send p r.memory (count - 1)
  let r := bufferWords env count { r with bus, left := r.left - size, offset := r.offset + size }
  { r with bus := r.bus.send p r.memory 0x29 }

/-- 一度のバッファの書き込み。 -/
def bufferChunk (env : AmdEnv) (command : Nat) (r : AmdRegs) : Option (Bool × AmdRegs) :=
  let p := env.part
  let r := bufferSend env command r
  match r.poll env r.memory true with
  | none => none
  | some (false, r) => some (false, { r with bus := (r.bus.unlock p command).send p (command + p.cfg.amdCmd1) 0xF0 })
  | some (true, r) => some (true, if r.left ≥ p.cfg.busWidth then r.advance env p.cfg.busWidth else r)

/-- 書き込みバッファのループと、残りの読み込み。 -/
def bufferLoop (env : AmdEnv) (command : Nat) : Nat → AmdRegs → Option (Bool × AmdRegs)
  | 0, _ => none
  | fuel + 1, r =>
      if r.left ≥ env.part.cfg.busWidth then
        match bufferChunk env command r with
        | none => none
        | some (false, r) => some (false, r)
        | some (true, r) => bufferLoop env command fuel r
      else some (true, if r.left ≠ 0 then r.advance env (min r.left env.part.cfg.busWidth) else r)

/-! ### 一語ずつの書き込み -/

/-- 命令を選ぶ。残りが二語までなら、アンロックバイパスに入らない。 -/
def chooseProgram (env : AmdEnv) (command : Nat) (r : AmdRegs) : AmdRegs :=
  let p := env.part
  if r.unlock then r
  else if r.left ≤ 2 * p.cfg.busWidth then
    { r with bus := (r.bus.unlock p command).send p (command + p.cfg.amdCmd1) 0xA0 }
  else { r with bus := (r.bus.unlock p command).send p (command + p.cfg.amdCmd1) 0x20, unlock := true }

/-- 命令を送り、一語を書く。 -/
def programSend (env : AmdEnv) (command : Nat) (r : AmdRegs) : AmdRegs :=
  let p := env.part
  let r := chooseProgram env command r
  let r := if r.unlock then { r with bus := r.bus.send p command 0xA0 } else r
  { r with bus := r.bus.write p r.memory r.value }

/-- 一語を書き、終わるのを待つ。全てのビットが 1 なら書かない。 -/
def programWord (env : AmdEnv) (command : Nat) (r : AmdRegs) : Option (Bool × AmdRegs) :=
  if r.value = BitVec.allOnes 64 then some (true, r)
  else
    let r := programSend env command r
    match r.poll env r.memory false with
    | none => none
    | some (false, r) => some (false, { r with bus := r.bus.send env.part r.memory 0xF0 })
    | some (true, r) => some (true, r)

/-- 終わりの語を埋める。 -/
def padTail (env : AmdEnv) (r : AmdRegs) : AmdRegs :=
  let p := env.part
  if r.left < p.cfg.busWidth then
    { r with value := padValue p.cfg r.value (r.bus.data p (r.memory / p.cfg.busWidth)) (8 * r.left.toNat) false }
  else r

/-- 残りのバイトのループ。`program` は一語の書き込みである。 -/
def wordLoop (env : AmdEnv) (program : AmdRegs → Option (Bool × AmdRegs)) : Nat → AmdRegs → Option (Bool × AmdRegs)
  | 0, _ => none
  | fuel + 1, r =>
      if r.left > 0 then
        match program (padTail env r) with
        | none => none
        | some (false, r) => some (false, r)
        | some (true, r) =>
            let r := { r with left := r.left - env.part.cfg.busWidth }
            wordLoop env program fuel (if r.left > 0 then r.advance env (min env.part.cfg.busWidth r.left) else r)
      else some (true, r)

/-! ### `f3s_aCFI_v2write()` -/

/-- 書き込んだ後に読み返す。 -/
def verifyBytes (env : AmdEnv) (r : AmdRegs) (size : Int) : Bool :=
  (List.range size.toNat).all fun k =>
    env.buf (r.buffer - size + r.left + env.part.cfg.busWidth + k) =
      r.bus.byte env.part (r.memory - size + r.left + env.part.cfg.busWidth + k).toNat

/-- 頭を埋めるまで。`stack` は、初期化されない `value` の中身である。 -/
def writeStart (env : AmdEnv) (bus : AmdBus) (offset : Nat) (left : Int) (stack : BitVec 64) : AmdRegs :=
  let c := env.part.cfg
  let pad := offset &&& (c.busWidth - 1)
  let memory := offset - pad
  let value := copyIn stack (min (c.busWidth : Int) left).toNat fun j => env.buf (-pad + j)
  { bus, left, offset := memory, memory, buffer := -pad
    value := if pad ≠ 0 then padValue c value (bus.data env.part (memory / c.busWidth)) ((c.busWidth - pad) * 8) true else value }

/-- 書き込みバッファが使える。 -/
def UsesBuffer (p : AmdPart) (left : Int) : Prop := p.bufferSize > 2 * p.cfg.busWidth ∧ left ≥ 4 * p.cfg.busWidth

instance decidableUsesBuffer (p : AmdPart) (left : Int) : Decidable (UsesBuffer p left) := inferInstanceAs (Decidable (_ ∧ _))

/-- 書き込みのループ。 -/
def writeLoops (env : AmdEnv) (command : Nat) (r : AmdRegs) : Option (Bool × AmdRegs) :=
  if UsesBuffer env.part r.left then
    match bufferLoop env command env.fuel r with
    | none => none
    | some (false, r) => some (false, r)
    | some (true, r) => wordLoop env (programWord env command) env.fuel r
  else wordLoop env (programWord env command) env.fuel r

/-- アンロックバイパスを抜け、確かめる。 -/
def writeFinish (env : AmdEnv) (command : Nat) (verify : Bool) (size : Int) (r : AmdRegs) : WriteExit × AmdBus :=
  let p := env.part
  let r := if r.unlock then { r with bus := (r.bus.send p command 0x90).send p command 0x00 } else r
  if verify ∧ ¬verifyBytes env r size then (.verifyError, r.bus) else (.done size, r.bus)

/-- `f3s_aCFI_v2write()`。`none` は、上限までに終わらないことを表す。 -/
def aCFIv2Write (env : AmdEnv) (bus : AmdBus) (verify : Bool) (offset : Nat) (size : Int) (stack : BitVec 64) :
    Option (WriteExit × AmdBus) :=
  let c := env.part.cfg
  let command := offset &&& c.commandMask
  let pad := offset &&& (c.busWidth - 1)
  match env.page command 0 with
  | none => some (.noPage, bus)
  | some _ =>
      match env.page (offset - pad) (size + pad) with
      | none => some (.noPage, bus)
      | some left =>
          match writeLoops env command (writeStart env bus offset left stack) with
          | none => none
          | some (false, r) => some (.programError, r.bus)
          | some (true, r) => some (writeFinish env command verify (left - pad) r)

/-! ### 仕様

`offset` から `n` バイトに、バッファの先頭の `n` バイトを書く。フラッシュは 1 を 0 にするだけなので、残るのは前の値との論理積である。 -/

/-- 書き込みの前の配列と、許された範囲。`length` は、`page()` の許したバイト数、`stack` は初期化されない `value` の中身である。 -/
structure WriteSpec where
  env : AmdEnv
  old : Nat → BitVec 64
  offset : Nat
  length : Nat
  stack : BitVec 64

namespace WriteSpec

/-- 母線の幅。 -/
def width (s : WriteSpec) : Nat := s.env.part.cfg.busWidth

/-- 頭の、埋めるバイト数。 -/
def pad (s : WriteSpec) : Nat := s.offset % s.width

/-- 最初の語の番号。 -/
def base (s : WriteSpec) : Nat := s.offset / s.width

/-- 書くバイト数。 -/
def size (s : WriteSpec) : Nat := s.length - s.pad

/-- 語 `w` に書くビット `j`。範囲の外では、前の値である。 -/
def bit (s : WriteSpec) (w j : Nat) : Bool :=
  if s.offset ≤ w * s.width + j / 8 ∧ w * s.width + j / 8 < s.offset + s.size then
    (s.env.buf (w * s.width + j / 8 - s.offset : Nat)).getLsbD (j % 8)
  else (s.old w).getLsbD j

/-- 書き込みの後の配列。 -/
def Written (s : WriteSpec) (array : Nat → BitVec 64) : Prop :=
  ∀ w, ∀ j < 8 * s.width, (array w).getLsbD j = ((s.old w).getLsbD j && s.bit w j)

/-- 先頭から `k` 番目の語は、全てのビットが 1 なので書かない。 -/
def Skips (s : WriteSpec) (k : Nat) : Prop :=
  (∀ j < 8 * s.width, s.bit (s.base + k) j = true) ∧ ∀ j < 64, 8 * s.width ≤ j → s.stack.getLsbD j = true

instance decidableSkips (s : WriteSpec) (k : Nat) : Decidable (s.Skips k) := inferInstanceAs (Decidable (_ ∧ ∀ j < 64, _ → _))

/-- 書く語で、残りが二語より多い。 -/
def LongWord (s : WriteSpec) (k : Nat) : Prop := ¬s.Skips k ∧ k * s.width + 2 * s.width < s.length

/-- アンロックバイパスに入る。 -/
def UsesBypass (s : WriteSpec) : Prop := ¬UsesBuffer s.env.part s.length ∧ ∃ k, s.LongWord k

/-- 先頭から `k` 番目の語で、演算の終わりを待つ。書き込みバッファでは、一度に送る最後の語だけである。 -/
def Polls (s : WriteSpec) (k : Nat) : Prop :=
  if UsesBuffer s.env.part s.length ∧ (k + 1) * s.width ≤ s.length then
    (s.base + k + 1) * s.width % s.env.part.bufferSize = 0 ∨ s.length < (k + 2) * s.width
  else ¬s.Skips k

/-- 先頭から `k` 番目の語で、演算の結果を知らせる DQ7 が、書いたものと同じになる。 -/
def Sees (s : WriteSpec) (k : Nat) : Prop :=
  ∀ i < s.env.part.cfg.chipInter, s.bit (s.base + k) (8 * s.env.part.cfg.deviceWidth * i + 7) = true →
    (s.old (s.base + k)).getLsbD (8 * s.env.part.cfg.deviceWidth * i + 7) = true

/-- どの演算も、結果が見える。 -/
def Reports (s : WriteSpec) : Prop := ∀ k, k * s.width < s.length → s.Polls k → s.Sees k

/-- 書いたバイトが、読み返して同じになる。 -/
def Exact (s : WriteSpec) : Prop :=
  ∀ q < s.size, ∀ b < 8, (s.env.buf q).getLsbD b = true →
    (s.old ((s.offset + q) / s.width)).getLsbD (8 * ((s.offset + q) % s.width) + b) = true

instance decidableExact (s : WriteSpec) : Decidable s.Exact := inferInstanceAs (Decidable (∀ q < s.size, ∀ b < 8, _ → _))

/-- 返り方。 -/
def exit (s : WriteSpec) (verify : Bool) : WriteExit := if verify ∧ ¬s.Exact then .verifyError else .done s.size

/-- どの演算も成功し、ループと読み出しの上限に足りる。 -/
structure Healthy (s : WriteSpec) : Prop where
  outcome : ∀ o, ∀ i < s.env.part.cfg.chipInter, (s.env.ops o i).outcome = .success
  duration : ∀ o < s.length, ∀ i < s.env.part.cfg.chipInter, (s.env.ops o i).duration < s.env.fuel
  fuel : s.length < s.env.fuel
  pad_lt : s.pad < s.length
  offset_lt : s.offset < 2 ^ 32

end WriteSpec

/-! ### 一語ずつの書き込み（`flash/mtd-flash/amd/amd_v2wordwrite.c`）

`amd_v2wordwrite()` は、どの語も同じ命令で書く。状態は、書いた番地ではなく、命令の番地の先頭 `command` で読む。 -/

/-- 一語を書く。 -/
def wordWriteProgram (env : AmdEnv) (command : Nat) (r : AmdRegs) : Option (Bool × AmdRegs) :=
  let p := env.part
  if r.value = BitVec.allOnes 64 then some (true, r)
  else
    let bus := (r.bus.unlock p command).send p (command + p.cfg.amdCmd1) 0xA0
    { r with bus := bus.write p r.memory r.value }.poll env command false

/-- `amd_v2wordwrite()`。 -/
def amdV2WordWrite (env : AmdEnv) (bus : AmdBus) (verify : Bool) (offset : Nat) (size : Int) (stack : BitVec 64) :
    Option (WriteExit × AmdBus) :=
  let c := env.part.cfg
  let command := offset &&& c.commandMask
  let pad := offset &&& (c.busWidth - 1)
  match env.page (offset - pad) (size + pad) with
  | none => some (.noPage, bus)
  | some left =>
      match wordLoop env (wordWriteProgram env command) env.fuel (writeStart env bus offset left stack) with
      | none => none
      | some (false, r) => some (.programError, r.bus)
      | some (true, r) => if verify ∧ ¬verifyBytes env r (left - pad) then some (.verifyError, r.bus) else some (.done (left - pad), r.bus)

namespace WriteSpec

/-- 書く値は、配列の 0 を 1 にしない。 -/
def Programmable (s : WriteSpec) : Prop := ∀ w, ∀ j < 8 * s.width, s.bit w j = true → (s.old w).getLsbD j = true

/-- 先頭から `k` 語を書いた後の、語 `w` のビット `j`。 -/
def upto (s : WriteSpec) (k w j : Nat) : Bool :=
  if s.base ≤ w ∧ w < s.base + k then ((s.old w).getLsbD j && s.bit w j) else (s.old w).getLsbD j

/-- 先頭から `k` 番目の語を書いた後、語 `w` の DQ7 は、どのチップでも書いた値と同じである。 -/
def Visible (s : WriteSpec) (w k : Nat) : Prop :=
  ∀ i < s.env.part.cfg.chipInter,
    s.upto (k + 1) w (8 * s.env.part.cfg.deviceWidth * i + 7) = s.bit (s.base + k) (8 * s.env.part.cfg.deviceWidth * i + 7)

/-- 書く語のどれでも、状態を読む番地の DQ7 が書いた値と同じになる。 -/
def PollsVisible (s : WriteSpec) : Prop :=
  ∀ k, k * s.width < s.length → ¬s.Skips k → s.Visible ((s.offset &&& s.env.part.cfg.commandMask) / s.width) k

/-- 二つの書き込みは、同じ値を返し、同じ配列を残す。 -/
def Agrees (s : WriteSpec) (bus : AmdBus) (verify : Bool) (size : Int) : Prop :=
  ∃ x y, amdV2WordWrite s.env bus verify s.offset size s.stack = some x ∧ aCFIv2Write s.env bus verify s.offset size s.stack = some y ∧
    x.1.ret = y.1.ret ∧ ∀ w, ∀ j < 8 * s.width, (x.2.array w).getLsbD j = (y.2.array w).getLsbD j

end WriteSpec

end Imx6Bsp.Flash
