import Imx6Bsp.Flash.Amd

/-!
# Intel の命令による書き込み（`flash/mtd-flash/intel/iCFI_v2write.c`）

`f3s_iCFI_v2write()` は、書き込みバッファと一語ずつの二つの方法で書く。チップは、命令の後は `INTEL_READ_ARRAY` まで状態レジスタを返す。
母線の語、ポインタ、`page()` とバッファは AMD の書き込みと同じである。
-/

namespace Imx6Bsp.Flash

/-! ## 一つのチップ -/

/-- チップの状態。書き込むデータは、語の番号と語の組である。 -/
inductive IntelMode
  | array
  | status
  | program
  | count
  | load (left : Nat) (data : List (Nat × BitVec 64))
  | confirm (data : List (Nat × BitVec 64))
  | busy (data : List (Nat × BitVec 64))
deriving DecidableEq, Repr

/-- `sequence` は、命令の順の誤りを表す SR.5 と SR.4 である。`INTEL_CLEAR_STATUS` まで消えない。 -/
structure IntelChip where
  mode : IntelMode := .array
  sequence : Bool := false
deriving DecidableEq, Repr

/-- 命令の順の誤り。 -/
def IntelChip.fail (c : IntelChip) : IntelChip := { c with mode := .status, sequence := true }

/-- 命令を待つチップに書かれた命令。 -/
def IntelChip.command (c : IntelChip) (cmd : Nat) : IntelChip :=
  if cmd = 0x40 ∨ cmd = 0x10 then { c with mode := .program }
  else if cmd = 0xE8 then { c with mode := .count }
  else if cmd = 0x70 then { c with mode := .status }
  else if cmd = 0xFF then { c with mode := .array }
  else if cmd = 0x50 then { c with sequence := false }
  else c

/-- 書き込みバッファへの一語。バッファの境を越えると誤りになる。 -/
def IntelChip.loadWord (p : AmdPart) (c : IntelChip) (left : Nat) (data : List (Nat × BitVec 64)) (addr : Nat) (word : BitVec 64) : IntelChip :=
  if ∀ d ∈ data, p.page (d.1 * p.cfg.busWidth) = p.page addr then
    if left = 1 then { c with mode := .confirm (data ++ [(addr / p.cfg.busWidth, word)]) }
    else { c with mode := .load (left - 1) (data ++ [(addr / p.cfg.busWidth, word)]) }
  else c.fail

/-- 番地 `addr` に語 `word` が書かれた。語の数は、書き込みバッファに入らなければならない。 -/
def IntelChip.write (p : AmdPart) (i addr : Nat) (word : BitVec 64) (c : IntelChip) : IntelChip :=
  let cmd := p.cfg.lane word i % 256
  match c.mode with
  | .array => c.command cmd
  | .status => c.command cmd
  | .program => { c with mode := .busy [(addr / p.cfg.busWidth, word)] }
  | .count =>
      if (p.cfg.lane word i + 1) * p.cfg.busWidth ≤ p.bufferSize then { c with mode := .load (p.cfg.lane word i + 1) [] } else c.fail
  | .load left data => c.loadWord p left data addr word
  | .confirm data => if cmd = 0xD0 then { c with mode := .busy data } else c.fail
  | .busy _ => c

/-- 演算が終わった後の状態。 -/
def IntelChip.settle (c : IntelChip) : IntelChip :=
  match c.mode with
  | .busy _ => { c with mode := .status }
  | _ => c

/-- 演算の後、語 `w` の線 `j` が 0 にならない。 -/
def IntelMode.keeps (w j : Nat) : IntelMode → Bool
  | .busy data => decide (∀ d ∈ data, d.1 = w → d.2.getLsbD j = true)
  | _ => true

/-- 状態レジスタの線 `k`。`INTEL_WRITE_BUFFER` の後は、拡張状態レジスタの XSR.7 が見える。`done` は、演算が終わっていることを表す。 -/
def IntelChip.line (c : IntelChip) (done : Bool) (k : Nat) : Bool :=
  if k = 7 then
    match c.mode with
    | .busy _ => done
    | _ => true
  else if k = 5 ∨ k = 4 then c.sequence
  else false

/-! ## 母線 -/

/-- `chip` はチップごとの状態、`array` は語ごとの中身である。 -/
structure IntelBus where
  chip : Nat → IntelChip
  array : Nat → BitVec 64

/-- `writemem()`。 -/
def IntelBus.write (p : AmdPart) (b : IntelBus) (addr : Nat) (word : BitVec 64) : IntelBus :=
  { b with chip := fun i => (b.chip i).write p i addr word }

/-- `send_command()`。 -/
def IntelBus.send (p : AmdPart) (b : IntelBus) (addr command : Nat) : IntelBus := b.write p addr (p.cfg.command command)

/-- `readmem()`。 -/
def IntelBus.read (p : AmdPart) (b : IntelBus) (done : Nat → Bool) (addr : Nat) : BitVec 64 :=
  p.cfg.word fun i k =>
    if (b.chip i).mode = .array then p.cfg.bit (b.array (addr / p.cfg.busWidth)) i k else (b.chip i).line (done i) k

/-- メモリとして読んだ語。状態を返しているチップの線は 0 とする。 -/
def IntelBus.data (p : AmdPart) (b : IntelBus) (w : Nat) : BitVec 64 :=
  BitVec.ofFnLE fun j : Fin 64 => decide ((b.chip (j.val / (8 * p.cfg.deviceWidth))).mode = .array) && (b.array w).getLsbD j.val

/-- メモリとして読んだバイト。 -/
def IntelBus.byte (p : AmdPart) (b : IntelBus) (addr : Nat) : BitVec 8 :=
  (b.data p (addr / p.cfg.busWidth)).extractLsb' (8 * (addr % p.cfg.busWidth)) 8

/-- 演算がすべて終わった。 -/
def IntelBus.settle (p : AmdPart) (b : IntelBus) : IntelBus where
  chip i := (b.chip i).settle
  array w := BitVec.ofFnLE fun j : Fin 64 => (b.array w).getLsbD j.val && (b.chip (j.val / (8 * p.cfg.deviceWidth))).mode.keeps w j.val

/-! ## 状態の読み出し（`intel_poll.c`、`intel_read_status.c`） -/

/-- `F3S_I28F008_POLL`。 -/
def i28f008Poll : Nat := 0x10000000

/-- `intel_poll()`。`read t` は、`t` 番目の `readmem()` が返す語である。 -/
def intelPoll (c : FlashCfg) (read : Nat → BitVec 64) : Nat → Nat → Int
  | 0, _ => -1
  | poll + 1, t => if read t &&& c.mask 7 = c.mask 7 then 1 else intelPoll c read poll (t + 1)

/-- `intel_read_status()`。 -/
def intelReadStatus (c : FlashCfg) (status : BitVec 64) : Int :=
  if status &&& c.mask 3 ≠ 0 then -1
  else if status &&& c.mask 1 ≠ 0 then -1
  else if status &&& c.command 0x30 = c.command 0x30 then -1
  else if status &&& c.mask 4 ≠ 0 then -1
  else if status &&& c.mask 5 ≠ 0 then -1
  else 1

/-- `intel_poll()` の間に演算が終わる。`duration` は、チップごとの、終わるまでの読み出しの数である。 -/
def IntelBus.poll (p : AmdPart) (b : IntelBus) (duration : Nat → Nat) (addr : Nat) : Bool × IntelBus :=
  (intelPoll p.cfg (fun t => b.read p (fun i => decide (duration i ≤ t)) addr) i28f008Poll 0 ≠ -1, b.settle p)

/-- 書き込みバッファが空くまで、`INTEL_WRITE_BUFFER` を送る。 -/
def requestBuffer (p : AmdPart) (addr : Nat) : Nat → IntelBus → Bool × IntelBus
  | 0, b => (false, b.send p addr 0xE8)
  | poll + 1, b =>
      let b := b.send p addr 0xE8
      if b.read p (fun _ => true) addr &&& p.cfg.mask 7 = p.cfg.mask 7 then (poll ≠ 0, b) else requestBuffer p addr poll b

/-! ## 書き込み

`env` は書き込みの環境、`duration` は何番目かの演算の、チップごとの、終わるまでの読み出しの数である。 -/

/-- 局所変数と装置。`op` は、始めた演算の数である。 -/
structure IntelRegs where
  bus : IntelBus
  op : Nat := 0
  value : BitVec 64
  left : Int
  offset : Nat
  memory : Nat
  buffer : Int

/-- 一語進み、`n` バイトを読む。 -/
def IntelRegs.advance (env : AmdEnv) (r : IntelRegs) (n : Int) : IntelRegs :=
  let width := env.part.cfg.busWidth
  { r with
    buffer := r.buffer + width
    memory := r.memory + width
    value := copyIn r.value n.toNat fun j => env.buf (r.buffer + width + j) }

/-- `intel_poll()`。演算を一つ進める。 -/
def IntelRegs.poll (env : AmdEnv) (duration : Nat → Nat → Nat) (r : IntelRegs) : Bool × IntelRegs :=
  let x := r.bus.poll env.part (duration r.op) r.memory
  (x.1, { r with bus := x.2, op := r.op + 1 })

/-- `INTEL_READ_ARRAY`。 -/
def IntelRegs.readArray (env : AmdEnv) (r : IntelRegs) : IntelRegs := { r with bus := r.bus.send env.part r.memory 0xFF }

/-- バッファに `count` 語を送る。 -/
def intelBufferWords (env : AmdEnv) : Nat → IntelRegs → IntelRegs
  | 0, r => r
  | count + 1, r =>
      let r := { r with bus := r.bus.write env.part r.memory r.value }
      intelBufferWords env count (if count > 0 ∨ r.left ≥ (env.part.cfg.busWidth : Int) then r.advance env env.part.cfg.busWidth else r)

/-- 語の数とデータを送り、書き込みを始める。 -/
def intelBufferSend (env : AmdEnv) (r : IntelRegs) : IntelRegs :=
  let p := env.part
  let size := chunkSize p r.left r.offset
  let count := size / p.cfg.busWidth
  let bus := r.bus.write p r.memory (BitVec.ofInt 64 ((count : Int) - 1) * p.cfg.deviceMult)
  let r := intelBufferWords env count { r with bus, left := r.left - size, offset := r.offset + size }
  { r with bus := r.bus.send p r.memory 0xD0 }

/-- 一度のバッファの書き込み。 -/
def intelBufferChunk (env : AmdEnv) (duration : Nat → Nat → Nat) (r : IntelRegs) : Bool × IntelRegs :=
  let x := requestBuffer env.part r.memory i28f008Poll r.bus
  if x.1 then (intelBufferSend env { r with bus := x.2 }).poll env duration else (false, { r with bus := x.2 })

/-- 書き込みバッファのループと、残りの読み込み。 -/
def intelBufferLoop (env : AmdEnv) (duration : Nat → Nat → Nat) : Nat → IntelRegs → Option (Bool × IntelRegs)
  | 0, _ => none
  | fuel + 1, r =>
      if r.left ≥ env.part.cfg.busWidth then
        match intelBufferChunk env duration r with
        | (false, r) => some (false, r)
        | (true, r) => intelBufferLoop env duration fuel r
      else some (true, if r.left ≠ 0 then (r.advance env (min r.left env.part.cfg.busWidth)).readArray env else r)

/-- 一語を書き、終わるのを待つ。全てのビットが 1 なら書かない。 -/
def intelProgramWord (env : AmdEnv) (duration : Nat → Nat → Nat) (r : IntelRegs) : Bool × IntelRegs :=
  if r.value = BitVec.allOnes 64 then (true, r)
  else IntelRegs.poll env duration { r with bus := (r.bus.send env.part r.memory 0x40).write env.part r.memory r.value }

/-- 終わりの語を埋める。 -/
def intelPadTail (env : AmdEnv) (r : IntelRegs) : IntelRegs :=
  let p := env.part
  if r.left < p.cfg.busWidth then
    { r with value := padValue p.cfg r.value (r.bus.data p (r.memory / p.cfg.busWidth)) (8 * r.left.toNat) false }
  else r

/-- 次の語に進む。終わりの語の前には、配列を読めるようにする。 -/
def intelNext (env : AmdEnv) (r : IntelRegs) : IntelRegs :=
  if r.left > 0 then
    let r := r.advance env (min env.part.cfg.busWidth r.left)
    if r.left < env.part.cfg.busWidth then r.readArray env else r
  else r

/-- 残りのバイトのループ。 -/
def intelWordLoop (env : AmdEnv) (duration : Nat → Nat → Nat) : Nat → IntelRegs → Option (Bool × IntelRegs)
  | 0, _ => none
  | fuel + 1, r =>
      if r.left > 0 then
        match intelProgramWord env duration (intelPadTail env r) with
        | (false, r) => some (false, r)
        | (true, r) => intelWordLoop env duration fuel (intelNext env { r with left := r.left - env.part.cfg.busWidth })
      else some (true, r)

/-- `memcpy((void *)(pad + (char *)&value), buffer + pad, n - pad)`。 -/
def copyInFrom (value : BitVec 64) (pad n : Nat) (bytes : Nat → BitVec 8) : BitVec 64 :=
  BitVec.ofFnLE fun j : Fin 64 => if pad ≤ j.val / 8 then (copyIn value n bytes).getLsbD j.val else value.getLsbD j.val

/-- 頭を埋めるまで。`stack` は、初期化されない `value` の中身である。 -/
def intelStart (env : AmdEnv) (bus : IntelBus) (offset : Nat) (left : Int) (stack : BitVec 64) : IntelRegs :=
  let c := env.part.cfg
  let pad := offset &&& (c.busWidth - 1)
  let memory := offset - pad
  let value := copyInFrom stack pad (min (c.busWidth : Int) left).toNat fun j => env.buf (-pad + j)
  { bus, left, offset := memory, memory, buffer := -pad
    value := if pad ≠ 0 then padValue c value (bus.data env.part (memory / c.busWidth)) ((c.busWidth - pad) * 8) true else value }

/-- 書き込みバッファが使える。`writeBuffer` は `dbase->flags & F3S_WRITE_BUFFER` である。 -/
def UsesIntelBuffer (p : AmdPart) (writeBuffer : Bool) (left : Int) : Prop := writeBuffer = true ∧ left ≥ 4 * p.cfg.busWidth

instance decidableUsesIntelBuffer (p : AmdPart) (writeBuffer : Bool) (left : Int) : Decidable (UsesIntelBuffer p writeBuffer left) :=
  inferInstanceAs (Decidable (_ ∧ _))

/-- 書き込みのループ。 -/
def intelLoops (env : AmdEnv) (writeBuffer : Bool) (duration : Nat → Nat → Nat) (r : IntelRegs) : Option (Bool × IntelRegs) :=
  if UsesIntelBuffer env.part writeBuffer r.left then
    match intelBufferLoop env duration env.fuel r with
    | none => none
    | some (false, r) => some (false, r)
    | some (true, r) => intelWordLoop env duration env.fuel r
  else intelWordLoop env duration env.fuel r

/-- 書き込んだ後に読み返す。 -/
def intelVerifyBytes (env : AmdEnv) (r : IntelRegs) (size : Int) : Bool :=
  (List.range size.toNat).all fun k =>
    env.buf (r.buffer - size + r.left + env.part.cfg.busWidth + k) =
      r.bus.byte env.part (r.memory - size + r.left + env.part.cfg.busWidth + k).toNat

/-- 状態を調べ、配列を読めるようにし、確かめる。 -/
def intelFinish (env : AmdEnv) (verify : Bool) (size : Int) (r : IntelRegs) : WriteExit × IntelBus :=
  let p := env.part
  let r := { r with bus := r.bus.send p r.memory 0x70 }
  if intelReadStatus p.cfg (r.bus.read p (fun _ => true) r.memory) = -1 then (.programError, r.bus)
  else
    let r := r.readArray env
    if verify ∧ ¬intelVerifyBytes env r size then (.verifyError, r.bus) else (.done size, r.bus)

/-- `f3s_iCFI_v2write()`。`none` は、上限までに終わらないことを表す。 -/
def iCFIv2Write (env : AmdEnv) (writeBuffer : Bool) (duration : Nat → Nat → Nat) (bus : IntelBus) (verify : Bool) (offset : Nat) (size : Int)
    (stack : BitVec 64) : Option (WriteExit × IntelBus) :=
  let c := env.part.cfg
  let pad := offset &&& (c.busWidth - 1)
  match env.page (offset - pad) (size + pad) with
  | none => some (.noPage, bus)
  | some left =>
      match intelLoops env writeBuffer duration (intelStart env bus offset left stack) with
      | none => none
      | some (false, r) => some (.programError, r.bus)
      | some (true, r) => some (intelFinish env verify (left - pad) r)

namespace WriteSpec

/-- 語が一つも入らない書き込みバッファを使う。 -/
def Starves (s : WriteSpec) (writeBuffer : Bool) : Prop :=
  UsesIntelBuffer s.env.part writeBuffer s.length ∧ s.env.part.bufferSize < s.width

instance decidableStarves (s : WriteSpec) (writeBuffer : Bool) : Decidable (s.Starves writeBuffer) := inferInstanceAs (Decidable (_ ∧ _))

/-- `f3s_iCFI_v2write()` は、範囲のバイトを論理積にし、配列を読める状態で返る。 -/
def IntelExact (s : WriteSpec) (writeBuffer : Bool) (duration : Nat → Nat → Nat) (bus : IntelBus) (verify : Bool) (size : Int) : Prop :=
  ∃ bus', iCFIv2Write s.env writeBuffer duration bus verify s.offset size s.stack = some (s.exit verify, bus') ∧
    (∀ i < s.env.part.cfg.chipInter, (bus'.chip i).mode = .array) ∧ s.Written bus'.array

/-- `f3s_aCFI_v2write()` は、範囲のバイトを論理積にし、配列を読める状態で返る。 -/
def AmdExact (s : WriteSpec) (bus : AmdBus) (verify : Bool) (size : Int) : Prop :=
  ∃ bus', aCFIv2Write s.env bus verify s.offset size s.stack = some (s.exit verify, bus') ∧
    (∀ i < s.env.part.cfg.chipInter, bus'.mode i = .read) ∧ s.Written bus'.array

end WriteSpec

end Imx6Bsp.Flash
