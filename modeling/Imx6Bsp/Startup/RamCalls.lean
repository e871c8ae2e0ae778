import Imx6Bsp.Lib.Runs
import Imx6Bsp.Startup.Lemmas.RamList

/-!
# 割り当ての呼び出しの列

`ram.c` の関数の呼び出しを `RamCall` に、一回の呼び出しの記録を `RamEvent` に表す。記録は新しいものが先頭に来る。
実行は `ws_init()` を終えた状態から始まる。
-/

namespace Imx6Bsp.Startup

open Imx6Bsp.Lib

inductive RamCall
  | addRam (start size : Nat)
  | avoidRam (start size : Nat)
  | wsAlloc (size : Nat)
  | watchAddRam (func : Nat)
  | allocRam (addr size align : Nat)
  | callocRam (size align : Nat)
  | reserveRam (size align pagesize : Nat)
deriving DecidableEq, Repr

/-- 呼び出しの記録。`avoided` は `avoid_ram()` に渡された範囲、`block` は渡したブロックである。 -/
inductive RamEvent
  | added (start size : Nat)
  | avoided (start size : Nat)
  | block (start size : Nat)
deriving DecidableEq, Repr

/-- `ws_alloc()` の記録。ブロックは頼まれた大きさ、避ける範囲は切り上げた大きさである。 -/
def wsEvents (s : Ram) (size : Nat) : List RamEvent :=
  match wsPlace s (round size 8) with
  | none => []
  | some paddr => [.avoided paddr (round size 8), .block paddr size]

def blockEvents (addr size : Nat) : List RamEvent :=
  if addr = nullPaddr then [] else [.block addr size]

/-- 一回の呼び出し。 -/
def runCall (hdr : StartupHeader) (s : Ram) : RamCall → Except Crash (Ram × List RamEvent)
  | .addRam start size => do
      let (s', temp) ← addRam hdr s start size
      return (s', temp.toList.map (RamEvent.avoided · tempSyspageSize) ++ [.added start size])
  | .avoidRam start size => return (avoidRam s start size, [.avoided start size])
  | .wsAlloc size => return ((wsAlloc s size).1, wsEvents s size)
  | .watchAddRam func => do
      let s' ← watchAddRam s func
      return (s', wsEvents s 8)
  | .allocRam addr size align => do
      let (s', a) ← allocRam s addr size align
      return (s', blockEvents a size)
  | .callocRam size align => do
      let (s', _, a) ← callocRam s (fun _ => 0) size align
      return (s', blockEvents a size)
  | .reserveRam size align pagesize => do
      let (s', a) ← reserveRam s size align pagesize
      return (s', a.toList.map (RamEvent.block · size))

/-- 割り当ての状態と、それまでの記録。 -/
structure RamTrace where
  ram : Ram
  log : List RamEvent
deriving DecidableEq, Repr

def RamTrace.step (hdr : StartupHeader) (t : RamTrace) (c : RamCall) : Except Crash RamTrace := do
  let (s, events) ← runCall hdr t.ram c
  return ⟨s, events ++ t.log⟩

/-- `ws_init()` を終えた状態。 -/
def RamTrace.init (hdr : StartupHeader) : RamTrace :=
  ⟨wsInit hdr, (wsInit hdr).avoidList.map (fun a => .avoided a.start (a.stop - a.start))⟩

/-! ## 記録の読み方 -/

/-- 加えられた RAM の番地の集合。 -/
def addedSet (log : List RamEvent) : Set Nat :=
  {x | ∃ start size, .added start size ∈ log ∧ x ∈ Set.Ico start (start + size)}

/-- 起動イメージ `[shdr->ram_paddr, +ram_size)`。 -/
def StartupHeader.image (hdr : StartupHeader) : Set Nat := Set.Ico hdr.ramPaddr (hdr.ramPaddr + hdr.ramSize)

/-- 渡したブロックが、加えられた RAM に収まり、イメージ、避ける範囲、渡し済みのブロックのどれとも重ならない。 -/
structure BlockSound (hdr : StartupHeader) (log : List RamEvent) (block : Set Nat) : Prop where
  added : block ⊆ addedSet log
  image : Disjoint block hdr.image
  avoided : ∀ start size, .avoided start size ∈ log → Disjoint block (Set.Ico start (start + size))
  blocks : ∀ start size, .block start size ∈ log → Disjoint block (Set.Ico start (start + size))

/-- 記録のどのブロックも、渡した時点で正しい。 -/
def Sound (hdr : StartupHeader) : List RamEvent → Prop
  | [] => True
  | .block start size :: log => BlockSound hdr log (Set.Ico start (start + size)) ∧ Sound hdr log
  | _ :: log => Sound hdr log

end Imx6Bsp.Startup
