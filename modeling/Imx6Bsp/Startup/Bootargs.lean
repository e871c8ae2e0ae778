import Imx6Bsp.Lib.CString
import Mathlib

/-!
# 起動引数の書き換え（`bootstrap_cmdline.c`）

`struct bootargs_entry` は、大きさ 2 バイト、引数と環境変数の数 1 バイトずつ、`shdr_addr` 4 バイトの後に、引数と環境変数の
文字列を続けて置く。ARM の `char` は符号なしである。
-/

namespace Imx6Bsp.Startup
open Imx6Bsp.Lib

/-! ## `struct bootargs_entry` の配置 -/

def argcOff : Nat := 2
def envcOff : Nat := 3
def argsOff : Nat := 8

/-- 文字列の長さを数える走査の上限。 -/
def stringMax : Nat := 2 ^ 32

/-! ## `do_adjust()` -/

/-- 最初の `while`。`start` 個の文字列を飛ばす。 -/
def skipStrings (m : Mem) : Nat → Nat → Option Nat
  | 0, p => some p
  | start + 1, p => do skipStrings m start (p + ((← m.strlen p stringMax) + 1))

/-- 二つ目の `while` とその後。書き換える場所と `sub_len` を返す。見つからなければ、中の値が `none` である。 -/
def findString (m : Mem) (old : Option CStr) : Nat → Nat → Option (Option (Nat × Nat))
  | 0, p => some (if old = none then some (p, 0) else none)
  | num + 1, p => do
      let subLen := (← m.strlen p stringMax) + 1
      if old.any fun s => m.strEq p s.1 then return some (p, subLen)
      findString m old num (p + subLen)

/-- `do_operation` での、数の増減。 -/
def adjustCount (m : Mem) (old new : Option CStr) (countp : Nat) : Mem :=
  match new with
  | none => Function.update m countp (m countp - 1)
  | some _ => if old = none then Function.update m countp (m countp + 1) else m

/-- `do_operation` より後。`&bap->args[total_len - offsetof(struct bootargs_entry, args)]` は `bap + total_len` である。 -/
def doOperation (m : Mem) (bap : Nat) (old new : Option CStr) (countp p subLen : Nat) : Mem :=
  let m₁ := adjustCount m old new countp
  let bytes := (new.map CStr.bytes).getD []
  let addLen := bytes.length
  let totalLen := (m₁ bap).toNat + (m₁ (bap + 1)).toNat <<< 8
  let diff : Int := addLen - subLen
  let src : Int := p - diff
  let m₂ : Mem := m₁.moveFrom p src (((bap + totalLen : Nat) - src) % 2 ^ 32).toNat
  let m₃ : Mem := m₂.copy p bytes
  let newLen := ((totalLen + diff) % 2 ^ 32).toNat
  Function.update (Function.update m₃ bap (UInt8.ofNat (newLen &&& 0xff))) (bap + 1) (UInt8.ofNat (newLen >>> 8))

/-- `do_adjust()`。返す真偽は、書き換えたことを表す。 -/
def doAdjust (m : Mem) (bap : Nat) (old new : Option CStr) (start countp : Nat) : Option (Mem × Bool) := do
  let num := (m countp).toNat
  let p ← skipStrings m start (bap + argsOff)
  match ← findString m old num p with
  | none => return (m, false)
  | some (p, subLen) => return (doOperation m bap old new countp p subLen, true)

def bootstrapArgAdjust (m : Mem) (bap : Nat) (old new : Option CStr) : Option (Mem × Bool) :=
  doAdjust m bap old new 0 (bap + argcOff)

def bootstrapEnvAdjust (m : Mem) (bap : Nat) (old new : Option CStr) : Option (Mem × Bool) :=
  doAdjust m bap old new (m (bap + argcOff)).toNat (bap + envcOff)

/-! ## 列の書き換え -/

/-- 最初の `old` を `new` の要素で入れ替える。`old` がなければ `none` である。 -/
def replaceFirst (old : CStr) (new : List CStr) : List CStr → Option (List CStr)
  | [] => none
  | s :: l => if s = old then some (new ++ l) else (replaceFirst old new l).map (s :: ·)

/-- 呼び出しが表す、文字列の列の書き換え。 -/
def edit (old new : Option CStr) (l : List CStr) : Option (List CStr) :=
  match old with
  | some s => replaceFirst s new.toList l
  | none => some (l ++ new.toList)

/-- 文字列の部分の長さ。 -/
def blockSize (args envs : List CStr) (rest : List UInt8) : Nat :=
  argsOff + (CStr.encode args ++ (CStr.encode envs ++ rest)).length

/-- 番地 `bap` の起動引数が、引数 `args`、環境変数 `envs`、その後の `rest` を表す。 -/
structure Bootargs (m : Mem) (bap : Nat) (args envs : List CStr) (rest : List UInt8) : Prop where
  size : (m bap).toNat + (m (bap + 1)).toNat <<< 8 = blockSize args envs rest
  argc : (m (bap + argcOff)).toNat = args.length
  envc : (m (bap + envcOff)).toNat = envs.length
  strings : m.slice (bap + argsOff) (CStr.encode args ++ (CStr.encode envs ++ rest)).length
    = CStr.encode args ++ (CStr.encode envs ++ rest)

/-- 書き換えた後の列が、数と大きさの欄に収まる。 -/
structure ArgsFit (args envs : List CStr) (rest : List UInt8) : Prop where
  argc : args.length < 256
  envc : envs.length < 256
  size : blockSize args envs rest < 65536

/-! ## 起動時の option の走査（`startup/lib/getopt.c`）

`getopt` は位置を静的な変数に持つ。`cp` は語の残りの文字列、`optind` は語の番号で、`last_optind` と `optind` が違えば
次の呼び出しで語を読み直す。文字列は終端を除いた文字の列である。 -/

abbrev Word := List Char

/-- `optind` と静的な変数、および `optarg`。 -/
structure GetoptState where
  optind : Nat
  lastOptind : Nat
  cp : Word
  optarg : Word
deriving DecidableEq

end Imx6Bsp.Startup
