import Imx6Bsp.Startup.Bootargs
import Imx6Bsp.Startup.RestoreIfs

/-!
# 二つ目の IFS の option（`startup/lib/common_options.c` の `'i'`）

文字列の中を指すポインタは、そこから終端までの文字の列で表す。終端は空の列で、その先は `past` である。`NULL` か `past` を読めば失敗する。
-/

namespace Imx6Bsp.Startup

/-! ## ポインタ -/

inductive CharPtr
  | null
  | ref (s : Word)
  | past
deriving DecidableEq

/-- `NULL` の参照と、終端の先の読み出し。 -/
inductive PtrFault
  | null
  | outside
deriving DecidableEq

def CharPtr.succ : CharPtr → CharPtr
  | .null => .null
  | .ref [] => .past
  | .ref (_ :: s) => .ref s
  | .past => .past

/-- `*p`。 -/
def CharPtr.deref : CharPtr → Except PtrFault Char
  | .null => .error .null
  | .ref [] => .ok '\x00'
  | .ref (c :: _) => .ok c
  | .past => .error .outside

/-- `c` から始まる、最も長い後部。 -/
def findChar (c : Char) : Word → Option Word
  | [] => none
  | d :: s => if d = c then some (d :: s) else findChar c s

/-- `strchr()`。 -/
def strchr (p : CharPtr) (c : Char) : Except PtrFault CharPtr :=
  match p with
  | .null => .error .null
  | .ref s => .ok (match findChar c s with | some t => .ref t | none => .null)
  | .past => .error .outside

/-! ## `strtoul.c` -/

/-- `radix_value()`。 -/
def radixValue (c : Char) : Nat :=
  if '0' ≤ c ∧ c ≤ '9' then c.toNat - '0'.toNat
  else if 'a' ≤ c ∧ c ≤ 'f' then c.toNat - 'a'.toNat + 10
  else if 'A' ≤ c ∧ c ≤ 'F' then c.toNat - 'A'.toNat + 10
  else 37

/-- `hexstr()`。 -/
def hexstr (p : CharPtr) : Except PtrFault Bool := do
  if (← p.deref) = '0' then
    let c ← p.succ.deref
    return c = 'x' || c = 'X'
  else return false

/-- `strtopaddr()` の繰り返し。終端の `radix_value()` は 37 である。 -/
def scanDigits (base : Nat) : Word → Nat → Nat × Word
  | [], value => (value, [])
  | c :: s, value => if base ≤ radixValue c then (value, c :: s) else scanDigits base s (value * base + radixValue c)

/-- `strtoul(nptr, &endptr, 0)`。`paddr_t` が 32 ビットでも 64 ビットでも、下位の 32 ビットは同じである。 -/
def strtoul (nptr : CharPtr) : Except PtrFault (Nat × CharPtr) := do
  let hex ← hexstr nptr
  let c ← nptr.deref
  let base := if hex then 16 else if c = '0' then 8 else 10
  match if hex then nptr.succ.succ else nptr with
  | .null => throw .null
  | .past => throw .outside
  | .ref startp =>
      let r := scanDigits base startp 0
      return (wrap32 r.1, if r.2.length = startp.length then nptr else .ref r.2)

/-! ## `handle_common_option('i')` -/

/-- `RIFS_FLAG_IFS2`。 -/
def rifsFlagIfs2 : Nat := 0x04

/-- `R` と `K` を読むところ。 -/
def ifs2Flags (g : Ifs2) (cp : CharPtr) : Except PtrFault (Ifs2 × CharPtr) := do
  let c ← cp.succ.deref
  let (g, cp) := if c = 'R' then ({ g with flag := g.flag ||| rifsFlagIfs2Restore }, cp.succ) else (g, cp)
  let c ← cp.succ.deref
  return if c = 'K' then ({ g with flag := g.flag ||| rifsFlagIfs2Restore ||| rifsFlagIfs2Cksum }, cp.succ) else (g, cp)

/-- `src` を読むところ。 -/
def ifs2Src (g : Ifs2) (cp : CharPtr) : Except PtrFault (Ifs2 × CharPtr) := do
  let cp ← strchr cp ','
  if cp = .null then return (g, cp)
  else
    let r ← strtoul cp.succ
    return ({ g with flag := g.flag ||| rifsFlagIfs2Src, src := r.1 }, r.2)

/-- `dst` を読むところ。 -/
def ifs2Dst (g : Ifs2) (cp : CharPtr) : Except PtrFault Ifs2 := do
  let cp ← strchr cp ','
  if cp = .null then return g
  else
    let r ← strtoul cp.succ
    return { g with flag := g.flag ||| rifsFlagIfs2Dst, dst := 0xFFFFF000 &&& r.1 }

/-- 二つの番地を読むところ。 -/
def ifs2Addresses (g : Ifs2) (cp : CharPtr) : Except PtrFault Ifs2 := do
  let (g, cp) ← ifs2Src g cp
  ifs2Dst g cp

/-- `handle_common_option('i')`。 -/
def handleIfs2Option (g : Ifs2) (optarg : CharPtr) : Except PtrFault Ifs2 := do
  let g := { g with flag := g.flag ||| rifsFlagIfs2 }
  let (size, optarg) ← strtoul optarg
  let g := { g with size }
  let cp ← strchr optarg ','
  let (g, cp) ← if cp ≠ .null then ifs2Flags g cp else pure (g, cp)
  ifs2Addresses g cp

/-! ## 文法 -/

/-- `ds` を `base` 進で読んだ値。 -/
def numeralValue (base : Nat) (ds : Word) : Nat := Nat.ofDigits base (ds.reverse.map radixValue)

/-- 数の書き方。8 進は 0、16 進は 0x か 0X で始まる。 -/
inductive IsNumeral : Word → Nat → Prop
  | decimal (c : Char) (ds : Word) (hc : c ≠ '0') (h : ∀ d ∈ c :: ds, radixValue d < 10) : IsNumeral (c :: ds) (numeralValue 10 (c :: ds))
  | octal (ds : Word) (h : ∀ d ∈ ds, radixValue d < 8) : IsNumeral ('0' :: ds) (numeralValue 8 ds)
  | hex (x : Char) (ds : Word) (hx : x = 'x' ∨ x = 'X') (hds : ds ≠ []) (h : ∀ d ∈ ds, radixValue d < 16) :
      IsNumeral ('0' :: x :: ds) (numeralValue 16 ds)

/-- 32 ビットに収まる数。 -/
structure Numeral where
  text : Word
  value : Nat
  reads : IsNumeral text value
  fits : value < 2 ^ 32

/-- `flags` の三つの書き方。 -/
inductive Ifs2Letters
  | r
  | rk
  | k
deriving DecidableEq

def Ifs2Letters.text : Ifs2Letters → Word
  | .r => ['R']
  | .rk => ['R', 'K']
  | .k => ['K']

def Ifs2Letters.bits : Ifs2Letters → Nat
  | .r => rifsFlagIfs2Restore
  | .rk => rifsFlagIfs2Restore ||| rifsFlagIfs2Cksum
  | .k => rifsFlagIfs2Restore ||| rifsFlagIfs2Cksum

/-- `,src[,dst]`。 -/
structure Ifs2Addresses where
  src : Numeral
  dst : Option Numeral

def Ifs2Addresses.text (a : Ifs2Addresses) : Word := ',' :: a.src.text ++ (a.dst.elim [] fun n => ',' :: n.text)

/-- `size[,flags][,src[,dst]]`。 -/
structure Ifs2Option where
  size : Numeral
  flags : Option Ifs2Letters
  addresses : Option Ifs2Addresses

def Ifs2Option.text (o : Ifs2Option) : Word :=
  o.size.text ++ ((o.flags.elim [] fun f => ',' :: f.text) ++ (o.addresses.elim [] Ifs2Addresses.text))

/-- option の表す変数の値。書かれていないものは変えない。 -/
def Ifs2Option.meaning (o : Ifs2Option) (g : Ifs2) : Ifs2 where
  flag := g.flag ||| rifsFlagIfs2 ||| (o.flags.elim 0 Ifs2Letters.bits) ||| (o.addresses.elim 0 fun _ => rifsFlagIfs2Src) |||
    ((o.addresses.bind Ifs2Addresses.dst).elim 0 fun _ => rifsFlagIfs2Dst)
  size := o.size.value
  src := o.addresses.elim g.src fun a => a.src.value
  dst := (o.addresses.bind Ifs2Addresses.dst).elim g.dst fun n => n.value / 4096 * 4096

/-- 失敗せずに終わり、文法に合う文字列なら、その表す値にする。 -/
def Ifs2OptionRight (g : Ifs2) (s : Word) : Prop :=
  ∃ g', handleIfs2Option g (.ref s) = .ok g' ∧ ∀ o : Ifs2Option, o.text = s → g' = o.meaning g

/-- 文字列に `,` があり、初めの `,` の次が `R` か `K` なら、その後にも `,` がある。 -/
def HasAddressComma (s : Word) : Prop :=
  ∃ before after, s = before ++ ',' :: after ∧ ',' ∉ before ∧ (after.head? = some 'R' ∨ after.head? = some 'K' → ',' ∈ after)

end Imx6Bsp.Startup
