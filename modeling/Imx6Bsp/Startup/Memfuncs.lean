import Imx6Bsp.Startup.SdmaCopy

/-!
# 起動ライブラリの複写（`lib/memfuncs.c`、`lib/memmove.c`、`lib/memcpy.c`）

バイトと語の代入を、源の順に一つずつ行う。`startup_memory_map()` は番地をそのまま返す（`lib/arm/map_startup_mem.c`）。
`mdriver_check()` が呼ぶミニドライバと、`shdr->paddr_bias` を置くヘッダは、複写の範囲に触れないとする。
-/

namespace Imx6Bsp.Startup.Memfuncs

open Imx6Bsp.Lib

/-! ## `memcpy()` -/

/-- 語の複写を `words` 回。 -/
def copyWords : (words : Nat) → Mem → (d s : Nat) → Mem
  | 0, m, _, _ => m
  | words + 1, m, d, s => copyWords words (m.writeLE d 4 (m.readLE s 4)) (d + 4) (s + 4)

/-- `switch` の中の `do … while (--n > 0)`。初めの一巡は `enter` 語を写し、続く `rest` 巡は 16 語ずつ写す。 -/
def duff : (rest enter : Nat) → Mem → (d s : Nat) → Mem × Nat × Nat
  | 0, enter, m, d, s => (copyWords enter m d s, d + 4 * enter, s + 4 * enter)
  | rest + 1, enter, m, d, s => duff rest 16 (copyWords enter m d s) (d + 4 * enter) (s + 4 * enter)

/-- 残りのバイトの繰り返し。 -/
def copyBytes : (nbytes : Nat) → Mem → (dst src : Nat) → Mem
  | 0, m, _, _ => m
  | nbytes + 1, m, dst, src => copyBytes nbytes (Function.update m dst (m src)) (dst + 1) (src + 1)

/-- `memcpy()`。 -/
def memcpy (m : Mem) (dst src nbytes : Nat) : Mem :=
  if nbytes ≥ 4 ∧ src &&& 3 = 0 ∧ dst &&& 3 = 0 then
    let n := ((nbytes >>> 2) + 15) / 16
    -- `case 0` は 16 語の初めに入る
    let enter := if (nbytes >>> 2) % 16 = 0 then 16 else (nbytes >>> 2) % 16
    let r := duff (n - 1) enter m dst src
    copyBytes (nbytes &&& 3) r.1 r.2.1 r.2.2
  else copyBytes nbytes m dst src

/-! ## `memmove()` -/

/-- 後ろからの繰り返し。 -/
def copyBack : (len : Nat) → Mem → (d s : Nat) → Mem
  | 0, m, _, _ => m
  | len + 1, m, d, s => copyBack len (Function.update m (d + len) (m (s + len))) d s

/-- `memmove()`。番地の和は 32 ビットで回る。 -/
def memmove (m : Mem) (dest src len : Nat) : Mem :=
  if src < dest ∧ wrap32 (src + len) > dest then copyBack len m dest src else memcpy m dest src len

/-! ## `copy_memory()` -/

/-- `MAKE_1TO1_PTR(p)`。 -/
def make1to1Ptr (bias p : Nat) : Nat := wrap32 (p + bias)

/-- `copy_memory()` の繰り返し。`none` は、`fuel` 回では終わらないことを表す。 -/
def copyMemoryLoop (bias max : Nat) : (fuel : Nat) → Mem → (dst src len : Nat) → Option Mem
  | 0, _, _, _, _ => none
  | fuel + 1, m, dst, src, len =>
      let amount := if len > max then max else len
      let m := memmove m (make1to1Ptr bias dst) src amount
      let len := len - amount
      if len = 0 then some m else copyMemoryLoop bias max fuel m (wrap32 (dst + amount)) (wrap32 (src + amount)) len

/-- `copy_memory()`。`drivers` は `lsp.mdriver.size`、`mdriverMax` は `mdriver_max`、`bias` は `shdr->paddr_bias` である。 -/
def copyMemory (drivers mdriverMax bias : Nat) (m : Mem) (dst src len : Nat) : Option Mem :=
  copyMemoryLoop bias (if drivers > 0 then mdriverMax else len) (len + 1) m dst src len

/-! ## 仕様 -/

/-- `m'` は、`m` の `src` からの `len` バイトを、重なりによらず `dst` に写した記憶域である。 -/
structure Moved (m m' : Mem) (dst src len : Nat) : Prop where
  copied : ∀ i < len, m' (dst + i) = m (src + i)
  frame : ∀ x, x < dst ∨ dst + len ≤ x → m' x = m x

/-- 複写元より `δ` だけ後ろに写すとき、`j` 番目のバイトの複写元は、先の区切りで書き換わっている。 -/
def Overwritten (max δ j : Nat) : Prop := δ ≤ j ∧ j % max < δ

instance (max δ j : Nat) : Decidable (Overwritten max δ j) := inferInstanceAs (Decidable (_ ∧ _))

/-- 書き換わった複写元は、もとのバイトとたまたま等しい。 -/
def Repeats (max δ : Nat) (m : Mem) (src len : Nat) : Prop := ∀ j < len, Overwritten max δ j → m (src + (j - δ)) = m (src + j)

end Imx6Bsp.Startup.Memfuncs
