import Imx6Bsp.Flash.Bus

/-!
# CFI の表の読み出し（`amd/aCFI_ident.c`、`intel/iCFI_ident.c`、`flash_probe.c`）

`flags` は 0 で呼ばれる。表示だけの処理と待ちは省く。
-/

namespace Imx6Bsp.Flash

/-! ## `f3s_dbase_t` -/

/-- `f3s_geo_t`。 -/
structure Geo where
  unitNum : BitVec 16
  unitPow2 : BitVec 16
deriving DecidableEq, Repr

/-- `f3s_dbase_t` の使う欄。`geoVect` の添字が 8 から先は、構造体の外を指す。 -/
structure Dbase where
  structSize : BitVec 16
  jedecHi : BitVec 16
  jedecLo : BitVec 16
  name : String
  flags : BitVec 32
  chipInter : BitVec 16
  chipWidth : BitVec 16
  bufferSize : BitVec 16
  geoNum : BitVec 16
  geoVect : Nat → Geo

/-- `dbase->geo_vect[i] = geo`。 -/
def Dbase.setGeo (d : Dbase) (i : Nat) (geo : Geo) : Dbase := { d with geoVect := fun j => if j = i then geo else d.geoVect j }

/-- `F3S_ERASE_FOR_READ`。 -/
def eraseForRead : BitVec 32 := 0x1#32

/-- `F3S_ERASE_FOR_WRITE`。 -/
def eraseForWrite : BitVec 32 := 0x2#32

/-- `F3S_WRITE_BUFFER`。 -/
def writeBuffer : BitVec 32 := 0x4#32

/-- `sizeof(f3s_dbase_t)`。 -/
def dbaseSize : BitVec 16 := 84#16

/-- `uint16_t` への代入。 -/
def u16 (n : Nat) : BitVec 16 := BitVec.ofNat 16 n

/-- `1 << n` の下位 32 ビット。 -/
def shl1 (n : Nat) : Nat := 2 ^ n % 2 ^ 32

/-- 領域の繰り返し。`geo` は表の番地から読む一つの領域、`n` は残りの数である。 -/
def geoLoop (geo : Nat → Geo) : (n geoIndex geoPos : Nat) → Dbase → Dbase
  | 0, _, _, d => d
  | n + 1, geoIndex, geoPos, d => geoLoop geo n (geoIndex + 1) (geoPos + 4) (d.setGeo geoIndex (geo geoPos))

/-! ## `f3s_aCFI_ident()` -/

/-- AMD の配列の読み出し。番地は頁の先頭からのバイト数で、`auto` は AutoSelect の、`query` は CFI の間に読める語である。 -/
structure AmdView where
  auto : Nat → BitVec 64
  query : Nat → BitVec 64

/-- `amd_mult`。 -/
def FlashCfg.amdMult (c : FlashCfg) : Nat := (if c.deviceWidth = 1 then 2 else 1) * c.busWidth

/-- `readmem(…) / flashcfg.device_mult`。 -/
def FlashCfg.perChip (c : FlashCfg) (word : BitVec 64) : Nat := word.toNat / c.deviceMult.toNat

/-- CFI の番地 `a` の値。 -/
def AmdView.read (v : AmdView) (c : FlashCfg) (a : Nat) : Nat := c.perChip (v.query (a * c.amdMult))

/-- `pri`。 -/
def AmdView.pri (v : AmdView) (c : FlashCfg) : Nat := v.read c 0x16 * 2 ^ 8 + v.read c 0x15

/-- 続く三つの番地の文字。 -/
def FlashCfg.Spells (c : FlashCfg) (query : Nat → BitVec 64) (mult a : Nat) (x y z : Char) : Prop :=
  query (a * mult) = c.command x.toNat ∧ query ((a + 1) * mult) = c.command y.toNat ∧ query ((a + 2) * mult) = c.command z.toNat

instance FlashCfg.decidableSpells (c : FlashCfg) (query : Nat → BitVec 64) (mult a : Nat) (x y z : Char) :
    Decidable (c.Spells query mult a x y z) := inferInstanceAs (Decidable (_ ∧ _ ∧ _))

/-- `ENOTSUP` にならない。 -/
def AmdView.Accepted (v : AmdView) (c : FlashCfg) : Prop :=
  v.auto 0 = c.command 0x01 ∧ c.Spells v.query c.amdMult 0x10 'Q' 'R' 'Y' ∧ c.Spells v.query c.amdMult (v.pri c) 'P' 'R' 'I'

instance AmdView.decidableAccepted (v : AmdView) (c : FlashCfg) : Decidable (v.Accepted c) := inferInstanceAs (Decidable (_ ∧ _ ∧ _))

/-- 2 の冪への換算。`unit_pow2` から数える。 -/
def halve : (fuel unitSize unitPow2 : Nat) → Nat
  | 0, _, unitPow2 => unitPow2
  | fuel + 1, unitSize, unitPow2 => if unitSize > 1 then halve fuel (unitSize / 2) (unitPow2 + 1) else unitPow2

/-- 一つの領域。 -/
def AmdView.geo (v : AmdView) (c : FlashCfg) (geoPos : Nat) : Geo :=
  let unitSize := v.read c (geoPos + 3) * 2 ^ 8 + v.read c (geoPos + 2)
  let unitSize := (if unitSize = 0 then 128 else unitSize * 256) * c.chipInter
  { unitNum := (u16 (v.read c (geoPos + 1)) <<< 8) + u16 (v.read c geoPos) + 1#16
    unitPow2 := u16 (halve 32 unitSize 0) }

/-- `flags` の設定。 -/
def amdFlags (temp : Nat) (flags : BitVec 32) : BitVec 32 :=
  if temp = 1 then flags ||| eraseForRead else if temp = 2 then flags ||| (eraseForRead ||| eraseForWrite) else 0#32

/-- `f3s_aCFI_ident()`。`none` は `ENOTSUP` である。 -/
def aCFIIdent (c : FlashCfg) (v : AmdView) (d : Dbase) : Option Dbase :=
  if v.Accepted c then
    let bufferSize := (u16 (v.read c 0x2b) <<< 8) + u16 (v.read c 0x2a)
    let d := { d with
      structSize := dbaseSize
      jedecHi := u16 (c.perChip (v.auto 0))
      jedecLo := u16 (c.perChip (v.auto c.busWidth))
      name := "CFI_MirrorBit"
      bufferSize := u16 (shl1 bufferSize.toNat) * u16 c.chipInter
      geoNum := u16 (v.read c 0x2c) }
    let d := geoLoop (v.geo c) d.geoNum.toNat 0 0x2d d
    some { d with
      flags := amdFlags (v.read c (v.pri c + 6)) d.flags
      chipInter := u16 c.chipInter
      chipWidth := u16 c.busWidth }
  else none

/-! ## `f3s_iCFI_ident()` -/

/-- `temp_mult`。 -/
def FlashCfg.tempMult (c : FlashCfg) : BitVec 64 :=
  if c.busWidth = 1 then 0x01#64 else if c.busWidth = 2 then 0x0101#64 else if c.busWidth = 4 then 0x01010101#64 else 0x0101010101010101#64

/-- `device_size`。 -/
def FlashCfg.deviceSize (c : FlashCfg) : BitVec 64 := if c.deviceWidth = 2 then 0xffff#64 else 0xff#64

/-- `flashcfg.cfi_width`。`none` は `ENOTSUP` である。 -/
def cfiWidth (c : FlashCfg) (query : Nat → BitVec 64) : Option Nat :=
  let bw := c.busWidth
  if query (0x20 * bw) = BitVec.ofNat 64 'Q'.toNat * c.tempMult ∧ query (0x50 * bw) = 0x02#64 * c.tempMult ∧ query (0x52 * bw) = 0x00#64 then
    some (bw * 2)
  else if query (0x10 * bw) = c.command 'Q'.toNat then
    if c.deviceWidth = 1 ∧ query (0x28 * bw) = 0x02#64 * c.tempMult ∧ query (0x29 * bw) = 0x00#64 then none else some bw
  else none

/-- 製造者の番号。 -/
def maker (query : Nat → BitVec 64) : BitVec 64 := query 0 &&& 0xff#64

/-- `ENOTSUP` にならない。`w` は `cfi_width` である。 -/
def IntelAccepted (c : FlashCfg) (query : Nat → BitVec 64) (w : Nat) : Prop :=
  (maker query = 0x89#64 ∨ maker query = 0xb0#64 ∨ maker query = 0x2c#64 ∨ maker query = 0x20#64) ∧ c.Spells query w 0x10 'Q' 'R' 'Y' ∧
    ¬ ((maker query = 0x20#64 ∨ maker query = 0x89#64) ∧ query (0x13 * w) = c.command 0x02)

instance decidableIntelAccepted (c : FlashCfg) (query : Nat → BitVec 64) (w : Nat) : Decidable (IntelAccepted c query w) :=
  inferInstanceAs (Decidable (_ ∧ _ ∧ _))

/-- `readmem(…) & device_size`。 -/
def FlashCfg.masked (c : FlashCfg) (word : BitVec 64) : Nat := (word &&& c.deviceSize).toNat

/-- 2 の冪への換算。 -/
def findPow2 (unitSize : Nat) : (fuel unitPow2 : Nat) → Nat
  | 0, unitPow2 => unitPow2
  | fuel + 1, unitPow2 => if shl1 unitPow2 ≠ unitSize ∧ unitPow2 < 32 then findPow2 unitSize fuel (unitPow2 + 1) else unitPow2

/-- 一つの領域。 -/
def intelGeo (c : FlashCfg) (query : Nat → BitVec 64) (w geoPos : Nat) : Geo :=
  let read a := c.masked (query (a * w))
  let unitSize := (read (geoPos + 2) + read (geoPos + 3) * 0x100) * 0x100 * c.chipInter % 2 ^ 32
  { unitNum := u16 (read geoPos + read (geoPos + 1) * 0x100 + 1)
    unitPow2 := u16 (findPow2 unitSize 32 1) }

/-- `f3s_iCFI_ident()`。`none` は `ENOTSUP` である。 -/
def iCFIIdent (c : FlashCfg) (query : Nat → BitVec 64) (d : Dbase) : Option Dbase :=
  match cfiWidth c query with
  | none => none
  | some w =>
      if IntelAccepted c query w then
        let read a := c.masked (query (a * w))
        let bufferSize := u16 (shl1 (read 0x2a + read 0x2b * 100)) * u16 c.chipInter
        let geoNum := read 0x2c
        let d := geoLoop (intelGeo c query w) (geoNum - d.geoNum.toNat) d.geoNum.toNat 0x2d { d with
          structSize := dbaseSize
          jedecHi := u16 (c.masked (query 0))
          jedecLo := u16 (c.masked (query c.busWidth))
          name := "CFI"
          bufferSize }
        some { d with
          geoNum := d.geoNum + u16 geoNum
          chipInter := u16 c.chipInter
          chipWidth := u16 c.busWidth
          flags := if bufferSize = 1#16 then eraseForRead ||| eraseForWrite else eraseForRead ||| eraseForWrite ||| writeBuffer }
      else none

/-! ## `f3s_flash_probe()` -/

/-- 続くチップの `ident()`。どれも同じ `dummy_dbase` に書き、失敗すると終わる。呼び出しの前後の組を並べる。 -/
def probeFurther {View : Type} (ident : View → Dbase → Option Dbase) : Dbase → List View → List (Dbase × Dbase)
  | _, [] => []
  | dummy, v :: views =>
      match ident v dummy with
      | none => []
      | some d => (dummy, d) :: probeFurther ident d views

/-- 初めのチップの `ident()` と、続くチップの `ident()`。`dummy` は、初期化されない `dummy_dbase` の中身である。 -/
def probeIdents {View : Type} (ident : View → Dbase → Option Dbase) (dbase dummy : Dbase) (first : View) (further : List View) :
    List (Dbase × Dbase) :=
  match ident first { dbase with geoNum := 0#16 } with
  | none => []
  | some d => ({ dbase with geoNum := 0#16 }, d) :: probeFurther ident dummy further

/-! ## 仕様 -/

/-- CFI の表。 -/
structure CfiTable where
  byte : Nat → BitVec 8

namespace CfiTable

/-- 二バイトの欄。 -/
def half (t : CfiTable) (a : Nat) : Nat := (t.byte a).toNat + 256 * (t.byte (a + 1)).toNat

/-- 領域の数。 -/
def regions (t : CfiTable) : Nat := (t.byte 0x2c).toNat

/-- 書き込みバッファの指数。 -/
def bufferExp (t : CfiTable) : Nat := t.half 0x2a

/-- 領域 `i` の単位の数から 1 を引いたもの。 -/
def y (t : CfiTable) (i : Nat) : Nat := t.half (0x2d + 4 * i)

/-- 領域 `i` の単位の大きさの欄。 -/
def z (t : CfiTable) (i : Nat) : Nat := t.half (0x2d + 4 * i + 2)

/-- 領域 `i` の単位の、一つのチップでのバイト数。 -/
def unit (t : CfiTable) (i : Nat) : Nat := if t.z i = 0 then 128 else 256 * t.z i

/-- 一つのチップのバイト数。 -/
def chipSize (t : CfiTable) : Nat := ((List.range t.regions).map fun i => (t.y i + 1) * t.unit i).sum

/-- 領域は 1 から 4 個で、どの大きさも 2 の冪であり、書き込みバッファの大きさが欄に収まる。 -/
structure Valid (t : CfiTable) (c : FlashCfg) : Prop where
  pos : 0 < t.regions
  le : t.regions ≤ 4
  pow : ∀ i < t.regions, t.z i = 0 ∨ ∃ k, t.z i = 2 ^ k
  buffer : 2 ^ t.bufferExp * c.chipInter < 2 ^ 16

end CfiTable

/-- 書き込みバッファと領域の欄の番地。 -/
def IsGeometry (a : Nat) : Prop := 0x2a ≤ a ∧ a ≤ 0x3c

instance decidableIsGeometry (a : Nat) : Decidable (IsGeometry a) := inferInstanceAs (Decidable (_ ∧ _))

/-- 同じ大きさの欄を持つ配列。AMD の命令で読んだものと、Intel の命令で読んだものである。 -/
structure CfiChip (c : FlashCfg) where
  table : CfiTable
  amd : AmdView
  intel : Nat → BitVec 64
  width : Nat
  valid : table.Valid c
  amdAccepted : amd.Accepted c
  amdShows : ∀ a, IsGeometry a → amd.query (a * c.amdMult) = c.command (table.byte a).toNat
  intelWidth : cfiWidth c intel = some width
  intelAccepted : IntelAccepted c intel width
  intelShows : ∀ a, IsGeometry a → intel (a * width) = c.command (table.byte a).toNat

/-- 表のとおりの領域が `before` の上に書かれた。 -/
structure Decoded (c : FlashCfg) (t : CfiTable) (before after : Dbase) : Prop where
  num : after.geoNum.toNat = t.regions
  units : ∀ i < t.regions, (after.geoVect i).unitNum.toNat = t.y i + 1
  sizes : ∀ i < t.regions, 2 ^ (after.geoVect i).unitPow2.toNat = t.unit i * c.chipInter
  buffer : after.bufferSize.toNat = 2 ^ t.bufferExp * c.chipInter
  outside : ∀ i ≥ 8, after.geoVect i = before.geoVect i
  total : ((List.range after.geoNum.toNat).map fun i => (after.geoVect i).unitNum.toNat * 2 ^ (after.geoVect i).unitPow2.toNat).sum =
    t.chipSize * c.chipInter

/-- 呼び出しの結果が、順に表のとおりである。 -/
inductive AllDecoded (c : FlashCfg) : List CfiTable → List (Dbase × Dbase) → Prop
  | nil : AllDecoded c [] []
  | cons {t ts before after rest} : Decoded c t before after → AllDecoded c ts rest → AllDecoded c (t :: ts) ((before, after) :: rest)

/-- `f3s_flash_probe()` の、AMD と Intel のどちらの呼び出しも、どのチップの表も正しく読む。 -/
structure ProbeDecodes (c : FlashCfg) (dbase dummy : Dbase) (first : CfiChip c) (further : List (CfiChip c)) : Prop where
  amd : AllDecoded c ((first :: further).map (·.table)) (probeIdents (aCFIIdent c) dbase dummy first.amd (further.map (·.amd)))
  intel : AllDecoded c ((first :: further).map (·.table)) (probeIdents (iCFIIdent c) dbase dummy first.intel (further.map (·.intel)))

/-- どの領域の単位の数も欄に収まり、128 バイトの単位がない。 -/
def CfiTable.Plain (t : CfiTable) : Prop := ∀ i < t.regions, t.y i + 1 < 2 ^ 16 ∧ t.z i ≠ 0

/-- 続くチップは高々一つで、そのときの `dummy_dbase` の `geo_num` は 0 である。 -/
def DummyClean {Chip : Type} (dummy : Dbase) : List Chip → Prop
  | [] => True
  | [_] => dummy.geoNum = 0#16
  | _ => False

end Imx6Bsp.Flash
