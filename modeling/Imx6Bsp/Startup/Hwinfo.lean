import Imx6Bsp.Lib.Packing
import Imx6Bsp.Startup.Strings

/-!
# ハードウェア情報の節（`hwi_alloc.c`）

`lsp.hwinfo` は、大きさを 4 バイト単位で持つ札の列で、大きさ 0 の札で終わる。札の先頭は `struct hwi_prefix`（`hw/sysinfo.h`）で、
項目の札には `struct hwi_item` の欄が続く。欄はすべて 16 ビットである。`hwi_off2tag()` は C ライブラリの関数なので、働きを仮定として
引数に取る。
-/

namespace Imx6Bsp.Startup

open Imx6Bsp.Lib

/-- `HWI_NULL_OFF`。 -/
def hwiNullOff : Nat := 0xffff

/-- `sizeof(struct hwi_item)`。 -/
def hwiItemSize : Nat := 12

/-- `HWI_TAG_NAME_pad`。 -/
def padName : List UInt8 := [0x70, 0x61, 0x64]

/-- `hwi_off2tag()`。節の先頭からのバイト数を番地にする。 -/
structure HwiLib where
  off2tag : Nat → Nat → Nat
  off2tag_eq : ∀ base off, off2tag base off = base + off

/-- 16 ビットの欄に加える。 -/
def addField (m : Mem) (a v : Nat) : Mem := m.writeLE a 2 (m.readLE a 2 + v)

/-- `lsp` と、静的変数 `offset` と `last_item`。 -/
structure HwiState where
  sp : Syspage
  offset : Nat := 0
  lastItem : Nat := 0

/-- `hwi_alloc_tag()` の、位置合わせの後。返す番号は札の位置である。 -/
def putTag (fmt : SyspageFormat) (st : HwiState) (name : List UInt8) (size : Nat) : Except StringFault (HwiState × Nat) := do
  let (sp, nameOff) ← addString fmt st.sp name
  let sp ← (growSyspageSection fmt sp .hwinfo size).mapError .crash
  let p := sp.p .hwinfo
  let mem := addField sp.mem (p + (st.lastItem + 4)) (size / 4)
  let mem := mem.writeLE (p + st.offset) 2 (size / 4)
  let mem := mem.writeLE (p + (st.offset + 2)) 2 nameOff
  return ({ sp := { sp with mem }, offset := wrap32 (st.offset + size), lastItem := st.lastItem }, st.offset)

/-- `align_tag()`。足りなければ `pad` の札を一つ置く。`pad` の位置合わせは 4 なので、`offset` が 4 の倍数なら入れ子にならない。
4 の倍数でなければ再帰は終わらない。 -/
def alignTag (fmt : SyspageFormat) (st : HwiState) (align : Nat) : Except StringFault HwiState :=
  if wrap32 (round st.offset align + (2 ^ 32 - st.offset)) ≠ 0 then
    if wrap32 (round st.offset 4 + (2 ^ 32 - st.offset)) ≠ 0 then .error .outside
    else (putTag fmt st padName 4).map Prod.fst
  else .ok st

/-- `hwi_alloc_tag()`。 -/
def hwiAllocTag (fmt : SyspageFormat) (st : HwiState) (name : List UInt8) (size align : Nat) :
    Except StringFault (HwiState × Nat) := do
  let st ← alignTag fmt st align
  putTag fmt st name size

/-- `hwi_alloc_item()`。返す番号は札の位置である。 -/
def hwiAllocItem (lib : HwiLib) (fmt : SyspageFormat) (st : HwiState) (name : List UInt8) (size align : Nat)
    (itemname : List UInt8) (owner : Nat) : Except StringFault (HwiState × Nat) := do
  let (sp, savedIn) ← addString fmt st.sp itemname
  let st ← alignTag fmt { st with sp } align
  let (st, tag) ← hwiAllocTag fmt { st with lastItem := st.offset } name size align
  let p := st.sp.p .hwinfo
  let mem := st.sp.mem.writeLE (p + (tag + 6)) 2 savedIn
  let mem := mem.writeLE (p + (tag + 8)) 2 owner
  let mem := if owner ≠ hwiNullOff then addField mem (lib.off2tag p owner + 10) 1 else mem
  return ({ st with sp := { st.sp with mem } }, tag)

/-- `hwi_grow_tag()`。最後の `offset += size` は引数を進めるだけで、静的変数 `offset` は変わらない。 -/
def hwiGrowTag (fmt : SyspageFormat) (st : HwiState) (off size : Nat) : Except StringFault HwiState := do
  let sp ← (growSyspageSection fmt st.sp .hwinfo size).mapError .crash
  let p := sp.p .hwinfo
  let mem := addField sp.mem (p + (st.lastItem + 4)) (size / 4)
  let mem := addField mem (p + off) (size / 4)
  return { st with sp := { sp with mem } }

/-! ## 呼び出しの列 -/

/-- 置いた札。`owner` は項目の札だけが持つ。 -/
structure HwTag where
  off : Nat
  size : Nat
  align : Nat
  owner : Option Nat
deriving DecidableEq, Repr

/-- 項目の札である。 -/
def HwTag.isItem (t : HwTag) : Bool := t.owner.isSome

inductive HwiCall
  | item (name : List UInt8) (size align : Nat) (itemname : List UInt8) (owner : Nat)
  | tag (name : List UInt8) (size align : Nat)
  | grow (off size : Nat)
  | store (off : Nat) (v : UInt8)
deriving DecidableEq, Repr

/-- 状態と、置いた札を順に並べた記録。`grown` は `hwi_grow_tag()` を呼んだかどうかである。 -/
structure HwiTrace where
  st : HwiState
  tags : List HwTag
  grown : Bool

/-- 札の列の終わり。 -/
def tagsEnd (tags : List HwTag) : Nat := (tags.map HwTag.size).sum

/-- 位置合わせの `pad` の札を加える。 -/
def padTags (tags : List HwTag) (align : Nat) : List HwTag :=
  if tagsEnd tags % align = 0 then tags else tags ++ [⟨tagsEnd tags, 4, 4, none⟩]

/-- 位置 `off` に置いた札を加える。 -/
def placeTag (tags : List HwTag) (off size align : Nat) (owner : Option Nat) : List HwTag :=
  padTags tags align ++ [⟨off, size, align, owner⟩]

/-- 最後の札を伸ばす。 -/
def growLast (tags : List HwTag) (size : Nat) : List HwTag :=
  tags.dropLast ++ (tags.getLast?.map fun t => { t with size := t.size + size }).toList

def HwiTrace.step (lib : HwiLib) (fmt : SyspageFormat) (t : HwiTrace) : HwiCall → Except StringFault HwiTrace
  | .item name size align itemname owner => do
      let (st, off) ← hwiAllocItem lib fmt t.st name size align itemname owner
      return { t with st, tags := placeTag t.tags off size align (some owner) }
  | .tag name size align => do
      let (st, off) ← hwiAllocTag fmt t.st name size align
      return { t with st, tags := placeTag t.tags off size align none }
  | .grow off size => do
      let st ← hwiGrowTag fmt t.st off size
      return { st, tags := growLast t.tags size, grown := true }
  | .store off v =>
      .ok { t with st := { t.st with
        sp := { t.st.sp with mem := Function.update t.st.sp.mem (t.st.sp.p .hwinfo + off) v } } }

def HwiTrace.start (sp : Syspage) : HwiTrace := ⟨{ sp }, [], false⟩

/-- 札の中で、`hwi_alloc.c` が書く欄の後ろの位置。 -/
def HwTag.headerSize (t : HwTag) : Nat := if t.isItem then hwiItemSize else 4

/-- 呼び出しの前提。最初の呼び出しは項目で、大きさは正の 4 の倍数、位置合わせは 4 か 8、親は置いた項目か `HWI_NULL_OFF` である。
`hwi_grow_tag()` は最後の札に、書き込みは札の欄の後ろに行う。 -/
def HwiTrace.InDomain (t : HwiTrace) : HwiCall → Prop
  | .item name size align itemname owner => (0 < size ∧ size % 4 = 0 ∧ size < 2 ^ 31) ∧ (align = 4 ∨ align = 8) ∧
      ((∀ c ∈ name, c ≠ 0) ∧ name.length < 2 ^ 31) ∧ ((∀ c ∈ itemname, c ≠ 0) ∧ itemname.length < 2 ^ 31) ∧
      (owner = hwiNullOff ∨ ∃ g ∈ t.tags, g.isItem = true ∧ g.off = owner)
  | .tag name size align => t.tags ≠ [] ∧ (0 < size ∧ size % 4 = 0 ∧ size < 2 ^ 31) ∧ (align = 4 ∨ align = 8) ∧
      (∀ c ∈ name, c ≠ 0) ∧ name.length < 2 ^ 31
  | .grow off size => (0 < size ∧ size % 4 = 0 ∧ size < 2 ^ 31) ∧ ∃ g ∈ t.tags.getLast?, g.off = off
  | .store off _ => ∃ g ∈ t.tags, g.off + g.headerSize ≤ off ∧ off < g.off + g.size

/-- `hwi_grow_tag()` の後には札を置かず、項目の札は `struct hwi_item` より小さくない。 -/
def HwiTrace.Clean (t : HwiTrace) : HwiCall → Prop
  | .item _ size _ _ _ => t.grown = false ∧ hwiItemSize ≤ size
  | .tag _ _ _ => t.grown = false
  | .grow _ _ => True
  | .store _ _ => True

instance HwiTrace.decidableInDomain (t : HwiTrace) : (c : HwiCall) → Decidable (t.InDomain c)
  | .item _ _ _ _ _ => inferInstanceAs (Decidable (_ ∧ _ ∧ _ ∧ _ ∧ _))
  | .tag _ _ _ => inferInstanceAs (Decidable (_ ∧ _ ∧ _ ∧ _))
  | .grow _ _ => inferInstanceAs (Decidable (_ ∧ _))
  | .store _ _ => inferInstanceAs (Decidable (∃ g ∈ _, _))

instance HwiTrace.decidableClean (t : HwiTrace) : (c : HwiCall) → Decidable (t.Clean c)
  | .item _ _ _ _ _ => inferInstanceAs (Decidable (_ ∧ _))
  | .tag _ _ _ => inferInstanceAs (Decidable (_ = _))
  | .grow _ _ => .isTrue trivial
  | .store _ _ => .isTrue trivial

/-! ## 走査 -/

/-- 位置 `off` から、札の先頭から `k` の欄の 4 倍ずつ進み、大きさ 0 の札で止まる。`k` は札の走査では 0、項目の走査では 4 である。 -/
def hwiWalk (s : Syspage) (k : Nat) : Nat → Nat → Option (List Nat)
  | _, 0 => none
  | off, fuel + 1 =>
      if s.mem.readLE (s.p .hwinfo + off) 2 = 0 then some []
      else (hwiWalk s k (off + 4 * s.mem.readLE (s.p .hwinfo + (off + k)) 2) fuel).map (off :: ·)

end Imx6Bsp.Startup
