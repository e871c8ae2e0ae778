import Imx6Bsp.Startup.Callouts
import Imx6Bsp.Lib.Packing
import Imx6Bsp.Lib.Runs

/-!
# システムページの記憶域（`syspage_memory.c`）

`struct local_syspage` の節を `Sect` に、節の先頭と大きさを関数に表す。`struct syspage_entry` などの定義は `sys/syspage.h`
にあるので、大きさと欄の位置を引数 `SyspageFormat` とする。`total_size` と `size` は記憶域の中のヘッダの欄を読み書きする。
ポインタは 32 ビットの番地である。
-/

namespace Imx6Bsp.Startup

open Imx6Bsp.Lib

/-- `struct local_syspage` の節。最後の二つは `struct cpu_local_syspage` のものである。 -/
inductive Sect
  | syspage | systemPrivate | meminfo | asinfo | hwinfo | cpuinfo | cacheattr | qtime | callout | callin
  | typedStrings | strings | intrinfo | smp | pminfo | mdriver | armBoxinfo | armCpu
deriving DecidableEq, Repr

/-- `SECTION_START` から `SECTION_END` までの節。 -/
def Sect.all : List Sect :=
  [.syspage, .systemPrivate, .meminfo, .asinfo, .hwinfo, .cpuinfo, .cacheattr, .qtime, .callout, .callin,
    .typedStrings, .strings, .intrinfo, .smp, .pminfo, .mdriver, .armBoxinfo, .armCpu]

/-- `sys/syspage.h` の構造体の大きさと、ヘッダの欄の位置。欄の幅は `fieldBytes` バイトである。 -/
structure SyspageFormat where
  headerSize : Nat
  sizeOff : Nat
  totalSizeOff : Nat
  numCpuOff : Nat
  fieldBytes : Nat
  calloutSize : Nat
  callinSize : Nat
  armCpuSize : Nat
deriving DecidableEq, Repr

/-- `lsp` と `fixed_size`、`patch_data`、記憶域。 -/
structure Syspage where
  mem : Mem
  p : Sect → Nat
  size : Sect → Nat
  fixedSize : Nat
  patchData : List CoInfo := []

namespace Syspage

variable (fmt : SyspageFormat)

/-- `lsp.syspage.p->total_size`。 -/
def totalSize (s : Syspage) : Nat := s.mem.readLE (s.p .syspage + fmt.totalSizeOff) fmt.fieldBytes

/-- `lsp.syspage.p->size`。システムページを作っている間は、大きさの上限を持つ。 -/
def maxSize (s : Syspage) : Nat := s.mem.readLE (s.p .syspage + fmt.sizeOff) fmt.fieldBytes

end Syspage

/-- `grow_syspage_section()`。 -/
def growSyspageSection (fmt : SyspageFormat) (s : Syspage) (sect : Sect) (add : Nat) : Except Crash Syspage :=
  if add > 0 then
    let add := round add 8
    let newSize := wrap32 (s.totalSize fmt + add)
    if newSize > s.maxSize fmt then .error (.syspageRequestExceedsMaximum newSize (s.maxSize fmt))
    else
      let bottom := wrap32 (s.p sect + s.size sect)
      let p := fun t => if t ≠ sect ∧ s.p t ≥ bottom then wrap32 (s.p t + add) else s.p t
      -- `lsp.syspage.p` は、ずらした後の値を読む。
      let total := s.mem.readLE (p .syspage + fmt.totalSizeOff) fmt.fieldBytes
      let len := wrap32 (total + p .syspage + (2 ^ 32 - bottom))
      let mem := s.mem.move (wrap32 (bottom + add)) bottom len
      let patchData := calloutRelocData bottom len add s.patchData
      let mem := mem.zero bottom add
      let mem := mem.writeLE (p .syspage + fmt.totalSizeOff) fmt.fieldBytes newSize
      .ok { s with mem, p, patchData, size := Function.update s.size sect (wrap32 (s.size sect + add)) }
  else .ok s

/-- `set_syspage_section()`。 -/
def setSyspageSection (fmt : SyspageFormat) (s : Syspage) (sect : Sect) (size : Nat) : Except Crash Syspage :=
  let size := round size 8
  growSyspageSection fmt
    { s with
      p := Function.update s.p sect (wrap32 (s.p .syspage + s.fixedSize))
      fixedSize := wrap32 (s.fixedSize + size) } sect size

/-- `reloc_syspage_memory()`。二度目の `total_size` は、`memmove()` の後に元のヘッダから読む。 -/
def relocSyspageMemory (fmt : SyspageFormat) (s : Syspage) (base maxSize : Nat) : Syspage :=
  let old := s.p .syspage
  let mem := s.mem.move base old (s.totalSize fmt)
  let diff := wrap32 (base + (2 ^ 32 - old))
  let patchData := calloutRelocData old (mem.readLE (old + fmt.totalSizeOff) fmt.fieldBytes) diff s.patchData
  let p := fun t => wrap32 (s.p t + diff)
  { s with mem := mem.writeLE (p .syspage + fmt.sizeOff) fmt.fieldBytes maxSize, p, patchData }

/-- `init_syspage_memory()` の、最初の節を作る前。 -/
def emptySyspage (fmt : SyspageFormat) (mem : Mem) (base maxSize : Nat) : Syspage :=
  let spsize := round fmt.headerSize 8
  let mem := mem.zero base spsize
  let mem := mem.writeLE (base + fmt.totalSizeOff) fmt.fieldBytes spsize
  let mem := mem.writeLE (base + fmt.sizeOff) fmt.fieldBytes maxSize
  { mem
    p := Function.update (fun _ => wrap32 (base + spsize)) .syspage base
    size := Function.update (fun _ => 0) .syspage spsize
    fixedSize := spsize }

/-- `init_syspage_memory()`。最後の `hwi_default()` は、この後に行う呼び出しの列として表す。 -/
def initSyspageMemory (fmt : SyspageFormat) (mem : Mem) (base maxSize : Nat) : Except Crash Syspage := do
  let s ← setSyspageSection fmt (emptySyspage fmt mem base maxSize) .callout fmt.calloutSize
  let s ← setSyspageSection fmt s .callin fmt.callinSize
  let s ← growSyspageSection fmt s .typedStrings 4
  let s ← growSyspageSection fmt s .strings 1
  let s ← growSyspageSection fmt s .hwinfo 4
  let s := { s with mem := s.mem.writeLE (s.p .syspage + fmt.numCpuOff) fmt.fieldBytes 1 }
  setSyspageSection fmt s .armCpu fmt.armCpuSize

end Imx6Bsp.Startup

namespace Imx6Bsp.Startup

/-! ## システムページの節への呼び出しの列

節の操作に加えて、節の持ち主が節の中に書く一歩と、`callout_register_data()` を呼び出しに数える。節の中身と登録を、記憶域の
番地によらない形でも記録する。 -/

open Imx6Bsp.Lib

/-- ヘッダの `total_size` と `size` の欄の中の位置。 -/
def SyspageFormat.IsCounter (fmt : SyspageFormat) (i : Nat) : Prop :=
  (fmt.sizeOff ≤ i ∧ i < fmt.sizeOff + fmt.fieldBytes) ∨ (fmt.totalSizeOff ≤ i ∧ i < fmt.totalSizeOff + fmt.fieldBytes)

instance (fmt : SyspageFormat) (i : Nat) : Decidable (fmt.IsCounter i) := inferInstanceAs (Decidable (_ ∨ _))

/-- 節の中身として問わない位置。 -/
def SyspageFormat.Skip (fmt : SyspageFormat) (s : Sect) (i : Nat) : Prop := s = .syspage ∧ fmt.IsCounter i

instance (fmt : SyspageFormat) (s : Sect) (i : Nat) : Decidable (fmt.Skip s i) := inferInstanceAs (Decidable (_ ∧ _))

inductive SyspageCall
  | set (sect : Sect) (size : Nat)
  | grow (sect : Sect) (add : Nat)
  | reloc (base maxSize : Nat)
  | store (sect : Sect) (off : Nat) (v : UInt8)
  | register (sect : Sect) (off data : Nat)
deriving DecidableEq, Repr

/-- 状態と記録。`fixed` はヘッダと、`set_syspage_section()` で作った空でない節の、作った順の列である。`reg` は節と
節の中の位置ごとに、最初に登録されたデータを持つ。 -/
structure SyspageTrace where
  sp : Syspage
  fixed : List Sect
  fixedGrown : Bool
  content : Sect → List UInt8
  reg : Sect → Nat → Option Nat

/-- `callout_register_data()` の記録。最初の登録だけを残す。 -/
def registerFirst (rtns : Nat → CalloutRtn) (mem : Mem) (rp : Nat) (sect : Sect) (off data : Nat)
    (reg : Sect → Nat → Option Nat) : Sect → Nat → Option Nat :=
  if data ≠ 0 ∧ mem.readLE rp 4 ≠ 0 ∧ (rtns (mem.readLE rp 4)).patcher ≠ 0 ∧ reg sect off = none then
    Function.update reg sect (Function.update (reg sect) off (some data))
  else reg

def SyspageTrace.step (fmt : SyspageFormat) (rtns : Nat → CalloutRtn) (t : SyspageTrace) :
    SyspageCall → Except Crash SyspageTrace
  | .set sect size => do
      let sp ← setSyspageSection fmt t.sp sect size
      return { t with
        sp
        fixed := if round size 8 = 0 then t.fixed else t.fixed ++ [sect]
        content := Function.update t.content sect (t.content sect ++ List.replicate (round size 8) 0) }
  | .grow sect add => do
      let sp ← growSyspageSection fmt t.sp sect add
      return { t with
        sp
        fixedGrown := t.fixedGrown || (decide (sect ∈ t.fixed) && decide (0 < add))
        content := Function.update t.content sect (t.content sect ++ List.replicate (round add 8) 0) }
  | .reloc base maxSize => return { t with sp := relocSyspageMemory fmt t.sp base maxSize }
  | .store sect off v => return { t with
      sp := { t.sp with mem := Function.update t.sp.mem (t.sp.p sect + off) v }
      content := Function.update t.content sect ((t.content sect).set off v) }
  | .register sect off data => return { t with
      sp := { t.sp with patchData := calloutRegisterData rtns t.sp.mem (t.sp.p sect + off) data t.sp.patchData }
      reg := registerFirst rtns t.sp.mem (t.sp.p sect + off) sect off data t.reg }

/-- `init_syspage_memory()` を終えた状態。中身は、その時点の記憶域から読む。 -/
def SyspageTrace.start (sp : Syspage) : SyspageTrace where
  sp := sp
  fixed := [.syspage, .callout, .callin, .armCpu].filter (fun s => 0 < sp.size s)
  fixedGrown := false
  content := fun s => (List.range (sp.size s)).map fun i => sp.mem (sp.p s + i)
  reg := fun _ _ => none

/-- 呼び出しの前提。`set_syspage_section()` は、空の節について、ヘッダとそれまでに作った節を伸ばしていない間に呼ぶ。大きさの計算は
桁あふれせず、移し先は今の大きさが収まる記憶域である。 -/
def SyspageTrace.InDomain (fmt : SyspageFormat) (t : SyspageTrace) : SyspageCall → Prop
  | .set sect size => t.sp.size sect = 0 ∧ t.fixedGrown = false ∧ t.sp.totalSize fmt + size + 8 ≤ 2 ^ 32
  | .grow _ add => t.sp.totalSize fmt + add + 8 ≤ 2 ^ 32
  | .reloc base maxSize => t.sp.totalSize fmt ≤ maxSize ∧ maxSize < 256 ^ fmt.fieldBytes ∧ base + maxSize < 2 ^ 32
  | .store sect off _ => off < t.sp.size sect ∧ ¬ fmt.Skip sect off
  | .register sect off _ => off < t.sp.size sect

instance SyspageTrace.decidableInDomain (fmt : SyspageFormat) (t : SyspageTrace) : (c : SyspageCall) → Decidable (t.InDomain fmt c)
  | .set _ _ => inferInstanceAs (Decidable (_ ∧ _ ∧ _))
  | .grow _ _ => inferInstanceAs (Decidable (_ ≤ _))
  | .reloc _ _ => inferInstanceAs (Decidable (_ ∧ _ ∧ _))
  | .store _ _ _ => inferInstanceAs (Decidable (_ ∧ ¬ _))
  | .register _ _ _ => inferInstanceAs (Decidable (_ < _))

/-- `struct syspage_entry` の欄は重ならず、ヘッダに収まる。構造体の大きさは桁あふれしない。 -/
structure SyspageFormat.Ok (fmt : SyspageFormat) : Prop where
  bytes_pos : 0 < fmt.fieldBytes
  size_in : fmt.sizeOff + fmt.fieldBytes ≤ fmt.headerSize
  total_in : fmt.totalSizeOff + fmt.fieldBytes ≤ fmt.headerSize
  num_in : fmt.numCpuOff + fmt.fieldBytes ≤ fmt.headerSize
  size_total : fmt.sizeOff + fmt.fieldBytes ≤ fmt.totalSizeOff ∨ fmt.totalSizeOff + fmt.fieldBytes ≤ fmt.sizeOff
  size_num : fmt.sizeOff + fmt.fieldBytes ≤ fmt.numCpuOff ∨ fmt.numCpuOff + fmt.fieldBytes ≤ fmt.sizeOff
  total_num : fmt.totalSizeOff + fmt.fieldBytes ≤ fmt.numCpuOff ∨ fmt.numCpuOff + fmt.fieldBytes ≤ fmt.totalSizeOff
  fits : fmt.headerSize + 8 ≤ 256 ^ fmt.fieldBytes
  small : fmt.headerSize + fmt.calloutSize + fmt.callinSize + fmt.armCpuSize + 128 ≤ 2 ^ 32

end Imx6Bsp.Startup
