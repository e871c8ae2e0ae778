import Imx6Bsp.Lib.Bytes
import Imx6Bsp.Startup.Ram

/-!
# 二つ目のイメージファイルシステムの読み込み（`restore_ifs.c`）

起動に使わない二つ目の IFS を RAM に置く。前回の起動で置いた IFS が RAM に残っていれば、それを使う。`struct image_header`
の定義は `sys/image.h` にあるので、署名と `image_size` の位置を引数 `ImageFormat` とする。ミニドライバの呼び出しと
`kprintf()` は割り当ての状態を変えないので省き、ミニドライバのない構成の `copy_memory()` を `memmove()` とする。
-/

namespace Imx6Bsp.Startup

open Imx6Bsp.Lib

/-- `sys/image.h` の、署名 `IMAGE_SIGNATURE` の 7 文字と、`image_size` の位置。 -/
structure ImageFormat where
  signature : Fin 7 → UInt8
  imageSizeOff : Nat

/-! ## `rifs_flag` -/

/-- `RIFS_FLAG_IFS2_RESTORE`。 -/
def rifsFlagIfs2Restore : Nat := 0x08

/-- `RIFS_FLAG_IFS2_CKSUM`。 -/
def rifsFlagIfs2Cksum : Nat := 0x10

/-- `RIFS_FLAG_IFS2_SRC`。 -/
def rifsFlagIfs2Src : Nat := 0x20

/-- `RIFS_FLAG_IFS2_DST`。 -/
def rifsFlagIfs2Dst : Nat := 0x40

/-- `rifs_flag` のビット `bit` が立っている。 -/
def hasFlag (flag bit : Nat) : Bool := flag &&& bit ≠ 0

/-- `restore_ifs.c` の、二つ目の IFS についての大域変数。 -/
structure Ifs2 where
  flag : Nat
  src : Nat := 0
  dst : Nat := 0
  size : Nat := 0
deriving DecidableEq, Repr

/-! ## 検査 -/

/-- `sizeof(struct restore_ifs2_info)`。 -/
def restoreIfs2InfoSize : Nat := 16

/-- `RIFS_SIGNATURE`。 -/
def rifsSignature : List UInt8 := [0x72, 0x69, 0x66, 0x73, 0x62, 0x6f, 0x6f, 0x74]

/-- `check_ifs_signature()` が 0 を返す。 -/
def checkIfsSignature (fmt : ImageFormat) (mem : Mem) (hdr : Nat) : Bool :=
  ∀ i : Fin 7, fmt.signature i = mem (hdr + i)

/-- `rifs_checksum()`。`len` は符号つきなので、最上位のビットが立っていれば 0 である。 -/
def rifsChecksum (mem : Mem) (ptr len : Nat) : Nat :=
  if len < 2 ^ 31 then wrap32 ((List.range ((len + 3) / 4)).map (fun i => mem.readLE (ptr + 4 * i) 4)).sum else 0

/-- `rifs_restore_ifs2()` が RAM の IFS を使えるとみなす条件。`info` は `rifs2_info` の番地である。 -/
def ifs2Accepted (fmt : ImageFormat) (mem : Mem) (g : Ifs2) (info : Nat) : Bool :=
  checkIfsSignature fmt mem g.dst && rifsChecksum mem info restoreIfs2InfoSize = 0 &&
    (!hasFlag g.flag rifsFlagIfs2Cksum || rifsChecksum mem g.dst (mem.readLE (info + 12) 4) = 0)

/-! ## 読み込み -/

/-- `rifs_restore_ifs2()`。`rifs2_info` の番地と、IFS を使えるかを返す。 -/
def rifsRestoreIfs2 (fmt : ImageFormat) (s : Ram) (mem : Mem) (g : Ifs2) : Except Crash (Ram × Nat × Bool) := do
  let (s, paddr) ← allocRam s nullPaddr restoreIfs2InfoSize 8
  return (s, paddr, ifs2Accepted fmt mem g paddr)

/-- `rifs_load_ifs2()` が `rifs2_info` に書くこと。 -/
def saveIfs2Info (fmt : ImageFormat) (mem : Mem) (g : Ifs2) (info : Nat) : Mem :=
  let mem := fun x => if info ≤ x ∧ x < info + 8 then rifsSignature.getD (x - info) 0 else mem x
  let mem := Mem.writeLE mem (info + 12) 4 (Mem.readLE mem (g.dst + fmt.imageSizeOff) 4)
  let mem := Mem.writeLE mem (info + 8) 4 0
  Mem.writeLE mem (info + 8) 4 (wrap32 (2 ^ 32 - rifsChecksum mem info restoreIfs2InfoSize))

/-- `rifs_load_ifs2()` の、読み込み元を決めるところ。 -/
def ifs2Source (hdr : StartupHeader) (g : Ifs2) : Ifs2 :=
  if hasFlag g.flag rifsFlagIfs2Src then g
  else { g with src := wrap32 (hdr.imagefsPaddr + hdr.storedSize + (2 ^ 32 - hdr.startupSize)) }

/-- `rifs_load_ifs2()` の、指定された置き場所を取るところ。 -/
def reserveIfs2 (s : Ram) (g : Ifs2) : Except Crash Ram :=
  if hasFlag g.flag rifsFlagIfs2Dst then do
    let (s, _) ← allocRam s g.dst g.size 0x1000
    return s
  else .ok s

/-- `rifs_load_ifs2()`。`info` は `rifs2_info` の番地である。 -/
def rifsLoadIfs2 (hdr : StartupHeader) (fmt : ImageFormat) (s : Ram) (mem : Mem) (g : Ifs2) (info : Option Nat) :
    Except Crash (Ram × Mem × Ifs2) := do
  let g := ifs2Source hdr g
  let s ← reserveIfs2 s g
  let mem := mem.move g.dst g.src g.size
  let mem := match info with
    | some p => saveIfs2Info fmt mem g p
    | none => mem
  return (s, mem, g)

/-- `load_ifs2_nonbootable()` を終えた状態。`info` は、取ったときの `rifs2_info` の番地である。 -/
structure Ifs2Loaded where
  ram : Ram
  mem : Mem
  ifs2 : Ifs2
  info : Option Nat

/-- `load_ifs2_nonbootable()` の、置き場所を決めるところ。 -/
def placeIfs2 (s : Ram) (g : Ifs2) : Except Crash (Ram × Ifs2) :=
  if hasFlag g.flag rifsFlagIfs2Dst then .ok (s, g)
  else do
    let (s, a) ← allocRam s nullPaddr g.size 0x1000
    return (s, { g with dst := a })

/-- `load_ifs2_nonbootable()`。 -/
def loadIfs2Nonbootable (hdr : StartupHeader) (fmt : ImageFormat) (s : Ram) (mem : Mem) (g : Ifs2) :
    Except Crash Ifs2Loaded := do
  let (s, g) ← placeIfs2 s g
  if hasFlag g.flag rifsFlagIfs2Restore then
    let (s, info, ok) ← rifsRestoreIfs2 fmt s mem g
    if ok then return ⟨s, mem, g, some info⟩
    let (s, mem, g) ← rifsLoadIfs2 hdr fmt s mem g (some info)
    return ⟨s, mem, g, some info⟩
  else
    let (s, mem, g) ← rifsLoadIfs2 hdr fmt s mem g none
    return ⟨s, mem, g, none⟩

end Imx6Bsp.Startup

namespace Imx6Bsp.Startup

/-! ## 起動用の IFS の復元（`restore_ifs.c` の `rifs_restore_ifs()`）

RAM に残った起動用の IFS を、前回の起動の情報（`struct restore_ifs_info`）を使って元に戻す。ミニドライバの呼び出しと
`kprintf()` は省く。 -/

open Imx6Bsp.Lib

end Imx6Bsp.Startup
