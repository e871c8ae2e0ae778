import Imx6Bsp.Startup.LoadElf

/-!
# SDMA によるイメージの複写（`boards/imx6x/sdma_copy.c`）

記述子は一つを使い回し、終わるのを待ってから次を出す。`mdriver_check()` が呼ぶミニドライバは、複写の範囲に触れないとする。
スクリプトは、記述子の下位 16 ビットと上位 8 ビットを長さとして読む。
-/

namespace Imx6Bsp.Startup

open Imx6Bsp.Lib

/-- `MAX_SDMA_XFER_SIZE`。 -/
def maxSdmaXferSize : Nat := 16 * 1024 - 1024

/-! ## 記述子 -/

/-- `sdma_bd_t`。 -/
structure SdmaBd where
  cmdAndStatus : Nat
  bufPaddr : Nat
  extBufPaddr : Nat
deriving DecidableEq, Repr

/-- `sdma_xfer()` の引数。 -/
structure SdmaXfer where
  src : Nat
  dst : Nat
  len : Nat
deriving DecidableEq, Repr

def sdmaCmdstatDone : Nat := 0x10000
def sdmaCmdstatWrap : Nat := 0x20000
def sdmaCmdstatInt : Nat := 0x80000
def sdmaCmdstatExt : Nat := 0x800000

/-- `sdma_xfer()` の作る記述子。 -/
def sdmaXfer (x : SdmaXfer) : SdmaBd :=
  let lengthLow := x.len &&& 0xffff
  let lengthHigh := ((x.len >>> 16) &&& 0x7f) <<< 24
  { cmdAndStatus := (lengthHigh ||| sdmaCmdstatExt ||| sdmaCmdstatWrap ||| sdmaCmdstatInt ||| lengthLow) ||| sdmaCmdstatDone
    bufPaddr := x.src
    extBufPaddr := x.dst }

/-- スクリプトが読む長さ。 -/
def SdmaBd.count (bd : SdmaBd) : Nat := bd.cmdAndStatus % 2 ^ 16 + bd.cmdAndStatus / 2 ^ 24 % 2 ^ 8 * 2 ^ 16

/-- 一つの記述子の転送。番地は 32 ビットで回る。 -/
def SdmaBd.run (bd : SdmaBd) (m : Mem) : Mem := fun x =>
  if x < 2 ^ 32 ∧ wrap32 (x + 2 ^ 32 - bd.extBufPaddr) < bd.count then m (wrap32 (bd.bufPaddr + wrap32 (x + 2 ^ 32 - bd.extBufPaddr)))
  else m x

/-- 記述子を順に実行する。 -/
def runXfers (m : Mem) (xfers : List SdmaXfer) : Mem := xfers.foldl (fun m x => (sdmaXfer x).run m) m

/-! ## 二つの関数 -/

/-- `size` を 4 の倍数にしようとするところ。 -/
def sdmaRound (size : Nat) : Nat := size + size % 4

def sdmaCopyLoop : (fuel : Nat) → (size dst src : Nat) → List SdmaXfer
  | 0, _, _, _ => []
  | fuel + 1, size, dst, src =>
      if size > 0 then
        let dmasz := if size ≥ maxSdmaXferSize then maxSdmaXferSize else size
        ⟨src, dst, dmasz⟩ :: sdmaCopyLoop fuel (size - dmasz) (wrap32 (dst + dmasz)) (wrap32 (src + dmasz))
      else []

/-- `sdma_copy()`。 -/
def sdmaCopy (dst src size : Nat) : List SdmaXfer := sdmaCopyLoop (sdmaRound size) (sdmaRound size) dst src

/-- `mdriver_max` による初めの `dmasz`。 -/
def driverLimit (drivers max size dmasz : Nat) : Nat := if drivers > 0 then (if dmasz ≥ max then max else size) else dmasz

/-- 次の `dmasz`。前の値は使わない。 -/
def sizeLimit (size _dmasz : Nat) : Nat := if size ≥ maxSdmaXferSize then maxSdmaXferSize else size

def sdmaLoadIfsLoop (drivers max : Nat) : (fuel : Nat) → (dmasz size dst src : Nat) → List SdmaXfer
  | 0, _, _, _, _ => []
  | fuel + 1, dmasz, size, dst, src =>
      if size > 0 then
        let dmasz := sizeLimit size (driverLimit drivers max size dmasz)
        ⟨src, dst, dmasz⟩ :: sdmaLoadIfsLoop drivers max fuel dmasz (size - dmasz) (wrap32 (dst + dmasz)) (wrap32 (src + dmasz))
      else []

/-- `sdma_load_ifs()`。`drivers` は `lsp.mdriver.size`、`max` は `mdriver_max`、`dmasz` は初期化されない局所変数の値である。 -/
def sdmaLoadIfs (drivers max dmasz dst src size : Nat) : List SdmaXfer :=
  sdmaLoadIfsLoop drivers max (sdmaRound size) dmasz (sdmaRound size) dst src

/-- `lsp.mdriver.size` と `mdriver_max` を与えた `copy_memory()`。 -/
def copyMemoryWith (drivers max : Nat) (m : Mem) (dst src len : Nat) : Mem :=
  Elf.copyMemoryLoop (if drivers > 0 then max else len) (len + 1) m dst src len

/-! ## 仕様 -/

/-- `src` から `dst` への、隙間なく順に並んだ `total` バイトの転送。 -/
inductive Contiguous : (src dst total : Nat) → List SdmaXfer → Prop
  | nil (src dst : Nat) : Contiguous src dst 0 []
  | cons (src dst len : Nat) {total : Nat} {xfers : List SdmaXfer} (h : Contiguous (wrap32 (src + len)) (wrap32 (dst + len)) total xfers) :
      Contiguous src dst (len + total) (⟨src, dst, len⟩ :: xfers)

/-- `copy_memory()` と同じ複写をする、4 の倍数の転送の列。 -/
structure CopiesImage (drivers max : Nat) (m : Mem) (dst src size : Nat) (xfers : List SdmaXfer) : Prop where
  lengths : ∀ x ∈ xfers, 0 < x.len ∧ 4 ∣ x.len ∧ x.len ≤ maxSdmaXferSize
  decodes : ∀ x ∈ xfers, (sdmaXfer x).count = x.len
  contiguous : Contiguous src dst ((size + 3) / 4 * 4) xfers
  copied : ∀ i < size, runXfers m xfers (dst + i) = copyMemoryWith drivers max m dst src size (dst + i)
  beyond : ∀ x, (∀ i < size + 3, x ≠ wrap32 (dst + i)) → runXfers m xfers x = m x

/-- ミニドライバがあれば、一つの転送は `max` を越えない。 -/
def WithinDriverMax (drivers max : Nat) (xfers : List SdmaXfer) : Prop := 0 < drivers → ∀ x ∈ xfers, x.len ≤ max

end Imx6Bsp.Startup
