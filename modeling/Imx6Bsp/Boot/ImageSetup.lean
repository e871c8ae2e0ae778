import Imx6Bsp.Lib.Copying
import Imx6Bsp.Startup.Basic
import Imx6Bsp.Startup.Ram

/-!
# イメージの準備（`image_setup.c` と `copy.c`）

IPL は、番地 `addr` にあるイメージの起動プログラムを RAM に写し、写したヘッダの `imagefs_paddr` に、イメージファイル
システムの番地を書く。MMU を使わないので、ポインタの値を番地とする。大域変数 `startup_hdr` は番地 `var` にある。
-/

namespace Imx6Bsp.Boot

open Imx6Bsp.Lib Imx6Bsp.Startup

/-! ## `struct startup_header` -/

section

variable (m : Mem) (hdr : Nat)

def flags1 : Nat := m.readLE (hdr + 6) 1

def paddrBias : Nat := m.readLE (hdr + 16) 4

def imagePaddr : Nat := m.readLE (hdr + 20) 4

def ramPaddr : Nat := m.readLE (hdr + 24) 4

def startupSize : Nat := m.readLE (hdr + 32) 4

def storedSize : Nat := m.readLE (hdr + 36) 4

def imagefsPaddr : Nat := m.readLE (hdr + 40) 4

def imagefsSize : Nat := m.readLE (hdr + 44) 4

end

/-! ## `copy()` -/

/-- `copy_memory()` の繰り返し。`w` バイトずつ代入する。 -/
def copyUnits (w : Nat) : Nat → Mem → Nat → Nat → Mem
  | 0, m, _, _ => m
  | sz + 1, m, dest, src => copyUnits w sz (m.writeLE dest w (m.readLE src w)) (dest + w) (src + w)

/-- `copy()`。4 バイトずつ写し、余りを 1 バイトずつ写す。 -/
def copy (m : Mem) (dest src sz : Nat) : Mem :=
  let remainder := sz &&& 3
  let sz := sz >>> 2
  copyUnits 1 remainder (copyUnits 4 sz m dest src) (dest + 4 * sz) (src + 4 * sz)

/-! ## `image_setup()` -/

end Imx6Bsp.Boot

namespace Imx6Bsp.Boot

/-! ## イメージの検索（`image_scan.c`）

番地は 32 ビットで一周する（`bus`）。静的なバッファ `scratch` は、調べる記憶域とは別の対象とする。`checksum()` の `len` は
`sizeof(scratch)` と無符号で比べるので、自然数とする。見つけたヘッダの写し `startup_hdr` は、欄を読むだけなので省く。 -/

open Imx6Bsp.Lib Imx6Bsp.Startup

/-- `sizeof(scratch)`。 -/
def scratchSize : Nat := 512

/-- `STARTUP_HDR_SIGNATURE`。 -/
def startupHdrSignature : Nat := 0x00ff7eeb

def hdrSignature (m : Mem) (hdr : Nat) : Nat := m.readLE hdr 4

def hdrVersion (m : Mem) (hdr : Nat) : Nat := m.readLE (hdr + 4) 2

/-- 32 ビットの番地で読む記憶域。 -/
def bus (m : Mem) : Mem := fun a => m (wrap32 a)

/-! ### 検査和 -/

/-- `small_checksum()` の、残り `n` 語の繰り返し。 -/
def sumWords (iray : Mem) : (n a sum : Nat) → Nat
  | 0, _, sum => sum
  | n + 1, a, sum => sumWords iray n (a + 4) (wrap32 (sum + iray.readLE a 4))

/-- `small_checksum()`。`len` を 4 ずつ減らし、0 以下になるまで足す。 -/
def smallChecksum (iray : Mem) (len : Nat) : Nat := sumWords iray ((len + 3) / 4) 0 0

/-- `checksum()` の、`scratch` を満たす `n` 回の繰り返し。 -/
def checksumLoop (m : Mem) : (n : Nat) → Mem → (addr sum : Nat) → Mem × Nat × Nat
  | 0, scratch, addr, sum => (scratch, addr, sum)
  | n + 1, scratch, addr, sum =>
      let scratch := scratch.fill 0 scratchSize fun i => bus m (addr + i)
      checksumLoop m n scratch (wrap32 (addr + scratchSize)) (wrap32 (sum + smallChecksum scratch scratchSize))

/-- `checksum()`。端数のときは、`scratch` の残りに前のバイトが残る。 -/
def checksum (m scratch : Mem) (addr len : Nat) : Nat × Mem :=
  let (scratch, addr, sum) := checksumLoop m (len / scratchSize) scratch addr 0
  let len := len % scratchSize
  if len ≠ 0 then
    let scratch := scratch.fill 0 len fun i => bus m (addr + i)
    (wrap32 (sum + smallChecksum scratch len), scratch)
  else (sum, scratch)

/-! ### `image_scan()` -/

/-- 繰り返しの中で変わる変数。 -/
structure ScanState where
  start : Nat
  lastaddr : Nat
  lastver : Nat
  scratch : Mem

/-- `start` にイメージがあるかどうかの検査。 -/
def checkImage (m scratch : Mem) (start : Nat) : Bool × Mem :=
  if hdrSignature (bus m) start ≠ startupHdrSignature then (false, scratch)
  else
    let startup := startupSize (bus m) start
    let (sum, scratch) := checksum m scratch start startup
    if sum ≠ 0 then (false, scratch)
    else
      let (sum, scratch) := checksum m scratch (wrap32 (start + startup)) (wrap32 (storedSize (bus m) start + (2 ^ 32 - startup)))
      (decide (sum = 0), scratch)

/-- 一つの候補を調べ、次の候補に進む。 -/
def scanStep (m : Mem) (s : ScanState) : ScanState :=
  let (ok, scratch) := checkImage m s.scratch s.start
  if ok then
    let newer := hdrVersion (bus m) s.start > s.lastver
    { start := wrap32 (wrap32 (s.start + wrap32 (storedSize (bus m) s.start + (2 ^ 32 - 4))) + 4)
      lastaddr := if newer then s.start else s.lastaddr
      lastver := if newer then hdrVersion (bus m) s.start else s.lastver
      scratch }
  else { s with start := wrap32 (s.start + 4), scratch }

/-- `image_scan()` の繰り返し。`none` は、`fuel` 個の候補では終わらないことを表す。 -/
def imageScanLoop (m : Mem) (stop : Nat) : Nat → ScanState → Option Nat
  | 0, _ => none
  | fuel + 1, s => if s.start < stop then imageScanLoop m stop fuel (scanStep m s) else some s.lastaddr

/-- `image_scan()`。 -/
def imageScan (fuel : Nat) (m scratch : Mem) (start stop : Nat) : Option Nat :=
  imageScanLoop m stop fuel ⟨start, 2 ^ 32 - 1, 0, scratch⟩

/-! ## イメージファイルシステムの読み込み（`load_ifs.c`、`uncompress.c`、`uncompress_ucl.c`、`memfuncs.c`、`sdma_copy.c`）

`shdr` は起動ヘッダの番地である。ARM の `startup_memory_map()` は番地をそのまま返す。ミニドライバの処理と `kprintf()` は
イメージに触れないので省く。SDMA の転送と、圧縮のライブラリの `ucl_nrv2b_decompress_8()` は `LoadEnv` の引数とする。
ビルドは `SUPPORT_CMP_UCL` だけを有効にしている。 -/

/-- 読み込みの途中の `crash()` の理由。 -/
inductive LoadCrash
  | imageHeaderCorrupt
  | unsupportedCompressionType
  | fail
deriving DecidableEq, Repr

/-- `ucl_nrv2b_decompress_8()` を終えた記憶域と、`out_len` と戻り値。 -/
structure UclResult where
  mem : Mem
  outLen : Nat
  status : Int

/-- 読み込みが使う大域変数と、`src/` の外の処理。 -/
structure LoadEnv where
  /-- `enable_sdma_copy`。 -/
  enableSdmaCopy : Bool
  /-- `lsp.mdriver.size > 0`。 -/
  mdriver : Bool
  ram : Ram
  /-- 番地 `src` から `dst` への `count` バイトの SDMA の転送。 -/
  sdma : Mem → (src dst count : Nat) → Mem
  /-- 番地 `src` の `len` バイトのブロックを `dst` に展開する。 -/
  ucl : Mem → (src len dst : Nat) → UclResult

/-! ### 複写 -/

/-- `mdriver_max`。 -/
def mdriverMax : Nat := 16 * 1024

/-- `copy_memory()` の繰り返し。`MAKE_1TO1_PTR` は、そのたびにヘッダの `paddr_bias` を足す。 -/
def copyMemoryLoop (shdr max : Nat) : Nat → Mem → Nat → Nat → Nat → Mem
  | 0, m, _, _, _ => m
  | fuel + 1, m, dst, src, len =>
      let amount := if len > max then max else len
      let m := m.move (wrap32 (dst + paddrBias m shdr)) src amount
      let len := len - amount
      if len = 0 then m else copyMemoryLoop shdr max fuel m (wrap32 (dst + amount)) (wrap32 (src + amount)) len

/-- `copy_memory()`。 -/
def copyMemory (env : LoadEnv) (m : Mem) (shdr dst src len : Nat) : Mem :=
  copyMemoryLoop shdr (if env.mdriver then mdriverMax else len) (len + 1) m dst src len

/-- `MAX_SDMA_XFER_SIZE`。 -/
def maxSdmaXferSize : Nat := 16 * 1024 - 1024

/-- `sdma_xfer()`。長さは `cmd_and_status` の二つの欄に分けて渡す。 -/
def sdmaXfer (env : LoadEnv) (m : Mem) (src dst len : Nat) : Mem :=
  env.sdma m src dst ((len &&& 0xffff) + (((len >>> 16) &&& 0x7f) <<< 16))

/-- `sdma_load_ifs()` が写すバイト数。`size + (size % 4)` は `int` なので、`2 ^ 31` 以上なら負であり、一度も写さない。 -/
def sdmaSize (size : Nat) : Nat := if size + size % 4 < 2 ^ 31 then size + size % 4 else 0

/-- `sdma_load_ifs()` の繰り返し。 -/
def sdmaLoop (env : LoadEnv) : Nat → Mem → Nat → Nat → Nat → Mem
  | 0, m, _, _, _ => m
  | fuel + 1, m, dst, src, size =>
      if size = 0 then m
      else
        let dmasz := if size ≥ maxSdmaXferSize then maxSdmaXferSize else size
        sdmaLoop env fuel (sdmaXfer env m src dst dmasz) (wrap32 (dst + dmasz)) (wrap32 (src + dmasz)) (size - dmasz)

/-- `sdma_load_ifs()`。 -/
def sdmaLoadIfs (env : LoadEnv) (m : Mem) (dst src size : Nat) : Mem :=
  sdmaLoop env (sdmaSize size) m dst src (sdmaSize size)

/-- `load_ifs()` の、`enable_sdma_copy` による複写の選択。 -/
def copyIfs (env : LoadEnv) (m : Mem) (shdr dst src size : Nat) : Mem :=
  if env.enableSdmaCopy then sdmaLoadIfs env m dst src size else copyMemory env m shdr dst src size

/-! ### 展開 -/

/-- `STARTUP_HDR_FLAGS1_COMPRESS_UCL`。 -/
def compressUcl : Nat := 0x0c

/-- `uncompress_ucl()`。`none` は、`fuel` 個のブロックでは終わらないことを表す。 -/
def uncompressUcl (env : LoadEnv) : Nat → Mem → Nat → Nat → Option (Except LoadCrash Mem)
  | 0, _, _, _ => none
  | fuel + 1, m, dst, src =>
      let len := (m src).toNat * 256 + (m (src + 1)).toNat
      if len = 0 then some (.ok m)
      else
        let r := env.ucl m (src + 2) len dst
        if r.status ≠ 0 then some (.error .fail)
        else uncompressUcl env fuel r.mem (dst + r.outLen) (src + 2 + len)

/-- `uncompress()`。 -/
def uncompress (env : LoadEnv) (fuel : Nat) (m : Mem) (shdr type dstPaddr srcPaddr : Nat) : Option (Except LoadCrash Mem) :=
  if type = compressUcl then uncompressUcl env fuel m (wrap32 (dstPaddr + paddrBias m shdr)) srcPaddr
  else some (.error .unsupportedCompressionType)

/-! ### `load_ifs()` -/

/-- `shdr->flags1 & STARTUP_HDR_FLAGS1_COMPRESS_MASK`。 -/
def comp (m : Mem) (shdr : Nat) : Nat := flags1 m shdr &&& 0x1c

/-- `load_ifs()` の、圧縮されたイメージの置き場所 `src` を決めるところ。`imagefs_paddr` が 0 なら、空きを探して写す。 -/
def compressedSource (env : LoadEnv) (m : Mem) (shdr ifsPaddr : Nat) : Mem × Nat :=
  if imagefsPaddr m shdr = 0 then
    let src := findRam env.ram (storedSize m shdr) 8 0 0
    (copyIfs env m shdr src ifsPaddr (storedSize m shdr), src)
  else (m, imagefsPaddr m shdr)

/-- `load_ifs()`。 -/
def loadIfs (env : LoadEnv) (fuel : Nat) (m : Mem) (shdr ifsPaddr : Nat) : Option (Except LoadCrash Mem) :=
  if shdr = 0 ∨ imagePaddr m shdr = 0 ∨ startupSize m shdr = 0 then some (.error .imageHeaderCorrupt)
  else if comp m shdr ≠ 0 then
    let (m', src) := compressedSource env m shdr ifsPaddr
    uncompress env fuel m' shdr (comp m shdr) ifsPaddr src
  else if imagefsPaddr m shdr ≠ 0 ∧ imagefsPaddr m shdr ≠ ifsPaddr then
    some (.ok (copyIfs env m shdr ifsPaddr (imagefsPaddr m shdr) (imagefsSize m shdr)))
  else some (.ok m)

end Imx6Bsp.Boot
