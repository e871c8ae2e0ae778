import Imx6Bsp.Lib.Copying
import Imx6Bsp.Startup.PageTable

/-!
# ブートストラップの実行形式の読み込み（`elf.c`、`memfuncs.c`）

記憶域は物理番地で表す。`MAKE_1TO1_PTR()` と `startup_memory_map()` は、物理番地をそのまま指すポインタを返す。`elf_map()` の
呼び出しは、引数を `mappings` に並べて残す。`calloc_ram()` が返す番地は、これまでの割り当てと大きさの関数 `alloc` で与える。
ARM では `BOOTSTRAPS_RUN_ONE_TO_ONE` は 0 である。
-/

namespace Imx6Bsp.Startup.Elf

open Imx6Bsp.Lib

/-- `Elf32_Phdr`。 -/
structure Phdr where
  pType : Nat
  pOffset : Nat
  pVaddr : Nat
  pPaddr : Nat
  pFilesz : Nat
  pMemsz : Nat
  pFlags : Nat

/-- `PT_LOAD`。 -/
def ptLoad : Nat := 1

/-- `PF_W`。 -/
def pfW : Nat := 2

/-- `PAGEBITS`。 -/
def pageBits : Nat := pageSize - 1

/-- `mdriver_max`。 -/
def mdriverMax : Nat := 16 * 1024

/-- `elf_map()` の引数。 -/
structure Mapping where
  vaddr : Nat
  paddr : Nat
  size : Nat
  flags : Nat

/-- 読み込みの途中の状態。`blocks` は `calloc_ram()` が返した番地と大きさの列である。 -/
structure LoadState where
  mem : Mem
  mappings : List Mapping
  blocks : List (Nat × Nat)
  bootVaddrBase : Nat
  bootVaddrEnd : Nat

/-- 読み込みの間は変わらない値。 -/
structure LoadEnv where
  /-- `lsp.mdriver.size > 0`。 -/
  mdriver : Bool
  alloc : List (Nat × Nat) → Nat → Nat

/-! ## 割り当てと複写 -/

/-- `calloc_ram()`。 -/
def callocRam (env : LoadEnv) (s : LoadState) (size : Nat) : LoadState × Nat :=
  let a := env.alloc s.blocks size
  ({ s with mem := if a ≠ nullPaddr then s.mem.fill a size fun _ => 0 else s.mem, blocks := s.blocks ++ [(a, size)] }, a)

/-- `copy_memory()` の繰り返し。 -/
def copyMemoryLoop (max : Nat) : (fuel : Nat) → Mem → (dst src len : Nat) → Mem
  | 0, m, _, _, _ => m
  | fuel + 1, m, dst, src, len =>
      let amount := if len > max then max else len
      let m := m.fill dst amount fun i => m (wrap32 (src + i))
      let len := len - amount
      if len = 0 then m else copyMemoryLoop max fuel m (wrap32 (dst + amount)) (wrap32 (src + amount)) len

/-- `copy_memory()`。 -/
def copyMemory (env : LoadEnv) (m : Mem) (dst src len : Nat) : Mem :=
  copyMemoryLoop (if env.mdriver then mdriverMax else len) (len + 1) m dst src len

def elfMap (s : LoadState) (vaddr paddr size flags : Nat) : LoadState :=
  { s with mappings := s.mappings ++ [⟨vaddr, paddr, size, flags⟩] }

/-! ## `load_elf32mmu()` -/

/-- `ROUNDPG`。 -/
def roundPg (x : Nat) : Nat := round x pageSize

/-- `boot_vaddr_base` と `boot_vaddr_end` の更新。 -/
def growBootVaddr (s : LoadState) (vaddr memsz : Nat) : LoadState :=
  { s with
    bootVaddrBase := if s.bootVaddrBase = 0 ∨ s.bootVaddrBase > vaddr then vaddr else s.bootVaddrBase
    bootVaddrEnd := if s.bootVaddrEnd < wrap32 (vaddr + memsz) then wrap32 (vaddr + memsz) else s.bootVaddrEnd }

/-- `p_paddr` が 0 でない区画。 -/
def loadInPlace (env : LoadEnv) (phdr : Phdr) (vaddr paddr filesz memsz : Nat) (s : LoadState) : LoadState :=
  -- `mkifs` が `.bss` まで詰めた区画
  let (filesz, memsz) := if phdr.pMemsz = phdr.pFilesz then (roundPg filesz, roundPg filesz) else (filesz, memsz)
  let whole := bic filesz pageBits
  let s := elfMap s vaddr paddr whole phdr.pFlags
  let memsz := roundPg (wrap32 (memsz + (2 ^ 32 - whole)))
  if memsz ≠ 0 then
    let (s, daddr) := callocRam env s memsz
    let s := { s with mem := copyMemory env s.mem daddr (wrap32 (paddr + whole)) (filesz &&& pageBits) }
    elfMap s (wrap32 (vaddr + whole)) daddr memsz phdr.pFlags
  else s

/-- `p_paddr` が 0 の区画。 -/
def loadCopied (env : LoadEnv) (addr : Nat) (phdr : Phdr) (vaddr filesz memsz : Nat) (s : LoadState) : LoadState :=
  let (s, daddr) := callocRam env s (roundPg memsz)
  let src := wrap32 (wrap32 (addr + phdr.pOffset) + (2 ^ 32 - (phdr.pVaddr &&& pageBits)))
  let s := { s with mem := copyMemory env s.mem daddr src filesz }
  elfMap s vaddr daddr memsz phdr.pFlags

/-- `PT_LOAD` の区画の読み込み。 -/
def loadSegment (env : LoadEnv) (addr : Nat) (s : LoadState) (phdr : Phdr) : LoadState :=
  let memsz := wrap32 (phdr.pMemsz + (phdr.pVaddr &&& pageBits))
  let filesz := wrap32 (phdr.pFilesz + (phdr.pVaddr &&& pageBits))
  let vaddr := bic phdr.pVaddr pageBits
  let paddr := bic phdr.pPaddr pageBits
  let s := growBootVaddr s vaddr memsz
  let (filesz, memsz) :=
    if phdr.pFlags &&& pfW = 0 ∧ memsz = filesz then (roundPg filesz, roundPg filesz) else (filesz, memsz)
  if phdr.pPaddr ≠ 0 then loadInPlace env phdr vaddr paddr filesz memsz s
  else loadCopied env addr phdr vaddr filesz memsz s

/-- `load_elf32mmu()`。 -/
def loadElf32mmu (env : LoadEnv) (addr : Nat) (phdrs : List Phdr) (s : LoadState) : LoadState :=
  phdrs.foldl (fun s phdr => if phdr.pType = ptLoad then loadSegment env addr s phdr else s) s

end Imx6Bsp.Startup.Elf
