import Imx6Bsp.Lib.Runs
import Imx6Bsp.Startup.Basic

/-!
# ページ表（`arm/arm_map.c`）

L1 の表、ページディレクトリ、L2 の表は物理記憶の中の 32 ビットの語の並びであり、物理記憶を番地から語への関数に表す。語の番地は 4 の倍数
である。4 キロバイトの表一つが四つの L2 の表を持ち、4 メガバイトの組を写す。`calloc_ram()` がこれから返すページの列を状態に持つ。定数は
`arm/mmu.h` による。
-/

namespace Imx6Bsp.Startup

open Imx6Bsp.Lib

/-- 物理記憶の語。 -/
abbrev WordMem := Nat → Nat

/-- `x & ~m`。 -/
def bic (x m : Nat) : Nat := x &&& (2 ^ 32 - 1 - m)

/-! ## 定数 -/

def armL1Size : Nat := 16384

def armL2Size : Nat := 1024

/-- `PGMASK`。 -/
def pgMask : Nat := 4095

/-- `ARM_SCMASK`。 -/
def armScMask : Nat := 0xfffff

/-- `ARM_PTP_VALID`。 -/
def armPtpValid : Nat := 3

/-- `ARM_PTP_SC`。 -/
def armPtpSc : Nat := 0x12

/-- `ARM_PTE_RW`。 -/
def armPteRw : Nat := 1

/-- `ARM_PTE_U`。 -/
def armPteU : Nat := 2

/-- `ARM_PTE_CB`。 -/
def armPteCb : Nat := 12

/-- `ARM_MAP_SYSPAGE`。 -/
def armMapSyspage : Nat := 0xffffffff

/-- `ARM_MAP_NOEXEC`。 -/
def armMapNoexec : Nat := 0x80000000

/-- `ARM_STARTUP_BASE`。 -/
def armStartupBase : Nat := 0xfc400000

/-- `struct armv_pte` と、`armv_chip->pte_attr`、`arm_v6_mmu`。 -/
structure ArmvPte where
  upteRo : Nat
  upteRw : Nat
  kpteRo : Nat
  kpteRw : Nat
  maskNc : Nat
  l1Pgtable : Nat
  kscnRo : Nat
  kscnRw : Nat
  kscnCb : Nat
  pteAttr : Nat
  v6 : Bool
deriving DecidableEq, Repr

/-- `armv_pte_v7mp` と `armv_chip_a9mp`。 -/
def armvPteV7mp : ArmvPte where
  upteRo := 2 ||| 12 ||| 0x40 ||| 0x400 ||| 0x220 ||| 0x800
  upteRw := 2 ||| 12 ||| 0x40 ||| 0x400 ||| 0x30 ||| 0x800
  kpteRo := 2 ||| 12 ||| 0x40 ||| 0x400 ||| 0x210
  kpteRw := 2 ||| 12 ||| 0x40 ||| 0x400 ||| 0x10
  maskNc := 12 ||| 0x1c0
  l1Pgtable := 1
  kscnRo := 2 ||| 0x8400 ||| 0x10000
  kscnRw := 2 ||| 0x400 ||| 0x10000
  kscnCb := 12 ||| 0x1000
  pteAttr := 1 ||| (0x40 ||| 12) ||| 0x400
  v6 := true

/-- 静的な変数 `L1_paddr` と `L2_paddr`、`num_cpu`、`STARTUP_HDR_FLAGS1_VIRTUAL`。 -/
structure MmuBase where
  l1Paddr : Nat
  l2Paddr : Nat
  numCpu : Nat
  isVirtual : Bool
deriving DecidableEq, Repr

/-- 物理記憶と、`arm_map()` の静的な変数 `next_addr`、`calloc_ram()` がこれから返すページ。 -/
structure Mmu where
  mem : WordMem
  nextAddr : Nat := armStartupBase
  pages : List Nat

/-- `calloc_ram()` がページを返せない。 -/
inductive MmuFault
  | noPage
deriving DecidableEq, Repr

/-! ## 表への書き込み -/

/-- `CPU_L1_TABLE(cpu)`。`L1_paddr` に加わる `ttb_attr` のビットは除かれる。 -/
def MmuBase.l1Table (b : MmuBase) (cpu : Nat) : Nat := bic (wrap32 (b.l1Paddr + cpu * armL1Size)) 0x7f

/-- `CPU_L2_TABLE(cpu)`。 -/
def MmuBase.l2Table (b : MmuBase) (cpu : Nat) : Nat := wrap32 (b.l2Paddr + cpu * pageSize)

/-- `set_prot()`。 -/
def setProt (k : ArmvPte) (paddr flags : Nat) : Nat :=
  if flags = armMapSyspage then
    if k.v6 then bic (paddr ||| k.upteRw) (0x10 ||| 0x800) else paddr ||| k.upteRo
  else
    let paddr := paddr |||
      (if flags &&& armPteU ≠ 0 then (if flags &&& armPteRw ≠ 0 then k.upteRw else k.upteRo)
      else if flags &&& armPteRw ≠ 0 then k.kpteRw else k.kpteRo)
    let paddr := if flags &&& armPteCb ≠ armPteCb then bic paddr k.maskNc else paddr
    if k.v6 then
      let paddr := paddr ||| (flags &&& (0x400 ||| 0x1c0 ||| armPteCb))
      if flags &&& armMapNoexec ≠ 0 then paddr ||| 1 else paddr
    else paddr ||| (flags &&& (0x3c0 ||| armPteCb))

/-- `map_ptbl_cpu()`。 -/
def mapPtblCpu (k : ArmvPte) (b : MmuBase) (mem : WordMem) (cpu ptbl vaddr : Nat) : WordMem :=
  let pte := b.l2Table cpu + 4 * (vaddr >>> 22)
  let ptp := b.l1Table cpu + 4 * bic (vaddr >>> 20) 3
  let mem := Function.update mem pte (bic (ptbl ||| k.kpteRw) k.maskNc ||| k.pteAttr)
  (List.range 4).foldl (fun mem i => Function.update mem (ptp + 4 * i) (wrap32 (ptbl + i * armL2Size) ||| k.l1Pgtable)) mem

/-- `map_ptbl()`。 -/
def mapPtbl (k : ArmvPte) (b : MmuBase) (mem : WordMem) (pt vaddr : Nat) : WordMem :=
  (List.range b.numCpu).foldl (fun mem cpu => mapPtblCpu k b mem cpu pt vaddr) mem

/-- `arm_pdmap()`。 -/
def armPdmap (k : ArmvPte) (b : MmuBase) (mem : WordMem) (vaddr : Nat) : WordMem :=
  (List.range b.numCpu).foldl (fun mem cpu => mapPtblCpu k b mem cpu (b.l2Table cpu) vaddr) mem

/-- `arm_scmap()` が書く記述子のビット。 -/
def scnProt (k : ArmvPte) (flags : Nat) : Nat :=
  let prot := if flags &&& armPteRw ≠ 0 then k.kscnRw else k.kscnRo
  if flags &&& armPteCb ≠ 0 then prot ||| k.kscnCb else prot

/-- `arm_scmap()`。 -/
def armScmap (k : ArmvPte) (b : MmuBase) (mem : WordMem) (vaddr paddr flags : Nat) : WordMem :=
  (List.range b.numCpu).foldl
    (fun mem cpu => Function.update mem (b.l1Table cpu + 4 * (vaddr >>> 20)) (paddr ||| scnProt k flags)) mem

/-- ページを 0 で埋めた記憶。 -/
def zeroPage (mem : WordMem) (p : Nat) : WordMem := fun x => if p ≤ x ∧ x < p + pageSize then 0 else mem x

/-- `calloc_ram(__PAGESIZE, __PAGESIZE)`。返したページを 0 で埋める。 -/
def callocPage (s : Mmu) : Except MmuFault (Mmu × Nat) :=
  match s.pages with
  | [] => .error .noPage
  | p :: pages => .ok ({ s with mem := zeroPage s.mem p, pages }, p)

/-! ## `arm_map` -/

/-- `arm_map()` の内側の繰り返し。残りの項目の数 `ARM_L2_SIZE - i` について繰り返し、進めた `pa`、`va`、`sz` を返す。 -/
def armMapFill : Nat → WordMem → (pte pa va sz : Nat) → WordMem × Nat × Nat × Nat
  | 0, mem, _, pa, va, sz => (mem, pa, va, sz)
  | n + 1, mem, pte, pa, va, sz =>
      if sz = 0 then (mem, pa, va, sz)
      else armMapFill n (Function.update mem pte pa) (pte + 4) (wrap32 (pa + pageSize)) (wrap32 (va + pageSize)) (sz - pageSize)

/-- 組の L2 の表。なければページを取り、すべての CPU の表に入れる。 -/
def armMapTable (k : ArmvPte) (b : MmuBase) (s : Mmu) (ptp va : Nat) : Except MmuFault (Mmu × Nat) :=
  if s.mem ptp &&& armPtpValid = 0 then do
    let (s, pte) ← callocPage s
    return ({ s with mem := mapPtbl k b s.mem pte va }, pte)
  else return (s, bic (s.mem ptp) pgMask)

/-- `arm_map()` の、CPU ごとの `while(sz)` の繰り返し。一周で一つ以上のページを写す。 -/
def armMapLoop (k : ArmvPte) (b : MmuBase) : Nat → Mmu → (ptp va pa sz : Nat) → Except MmuFault Mmu
  | 0, s, _, _, _, _ => .ok s
  | fuel + 1, s, ptp, va, pa, sz =>
      if sz = 0 then .ok s
      else do
        let (s, pte) ← armMapTable k b s ptp va
        let i := (va >>> 12) &&& (armL2Size - 1)
        let (mem, pa, va, sz) := armMapFill (armL2Size - i) s.mem (pte + 4 * i) pa va sz
        armMapLoop k b fuel { s with mem } (ptp + 16) va pa sz

/-- `arm_map()` の一つの CPU についての周。 -/
def armMapCpuRange (k : ArmvPte) (b : MmuBase) (s : Mmu) (cpu va pa sz : Nat) : Except MmuFault Mmu :=
  armMapLoop k b (sz / pageSize + 1) s (b.l1Table cpu + 4 * bic (va >>> 20) 3) va pa sz

/-- `ROUNDPG(size + off)`。 -/
def roundPg (x : Nat) : Nat := round x pageSize

/-- `arm_map()` が写す範囲の先頭と大きさ。 -/
def armMapRange (s : Mmu) (vaddr paddr size : Nat) : Nat × Nat :=
  (if vaddr = 2 ^ 32 - 1 then s.nextAddr else vaddr, roundPg (wrap32 (size + (paddr &&& pgMask))))

/-- `arm_map()`。 -/
def armMap (k : ArmvPte) (b : MmuBase) (s : Mmu) (vaddr paddr size flags : Nat) : Except MmuFault (Mmu × Nat) :=
  if b.isVirtual then do
    let off := paddr &&& pgMask
    let (va, sz) := armMapRange s vaddr paddr size
    let next := if vaddr = 2 ^ 32 - 1 then wrap32 (s.nextAddr + sz) else s.nextAddr
    let pa := setProt k (bic paddr pgMask) flags
    let s ← (List.range b.numCpu).foldlM (fun s cpu => armMapCpuRange k b s cpu va pa sz) { s with nextAddr := next }
    return (s, wrap32 (va + off))
  else return (s, paddr)

/-- `arm_map_cpu()` が使う表。なければページを取り、その CPU の表だけに入れる。 -/
def armMapCpuTable (k : ArmvPte) (b : MmuBase) (s : Mmu) (cpu ptp va : Nat) : Except MmuFault (Mmu × Nat) :=
  if s.mem ptp &&& armPtpValid = 0 then do
    let (s, pte) ← callocPage s
    return ({ s with mem := mapPtblCpu k b s.mem cpu pte va }, pte)
  else return (s, bic (s.mem ptp) pgMask)

/-- `arm_map_cpu()`。 -/
def armMapCpu (k : ArmvPte) (b : MmuBase) (s : Mmu) (cpu vaddr paddr flags : Nat) : Except MmuFault Mmu := do
  let (s, pte) ← armMapCpuTable k b s cpu (b.l1Table cpu + 4 * bic (vaddr >>> 20) 3) vaddr
  return { s with mem := Function.update s.mem (pte + 4 * ((vaddr >>> 12) &&& (armL2Size - 1))) (setProt k paddr flags) }

/-- `elf_vaddr_to_paddr()`。 -/
def elfVaddrToPaddr (b : MmuBase) (mem : WordMem) (vaddr : Nat) : Nat :=
  let ptp := b.l1Table 0 + 4 * bic (vaddr >>> 20) 3
  if mem ptp &&& armPtpValid = armPtpSc &&& armPtpValid then wrap32 (bic (mem ptp) armScMask + (vaddr &&& armScMask))
  else
    let pte := bic (mem ptp) pgMask + 4 * ((vaddr >>> 12) &&& (armL2Size - 1))
    wrap32 (bic (mem pte) pgMask + (vaddr &&& pgMask))

/-! ## MMU による変換 -/

/-- ARM の二段の変換。L1 の項目はメガバイトごとに一つで、下の二ビットが 2 ならセクション、1 なら 1 キロバイトの L2 の表である。L2 の項目は
小さいページだけを表す。 -/
def hwWalk (b : MmuBase) (mem : WordMem) (cpu vaddr : Nat) : Option Nat :=
  let e := mem (b.l1Table cpu + 4 * (vaddr / 2 ^ 20))
  if e % 4 = 2 then some (bic e armScMask + vaddr % 2 ^ 20)
  else if e % 4 = 1 then
    let p := mem (bic e (armL2Size - 1) + 4 * (vaddr / 2 ^ 12 % 256))
    if p % 4 < 2 then none else some (bic p pgMask + vaddr % 2 ^ 12)
  else none

/-! ## 呼び出しの列 -/

inductive MmuCall
  | scmap (vaddr paddr flags : Nat)
  | map (vaddr paddr size flags : Nat)
  | mapCpu (cpu vaddr paddr flags : Nat)
  | pdmap (vaddr : Nat)
deriving DecidableEq, Repr

def Mmu.step (k : ArmvPte) (b : MmuBase) (s : Mmu) : MmuCall → Except MmuFault Mmu
  | .scmap vaddr paddr flags => .ok { s with mem := armScmap k b s.mem vaddr paddr flags }
  | .map vaddr paddr size flags => (armMap k b s vaddr paddr size flags).map Prod.fst
  | .mapCpu cpu vaddr paddr flags => armMapCpu k b s cpu vaddr paddr flags
  | .pdmap vaddr => .ok { s with mem := armPdmap k b s.mem vaddr }

/-- `init_mmu()` が表を取った後の状態。表の語は 0 である。 -/
def Mmu.start (mem : WordMem) (pages : List Nat) : Mmu := { mem, pages }

end Imx6Bsp.Startup
