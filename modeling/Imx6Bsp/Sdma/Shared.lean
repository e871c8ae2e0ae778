import Imx6Bsp.Lib.Runs

/-!
# SDMA の共有の構造（`lib/dma/sdma`）

`n` 個の process が library を使う。最初の process は channel control block と command descriptor を確保して `MC0PTR` と
`base_bd_paddr` に書き、後の process はその物理番地を写像するだけである。`sdma_init` と `sdma_fini` の共有部分は
`libinit_mutex` を持つ間に行われ、`processinit_mutex` を持つ process の中では一度に一つの呼び出しだけが進む。
-/

namespace Imx6Bsp.Sdma

/-! ## 状態 -/

/-- 呼び出しの進み具合。`out` と `inside` は呼び出しの途中でない。`entering` と `leaving` は `libinit_mutex` を待つ。 -/
inductive Pc
  | out | entering | ccbCreate | cmdchCreate | inside | leaving | destroying
deriving DecidableEq

/-- process の変数。`ccbPtr` と `cmdBdPtr` は写像した物理番地。 -/
structure Proc where
  pc : Pc
  users : Nat
  ccbPtr : Nat
  cmdBdPtr : Nat

/-- `baseBd` は、その番地に置かれた control block の channel 0 の `base_bd_paddr`。`owner` は `mmap` でその番地を確保し、まだ
`munmap` していない process。`resets` は `SDMA_RESET` に書いた回数。 -/
structure State (n : Nat) where
  proc : Fin n → Proc
  libinit : Option (Fin n)
  processCnt : Int
  resets : Nat
  mc0ptr : Nat
  baseBd : Nat → Nat
  owner : Nat → Option (Fin n)

variable {n : Nat}

def State.set (s : State n) (p : Fin n) (x : Proc) : State n := { s with proc := Function.update s.proc p x }

/-- `sdmasync_is_first_process`。 -/
def State.isFirst (s : State n) : Bool := s.processCnt = 1

/-- `MAP_PHYS|MAP_ANON` の `mmap`。 -/
def State.mmap (s : State n) (p : Fin n) (paddr : Nat) : State n := { s with owner := Function.update s.owner paddr (some p) }

/-- `munmap`。自分の確保した番地なら解放され、`mmap_device_memory` の写像なら何も解放されない。 -/
def State.munmap (s : State n) (p : Fin n) (paddr : Nat) : State n :=
  if s.owner paddr = some p then { s with owner := Function.update s.owner paddr none } else s

/-! ## `sdma_init` -/

/-- `sdma_init` の共有部分の前まで。`localOk` は `parse_init_options` から `sdmairq_init` までの成否。 -/
def initBegin (s : State n) (p : Fin n) (localOk : Bool) : State n :=
  let x := s.proc p
  if x.users + 1 = 1 then
    if localOk then s.set p { x with users := x.users + 1, pc := .entering } else s
  else s.set p { x with users := x.users + 1 }

/-- `sdmasync_process_cnt_incr` と `register_init`。 -/
def initShared (s : State n) (p : Fin n) : State n :=
  let s := { s with libinit := some p, processCnt := s.processCnt + 1 }
  let s := s.set p { s.proc p with pc := .ccbCreate }
  if s.isFirst then { s with resets := s.resets + 1 } else s

/-- `fail4` から後。 -/
def initFailed (s : State n) (p : Fin n) : State n :=
  { s with processCnt := s.processCnt - 1, libinit := none }.set p { s.proc p with pc := .out, users := (s.proc p).users - 1 }

/-- `ccb_create`。`paddr` は最初の process の `mmap` が返す番地。 -/
def ccbCreate (s : State n) (p : Fin n) (paddr : Nat) (mapOk offsetOk : Bool) : State n :=
  if !mapOk then initFailed s p
  else if s.isFirst then
    if offsetOk then
      { s.mmap p paddr with mc0ptr := paddr, baseBd := Function.update s.baseBd paddr 0 }.set p
        { s.proc p with pc := .cmdchCreate, ccbPtr := paddr }
    else initFailed ((s.mmap p paddr).munmap p paddr) p
  else s.set p { s.proc p with pc := .cmdchCreate, ccbPtr := s.mc0ptr }

/-- `ccb_destroy` と `fail4` から後。 -/
def ccbFailed (s : State n) (p : Fin n) : State n := initFailed (s.munmap p (s.proc p).ccbPtr) p

/-- `sdmacmd_cmdch_create`。`restOk` は `ChannelCreate` から script の転送までの成否。 -/
def cmdchCreate (s : State n) (p : Fin n) (paddr : Nat) (mapOk offsetOk restOk : Bool) : State n :=
  if !mapOk then ccbFailed s p
  else if s.isFirst then
    if offsetOk then
      let s := { s.mmap p paddr with baseBd := Function.update s.baseBd (s.proc p).ccbPtr paddr }
      if restOk then { s with libinit := none }.set p { s.proc p with pc := .inside, cmdBdPtr := paddr }
      else ccbFailed (s.munmap p paddr) p
    else ccbFailed ((s.mmap p paddr).munmap p paddr) p
  else
    let physical := s.baseBd (s.proc p).ccbPtr
    if restOk then { s with libinit := none }.set p { s.proc p with pc := .inside, cmdBdPtr := physical }
    else ccbFailed (s.munmap p physical) p

/-! ## `sdma_fini` -/

/-- `sdma_fini` の共有部分の前まで。 -/
def finiBegin (s : State n) (p : Fin n) : State n :=
  let x := s.proc p
  s.set p { x with users := x.users - 1, pc := if x.users - 1 = 0 then .leaving else x.pc }

/-- `sdmasync_process_cnt_decr`。 -/
def finiShared (s : State n) (p : Fin n) : State n :=
  { s with libinit := some p, processCnt := s.processCnt - 1 }.set p { s.proc p with pc := .destroying }

/-- `sdmacmd_cmdch_destroy` と `ccb_destroy`。 -/
def finiDestroy (s : State n) (p : Fin n) : State n :=
  let x := s.proc p
  { (s.munmap p x.cmdBdPtr).munmap p x.ccbPtr with libinit := none }.set p { x with pc := .out }

/-! ## 実行 -/

/-- `scribble` は、誰も確保していない番地の内容が変わることである。 -/
inductive Op (n : Nat)
  | initBegin (p : Fin n) (localOk : Bool)
  | initShared (p : Fin n)
  | ccbCreate (p : Fin n) (paddr : Nat) (mapOk offsetOk : Bool)
  | cmdchCreate (p : Fin n) (paddr : Nat) (mapOk offsetOk restOk : Bool)
  | finiBegin (p : Fin n)
  | finiShared (p : Fin n)
  | finiDestroy (p : Fin n)
  | scribble (paddr value : Nat)

/-- 進めるとき。`sdma_fini` は成功した `sdma_init` に対応し、`mmap` は空いている番地を返す。 -/
def Enabled (s : State n) : Op n → Prop
  | .initBegin p _ => (s.proc p).pc = .out ∨ (s.proc p).pc = .inside
  | .initShared p => (s.proc p).pc = .entering ∧ s.libinit = none
  | .ccbCreate p paddr _ _ => (s.proc p).pc = .ccbCreate ∧ s.owner paddr = none
  | .cmdchCreate p paddr _ _ _ => (s.proc p).pc = .cmdchCreate ∧ s.owner paddr = none
  | .finiBegin p => (s.proc p).pc = .inside
  | .finiShared p => (s.proc p).pc = .leaving ∧ s.libinit = none
  | .finiDestroy p => (s.proc p).pc = .destroying
  | .scribble paddr _ => s.owner paddr = none

def run (s : State n) : Op n → State n
  | .initBegin p localOk => initBegin s p localOk
  | .initShared p => initShared s p
  | .ccbCreate p paddr mapOk offsetOk => ccbCreate s p paddr mapOk offsetOk
  | .cmdchCreate p paddr mapOk offsetOk restOk => cmdchCreate s p paddr mapOk offsetOk restOk
  | .finiBegin p => finiBegin s p
  | .finiShared p => finiShared s p
  | .finiDestroy p => finiDestroy s p
  | .scribble paddr value => { s with baseBd := Function.update s.baseBd paddr value }

instance decidableEnabled (s : State n) : (op : Op n) → Decidable (Enabled s op)
  | .initBegin .. => inferInstanceAs (Decidable (_ ∨ _))
  | .initShared _ => inferInstanceAs (Decidable (_ ∧ _))
  | .ccbCreate .. => inferInstanceAs (Decidable (_ ∧ _))
  | .cmdchCreate .. => inferInstanceAs (Decidable (_ ∧ _))
  | .finiBegin _ => inferInstanceAs (Decidable (_ = _))
  | .finiShared _ => inferInstanceAs (Decidable (_ ∧ _))
  | .finiDestroy _ => inferInstanceAs (Decidable (_ = _))
  | .scribble .. => inferInstanceAs (Decidable (_ = _))

def step (s : State n) (op : Op n) : Except Unit (State n) := if Enabled s op then .ok (run s op) else .error ()

/-- どの process も始めていない。 -/
def init (n : Nat) : State n := ⟨fun _ => ⟨.out, 0, 0, 0⟩, none, 0, 0, 0, fun _ => 0, fun _ => none⟩

end Imx6Bsp.Sdma
