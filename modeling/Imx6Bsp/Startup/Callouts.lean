import Imx6Bsp.Lib.Bytes
import Imx6Bsp.Startup.Basic

/-!
# コールアウトの書き出し（`callouts.c`）

コールアウトの枠は、初めは `struct callout_rtn` を指し、書き出しの後はシステムページに写した命令列の番地を持つ。
`struct callout_rtn` はビルドで決まる定数なので、番地から中身への関数 `rtns` で与える。`patch_data` と `rw_addrs` の一覧は
先頭から並べる。
-/

namespace Imx6Bsp.Startup

open Imx6Bsp.Lib

/-- `struct callout_rtn`。`rwSize` は `rw_size` のポインタ、`patcher` は関数のポインタで、0 は `NULL` である。 -/
structure CalloutRtn where
  rwSize : Nat
  patcher : Nat
  code : List UInt8
deriving DecidableEq, Repr

/-- `patch_data` の `struct co_info`。 -/
structure CoInfo where
  owner : Nat
  data : Nat
deriving DecidableEq, Repr

/-! ## 書き換えのデータ -/

/-- `callout_register_data()`。枠 `rp` の値は `mem` から読む。 -/
def calloutRegisterData (rtns : Nat → CalloutRtn) (mem : Mem) (rp data : Nat) (pd : List CoInfo) : List CoInfo :=
  let rtn := mem.readLE rp 4
  if data ≠ 0 ∧ rtn ≠ 0 ∧ (rtns rtn).patcher ≠ 0 then
    if pd.any (·.owner = rp) then pd else ⟨rp, data⟩ :: pd
  else pd

/-- `callout_reloc_data()`。 -/
def calloutRelocData (base len diff : Nat) (pd : List CoInfo) : List CoInfo :=
  pd.map fun d => if base ≤ d.owner ∧ wrap32 (base + len) > d.owner then { d with owner := wrap32 (d.owner + diff) } else d

/-- `callout_output_one()` が枠 `rp` のデータを探すところ。0 は `NULL` である。 -/
def patchDataOf (pd : List CoInfo) (rp : Nat) : Nat :=
  match pd.find? (·.owner = rp) with
  | some d => d.data
  | none => 0

/-! ## 書き出し -/

/-- `rw_addrs` の `struct co_info`。 -/
structure RwInfo where
  ptr : Nat
  off : Nat
deriving DecidableEq, Repr

/-- `patcher` の引数。 -/
structure PatchArgs where
  paddr : Nat
  vaddr : Nat
  rtnOffset : Nat
  rwOffset : Nat
  data : Nat
  rtn : Nat
deriving DecidableEq, Repr

/-- ビルドで決まるもの。`rwVal` は `rw_size` の指す値、`patch` は `patcher` の働きである。 -/
structure CalloutDefs where
  rtns : Nat → CalloutRtn
  rwVal : Nat → Nat
  patch : Nat → PatchArgs → Mem → Mem

/-- 書き出すときの番地。ARM では `_syspage_ptr` と `syspage_paddr` は同じ値である。`totalSizePtr` と `kernPtr` は
`lsp.syspage.p->total_size` と `lsp.system_private.p->kern_syspageptr` の番地である。 -/
structure PageRefs where
  syspagePtr : Nat
  totalSizePtr : Nat
  totalSizeBytes : Nat
  kernPtr : Nat

/-- 書き出した枠と、`patcher` に渡す引数。`patcher` が `NULL` でも、渡すはずの引数を残す。 -/
structure Emission where
  slot : Nat
  args : PatchArgs
deriving DecidableEq, Repr

/-- `rw_addrs` と `rw_size`、`rtn_size`、記憶域、書き出した順の記録。 -/
structure CalloutState where
  mem : Mem
  rwAddrs : List RwInfo := []
  rwSize : Nat := 0
  rtnSize : Nat := 0
  emitted : List Emission := []

/-- `sizing` のときの `callout_output_one()`。`get_co_info()` は一覧の要素を与える。 -/
def calloutSizeOne (defs : CalloutDefs) (st : CalloutState) (rp : Nat) : CalloutState :=
  let rtn := st.mem.readLE rp 4
  if rtn = 0 then st
  else
    let r := defs.rtns rtn
    let st := { st with rtnSize := wrap32 (st.rtnSize + r.code.length) }
    if r.rwSize ≠ 0 then
      if st.rwAddrs.any (·.ptr = r.rwSize) then st
      else
        { st with
          rwAddrs := ⟨r.rwSize, st.rwSize⟩ :: st.rwAddrs
          rwSize := wrap32 (st.rwSize + defs.rwVal r.rwSize) }
    else st

/-- `rw_addrs` から `rw_off` を求めるところ。見つからなければ `NULL` を読むので `none` とする。 -/
def rwOffsetOf (rwAddrs : List RwInfo) (rwSize rwOff : Nat) : Option Nat :=
  if rwSize ≠ 0 then (rwAddrs.find? (·.ptr = rwSize)).map fun rw => wrap32 (rwOff + rw.off) else some rwOff

/-- 最初の枠で、読み書きの領域を 0 で埋め、`rtn_size` を命令列を写す位置にするところ。 -/
def outputInit (refs : PageRefs) (rwOff : Nat) (st : CalloutState) : CalloutState :=
  if st.rtnSize = 0 then
    { st with
      mem := st.mem.zero (wrap32 (refs.syspagePtr + rwOff)) st.rwSize
      rtnSize := wrap32 (rwOff + st.rwSize) }
  else st

theorem outputInit_emitted (refs : PageRefs) (rwOff : Nat) (st : CalloutState) :
    (outputInit refs rwOff st).emitted = st.emitted := by
  unfold outputInit
  split <;> rfl

/-- `sizing` でないときの `callout_output_one()`。 -/
def calloutOutputOne (defs : CalloutDefs) (refs : PageRefs) (pd : List CoInfo) (st : CalloutState) (rp : Nat) :
    Option CalloutState :=
  let rtn := st.mem.readLE rp 4
  if rtn = 0 then some st
  else do
    let r := defs.rtns rtn
    let rwOff := st.mem.readLE refs.totalSizePtr refs.totalSizeBytes
    let st := outputInit refs rwOff st
    let mem := st.mem.copy (wrap32 (refs.syspagePtr + st.rtnSize)) r.code
    let rwOff ← rwOffsetOf st.rwAddrs r.rwSize rwOff
    let vaddr := mem.readLE refs.kernPtr 4
    let args : PatchArgs :=
      { paddr := refs.syspagePtr, vaddr, rtnOffset := st.rtnSize, rwOffset := rwOff, data := patchDataOf pd rp, rtn }
    let mem := if r.patcher ≠ 0 then defs.patch r.patcher args mem else mem
    return { st with
      mem := mem.writeLE rp 4 (wrap32 (vaddr + st.rtnSize))
      rtnSize := wrap32 (st.rtnSize + r.code.length)
      emitted := st.emitted ++ [⟨rp, args⟩] }

/-- `output_callouts(1)`。枠の番地の列を順に見る。 -/
def outputCalloutsSizing (defs : CalloutDefs) (st : CalloutState) (slots : List Nat) : CalloutState × Nat :=
  let st := slots.foldl (calloutSizeOne defs) st
  let rwSize := round st.rwSize 8
  ({ st with rwSize, rtnSize := 0 }, wrap32 (round st.rtnSize 8 + rwSize))

/-- `output_callouts(0)`。 -/
def outputCallouts (defs : CalloutDefs) (refs : PageRefs) (pd : List CoInfo) (st : CalloutState) (slots : List Nat) :
    Option CalloutState := do
  let st ← slots.foldlM (calloutOutputOne defs refs pd) st
  return { st with rwSize := round st.rwSize 8 }

/-- `alloc_syspage_memory()` の求める大きさ。`asinfoSize` は `sizeof(struct asinfo_entry)` である。 -/
def syspageSize (totalSize calloutsSize asinfoSize : Nat) : Nat := wrap32 (totalSize + calloutsSize + 4 * asinfoSize)

end Imx6Bsp.Startup
