import Imx6Bsp.Startup.Asinfo

/-!
# RAM の割り当て（`ram.c`）

`ram.c` の静的変数を `Ram` に、配列 `avoid_list` と `ram_list` を番兵より前の項目の並びに表す。`ram_list` の項目は
大きさが 0 にならないので、番兵までの繰り返しは並び全体の繰り返しになる。`avoid_list` の番兵は `end == 0` で、途中の
項目の `end` が 0 でありうるので、繰り返しはその判定を残す。`if(avoid_list == NULL) ws_init();` は、`wsInit` の結果から
始めることで表す。
-/

namespace Imx6Bsp.Startup

open Imx6Bsp.Lib

/-- `struct ram_entry`。 -/
structure RamEntry where
  addr : Nat
  size : Nat
deriving DecidableEq, Repr

/-- `struct avoid_entry`。`stop` は `end` である。 -/
structure AvoidEntry where
  start : Nat
  stop : Nat
deriving DecidableEq, Repr

/-- `struct startup_header` のうち、割り当てと二つ目の IFS の読み込みが読む欄。 -/
structure StartupHeader where
  ramPaddr : Nat
  ramSize : Nat
  startupSize : Nat
  imagefsPaddr : Nat := 0
  storedSize : Nat := 0
deriving DecidableEq, Repr

/-- `ram.c` の静的変数と `lsp.asinfo`。 -/
structure Ram where
  sysramAdded : Bool := false
  wsEarlyNext : Nat
  tempSyspage : Nat := nullPaddr
  avoidList : List AvoidEntry
  ramList : List RamEntry := []
  watchList : List Nat := []
  asinfo : Asinfo := []
deriving DecidableEq, Repr

/-! ## 一覧の容量 -/

/-- `MAX_RAM_LIST_SIZE`。 -/
def maxRamListSize : Nat := 3 * 1024

/-- `MAX_AVOID_LIST_SIZE`。 -/
def maxAvoidListSize : Nat := 1 * 1024

/-- `TEMP_SYSPAGE_SIZE`。 -/
def tempSyspageSize : Nat := round (32 * 1024) pageSize

/-- `ram_list_size`。番兵を含むバイト数である。 -/
def ramListSize (l : List RamEntry) : Nat := 16 * (l.length + 1)

/-- `avoid_list_size`。番兵を含むバイト数である。 -/
def avoidListSize (l : List AvoidEntry) : Nat := 8 * (l.length + 1)

/-! ## `add_mem` -/

/-- `add_mem()` の差し込みの位置を探す繰り返しと、差し込み。 -/
def addMemInsert (start size : Nat) : List RamEntry → List RamEntry
  | [] => [⟨start, size⟩]
  | r :: rest => if r.addr > start then ⟨start, size⟩ :: r :: rest else r :: addMemInsert start size rest

/-- `add_mem()` の併合の繰り返し。`prev` が `r[-1]` である。 -/
def addMemMerge : RamEntry → List RamEntry → List RamEntry
  | prev, [] => [prev]
  | prev, r :: rest =>
      let e := prev.addr + prev.size
      let s := r.addr
      if s ≤ e then
        let e' := if s + r.size > e then s + r.size else e
        addMemMerge { prev with size := e' - prev.addr } rest
      else prev :: addMemMerge r rest

/-- `add_mem()`。 -/
def addMem (l : List RamEntry) (start size : Nat) : Except Crash (List RamEntry) :=
  if size > 0 then
    if ramListSize l > maxRamListSize - 16 then .error .ramEntryArrayOverflow
    else
      match addMemInsert start size l with
      | [] => .ok []
      | r :: rest => .ok (addMemMerge r rest)
  else .ok l

/-! ## `find_ram` -/

/-- `fix_size()`。候補 `[s, e)` を避ける範囲 `[as, ae)` で狭める。`none` は候補がなくなったことを表す。 -/
def fixSize (s e as ae : Nat) : Option (Nat × Nat) :=
  if s ≥ ae ∨ e ≤ as then some (s, e)
  else if s ≥ as then
    if e ≤ ae then none else some (ae, e)
  else if e < ae then some (s, as)
  else if as - s > e - ae then some (s, as)
  else some (ae, e)

/-- 候補を `avoid_list` の項目で順に狭める繰り返し。 -/
def avoidWalk : List AvoidEntry → Nat → Nat → Option (Nat × Nat)
  | [], s, e => some (s, e)
  | a :: rest, s, e =>
      if a.stop = 0 then some (s, e)
      else
        match fixSize s e a.start a.stop with
        | none => none
        | some (s', e') => avoidWalk rest s' e'

/-- `find_top_ram_aligned()` の繰り返し。`size` は切り上げた後の大きさ、`top` はそれまでの最大の番地である。 -/
def findTopWalk (av : List AvoidEntry) (size align : Nat) : List RamEntry → Nat → Nat
  | [], top => top
  | r :: rest, top =>
      match avoidWalk av r.addr (r.addr + r.size) with
      | none => findTopWalk av size align rest top
      | some (s, e) =>
          if e - s ≥ size then
            let chk := if align ≠ 0 then trunc (e - size) align else wrap32 (e - size)
            findTopWalk av size align rest (if chk ≥ s ∧ chk > top then chk else top)
          else findTopWalk av size align rest top

/-- `find_top_ram_aligned()`。 -/
def findTopRamAligned (s : Ram) (size align pagesize : Nat) : Nat :=
  let top := findTopWalk s.avoidList (round size pagesize) align s.ramList 0
  if top = 0 then nullPaddr else top

/-- `find_ram_in_range()` が、狭めた候補の先頭 `s` から番地を決めるまで。 -/
def placeAddr (s align colour mask rangeStart : Nat) : Nat :=
  let addr := round s align
  let addr :=
    if addr &&& mask ≠ colour then
      let incr := wrap32 ((wrap32 (mask + (2 ^ 32 - 1)) ||| mask) + 1)
      (wrap32 (addr + incr) &&& (2 ^ 32 - 1 - mask)) ||| colour
    else addr
  if rangeStart ≠ 0 ∧ addr < rangeStart then rangeStart else addr

/-- `find_ram_in_range()` の繰り返し。 -/
def findRamWalk (av : List AvoidEntry) (rangeStart rangeEnd size align colour mask : Nat) :
    List RamEntry → Nat
  | [] => nullPaddr
  | r :: rest =>
      match avoidWalk av r.addr (r.addr + r.size) with
      | none => findRamWalk av rangeStart rangeEnd size align colour mask rest
      | some (s, e) =>
          let addr := placeAddr s align colour mask rangeStart
          let e := if rangeEnd ≠ 0 ∧ e > rangeEnd then rangeEnd else e
          if addr ≥ e then findRamWalk av rangeStart rangeEnd size align colour mask rest
          else if size ≤ e - addr then addr
          else findRamWalk av rangeStart rangeEnd size align colour mask rest

/-- `find_ram_in_range()`。 -/
def findRamInRange (s : Ram) (rangeStart rangeEnd size align colour mask : Nat) : Nat :=
  findRamWalk s.avoidList rangeStart rangeEnd size align colour mask s.ramList

/-- `find_ram()`。 -/
def findRam (s : Ram) (size align colour mask : Nat) : Nat :=
  findRamInRange s 0 maxPaddr32 size align colour mask

/-! ## `alloc_ram` -/

/-- `alloc_ram()` の `ram_list` を歩く繰り返し。`i` は `r - ram` である。要素を消した周では `i` を進めない。 -/
def allocRamWalk (addr stop : Nat) : Nat → Nat → List RamEntry → Except Crash (List RamEntry)
  | 0, _, l => .ok l
  | fuel + 1, i, l =>
      match l[i]? with
      | none => .ok l
      | some r =>
          let s := r.addr
          let e := s + r.size
          if (addr ≤ s ∧ stop > s) ∨ (addr ≥ s ∧ addr < e) ∨ (stop ≥ s ∧ stop < e) then
            let e := if stop > e then stop else e
            let s := if addr < s then addr else s
            if addr = s ∧ stop = e then allocRamWalk addr stop fuel i (l.eraseIdx i)
            else if addr = s then allocRamWalk addr stop fuel (i + 1) (l.set i ⟨stop, e - stop⟩)
            else
              let l := l.set i { r with size := addr - s }
              if e ≠ stop then do
                let l ← addMem l (wrap32 stop) (wrap32 (e - stop))
                allocRamWalk addr stop fuel (i + 1) l
              else allocRamWalk addr stop fuel (i + 1) l
          else allocRamWalk addr stop fuel (i + 1) l

/-- `alloc_ram()` の `"sysram"` の項目を直す繰り返し。`stop` は取り除く範囲の最後の番地である。 -/
def allocSysramWalk (addr stop : Nat) : Nat → Option Nat → Asinfo → Except Crash Asinfo
  | 0, _, as => .ok as
  | fuel + 1, off, as =>
      match asFindContaining as off addr (wrap32 stop) "sysram" with
      | none => .ok as
      | some o =>
          match as[o]? with
          | none => .ok as
          | some w =>
              let e := if stop > w.stop then stop else w.stop
              let s := if addr < w.start then addr else w.start
              if addr = s ∧ stop = e then .error .cantRemoveWholeSysramEntry
              else if addr = s then
                allocSysramWalk addr stop fuel (some o) (as.set o { w with start := stop + 1 })
              else
                let as := as.set o { w with stop := addr - 1 }
                let as := if e ≠ stop then (asAdd as (stop + 1) e .ram "sysram" w.owner).1 else as
                allocSysramWalk addr stop fuel (some o) as

/-- `alloc_ram()` の番地の決め方。 -/
def allocAddr (s : Ram) (addr size align : Nat) : Nat :=
  if addr = nullPaddr then findRam s size align 0 0 else addr

/-- `alloc_ram()`。返す番地が `nullPaddr` のとき、何も割り当てていない。 -/
def allocRam (s : Ram) (addr size align : Nat) : Except Crash (Ram × Nat) := do
  let addr := allocAddr s addr size align
  if addr = nullPaddr then return (s, nullPaddr)
  let stop := wrap32 (addr + size)
  let ramList ← allocRamWalk addr stop (2 * s.ramList.length + 1) 0 s.ramList
  if s.sysramAdded then
    let last := (stop + (2 ^ 64 - 1)) % 2 ^ 64
    let asinfo ← allocSysramWalk addr last (2 * s.asinfo.length + 2) none s.asinfo
    return ({ s with ramList, asinfo }, addr)
  return ({ s with ramList }, addr)

/-- `calloc_ram()` の割り当て。割り当てた範囲を 0 で埋める。 -/
def callocRam (s : Ram) (mem : Nat → UInt8) (size align : Nat) : Except Crash (Ram × (Nat → UInt8) × Nat) := do
  let (s', a) ← allocRam s nullPaddr size align
  if a ≠ nullPaddr then
    return (s', (fun x => if a ≤ x ∧ x < a + size then 0 else mem x), a)
  return (s', mem, a)

/-! ## `avoid_ram` と `ws_alloc` -/

/-- `avoid_ram()`。 -/
def avoidRam (s : Ram) (start size : Nat) : Ram :=
  { s with avoidList := s.avoidList ++ [⟨start, wrap32 (start + size)⟩] }

/-- `ws_alloc()` が置く番地の決め方。`size` は切り上げた後の大きさである。 -/
def wsPlace (s : Ram) (size : Nat) : Option Nat :=
  if ramListSize s.ramList ≤ 16 then some s.wsEarlyNext
  else if findRam s size 8 0 0 = nullPaddr then none
  else some (findRam s size 8 0 0)

/-- `ws_alloc()`。`none` は `NULL` である。 -/
def wsAlloc (s : Ram) (size : Nat) : Ram × Option Nat :=
  let size := round size 8
  match wsPlace s size with
  | none => (s, none)
  | some paddr =>
      let next := if ramListSize s.ramList ≤ 16 then wrap32 (s.wsEarlyNext + size) else s.wsEarlyNext
      (avoidRam { s with wsEarlyNext := next } paddr size, some paddr)

/-- `ws_init()`。`ram_list` の置き場所も `ws_alloc()` で取る。 -/
def wsInit (hdr : StartupHeader) : Ram :=
  let next := round (hdr.ramPaddr + hdr.ramSize) 8
  let s : Ram :=
    { wsEarlyNext := wrap32 (next + round maxAvoidListSize 8)
      avoidList := [⟨next, wrap32 (next + round maxAvoidListSize 8)⟩] }
  avoidRam (wsAlloc s maxRamListSize).1 hdr.ramPaddr hdr.startupSize

/-- `watch_add_ram()`。`struct watch_entry` は 8 バイトである。 -/
def watchAddRam (s : Ram) (func : Nat) : Except Crash Ram :=
  match wsAlloc s 8 with
  | (_, none) => .error .noMemoryForWatcher
  | (s', some _) => .ok { s' with watchList := func :: s'.watchList }

/-! ## `add_ram` と `add_sysram`、`reserve_ram` -/

/-- `add_ram()` が `lsp.asinfo` の最初の項目を作るところ。i.MX6 の `init_asinfo()` は何もしない。 -/
def initRamAsinfo (as : Asinfo) : Asinfo :=
  if as.length = 0 then
    let (as, mem) := asDefault as
    (asAdd as 0 0xffffffff {} "below4G" (some mem)).1
  else as

/-- `add_ram()` の、`ram_list` に範囲を加えてイメージの部分を取り除くところまで。 -/
def addRamList (hdr : StartupHeader) (s : Ram) (start size : Nat) : Except Crash Ram := do
  let asinfo := initRamAsinfo s.asinfo
  let asinfo := (asAddContaining asinfo start (wrap32 (start + size + (2 ^ 32 - 1))) .ram "ram" "memory").1
  let ramList ← addMem s.ramList start size
  let (s, _) ← allocRam { s with asinfo, ramList } (wrap32 (hdr.ramPaddr + hdr.startupSize))
    (wrap32 (hdr.ramSize + (2 ^ 32 - hdr.startupSize))) 1
  return s

/-- `add_ram()` の、仮のシステムページの移し先を取るところ。取れたらその番地も返す。 -/
def placeTempSyspage (s : Ram) : Ram × Option Nat :=
  if s.tempSyspage = nullPaddr then
    let s := { s with tempSyspage := findRam s tempSyspageSize pageSize 0 0 }
    if s.tempSyspage ≠ nullPaddr then (avoidRam s s.tempSyspage tempSyspageSize, some s.tempSyspage)
    else (s, none)
  else (s, none)

/-- `add_ram()`。`reloc_syspage_memory()` は `SyspageMemory` で扱う。最後の `watch_list` の呼び出しは、登録された
関数がこの後に行う呼び出しの列として表す。 -/
def addRam (hdr : StartupHeader) (s : Ram) (start size : Nat) : Except Crash (Ram × Option Nat) := do
  let s ← addRamList hdr s start size
  return placeTempSyspage s

/-- `add_sysram()` の、`watch_list` を呼び終えた後。 -/
def addSysram (s : Ram) : Ram :=
  { s with
    asinfo := s.ramList.foldl
      (fun as r => (asAddContaining as (wrap32 r.addr) (wrap32 (r.addr + r.size - 1)) .ram "sysram" "ram").1) s.asinfo
    sysramAdded := true }

/-- `reserve_ram()`。選んだ番地を返す。大きさが 0 なら何もしない。 -/
def reserveRam (s : Ram) (size align pagesize : Nat) : Except Crash (Ram × Option Nat) := do
  if size = 0 then return (s, none)
  let align := if align ≠ 0 then align else pagesize
  let reserved := findTopRamAligned s size align pagesize
  if reserved = nullPaddr then .error (.couldNotReserve size)
  let (s, _) ← allocRam s reserved size align
  let asinfo := (asAddContaining s.asinfo reserved (wrap32 (reserved + size + (2 ^ 32 - 1))) .ram "reserved" "ram").1
  return ({ s with asinfo }, some reserved)

end Imx6Bsp.Startup
