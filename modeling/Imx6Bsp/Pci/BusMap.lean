import Imx6Bsp.Lib.Runs

/-!
# PCI のバスの表（`pci/server.c`）

`BUSMAP` を番号で指す表とし、`alloc_bus()` と `find_bus()`、`make_name()` を写す。`find_bus()` は回数の上限を付けて書き、上限に達したら
外側の `none` を返す。バスの番号は 8 ビットである。名前 `res_name` は、種類とバスの番号の並びから作る文字列である。
-/

namespace Imx6Bsp.Pci

/-- `BUSMAP` のうち、バスの木を作る欄。 -/
structure BusNode where
  next : Option Nat := none
  prev : Option Nat := none
  peer : Option Nat := none
  primaryBus : Nat
  secondaryBus : Nat
  subordinateBus : Nat := 0
deriving DecidableEq, Repr

/-- `pci_bridges` の項目のうち、`alloc_bus()` が見る欄。 -/
structure PciBridge where
  bus : Nat
  secBus : Nat
  subBus : Nat
deriving DecidableEq, Repr

/-- `bus_map` の先頭は番号 0 である。 -/
structure BusState where
  nodes : List BusNode := []
  endbus : Nat := 0
  lastbus : Nat := 0
  bridges : List PciBridge := []
deriving DecidableEq, Repr

/-! ## `find_bus()` -/

/-- `find_bus()` が次に見る項目。 -/
def BusNode.follow (n : BusNode) (bus : Nat) : Option Nat :=
  if n.secondaryBus < bus then
    if n.subordinateBus < bus then n.peer <|> n.next
    else n.next <|> n.peer
  else n.peer

def findBusLoop (nodes : List BusNode) (bus : Nat) : Option Nat → Nat → Option (Option Nat)
  | none, _ => some none
  | some _, 0 => none
  | some i, fuel + 1 =>
      match nodes[i]? with
      | none => some none
      | some n => if n.secondaryBus = bus then some (some i) else findBusLoop nodes bus (n.follow bus) fuel

/-- `find_bus()`。 -/
def findBus (s : BusState) (bus : Nat) : Option (Option Nat) :=
  findBusLoop s.nodes bus (if s.nodes = [] then none else some 0) (s.nodes.length + 1)

/-! ## `alloc_bus()` -/

/-- 項目の欄を書き換える。 -/
def setNode (nodes : List BusNode) (i : Nat) (f : BusNode → BusNode) : List BusNode := nodes.modify i f

/-- `alloc_bus()` の、兄弟の並びに加える繰り返し。番号 `k` の新しい項目は表の最後にある。 -/
def insertPeer (k secbus : Nat) : Nat → Nat → List BusNode → Option (List BusNode)
  | _, 0, _ => none
  | i, fuel + 1, nodes => do
      let n ← nodes[i]?
      match n.peer with
      | none => return setNode nodes i fun n => { n with peer := some k }
      | some j =>
          let m ← nodes[j]?
          if m.secondaryBus > secbus then
            let nodes := setNode nodes k fun n => { n with peer := some j }
            let nodes := setNode nodes j fun n => { n with prev := some k }
            return setNode nodes i fun n => { n with peer := some k }
          else insertPeer k secbus j fuel nodes

/-- `alloc_bus()` の、親 `i` の下に加えるところ。 -/
def linkBus (nodes : List BusNode) (i pribus secbus : Nat) : Option (List BusNode) := do
  let k := nodes.length
  let parent ← nodes[i]?
  let nodes := nodes ++ [{ primaryBus := pribus, secondaryBus := secbus, prev := some i }]
  match parent.next with
  | none => return setNode nodes i fun n => { n with next := some k }
  | some c =>
      let child ← nodes[c]?
      if child.primaryBus = pribus then insertPeer k secbus c nodes.length nodes
      else return nodes

/-- `alloc_bus()` の、`lastbus` と `subordinate_bus` を直すところ。新しい項目は表の最後にある。 -/
def settleBus (s : BusState) (pribus secbus : Nat) : BusState :=
  match s.bridges.find? fun br => br.bus = pribus ∧ br.secBus = secbus with
  | some br =>
      let s :=
        if br.secBus ≥ s.lastbus then
          { s with lastbus := (br.secBus + 1) % 256, nodes := setNode s.nodes 0 fun n => { n with subordinateBus := br.secBus } }
        else s
      { s with nodes := setNode s.nodes (s.nodes.length - 1) fun n => { n with subordinateBus := br.subBus } }
  | none =>
      let lastbus := (s.lastbus + 1) % 256
      if secbus > lastbus then
        { s with lastbus := (secbus + 1) % 256, nodes := setNode s.nodes 0 fun n => { n with subordinateBus := secbus } }
      else { s with lastbus, nodes := setNode s.nodes 0 fun n => { n with subordinateBus := lastbus } }

inductive BusFault
  | noParent
  | endless
deriving DecidableEq, Repr

/-- `alloc_bus()`。`NULL` を返す失敗を `noParent` とする。 -/
def allocBus (s : BusState) (pribus secbus : Nat) : Except BusFault BusState :=
  let s := { s with endbus := if secbus > s.endbus then secbus else s.endbus }
  if s.nodes = [] then .ok (settleBus { s with nodes := [{ primaryBus := pribus, secondaryBus := secbus }] } pribus secbus)
  else
    match findBus s pribus with
    | none => .error .endless
    | some none => .error .noParent
    | some (some i) =>
        match linkBus s.nodes i pribus secbus with
        | none => .error .endless
        | some nodes => .ok (settleBus { s with nodes } pribus secbus)

/-! ## `make_name()` -/

/-- 名前を付ける資源の種類。 -/
inductive NameKind
  | memory
  | ioPort
deriving DecidableEq, Repr

def NameKind.text : NameKind → String
  | .memory => "pcimemory"
  | .ioPort => "io"

/-- `prev` を遡って `primary_bus` を集める繰り返し。 -/
def nameLoop (nodes : List BusNode) : Option Nat → Nat → Option (List Nat)
  | none, _ => some []
  | some _, 0 => none
  | some i, fuel + 1 => do
      let n ← nodes[i]?
      if n.primaryBus = 0 then return []
      let x ← nameLoop nodes n.prev fuel
      return n.primaryBus :: x

/-- `make_name()` が並べるバスの番号。見つからなければ `none` を返す。 -/
def nameBuses (s : BusState) (bus : Nat) : Option (List Nat) :=
  if bus = 0 then some [0]
  else do
    let i ← (← findBus s bus)
    let n ← s.nodes[i]?
    let x ← if n.primaryBus ≠ 0 then nameLoop s.nodes n.prev s.nodes.length else some []
    return (bus :: x ++ [0]).reverse

/-- 種類とバスの番号の並びの名前。 -/
def nameText (kind : NameKind) (buses : List Nat) (pref : Bool) : String :=
  buses.foldl (fun t b => t ++ "/Bus" ++ toString b) kind.text ++ if pref then "-pref" else ""

/-- `make_name()`。 -/
def makeName (s : BusState) (kind : NameKind) (bus : Nat) (pref : Bool) : Option String :=
  (nameBuses s bus).map fun buses => nameText kind buses pref

/-! ## 呼び出しの列 -/

/-- `alloc_bus()` の呼び出しと、ほかの関数による `subordinate_bus` の書き換え。 -/
inductive BusCall
  | alloc (pri sec : Nat)
  | setSub (i v : Nat)
deriving DecidableEq, Repr

/-- 状態と、作ったバスの親と番号を順に並べた記録。 -/
structure BusTrace where
  s : BusState
  made : List (Nat × Nat)

def BusTrace.step (t : BusTrace) : BusCall → Except BusFault BusTrace
  | .alloc pri sec => do
      let s ← allocBus t.s pri sec
      return ⟨s, t.made ++ [(pri, sec)]⟩
  | .setSub i v => .ok { t with s := { t.s with nodes := setNode t.s.nodes i fun n => { n with subordinateBus := v } } }

def BusTrace.start (bridges : List PciBridge) : BusTrace := ⟨{ bridges }, []⟩

/-- 作ったバスの番号。 -/
def BusTrace.buses (t : BusTrace) : List Nat := t.made.map Prod.snd

/-- 呼び出しの前提。最初は `alloc_bus(0, 0)` で、その後の親は作ったバス、番号は新しい。 -/
def BusTrace.InDomain (t : BusTrace) : BusCall → Prop
  | .alloc pri sec => if t.made = [] then pri = 0 ∧ sec = 0 else pri ∈ t.buses ∧ sec ∉ t.buses ∧ sec < 256
  | .setSub _ _ => True

/-- バスはすべてバス 0 の下に作り、二つ目からは、二つ目以降のどのバスよりも大きい番号で作る。 -/
def BusTrace.Flat (t : BusTrace) : BusCall → Prop
  | .alloc pri sec => pri = 0 ∧ ∀ b ∈ t.buses.drop 2, b < sec
  | .setSub _ _ => True

instance BusTrace.decidableInDomain (t : BusTrace) : (c : BusCall) → Decidable (t.InDomain c)
  | .alloc pri sec =>
      inferInstanceAs (Decidable (if t.made = [] then pri = 0 ∧ sec = 0 else pri ∈ t.buses ∧ sec ∉ t.buses ∧ sec < 256))
  | .setSub _ _ => .isTrue trivial

instance BusTrace.decidableFlat (t : BusTrace) : (c : BusCall) → Decidable (t.Flat c)
  | .alloc _ _ => inferInstanceAs (Decidable (_ ∧ _))
  | .setSub _ _ => .isTrue trivial

/-- 記録によるバスの親。 -/
def BusTrace.parent (t : BusTrace) (b : Nat) : Option Nat := (t.made.find? fun e => e.2 = b).map Prod.fst

/-- 記録による、バス 0 までの祖先の並び。 -/
def BusTrace.ancestors (t : BusTrace) : Nat → Nat → List Nat
  | _, 0 => []
  | b, fuel + 1 =>
      if b = 0 then []
      else
        match t.parent b with
        | none => []
        | some p => p :: t.ancestors p fuel

/-- 項目の `prev` を遡ったバスの並び。 -/
def prevChain (nodes : List BusNode) : Option Nat → Nat → Option (List Nat)
  | none, _ => some []
  | some _, 0 => none
  | some i, fuel + 1 => do
      let n ← nodes[i]?
      let x ← prevChain nodes n.prev fuel
      return n.secondaryBus :: x

/-- バスの表の正しさ。 -/
structure BusTrace.Correct (t : BusTrace) : Prop where
  found : ∀ b ∈ t.buses, ∃ i n, findBus t.s b = some (some i) ∧ t.s.nodes[i]? = some n ∧ n.secondaryBus = b ∧
    prevChain t.s.nodes n.prev t.s.nodes.length = some (t.ancestors b t.made.length)
  missing : ∀ b ∉ t.buses, findBus t.s b = some none
  name : ∀ b ∈ t.buses, ∀ kind pref,
    makeName t.s kind b pref = some (nameText kind (b :: t.ancestors b t.made.length).reverse pref)

end Imx6Bsp.Pci
