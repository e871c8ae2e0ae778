import Imx6Bsp.Pci.BusMap

/-!
# ブリッジの窓の割り当て（`pci/server.c` の `setup_pci_io()`、`setup_pci_mem()`、`setup_pci_pref()`）

三つの関数は、種類と単位だけが違う。バスの表 `BUSMAP` は番号で指し、走査で決まって割り当ての間に変わらない欄を `ApertureEnv` に、
割り当てる窓だけを関数で持つ。`rsrcdbmgr_attach()`、`reserve_resource()`、`configure_bridge_*()` の結果は、与えられた答えとする。
-/

namespace Imx6Bsp.Pci

/-! ## 割り当て -/

/-- 窓の始まりと、終わり（その番地を含む）。 -/
structure Aperture where
  start : Nat := 0
  stop : Nat := 0
deriving DecidableEq, Repr

/-- 表の番号で指した `BUSMAP` の、割り当ての間に変わらない欄と、呼び先の答え。`host` は `bdev->ClassCode` がホストブリッジのもので
あること、`reqd` は走査で足し合わせた必要な大きさ、`grant` は渡された区画の始まりを PCI の番地にしたものである。 -/
structure ApertureEnv where
  findBus : Nat → Option Nat
  prev : Nat → Option Nat
  host : Nat → Bool
  reqd : Nat → Nat
  grant : Option Nat
  reserve : Nat → Bool
  configure : Nat → Aperture → Bool

def meg1 : Nat := 0x100000

/-- `PCI_Startup()` の、必要な大きさの切り上げ。 -/
def roundReqd (unit reqd : Nat) : Nat :=
  if reqd = 0 then 0 else if reqd < unit then unit else if reqd % unit ≠ 0 then (reqd + unit) / unit * unit else reqd

/-- 切り上げた大きさ。 -/
def ApertureEnv.size (env : ApertureEnv) (unit i : Nat) : Nat := roundReqd unit (env.reqd i)

/-- 窓を、`addr` からの `size` バイトまで広げる。`unit` は `KB4` か `MEG1` である。 -/
def Aperture.stretch (unit addr size : Nat) (w : Aperture) : Aperture :=
  if w.start = 0 then ⟨addr, addr + (size - unit + (unit - 1))⟩
  else if addr > w.start then { w with stop := addr + (size - unit + (unit - 1)) }
  else { w with start := addr }

/-- 内側の繰り返し。ブリッジからホストブリッジまで `prev` をたどり、それぞれの窓を広げる。たどる回数を `fuel` で抑える。 -/
def stretchAbove (env : ApertureEnv) (unit addr size : Nat) : (fuel : Nat) → Option Nat → (Nat → Aperture) → Option (Nat → Aperture)
  | _, none, w => some w
  | 0, some _, _ => none
  | fuel + 1, some i, w =>
      if env.host i then some w
      else
        let w := Function.update w i ((w i).stretch unit addr size)
        -- `reserve_resource()` の失敗は、上のブリッジを広げずに次へ進む
        if !env.reserve i then some w
        else if !env.configure i (w i) then none
        else stretchAbove env unit addr size fuel (env.prev i) w

/-- `setup_pci_io()`、`setup_pci_mem()`、`setup_pci_pref()` の繰り返し。`map_addr` は、最初に要るときに得る。 -/
def setupLoop (env : ApertureEnv) (unit fuel : Nat) : (bridges : List Nat) → (mapAddr : Option Nat) → (Nat → Aperture) → Option (Nat → Aperture)
  | [], _, w => some w
  | bus :: bridges, mapAddr, w => do
      let i ← env.findBus bus
      if env.size unit i = 0 ∧ (w i).start = 0 then setupLoop env unit fuel bridges mapAddr w
      else if (w i).start ≠ 0 ∨ (w i).stop ≠ 0 then setupLoop env unit fuel bridges mapAddr w
      else
        let addr ← mapAddr <|> env.grant
        let w ← stretchAbove env unit addr (env.size unit i) fuel (some i) w
        setupLoop env unit fuel bridges (some (addr + env.size unit i)) w

/-- `setup_pci_pref()`。 -/
def setupPciPref (env : ApertureEnv) (fuel : Nat) (bridges : List Nat) (w : Nat → Aperture) : Option (Nat → Aperture) :=
  setupLoop env meg1 fuel bridges none w

/-! ## 求めること -/

/-- ブリッジの分として取った区画。 -/
structure Piece where
  bridge : Nat
  addr : Nat
  size : Nat
deriving DecidableEq, Repr

/-- 大きさのあるブリッジに、順に区画を取る。 -/
def pieces (env : ApertureEnv) (unit : Nat) : (bridges : List Nat) → (addr : Nat) → List Piece
  | [], _ => []
  | i :: bridges, addr =>
      if env.size unit i = 0 then pieces env unit bridges addr
      else ⟨i, addr, env.size unit i⟩ :: pieces env unit bridges (addr + env.size unit i)

/-- 渡された区画の中に、順に取る区画。 -/
def ApertureEnv.taken (env : ApertureEnv) (unit : Nat) (ids : List Nat) : List Piece := pieces env unit ids (env.grant.getD 0)

/-- `i` かその下のブリッジの区画。 -/
def piecesUnder (above : Nat → List Nat) (ps : List Piece) (i : Nat) : List Piece := ps.filter fun p => i ∈ above p.bridge

/-- 並んだ区画の全体を覆う窓。 -/
def hull (ps : List Piece) : Aperture :=
  match ps.head?, ps.getLast? with
  | some first, some last => ⟨first.addr, last.addr + last.size - 1⟩
  | _, _ => {}

variable {env : ApertureEnv} {unit fuel addr size : Nat} {w w' : Nat → Aperture} {above : Nat → List Nat}

theorem hull_append (ps : List Piece) (p : Piece) :
    hull (ps ++ [p]) = if ps = [] then ⟨p.addr, p.addr + p.size - 1⟩ else { hull ps with stop := p.addr + p.size - 1 } := by
  cases ps with
  | nil => rfl
  | cons q ps =>
      rw [if_neg (List.cons_ne_nil q ps)]
      simp only [hull, List.cons_append, List.head?_cons, List.getLast?_append, List.getLast?_cons, Option.some_or,
        List.getLast?_nil]
      rfl

theorem mem_piecesUnder {ps : List Piece} {i : Nat} {p : Piece} : p ∈ piecesUnder above ps i ↔ p ∈ ps ∧ i ∈ above p.bridge := by
  rw [piecesUnder, List.mem_filter, decide_eq_true_eq]

theorem piecesUnder_append (ps : List Piece) (p : Piece) (i : Nat) :
    piecesUnder above (ps ++ [p]) i = piecesUnder above ps i ++ if i ∈ above p.bridge then [p] else [] := by
  rw [piecesUnder, List.filter_append, piecesUnder]
  by_cases h : i ∈ above p.bridge
  · simp [h]
  · simp [h]

/-- `ps` までの区画を取った後。 -/
structure Laying (above : Nat → List Nat) (ps : List Piece) (cur : Nat) (w : Nat → Aperture) : Prop where
  window : ∀ i, w i = hull (piecesUnder above ps i)
  pieces : ∀ p ∈ ps, 0 < p.addr ∧ 0 < p.size ∧ p.addr + p.size ≤ cur

theorem Laying.add {ps : List Piece} {cur b : Nat} (h : Laying above ps cur w) (hcur : 0 < cur) (hunit : 0 < unit) (hsize : unit ≤ size)
    (hw : ∀ i, w' i = if i ∈ above b then (w i).stretch unit cur size else w i) :
    Laying above (ps ++ [⟨b, cur, size⟩]) (cur + size) w' where
  window i := by
    rw [hw, piecesUnder_append]
    by_cases hi : i ∈ above b
    · rw [if_pos hi, if_pos hi, hull_append, h.window i]
      have hend : cur + (size - unit + (unit - 1)) = cur + size - 1 := by omega
      cases hu : piecesUnder above ps i with
      | nil =>
          rw [if_pos rfl, ← hend]
          rfl
      | cons q qs =>
          -- 先に取った区画は、今の番地より前にある
          have hq : q ∈ ps := (mem_piecesUnder.mp (hu ▸ List.mem_cons_self : q ∈ piecesUnder above ps i)).1
          obtain ⟨hpos, hqsize, hle⟩ := h.pieces q hq
          have hstart : (hull (q :: qs)).start = q.addr := by
            cases hlast : (q :: qs).getLast? with
            | none => exact absurd hlast (by simp)
            | some last =>
                rw [hull, hlast]
                rfl
          rw [if_neg (List.cons_ne_nil q qs), Aperture.stretch, hstart, if_neg (by omega), if_pos (by omega), hend, ← hstart]
    · rw [if_neg hi, if_neg hi, List.append_nil, h.window i]
  pieces p hp := by
    rcases List.mem_append.mp hp with hp | hp
    · obtain ⟨h₁, h₂, h₃⟩ := h.pieces p hp
      exact ⟨h₁, h₂, by omega⟩
    · obtain rfl := List.mem_singleton.mp hp
      exact ⟨hcur, hunit.trans_le hsize, Nat.le_refl _⟩

/-! ## 割り当ての全体 -/

/-- 区画は番地の順に、重ならずに並ぶ。 -/
def Ascending (ps : List Piece) : Prop := (ps.Pairwise fun p q => p.addr + p.size ≤ q.addr) ∧ ∀ p ∈ ps, 0 < p.size

theorem Ascending.sublist {ps qs : List Piece} (h : Ascending qs) (hs : ps.Sublist qs) : Ascending ps :=
  ⟨h.1.sublist hs, fun p hp => h.2 p (hs.subset hp)⟩

/-- 覆う窓は、最初の区画の始まりから最後の区画の終わりまでである。 -/
theorem Ascending.hull {ps : List Piece} (h : Ascending ps) (hne : ps ≠ []) :
    ∃ first ∈ ps, ∃ last ∈ ps, Pci.hull ps = ⟨first.addr, last.addr + last.size - 1⟩ ∧
      ∀ p ∈ ps, first.addr ≤ p.addr ∧ p.addr + p.size ≤ last.addr + last.size := by
  cases ps with
  | nil => exact absurd rfl hne
  | cons first ps =>
      have hlast := List.getLast?_eq_some_getLast hne
      refine ⟨first, List.mem_cons_self, (first :: ps).getLast hne, List.getLast_mem hne, ?_, fun p hp => ⟨?_, ?_⟩⟩
      · rw [Pci.hull, hlast]
        rfl
      · rcases List.mem_cons.mp hp with rfl | hp
        · exact Nat.le_refl _
        · have := (List.pairwise_cons.mp h.1).1 p hp
          omega
      · rw [← List.dropLast_append_getLast hne] at hp
        rcases List.mem_append.mp hp with hp' | hp'
        · have hsplit := h.1
          rw [← List.dropLast_append_getLast hne] at hsplit
          have := (List.pairwise_append.mp hsplit).2.2 p hp' _ (List.mem_singleton_self _)
          omega
        · rw [List.mem_singleton.mp hp']

/-! ## 上下の窓 -/

section

variable {bridges ids : List Nat}

end

end Imx6Bsp.Pci
