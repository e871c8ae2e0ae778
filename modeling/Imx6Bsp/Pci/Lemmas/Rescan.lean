import Imx6Bsp.Pci.Rescan

/-!
# 装置の並びの操作

節の並びは、つながり `Links` で表す。
-/

namespace Imx6Bsp.Pci

open Imx6Bsp.Lib

variable {s s' : Registry} {ids : List Nat} {devs : List Device}

/-! ## 並び -/

def Registry.next (s : Registry) (a : Nat) : Option Nat := (s.nodes a).next

def Registry.dev (s : Registry) (a : Nat) : Device := (s.nodes a).dev

/-- 節 `ids` の並びが、装置 `devs` を順に持つ。 -/
structure Listed (s : Registry) (ids : List Nat) (devs : List Device) : Prop where
  nodup : ids.Nodup
  below : ∀ a ∈ ids, a < s.brk
  chain : Links s.next s.deviceHead ids none
  tail : s.deviceTail = ids.getLast?
  devs : ids.map s.dev = devs

/-- 並びの装置。 -/
def Holds (s : Registry) (devs : List Device) : Prop := ∃ ids, Listed s ids devs

theorem Holds.unique {devs' : List Device} (h : Holds s devs) (h' : Holds s devs') : devs = devs' := by
  obtain ⟨ids, h⟩ := h
  obtain ⟨ids', h'⟩ := h'
  rw [← h.devs, ← h'.devs, h.chain.unique h'.chain]

theorem Listed.head (h : Listed s ids devs) (hne : devs ≠ []) : ∃ a rest, ids = a :: rest ∧ s.deviceHead = some a := by
  cases ids with
  | nil => exact absurd h.devs.symm hne
  | cons a rest => exact ⟨a, rest, rfl, h.chain.1⟩

theorem findDevice_spec (key : Nat × Nat) {fuel a : Nat} {rest : List Nat} (h : Links s.next (some a) (a :: rest) none)
    (hfuel : rest.length < fuel) :
    findDevice s.nodes key fuel a = some (decide (key ∈ (a :: rest).map fun x => (s.dev x).key)) := by
  induction fuel generalizing a rest with
  | zero => exact absurd hfuel (Nat.not_lt_zero _)
  | succ fuel ih =>
      rw [findDevice]
      by_cases hkey : (s.nodes a).dev.key = key
      · rw [if_pos hkey]
        exact congrArg some (decide_eq_true (List.mem_cons.mpr (.inl hkey.symm))).symm
      · rw [if_neg hkey]
        have hnot : key ≠ (s.dev a).key := fun h => hkey h.symm
        cases rest with
        | nil =>
            have hend : (s.nodes a).next = none := h.2
            rw [hend]
            simp [hnot]
        | cons b rest =>
            have hnext : (s.nodes a).next = some b := h.2.1
            rw [hnext]
            dsimp only
            rw [ih ⟨rfl, h.2.2⟩ (Nat.lt_of_succ_lt_succ hfuel)]
            simp [hnot]

/-! ## 追加 -/

/-- 末尾 `t` に記録を加えた並び。 -/
def Registry.append (s : Registry) (t : Nat) (dev : Device) : Registry :=
  { (s.addNode dev).setNext t (some s.brk) with deviceTail := some s.brk }

theorem Registry.append_nodes (t : Nat) (dev : Device) {a : Nat} (ha : a ≠ s.brk) (hat : a ≠ t) :
    (s.append t dev).nodes a = s.nodes a := by
  rw [append, setNext, setNode, addNode, setNode]
  dsimp only
  rw [if_neg hat, if_neg ha]

theorem Registry.append_brk (t : Nat) (dev : Device) (ht : t ≠ s.brk) : (s.append t dev).nodes s.brk = ⟨dev, none⟩ := by
  rw [append, setNext, setNode, addNode, setNode]
  dsimp only
  rw [if_neg ht.symm, if_pos rfl]

theorem Registry.append_tail (t : Nat) (dev : Device) (ht : t ≠ s.brk) :
    (s.append t dev).nodes t = ⟨s.dev t, some s.brk⟩ := by
  rw [append, setNext, setNode, addNode, setNode]
  dsimp only
  rw [if_pos rfl, if_neg ht]
  rfl

theorem Listed.append {init : List Nat} {t : Nat} (dev : Device) (h : Listed s (init ++ [t]) devs) :
    Listed (s.append t dev) (init ++ [t] ++ [s.brk]) (devs ++ [dev]) := by
  have hbrk : s.brk ∉ init ++ [t] := fun hm => lt_irrefl _ (h.below _ hm)
  have ht : t ≠ s.brk := fun heq => hbrk (heq ▸ List.mem_append_right _ (List.mem_singleton_self _))
  have hinit : ∀ a ∈ init, a ≠ s.brk ∧ a ≠ t := by
    intro a ha
    refine ⟨fun heq => hbrk (heq ▸ List.mem_append_left _ ha), ?_⟩
    exact (List.nodup_append.mp h.nodup).2.2 a ha t (List.mem_singleton_self _)
  obtain ⟨b, hchain, hlast⟩ := h.chain.split
  obtain rfl : b = some t := hlast.1
  constructor
  case nodup =>
    refine List.nodup_append.mpr ⟨h.nodup, List.nodup_singleton _, ?_⟩
    rintro a ha b hb rfl
    exact hbrk (List.mem_singleton.mp hb ▸ ha)
  case below =>
    intro a hm
    rcases List.mem_append.mp hm with hm | hm
    · exact Nat.lt_succ_of_lt (h.below a hm)
    · exact (List.mem_singleton.mp hm) ▸ Nat.lt_succ_self _
  case chain =>
    have hnext : ∀ a ∈ init, s.next a = (s.append t dev).next a := by
      intro a ha
      rw [Registry.next, Registry.next, Registry.append_nodes t dev (hinit a ha).1 (hinit a ha).2]
    have hold : Links (s.append t dev).next (some t) [t] (some s.brk) :=
      ⟨rfl, congrArg Node.next (Registry.append_tail t dev ht)⟩
    have hnew : Links (s.append t dev).next (some s.brk) [s.brk] none :=
      ⟨rfl, congrArg Node.next (Registry.append_brk t dev ht)⟩
    exact ((hchain.congr hnext).append hold).append hnew
  case tail => exact List.getLast?_concat.symm
  case devs =>
    have hdev : ∀ a ∈ init ++ [t], (s.append t dev).dev a = s.dev a := by
      intro a ha
      rcases List.mem_append.mp ha with ha | ha
      · rw [Registry.dev, Registry.dev, Registry.append_nodes t dev (hinit a ha).1 (hinit a ha).2]
      · obtain rfl := List.mem_singleton.mp ha
        rw [Registry.dev, Registry.append_tail a dev ht]
    rw [List.map_append, List.map_congr_left hdev, h.devs, List.map_singleton, Registry.dev, Registry.append_brk t dev ht]

theorem scanDevice_spec (cfg : ConfigSpace) (bus devfn : Nat) (h : Holds s devs) (hne : devs ≠ []) :
    ∃ s', scanDevice cfg s bus devfn = some s' ∧ Holds s' (devs ++ [scanned cfg s bus devfn]) ∧
      s'.numdevices = s.numdevices + 1 := by
  obtain ⟨ids, h⟩ := h
  obtain ⟨a, rest, hids, hhead⟩ := h.head hne
  have hnil : ids ≠ [] := hids ▸ List.cons_ne_nil _ _
  obtain ⟨init, t, rfl⟩ : ∃ init t, ids = init ++ [t] := ⟨_, _, (List.dropLast_append_getLast hnil).symm⟩
  have htail : s.deviceTail = some t := h.tail.trans List.getLast?_concat
  refine ⟨s.append t (scanned cfg s bus devfn), ?_, ⟨_, h.append _⟩, rfl⟩
  rw [scanDevice, hhead, htail]
  rfl

/-! ## 取り除き -/

/-- 残る装置であること。 -/
def IsKept (res : List (Nat × Nat)) (dev : Device) : Prop := dev.key ∈ res

instance (res : List (Nat × Nat)) (dev : Device) : Decidable (IsKept res dev) := inferInstanceAs (Decidable (_ ∈ _))

/-- 残る装置。 -/
def kept (res : List (Nat × Nat)) (dev : Device) : Bool := decide (IsKept res dev)

theorem Registry.unlink_next (p c : Nat) : (s.unlink (some p) c).next p = s.next c := by
  rw [next, unlink, setNext, setNode]
  dsimp only
  rw [if_pos rfl]
  rfl

theorem Registry.unlink_next_of_ne {p c a : Nat} (ha : a ≠ p) : (s.unlink (some p) c).next a = s.next a := by
  rw [next, unlink, setNext, setNode]
  dsimp only
  rw [if_neg ha]
  rfl

theorem Registry.unlink_dev (p c a : Nat) : (s.unlink (some p) c).dev a = s.dev a := by
  rw [dev, unlink, setNext, setNode]
  dsimp only
  split
  · next h => rw [h]; rfl
  · rfl

section

variable {init rest : List Nat} {p c : Nat} (h : Listed s (init ++ [p] ++ c :: rest) devs)

include h

theorem Listed.unlink_chain : Links (s.unlink (some p) c).next s.deviceHead (init ++ [p] ++ rest) none := by
  obtain ⟨b, hdone, hrest⟩ := h.chain.split
  obtain ⟨b', hinit, hp⟩ := hdone.split
  obtain rfl : b' = some p := hp.1
  have hnodup := h.nodup
  rw [List.append_assoc, List.nodup_append] at hnodup
  obtain ⟨-, htail, hcross⟩ := hnodup
  have hne : ∀ a ∈ init, a ≠ p := fun a ha => hcross a ha p (List.mem_append_left _ (List.mem_singleton_self _))
  have hne' : ∀ a ∈ rest, a ≠ p := by
    intro a ha heq
    exact (List.nodup_cons.mp htail).1 (heq ▸ List.mem_cons_of_mem _ ha)
  have hlast : Links (s.unlink (some p) c).next (some p) [p] (s.next c) := ⟨rfl, Registry.unlink_next p c⟩
  refine ((hinit.congr fun a ha => ?_).append hlast).append (hrest.2.congr fun a ha => ?_)
  · exact (Registry.unlink_next_of_ne (hne a ha)).symm
  · exact (Registry.unlink_next_of_ne (hne' a ha)).symm

theorem Listed.unlink_nodup : (init ++ [p] ++ rest).Nodup :=
  h.nodup.sublist (List.Sublist.append_left (List.sublist_cons_self _ _) _)

theorem Listed.unlink_below : ∀ a ∈ init ++ [p] ++ rest, a < s.brk := by
  intro a ha
  apply h.below
  rcases List.mem_append.mp ha with ha | ha
  · exact List.mem_append_left _ ha
  · exact List.mem_append_right _ (List.mem_cons_of_mem _ ha)

end

theorem Registry.unlink_map (p c : Nat) (ids : List Nat) : ids.map (s.unlink (some p) c).dev = ids.map s.dev :=
  List.map_congr_left fun a _ => Registry.unlink_dev p c a

/-- 途中の節を外す。 -/
theorem Listed.unlink {init rest : List Nat} {p c b : Nat} (h : Listed s (init ++ [p] ++ c :: b :: rest) devs) :
    Listed (s.unlink (some p) c) (init ++ [p] ++ b :: rest) ((init ++ [p] ++ b :: rest).map s.dev) where
  nodup := h.unlink_nodup
  below := h.unlink_below
  chain := h.unlink_chain
  tail := by
    have htail := h.tail
    rw [List.getLast?_append_cons] at htail ⊢
    rwa [List.getLast?_cons_cons] at htail
  devs := Registry.unlink_map p c _

/-- 最後の節を外す。 -/
theorem Listed.unlink_last {init : List Nat} {p c : Nat} (h : Listed s (init ++ [p] ++ [c]) devs) :
    Listed { s.unlink (some p) c with deviceTail := some p } (init ++ [p]) ((init ++ [p]).map s.dev) where
  nodup := (List.append_nil (init ++ [p])) ▸ h.unlink_nodup
  below := (List.append_nil (init ++ [p])) ▸ h.unlink_below
  chain := (List.append_nil (init ++ [p])) ▸ h.unlink_chain
  tail := List.getLast?_concat.symm
  devs := Registry.unlink_map p c _

theorem filter_kept_of_dropped {res : List (Nat × Nat)} {dev : Device} (hdev : dev.key ∉ res) (done rest : List Device) :
    (done ++ rest).filter (kept res) = (done ++ dev :: rest).filter (kept res) := by
  have hno : ¬ kept res dev = true := fun h => hdev (of_decide_eq_true h)
  rw [List.filter_append, List.filter_append, List.filter_cons_of_neg hno]

theorem unlinkLoop_spec {res : List (Nat × Nat)} {fuel : Nat} :
    ∀ {s : Registry} {devs : List Device} {init rest : List Nat} {p cur : Nat}, Listed s (init ++ [p] ++ cur :: rest) devs →
      rest.length < fuel → (∀ a ∈ init ++ [p], (s.dev a).key ∈ res) →
      ∃ s', unlinkLoop res fuel s (some p) cur = some s' ∧ Holds s' (devs.filter (kept res)) ∧
        s'.numdevices = s.numdevices := by
  induction fuel with
  | zero =>
      intro s devs init rest p cur _ hfuel
      exact absurd hfuel (Nat.not_lt_zero _)
  | succ fuel ih =>
      intro s devs init rest p cur h hfuel hdone
      rw [unlinkLoop]
      dsimp only
      by_cases hkey : (s.nodes cur).dev.key ∈ res
      · rw [if_pos hkey]
        have hdone' : ∀ a ∈ init ++ [p] ++ [cur], (s.dev a).key ∈ res := by
          intro a ha
          rcases List.mem_append.mp ha with ha | ha
          · exact hdone a ha
          · exact (List.mem_singleton.mp ha) ▸ hkey
        obtain ⟨b, -, hcur⟩ := h.chain.split
        cases rest with
        | nil =>
            have hend : (s.nodes cur).next = none := hcur.2
            rw [hend]
            refine ⟨s, rfl, ?_, rfl⟩
            rw [List.filter_eq_self.mpr]
            · exact ⟨_, h⟩
            · intro dev hdev
              rw [← h.devs] at hdev
              obtain ⟨a, ha, rfl⟩ := List.mem_map.mp hdev
              exact decide_eq_true (hdone' a ha)
        | cons b rest =>
            have hnext : (s.nodes cur).next = some b := hcur.2.1
            rw [hnext]
            refine ih ?_ (Nat.lt_of_succ_lt_succ hfuel) hdone'
            rw [List.append_assoc _ [cur]]
            exact h
      · rw [if_neg hkey]
        obtain ⟨b, -, hcur⟩ := h.chain.split
        have hdevs := h.devs
        rw [List.map_append, List.map_cons] at hdevs
        have hdrop : (s.dev cur).key ∉ res := hkey
        rw [← hdevs, ← filter_kept_of_dropped hdrop]
        cases rest with
        | nil =>
            have hend : (s.nodes cur).next = none := hcur.2
            have hall : ((init ++ [p]).map s.dev ++ List.map s.dev []).filter (kept res) = (init ++ [p]).map s.dev := by
              rw [List.map_nil, List.append_nil, List.filter_eq_self]
              intro dev hdev
              obtain ⟨a, ha, rfl⟩ := List.mem_map.mp hdev
              exact decide_eq_true (hdone a ha)
            rw [hall, hend]
            exact ⟨_, rfl, ⟨_, h.unlink_last⟩, rfl⟩
        | cons b rest =>
            have hnext : (s.nodes cur).next = some b := hcur.2.1
            have hagain : ((s.unlink (some p) cur).nodes p).next = some b := (Registry.unlink_next p cur).trans hnext
            rw [hnext]
            dsimp only
            rw [hagain, ← List.map_append]
            dsimp only
            refine ih h.unlink (Nat.lt_of_succ_lt_succ hfuel) fun a ha => ?_
            rw [Registry.unlink_dev]
            exact hdone a ha

/-- 先頭の装置が残るか、並びがその装置だけなら、残らない装置がすべて外れる。 -/
theorem unlink_spec (res : List (Nat × Nat)) {fuel : Nat} {first : Device} {devs : List Device} {a : Nat}
    (h : Holds s (first :: devs)) (hhead : s.deviceHead = some a) (hfuel : devs.length < fuel) :
    (first.key ∈ res ∨ devs = [] → ∃ s', unlinkLoop res fuel s none a = some s' ∧
      Holds s' ((first :: devs).filter (kept res)) ∧ s'.numdevices = s.numdevices) ∧
    (first.key ∉ res → devs ≠ [] → unlinkLoop res fuel s none a = none) := by
  obtain ⟨ids, h⟩ := h
  obtain ⟨fuel, rfl⟩ := Nat.exists_eq_succ_of_ne_zero (Nat.zero_lt_of_lt hfuel).ne'
  obtain ⟨a', rest, rfl, hhead'⟩ := h.head (List.cons_ne_nil _ _)
  obtain rfl : a = a' := Option.some.inj (hhead.symm.trans hhead')
  obtain ⟨hfirst, hrest⟩ := List.cons.inj h.devs
  have hcur := h.chain.2
  rw [unlinkLoop]
  by_cases hkey : first.key ∈ res
  · have hkey' : (s.nodes a).dev.key ∈ res := by
      rw [← hfirst] at hkey
      exact hkey
    refine ⟨fun _ => ?_, fun hno => absurd hkey hno⟩
    rw [if_pos hkey']
    cases rest with
    | nil =>
        have hend : (s.nodes a).next = none := hcur
        obtain rfl : devs = [] := hrest.symm
        have hkeep : kept res first = true := decide_eq_true hkey
        rw [hend, List.filter_cons_of_pos hkeep, List.filter_nil]
        exact ⟨s, rfl, ⟨_, h⟩, rfl⟩
    | cons b rest =>
        have hnext : (s.nodes a).next = some b := hcur.1
        rw [hnext]
        have hstart : Listed s ([] ++ [a] ++ b :: rest) (first :: devs) := h
        refine unlinkLoop_spec hstart ?_ ?_
        · have hlen := congrArg List.length hrest
          rw [List.length_map, List.length_cons] at hlen
          omega
        · intro x hx
          obtain rfl := List.mem_singleton.mp hx
          exact hkey'
  · have hkey' : ¬ (s.nodes a).dev.key ∈ res := by
      rw [← hfirst] at hkey
      exact hkey
    rw [if_neg hkey']
    constructor
    · rintro (hin | rfl)
      · exact absurd hin hkey
      · obtain rfl := List.map_eq_nil_iff.mp hrest
        have hend : (s.nodes a).next = none := hcur
        have hdrop : ¬ kept res first = true := fun h => hkey (of_decide_eq_true h)
        rw [hend, List.filter_cons_of_neg hdrop, List.filter_nil]
        refine ⟨_, rfl, ⟨[], ?_⟩, rfl⟩
        constructor
        case nodup => exact List.nodup_nil
        case below => exact fun x hx => absurd hx List.not_mem_nil
        case chain => exact hend
        case tail => rfl
        case devs => rfl
    · intro _ hne
      cases rest with
      | nil => exact absurd hrest.symm hne
      | cons b rest =>
          have hnext : (s.nodes a).next = some b := hcur.1
          rw [hnext]

end Imx6Bsp.Pci

namespace Imx6Bsp.Pci

open Imx6Bsp.Lib

/-! ## 走査の仕様

調べた機能の列 `visited` が、見つけた番号 `res`、数 `count`、加えた装置を決める。 -/

variable {cfg : ConfigSpace} {s : Registry} {devs : List Device}

/-! ### 今ある機能 -/

/-- 一つの装置の、`func` から `n` 個の機能のうち、`numFuncs` より前の、応答のあるものの番号。 -/
def respondingFrom (cfg : ConfigSpace) (slot : Nat × Nat) (numFuncs func n : Nat) : List (Nat × Nat) :=
  ((List.range' func n).filter fun k => k < numFuncs ∧ cfg.Responds slot.1 (slot.2 <<< 3 ||| k)).map fun k =>
    (slot.1, slot.2 <<< 3 ||| k)

/-- 一つの装置の機能の番号。最初の機能だけが、残りの機能があるかどうかを表す。 -/
def slotFunctions (cfg : ConfigSpace) (slot : Nat × Nat) : List (Nat × Nat) :=
  if cfg.Responds slot.1 (slot.2 <<< 3 ||| 0) then
    respondingFrom cfg slot (if cfg.headerType slot.1 (slot.2 <<< 3 ||| 0) &&& 0x80 ≠ 0 then 8 else 1) 0 8
  else []

/-- 今ある機能の番号。 -/
def functions (cfg : ConfigSpace) : List (Nat × Nat) := (slots cfg).flatMap (slotFunctions cfg)

/-- 前にはなく、クラスの読めない機能。 -/
def NewNull (cfg : ConfigSpace) (devs : List Device) (f : Nat × Nat) : Prop :=
  f ∉ devs.map Device.key ∧ cfg.NullClass f.1 f.2

instance (cfg : ConfigSpace) (devs : List Device) (f : Nat × Nat) : Decidable (NewNull cfg devs f) :=
  inferInstanceAs (Decidable (_ ∧ _))

/-- 最初の `NewNull` で打ち切った列。 -/
def upto (cfg : ConfigSpace) (devs : List Device) : List (Nat × Nat) → List (Nat × Nat)
  | [] => []
  | f :: fs => if NewNull cfg devs f then [f] else f :: upto cfg devs fs

/-- `rescan()` が調べる機能。 -/
def visited (cfg : ConfigSpace) (devs : List Device) : List (Nat × Nat) :=
  (slots cfg).flatMap fun slot => upto cfg devs (slotFunctions cfg slot)

/-- 前にはなく、装置として加わる機能。 -/
def NewDevice (cfg : ConfigSpace) (devs : List Device) (f : Nat × Nat) : Prop :=
  f ∉ devs.map Device.key ∧ ¬ cfg.NullClass f.1 f.2 ∧ ¬ cfg.IsBridge f.1 f.2

instance (cfg : ConfigSpace) (devs : List Device) (f : Nat × Nat) : Decidable (NewDevice cfg devs f) :=
  inferInstanceAs (Decidable (_ ∧ _ ∧ _))

/-- 機能の列 `fs` を調べたときの、加わる装置の番号。 -/
def added (cfg : ConfigSpace) (devs : List Device) (fs : List (Nat × Nat)) : List (Nat × Nat) :=
  fs.filter fun f => NewDevice cfg devs f

/-- 機能の列 `fs` を調べたあとの状態。 -/
structure Scanned (cfg : ConfigSpace) (devs : List Device) (fs : List (Nat × Nat)) (st : Scan) : Prop where
  holds : ∃ new, Holds st.reg (devs ++ new) ∧ new.map Device.key = added cfg devs fs
  res : st.res = fs.filter fun f => f ∈ devs.map Device.key
  count : st.count = fs.length
  numdevices : st.reg.numdevices = devs.length + (added cfg devs fs).length

theorem Scanned.of_reg {fs : List (Nat × Nat)} {st : Scan} (h : Scanned cfg devs fs st) (n : Nat) :
    Scanned cfg devs fs { st with numFuncs := n } := ⟨h.holds, h.res, h.count, h.numdevices⟩

theorem filter_snoc {p : Nat × Nat → Bool} (fs : List (Nat × Nat)) (f : Nat × Nat) :
    (fs ++ [f]).filter p = fs.filter p ++ if p f then [f] else [] := by
  rw [List.filter_append, List.filter_cons, List.filter_nil]

theorem scanFunction_silent {st : Scan} {fuel bus dev func : Nat} (h : ¬ cfg.Responds bus (dev <<< 3 ||| func)) :
    scanFunction cfg fuel bus dev func st = some (.next, st) := if_neg h

theorem scanFunction_spec {fs : List (Nat × Nat)} {st : Scan} {fuel bus dev func : Nat} (h : Scanned cfg devs fs st)
    (hne : devs ≠ []) (hfuel : devs.length + fs.length < fuel) (hfresh : (bus, dev <<< 3 ||| func) ∉ fs) :
    cfg.Responds bus (dev <<< 3 ||| func) → ∃ st',
      scanFunction cfg fuel bus dev func st =
        some (if NewNull cfg devs (bus, dev <<< 3 ||| func) then .stop else .next, st') ∧
      Scanned cfg devs (fs ++ [(bus, dev <<< 3 ||| func)]) st' ∧
      st'.numFuncs = if func = 0 ∧ cfg.headerType bus (dev <<< 3 ||| func) &&& 0x80 ≠ 0 then 8 else st.numFuncs := by
  generalize hf : dev <<< 3 ||| func = devfn at hfresh ⊢
  intro hyes
  obtain ⟨⟨new, hholds, hkeys⟩, hres, hcount, hnum⟩ := h
  have hall : (devs ++ new).map Device.key = devs.map Device.key ++ added cfg devs fs := by rw [List.map_append, hkeys]
  have hnot : (bus, devfn) ∉ added cfg devs fs := fun hm => hfresh (List.mem_of_mem_filter hm)
  have hlen : (devs ++ new).length ≤ devs.length + fs.length := by
    have hnew : new.length = (added cfg devs fs).length := by rw [← hkeys, List.length_map]
    rw [List.length_append, hnew]
    exact Nat.add_le_add_left (List.length_filter_le _ _) _
  -- 加えたばかりの装置は、これから調べる番号を持たない。
  have hfind : st.reg.deviceHead.bind (findDevice st.reg.nodes (bus, devfn) fuel) =
      some (decide ((bus, devfn) ∈ devs.map Device.key)) := by
    obtain ⟨ids, hids⟩ := hholds
    obtain ⟨a, rest, rfl, hhead⟩ := hids.head (List.append_ne_nil_of_left_ne_nil hne _)
    have hchain : Links st.reg.next (some a) (a :: rest) none := hhead ▸ hids.chain
    have hrest : rest.length < fuel := by
      have := congrArg List.length hids.devs
      rw [List.length_map, List.length_cons] at this
      omega
    have hkeymap : (a :: rest).map (fun x => (st.reg.dev x).key) = devs.map Device.key ++ added cfg devs fs := by
      rw [← hall, ← hids.devs, List.map_map]
      rfl
    rw [hhead, Option.bind_some, findDevice_spec (bus, devfn) hchain hrest, hkeymap]
    simp only [List.mem_append, hnot, or_false]
  rw [scanFunction, hf, if_pos hyes, hfind]
  dsimp only
  rw [Option.bind_some]
  have hres' : (fs ++ [(bus, devfn)]).filter (fun f => f ∈ devs.map Device.key) =
      st.res ++ if (bus, devfn) ∈ devs.map Device.key then [(bus, devfn)] else [] := by
    rw [hres, filter_snoc]
    simp only [decide_eq_true_eq]
  have hcount' : st.count + 1 = (fs ++ [(bus, devfn)]).length := by rw [List.length_append, hcount, List.length_singleton]
  have hadded : added cfg devs (fs ++ [(bus, devfn)]) = added cfg devs fs ++
      if (bus, devfn) ∉ devs.map Device.key ∧ ¬ cfg.NullClass bus devfn ∧ ¬ cfg.IsBridge bus devfn then [(bus, devfn)] else [] := by
    rw [added, filter_snoc]
    simp only [decide_eq_true_eq]
    rfl
  by_cases hfound : (bus, devfn) ∈ devs.map Device.key
  · have hgo : ¬ NewNull cfg devs (bus, devfn) := fun h => h.1 hfound
    rw [if_pos hfound] at hres'
    rw [if_neg (fun h => h.1 hfound), List.append_nil] at hadded
    rw [if_pos (decide_eq_true hfound), if_neg hgo]
    exact ⟨_, rfl, ⟨⟨new, hholds, hadded ▸ hkeys⟩, hres'.symm, hcount', hadded ▸ hnum⟩, rfl⟩
  · rw [if_neg hfound, List.append_nil] at hres'
    rw [if_neg (fun h => hfound (of_decide_eq_true h))]
    by_cases hnull : cfg.NullClass bus devfn
    · have hstop : NewNull cfg devs (bus, devfn) := ⟨hfound, hnull⟩
      rw [if_neg (fun h => h.2.1 hnull), List.append_nil] at hadded
      rw [if_pos hnull, if_pos hstop]
      exact ⟨_, rfl, ⟨⟨new, hholds, hadded ▸ hkeys⟩, hres'.symm, hcount', hadded ▸ hnum⟩, rfl⟩
    · have hgo : ¬ NewNull cfg devs (bus, devfn) := fun h => hnull h.2
      rw [if_neg hnull, if_neg hgo]
      by_cases hbridge : cfg.IsBridge bus devfn
      · rw [if_neg (fun h => h.2.2 hbridge), List.append_nil] at hadded
        rw [if_pos hbridge]
        exact ⟨_, rfl, ⟨⟨new, hholds, hadded ▸ hkeys⟩, hres'.symm, hcount', hadded ▸ hnum⟩, rfl⟩
      · rw [if_pos ⟨hfound, hnull, hbridge⟩] at hadded
        obtain ⟨reg, hscan, hholds', hnum'⟩ := scanDevice_spec cfg bus devfn hholds
          (List.append_ne_nil_of_left_ne_nil hne _)
        rw [if_neg hbridge, hscan, Option.map_some]
        refine ⟨_, rfl, ⟨⟨_, List.append_assoc _ _ _ ▸ hholds', ?_⟩, hres'.symm, hcount', ?_⟩, rfl⟩
        · rw [List.map_append, hkeys, hadded]
          rfl
        · rw [hadded, List.length_append, ← Nat.add_assoc, ← hnum]
          exact hnum'

theorem respondingFrom_of_le {slot : Nat × Nat} {numFuncs func : Nat} (n : Nat) (h : numFuncs ≤ func) :
    respondingFrom cfg slot numFuncs func n = [] := by
  rw [respondingFrom, List.map_eq_nil_iff, List.filter_eq_nil_iff]
  intro k hk hlt
  have hle := (List.mem_range'_1.mp hk).1
  exact absurd (of_decide_eq_true hlt).1 (by omega)

theorem respondingFrom_succ {slot : Nat × Nat} {numFuncs func : Nat} (n : Nat) (h : func < numFuncs) :
    respondingFrom cfg slot numFuncs func (n + 1) =
      (if cfg.Responds slot.1 (slot.2 <<< 3 ||| func) then [(slot.1, slot.2 <<< 3 ||| func)] else []) ++
        respondingFrom cfg slot numFuncs (func + 1) n := by
  rw [respondingFrom, List.range'_succ, List.filter_cons]
  simp only [h, true_and, decide_eq_true_eq]
  split
  · rfl
  · rfl

theorem functionLoop_spec {fuel : Nat} {slot : Nat × Nat} (hne : devs ≠ []) (n : Nat) :
    ∀ {func : Nat} {fs : List (Nat × Nat)} {st : Scan}, func ≠ 0 → Scanned cfg devs fs st →
      (fs ++ respondingFrom cfg slot st.numFuncs func n).Nodup →
      devs.length + (fs ++ respondingFrom cfg slot st.numFuncs func n).length < fuel →
      ∃ st', functionLoop cfg fuel slot.1 slot.2 n func st = some st' ∧
        Scanned cfg devs (fs ++ upto cfg devs (respondingFrom cfg slot st.numFuncs func n)) st' := by
  induction n with
  | zero =>
      intro func fs st _ h _ _
      exact ⟨st, rfl, (List.append_nil fs).symm ▸ h⟩
  | succ n ih =>
      intro func fs st hfunc h hnodup hfuel
      rw [functionLoop]
      by_cases hlt : func < st.numFuncs
      · rw [if_pos hlt]
        rw [respondingFrom_succ n hlt] at hnodup hfuel ⊢
        by_cases hresp : cfg.Responds slot.1 (slot.2 <<< 3 ||| func)
        · rw [if_pos hresp, List.singleton_append] at hnodup hfuel ⊢
          have hfresh : (slot.1, slot.2 <<< 3 ||| func) ∉ fs := by
            intro hm
            exact (List.nodup_append.mp hnodup).2.2 _ hm _ List.mem_cons_self rfl
          have hfuel' : devs.length + fs.length < fuel := by
            rw [List.length_append] at hfuel
            omega
          obtain ⟨st', hrun, hscanned, hnum⟩ := scanFunction_spec h hne hfuel' hfresh hresp
          rw [if_neg fun h => hfunc h.1] at hnum
          rw [hrun, Option.bind_some, upto]
          by_cases hnull : NewNull cfg devs (slot.1, slot.2 <<< 3 ||| func)
          · rw [if_pos hnull, if_pos hnull]
            exact ⟨st', rfl, hscanned⟩
          · rw [if_neg hnull, if_neg hnull, List.append_cons]
            rw [List.append_cons, ← hnum] at hnodup hfuel
            rw [← hnum]
            exact ih (Nat.succ_ne_zero _) hscanned hnodup hfuel
        · rw [if_neg hresp, List.nil_append] at hnodup hfuel ⊢
          rw [scanFunction_silent hresp, Option.bind_some]
          exact ih (Nat.succ_ne_zero _) h hnodup hfuel
      · rw [if_neg hlt, respondingFrom_of_le _ (Nat.not_lt.mp hlt)]
        exact ⟨st, rfl, (List.append_nil fs).symm ▸ h⟩

theorem upto_sublist (fs : List (Nat × Nat)) : (upto cfg devs fs).Sublist fs := by
  induction fs with
  | nil => exact List.Sublist.refl _
  | cons f fs ih =>
      rw [upto]
      split
      · exact List.Sublist.cons_cons f (List.nil_sublist fs)
      · exact ih.cons_cons f

theorem upto_eq_self {fs : List (Nat × Nat)} (h : ∀ f ∈ upto cfg devs fs, ¬ NewNull cfg devs f) : upto cfg devs fs = fs := by
  induction fs with
  | nil => rfl
  | cons f fs ih =>
      rw [upto] at h ⊢
      by_cases hnull : NewNull cfg devs f
      · rw [if_pos hnull] at h
        exact absurd hnull (h f List.mem_cons_self)
      · rw [if_neg hnull] at h ⊢
        rw [ih fun f' hm => h f' (List.mem_cons_of_mem _ hm)]

theorem scanSlot_spec {fuel : Nat} {slot : Nat × Nat} {fs : List (Nat × Nat)} {st : Scan} (hne : devs ≠ [])
    (h : Scanned cfg devs fs st) (hnodup : (fs ++ slotFunctions cfg slot).Nodup)
    (hfuel : devs.length + (fs ++ slotFunctions cfg slot).length < fuel) :
    ∃ st', scanSlot cfg fuel st slot = some st' ∧ Scanned cfg devs (fs ++ upto cfg devs (slotFunctions cfg slot)) st' := by
  have h1 := h.of_reg 1
  rw [scanSlot, functionLoop, if_pos (show 0 < 1 from Nat.one_pos)]
  rw [slotFunctions] at hnodup hfuel ⊢
  by_cases hresp : cfg.Responds slot.1 (slot.2 <<< 3 ||| 0)
  · rw [if_pos hresp] at hnodup hfuel ⊢
    generalize hnum : (if cfg.headerType slot.1 (slot.2 <<< 3 ||| 0) &&& 0x80 ≠ 0 then 8 else 1) = numFuncs at hnodup hfuel ⊢
    have hpos : 0 < numFuncs := by
      rw [← hnum]
      split
      · decide
      · decide
    rw [respondingFrom_succ 7 hpos, if_pos hresp, List.singleton_append] at hnodup hfuel ⊢
    have hfresh : (slot.1, slot.2 <<< 3 ||| 0) ∉ fs := by
      intro hm
      exact (List.nodup_append.mp hnodup).2.2 _ hm _ List.mem_cons_self rfl
    have hfuel' : devs.length + fs.length < fuel := by
      rw [List.length_append] at hfuel
      omega
    obtain ⟨st', hrun, hscanned, hnum'⟩ := scanFunction_spec h1 hne hfuel' hfresh hresp
    have hnumFuncs : st'.numFuncs = numFuncs := by
      rw [hnum', ← hnum]
      simp only [true_and]
    rw [hrun, Option.bind_some, upto]
    by_cases hnull : NewNull cfg devs (slot.1, slot.2 <<< 3 ||| 0)
    · rw [if_pos hnull, if_pos hnull]
      exact ⟨st', rfl, hscanned⟩
    · rw [if_neg hnull, if_neg hnull, List.append_cons]
      rw [List.append_cons, ← hnumFuncs] at hnodup hfuel
      rw [← hnumFuncs]
      exact functionLoop_spec hne 7 Nat.one_ne_zero hscanned hnodup hfuel
  · rw [if_neg hresp, upto, List.append_nil]
    rw [scanFunction_silent hresp, Option.bind_some]
    dsimp only
    rw [functionLoop, if_neg (lt_irrefl _)]
    exact ⟨_, rfl, h1⟩

theorem scanSlots_spec {fuel : Nat} (hne : devs ≠ []) (slots : List (Nat × Nat)) :
    ∀ {fs : List (Nat × Nat)} {st : Scan}, Scanned cfg devs fs st → (fs ++ slots.flatMap (slotFunctions cfg)).Nodup →
      devs.length + (fs ++ slots.flatMap (slotFunctions cfg)).length < fuel →
      ∃ st', slots.foldlM (scanSlot cfg fuel) st = some st' ∧
        Scanned cfg devs (fs ++ slots.flatMap fun slot => upto cfg devs (slotFunctions cfg slot)) st' := by
  induction slots with
  | nil =>
      intro fs st h _ _
      exact ⟨st, rfl, (List.append_nil fs).symm ▸ h⟩
  | cons slot slots ih =>
      intro fs st h hnodup hfuel
      rw [List.flatMap_cons, ← List.append_assoc] at hnodup hfuel
      have hpre := (List.sublist_append_left (fs ++ slotFunctions cfg slot) (slots.flatMap (slotFunctions cfg))).length_le
      obtain ⟨st₁, hrun₁, h₁⟩ := scanSlot_spec hne h (List.nodup_append.mp hnodup).1
        ((Nat.add_le_add_left hpre _).trans_lt hfuel)
      have hsub : (fs ++ upto cfg devs (slotFunctions cfg slot) ++ slots.flatMap (slotFunctions cfg)).Sublist
          (fs ++ slotFunctions cfg slot ++ slots.flatMap (slotFunctions cfg)) :=
        ((upto_sublist _).append_left fs).append_right _
      obtain ⟨st₂, hrun₂, h₂⟩ := ih h₁ (hnodup.sublist hsub) ((Nat.add_le_add_left hsub.length_le _).trans_lt hfuel)
      refine ⟨st₂, ?_, ?_⟩
      · rw [List.foldlM_cons, hrun₁]
        exact hrun₂
      · rw [List.flatMap_cons, ← List.append_assoc]
        exact h₂

theorem visited_sublist : (visited cfg devs).Sublist (functions cfg) := by
  rw [visited, functions]
  induction slots cfg with
  | nil => exact List.Sublist.refl _
  | cons slot slots ih =>
      rw [List.flatMap_cons, List.flatMap_cons]
      exact (upto_sublist _).append ih

theorem visited_eq (h : ∀ f ∈ visited cfg devs, ¬ NewNull cfg devs f) : visited cfg devs = functions cfg := by
  rw [visited, functions]
  refine List.flatMap_congr fun slot hslot => upto_eq_self fun f hf => h f ?_
  exact List.mem_flatMap.mpr ⟨slot, hslot, hf⟩

/-! ### 機能の番号 -/

theorem devfn_eq (dev : Nat) {func : Nat} (h : func < 8) : dev <<< 3 ||| func = 8 * dev + func := by
  rw [Nat.shiftLeft_eq, Nat.mul_comm]
  exact (Nat.two_pow_add_eq_or_of_lt h dev).symm

theorem mem_respondingFrom {slot : Nat × Nat} {numFuncs func n : Nat} {f : Nat × Nat} (hfunc : func + n ≤ 8)
    (h : f ∈ respondingFrom cfg slot numFuncs func n) : f.1 = slot.1 ∧ f.2 / 8 = slot.2 := by
  obtain ⟨k, hk, rfl⟩ := List.mem_map.mp h
  have hlt := (List.mem_range'_1.mp (List.mem_of_mem_filter hk)).2
  refine ⟨rfl, ?_⟩
  dsimp only
  rw [devfn_eq _ (by omega)]
  omega

theorem respondingFrom_nodup {slot : Nat × Nat} {numFuncs func n : Nat} (hfunc : func + n ≤ 8) :
    (respondingFrom cfg slot numFuncs func n).Nodup := by
  have hrange : (List.range' func n).Nodup := List.nodup_range'
  refine (List.nodup_map_iff_inj_on (hrange.filter _)).mpr ?_
  intro k hk k' hk' heq
  have hlt := (List.mem_range'_1.mp (List.mem_of_mem_filter hk)).2
  have hlt' := (List.mem_range'_1.mp (List.mem_of_mem_filter hk')).2
  have h2 := (Prod.mk.inj heq).2
  rw [devfn_eq _ (by omega), devfn_eq _ (by omega)] at h2
  omega

theorem functions_nodup (cfg : ConfigSpace) : (functions cfg).Nodup := by
  have hslots : (slots cfg).Nodup := List.nodup_range.product List.nodup_range
  have hmem : ∀ slot f, f ∈ slotFunctions cfg slot → f.1 = slot.1 ∧ f.2 / 8 = slot.2 := by
    intro slot f hf
    rw [slotFunctions] at hf
    split at hf
    · exact mem_respondingFrom le_rfl hf
    · cases hf
  refine List.nodup_flatMap.mpr ⟨?_, hslots.imp ?_⟩
  · intro slot _
    rw [slotFunctions]
    split
    · exact respondingFrom_nodup le_rfl
    · exact List.nodup_nil
  · intro slot slot' hne f hf hf'
    apply hne
    obtain ⟨h1, h2⟩ := hmem slot f hf
    obtain ⟨h1', h2'⟩ := hmem slot' f hf'
    exact Prod.ext (h1.symm.trans h1') (h2.symm.trans h2')

end Imx6Bsp.Pci
