import Imx6Bsp.Lib.Runs
import Imx6Bsp.Pci.Enumerate
import Imx6Bsp.Pci.Lemmas.Rescan

/-!
# 列挙の正しさ

走査と `rescan()` をどのように重ねても、`Index` と列挙の結果がどうなるかを示す。
-/

namespace Imx6Bsp.Pci

open Imx6Bsp.Lib

/-! ## 並びの規則 -/

variable {cfg : ConfigSpace} {s s' : Registry} {devs : List Device}

theorem Listed.length_le {ids : List Nat} (h : Listed s ids devs) : ids.length ≤ s.brk := by
  have hsub : ids ⊆ List.range s.brk := fun a ha => List.mem_range.mpr (h.below a ha)
  simpa using (h.nodup.subperm hsub).length_le

/-- 並びが空でも空でなくても、記録は末尾に加わる。 -/
theorem scanDevice_holds (bus devfn : Nat) (h : Holds s devs) (hs : scanDevice cfg s bus devfn = some s') :
    Holds s' (devs ++ [scanned cfg s bus devfn]) := by
  by_cases hne : devs = []
  · subst hne
    obtain ⟨ids, h⟩ := h
    obtain rfl : ids = [] := List.map_eq_nil_iff.mp h.devs
    have hhead : s.deviceHead = none := h.chain
    rw [scanDevice, hhead] at hs
    cases hs
    have hnode : (s.addNode (scanned cfg s bus devfn)).nodes s.brk = ⟨scanned cfg s bus devfn, none⟩ := if_pos rfl
    refine ⟨[s.brk], List.nodup_singleton _, ?_, ⟨rfl, ?_⟩, rfl, ?_⟩
    · intro a ha
      rw [List.mem_singleton.mp ha]
      exact Nat.lt_succ_self _
    · exact congrArg Node.next hnode
    · exact congrArg (fun node => [Node.dev node]) hnode
  · obtain ⟨t, ht, hholds, -⟩ := scanDevice_spec cfg bus devfn h hne
    exact Option.some.inj (hs.symm.trans ht) ▸ hholds

section

variable {P : Registry → Prop} (hP : ∀ s bus devfn s', P s → scanDevice cfg s bus devfn = some s' → P s')

include hP

/-- `scan_device()` で保たれる性質は、走査の間に保たれる。 -/
theorem scanFunction_rule {fuel bus dev func : Nat} {st st' : Scan} {c : Control} (h : P st.reg)
    (hs : scanFunction cfg fuel bus dev func st = some (c, st')) : P st'.reg := by
  unfold scanFunction at hs
  dsimp only at hs
  split at hs
  · obtain ⟨found, -, hs⟩ := Option.bind_eq_some_iff.mp hs
    split at hs
    · cases hs; exact h
    · split at hs
      · cases hs; exact h
      · split at hs
        · cases hs; exact h
        · obtain ⟨reg, hreg, hs⟩ := Option.map_eq_some_iff.mp hs
          cases hs
          exact hP _ _ _ _ h hreg
  · cases hs; exact h

theorem functionLoop_rule {fuel bus dev : Nat} (n : Nat) {func : Nat} {st st' : Scan} (h : P st.reg)
    (hs : functionLoop cfg fuel bus dev n func st = some st') : P st'.reg := by
  induction n generalizing func st with
  | zero => cases hs; exact h
  | succ n ih =>
      unfold functionLoop at hs
      split at hs
      · obtain ⟨r, hr, hs⟩ := Option.bind_eq_some_iff.mp hs
        have hr : scanFunction cfg fuel bus dev func st = some (r.1, r.2) := hr
        have hnext := scanFunction_rule hP h hr
        split at hs
        · exact ih hnext hs
        · cases hs; exact hnext
      · cases hs; exact h

theorem scanSlots_rule {fuel : Nat} (slots : List (Nat × Nat)) {st st' : Scan} (h : P st.reg)
    (hs : slots.foldlM (scanSlot cfg fuel) st = some st') : P st'.reg := by
  induction slots generalizing st with
  | nil => cases hs; exact h
  | cons slot slots ih =>
      rw [List.foldlM_cons] at hs
      obtain ⟨st₁, h₁, hs⟩ := Option.bind_eq_some_iff.mp hs
      have h₀ : P ({ st with numFuncs := 1 } : Scan).reg := h
      exact ih (functionLoop_rule hP 8 h₀ h₁) hs

end

/-! ## 取り除きの規則 -/

/-- 途中から始めた取り除きが終われば、並びはもとの並びの部分列である。 -/
theorem unlinkLoop_rule {res : List (Nat × Nat)} {fuel : Nat} :
    ∀ {s s' : Registry} {devs : List Device} {init rest : List Nat} {p cur : Nat}, Listed s (init ++ [p] ++ cur :: rest) devs →
      unlinkLoop res fuel s (some p) cur = some s' → (∃ devs', Holds s' devs' ∧ devs'.Sublist devs) ∧ s'.brk = s.brk := by
  induction fuel with
  | zero => intro s s' devs init rest p cur _ hs; cases hs
  | succ fuel ih =>
      intro s s' devs init rest p cur h hs
      obtain ⟨b, -, hcur⟩ := h.chain.split
      rw [unlinkLoop] at hs
      dsimp only at hs
      have hdevs := h.devs
      by_cases hkey : (s.nodes cur).dev.key ∈ res
      · rw [if_pos hkey] at hs
        cases rest with
        | nil =>
            have hend : (s.nodes cur).next = none := hcur.2
            rw [hend] at hs
            cases hs
            exact ⟨⟨devs, ⟨_, h⟩, .refl _⟩, rfl⟩
        | cons c rest =>
            have hnext : (s.nodes cur).next = some c := hcur.2.1
            rw [hnext] at hs
            have hnow : Listed s (init ++ [p] ++ [cur] ++ c :: rest) devs := by
              rw [List.append_assoc _ [cur]]; exact h
            exact ih hnow hs
      · rw [if_neg hkey] at hs
        cases rest with
        | nil =>
            have hend : (s.nodes cur).next = none := hcur.2
            rw [hend] at hs
            cases hs
            refine ⟨⟨_, ⟨_, h.unlink_last⟩, ?_⟩, rfl⟩
            rw [← hdevs]
            exact (List.sublist_append_left _ _).map _
        | cons c rest =>
            have hnext : (s.nodes cur).next = some c := hcur.2.1
            have hagain : ((s.unlink (some p) cur).nodes p).next = some c := (Registry.unlink_next p cur).trans hnext
            rw [hnext] at hs
            dsimp only at hs
            rw [hagain] at hs
            obtain ⟨⟨devs', hholds, hsub⟩, hbrk⟩ := ih h.unlink hs
            refine ⟨⟨devs', hholds, hsub.trans ?_⟩, hbrk⟩
            rw [← hdevs]
            exact ((List.sublist_cons_self _ _).append_left _).map _

/-- 先頭から始めた取り除きが終われば、並びはもとの並びの部分列である。 -/
theorem unlink_rule {res : List (Nat × Nat)} {fuel a : Nat} (h : Holds s devs) (hhead : s.deviceHead = some a)
    (hs : unlinkLoop res fuel s none a = some s') : (∃ devs', Holds s' devs' ∧ devs'.Sublist devs) ∧ s'.brk = s.brk := by
  obtain ⟨ids, h⟩ := h
  cases ids with
  | nil =>
      rw [show s.deviceHead = none from h.chain] at hhead
      cases hhead
  | cons x rest =>
      obtain rfl : a = x := Option.some.inj (hhead.symm.trans h.chain.1)
      cases fuel with
      | zero => cases hs
      | succ fuel =>
          have hnextlink := h.chain.2
          rw [unlinkLoop] at hs
          by_cases hkey : (s.nodes a).dev.key ∈ res
          · rw [if_pos hkey] at hs
            cases rest with
            | nil =>
                have hend : (s.nodes a).next = none := hnextlink
                rw [hend] at hs
                cases hs
                exact ⟨⟨devs, ⟨_, h⟩, .refl _⟩, rfl⟩
            | cons b rest =>
                have hnext : (s.nodes a).next = some b := hnextlink.1
                rw [hnext] at hs
                have hnow : Listed s ([] ++ [a] ++ b :: rest) devs := h
                exact unlinkLoop_rule hnow hs
          · rw [if_neg hkey] at hs
            cases rest with
            | nil =>
                have hend : (s.nodes a).next = none := hnextlink
                rw [hend] at hs
                cases hs
                exact ⟨⟨[], ⟨[], List.nodup_nil, fun _ h => absurd h List.not_mem_nil, hend, rfl, rfl⟩, List.nil_sublist _⟩, rfl⟩
            | cons b rest =>
                have hnext : (s.nodes a).next = some b := hnextlink.1
                rw [hnext] at hs
                cases hs

/-! ## 番号の順 -/

/-- ベンダーと装置の番号の等しい装置の `Index` は、並びの順に増える。 -/
def Indexed (devs : List Device) : Prop :=
  devs.Pairwise fun a b => a.vendorId = b.vendorId → a.deviceId = b.deviceId → a.index < b.index

/-- 並びに沿って求めた `index`。 -/
def nextIndex (vendor deviceid : Nat) (devs : List Device) (index : Nat) : Nat :=
  devs.foldl (fun i dev => if dev.vendorId = vendor ∧ dev.deviceId = deviceid then dev.index + 1 else i) index

theorem indexLoop_spec {vendor deviceid fuel index : Nat} {d : Option Nat} {ids : List Nat} (h : Links s.next d ids none)
    (hf : ids.length < fuel) :
    indexLoop s.nodes vendor deviceid fuel d index = some (nextIndex vendor deviceid (ids.map s.dev) index) := by
  induction ids generalizing fuel d index with
  | nil =>
      obtain ⟨fuel, rfl⟩ : ∃ f, fuel = f + 1 := ⟨fuel - 1, by omega⟩
      obtain rfl : d = none := h
      rfl
  | cons a ids ih =>
      obtain ⟨fuel, rfl⟩ : ∃ f, fuel = f + 1 := ⟨fuel - 1, by omega⟩
      obtain ⟨rfl, hrest⟩ := h
      have hlen : ids.length < fuel := Nat.lt_of_succ_lt_succ hf
      rw [indexLoop, List.map_cons, nextIndex, List.foldl_cons]
      split
      · rename_i hid
        have hid : (s.dev a).vendorId = vendor ∧ (s.dev a).deviceId = deviceid := hid
        rw [if_pos hid]
        exact ih hrest hlen
      · rename_i hid
        have hid : ¬((s.dev a).vendorId = vendor ∧ (s.dev a).deviceId = deviceid) := hid
        rw [if_neg hid]
        exact ih hrest hlen

theorem scanIndex_eq (h : Holds s devs) (vendor deviceid : Nat) : scanIndex s vendor deviceid = nextIndex vendor deviceid devs 0 := by
  obtain ⟨ids, h⟩ := h
  have hlen := h.length_le
  rw [scanIndex, indexLoop_spec h.chain (by omega), h.devs, Option.getD_some]

/-- ベンダーと装置の番号。 -/
def HasIds (vendor deviceid : Nat) (dev : Device) : Prop := dev.vendorId = vendor ∧ dev.deviceId = deviceid

instance (vendor deviceid : Nat) (dev : Device) : Decidable (HasIds vendor deviceid dev) := inferInstanceAs (Decidable (_ ∧ _))

section

variable {vendor deviceid : Nat}

theorem nextIndex_concat (devs : List Device) (dev : Device) (i : Nat) :
    nextIndex vendor deviceid (devs ++ [dev]) i =
      if HasIds vendor deviceid dev then dev.index + 1 else nextIndex vendor deviceid devs i := by
  rw [nextIndex, List.foldl_append]
  rfl

/-- 新しい番号は、同じ番号の装置のどの `Index` よりも大きい。 -/
theorem lt_nextIndex (h : Indexed devs) {dev : Device} (hdev : dev ∈ devs) (hid : HasIds vendor deviceid dev) :
    dev.index < nextIndex vendor deviceid devs 0 := by
  induction devs using List.reverseRecOn with
  | nil => exact absurd hdev List.not_mem_nil
  | append_singleton devs last ih =>
      obtain ⟨hinit, -, hcross⟩ := List.pairwise_append.mp h
      rw [nextIndex_concat]
      rcases List.mem_append.mp hdev with hmem | hmem
      · split
        · rename_i hlast
          have := hcross dev hmem last (List.mem_singleton_self _) (hid.1.trans hlast.1.symm) (hid.2.trans hlast.2.symm)
          omega
        · exact ih hinit hmem
      · obtain rfl := List.mem_singleton.mp hmem
        rw [if_pos hid]
        exact Nat.lt_succ_self _

theorem nextIndex_le {n : Nat} (h : ∀ dev ∈ devs, dev.index < n) : nextIndex vendor deviceid devs 0 ≤ n := by
  induction devs using List.reverseRecOn with
  | nil => exact Nat.zero_le _
  | append_singleton devs last ih =>
      rw [nextIndex_concat]
      split
      · exact h last (List.mem_append_right _ (List.mem_singleton_self _))
      · exact ih fun dev hdev => h dev (List.mem_append_left _ hdev)

end

/-! ## 走査の列で保たれること -/

/-- 記録した装置が 256 個までなら、並びの装置の番号は順に並ぶ。 -/
structure NumberedList (s : Registry) (devs : List Device) : Prop where
  holds : Holds s devs
  masked : ∀ dev ∈ devs, dev.vendorId &&& 0xffff = dev.vendorId ∧ dev.deviceId &&& 0xffff = dev.deviceId
  below : s.brk ≤ 256 → ∀ dev ∈ devs, dev.index < s.brk
  indexed : s.brk ≤ 256 → Indexed devs

theorem NumberedList.sublist {devs' : List Device} (h : NumberedList s devs) (hholds : Holds s' devs') (hsub : devs'.Sublist devs)
    (hbrk : s'.brk = s.brk) : NumberedList s' devs' where
  holds := hholds
  masked dev hdev := h.masked dev (hsub.subset hdev)
  below hb dev hdev := by
    rw [hbrk] at hb ⊢
    exact h.below hb dev (hsub.subset hdev)
  indexed hb := (h.indexed (hbrk ▸ hb)).sublist hsub

theorem scanDevice_brk {bus devfn : Nat} (hs : scanDevice cfg s bus devfn = some s') : s'.brk = s.brk + 1 := by
  unfold scanDevice at hs
  dsimp only at hs
  split at hs
  · cases hs; rfl
  · obtain ⟨t, -, rfl⟩ := Option.map_eq_some_iff.mp hs
    rfl

/-- 256 個までなら、新しい `Index` は切り捨てられない。 -/
theorem NumberedList.scanned_index (h : NumberedList s devs) (hb : s.brk < 256) (bus devfn : Nat) :
    (scanned cfg.numbered s bus devfn).index = nextIndex (scanned cfg.numbered s bus devfn).vendorId
      (scanned cfg.numbered s bus devfn).deviceId devs 0 ∧ (scanned cfg.numbered s bus devfn).index ≤ s.brk := by
  have hindex : (scanned cfg.numbered s bus devfn).index = nextIndex (scanned cfg.numbered s bus devfn).vendorId
      (scanned cfg.numbered s bus devfn).deviceId devs 0 % 256 := congrArg (· % 256) (scanIndex_eq h.holds _ _)
  have hle : nextIndex (scanned cfg.numbered s bus devfn).vendorId (scanned cfg.numbered s bus devfn).deviceId devs 0 ≤ s.brk :=
    nextIndex_le fun d hd => h.below (by omega) d hd
  rw [Nat.mod_eq_of_lt (by omega)] at hindex
  exact ⟨hindex, hindex ▸ hle⟩

theorem NumberedList.scan {bus devfn : Nat} (h : NumberedList s devs) (hs : scanDevice cfg.numbered s bus devfn = some s') :
    NumberedList s' (devs ++ [scanned cfg.numbered s bus devfn]) := by
  have hbrk := scanDevice_brk hs
  have hexact (hb : s'.brk ≤ 256) := @NumberedList.scanned_index cfg s devs h (show s.brk < 256 by omega) bus devfn
  generalize hdev : scanned cfg.numbered s bus devfn = dev at hexact ⊢
  constructor
  case holds => exact hdev ▸ scanDevice_holds bus devfn h.holds hs
  case masked =>
    intro d hd
    rcases List.mem_append.mp hd with hd | hd
    · exact h.masked d hd
    · rw [List.mem_singleton.mp hd]
      exact ⟨by rw [← hdev]; exact Nat.and_self_right .., by rw [← hdev]; exact Nat.and_self_right ..⟩
  case below =>
    intro hb d hd
    rcases List.mem_append.mp hd with hd | hd
    · have := h.below (by omega) d hd
      omega
    · rw [List.mem_singleton.mp hd]
      have := (hexact hb).2
      omega
  case indexed =>
    intro hb
    refine List.pairwise_append.mpr ⟨h.indexed (by omega), List.pairwise_singleton .., fun a ha b hb' hv hd => ?_⟩
    obtain rfl := List.mem_singleton.mp hb'
    rw [(hexact hb).1]
    exact lt_nextIndex (h.indexed (by omega)) ha ⟨hv, hd⟩

theorem NumberedList.step {e : PciEvent} (h : NumberedList s devs) (hs : pciStep s e = .ok s') : ∃ devs', NumberedList s' devs' := by
  have run {o : Option Registry} (ho : o.elim (Except.error ()) .ok = .ok s') : o = some s' := by
    cases o <;> cases ho; rfl
  cases e with
  | scan cfg bus devfn => exact ⟨_, h.scan (run hs)⟩
  | rescan cfg fuel =>
      have hs := run hs
      rw [rescan] at hs
      obtain ⟨st, hscan, hs⟩ := Option.bind_eq_some_iff.mp hs
      obtain ⟨devs', h'⟩ := scanSlots_rule (P := fun s => ∃ devs, NumberedList s devs)
        (fun u bus devfn u' hu hrun => ⟨_, hu.choose_spec.scan hrun⟩) _ ⟨devs, h⟩ hscan
      split at hs
      · obtain ⟨a, hhead, hs⟩ := Option.bind_eq_some_iff.mp hs
        obtain ⟨ids, hl⟩ := h'.holds
        have hcount : Holds { st.reg with numdevices := st.count } devs' := ⟨ids, hl.nodup, hl.below, hl.chain, hl.tail, hl.devs⟩
        obtain ⟨⟨devs'', hholds, hsub⟩, hbrk⟩ := unlink_rule hcount hhead hs
        exact ⟨devs'', h'.sublist hholds hsub hbrk⟩
      · cases hs
        exact ⟨devs', h'⟩

theorem NumberedList.reaches {ok : Registry → PciEvent → Prop} {nodes : Nat → Node}
    (h : Reaches pciStep ok (Registry.empty nodes) s) : ∃ devs, NumberedList s devs :=
  h.invariant (P := fun s => ∃ devs, NumberedList s devs)
    ⟨[], ⟨[], List.nodup_nil, nofun, rfl, rfl, rfl⟩, nofun, fun _ => nofun, fun _ => .nil⟩
    fun _ _ _ hu _ hrun => hu.choose_spec.step hrun

/-! ## 列挙の性質 -/

/-- 列挙の `idx` 番目の装置を見つけた答え。 -/
def found (dev : Option Device) : PciStatus × Option (Nat × Nat) :=
  match dev with
  | none => (.deviceNotFound, none)
  | some dev => (.success, some dev.key)

theorem pciFindDevice_eq (devs : List Device) (deviceId vendorId index : Nat) :
    pciFindDevice devs deviceId vendorId index = found (devs.find? fun d =>
      d.vendorId &&& 0xffff = vendorId ∧ d.deviceId &&& 0xffff = deviceId ∧ d.index = index) := by
  rw [List.find?_eq_bind_findIdx?_getElem?, pciFindDevice, searchVenddev, searchDevice]
  cases hidx : devs.findIdx? _ with
  | none => rfl
  | some i =>
      obtain ⟨hlt, -⟩ := List.findIdx?_eq_some_iff_getElem.mp hidx
      simp only [Option.bind_some, List.getElem?_eq_getElem hlt]
      rfl

/-- 番号も `Index` も等しい装置は一つである。 -/
theorem Indexed.unique (h : Indexed devs) {a b : Device} (ha : a ∈ devs) (hb : b ∈ devs) (hv : a.vendorId = b.vendorId)
    (hd : a.deviceId = b.deviceId) (hi : a.index = b.index) : a = b := by
  obtain ⟨i, hi', rfl⟩ := List.getElem_of_mem ha
  obtain ⟨j, hj', rfl⟩ := List.getElem_of_mem hb
  have hpair := List.pairwise_iff_getElem.mp h
  rcases Nat.lt_trichotomy i j with hlt | rfl | hlt
  · exact absurd (hpair i j hi' hj' hlt hv hd) (by omega)
  · rfl
  · exact absurd (hpair j i hj' hi' hlt hv.symm hd.symm) (by omega)

def blankDevice (devfn : Nat) : Device := { bmap := ⟨0, 0, 0, 0, 0, 0, 0, 0, 0, 0, 0, 0⟩, busNumber := 0, devFuncNumber := devfn }

/-- 番号の等しい二つの装置と、別の装置。 -/
def sampleFunctions : ConfigSpace where
  scanBuses := 0
  vendorId _ devfn := if devfn = 16 then 0x12341957 else 0x153316c3
  headerType _ _ := 0
  revisionId _ _ := 0x02000001
  newDevice _ _ devfn := blankDevice devfn

/-- 起動の走査だけである。 -/
def ScanOnly (_ : Registry) : PciEvent → Prop
  | .scan _ _ _ => True
  | .rescan _ _ => False

instance : ∀ s e, Decidable (ScanOnly s e)
  | _, .scan _ _ _ => isTrue trivial
  | _, .rescan _ _ => isFalse id

theorem sampleFunctions_runs :
    ((runAll pciStep ScanOnly [.scan sampleFunctions 0 0, .scan sampleFunctions 0 8, .scan sampleFunctions 0 16]
      (Registry.empty fun _ => ⟨blankDevice 0, none⟩)).any fun s =>
        s.brk = 3 ∧ (s.nodes 1).dev.index = 1 ∧ (s.nodes 2).dev.index = 0) = true := by
  decide

theorem exists_sampleFunctions : ∃ s, Reaches pciStep ScanOnly (Registry.empty fun _ => ⟨blankDevice 0, none⟩) s ∧ s.brk = 3 ∧
    (s.nodes 1).dev.index = 1 ∧ (s.nodes 2).dev.index = 0 := by
  obtain ⟨s, hs, hp⟩ := (Option.any_eq_true _ _).mp sampleFunctions_runs
  exact ⟨s, runAll_reaches hs, of_decide_eq_true hp⟩

/-- 起動の走査と `rescan()` をどのように重ねても、記録した装置が 256 個までなら、並びのどの装置も、自分の番号と `Index` で
`PCI_find_device()` に見つかり、同じ番号の装置の `Index` は並びの順に増える。 -/
theorem pciFindDevice_unique {ok : Registry → PciEvent → Prop} {nodes : Nat → Node}
    (h : Reaches pciStep ok (Registry.empty nodes) s) (hb : s.brk ≤ 256) :
    ∃ devs, Holds s devs ∧ Indexed devs ∧
      ∀ dev ∈ devs, pciFindDevice devs dev.deviceId dev.vendorId dev.index = (.success, some dev.key) := by
  obtain ⟨devs, hn⟩ := NumberedList.reaches h
  have hindexed := hn.indexed hb
  refine ⟨devs, hn.holds, hindexed, fun dev hdev => ?_⟩
  obtain ⟨hv, hd⟩ := hn.masked dev hdev
  rw [pciFindDevice_eq]
  cases hfind : devs.find? _ with
  | none =>
      have := List.find?_eq_none.mp hfind dev hdev
      simp [hv, hd] at this
  | some other =>
      have hmem := List.mem_of_find?_eq_some hfind
      have hp := List.find?_some hfind
      obtain ⟨hv', hd', hi'⟩ := of_decide_eq_true hp
      obtain ⟨hmv, hmd⟩ := hn.masked other hmem
      rw [hmv] at hv'
      rw [hmd] at hd'
      rw [hindexed.unique hmem hdev hv' hd' hi']
      rfl

theorem pciFindDevice_unique_sample : ∃ s, s.brk = 3 ∧ (s.nodes 1).dev.index = 1 ∧
    ∃ devs, Holds s devs ∧ Indexed devs ∧
      ∀ dev ∈ devs, pciFindDevice devs dev.deviceId dev.vendorId dev.index = (.success, some dev.key) := by
  obtain ⟨s, h, hb, hi, -⟩ := exists_sampleFunctions
  exact ⟨s, hb, hi, pciFindDevice_unique h (by rw [hb]; decide)⟩

/-! ### 走査だけの列 -/

/-- 同じ番号の装置の `Index` は、`0` から順に並ぶ。 -/
def Contiguous (vendor deviceid : Nat) (devs : List Device) : Prop :=
  (devs.filter fun dev => HasIds vendor deviceid dev).map Device.index =
    List.range (devs.filter fun dev => HasIds vendor deviceid dev).length

theorem Contiguous.nextIndex {vendor deviceid : Nat} (h : Contiguous vendor deviceid devs) :
    nextIndex vendor deviceid devs 0 = (devs.filter fun dev => HasIds vendor deviceid dev).length := by
  induction devs using List.reverseRecOn with
  | nil => rfl
  | append_singleton devs last ih =>
      rw [nextIndex_concat]
      rw [Contiguous, List.filter_append] at h
      by_cases hid : HasIds vendor deviceid last
      · have hone : [last].filter (fun dev => HasIds vendor deviceid dev) = [last] := by simp [hid]
        rw [hone, List.map_append, List.length_append, List.length_singleton, List.range_succ] at h
        obtain ⟨-, hlast⟩ := List.append_inj' h rfl
        rw [if_pos hid, List.filter_append, hone, List.length_append, List.length_singleton]
        exact congrArg (· + 1) (List.singleton_inj.mp hlast)
      · have hnone : [last].filter (fun dev => HasIds vendor deviceid dev) = [] := by simp [hid]
        rw [hnone, List.append_nil] at h
        rw [if_neg hid, List.filter_append, hnone, List.append_nil]
        exact ih h

theorem Contiguous.concat {vendor deviceid : Nat} (h : Contiguous vendor deviceid devs) {dev : Device}
    (hi : HasIds vendor deviceid dev → dev.index = Pci.nextIndex vendor deviceid devs 0) :
    Contiguous vendor deviceid (devs ++ [dev]) := by
  rw [Contiguous, List.filter_append]
  by_cases hid : HasIds vendor deviceid dev
  · have hone : [dev].filter (fun dev => HasIds vendor deviceid dev) = [dev] := by simp [hid]
    rw [hone, List.map_append, List.length_append, List.length_singleton, List.range_succ, h, List.map_singleton, hi hid,
      h.nextIndex]
  · have hnone : [dev].filter (fun dev => HasIds vendor deviceid dev) = [] := by simp [hid]
    rw [hnone, List.append_nil]
    exact h

/-- `Index` が `0` から順に並んでいれば、`Index` で探すことは順に数えることである。 -/
theorem find?_index (h : devs.map Device.index = List.range devs.length) (index : Nat) :
    devs.find? (fun dev => dev.index = index) = devs[index]? := by
  have hat : ∀ j (hj : j < devs.length), (devs[j]).index = j := by
    intro j hj
    have := List.getElem_map Device.index (l := devs) (i := j) (h := by simpa using hj)
    rw [← this]
    simp only [h, List.getElem_range]
  by_cases hlt : index < devs.length
  · rw [List.getElem?_eq_getElem hlt, List.find?_eq_some_iff_getElem]
    refine ⟨decide_eq_true (hat index hlt), index, hlt, rfl, fun j hj => ?_⟩
    simp [hat j (by omega), Nat.ne_of_lt hj]
  · rw [List.getElem?_eq_none (by omega), List.find?_eq_none]
    intro dev hdev
    obtain ⟨j, hj, rfl⟩ := List.getElem_of_mem hdev
    simp only [hat j hj, decide_eq_true_eq]
    omega

theorem NumberedList.find?_ids (h : NumberedList s devs) (vendor deviceid index : Nat) :
    devs.find? (fun d => d.vendorId &&& 0xffff = vendor ∧ d.deviceId &&& 0xffff = deviceid ∧ d.index = index) =
      (devs.filter fun dev => HasIds vendor deviceid dev).find? fun dev => dev.index = index := by
  rw [List.find?_filter]
  refine List.find?_congr fun dev hdev => ?_
  obtain ⟨hv, hd⟩ := h.masked dev hdev
  rw [hv, hd]
  refine decide_eq_decide.mpr ?_
  rw [decide_eq_true_eq, decide_eq_true_eq, HasIds, and_assoc]

/-- 起動の走査の後、`0` から順に `PCI_find_device()` を呼べば、同じ番号の装置がちょうど一度ずつ、並びの順に見つかる。 -/
theorem pciFindDevice_enumerates {nodes : Nat → Node} (h : Reaches pciStep ScanOnly (Registry.empty nodes) s)
    (hb : s.brk ≤ 256) :
    ∃ devs, Holds s devs ∧ ∀ deviceId vendorId index,
      pciFindDevice devs deviceId vendorId index = found (devs.filter fun dev => HasIds vendorId deviceId dev)[index]? := by
  obtain ⟨devs, hn, hc⟩ := h.invariant (P := fun s => ∃ devs, NumberedList s devs ∧ (s.brk ≤ 256 → ∀ v d, Contiguous v d devs))
    ⟨[], ⟨⟨[], List.nodup_nil, nofun, rfl, rfl, rfl⟩, nofun, fun _ => nofun, fun _ => .nil⟩, fun _ _ _ => rfl⟩
    fun u e u' hu hok hrun => by
      obtain ⟨devs, hn, hc⟩ := hu
      cases e with
      | rescan cfg fuel => exact hok.elim
      | scan cfg bus devfn =>
          have hrun : scanDevice cfg.numbered u bus devfn = some u' := by
            simp only [pciStep] at hrun
            cases ho : scanDevice cfg.numbered u bus devfn <;> rw [ho] at hrun <;> cases hrun
            rfl
          have hbrk := scanDevice_brk hrun
          refine ⟨_, hn.scan hrun, fun hb v d => (hc (by omega) v d).concat ?_⟩
          rintro ⟨rfl, rfl⟩
          exact (hn.scanned_index (by omega) bus devfn).1
  refine ⟨devs, hn.holds, fun deviceId vendorId index => ?_⟩
  rw [pciFindDevice_eq, hn.find?_ids, find?_index (hc hb vendorId deviceId)]

theorem pciFindDevice_enumerates_sample : ∃ s, s.brk = 3 ∧ (s.nodes 1).dev.index = 1 ∧
    ∃ devs, Holds s devs ∧ ∀ deviceId vendorId index,
      pciFindDevice devs deviceId vendorId index = found (devs.filter fun dev => HasIds vendorId deviceId dev)[index]? := by
  obtain ⟨s, h, hb, hi, -⟩ := exists_sampleFunctions
  exact ⟨s, hb, hi, pciFindDevice_enumerates h (by rw [hb]; decide)⟩

/-! ### クラスによる列挙 -/

theorem searchClassLoop_spec (classCode idx : Nat) (devs : List Device) (i : Nat) {oidx : Nat} (h : oidx ≤ idx) :
    ((searchClassLoop classCode idx devs i oidx).map fun k => k - i).bind (fun j => devs[j]?) =
        (devs.filter fun dev => dev.classCode = classCode)[idx - oidx]? ∧
      ∀ k, searchClassLoop classCode idx devs i oidx = some k → i ≤ k ∧ k - i < devs.length := by
  induction devs generalizing i oidx with
  | nil => exact ⟨rfl, nofun⟩
  | cons d devs ih =>
      have shift {o : Option Nat} (ho : ∀ k, o = some k → i + 1 ≤ k ∧ k - (i + 1) < devs.length) :
          (o.map fun k => k - i).bind (fun j => (d :: devs)[j]?) = (o.map fun k => k - (i + 1)).bind (fun j => devs[j]?) ∧
            ∀ k, o = some k → i ≤ k ∧ k - i < (d :: devs).length := by
        cases o with
        | none => exact ⟨rfl, nofun⟩
        | some k =>
            obtain ⟨hle, hlt⟩ := ho k rfl
            have hsub : k - i = k - (i + 1) + 1 := by omega
            refine ⟨?_, fun k' hk' => ?_⟩
            · simp only [Option.map_some, Option.bind_some, hsub, List.getElem?_cons_succ]
            · cases hk'
              exact ⟨by omega, by rw [hsub, List.length_cons]; omega⟩
      rw [searchClassLoop, List.filter_cons]
      by_cases hc : d.classCode = classCode
      · rw [if_pos hc, if_pos (decide_eq_true hc)]
        by_cases ho : oidx = idx
        · rw [if_pos ho, ho, Nat.sub_self]
          refine ⟨by simp, fun k hk => ?_⟩
          cases hk
          exact ⟨Nat.le_refl _, by simp⟩
        · rw [if_neg ho]
          obtain ⟨hfind, hbound⟩ := ih (i + 1) (show oidx + 1 ≤ idx by omega)
          obtain ⟨h1, h2⟩ := shift hbound
          refine ⟨?_, h2⟩
          rw [h1, hfind, show idx - oidx = idx - (oidx + 1) + 1 by omega, List.getElem?_cons_succ]
      · rw [if_neg hc, if_neg (by simpa using hc)]
        obtain ⟨hfind, hbound⟩ := ih (i + 1) h
        obtain ⟨h1, h2⟩ := shift hbound
        exact ⟨h1.trans hfind, h2⟩

/-- `PCI_find_class()` は並びの中の順で数えるので、どのように抜き差しした後でも、`0` から順に呼べば、そのクラスの装置がちょうど
一度ずつ見つかる。 -/
theorem pciFindClass_enumerates {ok : Registry → PciEvent → Prop} {nodes : Nat → Node}
    (h : Reaches pciStep ok (Registry.empty nodes) s) :
    ∃ devs, Holds s devs ∧ ∀ classCode index,
      pciFindClass devs true classCode index = found (devs.filter fun dev => dev.classCode = classCode)[index]? := by
  obtain ⟨devs, hn⟩ := NumberedList.reaches h
  refine ⟨devs, hn.holds, fun classCode index => ?_⟩
  obtain ⟨hfind, hbound⟩ := searchClassLoop_spec classCode index devs 0 (Nat.zero_le index)
  rw [Nat.sub_zero] at hfind
  rw [← hfind, pciFindClass, if_pos rfl, searchClass]
  cases hs : searchClassLoop classCode index devs 0 0 with
  | none => rfl
  | some k =>
      obtain ⟨-, hlt⟩ := hbound k hs
      simp only [Nat.sub_zero, Option.map_some, Option.bind_some] at hlt ⊢
      rw [List.getElem?_eq_getElem hlt]
      rfl

theorem pciFindClass_enumerates_sample : ∃ s, s.brk = 3 ∧ ∃ devs, Holds s devs ∧ ∀ classCode index,
    pciFindClass devs true classCode index = found (devs.filter fun dev => dev.classCode = classCode)[index]? := by
  obtain ⟨s, h, hb, -⟩ := exists_sampleFunctions
  exact ⟨s, hb, pciFindClass_enumerates h⟩

end Imx6Bsp.Pci
