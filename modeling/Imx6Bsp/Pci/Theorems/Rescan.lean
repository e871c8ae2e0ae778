import Imx6Bsp.Pci.Lemmas.Rescan

/-!
# `rescan()` のあとの装置の並び

取り除きは、今ある機能の数だけで決まる。橋も新しい機能も数えるので、抜き差しの組み合わせによっては装置が残ったり、加えた装置が外れたりする。
-/

namespace Imx6Bsp.Pci

open Imx6Bsp.Lib

variable {cfg : ConfigSpace} {s : Registry} {devs : List Device}

/-! ## 主定理 -/

/-- `rescan()` は戻り、前からある装置のうち今もあるものの記録を変えず、新しい機能を加え、それだけの並びにする。 -/
def HotPlugs (cfg : ConfigSpace) (fuel : Nat) (s : Registry) (devs : List Device) : Prop :=
  ∃ s' devs', rescan cfg fuel s = some s' ∧ Holds s' devs' ∧ s'.numdevices = devs'.length ∧ (devs'.map Device.key).Nodup ∧
    (∀ f, f ∈ devs'.map Device.key ↔ f ∈ functions cfg ∧ (f ∈ devs.map Device.key ∨ ¬ cfg.IsBridge f.1 f.2)) ∧
    ∀ dev ∈ devs, dev.key ∈ functions cfg → dev ∈ devs'

theorem not_isBridge_of_nullClass {bus devfn : Nat} (h : cfg.NullClass bus devfn) : ¬ cfg.IsBridge bus devfn := by
  rw [ConfigSpace.IsBridge, ConfigSpace.classCode]
  rcases h with h | h
  · rw [h]
    decide
  · rw [h]
    decide

theorem scan_spec {fuel : Nat} (hholds : Holds s devs) (hne : devs ≠ []) (hnum : s.numdevices = devs.length)
    (hfuel : devs.length + (functions cfg).length < fuel) :
    ∃ st, (slots cfg).foldlM (scanSlot cfg fuel) ⟨s, [], 0, 1⟩ = some st ∧ Scanned cfg devs (visited cfg devs) st := by
  have hstart : Scanned cfg devs [] ⟨s, [], 0, 1⟩ :=
    ⟨⟨[], (List.append_nil devs).symm ▸ hholds, rfl⟩, rfl, rfl, hnum⟩
  exact scanSlots_spec hne (slots cfg) hstart (functions_nodup cfg) hfuel

/-- 取り除きのあとに残る装置。 -/
theorem filter_kept {new : List Device} (hnew : new.map Device.key = added cfg devs (visited cfg devs)) :
    (devs ++ new).filter (kept ((visited cfg devs).filter fun f => f ∈ devs.map Device.key)) =
      devs.filter fun dev => dev.key ∈ visited cfg devs := by
  have hdrop : new.filter (kept ((visited cfg devs).filter fun f => f ∈ devs.map Device.key)) = [] := by
    refine List.filter_eq_nil_iff.mpr fun dev hdev hkept => ?_
    have hmem := List.mem_filter.mp (of_decide_eq_true hkept)
    have hadded : dev.key ∈ added cfg devs (visited cfg devs) := hnew ▸ List.mem_map_of_mem hdev
    exact (of_decide_eq_true (List.mem_filter.mp hadded).2).1 (of_decide_eq_true hmem.2)
  rw [List.filter_append, hdrop, List.append_nil]
  refine List.filter_congr fun dev hdev => ?_
  rw [kept]
  refine decide_eq_decide.mpr ?_
  rw [IsKept, List.mem_filter]
  exact and_iff_left (decide_eq_true (List.mem_map_of_mem hdev))

/-- 並び `devs'` は、`rescan()` のあとにあるべき並びである。 -/
structure Correct (cfg : ConfigSpace) (devs devs' : List Device) (n : Nat) : Prop where
  count : n = devs'.length
  nodup : (devs'.map Device.key).Nodup
  mem : ∀ f, f ∈ devs'.map Device.key ↔ f ∈ functions cfg ∧ (f ∈ devs.map Device.key ∨ ¬ cfg.IsBridge f.1 f.2)
  unchanged : ∀ dev ∈ devs, dev.key ∈ functions cfg → dev ∈ devs'

theorem hotPlugs_iff {fuel : Nat} {s' : Registry} {devs' : List Device} (hrun : rescan cfg fuel s = some s')
    (hholds : Holds s' devs') : HotPlugs cfg fuel s devs ↔ Correct cfg devs devs' s'.numdevices := by
  constructor
  · rintro ⟨t, devs₁, hrun', hholds', hcount, hnodup, hmem, hunchanged⟩
    obtain rfl := Option.some.inj (hrun.symm.trans hrun')
    obtain rfl := hholds.unique hholds'
    exact ⟨hcount, hnodup, hmem, hunchanged⟩
  · rintro ⟨hcount, hnodup, hmem, hunchanged⟩
    exact ⟨s', devs', hrun, hholds, hcount, hnodup, hmem, hunchanged⟩

section

variable (hnodup : (devs.map Device.key).Nodup)

include hnodup

theorem survivors_length (cfg : ConfigSpace) :
    (devs.filter fun dev => dev.key ∈ visited cfg devs).length =
      ((visited cfg devs).filter fun f => f ∈ devs.map Device.key).length := by
  have hsub : ((devs.filter fun dev => dev.key ∈ visited cfg devs).map Device.key).Nodup :=
    hnodup.sublist (List.filter_sublist.map _)
  have hperm := (List.perm_ext_iff_of_nodup hsub (((functions_nodup cfg).sublist visited_sublist).filter
    fun f => f ∈ devs.map Device.key)).mpr fun f => by
      simp only [List.mem_map, List.mem_filter, decide_eq_true_eq]
      constructor
      · rintro ⟨dev, ⟨hdev, hv⟩, rfl⟩
        exact ⟨hv, dev, hdev, rfl⟩
      · rintro ⟨hv, dev, hdev, rfl⟩
        exact ⟨dev, ⟨hdev, hv⟩, rfl⟩
  rw [← hperm.length_eq, List.length_map]

/-- 取り除かれた装置がなければ、調べた機能は前の装置より少なくない。 -/
theorem length_le_of_present (h : ∀ dev ∈ devs, dev.key ∈ functions cfg) : devs.length ≤ (functions cfg).length := by
  have hsub : devs.map Device.key ⊆ functions cfg := by
    intro f hf
    obtain ⟨dev, hdev, rfl⟩ := List.mem_map.mp hf
    exact h dev hdev
  have hle := (hnodup.subperm hsub).length_le
  rwa [List.length_map] at hle

/-- 取り除きのあとの並びが正しいのは、調べた機能がどれも前からあるときである。 -/
theorem correct_removed_iff :
    Correct cfg devs (devs.filter fun dev => dev.key ∈ visited cfg devs) (visited cfg devs).length ↔
      ∀ f ∈ functions cfg, f ∈ devs.map Device.key := by
  have hlen := survivors_length hnodup cfg
  constructor
  · intro hcorrect
    have hall : ∀ f ∈ visited cfg devs, f ∈ devs.map Device.key := by
      have hfull := List.length_filter_eq_length_iff.mp (hlen.symm.trans hcorrect.count.symm)
      exact fun f hf => of_decide_eq_true (hfull f hf)
    rw [← visited_eq fun f hf hnull => hnull.1 (hall f hf)]
    exact hall
  · intro hall
    have hvisited : visited cfg devs = functions cfg :=
      visited_eq fun f hf hnull => hnull.1 (hall f (visited_sublist.subset hf))
    rw [hvisited] at hlen ⊢
    constructor
    case count => rw [hlen, List.filter_eq_self.mpr fun f hf => decide_eq_true (hall f hf)]
    case nodup => exact hnodup.sublist (List.filter_sublist.map _)
    case mem =>
      intro f
      simp only [List.mem_map, List.mem_filter, decide_eq_true_eq]
      constructor
      · rintro ⟨dev, ⟨hdev, hv⟩, rfl⟩
        exact ⟨hv, .inl ⟨dev, hdev, rfl⟩⟩
      · rintro ⟨hv, -⟩
        obtain ⟨dev, hdev, rfl⟩ := List.mem_map.mp (hall f hv)
        exact ⟨dev, ⟨hdev, hv⟩, rfl⟩
    case unchanged =>
      intro dev hdev hkey
      exact List.mem_filter.mpr ⟨hdev, decide_eq_true hkey⟩

/-- 取り除きのないときの並びが正しいのは、前の装置がすべてあり、クラスの読めない新しい機能がないときである。 -/
theorem correct_added_iff {new : List Device} (hnew : new.map Device.key = added cfg devs (visited cfg devs)) :
    Correct cfg devs (devs ++ new) (devs.length + (added cfg devs (visited cfg devs)).length) ↔
      (∀ dev ∈ devs, dev.key ∈ functions cfg) ∧ ∀ f ∈ functions cfg, ¬ NewNull cfg devs f := by
  have hadded : ∀ f, f ∈ added cfg devs (visited cfg devs) ↔
      f ∈ visited cfg devs ∧ f ∉ devs.map Device.key ∧ ¬ cfg.NullClass f.1 f.2 ∧ ¬ cfg.IsBridge f.1 f.2 := by
    intro f
    rw [added, List.mem_filter, decide_eq_true_eq, NewDevice]
  have hkeys : (devs ++ new).map Device.key = devs.map Device.key ++ added cfg devs (visited cfg devs) := by
    rw [List.map_append, hnew]
  constructor
  · intro hcorrect
    have hmem := hcorrect.mem
    rw [hkeys] at hmem
    refine ⟨fun dev hdev => ?_, fun f hf hnull => ?_⟩
    · exact ((hmem dev.key).mp (List.mem_append_left _ (List.mem_map_of_mem hdev))).1
    · rcases List.mem_append.mp ((hmem f).mpr ⟨hf, .inr (not_isBridge_of_nullClass hnull.2)⟩) with hin | hin
      · exact hnull.1 hin
      · exact ((hadded f).mp hin).2.2.1 hnull.2
  · rintro ⟨hpresent, hnonull⟩
    have hvisited : visited cfg devs = functions cfg :=
      visited_eq fun f hf => hnonull f (visited_sublist.subset hf)
    rw [hvisited] at hadded hkeys ⊢
    constructor
    case count =>
      have hlen := congrArg List.length hkeys
      rw [List.length_map, List.length_append, List.length_append, List.length_map] at hlen
      rw [List.length_append]
      exact hlen.symm
    case nodup =>
      rw [hkeys]
      refine List.nodup_append.mpr ⟨hnodup, (functions_nodup cfg).filter _, ?_⟩
      rintro f hf g hg rfl
      exact ((hadded f).mp hg).2.1 hf
    case mem =>
      intro f
      rw [hkeys, List.mem_append, hadded]
      constructor
      · rintro (hin | ⟨hf, -, -, hbridge⟩)
        · obtain ⟨dev, hdev, rfl⟩ := List.mem_map.mp hin
          exact ⟨hpresent dev hdev, .inl hin⟩
        · exact ⟨hf, .inr hbridge⟩
      · rintro ⟨hf, hin | hbridge⟩
        · exact .inl hin
        · by_cases hin : f ∈ devs.map Device.key
          · exact .inl hin
          · exact .inr ⟨hf, hin, fun hnull => hnonull f hf ⟨hin, hnull⟩, hbridge⟩
    case unchanged => exact fun dev hdev _ => List.mem_append_left _ hdev

end

/-- 正しく働くのは、取り除かれた装置もクラスの読めない新しい機能もないか、新しい機能も橋もなく、先頭の装置が残るか、装置が一つだけのときである。 -/
theorem rescan_hot_plugs_iff (cfg : ConfigSpace) {fuel : Nat} {s : Registry} {first : Device} {rest : List Device}
    (hholds : Holds s (first :: rest)) (hnum : s.numdevices = (first :: rest).length)
    (hnodup : ((first :: rest).map Device.key).Nodup)
    (hfuel : (first :: rest).length + (functions cfg).length < fuel) :
    HotPlugs cfg fuel s (first :: rest) ↔
      (∀ dev ∈ first :: rest, dev.key ∈ functions cfg) ∧ (∀ f ∈ functions cfg, ¬ NewNull cfg (first :: rest) f) ∨
      (∀ f ∈ functions cfg, f ∈ (first :: rest).map Device.key) ∧ (first.key ∈ functions cfg ∨ rest = []) := by
  obtain ⟨st, hscan, ⟨new, hst, hnew⟩, hres, hcount, hstnum⟩ := scan_spec hholds (List.cons_ne_nil _ _) hnum hfuel
  have hall : ∀ {V : List (Nat × Nat)}, (∀ f ∈ V, f ∈ (first :: rest).map Device.key) →
      ∀ f ∈ V, ¬ NewNull cfg (first :: rest) f := fun h f hf hnull => hnull.1 (h f hf)
  by_cases hlt : st.count < s.numdevices
  · -- 取り除きを行う。
    have hfew : (visited cfg (first :: rest)).length < (first :: rest).length := by rwa [← hcount, ← hnum]
    have hno : ¬ ((∀ dev ∈ first :: rest, dev.key ∈ functions cfg) ∧
        ∀ f ∈ functions cfg, ¬ NewNull cfg (first :: rest) f) := by
      rintro ⟨hpresent, hnonull⟩
      have hvisited := visited_eq fun f hf => hnonull f (visited_sublist.subset hf)
      rw [hvisited] at hfew
      exact absurd (length_le_of_present hnodup hpresent) (Nat.not_le.mpr hfew)
    rw [or_iff_right hno]
    obtain ⟨ids, hids⟩ := hst
    obtain ⟨a, -, -, hhead⟩ := hids.head (List.cons_ne_nil _ _)
    have hst' : Holds { st.reg with numdevices := st.count } (first :: (rest ++ new)) :=
      ⟨ids, hids.nodup, hids.below, hids.chain, hids.tail, hids.devs⟩
    have hrun : rescan cfg fuel s = unlinkLoop st.res fuel { st.reg with numdevices := st.count } none a := by
      rw [rescan, hscan, Option.bind_eq_bind, Option.bind_some, if_pos hlt, hhead]
      rfl
    have hnewlen : new.length ≤ (functions cfg).length := by
      have hlen := congrArg List.length hnew
      rw [List.length_map] at hlen
      rw [hlen]
      exact (List.length_filter_le _ _).trans visited_sublist.length_le
    have hfuel' : (rest ++ new).length < fuel := by
      rw [List.length_cons] at hfuel
      rw [List.length_append]
      omega
    obtain ⟨hremoves, hcrash⟩ := unlink_spec st.res hst' hhead hfuel'
    have hfirst : first.key ∈ st.res ↔ first.key ∈ visited cfg (first :: rest) := by
      rw [hres, List.mem_filter]
      exact and_iff_left (decide_eq_true List.mem_cons_self)
    have hvisited : (∀ f ∈ functions cfg, f ∈ (first :: rest).map Device.key) →
        visited cfg (first :: rest) = functions cfg ∧ new = [] := by
      intro hold
      have hold' : ∀ f ∈ visited cfg (first :: rest), f ∈ (first :: rest).map Device.key :=
        fun f hf => hold f (visited_sublist.subset hf)
      refine ⟨visited_eq (hall hold'), ?_⟩
      rw [← List.map_eq_nil_iff (f := Device.key), hnew, added, List.filter_eq_nil_iff]
      intro f hf h
      exact (of_decide_eq_true h).1 (hold' f hf)
    by_cases hok : first.key ∈ st.res ∨ rest ++ new = []
    · obtain ⟨s', hunlink, hholds', hnum'⟩ := hremoves hok
      have hfilter := filter_kept hnew
      rw [List.cons_append, ← hres] at hfilter
      rw [hfilter] at hholds'
      rw [hotPlugs_iff (hrun.trans hunlink) hholds', hnum']
      dsimp only
      rw [hcount, correct_removed_iff hnodup]
      refine ⟨fun hold => ⟨hold, ?_⟩, And.left⟩
      obtain ⟨hV, rfl⟩ := hvisited hold
      rw [hfirst, hV, List.append_nil] at hok
      exact hok
    · obtain ⟨hgone, hmore⟩ := not_or.mp hok
      refine iff_of_false ?_ ?_
      · rintro ⟨s', devs', hrun', -⟩
        rw [hrun, hcrash hgone hmore] at hrun'
        cases hrun'
      · rintro ⟨hold, hkeep⟩
        obtain ⟨hV, rfl⟩ := hvisited hold
        rw [hfirst, hV] at hgone
        rw [List.append_nil] at hmore
        exact hkeep.elim hgone hmore
  · -- 取り除きを行わない。
    have hrun : rescan cfg fuel s = some st.reg := by
      rw [rescan, hscan]
      exact if_neg hlt
    rw [hotPlugs_iff hrun hst, hstnum, correct_added_iff hnodup hnew]
    refine ⟨.inl, ?_⟩
    rintro (h | ⟨hold, -⟩)
    · exact h
    · have hvisited : visited cfg (first :: rest) = functions cfg :=
        visited_eq (hall fun f hf => hold f (visited_sublist.subset hf))
      have hle : ((first :: rest).map Device.key).length ≤ (functions cfg).length := by
        rw [List.length_map, ← hnum, ← hvisited, ← hcount]
        exact Nat.not_lt.mp hlt
      have hperm := ((functions_nodup cfg).subperm hold).perm_of_length_le hle
      refine ⟨fun dev hdev => hperm.mem_iff.mpr (List.mem_map_of_mem hdev), hall hold⟩

/-! ## 例 -/

def listedDevice (devfn : Nat) : Device := { bmap := ⟨0, 0, 0, 0, 0, 0, 0, 0, 0, 0, 0, 0⟩, busNumber := 0, devFuncNumber := devfn }

/-- 二つの装置の並び。 -/
def sampleRegistry : Registry where
  nodes a := if a = 0 then ⟨listedDevice 0, some 1⟩ else ⟨listedDevice 16, none⟩
  deviceHead := some 0
  deviceTail := some 1
  numdevices := 2
  brk := 2
  released := []

/-- 最初の装置と、番号 8 の PCI-PCI 橋だけがある。 -/
def sampleConfig : ConfigSpace where
  scanBuses := 0
  vendorId _ devfn := if devfn = 0 ∨ devfn = 8 then 0x12341957 else 0xffffffff
  headerType _ devfn := if devfn = 8 then 1 else 0
  revisionId _ devfn := if devfn = 8 then 0x06040001 else 0x02000001
  newDevice _ _ devfn := listedDevice devfn

theorem sampleRegistry_holds : Holds sampleRegistry [listedDevice 0, listedDevice 16] := by
  refine ⟨[0, 1], ?_⟩
  constructor
  case nodup => decide
  case below => decide
  case chain => exact ⟨rfl, rfl, rfl⟩
  case tail => rfl
  case devs => rfl

theorem rescan_hot_plugs_sample :
    HotPlugs sampleConfig 10 sampleRegistry [listedDevice 0, listedDevice 16] ↔
      (∀ dev ∈ [listedDevice 0, listedDevice 16], dev.key ∈ functions sampleConfig) ∧
        (∀ f ∈ functions sampleConfig, ¬ NewNull sampleConfig [listedDevice 0, listedDevice 16] f) ∨
      (∀ f ∈ functions sampleConfig, f ∈ [listedDevice 0, listedDevice 16].map Device.key) ∧
        ((listedDevice 0).key ∈ functions sampleConfig ∨ [listedDevice 16] = []) :=
  rescan_hot_plugs_iff sampleConfig sampleRegistry_holds rfl (by decide) (by decide)

/-- 橋も数えるので、抜かれた装置が残る。 -/
theorem rescan_keeps_removed : ¬ HotPlugs sampleConfig 10 sampleRegistry [listedDevice 0, listedDevice 16] := by
  rintro ⟨s', devs', hrun, -, hcount, hnodup, hmem, -⟩
  have hnum : (rescan sampleConfig 10 sampleRegistry).map Registry.numdevices = some 2 := by decide
  have hfunctions : functions sampleConfig = [(0, 0), (0, 8)] := by decide
  rw [hrun, Option.map_some, hcount] at hnum
  have hsub : devs'.map Device.key ⊆ [(0, 0)] := by
    intro f hf
    have hin := (hmem f).mp hf
    have hlist : ∀ f ∈ [(0, 0), (0, 8)], (f ∈ [listedDevice 0, listedDevice 16].map Device.key ∨
        ¬ sampleConfig.IsBridge f.1 f.2) → f ∈ [(0, 0)] := by decide
    rw [hfunctions] at hin
    exact hlist f hin.1 hin.2
  have hle := (hnodup.subperm hsub).length_le
  rw [List.length_map, Option.some.inj hnum] at hle
  exact absurd hle (by decide)

end Imx6Bsp.Pci
