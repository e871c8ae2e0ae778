import Imx6Bsp.Lib.Packing
import Imx6Bsp.Startup.Callouts

/-!
# コールアウトの大きさの見積もり

`output_callouts(1)` の求める大きさは、見た順によらない。命令列の大きさの和と、異なる `rw_size` の指す値の和である。
`rw_addrs` の項目は、古い順に隙間なく並ぶ。
-/

namespace Imx6Bsp.Startup

open Imx6Bsp.Lib

/-! ## 見た関数の大きさの和 -/

/-- `NULL` でない枠の値を、見た順に並べる。 -/
def visited (mem : Mem) (slots : List Nat) : List Nat := (slots.map (mem.readLE · 4)).filter (· ≠ 0)

/-- 命令列の大きさの和。 -/
def codeSize (defs : CalloutDefs) (l : List Nat) : Nat := (l.map fun v => (defs.rtns v).code.length).sum

/-- 異なる `rw_size` のポインタ。 -/
def rwPtrs (defs : CalloutDefs) (l : List Nat) : Finset Nat := ((l.map fun v => (defs.rtns v).rwSize).filter (· ≠ 0)).toFinset

/-- 異なる `rw_size` の指す値の和。 -/
def rwTotal (defs : CalloutDefs) (l : List Nat) : Nat := ∑ q ∈ rwPtrs defs l, defs.rwVal q

variable {defs : CalloutDefs}

theorem visited_append (mem : Mem) (l l' : List Nat) : visited mem (l ++ l') = visited mem l ++ visited mem l' := by
  simp [visited]

theorem visited_null {mem : Mem} {rp : Nat} (h : mem.readLE rp 4 = 0) : visited mem [rp] = [] := by
  simp [visited, h]

theorem visited_rtn {mem : Mem} {rp : Nat} (h : mem.readLE rp 4 ≠ 0) : visited mem [rp] = [mem.readLE rp 4] := by
  simp [visited, h]

theorem codeSize_append (l l' : List Nat) : codeSize defs (l ++ l') = codeSize defs l + codeSize defs l' := by
  simp [codeSize]

variable (defs) in
theorem codeSize_singleton (v : Nat) : codeSize defs [v] = (defs.rtns v).code.length := by simp [codeSize]

theorem mem_rwPtrs {l : List Nat} {q : Nat} : q ∈ rwPtrs defs l ↔ q ≠ 0 ∧ ∃ v ∈ l, (defs.rtns v).rwSize = q := by
  simp only [rwPtrs, List.mem_toFinset, List.mem_filter, List.mem_map, decide_eq_true_eq]
  tauto

theorem rwPtrs_append_mono (l l' : List Nat) : rwPtrs defs l ⊆ rwPtrs defs (l ++ l') := by
  intro q hq
  obtain ⟨h0, v, hv, he⟩ := mem_rwPtrs.mp hq
  exact mem_rwPtrs.mpr ⟨h0, v, List.mem_append_left _ hv, he⟩

theorem rwTotal_append_mono (l l' : List Nat) : rwTotal defs l ≤ rwTotal defs (l ++ l') :=
  Finset.sum_le_sum_of_subset (rwPtrs_append_mono l l')

/-- 新しいポインタを持たない関数は、和を変えない。 -/
theorem rwPtrs_append_old {l : List Nat} {v : Nat}
    (h : (defs.rtns v).rwSize = 0 ∨ (defs.rtns v).rwSize ∈ rwPtrs defs l) : rwPtrs defs (l ++ [v]) = rwPtrs defs l := by
  refine Finset.Subset.antisymm (fun q hq => ?_) (rwPtrs_append_mono l [v])
  obtain ⟨h0, u, hu, rfl⟩ := mem_rwPtrs.mp hq
  rcases List.mem_append.mp hu with hu | hu
  · exact mem_rwPtrs.mpr ⟨h0, u, hu, rfl⟩
  · rw [List.mem_singleton.mp hu] at h0 ⊢
    exact h.resolve_left h0

theorem rwPtrs_append_new {l : List Nat} {v : Nat} (h0 : (defs.rtns v).rwSize ≠ 0) :
    rwPtrs defs (l ++ [v]) = insert (defs.rtns v).rwSize (rwPtrs defs l) := by
  ext q
  simp only [Finset.mem_insert, mem_rwPtrs, List.mem_append, List.mem_singleton]
  constructor
  · rintro ⟨hq, u, hu | rfl, rfl⟩
    · exact Or.inr ⟨hq, u, hu, rfl⟩
    · exact Or.inl rfl
  · rintro (rfl | ⟨hq, u, hu, rfl⟩)
    · exact ⟨h0, v, Or.inr rfl, rfl⟩
    · exact ⟨hq, u, Or.inl hu, rfl⟩

/-! ## `rw_addrs` の配置 -/

/-- 関数の列 `l` を見た後の `rw_addrs` と二つの大きさ。 -/
structure Sized (defs : CalloutDefs) (l : List Nat) (st : CalloutState) : Prop where
  rtnSize : st.rtnSize = codeSize defs l
  rwSize : st.rwSize = rwTotal defs l
  nodup : (st.rwAddrs.map RwInfo.ptr).Nodup
  ptrs : ∀ q, q ∈ st.rwAddrs.map RwInfo.ptr ↔ q ∈ rwPtrs defs l
  chain : Chain RwInfo.off (fun e => defs.rwVal e.ptr) 0 st.rwAddrs.reverse st.rwSize

theorem Sized.init (mem : Mem) : Sized defs [] { mem } where
  rtnSize := rfl
  rwSize := rfl
  nodup := List.nodup_nil
  ptrs := fun q => by simp [rwPtrs]
  chain := rfl

theorem calloutSizeOne_null {st : CalloutState} {rp : Nat} (h : st.mem.readLE rp 4 = 0) : calloutSizeOne defs st rp = st := by
  simp [calloutSizeOne, h]

/-- `NULL` でない枠を一つ見る。 -/
theorem Sized.step {l : List Nat} {st : CalloutState} {rp v : Nat} (h : Sized defs l st) (hv : st.mem.readLE rp 4 = v)
    (hv0 : v ≠ 0) (hcode : codeSize defs (l ++ [v]) < 2 ^ 32) (hrw : rwTotal defs (l ++ [v]) < 2 ^ 32) :
    Sized defs (l ++ [v]) (calloutSizeOne defs st rp) := by
  have hrtn : wrap32 (st.rtnSize + (defs.rtns v).code.length) = codeSize defs (l ++ [v]) := by
    rw [h.rtnSize, ← codeSize_singleton defs v, ← codeSize_append, wrap32_of_lt hcode]
  have hany : st.rwAddrs.any (fun e => decide (e.ptr = (defs.rtns v).rwSize)) = true ↔ (defs.rtns v).rwSize ∈ rwPtrs defs l := by
    rw [← h.ptrs]
    simp only [List.any_eq_true, List.mem_map, decide_eq_true_eq]
  have hold : (defs.rtns v).rwSize = 0 ∨ (defs.rtns v).rwSize ∈ rwPtrs defs l →
      Sized defs (l ++ [v]) { st with rtnSize := wrap32 (st.rtnSize + (defs.rtns v).code.length) } := by
    intro hp
    have heq := rwPtrs_append_old hp
    exact ⟨hrtn, by rw [rwTotal, heq]; exact h.rwSize, h.nodup, fun q => by rw [heq]; exact h.ptrs q, h.chain⟩
  simp only [calloutSizeOne, hv, if_neg hv0]
  split
  · rename_i hp0
    split
    · rename_i hin
      exact hold (Or.inr (hany.mp hin))
    · rename_i hnew
      have hnot : (defs.rtns v).rwSize ∉ rwPtrs defs l := fun hm => hnew (hany.mpr hm)
      have heq := rwPtrs_append_new (l := l) hp0
      have hnext : rwTotal defs (l ++ [v]) = st.rwSize + defs.rwVal (defs.rtns v).rwSize := by
        rw [rwTotal, heq, Finset.sum_insert hnot, Nat.add_comm, ← rwTotal, ← h.rwSize]
      have hsum : wrap32 (st.rwSize + defs.rwVal (defs.rtns v).rwSize) = rwTotal defs (l ++ [v]) := by
        rw [← hnext, wrap32_of_lt hrw]
      refine ⟨hrtn, hsum, ?_, fun q => ?_, ?_⟩
      · rw [List.map_cons, List.nodup_cons]
        exact ⟨fun hm => hnot ((h.ptrs _).mp hm), h.nodup⟩
      · rw [heq, Finset.mem_insert, List.map_cons, List.mem_cons, h.ptrs]
      · rw [List.reverse_cons]
        refine h.chain.append ⟨rfl, ?_⟩
        change st.rwSize + defs.rwVal (defs.rtns v).rwSize = wrap32 (st.rwSize + defs.rwVal (defs.rtns v).rwSize)
        rw [hsum, hnext]
  · rename_i hp0
    exact hold (Or.inl (not_not.mp hp0))

variable (defs) in
theorem calloutSizeOne_frame (st : CalloutState) (rp : Nat) :
    (calloutSizeOne defs st rp).mem = st.mem ∧ (calloutSizeOne defs st rp).emitted = st.emitted := by
  by_cases h0 : st.mem.readLE rp 4 = 0
  · rw [calloutSizeOne_null h0]; exact ⟨rfl, rfl⟩
  · simp only [calloutSizeOne, if_neg h0]
    split_ifs <;> exact ⟨rfl, rfl⟩

variable (defs) in
/-- 枠の列を見た後の状態。 -/
theorem sizing_fold (mem : Mem) (slots : List Nat) (hcode : codeSize defs (visited mem slots) < 2 ^ 32)
    (hrw : rwTotal defs (visited mem slots) < 2 ^ 32) :
    Sized defs (visited mem slots) (slots.foldl (calloutSizeOne defs) { mem }) ∧
      (slots.foldl (calloutSizeOne defs) { mem }).mem = mem ∧
      (slots.foldl (calloutSizeOne defs) { mem }).emitted = [] := by
  induction slots using List.reverseRecOn with
  | nil => exact ⟨Sized.init mem, rfl, rfl⟩
  | append_singleton slots rp ih =>
      rw [visited_append] at hcode hrw ⊢
      have hcode' : codeSize defs (visited mem slots) < 2 ^ 32 := by
        rw [codeSize_append] at hcode; omega
      obtain ⟨hs, hm, he⟩ := ih hcode' ((rwTotal_append_mono _ _).trans_lt hrw)
      rw [List.foldl_append, List.foldl_cons, List.foldl_nil]
      obtain ⟨hm', he'⟩ := calloutSizeOne_frame defs (slots.foldl (calloutSizeOne defs) { mem }) rp
      refine ⟨?_, hm'.trans hm, he'.trans he⟩
      by_cases h0 : mem.readLE rp 4 = 0
      · rw [visited_null h0, List.append_nil, calloutSizeOne_null (by rw [hm]; exact h0)]
        exact hs
      · rw [visited_rtn h0] at hcode hrw ⊢
        exact hs.step (by rw [hm]) h0 hcode hrw

end Imx6Bsp.Startup

namespace Imx6Bsp.Startup

open Imx6Bsp.Lib

/-! ## コールアウトの書き出しの不変条件

`output_callouts(0)` は、見積もりと同じ順に命令列を写す。写した場所は隙間なく並び、枠は写した場所を指す。 -/

/-! ### 一つの枠の書き出し -/

/-- 写す命令列の大きさ。 -/
def Emission.len (defs : CalloutDefs) (e : Emission) : Nat := (defs.rtns e.args.rtn).code.length

/-- `patcher` は、自分の命令列と自分の読み書きの領域の外を変えない。 -/
def CalloutDefs.PatcherOk (defs : CalloutDefs) : Prop :=
  ∀ f args m x,
    (x < args.paddr + args.rtnOffset ∨ args.paddr + args.rtnOffset + (defs.rtns args.rtn).code.length ≤ x) →
    ((defs.rtns args.rtn).rwSize = 0 ∨ x < args.paddr + args.rwOffset ∨
      args.paddr + args.rwOffset + defs.rwVal (defs.rtns args.rtn).rwSize ≤ x) →
    defs.patch f args m x = m x

/-- 命令列を写した記憶域に、`patcher` を働かせる。 -/
def patched (defs : CalloutDefs) (args : PatchArgs) (m : Mem) : Mem :=
  if (defs.rtns args.rtn).patcher ≠ 0 then defs.patch (defs.rtns args.rtn).patcher args m else m

/-- 一つの枠を書き出した記憶域。 -/
def emit (defs : CalloutDefs) (e : Emission) (m : Mem) : Mem :=
  (patched defs e.args (m.copy (e.args.paddr + e.args.rtnOffset) (defs.rtns e.args.rtn).code)).writeLE e.slot 4
    (wrap32 (e.args.vaddr + e.args.rtnOffset))

/-- 番地 `x` が、書き換える関数を持つ枠の読み書きの領域にある。 -/
def Emission.PatchesRw (defs : CalloutDefs) (e : Emission) (x : Nat) : Prop :=
  (defs.rtns e.args.rtn).patcher ≠ 0 ∧ (defs.rtns e.args.rtn).rwSize ≠ 0 ∧ e.args.paddr + e.args.rwOffset ≤ x ∧
    x < e.args.paddr + e.args.rwOffset + defs.rwVal (defs.rtns e.args.rtn).rwSize

variable {defs : CalloutDefs}

theorem patched_out (hpat : defs.PatcherOk) {e : Emission} {m : Mem} {x : Nat}
    (hcode : x < e.args.paddr + e.args.rtnOffset ∨ e.args.paddr + e.args.rtnOffset + e.len defs ≤ x)
    (hrw : ¬ e.PatchesRw defs x) : patched defs e.args m x = m x := by
  unfold patched
  split
  · rename_i hp
    refine hpat _ _ _ _ hcode ?_
    unfold Emission.PatchesRw at hrw
    by_contra hc
    simp only [not_or, not_lt, not_le] at hc
    exact hrw ⟨hp, hc.1, hc.2.1, hc.2.2⟩
  · rfl

theorem emit_out (hpat : defs.PatcherOk) {e : Emission} {m : Mem} {x : Nat}
    (hslot : x < e.slot ∨ e.slot + 4 ≤ x)
    (hcode : x < e.args.paddr + e.args.rtnOffset ∨ e.args.paddr + e.args.rtnOffset + e.len defs ≤ x)
    (hrw : ¬ e.PatchesRw defs x) : emit defs e m x = m x := by
  rw [emit, Mem.writeLE_of_disjoint hslot, patched_out hpat hcode hrw, Mem.copy_out hcode]

theorem emit_slot (e : Emission) (m : Mem) :
    (emit defs e m).readLE e.slot 4 = wrap32 (e.args.vaddr + e.args.rtnOffset) := by
  rw [emit, Mem.readLE_writeLE_self]
  exact Nat.mod_eq_of_lt (wrap32_lt _)

/-! ### 書き出しの前提 -/

/-- 書き出す範囲 `[lo, hi)` と、枠とヘッダの欄の前提。枠は範囲の外にあって互いに重ならず、`NULL` でない枠は一度だけ見る。 -/
structure PageRefs.Ok (refs : PageRefs) (mem : Mem) (slots : List Nat) (lo hi : Nat) : Prop where
  hi_lt : hi < 2 ^ 32
  slot_page : ∀ rp ∈ slots, rp + 4 ≤ lo ∨ hi ≤ rp
  slot_apart : ∀ x ∈ slots, ∀ y ∈ slots, x = y ∨ x + 4 ≤ y ∨ y + 4 ≤ x
  once : (slots.filter (mem.readLE · 4 ≠ 0)).Nodup
  total_page : refs.totalSizePtr + refs.totalSizeBytes ≤ lo ∨ hi ≤ refs.totalSizePtr
  total_slot : ∀ rp ∈ slots, refs.totalSizePtr + refs.totalSizeBytes ≤ rp ∨ rp + 4 ≤ refs.totalSizePtr
  kern_page : refs.kernPtr + 4 ≤ lo ∨ hi ≤ refs.kernPtr
  kern_slot : ∀ rp ∈ slots, refs.kernPtr + 4 ≤ rp ∨ rp + 4 ≤ refs.kernPtr

instance (refs : PageRefs) (mem : Mem) (slots : List Nat) (lo hi : Nat) : Decidable (refs.Ok mem slots lo hi) :=
  decidable_of_iff (hi < 2 ^ 32 ∧ (∀ rp ∈ slots, rp + 4 ≤ lo ∨ hi ≤ rp) ∧
      (∀ x ∈ slots, ∀ y ∈ slots, x = y ∨ x + 4 ≤ y ∨ y + 4 ≤ x) ∧ (slots.filter (mem.readLE · 4 ≠ 0)).Nodup ∧
      (refs.totalSizePtr + refs.totalSizeBytes ≤ lo ∨ hi ≤ refs.totalSizePtr) ∧
      (∀ rp ∈ slots, refs.totalSizePtr + refs.totalSizeBytes ≤ rp ∨ rp + 4 ≤ refs.totalSizePtr) ∧
      (refs.kernPtr + 4 ≤ lo ∨ hi ≤ refs.kernPtr) ∧ ∀ rp ∈ slots, refs.kernPtr + 4 ≤ rp ∨ rp + 4 ≤ refs.kernPtr)
    ⟨fun ⟨h1, h2, h3, h4, h5, h6, h7, h8⟩ => ⟨h1, h2, h3, h4, h5, h6, h7, h8⟩,
      fun ⟨h1, h2, h3, h4, h5, h6, h7, h8⟩ => ⟨h1, h2, h3, h4, h5, h6, h7, h8⟩⟩

/-- 書き出しの間変わらないもの。`total` と `kern` は書き出す前の記憶域の値、`rwAddrs` と `rwSize` は見積もりの結果である。 -/
structure OutputEnv where
  mem : Mem
  total : Nat
  kern : Nat
  rwAddrs : List RwInfo
  rwSize : Nat

/-- 枠の列 `pre` を書き出した後の状態。 -/
structure Written (defs : CalloutDefs) (refs : PageRefs) (pd : List CoInfo) (env : OutputEnv) (pre : List Nat)
    (st : CalloutState) : Prop where
  rwAddrs : st.rwAddrs = env.rwAddrs
  rwSize : st.rwSize = env.rwSize
  slots : st.emitted.map Emission.slot = pre.filter (env.mem.readLE · 4 ≠ 0)
  rtn : ∀ e ∈ st.emitted, e.args.rtn = env.mem.readLE e.slot 4
  args : ∀ e ∈ st.emitted, e.args.paddr = refs.syspagePtr ∧ e.args.vaddr = env.kern ∧ e.args.data = patchDataOf pd e.slot
  cursor : st.rtnSize = if st.emitted = [] then 0 else env.total + env.rwSize + codeSize defs (visited env.mem pre)
  chain : Chain (fun e => e.args.rtnOffset) (Emission.len defs) (env.total + env.rwSize) st.emitted
    (env.total + env.rwSize + codeSize defs (visited env.mem pre))
  rw : ∀ e ∈ st.emitted, (defs.rtns e.args.rtn).rwSize ≠ 0 →
    ∃ r ∈ env.rwAddrs, r.ptr = (defs.rtns e.args.rtn).rwSize ∧ e.args.rwOffset = env.total + r.off
  outside : ∀ x, (x < refs.syspagePtr + env.total ∨
      refs.syspagePtr + env.total + env.rwSize + codeSize defs (visited env.mem pre) ≤ x) →
    (∀ e ∈ st.emitted, x < e.slot ∨ e.slot + 4 ≤ x) → st.mem x = env.mem x
  held : ∀ e ∈ st.emitted, st.mem.readLE e.slot 4 = wrap32 (e.args.vaddr + e.args.rtnOffset)
  copied : ∀ e ∈ st.emitted, ∃ m : Mem,
    (∀ i < e.len defs, m (refs.syspagePtr + e.args.rtnOffset + i) = (defs.rtns e.args.rtn).code.getD i 0) ∧
    ∀ i < e.len defs, st.mem (refs.syspagePtr + e.args.rtnOffset + i) =
      patched defs e.args m (refs.syspagePtr + e.args.rtnOffset + i)
  zeroed : st.emitted ≠ [] → ∀ x, refs.syspagePtr + env.total ≤ x → x < refs.syspagePtr + env.total + env.rwSize →
    st.mem x = 0 ∨ ∃ e ∈ st.emitted, e.PatchesRw defs x

/-- 書き出しの間変わらないものの前提。 -/
structure OutputEnv.Ok (defs : CalloutDefs) (refs : PageRefs) (env : OutputEnv) (slots : List Nat) (hi : Nat) : Prop where
  page : refs.Ok env.mem slots (refs.syspagePtr + env.total) hi
  fits : refs.syspagePtr + env.total + env.rwSize + codeSize defs (visited env.mem slots) ≤ hi
  total : env.mem.readLE refs.totalSizePtr refs.totalSizeBytes = env.total
  total_pos : 0 < env.total
  kern : env.mem.readLE refs.kernPtr 4 = env.kern
  found : ∀ v ∈ visited env.mem slots, (defs.rtns v).rwSize ≠ 0 → ∃ r ∈ env.rwAddrs, r.ptr = (defs.rtns v).rwSize
  rw_in : ∀ r ∈ env.rwAddrs, r.off + defs.rwVal r.ptr ≤ env.rwSize

section

variable {refs : PageRefs} {pd : List CoInfo} {env : OutputEnv} {slots pre : List Nat} {hi rp : Nat} {st : CalloutState}

variable (defs env) in
theorem visited_le (h : pre ++ [rp] <+: slots) :
    codeSize defs (visited env.mem (pre ++ [rp])) ≤ codeSize defs (visited env.mem slots) := by
  obtain ⟨post, rfl⟩ := h
  rw [visited_append _ (pre ++ [rp]), codeSize_append]; omega

/-- 書き出した枠は、これから見る枠ではない。 -/
theorem Written.slot_fresh (hok : env.Ok defs refs slots hi) (h : Written defs refs pd env pre st)
    (hpre : pre ++ [rp] <+: slots) {e : Emission} (he : e ∈ st.emitted) : rp + 4 ≤ e.slot ∨ e.slot + 4 ≤ rp := by
  have hmem : e.slot ∈ pre.filter (env.mem.readLE · 4 ≠ 0) := h.slots ▸ List.mem_map_of_mem he
  obtain ⟨hin, hne⟩ := List.mem_filter.mp hmem
  have hsub := hpre.subset
  have hnd : ((pre ++ [rp]).filter (env.mem.readLE · 4 ≠ 0)).Nodup :=
    hok.page.once.sublist (hpre.sublist.filter _)
  have hneq : e.slot ≠ rp := by
    intro heq
    rw [List.filter_append, List.nodup_append] at hnd
    refine hnd.2.2 e.slot hmem rp ?_ heq
    rw [heq] at hne
    exact List.mem_filter.mpr ⟨List.mem_singleton_self _, hne⟩
  rcases hok.page.slot_apart e.slot (hsub (List.mem_append_left _ hin)) rp (hsub (by simp)) with h1 | h1 | h1
  · exact absurd h1 hneq
  · exact Or.inr h1
  · exact Or.inl h1

theorem Written.slot_mem (h : Written defs refs pd env pre st) (hpre : pre ++ [rp] <+: slots) {e : Emission}
    (he : e ∈ st.emitted) : e.slot ∈ slots := by
  have hmem : e.slot ∈ pre.filter (env.mem.readLE · 4 ≠ 0) := h.slots ▸ List.mem_map_of_mem he
  exact hpre.subset (List.mem_append_left _ (List.mem_filter.mp hmem).1)

/-- 書き出す範囲の外で、枠とも重ならない整数は、書き出しで変わらない。 -/
theorem Written.read_outside (hok : env.Ok defs refs slots hi) (h : Written defs refs pd env pre st)
    (hpre : pre ++ [rp] <+: slots) {a n : Nat} (hpage : a + n ≤ refs.syspagePtr + env.total ∨ hi ≤ a)
    (hslot : ∀ e ∈ st.emitted, a + n ≤ e.slot ∨ e.slot + 4 ≤ a) : st.mem.readLE a n = env.mem.readLE a n := by
  have hfits := hok.fits
  have hle := visited_le defs env hpre
  rw [visited_append, codeSize_append] at hle
  refine Mem.readLE_congr fun i hi => h.outside _ (by omega) fun e he => ?_
  have := hslot e he
  omega

/-- 一つの枠を書き出す前の記憶域。最初の枠では、読み書きの領域を 0 で埋める。 -/
def prepared (refs : PageRefs) (env : OutputEnv) (st : CalloutState) : Mem :=
  if st.emitted = [] then st.mem.zero (refs.syspagePtr + env.total) env.rwSize else st.mem

theorem prepared_out {x : Nat} (hx : x < refs.syspagePtr + env.total ∨ refs.syspagePtr + env.total + env.rwSize ≤ x) :
    prepared refs env st x = st.mem x := by
  unfold prepared
  split
  · exact Mem.zero_out hx
  · rfl

/-- `NULL` でない枠の書き出し。 -/
theorem calloutOutputOne_eq (hok : env.Ok defs refs slots hi) (h : Written defs refs pd env pre st)
    (hpre : pre ++ [rp] <+: slots) (hv : env.mem.readLE rp 4 ≠ 0) :
    ∃ e : Emission, e.slot = rp ∧ e.args.paddr = refs.syspagePtr ∧ e.args.vaddr = env.kern ∧
      e.args.rtnOffset = env.total + env.rwSize + codeSize defs (visited env.mem pre) ∧
      e.args.data = patchDataOf pd rp ∧ e.args.rtn = env.mem.readLE rp 4 ∧
      ((defs.rtns e.args.rtn).rwSize ≠ 0 →
        ∃ r ∈ env.rwAddrs, r.ptr = (defs.rtns e.args.rtn).rwSize ∧ e.args.rwOffset = env.total + r.off) ∧
      calloutOutputOne defs refs pd st rp = some { st with
        mem := emit defs e (prepared refs env st)
        rtnSize := env.total + env.rwSize + codeSize defs (visited env.mem (pre ++ [rp]))
        emitted := st.emitted ++ [e] } := by
  have hrp : rp ∈ slots := hpre.subset (by simp)
  have hfits := hok.fits
  have hhi := hok.page.hi_lt
  have hpos := hok.total_pos
  have hle := visited_le defs env hpre
  have hread : st.mem.readLE rp 4 = env.mem.readLE rp 4 :=
    h.read_outside hok hpre (hok.page.slot_page rp hrp) fun e he => h.slot_fresh hok hpre he
  have htotal : st.mem.readLE refs.totalSizePtr refs.totalSizeBytes = env.total :=
    (h.read_outside hok hpre hok.page.total_page fun e he => hok.page.total_slot _ (h.slot_mem hpre he)).trans hok.total
  have hkern : st.mem.readLE refs.kernPtr 4 = env.kern :=
    (h.read_outside hok hpre hok.page.kern_page fun e he => hok.page.kern_slot _ (h.slot_mem hpre he)).trans hok.kern
  set v := env.mem.readLE rp 4 with hvdef
  have hcode : codeSize defs (visited env.mem (pre ++ [rp])) =
      codeSize defs (visited env.mem pre) + (defs.rtns v).code.length := by
    rw [visited_append, codeSize_append, visited_rtn hv, codeSize_singleton]
  rw [hcode] at hle ⊢
  set c := env.total + env.rwSize + codeSize defs (visited env.mem pre) with hc
  have hwrapT : wrap32 (refs.syspagePtr + env.total) = refs.syspagePtr + env.total := wrap32_of_lt (by omega)
  -- 最初の枠なら `rtn_size` は 0 なので読み書きの領域を 0 で埋め、そうでなければ `rtn_size` は写す位置である。
  have hprep : outputInit refs env.total st = { st with mem := prepared refs env st, rtnSize := c } := by
    have hcur := h.cursor
    unfold outputInit
    by_cases hem : st.emitted = []
    · rw [if_pos hem] at hcur
      have hzero : codeSize defs (visited env.mem pre) = 0 := by
        have hch := h.chain
        rw [hem] at hch
        have : env.total + env.rwSize = env.total + env.rwSize + codeSize defs (visited env.mem pre) := hch
        omega
      have hcc : c = env.total + env.rwSize := by omega
      rw [if_pos hcur, hwrapT, h.rwSize, wrap32_of_lt (by omega), prepared, if_pos hem, hcc]
    · rw [if_neg hem] at hcur
      rw [if_neg (by omega), prepared, if_neg hem, hc, ← hcur]
  have hwrapC : wrap32 (refs.syspagePtr + c) = refs.syspagePtr + c := wrap32_of_lt (by omega)
  have hkern' : ((prepared refs env st).copy (refs.syspagePtr + c) (defs.rtns v).code).readLE refs.kernPtr 4 =
      env.kern := by
    rw [← hkern]
    have := hok.page.kern_page
    refine Mem.readLE_congr fun i hi => ?_
    rw [Mem.copy_out (by omega), prepared_out (by omega)]
  have hlookup : ∃ rwOff, rwOffsetOf st.rwAddrs (defs.rtns v).rwSize env.total = some rwOff ∧
      ((defs.rtns v).rwSize ≠ 0 →
        ∃ r ∈ env.rwAddrs, r.ptr = (defs.rtns v).rwSize ∧ rwOff = env.total + r.off) := by
    unfold rwOffsetOf
    split
    · rename_i hp
      have hvis : v ∈ visited env.mem slots := by
        refine List.mem_filter.mpr ⟨List.mem_map_of_mem hrp, ?_⟩
        exact decide_eq_true hv
      obtain ⟨r, hr, hptr⟩ := hok.found v hvis hp
      rw [h.rwAddrs]
      have hsome : (env.rwAddrs.find? (·.ptr = (defs.rtns v).rwSize)).isSome = true :=
        List.find?_isSome.mpr ⟨r, hr, decide_eq_true hptr⟩
      obtain ⟨r', hr'⟩ := Option.isSome_iff_exists.mp hsome
      have hmem := List.mem_of_find?_eq_some hr'
      have hp' : r'.ptr = (defs.rtns v).rwSize := by simpa using List.find?_some hr'
      have hin := hok.rw_in r' hmem
      refine ⟨env.total + r'.off, ?_, fun _ => ⟨r', hmem, hp', rfl⟩⟩
      rw [hr', Option.map_some, wrap32_of_lt (by omega)]
    · rename_i hp
      exact ⟨env.total, rfl, fun hne => absurd hne hp⟩
  obtain ⟨rwOff, hrw, hrwspec⟩ := hlookup
  refine ⟨⟨rp, refs.syspagePtr, env.kern, c, rwOff, patchDataOf pd rp, v⟩, rfl, rfl, rfl, rfl, rfl, rfl, hrwspec, ?_⟩
  have hsz : wrap32 (c + (defs.rtns v).code.length) = c + (defs.rtns v).code.length := wrap32_of_lt (by omega)
  rw [← Nat.add_assoc, ← hc]
  simp only [calloutOutputOne, hread, if_neg hv, htotal, hprep, hwrapC, hkern', hsz, hrw, Option.bind_eq_bind,
    Option.bind_some]
  rfl

/-! ### 書き出しの一歩 -/

/-- 書き出す枠の記録が、状態と合う。 -/
structure Fresh (defs : CalloutDefs) (refs : PageRefs) (pd : List CoInfo) (env : OutputEnv) (pre : List Nat) (rp : Nat)
    (e : Emission) : Prop where
  slot : e.slot = rp
  paddr : e.args.paddr = refs.syspagePtr
  vaddr : e.args.vaddr = env.kern
  off : e.args.rtnOffset = env.total + env.rwSize + codeSize defs (visited env.mem pre)
  data : e.args.data = patchDataOf pd rp
  rtn : e.args.rtn = env.mem.readLE rp 4
  rw : (defs.rtns e.args.rtn).rwSize ≠ 0 →
    ∃ r ∈ env.rwAddrs, r.ptr = (defs.rtns e.args.rtn).rwSize ∧ e.args.rwOffset = env.total + r.off

theorem PatchesRw.block (hok : env.Ok defs refs slots hi) {e : Emission} (hp : e.args.paddr = refs.syspagePtr)
    (hrw : (defs.rtns e.args.rtn).rwSize ≠ 0 →
      ∃ r ∈ env.rwAddrs, r.ptr = (defs.rtns e.args.rtn).rwSize ∧ e.args.rwOffset = env.total + r.off) {x : Nat}
    (h : e.PatchesRw defs x) :
    refs.syspagePtr + env.total ≤ x ∧ x < refs.syspagePtr + env.total + env.rwSize := by
  obtain ⟨_, h0, h1, h2⟩ := h
  obtain ⟨r, hr, hptr, hoff⟩ := hrw h0
  have := hok.rw_in r hr
  rw [hp, hoff] at h1 h2
  rw [← hptr] at h2
  omega

/-- 枠を書き出しても、枠と、命令列を写す場所と、読み書きの領域の外は変わらない。 -/
theorem Fresh.frame (hpat : defs.PatcherOk) (hok : env.Ok defs refs slots hi) {e : Emission}
    (he : Fresh defs refs pd env pre rp e) {x : Nat} (hs : x < rp ∨ rp + 4 ≤ x)
    (hc : x < refs.syspagePtr + e.args.rtnOffset ∨ refs.syspagePtr + e.args.rtnOffset + e.len defs ≤ x)
    (hb : x < refs.syspagePtr + env.total ∨ refs.syspagePtr + env.total + env.rwSize ≤ x) :
    emit defs e (prepared refs env st) x = st.mem x := by
  rw [emit_out hpat (by rw [he.slot]; exact hs) (by rw [he.paddr]; exact hc) fun hp => ?_, prepared_out hb]
  have := PatchesRw.block hok he.paddr he.rw hp
  omega

theorem Written.step (hpat : defs.PatcherOk) (hok : env.Ok defs refs slots hi) (h : Written defs refs pd env pre st)
    (hpre : pre ++ [rp] <+: slots) (hv : env.mem.readLE rp 4 ≠ 0) {e : Emission}
    (he : Fresh defs refs pd env pre rp e) :
    Written defs refs pd env (pre ++ [rp]) { st with
      mem := emit defs e (prepared refs env st)
      rtnSize := env.total + env.rwSize + codeSize defs (visited env.mem (pre ++ [rp]))
      emitted := st.emitted ++ [e] } := by
  have hrp : rp ∈ slots := hpre.subset (by simp)
  have hfits := hok.fits
  have hle := visited_le defs env hpre
  have hpage := hok.page.slot_page rp hrp
  have hcode : codeSize defs (visited env.mem (pre ++ [rp])) = codeSize defs (visited env.mem pre) + e.len defs := by
    rw [visited_append, codeSize_append, visited_rtn hv, codeSize_singleton, Emission.len, he.rtn]
  have hoff := he.off
  have hfresh := fun e' he' => h.slot_fresh hok hpre (e := e') he'
  have hbounds := fun e' (he' : e' ∈ st.emitted) => h.chain.bounds he'
  have hcases : ∀ {P : Emission → Prop}, (∀ e' ∈ st.emitted, P e') → P e → ∀ e' ∈ st.emitted ++ [e], P e' := by
    intro P h1 h2 e' he'
    rcases List.mem_append.mp he' with he' | he'
    · exact h1 e' he'
    · rw [List.mem_singleton.mp he']; exact h2
  rw [hcode] at hle ⊢
  refine ⟨h.rwAddrs, h.rwSize, ?_, hcases h.rtn (by rw [he.rtn, he.slot]),
    hcases h.args ⟨he.paddr, he.vaddr, by rw [he.data, he.slot]⟩, ?_, ?_, hcases h.rw he.rw, fun x hx hs => ?_,
    hcases (fun e' he' => ?_) ?_, hcases (fun e' he' => ?_) ?_, fun _ x h1 h2 => ?_⟩
  · rw [List.map_append, List.filter_append, h.slots]
    simp [he.slot, hv]
  · rw [if_neg (by simp), hcode]
  · rw [hcode, ← Nat.add_assoc]
    exact h.chain.append ⟨hoff, rfl⟩
  · have hse := hs e (by simp)
    rw [he.slot] at hse
    rw [hcode] at hx
    refine (he.frame hpat hok hse (by omega) (by omega)).trans ?_
    exact h.outside x (by omega) fun e' he' => hs e' (List.mem_append_left _ he')
  · rw [← h.held e' he']
    have hpg := hok.page.slot_page _ (h.slot_mem hpre he')
    have hf := hfresh e' he'
    exact Mem.readLE_congr fun i hi => he.frame hpat hok (by omega) (by omega) (by omega)
  · exact emit_slot e _
  · obtain ⟨m, hm, hst⟩ := h.copied e' he'
    have hb := hbounds e' he'
    refine ⟨m, hm, fun i hi => ?_⟩
    rw [← hst i hi]
    exact he.frame hpat hok (by omega) (by omega) (by omega)
  · refine ⟨(prepared refs env st).copy (refs.syspagePtr + e.args.rtnOffset) (defs.rtns e.args.rtn).code,
      fun i hi => Mem.copy_in hi, fun i hi => ?_⟩
    have hslot := he.slot
    change emit defs e (prepared refs env st) _ = _
    rw [emit, Mem.writeLE_of_disjoint (by omega), he.paddr]
  · by_cases hp : e.PatchesRw defs x
    · exact Or.inr ⟨e, by simp, hp⟩
    · have hslot := he.slot
      have hpa := he.paddr
      change emit defs e (prepared refs env st) x = 0 ∨ _
      rw [emit_out hpat (by omega) (by omega) hp, prepared]
      split
      · exact Or.inl (Mem.zero_in h1 h2)
      · rename_i hne
        rcases h.zeroed hne x h1 h2 with h0 | ⟨e', he', hp'⟩
        · exact Or.inl h0
        · exact Or.inr ⟨e', List.mem_append_left _ he', hp'⟩

/-- 枠の列を順に書き出すと、不変条件を満たす状態になる。 -/
theorem output_fold (hpat : defs.PatcherOk) (hok : env.Ok defs refs slots hi) (hpre : pre <+: slots)
    (st0 : CalloutState) (h0 : Written defs refs pd env [] st0) :
    ∃ st, pre.foldlM (calloutOutputOne defs refs pd) st0 = some st ∧ Written defs refs pd env pre st := by
  induction pre using List.reverseRecOn with
  | nil => exact ⟨st0, rfl, h0⟩
  | append_singleton pre rp ih =>
      obtain ⟨st, hst, hw⟩ := ih ((List.prefix_append pre [rp]).trans hpre)
      rw [List.foldlM_append, hst]
      change ∃ st', (calloutOutputOne defs refs pd st rp).bind _ = some st' ∧ _
      by_cases hv : env.mem.readLE rp 4 = 0
      · have hrp : rp ∈ slots := hpre.subset (by simp)
        have hread : st.mem.readLE rp 4 = 0 :=
          (hw.read_outside hok hpre (hok.page.slot_page rp hrp) fun e he => hw.slot_fresh hok hpre he).trans hv
        have hone : calloutOutputOne defs refs pd st rp = some st := by
          rw [calloutOutputOne, hread]; rfl
        have hvis : visited env.mem (pre ++ [rp]) = visited env.mem pre := by
          rw [visited_append, visited_null hv, List.append_nil]
        refine ⟨st, by rw [hone]; rfl, ⟨hw.rwAddrs, hw.rwSize, ?_, hw.rtn, hw.args, by rw [hvis]; exact hw.cursor,
          by rw [hvis]; exact hw.chain, hw.rw, by rw [hvis]; exact hw.outside, hw.held, hw.copied, hw.zeroed⟩⟩
        rw [List.filter_append, hw.slots]
        simp [hv]
      · obtain ⟨e, h1, h2, h3, h4, h5, h6, h7, heq⟩ := calloutOutputOne_eq hok hw hpre hv
        exact ⟨_, by rw [heq]; rfl, hw.step hpat hok hpre hv ⟨h1, h2, h3, h4, h5, h6, h7⟩⟩

end

end Imx6Bsp.Startup
