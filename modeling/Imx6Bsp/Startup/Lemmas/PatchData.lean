import Imx6Bsp.Startup.Lemmas.SyspageRun

/-!
# 書き換えのデータの不変条件

`patch_data` の項目は枠の番地を鍵に持つ。節がずれても、システムページが移っても、鍵は同じ節の同じ位置を指し続ける。
-/

namespace Imx6Bsp.Startup

open Imx6Bsp.Lib

variable {fmt : SyspageFormat} {rtns : Nat → CalloutRtn}

/-- `patch_data` の項目と登録の記録が一致する。 -/
structure SyspageTrace.Patched (t : SyspageTrace) : Prop where
  sound : ∀ d ∈ t.sp.patchData, ∃ s off, off < t.sp.size s ∧ d.owner = t.sp.p s + off ∧ t.reg s off = some d.data
  complete : ∀ s off v, t.reg s off = some v → off < t.sp.size s ∧ ∃ d ∈ t.sp.patchData, d.owner = t.sp.p s + off

/-- システムページを移す先は、元のヘッダの `total_size` の欄に重ならない。移さないときは重なってよい。 -/
def SyspageTrace.RelocClear (fmt : SyspageFormat) (t : SyspageTrace) : SyspageCall → Prop
  | .reloc base _ => base = t.sp.p .syspage ∨ base + t.sp.totalSize fmt ≤ t.sp.p .syspage + fmt.totalSizeOff ∨
      t.sp.p .syspage + fmt.totalSizeOff + fmt.fieldBytes ≤ base
  | _ => True

instance SyspageTrace.decidableRelocClear (fmt : SyspageFormat) (t : SyspageTrace) : (c : SyspageCall) → Decidable (t.RelocClear fmt c)
  | .reloc _ _ => inferInstanceAs (Decidable (_ ∨ _ ∨ _))
  | .set _ _ => isTrue trivial
  | .grow _ _ => isTrue trivial
  | .store _ _ _ => isTrue trivial
  | .register _ _ _ => isTrue trivial

/-- 鍵を写す関数。 -/
def relocOwner (base len diff o : Nat) : Nat := if base ≤ o ∧ wrap32 (base + len) > o then wrap32 (o + diff) else o

theorem calloutRelocData_eq (base len diff : Nat) (pd : List CoInfo) :
    calloutRelocData base len diff pd = pd.map fun d => { d with owner := relocOwner base len diff d.owner } := by
  refine List.map_congr_left fun d _ => ?_
  unfold relocOwner
  split <;> rfl

namespace SyspageTrace

variable {t u : SyspageTrace}

/-- 節の中の番地を同じ節の同じ位置に写す鍵の書き換えは、一致を保つ。 -/
theorem Patched.map (h : t.Patched) (f : Nat → Nat)
    (hpd : u.sp.patchData = t.sp.patchData.map fun d => { d with owner := f d.owner })
    (hf : ∀ s off, off < t.sp.size s → f (t.sp.p s + off) = u.sp.p s + off)
    (hsize : ∀ s, t.sp.size s ≤ u.sp.size s) (hreg : u.reg = t.reg) : u.Patched := by
  constructor
  · intro d hd
    rw [hpd] at hd
    obtain ⟨d', hd', rfl⟩ := List.mem_map.mp hd
    obtain ⟨s, off, hoff, howner, hr⟩ := h.sound d' hd'
    exact ⟨s, off, hoff.trans_le (hsize s), by rw [← hf s off hoff, ← howner], by rw [hreg]; exact hr⟩
  · intro s off v hv
    rw [hreg] at hv
    obtain ⟨hoff, d, hd, howner⟩ := h.complete s off v hv
    refine ⟨hoff.trans_le (hsize s), { d with owner := f d.owner }, ?_, ?_⟩
    · rw [hpd]; exact List.mem_map_of_mem hd
    · rw [← hf s off hoff, ← howner]

theorem Patched.congr (h : t.Patched) (hpd : u.sp.patchData = t.sp.patchData)
    (hp : ∀ s off, off < t.sp.size s → t.sp.p s = u.sp.p s) (hsize : ∀ s, t.sp.size s ≤ u.sp.size s)
    (hreg : u.reg = t.reg) : u.Patched :=
  h.map id (by rw [hpd]; simp) (fun s off hoff => by rw [hp s off hoff]; rfl) hsize hreg

/-- 登録の記録があれば、それを読む。なければ `NULL` を読む。 -/
theorem Patched.patchDataOf_eq (h : t.Patched) {fixed : List Sect} (hl : t.sp.Layout fmt fixed) {s : Sect} {off : Nat}
    (hoff : off < t.sp.size s) : patchDataOf t.sp.patchData (t.sp.p s + off) = (t.reg s off).getD 0 := by
  unfold patchDataOf
  split
  · rename_i d hd
    have howner : d.owner = t.sp.p s + off := by simpa using List.find?_some hd
    obtain ⟨s', off', hoff', howner', hr⟩ := h.sound d (List.mem_of_find?_eq_some hd)
    obtain ⟨rfl, rfl⟩ := hl.addr_inj hoff hoff' (by rw [← howner, howner'])
    rw [hr]; rfl
  · rename_i hnone
    cases hr : t.reg s off with
    | none => rfl
    | some v =>
        obtain ⟨_, d, hd, howner⟩ := h.complete s off v hr
        have := List.find?_eq_none.mp hnone d hd
        exact absurd (decide_eq_true howner) this

/-- 隙間を空けるとき、鍵は節とともにずれる。 -/
theorem relocOwner_grow {fixed : List Sect} {sp : Syspage} (hl : sp.Layout fmt fixed) (sect : Sect) {k : Nat}
    (hk : sp.totalSize fmt + k ≤ sp.maxSize fmt) {s : Sect} {off : Nat} (hoff : off < sp.size s) :
    relocOwner (sp.p .syspage + sp.off sect + sp.size sect) (sp.totalSize fmt - (sp.off sect + sp.size sect)) k
      (sp.p s + off) = (growBy fmt sp sect k).p s + off := by
  have hroom := hl.room
  have hp := hl.p_eq s
  have hin := hl.inside s
  have hin' := hl.inside sect
  change _ = sp.p .syspage + openGap sp.off sp.size sect k s + off
  unfold relocOwner
  rw [wrap32_of_lt (x := sp.p .syspage + sp.off sect + sp.size sect + _) (by omega), hp]
  by_cases hs : s = sect
  · subst hs
    rw [openGap_self, if_neg (by omega)]
  · rcases hl.packed.apart s sect hs with hlt | hge
    · rw [openGap_of_lt k (by omega), if_neg (by omega)]
    · rw [openGap_of_le k hs hge, if_pos (by omega), wrap32_of_lt (by omega)]; omega

theorem growBy_size_le (sp : Syspage) (sect : Sect) (k : Nat) (s : Sect) : sp.size s ≤ (growBy fmt sp sect k).size s := by
  change sp.size s ≤ Function.update sp.size sect (sp.size sect + k) s
  by_cases hs : s = sect
  · subst hs; rw [Function.update_self]; omega
  · rw [Function.update_of_ne hs]

/-- 節を伸ばすとき、一致は保たれる。 -/
theorem Patched.growBy (h : t.Patched) {fixed : List Sect} (hl : t.sp.Layout fmt fixed) (sect : Sect) {k : Nat}
    (hk : t.sp.totalSize fmt + k ≤ t.sp.maxSize fmt) (hsp : u.sp = growBy fmt t.sp sect k) (hreg : u.reg = t.reg) :
    u.Patched := by
  refine h.map (relocOwner (t.sp.p .syspage + t.sp.off sect + t.sp.size sect)
    (t.sp.totalSize fmt - (t.sp.off sect + t.sp.size sect)) k) ?_ (fun s off hoff => ?_) (fun s => ?_) hreg
  · rw [hsp]; exact calloutRelocData_eq _ _ _ _
  · rw [hsp]; exact relocOwner_grow hl sect hk hoff
  · rw [hsp]; exact growBy_size_le _ _ _ _

/-- 移す先が元の `total_size` の欄に重ならなければ、二度目に読む `total_size` も変わらない。 -/
theorem reloc_len {fixed : List Sect} {sp : Syspage} (hl : sp.Layout fmt fixed) (hfmt : fmt.Ok) {base : Nat}
    (hclear : base = sp.p .syspage ∨ base + sp.totalSize fmt ≤ sp.p .syspage + fmt.totalSizeOff ∨
      sp.p .syspage + fmt.totalSizeOff + fmt.fieldBytes ≤ base) :
    (sp.mem.move base (sp.p .syspage) (sp.totalSize fmt)).readLE (sp.p .syspage + fmt.totalSizeOff) fmt.fieldBytes =
      sp.totalSize fmt := by
  have htot := hfmt.total_in
  have hh := hl.header
  have hin := hl.inside .syspage
  refine Mem.readLE_congr fun i hi => ?_
  rcases hclear with rfl | hclear
  · rw [Nat.add_assoc, Mem.move_in (by omega)]
  · exact Mem.move_out (by omega)

theorem Patched.reloc (h : t.Patched) {fixed : List Sect} (hl : t.sp.Layout fmt fixed) (hfmt : fmt.Ok)
    {base maxSize : Nat} (hle : t.sp.totalSize fmt ≤ maxSize) (hb : base + maxSize < 2 ^ 32)
    (hclear : t.RelocClear fmt (.reloc base maxSize)) (hsp : u.sp = relocSyspageMemory fmt t.sp base maxSize)
    (hreg : u.reg = t.reg) : u.Patched := by
  have hlen := reloc_len hl hfmt hclear
  have hroom := hl.room
  have hmax := hl.total_le
  refine h.map (relocOwner (t.sp.p .syspage) (t.sp.totalSize fmt) (wrap32 (base + (2 ^ 32 - t.sp.p .syspage))))
    ?_ (fun s off hoff => ?_) (fun s => ?_) hreg
  · rw [hsp, ← calloutRelocData_eq, ← hlen]; rfl
  · have hp := hl.p_eq s
    have hin := hl.inside s
    rw [hsp, hl.reloc_p hle hb]
    unfold relocOwner
    rw [wrap32_of_lt (x := t.sp.p .syspage + t.sp.totalSize fmt) (by omega), if_pos (by omega), hp]
    unfold wrap32; omega
  · rw [hsp]; exact le_rfl

private theorem update_reg (reg : Sect → Nat → Option Nat) (sect : Sect) (off : Nat) (w : Option Nat) (s : Sect) (i : Nat) :
    Function.update reg sect (Function.update (reg sect) off w) s i = if s = sect ∧ i = off then w else reg s i := by
  by_cases hs : s = sect
  · subst hs
    by_cases hi : i = off
    · subst hi; simp
    · simp [hi]
  · simp [hs]

/-- 登録のない枠の項目を加える。 -/
theorem Patched.insert (h : t.Patched) {sect : Sect} {off data : Nat} (hoff : off < t.sp.size sect)
    (hr : t.reg sect off = none) (hpd : u.sp.patchData = ⟨t.sp.p sect + off, data⟩ :: t.sp.patchData)
    (hp : u.sp.p = t.sp.p) (hsize : u.sp.size = t.sp.size)
    (hreg : u.reg = Function.update t.reg sect (Function.update (t.reg sect) off (some data))) : u.Patched := by
  constructor
  · intro d hd
    rw [hpd] at hd
    rw [hsize, hp, hreg]
    rcases List.mem_cons.mp hd with rfl | hd
    · exact ⟨sect, off, hoff, rfl, by rw [update_reg, if_pos ⟨rfl, rfl⟩]⟩
    · obtain ⟨s, i, hi, howner, hri⟩ := h.sound d hd
      refine ⟨s, i, hi, howner, ?_⟩
      rw [update_reg, if_neg]
      · exact hri
      · rintro ⟨rfl, rfl⟩
        rw [hr] at hri; cases hri
  · intro s i v hv
    rw [hreg, update_reg] at hv
    rw [hsize, hpd, hp]
    split at hv
    · rename_i hsi
      obtain ⟨rfl, rfl⟩ := hsi
      exact ⟨hoff, _, List.mem_cons_self, rfl⟩
    · obtain ⟨hi, d, hd, howner⟩ := h.complete s i v hv
      exact ⟨hi, d, List.mem_cons_of_mem _ hd, howner⟩

/-- 登録は、最初のものだけが残る。 -/
theorem Patched.register (h : t.Patched) {fixed : List Sect} (hl : t.sp.Layout fmt fixed) {sect : Sect} {off : Nat}
    (data : Nat) (hoff : off < t.sp.size sect) (hs : t.step fmt rtns (.register sect off data) = .ok u) : u.Patched := by
  cases hs
  -- 番地の項目があることと、登録の記録があることは同じである。
  have hany : t.sp.patchData.any (fun d => decide (d.owner = t.sp.p sect + off)) = true ↔ t.reg sect off ≠ none := by
    rw [List.any_eq_true]
    constructor
    · rintro ⟨d, hd, howner⟩
      obtain ⟨s', off', hoff', howner', hr⟩ := h.sound d hd
      obtain ⟨rfl, rfl⟩ := hl.addr_inj hoff hoff' (by rw [← of_decide_eq_true howner, howner'])
      rw [hr]; simp
    · intro hne
      obtain ⟨v, hv⟩ := Option.ne_none_iff_exists'.mp hne
      obtain ⟨_, d, hd, howner⟩ := h.complete sect off v hv
      exact ⟨d, hd, decide_eq_true howner⟩
  unfold registerFirst calloutRegisterData
  dsimp only
  by_cases hg : data ≠ 0 ∧ t.sp.mem.readLE (t.sp.p sect + off) 4 ≠ 0 ∧
      (rtns (t.sp.mem.readLE (t.sp.p sect + off) 4)).patcher ≠ 0
  · rw [if_pos hg]
    by_cases hr : t.reg sect off = none
    · rw [if_neg fun ha => (hany.mp ha) hr, if_pos ⟨hg.1, hg.2.1, hg.2.2, hr⟩]
      exact h.insert hoff hr rfl rfl rfl rfl
    · rw [if_pos (hany.mpr hr), if_neg fun hc => hr hc.2.2.2]
      exact h
  · rw [if_neg hg, if_neg fun hc => hg ⟨hc.1, hc.2.1, hc.2.2.1⟩]
    exact h

/-- 前提を満たすどの呼び出しも、一致を保つ。 -/
theorem Patched.step (hfmt : fmt.Ok) (hi : t.Inv fmt) (h : t.Patched) {c : SyspageCall} (hc : t.InDomain fmt c)
    (hclear : t.RelocClear fmt c) (hs : t.step fmt rtns c = .ok u) : u.Patched := by
  have hl := hi.layout
  cases c with
  | set sect size =>
      obtain ⟨sp, hsp, heq⟩ := Except.bind_eq_ok.mp hs
      cases heq
      obtain ⟨h0, hg, hb⟩ := hc
      have hf := hi.fixedSize hg
      -- 空の節の先頭を移しても、どの鍵も変わらない。
      have hplace : ∀ k, ({ t with sp := placeAt t.sp sect k } : SyspageTrace).Patched := fun k =>
        h.congr rfl (fun s off hoff => by
          have hne : s ≠ sect := fun he => by rw [he] at hoff; omega
          exact (Function.update_of_ne hne _ _).symm) (fun _ => le_rfl) rfl
      rcases setSyspageSection_ok hl h0 hf hb hsp with ⟨_, rfl⟩ | ⟨_, hfit, rfl⟩
      · exact (hplace 0).congr rfl (fun _ _ _ => rfl) (fun _ => le_rfl) rfl
      · refine (hplace (round size 8)).growBy (hl.place h0 hf) sect ?_ rfl rfl
        rw [hl.placeAt_total h0, hl.placeAt_max h0]; exact hfit
  | grow sect add =>
      obtain ⟨sp, hsp, heq⟩ := Except.bind_eq_ok.mp hs
      cases heq
      rcases Nat.eq_zero_or_pos add with rfl | hadd
      · rw [growSyspageSection, if_neg (by omega)] at hsp
        cases hsp
        exact h.congr rfl (fun _ _ _ => rfl) (fun _ => le_rfl) rfl
      · have hb : t.sp.totalSize fmt + add + 8 ≤ 2 ^ 32 := hc
        have hlt := round_eight_lt (x := add) (by omega)
        obtain ⟨hfit, rfl⟩ := growSyspageSection_ok hl hadd (by omega) hsp
        exact h.growBy hl sect hfit rfl rfl
  | reloc base maxSize =>
      cases hs
      exact h.reloc hl hfmt hc.1 hc.2.2 hclear rfl rfl
  | store sect off v =>
      cases hs
      exact h.congr rfl (fun _ _ _ => rfl) (fun _ => le_rfl) rfl
  | register sect off data => exact h.register hl data hc hs

theorem start_patched {sp : Syspage} (h : sp.patchData = []) : (SyspageTrace.start sp).Patched where
  sound := fun d hd => by
    have hd' : d ∈ sp.patchData := hd
    rw [h] at hd'; cases hd'
  complete := fun _ _ _ hv => by cases hv

end SyspageTrace

end Imx6Bsp.Startup
