import Imx6Bsp.Startup.Lemmas.CalloutSizing
import Imx6Bsp.Startup.Lemmas.PatchData
import Imx6Bsp.Startup.Theorems.Syspage

/-!
# コールアウトの二度の走査の定理

`output_callouts(1)` で見積もった大きさのシステムページに、`output_callouts(0)` がすべての命令列と読み書きの領域を重ならずに
置くことを示す。二度の走査の間に、四つまでの `asinfo_entry` が加わってよい。
-/

namespace Imx6Bsp.Startup

open Imx6Bsp.Lib

/-! ## 二度の走査の間 -/

/-- `n` 個の `asinfo_entry` を加える。`asinfoSize` は `sizeof(struct asinfo_entry)` である。 -/
def appendAsinfo (fmt : SyspageFormat) (asinfoSize : Nat) : Nat → Syspage → Except Crash Syspage
  | 0, s => .ok s
  | n + 1, s => do
      let s ← growSyspageSection fmt s .asinfo asinfoSize
      appendAsinfo fmt asinfoSize n s

theorem appendAsinfo_total {fmt : SyspageFormat} (hfmt : fmt.Ok) {asinfoSize : Nat} (h8 : 8 ∣ asinfoSize) {n : Nat}
    {fixed : List Sect} {s s' : Syspage} (hl : s.Layout fmt fixed)
    (hb : s.totalSize fmt + n * asinfoSize + 8 ≤ 2 ^ 32) (hs : appendAsinfo fmt asinfoSize n s = .ok s') :
    s'.totalSize fmt = s.totalSize fmt + n * asinfoSize := by
  induction n generalizing s with
  | zero => cases hs; simp
  | succ n ih =>
      obtain ⟨s1, h1, h2⟩ := Except.bind_eq_ok.mp hs
      rw [Nat.succ_mul] at hb ⊢
      have hr : round asinfoSize 8 = asinfoSize := by
        rw [isAlign_eight.round_eq (by omega), roundUp_of_dvd (by omega) h8]
      rcases Nat.eq_zero_or_pos asinfoSize with rfl | hpos
      · rw [growSyspageSection, if_neg (by omega)] at h1
        cases h1
        simpa using ih hl (by omega) h2
      · obtain ⟨hfit, rfl⟩ := growSyspageSection_ok hl hpos (by omega) h1
        rw [hr] at hfit h2
        have htot := hl.growBy_total .asinfo hfit
        rw [ih (hl.grow hfmt .asinfo hfit) (by omega) h2, htot]; omega

/-- 書き出すときの番地。`kernOff` は `kern_syspageptr` の、`struct system_private_entry` の中の位置である。 -/
def pageRefs (fmt : SyspageFormat) (s : Syspage) (syspagePtr kernOff : Nat) : PageRefs where
  syspagePtr := syspagePtr
  totalSizePtr := s.p .syspage + fmt.totalSizeOff
  totalSizeBytes := fmt.fieldBytes
  kernPtr := s.p .systemPrivate + kernOff

/-! ## 二度の走査の整合 -/

/-- `output_callouts(0)` の結果の整合。`total` は書き出すときの `total_size`、`spsize` はシステムページの大きさ、`rwSize` は
読み書きの領域の大きさ、`mem` は書き出す前の記憶域である。 -/
structure CalloutsPlaced (defs : CalloutDefs) (refs : PageRefs) (mem : Mem) (slots : List Nat) (total rwSize spsize : Nat)
    (st : CalloutState) : Prop where
  visits : st.emitted.map Emission.slot = slots.filter (mem.readLE · 4 ≠ 0)
  rtn : ∀ e ∈ st.emitted, e.args.rtn = mem.readLE e.slot 4
  writes : ∀ x, (x < refs.syspagePtr + total ∨ refs.syspagePtr + spsize ≤ x) →
    (∀ rp ∈ slots, mem.readLE rp 4 ≠ 0 → x < rp ∨ rp + 4 ≤ x) → st.mem x = mem x
  code_in : ∀ e ∈ st.emitted, total + rwSize ≤ e.args.rtnOffset ∧ e.args.rtnOffset + e.len defs ≤ spsize
  code_apart : ∀ e ∈ st.emitted, ∀ e' ∈ st.emitted, e ≠ e' → e.args.rtnOffset + e.len defs ≤ e'.args.rtnOffset ∨
    e'.args.rtnOffset + e'.len defs ≤ e.args.rtnOffset
  rw_in : ∀ e ∈ st.emitted, (defs.rtns e.args.rtn).rwSize ≠ 0 → total ≤ e.args.rwOffset ∧
    e.args.rwOffset + defs.rwVal (defs.rtns e.args.rtn).rwSize ≤ total + rwSize
  rw_same : ∀ e ∈ st.emitted, ∀ e' ∈ st.emitted, (defs.rtns e.args.rtn).rwSize ≠ 0 →
    (defs.rtns e.args.rtn).rwSize = (defs.rtns e'.args.rtn).rwSize → e.args.rwOffset = e'.args.rwOffset
  rw_apart : ∀ e ∈ st.emitted, ∀ e' ∈ st.emitted, (defs.rtns e.args.rtn).rwSize ≠ 0 →
    (defs.rtns e'.args.rtn).rwSize ≠ 0 → (defs.rtns e.args.rtn).rwSize ≠ (defs.rtns e'.args.rtn).rwSize →
    e.args.rwOffset + defs.rwVal (defs.rtns e.args.rtn).rwSize ≤ e'.args.rwOffset ∨
    e'.args.rwOffset + defs.rwVal (defs.rtns e'.args.rtn).rwSize ≤ e.args.rwOffset
  zeroed : st.emitted ≠ [] → ∀ x, refs.syspagePtr + total ≤ x → x < refs.syspagePtr + total + rwSize →
    st.mem x = 0 ∨ ∃ e ∈ st.emitted, e.PatchesRw defs x
  held : ∀ e ∈ st.emitted, st.mem.readLE e.slot 4 = wrap32 (mem.readLE refs.kernPtr 4 + e.args.rtnOffset)
  copied : ∀ e ∈ st.emitted, ∃ m : Mem,
    (∀ i < e.len defs, m (refs.syspagePtr + e.args.rtnOffset + i) = (defs.rtns e.args.rtn).code.getD i 0) ∧
    ∀ i < e.len defs, st.mem (refs.syspagePtr + e.args.rtnOffset + i) =
      patched defs e.args m (refs.syspagePtr + e.args.rtnOffset + i)

/-- 書き出しの不変条件から、結果の整合を得る。 -/
theorem Written.placed {defs : CalloutDefs} {refs : PageRefs} {pd : List CoInfo} {env : OutputEnv} {slots : List Nat}
    {l : List Nat} {st st₁ : CalloutState} {spsize : Nat} (hok : env.Ok defs refs slots (refs.syspagePtr + spsize))
    (hs : Sized defs l st₁) (haddrs : env.rwAddrs = st₁.rwAddrs) (h : Written defs refs pd env slots st) :
    CalloutsPlaced defs refs env.mem slots env.total env.rwSize spsize st := by
  have hfits := hok.fits
  have hslot : ∀ e ∈ st.emitted, e.slot ∈ slots ∧ env.mem.readLE e.slot 4 ≠ 0 := by
    intro e he
    have hmem : e.slot ∈ slots.filter (env.mem.readLE · 4 ≠ 0) := h.slots ▸ List.mem_map_of_mem he
    simpa using hmem
  -- 同じポインタの項目は一つしかないので、ポインタが同じなら位置も同じである。
  have hptr : ∀ r ∈ env.rwAddrs, ∀ r' ∈ env.rwAddrs, r.ptr = r'.ptr → r = r' := by
    rw [haddrs]
    exact fun r hr r' hr' he => List.inj_on_of_nodup_map hs.nodup hr hr' he
  have hapart : ∀ r ∈ env.rwAddrs, ∀ r' ∈ env.rwAddrs, r ≠ r' →
      r.off + defs.rwVal r.ptr ≤ r'.off ∨ r'.off + defs.rwVal r'.ptr ≤ r.off := by
    rw [haddrs]
    exact fun r hr r' hr' hne => hs.chain.apart (List.mem_reverse.mpr hr) (List.mem_reverse.mpr hr') hne
  refine ⟨h.slots, h.rtn, fun x hx hslots => ?_, fun e he => ?_, fun e he e' he' hne => h.chain.apart he he' hne,
    fun e he h0 => ?_, fun e he e' he' h0 heq => ?_, fun e he e' he' h0 h0' hne => ?_, h.zeroed, fun e he => ?_, h.copied⟩
  · exact h.outside x (by omega) fun e he => hslots _ (hslot e he).1 (hslot e he).2
  · have := h.chain.bounds he
    omega
  · obtain ⟨r, hr, hp, hoff⟩ := h.rw e he h0
    have := hok.rw_in r hr
    rw [hoff, ← hp]; omega
  · obtain ⟨r, hr, hp, hoff⟩ := h.rw e he h0
    obtain ⟨r', hr', hp', hoff'⟩ := h.rw e' he' (heq ▸ h0)
    rw [hoff, hoff', hptr r hr r' hr' (by rw [hp, hp', heq])]
  · obtain ⟨r, hr, hp, hoff⟩ := h.rw e he h0
    obtain ⟨r', hr', hp', hoff'⟩ := h.rw e' he' h0'
    have := hapart r hr r' hr' fun he => hne (by rw [← hp, ← hp', he])
    rw [hoff, hoff', ← hp, ← hp']; omega
  · rw [h.held e he, (h.args e he).2.1, hok.kern]

/-- `output_callouts(1)` で大きさを求め、四つまでの `asinfo_entry` を加えた後、同じ関数を持つ枠を `output_callouts(0)` で見ると、
書き出しは最後まで進み、二度の走査は整合する。 -/
theorem callouts_placed (defs : CalloutDefs) (hpat : defs.PatcherOk) (fmt : SyspageFormat) (hfmt : fmt.Ok)
    (fixed : List Sect) (sp₁ sp₂ : Syspage) (hl : sp₁.Layout fmt fixed) (asinfoSize n : Nat) (h8 : 8 ∣ asinfoSize)
    (hn : n ≤ 4) (hgrow : appendAsinfo fmt asinfoSize n sp₁ = .ok sp₂) (mem₂ : Mem)
    (htotal : mem₂.readLE (sp₂.p .syspage + fmt.totalSizeOff) fmt.fieldBytes = sp₂.totalSize fmt)
    (slots₁ slots₂ : List Nat) (hsame : slots₁.map (sp₁.mem.readLE · 4) = slots₂.map (mem₂.readLE · 4))
    (hroom : sp₁.totalSize fmt + codeSize defs (visited sp₁.mem slots₁) + rwTotal defs (visited sp₁.mem slots₁) +
      4 * asinfoSize + 16 ≤ 2 ^ 32)
    (pd : List CoInfo) (syspagePtr kernOff : Nat)
    (hok : (pageRefs fmt sp₂ syspagePtr kernOff).Ok mem₂ slots₂ (syspagePtr + sp₂.totalSize fmt)
      (syspagePtr + syspageSize (sp₁.totalSize fmt) (outputCalloutsSizing defs { mem := sp₁.mem } slots₁).2 asinfoSize)) :
    ∃ st, outputCallouts defs (pageRefs fmt sp₂ syspagePtr kernOff) pd
        { (outputCalloutsSizing defs { mem := sp₁.mem } slots₁).1 with mem := mem₂ } slots₂ = some st ∧
      CalloutsPlaced defs (pageRefs fmt sp₂ syspagePtr kernOff) mem₂ slots₂ (sp₂.totalSize fmt)
        (outputCalloutsSizing defs { mem := sp₁.mem } slots₁).1.rwSize
        (syspageSize (sp₁.totalSize fmt) (outputCalloutsSizing defs { mem := sp₁.mem } slots₁).2 asinfoSize) st := by
  have hvis : visited sp₁.mem slots₁ = visited mem₂ slots₂ := by rw [visited, hsame]; rfl
  obtain ⟨hs, _, hem⟩ := sizing_fold defs sp₁.mem slots₁ (by omega) (by omega)
  have hcount : n * asinfoSize ≤ 4 * asinfoSize := Nat.mul_le_mul_right _ hn
  have htot₂ := appendAsinfo_total hfmt h8 hl (by omega) hgrow
  have hpos : 0 < sp₁.totalSize fmt := by
    have := hl.header_pos
    have := hl.inside .syspage
    omega
  set st₁ := slots₁.foldl (calloutSizeOne defs) { mem := sp₁.mem } with hst₁
  have hsizing : outputCalloutsSizing defs { mem := sp₁.mem } slots₁ =
      ({ st₁ with rwSize := round st₁.rwSize 8, rtnSize := 0 }, wrap32 (round st₁.rtnSize 8 + round st₁.rwSize 8)) := rfl
  rw [hsizing] at hok ⊢
  have hrw₁ := hs.rwSize
  have hrtn₁ := hs.rtnSize
  have hrw := round_eight_lt (x := st₁.rwSize) (by omega)
  have hrtn := round_eight_lt (x := st₁.rtnSize) (by omega)
  have hrw' := le_round_eight (x := st₁.rwSize) (by omega)
  have hrtn' := le_round_eight (x := st₁.rtnSize) (by omega)
  have hsp : syspageSize (sp₁.totalSize fmt) (wrap32 (round st₁.rtnSize 8 + round st₁.rwSize 8)) asinfoSize =
      sp₁.totalSize fmt + (round st₁.rtnSize 8 + round st₁.rwSize 8) + 4 * asinfoSize := by
    rw [syspageSize, wrap32_of_lt (x := round st₁.rtnSize 8 + round st₁.rwSize 8) (by omega), wrap32_of_lt (by omega)]
  rw [hsp] at hok ⊢
  let refs := pageRefs fmt sp₂ syspagePtr kernOff
  let env : OutputEnv := ⟨mem₂, sp₂.totalSize fmt, mem₂.readLE refs.kernPtr 4, st₁.rwAddrs, round st₁.rwSize 8⟩
  have henv : env.Ok defs refs slots₂
      (syspagePtr + (sp₁.totalSize fmt + (round st₁.rtnSize 8 + round st₁.rwSize 8) + 4 * asinfoSize)) := by
    refine ⟨hok, ?_, htotal, ?_, rfl, fun v hv hp => ?_, fun r hr => ?_⟩
    · change syspagePtr + sp₂.totalSize fmt + round st₁.rwSize 8 + codeSize defs (visited mem₂ slots₂) ≤ _
      rw [← hvis, ← hrtn₁, htot₂]; omega
    · change 0 < sp₂.totalSize fmt
      omega
    · have hin : (defs.rtns v).rwSize ∈ st₁.rwAddrs.map RwInfo.ptr :=
        (hs.ptrs _).mpr (mem_rwPtrs.mpr ⟨hp, v, hvis ▸ hv, rfl⟩)
      obtain ⟨r, hr, hptr⟩ := List.mem_map.mp hin
      exact ⟨r, hr, hptr⟩
    · exact (hs.chain.bounds (List.mem_reverse.mpr hr)).2.trans hrw'
  have hstart : Written defs refs pd env [] { st₁ with mem := mem₂, rwSize := round st₁.rwSize 8, rtnSize := 0 } := by
    have hnone : ∀ e ∈ st₁.emitted, False := fun e he => by rw [hem] at he; cases he
    refine ⟨rfl, rfl, by simp [hem], fun e he => (hnone e he).elim, fun e he => (hnone e he).elim, by simp [hem], ?_,
      fun e he => (hnone e he).elim, fun x _ _ => rfl, fun e he => (hnone e he).elim, fun e he => (hnone e he).elim,
      fun hne => absurd hem hne⟩
    change Chain _ _ _ st₁.emitted _
    rw [hem]; rfl
  obtain ⟨st, hst, hw⟩ := output_fold hpat henv List.prefix_rfl _ hstart
  refine ⟨{ st with rwSize := round st.rwSize 8 }, ?_, ?_⟩
  · rw [outputCallouts, hst]; rfl
  · have := hw.placed henv hs rfl
    exact ⟨this.visits, this.rtn, this.writes, this.code_in, this.code_apart, this.rw_in, this.rw_same, this.rw_apart,
      this.zeroed, this.held, this.copied⟩

/-- 16 と 32 の番地の二つの関数。32 の関数だけが書き換える関数を持つ。 -/
def sampleCallouts (v : Nat) : CalloutRtn :=
  if v = 16 then { rwSize := 0x100, patcher := 0, code := [1, 2, 3, 4] }
  else { rwSize := 0x104, patcher := 7, code := [5, 6, 7, 8, 9, 10, 11, 12] }

/-- 書き換える関数は、命令列の最初のバイトにデータを書く。 -/
def sampleDefs : CalloutDefs where
  rtns := sampleCallouts
  rwVal := fun q => if q = 0x100 then 4 else 12
  patch := fun _ args m =>
    m.copy (args.paddr + args.rtnOffset) ((sampleCallouts args.rtn).code.set 0 (UInt8.ofNat args.data))

theorem sampleDefs_ok : sampleDefs.PatcherOk := by
  intro f args m x hcode _
  refine Mem.copy_out ?_
  rw [List.length_set]; exact hcode

/-- 四つの枠に、二つの関数と `NULL` を置く列。 -/
def sampleCalloutCalls : List SyspageCall :=
  [.set .systemPrivate 8, .grow .asinfo 48, .store .callout 0 16, .store .callout 4 32, .store .callout 12 16]

def sampleSlots : List Nat := [0x1018, 0x101c, 0x1020, 0x1024]

theorem callouts_placed_sample :
    ∃ sp₁ sp₂ st, appendAsinfo sampleFormat 48 2 sp₁ = .ok sp₂ ∧
      outputCallouts sampleDefs (pageRefs sampleFormat sp₂ 0x10000 0) []
        { (outputCalloutsSizing sampleDefs { mem := sp₁.mem } sampleSlots).1 with mem := sp₂.mem } sampleSlots = some st ∧
      CalloutsPlaced sampleDefs (pageRefs sampleFormat sp₂ 0x10000 0) sp₂.mem sampleSlots (sp₂.totalSize sampleFormat)
        (outputCalloutsSizing sampleDefs { mem := sp₁.mem } sampleSlots).1.rwSize
        (syspageSize (sp₁.totalSize sampleFormat) (outputCalloutsSizing sampleDefs { mem := sp₁.mem } sampleSlots).2 48)
        st ∧
      st.emitted.map Emission.slot = [0x1018, 0x101c, 0x1024] := by
  have hrun : (initSyspageMemory sampleFormat (fun _ => 0xff) 0x1000 0x400).toOption.any (fun sp =>
      (runAll (SyspageTrace.step sampleFormat sampleRtns) (SyspageTrace.InDomain sampleFormat) sampleCalloutCalls
        (.start sp)).any fun t => (appendAsinfo sampleFormat 48 2 t.sp).toOption.any fun sp₂ => decide (
          sampleSlots.map (t.sp.mem.readLE · 4) = sampleSlots.map (sp₂.mem.readLE · 4) ∧
          sampleSlots.filter (sp₂.mem.readLE · 4 ≠ 0) = [0x1018, 0x101c, 0x1024] ∧
          t.sp.totalSize sampleFormat + codeSize sampleDefs (visited t.sp.mem sampleSlots) +
            rwTotal sampleDefs (visited t.sp.mem sampleSlots) + 4 * 48 + 16 ≤ 2 ^ 32 ∧
          (pageRefs sampleFormat sp₂ 0x10000 0).Ok sp₂.mem sampleSlots (0x10000 + sp₂.totalSize sampleFormat)
            (0x10000 + syspageSize (t.sp.totalSize sampleFormat)
              (outputCalloutsSizing sampleDefs { mem := t.sp.mem } sampleSlots).2 48))) = true := by decide
  obtain ⟨sp, hsp, hrun⟩ := Except.exists_of_any hrun
  obtain ⟨t, ht, hrun⟩ := (Option.any_eq_true _ _).mp hrun
  obtain ⟨sp₂, hsp₂, hrun⟩ := Except.exists_of_any hrun
  obtain ⟨hsame, hslots, hroom, hok⟩ := of_decide_eq_true hrun
  have hinv : t.Inv sampleFormat := (runAll_reaches ht).invariant
    (SyspageTrace.start_inv sampleFormat_ok (by decide) (by decide) hsp) fun u c v hu hc hs => hu.step sampleFormat_ok hc hs
  obtain ⟨st, hst, hplaced⟩ := callouts_placed sampleDefs sampleDefs_ok sampleFormat sampleFormat_ok t.fixed t.sp sp₂
    hinv.layout 48 2 (by decide) (by decide) hsp₂ sp₂.mem rfl sampleSlots sampleSlots hsame hroom [] 0x10000 0 hok
  exact ⟨t.sp, sp₂, st, hsp₂, hst, hplaced, hplaced.visits.trans hslots⟩

/-! ## 書き換えのデータ -/

/-- 書き出しの一歩は、枠の番地で探したデータを `patcher` に渡す。 -/
theorem calloutOutputOne_data {defs : CalloutDefs} {refs : PageRefs} {pd : List CoInfo} {st st' : CalloutState} {rp : Nat}
    (h : calloutOutputOne defs refs pd st rp = some st') (hst : ∀ e ∈ st.emitted, e.args.data = patchDataOf pd e.slot) :
    ∀ e ∈ st'.emitted, e.args.data = patchDataOf pd e.slot := by
  by_cases h0 : st.mem.readLE rp 4 = 0
  · simp only [calloutOutputOne, if_pos h0, Option.some.injEq] at h
    rw [← h]; exact hst
  · simp only [calloutOutputOne, if_neg h0] at h
    obtain ⟨rwOff, _, h⟩ := Option.bind_eq_some_iff.mp h
    cases h
    intro e he
    rcases List.mem_append.mp he with he | he
    · rw [outputInit_emitted] at he; exact hst e he
    · rw [List.mem_singleton.mp he]

theorem outputCallouts_data {defs : CalloutDefs} {refs : PageRefs} {pd : List CoInfo} {slots : List Nat}
    {st st' : CalloutState} (h : outputCallouts defs refs pd st slots = some st') (hst : st.emitted = []) :
    ∀ e ∈ st'.emitted, e.args.data = patchDataOf pd e.slot := by
  obtain ⟨st'', hfold, heq⟩ := Option.bind_eq_some_iff.mp h
  cases heq
  have hinit : ∀ e ∈ st.emitted, e.args.data = patchDataOf pd e.slot := fun e he => by rw [hst] at he; cases he
  clear h hst
  change ∀ e ∈ st''.emitted, _
  induction slots generalizing st with
  | nil => cases hfold; exact hinit
  | cons rp slots ih =>
      rw [List.foldlM_cons] at hfold
      obtain ⟨st1, h1, h2⟩ := Option.bind_eq_some_iff.mp hfold
      exact ih h2 (calloutOutputOne_data h1 hinit)

/-- 前提を満たし、移す先が元のヘッダの `total_size` の欄に重ならない呼び出しだけからなるどの実行でも、`output_callouts(0)` は節の中の
枠の `patcher` に、その枠に最初に登録されたデータを渡す。登録がなければ `NULL` を渡す。 -/
theorem patchData_follows_slot (defs : CalloutDefs) (fmt : SyspageFormat) (hfmt : fmt.Ok) (mem : Mem) (base maxSize : Nat)
    (hx : maxSize < 256 ^ fmt.fieldBytes) (hb : base + maxSize < 2 ^ 32) (sp : Syspage)
    (hinit : initSyspageMemory fmt mem base maxSize = .ok sp) (t : SyspageTrace)
    (h : Reaches (SyspageTrace.step fmt defs.rtns) (fun t c => t.InDomain fmt c ∧ t.RelocClear fmt c) (.start sp) t)
    (refs : PageRefs) (slots : List Nat) (st st' : CalloutState) (hst : st.emitted = [])
    (hout : outputCallouts defs refs t.sp.patchData st slots = some st') (e : Emission) (he : e ∈ st'.emitted)
    (sect : Sect) (off : Nat) (hoff : off < t.sp.size sect) (hslot : e.slot = t.sp.p sect + off) :
    e.args.data = (t.reg sect off).getD 0 := by
  obtain ⟨n, hbt⟩ := initSyspageMemory_booted hfmt hx hb hinit
  have hinv : t.Inv fmt ∧ t.Patched := h.invariant (P := fun t => t.Inv fmt ∧ t.Patched)
    ⟨SyspageTrace.start_inv hfmt hx hb hinit, SyspageTrace.start_patched hbt.patch⟩ fun u c v hu hok hs =>
      ⟨hu.1.step hfmt hok.1 hs, hu.2.step hfmt hu.1 hok.1 hok.2 hs⟩
  rw [outputCallouts_data hout hst e he, hslot]
  exact hinv.2.patchDataOf_eq hinv.1.layout hoff

/-- 枠に関数を置いてデータを登録し、節を伸ばし、後ろに重ねて移す列。 -/
def samplePatchCalls : List SyspageCall :=
  [.store .callout 4 32, .grow .callout 8, .register .callout 4 77, .register .callout 4 78, .grow .syspage 8,
    .reloc 0x1010 0x800, .grow .syspage 8]

theorem patchData_follows_slot_sample :
    ∃ sp t st', initSyspageMemory sampleFormat (fun _ => 0xff) 0x1000 0x400 = .ok sp ∧
      Reaches (SyspageTrace.step sampleFormat sampleDefs.rtns)
        (fun t c => t.InDomain sampleFormat c ∧ t.RelocClear sampleFormat c) (.start sp) t ∧
      outputCallouts sampleDefs (pageRefs sampleFormat t.sp 0x10000 0) t.sp.patchData
        { mem := t.sp.mem, rwAddrs := [⟨0x104, 0⟩], rwSize := 16 } [0x103c] = some st' ∧
      ∃ e ∈ st'.emitted, e.args.data = (t.reg .callout 4).getD 0 ∧ t.reg .callout 4 = some 77 := by
  have hrun : (initSyspageMemory sampleFormat (fun _ => 0xff) 0x1000 0x400).toOption.any (fun sp =>
      (runAll (SyspageTrace.step sampleFormat sampleDefs.rtns)
        (fun t c => t.InDomain sampleFormat c ∧ t.RelocClear sampleFormat c) samplePatchCalls (.start sp)).any fun t =>
          (outputCallouts sampleDefs (pageRefs sampleFormat t.sp 0x10000 0) t.sp.patchData
            { mem := t.sp.mem, rwAddrs := [⟨0x104, 0⟩], rwSize := 16 } [0x103c]).any fun st' =>
              decide (4 < t.sp.size .callout ∧ t.reg .callout 4 = some 77 ∧
                st'.emitted.map Emission.slot = [t.sp.p .callout + 4])) = true := by decide
  obtain ⟨sp, hsp, hrun⟩ := Except.exists_of_any hrun
  obtain ⟨t, ht, hrun⟩ := (Option.any_eq_true _ _).mp hrun
  obtain ⟨st', hst', hrun⟩ := (Option.any_eq_true _ _).mp hrun
  obtain ⟨hoff, hreg, hslots⟩ := of_decide_eq_true hrun
  obtain ⟨e, he, hslot⟩ := List.mem_map.mp (hslots ▸ List.mem_singleton_self (t.sp.p .callout + 4))
  exact ⟨sp, t, st', hsp, runAll_reaches ht, hst', e, he,
    patchData_follows_slot sampleDefs _ sampleFormat_ok _ 0x1000 0x400 (by decide) (by decide) sp hsp t
      (runAll_reaches ht) _ _ _ st' rfl hst' e he .callout 4 hoff hslot, hreg⟩

/-- 移す先が元のヘッダに重なると、`callout_reloc_data()` に渡す長さは移した後の別のバイトから読まれ、登録は失われる。 -/
theorem reloc_over_header_loses_data :
    ∃ sp t st', initSyspageMemory sampleFormat (fun _ => 0xff) 0x1000 0x400 = .ok sp ∧
      Reaches (SyspageTrace.step sampleFormat sampleDefs.rtns) (SyspageTrace.InDomain sampleFormat) (.start sp) t ∧
      outputCallouts sampleDefs (pageRefs sampleFormat t.sp 0x10000 0) t.sp.patchData
        { mem := t.sp.mem, rwAddrs := [⟨0x104, 0⟩], rwSize := 16 } [0x100c] = some st' ∧
      (4 < t.sp.size .callout ∧ t.reg .callout 4 = some 77) ∧
      st'.emitted.map (fun e => (e.slot, e.args.data)) = [(t.sp.p .callout + 4, 0)] := by
  have hrun : (initSyspageMemory sampleFormat (fun _ => 0xff) 0x1000 0x400).toOption.any (fun sp =>
      (runAll (SyspageTrace.step sampleFormat sampleDefs.rtns) (SyspageTrace.InDomain sampleFormat)
        [.store .callout 4 32, .register .callout 4 77, .reloc 0xff0 0x800] (.start sp)).any fun t =>
          (outputCallouts sampleDefs (pageRefs sampleFormat t.sp 0x10000 0) t.sp.patchData
            { mem := t.sp.mem, rwAddrs := [⟨0x104, 0⟩], rwSize := 16 } [0x100c]).any fun st' =>
              decide ((4 < t.sp.size .callout ∧ t.reg .callout 4 = some 77) ∧
                st'.emitted.map (fun e => (e.slot, e.args.data)) = [(t.sp.p .callout + 4, 0)])) = true := by
    decide
  obtain ⟨sp, hsp, hrun⟩ := Except.exists_of_any hrun
  obtain ⟨t, ht, hrun⟩ := (Option.any_eq_true _ _).mp hrun
  obtain ⟨st', hst', hrun⟩ := (Option.any_eq_true _ _).mp hrun
  obtain ⟨hreg, hslots⟩ := of_decide_eq_true hrun
  exact ⟨sp, t, st', hsp, runAll_reaches ht, hst', hreg, hslots⟩

end Imx6Bsp.Startup
