import Imx6Bsp.Startup.Lemmas.SyspageRun

/-!
# システムページの節の定理

`init_syspage_memory()` から始まるどの実行でも、節は詰めて並び、互いに重ならず、中身は移動しても変わらないことを示す。
-/

namespace Imx6Bsp.Startup

open Imx6Bsp.Lib

/-! ## 節の配置と中身 -/

/-- 節の配置の整合。節はシステムページに収まり、互いに重ならない。列 `fixed` の節は、作った順にシステムページの先頭に並ぶ。 -/
structure SyspageTrace.WellPlaced (fmt : SyspageFormat) (t : SyspageTrace) : Prop where
  inside : ∀ s, t.sp.p .syspage ≤ t.sp.p s ∧ t.sp.p s + t.sp.size s ≤ t.sp.p .syspage + t.sp.totalSize fmt
  disjoint : ∀ s u, s ≠ u → t.sp.p s + t.sp.size s ≤ t.sp.p u ∨ t.sp.p u + t.sp.size u ≤ t.sp.p s
  front : Chain t.sp.p t.sp.size (t.sp.p .syspage) t.fixed (t.sp.p .syspage + (t.fixed.map t.sp.size).sum)
  after : ∀ s ∉ t.fixed, t.sp.p .syspage + (t.fixed.map t.sp.size).sum ≤ t.sp.p s
  sum : (Sect.all.map t.sp.size).sum = t.sp.totalSize fmt
  total_le : t.sp.totalSize fmt ≤ t.sp.maxSize fmt
  content : ∀ s i, i < t.sp.size s → ¬ fmt.Skip s i → (t.content s)[i]? = some (t.sp.mem (t.sp.p s + i))

/-- 節のもとの中身は変わらず、加わったバイトは 0 である。 -/
def KeepsBytes (fmt : SyspageFormat) (s s' : Syspage) : Prop :=
  ∀ sect, s.size sect ≤ s'.size sect ∧
    (∀ i, i < s.size sect → ¬ fmt.Skip sect i → s'.mem (s'.p sect + i) = s.mem (s.p sect + i)) ∧
    ∀ i, s.size sect ≤ i → i < s'.size sect → s'.mem (s'.p sect + i) = 0

variable {fmt : SyspageFormat} {rtns : Nat → CalloutRtn} {t u : SyspageTrace}

theorem SyspageTrace.Inv.content_eq (h : t.Inv fmt) {s : Sect} {i : Nat} (hi : i < t.sp.size s)
    (hskip : ¬ fmt.Skip s i) : (t.content s)[i]? = some (t.sp.mem (t.sp.p s + i)) := by
  rw [h.layout.p_eq s]; exact h.content s i hi hskip

theorem SyspageTrace.Inv.wellPlaced (h : t.Inv fmt) : t.WellPlaced fmt := by
  have hl := h.layout
  refine ⟨fun s => ⟨hl.base_le s, ?_⟩, fun s u hsu => ?_, ?_, fun s hs => ?_, hl.packed.sum, hl.total_le,
    fun s i hi hskip => h.content_eq hi hskip⟩
  · have := hl.inside s
    rw [hl.p_eq s]; omega
  · have := hl.packed.apart s u hsu
    rw [hl.p_eq s, hl.p_eq u]; omega
  · have := hl.packed.chain.congr (f := t.sp.p) (g := t.sp.size) (d := t.sp.p .syspage)
      (fun s _ => by rw [hl.p_eq s, Nat.add_comm]) fun _ _ => rfl
    rwa [Nat.zero_add, Nat.add_comm] at this
  · have := hl.packed.after s hs
    rw [hl.p_eq s]; omega

theorem SyspageTrace.Inv.keepsBytes (hfmt : fmt.Ok) (h : t.Inv fmt) {c : SyspageCall} (hc : t.InDomain fmt c)
    (hs : t.step fmt rtns c = .ok u) (hst : ∀ sect off v, c ≠ .store sect off v) : KeepsBytes fmt t.sp u.sp := by
  intro sect
  have hu := h.step hfmt hc hs
  obtain ⟨k, hk, hcont⟩ := h.step_bytes hfmt hc hs hst sect
  have hlen := h.length sect
  refine ⟨by omega, fun i hi hskip => ?_, fun i hi hi' => ?_⟩
  · have h1 := h.content_eq hi hskip
    have h2 := hu.content_eq (i := i) (by omega) hskip
    rw [hcont, List.getElem?_append_left (by omega), h1] at h2
    exact (Option.some.inj h2).symm
  · have hskip : ¬ fmt.Skip sect i := by
      rintro ⟨rfl, hcnt⟩
      have := h.layout.header
      have := hfmt.size_in
      have := hfmt.total_in
      unfold SyspageFormat.IsCounter at hcnt
      omega
    have h2 := hu.content_eq hi' hskip
    rw [hcont, List.getElem?_append_right (by omega), List.getElem?_replicate, if_pos (by omega)] at h2
    exact (Option.some.inj h2).symm

/-- `init_syspage_memory()` の後の、前提を満たす呼び出しだけからなるどの実行でも、節の配置は整合し、節を作る、伸ばす、移すどの
呼び出しも、もとの中身を変えずに 0 を加える。`init_syspage_memory()` の作る節は 0 で埋まっている。 -/
theorem syspage_wellPlaced (fmt : SyspageFormat) (hfmt : fmt.Ok) (rtns : Nat → CalloutRtn) (mem : Mem)
    (base maxSize : Nat) (hx : maxSize < 256 ^ fmt.fieldBytes) (hb : base + maxSize < 2 ^ 32) (sp : Syspage)
    (hinit : initSyspageMemory fmt mem base maxSize = .ok sp) (t : SyspageTrace)
    (h : Reaches (SyspageTrace.step fmt rtns) (SyspageTrace.InDomain fmt) (.start sp) t) :
    (∀ s, s ≠ .syspage → ∀ i < sp.size s, sp.mem (sp.p s + i) = 0) ∧ t.WellPlaced fmt ∧
      ∀ c u, t.InDomain fmt c → t.step fmt rtns c = .ok u → (∀ sect off v, c ≠ .store sect off v) →
        KeepsBytes fmt t.sp u.sp := by
  have hinv : t.Inv fmt := h.invariant (SyspageTrace.start_inv hfmt hx hb hinit) fun u c v hu hok hs =>
    hu.step hfmt hok hs
  refine ⟨fun s hs i hi => ?_, hinv.wellPlaced, fun c u hc hstep hst => hinv.keepsBytes hfmt hc hstep hst⟩
  obtain ⟨n, hbt⟩ := initSyspageMemory_booted hfmt hx hb hinit
  have hz := hbt.zeros s i hi hs
  rw [List.getElem?_replicate, if_pos hi, ← hbt.layout.p_eq s] at hz
  exact (Option.some.inj hz).symm

/-- 16 ビットの欄を持つ小さな構造体の大きさ。 -/
def sampleFormat : SyspageFormat where
  headerSize := 24
  sizeOff := 0
  totalSizeOff := 2
  numCpuOff := 6
  fieldBytes := 2
  calloutSize := 16
  callinSize := 8
  armCpuSize := 8

theorem sampleFormat_ok : sampleFormat.Ok := by
  constructor <;> decide

/-- どの番地にも、書き換える関数のあるコールアウトを置く。 -/
def sampleRtns : Nat → CalloutRtn := fun _ => { rwSize := 0, patcher := 1, code := [0, 0, 0, 0] }

/-- 節を作り、書き、伸ばし、移す列。 -/
def sampleSyspageCalls : List SyspageCall :=
  [.set .qtime 12, .store .qtime 3 7, .grow .asinfo 20, .store .asinfo 5 9, .reloc 0x1010 0x800, .grow .qtime 4,
    .grow .asinfo 8]

theorem syspage_wellPlaced_sample :
    ∃ sp t, initSyspageMemory sampleFormat (fun _ => 0xff) 0x1000 0x400 = .ok sp ∧
      Reaches (SyspageTrace.step sampleFormat sampleRtns) (SyspageTrace.InDomain sampleFormat) (.start sp) t ∧
      (t.fixed = [.syspage, .callout, .callin, .armCpu, .qtime] ∧ t.sp.p .qtime = 0x1048 ∧ t.sp.size .qtime = 24 ∧
        t.sp.size .asinfo = 32) ∧
      t.WellPlaced sampleFormat := by
  have hrun : (initSyspageMemory sampleFormat (fun _ => 0xff) 0x1000 0x400).toOption.any (fun sp =>
      (runAll (SyspageTrace.step sampleFormat sampleRtns) (SyspageTrace.InDomain sampleFormat) sampleSyspageCalls
        (.start sp)).any fun t => decide (t.fixed = [.syspage, .callout, .callin, .armCpu, .qtime] ∧
          t.sp.p .qtime = 0x1048 ∧ t.sp.size .qtime = 24 ∧ t.sp.size .asinfo = 32)) = true := by decide
  obtain ⟨sp, hsp, hrun⟩ := Except.exists_of_any hrun
  obtain ⟨t, ht, hsize⟩ := (Option.any_eq_true _ _).mp hrun
  have hreach := runAll_reaches ht
  exact ⟨sp, t, hsp, hreach, of_decide_eq_true hsize,
    (syspage_wellPlaced _ sampleFormat_ok _ _ 0x1000 0x400 (by decide) (by decide) sp hsp t hreach).2.1⟩

/-- `set_syspage_section()` を、空の節についてだけ呼ぶという前提。 -/
def SetsEmpty (t : SyspageTrace) : SyspageCall → Prop
  | .set sect _ => t.sp.size sect = 0
  | _ => True

instance (t : SyspageTrace) : (c : SyspageCall) → Decidable (SetsEmpty t c)
  | .set _ _ => inferInstanceAs (Decidable (_ = _))
  | .grow _ _ => isTrue trivial
  | .reloc _ _ => isTrue trivial
  | .store _ _ _ => isTrue trivial
  | .register _ _ _ => isTrue trivial

/-- `fixed_size` は節を伸ばしても進まないので、作った節を伸ばした後に作る節は、先に作った節と重なる。 -/
theorem set_after_grow_overlaps :
    ∃ sp t, initSyspageMemory sampleFormat (fun _ => 0xff) 0x1000 0x400 = .ok sp ∧
      Reaches (SyspageTrace.step sampleFormat sampleRtns) SetsEmpty (.start sp) t ∧ ¬ t.WellPlaced sampleFormat := by
  have hrun : (initSyspageMemory sampleFormat (fun _ => 0xff) 0x1000 0x400).toOption.any (fun sp =>
      (runAll (SyspageTrace.step sampleFormat sampleRtns) SetsEmpty [.grow .armCpu 8, .set .qtime 8]
        (.start sp)).any fun t => decide (t.sp.p .qtime < t.sp.p .armCpu + t.sp.size .armCpu ∧
          t.sp.p .armCpu < t.sp.p .qtime + t.sp.size .qtime)) = true := by decide
  obtain ⟨sp, hsp, hrun⟩ := Except.exists_of_any hrun
  obtain ⟨t, ht, hover⟩ := (Option.any_eq_true _ _).mp hrun
  have hover := of_decide_eq_true hover
  refine ⟨sp, t, hsp, runAll_reaches ht, fun hw => ?_⟩
  have := hw.disjoint .qtime .armCpu (by decide)
  omega

end Imx6Bsp.Startup
