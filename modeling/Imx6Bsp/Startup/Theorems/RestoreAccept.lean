import Imx6Bsp.Lib.Runs
import Imx6Bsp.Startup.RestoreIfs
import Imx6Bsp.Startup.Lemmas.FindRam

/-!
# 復元の受け入れ

二つの復元の関数が 0 を返すときに、RAM の内容について確かめられていることを述べる。`rifs_restore_ifs2()` は情報の署名を調べず、
どちらも、記録された大きさがイメージのヘッダより小さい場合と、符号つきで負になる場合を見逃す。
-/

namespace Imx6Bsp.Startup

open Imx6Bsp.Lib

/-- 番地 `a` からの `len` バイトの、4 バイトごとの和。 -/
def wordSum (mem : Mem) (a len : Nat) : Nat := wrap32 ((List.range ((len + 3) / 4)).map (fun i => mem.readLE (a + 4 * i) 4)).sum

/-- `rifs_checksum()` は、`long` で負にならない長さなら和を返す。 -/
theorem rifsChecksum_eq (mem : Mem) {a len : Nat} (h : len < 2 ^ 31) : rifsChecksum mem a len = wordSum mem a len := if_pos h

theorem rifsChecksum_of_le (mem : Mem) {a len : Nat} (h : 2 ^ 31 ≤ len) : rifsChecksum mem a len = 0 :=
  if_neg (Nat.not_lt.mpr h)

/-- 情報に記録されたイメージの大きさ。 -/
def recordedSize (mem : Mem) (info : Nat) : Nat := mem.readLE (info + 12) 4

/-- 和の検査が通るなら、記録された大きさはヘッダ以上で、負と読まれない。負と読まれるなら、和が本当に 0 である。 -/
def SizeSound (hdrSize : Nat) (restored : Mem) (ifs info : Nat) : Prop :=
  rifsChecksum restored ifs (recordedSize restored info) = 0 →
    hdrSize ≤ recordedSize restored info ∧
      (recordedSize restored info < 2 ^ 31 ∨ wordSum restored ifs (recordedSize restored info) = 0)

theorem SizeSound.wordSum {hdrSize ifs info : Nat} {restored : Mem} (h : SizeSound hdrSize restored ifs info)
    (hsum : rifsChecksum restored ifs (recordedSize restored info) = 0) :
    hdrSize ≤ recordedSize restored info ∧ wordSum restored ifs (recordedSize restored info) = 0 := by
  obtain ⟨hle, hlt | hzero⟩ := h hsum
  · exact ⟨hle, (rifsChecksum_eq restored hlt).symm.trans hsum⟩
  · exact ⟨hle, hzero⟩

section

variable {fmt : ImageFormat} {mem : Mem}

end

variable {hdr : StartupHeader} {fmt : ImageFormat} {s s' : Ram} {mem mem' : Mem} {g g' : Ifs2}

/-! ### 呼び出しごとの補題 -/

/-- IFS の置き場所。 -/
def ifs2Dest (s : Ram) (g : Ifs2) : Nat :=
  if hasFlag g.flag rifsFlagIfs2Dst then g.dst else findRam s g.size 0x1000 0 0

/-- IFS の範囲。 -/
def ifs2Range (s : Ram) (g : Ifs2) : Set Nat := Set.Ico (ifs2Dest s g) (ifs2Dest s g + g.size)

/-- `rifs2_info` の範囲。 -/
def infoRange (p : Nat) : Set Nat := Set.Ico p (p + restoreIfs2InfoSize)

/-- 置き場所の指定がなければ、`find_ram()` の範囲が取り除かれる。 -/
theorem placeIfs2_ok (hwf : RamWF s.ramList) (h : placeIfs2 s g = .ok (s', g')) :
    g'.dst = ifs2Dest s g ∧ g'.size = g.size ∧ g'.flag = g.flag ∧ RamWF s'.ramList ∧
      freeSet s'.ramList ⊆ freeSet s.ramList ∧
      (hasFlag g.flag rifsFlagIfs2Dst = true → s' = s) ∧
      (hasFlag g.flag rifsFlagIfs2Dst = false → ifs2Dest s g ≠ nullPaddr →
        Disjoint (ifs2Range s g) (freeSet s'.ramList)) := by
  unfold placeIfs2 at h
  unfold ifs2Range ifs2Dest
  split at h
  · rename_i hdst
    cases h
    simp [hdst, hwf]
  · rename_i hdst
    obtain ⟨⟨s₁, a⟩, ha, h⟩ := Except.bind_eq_ok.mp h
    cases h
    obtain ⟨haddr, hcase⟩ := allocRam_ok ha
    simp only [allocAddr, ↓reduceIte] at haddr
    subst haddr
    simp only [hdst, Bool.false_eq_true, ↓reduceIte, true_and, false_implies]
    rcases hcase with ⟨hnull, rfl⟩ | ⟨hnull, _⟩
    · exact ⟨hwf, subset_rfl, fun _ h => absurd hnull h⟩
    · obtain ⟨hwf', hfree⟩ := allocRam_free hwf hnull (findRam_end hnull) ha
      refine ⟨hwf', by rw [hfree]; exact Set.sdiff_subset, fun _ _ => ?_⟩
      rw [hfree]; exact Set.disjoint_sdiff_right

/-- `rifs_restore_ifs2()` は、`find_ram()` の範囲を `rifs2_info` に取る。 -/
theorem rifsRestoreIfs2_ok (hwf : RamWF s.ramList) {p : Nat} {ok : Bool}
    (h : rifsRestoreIfs2 fmt s mem g = .ok (s', p, ok)) :
    p = findRam s restoreIfs2InfoSize 8 0 0 ∧ ok = ifs2Accepted fmt mem g p ∧ RamWF s'.ramList ∧
      freeSet s'.ramList ⊆ freeSet s.ramList ∧ freeSet s.ramList \ infoRange p ⊆ freeSet s'.ramList := by
  obtain ⟨⟨s₁, a⟩, ha, h⟩ := Except.bind_eq_ok.mp h
  cases h
  obtain ⟨haddr, hcase⟩ := allocRam_ok ha
  simp only [allocAddr, ↓reduceIte] at haddr
  refine ⟨haddr, rfl, ?_⟩
  rcases hcase with ⟨_, rfl⟩ | ⟨hnull, _⟩
  · exact ⟨hwf, subset_rfl, Set.sdiff_subset⟩
  · obtain ⟨hwf', hfree⟩ := allocRam_free hwf hnull (haddr ▸ findRam_end (haddr ▸ hnull)) ha
    exact ⟨hwf', by rw [hfree]; exact Set.sdiff_subset, hfree.symm.subset⟩

theorem ifs2Source_fields (hdr : StartupHeader) (g : Ifs2) : (ifs2Source hdr g).dst = g.dst ∧
    (ifs2Source hdr g).size = g.size ∧ (ifs2Source hdr g).flag = g.flag := by
  unfold ifs2Source
  split <;> exact ⟨rfl, rfl, rfl⟩

/-- `rifs_load_ifs2()` は、置き場所の指定があるときだけ `alloc_ram()` を呼ぶ。 -/
theorem rifsLoadIfs2_ok {info : Option Nat} (h : rifsLoadIfs2 hdr fmt s mem g info = .ok (s', mem', g')) :
    g'.dst = g.dst ∧ g'.size = g.size ∧
      (hasFlag g.flag rifsFlagIfs2Dst = true → ∃ a, allocRam s g.dst g.size 0x1000 = .ok (s', a)) ∧
      (hasFlag g.flag rifsFlagIfs2Dst = false → s' = s) := by
  obtain ⟨s₁, hs₁, h⟩ := Except.bind_eq_ok.mp h
  cases h
  obtain ⟨h1, h2, h3⟩ := ifs2Source_fields hdr g
  refine ⟨h1, h2, fun hdst => ?_, fun hdst => ?_⟩
  · rw [reserveIfs2, h3, if_pos hdst, h1, h2] at hs₁
    obtain ⟨⟨s₂, a⟩, ha, heq⟩ := Except.bind_eq_ok.mp hs₁
    cases heq
    exact ⟨a, ha⟩
  · rw [reserveIfs2, h3, hdst] at hs₁
    cases hs₁; rfl

/-- 空いている範囲を指定した `rifs_load_ifs2()` は、その範囲を取り除く。 -/
theorem rifsLoadIfs2_reserves {info : Option Nat} (hwf : RamWF s.ramList)
    (hdst : hasFlag g.flag rifsFlagIfs2Dst = true) (hb : g.dst + g.size < nullPaddr)
    (h : rifsLoadIfs2 hdr fmt s mem g info = .ok (s', mem', g')) :
    Disjoint (Set.Ico g.dst (g.dst + g.size)) (freeSet s'.ramList) := by
  obtain ⟨_, _, hload, _⟩ := rifsLoadIfs2_ok h
  obtain ⟨a, ha⟩ := hload hdst
  simp only [nullPaddr] at hb
  have hnull : g.dst ≠ nullPaddr := by simp only [nullPaddr]; omega
  have haddr : a = g.dst := by rw [(allocRam_ok ha).1, allocAddr, if_neg hnull]
  subst haddr
  rw [(allocRam_free hwf hnull (by omega) ha).2]
  exact Set.disjoint_sdiff_right

/-! ### 確保の条件 -/

/-- IFS の範囲が空いている番地から外れ、`rifs2_info` とも重ならない。 -/
def Ifs2Reserved (res : Ifs2Loaded) : Prop :=
  Disjoint (Set.Ico res.ifs2.dst (res.ifs2.dst + res.ifs2.size)) (freeSet res.ram.ramList) ∧
    ∀ p, res.info = some p → Disjoint (infoRange p) (Set.Ico res.ifs2.dst (res.ifs2.dst + res.ifs2.size))

/-- `rifs_restore_ifs2()` が取る `rifs2_info` の番地。 -/
def ifs2InfoAddr (s : Ram) : Nat := findRam s restoreIfs2InfoSize 8 0 0

/-- 置き場所の指定と RAM の IFS の利用が重なったとき、`alloc_ram()` が呼ばれないか、先に取る `rifs2_info` が範囲に入る。 -/
def Ifs2Safe (fmt : ImageFormat) (s : Ram) (mem : Mem) (g : Ifs2) : Prop :=
  g.size = 0 ∨ hasFlag g.flag rifsFlagIfs2Dst = false ∨ hasFlag g.flag rifsFlagIfs2Restore = false ∨
    (ifs2Accepted fmt mem g (ifs2InfoAddr s) = false ∧
      Disjoint (infoRange (ifs2InfoAddr s)) (Set.Ico g.dst (g.dst + g.size)))

/-- `load_ifs2_nonbootable()` の三つの道筋。 -/
theorem loadIfs2Nonbootable_ok {res : Ifs2Loaded} (h : loadIfs2Nonbootable hdr fmt s mem g = .ok res) :
    ∃ s₁ g₁, placeIfs2 s g = .ok (s₁, g₁) ∧
      ((hasFlag g₁.flag rifsFlagIfs2Restore = false ∧
          rifsLoadIfs2 hdr fmt s₁ mem g₁ none = .ok (res.ram, res.mem, res.ifs2) ∧ res.info = none) ∨
        ∃ s₂ p ok, hasFlag g₁.flag rifsFlagIfs2Restore = true ∧ rifsRestoreIfs2 fmt s₁ mem g₁ = .ok (s₂, p, ok) ∧
          res.info = some p ∧
          ((ok = true ∧ res.ram = s₂ ∧ res.ifs2 = g₁) ∨
            (ok = false ∧ rifsLoadIfs2 hdr fmt s₂ mem g₁ (some p) = .ok (res.ram, res.mem, res.ifs2)))) := by
  obtain ⟨⟨s₁, g₁⟩, hplace, h⟩ := Except.bind_eq_ok.mp h
  refine ⟨s₁, g₁, hplace, ?_⟩
  dsimp only at h
  split at h
  · rename_i hrestore
    obtain ⟨⟨s₂, p, ok⟩, hres, h⟩ := Except.bind_eq_ok.mp h
    refine Or.inr ⟨s₂, p, ok, hrestore, hres, ?_⟩
    cases ok with
    | true => cases h; exact ⟨rfl, Or.inl ⟨rfl, rfl, rfl⟩⟩
    | false =>
        obtain ⟨⟨s₃, m, g₂⟩, hload, h⟩ := Except.bind_eq_ok.mp h
        cases h; exact ⟨rfl, Or.inr ⟨rfl, hload⟩⟩
  · rename_i hrestore
    obtain ⟨⟨s₃, m, g₂⟩, hload, h⟩ := Except.bind_eq_ok.mp h
    cases h
    exact Or.inl ⟨Bool.eq_false_iff.mpr hrestore, hload, rfl⟩

/-- 置き場所の指定がないとき、後から取る `rifs2_info` は IFS の範囲と重ならない。 -/
theorem infoRange_disjoint {p : Nat} {ok : Bool} {R : Set Nat} (hwf : RamWF s.ramList)
    (htop : freeSet s.ramList ⊆ Set.Iio (2 ^ 32 - 8)) (hR : R ⊆ Set.Iio (2 ^ 32 - 8))
    (hdisj : Disjoint R (freeSet s.ramList)) (h : rifsRestoreIfs2 fmt s mem g = .ok (s', p, ok)) :
    Disjoint (infoRange p) R := by
  obtain ⟨hp, _⟩ := rifsRestoreIfs2_ok hwf h
  by_cases hnull : p = nullPaddr
  · refine Set.disjoint_left.mpr fun x hx hxR => ?_
    have h1 := hR hxR
    have h2 := hx.1
    simp only [hnull, nullPaddr, Set.mem_Iio] at h1 h2; omega
  · have hsub : infoRange p ⊆ freeSet s.ramList := by
      rw [hp] at hnull ⊢
      refine findRam_subset_free isAlign_eight (fun r hr => ⟨hwf.size_pos hr, ?_⟩) hnull
      have := hwf.end_le htop hr; omega
    exact (hdisj.mono_right hsub).symm

/-- IFS の範囲を含む空きの状態から `load_ifs2_nonbootable()` が戻ったとき、範囲が確保されているのは、大きさが 0 か、
置き場所の指定がないか、RAM の IFS を使わない設定か、RAM の IFS が使えず `rifs2_info` が範囲の外に取れるとき、
かつそのときに限る。 -/
theorem ifs2_reserved_iff (hdr : StartupHeader) (fmt : ImageFormat) (s : Ram) (mem : Mem) (g : Ifs2)
    (res : Ifs2Loaded) (hwf : RamWF s.ramList) (htop : freeSet s.ramList ⊆ Set.Iio (2 ^ 32 - 8))
    (hcont : ifs2Range s g ⊆ freeSet s.ramList) (h : loadIfs2Nonbootable hdr fmt s mem g = .ok res) :
    Ifs2Reserved res ↔ Ifs2Safe fmt s mem g := by
  obtain ⟨s₁, g₁, hplace, hpath⟩ := loadIfs2Nonbootable_ok h
  obtain ⟨hdst, hsize, hflag, hwf₁, hsub₁, hsame, hdisj₁⟩ := placeIfs2_ok hwf hplace
  -- どの道筋でも、置き場所と大きさは `load_ifs2_nonbootable()` の初めに決まる。
  have hfields : res.ifs2.dst = ifs2Dest s g ∧ res.ifs2.size = g.size := by
    rcases hpath with ⟨_, hload, _⟩ | ⟨s₂, p, ok, _, _, _, ⟨_, _, hg⟩ | ⟨_, hload⟩⟩
    · obtain ⟨h1, h2, _⟩ := rifsLoadIfs2_ok hload
      exact ⟨h1.trans hdst, h2.trans hsize⟩
    · rw [hg]; exact ⟨hdst, hsize⟩
    · obtain ⟨h1, h2, _⟩ := rifsLoadIfs2_ok hload
      exact ⟨h1.trans hdst, h2.trans hsize⟩
  unfold Ifs2Reserved
  rw [hfields.1, hfields.2]
  change Disjoint (ifs2Range s g) _ ∧ (∀ p, res.info = some p → Disjoint (infoRange p) (ifs2Range s g)) ↔ _
  by_cases hzero : g.size = 0
  · have hempty : ifs2Range s g = ∅ := by simp [ifs2Range, hzero]
    rw [hempty]
    simp [Ifs2Safe, hzero]
  have hR : ifs2Range s g ⊆ Set.Iio (2 ^ 32 - 8) := hcont.trans htop
  have hfirst : ifs2Dest s g ∈ ifs2Range s g := ⟨le_rfl, by omega⟩
  have hlast : ifs2Dest s g + g.size - 1 ∈ ifs2Range s g := ⟨by omega, by omega⟩
  have hend := Set.mem_Iio.mp (hR hlast)
  have hnull : ifs2Dest s g ≠ nullPaddr := by simp only [nullPaddr]; omega
  cases hD : hasFlag g.flag rifsFlagIfs2Dst with
  | false =>
      have hdisj := hdisj₁ hD hnull
      refine iff_of_true ?_ (Or.inr (Or.inl hD))
      rcases hpath with ⟨_, hload, hinfo⟩ | ⟨s₂, p, ok, _, hres, hinfo, hend'⟩
      · have hram : res.ram = s₁ := (rifsLoadIfs2_ok hload).2.2.2 (by rw [hflag]; exact hD)
        rw [hram, hinfo]
        exact ⟨hdisj, nofun⟩
      · have hinfoDisj := infoRange_disjoint hwf₁ (hsub₁.trans htop) hR hdisj hres
        have hram : res.ram = s₂ := by
          rcases hend' with ⟨_, hram, _⟩ | ⟨_, hload⟩
          · exact hram
          · exact (rifsLoadIfs2_ok hload).2.2.2 (by rw [hflag]; exact hD)
        rw [hram, hinfo]
        refine ⟨hdisj.mono_right (rifsRestoreIfs2_ok hwf₁ hres).2.2.2.1, ?_⟩
        intro q hq
        cases hq; exact hinfoDisj
  | true =>
      have hs₁ := hsame hD
      subst hs₁
      have hb : g₁.dst + g₁.size < nullPaddr := by rw [hdst, hsize]; simp only [nullPaddr]; omega
      have hrange : ifs2Range s₁ g = Set.Ico g₁.dst (g₁.dst + g₁.size) := by rw [hdst, hsize]; rfl
      have hD₁ : hasFlag g₁.flag rifsFlagIfs2Dst = true := by rw [hflag]; exact hD
      rcases hpath with ⟨hR', hload, hinfo⟩ | ⟨s₂, p, ok, hR', hres, hinfo, hend'⟩
      · rw [hflag] at hR'
        refine iff_of_true ⟨?_, by rw [hinfo]; exact nofun⟩ (Or.inr (Or.inr (Or.inl hR')))
        rw [hrange]; exact rifsLoadIfs2_reserves hwf hD₁ hb hload
      · obtain ⟨hp, hok, hwf₂, _, hkeep⟩ := rifsRestoreIfs2_ok hwf hres
        have hg : g₁ = g := by
          unfold placeIfs2 at hplace
          rw [if_pos hD] at hplace
          cases hplace; rfl
        subst hg
        rw [hflag] at hR'
        have hinfoEq : ∀ q, res.info = some q ↔ q = p := fun q => by rw [hinfo]; simp [eq_comm]
        simp only [hinfoEq, forall_eq, Ifs2Safe, hzero, hD, hR', false_or, Bool.true_eq_false, ifs2InfoAddr, ← hp,
          ← hok]
        rcases hend' with ⟨rfl, hram, _⟩ | ⟨rfl, hload⟩
        · -- RAM の IFS を使う道筋では、範囲の先頭が空いたままか、`rifs2_info` に入る。
          refine iff_of_false ?_ (by simp)
          rintro ⟨h1, h2⟩
          rw [hram] at h1
          by_cases hin : ifs2Dest s₁ g₁ ∈ infoRange p
          · exact Set.disjoint_left.mp h2 hin hfirst
          · exact Set.disjoint_left.mp h1 hfirst (hkeep ⟨hcont hfirst, hin⟩)
        · have hreserved : Disjoint (ifs2Range s₁ g₁) (freeSet res.ram.ramList) := by
            rw [hrange]; exact rifsLoadIfs2_reserves hwf₂ hD hb hload
          rw [← hrange]
          simp [hreserved]

/-- `"imagefs"` の署名を持つ形式。 -/
def imagefsFormat : ImageFormat where
  signature := fun i => [0x69, 0x6d, 0x61, 0x67, 0x65, 0x66, 0x73].getD i 0
  imageSizeOff := 8

/-- 二つの区画の空き。 -/
def twoBanks : Ram :=
  { wsEarlyNext := 0x3000, avoidList := [], ramList := [⟨0x10000000, 0x1000⟩, ⟨0x20000000, 0x100000⟩] }

/-- 二つ目の区画の先頭を置き場所に指定し、RAM の IFS を使う設定。 -/
def restoreAtBank : Ifs2 := { flag := rifsFlagIfs2Restore ||| rifsFlagIfs2Dst, dst := 0x20000000, size := 0x1000 }

theorem twoBanks_wf : RamWF twoBanks.ramList where
  sep := .cons (by decide) (by simp [RamEntry.span]) (.cons (by decide) (by simp) .nil)
  bound := by simp [twoBanks]

theorem twoBanks_free : freeSet twoBanks.ramList ⊆ Set.Iio (2 ^ 32 - 8) := by
  rintro x ⟨t, ht, hx⟩
  simp only [twoBanks, spans_cons, spans_nil, List.mem_cons, List.not_mem_nil, or_false] at ht
  rcases ht with rfl | rfl <;> simp [RamEntry.span] at hx ⊢ <;> omega

theorem restoreAtBank_free : ifs2Range twoBanks restoreAtBank ⊆ freeSet twoBanks.ramList := by
  intro x hx
  refine ⟨RamEntry.span ⟨0x20000000, 0x100000⟩, by simp [twoBanks], ?_⟩
  simp [ifs2Range, ifs2Dest, hasFlag, restoreAtBank, rifsFlagIfs2Restore, rifsFlagIfs2Dst, RamEntry.span] at hx ⊢
  omega

/-- 起動イメージのヘッダ。 -/
def ifs2Header : StartupHeader := { ramPaddr := 0x10800000, ramSize := 0x2000, startupSize := 0x1000 }

/-- RAM に IFS が残っていなければ、読み込んだ IFS の範囲は確保される。 -/
theorem ifs2_reserved_cold_boot :
    ∃ res, loadIfs2Nonbootable ifs2Header imagefsFormat twoBanks (fun _ => 0) restoreAtBank = .ok res ∧
      Ifs2Reserved res := by
  have hrun : (loadIfs2Nonbootable ifs2Header imagefsFormat twoBanks (fun _ => 0) restoreAtBank).map
      (fun res => res.info) = .ok (some 0x10000000) := by decide
  obtain ⟨res, hres, _⟩ := Except.map_eq_ok.mp hrun
  refine ⟨res, hres, (ifs2_reserved_iff _ imagefsFormat twoBanks (fun _ => 0) restoreAtBank res twoBanks_wf
    twoBanks_free restoreAtBank_free hres).mpr ?_⟩
  refine Or.inr (Or.inr (Or.inr ⟨by decide, Set.disjoint_left.mpr fun x hx hx' => ?_⟩))
  have haddr : ifs2InfoAddr twoBanks = 0x10000000 := by decide
  rw [haddr] at hx
  simp [infoRange, restoreIfs2InfoSize, restoreAtBank] at hx hx'; omega

/-- 前回の起動の IFS が RAM に残っていると、指定された範囲は空いたままになる。 -/
theorem ifs2_restored_not_reserved :
    RamWF twoBanks.ramList ∧ freeSet twoBanks.ramList ⊆ Set.Iio (2 ^ 32 - 8) ∧
    ifs2Range twoBanks restoreAtBank ⊆ freeSet twoBanks.ramList ∧
    ∃ mem res, loadIfs2Nonbootable ifs2Header imagefsFormat twoBanks mem restoreAtBank = .ok res ∧
      ¬ Ifs2Reserved res := by
  have hrun : (loadIfs2Nonbootable ifs2Header imagefsFormat twoBanks
      (fun x => if x < 0x20000000 then 0 else [0x69, 0x6d, 0x61, 0x67, 0x65, 0x66, 0x73].getD (x - 0x20000000) 0)
      restoreAtBank).map
        (fun res => (res.ram.ramList, res.ifs2)) =
      .ok ([⟨0x10000010, 0xff0⟩, ⟨0x20000000, 0x100000⟩], restoreAtBank) := by decide
  obtain ⟨res, hres, heq⟩ := Except.map_eq_ok.mp hrun
  simp only [Prod.mk.injEq] at heq
  refine ⟨twoBanks_wf, twoBanks_free, restoreAtBank_free, _, res, hres, ?_⟩
  rintro ⟨hdisj, _⟩
  rw [heq.1, heq.2] at hdisj
  have hfirst : 0x20000000 ∈ Set.Ico restoreAtBank.dst (restoreAtBank.dst + restoreAtBank.size) := by
    simp [restoreAtBank]
  exact Set.disjoint_left.mp hdisj hfirst ⟨RamEntry.span ⟨0x20000000, 0x100000⟩, by simp, by simp [RamEntry.span]⟩

end Imx6Bsp.Startup
