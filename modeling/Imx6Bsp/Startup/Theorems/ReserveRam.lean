import Imx6Bsp.Startup.Lemmas.TopRam
import Imx6Bsp.Startup.Lemmas.AsCover

/-!
# `reserve_ram()` の取り置く範囲

探索はページに切り上げた大きさで行われるが、`alloc_ram()` と `as_add_containing()` は元の大きさで呼ばれる。
-/

namespace Imx6Bsp.Startup

open Imx6Bsp.Lib

/-! ## `reserve_ram` -/

/-- `reserve_ram()` が使う位置合わせ。 -/
def reserveAlign (align pagesize : Nat) : Nat := if align ≠ 0 then align else pagesize

/-- 番地 `a` から、`size` バイトをページに切り上げた範囲。 -/
def reserveBlock (a size pagesize : Nat) : Set Nat := Set.Ico a (a + roundUp size pagesize)

/-- `reserve_ram()` は、番地 `a` からのページの範囲を取り置いた。 -/
structure Reserves (s s' : Ram) (size align pagesize a : Nat) : Prop where
  aligned : IsAlign (reserveAlign align pagesize) → reserveAlign align pagesize ∣ a
  free : reserveBlock a size pagesize ⊆ freeSet s.ramList
  avoided : ∀ v ∈ liveAvoids s.avoidList, Disjoint (reserveBlock a size pagesize) (Set.Ico v.start v.stop)
  taken : Disjoint (reserveBlock a size pagesize) (freeSet s'.ramList)
  kept : ∀ x ∉ reserveBlock a size pagesize, x ∈ freeSet s'.ramList ↔ x ∈ freeSet s.ramList
  named : ∀ e ∈ s'.asinfo.drop s.asinfo.length, e.name = "reserved"
  entries : covered (addedSpans s'.asinfo s.asinfo.length) =
    Contained s.asinfo "ram" a (a + roundUp size pagesize - 1)

/-- 避ける範囲を除いた残りが番地の上限まで続く項目があり、範囲は上限で終わるように選ばれる。 -/
def TopBlock (s : Ram) (size align : Nat) : Prop :=
  ∃ r ∈ s.ramList, ∃ lo, avoidWalk s.avoidList r.addr (r.addr + r.size) = some (lo, 2 ^ 32) ∧ lo + size ≤ 2 ^ 32 ∧
    trunc (2 ^ 32 - size) align = 2 ^ 32 - size

/-- `reserve_ram()` が正しく取り置く条件。大きさはページの倍数であり、範囲が番地の上限で終わるなら、その項目の先頭から始まらず、番地 0 から
始まるほかの項目がなく、`"ram"` の切り取りの差し込みが折り返さない。 -/
structure ReserveOk (s : Ram) (size align pagesize : Nat) : Prop where
  whole : pagesize ∣ size
  inner : TopBlock s size (reserveAlign align pagesize) → ∀ r ∈ s.ramList, r.addr + r.size = 2 ^ 32 → r.addr ≠ 2 ^ 32 - size
  origin : TopBlock s size (reserveAlign align pagesize) → ∀ r ∈ s.ramList, r.addr = 0 → r.addr + r.size = 2 ^ 32
  nested : TopBlock s size (reserveAlign align pagesize) →
    NeverWraps (asClips s.asinfo (2 ^ 32 - size) (2 ^ 32 - 1) "ram")

section

variable {s s' : Ram} {size align pagesize a : Nat}

/-- 戻った `reserve_ram()` の番地と状態。 -/
theorem reserveRam_returned (hsys : s.sysramAdded = false) (h : reserveRam s size align pagesize = .ok (s', some a)) :
    size ≠ 0 ∧ a ≠ nullPaddr ∧ a = findTopRamAligned s size (reserveAlign align pagesize) pagesize ∧
      allocRamWalk a (wrap32 (a + size)) (2 * s.ramList.length + 1) 0 s.ramList = .ok s'.ramList ∧
      s'.asinfo = (asAddContaining s.asinfo a (wrap32 (a + size + (2 ^ 32 - 1))) .ram "reserved" "ram").1 := by
  unfold reserveRam at h
  split at h
  · cases h
  · rename_i hsize
    unfold reserveAlign
    generalize (if align ≠ 0 then align else pagesize) = al at h ⊢
    dsimp only at h
    split at h
    · cases h
    · rename_i hnull
      obtain ⟨⟨s₁, b⟩, hs₁, h⟩ := Except.bind_eq_ok.mp h
      cases h
      obtain ⟨hb, ⟨hn, _⟩ | ⟨_, l, as, rfl, hl, has, _⟩⟩ := allocRam_ok hs₁
      · rw [hb, allocAddr, if_neg hnull] at hn
        exact absurd hn hnull
      · rw [hb, allocAddr, if_neg hnull] at hl
        exact ⟨hsize, hnull, rfl, hl, by rw [has hsys]⟩

/-- 選ばれた番地は、ある項目の候補である。 -/
theorem findTopRamAligned_candidate (hal : a = findTopRamAligned s size align pagesize) (ha : a ≠ nullPaddr) :
    0 < a ∧ (∃ r ∈ s.ramList, TopCandidate s.avoidList (round size pagesize) align r a) ∧
      ∀ r ∈ s.ramList, ∀ c, TopCandidate s.avoidList (round size pagesize) align r c → c ≤ a := by
  unfold findTopRamAligned at hal
  dsimp only at hal
  obtain ⟨_, h2, h3⟩ := findTopWalk_max s.avoidList (round size pagesize) align s.ramList 0
  split at hal
  · exact absurd hal ha
  · rename_i hne
    rw [← hal] at h2 h3 hne
    exact ⟨Nat.pos_of_ne_zero hne, h3.resolve_left hne, h2⟩

/-- 大きさがページの倍数でないと、最後のページの残りが空いたままになる。 -/
theorem not_reserves_unaligned (hwf : RamWF s.ramList) (hpage : IsAlign pagesize) (hsize : size < 2 ^ 32) (hsys : s.sysramAdded = false)
    (h : reserveRam s size align pagesize = .ok (s', some a)) (hd : ¬ pagesize ∣ size) : ¬ Reserves s s' size align pagesize a := by
  intro hr
  obtain ⟨_, hnull, hal, hl, _⟩ := reserveRam_returned hsys h
  obtain ⟨hpos, ⟨r, hrmem, hcand⟩, _⟩ := findTopRamAligned_candidate hal hnull
  have hlt : size < roundUp size pagesize := by
    refine Nat.lt_of_le_of_ne (le_roundUp size hpage.pos) fun heq => hd ?_
    rw [heq]
    exact dvd_roundUp size pagesize
  have hend : a + roundUp size pagesize ≤ 2 ^ 32 := by
    have hmem : a + roundUp size pagesize - 1 ∈ freeSet s.ramList := hr.free ⟨by omega, by omega⟩
    obtain ⟨t, ht, h1, h2⟩ := hmem
    obtain ⟨q, hq, rfl⟩ := List.mem_map.mp ht
    have := hwf.bound q hq
    rw [RamEntry.span_hi] at h2
    omega
  rw [wrap32_of_lt (by omega)] at hl
  have hin : a + size ∈ reserveBlock a size pagesize := ⟨by omega, by omega⟩
  rcases allocRamWalk_spec hwf (Nat.le_add_right a size) le_rfl with ⟨l', hl', _, hf⟩ | ⟨herr, _⟩
  · cases hl.symm.trans hl'
    refine Set.disjoint_left.mp hr.taken hin ?_
    rw [hf]
    exact ⟨hr.free hin, fun hx => by simp at hx⟩
  · cases hl.symm.trans herr

theorem round_of_dvd (hpage : IsAlign pagesize) (hd : pagesize ∣ size) (hsize : size < 2 ^ 32) : round size pagesize = size := by
  have hfit : size + pagesize ≤ 2 ^ 32 := by
    have hp : pagesize ∣ 2 ^ 32 := by
      obtain ⟨k, hk, rfl⟩ := hpage
      exact Nat.pow_dvd_pow 2 hk.le
    exact Nat.le_of_lt_add_of_dvd (by omega) (Nat.dvd_add hd (dvd_refl _)) hp
  rw [hpage.round_eq hfit, roundUp_of_dvd hpage.pos hd]

/-- 選ばれた範囲が番地の上限で終わるのは、`TopBlock` のときである。 -/
theorem topBlock_iff {al : Nat} (hwf : RamWF s.ramList) (hpos : al ≠ 0) (hsize : size < 2 ^ 32)
    (hcand : ∃ r ∈ s.ramList, TopCandidate s.avoidList size al r a)
    (hmax : ∀ r ∈ s.ramList, ∀ c, TopCandidate s.avoidList size al r c → c ≤ a) :
    TopBlock s size al ↔ a + size = 2 ^ 32 := by
  obtain ⟨r, hr, lo, hi, hw, hfit, hlo, ha⟩ := hcand
  have hrpos := hwf.size_pos hr
  have hhi := (avoidWalk_bounds (by omega) hw).2.2.trans (hwf.bound r hr)
  have hle := topAddr_le size al hi
  constructor
  · rintro ⟨q, hq, lo', hw', hfit', htrunc⟩
    have := hmax q hq (2 ^ 32 - size) ⟨lo', 2 ^ 32, hw', by omega, by omega, by rw [topAddr, if_pos hpos, htrunc]⟩
    omega
  · intro heq
    obtain rfl : hi = 2 ^ 32 := by omega
    rw [topAddr, if_pos hpos] at ha
    exact ⟨r, hr, lo, hw, by omega, by omega⟩

/-- 大きさがページの倍数であれば、範囲の取り除きと項目の追加だけが残る。 -/
theorem reserves_iff_taken (hwf : RamWF s.ramList) (hpage : IsAlign pagesize) (hsize : size < 2 ^ 32)
    (hcont : ∀ i e, IsContainer s.asinfo "ram" i e → e.start ≤ e.stop) (hsys : s.sysramAdded = false)
    (h : reserveRam s size align pagesize = .ok (s', some a)) (hd : pagesize ∣ size) :
    a + size ≤ 2 ^ 32 ∧ (Reserves s s' size align pagesize a ↔
      Disjoint (Set.Ico a (a + size)) (freeSet s'.ramList) ∧
        (∀ x ∉ Set.Ico a (a + size), x ∈ freeSet s'.ramList ↔ x ∈ freeSet s.ramList) ∧
        NeverWraps (asClips s.asinfo a (a + size - 1) "ram")) := by
  obtain ⟨hne, hnull, hal, _, has⟩ := reserveRam_returned hsys h
  obtain ⟨hpos, ⟨r, hr, hcand⟩, _⟩ := findTopRamAligned_candidate hal hnull
  rw [round_of_dvd hpage hd hsize] at hcand
  have hfits := hcand.fits hr (hwf.size_pos hr)
  have hend : a + size ≤ 2 ^ 32 := by
    obtain ⟨⟨q, hq, _, h2⟩, _⟩ := hfits
    exact h2.trans (hwf.bound q hq)
  have hstop : wrap32 (a + size + (2 ^ 32 - 1)) = a + size - 1 := by
    unfold wrap32
    omega
  rw [hstop] at has
  have hcover := @asAddContaining_covered_iff s.asinfo a (a + size - 1) "reserved" "ram" hcont (by omega) (by omega) hpos
  rw [← has] at hcover
  have hblock : reserveBlock a size pagesize = Set.Ico a (a + size) := by
    rw [reserveBlock, roundUp_of_dvd hpage.pos hd]
  refine ⟨hend, ?_, ?_⟩
  · intro hres
    have hentries := hres.entries
    rw [roundUp_of_dvd hpage.pos hd] at hentries
    exact ⟨hblock ▸ hres.taken, hblock ▸ hres.kept, hcover.mp hentries⟩
  · rintro ⟨htaken, hkept, hnest⟩
    refine ⟨fun halign => ?_, hblock ▸ hfits.subset_free, fun v hv => ?_, hblock ▸ htaken, hblock ▸ hkept, ?_, ?_⟩
    · obtain ⟨_, _, _, _, _, rfl⟩ := hcand
      exact dvd_topAddr halign
    · rw [hblock, Set.Ico_disjoint_Ico]
      have := hfits.2 v hv
      omega
    · rw [has]
      exact asAddContaining_named (by omega) (by omega) hcont
    · rw [roundUp_of_dvd hpage.pos hd]
      exact hcover.mpr hnest

/-- 戻った `reserve_ram()` がページの範囲を正しく取り置くのは、`ReserveOk` のときであり、そのときに限る。 -/
theorem reserve_ram_reserves (hwf : RamWF s.ramList) (hpage : IsAlign pagesize) (hsize : size < 2 ^ 32)
    (hcont : ∀ i e, IsContainer s.asinfo "ram" i e → e.start ≤ e.stop) (hsys : s.sysramAdded = false)
    (h : reserveRam s size align pagesize = .ok (s', some a)) :
    Reserves s s' size align pagesize a ↔ ReserveOk s size align pagesize := by
  by_cases hd : pagesize ∣ size
  swap
  · exact iff_of_false (not_reserves_unaligned hwf hpage hsize hsys h hd) fun hok => hd hok.whole
  obtain ⟨hne, hnull, hal, hl, _⟩ := reserveRam_returned hsys h
  obtain ⟨hpos, ⟨r, hr, hcand⟩, hmax⟩ := findTopRamAligned_candidate hal hnull
  obtain ⟨hend, hiff⟩ := reserves_iff_taken hwf hpage hsize hcont hsys h hd
  rw [round_of_dvd hpage hd hsize] at hcand hmax
  have halign : reserveAlign align pagesize ≠ 0 := by
    have := hpage.pos
    unfold reserveAlign
    split <;> omega
  have htop := topBlock_iff hwf halign hsize ⟨r, hr, hcand⟩ hmax
  rw [hiff]
  rcases Nat.lt_or_eq_of_le hend with hlt | heq
  · have hno : ¬ TopBlock s size (reserveAlign align pagesize) := fun h => by
      have := htop.mp h
      omega
    rw [wrap32_of_lt hlt] at hl
    rcases allocRamWalk_spec hwf (Nat.le_add_right a size) le_rfl with ⟨l', hl', _, hf⟩ | ⟨herr, _⟩
    · cases hl.symm.trans hl'
      refine iff_of_true ⟨?_, fun x hx => ?_, neverWraps_of_lt fun n hn => ?_⟩
        ⟨hd, fun h => absurd h hno, fun h => absurd h hno, fun h => absurd h hno⟩
      · rw [hf]
        exact Set.disjoint_sdiff_right
      · rw [hf]
        exact and_iff_left hx
      · obtain ⟨i, e, _, _, rfl⟩ := mem_asClips.mp hn
        dsimp only
        omega
    · cases hl.symm.trans herr
  · have hblock := htop.mpr heq
    obtain rfl : a = 2 ^ 32 - size := by omega
    rw [heq] at hl hiff ⊢
    obtain ⟨q, hq, hqlo, hqhi⟩ : ∃ q ∈ s.ramList, q.addr ≤ 2 ^ 32 - size ∧ q.addr + q.size = 2 ^ 32 := by
      obtain ⟨⟨q, hq, h1, h2⟩, _⟩ := hcand.fits hr (hwf.size_pos hr)
      exact ⟨q, hq, h1, le_antisymm (hwf.bound q hq) (heq ▸ h2)⟩
    have hlast : 2 ^ 32 - 1 ∈ Set.Ico (2 ^ 32 - size) (2 ^ 32) := ⟨by omega, by omega⟩
    constructor
    · rintro ⟨htaken, _, hnest⟩
      have hfree : ¬ Set.Ico 0 (2 ^ 32) ⊆ freeSet s'.ramList := fun hall =>
        Set.disjoint_left.mp htaken hlast (hall ⟨Nat.zero_le _, hlast.2⟩)
      have horigin : ∀ p ∈ s.ramList, p.addr = 0 → p.addr + p.size = 2 ^ 32 := by
        intro p hp hzero
        by_contra hstop
        exact hfree (allocRamWalk_top_origin hwf hq hqhi hqlo hpos (by omega) hp hzero hstop (by omega) hl)
      refine ⟨hd, fun _ p hp hpend hplo => ?_, fun _ => horigin, fun _ => hnest⟩
      exact hfree (allocRamWalk_top_whole hwf hp hpend hplo hpos horigin (by omega) hl)
    · rintro ⟨_, hinner, horigin, hnest⟩
      have hf := allocRamWalk_top_ok hwf hq hqhi (Nat.lt_of_le_of_ne hqlo (hinner hblock q hq hqhi)) (by omega)
        (horigin hblock) (by omega) hl
      refine ⟨?_, fun x hx => ?_, hnest hblock⟩
      · rw [hf]
        exact Set.disjoint_sdiff_right
      · rw [hf]
        exact and_iff_left hx

end

/-! ## 一つのバンクでの例 -/

/-- 256 メガバイトのバンクが一つある状態。 -/
def pagedBank : Ram :=
  { wsEarlyNext := 0x10801000, avoidList := [⟨0x10800000, 0x10801000⟩], ramList := [⟨0x10000000, 0x10000000⟩],
    asinfo := [⟨0, 0xffffffff, none, "memory", { kids := true }⟩, ⟨0x10000000, 0x1fffffff, some 0, "ram", .ram⟩] }

/-- `size` バイトを取り置いた後の状態。上の二ページから始まる。 -/
def pagedBankAfter (size : Nat) (l : List RamEntry) : Ram :=
  { pagedBank with
    ramList := l
    asinfo := [⟨0, 0xffffffff, none, "memory", { kids := true }⟩,
      ⟨0x10000000, 0x1fffffff, some 0, "ram", { AsAttr.ram with kids := true }⟩,
      ⟨0x1fffe000, 0x1fffe000 + size - 1, some 1, "reserved", .ram⟩] }

theorem pagedBank_wf : RamWF pagedBank.ramList := ⟨.cons (by decide) (by simp) .nil, by decide⟩

theorem pagedBank_container {i : Nat} {e : AsinfoEntry} (h : IsContainer pagedBank.asinfo "ram" i e) : e.start ≤ e.stop := by
  have hall : ∀ e ∈ pagedBank.asinfo, e.start ≤ e.stop := by decide
  exact hall e (List.mem_of_getElem? h.1)

theorem pagedBank_top (size align : Nat) : ¬ TopBlock pagedBank size align := by
  rintro ⟨r, hr, lo, hw, _⟩
  have := avoidWalk_bounds (by have := pagedBank_wf.size_pos hr; omega) hw
  have hend : ∀ r ∈ pagedBank.ramList, r.addr + r.size < 2 ^ 32 := by decide
  have := hend r hr
  omega

theorem reserve_ram_pages :
    reserveRam pagedBank 0x2000 0 pageSize = .ok (pagedBankAfter 0x2000 [⟨0x10000000, 0xfffe000⟩], some 0x1fffe000) ∧
      Reserves pagedBank (pagedBankAfter 0x2000 [⟨0x10000000, 0xfffe000⟩]) 0x2000 0 pageSize 0x1fffe000 := by
  have hok : reserveRam pagedBank 0x2000 0 pageSize =
      .ok (pagedBankAfter 0x2000 [⟨0x10000000, 0xfffe000⟩], some 0x1fffe000) := by decide
  refine ⟨hok, (reserve_ram_reserves pagedBank_wf isAlign_page (by decide) (fun _ _ => pagedBank_container) rfl hok).mpr ?_⟩
  exact ⟨by decide, fun h => absurd h (pagedBank_top _ _), fun h => absurd h (pagedBank_top _ _),
    fun h => absurd h (pagedBank_top _ _)⟩

/-- 一ページ半の要求では二ページが選ばれるが、後ろの半ページは空いたままである。 -/
theorem reserve_ram_half_page :
    reserveRam pagedBank 0x1800 0 pageSize =
        .ok (pagedBankAfter 0x1800 [⟨0x10000000, 0xfffe000⟩, ⟨0x1ffff800, 0x800⟩], some 0x1fffe000) ∧
      ¬ Reserves pagedBank (pagedBankAfter 0x1800 [⟨0x10000000, 0xfffe000⟩, ⟨0x1ffff800, 0x800⟩]) 0x1800 0 pageSize
        0x1fffe000 := by
  refine ⟨by decide, fun h => ?_⟩
  have hin : 0x1ffff800 ∈ reserveBlock 0x1fffe000 0x1800 pageSize := ⟨by decide, by decide⟩
  exact Set.disjoint_left.mp h.taken hin ⟨⟨0x1ffff800, 0x20000000⟩, by simp [pagedBankAfter, RamEntry.span], by decide, by decide⟩

end Imx6Bsp.Startup
