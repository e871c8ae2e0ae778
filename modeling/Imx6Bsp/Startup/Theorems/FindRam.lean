import Imx6Bsp.Lib.Words
import Imx6Bsp.Startup.Lemmas.FindRam

/-!
# `find_ram_in_range()` の返す番地

番地は、空きの残りの先頭から、位置合わせ、彩色、範囲の先頭の順に動かされる。後の調整は前の調整の結果を確かめない。
-/

namespace Imx6Bsp.Startup

open Imx6Bsp.Lib

/-- `find_ram_in_range()` の引数。 -/
structure FindArgs where
  rangeStart : Nat
  rangeEnd : Nat
  size : Nat
  align : Nat
  colour : Nat
  mask : Nat

/-- 位置合わせは二の冪で、`colour` は `mask` の桁だけを使い、どれも 32 ビットである。 -/
structure FindArgs.Ok (a : FindArgs) : Prop where
  align : IsAlign a.align
  colour : a.colour &&& a.mask = a.colour
  mask : a.mask < 2 ^ 32
  rangeStart : a.rangeStart < 2 ^ 32

/-- `find_ram_in_range()` の引数 `a` での戻り値。 -/
def FindArgs.find (a : FindArgs) (s : Ram) : Nat := findRamInRange s a.rangeStart a.rangeEnd a.size a.align a.colour a.mask

/-- 番地 `addr` からの `size` バイトは、位置と彩色が正しく、`ram_list` の一つの項目と範囲の中にあり、避ける範囲を外れる。 -/
structure Found (s : Ram) (a : FindArgs) (addr : Nat) : Prop where
  align : a.align ∣ addr
  colour : addr &&& a.mask = a.colour
  entry : ∃ r ∈ s.ramList, r.addr ≤ addr ∧ addr + a.size ≤ r.addr + r.size
  rangeStart : a.rangeStart ≠ 0 → a.rangeStart ≤ addr
  rangeEnd : a.rangeEnd ≠ 0 → addr + a.size ≤ a.rangeEnd
  avoid : ∀ v ∈ s.avoidList, addr + a.size ≤ v.start ∨ v.stop ≤ addr

/-! ## 探索の止まる項目 -/

/-- 範囲の終わりで切った候補の終わり。 -/
def clipEnd (a : FindArgs) (e : Nat) : Nat := if a.rangeEnd ≠ 0 ∧ e > a.rangeEnd then a.rangeEnd else e

/-- 候補の先頭 `lo` から決まる番地。 -/
def FindArgs.place (a : FindArgs) (lo : Nat) : Nat := placeAddr lo a.align a.colour a.mask a.rangeStart

/-- 項目 `r` の、避ける範囲を除いた残りの先頭が `lo` で、決まる番地から `size` バイトが残りに収まる。 -/
def Stops (s : Ram) (a : FindArgs) (r : RamEntry) (lo : Nat) : Prop :=
  ∃ hi, avoidWalk s.avoidList r.addr (r.addr + r.size) = some (lo, hi) ∧ a.place lo < clipEnd a hi ∧
    a.size ≤ clipEnd a hi - a.place lo

/-- 探索は項目 `r` で止まる。 -/
def StopsAt (s : Ram) (a : FindArgs) (r : RamEntry) (lo : Nat) : Prop :=
  ∃ pre post, s.ramList = pre ++ r :: post ∧ Stops s a r lo ∧ ∀ r' ∈ pre, ∀ lo', ¬ Stops s a r' lo'

section

variable {s : Ram} {a : FindArgs} {r : RamEntry} {lo : Nat}

theorem findWalk_cons (s : Ram) (a : FindArgs) (r : RamEntry) (l : List RamEntry) :
    (∃ lo, Stops s a r lo ∧
        findRamWalk s.avoidList a.rangeStart a.rangeEnd a.size a.align a.colour a.mask (r :: l) = a.place lo) ∨
      (∀ lo, ¬ Stops s a r lo) ∧
        findRamWalk s.avoidList a.rangeStart a.rangeEnd a.size a.align a.colour a.mask (r :: l) =
          findRamWalk s.avoidList a.rangeStart a.rangeEnd a.size a.align a.colour a.mask l := by
  cases hw : avoidWalk s.avoidList r.addr (r.addr + r.size) with
  | none =>
      refine .inr ⟨fun lo ⟨hi, h, _⟩ => ?_, ?_⟩
      · rw [hw] at h
        cases h
      · simp only [findRamWalk, hw]
  | some p =>
      obtain ⟨lo, hi⟩ := p
      have hno : ∀ lo', Stops s a r lo' → a.place lo < clipEnd a hi ∧ a.size ≤ clipEnd a hi - a.place lo := by
        rintro lo' ⟨hi', h, hfit⟩
        cases hw.symm.trans h
        exact hfit
      have hwalk : findRamWalk s.avoidList a.rangeStart a.rangeEnd a.size a.align a.colour a.mask (r :: l) =
          if a.place lo ≥ clipEnd a hi then findRamWalk s.avoidList a.rangeStart a.rangeEnd a.size a.align a.colour a.mask l
          else if a.size ≤ clipEnd a hi - a.place lo then a.place lo
          else findRamWalk s.avoidList a.rangeStart a.rangeEnd a.size a.align a.colour a.mask l := by
        simp only [findRamWalk, hw]
        rfl
      rw [hwalk]
      split_ifs with hge hsize
      · refine .inr ⟨fun lo' ht => ?_, rfl⟩
        have := (hno lo' ht).1
        omega
      · exact .inl ⟨lo, ⟨hi, hw, Nat.not_le.mp hge, hsize⟩, rfl⟩
      · refine .inr ⟨fun lo' ht => ?_, rfl⟩
        exact absurd (hno lo' ht).2 hsize

theorem Stops.unique {lo' : Nat} (h : Stops s a r lo) (h' : Stops s a r lo') : lo = lo' := by
  obtain ⟨hi, h1, _⟩ := h
  obtain ⟨hi', h2, _⟩ := h'
  cases h1.symm.trans h2
  rfl

/-- 止まった項目の番地を返す。 -/
theorem find_eq (h : StopsAt s a r lo) : a.find s = a.place lo := by
  obtain ⟨pre, post, hl, hstop, hpre⟩ := h
  rw [FindArgs.find, findRamInRange, hl]
  clear hl
  induction pre with
  | nil =>
      rcases findWalk_cons s a r post with ⟨lo', h, heq⟩ | ⟨hno, _⟩
      · rw [hstop.unique h]
        exact heq
      · exact absurd hstop (hno lo)
  | cons r' pre ih =>
      rcases findWalk_cons s a r' (pre ++ r :: post) with ⟨lo', h, _⟩ | ⟨_, heq⟩
      · exact absurd h (hpre r' List.mem_cons_self lo')
      · exact heq.trans (ih fun x hx => hpre x (List.mem_cons_of_mem _ hx))

/-- `NULL_PADDR` でなければ、探索はどこかの項目で止まっている。 -/
theorem stopsAt_of_ne (h : a.find s ≠ nullPaddr) : ∃ r lo, StopsAt s a r lo := by
  suffices hwalk : ∀ l, findRamWalk s.avoidList a.rangeStart a.rangeEnd a.size a.align a.colour a.mask l ≠ nullPaddr →
      ∃ pre r post lo, l = pre ++ r :: post ∧ Stops s a r lo ∧ ∀ r' ∈ pre, ∀ lo', ¬ Stops s a r' lo' by
    obtain ⟨pre, r, post, lo, hl, hstop, hpre⟩ := hwalk s.ramList h
    exact ⟨r, lo, pre, post, hl, hstop, hpre⟩
  intro l
  induction l with
  | nil => exact fun h => absurd rfl h
  | cons r l ih =>
      intro h
      rcases findWalk_cons s a r l with ⟨lo, hstop, _⟩ | ⟨hno, heq⟩
      · exact ⟨[], r, l, lo, rfl, hstop, fun _ hx => absurd hx List.not_mem_nil⟩
      · rw [heq] at h
        obtain ⟨pre, r', post, lo, hl, hstop, hpre⟩ := ih h
        refine ⟨r :: pre, r', post, lo, by rw [hl, List.cons_append], hstop, fun x hx => ?_⟩
        rcases List.mem_cons.mp hx with rfl | hx
        · exact hno
        · exact hpre x hx

end

/-! ## 番地の調整 -/

/-- `mask` の桁を越える一歩の幅。 -/
def colourStride (mask : Nat) : Nat := ((mask - 1) ||| mask) + 1

/-- `lo` 以上の、位置合わせと彩色を順に行った番地。桁あふれは考えない。 -/
def colouredFrom (a : FindArgs) (lo : Nat) : Nat :=
  if roundUp lo a.align &&& a.mask = a.colour then roundUp lo a.align
  else withBits 32 (roundUp lo a.align + colourStride a.mask) a.mask a.colour

/-- 調整の途中の和が 32 ビットに収まる。 -/
def NoWrap (a : FindArgs) (lo : Nat) : Prop :=
  lo + a.align ≤ 2 ^ 32 ∧
    (roundUp lo a.align &&& a.mask ≠ a.colour → roundUp lo a.align + colourStride a.mask < 2 ^ 32)

/-- 彩色が位置合わせを崩さない。 -/
def ColourAligned (a : FindArgs) : Prop := a.align ∣ withBits 32 (colourStride a.mask) a.mask a.colour

/-- 調整が前の調整を崩さない。範囲の先頭が先にあるなら、それ自身の位置と彩色が正しい。ないなら、位置を合わせただけで彩色が
合うか、彩色が位置合わせを崩さない。 -/
def Settles (a : FindArgs) (lo : Nat) : Prop :=
  if colouredFrom a lo < a.rangeStart then a.align ∣ a.rangeStart ∧ a.rangeStart &&& a.mask = a.colour
  else roundUp lo a.align &&& a.mask = a.colour ∨ ColourAligned a

section

variable {s : Ram} {a : FindArgs} {r : RamEntry} {lo : Nat}

theorem mask_lt_stride (mask : Nat) : mask < colourStride mask := Nat.lt_succ_of_le Nat.right_le_or

theorem le_colouredFrom (h : a.Ok) (hn : NoWrap a lo) : lo ≤ colouredFrom a lo := by
  have hle : lo ≤ roundUp lo a.align := le_roundUp lo h.align.pos
  unfold colouredFrom
  split_ifs with hc
  · exact hle
  · have hw := le_withBits_add (v := a.colour) (hn.2 hc) h.mask
    have hs := mask_lt_stride a.mask
    omega

theorem place_eq (h : a.Ok) (hn : NoWrap a lo) :
    a.place lo = if colouredFrom a lo < a.rangeStart then a.rangeStart else colouredFrom a lo := by
  have hround : Startup.round lo a.align = roundUp lo a.align := h.align.round_eq hn.1
  have hcol : (if roundUp lo a.align &&& a.mask ≠ a.colour then
      (wrap32 (roundUp lo a.align + wrap32 ((wrap32 (a.mask + (2 ^ 32 - 1)) ||| a.mask) + 1)) &&& (2 ^ 32 - 1 - a.mask)) ||| a.colour
      else roundUp lo a.align) = colouredFrom a lo := by
    unfold colouredFrom
    by_cases hc : roundUp lo a.align &&& a.mask = a.colour
    · rw [if_neg (not_not.mpr hc), if_pos hc]
    · rw [if_pos hc, if_neg hc]
      have hpos : 0 < a.mask := by
        by_contra hzero
        obtain hm : a.mask = 0 := by omega
        have hcolour := h.colour
        rw [hm, Nat.and_zero] at hc hcolour
        exact hc hcolour
      have hlt := hn.2 hc
      have hpred : wrap32 (a.mask + (2 ^ 32 - 1)) = a.mask - 1 := by
        have := h.mask
        unfold wrap32
        omega
      rw [hpred, show ((a.mask - 1) ||| a.mask) + 1 = colourStride a.mask from rfl,
        wrap32_of_lt (Nat.lt_of_le_of_lt (Nat.le_add_left _ _) hlt), wrap32_of_lt hlt]
      rfl
  simp only [FindArgs.place, placeAddr, hround, hcol]
  by_cases hlt : colouredFrom a lo < a.rangeStart
  · rw [if_pos ⟨by omega, hlt⟩, if_pos hlt]
  · rw [if_neg fun hc => hlt hc.2, if_neg hlt]

/-- 彩色した番地の位置。 -/
theorem dvd_colouredFrom (h : a.Ok) (lo : Nat) : a.align ∣ colouredFrom a lo ↔ roundUp lo a.align &&& a.mask = a.colour ∨ ColourAligned a := by
  unfold colouredFrom ColourAligned
  split_ifs with hc
  · simp [hc, dvd_roundUp]
  · obtain ⟨k, _, hk⟩ := h.align
    simp only [hc, false_or]
    rw [Nat.dvd_iff_mod_eq_zero, Nat.dvd_iff_mod_eq_zero, hk]
    obtain ⟨q, hq⟩ := dvd_roundUp lo a.align
    rw [withBits_mod (y := colourStride a.mask)]
    rw [hk] at hq
    rw [hq, Nat.mul_add_mod]

theorem colour_colouredFrom (h : a.Ok) (lo : Nat) : colouredFrom a lo &&& a.mask = a.colour := by
  unfold colouredFrom
  split_ifs with hc
  · exact hc
  · exact withBits_and h.mask h.colour

/-- 止まった項目での番地が正しいのは、調整が互いに崩さないときである。 -/
theorem found_iff (h : a.Ok) (hpos : ∀ r ∈ s.ramList, 0 < r.size) (hav : ∀ v ∈ s.avoidList, v.stop ≠ 0)
    (hstop : StopsAt s a r lo) (hn : NoWrap a lo) : Found s a (a.place lo) ↔ Settles a lo := by
  have hplace := place_eq h hn
  have hle := le_colouredFrom h hn
  have hdvd := dvd_colouredFrom h lo
  have hcolour := colour_colouredFrom h lo
  constructor
  · intro hf
    unfold Settles
    have h1 := hf.align
    have h2 := hf.colour
    rw [hplace] at h1 h2
    split_ifs at h1 h2 ⊢
    · exact ⟨h1, h2⟩
    · exact hdvd.mp h1
  · intro hs
    obtain ⟨pre, post, hl, ⟨hi, hw, hlt, hsize⟩, _⟩ := hstop
    have hr : r ∈ s.ramList := hl ▸ List.mem_append_right _ List.mem_cons_self
    have hsub : lo ≤ a.place lo := by
      rw [hplace]
      split_ifs <;> omega
    have hclip : clipEnd a hi ≤ hi ∧ (a.rangeEnd ≠ 0 → clipEnd a hi ≤ a.rangeEnd) := by
      unfold clipEnd
      split_ifs with hc
      · exact ⟨hc.2.le, fun _ => le_rfl⟩
      · exact ⟨le_rfl, fun hne => Nat.not_lt.mp fun hgt => hc ⟨hne, hgt⟩⟩
    obtain ⟨hlo, _, hhi, hoff⟩ := avoidWalk_off hav (Nat.lt_add_of_pos_right (hpos r hr)) hw
    refine ⟨?_, ?_, ⟨r, hr, by omega, by omega⟩, fun hne => ?_, fun hne => ?_, fun v hv => ?_⟩
    · rw [hplace]
      unfold Settles at hs
      split_ifs at hs ⊢
      · exact hs.1
      · exact hdvd.mpr hs
    · rw [hplace]
      unfold Settles at hs
      split_ifs at hs ⊢
      · exact hs.2
      · exact hcolour
    · rw [hplace]
      split_ifs <;> omega
    · have := hclip.2 hne
      omega
    · have := hoff v hv
      omega

end

/-- 止まった項目での和が 32 ビットに収まるなら、返す番地が約束どおりなのは、調整が互いに崩さないときであり、そのときに限る。 -/
theorem find_ram_in_range_found {s : Ram} {a : FindArgs} (h : a.Ok) (hpos : ∀ r ∈ s.ramList, 0 < r.size)
    (hav : ∀ v ∈ s.avoidList, v.stop ≠ 0) (hn : ∀ r lo, StopsAt s a r lo → NoWrap a lo) (hret : a.find s ≠ nullPaddr) :
    Found s a (a.find s) ↔ ∀ r lo, StopsAt s a r lo → Settles a lo := by
  constructor
  · intro hf r lo hstop
    rw [find_eq hstop] at hf
    exact (found_iff h hpos hav hstop (hn r lo hstop)).mp hf
  · intro hs
    obtain ⟨r, lo, hstop⟩ := stopsAt_of_ne hret
    rw [find_eq hstop]
    exact (found_iff h hpos hav hstop (hn r lo hstop)).mpr (hs r lo hstop)

/-- 一つの項目 `[0x10000000, 0x20000000)` だけの状態。 -/
def oneBank : Ram := { wsEarlyNext := 0x10801000, avoidList := [], ramList := [⟨0x10000000, 0x10000000⟩] }

/-- 4 KiB の位置合わせで、範囲の先頭を `rs` とする引数。 -/
def pageFrom (rs : Nat) : FindArgs := { rangeStart := rs, rangeEnd := 0, size := 0x1000, align := 0x1000, colour := 0, mask := 0 }

theorem pageFrom_ok {rs : Nat} (h : rs < 2 ^ 32) : (pageFrom rs).Ok := ⟨isAlign_page, Nat.and_zero 0, Nat.two_pow_pos 32, h⟩

theorem oneBank_stops {rs lo : Nat} {r : RamEntry} (h : StopsAt oneBank (pageFrom rs) r lo) : lo = 0x10000000 := by
  obtain ⟨pre, post, hl, ⟨hi, hw, _⟩, _⟩ := h
  obtain rfl : r = ⟨0x10000000, 0x10000000⟩ := by
    have : r ∈ oneBank.ramList := hl ▸ List.mem_append_right _ List.mem_cons_self
    exact List.mem_singleton.mp this
  cases hw
  rfl

theorem oneBank_noWrap (rs : Nat) : NoWrap (pageFrom rs) 0x10000000 :=
  ⟨show 0x10000000 + 0x1000 ≤ 2 ^ 32 by decide, fun h => absurd (Nat.and_zero _) h⟩

theorem find_ram_page_found : Found oneBank (pageFrom 0) ((pageFrom 0).find oneBank) := by
  refine (find_ram_in_range_found (pageFrom_ok (by decide)) (by decide) (fun _ hv => absurd hv List.not_mem_nil)
    (fun r lo hstop => ?_) (by decide)).mpr fun r lo hstop => ?_
  · rw [oneBank_stops hstop]
    exact oneBank_noWrap 0
  · exact (if_neg (Nat.not_lt_zero _)).mpr (.inl (Nat.and_zero _))

/-- 範囲の先頭が位置合わせの倍数でなければ、返す番地も倍数ではない。 -/
theorem find_ram_unaligned :
    (pageFrom 0x10000800).find oneBank = 0x10000800 ∧ ¬ Found oneBank (pageFrom 0x10000800) ((pageFrom 0x10000800).find oneBank) := by
  have h : (pageFrom 0x10000800).find oneBank = 0x10000800 := by decide
  refine ⟨h, fun hf => ?_⟩
  have hd := hf.align
  rw [h] at hd
  exact absurd hd (by decide)

end Imx6Bsp.Startup
