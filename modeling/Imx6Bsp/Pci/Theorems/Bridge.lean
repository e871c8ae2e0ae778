import Imx6Bsp.Pci.Lemmas.Bridge

/-!
# 橋の窓の往復

橋に書いた窓を `configure_bridge()` の通りに読み取ると、メモリの窓はいつも元に戻る。
I/O の窓は、終わりが `0x80000000` より下で、親の範囲が `0xf000` から始まる特別な場合に当たらないときに限り、元に戻る。
-/

namespace Imx6Bsp.Pci

open Imx6Bsp.Lib

/-- 窓の種類。 -/
inductive WindowKind where
  | io
  | mem
  | pref
deriving DecidableEq

/-- 窓の番地の単位の、桁の数。 -/
def WindowKind.unit : WindowKind → Nat
  | .io => 12
  | _ => 20

/-- 橋の表せる番地の、桁の数。 -/
def WindowKind.width (io32 pref64 : Bool) : WindowKind → Nat
  | .io => if io32 then 32 else 16
  | .mem => 32
  | .pref => if pref64 then 64 else 32

/-- 資源の種類。 -/
def WindowKind.type : WindowKind → BitVec 32
  | .io => pciIoSpace
  | .mem => pciMemSpace
  | .pref => pciMemPrefetch

/-- 窓を書く。 -/
def WindowKind.write (kind : WindowKind) (check : PciexCheck) (stack : Mem) (sp : Space) (s e : Nat) : Space :=
  match kind with
  | .io => (configureBridgeIo check stack sp s e).2
  | .mem => (configureBridgeMem check stack sp s e).2
  | .pref => (configureBridgePref check stack sp s e).2

/-- `BUSMAP` の窓。 -/
def WindowKind.get (kind : WindowKind) (map : Windows) : Nat × Nat :=
  match kind with
  | .io => (map.ioStart, map.ioEnd)
  | .mem => (map.memStart, map.memEnd)
  | .pref => (map.prefetchMemStart, map.prefetchMemEnd)

/-- 親の範囲。 -/
def WindowKind.limits (kind : WindowKind) (g : PciRanges) (bus : Nat) : Nat × Nat :=
  match kind with
  | .io => ioLimits g ((g.findBus bus).getD {}) bus
  | _ => memLimits g ((g.findBus bus).getD {}) kind.type bus

/-- 橋の表せる、親の範囲の中の窓。 -/
structure Representable (g : PciRanges) (bus : Nat) (io32 pref64 : Bool) (kind : WindowKind) (s e : Nat) : Prop where
  parent : bus = 0 ∨ g.findBus bus ≠ none
  start_aligned : s % 2 ^ kind.unit = 0
  end_aligned : (e + 1) % 2 ^ kind.unit = 0
  start_le : s ≤ e
  end_lt : e < 2 ^ kind.width io32 pref64
  low_le : (kind.limits g bus).1 ≤ s
  le_high : e ≤ (kind.limits g bus).2

/-- 書いた窓を読み取ると、使われている窓として元に戻ること。 -/
def RoundTrip (check : PciexCheck) (stack : Mem) (g : PciRanges) (bus secBus junk : Nat) (map : Windows) (sp : Space)
    (kind : WindowKind) (s e : Nat) : Prop :=
  ∃ r sp', configureBridge check stack g bus secBus junk map (kind.write check stack sp s e) = some (r, sp') ∧
    kind.get r = (s, e) ∧ ((kind.get r).1 ≠ 0 ∨ (kind.get r).2 ≠ 0)

/-- 親の範囲が `0xf000` から始まる、4 KB の窓の場合。 -/
def BridgeCase (g : PciRanges) (bus s e : Nat) : Prop :=
  (WindowKind.io.limits g bus).1 = 0xf000 ∧ e - s = 0xfff

section

variable {sp : Space} {check : PciexCheck} {stack : Mem} {g : PciRanges} {bus secBus junk : Nat} {map : Windows}
  {io32 pref64 : Bool} {kind : WindowKind} {s e : Nat}

theorem width_io_le : WindowKind.io.width io32 pref64 ≤ 32 := by
  cases io32 with
  | false => exact (by decide : 16 ≤ 32)
  | true => exact (by decide : 32 ≤ 32)

theorem width_pref_le : WindowKind.pref.width io32 pref64 ≤ 64 := by
  cases pref64 with
  | false => exact (by decide : 32 ≤ 64)
  | true => exact (by decide : 64 ≤ 64)

/-! ## `check_range()` -/

theorem checkRange_mem {type : BitVec 32} (hparent : bus = 0 ∨ g.findBus bus ≠ none) (htype : has type pciIoSpace = false)
    (hlow : (memLimits g ((g.findBus bus).getD {}) type bus).1 ≤ s) (hhigh : e ≤ (memLimits g ((g.findBus bus).getD {}) type bus).2)
    (hle : s ≤ e) (hpos : 0 < e) (hlt : e < 2 ^ 64) : checkRange g s (e - s) type bus = 0 := by
  have hbus : ¬ (bus ≠ 0 ∧ g.findBus bus = none) := fun h => hparent.elim h.1 fun hp => hp h.2
  have hend : (s + (e - s) + 2 ^ 64 - 1) % 2 ^ 64 = e - 1 := by omega
  rw [checkRange, if_neg hbus]
  dsimp only
  rw [htype, if_neg Bool.false_ne_true, hend, if_pos ⟨hlow, (Nat.sub_le _ _).trans hhigh⟩]

theorem checkRange_io (hparent : bus = 0 ∨ g.findBus bus ≠ none) (hlow : (WindowKind.io.limits g bus).1 ≤ s)
    (hhigh : e ≤ (WindowKind.io.limits g bus).2) (hle : s ≤ e) (hpos : 0 < e) (hlt : e < 2 ^ 64) (halign : (e + 1) % 2 ^ 12 = 0) :
    checkRange g s (e - s) pciIoSpace bus = 0 ↔ ¬ (BridgeCase g bus s e ∧ 0xffff < e) := by
  have hbus : ¬ (bus ≠ 0 ∧ g.findBus bus = none) := fun h => hparent.elim h.1 fun hp => hp h.2
  have hend : (s + (e - s) + 2 ^ 64 - 1) % 2 ^ 64 = e - 1 := by omega
  have htype : has pciIoSpace pciIoSpace = true := by decide
  rw [checkRange, if_neg hbus]
  dsimp only
  rw [htype, if_pos rfl, hend]
  by_cases hcase : BridgeCase g bus s e
  · rw [if_pos (c := (ioLimits g ((g.findBus bus).getD {}) bus).1 = 0xf000 ∧ e - s = 0xfff) hcase]
    by_cases hlarge : 0xffff < e
    · rw [if_neg fun h => absurd h.2 (by omega)]
      exact ⟨fun h => absurd h (by decide), fun h => absurd ⟨hcase, hlarge⟩ h⟩
    · rw [if_pos ⟨hlow, by omega⟩]
      exact ⟨fun _ h => hlarge h.2, fun _ => rfl⟩
  · rw [if_neg (c := (ioLimits g ((g.findBus bus).getD {}) bus).1 = 0xf000 ∧ e - s = 0xfff) hcase,
      if_pos ⟨hlow, (Nat.sub_le _ _).trans hhigh⟩]
    exact ⟨fun _ h => hcase h.1, fun _ => rfl⟩

/-! ## 窓の検査 -/

theorem acceptRange_ok {type : BitVec 32} {w : Nat × Nat} (hle : w.1 ≤ w.2) (h : checkRange g w.1 (w.2 - w.1) type bus = 0) :
    (acceptRange g type bus w).1 = w := by
  rw [acceptRange, acceptWindow, if_neg (Nat.not_lt.mpr hle), if_neg (not_not_intro h)]

theorem acceptRange_cases {type : BitVec 32} {w : Nat × Nat} : (acceptRange g type bus w).1 = (0, 0) ∨ (acceptRange g type bus w).1 = w := by
  rw [acceptRange, acceptWindow]
  split
  · exact Or.inl rfl
  · split
    · exact Or.inl rfl
    · exact Or.inr rfl

theorem acceptRange_refused {type : BitVec 32} {w : Nat × Nat} (hle : w.1 ≤ w.2) (h : checkRange g w.1 (w.2 - w.1) type bus ≠ 0) :
    (acceptRange g type bus w).1 = (0, 0) := by
  rw [acceptRange, acceptWindow, if_neg (Nat.not_lt.mpr hle), if_pos h]

/-! ## 書いた後の窓 -/

/-- 書いた後の、検査の前の窓。 -/
theorem write_decoded (hw : BridgeHardware sp io32 pref64) (hwin : Representable g bus io32 pref64 kind s e) :
    ∃ r sp', configureBridge check stack g bus secBus junk map (kind.write check stack sp s e) = some (r, sp') ∧
      kind.get r = (acceptRange g kind.type bus (if kind = .io then (signExtend s, signExtend e) else (s, e))).1 := by
  have hs := hwin.start_aligned
  have he := hwin.end_aligned
  have hlt := hwin.end_lt
  cases kind with
  | io =>
      obtain ⟨hword, hupper, hheader⟩ := @configureBridgeIo_written sp check stack io32 pref64 s e hw
      obtain ⟨sp', h⟩ := @configureBridge_eq (configureBridgeIo check stack sp s e).2 check stack g bus secBus junk map
        (by rw [hheader]; exact hw.headerType)
      rw [ioWindow_of hs he hwin.start_le hlt hword hupper] at h
      exact ⟨_, sp', h, rfl⟩
  | mem =>
      obtain ⟨hword, hheader⟩ := @configureBridgeMem_written sp check stack io32 pref64 s e hw
      obtain ⟨sp', h⟩ := @configureBridge_eq (configureBridgeMem check stack sp s e).2 check stack g bus secBus junk map
        (by rw [hheader]; exact hw.headerType)
      rw [memWindow_of hs he hwin.start_le hlt hword] at h
      exact ⟨_, sp', h, rfl⟩
  | pref =>
      obtain ⟨hword, hupper, hheader⟩ := @configureBridgePref_written sp check stack io32 pref64 s e hw
      obtain ⟨sp', h⟩ := @configureBridge_eq (configureBridgePref check stack sp s e).2 check stack g bus secBus junk map
        (by rw [hheader]; exact hw.headerType)
      rw [prefWindow_of hs he hwin.start_le hlt hword hupper] at h
      exact ⟨_, sp', h, rfl⟩

/-- 往復は、検査が窓をそのまま通すことである。 -/
theorem roundTrip_iff (hw : BridgeHardware sp io32 pref64) (hwin : Representable g bus io32 pref64 kind s e) (hpos : 0 < e) :
    RoundTrip check stack g bus secBus junk map sp kind s e ↔
      (acceptRange g kind.type bus (if kind = .io then (signExtend s, signExtend e) else (s, e))).1 = (s, e) := by
  obtain ⟨r, sp', hconfigure, hget⟩ := @write_decoded sp check stack g bus secBus junk map io32 pref64 kind s e hw hwin
  constructor
  · rintro ⟨r', sp'', hconfigure', hget', -⟩
    rw [hconfigure] at hconfigure'
    cases hconfigure'
    rw [← hget, hget']
  · intro h
    rw [h] at hget
    refine ⟨r, sp', hconfigure, hget, ?_⟩
    rw [hget]
    exact Or.inr hpos.ne'

end

/-- メモリの窓はいつも、I/O の窓は条件を満たすときに限り、元に戻る。 -/
theorem bridge_round_trip_iff {sp : Space} {io32 pref64 : Bool} (hw : BridgeHardware sp io32 pref64) {g : PciRanges} {bus : Nat}
    {kind : WindowKind} {s e : Nat} (hwin : Representable g bus io32 pref64 kind s e) (check : PciexCheck) (stack : Mem)
    (secBus junk : Nat) (map : Windows) :
    RoundTrip check stack g bus secBus junk map sp kind s e ↔
      (kind = .io → e < 2 ^ 31 ∧ ¬ (BridgeCase g bus s e ∧ 0xffff < e)) := by
  have halign := hwin.end_aligned
  have hle := hwin.start_le
  have hlt := hwin.end_lt
  cases kind with
  | io =>
      have hpos : 0 < e := Nat.pos_of_ne_zero fun h => by rw [h] at halign; exact absurd halign (by decide)
      have hwide : e < 2 ^ 32 := hlt.trans_le (Nat.pow_le_pow_right (by decide) width_io_le)
      rw [roundTrip_iff hw hwin hpos, if_pos rfl]
      by_cases hsmall : e < 2 ^ 31
      · rw [signExtend, signExtend, if_pos hsmall, if_pos (hle.trans_lt hsmall)]
        have hrange := checkRange_io hwin.parent hwin.low_le hwin.le_high hle hpos (hwide.trans (by decide)) halign
        constructor
        · intro h _
          refine ⟨hsmall, hrange.mp ?_⟩
          by_contra hrefused
          have hzero := (acceptRange_refused (w := (s, e)) hle hrefused).symm.trans h
          exact hpos.ne (congrArg Prod.snd hzero)
        · intro h
          exact acceptRange_ok hle (hrange.mpr (h rfl).2)
      · constructor
        · intro h _
          have hsnd : (acceptRange g pciIoSpace bus (signExtend s, signExtend e)).1 = (0, 0) ∨
              (acceptRange g pciIoSpace bus (signExtend s, signExtend e)).1 = (signExtend s, signExtend e) := acceptRange_cases
          rcases hsnd with hzero | hsame
          · exact absurd (congrArg Prod.snd (hzero.symm.trans h)) hpos.ne
          · have hext : signExtend e = e := congrArg Prod.snd (hsame.symm.trans h)
            rw [signExtend, if_neg hsmall] at hext
            omega
        · intro h
          exact absurd (h rfl).1 hsmall
  | mem =>
      have hpos : 0 < e := Nat.pos_of_ne_zero fun h => by rw [h] at halign; exact absurd halign (by decide)
      rw [roundTrip_iff hw hwin hpos, if_neg (by decide)]
      refine ⟨fun _ h => absurd h (by decide), fun _ => acceptRange_ok hle ?_⟩
      exact checkRange_mem hwin.parent (by decide) hwin.low_le hwin.le_high hle hpos (Nat.lt_trans (show e < 2 ^ 32 from hlt) (by decide))
  | pref =>
      have hpos : 0 < e := Nat.pos_of_ne_zero fun h => by rw [h] at halign; exact absurd halign (by decide)
      have hwide : e < 2 ^ 64 := hlt.trans_le (Nat.pow_le_pow_right (by decide) width_pref_le)
      rw [roundTrip_iff hw hwin hpos, if_neg (by decide)]
      refine ⟨fun _ h => absurd h (by decide), fun _ => acceptRange_ok hle ?_⟩
      exact checkRange_mem hwin.parent (by decide) hwin.low_le hwin.le_high hle hpos hwide

/-- 32 ビットの I/O と 64 ビットの先読みの窓をもつ橋。 -/
def wideBridge : Space where
  size := 256
  size_eq := plainSize
  regs := fun x => if x = 0x0e ∨ x = 0x1c ∨ x = 0x1d ∨ x = 0x24 ∨ x = 0x26 then 1 else 0
  writable := fun x =>
    if x = 0x1c ∨ x = 0x1d ∨ x = 0x20 ∨ x = 0x22 ∨ x = 0x24 ∨ x = 0x26 then 0xf0
    else if x = 0x21 ∨ x = 0x23 ∨ x = 0x25 ∨ x = 0x27 ∨ (0x28 ≤ x ∧ x < 0x34) then 0xff else 0

theorem wideBridge_hardware : BridgeHardware wideBridge true true where
  headerType := by decide
  ioMask := by decide
  ioType := by decide
  ioUpper := fun _ => by decide
  memMask := by decide
  memType := by decide
  prefMask := by decide
  prefType := by decide
  prefUpper := fun _ => by decide

/-- `0x80000000` からの 64 KB を I/O に、`0x10000000` からの 16 MB をメモリに使う系。 -/
def highRanges : PciRanges where
  ioPciLow := 0x80000000
  ioPciHigh := 0x8000ffff
  memPciLow := 0x10000000
  memPciHigh := 0x10ffffff
  findBus := fun _ => none

theorem bridge_round_trip_iff_sample :
    RoundTrip (fun _ _ => .ok ()) (fun _ => 0) highRanges 0 1 0 {} wideBridge .pref 0x10000000 0x100fffff :=
  (bridge_round_trip_iff wideBridge_hardware
    ⟨Or.inl rfl, by decide, by decide, by decide, by decide, by decide, by decide⟩ _ _ _ _ _).mpr fun h => by cases h

/-- `0x80000000` からの 4 KB の I/O の窓は、元に戻らない。 -/
theorem bridge_io_window_lost : ¬ RoundTrip (fun _ _ => .ok ()) (fun _ => 0) highRanges 0 1 0 {} wideBridge .io 0x80000000 0x80000fff := by
  have hwin : Representable highRanges 0 true true .io 0x80000000 0x80000fff :=
    ⟨Or.inl rfl, by decide, by decide, by decide, by decide, by decide, by decide⟩
  have hpos : 0 < 0x80000fff := by decide
  rw [roundTrip_iff wideBridge_hardware hwin hpos, if_pos rfl]
  intro h
  rcases @acceptRange_cases highRanges 0 pciIoSpace (signExtend 0x80000000, signExtend 0x80000fff) with hzero | hsame
  · exact absurd (congrArg Prod.snd (hzero.symm.trans h)) (by decide)
  · exact absurd (congrArg Prod.snd (hsame.symm.trans h)) (by decide)

end Imx6Bsp.Pci
