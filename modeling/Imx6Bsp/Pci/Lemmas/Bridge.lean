import Imx6Bsp.Pci.Bridge
import Imx6Bsp.Pci.Lemmas.Config

/-!
# 橋のレジスタ

半語の読み書きを、設定空間の内容で書き直す。窓の書き込みは、書いた語の他を変えない。
-/

namespace Imx6Bsp.Pci

open Imx6Bsp.Lib

variable {sp : Space} {check : PciexCheck} {stack : Mem} {offset v : Nat}

/-! ## 半語の読み書き -/

theorem read16_eq (heven : offset % 2 = 0) (h : offset < 256) : read16 check stack sp offset = some (sp.regs.readLE offset 2) := by
  obtain ⟨buf, hread, hword⟩ := @readConfig16_one sp check stack offset heven h
  rw [read16, hread, ← hword]
  rfl

theorem fetch32_eq (halign : offset % 4 = 0) (h : offset < 256) : fetch32 check stack sp offset = some (sp.regs.readLE offset 4) := by
  have hsize := sp.le_size
  have hread : readConfig32 check stack sp offset 1 = .ok (stack.fill 0 (4 * 1) fun i => sp.regs (offset + i)) := by
    rw [readConfig32, if_neg (not_not_intro halign), if_neg (by omega)]
    exact readLoop_eq (by omega)
  rw [fetch32, hread]
  refine congrArg some (Mem.readLE_congr fun i hi => ?_)
  exact Mem.fill_in hi

theorem write16_eq (heven : offset % 2 = 0) (h : offset < 256) : write16 check stack sp offset v = sp.put offset 2 (dwordBytes v) := by
  have hsize := sp.size_eq
  have hin : offset + 2 ≤ sp.size := by omega
  have hgate : gate check (alignDown offset) (dwords 2) = .ok () := gate_low h
  have hconfig : writeConfig16 check stack sp offset 1 (dwordBytes v) = writeNarrow check stack sp offset 2 (dwords 2) (dwordBytes v) := by
    rw [writeConfig16, if_neg (by decide), if_neg (by omega)]
    rfl
  have hspace := @writeNarrow_eq sp check stack (dwordBytes v) offset 2 _ hgate (alignDown_le_size hin)
  rw [write16, hconfig]
  have hregs : (writeNarrow check stack sp offset 2 (dwords 2) (dwordBytes v)).1.regs = (sp.put offset 2 (dwordBytes v)).regs := by
    funext x
    rw [(writeNarrow_get (x := x) hgate hin rfl).2]
    have halign := alignDown_add_mod offset
    have hdwords : dwords 2 = 1 := rfl
    by_cases hx : offset ≤ x ∧ x < offset + 2
    · obtain ⟨i, rfl⟩ := Nat.exists_eq_add_of_le hx.1
      rw [Space.put_in (by omega), if_pos (by omega), Nat.add_sub_cancel_left]
    · rw [Space.put_out (by omega), if_neg (by omega)]
  rw [hspace] at hregs ⊢
  exact congrArg (fun regs => Space.mk _ sp.size_eq regs _) hregs

/-- 書いた半語。 -/
theorem readLE_put_word (hv : v < 2 ^ 16) :
    (sp.put offset 2 (dwordBytes v)).regs.readLE offset 2
      = withBits 16 (sp.regs.readLE offset 2) (sp.writable.readLE offset 2) (v &&& sp.writable.readLE offset 2) := by
  have h := readLE_latch (r := (sp.put offset 2 (dwordBytes v)).regs) (f := sp.regs) (m := sp.writable) (g := dwordBytes v)
    offset offset offset 0 2 fun i hi => by rw [Space.put_in hi, Nat.zero_add]
  have hword : (dwordBytes v).readLE 0 2 = v := by
    have hbytes : (dwordBytes v).readLE 0 2 = (Mem.writeLE (dwordBytes v) 0 2 v).readLE 0 2 :=
      Mem.readLE_congr fun i hi => by
        rw [Mem.writeLE, if_pos (by omega)]
        rfl
    rw [hbytes, Mem.readLE_writeLE_self]
    exact Nat.mod_eq_of_lt hv
  rw [h, hword]

theorem enableCommand_eq {bits : Nat} :
    enableCommand check stack sp bits = (0, sp.put 0x04 2 (dwordBytes (sp.regs.readLE 0x04 2 ||| bits))) := by
  rw [enableCommand, read16_eq (by decide) (by decide)]
  dsimp only
  rw [write16_eq (by decide) (by decide)]

/-! ## レジスタの表す窓 -/

/-- I/O の窓の、始まりと終わり。 -/
def ioWindow (regs : Mem) : Nat × Nat :=
  let word := regs.readLE 0x1c 2
  (signedUpper (if word &&& 0x0f ≠ 0 then regs.readLE 0x30 2 else 0) ||| (word &&& 0xf0) <<< 8,
    ((signedUpper (if word &&& 0x0f00 ≠ 0 then regs.readLE 0x32 2 else 0) ||| (word &&& 0xf000)) + 0xfff) % 2 ^ 64)

/-- メモリの窓。 -/
def memWindow (regs : Mem) : Nat × Nat :=
  let dword := regs.readLE 0x20 4
  ((dword &&& 0xffff) <<< 16, ((dword &&& 0xfff00000) + 0xfffff) % 2 ^ 32)

/-- 先読みのできるメモリの窓。 -/
def prefWindow (regs : Mem) : Nat × Nat :=
  let dword := regs.readLE 0x24 4
  ((if dword &&& 0x0f ≠ 0 then regs.readLE 0x28 4 else 0) <<< 32 ||| (dword &&& 0xfff0) <<< 16,
    (((if dword &&& 0xf0000 ≠ 0 then regs.readLE 0x2c 4 else 0) <<< 32 ||| (dword &&& 0xfff00000)) + 0xfffff) % 2 ^ 64)

variable {g : PciRanges} {bus secBus junk : Nat} {map : Windows}

/-- 窓を検査した結果。 -/
def acceptRange (g : PciRanges) (type : BitVec 32) (bus : Nat) (w : Nat × Nat) : (Nat × Nat) × Bool := acceptWindow g w.1 w.2 type bus

theorem upper16_eq {wide : Prop} [Decidable wide] (heven : offset % 2 = 0) (h : offset < 256) :
    upper16 check stack sp wide offset = some (if wide then sp.regs.readLE offset 2 else 0) := by
  rw [upper16, read16_eq heven h]
  split
  · rfl
  · rfl

theorem upper32_eq {wide : Prop} [Decidable wide] (halign : offset % 4 = 0) (h : offset < 256) :
    upper32 check stack sp wide offset = some (if wide then sp.regs.readLE offset 4 else 0) := by
  rw [upper32, fetch32_eq halign h]
  split
  · rfl
  · rfl

theorem decodeIo_eq :
    decodeIo check stack g bus sp = some ((acceptRange g pciIoSpace bus (ioWindow sp.regs)).1,
      if (acceptRange g pciIoSpace bus (ioWindow sp.regs)).2 then sp.put 0x1c 2 (dwordBytes 0xff) else sp) := by
  rw [decodeIo, read16_eq (by decide) (by decide)]
  dsimp only [bind, Option.bind]
  rw [upper16_eq (by decide) (by decide)]
  dsimp only
  rw [upper16_eq (by decide) (by decide), write16_eq (by decide) (by decide)]
  rfl

theorem decodeMem_eq :
    decodeMem check stack g bus sp = some ((acceptRange g pciMemSpace bus (memWindow sp.regs)).1,
      if (acceptRange g pciMemSpace bus (memWindow sp.regs)).2 then sp.put 0x20 4 (dwordBytes 0xffff) else sp) := by
  rw [decodeMem, fetch32_eq (by decide) (by decide)]
  dsimp only [bind, Option.bind]
  rw [write32_eq (by decide) (by decide)]
  rfl

theorem decodePref_eq :
    decodePref check stack g bus sp = some ((acceptRange g pciMemPrefetch bus (prefWindow sp.regs)).1,
      if (acceptRange g pciMemPrefetch bus (prefWindow sp.regs)).2 then sp.put 0x24 4 (dwordBytes 0xffff) else sp) := by
  rw [decodePref, fetch32_eq (by decide) (by decide)]
  dsimp only [bind, Option.bind]
  rw [upper32_eq (by decide) (by decide)]
  dsimp only
  rw [upper32_eq (by decide) (by decide), write32_eq (by decide) (by decide)]
  rfl

/-! ## 他の語を変えないこと -/

theorem ioWindow_put {n : Nat} {f : Nat → UInt8} (h : offset + n ≤ 0x1c ∨ (0x1e ≤ offset ∧ offset + n ≤ 0x30)) :
    ioWindow (sp.put offset n f).regs = ioWindow sp.regs := by
  rw [ioWindow, ioWindow, readLE_put_of_disjoint (by omega), readLE_put_of_disjoint (by omega), readLE_put_of_disjoint (by omega)]

theorem memWindow_put {n : Nat} {f : Nat → UInt8} (h : offset + n ≤ 0x20 ∨ 0x24 ≤ offset) :
    memWindow (sp.put offset n f).regs = memWindow sp.regs := by
  unfold memWindow
  rw [readLE_put_of_disjoint (by omega)]

theorem prefWindow_put {n : Nat} {f : Nat → UInt8} (h : offset + n ≤ 0x24 ∨ 0x30 ≤ offset) :
    prefWindow (sp.put offset n f).regs = prefWindow sp.regs := by
  unfold prefWindow
  rw [readLE_put_of_disjoint (by omega), readLE_put_of_disjoint (by omega), readLE_put_of_disjoint (by omega)]

/-- I/O の窓の読み取りは、他の窓を変えない。 -/
theorem decodeIo_frame : ∃ sp', decodeIo check stack g bus sp = some ((acceptRange g pciIoSpace bus (ioWindow sp.regs)).1, sp') ∧
    memWindow sp'.regs = memWindow sp.regs ∧ prefWindow sp'.regs = prefWindow sp.regs := by
  refine ⟨_, decodeIo_eq, ?_⟩
  split
  · exact ⟨memWindow_put (by decide), prefWindow_put (by decide)⟩
  · exact ⟨rfl, rfl⟩

theorem decodeMem_frame : ∃ sp', decodeMem check stack g bus sp = some ((acceptRange g pciMemSpace bus (memWindow sp.regs)).1, sp') ∧
    prefWindow sp'.regs = prefWindow sp.regs := by
  refine ⟨_, decodeMem_eq, ?_⟩
  split
  · exact prefWindow_put (by decide)
  · rfl

/-- バスの番号と `Command` の書き込みは、窓を変えない。 -/
theorem openBridge_frame : ∃ sp', openBridge check stack bus secBus junk sp = sp' ∧ ioWindow sp'.regs = ioWindow sp.regs ∧
    memWindow sp'.regs = memWindow sp.regs ∧ prefWindow sp'.regs = prefWindow sp.regs := by
  rw [openBridge, write32_eq (by decide) (by decide), write16_eq (by decide) (by decide)]
  refine ⟨_, rfl, ?_, ?_, ?_⟩
  · rw [ioWindow_put (by decide), ioWindow_put (by decide)]
  · rw [memWindow_put (by decide), memWindow_put (by decide)]
  · rw [prefWindow_put (by decide), prefWindow_put (by decide)]

/-- 読み取った三つの窓。 -/
def windowsOf (io mem pref : Nat × Nat) : Windows := ⟨io.1, io.2, mem.1, mem.2, pref.1, pref.2⟩

theorem configureBridge_of {io mem pref : Nat × Nat} {sp1 sp2 sp3 sp4 : Space} (hheader : (sp.regs 0x0e).toNat &&& 0x7f = 1)
    (hopen : openBridge check stack bus secBus junk sp = sp1) (hio : decodeIo check stack g bus sp1 = some (io, sp2))
    (hmem : decodeMem check stack g bus sp2 = some (mem, sp3)) (hpref : decodePref check stack g bus sp3 = some (pref, sp4)) :
    configureBridge check stack g bus secBus junk map sp = some (windowsOf io mem pref, sp4) := by
  obtain ⟨byte, hbyte, hget⟩ := @readConfig8_one sp check stack 0x0e (by decide)
  have hbind : ∀ {α β : Type} (a : α) (f : α → Option β), (some a >>= f) = f a := fun a f => rfl
  rw [configureBridge, hbyte, Except.toOption, hbind]
  dsimp only
  rw [hget, hheader, if_neg (by decide), if_pos (rfl : (1 : Nat) = 1), hopen, hio, hbind, hmem, hbind, hpref, hbind]
  rfl

/-- 橋の窓の読み取り。 -/
theorem configureBridge_eq (hheader : (sp.regs 0x0e).toNat &&& 0x7f = 1) :
    ∃ sp', configureBridge check stack g bus secBus junk map sp = some (windowsOf (acceptRange g pciIoSpace bus (ioWindow sp.regs)).1
      (acceptRange g pciMemSpace bus (memWindow sp.regs)).1 (acceptRange g pciMemPrefetch bus (prefWindow sp.regs)).1, sp') := by
  obtain ⟨sp1, hopen, hio, hmem, hpref⟩ := @openBridge_frame sp check stack bus secBus junk
  obtain ⟨sp2, hdecodeIo, hmem', hpref'⟩ := @decodeIo_frame sp1 check stack g bus
  obtain ⟨sp3, hdecodeMem, hpref''⟩ := @decodeMem_frame sp2 check stack g bus
  have h := @configureBridge_of sp check stack g bus secBus junk map _ _ _ _ _ _ _ hheader hopen hdecodeIo hdecodeMem decodePref_eq
  rw [hpref'', hpref', hpref, hmem', hmem, hio] at h
  exact ⟨_, h⟩

/-! ## 書いた窓のレジスタ -/

/-- 下の四桁だけを読み出し専用とする、二つの欄の組。 -/
theorem withBits_pair {k old t u a b : Nat} (hk : 4 ≤ k) (ht : t < 2 ^ 4) (hu : u < 2 ^ 4) (ha : a * 2 ^ 4 < 2 ^ k) (hb : b * 2 ^ 4 < 2 ^ k)
    (htype : old &&& (2 ^ 4 - 1 + 2 ^ k * (2 ^ 4 - 1)) = t + 2 ^ k * u) :
    withBits (k + k) old (2 ^ k - 2 ^ 4 + 2 ^ k * (2 ^ k - 2 ^ 4))
        ((a * 2 ^ 4 + 2 ^ k * (b * 2 ^ 4)) &&& (2 ^ k - 2 ^ 4 + 2 ^ k * (2 ^ k - 2 ^ 4)))
      = t + a * 2 ^ 4 + 2 ^ k * (u + b * 2 ^ 4) := by
  have hpow : 2 ^ 4 ≤ 2 ^ k := Nat.pow_le_pow_right (by decide) hk
  have hcompl : 2 ^ (k + k) - 1 - (2 ^ k - 2 ^ 4 + 2 ^ k * (2 ^ k - 2 ^ 4)) = 2 ^ 4 - 1 + 2 ^ k * (2 ^ 4 - 1) := by
    obtain ⟨d, hd⟩ := Nat.exists_eq_add_of_le hpow
    rw [Nat.pow_add, hd, Nat.add_sub_cancel_left]
    ring_nf
    omega
  have hmask : ∀ {c}, c * 2 ^ 4 < 2 ^ k → c * 2 ^ 4 &&& (2 ^ k - 2 ^ 4) = c * 2 ^ 4 := fun hc => by
    rw [land_high_mask hc hk, Nat.mul_div_cancel _ (Nat.two_pow_pos 4)]
  have hlow : 2 ^ k - 2 ^ 4 < 2 ^ k := Nat.sub_lt (Nat.two_pow_pos k) (Nat.two_pow_pos 4)
  rw [withBits, hcompl, htype, and_split ha hlow, hmask ha, hmask hb, or_split (ht.trans_le hpow) ha,
    or_eq_add ht (Nat.dvd_mul_left _ _), or_eq_add hu (Nat.dvd_mul_left _ _)]

/-- すべての桁が書ける欄。 -/
theorem withBits_full {w x v : Nat} (hv : v < 2 ^ w) : withBits w x (2 ^ w - 1) (v &&& (2 ^ w - 1)) = v := by
  rw [withBits, Nat.sub_self, Nat.and_zero, Nat.zero_or, Nat.and_two_pow_sub_one_of_lt_two_pow hv]

/-- 組の、四つの欄。 -/
theorem pair_fields {k t u a b x : Nat} (hk : 4 ≤ k) (ht : t < 2 ^ 4) (hu : u < 2 ^ 4) (ha : t + a * 2 ^ 4 < 2 ^ k)
    (hb : u + b * 2 ^ 4 < 2 ^ k) (hx : x = t + a * 2 ^ 4 + 2 ^ k * (u + b * 2 ^ 4)) :
    x &&& (2 ^ 4 - 1) = t ∧ x &&& (2 ^ k - 2 ^ 4) = a * 2 ^ 4 ∧ x &&& (2 ^ k * (2 ^ 4 - 1)) = 2 ^ k * u ∧
      x &&& (2 ^ k * (2 ^ k - 2 ^ 4)) = 2 ^ k * (b * 2 ^ 4) := by
  subst hx
  have hpow : 2 ^ 4 ≤ 2 ^ k := Nat.pow_le_pow_right (by decide) hk
  have htype : ∀ {t a}, t < 2 ^ 4 → (t + a * 2 ^ 4) &&& (2 ^ 4 - 1) = t := fun ht => by
    rw [Nat.and_two_pow_sub_one_eq_mod, Nat.add_mul_mod_self_right, Nat.mod_eq_of_lt ht]
  have hvalue : ∀ {t a}, t < 2 ^ 4 → t + a * 2 ^ 4 < 2 ^ k → (t + a * 2 ^ 4) &&& (2 ^ k - 2 ^ 4) = a * 2 ^ 4 := fun ht ha => by
    rw [land_high_mask ha hk, Nat.add_mul_div_right _ _ (Nat.two_pow_pos 4), Nat.div_eq_of_lt ht, Nat.zero_add]
  have hlow : 2 ^ k - 2 ^ 4 < 2 ^ k := Nat.sub_lt (Nat.two_pow_pos k) (Nat.two_pow_pos 4)
  have hnibble : 2 ^ 4 - 1 < 2 ^ k := (Nat.sub_lt (Nat.two_pow_pos 4) Nat.one_pos).trans_le hpow
  refine ⟨?_, ?_, ?_, ?_⟩
  · have h := @and_split k _ _ (u + b * 2 ^ 4) 0 ha hnibble
    rwa [Nat.and_zero, Nat.mul_zero, Nat.add_zero, Nat.add_zero, htype ht] at h
  · have h := @and_split k _ _ (u + b * 2 ^ 4) 0 ha hlow
    rwa [Nat.and_zero, Nat.mul_zero, Nat.add_zero, Nat.add_zero, hvalue ht ha] at h
  · have h := @and_split k _ 0 (u + b * 2 ^ 4) (2 ^ 4 - 1) ha (Nat.two_pow_pos k)
    rwa [Nat.and_zero, Nat.zero_add, Nat.zero_add, htype hu] at h
  · have h := @and_split k _ 0 (u + b * 2 ^ 4) (2 ^ k - 2 ^ 4) ha (Nat.two_pow_pos k)
    rwa [Nat.and_zero, Nat.zero_add, Nat.zero_add, hvalue hu hb] at h

theorem readLE_put_full16 (hm : sp.writable.readLE offset 2 = 0xffff) (hv : v < 2 ^ 16) :
    (sp.put offset 2 (dwordBytes v)).regs.readLE offset 2 = v := by
  rw [readLE_put_word hv, hm]
  exact withBits_full hv

theorem readLE_put_full32 (hm : sp.writable.readLE offset 4 = 0xffffffff) (hv : v < 2 ^ 32) :
    (sp.put offset 4 (dwordBytes v)).regs.readLE offset 4 = v := by
  rw [readLE_put_self hv, hm]
  exact withBits_full hv

/-! ## 橋の作り -/

/-- 橋の、書ける桁と固定の桁。`io32` は 32 ビットの I/O、`pref64` は 64 ビットの先読みの窓を表す。 -/
structure BridgeHardware (sp : Space) (io32 pref64 : Bool) : Prop where
  headerType : (sp.regs 0x0e).toNat &&& 0x7f = 1
  ioMask : sp.writable.readLE 0x1c 2 = 0xf0f0
  ioType : sp.regs.readLE 0x1c 2 &&& 0x0f0f = 0x0101 * io32.toNat
  ioUpper : io32 = true → sp.writable.readLE 0x30 2 = 0xffff ∧ sp.writable.readLE 0x32 2 = 0xffff
  memMask : sp.writable.readLE 0x20 4 = 0xfff0fff0
  memType : sp.regs.readLE 0x20 4 &&& 0x000f000f = 0
  prefMask : sp.writable.readLE 0x24 4 = 0xfff0fff0
  prefType : sp.regs.readLE 0x24 4 &&& 0x000f000f = 0x00010001 * pref64.toNat
  prefUpper : pref64 = true → sp.writable.readLE 0x28 4 = 0xffffffff ∧ sp.writable.readLE 0x2c 4 = 0xffffffff

variable {io32 pref64 : Bool} {s e : Nat}

/-- 固定の桁が、窓の幅を示す。 -/
theorem type_bit {x mask m : Nat} {wide : Bool} (h : x &&& mask = m * wide.toNat) (hmask : mask &&& 1 = 1) (hm : m &&& 1 = 1) :
    (x &&& 1 ≠ 0 ↔ wide = true) := by
  have hx : x &&& 1 = (m * wide.toNat) &&& 1 := by rw [← h, Nat.and_assoc, hmask]
  rw [hx]
  cases wide with
  | false => simp
  | true => simp [hm]

/-- 書いた I/O の語。 -/
theorem ioWords_eq : ((s &&& 0xf000) >>> 8) ||| ((e &&& 0xf000) >>> 8) <<< 8
    = s % 2 ^ 16 / 2 ^ 12 * 2 ^ 4 + 2 ^ 8 * (e % 2 ^ 16 / 2 ^ 12 * 2 ^ 4) := by
  have hmask : ∀ x : Nat, (x &&& 0xf000) >>> 8 = x % 2 ^ 16 / 2 ^ 12 * 2 ^ 4 := fun x => by
    rw [show 0xf000 = 2 ^ 16 - 2 ^ 12 from rfl, land_mask x (by decide), Nat.shiftRight_eq_div_pow]
    omega
  rw [hmask, hmask, Nat.shiftLeft_eq, or_eq_add (j := 8) (by omega) (Nat.dvd_mul_left _ _), Nat.mul_comm (2 ^ 8)]

/-- 書いたメモリの語。 -/
theorem memWords_eq : memWords s e = s % 2 ^ 32 / 2 ^ 20 * 2 ^ 4 + 2 ^ 16 * (e % 2 ^ 32 / 2 ^ 20 * 2 ^ 4) := by
  have hmask : ∀ x : Nat, (x &&& 0xfff00000) >>> 16 = x % 2 ^ 32 / 2 ^ 20 * 2 ^ 4 := fun x => by
    rw [show 0xfff00000 = 2 ^ 32 - 2 ^ 20 from rfl, land_mask x (by decide), Nat.shiftRight_eq_div_pow]
    omega
  rw [memWords, hmask, hmask, Nat.shiftLeft_eq, or_eq_add (j := 16) (by omega) (Nat.dvd_mul_left _ _), Nat.mul_comm (2 ^ 16)]

theorem configureBridgeIo_written (hw : BridgeHardware sp io32 pref64) :
    (configureBridgeIo check stack sp s e).2.regs.readLE 0x1c 2
        = io32.toNat + s % 2 ^ 16 / 2 ^ 12 * 2 ^ 4 + 2 ^ 8 * (io32.toNat + e % 2 ^ 16 / 2 ^ 12 * 2 ^ 4) ∧
    (io32 = true → (configureBridgeIo check stack sp s e).2.regs.readLE 0x30 2 = s / 2 ^ 16 % 2 ^ 16 ∧
      (configureBridgeIo check stack sp s e).2.regs.readLE 0x32 2 = e / 2 ^ 16 % 2 ^ 16) ∧
    (configureBridgeIo check stack sp s e).2.regs 0x0e = sp.regs 0x0e := by
  have hword : (sp.put 0x1c 2 (dwordBytes (s % 2 ^ 16 / 2 ^ 12 * 2 ^ 4 + 2 ^ 8 * (e % 2 ^ 16 / 2 ^ 12 * 2 ^ 4)))).regs.readLE 0x1c 2
      = io32.toNat + s % 2 ^ 16 / 2 ^ 12 * 2 ^ 4 + 2 ^ 8 * (io32.toNat + e % 2 ^ 16 / 2 ^ 12 * 2 ^ 4) := by
    have hbit := Bool.toNat_lt io32
    rw [readLE_put_word (by omega), hw.ioMask]
    apply withBits_pair (k := 8) (by decide) (by omega) (by omega) (by omega) (by omega)
    exact hw.ioType.trans (by omega)
  have hfull : ∀ {x : Nat}, x % 2 ^ 16 < 2 ^ 16 := Nat.mod_lt _ (by decide)
  rw [configureBridgeIo, read16_eq (by decide) (by decide)]
  dsimp only
  rw [ioWords_eq, write16_eq (by decide) (by decide), write16_eq (by decide) (by decide), write16_eq (by decide) (by decide), enableCommand_eq]
  dsimp only
  have hbit := type_bit hw.ioType (by decide) (by decide)
  cases io32 with
  | false =>
      have hnarrow : ¬ (sp.regs.readLE 0x1c 2 &&& 1 ≠ 0) := fun h => Bool.false_ne_true (hbit.mp h)
      rw [if_neg hnarrow]
      refine ⟨?_, fun h => absurd h Bool.false_ne_true, ?_⟩
      · rw [readLE_put_of_disjoint (by decide), hword]
      · rw [Space.put_out (by decide), Space.put_out (by decide)]
  | true =>
      have hupper := hw.ioUpper rfl
      rw [if_pos (hbit.mpr rfl)]
      refine ⟨?_, fun _ => ⟨?_, ?_⟩, ?_⟩
      · rw [readLE_put_of_disjoint (by decide), readLE_put_of_disjoint (by decide), readLE_put_of_disjoint (by decide), hword]
      · rw [readLE_put_of_disjoint (by decide), readLE_put_of_disjoint (by decide)]
        exact (@readLE_put_full16 (sp.put _ _ _) _ _ hupper.1 hfull).trans (by rw [Nat.shiftRight_eq_div_pow])
      · rw [readLE_put_of_disjoint (by decide)]
        exact (@readLE_put_full16 ((sp.put _ _ _).put _ _ _) _ _ hupper.2 hfull).trans (by rw [Nat.shiftRight_eq_div_pow])
      · rw [Space.put_out (by decide), Space.put_out (by decide), Space.put_out (by decide), Space.put_out (by decide)]

theorem configureBridgeMem_written (hw : BridgeHardware sp io32 pref64) :
    (configureBridgeMem check stack sp s e).2.regs.readLE 0x20 4
        = s % 2 ^ 32 / 2 ^ 20 * 2 ^ 4 + 2 ^ 16 * (e % 2 ^ 32 / 2 ^ 20 * 2 ^ 4) ∧
    (configureBridgeMem check stack sp s e).2.regs 0x0e = sp.regs 0x0e := by
  rw [configureBridgeMem, fetch32_eq (by decide) (by decide)]
  dsimp only
  rw [write32_eq (by decide) (by decide), enableCommand_eq, memWords_eq]
  dsimp only
  rw [readLE_put_of_disjoint (by decide), readLE_put_self (by omega), hw.memMask, Space.put_out (by decide), Space.put_out (by decide)]
  have h := @withBits_pair 16 (sp.regs.readLE 0x20 4) 0 0 (s % 2 ^ 32 / 2 ^ 20) (e % 2 ^ 32 / 2 ^ 20) (by decide) (by decide) (by decide)
    (by omega) (by omega) hw.memType
  rw [Nat.zero_add, Nat.zero_add] at h
  exact ⟨h, rfl⟩

theorem configureBridgePref_written (hw : BridgeHardware sp io32 pref64) :
    (configureBridgePref check stack sp s e).2.regs.readLE 0x24 4
        = pref64.toNat + s % 2 ^ 32 / 2 ^ 20 * 2 ^ 4 + 2 ^ 16 * (pref64.toNat + e % 2 ^ 32 / 2 ^ 20 * 2 ^ 4) ∧
    (pref64 = true → (configureBridgePref check stack sp s e).2.regs.readLE 0x28 4 = s / 2 ^ 32 % 2 ^ 32 ∧
      (configureBridgePref check stack sp s e).2.regs.readLE 0x2c 4 = e / 2 ^ 32 % 2 ^ 32) ∧
    (configureBridgePref check stack sp s e).2.regs 0x0e = sp.regs 0x0e := by
  have hword : (sp.put 0x24 4 (dwordBytes (s % 2 ^ 32 / 2 ^ 20 * 2 ^ 4 + 2 ^ 16 * (e % 2 ^ 32 / 2 ^ 20 * 2 ^ 4)))).regs.readLE 0x24 4
      = pref64.toNat + s % 2 ^ 32 / 2 ^ 20 * 2 ^ 4 + 2 ^ 16 * (pref64.toNat + e % 2 ^ 32 / 2 ^ 20 * 2 ^ 4) := by
    have hbit := Bool.toNat_lt pref64
    rw [readLE_put_self (by omega), hw.prefMask]
    apply withBits_pair (k := 16) (by decide) (by omega) (by omega) (by omega) (by omega)
    exact hw.prefType.trans (by omega)
  have hfull : ∀ {x : Nat}, x % 2 ^ 32 < 2 ^ 32 := Nat.mod_lt _ (by decide)
  rw [configureBridgePref, fetch32_eq (by decide) (by decide)]
  dsimp only
  rw [memWords_eq, write32_eq (by decide) (by decide), write32_eq (by decide) (by decide), write32_eq (by decide) (by decide), enableCommand_eq]
  dsimp only
  have hbit := type_bit hw.prefType (by decide) (by decide)
  cases pref64 with
  | false =>
      have hnarrow : ¬ (sp.regs.readLE 0x24 4 &&& 1 ≠ 0) := fun h => Bool.false_ne_true (hbit.mp h)
      rw [if_neg hnarrow]
      refine ⟨?_, fun h => absurd h Bool.false_ne_true, ?_⟩
      · rw [readLE_put_of_disjoint (by decide), hword]
      · rw [Space.put_out (by decide), Space.put_out (by decide)]
  | true =>
      have hupper := hw.prefUpper rfl
      rw [if_pos (hbit.mpr rfl)]
      refine ⟨?_, fun _ => ⟨?_, ?_⟩, ?_⟩
      · rw [readLE_put_of_disjoint (by decide), readLE_put_of_disjoint (by decide), readLE_put_of_disjoint (by decide), hword]
      · rw [readLE_put_of_disjoint (by decide), readLE_put_of_disjoint (by decide)]
        exact (@readLE_put_full32 (sp.put _ _ _) _ _ hupper.1 hfull).trans (by rw [Nat.shiftRight_eq_div_pow])
      · rw [readLE_put_of_disjoint (by decide)]
        exact (@readLE_put_full32 ((sp.put _ _ _).put _ _ _) _ _ hupper.2 hfull).trans (by rw [Nat.shiftRight_eq_div_pow])
      · rw [Space.put_out (by decide), Space.put_out (by decide), Space.put_out (by decide), Space.put_out (by decide)]

/-! ## 書いた窓を読むこと -/

/-- 最上位の桁が上に広がった番地。 -/
def signExtend (x : Nat) : Nat := if x < 2 ^ 31 then x else 2 ^ 64 - 2 ^ 32 + x

theorem signedUpper_or {hi x : Nat} (hx : x < 2 ^ 16) : signedUpper hi ||| x = signExtend (hi * 2 ^ 16 + x) := by
  rw [signedUpper, signExtend, Nat.shiftLeft_eq, Nat.or_comm]
  by_cases h : hi < 0x8000
  · have hsmall : hi * 2 ^ 16 + x < 2 ^ 31 := by omega
    rw [if_pos h, if_pos hsmall, or_eq_add hx (Nat.dvd_mul_left _ _), Nat.add_comm]
  · have hlarge : ¬ hi * 2 ^ 16 + x < 2 ^ 31 := by omega
    have hdvd : 2 ^ 16 ∣ 2 ^ 64 - 2 ^ 32 + hi * 2 ^ 16 := Nat.dvd_add (by decide) (Nat.dvd_mul_left _ _)
    rewrite [if_neg h, if_neg hlarge, or_eq_add hx hdvd]
    exact (Nat.add_left_comm _ _ _).trans (congrArg _ (Nat.add_comm _ _))


theorem signExtend_add {x : Nat} (hx : x % 2 ^ 12 = 0) : signExtend x + 0xfff = signExtend (x + 0xfff) := by
  unfold signExtend
  generalize 2 ^ 64 - 2 ^ 32 = c
  by_cases h : x < 2 ^ 31
  · have h' : x + 0xfff < 2 ^ 31 := by omega
    rw [if_pos h, if_pos h']
  · have h' : ¬ x + 0xfff < 2 ^ 31 := by omega
    rw [if_neg h, if_neg h', Nat.add_assoc]

theorem signExtend_lt {x : Nat} (hx : x < 2 ^ 32) : signExtend x < 2 ^ 64 := by
  rw [signExtend]
  by_cases h : x < 2 ^ 31
  · rw [if_pos h]
    omega
  · rw [if_neg h]
    omega

variable {regs : Mem}

theorem ioWindow_of (hs : s % 2 ^ 12 = 0) (he : (e + 1) % 2 ^ 12 = 0) (hle : s ≤ e) (hlt : e < 2 ^ (if io32 then 32 else 16))
    (hword : regs.readLE 0x1c 2
      = io32.toNat + s % 2 ^ 16 / 2 ^ 12 * 2 ^ 4 + 2 ^ 8 * (io32.toNat + e % 2 ^ 16 / 2 ^ 12 * 2 ^ 4))
    (hupper : io32 = true → regs.readLE 0x30 2 = s / 2 ^ 16 % 2 ^ 16 ∧ regs.readLE 0x32 2 = e / 2 ^ 16 % 2 ^ 16) :
    ioWindow regs = (signExtend s, signExtend e) := by
  have hbit := Bool.toNat_lt io32
  obtain ⟨h0f, hf0, h0f00, hf000⟩ : regs.readLE 0x1c 2 &&& 0x0f = io32.toNat ∧
      regs.readLE 0x1c 2 &&& 0xf0 = s % 2 ^ 16 / 2 ^ 12 * 2 ^ 4 ∧ regs.readLE 0x1c 2 &&& 0x0f00 = 2 ^ 8 * io32.toNat ∧
      regs.readLE 0x1c 2 &&& 0xf000 = 2 ^ 8 * (e % 2 ^ 16 / 2 ^ 12 * 2 ^ 4) :=
    pair_fields (k := 8) (by decide) (by omega) (by omega) (by omega) (by omega) hword
  have hbase : ∀ x : Nat, (x % 2 ^ 16 / 2 ^ 12 * 2 ^ 4) <<< 8 = x % 2 ^ 16 / 2 ^ 12 * 2 ^ 12 := fun x => by
    rw [Nat.shiftLeft_eq, Nat.mul_assoc]
    rfl
  have hlimit : ∀ x : Nat, 2 ^ 8 * (x % 2 ^ 16 / 2 ^ 12 * 2 ^ 4) = x % 2 ^ 16 / 2 ^ 12 * 2 ^ 12 := fun x => by
    rw [← hbase, Nat.shiftLeft_eq, Nat.mul_comm]
  have hstart : signedUpper (if io32 then s / 2 ^ 16 % 2 ^ 16 else 0) ||| s % 2 ^ 16 / 2 ^ 12 * 2 ^ 12 = signExtend s := by
    rw [signedUpper_or (by omega)]
    apply congrArg
    cases io32 with
    | false =>
        rw [if_neg Bool.false_ne_true] at hlt ⊢
        omega
    | true =>
        rw [if_pos rfl] at hlt ⊢
        omega
  have hstop : (signedUpper (if io32 then e / 2 ^ 16 % 2 ^ 16 else 0) ||| e % 2 ^ 16 / 2 ^ 12 * 2 ^ 12) + 0xfff = signExtend e := by
    rw [signedUpper_or (by omega)]
    have hsum : (if io32 then e / 2 ^ 16 % 2 ^ 16 else 0) * 2 ^ 16 + e % 2 ^ 16 / 2 ^ 12 * 2 ^ 12 + 0xfff = e := by
      cases io32 with
      | false =>
          rw [if_neg Bool.false_ne_true] at hlt ⊢
          omega
      | true =>
          rw [if_pos rfl] at hlt ⊢
          omega
    exact (signExtend_add (by omega)).trans (congrArg signExtend hsum)
  have hbound : signExtend e < 2 ^ 64 := signExtend_lt (hlt.trans_le (Nat.pow_le_pow_right (by decide) (by split <;> decide)))
  have hlow : (if regs.readLE 0x1c 2 &&& 0x0f ≠ 0
      then regs.readLE 0x30 2 else 0) = if io32 then s / 2 ^ 16 % 2 ^ 16 else 0 := by
    rw [h0f]
    cases io32 with
    | false => rfl
    | true => exact (hupper rfl).1
  have hhigh : (if regs.readLE 0x1c 2 &&& 0x0f00 ≠ 0
      then regs.readLE 0x32 2 else 0) = if io32 then e / 2 ^ 16 % 2 ^ 16 else 0 := by
    rw [h0f00]
    cases io32 with
    | false => rfl
    | true => exact (hupper rfl).2
  unfold ioWindow
  dsimp only
  rewrite [hlow, hhigh, hf0, hf000, hbase, hlimit, hstart, hstop, Nat.mod_eq_of_lt hbound]
  rfl

theorem memWindow_of (hs : s % 2 ^ 20 = 0) (he : (e + 1) % 2 ^ 20 = 0) (hle : s ≤ e) (hlt : e < 2 ^ 32)
    (hword : regs.readLE 0x20 4 = s % 2 ^ 32 / 2 ^ 20 * 2 ^ 4 + 2 ^ 16 * (e % 2 ^ 32 / 2 ^ 20 * 2 ^ 4)) : memWindow regs = (s, e) := by
  have hlow : (regs.readLE 0x20 4 &&& 0xffff) <<< 16 = s := by
    rw [show 0xffff = 2 ^ 16 - 1 from rfl, Nat.and_two_pow_sub_one_eq_mod, Nat.shiftLeft_eq, hword]
    omega
  have hhigh : (regs.readLE 0x20 4 &&& 0xfff00000) + 0xfffff = e := by
    rw [show 0xfff00000 = 2 ^ 32 - 2 ^ 20 from rfl, land_mask _ (by decide), hword]
    omega
  unfold memWindow
  dsimp only
  rewrite [hlow, hhigh, Nat.mod_eq_of_lt hlt]
  rfl

theorem prefWindow_of (hs : s % 2 ^ 20 = 0) (he : (e + 1) % 2 ^ 20 = 0) (hle : s ≤ e) (hlt : e < 2 ^ (if pref64 then 64 else 32))
    (hword : regs.readLE 0x24 4
      = pref64.toNat + s % 2 ^ 32 / 2 ^ 20 * 2 ^ 4 + 2 ^ 16 * (pref64.toNat + e % 2 ^ 32 / 2 ^ 20 * 2 ^ 4))
    (hupper : pref64 = true → regs.readLE 0x28 4 = s / 2 ^ 32 % 2 ^ 32 ∧ regs.readLE 0x2c 4 = e / 2 ^ 32 % 2 ^ 32) :
    prefWindow regs = (s, e) := by
  have hbit := Bool.toNat_lt pref64
  obtain ⟨h0f, hf0, h0f00, hf000⟩ : regs.readLE 0x24 4 &&& 0x0f = pref64.toNat ∧
      regs.readLE 0x24 4 &&& 0xfff0 = s % 2 ^ 32 / 2 ^ 20 * 2 ^ 4 ∧ regs.readLE 0x24 4 &&& 0xf0000 = 2 ^ 16 * pref64.toNat ∧
      regs.readLE 0x24 4 &&& 0xfff00000 = 2 ^ 16 * (e % 2 ^ 32 / 2 ^ 20 * 2 ^ 4) :=
    pair_fields (k := 16) (by decide) (by omega) (by omega) (by omega) (by omega) hword
  have hstart : (if pref64 then s / 2 ^ 32 % 2 ^ 32 else 0) <<< 32 ||| (s % 2 ^ 32 / 2 ^ 20 * 2 ^ 4) <<< 16 = s := by
    rw [Nat.shiftLeft_eq, Nat.shiftLeft_eq, Nat.or_comm, or_eq_add (j := 32) (by omega) (Nat.dvd_mul_left _ _)]
    cases pref64 with
    | false =>
        rw [if_neg Bool.false_ne_true] at hlt ⊢
        omega
    | true =>
        rw [if_pos rfl] at hlt ⊢
        omega
  have hstop : ((if pref64 then e / 2 ^ 32 % 2 ^ 32 else 0) <<< 32 ||| 2 ^ 16 * (e % 2 ^ 32 / 2 ^ 20 * 2 ^ 4)) + 0xfffff = e := by
    rw [Nat.shiftLeft_eq, Nat.or_comm, or_eq_add (j := 32) (by omega) (Nat.dvd_mul_left _ _)]
    cases pref64 with
    | false =>
        rw [if_neg Bool.false_ne_true] at hlt ⊢
        omega
    | true =>
        rw [if_pos rfl] at hlt ⊢
        omega
  have hbound : e < 2 ^ 64 := hlt.trans_le (Nat.pow_le_pow_right (by decide) (by split <;> decide))
  have hlow : (if regs.readLE 0x24 4 &&& 0x0f ≠ 0 then regs.readLE 0x28 4 else 0) = if pref64 then s / 2 ^ 32 % 2 ^ 32 else 0 := by
    rw [h0f]
    cases pref64 with
    | false => rfl
    | true => exact (hupper rfl).1
  have hhigh : (if regs.readLE 0x24 4 &&& 0xf0000 ≠ 0 then regs.readLE 0x2c 4 else 0) = if pref64 then e / 2 ^ 32 % 2 ^ 32 else 0 := by
    rw [h0f00]
    cases pref64 with
    | false => rfl
    | true => exact (hupper rfl).2
  unfold prefWindow
  dsimp only
  rewrite [hlow, hhigh, hf0, hf000, hstart, hstop, Nat.mod_eq_of_lt hbound]
  rfl

end Imx6Bsp.Pci
