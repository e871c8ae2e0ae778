import Imx6Bsp.Devb.Erase
import Mathlib.Data.Int.GCD
import Mathlib.Data.Nat.Prime.Basic

/-!
# 書き込み保護の範囲

残りの数からグループの数を引くループは、2 の冪の剰余の中で必ず終わる。覆う範囲が正しいのは、マスクによる切り上げがグループの倍数となり、頭の
半端も含めて届くときだけである。
-/

namespace Imx6Bsp.Devb

/-! ## ループ -/

section

variable {reply : Replies} {opcode : Nat} {size : BitVec 64} {lba nlba : BitVec 32} {log : List SentCmd}

/-- 終わった `m` 個の命令。 -/
def protectCmds (opcode : Nat) (size lba : BitVec 32) (m : Nat) : List SentCmd :=
  (List.range m).map fun i => ⟨opcode, lba + BitVec.ofNat 32 i * size, 0⟩

end

/-! ## 切り上げ -/

section

variable {x m val size : BitVec 32}

end

/-! ## 命令の番地とグループ -/

section

variable {first n size m : Nat}

/-- `m` 個の命令は、範囲に掛かるグループの全てに、そのグループだけに届く。 -/
structure Reaches (first n size m : Nat) : Prop where
  every : ∀ b, first ≤ b → b < first + n → ∃ i < m, (first + i * size) % 2 ^ 32 / size = b / size
  only : ∀ i < m, ∃ b, first ≤ b ∧ b < first + n ∧ (first + i * size) % 2 ^ 32 / size = b / size

/-- `m` は、`count` をグループの倍数として数えた回数である。 -/
structure Counts (size count m : Nat) : Prop where
  eq : count = m * size % 2 ^ 32
  least : ∀ i < m, count ≠ i * size % 2 ^ 32

theorem Counts.cases {count : Nat} (h : Counts size count m) (hcount : count < 2 ^ 32) :
    m * size = count ∨ ¬size ∣ count ∧ 2 ^ 32 ≤ m * size := by
  rcases Nat.lt_or_ge (m * size) (2 ^ 32) with hlt | hge
  · exact .inl (h.eq.trans (Nat.mod_eq_of_lt hlt)).symm
  · refine .inr ⟨?_, hge⟩
    rintro ⟨k, rfl⟩
    rw [Nat.mul_comm] at hcount
    refine h.least k (Nat.lt_of_mul_lt_mul_right (a := size) (by omega)) ?_
    rw [Nat.mul_comm, Nat.mod_eq_of_lt hcount]

end

/-! ## 要求 -/

section

variable {u : WpUnit} {q : WpRequest} {reply : Replies} {fuel m : Nat} {log : List SentCmd}

theorem WpUnit.group_lt (u : WpUnit) : u.group < 2 ^ 27 := by
  have ha := (u.csd 221).isLt
  have hb := (u.csd 224).isLt
  have hab : (u.csd 221).toNat * (u.csd 224).toNat ≤ 255 * 255 := Nat.mul_le_mul (by omega) (by omega)
  have hmod := Nat.mod_le ((u.csd 221).toNat * (u.csd 224).toNat) (2 ^ 64)
  have hle : ((u.csd 221).setWidth 64 * (u.csd 224).setWidth 64 * 0x80000).toNat ≤ 255 * 255 * 0x80000 := by
    rw [BitVec.toNat_mul, BitVec.toNat_mul, BitVec.toNat_setWidth_of_le (by decide), BitVec.toNat_setWidth_of_le (by decide)]
    exact (Nat.mod_le _ _).trans (Nat.mul_le_mul_right _ (hmod.trans hab))
  rw [group, wpGroupBlocks, BitVec.toNat_udiv]
  exact (Nat.div_le_div_right hle).trans_lt (by decide)

/-- ループが引くグループの数。 -/
def WpUnit.size (u : WpUnit) : BitVec 32 := (wpGroupBlocks u.csd).setWidth 32

theorem WpUnit.size_toNat (u : WpUnit) : u.size.toNat = u.group := by
  have hlt := u.group_lt
  rw [size, BitVec.toNat_setWidth]
  exact Nat.mod_eq_of_lt (hlt.trans (by decide))

/-- 最初の命令の番地。 -/
def WpUnit.start (u : WpUnit) (q : WpRequest) : BitVec 32 := ((u.slba q.lun).setWidth 64 + q.lba).setWidth 32

theorem WpUnit.start_toNat (u : WpUnit) (q : WpRequest) : (u.start q).toNat = u.first q % 2 ^ 32 := by
  rw [start, BitVec.toNat_setWidth, BitVec.toNat_add, BitVec.toNat_setWidth_of_le (by decide),
    Nat.mod_mod_of_dvd _ (by decide : 2 ^ 32 ∣ 2 ^ 64), first]

/-- 切り上げる前と後の数。 -/
def WpUnit.raised (u : WpUnit) (q : WpRequest) : BitVec 32 :=
  if (q.nlba.setWidth 32).toNat < (wpGroupBlocks u.csd).toNat then u.size else q.nlba.setWidth 32

def WpUnit.count (u : WpUnit) (q : WpRequest) : BitVec 32 := camAlign (u.raised q) u.size

/-- 送った命令の届くグループ。 -/
theorem covers_iff (hg : u.group ≠ 0) :
    u.Covers q (protectCmds (protectOp q.action) u.size (u.start q) m) ↔ Reaches (u.first q) q.nlba.toNat u.group m := by
  have hargument : ∀ i, (u.start q + BitVec.ofNat 32 i * u.size).toNat = (u.first q + i * u.group) % 2 ^ 32 := fun i => by
    rw [BitVec.toNat_add, BitVec.toNat_mul, BitVec.toNat_ofNat, u.size_toNat, u.start_toNat, Nat.mod_mul_mod, ← Nat.add_mod]
  constructor
  · rintro ⟨hevery, honly⟩
    refine ⟨fun b hlo hhi => ?_, fun i hi => ?_⟩
    · obtain ⟨c, hc, -, -, -, heq⟩ := hevery b ⟨hlo, hhi⟩
      obtain ⟨i, hi, rfl⟩ := List.mem_map.mp hc
      exact ⟨i, List.mem_range.mp hi, (congrArg (· / u.group) (hargument i)).symm.trans heq⟩
    · obtain ⟨b, ⟨hlo, hhi⟩, heq⟩ := honly _ (List.mem_map.mpr ⟨i, List.mem_range.mpr hi, rfl⟩)
      exact ⟨b, hlo, hhi, (congrArg (· / u.group) (hargument i)).symm.trans heq⟩
  · rintro ⟨hevery, honly⟩
    refine ⟨fun b hb => ?_, fun c hc => ?_⟩
    · obtain ⟨i, hi, heq⟩ := hevery b hb.1 hb.2
      exact ⟨_, List.mem_map.mpr ⟨i, List.mem_range.mpr hi, rfl⟩, rfl, rfl, hg, (congrArg (· / u.group) (hargument i)).trans heq⟩
    · obtain ⟨i, hi, rfl⟩ := List.mem_map.mp hc
      obtain ⟨b, hlo, hhi, heq⟩ := honly i (List.mem_range.mp hi)
      exact ⟨b, ⟨hlo, hhi⟩, (congrArg (· / u.group) (hargument i)).trans heq⟩

end

end Imx6Bsp.Devb
