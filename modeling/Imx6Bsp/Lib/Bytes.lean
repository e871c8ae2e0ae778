import Mathlib

/-!
# バイトの記憶域

番地からバイトへの関数としての記憶域と、リトルエンディアンの整数の読み書き、複写、0 埋めを置く。演算のそれぞれに、
範囲の内側と外側での値の補題を添える。
-/

namespace Imx6Bsp.Lib

/-- 番地からバイトへの関数。 -/
abbrev Mem := Nat → UInt8

namespace Mem

/-! ## 整数の読み書き -/

/-- `n` バイトのリトルエンディアンの整数を読む。 -/
def readLE (m : Mem) (a : Nat) : Nat → Nat
  | 0 => 0
  | n + 1 => (m a).toNat + 256 * readLE m (a + 1) n

/-- `n` バイトのリトルエンディアンの整数を書く。 -/
def writeLE (m : Mem) (a n v : Nat) : Mem := fun x =>
  if a ≤ x ∧ x < a + n then UInt8.ofNat (v / 256 ^ (x - a)) else m x

theorem readLE_congr {m m' : Mem} {a b n : Nat} (h : ∀ i < n, m (a + i) = m' (b + i)) :
    readLE m a n = readLE m' b n := by
  induction n generalizing a b with
  | zero => rfl
  | succ n ih =>
      have h0 := h 0 (by omega)
      have hs : ∀ i < n, m (a + 1 + i) = m' (b + 1 + i) := fun i hi => by
        have := h (i + 1) (by omega)
        rwa [Nat.add_comm i 1, ← Nat.add_assoc, ← Nat.add_assoc] at this
      simp only [Nat.add_zero] at h0
      rw [readLE, readLE, h0, ih hs]

theorem readLE_zero {m : Mem} {a n : Nat} (h : ∀ i < n, m (a + i) = 0) : readLE m a n = 0 := by
  induction n generalizing a with
  | zero => rfl
  | succ n ih =>
      have h0 := h 0 (by omega)
      rw [Nat.add_zero] at h0
      rw [readLE, h0, ih fun i hi => ?_]
      · rfl
      · have := h (i + 1) (by omega)
        rwa [Nat.add_comm i 1, ← Nat.add_assoc] at this

theorem readLE_lt (m : Mem) (a n : Nat) : readLE m a n < 256 ^ n := by
  induction n generalizing a with
  | zero => simp [readLE]
  | succ n ih =>
      have h1 := (m a).toNat_lt
      have h2 := ih (a + 1)
      rw [readLE, Nat.pow_succ]; omega

theorem writeLE_of_lt {m : Mem} {a n v x : Nat} (h : x < a) : writeLE m a n v x = m x := by
  rw [writeLE, if_neg]; omega

theorem writeLE_of_le {m : Mem} {a n v x : Nat} (h : a + n ≤ x) : writeLE m a n v x = m x := by
  rw [writeLE, if_neg]; omega

theorem writeLE_of_disjoint {m : Mem} {a n v x : Nat} (h : x < a ∨ a + n ≤ x) : writeLE m a n v x = m x := by
  rcases h with h | h
  · exact writeLE_of_lt h
  · exact writeLE_of_le h

private theorem readLE_bytes (m : Mem) (a n v : Nat) (h : ∀ i < n, m (a + i) = UInt8.ofNat (v / 256 ^ i)) :
    readLE m a n = v % 256 ^ n := by
  induction n generalizing a v with
  | zero => simp [readLE, Nat.mod_one]
  | succ n ih =>
      have h0 := h 0 (by omega)
      simp only [Nat.add_zero, Nat.pow_zero, Nat.div_one] at h0
      have hs : ∀ i < n, m (a + 1 + i) = UInt8.ofNat (v / 256 / 256 ^ i) := fun i hi => by
        have := h (i + 1) (by omega)
        rw [Nat.add_comm i 1, ← Nat.add_assoc] at this
        rw [this, Nat.div_div_eq_div_mul, Nat.pow_add, Nat.pow_one]
      rw [readLE, ih (a + 1) (v / 256) hs, h0, Nat.pow_succ, Nat.mul_comm (256 ^ n), Nat.mod_mul,
        UInt8.toNat_ofNat']

/-- 書いた整数を読むと、幅に切り詰めた値になる。 -/
theorem readLE_writeLE_self (m : Mem) (a n v : Nat) : readLE (writeLE m a n v) a n = v % 256 ^ n := by
  refine readLE_bytes _ a n v fun i hi => ?_
  rw [writeLE, if_pos (by omega), Nat.add_sub_cancel_left]

/-- 離れた場所に書いても、読む値は変わらない。 -/
theorem readLE_writeLE_of_disjoint {m : Mem} {a n b k v : Nat} (h : a + n ≤ b ∨ b + k ≤ a) :
    readLE (writeLE m b k v) a n = readLE m a n :=
  readLE_congr fun i hi => writeLE_of_disjoint (by omega)

/-! ## 複写と 0 埋め -/

/-- `memmove(dst, src, n)`。重なった範囲でも、複写の前のバイトを移す。 -/
def move (m : Mem) (dst src n : Nat) : Mem := fun x =>
  if dst ≤ x ∧ x < dst + n then m (src + (x - dst)) else m x

/-- `memset(a, 0, n)`。 -/
def zero (m : Mem) (a n : Nat) : Mem := fun x => if a ≤ x ∧ x < a + n then 0 else m x

theorem move_in {m : Mem} {dst src n i : Nat} (h : i < n) : move m dst src n (dst + i) = m (src + i) := by
  rw [move, if_pos (by omega), Nat.add_sub_cancel_left]

theorem move_out {m : Mem} {dst src n x : Nat} (h : x < dst ∨ dst + n ≤ x) : move m dst src n x = m x := by
  rw [move, if_neg (by omega)]

theorem zero_in {m : Mem} {a n x : Nat} (h1 : a ≤ x) (h2 : x < a + n) : zero m a n x = 0 := by
  rw [zero, if_pos ⟨h1, h2⟩]

theorem zero_out {m : Mem} {a n x : Nat} (h : x < a ∨ a + n ≤ x) : zero m a n x = m x := by
  rw [zero, if_neg (by omega)]

/-- 番地 `a` にバイトの列を写す。 -/
def copy (m : Mem) (a : Nat) (bytes : List UInt8) : Mem := fun x =>
  if a ≤ x ∧ x < a + bytes.length then bytes.getD (x - a) 0 else m x

theorem copy_in {m : Mem} {a i : Nat} {bytes : List UInt8} (h : i < bytes.length) :
    copy m a bytes (a + i) = bytes.getD i 0 := by
  rw [copy, if_pos (by omega), Nat.add_sub_cancel_left]

theorem copy_out {m : Mem} {a x : Nat} {bytes : List UInt8} (h : x < a ∨ a + bytes.length ≤ x) :
    copy m a bytes x = m x := by
  rw [copy, if_neg (by omega)]

/-- 番地 `b` から後ろの `len` バイトを `k` バイトずらし、空いた隙間を 0 で埋める。 -/
def insertGap (m : Mem) (b k len : Nat) : Mem := (m.move (b + k) b len).zero b k

theorem insertGap_below {m : Mem} {b k len x : Nat} (h : x < b) : insertGap m b k len x = m x := by
  rw [insertGap, zero_out (Or.inl h), move_out (Or.inl (by omega))]

theorem insertGap_gap {m : Mem} {b k len x : Nat} (h1 : b ≤ x) (h2 : x < b + k) : insertGap m b k len x = 0 :=
  zero_in h1 h2

theorem insertGap_above {m : Mem} {b k len x : Nat} (h1 : b ≤ x) (h2 : x < b + len) :
    insertGap m b k len (x + k) = m x := by
  rw [insertGap, zero_out (Or.inr (by omega)), show x + k = b + k + (x - b) by omega, move_in (by omega)]
  congr 1; omega

end Mem

end Imx6Bsp.Lib
