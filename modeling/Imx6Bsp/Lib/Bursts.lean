import Mathlib

/-!
# 語の列で送るバイトの列

32 ビットの語の列を、上位のバイトから順に送る。送るバイト数が 4 の倍数でなければ、最初の語は下位のバイトだけを送る。受けるときも同じである。
-/

namespace Imx6Bsp.Lib

/-- `(a << 24) | (b << 16) | (c << 8) | d`。 -/
def word4 (a b c d : BitVec 8) : BitVec 32 :=
  (a.setWidth 32 <<< 24) ||| (b.setWidth 32 <<< 16) ||| (c.setWidth 32 <<< 8) ||| d.setWidth 32

/-- 上位から順のバイト。 -/
def wordBytes (w : BitVec 32) : List (BitVec 8) :=
  [(w >>> 24).setWidth 8, (w >>> 16).setWidth 8, (w >>> 8).setWidth 8, w.setWidth 8]

/-- 最初の語の送らないバイトの数。 -/
def burstPad (k : Nat) : Nat := (4 - k % 4) % 4

/-- `k` バイトを送る語の数。 -/
def burstWords (k : Nat) : Nat := (k + burstPad k) / 4

/-- `k` バイトの転送で、語の列から送られるバイトの列。 -/
def shiftOut (k : Nat) (words : List (BitVec 32)) : List (BitVec 8) := ((words.take (burstWords k)).flatMap wordBytes).drop (burstPad k)

/-- 四つずつ語にする。 -/
def packWords : List (BitVec 8) → List (BitVec 32)
  | a :: b :: c :: d :: bytes => word4 a b c d :: packWords bytes
  | _ => []

/-- `k` バイトの転送で、受けたバイトの列から作られる語の列。`junk` は、最初の語の上位に残る値である。 -/
def shiftIn (k : Nat) (junk : BitVec 32) (bytes : List (BitVec 8)) : List (BitVec 32) :=
  packWords ((wordBytes junk).take (burstPad k) ++ bytes)

section

variable {a b c d : BitVec 8} {k : Nat}

@[simp]
theorem wordBytes_word4 : wordBytes (word4 a b c d) = [a, b, c, d] := by
  simp only [wordBytes, word4, List.cons.injEq, and_true]
  refine ⟨?_, ?_, ?_, ?_⟩ <;> ext i hi <;> simp <;> grind

@[simp]
theorem length_wordBytes (w : BitVec 32) : (wordBytes w).length = 4 := rfl

theorem length_flatMap_wordBytes (words : List (BitVec 32)) : (words.flatMap wordBytes).length = 4 * words.length := by
  induction words with
  | nil => rfl
  | cons w words ih => rw [List.flatMap_cons, List.length_append, ih, length_wordBytes, List.length_cons]; omega

theorem burstPad_lt (k : Nat) : burstPad k < 4 := Nat.mod_lt _ (by decide)

theorem four_mul_burstWords (k : Nat) : 4 * burstWords k = k + burstPad k := by
  rw [burstWords, burstPad]
  omega

/-- 四つずつに分けた語のバイトは、元の列である。 -/
theorem flatMap_packWords {bytes : List (BitVec 8)} {n : Nat} (h : bytes.length = 4 * n) :
    (packWords bytes).flatMap wordBytes = bytes := by
  induction n generalizing bytes with
  | zero => rw [List.length_eq_zero_iff.mp h]; rfl
  | succ n ih =>
      obtain ⟨a, bytes, rfl⟩ := List.exists_cons_of_length_pos (l := bytes) (by omega)
      obtain ⟨b, bytes, rfl⟩ := List.exists_cons_of_length_pos (l := bytes) (by rw [List.length_cons] at h; omega)
      obtain ⟨c, bytes, rfl⟩ := List.exists_cons_of_length_pos (l := bytes) (by simp only [List.length_cons] at h; omega)
      obtain ⟨d, bytes, rfl⟩ := List.exists_cons_of_length_pos (l := bytes) (by simp only [List.length_cons] at h; omega)
      have hlen : bytes.length = 4 * n := by
        simp only [List.length_cons] at h
        omega
      rw [packWords, List.flatMap_cons, wordBytes_word4, ih hlen]
      rfl

theorem length_packWords {bytes : List (BitVec 8)} {n : Nat} (h : bytes.length = 4 * n) : (packWords bytes).length = n := by
  have hlen := length_flatMap_wordBytes (packWords bytes)
  rw [flatMap_packWords h, h] at hlen
  omega

/-- 受けた語の数。 -/
theorem length_shiftIn (junk : BitVec 32) {bytes : List (BitVec 8)} (h : bytes.length = k) :
    (shiftIn k junk bytes).length = burstWords k := by
  refine length_packWords ?_
  have hpad := burstPad_lt k
  rw [four_mul_burstWords, List.length_append, List.length_take, length_wordBytes, h]
  omega

/-- 受けた語のバイトは、残った値の後に、受けたバイトの列が続く。 -/
theorem flatMap_shiftIn (junk : BitVec 32) {bytes : List (BitVec 8)} (h : bytes.length = k) :
    (shiftIn k junk bytes).flatMap wordBytes = (wordBytes junk).take (burstPad k) ++ bytes := by
  refine flatMap_packWords (n := burstWords k) ?_
  have hpad := burstPad_lt k
  rw [four_mul_burstWords, List.length_append, List.length_take, length_wordBytes, h]
  omega

/-- 送る分だけの語が、埋めるバイトの後に `bytes` を並べたものなら、`bytes` が送られる。 -/
theorem shiftOut_eq {words : List (BitVec 32)} {pad bytes : List (BitVec 8)} (hlen : words.length = burstWords k)
    (hpad : pad.length = burstPad k) (h : words.flatMap wordBytes = pad ++ bytes) : shiftOut k words = bytes := by
  rw [shiftOut, List.take_of_length_le hlen.le, h, ← hpad, List.drop_left]

end

end Imx6Bsp.Lib
