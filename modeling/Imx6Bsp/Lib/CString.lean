import Imx6Bsp.Lib.Bytes
import Imx6Bsp.Lib.Copying

/-!
# 0 で終わる文字列

記憶域の中の 0 で終わる文字列と、その長さを数える走査を置く。走査は読むバイト数の上限を持ち、上限までに 0 がなければ `none` を返す。
-/

namespace Imx6Bsp.Lib

namespace Mem

/-- `strlen()`。番地 `a` から 0 までのバイトを、`fuel` バイトまで数える。 -/
def strlen (m : Mem) : Nat → Nat → Option Nat
  | _, 0 => none
  | a, fuel + 1 => if m a = 0 then some 0 else (strlen m (a + 1) fuel).map (· + 1)

/-- 番地 `a` に、0 を含まない文字列 `s` と終わりの 0 がある。 -/
def HasStr (m : Mem) : Nat → List UInt8 → Prop
  | a, [] => m a = 0
  | a, c :: s => c ≠ 0 ∧ m a = c ∧ HasStr m (a + 1) s

variable {m m' : Mem} {a b : Nat} {s : List UInt8}

theorem HasStr.strlen_eq (h : m.HasStr a s) {fuel : Nat} (hf : s.length < fuel) : m.strlen a fuel = some s.length := by
  induction s generalizing a fuel with
  | nil =>
      cases fuel with
      | zero => simp at hf
      | succ fuel => exact if_pos h
  | cons c s ih =>
      cases fuel with
      | zero => simp at hf
      | succ fuel =>
          obtain ⟨hc, ha, hs⟩ := h
          rw [strlen, if_neg (by rw [ha]; exact hc), ih hs (by simp at hf; omega)]
          rfl

/-- 文字列のバイトを写した先にも、同じ文字列がある。 -/
theorem HasStr.congr (h : m.HasStr a s) (hm : ∀ i ≤ s.length, m' (b + i) = m (a + i)) : m'.HasStr b s := by
  induction s generalizing a b with
  | nil => exact (hm 0 (by simp)).trans h
  | cons c s ih =>
      obtain ⟨hc, ha, hs⟩ := h
      refine ⟨hc, (hm 0 (by simp)).trans ha, ih hs fun i hi => ?_⟩
      have := hm (i + 1) (by simp; omega)
      rwa [Nat.add_comm i 1, ← Nat.add_assoc, ← Nat.add_assoc] at this

theorem HasStr.terminator (h : m.HasStr a s) : m (a + s.length) = 0 := by
  induction s generalizing a with
  | nil => exact h
  | cons c s ih =>
      rw [List.length_cons, Nat.add_comm s.length 1, ← Nat.add_assoc]
      exact ih h.2.2

/-- 0 を含まない列と終わりの 0 が並んでいれば、そこに文字列がある。 -/
theorem hasStr_of_bytes (hs : ∀ c ∈ s, c ≠ 0) (hb : ∀ i < s.length, m (a + i) = s.getD i 0)
    (hz : m (a + s.length) = 0) : m.HasStr a s := by
  induction s generalizing a with
  | nil => exact hz
  | cons c s ih =>
      refine ⟨hs c (by simp), hb 0 (by simp), ih (fun d hd => hs d (by simp [hd])) (fun i hi => ?_) ?_⟩
      · have := hb (i + 1) (by simp; omega)
        rwa [Nat.add_comm i 1, ← Nat.add_assoc, Nat.add_comm 1 i, List.getD_cons_succ] at this
      · rwa [List.length_cons, Nat.add_comm s.length 1, ← Nat.add_assoc] at hz

/-- `strcmp()` が 0 を返すかどうか。番地 `a` の文字列を `s` と比べる。 -/
def strEq (m : Mem) : Nat → List UInt8 → Bool
  | a, [] => decide (m a = 0)
  | a, c :: s => decide (m a = c) && strEq m (a + 1) s

theorem HasStr.strEq_eq (h : m.HasStr a s) {t : List UInt8} (ht : ∀ c ∈ t, c ≠ 0) : m.strEq a t = decide (s = t) := by
  induction s generalizing a t with
  | nil =>
      cases t with
      | nil => exact decide_eq_true h
      | cons c t =>
          have hne : m a ≠ c := fun heq => ht c List.mem_cons_self (heq.symm.trans h)
          simp [strEq, hne]
  | cons d s ih =>
      obtain ⟨hd, ha, hs⟩ := h
      cases t with
      | nil => simp [strEq, ha, hd]
      | cons c t =>
          rw [strEq, ha, ih hs fun x hx => ht x (List.mem_cons_of_mem _ hx)]
          simp

/-- `strcpy()`。 -/
def strcpy (m : Mem) (a : Nat) (s : List UInt8) : Mem := m.copy a (s ++ [0])

theorem strcpy_out {x : Nat} (h : x < a ∨ a + s.length < x) : m.strcpy a s x = m x :=
  copy_out (by rw [List.length_append, List.length_singleton]; omega)

theorem hasStr_strcpy (m : Mem) (a : Nat) (hs : ∀ c ∈ s, c ≠ 0) : (m.strcpy a s).HasStr a s := by
  refine hasStr_of_bytes hs (fun i hi => ?_) ?_
  · rw [strcpy, copy_in (by simp; omega), List.getD_eq_getElem?_getD, List.getElem?_append_left hi,
      ← List.getD_eq_getElem?_getD]
  · rw [strcpy, copy_in (by simp), List.getD_eq_getElem?_getD, List.getElem?_append_right le_rfl, Nat.sub_self]
    rfl

end Mem

end Imx6Bsp.Lib

namespace Imx6Bsp.Lib

/-! ## 0 で終わる文字列の列

0 を含まないバイト列の型 `CStr` と、それを終わりの 0 ごと並べた列、並びの途中のバイトを入れ替える操作 `Mem.splice` を置く。 -/

/-- 0 を含まないバイト列。 -/
abbrev CStr := { s : List UInt8 // ∀ c ∈ s, c ≠ 0 }

namespace CStr

/-- 終わりの 0 までのバイト。 -/
def bytes (s : CStr) : List UInt8 := s.1 ++ [0]

@[simp] theorem length_bytes (s : CStr) : s.bytes.length = s.1.length + 1 := by simp [bytes]

/-- 文字列を順に並べたバイト。 -/
def encode (l : List CStr) : List UInt8 := l.flatMap bytes

@[simp] theorem encode_nil : encode [] = [] := rfl

@[simp] theorem encode_cons (s : CStr) (l : List CStr) : encode (s :: l) = s.bytes ++ encode l := rfl

@[simp] theorem encode_append (l l' : List CStr) : encode (l ++ l') = encode l ++ encode l' := List.flatMap_append

end CStr

namespace Mem

variable {m m' : Mem} {a p n : Nat} {s t : List UInt8} {X O N Y : List UInt8}

/-! ### 範囲の分け方 -/

theorem slice_append_iff : m.slice a (X.length + Y.length) = X ++ Y ↔
    m.slice a X.length = X ∧ m.slice (a + X.length) Y.length = Y := by
  rw [slice_add]
  constructor
  · exact fun h => List.append_inj h (length_slice _ _ _)
  · rintro ⟨hx, hy⟩
    rw [hx, hy]

theorem getElem?_slice {i : Nat} (h : i < n) : (m.slice a n)[i]? = some (m (a + i)) := by simp [slice, h]

/-! ### 文字列を読む -/

/-- 番地 `a` から文字列のバイトが並んでいれば、そこに文字列がある。 -/
theorem hasStr_of_slice (s : CStr) (h : m.slice a s.bytes.length = s.bytes) : m.HasStr a s.1 := by
  have hb : ∀ i, i ≤ s.1.length → some (m (a + i)) = (s.1 ++ [0])[i]? := fun i hi => by
    have := congrArg (fun l => l[i]?) h
    rwa [getElem?_slice (by rw [CStr.length_bytes]; omega)] at this
  refine hasStr_of_bytes s.2 (fun i hi => ?_) ?_
  · have := hb i hi.le
    rw [List.getElem?_append_left hi] at this
    rw [List.getD_eq_getElem?_getD, ← this, Option.getD_some]
  · have := hb s.1.length le_rfl
    rwa [List.getElem?_append_right le_rfl, Nat.sub_self, List.getElem?_cons_zero, Option.some.injEq] at this

theorem strEq_iff (h : m.HasStr a s) (ht : ∀ c ∈ t, c ≠ 0) : m.strEq a t = true ↔ s = t := by
  induction t generalizing a s with
  | nil =>
      rw [strEq, decide_eq_true_iff]
      cases s with
      | nil => exact ⟨fun _ => rfl, fun _ => h⟩
      | cons c s => exact ⟨fun hz => absurd (h.2.1.symm.trans hz) h.1, fun he => absurd he (List.cons_ne_nil _ _)⟩
  | cons d t ih =>
      have hd := ht d List.mem_cons_self
      rw [strEq, Bool.and_eq_true, decide_eq_true_iff]
      cases s with
      | nil => exact ⟨fun hc => absurd (hc.1.symm.trans h) hd, fun he => absurd he.symm (List.cons_ne_nil _ _)⟩
      | cons c s =>
          rw [h.2.1, ih h.2.2 fun x hx => ht x (List.mem_cons_of_mem _ hx), List.cons.injEq]

/-! ### 途中のバイトの入れ替え -/

/-- 複写元の番地が負にもなりうる `memmove(dst, src, n)`。番地 0 より前のバイトは、番地 0 のものと読む。 -/
def moveFrom (m : Mem) (dst : Nat) (src : Int) (n : Nat) : Mem := fun x =>
  if dst ≤ x ∧ x < dst + n then m (src + (x - dst : Nat)).toNat else m x

theorem moveFrom_in {src : Int} {i : Nat} (h : i < n) : m.moveFrom a src n (a + i) = m (src + i).toNat := by
  rw [moveFrom, if_pos (by omega), Nat.add_sub_cancel_left]

theorem moveFrom_out {src : Int} {x : Nat} (h : x < a ∨ a + n ≤ x) : m.moveFrom a src n x = m x := by
  rw [moveFrom, if_neg (by omega)]

variable {d : Int}

/-- 番地 `p` から後ろを、入れ替える前後の長さの差 `d` だけずらしてから、`p` に新しいバイトを写す。 -/
theorem slice_splice (hp : p = a + X.length) (hd : d = (N.length : Int) - O.length)
    (h : m.slice a (X.length + (O.length + Y.length)) = X ++ (O ++ Y)) :
    ((m.moveFrom p (p - d) (N.length + Y.length)).copy p N).slice a (X.length + (N.length + Y.length)) = X ++ (N ++ Y) := by
  rw [← List.length_append, slice_append_iff, List.length_append, slice_append_iff] at h
  obtain ⟨hx, ho, hy⟩ := h
  rw [← List.length_append, slice_append_iff, List.length_append, slice_append_iff]
  subst hp
  refine ⟨?_, slice_copy _ _ _, ?_⟩
  · rw [← hx, length_slice]
    refine slice_congr fun i hi => ?_
    rw [copy_out (.inl (by omega)), moveFrom_out (.inl (by omega))]
  · rw [← hy, length_slice]
    refine slice_congr fun i hi => ?_
    rw [copy_out (.inr (by omega)), show a + X.length + N.length + i = a + X.length + (N.length + i) by omega,
      moveFrom_in (by omega)]
    congr 1
    omega

theorem splice_out {src : Int} {x : Nat} (h : x < p ∨ p + (N.length + n) ≤ x) :
    ((m.moveFrom p src (N.length + n)).copy p N) x = m x := by
  rw [copy_out (by omega), moveFrom_out (by omega)]

end Mem

end Imx6Bsp.Lib
