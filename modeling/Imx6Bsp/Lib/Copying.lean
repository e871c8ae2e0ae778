import Imx6Bsp.Lib.Bytes

/-!
# 少しずつの複写と、長さつきのブロックの列

範囲を前から少しずつ写す複写は、まとめて写したのと同じ結果になる。ただし、写し先に重なる複写元のバイトについては何も
言わない（`Copies`）。長さを前に置いたブロックの列（`Blocks`）は、復号の関係 `Encodes` を引数とする。
-/

namespace Imx6Bsp.Lib

namespace Mem

/-- 番地 `a` からの `n` バイト。 -/
def slice (m : Mem) (a n : Nat) : List UInt8 := (List.range n).map fun i => m (a + i)

@[simp] theorem length_slice (m : Mem) (a n : Nat) : (m.slice a n).length = n := by simp [slice]

theorem slice_congr {m m' : Mem} {a b n : Nat} (h : ∀ i < n, m (a + i) = m' (b + i)) : m.slice a n = m'.slice b n :=
  List.map_congr_left fun i hi => h i (List.mem_range.mp hi)

/-- 二つの範囲の内容が等しければ、どのバイトも等しい。 -/
theorem eq_of_slice {m m' : Mem} {a b n i : Nat} (h : m.slice a n = m'.slice b n) (hi : i < n) :
    m (a + i) = m' (b + i) := by
  have := congrArg (fun l => l[i]?) h
  simpa [slice, hi] using this

theorem slice_add (m : Mem) (a n k : Nat) : m.slice a (n + k) = m.slice a n ++ m.slice (a + n) k := by
  simp [slice, List.range_add, Nat.add_assoc, Function.comp_def]

theorem slice_copy (m : Mem) (a : Nat) (bytes : List UInt8) : (m.copy a bytes).slice a bytes.length = bytes := by
  refine List.ext_getElem (by simp) fun i h1 h2 => ?_
  simp only [slice, List.getElem_map, List.getElem_range]
  rw [copy_in h2, List.getD_eq_getElem _ _ h2]

/-- `a` からの `n` バイトに `f` のバイトを置く。 -/
def fill (m : Mem) (a n : Nat) (f : Nat → UInt8) : Mem := fun x => if a ≤ x ∧ x < a + n then f (x - a) else m x

theorem fill_in {m : Mem} {a n i : Nat} {f : Nat → UInt8} (h : i < n) : fill m a n f (a + i) = f i := by
  rw [fill, if_pos (by omega), Nat.add_sub_cancel_left]

theorem fill_out {m : Mem} {a n x : Nat} {f : Nat → UInt8} (h : x < a ∨ a + n ≤ x) : fill m a n f x = m x := by
  rw [fill, if_neg (by omega)]

theorem fill_congr {m : Mem} {a n : Nat} {f g : Nat → UInt8} (h : ∀ i < n, f i = g i) : fill m a n f = fill m a n g := by
  funext x
  unfold fill
  split
  · exact h _ (by omega)
  · rfl

theorem fill_append {m : Mem} {a n k : Nat} {f g : Nat → UInt8} :
    fill (fill m a n f) (a + n) k g = fill m a (n + k) fun i => if i < n then f i else g (i - n) := by
  funext x
  unfold fill
  by_cases hx : a ≤ x ∧ x < a + n
  · rw [if_neg (by omega), if_pos hx, if_pos (by omega)]
    exact (if_pos (by omega)).symm
  · rw [if_neg hx]
    by_cases hk : a + n ≤ x ∧ x < a + n + k
    · rw [if_pos hk, if_pos (by omega), ← Nat.sub_sub]
      exact (if_neg (by omega)).symm
    · rw [if_neg hk, if_neg (by omega)]

/-- 整数として読んで書き戻すと、もとのバイトになる。 -/
theorem ofNat_readLE (m : Mem) {a n i : Nat} (h : i < n) : UInt8.ofNat (m.readLE a n / 256 ^ i) = m (a + i) := by
  induction n generalizing a i with
  | zero => exact absurd h (Nat.not_lt_zero i)
  | succ n ih =>
      have hb := (m a).toNat_lt
      cases i with
      | zero =>
          rw [readLE, Nat.pow_zero, Nat.div_one, Nat.add_zero a]
          refine UInt8.toNat_inj.mp ?_
          rw [UInt8.toNat_ofNat']
          omega
      | succ i =>
          rw [readLE, Nat.pow_succ', ← Nat.div_div_eq_div_mul, show ((m a).toNat + 256 * m.readLE (a + 1) n) / 256
            = m.readLE (a + 1) n by omega, ih (Nat.lt_of_succ_lt_succ h), Nat.add_assoc, Nat.add_comm 1]

/-! ### 分けた複写 -/

section

variable {m : Mem} {dst src n k : Nat}

@[simp] theorem move_zero : m.move dst src 0 = m := funext fun _ => if_neg (by omega)

/-- 一バイトの代入。 -/
theorem update_eq_move : Function.update m dst (m src) = m.move dst src 1 := by
  funext x
  by_cases hx : x = dst
  · subst hx
    rw [Function.update_self, move, if_pos (by omega), Nat.sub_self, Nat.add_zero]
  · rw [Function.update_of_ne hx, move, if_neg (by omega)]

/-- `n` バイトの整数の代入。 -/
theorem writeLE_readLE : m.writeLE dst n (m.readLE src n) = m.move dst src n := by
  funext x
  rw [writeLE, move]
  split
  · exact ofNat_readLE m (by omega)
  · rfl

/-- 続きの複写元が先の写し先と重ならなければ、前から分けても同じである。 -/
theorem move_append (h : dst ≤ src ∨ src + (n + k) ≤ dst) : (m.move dst src n).move (dst + n) (src + n) k = m.move dst src (n + k) := by
  funext x
  by_cases hk : dst + n ≤ x ∧ x < dst + n + k
  · obtain ⟨i, rfl⟩ := Nat.exists_eq_add_of_le hk.1
    rw [move_in (by omega), move_out (by omega), Nat.add_assoc dst, move_in (by omega), Nat.add_assoc]
  · rw [move_out (by omega)]
    by_cases hn : dst ≤ x ∧ x < dst + n
    · obtain ⟨i, rfl⟩ := Nat.exists_eq_add_of_le hn.1
      rw [move_in (by omega), move_in (by omega)]
    · rw [move_out (by omega), move_out (by omega)]

/-- 写し先が複写元より後ろなら、後ろから分けても同じである。 -/
theorem move_append_down (h : src ≤ dst) : (m.move (dst + n) (src + n) k).move dst src n = m.move dst src (n + k) := by
  funext x
  by_cases hn : dst ≤ x ∧ x < dst + n
  · obtain ⟨i, rfl⟩ := Nat.exists_eq_add_of_le hn.1
    rw [move_in (by omega), move_in (by omega), move_out (by omega)]
  · rw [move_out (by omega)]
    by_cases hk : dst + n ≤ x ∧ x < dst + n + k
    · obtain ⟨i, rfl⟩ := Nat.exists_eq_add_of_le hk.1
      rw [move_in (by omega), Nat.add_assoc dst, move_in (by omega), Nat.add_assoc]
    · rw [move_out (by omega), move_out (by omega)]

end

end Mem

/-! ## 複写 -/

/-- `m'` は、`m` の `src` からの `n` バイトを `dst` に写した記憶域である。 -/
structure Copies (m m' : Mem) (dst src n : Nat) : Prop where
  moved : ∀ i < n, src + i < dst ∨ dst + n ≤ src + i → m' (dst + i) = m (src + i)
  frame : ∀ x, x < dst ∨ dst + n ≤ x → m' x = m x

namespace Copies

theorem zero (m : Mem) (dst src : Nat) : Copies m m dst src 0 :=
  ⟨fun _ h => absurd h (Nat.not_lt_zero _), fun _ _ => rfl⟩

theorem move (m : Mem) (dst src n : Nat) : Copies m (m.move dst src n) dst src n :=
  ⟨fun _ h _ => Mem.move_in h, fun _ h => Mem.move_out h⟩

/-- `n` バイトの整数の代入。 -/
theorem word (m : Mem) (dst src n : Nat) : Copies m (m.writeLE dst n (m.readLE src n)) dst src n := by
  constructor
  · intro i hi _
    rw [Mem.writeLE, if_pos (by omega), Nat.add_sub_cancel_left, Mem.ofNat_readLE m hi]
  · intro x hx
    exact Mem.writeLE_of_disjoint hx

/-- 続きの範囲を写す。 -/
theorem append {m m₁ m' : Mem} {dst src n k : Nat} (h : Copies m m₁ dst src n)
    (h' : Copies m₁ m' (dst + n) (src + n) k) : Copies m m' dst src (n + k) := by
  constructor
  · intro i hi hout
    rcases Nat.lt_or_ge i n with hin | hin
    · rw [h'.frame _ (by omega)]
      exact h.moved i hin (by omega)
    · obtain ⟨j, rfl⟩ := Nat.exists_eq_add_of_le hin
      have h1 := h'.moved j (by omega) (by omega)
      rw [Nat.add_assoc, Nat.add_assoc] at h1
      rw [h1]
      exact h.frame _ (by omega)
  · intro x hx
    rw [h'.frame x (by omega)]
    exact h.frame x (by omega)

variable {m m' : Mem} {dst src n : Nat}

/-- 写し先から離れた範囲は、写した先で元の内容になる。 -/
theorem slice {k : Nat} (h : Copies m m' dst src n) (hk : k ≤ n) (hout : src + k ≤ dst ∨ dst + n ≤ src) :
    m'.slice dst k = m.slice src k :=
  Mem.slice_congr fun i hi => h.moved i (by omega) (by omega)

theorem slice_frame {a k : Nat} (h : Copies m m' dst src n) (hout : a + k ≤ dst ∨ dst + n ≤ a) :
    m'.slice a k = m.slice a k :=
  Mem.slice_congr fun i hi => h.frame _ (by omega)

end Copies

/-! ## 長さつきのブロックの列 -/

/-- 番地 `a` から、2 バイトの長さとそのブロックが並び、長さ 0 で終わる。`data` は復号した内容、`stop` は列の終わりで
ある。 -/
inductive Blocks (Encodes : List UInt8 → List UInt8 → Prop) (m : Mem) : Nat → List UInt8 → Nat → Prop
  | stop {a : Nat} : m a = 0 → m (a + 1) = 0 → Blocks Encodes m a [] (a + 2)
  | block {a n stop : Nat} {d data : List UInt8} : (m a).toNat * 256 + (m (a + 1)).toNat = n → n ≠ 0 →
      Encodes (m.slice (a + 2) n) d → Blocks Encodes m (a + 2 + n) data stop → Blocks Encodes m a (d ++ data) stop

namespace Blocks

variable {Encodes : List UInt8 → List UInt8 → Prop} {m m' : Mem} {a stop : Nat} {data : List UInt8}

theorem lt (h : Blocks Encodes m a data stop) : a + 2 ≤ stop := by
  induction h with
  | stop _ _ => exact le_rfl
  | block _ _ _ _ ih => omega

/-- 列は、列の中のバイトだけで決まる。 -/
theorem congr {b : Nat} (h : Blocks Encodes m a data stop) (hm : ∀ x, a ≤ x → x < stop → m' (b + (x - a)) = m x) :
    Blocks Encodes m' b data (b + (stop - a)) := by
  induction h generalizing b with
  | @stop a h0 h1 =>
      have e0 := hm a le_rfl (by omega)
      have e1 := hm (a + 1) (by omega) (by omega)
      rw [Nat.sub_self, Nat.add_zero] at e0
      rw [Nat.add_sub_cancel_left] at e1
      rw [Nat.add_sub_cancel_left]
      exact .stop (e0.trans h0) (e1.trans h1)
  | @block a n stop d data hn hpos henc hrest ih =>
      have hlt := hrest.lt
      have e0 := hm a le_rfl (by omega)
      have e1 := hm (a + 1) (by omega) (by omega)
      rw [Nat.sub_self, Nat.add_zero] at e0
      rw [Nat.add_sub_cancel_left] at e1
      have hs : m'.slice (b + 2) n = m.slice (a + 2) n := Mem.slice_congr fun i hi => by
        rw [← hm (a + 2 + i) (by omega) (by omega)]
        congr 1
        omega
      have hr := ih (b := b + 2 + n) fun x h1 h2 => by
        rw [← hm x (by omega) h2]
        congr 1
        omega
      rw [show b + 2 + n + (stop - (a + 2 + n)) = b + (stop - a) by omega] at hr
      exact .block (by rw [e0, e1, hn]) hpos (hs ▸ henc) hr

theorem frame (h : Blocks Encodes m a data stop) (hm : ∀ x, a ≤ x → x < stop → m' x = m x) :
    Blocks Encodes m' a data stop := by
  have hlt := h.lt
  have := h.congr (b := a) fun x h1 h2 => by rw [← hm x h1 h2, Nat.add_sub_of_le h1]
  rwa [Nat.add_sub_of_le (by omega)] at this

end Blocks

end Imx6Bsp.Lib
