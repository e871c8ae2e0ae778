import Mathlib

/-!
# 上書きと環状の列

列の途中の上書きと、環状に使う列の読み方、環状の番号の数え方を置く。
-/

namespace Imx6Bsp.Lib

variable {α : Type*} {l xs : List α} {k t c n : Nat}

/-! ## 上書き -/

/-- `l` の `k` 番目からを `xs` で上書きする。`l` の外に出た分は後ろに足される。 -/
def overwrite (l : List α) (k : Nat) (xs : List α) : List α := l.take k ++ xs ++ l.drop (k + xs.length)

theorem overwrite_length (h : k + xs.length ≤ l.length) : (overwrite l k xs).length = l.length := by
  simp only [overwrite, List.length_append, List.length_take, List.length_drop]
  omega

theorem overwrite_take (h : k ≤ l.length) : (overwrite l k xs).take (k + xs.length) = l.take k ++ xs := by
  have hk : (l.take k ++ xs).length = k + xs.length := by
    rw [List.length_append, List.length_take, Nat.min_eq_left h]
  rw [overwrite, ← hk]
  exact List.take_left

/-! ## 環状の列 -/

/-- 環状の列 `l` の、`t` 番目から始まる `c` 個。 -/
def window (l : List α) (t c : Nat) : List α := (l.rotate t).take c

theorem window_length (h : c ≤ l.length) : (window l t c).length = c := by
  rw [window, List.length_take, List.length_rotate, Nat.min_eq_left h]

theorem window_take (h : n ≤ c) : (window l t c).take n = window l t n := by
  rw [window, List.take_take, Nat.min_eq_left h, window]

theorem window_drop (hn : n ≤ c) (hc : c ≤ l.length) : (window l t c).drop n = window l (t + n) (c - n) := by
  rw [window, window, List.drop_take, ← List.rotate_rotate, List.rotate_eq_drop_append_take (l := l.rotate t)]
  · rw [List.take_append_of_le_length]
    rw [List.length_drop, List.length_rotate]
    omega
  · rw [List.length_rotate]
    omega

/-- 折り返さない読み方。 -/
theorem window_eq_take (h : t + n ≤ l.length) : window l t n = (l.drop t).take n := by
  rw [window, List.rotate_eq_drop_append_take (by omega), List.take_append_of_le_length]
  rw [List.length_drop]
  omega

/-- 折り返す読み方。 -/
theorem window_eq_append (ht : t ≤ l.length) (h : l.length ≤ t + n) (hn : n ≤ l.length) :
    window l t n = l.drop t ++ l.take (t + n - l.length) := by
  rw [window, List.rotate_eq_drop_append_take ht, List.take_append, List.take_of_length_le, List.take_take, List.length_drop]
  · congr 2
    omega
  · rw [List.length_drop]
    omega

theorem window_sub_length (h : l.length ≤ t) : window l (t - l.length) c = window l t c := by
  rw [window, window, ← List.rotate_mod l t, ← List.rotate_mod l (t - l.length), Nat.mod_eq_sub_mod h]

/-! ## 環状の番号 -/

/-- `c` から数えた番号は、一周の中では重ならない。 -/
theorem ring_inj {i j : Nat} (hi : i < n) (hj : j < n) (h : (c + i) % n = (c + j) % n) : i = j := by
  have h : i ≡ j [MOD n] := Nat.ModEq.add_left_cancel' c h
  rwa [Nat.ModEq, Nat.mod_eq_of_lt hi, Nat.mod_eq_of_lt hj] at h

/-- 差の番号から元の番号に戻る。 -/
theorem ring_add_sub {i : Nat} (hc : c < n) (hi : i < n) : (c + (i + n - c) % n) % n = i := by
  rw [Nat.add_mod_mod, show c + (i + n - c) = i + n by omega, Nat.add_mod_right, Nat.mod_eq_of_lt hi]

theorem ring_sub_add {j : Nat} (hc : c < n) (hj : j < n) : ((c + j) % n + n - c) % n = j := by
  refine ring_inj (c := c) (Nat.mod_lt _ (by omega)) hj ?_
  exact ring_add_sub hc (Nat.mod_lt _ (by omega))

theorem ring_succ (hc : c < n) : (if c + 1 = n then 0 else c + 1) = (c + 1) % n := by
  split
  · rename_i h
    rw [h, Nat.mod_self]
  · rw [Nat.mod_eq_of_lt]
    omega

/-! ## 一つずつ上書きする環 -/

/-- 番号 `r.2` に書き、番号を進める。端では 0 に戻る。 -/
def ringPut (n : Nat) (r : List α × Nat) (x : α) : List α × Nat :=
  (r.1.set r.2 x, if n ≤ r.2 + 1 then 0 else r.2 + 1)

/-- 書いた列 `l` の最後の `n` 個。環に残るものである。 -/
def lastOf (n : Nat) (l : List α) : List α := l.drop (l.length - n)

/-- 環に残るものを、環の番号の順に並べたもの。最後の周に書いたものが前に来る。 -/
def slotOrder (n : Nat) (l : List α) : List α :=
  l.drop (l.length - l.length % n) ++ (lastOf n l).take (min l.length n - l.length % n)

theorem mod_le_min (l n : Nat) (hn : 0 < n) : l % n ≤ min l n :=
  Nat.le_min.mpr ⟨Nat.mod_le l n, (Nat.mod_lt l hn).le⟩

theorem mem_slotOrder (hn : 0 < n) {x : α} : x ∈ slotOrder n l ↔ x ∈ lastOf n l := by
  have hw := mod_le_min l.length n hn
  have hdrop : l.drop (l.length - l.length % n) = (lastOf n l).drop (min l.length n - l.length % n) := by
    rw [lastOf, List.drop_drop]
    congr 1
    omega
  rw [slotOrder, hdrop, List.mem_append, or_comm, ← List.mem_append, List.take_append_drop]

theorem slotOrder_length (hn : 0 < n) : (slotOrder n l).length = min l.length n := by
  have hw := mod_le_min l.length n hn
  simp only [slotOrder, lastOf, List.length_append, List.length_drop, List.length_take]
  omega

/-- 一つ書くと、環の中身は番号の順のまま一つ入れ替わる。 -/
theorem slotOrder_concat (hn : 0 < n) (z x : α) (l : List α) :
    (slotOrder n l ++ List.replicate (n - l.length) z).set (l.length % n) x =
      slotOrder n (l ++ [x]) ++ List.replicate (n - (l.length + 1)) z := by
  have hw := Nat.mod_lt l.length hn
  rcases Nat.lt_or_ge l.length n with hlt | hge
  · -- まだ一周していない。番号は書いた数に等しい。
    have hmod : l.length % n = l.length := Nat.mod_eq_of_lt hlt
    have hold : slotOrder n l = l := by
      rw [slotOrder, hmod, Nat.min_eq_left hlt.le, Nat.sub_self, List.take_zero, List.append_nil, List.drop_zero]
    have hnew : slotOrder n (l ++ [x]) = l ++ [x] := by
      simp only [slotOrder, lastOf, List.length_append, List.length_singleton]
      rcases Nat.eq_or_lt_of_le (Nat.succ_le_of_lt hlt) with he | hlt'
      · rw [show l.length + 1 = n from he, Nat.mod_self, Nat.sub_zero, Nat.sub_self, List.drop_zero, Nat.min_self]
        have hlen : (l ++ [x]).length = n := by rw [List.length_append, List.length_singleton]; exact he
        rw [← hlen, List.drop_length, Nat.sub_zero, List.take_length, List.nil_append]
      · rw [Nat.mod_eq_of_lt hlt', Nat.sub_self, List.drop_zero, Nat.min_eq_left hlt'.le, Nat.sub_self, List.take_zero,
          List.append_nil]
    rw [hold, hnew, hmod, List.set_append_right _ _ (Nat.le_refl _), Nat.sub_self,
      show n - l.length = n - (l.length + 1) + 1 by omega, List.replicate_succ, List.set_cons_zero, List.append_assoc]
    rfl
  · -- 一周した後は、空きはなく、最も古いものを消す。
    have hrep : n - l.length = 0 := by omega
    have hrep' : n - (l.length + 1) = 0 := by omega
    rw [hrep, hrep', List.replicate_zero, List.append_nil, List.append_nil]
    have hA : (l.drop (l.length - l.length % n)).length = l.length % n := by
      rw [List.length_drop]; omega
    have hlast : lastOf n (l ++ [x]) = (lastOf n l).drop 1 ++ [x] := by
      rw [lastOf, lastOf, List.drop_drop, List.length_append, List.length_singleton, List.drop_append_of_le_length (by omega)]
      congr 2
      omega
    have hlen : (lastOf n l).length = n := by
      rw [lastOf, List.length_drop]; omega
    obtain ⟨o, rest, hr⟩ := List.exists_cons_of_length_pos (l := lastOf n l) (by omega)
    have hrest : rest.length = n - 1 := by
      rw [hr, List.length_cons] at hlen; omega
    simp only [slotOrder]
    rw [List.set_append_right _ _ (by omega), hA, Nat.sub_self, hlast, hr, List.drop_one, List.tail_cons,
      List.length_append, List.length_singleton, Nat.min_eq_right hge, Nat.min_eq_right (by omega)]
    rcases Nat.eq_or_lt_of_le (Nat.succ_le_of_lt hw) with he | hlt'
    · -- 番号が端にあり、次は 0 に戻る。
      have hmod : (l.length + 1) % n = 0 := by
        rw [← Nat.mod_add_mod, show l.length % n + 1 = n from he, Nat.mod_self]
      have hdrop : l.drop (l.length - l.length % n) = rest := by
        have : rest = (lastOf n l).drop 1 := by rw [hr]; rfl
        rw [this, lastOf, List.drop_drop]
        congr 1
        omega
      have hlen' : (rest ++ [x]).length = n := by
        rw [List.length_append, List.length_singleton, hrest]; omega
      rw [hmod, hdrop, Nat.sub_zero, Nat.sub_zero, show n - l.length % n = 1 by omega, List.take_succ_cons, List.take_zero,
        List.set_cons_zero, List.drop_of_length_le (by rw [List.length_append, List.length_singleton]), List.nil_append,
        ← hlen', List.take_length]
    · have hmod : (l.length + 1) % n = l.length % n + 1 := by
        rw [← Nat.mod_add_mod, Nat.mod_eq_of_lt hlt']
      have hle := Nat.mod_le l.length n
      rw [hmod, show n - l.length % n = n - (l.length % n + 1) + 1 by omega, List.take_succ_cons, List.set_cons_zero,
        show l.length + 1 - (l.length % n + 1) = l.length - l.length % n by omega, List.drop_append_of_le_length (by omega),
        List.take_append_of_le_length (by omega), List.append_assoc, List.singleton_append]

/-- 空の環に `l` を順に書いた後の環と番号。 -/
theorem foldl_ringPut (hn : 0 < n) (z : α) (l : List α) :
    l.foldl (ringPut n) (List.replicate n z, 0) = (slotOrder n l ++ List.replicate (n - l.length) z, l.length % n) := by
  induction l using List.reverseRecOn with
  | nil => simp [slotOrder, lastOf]
  | append_singleton l x ih =>
      rw [List.foldl_append, ih, List.foldl_cons, List.foldl_nil, ringPut, slotOrder_concat hn, List.length_append,
        List.length_singleton]
      have hw := Nat.mod_lt l.length hn
      refine Prod.ext rfl ?_
      simp only
      split_ifs with h
      · rw [← Nat.mod_add_mod, show l.length % n + 1 = n by omega, Nat.mod_self]
      · rw [← Nat.mod_add_mod, Nat.mod_eq_of_lt (show l.length % n + 1 < n by omega)]

end Imx6Bsp.Lib
