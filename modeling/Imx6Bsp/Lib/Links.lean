import Mathlib

/-!
# 片方向のつながり

節の番地から次の節への関数 `next` に沿って、節の並びを辿る。
-/

namespace Imx6Bsp.Lib

variable {next next' : Nat → Option Nat} {a b c : Option Nat} {xs ys : List Nat}

/-- `a` から始めて、`xs` の節を順に通り、`b` に着く。 -/
def Links (next : Nat → Option Nat) : Option Nat → List Nat → Option Nat → Prop
  | a, [], b => a = b
  | a, x :: xs, b => a = some x ∧ Links next (next x) xs b

namespace Links

theorem append (h : Links next a xs b) (h' : Links next b ys c) : Links next a (xs ++ ys) c := by
  induction xs generalizing a with
  | nil => exact (show a = b from h) ▸ h'
  | cons x xs ih => exact ⟨h.1, ih h.2⟩

theorem split (h : Links next a (xs ++ ys) c) : ∃ b, Links next a xs b ∧ Links next b ys c := by
  induction xs generalizing a with
  | nil => exact ⟨a, rfl, h⟩
  | cons x xs ih =>
      obtain ⟨b, h1, h2⟩ := ih h.2
      exact ⟨b, ⟨h.1, h1⟩, h2⟩

/-- 並びの節の次だけで決まる。 -/
theorem congr (h : Links next a xs b) (hnext : ∀ x ∈ xs, next x = next' x) : Links next' a xs b := by
  induction xs generalizing a with
  | nil => exact h
  | cons x xs ih =>
      refine ⟨h.1, ih ?_ fun y hy => hnext y (List.mem_cons_of_mem _ hy)⟩
      rw [← hnext x List.mem_cons_self]
      exact h.2

/-- 終わりまで辿る並びは一つである。 -/
theorem unique (h : Links next a xs none) (h' : Links next a ys none) : xs = ys := by
  induction xs generalizing a ys with
  | nil =>
      obtain rfl : a = none := h
      cases ys with
      | nil => rfl
      | cons y ys => exact absurd h'.1 (Option.some_ne_none y).symm
  | cons x xs ih =>
      obtain ⟨rfl, h⟩ := h
      cases ys with
      | nil => exact absurd h' (Option.some_ne_none x)
      | cons y ys =>
          obtain ⟨hxy, h'⟩ := h'
          obtain rfl := Option.some.inj hxy
          rw [ih h h']

/-- 次の節へ進む。 -/
theorem concat {x : Nat} (h : Links next a xs (some x)) : Links next a (xs ++ [x]) (next x) := h.append ⟨rfl, rfl⟩

/-- 終わりまで辿る並びは、途中で着くどの節も通る。 -/
theorem mem_of_reach {y : Nat} (h : Links next a xs none) (h' : Links next a ys (some y)) : y ∈ xs := by
  induction ys generalizing a xs with
  | nil =>
      obtain rfl : a = some y := h'
      cases xs with
      | nil => exact absurd h (Option.some_ne_none y)
      | cons x xs =>
          rw [Option.some.inj h.1]
          exact List.mem_cons_self
  | cons z ys ih =>
      obtain ⟨rfl, h'⟩ := h'
      cases xs with
      | nil => exact absurd h (Option.some_ne_none z)
      | cons x xs =>
          obtain ⟨hx, h⟩ := h
          obtain rfl := Option.some.inj hx
          exact List.mem_cons_of_mem _ (ih h h')

/-- 終わりまで辿る並びは、同じ節を二度通らない。 -/
theorem nodup (h : Links next a xs none) : xs.Nodup := by
  induction xs generalizing a with
  | nil => exact List.nodup_nil
  | cons x xs ih =>
      refine List.nodup_cons.mpr ⟨fun hmem => ?_, ih h.2⟩
      obtain ⟨ys, zs, rfl⟩ := List.append_of_mem hmem
      obtain ⟨b, -, hb⟩ := split h.2
      obtain ⟨rfl, hz⟩ := hb
      have heq : x :: (ys ++ x :: zs) = x :: zs := @unique next (some x) _ _ ⟨rfl, h.2⟩ ⟨rfl, hz⟩
      have hlen := congrArg List.length heq
      rw [List.length_cons, List.length_cons, List.length_append, List.length_cons] at hlen
      omega

/-- 性質 `P` をもつ最初の節で分ける。 -/
theorem first {P : Nat → Prop} [DecidablePred P] (h : Links next a xs b) (hP : ∃ x ∈ xs, P x) :
    ∃ ys y zs, xs = ys ++ y :: zs ∧ Links next a ys (some y) ∧ P y ∧ ∀ x ∈ ys, ¬ P x := by
  obtain ⟨y, hy⟩ : ∃ y, xs.find? (fun x => P x) = some y := by
    obtain ⟨x, hx, hPx⟩ := hP
    exact Option.isSome_iff_exists.mp (List.find?_isSome.mpr ⟨x, hx, decide_eq_true hPx⟩)
  obtain ⟨hPy, ys, zs, rfl, hys⟩ := List.find?_eq_some_iff_append.mp hy
  obtain ⟨b', h1, h2⟩ := split h
  obtain ⟨rfl, -⟩ := h2
  refine ⟨ys, y, zs, rfl, h1, of_decide_eq_true hPy, fun x hx hPx => ?_⟩
  have hnot := hys x hx
  rw [decide_eq_true hPx] at hnot
  cases hnot

end Links

end Imx6Bsp.Lib
