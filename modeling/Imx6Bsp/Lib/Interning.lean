import Mathlib

/-!
# 詰めて並べた列の表

列の後ろに終わりの印を一つずつ置いて、列を詰めて並べた表を考える。同じ列を一度しか加えない表では、列の位置は後から列を加えても変わらず、
異なる列の位置は異なる。
-/

namespace Imx6Bsp.Lib

variable {α : Type*}

/-- 終わりの印を含めた、表の長さ。 -/
def packedLength (l : List (List α)) : Nat := (l.map (·.length + 1)).sum

@[simp] theorem packedLength_nil : packedLength ([] : List (List α)) = 0 := rfl

@[simp] theorem packedLength_cons (s : List α) (l : List (List α)) : packedLength (s :: l) = s.length + 1 + packedLength l := by
  simp [packedLength]

section

variable [DecidableEq α]

/-- 列 `s` の位置。表になければ、表の終わりである。 -/
def packedOffset (s : List α) : List (List α) → Nat
  | [] => 0
  | t :: l => if t = s then 0 else t.length + 1 + packedOffset s l

/-- 表に列 `s` がなければ加える。 -/
def intern (l : List (List α)) (s : List α) : List (List α) := if s ∈ l then l else l ++ [s]

variable {l : List (List α)} {s t : List α}

/-- 後ろに列を加えても、表にある列の位置は変わらない。 -/
theorem packedOffset_append (h : s ∈ l) (l' : List (List α)) : packedOffset s (l ++ l') = packedOffset s l := by
  induction l with
  | nil => exact absurd h List.not_mem_nil
  | cons t l ih =>
      rw [List.cons_append, packedOffset, packedOffset]
      by_cases hts : t = s
      · rw [if_pos hts, if_pos hts]
      · rw [if_neg hts, if_neg hts, ih ((List.mem_cons.mp h).resolve_left (Ne.symm hts))]

/-- 表にある列は、位置で決まる。 -/
theorem packedOffset_inj (hs : s ∈ l) (ht : t ∈ l) (h : packedOffset s l = packedOffset t l) : s = t := by
  induction l with
  | nil => exact absurd hs List.not_mem_nil
  | cons u l ih =>
      rw [packedOffset, packedOffset] at h
      by_cases hus : u = s
      · by_cases hut : u = t
        · exact hus.symm.trans hut
        · rw [if_pos hus, if_neg hut] at h
          omega
      · by_cases hut : u = t
        · rw [if_neg hus, if_pos hut] at h
          omega
        · rw [if_neg hus, if_neg hut] at h
          exact ih ((List.mem_cons.mp hs).resolve_left (Ne.symm hus)) ((List.mem_cons.mp ht).resolve_left (Ne.symm hut)) (by omega)

theorem packedOffset_concat (h : s ∉ l) : packedOffset s (l ++ [s]) = packedLength l := by
  induction l with
  | nil => exact if_pos rfl
  | cons t l ih =>
      rw [List.mem_cons, not_or] at h
      rw [List.cons_append, packedOffset, if_neg (Ne.symm h.1), ih h.2, packedLength_cons]

theorem mem_intern_self : s ∈ intern l s := by
  unfold intern
  split
  · assumption
  · simp

theorem mem_intern_of_mem (h : t ∈ l) : t ∈ intern l s := by
  unfold intern
  split
  · exact h
  · exact List.mem_append_left _ h

theorem packedOffset_intern (h : t ∈ l) : packedOffset t (intern l s) = packedOffset t l := by
  unfold intern
  split
  · rfl
  · exact packedOffset_append h [s]

end

end Imx6Bsp.Lib
