import Mathlib

/-!
# 一周と零除算を数える 32 ビットの計算

無符号 32 ビットの計算を、値が一周したかどうかと、0 で割ったかどうかを残しながら行う。
-/

namespace Imx6Bsp.Lib

/-- `fault` は 0 による除算、`wrapped` は途中の積か差が一周したことを表す。 -/
inductive Calc (α : Type)
  | fault
  | ok (a : α) (wrapped : Bool)
deriving DecidableEq

namespace Calc

variable {α β : Type}

instance : Monad Calc where
  pure a := .ok a false
  bind x f :=
    match x with
    | .fault => .fault
    | .ok a w =>
        match f a with
        | .fault => .fault
        | .ok b w' => .ok b (w || w')

/-- 2 の 32 乗。 -/
def word : Nat := 4294967296

def add (a b : Nat) : Calc Nat := .ok ((a + b) % word) (decide (word ≤ a + b))

def mul (a b : Nat) : Calc Nat := .ok (a * b % word) (decide (word ≤ a * b))

/-- 引けないときは、2 の 32 乗を借りる。 -/
def sub (a b : Nat) : Calc Nat := if b ≤ a then .ok (a - b) false else .ok (word - (b - a)) true

def div (a b : Nat) : Calc Nat := if b = 0 then .fault else .ok (a / b) false

def mod (a b : Nat) : Calc Nat := if b = 0 then .fault else .ok (a % b) false

/-- 一周も零除算もなく `a` を得る。 -/
def Runs (x : Calc α) (a : α) : Prop := x = .ok a false

theorem runs_pure {a b : α} : Runs (pure a) b ↔ a = b := by
  simp [Runs, pure]

theorem runs_bind {x : Calc α} {f : α → Calc β} {b : β} : Runs (x >>= f) b ↔ ∃ a, Runs x a ∧ Runs (f a) b := by
  cases x with
  | fault =>
      refine iff_of_false nofun ?_
      rintro ⟨_, h, _⟩; cases h
  | ok a w =>
      cases hf : f a with
      | fault =>
          refine iff_of_false ?_ ?_
          · simp [Runs, bind, hf]
          · rintro ⟨_, h, h'⟩
            cases h
            rw [Runs, hf] at h'; cases h'
      | ok b' w' =>
          simp only [Runs, bind, hf, ok.injEq, Bool.or_eq_false_iff]
          constructor
          · rintro ⟨rfl, rfl, rfl⟩
            exact ⟨a, ⟨rfl, rfl⟩, hf⟩
          · rintro ⟨_, ⟨rfl, rfl⟩, h'⟩
            rw [hf, ok.injEq] at h'
            exact ⟨h'.1, rfl, h'.2⟩

theorem runs_add {a b c : Nat} : Runs (add a b) c ↔ a + b < word ∧ c = a + b := by
  simp only [Runs, add, ok.injEq, decide_eq_false_iff_not, Nat.not_le]
  constructor
  · rintro ⟨h, hlt⟩
    exact ⟨hlt, by rw [← h, Nat.mod_eq_of_lt hlt]⟩
  · rintro ⟨hlt, rfl⟩
    exact ⟨Nat.mod_eq_of_lt hlt, hlt⟩

theorem runs_mul {a b c : Nat} : Runs (mul a b) c ↔ a * b < word ∧ c = a * b := by
  simp only [Runs, mul, ok.injEq, decide_eq_false_iff_not, Nat.not_le]
  constructor
  · rintro ⟨h, hlt⟩
    exact ⟨hlt, by rw [← h, Nat.mod_eq_of_lt hlt]⟩
  · rintro ⟨hlt, rfl⟩
    exact ⟨Nat.mod_eq_of_lt hlt, hlt⟩

theorem runs_sub {a b c : Nat} : Runs (sub a b) c ↔ b ≤ a ∧ c = a - b := by
  by_cases h : b ≤ a
  · simp [Runs, sub, h, eq_comm]
  · simp [Runs, sub, h]

theorem runs_div {a b c : Nat} : Runs (div a b) c ↔ b ≠ 0 ∧ c = a / b := by
  by_cases hb : b = 0
  · simp [Runs, div, hb]
  · simp [Runs, div, hb, eq_comm]

theorem runs_mod {a b c : Nat} : Runs (mod a b) c ↔ b ≠ 0 ∧ c = a % b := by
  by_cases hb : b = 0
  · simp [Runs, mod, hb]
  · simp [Runs, mod, hb, eq_comm]

end Calc

end Imx6Bsp.Lib
