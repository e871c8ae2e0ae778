import Imx6Bsp.Boot.MemTest

/-! 記憶域の検査が行う読み書きの番地。 -/

namespace Imx6Bsp.Boot

open Imx6Bsp.Lib Imx6Bsp.Startup

variable {σ : Type} {ram : Memory σ} {P : Nat × Nat → Prop} {w base : Nat}

/-! ## 読み書きの記録 -/

/-- 行った読み書きは、すべて `P` を満たす。 -/
def Logged (P : Nat × Nat → Prop) (s : TestState σ) : Prop := ∀ access ∈ s.log, P access

theorem Logged.load (ram : Memory σ) {a : Nat} {s : TestState σ} (h : Logged P s) (ha : P (a, w)) : Logged P (load ram w a s).2 := by
  intro access hm
  rcases List.mem_cons.mp hm with rfl | hm
  · exact ha
  · exact h access hm

theorem Logged.store (ram : Memory σ) {a : Nat} (v : Nat) {s : TestState σ} (h : Logged P s) (ha : P (a, w)) : Logged P (store ram w a v s) := by
  intro access hm
  rcases List.mem_cons.mp hm with rfl | hm
  · exact ha
  · exact h access hm

/-- 添え字の並びの各要素は、`P` を満たす番地にある。 -/
def Elements (P : Nat × Nat → Prop) (w base : Nat) (os : List Nat) : Prop := ∀ o ∈ os, P (element w base o, w)

theorem Elements.head {o : Nat} {os : List Nat} (h : Elements P w base (o :: os)) : P (element w base o, w) :=
  h o List.mem_cons_self

theorem Elements.tail {o : Nat} {os : List Nat} (h : Elements P w base (o :: os)) : Elements P w base os := by
  intro o' hm
  exact h o' (List.mem_cons_of_mem _ hm)

section

variable {num : Nat} (hnum : ∀ o < num, P (element w base o, w))

include hnum

end

end Imx6Bsp.Boot
