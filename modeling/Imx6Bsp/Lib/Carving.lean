import Mathlib

/-!
# 並べ替えと切り分け

隣り合う二つを入れ替える並べ替えは、長さと同じ回数の周で、順序 `r` に並んだ置き換えになる。並べた列に先頭から区画を切り分けると、区画は
重ならない。長さが後ろの長さで割り切れる順に並んでいれば、どの区画も、全体の始まりから自分の長さの倍数だけ離れている。
-/

namespace Imx6Bsp.Lib

variable {α : Type*}

/-! ## 隣り合う二つの入れ替え -/

/-- 後ろの `n` 個は並んでいて、前のどれよりも後である。 -/
def Settled (r : α → α → Prop) (n : Nat) (l : List α) : Prop :=
  ∃ front back, l = front ++ back ∧ back.length = n ∧ back.Pairwise r ∧ ∀ x ∈ front, ∀ y ∈ back, r x y

theorem Settled.pairwise {r : α → α → Prop} {n : Nat} {l : List α} (h : Settled r n l) (hn : l.length ≤ n) : l.Pairwise r := by
  obtain ⟨front, back, rfl, hlen, hback, _⟩ := h
  rw [List.length_append] at hn
  rw [List.length_eq_zero_iff.mp (show front.length = 0 by omega), List.nil_append]
  exact hback

section

variable (r : α → α → Prop) [DecidableRel r]

/-- 先頭が `a` の列の一回り。入れ替えたかどうかも返す。 -/
def bubblePass : α → List α → List α × Bool
  | a, [] => ([a], false)
  | a, b :: rest =>
      if r a b then (a :: (bubblePass b rest).1, (bubblePass b rest).2) else (b :: (bubblePass a rest).1, true)

/-- 入れ替えがなくなるまで、多くとも `fuel` 回繰り返す。 -/
def bubbleSort : Nat → List α → List α
  | 0, l => l
  | _, [] => []
  | fuel + 1, a :: rest => if (bubblePass r a rest).2 then bubbleSort fuel (bubblePass r a rest).1 else (bubblePass r a rest).1

theorem bubblePass_perm (a : α) (l : List α) : (bubblePass r a l).1.Perm (a :: l) := by
  induction l generalizing a with
  | nil => exact .refl _
  | cons b l ih =>
      rw [bubblePass]
      split
      · exact (ih b).cons a
      · exact ((ih a).cons b).trans (.swap a b l)

theorem bubbleSort_perm (fuel : Nat) (l : List α) : (bubbleSort r fuel l).Perm l := by
  induction fuel generalizing l with
  | zero => exact .refl _
  | succ fuel ih =>
      cases l with
      | nil => exact .refl _
      | cons a l =>
          rw [bubbleSort]
          split
          · exact (ih _).trans (bubblePass_perm r a l)
          · exact bubblePass_perm r a l

variable {r}

theorem bubblePass_of_pairwise {a : α} {l : List α} (h : (a :: l).Pairwise r) : bubblePass r a l = (a :: l, false) := by
  induction l generalizing a with
  | nil => rfl
  | cons b l ih =>
      obtain ⟨hab, hb⟩ := List.pairwise_cons.mp h
      rw [bubblePass, if_pos (hab b List.mem_cons_self), ih hb]

/-- 入れ替えなかった周は、列を変えず、列は並んでいる。 -/
theorem bubblePass_of_false (htrans : ∀ x y z, r x y → r y z → r x z) {a : α} {l : List α} (h : (bubblePass r a l).2 = false) :
    (bubblePass r a l).1 = a :: l ∧ (a :: l).Pairwise r := by
  induction l generalizing a with
  | nil => exact ⟨rfl, List.pairwise_singleton r a⟩
  | cons b l ih =>
      rw [bubblePass] at h ⊢
      split at h
      · rename_i hab
        obtain ⟨heq, hsorted⟩ := ih h
        rw [if_pos hab, heq]
        refine ⟨rfl, List.pairwise_cons.mpr ⟨fun x hx => ?_, hsorted⟩⟩
        rcases List.mem_cons.mp hx with rfl | hx
        · exact hab
        · exact htrans _ _ _ hab ((List.pairwise_cons.mp hsorted).1 x hx)
      · cases h

/-- 一回りで、列の最後のものが後ろに着く。 -/
theorem bubblePass_append (htotal : ∀ x y, r x y ∨ r y x) (htrans : ∀ x y z, r x y → r y z → r x z) (a : α) (l back : List α) :
    ∃ front m, (bubblePass r a (l ++ back)).1 = front ++ (bubblePass r m back).1 ∧ (front ++ [m]).Perm (a :: l) ∧ ∀ x ∈ front, r x m := by
  induction l generalizing a with
  | nil => exact ⟨[], a, rfl, .refl _, fun x hx => absurd hx List.not_mem_nil⟩
  | cons b l ih =>
      rw [List.cons_append, bubblePass]
      split
      · rename_i hab
        obtain ⟨front, m, heq, hperm, hmax⟩ := ih b
        refine ⟨a :: front, m, by rw [heq, List.cons_append], hperm.cons a, fun x hx => ?_⟩
        have hbm : b = m ∨ r b m := by
          rcases List.mem_append.mp (hperm.mem_iff.mpr List.mem_cons_self) with h | h
          · exact .inr (hmax b h)
          · exact .inl (List.mem_singleton.mp h)
        rcases List.mem_cons.mp hx with rfl | hx
        · exact hbm.elim (fun h => h ▸ hab) (htrans _ _ _ hab)
        · exact hmax x hx
      · rename_i hab
        have hba : r b a := (htotal a b).resolve_left hab
        obtain ⟨front, m, heq, hperm, hmax⟩ := ih a
        refine ⟨b :: front, m, by rw [heq, List.cons_append], (hperm.cons b).trans (.swap a b l), fun x hx => ?_⟩
        have ham : a = m ∨ r a m := by
          rcases List.mem_append.mp (hperm.mem_iff.mpr List.mem_cons_self) with h | h
          · exact .inr (hmax a h)
          · exact .inl (List.mem_singleton.mp h)
        rcases List.mem_cons.mp hx with rfl | hx
        · exact ham.elim (fun h => h ▸ hba) (htrans _ _ _ hba)
        · exact hmax x hx

/-- 一回りで、後ろの並んだところは一つ伸びる。 -/
theorem Settled.pass (htotal : ∀ x y, r x y ∨ r y x) (htrans : ∀ x y z, r x y → r y z → r x z) {n : Nat} {a : α} {l : List α}
    (h : Settled r n (a :: l)) (hn : n < (a :: l).length) : Settled r (n + 1) (bubblePass r a l).1 := by
  obtain ⟨front, back, heq, hlen, hback, hbound⟩ := h
  cases front with
  | nil =>
      rw [List.nil_append] at heq
      rw [heq, hlen] at hn
      exact absurd hn (lt_irrefl _)
  | cons a' front =>
      obtain ⟨rfl, hl⟩ := List.cons.inj heq
      rw [List.append_eq] at hl
      subst hl
      obtain ⟨front', m, hpass, hperm, hmax⟩ := bubblePass_append htotal htrans a front back
      have hold : ∀ x ∈ front' ++ [m], ∀ y ∈ back, r x y := fun x hx => hbound x (hperm.mem_iff.mp hx)
      have hm : (m :: back).Pairwise r :=
        List.pairwise_cons.mpr ⟨hold m (List.mem_append_right _ (List.mem_singleton_self m)), hback⟩
      rw [hpass, bubblePass_of_pairwise hm]
      refine ⟨front', m :: back, rfl, by rw [List.length_cons, hlen], hm, fun x hx y hy => ?_⟩
      rcases List.mem_cons.mp hy with rfl | hy
      · exact hmax x hx
      · exact hold x (List.mem_append_left _ hx) y hy

theorem bubbleSort_pairwise (htotal : ∀ x y, r x y ∨ r y x) (htrans : ∀ x y z, r x y → r y z → r x z) {fuel : Nat} {l : List α}
    (h : l.length ≤ fuel) : (bubbleSort r fuel l).Pairwise r := by
  have key : ∀ (fuel n : Nat) (l : List α), l.length ≤ fuel + n → Settled r n l → (bubbleSort r fuel l).Pairwise r := by
    intro fuel
    induction fuel with
    | zero => exact fun n l hlen hset => hset.pairwise (by omega)
    | succ fuel ih =>
        intro n l hlen hset
        cases l with
        | nil => exact .nil
        | cons a l =>
            rw [bubbleSort]
            split
            · by_cases hn : n < (a :: l).length
              · refine ih (n + 1) _ ?_ (hset.pass htotal htrans hn)
                rw [(bubblePass_perm r a l).length_eq]
                omega
              · -- すでに並んでいるので、この周は入れ替えない。
                rename_i hswap
                rw [bubblePass_of_pairwise (hset.pairwise (by omega))] at hswap
                cases hswap
            · rename_i hswap
              obtain ⟨heq, hsorted⟩ := bubblePass_of_false htrans (Bool.not_eq_true _ ▸ hswap)
              rw [heq]
              exact hsorted
  exact key fuel 0 l (by omega) ⟨l, [], by rw [List.append_nil], rfl, .nil, fun _ _ y hy => absurd hy List.not_mem_nil⟩

end

/-! ## 切り分け -/

/-- 始まりが `base` の区画を、先頭から長さ `len` ずつ切り分ける。 -/
def carve (len : α → Nat) : Nat → List α → List (α × Nat)
  | _, [] => []
  | base, a :: l => (a, base) :: carve len (base + len a) l

theorem carve_map_fst (len : α → Nat) (base : Nat) (l : List α) : (carve len base l).map Prod.fst = l := by
  induction l generalizing base with
  | nil => rfl
  | cons b l ih => rw [carve, List.map_cons, ih]

variable {len : α → Nat} {base : Nat} {l : List α} {a : α} {start : Nat}

theorem carve_bounds (h : (a, start) ∈ carve len base l) : base ≤ start ∧ start + len a ≤ base + (l.map len).sum := by
  induction l generalizing base with
  | nil => cases h
  | cons b l ih =>
      rw [List.map_cons, List.sum_cons]
      rcases List.mem_cons.mp h with h | h
      · obtain ⟨rfl, rfl⟩ := Prod.mk.inj h
        omega
      · have hb := ih h
        omega

/-- 後の区画は、前の区画の終わりより後にある。 -/
theorem carve_pairwise (len : α → Nat) (base : Nat) (l : List α) :
    (carve len base l).Pairwise fun x y => x.2 + len x.1 ≤ y.2 := by
  induction l generalizing base with
  | nil => exact .nil
  | cons b l ih => exact List.pairwise_cons.mpr ⟨fun _ hx => (carve_bounds hx).1, ih _⟩

/-- 異なるものの区画は重ならない。 -/
theorem carve_disjoint {b : α} {start' : Nat} (ha : (a, start) ∈ carve len base l) (hb : (b, start') ∈ carve len base l) (hne : a ≠ b) :
    start + len a ≤ start' ∨ start' + len b ≤ start := by
  have : Std.Symm fun x y : α × Nat => x.2 + len x.1 ≤ y.2 ∨ y.2 + len y.1 ≤ x.2 := ⟨fun _ _ h => h.symm⟩
  exact ((carve_pairwise len base l).imp fun h => .inl h : (carve len base l).Pairwise fun x y =>
    x.2 + len x.1 ≤ y.2 ∨ y.2 + len y.1 ≤ x.2).forall ha hb fun h => hne (congrArg Prod.fst h)

/-- 前の長さが後の長さで割り切れる列では、どの区画も、全体の始まりから自分の長さの倍数だけ離れている。 -/
theorem carve_offset (hl : l.Pairwise fun x y => len y ∣ len x) (h : (a, start) ∈ carve len base l) : len a ∣ start - base := by
  induction l generalizing base with
  | nil => cases h
  | cons b l ih =>
      obtain ⟨hb, hl⟩ := List.pairwise_cons.mp hl
      rcases List.mem_cons.mp h with h | h
      · obtain ⟨rfl, rfl⟩ := Prod.mk.inj h
        rw [Nat.sub_self]
        exact Nat.dvd_zero _
      · have ha : a ∈ l := carve_map_fst len (base + len b) l ▸ List.mem_map_of_mem h
        have hle := (carve_bounds h).1
        rw [show start - base = start - (base + len b) + len b by omega]
        exact Nat.dvd_add (ih hl h) (hb a ha)

end Imx6Bsp.Lib
