import Mathlib

/-!
# 失敗しうる遷移の実行

一回の呼び出しを `σ → ι → Except ε σ` で表す系の実行と、実行で保たれる性質の規則を置く。
-/

namespace Imx6Bsp.Lib

/-! ## `Except` の逆転 -/

theorem Except.bind_eq_ok {ε : Type*} {α β : Type _} {x : Except ε α} {f : α → Except ε β} {b : β} :
    x >>= f = .ok b ↔ ∃ a, x = .ok a ∧ f a = .ok b := by
  cases x with
  | error e =>
      refine iff_of_false nofun ?_
      rintro ⟨_, h, _⟩; cases h
  | ok a =>
      refine ⟨fun h => ⟨a, rfl, h⟩, ?_⟩
      rintro ⟨_, h, h'⟩; cases h; exact h'

theorem Except.map_eq_ok {ε : Type*} {α β : Type _} {x : Except ε α} {f : α → β} {b : β} :
    x.map f = .ok b ↔ ∃ a, x = .ok a ∧ f a = b := by
  cases x with
  | error e =>
      refine iff_of_false nofun ?_
      rintro ⟨_, h, _⟩; cases h
  | ok a =>
      constructor
      · intro h; cases h; exact ⟨a, rfl, rfl⟩
      · rintro ⟨_, h, rfl⟩; cases h; rfl

theorem Except.exists_of_any {ε α : Type*} {x : Except ε α} {p : α → Bool} (h : x.toOption.any p = true) :
    ∃ a, x = .ok a ∧ p a = true := by
  cases x with
  | error e => cases h
  | ok a => exact ⟨a, rfl, h⟩

/-! ## 起こらない失敗 -/

/-- `x` は `bad` で失敗せず、結果は `Q` を満たす。ほかの失敗はあってよい。 -/
def Except.Meets {ε α : Type*} (bad : ε) (x : Except ε α) (Q : α → Prop) : Prop :=
  x ≠ .error bad ∧ ∀ a, x = .ok a → Q a

namespace Except.Meets

variable {ε : Type*} {α β : Type _} {bad : ε} {x : Except ε α} {Q : α → Prop}

theorem ok {a : α} (h : Q a) : Except.Meets bad (.ok a) Q := by
  refine ⟨nofun, fun b hb => ?_⟩
  cases hb; exact h

theorem mono {R : α → Prop} (h : Except.Meets bad x Q) (hQ : ∀ a, Q a → R a) : Except.Meets bad x R :=
  ⟨h.1, fun a ha => hQ a (h.2 a ha)⟩

theorem bind {f : α → Except ε β} {R : β → Prop} (h : Except.Meets bad x Q) (hf : ∀ a, Q a → Except.Meets bad (f a) R) :
    Except.Meets bad (x >>= f) R := by
  cases x with
  | error e =>
      refine ⟨fun he => h.1 ?_, nofun⟩
      cases he; rfl
  | ok a => exact hf a (h.2 a rfl)

theorem map {f : α → β} {R : β → Prop} (h : Except.Meets bad x Q) (hf : ∀ a, Q a → R (f a)) :
    Except.Meets bad (x.map f) R := by
  cases x with
  | error e =>
      refine ⟨fun he => h.1 ?_, nofun⟩
      cases he; rfl
  | ok a => exact .ok (hf a (h.2 a rfl))

/-- 別の種類の失敗は `bad` ではない。 -/
theorem mapError {ε' : Type*} {y : Except ε' α} {f : ε' → ε} (hf : ∀ e, f e ≠ bad) (h : ∀ a, y = .ok a → Q a) :
    Except.Meets bad (y.mapError f) Q := by
  cases y with
  | error e =>
      refine ⟨fun he => hf e ?_, nofun⟩
      cases he; rfl
  | ok a => exact .ok (h a rfl)

end Except.Meets

/-! ## 到達可能性 -/

section

variable {σ ι ε : Type*}

/-- `Reaches step ok s t` は、条件 `ok` を満たす呼び出しだけで `s` から `t` に至る実行がある、という関係である。 -/
inductive Reaches (step : σ → ι → Except ε σ) (ok : σ → ι → Prop) : σ → σ → Prop
  | refl {s} : Reaches step ok s s
  | tail {s t u i} : Reaches step ok s t → ok t i → step t i = .ok u → Reaches step ok s u

variable {step : σ → ι → Except ε σ} {ok : σ → ι → Prop}

/-- 初期状態で成り立ち、条件を満たすどの呼び出しでも保たれる性質は、到達可能なすべての状態で成り立つ。 -/
theorem Reaches.invariant {P : σ → Prop} {s t : σ} (h : Reaches step ok s t) (h0 : P s)
    (hstep : ∀ u i v, P u → ok u i → step u i = .ok v → P v) : P t := by
  induction h with
  | refl => exact h0
  | tail _ hok hs ih => exact hstep _ _ _ ih hok hs

theorem Reaches.trans {s t u : σ} (h₁ : Reaches step ok s t) (h₂ : Reaches step ok t u) :
    Reaches step ok s u := by
  induction h₂ with
  | refl => exact h₁
  | tail _ hok hs ih => exact .tail ih hok hs

theorem Reaches.mono {ok' : σ → ι → Prop} {s t : σ} (h : Reaches step ok s t)
    (hok : ∀ u i, ok u i → ok' u i) : Reaches step ok' s t := by
  induction h with
  | refl => exact .refl
  | tail _ h1 hs ih => exact .tail ih (hok _ _ h1) hs

/-- 呼び出しの列を順に実行する。条件を満たさない呼び出しか失敗があれば `none` を返す。 -/
def runAll (step : σ → ι → Except ε σ) (ok : σ → ι → Prop) [∀ s i, Decidable (ok s i)] :
    List ι → σ → Option σ
  | [], s => some s
  | i :: is, s =>
      if ok s i then
        match step s i with
        | .ok t => runAll step ok is t
        | .error _ => none
      else none

theorem runAll_reaches [∀ s i, Decidable (ok s i)] {is : List ι} {s t : σ}
    (h : runAll step ok is s = some t) : Reaches step ok s t := by
  induction is generalizing s with
  | nil => simp only [runAll, Option.some.injEq] at h; subst h; exact .refl
  | cons i is ih =>
      simp only [runAll] at h
      split at h
      · rename_i hok
        split at h
        · rename_i u hu
          exact (Reaches.tail .refl hok hu).trans (ih h)
        · cases h
      · cases h

/-- 番号 `0` から順に呼び出す繰り返しの規則。`Q i` は `i` 回目の前に成り立つ。 -/
theorem foldlM_range_rule {Q : Nat → σ → Prop} {f : σ → Nat → Except ε σ} {n : Nat}
    (hstep : ∀ i < n, ∀ s t, Q i s → f s i = .ok t → Q (i + 1) t) {s t : σ} (h0 : Q 0 s)
    (h : (List.range n).foldlM f s = .ok t) : Q n t := by
  induction n generalizing t with
  | zero =>
      cases h
      exact h0
  | succ n ih =>
      rw [List.range_succ, List.foldlM_append] at h
      obtain ⟨u, hu, h⟩ := Except.bind_eq_ok.mp h
      have hu := ih (fun i hi => hstep i (by omega)) hu
      rw [List.foldlM_cons] at h
      obtain ⟨v, hv, h⟩ := Except.bind_eq_ok.mp h
      cases h
      exact hstep n (by omega) u t hu hv

end

end Imx6Bsp.Lib

namespace Imx6Bsp.Lib

/-! ## 失敗しても書き換えが残る呼び出し

C の関数のように、途中で失敗して戻るとき、それまでの書き換えが残る計算を `EStateM` で表す。成功と失敗のそれぞれの後の条件を
`Meets` で述べ、組み立て方ごとの規則を置く。 -/

section

variable {ε σ α β : Type}

/-- `s` から始めた `x` は、成功すれば `Q` を、失敗すれば `E` を満たして終わる。 -/
def Meets (x : EStateM ε σ α) (s : σ) (Q : α → σ → Prop) (E : ε → σ → Prop) : Prop :=
  match x s with
  | .ok a t => Q a t
  | .error e t => E e t

variable {x : EStateM ε σ α} {f : α → EStateM ε σ β} {s : σ} {Q : α → σ → Prop} {E : ε → σ → Prop}

@[simp] theorem meets_pure {a : α} : Meets (pure a : EStateM ε σ α) s Q E ↔ Q a s := Iff.rfl

@[simp] theorem meets_throw {e : ε} : Meets (throw e : EStateM ε σ α) s Q E ↔ E e s := Iff.rfl

@[simp] theorem meets_get {Q : σ → σ → Prop} : Meets (get : EStateM ε σ σ) s Q E ↔ Q s s := Iff.rfl

@[simp] theorem meets_modify {g : σ → σ} {Q : PUnit → σ → Prop} :
    Meets (modify g : EStateM ε σ PUnit) s Q E ↔ Q ⟨⟩ (g s) := Iff.rfl

@[simp] theorem meets_bind {Q : β → σ → Prop} :
    Meets (x >>= f) s Q E ↔ Meets x s (fun a t => Meets (f a) t Q E) E := by
  simp only [Meets, bind, EStateM.bind]
  cases x s with
  | ok a t => rfl
  | error e t => rfl

theorem meets_ite {c : Prop} [Decidable c] {y : EStateM ε σ α} :
    Meets (if c then x else y) s Q E ↔ (c → Meets x s Q E) ∧ (¬c → Meets y s Q E) := by
  by_cases hc : c
  · simp [hc]
  · simp [hc]

theorem Meets.mono {Q' : α → σ → Prop} {E' : ε → σ → Prop} (h : Meets x s Q E) (hQ : ∀ a t, Q a t → Q' a t)
    (hE : ∀ e t, E e t → E' e t) : Meets x s Q' E' := by
  simp only [Meets] at h ⊢
  cases hx : x s with
  | ok a t => rw [hx] at h; exact hQ a t h
  | error e t => rw [hx] at h; exact hE e t h

theorem Meets.and {Q' : α → σ → Prop} {E' : ε → σ → Prop} (h : Meets x s Q E) (h' : Meets x s Q' E') :
    Meets x s (fun a t => Q a t ∧ Q' a t) (fun e t => E e t ∧ E' e t) := by
  simp only [Meets] at h h' ⊢
  cases hx : x s with
  | ok a t => rw [hx] at h h'; exact ⟨h, h'⟩
  | error e t => rw [hx] at h h'; exact ⟨h, h'⟩

theorem Meets.of_ok (h : Meets x s Q E) {a : α} {t : σ} (hx : x s = .ok a t) : Q a t := by
  simp only [Meets, hx] at h; exact h

theorem Meets.of_error (h : Meets x s Q E) {e : ε} {t : σ} (hx : x s = .error e t) : E e t := by
  simp only [Meets, hx] at h; exact h

/-! ### 変わらない欄 -/

/-- `x` は、成功しても失敗しても、状態の `g` の値を変えない。 -/
def Fixes {γ : Type*} (g : σ → γ) (x : EStateM ε σ α) : Prop := ∀ s, Meets x s (fun _ t => g t = g s) (fun _ t => g t = g s)

namespace Fixes

variable {γ : Type*} {g : σ → γ}

theorem pure {a : α} : Fixes g (pure a : EStateM ε σ α) := fun _ => meets_pure.mpr rfl

theorem throw {e : ε} : Fixes g (throw e : EStateM ε σ α) := fun _ => meets_throw.mpr rfl

theorem get : Fixes g (get : EStateM ε σ σ) := fun _ => meets_get.mpr rfl

theorem modify {k : σ → σ} (h : ∀ s, g (k s) = g s) : Fixes g (modify k : EStateM ε σ PUnit) := fun s => meets_modify.mpr (h s)

theorem bind (h : Fixes g x) (hf : ∀ a, Fixes g (f a)) : Fixes g (x >>= f) := by
  intro s
  rw [meets_bind]
  refine (h s).mono ?_ fun e t ht => ht
  intro a t ht
  exact (hf a t).mono (fun _ u hu => hu.trans ht) fun _ u hu => hu.trans ht

theorem ite {c : Prop} [Decidable c] {y : EStateM ε σ α} (h : Fixes g x) (h' : Fixes g y) :
    Fixes g (if c then x else y) := by
  split
  · exact h
  · exact h'

theorem of_ok (h : Fixes g x) {a : α} {t : σ} (hx : x s = .ok a t) : g t = g s := (h s).of_ok hx

theorem of_error (h : Fixes g x) {e : ε} {t : σ} (hx : x s = .error e t) : g t = g s := (h s).of_error hx

end Fixes

/-! ### 保たれる性質 -/

/-- `x` は、成功しても失敗しても、状態の性質 `I` を保つ。 -/
def Stable (I : σ → Prop) (x : EStateM ε σ α) : Prop := ∀ s, I s → Meets x s (fun _ t => I t) (fun _ t => I t)

namespace Stable

variable {I : σ → Prop}

theorem pure {a : α} : Stable I (pure a : EStateM ε σ α) := fun _ h => meets_pure.mpr h

theorem throw {e : ε} : Stable I (throw e : EStateM ε σ α) := fun _ h => meets_throw.mpr h

theorem get : Stable I (get : EStateM ε σ σ) := fun _ h => meets_get.mpr h

theorem modify {k : σ → σ} (h : ∀ s, I s → I (k s)) : Stable I (modify k : EStateM ε σ PUnit) := fun s hs => meets_modify.mpr (h s hs)

theorem bind (h : Stable I x) (hf : ∀ a, Stable I (f a)) : Stable I (x >>= f) := by
  intro s hs
  rw [meets_bind]
  exact (h s hs).mono (fun a t ht => hf a t ht) fun e t ht => ht

theorem ite {c : Prop} [Decidable c] {y : EStateM ε σ α} (h : Stable I x) (h' : Stable I y) : Stable I (if c then x else y) := by
  split
  · exact h
  · exact h'

end Stable

end

end Imx6Bsp.Lib
