import Imx6Bsp.Lib.Division

/-!
# IPL の除算（`divsi3.c`）

`long` と `unsigned long` は 32 ビットで、符号の付いた `bit` の右シフトは符号を保つ。繰り返しは燃料付きの関数で表し、燃料が
尽きれば `none` を返す。
-/

namespace Imx6Bsp.Boot

open Imx6Bsp.Lib

/-! ## 定義 -/

/-- `divmodsi4` の一つ目の繰り返し。除数を被除数に届くまでずらす。 -/
def scaleUp (num : BitVec 32) : Nat → BitVec 32 → BitVec 32 → Option (BitVec 32 × BitVec 32)
  | 0, _, _ => none
  | fuel + 1, den, bit =>
      if den < num ∧ bit ≠ 0 ∧ den &&& 1#32 <<< 31 = 0 then scaleUp num fuel (den <<< 1) (bit <<< 1)
      else some (den, bit)

/-- `divmodsi4` の二つ目の繰り返し。余りと商を返す。 -/
def stepDown : Nat → BitVec 32 → BitVec 32 → BitVec 32 → BitVec 32 → Option (BitVec 32 × BitVec 32)
  | 0, _, _, _, _ => none
  | fuel + 1, num, den, bit, res =>
      if bit ≠ 0 then
        if den ≤ num then stepDown fuel (num - den) (den >>> 1) (bit.sshiftRight 1) (res ||| bit)
        else stepDown fuel num (den >>> 1) (bit.sshiftRight 1) res
      else some (num, res)

def divmodsi4 (fuel : Nat) (modwanted : Bool) (num den : BitVec 32) : Option (BitVec 32) := do
  let (den, bit) ← scaleUp num fuel den 1
  let (num, res) ← stepDown fuel num den bit 0
  if modwanted then return num
  return res

/-- `__modsi3`。 -/
def modsi3 (fuel : Nat) (numerator denominator : BitVec 32) : Option (BitVec 32) := do
  let sign := numerator.slt 0
  let numerator := if numerator.slt 0 then -numerator else numerator
  let denominator := if denominator.slt 0 then -denominator else denominator
  let modul ← divmodsi4 fuel true numerator denominator
  return if sign then -modul else modul

/-- `__divsi3`。 -/
def divsi3 (fuel : Nat) (numerator denominator : BitVec 32) : Option (BitVec 32) := do
  let sign := numerator.slt 0 != denominator.slt 0
  let numerator := if numerator.slt 0 then -numerator else numerator
  let denominator := if denominator.slt 0 then -denominator else denominator
  let dividend ← divmodsi4 fuel false numerator denominator
  return if sign then -dividend else dividend

/-- `__aeabi_uidiv`。引数を符号付きの除算に渡す。 -/
def aeabiUidiv (fuel : Nat) (numerator denominator : BitVec 32) : Option (BitVec 32) :=
  divsi3 fuel numerator denominator

/-- `__umodsi3`。 -/
def umodsi3 (fuel : Nat) (numerator denominator : BitVec 32) : Option (BitVec 32) :=
  divmodsi4 fuel true numerator denominator

/-- `__udivsi3`。 -/
def udivsi3 (fuel : Nat) (numerator denominator : BitVec 32) : Option (BitVec 32) :=
  divmodsi4 fuel false numerator denominator

/-! ## 一つ目の繰り返し -/

theorem and_top_eq_zero (x : BitVec 32) : x &&& 1#32 <<< 31 = 0 ↔ x.toNat < 2 ^ 31 := by
  have h : (x &&& 1#32 <<< 31).toNat = (x.toNat.testBit 31).toNat * 2 ^ 31 := by
    rw [BitVec.toNat_and, show (1#32 <<< 31).toNat = 2 ^ 31 from rfl, Nat.and_two_pow]
  rw [← BitVec.toNat_inj, h, show (0 : BitVec 32).toNat = 0 from rfl]
  have hx := x.isLt
  by_cases hlt : x.toNat < 2 ^ 31
  · rw [Nat.testBit_lt_two_pow hlt]
    exact iff_of_true (Nat.zero_mul _) hlt
  · have htop : x.toNat.testBit 31 = true := by
      rw [Nat.testBit_eq_decide_div_mod_eq, decide_eq_true_eq]
      omega
    rw [htop]
    exact iff_of_false (by decide) hlt

/-- 除数と位は同じだけずれ、被除数の二倍を超えないところで止まる。`1` より大きい除数の位は `31` に届かない。 -/
theorem scaleUp_spec {num : BitVec 32} {d : Nat} (hd : 0 < d) {fuel k : Nat} {den bit : BitVec 32}
    (hden : den.toNat = d * 2 ^ k) (hbit : bit.toNat = 2 ^ k) (hk : k ≤ 31) (hf : 32 < fuel + k)
    (hprev : ∀ j < k, d * 2 ^ j < num.toNat) :
    ∃ k' den' bit', scaleUp num fuel den bit = some (den', bit') ∧ den'.toNat = d * 2 ^ k' ∧ bit'.toNat = 2 ^ k' ∧ k' ≤ 31 ∧
      (num.toNat ≤ d * 2 ^ k' ∨ 2 ^ 31 ≤ d * 2 ^ k') ∧ ∀ j < k', d * 2 ^ j < num.toNat := by
  induction fuel generalizing k den bit with
  | zero => omega
  | succ fuel ih =>
      have hlt := den.isLt
      have hne : bit ≠ 0 := by
        intro h
        have h0 : bit.toNat = 0 := by rw [h]; rfl
        have := Nat.two_pow_pos k
        omega
      by_cases hgo : den < num ∧ bit ≠ 0 ∧ den &&& 1#32 <<< 31 = 0
      · rw [scaleUp, if_pos hgo]
        obtain ⟨hlow, -, htop⟩ := hgo
        have htop := (and_top_eq_zero den).mp htop
        have hlow : d * 2 ^ k < num.toNat := hden ▸ BitVec.lt_def.mp hlow
        have hk30 : k < 31 := by
          by_contra hge
          have : k = 31 := by omega
          subst this
          have : 1 * 2 ^ 31 ≤ d * 2 ^ 31 := Nat.mul_le_mul_right _ hd
          omega
        have hpow : 2 ^ k < 2 ^ 31 := Nat.pow_lt_pow_right (by omega) hk30
        refine ih (k := k + 1) ?_ ?_ (by omega) (by omega) ?_
        · rw [BitVec.toNat_shiftLeft, hden, Nat.shiftLeft_eq, pow_one, pow_succ, Nat.mod_eq_of_lt (by omega)]
          ring
        · rw [BitVec.toNat_shiftLeft, hbit, Nat.shiftLeft_eq, pow_one, Nat.mod_eq_of_lt (by omega), pow_succ]
        · intro j hj
          rcases Nat.lt_succ_iff_lt_or_eq.mp hj with hj | rfl
          · exact hprev j hj
          · exact hlow
      · rw [scaleUp, if_neg hgo]
        refine ⟨k, den, bit, rfl, hden, hbit, hk, ?_, hprev⟩
        rw [← hden]
        by_contra hcon
        push Not at hcon
        exact hgo ⟨BitVec.lt_def.mpr hcon.1, hne, (and_top_eq_zero den).mpr hcon.2⟩

/-! ## 二つ目の繰り返し -/

theorem sshiftRight_toNat {bit : BitVec 32} (h : bit.toNat < 2 ^ 31) : (bit.sshiftRight 1).toNat = bit.toNat / 2 := by
  have hmsb : bit.msb = false := by rw [BitVec.msb_eq_decide]; exact decide_eq_false (by omega)
  rw [BitVec.sshiftRight_eq_of_msb_false hmsb, BitVec.toNat_ushiftRight, Nat.shiftRight_eq_div_pow, pow_one]

/-- 残りの `k` けたの位と除数。`k = 0` のときの除数は使われない。 -/
def Scaled (d k : Nat) (den bit : BitVec 32) : Prop :=
  match k with
  | 0 => bit = 0
  | k + 1 => bit.toNat = 2 ^ k ∧ den.toNat = d * 2 ^ k

theorem Scaled.halve {d k : Nat} {den bit : BitVec 32} (h : Scaled d (k + 1) den bit) (hk : k ≤ 30) :
    Scaled d k (den >>> 1) (bit.sshiftRight 1) := by
  obtain ⟨hbit, hden⟩ := h
  have hlt : 2 ^ k < 2 ^ 31 := Nat.pow_lt_pow_right (by omega) (by omega)
  have hshift := sshiftRight_toNat (hbit ▸ hlt)
  cases k with
  | zero =>
      refine BitVec.eq_of_toNat_eq ?_
      rw [hshift, hbit]
      rfl
  | succ k =>
      refine ⟨?_, ?_⟩
      · rw [hshift, hbit, pow_succ]; omega
      · rw [BitVec.toNat_ushiftRight, hden, Nat.shiftRight_eq_div_pow, pow_one, pow_succ, ← Nat.mul_assoc]
        omega

/-- 位が `2 ^ 30` 以下で始まれば、二つ目の繰り返しは引き戻し除算である。 -/
theorem stepDown_spec {d k : Nat} (hk : k ≤ 31) {fuel : Nat} (hf : k < fuel) {num den bit res : BitVec 32} {a : Nat}
    (hs : Scaled d k den bit) (hres : res.toNat = 2 ^ k * a) :
    ∃ num' res', stepDown fuel num den bit res = some (num', res') ∧ num'.toNat = (restoring d k num.toNat).2 ∧
      res'.toNat = 2 ^ k * a + (restoring d k num.toNat).1 := by
  induction k generalizing fuel num den bit res a with
  | zero =>
      obtain ⟨fuel, rfl⟩ : ∃ f, fuel = f + 1 := ⟨fuel - 1, by omega⟩
      have h0 : ¬bit ≠ 0 := not_not.mpr hs
      exact ⟨num, res, by rw [stepDown, if_neg h0], rfl, hres⟩
  | succ k ih =>
      obtain ⟨fuel, rfl⟩ : ∃ f, fuel = f + 1 := ⟨fuel - 1, by omega⟩
      have hnext := hs.halve (by omega)
      obtain ⟨hbit, hden⟩ := hs
      have hne : bit ≠ 0 := by
        intro h
        have h0 : bit.toNat = 0 := by rw [h]; rfl
        have := Nat.two_pow_pos k
        omega
      rw [stepDown, if_pos hne]
      by_cases hle : den ≤ num
      · have hle' : d * 2 ^ k ≤ num.toNat := hden ▸ BitVec.le_def.mp hle
        have hor : (res ||| bit).toNat = 2 ^ k * (2 * a + 1) := by
          rw [BitVec.toNat_or, hres, hbit, or_two_pow, pow_succ]; ring
        have hsub : (num - den).toNat = num.toNat - d * 2 ^ k := by rw [BitVec.toNat_sub_of_le hle, hden]
        obtain ⟨num', res', hrun, hnum', hres'⟩ :=
          @ih (by omega) fuel (by omega) (num - den) (den >>> 1) (bit.sshiftRight 1) (res ||| bit) (2 * a + 1) hnext hor
        rw [if_pos hle]
        refine ⟨num', res', hrun, ?_, ?_⟩
        · rw [hnum', hsub, restoring, if_pos hle']
        · rw [hres', hsub, restoring, if_pos hle', pow_succ]; ring
      · have hle' : ¬d * 2 ^ k ≤ num.toNat := fun h => hle (BitVec.le_def.mpr (hden ▸ h))
        have hkeep : res.toNat = 2 ^ k * (2 * a) := by rw [hres, pow_succ]; ring
        obtain ⟨num', res', hrun, hnum', hres'⟩ :=
          @ih (by omega) fuel (by omega) num (den >>> 1) (bit.sshiftRight 1) res (2 * a) hnext hkeep
        rw [if_neg hle]
        refine ⟨num', res', hrun, ?_, ?_⟩
        · rw [hnum', restoring, if_neg hle']
        · rw [hres', restoring, if_neg hle', pow_succ]; ring

/-- 最上位の位は、右シフトで消えない。 -/
theorem stepDown_diverges {bit : BitVec 32} (h : bit.msb = true) (fuel : Nat) (num den res : BitVec 32) :
    stepDown fuel num den bit res = none := by
  induction fuel generalizing num den bit res with
  | zero => rfl
  | succ fuel ih =>
      have hne : bit ≠ 0 := by rintro rfl; cases h
      have hmsb : (bit.sshiftRight 1).msb = true := by rw [BitVec.msb_sshiftRight]; exact h
      rw [stepDown, if_pos hne]
      split
      · exact ih hmsb ..
      · exact ih hmsb ..

/-! ## 除算全体 -/

/-- 除数が `0` なら、位が消えるまでずらす。 -/
theorem scaleUp_zero {num : BitVec 32} (h : num ≠ 0) {fuel k : Nat} {bit : BitVec 32} (hbit : bit.toNat = 2 ^ k % 2 ^ 32)
    (hk : k ≤ 32) (hf : 32 < fuel + k) : scaleUp num fuel 0 bit = some (0, 0) := by
  induction fuel generalizing k bit with
  | zero => omega
  | succ fuel ih =>
      have hlow : (0 : BitVec 32) < num := BitVec.lt_def.mpr (Nat.pos_of_ne_zero fun h0 => h (BitVec.eq_of_toNat_eq h0))
      by_cases hlast : k = 32
      · subst hlast
        have h0 : bit = 0 := BitVec.eq_of_toNat_eq (by rw [hbit]; rfl)
        rw [scaleUp, if_neg (by simp [h0]), h0]
      · have hpow : 2 ^ k < 2 ^ 32 := Nat.pow_lt_pow_right (by omega) (by omega)
        have hne : bit ≠ 0 := by
          rintro rfl
          have := Nat.two_pow_pos k
          rw [Nat.mod_eq_of_lt hpow] at hbit
          exact absurd hbit.symm (by simp)
        rw [scaleUp, if_pos ⟨hlow, hne, by simp⟩, show (0 : BitVec 32) <<< 1 = 0 from rfl]
        refine ih (k := k + 1) ?_ (by omega) (by omega)
        rw [BitVec.toNat_shiftLeft, hbit, Nat.mod_eq_of_lt hpow, Nat.shiftLeft_eq, pow_one, ← Nat.pow_succ]

/-- `divmodsi4` の結果。`none` は止まらないことを表す。 -/
def quotRem (modwanted : Bool) (num den : BitVec 32) : Option (BitVec 32) :=
  if den = 1 ∧ 2 ^ 30 < num.toNat then none
  else if modwanted then some (num % den)
  else if num = 0 ∧ den = 0 then some 1 else some (num / den)

theorem divmodsi4_zero {fuel : Nat} (hf : 33 ≤ fuel) (modwanted : Bool) (num : BitVec 32) :
    divmodsi4 fuel modwanted num 0 = quotRem modwanted num 0 := by
  obtain ⟨fuel, rfl⟩ : ∃ f, fuel = f + 2 := ⟨fuel - 2, by omega⟩
  by_cases hnum : num = 0
  · subst hnum
    have hup : scaleUp 0 (fuel + 2) 0 1 = some (0, 1) := by rw [scaleUp, if_neg (by simp)]
    have hdown : stepDown (fuel + 2) 0 0 1 0 = some (0, 1) := by
      rw [stepDown, if_pos (by decide), if_pos (by decide), stepDown, if_neg (by decide)]
      rfl
    simp only [divmodsi4, hup, hdown, Option.bind_eq_bind, Option.bind_some, quotRem]
    cases modwanted <;> rfl
  · have hup : scaleUp num (fuel + 2) 0 1 = some (0, 0) := scaleUp_zero hnum (k := 0) rfl (by omega) (by omega)
    have hdown : stepDown (fuel + 2) num 0 0 0 = some (num, 0) := by rw [stepDown, if_neg (by decide)]
    simp only [divmodsi4, hup, hdown, Option.bind_eq_bind, Option.bind_some, quotRem]
    have hne : ¬num = 0#32 := hnum
    cases modwanted <;> simp [hne]

/-- 除数が `1` で被除数が `2 ^ 30` を超えるときに限り、`divmodsi4` は止まらない。止まれば余りと商は正しく、除数が `0` のときは余り
として被除数を、商として `0` を返す。`0` を `0` で割った商だけは `1` である。 -/
theorem divmodsi4_eq {fuel : Nat} (hf : 33 ≤ fuel) (modwanted : Bool) (num den : BitVec 32) :
    divmodsi4 fuel modwanted num den = quotRem modwanted num den := by
  by_cases hden : den = 0
  · rw [hden]
    exact divmodsi4_zero hf modwanted num
  · have hpos : 0 < den.toNat := by
      rcases Nat.eq_zero_or_pos den.toNat with h | h
      · exact absurd (BitVec.eq_of_toNat_eq h) hden
      · exact h
    obtain ⟨k, den', bit', hup, hden', hbit', hk, hstop, hprev⟩ :=
      scaleUp_spec hpos (show den.toNat = den.toNat * 2 ^ 0 by simp) (show (1 : BitVec 32).toNat = 2 ^ 0 from rfl)
        (Nat.zero_le _) (show 32 < fuel + 0 by omega) (show ∀ j < 0, den.toNat * 2 ^ j < num.toNat from nofun)
    have hlt := den'.isLt
    have hnum := num.isLt
    rw [hden'] at hlt
    by_cases hlast : k = 31
    · -- 除数は `1` で、位は符号のけたに届いた。
      subst hlast
      have hone : den.toNat = 1 := by
        by_contra hne
        have : 2 * 2 ^ 31 ≤ den.toNat * 2 ^ 31 := Nat.mul_le_mul_right _ (by omega)
        omega
      have hbig : 2 ^ 30 < num.toNat := by simpa [hone] using hprev 30 (by omega)
      have hmsb : bit'.msb = true := by rw [BitVec.msb_eq_decide, hbit']; rfl
      have hden1 : den = 1 := BitVec.eq_of_toNat_eq hone
      simp only [divmodsi4, hup, stepDown_diverges hmsb, Option.bind_eq_bind, Option.bind_some, Option.bind_none, quotRem]
      rw [if_pos ⟨hden1, hbig⟩]
    · have hk30 : k ≤ 30 := by omega
      have hsmall : ¬(den = 1 ∧ 2 ^ 30 < num.toNat) := by
        rintro ⟨rfl, hbig⟩
        have hpow : 2 ^ k ≤ 2 ^ 30 := Nat.pow_le_pow_right (by omega) hk30
        have hone : (1 : BitVec 32).toNat * 2 ^ k = 2 ^ k := Nat.one_mul _
        rw [hone] at hstop
        omega
      have hfit : num.toNat < den.toNat * 2 ^ (k + 1) := by
        have hsplit : den.toNat * 2 ^ (k + 1) = den.toNat * 2 ^ k + den.toNat * 2 ^ k := by rw [pow_succ]; ring
        have := Nat.mul_pos hpos (Nat.two_pow_pos k)
        omega
      obtain ⟨num', res', hdown, hnum', hres'⟩ :=
        stepDown_spec (k := k + 1) (a := 0) (by omega) (show k + 1 < fuel by omega) ⟨hbit', hden'⟩
          (show (0 : BitVec 32).toNat = 2 ^ (k + 1) * 0 from rfl)
      rw [restoring_eq hpos hfit] at hnum' hres'
      have hmod : num' = num % den := BitVec.eq_of_toNat_eq (by rw [hnum', BitVec.toNat_umod])
      have hdiv : res' = num / den := BitVec.eq_of_toNat_eq (by rw [hres', BitVec.toNat_udiv]; simp)
      simp only [divmodsi4, hup, hdown, Option.bind_eq_bind, Option.bind_some, quotRem]
      rw [if_neg hsmall, if_neg (show ¬(num = 0 ∧ den = 0) from fun h => hden h.2), hmod, hdiv]
      cases modwanted <;> rfl

/-- 符号なしの除算。 -/
theorem udivsi3_umodsi3_eq {fuel : Nat} (hf : 33 ≤ fuel) (num den : BitVec 32) :
    (umodsi3 fuel num den = if den = 1 ∧ 2 ^ 30 < num.toNat then none else some (num % den)) ∧
      udivsi3 fuel num den =
        if den = 1 ∧ 2 ^ 30 < num.toNat then none else if num = 0 ∧ den = 0 then some 1 else some (num / den) :=
  ⟨divmodsi4_eq hf true num den, divmodsi4_eq hf false num den⟩

theorem udivsi3_umodsi3_eq_sample : udivsi3 33 100 7 = some 14 ∧ umodsi3 33 100 7 = some 2 := by
  obtain ⟨hm, hd⟩ := udivsi3_umodsi3_eq (show 33 ≤ 33 by decide) 100 7
  exact ⟨hd, hm⟩

/-! ## 符号付きの除算 -/

theorem slt_zero (x : BitVec 32) : x.slt 0 = x.msb := by
  rw [BitVec.slt_eq_decide, BitVec.msb_eq_toInt]
  rfl

theorem abs_eq_zero {x : BitVec 32} : x.abs = 0 ↔ x = 0 := by
  rw [BitVec.abs_eq]
  split
  · exact BitVec.neg_eq_zero_iff
  · exact Iff.rfl

theorem modsi3_eq {fuel : Nat} (hf : 33 ≤ fuel) (num den : BitVec 32) :
    modsi3 fuel num den = if den.abs = 1 ∧ 2 ^ 30 < num.abs.toNat then none else some (num.srem den) := by
  simp only [modsi3, slt_zero, ← BitVec.abs_eq, divmodsi4_eq hf, quotRem, ↓reduceIte]
  split
  · rfl
  · rw [BitVec.srem_eq]
    cases hn : num.msb <;> cases hd : den.msb <;> simp [BitVec.abs_eq, hn, hd]

theorem divsi3_eq {fuel : Nat} (hf : 33 ≤ fuel) (num den : BitVec 32) :
    divsi3 fuel num den =
      if den.abs = 1 ∧ 2 ^ 30 < num.abs.toNat then none
      else if num = 0 ∧ den = 0 then some 1 else some (num.sdiv den) := by
  simp only [divsi3, slt_zero, ← BitVec.abs_eq, divmodsi4_eq hf, quotRem, abs_eq_zero, Bool.false_eq_true, ↓reduceIte]
  split
  · rfl
  · split
    · rename_i h
      rw [h.1, h.2]
      rfl
    · rw [BitVec.sdiv_eq]
      cases hn : num.msb <;> cases hd : den.msb <;> simp [BitVec.abs_eq, hn, hd]

/-- 符号付きの除算は、絶対値の除算が止まるとき、`0` に向けて丸めた商と、被除数の符号の余りを返す。符号なしの除算のための
`__aeabi_uidiv` も符号付きの除算であり、両方の引数が `2 ^ 31` より小さければ符号なしの商に等しい。 -/
theorem divsi3_modsi3_eq {fuel : Nat} (hf : 33 ≤ fuel) (num den : BitVec 32) :
    (modsi3 fuel num den = if den.abs = 1 ∧ 2 ^ 30 < num.abs.toNat then none else some (num.srem den)) ∧
      (divsi3 fuel num den =
        if den.abs = 1 ∧ 2 ^ 30 < num.abs.toNat then none
        else if num = 0 ∧ den = 0 then some 1 else some (num.sdiv den)) ∧
      (num.toNat < 2 ^ 31 → den.toNat < 2 ^ 31 → aeabiUidiv fuel num den = udivsi3 fuel num den) := by
  refine ⟨modsi3_eq hf num den, divsi3_eq hf num den, fun hn hd => ?_⟩
  have hnm : num.msb = false := by rw [BitVec.msb_eq_decide]; exact decide_eq_false (by omega)
  have hdm : den.msb = false := by rw [BitVec.msb_eq_decide]; exact decide_eq_false (by omega)
  have hdiv : num.sdiv den = num / den := by rw [BitVec.sdiv_eq, hnm, hdm]; rfl
  rw [aeabiUidiv, divsi3_eq hf, udivsi3, divmodsi4_eq hf, quotRem, BitVec.abs_eq, BitVec.abs_eq, hnm, hdm, hdiv]
  rfl

theorem divsi3_modsi3_eq_sample : divsi3 33 (-100) 7 = some (-14) ∧ modsi3 33 (-100) 7 = some (-2) := by
  obtain ⟨hm, hd, -⟩ := divsi3_modsi3_eq (show 33 ≤ 33 by decide) (-100) 7
  exact ⟨hd, hm⟩

end Imx6Bsp.Boot
