import Imx6Bsp.Lib.Division

/-!
# PWM の設定（`div64.c`、`imx_pwm.c`）

`unsigned long` は 32 ビット、`unsigned long long` は 64 ビットである。`mxc_get_clock()` の返す周波数は引数とし、レジスタの領域の
先頭からの位置と値の書き込みの列を結果とする。
-/

namespace Imx6Bsp.Pwm

open Imx6Bsp.Lib

/-! ## 64 ビットの除算 -/

/-- `__div64_32` の一つ目の繰り返し。 -/
def div64Up (rem : BitVec 64) : Nat → BitVec 64 → BitVec 64 → Option (BitVec 64 × BitVec 64)
  | 0, _, _ => none
  | fuel + 1, b, d => if 0 < b.toInt ∧ b < rem then div64Up rem fuel (b + b) (d + d) else some (b, d)

/-- `__div64_32` の二つ目の繰り返し。商と余りを返す。 -/
def div64Down : Nat → BitVec 64 → BitVec 64 → BitVec 64 → BitVec 64 → Option (BitVec 64 × BitVec 64)
  | 0, _, _, _, _ => none
  | fuel + 1, rem, b, d, res =>
      let rem' := if b ≤ rem then rem - b else rem
      let res' := if b ≤ rem then res + d else res
      if d >>> 1 ≠ 0 then div64Down fuel rem' (b >>> 1) (d >>> 1) res' else some (res', rem')

/-- `__div64_32`。商と余りを返す。 -/
def div64By32 (fuel : Nat) (n : BitVec 64) (base : BitVec 32) : Option (BitVec 64 × BitVec 32) := do
  let high := (n >>> 32).setWidth 32
  let q := high / base
  let res := if base ≤ high then (q.setWidth 64) <<< 32 else 0
  let rem := if base ≤ high then n - ((q * base).setWidth 64) <<< 32 else n
  let (b, d) ← div64Up rem fuel (base.setWidth 64) 1
  let (res, rem) ← div64Down fuel rem b d res
  return (res, rem.setWidth 32)

/-- `do_div`。上位の 32 ビットが空なら、その場で割る。 -/
def doDiv (fuel : Nat) (n : BitVec 64) (base : BitVec 32) : Option (BitVec 64 × BitVec 32) :=
  if n >>> 32 = 0 then
    some (((n.setWidth 32) / base).setWidth 64, n.setWidth 32 % base)
  else div64By32 fuel n base

/-! ### 繰り返しの仕様 -/

theorem toInt_pos_iff (b : BitVec 64) : 0 < b.toInt ↔ 0 < b.toNat ∧ b.toNat < 2 ^ 63 := by
  rw [BitVec.toInt_eq_toNat_cond]
  have := b.isLt
  split <;> omega

theorem div64Up_spec {rem : BitVec 64} {base : Nat} (hb : 0 < base) {fuel k : Nat} {b d : BitVec 64}
    (hbv : b.toNat = base * 2 ^ k) (hdv : d.toNat = 2 ^ k) (hf : 64 < fuel + k) :
    ∃ k' b' d', div64Up rem fuel b d = some (b', d') ∧ b'.toNat = base * 2 ^ k' ∧ d'.toNat = 2 ^ k' ∧
      rem.toNat < base * 2 ^ (k' + 1) := by
  induction fuel generalizing k b d with
  | zero =>
      have h64 : 2 ^ 64 ≤ 2 ^ k := Nat.pow_le_pow_right (by omega) (by omega)
      have := d.isLt
      omega
  | succ fuel ih =>
      have hsplit : base * 2 ^ (k + 1) = b.toNat + b.toNat := by rw [hbv, pow_succ]; ring
      have hle : 2 ^ k ≤ base * 2 ^ k := Nat.le_mul_of_pos_left _ hb
      by_cases hgo : 0 < b.toInt ∧ b < rem
      · rw [div64Up, if_pos hgo]
        obtain ⟨hpos, hlt⟩ := hgo
        have h63 := ((toInt_pos_iff b).mp hpos).2
        refine ih (k := k + 1) ?_ ?_ (by omega)
        · rw [BitVec.toNat_add, Nat.mod_eq_of_lt (by omega), hsplit]
        · rw [BitVec.toNat_add, Nat.mod_eq_of_lt (by omega), hdv, pow_succ]; ring
      · rw [div64Up, if_neg hgo]
        refine ⟨k, b, d, rfl, hbv, hdv, ?_⟩
        have hpos : 0 < b.toNat := by rw [hbv]; exact Nat.mul_pos hb (Nat.two_pow_pos k)
        have hstop : ¬b.toNat < 2 ^ 63 ∨ ¬b.toNat < rem.toNat := by
          by_contra hcon
          push Not at hcon
          exact hgo ⟨(toInt_pos_iff b).mpr ⟨hpos, hcon.1⟩, BitVec.lt_def.mpr hcon.2⟩
        have := rem.isLt
        omega

theorem ushiftRight_one_toNat (x : BitVec 64) : (x >>> 1).toNat = x.toNat / 2 := by
  rw [BitVec.toNat_ushiftRight, Nat.shiftRight_eq_div_pow, pow_one]

/-- 商が 64 ビットに収まれば、二つ目の繰り返しは引き戻し除算である。 -/
theorem div64Down_spec {base k fuel : Nat} (hf : k < fuel) {rem b d res : BitVec 64} (hbv : b.toNat = base * 2 ^ k)
    (hdv : d.toNat = 2 ^ k) (hres : res.toNat + (restoring base (k + 1) rem.toNat).1 < 2 ^ 64) :
    ∃ res' rem', div64Down fuel rem b d res = some (res', rem') ∧
      res'.toNat = res.toNat + (restoring base (k + 1) rem.toNat).1 ∧
      rem'.toNat = (restoring base (k + 1) rem.toNat).2 := by
  induction k generalizing fuel rem b d res with
  | zero =>
      obtain ⟨fuel, rfl⟩ : ∃ f, fuel = f + 1 := ⟨fuel - 1, by omega⟩
      have hlast : ¬d >>> 1 ≠ 0 := by
        refine not_not.mpr (BitVec.eq_of_toNat_eq ?_)
        rw [ushiftRight_one_toNat, hdv]
        rfl
      simp only [div64Down, if_neg hlast]
      by_cases hle : b ≤ rem
      · have hle' : base * 2 ^ 0 ≤ rem.toNat := hbv ▸ BitVec.le_def.mp hle
        rw [restoring, if_pos hle'] at hres ⊢
        refine ⟨_, _, rfl, ?_, ?_⟩
        · rw [if_pos hle, BitVec.toNat_add, hdv, Nat.mod_eq_of_lt (by simpa [restoring] using hres)]
          rfl
        · rw [if_pos hle, BitVec.toNat_sub_of_le hle, hbv]
          rfl
      · have hle' : ¬base * 2 ^ 0 ≤ rem.toNat := fun h => hle (BitVec.le_def.mpr (hbv ▸ h))
        rw [restoring, if_neg hle']
        exact ⟨_, _, rfl, by rw [if_neg hle]; rfl, by rw [if_neg hle]; rfl⟩
  | succ k ih =>
      obtain ⟨fuel, rfl⟩ : ∃ f, fuel = f + 1 := ⟨fuel - 1, by omega⟩
      have hpow : 2 ^ (k + 1) = 2 * 2 ^ k := by rw [pow_succ]; ring
      have hd : (d >>> 1).toNat = 2 ^ k := by rw [ushiftRight_one_toNat, hdv, hpow]; omega
      have hb : (b >>> 1).toNat = base * 2 ^ k := by
        rw [ushiftRight_one_toNat, hbv, hpow, ← Nat.mul_assoc, Nat.mul_comm base 2, Nat.mul_assoc]; omega
      have hmore : d >>> 1 ≠ 0 := by
        intro h
        have h0 : (d >>> 1).toNat = 0 := by rw [h]; rfl
        have := Nat.two_pow_pos k
        omega
      simp only [div64Down, if_pos hmore]
      by_cases hle : b ≤ rem
      · have hle' : base * 2 ^ (k + 1) ≤ rem.toNat := hbv ▸ BitVec.le_def.mp hle
        have hsub : (rem - b).toNat = rem.toNat - base * 2 ^ (k + 1) := by rw [BitVec.toNat_sub_of_le hle, hbv]
        rw [restoring, if_pos hle'] at hres ⊢
        simp only [← hsub] at hres ⊢
        have hadd : (res + d).toNat = res.toNat + 2 ^ (k + 1) := by
          rw [BitVec.toNat_add, hdv, Nat.mod_eq_of_lt (by omega)]
        obtain ⟨res', rem', hrun, hres', hrem'⟩ := @ih fuel (by omega) (rem - b) (b >>> 1) (d >>> 1) (res + d) hb hd
          (by omega)
        rw [if_pos hle, if_pos hle]
        exact ⟨res', rem', hrun, by omega, hrem'⟩
      · have hle' : ¬base * 2 ^ (k + 1) ≤ rem.toNat := fun h => hle (BitVec.le_def.mpr (hbv ▸ h))
        rw [restoring, if_neg hle'] at hres ⊢
        rw [if_neg hle, if_neg hle]
        exact @ih fuel (by omega) rem (b >>> 1) (d >>> 1) res hb hd hres

/-- 除数が `0` でなければ、`__div64_32` は止まり、商と余りは正しい。 -/
theorem div64By32_eq {fuel : Nat} (hf : 65 ≤ fuel) (n : BitVec 64) {base : BitVec 32} (hbase : base ≠ 0) :
    div64By32 fuel n base = some (n / base.setWidth 64, (n % base.setWidth 64).setWidth 32) := by
  have hpos : 0 < base.toNat := Nat.pos_of_ne_zero fun h => hbase (BitVec.eq_of_toNat_eq h)
  have hn := n.isLt
  have hb := base.isLt
  have hwide : (base.setWidth 64).toNat = base.toNat := by
    rw [BitVec.toNat_setWidth, Nat.mod_eq_of_lt (by omega)]
  have hhigh : ((n >>> 32).setWidth 32).toNat = n.toNat / 2 ^ 32 := by
    rw [BitVec.toNat_setWidth, BitVec.toNat_ushiftRight, Nat.shiftRight_eq_div_pow, Nat.mod_eq_of_lt (by omega)]
  generalize hhv : (n >>> 32).setWidth 32 = high at hhigh
  have hq : (high / base).toNat = high.toNat / base.toNat := BitVec.toNat_udiv
  have hhlt := high.isLt
  have hmul : high.toNat / base.toNat * base.toNat ≤ high.toNat := Nat.div_mul_le_self ..
  have hqle : high.toNat / base.toNat ≤ high.toNat := Nat.div_le_self ..
  have hshift (x : BitVec 32) : ((x.setWidth 64) <<< 32).toNat = x.toNat * 2 ^ 32 := by
    have := x.isLt
    rw [BitVec.toNat_shiftLeft, BitVec.toNat_setWidth, Nat.shiftLeft_eq, Nat.mod_eq_of_lt (show x.toNat < 2 ^ 64 by omega),
      Nat.mod_eq_of_lt (by omega)]
  -- 上位を割った後の商と被除数。割らなければ、その商は `0` である。
  have hres : (if base ≤ high then ((high / base).setWidth 64) <<< 32 else 0).toNat = high.toNat / base.toNat * 2 ^ 32 := by
    split
    · rw [hshift, hq]
    · rename_i hlt
      rw [Nat.div_eq_of_lt (Nat.not_le.mp fun h => hlt (BitVec.le_def.mpr h)), Nat.zero_mul]
      rfl
  have hrem : (if base ≤ high then n - ((high / base * base).setWidth 64) <<< 32 else n).toNat =
      n.toNat - high.toNat / base.toNat * base.toNat * 2 ^ 32 := by
    split
    · have hprod : (high / base * base).toNat = high.toNat / base.toNat * base.toNat := by
        rw [BitVec.toNat_mul, hq, Nat.mod_eq_of_lt (by omega)]
      have hle : ((high / base * base).setWidth 64) <<< 32 ≤ n := by
        rw [BitVec.le_def, hshift, hprod]
        omega
      rw [BitVec.toNat_sub_of_le hle, hshift, hprod]
    · rename_i hlt
      rw [Nat.div_eq_of_lt (Nat.not_le.mp fun h => hlt (BitVec.le_def.mpr h)), Nat.zero_mul, Nat.zero_mul, Nat.sub_zero]
  simp only [div64By32, hhv]
  generalize (if base ≤ high then ((high / base).setWidth 64) <<< 32 else 0) = res at hres ⊢
  generalize (if base ≤ high then n - ((high / base * base).setWidth 64) <<< 32 else n) = rem at hrem ⊢
  have hsum : n.toNat = rem.toNat + base.toNat * res.toNat := by
    rw [hrem, hres, ← Nat.mul_assoc, Nat.mul_comm base.toNat]
    omega
  have hdiv : n.toNat / base.toNat = res.toNat + rem.toNat / base.toNat := by
    rw [hsum, Nat.add_mul_div_left _ _ hpos, Nat.add_comm]
  have hmod : n.toNat % base.toNat = rem.toNat % base.toNat := by rw [hsum, Nat.add_mul_mod_self_left]
  obtain ⟨k, b, d, hup, hbv, hdv, hlt⟩ := @div64Up_spec rem base.toNat hpos fuel 0 (base.setWidth 64) 1
    (by rw [hwide]; simp) rfl (by omega)
  have hk : k < fuel := by
    by_contra hge
    have h64 : 2 ^ 64 ≤ 2 ^ k := Nat.pow_le_pow_right (by omega) (by omega)
    have := d.isLt
    omega
  have hquot : n.toNat / base.toNat < 2 ^ 64 := lt_of_le_of_lt (Nat.div_le_self ..) hn
  obtain ⟨res', rem', hdown, hres', hrem'⟩ := @div64Down_spec base.toNat k fuel hk rem b d res hbv hdv
    (by rw [restoring_eq hpos hlt]; show res.toNat + rem.toNat / base.toNat < 2 ^ 64; omega)
  rw [restoring_eq hpos hlt] at hres' hrem'
  simp only [hup, hdown, Option.bind_eq_bind, Option.bind_some]
  have hr1 : res' = n / base.setWidth 64 := BitVec.eq_of_toNat_eq (by rw [hres', BitVec.toNat_udiv, hwide, hdiv])
  have hr2 : rem' = n % base.setWidth 64 := BitVec.eq_of_toNat_eq (by rw [hrem', BitVec.toNat_umod, hwide, hmod])
  rw [hr1, hr2]
  rfl

theorem doDiv_eq {fuel : Nat} (hf : 65 ≤ fuel) (n : BitVec 64) {base : BitVec 32} (hbase : base ≠ 0) :
    doDiv fuel n base = some (n / base.setWidth 64, (n % base.setWidth 64).setWidth 32) := by
  unfold doDiv
  split
  · rename_i hsmall
    have hb := base.isLt
    have hwide : (base.setWidth 64).toNat = base.toNat := by
      rw [BitVec.toNat_setWidth, Nat.mod_eq_of_lt (by omega)]
    have hlt : n.toNat < 2 ^ 32 := by
      have h0 : (n >>> 32).toNat = 0 := by rw [hsmall]; rfl
      rw [BitVec.toNat_ushiftRight, Nat.shiftRight_eq_div_pow] at h0
      omega
    have hlow : (n.setWidth 32).toNat = n.toNat := by rw [BitVec.toNat_setWidth, Nat.mod_eq_of_lt hlt]
    have hquot : n.toNat / base.toNat ≤ n.toNat := Nat.div_le_self ..
    have hrem : n.toNat % base.toNat ≤ n.toNat := Nat.mod_le ..
    have h1 : (n.setWidth 32 / base).setWidth 64 = n / base.setWidth 64 := BitVec.eq_of_toNat_eq (by
      rw [BitVec.toNat_setWidth, BitVec.toNat_udiv, BitVec.toNat_udiv, hlow, hwide, Nat.mod_eq_of_lt (by omega)])
    have h2 : n.setWidth 32 % base = (n % base.setWidth 64).setWidth 32 := BitVec.eq_of_toNat_eq (by
      rw [BitVec.toNat_umod, hlow, BitVec.toNat_setWidth, BitVec.toNat_umod, hwide,
        Nat.mod_eq_of_lt (show n.toNat % base.toNat < 2 ^ 32 by omega)])
    rw [h1, h2]
  · exact div64By32_eq hf n hbase

/-- `do_div` の注釈のとおりの商と余り。 -/
theorem doDiv_toNat {fuel : Nat} (hf : 65 ≤ fuel) (n : BitVec 64) {base : BitVec 32} (hbase : base ≠ 0) :
    ∃ q r, doDiv fuel n base = some (q, r) ∧ q.toNat = n.toNat / base.toNat ∧ r.toNat = n.toNat % base.toNat := by
  have hpos : 0 < base.toNat := Nat.pos_of_ne_zero fun h => hbase (BitVec.eq_of_toNat_eq h)
  have hb := base.isLt
  have hwide : (base.setWidth 64).toNat = base.toNat := by
    rw [BitVec.toNat_setWidth, Nat.mod_eq_of_lt (by omega)]
  refine ⟨_, _, doDiv_eq hf n hbase, ?_, ?_⟩
  · rw [BitVec.toNat_udiv, hwide]
  · have := Nat.mod_lt n.toNat hpos
    rw [BitVec.toNat_setWidth, BitVec.toNat_umod, hwide, Nat.mod_eq_of_lt (by omega)]

theorem doDiv_toNat_sample : ∃ q r, doDiv 65 0x123456789abcdef 1000 = some (q, r) ∧ q.toNat = 81985529216486 ∧ r.toNat = 895 :=
  doDiv_toNat (show 65 ≤ 65 by decide) 0x123456789abcdef (show (1000 : BitVec 32) ≠ 0 by decide)

/-! ## 周期とデューティの設定 -/

def mx3Pwmcr : Nat := 0x00
def mx3Pwmsar : Nat := 0x0C
def mx3Pwmpr : Nat := 0x10

/-- `MX3_PWMCR_PRESCALER(x)`。 -/
def mx3PwmcrPrescaler (x : BitVec 32) : BitVec 32 := ((x - 1) &&& 0xFFF) <<< 4

/-- `DOZEEN`、`WAITEN`、`DBGEN`、`CLKSRC_IPG_HIGH`、`EN`。 -/
def mx3PwmcrOn : BitVec 32 := 1#32 <<< 24 ||| 1#32 <<< 23 ||| 1#32 <<< 22 ||| 2#32 <<< 16 ||| 1#32

/-- `imx_pwm_config`。書き込みの列を返す。`clock` は `mxc_get_clock()` の値である。 -/
def imxPwmConfig (fuel : Nat) (clock dutyNs periodNs : BitVec 32) : Option (List (Nat × BitVec 32)) := do
  let (c, _) ← doDiv fuel (clock.setWidth 64 * periodNs.signExtend 64) 1000000000
  let periodCycles := c.setWidth 32
  let prescale := periodCycles / 0x10000 + 1
  let periodCycles := periodCycles / prescale
  let (c, _) ← doDiv fuel (periodCycles.setWidth 64 * dutyNs.signExtend 64) periodNs
  let dutyCycles := c.setWidth 32
  let periodCycles := if 2 < periodCycles then periodCycles - 2 else 0
  return [(mx3Pwmsar, dutyCycles), (mx3Pwmpr, periodCycles), (mx3Pwmcr, mx3PwmcrPrescaler prescale ||| mx3PwmcrOn)]

/-- 一周期の時計の数。 -/
def cycles (clock periodNs : BitVec 32) : Nat := clock.toNat * periodNs.toNat / 1000000000 % 2 ^ 32

/-- 分周した一周期の数。 -/
def steps (clock periodNs : BitVec 32) : Nat := cycles clock periodNs / (cycles clock periodNs / 0x10000 + 1)

theorem steps_lt (clock periodNs : BitVec 32) : steps clock periodNs < 0x10000 := by
  unfold steps
  rw [Nat.div_lt_iff_lt_mul (by omega)]
  omega

theorem prescaler_field (x : BitVec 32) :
    (((x &&& 0xFFF) <<< 4 ||| mx3PwmcrOn) >>> 4) &&& 0xFFF = x &&& 0xFFF := by
  ext i hi
  interval_cases i <;> simp [mx3PwmcrOn]

theorem signExtend_toNat {x : BitVec 32} (h : x.toNat < 2 ^ 31) : (x.signExtend 64).toNat = x.toNat := by
  have hmsb : x.msb = false := by rw [BitVec.msb_eq_decide]; exact decide_eq_false (by omega)
  rw [BitVec.signExtend_eq_setWidth_of_msb_false hmsb, BitVec.toNat_setWidth, Nat.mod_eq_of_lt (by omega)]

/-- 周期の範囲の中の幅を与えれば、標本は 16 ビットに収まり、レジスタに書いた周期を超えず、幅の割合を一刻み未満の誤差で表す。
分周の欄が実際の分周を表すのは、一周期が `2 ^ 28` 未満のときに限る。 -/
theorem imxPwmConfig_fits {fuel : Nat} (hf : 65 ≤ fuel) (clock : BitVec 32) {dutyNs periodNs : BitVec 32}
    (hpos : 0 < periodNs.toNat) (hperiod : periodNs.toNat < 2 ^ 31) (hduty : dutyNs.toNat ≤ periodNs.toNat) :
    ∃ sar pr cr, imxPwmConfig fuel clock dutyNs periodNs = some [(mx3Pwmsar, sar), (mx3Pwmpr, pr), (mx3Pwmcr, cr)] ∧
      pr.toNat = steps clock periodNs - 2 ∧ sar.toNat < 0x10000 ∧ sar.toNat ≤ pr.toNat + 2 ∧
      sar.toNat * periodNs.toNat ≤ steps clock periodNs * dutyNs.toNat ∧
      steps clock periodNs * dutyNs.toNat < (sar.toNat + 1) * periodNs.toNat ∧
      (((cr >>> 4) &&& 0xFFF).toNat + 1 = cycles clock periodNs / 0x10000 + 1 ↔ cycles clock periodNs < 2 ^ 28) := by
  have hclock := clock.isLt
  have hprod : (clock.setWidth 64 * periodNs.signExtend 64).toNat = clock.toNat * periodNs.toNat := by
    have hle : clock.toNat * periodNs.toNat ≤ (2 ^ 32 - 1) * (2 ^ 31 - 1) := Nat.mul_le_mul (by omega) (by omega)
    rw [BitVec.toNat_mul, signExtend_toNat hperiod, BitVec.toNat_setWidth, Nat.mod_eq_of_lt (show clock.toNat < 2 ^ 64 by omega),
      Nat.mod_eq_of_lt (by omega)]
  obtain ⟨c, r, hrun, hc, -⟩ := doDiv_toNat hf (clock.setWidth 64 * periodNs.signExtend 64)
    (show (1000000000 : BitVec 32) ≠ 0 by decide)
  have hcyc : (c.setWidth 32).toNat = cycles clock periodNs := by
    rw [BitVec.toNat_setWidth, hc, hprod]
    rfl
  generalize hpc : c.setWidth 32 = pc at hcyc
  have hpclt := pc.isLt
  have hpre : (pc / 0x10000 + 1).toNat = cycles clock periodNs / 0x10000 + 1 := by
    rw [BitVec.toNat_add, BitVec.toNat_udiv, hcyc, show (0x10000 : BitVec 32).toNat = 0x10000 from rfl,
      show (1 : BitVec 32).toNat = 1 from rfl, Nat.mod_eq_of_lt (by omega)]
  have hsteps : (pc / (pc / 0x10000 + 1)).toNat = steps clock periodNs := by rw [BitVec.toNat_udiv, hpre, hcyc, steps]
  have hlt := steps_lt clock periodNs
  generalize hn : pc / (pc / 0x10000 + 1) = n at hsteps
  have hmul : (n.setWidth 64 * dutyNs.signExtend 64).toNat = steps clock periodNs * dutyNs.toNat := by
    have hle : steps clock periodNs * dutyNs.toNat ≤ 0xFFFF * (2 ^ 31 - 1) := Nat.mul_le_mul (by omega) (by omega)
    rw [BitVec.toNat_mul, signExtend_toNat (by omega), BitVec.toNat_setWidth, hsteps,
      Nat.mod_eq_of_lt (show steps clock periodNs < 2 ^ 64 by omega), Nat.mod_eq_of_lt (by omega)]
  have hne : periodNs ≠ 0 := by
    rintro rfl
    exact absurd hpos (by decide)
  obtain ⟨c2, r2, hrun2, hc2, -⟩ := doDiv_toNat hf (n.setWidth 64 * dutyNs.signExtend 64) hne
  have hdle : c2.toNat ≤ steps clock periodNs := by
    rw [hc2, hmul]
    exact Nat.div_le_of_le_mul (by rw [Nat.mul_comm periodNs.toNat]; exact Nat.mul_le_mul_left _ hduty)
  have hsar : (c2.setWidth 32).toNat = steps clock periodNs * dutyNs.toNat / periodNs.toNat := by
    rw [BitVec.toNat_setWidth, Nat.mod_eq_of_lt (by omega), hc2, hmul]
  have hsarle : (c2.setWidth 32).toNat ≤ steps clock periodNs := by
    rw [BitVec.toNat_setWidth, Nat.mod_eq_of_lt (by omega)]; exact hdle
  have hpr : (if 2 < n then n - 2 else 0).toNat = steps clock periodNs - 2 := by
    split
    · rename_i h2
      rw [BitVec.toNat_sub_of_le (BitVec.le_of_lt h2), hsteps]
      rfl
    · rename_i h2
      have : n.toNat ≤ 2 := Nat.not_lt.mp fun h => h2 (BitVec.lt_def.mpr h)
      show 0 = _
      omega
  refine ⟨c2.setWidth 32, if 2 < n then n - 2 else 0, mx3PwmcrPrescaler (pc / 0x10000 + 1) ||| mx3PwmcrOn, ?_, hpr, ?_, ?_,
    ?_, ?_, ?_⟩
  · simp only [imxPwmConfig, hrun, hpc, hn, hrun2, Option.bind_eq_bind, Option.bind_some]
    rfl
  · omega
  · omega
  · rw [hsar]; exact Nat.div_mul_le_self ..
  · rw [hsar, Nat.mul_comm _ periodNs.toNat]; exact Nat.lt_mul_div_succ _ hpos
  · have hfield : (((mx3PwmcrPrescaler (pc / 0x10000 + 1) ||| mx3PwmcrOn) >>> 4) &&& 0xFFF).toNat =
        cycles clock periodNs / 0x10000 % 2 ^ 12 := by
      rw [mx3PwmcrPrescaler, prescaler_field, BitVec.toNat_and, show (0xFFF : BitVec 32).toNat = 2 ^ 12 - 1 from rfl,
        Nat.and_two_pow_sub_one_eq_mod, BitVec.toNat_sub_of_le (BitVec.le_def.mpr (by rw [hpre]; exact Nat.le_add_left 1 _)), hpre]
      rfl
    rw [hfield]
    omega

theorem imxPwmConfig_fits_sample : ∃ sar pr cr, imxPwmConfig 65 66000000 2500000 5000000 =
    some [(mx3Pwmsar, sar), (mx3Pwmpr, pr), (mx3Pwmcr, cr)] ∧ sar.toNat ≤ pr.toNat + 2 := by
  obtain ⟨sar, pr, cr, hrun, -, -, hle, -⟩ := imxPwmConfig_fits (show 65 ≤ 65 by decide) 66000000
    (show 0 < (5000000 : BitVec 32).toNat by decide) (by decide) (show (2500000 : BitVec 32).toNat ≤ _ by decide)
  exact ⟨sar, pr, cr, hrun, hle⟩

end Imx6Bsp.Pwm
