import Imx6Bsp.Lib.Runs
import Imx6Bsp.Startup.IfsOption

/-!
# 二つ目の IFS の option

数の読み取りは `,` を越えない。`NULL` を `strchr()` に渡さないのは、最後に `,` が残るときに限り、文法に合う文字列では `src` のあるときである。
-/

namespace Imx6Bsp.Startup

open Imx6Bsp.Lib

/-! ## 文字の検索 -/

theorem findChar_not_mem {c : Char} {s : Word} (h : c ∉ s) : findChar c s = none := by
  induction s with
  | nil => rfl
  | cons d s ih =>
      rw [findChar, if_neg fun (heq : d = c) => h (heq ▸ List.mem_cons_self), ih (fun hm => h (List.mem_cons_of_mem d hm))]

theorem findChar_append {c : Char} {before : Word} (h : c ∉ before) (after : Word) :
    findChar c (before ++ c :: after) = some (c :: after) := by
  induction before with
  | nil => exact if_pos rfl
  | cons d s ih =>
      rw [List.cons_append, findChar, if_neg fun (heq : d = c) => h (heq ▸ List.mem_cons_self), ih (fun hm => h (List.mem_cons_of_mem d hm))]

/-! ## 数の読み取り -/

section

variable {base : Nat} {s rest : Word}

/-- 読み取りは、`,` の前で止まる。 -/
theorem scanDigits_suffix (hbase : base ≤ 37) (s : Word) (v : Nat) : ∃ pre, s = pre ++ (scanDigits base s v).2 ∧ ',' ∉ pre := by
  induction s generalizing v with
  | nil => exact ⟨[], rfl, List.not_mem_nil⟩
  | cons c s ih =>
      rw [scanDigits]
      split
      · exact ⟨[], rfl, List.not_mem_nil⟩
      · rename_i hdigit
        obtain ⟨pre, heq, hpre⟩ := ih (v * base + radixValue c)
        refine ⟨c :: pre, by rw [List.cons_append, ← heq], fun hm => ?_⟩
        rcases List.mem_cons.mp hm with rfl | hm
        · exact hdigit hbase
        · exact hpre hm

/-- `startp` からの読み取りを終えたところ。 -/
theorem strtoul_stop (hbase : base ≤ 37) {skipped startp : Word} (hs : s = skipped ++ startp) (hskip : ',' ∉ skipped) :
    ∃ pre t, (if (scanDigits base startp 0).2.length = startp.length then CharPtr.ref s else .ref (scanDigits base startp 0).2) = .ref t ∧
      s = pre ++ t ∧ ',' ∉ pre := by
  obtain ⟨pre, heq, hpre⟩ := scanDigits_suffix hbase startp 0
  split
  · exact ⟨[], s, rfl, rfl, List.not_mem_nil⟩
  · refine ⟨skipped ++ pre, _, rfl, ?_, fun hm => (List.mem_append.mp hm).elim hskip hpre⟩
    rw [List.append_assoc, ← heq, hs]

/-- `0x` か `0X` で始まる。 -/
def HexPrefix (s : Word) : Prop := ∃ x t, s = '0' :: x :: t ∧ (x = 'x' ∨ x = 'X')

theorem strtoul_hex {x : Char} (hx : x = 'x' ∨ x = 'X') (s : Word) :
    strtoul (.ref ('0' :: x :: s)) = .ok (wrap32 (scanDigits 16 s 0).1,
      if (scanDigits 16 s 0).2.length = s.length then .ref ('0' :: x :: s) else .ref (scanDigits 16 s 0).2) := by
  have hhex : (decide (x = 'x') || decide (x = 'X')) = true := by simpa using hx
  simp only [strtoul, hexstr, CharPtr.deref, CharPtr.succ, bind, Except.bind, pure, Except.pure, if_true, hhex]

theorem hexstr_plain (hs : ¬ HexPrefix s) : hexstr (.ref s) = .ok false := by
  cases s with
  | nil => rfl
  | cons c s =>
      by_cases hc : c = '0'
      · subst hc
        cases s with
        | nil => rfl
        | cons x s =>
            have hx : ¬ (x = 'x' ∨ x = 'X') := fun hx => hs ⟨x, s, rfl, hx⟩
            have hhex : (decide (x = 'x') || decide (x = 'X')) = false := by simpa using hx
            simp only [hexstr, CharPtr.deref, CharPtr.succ, bind, Except.bind, pure, Except.pure, if_true, hhex]
      · simp only [hexstr, CharPtr.deref, bind, Except.bind, pure, Except.pure, hc, if_false]

theorem strtoul_plain (hs : ¬ HexPrefix s) :
    ∃ c, (CharPtr.ref s).deref = .ok c ∧ strtoul (.ref s) =
      .ok (wrap32 (scanDigits (if c = '0' then 8 else 10) s 0).1,
        if (scanDigits (if c = '0' then 8 else 10) s 0).2.length = s.length then .ref s
        else .ref (scanDigits (if c = '0' then 8 else 10) s 0).2) := by
  obtain ⟨c, hc⟩ : ∃ c, (CharPtr.ref s).deref = .ok c := by cases s <;> exact ⟨_, rfl⟩
  refine ⟨c, hc, ?_⟩
  simp only [strtoul, hexstr_plain hs, hc, bind, Except.bind, pure, Except.pure, Bool.false_eq_true, if_false]

/-- どの文字列も、`,` を越えずに読み終える。 -/
theorem strtoul_ref (s : Word) : ∃ v pre t, strtoul (.ref s) = .ok (v, .ref t) ∧ s = pre ++ t ∧ ',' ∉ pre := by
  by_cases hhex : HexPrefix s
  · obtain ⟨x, s, rfl, hx⟩ := hhex
    have hskip : ',' ∉ ['0', x] := by rcases hx with rfl | rfl <;> decide
    obtain ⟨pre, t, heq, hs, hpre⟩ := @strtoul_stop 16 ('0' :: x :: s) (by decide) _ _ rfl hskip
    exact ⟨_, pre, t, by rw [strtoul_hex hx, heq], hs, hpre⟩
  · obtain ⟨c, -, hrun⟩ := strtoul_plain hhex
    have hbase : (if c = '0' then 8 else 10) ≤ 37 := by split <;> decide
    obtain ⟨pre, t, heq, hs, hpre⟩ := strtoul_stop hbase (List.nil_append s).symm List.not_mem_nil
    exact ⟨_, pre, t, by rw [hrun, heq], hs, hpre⟩

/-! ## 文法に合う数 -/

/-- 終わりか、`,` の前である。 -/
def EndsNumber (rest : Word) : Prop := ∀ c, rest.head? = some c → c = ','

theorem scanDigits_stops (hbase : base ≤ 37) (hrest : EndsNumber rest) (v : Nat) : scanDigits base rest v = (v, rest) := by
  cases rest with
  | nil => rfl
  | cons c rest =>
      rw [hrest c rfl]
      exact if_pos hbase

theorem numeralValue_cons (base : Nat) (d : Char) (ds : Word) :
    numeralValue base (d :: ds) = radixValue d * base ^ ds.length + numeralValue base ds := by
  rw [numeralValue, numeralValue, List.reverse_cons, List.map_append, Nat.ofDigits_append, List.length_map, List.length_reverse,
    List.map_cons, List.map_nil, Nat.ofDigits_singleton, Nat.add_comm, Nat.mul_comm]

/-- 数字の列は、その値として読まれる。 -/
theorem scanDigits_digits (hbase : base ≤ 37) (hrest : EndsNumber rest) (ds : Word) (h : ∀ d ∈ ds, radixValue d < base) (v : Nat) :
    scanDigits base (ds ++ rest) v = (v * base ^ ds.length + numeralValue base ds, rest) := by
  induction ds generalizing v with
  | nil =>
      rw [List.nil_append, scanDigits_stops hbase hrest]
      simp [numeralValue]
  | cons d ds ih =>
      rw [List.cons_append, scanDigits, if_neg (Nat.not_le.mpr (h d List.mem_cons_self)),
        ih (fun e he => h e (List.mem_cons_of_mem d he)), numeralValue_cons, List.length_cons, Nat.pow_succ]
      congr 1
      ring

theorem Numeral.ne_comma (n : Numeral) : ',' ∉ n.text := by
  obtain ⟨text, value, reads, fits⟩ := n
  have hdigits : ∀ {base : Nat} {ds : Word}, base ≤ 37 → (∀ d ∈ ds, radixValue d < base) → ',' ∉ ds := fun hbase h hm =>
    absurd (h ',' hm) (Nat.not_lt.mpr hbase)
  cases reads with
  | decimal c ds hc h => exact hdigits (by decide) h
  | octal ds h =>
      intro hm
      exact hdigits (by decide) h ((List.mem_cons.mp hm).resolve_left (by decide))
  | hex x ds hx hds h =>
      intro hm
      rcases List.mem_cons.mp ((List.mem_cons.mp hm).resolve_left (by decide)) with hcomma | hm
      · rcases hx with rfl | rfl <;> exact absurd hcomma (by decide)
      · exact hdigits (by decide) h hm

/-- 文法に合う数は、その値として読まれる。 -/
theorem Numeral.strtoul_text (n : Numeral) (hrest : EndsNumber rest) : strtoul (.ref (n.text ++ rest)) = .ok (n.value, .ref rest) := by
  obtain ⟨text, value, reads, fits⟩ := n
  dsimp only
  have hstop : ∀ {ds : Word}, ds ≠ [] → ¬ rest.length = (ds ++ rest).length := fun {ds} hne h => by
    have hpos := List.length_pos_iff.mpr hne
    rw [List.length_append] at h
    omega
  have hdone : ∀ v, v < 2 ^ 32 → Except.ok (ε := PtrFault) (wrap32 (0 + v), CharPtr.ref rest) = .ok (v, .ref rest) := fun v hv => by
    rw [Nat.zero_add, wrap32, Nat.mod_eq_of_lt hv]
  cases reads with
  | decimal c ds hc h =>
      have hplain : ¬ HexPrefix (c :: ds ++ rest) := by
        rintro ⟨x, t, heq, -⟩
        exact hc (List.cons.inj heq).1
      obtain ⟨d, hd, hrun⟩ := strtoul_plain hplain
      have hdc : c = d := Except.ok.inj hd
      subst hdc
      rw [hrun, if_neg hc, scanDigits_digits (by decide) hrest (c :: ds) h, if_neg (hstop (List.cons_ne_nil c ds)), Nat.zero_mul]
      exact hdone _ fits
  | octal ds h =>
      have hplain : ¬ HexPrefix ('0' :: ds ++ rest) := by
        rintro ⟨x, t, heq, hx⟩
        have htail : ds ++ rest = x :: t := (List.cons.inj heq).2
        cases ds with
        | nil =>
            have hcomma := hrest x (by rw [List.nil_append] at htail; rw [htail]; rfl)
            rcases hx with rfl | rfl <;> exact absurd hcomma (by decide)
        | cons d ds =>
            have hdx : d = x := (List.cons.inj htail).1
            have hlt := h d List.mem_cons_self
            rw [hdx] at hlt
            rcases hx with rfl | rfl <;> exact absurd hlt (by decide)
      obtain ⟨d, hd, hrun⟩ := strtoul_plain hplain
      have hdc : '0' = d := Except.ok.inj hd
      subst hdc
      have hdigits : ∀ e ∈ '0' :: ds, radixValue e < 8 := fun e he => by
        rcases List.mem_cons.mp he with rfl | he
        · decide
        · exact h e he
      have hvalue : numeralValue 8 ('0' :: ds) = numeralValue 8 ds := by
        rw [numeralValue_cons, show radixValue '0' = 0 from rfl, Nat.zero_mul, Nat.zero_add]
      rw [hrun, if_pos rfl, scanDigits_digits (by decide) hrest ('0' :: ds) hdigits, if_neg (hstop (List.cons_ne_nil _ ds)),
        Nat.zero_mul, hvalue]
      exact hdone _ fits
  | hex x ds hx hds h =>
      rw [List.cons_append, List.cons_append, strtoul_hex hx, scanDigits_digits (by decide) hrest ds h, if_neg (hstop hds), Nat.zero_mul]
      exact hdone _ fits

end

/-! ## 失敗しない条件 -/

section

variable {g : Ifs2} {t : Word}

/-- `,` の次が `R` か `K` なら、その先に `,` があるかどうかが残る。 -/
def LettersThenComma (after : Word) : Prop := after.head? = some 'R' ∨ after.head? = some 'K' → ',' ∈ after

/-- 印を読んだ後のポインタの先に `,` が残るのは、`LettersThenComma` のときである。 -/
theorem ifs2Flags_ref (g : Ifs2) (after : Word) :
    ∃ g' t, ifs2Flags g (.ref (',' :: after)) = .ok (g', .ref t) ∧ (',' ∈ t ↔ LettersThenComma after) := by
  have hself : LettersThenComma after ∨ after.head? = some 'R' ∨ after.head? = some 'K' := by
    by_cases h : after.head? = some 'R' ∨ after.head? = some 'K'
    · exact Or.inr h
    · exact Or.inl fun h' => absurd h' h
  cases after with
  | nil => exact ⟨g, [','], rfl, iff_of_true List.mem_cons_self (hself.resolve_right (by decide))⟩
  | cons c u =>
      by_cases hr : c = 'R'
      · subst hr
        have hiff : ',' ∈ 'R' :: u ↔ LettersThenComma ('R' :: u) := ⟨fun h _ => h, fun h => h (Or.inl rfl)⟩
        have htail : ',' ∈ 'R' :: u ↔ ',' ∈ u := by simp
        cases u with
        | nil => exact ⟨_, ['R'], rfl, hiff⟩
        | cons d u =>
            by_cases hk : d = 'K'
            · subst hk
              exact ⟨_, 'K' :: u, rfl, htail.symm.trans hiff⟩
            · refine ⟨{ g with flag := g.flag ||| rifsFlagIfs2Restore }, 'R' :: d :: u, ?_, hiff⟩
              simp only [ifs2Flags, CharPtr.succ, CharPtr.deref, bind, Except.bind, pure, Except.pure, if_true, hk, if_false]
      · by_cases hk : c = 'K'
        · subst hk
          exact ⟨_, 'K' :: u, rfl, fun h _ => h, fun h => h (Or.inr rfl)⟩
        · refine ⟨g, ',' :: c :: u, ?_, iff_of_true List.mem_cons_self (hself.resolve_right ?_)⟩
          · simp only [ifs2Flags, CharPtr.succ, CharPtr.deref, bind, Except.bind, pure, Except.pure, hr, hk, if_false]
          · rintro (h | h)
            · exact hr (Option.some.inj h)
            · exact hk (Option.some.inj h)

theorem ifs2Dst_ref (g : Ifs2) (t : Word) : ∃ g', ifs2Dst g (.ref t) = .ok g' := by
  by_cases h : ',' ∈ t
  · obtain ⟨before, after, rfl, hb⟩ := List.eq_append_cons_of_mem h
    obtain ⟨v, _, u, hrun, -⟩ := strtoul_ref after
    refine ⟨{ g with flag := g.flag ||| rifsFlagIfs2Dst, dst := 0xFFFFF000 &&& v }, ?_⟩
    simp only [ifs2Dst, strchr, findChar_append hb, bind, Except.bind, pure, Except.pure, reduceCtorEq, if_false, CharPtr.succ, hrun]
  · refine ⟨g, ?_⟩
    simp only [ifs2Dst, strchr, findChar_not_mem h, bind, Except.bind, pure, Except.pure, if_true]

theorem ifs2Src_mem (g : Ifs2) (h : ',' ∈ t) : ∃ g' u, ifs2Src g (.ref t) = .ok (g', .ref u) := by
  obtain ⟨before, after, rfl, hb⟩ := List.eq_append_cons_of_mem h
  obtain ⟨v, _, u, hrun, -⟩ := strtoul_ref after
  refine ⟨{ g with flag := g.flag ||| rifsFlagIfs2Src, src := v }, u, ?_⟩
  simp only [ifs2Src, strchr, findChar_append hb, bind, Except.bind, pure, Except.pure, reduceCtorEq, if_false, CharPtr.succ, hrun]

theorem ifs2Src_not_mem (g : Ifs2) (h : ',' ∉ t) : ifs2Src g (.ref t) = .ok (g, .null) := by
  simp only [ifs2Src, strchr, findChar_not_mem h, bind, Except.bind, pure, Except.pure, if_true]

/-- 残りの二つの番地の読み取り。 -/
theorem addresses_ok_iff (g : Ifs2) (t : Word) : (∃ g', ifs2Addresses g (.ref t) = .ok g') ↔ ',' ∈ t := by
  by_cases h : ',' ∈ t
  · obtain ⟨g₁, u, hsrc⟩ := ifs2Src_mem g h
    obtain ⟨g₂, hdst⟩ := ifs2Dst_ref g₁ u
    refine iff_of_true ⟨g₂, ?_⟩ h
    rw [ifs2Addresses, hsrc]
    exact hdst
  · refine iff_of_false ?_ h
    rintro ⟨g', hrun⟩
    rw [ifs2Addresses, ifs2Src_not_mem g h] at hrun
    cases hrun

/-- 初めの `,` での分け方は一通りである。 -/
theorem split_unique {before before' after after' : Word} (h : before ++ ',' :: after = before' ++ ',' :: after') (hb : ',' ∉ before)
    (hb' : ',' ∉ before') : after = after' := by
  have hfind := findChar_append hb after
  rw [h, findChar_append hb'] at hfind
  exact (List.cons.inj (Option.some.inj hfind)).2.symm

/-- 失敗しないのは、`HasAddressComma` のときに限る。 -/
theorem handleIfs2Option_ok_iff (g : Ifs2) (s : Word) : (∃ g', handleIfs2Option g (.ref s) = .ok g') ↔ HasAddressComma s := by
  obtain ⟨v, pre, t, hrun, rfl, hpre⟩ := strtoul_ref s
  by_cases hcomma : ',' ∈ t
  · obtain ⟨before, after, rfl, hb⟩ := List.eq_append_cons_of_mem hcomma
    obtain ⟨g₁, u, hflags, hu⟩ := ifs2Flags_ref { g with flag := g.flag ||| rifsFlagIfs2, size := v } after
    have hhas : HasAddressComma (pre ++ (before ++ ',' :: after)) ↔ LettersThenComma after := by
      have hb' : ',' ∉ pre ++ before := fun h => (List.mem_append.mp h).elim hpre hb
      constructor
      · rintro ⟨x, y, heq, hx, hletters⟩
        rw [← List.append_assoc] at heq
        rwa [split_unique heq hb' hx]
      · exact fun h => ⟨pre ++ before, after, (List.append_assoc _ _ _).symm, hb', h⟩
    rw [hhas, ← hu, ← addresses_ok_iff g₁ u]
    simp only [handleIfs2Option, hrun, strchr, findChar_append hb, bind, Except.bind, ne_eq, reduceCtorEq, not_false_eq_true, if_true, hflags]
  · refine iff_of_false ?_ ?_
    · rintro ⟨g', h⟩
      simp only [handleIfs2Option, hrun, strchr, findChar_not_mem hcomma, bind, Except.bind, ne_eq, not_true_eq_false, if_false, pure,
        Except.pure, ifs2Addresses, ifs2Src, reduceCtorEq] at h
    · rintro ⟨x, y, heq, -, -⟩
      have hmem : ',' ∈ pre ++ t := heq ▸ List.mem_append_right x List.mem_cons_self
      exact (List.mem_append.mp hmem).elim hpre hcomma

end

/-! ## 文法に合う文字列 -/

section

variable {g : Ifs2}

theorem stops_addresses (a : Option Ifs2Addresses) : EndsNumber (a.elim [] Ifs2Addresses.text) := by
  intro c hc
  cases a with
  | none => cases hc
  | some a => exact (Option.some.inj hc).symm

theorem stops_dst (d : Option Numeral) : EndsNumber (d.elim [] fun n => ',' :: n.text) := by
  intro c hc
  cases d with
  | none => cases hc
  | some n => exact (Option.some.inj hc).symm

theorem stops_flags (f : Option Ifs2Letters) {rest : Word} (hrest : EndsNumber rest) : EndsNumber ((f.elim [] fun f => ',' :: f.text) ++ rest) := by
  cases f with
  | none => exact hrest
  | some f => intro c hc; exact (Option.some.inj hc).symm

/-- 数は `R` でも `K` でも始まらない。 -/
theorem Numeral.head_digit (n : Numeral) : ∃ c t, n.text = c :: t ∧ c ≠ 'R' ∧ c ≠ 'K' := by
  obtain ⟨text, value, reads, fits⟩ := n
  cases reads with
  | decimal c ds hc h =>
      have hlt := h c List.mem_cons_self
      refine ⟨c, ds, rfl, ?_, ?_⟩ <;> rintro rfl <;> exact absurd hlt (by decide)
  | octal ds h => exact ⟨'0', ds, rfl, by decide, by decide⟩
  | hex x ds hx hds h => exact ⟨'0', x :: ds, rfl, by decide, by decide⟩

/-- 下位 12 ビットを落とすことは、4 KB への切り捨てである。 -/
theorem mask_page {v : Nat} (hv : v < 2 ^ 32) : 0xFFFFF000 &&& v = v / 4096 * 4096 := by
  refine Nat.eq_of_testBit_eq fun i => ?_
  have hshift : v / 4096 * 4096 = v >>> 12 <<< 12 := by rw [Nat.shiftRight_eq_div_pow, Nat.shiftLeft_eq]
  have hmask : (0xFFFFF000 : Nat) = (2 ^ 20 - 1) <<< 12 := rfl
  rw [hshift, Nat.testBit_and, hmask, Nat.testBit_shiftLeft, Nat.testBit_shiftLeft, Nat.testBit_shiftRight, Nat.testBit_two_pow_sub_one]
  by_cases hlow : 12 ≤ i
  · rw [Nat.add_sub_cancel' hlow]
    by_cases hhigh : i < 32
    · simp [hlow, show i - 12 < 20 by omega]
    · rw [Nat.testBit_lt_two_pow (hv.trans_le (Nat.pow_le_pow_right (by decide) (Nat.le_of_not_lt hhigh)))]
      simp
  · simp [hlow]

theorem ifs2Dst_text (g : Ifs2) (d : Option Numeral) :
    ifs2Dst g (.ref (d.elim [] fun n => ',' :: n.text)) =
      .ok { g with flag := g.flag ||| (d.elim 0 fun _ => rifsFlagIfs2Dst), dst := d.elim g.dst fun n => n.value / 4096 * 4096 } := by
  cases d with
  | none => simp [ifs2Dst, strchr, findChar, bind, Except.bind, pure, Except.pure]
  | some n =>
      have hrun : strtoul (.ref n.text) = .ok (n.value, .ref []) := by
        have h := @Numeral.strtoul_text [] n nofun
        rwa [List.append_nil] at h
      simp only [Option.elim_some, ifs2Dst, strchr, findChar, if_true, bind, Except.bind, pure, Except.pure, reduceCtorEq, if_false,
        CharPtr.succ, hrun, mask_page n.fits]

theorem ifs2Src_text (g : Ifs2) (a : Ifs2Addresses) {pre : Word} (hpre : ',' ∉ pre) :
    ifs2Src g (.ref (pre ++ a.text)) =
      .ok ({ g with flag := g.flag ||| rifsFlagIfs2Src, src := a.src.value }, .ref (a.dst.elim [] fun n => ',' :: n.text)) := by
  have hrun := a.src.strtoul_text (stops_dst a.dst)
  rw [Ifs2Addresses.text, List.cons_append]
  simp only [ifs2Src, strchr, findChar_append hpre, bind, Except.bind, pure, Except.pure, reduceCtorEq, if_false, CharPtr.succ, hrun]

/-- 印を読んだ後のポインタは、番地の前の `,` を越えない。 -/
theorem ifs2Flags_text (g : Ifs2) (f : Option Ifs2Letters) (a : Ifs2Addresses) :
    ∃ pre, ',' ∉ pre ∧ ifs2Flags g (.ref ((f.elim [] fun f => ',' :: f.text) ++ a.text)) =
      .ok ({ g with flag := g.flag ||| f.elim 0 Ifs2Letters.bits }, .ref (pre ++ a.text)) := by
  obtain ⟨c, t, htext, hr, hk⟩ := a.src.head_digit
  have haddr : ∃ u, a.text = ',' :: c :: u := ⟨_, by rw [Ifs2Addresses.text, htext]; rfl⟩
  obtain ⟨u, hu⟩ := haddr
  cases f with
  | none =>
      refine ⟨[], List.not_mem_nil, ?_⟩
      simp only [hu, ifs2Flags, CharPtr.succ, CharPtr.deref, bind, Except.bind, pure, Except.pure, hr, hk, if_false, Option.elim_none,
        List.nil_append, Nat.or_zero]
  | some f =>
      cases f with
      | r =>
          refine ⟨['R'], by decide, ?_⟩
          rw [hu]; rfl
      | rk =>
          refine ⟨['K'], by decide, ?_⟩
          rw [hu]
          have hbits : g.flag ||| rifsFlagIfs2Restore ||| rifsFlagIfs2Restore ||| rifsFlagIfs2Cksum =
              g.flag ||| (rifsFlagIfs2Restore ||| rifsFlagIfs2Cksum) := by
            rw [Nat.or_assoc g.flag, Nat.or_self, Nat.or_assoc]
          exact congrArg (fun b => Except.ok ({ g with flag := b }, CharPtr.ref (['K'] ++ ',' :: c :: u))) hbits
      | k =>
          refine ⟨['K'], by decide, ?_⟩
          rw [hu]
          exact congrArg (fun b => Except.ok ({ g with flag := b }, CharPtr.ref (['K'] ++ ',' :: c :: u))) (Nat.or_assoc _ _ _)

/-- `src` のある文字列は、その表す値にする。 -/
theorem handleIfs2Option_text (g : Ifs2) (o : Ifs2Option) {a : Ifs2Addresses} (ha : o.addresses = some a) :
    handleIfs2Option g (.ref o.text) = .ok (o.meaning g) := by
  have hsize := o.size.strtoul_text (stops_flags o.flags (stops_addresses o.addresses))
  obtain ⟨pre, hpre, hflags⟩ := ifs2Flags_text { g with flag := g.flag ||| rifsFlagIfs2, size := o.size.value } o.flags a
  have hhead : findChar ',' ((o.flags.elim [] fun f => ',' :: f.text) ++ a.text) =
      some ((o.flags.elim [] fun f => ',' :: f.text) ++ a.text) := by
    cases o.flags <;> exact if_pos rfl
  rw [ha] at hsize
  simp only [Ifs2Option.text, ha, Option.elim_some] at hsize ⊢
  simp only [handleIfs2Option, hsize, strchr, hhead, bind, Except.bind, ne_eq, reduceCtorEq, not_false_eq_true, if_true, hflags,
    ifs2Addresses, ifs2Src_text _ a hpre, ifs2Dst_text, Ifs2Option.meaning, ha, Option.elim_some, Option.bind_some]

/-- `src` のない文字列には、番地の前の `,` がない。 -/
theorem not_hasAddressComma {o : Ifs2Option} (ho : o.addresses = none) : ¬ HasAddressComma o.text := by
  rintro ⟨before, after, heq, hb, hletters⟩
  rw [Ifs2Option.text, ho, Option.elim_none, List.append_nil] at heq
  cases hf : o.flags with
  | none =>
      rw [hf, Option.elim_none, List.append_nil] at heq
      exact o.size.ne_comma (heq ▸ List.mem_append_right before List.mem_cons_self)
  | some f =>
      rw [hf, Option.elim_some] at heq
      have hafter := split_unique heq o.size.ne_comma hb
      subst hafter
      cases f with
      | r => exact absurd (hletters (Or.inl rfl)) (by decide)
      | rk => exact absurd (hletters (Or.inl rfl)) (by decide)
      | k => exact absurd (hletters (Or.inr rfl)) (by decide)

end

/-- option が正しく読まれるのは、`HasAddressComma` のときに限る。 -/
theorem ifs2_option_right_iff (g : Ifs2) (s : Word) : Ifs2OptionRight g s ↔ HasAddressComma s := by
  rw [← handleIfs2Option_ok_iff g s]
  constructor
  · rintro ⟨g', hrun, -⟩
    exact ⟨g', hrun⟩
  · rintro ⟨g', hrun⟩
    refine ⟨g', hrun, fun o ho => ?_⟩
    subst ho
    cases ha : o.addresses with
    | none => exact absurd ((handleIfs2Option_ok_iff g o.text).mp ⟨g', hrun⟩) (not_hasAddressComma ha)
    | some a => exact Except.ok.inj (hrun.symm.trans (handleIfs2Option_text g o ha))

/-- 大きさだけの文字列では、`NULL` を `strchr()` に渡す。 -/
theorem ifs2_option_not_right : ¬ ∀ (g : Ifs2) (s : Word), Ifs2OptionRight g s := by
  intro h
  obtain ⟨g', hrun, -⟩ := h ⟨0, 0, 0, 0⟩ ['4', '0', '9', '6']
  have hfault : handleIfs2Option ⟨0, 0, 0, 0⟩ (.ref ['4', '0', '9', '6']) = .error .null := by decide
  rw [hfault] at hrun
  cases hrun

end Imx6Bsp.Startup
