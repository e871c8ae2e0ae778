import Imx6Bsp.Lib.Interning
import Imx6Bsp.Startup.Lemmas.SyspageRun
import Imx6Bsp.Startup.Strings

/-!
# 文字列の節の不変条件

`lsp.strings` は、空でない文字列を並べ、空の文字列で終わる。`add_string()` は走査を終え、ほかの節のバイトを変えない。
-/

namespace Imx6Bsp.Startup

open Imx6Bsp.Lib

/-- 節の位置 `i` から `e` までに、空でない文字列が並ぶ。 -/
def StrTable (m : Mem) (p : Nat) : Nat → List (List UInt8) → Nat → Prop
  | i, [], e => i = e
  | i, s :: l, e => s ≠ [] ∧ m.HasStr (p + i) s ∧ StrTable m p (i + (s.length + 1)) l e

namespace StrTable

variable {m m' : Mem} {p i e : Nat} {l : List (List UInt8)}

theorem le (h : StrTable m p i l e) : i + l.length ≤ e := by
  induction l generalizing i with
  | nil => exact Nat.le_of_eq h
  | cons s l ih =>
      have := ih h.2.2
      rw [List.length_cons]; omega

theorem congr (h : StrTable m p i l e) {p' : Nat} (hm : ∀ x, i ≤ x → x < e → m' (p' + x) = m (p + x)) :
    StrTable m' p' i l e := by
  induction l generalizing i with
  | nil => exact h
  | cons s l ih =>
      obtain ⟨hs, hstr, hrest⟩ := h
      have hle := hrest.le
      refine ⟨hs, hstr.congr fun k hk => ?_, ih hrest fun x hx hx' => hm x (by omega) hx'⟩
      rw [Nat.add_assoc, Nat.add_assoc]; exact hm _ (by omega) (by omega)

theorem snoc (h : StrTable m p i l e) {s : List UInt8} (hs : s ≠ []) (hstr : m.HasStr (p + e) s) :
    StrTable m p i (l ++ [s]) (e + (s.length + 1)) := by
  induction l generalizing i with
  | nil => cases h; exact ⟨hs, hstr, rfl⟩
  | cons s' l ih => exact ⟨h.1, h.2.1, ih h.2.2⟩

theorem end_eq (h : StrTable m p i l e) : e = i + packedLength l := by
  induction l generalizing i with
  | nil => exact h.symm
  | cons s l ih => rw [ih h.2.2, packedLength_cons, Nat.add_assoc]

/-- 表にある文字列は、その位置にある。 -/
theorem hasStr (h : StrTable m p i l e) {s : List UInt8} (hs : s ∈ l) : m.HasStr (p + (i + packedOffset s l)) s := by
  induction l generalizing i with
  | nil => exact absurd hs List.not_mem_nil
  | cons t l ih =>
      rw [packedOffset]
      by_cases hts : t = s
      · rw [if_pos hts]
        exact hts ▸ h.2.1
      · rw [if_neg hts, ← Nat.add_assoc i]
        exact ih h.2.2 ((List.mem_cons.mp hs).resolve_left (Ne.symm hts))

/-- 走査は、表にある文字列ならその位置で、ない文字列なら表の終わりで止まる。 -/
theorem find (h : StrTable m p i l e) (hend : m (p + e) = 0) {size : Nat} (hsize : e < size) {name : List UInt8}
    (hname : ∀ c ∈ name, c ≠ 0) (fuel : Nat) (hfuel : l.length < fuel) :
    addStringLoop m p size name i fuel = if name ∈ l then some (i + packedOffset name l, true) else some (e, false) := by
  induction l generalizing i fuel with
  | nil =>
      cases h
      cases fuel with
      | zero => simp at hfuel
      | succ fuel => exact if_pos hend
  | cons s l ih =>
      obtain ⟨hs, hstr, hrest⟩ := h
      have hle := hrest.le
      cases fuel with
      | zero => simp at hfuel
      | succ fuel =>
          have hne : m (p + i) ≠ 0 := by
            cases s with
            | nil => exact absurd rfl hs
            | cons c s => rw [hstr.2.1]; exact hstr.1
          rw [addStringLoop, if_neg hne, hstr.strEq_eq hname, packedOffset]
          by_cases heq : s = name
          · rw [if_pos (decide_eq_true heq), if_pos heq, if_pos (heq ▸ List.mem_cons_self)]
            rfl
          · have hmem : name ∈ s :: l ↔ name ∈ l := by
              rw [List.mem_cons]
              exact or_iff_right (Ne.symm heq)
            rw [if_neg (by simpa using heq), if_neg heq, hstr.strlen_eq (by omega), ← Nat.add_assoc]
            simp only [hmem]
            exact ih hrest fuel (by simp at hfuel; omega)

end StrTable

/-- 文字列の節の不変条件。 -/
structure StringSection (s : Syspage) (l : List (List UInt8)) (e : Nat) : Prop where
  table : StrTable s.mem (s.p .strings) 0 l e
  room : e < s.size .strings
  zeros : ∀ x, e ≤ x → x < s.size .strings → s.mem (s.p .strings + x) = 0

section

variable {fmt : SyspageFormat} {fixed : List Sect} {s : Syspage} {l : List (List UInt8)} {e : Nat}

/-- ほかの節だけを変えた状態でも、文字列の節の不変条件は保たれる。 -/
theorem StringSection.congr {s' : Syspage} (h : StringSection s l e) (hsame : SameBytes s s' .strings) :
    StringSection s' l e := by
  have hr := h.room
  obtain ⟨hsize, hbytes⟩ := hsame
  refine ⟨?_, by omega, fun x h1 h2 => ?_⟩
  · exact h.table.congr fun x _ hx => hbytes x (by omega)
  · rw [hbytes x (by omega)]; exact h.zeros x h1 (by omega)

theorem StringSection.grow (hfmt : fmt.Ok) (hl : s.Layout fmt fixed) (h : StringSection s l e) (k : Nat) :
    StringSection (growBy fmt s .strings k) l e := by
  obtain ⟨hp, hsize, hold, hnew⟩ := hl.growBy_self hfmt .strings (by decide) k
  have hr := h.room
  refine ⟨?_, by omega, fun x h1 h2 => ?_⟩
  · rw [hp]
    exact h.table.congr fun x _ hx => hold x (by omega)
  · rw [hp]
    by_cases hx : x < s.size .strings
    · rw [hold x hx]; exact h.zeros x h1 hx
    · exact hnew x (by omega) (by omega)

/-- 表の終わりに文字列を書く。 -/
theorem StringSection.write (h : StringSection s l e) {name : List UInt8} (hname : ∀ c ∈ name, c ≠ 0)
    (hroom : e + name.length + 2 ≤ s.size .strings) :
    ∃ e', StringSection { s with mem := s.mem.strcpy (s.p .strings + e) name } (if name = [] then l else l ++ [name]) e' := by
  have hout : ∀ x, x < e ∨ e + name.length < x →
      (s.mem.strcpy (s.p .strings + e) name) (s.p .strings + x) = s.mem (s.p .strings + x) := fun x hx =>
    Mem.strcpy_out (by omega)
  have hstr := Mem.hasStr_strcpy s.mem (s.p .strings + e) hname
  have htable : StrTable (s.mem.strcpy (s.p .strings + e) name) (s.p .strings) 0 l e := h.table.congr fun x _ hx => hout x (Or.inl hx)
  by_cases hn : name = []
  · subst hn
    refine ⟨e, htable, h.room, fun x h1 h2 => ?_⟩
    rcases Nat.eq_or_lt_of_le h1 with rfl | hlt
    · exact hstr
    · exact (hout x (Or.inr hlt)).trans (h.zeros x h1 h2)
  · rw [if_neg hn]
    refine ⟨e + (name.length + 1), htable.snoc hn hstr, ?_, fun x h1 h2 => ?_⟩
    · change _ < s.size .strings
      omega
    · exact (hout x (Or.inr (by omega))).trans (h.zeros x (by omega) h2)

/-- `add_string()` の後の表。空の文字列は加わらない。 -/
def internTable (l : List (List UInt8)) (name : List UInt8) : List (List UInt8) := if name = [] then l else intern l name

/-- `add_string()` は文字列の節だけを変える。 -/
structure OnlyStrings (fmt : SyspageFormat) (s s' : Syspage) : Prop where
  max : s'.maxSize fmt = s.maxSize fmt
  same : ∀ t, t ≠ .strings → t ≠ .syspage → SameBytes s s' t
  size : ∀ t, t ≠ .strings → s'.size t = s.size t
  fixedSize : s'.fixedSize = s.fixedSize

/-- `add_string()` の結果。走査は節の外に出ず、表にない文字列だけが加わり、文字列の位置を返す。 -/
theorem StringSection.intern (hfmt : fmt.Ok) (hl : s.Layout fmt fixed) (h : StringSection s l e) {name : List UInt8}
    (hname : ∀ c ∈ name, c ≠ 0) (hlen : s.totalSize fmt + name.length + 32 ≤ 2 ^ 32) :
    addString fmt s name ≠ .error .outside ∧ ∀ s' i, addString fmt s name = .ok (s', i) →
      s'.Layout fmt fixed ∧ OnlyStrings fmt s s' ∧ (∃ e', StringSection s' (internTable l name) e') ∧
        (name ≠ [] → i = packedOffset name (internTable l name)) := by
  have hr := h.room
  have hle := h.table.le
  have hsz := hl.size_le .strings
  have hin := hl.inside .strings
  have hend := h.table.end_eq
  rw [Nat.zero_add] at hend
  have hloop := h.table.find (h.zeros e le_rfl hr) hr hname (s.size .strings) (by omega)
  rw [addString, hloop]
  by_cases hmem : name ∈ l
  · rw [if_pos hmem]
    refine ⟨nofun, fun s' i hs' => ?_⟩
    cases hs'
    have htable : internTable l name = l := by
      rw [internTable, Lib.intern, if_pos hmem, ite_self]
    rw [htable, Nat.zero_add]
    exact ⟨hl, ⟨rfl, fun t _ _ => ⟨rfl, fun _ _ => rfl⟩, fun _ _ => rfl, rfl⟩, ⟨e, h⟩, fun _ => rfl⟩
  · rw [if_neg hmem]
    dsimp only
    cases happ : appendString fmt s e name with
    | error c => exact ⟨nofun, nofun⟩
    | ok s1 =>
        refine ⟨nofun, fun s' i hs' => ?_⟩
        cases hs'
        obtain ⟨s2, h2, rfl⟩ := Except.map_eq_ok.mp happ
        rw [wrap32_sub hr.le hsz, wrap32_of_lt (by omega)] at h2
        -- 足りなければ節を伸ばし、どちらの場合も文字列と空の文字列が収まる。
        have hgrown : s2.Layout fmt fixed ∧ OnlyStrings fmt s s2 ∧ StringSection s2 l e ∧ s2.p .strings = s.p .strings ∧
            e + name.length + 2 ≤ s2.size .strings := by
          split at h2
          · have hge := le_round_eight (x := name.length + 2 - (s.size .strings - e)) (by omega)
            have hlt := round_eight_lt (x := name.length + 2 - (s.size .strings - e)) (by omega)
            obtain ⟨hfit, rfl⟩ := growSyspageSection_ok hl (by omega) (by omega) h2
            obtain ⟨hp, hsize, _⟩ := hl.growBy_self hfmt .strings (by decide)
              (round (name.length + 2 - (s.size .strings - e)) 8)
            exact ⟨hl.grow hfmt .strings hfit, ⟨hl.growBy_max hfmt .strings _, fun t ht ht' => hl.growBy_other hfmt ht ht' _,
              fun t ht => Function.update_of_ne ht _ _, rfl⟩, h.grow hfmt hl _, hp, by omega⟩
          · cases h2
            exact ⟨hl, ⟨rfl, fun t _ _ => ⟨rfl, fun _ _ => rfl⟩, fun _ _ => rfl, rfl⟩, h, rfl, by omega⟩
        obtain ⟨hl2, honly, hsec2, hp2, hroom2⟩ := hgrown
        have hout : ∀ x, x < s2.p .strings ∨ s2.p .strings + s2.size .strings ≤ x →
            s2.mem.strcpy (s2.p .strings + e) name x = s2.mem x := fun x hx => Mem.strcpy_out (by omega)
        have hlow : ∀ x, x < s2.p .strings → s2.mem.strcpy (s2.p .strings + e) name x = s2.mem x :=
          fun x hx => hout x (Or.inl hx)
        have htable : internTable l name = if name = [] then l else l ++ [name] := by
          rw [internTable, Lib.intern, if_neg hmem]
        rw [← hp2, htable]
        refine ⟨hl2.setSect hfmt .strings (by decide) hlow,
          ⟨(hl2.setSect_max hfmt .strings (by decide) hlow).trans honly.max,
            fun t ht ht' => (honly.same t ht ht').trans (hl2.write_other .strings ht hout), honly.size, honly.fixedSize⟩,
          hsec2.write hname hroom2, fun hn => ?_⟩
        rw [if_neg hn, packedOffset_concat hmem, hend]

/-- `add_string()` は、配置の不変条件と表を保ち、ほかの節のバイトを変えない。 -/
theorem StringSection.add (hfmt : fmt.Ok) (hl : s.Layout fmt fixed) (h : StringSection s l e) {name : List UInt8}
    (hname : ∀ c ∈ name, c ≠ 0) (hlen : name.length < 2 ^ 31) (hmax : s.maxSize fmt ≤ 2 ^ 16) :
    addString fmt s name ≠ .error .outside ∧ ∀ s' i, addString fmt s name = .ok (s', i) →
      s'.Layout fmt fixed ∧ s'.maxSize fmt = s.maxSize fmt ∧ (∃ l' e', StringSection s' l' e') ∧
      ∀ t, t ≠ .strings → t ≠ .syspage → SameBytes s s' t := by
  have htot := hl.total_le
  obtain ⟨hno, hok⟩ := h.intern hfmt hl hname (by omega)
  refine ⟨hno, fun s' i hs' => ?_⟩
  obtain ⟨hl', honly, hsec, _⟩ := hok s' i hs'
  exact ⟨hl', honly.max, ⟨_, hsec⟩, honly.same⟩

end

end Imx6Bsp.Startup
