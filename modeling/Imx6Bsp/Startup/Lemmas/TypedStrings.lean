import Imx6Bsp.Startup.Lemmas.SyspageRun
import Imx6Bsp.Startup.Strings

/-!
# 種別つきの文字列の節の不変条件

節のバイトが項目の列として読めること（`Parses`）を定め、走査が列の探索であることを示す。
-/

namespace Imx6Bsp.Startup

open Imx6Bsp.Lib

/-! ## 項目の列 -/

/-- 項目の大きさ。 -/
def entrySize (s : List UInt8) : Nat := 4 + roundUp (s.length + 1) 4

/-- 節の位置 `i` から `e` までが項目の列として読める。文字列の後ろは 0 で埋まっている。 -/
def Parses (m : Mem) (p : Nat) : Nat → List (Nat × List UInt8) → Nat → Prop
  | i, [], e => i = e
  | i, (type, s) :: l, e => m.readLE (p + i) 4 = type ∧ m.HasStr (p + (i + 4)) s ∧
      (∀ x, i + 4 + s.length < x → x < i + entrySize s → m (p + x) = 0) ∧ Parses m p (i + entrySize s) l e

/-- 列の中での、種別 `type` の項目の位置。 -/
def offsetOf (type : Nat) : Nat → List (Nat × List UInt8) → Option Nat
  | _, [] => none
  | i, (t, s) :: l => if t = type then some i else offsetOf type (i + entrySize s) l

theorem entrySize_dvd (s : List UInt8) : 4 ∣ entrySize s := by
  have := dvd_roundUp (s.length + 1) 4
  unfold entrySize; omega

theorem lt_entrySize (s : List UInt8) : s.length + 4 < entrySize s := by
  have := le_roundUp (s.length + 1) (a := 4) (by omega)
  unfold entrySize; omega

namespace Parses

variable {m m' : Mem} {p i e : Nat} {l l' : List (Nat × List UInt8)}

theorem le (h : Parses m p i l e) : i ≤ e := by
  induction l generalizing i with
  | nil => exact Nat.le_of_eq h
  | cons en l ih =>
      have := ih h.2.2.2
      omega

theorem dvd (h : Parses m p i l e) (hi : 4 ∣ i) : 4 ∣ e := by
  induction l generalizing i with
  | nil => cases h; exact hi
  | cons en l ih =>
      have := entrySize_dvd en.2
      exact ih h.2.2.2 (by omega)

/-- 項目は 8 バイト以上ある。 -/
theorem length_le (h : Parses m p i l e) : i + 8 * l.length ≤ e := by
  induction l generalizing i with
  | nil => exact Nat.le_of_eq h
  | cons en l ih =>
      have := ih h.2.2.2
      have h1 := lt_entrySize en.2
      have h2 := entrySize_dvd en.2
      rw [List.length_cons]; omega

theorem append (h : Parses m p i l e) {e' : Nat} (h' : Parses m p e l' e') : Parses m p i (l ++ l') e' := by
  induction l generalizing i with
  | nil => cases h; exact h'
  | cons en l ih => exact ⟨h.1, h.2.1, h.2.2.1, ih h.2.2.2⟩

theorem split (h : Parses m p i (l ++ l') e) : ∃ k, Parses m p i l k ∧ Parses m p k l' e := by
  induction l generalizing i with
  | nil => exact ⟨i, rfl, h⟩
  | cons en l ih =>
      obtain ⟨k, h1, h2⟩ := ih h.2.2.2
      exact ⟨k, ⟨h.1, h.2.1, h.2.2.1, h1⟩, h2⟩

theorem congr (h : Parses m p i l e) (hm : ∀ x, i ≤ x → x < e → m' (p + x) = m (p + x)) : Parses m' p i l e := by
  induction l generalizing i with
  | nil => exact h
  | cons en l ih =>
      obtain ⟨h1, h2, h3, h4⟩ := h
      have hle := h4.le
      have hlt := lt_entrySize en.2
      refine ⟨?_, h2.congr fun k hk => ?_, fun x hx hx' => ?_, ih h4 fun x hx hx' => hm x (by omega) hx'⟩
      · rw [← h1]
        refine Mem.readLE_congr fun k hk => ?_
        rw [Nat.add_assoc]; exact hm _ (by omega) (by omega)
      · rw [Nat.add_assoc]; exact hm _ (by omega) (by omega)
      · rw [hm x (by omega) (by omega)]; exact h3 x hx hx'

/-- 走査の進み方。 -/
theorem next {type : Nat} {s : List UInt8} (h : Parses m p i ((type, s) :: l) e) (hi : 4 ∣ i) (he : e + 4 ≤ 2 ^ 32) :
    round (i + 4 + (s.length + 1)) 4 = i + entrySize s := by
  have hle := h.2.2.2.le
  have hlt := lt_entrySize s
  rw [isAlign_four.round_eq (by omega), roundUp_add_of_dvd (by omega) (by omega), entrySize, Nat.add_assoc]

/-- 走査は、列の中で種別を探す。列にない種別では -1 を返し、`_CS_NONE` では列の終わりを返す。 -/
theorem find (h : Parses m p i l e) (hi : 4 ∣ i) (hend : m.readLE (p + e) 4 = csNone) {size : Nat}
    (hsize : e + 4 ≤ size) (hlt : size ≤ 2 ^ 32) (htypes : ∀ en ∈ l, en.1 ≠ csNone) (type : Nat) {fuel : Nat}
    (hfuel : l.length < fuel) :
    findTypedLoop m p size type i fuel = some (if type = csNone then some e else offsetOf type i l) := by
  induction l generalizing i fuel with
  | nil =>
      cases h
      cases fuel with
      | zero => simp at hfuel
      | succ fuel =>
          simp only [findTypedLoop, hend, offsetOf, if_true]
          by_cases ht : type = csNone
          · subst ht; simp
          · rw [if_neg (Ne.symm ht), if_neg ht]
  | cons en l ih =>
      obtain ⟨t, s⟩ := en
      cases fuel with
      | zero => simp at hfuel
      | succ fuel =>
          have hnext := h.next hi (by omega)
          obtain ⟨h1, h2, h3, h4⟩ := h
          have hle := h4.le
          have hen := lt_entrySize s
          have hne : t ≠ csNone := htypes (t, s) (by simp)
          have hstr := h2.strlen_eq (by omega : _ < size)
          simp only [findTypedLoop, h1, offsetOf]
          by_cases htt : t = type
          · have : type ≠ csNone := htt ▸ hne
            rw [if_pos htt, if_neg this, if_pos htt]
          · rw [if_neg htt, if_neg hne, hstr, if_neg htt]
            change findTypedLoop m p size type (round (i + 4 + (s.length + 1)) 4) fuel = _
            rw [hnext]
            have hd := entrySize_dvd s
            exact ih h4 (by omega) (fun en hen => htypes en (by simp [hen])) (by simp at hfuel; omega)

/-- 列にある種別の位置には、その項目がある。 -/
theorem offsetOf_mem (h : Parses m p i l e) (hi : 4 ∣ i) (hnd : (l.map Prod.fst).Nodup) {type : Nat} {s : List UInt8}
    (hs : (type, s) ∈ l) :
    ∃ j, offsetOf type i l = some j ∧ 4 ∣ j ∧ m.readLE (p + j) 4 = type ∧ m.HasStr (p + (j + 4)) s := by
  induction l generalizing i with
  | nil => simp at hs
  | cons en l ih =>
      obtain ⟨t, s'⟩ := en
      obtain ⟨h1, h2, h3, h4⟩ := h
      rw [List.map_cons] at hnd
      obtain ⟨hnot, hnd'⟩ := List.nodup_cons.mp hnd
      rw [offsetOf]
      rcases List.mem_cons.mp hs with heq | hs
      · cases heq
        exact ⟨i, if_pos rfl, hi, h1, h2⟩
      · have hne : t ≠ type := fun heq => hnot (List.mem_map.mpr ⟨(type, s), hs, heq.symm⟩)
        have hd := entrySize_dvd s'
        rw [if_neg hne]
        exact ih h4 (by omega) hnd' hs

end Parses

theorem offsetOf_none {type : Nat} {l : List (Nat × List UInt8)} (i : Nat) (h : ∀ s, (type, s) ∉ l) :
    offsetOf type i l = none := by
  induction l generalizing i with
  | nil => rfl
  | cons en l ih =>
      obtain ⟨t, s⟩ := en
      rw [offsetOf, if_neg, ih _ fun s' hs' => h s' (by simp [hs'])]
      rintro rfl
      exact h s (by simp)

/-- 最後の項目の位置は、残りの列の終わりである。 -/
theorem offsetOf_last {m : Mem} {p i k type : Nat} {l : List (Nat × List UInt8)} {s : List UInt8}
    (h : Parses m p i l k) (hl : ∀ s, (type, s) ∉ l) : offsetOf type i (l ++ [(type, s)]) = some k := by
  induction l generalizing i with
  | nil => cases h; exact if_pos rfl
  | cons en l ih =>
      obtain ⟨t, s'⟩ := en
      rw [List.cons_append, offsetOf, if_neg, ih h.2.2.2 fun s' hs' => hl s' (by simp [hs'])]
      rintro rfl
      exact hl s' (by simp)

/-! ## 節の操作 -/

/-- 前に詰める繰り返しは、`memmove()` と同じ結果になる。 -/
theorem copyDown_apply (m : Mem) (i j n x : Nat) (hij : i ≤ j) :
    copyDown m i j n x = if i ≤ x ∧ x < i + n then m (j + (x - i)) else m x := by
  induction n generalizing m i j with
  | zero => rw [if_neg (by omega)]; rfl
  | succ n ih =>
      rw [copyDown, ih _ _ _ (by omega)]
      by_cases hx : i + 1 ≤ x ∧ x < i + 1 + n
      · rw [if_pos hx, if_pos (by omega), Function.update_of_ne (by omega)]
        congr 1; omega
      · rw [if_neg hx]
        by_cases hxi : x = i
        · subst hxi
          rw [Function.update_self, if_pos (by omega), Nat.sub_self]; rfl
        · rw [Function.update_of_ne hxi, if_neg (by omega)]

/-- 節は項目の列として読め、列の後ろは 0 で埋まっている。 -/
structure TypedSection (s : Syspage) (entries : List (Nat × List UInt8)) (e : Nat) : Prop where
  parse : Parses s.mem (s.p .typedStrings) 0 entries e
  room : e + 4 ≤ s.size .typedStrings
  zeros : ∀ x, e ≤ x → x < s.size .typedStrings → s.mem (s.p .typedStrings + x) = 0
  nodup : (entries.map Prod.fst).Nodup
  types : ∀ en ∈ entries, en.1 ≠ csNone

section

variable {fmt : SyspageFormat} {fixed : List Sect} {s : Syspage} {entries : List (Nat × List UInt8)} {e : Nat}

theorem TypedSection.terminator (h : TypedSection s entries e) : s.mem.readLE (s.p .typedStrings + e) 4 = csNone :=
  Mem.readLE_zero fun i hi => by
    have hr := h.room
    rw [Nat.add_assoc]
    exact h.zeros _ (by omega) (by omega)

/-- `find_typed_string()` の結果。 -/
theorem TypedSection.find_eq (hl : s.Layout fmt fixed) (h : TypedSection s entries e) (type : Nat) :
    findTypedString s type = some (if type = csNone then some e else offsetOf type 0 entries) := by
  have hlt := hl.size_le .typedStrings
  have hlen := h.parse.length_le
  have hr := h.room
  exact h.parse.find (by omega) h.terminator hr (by omega) h.types type (by omega)

/-- 列にない種別では、`del_typed_string()` は何もしない。 -/
theorem TypedSection.del_absent (hl : s.Layout fmt fixed) (h : TypedSection s entries e) {type : Nat}
    (ht : type ≠ csNone) (hnot : ∀ str, (type, str) ∉ entries) : delTypedString s type = some s := by
  rw [delTypedString, h.find_eq hl, if_neg ht, offsetOf_none 0 hnot]; rfl

/-- 長さが 4 の倍数の最後の項目では、`del_typed_string()` は項目を 0 にする。 -/
theorem TypedSection.del_last (hl : s.Layout fmt fixed) {l : List (Nat × List UInt8)} {type : Nat} {str : List UInt8}
    (h : TypedSection s (l ++ [(type, str)]) e) (h4 : str.length % 4 = 0) :
    ∃ mem k, delTypedString s type = some { s with mem } ∧ (∀ x, x < s.p .typedStrings → mem x = s.mem x) ∧
      TypedSection { s with mem } l k := by
  have hnd := h.nodup
  rw [List.map_append, List.nodup_append] at hnd
  have hnot : ∀ str', (type, str') ∉ l := fun str' hm =>
    hnd.2.2 type (List.mem_map.mpr ⟨_, hm, rfl⟩) type (by simp) rfl
  have ht : type ≠ csNone := h.types (type, str) (by simp)
  obtain ⟨k, hk, hlast⟩ := h.parse.split
  obtain ⟨hty, hstr, hpad, hend⟩ := hlast
  have hkd : 4 ∣ k := hk.dvd (by omega)
  have hen : entrySize str = str.length + 8 := by
    have : roundUp (str.length + 1) 4 = str.length + 4 := by
      rw [roundUp_add_of_dvd (by omega) (by omega)]; rfl
    rw [entrySize, this]; omega
  have he : k + entrySize str = e := hend
  have hroom := h.room
  have hsz := hl.size_le .typedStrings
  have hj : round (k + str.length + 1) 4 = k + str.length + 4 := by
    rw [isAlign_four.round_eq (by omega), roundUp_add_of_dvd (by omega) (by omega)]; rfl
  set p := s.p .typedStrings with hp
  -- 詰める 4 バイトは、文字列の終わりの 0 と後ろの 0 である。
  have hword : ∀ x, k + 4 + str.length ≤ x → x < e → s.mem (p + x) = 0 := by
    intro x h1 h2
    rcases Nat.eq_or_lt_of_le h1 with heq | hlt
    · have := hstr.terminator
      rwa [Nat.add_assoc, heq] at this
    · exact hpad x hlt (by omega)
  have hn : e - (k + str.length + 4) = 4 := by omega
  have hmax : max (k + str.length + 4) e - (k + 4) = e - (k + 4) := by omega
  have hmem : ∀ x, ((copyDown s.mem (p + k) (p + (k + str.length + 4)) 4).zero (p + (k + 4)) (e - (k + 4))) x =
      if p + k ≤ x ∧ x < p + e then 0 else s.mem x := by
    intro x
    by_cases hz : p + (k + 4) ≤ x ∧ x < p + (k + 4) + (e - (k + 4))
    · rw [Mem.zero_in hz.1 hz.2, if_pos (by omega)]
    · rw [Mem.zero_out (by omega), copyDown_apply _ _ _ _ _ (by omega)]
      by_cases hc : p + k ≤ x ∧ x < p + k + 4
      · rw [if_pos hc, if_pos (by omega), Nat.add_assoc]
        exact hword _ (by omega) (by omega)
      · rw [if_neg hc, if_neg (by omega)]
  refine ⟨(copyDown s.mem (p + k) (p + (k + str.length + 4)) 4).zero (p + (k + 4)) (e - (k + 4)), k, ?_,
    fun x hx => ?_, ?_, ?_, fun x h1 h2 => ?_, hnd.1, fun en hen => h.types en (by simp [hen])⟩
  · rw [delTypedString, h.find_eq hl, if_neg ht, offsetOf_last hk hnot, h.find_eq hl]
    simp only [Option.bind_eq_bind, Option.bind_some, hstr.strlen_eq (by omega : _ < s.size .typedStrings),
      if_true, ← hp, hj, hn, hmax]
    rfl
  · rw [hmem, if_neg (by omega)]
  · exact hk.congr fun x _ hx => (hmem (p + x)).trans (if_neg (by omega))
  · change k + 4 ≤ s.size .typedStrings
    omega
  · refine (hmem (p + x)).trans ?_
    by_cases hx : x < e
    · rw [if_pos (by omega)]
    · rw [if_neg (by omega)]
      exact h.zeros x (by omega) h2

theorem TypedSection.grow (hfmt : fmt.Ok) (hl : s.Layout fmt fixed) (h : TypedSection s entries e) (k : Nat) :
    TypedSection (growBy fmt s .typedStrings k) entries e := by
  obtain ⟨hp, hsize, hold, hnew⟩ := hl.growBy_self hfmt .typedStrings (by decide) k
  have hr := h.room
  refine ⟨?_, by omega, fun x h1 h2 => ?_, h.nodup, h.types⟩
  · rw [hp]
    exact h.parse.congr fun x _ hx => hold x (by omega)
  · rw [hp]
    by_cases hx : x < s.size .typedStrings
    · rw [hold x hx]; exact h.zeros x h1 hx
    · exact hnew x (by omega) (by omega)

/-- 列の終わりに項目を書く。 -/
theorem TypedSection.write (h : TypedSection s entries e) {type : Nat} {name : List UInt8} (ht : type ≠ csNone)
    (hlt : type < 2 ^ 32) (hname : ∀ c ∈ name, c ≠ 0) (hnot : ∀ str, (type, str) ∉ entries)
    (hroom : e + entrySize name + 4 ≤ s.size .typedStrings) :
    TypedSection { s with mem := (s.mem.writeLE (s.p .typedStrings + e) 4 type).strcpy (s.p .typedStrings + (e + 4)) name }
      (entries ++ [(type, name)]) (e + entrySize name) := by
  have hen := lt_entrySize name
  set p := s.p .typedStrings with hp
  have hout : ∀ x, x < e ∨ e + 4 + name.length < x →
      ((s.mem.writeLE (p + e) 4 type).strcpy (p + (e + 4)) name) (p + x) = s.mem (p + x) := fun x hx => by
    rw [Mem.strcpy_out (by omega), Mem.writeLE_of_disjoint (by omega)]
  refine ⟨?_, hroom, fun x h1 h2 => ?_, ?_, fun en hen => ?_⟩
  · refine (h.parse.congr fun x _ hx => hout x (Or.inl hx)).append ⟨?_, Mem.hasStr_strcpy _ _ hname, fun x h1 h2 => ?_, rfl⟩
    · rw [← hp]
      have hread : ((s.mem.writeLE (p + e) 4 type).strcpy (p + (e + 4)) name).readLE (p + e) 4 =
          (s.mem.writeLE (p + e) 4 type).readLE (p + e) 4 :=
        Mem.readLE_congr fun i hi => Mem.strcpy_out (by omega)
      exact hread.trans ((Mem.readLE_writeLE_self _ _ _ _).trans (Nat.mod_eq_of_lt hlt))
    · exact (hout x (Or.inr h1)).trans (h.zeros x (by omega) (by omega))
  · exact (hout x (by omega)).trans (h.zeros x (by omega) h2)
  · rw [List.map_append, List.nodup_append]
    refine ⟨h.nodup, by simp, fun a ha b hb => ?_⟩
    obtain ⟨⟨t, str⟩, hmem, rfl⟩ := List.mem_map.mp ha
    rw [List.map_singleton, List.mem_singleton] at hb
    intro heq
    have hty : t = type := heq.trans hb
    exact hnot str (hty ▸ hmem)
  · rcases List.mem_append.mp hen with hen | hen
    · exact h.types en hen
    · rw [List.mem_singleton.mp hen]; exact ht

/-- `del_typed_string()` の結果。 -/
theorem TypedSection.del (hfmt : fmt.Ok) (hl : s.Layout fmt fixed) (h : TypedSection s entries e) {type : Nat}
    (ht : type ≠ csNone) (hclean : ∀ str, (type, str) ∈ entries →
      entries.getLast? = some (type, str) ∧ str.length % 4 = 0) :
    ∃ mem e', delTypedString s type = some { s with mem } ∧ ({ s with mem } : Syspage).Layout fmt fixed ∧
      ({ s with mem } : Syspage).totalSize fmt = s.totalSize fmt ∧
      TypedSection { s with mem } (entries.filter (·.1 ≠ type)) e' := by
  by_cases hin : ∃ str, (type, str) ∈ entries
  · obtain ⟨str, hstr⟩ := hin
    obtain ⟨hlast, h4⟩ := hclean str hstr
    obtain ⟨l, rfl⟩ := List.getLast?_eq_some_iff.mp hlast
    obtain ⟨mem, k, hdel, hlow, hsec⟩ := h.del_last hl h4
    have hfilter : (l ++ [(type, str)]).filter (·.1 ≠ type) = l := by
      have hnd := h.nodup
      rw [List.map_append, List.nodup_append] at hnd
      rw [List.filter_append, List.filter_eq_self.mpr]
      · simp
      · intro en hen
        have := hnd.2.2 en.1 (List.mem_map_of_mem hen) type (by simp)
        simpa using this
    have hl' := hl.setSect hfmt .typedStrings (by decide) hlow
    rw [hfilter]
    refine ⟨mem, k, hdel, hl', Mem.readLE_congr fun i hi => ?_, hsec⟩
    have hp := hl.p_eq .typedStrings
    have hfr := hl.front (t := .typedStrings) (by decide)
    have hh := hl.header
    have hti := hfmt.total_in
    exact hlow (s.p .syspage + fmt.totalSizeOff + i) (by omega)
  · have hnot : ∀ str, (type, str) ∉ entries := fun str hm => hin ⟨str, hm⟩
    refine ⟨s.mem, e, h.del_absent hl ht hnot, hl, rfl, ?_⟩
    rw [List.filter_eq_self.mpr]
    · exact h
    · intro en hen
      refine decide_eq_true fun heq => hnot en.2 ?_
      rw [← heq]; exact hen

/-- 列の終わりに項目を書くところの結果。 -/
theorem TypedSection.append (hfmt : fmt.Ok) (hl : s.Layout fmt fixed) (h : TypedSection s entries e) {type : Nat}
    {name : List UInt8} (ht : type ≠ csNone) (hlt : type < 2 ^ 32) (hname : ∀ c ∈ name, c ≠ 0)
    (hnot : ∀ str, (type, str) ∉ entries) (hb : s.totalSize fmt + name.length + 32 ≤ 2 ^ 32) {s' : Syspage}
    (hs : appendTypedString fmt s (s.p .typedStrings) e type name = .ok s') :
    ∃ e', s'.Layout fmt fixed ∧ TypedSection s' (entries ++ [(type, name)]) e' := by
  have hlen : round (name.length + 1) 4 + 4 = entrySize name := by
    rw [isAlign_four.round_eq (by omega), entrySize, Nat.add_comm]
  have hen : entrySize name < name.length + 9 := by
    have := roundUp_lt (name.length + 1) (a := 4) (by omega)
    unfold entrySize; omega
  have hr := h.room
  have hsz := hl.size_le .typedStrings
  have hneed : wrap32 (round (name.length + 1) 4 + 8) = entrySize name + 4 := by
    rw [wrap32_of_lt (by omega)]; omega
  obtain ⟨s1, h1, rfl⟩ := Except.map_eq_ok.mp hs
  rw [hneed, wrap32_sub (by omega) hsz] at h1
  -- 足りなければ節を伸ばし、どちらの場合も項目と `_CS_NONE` が収まる。
  have hgrown : s1.Layout fmt fixed ∧ TypedSection s1 entries e ∧ s1.p .typedStrings = s.p .typedStrings ∧
      e + entrySize name + 4 ≤ s1.size .typedStrings := by
    split at h1
    · rename_i hlt'
      have hge := le_round_eight (x := entrySize name + 4 - (s.size .typedStrings - e)) (by omega)
      have hro := round_eight_lt (x := entrySize name + 4 - (s.size .typedStrings - e)) (by omega)
      obtain ⟨hfit, rfl⟩ := growSyspageSection_ok hl (by omega) (by omega) h1
      obtain ⟨hp, hsize, _⟩ := hl.growBy_self hfmt .typedStrings (by decide)
        (round (entrySize name + 4 - (s.size .typedStrings - e)) 8)
      exact ⟨hl.grow hfmt .typedStrings hfit, h.grow hfmt hl _, hp, by omega⟩
    · cases h1
      exact ⟨hl, h, rfl, by omega⟩
  obtain ⟨hl1, hsec1, hp1, hroom1⟩ := hgrown
  rw [← hp1]
  refine ⟨_, hl1.setSect hfmt .typedStrings (by decide) fun x hx => ?_,
    hsec1.write ht hlt hname hnot hroom1⟩
  rw [Mem.strcpy_out (by omega), Mem.writeLE_of_lt (by omega)]

/-- `add_typed_string()` の結果。走査は節の外に出ない。 -/
theorem TypedSection.add (hfmt : fmt.Ok) (hl : s.Layout fmt fixed) (h : TypedSection s entries e) {type : Nat}
    {name : List UInt8} (ht : type ≠ csNone) (hlt : type < 2 ^ 32) (hname : ∀ c ∈ name, c ≠ 0)
    (hb : s.totalSize fmt + name.length + 32 ≤ 2 ^ 32) (hclean : ∀ str, (type, str) ∈ entries →
      entries.getLast? = some (type, str) ∧ str.length % 4 = 0) :
    addTypedString fmt s type name ≠ .error .outside ∧
      ∀ s', addTypedString fmt s type name = .ok s' → ∃ e', s'.Layout fmt fixed ∧
        TypedSection s' (entries.filter (·.1 ≠ type) ++ [(type, name)]) e' := by
  obtain ⟨mem, e1, hdel, hl1, htot, hsec⟩ := h.del hfmt hl ht hclean
  have hnot : ∀ str, (type, str) ∉ entries.filter (·.1 ≠ type) := fun str hm => by simp at hm
  have hfind := hsec.find_eq hl1 csNone
  rw [if_pos rfl] at hfind
  simp only [addTypedString, hdel, hfind]
  cases happ : appendTypedString fmt { s with mem } (s.p .typedStrings) e1 type name with
  | error c => exact ⟨nofun, nofun⟩
  | ok s1 =>
      refine ⟨nofun, fun s' hs' => ?_⟩
      cases hs'
      exact hsec.append hfmt hl1 ht hlt hname hnot (by rw [htot]; exact hb) happ

end

/-! ## 実行の不変条件 -/

/-- 実行の不変条件。 -/
def StringTrace.Inv (fmt : SyspageFormat) (t : StringTrace) : Prop :=
  ∃ fixed e, t.sp.Layout fmt fixed ∧ TypedSection t.sp t.entries e

variable {fmt : SyspageFormat} {t u : StringTrace}

/-- 前提を満たし、消す項目が最後にあって長さが 4 の倍数である呼び出しは、不変条件を保つ。 -/
theorem StringTrace.Inv.step (hfmt : fmt.Ok) (h : t.Inv fmt) {c : StringCall} (hc : t.InDomain fmt c)
    (hclean : t.DelClean c) : t.step fmt c ≠ .error .outside ∧ ∀ u, t.step fmt c = .ok u → u.Inv fmt := by
  obtain ⟨fixed, e, hl, hsec⟩ := h
  cases c with
  | add type name =>
      obtain ⟨ht, hlt, hname, hb⟩ := hc
      obtain ⟨hne, hadd⟩ := hsec.add hfmt hl ht hlt hname hb hclean
      rw [StringTrace.step]
      cases hres : addTypedString fmt t.sp type name with
      | error c =>
          refine ⟨fun h => hne ?_, nofun⟩
          cases h; exact hres
      | ok s' =>
          obtain ⟨e', hl', hsec'⟩ := hadd s' hres
          refine ⟨nofun, fun u hu => ?_⟩
          cases hu
          exact ⟨fixed, e', hl', hsec'⟩
  | del type =>
      obtain ⟨mem, e', hdel, hl', _, hsec'⟩ := hsec.del hfmt hl hc.1 hclean
      rw [StringTrace.step, hdel]
      refine ⟨nofun, fun u hu => ?_⟩
      cases hu
      exact ⟨fixed, e', hl', hsec'⟩

end Imx6Bsp.Startup
