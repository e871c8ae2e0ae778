import Imx6Bsp.Startup.Bootargs

/-!
# 起動引数の書き換えは、文字列の列の書き換えである

`do_adjust()` の走査は、書き換える場所で列を三つに分ける（`Place`）。書き換えは、その真ん中のバイトを新しい文字列のバイトで
入れ替える。
-/

namespace Imx6Bsp.Startup
open Imx6Bsp.Lib

/-! ## 走査 -/

section
variable {m : Mem} {p : Nat} {l : List CStr} {rest : List UInt8}

theorem strlen_head {s : CStr} (hlen : s.1.length < stringMax)
    (h : m.slice p (s.bytes ++ rest).length = s.bytes ++ rest) :
    m.strlen p stringMax = some s.1.length ∧ m.HasStr p s.1 ∧
      m.slice (p + (s.1.length + 1)) rest.length = rest := by
  rw [List.length_append, Mem.slice_append_iff] at h
  have hs := Mem.hasStr_of_slice s h.1
  refine ⟨hs.strlen_eq hlen, hs, ?_⟩
  have := h.2
  rwa [CStr.length_bytes] at this

theorem skipStrings_eq (hlen : (CStr.encode l ++ rest).length < stringMax)
    (h : m.slice p (CStr.encode l ++ rest).length = CStr.encode l ++ rest) :
    skipStrings m l.length p = some (p + (CStr.encode l).length) := by
  induction l generalizing p with
  | nil => rfl
  | cons s l ih =>
      rw [CStr.encode_cons, List.append_assoc] at h hlen
      rw [List.length_append, CStr.length_bytes] at hlen
      obtain ⟨hn, _, hrest⟩ := strlen_head (by omega) h
      rw [List.length_cons, skipStrings, hn]
      refine (ih (by omega) hrest).trans ?_
      rw [CStr.encode_cons, List.length_append, CStr.length_bytes, Nat.add_assoc]

theorem findString_cons {s : CStr} (old : Option CStr) {num : Nat} (hn : m.strlen p stringMax = some s.1.length)
    (hs : m.HasStr p s.1) :
    findString m old (num + 1) p =
      if old = some s then some (some (p, s.1.length + 1)) else findString m old num (p + (s.1.length + 1)) := by
  have hcmp : (old.any fun t => m.strEq p t.1) = true ↔ old = some s := by
    rw [Option.any_eq_true]
    constructor
    · rintro ⟨t, ht, heq⟩
      rw [ht, Subtype.ext ((Mem.strEq_iff hs t.2).mp heq)]
    · exact fun h => ⟨s, h, (Mem.strEq_iff hs s.2).mpr rfl⟩
  rw [findString, hn]
  by_cases he : old = some s
  · rw [if_pos he]
    exact if_pos (hcmp.mpr he)
  · rw [if_neg he]
    exact if_neg fun hc => he (hcmp.mp hc)

theorem edit_cons {old : Option CStr} {s : CStr} (new : Option CStr) (h : old ≠ some s) :
    edit old new (s :: l) = (edit old new l).map (s :: ·) := by
  cases old with
  | none => rfl
  | some t => exact if_neg fun he => h (by rw [he])

theorem edit_eq_none {old : Option CStr} (new : Option CStr) : edit old new l = none ↔ ∃ s, old = some s ∧ s ∉ l := by
  induction l with
  | nil =>
      cases old with
      | none => exact ⟨fun h => (by cases h), fun ⟨_, h, _⟩ => (by cases h)⟩
      | some s => exact ⟨fun _ => ⟨s, rfl, List.not_mem_nil⟩, fun _ => rfl⟩
  | cons t l ih =>
      by_cases he : old = some t
      · subst he
        refine ⟨fun h => absurd ((if_pos rfl).symm.trans h) (Option.some_ne_none _), ?_⟩
        rintro ⟨s, hs, hno⟩
        exact absurd (Option.some.inj hs ▸ List.mem_cons_self) hno
      · rw [edit_cons new he, Option.map_eq_none_iff, ih]
        refine exists_congr fun s => and_congr_right fun hs => ?_
        rw [List.mem_cons, not_or]
        exact ⟨fun h => ⟨fun h' => he (by rw [hs, h']), h⟩, And.right⟩

/-- 列 `l` は、書き換える場所で `pre`、`mid`、`post` に分かれる。 -/
structure Place (old : Option CStr) (l pre mid post : List CStr) : Prop where
  split : l = pre ++ (mid ++ post)
  mid : mid = old.toList
  edit : ∀ new : Option CStr, edit old new l = some (pre ++ (new.toList ++ post))

theorem Place.cons {old : Option CStr} {s : CStr} {pre mid post : List CStr} (h : Place old l pre mid post)
    (hs : old ≠ some s) : Place old (s :: l) (s :: pre) mid post :=
  ⟨congrArg (s :: ·) h.split, h.mid, fun new => by rw [edit_cons new hs, h.edit new]; rfl⟩

/-- 走査は、列の書き換えがあるとき、その場所を返す。 -/
theorem findString_spec (old : Option CStr) (hlen : (CStr.encode l ++ rest).length < stringMax)
    (h : m.slice p (CStr.encode l ++ rest).length = CStr.encode l ++ rest) :
    ((∃ s, old = some s ∧ s ∉ l) ∧ findString m old l.length p = some none) ∨
      ∃ pre mid post, Place old l pre mid post ∧
        findString m old l.length p = some (some (p + (CStr.encode pre).length, (CStr.encode mid).length)) := by
  induction l generalizing p with
  | nil =>
      cases old with
      | none => exact .inr ⟨[], [], [], ⟨rfl, rfl, fun new => by rw [List.append_nil]; rfl⟩, rfl⟩
      | some s => exact .inl ⟨⟨s, rfl, List.not_mem_nil⟩, rfl⟩
  | cons s l ih =>
      rw [CStr.encode_cons, List.append_assoc] at h hlen
      rw [List.length_append, CStr.length_bytes] at hlen
      obtain ⟨hn, hs, hrest⟩ := strlen_head (by omega) h
      rw [List.length_cons, findString_cons old hn hs]
      by_cases he : old = some s
      · subst he
        refine .inr ⟨[], [s], l, ⟨rfl, rfl, fun new => if_pos rfl⟩, ?_⟩
        rw [if_pos rfl, CStr.encode_cons, CStr.encode_nil, List.append_nil, CStr.length_bytes]
        rfl
      · rw [if_neg he]
        rcases ih (by omega) hrest with ⟨hno, hfind⟩ | ⟨pre, mid, post, hplace, hfind⟩
        · refine .inl ⟨?_, hfind⟩
          rw [← edit_eq_none none] at hno ⊢
          rw [edit_cons none he, hno, Option.map_none]
        · refine .inr ⟨s :: pre, mid, post, hplace.cons he, ?_⟩
          rw [hfind, CStr.encode_cons, List.length_append, CStr.length_bytes, Nat.add_assoc]

end

/-! ## 書き換え -/

section
variable {m : Mem} {bap countp : Nat} {old new : Option CStr} {l pre mid post : List CStr} {front rest : List UInt8}

theorem split_size {n : Nat} (h : n < 65536) :
    (UInt8.ofNat (n &&& 0xff)).toNat + (UInt8.ofNat (n >>> 8)).toNat <<< 8 = n := by
  rw [UInt8.toNat_ofNat', UInt8.toNat_ofNat', show 0xff = 2 ^ 8 - 1 from rfl, Nat.and_two_pow_sub_one_eq_mod,
    Nat.shiftRight_eq_div_pow, Nat.shiftLeft_eq]
  omega

theorem adjustCount_of_ne {x : Nat} (h : x ≠ countp) : adjustCount m old new countp x = m x := by
  unfold adjustCount
  split
  · exact Function.update_of_ne h _ _
  · split_ifs
    · exact Function.update_of_ne h _ _
    · rfl

/-- 書き換えた後の数。 -/
theorem adjustCount_self (hne : old ≠ none ∨ new ≠ none) (hplace : Place old l pre mid post)
    (hcount : (m countp).toNat = l.length) (hfit : (pre ++ (new.toList ++ post)).length < 256) :
    (adjustCount m old new countp countp).toNat = (pre ++ (new.toList ++ post)).length := by
  have hlen := congrArg List.length hplace.split
  have hmid := congrArg List.length hplace.mid
  simp only [List.length_append] at hlen hfit ⊢
  cases new with
  | none =>
      cases old with
      | none => exact absurd rfl (hne.elim id id)
      | some s =>
          rw [Option.toList_some, List.length_singleton] at hmid
          have hpos : 1 ≤ m countp := UInt8.le_iff_toNat_le.mpr (by rw [hcount, hlen, hmid, UInt8.toNat_one]; omega)
          rw [adjustCount, Function.update_self, UInt8.toNat_sub_of_le _ _ hpos]
          simp
          omega
  | some t =>
      cases old with
      | none =>
          rw [Option.toList_none, List.length_nil] at hmid
          rw [adjustCount, if_pos rfl, Function.update_self, UInt8.toNat_add]
          simp at hfit ⊢
          omega
      | some s =>
          rw [Option.toList_some, List.length_singleton] at hmid
          rw [adjustCount, if_neg (Option.some_ne_none s)]
          simp
          omega

theorem encode_toList (new : Option CStr) : (new.map CStr.bytes).getD [] = CStr.encode new.toList := by
  cases new with
  | none => rfl
  | some s => exact (List.append_nil _).symm

/-- 書き換えた後のブロック。`front` から後ろの `O` が、新しい文字列 `N` に替わる。 -/
structure Replaced (m m' : Mem) (bap : Nat) (bytes : List UInt8) : Prop where
  size : (m' bap).toNat + (m' (bap + 1)).toNat <<< 8 = argsOff + bytes.length
  strings : m'.slice (bap + argsOff) bytes.length = bytes
  frame : ∀ x, x < bap ∨ bap + argcOff ≤ x → x < bap + argsOff ∨ bap + argsOff + bytes.length ≤ x → m' x = m x

theorem doOperation_spec (old : Option CStr) {O Y : List UInt8} (hc : countp = bap + argcOff ∨ countp = bap + envcOff)
    (hsize : (m bap).toNat + (m (bap + 1)).toNat <<< 8 = argsOff + (front ++ (O ++ Y)).length)
    (hs : m.slice (bap + argsOff) (front ++ (O ++ Y)).length = front ++ (O ++ Y))
    (hfit : argsOff + (front ++ (CStr.encode new.toList ++ Y)).length < 65536) :
    Replaced (adjustCount m old new countp) (doOperation m bap old new countp (bap + argsOff + front.length) O.length) bap
      (front ++ (CStr.encode new.toList ++ Y)) := by
  have hm : ∀ x, x ≠ bap + argcOff → x ≠ bap + envcOff → adjustCount m old new countp x = m x := fun x h1 h2 =>
    adjustCount_of_ne (by rcases hc with rfl | rfl <;> assumption)
  unfold argsOff argcOff envcOff at *
  simp only [List.length_append] at hsize hs hfit
  unfold doOperation
  simp only [encode_toList]
  set N := CStr.encode new.toList with hN
  set m₁ := adjustCount m old new countp with hm₁
  rw [show (m₁ bap).toNat + (m₁ (bap + 1)).toNat <<< 8 = 8 + (front.length + (O.length + Y.length)) by
    rw [hm _ (by omega) (by omega), hm _ (by omega) (by omega), hsize]]
  have hlen : ((((bap + (8 + (front.length + (O.length + Y.length))) : Nat) : Int) -
      (((bap + 8 + front.length : Nat) : Int) - ((N.length : Int) - O.length))) % 2 ^ 32).toNat = N.length + Y.length := by omega
  have hnew : ((((8 + (front.length + (O.length + Y.length)) : Nat) : Int) + ((N.length : Int) - O.length)) % 2 ^ 32).toNat =
      8 + (front.length + (N.length + Y.length)) := by omega
  simp only [hlen, hnew]
  have hs₁ : m₁.slice (bap + 8) (front.length + (O.length + Y.length)) = front ++ (O ++ Y) := by
    rw [← hs]
    exact Mem.slice_congr fun i _ => hm _ (by omega) (by omega)
  have hs₂ := Mem.slice_splice (N := N) rfl rfl hs₁
  refine ⟨?_, ?_, fun x h1 h2 => ?_⟩
  · rw [Function.update_self, Function.update_of_ne (by omega), Function.update_self, List.length_append, List.length_append]
    exact split_size hfit
  · rw [List.length_append, List.length_append, ← hs₂]
    refine Mem.slice_congr fun i _ => ?_
    rw [argsOff, Function.update_of_ne (by omega), Function.update_of_ne (by omega)]
  · rw [List.length_append, List.length_append] at h2
    unfold argcOff at h1
    unfold argsOff at h2
    rw [Function.update_of_ne (by omega), Function.update_of_ne (by omega), Mem.splice_out (by omega)]

/-- 書き換えた後の記憶域。数は `n`、文字列の部分は `bytes` である。 -/
structure Adjusted (m m' : Mem) (bap countp n : Nat) (bytes : List UInt8) : Prop where
  size : (m' bap).toNat + (m' (bap + 1)).toNat <<< 8 = argsOff + bytes.length
  count : (m' countp).toNat = n
  strings : m'.slice (bap + argsOff) bytes.length = bytes
  frame : ∀ x, x < bap ∨ bap + argcOff ≤ x → x ≠ countp → x < bap + argsOff ∨ bap + argsOff + bytes.length ≤ x → m' x = m x

theorem doAdjust_spec (new : Option CStr) (skip : List CStr) (hc : countp = bap + argcOff ∨ countp = bap + envcOff) (hne : old ≠ none ∨ new ≠ none)
    (hcount : (m countp).toNat = l.length)
    (hsize : (m bap).toNat + (m (bap + 1)).toNat <<< 8 = argsOff + (CStr.encode skip ++ (CStr.encode l ++ rest)).length)
    (hs : m.slice (bap + argsOff) (CStr.encode skip ++ (CStr.encode l ++ rest)).length =
      CStr.encode skip ++ (CStr.encode l ++ rest)) :
    ((∃ s, old = some s ∧ s ∉ l) ∧ doAdjust m bap old new skip.length countp = some (m, false)) ∨
      ∃ l' m', edit old new l = some l' ∧ doAdjust m bap old new skip.length countp = some (m', true) ∧
        (l'.length < 256 → argsOff + (CStr.encode skip ++ (CStr.encode l' ++ rest)).length < 65536 →
          Adjusted m m' bap countp l'.length (CStr.encode skip ++ (CStr.encode l' ++ rest))) := by
  have hlen : (CStr.encode skip ++ (CStr.encode l ++ rest)).length < stringMax := by
    have h0 := (m bap).toNat_lt
    have h1 := (m (bap + 1)).toNat_lt
    rw [Nat.shiftLeft_eq] at hsize
    unfold stringMax
    omega
  have hlen' : (CStr.encode l ++ rest).length < stringMax := by
    rw [List.length_append] at hlen
    omega
  have hskip := skipStrings_eq hlen hs
  rw [List.length_append, Mem.slice_append_iff] at hs
  rcases findString_spec old hlen' hs.2 with ⟨hno, hfind⟩ | ⟨pre, mid, post, hplace, hfind⟩
  · refine .inl ⟨hno, ?_⟩
    simp only [doAdjust, hskip, hcount, Option.bind_eq_bind, Option.bind_some, hfind]
    rfl
  · have hrun : doAdjust m bap old new skip.length countp =
        some (doOperation m bap old new countp (bap + argsOff + (CStr.encode skip).length + (CStr.encode pre).length)
          (CStr.encode mid).length, true) := by
      simp only [doAdjust, hskip, hcount, Option.bind_eq_bind, Option.bind_some, hfind]
      rfl
    refine .inr ⟨_, _, hplace.edit new, hrun, fun hfit hfit' => ?_⟩
    have hjoin : ∀ x, CStr.encode skip ++ (CStr.encode (pre ++ (x ++ post)) ++ rest) =
        (CStr.encode skip ++ CStr.encode pre) ++ (CStr.encode x ++ (CStr.encode post ++ rest)) := fun x => by simp
    rw [← Mem.slice_append_iff, ← List.length_append, hplace.split, hjoin] at hs
    rw [hplace.split, hjoin] at hsize
    rw [hjoin] at hfit' ⊢
    have hr := doOperation_spec old hc hsize hs hfit'
    rw [List.length_append, ← Nat.add_assoc] at hr
    refine ⟨hr.size, ?_, hr.strings, fun x h1 h2 h3 => ?_⟩
    · rw [hr.frame _ (by unfold argcOff envcOff at *; omega) (by unfold argcOff envcOff argsOff at *; omega)]
      exact adjustCount_self hne hplace hcount hfit
    · rw [hr.frame x h1 h3, adjustCount_of_ne h2]

end

/-! ## 引数と環境変数 -/

/-- 書き換えた後の記憶域が、引数 `args` と環境変数 `envs` を表し、ほかのバイトは元のままである。 -/
structure Rewritten (m m' : Mem) (bap : Nat) (args envs : List CStr) (rest : List UInt8) : Prop where
  block : Bootargs m' bap args envs rest
  frame : ∀ x, x < bap ∨ bap + envcOff < x → x < bap + argsOff ∨ bap + blockSize args envs rest ≤ x → m' x = m x

/-- 呼び出しの結果 `r` が、列 `l` の書き換えを表す。`put` は、書き換えた列を置いた後の引数と環境変数である。 -/
structure Refines (m : Mem) (bap : Nat) (old new : Option CStr) (l : List CStr) (put : List CStr → List CStr × List CStr)
    (rest : List UInt8) (r : Option (Mem × Bool)) : Prop where
  edited : ∀ l', edit old new l = some l' → ArgsFit (put l').1 (put l').2 rest →
    ∃ m', r = some (m', true) ∧ Rewritten m m' bap (put l').1 (put l').2 rest
  refused : (∃ m', r = some (m', false)) ↔ ∃ s, old = some s ∧ s ∉ l
  untouched : ∀ m', r = some (m', false) → m' = m

section
variable {m : Mem} {bap : Nat} {args envs : List CStr} {rest : List UInt8} {old new : Option CStr}

theorem refines_of_adjust {l : List CStr} {put : List CStr → List CStr × List CStr} {r : Option (Mem × Bool)}
    (h : ((∃ s, old = some s ∧ s ∉ l) ∧ r = some (m, false)) ∨ ∃ l' m', edit old new l = some l' ∧ r = some (m', true) ∧
      (ArgsFit (put l').1 (put l').2 rest → Rewritten m m' bap (put l').1 (put l').2 rest)) :
    Refines m bap old new l put rest r := by
  rcases h with ⟨hno, rfl⟩ | ⟨l', m', hedit, rfl, hok⟩
  · refine ⟨fun l' hedit => ?_, ⟨fun _ => hno, fun _ => ⟨m, rfl⟩⟩, fun m' h => ?_⟩
    · rw [(edit_eq_none _).mpr hno] at hedit
      cases hedit
    · cases h
      rfl
  · refine ⟨fun l₁ hedit₁ hfit => ?_, ⟨?_, fun hno => ?_⟩, fun m₁ h => (by cases h)⟩
    · rw [hedit] at hedit₁
      cases hedit₁
      exact ⟨m', rfl, hok hfit⟩
    · rintro ⟨m₁, h⟩
      cases h
    · rw [(edit_eq_none _).mpr hno] at hedit
      cases hedit

theorem arg_refines (h : Bootargs m bap args envs rest) (hne : old ≠ none ∨ new ≠ none) :
    Refines m bap old new args (fun l => (l, envs)) rest (bootstrapArgAdjust m bap old new) := by
  refine refines_of_adjust ?_
  rcases doAdjust_spec new [] (.inl rfl) hne h.argc h.size h.strings with hno | ⟨l', m', hedit, hr, hok⟩
  · exact .inl hno
  · refine .inr ⟨l', m', hedit, hr, fun hfit => ?_⟩
    have hadj := hok hfit.argc hfit.size
    refine ⟨⟨hadj.size, hadj.count, ?_, hadj.strings⟩, fun x h1 h2 => ?_⟩
    · rw [hadj.frame _ (by unfold argcOff envcOff; omega) (by unfold argcOff envcOff; omega)
        (by unfold envcOff argsOff; omega), h.envc]
    · refine hadj.frame x (by unfold argcOff envcOff at *; omega) (by unfold argcOff envcOff at *; omega) ?_
      rwa [Nat.add_assoc bap argsOff]

theorem env_refines (h : Bootargs m bap args envs rest) (hne : old ≠ none ∨ new ≠ none) :
    Refines m bap old new envs (fun l => (args, l)) rest (bootstrapEnvAdjust m bap old new) := by
  refine refines_of_adjust ?_
  rw [bootstrapEnvAdjust, h.argc]
  rcases doAdjust_spec new args (.inr rfl) hne h.envc h.size h.strings with
    hno | ⟨l', m', hedit, hr, hok⟩
  · exact .inl hno
  · refine .inr ⟨l', m', hedit, hr, fun hfit => ?_⟩
    have hadj := hok hfit.envc hfit.size
    refine ⟨⟨hadj.size, ?_, hadj.count, hadj.strings⟩, fun x h1 h2 => ?_⟩
    · rw [hadj.frame _ (by omega) (by unfold argcOff envcOff; omega) (by unfold argcOff argsOff; omega), h.argc]
    · refine hadj.frame x (by unfold argcOff envcOff at *; omega) (by unfold envcOff at *; omega) ?_
      rwa [Nat.add_assoc bap argsOff]

end

/-- `bootstrap_arg_adjust()` と `bootstrap_env_adjust()` は、引数または環境変数の列の書き換えを表す。 -/
theorem bootstrap_adjust_refines {m : Mem} {bap : Nat} {args envs : List CStr} {rest : List UInt8} {old new : Option CStr}
    (h : Bootargs m bap args envs rest) (hne : old ≠ none ∨ new ≠ none) :
    Refines m bap old new args (fun l => (l, envs)) rest (bootstrapArgAdjust m bap old new) ∧
      Refines m bap old new envs (fun l => (args, l)) rest (bootstrapEnvAdjust m bap old new) :=
  ⟨arg_refines h hne, env_refines h hne⟩

/-! ## 引数が二つのブロック -/

def kernelArg : CStr := ⟨[0x70, 0x6b], by decide +kernel⟩
def verboseArg : CStr := ⟨[0x2d, 0x76, 0x76], by decide +kernel⟩
def homeEnv : CStr := ⟨[0x48, 0x3d, 0x2f], by decide +kernel⟩

/-- 引数 `pk`、`-vv` と環境変数 `H=/` を持つ、番地 16 のブロック。 -/
def twoArgs : Mem :=
  Mem.copy (fun _ => 0) 16 ([19, 0, 2, 1, 0, 0, 0, 0] ++ (CStr.encode [kernelArg, verboseArg] ++ CStr.encode [homeEnv]))

theorem twoArgs_bootargs : Bootargs twoArgs 16 [kernelArg, verboseArg] [homeEnv] [] := by
  constructor <;> decide

/-- 先頭の引数を消すと、残る引数と環境変数だけになる。 -/
theorem bootstrap_adjust_delete :
    ∃ m', bootstrapArgAdjust twoArgs 16 (some kernelArg) none = some (m', true) ∧
      Bootargs m' 16 [verboseArg] [homeEnv] [] := by
  have hrefines := @bootstrap_adjust_refines twoArgs 16 [kernelArg, verboseArg] [homeEnv] [] (some kernelArg) none twoArgs_bootargs
    (.inl (Option.some_ne_none kernelArg))
  obtain ⟨m', h, hm⟩ := hrefines.1.edited [verboseArg] (by decide) (by constructor <;> decide)
  exact ⟨m', h, hm.block⟩

end Imx6Bsp.Startup

namespace Imx6Bsp.Startup

/-! ## 二つの option の走査

`getopt` の状態は「これから読む文字と、その後の語」だけで決まる。`init_system_private` の文字列にない文字があると、
引数を取るか、語の途中にあるかによって、二つの走査の位置がずれる。 -/

/-! ### これから読むもの -/

/-- 読みかけの語の残りと、その後の語。 -/
abbrev Cursor := Word × List Word

def GetoptState.cursor (argv : List Word) (s : GetoptState) : Cursor :=
  if s.lastOptind = s.optind then (s.cp, argv.drop (s.optind + 1)) else ([], argv.drop s.optind)

/-- 読みかけなら、語は `argv` の中にあり、残りは空でない。 -/
structure GetoptState.Ready (argv : List Word) (s : GetoptState) : Prop where
  pos : 0 < s.optind
  rest : s.lastOptind = s.optind → s.optind < argv.length ∧ s.cp ≠ []

/-- 文字 `c` を読む。 -/
def readLetter (ar : Char → Option Bool) (c : Char) (cs : Word) (ws : List Word) : Char × Word × Cursor :=
  match ar c with
  | none => ('?', c :: cs, [], ws)
  | some false => (c, c :: cs, cs, ws)
  | some true =>
      if cs ≠ [] then (c, cs, [], ws)
      else
        match ws with
        | [] => ('?', [c], [], [])
        | arg :: ws => (c, arg, [], ws)

/-- 次の文字。 -/
def front : Cursor → Option (Char × Word × List Word)
  | (c :: cs, ws) => if c = '-' then none else some (c, cs, ws)
  | ([], ('-' :: c :: cs) :: ws) => if c = '-' then none else some (c, cs, ws)
  | ([], _) => none

/-- 位置についての一回の呼び出し。 -/
def next (ar : Char → Option Bool) (k : Cursor) : Option (Char × Word × Cursor) :=
  (front k).map fun x => readLetter ar x.1 x.2.1 x.2.2

section

variable {argv : List Word} {opts : List Char}

/-- 呼び出しの結果と、位置についての呼び出しの結果が合う。 -/
def Agrees (argv : List Word) (r : Option Char × GetoptState) : Option (Char × Word × Cursor) → Prop
  | none => r.1 = none
  | some x => r.1 = some x.1 ∧ r.2.optarg = x.2.1 ∧ r.2.cursor argv = x.2.2 ∧ r.2.Ready argv

/-- 語の残りの終わり方。`lost` は `init_system_private` の知らない文字が語の途中にあること、`need` はそれが語の最後にあって
次の語を引数に取ることを表す。 -/
inductive Ending
  | stop | next | skip | lost | need
deriving DecidableEq

end

/-! ### 文字列 -/

end Imx6Bsp.Startup
