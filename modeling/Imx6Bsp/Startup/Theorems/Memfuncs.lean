import Imx6Bsp.Startup.Memfuncs
import Imx6Bsp.Startup.Theorems.SdmaCopy

/-!
# 起動ライブラリの複写

一つの `memmove()` は、重なりによらず正しい。区切った複写は前から進むので、写し先が複写元の途中から始まるときは、
先の区切りで書き換わったバイトを読む。
-/

namespace Imx6Bsp.Startup.Memfuncs

open Imx6Bsp.Lib

section

variable {m : Mem} {d s n rest enter words : Nat}

/-! ## 一つの `memmove()` -/

theorem copyWords_eq (h : d ≤ s ∨ s + 4 * words ≤ d) : copyWords words m d s = m.move d s (4 * words) := by
  induction words generalizing m d s with
  | zero => exact Mem.move_zero.symm
  | succ words ih =>
      rw [copyWords, Mem.writeLE_readLE, ih (by omega), Mem.move_append (by omega), Nat.mul_succ, Nat.add_comm 4]

/-- 巡りの全体は、初めの語数に 16 語ずつを加えた複写である。 -/
theorem duff_eq (h : d ≤ s ∨ s + 4 * (enter + 16 * rest) ≤ d) :
    duff rest enter m d s = (m.move d s (4 * (enter + 16 * rest)), d + 4 * (enter + 16 * rest), s + 4 * (enter + 16 * rest)) := by
  induction rest generalizing enter m d s with
  | zero =>
      rw [Nat.mul_zero, Nat.add_zero] at h ⊢
      rw [duff, copyWords_eq h]
  | succ rest ih =>
      have htotal : 4 * (enter + 16 * (rest + 1)) = 4 * enter + 4 * (16 + 16 * rest) := by omega
      rw [htotal] at h
      rw [duff, copyWords_eq (by omega), ih (by omega), Mem.move_append h, htotal, Nat.add_assoc, Nat.add_assoc]

theorem copyBytes_eq (h : d ≤ s ∨ s + n ≤ d) : copyBytes n m d s = m.move d s n := by
  induction n generalizing m d s with
  | zero => exact Mem.move_zero.symm
  | succ n ih => rw [copyBytes, Mem.update_eq_move, ih (by omega), Mem.move_append (by omega), Nat.add_comm 1]

theorem copyBack_eq (h : s ≤ d) : copyBack n m d s = m.move d s n := by
  induction n generalizing m with
  | zero => exact Mem.move_zero.symm
  | succ n ih => rw [copyBack, Mem.update_eq_move, ih, Mem.move_append_down h]

/-- 前から写してよいとき、`memcpy()` は正しい。 -/
theorem memcpy_eq (h : d ≤ s ∨ s + n ≤ d) : memcpy m d s n = m.move d s n := by
  have hmask : n &&& 3 = n % 4 := Nat.and_two_pow_sub_one_eq_mod n 2
  have hshift : n >>> 2 = n / 4 := Nat.shiftRight_eq_div_pow n 2
  rw [memcpy]
  split
  · rename_i hwords
    dsimp only
    rw [hmask, hshift]
    generalize henter : (if n / 4 % 16 = 0 then 16 else n / 4 % 16) = enter
    -- 入る位置と巡りの数から、語の総数は `n / 4` になる
    have htotal : enter + 16 * ((n / 4 + 15) / 16 - 1) = n / 4 := by
      have := hwords.1
      subst henter
      split <;> omega
    rw [duff_eq (by omega), htotal]
    dsimp only
    rw [copyBytes_eq (by omega), Mem.move_append (by omega), Nat.div_add_mod]
  · exact copyBytes_eq h

/-- `memmove()` は、重なりによらず正しい。 -/
theorem memmove_eq (hs : s + n ≤ 2 ^ 32) (hd : d + n ≤ 2 ^ 32) : memmove m d s n = m.move d s n := by
  rw [memmove]
  split
  · rename_i hover
    exact copyBack_eq (Nat.le_of_lt hover.1)
  · rename_i hover
    refine memcpy_eq ?_
    rcases Nat.lt_or_ge s d with hlt | hle
    · -- 複写元の終わりが `2 ^ 32` なら、写し先は空である
      rcases Nat.lt_or_eq_of_le hs with hend | hend
      · rw [wrap32_of_lt hend] at hover
        omega
      · omega
    · exact Or.inl hle

end

/-! ## 区切り -/

section

variable {drivers bias max fuel dst src len δ d s : Nat} {m m' : Mem}

theorem make1to1Ptr_add (h : make1to1Ptr bias dst + len ≤ 2 ^ 32) (hn : s < len) :
    make1to1Ptr bias (wrap32 (dst + s)) = make1to1Ptr bias dst + s := by
  unfold make1to1Ptr wrap32 at *
  omega

/-- 収まる長さなら、一度の複写である。 -/
theorem copyMemoryLoop_once (hlen : len ≤ max) (hd : make1to1Ptr bias dst + len ≤ 2 ^ 32) (hs : src + len ≤ 2 ^ 32) :
    copyMemoryLoop bias max (fuel + 1) m dst src len = some (m.move (make1to1Ptr bias dst) src len) := by
  rw [copyMemoryLoop, if_neg (Nat.not_lt.mpr hlen), if_pos (Nat.sub_self len), memmove_eq hs hd]

/-- 収まらなければ、`max` バイトを写して続ける。 -/
theorem copyMemoryLoop_more (hlen : max < len) (hd : make1to1Ptr bias dst + len ≤ 2 ^ 32) (hs : src + len ≤ 2 ^ 32) :
    copyMemoryLoop bias max (fuel + 1) m dst src len =
      copyMemoryLoop bias max fuel (m.move (make1to1Ptr bias dst) src max) (wrap32 (dst + max)) (src + max) (len - max) := by
  rw [copyMemoryLoop, if_pos hlen, if_neg (by omega), memmove_eq (by omega) (by omega), wrap32_of_lt (show src + max < 2 ^ 32 by omega)]

/-- 写し先が複写元より後ろでなければ、区切っても同じである。 -/
theorem copyMemoryLoop_down (hmax : 0 < max) (hfuel : len < fuel) (hd : make1to1Ptr bias dst + len ≤ 2 ^ 32) (hs : src + len ≤ 2 ^ 32)
    (hdown : make1to1Ptr bias dst ≤ src) :
    copyMemoryLoop bias max fuel m dst src len = some (m.move (make1to1Ptr bias dst) src len) := by
  induction fuel generalizing m dst src len with
  | zero => exact absurd hfuel (Nat.not_lt_zero len)
  | succ fuel ih =>
      rcases Nat.lt_or_ge max len with hlt | hle
      · have hnext := make1to1Ptr_add hd hlt
        rw [copyMemoryLoop_more hlt hd hs, ih (by omega) (by omega) (by omega) (by omega), hnext, Mem.move_append (Or.inl hdown),
          Nat.add_sub_of_le hlt.le]
      · exact copyMemoryLoop_once hle hd hs

/-- `δ` だけ後ろに区切って写した結果。書き換わったバイトの代わりに、写し先の `δ` 前のバイトが入る。 -/
structure Shifted (m m' : Mem) (max δ src len : Nat) : Prop where
  copied : ∀ j < len, m' (src + δ + j) = if Overwritten max δ j then m' (src + j) else m (src + j)
  frame : ∀ x, x < src + δ ∨ src + δ + len ≤ x → m' x = m x

theorem Shifted.once (hlen : len ≤ max) : Shifted m (m.move (src + δ) src len) max δ src len := by
  refine ⟨fun j hj => ?_, fun x hx => Mem.move_out hx⟩
  have hsafe : ¬ Overwritten max δ j := by
    rintro ⟨h1, h2⟩
    rw [Nat.mod_eq_of_lt (by omega)] at h2
    omega
  rw [Mem.move_in hj, if_neg hsafe]

/-- 区切りを一つ前に加える。 -/
theorem Shifted.cons (hlen : max < len) (h : Shifted (m.move (src + δ) src max) m' max δ (src + max) (len - max)) :
    Shifted m m' max δ src len := by
  have hhead : ∀ x, x < src + max + δ → m' x = m.move (src + δ) src max x := fun x hx => h.frame x (Or.inl hx)
  refine ⟨fun j hj => ?_, fun x hx => ?_⟩
  · rcases Nat.lt_or_ge j max with hin | hin
    · have hsafe : ¬ Overwritten max δ j := by
        rintro ⟨h1, h2⟩
        rw [Nat.mod_eq_of_lt hin] at h2
        omega
      rw [if_neg hsafe, hhead _ (by omega), Mem.move_in hin]
    · obtain ⟨k, rfl⟩ := Nat.exists_eq_add_of_le hin
      have htail := h.copied k (by omega)
      rw [show src + max + δ + k = src + δ + (max + k) by omega, Nat.add_assoc src max k] at htail
      have hnext : Overwritten max δ (max + k) ↔ δ ≤ max + k ∧ k % max < δ := by rw [Overwritten, Nat.add_mod_left]
      rw [htail]
      by_cases hpast : Overwritten max δ k
      · rw [if_pos hpast, if_pos (hnext.mpr ⟨by have := hpast.1; omega, hpast.2⟩)]
      · rw [if_neg hpast]
        by_cases hover : Overwritten max δ (max + k)
        · -- 複写元は、いま写した区切りの中にある
          have hbound := hnext.mp hover
          have hlt : k < δ := Nat.lt_of_not_le fun hle => hpast ⟨hle, hbound.2⟩
          rw [if_pos hover]
          exact (hhead _ (by omega)).symm
        · -- 複写元は、まだ書き換わっていない
          have hmod := Nat.mod_le k max
          have hfar : ¬ (δ ≤ max + k ∧ k % max < δ) := mt hnext.mpr hover
          rw [if_neg hover]
          exact Mem.move_out (by omega)
  · rw [h.frame x (by omega)]
    exact Mem.move_out (by omega)

theorem copyMemoryLoop_shifted (hmax : 0 < max) (hfuel : len < fuel) (hd : make1to1Ptr bias dst = src + δ) (hs : src + δ + len ≤ 2 ^ 32) :
    ∃ m', copyMemoryLoop bias max fuel m dst src len = some m' ∧ Shifted m m' max δ src len := by
  induction fuel generalizing m dst src len with
  | zero => exact absurd hfuel (Nat.not_lt_zero len)
  | succ fuel ih =>
      have hbound : make1to1Ptr bias dst + len ≤ 2 ^ 32 := by rwa [hd]
      rcases Nat.lt_or_ge max len with hlt | hle
      · have hnext := make1to1Ptr_add hbound hlt
        have hrest : ∃ m', copyMemoryLoop bias max fuel (m.move (src + δ) src max) (wrap32 (dst + max)) (src + max) (len - max) = some m' ∧
            Shifted (m.move (src + δ) src max) m' max δ (src + max) (len - max) := ih (by omega) (by omega) (by omega)
        obtain ⟨m', hrun, hshift⟩ := hrest
        refine ⟨m', ?_, hshift.cons hlt⟩
        rw [copyMemoryLoop_more hlt hbound (by omega), hd]
        exact hrun
      · refine ⟨_, ?_, Shifted.once hle⟩
        rw [copyMemoryLoop_once hle hbound (by omega), hd]

/-- 書き換わったバイトが元と等しいときに限り、全体が元のバイトになる。 -/
theorem Shifted.moved_iff (h : Shifted m m' max δ src len) (hδ : 0 < δ) : Moved m m' (src + δ) src len ↔ Repeats max δ m src len := by
  have hback : ∀ j, δ ≤ j → src + j = src + δ + (j - δ) := fun j hj => by omega
  constructor
  · intro hm j hj hover
    have hcopied := h.copied j hj
    rw [if_pos hover, hm.copied j hj, hback j hover.1, hm.copied _ (by omega)] at hcopied
    rw [hback j hover.1]
    exact hcopied.symm
  · intro hrep
    refine ⟨fun j => ?_, h.frame⟩
    induction j using Nat.strongRecOn with
    | ind j ih =>
        intro hj
        rw [h.copied j hj]
        by_cases hover : Overwritten max δ j
        · have hle := hover.1
          rw [if_pos hover, hback j hle, ih (j - δ) (by omega) (by omega), hrep j hj hover, hback j hle]
        · exact if_neg hover

theorem moved_move (m : Mem) (d s n : Nat) : Moved m (m.move d s n) d s n := ⟨fun _ hi => Mem.move_in hi, fun _ hx => Mem.move_out hx⟩

/-- 一区切りに収まるか、写し先が複写元の先にあれば、書き換わるバイトはない。 -/
theorem repeats_of_apart (m : Mem) (src : Nat) (h : len ≤ max ∨ len ≤ δ) : Repeats max δ m src len := by
  rintro j hj ⟨h1, h2⟩
  rcases h with h | h
  · rw [Nat.mod_eq_of_lt (by omega)] at h2
    omega
  · omega

/-- それ以外では、書き換わるバイトがある。 -/
theorem exists_overwritten (hδ : 0 < δ) (hmax : 0 < max) (hlen : max < len) (hnear : δ < len) : ∃ j < len, Overwritten max δ j := by
  rcases Nat.lt_or_ge δ max with hlt | hle
  · exact ⟨max, hlen, hlt.le, by rwa [Nat.mod_self]⟩
  · exact ⟨δ, hnear, le_rfl, (Nat.mod_lt δ hmax).trans_le hle⟩

/-! ## `copy_memory()` -/

/-- ミニドライバがなければ、一度の `memmove()` である。 -/
theorem copyMemory_idle (hdst : make1to1Ptr bias dst + len ≤ 2 ^ 32) (hsrc : src + len ≤ 2 ^ 32) :
    copyMemory 0 max bias m dst src len = some (m.move (make1to1Ptr bias dst) src len) :=
  copyMemoryLoop_once (Nat.le_refl len) hdst hsrc

theorem copyMemory_down (hmax : 0 < max) (hdst : make1to1Ptr bias dst + len ≤ 2 ^ 32) (hsrc : src + len ≤ 2 ^ 32)
    (hdown : make1to1Ptr bias dst ≤ src) :
    copyMemory drivers max bias m dst src len = some (m.move (make1to1Ptr bias dst) src len) := by
  rcases Nat.eq_zero_or_pos drivers with rfl | hdrv
  · exact copyMemory_idle hdst hsrc
  · rw [copyMemory, if_pos hdrv]
    exact copyMemoryLoop_down hmax (Nat.lt_succ_self len) hdst hsrc hdown

theorem copyMemory_up (m : Mem) (len : Nat) (hdrv : 0 < drivers) (hmax : 0 < max) (hdst : make1to1Ptr bias dst = src + δ)
    (hend : src + δ + len ≤ 2 ^ 32) :
    ∃ m', copyMemory drivers max bias m dst src len = some m' ∧ Shifted m m' max δ src len := by
  rw [copyMemory, if_pos hdrv]
  exact copyMemoryLoop_shifted hmax (Nat.lt_succ_self len) hdst hend

end

/-- 全体が元のバイトになるのは、ミニドライバがないか、写し先が複写元より後ろでないか、書き換わったバイトが元と等しいときに限る。 -/
theorem copy_memory_moved_iff {drivers mdriverMax bias dst src len : Nat} (hmax : 0 < mdriverMax)
    (hdst : make1to1Ptr bias dst + len ≤ 2 ^ 32) (hsrc : src + len ≤ 2 ^ 32) (m : Mem) :
    (∃ m', copyMemory drivers mdriverMax bias m dst src len = some m' ∧ Moved m m' (make1to1Ptr bias dst) src len) ↔
      drivers = 0 ∨ make1to1Ptr bias dst ≤ src ∨ Repeats mdriverMax (make1to1Ptr bias dst - src) m src len := by
  rcases Nat.eq_zero_or_pos drivers with rfl | hdrv
  · exact ⟨fun _ => Or.inl rfl, fun _ => ⟨_, copyMemory_idle hdst hsrc, moved_move _ _ _ _⟩⟩
  rcases Nat.lt_or_ge src (make1to1Ptr bias dst) with hup | hdown
  · have hδ : make1to1Ptr bias dst = src + (make1to1Ptr bias dst - src) := by omega
    obtain ⟨m', hrun, hshift⟩ := copyMemory_up m len hdrv hmax hδ (by omega)
    have hiff := hshift.moved_iff (by omega)
    rw [← hδ] at hiff
    constructor
    · rintro ⟨m₁, hrun₁, hmoved⟩
      obtain rfl := Option.some.inj (hrun.symm.trans hrun₁)
      exact Or.inr (Or.inr (hiff.mp hmoved))
    · rintro (h | h | h)
      · omega
      · omega
      · exact ⟨m', hrun, hiff.mpr h⟩
  · exact ⟨fun _ => Or.inr (Or.inl hdown), fun _ => ⟨_, copyMemory_down hmax hdst hsrc hdown, moved_move _ _ _ _⟩⟩

theorem copy_memory_moved_sample :
    (∃ m', copyMemory 1 0x4000 0 (fun _ => 0) 0x10000004 0x10000000 0x8000 = some m' ∧
        Moved (fun _ => 0) m' (make1to1Ptr 0 0x10000004) 0x10000000 0x8000) ↔
      1 = 0 ∨ make1to1Ptr 0 0x10000004 ≤ 0x10000000 ∨
        Repeats 0x4000 (make1to1Ptr 0 0x10000004 - 0x10000000) (fun _ => 0) 0x10000000 0x8000 :=
  copy_memory_moved_iff (by decide) (by decide) (by decide) _

/-- 区切りの境界のバイトだけが異なる複写元を、4 バイト後ろに写すと、そのバイトが失われる。 -/
theorem copy_memory_not_moved :
    ¬ ∀ (drivers mdriverMax bias dst src len : Nat) (m : Mem), 0 < mdriverMax → make1to1Ptr bias dst + len ≤ 2 ^ 32 → src + len ≤ 2 ^ 32 →
      ∃ m', copyMemory drivers mdriverMax bias m dst src len = some m' ∧ Moved m m' (make1to1Ptr bias dst) src len := by
  intro h
  obtain ⟨m', hrun, hmoved⟩ := h 1 0x4000 0 0x10000004 0x10000000 0x8000 (fun x => if x = 0x10004000 then 1 else 0) (by decide) (by decide)
    (by decide)
  have hdst : make1to1Ptr 0 0x10000004 = 0x10000000 + 4 := by decide
  obtain ⟨m₁, hrun₁, hshift⟩ := copyMemory_up (fun x => if x = 0x10004000 then 1 else 0) 0x8000 (by decide : 0 < 1)
    (by decide : 0 < 0x4000) hdst (by decide)
  obtain rfl := Option.some.inj (hrun.symm.trans hrun₁)
  rw [hdst, hshift.moved_iff (by decide)] at hmoved
  exact absurd (hmoved 0x4000 (by decide) (by decide)) (by decide)

section

variable {drivers max dst src len : Nat}

/-- どの内容でも正しいのは、ミニドライバがないか、一区切りに収まるか、写し先の始まりが複写元の途中にないときに限る。 -/
theorem copyMemory_always_iff {bias : Nat} (hmax : 0 < max) (hdst : make1to1Ptr bias dst + len ≤ 2 ^ 32) (hsrc : src + len ≤ 2 ^ 32) :
    (∀ m, ∃ m', copyMemory drivers max bias m dst src len = some m' ∧ Moved m m' (make1to1Ptr bias dst) src len) ↔
      drivers = 0 ∨ len ≤ max ∨ make1to1Ptr bias dst ≤ src ∨ src + len ≤ make1to1Ptr bias dst := by
  rcases Nat.eq_zero_or_pos drivers with rfl | hdrv
  · exact ⟨fun _ => Or.inl rfl, fun _ m => ⟨_, copyMemory_idle hdst hsrc, moved_move _ _ _ _⟩⟩
  rcases Nat.lt_or_ge src (make1to1Ptr bias dst) with hup | hdown
  · obtain ⟨δ, hδ⟩ := Nat.exists_eq_add_of_le hup.le
    have hrun := fun m => copyMemory_up m len hdrv hmax hδ (by omega)
    rw [hδ]
    constructor
    · intro h
      by_contra hbad
      obtain ⟨j, hj, hover⟩ := exists_overwritten (show 0 < δ by omega) hmax (show max < len by omega) (by omega)
      obtain ⟨m', hcopy, hmoved⟩ := h fun x => if x = src + j then 1 else 0
      obtain ⟨m₁, hcopy₁, hshift⟩ := hrun fun x => if x = src + j then 1 else 0
      obtain rfl := Option.some.inj (hcopy.symm.trans hcopy₁)
      have hsame := (hshift.moved_iff (by omega)).mp hmoved j hj hover
      have hle := hover.1
      dsimp only at hsame
      rw [if_pos rfl, if_neg (by omega)] at hsame
      exact absurd hsame (by decide)
    · intro h m
      obtain ⟨m', hcopy, hshift⟩ := hrun m
      exact ⟨m', hcopy, (hshift.moved_iff (by omega)).mpr (repeats_of_apart m src (by omega))⟩
  · exact ⟨fun _ => Or.inr (Or.inr (Or.inl hdown)), fun _ m => ⟨_, copyMemory_down hmax hdst hsrc hdown, moved_move _ _ _ _⟩⟩

/-- 区切りごとに範囲を埋める `Elf.copyMemoryLoop` は、この関数の動作である。 -/
theorem copyMemoryLoop_eq_fill {fuel : Nat} {m : Mem} (hmax : 0 < max) (hfuel : len < fuel) (hdst : dst + len ≤ 2 ^ 32)
    (hsrc : src + len ≤ 2 ^ 32) : copyMemoryLoop 0 max fuel m dst src len = some (Elf.copyMemoryLoop max fuel m dst src len) := by
  induction fuel generalizing m dst src len with
  | zero => exact absurd hfuel (Nat.not_lt_zero len)
  | succ fuel ih =>
      have hptr : make1to1Ptr 0 dst + len ≤ 2 ^ 32 := by unfold make1to1Ptr wrap32; omega
      have hsame : ∀ n ≤ len, m.fill dst n (fun i => m (wrap32 (src + i))) = m.move (make1to1Ptr 0 dst) src n := by
        intro n hn
        have hdst' : n ≠ 0 → make1to1Ptr 0 dst = dst := fun hpos => wrap32_of_lt (by omega)
        rcases Nat.eq_zero_or_pos n with rfl | hpos
        · funext x
          rw [Mem.move_zero, Mem.fill_out (by omega)]
        · rw [hdst' (by omega)]
          exact Mem.fill_congr fun i hi => congrArg m (wrap32_of_lt (by omega))
      rw [Elf.copyMemoryLoop]
      rcases Nat.lt_or_ge max len with hlt | hle
      · rw [copyMemoryLoop_more hlt hptr hsrc, if_pos hlt, hsame max hlt.le, if_neg (by omega),
          wrap32_of_lt (show src + max < 2 ^ 32 by omega), wrap32_of_lt (show dst + max < 2 ^ 32 by omega)]
        exact ih (by omega) (by omega) (by omega)
      · rw [copyMemoryLoop_once hle hptr hsrc, if_neg (Nat.not_lt.mpr hle), hsame len le_rfl, if_pos (Nat.sub_self len)]

end

end Imx6Bsp.Startup.Memfuncs
