import Imx6Bsp.Deva.Mxssi

/-!
# 副 channel の列と rate の判定

副 channel を一つだけ変える操作は、列をその前後に分けて扱う。
-/

namespace Imx6Bsp.Deva

/-! ## 一つの要素の変更 -/

theorem modify_split {α : Type*} {l : List α} {i : Nat} {x : α} (h : l[i]? = some x) :
    ∃ pre post, l = pre ++ x :: post ∧ l.eraseIdx i = pre ++ post ∧ ∀ f : α → α, l.modify i f = pre ++ f x :: post := by
  obtain ⟨hi, rfl⟩ := List.getElem?_eq_some_iff.mp h
  refine ⟨l.take i, l.drop (i + 1), ?_, List.eraseIdx_eq_take_drop_succ .., fun f => List.modify_eq_take_cons_drop hi⟩
  rw [← List.drop_eq_getElem_cons hi, List.take_append_drop]

/-- 取得済みの副 channel。 -/
theorem Cap.opened_split {c : Cap} {i : Nat} (h : c.opened i = true) :
    ∃ pre st post, c.strm[i]? = some st ∧ c.strm = pre ++ st :: post ∧ st.opened = true ∧ c.strm.eraseIdx i = pre ++ post ∧
      ∀ f, c.strm.modify i f = pre ++ f st :: post := by
  obtain ⟨st, hst, ho⟩ := (Option.any_eq_true _ _).mp h
  obtain ⟨pre, post, hl, he, hm⟩ := modify_split hst
  exact ⟨pre, st, post, hst, hl, ho, he, hm⟩

/-- 空いている副 channel。 -/
theorem free_split {l : List Strm} {i : Nat} (h : l.findIdx? (fun st => !st.opened) = some i) :
    ∃ pre st post, l = pre ++ st :: post ∧ st.opened = false ∧ ∀ f, l.modify i f = pre ++ f st :: post := by
  obtain ⟨hi, hst, _⟩ := List.findIdx?_eq_some_iff_getElem.mp h
  obtain ⟨pre, post, hl, _, hm⟩ := modify_split (List.getElem?_eq_getElem hi)
  exact ⟨pre, l[i], post, hl, by simpa using hst, hm⟩

/-! ## 取得された数 -/

theorem Cap.numOpen_eq_zero {c : Cap} : c.numOpen = 0 ↔ ∀ st ∈ c.strm, st.opened = false := by
  simp [Cap.numOpen, List.countP_eq_zero]

theorem numOpen_split {c : Cap} {pre post : List Strm} {st : Strm} (h : c.strm = pre ++ st :: post) :
    c.numOpen = pre.countP Strm.opened + post.countP Strm.opened + if st.opened then 1 else 0 := by
  rw [Cap.numOpen, h, List.countP_append, List.countP_cons]
  omega

/-- 取得されたものが一つだけなら、ほかは空いている。 -/
theorem others_closed {c : Cap} {pre post : List Strm} {st : Strm} (h : c.strm = pre ++ st :: post) (ho : st.opened = true)
    (h1 : c.numOpen = 1) : ∀ x ∈ pre ++ post, x.opened = false := by
  rw [numOpen_split h, if_pos ho] at h1
  have hp : pre.countP Strm.opened = 0 := by omega
  have hq : post.countP Strm.opened = 0 := by omega
  intro x hx
  rcases List.mem_append.mp hx with hx | hx
  · simpa using List.countP_eq_zero.mp hp x hx
  · simpa using List.countP_eq_zero.mp hq x hx

theorem numOpen_pos_iff {c : Cap} : c.numOpen ≠ 0 ↔ ∃ st ∈ c.strm, st.opened = true := by
  rw [← Nat.pos_iff_ne_zero, Cap.numOpen, List.countP_pos_iff]

/-- 空きがあるのは、数が `cap_subchn` に足りないときである。 -/
theorem findIdx?_free {c : Cap} (h : c.numOpen ≠ c.strm.length) :
    ∃ i, c.strm.findIdx? (fun st => !st.opened) = some i := by
  rw [← Option.ne_none_iff_exists']
  intro hn
  refine h ?_
  rw [Cap.numOpen, List.countP_eq_length]
  intro st hst
  simpa using List.findIdx?_eq_none_iff.mp hn st hst

theorem free_numOpen {c : Cap} {i : Nat} (h : c.strm.findIdx? (fun st => !st.opened) = some i) :
    c.numOpen ≠ c.strm.length := by
  obtain ⟨pre, st, post, hl, ho, _⟩ := free_split h
  intro he
  have := List.countP_eq_length.mp he st (by rw [hl]; simp)
  rw [ho] at this
  cases this

/-! ## rate の判定 -/

/-- 判定を通れば、rate は今のものか、反対側が空いていて新しく設定したものである。 -/
theorem checkRate_some {s ssi : Ssi} {rate : Nat} {busy : Bool} {clock : Option Nat}
    (h : s.checkRate rate busy = some (ssi, clock)) :
    (clock = none ∧ ssi = s ∧ (s.rateLocked = true → rate = s.sampleRate)) ∨
      (clock = some rate ∧ ssi = s.setClockRate rate ∧ busy = false ∧ rate ≠ s.sampleRate) := by
  simp only [Ssi.checkRate] at h
  split_ifs at h with hl hr hb
  · cases h
    exact .inr ⟨rfl, rfl, by simpa using hb, hr⟩
  · cases h
    exact .inl ⟨rfl, rfl, fun _ => not_not.mp hr⟩
  · cases h
    exact .inl ⟨rfl, rfl, fun h' => absurd h' hl⟩

theorem checkRate_switch {s : Ssi} {rate : Nat} (hl : s.rateLocked = true) (hr : rate ≠ s.sampleRate) :
    s.checkRate rate false = some (s.setClockRate rate, some rate) := by
  rw [Ssi.checkRate, if_pos hl, if_pos hr, if_neg Bool.false_ne_true]

@[simp] theorem setClockRate_sampleRate (s : Ssi) (rate : Nat) : (s.setClockRate rate).sampleRate = rate := rfl

@[simp] theorem setClockRate_rateLocked (s : Ssi) (rate : Nat) : (s.setClockRate rate).rateLocked = s.rateLocked := rfl

theorem checkRate_rateLocked {s ssi : Ssi} {rate : Nat} {busy : Bool} {clock : Option Nat}
    (h : s.checkRate rate busy = some (ssi, clock)) : ssi.rateLocked = s.rateLocked := by
  rcases checkRate_some h with ⟨_, rfl, _⟩ | ⟨_, rfl, _⟩ <;> rfl

theorem checkRate_sampleRate {s ssi : Ssi} {rate : Nat} {busy : Bool} {clock : Option Nat} (hl : s.rateLocked = true)
    (h : s.checkRate rate busy = some (ssi, clock)) : ssi.sampleRate = rate := by
  rcases checkRate_some h with ⟨_, rfl, hr⟩ | ⟨_, rfl, _⟩
  · exact (hr hl).symm
  · rfl

/-! ## 取得と写し -/

/-- 取得に失敗すれば副 channel の列は変わらず、成功すれば空いていた一つだけが変わる。 -/
theorem aquire2_strm (c : Cap) (i subchn rate fragSize : Nat) (a b : Bool) :
    (c.aquire2 i subchn rate fragSize a b).1.strm = c.strm ∨
      (c.aquire2 i subchn rate fragSize a b).1.strm = c.strm.modify i (·.acquire subchn rate fragSize) := by
  simp only [Cap.aquire2, Cap.openShared]
  split_ifs <;> first | exact .inl rfl | exact .inr rfl

@[simp] theorem acquire_opened (st : Strm) (subchn rate fragSize : Nat) : (st.acquire subchn rate fragSize).opened = true := rfl

theorem deliver_frame (st : Strm) (k : Nat) (src : List UInt8) :
    (st.deliver k src).pcmSubchn = st.pcmSubchn ∧ (st.deliver k src).rate = st.rate ∧ (st.deliver k src).go = st.go := by
  simp only [Strm.deliver]
  split_ifs <;> exact ⟨rfl, rfl, rfl⟩

theorem dmacapture_strm (c : Cap) (k off size : Nat) :
    (c.dmacapture k off size).strm = c.strm ∨ ∃ src, (c.dmacapture k off size).strm = c.strm.map (·.deliver k src) := by
  simp only [Cap.dmacapture]
  split_ifs
  · exact .inl rfl
  · exact .inr ⟨_, rfl⟩

theorem pulseHdlr_strm (c : Cap) (k : Nat) :
    (c.pulseHdlr k).strm = c.strm ∨ ∃ src, (c.pulseHdlr k).strm = c.strm.map (·.deliver k src) := by
  simp only [Cap.pulseHdlr]
  split_ifs
  · exact .inl rfl
  · exact dmacapture_strm _ _ _ _
  · exact dmacapture_strm _ _ _ _
  · exact dmacapture_strm _ _ _ _
  · exact .inl rfl

/-! ## client の buffer への写し

二つの fragment からなる buffer に `n` バイトを書いた後の写しは、環の位置 `n` から続き、fragment の境界で区切られる。 -/

variable {frag n : Nat} {ws : List Copy}

/-- `n` バイトを書いた後の写しの列。どの写しも fragment の境界をまたがず、fragment を満たしたときに `dma_interrupt` を呼ぶ。 -/
def Placed (frag : Nat) : Nat → List Copy → Prop
  | _, [] => True
  | n, w :: ws =>
      w.offset = n % (2 * frag) ∧ w.bytes ≠ [] ∧ n % frag + w.bytes.length ≤ frag ∧
        w.irq = decide ((n + w.bytes.length) % frag = 0) ∧ Placed frag (n + w.bytes.length) ws

@[simp] theorem bytesOf_nil : bytesOf [] = [] := rfl

@[simp] theorem bytesOf_cons (w : Copy) (ws : List Copy) : bytesOf (w :: ws) = w.bytes ++ bytesOf ws := rfl

@[simp] theorem bytesOf_append (ws ws' : List Copy) : bytesOf (ws ++ ws') = bytesOf ws ++ bytesOf ws' :=
  List.flatMap_append

theorem Placed.append {ws' : List Copy} (h : Placed frag n ws) (h' : Placed frag (n + (bytesOf ws).length) ws') :
    Placed frag n (ws ++ ws') := by
  induction ws generalizing n with
  | nil => exact h'
  | cons w ws ih =>
      obtain ⟨ho, hne, hle, hirq, hws⟩ := h
      refine ⟨ho, hne, hle, hirq, ih hws ?_⟩
      rw [bytesOf_cons, List.length_append, ← Nat.add_assoc] at h'
      exact h'

/-- 環の中の位置は、fragment の中の位置か、二つ目の fragment の中の位置である。 -/
theorem mod_two_mul (frag n : Nat) : n % (2 * frag) = n % frag ∨ n % (2 * frag) = frag + n % frag := by
  rw [Nat.mul_comm, Nat.mod_mul]
  rcases Nat.mod_two_eq_zero_or_one (n / frag) with h | h
  · rw [h]
    exact .inl (by simp)
  · rw [h]
    exact .inr (by omega)

/-- どの写しも buffer の中に収まる。 -/
theorem Placed.inside (h : Placed frag n ws) : ∀ w ∈ ws, w.offset + w.bytes.length ≤ 2 * frag := by
  induction ws generalizing n with
  | nil => exact nofun
  | cons w ws ih =>
      obtain ⟨ho, _, hle, _, hws⟩ := h
      intro x hx
      rcases List.mem_cons.mp hx with rfl | hx
      · rw [ho]
        rcases mod_two_mul frag n with hm | hm <;> omega
      · exact ih hws x hx

/-- `k` バイト進むと、fragment を満たしたときにだけ数が一つ増える。 -/
theorem div_add_of_le {k : Nat} (hk : 0 < k) (hle : n % frag + k ≤ frag) :
    (n + k) / frag = n / frag + if (n + k) % frag = 0 then 1 else 0 := by
  have hpos : 0 < frag := by omega
  have hn := Nat.div_add_mod n frag
  rcases Nat.lt_or_eq_of_le hle with hlt | heq
  · have hd : (n + k) / frag = n / frag := by
      rw [show n + k = n % frag + k + frag * (n / frag) by omega, Nat.add_mul_div_left _ _ hpos, Nat.div_eq_of_lt hlt,
        Nat.zero_add]
    have hm : (n + k) % frag = n % frag + k := by
      rw [← Nat.mod_add_mod, Nat.mod_eq_of_lt hlt]
    rw [hd, hm, if_neg (by omega), Nat.add_zero]
  · have hs : n + k = frag * (n / frag + 1) := by
      rw [Nat.mul_add, Nat.mul_one]
      omega
    rw [hs, Nat.mul_mod_right, if_pos rfl, Nat.mul_div_cancel_left _ hpos]

/-- `dma_interrupt` の回数は、満たされた fragment の数である。 -/
theorem Placed.irqs (h : Placed frag n ws) :
    ws.countP Copy.irq + n / frag = (n + (bytesOf ws).length) / frag := by
  induction ws generalizing n with
  | nil => simp
  | cons w ws ih =>
      obtain ⟨_, hne, hle, hirq, hws⟩ := h
      have hd := div_add_of_le (List.length_pos_iff.mpr hne) hle
      have hi := ih hws
      have hc : (w :: ws).countP Copy.irq = ws.countP Copy.irq + if (n + w.bytes.length) % frag = 0 then 1 else 0 := by
        rw [List.countP_cons, hirq]
        simp
      rw [hc, bytesOf_cons, List.length_append, ← Nat.add_assoc, ← hi, hd]
      omega

/-- 一回に写す長さは、fragment の残りと buffer の残りのどちらで測っても同じである。 -/
theorem copy_len (hf : 0 < frag) (n len : Nat) :
    (if n % (2 * frag) < frag then min (frag - n % (2 * frag)) len else min (2 * frag - n % (2 * frag)) len) =
      min (frag - n % frag) len := by
  have hlt := Nat.mod_lt n hf
  rcases mod_two_mul frag n with hm | hm
  · rw [hm, if_pos hlt]
  · rw [hm, if_neg (by omega)]
    congr 1
    omega

/-- 写しの `while` は、`src` をそのまま環の続きに写し切る。 -/
theorem copyLoop_spec (hf : 0 < frag) {fuel : Nat} {src : List UInt8} (h : src.length ≤ fuel) :
    Placed frag n (copyLoop frag (2 * frag) fuel (n % (2 * frag)) src).1 ∧
      bytesOf (copyLoop frag (2 * frag) fuel (n % (2 * frag)) src).1 = src ∧
      (copyLoop frag (2 * frag) fuel (n % (2 * frag)) src).2 = (n + src.length) % (2 * frag) := by
  induction fuel generalizing n src with
  | zero =>
      rw [List.length_eq_zero_iff.mp (Nat.le_zero.mp h)]
      exact ⟨trivial, rfl, rfl⟩
  | succ fuel ih =>
      by_cases hs : src = []
      · subst hs
        exact ⟨trivial, rfl, rfl⟩
      · have hpos := List.length_pos_iff.mpr hs
        have hlt := Nat.mod_lt n hf
        have hk : (src.take (min (frag - n % frag) src.length)).length = min (frag - n % frag) src.length := by
          rw [List.length_take]
          omega
        have hoff : (n % (2 * frag) + min (frag - n % frag) src.length) % (2 * frag) =
            (n + min (frag - n % frag) src.length) % (2 * frag) := Nat.mod_add_mod ..
        have hlen : (src.drop (min (frag - n % frag) src.length)).length ≤ fuel := by
          rw [List.length_drop]
          omega
        obtain ⟨hp, hb, hr⟩ := @ih (n + min (frag - n % frag) src.length) _ hlen
        simp only [copyLoop, if_neg hs, copy_len hf, hoff]
        refine ⟨⟨rfl, ?_, ?_, ?_, ?_⟩, ?_, ?_⟩
        · rw [← List.length_pos_iff, hk]
          omega
        · rw [hk]
          omega
        · rw [hk, Nat.mod_mul_left_mod]
        · rw [hk]
          exact hp
        · rw [bytesOf_cons, hb, List.take_append_drop]
        · rw [hr, List.length_drop]
          congr 1
          omega

end Imx6Bsp.Deva
