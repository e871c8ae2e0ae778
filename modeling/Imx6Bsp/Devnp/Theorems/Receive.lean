import Imx6Bsp.Devnp.RxRing

/-!
# 受信リングの正しさ

時刻印を読む前の記述子に NIC が書かず、渡す枠が一つの記述子に収まる実行では、受けた枠がそのまま順に渡され、時刻印もその枠のものである。
-/

namespace Imx6Bsp.Devnp

open Imx6Bsp.Lib

/-! ## 受信リングの補題

リングを `rx_cidx` から数えた位置で見る。先頭は受けてまだ取り出していない枠で、残りは NIC のものである。 -/

/-! ### 不変条件 -/

/-- `rx_cidx` から `j` 番目の位置。 -/
def RxRing.slot (t : RxRing) (j : Nat) : Nat := (t.cidx + j) % t.num

/-- 受けてまだ取り出していない数。 -/
def RxRing.pending (t : RxRing) : Nat := t.received.length - t.allocs.length

/-- 記述子と mbuf の不変条件。 -/
structure RxRing.Ring (t : RxRing) : Prop where
  cidx : t.cidx < t.num
  taken : t.allocs.length ≤ t.received.length
  room : t.pending ≤ t.num
  nic : t.nic = t.slot t.pending
  wrap : ∀ i < t.num, ((t.bd i).wrap = true ↔ i + 1 = t.num)
  pkts : ∀ i < t.num, t.pkts i = some (t.bd i).buffer
  known : ∀ i < t.num, (t.bd i).buffer < t.issued
  distinct : ∀ i < t.num, ∀ j < t.num, (t.bd i).buffer = (t.bd j).buffer → i = j
  empty : ∀ j < t.num, t.pending ≤ j → (t.bd (t.slot j)).empty = true
  filled : ∀ j f, t.received[t.allocs.length + j]? = some f → t.Filled (t.bd (t.slot j)) f

/-- 取り出して渡していない枠。 -/
structure RxRing.Carries (t : RxRing) (h : Held) (f : Frame) : Prop where
  idx : h.idx < t.num
  known : h.id < t.issued
  apart : ∀ i < t.num, (t.bd i).buffer ≠ h.id
  crc : 4 ≤ f.bytes.length
  len : h.len = f.bytes.length - 4
  last : h.last = true
  data : (t.mem h.id).take f.bytes.length = f.bytes
  stamp : recordedAs (t.mem h.id) ≠ none → (t.bd h.idx).timestamp = f.timestamp

/-- `done` は渡し終えた枠である。 -/
structure RxRing.Inv (t : RxRing) (done : List Frame) : Prop extends t.Ring where
  idle : t.held = none → t.wanted = done
  held : ∀ h, t.held = some h → ∃ f, t.wanted = done ++ [f] ∧ t.Carries h f
  passed : List.Forall₂ Frame.Delivers done t.passed
  recorded : ∀ k i, t.ptp.ts k i = {} ∨ ∃ p ∈ t.passed, p.stamp = some (t.ptp.ts k i)

section

variable {t u : RxRing} {done : List Frame} {f : Frame}

theorem RxRing.slot_lt (h : t.cidx < t.num) (j : Nat) : t.slot j < t.num := Nat.mod_lt _ (by omega)

theorem RxRing.slot_inj {i j : Nat} (hi : i < t.num) (hj : j < t.num) (h : t.slot i = t.slot j) : i = j := ring_inj hi hj h

theorem RxRing.Ring.slot_zero (h : t.Ring) : t.slot 0 = t.cidx := Nat.mod_eq_of_lt h.cidx

/-- まだ取り出していない枠は、リングの数より多くない。 -/
theorem RxRing.Ring.lt_pending {j : Nat} (hj : t.received[t.allocs.length + j]? = some f) : j < t.pending := by
  have := (List.getElem?_eq_some_iff.mp hj).1
  unfold RxRing.pending
  omega

/-- 空いていない記述子には枠が入っている。 -/
theorem RxRing.Ring.exists_filled {j : Nat} (h : t.Ring) (hj : j < t.num) (he : (t.bd (t.slot j)).empty = false) :
    ∃ f, t.received[t.allocs.length + j]? = some f ∧ t.Filled (t.bd (t.slot j)) f := by
  have hlt : j < t.pending := by
    by_contra hc
    rw [h.empty j hj (Nat.not_lt.mp hc)] at he
    cases he
  have hr : t.allocs.length + j < t.received.length := by
    unfold RxRing.pending at hlt
    omega
  exact ⟨_, List.getElem?_eq_getElem hr, h.filled j _ (List.getElem?_eq_getElem hr)⟩

/-! ### NIC -/

theorem RxRing.receive_of_empty (he : (t.bd t.nic).empty = true) :
    t.receive f = { t with
      mem := Function.update t.mem (t.bd t.nic).buffer (overwrite (t.mem (t.bd t.nic).buffer) 0 f.bytes)
      bd := Function.update t.bd t.nic
        { t.bd t.nic with length := f.bytes.length, empty := false, last := f.last, err := f.err, timestamp := f.timestamp }
      nic := if (t.bd t.nic).wrap then 0 else t.nic + 1
      received := t.received ++ [f] } := by
  simp only [RxRing.receive, he, if_true]

/-- NIC は記述子の `buffer` と折り返しのビットを変えない。 -/
theorem RxRing.receive_bd (i : Nat) : ((t.receive f).bd i).buffer = (t.bd i).buffer ∧ ((t.receive f).bd i).wrap = (t.bd i).wrap := by
  simp only [RxRing.receive]
  split
  · by_cases hi : i = t.nic
    · simp only [hi, Function.update_self, and_self]
    · simp only [Function.update_of_ne hi, and_self]
  · exact ⟨rfl, rfl⟩

/-- 空きがあれば、次に受ける記述子は空いている。 -/
theorem RxRing.Ring.pending_lt (h : t.Ring) (he : (t.bd t.nic).empty = true) : t.pending < t.num := by
  by_contra hc
  have hp : t.pending = t.num := Nat.le_antisymm h.room (Nat.not_lt.mp hc)
  have hnic : t.nic = t.slot 0 := by
    rw [h.nic, hp, RxRing.slot, RxRing.slot, Nat.add_mod_right, Nat.add_zero]
  have hpos : t.allocs.length < t.received.length := by
    have := h.cidx
    unfold RxRing.pending at hp
    omega
  have hf := (h.filled 0 _ (List.getElem?_eq_getElem hpos)).empty
  rw [← hnic, he] at hf
  cases hf

theorem RxRing.Ring.receive (h : t.Ring) (he : (t.bd t.nic).empty = true) : (t.receive f).Ring := by
  have hlt := h.pending_lt he
  have hcidx := h.cidx
  have hnic : t.nic < t.num := h.nic ▸ RxRing.slot_lt h.cidx _
  have hpending : (t.receive f).pending = t.pending + 1 := by
    have := h.taken
    simp only [RxRing.receive_of_empty he, RxRing.pending, List.length_append, List.length_singleton]
    omega
  have hnum : (t.receive f).num = t.num := by rw [RxRing.receive_of_empty he]
  have hslot : ∀ j, (t.receive f).slot j = t.slot j := by
    intro j
    rw [RxRing.receive_of_empty he]
    rfl
  have hbd : ∀ i, i ≠ t.nic → (t.receive f).bd i = t.bd i := by
    intro i hi
    rw [RxRing.receive_of_empty he]
    exact Function.update_of_ne hi ..
  constructor
  · rw [hnum, RxRing.receive_of_empty he]
    exact hcidx
  · have := h.taken
    simp only [RxRing.receive_of_empty he, List.length_append, List.length_singleton]
    omega
  · rw [hpending, hnum]
    exact hlt
  · rw [hpending, hslot]
    have hw : (if (t.bd t.nic).wrap then 0 else t.nic + 1) = (t.nic + 1) % t.num := by
      rw [← ring_succ hnic]
      simp only [h.wrap t.nic hnic]
    simp only [RxRing.receive_of_empty he, hw, RxRing.slot]
    rw [h.nic, RxRing.slot, Nat.mod_add_mod, Nat.add_assoc]
  · intro i hi
    rw [hnum] at hi ⊢
    rw [(RxRing.receive_bd i).2]
    exact h.wrap i hi
  · intro i hi
    rw [hnum] at hi
    rw [(RxRing.receive_bd i).1]
    have := h.pkts i hi
    rwa [RxRing.receive_of_empty he]
  · intro i hi
    rw [hnum] at hi
    rw [(RxRing.receive_bd i).1]
    have := h.known i hi
    rwa [RxRing.receive_of_empty he]
  · intro i hi j hj
    rw [hnum] at hi hj
    rw [(RxRing.receive_bd i).1, (RxRing.receive_bd j).1]
    exact h.distinct i hi j hj
  · intro j hj hp
    rw [hnum] at hj
    rw [hpending] at hp
    have hne : t.slot j ≠ t.nic := by
      rw [h.nic]
      intro hc
      have := RxRing.slot_inj hj hlt hc
      omega
    rw [hslot, hbd _ hne]
    exact h.empty j hj (by omega)
  · intro j g hg
    rw [hslot]
    simp only [RxRing.receive_of_empty he] at hg
    by_cases hj : t.allocs.length + j < t.received.length
    · -- 前から入っている枠は、別の mbuf にある。
      rw [List.getElem?_append_left hj] at hg
      have hjp : j < t.pending := RxRing.Ring.lt_pending hg
      have hne : t.slot j ≠ t.nic := by
        rw [h.nic]
        intro hc
        have := RxRing.slot_inj (by omega) hlt hc
        omega
      have hbuf : (t.bd (t.slot j)).buffer ≠ (t.bd t.nic).buffer := fun hc =>
        hne (h.distinct _ (RxRing.slot_lt h.cidx j) _ hnic hc)
      have hf := h.filled j g hg
      rw [hbd _ hne]
      refine ⟨hf.empty, hf.length, hf.last, hf.err, hf.timestamp, ?_⟩
      simp only [RxRing.receive_of_empty he, Function.update_of_ne hbuf]
      exact hf.data
    · have hl : t.received.length ≤ t.allocs.length + j := Nat.not_lt.mp hj
      rw [List.getElem?_append_right hl, List.getElem?_singleton] at hg
      split at hg
      · rename_i hz
        cases hg
        have hjp : j = t.pending := by
          have := h.taken
          unfold RxRing.pending
          omega
        rw [hjp, ← h.nic]
        simp only [RxRing.receive_of_empty he, Function.update_self]
        refine ⟨rfl, rfl, rfl, rfl, rfl, ?_⟩
        have : (overwrite (t.mem (t.bd t.nic).buffer) 0 f.bytes).take (0 + f.bytes.length) = (t.mem (t.bd t.nic).buffer).take 0 ++ f.bytes :=
          overwrite_take (Nat.zero_le _)
        simpa only [Function.update_self, Nat.zero_add, List.take_zero, List.nil_append] using this
      · cases hg

/-! ### 渡すべき枠 -/

theorem zip_append_left {α β : Type*} {l l' : List α} {m : List β} (h : m.length ≤ l.length) : (l ++ l').zip m = l.zip m := by
  rw [List.zip_eq_zip_take_min, @List.zip_eq_zip_take_min _ _ l, List.length_append, Nat.min_eq_right h,
    Nat.min_eq_right (Nat.le_trans h (Nat.le_add_right ..)), List.take_append_of_le_length h]

theorem zip_append_right {α β : Type*} {l : List α} {m : List β} {a : α} {b : β} (h : l[m.length]? = some a) :
    l.zip (m ++ [b]) = l.zip m ++ [(a, b)] := by
  induction m generalizing l with
  | nil =>
      cases l with
      | nil => cases h
      | cons x xs =>
          cases h
          simp
  | cons y ys ih =>
      cases l with
      | nil => cases h
      | cons x xs =>
          rw [List.length_cons, List.getElem?_cons_succ] at h
          simp [ih h]

theorem RxRing.wanted_receive (h : t.Ring) : (t.receive f).wanted = t.wanted := by
  simp only [RxRing.receive]
  split
  · simp only [RxRing.wanted, zip_append_left h.taken]
  · rfl

/-! ### 取り出し -/

/-- 先頭の記述子を mbuf `id` で NIC に返した後の状態。 -/
def RxRing.turn (t : RxRing) (id : Nat) (b : Bool) (issued : Nat) (mem : Nat → List UInt8) (hdrLen : Nat → Nat) (held : Option Held) : RxRing :=
  { ({ t with cidx := t.next t.cidx, allocs := t.allocs ++ [b], issued, mem, hdrLen } : RxRing).mx6qAddPkt id t.cidx with held }

/-- 一つ取り出すと、渡すべき枠は高々一つ増える。 -/
theorem RxRing.wanted_turn {id n : Nat} {b : Bool} {mem : Nat → List UInt8} {hdrLen : Nat → Nat} {held : Option Held}
    (hf : t.received[t.allocs.length]? = some f) :
    (t.turn id b n mem hdrLen held).wanted = t.wanted ++ (if !f.err && b then [f] else []) := by
  have hw : (t.turn id b n mem hdrLen held).wanted =
      ((t.received.zip (t.allocs ++ [b])).filter fun x => !x.1.err && x.2).map Prod.fst := rfl
  rw [hw, zip_append_right hf, List.filter_append, List.map_append, List.filter_singleton]
  congr 1
  cases !f.err && b <;> rfl

/-- 取り出しの三つの場合。 -/
theorem RxRing.poll_cases {new : Option NewMbuf} (h : t.Ring) (hp : t.poll new = .ok u) :
    u = t ∨
    (t.bd t.cidx).empty = false ∧
      (((t.bd t.cidx).err = true ∨ new = none) ∧ u = t.turn (t.bd t.cidx).buffer new.isSome t.issued t.mem t.hdrLen t.held ∨
      (t.bd t.cidx).err = false ∧ ∃ m, new = some m ∧
        u = t.turn t.issued true (t.issued + 1) (Function.update t.mem t.issued m.data) (Function.update t.hdrLen t.issued m.hdrLen)
          (some ⟨t.cidx, (t.bd t.cidx).buffer, rxLength (t.bd t.cidx).length, (t.bd t.cidx).last⟩)) := by
  simp only [RxRing.poll, h.pkts t.cidx h.cidx] at hp
  split at hp
  · cases hp
    exact .inl rfl
  · rename_i he
    refine .inr ⟨Bool.not_eq_true _ ▸ he, ?_⟩
    split at hp
    · rename_i herr
      cases hp
      exact .inl ⟨.inl herr, rfl⟩
    · rename_i herr
      split at hp
      · cases hp
        exact .inl ⟨.inr rfl, rfl⟩
      · cases hp
        exact .inr ⟨Bool.not_eq_true _ ▸ herr, _, rfl, rfl⟩

theorem RxRing.Ring.turn {id n : Nat} {b : Bool} {mem : Nat → List UInt8} {hdrLen : Nat → Nat} {held : Option Held} (h : t.Ring)
    (hf : t.received[t.allocs.length]? = some f) (hn : t.issued ≤ n) (hid : id < n)
    (hfresh : ∀ i < t.num, i ≠ t.cidx → (t.bd i).buffer ≠ id) (hmem : ∀ i < t.issued, mem i = t.mem i) :
    (t.turn id b n mem hdrLen held).Ring := by
  have hcidx := h.cidx
  have htaken : t.allocs.length < t.received.length := (List.getElem?_eq_some_iff.mp hf).1
  have hroom := h.room
  have hpending : (t.turn id b n mem hdrLen held).pending + 1 = t.pending := by
    simp only [RxRing.turn, RxRing.mx6qAddPkt, RxRing.pending, List.length_append, List.length_singleton]
    omega
  have hslot : ∀ j, (t.turn id b n mem hdrLen held).slot j = t.slot (j + 1) := by
    intro j
    simp only [RxRing.turn, RxRing.mx6qAddPkt, RxRing.slot, RxRing.next, Nat.mod_add_mod]
    rw [Nat.add_assoc, Nat.add_comm 1]
  have hself : (t.turn id b n mem hdrLen held).bd t.cidx =
      { buffer := id, wrap := t.cidx + 1 = t.num, timestamp := (t.bd t.cidx).timestamp } := Function.update_self ..
  have hother : ∀ i, i ≠ t.cidx → (t.turn id b n mem hdrLen held).bd i = t.bd i := fun i hi => Function.update_of_ne hi ..
  have hne : ∀ j, j + 1 < t.num → t.slot (j + 1) ≠ t.cidx := by
    intro j hj hc
    rw [← h.slot_zero] at hc
    cases RxRing.slot_inj hj (by omega) hc
  constructor
  · exact Nat.mod_lt _ (by omega)
  · simp only [RxRing.turn, RxRing.mx6qAddPkt, List.length_append, List.length_singleton]
    omega
  · have : (t.turn id b n mem hdrLen held).num = t.num := rfl
    omega
  · rw [hslot, hpending, ← h.nic]
    rfl
  · intro i hi
    by_cases hic : i = t.cidx
    · subst hic
      rw [hself]
      exact decide_eq_true_iff
    · rw [hother i hic]
      exact h.wrap i hi
  · intro i hi
    by_cases hic : i = t.cidx
    · subst hic
      rw [hself]
      exact Function.update_self ..
    · rw [hother i hic, ← h.pkts i hi]
      exact Function.update_of_ne hic ..
  · intro i hi
    by_cases hic : i = t.cidx
    · subst hic
      rw [hself]
      exact hid
    · rw [hother i hic]
      exact Nat.lt_of_lt_of_le (h.known i hi) hn
  · intro i hi j hj he
    by_cases hic : i = t.cidx
    · by_cases hjc : j = t.cidx
      · rw [hic, hjc]
      · rw [hic, hself, hother j hjc] at he
        exact absurd he.symm (hfresh j hj hjc)
    · by_cases hjc : j = t.cidx
      · rw [hjc, hself, hother i hic] at he
        exact absurd he (hfresh i hi hic)
      · rw [hother i hic, hother j hjc] at he
        exact h.distinct i hi j hj he
  · intro j hj hp
    have hj : j < t.num := hj
    rw [hslot]
    by_cases hl : j + 1 = t.num
    · -- 一周して、返したばかりの記述子に戻る。
      have hback : t.slot (j + 1) = t.cidx := by
        rw [hl, RxRing.slot, Nat.add_mod_right, Nat.mod_eq_of_lt hcidx]
      rw [hback, hself]
    · rw [hother _ (hne j (by omega))]
      exact h.empty (j + 1) (by omega) (by omega)
  · intro j g hg
    have hg : t.received[t.allocs.length + (j + 1)]? = some g := by
      simpa only [RxRing.turn, RxRing.mx6qAddPkt, List.length_append, List.length_singleton, Nat.add_assoc, Nat.add_comm 1] using hg
    have hj := RxRing.Ring.lt_pending hg
    have hfill := h.filled (j + 1) g hg
    rw [hslot, hother _ (hne j (by omega))]
    refine ⟨hfill.empty, hfill.length, hfill.last, hfill.err, hfill.timestamp, ?_⟩
    have hmem := hmem _ (h.known (t.slot (j + 1)) (RxRing.slot_lt h.cidx _))
    simp only [RxRing.turn, RxRing.mx6qAddPkt, hmem]
    exact hfill.data

end

end Imx6Bsp.Devnp

namespace Imx6Bsp.Devnp

open Imx6Bsp.Lib

section

variable {t u : RxRing} {done : List Frame} {f : Frame}

/-! ## NIC -/

theorem RxRing.Carries.receive {h : Held} {g : Frame} (ht : t.Ring) (hc : t.Carries h g) (he : (t.bd t.nic).empty = true)
    (hok : h.idx = t.nic → recordedAs (t.mem h.id) = none) : (t.receive f).Carries h g := by
  have hnic : t.nic < t.num := ht.nic ▸ RxRing.slot_lt ht.cidx _
  have hmem : (t.receive f).mem h.id = t.mem h.id := by
    rw [RxRing.receive_of_empty he]
    exact Function.update_of_ne (hc.apart t.nic hnic).symm ..
  have hnum : (t.receive f).num = t.num := by rw [RxRing.receive_of_empty he]
  constructor
  · rw [hnum]
    exact hc.idx
  · rw [RxRing.receive_of_empty he]
    exact hc.known
  · intro i hi
    rw [hnum] at hi
    rw [(RxRing.receive_bd i).1]
    exact hc.apart i hi
  · exact hc.crc
  · exact hc.len
  · exact hc.last
  · rw [hmem]
    exact hc.data
  · intro hr
    rw [hmem] at hr
    have hne : h.idx ≠ t.nic := fun hi => hr (hok hi)
    simp only [RxRing.receive_of_empty he, Function.update_of_ne hne]
    exact hc.stamp hr

theorem RxRing.Inv.receive (h : t.Inv done) (hok : t.Tame (.receive f)) : (t.receive f).Inv done := by
  cases he : (t.bd t.nic).empty with
  | false =>
      have : t.receive f = t := by simp [RxRing.receive, he]
      rwa [this]
  | true =>
      have heq := RxRing.receive_of_empty (f := f) he
      refine ⟨h.toRing.receive he, ?_, ?_, ?_, ?_⟩
      · intro hn
        rw [RxRing.wanted_receive h.toRing]
        exact h.idle (by rwa [heq] at hn)
      · intro x hx
        obtain ⟨g, hw, hc⟩ := h.held x (by rwa [heq] at hx)
        refine ⟨g, by rwa [RxRing.wanted_receive h.toRing], hc.receive h.toRing he fun hi => ?_⟩
        exact hok he x (by rwa [heq] at hx) hi
      · rw [heq]
        exact h.passed
      · rw [heq]
        exact h.recorded

/-! ## 取り出し -/

theorem rxLength_eq {n : Nat} (h₁ : 4 ≤ n) (h₂ : n < 2 ^ 11) : rxLength n = n - 4 := by
  unfold rxLength
  omega

theorem RxRing.Inv.poll {new : Option NewMbuf} (h : t.Inv done) (hidle : t.held = none) (hok : t.Tame (.poll new))
    (hp : t.poll new = .ok u) : u.Inv done := by
  rcases RxRing.poll_cases h.toRing hp with rfl | ⟨he, hrest⟩
  · exact h
  · obtain ⟨f, hf, hfill⟩ := h.toRing.exists_filled (Nat.zero_lt_of_lt h.cidx) (by rw [h.toRing.slot_zero]; exact he)
    rw [h.toRing.slot_zero] at hfill
    rw [Nat.add_zero] at hf
    have hw := h.idle hidle
    rcases hrest with ⟨hwhy, rfl⟩ | ⟨herr, m, rfl, rfl⟩
    · -- 古い mbuf をそのまま NIC に返す。
      have hfresh : ∀ i < t.num, i ≠ t.cidx → (t.bd i).buffer ≠ (t.bd t.cidx).buffer := fun i hi hne hc =>
        hne (h.distinct i hi _ h.cidx hc)
      refine ⟨h.toRing.turn hf (Nat.le_refl _) (h.known _ h.cidx) hfresh fun _ _ => rfl, fun _ => ?_, fun x hx => ?_, h.passed, h.recorded⟩
      · rw [RxRing.wanted_turn hf, hw]
        rcases hwhy with herr | rfl
        · rw [hfill.err] at herr
          simp [herr]
        · simp
      · rw [show t.held = none from hidle] at hx
        cases hx
    · have hfresh : ∀ i < t.num, i ≠ t.cidx → (t.bd i).buffer ≠ t.issued := fun i hi _ => Nat.ne_of_lt (h.known i hi)
      have hmem : ∀ i < t.issued, Function.update t.mem t.issued m.data i = t.mem i := fun i hi => Function.update_of_ne (Nat.ne_of_lt hi) ..
      refine ⟨h.toRing.turn hf (Nat.le_succ _) (Nat.lt_succ_self _) hfresh hmem, nofun, fun x hx => ?_, h.passed, h.recorded⟩
      cases hx
      have hok : (t.bd t.cidx).last = true ∧ 4 ≤ (t.bd t.cidx).length ∧ (t.bd t.cidx).length < 2 ^ 11 := by
        rcases hok with hc | hc | hc | hc
        · rw [hc] at he
          cases he
        · rw [hc] at herr
          cases herr
        · cases hc
        · exact hc
      have hbuf : (t.bd t.cidx).buffer ≠ t.issued := Nat.ne_of_lt (h.known _ h.cidx)
      refine ⟨f, ?_, ?_⟩
      · rw [RxRing.wanted_turn hf, hw]
        rw [hfill.err] at herr
        simp [herr]
      · constructor
        · exact h.cidx
        · exact Nat.lt_succ_of_lt (h.known _ h.cidx)
        · intro i hi
          by_cases hic : i = t.cidx
          · subst hic
            simp only [RxRing.turn, RxRing.mx6qAddPkt, Function.update_self]
            exact hbuf.symm
          · simp only [RxRing.turn, RxRing.mx6qAddPkt, Function.update_of_ne hic]
            exact fun hc => hic (h.distinct i hi _ h.cidx hc)
        · rw [← hfill.length]
          exact hok.2.1
        · rw [rxLength_eq hok.2.1 hok.2.2, hfill.length]
        · exact hok.1
        · simp only [RxRing.turn, RxRing.mx6qAddPkt, Function.update_of_ne hbuf]
          exact hfill.data
        · intro _
          simp only [RxRing.turn, RxRing.mx6qAddPkt, Function.update_self]
          exact hfill.timestamp

/-! ## 時刻印 -/

/-- 残した時刻印は、読んだ `timestamp` を持つ。 -/
theorem PtpBufs.addRxTimestamp_nsec {p : PtpBufs} {rtc timestamp : BitVec 32} {m : List UInt8} :
    ∀ s ∈ (p.mx6qPtpAddRxTimestamp rtc m timestamp).2, s.nsec = timestamp ∧ recordedAs m ≠ none := by
  intro s hs
  simp only [PtpBufs.mx6qPtpAddRxTimestamp] at hs
  split at hs
  · cases hs
  · rename_i k ph hr
    cases hs
    simp [PtpBufs.add, mx6qPtpAddTs, hr]

/-- 列の中身は前のままか、いま残した時刻印である。 -/
theorem PtpBufs.addRxTimestamp_ts {p : PtpBufs} {rtc timestamp : BitVec 32} {m : List UInt8} (k : PtpMsg) (i : Nat) :
    (p.mx6qPtpAddRxTimestamp rtc m timestamp).1.ts k i = p.ts k i ∨
      (p.mx6qPtpAddRxTimestamp rtc m timestamp).2 = some ((p.mx6qPtpAddRxTimestamp rtc m timestamp).1.ts k i) := by
  simp only [PtpBufs.mx6qPtpAddRxTimestamp]
  split
  · exact .inl rfl
  · rename_i k' ph hr
    by_cases hk : k = k'
    · subst hk
      by_cases hi : i = p.cnt k
      · subst hi
        exact .inr rfl
      · left
        simp [PtpBufs.add, Function.update_of_ne hi]
    · left
      simp [PtpBufs.add, Function.update_of_ne hk]

theorem RxRing.Inv.pass {rtc : BitVec 32} (h : t.Inv done) (hp : t.pass rtc = .ok u) : ∃ done', u.Inv done' := by
  simp only [RxRing.pass] at hp
  split at hp
  · cases hp
  · rename_i x hx
    obtain ⟨f, hw, hc⟩ := h.held x hx
    cases hp
    refine ⟨done ++ [f], ⟨⟨h.cidx, h.taken, h.room, h.nic, h.wrap, h.pkts, h.known, h.distinct, h.empty, ?_⟩, fun _ => hw, nofun, ?_, ?_⟩⟩
    · intro j g hg
      have hfill := h.filled j g hg
      exact ⟨hfill.empty, hfill.length, hfill.last, hfill.err, hfill.timestamp, hfill.data⟩
    · refine List.rel_append h.passed (List.Forall₂.cons ⟨?_, hc.len, ?_, ?_⟩ .nil)
      · rw [hc.len, ← Nat.min_eq_left (Nat.sub_le f.bytes.length 4), ← List.take_take, hc.data]
        simp
      · simp [hc.last, hc.len]
      · intro s hs
        obtain ⟨hns, hrec⟩ := PtpBufs.addRxTimestamp_nsec s hs
        rw [hns, hc.stamp hrec]
    · intro k i
      rcases PtpBufs.addRxTimestamp_ts k i with hold | hnew
      · rw [hold]
        rcases h.recorded k i with hz | ⟨p, hp, hs⟩
        · exact .inl hz
        · exact .inr ⟨p, List.mem_append_left _ hp, hs⟩
      · exact .inr ⟨_, List.mem_append_right _ (List.mem_singleton_self _), hnew⟩

/-! ## 実行 -/

theorem RxRing.start_inv (requested : Nat) (new : Nat → NewMbuf) : (RxRing.start requested new).Inv [] := by
  have hnum : 16 ≤ (RxRing.start requested new).num := clampDescriptors_ge (by decide)
  refine ⟨⟨?_, Nat.le_refl _, Nat.zero_le _, ?_, ?_, ?_, ?_, ?_, fun _ _ _ => rfl, ?_⟩, fun _ => rfl, nofun, .nil, fun _ _ => .inl rfl⟩
  · exact Nat.lt_of_lt_of_le (Nat.zero_lt_succ 15) hnum
  · exact (Nat.zero_mod _).symm
  · intro i _
    exact decide_eq_true_iff
  · intro i hi
    exact if_pos hi
  · intro i hi
    exact hi
  · intro i _ j _ he
    exact he
  · intro j f hf
    cases hf

theorem RxRing.Inv.step {s : RxStep} (h : t.Inv done) (hok : t.Tame s) (hs : t.step s = .ok u) : ∃ done', u.Inv done' := by
  cases s with
  | receive f =>
      cases hs
      exact ⟨done, h.receive hok⟩
  | poll new =>
      simp only [RxRing.step] at hs
      split at hs
      · cases hs
      · rename_i hn
        exact ⟨done, h.poll (Option.not_isSome_iff_eq_none.mp hn) hok hs⟩
  | pass rtc => exact h.pass hs

theorem RxRing.Inv.sound (h : t.Inv done) : t.Sound := by
  have hlen : t.passed.length = done.length := h.passed.length_eq.symm
  refine ⟨h.pkts, h.wrap, ?_, ?_, h.taken, ?_, h.recorded⟩
  · cases hx : t.held with
    | none =>
        rw [h.idle hx, hlen, List.take_length]
        exact h.passed
    | some x =>
        obtain ⟨f, hw, -⟩ := h.held x hx
        rw [hw, hlen, List.take_left]
        exact h.passed
  · cases hx : t.held with
    | none =>
        rw [h.idle hx, hlen]
        rfl
    | some x =>
        obtain ⟨f, hw, -⟩ := h.held x hx
        rw [hw, hlen, List.length_append]
        rfl
  · intro j f hf
    exact ⟨Nat.lt_of_lt_of_le (RxRing.Ring.lt_pending hf) h.room, h.filled j f hf⟩

end

/-- 時刻印を読む前の記述子に NIC が書かず、渡す枠が一つの記述子に収まり長さが 11 ビットに収まる実行では、受信リングはいつも正しい。 -/
theorem rx_ring_sound (requested : Nat) (new : Nat → NewMbuf) (t : RxRing)
    (h : Reaches RxRing.step RxRing.Tame (RxRing.start requested new) t) : t.Sound := by
  have hinv : ∃ done, t.Inv done := by
    refine h.invariant (P := fun t => ∃ done, t.Inv done) ⟨[], RxRing.start_inv ..⟩ ?_
    rintro u s v ⟨done, hu⟩ hok hs
    exact hu.step hok hs
  obtain ⟨done, hinv⟩ := hinv
  exact hinv.sound

/-- 時刻 `timestamp` に受けた、64 バイトの Sync の枠。 -/
def Frame.sync (timestamp : BitVec 32) : Frame where
  bytes := List.replicate 12 0 ++ [0x88, 0xf7, 0, 2] ++ List.replicate 48 0
  timestamp
  fits := by decide

theorem rx_ring_sound_sample :
    ∃ t, Reaches RxRing.step RxRing.Tame (RxRing.start 16 fun _ => {}) t ∧
      t.passed.map (fun p => (p.len, p.pktLen, p.stamp.map Stamp.nsec)) = [(60, 60, some 5)] ∧ t.Sound := by
  obtain ⟨t, ht, hp⟩ := (Option.any_eq_true _ _).mp
    (by decide :
      (runAll RxRing.step RxRing.Tame
        [.receive (.sync 5), .receive (.sync 6), .poll (some {}), .receive (.sync 7), .pass 1, .poll none] (RxRing.start 16 fun _ => {})).any
        (fun t => t.passed.map (fun p => (p.len, p.pktLen, p.stamp.map Stamp.nsec)) = [(60, 60, some 5)]) = true)
  have hr := runAll_reaches ht
  exact ⟨t, hr, of_decide_eq_true hp, rx_ring_sound 16 _ t hr⟩

/-- リングが一杯のとき、返した記述子に NIC が次の枠を受けると、前の枠の時刻印が次の枠のものになる。 -/
theorem rx_stamp_of_next_frame :
    ∃ t, Reaches RxRing.step (fun _ _ => True) (RxRing.start 16 fun _ => {}) t ∧ ¬t.Sound := by
  obtain ⟨t, ht, hp⟩ := (Option.any_eq_true _ _).mp
    (by decide :
      (runAll RxRing.step (fun _ _ => True)
        (List.replicate 16 (.receive (.sync 5)) ++ [.poll (some {}), .receive (.sync 6), .pass 1]) (RxRing.start 16 fun _ => {})).any
        (fun t => (t.wanted.map Frame.timestamp, t.passed.map fun p => p.stamp.map Stamp.nsec) = ([5], [some 6])) = true)
  refine ⟨t, runAll_reaches ht, fun hs => ?_⟩
  obtain ⟨hw, hpassed⟩ := Prod.mk.injEq .. ▸ of_decide_eq_true hp
  obtain ⟨f, hw, hf⟩ := List.map_eq_singleton_iff.mp hw
  obtain ⟨p, hpassed, hp⟩ := List.map_eq_singleton_iff.mp hpassed
  have hall := hs.passed
  rw [hw, hpassed] at hall
  obtain ⟨s, hs, hn⟩ := Option.map_eq_some_iff.mp hp
  have := (List.forall₂_cons.mp hall).1.stamp s hs
  rw [hn, hf] at this
  exact absurd this (by decide)

end Imx6Bsp.Devnp
