import Imx6Bsp.Devnp.TxRing
import Imx6Bsp.Lib.Rings

/-!
# 送信リングの補題

リングを `tx_cidx` から数えた位置で見る。先頭の `k` 個は送り終え、その後は NIC のもので、残りは空きである。
-/

namespace Imx6Bsp.Devnp

open Imx6Bsp.Lib

/-! ## 不変条件 -/

/-- `tx_cidx` から `j` 番目の位置。 -/
def TxRing.slot (t : TxRing) (j : Nat) : Nat := (t.cidx + j) % t.num

/-- 一つの断片からなる mbuf の、NIC の送る形。 -/
def TxRing.frame (t : TxRing) (id : Nat) : Sent := ⟨(t.mem id).flatten, true⟩

/-- NIC に渡した記述子。 -/
def TxRing.Loaded (t : TxRing) (b : TxBd) (id : Nat) : Prop :=
  b.buffer = (id, 0) ∧ b.last = true ∧ ∃ bytes, t.mem id = [bytes] ∧ b.length = bytes.length

/-- `ids` はリングにある mbuf を順に並べたもの、`hand` はリングの外で解放していない mbuf、`k` は NIC が送り終えた数である。 -/
structure TxRing.Inv (t : TxRing) (ids : List Nat) (k : Nat) (hand : List Nat) : Prop where
  size : minNumTxDescriptors ≤ t.num
  cidx : t.cidx < t.num
  pidx : t.pidx = t.slot ids.length
  nic : t.nic = t.slot k
  inuse : t.inuse = ids.length
  room : ids.length + unusedDescr ≤ t.num
  done : k ≤ ids.length
  idle : t.running = false → ids = []
  wrap : t.running = true → ∀ i < t.num, ((t.bd i).wrap = true ↔ i + 1 = t.num)
  ready : ∀ j < t.num, ((t.bd (t.slot j)).ready = true ↔ k ≤ j ∧ j < ids.length)
  pkts : ∀ j < t.num, t.pkts (t.slot j) = ids[j]?
  loaded : ∀ j id, k ≤ j → ids[j]? = some id → t.Loaded (t.bd (t.slot j)) id
  stream : t.accepted.map (⟨·, true⟩) = t.sent ++ (ids.drop k).map t.frame
  nodup : (ids ++ hand).Nodup
  known : ∀ id ∈ ids ++ hand, id < t.issued
  frees : ∀ id < t.issued, t.frees id = if id ∈ ids ++ hand then 0 else 1
  fresh : ∀ id, t.issued ≤ id → t.frees id = 0

section

variable {t : TxRing} {ids : List Nat} {k : Nat} {hand : List Nat}

theorem TxRing.slot_lt (h : t.cidx < t.num) (j : Nat) : t.slot j < t.num := Nat.mod_lt _ (by omega)

theorem TxRing.slot_inj {i j : Nat} (hi : i < t.num) (hj : j < t.num) (h : t.slot i = t.slot j) : i = j := ring_inj hi hj h

/-- どの位置も `tx_cidx` から数えられる。 -/
theorem TxRing.exists_slot (h : t.cidx < t.num) {i : Nat} (hi : i < t.num) : t.slot ((i + t.num - t.cidx) % t.num) = i := ring_add_sub h hi

theorem TxRing.fetch_loaded {b : TxBd} {id : Nat} (h : t.Loaded b id) : t.fetch b = t.frame id := by
  obtain ⟨hb, hl, bytes, hm, hlen⟩ := h
  simp [TxRing.fetch, TxRing.frame, hb, hl, hm, hlen]

theorem TxRing.Inv.num_pos (h : t.Inv ids k hand) : 0 < t.num := Nat.lt_of_lt_of_le (by decide) h.size

/-- 途中で変わらない欄。 -/
structure TxRing.SameSetup (t u : TxRing) : Prop where
  mclbytes : u.mclbytes = t.mclbytes
  running : u.running = t.running
  num : u.num = t.num

theorem TxRing.SameSetup.trans {t u v : TxRing} (h₁ : t.SameSetup u) (h₂ : u.SameSetup v) : t.SameSetup v :=
  ⟨h₂.mclbytes.trans h₁.mclbytes, h₂.running.trans h₁.running, h₂.num.trans h₁.num⟩

theorem TxRing.sameSetup_nicRun (m : Nat) (t : TxRing) : t.SameSetup (t.nicRun m) := by
  induction m generalizing t with
  | zero => exact ⟨rfl, rfl, rfl⟩
  | succ m ih =>
      have hstep : t.SameSetup t.nicStep := by
        simp only [TxRing.nicStep]
        split <;> exact ⟨rfl, rfl, rfl⟩
      exact hstep.trans (ih t.nicStep)

theorem TxRing.sameSetup_completeLoop (nics : Nat → Nat) (fuel i : Nat) (t : TxRing) :
    t.SameSetup (TxRing.completeLoop nics fuel i t) := by
  induction fuel generalizing i t with
  | zero => exact TxRing.sameSetup_nicRun _ t
  | succ fuel ih =>
      have hreap : ∀ u : TxRing, u.SameSetup u.reap := by
        intro u
        simp only [TxRing.reap]
        cases u.pkts u.cidx <;> exact ⟨rfl, rfl, rfl⟩
      simp only [TxRing.completeLoop]
      split_ifs
      · exact TxRing.sameSetup_nicRun _ t
      · exact TxRing.sameSetup_nicRun _ t
      · exact (TxRing.sameSetup_nicRun _ t).trans ((hreap _).trans (ih ..))

/-! ## NIC -/

theorem TxRing.Inv.nicStep (h : t.Inv ids k hand) : ∃ k', t.nicStep.Inv ids k' hand ∧ k ≤ k' := by
  have hroom := h.room
  have hdone := h.done
  simp only [TxRing.nicStep]
  split
  · rename_i hr
    rw [h.nic] at hr
    have hk : k < t.num := by unfold unusedDescr at hroom; omega
    have hlt : k < ids.length := ((h.ready k hk).mp hr).2
    have hrun : t.running = true := by
      by_contra hc
      rw [h.idle (Bool.not_eq_true _ ▸ hc)] at hlt
      exact absurd hlt (Nat.not_lt_zero _)
    have hslot : ∀ j < t.num, j ≠ k → t.slot j ≠ t.slot k := fun j hj hne he => hne (TxRing.slot_inj hj hk he)
    have hload := h.loaded k ids[k] (Nat.le_refl _) (List.getElem?_eq_getElem hlt)
    refine ⟨k + 1, ?_, Nat.le_succ k⟩
    rw [h.nic]
    constructor
    · exact h.size
    · exact h.cidx
    · exact h.pidx
    · have hw := h.wrap hrun (t.slot k) (TxRing.slot_lt h.cidx k)
      simp only [hw]
      rw [ring_succ (TxRing.slot_lt h.cidx k), TxRing.slot, TxRing.slot, Nat.mod_add_mod, Nat.add_assoc]
    · exact h.inuse
    · exact h.room
    · exact hlt
    · exact h.idle
    · intro _ i hi
      have hw := h.wrap hrun i hi
      by_cases he : i = t.slot k
      · subst he; simpa using hw
      · simpa [he] using hw
    · intro j hj
      by_cases he : j = k
      · subst he
        simp [TxRing.slot]
      · have := h.ready j hj
        have hne := hslot j hj he
        simp only [TxRing.slot] at hne this ⊢
        simp only [Function.update_of_ne hne, this]
        omega
    · exact h.pkts
    · intro j id hj hid
      have hjl : j < ids.length := (List.getElem?_eq_some_iff.mp hid).1
      have hne := hslot j (by omega) (by omega)
      have := h.loaded j id (by omega) hid
      simp only [TxRing.slot] at hne this ⊢
      rwa [Function.update_of_ne hne]
    · have hs := h.stream
      rw [List.drop_eq_getElem_cons hlt, List.map_cons] at hs
      rw [TxRing.fetch_loaded hload, List.append_assoc]
      exact hs
    · exact h.nodup
    · exact h.known
    · exact h.frees
    · exact h.fresh
  · exact ⟨k, h, Nat.le_refl k⟩

theorem TxRing.Inv.nicRun (m : Nat) (h : t.Inv ids k hand) : ∃ k', (t.nicRun m).Inv ids k' hand := by
  induction m generalizing t k with
  | zero => exact ⟨k, h⟩
  | succ m ih =>
      obtain ⟨k', h', -⟩ := h.nicStep
      simp only [TxRing.nicRun, Function.iterate_succ, Function.comp] at ih ⊢
      exact ih h'

/-! ## 片付け -/

theorem TxRing.Inv.reap (h : t.Inv ids k hand) (hne : t.pidx ≠ t.cidx) (hr : (t.bd t.cidx).ready = false) :
    ∃ id rest, ids = id :: rest ∧ t.reap.Inv rest (k - 1) hand := by
  have hroom := h.room
  have hdone := h.done
  have hzero : t.slot 0 = t.cidx := by rw [TxRing.slot, Nat.add_zero, Nat.mod_eq_of_lt h.cidx]
  cases ids with
  | nil =>
      have := h.pidx
      rw [List.length_nil, hzero] at this
      exact absurd this hne
  | cons id rest =>
      simp only [List.length_cons, unusedDescr] at hroom hdone
      have hk : 0 < k := by
        by_contra hk
        have := (h.ready 0 h.num_pos).mpr ⟨by omega, by simp⟩
        rw [hzero, hr] at this
        cases this
      have hid : t.pkts t.cidx = some id := by
        have := h.pkts 0 h.num_pos
        rwa [hzero] at this
      refine ⟨id, rest, rfl, ?_⟩
      have hnd := h.nodup
      rw [List.cons_append, List.nodup_cons] at hnd
      -- 新しい先頭から `j` 番目は、前の先頭から `j + 1` 番目である。
      have hslot : ∀ j, t.reap.slot j = t.slot (j + 1) := by
        intro j
        simp only [TxRing.reap, TxRing.slot, TxRing.next, TxRing.free, hid]
        rw [Nat.mod_add_mod, Nat.add_assoc, Nat.add_comm 1 j]
      have hlast : t.slot (t.num - 1 + 1) = t.cidx := by
        rw [TxRing.slot, show t.cidx + (t.num - 1 + 1) = t.cidx + t.num by omega, Nat.add_mod_right, Nat.mod_eq_of_lt h.cidx]
      have hother : ∀ j, j + 1 < t.num → t.slot (j + 1) ≠ t.cidx := by
        intro j hj he
        rw [← hzero] at he
        have := TxRing.slot_inj hj h.num_pos he
        omega
      have hnum : t.reap.num = t.num := by simp [TxRing.reap, hid, TxRing.free]
      have hbd : ∀ i, t.reap.bd i =
          if i = t.cidx then { t.bd t.cidx with ready := false, last := false, tc := false, bdu := false } else t.bd i := by
        intro i
        simp only [TxRing.reap, hid, TxRing.free, Function.update_apply]
      have hpk : ∀ i, t.reap.pkts i = if i = t.cidx then none else t.pkts i := by
        intro i
        simp only [TxRing.reap, hid, TxRing.free, Function.update_apply]
      have hfr : ∀ i, t.reap.frees i = if i = id then t.frees id + 1 else t.frees i := by
        intro i
        simp only [TxRing.reap, hid, TxRing.free, Function.update_apply]
      have hmem : t.reap.mem = t.mem := by simp [TxRing.reap, hid, TxRing.free]
      constructor
      · rw [hnum]; exact h.size
      · rw [hnum]
        simp only [TxRing.reap, hid, TxRing.free, TxRing.next]
        exact Nat.mod_lt _ h.num_pos
      · rw [hslot]
        simp only [TxRing.reap, hid, TxRing.free]
        exact h.pidx
      · rw [hslot, Nat.sub_add_cancel hk]
        simp only [TxRing.reap, hid, TxRing.free]
        exact h.nic
      · simp [TxRing.reap, hid, TxRing.free, h.inuse]
      · rw [hnum]
        unfold unusedDescr
        omega
      · omega
      · intro hrun
        have : t.running = false := by simpa [TxRing.reap, hid, TxRing.free] using hrun
        cases h.idle this
      · intro hrun i hi
        have hrun : t.running = true := by simpa [TxRing.reap, hid, TxRing.free] using hrun
        rw [hnum] at hi ⊢
        rw [hbd]
        split
        · rename_i he
          subst he
          exact h.wrap hrun _ hi
        · exact h.wrap hrun i hi
      · intro j hj
        rw [hnum] at hj
        rw [hslot, hbd]
        by_cases he : j + 1 < t.num
        · rw [if_neg (hother j he), h.ready (j + 1) he, List.length_cons]
          omega
        · have : j = t.num - 1 := by omega
          subst this
          rw [if_pos hlast]
          simp only [Bool.false_eq_true, false_iff]
          omega
      · intro j hj
        rw [hnum] at hj
        rw [hslot, hpk]
        by_cases he : j + 1 < t.num
        · rw [if_neg (hother j he), h.pkts (j + 1) he, List.getElem?_cons_succ]
        · have : j = t.num - 1 := by omega
          subst this
          rw [if_pos hlast, List.getElem?_eq_none (by omega)]
      · intro j i hj hi
        have hjl : j < rest.length := (List.getElem?_eq_some_iff.mp hi).1
        rw [hslot, hbd, if_neg (hother j (by omega)), TxRing.Loaded, hmem]
        exact h.loaded (j + 1) i (by omega) (by rw [List.getElem?_cons_succ]; exact hi)
      · have hs := h.stream
        obtain ⟨k', rfl⟩ : ∃ k', k = k' + 1 := ⟨k - 1, by omega⟩
        rw [List.drop_succ_cons] at hs
        have hframe : t.reap.frame = t.frame := by
          funext i
          rw [TxRing.frame, TxRing.frame, hmem]
        rw [hframe, Nat.add_sub_cancel]
        simpa only [TxRing.reap, hid, TxRing.free] using hs
      · exact hnd.2
      · intro i hi
        have := h.known i (by rw [List.cons_append]; exact List.mem_cons_of_mem _ hi)
        simpa [TxRing.reap, hid, TxRing.free] using this
      · intro i hi
        have hi : i < t.issued := by simpa [TxRing.reap, hid, TxRing.free] using hi
        have hf := h.frees i hi
        rw [hfr]
        by_cases he : i = id
        · subst he
          rw [if_pos (by simp)] at hf
          rw [if_pos rfl, if_neg hnd.1, hf]
        · rw [if_neg he, hf]
          simp [he]
      · intro i hi
        have hi : t.issued ≤ i := by simpa [TxRing.reap, hid, TxRing.free] using hi
        have : id < t.issued := h.known id (by simp)
        rw [hfr, if_neg (by omega)]
        exact h.fresh i hi

theorem TxRing.Inv.completeLoop (nics : Nat → Nat) (fuel i : Nat) (h : t.Inv ids k hand) :
    ∃ ids' k', (TxRing.completeLoop nics fuel i t).Inv ids' k' hand ∧ ids' <:+ ids := by
  induction fuel generalizing t ids k i with
  | zero =>
      obtain ⟨k', h'⟩ := h.nicRun (nics i)
      exact ⟨ids, k', h', List.suffix_rfl⟩
  | succ fuel ih =>
      obtain ⟨k', h'⟩ := h.nicRun (nics i)
      simp only [TxRing.completeLoop]
      split_ifs with hp hr
      · exact ⟨ids, k', h', List.suffix_rfl⟩
      · exact ⟨ids, k', h', List.suffix_rfl⟩
      · rw [not_or, Bool.not_eq_true] at hr
        obtain ⟨id, rest, rfl, h''⟩ := h'.reap hp hr.1
        obtain ⟨ids', k'', h₃, hs⟩ := ih (i + 1) h''
        exact ⟨ids', k'', h₃, hs.trans (List.suffix_cons id rest)⟩

/-! ## mbuf -/

theorem TxRing.Inv.issue (frags : List (List UInt8)) (h : t.Inv ids k hand) : (t.issue frags).2.Inv ids k (t.issued :: hand) := by
  have hmem : ∀ id ∈ ids, (t.issue frags).2.mem id = t.mem id := by
    intro id hid
    have := h.known id (List.mem_append_left _ hid)
    exact Function.update_of_ne (by omega) ..
  have hnew : t.issued ∉ ids ++ hand := fun hm => absurd (h.known _ hm) (Nat.lt_irrefl _)
  have hperm : (ids ++ t.issued :: hand).Perm (t.issued :: (ids ++ hand)) := List.perm_middle
  refine ⟨h.size, h.cidx, h.pidx, h.nic, h.inuse, h.room, h.done, h.idle, h.wrap, h.ready, h.pkts, ?_, ?_, ?_, ?_, ?_, ?_⟩
  · intro j id hj hid
    rw [TxRing.Loaded, hmem id (List.mem_of_getElem? hid)]
    exact h.loaded j id hj hid
  · have hframe : (ids.drop k).map (t.issue frags).2.frame = (ids.drop k).map t.frame :=
      List.map_congr_left fun id hid => by rw [TxRing.frame, TxRing.frame, hmem id (List.mem_of_mem_drop hid)]
    rw [hframe]
    exact h.stream
  · exact hperm.nodup_iff.mpr (List.nodup_cons.mpr ⟨hnew, h.nodup⟩)
  · intro id hid
    rcases List.mem_cons.mp (hperm.mem_iff.mp hid) with rfl | hid
    · exact Nat.lt_succ_self _
    · exact Nat.lt_succ_of_lt (h.known id hid)
  · intro id hid
    simp only [hperm.mem_iff, List.mem_cons]
    by_cases he : id = t.issued
    · subst he
      rw [if_pos (.inl rfl)]
      exact h.fresh _ (Nat.le_refl _)
    · have hid : id < t.issued := Nat.lt_of_le_of_ne (Nat.le_of_lt_succ hid) he
      simp only [he, false_or]
      exact h.frees id hid
  · exact fun id hid => h.fresh id (Nat.le_of_succ_le hid)

theorem TxRing.Inv.free {id : Nat} (h : t.Inv ids k hand) (hid : id ∈ hand) : (t.free id).Inv ids k (hand.erase id) := by
  have hdisj : id ∉ ids := fun hm => (List.nodup_append.mp h.nodup).2.2 id hm id hid rfl
  have hnd : hand.Nodup := (List.nodup_append.mp h.nodup).2.1
  have hmem : ∀ i, i ∈ ids ++ hand.erase id ↔ i ≠ id ∧ i ∈ ids ++ hand := by
    intro i
    simp only [List.mem_append, hnd.mem_erase_iff]
    constructor
    · rintro (hi | hi)
      · exact ⟨fun he => hdisj (he ▸ hi), .inl hi⟩
      · exact ⟨hi.1, .inr hi.2⟩
    · rintro ⟨hne, hi | hi⟩
      · exact .inl hi
      · exact .inr ⟨hne, hi⟩
  refine ⟨h.size, h.cidx, h.pidx, h.nic, h.inuse, h.room, h.done, h.idle, h.wrap, h.ready, h.pkts, h.loaded, h.stream, ?_, ?_, ?_, ?_⟩
  · exact h.nodup.sublist (List.Sublist.append (List.Sublist.refl ids) List.erase_sublist)
  · exact fun i hi => h.known i ((hmem i).mp hi).2
  · intro i hi
    have hf := h.frees i hi
    simp only [TxRing.free, Function.update_apply, hmem]
    by_cases he : i = id
    · subst he
      rw [if_pos (List.mem_append_right _ hid)] at hf
      simp [hf]
    · simp only [he, if_false, ne_eq, not_false_eq_true, true_and]
      exact hf
  · intro i hi
    have : id < t.issued := h.known id (List.mem_append_right _ hid)
    have hi : t.issued ≤ i := hi
    simp only [TxRing.free, Function.update_of_ne (show i ≠ id by omega)]
    exact h.fresh i hi

/-- 鎖を取り出した結果。落としたものは解放してあり、落とさなかったものは一つの断片にまとまっている。 -/
inductive TxRing.Taken (t : TxRing) (ids : List Nat) (k : Nat) : Option Nat × TxRing → Prop
  | dropped {u} (h : u.Inv ids k []) (hset : t.SameSetup u) : Taken t ids k (none, u)
  | kept {id u} (bytes : List UInt8) (h : u.Inv ids k [id]) (hset : t.SameSetup u) (hmem : u.mem id = [bytes])
      (hpos : bytes.length ≠ 0) (hlen : bytes.length < 2 ^ 16) : Taken t ids k (some id, u)

/-- 断片が多い鎖は、一つの断片に写してから元を解放する。 -/
theorem TxRing.Inv.defrag {id : Nat} {a : Alloc} (h : t.Inv ids k [id]) (hpos : (t.mem id).flatten.length ≠ 0)
    (hp : if t.mclbytes < (t.mem id).flatten.length then a.dup = none else (t.mem id).flatten.length < 2 ^ 16) :
    TxRing.Taken t ids k (t.mx6qDefrag id a) := by
  have hfree : (t.free id).Inv ids k [] := by simpa using h.free (List.mem_singleton_self id)
  simp only [TxRing.mx6qDefrag]
  split
  · rename_i hlen
    rw [if_pos hlen] at hp
    rw [hp]
    exact .dropped hfree ⟨rfl, rfl, rfl⟩
  · rename_i hlen
    rw [if_neg hlen] at hp
    have hissue := h.issue [(t.mem id).flatten]
    have hid : id < t.issued := h.known id (by simp)
    have hfree₂ : ((t.issue [(t.mem id).flatten]).2.free id).Inv ids k [t.issued] := by
      have := hissue.free (show id ∈ [t.issued, id] by simp)
      rwa [List.erase_cons_tail (by simpa using (Nat.ne_of_gt hid)), List.erase_cons_head] at this
    split
    · exact .dropped hfree ⟨rfl, rfl, rfl⟩
    · split
      · have hfree₃ := hfree₂.free (List.mem_singleton_self t.issued)
        rw [List.erase_cons_head] at hfree₃
        exact .dropped hfree₃ ⟨rfl, rfl, rfl⟩
      · exact .kept (t.mem id).flatten hfree₂ ⟨rfl, rfl, rfl⟩ (Function.update_self ..) hpos hp

theorem TxRing.Inv.take {p : Packet} {a : Alloc} (h : t.Inv ids k []) (hp : p.Plain t.mclbytes a) :
    TxRing.Taken t ids k (t.take p a) := by
  have hissue := h.issue p.frags
  have hmem : (t.issue p.frags).2.mem t.issued = p.frags := Function.update_self ..
  have hpos := p.pos
  simp only [Packet.Plain] at hp
  by_cases hf : 1 < p.frags.length
  · have htake : t.take p a = (t.issue p.frags).2.mx6qDefrag t.issued a := if_pos hf
    rw [htake]
    have := hissue.defrag (a := a) (by rw [hmem]; omega) (by
      rw [hmem]
      split
      · rename_i hlen
        rw [if_pos ⟨hf, hlen⟩] at hp
        exact Option.isNone_iff_eq_none.mp hp
      · rename_i hlen
        rwa [if_neg (fun hc => hlen hc.2)] at hp)
    cases hres : (t.issue p.frags).2.mx6qDefrag t.issued a with
    | mk o u =>
        rw [hres] at this
        cases this with
        | dropped h₁ h₂ => exact .dropped h₁ ⟨h₂.mclbytes, h₂.running, h₂.num⟩
        | kept bytes h₁ h₂ h₃ h₄ h₅ => exact .kept bytes h₁ ⟨h₂.mclbytes, h₂.running, h₂.num⟩ h₃ h₄ h₅
  · have htake : t.take p a = (some t.issued, (t.issue p.frags).2) := if_neg hf
    have hone : ∃ bytes, p.frags = [bytes] := by
      match hq : p.frags with
      | [] => rw [hq] at hpos; exact absurd hpos (by simp)
      | [bytes] => exact ⟨bytes, rfl⟩
      | _ :: _ :: _ => rw [hq] at hf; exact absurd hf (by simp)
    obtain ⟨bytes, hb⟩ := hone
    rw [if_neg (fun hc => hf hc.1)] at hp
    rw [hb, List.flatten_singleton] at hp hpos
    rw [htake]
    exact .kept bytes hissue ⟨rfl, rfl, rfl⟩ (hmem.trans hb) (by omega) hp

/-! ## 記述子に入れる -/

theorem TxRing.load_eq {id : Nat} {bytes : List UInt8} (hmem : t.mem id = [bytes]) (hb : bytes.length ≠ 0)
    (hr : (t.bd t.pidx).ready = false) :
    t.load id = some { t with
      bd := Function.update t.bd t.pidx
        { t.bd t.pidx with buffer := (id, 0), length := bytes.length % 2 ^ 16, ready := true, last := true, tc := true }
      inuse := t.inuse + 1, pkts := Function.update t.pkts t.pidx (some id), pidx := t.next t.pidx
      accepted := t.accepted ++ [bytes] } := by
  have hne : bytes ≠ [] := fun h => hb (by rw [h]; rfl)
  simp [TxRing.load, TxRing.loadLoop, hmem, hb, hr, hne]

theorem TxRing.Inv.load {id : Nat} {bytes : List UInt8} (h : t.Inv ids k [id]) (hrun : t.running = true) (hmem : t.mem id = [bytes])
    (hb : bytes.length ≠ 0) (hlt : bytes.length < 2 ^ 16) (hroom : ids.length + 5 ≤ t.num) :
    ∃ u, t.load id = some u ∧ u.Inv (ids ++ [id]) k [] ∧ t.SameSetup u := by
  have hfree : (t.bd t.pidx).ready = false := by
    rw [← Bool.not_eq_true, h.pidx, h.ready ids.length (by omega)]
    omega
  have hslot : ∀ j < t.num, j ≠ ids.length → t.slot j ≠ t.pidx := by
    intro j hj hne he
    rw [h.pidx] at he
    exact hne (TxRing.slot_inj hj (by omega) he)
  have hdone := h.done
  refine ⟨_, TxRing.load_eq hmem hb hfree, ?_, ⟨rfl, rfl, rfl⟩⟩
  constructor
  · exact h.size
  · exact h.cidx
  · have : t.next t.pidx = t.slot (ids.length + 1) := by
      rw [h.pidx, TxRing.next, TxRing.slot, TxRing.slot, Nat.mod_add_mod, Nat.add_assoc]
    rw [List.length_append]
    exact this
  · exact h.nic
  · rw [List.length_append, ← h.inuse]
    rfl
  · rw [List.length_append]
    exact hroom
  · rw [List.length_append]
    omega
  · intro hc
    have hc : t.running = false := hc
    rw [hrun] at hc
    cases hc
  · intro _ i hi
    have hw := h.wrap hrun i hi
    by_cases he : i = t.pidx
    · subst he; simpa using hw
    · simpa [he] using hw
  · intro j hj
    rw [List.length_append, List.length_singleton]
    by_cases he : j = ids.length
    · subst he
      have hp : t.slot ids.length = t.pidx := h.pidx.symm
      simp only [TxRing.slot] at hp ⊢
      rw [hp, Function.update_self]
      simp [hdone]
    · have hne := hslot j hj he
      have := h.ready j hj
      simp only [TxRing.slot] at hne this ⊢
      rw [Function.update_of_ne hne, this]
      omega
  · intro j hj
    by_cases he : j = ids.length
    · subst he
      have hp : t.slot ids.length = t.pidx := h.pidx.symm
      simp only [TxRing.slot] at hp ⊢
      rw [hp, Function.update_self, List.getElem?_concat_length]
    · have hne := hslot j hj he
      have := h.pkts j hj
      simp only [TxRing.slot] at hne this ⊢
      rw [Function.update_of_ne hne, this]
      rcases Nat.lt_or_gt_of_ne he with hlt | hgt
      · rw [List.getElem?_append_left hlt]
      · rw [List.getElem?_eq_none (by omega), List.getElem?_eq_none (by rw [List.length_append, List.length_singleton]; omega)]
  · intro j i hj hi
    by_cases he : j = ids.length
    · subst he
      have hp : t.slot ids.length = t.pidx := h.pidx.symm
      rw [List.getElem?_concat_length] at hi
      cases hi
      simp only [TxRing.slot] at hp ⊢
      rw [hp, Function.update_self]
      exact ⟨rfl, rfl, bytes, hmem, Nat.mod_eq_of_lt hlt⟩
    · have hjl : j < (ids ++ [id]).length := (List.getElem?_eq_some_iff.mp hi).1
      rw [List.length_append, List.length_singleton] at hjl
      have hne := hslot j (by omega) he
      rw [List.getElem?_append_left (by omega)] at hi
      have := h.loaded j i hj hi
      simp only [TxRing.slot] at hne this ⊢
      rw [Function.update_of_ne hne]
      exact this
  · have hs := h.stream
    have hframe : t.frame id = ⟨bytes, true⟩ := by rw [TxRing.frame, hmem, List.flatten_singleton]
    rw [List.drop_append_of_le_length hdone]
    simp only [List.map_append, List.map_cons, List.map_nil, ← List.append_assoc]
    exact congrArg₂ _ hs (by rw [← hframe]; rfl)
  · simpa using h.nodup
  · simpa using h.known
  · simpa using h.frees
  · exact h.fresh

end

end Imx6Bsp.Devnp
