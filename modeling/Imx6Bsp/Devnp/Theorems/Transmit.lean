import Imx6Bsp.Devnp.Lemmas.TxRing

/-!
# 送信リングの正しさ

最後の記述子を NIC に渡したまま初期化せず、写しを漏らす鎖や長すぎる鎖が来ない実行では、リングの数、所有、送信の順、解放がどれも正しい。
-/

namespace Imx6Bsp.Devnp

open Imx6Bsp.Lib

section

variable {t : TxRing} {ids : List Nat} {k : Nat}

/-! ## 送信 -/

/-- 空きを確かめた後は、一つ入れても余りの記述子が残る。 -/
theorem TxRing.Inv.harvest (reap : Nat → Nat) (h : t.Inv ids k []) :
    ∃ ids' k', (t.harvest reap).1.Inv ids' k' [] ∧ t.SameSetup (t.harvest reap).1 ∧
      ((t.harvest reap).2 = true → ids'.length + 5 ≤ (t.harvest reap).1.num) := by
  rw [TxRing.harvest]
  split_ifs with hc
  · obtain ⟨ids', k', h', -⟩ := h.completeLoop reap t.inuse 0
    refine ⟨ids', k', h', TxRing.sameSetup_completeLoop .., fun hb => ?_⟩
    have hroom := of_decide_eq_true hb
    have hinuse := h'.inuse
    have hle := h'.room
    simp only [TxRing.mx6qTransmitComplete, maxFrags, unusedDescr] at hroom hle hinuse ⊢
    omega
  · refine ⟨ids, k, h, ⟨rfl, rfl, rfl⟩, fun _ => ?_⟩
    have hinuse := h.inuse
    have hle := h.room
    simp only [maxFrags, unusedDescr, not_or, Nat.not_lt] at hc hle
    have := hc.1
    change ids.length + 5 ≤ t.num
    omega

theorem TxRing.Inv.startLoop {c : StartCall} {queue : List Packet} {i : Nat} (h : t.Inv ids k []) (hrun : t.running = true)
    (hq : ∀ (j : Nat) (p : Packet), queue[j]? = some p → p.Plain t.mclbytes (c.alloc (i + j))) :
    ∃ ids' k', (TxRing.startLoop c queue i t).Inv ids' k' [] := by
  induction queue generalizing t ids k i with
  | nil =>
      obtain ⟨k₁, h₁⟩ := h.nicRun (c.nic i)
      obtain ⟨ids₂, k₂, h₂, -, -⟩ := h₁.harvest (c.reap i)
      rw [TxRing.startLoop]
      split
      · exact ⟨ids₂, k₂, { h₂ with }⟩
      · exact ⟨ids₂, k₂, { h₂ with }⟩
  | cons p rest ih =>
      obtain ⟨k₁, h₁⟩ := h.nicRun (c.nic i)
      obtain ⟨ids₂, k₂, h₂, hset, hroom⟩ := h₁.harvest (c.reap i)
      have hset := (TxRing.sameSetup_nicRun (c.nic i) t).trans hset
      simp only [TxRing.startLoop]
      generalize (t.nicRun (c.nic i)).harvest (c.reap i) = r at h₂ hset hroom ⊢
      obtain ⟨u, b⟩ := r
      cases b with
      | false => exact ⟨ids₂, k₂, { h₂ with }⟩
      | true =>
          have hplain := hq 0 p rfl
          have hrest : ∀ (j : Nat) (p : Packet), rest[j]? = some p → p.Plain t.mclbytes (c.alloc (i + 1 + j)) := by
            intro j q hj
            have := hq (j + 1) q (by rw [List.getElem?_cons_succ]; exact hj)
            rwa [show i + (j + 1) = i + 1 + j by omega] at this
          rw [Nat.add_zero, ← hset.mclbytes] at hplain
          have htaken := h₂.take hplain
          simp only [if_true]
          generalize u.take p (c.alloc i) = r at htaken ⊢
          cases htaken with
          | dropped h₃ hset₃ =>
              have hset₃ := hset.trans hset₃
              exact ih h₃ (hset₃.running.trans hrun) (hset₃.mclbytes ▸ hrest)
          | @kept id v bytes h₃ hset₃ hmem hpos hlen =>
              have hnum := hset₃.num
              have hset₃ := hset.trans hset₃
              obtain ⟨w, hw, h₄, hset₄⟩ := h₃.load (hset₃.running.trans hrun) hmem hpos hlen (hnum ▸ hroom rfl)
              have hset₄ := hset₃.trans hset₄
              simp only [hw]
              exact ih h₄ (hset₄.running.trans hrun) (hset₄.mclbytes ▸ hrest)

/-! ## 初期化 -/

/-- リングにある mbuf は、どれもちょうど一つの位置にある。 -/
theorem TxRing.Inv.card_pkts {hand : List Nat} (h : t.Inv ids k hand) (id : Nat) :
    ((Finset.range t.num).filter fun i => t.pkts i = some id).card = if id ∈ ids then 1 else 0 := by
  have hroom := h.room
  have hnd : ids.Nodup := (List.nodup_append.mp h.nodup).1
  have hget : ∀ i < t.num, ∃ j < t.num, i = t.slot j ∧ t.pkts i = ids[j]? := by
    intro i hi
    have hj : (i + t.num - t.cidx) % t.num < t.num := Nat.mod_lt _ h.num_pos
    refine ⟨_, hj, (TxRing.exists_slot h.cidx hi).symm, ?_⟩
    rw [← h.pkts _ hj, TxRing.exists_slot h.cidx hi]
  split
  · rename_i hid
    obtain ⟨j, hj, rfl⟩ := List.mem_iff_getElem.mp hid
    have hjn : j < t.num := by omega
    refine Finset.card_eq_one.mpr ⟨t.slot j, Finset.ext fun i => ?_⟩
    simp only [Finset.mem_filter, Finset.mem_range, Finset.mem_singleton]
    constructor
    · rintro ⟨hi, hp⟩
      obtain ⟨j', hj', rfl, hp'⟩ := hget i hi
      rw [hp', ← List.getElem?_eq_getElem hj] at hp
      have hlt : j' < ids.length := by
        by_contra hc
        rw [List.getElem?_eq_none (by omega), List.getElem?_eq_getElem hj] at hp
        cases hp
      rw [(List.getElem?_inj hlt hnd).mp hp]
    · rintro rfl
      exact ⟨TxRing.slot_lt h.cidx j, by rw [h.pkts j hjn, List.getElem?_eq_getElem hj]⟩
  · rename_i hid
    rw [Finset.card_eq_zero, Finset.filter_eq_empty_iff]
    intro i hi hp
    obtain ⟨j, -, -, hp'⟩ := hget i (Finset.mem_range.mp hi)
    rw [hp'] at hp
    exact hid (List.mem_of_getElem? hp)

theorem TxRing.Inv.init (h : t.Inv ids k []) (hlast : (t.bd (t.num - 1)).ready = false) : t.mx6qInit.Inv [] 0 [] := by
  have hpos := h.num_pos
  have hslot : ∀ j < t.num, t.mx6qInit.slot j = j := by
    intro j hj
    simp only [TxRing.slot, TxRing.mx6qInit, Nat.zero_add]
    exact Nat.mod_eq_of_lt hj
  constructor
  · exact h.size
  · exact hpos
  · exact (hslot 0 hpos).symm
  · exact (hslot 0 hpos).symm
  · rfl
  · have := h.size
    exact Nat.le_trans (by decide) this
  · exact Nat.le_refl 0
  · intro hc
    cases hc
  · intro _ i hi
    have hi : i < t.num := hi
    simp only [TxRing.mx6qInit, hi, if_true]
    split
    · simp [*]
    · simp [*]
  · intro j hj
    have hj : j < t.num := hj
    rw [hslot j hj]
    simp only [TxRing.mx6qInit, hj, if_true]
    split
    · rename_i he
      have : j = t.num - 1 := by omega
      subst this
      simp [hlast]
    · simp
  · intro j hj
    have hj : j < t.num := hj
    rw [hslot j hj]
    simp [TxRing.mx6qInit, hj]
  · intro j id _ hid
    cases hid
  · have hs := h.stream
    have : (t.accepted.take t.sent.length).map (⟨·, true⟩) = t.sent := by
      rw [List.map_take, hs]
      exact List.take_left
    rw [List.drop_nil, List.map_nil, List.append_nil]
    exact this
  · exact List.nodup_nil
  · intro id hid
    cases hid
  · intro id hid
    have hf := h.frees id hid
    simp only [TxRing.mx6qInit, h.card_pkts, List.append_nil] at hf ⊢
    rw [hf]
    split <;> rfl
  · intro id hid
    have hnot : id ∉ ids := fun hm => absurd (h.known id (List.mem_append_left _ hm)) (Nat.not_lt.mpr hid)
    simp only [TxRing.mx6qInit, h.card_pkts, hnot, if_false, Nat.add_zero]
    exact h.fresh id hid

/-! ## 実行 -/

theorem TxRing.start_inv (requested mclbytes : Nat) : (TxRing.start requested mclbytes).Inv [] 0 [] := by
  have hsize : minNumTxDescriptors ≤ (TxRing.start requested mclbytes).num := clampDescriptors_ge (by decide)
  have hpos : 0 < (TxRing.start requested mclbytes).num := Nat.lt_of_lt_of_le (by decide) hsize
  have hzero : (TxRing.start requested mclbytes).slot 0 = 0 := Nat.zero_mod _
  refine ⟨hsize, hpos, hzero.symm, hzero.symm, rfl, Nat.le_trans (by decide) hsize, Nat.le_refl 0, fun _ => rfl, ?_, ?_, ?_, ?_, rfl,
    List.nodup_nil, ?_, ?_, fun _ _ => rfl⟩
  · intro hc
    cases hc
  · intro j _
    simp [TxRing.start]
  · intro j _
    simp [TxRing.start]
  · intro j id _ hid
    cases hid
  · intro id hid
    cases hid
  · intro id hid
    exact absurd hid (Nat.not_lt_zero _)

theorem TxRing.Inv.step {u : TxRing} {s : TxStep} (h : t.Inv ids k []) (hok : t.Tame s) (hs : t.step s = .ok u) :
    ∃ ids' k', u.Inv ids' k' [] := by
  cases s with
  | init =>
      cases hs
      exact ⟨[], 0, h.init hok⟩
  | enqueue p =>
      cases hs
      exact ⟨ids, k, { h with }⟩
  | start c =>
      cases hs
      simp only [TxRing.mx6qStart]
      split
      · rename_i hrun
        have h' : ({ t with oactive := true } : TxRing).Inv ids k [] := { h with }
        exact h'.startLoop hrun fun j p hp => by rw [Nat.zero_add]; exact hok (p, j) (List.mk_mem_zipIdx_iff_getElem?.mpr hp)
      · exact ⟨ids, k, h⟩
  | nic =>
      cases hs
      obtain ⟨k', h', -⟩ := h.nicStep
      exact ⟨ids, k', h'⟩
  | complete nics =>
      cases hs
      obtain ⟨ids', k', h', -⟩ := h.completeLoop nics t.inuse 0
      exact ⟨ids', k', h'⟩

/-- 不変条件から正しさが出る。 -/
theorem TxRing.Inv.sound (h : t.Inv ids k []) : t.Sound := by
  have hroom := h.room
  have hdone := h.done
  have hpos := h.num_pos
  have hcidx := h.cidx
  simp only [unusedDescr] at hroom
  have hoff : ∀ i < t.num, ∃ j < t.num, i = t.slot j ∧ (i + t.num - t.cidx) % t.num = j := fun i hi =>
    ⟨_, Nat.mod_lt _ hpos, (TxRing.exists_slot h.cidx hi).symm, rfl⟩
  constructor
  · rw [h.inuse, h.pidx]
    exact (ring_sub_add h.cidx (by omega)).symm
  · rw [h.inuse]
    unfold unusedDescr
    omega
  · intro i hi ho
    obtain ⟨j, hj, rfl, he⟩ := hoff i hi
    rw [he, h.inuse]
    rcases ho with hr | hp
    · exact ((h.ready j hj).mp hr).2
    · rw [h.pkts j hj] at hp
      by_contra hc
      exact hp (List.getElem?_eq_none (by omega))
  · rw [h.stream]
    congr 1
    have hlen : (t.pidx + t.num - t.nic) % t.num = ids.length - k := by
      have hnic : t.nic < t.num := h.nic ▸ TxRing.slot_lt h.cidx k
      have hp : t.pidx = (t.nic + (ids.length - k)) % t.num := by
        rw [h.pidx, h.nic, TxRing.slot, TxRing.slot, Nat.mod_add_mod]
        congr 1
        omega
      rw [hp]
      exact ring_sub_add hnic (by omega)
    rw [TxRing.waiting, hlen]
    refine List.ext_getElem (by simp) fun j h₁ h₂ => ?_
    simp only [List.length_map, List.length_drop] at h₁
    have hj : k + j < ids.length := by omega
    simp only [List.getElem_map, List.getElem_drop, List.getElem_range]
    have hslot : (t.nic + j) % t.num = t.slot (k + j) := by
      rw [h.nic, TxRing.slot, TxRing.slot, Nat.mod_add_mod, Nat.add_assoc]
    rw [hslot, TxRing.fetch_loaded (h.loaded (k + j) ids[k + j] (by omega) (List.getElem?_eq_getElem hj))]
  · intro id hid
    rw [h.frees id hid, List.append_nil]
    have hiff : id ∈ ids ↔ ∃ i < t.num, t.pkts i = some id := by
      constructor
      · intro hm
        obtain ⟨j, hj, rfl⟩ := List.mem_iff_getElem.mp hm
        exact ⟨t.slot j, TxRing.slot_lt h.cidx j, by rw [h.pkts j (by omega), List.getElem?_eq_getElem hj]⟩
      · rintro ⟨i, hi, hp⟩
        obtain ⟨j, hj, rfl, -⟩ := hoff i hi
        rw [h.pkts j hj] at hp
        exact List.mem_of_getElem? hp
    simp only [hiff]
  · intro i hi hr
    obtain ⟨j, hj, rfl, -⟩ := hoff i hi
    obtain ⟨hkj, hjl⟩ := (h.ready j hj).mp hr
    have hload := h.loaded j ids[j] hkj (List.getElem?_eq_getElem hjl)
    have hm : ids[j] ∈ ids := List.getElem_mem hjl
    rw [hload.1, h.frees _ (h.known _ (List.mem_append_left _ hm)), if_pos (List.mem_append_left _ hm)]

end

/-- 最後の記述子を NIC に渡したまま初期化せず、写しを漏らす鎖や長すぎる鎖が来ない実行では、送信リングはいつも正しい。 -/
theorem tx_ring_sound (requested mclbytes : Nat) (t : TxRing) (h : Reaches TxRing.step TxRing.Tame (TxRing.start requested mclbytes) t) :
    t.Sound := by
  have hinv : ∃ ids k, t.Inv ids k [] := by
    refine h.invariant (P := fun t => ∃ ids k, t.Inv ids k []) ⟨[], 0, TxRing.start_inv ..⟩ ?_
    rintro u s v ⟨ids, k, hu⟩ hok hs
    exact hu.step hok hs
  obtain ⟨ids, k, hinv⟩ := hinv
  exact hinv.sound

/-- 一バイトの鎖。 -/
def Packet.single (byte : UInt8) : Packet := ⟨[[byte]], Nat.zero_lt_one⟩

theorem tx_ring_sound_sample :
    ∃ t, Reaches TxRing.step TxRing.Tame (TxRing.start 64 2048) t ∧ (t.sent.map Sent.bytes, t.inuse, t.frees 0, t.frees 1) = ([[7], [9]], 1, 1, 0) ∧
      t.Sound := by
  obtain ⟨t, ht, hp⟩ := (Option.any_eq_true _ _).mp
    (by decide :
      (runAll TxRing.step TxRing.Tame
        [.init, .enqueue (.single 7), .start {}, .nic, .enqueue (.single 9), .start {}, .complete fun _ => 0, .nic] (TxRing.start 64 2048)).any
        (fun t => (t.sent.map Sent.bytes, t.inuse, t.frees 0, t.frees 1) = ([[7], [9]], 1, 1, 0)) = true)
  have hr := runAll_reaches ht
  exact ⟨t, hr, of_decide_eq_true hp, tx_ring_sound 64 2048 t hr⟩

/-- 最後の記述子を送り終えないうちに初期化すると、`TXBD_R` が残る。 -/
theorem tx_ring_stale_ready :
    ∃ t, Reaches TxRing.step (fun _ _ => True) (TxRing.start 64 2048) t ∧ ¬t.Sound := by
  obtain ⟨t, ht, hp⟩ := (Option.any_eq_true _ _).mp
    (by decide +kernel :
      (runAll TxRing.step (fun _ _ => True)
        (.init :: List.replicate 64 (.enqueue (.single 7)) ++ [.start { nic := fun k => if k < 63 then 1 else 0 }, .init]) (TxRing.start 64 2048)).any
        (fun t => (t.num, t.cidx, t.inuse, (t.bd 63).ready) = (64, 0, 0, true)) = true)
  refine ⟨t, runAll_reaches ht, fun hs => ?_⟩
  have hp := of_decide_eq_true hp
  simp only [Prod.mk.injEq] at hp
  have := hs.owned 63 (by omega) (.inl hp.2.2.2)
  omega

/-- `MCLBYTES` が 2048 のとき、一つのクラスタに入らない鎖。 -/
def Packet.jumbo : Packet where
  frags := [List.replicate 2048 7, [7]]
  pos := by
    rw [List.flatten_cons, List.length_append, List.length_replicate]
    exact Nat.add_pos_left (by decide) _

/-- 断片が多く `MCLBYTES` より長い鎖は、写したあと解放されない。 -/
theorem tx_ring_leak :
    ∃ t, Reaches TxRing.step (fun _ _ => True) (TxRing.start 64 2048) t ∧ ¬t.Sound := by
  obtain ⟨t, ht, hp⟩ := (Option.any_eq_true _ _).mp
    (by decide +kernel :
      (runAll TxRing.step (fun _ _ => True)
        [.init, .enqueue .jumbo,
          .start { alloc := fun _ => { dup := some ⟨fun bytes => [bytes], fun _ => List.flatten_singleton ..⟩ } }] (TxRing.start 64 2048)).any
        (fun t => (t.num, t.issued, t.frees 0) = (64, 2, 0) ∧ ∀ i < 64, t.pkts i ≠ some 0) = true)
  refine ⟨t, runAll_reaches ht, fun hs => ?_⟩
  obtain ⟨hp, hpkts⟩ := of_decide_eq_true hp
  simp only [Prod.mk.injEq] at hp
  have := hs.freed 0 (by omega)
  rw [if_neg (by rw [hp.1]; rintro ⟨i, hi, he⟩; exact hpkts i hi he)] at this
  omega

end Imx6Bsp.Devnp
