import Imx6Bsp.Devb.Lemmas.Request
import Mathlib.Data.List.Basic
import Mathlib.Algebra.BigOperators.Group.List.Basic

/-!
# 要求の一生の補題

番号の帳簿、`pio_done()` の繰り返し、データの状態での条件の三つを、どの処理も保つことを示す。
-/

namespace Imx6Bsp.Devb

namespace Sim

/-! ## 番号 -/

section

variable {h : Host} {s t : Sim} {o : Hw}

/-- 取り出した CCB は、返したものと抱えているものである。 -/
structure Ledger (s : Sim) : Prop where
  order : s.dequeued = s.posted.map Nexus.id ++ (s.nexus.map Nexus.id).toList
  nodup : (s.dequeued ++ s.queue.map Prod.fst).Nodup
  fresh : ∀ id ∈ s.dequeued ++ s.queue.map Prod.fst, id < s.nextId
  settled : ∀ n ∈ s.posted, n.status ≠ .inprog

theorem Ledger.kept (hl : Ledger s) (hk : Kept s t) : Ledger t := by
  obtain ⟨k, hq, hi⟩ := hk.queue
  have hid : t.nexus.map Nexus.id = s.nexus.map Nexus.id := by
    have := congrArg (Option.map Prod.fst) hk.key
    rwa [Option.map_map, Option.map_map] at this
  have happ : t.dequeued ++ t.queue.map Prod.fst = (s.dequeued ++ s.queue.map Prod.fst) ++ List.range' s.nextId k := by
    rw [hk.dequeued, hq, List.append_assoc]
  refine ⟨?_, ?_, ?_, ?_⟩
  · rw [hk.dequeued, hk.posted, hid]
    exact hl.order
  · rw [happ]
    refine List.nodup_append.mpr ⟨hl.nodup, List.nodup_range', fun a ha b hb => ?_⟩
    have := hl.fresh a ha
    have := (List.mem_range'_1.mp hb).1
    omega
  · rw [happ]
    intro id hid
    rcases List.mem_append.mp hid with hid | hid
    · have := hl.fresh id hid
      omega
    · have := (List.mem_range'_1.mp hid).2
      omega
  · rw [hk.posted]
    exact hl.settled

theorem Ledger.post (hl : Ledger s) : Ledger s.post := by
  unfold Sim.post
  split
  · rename_i n hn
    split
    · exact hl
    · rename_i hst
      refine ⟨?_, hl.nodup, hl.fresh, fun m hm => ?_⟩
      · have := hl.order
        rw [hn] at this
        simp only [this, List.map_append, List.map_cons, List.map_nil, Option.map_some, Option.toList_some, Option.map_none,
          Option.toList_none, List.append_nil]
      · rcases List.mem_append.mp hm with hm | hm
        · exact hl.settled m hm
        · cases List.mem_singleton.mp hm
          exact hst
  · exact hl

theorem Ledger.settle (hl : Ledger s) : Ledger s.settle := by
  unfold Sim.settle
  split
  · exact Ledger.post ⟨hl.order, hl.nodup, hl.fresh, hl.settled⟩
  · exact hl

theorem Ledger.dequeue (hl : Ledger s) {k id : Nat} {q : Request} (hn : s.nexus = none) (hk : s.queue[k]? = some (id, q)) :
    Ledger (s.dequeue k id q) := by
  obtain ⟨hlt, hget⟩ := List.getElem?_eq_some_iff.mp hk
  have hperm : ((s.dequeued ++ [id]) ++ (s.queue.eraseIdx k).map Prod.fst).Perm (s.dequeued ++ s.queue.map Prod.fst) := by
    rw [List.append_assoc]
    refine List.Perm.append_left _ ?_
    have := (List.getElem_cons_eraseIdx_perm hlt).map Prod.fst
    rw [hget] at this
    exact this
  refine ⟨?_, hperm.nodup_iff.mpr hl.nodup, fun i hi => hl.fresh i (hperm.mem_iff.mp hi), hl.settled⟩
  have := hl.order
  rw [hn] at this
  simp only [Sim.dequeue, this, Option.map_none, Option.toList_none, List.append_nil, Option.map_some, Option.toList_some]

theorem Ledger.step (hl : Ledger s) (hb : Busy s) {i : Step} (hs : s.step h i = .ok t) : Ledger t := by
  cases i with
  | ambient a =>
      cases hs
      exact hl.kept (drift_ambient (.refl s) a).hold.toKept
  | start k o =>
      cases hs
      unfold mmcStartCcb
      split
      · rename_i id q hn hk
        have hr : Ran (s.dequeue k id q) ((s.dequeue k id q).execute h q o) := execute_ran (dequeue_idle hb hn) ⟨_, rfl, rfl, rfl⟩
        exact ((hl.dequeue hn hk).kept hr.toKept).post
      · exact hl
  | interrupt i e o =>
      cases hs
      have hd : Drift s (s.chipset i) := drift_chipset (.refl s) i
      have ht : Ledger (s.chipset i) := hl.kept hd.hold.toKept
      unfold mmcProcessInterrupt
      dsimp only
      split
      · exact ht
      · split
        · exact (ht.kept ((drift_mediaCheck (.refl _)).hold.trans hold_error).toKept).settle
        · split
          · rename_i hst
            exact (ht.kept (identIrq_kept (hb.drift hd) hst).1).settle
          · refine (Ledger.kept ?_ hold_dataIrq.toKept).settle
            split
            · exact ht.kept (kept_of rfl rfl rfl rfl rfl fun _ => rfl)
            · exact ht
          · exact ht.settle
  | timer =>
      cases hs
      split
      · exact hl
      · exact hl.kept (drift_mediaCheck (.refl s)).hold.toKept

/-! ## `pio_done()` の繰り返し -/

theorem pioLinear_spec (nbytes : Int) {off : Int} {ks : List Int} (hk : ∀ k ∈ ks, 0 ≤ k) (h0 : 0 ≤ off) :
    (pioLinear nbytes ks off).1 = -1 ∧ off + (pioLinear nbytes ks off).2 = nbytes ∨
      0 ≤ (pioLinear nbytes ks off).1 ∧ (pioLinear nbytes ks off).1 = off + (pioLinear nbytes ks off).2 := by
  induction ks generalizing off with
  | nil =>
      unfold pioLinear
      split
      · exact .inl ⟨rfl, by omega⟩
      · exact .inr ⟨h0, (Int.add_zero off).symm⟩
  | cons k ks ih =>
      have hk0 : 0 ≤ k := hk k List.mem_cons_self
      have hks : ∀ x ∈ ks, 0 ≤ x := fun x hx => hk x (List.mem_cons_of_mem _ hx)
      unfold pioLinear
      by_cases heq : off + k = nbytes
      · rw [if_pos heq, if_neg (fun hc => hc.2 rfl)]
        exact .inl ⟨rfl, heq⟩
      · rw [if_neg heq]
        by_cases hz : k ≠ 0 ∧ off + k ≠ -1
        · rw [if_pos hz]
          rcases ih hks (by omega : 0 ≤ off + k) with ⟨h₁, h₂⟩ | ⟨h₁, h₂⟩
          · exact .inl ⟨h₁, by dsimp only; omega⟩
          · exact .inr ⟨h₁, by dsimp only; omega⟩
        · rw [if_neg hz]
          exact .inr ⟨by dsimp only; omega, rfl⟩

/-- 先頭の `i` 個の要素のバイト数。 -/
def sgBefore (counts : List Nat) (i : Nat) : Int := ((counts.take i).sum : Nat)

theorem sgBefore_succ {counts : List Nat} {i : Nat} (hi : i < counts.length) : sgBefore counts (i + 1) = sgBefore counts i + counts.getD i 0 := by
  unfold sgBefore
  rw [List.sum_take_succ _ _ hi, List.getD_eq_getElem _ _ hi]
  exact Int.natCast_add ..

theorem sgBefore_all {counts : List Nat} {i : Nat} (hi : counts.length ≤ i) : sgBefore counts i = counts.sum := by
  unfold sgBefore
  rw [List.take_of_length_le hi]

theorem sgAdvance_spec {counts : List Nat} {sgi : Nat} {off : Int} (hi : sgi < counts.length) (h0 : 0 ≤ off) :
    (sgAdvance counts sgi off).2 = -1 ∧ sgBefore counts sgi + off = counts.sum ∨
      0 ≤ (sgAdvance counts sgi off).2 ∧ (sgAdvance counts sgi off).1 < counts.length ∧
        sgBefore counts (sgAdvance counts sgi off).1 + (sgAdvance counts sgi off).2 = sgBefore counts sgi + off := by
  have hsucc := sgBefore_succ hi
  unfold sgAdvance
  split
  · rename_i heq
    split
    · rename_i hlast
      have hall := sgBefore_all hlast
      exact .inl ⟨rfl, by omega⟩
    · refine .inr ⟨Int.le_refl 0, by dsimp only; omega, ?_⟩
      dsimp only
      omega
  · exact .inr ⟨h0, hi, rfl⟩

theorem pioScatter_spec {counts : List Nat} {sgi : Nat} {off : Int} {ks : List Int} (hk : ∀ k ∈ ks, 0 ≤ k) (hi : sgi < counts.length)
    (h0 : 0 ≤ off) :
    let r := pioScatter counts ks sgi off
    r.2.1 = -1 ∧ sgBefore counts sgi + off + r.2.2 = counts.sum ∨
      0 ≤ r.2.1 ∧ r.1 < counts.length ∧ sgBefore counts r.1 + r.2.1 = sgBefore counts sgi + off + r.2.2 := by
  induction ks generalizing sgi off with
  | nil =>
      unfold pioScatter
      dsimp only
      rcases sgAdvance_spec hi h0 with ⟨h₁, h₂⟩ | ⟨h₁, h₂, h₃⟩
      · exact .inl ⟨h₁, by omega⟩
      · exact .inr ⟨h₁, h₂, by omega⟩
  | cons k ks ih =>
      have hk0 : 0 ≤ k := hk k List.mem_cons_self
      have hks : ∀ x ∈ ks, 0 ≤ x := fun x hx => hk x (List.mem_cons_of_mem _ hx)
      have hadv := sgAdvance_spec hi (by omega : 0 ≤ off + k)
      unfold pioScatter
      dsimp only
      generalize sgAdvance counts sgi (off + k) = p at hadv ⊢
      rcases hadv with ⟨h₁, h₂⟩ | ⟨h₁, h₂, h₃⟩
      · rw [if_neg (fun hc => hc.2 h₁)]
        exact .inl ⟨h₁, by dsimp only; omega⟩
      · split
        · rcases ih hks h₂ h₁ with ⟨h₄, h₅⟩ | ⟨h₄, h₅, h₆⟩
          · exact .inl ⟨h₄, by dsimp only at h₅ ⊢; omega⟩
          · exact .inr ⟨h₄, h₅, by dsimp only at h₆ ⊢; omega⟩
        · exact .inr ⟨h₁, h₂, by dsimp only; omega⟩

/-! ## データの状態 -/

/-- 最後に送ったデータ命令。停止の命令を送った後は、誤りの印があるか、データは終わっている。 -/
def HeadOk (stop : Stop) (check : Bool) (c : Cmd) : Prop :=
  if stop = .issued then check = true ∨ c.completed = true ∧ c.errored = false
  else c.errored = false ∧ (c.multi = true → stop = .pend)

/-- DMA では、`offset` はこれまでのデータ命令のバイト数の和である。 -/
structure DmaPhase (s : Sim) (n : Nexus) (c : Cmd) (cs : List Cmd) : Prop where
  cmds : n.cmds = c :: cs
  fine : ∀ x ∈ cs, x.Fine
  pos : 0 < c.bytes
  head : HeadOk s.stop n.check c
  sum : (n.cmds.map Cmd.bytes).sum = s.offset
  total : s.nbytes = n.req.buf.total

/-- `pio_done()` で移したバイト数と、`cur_sg` と `offset` の指す位置。 -/
def Placed (s : Sim) (b : Buf) (moved : Int) : Prop :=
  match b with
  | .linear len => moved = s.offset ∧ s.nbytes = len
  | .scatter counts => s.curSg < counts.length ∧ moved = sgBefore counts s.curSg + s.offset

/-- PIO では、データ命令は一つである。 -/
structure PioPhase (s : Sim) (n : Nexus) (c : Cmd) : Prop where
  cmds : n.cmds = [c]
  pio : c.dma = false
  pos : 0 < c.bytes
  head : HeadOk s.stop n.check c
  total : c.bytes = n.req.buf.total
  place : s.offset = -1 ∧ c.completed = true ∨ 0 ≤ s.offset ∧ Placed s n.req.buf c.moved

/-- データの状態での条件。 -/
def Phase (h : Host) (s : Sim) (n : Nexus) : Prop := if h.pio then ∃ c, PioPhase s n c else ∃ c cs, DmaPhase s n c cs

/-- 実行した後の条件。 -/
def Sound (h : Host) (s : Sim) (n : Nexus) : Prop := (n.status = .cmp → n.Complete) ∧ (n.status = .inprog → Phase h s n)

/-- 抱えている CCB について、実行した後の条件が成り立つ。 -/
def Outcome (h : Host) (s : Sim) : Prop := ∀ n, s.nexus = some n → Sound h s n

theorem outcome_error : Outcome h s.mmcError := by
  intro n hn
  obtain ⟨m, -, rfl⟩ := update_some hn
  exact ⟨nofun, nofun⟩

theorem outcome_sense : Outcome h s.mmcSense := by
  intro n hn
  obtain ⟨m, -, rfl⟩ := update_some hn
  exact ⟨nofun, nofun⟩

theorem outcome_finish (hc : ∀ n, s.nexus = some n → n.Complete) : Outcome h s.finish := by
  intro n hn
  obtain ⟨m, hm, rfl⟩ := update_some hn
  exact ⟨fun _ => ⟨(hc m hm).total, (hc m hm).fine⟩, nofun⟩

theorem Phase.congr {n : Nexus} (hp : Phase h s n) (h₁ : t.stop = s.stop) (h₂ : t.offset = s.offset) (h₃ : t.nbytes = s.nbytes)
    (h₄ : t.curSg = s.curSg) : Phase h t n := by
  unfold Phase at hp ⊢
  split
  · rename_i hpio
    rw [if_pos hpio] at hp
    obtain ⟨c, hp⟩ := hp
    refine ⟨c, hp.cmds, hp.pio, hp.pos, h₁ ▸ hp.head, hp.total, ?_⟩
    have hplace := hp.place
    unfold Placed at hplace ⊢
    rw [h₂, h₃, h₄]
    exact hplace
  · rename_i hpio
    rw [if_neg hpio] at hp
    obtain ⟨c, cs, hp⟩ := hp
    exact ⟨c, cs, hp.cmds, hp.fine, hp.pos, h₁ ▸ hp.head, hp.sum.trans h₂.symm, h₃.trans hp.total⟩

theorem Outcome.congr (ho : Outcome h s) (h₀ : t.nexus = s.nexus) (h₁ : t.stop = s.stop) (h₂ : t.offset = s.offset) (h₃ : t.nbytes = s.nbytes)
    (h₄ : t.curSg = s.curSg) : Outcome h t := by
  intro n hn
  obtain ⟨hc, hp⟩ := ho n (h₀ ▸ hn)
  exact ⟨hc, fun hip => (hp hip).congr h₁ h₂ h₃ h₄⟩

/-! ## データ命令 -/

/-- 送ったデータ命令の記録。 -/
structure Issued (h : Host) (n : Nexus) (s t : Sim) (nbytes : Int) (dma : Bool) (c : Cmd) : Prop where
  nexus : t.nexus = some { n with cmds := c :: n.cmds }
  bytes : c.bytes = nbytes
  mode : c.dma = dma
  moved : c.moved = 0
  head : HeadOk t.stop n.check c
  offset : t.offset = s.offset
  total : t.nbytes = s.nbytes
  curSg : t.curSg = s.curSg

theorem sendRwcmd_issued {n : Nexus} {nbytes : Int} {dma sent : Bool} (hn : s.nexus = some n)
    (hs : (s.mmcSendRwcmd h nbytes dma sent).1 = true) : ∃ c, Issued h n s (s.mmcSendRwcmd h nbytes dma sent).2 nbytes dma c := by
  unfold mmcSendRwcmd at hs ⊢
  dsimp only at hs ⊢
  split
  · refine ⟨{ bytes := nbytes, blkno := s.blkno, multi := !decide (nbytes = s.d.blksize) && !h.acmd12, dma, card := s.present, gone := s.gone },
      ?_, rfl, rfl, rfl, ?_, rfl, rfl, rfl⟩
    · rw [update_nexus, hn]
      rfl
    · show HeadOk (if decide (nbytes = s.d.blksize) then .none else if h.acmd12 then .auto else .pend) _ _
      unfold HeadOk
      by_cases hb : nbytes = s.d.blksize
      · simp [hb]
      · cases h.acmd12 <;> simp [hb]
  · rename_i hns
    rw [if_neg hns] at hs
    cases hs

theorem Issued.drift {n : Nexus} {u : Sim} {nbytes : Int} {dma : Bool} {c : Cmd} (hi : Issued h n t u nbytes dma c) (hd : Drift s t) :
    Issued h n s u nbytes dma c :=
  { hi with offset := hi.offset.trans hd.offset, total := hi.total.trans hd.nbytes, curSg := hi.curSg.trans hd.curSg }

theorem dmaXfer_issued {n : Nexus} (hn : s.nexus = some n) (hs : (s.mmcDmaXfer h o).1 = true) :
    o.setup ≠ 0 ∧ ∃ c, Issued h n s (s.mmcDmaXfer h o).2 o.setup true c := by
  have hd : Drift s (s.mmcWaitCardReady h o).2 := cardReady_drift
  unfold mmcDmaXfer at hs ⊢
  dsimp only at hs ⊢
  by_cases hr : (s.mmcWaitCardReady h o).1 = true
  · rw [if_neg (not_not.mpr hr)] at hs ⊢
    by_cases hz : o.setup = 0
    · rw [if_pos hz] at hs
      cases hs
    · rw [if_neg hz] at hs ⊢
      obtain ⟨c, hc⟩ := sendRwcmd_issued (hd.nexus.trans hn) hs
      exact ⟨hz, c, hc.drift hd⟩
  · rw [if_pos hr] at hs
    exact absurd hs hr

theorem pioXfer_issued {n : Nexus} {nbytes : Int} (hn : s.nexus = some n) (hs : (s.mmcPioXfer h nbytes o).1 = true) :
    ∃ c, Issued h n s (s.mmcPioXfer h nbytes o).2 nbytes false c := by
  have hd : Drift s (s.mmcWaitCardReady h o).2 := cardReady_drift
  unfold mmcPioXfer at hs ⊢
  dsimp only at hs ⊢
  by_cases hr : (s.mmcWaitCardReady h o).1 = true
  · rw [if_neg (not_not.mpr hr)] at hs ⊢
    by_cases hz : o.setup ≠ nbytes
    · rw [if_pos hz] at hs
      cases hs
    · rw [if_neg hz] at hs ⊢
      obtain ⟨c, hc⟩ := sendRwcmd_issued (hd.nexus.trans hn) hs
      exact ⟨c, hc.drift hd⟩
  · rw [if_pos hr] at hs
    exact absurd hs hr

/-- これまでのデータ命令は終わっていて、`offset` はそのバイト数の和である。 -/
structure Filled (s : Sim) (n : Nexus) : Prop where
  nexus : s.nexus = some n
  inprog : n.status = .inprog
  fine : ∀ c ∈ n.cmds, c.Fine
  sum : (n.cmds.map Cmd.bytes).sum = s.offset
  total : s.nbytes = n.req.buf.total

theorem Filled.dmaRw {n : Nexus} (hf : Filled s n) (hpio : h.pio = false) (hset : 0 ≤ o.setup) : Outcome h (s.mmcDmaRw h o) := by
  unfold mmcDmaRw
  dsimp only
  split
  · rename_i heq
    refine outcome_finish fun m hm => ?_
    cases hf.nexus.symm.trans hm
    exact ⟨by rw [hf.sum, ← heq, hf.total], hf.fine⟩
  · split
    · rename_i hs
      obtain ⟨hz, c, hc⟩ := dmaXfer_issued hf.nexus hs
      intro m hm
      cases hc.nexus.symm.trans hm
      refine ⟨fun hst => ?_, fun _ => ?_⟩
      · cases hf.inprog.symm.trans hst
      · unfold Phase
        rw [if_neg (by simp [hpio])]
        refine ⟨c, n.cmds, rfl, hf.fine, ?_, hc.head, ?_, ?_⟩
        · rw [hc.bytes]
          omega
        · simp only [List.map_cons, List.sum_cons, hf.sum, hc.bytes, hc.offset]
          omega
        · exact hc.total.trans hf.total
    · exact outcome_error

/-- 新しい実行の始まり。 -/
structure Fresh (s : Sim) (n : Nexus) : Prop where
  nexus : s.nexus = some n
  inprog : n.status = .inprog
  cmds : n.cmds = []
  offset : s.offset = 0
  curSg : s.curSg = 0

theorem Fresh.drift {n : Nexus} (hf : Fresh s n) (hd : Drift s t) : Fresh t n :=
  ⟨hd.nexus.trans hf.nexus, hf.inprog, hf.cmds, hd.offset.trans hf.offset, hd.curSg.trans hf.curSg⟩

theorem Fresh.pioInitiate {n : Nexus} (hf : Fresh s n) (hpio : h.pio = true) : Outcome h (s.mmcPioInitiate h n.req o) := by
  unfold mmcPioInitiate
  dsimp only
  split
  · exact outcome_error
  · split
    · rename_i hs
      obtain ⟨c, hc⟩ := pioXfer_issued (s := { s with nbytes := n.req.buf.total }) hf.nexus hs.1
      intro m hm
      cases hc.nexus.symm.trans hm
      refine ⟨fun hst => ?_, fun _ => ?_⟩
      · cases hf.inprog.symm.trans hst
      · unfold Phase
        rw [if_pos hpio]
        refine ⟨c, by rw [hf.cmds], hc.mode, ?_, hc.head, hc.bytes, .inr ⟨?_, ?_⟩⟩
        · rw [hc.bytes]
          omega
        · show (0 : Int) ≤ Sim.offset _
          rw [hc.offset]
          exact Int.le_of_eq hf.offset.symm
        · have hoff := hc.offset.trans hf.offset
          have hsg := hc.curSg.trans hf.curSg
          have htot := hc.total
          unfold Placed
          dsimp only at htot ⊢
          rw [hoff, hsg, hc.moved]
          split
          · rename_i len hb
            refine ⟨rfl, htot.trans ?_⟩
            rw [hb]
            rfl
          · rename_i counts hb
            refine ⟨?_, rfl⟩
            cases counts with
            | nil =>
                have := hs.2
                rw [hb] at this
                exact absurd this (Nat.lt_irrefl 0)
            | cons a as => exact Nat.succ_pos _
    · exact outcome_error

theorem Fresh.dmaInitiate {n : Nexus} (hf : Fresh s n) (hpio : h.pio = false) (hg : o.Good h n.req) : Outcome h (s.mmcDmaInitiate h n.req o) := by
  unfold mmcDmaInitiate
  dsimp only
  split
  · rename_i counts hb
    split
    · split
      · rename_i hs
        obtain ⟨hz, c, hc⟩ := dmaXfer_issued hf.nexus hs
        have htot : o.setup = n.req.buf.total := (hg.whole (by rw [hb]; rfl) hpio).resolve_left hz
        have hpos := hg.setup
        intro m hm
        cases hc.nexus.symm.trans hm
        refine ⟨fun hst => ?_, fun _ => ?_⟩
        · cases hf.inprog.symm.trans hst
        · unfold Phase
          rw [if_neg (by simp [hpio])]
          refine ⟨c, [], by rw [hf.cmds], fun c hc => (List.not_mem_nil hc).elim, ?_, hc.head, ?_, htot⟩
          · rw [hc.bytes]
            omega
          · rw [hf.cmds]
            simp only [List.map_cons, List.map_nil, List.sum_cons, List.sum_nil, hc.bytes]
            omega
      · exact outcome_error
    · exact outcome_error
  · rename_i len hb
    have hfill : Filled { s with nbytes := (len : Int) } n := by
      refine ⟨hf.nexus, hf.inprog, ?_, ?_, ?_⟩
      · rw [hf.cmds]
        exact fun c hc => (List.not_mem_nil hc).elim
      · rw [hf.cmds]
        exact hf.offset.symm
      · rw [hb]
        rfl
    have ho := hfill.dmaRw (o := o) hpio hg.setup
    split
    · exact ho.congr rfl rfl rfl rfl rfl
    · exact ho

theorem rw_outcome {n : Nexus} {dirIn : Bool} (hn : s.nexus = some n) (hip : n.status = .inprog) (hg : o.Good h n.req) :
    Outcome h (s.mmcRw h n.req dirIn o) := by
  unfold mmcRw
  dsimp only
  split
  · have hf : Fresh ({ s with offset := 0, curSg := 0, dirIn, blkno := n.req.lba }.update fun n => { n with cmds := [], past := n.all })
        { n with cmds := [], past := n.all } := ⟨by rw [update_nexus, hn]; rfl, hip, rfl, rfl, rfl⟩
    generalize ({ s with offset := 0, curSg := 0, dirIn, blkno := n.req.lba }.update fun n => { n with cmds := [], past := n.all }) = v at hf ⊢
    have hf' : Fresh (v.setPartition h n.req.lun o).2 _ := hf.drift setPartition_drift
    split
    · exact outcome_error
    · split
      · rename_i hpio
        split
        · exact hf'.pioInitiate hpio
        · exact outcome_error
      · rename_i hpio
        split
        · exact hf'.dmaInitiate (Bool.not_eq_true _ ▸ hpio) ⟨hg.setup, hg.pieces, hg.whole⟩
        · exact outcome_error
  · exact outcome_sense

/-- `READ10` と `WRITE10` の実行。識別の状態では、何もしない。 -/
theorem ioCmds_outcome {n : Nexus} (hn : s.nexus = some n) (hip : n.status = .inprog) (hrw : n.req.isRw) (hg : o.Good h n.req)
    (hst : s.state ≠ .ident) : Outcome h (s.mmcIoCmds h n.req o) := by
  unfold mmcIoCmds
  rw [if_neg hst]
  split
  · exact rw_outcome hn hip hg
  · split
    · exact outcome_sense
    · exact rw_outcome hn hip hg
  · rename_i hf
    exact absurd hrw (by simp [Request.isRw, hf])
  · rename_i hf
    exact absurd hrw (by simp [Request.isRw, hf])
  · rename_i hf
    exact absurd hrw (by simp [Request.isRw, hf])
  · rename_i hf
    exact absurd hrw (by simp [Request.isRw, hf])
  · rename_i hf
    exact absurd hrw (by simp [Request.isRw, hf])
  · rename_i hf
    exact absurd hrw (by simp [Request.isRw, hf])
  · exact outcome_sense

/-! ## 割り込み -/

theorem outcome_refused (ht : t.nexus = s.mmcError.nexus) : Outcome h t := by
  intro n hn
  obtain ⟨m, -, rfl⟩ := update_some (ht ▸ hn)
  exact ⟨nofun, nofun⟩

theorem outcome_phase {n : Nexus} (hn : s.nexus = some n) (hip : n.status = .inprog) (hp : Phase h s n) : Outcome h s := by
  intro m hm
  cases hn.symm.trans hm
  refine ⟨fun hst => ?_, fun _ => hp⟩
  cases hip.symm.trans hst

/-- 停止の命令を送っていない間の、最後のデータ命令。 -/
theorem HeadOk.open {stop : Stop} {check : Bool} {c : Cmd} (hh : HeadOk stop check c) (hs : stop ≠ .issued) :
    c.errored = false ∧ (c.multi = true → stop = .pend) := by
  unfold HeadOk at hh
  rwa [if_neg hs] at hh

/-- 停止の命令を送った後の、最後のデータ命令。 -/
theorem HeadOk.stopping {stop : Stop} {check : Bool} {c : Cmd} (hh : HeadOk stop check c) (hs : stop = .issued) :
    check = true ∨ c.completed = true ∧ c.errored = false := by
  unfold HeadOk at hh
  rwa [if_pos hs] at hh

theorem PioPhase.phase {n : Nexus} {c : Cmd} (hp : PioPhase s n c) (hpio : h.pio = true) : Phase h s n := by
  unfold Phase
  rw [if_pos hpio]
  exact ⟨c, hp⟩

theorem DmaPhase.phase {n : Nexus} {c : Cmd} {cs : List Cmd} (hp : DmaPhase s n c cs) (hpio : h.pio = false) : Phase h s n := by
  unfold Phase
  rw [if_neg (by simp [hpio])]
  exact ⟨c, cs, hp⟩

theorem PioPhase.pioStop {n : Nexus} {c : Cmd} {dirIn : Bool} (hp : PioPhase s n c) (hpio : h.pio = true) (hn : s.nexus = some n)
    (hip : n.status = .inprog) (hs : s.stop ≠ .issued) (hoff : s.offset = -1) (hdone : c.completed = true) :
    Outcome h (s.mmcPioStop o dirIn) := by
  obtain ⟨hclean, hmulti⟩ := hp.head.open hs
  unfold mmcPioStop
  split
  · split
    · split
      · have hp' : PioPhase { s with stop := .issued } n c := by
          refine { hp with head := ?_, place := .inl ⟨hoff, hdone⟩ }
          unfold HeadOk
          rw [if_pos rfl]
          exact .inr ⟨hdone, hclean⟩
        exact outcome_phase (s := { s with stop := .issued }) hn hip (hp'.phase hpio)
      · exact outcome_refused rfl
    · rename_i hpend
      refine outcome_finish fun m hm => ?_
      cases hn.symm.trans hm
      refine ⟨?_, ?_⟩
      · rw [hp.cmds]
        simp only [List.map_cons, List.map_nil, List.sum_cons, List.sum_nil, Int.add_zero]
        exact hp.total
      · rw [hp.cmds]
        intro x hx
        cases List.mem_singleton.mp hx
        exact ⟨hp.pos, hdone, hclean, fun hm => absurd (hmulti hm) hpend⟩
  · exact outcome_phase hn hip (hp.phase hpio)

/-- 移した後の位置。 -/
theorem Placed.moved {n : Nexus} {m : Int} (hp : Placed s n.req.buf m) (h0 : 0 ≤ s.offset) (hk : ∀ k ∈ o.pieces, 0 ≤ k) :
    (s.pioMoved n.req o).2.1 = -1 ∧ m + (s.pioMoved n.req o).2.2 = n.req.buf.total ∨
      0 ≤ (s.pioMoved n.req o).2.1 ∧
        Placed { s with curSg := (s.pioMoved n.req o).1, offset := (s.pioMoved n.req o).2.1 } n.req.buf (m + (s.pioMoved n.req o).2.2) := by
  unfold Placed at hp ⊢
  unfold pioMoved
  split at hp
  · rename_i len hb
    obtain ⟨hm, hnb⟩ := hp
    rw [hb]
    dsimp only [Buf.total]
    rcases pioLinear_spec s.nbytes hk h0 with ⟨h₁, h₂⟩ | ⟨h₁, h₂⟩
    · exact .inl ⟨h₁, by omega⟩
    · exact .inr ⟨h₁, by omega, hnb⟩
  · rename_i counts hb
    obtain ⟨hi, hm⟩ := hp
    rw [hb]
    dsimp only [Buf.total]
    rcases pioScatter_spec hk hi h0 with ⟨h₁, h₂⟩ | ⟨h₁, h₂, h₃⟩
    · exact .inl ⟨h₁, by omega⟩
    · exact .inr ⟨h₁, h₂, by omega⟩

theorem PioPhase.head_move {n : Nexus} {c : Cmd} {k : Int} (hp : PioPhase s n c) (hs : s.stop ≠ .issued) : HeadOk s.stop n.check (c.move k) := by
  obtain ⟨hclean, hmulti⟩ := hp.head.open hs
  unfold HeadOk
  rw [if_neg hs]
  exact ⟨hclean, hmulti⟩

theorem PioPhase.pioRw {n : Nexus} {c : Cmd} (hp : PioPhase s n c) (hpio : h.pio = true) (hn : s.nexus = some n) (hip : n.status = .inprog)
    (hs : s.stop ≠ .issued) (hk : ∀ k ∈ o.pieces, 0 ≤ k) : Outcome h (s.mmcPioRw n.req o) := by
  unfold mmcPioRw
  rcases hp.place with ⟨hoff, hdone⟩ | ⟨h0, hplace⟩
  · rw [if_pos hoff]
    exact hp.pioStop hpio hn hip hs hoff hdone
  · rw [if_neg (by omega)]
    have hmoved := hplace.moved h0 hk
    dsimp only
    generalize s.pioMoved n.req o = r at hmoved ⊢
    have hn' : ({ s with curSg := r.1, offset := r.2.1 }.update (Nexus.last (Cmd.move r.2.2))).nexus =
        some { n with cmds := [c.move r.2.2] } := by
      rw [update_nexus, hn, Option.map_some, Nexus.last, hp.cmds]
      rfl
    have hcore : (r.2.1 = -1 ∧ (c.move r.2.2).completed = true ∨ 0 ≤ r.2.1 ∧ Placed { s with curSg := r.1, offset := r.2.1 } n.req.buf
        (c.move r.2.2).moved) → PioPhase ({ s with curSg := r.1, offset := r.2.1 }.update (Nexus.last (Cmd.move r.2.2)))
        { n with cmds := [c.move r.2.2] } (c.move r.2.2) := fun hpl => ⟨rfl, hp.pio, hp.pos, hp.head_move hs, hp.total, hpl⟩
    rcases hmoved with ⟨h₁, h₂⟩ | ⟨h₁, h₂⟩
    · have hdone : (c.move r.2.2).completed = true := by
        simp only [Cmd.move, hp.pio, Bool.not_false, Bool.true_and, Bool.or_eq_true, decide_eq_true_eq]
        exact .inr (h₂.trans hp.total.symm)
      split
      · exact (hcore (.inl ⟨h₁, hdone⟩)).pioStop hpio hn' hip hs h₁ hdone
      · rename_i hne
        exact absurd h₁ hne
    · split
      · rename_i heq
        have heq : r.2.1 = -1 := heq
        omega
      · exact outcome_phase hn' hip ((hcore (.inr ⟨h₁, h₂⟩)).phase hpio)

/-- DMA のデータ命令が終わった。 -/
structure Landed (s : Sim) (n : Nexus) (c : Cmd) (cs : List Cmd) : Prop where
  nexus : s.nexus = some n
  inprog : n.status = .inprog
  cmds : n.cmds = c :: cs
  fine : ∀ x ∈ cs, x.Fine
  pos : 0 < c.bytes
  completed : c.completed = true
  clean : c.errored = false
  multi : c.multi = true → s.stop = .pend ∨ c.stopped = true
  sum : (n.cmds.map Cmd.bytes).sum = s.offset
  total : s.nbytes = n.req.buf.total

theorem Landed.dmaIrq {n : Nexus} {c : Cmd} {l : List Cmd} (hl : Landed s n c l) (hpio : h.pio = false) (hset : 0 ≤ o.setup) :
    Outcome h (s.mmcDmaIrq h o) := by
  unfold mmcDmaIrq
  split
  · split
    · have hp : DmaPhase { s with stop := .issued } n c l := by
        refine ⟨hl.cmds, hl.fine, hl.pos, ?_, hl.sum, hl.total⟩
        unfold HeadOk
        rw [if_pos rfl]
        exact .inr ⟨hl.completed, hl.clean⟩
      exact outcome_phase (s := { s with stop := .issued }) hl.nexus hl.inprog (hp.phase hpio)
    · exact outcome_refused rfl
  · rename_i hpend
    refine Filled.dmaRw ⟨hl.nexus, hl.inprog, ?_, hl.sum, hl.total⟩ hpio hset
    rw [hl.cmds]
    intro x hx
    rcases List.mem_cons.mp hx with rfl | hx
    · exact ⟨hl.pos, hl.completed, hl.clean, fun hm => (hl.multi hm).resolve_left hpend⟩
    · exact hl.fine x hx

theorem stopIrq_outcome {n : Nexus} {i : Intr} (hp : Phase h s n) (hn : s.nexus = some n) (hip : n.status = .inprog) (hs : s.stop = .issued)
    (hset : 0 ≤ o.setup) : Outcome h (s.stopIrq h n i o) := by
  unfold stopIrq
  split
  · split
    · exact outcome_refused rfl
    · exact outcome_phase (s := { s with stopsRetry := s.stopsRetry + 1 }) hn hip (hp.congr rfl rfl rfl rfl)
  · split
    · dsimp only
      split
      · exact outcome_error
      · rename_i hcheck
        unfold Phase at hp
        split
        · rename_i hpio
          rw [if_pos hpio] at hp
          obtain ⟨c, hp⟩ := hp
          obtain ⟨hdone, hclean⟩ := (hp.head.stopping hs).resolve_left hcheck
          refine outcome_finish fun m hm => ?_
          rw [update_nexus, hn] at hm
          cases hm
          have hcm : (n.last Cmd.halt).cmds = [c.halt] := by
            rw [Nexus.last, hp.cmds]
            rfl
          refine ⟨?_, ?_⟩
          · rw [hcm]
            simp only [List.map_cons, List.map_nil, List.sum_cons, List.sum_nil, Int.add_zero]
            exact hp.total
          · rw [hcm]
            intro x hx
            cases List.mem_singleton.mp hx
            exact ⟨hp.pos, hdone, hclean, fun _ => rfl⟩
        · rename_i hpio
          rw [if_neg hpio] at hp
          obtain ⟨c, cs, hp⟩ := hp
          obtain ⟨hdone, hclean⟩ := (hp.head.stopping hs).resolve_left hcheck
          have hcm : (n.last Cmd.halt).cmds = c.halt :: cs := by
            rw [Nexus.last, hp.cmds]
            rfl
          refine Landed.dmaIrq (n := n.last Cmd.halt) (c := c.halt) (l := cs) ?_ (Bool.not_eq_true _ ▸ hpio) hset
          refine ⟨?_, hip, hcm, hp.fine, hp.pos, hdone, hclean, fun _ => .inr rfl, ?_, hp.total⟩
          · rw [update_nexus, hn]
            rfl
          · have hsum := hp.sum
            rw [hp.cmds] at hsum
            rw [hcm]
            exact hsum
    · exact outcome_phase hn hip hp

/-- 誤りの無い割り込み。 -/
theorem dataIrq_outcome {n : Nexus} {i : Intr} (hp : Phase h s n) (hn : s.nexus = some n) (hip : n.status = .inprog) (hg : o.Good h n.req)
    (herr : i.error = false) (hready : h.pio = false → i.data = false → i.ready = true → s.stop = .issued) :
    Outcome h (s.mmcDataIrq h n i o) := by
  unfold mmcDataIrq
  split
  · rename_i hs
    exact stopIrq_outcome hp hn hip hs hg.setup
  · rename_i hs
    have hp' : Phase h { s with stopsRetry := 0 } n := hp.congr rfl rfl rfl rfl
    have hpioRw : h.pio = true → Outcome h (mmcPioRw { s with stopsRetry := 0 } n.req o) := by
      intro hpio
      unfold Phase at hp'
      rw [if_pos hpio] at hp'
      obtain ⟨c, hc⟩ := hp'
      exact hc.pioRw hpio hn hip hs hg.pieces
    dsimp only
    rw [if_neg (by simp [herr])]
    split
    · split
      · rename_i hpio
        exact hpioRw hpio
      · rename_i hpio
        split
        · unfold Phase at hp
          rw [if_neg hpio] at hp
          obtain ⟨c, cs, hp⟩ := hp
          obtain ⟨hclean, hmulti⟩ := hp.head.open hs
          have hcm : (n.last Cmd.complete).cmds = c.complete :: cs := by
            rw [Nexus.last, hp.cmds]
            rfl
          refine Landed.dmaIrq (n := n.last Cmd.complete) (c := c.complete) (l := cs) ?_ (Bool.not_eq_true _ ▸ hpio) hg.setup
          refine ⟨?_, hip, hcm, hp.fine, hp.pos, rfl, hclean, fun hm => .inl (hmulti hm), ?_, hp.total⟩
          · rw [update_nexus, hn]
            rfl
          · have hsum := hp.sum
            rw [hp.cmds] at hsum
            rw [hcm]
            exact hsum
        · exact outcome_refused rfl
    · rename_i hdata
      split
      · rename_i hrdy
        cases hpio : h.pio with
        | true => exact hpioRw hpio
        | false => exact absurd (hready hpio (Bool.not_eq_true _ ▸ hdata) hrdy) hs
      · exact outcome_phase (s := { s with stopsRetry := 0 }) hn hip hp'

/-- 誤りを記録し、停止の命令を送った後。 -/
theorem Phase.fail {n m : Nexus} (hp : Phase h s n) (hcm : m.cmds = n.cmds.modifyHead Cmd.fail) (hreq : m.req = n.req) (h₁ : t.stop = .issued)
    (h₂ : t.offset = s.offset) (h₃ : t.nbytes = s.nbytes) (h₄ : t.curSg = s.curSg)
    (hc : m.check = true ∨ s.stop = .issued ∧ m.check = n.check) : Phase h t m := by
  have hhead : ∀ c, HeadOk s.stop n.check c → HeadOk t.stop m.check c.fail := by
    intro c hh
    unfold HeadOk
    rw [if_pos h₁]
    rcases hc with hc | ⟨hs, hc⟩
    · exact .inl hc
    · rcases hh.stopping hs with hk | ⟨hd, he⟩
      · exact .inl (hc.trans hk)
      · refine .inr ⟨hd, ?_⟩
        simp [Cmd.fail, hd, he]
  unfold Phase at hp ⊢
  split
  · rename_i hpio
    rw [if_pos hpio] at hp
    obtain ⟨c, hp⟩ := hp
    refine ⟨c.fail, ?_, hp.pio, hp.pos, hhead c hp.head, ?_, ?_⟩
    · rw [hcm, hp.cmds]
      rfl
    · rw [hreq]
      exact hp.total
    · have hplace := hp.place
      unfold Placed at hplace ⊢
      rw [h₂, h₃, h₄, hreq]
      exact hplace
  · rename_i hpio
    rw [if_neg hpio] at hp
    obtain ⟨c, cs, hp⟩ := hp
    have hcons : m.cmds = c.fail :: cs := by
      rw [hcm, hp.cmds]
      rfl
    refine ⟨c.fail, cs, hcons, hp.fine, hp.pos, hhead c hp.head, ?_, ?_⟩
    · have hsum := hp.sum
      rw [hp.cmds] at hsum
      rw [hcons, h₂]
      exact hsum
    · rw [h₃, hreq]
      exact hp.total

/-- 誤りの割り込み。 -/
theorem dataIrq_error {n : Nexus} {i : Intr} (hp : Phase h s n) (hn : s.nexus = some n) (hip : n.status = .inprog) (hd : Drift s t)
    (hstop : t.stop = s.stop ∨ t.stop = .pend) (herr : i.error = true) :
    Outcome h ((t.update (Nexus.last Cmd.fail)).mmcDataIrq h n i o) := by
  have hn' : (t.update (Nexus.last Cmd.fail)).nexus = some (n.last Cmd.fail) := by
    rw [update_nexus, hd.nexus, hn]
    rfl
  unfold mmcDataIrq
  split
  · rename_i hs
    have hs : t.stop = .issued := hs
    unfold stopIrq
    rw [if_pos herr]
    split
    · exact outcome_refused rfl
    · refine outcome_phase (s := { t.update (Nexus.last Cmd.fail) with stopsRetry := t.stopsRetry + 1 }) hn' hip ?_
      refine hp.fail rfl rfl hs hd.offset hd.nbytes hd.curSg (.inr ⟨?_, rfl⟩)
      rcases hstop with hstop | hstop
      · exact hstop.symm.trans hs
      · cases hstop.symm.trans hs
  · dsimp only
    split
    · intro m hm
      obtain ⟨k, hk, rfl⟩ := update_some hm
      cases hn'.symm.trans hk
      refine ⟨fun hst => ?_, fun _ => ?_⟩
      · cases hip.symm.trans hst
      · exact hp.fail rfl rfl rfl hd.offset hd.nbytes hd.curSg (.inl rfl)
    · exact outcome_refused rfl

/-! ## 一歩 -/

/-- 返した CCB と、抱えている CCB の条件。 -/
structure Mid (h : Host) (s : Sim) : Prop where
  complete : ∀ n ∈ s.posted, n.req.isRw → n.status = .cmp → n.Complete
  now : ∀ n, s.nexus = some n → n.req.isRw → (n.status = .cmp → n.Complete) ∧ (n.status = .inprog → s.state = .data → Phase h s n)

theorem Outcome.mid (ho : Outcome h t) (hm : Mid h s) (hp : t.posted = s.posted) : Mid h t :=
  ⟨hp ▸ hm.complete, fun n hn _ => ⟨(ho n hn).1, fun hip _ => (ho n hn).2 hip⟩⟩

theorem Mid.frame (hm : Mid h s) (hd : Drift s t) (hstop : t.stop = s.stop) : Mid h t := by
  refine ⟨hd.posted ▸ hm.complete, fun n hn hrw => ?_⟩
  obtain ⟨hc, hp⟩ := hm.now n (hd.nexus ▸ hn) hrw
  exact ⟨hc, fun hip hst => (hp hip (hd.state hst)).congr hstop hd.offset hd.nbytes hd.curSg⟩

theorem Mid.post (hm : Mid h s) : Mid h s.post := by
  unfold Sim.post
  split
  · rename_i n hn
    split
    · exact hm
    · refine ⟨fun m hmem => ?_, forall_none rfl⟩
      rcases List.mem_append.mp hmem with hmem | hmem
      · exact hm.complete m hmem
      · cases List.mem_singleton.mp hmem
        exact fun hrw => (hm.now n hn hrw).1
  · exact hm

theorem Mid.settle (hm : Mid h s) : Mid h s.settle := by
  unfold Sim.settle
  split
  · have hidle : Mid h { s with state := .idle } := ⟨hm.complete, fun n hn hrw => ⟨(hm.now n hn hrw).1, nofun⟩⟩
    exact hidle.post
  · exact hm

theorem Kept.req {n m : Nexus} (hk : Kept s t) (hn : s.nexus = some n) (hm : t.nexus = some m) : m.req = n.req := by
  have hkey := hk.key
  rw [hn, hm] at hkey
  exact congrArg Prod.snd (Option.some.inj hkey)

theorem Mid.startCcb (hm : Mid h s) (hb : Busy s) {k : Nat} (hg : ∀ p ∈ s.queue[k]?, p.2.isRw → o.Good h p.2) : Mid h (s.mmcStartCcb h k o) := by
  unfold mmcStartCcb
  split
  · rename_i id q hn hk
    have hst : (s.dequeue k id q).state ≠ .data := dequeue_idle hb hn
    have hr : Ran (s.dequeue k id q) ((s.dequeue k id q).execute h q o) := execute_ran hst ⟨_, rfl, rfl, rfl⟩
    refine Mid.post ?_
    by_cases hrw : q.isRw
    · have hio : (s.dequeue k id q).execute h q o = (s.dequeue k id q).mmcIoCmds h q o := by
        unfold execute
        unfold Request.isRw at hrw
        split
        · rfl
        · rename_i hf
          simp [hf] at hrw
        · rename_i hf
          simp [hf] at hrw
      rw [hio] at hr ⊢
      by_cases hid : (s.dequeue k id q).state = .ident
      · unfold mmcIoCmds
        rw [if_pos hid]
        refine ⟨hm.complete, fun n hn _ => ⟨fun hc => ?_, fun _ hd => absurd hd hst⟩⟩
        cases hn
        cases hc
      · exact (ioCmds_outcome (s := s.dequeue k id q) rfl rfl hrw (hg (id, q) hk hrw) hid).mid hm hr.posted
    · refine ⟨hr.posted ▸ hm.complete, fun n hn hnrw => ?_⟩
      rw [hr.toKept.req rfl hn] at hnrw
      exact absurd hnrw hrw
  · exact hm

theorem Mid.identIrq (hm : Mid h s) (hb : Busy s) (hst : s.state = .ident) {i : Intr} {e : Event}
    (hg : ∀ n, s.nexus = some n → n.req.isRw → o.Good h n.req) : Mid h (s.mmcIdentIrq h i e o) := by
  have hk := (identIrq_kept (h := h) (i := i) (e := e) (o := o) hb hst).1
  refine ⟨hk.posted ▸ hm.complete, ?_⟩
  have hd : Drift s (s.identWait h o).2 := identWait_drift
  unfold mmcIdentIrq
  generalize s.identWait h o = w at hd ⊢
  obtain ⟨ok, v⟩ := w
  have hv : v.state ≠ .data := by
    intro hc
    have := hd.state hc
    rw [hst] at this
    cases this
  have hinprog : ∀ n, v.nexus = some n → n.status = .inprog := fun n hn => hb.inprog n (hd.nexus ▸ hn)
  have hwait : ∀ {t : Sim}, t.nexus = v.nexus → t.state ≠ .data → ∀ n, t.nexus = some n → n.req.isRw →
      (n.status = .cmp → n.Complete) ∧ (n.status = .inprog → t.state = .data → Phase h t n) := by
    intro t htn hts n hn _
    refine ⟨fun hc => ?_, fun _ hd => absurd hd hts⟩
    cases (hinprog n (htn ▸ hn)).symm.trans hc
  dsimp only
  generalize s.d.cardIdent h.toConf { e with command := i.command, error := i.error, detect := s.present.isSome, ready := ok } = r
  split
  · split
    · split
      · rename_i m hvm
        have hr : Ran { v with d := r.2, state := .idle, ready := true } (mmcIoCmds h { v with d := r.2, state := .idle, ready := true } m.req o) :=
          ioCmds_ran idle_ne_data ⟨m, hvm, rfl, hinprog m hvm⟩
        intro n hn hrw
        have hmrw : m.req.isRw := by
          rw [← hr.toKept.req hvm hn]
          exact hrw
        have ho := ioCmds_outcome (h := h) (o := o) (s := { v with d := r.2, state := .idle, ready := true }) hvm (hinprog m hvm) hmrw
          (hg m (hd.nexus ▸ hvm) hmrw) nofun
        exact ⟨(ho n hn).1, fun hip _ => (ho n hn).2 hip⟩
      · exact hwait rfl nofun
    · exact hwait rfl hv
  · intro n hn _
    obtain ⟨m, -, rfl⟩ := update_some hn
    exact ⟨nofun, nofun⟩

theorem chipset_stop {i : Intr} : (s.chipset i).stop = s.stop ∨ (s.chipset i).stop = .pend := by
  unfold Sim.chipset
  split
  · exact .inl rfl
  · split
    · exact .inr rfl
    · exact .inl rfl

theorem chipset_clean {i : Intr} (herr : i.error = false) : s.chipset i = s := by
  unfold Sim.chipset
  rw [if_neg (by simp [herr]), if_neg (by simp [herr])]

theorem Mid.processInterrupt (hm : Mid h s) (hb : Busy s) {i : Intr} {e : Event} (hreg : s.Regular h (.interrupt i e o)) :
    Mid h (s.mmcProcessInterrupt h i e o) := by
  obtain ⟨hg, hready⟩ := hreg
  have hd : Drift s (s.chipset i) := drift_chipset (.refl s) i
  unfold mmcProcessInterrupt
  dsimp only
  split
  · rename_i hnone
    have herr : i.error = false := by
      simp only [Intr.isNone, Bool.not_eq_true', Bool.or_eq_false_iff] at hnone
      exact hnone.2
    rw [chipset_clean herr]
    exact hm
  · split
    · have hk : Hold s ((s.chipset i).mmcMediaCheck h).mmcError := (hd.hold.trans (drift_mediaCheck (.refl _)).hold).trans hold_error
      exact (outcome_error.mid hm hk.posted).settle
    · rename_i hcard
      split
      · rename_i hst
        -- 識別の状態。誤りでここに来た場合も、抱えている CCB は進行中である
        have hm' : Mid h (s.chipset i) := by
          refine ⟨hd.posted ▸ hm.complete, fun n hn hrw => ⟨(hm.now n (hd.nexus ▸ hn) hrw).1, fun _ hc => ?_⟩⟩
          cases hst.symm.trans hc
        exact (hm'.identIrq (hb.drift hd) hst fun n hn hrw => hg n (hd.nexus ▸ hn) hrw).settle
      · rename_i n hst hn
        have hsn : s.nexus = some n := hd.nexus ▸ hn
        obtain ⟨m, hsm, hrw⟩ := hb.data (hd.state hst)
        cases hsn.symm.trans hsm
        have hip := hb.inprog n hsn
        have hp := (hm.now n hsn hrw).2 hip (hd.state hst)
        refine Mid.settle ?_
        cases herr : i.error with
        | true =>
            have hf : Hold (s.chipset i) ((s.chipset i).update (Nexus.last Cmd.fail)) := hold_of rfl rfl rfl rfl rfl rfl fun _ => rfl
            rw [if_pos rfl]
            exact (dataIrq_error hp hsn hip hd chipset_stop herr).mid hm ((hd.hold.trans hf).trans hold_dataIrq).posted
        | false =>
            rw [if_neg nofun]
            rw [chipset_clean herr]
            have ho := dataIrq_outcome hp hsn hip (hg n hsn hrw) herr fun hpio hdata hrdy =>
              hready hpio (hd.state hst) (Bool.not_eq_true _ ▸ hcard) herr hdata hrdy
            exact ho.mid hm hold_dataIrq.posted
      · rename_i hni hnd
        refine Mid.settle ⟨hd.posted ▸ hm.complete, fun n hn hrw => ⟨(hm.now n (hd.nexus ▸ hn) hrw).1, fun _ hc => ?_⟩⟩
        exact absurd hn (hnd n hc)

theorem Mid.step (hm : Mid h s) (hb : Busy s) {i : Step} (hreg : s.Regular h i) (hs : s.step h i = .ok t) : Mid h t := by
  have hcheck : (s.mmcMediaCheck h).stop = s.stop := by
    unfold mmcMediaCheck
    split
    · split <;> rfl
    · split <;> rfl
  cases i with
  | ambient a =>
      cases hs
      refine hm.frame (drift_ambient (.refl s) a) ?_
      cases a with
      | remove => rfl
      | insert =>
          unfold Sim.ambient
          dsimp only
          split <;> rfl
      | enqueue r =>
          unfold Sim.ambient mmcSimAction
          dsimp only
          split <;> rfl
      | control e =>
          unfold Sim.ambient mmcControl
          dsimp only
          split <;> rfl
  | start k o =>
      cases hs
      exact hm.startCcb hb hreg
  | interrupt i e o =>
      cases hs
      exact hm.processInterrupt hb hreg
  | timer =>
      cases hs
      split
      · exact hm
      · exact hm.frame (drift_mediaCheck (.refl s)) hcheck

end

end Sim

end Imx6Bsp.Devb
