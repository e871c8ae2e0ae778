import Imx6Bsp.Devb.Lifecycle

/-!
# 要求の処理の補題

待ちの間に起きることで保たれる性質は、待ちの後にも成り立つ。
-/

namespace Imx6Bsp.Devb

/-- CCB の番号と中身。 -/
def Nexus.key (n : Nexus) : Nat × Request := (n.id, n.req)

namespace Sim

variable {h : Host} {s t u : Sim} {o : Hw} {ok : Ambient → Prop} {P : Sim → Prop}

/-! ## 待ち -/

/-- 外で起きることのうち `ok` を満たすものと、待ちの間の処理で保たれる性質。 -/
structure Stable (h : Host) (ok : Ambient → Prop) (P : Sim → Prop) : Prop where
  ambient : ∀ s a, ok a → P s → P (s.ambient h a)
  check : ∀ s, P s → P (s.mmcMediaCheck h)
  chipset : ∀ s i, P s → P (s.chipset i)

theorem Stable.foldl (hP : Stable h ok P) {as : List Ambient} (ha : ∀ a ∈ as, ok a) (hs : P s) : P (as.foldl (Sim.ambient h) s) := by
  induction as generalizing s with
  | nil => exact hs
  | cons a as ih =>
      refine ih (fun b hb => ha b (List.mem_cons_of_mem _ hb)) ?_
      exact hP.ambient s a (ha a List.mem_cons_self) hs

theorem Stable.waitCommand (hP : Stable h ok P) {rs : List (List Ambient × WaitPulse)} {retry : Nat} (hr : Only ok rs) (hs : P s) :
    P (mmcWaitCommand h rs retry s).2 := by
  induction rs generalizing s retry with
  | nil => exact hs
  | cons r rs ih =>
      obtain ⟨as, p⟩ := r
      have hrs : Only ok rs := fun q hq => hr q (List.mem_cons_of_mem _ hq)
      have hf : P (as.foldl (Sim.ambient h) s) := hP.foldl (hr (as, p) List.mem_cons_self) hs
      cases p with
      | interrupt i =>
          have hc := hP.chipset _ i hf
          simp only [mmcWaitCommand]
          split
          · exact hP.check _ hc
          · split
            · exact hc
            · split
              · exact hc
              · exact ih hrs hc
      | timer =>
          have hc : P (if h.cdIntr then as.foldl (Sim.ambient h) s else (as.foldl (Sim.ambient h) s).mmcMediaCheck h) := by
            split
            · exact hf
            · exact hP.check _ hf
          simp only [mmcWaitCommand]
          generalize (if h.cdIntr = true then as.foldl (Sim.ambient h) s else (as.foldl (Sim.ambient h) s).mmcMediaCheck h) = v at hc ⊢
          split
          · exact hc
          · split
            · exact hc
            · exact ih hrs hc
      | other =>
          simp only [mmcWaitCommand]
          split
          · exact hf
          · exact ih hrs hf

theorem Stable.sendWait (hP : Stable h ok P) {w : Wait} (hw : Only ok w.recv) (hs : P s) : P (s.sendWait h w).2 := by
  unfold Sim.sendWait
  split
  · exact hP.waitCommand hw hs
  · exact hs

theorem Stable.pollReady (hP : Stable h ok P) {ps : List (Wait × Bool)} {n : Nat} (hp : ∀ p ∈ ps, Only ok p.1.recv) (hs : P s) :
    P (pollReady h n ps s).2 := by
  induction ps generalizing s n with
  | nil => cases n <;> exact hs
  | cons p ps ih =>
      obtain ⟨w, rdy⟩ := p
      cases n with
      | zero => exact hs
      | succ n =>
          have hw := hP.sendWait (hp (w, rdy) List.mem_cons_self) hs
          simp only [Sim.pollReady]
          split
          · split
            · exact hw
            · exact ih (fun q hq => hp q (List.mem_cons_of_mem _ hq)) hw
          · exact hw

theorem Waits.trivial : Waits (fun _ => True) o := ⟨fun _ _ _ _ => .intro, fun _ _ _ _ _ _ => .intro⟩

theorem Stable.cardReady (hP : Stable h ok P) (hw : Waits ok o) (hs : P s) : P (s.mmcWaitCardReady h o).2 := by
  unfold mmcWaitCardReady
  split
  · exact hP.pollReady hw.polls hs
  · exact hs

theorem Stable.identWait (hP : Stable h ok P) (hw : Waits ok o) (hs : P s) : P (s.identWait h o).2 := by
  unfold Sim.identWait
  split
  · exact hP.sendWait hw.switch hs
  · exact hP.cardReady hw hs
  · exact hs

/-- `d` は識別の欄で、`P` が読まない。 -/
theorem Stable.setPartition (hP : Stable h ok P) (hd : ∀ s d, P s → P { s with d }) (lun : Nat) (hw : Waits ok o) (hs : P s) :
    P (s.setPartition h lun o).2 := by
  unfold Sim.setPartition
  split
  · exact hs
  · have := hP.sendWait hw.switch hs
    dsimp only
    split
    · exact hd _ _ this
    · exact this

/-! ## 待ちで変わらない欄 -/

/-- 列には新しい番号の CCB が積まれるだけである。 -/
def Grown (s t : Sim) : Prop := ∃ k, t.queue.map Prod.fst = s.queue.map Prod.fst ++ List.range' s.nextId k ∧ t.nextId = s.nextId + k

theorem Grown.refl (s : Sim) : Grown s s := ⟨0, by simp, rfl⟩

theorem Grown.trans (h₁ : Grown s t) (h₂ : Grown t u) : Grown s u := by
  obtain ⟨k, hk, hn⟩ := h₁
  obtain ⟨l, hl, hm⟩ := h₂
  refine ⟨k + l, ?_, ?_⟩
  · rw [hl, hk, hn, List.append_assoc, List.range'_append_1]
  · rw [hm, hn, Nat.add_assoc]

/-- 待ちの間に変わらない欄。データの状態には、待ちの間には入らない。 -/
structure Drift (s t : Sim) : Prop where
  state : t.state = .data → s.state = .data
  offset : t.offset = s.offset
  nbytes : t.nbytes = s.nbytes
  curSg : t.curSg = s.curSg
  dirIn : t.dirIn = s.dirIn
  nexus : t.nexus = s.nexus
  home : t.home = s.home
  dequeued : t.dequeued = s.dequeued
  posted : t.posted = s.posted
  queue : Grown s t

theorem Drift.refl (s : Sim) : Drift s s := ⟨id, rfl, rfl, rfl, rfl, rfl, rfl, rfl, rfl, .refl s⟩

theorem drift_ambient (hd : Drift s t) (a : Ambient) : Drift s (t.ambient h a) := by
  cases a with
  | remove => exact { hd with }
  | insert =>
      unfold Sim.ambient
      dsimp only
      split
      · exact { hd with }
      · exact hd
  | enqueue r =>
      unfold Sim.ambient mmcSimAction
      dsimp only
      split
      · refine { hd with queue := hd.queue.trans ⟨1, ?_, rfl⟩ }
        rw [List.map_append]
        rfl
      · exact hd
  | control e =>
      unfold Sim.ambient mmcControl
      dsimp only
      split
      · exact hd
      · refine { hd with state := fun hst => hd.state ?_ }
        dsimp only at hst
        split at hst
        · cases hst
        · exact hst
      · exact { hd with state := fun hst => absurd hst (by simp) }

theorem drift_mediaCheck (hd : Drift s t) : Drift s (t.mmcMediaCheck h) := by
  unfold mmcMediaCheck
  split
  · split
    · exact hd
    · exact { hd with }
  · split
    · exact { hd with }
    · exact hd

theorem drift_chipset (hd : Drift s t) (i : Intr) : Drift s (t.chipset i) := by
  unfold chipset
  split
  · exact { hd with state := fun hst => absurd hst (by simp) }
  · split
    · exact { hd with }
    · exact hd

theorem drift_stable (h : Host) (s : Sim) : Stable h (fun _ => True) (Drift s) where
  ambient _ a _ ht := drift_ambient ht a
  check _ ht := drift_mediaCheck ht
  chipset _ i ht := drift_chipset ht i

theorem cardReady_drift : Drift s (s.mmcWaitCardReady h o).2 := (drift_stable h s).cardReady .trivial (.refl s)

theorem identWait_drift : Drift s (s.identWait h o).2 := (drift_stable h s).identWait .trivial (.refl s)

theorem setPartition_drift {lun : Nat} : Drift s (s.setPartition h lun o).2 :=
  (drift_stable h s).setPartition (fun _ _ hd => { hd with }) lun .trivial (.refl s)

/-! ## CCB の受け渡し -/

@[simp]
theorem update_nexus (f : Nexus → Nexus) : (s.update f).nexus = s.nexus.map f := rfl

theorem update_some {f : Nexus → Nexus} {n : Nexus} (hn : (s.update f).nexus = some n) : ∃ m, s.nexus = some m ∧ f m = n :=
  Option.map_eq_some_iff.mp hn

/-- CCB を取り出しも返しもしない。 -/
structure Kept (s t : Sim) : Prop where
  key : t.nexus.map Nexus.key = s.nexus.map Nexus.key
  dequeued : t.dequeued = s.dequeued
  posted : t.posted = s.posted
  queue : Grown s t

/-- その上、データの状態に入らない。 -/
structure Hold (s t : Sim) : Prop extends Kept s t where
  state : t.state = .data → s.state = .data

theorem Kept.trans (h₁ : Kept s t) (h₂ : Kept t u) : Kept s u :=
  ⟨h₂.key.trans h₁.key, h₂.dequeued.trans h₁.dequeued, h₂.posted.trans h₁.posted, h₁.queue.trans h₂.queue⟩

theorem Hold.trans (h₁ : Hold s t) (h₂ : Hold t u) : Hold s u := ⟨h₁.toKept.trans h₂.toKept, fun hu => h₁.state (h₂.state hu)⟩

theorem Drift.hold (hd : Drift s t) : Hold s t := ⟨⟨by rw [hd.nexus], hd.dequeued, hd.posted, hd.queue⟩, hd.state⟩

theorem kept_of {f : Nexus → Nexus} (hn : t.nexus = s.nexus.map f) (hq : t.queue = s.queue) (hi : t.nextId = s.nextId)
    (hd : t.dequeued = s.dequeued) (hp : t.posted = s.posted) (hf : ∀ n, (f n).key = n.key) : Kept s t := by
  refine ⟨?_, hd, hp, 0, ?_, hi⟩
  · rw [hn, Option.map_map]
    congr 1
    exact funext hf
  · rw [hq]
    simp

theorem hold_of {f : Nexus → Nexus} (hn : t.nexus = s.nexus.map f) (hq : t.queue = s.queue) (hi : t.nextId = s.nextId)
    (hd : t.dequeued = s.dequeued) (hp : t.posted = s.posted) (hst : t.state = s.state) (hf : ∀ n, (f n).key = n.key) : Hold s t :=
  ⟨kept_of hn hq hi hd hp hf, fun ht => hst.symm.trans ht⟩

theorem hold_same (hn : t.nexus = s.nexus) (hq : t.queue = s.queue) (hi : t.nextId = s.nextId) (hd : t.dequeued = s.dequeued)
    (hp : t.posted = s.posted) (hst : t.state = s.state) : Hold s t :=
  hold_of (f := id) (by rw [hn, Option.map_id]; rfl) hq hi hd hp hst fun _ => rfl

theorem Hold.refl (s : Sim) : Hold s s := hold_same rfl rfl rfl rfl rfl rfl

theorem hold_error : Hold s s.mmcError := hold_of rfl rfl rfl rfl rfl rfl fun _ => rfl

theorem hold_sense : Hold s s.mmcSense := hold_of rfl rfl rfl rfl rfl rfl fun _ => rfl

theorem hold_finish : Hold s s.finish := hold_of rfl rfl rfl rfl rfl rfl fun _ => rfl

theorem hold_sendRwcmd {nbytes : Int} {dma sent : Bool} : Hold s (s.mmcSendRwcmd h nbytes dma sent).2 := by
  unfold mmcSendRwcmd
  dsimp only
  split
  · exact hold_of rfl rfl rfl rfl rfl rfl fun _ => rfl
  · exact hold_same rfl rfl rfl rfl rfl rfl

theorem hold_dmaXfer : Hold s (s.mmcDmaXfer h o).2 := by
  have hr : Hold s (s.mmcWaitCardReady h o).2 := cardReady_drift.hold
  unfold mmcDmaXfer
  dsimp only
  split
  · exact hr
  · split
    · exact hr
    · exact hr.trans hold_sendRwcmd

theorem hold_pioXfer {nbytes : Int} : Hold s (s.mmcPioXfer h nbytes o).2 := by
  have hr : Hold s (s.mmcWaitCardReady h o).2 := cardReady_drift.hold
  unfold mmcPioXfer
  dsimp only
  split
  · exact hr
  · split
    · exact hr
    · exact hr.trans hold_sendRwcmd

theorem hold_dmaRw : Hold s (s.mmcDmaRw h o) := by
  unfold mmcDmaRw
  dsimp only
  split
  · exact hold_finish
  · split
    · exact hold_dmaXfer.trans (hold_same rfl rfl rfl rfl rfl rfl)
    · exact hold_dmaXfer.trans hold_error

theorem hold_dmaIrq : Hold s (s.mmcDmaIrq h o) := by
  unfold mmcDmaIrq
  split
  · split
    · exact hold_same rfl rfl rfl rfl rfl rfl
    · exact hold_of rfl rfl rfl rfl rfl rfl fun _ => rfl
  · exact hold_dmaRw

theorem hold_pioStop {dirIn : Bool} : Hold s (s.mmcPioStop o dirIn) := by
  unfold mmcPioStop
  split
  · split
    · split
      · exact hold_same rfl rfl rfl rfl rfl rfl
      · exact hold_of rfl rfl rfl rfl rfl rfl fun _ => rfl
    · exact hold_finish
  · exact .refl s

theorem hold_pioRw {q : Request} : Hold s (s.mmcPioRw q o) := by
  unfold mmcPioRw
  split
  · exact hold_pioStop
  · dsimp only
    have hm : Hold s ({ s with curSg := (s.pioMoved q o).1, offset := (s.pioMoved q o).2.1 }.update
        (Nexus.last (Cmd.move (s.pioMoved q o).2.2))) := hold_of rfl rfl rfl rfl rfl rfl fun _ => rfl
    split
    · exact hm.trans hold_pioStop
    · exact hm

theorem hold_stopIrq {n : Nexus} {i : Intr} : Hold s (s.stopIrq h n i o) := by
  unfold stopIrq
  split
  · split
    · exact hold_of rfl rfl rfl rfl rfl rfl fun _ => rfl
    · exact hold_same rfl rfl rfl rfl rfl rfl
  · split
    · have hm : Hold s ({ s with stop := .none, stopsRetry := 0 }.update (Nexus.last Cmd.halt)) := hold_of rfl rfl rfl rfl rfl rfl fun _ => rfl
      dsimp only
      split
      · exact hm.trans hold_error
      · split
        · exact hm.trans hold_finish
        · exact hm.trans hold_dmaIrq
    · exact .refl s

theorem hold_dataIrq {n : Nexus} {i : Intr} : Hold s (s.mmcDataIrq h n i o) := by
  unfold mmcDataIrq
  split
  · exact hold_stopIrq
  · have hm : Hold s { s with stopsRetry := 0 } := hold_same rfl rfl rfl rfl rfl rfl
    dsimp only
    split
    · split
      · exact hold_of rfl rfl rfl rfl rfl rfl fun _ => rfl
      · exact hold_of rfl rfl rfl rfl rfl rfl fun _ => rfl
    · split
      · split
        · exact hm.trans hold_pioRw
        · split
          · have hc : Hold s ({ s with stopsRetry := 0 }.update (Nexus.last Cmd.complete)) := hold_of rfl rfl rfl rfl rfl rfl fun _ => rfl
            exact hc.trans hold_dmaIrq
          · exact hm.trans hold_error
      · split
        · exact hm.trans hold_pioRw
        · exact hm

/-! ## 実行 -/

/-- CCB を実行した後。データの状態になったなら、その CCB は進行中の `READ10` か `WRITE10` である。 -/
structure Ran (s t : Sim) : Prop extends Kept s t where
  started : t.state = .data → ∃ n, t.nexus = some n ∧ n.req.isRw ∧ n.status = .inprog

theorem Hold.ran (hd : Hold s t) (hst : s.state ≠ .data) : Ran s t := ⟨hd.toKept, fun ht => absurd (hd.state ht) hst⟩

/-- 進行中の CCB `q` を抱えている。 -/
def Serving (q : Request) (s : Sim) : Prop := ∃ n, s.nexus = some n ∧ n.req = q ∧ n.status = .inprog

theorem Serving.of {q : Request} {f : Nexus → Nexus} (hs : Serving q s) (hn : t.nexus = s.nexus.map f)
    (hf : ∀ n, (f n).req = n.req ∧ (f n).status = n.status) : Serving q t := by
  obtain ⟨n, hsn, hq, hst⟩ := hs
  refine ⟨f n, ?_, (hf n).1.trans hq, (hf n).2.trans hst⟩
  rw [hn, hsn]
  rfl

theorem Serving.drift {q : Request} (hs : Serving q s) (hd : Drift s t) : Serving q t := by
  unfold Serving
  rw [hd.nexus]
  exact hs

theorem Serving.sendRwcmd {q : Request} {nbytes : Int} {dma sent : Bool} (hs : Serving q s) :
    Serving q (s.mmcSendRwcmd h nbytes dma sent).2 := by
  unfold mmcSendRwcmd
  dsimp only
  split
  · exact hs.of rfl fun _ => ⟨rfl, rfl⟩
  · exact hs

theorem Serving.dmaXfer {q : Request} (hs : Serving q s) : Serving q (s.mmcDmaXfer h o).2 := by
  have hr := hs.drift (cardReady_drift (h := h) (o := o))
  unfold mmcDmaXfer
  dsimp only
  split
  · exact hr
  · split
    · exact hr
    · exact hr.sendRwcmd

theorem Serving.pioXfer {q : Request} {nbytes : Int} (hs : Serving q s) : Serving q (s.mmcPioXfer h nbytes o).2 := by
  have hr := hs.drift (cardReady_drift (h := h) (o := o))
  unfold mmcPioXfer
  dsimp only
  split
  · exact hr
  · split
    · exact hr
    · exact hr.sendRwcmd

theorem Serving.started {q : Request} (hs : Serving q s) (hq : q.isRw) : ∃ n, s.nexus = some n ∧ n.req.isRw ∧ n.status = .inprog := by
  obtain ⟨n, hn, rfl, hst⟩ := hs
  exact ⟨n, hn, hq, hst⟩

theorem pioInitiate_ran {q : Request} (hst : s.state ≠ .data) (hs : Serving q s) (hq : q.isRw) : Ran s (s.mmcPioInitiate h q o) := by
  have hs' : Serving q { s with nbytes := q.buf.total } := hs
  have hx : Serving q ({ s with nbytes := q.buf.total }.mmcPioXfer h q.buf.total o).2 := hs'.pioXfer
  have hold : Hold s ({ s with nbytes := q.buf.total }.mmcPioXfer h q.buf.total o).2 :=
    (hold_same rfl rfl rfl rfl rfl rfl : Hold s { s with nbytes := q.buf.total }).trans hold_pioXfer
  unfold mmcPioInitiate
  dsimp only
  split
  · exact hold_error.ran hst
  · split
    · exact ⟨⟨hold.key, hold.dequeued, hold.posted, hold.queue⟩, fun _ => hx.started hq⟩
    · exact (hold.trans hold_error).ran hst

theorem dmaInitiate_ran {q : Request} (hst : s.state ≠ .data) (hs : Serving q s) (hq : q.isRw) : Ran s (s.mmcDmaInitiate h q o) := by
  have hx := hs.dmaXfer (h := h) (o := o)
  have hold : Hold s (s.mmcDmaXfer h o).2 := hold_dmaXfer
  unfold mmcDmaInitiate
  dsimp only
  split
  · split
    · split
      · exact ⟨⟨hold.key, hold.dequeued, hold.posted, hold.queue⟩, fun _ => hx.started hq⟩
      · exact (hold.trans hold_error).ran hst
    · exact hold_error.ran hst
  · rename_i len _
    have hrw : Hold s ({ s with nbytes := (len : Int) }.mmcDmaRw h o) :=
      (hold_same rfl rfl rfl rfl rfl rfl : Hold s { s with nbytes := (len : Int) }).trans hold_dmaRw
    split
    · rename_i hany
      obtain ⟨n, hn, hip⟩ := (Option.any_eq_true _ _).mp hany
      refine ⟨⟨hrw.key, hrw.dequeued, hrw.posted, hrw.queue⟩, fun _ => ⟨n, hn, ?_, of_decide_eq_true hip⟩⟩
      obtain ⟨m, hm, rfl, -⟩ := hs
      have hkey := hrw.key
      rw [hn, hm] at hkey
      rw [show n.req = m.req from congrArg Prod.snd (Option.some.inj hkey)]
      exact hq
    · exact hrw.ran hst

theorem rw_ran {q : Request} {dirIn : Bool} (hst : s.state ≠ .data) (hs : Serving q s) (hq : q.isRw) : Ran s (s.mmcRw h q dirIn o) := by
  unfold mmcRw
  dsimp only
  split
  · have hs₁ : Serving q ({ s with offset := 0, curSg := 0, dirIn, blkno := q.lba }.update fun n => { n with cmds := [], past := n.all }) :=
      hs.of rfl fun _ => ⟨rfl, rfl⟩
    have hold₁ : Hold s ({ s with offset := 0, curSg := 0, dirIn, blkno := q.lba }.update fun n => { n with cmds := [], past := n.all }) :=
      hold_of rfl rfl rfl rfl rfl rfl fun _ => rfl
    generalize ({ s with offset := 0, curSg := 0, dirIn, blkno := q.lba }.update fun n => { n with cmds := [], past := n.all }) = v at hs₁ hold₁ ⊢
    have hd : Drift v (v.setPartition h q.lun o).2 := setPartition_drift
    have hold₂ : Hold s (v.setPartition h q.lun o).2 := hold₁.trans hd.hold
    have hst' : (v.setPartition h q.lun o).2.state ≠ .data := fun hc => hst (hold₂.state hc)
    split
    · exact (hold₂.trans hold_error).ran hst
    · split
      · split
        · have hr := pioInitiate_ran (h := h) (o := o) hst' (hs₁.drift hd) hq
          exact ⟨hold₂.toKept.trans hr.toKept, hr.started⟩
        · exact (hold₂.trans hold_error).ran hst
      · split
        · have hr := dmaInitiate_ran (h := h) (o := o) hst' (hs₁.drift hd) hq
          exact ⟨hold₂.toKept.trans hr.toKept, hr.started⟩
        · exact (hold₂.trans hold_error).ran hst
  · exact hold_sense.ran hst

theorem ioCmds_ran {q : Request} (hst : s.state ≠ .data) (hs : Serving q s) : Ran s (s.mmcIoCmds h q o) := by
  unfold mmcIoCmds
  split
  · exact (Hold.refl s).ran hst
  · split
    · rename_i hf
      exact rw_ran hst hs (by simp [Request.isRw, hf])
    · rename_i hf
      split
      · exact hold_sense.ran hst
      · exact rw_ran hst hs (by simp [Request.isRw, hf])
    · split
      · exact hold_finish.ran hst
      · exact hold_sense.ran hst
    · unfold mmcUnitReady
      split
      · exact Hold.ran (hold_of rfl rfl rfl rfl rfl rfl fun _ => rfl) hst
      · split
        · split
          · exact Hold.ran (hold_of rfl rfl rfl rfl rfl rfl fun _ => rfl) hst
          · exact ((drift_mediaCheck (.refl s)).hold.trans hold_sense).ran hst
        · exact hold_sense.ran hst
    · unfold mmcInquiry
      split
      · split
        · exact hold_finish.ran hst
        · exact hold_sense.ran hst
      · split
        · exact hold_finish.ran hst
        · exact hold_sense.ran hst
    · split
      · exact hold_error.ran hst
      · split
        · exact hold_finish.ran hst
        · exact hold_sense.ran hst
    · split
      · exact hold_finish.ran hst
      · exact hold_sense.ran hst
    · exact hold_finish.ran hst
    · exact hold_sense.ran hst

theorem execute_ran {q : Request} (hst : s.state ≠ .data) (hs : Serving q s) : Ran s (s.execute h q o) := by
  unfold execute
  split
  · exact ioCmds_ran hst hs
  · exact Hold.ran (hold_of rfl rfl rfl rfl rfl rfl fun _ => rfl) hst
  · exact Hold.ran (hold_of rfl rfl rfl rfl rfl rfl fun _ => rfl) hst

/-! ## 一歩の間の条件 -/

/-- データの状態の CCB は `READ10` か `WRITE10` である。 -/
def DataRw (s : Sim) : Prop := s.state = .data → ∃ n, s.nexus = some n ∧ n.req.isRw

/-- 抱えている CCB は進行中である。 -/
structure Busy (s : Sim) : Prop where
  inprog : ∀ n, s.nexus = some n → n.status = .inprog
  data : DataRw s

/-- 抱えている CCB がない。 -/
theorem forall_none {P : Nexus → Prop} (h : s.nexus = none) : ∀ n, s.nexus = some n → P n := by
  intro n hn
  rw [h] at hn
  cases hn

theorem idle_ne_data : SimState.idle ≠ SimState.data := by decide

theorem dataRw_of_idle (h : s.state = .idle) : DataRw s := fun hd => absurd (h.symm.trans hd) idle_ne_data

theorem Busy.drift (hb : Busy s) (hd : Drift s t) : Busy t := by
  refine ⟨?_, fun ht => ?_⟩
  · rw [hd.nexus]
    exact hb.inprog
  · rw [hd.nexus]
    exact hb.data (hd.state ht)

theorem Ran.post_busy (hs : Ran s t) : Busy t.post := by
  unfold post
  split
  · rename_i n hn
    split
    · rename_i hst
      refine ⟨fun m hm => ?_, fun hd => ?_⟩
      · cases hn.symm.trans hm
        exact hst
      · obtain ⟨m, hm, hrw, -⟩ := hs.started hd
        exact ⟨m, hm, hrw⟩
    · rename_i hst
      refine ⟨forall_none rfl, fun hd => ?_⟩
      obtain ⟨m, hm, -, hip⟩ := hs.started hd
      cases hn.symm.trans hm
      exact absurd hip hst
  · rename_i hn
    refine ⟨fun m hm => ?_, fun hd => ?_⟩
    · cases hn.symm.trans hm
    · obtain ⟨m, hm, -, -⟩ := hs.started hd
      cases hn.symm.trans hm

theorem Ran.dataRw (hs : Ran s t) : DataRw t := by
  intro hd
  obtain ⟨n, hn, hrw, -⟩ := hs.started hd
  exact ⟨n, hn, hrw⟩

theorem Hold.dataRw (hd : Hold s t) (hs : DataRw s) : DataRw t := by
  intro ht
  obtain ⟨n, hn, hrw⟩ := hs (hd.state ht)
  have hkey := hd.key
  rw [hn] at hkey
  obtain ⟨m, hm, hmk⟩ := Option.map_eq_some_iff.mp hkey
  refine ⟨m, hm, ?_⟩
  rw [show m.req = n.req from congrArg Prod.snd hmk]
  exact hrw

theorem settle_busy (hs : DataRw s) : Busy s.settle := by
  cases hn : s.nexus with
  | none =>
      rw [settle, hn]
      refine ⟨fun n hm => ?_, hs⟩
      cases hn.symm.trans hm
  | some n =>
      by_cases hst : n.status = .inprog
      · rw [settle, hn, Option.any_some, if_neg (by simp [hst])]
        refine ⟨fun m hm => ?_, hs⟩
        cases hn.symm.trans hm
        exact hst
      · rw [settle, hn, Option.any_some, if_pos (by simp [hst])]
        simp only [post, hst, if_false]
        exact ⟨forall_none rfl, dataRw_of_idle rfl⟩

theorem identIrq_kept {i : Intr} {e : Event} (hb : Busy s) (hst : s.state = .ident) :
    Kept s (s.mmcIdentIrq h i e o) ∧ DataRw (s.mmcIdentIrq h i e o) := by
  have hd : Drift s (s.identWait h o).2 := identWait_drift
  unfold mmcIdentIrq
  generalize s.identWait h o = w at hd ⊢
  obtain ⟨ok, v⟩ := w
  have hv : v.state ≠ .data := by
    intro hc
    have := hd.state hc
    rw [hst] at this
    cases this
  have hk : ∀ {t}, t.nexus = v.nexus → t.queue = v.queue → t.nextId = v.nextId → t.dequeued = v.dequeued → t.posted = v.posted → Kept s t := by
    intro t hn hq hi hdq hp
    refine hd.hold.toKept.trans (kept_of (f := id) ?_ hq hi hdq hp fun _ => rfl)
    rw [hn, Option.map_id]
    rfl
  dsimp only
  generalize s.d.cardIdent h.toConf { e with command := i.command, error := i.error, detect := s.present.isSome, ready := ok } = r
  split
  · split
    · split
      · rename_i n hn
        have hr : Ran { v with d := r.2, state := .idle, ready := true } (mmcIoCmds h { v with d := r.2, state := .idle, ready := true } n.req o) :=
          ioCmds_ran idle_ne_data ⟨n, hn, rfl, hb.inprog n (hd.nexus ▸ hn)⟩
        refine ⟨Kept.trans ?_ hr.toKept, hr.dataRw⟩
        exact hk rfl rfl rfl rfl rfl
      · exact ⟨hk rfl rfl rfl rfl rfl, dataRw_of_idle rfl⟩
    · exact ⟨hk rfl rfl rfl rfl rfl, fun hc => absurd hc hv⟩
  · have hidle : DataRw { v with d := r.2, state := .idle } := dataRw_of_idle rfl
    have hinv : DataRw { v with d := r.2, state := .idle, invalidCard := true } := dataRw_of_idle rfl
    split
    · have hm : Hold { v with d := r.2, state := .idle, invalidCard := true } _ := hold_error
      refine ⟨Kept.trans ?_ hm.toKept, hm.dataRw hinv⟩
      exact hk rfl rfl rfl rfl rfl
    · have hm : Hold { v with d := r.2, state := .idle } _ := (drift_mediaCheck (h := h) (.refl _)).hold.trans hold_error
      refine ⟨Kept.trans ?_ hm.toKept, hm.dataRw hidle⟩
      exact hk rfl rfl rfl rfl rfl

theorem processInterrupt_busy {i : Intr} {e : Event} (hb : Busy s) : Busy (s.mmcProcessInterrupt h i e o) := by
  have ht : Busy (s.chipset i) := hb.drift (drift_chipset (.refl s) i)
  unfold mmcProcessInterrupt
  dsimp only
  split
  · exact ht
  · split
    · exact settle_busy (((drift_mediaCheck (.refl _)).hold.trans hold_error).dataRw ht.data)
    · split
      · rename_i hst
        exact settle_busy (identIrq_kept ht hst).2
      · refine settle_busy (hold_dataIrq.dataRw ?_)
        split
        · exact Hold.dataRw (hold_of rfl rfl rfl rfl rfl rfl fun _ => rfl) ht.data
        · exact ht.data
      · exact settle_busy ht.data

theorem dequeue_idle {k id : Nat} {q : Request} (hb : Busy s) (hn : s.nexus = none) : (s.dequeue k id q).state ≠ .data := by
  intro hc
  obtain ⟨n, hsn, -⟩ := hb.data hc
  rw [hn] at hsn
  cases hsn

theorem startCcb_busy {k : Nat} (hb : Busy s) : Busy (s.mmcStartCcb h k o) := by
  unfold mmcStartCcb
  split
  · rename_i id q hn _
    exact (execute_ran (dequeue_idle hb hn) ⟨_, rfl, rfl, rfl⟩).post_busy
  · exact hb

/-- どの一歩でも保たれる。 -/
theorem Busy.step {i : Step} (hb : Busy s) (hs : s.step h i = .ok t) : Busy t := by
  cases i with
  | ambient a =>
      cases hs
      exact hb.drift (drift_ambient (.refl s) a)
  | start k o =>
      cases hs
      exact startCcb_busy hb
  | interrupt i e o =>
      cases hs
      exact processInterrupt_busy hb
  | timer =>
      cases hs
      split
      · exact hb
      · exact hb.drift (drift_mediaCheck (.refl s))

end Sim

/-- 識別の始めの段では、識別は終わらない。 -/
theorem Ident.start_pending {c : Conf} {d : Ident} {e : Event} (hd : d.ident = .start) : (d.cardIdent c e).2.ident ≠ .none := by
  have hold : d.clearOld.ident = .start := by
    unfold Ident.clearOld
    split
    · exact hd
    · exact hd
  simp only [Ident.cardIdent, hd, Ident.start, Ident.powerCycle, Ident.sendcmd]
  split
  · rw [hold]
    nofun
  · split
    · rw [hold]
      nofun
    · split
      · nofun
      · dsimp only
        rw [hold]
        nofun

end Imx6Bsp.Devb
