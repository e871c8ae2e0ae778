import Imx6Bsp.Devb.Lemmas.Lifecycle
import Imx6Bsp.Devb.Lemmas.CardChange

/-!
# 要求の塊の並び

`READ10` と `WRITE10` は、`setup_dma()` の返すバイト数ずつ、いくつものデータ命令に分かれる。`ext->offset` と `ext->blkno` は命令を送ったときに進み、
停止の命令を挟んで割り込みから続く。識別のやり直しとカードの交換を含むどの実行でも、データ命令が要求の塊を順に一度ずつ触れることを示す。
-/

namespace Imx6Bsp.Devb

open Imx6Bsp.Lib

/-! ## 運んだ塊 -/

/-- これまでのデータ命令を送った後の `ext->blkno`。 -/
def blockAfter (b lba : Nat) (cs : List Cmd) : Nat := cs.foldr (fun c blkno => (blkno + (c.bytes % 2 ^ 32).toNat / b) % 2 ^ 32) lba

/-- どのデータ命令も前の命令の次の塊から始まり、一塊の命令は一塊の長さのときだけ使う。 -/
def Tiled (b : Nat) (acmd12 : Bool) (lba : Nat) : List Cmd → Prop
  | [] => True
  | c :: cs => c.blkno = blockAfter b lba cs ∧ c.multi = (!decide (c.bytes = b) && !acmd12) ∧ Tiled b acmd12 lba cs

/-- データ命令の触れる塊の数。 -/
def blockCount (b : Nat) (cs : List Cmd) : Nat := (cs.map fun c => c.bytes.toNat / b).sum

/-- データ命令の触れる塊を、送った順に並べたもの。 -/
def Nexus.blocks (b : Nat) (n : Nexus) : List Nat := n.cmds.reverse.flatMap fun c => List.range' c.blkno (c.bytes.toNat / b)

section

variable {b lba : Nat} {acmd12 : Bool} {cs : List Cmd}

/-- 最後のデータ命令の印を変えるだけなら、位置は変わらない。 -/
theorem Tiled.modifyHead {f : Cmd → Cmd} (h : Tiled b acmd12 lba cs)
    (hf : ∀ c, (f c).blkno = c.blkno ∧ (f c).bytes = c.bytes ∧ (f c).multi = c.multi) :
    Tiled b acmd12 lba (cs.modifyHead f) ∧ blockAfter b lba (cs.modifyHead f) = blockAfter b lba cs := by
  cases cs with
  | nil => exact ⟨h, rfl⟩
  | cons c cs =>
      obtain ⟨h₁, h₂, h₃⟩ := hf c
      refine ⟨⟨h₁.trans h.1, ?_, h.2.2⟩, ?_⟩
      · show (f c).multi = (!decide ((f c).bytes = b) && !acmd12)
        rw [h₂, h₃]
        exact h.2.1
      · show (_ + ((f c).bytes % 2 ^ 32).toNat / b) % 2 ^ 32 = _
        rw [h₂]
        rfl

/-- 桁あふれの無い間の `ext->blkno`。 -/
theorem blockAfter_eq (hcs : ∀ c ∈ cs, 0 < c.bytes ∧ c.bytes < 2 ^ 32) (hlba : lba + blockCount b cs < 2 ^ 32) :
    blockAfter b lba cs = lba + blockCount b cs := by
  induction cs with
  | nil => rfl
  | cons c cs ih =>
      obtain ⟨hpos, hlt⟩ := hcs c List.mem_cons_self
      have hcount : blockCount b (c :: cs) = c.bytes.toNat / b + blockCount b cs := rfl
      have hstep : blockAfter b lba (c :: cs) = (blockAfter b lba cs + c.bytes.toNat / b) % 2 ^ 32 := by
        show (blockAfter b lba cs + (c.bytes % 2 ^ 32).toNat / b) % 2 ^ 32 = _
        rw [Int.emod_eq_of_lt hpos.le hlt]
      rw [hcount] at hlba ⊢
      rw [hstep]
      generalize c.bytes.toNat / b = k at hlba ⊢
      rw [ih (fun x hx => hcs x (List.mem_cons_of_mem c hx)) (by omega), Nat.mod_eq_of_lt (by omega)]
      omega

/-- 位置の続くデータ命令は、始まりから順に一度ずつ塊に触れる。 -/
theorem Tiled.blocks (h : Tiled b acmd12 lba cs) (hb : 0 < b) (hcs : ∀ c ∈ cs, 0 < c.bytes ∧ c.bytes < 2 ^ 32 ∧ (b : Int) ∣ c.bytes)
    (hlba : lba + blockCount b cs ≤ 2 ^ 32) :
    (cs.reverse.flatMap fun c => List.range' c.blkno (c.bytes.toNat / b)) = List.range' lba (blockCount b cs) := by
  induction cs with
  | nil => rfl
  | cons c cs ih =>
      obtain ⟨hpos, hlt, k, hk⟩ := hcs c List.mem_cons_self
      have htail := fun x hx => hcs x (List.mem_cons_of_mem c hx)
      have hcount : blockCount b (c :: cs) = c.bytes.toNat / b + blockCount b cs := rfl
      -- 正の倍数なので、命令は少なくとも一つの塊に触れる
      have hone : 0 < c.bytes.toNat / b := by
        have hle : (b : Int) ≤ c.bytes := Int.le_of_dvd hpos ⟨k, hk⟩
        exact Nat.div_pos (by omega) hb
      rw [hcount] at hlba ⊢
      have hat : blockAfter b lba cs = lba + blockCount b cs := blockAfter_eq (fun x hx => ⟨(htail x hx).1, (htail x hx).2.1⟩) (by omega)
      rw [List.reverse_cons, List.flatMap_append, ih h.2.2 htail (by omega), List.flatMap_singleton, h.1, hat, List.range'_append_1,
        Nat.add_comm (blockCount b cs)]

theorem Tiled.multi (h : Tiled b acmd12 lba cs) : ∀ c ∈ cs, c.multi = (!decide (c.bytes = b) && !acmd12) := by
  induction cs with
  | nil => exact fun _ hc => (List.not_mem_nil hc).elim
  | cons c cs ih =>
      intro x hx
      rcases List.mem_cons.mp hx with rfl | hx
      · exact h.2.1
      · exact ih h.2.2 x hx

end

/-! ## 待ちと位置 -/

/-- 識別の始めの段では、塊の大きさは変わらない。 -/
theorem Ident.start_blksize {c : Conf} {d : Ident} {e : Event} (hd : d.ident = .start) : (d.cardIdent c e).2.blksize = d.blksize := by
  have hold : d.clearOld.blksize = d.blksize := by
    unfold Ident.clearOld
    split <;> rfl
  simp only [Ident.cardIdent, hd, Ident.start, Ident.powerCycle, Ident.sendcmd]
  split
  · exact hold
  · split
    · exact hold
    · split
      · exact hold
      · exact hold

namespace Sim

variable {h : Host} {s t : Sim} {o : Hw}

/-- 待ちの間に変わらない、塊の大きさと次の塊の番号。 -/
structure Steady (s t : Sim) : Prop where
  blksize : t.d.blksize = s.d.blksize
  blkno : t.blkno = s.blkno

theorem Steady.refl (s : Sim) : Steady s s := ⟨rfl, rfl⟩

theorem steady_stable (h : Host) (s : Sim) : Stable h (fun _ => True) (Steady s) where
  ambient t a _ ht := by
    cases a with
    | remove => exact ⟨ht.blksize, ht.blkno⟩
    | insert =>
        unfold Sim.ambient
        dsimp only
        split
        · exact ⟨ht.blksize, ht.blkno⟩
        · exact ht
    | enqueue r =>
        unfold Sim.ambient mmcSimAction
        dsimp only
        split
        · exact ⟨ht.blksize, ht.blkno⟩
        · exact ht
    | control e =>
        unfold Sim.ambient mmcControl
        dsimp only
        split
        · exact ht
        · exact ⟨(Ident.start_blksize rfl).trans ht.blksize, ht.blkno⟩
        · exact ⟨ht.blksize, ht.blkno⟩
  check t ht := by
    unfold mmcMediaCheck
    split
    · split
      · exact ht
      · exact ⟨ht.blksize, ht.blkno⟩
    · split
      · exact ⟨ht.blksize, ht.blkno⟩
      · exact ht
  chipset t i ht := by
    unfold Sim.chipset
    split
    · exact ⟨ht.blksize, ht.blkno⟩
    · split
      · exact ⟨ht.blksize, ht.blkno⟩
      · exact ht

theorem cardReady_steady : Steady s (s.mmcWaitCardReady h o).2 := (steady_stable h s).cardReady .trivial (.refl s)

theorem setPartition_steady {lun : Nat} : Steady s (s.setPartition h lun o).2 := by
  unfold Sim.setPartition
  split
  · exact .refl s
  · have hw : Steady s (s.sendWait h o.switch).2 := (steady_stable h s).sendWait (fun _ _ _ _ => .intro) (.refl s)
    dsimp only
    split
    · exact ⟨hw.blksize, hw.blkno⟩
    · exact hw

/-! ## データ命令の位置 -/

/-- 送ったデータ命令の位置と、次に送るデータ命令の位置。 -/
structure Laid (h : Host) (s : Sim) (n : Nexus) : Prop where
  tiled : Tiled s.d.blksize h.acmd12 n.req.lba n.cmds
  next : h.pio = false → n.req.buf.isScatter = false → s.blkno = blockAfter s.d.blksize n.req.lba n.cmds
  whole : h.pio = false → n.req.buf.isScatter = true → s.nbytes = s.offset

/-- 実行した後、終わったか進行中の CCB のデータ命令は続いている。 -/
def Covered (h : Host) (s : Sim) : Prop := ∀ n, s.nexus = some n → n.status = .cmp ∨ n.status = .inprog → Laid h s n

theorem covered_error : Covered h s.mmcError := by
  intro n hn hst
  obtain ⟨m, -, rfl⟩ := update_some hn
  rcases hst with hst | hst <;> cases hst

theorem covered_sense : Covered h s.mmcSense := by
  intro n hn hst
  obtain ⟨m, -, rfl⟩ := update_some hn
  rcases hst with hst | hst <;> cases hst

theorem Laid.congr {n : Nexus} (hl : Laid h s n) (hs : Steady s t) (hd : Drift s t) : Laid h t n where
  tiled := hs.blksize ▸ hl.tiled
  next hp hb := by rw [hs.blkno, hs.blksize, hl.next hp hb]
  whole hp hb := by rw [hd.nbytes, hd.offset, hl.whole hp hb]

/-- `CCB` の印と、最後のデータ命令の印を変える。 -/
theorem Laid.mark {n m : Nexus} {f : Cmd → Cmd} (hl : Laid h s n) (hcm : m.cmds = n.cmds.modifyHead f) (hreq : m.req = n.req)
    (hf : ∀ c, (f c).blkno = c.blkno ∧ (f c).bytes = c.bytes ∧ (f c).multi = c.multi) (h₁ : t.d.blksize = s.d.blksize)
    (h₂ : t.blkno = s.blkno) (h₃ : t.nbytes = s.nbytes) (h₄ : t.offset = s.offset) : Laid h t m := by
  obtain ⟨htiled, hafter⟩ := hl.tiled.modifyHead hf
  refine ⟨?_, fun hp hb => ?_, fun hp hb => ?_⟩
  · rw [hcm, hreq, h₁]
    exact htiled
  · rw [hreq] at hb
    rw [h₂, hcm, hreq, h₁, hafter, hl.next hp hb]
  · rw [hreq] at hb
    rw [h₃, h₄, hl.whole hp hb]

theorem covered_of {n : Nexus} (hn : s.nexus = some n) (hl : Laid h s n) : Covered h s := by
  intro m hm _
  cases hn.symm.trans hm
  exact hl

theorem covered_finish {n : Nexus} (hn : s.nexus = some n) (hl : Laid h s n) : Covered h s.finish := by
  intro m hm _
  obtain ⟨k, hk, rfl⟩ := update_some hm
  cases hn.symm.trans hk
  exact ⟨hl.tiled, hl.next, hl.whole⟩

theorem Covered.congr (hc : Covered h s) (h₀ : t.nexus = s.nexus) (h₁ : t.d.blksize = s.d.blksize) (h₂ : t.blkno = s.blkno)
    (h₃ : t.nbytes = s.nbytes) (h₄ : t.offset = s.offset) : Covered h t := by
  intro n hn hst
  have hl := hc n (h₀ ▸ hn) hst
  refine ⟨h₁ ▸ hl.tiled, fun hp hb => ?_, fun hp hb => ?_⟩
  · rw [h₂, h₁, hl.next hp hb]
  · rw [h₃, h₄, hl.whole hp hb]

/-- 送ったデータ命令。 -/
structure Sent (h : Host) (n : Nexus) (s t : Sim) (nbytes : Int) (c : Cmd) : Prop where
  nexus : t.nexus = some { n with cmds := c :: n.cmds }
  bytes : c.bytes = nbytes
  blkno : c.blkno = s.blkno
  multi : c.multi = (!decide (nbytes = s.d.blksize) && !h.acmd12)
  steady : Steady s t

theorem sendRwcmd_sent {n : Nexus} {nbytes : Int} {dma sent : Bool} (hn : s.nexus = some n)
    (hs : (s.mmcSendRwcmd h nbytes dma sent).1 = true) : ∃ c, Sent h n s (s.mmcSendRwcmd h nbytes dma sent).2 nbytes c := by
  unfold mmcSendRwcmd at hs ⊢
  dsimp only at hs ⊢
  split
  · refine ⟨{ bytes := nbytes, blkno := s.blkno, multi := !decide (nbytes = s.d.blksize) && !h.acmd12, dma, card := s.present, gone := s.gone },
      ?_, rfl, rfl, rfl, ⟨rfl, rfl⟩⟩
    rw [update_nexus, hn]
    rfl
  · rename_i hns
    rw [if_neg hns] at hs
    cases hs

theorem Sent.waited {n : Nexus} {u : Sim} {nbytes : Int} {c : Cmd} (hc : Sent h n t u nbytes c) (hs : Steady s t) : Sent h n s u nbytes c where
  nexus := hc.nexus
  bytes := hc.bytes
  blkno := hc.blkno.trans hs.blkno
  multi := hs.blksize ▸ hc.multi
  steady := ⟨hc.steady.blksize.trans hs.blksize, hc.steady.blkno.trans hs.blkno⟩

theorem dmaXfer_sent {n : Nexus} (hn : s.nexus = some n) (hs : (s.mmcDmaXfer h o).1 = true) :
    ∃ c, Sent h n s (s.mmcDmaXfer h o).2 o.setup c := by
  have hd : Drift s (s.mmcWaitCardReady h o).2 := cardReady_drift
  have hw : Steady s (s.mmcWaitCardReady h o).2 := cardReady_steady
  unfold mmcDmaXfer at hs ⊢
  dsimp only at hs ⊢
  by_cases hr : (s.mmcWaitCardReady h o).1 = true
  · rw [if_neg (not_not.mpr hr)] at hs ⊢
    by_cases hz : o.setup = 0
    · rw [if_pos hz] at hs
      cases hs
    · rw [if_neg hz] at hs ⊢
      obtain ⟨c, hc⟩ := sendRwcmd_sent (hd.nexus.trans hn) hs
      exact ⟨c, hc.waited hw⟩
  · rw [if_pos hr] at hs
    exact absurd hs hr

theorem pioXfer_sent {n : Nexus} {nbytes : Int} (hn : s.nexus = some n) (hs : (s.mmcPioXfer h nbytes o).1 = true) :
    ∃ c, Sent h n s (s.mmcPioXfer h nbytes o).2 nbytes c := by
  have hd : Drift s (s.mmcWaitCardReady h o).2 := cardReady_drift
  have hw : Steady s (s.mmcWaitCardReady h o).2 := cardReady_steady
  unfold mmcPioXfer at hs ⊢
  dsimp only at hs ⊢
  by_cases hr : (s.mmcWaitCardReady h o).1 = true
  · rw [if_neg (not_not.mpr hr)] at hs ⊢
    by_cases hz : o.setup ≠ nbytes
    · rw [if_pos hz] at hs
      cases hs
    · rw [if_neg hz] at hs ⊢
      obtain ⟨c, hc⟩ := sendRwcmd_sent (hd.nexus.trans hn) hs
      exact ⟨c, hc.waited hw⟩
  · rw [if_pos hr] at hs
    exact absurd hs hr

/-- 続きから送ったデータ命令も、続いている。 -/
theorem Sent.tiled {n : Nexus} {nbytes : Int} {c : Cmd} (hc : Sent h n s t nbytes c) (ht : Tiled s.d.blksize h.acmd12 n.req.lba n.cmds)
    (hb : s.blkno = blockAfter s.d.blksize n.req.lba n.cmds) : Tiled t.d.blksize h.acmd12 n.req.lba (c :: n.cmds) := by
  rw [hc.steady.blksize]
  exact ⟨hc.blkno.trans hb, hc.bytes ▸ hc.multi, ht⟩

/-! ## 転送の準備と割り込み -/

theorem Laid.dmaRw {n : Nexus} (hl : Laid h s n) (hn : s.nexus = some n) (hpio : h.pio = false) : Covered h (s.mmcDmaRw h o) := by
  unfold mmcDmaRw
  dsimp only
  split
  · exact covered_finish hn hl
  · rename_i hmore
    have hlinear : n.req.buf.isScatter = false := by
      cases hb : n.req.buf.isScatter with
      | false => rfl
      | true => exact absurd (hl.whole hpio hb) hmore
    split
    · rename_i hs
      obtain ⟨c, hc⟩ := dmaXfer_sent hn hs
      refine covered_of (n := { n with cmds := c :: n.cmds }) hc.nexus ⟨?_, fun _ _ => ?_, fun _ hb => ?_⟩
      · exact hc.tiled hl.tiled (hl.next hpio hlinear)
      · show ((s.mmcDmaXfer h o).2.blkno + (o.setup % 2 ^ 32).toNat / (s.mmcDmaXfer h o).2.d.blksize) % 2 ^ 32 =
          (blockAfter _ _ n.cmds + (c.bytes % 2 ^ 32).toNat / _) % 2 ^ 32
        rw [hc.steady.blkno, hc.steady.blksize, hc.bytes, hl.next hpio hlinear]
      · cases hlinear.symm.trans hb
    · exact covered_error

/-- 新しい実行の始まり。 -/
structure Begun (s : Sim) (n : Nexus) : Prop where
  nexus : s.nexus = some n
  cmds : n.cmds = []
  blkno : s.blkno = n.req.lba

theorem Begun.tiled {n : Nexus} (hb : Begun s n) (b : Nat) (a : Bool) : Tiled b a n.req.lba n.cmds ∧ s.blkno = blockAfter b n.req.lba n.cmds := by
  rw [hb.cmds]
  exact ⟨.intro, hb.blkno⟩

theorem Begun.pioInitiate {n : Nexus} (hb : Begun s n) (hpio : h.pio = true) : Covered h (s.mmcPioInitiate h n.req o) := by
  unfold mmcPioInitiate
  dsimp only
  split
  · exact covered_error
  · split
    · rename_i hs
      obtain ⟨c, hc⟩ := pioXfer_sent (s := { s with nbytes := n.req.buf.total }) hb.nexus hs.1
      obtain ⟨ht, hk⟩ := hb.tiled s.d.blksize h.acmd12
      refine covered_of (n := { n with cmds := c :: n.cmds }) hc.nexus ⟨?_, fun hp => ?_, fun hp => ?_⟩
      · exact hc.tiled ht hk
      · cases hpio.symm.trans hp
      · cases hpio.symm.trans hp
    · exact covered_error

theorem Begun.dmaInitiate {n : Nexus} (hb : Begun s n) (hpio : h.pio = false) : Covered h (s.mmcDmaInitiate h n.req o) := by
  obtain ⟨ht, hk⟩ := hb.tiled s.d.blksize h.acmd12
  unfold mmcDmaInitiate
  dsimp only
  split
  · rename_i counts hbuf
    split
    · split
      · rename_i hs
        obtain ⟨c, hc⟩ := dmaXfer_sent hb.nexus hs
        refine covered_of (n := { n with cmds := c :: n.cmds }) hc.nexus ⟨?_, fun _ hp => ?_, fun _ _ => rfl⟩
        · exact hc.tiled ht hk
        · have hscatter : n.req.buf.isScatter = false := hp
          rw [hbuf] at hscatter
          cases hscatter
      · exact covered_error
    · exact covered_error
  · rename_i len hbuf
    have hl : Laid h { s with nbytes := (len : Int) } n := by
      refine ⟨ht, fun _ _ => hk, fun _ hp => ?_⟩
      rw [hbuf] at hp
      cases hp
    have hc := hl.dmaRw (o := o) hb.nexus hpio
    split
    · exact hc.congr rfl rfl rfl rfl rfl
    · exact hc

theorem rw_covered {n : Nexus} {dirIn : Bool} (hn : s.nexus = some n) : Covered h (s.mmcRw h n.req dirIn o) := by
  unfold mmcRw
  dsimp only
  split
  · have hb : Begun ({ s with offset := 0, curSg := 0, dirIn, blkno := n.req.lba }.update fun n => { n with cmds := [], past := n.all })
        { n with cmds := [], past := n.all } := ⟨by rw [update_nexus, hn]; rfl, rfl, rfl⟩
    generalize ({ s with offset := 0, curSg := 0, dirIn, blkno := n.req.lba }.update fun n => { n with cmds := [], past := n.all }) = v at hb ⊢
    have hd : Drift v (v.setPartition h n.req.lun o).2 := setPartition_drift
    have hs : Steady v (v.setPartition h n.req.lun o).2 := setPartition_steady
    have hb' : Begun (v.setPartition h n.req.lun o).2 _ := ⟨hd.nexus.trans hb.nexus, rfl, hs.blkno.trans hb.blkno⟩
    split
    · exact covered_error
    · split
      · rename_i hpio
        split
        · exact hb'.pioInitiate hpio
        · exact covered_error
      · rename_i hpio
        split
        · exact hb'.dmaInitiate (Bool.not_eq_true _ ▸ hpio)
        · exact covered_error
  · exact covered_sense

theorem ioCmds_covered {n : Nexus} (hn : s.nexus = some n) (hrw : n.req.isRw) (hst : s.state ≠ .ident) :
    Covered h (s.mmcIoCmds h n.req o) := by
  have hcdb : n.req.func = .scsiIo .read ∨ n.req.func = .scsiIo .write := by
    simpa [Request.isRw] using hrw
  unfold mmcIoCmds
  rw [if_neg hst]
  rcases hcdb with hf | hf
  · rw [hf]
    exact rw_covered hn
  · rw [hf]
    dsimp only
    split
    · exact covered_sense
    · exact rw_covered hn

theorem Laid.dmaIrq {n : Nexus} (hl : Laid h s n) (hn : s.nexus = some n) (hpio : h.pio = false) : Covered h (s.mmcDmaIrq h o) := by
  unfold mmcDmaIrq
  split
  · split
    · exact covered_of (s := { s with stop := .issued }) hn ⟨hl.tiled, hl.next, hl.whole⟩
    · exact covered_error.congr rfl rfl rfl rfl rfl
  · exact hl.dmaRw hn hpio

theorem Laid.pioStop {n : Nexus} {dirIn : Bool} (hl : Laid h s n) (hn : s.nexus = some n) : Covered h (s.mmcPioStop o dirIn) := by
  unfold mmcPioStop
  split
  · split
    · split
      · exact covered_of (s := { s with stop := .issued }) hn ⟨hl.tiled, hl.next, hl.whole⟩
      · exact covered_error.congr rfl rfl rfl rfl rfl
    · exact covered_finish hn hl
  · exact covered_of hn hl

/-- PIO では、続きの命令は無い。 -/
theorem Laid.pio {n m : Nexus} {f : Cmd → Cmd} (hl : Laid h s n) (hpio : h.pio = true) (hcm : m.cmds = n.cmds.modifyHead f) (hreq : m.req = n.req)
    (hf : ∀ c, (f c).blkno = c.blkno ∧ (f c).bytes = c.bytes ∧ (f c).multi = c.multi) (hd : t.d.blksize = s.d.blksize) : Laid h t m := by
  refine ⟨?_, fun hp => ?_, fun hp => ?_⟩
  · rw [hcm, hreq, hd]
    exact (hl.tiled.modifyHead hf).1
  · cases hpio.symm.trans hp
  · cases hpio.symm.trans hp

theorem Laid.pioRw {n : Nexus} (hl : Laid h s n) (hn : s.nexus = some n) (hpio : h.pio = true) : Covered h (s.mmcPioRw n.req o) := by
  unfold mmcPioRw
  split
  · exact hl.pioStop hn
  · dsimp only
    have hl' : Laid h ({ s with curSg := (s.pioMoved n.req o).1, offset := (s.pioMoved n.req o).2.1 }.update
        (Nexus.last (Cmd.move (s.pioMoved n.req o).2.2))) (n.last (Cmd.move (s.pioMoved n.req o).2.2)) :=
      hl.pio hpio rfl rfl (fun _ => ⟨rfl, rfl, rfl⟩) rfl
    have hn' : ({ s with curSg := (s.pioMoved n.req o).1, offset := (s.pioMoved n.req o).2.1 }.update
        (Nexus.last (Cmd.move (s.pioMoved n.req o).2.2))).nexus = some (n.last (Cmd.move (s.pioMoved n.req o).2.2)) := by
      rw [update_nexus, hn]
      rfl
    split
    · exact hl'.pioStop hn'
    · exact covered_of hn' hl'

theorem Laid.stopIrq {n m : Nexus} {i : Intr} (hl : Laid h s n) (hn : s.nexus = some n) : Covered h (s.stopIrq h m i o) := by
  unfold Sim.stopIrq
  split
  · split
    · exact covered_error.congr rfl rfl rfl rfl rfl
    · exact covered_of (s := { s with stopsRetry := s.stopsRetry + 1 }) hn ⟨hl.tiled, hl.next, hl.whole⟩
  · split
    · dsimp only
      have hl' : Laid h ({ s with stop := .none, stopsRetry := 0 }.update (Nexus.last Cmd.halt)) (n.last Cmd.halt) :=
        hl.mark rfl rfl (fun _ => ⟨rfl, rfl, rfl⟩) rfl rfl rfl rfl
      have hn' : ({ s with stop := .none, stopsRetry := 0 }.update (Nexus.last Cmd.halt)).nexus = some (n.last Cmd.halt) := by
        rw [update_nexus, hn]
        rfl
      split
      · exact covered_error
      · split
        · exact covered_finish hn' hl'
        · rename_i hpio
          exact hl'.dmaIrq hn' (Bool.not_eq_true _ ▸ hpio)
    · exact covered_of hn hl

/-- データの割り込み。DMA では、バッファの割り込みは停止の命令を送った後にだけ来る。 -/
theorem Laid.dataIrq {n m : Nexus} {i : Intr} (hl : Laid h s n) (hn : s.nexus = some n) (hm : m.req = n.req)
    (hready : h.pio = false → i.error = false → i.data = false → i.ready = true → s.stop = .issued) : Covered h (s.mmcDataIrq h m i o) := by
  unfold mmcDataIrq
  split
  · exact hl.stopIrq hn
  · rename_i hstop
    have hl' : Laid h { s with stopsRetry := 0 } n := ⟨hl.tiled, hl.next, hl.whole⟩
    have hpioRw (hpio : h.pio = true) : Covered h (mmcPioRw { s with stopsRetry := 0 } m.req o) := by
      rw [hm]
      exact hl'.pioRw hn hpio
    dsimp only
    split
    · split
      · refine covered_of (n := { n with check := true }) ?_ ⟨hl.tiled, hl.next, hl.whole⟩
        rw [update_nexus, hn]
        rfl
      · exact covered_error.congr rfl rfl rfl rfl rfl
    · rename_i herr
      split
      · split
        · rename_i hpio
          exact hpioRw hpio
        · rename_i hpio
          split
          · have hl'' : Laid h ({ s with stopsRetry := 0 }.update (Nexus.last Cmd.complete)) (n.last Cmd.complete) :=
              hl.mark rfl rfl (fun _ => ⟨rfl, rfl, rfl⟩) rfl rfl rfl rfl
            refine hl''.dmaIrq ?_ (Bool.not_eq_true _ ▸ hpio)
            rw [update_nexus, hn]
            rfl
          · exact covered_error
      · rename_i hdata
        split
        · rename_i hrdy
          cases hpio : h.pio with
          | true => exact hpioRw hpio
          | false => exact absurd (hready hpio (Bool.not_eq_true _ ▸ herr) (Bool.not_eq_true _ ▸ hdata) hrdy) hstop
        · exact covered_of hn hl'

/-! ## 一歩 -/

/-- データの状態の CCB のデータ命令は続いている。 -/
def LaidNow (h : Host) (s : Sim) : Prop := ∀ n, s.nexus = some n → n.req.isRw → s.state = .data → Laid h s n

/-- この一歩で返した CCB のデータ命令は続いている。 -/
def LaidPosted (h : Host) (s t : Sim) : Prop :=
  ∀ n, t.posted = s.posted ++ [n] → n.req.isRw → n.status = .cmp → Tiled t.d.blksize h.acmd12 n.req.lba n.cmds

/-- 一歩の後の条件。 -/
def LaidStep (h : Host) (s t : Sim) : Prop := LaidNow h t ∧ LaidPosted h s t

/-- 実行を終えたか、データの状態で進行中の CCB のデータ命令は続いている。 -/
def LaidDone (h : Host) (t : Sim) : Prop :=
  ∀ n, t.nexus = some n → n.req.isRw → n.status = .cmp ∨ n.status = .inprog ∧ t.state = .data → Laid h t n

theorem Covered.done (hc : Covered h t) : LaidDone h t := fun n hn _ hdone => hc n hn (hdone.imp_right And.left)

theorem laidPosted_same (hp : t.posted = s.posted) : LaidPosted h s t := by
  intro n hn
  rw [hp] at hn
  exact absurd (congrArg List.length hn) (by simp)

/-- 実行の後に返す。返さなければ、進行中である。 -/
theorem LaidDone.post (hc : LaidDone h t) (hp : t.posted = s.posted) : LaidStep h s t.post := by
  unfold Sim.post
  split
  · rename_i n hn
    split
    · rename_i hst
      refine ⟨fun m hm hrw hd => ?_, laidPosted_same hp⟩
      cases hn.symm.trans hm
      exact hc n hn hrw (.inr ⟨hst, hd⟩)
    · refine ⟨fun m hm => ?_, fun m hm hrw hst => ?_⟩
      · cases hm
      · obtain rfl := List.singleton_inj.mp (List.append_cancel_left ((congrArg (· ++ [n]) hp.symm).trans hm))
        exact (hc n hn hrw (.inl hst)).tiled
  · exact ⟨forall_none ‹_›, laidPosted_same hp⟩

theorem LaidDone.settle (hc : LaidDone h t) (hp : t.posted = s.posted) : LaidStep h s t.settle := by
  unfold Sim.settle
  split
  · have hidle : LaidDone h { t with state := .idle } := by
      intro n hn hrw hst
      rcases hst with hst | ⟨-, hst⟩
      · have hl := hc n hn hrw (.inl hst)
        exact ⟨hl.tiled, hl.next, hl.whole⟩
      · cases hst
    exact hidle.post hp
  · rename_i hany
    refine ⟨fun n hn hrw hd => hc n hn hrw (.inr ⟨?_, hd⟩), laidPosted_same hp⟩
    by_contra hst
    exact hany (Option.any_eq_true _ _ |>.mpr ⟨n, hn, decide_eq_true hst⟩)

theorem LaidNow.frame (hl : LaidNow h s) (hd : Drift s t) (hs : Steady s t) : LaidStep h s t :=
  ⟨fun n hn hrw hst => (hl n (hd.nexus ▸ hn) hrw (hd.state hst)).congr hs hd, laidPosted_same hd.posted⟩

theorem LaidNow.startCcb (hl : LaidNow h s) (hb : Busy s) {k : Nat} : LaidStep h s (s.mmcStartCcb h k o) := by
  unfold mmcStartCcb
  split
  · rename_i id q hn hk
    have hst : (s.dequeue k id q).state ≠ .data := dequeue_idle hb hn
    have hr : Ran (s.dequeue k id q) ((s.dequeue k id q).execute h q o) := execute_ran hst ⟨_, rfl, rfl, rfl⟩
    refine LaidDone.post (fun n hn' hrw hdone => ?_) hr.posted
    have hreq : n.req = q := hr.toKept.req rfl hn'
    rw [hreq] at hrw
    have hio : (s.dequeue k id q).execute h q o = (s.dequeue k id q).mmcIoCmds h q o := by
      have hcdb : q.func = .scsiIo .read ∨ q.func = .scsiIo .write := by
        simpa [Request.isRw] using hrw
      unfold execute
      rcases hcdb with hf | hf <;> rw [hf]
    rw [hio] at hn' hdone ⊢
    by_cases hid : (s.dequeue k id q).state = .ident
    · -- 識別の状態では、CCB は取り出されたまま待つ
      rw [mmcIoCmds, if_pos hid] at hn' hdone
      cases hn'
      rcases hdone with hc | ⟨-, hd⟩
      · cases hc
      · exact absurd hd hst
    · exact ioCmds_covered (n := ⟨id, q, .inprog, q.check, [], []⟩) rfl hrw hid n hn' (hdone.imp_right And.left)
  · exact ⟨hl, laidPosted_same rfl⟩

theorem identIrq_laid (hb : Busy s) (hst : s.state = .ident) {i : Intr} {e : Event} : LaidDone h (s.mmcIdentIrq h i e o) := by
  have hd : Drift s (s.identWait h o).2 := identWait_drift
  unfold mmcIdentIrq
  generalize s.identWait h o = w at hd ⊢
  obtain ⟨ok, v⟩ := w
  have hv : v.state ≠ .data := by
    intro hc
    have := hd.state hc
    rw [hst] at this
    cases this
  have hinprog : ∀ n, v.nexus = some n → n.status = .inprog := fun n hn => hb.inprog n (hd.nexus ▸ hn)
  -- まだ実行していない CCB は、終わっても、データの状態でもない
  have hwait {t : Sim} (htn : t.nexus = v.nexus) (hts : t.state ≠ .data) : LaidDone h t := by
    intro n hn _ hdone
    rcases hdone with hc | ⟨-, hc⟩
    · cases (hinprog n (htn ▸ hn)).symm.trans hc
    · exact absurd hc hts
  dsimp only
  generalize s.d.cardIdent h.toConf { e with command := i.command, error := i.error, detect := s.present.isSome, ready := ok } = r
  split
  · split
    · split
      · rename_i m hvm
        have hr : Ran { v with d := r.2, state := .idle, ready := true } (mmcIoCmds h { v with d := r.2, state := .idle, ready := true } m.req o) :=
          ioCmds_ran idle_ne_data ⟨m, hvm, rfl, hinprog m hvm⟩
        intro n hn hrw
        have hreq : n.req = m.req := hr.toKept.req hvm hn
        exact (ioCmds_covered (s := { v with d := r.2, state := .idle, ready := true }) hvm (hreq ▸ hrw) nofun).done n hn hrw
      · exact hwait rfl nofun
    · exact hwait rfl hv
  · exact covered_error.done

theorem LaidNow.processInterrupt (hl : LaidNow h s) (hb : Busy s) {i : Intr} {e : Event} (hreg : s.Regular h (.interrupt i e o)) :
    LaidStep h s (s.mmcProcessInterrupt h i e o) := by
  have hd : Drift s (s.chipset i) := drift_chipset (.refl s) i
  have hs : Steady s (s.chipset i) := (steady_stable h s).chipset s i (.refl s)
  have hip : ∀ n, (s.chipset i).nexus = some n → n.status = .inprog := fun n hn => hb.inprog n (hd.nexus ▸ hn)
  unfold mmcProcessInterrupt
  dsimp only
  split
  · exact hl.frame hd hs
  · split
    · have hk : Hold s ((s.chipset i).mmcMediaCheck h).mmcError := (hd.hold.trans (drift_mediaCheck (.refl _)).hold).trans hold_error
      exact covered_error.done.settle hk.posted
    · rename_i hcard
      split
      · rename_i hst
        have hk := (identIrq_kept (h := h) (i := i) (e := e) (o := o) (hb.drift hd) hst).1
        exact (identIrq_laid (hb.drift hd) hst).settle (hk.posted.trans hd.posted)
      · rename_i n hst hn
        have hsn : s.nexus = some n := hd.nexus ▸ hn
        have hnow := hl n hsn
        obtain ⟨m, hsm, hrw⟩ := hb.data (hd.state hst)
        cases hsn.symm.trans hsm
        have hlaid := (hnow hrw (hd.state hst)).congr hs hd
        cases herr : i.error with
        | true =>
            rw [if_pos rfl]
            have hf : Hold (s.chipset i) ((s.chipset i).update (Nexus.last Cmd.fail)) := hold_of rfl rfl rfl rfl rfl rfl fun _ => rfl
            have hmark : Laid h ((s.chipset i).update (Nexus.last Cmd.fail)) (n.last Cmd.fail) :=
              hlaid.mark rfl rfl (fun _ => ⟨rfl, rfl, rfl⟩) rfl rfl rfl rfl
            have hc : Covered h (((s.chipset i).update (Nexus.last Cmd.fail)).mmcDataIrq h n i o) := by
              refine hmark.dataIrq ?_ rfl fun _ he => ?_
              · rw [update_nexus, hn]
                rfl
              · cases herr.symm.trans he
            exact hc.done.settle ((hd.hold.trans hf).trans hold_dataIrq).posted
        | false =>
            rw [if_neg nofun]
            have hc : Covered h ((s.chipset i).mmcDataIrq h n i o) := by
              refine hlaid.dataIrq hn rfl fun hpio _ hdata hrdy => ?_
              rw [chipset_clean herr]
              exact hreg.2 hpio (hd.state hst) (Bool.not_eq_true _ ▸ hcard) herr hdata hrdy
            exact hc.done.settle (hd.hold.trans hold_dataIrq).posted
      · rename_i hni hnd
        refine LaidDone.settle (fun n hn _ hdone => ?_) hd.posted
        rcases hdone with hc | ⟨-, hc⟩
        · cases (hip n hn).symm.trans hc
        · exact absurd hn (hnd n hc)

theorem LaidNow.step (hl : LaidNow h s) (hb : Busy s) {i : Step} (hreg : s.Regular h i) (hs : s.step h i = .ok t) : LaidStep h s t := by
  cases i with
  | ambient a =>
      cases hs
      exact hl.frame (drift_ambient (.refl s) a) ((steady_stable h s).ambient s a .intro (.refl s))
  | start k o =>
      cases hs
      exact hl.startCcb hb
  | interrupt i e o =>
      cases hs
      exact hl.processInterrupt hb hreg
  | timer =>
      cases hs
      split
      · exact ⟨hl, laidPosted_same rfl⟩
      · exact hl.frame (drift_mediaCheck (.refl s)) ((steady_stable h s).check s (.refl s))

end Sim

end Imx6Bsp.Devb
