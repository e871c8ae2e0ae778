import Imx6Bsp.Deva.Lemmas.Mxssi

/-!
# 共有する録音の不変条件

handler の番号 `frag_index`、まだ処理されていない pulse、descriptor の DONE のビットは、この周で埋まった半分の数で
結ばれている。副 channel の buffer には、最初に受け取った半分からのバイトが続けて並ぶ。
-/

namespace Imx6Bsp.Deva

open Imx6Bsp.Lib

/-! ## 二つの半分 -/

/-- この周で埋まった半分の数は `fragIndex + pulses` である。中断の後は先頭の descriptor に戻る。 -/
structure Phase (fragIndex pulses : Nat) (d : Dma) : Prop where
  index : fragIndex ≤ 1
  round : fragIndex + pulses ≤ 2
  ping : d.ping = decide (fragIndex + pulses = 0)
  pong : d.pong = decide (fragIndex + pulses ≤ 1)
  pos : d.pos = 0 ∨ d.pos = 1 ∧ fragIndex + pulses = 1

namespace Phase

variable {f p : Nat} {d : Dma}

/-- 使える descriptor は、まだ埋まっていない最初の半分である。 -/
theorem ready_pos (h : Phase f p d) (hr : d.ready = true) : d.pos = f + p ∧ d.pos ≤ 1 := by
  obtain ⟨_, hd⟩ := Bool.and_eq_true_iff.mp hr
  rcases h.pos with hpos | ⟨hpos, hq⟩
  · rw [if_pos hpos, h.ping] at hd
    rw [hpos, of_decide_eq_true hd]
    exact ⟨rfl, Nat.zero_le _⟩
  · rw [hpos, hq]
    exact ⟨rfl, Nat.le_refl _⟩

theorem advance (h : Phase f p d) (hr : d.ready = true) : Phase f (p + 1) d.advance := by
  obtain ⟨hpos, hle⟩ := h.ready_pos hr
  have hround := h.round
  rcases h.pos with h0 | ⟨h1, hq⟩
  · have hq : f + p = 0 := by omega
    refine ⟨h.index, by omega, ?_, ?_, ?_⟩
    · rw [Dma.advance, if_pos h0]
      exact (decide_eq_false (by omega)).symm
    · rw [Dma.advance, if_pos h0]
      exact h.pong.trans (decide_eq_decide.mpr (by omega))
    · rw [Dma.advance, if_pos h0]
      exact .inr ⟨rfl, by omega⟩
  · have h0 : ¬d.pos = 0 := by omega
    refine ⟨h.index, by omega, ?_, ?_, ?_⟩
    · rw [Dma.advance, if_neg h0]
      exact h.ping.trans (decide_eq_decide.mpr (by omega))
    · rw [Dma.advance, if_neg h0]
      exact (decide_eq_false (by omega)).symm
    · rw [Dma.advance, if_neg h0]
      exact .inl rfl

theorem abort (h : Phase f p d) : Phase f p d.xferAbort := ⟨h.index, h.round, h.ping, h.pong, .inl rfl⟩

theorem start (h : Phase f p d) : Phase f p d.xferStart := ⟨h.index, h.round, h.ping, h.pong, h.pos⟩

/-- ping を処理した。 -/
theorem next (h : Phase 0 p d) (hp : 0 < p) : Phase 1 (p - 1) d := by
  have hround := h.round
  refine ⟨Nat.le_refl _, by omega, ?_, ?_, ?_⟩
  · exact h.ping.trans (decide_eq_decide.mpr (by omega))
  · exact h.pong.trans (decide_eq_decide.mpr (by omega))
  · exact h.pos.imp_right fun hq => ⟨hq.1, by omega⟩

/-- pong を処理して次の周に移る。 -/
theorem wrap (h : Phase 1 p d) (hp : 0 < p) (len : Nat) :
    p = 1 ∧ Phase 0 0 (d.xferComplete.setupXfer len).xferStart := by
  have hround := h.round
  have hp1 : p = 1 := by omega
  refine ⟨hp1, Nat.zero_le _, Nat.zero_le _, rfl, rfl, .inl ?_⟩
  rcases h.pos with h0 | ⟨_, hq⟩
  · exact h0
  · omega

end Phase

/-! ## 副 channel -/

/-- 取得された副 channel の buffer と、動いている間に受け取ったもの。`size` と `mod` は共有 buffer の今と次の大きさ。 -/
structure Stream (size mod : Nat) (handled : List UInt8) (st : Strm) : Prop where
  frag : 0 < st.dmaFragSize
  size_eq : st.dmaSize = 2 * st.dmaFragSize
  fits : mod ≤ st.dmaSize
  placed : Placed st.dmaFragSize 0 st.log.writes
  offset : st.dmaOffset = (bytesOf st.log.writes).length % st.dmaSize
  suffix : st.log.session <:+ bytesOf st.log.writes
  fresh : st.log.since = none → st.log.session = []
  stream : st.go = true → ∀ k ∈ st.log.since,
    k ≤ handled.length ∧ st.log.session = handled.drop k ∧ size ≤ st.dmaSize

namespace Stream

variable {size mod : Nat} {handled : List UInt8} {st : Strm}

theorem acquire (st : Strm) (subchn rate : Nat) {fragSize : Nat} (hf : 0 < fragSize) (hm : mod ≤ fragsTotal * fragSize) :
    Stream size mod handled (st.acquire subchn rate fragSize) :=
  ⟨hf, rfl, hm, trivial, (Nat.zero_mod _).symm, List.suffix_rfl, fun _ => rfl, fun _ _ hk => absurd hk (by simp [Strm.acquire, ClientLog.fresh])⟩

theorem mono_mod {mod' : Nat} (h : Stream size mod handled st) (hm : mod' ≤ st.dmaSize) : Stream size mod' handled st :=
  { h with fits := hm }

theorem go (h : Stream size mod handled st) : Stream size mod handled { st with go := true, log := st.log.restart } :=
  ⟨h.frag, h.size_eq, h.fits, h.placed, h.offset, List.nil_suffix, fun _ => rfl, fun _ _ hk => absurd hk (by simp [ClientLog.restart])⟩

theorem stop (h : Stream size mod handled st) : Stream size mod handled { st with go := false } :=
  ⟨h.frag, h.size_eq, h.fits, h.placed, h.offset, h.suffix, h.fresh, fun hg => absurd hg Bool.false_ne_true⟩

/-- 半分を写すかどうかに関わらず、受け取ったものは途切れない。 -/
theorem deliver {size' : Nat} {src : List UInt8} (h : Stream size mod handled st) (ho : st.opened = true)
    (hlen : size = 2 * src.length) (hs : size' ≤ size ∨ size' ≤ mod) :
    Stream size' mod (handled ++ src) (st.deliver handled.length src) := by
  have hfits := h.fits
  have hsize := h.size_eq
  by_cases hd : (st.opened && st.go && src.length ≤ st.dmaFragSize) = true
  · obtain ⟨_, hle⟩ := Bool.and_eq_true_iff.mp hd
    have hle := of_decide_eq_true hle
    have hcopy := @copyLoop_spec st.dmaFragSize (bytesOf st.log.writes).length h.frag src.length src (Nat.le_refl _)
    rw [← h.size_eq, ← h.offset] at hcopy
    obtain ⟨hp, hb, hr⟩ := hcopy
    rw [Strm.deliver, if_pos hd]
    refine ⟨h.frag, h.size_eq, h.fits, ?_, ?_, ?_, ?_, fun hg k hk => ?_⟩
    · refine h.placed.append ?_
      rw [Nat.zero_add]
      exact hp
    · change _ = (bytesOf (st.log.writes ++ _)).length % _
      rw [bytesOf_append, hb, List.length_append]
      exact hr
    · obtain ⟨t, ht⟩ := h.suffix
      change (st.log.session ++ bytesOf _) <:+ bytesOf (st.log.writes ++ _)
      rw [bytesOf_append, hb]
      exact ⟨t, by rw [← ht, List.append_assoc]⟩
    · exact fun hn => absurd hn (Option.some_ne_none _)
    · change k ∈ some _ at hk
      change k ≤ _ ∧ st.log.session ++ bytesOf _ = _ ∧ size' ≤ st.dmaSize
      rw [hb, List.length_append]
      cases hsince : st.log.since with
      | none =>
          rw [hsince] at hk
          cases hk
          rw [h.fresh hsince, List.nil_append, Option.getD_none, List.drop_left]
          exact ⟨Nat.le_add_right _ _, rfl, by omega⟩
      | some k₀ =>
          rw [hsince] at hk
          cases hk
          obtain ⟨hk, hsession, hle'⟩ := h.stream hg k₀ hsince
          rw [hsession, Option.getD_some, List.drop_append_of_le_length hk]
          exact ⟨by omega, rfl, by omega⟩
  · rw [Strm.deliver, if_neg hd]
    refine ⟨h.frag, h.size_eq, h.fits, h.placed, h.offset, h.suffix, h.fresh, fun hg k hk => ?_⟩
    obtain ⟨_, _, hle⟩ := h.stream hg k hk
    refine absurd ?_ hd
    rw [ho, hg, Bool.true_and, Bool.true_and]
    exact decide_eq_true (by omega)

end Stream

/-! ## 共有 buffer -/

theorem read_copy_same (m : Mem) (a : Nat) (bytes : List UInt8) :
    ((List.range bytes.length).map fun i => m.copy a bytes (a + i)) = bytes := by
  refine List.ext_getElem (by simp) fun i hi hi' => ?_
  simp only [List.length_map, List.length_range] at hi
  rw [List.getElem_map, List.getElem_range, Mem.copy_in hi, List.getD_eq_getElem _ _ hi]

theorem read_copy_other (m : Mem) {a b n : Nat} {bytes : List UInt8} (h : b + n ≤ a) :
    ((List.range n).map fun i => m.copy a bytes (b + i)) = (List.range n).map fun i => m (b + i) := by
  refine List.map_congr_left fun i hi => Mem.copy_out ?_
  have := List.mem_range.mp hi
  omega

/-- 副 channel が一つも取得されていないとき、共有 buffer を用意してよい状態。 -/
def Cap.Clean (c : Cap) : Prop := c.fragIndex = 0 ∧ c.pulses = 0 ∧ c.dma.running = false

instance decidableClean (c : Cap) : Decidable c.Clean := inferInstanceAs (Decidable (_ ∧ _))

/-- 取得された副 channel があるときの、番号と大きさと内容の対応。 -/
structure Core (c : Cap) (h : Hist) : Prop where
  phase : Phase c.fragIndex c.pulses c.dma
  len : c.captureBuffSize = 2 * c.dma.len
  pos : 0 < c.dma.len
  tinfo : c.tinfoLen = c.dma.len
  half : ∃ m, 0 < m ∧ c.captureBuffSizeMod = 2 * m
  shrink : c.captureBuffSizeMod ≤ c.captureBuffSize
  virt : c.captureVirtual = true
  filled : ∀ j b, h.pending[j]? = some b →
    b.length = c.dma.len ∧ c.read ((c.fragIndex + j) * c.dma.len) c.dma.len = b
  strm : ∀ st ∈ c.strm, st.opened = true → Stream c.captureBuffSize c.captureBuffSizeMod h.handled st

structure CapInv (c : Cap) (h : Hist) : Prop where
  many : 1 < c.strm.length
  pulses : h.pending.length = c.pulses
  ordered : h.captured = h.handled ++ h.pending.flatten
  core : c.numOpen ≠ 0 → Core c h
  idle : c.numOpen = 0 → c.Clean → c.dma.pos = 0

namespace CapInv

variable {c : Cap} {h : Hist}

/-- 副 channel を一つ置き換える。 -/
theorem strm_replace {P : Strm → Prop} {l l' pre post : List Strm} {st st' : Strm} (hl : l = pre ++ st :: post)
    (hl' : l' = pre ++ st' :: post) (hP : ∀ x ∈ l, x.opened = true → P x) (hst : st'.opened = true → P st') :
    ∀ x ∈ l', x.opened = true → P x := by
  intro x hx ho
  rw [hl] at hP
  rw [hl'] at hx
  simp only [List.mem_append, List.mem_cons] at hx hP
  rcases hx with hx | rfl | hx
  · exact hP x (.inl hx) ho
  · exact hst ho
  · exact hP x (.inr (.inr hx)) ho

theorem length_replace {l l' pre post : List Strm} {st st' : Strm} (hl : l = pre ++ st :: post)
    (hl' : l' = pre ++ st' :: post) : l'.length = l.length := by
  rw [hl, hl']
  simp

/-- 取得された副 channel があるときの取得。 -/
theorem aquire_more (hi : CapInv c h) {pre post : List Strm} {st : Strm} {subchn rate fragSize : Nat} {c' : Cap}
    (hl : c.strm = pre ++ st :: post) (hopen : c.numOpen ≠ 0) (hf : 0 < fragSize)
    (hk : fragsTotal * fragSize < c.captureBuffSize → ∀ x ∈ c.strm, x.opened = true → fragsTotal * fragSize ≤ x.dmaSize)
    (hc' : c' = { c with
      captureBuffSizeMod := if fragsTotal * fragSize < c.captureBuffSize then fragsTotal * fragSize else c.captureBuffSizeMod
      strm := pre ++ st.acquire subchn rate fragSize :: post }) : CapInv c' h := by
  have hcore := hi.core hopen
  have hshrink := hcore.shrink
  have hopen' : c'.numOpen ≠ 0 :=
    numOpen_pos_iff.mpr ⟨st.acquire subchn rate fragSize, by rw [hc']; simp, rfl⟩
  subst hc'
  refine ⟨?_, hi.pulses, hi.ordered, fun _ => ?_, fun hn => absurd hn hopen'⟩
  · rw [length_replace hl rfl]
    exact hi.many
  · refine ⟨hcore.phase, hcore.len, hcore.pos, hcore.tinfo, ?_, ?_, hcore.virt, hcore.filled, ?_⟩
    · simp only
      split_ifs
      · exact ⟨fragSize, hf, rfl⟩
      · exact hcore.half
    · simp only
      split_ifs with hlt
      · exact Nat.le_of_lt hlt
      · exact hshrink
    · refine strm_replace hl rfl (fun x hx ho => (hcore.strm x hx ho).mono_mod ?_) fun _ => Stream.acquire st subchn rate hf ?_
      · simp only
        split_ifs with hlt
        · exact hk hlt x hx ho
        · exact (hcore.strm x hx ho).fits
      · simp only
        split_ifs with hlt
        · exact Nat.le_refl _
        · omega

/-- 最初の取得。 -/
theorem aquire_first (hi : CapInv c h) {pre post : List Strm} {st : Strm} {subchn rate fragSize : Nat} {c' : Cap}
    (hl : c.strm = pre ++ st :: post) (hopen : c.numOpen = 0) (hf : 0 < fragSize) (hk : c.Clean)
    (hc' : c' = { c with
      captureBuffSize := fragsTotal * fragSize
      captureBuffSizeMod := fragsTotal * fragSize
      captureVirtual := true
      tinfoLen := fragSize
      dma := c.dma.setupXfer fragSize
      strm := pre ++ st.acquire subchn rate fragSize :: post }) : CapInv c' h := by
  have hpos := hi.idle hopen hk
  obtain ⟨hidx, hp, _⟩ := hk
  have hphase : Phase c.fragIndex c.pulses (c.dma.setupXfer fragSize) :=
    ⟨by omega, by omega, (decide_eq_true (by omega)).symm, (decide_eq_true (by omega)).symm, .inl hpos⟩
  have hpending : h.pending = [] := List.length_eq_zero_iff.mp (hi.pulses.trans hp)
  have hopen' : c'.numOpen ≠ 0 :=
    numOpen_pos_iff.mpr ⟨st.acquire subchn rate fragSize, by rw [hc']; simp, rfl⟩
  subst hc'
  refine ⟨?_, hi.pulses, hi.ordered, fun _ => ?_, fun hn => absurd hn hopen'⟩
  · rw [length_replace hl rfl]
    exact hi.many
  · refine ⟨hphase, rfl, hf, rfl, ⟨fragSize, hf, rfl⟩, Nat.le_refl _, rfl, ?_, ?_⟩
    · intro j b hb
      rw [hpending] at hb
      cases hb
    · refine strm_replace hl rfl (fun x hx ho => ?_) fun _ => Stream.acquire st subchn rate hf (Nat.le_refl _)
      rw [Cap.numOpen_eq_zero.mp hopen x hx] at ho
      cases ho

/-- 副 channel の変わらない取得の失敗。 -/
theorem aquire_failed (hi : CapInv c h) (hopen : c.numOpen = 0) {c' : Cap} {size mod : Nat} {virt : Bool}
    (hc' : c' = { c with captureBuffSize := size, captureBuffSizeMod := mod, captureVirtual := virt }) : CapInv c' h := by
  subst hc'
  exact ⟨hi.many, hi.pulses, hi.ordered, fun hn => absurd hopen hn, hi.idle⟩

theorem release (hi : CapInv c h) {pre post : List Strm} {st st' : Strm} {c' : Cap} (hl : c.strm = pre ++ st :: post)
    (ho : st.opened = true) (ho' : st'.opened = false) (hc' : c' = { c with strm := pre ++ st' :: post }) : CapInv c' h := by
  have hcore : Core c h := hi.core (numOpen_pos_iff.mpr ⟨st, by rw [hl]; simp, ho⟩)
  have hstrm := strm_replace hl (by rw [hc'] : c'.strm = pre ++ st' :: post) hcore.strm fun h' =>
    absurd (ho'.symm.trans h') Bool.false_ne_true
  subst hc'
  refine ⟨?_, hi.pulses, hi.ordered, fun _ => ?_, fun _ hk => ?_⟩
  · rw [length_replace hl rfl]
    exact hi.many
  · exact ⟨hcore.phase, hcore.len, hcore.pos, hcore.tinfo, hcore.half, hcore.shrink, hcore.virt, hcore.filled, hstrm⟩
  · obtain ⟨hidx, hp, _⟩ := hk
    rcases hcore.phase.pos with h0 | ⟨_, hq⟩
    · exact h0
    · simp only at hidx hp
      omega

theorem trigger (hi : CapInv c h) {pre post : List Strm} {st : Strm} {go : Bool} {dma : Dma} {c' : Cap}
    (hl : c.strm = pre ++ st :: post) (ho : st.opened = true)
    (hd : dma = c.dma ∨ dma = c.dma.xferStart ∨ dma = c.dma.xferAbort)
    (hc' : c' = { c with
      dma
      strm := pre ++ { st with go, log := if go then st.log.restart else st.log } :: post }) : CapInv c' h := by
  have hcore : Core c h := hi.core (numOpen_pos_iff.mpr ⟨st, by rw [hl]; simp, ho⟩)
  have hopen' : c'.numOpen ≠ 0 :=
    numOpen_pos_iff.mpr ⟨{ st with go, log := if go then st.log.restart else st.log }, by rw [hc']; simp, ho⟩
  have hst : Stream c.captureBuffSize c.captureBuffSizeMod h.handled { st with go, log := if go then st.log.restart else st.log } := by
    have := hcore.strm st (by rw [hl]; simp) ho
    cases go with
    | true => exact this.go
    | false => exact this.stop
  have hstrm := strm_replace hl (by rw [hc'] : c'.strm = pre ++ _ :: post) hcore.strm fun _ => hst
  have hlen : dma.len = c.dma.len := by rcases hd with rfl | rfl | rfl <;> rfl
  have hphase : Phase c.fragIndex c.pulses dma := by
    rcases hd with rfl | rfl | rfl
    · exact hcore.phase
    · exact hcore.phase.start
    · exact hcore.phase.abort
  subst hc'
  refine ⟨?_, hi.pulses, hi.ordered, fun _ => ?_, fun hn => absurd hn hopen'⟩
  · rw [length_replace hl rfl]
    exact hi.many
  · refine ⟨hphase, ?_, ?_, ?_, hcore.half, hcore.shrink, hcore.virt, ?_, hstrm⟩
    · exact hcore.len.trans (by rw [hlen])
    · exact hlen ▸ hcore.pos
    · exact hcore.tinfo.trans hlen.symm
    · change ∀ j b, _ → b.length = dma.len ∧ c.read ((c.fragIndex + j) * dma.len) dma.len = b
      rw [hlen]
      exact hcore.filled

/-- 半分が埋まる。 -/
theorem complete (hi : CapInv c h) {bytes : List UInt8} (hr : c.dma.ready = true) (hb : bytes.length = c.dma.len) {c' : Cap}
    {h' : Hist} (hc' : c' = { c with mem := c.mem.copy (c.dma.pos * c.dma.len) bytes, dma := c.dma.advance, pulses := c.pulses + 1 })
    (hh' : h' = { h with captured := h.captured ++ bytes, pending := h.pending ++ [bytes] }) : CapInv c' h' := by
  have hlen : c.dma.advance.len = c.dma.len := by
    rw [Dma.advance]
    split_ifs <;> rfl
  subst hc' hh'
  refine ⟨hi.many, ?_, ?_, fun hopen => ?_, fun _ hk => ?_⟩
  · simp only [List.length_append, hi.pulses, List.length_singleton]
  · simp only [hi.ordered, List.flatten_append, List.append_assoc, List.flatten_singleton]
  · have hcore := hi.core hopen
    obtain ⟨hpos, -⟩ := hcore.phase.ready_pos hr
    refine ⟨hcore.phase.advance hr, ?_, ?_, ?_, hcore.half, hcore.shrink, hcore.virt, fun j b hj => ?_, hcore.strm⟩
    · exact hcore.len.trans (by rw [hlen])
    · exact hlen.symm ▸ hcore.pos
    · exact hcore.tinfo.trans hlen.symm
    · simp only [hlen, Cap.read]
      rcases Nat.lt_or_ge j h.pending.length with hlt | hge
      · rw [List.getElem?_append_left hlt] at hj
        obtain ⟨hbl, hread⟩ := hcore.filled j b hj
        refine ⟨hbl, (read_copy_other c.mem ?_).trans hread⟩
        rw [← Nat.succ_mul]
        exact Nat.mul_le_mul_right _ (by rw [hpos]; have := hi.pulses; omega)
      · rw [List.getElem?_append_right hge, List.getElem?_singleton] at hj
        split_ifs at hj with h0
        cases hj
        refine ⟨hb, ?_⟩
        rw [show c.fragIndex + j = c.dma.pos by have := hi.pulses; omega, ← hb]
        exact read_copy_same ..
  · exact absurd hk.2.1 (Nat.succ_ne_zero _)

end CapInv

/-! ## 完了の処理 -/

theorem deliver_opened (st : Strm) (k : Nat) (src : List UInt8) : (st.deliver k src).opened = st.opened := by
  rw [Strm.opened, Strm.opened, (deliver_frame st k src).1]

theorem numOpen_delivered {c c' : Cap} {k : Nat}
    (hl : c'.strm = c.strm ∨ ∃ src, c'.strm = c.strm.map (·.deliver k src)) : c'.numOpen = c.numOpen := by
  rcases hl with hl | ⟨src, hl⟩
  · rw [Cap.numOpen, hl, Cap.numOpen]
  · rw [Cap.numOpen, hl, List.countP_map, Cap.numOpen]
    refine List.countP_congr fun st _ => ?_
    rw [Function.comp_apply, deliver_opened]

theorem length_delivered {c c' : Cap} {k : Nat}
    (hl : c'.strm = c.strm ∨ ∃ src, c'.strm = c.strm.map (·.deliver k src)) : c'.strm.length = c.strm.length := by
  rcases hl with hl | ⟨src, hl⟩
  · rw [hl]
  · rw [hl, List.length_map]

theorem dmacapture_frame (c : Cap) (k off size : Nat) :
    (c.dmacapture k off size).fragIndex = c.fragIndex ∧ (c.dmacapture k off size).dma = c.dma := by
  rw [Cap.dmacapture]
  split_ifs <;> exact ⟨rfl, rfl⟩

/-- 処理の後に番号が 0 なら、DMA は次の周を始めている。 -/
theorem pulseHdlr_running (c : Cap) (k : Nat) (hmany : c.strm.length ≠ 1) (hidx : (c.pulseHdlr k).fragIndex = 0) :
    (c.pulseHdlr k).dma.running ≠ false := by
  rw [Cap.pulseHdlr] at hidx ⊢
  simp only [if_neg hmany] at hidx ⊢
  by_cases h1 : c.fragIndex = 1
  · simp only [if_pos h1, (dmacapture_frame _ _ _ _).2]
    exact fun hf => Bool.false_ne_true hf.symm
  · rw [if_neg h1] at hidx ⊢
    by_cases h0 : c.fragIndex = 0
    · rw [if_pos h0, (dmacapture_frame _ _ _ _).1] at hidx
      cases hidx
    · rw [if_neg h0] at hidx
      exact absurd hidx h0

section

variable {c : Cap} {h : Hist} {k : Nat} {b : List UInt8}

theorem Core.size_half (hcore : Core c h) : c.captureBuffSize / 2 = c.dma.len := by
  rw [hcore.len, Nat.mul_div_cancel_left _ Nat.two_pos]

theorem Core.dmacapture (hcore : Core c h) {c' : Cap} {off : Nat} (hv : c'.captureVirtual = c.captureVirtual)
    (hb : c'.read off c.dma.len = b) :
    c'.dmacapture k off c.dma.len = { c' with strm := c'.strm.map (·.deliver k b) } := by
  have hpos := hcore.pos
  rw [Cap.dmacapture, hv, hcore.virt, if_neg (by simp; omega), hb]

/-- ping の処理。 -/
theorem Core.pulseHdlr_ping (hcore : Core c h) (hmany : 1 < c.strm.length) (hidx : c.fragIndex = 0)
    (hb : c.read 0 c.dma.len = b) :
    c.pulseHdlr k = { c with fragIndex := 1, strm := c.strm.map (·.deliver k b) } := by
  rw [Cap.pulseHdlr]
  simp only [hcore.size_half]
  rw [if_neg (by omega), if_neg (by omega), if_pos hidx]
  exact hcore.dmacapture rfl hb

/-- pong の処理。次の周は新しい大きさになる。 -/
theorem Core.pulseHdlr_pong (hcore : Core c h) (hmany : 1 < c.strm.length) (hidx : c.fragIndex = 1)
    (hb : c.read c.dma.len c.dma.len = b) :
    c.pulseHdlr k = { c with
      fragIndex := 0
      strm := c.strm.map (·.deliver k b)
      captureBuffSize := c.captureBuffSizeMod
      tinfoLen := c.captureBuffSizeMod / 2
      dma := (c.dma.xferComplete.setupXfer (c.captureBuffSizeMod / 2)).xferStart } := by
  have htinfo : (if c.captureBuffSizeMod ≠ c.captureBuffSize then c.captureBuffSizeMod / 2 else c.tinfoLen) =
      c.captureBuffSizeMod / 2 := by
    split_ifs with hne
    · rfl
    · rw [not_not.mp hne, hcore.tinfo, hcore.size_half]
  have hcopy := @Core.dmacapture c h k b hcore
    ({ c with
      fragIndex := 0
      tinfoLen := c.captureBuffSizeMod / 2
      dma := (c.dma.xferComplete.setupXfer (c.captureBuffSizeMod / 2)).xferStart }) c.dma.len
    rfl hb
  rw [Cap.pulseHdlr]
  simp only [hcore.size_half, htinfo]
  rw [if_neg (by omega), if_pos hidx, hcopy]

/-- 次の pulse で写される半分は、まだ処理されていない最初の半分である。 -/
theorem Core.nextHalf (hcore : Core c h) (hb : h.pending[0]? = some b) : c.nextHalf = b ∧ b.length = c.dma.len := by
  obtain ⟨hlen, hread⟩ := hcore.filled 0 b hb
  refine ⟨?_, hlen⟩
  rw [← hread, Cap.nextHalf, hcore.size_half]
  have := hcore.phase.index
  congr 1
  split_ifs with h1
  · rw [h1, Nat.add_zero, Nat.one_mul]
  · rw [show c.fragIndex = 0 by omega, Nat.add_zero, Nat.zero_mul]

/-- 副 channel はどれも、写した後の大きさでも条件を満たす。 -/
theorem Core.delivered (hcore : Core c h) (hb : b.length = c.dma.len) {size : Nat}
    (hs : size ≤ c.captureBuffSize ∨ size ≤ c.captureBuffSizeMod) :
    ∀ st ∈ c.strm.map (·.deliver h.handled.length b), st.opened = true →
      Stream size c.captureBuffSizeMod (h.handled ++ b) st := by
  intro x hx ho
  obtain ⟨st, hst, rfl⟩ := List.mem_map.mp hx
  have ho : st.opened = true := (deliver_opened st _ b).symm.trans ho
  exact (hcore.strm st hst ho).deliver ho (by rw [hb]; exact hcore.len) hs

theorem CapInv.pulse (hi : CapInv c h) (hp : 0 < c.pulses) {c' : Cap} {h' : Hist}
    (hc' : c' = { c.pulseHdlr h.handled.length with pulses := c.pulses - 1 })
    (hh' : h' = { h with handled := h.handled ++ h.pending.headD [], pending := h.pending.tail }) : CapInv c' h' := by
  have hstrm := pulseHdlr_strm c h.handled.length
  have hopen : c'.numOpen = c.numOpen := by
    subst hc'
    exact numOpen_delivered hstrm
  obtain ⟨b, rest, hpending⟩ : ∃ b rest, h.pending = b :: rest :=
    List.exists_cons_of_ne_nil fun hn => by have := hi.pulses; rw [hn] at this; simp at this; omega
  have hpulses : rest.length + 1 = c.pulses := by rw [← hi.pulses, hpending, List.length_cons]
  have hmany := hi.many
  have hordered : h'.captured = h'.handled ++ h'.pending.flatten := by
    subst hh'
    simp only [hi.ordered, hpending, List.headD_cons, List.tail_cons, List.flatten_cons, List.append_assoc]
  have hlength : h'.pending.length = c'.pulses := by
    subst hc' hh'
    simp only [hpending, List.tail_cons]
    omega
  have hmany' : 1 < c'.strm.length := by
    subst hc'
    exact Nat.lt_of_lt_of_eq hmany (length_delivered hstrm).symm
  refine ⟨hmany', hlength, hordered, fun hn => ?_, fun hn hk => ?_⟩
  · have hcore := hi.core (hopen ▸ hn)
    obtain ⟨hb, hread⟩ := hcore.filled 0 b (by rw [hpending]; rfl)
    have hround := hcore.phase.round
    rcases Nat.le_one_iff_eq_zero_or_eq_one.mp hcore.phase.index with hidx | hidx
    · rw [hidx, Nat.add_zero, Nat.zero_mul] at hread
      rw [hcore.pulseHdlr_ping hmany hidx hread] at hc'
      subst hc' hh'
      have hphase := hidx ▸ hcore.phase
      refine ⟨hphase.next hp, hcore.len, hcore.pos, hcore.tinfo, hcore.half, hcore.shrink, hcore.virt, fun j x hx => ?_, ?_⟩
      · simp only [hpending, List.tail_cons] at hx
        have hj := hcore.filled (j + 1) x (by rw [hpending]; exact hx)
        rw [hidx, Nat.zero_add, Nat.add_comm] at hj
        exact hj
      · simp only [hpending, List.headD_cons]
        exact hcore.delivered hb (.inl (Nat.le_refl _))
    · rw [hidx, Nat.add_zero, Nat.one_mul] at hread
      rw [hcore.pulseHdlr_pong hmany hidx hread] at hc'
      obtain ⟨m, hm, hmod⟩ := hcore.half
      have hm2 : c.captureBuffSizeMod / 2 = m := by rw [hmod, Nat.mul_div_cancel_left _ Nat.two_pos]
      obtain ⟨hp1, hphase⟩ := Phase.wrap (hidx ▸ hcore.phase) hp (c.captureBuffSizeMod / 2)
      have hrest : rest = [] := List.length_eq_zero_iff.mp (by omega)
      subst hc' hh'
      refine ⟨?_, ?_, ?_, rfl, hcore.half, Nat.le_refl _, hcore.virt, fun j x hx => ?_, ?_⟩
      · simp only [hp1]
        exact hphase
      · change c.captureBuffSizeMod = 2 * (c.captureBuffSizeMod / 2)
        rw [hm2, hmod]
      · change 0 < c.captureBuffSizeMod / 2
        rw [hm2]
        exact hm
      · simp only [hpending, List.tail_cons, hrest] at hx
        cases hx
      · simp only [hpending, List.headD_cons]
        exact hcore.delivered hb (.inr (Nat.le_refl _))
  · subst hc'
    exact absurd hk.2.2 (pulseHdlr_running c _ (Nat.ne_of_gt hmany) hk.1)

end

end Imx6Bsp.Deva
