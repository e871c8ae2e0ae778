import Imx6Bsp.Deva.Lemmas.CaptureStream

/-!
# 録音の連続

どの副 channel も、最初に受け取った半分からは、DMA の録音したバイトを順に、抜けも重なりもなく受け取る。ただし共有 buffer を
用意するときに handler の番号 `frag_index` は戻されず、待っている大きさの変更は後の取得で大きい方に書き換えられうる。
-/

namespace Imx6Bsp.Deva

open Imx6Bsp.Lib

/-- 最初の取得は、handler の番号が 0 で、処理を待つ完了がなく、DMA が止まっているときに限る。後の取得は、共有 buffer より
小さいなら、取得済みのどの buffer よりも大きくない。 -/
def KeepsStream (s : Mx) : Op → Prop
  | .captureAquire2 _ _ intSize _ _ =>
      (s.cap.numOpen = 0 → s.cap.Clean) ∧
        (fragsTotal * fragDmabufSizer intSize < s.cap.captureBuffSize →
          ∀ st ∈ s.cap.strm, st.opened = true → fragsTotal * fragDmabufSizer intSize ≤ st.dmaSize)
  | _ => True

instance decidableKeepsStream (s : Mx) : (op : Op) → Decidable (KeepsStream s op)
  | .captureAquire2 .. => inferInstanceAs (Decidable (_ ∧ _))
  | .playbackAquire .. => inferInstanceAs (Decidable True)
  | .playbackRelease => inferInstanceAs (Decidable True)
  | .captureAquire .. => inferInstanceAs (Decidable True)
  | .captureRelease => inferInstanceAs (Decidable True)
  | .captureRelease2 _ => inferInstanceAs (Decidable True)
  | .captureTrigger2 .. => inferInstanceAs (Decidable True)
  | .complete _ => inferInstanceAs (Decidable True)
  | .pulse => inferInstanceAs (Decidable True)

/-- 取得された副 channel の buffer。 -/
structure ClientStream (handled : List UInt8) (st : Strm) : Prop where
  stream : st.go = true → ∀ k ∈ st.log.since, st.log.session = handled.drop k
  unserved : st.log.since = none → st.log.session = []
  received : st.log.session <:+ bytesOf st.log.writes
  placed : Placed st.dmaFragSize 0 st.log.writes
  inside : ∀ w ∈ st.log.writes, w.offset + w.bytes.length ≤ st.dmaSize
  irqs : st.log.writes.countP Copy.irq = (bytesOf st.log.writes).length / st.dmaFragSize

/-- 状態についての約束。`handled` は処理された完了のバイトを順に並べたものである。 -/
structure StreamKept (s : Mx) : Prop where
  ordered : s.hist.captured = s.hist.handled ++ s.hist.pending.flatten
  pulses : s.hist.pending.length = s.cap.pulses
  half : s.cap.numOpen ≠ 0 → ∀ b ∈ s.hist.pending.head?, s.cap.nextHalf = b ∧ b.length = s.cap.dma.len
  clients : ∀ st ∈ s.cap.strm, st.opened = true → ClientStream s.hist.handled st
  fits : s.cap.captureBuffSizeMod = s.cap.captureBuffSize → ∀ st ∈ s.cap.strm, st.opened = true →
    s.cap.dma.len ≤ st.dmaFragSize

theorem Stream.client {size mod : Nat} {handled : List UInt8} {st : Strm} (h : Stream size mod handled st) :
    ClientStream handled st := by
  have hirqs := h.placed.irqs
  rw [Nat.zero_div, Nat.add_zero, Nat.zero_add] at hirqs
  exact ⟨fun hg k hk => (h.stream hg k hk).2.1, h.fresh, h.suffix, h.placed, h.size_eq ▸ h.placed.inside, hirqs⟩

theorem CapInv.kept {s : Mx} (h : CapInv s.cap s.hist) : StreamKept s where
  ordered := h.ordered
  pulses := h.pulses
  half := by
    intro hopen b hb
    rw [List.head?_eq_getElem?] at hb
    exact (h.core hopen).nextHalf hb
  clients := by
    intro st hst ho
    have hcore := h.core (numOpen_pos_iff.mpr ⟨st, hst, ho⟩)
    exact (hcore.strm st hst ho).client
  fits := by
    intro hmod st hst ho
    have hcore := h.core (numOpen_pos_iff.mpr ⟨st, hst, ho⟩)
    have hstream := hcore.strm st hst ho
    have hfits := hstream.fits
    rw [hmod, hcore.len, hstream.size_eq] at hfits
    omega

/-! ## 呼び出し -/

theorem fragDmabufSizer_pos {intSize : Nat} (h : 16 ≤ intSize) : 0 < fragDmabufSizer intSize :=
  Nat.mul_pos (Nat.div_pos h (by decide)) (by decide)

/-- `mx_capture_aquire2` の残り。 -/
theorem CapInv.aquire2 {c : Cap} {h : Hist} (hi : CapInv c h) {i subchn rate fragSize : Nat} {a b : Bool}
    (hfree : c.strm.findIdx? (fun st => !st.opened) = some i) (hf : 0 < fragSize) (hclean : c.numOpen = 0 → c.Clean)
    (hsmall : fragsTotal * fragSize < c.captureBuffSize → ∀ st ∈ c.strm, st.opened = true → fragsTotal * fragSize ≤ st.dmaSize) :
    CapInv (c.aquire2 i subchn rate fragSize a b).1 h := by
  obtain ⟨pre, st, post, hl, _, hm⟩ := free_split hfree
  rw [Cap.aquire2]
  split
  · exact hi
  · by_cases h0 : c.numOpen = 0
    · cases b with
      | true =>
          simp only [h0, decide_true, Bool.not_true, Bool.and_false, Cap.openShared, if_true, Bool.false_eq_true, if_false]
          exact hi.aquire_first hl h0 hf (hclean h0) (by rw [hm])
      | false =>
          simp only [h0, decide_true, Bool.not_false, Bool.and_true, Cap.openShared, if_true, Bool.false_eq_true, if_false]
          exact hi.aquire_failed h0 rfl
    · simp only [h0, decide_false, Bool.false_and, Bool.false_eq_true, if_false]
      exact hi.aquire_more hl h0 hf hsmall (by rw [hm])

theorem CapInv.run {s : Mx} (h : CapInv s.cap s.hist) {op : Op} (he : Enabled s op) (hk : KeepsStream s op) :
    CapInv (run s op).mx.cap (run s op).mx.hist := by
  cases op with
  | playbackAquire subchn rate allocOk =>
      simp only [Deva.run, playbackAquire]
      split
      · exact h
      · split
        · exact h
        · split <;> exact h
  | playbackRelease => exact h
  | captureAquire subchn rate allocOk => exact absurd he (Nat.ne_of_gt h.many)
  | captureRelease => exact absurd he.1 (Nat.ne_of_gt h.many)
  | captureAquire2 subchn rate intSize allocOk sharedOk =>
      simp only [Deva.run, captureAquire2]
      split
      · exact h
      · rename_i i hi
        split
        · exact h
        · exact h.aquire2 hi (fragDmabufSizer_pos he.2) hk.1 hk.2
  | captureRelease2 i =>
      obtain ⟨pre, st, post, _, hl, ho, _, hm⟩ := Cap.opened_split he.2
      have hcap : (captureRelease2 s i).mx.cap =
          { s.cap with strm := pre ++ { st with pcmSubchn := none, aquired := false } :: post } := by
        simp only [captureRelease2, hm]
      exact h.release hl ho rfl hcap
  | captureTrigger2 i go =>
      obtain ⟨pre, st, post, _, hl, ho, _, hm⟩ := Cap.opened_split he.2
      refine @CapInv.trigger _ _ h pre post st go
        (if s.cap.numOpen = 1 then (if go then s.cap.dma.xferStart else s.cap.dma.xferAbort) else s.cap.dma) _ hl ho ?_ ?_
      · split_ifs
        · exact .inr (.inl rfl)
        · exact .inr (.inr rfl)
        · exact .inl rfl
      · simp only [Deva.run, captureTrigger2, hm]
  | complete bytes => exact h.complete he.1 he.2 rfl rfl
  | pulse => exact h.pulse he rfl rfl

theorem CapInv.start {n : Nat} (hn : 1 < n) (ssi : Ssi) (mem : Mem) : CapInv (init ssi n mem).cap (init ssi n mem).hist := by
  have hopen : (init ssi n mem).cap.numOpen = 0 := by
    rw [Cap.numOpen_eq_zero]
    intro st hst
    rw [(List.mem_replicate.mp hst).2]
    rfl
  refine ⟨by simpa [init] using hn, rfl, rfl, fun hne => absurd hopen hne, fun _ _ => rfl⟩

theorem CapInv.reaches {n : Nat} (hn : 1 < n) {ssi : Ssi} {mem : Mem} {s : Mx}
    (h : Reaches step KeepsStream (init ssi n mem) s) : CapInv s.cap s.hist := by
  refine h.invariant (P := fun s => CapInv s.cap s.hist) (.start hn ssi mem) fun u op v hu hk hs => ?_
  simp only [step] at hs
  split_ifs at hs with he
  cases hs
  exact hu.run he hk

/-! ## 録音の連続 -/

/-- 条件を満たす取得だけの実行では、どの状態でも録音は途切れない。 -/
theorem capture_stream_kept {n : Nat} (hn : 1 < n) {ssi : Ssi} {mem : Mem} {s : Mx}
    (h : Reaches step KeepsStream (init ssi n mem) s) : StreamKept s := (CapInv.reaches hn h).kept

/-- 一つの大きさの設定。 -/
def streamSsi : Ssi := ⟨true, 48000, 48000, 48000, true, false, false⟩

def halfOf (n : Nat) (b : UInt8) : List UInt8 := List.replicate n b

/-- 二つの client が、ping の途中で加わる。 -/
theorem capture_stream_kept_run :
    ∃ s, Reaches step KeepsStream (init streamSsi 2 fun _ => 0) s ∧ s.hist.handled.length = 64 ∧
      (s.cap.strm.any fun st => st.log.session.length == 32) = true ∧ StreamKept s := by
  obtain ⟨s, hs, hp⟩ := (Option.any_eq_true _ _).mp (by decide :
    (runAll step KeepsStream
      [.captureAquire2 1 48000 32 true true, .captureTrigger2 0 true, .complete (halfOf 32 1), .pulse,
        .captureAquire2 2 48000 32 true true, .captureTrigger2 1 true, .complete (halfOf 32 2), .pulse]
      (init streamSsi 2 fun _ => 0)).any
        (fun s => s.hist.handled.length == 64 && s.cap.strm.any fun st => st.log.session.length == 32) = true)
  obtain ⟨hlen, hst⟩ := Bool.and_eq_true_iff.mp hp
  exact ⟨s, runAll_reaches hs, beq_iff_eq.mp hlen, hst, capture_stream_kept (by decide) (runAll_reaches hs)⟩

/-- ping の後に止めて取得し直すと、次の ping の完了で pong が写される。 -/
theorem capture_stream_stale :
    ¬∀ (n : Nat) (ssi : Ssi) (mem : Mem) (s : Mx), 1 < n → Reaches step (fun _ _ => True) (init ssi n mem) s → StreamKept s := by
  intro hall
  obtain ⟨s, hs, hp⟩ := (Option.any_eq_true _ _).mp (by decide :
    (runAll step (fun _ _ => True)
      [.captureAquire2 1 48000 16 true true, .captureTrigger2 0 true, .complete (halfOf 16 1), .pulse,
        .captureTrigger2 0 false, .captureRelease2 0,
        .captureAquire2 1 48000 16 true true, .captureTrigger2 0 true, .complete (halfOf 16 2)]
      (init streamSsi 2 fun _ => 0)).any
        (fun s => s.cap.numOpen != 0 && s.hist.pending.head? == some (halfOf 16 2) && s.cap.nextHalf.head? == some 0) = true)
  obtain ⟨hp, hhalf⟩ := Bool.and_eq_true_iff.mp hp
  obtain ⟨hopen, hpending⟩ := Bool.and_eq_true_iff.mp hp
  have h := ((hall _ _ _ s (by decide) (runAll_reaches hs)).half (by simpa using hopen) _ (by simpa using hpending)).1
  rw [h] at hhalf
  cases hhalf

end Imx6Bsp.Deva
