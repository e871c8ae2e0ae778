import Imx6Bsp.Devnp.Event

/-!
# イーサネットの割り込み処理の定理

`mx6q_process_interrupt()` は `else if` で一種の事象だけを処理するので、事象を失わないのは、読むたびに三種のうち高々一種しか立って
いない実行である。
-/

namespace Imx6Bsp.Devnp

open Imx6Bsp.Lib

/-- 一回の処理が書き戻した事象をすべて処理するのは、高々一種しかないときである。 -/
theorem serves_dispatch_iff (v : BitVec 32) : Serves (v, dispatch v) ↔ OneKind v := by
  unfold Serves OneKind dispatch
  by_cases hrx : HasRx v
  · rw [if_pos (show _ ≠ _ from hrx)]
    simp only [hrx, List.mem_singleton, true_and, forall_const]
    simp
    tauto
  · rw [if_neg (show ¬ _ ≠ _ from hrx)]
    by_cases hav : HasTsAvail v
    · rw [if_pos (show _ ≠ _ from hav)]
      simp [hrx, hav]
    · rw [if_neg (show ¬ _ ≠ _ from hav)]
      by_cases hti : HasTsTimer v
      · rw [if_pos (show _ ≠ _ from hti)]
        simp [hrx, hav]
      · simp [hrx, hav, hti]

/-- 処理した回のうち、`TS_TIMER` を書き戻した回の数。 -/
def timerAcks (served : List (BitVec 32 × List Handler)) : Nat := served.countP fun e => decide (HasTsTimer e.1)

theorem timerAcks_snoc (l : List (BitVec 32 × List Handler)) (e : BitVec 32 × List Handler) :
    timerAcks (l ++ [e]) = timerAcks l + if HasTsTimer e.1 then 1 else 0 := by
  simp [timerAcks, List.countP_append, List.countP_singleton]

/-- `TS_TIMER` だけを含む値では、時計を進めるのは `TS_TIMER` があるときである。 -/
theorem tick_mem_dispatch {v : BitVec 32} (h : OneKind v) : Handler.tick ∈ dispatch v ↔ HasTsTimer v := by
  obtain ⟨_, hrt, hat⟩ := h
  unfold dispatch
  by_cases hrx : HasRx v
  · rw [if_pos (show _ ≠ _ from hrx)]
    exact iff_of_false (by simp) fun ht => hrt ⟨hrx, ht⟩
  · rw [if_neg (show ¬ _ ≠ _ from hrx)]
    by_cases hav : HasTsAvail v
    · rw [if_pos (show _ ≠ _ from hav)]
      exact iff_of_false (by simp) fun ht => hat ⟨hav, ht⟩
    · rw [if_neg (show ¬ _ ≠ _ from hav)]
      by_cases hti : HasTsTimer v
      · rw [if_pos (show _ ≠ _ from hti)]
        simp [hti]
      · rw [if_neg (show ¬ _ ≠ _ from hti)]
        simp [hti]

/-- 実行の不変条件。処理の途中の値も高々一種の事象しか含まない。 -/
structure EventState.Inv (rtc₀ : BitVec 32) (s : EventState) : Prop where
  pending : ∀ v, s.stage = .ack v ∨ s.stage = .handle v → OneKind v
  served : ∀ e ∈ s.served, Serves e
  rtc : s.rtc = rtc₀ + BitVec.ofNat 32 (timerAcks s.served)

theorem EventState.Inv.step {rtc₀ : BitVec 32} {s t : EventState} {c : EventStep} (h : s.Inv rtc₀) (hc : s.ReadsOneKind c)
    (hs : s.step c = .ok t) : t.Inv rtc₀ := by
  obtain ⟨ievent, rtc, stage, served⟩ := s
  obtain ⟨hp, hsv, hr⟩ := h
  cases c with
  | raise bits => cases hs; exact ⟨hp, hsv, hr⟩
  | enter =>
      cases stage with
      | idle => cases hs; exact ⟨by simp, hsv, hr⟩
      | read => cases hs
      | ack v => cases hs
      | handle v => cases hs
  | read =>
      cases stage with
      | idle => cases hs
      | ack v => cases hs
      | handle v => cases hs
      | read =>
          cases hs
          refine ⟨fun v hv => ?_, hsv, hr⟩
          by_cases h0 : ievent = 0
          · simp [h0] at hv
          · simp only [h0, if_false, Stage.ack.injEq, reduceCtorEq, or_false] at hv
            subst hv; exact hc
  | ack =>
      cases stage with
      | idle => cases hs
      | read => cases hs
      | handle v => cases hs
      | ack v =>
          cases hs
          refine ⟨fun w hw => ?_, hsv, hr⟩
          simp only [reduceCtorEq, false_or, Stage.handle.injEq] at hw
          subst hw; exact hp v (Or.inl rfl)
  | handle =>
      cases stage with
      | idle => cases hs
      | read => cases hs
      | ack v => cases hs
      | handle v =>
          cases hs
          have hv := hp v (Or.inr rfl)
          refine ⟨by simp, fun e he => ?_, ?_⟩
          · rcases List.mem_append.mp he with he | he
            · exact hsv e he
            · rw [List.mem_singleton.mp he]
              exact (serves_dispatch_iff v).mpr hv
          · rw [timerAcks_snoc]
            dsimp only at hr ⊢
            by_cases ht : HasTsTimer v
            · rw [if_pos ((tick_mem_dispatch hv).mpr ht), if_pos ht, hr, BitVec.ofNat_add, BitVec.add_assoc]
              rfl
            · rw [if_neg fun hm => ht ((tick_mem_dispatch hv).mp hm), if_neg ht, hr, Nat.add_zero]

/-- 読むたびに高々一種の事象しか立っていないどの実行でも、書き戻した事象はすべて処理され、時計は書き戻した `TS_TIMER` の数だけ
進む。 -/
theorem interrupt_events_served (ievent rtc : BitVec 32) (s : EventState)
    (h : Reaches EventState.step EventState.ReadsOneKind (.start ievent rtc) s) :
    (∀ e ∈ s.served, Serves e) ∧ s.rtc = rtc + BitVec.ofNat 32 (timerAcks s.served) := by
  have h0 : (EventState.start ievent rtc).Inv rtc := by
    refine ⟨?_, by simp [EventState.start], ?_⟩
    · simp [EventState.start]
    · exact (BitVec.add_zero rtc).symm
  have hinv := h.invariant h0 fun u c v hu hok hs => hu.step hok hs
  exact ⟨hinv.served, hinv.rtc⟩

theorem interrupt_events_served_sample :
    ∃ s, Reaches EventState.step EventState.ReadsOneKind (.start 0 41) s ∧ timerAcks s.served = 1 ∧ s.rtc = 42 ∧
      ∀ e ∈ s.served, Serves e := by
  have hrun : (runAll EventState.step EventState.ReadsOneKind [.raise ieventTsTimer, .enter, .read, .raise ieventRxb, .ack,
      .handle, .read, .ack, .handle, .read] (.start 0 41)).any (fun s => decide (timerAcks s.served = 1)) = true := by
    decide
  obtain ⟨s, hs, hacks⟩ := (Option.any_eq_true _ _).mp hrun
  have hacks := of_decide_eq_true hacks
  obtain ⟨hserved, hrtc⟩ := interrupt_events_served 0 41 s (runAll_reaches hs)
  exact ⟨s, runAll_reaches hs, hacks, by rw [hrtc, hacks]; rfl, hserved⟩

/-- 受信と `TS_TIMER` が同時に立っていると、`TS_TIMER` も書き戻すが時計は進まない。 -/
theorem rx_hides_timer_tick :
    ∃ s, Reaches EventState.step (fun _ _ => True) (.start 0 41) s ∧ s.stage = .idle ∧ timerAcks s.served = 1 ∧
      s.rtc = 41 := by
  have hrun : (runAll EventState.step (fun _ _ => True) [.raise (ieventTsTimer ||| ieventRxb), .enter, .read, .ack, .handle,
      .read] (.start 0 41)).any (fun s => decide (s.stage = .idle ∧ timerAcks s.served = 1 ∧ s.rtc = 41)) = true := by
    decide
  obtain ⟨s, hs, hfin⟩ := (Option.any_eq_true _ _).mp hrun
  exact ⟨s, runAll_reaches hs, of_decide_eq_true hfin⟩

/-! ## PTP の時計の定理

時刻を返すときの数え残しが増えない実行では、返す時刻は戻らない。 -/

/-! ### 計数器の順 -/

/-- 計数器の位置 `p` は `q` より後でない。 -/
def Upto (p q : Nat × Nat) : Prop := p.1 < q.1 ∨ (p.1 = q.1 ∧ p.2 ≤ q.2)

theorem Upto.refl (p : Nat × Nat) : Upto p p := .inr ⟨rfl, Nat.le_refl _⟩

theorem Upto.trans {p q r : Nat × Nat} (h₁ : Upto p q) (h₂ : Upto q r) : Upto p r := by
  unfold Upto at *
  omega

theorem Reading.NotAfter.trans {r s t : Reading} (h₁ : r.NotAfter s) (h₂ : s.NotAfter t) : r.NotAfter t := by
  unfold Reading.NotAfter at *
  omega

/-- 計数器が戻らず、数え残しが増えなければ、時刻は戻らない。 -/
theorem Reading.notAfter_of_late {r s : Reading} {rtc₀ : Nat} (hr : r.sec = rtc₀ + r.ticks) (hs : s.sec = rtc₀ + s.ticks)
    (h : Upto (r.wraps, r.nsec) (s.wraps, s.nsec)) (hl : s.late ≤ r.late) : r.NotAfter s := by
  unfold Reading.late at hl
  unfold Upto at h
  unfold Reading.NotAfter
  omega

/-! ### 不変条件 -/

/-- 読み出しに使う計数器の位置。 -/
def Clock.sample (c : Clock) : Nat × Nat :=
  match c.get with
  | .idle => (c.wraps, c.nsec)
  | .captured wraps nsec => (wraps, nsec)
  | .valued wraps nsec => (wraps, nsec)

structure Clock.Inv (rtc₀ : Nat) (c : Clock) : Prop where
  rtc : c.event.rtc.toNat = rtc₀ + c.ticks
  secs : ∀ r ∈ c.readings, r.sec = rtc₀ + r.ticks
  seen : ∀ r ∈ c.readings, Upto (r.wraps, r.nsec) c.sample
  held : Upto c.sample (c.wraps, c.nsec)
  mono : c.Monotone

theorem EventState.step_rtc {s t : EventState} {e : EventStep} (h : s.step e = .ok t) (hb : s.ticksOn e = true → s.rtc.toNat + 1 < 2 ^ 32) :
    t.rtc.toNat = s.rtc.toNat + if s.ticksOn e = true then 1 else 0 := by
  obtain ⟨ievent, rtc, stage, served⟩ := s
  cases e with
  | raise bits => cases h; rfl
  | enter => cases stage <;> cases h; rfl
  | read => cases stage <;> cases h; rfl
  | ack => cases stage <;> cases h; rfl
  | handle =>
      cases stage with
      | idle => cases h
      | read => cases h
      | ack v => cases h
      | handle v =>
          cases h
          simp only [EventState.ticksOn, decide_eq_true_eq] at hb ⊢
          split
          · rename_i ht
            have := hb ht
            rw [BitVec.toNat_add]
            exact Nat.mod_eq_of_lt this
          · rfl

/-- 計数器が進んでも、返した時刻は後にならない。 -/
theorem Clock.Inv.advance {rtc₀ : Nat} {c d : Clock} (h : c.Inv rtc₀) (hg : d.get = c.get) (hr : d.readings = c.readings)
    (ht : d.ticks = c.ticks) (he : d.event.rtc = c.event.rtc) (hu : Upto (c.wraps, c.nsec) (d.wraps, d.nsec)) : d.Inv rtc₀ := by
  have hsample : Upto c.sample d.sample ∧ Upto d.sample (d.wraps, d.nsec) := by
    have hheld := h.held
    unfold Clock.sample at hheld ⊢
    rw [hg]
    cases hget : c.get with
    | idle => exact ⟨hu, .refl _⟩
    | captured wraps nsec => rw [hget] at hheld; exact ⟨.refl _, hheld.trans hu⟩
    | valued wraps nsec => rw [hget] at hheld; exact ⟨.refl _, hheld.trans hu⟩
  refine ⟨by rw [he, ht]; exact h.rtc, hr ▸ h.secs, fun r hm => (h.seen r (hr ▸ hm)).trans hsample.1, hsample.2, ?_⟩
  have := h.mono
  rwa [Clock.Monotone, ← hr] at this

theorem Clock.Inv.readSec {rtc₀ : Nat} {c : Clock} {wraps nsec : Nat} (h : c.Inv rtc₀) (hg : c.get = .valued wraps nsec)
    (hok : ∀ last ∈ c.readings.head?, (wraps : Int) - c.ticks ≤ last.late) :
    ({ c with get := .idle, readings := ⟨c.event.rtc.toNat, nsec, wraps, c.ticks⟩ :: c.readings } : Clock).Inv rtc₀ := by
  have hsample : c.sample = (wraps, nsec) := by simp only [Clock.sample, hg]
  have hheld : Upto (wraps, nsec) (c.wraps, c.nsec) := hsample ▸ h.held
  have hseen : ∀ r ∈ c.readings, Upto (r.wraps, r.nsec) (wraps, nsec) := fun r hr => hsample ▸ h.seen r hr
  refine ⟨h.rtc, ?_, ?_, .refl _, ?_⟩
  · exact List.forall_mem_cons.mpr ⟨h.rtc, h.secs⟩
  · exact List.forall_mem_cons.mpr ⟨hheld, fun r hr => (hseen r hr).trans hheld⟩
  · refine List.pairwise_cons.mpr ⟨fun r hr => ?_, h.mono⟩
    -- 直前に返した時刻と比べ、その前の時刻へは推移で移る。
    obtain ⟨last, rest, hl⟩ := List.exists_cons_of_ne_nil (List.ne_nil_of_mem hr)
    have hhead : last ∈ c.readings := hl ▸ List.mem_cons_self
    have hlast : last.NotAfter ⟨c.event.rtc.toNat, nsec, wraps, c.ticks⟩ :=
      Reading.notAfter_of_late (h.secs last hhead) h.rtc (hseen last hhead) (hok last (by rw [hl]; rfl))
    rw [hl] at hr
    rcases List.mem_cons.mp hr with rfl | hr
    · exact hlast
    · have hmono := h.mono
      rw [Clock.Monotone, hl] at hmono
      exact ((List.pairwise_cons.mp hmono).1 r hr).trans hlast

theorem Clock.Inv.step {rtc₀ : Nat} {c d : Clock} {s : ClockStep} (h : c.Inv rtc₀) (hok : c.OnTime s) (hs : c.step s = .ok d) : d.Inv rtc₀ := by
  cases s with
  | event s =>
      simp only [Clock.step] at hs
      split at hs
      · obtain ⟨event, he, rfl⟩ := Except.map_eq_ok.mp hs
        refine ⟨?_, h.secs, h.seen, h.held, h.mono⟩
        have := EventState.step_rtc he hok
        simp only [this, h.rtc]
        split <;> rfl
      · cases hs
  | advance inc =>
      simp only [Clock.step] at hs
      split at hs
      · split at hs
        · cases hs
          exact h.advance rfl rfl rfl rfl (.inr ⟨rfl, Nat.le_add_right ..⟩)
        · cases hs
          exact h.advance rfl rfl rfl rfl (.inl (Nat.lt_succ_self _))
      · cases hs
  | capture =>
      simp only [Clock.step] at hs
      split at hs
      · rename_i hg
        cases hs
        have hseen := h.seen
        simp only [Clock.sample, hg] at hseen
        exact ⟨h.rtc, h.secs, hseen, .refl _, h.mono⟩
      · cases hs
  | readNsec =>
      simp only [Clock.step] at hs
      split at hs
      · rename_i wraps nsec hg
        cases hs
        have hseen := h.seen
        have hheld := h.held
        simp only [Clock.sample, hg] at hseen hheld
        exact ⟨h.rtc, h.secs, hseen, hheld, h.mono⟩
      · cases hs
  | readSec =>
      simp only [Clock.step] at hs
      split at hs
      · rename_i wraps nsec hg
        cases hs
        exact h.readSec hg (hok _ (by simp only [Clock.late, hg]; rfl))
      · cases hs

/-- `rtc` が溢れず、時刻を返すときの数え残しが前より増えない実行では、`mx6q_ptp_get_cnt()` の返す時刻は戻らない。 -/
theorem ptp_reads_monotone (rtc : BitVec 32) (nsec : Nat) (c : Clock) (h : Reaches Clock.step Clock.OnTime (Clock.start rtc nsec) c) :
    c.Monotone := by
  have hstart : (Clock.start rtc nsec).Inv rtc.toNat := ⟨rfl, nofun, nofun, .refl _, List.Pairwise.nil⟩
  exact (h.invariant hstart fun _ _ _ hu hok hs => hu.step hok hs).mono

theorem ptp_reads_monotone_sample :
    ∃ c, Reaches Clock.step Clock.OnTime (Clock.start 7 900000000) c ∧
      c.readings.map (fun r => (r.sec, r.nsec)) = [(8, 100000000), (7, 900000000)] ∧ c.Monotone := by
  obtain ⟨c, hc, hp⟩ := (Option.any_eq_true _ _).mp
    (by decide :
      (runAll Clock.step Clock.OnTime
        [.capture, .readNsec, .readSec, .advance 200000000, .event .enter, .event .read, .event .ack, .event .handle, .capture, .readNsec,
          .readSec] (Clock.start 7 900000000)).any
        (fun c => c.readings.map (fun r => (r.sec, r.nsec)) = [(8, 100000000), (7, 900000000)]) = true)
  have hr := runAll_reaches hc
  exact ⟨c, hr, of_decide_eq_true hp, ptp_reads_monotone 7 900000000 c hr⟩

/-- 計数器が戻った後、割り込みを処理する前に読むと、時刻が戻る。 -/
theorem ptp_read_before_tick :
    ∃ c, Reaches Clock.step (fun _ _ => True) (Clock.start 7 900000000) c ∧ ¬c.Monotone := by
  obtain ⟨c, hc, hp⟩ := (Option.any_eq_true _ _).mp
    (by decide :
      (runAll Clock.step (fun _ _ => True)
        [.capture, .readNsec, .readSec, .advance 200000000, .capture, .readNsec, .readSec] (Clock.start 7 900000000)).any
        (fun c => c.readings = [⟨7, 100000000, 1, 0⟩, ⟨7, 900000000, 0, 0⟩]) = true)
  refine ⟨c, runAll_reaches hc, fun hm => ?_⟩
  rw [Clock.Monotone, of_decide_eq_true hp] at hm
  have := (List.pairwise_cons.mp hm).1 _ List.mem_cons_self
  exact absurd this (by unfold Reading.NotAfter; decide)

end Imx6Bsp.Devnp
