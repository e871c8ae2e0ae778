import Imx6Bsp.Deva.Lemmas.Mxssi

/-!
# 録音の DMA の動く間

`mx_capture_trigger2` は、動いている副 channel の数ではなく、取得された副 channel の数で DMA の始まりと終わりを決める。
二つ目が取得された後の最初の go や最後の stop では、DMA が始まらず、あるいは終わらない。
-/

namespace Imx6Bsp.Deva

open Imx6Bsp.Lib

/-- 取得されて動いている。 -/
def Strm.active (st : Strm) : Bool := st.opened && st.go

/-- 動いている副 channel がある。 -/
def Cap.wanted (c : Cap) : Bool := c.strm.any Strm.active

/-- DMA が動いて受信が有効なのは、動いている副 channel があるときである。 -/
def EngineFollows (s : Mx) : Prop := (s.cap.dma.running = true ∧ s.ssi.rxEn = true) ↔ s.cap.wanted = true

/-- client は、止まっている副 channel を go に、動いている副 channel を stop にし、止まっている副 channel を解放する。
完了は起きない。 -/
def Legal (s : Mx) : Op → Prop
  | .captureTrigger2 i go => s.cap.strm[i]?.any (fun st => st.go != go) = true
  | .captureRelease2 i => s.cap.strm[i]?.any (fun st => !st.go) = true
  | .complete _ => False
  | .pulse => False
  | _ => True

/-- trigger は、取得された副 channel が一つだけのときか、ほかに動いている副 channel があるときに限る。動いている間の取得は、
rate を変えない。 -/
def EngineKept (s : Mx) : Op → Prop
  | .captureTrigger2 i _ => s.cap.numOpen = 1 ∨ (s.cap.strm.eraseIdx i).any Strm.active = true
  | .captureAquire2 _ rate _ _ _ =>
      s.ssi.rateLocked = true → rate ≠ s.ssi.sampleRate → s.play.aquired = false → s.cap.numOpen ≠ s.cap.strm.length →
        s.cap.wanted = false
  | _ => True

instance decidableLegal (s : Mx) : (op : Op) → Decidable (Legal s op)
  | .captureTrigger2 .. => inferInstanceAs (Decidable (_ = _))
  | .captureRelease2 _ => inferInstanceAs (Decidable (_ = _))
  | .complete _ => inferInstanceAs (Decidable False)
  | .pulse => inferInstanceAs (Decidable False)
  | .captureAquire2 .. => inferInstanceAs (Decidable True)
  | .playbackAquire .. => inferInstanceAs (Decidable True)
  | .playbackRelease => inferInstanceAs (Decidable True)
  | .captureAquire .. => inferInstanceAs (Decidable True)
  | .captureRelease => inferInstanceAs (Decidable True)

instance decidableEngineKept (s : Mx) : (op : Op) → Decidable (EngineKept s op)
  | .captureTrigger2 .. => inferInstanceAs (Decidable (_ ∨ _))
  | .captureAquire2 .. => inferInstanceAs (Decidable (_ → _))
  | .captureRelease2 _ => inferInstanceAs (Decidable True)
  | .complete _ => inferInstanceAs (Decidable True)
  | .pulse => inferInstanceAs (Decidable True)
  | .playbackAquire .. => inferInstanceAs (Decidable True)
  | .playbackRelease => inferInstanceAs (Decidable True)
  | .captureAquire .. => inferInstanceAs (Decidable True)
  | .captureRelease => inferInstanceAs (Decidable True)

/-! ## 不変条件 -/

/-- 空いている副 channel は動いていない。 -/
structure EngineInv (s : Mx) : Prop where
  many : 1 < s.cap.strm.length
  running : s.cap.dma.running = s.cap.wanted
  rxEn : s.ssi.rxEn = s.cap.wanted
  stopped : ∀ st ∈ s.cap.strm, st.opened = false → st.go = false

theorem EngineInv.follows {s : Mx} (h : EngineInv s) : EngineFollows s := by
  rw [EngineFollows, h.running, h.rxEn, and_self]

theorem wanted_eq_false_of_closed {c : Cap} (h : c.numOpen = 0) : c.wanted = false := by
  rw [Cap.wanted, List.any_eq_false]
  intro st hst ha
  rw [Strm.active, Cap.numOpen_eq_zero.mp h st hst] at ha
  cases ha

theorem wanted_split {l pre post : List Strm} {st : Strm} (h : l = pre ++ st :: post) :
    l.any Strm.active = ((pre ++ post).any Strm.active || st.active) := by
  rw [h, List.any_append, List.any_cons, List.any_append, Bool.or_assoc, Bool.or_comm st.active]

theorem closed_any {l : List Strm} (h : ∀ st ∈ l, st.opened = false) : l.any Strm.active = false := by
  rw [List.any_eq_false]
  intro st hst ha
  rw [Strm.active, h st hst] at ha
  cases ha

/-- 動いている副 channel に関わらない置き換え。 -/
theorem EngineInv.replace {s : Mx} (h : EngineInv s) {ssi : Ssi} {cap : Cap} {pre post : List Strm} {st st' : Strm}
    (hl : s.cap.strm = pre ++ st :: post) (hl' : cap.strm = pre ++ st' :: post) (hst : st'.active = st.active)
    (hrun : cap.dma.running = s.cap.dma.running) (hrx : ssi.rxEn = s.cap.wanted)
    (hgo : st'.opened = false → st'.go = false) : EngineInv { s with ssi, cap } := by
  have hw : cap.wanted = s.cap.wanted := by
    rw [Cap.wanted, Cap.wanted, wanted_split hl, wanted_split hl', hst]
  refine ⟨?_, ?_, ?_, fun x hx ho => ?_⟩
  · have hlen := h.many
    rw [hl] at hlen
    change 1 < cap.strm.length
    rw [hl']
    simpa using hlen
  · exact hrun.trans (h.running.trans hw.symm)
  · exact hrx.trans hw.symm
  · have hx : x ∈ pre ++ st' :: post := hl' ▸ hx
    have hs : ∀ y ∈ pre ++ st :: post, y.opened = false → y.go = false := hl ▸ h.stopped
    simp only [List.mem_append, List.mem_cons] at hx hs
    rcases hx with hx | rfl | hx
    · exact hs x (.inl hx) ho
    · exact hgo ho
    · exact hs x (.inr (.inr hx)) ho

theorem aquire2_running (c : Cap) (i subchn rate fragSize : Nat) (a b : Bool) :
    (c.aquire2 i subchn rate fragSize a b).1.dma.running = c.dma.running ∧
      ((c.aquire2 i subchn rate fragSize a b).2.1 = true → c.numOpen = 0) := by
  simp only [Cap.aquire2, Cap.openShared]
  split_ifs <;> simp_all [Dma.setupXfer]

/-- rate の判定は、動いている副 channel がなければ受信の有効なことを保つ。 -/
theorem checkRate_rxEn {s ssi : Ssi} {rate : Nat} {busy : Bool} {clock : Option Nat} {w : Bool}
    (hc : s.checkRate rate busy = some (ssi, clock)) (hrx : s.rxEn = w)
    (hw : s.rateLocked = true → rate ≠ s.sampleRate → busy = false → w = false) : ssi.rxEn = w := by
  simp only [Ssi.checkRate] at hc
  split_ifs at hc with hl hr hb
  · cases hc
    exact (hw hl hr (by simpa using hb)).symm
  · cases hc
    exact hrx
  · cases hc
    exact hrx

theorem EngineInv.sameCap {s : Mx} (h : EngineInv s) {ssi : Ssi} {play : Play} (hrx : ssi.rxEn = s.cap.wanted) :
    EngineInv { s with ssi, play } := ⟨h.many, h.running, hrx, h.stopped⟩

/-- trigger の前後で、`i` 番目のほかは変わらない。 -/
theorem trigger_split {s : Mx} {i : Nat} {go : Bool} (ho : s.cap.opened i = true) (hg : Legal s (.captureTrigger2 i go)) :
    ∃ pre st post st', s.cap.strm = pre ++ st :: post ∧ st.opened = true ∧ st.active = (!go) ∧
      s.cap.strm.eraseIdx i = pre ++ post ∧ (captureTrigger2 s i go).mx.cap.strm = pre ++ st' :: post ∧
      st'.opened = true ∧ st'.active = go := by
  obtain ⟨pre, st, post, hst, hl, ho, he, hm⟩ := Cap.opened_split ho
  obtain ⟨st', hst', hgo⟩ := (Option.any_eq_true _ _).mp hg
  cases hst.symm.trans hst'
  refine ⟨pre, st, post, { st with go, log := if go then st.log.restart else st.log }, hl, ho, ?_, he, hm _, ho, ?_⟩
  · have hgo : st.go = !go := by
      cases hs : st.go <;> cases go <;> simp_all
    rw [Strm.active, ho, hgo, Bool.true_and]
  · have ho' : ({ st with go, log := if go then st.log.restart else st.log } : Strm).opened = true := ho
    rw [Strm.active, ho', Bool.true_and]

theorem EngineInv.trigger {s : Mx} (h : EngineInv s) {i : Nat} {go : Bool} (ho : s.cap.opened i = true)
    (hk : EngineKept s (.captureTrigger2 i go)) (hg : Legal s (.captureTrigger2 i go)) :
    EngineInv (captureTrigger2 s i go).mx := by
  obtain ⟨pre, st, post, st', hl, ho, _, he, hl', ho', hactive⟩ := trigger_split ho hg
  have hw : s.cap.wanted = ((pre ++ post).any Strm.active || st.active) := wanted_split hl
  have hw' : (captureTrigger2 s i go).mx.cap.wanted = ((pre ++ post).any Strm.active || go) := by
    rw [Cap.wanted, wanted_split hl', hactive]
  have hlen : 1 < (captureTrigger2 s i go).mx.cap.strm.length := by
    simpa [captureTrigger2] using h.many
  have hstop : ∀ x ∈ (captureTrigger2 s i go).mx.cap.strm, x.opened = false → x.go = false := by
    intro x hx hxo
    have hs : ∀ y ∈ pre ++ st :: post, y.opened = false → y.go = false := hl ▸ h.stopped
    rw [hl'] at hx
    simp only [List.mem_append, List.mem_cons] at hx hs
    rcases hx with hx | rfl | hx
    · exact hs x (.inl hx) hxo
    · rw [ho'] at hxo
      cases hxo
    · exact hs x (.inr (.inr hx)) hxo
  by_cases h1 : s.cap.numOpen = 1
  · have hothers : (pre ++ post).any Strm.active = false := closed_any (others_closed hl ho h1)
    rw [hothers, Bool.false_or] at hw'
    refine ⟨hlen, ?_, ?_, hstop⟩
    · rw [hw']
      cases go <;> simp [captureTrigger2, h1, Dma.xferStart, Dma.xferAbort]
    · rw [hw']
      simp [captureTrigger2, h1]
  · have hothers : (pre ++ post).any Strm.active = true := he ▸ hk.resolve_left h1
    rw [hothers, Bool.true_or] at hw hw'
    refine ⟨hlen, ?_, ?_, hstop⟩
    · rw [hw', ← hw, ← h.running]
      simp [captureTrigger2, h1]
    · rw [hw', ← hw, ← h.rxEn]
      simp [captureTrigger2, h1]

theorem EngineInv.run {s : Mx} (h : EngineInv s) {op : Op} (he : Enabled s op) (hg : Legal s op) (hk : EngineKept s op) :
    EngineInv (run s op).mx ∧ ((run s op).shared = true → s.cap.dma.running = false) := by
  cases op with
  | playbackAquire subchn rate allocOk =>
      simp only [Deva.run, playbackAquire]
      split
      · exact ⟨h, nofun⟩
      · split
        · exact ⟨h, nofun⟩
        · rename_i ssi clock hc
          have hrx : ssi.rxEn = s.cap.wanted :=
            checkRate_rxEn hc h.rxEn fun _ _ hb => wanted_eq_false_of_closed (by simpa using hb)
          split_ifs
          · exact ⟨h.sameCap hrx, nofun⟩
          · exact ⟨h.sameCap hrx, nofun⟩
  | playbackRelease => exact ⟨h.sameCap h.rxEn, nofun⟩
  | captureAquire subchn rate allocOk => exact absurd he (Nat.ne_of_gt h.many)
  | captureRelease => exact absurd he.1 (Nat.ne_of_gt h.many)
  | captureAquire2 subchn rate intSize allocOk sharedOk =>
      simp only [Deva.run, captureAquire2]
      split
      · exact ⟨h, nofun⟩
      · rename_i i hi
        split
        · exact ⟨h, nofun⟩
        · rename_i ssi clock hc
          have hrx : ssi.rxEn = s.cap.wanted :=
            checkRate_rxEn hc h.rxEn fun hl hr hb => hk hl hr hb (free_numOpen hi)
          obtain ⟨hrun, hfst⟩ := aquire2_running s.cap i subchn rate (fragDmabufSizer intSize) allocOk sharedOk
          refine ⟨?_, fun hs => ?_⟩
          · obtain ⟨pre, st, post, hl, ho, hm⟩ := free_split hi
            have hgo : st.go = false := h.stopped st (by rw [hl]; simp) ho
            rcases aquire2_strm s.cap i subchn rate (fragDmabufSizer intSize) allocOk sharedOk with hs | hs
            · exact h.replace hl (hs.trans hl) rfl hrun hrx (fun _ => hgo)
            · refine h.replace hl (hs.trans (hm _)) ?_ hrun hrx fun hf => absurd hf (by simp)
              rw [Strm.active, Strm.active, ho, Bool.false_and, acquire_opened, Bool.true_and]
              exact hgo
          · exact h.running.trans (wanted_eq_false_of_closed (hfst hs))
  | captureRelease2 i =>
      obtain ⟨pre, st, post, hst, hl, ho, -, hm⟩ := Cap.opened_split he.2
      obtain ⟨st', hst', hgo⟩ := (Option.any_eq_true _ _).mp hg
      cases hst.symm.trans hst'
      have hgo : st.go = false := by simpa using hgo
      have hinv : EngineInv (captureRelease2 s i).mx := by
        refine h.replace hl (hm _) ?_ rfl h.rxEn fun _ => hgo
        rw [Strm.active, Strm.active, hgo, Bool.and_false, Bool.and_false]
      refine ⟨hinv, fun hs => ?_⟩
      exact hinv.running.trans (wanted_eq_false_of_closed (of_decide_eq_true hs))
  | captureTrigger2 i go => exact ⟨h.trigger he.2 hk hg, nofun⟩
  | complete bytes => exact hg.elim
  | pulse => exact hg.elim

theorem EngineInv.start {n : Nat} (hn : 1 < n) (ssi : Ssi) (mem : Mem) : EngineInv (init ssi n mem) := by
  have hw : (init ssi n mem).cap.wanted = false := by
    refine closed_any fun st hst => ?_
    rw [(List.mem_replicate.mp hst).2]
    rfl
  refine ⟨by simpa [init] using hn, hw.symm, hw.symm, fun st hst _ => ?_⟩
  rw [(List.mem_replicate.mp hst).2]
  rfl

theorem EngineInv.reaches {n : Nat} (hn : 1 < n) {ssi : Ssi} {mem : Mem} {s : Mx}
    (h : Reaches step (fun s op => Legal s op ∧ EngineKept s op) (init ssi n mem) s) : EngineInv s := by
  refine h.invariant (P := EngineInv) (.start hn ssi mem) fun u op v hu hk hs => ?_
  simp only [step] at hs
  split_ifs at hs with he
  cases hs
  exact (hu.run he hk.1 hk.2).1

/-! ## DMA の動く間 -/

theorem engineKept_of_follows {s : Mx} (h : EngineInv s) {op : Op} (he : Enabled s op) (hg : Legal s op)
    (hf : EngineFollows (run s op).mx) : EngineKept s op := by
  cases op with
  | captureTrigger2 i go =>
      by_contra hn
      obtain ⟨h1, hothers⟩ := not_or.mp hn
      obtain ⟨pre, st, post, st', hl, _, ha, heq, hl', _, ha'⟩ := trigger_split he.2 hg
      rw [heq, Bool.not_eq_true] at hothers
      have hw : s.cap.wanted = !go := by
        rw [Cap.wanted, wanted_split hl, hothers, Bool.false_or, ha]
      have hw' : (captureTrigger2 s i go).mx.cap.wanted = go := by
        rw [Cap.wanted, wanted_split hl', hothers, Bool.false_or, ha']
      have hrun : (captureTrigger2 s i go).mx.cap.dma.running = !go ∧ (captureTrigger2 s i go).mx.ssi.rxEn = !go := by
        rw [← hw]
        simp [captureTrigger2, h1, h.running, h.rxEn]
      simp only [EngineFollows, run, hrun.1, hrun.2, hw'] at hf
      cases go <;> simp at hf
  | captureAquire2 subchn rate intSize allocOk sharedOk =>
      intro hl hr hp hfree
      obtain ⟨i, hfind⟩ := findIdx?_free hfree
      by_contra hw
      have hrun : (run s (.captureAquire2 subchn rate intSize allocOk sharedOk)).mx =
          { s with
            ssi := s.ssi.setClockRate rate
            cap := (s.cap.aquire2 i subchn rate (fragDmabufSizer intSize) allocOk sharedOk).1 } := by
        simp only [run, captureAquire2, hfind, hp, checkRate_switch hl hr]
      rw [hrun, EngineFollows] at hf
      obtain ⟨pre, st, post, hsl, ho, hm⟩ := free_split hfind
      have hwanted : (s.cap.aquire2 i subchn rate (fragDmabufSizer intSize) allocOk sharedOk).1.wanted = true := by
        have hw : (pre ++ post).any Strm.active = true := by
          rw [Bool.not_eq_false, Cap.wanted, wanted_split hsl, Strm.active, ho, Bool.false_and, Bool.or_false] at hw
          exact hw
        rcases aquire2_strm s.cap i subchn rate (fragDmabufSizer intSize) allocOk sharedOk with hs | hs
        · rw [Cap.wanted, wanted_split (hs.trans hsl), hw, Bool.true_or]
        · rw [Cap.wanted, wanted_split (hs.trans (hm _)), hw, Bool.true_or]
      exact Bool.false_ne_true (hf.mpr hwanted).2
  | playbackAquire => trivial
  | playbackRelease => trivial
  | captureAquire => trivial
  | captureRelease => trivial
  | captureRelease2 => trivial
  | complete => trivial
  | pulse => trivial

/-- 条件を満たす呼び出しだけの実行では、DMA はちょうど必要な間だけ動き、動いている間に共有 buffer は替わらない。
次の呼び出しの後もそうであるのは、その呼び出しが条件を満たすときと同じである。 -/
theorem capture_engine_follows {n : Nat} (hn : 1 < n) {ssi : Ssi} {mem : Mem} {s : Mx}
    (h : Reaches step (fun s op => Legal s op ∧ EngineKept s op) (init ssi n mem) s) :
    EngineFollows s ∧ ∀ op, Enabled s op → Legal s op →
      (EngineFollows (run s op).mx ∧ ((run s op).shared = true → s.cap.dma.running = false) ↔ EngineKept s op) := by
  have hinv := EngineInv.reaches hn h
  refine ⟨hinv.follows, fun op he hg => ⟨fun hf => engineKept_of_follows hinv he hg hf.1, fun hk => ?_⟩⟩
  obtain ⟨hrun, hshared⟩ := hinv.run he hg hk
  exact ⟨hrun.follows, hshared⟩

/-- rate の一つしかない設定。 -/
def fixedSsi : Ssi := ⟨true, 48000, 48000, 48000, true, false, false⟩

theorem capture_engine_follows_run :
    ∃ s, Reaches step (fun s op => Legal s op ∧ EngineKept s op) (init fixedSsi 2 fun _ => 0) s ∧ s.cap.dma.running = true ∧
      EngineFollows s := by
  obtain ⟨s, hs, hp⟩ := (Option.any_eq_true _ _).mp (by decide :
    (runAll step (fun s op => Legal s op ∧ EngineKept s op)
      [.captureAquire2 1 48000 64 true true, .captureTrigger2 0 true, .captureAquire2 2 48000 64 true true,
        .captureTrigger2 1 true, .captureTrigger2 0 false]
      (init fixedSsi 2 fun _ => 0)).any (fun s => s.cap.dma.running) = true)
  exact ⟨s, runAll_reaches hs, hp, (capture_engine_follows (by decide) (runAll_reaches hs)).1⟩

/-- 二つを取得してから一つ目を go にすると、DMA は始まらない。 -/
theorem capture_engine_silent :
    ¬∀ (n : Nat) (ssi : Ssi) (mem : Mem) (s : Mx), 1 < n → Reaches step Legal (init ssi n mem) s → EngineFollows s := by
  intro hall
  obtain ⟨s, hs, hp⟩ := (Option.any_eq_true _ _).mp (by decide :
    (runAll step Legal [.captureAquire2 1 48000 64 true true, .captureAquire2 2 48000 64 true true, .captureTrigger2 0 true]
      (init fixedSsi 2 fun _ => 0)).any (fun s => s.cap.wanted && !s.cap.dma.running) = true)
  obtain ⟨hw, hr⟩ := Bool.and_eq_true_iff.mp hp
  have h := ((hall _ _ _ s (by decide) (runAll_reaches hs)).mpr hw).1
  rw [h] at hr
  cases hr

end Imx6Bsp.Deva
