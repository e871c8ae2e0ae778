import Imx6Bsp.Deva.Lemmas.Mxssi

/-!
# rate の固定

clock を持つ側で rate を選べる設定では、再生と録音は同じ rate で動く。取得の関数は反対側の使用中だけを見るので、
録音が複数あるときは、先に取得された録音の rate を後の録音の取得が変えてしまう。
-/

namespace Imx6Bsp.Deva

open Imx6Bsp.Lib

/-- 録音を取得するときに clock を変えるのは、録音が一つも取得されていないときに限る。 -/
def KeepsRate (s : Mx) : Op → Prop
  | .captureAquire2 _ rate _ _ _ =>
      rate ≠ s.ssi.sampleRate → s.play.aquired = false → s.cap.numOpen = 0 ∨ s.cap.numOpen = s.cap.strm.length
  | _ => True

instance decidableKeepsRate (s : Mx) : (op : Op) → Decidable (KeepsRate s op)
  | .captureAquire2 .. => inferInstanceAs (Decidable (_ → _))
  | .playbackAquire .. => inferInstanceAs (Decidable True)
  | .playbackRelease => inferInstanceAs (Decidable True)
  | .captureAquire .. => inferInstanceAs (Decidable True)
  | .captureRelease => inferInstanceAs (Decidable True)
  | .captureRelease2 _ => inferInstanceAs (Decidable True)
  | .captureTrigger2 .. => inferInstanceAs (Decidable True)
  | .complete _ => inferInstanceAs (Decidable True)
  | .pulse => inferInstanceAs (Decidable True)

/-- 取得された流れは、どれも今の rate で取得された。 -/
structure RateLocked (s : Mx) : Prop where
  play : s.play.pcmSubchn ≠ none → s.play.rate = s.ssi.sampleRate
  cap : ∀ st ∈ s.cap.strm, st.opened = true → st.rate = s.ssi.sampleRate

/-- 取得された流れはない。 -/
def Idle (s : Mx) : Prop := s.play.pcmSubchn = none ∧ s.cap.numOpen = 0

/-! ## 不変条件 -/

structure RateInv (s : Mx) : Prop extends RateLocked s where
  locked : s.ssi.rateLocked = true
  aquired : s.play.aquired = s.play.pcmSubchn.isSome

theorem RateInv.idle_play {s : Mx} (h : RateInv s) (hp : s.play.aquired = false) : s.play.pcmSubchn = none := by
  rw [h.aquired] at hp
  simpa using hp

/-- 反対側が空いているときに何も取得されていなければ、判定を通った後の rate は求めたものになる。 -/
theorem RateInv.checkRate {s : Mx} (h : RateInv s) {rate : Nat} {busy : Bool} {ssi : Ssi} {clock : Option Nat}
    (hc : s.ssi.checkRate rate busy = some (ssi, clock)) (hb : busy = false → rate ≠ s.ssi.sampleRate → Idle s) :
    RateInv { s with ssi } ∧ ssi.sampleRate = rate ∧ (clock ≠ none → Idle s) := by
  rcases checkRate_some hc with ⟨rfl, rfl, hr⟩ | ⟨rfl, rfl, hbusy, hr⟩
  · exact ⟨h, (hr h.locked).symm, fun hn => absurd rfl hn⟩
  · obtain ⟨hplay, hcap⟩ := hb hbusy hr
    refine ⟨⟨⟨fun hp => absurd hplay hp, fun st hst ho => ?_⟩, h.locked, h.aquired⟩, rfl, fun _ => ⟨hplay, hcap⟩⟩
    rw [Cap.numOpen_eq_zero.mp hcap st hst] at ho
    cases ho

/-- 副 channel の一つを置き換える。 -/
theorem RateInv.replace {s : Mx} (h : RateInv s) {cap : Cap} {pre post : List Strm} {st st' : Strm}
    (hl : s.cap.strm = pre ++ st :: post) (hl' : cap.strm = pre ++ st' :: post)
    (hr : st'.opened = true → st'.rate = s.ssi.sampleRate) : RateInv { s with cap } := by
  refine ⟨⟨h.play, fun x hx ho => ?_⟩, h.locked, h.aquired⟩
  have hx : x ∈ pre ++ st' :: post := hl' ▸ hx
  have hcap : ∀ y ∈ pre ++ st :: post, y.opened = true → y.rate = s.ssi.sampleRate := hl ▸ h.cap
  simp only [List.mem_append, List.mem_cons] at hx hcap
  rcases hx with hx | rfl | hx
  · exact hcap x (.inl hx) ho
  · exact hr ho
  · exact hcap x (.inr (.inr hx)) ho

/-- 副 channel の列は、rate と `pcm_subchn` の変わらない写しになる。 -/
theorem RateInv.delivered {s : Mx} (h : RateInv s) {cap : Cap} {k : Nat}
    (hl : cap.strm = s.cap.strm ∨ ∃ src, cap.strm = s.cap.strm.map (·.deliver k src)) : RateInv { s with cap } := by
  refine ⟨⟨h.play, fun x hx ho => ?_⟩, h.locked, h.aquired⟩
  rcases hl with hl | ⟨src, hl⟩
  · exact h.cap x (hl ▸ hx) ho
  · rw [show ({ s with cap } : Mx).cap.strm = _ from hl] at hx
    obtain ⟨st, hst, rfl⟩ := List.mem_map.mp hx
    obtain ⟨hp, hr, _⟩ := deliver_frame st k src
    rw [hr]
    refine h.cap st hst ?_
    rw [← ho, Strm.opened, Strm.opened, hp]

/-- 条件を満たす呼び出しは rate を守り、clock を変えるのは何も取得されていないときだけである。 -/
theorem RateInv.run {s : Mx} (h : RateInv s) {op : Op} (he : Enabled s op) (hk : KeepsRate s op) :
    RateInv (run s op).mx ∧ ((run s op).clock ≠ none → Idle s) := by
  cases op with
  | playbackAquire subchn rate allocOk =>
      simp only [Deva.run, playbackAquire]
      split
      · exact ⟨h, fun hn => absurd rfl hn⟩
      · rename_i hp
        have hp : s.play.pcmSubchn = none := by simpa using hp
        split
        · exact ⟨h, fun hn => absurd rfl hn⟩
        · rename_i ssi clock hc
          have hb : decide (s.cap.numOpen > 0) = false → rate ≠ s.ssi.sampleRate → Idle s :=
            fun hb _ => ⟨hp, by simpa using hb⟩
          obtain ⟨hinv, hrate, hidle⟩ := h.checkRate hc hb
          split_ifs
          · exact ⟨⟨⟨fun _ => hrate.symm, hinv.cap⟩, hinv.locked, rfl⟩, hidle⟩
          · exact ⟨hinv, hidle⟩
  | playbackRelease =>
      exact ⟨⟨⟨fun hp => absurd rfl hp, h.cap⟩, h.locked, rfl⟩, fun hn => absurd rfl hn⟩
  | captureAquire subchn rate allocOk =>
      simp only [Deva.run, captureAquire]
      split
      · exact ⟨h, fun hn => absurd rfl hn⟩
      · rename_i st rest hl
        split
        · exact ⟨h, fun hn => absurd rfl hn⟩
        · rename_i ho
          split
          · exact ⟨h, fun hn => absurd rfl hn⟩
          · rename_i ssi clock hc
            have hrest : rest = [] := by
              have hlen : s.cap.strm.length = 1 := he
              rw [hl] at hlen
              simpa using hlen
            have hopen : s.cap.numOpen = 0 := by
              rw [Cap.numOpen, hl, hrest]
              simp [ho]
            obtain ⟨hinv, hrate, hidle⟩ := h.checkRate hc fun hb _ => ⟨h.idle_play hb, hopen⟩
            split_ifs
            · exact ⟨hinv.replace (show _ = [] ++ st :: rest from hl) rfl fun _ => hrate.symm, hidle⟩
            · exact ⟨hinv, hidle⟩
  | captureRelease =>
      simp only [Deva.run, captureRelease]
      split
      · exact ⟨h, fun hn => absurd rfl hn⟩
      · rename_i st rest hl
        exact ⟨h.replace (show _ = [] ++ st :: rest from hl) rfl fun ho => absurd ho Bool.false_ne_true, fun hn => absurd rfl hn⟩
  | captureAquire2 subchn rate intSize allocOk sharedOk =>
      simp only [Deva.run, captureAquire2]
      split
      · exact ⟨h, fun hn => absurd rfl hn⟩
      · rename_i i hi
        split
        · exact ⟨h, fun hn => absurd rfl hn⟩
        · rename_i ssi clock hc
          have hb : s.play.aquired = false → rate ≠ s.ssi.sampleRate → Idle s :=
            fun hb hr => ⟨h.idle_play hb, (hk hr hb).resolve_right (free_numOpen hi)⟩
          obtain ⟨hinv, hrate, hidle⟩ := h.checkRate hc hb
          obtain ⟨pre, st, post, hl, _, hm⟩ := free_split hi
          refine ⟨?_, hidle⟩
          rcases aquire2_strm s.cap i subchn rate (fragDmabufSizer intSize) allocOk sharedOk with hs | hs
          · exact hinv.delivered (k := 0) (.inl hs)
          · exact hinv.replace hl (hs.trans (hm _)) fun _ => hrate.symm
  | captureRelease2 i =>
      obtain ⟨pre, st, post, _, hl, _, _, hm⟩ := Cap.opened_split he.2
      exact ⟨h.replace hl (hm _) fun ho => absurd ho Bool.false_ne_true, fun hn => absurd rfl hn⟩
  | captureTrigger2 i go =>
      obtain ⟨pre, st, post, _, hl, ho, _, hm⟩ := Cap.opened_split he.2
      have hst : st.rate = s.ssi.sampleRate := h.cap st (by rw [hl]; simp) ho
      have hssi : RateInv { s with ssi := if s.cap.numOpen = 1 then { s.ssi with rxEn := go } else s.ssi } := by
        split_ifs
        · exact ⟨⟨h.play, h.cap⟩, h.locked, h.aquired⟩
        · exact h
      refine ⟨hssi.replace hl (hm _) fun _ => ?_, fun hn => absurd rfl hn⟩
      split_ifs <;> exact hst
  | complete bytes => exact ⟨⟨⟨h.play, h.cap⟩, h.locked, h.aquired⟩, fun hn => absurd rfl hn⟩
  | pulse =>
      have hs := pulseHdlr_strm s.cap s.hist.handled.length
      have hinv : RateInv { s with cap := { s.cap.pulseHdlr s.hist.handled.length with pulses := s.cap.pulses - 1 } } :=
        h.delivered hs
      exact ⟨⟨⟨hinv.play, hinv.cap⟩, hinv.locked, hinv.aquired⟩, fun hn => absurd rfl hn⟩

theorem RateInv.start {ssi : Ssi} (hl : ssi.rateLocked = true) (n : Nat) (mem : Mem) : RateInv (init ssi n mem) := by
  refine ⟨⟨fun hp => absurd rfl hp, fun st hst ho => ?_⟩, hl, rfl⟩
  rw [(List.mem_replicate.mp hst).2] at ho
  cases ho

theorem RateInv.reaches {ssi : Ssi} (hl : ssi.rateLocked = true) {n : Nat} {mem : Mem} {s : Mx}
    (h : Reaches step KeepsRate (init ssi n mem) s) : RateInv s := by
  refine h.invariant (P := RateInv) (.start hl n mem) fun u op v hu hk hs => ?_
  simp only [step] at hs
  split_ifs at hs with he
  cases hs
  exact (hu.run he hk).1

/-! ## rate の固定 -/

/-- 条件を破る取得は、取得済みの録音の clock を変える。 -/
theorem keepsRate_of_idle {s : Mx} (h : RateInv s) {op : Op} (hi : (run s op).clock ≠ none → Idle s) : KeepsRate s op := by
  cases op with
  | captureAquire2 subchn rate intSize allocOk sharedOk =>
      intro hr hp
      by_contra hn
      obtain ⟨hne, hfree⟩ := not_or.mp hn
      obtain ⟨i, hfind⟩ := findIdx?_free hfree
      have hclock : (run s (.captureAquire2 subchn rate intSize allocOk sharedOk)).clock = some rate := by
        simp only [run, captureAquire2, hfind, hp, checkRate_switch h.locked hr]
      exact hne (hi (by rw [hclock]; exact Option.some_ne_none rate)).2
  | playbackAquire => trivial
  | playbackRelease => trivial
  | captureAquire => trivial
  | captureRelease => trivial
  | captureRelease2 => trivial
  | captureTrigger2 => trivial
  | complete => trivial
  | pulse => trivial

/-- 条件を満たす呼び出しだけの実行では、どの状態でも rate が守られる。さらに、次の呼び出しが何も取得されていないときにだけ
clock を変えて rate を守るのは、条件を満たすときと同じである。 -/
theorem audio_rate_lock {ssi : Ssi} (hl : ssi.rateLocked = true) {n : Nat} {mem : Mem} {s : Mx}
    (h : Reaches step KeepsRate (init ssi n mem) s) :
    RateLocked s ∧
      ∀ op, Enabled s op → (((run s op).clock ≠ none → Idle s) ∧ RateLocked (run s op).mx ↔ KeepsRate s op) := by
  have hinv := RateInv.reaches hl h
  refine ⟨hinv.toRateLocked, fun op he => ⟨fun hi => keepsRate_of_idle hinv hi.1, fun hk => ?_⟩⟩
  obtain ⟨hrun, hidle⟩ := hinv.run he hk
  exact ⟨hidle, hrun.toRateLocked⟩

/-- 8 kHz で始まる、rate を選べる設定。 -/
def sampleSsi : Ssi := ⟨true, 8000, 48000, 8000, true, false, false⟩

theorem audio_rate_lock_run :
    ∃ s, Reaches step KeepsRate (init sampleSsi 2 fun _ => 0) s ∧ s.cap.numOpen = 2 ∧ RateLocked s := by
  obtain ⟨s, hs, hp⟩ := (Option.any_eq_true _ _).mp (by decide :
    (runAll step KeepsRate [.captureAquire2 1 48000 64 true true, .captureAquire2 2 48000 64 true true]
      (init sampleSsi 2 fun _ => 0)).any (fun s => s.cap.numOpen == 2) = true)
  exact ⟨s, runAll_reaches hs, beq_iff_eq.mp hp, (audio_rate_lock rfl (runAll_reaches hs)).1⟩

/-- 二つ目の録音の取得が、一つ目の rate を変える。 -/
theorem audio_rate_switched :
    ¬∀ (ssi : Ssi) (n : Nat) (mem : Mem) (s : Mx), ssi.rateLocked = true →
      Reaches step (fun _ _ => True) (init ssi n mem) s → RateLocked s := by
  intro hall
  obtain ⟨s, hs, hp⟩ := (Option.any_eq_true _ _).mp (by decide :
    (runAll step (fun _ _ => True) [.captureAquire2 1 48000 64 true true, .captureAquire2 2 8000 64 true true]
      (init sampleSsi 2 fun _ => 0)).any
        (fun s => s.ssi.sampleRate == 8000 && s.cap.strm.any fun st => st.opened && st.rate == 48000) = true)
  obtain ⟨hr, hst⟩ := Bool.and_eq_true_iff.mp hp
  obtain ⟨st, hst, ho⟩ := List.any_eq_true.mp hst
  obtain ⟨ho, hrate⟩ := Bool.and_eq_true_iff.mp ho
  have h := (hall _ _ _ s rfl (runAll_reaches hs)).cap st hst ho
  rw [beq_iff_eq.mp hr, beq_iff_eq.mp hrate] at h
  cases h

end Imx6Bsp.Deva
