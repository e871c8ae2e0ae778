import Imx6Bsp.Sdma.Theorems.Command

/-!
# 時間切れのない実行

時間切れがなければ、完了の印は起動、engine、状態のビット、handler、pulse のどれか一つにあり、呼び出しが終わるときには残らない。
-/

namespace Imx6Bsp.Sdma.Command

open Imx6Bsp.Lib

variable {n : Nat} {proc : Nat → Fin n} {s t : State n} {i : Nat}

/-- 呼び出しは時間切れにならない。 -/
def NoTimeout (_ : State n) : Op n → Prop
  | .timeout _ => False
  | _ => True

/-- 完了の印のある場所。0 は起動、1 は engine、2 は状態のビット、3 と 4 は handler、5 は pulse で、6 ならどこにもない。 -/
structure Stage (s : State n) (p : Fin n) (k : Nat) : Prop where
  start : s.start = decide (k = 0)
  engine : s.engine.isSome = decide (k = 1)
  intr : s.intr = decide (k = 2 ∨ k = 3)
  handler : ∀ q, s.handler q = if q = p ∧ k = 3 then .seen else if q = p ∧ k = 4 then .cleared else .idle
  pulses : ∀ q, s.pulses q = if q = p ∧ k = 5 then 1 else 0

/-- `event_array` に event がある間。 -/
def Call.attaching : Call → Bool
  | .attached | .cleared | .half | .written | .waiting | .received _ | .unmasked _ => true
  | _ => false

/-- `channel_mask` に channel がある間。 -/
def Call.masking : Call → Bool
  | .masked | .attached | .cleared | .half | .written | .waiting | .received _ => true
  | _ => false

/-- 時間切れがなければ、完了の印は待っている呼び出しのものが一つあるだけである。 -/
structure Tidy (proc : Nat → Fin n) (s : State n) : Prop where
  active : ∀ i, (s.call i).active = true → s.mutex = some i
  held : ∀ i, s.mutex = some i → (s.call i).active = true
  free : s.mutex = none → ∀ p, Stage s p 6
  stage : ∀ i, s.mutex = some i → ∃ k, Stage s (proc i) k ∧ (k ≤ 5 ∧ s.call i = .waiting ∨ k = 6 ∧ s.call i ≠ .waiting)
  mask : ∀ q, s.mask q = true → ∃ i, s.mutex = some i ∧ proc i = q ∧ (s.call i).masking = true
  event : ∀ i, s.mutex = some i → (s.call i).attaching = true → s.event (proc i) = true
  done : ∀ i, s.mutex = some i → s.call i = .half ∨ s.call i = .written ∨ s.start = true → s.bd.done = true

/-- どこにも印がないことは、どの process から見ても同じである。 -/
theorem Stage.rest {p q : Fin n} (h : Stage s p 6) : Stage s q 6 :=
  ⟨h.start, h.engine, h.intr, fun r => by simpa using h.handler r, fun r => by simpa using h.pulses r⟩

/-- `i` の手順を進めた状態。 -/
theorem Tidy.move (h : Tidy proc s) (hi : s.mutex = some i) {c : Call} (hcall : t.call = Function.update s.call i c)
    (hmutex : t.mutex = some i) (hactive : c.active = true)
    (hstage : ∃ k, Stage t (proc i) k ∧ (k ≤ 5 ∧ c = .waiting ∨ k = 6 ∧ c ≠ .waiting))
    (hmask : ∀ q, t.mask q = true → q = proc i ∧ c.masking = true) (hevent : c.attaching = true → t.event (proc i) = true)
    (hdone : c = .half ∨ c = .written ∨ t.start = true → t.bd.done = true) : Tidy proc t := by
  have hself : t.call i = c := by rw [hcall, Function.update_self]
  refine ⟨fun j hj => ?_, fun j hj => ?_, fun hn => ?_, fun j hj => ?_, fun q hq => ?_, fun j hj => ?_, fun j hj => ?_⟩
  · rcases eq_or_ne j i with rfl | hne
    · exact hmutex
    · rw [hcall, Function.update_of_ne hne] at hj
      exact absurd (Option.some.inj (hi.symm.trans (h.active j hj))) hne.symm
  · cases hmutex.symm.trans hj
    rw [hself]
    exact hactive
  · cases hmutex.symm.trans hn
  · cases hmutex.symm.trans hj
    rw [hself]
    exact hstage
  · obtain ⟨rfl, hc⟩ := hmask q hq
    exact ⟨i, hmutex, rfl, by rw [hself]; exact hc⟩
  · cases hmutex.symm.trans hj
    rw [hself]
    exact hevent
  · cases hmutex.symm.trans hj
    rw [hself]
    exact hdone

/-- 呼び出しの手順のほかの変化。 -/
theorem Tidy.environment (h : Tidy proc s) (hcall : t.call = s.call) (hmutex : t.mutex = s.mutex) (hmask : t.mask = s.mask)
    (hevent : t.event = s.event) (hfree : s.mutex = none → ∀ p, Stage t p 6)
    (hstage : ∀ i, s.mutex = some i →
      ∃ k, Stage t (proc i) k ∧ (k ≤ 5 ∧ s.call i = .waiting ∨ k = 6 ∧ s.call i ≠ .waiting))
    (hdone : ∀ i, s.mutex = some i → s.call i = .half ∨ s.call i = .written ∨ t.start = true → t.bd.done = true) :
    Tidy proc t := by
  refine ⟨?_, ?_, ?_, ?_, ?_, ?_, ?_⟩
  · rw [hcall, hmutex]
    exact h.active
  · rw [hcall, hmutex]
    exact h.held
  · rw [hmutex]
    exact hfree
  · rw [hcall, hmutex]
    exact hstage
  · rw [hcall, hmutex, hmask]
    exact h.mask
  · rw [hcall, hmutex, hevent]
    exact h.event
  · rw [hcall, hmutex]
    exact hdone

/-- `mutex` を持たない process の mask は消えている。 -/
theorem Tidy.mask_eq (h : Tidy proc s) (hi : s.mutex = some i) {q : Fin n} (hq : s.mask q = true) :
    q = proc i ∧ (s.call i).masking = true := by
  obtain ⟨j, hj, rfl, hc⟩ := h.mask q hq
  cases hi.symm.trans hj
  exact ⟨rfl, hc⟩

/-- 待っていない間は、どこにも印がない。 -/
theorem Tidy.rest (h : Tidy proc s) (hi : s.mutex = some i) (hw : s.call i ≠ .waiting) : Stage s (proc i) 6 := by
  obtain ⟨k, hk, ⟨_, hc⟩ | ⟨rfl, _⟩⟩ := h.stage i hi
  · exact absurd hc hw
  · exact hk

theorem Tidy.lock (h : Tidy proc s) (he : Enabled proc s (.lock i)) : Tidy proc (run proc s (.lock i)) := by
  obtain ⟨hidle, hfree⟩ := he
  have hrest := h.free hfree
  have hself : (run proc s (.lock i)).call i = .locked := Function.update_self ..
  refine ⟨fun j hj => ?_, fun j hj => ?_, nofun, fun j hj => ?_, fun q hq => ?_, fun j hj hc => ?_, fun j hj hc => ?_⟩
  · change (Function.update s.call i .locked j).active = true at hj
    rcases eq_or_ne j i with rfl | hne
    · rfl
    · rw [Function.update_of_ne hne] at hj
      cases (h.active j hj).symm.trans hfree
  · cases hj
    rw [hself]
    rfl
  · cases hj
    have hp := hrest (proc i)
    exact ⟨6, ⟨hp.start, hp.engine, hp.intr, hp.handler, hp.pulses⟩, .inr ⟨rfl, by rw [hself]; exact nofun⟩⟩
  · obtain ⟨j, hj, _⟩ := h.mask q hq
    cases hj.symm.trans hfree
  · cases hj
    rw [hself] at hc
    cases hc
  · cases hj
    rw [hself] at hc
    rcases hc with hc | hc | hc
    · cases hc
    · cases hc
    · cases (hrest (proc i)).start.symm.trans hc

/-- 印のない間の手順。 -/
theorem Tidy.quiet (h : Tidy proc s) (hi : s.mutex = some i) {c : Call} (hrest : Stage s (proc i) 6)
    (hcall : t.call = Function.update s.call i c) (hmutex : t.mutex = some i) (hactive : c.active = true) (hc : c ≠ .waiting)
    (hmask : ∀ q, t.mask q = true → q = proc i ∧ c.masking = true) (hevent : c.attaching = true → t.event (proc i) = true)
    (hsame : t.start = s.start ∧ t.engine = s.engine ∧ t.intr = s.intr ∧ t.handler = s.handler ∧ t.pulses = s.pulses)
    (hdone : c = .half ∨ c = .written → t.bd.done = true) : Tidy proc t := by
  obtain ⟨hstart, hengine, hintr, hhandler, hpulses⟩ := hsame
  refine h.move hi hcall hmutex hactive ⟨6, ⟨?_, ?_, ?_, ?_, ?_⟩, .inr ⟨rfl, hc⟩⟩ hmask hevent fun hd => ?_
  · rw [hstart]
    exact hrest.start
  · rw [hengine]
    exact hrest.engine
  · rw [hintr]
    exact hrest.intr
  · rw [hhandler]
    exact hrest.handler
  · rw [hpulses]
    exact hrest.pulses
  · rcases hd with hd | hd | hd
    · exact hdone (.inl hd)
    · exact hdone (.inr hd)
    · cases hrest.start.symm.trans (hstart.symm.trans hd)

theorem Tidy.advance (h : Tidy proc s) (he : Enabled proc s (.advance i)) : Tidy proc (run proc s (.advance i)) := by
  obtain ⟨hactive, hwait⟩ := he
  have hi := h.active i hactive
  have hrest := h.rest hi hwait
  have hmask : ∀ q, s.mask q = true → q = proc i ∧ (s.call i).masking = true := fun q => h.mask_eq hi
  have hevent := h.event i hi
  have hdone := h.done i hi
  have hrun : run proc s (.advance i) = Command.advance s (proc i) i := rfl
  rw [hrun, Command.advance]
  cases hcall : s.call i with
  | idle => rw [hcall] at hactive; cases hactive
  | returned ok => rw [hcall] at hactive; cases hactive
  | waiting => exact absurd hcall hwait
  | locked =>
      rw [hcall] at hmask
      refine h.quiet hi hrest (c := .masked) rfl hi rfl (by decide) (fun q hq => ?_) (fun hc => by cases hc) ⟨rfl, rfl, rfl, rfl, rfl⟩ (by simp)
      change Function.update s.mask (proc i) true q = true at hq
      rcases eq_or_ne q (proc i) with rfl | hne
      · exact ⟨rfl, rfl⟩
      · rw [Function.update_of_ne hne] at hq
        cases (hmask q hq).2
  | masked =>
      rw [hcall] at hmask
      exact h.quiet hi hrest (c := .attached) rfl hi rfl (by decide) hmask (fun _ => Function.update_self ..)
        ⟨rfl, rfl, rfl, rfl, rfl⟩ (by simp)
  | attached =>
      rw [hcall] at hmask hevent
      exact h.quiet hi hrest (c := .cleared) rfl hi rfl (by decide) hmask hevent ⟨rfl, rfl, rfl, rfl, rfl⟩ (by simp)
  | cleared =>
      rw [hcall] at hmask hevent
      exact h.quiet hi hrest (c := .half) rfl hi rfl (by decide) hmask hevent ⟨rfl, rfl, rfl, rfl, rfl⟩ fun _ => rfl
  | half =>
      rw [hcall] at hmask hevent
      exact h.quiet hi hrest (c := .written) rfl hi rfl (by decide) hmask hevent ⟨rfl, rfl, rfl, rfl, rfl⟩ fun _ =>
        hdone (.inl hcall)
  | written =>
      rw [hcall] at hmask hevent
      refine h.move hi (c := .waiting) rfl hi rfl ⟨0, ⟨rfl, hrest.engine, hrest.intr, fun q => ?_, fun q => ?_⟩, .inl ⟨Nat.zero_le _, rfl⟩⟩
        hmask hevent fun _ => hdone (.inr (.inl hcall))
      · exact (hrest.handler q).trans (by simp)
      · exact (hrest.pulses q).trans (by simp)
  | received ok =>
      refine h.quiet hi hrest (c := .unmasked ok) rfl hi rfl (fun hc => by cases hc) (fun q hq => ?_) (fun _ => hevent (by rw [hcall]; rfl))
        ⟨rfl, rfl, rfl, rfl, rfl⟩ (by simp)
      change Function.update s.mask (proc i) false q = true at hq
      rcases eq_or_ne q (proc i) with rfl | hne
      · rw [Function.update_self] at hq
        cases hq
      · rw [Function.update_of_ne hne] at hq
        exact absurd (hmask q hq).1 hne
  | unmasked ok =>
      rw [hcall] at hmask
      refine h.quiet hi hrest (c := .detached ok) rfl hi rfl (fun hc => by cases hc) (fun q hq => ?_) (fun hc => by cases hc)
        ⟨rfl, rfl, rfl, rfl, rfl⟩ (by simp)
      cases (hmask q hq).2
  | detached ok =>
      rw [hcall] at hmask
      refine ⟨fun j hj => ?_, fun j hj => (by cases hj), fun _ p => ?_, fun j hj => (by cases hj), fun q hq => ?_,
        fun j hj => (by cases hj), fun j hj => (by cases hj)⟩
      · change (Function.update s.call i (.returned ok) j).active = true at hj
        rcases eq_or_ne j i with rfl | hne
        · rw [Function.update_self] at hj
          cases hj
        · rw [Function.update_of_ne hne] at hj
          exact absurd (Option.some.inj (hi.symm.trans (h.active j hj))) hne.symm
      · have hp : Stage s p 6 := hrest.rest
        exact ⟨hp.start, hp.engine, hp.intr, hp.handler, hp.pulses⟩
      · cases (hmask q hq).2

theorem Tidy.receive (h : Tidy proc s) (he : Enabled proc s (.receive i)) : Tidy proc (run proc s (.receive i)) := by
  obtain ⟨hwait, hpulse⟩ := he
  have hi := h.active i (by rw [hwait]; rfl)
  obtain ⟨k, hk, hcases⟩ := h.stage i hi
  have hp := hk.pulses (proc i)
  have hk5 : k = 5 := by
    by_contra hne
    rw [if_neg fun hc => hne hc.2] at hp
    omega
  subst hk5
  rw [if_pos ⟨rfl, rfl⟩] at hp
  refine h.move hi rfl hi rfl ⟨6, ⟨hk.start, hk.engine, hk.intr, fun q => ?_, fun q => ?_⟩, .inr ⟨rfl, nofun⟩⟩
    (fun q hq => ⟨(h.mask_eq hi hq).1, rfl⟩) (fun _ => h.event i hi (by rw [hwait]; rfl)) fun hc => ?_
  · exact (hk.handler q).trans (by simp)
  · change Function.update s.pulses (proc i) (s.pulses (proc i) - 1) q = _
    rw [if_neg (by omega)]
    rcases eq_or_ne q (proc i) with rfl | hne
    · rw [Function.update_self, hp]
    · rw [Function.update_of_ne hne, hk.pulses q, if_neg fun hc => hne hc.1]
  · rcases hc with hc | hc | hc
    · cases hc
    · cases hc
    · cases hk.start.symm.trans hc

theorem Tidy.fetch (h : Tidy proc s) (he : Enabled proc s .fetch) : Tidy proc (run proc s .fetch) := by
  have hstart : s.start = true := he.1
  have hdone : ∀ i, s.mutex = some i → s.bd.done = true := fun i hi => h.done i hi (.inr (.inr hstart))
  have hrun : run proc s .fetch = Command.fetch s := rfl
  rw [hrun, Command.fetch]
  rcases Option.eq_none_or_eq_some s.mutex with hm | ⟨i, hm⟩
  · have hs := (h.free hm (proc 0)).start
    rw [hstart] at hs
    cases hs
  · rw [if_pos (hdone i hm)]
    refine h.environment rfl rfl rfl rfl (fun hn => ?_) (fun j hj => ?_) fun _ _ _ => hdone i hm
    · cases hm.symm.trans hn
    · obtain ⟨k, hk, hcases⟩ := h.stage j hj
      have hk0 : k = 0 := of_decide_eq_true (hk.start.symm.trans hstart)
      subst hk0
      refine ⟨1, ⟨rfl, rfl, hk.intr, fun q => ?_, fun q => ?_⟩, .inl ⟨by omega, hcases.elim And.right fun hc => by omega⟩⟩
      · exact (hk.handler q).trans (by simp)
      · exact (hk.pulses q).trans (by simp)

theorem Tidy.finish (h : Tidy proc s) {keep : Bool} (he : Enabled proc s (.finish keep)) :
    Tidy proc (run proc s (.finish keep)) := by
  have hengine : s.engine.isSome = true := he
  refine h.environment rfl rfl rfl rfl (fun hn => ?_) (fun j hj => ?_) fun j hj hc => ?_
  · cases (h.free hn (proc 0)).engine.symm.trans hengine
  · obtain ⟨k, hk, hcases⟩ := h.stage j hj
    have hk1 : k = 1 := of_decide_eq_true (hk.engine.symm.trans hengine)
    subst hk1
    refine ⟨2, ⟨?_, rfl, rfl, fun q => ?_, fun q => ?_⟩, .inl ⟨by omega, hcases.elim And.right fun hc => by omega⟩⟩
    · change (s.start && keep) = false
      rw [hk.start]
      rfl
    · exact (hk.handler q).trans (by simp)
    · exact (hk.pulses q).trans (by simp)
  · obtain ⟨k, hk, hcases⟩ := h.stage j hj
    have hk1 : k = 1 := of_decide_eq_true (hk.engine.symm.trans hengine)
    subst hk1
    have hwait : s.call j = .waiting := hcases.elim And.right fun hc => by omega
    rcases hc with hc | hc | hc
    · cases hwait.symm.trans hc
    · cases hwait.symm.trans hc
    · change (s.start && keep) = true at hc
      rw [hk.start] at hc
      cases hc

/-- handler の一手順は、待っている呼び出しの印を一つ先に進める。 -/
theorem Tidy.handle (h : Tidy proc s) (p : Fin n) : Tidy proc (run proc s (.handle p)) := by
  have hrun : run proc s (.handle p) = Command.handle s p := rfl
  rw [hrun, Command.handle]
  rcases Option.eq_none_or_eq_some s.mutex with hm | ⟨i, hm⟩
  · have hrest := h.free hm p
    have hidle : s.handler p = .idle := (hrest.handler p).trans (by simp)
    have hintr : s.intr = false := hrest.intr
    rw [hidle]
    simp only [hintr, Bool.false_and, Bool.false_eq_true, if_false]
    exact h
  · obtain ⟨k, hk, hcases⟩ := h.stage i hm
    have hp := hk.handler p
    have hstay : ∀ t : State n, t.call = s.call → t.mutex = s.mutex → t.mask = s.mask → t.event = s.event → t.bd = s.bd →
        t.start = s.start → (∃ k', Stage t (proc i) k' ∧ k' ≤ 5) → k ≤ 5 → Tidy proc t := by
      intro t hcall hmutex hmask hevent hbd hstart hstage hle
      obtain ⟨k', hk', hle'⟩ := hstage
      refine h.environment hcall hmutex hmask hevent (fun hn => ?_) (fun j hj => ?_) fun j hj hc => ?_
      · cases hm.symm.trans hn
      · cases hm.symm.trans hj
        exact ⟨k', hk', .inl ⟨hle', hcases.elim And.right fun hc => by omega⟩⟩
      · rw [hbd]
        exact h.done j hj (hstart ▸ hc)
    cases hh : s.handler p with
    | idle =>
        simp only
        split_ifs with hintr
        · obtain ⟨hbit, hmask⟩ := Bool.and_eq_true_iff.mp hintr
          obtain ⟨rfl, _⟩ := h.mask_eq hm hmask
          have hk23 : k = 2 ∨ k = 3 := of_decide_eq_true (hk.intr.symm.trans hbit)
          have hk2 : k = 2 := by
            refine hk23.resolve_right fun hk3 => ?_
            rw [if_pos ⟨rfl, hk3⟩, hh] at hp
            cases hp
          subst hk2
          refine hstay _ rfl rfl rfl rfl rfl rfl ⟨3, ⟨hk.start, hk.engine, hk.intr, fun q => ?_, fun q => ?_⟩, by omega⟩ (by omega)
          · change Function.update s.handler (proc i) .seen q = _
            rcases eq_or_ne q (proc i) with rfl | hne
            · rw [Function.update_self, if_pos ⟨rfl, rfl⟩]
            · rw [Function.update_of_ne hne]
              exact (hk.handler q).trans (by simp [hne])
          · exact (hk.pulses q).trans (by simp)
        · exact h
    | seen =>
        have hk3 : p = proc i ∧ k = 3 := by
          by_contra hne
          rw [if_neg hne, hh] at hp
          split_ifs at hp
        obtain ⟨rfl, rfl⟩ := hk3
        refine hstay _ rfl rfl rfl rfl rfl rfl ⟨4, ⟨hk.start, hk.engine, rfl, fun q => ?_, fun q => ?_⟩, by omega⟩ (by omega)
        · change Function.update s.handler (proc i) .cleared q = _
          rcases eq_or_ne q (proc i) with rfl | hne
          · rw [Function.update_self, if_neg (by omega), if_pos ⟨rfl, rfl⟩]
          · rw [Function.update_of_ne hne]
            exact (hk.handler q).trans (by simp [hne])
        · exact (hk.pulses q).trans (by simp)
    | cleared =>
        have hk4 : p = proc i ∧ k = 4 := by
          by_contra hne
          rw [if_neg hne, hh] at hp
          split_ifs at hp
        obtain ⟨rfl, rfl⟩ := hk4
        have hwait : s.call i = .waiting := hcases.elim And.right fun hc => by omega
        have hevent := h.event i hm (by rw [hwait]; rfl)
        have hpulse : s.pulses (proc i) = 0 := (hk.pulses _).trans (by simp)
        simp only [hevent, if_true]
        refine hstay _ rfl rfl rfl rfl rfl rfl ⟨5, ⟨hk.start, hk.engine, hk.intr, fun q => ?_, fun q => ?_⟩, by omega⟩ (by omega)
        · change Function.update s.handler (proc i) .idle q = _
          rcases eq_or_ne q (proc i) with rfl | hne
          · rw [Function.update_self, if_neg (by omega), if_neg (by omega)]
          · rw [Function.update_of_ne hne]
            exact (hk.handler q).trans (by simp [hne])
        · change Function.update s.pulses (proc i) (s.pulses (proc i) + 1) q = _
          rcases eq_or_ne q (proc i) with rfl | hne
          · rw [Function.update_self, hpulse, if_pos ⟨rfl, rfl⟩]
          · rw [Function.update_of_ne hne]
            exact (hk.pulses q).trans (by simp [hne])

theorem Tidy.init (proc : Nat → Fin n) : Tidy proc (init n) :=
  ⟨fun _ h => absurd h Bool.false_ne_true, nofun, fun _ _ => ⟨rfl, rfl, rfl, fun _ => by simp [Command.init], fun _ => by simp [Command.init]⟩,
    nofun, fun _ h => absurd h Bool.false_ne_true, nofun, nofun⟩

/-- 時間切れがなければ、どの呼び出しも片付いた状態から始まる。 -/
theorem cleanStart_of_noTimeout (h : Reaches (step proc) NoTimeout (init n) s) :
    Reaches (step proc) (CleanStart proc) (init n) s ∧ Tidy proc s := by
  induction h with
  | refl => exact ⟨.refl, .init proc⟩
  | @tail t u op _ hop hs ih =>
      obtain ⟨hreach, htidy⟩ := ih
      have he : Enabled proc t op := by
        by_contra hne
        rw [step, if_neg hne] at hs
        cases hs
      have hu : u = run proc t op := by
        rw [step, if_pos he] at hs
        cases hs
        rfl
      have hclean : CleanStart proc t op := by
        cases op with
        | lock i =>
            have hrest := htidy.free he.2 (proc i)
            refine ⟨hrest.start, ?_, hrest.intr, (hrest.handler _).trans (by simp), (hrest.pulses _).trans (by simp)⟩
            exact Option.not_isSome_iff_eq_none.mp (by rw [hrest.engine]; decide)
        | advance i => trivial
        | receive i => trivial
        | timeout i => trivial
        | fetch => trivial
        | finish keep => trivial
        | handle p => trivial
      refine ⟨.tail hreach hclean hs, ?_⟩
      subst hu
      cases op with
      | lock i => exact htidy.lock he
      | advance i => exact htidy.advance he
      | receive i => exact htidy.receive he
      | timeout i => exact hop.elim
      | fetch => exact htidy.fetch he
      | finish keep => exact htidy.finish he
      | handle p => exact htidy.handle p

end Imx6Bsp.Sdma.Command
