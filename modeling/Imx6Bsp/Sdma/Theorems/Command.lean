import Imx6Bsp.Sdma.Command

/-!
# command の完了

完了は、残り続ける状態のビットと process ごとの表と pulse で知らされ、どれも command を区別しない。呼び出しが片付いた状態から
始まれば、0 を返すのは自分の descriptor が実行された後である。時間切れは、この三つのどれかを次の呼び出しに残す。
-/

namespace Imx6Bsp.Sdma.Command

open Imx6Bsp.Lib

variable {n : Nat} {proc : Nat → Fin n}

/-- 呼び出しは、engine が休み、状態のビットが消え、自分の process の handler が途中でなく、完了の pulse が残っていないときに
始まる。 -/
def CleanStart (proc : Nat → Fin n) (s : State n) : Op n → Prop
  | .lock i => s.start = false ∧ s.engine = none ∧ s.intr = false ∧ s.handler (proc i) = .idle ∧ s.pulses (proc i) = 0
  | _ => True

instance decidableCleanStart (s : State n) : (op : Op n) → Decidable (CleanStart proc s op)
  | .lock _ => inferInstanceAs (Decidable (_ ∧ _))
  | .advance _ => inferInstanceAs (Decidable True)
  | .receive _ => inferInstanceAs (Decidable True)
  | .timeout _ => inferInstanceAs (Decidable True)
  | .fetch => inferInstanceAs (Decidable True)
  | .finish _ => inferInstanceAs (Decidable True)
  | .handle _ => inferInstanceAs (Decidable True)

/-- 決まった返り値。 -/
def Call.result : Call → Option Bool
  | .received ok | .unmasked ok | .detached ok | .returned ok => some ok
  | _ => none

/-- engine を起動した。 -/
def Call.started : Call → Bool
  | .waiting | .received _ | .unmasked _ | .detached _ => true
  | _ => false

/-- descriptor を書き終えた。 -/
def Call.wrote : Call → Bool
  | .written => true
  | c => c.started

/-! ## 不変条件 -/

/-- `mutex` を持つ呼び出し `i` から見て、完了の印はどれも `i` のものである。 -/
structure Holder (proc : Nat → Fin n) (s : State n) (i : Nat) : Prop where
  intr : s.intr = true → some i ∈ s.executed
  handler : s.handler (proc i) ≠ .idle → some i ∈ s.executed
  pulse : s.pulses (proc i) ≠ 0 → some i ∈ s.executed
  engine : ∀ c, s.engine = some c → c = some i
  busy : s.start = true ∨ s.engine ≠ none → (s.call i).started = true
  bd : (s.call i).wrote = true → s.bd.content = some i

structure Inv (proc : Nat → Fin n) (s : State n) : Prop where
  mutex : ∀ i, (s.call i).active = true → s.mutex = some i
  holder : ∀ i, s.mutex = some i → Holder proc s i
  result : ∀ i, (s.call i).result = some true → some i ∈ s.executed

variable {s t : State n} {i : Nat}

/-- `i` の手順を進めた状態。 -/
theorem Inv.setCall (h : Inv proc s) {c : Call} (hcall : t.call = Function.update s.call i c) (hi : s.mutex = some i)
    (hmutex : c.active = true → t.mutex = some i) (hholder : t.mutex = some i ∧ Holder proc t i ∨ t.mutex = none)
    (hexec : t.executed = s.executed) (hresult : c.result = some true → some i ∈ s.executed) : Inv proc t where
  mutex := by
    intro j hj
    rw [hcall] at hj
    rcases eq_or_ne j i with rfl | hne
    · rw [Function.update_self] at hj
      exact hmutex hj
    · rw [Function.update_of_ne hne] at hj
      exact absurd (Option.some.inj (hi.symm.trans (h.mutex j hj))) hne.symm
  holder := by
    intro j hj
    rcases hholder with ⟨hm, hh⟩ | hm
    · cases hm.symm.trans hj
      exact hh
    · rw [hm] at hj
      cases hj
  result := by
    intro j hj
    rw [hcall] at hj
    rw [hexec]
    rcases eq_or_ne j i with rfl | hne
    · rw [Function.update_self] at hj
      exact hresult hj
    · rw [Function.update_of_ne hne] at hj
      exact h.result j hj

/-- 呼び出しの手順のほかの変化。 -/
theorem Inv.environment (h : Inv proc s) (hcall : t.call = s.call) (hmutex : t.mutex = s.mutex)
    (hexec : ∀ c, c ∈ s.executed → c ∈ t.executed) (hholder : ∀ j, s.mutex = some j → Holder proc s j → Holder proc t j) :
    Inv proc t :=
  ⟨fun j hj => hmutex.trans (h.mutex j (hcall ▸ hj)), fun j hj => hholder j (hmutex ▸ hj) (h.holder j (hmutex ▸ hj)),
    fun j hj => hexec _ (h.result j (hcall ▸ hj))⟩

theorem Inv.lock (h : Inv proc s) (he : Enabled proc s (.lock i)) (hc : CleanStart proc s (.lock i)) :
    Inv proc (run proc s (.lock i)) := by
  obtain ⟨hidle, hfree⟩ := he
  obtain ⟨hstart, hengine, hintr, hhandler, hpulses⟩ := hc
  refine ⟨fun j hj => ?_, fun j hj => ?_, fun j hj => ?_⟩
  · change (Function.update s.call i .locked j).active = true at hj
    rcases eq_or_ne j i with rfl | hne
    · rfl
    · rw [Function.update_of_ne hne] at hj
      cases (h.mutex j hj).symm.trans hfree
  · cases hj
    refine ⟨fun hf => ?_, fun hf => absurd hhandler hf, fun hf => absurd hpulses hf, fun c hf => ?_, fun hf => ?_, fun hf => ?_⟩
    · cases hintr.symm.trans hf
    · cases hengine.symm.trans hf
    · rcases hf with hf | hf
      · cases hstart.symm.trans hf
      · exact absurd hengine hf
    · change (Function.update s.call i .locked i).wrote = true at hf
      rw [Function.update_self] at hf
      cases hf
  · change (Function.update s.call i .locked j).result = some true at hj
    rcases eq_or_ne j i with rfl | hne
    · rw [Function.update_self] at hj
      cases hj
    · rw [Function.update_of_ne hne] at hj
      exact h.result j hj

/-- 手順の前後で、完了の印は変わらない。 -/
theorem Holder.advance (h : Holder proc s i) {c : Call} (hcall : t.call i = c) (hintr : t.intr = s.intr)
    (hhandler : t.handler = s.handler) (hpulses : t.pulses = s.pulses) (hengine : t.engine = s.engine)
    (hexec : t.executed = s.executed) (hbusy : t.start = true ∨ s.engine ≠ none → c.started = true)
    (hbd : c.wrote = true → t.bd.content = some i) : Holder proc t i := by
  refine ⟨?_, ?_, ?_, ?_, ?_, ?_⟩
  · rw [hintr, hexec]
    exact h.intr
  · rw [hhandler, hexec]
    exact h.handler
  · rw [hpulses, hexec]
    exact h.pulse
  · rw [hengine]
    exact h.engine
  · rw [hengine, hcall]
    exact hbusy
  · rw [hcall]
    exact hbd

theorem Inv.advance (h : Inv proc s) (he : Enabled proc s (.advance i)) : Inv proc (run proc s (.advance i)) := by
  obtain ⟨hactive, hwait⟩ := he
  have hi := h.mutex i hactive
  have hh := h.holder i hi
  have hbusy := hh.busy
  have hbd := hh.bd
  have hresult := h.result i
  simp only [run, Command.advance]
  cases hcall : s.call i with
  | idle => rw [hcall] at hactive; cases hactive
  | returned ok => rw [hcall] at hactive; cases hactive
  | waiting => exact absurd hcall hwait
  | locked =>
      rw [hcall] at hbusy
      refine h.setCall rfl hi (fun _ => hi) (.inl ⟨hi, ?_⟩) rfl nofun
      exact hh.advance (Function.update_self ..) rfl rfl rfl rfl rfl hbusy nofun
  | masked =>
      rw [hcall] at hbusy
      refine h.setCall rfl hi (fun _ => hi) (.inl ⟨hi, ?_⟩) rfl nofun
      exact hh.advance (Function.update_self ..) rfl rfl rfl rfl rfl hbusy nofun
  | attached =>
      rw [hcall] at hbusy
      refine h.setCall rfl hi (fun _ => hi) (.inl ⟨hi, ?_⟩) rfl nofun
      exact hh.advance (Function.update_self ..) rfl rfl rfl rfl rfl hbusy nofun
  | cleared =>
      rw [hcall] at hbusy
      refine h.setCall rfl hi (fun _ => hi) (.inl ⟨hi, ?_⟩) rfl nofun
      exact hh.advance (Function.update_self ..) rfl rfl rfl rfl rfl hbusy nofun
  | half =>
      rw [hcall] at hbusy
      refine h.setCall rfl hi (fun _ => hi) (.inl ⟨hi, ?_⟩) rfl nofun
      exact hh.advance (Function.update_self ..) rfl rfl rfl rfl rfl hbusy fun _ => rfl
  | written =>
      rw [hcall] at hbd
      refine h.setCall rfl hi (fun _ => hi) (.inl ⟨hi, ?_⟩) rfl nofun
      exact hh.advance (Function.update_self ..) rfl rfl rfl rfl rfl (fun _ => rfl) fun _ => hbd rfl
  | received ok =>
      rw [hcall] at hbd hresult
      refine h.setCall rfl hi (fun _ => hi) (.inl ⟨hi, ?_⟩) rfl hresult
      exact hh.advance (Function.update_self ..) rfl rfl rfl rfl rfl (fun _ => rfl) fun _ => hbd rfl
  | unmasked ok =>
      rw [hcall] at hbd hresult
      refine h.setCall rfl hi (fun _ => hi) (.inl ⟨hi, ?_⟩) rfl hresult
      exact hh.advance (Function.update_self ..) rfl rfl rfl rfl rfl (fun _ => rfl) fun _ => hbd rfl
  | detached ok =>
      rw [hcall] at hresult
      exact h.setCall rfl hi nofun (.inr rfl) rfl hresult

theorem Inv.run (h : Inv proc s) {op : Op n} (he : Enabled proc s op) (hc : CleanStart proc s op) : Inv proc (run proc s op) := by
  cases op with
  | lock i => exact h.lock he hc
  | advance i => exact h.advance he
  | receive i =>
      obtain ⟨hwait, hpulse⟩ := he
      have hi := h.mutex i (by rw [hwait]; rfl)
      have hh := h.holder i hi
      have hexec := hh.pulse (Nat.ne_of_gt hpulse)
      refine h.setCall rfl hi (fun _ => hi) (.inl ⟨hi, ?_⟩) rfl fun _ => hexec
      refine ⟨fun _ => hexec, fun _ => hexec, fun _ => hexec, hh.engine, fun _ => ?_, fun _ => hh.bd (by rw [hwait]; rfl)⟩
      change (Function.update s.call i _ i).started = true
      rw [Function.update_self]
      rfl
  | timeout i =>
      have hwait : s.call i = .waiting := he
      have hi := h.mutex i (by rw [hwait]; rfl)
      have hh := h.holder i hi
      refine h.setCall rfl hi (fun _ => hi) (.inl ⟨hi, ?_⟩) rfl nofun
      exact hh.advance (Function.update_self ..) rfl rfl rfl rfl rfl (fun _ => rfl) fun _ => hh.bd (by rw [hwait]; rfl)
  | fetch =>
      refine h.environment ?_ ?_ ?_ fun j _ hh => ?_
      · simp only [Command.run, fetch]
        split_ifs <;> rfl
      · simp only [Command.run, fetch]
        split_ifs <;> rfl
      · simp only [Command.run, fetch]
        split_ifs <;> exact fun _ hc => hc
      · have hstarted := hh.busy (.inl he.1)
        have hwrote : (s.call j).wrote = true := by
          cases hcall : s.call j <;> rw [hcall] at hstarted <;> first | rfl | cases hstarted
        simp only [Command.run, fetch]
        split_ifs
        · refine ⟨hh.intr, hh.handler, hh.pulse, fun c hc => ?_, fun _ => hstarted, hh.bd⟩
          rw [← Option.some.inj hc]
          exact hh.bd hwrote
        · exact ⟨hh.intr, hh.handler, hh.pulse, hh.engine, fun _ => hstarted, hh.bd⟩
  | finish keep =>
      obtain ⟨c, hengine⟩ := Option.isSome_iff_exists.mp he
      refine h.environment rfl rfl (fun _ hc => List.mem_cons_of_mem _ hc) fun j _ hh => ?_
      have hexec : some j ∈ (Command.run proc s (.finish keep)).executed := by
        refine List.mem_cons.mpr (.inl ?_)
        rw [hengine]
        exact (hh.engine c hengine).symm
      refine ⟨fun _ => hexec, fun _ => hexec, fun _ => hexec, nofun, fun _ => ?_, hh.bd⟩
      exact hh.busy (.inr (by rw [hengine]; exact Option.some_ne_none c))
  | handle p =>
      simp only [Command.run, handle]
      cases hp : s.handler p with
      | idle =>
          simp only
          split_ifs with hintr
          · refine h.environment rfl rfl (fun _ hc => hc) fun j _ hh => ⟨hh.intr, fun _ => ?_, hh.pulse, hh.engine, hh.busy, hh.bd⟩
            exact hh.intr (Bool.and_eq_true_iff.mp hintr).1
          · exact h
      | seen =>
          refine h.environment rfl rfl (fun _ hc => hc) fun j _ hh => ⟨nofun, fun hj => ?_, hh.pulse, hh.engine, hh.busy, hh.bd⟩
          rcases eq_or_ne (proc j) p with hjp | hjp
          · exact hh.handler (by rw [hjp, hp]; exact nofun)
          · refine hh.handler ?_
            change Function.update s.handler p .cleared (proc j) ≠ .idle at hj
            rwa [Function.update_of_ne hjp] at hj
      | cleared =>
          refine h.environment rfl rfl (fun _ hc => hc) fun j _ hh => ⟨hh.intr, fun hj => ?_, fun hj => ?_, hh.engine, hh.busy, hh.bd⟩
          all_goals
            rcases eq_or_ne (proc j) p with hjp | hjp
            · exact hh.handler (by rw [hjp, hp]; exact nofun)
          · refine hh.handler ?_
            change Function.update s.handler p .idle (proc j) ≠ .idle at hj
            rwa [Function.update_of_ne hjp] at hj
          · refine hh.pulse ?_
            change (if s.event p then Function.update s.pulses p (s.pulses p + 1) else s.pulses) (proc j) ≠ 0 at hj
            split_ifs at hj
            · rwa [Function.update_of_ne hjp] at hj
            · exact hj

theorem Inv.start (proc : Nat → Fin n) : Inv proc (init n) :=
  ⟨fun _ h => absurd h Bool.false_ne_true, fun _ h => absurd h (Option.some_ne_none _).symm, fun _ h => absurd h (Option.some_ne_none _).symm⟩

theorem Inv.reaches (h : Reaches (step proc) (CleanStart proc) (init n) s) : Inv proc s := by
  refine h.invariant (P := Inv proc) (.start proc) fun u op v hu hc hs => ?_
  simp only [step] at hs
  split_ifs at hs with he
  cases hs
  exact hu.run he hc

/-! ## 完了 -/

/-- 片付いた状態から始まる呼び出しだけの実行では、0 を返した呼び出しの descriptor は実行されている。 -/
theorem sdma_completion_own (h : Reaches (step proc) (CleanStart proc) (init n) s) {i : Nat} (hi : s.call i = .returned true) :
    some i ∈ s.executed := (Inv.reaches h).result i (by rw [hi]; rfl)

/-- 一つの process の二つの呼び出し。 -/
def oneProc : Nat → Fin 1 := fun _ => 0

/-- `mutex` から起動までの手順。 -/
def startOps (i : Nat) : List (Op 1) :=
  [.lock i, .advance i, .advance i, .advance i, .advance i, .advance i, .advance i]

/-- 返り値が決まってから `mutex` を放すまでの手順。 -/
def leaveOps (i : Nat) : List (Op 1) := [.advance i, .advance i, .advance i]

/-- 完了の割り込みから pulse まで。 -/
def pulseOps : List (Op 1) := [.handle 0, .handle 0, .handle 0]

theorem sdma_completion_own_run :
    ∃ s, Reaches (step oneProc) (CleanStart oneProc) (init 1) s ∧ s.call 1 = .returned true ∧ some 1 ∈ s.executed := by
  obtain ⟨s, hs, hp⟩ := (Option.any_eq_true _ _).mp (by decide :
    (runAll (step oneProc) (CleanStart oneProc)
      (startOps 0 ++ [.fetch, .finish true] ++ pulseOps ++ [.receive 0] ++ leaveOps 0 ++
        (startOps 1 ++ [.fetch, .finish true] ++ pulseOps ++ [.receive 1] ++ leaveOps 1)) (init 1)).any
          (fun s => s.call 1 == .returned true) = true)
  have hcall := beq_iff_eq.mp hp
  exact ⟨s, runAll_reaches hs, hcall, sdma_completion_own (runAll_reaches hs) hcall⟩

/-- 時間切れの後に届いた完了で、次の呼び出しが実行の前に 0 を返す。 -/
theorem sdma_completion_stale :
    ¬∀ (n : Nat) (proc : Nat → Fin n) (s : State n) (i : Nat), Reaches (step proc) (fun _ _ => True) (init n) s →
      s.call i = .returned true → some i ∈ s.executed := by
  intro hall
  obtain ⟨s, hs, hp⟩ := (Option.any_eq_true _ _).mp (by decide :
    (runAll (step oneProc) (fun _ _ => True)
      (startOps 0 ++ [.timeout 0] ++ leaveOps 0 ++ [.fetch, .finish true] ++
        (startOps 1 ++ pulseOps ++ [.receive 1] ++ leaveOps 1)) (init 1)).any
          (fun s => s.call 1 == .returned true && !s.executed.contains (some 1)) = true)
  obtain ⟨hcall, hexec⟩ := Bool.and_eq_true_iff.mp hp
  have h := hall 1 oneProc s 1 (runAll_reaches hs) (beq_iff_eq.mp hcall)
  rw [List.contains_iff_mem.mpr h] at hexec
  cases hexec

end Imx6Bsp.Sdma.Command
