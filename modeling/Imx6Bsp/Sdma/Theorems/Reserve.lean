import Imx6Bsp.Sdma.Reserve

/-!
# 予約と handle の釣り合い

一回の呼び出しがすることを `run_cases` にまとめ、釣り合いの不変条件 `Inv` をそこから導く。解放した構造を読む呼び出しは、
`badRead` を立てる。
-/

namespace Imx6Bsp.Sdma.Reserve
open Imx6Bsp.Lib

variable {s t : State} {op : Op}

/-! ## 一回の呼び出し -/

theorem readChNum_alive {p ch : Nat} (garbage : Nat) (h0 : p ≠ 0) (h : s.heap p = some ch) : s.readChNum p garbage = (s, ch) := by
  unfold State.readChNum
  rw [if_neg h0, h]

theorem readChNum_freed {p : Nat} (garbage : Nat) (h0 : p ≠ 0) (h : s.heap p = none) :
    s.readChNum p garbage = ({ s with badRead := true }, garbage) := by
  unfold State.readChNum
  rw [if_neg h0, h]

theorem chanDestroy_alive {p ch : Nat} (garbage : Nat) (h0 : p ≠ 0) (h : s.heap p = some ch) :
    chanDestroy s p garbage = { s with heap := Function.update s.heap p none } := by
  unfold chanDestroy
  rw [readChNum_alive garbage h0 h]

theorem attachFail2_freed {p : Nat} (garbage : Nat) (h0 : p ≠ 0) (h : s.heap p = none) :
    attachFail2 s p garbage = { s with db := s.db.erase garbage, badRead := true } := by
  unfold attachFail2
  rw [readChNum_freed garbage h0 h]
  rfl

/-- 構造を解放してから `fail2` に進むと、解放した構造を読む。 -/
theorem attachFail3_eq {p : Nat} (ch garbage : Nat) (h0 : p ≠ 0) (h : s.heap p = none) :
    attachFail3 { s with db := insert ch s.db, heap := Function.update s.heap p (some ch) } p garbage =
      { s with db := (insert ch s.db).erase garbage, badRead := true } := by
  have hback : Function.update (Function.update s.heap p (some ch)) p none = s.heap := by
    rw [Function.update_idem, ← h, Function.update_eq_self]
  unfold attachFail3
  rw [chanDestroy_alive garbage h0 (Function.update_self _ _ _), hback]
  exact attachFail2_freed (s := { s with db := insert ch s.db }) garbage h0 h

/-- 呼び出しの後の状態。`kept` は何も変えず、`opened` は handle を渡し、`failed` と `closed` は読めない構造を読む。 -/
inductive Effect (s : State) : Op → State → Prop
  | kept {chan optionsOk loadOk garbage} : Effect s (.attach none chan optionsOk loadOk garbage) s
  | opened {ch p garbage} : ch ∉ s.db → p ≠ 0 → s.heap p = none →
      Effect s (.attach (some ch) (some p) true true garbage)
        { s with db := insert ch s.db, heap := Function.update s.heap p (some ch), handles := insert p s.handles }
  | failed {ch chan optionsOk loadOk garbage crashed} : ch ∉ s.db → ¬ (chan ≠ none ∧ optionsOk = true ∧ loadOk = true) →
      Effect s (.attach (some ch) chan optionsOk loadOk garbage)
        { s with db := (insert ch s.db).erase garbage, badRead := true, crashed }
  | closed {p ch garbage} : p ∈ s.handles → p ≠ 0 → s.heap p = some ch →
      Effect s (.release p garbage)
        { db := s.db.erase garbage, heap := Function.update s.heap p none, handles := s.handles.erase p, badRead := true,
          crashed := s.crashed }

/-- 持たれている handle は、NULL でない確保された構造である。 -/
def Live (s : State) : Prop := ∀ p, p ∈ s.handles ↔ p ≠ 0 ∧ s.heap p ≠ none

theorem step_effect (hlive : Live s) (h : step s op = .ok t) : Effect s op t := by
  unfold step at h
  by_cases hen : Enabled s op
  · rw [if_pos hen] at h
    cases h
    cases op with
    | attach rsrc chan optionsOk loadOk garbage =>
        obtain ⟨_, hrsrc, hchan⟩ := hen
        cases rsrc with
        | none => exact .kept
        | some ch =>
            have hfree := (hrsrc ch rfl).2.2
            cases chan with
            | none => exact .failed hfree fun h => h.1 rfl
            | some p =>
                obtain ⟨h0, hp⟩ := hchan p rfl
                have hfail := attachFail3_eq ch garbage h0 hp
                cases optionsOk with
                | false =>
                    rw [show run s (.attach (some ch) (some p) false loadOk garbage) = _ from hfail]
                    exact .failed hfree fun h => absurd h.2.1 Bool.false_ne_true
                | true =>
                    cases loadOk with
                    | false =>
                        rw [show run s (.attach (some ch) (some p) true false garbage) = _ from hfail]
                        exact .failed hfree fun h => absurd h.2.2 Bool.false_ne_true
                    | true => exact .opened hfree h0 hp
    | release p garbage =>
        obtain ⟨h0, hp⟩ := (hlive p).mp hen.2
        obtain ⟨ch, hch⟩ := Option.ne_none_iff_exists'.mp hp
        have heq : sdmaChannelRelease s p garbage =
            { db := s.db.erase garbage, heap := Function.update s.heap p none, handles := s.handles.erase p, badRead := true,
              crashed := s.crashed } := by
          unfold sdmaChannelRelease
          rw [readChNum_alive garbage h0 hch]
          simp only
          rw [chanDestroy_alive (s := { s with handles := s.handles.erase p }) garbage h0 hch,
            readChNum_freed (s := { s with handles := s.handles.erase p, heap := Function.update s.heap p none }) garbage h0
              (Function.update_self _ _ _)]
          rfl
        change Effect s _ (sdmaChannelRelease s p garbage)
        exact heq ▸ .closed hen.2 h0 hch
  · rw [if_neg hen] at h
    cases h

/-! ## 不変条件 -/

/-- 予約と handle が釣り合い、handle の番号は互いに異なる。 -/
structure Inv (s : State) : Prop where
  live : Live s
  balanced : Balanced s
  inj : ∀ p q ch, p ≠ 0 → q ≠ 0 → s.heap p = some ch → s.heap q = some ch → p = q

theorem Inv.init : Inv init where
  live := fun p => ⟨fun h => absurd h (Finset.notMem_empty p), fun h => absurd rfl h.2⟩
  balanced := fun ch => ⟨fun h => absurd h (Finset.notMem_empty ch), fun ⟨p, h, _⟩ => absurd h (Finset.notMem_empty p)⟩
  inj := fun _ _ _ _ _ h => (by cases h)

theorem Live.effect (h : Live s) (he : Effect s op t) : Live t := by
  cases he with
  | kept => exact h
  | @opened ch p garbage hfree h0 hp =>
      intro q
      by_cases hq : q = p
      · subst hq
        simp [h0]
      · rw [Finset.mem_insert, or_iff_right hq, h q]
        simp only [Function.update_of_ne hq]
  | failed _ _ => exact h
  | @closed p ch garbage hp h0 hch =>
      intro q
      by_cases hq : q = p
      · subst hq
        simp
      · rw [Finset.mem_erase, and_iff_right hq, h q]
        simp only [Function.update_of_ne hq]

/-- 読む値が構造の番号のままなら、どの呼び出しも釣り合いを保つ。 -/
theorem Inv.effect (h : Inv s) (hown : OwnNumber s op) (he : Effect s op t) : Inv t := by
  have hlive := h.live.effect he
  cases he with
  | kept => exact h
  | @opened ch p garbage hfree h0 hp =>
      have hne : ∀ q, q ≠ p → Function.update s.heap p (some ch) q = s.heap q := fun q hq => Function.update_of_ne hq _ _
      have hself : Function.update s.heap p (some ch) p = some ch := Function.update_self _ _ _
      have hnew : ∀ q, q ≠ 0 → s.heap q ≠ some ch := fun q h0q hq =>
        hfree ((h.balanced ch).mpr ⟨q, (h.live q).mpr ⟨h0q, by rw [hq]; exact Option.some_ne_none _⟩, hq⟩)
      refine ⟨hlive, fun k => ?_, fun q r k hq0 hr0 hq hr => ?_⟩
      · rw [Finset.mem_insert, h.balanced k]
        constructor
        · rintro (rfl | ⟨q, hq, hk⟩)
          · exact ⟨p, Finset.mem_insert_self p _, Function.update_self _ _ _⟩
          · refine ⟨q, Finset.mem_insert_of_mem hq, (hne q ?_).trans hk⟩
            rintro rfl
            rw [hp] at hk
            cases hk
        · rintro ⟨q, hq, hk⟩
          by_cases hqp : q = p
          · subst hqp
            exact .inl (Option.some.inj (hself.symm.trans hk)).symm
          · exact .inr ⟨q, (Finset.mem_insert.mp hq).resolve_left hqp, (hne q hqp).symm.trans hk⟩
      · by_cases hqp : q = p
        · by_cases hrp : r = p
          · rw [hqp, hrp]
          · subst hqp
            obtain rfl := Option.some.inj (hself.symm.trans hq)
            exact absurd ((hne r hrp).symm.trans hr) (hnew r hr0)
        · by_cases hrp : r = p
          · subst hrp
            obtain rfl := Option.some.inj (hself.symm.trans hr)
            exact absurd ((hne q hqp).symm.trans hq) (hnew q hq0)
          · exact h.inj q r k hq0 hr0 ((hne q hqp).symm.trans hq) ((hne r hrp).symm.trans hr)
  | @failed ch chan optionsOk loadOk garbage crashed hfree hfail =>
      obtain rfl := (hown ch rfl).resolve_left hfail
      have hdb : (insert garbage s.db).erase garbage = s.db := Finset.erase_insert hfree
      exact ⟨h.live, fun k => (by rw [hdb]; exact h.balanced k), h.inj⟩
  | @closed p ch garbage hp h0 hch =>
      obtain rfl := Option.some.inj (hch.symm.trans hown)
      have hne : ∀ q, q ≠ p → Function.update s.heap p none q = s.heap q := fun q hq => Function.update_of_ne hq _ _
      refine ⟨hlive, fun k => ?_, fun q r k hq0 hr0 hq hr => ?_⟩
      · rw [Finset.mem_erase, h.balanced k]
        constructor
        · rintro ⟨hk, q, hq, hqk⟩
          have hqp : q ≠ p := fun he => hk (Option.some.inj (hqk.symm.trans (he ▸ hch)))
          exact ⟨q, Finset.mem_erase.mpr ⟨hqp, hq⟩, (hne q hqp).trans hqk⟩
        · rintro ⟨q, hq, hqk⟩
          obtain ⟨hqp, hq⟩ := Finset.mem_erase.mp hq
          have hqk := (hne q hqp).symm.trans hqk
          refine ⟨fun he => hqp (h.inj q p k ((h.live q).mp hq).1 h0 hqk (he ▸ hch)), q, hq, hqk⟩
      · have hqp : q ≠ p := fun he => by
          subst he
          exact absurd ((Function.update_self _ _ _).symm.trans hq) (Option.some_ne_none k).symm
        have hrp : r ≠ p := fun he => by
          subst he
          exact absurd ((Function.update_self _ _ _).symm.trans hr) (Option.some_ne_none k).symm
        exact h.inj q r k hq0 hr0 ((hne q hqp).symm.trans hq) ((hne r hrp).symm.trans hr)

/-- 釣り合いが保たれるのは、読む値が構造の番号のままのときに限る。 -/
theorem Inv.own_of_balanced (h : Inv s) (he : Effect s op t) (ht : Balanced t) : OwnNumber s op := by
  cases he with
  | kept => exact fun ch hch => (by cases hch)
  | opened _ _ _ => exact fun ch _ => .inl ⟨Option.some_ne_none _, rfl, rfl⟩
  | @failed ch chan optionsOk loadOk garbage crashed hfree hfail =>
      rintro k hk
      obtain rfl := Option.some.inj hk
      refine .inr (Decidable.not_not.mp fun hne => hfree ?_)
      exact (h.balanced ch).mpr ((ht ch).mp (Finset.mem_erase.mpr ⟨fun he => hne he.symm, Finset.mem_insert_self ch _⟩))
  | @closed p ch garbage hp h0 hch =>
      by_contra hown
      have hne : ch ≠ garbage := fun he => hown (he ▸ hch)
      obtain ⟨q, hq, hqk⟩ := (ht ch).mp (Finset.mem_erase.mpr ⟨hne, (h.balanced ch).mpr ⟨p, hp, hch⟩⟩)
      obtain ⟨hqp, hq⟩ := Finset.mem_erase.mp hq
      have hqk := (Function.update_of_ne hqp none s.heap).symm.trans hqk
      exact hqp (h.inj q p ch ((h.live q).mp hq).1 h0 hqk hch)

theorem Inv.reaches (h : Reaches step OwnNumber Reserve.init s) : Inv s :=
  h.invariant (P := Inv) .init fun _ _ _ hinv hown hs => hinv.effect hown (step_effect hinv.live hs)

/-! ## 実行 -/

theorem ownNumber_of_clean (h : op.Clean) : OwnNumber s op := by
  cases op with
  | attach rsrc chan optionsOk loadOk garbage =>
      rintro ch rfl
      exact .inl (h.resolve_left (Option.some_ne_none ch))
  | release p garbage => exact h.elim

/-- 条件を満たす呼び出しは何も読み誤らず、ほかの呼び出しは読めない構造を読む。 -/
theorem badRead_effect (he : Effect s op t) : t.badRead = true ↔ s.badRead = true ∨ ¬ op.Clean := by
  cases he with
  | kept => simp [Op.Clean]
  | opened _ _ _ => simp [Op.Clean]
  | @failed ch chan optionsOk loadOk garbage crashed _ hfail =>
      refine iff_of_true rfl (.inr fun hc => ?_)
      exact hfail (hc.resolve_left (Option.some_ne_none ch))
  | closed _ _ _ => exact iff_of_true rfl (.inr id)

/-- どの呼び出しの列でも、最後まで読み誤らないのは、どの呼び出しも条件を満たすときである。 -/
theorem run_badRead {ops : List Op} (hlive : Live s) (h : runAll step (fun _ _ => True) ops s = some t) :
    t.badRead = true ↔ s.badRead = true ∨ ∃ op ∈ ops, ¬ op.Clean := by
  induction ops generalizing s with
  | nil =>
      cases h
      simp
  | cons op ops ih =>
      rw [runAll, if_pos trivial] at h
      cases hs : step s op with
      | error e =>
          rw [hs] at h
          cases h
      | ok u =>
          rw [hs] at h
          have he := step_effect hlive hs
          rw [ih (hlive.effect he) h, badRead_effect he, or_assoc]
          simp only [List.mem_cons, exists_eq_or_imp]

theorem run_inv {ops : List Op} (hclean : ∀ op ∈ ops, op.Clean) (hinv : Inv s)
    (h : runAll step (fun _ _ => True) ops s = some t) : Inv t := by
  induction ops generalizing s with
  | nil =>
      cases h
      exact hinv
  | cons op ops ih =>
      rw [runAll, if_pos trivial] at h
      cases hs : step s op with
      | error e =>
          rw [hs] at h
          cases h
      | ok u =>
          rw [hs] at h
          have hown := ownNumber_of_clean (s := s) (hclean op List.mem_cons_self)
          exact ih (fun o ho => hclean o (List.mem_cons_of_mem _ ho)) (hinv.effect hown (step_effect hinv.live hs)) h

/-- 呼び出しの列で、どの状態でも約束が守られるのは、どの呼び出しも予約できないか最後まで成功する attach のときであり、
そのときに限る。釣り合いだけなら、解放した構造の番号が残っている限り保たれ、残っていなければ崩れる。 -/
theorem sdma_reservation_sound_iff {ops : List Op} (h : runAll step (fun _ _ => True) ops init = some s) :
    ((∀ pre t, pre <+: ops → runAll step (fun _ _ => True) pre init = some t → Sound t) ↔ ∀ op ∈ ops, op.Clean) ∧
      (Reaches step OwnNumber init s → Balanced s ∧ ∀ op t, step s op = .ok t → (Balanced t ↔ OwnNumber s op)) := by
  constructor
  · constructor
    · intro hall op hop
      by_contra hclean
      have hbad := (run_badRead Inv.init.live h).mpr (.inr ⟨op, hop, hclean⟩)
      exact absurd ((hall ops s List.prefix_rfl h).reads) (by rw [hbad]; exact Bool.true_eq_false_eq_False)
    · intro hclean pre t hpre ht
      have hpc : ∀ op ∈ pre, op.Clean := fun op hop => hclean op (hpre.subset hop)
      refine ⟨(run_inv hpc .init ht).balanced, Bool.eq_false_iff.mpr fun hbad => ?_⟩
      rcases (run_badRead Inv.init.live ht).mp hbad with h0 | ⟨op, hop, hno⟩
      · cases h0
      · exact hno (hpc op hop)
  · intro hreach
    have hinv := Inv.reaches hreach
    refine ⟨hinv.balanced, fun op t hs => ⟨hinv.own_of_balanced (step_effect hinv.live hs), fun hown => ?_⟩⟩
    exact (hinv.effect hown (step_effect hinv.live hs)).balanced

/-! ## attach と release -/

def oneAttach : List Op := [.attach (some 1) (some 0x1000) true true 0]

theorem sdma_reservation_attach : ∃ s, runAll step (fun _ _ => True) oneAttach init = some s ∧ Sound s ∧ 1 ∈ s.db := by
  obtain ⟨s, hs, hdb⟩ := (Option.any_eq_true _ _).mp (by decide :
    (runAll step (fun _ _ => True) oneAttach init).any (fun s => decide (1 ∈ s.db)) = true)
  have hclean : ∀ op ∈ oneAttach, op.Clean := fun op hop => by
    obtain rfl := List.mem_singleton.mp hop
    exact .inr ⟨Option.some_ne_none _, rfl, rfl⟩
  exact ⟨s, hs, (sdma_reservation_sound_iff hs).1.mpr hclean oneAttach s List.prefix_rfl hs, of_decide_eq_true hdb⟩

/-- `sdma_channel_release()` は解放した構造を読み、読んだ値が違えば番号 1 の予約が残る。 -/
theorem sdma_reservation_leaked : ¬ ∀ ops s, runAll step (fun _ _ => True) ops init = some s → Sound s := by
  intro hall
  obtain ⟨s, hs, hbad⟩ := (Option.any_eq_true _ _).mp (by decide :
    (runAll step (fun _ _ => True) (oneAttach ++ [.release 0x1000 0]) init).any
      (fun s => s.badRead && decide (1 ∈ s.db) && decide (s.handles = ∅)) = true)
  rw [Bool.and_eq_true, Bool.and_eq_true] at hbad
  rw [(hall _ s hs).reads] at hbad
  exact absurd hbad.1.1 Bool.false_ne_true

end Imx6Bsp.Sdma.Reserve
