import Imx6Bsp.Devb.Lemmas.Lifecycle
import Imx6Bsp.Devb.Lemmas.CardChange

/-!
# 要求の一生

取り出した CCB は一度だけ返され、同時に抱える CCB は一つである。`READ10` と `WRITE10` が成功で返るとき、最後の実行で全てのバイトのデータ命令が
誤り無く終わり、自動停止の無い複数塊の命令は停止している。
-/

namespace Imx6Bsp.Devb

open Imx6Bsp.Lib

/-- 取り出してまだ返していない CCB は、抱えているものだけである。 -/
theorem Sim.Ledger.single {s : Sim} (hl : s.Ledger) : (s.dequeued.filter fun id => id ∉ s.posted.map Nexus.id).length ≤ 1 := by
  rw [hl.order, List.filter_append, List.length_append]
  have h₁ : ((s.posted.map Nexus.id).filter fun id => id ∉ s.posted.map Nexus.id) = [] := by
    refine List.filter_eq_nil_iff.mpr fun id hid => ?_
    simpa using hid
  have h₂ : (((s.nexus.map Nexus.id).toList).filter fun id => id ∉ s.posted.map Nexus.id).length ≤ (s.nexus.map Nexus.id).toList.length :=
    List.length_filter_le ..
  have h₃ : (s.nexus.map Nexus.id).toList.length ≤ 1 := by
    cases s.nexus with
    | none => exact Nat.zero_le 1
    | some n => exact Nat.le_refl 1
  rw [h₁]
  exact (Nat.zero_add _).le.trans (h₂.trans h₃)

/-- 呼び先の返り値が正しく、DMA でバッファの割り込みが来ない実行では、CCB は一度だけ返り、成功で返った `READ10` と `WRITE10` は全てのバイトを運んでいる。 -/
theorem request_lifecycle (h : Host) (s : Sim) (hr : Reaches (Sim.step h) (Sim.Regular h) {} s) : s.Lifecycle := by
  have h0 : Sim.Ledger {} ∧ Sim.Busy {} ∧ Sim.Mid h {} := by
    have hposted : ∀ {P : Nexus → Prop}, ∀ n ∈ ([] : List Nexus), P n := fun n hn => (List.not_mem_nil hn).elim
    exact ⟨⟨rfl, List.nodup_nil, fun id hid => (List.not_mem_nil hid).elim, hposted⟩, ⟨Sim.forall_none rfl, Sim.dataRw_of_idle rfl⟩, hposted,
      Sim.forall_none rfl⟩
  obtain ⟨hl, -, hm⟩ := hr.invariant (P := fun s => s.Ledger ∧ s.Busy ∧ s.Mid h) h0 fun _ _ _ hu hok hs =>
    ⟨hu.1.step hu.2.1 hs, hu.2.1.step hs, hu.2.2.step hu.2.1 hok hs⟩
  refine ⟨?_, hl.single, hl.settled, hm.complete⟩
  have hnodup := (List.nodup_append.mp hl.nodup).1
  rw [hl.order] at hnodup
  exact (List.nodup_append.mp hnodup).1

theorem request_lifecycle_sample :
    ∃ s, Reaches (Sim.step {}) (Sim.Regular {}) {} s ∧ s.posted.map (fun n => (n.id, n.status)) = [(0, .cmp)] ∧ s.Lifecycle := by
  obtain ⟨s, hs, hp⟩ := (Option.any_eq_true _ _).mp
    (by decide :
      (runAll (Sim.step {}) (Sim.Regular {}) (identifyCard ++ startRead ++ [.interrupt { data := true } {} {}]) {}).any
        (fun s => s.posted.map (fun n => (n.id, n.status)) = [(0, .cmp)]) = true)
  have hr := runAll_reaches hs
  exact ⟨s, hr, of_decide_eq_true hp, request_lifecycle {} s hr⟩

/-- DMA の読み込みは、バッファの割り込みだけで成功になる。 -/
theorem read_done_without_data : ∃ s, Reaches (Sim.step {}) (fun _ _ => True) {} s ∧ ¬s.Lifecycle := by
  obtain ⟨s, hs, hp⟩ := (Option.any_eq_true _ _).mp
    (by decide :
      (runAll (Sim.step {}) (fun _ _ => True) (identifyCard ++ startRead ++ [.interrupt { ready := true } {} {}]) {}).any
        (fun s => s.posted.map (fun n => (n.req.isRw, n.status, n.cmds.map Cmd.completed)) = [(true, .cmp, [false])]) = true)
  refine ⟨s, runAll_reaches hs, fun hlife => ?_⟩
  have hp := of_decide_eq_true hp
  obtain ⟨n, hn, heq⟩ := List.map_eq_singleton_iff.mp hp
  have hmem : n ∈ s.posted := by
    rw [hn]
    exact List.mem_singleton.mpr rfl
  obtain ⟨hrw, hrest⟩ := Prod.mk.inj heq
  obtain ⟨hst, hcm⟩ := Prod.mk.inj hrest
  obtain ⟨c, hc, hd⟩ := List.map_eq_singleton_iff.mp hcm
  have hfine := (hlife.complete n hmem hrw hst).fine c (by rw [hc]; exact List.mem_singleton.mpr rfl)
  rw [hfine.completed] at hd
  cases hd

/-! ## カードの交換と要求

ある CCB のデータ命令が、取り外しの後に入ったカードに送られないための条件。取り外しを `SIM_TIMER` で見つけたとき、進行中の CCB はそのまま残り、
次のカードの識別が終わると実行し直される。 -/

/-- 残っている CCB の割り込みが取り出したときのカードから来る実行では、どの CCB もカードの交換をまたがない。 -/
theorem card_change_isolated (h : Host) (s : Sim) (hr : Reaches (Sim.step h) Sim.Attended {} s) : s.CardSound := by
  have h0 : Sim.CardOk {} ∧ Sim.Busy {} := by
    have hno : ∀ {P : Prop}, ∀ g, (none : Option Nat) = some g → P := fun g hg => by cases hg
    have hinv : Sim.CardInv {} := ⟨fun g hg => hno g hg, fun g hg => hno g hg, fun g _ hg => hno g hg,
      fun n hn => (List.not_mem_nil hn).elim, Sim.forall_none rfl, Sim.forall_none rfl, Sim.forall_none rfl⟩
    exact ⟨⟨hinv, Sim.forall_none rfl⟩, Sim.forall_none rfl, Sim.dataRw_of_idle rfl⟩
  obtain ⟨hc, -⟩ := hr.invariant (P := fun s => s.CardOk ∧ s.Busy) h0 fun _ _ _ hu hok hs => ⟨hu.1.step hu.2 hok hs, hu.2.step hs⟩
  exact ⟨hc.posted, fun n hn c hm => (hc.cmds n hn c hm).2⟩

theorem card_change_isolated_sample :
    ∃ s, Reaches (Sim.step {}) Sim.Attended {} s ∧ s.posted.map (fun n => (n.status, n.all.map Cmd.card)) = [(.cmp, [some 0])] ∧ s.CardSound := by
  obtain ⟨s, hs, hp⟩ := (Option.any_eq_true _ _).mp
    (by decide :
      (runAll (Sim.step {}) Sim.Attended (identifyCard ++ startRead ++ [.interrupt { data := true } {} {}]) {}).any
        (fun s => s.posted.map (fun n => (n.status, n.all.map Cmd.card)) = [(.cmp, [some 0])]) = true)
  have hr := runAll_reaches hs
  exact ⟨s, hr, of_decide_eq_true hp, card_change_isolated {} s hr⟩

/-- 取り外しを `SIM_TIMER` で見つけると、読み込みは次のカードに送られる。 -/
theorem read_restarted_on_next_card : ∃ s, Reaches (Sim.step {}) (fun _ _ => True) {} s ∧ ¬s.CardSound := by
  obtain ⟨s, hs, hp⟩ := (Option.any_eq_true _ _).mp
    (by decide +kernel :
      (runAll (Sim.step {}) (fun _ _ => True)
        (identifyCard ++ startRead ++ [.ambient .remove, .timer, .ambient (.control {})] ++ identifyCard) {}).any
        (fun s => s.nexus.map (fun n => n.all.map fun c => (c.card, c.gone)) = some [(some 1, some 1), (some 0, none)]) = true)
  refine ⟨s, runAll_reaches hs, fun hsound => ?_⟩
  obtain ⟨n, hn, hall⟩ := Option.map_eq_some_iff.mp (of_decide_eq_true hp)
  have hmem : (some 1, some 1) ∈ n.all.map fun c => (c.card, c.gone) := by
    rw [hall]
    exact List.mem_cons_self
  obtain ⟨c, hc, heq⟩ := List.mem_map.mp hmem
  have hlt := hsound.nexus n hn c hc 1 1 (Prod.mk.inj heq).1 (Prod.mk.inj heq).2
  exact absurd hlt (Nat.lt_irrefl 1)

end Imx6Bsp.Devb
