import Imx6Bsp.Devnp.Ptp

/-!
# PTP の時刻印の問い合わせ

種類ごとの環は互いに影響しない。探し方は番号の順に sequence id だけを比べるので、答えが正しいのは、
番号の最も若い同じ sequence id の記録が正しい答えと同じ時刻を持つときに限る。
-/

namespace Imx6Bsp.Devnp.Ptp

open Imx6Bsp.Lib

/-! ## 環の中身 -/

/-- 種類 `t` の環とその番号。 -/
def TsBufs.ring (b : TsBufs) : PtpMsg → List PtpTimestamp × Nat
  | .sync => (b.syncTs, b.syncCnt)
  | .delayReq => (b.delayreqTs, b.delayreqCnt)
  | .pdelayReq => (b.pdelayreqTs, b.pdelayrespCnt)
  | .pdelayResp => (b.pdelayrespTs, b.pdelayreqCnt)

def PtpState.bufs (s : PtpState) : Direction → TsBufs
  | .rx => s.rx
  | .tx => s.tx

/-- 記録は、その種類の環にだけ書く。 -/
theorem ptpAddTimestamp_ring (b : TsBufs) (r : PtpRecord) (size : Nat) (t : PtpMsg) :
    (ptpAddTimestamp size b r.rtc r.ph r.bdTimestamp).ring t =
      if r.msg = some t then ringPut size (b.ring t) r.stamp else b.ring t := by
  simp only [ptpAddTimestamp, PtpRecord.msg]
  split
  · simp
  · cases PtpMsg.ofCode (r.ph.messageId &&& 0x0f) with
    | none => simp
    | some u => cases u <;> cases t <;> simp [TsBufs.ring, PtpRecord.stamp]

theorem record_ring (s : PtpState) (r : PtpRecord) (d : Direction) (t : PtpMsg) :
    ((s.record r).bufs d).ring t =
      if r.dir = d ∧ r.msg = some t then ringPut d.bufSz ((s.bufs d).ring t) r.stamp else (s.bufs d).ring t := by
  cases hr : r.dir with
  | rx =>
      cases d with
      | rx => simpa [PtpState.record, hr, PtpState.bufs, Direction.bufSz, ptpAddRxTimestamp] using ptpAddTimestamp_ring s.rx r rxTimestampBufSz t
      | tx => simp [PtpState.record, hr, PtpState.bufs, ptpAddRxTimestamp]
  | tx =>
      cases d with
      | rx => simp [PtpState.record, hr, PtpState.bufs, ptpAddTxTimestamp]
      | tx => simpa [PtpState.record, hr, PtpState.bufs, Direction.bufSz, ptpAddTxTimestamp] using ptpAddTimestamp_ring s.tx r txTimestampBufSz t

theorem run_concat (hist : List PtpRecord) (r : PtpRecord) : PtpState.run (hist ++ [r]) = (PtpState.run hist).record r := by
  rw [PtpState.run, List.foldl_append]; rfl

theorem recorded_concat (hist : List PtpRecord) (r : PtpRecord) (d : Direction) (t : PtpMsg) :
    recorded (hist ++ [r]) d t = recorded hist d t ++ if r.dir = d ∧ r.msg = some t then [r.stamp] else [] := by
  simp only [recorded, List.filter_append, List.map_append]
  split_ifs with h <;> simp [h]

/-- どの環も、その種類の記録だけを順に書いたものである。 -/
theorem run_ring (hist : List PtpRecord) (d : Direction) (t : PtpMsg) :
    ((PtpState.run hist).bufs d).ring t =
      (recorded hist d t).foldl (ringPut d.bufSz) (List.replicate d.bufSz PtpTimestamp.zero, 0) := by
  induction hist using List.reverseRecOn with
  | nil => cases d <;> cases t <;> rfl
  | append_singleton hist r ih =>
      rw [run_concat, record_ring, ih, recorded_concat]
      split_ifs
      · rw [List.foldl_append]; rfl
      · rw [List.append_nil]

theorem Direction.bufSz_pos (d : Direction) : 0 < d.bufSz := by cases d <;> decide

/-- 環の中身。空きは消した項目のままである。 -/
theorem run_ring_eq (hist : List PtpRecord) (d : Direction) (t : PtpMsg) :
    (((PtpState.run hist).bufs d).ring t).1 = slotOrder d.bufSz (recorded hist d t) ++
      List.replicate (d.bufSz - (recorded hist d t).length) PtpTimestamp.zero := by
  rw [run_ring, foldl_ringPut d.bufSz_pos]

/-! ## 問い合わせ -/

theorem query_eq (s : PtpState) (d : Direction) (q : PtpExtts) :
    s.query d q = (PtpMsg.ofCode q.msgType).bind fun t => ptpGetTs ((s.bufs d).ring t).1 q d.bufSz := by
  cases d <;> simp only [PtpState.query, ptpGetRxTimestamp, ptpGetTxTimestamp, ptpGetTimestamp] <;>
    cases PtpMsg.ofCode q.msgType with
    | none => rfl
    | some t => cases t <;> rfl

/-- 記録の後の問い合わせは、残っている記録を番号の順に探し、次に空きを探す。 -/
theorem ptpGetTs_run (hist : List PtpRecord) (d : Direction) (t : PtpMsg) (q : PtpExtts) :
    (ptpGetTs (((PtpState.run hist).bufs d).ring t).1 q d.bufSz).map PtpExtts.ts =
      (((slotOrder d.bufSz (recorded hist d t)).find? fun e => q.sequenceId = e.sequenceId).or
        ((List.replicate (d.bufSz - (recorded hist d t).length) PtpTimestamp.zero).find? fun e =>
          q.sequenceId = e.sequenceId)).map PtpTimestamp.timestamp := by
  have hlen : (((PtpState.run hist).bufs d).ring t).1.length ≤ d.bufSz := by
    rw [run_ring_eq, List.length_append, slotOrder_length d.bufSz_pos, List.length_replicate]
    omega
  rw [ptpGetTs, List.take_of_length_le hlen, run_ring_eq, List.find?_append, Option.map_map]
  rfl

/-- 消したままの空きは、sequence id が 0 の問い合わせに合う。 -/
theorem zeros_unmatched (n : Nat) (q : PtpExtts) :
    (∀ e ∈ List.replicate n PtpTimestamp.zero, ¬q.sequenceId = e.sequenceId) ↔ (q.sequenceId = 0 → n = 0) := by
  constructor
  · intro h hq
    by_contra hn
    exact h PtpTimestamp.zero (List.mem_replicate.mpr ⟨hn, rfl⟩) hq
  · intro h e he hs
    obtain ⟨hn, rfl⟩ := List.mem_replicate.mp he
    exact hn (h hs)

/-- 問い合わせが正しく答えられる条件。合う記録があるなら、番号の最も若い同じ sequence id の記録がその最新のものと同じ時刻を持つ。
なければ、同じ sequence id の記録も、消したままの 0 番の空きもない。 -/
def Findable (hist : List PtpRecord) (d : Direction) (q : PtpExtts) : Prop :=
  ∀ t ∈ PtpMsg.ofCode q.msgType,
    match latest hist d q t with
    | some m => ∀ e ∈ (slotOrder d.bufSz (recorded hist d t)).find? (fun e => q.sequenceId = e.sequenceId),
        e.timestamp = m.timestamp
    | none => (∀ e ∈ lastOf d.bufSz (recorded hist d t), q.sequenceId ≠ e.sequenceId) ∧
        (q.sequenceId = 0 → d.bufSz ≤ (recorded hist d t).length)

theorem latest_mem {hist : List PtpRecord} {d : Direction} {q : PtpExtts} {t : PtpMsg} {m : PtpTimestamp}
    (h : latest hist d q t = some m) : m ∈ slotOrder d.bufSz (recorded hist d t) ∧ q.sequenceId = m.sequenceId := by
  rw [latest] at h
  have hp := List.find?_some h
  rw [decide_eq_true_eq] at hp
  refine ⟨(mem_slotOrder d.bufSz_pos).mpr (List.mem_reverse.mp (List.mem_of_find?_eq_some h)), hp.1.symm⟩

/-- 答えは `Findable` のときちょうど正しい。ほかの向きや種類の記録は、答えを変えない。 -/
theorem ptp_lookup_iff (hist : List PtpRecord) (d : Direction) (q : PtpExtts) :
    (((PtpState.run hist).query d q).map PtpExtts.ts = q.answer hist d ↔ Findable hist d q) ∧
    ∀ r : PtpRecord, (r.dir = d → r.msg ≠ PtpMsg.ofCode q.msgType) →
      (PtpState.run (hist ++ [r])).query d q = (PtpState.run hist).query d q := by
  constructor
  · rw [query_eq, PtpExtts.answer, Findable]
    cases PtpMsg.ofCode q.msgType with
    | none => simp
    | some t =>
        simp only [Option.bind_some, ptpGetTs_run, Option.mem_def, Option.some.injEq, forall_eq']
        cases hm : latest hist d q t with
        | some m =>
            obtain ⟨hmem, hseq⟩ := latest_mem hm
            obtain ⟨e, he⟩ : ∃ e, (slotOrder d.bufSz (recorded hist d t)).find? (fun e => q.sequenceId = e.sequenceId) = some e :=
              Option.isSome_iff_exists.mp (List.find?_isSome.mpr ⟨m, hmem, by simpa using hseq⟩)
            simp [he]
        | none =>
            simp only [Option.map_none, Option.map_eq_none_iff, Option.or_eq_none_iff, List.find?_eq_none,
              mem_slotOrder d.bufSz_pos, decide_eq_true_eq, ne_eq, zeros_unmatched, Nat.sub_eq_zero_iff_le]
  · intro r hr
    rw [query_eq, query_eq]
    cases ht : PtpMsg.ofCode q.msgType with
    | none => rfl
    | some t =>
        have hne : ¬(r.dir = d ∧ r.msg = some t) := fun h => hr h.1 (h.2.trans ht.symm)
        rw [Option.bind_some, Option.bind_some, run_concat, record_ring, if_neg hne]

/-- 発信者 `who` からの番号 7 の SYNC。 -/
def sampleSync (who : BitVec 8) (nsec : BitVec 32) : PtpRecord :=
  ⟨.rx, 100, ⟨0, 2, fun _ => who, 0x0700⟩, nsec⟩

/-- 二人の発信者の番号が重なると、後の発信者への問い合わせに先の発信者の時刻を返す。 -/
theorem ptp_lookup_wrong :
    ¬∀ (hist : List PtpRecord) (d : Direction) (q : PtpExtts),
      ((PtpState.run hist).query d q).map PtpExtts.ts = q.answer hist d := by
  intro h
  have h' := h [sampleSync 1 1000, sampleSync 2 2000] .rx ⟨0, fun _ => 2, 7, ⟨0, 0⟩⟩
  revert h'
  decide

end Imx6Bsp.Devnp.Ptp
