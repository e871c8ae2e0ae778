import Imx6Bsp.Flash.Norspi

/-!
# 直列の NOR フラッシュの往復

積む語は、命令とデータを並べたバイトの列を、前を 0 で埋めて四つずつ分けたものである。受ける語も同じ並びなので、初めの語を捨てれば、残りはデータの
分の返事になる。書き込みは頁の終わりを越えないから、チップの頁の中で折り返さない。
-/

namespace Imx6Bsp.Flash

open Imx6Bsp.Lib

/-! ## 語の列 -/

theorem take_eq_getD {l : List (BitVec 8)} {n : Nat} (h : n ≤ l.length) : l.take n = (List.range n).map fun i => l.getD i 0 := by
  refine List.ext_getElem (by rw [List.length_take, List.length_map, List.length_range, Nat.min_eq_left h]) fun i h1 h2 => ?_
  rw [List.length_take] at h1
  rw [List.getElem_take, List.getElem_map, List.getElem_range, List.getD_eq_getElem]

theorem flatMap_headWords (cmd : SpiCmd) (data : List (BitVec 8)) :
    (headWords cmd data).flatMap wordBytes = List.replicate (burstPad data.length) 0#8 ++ (cmd.bytes ++ data.take (data.length % 4)) := by
  have hle := Nat.mod_le data.length 4
  have hr : data.length % 4 = 0 ∨ data.length % 4 = 1 ∨ data.length % 4 = 2 ∨ data.length % 4 = 3 := by omega
  rw [take_eq_getD hle, headWords, burstPad]
  rcases hr with hr | hr | hr | hr
  all_goals
    rw [hr]
    simp only [List.flatMap_cons, List.flatMap_nil, wordBytes_word4, SpiCmd.bytes, List.range_succ, List.range_zero, List.map_cons, List.map_nil,
      List.map_append]
    rfl

/-- 積む語は、前を 0 で埋めた命令とデータである。 -/
theorem flatMap_cmdWords (cmd : SpiCmd) (data : List (BitVec 8)) :
    (cmdWords cmd data).flatMap wordBytes = List.replicate (burstPad data.length) 0#8 ++ (cmd.bytes ++ data) := by
  have hlen : (data.drop (data.length % 4)).length = 4 * (data.length / 4) := by
    rw [List.length_drop]
    omega
  rw [cmdWords, List.flatMap_append, flatMap_headWords, flatMap_packWords hlen, List.append_assoc, List.append_assoc, List.take_append_drop]

theorem burstPad_cmd (n : Nat) : burstPad (4 + n) = burstPad n := by
  rw [burstPad, burstPad, Nat.add_mod_left]

theorem length_cmdWords (cmd : SpiCmd) (data : List (BitVec 8)) : (cmdWords cmd data).length = burstWords (4 + data.length) := by
  have hlen := length_flatMap_wordBytes (cmdWords cmd data)
  have hwords := four_mul_burstWords (4 + data.length)
  rw [flatMap_cmdWords, List.length_append, List.length_append, List.length_replicate] at hlen
  rw [burstPad_cmd] at hwords
  simp only [SpiCmd.bytes, List.length_cons, List.length_nil] at hlen
  omega

/-- 命令とデータがそのまま送られる。 -/
theorem shiftOut_cmdWords (cmd : SpiCmd) (data : List (BitVec 8)) : shiftOut (4 + data.length) (cmdWords cmd data) = cmd.bytes ++ data :=
  shiftOut_eq (length_cmdWords cmd data) (by rw [List.length_replicate, burstPad_cmd]) (flatMap_cmdWords cmd data)

theorem readRx_rest {len : Nat} (hrest : len % 4 ≠ 0) (rx : List (BitVec 32)) :
    readRx len rx =
      (wordBytes ((rx.drop 1).headD 0)).drop (4 - len % 4) ++ (((rx.drop 1).drop 1).take (len / 4)).flatMap wordBytes := by
  rw [readRx]
  split
  · exact absurd ‹_› hrest
  · rfl

/-- 受けた語から読むデータは、命令の四バイトの後の返事である。 -/
theorem readRx_eq {len : Nat} {rx : List (BitVec 32)} {pad resp : List (BitVec 8)} (hpad : pad.length = burstPad len)
    (hresp : resp.length = 4 + len) (h : rx.flatMap wordBytes = pad ++ resp) : readRx len rx = resp.drop 4 := by
  have hlen := length_flatMap_wordBytes rx
  rw [h, List.length_append, hpad, hresp, burstPad] at hlen
  obtain ⟨w0, rx, rfl⟩ := List.exists_cons_of_length_pos (l := rx) (by omega)
  rw [List.length_cons] at hlen
  by_cases hrest : len % 4 = 0
  · have hnil : pad = [] := List.length_eq_zero_iff.mp (by rw [hpad, burstPad, hrest])
    have hall : rx.take (len / 4) = rx := List.take_of_length_le (by omega)
    rw [hnil, List.nil_append, List.flatMap_cons] at h
    rw [readRx, List.drop_one, List.tail_cons, hrest, ← h, List.drop_left' (length_wordBytes w0)]
    exact congrArg (List.flatMap wordBytes) hall
  · obtain ⟨w1, rx, rfl⟩ := List.exists_cons_of_length_pos (l := rx) (by omega)
    rw [List.length_cons] at hlen
    have hall : rx.take (len / 4) = rx := List.take_of_length_le (by omega)
    have hm : pad.length = 4 - len % 4 := by
      rw [hpad, burstPad]
      omega
    have hle : pad.length ≤ (wordBytes w1).length := by
      rw [length_wordBytes]
      omega
    rw [List.flatMap_cons, List.flatMap_cons] at h
    rw [readRx_rest hrest]
    simp only [List.drop_one, List.tail_cons, List.headD_cons, hall, ← hm]
    calc (wordBytes w1).drop pad.length ++ rx.flatMap wordBytes
        = (wordBytes w1 ++ rx.flatMap wordBytes).drop pad.length := (List.drop_append_of_le_length hle).symm
      _ = ((pad ++ resp).drop 4).drop pad.length := by rw [← h, List.drop_left' (length_wordBytes w0)]
      _ = resp.drop 4 := by rw [List.drop_drop, Nat.add_comm, ← List.drop_drop, List.drop_left]

/-! ## チップの返事 -/

variable {chip : NorChip} {junk : Nat → BitVec 8}

theorem burst_enable : chip.burst junk [0x06#8] = (if chip.busy then chip else { chip with wel := true }, junk) := rfl

theorem burst_status (sent : List (BitVec 8)) :
    chip.burst junk (statusCmd.bytes ++ sent) = (chip, fun i => if i = 0 then junk i else chip.status) := rfl

theorem burst_read (offset : Nat) (sent : List (BitVec 8)) : chip.burst junk ((addressCmd 0x03#8 offset).bytes ++ sent) =
    (chip, fun i => if chip.busy ∨ i < 4 then junk i else
      chip.array ((address (BitVec.ofNat 8 (offset / 2 ^ 16)) (BitVec.ofNat 8 (offset / 2 ^ 8)) (BitVec.ofNat 8 offset) + (i - 4)) % totalSizeBytes)) :=
  rfl

theorem burst_program (offset : Nat) (data : List (BitVec 8)) : chip.burst junk ((addressCmd 0x02#8 offset).bytes ++ data) =
    (if chip.busy = false ∧ chip.wel = true ∧ data ≠ [] ∧ data.length ≤ pageSize then
      chip.program (address (BitVec.ofNat 8 (offset / 2 ^ 16)) (BitVec.ofNat 8 (offset / 2 ^ 8)) (BitVec.ofNat 8 offset)) data else chip, junk) :=
  rfl

/-- 番地の三バイトは、装置の中の番地を表す。 -/
theorem address_bytes {offset : Nat} (h : offset < totalSizeBytes) :
    address (BitVec.ofNat 8 (offset / 2 ^ 16)) (BitVec.ofNat 8 (offset / 2 ^ 8)) (BitVec.ofNat 8 offset) = offset := by
  have hsize : totalSizeBytes = 2 ^ 22 := rfl
  simp only [address, BitVec.toNat_ofNat, hsize] at h ⊢
  omega

/-- 状態の最下位のビットは、書き込み中であることを表す。 -/
theorem status_busy (chip : NorChip) : decide ((chip.status &&& 1#8) ≠ 0#8) = chip.busy := by
  rw [NorChip.status]
  cases chip.wel <;> cases chip.busy <;> rfl

/-! ## burst -/

variable {env : NorEnv} {s : Nor}

/-- burst の間のチップと返事。 -/
def Nor.answer (s : Nor) (env : NorEnv) (sent : List (BitVec 8)) : NorChip × (Nat → BitVec 8) :=
  (s.ready env).burst (env.junk s.log.length) sent

theorem meets_spiExchange {k : Nat} {words : List (BitVec 32)} {Q : Bool → Nor → Prop} {E : Unit → Nor → Prop} :
    Meets (spiExchange env k words) s Q E ↔ Q (!env.waitFails s.log.length)
      { chip := (s.answer env (shiftOut k words)).1
        rx := s.rx ++ shiftIn k (env.upper s.log.length) ((List.range k).map (s.answer env (shiftOut k words)).2)
        log := s.log ++ [shiftOut k words] } := Iff.rfl

/-- 一つの burst を終えた状態。待てたなら、受信の FIFO は空である。 -/
structure Sent (env : NorEnv) (sent : List (BitVec 8)) (ok : Bool) (s t : Nor) : Prop where
  chip : t.chip = (s.answer env sent).1
  log : t.log = s.log ++ [sent]
  wait : ok = !env.waitFails s.log.length
  rx : ok = true → t.rx = []

theorem spiWrite1byte_meets (env : NorEnv) (s : Nor) (cmd : BitVec 8) :
    Meets (spiWrite1byte env cmd) s (fun ok t => Sent env [cmd] ok s t) (fun _ _ => False) := by
  have hout : shiftOut 1 [word4 0 0 0 cmd] = [cmd] :=
    @shiftOut_eq 1 [word4 0 0 0 cmd] [0, 0, 0] [cmd] rfl rfl (by rw [List.flatMap_singleton, wordBytes_word4]; rfl)
  rw [spiWrite1byte, meets_bind, meets_spiExchange, hout, meets_ite]
  refine ⟨fun hok => ⟨rfl, rfl, hok.symm, fun _ => rfl⟩, fun hok => ⟨rfl, rfl, (Bool.eq_false_of_not_eq_true hok).symm, fun h => Bool.noConfusion h⟩⟩

theorem spiCmdWrite_meets (env : NorEnv) (s : Nor) (cmd : SpiCmd) (data : List (BitVec 8)) :
    Meets (spiCmdWrite env cmd data) s (fun ok t => Sent env (cmd.bytes ++ data) ok s t) (fun _ _ => False) := by
  rw [spiCmdWrite, meets_bind, meets_spiExchange, shiftOut_cmdWords, meets_ite]
  refine ⟨fun hok => ⟨rfl, rfl, hok.symm, fun _ => rfl⟩, fun hok => ⟨rfl, rfl, (Bool.eq_false_of_not_eq_true hok).symm, fun h => Bool.noConfusion h⟩⟩

/-- 読み出しで送るバイトの列。 -/
def readSent (cmd : SpiCmd) (len : Nat) : List (BitVec 8) := cmd.bytes ++ List.replicate len 0#8

/-- 受信の FIFO が空のところから読めば、命令の四バイトの後の返事を読む。 -/
theorem spiCmdRead_meets (env : NorEnv) (s : Nor) (cmd : SpiCmd) (len : Nat) :
    Meets (spiCmdRead env cmd len) s
      (fun rc t => Sent env (readSent cmd len) rc.isSome s t ∧
        (s.rx = [] → ∀ bytes ∈ rc, bytes = (List.range' 4 len).map (s.answer env (readSent cmd len)).2))
      (fun _ _ => False) := by
  have hout : shiftOut (4 + len) (cmdWords cmd (List.replicate len 0#8)) = readSent cmd len := by
    have h := shiftOut_cmdWords cmd (List.replicate len 0#8)
    rwa [List.length_replicate] at h
  rw [spiCmdRead, meets_bind, meets_spiExchange, hout, meets_ite]
  refine ⟨fun hok => ⟨⟨rfl, rfl, hok.symm, fun _ => rfl⟩, fun hrx bytes hbytes => ?_⟩, fun hok => ⟨⟨rfl, rfl, ?_, fun h => Bool.noConfusion h⟩, ?_⟩⟩
  · obtain rfl := Option.some.inj hbytes
    have hresp : ((List.range (4 + len)).map (s.answer env (readSent cmd len)).2).length = 4 + len := by rw [List.length_map, List.length_range]
    have hpad : ((wordBytes (env.upper s.log.length)).take (burstPad (4 + len))).length = burstPad len := by
      rw [List.length_take, length_wordBytes, Nat.min_eq_left (burstPad_lt _).le, burstPad_cmd]
    have hread := readRx_eq hpad hresp (flatMap_shiftIn (env.upper s.log.length) hresp)
    dsimp only
    rw [hrx, List.nil_append, hread, ← List.map_drop, List.range_eq_range', List.drop_range', Nat.mul_one, Nat.zero_add, Nat.add_sub_cancel_left]
  · exact (Bool.eq_false_of_not_eq_true hok).symm
  · exact fun _ _ h => by cases h

/-! ## 書き込みの終わりを待つ -/

theorem ready_array : (s.ready env).array = s.chip.array := by
  rw [Nor.ready]
  split <;> rfl

theorem ready_busy (h : s.chip.busy = false) : (s.ready env).busy = false := by
  rw [Nor.ready]
  split
  · rfl
  · exact h

/-- 状態を読む burst。 -/
def statusSent : List (BitVec 8) := readSent statusCmd 4

/-- 状態を一度読んだ後。 -/
structure Polled (env : NorEnv) (s t : Nor) : Prop where
  log : t.log = s.log ++ [statusSent]
  rx : t.rx = []
  chip : t.chip = s.ready env

theorem iswriting_meets (env : NorEnv) (s : Nor) :
    Meets (iswriting env) s (fun busy t => Polled env s t ∧ (s.rx = [] → busy = t.chip.busy))
      (fun _ t => t.log = s.log ++ [statusSent] ∧ env.waitFails s.log.length = true) := by
  rw [iswriting, meets_bind]
  refine (spiCmdRead_meets env s statusCmd 4).mono (fun rc t ht => ?_) fun _ _ h => h.elim
  obtain ⟨hsent, hread⟩ := ht
  have hchip : t.chip = s.ready env := hsent.chip
  cases rc with
  | none => exact ⟨hsent.log, by simpa using hsent.wait⟩
  | some status =>
      refine ⟨⟨hsent.log, hsent.rx rfl, hchip⟩, fun hrx => ?_⟩
      have hstatus := hread hrx status rfl
      have hbyte : status.getD 3 0 = (s.ready env).status := by rw [hstatus]; rfl
      rw [hbyte, hchip]
      exact status_busy (s.ready env)

/-- 状態だけを読んだ記録。 -/
def PollsOnly (before after : List (List (BitVec 8))) : Prop := ∃ polls, after = before ++ polls ∧ ∀ p ∈ polls, p.head? = some 0x05#8

theorem PollsOnly.cons {before after : List (List (BitVec 8))} (h : PollsOnly (before ++ [statusSent]) after) : PollsOnly before after := by
  obtain ⟨polls, rfl, hpolls⟩ := h
  exact ⟨statusSent :: polls, List.append_assoc _ _ _, List.forall_mem_cons.mpr ⟨rfl, hpolls⟩⟩

theorem pollsOnly_one (before : List (List (BitVec 8))) : PollsOnly before (before ++ [statusSent]) :=
  ⟨[statusSent], rfl, List.forall_mem_singleton.mpr rfl⟩

/-- 待った後の状態。 -/
structure Completed (env : NorEnv) (s t : Nor) : Prop where
  log : PollsOnly s.log t.log
  rx : t.rx = []
  array : t.chip.array = s.chip.array
  busy : s.rx = [] → t.chip.busy = false

/-- 待ちに失敗するのは、`spi_wait()` が失敗するか、`count` 回の間に書き込みが終わらないときである。 -/
theorem waitForCompletion_meets (env : NorEnv) (count : Nat) (s : Nor) :
    Meets (waitForCompletion env count) s (fun _ t => Completed env s t)
      (fun _ t => PollsOnly s.log t.log ∧
        (s.rx = [] → (∀ n, env.waitFails n = false) → ∀ k < count, env.finish (s.log.length + k) = false)) := by
  induction count generalizing s with
  | zero => exact ⟨⟨[], (List.append_nil _).symm, fun _ h => absurd h List.not_mem_nil⟩, fun _ _ k hk => absurd hk (Nat.not_lt_zero k)⟩
  | succ count ih =>
      rw [waitForCompletion, meets_bind]
      refine (iswriting_meets env s).mono (fun busy t ht => ?_) fun _ t ht => ⟨ht.1 ▸ pollsOnly_one _, fun _ hwaits => ?_⟩
      · obtain ⟨hpolled, hbusy⟩ := ht
        have harray : t.chip.array = s.chip.array := by rw [hpolled.chip, ready_array]
        rw [meets_ite]
        refine ⟨fun htrue => ?_, fun hfalse => ⟨hpolled.log ▸ pollsOnly_one _, hpolled.rx, harray, fun hrx => ?_⟩⟩
        · refine (ih t).mono (fun _ u hu => ?_) fun _ u hu => ?_
          · exact ⟨.cons (hpolled.log ▸ hu.log), hu.rx, hu.array.trans harray, fun _ => hu.busy hpolled.rx⟩
          · refine ⟨.cons (hpolled.log ▸ hu.1), fun hrx hwaits k hk => ?_⟩
            cases k with
            | zero =>
                -- その前に終わっていれば、書き込み中と読まない。
                refine Bool.eq_false_iff.mpr fun hfinish => ?_
                have hready : (s.ready env).busy = false := by
                  rw [Nat.add_zero] at hfinish
                  rw [Nor.ready, if_pos hfinish]
                rw [hbusy hrx, hpolled.chip, hready] at htrue
                exact Bool.noConfusion htrue
            | succ k =>
                have hlater := hu.2 hpolled.rx hwaits k (Nat.lt_of_succ_lt_succ hk)
                rwa [hpolled.log, List.length_append, List.length_singleton, Nat.add_assoc, Nat.add_comm 1] at hlater
        · rw [← hbusy hrx]
          exact Bool.eq_false_of_not_eq_true hfalse
      · exact absurd ht.2 (by simp [hwaits])

/-! ## `page_program()` -/

/-- 頁の中に収まるデータは、折り返さずに書かれる。 -/
theorem program_array {offset : Nat} {data : List (BitVec 8)} (hfit : offset % pageSize + data.length ≤ pageSize) (x : Nat) :
    (chip.program offset data).array x =
      if offset ≤ x ∧ x < offset + data.length then chip.array x &&& data.getD (x - offset) 0 else chip.array x := by
  rw [NorChip.program]
  dsimp only
  rw [pageSize] at hfit ⊢
  by_cases hin : offset ≤ x ∧ x < offset + data.length
  · have hidx : (x + 256 - offset % 256) % 256 = x - offset := by omega
    rw [hidx, if_pos ⟨by omega, by omega⟩, if_pos hin]
  · rw [if_neg hin, if_neg]
    rintro ⟨hpage, hidx⟩
    refine hin ?_
    omega

theorem pageBytes_eq (offset len : Nat) : pageBytes offset len = min (min len maxData) (pageSize - offset % pageSize) := by
  rw [pageBytes, pageSize]
  omega

theorem pageBytes_pos {offset len : Nat} (hlen : 0 < len) : 1 ≤ pageBytes offset len := by
  rw [pageBytes_eq, maxData, pageSize]
  omega

theorem pageBytes_le (offset len : Nat) : pageBytes offset len ≤ len ∧ offset % pageSize + pageBytes offset len ≤ pageSize := by
  rw [pageBytes_eq, maxData, pageSize]
  omega

theorem length_take_pageBytes (offset : Nat) (data : List (BitVec 8)) :
    (data.take (pageBytes offset data.length)).length = pageBytes offset data.length := by
  rw [List.length_take, Nat.min_eq_left (pageBytes_le offset data.length).1]

/-- `page_program()` が成功した後の状態。 -/
structure Programmed (offset : Nat) (data : List (BitVec 8)) (s t : Nor) : Prop where
  idle : t.Idle
  array : s.chip.busy = false → t.chip.array = (s.chip.program offset (data.take (pageBytes offset data.length))).array

theorem pageProgram_meets (env : NorEnv) (s : Nor) {offset : Nat} {data : List (BitVec 8)} (hoffset : offset < totalSizeBytes)
    (hdata : data ≠ []) :
    Meets (pageProgram env offset data) s
      (fun n t => n = pageBytes offset data.length ∧ ProgramSends offset data n s.log t.log ∧ Programmed offset data s t)
      (fun _ t => (t.log = s.log ++ [[0x06#8]] ∨ ProgramSends offset data (pageBytes offset data.length) s.log t.log) ∧ ¬ env.Prompt) := by
  have hlen := length_take_pageBytes offset data
  have hfit := (pageBytes_le offset data.length).2
  have hpos : 1 ≤ pageBytes offset data.length := pageBytes_pos (List.length_pos_iff.mpr hdata)
  rw [pageProgram, writeEnable]
  simp only [meets_bind]
  refine (spiWrite1byte_meets env s 0x06#8).mono (fun ok t ht => ?_) fun _ _ h => h.elim
  rw [meets_ite, meets_pure, meets_throw]
  refine ⟨fun hok => ?_, fun hok => ⟨.inl ht.log, fun hprompt => ?_⟩⟩
  · refine (spiCmdWrite_meets env t (addressCmd 0x02#8 offset) (data.take (pageBytes offset data.length))).mono (fun rc u hu => ?_)
      fun _ _ h => h.elim
    have hlog : u.log = s.log ++ [[0x06#8], 0x02#8 :: addressBytes offset ++ data.take (pageBytes offset data.length)] := by
      rw [hu.log, ht.log, List.append_assoc]
      rfl
    have hsends : ∀ {after : List (List (BitVec 8))}, PollsOnly u.log after → ProgramSends offset data (pageBytes offset data.length) s.log after := by
      rintro after ⟨polls, rfl, hpolls⟩
      exact ⟨polls, by rw [hlog], hpolls⟩
    refine (waitForCompletion_meets env 2500 u).mono (fun _ v hv => ?_) fun _ v hv => ⟨.inr (hsends hv.1), fun hprompt => ?_⟩
    · rw [meets_ite, meets_pure, meets_throw]
      refine ⟨fun hrc => ⟨rfl, hsends hv.log, ⟨hv.busy (hu.rx hrc), hv.rx⟩, fun hidle => ?_⟩, fun hrc => ⟨.inr (hsends hv.log), fun hprompt => hrc ?_⟩⟩
      · -- 許可の後、書き込みの前には、書き込み中でない。
        have henabled : t.chip = { s.ready env with wel := true } := by
          rw [ht.chip, Nor.answer, burst_enable, if_neg (by rw [ready_busy hidle]; exact Bool.false_ne_true)]
        have hbusy : t.chip.busy = false := by
          rw [henabled]
          exact ready_busy hidle
        have hwel : (t.ready env).wel = true := by
          rw [Nor.ready, henabled]
          split <;> rfl
        have hne : data.take (pageBytes offset data.length) ≠ [] := List.ne_nil_of_length_pos (by rw [hlen]; exact hpos)
        have harray : (t.ready env).array = s.chip.array := by
          rw [ready_array, henabled]
          exact ready_array
        rw [hv.array, hu.chip, Nor.answer, burst_program, if_pos ⟨ready_busy hbusy, hwel, hne, by rw [hlen]; omega⟩, address_bytes hoffset]
        funext x
        rw [program_array (by rw [hlen]; exact hfit), program_array (by rw [hlen]; exact hfit), harray]
      · rw [hu.wait, hprompt.waits]
        rfl
    · have hrc : rc = true := by rw [hu.wait, hprompt.waits]; rfl
      obtain ⟨k, hk, hfinish⟩ := hprompt.finishes u.log.length
      rw [hv.2 (hu.rx hrc) hprompt.waits k hk] at hfinish
      exact Bool.noConfusion hfinish
  · refine hok ?_
    rw [ht.wait, hprompt.waits]
    rfl

/-! ## `read_from()` -/

theorem length_bytes (chip : NorChip) (offset len : Nat) : (chip.bytes offset len).length = len := by
  rw [NorChip.bytes, List.length_map, List.length_range']

/-- 読み出しに成功した後の状態。 -/
structure ReadDone (s t : Nor) : Prop where
  idle : t.Idle
  array : t.chip.array = s.chip.array

/-- 書き込み中でなければ、その範囲のバイトを読む。 -/
theorem readFrom_meets (env : NorEnv) {s : Nor} (hs : s.Idle) {offset len : Nat} (hrange : offset + len ≤ totalSizeBytes) :
    Meets (readFrom env offset len) s (fun bytes t => bytes = s.chip.bytes offset (min len maxData) ∧ ReadDone s t)
      (fun _ _ => ¬ env.Prompt) := by
  rw [readFrom, meets_ite]
  refine ⟨fun hzero => ?_, fun hpos => ?_⟩
  · rw [hzero, Nat.zero_min]
    exact ⟨rfl, hs, rfl⟩
  · have hle : min len maxData ≤ len := Nat.min_le_left _ _
    have hoffset : offset < totalSizeBytes := by omega
    have hbusy : (s.ready env).busy = false := ready_busy hs.busy
    rw [meets_bind]
    refine (spiCmdRead_meets env s (addressCmd 0x03#8 offset) (min len maxData)).mono (fun rc t ht => ?_) fun _ _ h => h.elim
    obtain ⟨hsent, hread⟩ := ht
    have hanswer := @burst_read (s.ready env) (env.junk s.log.length) offset (List.replicate (min len maxData) 0#8)
    cases rc with
    | none => exact fun hprompt => absurd hsent.wait (by rw [hprompt.waits]; exact Bool.false_ne_true)
    | some bytes =>
        have hchip : t.chip = s.ready env := by
          rw [hsent.chip, Nor.answer, readSent, hanswer]
        refine ⟨?_, ⟨by rw [hchip]; exact hbusy, hsent.rx rfl⟩, by rw [hchip, ready_array]⟩
        rw [hread hs.rx bytes rfl, Nor.answer, readSent, hanswer, NorChip.bytes, ← @ready_array env s, List.range'_eq_map_range, List.range'_eq_map_range,
          List.map_map, List.map_map]
        refine List.map_congr_left fun i hi => ?_
        rw [List.mem_range] at hi
        have hsent : ¬ ((s.ready env).busy = true ∨ 4 + i < 4) := by
          rintro (h | h)
          · exact Bool.noConfusion (hbusy.symm.trans h)
          · omega
        rw [Function.comp_apply, Function.comp_apply]
        dsimp only
        rw [if_neg hsent, address_bytes hoffset, Nat.add_sub_cancel_left, Nat.mod_eq_of_lt (by omega)]

theorem bytes_take (chip : NorChip) (offset : Nat) {k n : Nat} (h : k ≤ n) : (chip.bytes offset n).take k = chip.bytes offset k := by
  rw [NorChip.bytes, NorChip.bytes, ← List.map_take, List.take_range'_of_length_ge h]

theorem bytes_drop (chip : NorChip) (offset k n : Nat) : (chip.bytes offset n).drop k = chip.bytes (offset + k) (n - k) := by
  rw [NorChip.bytes, NorChip.bytes, ← List.map_drop, List.drop_range', Nat.mul_one]

theorem bytes_congr {chip' : NorChip} (h : chip.array = chip'.array) (offset n : Nat) : chip.bytes offset n = chip'.bytes offset n := by
  rw [NorChip.bytes, NorChip.bytes, h]

/-! ## `f3s_spi_write()` -/

/-- 読み返しに失敗するのは、待ちに失敗するか、中身が違うときである。 -/
theorem verifyLoop_meets (env : NorEnv) (fuel : Nat) {s : Nor} (hs : s.Idle) {offset : Nat} {data : List (BitVec 8)}
    (hrange : offset + data.length ≤ totalSizeBytes) :
    Meets (verifyLoop env fuel offset data) s (fun _ t => ReadDone s t) (fun _ _ => data = s.chip.bytes offset data.length → ¬ env.Prompt) := by
  induction fuel generalizing s offset data with
  | zero => exact ⟨hs, rfl⟩
  | succ fuel ih =>
      rw [verifyLoop, meets_ite]
      refine ⟨fun _ => ⟨hs, rfl⟩, fun _ => ?_⟩
      have hle : min pageSize data.length ≤ data.length := Nat.min_le_right _ _
      rw [meets_bind]
      refine (readFrom_meets env hs (Nat.le_trans (Nat.add_le_add_left hle offset) hrange)).mono (fun bytes t ht => ?_) fun _ _ h _ => h
      obtain ⟨hbytes, hdone⟩ := ht
      have hlen : bytes.length ≤ data.length := by
        rw [hbytes, length_bytes]
        exact (Nat.min_le_left _ _).trans hle
      rw [meets_ite, meets_throw]
      refine ⟨fun _ => ?_, fun hdiff hdata => ?_⟩
      · refine (ih hdone.idle (by rw [List.length_drop]; omega)).mono (fun _ u hu => ⟨hu.idle, hu.array.trans hdone.array⟩) fun _ _ h hdata => h ?_
        rw [List.length_drop, bytes_congr hdone.array]
        calc data.drop bytes.length = (s.chip.bytes offset data.length).drop bytes.length := by rw [← hdata]
          _ = s.chip.bytes (offset + bytes.length) (data.length - bytes.length) := bytes_drop _ _ _ _
      · refine absurd ?_ hdiff
        calc bytes = s.chip.bytes offset bytes.length := by rw [hbytes, length_bytes]
          _ = (s.chip.bytes offset data.length).take bytes.length := (bytes_take _ _ hlen).symm
          _ = data.take bytes.length := by rw [← hdata]

/-- 消した範囲に書いた後の中身。 -/
theorem program_erased {offset : Nat} {data : List (BitVec 8)} (hfit : offset % pageSize + data.length ≤ pageSize)
    (herased : ∀ i < data.length, chip.array (offset + i) = 0xff#8) (x : Nat) :
    (chip.program offset data).array x = if offset ≤ x ∧ x < offset + data.length then data.getD (x - offset) 0 else chip.array x := by
  rw [program_array hfit]
  by_cases hin : offset ≤ x ∧ x < offset + data.length
  · have hff : chip.array x = 0xff#8 := by
      rw [← Nat.add_sub_of_le hin.1]
      exact herased _ (by omega)
    rw [if_pos hin, if_pos hin, hff, show (0xff#8 : BitVec 8) = BitVec.allOnes 8 from rfl, BitVec.allOnes_and]
  · rw [if_neg hin, if_neg hin]

/-- 書いた値の並ぶ範囲を読む。 -/
theorem bytes_of_getD {offset : Nat} {data : List (BitVec 8)}
    (h : ∀ x, offset ≤ x → x < offset + data.length → chip.array x = data.getD (x - offset) 0) : chip.bytes offset data.length = data := by
  refine List.ext_getElem (length_bytes _ _ _) fun i h1 h2 => ?_
  rw [List.getElem_of_eq (show chip.bytes offset data.length = (List.range' offset data.length).map chip.array from rfl), List.getElem_map,
    List.getElem_range', Nat.one_mul, h _ (Nat.le_add_right _ _) (Nat.add_lt_add_left h2 _), Nat.add_sub_cancel_left, List.getD_eq_getElem]

theorem f3sSpiWrite_meets (env : NorEnv) (s : Nor) (verify : Bool) {offset : Nat} {data : List (BitVec 8)} (hoffset : offset < totalSizeBytes)
    (hdata : data ≠ []) :
    Meets (f3sSpiWrite env verify offset data) s (fun n t => n = pageBytes offset data.length ∧ Programmed offset data s t)
      (fun _ _ => s.chip.busy = false → (∀ i < pageBytes offset data.length, s.chip.array (offset + i) = 0xff#8) → ¬ env.Prompt) := by
  have hpage : totalSizeBytes = 2 ^ 22 := rfl
  have hle := pageBytes_le offset data.length
  have hpos := List.length_pos_iff.mpr hdata
  -- 頁は装置の終わりを越えないので、`page()` の許す長さで切っても同じである。
  have hlen : pageBytes offset (data.take (min data.length (totalSizeBytes - offset))).length = pageBytes offset data.length := by
    rw [List.length_take, pageBytes_eq, pageBytes_eq, maxData, pageSize]
    omega
  have htake : (data.take (min data.length (totalSizeBytes - offset))).take (pageBytes offset data.length) = data.take (pageBytes offset data.length) := by
    rw [List.take_take]
    congr 1
    rw [pageSize] at hle
    omega
  have hne : data.take (min data.length (totalSizeBytes - offset)) ≠ [] := by
    refine List.ne_nil_of_length_pos ?_
    rw [List.length_take]
    omega
  rw [f3sSpiWrite, if_neg (Nat.not_le.mpr hoffset)]
  simp only [meets_bind, meets_pure]
  refine (pageProgram_meets env s hoffset hne).mono (fun n t ht => ?_) fun _ _ h _ _ => h.2
  obtain ⟨rfl, -, hidle, harray⟩ := ht
  rw [hlen, htake] at harray
  rw [hlen]
  cases verify with
  | false => exact ⟨rfl, hidle, harray⟩
  | true =>
      have hcount := length_take_pageBytes offset data
      have hrange : offset + (data.take (pageBytes offset data.length)).length ≤ totalSizeBytes := by
        rw [hcount]
        rw [pageSize] at hle
        omega
      refine (verifyLoop_meets env _ hidle hrange).mono (fun _ u hu => ⟨rfl, hu.idle, fun hbusy => hu.array.trans (harray hbusy)⟩) fun _ u hu => ?_
      intro hbusy herased
      refine hu (bytes_of_getD fun x hge hlt => ?_).symm
      rw [harray hbusy, program_erased (by rw [hcount]; exact hle.2) (by rw [hcount]; exact herased), if_pos ⟨hge, hlt⟩]

/-! ## 往復 -/

/-- 範囲だけにデータが書かれた状態。 -/
structure Stored (offset : Nat) (data : List (BitVec 8)) (s t : Nor) : Prop where
  idle : t.Idle
  array : ∀ x, t.chip.array x = if offset ≤ x ∧ x < offset + data.length then data.getD (x - offset) 0 else s.chip.array x

/-- 消した範囲には全部を書ける。 -/
theorem writeAll_meets (env : NorEnv) (verify : Bool) (fuel : Nat) {s : Nor} (hs : s.Idle) {offset : Nat} {data : List (BitVec 8)}
    (hfuel : data.length < fuel) (hrange : offset + data.length ≤ totalSizeBytes)
    (herased : ∀ i < data.length, s.chip.array (offset + i) = 0xff#8) :
    Meets (writeAll env verify fuel offset data) s (fun _ t => Stored offset data s t) (fun _ _ => ¬ env.Prompt) := by
  induction fuel generalizing s offset data with
  | zero => exact absurd hfuel (Nat.not_lt_zero _)
  | succ fuel ih =>
      rw [writeAll, meets_ite]
      refine ⟨fun hnil => ⟨hs, fun x => ?_⟩, fun hne => ?_⟩
      · rw [if_neg (by rw [hnil, List.length_nil]; omega)]
      · have hpos := List.length_pos_iff.mpr hne
        have hle := pageBytes_le offset data.length
        have hone : 1 ≤ pageBytes offset data.length := pageBytes_pos hpos
        rw [meets_bind]
        refine (f3sSpiWrite_meets env s verify (by omega) hne).mono (fun n t ht => ?_) fun _ _ h =>
          h hs.busy fun i hi => herased i (hi.trans_le hle.1)
        obtain ⟨rfl, hidle, harray⟩ := ht
        have hcount := length_take_pageBytes offset data
        have hafter : ∀ x, t.chip.array x =
            if offset ≤ x ∧ x < offset + pageBytes offset data.length then (data.take (pageBytes offset data.length)).getD (x - offset) 0
            else s.chip.array x := by
          intro x
          rw [harray hs.busy, program_erased (by rw [hcount]; exact hle.2) (by rw [hcount]; exact fun i hi => herased i (hi.trans_le hle.1)), hcount]
        have hrest : ∀ i < (data.drop (pageBytes offset data.length)).length,
            t.chip.array (offset + pageBytes offset data.length + i) = 0xff#8 := by
          intro i hi
          rw [List.length_drop] at hi
          rw [hafter, if_neg (by omega), Nat.add_assoc]
          exact herased _ (by omega)
        refine (ih hidle (by rw [List.length_drop]; omega) (by rw [List.length_drop]; omega) hrest).mono (fun _ u hu => ⟨hu.idle, fun x => ?_⟩)
          fun _ _ h => h
        rw [hu.array, List.length_drop, hafter]
        by_cases hfirst : offset ≤ x ∧ x < offset + pageBytes offset data.length
        · rw [if_neg (by omega), if_pos hfirst, if_pos (by omega), List.getD_eq_getElem?_getD, List.getD_eq_getElem?_getD,
            List.getElem?_take_of_lt (by omega)]
        · by_cases hin : offset ≤ x ∧ x < offset + data.length
          · rw [if_pos (by omega), if_pos hin, List.getD_eq_getElem?_getD, List.getD_eq_getElem?_getD, List.getElem?_drop,
              show pageBytes offset data.length + (x - (offset + pageBytes offset data.length)) = x - offset by omega]
          · rw [if_neg (by omega), if_neg hfirst, if_neg hin]

/-- 範囲の全部を読む。 -/
theorem readAll_meets (env : NorEnv) (fuel : Nat) {s : Nor} (hs : s.Idle) {offset len : Nat} (hfuel : len < fuel)
    (hrange : offset + len ≤ totalSizeBytes) :
    Meets (readAll env fuel offset len) s (fun bytes _ => bytes = s.chip.bytes offset len) (fun _ _ => ¬ env.Prompt) := by
  induction fuel generalizing s offset len with
  | zero => exact absurd hfuel (Nat.not_lt_zero _)
  | succ fuel ih =>
      rw [readAll, meets_ite]
      refine ⟨fun hzero => by rw [hzero]; rfl, fun hpos => ?_⟩
      have hsize : min len (totalSizeBytes - offset) = len := Nat.min_eq_left (by omega)
      rw [meets_bind, f3sSpiRead, if_neg (by omega), hsize]
      refine (readFrom_meets env hs hrange).mono (fun bytes t ht => ?_) fun _ _ h => h
      obtain ⟨rfl, hdone⟩ := ht
      rw [length_bytes, meets_bind]
      have hle : min len maxData ≤ len := Nat.min_le_left _ _
      have hone : 0 < min len maxData := by rw [maxData]; omega
      refine (ih hdone.idle (by omega) (by omega)).mono (fun rest u hu => ?_) fun _ _ h => h
      refine meets_pure.mpr ?_
      rw [hu, bytes_congr hdone.array, ← bytes_take s.chip offset hle, ← bytes_drop, List.take_append_drop]

theorem writeThenRead_meets (env : NorEnv) (verify : Bool) {s : Nor} (hs : s.Idle) {offset : Nat} {data : List (BitVec 8)}
    (hrange : offset + data.length ≤ totalSizeBytes) (herased : ∀ i < data.length, s.chip.array (offset + i) = 0xff#8) :
    Meets (writeThenRead env verify offset data) s (fun bytes _ => bytes = data) (fun _ _ => ¬ env.Prompt) := by
  rw [writeThenRead, meets_bind]
  refine (writeAll_meets env verify _ hs (Nat.lt_succ_self _) hrange herased).mono (fun _ t ht => ?_) fun _ _ h => h
  refine (readAll_meets env _ ht.idle (Nat.lt_succ_self _) hrange).mono (fun bytes u hu => ?_) fun _ _ h => h
  rw [hu]
  exact bytes_of_getD fun x hge hlt => by rw [ht.array, if_pos ⟨hge, hlt⟩]

/-- どの周りでも、書き込みと読み出しは正しい。 -/
theorem nor_exact (env : NorEnv) : NorExact env where
  program s offset data hoffset hdata := by
    refine ⟨pageBytes_eq offset data.length, pageBytes_pos (List.length_pos_iff.mpr hdata), ?_⟩
    exact (pageProgram_meets env s hoffset hdata).mono (fun _ _ h => ⟨h.1, h.2.1⟩) fun _ _ h => h.1
  write s verify offset data hoffset hdata :=
    (f3sSpiWrite_meets env s verify hoffset hdata).mono (fun _ _ h => ⟨h.1, h.2.idle⟩) fun _ _ _ => trivial
  read s offset len hs hrange :=
    (readFrom_meets env hs hrange).mono (fun _ _ h => ⟨h.1, h.2.idle, h.2.array⟩) fun _ _ _ => trivial
  roundTrip s verify offset data hs hrange herased := writeThenRead_meets env verify hs hrange herased

end Imx6Bsp.Flash
