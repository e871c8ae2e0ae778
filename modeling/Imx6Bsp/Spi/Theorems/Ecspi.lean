import Imx6Bsp.Spi.Ecspi

/-!
# burst の転送の正しさ

送る順に番地を並べ替えて見れば、語の幅によらず、積む語も置く語もバイトの列である。burst を一つ終えるたびに、送った分と受けた分が 32 バイトずつ
増える。最後の burst の長さが 4 の倍数でなければ、余分なバイトまで `buf` に置くので、`len` を越えて書く。
-/

namespace Imx6Bsp.Spi

open Imx6Bsp.Lib

variable {w : Width} {mem : Nat → BitVec 8}

/-! ## 送る順の番地 -/

theorem wireIndex_add {t : Nat} (ht : w.bytes ∣ t) (i : Nat) : wireIndex w (t + i) = t + wireIndex w i := by
  cases w with
  | w8 => rfl
  | w16 => simp only [wireIndex, Width.bytes] at ht ⊢; omega
  | w32 => simp only [wireIndex, Width.bytes] at ht ⊢; omega

theorem wireIndex_lt {n i : Nat} (hn : w.bytes ∣ n) (hi : i < n) : wireIndex w i < n := by
  cases w with
  | w8 => exact hi
  | w16 => simp only [wireIndex, Width.bytes] at hn ⊢; omega
  | w32 => simp only [wireIndex, Width.bytes] at hn ⊢; omega

theorem wireIndex_ge {n i : Nat} (hn : w.bytes ∣ n) (hi : n ≤ i) : n ≤ wireIndex w i := by
  obtain ⟨k, rfl⟩ := Nat.exists_eq_add_of_le hi
  rw [wireIndex_add hn]
  exact Nat.le_add_right n _

/-- `t` から `n` バイトの、送る順の値。 -/
def wireBytes (w : Width) (mem : Nat → BitVec 8) (t n : Nat) : List (BitVec 8) := (List.range' t n).map fun i => mem (wireIndex w i)

@[simp]
theorem length_wireBytes {t n : Nat} : (wireBytes w mem t n).length = n := by
  rw [wireBytes, List.length_map, List.length_range']

theorem wireBytes_append (t m n : Nat) : wireBytes w mem t (m + n) = wireBytes w mem t m ++ wireBytes w mem (t + m) n := by
  rw [wireBytes, wireBytes, wireBytes, ← List.map_append, List.range'_append_1]

/-- `n` より上だけで決まる。 -/
theorem wireBytes_congr {mem' : Nat → BitVec 8} {t n : Nat} (ht : w.bytes ∣ t) (h : ∀ a ≥ t, mem a = mem' a) :
    wireBytes w mem t n = wireBytes w mem' t n := by
  refine List.map_congr_left fun i hi => h _ (wireIndex_ge ht ?_)
  exact (List.mem_range'_1.mp hi).1

/-! ## 積む語 -/

/-- `t` から積む `n` 個の語。 -/
def wordsFrom (w : Width) (mem : Nat → BitVec 8) (t : Nat) : Nat → List (BitVec 32)
  | 0 => []
  | n + 1 => loadWord w mem t :: wordsFrom w mem (t + 4) n

theorem wordBytes_loadWord {t : Nat} (ht : w.bytes ∣ t) : wordBytes (loadWord w mem t) = wireBytes w mem t 4 := by
  have h0 := wireIndex_add ht 0
  have h1 := wireIndex_add ht 1
  have h2 := wireIndex_add ht 2
  have h3 := wireIndex_add ht 3
  rw [Nat.add_zero] at h0
  simp only [wireBytes, List.range', List.map_cons, List.map_nil, Nat.add_assoc, Nat.reduceAdd, h0, h1, h2, h3]
  cases w with
  | w8 => exact wordBytes_word4
  | w16 => exact wordBytes_word4
  | w32 => exact wordBytes_word4

theorem flatMap_wordsFrom {t : Nat} (ht : w.bytes ∣ t) (hw : w.bytes ∣ 4) (n : Nat) :
    (wordsFrom w mem t n).flatMap wordBytes = wireBytes w mem t (4 * n) := by
  induction n generalizing t with
  | zero => rfl
  | succ n ih =>
      rw [wordsFrom, List.flatMap_cons, wordBytes_loadWord ht, ih (Nat.dvd_add ht hw), Nat.mul_succ, Nat.add_comm (4 * n), wireBytes_append]

theorem length_wordsFrom (t n : Nat) : (wordsFrom w mem t n).length = n := by
  induction n generalizing t with
  | zero => rfl
  | succ n ih => rw [wordsFrom, List.length_cons, ih]

theorem Width.bytes_dvd_four (w : Width) : w.bytes ∣ 4 := by cases w <;> decide

variable {s : Cspi}

/-- `n` 個か、`xlen` までの語を積む。 -/
theorem fillLoop_eq {n m : Nat} (hm : m ≤ n) (hle : s.tlen + 4 * m ≤ s.xlen) (hend : m = n ∨ s.tlen + 4 * m = s.xlen) :
    fillLoop n s = { s with tx := s.tx ++ wordsFrom s.width s.mem s.tlen m, tlen := s.tlen + 4 * m } := by
  induction n generalizing m s with
  | zero =>
      obtain rfl := Nat.le_zero.mp hm
      rw [wordsFrom, List.append_nil]
      rfl
  | succ n ih =>
      rw [fillLoop]
      cases m with
      | zero =>
          rw [if_neg (by omega), wordsFrom, List.append_nil]
          rfl
      | succ m =>
          rw [if_pos (by omega), ih (Nat.le_of_succ_le_succ hm) (by dsimp only; omega) (by dsimp only; omega), wordsFrom]
          simp only [List.append_assoc, List.singleton_append, Nat.mul_succ, Cspi.mk.injEq, true_and, and_true]
          omega

/-- 語に満たない分は、0 で埋めた一つの語になる。 -/
theorem remainder_spec {r : Nat} (hr : r < 4) (ht : s.width.bytes ∣ s.tlen) (hwr : s.width.bytes ∣ r) :
    (remainder s r).flatMap wordBytes = List.replicate (burstPad r) 0#8 ++ wireBytes s.width s.mem s.tlen r ∧
      (remainder s r).length = burstWords r := by
  have h0 := wireIndex_add ht 0
  have h1 := wireIndex_add ht 1
  rw [Nat.add_zero] at h0
  have hbyte : ∀ {a b c d : BitVec 8}, [word4 a b c d].flatMap wordBytes = [a, b, c, d] := by
    intro a b c d
    rw [List.flatMap_singleton, wordBytes_word4]
  interval_cases r
  · have hrem : remainder s 0 = [] := by cases hwidth : s.width <;> simp only [remainder, hwidth]
    rw [hrem]
    exact ⟨rfl, rfl⟩
  · cases hwidth : s.width with
    | w8 =>
        simp only [remainder, hwidth]
        exact ⟨hbyte, rfl⟩
    | w16 => rw [hwidth] at hwr; exact absurd hwr (by decide)
    | w32 => rw [hwidth] at hwr; exact absurd hwr (by decide)
  · cases hwidth : s.width with
    | w8 =>
        simp only [remainder, hwidth]
        exact ⟨hbyte, rfl⟩
    | w16 =>
        rw [hwidth] at h0 h1
        simp only [remainder, hwidth, wireBytes, List.range', List.map_cons, List.map_nil, h0, h1]
        exact ⟨hbyte, rfl⟩
    | w32 => rw [hwidth] at hwr; exact absurd hwr (by decide)
  · cases hwidth : s.width with
    | w8 =>
        simp only [remainder, hwidth]
        exact ⟨hbyte, rfl⟩
    | w16 => rw [hwidth] at hwr; exact absurd hwr (by decide)
    | w32 => rw [hwidth] at hwr; exact absurd hwr (by decide)

theorem loadRemainder_eq {r : Nat} (hr : r < 4) (ht : s.width.bytes ∣ s.tlen) (hwr : s.width.bytes ∣ r) :
    loadRemainder r s = { s with tx := s.tx ++ remainder s r, tlen := s.tlen + r } := by
  rw [loadRemainder]
  by_cases h : remainder s r = []
  · have hlen := (remainder_spec hr ht hwr).2
    rw [h, List.length_nil, burstWords, burstPad] at hlen
    obtain rfl : r = 0 := by omega
    rw [h]
    rfl
  · rw [if_neg h]

/-- 残りが `count` バイトのとき、次の burst の語を丁度積む。 -/
theorem loadBurst_spec {count : Nat} (htx : s.tx = []) (ht : s.width.bytes ∣ s.tlen) (hwc : s.width.bytes ∣ count)
    (hcount : s.tlen + count = s.xlen) :
    ∃ words, loadBurst count s = { s with bcnt := 8 * min 32 count - 1, tx := words, tlen := s.tlen + min 32 count } ∧
      words.length = burstWords (min 32 count) ∧
      words.flatMap wordBytes = List.replicate (burstPad (min 32 count)) 0#8 ++ wireBytes s.width s.mem s.tlen (min 32 count) := by
  rw [loadBurst]
  by_cases hmax : count ≥ burstMax
  · have hmin : min 32 count = 32 := Nat.min_eq_left hmax
    have hfill : s.tlen + 4 * 8 ≤ s.xlen := by rw [← hcount]; exact Nat.add_le_add_left hmax _
    rw [if_pos hmax, hmin]
    refine ⟨wordsFrom s.width s.mem s.tlen 8, ?_, length_wordsFrom _ _, flatMap_wordsFrom ht s.width.bytes_dvd_four 8⟩
    rw [@fillLoop_eq { s with bcnt := burstMax * 8 - 1 } 8 8 le_rfl hfill (Or.inl rfl)]
    dsimp only
    rw [htx]
    rfl
  · have hlt : count < 32 := Nat.lt_of_not_le hmax
    have hmin : min 32 count = count := Nat.min_eq_right hlt.le
    have hr : count % 4 < 4 := Nat.mod_lt _ (by decide)
    have hwr : s.width.bytes ∣ count % 4 := (Nat.dvd_mod_iff s.width.bytes_dvd_four).mpr hwc
    have ht' : s.width.bytes ∣ s.tlen + count % 4 := Nat.dvd_add ht hwr
    obtain ⟨hbytes, hlen⟩ := @remainder_spec { s with bcnt := count * 8 - 1 } (count % 4) hr ht hwr
    rw [if_neg hmax, hmin, @loadRemainder_eq { s with bcnt := count * 8 - 1 } (count % 4) hr ht hwr]
    refine ⟨remainder { s with bcnt := count * 8 - 1 } (count % 4) ++ wordsFrom s.width s.mem (s.tlen + count % 4) (count / 4), ?_, ?_, ?_⟩
    · rw [@fillLoop_eq _ 8 (count / 4) (by omega) (by dsimp only; omega) (Or.inr (by dsimp only; omega))]
      simp only [htx, List.nil_append, Cspi.mk.injEq, true_and, and_true]
      omega
    · rw [List.length_append, length_wordsFrom, hlen]
      simp only [burstWords, burstPad]
      omega
    · have hpad : burstPad (count % 4) = burstPad count := by rw [burstPad, burstPad, Nat.mod_mod]
      rw [List.flatMap_append, flatMap_wordsFrom ht' s.width.bytes_dvd_four, hbytes]
      dsimp only
      rw [hpad, List.append_assoc, ← wireBytes_append, Nat.mod_add_div]

/-! ## 置く語 -/

theorem storeBytes_wire (data : BitVec 32) {i : Nat} (hi : i < 4) :
    (storeBytes w data).getD (wireIndex w i) 0 = (wordBytes data).getD i 0 := by
  cases w <;> interval_cases i <;> rfl

/-- 一つの語を置いた後の値。 -/
theorem storeWord_mem (data : BitVec 32) (hr : s.width.bytes ∣ s.rlen) {i : Nat} (hi : i < 4) :
    (storeWord s data).mem (wireIndex s.width (s.rlen + i)) = (wordBytes data).getD i 0 := by
  have hlt : wireIndex s.width i < 4 := wireIndex_lt s.width.bytes_dvd_four hi
  rw [storeWord, wireIndex_add hr]
  dsimp only
  rw [if_pos ⟨Nat.le_add_right _ _, Nat.add_lt_add_left hlt _⟩, Nat.add_sub_cancel_left, storeBytes_wire data hi]

/-- 置いた語の列。 -/
structure Stored (words : List (BitVec 32)) (s t : Cspi) : Prop where
  eq : t = { s with mem := t.mem, writes := s.writes ++ List.range' s.rlen (4 * words.length), rlen := s.rlen + 4 * words.length }
  bytes : ∀ i < 4 * words.length, t.mem (wireIndex s.width (s.rlen + i)) = (words.flatMap wordBytes).getD i 0
  below : ∀ a < s.rlen, t.mem a = s.mem a
  above : ∀ a ≥ s.rlen + 4 * words.length, t.mem a = s.mem a

theorem foldl_storeWord (words : List (BitVec 32)) (hr : s.width.bytes ∣ s.rlen) : Stored words s (words.foldl storeWord s) := by
  induction words generalizing s with
  | nil =>
      refine ⟨?_, fun i hi => absurd hi (Nat.not_lt_zero i), fun _ _ => rfl, fun _ _ => rfl⟩
      rw [List.length_nil, Nat.mul_zero, List.range'_zero, List.append_nil]
      rfl
  | cons data words ih =>
      have hnext : (storeWord s data).width.bytes ∣ (storeWord s data).rlen := Nat.dvd_add hr s.width.bytes_dvd_four
      have hrest := ih hnext
      have hlen : s.rlen + 4 * (data :: words).length = s.rlen + 4 + 4 * words.length := by rw [List.length_cons]; omega
      rw [List.foldl_cons]
      refine ⟨?_, fun i hi => ?_, fun a ha => ?_, fun a ha => ?_⟩
      · have heq := hrest.eq
        rw [heq]
        simp only [storeWord, Cspi.mk.injEq, true_and, and_true]
        refine ⟨hlen.symm, ?_⟩
        rw [List.append_assoc, List.range'_append_1, List.length_cons, Nat.mul_succ, Nat.add_comm 4]
      · by_cases hlt : i < 4
        · have hin : wireIndex s.width (s.rlen + i) < s.rlen + 4 :=
            wireIndex_lt (Nat.dvd_add hr s.width.bytes_dvd_four) (Nat.add_lt_add_left hlt _)
          rw [hrest.below _ hin, storeWord_mem data hr hlt, List.flatMap_cons, List.getD_append _ _ _ _ hlt]
        · obtain ⟨k, rfl⟩ := Nat.exists_eq_add_of_le (Nat.le_of_not_lt hlt)
          have hk : k < 4 * words.length := by rw [List.length_cons] at hi; omega
          have hbyte := hrest.bytes k hk
          rw [List.flatMap_cons, List.getD_append_right _ _ _ _ (by rw [length_wordBytes]; omega), length_wordBytes, Nat.add_sub_cancel_left,
            ← hbyte, ← Nat.add_assoc]
          rfl
      · rw [hrest.below a (ha.trans (Nat.lt_add_of_pos_right (by decide)))]
        exact if_neg fun h => Nat.not_le.mpr ha h.1
      · have hge : s.rlen + 4 + 4 * words.length ≤ a := hlen ▸ ha
        rw [hrest.above a hge]
        exact if_neg fun h => by omega

/-! ## 一つの burst -/

variable {env : SpiSlave} {buf : Nat → BitVec 8} {len j : Nat}

/-- `j` 番目の burst の前の状態。その burst の語を積み終えている。 -/
structure Ready (env : SpiSlave) (w : Width) (buf : Nat → BitVec 8) (len j : Nat) (s : Cspi) : Prop where
  more : 32 * j < len
  width : s.width = w
  xlen : s.xlen = len
  rlen : s.rlen = 32 * j
  tlen : s.tlen = 32 * j + min 32 (len - 32 * j)
  bcnt : s.bcnt = 8 * min 32 (len - 32 * j) - 1
  words : s.tx.length = burstWords (min 32 (len - 32 * j))
  tx : s.tx.flatMap wordBytes =
    List.replicate (burstPad (min 32 (len - 32 * j))) 0#8 ++ wireBytes w buf (32 * j) (min 32 (len - 32 * j))
  rx : s.rx = []
  sent : s.sent = wireBytes w buf 0 (32 * j)
  loads : ∀ p ∈ s.loads, p.1 ≤ burstWords p.2
  below : ∀ i < 32 * j, s.mem (wireIndex w i) = env.slave i
  above : ∀ a ≥ 32 * j, s.mem a = buf a
  writes : ∀ a ∈ s.writes, a < 32 * j

/-- 最後の burst が `j` 番目で、それを終えた状態。 -/
structure Finished (env : SpiSlave) (w : Width) (buf : Nat → BitVec 8) (len j : Nat) (s : Cspi) : Prop where
  more : 32 * j < len
  last : len ≤ 32 * j + 32
  xlen : s.xlen = len
  rlen : s.rlen = len + burstPad len
  sent : s.sent = wireBytes w buf 0 len
  loads : ∀ p ∈ s.loads, p.1 ≤ burstWords p.2
  below : ∀ i < 32 * j, s.mem (wireIndex w i) = env.slave i
  tail : ∀ i, 32 * j ≤ i → i < len → s.mem (wireIndex w (i + burstPad len)) = env.slave i
  writes : ∀ a ∈ s.writes, a < len + burstPad len
  written : ∀ a, 32 * j ≤ a → a < len + burstPad len → a ∈ s.writes

theorem dvd_burst (w : Width) (j : Nat) : w.bytes ∣ 32 * j :=
  (w.bytes_dvd_four.trans (by decide)).trans (Nat.dvd_mul_right 32 j)

/-- 初めの burst の語を積んだ状態。 -/
theorem ready_zero (hpos : 0 < len) (hw : w.bytes ∣ len) : Ready env w buf len 0 (loadBurst len { width := w, mem := buf, xlen := len }) := by
  obtain ⟨words, heq, hlen, hbytes⟩ := @loadBurst_spec { width := w, mem := buf, xlen := len } len rfl (Nat.dvd_zero _) hw (Nat.zero_add len)
  rw [heq]
  exact
    { more := hpos, width := rfl, xlen := rfl, rlen := rfl, tlen := rfl, bcnt := rfl, words := hlen, tx := hbytes, rx := rfl, sent := rfl
      loads := fun _ h => absurd h List.not_mem_nil
      below := fun i hi => absurd hi (Nat.not_lt_zero i)
      above := fun _ _ => rfl
      writes := fun _ h => absurd h List.not_mem_nil }

/-- `j` 番目の burst で受ける語。 -/
def received (env : SpiSlave) (j k : Nat) (s : Cspi) : List (BitVec 32) :=
  shiftIn k (env.junk s.loads.length) ((List.range' (32 * j) k).map env.slave)

/-- 積んだ語は丁度送られる。 -/
theorem Ready.exchange_eq (h : Ready env w buf len j s) {k : Nat} (hk : min 32 (len - 32 * j) = k) :
    exchange env s = { s with
      tx := [], rx := received env j k s, sent := wireBytes w buf 0 (32 * j + k), loads := s.loads ++ [(burstWords k, k)] } := by
  have hmore := h.more
  have hpos : 0 < k := by omega
  have hbcnt : (s.bcnt + 1) / 8 = k := by
    rw [h.bcnt, hk]
    omega
  have hwords := h.words
  have htx := h.tx
  rw [hk] at hwords htx
  rw [exchange, hbcnt]
  have hout : shiftOut k s.tx = wireBytes w buf (32 * j) k := shiftOut_eq hwords List.length_replicate htx
  rw [hout, h.rx, h.sent, List.drop_of_length_le hwords.le, hwords, length_wireBytes, wireBytes_append, Nat.zero_add, List.nil_append]
  rfl

theorem length_received (env : SpiSlave) (j k : Nat) (s : Cspi) : (received env j k s).length = burstWords k :=
  length_shiftIn _ (by rw [List.length_map, List.length_range'])

/-- 受けた語のバイトは、余分なバイトの後に、相手の値が続く。 -/
theorem received_getD (env : SpiSlave) (j k : Nat) (s : Cspi) {i : Nat} (hi : i < k) :
    ((received env j k s).flatMap wordBytes).getD (burstPad k + i) 0 = env.slave (32 * j + i) := by
  have hlen : ((List.range' (32 * j) k).map env.slave).length = k := by rw [List.length_map, List.length_range']
  have hpad : ((wordBytes (env.junk s.loads.length)).take (burstPad k)).length = burstPad k := by
    rw [List.length_take, length_wordBytes, Nat.min_eq_left (burstPad_lt k).le]
  rw [received, flatMap_shiftIn _ hlen, List.getD_append_right _ _ _ _ (by omega), hpad, Nat.add_sub_cancel_left,
    List.getD_eq_getElem _ _ (by rw [hlen]; exact hi), List.getElem_map, List.getElem_range', Nat.one_mul]

/-- 受けた語を置いた後の状態。`s` は burst の前、`t` は語を積んだ後の状態である。 -/
theorem drain_received {s t : Cspi} {k : Nat} (hrx : t.rx = received env j k s) (hrlen : t.rlen = 32 * j) :
    ∃ u, drain t = { t with mem := u, rx := [], writes := t.writes ++ List.range' (32 * j) (k + burstPad k), rlen := 32 * j + (k + burstPad k) } ∧
      (∀ i < k, u (wireIndex t.width (32 * j + (burstPad k + i))) = env.slave (32 * j + i)) ∧ (∀ a < 32 * j, u a = t.mem a) ∧
      ∀ a ≥ 32 * j + (k + burstPad k), u a = t.mem a := by
  have hstored := foldl_storeWord t.rx (by rw [hrlen]; exact dvd_burst t.width j)
  have hwords : 4 * t.rx.length = k + burstPad k := by rw [hrx, length_received, four_mul_burstWords]
  obtain ⟨heq, hbytes, hbelow, habove⟩ := hstored
  rw [hrlen, hwords] at heq hbytes habove
  rw [hrlen] at hbelow
  refine ⟨_, ?_, fun i hi => ?_, hbelow, habove⟩
  · rw [drain, heq]
  · rw [hbytes _ (by omega), hrx, received_getD env j k s hi]

/-- 続きがあるとき、次の burst の前の状態になる。 -/
theorem Ready.next (h : Ready env w buf len j s) (hw : w.bytes ∣ len) (hmore : 32 * (j + 1) < len) :
    ∃ t, spiIntr (exchange env s) = (false, t) ∧ Ready env w buf len (j + 1) t := by
  have hk : min 32 (len - 32 * j) = 32 := by omega
  have htlen : s.tlen = 32 * (j + 1) := by rw [h.tlen, hk, Nat.mul_succ]
  rw [h.exchange_eq hk, spiIntr]
  dsimp only
  rw [if_pos (by rw [h.xlen, htlen]; omega)]
  have hcount : s.xlen - s.tlen = len - 32 * (j + 1) := by rw [h.xlen, htlen]
  obtain ⟨words, heq, hlen, hbytes⟩ := @loadBurst_spec { s with
      tx := [], rx := received env j 32 s, sent := wireBytes w buf 0 (32 * j + 32), loads := s.loads ++ [(burstWords 32, 32)] }
    (s.xlen - s.tlen) rfl (by dsimp only; rw [h.width, htlen]; exact dvd_burst w (j + 1))
    (by rw [hcount]; dsimp only; rw [h.width]; exact Nat.dvd_sub hw (dvd_burst w (j + 1)))
    (by dsimp only; rw [h.xlen, htlen]; omega)
  obtain ⟨u, hdrain, hin, hbelow, habove⟩ := @drain_received env j s _ 32 (congrArg Cspi.rx heq) ((congrArg Cspi.rlen heq).trans h.rlen)
  rw [heq] at hdrain hin hbelow habove
  rw [hcount] at hlen hbytes hdrain
  dsimp only at hlen hbytes hdrain hin hbelow habove
  rw [h.width] at hbytes hin
  rw [heq, hcount, hdrain]
  refine ⟨_, Prod.ext (decide_eq_false ?_) rfl, ?_⟩
  · dsimp only
    rw [h.xlen, burstPad]
    omega
  · exact
      { more := hmore, width := h.width, xlen := h.xlen, rlen := rfl, tlen := by dsimp only; rw [htlen], bcnt := rfl, words := hlen
        tx := by
          dsimp only
          rw [hbytes, htlen, wireBytes_congr (dvd_burst w (j + 1)) fun a ha => h.above a (by omega)]
        rx := rfl, sent := rfl
        loads := fun p hp => by
          rcases List.mem_append.mp hp with hp | hp
          · exact h.loads p hp
          · rw [List.mem_singleton.mp hp]
        below := fun i hi => by
          by_cases hlt : i < 32 * j
          · dsimp only
            rw [hbelow _ (wireIndex_lt (dvd_burst w j) hlt), h.below i hlt]
          · obtain ⟨k, rfl⟩ := Nat.exists_eq_add_of_le (Nat.le_of_not_lt hlt)
            have hbyte := hin k (by omega)
            rwa [show burstPad 32 = 0 from rfl, Nat.zero_add] at hbyte
        above := fun a ha => (habove a ha).trans (h.above a (by omega))
        writes := fun a ha => by
          rcases List.mem_append.mp ha with ha | ha
          · exact (h.writes a ha).trans (by omega)
          · exact (List.mem_range'_1.mp ha).2 }

/-- 最後の burst で終わる。 -/
theorem Ready.finish (h : Ready env w buf len j s) (hw : w.bytes ∣ len) (hlast : len ≤ 32 * j + 32) :
    ∃ t, spiIntr (exchange env s) = (true, t) ∧ Finished env w buf len j t := by
  have hmore := h.more
  obtain ⟨k, rfl⟩ := Nat.exists_eq_add_of_lt hmore
  have hk : min 32 (32 * j + k + 1 - 32 * j) = k + 1 := by omega
  have htlen : s.tlen = 32 * j + (k + 1) := by rw [h.tlen, hk]
  have hpad : burstPad (k + 1) = burstPad (32 * j + k + 1) := by
    rw [burstPad, burstPad]
    omega
  rw [h.exchange_eq hk, spiIntr]
  dsimp only
  rw [if_neg (by rw [h.xlen, htlen]; omega)]
  obtain ⟨u, hdrain, hin, hbelow, habove⟩ := @drain_received env j s { s with
      tx := [], rx := received env j (k + 1) s, sent := wireBytes w buf 0 (32 * j + (k + 1)), loads := s.loads ++ [(burstWords (k + 1), k + 1)] }
    (k + 1) rfl h.rlen
  dsimp only at hdrain hin hbelow habove
  rw [h.width] at hin
  rw [hdrain]
  refine ⟨_, Prod.ext (decide_eq_true ?_) rfl, ?_⟩
  · dsimp only
    rw [h.xlen]
    omega
  · exact
      { more := hmore, last := hlast, xlen := h.xlen, rlen := by dsimp only; rw [hpad]; omega, sent := rfl
        loads := fun p hp => by
          rcases List.mem_append.mp hp with hp | hp
          · exact h.loads p hp
          · rw [List.mem_singleton.mp hp]
        below := fun i hi => by
          dsimp only
          rw [hbelow _ (wireIndex_lt (dvd_burst w j) hi), h.below i hi]
        tail := fun i hge hlt => by
          obtain ⟨n, rfl⟩ := Nat.exists_eq_add_of_le hge
          have hbyte := hin n (by omega)
          rw [hpad] at hbyte
          dsimp only
          rw [← hbyte, Nat.add_assoc, Nat.add_comm n]
        writes := fun a ha => by
          rcases List.mem_append.mp ha with ha | ha
          · exact (h.writes a ha).trans (by omega)
          · have hlt := (List.mem_range'_1.mp ha).2
            rw [hpad] at hlt
            omega
        written := fun a hge hlt => List.mem_append_right _ (List.mem_range'_1.mpr ⟨hge, by rw [hpad]; omega⟩) }

/-! ## 転送の全体 -/

/-- どの転送も終わる。 -/
theorem Ready.bursts (h : Ready env w buf len j s) (hw : w.bytes ∣ len) :
    ∃ fuel i t, Spi.bursts env fuel s = some t ∧ Finished env w buf len i t := by
  induction hn : len - 32 * j using Nat.strongRecOn generalizing j s with
  | ind n ih =>
      by_cases hmore : 32 * (j + 1) < len
      · obtain ⟨t, hstep, hready⟩ := h.next hw hmore
        obtain ⟨fuel, i, u, hrun, hfinished⟩ := ih (len - 32 * (j + 1)) (by omega) hready rfl
        refine ⟨fuel + 1, i, u, ?_, hfinished⟩
        rw [Spi.bursts, hstep]
        exact hrun
      · obtain ⟨t, hstep, hfinished⟩ := h.finish hw (by omega)
        refine ⟨1, j, t, ?_, hfinished⟩
        rw [Spi.bursts, hstep]
        rfl

/-- 終わった状態は、上限によらない。 -/
theorem bursts_unique {fuel fuel' : Nat} {t t' : Cspi} (h : bursts env fuel s = some t) (h' : bursts env fuel' s = some t') : t = t' := by
  induction fuel generalizing fuel' s with
  | zero => cases h
  | succ fuel ih =>
      cases fuel' with
      | zero => cases h'
      | succ fuel' =>
          rw [bursts] at h h'
          cases hstep : spiIntr (exchange env s) with
          | mk done u =>
              rw [hstep] at h h'
              cases done with
              | true => exact Option.some.inj (h.symm.trans h')
              | false => exact ih h h'

theorem repair_eq (s : Cspi) : repair s = if s.xlen % 4 = 0 then s else discard (burstPad s.xlen) s := by
  have hcases : s.xlen % 4 = 0 ∨ s.xlen % 4 = 1 ∨ s.xlen % 4 = 2 ∨ s.xlen % 4 = 3 := by omega
  rw [repair, burstPad]
  rcases hcases with h | h | h | h <;> rw [h] <;> rfl

/-- 余分なバイトがないときと、捨てるときに分ける。 -/
theorem Finished.repair_cases (h : Finished env w buf len j s) :
    (burstPad len = 0 ∧ repair s = s) ∨ (0 < burstPad len ∧ len / burstMax * burstMax = 32 * j ∧ repair s = discard (burstPad len) s) := by
  have hmore := h.more
  have hlast := h.last
  rw [repair_eq, h.xlen]
  by_cases hrest : len % 4 = 0
  · exact .inl ⟨by rw [burstPad, hrest], if_pos hrest⟩
  · have hdiv : len / 32 = j := by omega
    refine .inr ⟨?_, by rw [burstMax, hdiv, Nat.mul_comm], if_neg hrest⟩
    rw [burstPad]
    omega

/-- 最後の語の余分なバイトを捨てた後は、受けた値が並ぶ。 -/
theorem Finished.repair_received (h : Finished env w buf len j s) (hw : w.bytes ∣ len) {i : Nat} (hi : i < len) :
    (repair s).mem (wireIndex w i) = env.slave i := by
  rcases h.repair_cases with ⟨hpad, heq⟩ | ⟨-, hburst, heq⟩
  · rw [heq]
    by_cases hlt : i < 32 * j
    · exact h.below i hlt
    · have hbyte := h.tail i (Nat.le_of_not_lt hlt) hi
      rwa [hpad, Nat.add_zero] at hbyte
  · have hpadw : w.bytes ∣ burstPad len := by
      have hsum : w.bytes ∣ len + burstPad len := by
        rw [← four_mul_burstWords]
        exact w.bytes_dvd_four.trans (Nat.dvd_mul_right 4 _)
      exact (Nat.dvd_add_right hw).mp hsum
    rw [heq, discard]
    dsimp only
    rw [h.xlen, hburst]
    by_cases hlt : i < 32 * j
    · rw [if_neg fun hle => Nat.not_le.mpr (wireIndex_lt (dvd_burst w j) hlt) hle.1, h.below i hlt]
    · have hge : 32 * j ≤ i := Nat.le_of_not_lt hlt
      rw [if_pos ⟨wireIndex_ge (dvd_burst w j) hge, wireIndex_lt hw hi⟩, Nat.add_comm, ← wireIndex_add hpadw, Nat.add_comm, h.tail i hge hi]

/-- `len` の外に書かないのは、余分なバイトがないときに限る。 -/
theorem Finished.repair_inside (h : Finished env w buf len j s) : (∀ a ∈ (repair s).writes, a < len) ↔ burstPad len = 0 := by
  rcases h.repair_cases with ⟨hpad, heq⟩ | ⟨hpad, -, heq⟩
  · rw [heq]
    refine iff_of_true (fun a ha => ?_) hpad
    have hlt := h.writes a ha
    rwa [hpad] at hlt
  · refine iff_of_false (fun hin => ?_) hpad.ne'
    have hmem : len ∈ (repair s).writes := by
      rw [heq, discard]
      exact List.mem_append_left _ (h.written len h.more.le (Nat.lt_add_of_pos_right hpad))
    exact Nat.lt_irrefl _ (hin len hmem)

/-- 送る値と受ける値は、どの長さでも正しい。正しくないのは、`len` の外に書くときだけである。 -/
theorem Finished.repair_right (h : Finished env w buf len j s) (hw : w.bytes ∣ len) :
    XferRight env w buf len (repair s) ↔ len % 4 = 0 := by
  have hfields : (repair s).sent = s.sent ∧ (repair s).loads = s.loads ∧ (repair s).rlen = len := by
    rcases h.repair_cases with ⟨hpad, heq⟩ | ⟨-, -, heq⟩
    · rw [heq, h.rlen, hpad]
      exact ⟨rfl, rfl, rfl⟩
    · rw [heq]
      refine ⟨rfl, rfl, ?_⟩
      rw [discard]
      dsimp only
      rw [h.rlen, Nat.add_sub_cancel]
  have hpad : burstPad len = 0 ↔ len % 4 = 0 := by
    rw [burstPad]
    omega
  rw [← hpad, ← h.repair_inside]
  refine ⟨fun hright => hright.inside, fun hinside => ⟨?_, ?_, hfields.2.2, fun i hi => h.repair_received hw hi, hinside⟩⟩
  · rw [hfields.1, h.sent, wireBytes, List.range_eq_range']
  · rw [hfields.2.1]
    exact h.loads

/-- 転送が正しいのは、長さが 4 の倍数のときである。 -/
theorem xfer_exact_iff (env : SpiSlave) (w : Width) (buf : Nat → BitVec 8) {len : Nat} (hpos : 0 < len) (hw : w.bytes ∣ len) :
    XferExact env w buf len ↔ len % 4 = 0 := by
  obtain ⟨fuel, j, t, hrun, hfinished⟩ := (@ready_zero w env buf len hpos hw).bursts hw
  rw [← hfinished.repair_right hw]
  constructor
  · rintro ⟨fuel', s, hs, hright⟩
    obtain ⟨t', hrun', rfl⟩ := Option.map_eq_some_iff.mp hs
    rwa [bursts_unique hrun hrun']
  · exact fun hright => ⟨fuel, repair t, Option.map_eq_some_iff.mpr ⟨t, hrun, rfl⟩, hright⟩

/-- 四バイトの転送。 -/
theorem xfer_exact_sample : XferExact ⟨fun i => BitVec.ofNat 8 i, fun _ => 0⟩ .w8 (fun _ => 0xff) 4 :=
  (xfer_exact_iff ⟨fun i => BitVec.ofNat 8 i, fun _ => 0⟩ .w8 (fun _ => 0xff) (by decide) (by decide)).mpr rfl

/-- 一バイトの転送は、四バイトを `buf` に置く。 -/
theorem xfer_not_exact : ¬ ∀ (env : SpiSlave) (w : Width) (buf : Nat → BitVec 8) (len : Nat), 0 < len → w.bytes ∣ len →
    XferExact env w buf len := by
  intro h
  obtain ⟨fuel, s, hs, hright⟩ := h ⟨fun _ => 0, fun _ => 0⟩ .w8 (fun _ => 0) 1 (by decide) (by decide)
  obtain ⟨t, hrun, rfl⟩ := Option.map_eq_some_iff.mp hs
  have hready : Ready ⟨fun _ => 0, fun _ => 0⟩ .w8 (fun _ => 0) 1 0 _ := ready_zero (by decide) (by decide)
  obtain ⟨u, hstep, hfinished⟩ := hready.finish (by decide) (by decide)
  have hone : bursts ⟨fun _ => 0, fun _ => 0⟩ 1 (loadBurst 1 { width := .w8, mem := fun _ => 0, xlen := 1 }) = some u := by
    rw [bursts, hstep]
    rfl
  rw [bursts_unique hrun hone] at hright
  exact absurd ((hfinished.repair_right (by decide)).mp hright) (by decide)

end Imx6Bsp.Spi
