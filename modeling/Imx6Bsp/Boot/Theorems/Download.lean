import Imx6Bsp.Boot.Download

/-!
# `image_download_ser()` の受け付ける入力

入力は、開始の印までの読み捨て、通し番号の続く記録の列、終わり方の三つに分かれる。
-/

namespace Imx6Bsp.Boot

open Imx6Bsp.Lib Imx6Bsp.Startup

/-! ## 32 ビットのポインタによる書き込み -/

/-- `dst` から順に書いた記憶域。 -/
def storeBytes (mem : Mem) (dst : Nat) : List UInt8 → Mem
  | [] => mem
  | c :: bytes => storeBytes (mem.writeLE dst 1 c.toNat) (wrap32 (dst + 1)) bytes

/-- `mem'` は、`mem` の `dst` から `bytes` を並べた記憶域である。番地は 32 ビットで一周し、後のバイトが残る。 -/
structure Holds (mem mem' : Mem) (dst : Nat) (bytes : List UInt8) : Prop where
  stored : ∀ i (h : i < bytes.length), bytes.length ≤ i + 2 ^ 32 → mem' (wrap32 (dst + i)) = bytes[i]
  frame : ∀ x, (∀ i < bytes.length, wrap32 (dst + i) ≠ x) → mem' x = mem x

theorem wrap32_step (dst i : Nat) : wrap32 (wrap32 (dst + 1) + i) = wrap32 (dst + (i + 1)) := by
  unfold wrap32
  omega

theorem storeBytes_append {mem : Mem} {dst : Nat} (hdst : dst < 2 ^ 32) (xs ys : List UInt8) :
    storeBytes mem dst (xs ++ ys) = storeBytes (storeBytes mem dst xs) (wrap32 (dst + xs.length)) ys := by
  induction xs generalizing mem dst with
  | nil =>
      rw [List.length_nil, Nat.add_zero, wrap32_of_lt hdst]
      rfl
  | cons x xs ih =>
      rw [List.cons_append, storeBytes, ih (wrap32_lt _), storeBytes, wrap32_step, List.length_cons]

theorem storeBytes_frame {mem : Mem} {dst x : Nat} {bytes : List UInt8} (hdst : dst < 2 ^ 32)
    (h : ∀ i < bytes.length, wrap32 (dst + i) ≠ x) : storeBytes mem dst bytes x = mem x := by
  induction bytes generalizing mem dst with
  | nil => rfl
  | cons c bytes ih =>
      have hne := h 0 (Nat.succ_pos _)
      rw [Nat.add_zero, wrap32_of_lt hdst] at hne
      rw [storeBytes, ih (wrap32_lt _) fun i hi => ?_]
      · apply Mem.writeLE_of_disjoint
        omega
      · rw [wrap32_step]
        exact h (i + 1) (Nat.succ_lt_succ hi)

theorem storeBytes_holds {mem : Mem} {dst : Nat} {bytes : List UInt8} (hdst : dst < 2 ^ 32) :
    Holds mem (storeBytes mem dst bytes) dst bytes := by
  refine ⟨?_, fun x hx => storeBytes_frame hdst hx⟩
  induction bytes generalizing mem dst with
  | nil => exact fun i h => absurd h (Nat.not_lt_zero i)
  | cons c bytes ih =>
      intro i hi hlast
      cases i with
      | zero =>
          rw [List.length_cons] at hlast
          rw [Nat.add_zero, wrap32_of_lt hdst, storeBytes, storeBytes_frame (wrap32_lt _)]
          · simp [Mem.writeLE]
          · intro j hj
            unfold wrap32
            omega
      | succ i =>
          rw [← wrap32_step, storeBytes, List.getElem_cons_succ]
          apply ih (wrap32_lt _)
          rw [List.length_cons] at hlast
          omega

theorem Holds.unique {mem m₁ m₂ : Mem} {dst : Nat} {bytes : List UInt8} (h₁ : Holds mem m₁ dst bytes)
    (h₂ : Holds mem m₂ dst bytes) : m₁ = m₂ := by
  funext x
  by_cases hx : ∀ i < bytes.length, wrap32 (dst + i) ≠ x
  · rw [h₁.frame x hx, h₂.frame x hx]
  · simp only [not_forall, not_not] at hx
    obtain ⟨i, hi, rfl⟩ := hx
    -- 同じ番地に書いたバイトのうち、最後のもの。
    have hwrap : wrap32 (dst + i) = wrap32 (dst + (i + (bytes.length - 1 - i) / 2 ^ 32 * 2 ^ 32)) := by
      unfold wrap32
      omega
    have hlt : i + (bytes.length - 1 - i) / 2 ^ 32 * 2 ^ 32 < bytes.length := by omega
    rw [hwrap, h₁.stored _ hlt (by omega), h₂.stored _ hlt (by omega)]

/-! ## 記録の列 -/

/-- 一つの記録の中身。通し番号は、列の中の位置で決まる。 -/
structure Chunk where
  cksum : UInt8
  daddr : List UInt8
  payload : List UInt8
  daddr_length : daddr.length = 4
  payload_pos : 0 < payload.length
  payload_le : payload.length ≤ 256

/-- 8 バイトのヘッダ。 -/
def Chunk.header (c : Chunk) (seq : Nat) : List UInt8 :=
  dataCmd :: UInt8.ofNat (seq % 128) :: c.cksum :: UInt8.ofNat (c.payload.length - 1) :: c.daddr

/-- 通し番号が `seq` から続く記録の列。 -/
def records : Nat → List Chunk → List UInt8
  | _, [] => []
  | seq, c :: cs => c.header seq ++ (c.payload ++ records (seq + 1) cs)

def payloads (cs : List Chunk) : List UInt8 := cs.flatMap Chunk.payload

/-- `seq` 個の記録を受け取ったあとの終わり方。 -/
inductive Ending (seq : Nat) (mem : Mem) : List UInt8 → Downloaded → Prop
  | go {rest : List UInt8} : Ending seq mem (goCmd :: rest) ⟨0, mem, [], rest⟩
  | protocol {cmd : UInt8} {rest : List UInt8} : cmd ≠ dataCmd → cmd ≠ goCmd →
      Ending seq mem (cmd :: rest) ⟨1, mem, [abortCmd, abortProtocol], rest⟩
  | outOfOrder {s : UInt8} {tail rest : List UInt8} : tail.length = 6 → s.toNat ≠ seq % 128 →
      Ending seq mem (dataCmd :: s :: (tail ++ rest)) ⟨1, mem, [abortCmd, abortSeq], rest⟩

/-! ## 読み取り -/

theorem waitStart_eq_some {input rest : List UInt8} :
    waitStart input = some rest ↔ ∃ junk, startCmd ∉ junk ∧ input = junk ++ startCmd :: rest := by
  induction input with
  | nil => simp [waitStart]
  | cons c input ih =>
      unfold waitStart
      by_cases hc : c = startCmd
      · subst hc
        rw [if_neg (not_not.mpr rfl)]
        constructor
        · intro h
          cases h
          exact ⟨[], by simp, rfl⟩
        · rintro ⟨junk, hjunk, h⟩
          cases junk with
          | nil =>
              cases h
              rfl
          | cons j junk =>
              cases h
              exact absurd List.mem_cons_self hjunk
      · rw [if_pos hc, ih]
        constructor
        · rintro ⟨junk, hjunk, rfl⟩
          exact ⟨c :: junk, by simp [hjunk, Ne.symm hc], rfl⟩
        · rintro ⟨junk, hjunk, h⟩
          cases junk with
          | nil =>
              cases h
              exact absurd rfl hc
          | cons j junk =>
              cases h
              exact ⟨junk, fun hmem => hjunk (List.mem_cons_of_mem _ hmem), rfl⟩

theorem readHeader_append {cmd seq cksum nbytes : UInt8} {daddr rest : List UInt8} (h : daddr.length = 4) :
    readHeader cmd (seq :: cksum :: nbytes :: (daddr ++ rest)) = some (⟨cmd, seq, cksum, nbytes, daddr⟩, rest) := by
  obtain ⟨d0, d1, d2, d3, rfl⟩ := List.length_eq_four.mp h
  rfl

theorem readHeader_eq_some {cmd : UInt8} {input rest : List UInt8} {record : DataRecord}
    (h : readHeader cmd input = some (record, rest)) :
    record.daddr.length = 4 ∧ input = record.seq :: record.cksum :: record.nbytes :: (record.daddr ++ rest) := by
  unfold readHeader at h
  split at h
  · cases h
    exact ⟨rfl, rfl⟩
  · cases h

theorem readData_eq_some {n : Nat} {mem : Mem} {dst : Nat} {input : List UInt8} {r : Mem × Nat × List UInt8} (hdst : dst < 2 ^ 32) :
    readData n mem dst input = some r ↔
      ∃ bytes rest, bytes.length = n ∧ input = bytes ++ rest ∧ r = (storeBytes mem dst bytes, wrap32 (dst + n), rest) := by
  induction n, mem, dst, input using readData.induct with
  | case1 mem dst input =>
      rw [readData, Nat.add_zero, wrap32_of_lt hdst]
      constructor
      · intro h
        cases h
        exact ⟨[], input, rfl, rfl, rfl⟩
      · rintro ⟨bytes, rest, hlen, rfl, rfl⟩
        rw [List.length_eq_zero_iff.mp hlen]
        rfl
  | case2 n mem dst =>
      refine iff_of_false (by simp [readData]) ?_
      rintro ⟨bytes, rest, hlen, hnil, -⟩
      rw [(List.append_eq_nil_iff.mp hnil.symm).1] at hlen
      cases hlen
  | case3 n mem dst c input ih =>
      rw [readData, ih (wrap32_lt _)]
      constructor
      · rintro ⟨bytes, rest, rfl, rfl, rfl⟩
        refine ⟨c :: bytes, rest, rfl, rfl, ?_⟩
        rw [wrap32_step]
        rfl
      · rintro ⟨bytes, rest, hlen, hinput, rfl⟩
        cases bytes with
        | nil => cases hlen
        | cons b bytes =>
            cases hinput
            refine ⟨bytes, rest, Nat.succ.inj hlen, rfl, ?_⟩
            rw [wrap32_step]
            rfl

/-! ## 記録の繰り返し -/

theorem next_seq (seq : Nat) : (seq % 128 + 1) &&& 0x7f = (seq + 1) % 128 := by
  have hmask : (seq % 128 + 1) &&& 0x7f = (seq % 128 + 1) % 128 := Nat.and_two_pow_sub_one_eq_mod _ 7
  omega

/-- 通し番号の合う記録を読んで、次に進む。 -/
theorem downloadLoop_data {mem mem' : Mem} {dst dst' seq : Nat} {input input' input'' : List UInt8} {record : DataRecord}
    (hheader : readHeader dataCmd input = some (record, input')) (hseq : seq = record.seq.toNat)
    (hdata : readData (record.nbytes.toNat + 1) mem dst input' = some (mem', dst', input'')) :
    downloadLoop mem dst seq (dataCmd :: input) = downloadLoop mem' dst' ((seq + 1) &&& 0x7f) input'' := by
  rw [downloadLoop, if_neg (not_not.mpr rfl)]
  split
  · rename_i hnone
    rw [hheader] at hnone
    cases hnone
  · rename_i hsome
    rw [hheader] at hsome
    cases hsome
    rw [if_neg (not_not.mpr hseq)]
    split
    · rename_i hnone
      rw [hdata] at hnone
      cases hnone
    · rename_i hsome
      rw [hdata] at hsome
      cases hsome
      rfl

/-- 一つの記録を受け取る。 -/
theorem downloadLoop_chunk {mem : Mem} {dst : Nat} (hdst : dst < 2 ^ 32) (seq : Nat) (c : Chunk) (input : List UInt8) :
    downloadLoop mem dst (seq % 128) (c.header seq ++ (c.payload ++ input)) =
      downloadLoop (storeBytes mem dst c.payload) (wrap32 (dst + c.payload.length)) ((seq + 1) % 128) input := by
  have hle := c.payload_le
  have hpos := c.payload_pos
  have hseq : (UInt8.ofNat (seq % 128)).toNat = seq % 128 := by
    rw [UInt8.toNat_ofNat']
    omega
  have hbytes : (UInt8.ofNat (c.payload.length - 1)).toNat + 1 = c.payload.length := by
    rw [UInt8.toNat_ofNat']
    omega
  have hheader : readHeader dataCmd (UInt8.ofNat (seq % 128) :: c.cksum :: UInt8.ofNat (c.payload.length - 1) ::
      (c.daddr ++ (c.payload ++ input))) = _ := readHeader_append c.daddr_length
  have hdata : readData ((UInt8.ofNat (c.payload.length - 1)).toNat + 1) mem dst (c.payload ++ input) = _ :=
    (readData_eq_some hdst).mpr ⟨c.payload, input, hbytes.symm, rfl, rfl⟩
  rw [hbytes] at hdata
  rw [Chunk.header, ← next_seq]
  apply downloadLoop_data hheader hseq.symm
  rw [hbytes]
  exact hdata

theorem downloadLoop_records {mem : Mem} {dst : Nat} (hdst : dst < 2 ^ 32) (seq : Nat) (cs : List Chunk) (input : List UInt8) :
    downloadLoop mem dst (seq % 128) (records seq cs ++ input) =
      downloadLoop (storeBytes mem dst (payloads cs)) (wrap32 (dst + (payloads cs).length)) ((seq + cs.length) % 128) input := by
  induction cs generalizing mem dst seq with
  | nil => simp [records, payloads, storeBytes, wrap32_of_lt hdst]
  | cons c cs ih =>
      have hwrap : wrap32 (wrap32 (dst + c.payload.length) + (payloads cs).length) = wrap32 (dst + (payloads (c :: cs)).length) := by
        simp only [payloads, List.flatMap_cons, List.length_append]
        unfold wrap32
        omega
      rw [records, List.append_assoc, List.append_assoc, downloadLoop_chunk hdst, ih (wrap32_lt _), hwrap, ← storeBytes_append hdst,
        List.length_cons]
      congr 2
      omega

/-- 記録でないものに出会うと、そこで終わる。 -/
theorem downloadLoop_ending {mem : Mem} {dst seq : Nat} {input : List UInt8} {r : Downloaded} (h : Ending seq mem input r) :
    downloadLoop mem dst (seq % 128) input = some r := by
  cases h with
  | go => rw [downloadLoop, if_pos (by decide), if_pos rfl]
  | protocol hdata hgo =>
      rw [downloadLoop, if_pos hdata, if_neg hgo]
      rfl
  | @outOfOrder s tail rest hlen hseq =>
      obtain ⟨cksum, tail, rfl⟩ := List.exists_cons_of_length_eq_add_one hlen
      obtain ⟨nbytes, daddr, rfl⟩ := List.exists_cons_of_length_eq_add_one (Nat.succ.inj hlen)
      have hheader : readHeader dataCmd (s :: cksum :: nbytes :: (daddr ++ rest)) = _ :=
        readHeader_append (Nat.succ.inj (Nat.succ.inj hlen))
      rw [downloadLoop, if_neg (not_not.mpr rfl)]
      split
      · rename_i hnone
        exact absurd (hnone.symm.trans hheader) (by simp)
      · rename_i hsome
        cases hheader.symm.trans hsome
        rw [if_pos (Ne.symm hseq)]
        rfl

/-- 繰り返しが戻ったなら、読んだ入力は記録の列と終わり方に分かれる。 -/
theorem downloadLoop_split (n : Nat) : ∀ {mem : Mem} {dst seq : Nat} {input : List UInt8} {r : Downloaded}, input.length ≤ n →
    dst < 2 ^ 32 → downloadLoop mem dst (seq % 128) input = some r →
    ∃ cs tail, input = records seq cs ++ tail ∧ Ending (seq + cs.length) (storeBytes mem dst (payloads cs)) tail r := by
  induction n with
  | zero =>
      intro mem dst seq input r hlen _ h
      rw [List.length_eq_zero_iff.mp (Nat.le_zero.mp hlen), downloadLoop] at h
      cases h
  | succ n ih =>
      intro mem dst seq input r hlen hdst h
      cases input with
      | nil =>
          rw [downloadLoop] at h
          cases h
      | cons cmd input =>
          rw [downloadLoop] at h
          split_ifs at h with hcmd hgo
          · cases h
            subst hgo
            exact ⟨[], goCmd :: input, rfl, .go⟩
          · cases h
            exact ⟨[], cmd :: input, rfl, .protocol hcmd hgo⟩
          · rw [not_not] at hcmd
            subst hcmd
            split at h
            · cases h
            · rename_i record input' hheader
              have hshort := readHeader_length hheader
              obtain ⟨hdaddr, rfl⟩ := readHeader_eq_some hheader
              split_ifs at h with hseq
              · cases h
                refine ⟨[], _, rfl, ?_⟩
                have hsix : (record.cksum :: record.nbytes :: record.daddr).length = 6 := by simp [hdaddr]
                exact .outOfOrder hsix (Ne.symm hseq)
              · split at h
                · cases h
                · rename_i mem' dst' input'' hdata
                  obtain ⟨bytes, rest, hbytes, rfl, hr⟩ := (readData_eq_some hdst).mp hdata
                  cases hr
                  have hnbytes := record.nbytes.toNat_lt
                  rw [next_seq] at h
                  obtain ⟨cs, tail, rfl, hend⟩ := ih (by
                    simp only [List.length_cons, List.length_append] at hlen ⊢
                    omega) (wrap32_lt _) h
                  have hs : UInt8.ofNat (seq % 128) = record.seq := by
                    rw [not_not.mp hseq]
                    exact UInt8.ofNat_toNat
                  have hn : UInt8.ofNat (bytes.length - 1) = record.nbytes := by
                    rw [hbytes, Nat.add_sub_cancel]
                    exact UInt8.ofNat_toNat
                  refine ⟨⟨record.cksum, record.daddr, bytes, hdaddr, by omega, by omega⟩ :: cs, tail, ?_, ?_⟩
                  · simp [records, Chunk.header, hs, hn]
                  · rw [← hbytes, ← storeBytes_append hdst, Nat.add_assoc, Nat.add_comm 1] at hend
                    exact hend

/-! ## 入力の文法 -/

theorem image_download_ser_grammar (mem : Mem) {dst : Nat} (hdst : dst < 2 ^ 32) (input : List UInt8) (r : Downloaded) :
    imageDownloadSer mem dst input = some r ↔
      ∃ junk cs tail mem', startCmd ∉ junk ∧ input = junk ++ startCmd :: (records 0 cs ++ tail) ∧
        Holds mem mem' dst (payloads cs) ∧ Ending cs.length mem' tail r := by
  unfold imageDownloadSer
  constructor
  · intro h
    split at h
    · cases h
    · rename_i rest hstart
      obtain ⟨junk, hjunk, rfl⟩ := waitStart_eq_some.mp hstart
      rw [← Nat.zero_mod 128] at h
      obtain ⟨cs, tail, rfl, hend⟩ := downloadLoop_split _ le_rfl hdst h
      rw [Nat.zero_add] at hend
      exact ⟨junk, cs, tail, _, hjunk, rfl, storeBytes_holds hdst, hend⟩
  · rintro ⟨junk, cs, tail, mem', hjunk, rfl, hholds, hend⟩
    have hloop : downloadLoop mem dst (0 % 128) (records 0 cs ++ tail) = _ := downloadLoop_records hdst 0 cs tail
    rw [waitStart_eq_some.mpr ⟨junk, hjunk, rfl⟩]
    dsimp only
    rw [← Nat.zero_mod 128, hloop, Nat.zero_add]
    rw [hholds.unique (storeBytes_holds hdst)] at hend
    exact downloadLoop_ending hend

/-- 一バイトの記録。 -/
def oneChunk (c : UInt8) : Chunk := ⟨0, [0, 0, 0, 0], [c], rfl, Nat.one_pos, by simp⟩

theorem image_download_ser_one_record :
    imageDownloadSer (fun _ => 0) 0x10800000 [startCmd, dataCmd, 0, 0, 0, 0, 0, 0, 0, 7, goCmd] =
      some ⟨0, storeBytes (fun _ => 0) 0x10800000 [7], [], []⟩ :=
  (image_download_ser_grammar _ (by decide) _ _).mpr
    ⟨[], [oneChunk 7], [goCmd], _, by simp, rfl, storeBytes_holds (by decide), .go⟩

/-! ## 番地の一周 -/

/-- 256 バイトの 0 の記録。 -/
def zeroChunk : Chunk := ⟨0, [0, 0, 0, 0], List.replicate 256 0, rfl, by rw [List.length_replicate]; omega, by rw [List.length_replicate]⟩

theorem payloads_zeroChunks (n : Nat) : payloads (List.replicate n zeroChunk) = List.replicate (n * 256) 0 := by
  induction n with
  | zero => rfl
  | succ n ih =>
      have hcons : payloads (zeroChunk :: List.replicate n zeroChunk) = zeroChunk.payload ++ payloads (List.replicate n zeroChunk) :=
        List.flatMap_cons
      rw [List.replicate_succ, hcons, ih, zeroChunk, ← List.replicate_add]
      congr 1
      omega

/-- 中身が番地の空間より大きければ、先頭のバイトは後のバイトで消える。 -/
theorem overwritten {mem mem' : Mem} {n : Nat} (hn : n * 256 = 2 ^ 32)
    (h : Holds mem mem' 0 (payloads (oneChunk 1 :: List.replicate n zeroChunk))) : mem' 0 = 0 := by
  have hcons : payloads (oneChunk 1 :: List.replicate n zeroChunk) = 1 :: payloads (List.replicate n zeroChunk) := rfl
  rw [hcons, payloads_zeroChunks] at h
  generalize n * 256 = k at h hn
  have hlen : (1 :: List.replicate k (0 : UInt8)).length = k + 1 := by rw [List.length_cons, List.length_replicate]
  have hlast := h.stored k (by rw [hlen]; omega) (by rw [hlen]; omega)
  have hwrap : wrap32 (0 + k) = 0 := by
    unfold wrap32
    omega
  rw [hwrap, List.getElem_cons, dif_neg (by omega), List.getElem_replicate] at hlast
  exact hlast

/-- 4 GiB を超える記録の列を受け取っても 0 を返し、`dst_address` には最初のバイト 1 ではなく 0 が残る。 -/
theorem image_download_ser_wraps : ∃ cs mem', (payloads cs).head? = some 1 ∧ mem' 0 = 0 ∧
    imageDownloadSer (fun _ => 0) 0 (startCmd :: (records 0 cs ++ [goCmd])) = some ⟨0, mem', [], []⟩ := by
  have hloop : downloadLoop (fun _ => 0) 0 (0 % 128) (records 0 (oneChunk 1 :: List.replicate (2 ^ 24) zeroChunk) ++ [goCmd]) = _ :=
    downloadLoop_records (by decide) 0 _ _
  rw [downloadLoop_ending .go] at hloop
  have hholds : Holds (fun _ => 0) _ 0 (payloads (oneChunk 1 :: List.replicate (2 ^ 24) zeroChunk)) := storeBytes_holds (by decide)
  have hover := overwritten (by norm_num) hholds
  exact ⟨oneChunk 1 :: List.replicate (2 ^ 24) zeroChunk, _, rfl, hover, hloop⟩

end Imx6Bsp.Boot
