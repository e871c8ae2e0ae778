import Imx6Bsp.Boot.ImageSetup

/-!
# `image_scan()` の選ぶイメージ

版が 0 のイメージしかなければ何も選ばず、大きさ 0 のイメージからは進まない。
-/

namespace Imx6Bsp.Boot

open Imx6Bsp.Lib Imx6Bsp.Startup

/-! ## `checksum()` とイメージの検査

検査和は、大きさが 4 の倍数なら、`scratch` に残っていたバイトによらない。 -/

/-! ### 検査和 -/

/-- `a` からの `len` バイトを 4 バイトの語として足した和。 -/
def byteSum (m : Mem) (a len : Nat) : Nat := ∑ i ∈ Finset.range len, (m (a + i)).toNat * 256 ^ (i % 4)

theorem byteSum_add (m : Mem) (a k len : Nat) : byteSum m a (4 * k + len) = byteSum m a (4 * k) + byteSum m (a + 4 * k) len := by
  unfold byteSum
  rw [Finset.sum_range_add]
  congr 1
  apply Finset.sum_congr rfl
  intro i _
  rw [Nat.add_assoc, Nat.mul_add_mod]

theorem byteSum_word (m : Mem) (a : Nat) : byteSum m a 4 = m.readLE a 4 := by
  simp only [byteSum, Finset.sum_range_succ, Finset.sum_range_zero, Mem.readLE]
  norm_num
  ring

theorem byteSum_congr {m m' : Mem} {a b len : Nat} (h : ∀ i < len, m (a + i) = m' (b + i)) : byteSum m a len = byteSum m' b len := by
  apply Finset.sum_congr rfl
  intro i hi
  rw [h i (Finset.mem_range.mp hi)]

theorem sumWords_eq (iray : Mem) (n a sum : Nat) (hsum : sum < 2 ^ 32) :
    sumWords iray n a sum = wrap32 (sum + byteSum iray a (4 * n)) := by
  induction n generalizing a sum with
  | zero =>
      rw [Nat.mul_zero, byteSum, Finset.sum_range_zero, Nat.add_zero, wrap32_of_lt hsum]
      rfl
  | succ n ih =>
      rw [sumWords, ih _ _ (wrap32_lt _), show 4 * (n + 1) = 4 * 1 + 4 * n by omega, byteSum_add, byteSum_word, Nat.mul_one]
      unfold wrap32
      omega

theorem smallChecksum_eq (iray : Mem) (n : Nat) : smallChecksum iray (4 * n) = wrap32 (byteSum iray 0 (4 * n)) := by
  rw [smallChecksum, show (4 * n + 3) / 4 = n by omega, sumWords_eq _ _ _ _ (by decide), Nat.zero_add]

theorem bus_wrap (m : Mem) (addr i : Nat) : bus m (wrap32 addr + i) = bus m (addr + i) := by
  unfold bus wrap32
  rw [Nat.mod_add_mod]

/-- `scratch` に写した語の和は、もとの場所の和である。 -/
theorem smallChecksum_fill (m scratch : Mem) (addr n : Nat) :
    smallChecksum (scratch.fill 0 (4 * n) fun i => bus m (addr + i)) (4 * n) = wrap32 (byteSum (bus m) addr (4 * n)) := by
  rw [smallChecksum_eq]
  congr 1
  apply byteSum_congr
  intro i hi
  exact Mem.fill_in hi

theorem checksumLoop_eq (m : Mem) (n : Nat) (scratch : Mem) (addr sum : Nat) (hsum : sum < 2 ^ 32) :
    (checksumLoop m n scratch addr sum).2.2 = wrap32 (sum + byteSum (bus m) addr (512 * n)) ∧
      ∀ i, bus m ((checksumLoop m n scratch addr sum).2.1 + i) = bus m (addr + 512 * n + i) := by
  induction n generalizing scratch addr sum with
  | zero =>
      rw [Nat.mul_zero, byteSum, Finset.sum_range_zero, Nat.add_zero, wrap32_of_lt hsum]
      exact ⟨rfl, fun i => rfl⟩
  | succ n ih =>
      have hfill : smallChecksum (scratch.fill 0 scratchSize fun i => bus m (addr + i)) scratchSize =
          wrap32 (byteSum (bus m) addr 512) := smallChecksum_fill m scratch addr 128
      have hrest : byteSum (bus m) (wrap32 (addr + scratchSize)) (512 * n) = byteSum (bus m) (addr + 512) (512 * n) :=
        byteSum_congr fun i _ => bus_wrap m _ i
      have hsplit : byteSum (bus m) addr (512 * (n + 1)) = byteSum (bus m) addr 512 + byteSum (bus m) (addr + 512) (512 * n) := by
        rw [show 512 * (n + 1) = 4 * 128 + 512 * n by omega, byteSum_add]
      have hnext := ih (scratch.fill 0 scratchSize fun i => bus m (addr + i)) (wrap32 (addr + scratchSize))
        (wrap32 (sum + smallChecksum (scratch.fill 0 scratchSize fun i => bus m (addr + i)) scratchSize)) (wrap32_lt _)
      rw [checksumLoop]
      refine ⟨?_, fun i => ?_⟩
      · rw [hnext.1, hfill, hrest, hsplit]
        unfold wrap32
        omega
      · have hidx : addr + scratchSize + (512 * n + i) = addr + 512 * (n + 1) + i := by
          unfold scratchSize
          omega
        rw [hnext.2, Nat.add_assoc, bus_wrap, hidx]

/-- 4 の倍数の長さの `checksum()` は、その範囲の和である。 -/
theorem checksum_eq (m scratch : Mem) (addr n : Nat) : (checksum m scratch addr (4 * n)).1 = wrap32 (byteSum (bus m) addr (4 * n)) := by
  obtain ⟨hsum, haddr⟩ := checksumLoop_eq m (4 * n / 512) scratch addr 0 (by decide)
  rw [Nat.zero_add] at hsum
  unfold checksum
  rw [show scratchSize = 512 from rfl]
  generalize checksumLoop m (4 * n / 512) scratch addr 0 = r at hsum haddr ⊢
  obtain ⟨scratch', addr', sum⟩ := r
  dsimp only at hsum haddr ⊢
  have hlen : 4 * n = 512 * (4 * n / 512) + 4 * (n % 128) := by omega
  have hmod : 4 * n % 512 = 4 * (n % 128) := by omega
  have hsplit : byteSum (bus m) addr (4 * n) =
      byteSum (bus m) addr (512 * (4 * n / 512)) + byteSum (bus m) (addr + 512 * (4 * n / 512)) (4 * (n % 128)) := by
    have hadd := byteSum_add (bus m) addr (128 * (4 * n / 512)) (4 * (n % 128))
    rw [show 4 * (128 * (4 * n / 512)) = 512 * (4 * n / 512) by omega] at hadd
    rw [← hadd, ← hlen]
  have hrest : byteSum (bus m) addr' (4 * (n % 128)) = byteSum (bus m) (addr + 512 * (4 * n / 512)) (4 * (n % 128)) :=
    byteSum_congr fun i _ => haddr i
  rw [hmod]
  split_ifs with hzero
  · dsimp only
    rw [smallChecksum_fill, hrest, hsum, hsplit]
    unfold wrap32
    omega
  · rw [not_not.mp hzero] at hsplit
    dsimp only
    rw [hsum, hsplit, byteSum, byteSum, Finset.sum_range_zero, Nat.add_zero]

/-! ### 候補 -/

/-- 署名があり、二つの範囲の和がどちらも 0 であるイメージ。 -/
structure ValidImage (m : Mem) (a : Nat) : Prop where
  signature : hdrSignature (bus m) a = startupHdrSignature
  sizes : startupSize (bus m) a ≤ storedSize (bus m) a
  startup : wrap32 (byteSum (bus m) a (startupSize (bus m) a)) = 0
  image : wrap32 (byteSum (bus m) (a + startupSize (bus m) a) (storedSize (bus m) a - startupSize (bus m) a)) = 0

instance (m : Mem) (a : Nat) : Decidable (ValidImage m a) :=
  decidable_of_iff (hdrSignature (bus m) a = startupHdrSignature ∧ startupSize (bus m) a ≤ storedSize (bus m) a ∧
      wrap32 (byteSum (bus m) a (startupSize (bus m) a)) = 0 ∧
      wrap32 (byteSum (bus m) (a + startupSize (bus m) a) (storedSize (bus m) a - startupSize (bus m) a)) = 0)
    ⟨fun h => ⟨h.1, h.2.1, h.2.2.1, h.2.2.2⟩, fun h => ⟨h.signature, h.sizes, h.startup, h.image⟩⟩

/-- 大きさが 4 の倍数で、起動プログラムが全体より大きくないヘッダ。 -/
def WordSizes (m : Mem) (a : Nat) : Prop :=
  startupSize (bus m) a ≤ storedSize (bus m) a ∧ 4 ∣ startupSize (bus m) a ∧ 4 ∣ storedSize (bus m) a

/-- ヘッダの大きさが語の単位なら、検査は `scratch` の内容によらない。 -/
theorem checkImage_of_words {m scratch : Mem} {a : Nat} (h : WordSizes m a) :
    (checkImage m scratch a).1 = true ↔ ValidImage m a := by
  obtain ⟨hle, ⟨u, hu⟩, t, ht⟩ := h
  have hlt : storedSize (bus m) a < 2 ^ 32 := Mem.readLE_lt _ _ 4
  have hrest : wrap32 (storedSize (bus m) a + (2 ^ 32 - startupSize (bus m) a)) = 4 * (t - u) := by
    rw [wrap32_sub hle hlt]
    omega
  have hsub : storedSize (bus m) a - startupSize (bus m) a = 4 * (t - u) := by omega
  unfold checkImage
  dsimp only
  split_ifs with hsig hsum
  · exact iff_of_false not_false fun hv => hsig hv.signature
  · rw [hu, checksum_eq, ← hu] at hsum
    exact iff_of_false not_false fun hv => hsum hv.startup
  · rw [not_not, hu, checksum_eq, ← hu] at hsum
    rw [not_not] at hsig
    rw [hrest, decide_eq_true_eq, checksum_eq]
    have hwrap : byteSum (bus m) (wrap32 (a + startupSize (bus m) a)) (4 * (t - u)) =
        byteSum (bus m) (a + startupSize (bus m) a) (4 * (t - u)) := byteSum_congr fun i _ => bus_wrap m _ i
    rw [hwrap]
    constructor
    · intro himage
      refine ⟨hsig, hle, hsum, ?_⟩
      rw [hsub]
      exact himage
    · intro hv
      rw [← hsub]
      exact hv.image

theorem checkImage_of_not_signature {m scratch : Mem} {a : Nat} (h : hdrSignature (bus m) a ≠ startupHdrSignature) :
    (checkImage m scratch a).1 = true ↔ ValidImage m a := by
  rw [checkImage, if_pos h]
  exact iff_of_false Bool.false_ne_true fun hv => h hv.signature

end Imx6Bsp.Boot

namespace Imx6Bsp.Boot

open Imx6Bsp.Lib Imx6Bsp.Startup

/-! ## 検索の実行 -/

/-- 次の候補までの距離。 -/
def advance (m : Mem) (a : Nat) : Nat := if ValidImage m a then storedSize (bus m) a else 4

section

variable (m scratch : Mem) (start stop : Nat)

/-- `i` 個の候補を調べたあとの状態。 -/
def scanState (i : Nat) : ScanState := (scanStep m)^[i] ⟨start, 2 ^ 32 - 1, 0, scratch⟩

/-- `i` 番目の候補を調べる。 -/
def Examined (i : Nat) : Prop := ∀ j ≤ i, (scanState m scratch start j).start < stop

/-- `i` 番目の候補の番地。 -/
def scanAddr (i : Nat) : Nat := (scanState m scratch start i).start

/-- `i` 番目の候補は、イメージとして受け入れられる。 -/
def scanAccepts (i : Nat) : Prop := (checkImage m (scanState m scratch start i).scratch (scanAddr m scratch start i)).1 = true

/-- 最初の `n` 個の候補のうち、最も新しいイメージの最初の番地。なければ -1 である。 -/
structure Newest (n r : Nat) : Prop where
  none : (∀ i < n, ¬ ValidImage m (scanAddr m scratch start i)) → r = 2 ^ 32 - 1
  some : (∃ i < n, ValidImage m (scanAddr m scratch start i)) → ∃ i < n, ValidImage m (scanAddr m scratch start i) ∧
    r = scanAddr m scratch start i ∧ ∀ j < n, ValidImage m (scanAddr m scratch start j) →
      hdrVersion (bus m) (scanAddr m scratch start j) ≤ hdrVersion (bus m) r ∧
        (hdrVersion (bus m) (scanAddr m scratch start j) = hdrVersion (bus m) r → r ≤ scanAddr m scratch start j)

/-- `image_scan()` は戻り、正しいイメージだけを受け入れて進み、最も新しいものの番地を返す。 -/
def PicksNewest : Prop :=
  ∃ fuel r n, imageScan fuel m scratch start stop = some r ∧
    (∀ i < n, scanAddr m scratch start i < stop) ∧ stop ≤ scanAddr m scratch start n ∧
    (∀ i < n, (scanAccepts m scratch start i ↔ ValidImage m (scanAddr m scratch start i)) ∧
      scanAddr m scratch start (i + 1) = scanAddr m scratch start i + advance m (scanAddr m scratch start i)) ∧
    Newest m scratch start n r

/-- `i` 番目の候補を、検査と歩幅が正しく扱える。 -/
structure SoundCandidate (i : Nat) : Prop where
  decides : hdrSignature (bus m) (scanAddr m scratch start i) = startupHdrSignature →
    WordSizes m (scanAddr m scratch start i) ∨ (scanAccepts m scratch start i ↔ ValidImage m (scanAddr m scratch start i))
  fits : scanAddr m scratch start i + advance m (scanAddr m scratch start i) < 2 ^ 32
  moves : ValidImage m (scanAddr m scratch start i) → storedSize (bus m) (scanAddr m scratch start i) ≠ 0

/-- 調べる候補をすべて正しく扱え、イメージがあるなら、版が 0 でないものもある。 -/
structure SoundScan : Prop where
  candidates : ∀ i, Examined m scratch start stop i → SoundCandidate m scratch start i
  version : ∀ i, Examined m scratch start stop i → ValidImage m (scanAddr m scratch start i) →
    ∃ j, Examined m scratch start stop j ∧ ValidImage m (scanAddr m scratch start j) ∧
      hdrVersion (bus m) (scanAddr m scratch start j) ≠ 0

end

variable {m scratch : Mem} {start stop : Nat}

theorem SoundCandidate.accepts {i : Nat} (h : SoundCandidate m scratch start i) :
    scanAccepts m scratch start i ↔ ValidImage m (scanAddr m scratch start i) := by
  by_cases hsig : hdrSignature (bus m) (scanAddr m scratch start i) = startupHdrSignature
  · rcases h.decides hsig with hwords | hiff
    · exact checkImage_of_words hwords
    · exact hiff
  · exact checkImage_of_not_signature hsig

theorem scanState_succ (i : Nat) : scanState m scratch start (i + 1) = scanStep m (scanState m scratch start i) :=
  Function.iterate_succ_apply' _ _ _

theorem scanAddr_zero : scanAddr m scratch start 0 = start := rfl

/-- 受け入れた候補からは `stored_size` だけ、ほかの候補からは 4 だけ進む。 -/
theorem scanAddr_succ (i : Nat) (h : scanAccepts m scratch start i ↔ ValidImage m (scanAddr m scratch start i)) :
    scanAddr m scratch start (i + 1) = wrap32 (scanAddr m scratch start i + advance m (scanAddr m scratch start i)) := by
  have hlt : storedSize (bus m) (scanAddr m scratch start i) < 2 ^ 32 := Mem.readLE_lt _ _ 4
  unfold advance
  rw [scanAddr, scanState_succ, scanStep]
  dsimp only
  by_cases hok : scanAccepts m scratch start i
  · have hok' : (checkImage m (scanState m scratch start i).scratch (scanState m scratch start i).start).1 = true := hok
    rw [if_pos hok', if_pos (h.mp hok)]
    unfold scanAddr wrap32 at *
    dsimp only
    omega
  · have hok' : ¬ (checkImage m (scanState m scratch start i).scratch (scanState m scratch start i).start).1 = true := hok
    rw [if_neg hok', if_neg fun hv => hok (h.mpr hv)]
    rfl

theorem SoundCandidate.next {i : Nat} (h : SoundCandidate m scratch start i) :
    scanAddr m scratch start (i + 1) = scanAddr m scratch start i + advance m (scanAddr m scratch start i) := by
  rw [scanAddr_succ i h.accepts, wrap32_of_lt h.fits]

theorem imageScanLoop_eq {fuel r i : Nat} (h : imageScanLoop m stop fuel (scanState m scratch start i) = some r) :
    ∃ n, i ≤ n ∧ (∀ j, i ≤ j → j < n → scanAddr m scratch start j < stop) ∧ stop ≤ scanAddr m scratch start n ∧
      r = (scanState m scratch start n).lastaddr := by
  induction fuel generalizing i with
  | zero => cases h
  | succ fuel ih =>
      rw [imageScanLoop] at h
      split_ifs at h with hlt
      · rw [← scanState_succ] at h
        obtain ⟨n, hn, hbefore, hstop, hr⟩ := ih h
        refine ⟨n, by omega, fun j h1 h2 => ?_, hstop, hr⟩
        rcases Nat.eq_or_lt_of_le h1 with rfl | hj
        · exact hlt
        · exact hbefore j hj h2
      · cases h
        exact ⟨i, le_rfl, fun j h1 h2 => absurd h1 (by omega), Nat.le_of_not_lt hlt, rfl⟩

/-- `n` 個の候補を調べたあとの `lastaddr` と `lastver`。 -/
inductive Best (m scratch : Mem) (start n : Nat) (s : ScanState) : Prop
  | none : s.lastaddr = 2 ^ 32 - 1 → s.lastver = 0 →
      (∀ j < n, ValidImage m (scanAddr m scratch start j) → hdrVersion (bus m) (scanAddr m scratch start j) = 0) →
      Best m scratch start n s
  | some {i : Nat} : i < n → ValidImage m (scanAddr m scratch start i) → s.lastaddr = scanAddr m scratch start i →
      s.lastver = hdrVersion (bus m) (scanAddr m scratch start i) → 0 < s.lastver →
      (∀ j < n, ValidImage m (scanAddr m scratch start j) → hdrVersion (bus m) (scanAddr m scratch start j) ≤ s.lastver ∧
        (hdrVersion (bus m) (scanAddr m scratch start j) = s.lastver → i ≤ j)) →
      Best m scratch start n s

theorem scanStep_keeps {s : ScanState} (h : (checkImage m s.scratch s.start).1 ≠ true) :
    (scanStep m s).lastaddr = s.lastaddr ∧ (scanStep m s).lastver = s.lastver := by
  rw [scanStep]
  dsimp only
  rw [if_neg h]
  exact ⟨rfl, rfl⟩

theorem scanStep_updates {s : ScanState} (h : (checkImage m s.scratch s.start).1 = true) :
    (scanStep m s).lastaddr = (if hdrVersion (bus m) s.start > s.lastver then s.start else s.lastaddr) ∧
      (scanStep m s).lastver = (if hdrVersion (bus m) s.start > s.lastver then hdrVersion (bus m) s.start else s.lastver) := by
  rw [scanStep]
  dsimp only
  rw [if_pos h]
  exact ⟨rfl, rfl⟩

theorem best_run {n : Nat} (h : ∀ i < n, scanAccepts m scratch start i ↔ ValidImage m (scanAddr m scratch start i)) :
    Best m scratch start n (scanState m scratch start n) := by
  induction n with
  | zero => exact .none rfl rfl fun j hj => absurd hj (Nat.not_lt_zero j)
  | succ n ih =>
      have hbest := ih fun i hi => h i (Nat.lt_succ_of_lt hi)
      have haccept := h n (Nat.lt_succ_self n)
      rw [scanState_succ]
      by_cases hvalid : ValidImage m (scanAddr m scratch start n)
      · obtain ⟨haddr, hver⟩ := scanStep_updates (haccept.mpr hvalid)
        have hstart : (scanState m scratch start n).start = scanAddr m scratch start n := rfl
        rw [hstart] at haddr hver
        by_cases hnewer : hdrVersion (bus m) (scanAddr m scratch start n) > (scanState m scratch start n).lastver
        · rw [if_pos hnewer] at haddr hver
          refine .some (Nat.lt_succ_self n) hvalid haddr hver (by omega) fun j hj hv => ?_
          rw [hver]
          rcases Nat.eq_or_lt_of_le (Nat.le_of_lt_succ hj) with rfl | hlt
          · exact ⟨le_rfl, fun _ => le_rfl⟩
          · cases hbest with
            | none _ _ hzero =>
                have := hzero j hlt hv
                omega
            | some _ _ _ _ _ hmax =>
                have := (hmax j hlt hv).1
                omega
        · rw [if_neg hnewer] at haddr hver
          cases hbest with
          | none hnone hzero hall =>
              refine .none (haddr.trans hnone) (hver.trans hzero) fun j hj hv => ?_
              rcases Nat.eq_or_lt_of_le (Nat.le_of_lt_succ hj) with rfl | hlt
              · omega
              · exact hall j hlt hv
          | some hi hv hla hlv hpos hmax =>
              refine .some (Nat.lt_succ_of_lt hi) hv (haddr.trans hla) (hver.trans hlv) (by omega) fun j hj hvj => ?_
              rw [hver]
              rcases Nat.eq_or_lt_of_le (Nat.le_of_lt_succ hj) with rfl | hlt
              · omega
              · exact hmax j hlt hvj
      · obtain ⟨haddr, hver⟩ := scanStep_keeps fun hok => hvalid (haccept.mp hok)
        cases hbest with
        | none hnone hzero hall =>
            refine .none (haddr.trans hnone) (hver.trans hzero) fun j hj hv => ?_
            rcases Nat.eq_or_lt_of_le (Nat.le_of_lt_succ hj) with rfl | hlt
            · exact absurd hv hvalid
            · exact hall j hlt hv
        | some hi hv hla hlv hpos hmax =>
            refine .some (Nat.lt_succ_of_lt hi) hv (haddr.trans hla) (hver.trans hlv) (by omega) fun j hj hvj => ?_
            rw [hver]
            rcases Nat.eq_or_lt_of_le (Nat.le_of_lt_succ hj) with rfl | hlt
            · exact absurd hvj hvalid
            · exact hmax j hlt hvj

theorem SoundCandidate.lt_next {i : Nat} (h : SoundCandidate m scratch start i) :
    scanAddr m scratch start i < scanAddr m scratch start (i + 1) := by
  have hmoves := h.moves
  rw [h.next]
  unfold advance
  split_ifs with hvalid
  · have := hmoves hvalid
    omega
  · omega

/-- 止まるまでの候補が、調べた候補である。 -/
theorem examined_iff {n : Nat} (hbefore : ∀ i < n, scanAddr m scratch start i < stop) (hstop : stop ≤ scanAddr m scratch start n) (i : Nat) :
    Examined m scratch start stop i ↔ i < n := by
  constructor
  · intro h
    by_contra hge
    exact absurd (h n (Nat.le_of_not_lt hge)) (Nat.not_lt_of_le hstop)
  · intro h j hj
    exact hbefore j (by omega)

theorem PicksNewest.sound (h : PicksNewest m scratch start stop) : SoundScan m scratch start stop := by
  obtain ⟨fuel, r, n, hrun, hbefore, hstop, hsteps, hnewest⟩ := h
  have hexamined := examined_iff hbefore hstop
  have hr : r = (scanState m scratch start n).lastaddr := by
    obtain ⟨n', -, hbefore', hstop', hr⟩ := imageScanLoop_eq (i := 0) hrun
    have heq : n' = n := by
      by_contra hne
      rcases Nat.lt_or_gt_of_ne hne with hlt | hgt
      · exact absurd (hbefore n' hlt) (Nat.not_lt_of_le hstop')
      · exact absurd (hbefore' n (Nat.zero_le n) hgt) (Nat.not_lt_of_le hstop)
    rw [hr, heq]
  have hsound : ∀ i < n, SoundCandidate m scratch start i := by
    intro i hi
    refine ⟨fun _ => .inr (hsteps i hi).1, ?_, fun hv hzero => ?_⟩
    · rw [← (hsteps i hi).2, scanAddr_succ i (hsteps i hi).1]
      exact wrap32_lt _
    · -- 大きさ 0 のイメージからは進まない。
      have hstuck : ∀ k, i + k ≤ n → scanAddr m scratch start (i + k) = scanAddr m scratch start i := by
        intro k
        induction k with
        | zero => exact fun _ => rfl
        | succ k ih =>
            intro hk
            have hprev := ih (by omega)
            rw [← Nat.add_assoc, (hsteps (i + k) (by omega)).2, hprev, advance, if_pos hv, hzero, Nat.add_zero]
      have hend := hstuck (n - i) (by omega)
      rw [Nat.add_sub_of_le hi.le] at hend
      exact absurd (hbefore i hi) (by omega)
  refine ⟨fun i hi => hsound i ((hexamined i).mp hi), fun i hi hv => ?_⟩
  by_contra hnone
  have hallZero : ∀ j < n, ValidImage m (scanAddr m scratch start j) → hdrVersion (bus m) (scanAddr m scratch start j) = 0 := by
    intro j hj hvj
    by_contra hver
    exact hnone ⟨j, (hexamined j).mpr hj, hvj, hver⟩
  cases best_run fun i hi => (hsteps i hi).1 with
  | none haddr _ _ =>
      obtain ⟨k, hk, _, hrk, -⟩ := hnewest.some ⟨i, (hexamined i).mp hi, hv⟩
      have hlt := (hsound k hk).lt_next
      have hfits := (hsound k hk).fits
      rw [← (hsound k hk).next] at hfits
      omega
  | some hk hvk _ hlv hpos _ =>
      have := hallZero _ hk hvk
      omega

end Imx6Bsp.Boot
