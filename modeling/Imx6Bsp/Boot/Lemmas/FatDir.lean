import Imx6Bsp.Boot.FatGeometry
import Imx6Bsp.Boot.Lemmas.FatFile

/-!
# ディレクトリの検索の補題

クラスタの中の項に通し番号をつけ、検索を、名前の頭が合う項か終わりの印の、最初のものを探すこととして言い直す。
-/

namespace Imx6Bsp.Boot

open Imx6Bsp.Lib Imx6Bsp.Startup

/-! ## 項 -/

/-- 検索が選ぶ項。名前は `name` の頭の 11 バイトまでしか比べない。 -/
def Candidate (name : List UInt8) (blk : Mem) (entry : Nat) : Prop :=
  blk entry ≠ entEnd ∧ blk entry ≠ entUnused ∧ matchName (name.take 11) blk entry = true ∧ getCluster blk entry ≠ 0

/-- 検索が止まる項。 -/
def Stop (name : List UInt8) (blk : Mem) (entry : Nat) : Prop := blk entry = entEnd ∨ Candidate name blk entry

section

variable (card : Card) (fsInfo : FsInfo)

/-- クラスタの `sub` 番目のセクタ。 -/
def dirBlock (clust sub : Nat) : Mem := card.block (wrap32 (wrap32 (clust2fsect fsInfo clust + sub) + fsInfo.fsOffset))

/-- クラスタの項の数。 -/
def entryCount : Nat := fsInfo.clusterSize * 16

/-- クラスタの `n` 番目の項についての性質。 -/
def AtEntry (p : Mem → Nat → Prop) (clust n : Nat) : Prop := p (dirBlock card fsInfo clust (n / 16)) (n % 16 * dirEntrySize)

def EndAt (clust n : Nat) : Prop := AtEntry card fsInfo (fun blk entry => blk entry = entEnd) clust n

def CandidateAt (name : List UInt8) (clust n : Nat) : Prop := AtEntry card fsInfo (Candidate name) clust n

/-- クラスタの最初の終わりの印より前で、最初に選ばれる項。 -/
structure ClusterFound (name : List UInt8) (clust n : Nat) : Prop where
  lt : n < entryCount fsInfo
  here : CandidateAt card fsInfo name clust n
  before : ∀ m < n, ¬ EndAt card fsInfo clust m ∧ ¬ CandidateAt card fsInfo name clust m

/-- クラスタの最初の終わりの印より前に、選ばれる項はない。 -/
def ClusterPass (name : List UInt8) (clust : Nat) : Prop :=
  ∀ n < entryCount fsInfo, CandidateAt card fsInfo name clust n → ∃ m < n, EndAt card fsInfo clust m

end

theorem matchName_congr {name : List UInt8} {blk blk' : Mem} {a : Nat} (h : ∀ i < name.length, blk (a + i) = blk' (a + i)) :
    matchName name blk a = matchName name blk' a := by
  induction name generalizing a with
  | nil => rfl
  | cons c name ih =>
      have h0 := h 0 (Nat.succ_pos _)
      rw [Nat.add_zero] at h0
      rw [matchName, matchName, h0, ih fun i hi => ?_]
      have hs := h (i + 1) (Nat.succ_lt_succ hi)
      rwa [Nat.add_comm i, ← Nat.add_assoc] at hs

section

variable {blk blk' : Mem} {ent : Nat}

theorem getCluster_congr (h : ∀ i < sectSize, blk i = blk' i) (hent : ent < 16) :
    getCluster blk (ent * dirEntrySize) = getCluster blk' (ent * dirEntrySize) := by
  unfold getCluster clustLo clustHi dirEntrySize sectSize at *
  rw [Mem.readLE_congr fun i hi => h (ent * 32 + 26 + i) (by omega), Mem.readLE_congr fun i hi => h (ent * 32 + 20 + i) (by omega)]

theorem dirSize_congr (h : ∀ i < sectSize, blk i = blk' i) (hent : ent < 16) :
    dirSize blk (ent * dirEntrySize) = dirSize blk' (ent * dirEntrySize) := by
  unfold dirSize dirEntrySize sectSize at *
  rw [Mem.readLE_congr fun i hi => h (ent * 32 + 28 + i) (by omega)]

theorem scanEntries_congr {name : List UInt8} {n : Nat} (h : ∀ i < sectSize, blk i = blk' i) (hent : ent + n ≤ 16) :
    scanEntries name blk n ent = scanEntries name blk' n ent := by
  induction n generalizing ent with
  | zero => rfl
  | succ n ih =>
      have hfirst : blk (ent * dirEntrySize) = blk' (ent * dirEntrySize) := h _ (by unfold dirEntrySize sectSize; omega)
      have hname : matchName (name.take 11) blk (ent * dirEntrySize) = matchName (name.take 11) blk' (ent * dirEntrySize) := by
        apply matchName_congr
        intro i hi
        rw [List.length_take] at hi
        apply h
        unfold dirEntrySize sectSize
        omega
      simp only [scanEntries, hfirst, hname, getCluster_congr h (show ent < 16 by omega), ih (show ent + 1 + n ≤ 16 by omega)]

end

/-- 項 `ent` から `last` の手前までの検索の結果。 -/
inductive ScanSpec (name : List UInt8) (blk : Mem) (ent last : Nat) : EntScan → Prop
  | found {e : Nat} : ent ≤ e → e < last → Candidate name blk (e * dirEntrySize) →
      (∀ m, ent ≤ m → m < e → ¬ Stop name blk (m * dirEntrySize)) → ScanSpec name blk ent last (.found e)
  | ended {e : Nat} : ent ≤ e → e < last → blk (e * dirEntrySize) = entEnd →
      (∀ m, ent ≤ m → m < e → ¬ Stop name blk (m * dirEntrySize)) → ScanSpec name blk ent last .ended
  | exhausted : (∀ m, ent ≤ m → m < last → ¬ Stop name blk (m * dirEntrySize)) → ScanSpec name blk ent last .exhausted

/-- 止まらない項は読み飛ばす。 -/
theorem ScanSpec.skip {name : List UInt8} {blk : Mem} {ent last : Nat} {r : EntScan} (hpass : ¬ Stop name blk (ent * dirEntrySize))
    (h : ScanSpec name blk (ent + 1) last r) : ScanSpec name blk ent last r := by
  have hextend : ∀ k, (∀ m, ent + 1 ≤ m → m < k → ¬ Stop name blk (m * dirEntrySize)) →
      ∀ m, ent ≤ m → m < k → ¬ Stop name blk (m * dirEntrySize) := by
    intro k hk m h1 h2
    rcases Nat.eq_or_lt_of_le h1 with rfl | hlt
    · exact hpass
    · exact hk m hlt h2
  cases h with
  | found hle hlt hcand hpre => exact .found (by omega) hlt hcand (hextend _ hpre)
  | ended hle hlt hend hpre => exact .ended (by omega) hlt hend (hextend _ hpre)
  | exhausted hpre => exact .exhausted (hextend _ hpre)

/-- 一つのセクタの検索。 -/
theorem scanEntries_spec (name : List UInt8) (blk : Mem) (n ent : Nat) :
    ScanSpec name blk ent (ent + n) (scanEntries name blk n ent) := by
  induction n generalizing ent with
  | zero => exact .exhausted fun m h1 h2 => absurd h1 (by omega)
  | succ n ih =>
      have hnext := ih (ent + 1)
      rw [Nat.add_right_comm] at hnext
      rw [scanEntries]
      split_ifs with hend hunused hmiss
      · exact .ended le_rfl (by omega) hend fun m h1 h2 => absurd h1 (by omega)
      · apply ScanSpec.skip _ hnext
        rintro (h | h)
        · exact hend h
        · exact h.2.1 hunused
      · apply ScanSpec.skip _ hnext
        rintro (h | ⟨-, -, hmatch, hcluster⟩)
        · exact hend h
        · cases hmiss with
          | inl h =>
              rw [hmatch] at h
              cases h
          | inr h => exact hcluster h
      · rw [not_or, Bool.not_eq_false] at hmiss
        exact .found le_rfl (by omega) ⟨hend, hunused, hmiss⟩ fun m h1 h2 => absurd h1 (by omega)

/-! ## クラスタ -/

section

variable {card : Card} {fsInfo : FsInfo} {name : List UInt8}

/-- 一つのクラスタの検索の結果。 -/
inductive ClustSpec (card : Card) (fsInfo : FsInfo) (name : List UInt8) (clust : Nat) : ClustScan → Prop
  | found {n : Nat} {s : FatState} : ClusterFound card fsInfo name clust n →
      (∀ i < sectSize, s.blk i = dirBlock card fsInfo clust (n / 16) i) →
      ClustSpec card fsInfo name clust (.found (n / 16) (n % 16) s)
  | next {s : FatState} : ClusterPass card fsInfo name clust → ClustSpec card fsInfo name clust (.next s)

/-- 止まる項の位置。 -/
theorem stop_iff {clust n : Nat} : AtEntry card fsInfo (Stop name) clust n ↔
    EndAt card fsInfo clust n ∨ CandidateAt card fsInfo name clust n := Iff.rfl

/-- 残りのセクタの検索。`subSect` より前の項では止まらない。 -/
theorem scanSectors_spec (hok : ∀ n, card.fails n = false) (clust : Nat) {n subSect : Nat} (s : FatState)
    (hn : subSect + n = fsInfo.clusterSize) (hpre : ∀ m < subSect * 16, ¬ AtEntry card fsInfo (Stop name) clust m) :
    ClustSpec card fsInfo name clust (scanSectors card fsInfo name (clust2fsect fsInfo clust) n subSect s) := by
  induction n generalizing subSect s with
  | zero =>
      refine .next fun m hm hcand => absurd (.inr hcand) (hpre m ?_)
      unfold entryCount at hm
      omega
  | succ n ih =>
      rw [scanSectors]
      rcases readFsectBlk_spec card fsInfo s (wrap32 (clust2fsect fsInfo clust + subSect)) with
        ⟨hfail, -⟩ | ⟨-, s', hread, hreads, hmem, hblk⟩
      · rw [hok] at hfail
        cases hfail
      · have hblk : ∀ i < sectSize, s'.blk i = dirBlock card fsInfo clust subSect i := hblk
        rw [hread]
        dsimp only
        rw [scanEntries_congr hblk (show 0 + sectSize / dirEntrySize ≤ 16 by decide)]
        have hspec := scanEntries_spec name (dirBlock card fsInfo clust subSect) (sectSize / dirEntrySize) 0
        have hat : ∀ e < 16, (subSect * 16 + e) / 16 = subSect ∧ (subSect * 16 + e) % 16 = e := by omega
        -- このセクタの `e` 番目より前の項では止まらない。
        have hbefore : ∀ e ≤ 16, (∀ m, 0 ≤ m → m < e → ¬ Stop name (dirBlock card fsInfo clust subSect) (m * dirEntrySize)) →
            ∀ m < subSect * 16 + e, ¬ AtEntry card fsInfo (Stop name) clust m := by
          intro e he hstop m hm
          rcases Nat.lt_or_ge m (subSect * 16) with hlt | hge
          · exact hpre m hlt
          · obtain ⟨d, rfl⟩ := Nat.exists_eq_add_of_le hge
            have hd := hat d (by omega)
            rw [AtEntry, hd.1, hd.2]
            exact hstop d (Nat.zero_le d) (by omega)
        have hcount : sectSize / dirEntrySize = 16 := rfl
        generalize scanEntries name (dirBlock card fsInfo clust subSect) (sectSize / dirEntrySize) 0 = r at hspec ⊢
        rw [hcount, Nat.zero_add] at hspec
        cases hspec with
        | @found e _ hlt hcand hstop =>
            obtain ⟨hdiv, hmod⟩ := hat e (by omega)
            have hfound : ClusterFound card fsInfo name clust (subSect * 16 + e) := by
              refine ⟨?_, ?_, fun m hm => ?_⟩
              · unfold entryCount
                omega
              · rw [CandidateAt, AtEntry, hdiv, hmod]
                exact hcand
              · exact not_or.mp (hbefore e (by omega) hstop m hm)
            have hres := ClustSpec.found (s := s') hfound (by rw [hdiv]; exact hblk)
            rw [hdiv, hmod] at hres
            exact hres
        | @ended e _ hlt hend hstop =>
            obtain ⟨hdiv, hmod⟩ := hat e (by omega)
            refine .next fun m _ hcand => ⟨subSect * 16 + e, ?_, ?_⟩
            · by_contra hge
              rcases Nat.eq_or_lt_of_le (Nat.le_of_not_lt hge) with rfl | hm
              · rw [CandidateAt, AtEntry, hdiv, hmod] at hcand
                exact hcand.1 hend
              · exact hbefore e (by omega) hstop m hm (.inr hcand)
            · rw [EndAt, AtEntry, hdiv, hmod]
              exact hend
        | exhausted hstop =>
            apply ih s' (by omega)
            intro m hm
            exact hbefore 16 le_rfl hstop m (by omega)

/-! ## クラスタの連鎖 -/

/-- 検索が、ルートから `k` 番目のクラスタの `n` 番目の項で止まる。 -/
structure Finds (card : Card) (fsInfo : FsInfo) (name : List UInt8) (root k n : Nat) : Prop where
  pass : ∀ j < k, ClusterPass card fsInfo name (fatChain card fsInfo root j)
  alive : ∀ j ≤ k, endOfFile (fatChain card fsInfo root j) = false
  found : ClusterFound card fsInfo name (fatChain card fsInfo root k) n

/-- 検索が、何も選ばずに `k` 番目のクラスタの終わりの印に着く。 -/
structure RunsOut (card : Card) (fsInfo : FsInfo) (name : List UInt8) (root k : Nat) : Prop where
  pass : ∀ j < k, ClusterPass card fsInfo name (fatChain card fsInfo root j)
  alive : ∀ j < k, endOfFile (fatChain card fsInfo root j) = false
  ended : endOfFile (fatChain card fsInfo root k) = true

/-- 選んだ項のクラスタと大きさで読み込んだ結果。 -/
def LoadsEntry (card : Card) (fsInfo : FsInfo) (clust n buf : Nat) (r : NamedResult) : Prop :=
  r.loaded = some (clust, n / 16, n % 16) ∧ ∃ fuel s,
    fatCopyFile card fsInfo fuel s (getCluster (dirBlock card fsInfo clust (n / 16)) (n % 16 * dirEntrySize))
      (dirSize (dirBlock card fsInfo clust (n / 16)) (n % 16 * dirEntrySize)) buf = some (r.status, r.state)

/-- 何も読み込まずにエラーを返した結果。 -/
def LoadsNothing (r : NamedResult) : Prop := r.loaded = none ∧ r.status = .error

theorem Finds.succ {root k n : Nat} (hend : endOfFile root = false) (hpass : ClusterPass card fsInfo name root)
    (h : Finds card fsInfo name (fatEntry card fsInfo root) k n) : Finds card fsInfo name root (k + 1) n := by
  refine ⟨fun j hj => ?_, fun j hj => ?_, ?_⟩
  · cases j with
    | zero => exact hpass
    | succ j =>
        rw [fatChain_succ]
        exact h.pass j (by omega)
  · cases j with
    | zero => exact hend
    | succ j =>
        rw [fatChain_succ]
        exact h.alive j (by omega)
  · rw [fatChain_succ]
    exact h.found

theorem RunsOut.succ {root k : Nat} (hend : endOfFile root = false) (hpass : ClusterPass card fsInfo name root)
    (h : RunsOut card fsInfo name (fatEntry card fsInfo root) k) : RunsOut card fsInfo name root (k + 1) := by
  refine ⟨fun j hj => ?_, fun j hj => ?_, ?_⟩
  · cases j with
    | zero => exact hpass
    | succ j =>
        rw [fatChain_succ]
        exact h.pass j (by omega)
  · cases j with
    | zero => exact hend
    | succ j =>
        rw [fatChain_succ]
        exact h.alive j (by omega)
  · rw [fatChain_succ]
    exact h.ended

/-- 戻ったなら、項で止まったか、連鎖の終わりに着いている。 -/
theorem namedFileLoop_sound (hok : ∀ n, card.fails n = false) {buf fuel : Nat} {s : FatState} {root : Nat} {r : NamedResult}
    (h : namedFileLoop card fsInfo name buf fuel s root = some r) :
    (∃ k n, Finds card fsInfo name root k n ∧ LoadsEntry card fsInfo (fatChain card fsInfo root k) n buf r) ∨
      ∃ k, RunsOut card fsInfo name root k ∧ LoadsNothing r := by
  induction fuel generalizing s root with
  | zero => cases h
  | succ fuel ih =>
      rw [namedFileLoop] at h
      split_ifs at h with hend
      · cases h
        exact .inr ⟨0, ⟨fun j hj => absurd hj (Nat.not_lt_zero j), fun j hj => absurd hj (Nat.not_lt_zero j), hend⟩, rfl, rfl⟩
      · rw [Bool.not_eq_true] at hend
        have hspec : ClustSpec card fsInfo name root _ :=
          scanSectors_spec hok root s (Nat.zero_add _) fun m hm => absurd hm (by omega)
        generalize scanSectors card fsInfo name (clust2fsect fsInfo root) fsInfo.clusterSize 0 s = scan at h hspec
        cases hspec with
        | @found n s' hfound hblk =>
            dsimp only at h
            rw [getCluster_congr hblk (Nat.mod_lt _ (by decide)), dirSize_congr hblk (Nat.mod_lt _ (by decide))] at h
            split at h
            · cases h
            · rename_i status s'' hcopy
              cases h
              refine .inl ⟨0, n, ⟨fun j hj => absurd hj (Nat.not_lt_zero j), fun j hj => ?_, hfound⟩, rfl, fuel, s', hcopy⟩
              rw [Nat.le_zero.mp hj]
              exact hend
        | @next s' hpass =>
            obtain ⟨s'', -, -, hget⟩ := fatGetFatEntry_spec card fsInfo s' root
            dsimp only at h
            rw [hget, hok, if_neg Bool.false_ne_true] at h
            rcases ih h with ⟨k, n, hfinds, hloads⟩ | ⟨k, houts, hnone⟩
            · rw [← fatChain_succ] at hloads
              exact .inl ⟨k + 1, n, hfinds.succ hend hpass, hloads⟩
            · exact .inr ⟨k + 1, houts.succ hend hpass, hnone⟩

theorem Finds.tail {root k n : Nat} (h : Finds card fsInfo name root (k + 1) n) :
    Finds card fsInfo name (fatEntry card fsInfo root) k n := by
  refine ⟨fun j hj => ?_, fun j hj => ?_, ?_⟩
  · rw [← fatChain_succ]
    exact h.pass (j + 1) (by omega)
  · rw [← fatChain_succ]
    exact h.alive (j + 1) (by omega)
  · rw [← fatChain_succ]
    exact h.found

theorem RunsOut.tail {root k : Nat} (h : RunsOut card fsInfo name root (k + 1)) :
    RunsOut card fsInfo name (fatEntry card fsInfo root) k := by
  refine ⟨fun j hj => ?_, fun j hj => ?_, ?_⟩
  · rw [← fatChain_succ]
    exact h.pass (j + 1) (by omega)
  · rw [← fatChain_succ]
    exact h.alive (j + 1) (by omega)
  · rw [← fatChain_succ]
    exact h.ended

/-- 選ばれる項のあるクラスタは、素通りしない。 -/
theorem ClusterFound.not_pass {clust n : Nat} (h : ClusterFound card fsInfo name clust n) : ¬ ClusterPass card fsInfo name clust := by
  intro hpass
  obtain ⟨m, hm, hend⟩ := hpass n h.lt h.here
  exact (h.before m hm).1 hend

theorem fatCopyFile_halts (hcs : 1 ≤ fsInfo.clusterSize) (s : FatState) (clust size buf : Nat) :
    ∃ N, ∀ fuel ≥ N, ∃ status s', fatCopyFile card fsInfo fuel s clust size buf = some (status, s') := by
  refine ⟨(int32 size).toNat + 1, fun fuel hfuel => ?_⟩
  obtain ⟨status, s', hrun, -⟩ : ∃ status s', copyFileLoop card fsInfo fuel s clust buf (int32 size).toNat = some (status, s') ∧
      Outcome card fsInfo clust (int32 size).toNat buf s s' status := copyFileLoop_outcome (Nat.mul_pos hcs (by decide)) s clust buf hfuel
  exact ⟨status, s', hrun⟩

/-- 項で止まる一周。 -/
theorem namedFileLoop_found_halts (hcs : 1 ≤ fsInfo.clusterSize) (buf : Nat) {s s' : FatState} {root subSect ent : Nat}
    (hend : endOfFile root = false)
    (hscan : scanSectors card fsInfo name (clust2fsect fsInfo root) fsInfo.clusterSize 0 s = .found subSect ent s') :
    ∃ N, ∀ fuel ≥ N, ∃ r, namedFileLoop card fsInfo name buf fuel s root = some r := by
  obtain ⟨N, hN⟩ : ∃ N, ∀ fuel ≥ N, ∃ status s'', fatCopyFile card fsInfo fuel s' (getCluster s'.blk (ent * dirEntrySize))
      (dirSize s'.blk (ent * dirEntrySize)) buf = some (status, s'') := fatCopyFile_halts hcs _ _ _ _
  refine ⟨N + 1, fun fuel hfuel => ?_⟩
  obtain ⟨fuel, rfl⟩ := Nat.exists_eq_succ_of_ne_zero (n := fuel) (by omega)
  obtain ⟨status, s'', hcopy⟩ := hN fuel (by omega)
  rw [namedFileLoop, if_neg (by rw [hend]; decide), hscan]
  dsimp only
  rw [hcopy]
  exact ⟨_, rfl⟩

/-- 項で止まるか連鎖の終わりに着くなら、いつかは戻る。 -/
theorem namedFileLoop_halts (hok : ∀ n, card.fails n = false) (hcs : 1 ≤ fsInfo.clusterSize) (buf : Nat) {k : Nat} (s : FatState)
    {root : Nat} (h : (∃ n, Finds card fsInfo name root k n) ∨ RunsOut card fsInfo name root k) :
    ∃ N, ∀ fuel ≥ N, ∃ r, namedFileLoop card fsInfo name buf fuel s root = some r := by
  induction k generalizing s root with
  | zero =>
      cases hend : endOfFile root with
      | true =>
          refine ⟨1, fun fuel hfuel => ?_⟩
          obtain ⟨fuel, rfl⟩ := Nat.exists_eq_add_of_le' hfuel
          rw [namedFileLoop, if_pos hend]
          exact ⟨_, rfl⟩
      | false =>
          have hspec : ClustSpec card fsInfo name root _ :=
            scanSectors_spec hok root s (Nat.zero_add _) fun m hm => absurd hm (by omega)
          generalize hscan : scanSectors card fsInfo name (clust2fsect fsInfo root) fsInfo.clusterSize 0 s = scan at hspec
          cases hspec with
          | found _ _ => exact namedFileLoop_found_halts hcs buf hend hscan
          | next hpass =>
              rcases h with ⟨n, hfinds⟩ | houts
              · exact absurd hpass hfinds.found.not_pass
              · have hended := houts.ended
                rw [fatChain, hend] at hended
                cases hended
  | succ k ih =>
      have hend : endOfFile root = false := by
        rcases h with ⟨n, hfinds⟩ | houts
        · exact hfinds.alive 0 (Nat.zero_le _)
        · exact houts.alive 0 (Nat.succ_pos k)
      have htail : (∃ n, Finds card fsInfo name (fatEntry card fsInfo root) k n) ∨
          RunsOut card fsInfo name (fatEntry card fsInfo root) k := by
        rcases h with ⟨n, hfinds⟩ | houts
        · exact .inl ⟨n, hfinds.tail⟩
        · exact .inr houts.tail
      have hspec : ClustSpec card fsInfo name root _ :=
        scanSectors_spec hok root s (Nat.zero_add _) fun m hm => absurd hm (by omega)
      generalize hscan : scanSectors card fsInfo name (clust2fsect fsInfo root) fsInfo.clusterSize 0 s = scan at hspec
      cases hspec with
      | found _ _ => exact namedFileLoop_found_halts hcs buf hend hscan
      | @next s' _ =>
          obtain ⟨s'', -, -, hget⟩ := fatGetFatEntry_spec card fsInfo s' root
          rw [hok, if_neg Bool.false_ne_true] at hget
          obtain ⟨N, hN⟩ := ih s'' htail
          refine ⟨N + 1, fun fuel hfuel => ?_⟩
          obtain ⟨fuel, rfl⟩ := Nat.exists_eq_succ_of_ne_zero (n := fuel) (by omega)
          obtain ⟨r, hr⟩ := hN fuel (by omega)
          rw [namedFileLoop, if_neg (by rw [hend]; decide), hscan]
          dsimp only
          rw [hget]
          exact ⟨r, hr⟩

end

end Imx6Bsp.Boot
