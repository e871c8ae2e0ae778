import Imx6Bsp.Boot.Lemmas.FatFile
import Imx6Bsp.Boot.Lemmas.FatDir

/-!
# `fat_copy_file()` の成功

FAT の項を読めないときの 0 や、途中の終わりの印は、エラーにならない。
-/

namespace Imx6Bsp.Boot

open Imx6Bsp.Lib Imx6Bsp.Startup

variable {card : Card} {fsInfo : FsInfo}

/-- `fat_copy_file()` は戻り、`SDMMC_OK` ならファイルを読み終えている。 -/
def AllOrError (card : Card) (fsInfo : FsInfo) (s : FatState) (clust size buf : Nat) : Prop :=
  ∃ fuel status s', fatCopyFile card fsInfo fuel s clust size buf = some (status, s') ∧
    (status = .ok → Loaded card fsInfo clust size buf s s')

theorem copyFileLoop_mono {fuel : Nat} {s : FatState} {clust buf sz : Nat} {r : SdmmcStatus × FatState}
    (h : copyFileLoop card fsInfo fuel s clust buf sz = some r) (more : Nat) :
    copyFileLoop card fsInfo (fuel + more) s clust buf sz = some r := by
  induction fuel generalizing s clust buf sz with
  | zero => cases h
  | succ fuel ih =>
      rw [Nat.succ_add, copyFileLoop]
      rw [copyFileLoop] at h
      split_ifs at h ⊢
      · dsimp only at h ⊢
        split at h
        · exact h
        · exact ih h
      · exact h

theorem fat_copy_file_all_or_error_iff {size : Nat} (s : FatState) (clust buf : Nat) (hcs : 1 ≤ fsInfo.clusterSize)
    (hsize : size < 2 ^ 31) :
    AllOrError card fsInfo s clust size buf ↔ SoundChain card fsInfo clust size s.reads ∨ ReadFails card fsInfo clust size s.reads := by
  have hcb : 0 < clusterBytes fsInfo := Nat.mul_pos hcs (by decide)
  have hsz : (int32 size).toNat = size := by
    rw [int32, if_pos hsize]
    rfl
  unfold AllOrError fatCopyFile
  rw [hsz]
  obtain ⟨status, s', hrun, hout⟩ : ∃ status s', copyFileLoop card fsInfo (size + 1) s clust buf size = some (status, s') ∧
      Outcome card fsInfo clust size buf s s' status := copyFileLoop_outcome hcb s clust buf (Nat.lt_succ_self size)
  constructor
  · rintro ⟨fuel, status', s'', hrun', hall⟩
    have heq := (copyFileLoop_mono hrun (fuel)).symm.trans (Nat.add_comm fuel _ ▸ copyFileLoop_mono hrun' (size + 1))
    cases heq
    cases status with
    | error => exact .inr (hout.error_iff.mp rfl)
    | ok => exact .inl ((hout.loaded_iff rfl).mp (hall rfl))
  · intro h
    refine ⟨size + 1, status, s', hrun, fun hok => (hout.loaded_iff hok).mpr ?_⟩
    refine h.resolve_right fun hfail => ?_
    have herror := hout.error_iff.mpr hfail
    rw [hok] at herror
    cases herror

/-- 一セクタのクラスタの配置。 -/
def sampleFsInfo : FsInfo :=
  { fsOffset := 0, fatType := 32, totalSectors := 12, rootDirSectors := 0, reservedSectors := 1, dataSectors := 10, fatSize := 1,
    numberOfFats := 2, clusterSize := 1, countOfClusters := 10, fat1Start := 1, fat2Start := 2, rootDirStart := 3,
    rootEntryCount := 0, cluster2Start := 3 }

/-- クラスタ 2 の次が終わりの印であるカード。 -/
def sampleCard : Card where
  block b i := if b = 1 then ([(8, 0xf8), (9, 0xff), (10, 0xff), (11, 0x0f)] : List (Nat × UInt8)).lookup i |>.getD 0 else 0
  fails _ := false
  garbage _ _ := 0

def sampleFatState : FatState := ⟨fun _ => 0, fun _ => 0, 0⟩

theorem fat_copy_file_one_cluster :
    1 ≤ sampleFsInfo.clusterSize ∧ 512 < 2 ^ 31 ∧ AllOrError sampleCard sampleFsInfo sampleFatState 2 512 0x10800000 := by
  have hsound : SoundChain sampleCard sampleFsInfo 2 512 sampleFatState.reads := by
    refine ⟨fun i hi => ?_, fun i _ => rfl⟩
    have hcb : clusterBytes sampleFsInfo = 512 := rfl
    rw [hcb] at hi
    obtain rfl : i = 0 := by omega
    exact ⟨by decide, by decide, by decide⟩
  exact ⟨by decide, by decide, (fat_copy_file_all_or_error_iff sampleFatState 2 0x10800000 (by decide) (by decide)).mpr (.inl hsound)⟩

/-- 連鎖がファイルの途中で終わっても `SDMMC_OK` を返す。 -/
theorem fat_copy_file_truncates : ∃ s', fatCopyFile sampleCard sampleFsInfo 2 sampleFatState 2 1024 0x10800000 = some (.ok, s') ∧
    ¬ Loaded sampleCard sampleFsInfo 2 1024 0x10800000 sampleFatState s' := by
  refine ⟨_, rfl, fun h => ?_⟩
  have hnext : fatChain sampleCard sampleFsInfo 2 1 = 0x0ffffff8 := by decide
  have hdata := (h.chain 1 (by decide)).2.1
  rw [hnext] at hdata
  exact absurd hdata (by decide)

end Imx6Bsp.Boot

namespace Imx6Bsp.Boot

open Imx6Bsp.Lib Imx6Bsp.Startup

/-! ## `fat_copy_named_file()` が読み込むファイル

検索は名前の頭だけを比べ、終わりの印のあとも次のクラスタに進み、環になった連鎖では終わらない。 -/

/-! ### 名前の合う項 -/

def shortName (blk : Mem) (entry : Nat) : List UInt8 := (List.range 11).map fun i => blk (entry + i)

/-- 空白で 11 文字にした名前。 -/
def paddedName (name : List UInt8) : List UInt8 := name ++ List.replicate (11 - name.length) 0x20

/-- 使われていて、名前が等しく、クラスタのある項。 -/
def Named (name : List UInt8) (blk : Mem) (entry : Nat) : Prop :=
  blk entry ≠ entEnd ∧ blk entry ≠ entUnused ∧ shortName blk entry = paddedName name ∧ getCluster blk entry ≠ 0

/-- `j` 番目のクラスタの `m` 番目の項は、`k` 番目のクラスタの `n` 番目の項より前にある。 -/
def Earlier (j m k n : Nat) : Prop := j < k ∨ j = k ∧ m < n

section

variable (card : Card) (fsInfo : FsInfo) (name : List UInt8) (root : Nat)

def NamedAt (clust n : Nat) : Prop := AtEntry card fsInfo (Named name) clust n

/-- 読み込むべき項。ディレクトリの終わりの印より前で、名前の合う最初の項である。 -/
structure IsTarget (k n : Nat) : Prop where
  data : ∀ j ≤ k, IsData fsInfo (fatChain card fsInfo root j)
  lt : n < entryCount fsInfo
  here : NamedAt card fsInfo name (fatChain card fsInfo root k) n
  noEnd : ∀ j m, Earlier j m k n → m < entryCount fsInfo → ¬ EndAt card fsInfo (fatChain card fsInfo root j) m
  first : ∀ j m, Earlier j m k n → m < entryCount fsInfo → ¬ NamedAt card fsInfo name (fatChain card fsInfo root j) m

/-- 読み込むべき項より前に、名前の頭だけが合う項もない。 -/
def ExactFirst : Prop :=
  ∃ k n, IsTarget card fsInfo name root k n ∧
    ∀ j m, Earlier j m k n → m < entryCount fsInfo → ¬ CandidateAt card fsInfo name (fatChain card fsInfo root j) m

/-- `fat_copy_named_file()` は戻り、読み込むべき項があればそれを読み込み、なければエラーを返す。 -/
def LooksUp (s : FatState) (buf : Nat) : Prop :=
  ∃ fuel r, fatCopyNamedFile card fsInfo name fuel s buf = some r ∧
    (∀ k n, IsTarget card fsInfo name fsInfo.rootDirStart k n →
      LoadsEntry card fsInfo (fatChain card fsInfo fsInfo.rootDirStart k) n buf r) ∧
    ((∀ k n, ¬ IsTarget card fsInfo name fsInfo.rootDirStart k n) → LoadsNothing r)

end

theorem matchName_of_eq {name : List UInt8} {blk : Mem} {a : Nat} (h : ∀ i < name.length, name[i]? = some (blk (a + i))) :
    matchName name blk a = true := by
  induction name generalizing a with
  | nil => rfl
  | cons c name ih =>
      have h0 := h 0 (Nat.succ_pos _)
      rw [List.getElem?_cons_zero, Option.some.injEq, Nat.add_zero] at h0
      rw [matchName, if_neg (not_not.mpr h0)]
      apply ih
      intro i hi
      have hs := h (i + 1) (Nat.succ_lt_succ hi)
      rwa [List.getElem?_cons_succ, Nat.add_comm i, ← Nat.add_assoc] at hs

theorem Named.candidate {name : List UInt8} {blk : Mem} {entry : Nat} (h : Named name blk entry) : Candidate name blk entry := by
  obtain ⟨hend, hunused, hname, hcluster⟩ := h
  have hlen := congrArg List.length hname
  simp only [shortName, paddedName, List.length_map, List.length_range, List.length_append, List.length_replicate] at hlen
  refine ⟨hend, hunused, ?_, hcluster⟩
  rw [List.take_of_length_le (by omega)]
  apply matchName_of_eq
  intro i hi
  have hget := congrArg (fun l => l[i]?) hname
  simp only [shortName, paddedName, List.getElem?_map, List.getElem?_append_left hi] at hget
  rw [← hget, List.getElem?_range (by omega)]
  rfl

section

variable {card : Card} {fsInfo : FsInfo} {name : List UInt8} {root : Nat}

theorem IsTarget.unique {k n k' n' : Nat} (h : IsTarget card fsInfo name root k n) (h' : IsTarget card fsInfo name root k' n') :
    k = k' ∧ n = n' := by
  by_contra hne
  rcases Nat.lt_trichotomy k k' with hlt | rfl | hlt
  · exact h'.first k n (.inl hlt) h.lt h.here
  · rcases Nat.lt_trichotomy n n' with hlt | rfl | hlt
    · exact h'.first k n (.inr ⟨rfl, hlt⟩) h.lt h.here
    · exact hne ⟨rfl, rfl⟩
    · exact h.first k n' (.inr ⟨rfl, hlt⟩) h'.lt h'.here
  · exact h.first k' n' (.inl hlt) h'.lt h'.here

theorem not_end_of_data {clust : Nat} (h : IsData fsInfo clust) : endOfFile clust = false := by
  rw [← Bool.not_eq_true]
  exact fun hend => not_data_of_end hend h

/-- 読み込むべき項のあるクラスタまで、検索は素通りしない。 -/
theorem IsTarget.not_pass {k n : Nat} (h : IsTarget card fsInfo name root k n) :
    ¬ ClusterPass card fsInfo name (fatChain card fsInfo root k) := by
  intro hpass
  obtain ⟨m, hm, hend⟩ := hpass n h.lt h.here.candidate
  exact h.noEnd k m (.inr ⟨rfl, hm⟩) (hm.trans h.lt) hend

theorem ExactFirst.finds (h : ExactFirst card fsInfo name root) :
    ∃ k n, IsTarget card fsInfo name root k n ∧ Finds card fsInfo name root k n := by
  obtain ⟨k, n, htarget, hfirst⟩ := h
  refine ⟨k, n, htarget, fun j hj m hm hcand => ?_, fun j hj => not_end_of_data (htarget.data j hj), htarget.lt,
    htarget.here.candidate, fun m hm => ?_⟩
  · exact absurd hcand (hfirst j m (.inl hj) hm)
  · have hlt := hm.trans htarget.lt
    exact ⟨htarget.noEnd k m (.inr ⟨rfl, hm⟩) hlt, hfirst k m (.inr ⟨rfl, hm⟩) hlt⟩

/-- 検索の止まった項が読み込むべき項なら、その前に名前の頭の合う項はない。 -/
theorem Finds.exactFirst {k n k' n' : Nat} (h : Finds card fsInfo name root k n) (htarget : IsTarget card fsInfo name root k' n')
    (hclust : fatChain card fsInfo root k = fatChain card fsInfo root k') (hn : n = n') : ExactFirst card fsInfo name root := by
  subst hn
  rcases Nat.lt_trichotomy k k' with hlt | rfl | hlt
  · have hhere := htarget.here
    rw [← hclust] at hhere
    exact absurd hhere (htarget.first k n (.inl hlt) htarget.lt)
  · refine ⟨k, n, htarget, fun j m hearlier hm hcand => ?_⟩
    rcases hearlier with hj | ⟨rfl, hmn⟩
    · obtain ⟨m', hm', hend⟩ := h.pass j hj m hm hcand
      exact htarget.noEnd j m' (.inl hj) (hm'.trans hm) hend
    · exact (h.found.before m hmn).2 hcand
  · exact absurd (h.pass k' hlt) htarget.not_pass

theorem Finds.unique {k n k' n' : Nat} (h : Finds card fsInfo name root k n) (h' : Finds card fsInfo name root k' n') :
    k = k' ∧ n = n' := by
  rcases Nat.lt_trichotomy k k' with hlt | rfl | hlt
  · exact absurd (h'.pass k hlt) h.found.not_pass
  · rcases Nat.lt_trichotomy n n' with hlt | rfl | hlt
    · exact absurd h.found.here (h'.found.before n hlt).2
    · exact ⟨rfl, rfl⟩
    · exact absurd h'.found.here (h.found.before n' hlt).2
  · exact absurd (h.pass k' hlt) h'.found.not_pass

theorem Finds.not_runsOut {k n k' : Nat} (h : Finds card fsInfo name root k n) : ¬ RunsOut card fsInfo name root k' := by
  intro houts
  rcases Nat.lt_or_ge k k' with hlt | hge
  · exact h.found.not_pass (houts.pass k hlt)
  · have hend := houts.ended
    rw [h.alive k' hge] at hend
    cases hend

theorem RunsOut.no_target {k : Nat} (h : RunsOut card fsInfo name root k) (k' n' : Nat) : ¬ IsTarget card fsInfo name root k' n' := by
  intro htarget
  rcases Nat.lt_or_ge k' k with hlt | hge
  · exact htarget.not_pass (h.pass k' hlt)
  · have hend := h.ended
    rw [not_end_of_data (htarget.data k hge)] at hend
    cases hend

theorem LoadsEntry.not_nothing {clust n buf : Nat} {r : NamedResult} (h : LoadsEntry card fsInfo clust n buf r) : ¬ LoadsNothing r := by
  intro hnone
  have hloaded := h.1
  rw [hnone.1] at hloaded
  cases hloaded

theorem fat_copy_named_file_looks_up_iff (s : FatState) (buf : Nat) (hok : ∀ n, card.fails n = false) (hcs : 1 ≤ fsInfo.clusterSize) :
    LooksUp card fsInfo name s buf ↔
      ExactFirst card fsInfo name fsInfo.rootDirStart ∨ ∃ k, RunsOut card fsInfo name fsInfo.rootDirStart k := by
  constructor
  · rintro ⟨fuel, r, hrun, htarget, hnone⟩
    rcases namedFileLoop_sound hok hrun with ⟨k, n, hfinds, hloads⟩ | ⟨k, houts, -⟩
    · by_cases hexists : ∃ k' n', IsTarget card fsInfo name fsInfo.rootDirStart k' n'
      · obtain ⟨k', n', ht⟩ := hexists
        have hpos := (htarget k' n' ht).1
        rw [hloads.1, Option.some.injEq, Prod.mk.injEq, Prod.mk.injEq] at hpos
        exact .inl (hfinds.exactFirst ht hpos.1 (by omega))
      · exact absurd (hnone fun k' n' ht => hexists ⟨k', n', ht⟩) hloads.not_nothing
    · exact .inr ⟨k, houts⟩
  · rintro (hexact | ⟨k, houts⟩)
    · obtain ⟨k, n, ht, hfinds⟩ := hexact.finds
      obtain ⟨N, hN⟩ := namedFileLoop_halts hok hcs buf s (.inl ⟨n, hfinds⟩)
      obtain ⟨r, hr⟩ := hN N le_rfl
      refine ⟨N, r, hr, fun k' n' ht' => ?_, fun hnone => absurd ht (hnone k n)⟩
      obtain ⟨rfl, rfl⟩ := ht.unique ht'
      rcases namedFileLoop_sound hok hr with ⟨k', n', hfinds', hloads⟩ | ⟨k', houts, -⟩
      · obtain ⟨rfl, rfl⟩ := hfinds.unique hfinds'
        exact hloads
      · exact absurd houts hfinds.not_runsOut
    · obtain ⟨N, hN⟩ := namedFileLoop_halts hok hcs buf s (.inr houts)
      obtain ⟨r, hr⟩ := hN N le_rfl
      refine ⟨N, r, hr, fun k' n' ht => absurd ht (houts.no_target k' n'), fun _ => ?_⟩
      rcases namedFileLoop_sound hok hr with ⟨k', n', hfinds, -⟩ | ⟨k', -, hnone⟩
      · exact absurd houts hfinds.not_runsOut
      · exact hnone

end

/-- クラスタ 3 がルートで、その先頭の項の名前が `ABC` であるカードと配置。 -/
def rootCard : Card where
  block b i :=
    if b = 1 then ([(12, 0xf8), (13, 0xff), (14, 0xff), (15, 0x0f)] : List (Nat × UInt8)).lookup i |>.getD 0
    else if b = 4 then
      if i < 11 then [0x41, 0x42, 0x43].getD i 0x20 else ([(26, 2), (29, 2)] : List (Nat × UInt8)).lookup i |>.getD 0
    else 0
  fails _ := false
  garbage _ _ := 0

def rootFsInfo : FsInfo :=
  { fsOffset := 0, fatType := 32, totalSectors := 12, rootDirSectors := 0, reservedSectors := 1, dataSectors := 9, fatSize := 1,
    numberOfFats := 2, clusterSize := 1, countOfClusters := 9, fat1Start := 1, fat2Start := 2, rootDirStart := 3,
    rootEntryCount := 0, cluster2Start := 3 }

theorem fat_copy_named_file_exact_name :
    (∀ n, rootCard.fails n = false) ∧ 1 ≤ rootFsInfo.clusterSize ∧
      LooksUp rootCard rootFsInfo [0x41, 0x42, 0x43] ⟨fun _ => 0, fun _ => 0, 0⟩ 0x10800000 := by
  have hnone : ∀ j m, ¬ Earlier j m 0 0 := by
    rintro j m (h | ⟨-, h⟩)
    · exact absurd h (Nat.not_lt_zero j)
    · exact absurd h (Nat.not_lt_zero m)
  have hexact : ExactFirst rootCard rootFsInfo [0x41, 0x42, 0x43] 3 := by
    refine ⟨0, 0, ⟨fun j hj => ?_, by decide, ⟨by decide, by decide, by decide, by decide⟩, fun j m h => absurd h (hnone j m),
      fun j m h => absurd h (hnone j m)⟩, fun j m h => absurd h (hnone j m)⟩
    rw [Nat.le_zero.mp hj]
    exact ⟨by decide, by decide, by decide⟩
  exact ⟨fun _ => rfl, by decide, (fat_copy_named_file_looks_up_iff _ _ (fun _ => rfl) (by decide)).mpr (.inl hexact)⟩

/-- 名前の等しい項がないのに、頭の合う `ABC` を読み込む。 -/
theorem fat_copy_named_file_loads_other :
    (∀ k n, ¬ IsTarget rootCard rootFsInfo [0x41, 0x42] rootFsInfo.rootDirStart k n) ∧
      ∃ r, fatCopyNamedFile rootCard rootFsInfo [0x41, 0x42] 3 ⟨fun _ => 0, fun _ => 0, 0⟩ 0x10800000 = some r ∧
        r.loaded = some (3, 0, 0) := by
  refine ⟨fun k n h => ?_, _, rfl, rfl⟩
  cases k with
  | zero =>
      have hnamed : ∀ n < 16, ¬ NamedAt rootCard rootFsInfo [0x41, 0x42] 3 n := by
        unfold NamedAt AtEntry Named
        decide
      exact hnamed n h.lt h.here
  | succ k =>
      have hnext : fatChain rootCard rootFsInfo 3 1 = 0x0ffffff8 := by decide
      have hdata := (h.data 1 (Nat.succ_le_succ (Nat.zero_le k))).2.1
      rw [show rootFsInfo.rootDirStart = 3 from rfl, hnext] at hdata
      exact absurd hdata (by decide)

end Imx6Bsp.Boot
