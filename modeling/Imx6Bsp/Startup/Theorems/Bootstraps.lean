import Imx6Bsp.Startup.Bootstraps
import Mathlib

/-!
# ブートストラップの連鎖

署名のあるものの後に署名のないものを読み込むと、`prev` は前の署名のあるもののままになる。その後に読み込んだものの入口が、そこへ重ねて書かれる。
-/

namespace Imx6Bsp.Startup

section

variable {env : BootEnv} {hdr : ImageHeader} {s s' : BootState} {d : Dirent} {done es : List Dirent}

/-! ## 一つの実行形式 -/

/-- 読み込みに成功した後の状態。 -/
def BootState.after (env : BootEnv) (s : BootState) (d : Dirent) (entry : Nat) : BootState where
  sysPrivate := (env.load s.i).moveTo
  boot := Function.update s.boot (env.load s.i).moveTo
    (if s.i < env.slots then Function.update (s.boot s.sysPrivate) s.i (bootPgm env s.i d) else s.boot s.sysPrivate)
  loaded := s.loaded ++ [d]
  next := s.prev.elim (s.next ++ [(env.load s.i).nextEntry]) fun p => (s.next ++ [(env.load s.i).nextEntry]).set p entry
  prev := if (env.load s.i).signature then some s.i else s.prev
  newStyle := (env.load s.i).signature || s.newStyle
  i := s.i + 1

theorem checkHead_eq (s : BootState) (signature : Bool) :
    checkHead s signature = { s with newStyle := signature || s.newStyle, prev := if signature then some s.i else s.prev } := by
  cases signature <;> rfl

theorem recordPgm_eq (h : env.slots ≤ s.i → s.prev ≠ none) (pgm : BootPgm) :
    recordPgm env s pgm = some { s with
      boot := if s.i < env.slots then Function.update s.boot s.sysPrivate (Function.update (s.boot s.sysPrivate) s.i pgm) else s.boot } := by
  rw [recordPgm]
  by_cases hslot : s.i < env.slots
  · rw [if_pos hslot, if_pos hslot]; rfl
  · rw [if_neg hslot, if_neg hslot, if_neg (h (Nat.le_of_not_lt hslot))]

/-- 新しい形式で `prev` がないことはない。 -/
theorem linkPrev_eq (h : s.newStyle = true → s.prev ≠ none) (entry : Nat) :
    linkPrev s entry = some { s with next := s.prev.elim s.next fun p => s.next.set p entry } := by
  obtain ⟨sysPrivate, boot, loaded, next, prev, newStyle, i⟩ := s
  cases prev with
  | none => exact if_neg fun hnew => h hnew rfl
  | some p => rfl

/-- `i` 番目の読み込みが止まる。 -/
def CrashesAt (env : BootEnv) (s : BootState) : Prop :=
  (env.load s.i).entry = none ∨ (env.rifsEnable && !(env.load s.i).saved) = true ∨ (env.slots ≤ s.i ∧ s.prev = none)

/-- 止まらなければ、読み込みは終わる。 -/
theorem loadBootstrap_loads (hnew : s.newStyle = true → s.prev ≠ none) (h : ¬ CrashesAt env s) (d : Dirent) :
    ∃ entry, (env.load s.i).entry = some entry ∧ loadBootstrap env s d = some (s.after env d entry) := by
  simp only [CrashesAt, not_or, not_and] at h
  obtain ⟨hentry, hsave, hroom⟩ := h
  obtain ⟨entry, hentry⟩ := Option.ne_none_iff_exists'.mp hentry
  refine ⟨entry, hentry, ?_⟩
  have hpgm : bootPgm env s.i d = ⟨wrap32 (env.imagePaddr + env.startupSize + d.offset), entry⟩ := by rw [bootPgm, hentry]; rfl
  rw [loadBootstrap, hentry]
  simp only [Option.bind_eq_bind, Option.bind_some, hsave, Bool.false_eq_true, if_false, pure]
  rw [recordPgm_eq, Option.bind_some, linkPrev_eq, Option.bind_some, checkHead_eq, ← hpgm]
  · by_cases hslot : s.i < env.slots
    · simp [BootState.move, BootState.after, hslot]
    · simp [BootState.move, BootState.after, hslot]
  · exact hnew
  · exact hroom

theorem loadBootstrap_crashes (h : CrashesAt env s) (d : Dirent) : loadBootstrap env s d = none := by
  cases hentry : (env.load s.i).entry with
  | none => rw [loadBootstrap, hentry]; rfl
  | some entry =>
      rw [loadBootstrap, hentry]
      simp only [Option.bind_eq_bind, Option.bind_some]
      rcases h with hnone | hsave | ⟨hslot, hprev⟩
      · rw [hentry] at hnone
        cases hnone
      · rw [if_pos hsave]; rfl
      · have hrecord : ∀ s₁ pgm, s₁.i = s.i → s₁.prev = s.prev → recordPgm env s₁ pgm = none := fun s₁ pgm hi hp => by
          rw [recordPgm, if_neg (Nat.not_lt.mpr (hi ▸ hslot)), if_pos (hp.trans hprev)]
        split
        · rfl
        · rw [hrecord]
          · rfl
          · rfl
          · rfl

/-! ## 不変条件 -/

/-- `done` を読み込んだ後の状態。`prev` は、署名のある最後のものである。 -/
structure Chained (env : BootEnv) (done : List Dirent) (s : BootState) : Prop where
  i : s.i = done.length
  loaded : s.loaded = done
  length : s.next.length = done.length
  programs : ∀ k d, done[k]? = some d → k < env.slots → s.boot s.sysPrivate k = bootPgm env k d
  prev_none : s.prev = none ↔ ∀ j < done.length, (env.load j).signature = false
  prev_some : ∀ p, s.prev = some p → p < done.length ∧ (env.load p).signature = true ∧
    ∀ j, p < j → j < done.length → (env.load j).signature = false
  newStyle : s.newStyle = true → s.prev ≠ none
  links : ChainClosed env done.length → ∀ k, k + 1 < done.length → (env.load k).signature = true → s.next[k]? = (env.load (k + 1)).entry

theorem ChainClosed.mono {m n : Nat} (h : ChainClosed env n) (hmn : m ≤ n) : ChainClosed env m :=
  fun j k hjk hk hj => h j k hjk (hk.trans_le hmn) hj

/-- 途切れない連鎖では、`prev` は直前の実行形式である。 -/
theorem Chained.prev_last (h : Chained env done s) (hclosed : ChainClosed env (done.length + 1)) {p : Nat} (hp : s.prev = some p) :
    p + 1 = done.length := by
  obtain ⟨hlt, hsig, hafter⟩ := h.prev_some p hp
  by_contra hne
  have hfalse := hafter (p + 1) (Nat.lt_succ_self p) (by omega)
  have htrue := hclosed p (p + 1) (Nat.lt_succ_self p) (by omega) hsig
  rw [hfalse] at htrue
  cases htrue

theorem Chained.after (h : Chained env done s) (d : Dirent) {entry : Nat} (hentry : (env.load s.i).entry = some entry) :
    Chained env (done ++ [d]) (s.after env d entry) := by
  have hi := h.i
  have hlen : (done ++ [d]).length = done.length + 1 := by rw [List.length_append, List.length_singleton]
  constructor
  · exact (congrArg (· + 1) hi).trans hlen.symm
  · exact congrArg (· ++ [d]) h.loaded
  · rw [hlen]
    dsimp only [BootState.after]
    cases s.prev <;> simp [h.length]
  · intro k d' hget hslot
    dsimp only [BootState.after]
    rw [Function.update_self]
    rcases Nat.lt_or_ge k done.length with hk | hk
    · rw [List.getElem?_append_left hk] at hget
      have hold := h.programs k d' hget hslot
      split
      · rw [Function.update_of_ne (by omega), hold]
      · exact hold
    · have hkn : k = s.i := by
        have hbound := (List.getElem?_eq_some_iff.mp hget).1
        omega
      subst hkn
      rw [if_pos hslot, Function.update_self]
      rw [hi, List.getElem?_append_right (Nat.le_refl _), Nat.sub_self] at hget
      rw [← Option.some.inj hget]
  · dsimp only [BootState.after]
    rw [hlen, ← hi]
    cases hsig : (env.load s.i).signature with
    | true =>
        refine iff_of_false nofun fun hall => ?_
        rw [hall s.i (Nat.lt_succ_self _)] at hsig
        cases hsig
    | false =>
        rw [if_neg Bool.false_ne_true, h.prev_none, ← hi]
        refine ⟨fun hall j hj => ?_, fun hall j hj => hall j (Nat.lt_succ_of_lt hj)⟩
        rcases Nat.lt_succ_iff_lt_or_eq.mp hj with hj | rfl
        · exact hall j hj
        · exact hsig
  · intro p hp
    dsimp only [BootState.after] at hp
    rw [hlen, ← hi]
    cases hsig : (env.load s.i).signature with
    | true =>
        rw [hsig, if_pos rfl] at hp
        cases hp
        exact ⟨Nat.lt_succ_self _, hsig, fun j h1 h2 => absurd h1 (by omega)⟩
    | false =>
        rw [hsig, if_neg Bool.false_ne_true] at hp
        obtain ⟨hlt, hp, hafter⟩ := h.prev_some p hp
        refine ⟨by omega, hp, fun j h1 h2 => ?_⟩
        rcases Nat.lt_succ_iff_lt_or_eq.mp h2 with h2 | rfl
        · exact hafter j h1 (hi ▸ h2)
        · exact hsig
  · intro hnew
    dsimp only [BootState.after] at hnew ⊢
    cases hsig : (env.load s.i).signature with
    | true => simp
    | false =>
        rw [hsig, Bool.false_or] at hnew
        rw [if_neg Bool.false_ne_true]
        exact h.newStyle hnew
  · intro hclosed k hk hsig
    rw [hlen] at hclosed hk
    dsimp only [BootState.after]
    cases hprev : s.prev with
    | none =>
        rw [h.prev_none.mp hprev k (by omega)] at hsig
        cases hsig
    | some p =>
        have hp := h.prev_last hclosed hprev
        dsimp only [Option.elim_some]
        by_cases hkp : k = p
        · subst hkp
          rw [List.getElem?_set_self (by rw [List.length_append, h.length]; omega), hp, ← hi, hentry]
        · have hk' : k + 1 < done.length := by omega
          rw [List.getElem?_set_ne (Ne.symm hkp), List.getElem?_append_left (by rw [h.length]; omega)]
          exact h.links (hclosed.mono (Nat.le_succ _)) k hk' hsig

/-! ## 実行 -/

theorem skipDirs_none {p : Dirent → Bool} {dir : List Dirent} (h : skipDirs p dir = none) : dir.filter p = [] := by
  induction dir with
  | nil => rfl
  | cons a dir ih =>
      rw [skipDirs] at h
      by_cases ha : p a = true
      · rw [if_pos ha] at h
        cases h
      · rw [if_neg ha] at h
        rw [List.filter_cons_of_neg ha, ih h]

theorem skipDirs_some {p : Dirent → Bool} {dir rest : List Dirent} (h : skipDirs p dir = some (d, rest)) :
    dir.filter p = d :: rest.filter p ∧ rest.length < dir.length := by
  induction dir with
  | nil => cases h
  | cons a dir ih =>
      rw [skipDirs] at h
      by_cases ha : p a = true
      · rw [if_pos ha] at h
        cases h
        exact ⟨List.filter_cons_of_pos ha, Nat.lt_succ_self _⟩
      · rw [if_neg ha] at h
        obtain ⟨hfilter, hlt⟩ := ih h
        exact ⟨by rw [List.filter_cons_of_neg ha, hfilter], Nat.lt_succ_of_lt hlt⟩

/-- 繰り返しは、ブートストラップの実行形式だけを順に読み込む。 -/
theorem loadLoop_eq (hino : hdr.inoBits = true) {fuel : Nat} {dir : List Dirent} (hfuel : dir.length < fuel) (s : BootState) :
    loadLoop env hdr fuel dir s = (dir.filter (isBootstrap env)).foldlM (loadBootstrap env) s := by
  induction fuel generalizing dir s with
  | zero => exact absurd hfuel (Nat.not_lt_zero _)
  | succ fuel ih =>
      rw [loadLoop, pickDir, if_pos hino]
      cases hskip : skipDirs (isBootstrap env) dir with
      | none => rw [skipDirs_none hskip]; rfl
      | some found =>
          obtain ⟨d', rest⟩ := found
          obtain ⟨hfilter, hlt⟩ := skipDirs_some hskip
          rw [hfilter, List.foldlM_cons]
          dsimp only
          congr 1
          funext s₁
          exact ih (by omega) s₁

/-- 残りの読み込みが止まる番号がある。 -/
def CrashesFrom (env : BootEnv) (m n : Nat) : Prop :=
  ∃ k, m ≤ k ∧ k < n ∧ ((env.load k).entry = none ∨ (env.rifsEnable && !(env.load k).saved) = true ∨
    (env.slots ≤ k ∧ ∀ j < k, (env.load j).signature = false))

theorem Chained.crashesAt_iff (h : Chained env done s) : CrashesAt env s ↔
    (env.load done.length).entry = none ∨ (env.rifsEnable && !(env.load done.length).saved) = true ∨
      (env.slots ≤ done.length ∧ ∀ j < done.length, (env.load j).signature = false) := by
  rw [CrashesAt, h.prev_none, h.i]

/-- 残りをすべて読み込むか、止まる番号で止まる。 -/
theorem Chained.run (h : Chained env done s) (es : List Dirent) :
    (CrashesFrom env done.length (done.length + es.length) ∧ es.foldlM (loadBootstrap env) s = none) ∨
      (¬ CrashesFrom env done.length (done.length + es.length) ∧
        ∃ s', es.foldlM (loadBootstrap env) s = some s' ∧ Chained env (done ++ es) s') := by
  induction es generalizing done s with
  | nil =>
      refine Or.inr ⟨?_, s, rfl, by rwa [List.append_nil]⟩
      rintro ⟨k, hk, hlt, -⟩
      exact absurd hlt (Nat.not_lt.mpr hk)
  | cons d es ih =>
      have hlen : (done ++ [d]).length = done.length + 1 := by rw [List.length_append, List.length_singleton]
      rw [List.foldlM_cons, List.length_cons]
      by_cases hcrash : CrashesAt env s
      · rw [loadBootstrap_crashes hcrash]
        exact Or.inl ⟨⟨done.length, Nat.le_refl _, by omega, h.crashesAt_iff.mp hcrash⟩, rfl⟩
      · obtain ⟨entry, hentry, hload⟩ := loadBootstrap_loads h.newStyle hcrash d
        have hfrom : CrashesFrom env done.length (done.length + (es.length + 1)) ↔
            CrashesFrom env (done ++ [d]).length ((done ++ [d]).length + es.length) := by
          rw [hlen]
          constructor
          · rintro ⟨k, hk, hlt, hat⟩
            have hne : k ≠ done.length := fun heq => hcrash (h.crashesAt_iff.mpr (heq ▸ hat))
            exact ⟨k, by omega, by omega, hat⟩
          · rintro ⟨k, hk, hlt, hat⟩
            exact ⟨k, by omega, by omega, hat⟩
        rw [hload, hfrom, List.append_cons done d es]
        exact ih (h.after d hentry)

/-- 初めの状態では、まだ何も読み込んでいない。 -/
theorem chained_nil {s : BootState} (hi : s.i = 0) (hloaded : s.loaded = []) (hnext : s.next = []) (hprev : s.prev = none)
    (hnew : s.newStyle = false) : Chained env [] s where
  i := hi
  loaded := hloaded
  length := by rw [hnext]; rfl
  programs := fun k d h => by cases h
  prev_none := iff_of_true hprev fun j hj => absurd hj (Nat.not_lt_zero j)
  prev_some := fun p h => by rw [hprev] at h; cases h
  newStyle := fun h => by rw [hnew] at h; cases h
  links := fun _ k hk => absurd hk (Nat.not_lt_zero _)

/-- 途切れない連鎖は、正しくできている。 -/
theorem Chained.right (h : Chained env es s) (hclosed : ChainClosed env es.length) : ChainRight env es s :=
  { loaded := h.loaded, programs := h.programs, links := h.links hclosed, closed := hclosed }

/-- 終わった実行の連鎖が正しいのは、止まるはずの実行か、途切れない連鎖のときに限る。 -/
theorem load_bootstraps_right_iff (hino : hdr.inoBits = true) (sysPrivate : Nat) (boot : Nat → Nat → BootPgm) :
    (∀ s, loadBootstraps env hdr sysPrivate boot = some s → ChainRight env (bootstraps env hdr) s) ↔
      BootCrashes env (bootstraps env hdr).length ∨ ChainClosed env (bootstraps env hdr).length := by
  have hfrom : CrashesFrom env ([] : List Dirent).length (([] : List Dirent).length + (bootstraps env hdr).length) ↔
      BootCrashes env (bootstraps env hdr).length := by
    rw [List.length_nil, Nat.zero_add]
    constructor
    · rintro ⟨k, -, hlt, hat⟩
      exact ⟨k, hlt, hat⟩
    · rintro ⟨k, hlt, hat⟩
      exact ⟨k, Nat.zero_le k, hlt, hat⟩
  have hrun : ∃ s₀, Chained env [] s₀ ∧
      loadBootstraps env hdr sysPrivate boot = (bootstraps env hdr).foldlM (loadBootstrap env) s₀ :=
    ⟨_, chained_nil rfl rfl rfl rfl rfl, loadLoop_eq hino (by omega) _⟩
  obtain ⟨s₀, hinit, hrun⟩ := hrun
  rw [hrun, ← hfrom]
  obtain ⟨hcrash, hnone⟩ | ⟨hcrash, s', hsome, hchain⟩ := hinit.run (bootstraps env hdr)
  · refine iff_of_true (fun s hs => ?_) (Or.inl hcrash)
    rw [hnone] at hs
    cases hs
  · rw [hsome, List.nil_append] at *
    constructor
    · intro h
      exact Or.inr (h s' rfl).closed
    · rintro h s hs
      cases hs
      exact hchain.right (h.resolve_left hcrash)

end

/-- 三つとも署名を持つ例。 -/
def signedEnv : BootEnv where
  imagePaddr := 0x10000000
  startupSize := 0x10000
  bootstrapBit := 0x80000000
  slots := 8
  rifsEnable := false
  load := fun k => { entry := some (0x8000 + k), saved := true, moveTo := k, signature := true, nextEntry := 0 }

/-- 二番目だけが署名を持たない例。 -/
def gapEnv : BootEnv :=
  { signedEnv with load := fun k => { entry := some (0x8000 + k), saved := true, moveTo := k, signature := k ≠ 1, nextEntry := 0 } }

/-- 三つの実行形式のあるイメージ。 -/
def threeBootstraps : ImageHeader where
  inoBits := true
  bootIno := []
  dirs := [⟨0x80000001, 0⟩, ⟨0x80000002, 0x1000⟩, ⟨0x80000003, 0x2000⟩]

theorem load_bootstraps_right_sample :
    (∀ s, loadBootstraps signedEnv threeBootstraps 0 (fun _ _ => ⟨0, 0⟩) = some s →
        ChainRight signedEnv (bootstraps signedEnv threeBootstraps) s) ↔
      BootCrashes signedEnv (bootstraps signedEnv threeBootstraps).length ∨
        ChainClosed signedEnv (bootstraps signedEnv threeBootstraps).length :=
  load_bootstraps_right_iff rfl 0 _

/-- 署名のあるもの、ないもの、あるものの順では止まらず、初めの `next_entry` に三番目の入口が入る。 -/
theorem load_bootstraps_not_right :
    ¬ ∀ (env : BootEnv) (hdr : ImageHeader) (sysPrivate : Nat) (boot : Nat → Nat → BootPgm) (s : BootState), hdr.inoBits = true →
      loadBootstraps env hdr sysPrivate boot = some s → ChainRight env (bootstraps env hdr) s := by
  intro h
  cases hrun : loadBootstraps gapEnv threeBootstraps 0 fun _ _ => ⟨0, 0⟩ with
  | none =>
      have hsome : (loadBootstraps gapEnv threeBootstraps 0 fun _ _ => ⟨0, 0⟩).isSome = true := by decide
      rw [hrun] at hsome
      cases hsome
  | some s =>
      have hclosed := (h _ _ _ _ s rfl hrun).closed
      have hlen : (bootstraps gapEnv threeBootstraps).length = 3 := by decide
      have hsig := hclosed 0 1 (by decide) (by rw [hlen]; decide) rfl
      exact absurd hsig (by decide)

end Imx6Bsp.Startup
