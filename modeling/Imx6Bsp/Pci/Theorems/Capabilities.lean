import Imx6Bsp.Lib.Links
import Imx6Bsp.Pci.Config
import Imx6Bsp.Pci.Lemmas.Config

/-!
# 能力の並びの終わり

能力の並びを、番地から次の番地への関数 `capNext` に沿って辿る。`check_capabilities()` は、並びが終わるか、読めない電源管理の能力に
着くまで繰り返す。
-/

namespace Imx6Bsp.Pci

open Imx6Bsp.Lib

variable {check : PciexCheck} {stack : Mem} {sp : Space} {p q fuel : Nat} {ps : List Nat} {dev : CapRecord}

/-! ## 並び -/

/-- 次の番地のバイト。0 と `0xff` は終わりである。 -/
def capLink (b : UInt8) : Option Nat := if b = 0 ∨ b = 0xff then none else some b.toNat

def capNext (regs : Mem) (p : Nat) : Option Nat := capLink (regs (p + 1))

/-- 最初の番地。 -/
def capFirst (regs : Mem) (headerType : Nat) : Option Nat := capLink (regs (capabilitiesPointer headerType))

/-- `capLink` の番地。 -/
structure CapAddress (p : Nat) : Prop where
  pos : p ≠ 0
  lt : p < 255

theorem CapAddress.of_link {b : UInt8} (h : capLink b = some p) : CapAddress p := by
  rw [capLink] at h
  split at h
  · cases h
  · rename_i hb
    cases h
    have h0 : b.toNat ≠ 0 := fun h0 => hb (Or.inl (UInt8.toNat_inj.mp h0))
    have h1 : b.toNat ≠ 255 := fun h1 => hb (Or.inr (UInt8.toNat_inj.mp h1))
    have hlt := b.toNat_lt
    exact ⟨h0, by omega⟩

/-- `PmState` を読める番地。 -/
def PowerReadable (p : Nat) : Prop := p % 2 = 0 ∧ p + 4 < 256

instance (p : Nat) : Decidable (PowerReadable p) := inferInstanceAs (Decidable (_ ∧ _))

/-- 能力の種類。 -/
def capType (cap : UInt8) : Option Nat :=
  if cap = capPciExpress then some typePciExpress else if cap = capPcix then some typePcix else none

/-- 電源管理の能力。 -/
def isPower (regs : Mem) (p : Nat) : Bool := regs p = capPowerManagement

/-- 並びの能力の記録。どの欄も、最後の能力で決まる。 -/
def recorded (regs : Mem) (ps : List Nat) : CapRecord :=
  let powers := ps.filter (isPower regs)
  { pciType := (ps.filterMap fun p => capType (regs p)).getLast?.getD 0
    pmCap := powers.getLast?.getD 0
    pmState := (powers.getLast?.map fun p => regs.readLE (p + 4) 2).getD 0 }

/-! ## 一つの能力 -/

/-- 読める能力の記録。 -/
def CapRecord.note (regs : Mem) (dev : CapRecord) (p : Nat) : CapRecord :=
  let dev := dev.noteType (regs p)
  if regs p = capPowerManagement then { dev with pmState := regs.readLE (p + 4) 2, pmCap := p } else dev

theorem readPower_iff (hsize : sp.size = 256) (hp : p < 255) :
    (∃ pwr, readConfig16 check stack sp (p + 4) 1 = .ok pwr) ↔ PowerReadable p := by
  constructor
  · rintro ⟨pwr, h⟩
    rw [readConfig16, if_neg (by decide)] at h
    split at h
    · cases h
    · rename_i hodd
      refine ⟨by omega, ?_⟩
      by_contra hhigh
      have halign : alignDown (p + 4) = 256 := by
        unfold alignDown
        omega
      rw [readNarrow, halign] at h
      cases hgate : gate check 256 (min ((1 + 1) >>> 1) 64) with
      | error e =>
          rw [hgate] at h
          cases h
      | ok u =>
          rw [hgate, show min ((1 + 1) >>> 1) 64 = 1 from rfl] at h
          dsimp only [bind, Except.bind] at h
          rw [readLoop, Space.readCnfg, if_neg (by omega)] at h
          cases h
  · rintro ⟨heven, hlt⟩
    obtain ⟨pwr, h, -⟩ := @readConfig16_one sp check stack (p + 4) (by omega) hlt
    exact ⟨pwr, h⟩

theorem notePower_eq (h : sp.regs p = capPowerManagement → PowerReadable p) :
    notePower check stack sp p (sp.regs p) (dev.noteType (sp.regs p)) = .ok (dev.note sp.regs p) := by
  rw [notePower, CapRecord.note]
  by_cases hpow : sp.regs p = capPowerManagement
  · obtain ⟨heven, hlt⟩ := h hpow
    obtain ⟨pwr, hread, hword⟩ :=
      @readConfig16_one sp check stack (p + 4) (by omega) hlt
    rw [if_pos hpow, if_pos hpow, hread, ← hword]
    rfl
  · rw [if_neg hpow, if_neg hpow]

theorem notePower_error (hsize : sp.size = 256) (hp : p < 255) (hpow : sp.regs p = capPowerManagement) (h : ¬ PowerReadable p) :
    ∃ e, notePower check stack sp p (sp.regs p) dev = .error e := by
  rw [notePower, if_pos hpow]
  cases hread : readConfig16 check stack sp (p + 4) 1 with
  | error e => exact ⟨e, rfl⟩
  | ok pwr => exact absurd ((readPower_iff hsize hp).mp ⟨pwr, hread⟩) h

/-- 読める能力を記録して、次に進む。 -/
theorem capLoop_next (hp : CapAddress p) (h : sp.regs p = capPowerManagement → PowerReadable p) :
    capLoop check stack sp (fuel + 1) p dev =
      (capNext sp.regs p).elim (some (0, dev.note sp.regs p)) fun q => capLoop check stack sp fuel q (dev.note sp.regs p) := by
  have hlt := hp.lt
  obtain ⟨cap, hcap, hbyte⟩ := @readConfig8_one sp check stack p (by omega)
  obtain ⟨next, hnext, hbyte'⟩ := @readConfig8_one sp check stack (p + 1) (by omega)
  have hptr : ¬ (p = 0 ∨ p = 0xff) := by
    have := hp.pos
    omega
  rw [capLoop, hcap]
  dsimp only
  rw [if_neg hptr, hbyte, notePower_eq h]
  dsimp only
  rw [hnext]
  dsimp only
  rw [hbyte', capNext, capLink]
  split
  · rfl
  · rfl

/-- 読めない電源管理の能力で、失敗して終わる。 -/
theorem capLoop_stop (hsize : sp.size = 256) (hp : CapAddress p) (hpow : sp.regs p = capPowerManagement) (h : ¬ PowerReadable p) :
    capLoop check stack sp (fuel + 1) p dev = some (-1, dev.noteType (sp.regs p)) := by
  have hlt := hp.lt
  obtain ⟨cap, hcap, hbyte⟩ := @readConfig8_one sp check stack p (by omega)
  have hptr : ¬ (p = 0 ∨ p = 0xff) := by
    have := hp.pos
    omega
  obtain ⟨e, he⟩ := @notePower_error check stack sp p (dev.noteType (sp.regs p)) hsize hlt hpow h
  rw [capLoop, hcap]
  dsimp only
  rw [if_neg hptr, hbyte, he]

/-! ## 並びの全体 -/

/-- 並びの記録。 -/
def CapRecord.notes (regs : Mem) (dev : CapRecord) (ps : List Nat) : CapRecord := ps.foldl (CapRecord.note regs) dev

theorem capNext_address (regs : Mem) (p : Nat) : ∀ q, capNext regs p = some q → CapAddress q := fun _ h => .of_link h

/-- 終わりのある並びの電源管理の能力がすべて読めれば、並びの全体を記録する。 -/
theorem capLoop_ends (ha : CapAddress p) (h : Links (capNext sp.regs) (some p) ps none)
    (hread : ∀ q ∈ ps, sp.regs q = capPowerManagement → PowerReadable q) (hfuel : ps.length ≤ fuel) :
    capLoop check stack sp fuel p dev = some (0, dev.notes sp.regs ps) := by
  induction ps generalizing p fuel dev with
  | nil => exact absurd h (Option.some_ne_none p)
  | cons x ps ih =>
      obtain ⟨hx, h⟩ := h
      obtain rfl := Option.some.inj hx
      obtain ⟨n, rfl⟩ := Nat.exists_eq_add_of_le' (Nat.one_le_iff_ne_zero.mpr (Nat.ne_of_gt (Nat.zero_lt_of_lt hfuel)))
      rw [capLoop_next ha (hread p List.mem_cons_self)]
      cases hnext : capNext sp.regs p with
      | none =>
          rw [hnext] at h
          cases ps with
          | nil => rfl
          | cons y ps => exact absurd h.1.symm (Option.some_ne_none y)
      | some q =>
          rw [hnext] at h
          exact ih (capNext_address _ _ _ hnext) h (fun y hy => hread y (List.mem_cons_of_mem _ hy)) (Nat.le_of_succ_le_succ hfuel)

/-- 読めない電源管理の能力に着けば、そこまでを記録して失敗する。 -/
theorem capLoop_meets (hsize : sp.size = 256) (ha : CapAddress p) (h : Links (capNext sp.regs) (some p) ps (some q))
    (hread : ∀ x ∈ ps, sp.regs x = capPowerManagement → PowerReadable x) (hpow : sp.regs q = capPowerManagement)
    (hq : ¬ PowerReadable q) (hfuel : ps.length < fuel) :
    capLoop check stack sp fuel p dev = some (-1, (dev.notes sp.regs ps).noteType (sp.regs q)) := by
  induction ps generalizing p fuel dev with
  | nil =>
      obtain rfl := Option.some.inj h
      obtain ⟨n, rfl⟩ := Nat.exists_eq_add_of_le' (Nat.one_le_iff_ne_zero.mpr (Nat.ne_of_gt hfuel))
      exact capLoop_stop hsize ha hpow hq
  | cons x ps ih =>
      obtain ⟨hx, h⟩ := h
      obtain rfl := Option.some.inj hx
      obtain ⟨n, rfl⟩ := Nat.exists_eq_add_of_le' (Nat.one_le_iff_ne_zero.mpr (Nat.ne_of_gt (Nat.zero_lt_of_lt hfuel)))
      rw [capLoop_next ha (hread p List.mem_cons_self)]
      cases hnext : capNext sp.regs p with
      | none =>
          rw [hnext] at h
          cases ps with
          | nil => exact absurd h.symm (Option.some_ne_none q)
          | cons y ps => exact absurd h.1.symm (Option.some_ne_none y)
      | some y =>
          rw [hnext] at h
          exact ih (capNext_address _ _ _ hnext) h (fun z hz => hread z (List.mem_cons_of_mem _ hz)) (Nat.lt_of_succ_lt_succ hfuel)

/-- 終わりがなく、読めない電源管理の能力にも着かなければ、いつまでも終わらない。 -/
theorem capLoop_diverges (ha : CapAddress p) (hends : ∀ ps, ¬ Links (capNext sp.regs) (some p) ps none)
    (hread : ∀ ps q, Links (capNext sp.regs) (some p) ps (some q) → sp.regs q = capPowerManagement → PowerReadable q) :
    capLoop check stack sp fuel p dev = none := by
  induction fuel generalizing p dev with
  | zero => rfl
  | succ n ih =>
      rw [capLoop_next ha (hread [] p rfl)]
      cases hnext : capNext sp.regs p with
      | none => exact absurd ⟨rfl, hnext⟩ (hends [p])
      | some q =>
          apply ih (capNext_address _ _ _ hnext)
          · intro ps h
            exact hends (p :: ps) ⟨rfl, hnext ▸ h⟩
          · intro ps y h
            exact hread (p :: ps) y ⟨rfl, hnext ▸ h⟩

/-- `fuel` を増やしても、結果は変わらない。 -/
theorem capLoop_mono {r : Int × CapRecord} (h : capLoop check stack sp fuel p dev = some r) (k : Nat) :
    capLoop check stack sp (fuel + k) p dev = some r := by
  induction fuel generalizing p dev with
  | zero => cases h
  | succ n ih =>
      rw [capLoop] at h
      rw [Nat.succ_add, capLoop]
      cases hcap : readConfig8 check stack sp p 1 with
      | error e =>
          rw [hcap] at h
          exact h
      | ok cap =>
          rw [hcap] at h
          dsimp only at h ⊢
          split at h
          · rename_i hptr
            rw [if_pos hptr]
            exact h
          · rename_i hptr
            rw [if_neg hptr]
            cases hpow : notePower check stack sp p (cap 0) (dev.noteType (cap 0)) with
            | error e =>
                rw [hpow] at h
                exact h
            | ok dev' =>
                rw [hpow] at h
                dsimp only at h ⊢
                cases hnext : readConfig8 check stack sp (p + 1) 1 with
                | error e =>
                    rw [hnext] at h
                    exact h
                | ok next =>
                    rw [hnext] at h
                    dsimp only at h ⊢
                    split at h
                    · rename_i hend
                      rw [if_pos hend]
                      exact h
                    · rename_i hend
                      rw [if_neg hend]
                      exact ih h

/-! ## 記録 -/

theorem noteType_eq (cap : UInt8) : dev.noteType cap = { dev with pciType := (capType cap).getD dev.pciType } := by
  rw [CapRecord.noteType, capType]
  by_cases hexp : cap = capPciExpress
  · rw [if_pos hexp, if_pos hexp, if_neg (by rw [hexp]; decide)]
    rfl
  · rw [if_neg hexp, if_neg hexp]
    by_cases hx : cap = capPcix
    · rw [if_pos hx, if_pos hx]
      rfl
    · rw [if_neg hx, if_neg hx]
      rfl

theorem recorded_concat (regs : Mem) (ps : List Nat) (p : Nat) : recorded regs (ps ++ [p]) = (recorded regs ps).note regs p := by
  have htype : ((ps ++ [p]).filterMap fun p => capType (regs p)).getLast?.getD 0
      = (capType (regs p)).getD ((ps.filterMap fun p => capType (regs p)).getLast?.getD 0) := by
    rw [List.filterMap_append, List.getLast?_append, List.filterMap_cons, List.filterMap_nil]
    cases capType (regs p) with
    | none => rfl
    | some t => rfl
  rw [recorded, htype, CapRecord.note, noteType_eq, List.filter_append]
  by_cases hpow : regs p = capPowerManagement
  · have hp : isPower regs p = true := decide_eq_true hpow
    rw [if_pos hpow, List.filter_cons_of_pos hp, List.filter_nil, List.getLast?_append]
    rfl
  · have hp : ¬ isPower regs p = true := fun h => hpow (of_decide_eq_true h)
    rw [if_neg hpow, List.filter_cons_of_neg hp, List.filter_nil, List.append_nil]
    rfl

theorem notes_eq (regs : Mem) (ps : List Nat) : ({} : CapRecord).notes regs ps = recorded regs ps := by
  induction ps using List.reverseRecOn with
  | nil => rfl
  | append_singleton ps p ih =>
      rw [CapRecord.notes, List.foldl_append, recorded_concat, ← ih]
      rfl

/-- 最後の電源管理の能力の番地を記録する。なければ 0 である。 -/
theorem recorded_pmCap (regs : Mem) (ps : List Nat) : (recorded regs ps).pmCap = 0 ∨ (recorded regs ps).pmCap ∈ ps := by
  rw [recorded]
  dsimp only
  cases hlast : (ps.filter (isPower regs)).getLast? with
  | none => exact .inl rfl
  | some p => exact .inr (List.mem_filter.mp (List.mem_of_getLast? hlast)).1

/-- 電源管理の能力の後ろの部分で決まる。 -/
theorem recorded_pmCap_append {regs : Mem} (pre post : List Nat) (hpow : regs p = capPowerManagement) :
    (recorded regs (pre ++ p :: post)).pmCap ∈ p :: post := by
  have hp : isPower regs p = true := decide_eq_true hpow
  rw [recorded]
  dsimp only
  rw [List.filter_append, List.getLast?_append, List.filter_cons_of_pos hp]
  have hne : p :: post.filter (isPower regs) ≠ [] := List.cons_ne_nil _ _
  rw [List.getLast?_eq_some_getLast hne]
  have hmem := List.getLast_mem hne
  rcases List.mem_cons.mp hmem with h | h
  · exact List.mem_cons.mpr (Or.inl h)
  · exact List.mem_cons_of_mem _ (List.mem_filter.mp h).1

/-! ## 主定理 -/

/-- `check_capabilities()` は終わる。能力の並びに終わりがあれば、そのすべてを記録する。 -/
structure WalksCapabilities (check : PciexCheck) (stack : Mem) (sp : Space) (headerType : Nat) : Prop where
  terminates : ∃ fuel r, checkCapabilities check stack sp headerType fuel {} = some r
  records : ∀ ps, Links (capNext sp.regs) (capFirst sp.regs headerType) ps none →
    ∃ fuel status, checkCapabilities check stack sp headerType fuel {} = some (status, recorded sp.regs ps)

theorem capabilitiesPointer_lt (headerType : Nat) : capabilitiesPointer headerType < 256 := by
  unfold capabilitiesPointer
  split
  · decide
  · decide

theorem checkCapabilities_start (headerType : Nat) :
    checkCapabilities check stack sp headerType (fuel + 1) dev =
      (capFirst sp.regs headerType).elim (some (0, dev)) fun p => capLoop check stack sp (fuel + 1) p dev := by
  obtain ⟨first, hfirst, hbyte⟩ :=
    @readConfig8_one sp check stack _ (capabilitiesPointer_lt headerType)
  rw [checkCapabilities, hfirst, capFirst, capLink]
  dsimp only
  rw [hbyte]
  by_cases h0 : sp.regs (capabilitiesPointer headerType) = 0
  · rw [if_pos (Or.inl h0), if_neg (not_not_intro h0)]
    rfl
  · rw [if_pos h0]
    by_cases hff : sp.regs (capabilitiesPointer headerType) = 0xff
    · obtain ⟨cap, hcap, -⟩ := @readConfig8_one sp check stack 255 (by decide)
      rw [if_pos (Or.inr hff), hff, capLoop, show (0xff : UInt8).toNat = 255 from rfl, hcap]
      rfl
    · rw [if_neg (by rintro (h | h); exacts [h0 h, hff h])]
      rfl

theorem capFirst_address (regs : Mem) (headerType : Nat) : ∀ q, capFirst regs headerType = some q → CapAddress q :=
  fun _ h => .of_link h

/-- 終わりのある並びのうち、電源管理の能力がすべて読めるものは、そのまま記録される。 -/
theorem checkCapabilities_ends {headerType : Nat} (h : Links (capNext sp.regs) (capFirst sp.regs headerType) ps none)
    (hread : ∀ q ∈ ps, sp.regs q = capPowerManagement → PowerReadable q) :
    checkCapabilities check stack sp headerType (ps.length + 1) {} = some (0, recorded sp.regs ps) := by
  rw [checkCapabilities_start]
  cases hfirst : capFirst sp.regs headerType with
  | none =>
      rw [hfirst] at h
      cases ps with
      | nil => rfl
      | cons y ps => exact absurd h.1.symm (Option.some_ne_none y)
  | some p =>
      rw [hfirst] at h
      rw [← notes_eq]
      exact capLoop_ends (capFirst_address _ _ _ hfirst) h hread (Nat.le_succ _)

/-- 最初の読めない電源管理の能力 `q` で終わる。 -/
theorem checkCapabilities_meets {headerType : Nat} (hsize : sp.size = 256)
    (h : Links (capNext sp.regs) (capFirst sp.regs headerType) ps (some q))
    (hread : ∀ x ∈ ps, sp.regs x = capPowerManagement → PowerReadable x) (hpow : sp.regs q = capPowerManagement)
    (hq : ¬ PowerReadable q) (hfuel : ps.length ≤ fuel) :
    checkCapabilities check stack sp headerType (fuel + 1) {} = some (-1, (recorded sp.regs ps).noteType (sp.regs q)) := by
  rw [checkCapabilities_start]
  cases hfirst : capFirst sp.regs headerType with
  | none =>
      rw [hfirst] at h
      cases ps with
      | nil => exact absurd h.symm (Option.some_ne_none q)
      | cons y ps => exact absurd h.1.symm (Option.some_ne_none y)
  | some p =>
      rw [hfirst] at h
      rw [← notes_eq]
      exact capLoop_meets hsize (capFirst_address _ _ _ hfirst) h hread hpow hq (Nat.lt_succ_of_le hfuel)

theorem checkCapabilities_mono {headerType : Nat} {r : Int × CapRecord}
    (h : checkCapabilities check stack sp headerType fuel dev = some r) (k : Nat) :
    checkCapabilities check stack sp headerType (fuel + k) dev = some r := by
  rw [checkCapabilities] at h ⊢
  cases hfirst : readConfig8 check stack sp (capabilitiesPointer headerType) 1 with
  | error e =>
      rw [hfirst] at h
      exact h
  | ok first =>
      rw [hfirst] at h
      dsimp only at h ⊢
      split at h
      · rename_i hne
        rw [if_pos hne]
        exact capLoop_mono h k
      · rename_i hne
        rw [if_neg hne]
        exact h

/-- 読めない電源管理の能力。 -/
def Unreadable (regs : Mem) (p : Nat) : Prop := regs p = capPowerManagement ∧ ¬ PowerReadable p

instance (regs : Mem) : DecidablePred (Unreadable regs) := fun _ => inferInstanceAs (Decidable (_ ∧ _))

/-- 並びの番地。 -/
theorem links_address {a b : Option Nat} {regs : Mem} (ha : ∀ p, a = some p → CapAddress p) (h : Links (capNext regs) a ps b) :
    ∀ x ∈ ps, CapAddress x := by
  induction ps generalizing a with
  | nil => exact fun x hx => absurd hx List.not_mem_nil
  | cons y ps ih =>
      intro x hx
      cases hx with
      | head => exact ha y h.1
      | tail _ hx => exact ih (capNext_address regs y) h.2 x hx

/-- 読めない能力の前までの記録は、並びの全体の記録と違う。 -/
theorem recorded_ne {a : Option Nat} {regs : Mem} {pre post : List Nat} (ha : ∀ p, a = some p → CapAddress p)
    (h : Links (capNext regs) a (pre ++ q :: post) none) (hpow : regs q = capPowerManagement) :
    (recorded regs pre).noteType (regs q) ≠ recorded regs (pre ++ q :: post) := by
  intro heq
  have hcap : (recorded regs pre).pmCap = (recorded regs (pre ++ q :: post)).pmCap := by
    rw [← heq, noteType_eq]
  have hpost := recorded_pmCap_append pre post hpow
  rw [← hcap] at hpost
  rcases recorded_pmCap regs pre with h0 | hpre
  · rw [h0] at hpost
    exact (links_address ha h 0 (List.mem_append_right _ hpost)).pos rfl
  · exact (List.nodup_append.mp h.nodup).2.2 _ hpre _ hpost rfl

/-- 読めない能力の前までは、どの能力も読める。 -/
theorem readable_of_clean {regs : Mem} (h : ∀ x ∈ ps, ¬ Unreadable regs x) :
    ∀ x ∈ ps, regs x = capPowerManagement → PowerReadable x := by
  intro x hx hpow
  by_contra hnot
  exact h x hx ⟨hpow, hnot⟩

/-- 終わりがなく、読めない能力にも着かない並びは、終わらない。 -/
theorem checkCapabilities_diverges {headerType : Nat} (hends : ¬ ∃ ps, Links (capNext sp.regs) (capFirst sp.regs headerType) ps none)
    (hclean : ¬ ∃ ps q, Links (capNext sp.regs) (capFirst sp.regs headerType) ps (some q) ∧ Unreadable sp.regs q) :
    checkCapabilities check stack sp headerType (fuel + 1) dev = none := by
  rw [checkCapabilities_start]
  cases hfirst : capFirst sp.regs headerType with
  | none => exact absurd ⟨[], hfirst⟩ hends
  | some p =>
      rw [hfirst] at hends hclean
      apply capLoop_diverges (capFirst_address _ _ _ hfirst)
      · exact fun ps h => hends ⟨ps, h⟩
      · intro ps q h hpow
        by_contra hnot
        exact hclean ⟨ps, q, h, hpow, hnot⟩

/-- `check_capabilities()` が終わって正しく記録するのは、能力の並びに終わりがあって電源管理の能力がどれも読めるときと、並びに終わりがなくて
読めない電源管理の能力に着くときに限る。 -/
theorem check_capabilities_iff (check : PciexCheck) (stack : Mem) (hsize : sp.size = 256) (headerType : Nat) :
    WalksCapabilities check stack sp headerType ↔
      ((∃ ps, Links (capNext sp.regs) (capFirst sp.regs headerType) ps none) ↔
        ¬ ∃ ps q, Links (capNext sp.regs) (capFirst sp.regs headerType) ps (some q) ∧ Unreadable sp.regs q) := by
  constructor
  · intro hwalk
    constructor
    · rintro ⟨ps, hps⟩ ⟨xs, q, hxs, hbad⟩
      obtain ⟨ys, y, zs, rfl, hys, hy, hclean⟩ := hps.first ⟨q, hps.mem_of_reach hxs, hbad⟩
      obtain ⟨fuel, status, hrun⟩ := hwalk.records _ hps
      have hstop := @checkCapabilities_meets check stack sp _ _ _ _ hsize hys (readable_of_clean hclean) hy.1 hy.2
        (Nat.le_add_left ys.length fuel)
      rw [Nat.add_assoc, checkCapabilities_mono hrun (ys.length + 1)] at hstop
      exact recorded_ne (capFirst_address _ _) hps hy.1 (congrArg Prod.snd (Option.some.inj hstop)).symm
    · intro hclean
      by_contra hends
      obtain ⟨fuel, r, hrun⟩ := hwalk.terminates
      have hnone := @checkCapabilities_diverges check stack sp fuel {} _ hends hclean
      rw [checkCapabilities_mono hrun 1] at hnone
      cases hnone
  · intro hiff
    by_cases hends : ∃ ps, Links (capNext sp.regs) (capFirst sp.regs headerType) ps none
    · have hreads : ∀ ps, Links (capNext sp.regs) (capFirst sp.regs headerType) ps none →
          checkCapabilities check stack sp headerType (ps.length + 1) {} = some (0, recorded sp.regs ps) := by
        intro ps hps
        apply checkCapabilities_ends hps
        apply readable_of_clean
        intro x hx hbad
        obtain ⟨ys, y, zs, rfl, hys, hy, -⟩ := hps.first ⟨x, hx, hbad⟩
        exact hiff.mp hends ⟨ys, y, hys, hy⟩
      obtain ⟨ps, hps⟩ := hends
      exact ⟨⟨_, _, hreads ps hps⟩, fun ps hps => ⟨_, _, hreads ps hps⟩⟩
    · obtain ⟨xs, q, hxs, hbad⟩ := not_not.mp fun h => hends (hiff.mpr h)
      obtain ⟨ys, y, zs, -, hys, hy, hclean⟩ := hxs.concat.first ⟨q, List.mem_append_right _ List.mem_cons_self, hbad⟩
      have hstop := @checkCapabilities_meets check stack sp _ _ _ _ hsize hys (readable_of_clean hclean) hy.1 hy.2
        (Nat.le_refl _)
      exact ⟨⟨_, _, hstop⟩, fun ps hps => absurd ⟨ps, hps⟩ hends⟩

/-- 番地 `0x40` の能力が自分を次とする設定空間。 -/
def loopSpace : Space :=
  { size := 256, size_eq := plainSize, regs := fun x => if x = 0x34 ∨ x = 0x41 then 0x40 else 0, writable := fun _ => 0 }

/-- 番地 `0x40` の電源管理の能力だけをもつ設定空間。 -/
def powerSpace : Space :=
  { size := 256, size_eq := plainSize, regs := fun x => if x = 0x34 then 0x40 else if x = 0x40 then 1 else 0, writable := fun _ => 0 }

theorem check_capabilities_iff_sample : WalksCapabilities (fun _ _ => .ok ()) (fun _ => 0) powerSpace 0 := by
  refine (check_capabilities_iff _ _ rfl 0).mpr ⟨?_, fun _ => ⟨[0x40], rfl, rfl⟩⟩
  rintro - ⟨ps, q, hps, hpow, hbad⟩
  have hmem : q ∈ [0x40] := @Links.mem_of_reach (capNext powerSpace.regs) _ _ _ _ ⟨rfl, rfl⟩ hps
  rw [List.mem_singleton.mp hmem] at hbad
  exact hbad (by decide)

/-- 巡回する並びでは終わらない。 -/
theorem check_capabilities_loops : ¬ WalksCapabilities (fun _ _ => .ok ()) (fun _ => 0) loopSpace 0 := by
  rintro ⟨⟨fuel, r, h⟩, -⟩
  have hnone : ∀ fuel dev, capLoop (fun _ _ => .ok ()) (fun _ => 0) loopSpace fuel 0x40 dev = none := by
    intro fuel
    induction fuel with
    | zero => exact fun _ => rfl
    | succ n ih => exact fun dev => (capLoop_next ⟨by decide, by decide⟩ fun h => absurd h (by decide)).trans (ih _)
  have hstart : checkCapabilities (fun _ _ => .ok ()) (fun _ => 0) loopSpace 0 (fuel + 1) {} = none :=
    (checkCapabilities_start 0).trans (hnone _ _)
  rw [checkCapabilities_mono h 1] at hstart
  cases hstart

end Imx6Bsp.Pci
