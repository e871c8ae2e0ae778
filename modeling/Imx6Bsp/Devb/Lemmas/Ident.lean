import Imx6Bsp.Devb.Ident

/-!
# 識別の補題

並んだ二つの識別が同じ出来事で同じだけ進むことと、容量のビットが変わる段を示す。
-/

namespace Imx6Bsp.Devb

open Imx6Bsp.Lib

/-! ## 並んで進む二つの識別 -/

/-- 段の順。 -/
def Stage.rank : Stage → Nat
  | .start => 0
  | .goIdle => 1
  | .cardVersion => 2
  | .sdPowerup => 3
  | .mmcPowerup => 3
  | .allSendCid => 4
  | .setAddress => 5
  | .sendCid => 6
  | .sendCsd => 7
  | _ => 8

/-- 順が `n` の段での一致。途中で書き直される欄は、その段を過ぎてから一致する。 -/
structure Ident.AgreeAt (n : Nat) (a b : Ident) : Prop where
  count : a.count = b.count
  hs : a.hs = b.hs
  hc : a.hc = b.hc
  trim : a.trim = b.trim
  nluns : a.nluns = b.nluns
  blksize : a.blksize = b.blksize
  sdCid : a.sdCid = b.sdCid
  mmcCid : a.mmcCid = b.mmcCid
  sdCsd : a.sdCsd = b.sdCsd
  mmcCsd : a.mmcCsd = b.mmcCsd
  gp : ∀ i < mmcPartitionMax, i ≠ 0 → (a.partitions i).nlba = (b.partitions i).nlba
  istage : 2 ≤ n → a.istage = b.istage
  version : 3 ≤ n → a.version = b.version
  rca : 5 ≤ n → a.rca = b.rca
  rawCid : 7 ≤ n → a.rawCid = b.rawCid
  user : 8 ≤ n → (a.partitions 0).nlba = (b.partitions 0).nlba

/-- 二つの呼び出しの結果が並ぶ。 -/
structure Together (x y : Bool × Ident) : Prop where
  ok : x.1 = y.1
  ident : x.2.ident = y.2.ident
  agree : x.2.AgreeAt x.2.ident.rank y.2

section

variable {c : Conf} {a b : Ident} {e : Event} {n : Nat}

theorem Ident.AgreeAt.mono {m : Nat} (h : a.AgreeAt n b) (hm : m ≤ n) : a.AgreeAt m b :=
  { h with
    istage := fun hr => h.istage (Nat.le_trans hr hm)
    version := fun hr => h.version (Nat.le_trans hr hm)
    rca := fun hr => h.rca (Nat.le_trans hr hm)
    rawCid := fun hr => h.rawCid (Nat.le_trans hr hm)
    user := fun hr => h.user (Nat.le_trans hr hm) }

theorem Ident.AgreeAt.sendcmd {s : Stage} {opcode argument argument' : Nat} (h : a.AgreeAt s.rank b) (ha : a.ident = s) (hb : b.ident = s) :
    Together (a.sendcmd e opcode argument) (b.sendcmd e opcode argument') := by
  subst ha
  exact ⟨rfl, hb.symm, { h with }⟩

/-- 分かれ目の条件が同じなら、枝ごとに並べばよい。 -/
theorem Together.ite {P Q : Prop} [Decidable P] [Decidable Q] {x x' y y' : Bool × Ident} (hPQ : P ↔ Q) (h₁ : P → Together x y)
    (h₂ : ¬P → Together x' y') : Together (if P then x else x') (if Q then y else y') := by
  by_cases hP : P
  · rw [if_pos hP, if_pos (hPQ.mp hP)]
    exact h₁ hP
  · rw [if_neg hP, if_neg (fun hQ => hP (hPQ.mpr hQ))]
    exact h₂ hP

theorem Ident.AgreeAt.fail {s : Stage} {r : Bool} (h : a.AgreeAt s.rank b) (ha : a.ident = s) (hb : b.ident = s) : Together (r, a) (r, b) := by
  subst ha
  exact ⟨rfl, hb.symm, h⟩

/-! ## 電源 -/

theorem Ident.AgreeAt.clearOld (h : a.AgreeAt n b) : a.clearOld.AgreeAt n b.clearOld := by
  unfold Ident.clearOld
  by_cases hz : b.count = 0
  · rw [if_pos (h.count.trans hz), if_pos hz]
    exact { h with hs := rfl, hc := rfl, sdCid := rfl, mmcCid := rfl, sdCsd := rfl, mmcCsd := rfl }
  · rw [if_neg (fun hc => hz (h.count.symm.trans hc)), if_neg hz]
    exact h

theorem Ident.clearOld_ident (a : Ident) : a.clearOld.ident = a.ident := by
  unfold Ident.clearOld
  split <;> rfl

theorem Ident.AgreeAt.powerCycle (h : a.AgreeAt 0 b) (ha : a.ident = .start) (hb : b.ident = .start) :
    Together (a.powerCycle c e) (b.powerCycle c e) := by
  have hcount := congrArg (· + 1) h.count
  refine .ite Iff.rfl (fun _ => h.fail (s := .start) ha hb) fun _ => .ite Iff.rfl (fun _ => h.fail (s := .start) ha hb) fun _ => ?_
  refine .ite (by rw [h.count]) (fun _ => ?_) fun _ => Ident.AgreeAt.sendcmd (s := .start) { h with count := hcount } ha hb
  refine Ident.AgreeAt.sendcmd (s := .goIdle) { h with count := rfl, istage := ?_, version := ?_, rca := ?_, rawCid := ?_, user := ?_ } rfl rfl
  all_goals exact fun hr => absurd hr (by decide)

theorem Ident.AgreeAt.goIdle (h : a.AgreeAt 1 b) (ha : a.ident = .goIdle) (hb : b.ident = .goIdle) :
    Together (a.goIdle e) (b.goIdle e) := by
  refine .ite Iff.rfl (fun _ => h.fail (s := .goIdle) ha hb) fun _ => .ite Iff.rfl (fun _ => ?_) fun _ => h.fail (s := .goIdle) ha hb
  refine Ident.AgreeAt.sendcmd (s := .cardVersion)
    { h with istage := fun _ => rfl, version := ?_, rca := ?_, rawCid := ?_, user := ?_ } rfl rfl
  all_goals exact fun hr => absurd hr (by decide)

theorem Ident.AgreeAt.noteHc (h : a.AgreeAt n b) : (a.noteHc e).AgreeAt n (b.noteHc e) := by
  unfold Ident.noteHc
  split
  · exact { h with hc := rfl }
  · exact h

theorem Ident.noteHc_eq (a : Ident) : a.noteHc e = { a with hc := a.hc || e.resp.r0.getLsbD 30 } := by
  unfold Ident.noteHc
  split
  · rename_i h
    rw [h, Bool.or_true]
  · rename_i h
    rw [Bool.not_eq_true] at h
    rw [h, Bool.or_false]

theorem Ident.noteHc_ident (a : Ident) : (a.noteHc e).ident = a.ident := by rw [Ident.noteHc_eq]

theorem Ident.AgreeAt.powered {v w : Version} (h : a.AgreeAt 3 b) (hv : v = w) : Together (a.powered e v) (b.powered e w) := by
  subst hv
  refine Ident.AgreeAt.sendcmd (s := .allSendCid)
    { h with istage := fun _ => rfl, version := fun _ => rfl, rca := ?_, rawCid := ?_, user := ?_ } rfl rfl
  all_goals exact fun hr => absurd hr (by decide)

theorem Ident.AgreeAt.mmcCardPowerup (h : a.AgreeAt 3 b) (ha : a.ident = .mmcPowerup) (hb : b.ident = .mmcPowerup) :
    Together (a.mmcCardPowerup c e) (b.mmcCardPowerup c e) := by
  have hi := h.istage (by decide)
  have hnext : Ident.AgreeAt 3 { a with istage := a.istage + 1 } { b with istage := b.istage + 1 } :=
    { h with istage := fun _ => congrArg (· + 1) hi }
  have hnote := hnext.noteHc (e := e)
  refine .ite (by rw [hi]) (fun _ => h.fail (s := .mmcPowerup) ha hb) fun _ => .ite (by simp only [hi]) (fun _ => ?_) fun _ => ?_
  · refine .ite Iff.rfl (fun _ => hnext.fail (s := .mmcPowerup) ha hb) fun _ => .ite Iff.rfl (fun _ => hnote.powered rfl) fun _ => ?_
    exact hnote.sendcmd (s := .mmcPowerup) ((Ident.noteHc_ident _).trans ha) ((Ident.noteHc_ident _).trans hb)
  · exact hnext.sendcmd (s := .mmcPowerup) ha hb

theorem Ident.AgreeAt.sdStage {ocr : Nat} (h : a.AgreeAt 3 b) (ha : a.ident = .sdPowerup) (hb : b.ident = .sdPowerup) :
    Together (a.sdStage e ocr) (b.sdStage e ocr) := by
  have hi := h.istage (by decide)
  have hnote := h.noteHc (e := e)
  have hnext : ∀ x y : Ident, x.AgreeAt 3 y → Ident.AgreeAt 3 { x with istage := x.istage + 1 } { y with istage := y.istage + 1 } :=
    fun x y hxy => { hxy with istage := fun _ => congrArg (· + 1) (hxy.istage (by decide)) }
  unfold Ident.sdStage
  refine .ite (by rw [hi]) (fun _ => ?_) fun _ => .ite (by rw [hi]) (fun _ => ?_) fun _ => h.fail (s := .sdPowerup) ha hb
  · exact .ite Iff.rfl (fun _ => h.fail (s := .sdPowerup) ha hb) fun _ => (hnext a b h).sendcmd (s := .sdPowerup) ha hb
  · refine .ite Iff.rfl (fun _ => h.fail (s := .sdPowerup) ha hb) fun _ => .ite Iff.rfl (fun _ => ?_) fun _ => ?_
    · exact hnote.powered (hnote.version (by decide))
    · exact (hnext _ _ hnote).sendcmd (s := .sdPowerup) ((Ident.noteHc_ident _).trans ha) ((Ident.noteHc_ident _).trans hb)

theorem Ident.AgreeAt.sdCardPowerup (h : a.AgreeAt 3 b) (ha : a.ident = .sdPowerup) (hb : b.ident = .sdPowerup) :
    Together (a.sdCardPowerup e) (b.sdCardPowerup e) := by
  have hi := h.istage (by decide)
  have hv := h.version (by decide)
  have hskip : Ident.AgreeAt 3 (if a.istage % 3 = 0 then { a with istage := a.istage + 1 } else a)
      (if b.istage % 3 = 0 then { b with istage := b.istage + 1 } else b) := by
    by_cases hz : b.istage % 3 = 0
    · rw [if_pos (by rw [hi]; exact hz), if_pos hz]
      exact { h with istage := fun _ => congrArg (· + 1) hi }
    · rw [if_neg (by rw [hi]; exact hz), if_neg hz]
      exact h
  have hskipa : (if a.istage % 3 = 0 then { a with istage := a.istage + 1 } else a).ident = .sdPowerup := by
    split <;> exact ha
  have hskipb : (if b.istage % 3 = 0 then { b with istage := b.istage + 1 } else b).ident = .sdPowerup := by
    split <;> exact hb
  unfold Ident.sdCardPowerup
  refine .ite (by rw [hi]) (fun _ => h.fail (s := .sdPowerup) ha hb) fun _ => .ite (by rw [hi]) (fun _ => ?_) fun _ => ?_
  · exact Ident.AgreeAt.sendcmd (s := .sdPowerup) { h with istage := fun _ => rfl } ha hb
  · revert hskip hskipa hskipb
    generalize (if a.istage % 3 = 0 then { a with istage := a.istage + 1 } else a) = x
    generalize (if b.istage % 3 = 0 then { b with istage := b.istage + 1 } else b) = y
    intro hxy hx hy
    refine .ite (by rw [hxy.istage (by decide)]) (fun _ => ?_) fun _ => hxy.sdStage hx hy
    refine .ite (by rw [hxy.version (by decide)]) (fun _ => ?_) fun _ =>
      .ite Iff.rfl (fun _ => hxy.fail (s := .sdPowerup) hx hy) fun _ => hxy.sdStage hx hy
    exact Ident.AgreeAt.sendcmd (s := .mmcPowerup) { hxy with istage := fun _ => rfl } rfl rfl

theorem Ident.AgreeAt.cardVersion (h : a.AgreeAt 2 b) (ha : a.ident = .cardVersion) (hb : b.ident = .cardVersion) :
    Together (a.cardVersion e) (b.cardVersion e) := by
  have hgo : ∀ v, Ident.AgreeAt 3 { a with version := v, ident := .sdPowerup, istage := 0 }
      { b with version := v, ident := .sdPowerup, istage := 0 } := by
    intro v
    refine { h with istage := fun _ => rfl, version := fun _ => rfl, rca := ?_, rawCid := ?_, user := ?_ }
    all_goals exact fun hr => absurd hr (by decide)
  refine .ite Iff.rfl (fun _ => (hgo .sd1).sdCardPowerup rfl rfl) fun _ => ?_
  exact .ite Iff.rfl (fun _ => (hgo .sd2).sdCardPowerup rfl rfl) fun _ => h.fail (s := .cardVersion) ha hb

/-! ## 番号、CID、CSD -/

theorem Ident.AgreeAt.allSendCid (h : a.AgreeAt 4 b) (ha : a.ident = .allSendCid) (hb : b.ident = .allSendCid) :
    Together (a.allSendCid e) (b.allSendCid e) := by
  have hv := h.version (by decide)
  refine .ite Iff.rfl (fun _ => h.fail (s := .allSendCid) ha hb) fun _ => ?_
  refine Ident.AgreeAt.sendcmd (s := .setAddress) { h with istage := fun _ => h.istage (by decide), version := fun _ => h.version (by decide), rca := fun _ => by simp only [hv], rawCid := ?_, user := ?_ } rfl rfl
  all_goals exact fun hr => absurd hr (by decide)

theorem Ident.AgreeAt.setAddress (h : a.AgreeAt 5 b) (ha : a.ident = .setAddress) (hb : b.ident = .setAddress) :
    Together (a.setAddress e) (b.setAddress e) := by
  have hv := h.version (by decide)
  have hr := h.rca (by decide)
  refine .ite Iff.rfl (fun _ => h.fail (s := .setAddress) ha hb) fun _ => ?_
  refine Ident.AgreeAt.sendcmd (s := .sendCid) { h with istage := fun _ => h.istage (by decide), version := fun _ => h.version (by decide), rca := fun _ => by simp only [hv, hr], rawCid := ?_, user := ?_ } rfl rfl
  all_goals exact fun hr => absurd hr (by decide)

theorem Ident.AgreeAt.sendCid (h : a.AgreeAt 6 b) (ha : a.ident = .sendCid) (hb : b.ident = .sendCid) :
    Together (a.sendCid e) (b.sendCid e) := by
  refine .ite Iff.rfl (fun _ => h.fail (s := .sendCid) ha hb) fun _ => ?_
  refine Ident.AgreeAt.sendcmd (s := .sendCsd) { h with istage := fun _ => h.istage (by decide), version := fun _ => h.version (by decide), rca := fun _ => h.rca (by decide), rawCid := fun _ => rfl, user := ?_ } rfl rfl
  exact fun hr => absurd hr (by decide)

theorem Ident.setUser_zero (a : Ident) (n : Nat) : (a.setUser n 0).nlba = n := by simp [Ident.setUser]

theorem Ident.setUser_of_ne (a : Ident) (n : Nat) {i : Nat} (hi : i ≠ 0) : (a.setUser n i).nlba = (a.partitions i).nlba := by
  simp [Ident.setUser, Function.update_of_ne hi]

theorem Ident.AgreeAt.parseMmc (h : a.AgreeAt 7 b) (r : Resp) : (a.parseMmc r).AgreeAt 8 (b.parseMmc r) := by
  have hraw := h.rawCid (by decide)
  refine { h with istage := fun _ => h.istage (by decide), version := fun _ => h.version (by decide), rca := fun _ => h.rca (by decide), rawCid := fun _ => h.rawCid (by decide), blksize := ?_, mmcCid := ?_, mmcCsd := ?_, gp := ?_, user := ?_ }
  · simp only [Ident.parseMmc, h.mmcCsd]
  · simp only [Ident.parseMmc, h.mmcCsd, h.mmcCid, hraw]
  · simp only [Ident.parseMmc, h.mmcCsd]
  · intro i hm hi
    simp only [Ident.parseMmc, Ident.setUser_of_ne _ _ hi, h.gp i hm hi]
  · intro _
    simp only [Ident.parseMmc, Ident.setUser_zero, h.mmcCsd]

theorem Ident.AgreeAt.parseSd (h : a.AgreeAt 7 b) (r : Resp) : (a.parseSd r).AgreeAt 8 (b.parseSd r) := by
  have hraw := h.rawCid (by decide)
  refine { h with istage := fun _ => h.istage (by decide), version := fun _ => h.version (by decide), rca := fun _ => h.rca (by decide), rawCid := fun _ => h.rawCid (by decide), sdCid := ?_, sdCsd := rfl, gp := ?_, user := ?_ }
  · simp only [Ident.parseSd, hraw]
  · intro i hm hi
    simp only [Ident.parseSd, Ident.setUser_of_ne _ _ hi, h.gp i hm hi]
  · intro _
    simp only [Ident.parseSd, Ident.setUser_zero]

theorem Ident.AgreeAt.sendCsd (h : a.AgreeAt 7 b) (ha : a.ident = .sendCsd) (hb : b.ident = .sendCsd) :
    Together (a.sendCsd e) (b.sendCsd e) := by
  have hparse : Ident.AgreeAt 8 (if a.version = .mmc1 then a.parseMmc e.resp else a.parseSd e.resp)
      (if b.version = .mmc1 then b.parseMmc e.resp else b.parseSd e.resp) := by
    by_cases hv : b.version = .mmc1
    · rw [if_pos ((h.version (by decide)).trans hv), if_pos hv]
      exact h.parseMmc e.resp
    · rw [if_neg (fun hc => hv ((h.version (by decide)).symm.trans hc)), if_neg hv]
      exact h.parseSd e.resp
  refine .ite Iff.rfl (fun _ => h.fail (s := .sendCsd) ha hb) fun _ => ?_
  exact Ident.AgreeAt.sendcmd (s := .selDesCard) { hparse with } rfl rfl

/-! ## 動作の設定 -/

theorem Ident.AgreeAt.clock (h : a.AgreeAt 8 b) : Together (a.clock e) (b.clock e) :=
  Ident.AgreeAt.sendcmd (s := .final) { h with } rfl rfl

theorem Ident.AgreeAt.selDesCard (h : a.AgreeAt 8 b) (ha : a.ident = .selDesCard) (hb : b.ident = .selDesCard) :
    Together (a.selDesCard e) (b.selDesCard e) := by
  refine .ite Iff.rfl (fun _ => h.fail (s := .selDesCard) ha hb) fun _ => ?_
  exact Ident.AgreeAt.sendcmd (s := .checkSts) { h with } rfl rfl

theorem Ident.AgreeAt.statusDone (h : a.AgreeAt 8 b) (ha : a.ident = .checkSts) (hb : b.ident = .checkSts) :
    Together (a.statusDone c e) (b.statusDone c e) := by
  refine .ite Iff.rfl (fun _ => h.fail (s := .checkSts) ha hb) fun _ => .ite (by rw [h.version (by decide)]) (fun _ => ?_) fun _ => ?_
  · refine .ite (by rw [h.mmcCsd]) (fun _ => .ite Iff.rfl (fun _ => h.fail (s := .checkSts) ha hb) fun _ => ?_) fun _ => h.clock
    exact Ident.AgreeAt.sendcmd (s := .extCsd) { h with } rfl rfl
  · refine .ite Iff.rfl (fun _ => ?_) fun _ => ?_
    · exact Ident.AgreeAt.sendcmd (s := .setBwApp) { h with } rfl rfl
    · exact Ident.AgreeAt.sendcmd (s := .sendScr) { h with } rfl rfl

theorem Ident.AgreeAt.setBwApp (h : a.AgreeAt 8 b) (ha : a.ident = .setBwApp) (hb : b.ident = .setBwApp) :
    Together (a.setBwApp e) (b.setBwApp e) := by
  refine .ite Iff.rfl (fun _ => h.fail (s := .setBwApp) ha hb) fun _ => ?_
  exact Ident.AgreeAt.sendcmd (s := .setBw) { h with } rfl rfl

theorem Ident.AgreeAt.setBw (h : a.AgreeAt 8 b) (ha : a.ident = .setBw) (hb : b.ident = .setBw) :
    Together (a.setBw c e) (b.setBw c e) := by
  refine .ite Iff.rfl (fun _ => h.fail (s := .setBw) ha hb) fun _ => .ite Iff.rfl (fun _ => h.clock) fun _ => ?_
  exact Ident.AgreeAt.sendcmd (s := .sendScr) { h with } rfl rfl

theorem Ident.AgreeAt.sendScr (h : a.AgreeAt 8 b) (ha : a.ident = .sendScr) (hb : b.ident = .sendScr) :
    Together (a.sendScr e) (b.sendScr e) := by
  refine .ite Iff.rfl (fun _ => h.fail (s := .sendScr) ha hb) fun _ => .ite Iff.rfl (fun _ => h.fail (s := .sendScr) ha hb) fun _ => ?_
  exact Ident.AgreeAt.sendcmd (s := .parseScr) { h with } rfl rfl

theorem Ident.AgreeAt.parseScr (h : a.AgreeAt 8 b) (ha : a.ident = .parseScr) (hb : b.ident = .parseScr) :
    Together (a.parseScr e) (b.parseScr e) := by
  refine .ite Iff.rfl (fun _ => h.fail (s := .parseScr) ha hb) fun _ => ?_
  cases e.pio with
  | none => exact h.fail (s := .parseScr) ha hb
  | some scr =>
      refine .ite Iff.rfl (fun _ => h.clock) fun _ => .ite Iff.rfl (fun _ => h.clock) fun _ => ?_
      exact Ident.AgreeAt.sendcmd (s := .checkMode) { h with } rfl rfl

theorem Ident.AgreeAt.checkMode (h : a.AgreeAt 8 b) (ha : a.ident = .checkMode) (hb : b.ident = .checkMode) :
    Together (a.checkMode c e) (b.checkMode c e) := by
  refine .ite Iff.rfl (fun _ => h.clock) fun _ => ?_
  cases e.pio with
  | none => exact h.fail (s := .checkMode) ha hb
  | some tmp =>
      refine .ite Iff.rfl (fun _ => h.clock) fun _ => .ite (by rw [h.sdCsd]) (fun _ => h.clock) fun _ => ?_
      refine .ite Iff.rfl (fun _ => h.clock) fun _ => .ite Iff.rfl (fun _ => h.fail (s := .checkMode) ha hb) fun _ => ?_
      exact Ident.AgreeAt.sendcmd (s := .switchMode) { h with } rfl rfl

theorem Ident.AgreeAt.switchMode (h : a.AgreeAt 8 b) (ha : a.ident = .switchMode) (hb : b.ident = .switchMode) :
    Together (a.switchMode e) (b.switchMode e) := by
  refine .ite Iff.rfl (fun _ => h.fail (s := .switchMode) ha hb) fun _ => ?_
  cases e.pio with
  | none => exact h.fail (s := .switchMode) ha hb
  | some tmp =>
      dsimp only
      split
      · exact Ident.AgreeAt.clock { h with hs := rfl }
      · exact h.clock

/-! ## 拡張 CSD -/

theorem Ident.AgreeAt.widen (h : a.AgreeAt 8 b) : Together (a.widen c e) (b.widen c e) := by
  refine .ite (by rw [h.mmcCsd]) (fun _ => .ite Iff.rfl (fun _ => ?_) fun _ => ?_) fun _ => h.clock
  · exact Ident.AgreeAt.fail (s := .mmcSwitchModeBuswidth) { h with } rfl rfl
  · exact Ident.AgreeAt.sendcmd (s := .mmcSwitchModeBuswidth) { h with } rfl rfl

theorem Ident.AgreeAt.takeExtCsd (h : a.AgreeAt 8 b) (x : ExtCsd) : (a.takeExtCsd x).AgreeAt 8 (b.takeExtCsd x) := by
  refine { h with trim := ?_, mmcCsd := ?_, gp := ?_, user := ?_ }
  · simp only [Ident.takeExtCsd, h.trim]
  · simp only [Ident.takeExtCsd, h.mmcCsd]
  · intro i hm hi
    simp only [Ident.takeExtCsd, h.mmcCsd]
    split
    · rw [Ident.setUser_of_ne _ _ hi, Ident.setUser_of_ne _ _ hi, h.gp i hm hi]
    · exact h.gp i hm hi
  · intro hr
    simp only [Ident.takeExtCsd, h.mmcCsd]
    split
    · rw [Ident.setUser_zero, Ident.setUser_zero]
    · exact h.user hr

theorem Ident.AgreeAt.addGp (h : a.AgreeAt 8 b) (x : ExtCsd) (pidx : Nat) : (a.addGp x pidx).AgreeAt 8 (b.addGp x pidx) := by
  simp only [Ident.addGp, h.mmcCsd]
  split
  · refine { h with nluns := congrArg (· + 1) h.nluns, mmcCsd := rfl, gp := ?_, user := ?_ }
    · intro i hm hi
      by_cases hp : i = pidx + 1
      · subst hp
        simp only [Function.update_self]
      · simp only [Function.update_of_ne hp]
        exact h.gp i hm hi
    · intro hr
      simp only [Function.update_of_ne (Nat.succ_ne_zero pidx).symm]
      exact h.user hr
  · exact h

theorem Ident.AgreeAt.foldGp (x : ExtCsd) (l : List Nat) (h : a.AgreeAt 8 b) : (l.foldl (Ident.addGp x) a).AgreeAt 8 (l.foldl (Ident.addGp x) b) := by
  induction l generalizing a b with
  | nil => exact h
  | cons pidx l ih => exact ih (h.addGp x pidx)

theorem Ident.AgreeAt.partitionConfig (h : a.AgreeAt 8 b) (x : ExtCsd) : (a.partitionConfig x).AgreeAt 8 (b.partitionConfig x) := by
  have huser : Ident.AgreeAt 8
      { a with pactive := x.byte 179 % 8, partitions := Function.update a.partitions 0 { a.partitions 0 with config := x.byte 179 / 8 * 8 } }
      { b with pactive := x.byte 179 % 8, partitions := Function.update b.partitions 0 { b.partitions 0 with config := x.byte 179 / 8 * 8 } } := by
    refine { h with gp := ?_, user := ?_ }
    · intro i hm hi
      simp only [Function.update_of_ne hi]
      exact h.gp i hm hi
    · intro hr
      simp only [Function.update_self]
      exact h.user hr
  simp only [Ident.partitionConfig]
  split
  · exact huser.foldGp x _
  · exact huser

theorem Ident.AgreeAt.readExtCsd (h : a.AgreeAt 8 b) (ha : a.ident = .extCsd) (hb : b.ident = .extCsd) :
    Together (a.readExtCsd c e) (b.readExtCsd c e) := by
  refine .ite Iff.rfl (fun _ => h.fail (s := .extCsd) ha hb) fun _ => ?_
  cases e.pio with
  | none => exact h.fail (s := .extCsd) ha hb
  | some x =>
      have hx := (h.takeExtCsd x).partitionConfig x
      refine .ite Iff.rfl (fun _ => ?_) fun _ => hx.widen
      exact Ident.AgreeAt.sendcmd (s := .mmcSwitchModeHs) { hx with } rfl rfl

theorem Ident.AgreeAt.switchModeHs (h : a.AgreeAt 8 b) (ha : a.ident = .mmcSwitchModeHs) (hb : b.ident = .mmcSwitchModeHs) :
    Together (a.switchModeHs c e) (b.switchModeHs c e) := by
  refine .ite Iff.rfl (fun _ => h.fail (s := .mmcSwitchModeHs) ha hb) fun _ => ?_
  exact Ident.AgreeAt.widen { h with hs := rfl }

theorem Ident.AgreeAt.switchBuswidth (h : a.AgreeAt 8 b) (ha : a.ident = .mmcSwitchModeBuswidth) (hb : b.ident = .mmcSwitchModeBuswidth) :
    Together (a.switchBuswidth e) (b.switchBuswidth e) := by
  refine .ite Iff.rfl (fun _ => h.fail (s := .mmcSwitchModeBuswidth) ha hb) fun _ => .ite Iff.rfl (fun _ => ?_) fun _ => h.clock
  exact Ident.AgreeAt.fail (s := .final) { h with } rfl rfl

/-! ## 一段 -/

/-- 並んだ二つの識別は、同じ出来事で同じだけ進む。 -/
theorem Ident.AgreeAt.cardIdent (h : a.AgreeAt a.ident.rank b) (hid : a.ident = b.ident) :
    Together (a.cardIdent c e) (b.cardIdent c e) := by
  have hb : ∀ s, a.ident = s → b.ident = s := fun s hs => hid.symm.trans hs
  unfold Ident.cardIdent
  rw [← hid]
  cases hs : a.ident with
  | none =>
      rw [hs] at h
      exact h.fail (s := .none) hs (hb _ hs)
  | start =>
      rw [hs] at h
      exact h.clearOld.powerCycle ((Ident.clearOld_ident a).trans hs) ((Ident.clearOld_ident b).trans (hb _ hs))
  | goIdle =>
      rw [hs] at h
      exact h.goIdle hs (hb _ hs)
  | cardVersion =>
      rw [hs] at h
      exact h.cardVersion hs (hb _ hs)
  | sdPowerup =>
      rw [hs] at h
      exact h.sdCardPowerup hs (hb _ hs)
  | mmcPowerup =>
      rw [hs] at h
      exact h.mmcCardPowerup hs (hb _ hs)
  | allSendCid =>
      rw [hs] at h
      exact h.allSendCid hs (hb _ hs)
  | setAddress =>
      rw [hs] at h
      exact h.setAddress hs (hb _ hs)
  | sendCid =>
      rw [hs] at h
      exact h.sendCid hs (hb _ hs)
  | sendCsd =>
      rw [hs] at h
      exact h.sendCsd hs (hb _ hs)
  | sendScr =>
      rw [hs] at h
      exact h.sendScr hs (hb _ hs)
  | parseScr =>
      rw [hs] at h
      exact h.parseScr hs (hb _ hs)
  | checkMode =>
      rw [hs] at h
      exact h.checkMode hs (hb _ hs)
  | switchMode =>
      rw [hs] at h
      exact h.switchMode hs (hb _ hs)
  | selDesCard =>
      rw [hs] at h
      exact h.selDesCard hs (hb _ hs)
  | checkSts =>
      rw [hs] at h
      exact h.statusDone hs (hb _ hs)
  | setBwApp =>
      rw [hs] at h
      exact h.setBwApp hs (hb _ hs)
  | setBw =>
      rw [hs] at h
      exact h.setBw hs (hb _ hs)
  | extCsd =>
      rw [hs] at h
      exact h.readExtCsd hs (hb _ hs)
  | mmcSwitchModeHs =>
      rw [hs] at h
      exact h.switchModeHs hs (hb _ hs)
  | mmcSwitchModeBuswidth =>
      rw [hs] at h
      exact h.switchBuswidth hs (hb _ hs)
  | final =>
      rw [hs] at h
      exact Ident.AgreeAt.fail (s := .none) { h with } rfl rfl

/-! ## 容量のビット -/

/-- `hc` と `ocr` が変わらない。 -/
def Ident.SameHc (a b : Ident) : Prop := b.hc = a.hc ∧ b.ocr = a.ocr

theorem Ident.sameHc_partitionConfig (a : Ident) (x : ExtCsd) : a.SameHc (a.partitionConfig x) := by
  have hfold : ∀ (l : List Nat) (d : Ident), d.SameHc (l.foldl (Ident.addGp x) d) := by
    intro l
    induction l with
    | nil => exact fun _ => ⟨rfl, rfl⟩
    | cons pidx l ih =>
        intro d
        have hadd : d.SameHc (d.addGp x pidx) := by
          unfold Ident.addGp
          split <;> exact ⟨rfl, rfl⟩
        exact ⟨(ih _).1.trans hadd.1, (ih _).2.trans hadd.2⟩
  unfold Ident.partitionConfig
  dsimp only
  split
  · exact hfold _ _
  · exact ⟨rfl, rfl⟩

theorem Ident.sameHc_widen (a : Ident) : a.SameHc (a.widen c e).2 := by
  unfold Ident.widen Ident.configBuswidth Ident.clock Ident.sendcmd
  dsimp only
  split_ifs <;> exact ⟨rfl, rfl⟩

theorem Ident.noteHc_hc (a : Ident) : (a.noteHc e).hc = (a.hc || e.resp.r0.getLsbD 30) := by rw [Ident.noteHc_eq]

/-- 電源が入ったと答えた段では応答のビットが加わり、その後の段では変わらない。 -/
def Ident.HcStep (d : Ident) (e : Event) (r : Ident) : Prop :=
  r.ident.rank ≤ 3 ∨ (d.ReportsPower e ∧ r.hc = (d.hc || e.resp.r0.getLsbD 30) ∧ r.ocr = e.resp.r0) ∨ (4 ≤ d.ident.rank ∧ d.SameHc r)

theorem Ident.HcStep.ite {P : Prop} [Decidable P] {x y : Bool × Ident} (h₁ : P → a.HcStep e x.2) (h₂ : ¬P → a.HcStep e y.2) :
    a.HcStep e (if P then x else y).2 := by
  split
  · exact h₁ ‹_›
  · exact h₂ ‹_›

theorem Ident.sdStage_hc {ocr : Nat} (hs : a.ident = .sdPowerup) : a.HcStep e (a.sdStage e ocr).2 := by
  have hrank : a.ident.rank ≤ 3 := by rw [hs]; decide
  have hnote : (a.noteHc e).ident.rank ≤ 3 := by rw [Ident.noteHc_ident]; exact hrank
  refine .ite (fun _ => .ite (fun _ => .inl hrank) fun _ => .inl hrank) fun _ => .ite (fun h₂ => ?_) fun _ => .inl hrank
  refine .ite (fun _ => .inl hrank) fun _ => .ite (fun h₃ => ?_) fun _ => .inl hnote
  exact .inr (.inl ⟨⟨.inl ⟨hs, h₂⟩, h₃⟩, Ident.noteHc_hc a, rfl⟩)

theorem Ident.sdCardPowerup_hc (hs : a.ident = .sdPowerup) : a.HcStep e (a.sdCardPowerup e).2 := by
  have hrank : a.ident.rank ≤ 3 := by rw [hs]; decide
  refine .ite (fun _ => .inl hrank) fun _ => .ite (fun _ => .inl hrank) fun _ => ?_
  by_cases hz : a.istage % 3 = 0
  · -- 3 の倍数の次なので、応答を読む段ではない。
    have hnext : ∀ ocr, a.HcStep e (Ident.sdStage { a with istage := a.istage + 1 } e ocr).2 := by
      intro ocr
      have h : Ident.HcStep { a with istage := a.istage + 1 } e (Ident.sdStage { a with istage := a.istage + 1 } e ocr).2 := Ident.sdStage_hc hs
      rcases h with h | ⟨⟨⟨-, h⟩ | ⟨h, -⟩, -⟩, -⟩ | ⟨h, -⟩
      · exact .inl h
      · have h : (a.istage + 1) % 3 = 2 := h
        omega
      · cases hs.symm.trans h
      · exact absurd hrank (Nat.not_le.mpr h)
    simp only [hz, if_true]
    refine .ite (fun _ => ?_) fun _ => hnext _
    exact .ite (fun _ => .inl (Nat.le_refl 3)) fun _ => .ite (fun _ => .inl hrank) fun _ => hnext _
  · simp only [hz, if_false]
    refine .ite (fun _ => ?_) fun _ => Ident.sdStage_hc hs
    exact .ite (fun _ => .inl (Nat.le_refl 3)) fun _ => .ite (fun _ => .inl hrank) fun _ => Ident.sdStage_hc hs

theorem Ident.mmcCardPowerup_hc (hs : a.ident = .mmcPowerup) : a.HcStep e (a.mmcCardPowerup c e).2 := by
  have hrank : a.ident.rank ≤ 3 := by rw [hs]; decide
  have hnote : (Ident.noteHc { a with istage := a.istage + 1 } e).ident.rank ≤ 3 := by rw [Ident.noteHc_ident]; exact hrank
  refine .ite (fun _ => .inl hrank) fun _ => .ite (fun h₁ => ?_) fun _ => .inl hrank
  refine .ite (fun _ => .inl hrank) fun _ => .ite (fun h₂ => ?_) fun _ => .inl hnote
  exact .inr (.inl ⟨⟨.inr ⟨hs, Nat.lt_of_succ_lt_succ h₁⟩, h₂⟩, Ident.noteHc_hc _, rfl⟩)

/-- 電源が入った後の段。 -/
theorem Ident.HcStep.same {r : Ident} (hr : 4 ≤ a.ident.rank) (h : a.SameHc r) : a.HcStep e r := .inr (.inr ⟨hr, h⟩)

theorem Ident.cardIdent_hc (d : Ident) : d.HcStep e (d.cardIdent c e).2 := by
  unfold Ident.cardIdent
  cases hs : d.ident with
  | none => exact .same (by rw [hs]; decide) ⟨rfl, rfl⟩
  | start =>
      have hrank : d.clearOld.ident.rank ≤ 3 := by rw [Ident.clearOld_ident, hs]; decide
      refine .ite (fun _ => .inl hrank) fun _ => .ite (fun _ => .inl hrank) fun _ => .ite (fun _ => .inl ?_) fun _ => .inl hrank
      exact (by decide : Stage.rank .goIdle ≤ 3)
  | goIdle =>
      have hrank : d.ident.rank ≤ 3 := by rw [hs]; decide
      exact .ite (fun _ => .inl hrank) fun _ => .ite (fun _ => .inl (by decide : Stage.rank .cardVersion ≤ 3)) fun _ => .inl hrank
  | cardVersion =>
      have hrank : d.ident.rank ≤ 3 := by rw [hs]; decide
      refine .ite (fun _ => .inl ?_) fun _ => .ite (fun _ => .inl ?_) fun _ => .inl hrank
      · exact (by decide : Stage.rank .sdPowerup ≤ 3)
      · exact (by decide : Stage.rank .sdPowerup ≤ 3)
  | sdPowerup => exact Ident.sdCardPowerup_hc hs
  | mmcPowerup => exact Ident.mmcCardPowerup_hc hs
  | allSendCid =>
      have hr : 4 ≤ d.ident.rank := by rw [hs]; decide
      exact .ite (fun _ => .same hr ⟨rfl, rfl⟩) fun _ => .same hr ⟨rfl, rfl⟩
  | setAddress =>
      have hr : 4 ≤ d.ident.rank := by rw [hs]; decide
      exact .ite (fun _ => .same hr ⟨rfl, rfl⟩) fun _ => .same hr ⟨rfl, rfl⟩
  | sendCid =>
      have hr : 4 ≤ d.ident.rank := by rw [hs]; decide
      exact .ite (fun _ => .same hr ⟨rfl, rfl⟩) fun _ => .same hr ⟨rfl, rfl⟩
  | selDesCard =>
      have hr : 4 ≤ d.ident.rank := by rw [hs]; decide
      exact .ite (fun _ => .same hr ⟨rfl, rfl⟩) fun _ => .same hr ⟨rfl, rfl⟩
  | setBwApp =>
      have hr : 4 ≤ d.ident.rank := by rw [hs]; decide
      exact .ite (fun _ => .same hr ⟨rfl, rfl⟩) fun _ => .same hr ⟨rfl, rfl⟩
  | sendCsd =>
      have hr : 4 ≤ d.ident.rank := by rw [hs]; decide
      refine .ite (fun _ => .same hr ⟨rfl, rfl⟩) fun _ => .same hr ?_
      dsimp only
      split <;> exact ⟨rfl, rfl⟩
  | sendScr =>
      have hr : 4 ≤ d.ident.rank := by rw [hs]; decide
      exact .ite (fun _ => .same hr ⟨rfl, rfl⟩) fun _ => .ite (fun _ => .same hr ⟨rfl, rfl⟩) fun _ => .same hr ⟨rfl, rfl⟩
  | setBw =>
      have hr : 4 ≤ d.ident.rank := by rw [hs]; decide
      exact .ite (fun _ => .same hr ⟨rfl, rfl⟩) fun _ => .ite (fun _ => .same hr ⟨rfl, rfl⟩) fun _ => .same hr ⟨rfl, rfl⟩
  | mmcSwitchModeBuswidth =>
      have hr : 4 ≤ d.ident.rank := by rw [hs]; decide
      exact .ite (fun _ => .same hr ⟨rfl, rfl⟩) fun _ => .ite (fun _ => .same hr ⟨rfl, rfl⟩) fun _ => .same hr ⟨rfl, rfl⟩
  | checkSts =>
      have hr : 4 ≤ d.ident.rank := by rw [hs]; decide
      refine .ite (fun _ => .same hr ⟨rfl, rfl⟩) fun _ => .ite (fun _ => .ite (fun _ => ?_) fun _ => .same hr ⟨rfl, rfl⟩) fun _ => ?_
      · exact .ite (fun _ => .same hr ⟨rfl, rfl⟩) fun _ => .same hr ⟨rfl, rfl⟩
      · exact .ite (fun _ => .same hr ⟨rfl, rfl⟩) fun _ => .same hr ⟨rfl, rfl⟩
  | parseScr =>
      have hr : 4 ≤ d.ident.rank := by rw [hs]; decide
      refine .ite (fun _ => .same hr ⟨rfl, rfl⟩) fun _ => ?_
      cases e.pio with
      | none => exact .same hr ⟨rfl, rfl⟩
      | some scr =>
          exact .ite (fun _ => .same hr ⟨rfl, rfl⟩) fun _ => .ite (fun _ => .same hr ⟨rfl, rfl⟩) fun _ => .same hr ⟨rfl, rfl⟩
  | checkMode =>
      have hr : 4 ≤ d.ident.rank := by rw [hs]; decide
      refine .ite (fun _ => .same hr ⟨rfl, rfl⟩) fun _ => ?_
      cases e.pio with
      | none => exact .same hr ⟨rfl, rfl⟩
      | some tmp =>
          refine .ite (fun _ => .same hr ⟨rfl, rfl⟩) fun _ => .ite (fun _ => .same hr ⟨rfl, rfl⟩) fun _ => ?_
          exact .ite (fun _ => .same hr ⟨rfl, rfl⟩) fun _ => .ite (fun _ => .same hr ⟨rfl, rfl⟩) fun _ => .same hr ⟨rfl, rfl⟩
  | switchMode =>
      have hr : 4 ≤ d.ident.rank := by rw [hs]; decide
      refine .ite (fun _ => .same hr ⟨rfl, rfl⟩) fun _ => ?_
      cases e.pio with
      | none => exact .same hr ⟨rfl, rfl⟩
      | some tmp =>
          refine .same hr ?_
          dsimp only
          split <;> exact ⟨rfl, rfl⟩
  | extCsd =>
      have hr : 4 ≤ d.ident.rank := by rw [hs]; decide
      refine .ite (fun _ => .same hr ⟨rfl, rfl⟩) fun _ => ?_
      cases e.pio with
      | none => exact .same hr ⟨rfl, rfl⟩
      | some x =>
          have hx := Ident.sameHc_partitionConfig (d.takeExtCsd x) x
          refine .ite (fun _ => .same hr hx) fun _ => .same hr ?_
          have hw := Ident.sameHc_widen (c := c) (e := e) ((d.takeExtCsd x).partitionConfig x)
          exact ⟨hw.1.trans hx.1, hw.2.trans hx.2⟩
  | mmcSwitchModeHs =>
      have hr : 4 ≤ d.ident.rank := by rw [hs]; decide
      exact .ite (fun _ => .same hr ⟨rfl, rfl⟩) fun _ => .same hr (Ident.sameHc_widen { d with hs := true })
  | final => exact .same (by rw [hs]; decide) ⟨rfl, rfl⟩

end

end Imx6Bsp.Devb
