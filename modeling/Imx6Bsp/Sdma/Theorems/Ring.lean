import Imx6Bsp.Sdma.Descriptor

/-!
# 記述子の列は、断片の列を表す

記述子の語は、上位の旗と下位 16 ビットの長さに分かれる（`word`）。転送の設定は、使う記述子のほかを変えない。
-/

namespace Imx6Bsp.Sdma.Ring

/-! ## 記述子の語 -/

/-- `DONE` を立てた語の、長さを除いた部分。 -/
def word (s : Nat) (wrap cont int : Bool) : Nat :=
  extMask ||| doneMask ||| cmdXferSize s ||| (if wrap then wrapMask else 0) ||| (if cont then contMask else 0) |||
    if int then intMask else 0

section
variable {s len : Nat} {wrap cont int : Bool}

theorem cmdXferSize_cases (s : Nat) : (s = 8 ∧ cmdXferSize s = 0x1000000) ∨ (s = 16 ∧ cmdXferSize s = 0x2000000) ∨
    (s = 24 ∧ cmdXferSize s = 0x3000000) ∨ (¬ (s = 8 ∨ s = 16 ∨ s = 24) ∧ cmdXferSize s = 0) := by
  unfold cmdXferSize
  by_cases h8 : s = 8
  · exact .inl ⟨h8, by rw [if_pos h8]; rfl⟩
  · by_cases h16 : s = 16
    · exact .inr (.inl ⟨h16, by rw [if_neg h8, if_pos h16]; rfl⟩)
    · by_cases h24 : s = 24
      · exact .inr (.inr (.inl ⟨h24, by rw [if_neg h8, if_neg h16, if_pos h24]; rfl⟩))
      · exact .inr (.inr (.inr ⟨by omega, by rw [if_neg h8, if_neg h16, if_neg h24]; rfl⟩))

/-- 旗だけの語を読む。 -/
theorem word_fields (s : Nat) (wrap cont int : Bool) :
    word s wrap cont int &&& countMask = 0 ∧
      readSize (word s wrap cont int) = (if s = 8 ∨ s = 16 ∨ s = 24 then s else 32) ∧
      word s wrap cont int &&& doneMask ≠ 0 ∧ (word s wrap cont int &&& wrapMask ≠ 0 ↔ wrap) ∧
      (word s wrap cont int &&& contMask ≠ 0 ↔ cont) ∧ (word s wrap cont int &&& intMask ≠ 0 ↔ int) := by
  unfold word
  rcases cmdXferSize_cases s with ⟨hs, h⟩ | ⟨hs, h⟩ | ⟨hs, h⟩ | ⟨hs, h⟩ <;> rw [h]
  · subst hs; revert wrap cont int; decide
  · subst hs; revert wrap cont int; decide
  · subst hs; revert wrap cont int; decide
  · rw [if_neg hs]; revert wrap cont int; decide

theorem or_and_two_pow {f k : Nat} (hlen : len < 2 ^ 16) (hk : 16 ≤ k) : (f ||| len) &&& 2 ^ k = f &&& 2 ^ k := by
  rw [Nat.and_or_distrib_right, Nat.and_two_pow len k,
    Nat.testBit_lt_two_pow (Nat.lt_of_lt_of_le hlen (Nat.pow_le_pow_right (by decide) hk)), Bool.toNat_false, Nat.zero_mul,
    Nat.or_zero]

theorem or_and_count {f : Nat} (hlen : len < 2 ^ 16) (hf : f &&& countMask = 0) : (f ||| len) &&& countMask = len := by
  rw [Nat.and_or_distrib_right, hf, Nat.zero_or, show countMask = 2 ^ 16 - 1 from rfl, Nat.and_two_pow_sub_one_eq_mod,
    Nat.mod_eq_of_lt hlen]

theorem readSize_or {f : Nat} (hlen : len < 2 ^ 16) : readSize (f ||| len) = readSize f := by
  unfold readSize
  rw [Nat.shiftRight_or_distrib, Nat.shiftRight_eq_div_pow len, Nat.div_eq_of_lt (Nat.lt_of_lt_of_le hlen (by decide)),
    Nat.or_zero]

/-- 記述子を読んだ内容。 -/
theorem decode_word (hlen : len < 2 ^ 16) (chType a e : Nat) :
    (Bd.mk (word s wrap cont int ||| len) a e).decode chType =
      { addr := a, ext := if deviceToMemory chType ∨ memoryToDevice chType then none else some e, len,
        unitSize := if s = 8 ∨ s = 16 ∨ s = 24 then s else 32, done := true, wrap, cont, int } := by
  obtain ⟨hc, hs, hd, hw, hco, hi⟩ := word_fields s wrap cont int
  have h16 := or_and_two_pow (f := word s wrap cont int) hlen (k := 16) (by decide)
  have h17 := or_and_two_pow (f := word s wrap cont int) hlen (k := 17) (by decide)
  have h18 := or_and_two_pow (f := word s wrap cont int) hlen (k := 18) (by decide)
  have h19 := or_and_two_pow (f := word s wrap cont int) hlen (k := 19) (by decide)
  rw [show (2 ^ 16 : Nat) = doneMask from rfl] at h16
  rw [show (2 ^ 17 : Nat) = wrapMask from rfl] at h17
  rw [show (2 ^ 18 : Nat) = contMask from rfl] at h18
  rw [show (2 ^ 19 : Nat) = intMask from rfl] at h19
  simp only [Bd.decode, or_and_count hlen hc, readSize_or hlen, h16, h17, h18, h19, hs, hd, hw, hco, hi, ne_eq,
    not_false_eq_true, decide_true, Bool.decide_eq_true]

end

section
variable (c : Chan) (t : Transfer) (len : Nat)

theorem cmdAndStatus_word : c.cmdAndStatus t ||| len ||| doneMask =
    word t.xferUnitSize false true (c.attachFlags &&& attachEventPerSegment ≠ 0) ||| len := by
  unfold Chan.cmdAndStatus word
  generalize extMask = e, doneMask = d, contMask = co, intMask = im, cmdXferSize t.xferUnitSize = x,
    c.attachFlags &&& attachEventPerSegment = a
  by_cases ha : a = 0
  · simp only [ha, ne_eq, not_true_eq_false, decide_false, Bool.false_eq_true, if_false, if_true, Nat.or_zero]
    ac_rfl
  · simp only [ha, ne_eq, not_false_eq_true, decide_true, Bool.false_eq_true, if_false, if_true, Nat.or_zero]
    ac_rfl

theorem lastStatus_word : c.lastStatus t len ||| doneMask =
    word t.xferUnitSize true (c.contDescrLoop ≠ 0)
      (c.attachFlags &&& attachEventOnComplete ≠ 0 ∨ c.attachFlags &&& attachEventPerSegment ≠ 0) ||| len := by
  unfold Chan.lastStatus word
  generalize extMask = e, doneMask = d, wrapMask = w, contMask = co, intMask = im, cmdXferSize t.xferUnitSize = x,
    c.attachFlags &&& attachEventPerSegment = a, c.attachFlags &&& attachEventOnComplete = b, c.contDescrLoop = l
  by_cases hab : b ≠ 0 ∨ a ≠ 0 <;> by_cases hl : l = 0
  all_goals
    simp only [hab, hl, ne_eq, not_true_eq_false, not_false_eq_true, decide_true, decide_false, Bool.false_eq_true, if_false,
      if_true, Nat.or_zero]
    ac_rfl

end

/-! ## 転送の設定 -/

section
variable {cmd k n : Nat} {addrs : Nat → DmaAddr} {ext : Option (Nat → DmaAddr)} {bd : Nat → Bd}

/-- 書いた記述子の外部の番地。 -/
def extAddr (ext : Option (Nat → DmaAddr)) (bd : Nat → Bd) (i : Nat) : Nat :=
  match ext with
  | some addrs => paddr32 (addrs i).paddr
  | none => (bd i).extBufPaddr

theorem writeBd_self (i : Nat) (a : Int) : writeBd bd i cmd a ext i = ⟨cmd ||| doneMask, paddr32 a, extAddr ext bd i⟩ :=
  Function.update_self _ _ _

theorem writeBd_of_ne {i j : Nat} (a : Int) (h : j ≠ i) : writeBd bd i cmd a ext j = bd j := Function.update_of_ne h _ _

theorem extAddr_congr {bd' : Nat → Bd} {i : Nat} (h : bd' i = bd i) : extAddr ext bd' i = extAddr ext bd i := by
  unfold extAddr
  rw [h]

theorem fillLoop_of_le {i : Nat} (h : k ≤ i) : fillLoop cmd addrs ext k bd i = bd i := by
  induction k with
  | zero => rfl
  | succ k ih =>
      rw [fillLoop, writeBd_of_ne _ (by omega)]
      exact ih (by omega)

theorem fillLoop_of_lt {i : Nat} (h : i < k) :
    fillLoop cmd addrs ext k bd i = ⟨cmd ||| (addrs i).len ||| doneMask, paddr32 (addrs i).paddr, extAddr ext bd i⟩ := by
  induction k with
  | zero => exact absurd h (Nat.not_lt_zero i)
  | succ k ih =>
      rw [fillLoop]
      rcases Nat.lt_succ_iff_lt_or_eq.mp h with hlt | rfl
      · rw [writeBd_of_ne _ (by omega)]
        exact ih hlt
      · rw [writeBd_self, extAddr_congr (fillLoop_of_le le_rfl)]

theorem pred32_eq (h1 : 1 ≤ n) (h2 : n ≤ maxDescriptors) : pred32 n = n - 1 := by
  unfold pred32 maxDescriptors at *
  omega

/-- 記述子の番号 `i` の語。 -/
def statusAt (c : Chan) (t : Transfer) (n i : Nat) : Nat :=
  if i + 1 = n then
    word t.xferUnitSize true (c.contDescrLoop ≠ 0)
      (c.attachFlags &&& attachEventOnComplete ≠ 0 ∨ c.attachFlags &&& attachEventPerSegment ≠ 0)
  else word t.xferUnitSize false true (c.attachFlags &&& attachEventPerSegment ≠ 0)

theorem fill_bd {c : Chan} {t : Transfer} (h1 : 1 ≤ n) (h2 : n ≤ maxDescriptors) (i : Nat) :
    (c.fill t addrs ext n).bd i = if i < n then
      ⟨statusAt c t n i ||| (addrs i).len, paddr32 (addrs i).paddr, extAddr ext c.bd i⟩ else c.bd i := by
  simp only [Chan.fill, pred32_eq h1 h2]
  rcases lt_trichotomy (i + 1) n with hlt | rfl | hgt
  · rw [writeBd_of_ne _ (by omega), fillLoop_of_lt (by omega), if_pos (by omega), statusAt, if_neg (by omega), cmdAndStatus_word]
  · rw [Nat.add_sub_cancel, writeBd_self, extAddr_congr (fillLoop_of_le le_rfl), if_pos (by omega), statusAt, if_pos rfl,
      lastStatus_word]
  · rw [writeBd_of_ne _ (by omega), fillLoop_of_le (by omega), if_neg (by omega)]

end

/-- 転送の設定は、型に応じた断片の列での `fill` である。 -/
theorem sdmaSetupXfer_eq (c : Chan) (t : Transfer) : sdmaSetupXfer c t = c.fill t (c.addrs t)
    (if deviceToMemory c.chType ∨ memoryToDevice c.chType then none else some t.dstAddrs) (c.fragments t) := by
  unfold sdmaSetupXfer Chan.addrs Chan.fragments
  by_cases hd : deviceToMemory c.chType
  · simp only [hd, if_true, true_or]
  · by_cases hm : memoryToDevice c.chType
    · simp only [hd, hm, if_true, if_false, or_true]
    · simp only [hd, hm, if_false, or_false]

section
variable {c : Chan} {t : Transfer}

/-- 設定した記述子を読むと、約束の断片になる。 -/
theorem setup_decode (h1 : 1 ≤ c.fragments t) (h2 : c.fragments t ≤ maxDescriptors) {i : Nat} (hi : i < c.fragments t)
    (hlen : (c.addrs t i).len ≤ 0xfffc) : ((sdmaSetupXfer c t).bd i).decode c.chType = c.wanted t i := by
  rw [sdmaSetupXfer_eq, fill_bd h1 h2, if_pos hi]
  have hlt : (c.addrs t i).len < 2 ^ 16 := by omega
  unfold statusAt Chan.wanted
  by_cases hlast : i + 1 = c.fragments t
  · rw [if_pos hlast, decode_word hlt]
    congr 1
    · split_ifs <;> rfl
    · simp [hlast]
    · simp [hlast]
    · simp [hlast, or_comm]
  · rw [if_neg hlast, decode_word hlt]
    congr 1
    · split_ifs <;> rfl
    · simp [hlast]
    · simp [hlast]
    · simp [hlast]

theorem ringFrom_eq {w : Nat → Fragment} {n : Nat} (hw : ∀ i < n, (c.bd i).decode c.chType = w i)
    (hwrap : ∀ i < n, (w i).wrap = decide (i + 1 = n)) {fuel i : Nat} (hi : i < n) (hfuel : n - i ≤ fuel) :
    c.ringFrom fuel i = (List.range' i (n - i)).map w := by
  induction fuel generalizing i with
  | zero => omega
  | succ fuel ih =>
      rw [Chan.ringFrom, hw i hi]
      have hsplit : n - i = (n - (i + 1)) + 1 := by omega
      rw [hsplit, List.range'_succ, List.map_cons]
      by_cases hlast : i + 1 = n
      · simp only [hwrap i hi, hlast, decide_true, if_true, Nat.sub_self, List.range'_zero, List.map_nil]
      · simp only [hwrap i hi, hlast, decide_false, Bool.false_eq_true, if_false]
        rw [ih (by omega) (by omega)]

end

/-! ## `DONE` を立て直す callback -/

theorem reenableLoop_apply (k : Nat) (bd : Nat → Bd) (i : Nat) : reenableLoop k bd i =
    if i < k then { bd i with cmdAndStatus := (bd i).cmdAndStatus ||| doneMask } else bd i := by
  induction k with
  | zero => exact (if_neg (Nat.not_lt_zero i)).symm
  | succ k ih =>
      rw [reenableLoop]
      rcases lt_trichotomy i k with hlt | rfl | hgt
      · rw [Function.update_of_ne (by omega), ih, if_pos hlt, if_pos (by omega)]
      · rw [Function.update_self, ih, if_neg (lt_irrefl i), if_pos (Nat.lt_succ_self i)]
      · rw [Function.update_of_ne (by omega), ih, if_neg (by omega), if_neg (by omega)]

/-- 消した旗を立て直す。 -/
theorem or_of_cleared (x m : Nat) : (x ^^^ (x &&& m)) ||| m = x ||| m := by
  refine Nat.eq_of_testBit_eq fun i => ?_
  rw [Nat.testBit_or, Nat.testBit_xor, Nat.testBit_and, Nat.testBit_or]
  cases x.testBit i <;> cases m.testBit i <;> rfl

theorem word_or_done (s len : Nat) (wrap cont int : Bool) :
    word s wrap cont int ||| len ||| doneMask = word s wrap cont int ||| len := by
  unfold word
  generalize extMask = e, doneMask = d, cmdXferSize s = x, (if wrap then wrapMask else 0) = w, (if cont then contMask else 0) = co,
    (if int then intMask else 0) = im
  calc e ||| d ||| x ||| w ||| co ||| im ||| len ||| d = e ||| (d ||| d) ||| x ||| w ||| co ||| im ||| len := by ac_rfl
    _ = e ||| d ||| x ||| w ||| co ||| im ||| len := by rw [Nat.or_self]

section
variable {c : Chan} {t : Transfer}

theorem setup_or_done (h1 : 1 ≤ c.fragments t) (h2 : c.fragments t ≤ maxDescriptors) {i : Nat} (hi : i < c.fragments t) :
    ((sdmaSetupXfer c t).bd i).cmdAndStatus ||| doneMask = ((sdmaSetupXfer c t).bd i).cmdAndStatus := by
  rw [sdmaSetupXfer_eq, fill_bd h1 h2, if_pos hi]
  change statusAt c t (c.fragments t) i ||| (c.addrs t i).len ||| doneMask = _
  unfold statusAt
  by_cases hlast : i + 1 = c.fragments t
  · rw [if_pos hlast]
    exact word_or_done _ _ _ _ _
  · rw [if_neg hlast]
    exact word_or_done _ _ _ _ _

/-- 先頭の `nFrags` 個に `DONE` があれば、callback は engine が消した `DONE` を元に戻す。 -/
theorem reenable_cleared (hdone : ∀ i < c.nFrags, (c.bd i).cmdAndStatus ||| doneMask = (c.bd i).cmdAndStatus) {s : Nat → Bool}
    (hs : ∀ i, s i = true → i < c.nFrags) : callbackReenableDescr (c.clearDone s) = c := by
  have hbd : (callbackReenableDescr (c.clearDone s)).bd = c.bd := by
    funext i
    change reenableLoop c.nFrags (c.clearDone s).bd i = c.bd i
    rw [reenableLoop_apply]
    by_cases hi : i < c.nFrags
    · rw [if_pos hi]
      cases hsi : s i with
      | true => simp only [Chan.clearDone, hsi, if_true, or_of_cleared, hdone i hi]
      | false => simp only [Chan.clearDone, hsi, Bool.false_eq_true, if_false, hdone i hi]
    · have hno : s i = false := Bool.eq_false_iff.mpr fun h => hi (hs i h)
      simp only [if_neg hi, Chan.clearDone, hno, Bool.false_eq_true, if_false]
  calc callbackReenableDescr (c.clearDone s) = { c with bd := (callbackReenableDescr (c.clearDone s)).bd } := rfl
    _ = c := by rw [hbd]

end

theorem paddr32_of_le {a : Int} (h0 : 0 ≤ a) (h1 : a ≤ memUpperLimit) : (paddr32 a : Int) = a := by
  unfold paddr32 memUpperLimit at *
  omega

/-- `sdma_setup_xfer()` の後、engine が読む列は約束の断片の列であり、後ろの記述子は前のままである。engine が `DONE` を消した
後の callback は、設定した直後の状態に戻す。 -/
theorem sdma_setup_ring (c : Chan) (t : Transfer) (h1 : 1 ≤ c.fragments t) (h2 : c.fragments t ≤ maxDescriptors)
    (hlen : ∀ i < c.fragments t, (c.addrs t i).len ≤ 0xfffc) :
    (sdmaSetupXfer c t).ring = (List.range (c.fragments t)).map (c.wanted t) ∧
      (∀ a : Int, 0 ≤ a → a ≤ memUpperLimit → (paddr32 a : Int) = a) ∧
      (∀ i, c.fragments t ≤ i → (sdmaSetupXfer c t).bd i = c.bd i) ∧
      ∀ s : Nat → Bool, (∀ i, s i = true → i < c.fragments t) →
        callbackReenableDescr ((sdmaSetupXfer c t).clearDone s) = sdmaSetupXfer c t := by
  have hn : (sdmaSetupXfer c t).nFrags = c.fragments t := by rw [sdmaSetupXfer_eq]; rfl
  refine ⟨?_, fun a => paddr32_of_le, fun i hi => ?_, fun s hs => ?_⟩
  · have htype : (sdmaSetupXfer c t).chType = c.chType := by rw [sdmaSetupXfer_eq]; rfl
    rw [List.range_eq_range']
    refine ringFrom_eq (w := c.wanted t) (fun i hi => ?_) (fun i _ => rfl) h1 h2
    rw [htype]
    exact setup_decode h1 h2 hi (hlen i hi)
  · rw [sdmaSetupXfer_eq, fill_bd h1 h2, if_neg (Nat.not_lt.mpr hi)]
  · rw [← hn] at hs
    exact reenable_cleared (fun i hi => setup_or_done h1 h2 (hn ▸ hi)) hs

/-! ## 短い列と、4 GiB より上の番地 -/

/-- 新しい channel。 -/
def freshChan : Chan := { chType := chtypeMcu2Shp, attachFlags := attachEventOnComplete, contDescrLoop := 0, bd := fun _ => ⟨0, 0, 0⟩, nFrags := 0 }

/-- 番地 `a` から、16 バイトの断片を `n` 個送る。 -/
def sendFrom (a : Int) (n : Nat) : Transfer where
  srcAddrs := fun i => ⟨a + 16 * i, 16⟩
  dstAddrs := fun _ => ⟨0, 0⟩
  srcFragments := n
  dstFragments := 0
  xferUnitSize := 8

theorem sdma_setup_ring_pair : (sdmaSetupXfer freshChan (sendFrom 0x10000000 2)).ring =
    [⟨0x10000000, none, 16, 8, true, false, true, false⟩, ⟨0x10000010, none, 16, 8, true, true, false, true⟩] :=
  (sdma_setup_ring freshChan (sendFrom 0x10000000 2) (by decide) (by decide) (fun _ _ => show 16 ≤ 0xfffc by decide)).1.trans
    (by decide)

/-- 記述子の番地が、断片の番地そのものである。 -/
def ExactAddrs (c : Chan) (t : Transfer) : Prop :=
  ∀ i < c.fragments t, (((sdmaSetupXfer c t).bd i).bufPaddr : Int) = (c.addrs t i).paddr

/-- 初めの `n` 個の記述子だけに `DONE` がある。 -/
def DoneExactly (c : Chan) (n : Nat) : Prop := ∀ i < maxDescriptors, ((c.bd i).decode c.chType).done = true ↔ i < n

/-- 4 GiB から上の番地は切り詰められ、短い列の後ろには前の `DONE` が残る。 -/
theorem sdma_setup_ring_stale : ¬ ExactAddrs freshChan (sendFrom 0x100000000 1) ∧
    ¬ DoneExactly (sdmaSetupXfer (sdmaSetupXfer freshChan (sendFrom 0x10000000 2)) (sendFrom 0x10000000 1)) 1 := by
  constructor
  · intro h
    exact absurd (h 0 (by decide)) (by decide)
  · intro h
    exact absurd ((h 1 (by decide)).mp (by decide)) (by decide)

end Imx6Bsp.Sdma.Ring
