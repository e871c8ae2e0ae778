import Imx6Bsp.Spi.Devlock

/-!
# 施錠の約束

何人の依頼者がどの順に呼んでも、施錠は device ごとに高々一つで、持ち主の解錠か close でだけ消える。
driver が呼ばれるのは、chip が空いているか自分が施錠している間である。ただし `_spi_iomsg` は `SPI_DEV_ID_NONE` を
そのまま施錠の鍵にして判定し、転送の側で初めて `ocb->chip` に直すので、その chip の施錠は見ていない。
`_spi_read` と `_spi_write` は `ocb->chip` で判定する。
-/

namespace Imx6Bsp.Spi

/-! ## 施錠の一覧を変える操作の性質 -/

variable {c : DevCodes}

/-! ### 探索と解錠 -/

theorem spiIslock_some {device : BitVec 32} {lock : List SpiLock} {l : SpiLock} (h : spiIslock c device lock = some l) :
    l ∈ lock ∧ l.device = device &&& c.idMask := by
  induction lock with
  | nil => cases h
  | cons a as ih =>
      simp only [spiIslock] at h
      split at h
      · rename_i hd
        cases h
        exact ⟨.head _, by simpa using hd⟩
      · exact ⟨.tail _ (ih h).1, (ih h).2⟩

theorem spiIslock_none {device : BitVec 32} {lock : List SpiLock} (h : spiIslock c device lock = none) :
    ∀ l ∈ lock, l.device ≠ device &&& c.idMask := by
  induction lock with
  | nil => intro l hl; cases hl
  | cons a as ih =>
      simp only [spiIslock] at h
      split at h
      · cases h
      · rename_i hd
        intro l hl
        cases hl with
        | head => simpa using hd
        | tail _ hl => exact ih h l hl

/-- 解錠が成功すると、持ち主の項目がちょうど一つ抜ける。 -/
theorem unlockScan_some {device : BitVec 32} {o : Nat} {lock lock' : List SpiLock}
    (h : unlockScan c device o lock = some lock') :
    ∃ pre l post, lock = pre ++ l :: post ∧ lock' = pre ++ post ∧ l.owner = o := by
  induction lock generalizing lock' with
  | nil => cases h
  | cons a as ih =>
      simp only [unlockScan] at h
      split at h
      · rename_i hcond
        cases h
        exact ⟨[], a, as, rfl, rfl, by simpa using (Bool.and_eq_true_iff.mp hcond).2⟩
      · obtain ⟨rest, hrest, rfl⟩ := Option.map_eq_some_iff.mp h
        obtain ⟨pre, l, post, rfl, rfl, hl⟩ := ih hrest
        exact ⟨a :: pre, l, post, rfl, rfl, hl⟩

/-- `SPI_DEV_ID_NONE` はどの項目にも合うので、失敗は持ち主の項目がないことを意味する。 -/
theorem unlockScan_none {o : Nat} {lock : List SpiLock} (h : unlockScan c c.idNone o lock = none) :
    ∀ l ∈ lock, l.owner ≠ o := by
  induction lock with
  | nil => intro l hl; cases hl
  | cons a as ih =>
      simp only [unlockScan, BEq.rfl, Bool.or_true, Bool.true_and] at h
      split at h
      · cases h
      · rename_i ha
        intro l hl
        cases hl with
        | head => simpa using ha
        | tail _ hl => exact ih (Option.map_eq_none_iff.mp h) l hl

theorem spiUnlockDev_ok {device : BitVec 32} {o : Nat} {lock lock' : List SpiLock}
    (h : spiUnlockDev c device o lock = .ok lock') :
    ∃ pre l post, lock = pre ++ l :: post ∧ lock' = pre ++ post ∧ l.owner = o := by
  simp only [spiUnlockDev] at h
  split at h
  · cases h
  · split at h
    · rename_i hs
      cases h
      exact unlockScan_some hs
    · cases h

theorem spiUnlockDev_error {o : Nat} {lock : List SpiLock} {e : Errno} (h : spiUnlockDev c c.idNone o lock = .error e) :
    ∀ l ∈ lock, l.owner ≠ o := by
  simp only [spiUnlockDev, c.none_masked] at h
  split at h
  · rename_i hempty
    rw [List.isEmpty_iff] at hempty
    rw [hempty]; intro l hl; cases hl
  · split at h
    · cases h
    · rename_i hs
      exact unlockScan_none hs

/-- `_spi_close_ocb` の繰り返しは、その ocb の項目をすべて、それだけを抜く。 -/
theorem unlockAll_eq {o n : Nat} {lock : List SpiLock} (hn : lock.length ≤ n) :
    unlockAll c o n lock = lock.filter (·.owner ≠ o) := by
  induction n generalizing lock with
  | zero =>
      have : lock = [] := List.length_eq_zero_iff.mp (Nat.le_zero.mp hn)
      rw [this]; rfl
  | succ n ih =>
      simp only [unlockAll]
      cases h : spiUnlockDev c c.idNone o lock with
      | error e =>
          refine (List.filter_eq_self.mpr ?_).symm
          intro l hl
          simpa using spiUnlockDev_error h l hl
      | ok lock' =>
          obtain ⟨pre, l, post, rfl, rfl, hl⟩ := spiUnlockDev_ok h
          rw [List.length_append, List.length_cons] at hn
          simp only
          rw [ih (by rw [List.length_append]; omega)]
          simp [hl]

/-! ### 施錠の判定 -/

/-- 一覧に同じ device の項目は二つない。 -/
def Unique (lock : List SpiLock) : Prop := (lock.map SpiLock.device).Nodup

theorem Unique.owner_eq {lock : List SpiLock} (hu : Unique lock) {l l' : SpiLock} (hl : l ∈ lock) (hl' : l' ∈ lock)
    (hd : l.device = l'.device) : l = l' :=
  List.inj_on_of_nodup_map hu hl hl' hd

theorem Unique.remove {pre post : List SpiLock} {l : SpiLock} (hu : Unique (pre ++ l :: post)) : Unique (pre ++ post) := by
  refine hu.sublist (List.Sublist.map _ ?_)
  exact List.Sublist.append_left (List.sublist_cons_self l post) pre

/-- `_spi_lock_check` が `EOK` を返すときに起こること。 -/
inductive Checked (c : DevCodes) (device : BitVec 32) (o : Nat) (lock : List SpiLock) : List SpiLock → Prop
  | kept : Checked c device o lock lock
  | locked : (∀ l ∈ lock, l.device ≠ device &&& c.idMask) →
      Checked c device o lock (⟨o, device &&& c.idMask⟩ :: lock)
  | unlocked {pre l post} : hasBit device c.unlockBit = true → lock = pre ++ l :: post → l.owner = o →
      Checked c device o lock (pre ++ post)

/-- `EOK` なら、名指しされた device の項目は判定の前も後もその ocb のものである。 -/
theorem spiLockCheck_ok {callocOk : Bool} {device : BitVec 32} {o : Nat} {lock lock' : List SpiLock} (hu : Unique lock)
    (h : spiLockCheck c callocOk device o lock = .ok lock') :
    Checked c device o lock lock' ∧ ∀ l ∈ lock', l.device = device &&& c.idMask → l.owner = o := by
  simp only [spiLockCheck] at h
  cases hs : spiIslock c device lock with
  | some l =>
      rw [hs] at h
      simp only at h
      obtain ⟨hmem, hdev⟩ := spiIslock_some hs
      split_ifs at h with ho hb
      · obtain ⟨pre, l', post, rfl, rfl, hl'⟩ := spiUnlockDev_ok h
        refine ⟨.unlocked hb rfl hl', fun k hk hkd => ?_⟩
        have hk' : k ∈ pre ++ l' :: post := by
          rw [List.mem_append] at hk ⊢
          exact hk.imp_right (List.mem_cons_of_mem _)
        rw [hu.owner_eq hk' hmem (hkd.trans hdev.symm)]
        simpa using ho
      · cases h
        refine ⟨.kept, fun k hk hkd => ?_⟩
        rw [hu.owner_eq hk hmem (hkd.trans hdev.symm)]
        simpa using ho
  | none =>
      rw [hs] at h
      simp only at h
      have hfree := spiIslock_none hs
      split_ifs at h with hl hb
      · simp only [spiLockDev] at h
        split_ifs at h
        cases h
        refine ⟨.locked hfree, fun k hk hkd => ?_⟩
        cases hk with
        | head => rfl
        | tail _ hk => exact absurd hkd (hfree k hk)
      · cases h
        exact ⟨.kept, fun k hk hkd => absurd hkd (hfree k hk)⟩

theorem Checked.unique {device : BitVec 32} {o : Nat} {lock lock' : List SpiLock} (hu : Unique lock)
    (h : Checked c device o lock lock') : Unique lock' := by
  cases h with
  | kept => exact hu
  | locked hfree =>
      refine List.nodup_cons.mpr ⟨?_, hu⟩
      rintro hmem
      obtain ⟨l, hl, hd⟩ := List.mem_map.mp hmem
      exact hfree l hl hd
  | unlocked _ he _ => rw [he] at hu; exact hu.remove

/-- 消えた項目は、解錠を求めた持ち主のものである。 -/
theorem Checked.released {device : BitVec 32} {o : Nat} {lock lock' : List SpiLock} (h : Checked c device o lock lock')
    {l : SpiLock} (hl : l ∈ lock) (hgone : l ∉ lock') : l.owner = o ∧ hasBit device c.unlockBit = true := by
  cases h with
  | kept => exact absurd hl hgone
  | locked => exact absurd (List.mem_cons_of_mem _ hl) hgone
  | unlocked hb he ho =>
      rw [he, List.mem_append, List.mem_cons] at hl
      rw [List.mem_append, not_or] at hgone
      rcases hl with hl | rfl | hl
      · exact absurd hl hgone.1
      · exact ⟨ho, hb⟩
      · exact absurd hl hgone.2

/-- 他人の項目は残る。 -/
theorem Checked.others {device : BitVec 32} {o : Nat} {lock lock' : List SpiLock} (h : Checked c device o lock lock')
    {l : SpiLock} (hl : l ∈ lock) (ho : l.owner ≠ o) : l ∈ lock' := by
  by_contra hgone
  exact ho (h.released hl hgone).1

/-- 残る項目は、もとからあるか、その ocb のものである。 -/
theorem Checked.mem {device : BitVec 32} {o : Nat} {lock lock' : List SpiLock} (h : Checked c device o lock lock')
    {l : SpiLock} (hl : l ∈ lock') : l ∈ lock ∨ l.owner = o := by
  cases h with
  | kept => exact .inl hl
  | locked =>
      cases hl with
      | head => exact .inr rfl
      | tail _ hl => exact .inl hl
  | unlocked _ he _ =>
      rw [he]
      rw [List.mem_append] at hl ⊢
      exact .inl (hl.imp_right (List.mem_cons_of_mem _))

/-! ### 転送 -/

/-- 転送の相手。番号が `SPI_DEV_ID_NONE` なら `ocb->chip` である。 -/
def target (c : DevCodes) (device chip : BitVec 32) : BitVec 32 :=
  if device &&& c.idMask = c.idNone then chip &&& c.idMask else device &&& c.idMask

theorem toU16_and_mask (x : BitVec 32) : toU16 x &&& c.idMask = x &&& c.idMask := by
  rw [toU16, BitVec.and_assoc, c.mask_narrow]

theorem toU16_masked (x : BitVec 32) : toU16 (x &&& c.idMask) = x &&& c.idMask := by
  rw [toU16, BitVec.and_assoc, BitVec.and_comm c.idMask, c.mask_narrow]

theorem masked_masked (x : BitVec 32) : x &&& c.idMask &&& c.idMask = x &&& c.idMask := by
  rw [BitVec.and_assoc, BitVec.and_self]

theorem resolveChip_target (device chip : BitVec 32) : resolveChip c device chip &&& c.idMask = target c device chip := by
  simp only [resolveChip, target, toU16_masked, beq_iff_eq]
  split_ifs
  · exact toU16_and_mask chip
  · exact masked_masked device

/-- 転送は施錠を変えず、driver を呼ぶなら相手は `target` である。 -/
structure Transfer (c : DevCodes) (s : State) (device chip : BitVec 32) (r : Outcome) : Prop where
  lock : r.state.lock = s.lock
  ocbs : r.state.ocbs = s.ocbs
  chip : ∀ x, r.xfer = some x → x &&& c.idMask = target c device chip

theorem growBuf_lock {s s' : State} {env : Env} {len : Int} {ok : Bool} (h : growBuf s env len = (ok, s')) :
    s'.lock = s.lock ∧ s'.ocbs = s.ocbs := by
  simp only [growBuf] at h
  split_ifs at h <;> cases h <;> exact ⟨rfl, rfl⟩

theorem Transfer.quiet {s s' : State} {device chip : BitVec 32} {reply : Except Errno Int}
    (h : s'.lock = s.lock ∧ s'.ocbs = s.ocbs) : Transfer c s device chip ⟨s', none, reply⟩ :=
  ⟨h.1, h.2, nofun⟩

theorem Transfer.run {s s' : State} {device chip : BitVec 32} {reply : Except Errno Int}
    (h : s'.lock = s.lock ∧ s'.ocbs = s.ocbs) : Transfer c s device chip ⟨s', some (resolveChip c device chip), reply⟩ := by
  refine ⟨h.1, h.2, fun x hx => ?_⟩
  cases hx
  exact resolveChip_target device chip

theorem spiIomsgRead_transfer (s : State) (chip : BitVec 32) (m : SpiMsg) (env : Env) :
    Transfer c s m.device chip (spiIomsgRead c s chip m env) := by
  simp only [spiIomsgRead]
  split
  · exact .quiet ⟨rfl, rfl⟩
  · split
    · rename_i hg; exact .quiet (growBuf_lock hg)
    · rename_i hg; exact .run (growBuf_lock hg)

theorem spiIomsgSend_transfer (s : State) (chip : BitVec 32) (m : SpiMsg) (env : Env) :
    Transfer c s m.device chip (spiIomsgSend c s chip m env) := by
  simp only [spiIomsgSend]
  split
  · exact .quiet ⟨rfl, rfl⟩
  · split
    · rename_i hg; exact .quiet (growBuf_lock hg)
    · rename_i hg
      split
      · exact .quiet (growBuf_lock hg)
      · exact .run (growBuf_lock hg)

theorem spiIomsgCmdread_transfer (s : State) (chip : BitVec 32) (m : SpiMsg) (env : Env) :
    Transfer c s m.device chip (spiIomsgCmdread c s chip m env) := by
  simp only [spiIomsgCmdread]
  split
  · rename_i hg; exact .quiet (growBuf_lock hg)
  · rename_i hg
    split
    · exact .quiet (growBuf_lock hg)
    · exact .run (growBuf_lock hg)

theorem spiIomsgDmaxchange_transfer (s : State) (chip : BitVec 32) (m : SpiMsg) (env : Env) :
    Transfer c s m.device chip (spiIomsgDmaxchange c s chip m env) := by
  simp only [spiIomsgDmaxchange]
  split_ifs with h1 h2 h3 hn
  · exact .quiet ⟨rfl, rfl⟩
  · exact .quiet ⟨rfl, rfl⟩
  · exact .quiet ⟨rfl, rfl⟩
  · refine ⟨rfl, rfl, fun x hx => ?_⟩
    cases hx
    rw [target, if_pos (beq_iff_eq.mp hn)]
  · refine ⟨rfl, rfl, fun x hx => ?_⟩
    cases hx
    rw [target, if_neg (fun he => hn (beq_iff_eq.mpr he)), masked_masked]

/-- メッセージは、施錠の判定を通らなければ何も変えず、通れば判定の後の一覧の下で転送する。 -/
theorem spiIomsg_cases {s : State} (hu : Unique s.lock) (o : Nat) (chip : BitVec 32) (m : SpiMsg) (env : Env) :
    ((spiIomsg c s o chip m env).state = s ∧ (spiIomsg c s o chip m env).xfer = none) ∨
    ∃ lock, Checked c m.device o s.lock lock ∧ (∀ l ∈ lock, l.device = m.device &&& c.idMask → l.owner = o) ∧
      Transfer c { s with lock } m.device chip (spiIomsg c s o chip m env) := by
  simp only [spiIomsg]
  split
  · exact .inl ⟨rfl, rfl⟩
  · cases m.subtype with
    | none => exact .inl ⟨rfl, rfl⟩
    | some sub =>
        simp only
        cases hc : spiLockCheck c env.callocOk m.device o s.lock with
        | error e => exact .inl ⟨rfl, rfl⟩
        | ok lock =>
            obtain ⟨hck, hown⟩ := spiLockCheck_ok hu hc
            refine .inr ⟨lock, hck, hown, ?_⟩
            cases sub with
            | read => exact spiIomsgRead_transfer _ chip m env
            | write => exact spiIomsgSend_transfer _ chip m env
            | exchange => exact spiIomsgSend_transfer _ chip m env
            | cmdread => exact spiIomsgCmdread_transfer _ chip m env
            | dmaxchange => exact spiIomsgDmaxchange_transfer _ chip m env

end Imx6Bsp.Spi

namespace Imx6Bsp.Spi

variable {c : DevCodes}

/-- `SPI_DEV_ID_NONE` を使うメッセージは、`ocb->chip` が他人に施錠されていないときに限る。 -/
def Named (c : DevCodes) (s : State) : Op → Prop
  | .iomsg o m _ => m.device &&& c.idMask = c.idNone →
      ∀ chip ∈ s.ocbs o, ∀ l ∈ s.lock, l.device = chip &&& c.idMask → l.owner = o
  | _ => True

instance decidableNamed (c : DevCodes) (s : State) : (op : Op) → Decidable (Named c s op)
  | .iomsg .. => inferInstanceAs (Decidable (_ → _))
  | .openOcb _ => inferInstanceAs (Decidable True)
  | .setConfig .. => inferInstanceAs (Decidable True)
  | .close _ => inferInstanceAs (Decidable True)

/-- driver が呼ばれたとき、その chip は空いているか、呼んだ ocb が施錠している。 -/
def Exclusive (c : DevCodes) (op : Op) (r : Outcome) : Prop :=
  ∀ o m env, op = .iomsg o m env → ∀ chip, r.xfer = some chip →
    ∀ l ∈ r.state.lock, l.device = chip &&& c.idMask → l.owner = o

/-- 一回の呼び出しについての約束。 -/
structure Protocol (c : DevCodes) (s : State) (op : Op) (r : Outcome) : Prop where
  unique : Unique r.state.lock
  exclusive : Exclusive c op r
  released : ∀ l ∈ s.lock, l ∉ r.state.lock →
    (∃ m env, op = .iomsg l.owner m env ∧ hasBit m.device c.unlockBit = true) ∨ op = .close l.owner
  closed : ∀ o, op = .close o → r.state.lock = s.lock.filter (·.owner ≠ o)
  fresh : ∀ o, op = .openOcb o → ∀ l ∈ r.state.lock, l.owner ≠ o

/-! ## 不変条件 -/

/-- 施錠は device ごとに高々一つで、持ち主は開いている。 -/
structure Inv (s : State) : Prop where
  unique : Unique s.lock
  owned : ∀ l ∈ s.lock, s.ocbs l.owner ≠ none

theorem Inv.start : Inv init := ⟨List.nodup_nil, nofun⟩

theorem spiCloseOcb_lock (s : State) (o : Nat) : (spiCloseOcb c s o).lock = s.lock.filter (·.owner ≠ o) :=
  unlockAll_eq (Nat.le_refl _)

theorem spiSetConfig_lock (s : State) (o : Nat) (device : BitVec 32) : (spiSetConfig c s o device).lock = s.lock := by
  simp only [spiSetConfig]
  split_ifs <;> rfl

theorem spiSetConfig_open {s : State} {o i : Nat} (device : BitVec 32) (hi : s.ocbs i ≠ none) :
    (spiSetConfig c s o device).ocbs i ≠ none := by
  simp only [spiSetConfig]
  split_ifs
  · exact hi
  · simp only
    split_ifs
    · exact Option.some_ne_none device
    · exact hi
  · exact hi

theorem Inv.iomsg {s : State} (h : Inv s) {o : Nat} {chip : BitVec 32} (ho : s.ocbs o = some chip) (m : SpiMsg) (env : Env) :
    Inv (spiIomsg c s o chip m env).state := by
  rcases spiIomsg_cases (c := c) h.unique o chip m env with ⟨hs, -⟩ | ⟨lock, hck, -, ht⟩
  · rw [hs]; exact h
  · constructor
    · rw [ht.lock]; exact hck.unique h.unique
    · rw [ht.lock, ht.ocbs]
      intro l hl
      rcases hck.mem hl with hl | hl
      · exact h.owned l hl
      · rw [hl, ho]; exact Option.some_ne_none chip

theorem Inv.handle {s : State} (h : Inv s) {op : Op} {r : Outcome} (hr : handle c s op = some r) : Inv r.state := by
  cases op with
  | openOcb o =>
      simp only [Spi.handle] at hr
      split at hr
      · cases hr
      · cases hr
        refine ⟨h.unique, fun l hl => ?_⟩
        simp only [spiOcbCalloc]
        split_ifs
        · exact Option.some_ne_none _
        · exact h.owned l hl
  | setConfig o device =>
      obtain ⟨_, _, rfl⟩ := Option.map_eq_some_iff.mp hr
      constructor
      · rw [spiSetConfig_lock]; exact h.unique
      · rw [spiSetConfig_lock]
        exact fun l hl => spiSetConfig_open device (h.owned l hl)
  | iomsg o m env =>
      obtain ⟨chip, ho, rfl⟩ := Option.map_eq_some_iff.mp hr
      exact h.iomsg ho m env
  | close o =>
      obtain ⟨_, _, rfl⟩ := Option.map_eq_some_iff.mp hr
      constructor
      · rw [spiCloseOcb_lock]
        exact h.unique.sublist (List.filter_sublist.map _)
      · rw [spiCloseOcb_lock]
        intro l hl
        obtain ⟨hl, hne⟩ := List.mem_filter.mp hl
        simp only [spiCloseOcb, if_neg (of_decide_eq_true hne)]
        exact h.owned l hl

theorem Inv.reaches {s : State} {ok : State → Op → Prop} (h : Lib.Reaches (step c) ok init s) : Inv s := by
  refine h.invariant (P := Inv) Inv.start fun u op v hu _ hs => ?_
  simp only [step] at hs
  split at hs
  · rename_i r hr
    cases hs
    exact hu.handle hr
  · cases hs

/-! ## 排他 -/

/-- 判定を通ったメッセージは、条件の下では、他人が施錠した chip に触れない。 -/
theorem exclusive_of_named {s : State} (h : Inv s) {op : Op} {r : Outcome} (hop : Named c s op) (hr : handle c s op = some r) :
    Exclusive c op r := by
  rintro o m env rfl x hx l hl hd
  obtain ⟨chip, ho, rfl⟩ := Option.map_eq_some_iff.mp hr
  rcases spiIomsg_cases (c := c) h.unique o chip m env with ⟨-, hn⟩ | ⟨lock, hck, hown, ht⟩
  · rw [hn] at hx; cases hx
  · rw [ht.lock] at hl
    rw [ht.chip x hx, target] at hd
    split_ifs at hd with hnone
    · by_contra hne
      rcases hck.mem hl with hl' | hl'
      · exact hne (hop hnone chip ho l hl' hd)
      · exact hne hl'
    · exact hown l hl hd

/-- 条件を破るメッセージが driver に届けば、他人が施錠した chip への転送になる。 -/
theorem named_of_exclusive {s : State} (h : Inv s) {op : Op} {r : Outcome} (hr : handle c s op = some r)
    (hx : r.xfer ≠ none) (he : Exclusive c op r) : Named c s op := by
  cases op with
  | iomsg o m env =>
      intro hnone chip ho l hl hd
      rw [Spi.handle, ho, Option.map_some, Option.some.injEq] at hr
      subst hr
      rcases spiIomsg_cases (c := c) h.unique o chip m env with ⟨-, hn⟩ | ⟨lock, hck, -, ht⟩
      · exact absurd hn hx
      · obtain ⟨x, hx⟩ := Option.ne_none_iff_exists'.mp hx
        by_contra hne
        have hl' : l ∈ (spiIomsg c s o chip m env).state.lock := by
          rw [ht.lock]; exact hck.others hl hne
        refine hne (he o m env rfl x hx l hl' ?_)
        rw [ht.chip x hx, target, if_pos hnone, hd]
  | openOcb o => trivial
  | setConfig o device => trivial
  | close o => trivial

/-- driver に届いた呼び出しでは、排他は条件とちょうど同じである。 -/
theorem exclusive_iff_named {s : State} {ok : State → Op → Prop} (h : Lib.Reaches (step c) ok init s) {op : Op} {r : Outcome}
    (hr : handle c s op = some r) (hx : r.xfer ≠ none) : Exclusive c op r ↔ Named c s op :=
  ⟨named_of_exclusive (.reaches h) hr hx, fun hop => exclusive_of_named (.reaches h) hop hr⟩

/-! ## 約束 -/

theorem released_of_handle {s : State} (h : Inv s) {op : Op} {r : Outcome} (hr : handle c s op = some r) :
    ∀ l ∈ s.lock, l ∉ r.state.lock →
      (∃ m env, op = .iomsg l.owner m env ∧ hasBit m.device c.unlockBit = true) ∨ op = .close l.owner := by
  intro l hl hgone
  cases op with
  | openOcb o =>
      simp only [Spi.handle] at hr
      split at hr
      · cases hr
      · cases hr; exact absurd hl hgone
  | setConfig o device =>
      obtain ⟨_, _, rfl⟩ := Option.map_eq_some_iff.mp hr
      rw [spiSetConfig_lock] at hgone
      exact absurd hl hgone
  | iomsg o m env =>
      obtain ⟨chip, _, rfl⟩ := Option.map_eq_some_iff.mp hr
      rcases spiIomsg_cases (c := c) h.unique o chip m env with ⟨hs, -⟩ | ⟨lock, hck, -, ht⟩
      · rw [hs] at hgone; exact absurd hl hgone
      · rw [ht.lock] at hgone
        obtain ⟨ho, hb⟩ := hck.released hl hgone
        exact .inl ⟨m, env, by rw [ho], hb⟩
  | close o =>
      obtain ⟨_, _, rfl⟩ := Option.map_eq_some_iff.mp hr
      rw [spiCloseOcb_lock, List.mem_filter, not_and] at hgone
      have ho : l.owner = o := by simpa using hgone hl
      exact .inr (by rw [ho])

/-- 条件を満たす呼び出しだけの実行では、どの呼び出しも約束を守る。 -/
theorem spi_lock_protocol {s : State} (h : Lib.Reaches (step c) (Named c) init s) {op : Op} (hop : Named c s op) {r : Outcome}
    (hr : handle c s op = some r) : Protocol c s op r where
  unique := (Inv.reaches h |>.handle hr).unique
  exclusive := exclusive_of_named (.reaches h) hop hr
  released := released_of_handle (.reaches h) hr
  closed := by
    rintro o rfl
    obtain ⟨_, _, rfl⟩ := Option.map_eq_some_iff.mp hr
    exact spiCloseOcb_lock s o
  fresh := by
    rintro o rfl l hl rfl
    simp only [handle] at hr
    split at hr
    · cases hr
    · rename_i hn
      cases hr
      exact (Inv.reaches h).owned l hl hn

/-- 16 ビットの番号と、その上の旗。 -/
def sampleCodes : DevCodes :=
  ⟨0xffff, 0xffff, 0x100000, 0x200000, 0x10000, by decide, by decide⟩

def sampleMsg (device : BitVec 32) : SpiMsg := ⟨24, true, some .exchange, device, 4, 0, 0⟩

def sampleEnv : Env := ⟨true, true, 2048, 28, true, 4⟩

/-- 二つの ocb が開き、どちらも chip 0 を既定にし、ocb 0 が chip 0 を施錠する。 -/
def sampleRun : List Op :=
  [.openOcb 0, .openOcb 1, .setConfig 0 0x10000, .setConfig 1 0x10000, .iomsg 0 (sampleMsg 0x100000) sampleEnv]

theorem spi_lock_protocol_run :
    ∃ s r, Lib.Reaches (step sampleCodes) (Named sampleCodes) init s ∧
      handle sampleCodes s (.iomsg 0 (sampleMsg 0xffff) sampleEnv) = some r ∧ r.xfer = some 0 ∧
      Protocol sampleCodes s (.iomsg 0 (sampleMsg 0xffff) sampleEnv) r := by
  obtain ⟨s, hs, hp⟩ := (Option.any_eq_true _ _).mp (by decide :
    (Lib.runAll (step sampleCodes) (Named sampleCodes) sampleRun init).any (fun s => s.lock.all (fun l => l.owner == 0) &&
      (handle sampleCodes s (.iomsg 0 (sampleMsg 0xffff) sampleEnv)).any (fun r => r.xfer == some 0)) = true)
  obtain ⟨hown, hx⟩ := Bool.and_eq_true_iff.mp hp
  have hop : Named sampleCodes s (.iomsg 0 (sampleMsg 0xffff) sampleEnv) :=
    fun _ _ _ l hl _ => beq_iff_eq.mp (List.all_eq_true.mp hown l hl)
  obtain ⟨r, hr, hx⟩ := (Option.any_eq_true _ _).mp hx
  have hrun := Lib.runAll_reaches hs
  exact ⟨s, r, hrun, hr, by simpa using hx, spi_lock_protocol hrun hop hr⟩

/-- ocb 1 は、ocb 0 が施錠した chip 0 に `SPI_DEV_ID_NONE` で転送できる。 -/
theorem spi_lock_stolen :
    ¬∀ (c : DevCodes) (s : State) (op : Op) (r : Outcome), Lib.Reaches (step c) (fun _ _ => True) init s →
      handle c s op = some r → Protocol c s op r := by
  intro hall
  obtain ⟨s, hs, hp⟩ := (Option.any_eq_true _ _).mp (by decide :
    (Lib.runAll (step sampleCodes) (fun _ _ => True) sampleRun init).any (fun s =>
      (handle sampleCodes s (.iomsg 1 (sampleMsg 0xffff) sampleEnv)).any
        (fun r => r.xfer == some 0 && r.state.lock.any (fun l => l.device == 0 && l.owner == 0))) = true)
  obtain ⟨r, hr, hx⟩ := (Option.any_eq_true _ _).mp hp
  obtain ⟨hx, hl⟩ := Bool.and_eq_true_iff.mp hx
  obtain ⟨l, hl, hd⟩ := List.any_eq_true.mp hl
  obtain ⟨hd, ho⟩ := Bool.and_eq_true_iff.mp hd
  have hcl := (hall _ s _ r (Lib.runAll_reaches hs) hr).exclusive 1 _ _ rfl 0 (by simpa using hx) l hl (by simpa using hd)
  rw [beq_iff_eq.mp ho] at hcl
  cases hcl

end Imx6Bsp.Spi
