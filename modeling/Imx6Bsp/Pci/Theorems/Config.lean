import Imx6Bsp.Pci.Lemmas.Config

/-!
# 語に満たない設定空間の読み書き

読み書きする語の数は個数だけから決まり、番地の端数を含まない。端数のある番地では、最後の語を落とすことがある。
-/

namespace Imx6Bsp.Pci

open Imx6Bsp.Lib

variable {sp : Space} {check : PciexCheck} {offset n cnt : Nat}

/-! ## 性質 -/

/-- どの桁も読み書きできる。 -/
def Space.Plain (sp : Space) : Prop := ∀ x, sp.writable x = 0xff

/-- 成功した読み出しは、`offset` からの `n` バイトをそのまま返す。 -/
def ReadsExactly (sp : Space) (offset n : Nat) (r : Except Refusal Mem) : Prop :=
  ∀ buf, r = .ok buf → ∀ i < n, buf i = sp.regs (offset + i)

/-- 成功した書き込みは、`offset` からの `n` バイトを `buf` にし、他のバイトを変えない。 -/
def WritesExactly (sp : Space) (offset n : Nat) (buf : Mem) (r : Space × Except Refusal Unit) : Prop :=
  r.2 = .ok () → (∀ i < n, r.1.regs (offset + i) = buf i) ∧ ∀ x, x < offset ∨ offset + n ≤ x → r.1.regs x = sp.regs x

/-- `n` バイトが、読み書きする語に収まる。 -/
def Covers (offset n : Nat) : Prop := n = 0 ∨ offset % 4 + n ≤ 4 * dwords n

/-- 断られない 8 ビットの読み書き。 -/
def Accepts8 (check : PciexCheck) (offset cnt : Nat) : Prop :=
  cnt ≤ 256 ∧ gate check (alignDown offset) (dwords cnt) = .ok ()

/-- 断られない 16 ビットの読み書き。 -/
def Accepts16 (check : PciexCheck) (offset cnt : Nat) : Prop :=
  cnt * 2 ≤ 256 ∧ offset % 2 = 0 ∧ gate check (alignDown offset) (dwords (cnt * 2)) = .ok ()

/-- 8 ビットの読み書きが、正しいバイトを扱う。`temp` の最初の内容は何でもよい。 -/
structure Exact8 (check : PciexCheck) (sp : Space) (offset cnt : Nat) : Prop where
  read : ∀ stack, ReadsExactly sp offset cnt (readConfig8 check stack sp offset cnt)
  write : ∀ stack buf, WritesExactly sp offset cnt buf (writeConfig8 check stack sp offset cnt buf)

/-- 16 ビットの読み書きが、正しいバイトを扱う。 -/
structure Exact16 (check : PciexCheck) (sp : Space) (offset cnt : Nat) : Prop where
  read : ∀ stack, ReadsExactly sp offset (cnt * 2) (readConfig16 check stack sp offset cnt)
  write : ∀ stack buf, WritesExactly sp offset (cnt * 2) buf (writeConfig16 check stack sp offset cnt buf)

/-! ## 語の範囲 -/

/-- 落ちるバイトがある。 -/
theorem exists_dropped (h : ¬ Covers offset n) : ∃ i < n, offset % 4 + i = 4 * dwords n := by
  unfold Covers dwords at *
  refine ⟨4 * ((n + 3) / 4) - offset % 4, ?_, ?_⟩
  all_goals omega

/-- どのバイトにも、それと違うバイトがある。 -/
theorem exists_other (b : UInt8) : ∃ c, c ≠ b := ⟨b + 1, by simp⟩

/-! ## 読み出し -/

theorem readNarrow_exact_iff (hgate : gate check (alignDown offset) (dwords n) = .ok ()) (hin : offset + n ≤ sp.size) :
    (∀ stack, ReadsExactly sp offset n (readNarrow check stack sp offset (dwords n))) ↔ Covers offset n := by
  constructor
  · intro h
    by_contra hc
    obtain ⟨i, hi, hdrop⟩ := exists_dropped hc
    obtain ⟨b, hb⟩ := exists_other (sp.regs (offset + i))
    have hread := @readNarrow_eq sp check (fun _ => b) offset (dwords n) hgate (alignDown_le_size hin)
    have hbyte := h (fun _ => b) _ hread i hi
    rw [readNarrow_get hgate hin hread, if_neg (by omega)] at hbyte
    exact hb hbyte
  · intro hc stack buf hread i hi
    rw [readNarrow_get hgate hin hread, if_pos]
    unfold Covers at hc
    omega

/-! ## 書き込み -/

theorem writeNarrow_exact_iff (hplain : sp.Plain) (hgate : gate check (alignDown offset) (dwords n) = .ok ())
    (hin : offset + n ≤ sp.size) :
    (∀ stack buf, WritesExactly sp offset n buf (writeNarrow check stack sp offset n (dwords n) buf)) ↔ Covers offset n := by
  have halign := alignDown_add_mod offset
  constructor
  · intro h
    by_contra hc
    obtain ⟨i, hi, hdrop⟩ := exists_dropped hc
    obtain ⟨b, hb⟩ := exists_other (sp.regs (offset + i))
    obtain ⟨hok, hget⟩ := @writeNarrow_get sp check offset n (fun _ => 0) _ _ (offset + i) hgate hin rfl
    have hbyte := (h (fun _ => 0) (fun _ => b) hok).1 i hi
    rw [hget, if_neg (by omega)] at hbyte
    exact hb hbyte.symm
  · intro hc stack buf _
    constructor
    · intro i hi
      rw [(writeNarrow_get hgate hin rfl).2, if_pos, hplain, latch_plain, Nat.add_sub_cancel_left]
      unfold Covers at hc
      omega
    · intro x hx
      rw [(writeNarrow_get hgate hin rfl).2, if_neg (by omega)]

/-! ## 断られる呼び出し -/

theorem readNarrow_error {stack : Mem} (h : gate check (alignDown offset) cnt ≠ .ok ()) :
    ReadsExactly sp offset n (readNarrow check stack sp offset cnt) := by
  intro buf hbuf
  rw [readNarrow] at hbuf
  cases hgate : gate check (alignDown offset) cnt with
  | ok u => exact absurd hgate h
  | error e =>
      rw [hgate] at hbuf
      cases hbuf

theorem writeNarrow_error {stack buf : Mem} (h : gate check (alignDown offset) cnt ≠ .ok ()) :
    WritesExactly sp offset n buf (writeNarrow check stack sp offset n cnt buf) := by
  intro hok
  rw [writeNarrow] at hok
  cases hgate : gate check (alignDown offset) cnt with
  | ok u => exact absurd hgate h
  | error e =>
      rw [hgate] at hok
      cases hok

/-- 語に満たない読み書きが、正しいバイトを扱う。 -/
structure ExactNarrow (check : PciexCheck) (sp : Space) (offset n : Nat) : Prop where
  read : ∀ stack, ReadsExactly sp offset n (readNarrow check stack sp offset (dwords n))
  write : ∀ stack buf, WritesExactly sp offset n buf (writeNarrow check stack sp offset n (dwords n) buf)

theorem exactNarrow_iff (hplain : sp.Plain) (hin : offset + n ≤ sp.size) :
    ExactNarrow check sp offset n ↔ (gate check (alignDown offset) (dwords n) = .ok () → Covers offset n) := by
  by_cases hgate : gate check (alignDown offset) (dwords n) = .ok ()
  · constructor
    · intro h _
      exact (readNarrow_exact_iff hgate hin).mp h.read
    · intro h
      exact ⟨(readNarrow_exact_iff hgate hin).mpr (h hgate), (writeNarrow_exact_iff hplain hgate hin).mpr (h hgate)⟩
  · constructor
    · intro _ h
      exact absurd h hgate
    · intro _
      exact ⟨fun _ => readNarrow_error hgate, fun _ _ => writeNarrow_error hgate⟩

theorem readNarrow_ok_iff {stack : Mem} (hin : offset + n ≤ sp.size) :
    (∃ buf, readNarrow check stack sp offset (dwords n) = .ok buf) ↔ gate check (alignDown offset) (dwords n) = .ok () := by
  constructor
  · rintro ⟨buf, hbuf⟩
    rw [readNarrow] at hbuf
    cases hgate : gate check (alignDown offset) (dwords n) with
    | ok u => rfl
    | error e =>
        rw [hgate] at hbuf
        cases hbuf
  · intro hgate
    exact ⟨_, readNarrow_eq hgate (alignDown_le_size hin)⟩

/-! ## 主定理 -/

theorem exact8_iff (hplain : sp.Plain) (hin : offset + cnt ≤ sp.size) :
    Exact8 check sp offset cnt ↔ (Accepts8 check offset cnt → Covers offset cnt) := by
  by_cases hcnt : cnt ≤ 256
  · have hnarrow : Exact8 check sp offset cnt ↔ ExactNarrow check sp offset cnt := by
      have hread : ∀ stack, readConfig8 check stack sp offset cnt = readNarrow check stack sp offset (dwords cnt) := fun stack => by
        rw [readConfig8, if_neg (Nat.not_lt.mpr hcnt), dwords8 hcnt]
      have hwrite : ∀ stack buf, writeConfig8 check stack sp offset cnt buf
          = writeNarrow check stack sp offset cnt (dwords cnt) buf := fun stack buf => by
        rw [writeConfig8, if_neg (Nat.not_lt.mpr hcnt), dwords8 hcnt]
      exact ⟨fun h => ⟨fun stack => hread stack ▸ h.read stack, fun stack buf => hwrite stack buf ▸ h.write stack buf⟩,
        fun h => ⟨fun stack => hread stack ▸ h.read stack, fun stack buf => hwrite stack buf ▸ h.write stack buf⟩⟩
    rw [hnarrow, exactNarrow_iff hplain hin, Accepts8]
    exact ⟨fun h ha => h ha.2, fun h hgate => h ⟨hcnt, hgate⟩⟩
  · constructor
    · intro _ ha
      exact absurd ha.1 hcnt
    · intro _
      constructor
      · intro stack buf hbuf
        rw [readConfig8, if_pos (Nat.not_le.mp hcnt)] at hbuf
        cases hbuf
      · intro stack buf hok
        rw [writeConfig8, if_pos (Nat.not_le.mp hcnt)] at hok
        cases hok

theorem exact16_iff (hplain : sp.Plain) (hin : offset + cnt * 2 ≤ sp.size) :
    Exact16 check sp offset cnt ↔ (Accepts16 check offset cnt → Covers offset (cnt * 2)) := by
  have hwrap : cnt * 2 % 2 ^ 32 = cnt * 2 := by
    have hsize := sp.size_eq
    omega
  by_cases hok : cnt * 2 ≤ 256 ∧ offset % 2 = 0
  · obtain ⟨hcnt, heven⟩ := hok
    have hodd : ¬ offset % 2 = 1 := by omega
    have hnarrow : Exact16 check sp offset cnt ↔ ExactNarrow check sp offset (cnt * 2) := by
      have hread : ∀ stack, readConfig16 check stack sp offset cnt = readNarrow check stack sp offset (dwords (cnt * 2)) :=
        fun stack => by rw [readConfig16, hwrap, if_neg (Nat.not_lt.mpr hcnt), if_neg hodd, dwords16 hcnt]
      have hwrite : ∀ stack buf, writeConfig16 check stack sp offset cnt buf
          = writeNarrow check stack sp offset (cnt * 2) (dwords (cnt * 2)) buf := fun stack buf => by
        rw [writeConfig16, hwrap, if_neg (Nat.not_lt.mpr hcnt), if_neg hodd, dwords16 hcnt]
      exact ⟨fun h => ⟨fun stack => hread stack ▸ h.read stack, fun stack buf => hwrite stack buf ▸ h.write stack buf⟩,
        fun h => ⟨fun stack => hread stack ▸ h.read stack, fun stack buf => hwrite stack buf ▸ h.write stack buf⟩⟩
    rw [hnarrow, exactNarrow_iff hplain hin, Accepts16]
    exact ⟨fun h ha => h ha.2.2, fun h hgate => h ⟨hcnt, heven, hgate⟩⟩
  · have hrefused : (∀ stack, ∃ e, readConfig16 check stack sp offset cnt = .error e) ∧
        ∀ stack buf, ∃ e, (writeConfig16 check stack sp offset cnt buf).2 = .error e := by
      unfold readConfig16 writeConfig16
      rw [hwrap]
      by_cases hcnt : 256 < cnt * 2
      · simp only [if_pos hcnt]
        exact ⟨fun _ => ⟨_, rfl⟩, fun _ _ => ⟨_, rfl⟩⟩
      · have hodd : offset % 2 = 1 := by omega
        simp only [if_neg hcnt, if_pos hodd]
        exact ⟨fun _ => ⟨_, rfl⟩, fun _ _ => ⟨_, rfl⟩⟩
    constructor
    · intro _ ha
      exact absurd ⟨ha.1, ha.2.1⟩ hok
    · intro _
      constructor
      · intro stack buf hbuf
        obtain ⟨e, he⟩ := hrefused.1 stack
        cases he.symm.trans hbuf
      · intro stack buf hw
        obtain ⟨e, he⟩ := hrefused.2 stack buf
        cases he.symm.trans hw

/-- 断られない 8 ビットの読み出しは成功する。 -/
theorem readConfig8_ok_iff {stack : Mem} (hin : offset + cnt ≤ sp.size) :
    (∃ buf, readConfig8 check stack sp offset cnt = .ok buf) ↔ Accepts8 check offset cnt := by
  by_cases hcnt : cnt ≤ 256
  · rw [readConfig8, if_neg (Nat.not_lt.mpr hcnt), dwords8 hcnt, readNarrow_ok_iff hin]
    exact (and_iff_right hcnt).symm
  · rw [readConfig8, if_pos (Nat.not_le.mp hcnt)]
    exact ⟨(fun h => by cases h.choose_spec), fun h => absurd h.1 hcnt⟩

/-- 断られない 16 ビットの読み出しは成功する。 -/
theorem readConfig16_ok_iff {stack : Mem} (hin : offset + cnt * 2 ≤ sp.size) :
    (∃ buf, readConfig16 check stack sp offset cnt = .ok buf) ↔ Accepts16 check offset cnt := by
  have hwrap : cnt * 2 % 2 ^ 32 = cnt * 2 := by
    have hsize := sp.size_eq
    omega
  by_cases hcnt : cnt * 2 ≤ 256
  · by_cases hodd : offset % 2 = 1
    · rw [readConfig16, hwrap, if_neg (Nat.not_lt.mpr hcnt), if_pos hodd]
      exact ⟨(fun h => by cases h.choose_spec), fun h => absurd h.2.1 (by omega)⟩
    · rw [readConfig16, hwrap, if_neg (Nat.not_lt.mpr hcnt), if_neg hodd, dwords16 hcnt, readNarrow_ok_iff hin]
      exact ⟨fun h => ⟨hcnt, by omega, h⟩, fun h => h.2.2⟩
  · rw [readConfig16, hwrap, if_pos (Nat.not_le.mp hcnt)]
    exact ⟨(fun h => by cases h.choose_spec), fun h => absurd h.1 hcnt⟩

/-- 32 ビットの読み書きは、成功すれば、その範囲の語をそのまま扱う。読み出しは 64 語までである。 -/
structure Exact32 (check : PciexCheck) (sp : Space) (offset cnt : Nat) : Prop where
  read : ∀ buf, ReadsExactly sp offset (4 * min cnt 64) (readConfig32 check buf sp offset cnt)
  write : ∀ buf, WritesExactly sp offset (4 * cnt) buf (writeConfig32 check sp offset cnt buf)

theorem exact32 (hplain : sp.Plain) (hin : offset + 4 * cnt ≤ sp.size) : Exact32 check sp offset cnt := by
  constructor
  · intro buf r hr i hi
    rw [readConfig32] at hr
    split at hr
    · cases hr
    · rw [readLoop_eq (by omega)] at hr
      have hbuf : r = buf.fill 0 (4 * min cnt 64) fun i => sp.regs (offset + i) := by
        split at hr
        · cases hcheck : check offset (min cnt 64) with
          | ok u =>
              rw [hcheck] at hr
              exact (Except.ok.inj hr).symm
          | error e =>
              rw [hcheck] at hr
              cases hr
        · exact (Except.ok.inj hr).symm
      rw [hbuf]
      unfold Mem.fill
      dsimp only
      rw [if_pos (by omega), Nat.sub_zero]
  · intro buf hok
    rw [writeConfig32] at hok ⊢
    split at hok
    · cases hok
    · rename_i halign
      rw [if_neg halign]
      cases hcheck : (if 0x100 ≤ offset then check offset cnt else .ok ()) with
      | error e =>
          rw [hcheck] at hok
          cases hok
      | ok u =>
          dsimp only
          rw [writeLoop_eq hin]
          constructor
          · intro i hi
            dsimp only
            rw [Space.put_in hi, hplain, latch_plain, Nat.zero_add]
          · intro x hx
            exact Space.put_out hx

/-- 32 ビットの読み書きは語をそのまま扱う。8 ビットと 16 ビットの読み書きは、断られるか、番地の端数を含めて、個数から決まる語に収まるときに
限って、同じバイトを読み、そのバイトだけを書き換える。 -/
theorem config_widths_agree_iff (hplain : sp.Plain) (check : PciexCheck) (offset cnt : Nat) :
    (offset + 4 * cnt ≤ sp.size → Exact32 check sp offset cnt) ∧
    (offset + cnt ≤ sp.size →
      (∀ stack, (∃ buf, readConfig8 check stack sp offset cnt = .ok buf) ↔ Accepts8 check offset cnt) ∧
        (Exact8 check sp offset cnt ↔ (Accepts8 check offset cnt → Covers offset cnt))) ∧
    (offset + cnt * 2 ≤ sp.size →
      (∀ stack, (∃ buf, readConfig16 check stack sp offset cnt = .ok buf) ↔ Accepts16 check offset cnt) ∧
        (Exact16 check sp offset cnt ↔ (Accepts16 check offset cnt → Covers offset (cnt * 2)))) :=
  ⟨exact32 hplain, fun h => ⟨fun _ => readConfig8_ok_iff h, exact8_iff hplain h⟩,
    fun h => ⟨fun _ => readConfig16_ok_iff h, exact16_iff hplain h⟩⟩

/-- 内容がどこも `b` で、どの桁も書ける設定空間。 -/
def flatSpace (b : UInt8) : Space := { size := 256, size_eq := plainSize, regs := fun _ => b, writable := fun _ => 0xff }

theorem config_widths_agree_iff_sample :
    (flatSpace 0).Plain ∧ Exact16 (fun _ _ => .ok ()) (flatSpace 0) 6 1 :=
  ⟨fun _ => rfl, ((config_widths_agree_iff (fun _ => rfl) (fun _ _ => .ok ()) 6 1).2.2 (by decide)).2.mpr fun _ => .inr (by decide)⟩

/-- 番地 3 からの 2 バイトは、断られないが、正しく読み書きされない。 -/
theorem config_drops_last_byte :
    Accepts8 (fun _ _ => .ok ()) 3 2 ∧ 3 + 2 ≤ (flatSpace 0).size ∧ (flatSpace 0).Plain ∧
      (∃ buf, readConfig8 (fun _ _ => .ok ()) (fun _ => 1) (flatSpace 0) 3 2 = .ok buf ∧ buf 1 ≠ (flatSpace 0).regs 4) ∧
      (writeConfig8 (fun _ _ => .ok ()) (fun _ => 1) (flatSpace 0) 3 2 fun _ => 1).2 = .ok () ∧
      (writeConfig8 (fun _ _ => .ok ()) (fun _ => 1) (flatSpace 0) 3 2 fun _ => 1).1.regs 4 = 0 := by
  refine ⟨⟨by decide, rfl⟩, by decide, fun _ => rfl, ⟨_, rfl, ?_⟩, rfl, ?_⟩
  · decide
  · decide

end Imx6Bsp.Pci
