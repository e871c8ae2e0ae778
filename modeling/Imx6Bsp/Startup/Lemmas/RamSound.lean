import Imx6Bsp.Startup.Lemmas.Capacity

/-!
# 渡したブロックが重ならないこと

空いている番地は二つの一覧で表される。`alloc_ram()` は `ram_list` から範囲を取り除き、`ws_alloc()` は `avoid_list` に
範囲を加える。渡したブロックのそれぞれが、空いている番地から外れているか、避ける範囲に含まれていることを不変条件とする。
-/

namespace Imx6Bsp.Startup

open Imx6Bsp.Lib

/-! ## 呼び出しの前提 -/

/-- 起動イメージのヘッダの整合。イメージの直後に、`ws_init()` が使う領域がある。 -/
structure HeaderOk (hdr : StartupHeader) : Prop where
  startup_pos : 0 < hdr.startupSize
  startup_le : hdr.startupSize ≤ hdr.ramSize
  bound : hdr.ramPaddr + hdr.ramSize + 8 + maxAvoidListSize + maxRamListSize < 2 ^ 32

/-- `add_ram()` が一度でも呼ばれた。 -/
def ramAdded (log : List RamEvent) : Bool := log.any fun
  | .added _ _ => true
  | _ => false

/-- 加える範囲が、記録の加えた範囲と重ならない。 -/
def RamEvent.Apart (start size : Nat) : RamEvent → Prop
  | .added s n => ¬ (⟨start, start + size⟩ : Span Nat).Overlaps ⟨s, s + n⟩
  | _ => True

instance (start size : Nat) : DecidablePred (RamEvent.Apart start size)
  | .added _ _ => inferInstanceAs (Decidable (¬ _))
  | .avoided _ _ => inferInstanceAs (Decidable True)
  | .block _ _ => inferInstanceAs (Decidable True)

instance (a : Nat) : Decidable (IsAlign a) := inferInstanceAs (Decidable (∃ k < 32, a = 2 ^ k))

/-- 呼び出しの列の前提。`top` は RAM の上限であり、位置合わせの値を足しても 32 ビットに収まる。 -/
def InDomain (hdr : StartupHeader) (top : Nat) (t : RamTrace) (c : RamCall) : Prop :=
  (appendsAvoid hdr t.ram c → avoidListSize t.ram.avoidList + 8 ≤ maxAvoidListSize) ∧
  match c with
  | .addRam start size => start + size ≤ top ∧ ∀ e ∈ t.log, e.Apart start size
  | .avoidRam start size => ramAdded t.log ∧ start + size < 2 ^ 32
  | .wsAlloc _ => ramAdded t.log
  | .watchAddRam _ => False
  | .allocRam addr _ align => ramAdded t.log ∧ addr = nullPaddr ∧ IsAlign align ∧ top + align ≤ 2 ^ 32
  | .callocRam _ align => ramAdded t.log ∧ IsAlign align ∧ top + align ≤ 2 ^ 32
  | .reserveRam _ align pagesize => ramAdded t.log ∧ (align = 0 ∨ IsAlign align) ∧ IsAlign pagesize

instance (hdr : StartupHeader) (top : Nat) (t : RamTrace) : DecidablePred (InDomain hdr top t)
  | .addRam _ _ | .avoidRam _ _ | .allocRam _ _ _ | .callocRam _ _ | .reserveRam _ _ _ | .wsAlloc _
  | .watchAddRam _ => inferInstanceAs (Decidable (_ ∧ _))

/-- `ws_alloc()` は空の `ram_list` を「まだ `add_ram()` が呼ばれていない」とみなすので、空の一覧では呼ばない。
番兵と紛れる `end == 0` の項目を加えず、大きさの切り上げは桁あふれしない。 -/
def NoDefect (t : RamTrace) : RamCall → Prop
  | .wsAlloc size => t.ram.ramList ≠ [] ∧ size + 8 ≤ 2 ^ 32 ∧ ¬ (size = 0 ∧ findRam t.ram 0 8 0 0 = 0)
  | .avoidRam start size => start + size ≠ 0
  | .reserveRam size _ pagesize => size + pagesize ≤ 2 ^ 32
  | _ => True

instance (t : RamTrace) : DecidablePred (NoDefect t)
  | .wsAlloc _ => inferInstanceAs (Decidable (_ ∧ _))
  | .avoidRam _ _ => inferInstanceAs (Decidable (_ ≠ _))
  | .reserveRam _ _ _ => inferInstanceAs (Decidable (_ ≤ _))
  | .addRam _ _ | .watchAddRam _ | .allocRam _ _ _ | .callocRam _ _ => inferInstanceAs (Decidable True)

/-! ## 不変条件 -/

/-- 避ける範囲の一つに含まれる。 -/
def Covered (av : List AvoidEntry) (B : Set Nat) : Prop := ∃ a ∈ av, B ⊆ Set.Ico a.start a.stop

theorem Covered.append {av av' : List AvoidEntry} {B : Set Nat} (h : Covered av B) : Covered (av ++ av') B := by
  obtain ⟨a, ha, hB⟩ := h; exact ⟨a, by simp [ha], hB⟩

/-- もう渡されることのない番地の集合。 -/
def Protected (l : List RamEntry) (av : List AvoidEntry) (B : Set Nat) : Prop :=
  Disjoint B (freeSet l) ∨ Covered av B

theorem Fits.disjoint_protected {l : List RamEntry} {av : List AvoidEntry} {addr size : Nat} {B : Set Nat}
    (h : Fits l av addr size) (hB : Protected l av B) : Disjoint (Set.Ico addr (addr + size)) B := by
  rcases hB with hB | ⟨a, ha, hB⟩
  · exact (hB.mono_right h.subset_free).symm
  · refine Set.disjoint_left.mpr fun x hx hxB => ?_
    have h1 := hB hxB
    have h2 := h.2 a ha
    simp only [Set.mem_Ico] at hx h1; omega

theorem addedSet_cons_subset (e : RamEvent) (log : List RamEvent) : addedSet log ⊆ addedSet (e :: log) := by
  rintro x ⟨start, size, hm, hx⟩
  exact ⟨start, size, by simp [hm], hx⟩

theorem mem_addedSet_added {start size x : Nat} {log : List RamEvent} :
    x ∈ addedSet (.added start size :: log) ↔ x ∈ Set.Ico start (start + size) ∨ x ∈ addedSet log := by
  constructor
  · rintro ⟨s, n, hm, hx⟩
    rcases List.mem_cons.mp hm with heq | hm
    · cases heq; exact Or.inl hx
    · exact Or.inr ⟨s, n, hm, hx⟩
  · intro h
    cases h with
    | inl h => exact ⟨start, size, by simp, h⟩
    | inr h => exact addedSet_cons_subset _ _ h

structure AllocInv (hdr : StartupHeader) (top : Nat) (l : List RamEntry) (av : List AvoidEntry)
    (log : List RamEvent) : Prop where
  wf : RamWF l
  free : freeSet l ⊆ addedSet log
  top : ∀ start size, .added start size ∈ log → start + size ≤ top
  avoidOk : AvoidOk av
  avoided : ∀ start size, .avoided start size ∈ log → Covered av (Set.Ico start (start + size))
  blocks : ∀ start size, .block start size ∈ log →
    Set.Ico start (start + size) ⊆ addedSet log ∧ Protected l av (Set.Ico start (start + size))
  startup : Covered av (Set.Ico hdr.ramPaddr (hdr.ramPaddr + hdr.startupSize))
  image : Disjoint (Set.Ico (hdr.ramPaddr + hdr.startupSize) (hdr.ramPaddr + hdr.ramSize)) (freeSet l)
  sound : Sound hdr log

namespace AllocInv

variable {hdr : StartupHeader} {top : Nat} {l l' : List RamEntry} {av : List AvoidEntry} {log : List RamEvent}

/-- 空いている項目は、加えられた RAM の上限を超えない。 -/
theorem entry_le_top (h : AllocInv hdr top l av log) {r : RamEntry} (hr : r ∈ l) :
    0 < r.size ∧ r.addr + r.size ≤ top := by
  refine ⟨h.wf.size_pos hr, h.wf.end_le (fun x hx => ?_) hr⟩
  obtain ⟨start, size, hadd, hx⟩ := h.free hx
  exact hx.2.trans_le (h.top start size hadd)

theorem fits_le_top (h : AllocInv hdr top l av log) {a n : Nat} (hfit : Fits l av a n) : a + n ≤ top := by
  obtain ⟨⟨r, hr, _, hle⟩, _⟩ := hfit
  exact hle.trans (h.entry_le_top hr).2

/-- 空いている範囲は、ブロックとして渡してよい。 -/
theorem blockSound (h : AllocInv hdr top l av log) {a n : Nat} (hfit : Fits l av a n) :
    BlockSound hdr log (Set.Ico a (a + n)) where
  added := hfit.subset_free.trans h.free
  image := by
    have h1 := hfit.disjoint_protected (Or.inr h.startup)
    have h2 := hfit.disjoint_protected (Or.inl h.image)
    refine Set.disjoint_left.mpr fun x hx hximg => ?_
    by_cases hxs : x < hdr.ramPaddr + hdr.startupSize
    · exact Set.disjoint_left.mp h1 hx ⟨hximg.1, hxs⟩
    · exact Set.disjoint_left.mp h2 hx ⟨Nat.le_of_not_lt hxs, hximg.2⟩
  avoided := fun s m hm => hfit.disjoint_protected (Or.inr (h.avoided s m hm))
  blocks := fun s m hm => hfit.disjoint_protected (h.blocks s m hm).2

/-- `avoid_ram()` の一歩。 -/
theorem avoid (h : AllocInv hdr top l av log) {start size : Nat} (hb : start + size < 2 ^ 32)
    (h0 : start + size ≠ 0) :
    AllocInv hdr top l (av ++ [⟨start, wrap32 (start + size)⟩]) (.avoided start size :: log) where
  wf := h.wf
  free := h.free.trans (addedSet_cons_subset _ _)
  top := fun s n hm => h.top s n (by simpa using hm)
  avoidOk := by
    intro a ha
    rcases List.mem_append.mp ha with ha | ha
    · exact h.avoidOk a ha
    · rw [List.mem_singleton] at ha
      subst ha
      simp only [wrap32_of_lt hb]
      exact ⟨h0, Nat.le_add_right _ _⟩
  avoided := by
    intro s n hm
    rcases List.mem_cons.mp hm with heq | hm
    · cases heq
      exact ⟨⟨start, wrap32 (start + size)⟩, by simp, by rw [wrap32_of_lt hb]⟩
    · exact (h.avoided s n hm).append
  blocks := by
    intro s n hm
    obtain ⟨h1, h2⟩ := h.blocks s n (by simpa using hm)
    exact ⟨h1.trans (addedSet_cons_subset _ _), h2.imp_right Covered.append⟩
  startup := h.startup.append
  image := h.image
  sound := h.sound

/-- ブロックの記録の一歩。渡した後のブロックが守られていればよい。 -/
theorem block (h : AllocInv hdr top l av log) {a n : Nat} (hfit : Fits l av a n) (hwf : RamWF l')
    (hsub : freeSet l' ⊆ freeSet l) (hprot : Protected l' av (Set.Ico a (a + n))) :
    AllocInv hdr top l' av (.block a n :: log) where
  wf := hwf
  free := hsub.trans (h.free.trans (addedSet_cons_subset _ _))
  top := fun s n hm => h.top s n (by simpa using hm)
  avoidOk := h.avoidOk
  avoided := fun s n hm => h.avoided s n (by simpa using hm)
  blocks := by
    intro s m hm
    rcases List.mem_cons.mp hm with heq | hm
    · cases heq
      exact ⟨(h.blockSound hfit).added.trans (addedSet_cons_subset _ _), hprot⟩
    · obtain ⟨h1, h2⟩ := h.blocks s m hm
      exact ⟨h1.trans (addedSet_cons_subset _ _), h2.imp_left fun hd => hd.mono_right hsub⟩
  startup := h.startup
  image := h.image.mono_right hsub
  sound := ⟨h.blockSound hfit, h.sound⟩

/-- `ws_alloc()` の一歩。ブロックは、同時に加えた避ける範囲で守られる。 -/
theorem ws (h : AllocInv hdr top l av log) {a n size : Nat} (hfit : Fits l av a n) (hsize : size ≤ n)
    (hb : a + n < 2 ^ 32) (h0 : a + n ≠ 0) :
    AllocInv hdr top l (av ++ [⟨a, wrap32 (a + n)⟩]) (.avoided a n :: .block a size :: log) := by
  have hav := h.avoid hb h0
  have hsound := h.blockSound (hfit.shorter hsize)
  have hsub : Set.Ico a (a + size) ⊆ Set.Ico a (a + n) := Set.Ico_subset_Ico_right (by omega)
  have hcov : Covered (av ++ [⟨a, wrap32 (a + n)⟩]) (Set.Ico a (a + size)) :=
    ⟨_, List.mem_append_right _ (List.mem_singleton.mpr rfl), by rw [wrap32_of_lt hb]; exact hsub⟩
  have hadded : ∀ {s m}, .added s m ∈ RamEvent.avoided a n :: .block a size :: log → RamEvent.added s m ∈ log := by
    intro s m hm; simpa using hm
  have hlog : addedSet log ⊆ addedSet (.avoided a n :: .block a size :: log) :=
    (addedSet_cons_subset _ _).trans (addedSet_cons_subset _ _)
  exact {
    wf := h.wf
    free := h.free.trans hlog
    top := fun s m hm => h.top s m (hadded hm)
    avoidOk := hav.avoidOk
    avoided := fun s m hm => hav.avoided s m (by simpa using hm)
    blocks := by
      intro s m hm
      rcases List.mem_cons.mp (show RamEvent.block s m ∈ .block a size :: log by simpa using hm) with heq | hm
      · cases heq; exact ⟨hsound.added.trans hlog, Or.inr hcov⟩
      · obtain ⟨h1, h2⟩ := h.blocks s m hm
        exact ⟨h1.trans hlog, h2.imp_right Covered.append⟩
    startup := h.startup.append
    image := h.image
    sound := ⟨hsound, h.sound⟩ }

/-- `add_ram()` の前半の一歩。新しい範囲は、渡し済みのどのブロックとも重ならない。 -/
theorem add (h : AllocInv hdr top l av log) {start size : Nat} (htop : start + size ≤ top)
    (hfresh : Disjoint (Set.Ico start (start + size)) (addedSet log)) (hwf : RamWF l')
    (hfree : freeSet l' = (freeSet l ∪ Set.Ico start (start + size)) \
      Set.Ico (hdr.ramPaddr + hdr.startupSize) (hdr.ramPaddr + hdr.ramSize)) :
    AllocInv hdr top l' av (.added start size :: log) where
  wf := hwf
  free := by
    intro x hx
    rw [hfree] at hx
    exact mem_addedSet_added.mpr (hx.1.symm.imp_right fun hl => h.free hl)
  top := by
    intro s n hm
    rcases List.mem_cons.mp hm with heq | hm
    · cases heq; exact htop
    · exact h.top s n hm
  avoidOk := h.avoidOk
  avoided := fun s n hm => h.avoided s n (by simpa using hm)
  blocks := by
    intro s n hm
    obtain ⟨h1, h2⟩ := h.blocks s n (by simpa using hm)
    refine ⟨h1.trans (addedSet_cons_subset _ _), h2.imp_left fun hd => ?_⟩
    rw [hfree]
    refine Disjoint.mono_right Set.sdiff_subset (Set.disjoint_union_right.mpr ⟨hd, ?_⟩)
    exact (hfresh.mono_right h1).symm
  startup := h.startup
  image := by
    rw [hfree]; exact Set.disjoint_sdiff_right
  sound := h.sound

end AllocInv

/-! ## 呼び出しごとの保存 -/

section

variable {hdr : StartupHeader} {top : Nat}

/-- 状態と記録についての不変条件。 -/
abbrev RamTrace.Inv (hdr : StartupHeader) (top : Nat) (t : RamTrace) : Prop :=
  AllocInv hdr top t.ram.ramList t.ram.avoidList t.log

theorem addedSet_apart {log : List RamEvent} {start size : Nat} (h : ∀ e ∈ log, e.Apart start size) :
    Disjoint (Set.Ico start (start + size)) (addedSet log) := by
  refine Set.disjoint_left.mpr ?_
  rintro x hx ⟨s, n, hm, hxs⟩
  exact h _ hm ⟨x, hx, hxs⟩

/-- `alloc_ram()` に番地 `a` が決まったときの一歩。 -/
theorem allocRam_inv {t : RamTrace} {s' : Ram} {addr size align a : Nat} (htop : top < 2 ^ 32)
    (h : t.Inv hdr top) (hfit : Fits t.ram.ramList t.ram.avoidList a size) (ha : a ≠ nullPaddr)
    (hs : allocRam t.ram addr size align = .ok (s', a)) :
    AllocInv hdr top s'.ramList s'.avoidList (.block a size :: t.log) := by
  obtain ⟨hwf, hfree⟩ := allocRam_free h.wf ha ((h.fits_le_top hfit).trans_lt htop) hs
  rw [(allocRam_avoidList hs).1]
  refine h.block hfit hwf (by rw [hfree]; exact Set.sdiff_subset) (Or.inl ?_)
  rw [hfree]; exact Set.disjoint_sdiff_right

/-- `alloc_ram(NULL_PADDR, ...)` の一歩。 -/
theorem allocRam_null_inv {t : RamTrace} {s' : Ram} {size align a : Nat} (halign : IsAlign align)
    (htop : top + align ≤ 2 ^ 32) (h : t.Inv hdr top) (hs : allocRam t.ram nullPaddr size align = .ok (s', a)) :
    AllocInv hdr top s'.ramList s'.avoidList (blockEvents a size ++ t.log) := by
  have hpos := halign.pos
  obtain ⟨haddr, ⟨rfl, rfl⟩ | ⟨ha, _⟩⟩ := allocRam_ok hs
  · exact h
  · simp only [blockEvents, if_neg ha, List.singleton_append]
    simp only [allocAddr, ↓reduceIte] at haddr
    refine allocRam_inv (by omega) h ?_ ha hs
    rw [haddr] at ha ⊢
    refine findRam_fits h.avoidOk halign (fun r hr => ?_) ha
    have := h.entry_le_top hr
    exact ⟨this.1, by omega⟩

theorem reserveRam_inv {t : RamTrace} {s' : Ram} {size align pagesize : Nat} {r : Option Nat}
    (hpage : IsAlign pagesize) (hsize : size + pagesize ≤ 2 ^ 32) (htop : top < 2 ^ 32) (h : t.Inv hdr top)
    (hs : reserveRam t.ram size align pagesize = .ok (s', r)) :
    AllocInv hdr top s'.ramList s'.avoidList (r.toList.map (RamEvent.block · size) ++ t.log) := by
  rcases reserveRam_ok hs with ⟨_, rfl, rfl⟩ | ⟨al, a, s₁, as, ha, hnull, hs₁, rfl, rfl⟩
  · exact h
  · have hfit := findTopRamAligned_fits h.avoidOk size al pagesize
      (fun r hr => (h.entry_le_top hr).1) (ha ▸ hnull)
    rw [← ha] at hfit
    have hinv := allocRam_inv htop h (hfit.shorter (hpage.le_round hsize)) hnull hs₁
    exact hinv

theorem wsAlloc_inv {t : RamTrace} {size : Nat} (htop : top + 8 ≤ 2 ^ 32) (h : t.Inv hdr top)
    (hok : NoDefect t (.wsAlloc size)) :
    AllocInv hdr top (wsAlloc t.ram size).1.ramList (wsAlloc t.ram size).1.avoidList
      (wsEvents t.ram size ++ t.log) := by
  obtain ⟨hne, hsize, hzero⟩ := hok
  have hlist : ¬ ramListSize t.ram.ramList ≤ 16 := by
    have := List.length_pos_iff.mpr hne
    simp only [ramListSize]; omega
  simp only [wsAlloc, wsEvents, wsPlace, if_neg hlist]
  by_cases hfind : findRam t.ram (round size 8) 8 0 0 = nullPaddr
  · simp only [if_pos hfind, List.nil_append]; exact h
  · simp only [if_neg hfind, avoidRam]
    have hfit := findRam_fits h.avoidOk isAlign_eight
      (fun r hr => ⟨(h.entry_le_top hr).1, by have := (h.entry_le_top hr).2; omega⟩) hfind
    have hle := isAlign_eight.le_round hsize
    have hlt := (h.fits_le_top hfit).trans_lt (show top < 2 ^ 32 by omega)
    refine h.ws hfit hle hlt fun h0 => hzero ?_
    -- 番地も大きさも 0 のときだけ、項目の `end` が 0 になる。
    obtain ⟨haddr, hround⟩ := Nat.add_eq_zero_iff.mp h0
    have hsize0 : size = 0 := by omega
    subst hsize0
    exact ⟨rfl, haddr⟩

theorem addRam_inv {t : RamTrace} {s' : Ram} {start size : Nat} {temp : Option Nat} (hhdr : HeaderOk hdr)
    (htop : top + pageSize ≤ 2 ^ 32) (h : t.Inv hdr top) (hle : start + size ≤ top)
    (hfresh : ∀ e ∈ t.log, e.Apart start size) (hs : addRam hdr t.ram start size = .ok (s', temp)) :
    AllocInv hdr top s'.ramList s'.avoidList
      (temp.toList.map (RamEvent.avoided · tempSyspageSize) ++ [.added start size] ++ t.log) := by
  have hb := hhdr.bound
  have hsl := hhdr.startup_le
  simp only [pageSize] at htop
  obtain ⟨s₁, hs₁, hs⟩ := Except.bind_eq_ok.mp hs
  obtain ⟨as, l, a, hl, ha⟩ := addRamList_ok hs₁
  obtain ⟨hav, _⟩ := allocRam_avoidList ha
  -- イメージの残りを取り除く `alloc_ram()` の引数は桁あふれしない。
  have haddr : wrap32 (hdr.ramPaddr + hdr.startupSize) = hdr.ramPaddr + hdr.startupSize :=
    wrap32_of_lt (by omega)
  have hrest : wrap32 (hdr.ramSize + (2 ^ 32 - hdr.startupSize)) = hdr.ramSize - hdr.startupSize := by
    unfold wrap32; omega
  rw [haddr, hrest] at ha
  have hnull : hdr.ramPaddr + hdr.startupSize ≠ nullPaddr := by
    simp only [nullPaddr, maxAvoidListSize, maxRamListSize] at hb ⊢; omega
  have haeq : a = hdr.ramPaddr + hdr.startupSize := by
    rw [(allocRam_ok ha).1, allocAddr, if_neg hnull]
  subst haeq
  obtain ⟨hwf, hfree⟩ := addMem_wf h.wf (by omega) hl
  obtain ⟨hwf₁, hfree₁⟩ := allocRam_free hwf hnull (by omega) ha
  rw [show hdr.ramPaddr + hdr.startupSize + (hdr.ramSize - hdr.startupSize) = hdr.ramPaddr + hdr.ramSize by omega]
    at hfree₁
  dsimp only at hfree₁ hav
  rw [hfree] at hfree₁
  have hinv := h.add hle (addedSet_apart hfresh) hwf₁ hfree₁
  rw [← hav] at hinv
  simp only [pure, Except.pure, Except.ok.injEq, placeTempSyspage] at hs
  split at hs
  · split at hs
    · rename_i hfind
      cases hs
      simp only [ne_eq] at hfind
      have hfit := findRam_fits (s := s₁) hinv.avoidOk isAlign_page
        (fun r hr => ⟨(hinv.entry_le_top hr).1, by have := (hinv.entry_le_top hr).2; simp only [pageSize]; omega⟩) hfind
      have hlt := (hinv.fits_le_top hfit).trans_lt (show top < 2 ^ 32 by omega)
      exact hinv.avoid hlt (by have : 0 < tempSyspageSize := by decide
                               omega)
    · cases hs; exact hinv
  · cases hs; exact hinv

/-- 前提を満たすどの呼び出しも、不変条件を保つ。 -/
theorem RamTrace.Inv.step (hhdr : HeaderOk hdr) (htop : top + pageSize ≤ 2 ^ 32) {t t' : RamTrace} {c : RamCall}
    (h : t.Inv hdr top) (hdom : InDomain hdr top t c) (hok : NoDefect t c) (hs : t.step hdr c = .ok t') :
    t'.Inv hdr top := by
  obtain ⟨⟨s', events⟩, hrun, hs⟩ := Except.bind_eq_ok.mp hs
  cases hs
  have hpage : pageSize = 4096 := rfl
  obtain ⟨_, hdom⟩ := hdom
  cases c with
  | addRam start size =>
      obtain ⟨⟨s₁, temp⟩, hs₁, hrun⟩ := Except.bind_eq_ok.mp hrun
      cases hrun
      exact addRam_inv hhdr htop h hdom.1 hdom.2 hs₁
  | avoidRam start size =>
      cases hrun
      exact h.avoid hdom.2 hok
  | wsAlloc size =>
      cases hrun
      exact wsAlloc_inv (by omega) h hok
  | watchAddRam func => exact hdom.elim
  | allocRam addr size align =>
      obtain ⟨_, rfl, halign, hle⟩ := hdom
      obtain ⟨⟨s₁, a⟩, hs₁, hrun⟩ := Except.bind_eq_ok.mp hrun
      cases hrun
      exact allocRam_null_inv halign hle h hs₁
  | callocRam size align =>
      obtain ⟨_, halign, hle⟩ := hdom
      obtain ⟨⟨s₁, m, a⟩, hs₁, hrun⟩ := Except.bind_eq_ok.mp hrun
      cases hrun
      exact allocRam_null_inv halign hle h (callocRam_ok hs₁)
  | reserveRam size align pagesize =>
      obtain ⟨_, _, hpagesize⟩ := hdom
      obtain ⟨⟨s₁, r⟩, hs₁, hrun⟩ := Except.bind_eq_ok.mp hrun
      cases hrun
      exact reserveRam_inv hpagesize hok (by omega) h hs₁

/-- `ws_init()` を終えた `avoid_list`。 -/
theorem wsInit_eq (hhdr : HeaderOk hdr) : ∃ next, hdr.ramPaddr + hdr.ramSize ≤ next ∧ next + 4096 < 2 ^ 32 ∧
    (wsInit hdr).ramList = [] ∧
    (wsInit hdr).avoidList = [⟨next, next + 1024⟩, ⟨next + 1024, next + 4096⟩,
      ⟨hdr.ramPaddr, hdr.ramPaddr + hdr.startupSize⟩] := by
  have hb := hhdr.bound
  have hsl := hhdr.startup_le
  simp only [maxAvoidListSize, maxRamListSize] at hb
  have hle := isAlign_eight.le_round (x := hdr.ramPaddr + hdr.ramSize) (by omega)
  have hlt : round (hdr.ramPaddr + hdr.ramSize) 8 < hdr.ramPaddr + hdr.ramSize + 8 := by
    rw [isAlign_eight.round_eq (by omega)]; exact roundUp_lt _ (by decide)
  have h1 : round maxAvoidListSize 8 = 1024 := by decide
  have h2 : round maxRamListSize 8 = 3072 := by decide
  refine ⟨round (hdr.ramPaddr + hdr.ramSize) 8, hle, by omega, ?_⟩
  have hw1 : wrap32 (round (hdr.ramPaddr + hdr.ramSize) 8 + 1024) =
      round (hdr.ramPaddr + hdr.ramSize) 8 + 1024 := wrap32_of_lt (by omega)
  have hw2 : wrap32 (round (hdr.ramPaddr + hdr.ramSize) 8 + 1024 + 3072) =
      round (hdr.ramPaddr + hdr.ramSize) 8 + 4096 := wrap32_of_lt (by omega)
  have hw3 : wrap32 (hdr.ramPaddr + hdr.startupSize) = hdr.ramPaddr + hdr.startupSize := wrap32_of_lt (by omega)
  simp [wsInit, wsAlloc, wsPlace, avoidRam, ramListSize, h1, h2, hw1, hw2, hw3]

theorem RamTrace.init_inv (hhdr : HeaderOk hdr) : (RamTrace.init hdr).Inv hdr top := by
  obtain ⟨next, hle, hlt, hl, hav⟩ := wsInit_eq hhdr
  have hpos := hhdr.startup_pos
  simp only [RamTrace.Inv, RamTrace.init, hl, hav]
  exact {
    wf := .nil
    free := by simp [freeSet]
    top := by simp
    avoidOk := by simp [AvoidOk]; omega
    avoided := by
      intro start size hm
      obtain ⟨a, ha, heq⟩ := List.mem_map.mp hm
      cases heq
      refine ⟨a, ha, fun x hx => ?_⟩
      simp only [Set.mem_Ico] at hx ⊢; omega
    blocks := by simp
    startup := ⟨⟨hdr.ramPaddr, hdr.ramPaddr + hdr.startupSize⟩, by simp, subset_rfl⟩
    image := by simp [freeSet]
    sound := by simp [Sound] }

end

end Imx6Bsp.Startup
