import Imx6Bsp.Startup.Lemmas.FindRam

/-!
# `"sysram"` の項目

`add_sysram()` は `ram_list` の範囲ごとに `"sysram"` の項目を作り、`alloc_ram()` はその項目から範囲を切り抜く。
`"sysram"` の項目の区間の並びが、切り抜きの計算と並べ替えを除いて一致することを示す。
-/

namespace Imx6Bsp.Startup

open Imx6Bsp.Lib

/-! ## 項目の区間 -/

/-- 項目が表す番地の範囲。`end` はその番地を含むので、半開区間にする。 -/
def AsinfoEntry.span (e : AsinfoEntry) : Span Nat := ⟨e.start, e.stop + 1⟩

/-- `"sysram"` の項目の区間。 -/
def sysrams (as : Asinfo) : List (Span Nat) := (as.filter (·.name = "sysram")).map AsinfoEntry.span

theorem sysrams_append (as as' : Asinfo) : sysrams (as ++ as') = sysrams as ++ sysrams as' := by
  simp [sysrams]

theorem sysrams_cons (e : AsinfoEntry) (as : Asinfo) :
    sysrams (e :: as) = (if e.name = "sysram" then [e.span] else []) ++ sysrams as := by
  by_cases h : e.name = "sysram"
  · simp [sysrams, h]
  · simp [sysrams, h]

theorem mem_sysrams {as : Asinfo} {t : Span Nat} :
    t ∈ sysrams as ↔ ∃ e ∈ as, e.name = "sysram" ∧ e.span = t := by
  simp [sysrams, and_assoc]

theorem AsinfoEntry.touches_iff {e : AsinfoEntry} {start stop : Nat} (he : e.start ≤ e.stop) (h : start ≤ stop) :
    e.touches start stop = true ↔ e.start ≤ stop ∧ start ≤ e.stop := by
  simp only [AsinfoEntry.touches, Bool.or_eq_true, Bool.and_eq_true, decide_eq_true_eq]
  omega

/-! ## 属性を除いた表 -/

/-- 属性を除いた表。探索は属性を読まないので、探索の結果は属性によらない。 -/
def strip (as : Asinfo) : Asinfo := as.map fun e => { e with attr := {} }

theorem strip_getElem? (as : Asinfo) (i : Nat) : (strip as)[i]? = as[i]?.map fun e => { e with attr := {} } := by
  simp [strip]

theorem strip_length (as : Asinfo) : (strip as).length = as.length := by simp [strip]

theorem strip_modify_attr (as : Asinfo) (i : Nat) (f : AsAttr → AsAttr) :
    strip (as.modify i (fun w => { w with attr := f w.attr })) = strip as := by
  apply List.ext_getElem?
  intro j
  simp only [strip, List.getElem?_map, List.getElem?_modify]
  cases as[j]? with
  | none => simp
  | some e => by_cases h : i = j <;> simp [h]

theorem strip_markKids (as : Asinfo) (o : Option Nat) : strip (markKids as o) = strip as := by
  cases o with
  | none => rfl
  | some o => exact strip_modify_attr as o fun a => { a with kids := true }

theorem strip_asAdd (as : Asinfo) (start stop : Nat) {attr : AsAttr} (name : String) (owner : Option Nat)
    (h : attr.overlayIo = false) : strip (asAdd as start stop attr name owner).1 =
      strip as ++ [⟨wrap32 start, wrap32 stop, owner, name, {}⟩] := by
  simp only [asAdd, asAdd64, h, Bool.false_eq_true, ↓reduceIte, strip_markKids]
  simp [strip]

theorem asAdd_length (as : Asinfo) (start stop : Nat) {attr : AsAttr} (name : String) (owner : Option Nat)
    (h : attr.overlayIo = false) : (asAdd as start stop attr name owner).1.length = as.length + 1 := by
  have := congrArg List.length (strip_asAdd as start stop name owner h)
  simpa [strip_length] using this

theorem matchName_strip (as : Asinfo) (name : String) (fuel i : Nat) :
    matchName (strip as) name fuel i = matchName as name fuel i := by
  induction fuel generalizing i with
  | zero => rfl
  | succ fuel ih =>
      simp only [matchName, strip_getElem?]
      cases as[i]? with
      | none => rfl
      | some e =>
          simp only [Option.map_some]
          cases e.owner with
          | none => rfl
          | some o => simp only [ih]

theorem sysrams_strip (as : Asinfo) : sysrams (strip as) = sysrams as := by
  simp only [sysrams, strip, List.filter_map, List.map_map]
  rfl

/-! ## `"sysram"` の項目の探索 -/

/-- `"sysram"` の項目を持ち主とする項目はない。 -/
def SysramLeaf (as : Asinfo) : Prop :=
  ∀ e ∈ as, ∀ o, e.owner = some o → ∃ w, as[o]? = some w ∧ w.name ≠ "sysram"

theorem matchName_not_sysram {as : Asinfo} (h : SysramLeaf as) (fuel : Nat) :
    ∀ {i : Nat} {e : AsinfoEntry}, as[i]? = some e → e.name ≠ "sysram" → matchName as "sysram" fuel i = false := by
  induction fuel with
  | zero => intros; rfl
  | succ fuel ih =>
      intro i e he hne
      simp only [matchName, he, hne, ↓reduceIte]
      cases ho : e.owner with
      | none => rfl
      | some o =>
          obtain ⟨w, hw, hwne⟩ := h e (List.mem_of_getElem? he) o ho
          exact ih hw hwne

/-- `alloc_ram()` が `"sysram"` の項目を直す条件。 -/
def SysramTouched (addr stop : Nat) (e : AsinfoEntry) : Bool := e.name = "sysram" && e.touches addr stop

theorem asContains_sysram {as : Asinfo} (h : SysramLeaf as) {addr stop i : Nat} {e : AsinfoEntry}
    (he : as[i]? = some e) : asContains as addr stop "sysram" i = SysramTouched addr stop e := by
  have hpos : 0 < as.length := Nat.lt_of_le_of_lt (Nat.zero_le i) (List.getElem?_eq_some_iff.mp he).1
  simp only [asContains, SysramTouched, he, Option.any_some]
  congr 1
  by_cases hname : e.name = "sysram"
  · obtain ⟨n, hn⟩ : ∃ n, as.length = n + 1 := ⟨as.length - 1, by omega⟩
    simp [hn, matchName, he, hname]
  · rw [matchName_not_sysram h _ he hname]; simp [hname]

/-- 探索を始める位置。 -/
def scanFrom : Option Nat → Nat
  | none => 0
  | some o => o + 1

theorem asFindContaining_none {as : Asinfo} (h : SysramLeaf as) {off : Option Nat} {addr stop : Nat}
    (hfind : asFindContaining as off addr stop "sysram" = none) :
    ∀ e ∈ as.drop (scanFrom off), SysramTouched addr stop e = false := by
  have hall := List.find?_range'_eq_none.mp hfind
  intro e he
  obtain ⟨i, hi⟩ := List.mem_iff_getElem?.mp he
  rw [List.getElem?_drop] at hi
  have hlt := (List.getElem?_eq_some_iff.mp hi).1
  have := hall (scanFrom off + i) (Nat.le_add_right _ _) (by change _ < scanFrom off + (as.length - scanFrom off); omega)
  rw [asContains_sysram h hi] at this
  simpa using this

/-- 見つかった項目の前後で表を分ける。 -/
theorem asFindContaining_some {as : Asinfo} (h : SysramLeaf as) {off : Option Nat} {addr stop o : Nat}
    (hfind : asFindContaining as off addr stop "sysram" = some o) :
    ∃ pre w post, as = pre ++ w :: post ∧ pre.length = o ∧ scanFrom off ≤ o ∧ SysramTouched addr stop w = true ∧
      ∀ e ∈ pre.drop (scanFrom off), SysramTouched addr stop e = false := by
  obtain ⟨hp, hmem, hbefore⟩ := List.find?_range'_eq_some.mp hfind
  have hrange : scanFrom off ≤ o ∧ o < scanFrom off + (as.length - scanFrom off) := List.mem_range'_1.mp hmem
  have hlt : o < as.length := by omega
  refine ⟨as.take o, as[o], as.drop (o + 1), ?_, by simp; omega, hrange.1, ?_, ?_⟩
  · simp
  · rw [← asContains_sysram h (List.getElem?_eq_getElem hlt)]; exact hp
  · intro e he
    obtain ⟨i, hi⟩ := List.mem_iff_getElem?.mp he
    rw [List.getElem?_drop, List.getElem?_take] at hi
    split at hi
    · have := hbefore (scanFrom off + i) (Nat.le_add_right _ _) ‹_›
      rw [asContains_sysram h hi] at this
      simpa using this
    · cases hi

/-! ## 項目からの切り抜き -/

/-- `"sysram"` の項目は空でなく、番地の範囲に収まり、持ち主にならない。 -/
structure SysramOk (as : Asinfo) : Prop where
  leaf : SysramLeaf as
  valid : ∀ e ∈ as, e.name = "sysram" → e.start ≤ e.stop ∧ e.stop < 2 ^ 32

theorem sysramOk_strip {as : Asinfo} : SysramOk (strip as) ↔ SysramOk as := by
  have hget : ∀ {o : Nat}, (∃ w, (strip as)[o]? = some w ∧ w.name ≠ "sysram") ↔
      ∃ w, as[o]? = some w ∧ w.name ≠ "sysram" := by
    intro o
    rw [strip_getElem?]
    cases as[o]? with
    | none => simp
    | some e => simp
  constructor
  · intro h
    refine ⟨fun e he o ho => ?_, fun e he hname => ?_⟩
    · exact hget.mp (h.leaf { e with attr := {} } (List.mem_map_of_mem he) o ho)
    · exact h.valid { e with attr := {} } (List.mem_map_of_mem he) hname
  · intro h
    refine ⟨fun e he o ho => ?_, fun e he hname => ?_⟩
    · obtain ⟨e', he', rfl⟩ := List.mem_map.mp he
      exact hget.mpr (h.leaf e' he' o ho)
    · obtain ⟨e', he', rfl⟩ := List.mem_map.mp he
      exact h.valid e' he' hname

/-- `"sysram"` の項目の区間を直しても、整合は保たれる。 -/
theorem SysramOk.replace {pre post : Asinfo} {w v : AsinfoEntry} (h : SysramOk (pre ++ w :: post))
    (hname : v.name = w.name) (howner : v.owner = w.owner) (hvalid : v.start ≤ v.stop ∧ v.stop < 2 ^ 32) :
    SysramOk (pre ++ v :: post) := by
  have hmem : ∀ e ∈ pre ++ v :: post, e ∈ pre ++ w :: post ∨ e = v := by
    intro e he
    simp only [List.mem_append, List.mem_cons] at he ⊢; tauto
  refine ⟨fun e he o ho => ?_, fun e he hn => ?_⟩
  · obtain ⟨v, hv, hvn⟩ : ∃ v, (pre ++ w :: post)[o]? = some v ∧ v.name ≠ "sysram" := by
      rcases hmem e he with he | rfl
      · exact h.leaf e he o ho
      · exact h.leaf w (by simp) o (howner ▸ ho)
    by_cases hlt : o = pre.length
    · subst hlt
      simp only [List.getElem?_append_right le_rfl, Nat.sub_self, List.getElem?_cons_zero, Option.some.injEq] at hv ⊢
      subst hv
      exact ⟨v, rfl, hname ▸ hvn⟩
    · refine ⟨v, ?_, hvn⟩
      rw [← hv]
      rcases Nat.lt_or_gt_of_ne hlt with hlt | hlt
      · rw [List.getElem?_append_left hlt, List.getElem?_append_left hlt]
      · obtain ⟨k, hk⟩ : ∃ k, o - pre.length = k + 1 := ⟨o - pre.length - 1, by omega⟩
        rw [List.getElem?_append_right hlt.le, List.getElem?_append_right hlt.le, hk]
        simp
  · rcases hmem e he with he | rfl
    · exact h.valid e he hn
    · exact hvalid

/-- 持ち主が `"sysram"` でない項目を加えても、整合は保たれる。 -/
theorem SysramOk.append {as : Asinfo} {e : AsinfoEntry} (h : SysramOk as)
    (howner : ∀ o, e.owner = some o → ∃ w, as[o]? = some w ∧ w.name ≠ "sysram")
    (hvalid : e.start ≤ e.stop ∧ e.stop < 2 ^ 32) : SysramOk (as ++ [e]) := by
  have hkeep : ∀ o : Nat, (∃ w : AsinfoEntry, as[o]? = some w ∧ w.name ≠ "sysram") →
      ∃ w : AsinfoEntry, (as ++ [e])[o]? = some w ∧ w.name ≠ "sysram" := by
    rintro o ⟨w, hw, hwn⟩
    exact ⟨w, by rw [List.getElem?_append_left (List.getElem?_eq_some_iff.mp hw).1, hw], hwn⟩
  refine ⟨fun x hx o ho => hkeep o ?_, fun x hx hn => ?_⟩
  · rcases List.mem_append.mp hx with hx | hx
    · exact h.leaf x hx o ho
    · rw [List.mem_singleton] at hx
      exact howner o (hx ▸ ho)
  · rcases List.mem_append.mp hx with hx | hx
    · exact h.valid x hx hn
    · rw [List.mem_singleton] at hx
      rw [hx]; exact hvalid

/-- 位置 `k` より前に直す項目はなく、後ろに直す項目は `fuel` 未満である。 -/
structure Pending (addr stop fuel k : Nat) (as : Asinfo) : Prop where
  done : ∀ e ∈ as.take k, SysramTouched addr stop e = false
  count : (as.drop k).countP (SysramTouched addr stop) < fuel

theorem pending_strip {addr stop fuel k : Nat} {as : Asinfo} :
    Pending addr stop fuel k (strip as) ↔ Pending addr stop fuel k as := by
  have hcount : ((strip as).drop k).countP (SysramTouched addr stop) = (as.drop k).countP (SysramTouched addr stop) := by
    simp only [strip, ← List.map_drop, List.countP_map]; rfl
  constructor
  · intro h
    refine ⟨fun e he => ?_, hcount ▸ h.count⟩
    refine h.done { e with attr := {} } ?_
    rw [strip, ← List.map_take]; exact List.mem_map_of_mem he
  · intro h
    refine ⟨fun e he => ?_, hcount ▸ h.count⟩
    rw [strip, ← List.map_take] at he
    obtain ⟨e', he', rfl⟩ := List.mem_map.mp he
    exact h.done e' he'

theorem Pending.next {addr stop fuel k : Nat} {pre post ext : Asinfo} {w w' : AsinfoEntry}
    (h : Pending addr stop (fuel + 1) k (pre ++ w :: post)) (hk : k ≤ pre.length)
    (hw : SysramTouched addr stop w = true) (hpre : ∀ e ∈ pre.drop k, SysramTouched addr stop e = false)
    (hw' : SysramTouched addr stop w' = false) (hext : ∀ e ∈ ext, SysramTouched addr stop e = false) :
    Pending addr stop fuel (pre.length + 1) (pre ++ w' :: post ++ ext) := by
  have hdone : ∀ e ∈ pre, SysramTouched addr stop e = false := by
    intro e he
    rw [← List.take_append_drop k pre, List.mem_append] at he
    rcases he with he | he
    · exact h.done e (by rw [List.take_append_of_le_length hk]; exact he)
    · exact hpre e he
  refine ⟨fun e he => ?_, ?_⟩
  · have htake : (pre ++ w' :: post ++ ext).take (pre.length + 1) = pre ++ [w'] := by
      simp [List.take_append, List.take_of_length_le]
    rw [htake, List.mem_append, List.mem_singleton] at he
    rcases he with he | rfl
    · exact hdone e he
    · exact hw'
  · have hdrop : (pre ++ w' :: post ++ ext).drop (pre.length + 1) = post ++ ext := by
      simp [List.drop_append]
    have hcount := h.count
    rw [List.drop_append_of_le_length hk, List.countP_append, List.countP_cons_of_pos hw] at hcount
    have hext0 : ext.countP (SysramTouched addr stop) = 0 := List.countP_eq_zero.mpr fun e he => by simp [hext e he]
    rw [hdrop, List.countP_append, hext0]
    omega

section

variable {addr stop : Nat}

theorem sysramTouched_false {e : AsinfoEntry} (hle : addr ≤ stop) (he : e.start ≤ e.stop)
    (h : e.stop < addr ∨ stop < e.start) : SysramTouched addr stop e = false := by
  have htouch : e.touches addr stop = false := by
    rw [Bool.eq_false_iff, ne_eq, AsinfoEntry.touches_iff he hle]; omega
  simp [SysramTouched, htouch]

/-- 直す項目がなければ、切り抜きは区間の並びを変えない。 -/
theorem sysrams_carve_eq_self {as : Asinfo} (hle : addr ≤ stop) (h : SysramOk as)
    (hnone : ∀ e ∈ as, SysramTouched addr stop e = false) :
    (sysrams as).flatMap (Span.carve ⟨addr, stop + 1⟩) = sysrams as := by
  refine flatMap_carve_eq_self (by dsimp only; omega) ?_ ?_
  · intro t ht
    obtain ⟨e, he, hname, rfl⟩ := mem_sysrams.mp ht
    have := (h.valid e he hname).1
    simp only [AsinfoEntry.span]; omega
  · intro t ht
    obtain ⟨e, he, hname, rfl⟩ := mem_sysrams.mp ht
    have hvalid := (h.valid e he hname).1
    have htouch : ¬ (e.touches addr stop = true) := by
      have := hnone e he
      simpa [SysramTouched, hname] using this
    rw [AsinfoEntry.touches_iff hvalid hle] at htouch
    simp only [AsinfoEntry.span]; omega

/-- 見つかった項目を、切り抜いた残りに置き換えた表。 -/
theorem sysrams_replace {pre post : Asinfo} {w w' : AsinfoEntry} {ext : List (Span Nat)} (hw : w.name = "sysram")
    (hw' : w'.name = "sysram") {cut : Span Nat} (hcarve : Span.carve cut w.span = w'.span :: ext)
    (hself : ∀ t ∈ w'.span :: ext, Span.carve cut t = [t]) :
    ((sysrams (pre ++ w' :: post) ++ ext).flatMap (Span.carve cut)).Perm
      ((sysrams (pre ++ w :: post)).flatMap (Span.carve cut)) := by
  have hext : ext.flatMap (Span.carve cut) = ext := by
    have : ext.flatMap (Span.carve cut) = ext.flatMap (fun t => [t]) :=
      List.flatMap_congr fun t ht => hself t (by simp [ht])
    simp [this]
  have hhead := hself w'.span (by simp)
  simp only [sysrams_append, sysrams_cons, hw, hw', ↓reduceIte, List.flatMap_append, List.flatMap_cons,
    List.flatMap_nil, List.append_nil, hcarve, hhead, hext, List.append_assoc]
  refine List.Perm.append_left _ (List.Perm.cons _ ?_)
  change (_ ++ ext).Perm (ext ++ _)
  exact List.perm_append_comm

/-- `alloc_ram()` の `"sysram"` の項目を直す繰り返しは、区間の並びから範囲を切り抜く。 -/
theorem allocSysramWalk_perm (hle : addr ≤ stop) (hstop : stop < 2 ^ 32) (fuel : Nat) :
    ∀ (off : Option Nat) (as as' : Asinfo), SysramOk as → Pending addr stop fuel (scanFrom off) as →
    allocSysramWalk addr stop fuel off as = .ok as' →
    SysramOk as' ∧ (sysrams as').Perm ((sysrams as).flatMap (Span.carve ⟨addr, stop + 1⟩)) := by
  induction fuel with
  | zero => intro off as as' _ hpend _; exact absurd hpend.count (by omega)
  | succ fuel ih =>
      intro off as as' hok hpend h
      simp only [allocSysramWalk, wrap32_of_lt hstop] at h
      cases hfind : asFindContaining as off addr stop "sysram" with
      | none =>
          rw [hfind] at h
          cases h
          have hnone : ∀ e ∈ as, SysramTouched addr stop e = false := by
            intro e he
            rw [← List.take_append_drop (scanFrom off) as, List.mem_append] at he
            rcases he with he | he
            · exact hpend.done e he
            · exact asFindContaining_none hok.leaf hfind e he
          rw [sysrams_carve_eq_self hle hok hnone]
          exact ⟨hok, List.Perm.refl _⟩
      | some o =>
          obtain ⟨pre, w, post, rfl, rfl, hk, hw, hpre⟩ := asFindContaining_some hok.leaf hfind
          have hget : (pre ++ w :: post)[pre.length]? = some w := by simp
          rw [hfind] at h
          simp only [hget] at h
          obtain ⟨hname, htouch⟩ := Bool.and_eq_true_iff.mp hw
          have hname := of_decide_eq_true hname
          obtain ⟨hv1, hv2⟩ := hok.valid w (by simp) hname
          rw [AsinfoEntry.touches_iff hv1 hle] at htouch
          -- 置き換えた表に帰納法の仮定を使う、共通の議論。
          have next : ∀ (w' : AsinfoEntry) (ext as₁ : Asinfo), w'.name = w.name → w'.owner = w.owner →
              w'.start ≤ w'.stop ∧ w'.stop < 2 ^ 32 → (w'.stop < addr ∨ stop < w'.start) →
              (∀ e ∈ ext, e.name = "sysram" ∧ e.start ≤ e.stop ∧ stop < e.start) →
              strip as₁ = strip (pre ++ w' :: post ++ ext) → SysramOk (pre ++ w' :: post ++ ext) →
              Span.carve ⟨addr, stop + 1⟩ w.span = w'.span :: ext.map AsinfoEntry.span →
              allocSysramWalk addr stop fuel (some pre.length) as₁ = .ok as' →
              SysramOk as' ∧ (sysrams as').Perm
                ((sysrams (pre ++ w :: post)).flatMap (Span.carve ⟨addr, stop + 1⟩)) := by
            intro w' ext as₁ hn' ho' hv' hout hext hstrip hok₁ hcarve hrun
            have hpend₁ : Pending addr stop fuel (pre.length + 1) as₁ := by
              rw [← pending_strip, hstrip, pending_strip]
              refine hpend.next hk hw hpre (sysramTouched_false hle hv'.1 hout) fun e he => ?_
              exact sysramTouched_false hle (hext e he).2.1 (Or.inr (hext e he).2.2)
            have hok₂ : SysramOk as₁ := by rw [← sysramOk_strip, hstrip, sysramOk_strip]; exact hok₁
            obtain ⟨hok', hperm⟩ := ih (some pre.length) as₁ as' hok₂ hpend₁ hrun
            refine ⟨hok', hperm.trans ?_⟩
            have hsys : sysrams as₁ = sysrams (pre ++ w' :: post) ++ ext.map AsinfoEntry.span := by
              rw [← sysrams_strip as₁, hstrip, sysrams_strip, sysrams_append]
              congr 1
              rw [sysrams, List.filter_eq_self.mpr]
              intro e he; simp [(hext e he).1]
            rw [hsys]
            refine sysrams_replace hname (hn'.trans hname) hcarve fun t ht => ?_
            rcases List.mem_cons.mp ht with rfl | ht
            · exact Span.carve_eq_self (by simp only [AsinfoEntry.span]; omega) (by dsimp only; omega)
                (by simp only [AsinfoEntry.span]; omega)
            · obtain ⟨e, he, rfl⟩ := List.mem_map.mp ht
              obtain ⟨_, h1, h2⟩ := hext e he
              exact Span.carve_eq_self (by simp only [AsinfoEntry.span]; omega) (by dsimp only; omega)
                (Or.inr (by simp only [AsinfoEntry.span]; omega))
          have hset : ∀ w', (pre ++ w :: post).set pre.length w' = pre ++ w' :: post := by
            intro w'; simp
          have he : (if stop > w.stop then stop else w.stop) = max stop w.stop := by split <;> omega
          have hs : (if addr < w.start then addr else w.start) = min addr w.start := by split <;> omega
          simp only [he, hs, hset] at h
          split at h
          · cases h
          · rename_i hwhole
            split at h
            · rename_i haddr
              have hlt : stop < w.stop := by omega
              refine next { w with start := stop + 1 } [] _ rfl rfl ⟨by dsimp only; omega, hv2⟩
                (Or.inr (by dsimp only; omega)) (by simp) (by simp)
                (by simpa using hok.replace (v := { w with start := stop + 1 }) rfl rfl ⟨by dsimp only; omega, hv2⟩)
                ?_ h
              exact Span.carve_left (c := ⟨addr, stop + 1⟩) (s := w.span) (by simp only [AsinfoEntry.span]; omega)
                (by simp only [AsinfoEntry.span]; omega) (by simp only [AsinfoEntry.span]; omega)
            · rename_i haddr
              have hlo : w.span.lo < addr := by simp only [AsinfoEntry.span]; omega
              have hspan : (⟨w.span.lo, addr⟩ : Span Nat) = AsinfoEntry.span { w with stop := addr - 1 } := by
                simp only [AsinfoEntry.span, Span.mk.injEq, true_and]; omega
              have hw1 := hok.replace (v := { w with stop := addr - 1 }) rfl rfl (by dsimp only; omega)
              by_cases hend : w.stop ≤ stop
              · have hmax : ¬ (max stop w.stop ≠ stop) := by omega
                rw [if_neg hmax] at h
                refine next { w with stop := addr - 1 } [] _ rfl rfl (by dsimp only; omega)
                  (Or.inl (by dsimp only; omega)) (by simp) (by simp) (by simpa using hw1) ?_ h
                rw [Span.carve_right (c := ⟨addr, stop + 1⟩) (s := w.span) hlo (by simp only [AsinfoEntry.span]; omega)
                  (by simp only [AsinfoEntry.span]; omega), hspan]
                rfl
              · have hmax : max stop w.stop ≠ stop := by omega
                rw [if_pos hmax] at h
                have hwrap1 : wrap32 (stop + 1) = stop + 1 := wrap32_of_lt (by omega)
                have hwrap2 : wrap32 (max stop w.stop) = w.stop := by
                  rw [wrap32_of_lt (by omega)]; omega
                refine next { w with stop := addr - 1 } [⟨stop + 1, w.stop, w.owner, "sysram", {}⟩] _ rfl rfl
                  (by dsimp only; omega) (Or.inl (by dsimp only; omega)) (by simp; omega) ?_ ?_ ?_ h
                · rw [strip_asAdd _ _ _ _ _ rfl, hwrap1, hwrap2]
                  simp [strip]
                · refine hw1.append (fun o ho => hw1.leaf { w with stop := addr - 1 } (by simp) o ho) ?_
                  dsimp only; omega
                · rw [Span.carve_inside (c := ⟨addr, stop + 1⟩) (s := w.span) hlo (by dsimp only; omega)
                    (by simp only [AsinfoEntry.span]; omega), hspan]
                  rfl

end

end Imx6Bsp.Startup
