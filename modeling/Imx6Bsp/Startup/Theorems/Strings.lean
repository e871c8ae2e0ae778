import Imx6Bsp.Startup.Lemmas.TypedStrings
import Imx6Bsp.Startup.Theorems.Syspage
import Imx6Bsp.Startup.Strings
import Imx6Bsp.Startup.Lemmas.StringTable
import Imx6Bsp.Startup.Lemmas.HwiRun

/-!
# 種別つきの文字列の定理

`lsp.typed_strings` が、種別から文字列への有限写像を表すことを示す。`del_typed_string()` は種別の 4 バイトを数えないので、消す項目は
最後の、長さが 4 の倍数のものに限る。
-/

namespace Imx6Bsp.Startup

open Imx6Bsp.Lib

/-- `init_syspage_memory()` を終えた節は空である。 -/
theorem StringTrace.start_inv {fmt : SyspageFormat} (hfmt : fmt.Ok) {mem : Mem} {base maxSize : Nat}
    (hx : maxSize < 256 ^ fmt.fieldBytes) (hb : base + maxSize < 2 ^ 32) {sp : Syspage}
    (h : initSyspageMemory fmt mem base maxSize = .ok sp) : (StringTrace.start sp).Inv fmt := by
  obtain ⟨n, hbt⟩ := initSyspageMemory_booted hfmt hx hb h
  have hsize := hbt.filled .typedStrings (by decide) (by decide)
  refine ⟨_, 0, hbt.layout, rfl, ?_, fun x _ hlt => ?_, by simp [StringTrace.start], by simp [StringTrace.start]⟩
  · change 0 + 4 ≤ sp.size .typedStrings
    omega
  · have hx' : x < sp.size .typedStrings := hlt
    have hz := hbt.zeros .typedStrings x hx' (by simp)
    rw [List.getElem?_replicate, if_pos hx', ← hbt.layout.p_eq] at hz
    exact (Option.some.inj hz).symm

/-- 前提を満たし、消す項目が最後にあって長さが 4 の倍数である呼び出しだけからなるどの実行でも、節は生きている項目の列として読め、
`find_typed_string()` は生きている種別では最後に加えた文字列の項目の位置を、ほかの種別では -1 を返す。走査は節の外に出ない。 -/
theorem typedStrings_map (fmt : SyspageFormat) (hfmt : fmt.Ok) (mem : Mem) (base maxSize : Nat)
    (hx : maxSize < 256 ^ fmt.fieldBytes) (hb : base + maxSize < 2 ^ 32) (sp : Syspage)
    (hinit : initSyspageMemory fmt mem base maxSize = .ok sp) (t : StringTrace)
    (h : Reaches (StringTrace.step fmt) (fun t c => t.InDomain fmt c ∧ t.DelClean c) (.start sp) t) :
    (∃ e, TypedSection t.sp t.entries e ∧ 4 ∣ e ∧ t.sp.mem.readLE (t.sp.p .typedStrings + e) 4 = csNone) ∧
    (∀ type str, (type, str) ∈ t.entries → ∃ i, findTypedString t.sp type = some (some i) ∧ 4 ∣ i ∧
      t.sp.mem.readLE (t.sp.p .typedStrings + i) 4 = type ∧ t.sp.mem.HasStr (t.sp.p .typedStrings + (i + 4)) str) ∧
    (∀ type, type ≠ csNone → (∀ str, (type, str) ∉ t.entries) → findTypedString t.sp type = some none) ∧
    ∀ c, t.InDomain fmt c → t.DelClean c → t.step fmt c ≠ .error .outside := by
  have hinv : t.Inv fmt := h.invariant (StringTrace.start_inv hfmt hx hb hinit) fun u c v hu hok hs =>
    (hu.step hfmt hok.1 hok.2).2 v hs
  have hstep := fun c hc hclean => (hinv.step hfmt (c := c) hc hclean).1
  obtain ⟨fixed, e, hl, hsec⟩ := hinv
  refine ⟨⟨e, hsec, hsec.parse.dvd (by omega), hsec.terminator⟩, fun type str hmem => ?_, fun type ht hnot => ?_, hstep⟩
  · obtain ⟨i, hoff, hd, hty, hstr⟩ := hsec.parse.offsetOf_mem (by omega) hsec.nodup hmem
    have ht : type ≠ csNone := hsec.types (type, str) hmem
    exact ⟨i, by rw [hsec.find_eq hl, if_neg ht, hoff], hd, hty, hstr⟩
  · rw [hsec.find_eq hl, if_neg ht, offsetOf_none 0 hnot]

/-- 項目を加え、最後の項目を置き換え、消す列。 -/
def sampleStringCalls : List StringCall :=
  [.add 5 [0x61, 0x62, 0x63], .add 6 [0x61, 0x62, 0x63, 0x64], .add 6 [0x65, 0x66, 0x67, 0x68], .del 6, .add 7 [0x69],
    .del 6]

/-- 項目を加えて消す二つの実行。 -/
theorem typedStrings_runs :
    (initSyspageMemory sampleFormat (fun _ => 0xff) 0x1000 0x400).toOption.any (fun sp =>
      (runAll (StringTrace.step sampleFormat) (fun t c => t.InDomain sampleFormat c ∧ t.DelClean c) sampleStringCalls
        (.start sp)).any fun t => decide (t.entries = [(5, [0x61, 0x62, 0x63]), (7, [0x69])])) = true ∧
    (initSyspageMemory sampleFormat (fun _ => 0xff) 0x1000 0x400).toOption.any (fun sp =>
      (runAll (StringTrace.step sampleFormat) (StringTrace.InDomain sampleFormat)
        [.add 5 [0x61, 0x62, 0x63, 0x64], .add 6 [0x78], .del 5] (.start sp)).any fun t =>
          decide ((6, [0x78]) ∈ t.entries ∧ findTypedString t.sp 6 = some none)) = true := by
  decide +kernel

theorem typedStrings_map_sample :
    ∃ sp t, initSyspageMemory sampleFormat (fun _ => 0xff) 0x1000 0x400 = .ok sp ∧
      Reaches (StringTrace.step sampleFormat) (fun t c => t.InDomain sampleFormat c ∧ t.DelClean c) (.start sp) t ∧
      t.entries = [(5, [0x61, 0x62, 0x63]), (7, [0x69])] ∧ findTypedString t.sp 6 = some none ∧
      ∃ e, TypedSection t.sp t.entries e := by
  obtain ⟨sp, hsp, hrun⟩ := Except.exists_of_any typedStrings_runs.1
  obtain ⟨t, ht, hentries⟩ := (Option.any_eq_true _ _).mp hrun
  have hentries := of_decide_eq_true hentries
  obtain ⟨⟨e, hsec, _⟩, _, hnone, _⟩ := typedStrings_map sampleFormat sampleFormat_ok _ 0x1000 0x400 (by decide)
    (by decide) sp hsp t (runAll_reaches ht)
  exact ⟨sp, t, hsp, runAll_reaches ht, hentries, hnone 6 (by decide) (by simp [hentries]), e, hsec⟩

/-- `del_typed_string()` は種別の 4 バイトを数えずに詰めるので、長さが 4 の倍数の項目を消すと、文字列の終わりの 0 が `_CS_NONE` になり、
後ろの項目は見つからない。 -/
theorem del_hides_later_entries :
    ∃ sp t, initSyspageMemory sampleFormat (fun _ => 0xff) 0x1000 0x400 = .ok sp ∧
      Reaches (StringTrace.step sampleFormat) (StringTrace.InDomain sampleFormat) (.start sp) t ∧
      (6, [0x78]) ∈ t.entries ∧ findTypedString t.sp 6 = some none := by
  obtain ⟨sp, hsp, hrun⟩ := Except.exists_of_any typedStrings_runs.2
  obtain ⟨t, ht, hfind⟩ := (Option.any_eq_true _ _).mp hrun
  obtain ⟨h1, h2⟩ := of_decide_eq_true hfind
  exact ⟨sp, t, hsp, runAll_reaches ht, h1, h2⟩

/-! ## 文字列の位置の定理

`add_string()` の返す位置は、名前ごとに一つに決まり、節が伸びても移っても、`__hwi_find_string()` でその名前を指し続ける。 -/

variable {fmt : SyspageFormat} {rtns : Nat → CalloutRtn}

/-! ### 一歩の不変条件 -/

/-- もとの中身を変えずに 0 を加える呼び出しは、文字列の表を保つ。 -/
theorem StringSection.keeps {s s' : Syspage} {l : List (List UInt8)} {e : Nat} (h : StringSection s l e)
    (hk : KeepsBytes fmt s s') : StringSection s' l e := by
  have hr := h.room
  obtain ⟨hsize, hold, hnew⟩ := hk .strings
  have hskip : ∀ i, ¬ fmt.Skip .strings i := fun i hi => absurd hi.1 (by decide)
  have hsame : ∀ x < s.size .strings, s'.mem (s'.p .strings + x) = s.mem (s.p .strings + x) := fun x hx => hold x hx (hskip x)
  refine ⟨h.table.congr fun x _ hx => hsame x (by omega), by omega, fun x h1 h2 => ?_⟩
  by_cases hx : x < s.size .strings
  · rw [hsame x hx]
    exact h.zeros x h1 hx
  · exact hnew x (by omega) h2

/-- ほかの節への書き込みは、文字列の節のバイトを変えない。 -/
theorem SyspageTrace.Inv.store_same {t : SyspageTrace} (h : t.Inv fmt) {sect : Sect} {off : Nat} (v : UInt8)
    (hoff : off < t.sp.size sect) (hne : sect ≠ .strings) :
    SameBytes t.sp { t.sp with mem := Function.update t.sp.mem (t.sp.p sect + off) v } .strings :=
  h.layout.write_other sect (Ne.symm hne) fun _ hx => Function.update_of_ne (by omega) _ _

/-- 読み直した記録は、実行の不変条件を満たす。 -/
theorem SyspageTrace.Inv.reread {t : SyspageTrace} (h : t.Inv fmt) {sp : Syspage} (hl : sp.Layout fmt t.fixed)
    (honly : OnlyStrings fmt t.sp sp) : (t.reread sp).Inv fmt := by
  refine ⟨hl, fun s => by simp [SyspageTrace.reread], fun s i hi _ => ?_, fun hg => ?_⟩
  · have hi' : i < sp.size s := hi
    have hp := hl.p_eq s
    change ((List.range (sp.size s)).map fun i => sp.mem (sp.p s + i))[i]? = some (sp.mem (sp.p .syspage + sp.off s + i))
    rw [List.getElem?_map, List.getElem?_range hi', ← hp]
    rfl
  · simp only [SyspageTrace.reread, Bool.or_eq_false_iff, decide_eq_false_iff_not] at hg
    have hmap : t.fixed.map sp.size = t.fixed.map t.sp.size :=
      List.map_congr_left fun s hs => honly.size s fun heq => hg.2 (heq ▸ hs)
    change sp.fixedSize = (t.fixed.map sp.size).sum
    rw [hmap, honly.fixedSize]
    exact h.fixedSize hg.1

/-- 実行の不変条件。記録した名前は表にあり、返した位置は表の中の位置である。 -/
structure InternTrace.Inv (fmt : SyspageFormat) (t : InternTrace) (l : List (List UInt8)) (e : Nat) : Prop where
  page : t.page.Inv fmt
  strings : StringSection t.page.sp l e
  logged : ∀ a ∈ t.log, a.1 ∈ l ∧ a.2 = packedOffset a.1 l

namespace InternTrace.Inv

variable {t u : InternTrace} {l : List (List UInt8)} {e : Nat}

theorem step_add (hfmt : fmt.Ok) (h : t.Inv fmt l e) {name : List UInt8} (hc : t.InDomain fmt (.add name)) :
    t.step fmt rtns (.add name) ≠ .error .outside ∧
      (t.step fmt rtns (.add name) = .ok u → ∃ e', u.Inv fmt (intern l name) e') := by
  obtain ⟨hne, hname, hlen⟩ := hc
  obtain ⟨hno, hok⟩ := h.strings.intern hfmt h.page.layout hname hlen
  have htable : internTable l name = intern l name := if_neg hne
  cases hadd : addString fmt t.page.sp name with
  | error f =>
      simp only [InternTrace.step, hadd]
      refine ⟨fun heq => hno (hadd.trans (congrArg _ (Except.error.inj heq))), fun heq => ?_⟩
      cases heq
  | ok r =>
      obtain ⟨sp, off⟩ := r
      obtain ⟨hl, honly, ⟨e', hsec⟩, hoff⟩ := hok sp off hadd
      rw [htable] at hsec hoff
      simp only [InternTrace.step, hadd]
      refine ⟨fun heq => ?_, fun heq => ⟨e', ?_⟩⟩
      · cases heq
      · cases heq
        refine ⟨h.page.reread hl honly, hsec, fun a ha => ?_⟩
        rcases List.mem_append.mp ha with ha | ha
        · obtain ⟨hmem, heq⟩ := h.logged a ha
          exact ⟨mem_intern_of_mem hmem, heq.trans (packedOffset_intern hmem).symm⟩
        · rw [List.mem_singleton] at ha
          subst ha
          exact ⟨mem_intern_self, hoff hne⟩

theorem step_sys (hfmt : fmt.Ok) (h : t.Inv fmt l e) {c : SyspageCall} (hc : t.InDomain fmt (.sys c)) :
    t.step fmt rtns (.sys c) ≠ .error .outside ∧ (t.step fmt rtns (.sys c) = .ok u → u.Inv fmt l e) := by
  obtain ⟨hdom, hspare⟩ := hc
  cases hpage : t.page.step fmt rtns c with
  | error k =>
      simp only [InternTrace.step, hpage]
      refine ⟨fun heq => ?_, fun heq => ?_⟩ <;> cases heq
  | ok page =>
      simp only [InternTrace.step, hpage]
      refine ⟨fun heq => ?_, fun heq => ?_⟩
      · cases heq
      · cases heq
        refine ⟨h.page.step hfmt hdom hpage, ?_, h.logged⟩
        by_cases hst : ∃ sect off v, c = .store sect off v
        · obtain ⟨sect, off, v, rfl⟩ := hst
          cases hpage
          exact h.strings.congr (h.page.store_same v hdom.1 hspare)
        · exact h.strings.keeps (h.page.keepsBytes hfmt hdom hpage fun sect off v heq => hst ⟨sect, off, v, heq⟩)

/-- どの呼び出しも不変条件を保ち、走査は節の外に出ない。 -/
theorem step (hfmt : fmt.Ok) (h : t.Inv fmt l e) {c : InternCall} (hc : t.InDomain fmt c) :
    t.step fmt rtns c ≠ .error .outside ∧ (t.step fmt rtns c = .ok u → ∃ l' e', u.Inv fmt l' e') := by
  cases c with
  | add name =>
      have hadd := @step_add fmt rtns t u l e hfmt h name hc
      exact ⟨hadd.1, fun hu => ⟨_, hadd.2 hu⟩⟩
  | sys c =>
      have hsys := @step_sys fmt rtns t u l e hfmt h c hc
      exact ⟨hsys.1, fun hu => ⟨l, e, hsys.2 hu⟩⟩

end InternTrace.Inv

/-- `init_syspage_memory()` を終えた文字列の節は空である。 -/
theorem InternTrace.start_inv (hfmt : fmt.Ok) {mem : Mem} {base maxSize : Nat} (hx : maxSize < 256 ^ fmt.fieldBytes)
    (hb : base + maxSize < 2 ^ 32) {sp : Syspage} (h : initSyspageMemory fmt mem base maxSize = .ok sp) :
    (InternTrace.start sp).Inv fmt [] 0 := by
  obtain ⟨n, hbt⟩ := initSyspageMemory_booted hfmt hx hb h
  have hsize := hbt.filled .strings (by decide) (by decide)
  refine ⟨SyspageTrace.start_inv hfmt hx hb h, ⟨rfl, ?_, fun x _ hlt => ?_⟩, fun a ha => absurd ha List.not_mem_nil⟩
  · change 0 < sp.size .strings
    omega
  · have hx' : x < sp.size .strings := hlt
    have hz := hbt.zeros .strings x hx' (by simp)
    rw [List.getElem?_replicate, if_pos hx', ← hbt.layout.p_eq] at hz
    exact (Option.some.inj hz).symm

/-! ### 登録した名前と位置 -/

/-- 空でない名前の `add_string()` と、ほかの節の呼び出しからなるどの実行でも、名前と返した位置は一対一に対応し、返した位置は
`__hwi_find_string()` でその名前を指し続ける。節の列は、節の大きさの中の空の文字列で終わり、走査は節の外に出ない。 -/
theorem strings_interned (fmt : SyspageFormat) (hfmt : fmt.Ok) (rtns : Nat → CalloutRtn) (mem : Mem) (base maxSize : Nat)
    (hx : maxSize < 256 ^ fmt.fieldBytes) (hb : base + maxSize < 2 ^ 32) (sp : Syspage)
    (hinit : initSyspageMemory fmt mem base maxSize = .ok sp) (t : InternTrace)
    (h : Reaches (InternTrace.step fmt rtns) (InternTrace.InDomain fmt) (.start sp) t) :
    (∀ a ∈ t.log, ∀ b ∈ t.log, a.1 = b.1 ↔ a.2 = b.2) ∧
    (∀ a ∈ t.log, t.page.sp.mem.HasStr (hwiFindString t.page.sp a.2) a.1) ∧
    (∃ l e, StrTable t.page.sp.mem (t.page.sp.p .strings) 0 l e ∧ e < t.page.sp.size .strings ∧
      t.page.sp.mem (t.page.sp.p .strings + e) = 0) ∧
    ∀ c, t.InDomain fmt c → t.step fmt rtns c ≠ .error .outside := by
  obtain ⟨l, e, hinv⟩ : ∃ l e, t.Inv fmt l e := by
    refine h.invariant (P := fun u => ∃ l e, u.Inv fmt l e) ⟨[], 0, InternTrace.start_inv hfmt hx hb hinit⟩ ?_
    intro u c v hu hok hs
    obtain ⟨l, e, hu⟩ := hu
    exact (hu.step hfmt hok).2 hs
  refine ⟨fun a ha b hb => ?_, fun a ha => ?_, ⟨l, e, hinv.strings.table, hinv.strings.room, ?_⟩, fun c hc => ?_⟩
  · obtain ⟨ha1, ha2⟩ := hinv.logged a ha
    obtain ⟨hb1, hb2⟩ := hinv.logged b hb
    constructor
    · intro heq
      rw [ha2, hb2, heq]
    · intro heq
      exact packedOffset_inj ha1 hb1 (by rw [← ha2, ← hb2, heq])
  · obtain ⟨hmem, heq⟩ := hinv.logged a ha
    have hstr := hinv.strings.table.hasStr hmem
    rw [Nat.zero_add, ← heq] at hstr
    exact hstr
  · exact hinv.strings.zeros e le_rfl hinv.strings.room
  · exact (hinv.step (u := t) hfmt hc).1

/-- 七文字の名前で最初の八バイトを使い切り、節の移動と伸びを挟んで、同じ名前と新しい名前を登録する列。 -/
def sampleInternCalls : List InternCall :=
  [.add [0x61, 0x62, 0x63, 0x64, 0x65, 0x66, 0x67], .sys (.grow .typedStrings 12), .add [0x68], .sys (.reloc 0x1010 0x800),
    .add [0x61, 0x62, 0x63, 0x64, 0x65, 0x66, 0x67], .sys (.grow .asinfo 20), .add [0x68, 0x69]]

theorem strings_interned_sample :
    ∃ sp t, initSyspageMemory sampleFormat (fun _ => 0xff) 0x1000 0x400 = .ok sp ∧
      Reaches (InternTrace.step sampleFormat sampleRtns) (InternTrace.InDomain sampleFormat) (.start sp) t ∧
      t.log.map Prod.snd = [0, 8, 0, 10] ∧ ∀ a ∈ t.log, t.page.sp.mem.HasStr (hwiFindString t.page.sp a.2) a.1 := by
  have hrun : (initSyspageMemory sampleFormat (fun _ => 0xff) 0x1000 0x400).toOption.any (fun sp =>
      (runAll (InternTrace.step sampleFormat sampleRtns) (InternTrace.InDomain sampleFormat) sampleInternCalls
        (.start sp)).any fun t => decide (t.log.map Prod.snd = [0, 8, 0, 10])) = true := by decide +kernel
  obtain ⟨sp, hsp, hrun⟩ := Except.exists_of_any hrun
  obtain ⟨t, ht, hlog⟩ := (Option.any_eq_true _ _).mp hrun
  have hreach := runAll_reaches ht
  exact ⟨sp, t, hsp, hreach, of_decide_eq_true hlog,
    (strings_interned _ sampleFormat_ok _ _ 0x1000 0x400 (by decide) (by decide) sp hsp t hreach).2.1⟩

/-! ## ハードウェア情報の節の定理

`lsp.hwinfo` が札の列を表し、二通りの走査が札と項目をちょうど訪れることを示す。`hwi_grow_tag()` は静的変数 `offset` を進めないので、
伸ばした後には札を置かない実行に限る。 -/

/-- `init_syspage_memory()` を終えた節は空である。 -/
theorem HwiTrace.start_inv {fmt : SyspageFormat} (hfmt : fmt.Ok) {mem : Mem} {base maxSize : Nat}
    (hx : maxSize < 256 ^ fmt.fieldBytes) (hb : base + maxSize < 2 ^ 32) (hmax : maxSize ≤ 2 ^ 16) {sp : Syspage}
    (h : initSyspageMemory fmt mem base maxSize = .ok sp) : (HwiTrace.start sp).Inv fmt := by
  obtain ⟨n, hbt⟩ := initSyspageMemory_booted hfmt hx hb h
  have hzero : ∀ sect, sect ≠ .syspage → ∀ x < sp.size sect, sp.mem (sp.p sect + x) = 0 := by
    intro sect hs x hlt
    have hz := hbt.zeros sect x hlt hs
    rw [List.getElem?_replicate, if_pos hlt, ← hbt.layout.p_eq] at hz
    exact (Option.some.inj hz).symm
  have hhw := hbt.filled .hwinfo (by decide) (by decide)
  have hstr := hbt.filled .strings (by decide) (by decide)
  have hwsec : HwSection sp [] := by
    refine ⟨rfl, ?_, fun x _ hx => hzero .hwinfo (by decide) x hx, nofun, nofun, ?_, nofun, nofun, nofun⟩
    · change 0 + 8 ≤ sp.size .hwinfo
      omega
    · intro pre g post heq
      cases pre <;> cases heq
  refine ⟨⟨_, hbt.layout, hbt.limit.trans_le hmax, ⟨[], 0, rfl, ?_, fun x _ hx => ?_⟩, hwsec⟩, nofun, fun _ => rfl⟩
  · change 0 < sp.size .strings
    omega
  · exact hzero .strings (by decide) x hx

/-- 前提を満たし、`hwi_grow_tag()` の後に札を置かず、項目の札が `struct hwi_item` より小さくない呼び出しだけからなるどの実行でも、
節は札の列を表す。札の走査は置いた札を順に、項目の走査は置いた項目を順に訪れ、札を加える呼び出しは置いてある札の中身を変えない。 -/
theorem hwinfo_tag_chain (lib : HwiLib) (fmt : SyspageFormat) (hfmt : fmt.Ok) (mem : Mem) (base maxSize : Nat)
    (hx : maxSize < 256 ^ fmt.fieldBytes) (hb : base + maxSize < 2 ^ 32) (hmax : maxSize ≤ 2 ^ 16) (sp : Syspage)
    (hinit : initSyspageMemory fmt mem base maxSize = .ok sp) (t : HwiTrace)
    (h : Reaches (HwiTrace.step lib fmt) (fun t c => t.InDomain c ∧ t.Clean c) (.start sp) t) :
    HwSection t.st.sp t.tags ∧
    hwiWalk t.st.sp 0 0 (t.tags.length + 1) = some (t.tags.map HwTag.off) ∧
    hwiWalk t.st.sp 4 0 (t.tags.length + 1) = some ((t.tags.filter HwTag.isItem).map HwTag.off) ∧
    ∀ c, t.InDomain c → t.Clean c → t.step lib fmt c ≠ .error .outside ∧
      ∀ t', t.step lib fmt c = .ok t' → c.IsAlloc → KeepsTags t.tags t.st.sp t'.st.sp := by
  have hinv : t.Inv fmt := h.invariant (HwiTrace.start_inv hfmt hx hb hmax hinit) fun u c v hu hok hs =>
    ((hu.step lib hfmt hok.1 hok.2).2 v hs).1
  obtain ⟨fixed, hok⟩ := hinv.ok
  have hlead : lead t.tags = 0 := by
    cases ht : t.tags with
    | nil => rfl
    | cons g l => rw [lead, if_pos (hok.hw.first g (by rw [ht]; rfl))]
  have hitems := hok.hw.walk_items (List.nil_append t.tags).symm hok.hw.chain le_rfl
  rw [hlead] at hitems
  refine ⟨hok.hw, hok.hw.walk_tags (fun g hg => hg) hok.hw.chain le_rfl, hitems, fun c hc hclean => ?_⟩
  have hstep := hinv.step lib hfmt hc hclean
  exact ⟨hstep.1, fun t' ht' => (hstep.2 t' ht').2⟩

/-- `hwi_off2tag()` の働き。 -/
def sampleLib : HwiLib := ⟨fun base off => base + off, fun _ _ => rfl⟩

/-- 項目、8 の境界の札、子の項目を置き、最後の札を伸ばして書く列。 -/
def sampleHwiCalls : List HwiCall :=
  [.item [0x67] 12 4 [0x68] 0xffff, .tag [0x74] 8 8, .item [0x67] 12 4 [0x69] 0, .tag [0x75] 8 4, .grow 36 8, .store 40 7]

/-- 札を置く二つの実行。 -/
theorem hwi_runs :
    (initSyspageMemory sampleFormat (fun _ => 0xff) 0x1000 0x400).toOption.any (fun sp =>
      (runAll (HwiTrace.step sampleLib sampleFormat) (fun t c => t.InDomain c ∧ t.Clean c) sampleHwiCalls
        (.start sp)).any fun t => decide (t.tags.map HwTag.off = [0, 12, 16, 24, 36])) = true ∧
    (initSyspageMemory sampleFormat (fun _ => 0xff) 0x1000 0x400).toOption.any (fun sp =>
      (runAll (HwiTrace.step sampleLib sampleFormat) HwiTrace.InDomain
        [.item [0x67] 12 4 [0x68] 0xffff, .tag [0x74] 8 4, .grow 12 8, .tag [0x75] 8 4] (.start sp)).any fun t =>
          decide (t.tags = [⟨0, 12, 4, some 0xffff⟩, ⟨12, 8 + 8, 4, none⟩, ⟨20, 8, 4, none⟩] ∧
            hwiWalk t.st.sp 0 0 (t.tags.length + 1) = some [0, 12])) = true := by
  decide +kernel

theorem hwinfo_tag_chain_sample :
    ∃ sp t, initSyspageMemory sampleFormat (fun _ => 0xff) 0x1000 0x400 = .ok sp ∧
      Reaches (HwiTrace.step sampleLib sampleFormat) (fun t c => t.InDomain c ∧ t.Clean c) (.start sp) t ∧
      t.tags.map HwTag.off = [0, 12, 16, 24, 36] ∧ hwiWalk t.st.sp 0 0 6 = some [0, 12, 16, 24, 36] ∧
      HwSection t.st.sp t.tags := by
  obtain ⟨sp, hsp, hrun⟩ := Except.exists_of_any hwi_runs.1
  obtain ⟨t, ht, htags⟩ := (Option.any_eq_true _ _).mp hrun
  have htags := of_decide_eq_true htags
  have hlen : t.tags.length = 5 := by rw [← List.length_map (f := HwTag.off), htags]; rfl
  obtain ⟨hsec, hwalk, _⟩ := hwinfo_tag_chain sampleLib sampleFormat sampleFormat_ok _ 0x1000 0x400 (by decide)
    (by decide) (by decide) sp hsp t (runAll_reaches ht)
  rw [hlen, htags] at hwalk
  exact ⟨sp, t, hsp, runAll_reaches ht, htags, hwalk, hsec⟩

/-- `hwi_grow_tag()` の後に置いた札は、伸ばした札の中に置かれ、札の走査は置いた札を訪れない。 -/
theorem alloc_after_grow_overlaps :
    ∃ sp t, initSyspageMemory sampleFormat (fun _ => 0xff) 0x1000 0x400 = .ok sp ∧
      Reaches (HwiTrace.step sampleLib sampleFormat) HwiTrace.InDomain (.start sp) t ∧
      t.tags = [⟨0, 12, 4, some 0xffff⟩, ⟨12, 8 + 8, 4, none⟩, ⟨20, 8, 4, none⟩] ∧
      hwiWalk t.st.sp 0 0 (t.tags.length + 1) = some [0, 12] := by
  obtain ⟨sp, hsp, hrun⟩ := Except.exists_of_any hwi_runs.2
  obtain ⟨t, ht, hfind⟩ := (Option.any_eq_true _ _).mp hrun
  obtain ⟨h1, h2⟩ := of_decide_eq_true hfind
  exact ⟨sp, t, hsp, runAll_reaches ht, h1, h2⟩

end Imx6Bsp.Startup
