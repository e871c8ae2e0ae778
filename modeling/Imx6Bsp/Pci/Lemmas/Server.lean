import Imx6Bsp.Pci.Lemmas.Locks

/-!
# サーバの一歩

呼び出しの結果をサーバに戻すことと、接続の要求の結果を、帳簿が使う形で示す。
-/

namespace Imx6Bsp.Pci

open Imx6Bsp.Lib

/-! ## 結果を戻す -/

section

variable {s : Server} {d c : Nat} {u : Call}

@[simp] theorem Server.store_length : (s.store d c u).devices.length = s.devices.length := by
  simp [Server.store]

@[simp] theorem Server.store_clients_length : (s.store d c u).clients.length = s.clients.length := by
  simp [Server.store]

/-- 割り込みの番号によらない性質は、書き換えた装置で成り立てば、どの装置でも保たれる。 -/
theorem Server.store_forall {P : Nat → Device → Prop} (hP : ∀ i dev n, P i dev → P i { dev with irqNumber := n }) (hd : P d u.dev)
    (hs : ∀ i dev, i ≠ d → s.devices[i]? = some dev → P i dev) : ∀ i dev, (s.store d c u).devices[i]? = some dev → P i dev := by
  intro i dev h
  simp only [Server.store] at h
  by_cases hi : d = i
  · subst hi
    rw [List.getElem?_set_self'] at h
    cases hm : (s.devices.modify u.dev.bmap.bdev fun b => { b with irqNumber := u.bdevIrq })[d]? with
    | none => rw [hm] at h; cases h
    | some b => rw [hm] at h; cases h; exact hd
  · rw [List.getElem?_set_ne hi, List.getElem?_modify] at h
    cases hm : s.devices[i]? with
    | none => rw [hm] at h; cases h
    | some b =>
        rw [hm] at h
        cases h
        split
        · exact hP i b _ (hs i b (Ne.symm hi) hm)
        · exact hs i b (Ne.symm hi) hm

theorem Server.store_client (hc : c < s.clients.length) (c' : Nat) :
    (s.store d c u).client c' = if c' = c then some u.list else s.client c' := by
  simp only [Server.client, Server.store]
  by_cases h : c' = c
  · subst h; simp [hc]
  · rw [List.getElem?_set_ne (Ne.symm h), if_neg h]

theorem Server.client_lt {list : DevList} (h : s.client c = some list) : c < s.clients.length := by
  simp only [Server.client] at h
  cases hc : s.clients[c]? with
  | none => rw [hc] at h; cases h
  | some _ => exact (List.getElem?_eq_some_iff.mp hc).1

theorem Server.client_open (s : Server) (c : Nat) :
    ({ s with clients := s.clients ++ [some {}] } : Server).client c = if c = s.clients.length then some {} else s.client c := by
  simp only [Server.client]
  rcases Nat.lt_trichotomy c s.clients.length with hc | hc | hc
  · rw [List.getElem?_append_left hc, if_neg (by omega)]
  · subst hc; simp
  · rw [List.getElem?_eq_none (by simp; omega), List.getElem?_eq_none (by omega), if_neg (by omega)]

theorem Server.store_lockFlg {s : Server} {d c : Nat} {u : Call} (hd : d < s.devices.length) (i : Nat) :
    (s.store d c u).lockFlg i = if i = d then u.dev.lockFlg else s.lockFlg i := by
  simp only [Server.lockFlg, Server.store]
  by_cases hi : i = d
  · subst hi; simp [hd]
  · rw [List.getElem?_set_ne (Ne.symm hi), List.getElem?_modify, if_neg hi]
    cases s.devices[i]? with
    | none => rfl
    | some b =>
        simp only [Option.map_eq_map, Option.map_some, Option.getD_some]
        split <;> rfl

theorem Server.lockFlg_eq {s : Server} {d : Nat} {dev : Device} (h : s.devices[d]? = some dev) : s.lockFlg d = dev.lockFlg := by
  simp [Server.lockFlg, h]

end

/-! ## 接続の要求 -/

/-- 成功した接続の後の値。 -/
def Admin.attach (d : Nat) (way : Way) (req : AttachRequest) (a : Admin) : Admin :=
  if way = .relock then { a with lockFlg := (a.lockFlg + 1) % 256, list := a.list.lock.relist d }
  else (a.begin way req).register d req (way = .again)

/-- 接続の要求の結果。断られれば何も変わらず、外の答えがそろわなければ最初の書き換えだけが残る。 -/
inductive AttachOutcome (p : Platform) (t : Tracked) (c : Nat) (req : AttachRequest) (ans : Answers) : Server → Except Errno Nat → Prop
  | refused (e : Errno) : AttachOutcome p t c req ans t.server (.error e)
  | granted (a : Attempt) (ha : a ∈ t.attempt p c req) (hg : a.Granted p t req ans) (last : Option LastDevice) (u : Call)
      (hu : u.admin = (t.server.call a.dev a.list req.config).admin.attach a.d a.way req) :
      AttachOutcome p t c req ans (Server.store { t.server with last } a.d c u) (.ok a.d)
  | failed (a : Attempt) (ha : a ∈ t.attempt p c req) (hg : ¬a.Granted p t req ans) (last : Option LastDevice) (u : Call)
      (hu : u.admin = (t.server.call a.dev a.list req.config).admin.begin a.way req) (e : Errno) :
      AttachOutcome p t c req ans (Server.store { t.server with last } a.d c u) (.error e)

theorem pciAttachDevice_outcome {p : Platform} {t : Tracked} {c : Nat} {list : DevList} {req : AttachRequest} {ans : Answers}
    (hc : t.server.client c = some list) :
    AttachOutcome p t c req ans (pciAttachDevice p t.server c list req ans).1 (pciAttachDevice p t.server c list req ans).2 := by
  simp only [pciAttachDevice]
  cases hl : lookup p t.server.devices req with
  | error e => exact .refused e
  | ok r =>
      obtain ⟨d, way⟩ := r
      cases hd : t.server.devices[d]? with
      | none => simp only [hd]; exact .refused _
      | some dev =>
          simp only [hd]
          have ha : (⟨d, way, dev, list⟩ : Attempt) ∈ t.attempt p c req := by
            simp [Tracked.attempt, hl, hd, hc, Except.toOption]
          split
          · rename_i hway
            refine .granted ⟨d, way, dev, list⟩ ha (.inl hway) t.server.last _ ?_
            rw [relock_admin]
            simp only [Admin.attach, hway, if_true]
            rfl
          · rename_i hway
            have hm := attachCall_admin p d way req ans (t.server.call dev list req.config)
            cases hx : attachCall p d way req ans (t.server.call dev list req.config) with
            | ok _ u =>
                obtain ⟨hans, hu⟩ := hm.of_ok hx
                refine .granted ⟨d, way, dev, list⟩ ha (.inr hans) _ u ?_
                rw [hu]
                simp only [Admin.attach, hway, if_false]
            | error e u =>
                obtain ⟨hans, hu⟩ := hm.of_error hx
                exact .failed ⟨d, way, dev, list⟩ ha (by rintro (h | h); exacts [hway h, hans h]) _ u hu e

theorem Tracked.mem_attempt {p : Platform} {t : Tracked} {c : Nat} {req : AttachRequest} {a : Attempt} (h : a ∈ t.attempt p c req) :
    lookup p t.server.devices req = .ok (a.d, a.way) ∧ t.server.devices[a.d]? = some a.dev ∧ t.server.client c = some a.list := by
  cases hl : lookup p t.server.devices req with
  | error e => simp [Tracked.attempt, hl, Except.toOption] at h
  | ok r =>
      cases hd : t.server.devices[r.1]? with
      | none => simp [Tracked.attempt, hl, hd, Except.toOption] at h
      | some dev =>
          cases hc : t.server.client c with
          | none => simp [Tracked.attempt, hl, hc, Except.toOption] at h
          | some list =>
              have h' : some (⟨r.1, r.2, dev, list⟩ : Attempt) = some a := by
                simpa [Tracked.attempt, hl, hd, hc, Except.toOption] using h
              cases h'
              exact ⟨rfl, hd, rfl⟩

/-- 数えられる接続の、`LockFlg` と `lockflg` の増え方。 -/
theorem Admin.attach_counted {a : Attempt} {l : Ledger} {req : AttachRequest} {x : Admin} (hx : x.attachFlags = a.dev.attachFlags)
    (h : a.Counted l req) :
    (x.attach a.d a.way req).lockFlg = (if l.first a.d req then x.lockFlg else (x.lockFlg + 1) % 256) ∧
      (x.attach a.d a.way req).list.lockflg = (if l.first a.d req then x.list.lockflg else x.list.lockflg + 1) := by
  obtain ⟨d, way, dev, list⟩ := a
  have hx : x.attachFlags = dev.attachFlags := hx
  cases way with
  | relock =>
      have hf : l.first d req = false := h
      simp [Admin.attach, hf, DevList.lock, DevList.relist]
  | again =>
      obtain ⟨hf, hs⟩ := h
      have hf : l.first d req = false := hf
      have hs : req.showPci = true ∨ dev.attachFlags = 0 := hs
      have hlocks : locks req true dev.attachFlags = false := by
        rcases hs with hs | hs
        · simp [locks, hs]
        · simp [locks, hs]
      cases hsh : req.showPci <;>
        simp [Admin.attach, Admin.begin, Admin.register, hf, hx, hlocks, hsh, DevList.lock, DevList.enlist]
  | found next =>
      have hlocks : locks req false dev.attachFlags = !l.first d req := by
        have h : req.mgr = true → (l.mgr d = none ↔ req.showPci = false ∧ dev.attachFlags = 0) := h
        cases hm : req.mgr with
        | false => simp [locks, Ledger.first, hm]
        | true =>
            have h := h hm
            by_cases hn : l.mgr d = none
            · obtain ⟨hs, hz⟩ := h.mp hn
              simp [locks, Ledger.first, hm, hn, hs, hz]
            · have hs : req.showPci = true ∨ dev.attachFlags ≠ 0#32 := by
                by_contra hc
                rw [not_or, Bool.not_eq_true, not_not] at hc
                exact hn (h.mpr hc)
              rcases hs with hs | hs
              · simp [locks, Ledger.first, hm, hn, hs]
              · cases hsh : req.showPci <;> simp [locks, Ledger.first, hm, hn, hsh, hs]
      cases hsh : req.showPci <;> cases hf : l.first d req <;>
        simp [Admin.attach, Admin.begin, Admin.register, hf, hx, hlocks, hsh, DevList.lock, DevList.enlist]

/-! ## `dev_list` -/

theorem putSlot_mem {d e : Nat} {slots : List (Option Nat)} (h : some e ∈ (putSlot d slots).1) : e = d ∨ some e ∈ slots := by
  induction slots with
  | nil => simp [putSlot] at h
  | cons x slots ih =>
      cases x with
      | none =>
          simp only [putSlot, List.mem_cons, Option.some.injEq] at h
          rcases h with h | h
          · exact .inl h
          · exact .inr (List.mem_cons_of_mem _ h)
      | some x =>
          simp only [putSlot] at h
          split at h
          · exact .inr h
          · simp only [List.mem_cons, Option.some.injEq] at h ⊢
            rcases h with h | h
            · exact .inr (.inl h)
            · exact (ih h).imp_right .inr

theorem DevList.enlist_mem {list : DevList} {d e : Nat} (h : some e ∈ (list.enlist d).devList) : e = d ∨ some e ∈ list.devList := by
  simp only [DevList.enlist] at h
  split at h
  · rcases List.mem_or_eq_of_mem_set h with h | h
    · exact .inr h
    · exact .inl (Option.some.inj h)
  · exact putSlot_mem h

theorem Admin.register_mem {d e : Nat} {req : AttachRequest} {reAttach : Bool} {a : Admin}
    (h : some e ∈ (a.register d req reAttach).list.devList) : e = d ∨ some e ∈ a.list.devList := by
  simp only [Admin.register] at h
  cases hl : locks req reAttach a.attachFlags <;> cases hs : req.showPci <;> simp only [hl, hs, if_true, if_false, Bool.false_eq_true] at h
  · exact DevList.enlist_mem h
  · exact .inr h
  · exact DevList.enlist_mem h
  · exact .inr h

theorem Admin.attach_mem {d e : Nat} {way : Way} {req : AttachRequest} {a : Admin} (h : some e ∈ (a.attach d way req).list.devList) :
    e = d ∨ some e ∈ a.list.devList := by
  have hbegin : (a.begin way req).list.devList = a.list.devList := by
    simp only [Admin.begin]
    split <;> rfl
  simp only [Admin.attach] at h
  split at h
  · exact putSlot_mem h
  · exact hbegin ▸ Admin.register_mem h

/-! ## 閉じる -/

/-- `PCI_OcbFree()` を、切り離す装置の順に書いたもの。 -/
def closeAll (p : Platform) (c : Nat) : List Nat → Server → DevList → Server × List Nat
  | [], s, _ => (s, [])
  | d :: ds, s, list =>
      match pciDetachDevice p s c list d true with
      | none => closeAll p c ds s list
      | some r => ((closeAll p c ds r.1 r.2.1).1, if r.2.2 then d :: (closeAll p c ds r.1 r.2.1).2 else (closeAll p c ds r.1 r.2.1).2)

theorem reduceOption_clear (d : Nat) (slots : List (Option Nat)) :
    (slots.map fun e => if e = some d then none else e).reduceOption = slots.reduceOption.filter fun e => !e == d := by
  induction slots with
  | nil => rfl
  | cons e slots ih =>
      cases e with
      | none => simpa [List.reduceOption_cons_of_none] using ih
      | some e =>
          by_cases h : e = d
          · subst h
            simp [List.reduceOption_cons_of_none, List.reduceOption_cons_of_some, ih]
          · simp [List.reduceOption_cons_of_some, ih, h]

theorem pciDetachDevice_eq (p : Platform) (s : Server) (c : Nat) (list : DevList) (d : Nat) (closeFlag : Bool) {dev : Device}
    (hd : s.devices[d]? = some dev) :
    pciDetachDevice p s c list d closeFlag =
      some (s.store d c (detachCall p d closeFlag (s.call dev list {})).1,
        (detachCall p d closeFlag (s.call dev list {})).1.list, (detachCall p d closeFlag (s.call dev list {})).2) := by
  simp only [pciDetachDevice, hd]

theorem Admin.unlock_devList (closeFlag : Bool) (a : Admin) : (a.unlock closeFlag).list.devList = a.list.devList := by
  simp only [Admin.unlock]
  split
  · split <;> rfl
  · rfl

/-- 切り離しの後の `dev_list`。 -/
theorem detachCall_devList (p : Platform) (d : Nat) (closeFlag : Bool) (s : Call) :
    (detachCall p d closeFlag s).1.list.devList = s.list.devList.map fun e => if e = some d then none else e := by
  have h := congrArg (fun a => a.list.devList) (detachCall_admin p d closeFlag s).1
  refine h.trans ?_
  simp only [Admin.detach, DevList.unlist, Admin.unlock_devList]
  rfl

theorem freeLoop_eq_closeAll (p : Platform) (c : Nat) (i n : Nat) (s : Server) (list : DevList) (hn : list.devList.length ≤ i + n)
    (hl : ∀ d, some d ∈ list.devList → d < s.devices.length) :
    freeLoop p c i n s list = closeAll p c (list.devList.drop i).reduceOption.eraseDups s list := by
  induction n generalizing i s list with
  | zero => simp [freeLoop, List.drop_eq_nil_of_le (by omega : list.devList.length ≤ i), closeAll]
  | succ n ih =>
      by_cases hi : i < list.devList.length
      · have hdrop := List.drop_eq_getElem_cons hi
        cases he : list.devList[i] with
        | none =>
            simp only [freeLoop, List.getElem?_eq_getElem hi, he, Option.join_some, hdrop, List.reduceOption_cons_of_none]
            exact ih (i + 1) s list (by omega) hl
        | some d =>
            have hd : d < s.devices.length := hl d (he ▸ List.getElem_mem hi)
            simp only [freeLoop, List.getElem?_eq_getElem hi, he, Option.join_some, hdrop, List.reduceOption_cons_of_some,
              List.eraseDups_cons, closeAll, pciDetachDevice_eq p s c list d true (List.getElem?_eq_getElem hd)]
            set r := detachCall p d true (s.call s.devices[d] list {})
            have hlist : r.1.list.devList = list.devList.map fun e => if e = some d then none else e := detachCall_devList ..
            rw [ih (i + 1) (s.store d c r.1) r.1.list (by rw [hlist, List.length_map]; omega) ?_, hlist, ← List.map_drop,
              reduceOption_clear]
            intro e he'
            rw [hlist] at he'
            obtain ⟨x, hx, hxe⟩ := List.mem_map.mp he'
            rw [Server.store_length]
            split at hxe
            · cases hxe
            · exact hl e (hxe ▸ hx)
      · simp only [freeLoop, List.getElem?_eq_none (by omega : list.devList.length ≤ i), Option.join_none]
        rw [ih (i + 1) s list (by omega) hl, List.drop_eq_nil_of_le (by omega : list.devList.length ≤ i),
          List.drop_eq_nil_of_le (by omega : list.devList.length ≤ i + 1)]

theorem nodup_eraseDups (l : List Nat) : l.eraseDups.Nodup := by
  induction hn : l.length using Nat.strong_induction_on generalizing l with
  | _ n ih =>
      cases l with
      | nil => simp
      | cons a as =>
          rw [List.eraseDups_cons, List.nodup_cons]
          constructor
          · simp [List.mem_eraseDups]
          · refine ih _ ?_ _ rfl
            have := List.length_filter_le (fun b => !b == a) as
            simp only [List.length_cons] at hn
            omega

theorem DevList.mem_closeOrder {list : DevList} {d : Nat} : d ∈ list.closeOrder ↔ some d ∈ list.devList := by
  simp [DevList.closeOrder, List.mem_eraseDups, List.reduceOption_mem_iff]

theorem pciOcbFree_eq {s : Server} {list : DevList} (p : Platform) (c : Nat)
    (hl : ∀ d, some d ∈ list.devList → d < s.devices.length) :
    pciOcbFree p s c list =
      ({ (closeAll p c list.closeOrder s list).1 with clients := (closeAll p c list.closeOrder s list).1.clients.set c none },
        (closeAll p c list.closeOrder s list).2) := by
  simp only [pciOcbFree, freeLoop_eq_closeAll p c 0 numDevicesMax s list (by rw [list.size]; omega) hl, List.drop_zero]
  rfl

end Imx6Bsp.Pci
