import Imx6Bsp.Pci.Lemmas.Server
import Imx6Bsp.Lib.Runs

/-!
# 装置の占有

探して行う接続だけの実行で、`PCI_SHARE` なしに初期化した接続がある間、ほかの接続が同じ装置を初期化できないことを示す。
-/

namespace Imx6Bsp.Pci

open Imx6Bsp.Lib

/-! ## 装置を決めるところ -/

theorem lookup_bySearch {p : Platform} {devs : List Device} {req : AttachRequest} {d : Nat} {way : Way} {dev : Device}
    (hr : req.handle = none) (h : lookup p devs req = .ok (d, way)) (hd : devs[d]? = some dev) : chooseWay dev req = .ok way := by
  simp only [lookup, hr] at h
  split at h
  · cases h
  · rename_i d' hs
    split at h
    · cases h
    · rename_i dev' hd'
      obtain ⟨way', ha, he⟩ := Except.map_eq_ok.mp h
      cases he
      rw [hd'] at hd
      cases hd
      exact ha

theorem chooseWay_found {dev : Device} {req : AttachRequest} {way : Way} (h : chooseWay dev req = .ok way) : ∃ next, way = .found next := by
  simp only [chooseWay] at h
  split at h
  · cases h; exact ⟨_, rfl⟩
  · split at h
    · split at h
      · split at h
        · cases h; exact ⟨_, rfl⟩
        · cases h
      · cases h
    · cases h; exact ⟨_, rfl⟩

/-- 使用中の装置を初期化できるのは、装置の旗も要求の旗も `PCI_SHARE` を含むときに限る。 -/
theorem chooseWay_shared {dev : Device} {req : AttachRequest} {way : Way} (h : chooseWay dev req = .ok way) (hl : dev.lockFlg ≠ 0)
    (hi : req.initialising = true) : has dev.attachFlags pciShare = true ∧ has req.flags pciShare = true := by
  simp only [AttachRequest.initialising, Bool.and_eq_true, Bool.not_eq_true'] at hi
  simp only [chooseWay, if_neg hl, hi, and_self, if_true] at h
  split at h
  · rename_i hs
    split at h
    · rename_i hs'; exact ⟨hs, hs'⟩
    · cases h
  · cases h

theorem has_fullFlags_share (req : AttachRequest) : has req.fullFlags pciShare = has req.flags pciShare := by
  have hinit : has (pciInitAll ||| pciInitRom) pciShare = false := by decide
  simp only [AttachRequest.fullFlags]
  split
  · rw [has_or, hinit, Bool.false_or]
  · rfl

/-! ## 不変条件 -/

/-- 占有されている装置は `LockFlg` が 0 でなく、`AttachFlags` に `PCI_SHARE` がない。 -/
def Device.Guarded (dev : Device) : Prop := dev.lockFlg ≠ 0 ∧ has dev.attachFlags pciShare = false

structure Tracked.Guarded (t : Tracked) : Prop where
  kept : ∀ d dev, t.server.devices[d]? = some dev → t.Occupied d → dev.Guarded
  range : ∀ c d, t.server.clients.length ≤ c → t.ledger.excl c d = false
  listed : ∀ c list d, t.server.client c = some list → some d ∈ list.devList → d < t.server.devices.length

theorem Tracked.guarded_start (devices : List Device) : (Tracked.start devices).Guarded where
  kept d dev _ := by
    rintro ⟨c, hc, -⟩
    simp [Tracked.start] at hc
  range _ _ _ := rfl
  listed c list d hc := by simp [Server.client, Tracked.start] at hc

/-- 探して行った接続の後の値。 -/
theorem Admin.attach_found (d : Nat) (next : Bool) (req : AttachRequest) (a : Admin) :
    (a.attach d (.found next) req).lockFlg = (if locks req false a.attachFlags then (a.lockFlg + 1) % 256 else a.lockFlg) ∧
      (a.attach d (.found next) req).attachFlags = a.attachFlags ||| req.fullFlags := by
  simp [Admin.attach, Admin.begin, Admin.register]

theorem Ledger.granted_excl {l : Ledger} {c d : Nat} {req : AttachRequest} {c' d' : Nat}
    (h : (l.granted c d req).excl c' d' = true) : l.excl c' d' = true ∨ (c' = c ∧ d' = d ∧ req.exclusive = true) := by
  simp only [Ledger.granted] at h
  split at h
  · exact .inl h
  · by_cases hc : c' = c
    · subst hc
      by_cases hd : d' = d
      · subst hd
        simp only [Function.update_self, Bool.or_eq_true] at h
        exact h.imp_right fun h => ⟨rfl, rfl, h⟩
      · simp only [Function.update_self, Function.update_of_ne hd] at h
        exact .inl h
    · simp only [Function.update_of_ne hc] at h
      exact .inl h

theorem Ledger.detached_excl {l : Ledger} {c d c' d' : Nat} (h : (l.detached c d).excl c' d' = true) : l.excl c' d' = true := by
  simp only [Ledger.detached] at h
  split at h
  · by_cases hc : c' = c
    · subst hc
      by_cases hd : d' = d
      · subst hd
        simp only [Function.update_self, Bool.and_eq_true] at h
        exact h.1
      · simpa only [Function.update_self, Function.update_of_ne hd] using h
    · simpa only [Function.update_of_ne hc] using h
  · split at h
    · exact h
    · exact h

section

variable {p : Platform} {t t' : Tracked}

theorem Tracked.Guarded.openClient (h : t.Guarded) :
    (⟨{ t.server with clients := t.server.clients ++ [some {}] }, t.ledger, []⟩ : Tracked).Guarded := by
  refine ⟨fun d dev hd hocc => h.kept d dev hd ?_, fun c d hc => h.range c d ?_, ?_⟩
  · obtain ⟨c, -, hc⟩ := hocc
    refine ⟨c, ?_, hc⟩
    by_contra hlt
    rw [h.range c d (Nat.le_of_not_lt hlt)] at hc
    cases hc
  · simp only [List.length_append, List.length_singleton] at hc
    omega
  · intro c list d hc hd
    rw [Server.client_open] at hc
    split at hc
    · cases hc
      simp [numDevicesMax] at hd
    · exact h.listed c list d hc hd

theorem Tracked.Guarded.granted (h : t.Guarded) {c : Nat} {req : AttachRequest} (hr : req.handle = none) {a : Attempt}
    (ha : a ∈ t.attempt p c req) {u : Call} {last : Option LastDevice}
    (hocc : t.Occupied a.d → has req.flags pciShare = false ∧ a.dev.lockFlg < 255)
    (hexcl : req.exclusive = true → has a.dev.attachFlags pciShare = false)
    (hu : u.admin = (t.server.call a.dev a.list req.config).admin.attach a.d a.way req) :
    (⟨Server.store { t.server with last } a.d c u, t.ledger.granted c a.d req, []⟩ : Tracked).Guarded := by
  obtain ⟨hl, hdev, hclient⟩ := Tracked.mem_attempt ha
  have hadmit := lookup_bySearch hr hl hdev
  obtain ⟨next, hway⟩ := chooseWay_found hadmit
  have hd : a.d < t.server.devices.length := (List.getElem?_eq_some_iff.mp hdev).1
  have hc : c < t.server.clients.length := Server.client_lt hclient
  obtain ⟨hlock, hflags⟩ := Admin.attach_found a.d next req (t.server.call a.dev a.list req.config).admin
  rw [← hway, ← hu] at hlock hflags
  refine ⟨?_, ?_, ?_⟩
  · refine Server.store_forall (fun _ _ _ h => h) ?_ ?_
    · rintro ⟨c', hc', hx⟩
      rw [Server.store_clients_length] at hc'
      have hlock : u.dev.lockFlg = if locks req false a.dev.attachFlags then (a.dev.lockFlg + 1) % 256 else a.dev.lockFlg := hlock
      have hflags : u.dev.attachFlags = a.dev.attachFlags ||| req.fullFlags := hflags
      have hshare : has u.dev.attachFlags pciShare = (has a.dev.attachFlags pciShare || has req.flags pciShare) := by
        rw [hflags, has_or, has_fullFlags_share]
      rcases Ledger.granted_excl hx with hx | ⟨-, -, hx⟩
      · obtain ⟨hl0, hs0⟩ := h.kept a.d a.dev hdev ⟨c', hc', hx⟩
        obtain ⟨hs, hb⟩ := hocc ⟨c', hc', hx⟩
        refine ⟨?_, by rw [hshare, hs0, hs]; rfl⟩
        rw [hlock]
        split <;> omega
      · have hex := hx
        simp only [AttachRequest.exclusive, AttachRequest.initialising, Bool.and_eq_true, Bool.not_eq_true'] at hx
        obtain ⟨⟨hm, hsh⟩, hs⟩ := hx
        refine ⟨?_, by rw [hshare, hexcl hex, hs]; rfl⟩
        have hl0 : a.dev.lockFlg = 0 := by
          by_contra hne
          have := (chooseWay_shared hadmit hne (by simp [AttachRequest.initialising, hm, hsh])).2
          rw [hs] at this; cases this
        have hlocks : locks req false a.dev.attachFlags = true := by simp [locks, hm, hsh]
        rw [hlock, hlocks, hl0]
        decide
    · rintro i dev hi hid ⟨c', hc', hx⟩
      rw [Server.store_clients_length] at hc'
      rcases Ledger.granted_excl hx with hx | ⟨-, rfl, -⟩
      · exact h.kept i dev hid ⟨c', hc', hx⟩
      · exact absurd rfl hi
  · intro c' d hc'
    rw [Server.store_clients_length] at hc'
    by_contra hx
    rw [Bool.not_eq_false] at hx
    rcases Ledger.granted_excl hx with hx | ⟨rfl, -, -⟩
    · rw [h.range c' d hc'] at hx; cases hx
    · exact absurd hc (Nat.not_lt.mpr hc')
  · intro c' list d hc' hd'
    rw [Server.store_length]
    rw [Server.store_client (s := { t.server with last }) hc] at hc'
    split at hc'
    · cases hc'
      have hmem : some d ∈ ((t.server.call a.dev a.list req.config).admin.attach a.d a.way req).list.devList := hu ▸ hd'
      rcases Admin.attach_mem hmem with rfl | hm
      · exact hd
      · exact h.listed c a.list d hclient hm
    · exact h.listed c' list d hc' hd'

/-- 外の答えがそろわない接続は、占有に関わる欄を変えない。 -/
theorem Tracked.Guarded.failed (h : t.Guarded) {c : Nat} {req : AttachRequest} (hr : req.handle = none) {a : Attempt}
    (ha : a ∈ t.attempt p c req) {u : Call} {last : Option LastDevice}
    (hu : u.admin = (t.server.call a.dev a.list req.config).admin.begin a.way req) :
    (⟨Server.store { t.server with last } a.d c u, t.ledger, []⟩ : Tracked).Guarded := by
  obtain ⟨hl, hdev, hclient⟩ := Tracked.mem_attempt ha
  have hc : c < t.server.clients.length := Server.client_lt hclient
  obtain ⟨next, hway⟩ := chooseWay_found (lookup_bySearch hr hl hdev)
  have hbegin : u.admin.lockFlg = a.dev.lockFlg ∧ u.admin.attachFlags = a.dev.attachFlags ∧ u.admin.list = a.list := by
    rw [hu]
    simp only [Admin.begin, hway, reduceCtorEq, if_false]
    exact ⟨rfl, rfl, rfl⟩
  obtain ⟨hlock, hflags, hlist⟩ : u.dev.lockFlg = a.dev.lockFlg ∧ u.dev.attachFlags = a.dev.attachFlags ∧ u.list = a.list := hbegin
  refine ⟨?_, ?_, ?_⟩
  · refine Server.store_forall (fun _ _ _ h => h) ?_ ?_
    · rintro ⟨c', hc', hx⟩
      rw [Server.store_clients_length] at hc'
      have := h.kept a.d a.dev hdev ⟨c', hc', hx⟩
      rwa [Device.Guarded, hlock, hflags]
    · rintro i dev - hid ⟨c', hc', hx⟩
      rw [Server.store_clients_length] at hc'
      exact h.kept i dev hid ⟨c', hc', hx⟩
  · intro c' d hc'
    rw [Server.store_clients_length] at hc'
    exact h.range c' d hc'
  · intro c' list d hc' hd'
    rw [Server.store_length]
    rw [Server.store_client (s := { t.server with last }) hc] at hc'
    split at hc'
    · cases hc'
      exact h.listed c a.list d hclient (hlist ▸ hd')
    · exact h.listed c' list d hc' hd'

/-- 切り離しの後の値。`LockFlg` も `lockflg` も、引く数だけ減る。 -/
theorem Admin.detach_lockFlg (d : Nat) (closeFlag : Bool) (a : Admin) (h : a.lockFlg ≠ 0) :
    (a.detach d closeFlag).lockFlg = a.lockFlg - lockDrop closeFlag a.list.lockflg a.lockFlg ∧
      (a.detach d closeFlag).list.lockflg = a.list.lockflg - lockDrop closeFlag a.list.lockflg a.lockFlg := by
  by_cases hl : a.list.lockflg = 0
  · have hdrop : lockDrop closeFlag 0 a.lockFlg = 1 := by
      simp only [lockDrop]
      rw [if_neg fun hc => h hc.2.symm]
    simp [Admin.detach, Admin.unlock, h, hl, hdrop, DevList.unlist]
  · simp [Admin.detach, Admin.unlock, h, hl, DevList.unlist]

theorem Admin.detach_share (d : Nat) (closeFlag : Bool) (a : Admin) (h : has a.attachFlags pciShare = false) :
    has (a.detach d closeFlag).attachFlags pciShare = false := by
  have hu : (a.unlock closeFlag).attachFlags = a.attachFlags := by
    simp only [Admin.unlock]
    split
    · split <;> rfl
    · rfl
  simp only [Admin.detach, hu]
  split
  · decide
  · exact h

theorem Tracked.Guarded.detached (h : t.Guarded) {c d : Nat} {dev : Device} {list : DevList} (hdev : t.server.devices[d]? = some dev)
    (hclient : t.server.client c = some list)
    (hok : (∃ c' < t.server.clients.length, (t.ledger.detached c d).excl c' d = true) → 1 < dev.lockFlg) {rel : List Nat} :
    (⟨t.server.store d c (detachCall p d false (t.server.call dev list {})).1, t.ledger.detached c d, rel⟩ : Tracked).Guarded := by
  have hadmin := (detachCall_admin p d false (t.server.call dev list {})).1
  have hslots := detachCall_devList p d false (t.server.call dev list {})
  generalize detachCall p d false (t.server.call dev list {}) = u at hadmin hslots ⊢
  have hc : c < t.server.clients.length := Server.client_lt hclient
  refine ⟨?_, ?_, ?_⟩
  · refine Server.store_forall (fun _ _ _ h => h) ?_ ?_
    · rintro ⟨c', hc', hx⟩
      rw [Server.store_clients_length] at hc'
      obtain ⟨hl0, hs0⟩ := h.kept d dev hdev ⟨c', hc', Ledger.detached_excl hx⟩
      have hgt := hok ⟨c', hc', hx⟩
      have h₁ := (Admin.detach_lockFlg d false (t.server.call dev list {}).admin hl0).1
      have h₂ := Admin.detach_share d false (t.server.call dev list {}).admin hs0
      rw [← hadmin] at h₁ h₂
      have h₁ : u.1.dev.lockFlg = dev.lockFlg - 1 := h₁
      exact ⟨by omega, h₂⟩
    · rintro i dev' - hid ⟨c', hc', hx⟩
      rw [Server.store_clients_length] at hc'
      exact h.kept i dev' hid ⟨c', hc', Ledger.detached_excl hx⟩
  · intro c' e hc'
    rw [Server.store_clients_length] at hc'
    by_contra hx
    rw [Bool.not_eq_false] at hx
    have := Ledger.detached_excl hx
    rw [h.range c' e hc'] at this
    cases this
  · intro c' l e hc' he
    rw [Server.store_length]
    rw [Server.store_client hc] at hc'
    split at hc'
    · cases hc'
      rw [hslots] at he
      obtain ⟨x, hx, hxe⟩ := List.mem_map.mp he
      split at hxe
      · cases hxe
      · exact h.listed c list e hclient (hxe ▸ hx)
    · exact h.listed c' l e hc' he

/-! ## 閉じる -/

theorem CloseSpares.congr {held : Nat → Prop} {lock lock' : Nat → Nat} {lockflg : Nat} {ds : List Nat} (h : ∀ d ∈ ds, lock d = lock' d)
    (hs : CloseSpares held lock lockflg ds) : CloseSpares held lock' lockflg ds := by
  induction ds generalizing lockflg with
  | nil => trivial
  | cons d ds ih =>
      have ih' : ∀ {n}, CloseSpares held lock n ds → CloseSpares held lock' n ds := ih fun e he => h e (List.mem_cons_of_mem d he)
      simp only [CloseSpares, h d List.mem_cons_self] at hs ⊢
      split at hs
      · rename_i hz; rw [if_pos hz]; exact ih' hs
      · rename_i hz; rw [if_neg hz]; exact ⟨hs.1, ih' hs.2⟩

theorem closeAll_spares (p : Platform) (c : Nat) (held : Nat → Prop) (order : List Nat) (s : Server) (list : DevList)
    (hc : c < s.clients.length) (hnd : order.Nodup) (hlt : ∀ d ∈ order, d < s.devices.length)
    (hs : CloseSpares held s.lockFlg list.lockflg order)
    (hk : ∀ d dev, s.devices[d]? = some dev → held d → dev.Guarded) :
    (∀ d dev, (closeAll p c order s list).1.devices[d]? = some dev → held d → dev.Guarded) ∧
      (closeAll p c order s list).1.devices.length = s.devices.length ∧
      (closeAll p c order s list).1.clients.length = s.clients.length ∧
      ∀ c', c' ≠ c → (closeAll p c order s list).1.client c' = s.client c' := by
  induction order generalizing s list with
  | nil => exact ⟨hk, rfl, rfl, fun _ _ => rfl⟩
  | cons d ds ih =>
      obtain ⟨hdn, hnd⟩ := List.nodup_cons.mp hnd
      have hd : d < s.devices.length := hlt d List.mem_cons_self
      have hdev : s.devices[d]? = some s.devices[d] := List.getElem?_eq_getElem hd
      simp only [closeAll, pciDetachDevice_eq p s c list d true hdev]
      have hadmin := (detachCall_admin p d true (s.call s.devices[d] list {})).1
      generalize detachCall p d true (s.call s.devices[d] list {}) = u at hadmin ⊢
      have hlock : s.lockFlg d = (s.call s.devices[d] list {}).admin.lockFlg := Server.lockFlg_eq hdev
      have hsame : ∀ e ∈ ds, s.lockFlg e = (s.store d c u.1).lockFlg e := by
        intro e he
        rw [Server.store_lockFlg hd, if_neg fun h : e = d => hdn (h ▸ he)]
      -- 切り離した装置は、占有されていれば `LockFlg` が残る。
      have hone : CloseSpares held s.lockFlg u.1.list.lockflg ds ∧ (held d → u.1.dev.Guarded) := by
        simp only [CloseSpares, hlock] at hs
        split at hs
        · rename_i hz
          have hlf : u.1.list.lockflg = list.lockflg := by
            have := congrArg (fun a => a.list.lockflg) hadmin
            refine this.trans ?_
            simp only [Admin.detach, Admin.unlock, hz, DevList.unlist, ne_eq, not_true_eq_false, if_false]
            rfl
          exact ⟨hlf ▸ hs, fun hh => absurd hz (hk d _ hdev hh).1⟩
        · rename_i hz
          obtain ⟨h₁, h₂⟩ := Admin.detach_lockFlg d true _ hz
          rw [← hadmin] at h₁ h₂
          refine ⟨?_, fun hh => ?_⟩
          · have h₂ : u.1.list.lockflg = _ := h₂
            rw [h₂]; exact hs.2
          · have hg := hk d _ hdev hh
            have hsh := Admin.detach_share d true (s.call s.devices[d] list {}).admin hg.2
            rw [← hadmin] at hsh
            have h₁ : u.1.dev.lockFlg = _ := h₁
            have hlt : lockDrop true list.lockflg (s.call s.devices[d] list {}).admin.lockFlg <
              (s.call s.devices[d] list {}).admin.lockFlg := hs.1 hh
            exact ⟨by rw [h₁]; exact Nat.sub_ne_zero_of_lt hlt, hsh⟩
      obtain ⟨h₁, h₂, h₃, h₄⟩ := ih (s.store d c u.1) u.1.list (by simpa using hc) hnd
        (fun e he => by simpa using hlt e (List.mem_cons_of_mem d he)) (hone.1.congr hsame)
        (Server.store_forall (P := fun e dev => held e → dev.Guarded) (fun _ _ _ h => h) hone.2 fun e dev _ he => hk e dev he)
      refine ⟨h₁, by simpa using h₂, by simpa using h₃, fun c' hc' => ?_⟩
      rw [h₄ c' hc', Server.store_client hc, if_neg hc']

theorem Ledger.closed_excl {l : Ledger} {c c' d : Nat} : (l.closed c).excl c' d = true ↔ c' ≠ c ∧ l.excl c' d = true := by
  by_cases hc : c' = c
  · subst hc; simp [Ledger.closed]
  · simp [Ledger.closed, hc]

theorem Tracked.Guarded.closed (h : t.Guarded) {c : Nat} {list : DevList} (hclient : t.server.client c = some list)
    (hok : CloseSpares (fun d => ∃ c' < t.server.clients.length, c' ≠ c ∧ t.ledger.excl c' d = true) t.server.lockFlg list.lockflg
      list.closeOrder) :
    (⟨(pciOcbFree p t.server c list).1, t.ledger.closed c, (pciOcbFree p t.server c list).2⟩ : Tracked).Guarded := by
  have hc : c < t.server.clients.length := Server.client_lt hclient
  have hlt : ∀ d ∈ list.closeOrder, d < t.server.devices.length := fun d hd =>
    h.listed c list d hclient (DevList.mem_closeOrder.mp hd)
  rw [pciOcbFree_eq p c fun d hd => h.listed c list d hclient hd]
  obtain ⟨h₁, h₂, h₃, h₄⟩ := closeAll_spares p c _ list.closeOrder t.server list hc (nodup_eraseDups _) hlt hok
    fun d dev hd ⟨c', hc', _, hx⟩ => h.kept d dev hd ⟨c', hc', hx⟩
  generalize closeAll p c list.closeOrder t.server list = r at h₁ h₂ h₃ h₄
  refine ⟨?_, ?_, ?_⟩
  · rintro d dev hd ⟨c', hc', hx⟩
    simp only [List.length_set, h₃] at hc'
    exact h₁ d dev hd ⟨c', hc', Ledger.closed_excl.mp hx⟩
  · intro c' d hc'
    simp only [List.length_set, h₃] at hc'
    by_contra hx
    rw [Bool.not_eq_false] at hx
    have := (Ledger.closed_excl.mp hx).2
    rw [h.range c' d hc'] at this
    cases this
  · intro c' l d hc' hd
    by_cases hcc : c' = c
    · subst hcc
      simp [Server.client, h₃, hc] at hc'
    · have hsame : t.server.client c' = some l := by
        rw [← h₄ c' hcc, ← hc']
        simp only [Server.client, List.getElem?_set_ne (Ne.symm hcc)]
      simp only [h₂]
      exact h.listed c' l d hsame hd

/-! ## 実行 -/

theorem Tracked.Guarded.step (h : t.Guarded) {r : Request} (hby : r.BySearch) (hok : t.Spares p r) (hs : t.step p r = .ok t') :
    t'.Guarded := by
  cases r with
  | openClient =>
      cases hs
      exact h.openClient
  | attach c req ans =>
      simp only [Tracked.step] at hs
      cases hc : t.server.client c with
      | none => rw [hc] at hs; cases hs
      | some list =>
          simp only [hc] at hs
          have hout : AttachOutcome p t c req ans _ _ := pciAttachDevice_outcome hc
          generalize pciAttachDevice p t.server c list req ans = r at hs hout
          obtain ⟨s, res⟩ := r
          cases hout with
          | refused e =>
              cases hs
              exact ⟨h.kept, h.range, h.listed⟩
          | granted a ha hg last u hu =>
              cases hs
              exact h.granted hby ha (hok a ha hg).1 (hok a ha hg).2 hu
          | failed a ha hg last u hu e =>
              cases hs
              exact h.failed hby ha hu
  | detach c d =>
      simp only [Tracked.step] at hs
      cases hc : t.server.client c with
      | none => rw [hc] at hs; cases hs
      | some list =>
          simp only [hc] at hs
          cases hd : t.server.devices[d]? with
          | none =>
              simp only [pciDetachDevice, hd] at hs
              cases hs
              exact ⟨h.kept, h.range, h.listed⟩
          | some dev =>
              rw [pciDetachDevice_eq p t.server c list d false hd] at hs
              cases hs
              exact h.detached hd hc fun hx => Server.lockFlg_eq hd ▸ hok hx
  | close c =>
      simp only [Tracked.step] at hs
      cases hc : t.server.client c with
      | none => rw [hc] at hs; cases hs
      | some list =>
          simp only [hc] at hs
          cases hs
          exact h.closed hc (hok list hc)

end

/-- 条件を満たす要求だけの実行では、`PCI_SHARE` なしに初期化した接続が残る装置を、ほかの接続は初期化できない。 -/
theorem exclusive_attach_kept (p : Platform) (devices : List Device) (t : Tracked)
    (h : Reaches (Tracked.step p) (fun t r => r.BySearch ∧ t.Spares p r) (Tracked.start devices) t)
    (c : Nat) (list : DevList) (req : AttachRequest) (ans : Answers) (d : Nat) (hc : t.server.client c = some list)
    (hr : req.handle = none) (hi : req.initialising = true)
    (hg : (pciAttachDevice p t.server c list req ans).2 = .ok d) :
    ∀ c', c' ≠ c → t.ledger.excl c' d = false := by
  intro c' _
  have hinv : t.Guarded := h.invariant (Tracked.guarded_start devices) fun u r v hu hr hs => hu.step hr.1 hr.2 hs
  by_contra hx
  rw [Bool.not_eq_false] at hx
  have hlt : c' < t.server.clients.length := by
    by_contra hlt
    rw [hinv.range c' d (Nat.le_of_not_lt hlt)] at hx
    cases hx
  have hout : AttachOutcome p t c req ans _ _ := pciAttachDevice_outcome hc
  generalize pciAttachDevice p t.server c list req ans = r at hg hout
  obtain ⟨s, res⟩ := r
  cases hout with
  | refused e => cases hg
  | failed a ha _ last u hu e => cases hg
  | granted a ha _ last u hu =>
      cases hg
      obtain ⟨hl, hdev, -⟩ := Tracked.mem_attempt ha
      obtain ⟨hlock, hshare⟩ := hinv.kept a.d a.dev hdev ⟨c', hlt, hx⟩
      have := (chooseWay_shared (lookup_bySearch hr hl hdev) hlock hi).1
      rw [hshare] at this
      cases this

/-- 見るだけの接続は占有を妨げない。 -/
theorem exclusive_attach_kept_sample :
    ∃ t list, Reaches (Tracked.step samplePlatform) (fun t r => r.BySearch ∧ t.Spares samplePlatform r) (Tracked.start [sampleDevice]) t ∧
      t.server.client 1 = some list ∧
      (pciAttachDevice samplePlatform t.server 1 list (sampleRequest pciInitBase0) { io := fun _ _ => some 0x1000 }).2 = .ok 0 ∧
      t.ledger.excl 1 0 = false ∧ t.ledger.excl 0 0 = false := by
  obtain ⟨t, ht, hp⟩ := (Option.any_eq_true _ _).mp
    (by decide +kernel :
      (runAll (Tracked.step samplePlatform) (fun t r => r.BySearch ∧ t.Spares samplePlatform r)
        [.openClient, .openClient, .attach 0 (sampleRequest pciInitBase0) { io := fun _ _ => some 0x1000 },
          .attach 1 (sampleRequest 0) {}, .attach 1 (sampleRequest pciInitBase0) { io := fun _ _ => some 0x1000 }, .detach 0 0,
          .detach 1 0] (Tracked.start [sampleDevice])).any
        (fun t => (t.server.client 1).any (fun list => (pciAttachDevice samplePlatform t.server 1 list (sampleRequest pciInitBase0)
          { io := fun _ _ => some 0x1000 }).2 = .ok 0) ∧ t.ledger.excl 1 0 = false) = true)
  have hr := runAll_reaches ht
  obtain ⟨h₁, h₂⟩ := of_decide_eq_true hp
  obtain ⟨list, hl, h₁⟩ := (Option.any_eq_true _ _).mp h₁
  have h₁ := of_decide_eq_true h₁
  exact ⟨t, list, hr, hl, h₁, h₂, exclusive_attach_kept samplePlatform [sampleDevice] t hr 1 list _ _ 0 hl rfl rfl h₁ 0 (by decide)⟩

/-- 占有している間に `PCI_SHARE` 付きの見るだけの接続があると、三つ目の接続も初期化できる。 -/
theorem exclusive_attach_shared_by_show_only :
    ∃ t list, Reaches (Tracked.step samplePlatform) (fun _ r => r.BySearch) (Tracked.start [sampleDevice]) t ∧
      t.server.client 2 = some list ∧ t.ledger.excl 0 0 = true ∧
      (sampleRequest (pciInitBase0 ||| pciShare)).initialising = true ∧
      (pciAttachDevice samplePlatform t.server 2 list (sampleRequest (pciInitBase0 ||| pciShare)) {}).2 = .ok 0 := by
  obtain ⟨t, ht, hp⟩ := (Option.any_eq_true _ _).mp
    (by decide +kernel :
      (runAll (Tracked.step samplePlatform) (fun _ r => r.BySearch)
        [.openClient, .openClient, .openClient, .attach 0 (sampleRequest pciInitBase0) { io := fun _ _ => some 0x1000 },
          .attach 1 (sampleRequest pciShare) {}] (Tracked.start [sampleDevice])).any
        (fun t => (t.server.client 2).any (fun list => (pciAttachDevice samplePlatform t.server 2 list
          (sampleRequest (pciInitBase0 ||| pciShare)) {}).2 = .ok 0) ∧ t.ledger.excl 0 0 = true) = true)
  obtain ⟨h₁, h₂⟩ := of_decide_eq_true hp
  obtain ⟨list, hl, h₁⟩ := (Option.any_eq_true _ _).mp h₁
  exact ⟨t, list, runAll_reaches ht, hl, h₂, by decide, of_decide_eq_true h₁⟩

end Imx6Bsp.Pci
