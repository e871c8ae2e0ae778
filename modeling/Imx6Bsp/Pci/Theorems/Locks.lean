import Imx6Bsp.Pci.Lemmas.Server

/-!
# 接続の数え方

どの接続の要求がどの順に来ても、条件を満たす要求だけの実行では、装置の `LockFlg` は帳簿の数に等しい。
-/

namespace Imx6Bsp.Pci

open Imx6Bsp.Lib

/-! ## 帳簿の書き換え -/

theorem Ledger.granted_out (l : Ledger) (c d : Nat) (req : AttachRequest) (c' d' : Nat) :
    (l.granted c d req).out c' d' = l.out c' d' + if l.first d req = false ∧ c' = c ∧ d' = d then 1 else 0 := by
  simp only [Ledger.granted]
  cases hf : l.first d req with
  | true => simp
  | false =>
      by_cases hc : c' = c
      · subst hc
        by_cases hd : d' = d
        · subst hd; simp
        · simp [hd]
      · simp [hc]

theorem Ledger.detached_out (l : Ledger) (c d : Nat) (c' d' : Nat) :
    (l.detached c d).out c' d' + (if l.out c d ≠ 0 ∧ c' = c ∧ d' = d then 1 else 0) = l.out c' d' := by
  simp only [Ledger.detached]
  by_cases h : l.out c d = 0
  · simp only [h, ne_eq, not_true_eq_false, if_false, false_and, add_zero]
    split <;> rfl
  · by_cases hc : c' = c
    · subst hc
      by_cases hd : d' = d
      · subst hd
        simp [h]
        omega
      · simp [h, hd]
    · simp [h, hc]

theorem Ledger.closed_out (l : Ledger) (c c' d : Nat) : (l.closed c).out c' d = if c' = c then 0 else l.out c' d := by
  by_cases hc : c' = c
  · subst hc; simp [Ledger.closed]
  · simp [Ledger.closed, hc]

/-- 一つの接続だけで数える和。 -/
theorem sum_pick {n c : Nat} (hc : c < n) (b q : Prop) [Decidable b] [Decidable q] :
    ∑ c' ∈ Finset.range n, (if b ∧ c' = c ∧ q then 1 else 0) = if b ∧ q then 1 else 0 := by
  by_cases h : b ∧ q
  · simp [h, hc]
  · rw [if_neg h, Finset.sum_eq_zero]
    intro c' _
    exact if_neg fun h' => h ⟨h'.1, h'.2.2⟩

/-! ## 閉じるときの数 -/

theorem CloseFits.congr {out lock lock' : Nat → Nat} {ds : List Nat} (h : ∀ d ∈ ds, lock d = lock' d) (hf : CloseFits out lock ds) :
    CloseFits out lock' ds := by
  induction ds with
  | nil => trivial
  | cons d ds ih =>
      obtain ⟨h₁, h₂⟩ := hf
      rw [h d List.mem_cons_self] at h₁
      exact ⟨h₁, ih (fun e he => h e (List.mem_cons_of_mem d he)) h₂⟩

/-- 閉じるときの一つの切り離しは、帳簿の数だけ引く。 -/
theorem Admin.detach_fits (d : Nat) {k rest : Nat} {a : Admin} (hle : k ≤ a.lockFlg) (hsum : a.list.lockflg = k + rest)
    (hfit : a.lockFlg ≠ 0 → if k + rest = a.lockFlg then rest = 0 else k = 1) :
    (a.detach d true).lockFlg + k = a.lockFlg ∧ (a.detach d true).list.lockflg = rest := by
  by_cases hz : a.lockFlg = 0
  · have : k = 0 := by omega
    simp [Admin.detach, Admin.unlock, hz, DevList.unlist, this, hsum]
  · have hfit := hfit hz
    by_cases he : k + rest = a.lockFlg
    · rw [if_pos he] at hfit
      have heq : a.list.lockflg = a.lockFlg := by omega
      simp only [Admin.detach, Admin.unlock, hz, DevList.unlist, lockDrop, heq, ne_eq, not_false_eq_true, if_true, and_self]
      omega
    · rw [if_neg he] at hfit
      have hne : a.list.lockflg ≠ 0 := by omega
      have heq : ¬a.list.lockflg = a.lockFlg := by omega
      simp only [Admin.detach, Admin.unlock, hz, hne, DevList.unlist, lockDrop, heq, ne_eq, not_false_eq_true, if_true, and_false, if_false]
      omega

theorem closeAll_spec (p : Platform) (c : Nat) (out : Nat → Nat) (order : List Nat) (s : Server) (list : DevList)
    (hc : c < s.clients.length) (hnd : order.Nodup) (hlt : ∀ d ∈ order, d < s.devices.length)
    (hfits : CloseFits out s.lockFlg order) (hsum : list.lockflg = (order.map out).sum) (hle : ∀ d ∈ order, out d ≤ s.lockFlg d) :
    (∀ d, (closeAll p c order s list).1.lockFlg d + (if d ∈ order then out d else 0) = s.lockFlg d) ∧
      (closeAll p c order s list).1.devices.length = s.devices.length ∧
      (closeAll p c order s list).1.clients.length = s.clients.length ∧
      (∀ c', c' ≠ c → (closeAll p c order s list).1.client c' = s.client c') ∧
      ∀ d ∈ (closeAll p c order s list).2, (closeAll p c order s list).1.lockFlg d = 0 := by
  induction order generalizing s list with
  | nil => simp [closeAll]
  | cons d ds ih =>
      obtain ⟨hdn, hnd⟩ := List.nodup_cons.mp hnd
      have hd : d < s.devices.length := hlt d List.mem_cons_self
      have hdev : s.devices[d]? = some s.devices[d] := List.getElem?_eq_getElem hd
      simp only [closeAll, pciDetachDevice_eq p s c list d true hdev]
      obtain ⟨hadmin, hidle⟩ := detachCall_admin p d true (s.call s.devices[d] list {})
      set u := detachCall p d true (s.call s.devices[d] list {}) with hu
      have hlock : s.lockFlg d = s.devices[d].lockFlg := Server.lockFlg_eq hdev
      have hfit : (u.1.dev.lockFlg + out d = s.lockFlg d) ∧ u.1.list.lockflg = (ds.map out).sum := by
        have hlock' : s.lockFlg d = (s.call s.devices[d] list {}).admin.lockFlg := hlock
        have hle' := hle d List.mem_cons_self
        have hfit := hfits.1
        rw [hlock'] at hle' hfit ⊢
        have hsum' : (s.call s.devices[d] list {}).admin.list.lockflg = out d + (ds.map out).sum := hsum.trans (by simp)
        have h := Admin.detach_fits d hle' hsum' hfit
        rw [← hadmin] at h
        exact h
      have hsame : ∀ e ∈ ds, s.lockFlg e = (s.store d c u.1).lockFlg e := by
        intro e he
        rw [Server.store_lockFlg hd, if_neg fun h : e = d => hdn (h ▸ he)]
      obtain ⟨h₁, h₂, h₃, h₄, h₅⟩ := ih (s.store d c u.1) u.1.list (by simpa using hc) hnd
        (fun e he => by simpa using hlt e (List.mem_cons_of_mem d he)) (hfits.2.congr hsame) hfit.2
        (fun e he => hsame e he ▸ hle e (List.mem_cons_of_mem d he))
      refine ⟨fun e => ?_, by simpa using h₂, by simpa using h₃, fun c' hc' => ?_, fun e he => ?_⟩
      · have := h₁ e
        rw [Server.store_lockFlg hd] at this
        by_cases hed : e = d
        · subst hed
          simp only [hdn, if_false, if_true, List.mem_cons, true_or] at this ⊢
          omega
        · simpa [hed] using this
      · rw [h₄ c' hc', Server.store_client hc, if_neg hc']
      · split at he
        · rename_i hrel
          rcases List.mem_cons.mp he with rfl | he
          · have hz : u.1.dev.lockFlg = 0 := by
              have hi := hidle hrel
              have : u.1.dev.lockFlg = ((s.call s.devices[e] list {}).admin.unlock true).lockFlg := congrArg Admin.lockFlg hadmin
              simp only [Admin.idle, decide_eq_true_eq] at hi
              rw [this, hi.1]
            have := h₁ e
            rw [Server.store_lockFlg hd, if_pos rfl, hz] at this
            omega
          · exact h₅ e he
        · exact h₅ e he

/-! ## 不変条件 -/

/-- 実行の間保たれること。`lockflg` は接続の合計である。 -/
structure Tracked.Inv (t : Tracked) : Prop where
  lock : ∀ d dev, t.server.devices[d]? = some dev → dev.lockFlg = t.total d
  bound : ∀ d, t.total d ≤ 255
  lockflg : ∀ c list, t.server.client c = some list → list.lockflg = ∑ d ∈ Finset.range t.server.devices.length, t.ledger.out c d
  closed : ∀ c, t.server.client c = none → ∀ d, t.ledger.out c d = 0
  range : ∀ c d, t.server.devices.length ≤ d → t.ledger.out c d = 0
  listed : ∀ c list d, t.server.client c = some list → some d ∈ list.devList → d < t.server.devices.length
  released : ∀ d ∈ t.released, ∀ c, t.ledger.out c d = 0

theorem Tracked.inv_start {devices : List Device} (h : ∀ dev ∈ devices, dev.Fresh) : (Tracked.start devices).Inv where
  lock d dev hd := by
    rw [(h dev (List.mem_of_getElem? hd)).1]
    simp [Tracked.total, Tracked.start]
  bound d := by simp [Tracked.total, Tracked.start]
  lockflg c list hc := by simp [Server.client, Tracked.start] at hc
  closed _ _ _ := rfl
  range _ _ _ := rfl
  listed c list d hc := by simp [Server.client, Tracked.start] at hc
  released d hd := by simp [Tracked.start] at hd

theorem Tracked.out_eq_zero {t : Tracked} (hclosed : ∀ c, t.server.client c = none → ∀ d, t.ledger.out c d = 0) {d : Nat}
    (hz : t.total d = 0) (c : Nat) : t.ledger.out c d = 0 := by
  by_cases hc : c < t.server.clients.length
  · exact Finset.sum_eq_zero_iff.mp hz c (Finset.mem_range.mpr hc)
  · refine hclosed c ?_ d
    simp [Server.client, List.getElem?_eq_none (Nat.le_of_not_lt hc)]

theorem Tracked.out_le_total {t : Tracked} {c d : Nat} (hc : c < t.server.clients.length) : t.ledger.out c d ≤ t.total d :=
  Finset.single_le_sum (f := fun c => t.ledger.out c d) (fun _ _ => Nat.zero_le _) (Finset.mem_range.mpr hc)

section

variable {p : Platform} {t t' : Tracked}

theorem Tracked.Inv.openClient (h : t.Inv) :
    (⟨{ t.server with clients := t.server.clients ++ [some {}] }, t.ledger, []⟩ : Tracked).Inv := by
  have hnone : t.server.client t.server.clients.length = none := by simp [Server.client]
  have htotal : ∀ d, (⟨{ t.server with clients := t.server.clients ++ [some {}] }, t.ledger, []⟩ : Tracked).total d = t.total d := by
    intro d
    simp only [Tracked.total, List.length_append, List.length_singleton, Finset.sum_range_succ]
    rw [h.closed _ hnone, add_zero]
  constructor
  · intro d dev hd
    rw [htotal]; exact h.lock d dev hd
  · intro d
    rw [htotal]; exact h.bound d
  · intro c list hc
    rw [Server.client_open] at hc
    split at hc
    · rename_i hcl
      cases hc
      simp [hcl, h.closed _ hnone]
    · exact h.lockflg c list hc
  · intro c hc
    rw [Server.client_open] at hc
    split at hc
    · cases hc
    · exact h.closed c hc
  · exact h.range
  · intro c list d hc hd
    rw [Server.client_open] at hc
    split at hc
    · cases hc
      simp [numDevicesMax] at hd
    · exact h.listed c list d hc hd
  · intro d hd
    cases hd

theorem Tracked.Inv.granted (h : t.Inv) {c : Nat} {req : AttachRequest} {a : Attempt} (ha : a ∈ t.attempt p c req) {u : Call}
    {last : Option LastDevice} (hcount : a.Counted t.ledger req) (hbound : t.ledger.first a.d req = false → t.total a.d < 255)
    (hu : u.admin = (t.server.call a.dev a.list req.config).admin.attach a.d a.way req) :
    (⟨Server.store { t.server with last } a.d c u, t.ledger.granted c a.d req, []⟩ : Tracked).Inv := by
  obtain ⟨-, hdev, hclient⟩ := Tracked.mem_attempt ha
  have hd : a.d < t.server.devices.length := (List.getElem?_eq_some_iff.mp hdev).1
  have hc : c < t.server.clients.length := Server.client_lt hclient
  obtain ⟨hlock, hlockflg⟩ := Admin.attach_counted (x := (t.server.call a.dev a.list req.config).admin) rfl hcount
  rw [← hu] at hlock hlockflg
  have htotal : ∀ d, (⟨Server.store { t.server with last } a.d c u, t.ledger.granted c a.d req, []⟩ : Tracked).total d =
      t.total d + if t.ledger.first a.d req = false ∧ d = a.d then 1 else 0 := by
    intro d
    simp only [Tracked.total, Server.store_clients_length, Ledger.granted_out, Finset.sum_add_distrib]
    rw [sum_pick hc]
  have hstore : ∀ c', (Server.store { t.server with last } a.d c u).client c' = if c' = c then some u.list else t.server.client c' :=
    Server.store_client (s := { t.server with last }) hc
  constructor
  · refine Server.store_forall (fun _ _ _ h => h) ?_ ?_
    · rw [htotal, ← h.lock a.d a.dev hdev]
      have hlock : u.dev.lockFlg = if t.ledger.first a.d req then a.dev.lockFlg else (a.dev.lockFlg + 1) % 256 := hlock
      rw [hlock]
      cases hf : t.ledger.first a.d req with
      | true => simp
      | false =>
          have := hbound hf
          rw [← h.lock a.d a.dev hdev] at this
          simp
          omega
    · intro i dev hi hid
      rw [htotal, if_neg fun h' => hi h'.2, add_zero]
      exact h.lock i dev hid
  · intro d
    rw [htotal]
    have := h.bound d
    split
    · rename_i hf
      have := hbound hf.1
      rw [hf.2]
      omega
    · omega
  · intro c' list hc'
    rw [hstore] at hc'
    simp only [Server.store_length, Ledger.granted_out, Finset.sum_add_distrib]
    split at hc'
    · rename_i hcc
      cases hc'
      have hlockflg : u.list.lockflg = if t.ledger.first a.d req then a.list.lockflg else a.list.lockflg + 1 := hlockflg
      rw [hlockflg, h.lockflg c a.list hclient, hcc]
      cases hf : t.ledger.first a.d req with
      | true => simp
      | false => simp [hd]
    · rename_i hcc
      simp only [hcc, false_and, and_false, if_false, Finset.sum_const_zero, add_zero]
      exact h.lockflg c' list hc'
  · intro c' hc' d
    rw [hstore] at hc'
    split at hc'
    · cases hc'
    · rename_i hcc
      rw [Ledger.granted_out, if_neg fun h' => hcc h'.2.1, add_zero]
      exact h.closed c' hc' d
  · intro c' d hd'
    simp only [Server.store_length] at hd'
    rw [Ledger.granted_out, if_neg (by rintro ⟨-, -, rfl⟩; omega), add_zero]
    exact h.range c' d hd'
  · intro c' list d hc' hd'
    simp only [Server.store_length]
    rw [hstore] at hc'
    split at hc'
    · cases hc'
      have hmem : some d ∈ ((t.server.call a.dev a.list req.config).admin.attach a.d a.way req).list.devList := hu ▸ hd'
      rcases Admin.attach_mem hmem with rfl | hm
      · exact hd
      · exact h.listed c a.list d hclient hm
    · exact h.listed c' list d hc' hd'
  · intro d hd'
    cases hd'

theorem Tracked.Inv.failed (h : t.Inv) {c : Nat} {req : AttachRequest} {a : Attempt} (ha : a ∈ t.attempt p c req) {u : Call}
    {last : Option LastDevice} (hway : a.way ≠ .again)
    (hu : u.admin = (t.server.call a.dev a.list req.config).admin.begin a.way req) :
    (⟨Server.store { t.server with last } a.d c u, t.ledger, []⟩ : Tracked).Inv := by
  obtain ⟨-, hdev, hclient⟩ := Tracked.mem_attempt ha
  have hc : c < t.server.clients.length := Server.client_lt hclient
  have hbegin : u.admin.lockFlg = a.dev.lockFlg ∧ u.admin.list = a.list := by
    rw [hu]
    simp only [Admin.begin, hway, if_false]
    exact ⟨rfl, rfl⟩
  obtain ⟨hlock, hlist⟩ : u.dev.lockFlg = a.dev.lockFlg ∧ u.list = a.list := hbegin
  have hstore : ∀ c', (Server.store { t.server with last } a.d c u).client c' = t.server.client c' := by
    intro c'
    rw [Server.store_client (s := { t.server with last }) hc]
    split
    · rename_i hcc; rw [hcc, hclient, hlist]
    · rfl
  have htotal : ∀ d, (⟨Server.store { t.server with last } a.d c u, t.ledger, []⟩ : Tracked).total d = t.total d := by
    intro d
    simp only [Tracked.total, Server.store_clients_length]
  constructor
  · refine Server.store_forall (fun _ _ _ h => h) ?_ ?_
    · rw [htotal, hlock]; exact h.lock a.d a.dev hdev
    · intro i dev _ hid
      rw [htotal]; exact h.lock i dev hid
  · intro d
    rw [htotal]; exact h.bound d
  · intro c' list hc'
    rw [hstore] at hc'
    simpa using h.lockflg c' list hc'
  · intro c' hc'
    rw [hstore] at hc'
    exact h.closed c' hc'
  · intro c' d hd
    exact h.range c' d (by simpa using hd)
  · intro c' list d hc' hd
    rw [hstore] at hc'
    simpa using h.listed c' list d hc' hd
  · intro d hd
    cases hd

theorem Tracked.Inv.detached (h : t.Inv) {c d : Nat} {dev : Device} {list : DevList} (hdev : t.server.devices[d]? = some dev)
    (hclient : t.server.client c = some list) (hok : t.ledger.out c d ≠ 0 ∨ dev.lockFlg = 0) :
    (⟨t.server.store d c (detachCall p d false (t.server.call dev list {})).1, t.ledger.detached c d,
      if (detachCall p d false (t.server.call dev list {})).2 then [d] else []⟩ : Tracked).Inv := by
  obtain ⟨hadmin, hidle⟩ := detachCall_admin p d false (t.server.call dev list {})
  have hslots := detachCall_devList p d false (t.server.call dev list {})
  generalize detachCall p d false (t.server.call dev list {}) = u at hadmin hidle hslots ⊢
  have hd : d < t.server.devices.length := (List.getElem?_eq_some_iff.mp hdev).1
  have hc : c < t.server.clients.length := Server.client_lt hclient
  have hle := Tracked.out_le_total (d := d) hc
  rw [← h.lock d dev hdev] at hle
  have hsum : t.ledger.out c d ≤ list.lockflg := by
    rw [h.lockflg c list hclient]
    exact Finset.single_le_sum (f := fun d => t.ledger.out c d) (fun _ _ => Nat.zero_le _) (Finset.mem_range.mpr hd)
  have hdrop : u.1.dev.lockFlg + (if t.ledger.out c d ≠ 0 then 1 else 0) = dev.lockFlg ∧
      u.1.list.lockflg + (if t.ledger.out c d ≠ 0 then 1 else 0) = list.lockflg := by
    have h₁ := congrArg Admin.lockFlg hadmin
    have h₂ := congrArg (fun a => a.list.lockflg) hadmin
    by_cases ho : t.ledger.out c d = 0
    · have hz : dev.lockFlg = 0 := hok.resolve_left (not_not.mpr ho)
      simp [Admin.detach, Admin.unlock, Call.admin, Server.call, hz, DevList.unlist] at h₁ h₂
      simp [ho, hz, h₁, h₂]
    · have hl : dev.lockFlg ≠ 0 := by omega
      have hl' : list.lockflg ≠ 0 := by omega
      simp [Admin.detach, Admin.unlock, Call.admin, Server.call, hl, hl', DevList.unlist, lockDrop] at h₁ h₂
      simp [ho, h₁, h₂]
      omega
  set t' : Tracked := ⟨t.server.store d c u.1, t.ledger.detached c d, if u.2 then [d] else []⟩ with ht'
  have htotal : ∀ e, t'.total e + (if t.ledger.out c d ≠ 0 ∧ e = d then 1 else 0) = t.total e := by
    intro e
    have : ∀ c', t.ledger.out c' e = (t.ledger.detached c d).out c' e + if t.ledger.out c d ≠ 0 ∧ c' = c ∧ e = d then 1 else 0 :=
      fun c' => (Ledger.detached_out ..).symm
    simp only [Tracked.total, ht', Server.store_clients_length, this, Finset.sum_add_distrib]
    rw [sum_pick hc]
  have hstore : ∀ c', t'.server.client c' = if c' = c then some u.1.list else t.server.client c' := Server.store_client hc
  have hlen : t'.server.devices.length = t.server.devices.length := Server.store_length
  have hlock : ∀ e dev', t'.server.devices[e]? = some dev' → dev'.lockFlg = t'.total e := by
    refine Server.store_forall (fun _ _ _ h => h) ?_ ?_
    · have h₁ := htotal d
      have h₂ := h.lock d dev hdev
      simp only [and_true] at h₁
      omega
    · intro i dev' hi hid
      have h₁ := htotal i
      rw [if_neg fun h' => hi h'.2, add_zero] at h₁
      rw [h₁]; exact h.lock i dev' hid
  have hclosed : ∀ c', t'.server.client c' = none → ∀ e, t'.ledger.out c' e = 0 := by
    intro c' hc' e
    rw [hstore] at hc'
    split at hc'
    · cases hc'
    · have := Ledger.detached_out t.ledger c d c' e
      have := h.closed c' hc' e
      simp only [ht']
      omega
  constructor
  · exact hlock
  · intro e
    have := htotal e
    have := h.bound e
    omega
  · intro c' l hc'
    rw [hstore] at hc'
    have hout : ∀ e, t.ledger.out c' e = t'.ledger.out c' e + if t.ledger.out c d ≠ 0 ∧ e = d ∧ c' = c then 1 else 0 := by
      intro e
      have := Ledger.detached_out t.ledger c d c' e
      rw [← this]
      congr 1
      exact if_congr (by tauto) rfl rfl
    have hold : ∑ e ∈ Finset.range t.server.devices.length, t.ledger.out c' e =
        ∑ e ∈ Finset.range t.server.devices.length, t'.ledger.out c' e + if t.ledger.out c d ≠ 0 ∧ c' = c then 1 else 0 := by
      simp only [hout, Finset.sum_add_distrib]
      rw [sum_pick hd]
    rw [hlen]
    split at hc'
    · rename_i hcc
      cases hc'
      subst hcc
      have := h.lockflg c' list hclient
      simp only [and_true] at hold
      omega
    · rename_i hcc
      rw [if_neg fun h' => hcc h'.2, add_zero] at hold
      rw [← hold]; exact h.lockflg c' l hc'
  · exact hclosed
  · intro c' e he
    have := Ledger.detached_out t.ledger c d c' e
    have := h.range c' e (hlen ▸ he)
    simp only [ht']
    omega
  · intro c' l e hc' he
    rw [hlen]
    rw [hstore] at hc'
    split at hc'
    · cases hc'
      rw [hslots] at he
      obtain ⟨x, hx, hxe⟩ := List.mem_map.mp he
      split at hxe
      · cases hxe
      · exact h.listed c list e hclient (hxe ▸ hx)
    · exact h.listed c' l e hc' he
  · intro e he c'
    simp only [ht'] at he
    split at he
    · rename_i hrel
      obtain rfl := List.mem_singleton.mp he
      have hi := hidle hrel
      simp only [Admin.idle, decide_eq_true_eq] at hi
      have hz : u.1.dev.lockFlg = 0 := (congrArg Admin.lockFlg hadmin).trans hi.1
      have h₁ := htotal e
      have h₂ := h.lock e dev hdev
      simp only [and_true] at h₁
      exact Tracked.out_eq_zero hclosed (by omega) c'
    · cases he

/-- 閉じる前の、記録された装置についての和。 -/
theorem Tracked.Inv.lockflg_eq_sum (h : t.Inv) {c : Nat} {list : DevList} (hclient : t.server.client c = some list)
    (hl : ∀ d < t.server.devices.length, t.ledger.out c d ≠ 0 → some d ∈ list.devList) :
    list.lockflg = (list.closeOrder.map (t.ledger.out c)).sum := by
  have hnd : list.closeOrder.Nodup := nodup_eraseDups _
  rw [h.lockflg c list hclient, ← List.sum_toFinset _ hnd]
  refine (Finset.sum_subset ?_ ?_).symm
  · intro d hd
    rw [List.mem_toFinset] at hd
    exact Finset.mem_range.mpr (h.listed c list d hclient (DevList.mem_closeOrder.mp hd))
  · intro d hd hd'
    by_contra hne
    exact hd' (List.mem_toFinset.mpr (DevList.mem_closeOrder.mpr (hl d (Finset.mem_range.mp hd) hne)))

theorem Tracked.Inv.closed_step (h : t.Inv) {c : Nat} {list : DevList} (hclient : t.server.client c = some list)
    (hok : t.Accountable p (.close c)) :
    (⟨(pciOcbFree p t.server c list).1, t.ledger.closed c, (pciOcbFree p t.server c list).2⟩ : Tracked).Inv ∧
      ∀ d, t.server.lockFlg d = (pciOcbFree p t.server c list).1.lockFlg d + t.ledger.out c d := by
  obtain ⟨hlisted, hfits⟩ := hok list hclient
  have hc : c < t.server.clients.length := Server.client_lt hclient
  have hlt : ∀ d, some d ∈ list.devList → d < t.server.devices.length := fun d hd => h.listed c list d hclient hd
  have hlock : ∀ d, d < t.server.devices.length → t.server.lockFlg d = t.total d := fun d hd =>
    (Server.lockFlg_eq (List.getElem?_eq_getElem hd)).trans (h.lock d _ (List.getElem?_eq_getElem hd))
  obtain ⟨h₁, h₂, h₃, h₄, h₅⟩ := closeAll_spec p c (t.ledger.out c) list.closeOrder t.server list hc (nodup_eraseDups _)
    (fun d hd => hlt d (DevList.mem_closeOrder.mp hd)) hfits (h.lockflg_eq_sum hclient hlisted)
    (fun d hd => hlock d (hlt d (DevList.mem_closeOrder.mp hd)) ▸ Tracked.out_le_total hc)
  rw [pciOcbFree_eq p c hlt]
  generalize closeAll p c list.closeOrder t.server list = r at h₁ h₂ h₃ h₄ h₅ ⊢
  -- 記録されていない装置には、返していない接続がない。
  have hdrop : ∀ d, t.server.lockFlg d = r.1.lockFlg d + t.ledger.out c d := by
    intro d
    rw [← h₁ d]
    by_cases hd : d ∈ list.closeOrder
    · rw [if_pos hd]
    · rw [if_neg hd]
      by_cases hdl : d < t.server.devices.length
      · have : t.ledger.out c d = 0 := by
          by_contra hne
          exact hd (DevList.mem_closeOrder.mpr (hlisted d hdl hne))
        rw [this]
      · rw [h.range c d (Nat.le_of_not_lt hdl)]
  refine ⟨?_, hdrop⟩
  set t' : Tracked := ⟨{ r.1 with clients := r.1.clients.set c none }, t.ledger.closed c, r.2⟩ with ht'
  have hclients : ∀ c', t'.server.client c' = if c' = c then none else t.server.client c' := by
    intro c'
    split
    · rename_i hcc
      subst hcc
      simp [ht', Server.client, h₃, hc]
    · rename_i hcc
      rw [← h₄ c' hcc]
      simp only [ht', Server.client, List.getElem?_set_ne (Ne.symm hcc)]
  have htotal : ∀ d, t'.total d + t.ledger.out c d = t.total d := by
    intro d
    have hpick : ∀ c' ∈ Finset.range t.server.clients.length,
        (t.ledger.closed c).out c' d + (if True ∧ c' = c ∧ True then t.ledger.out c d else 0) = t.ledger.out c' d := by
      intro c' _
      rw [Ledger.closed_out]
      by_cases hcc : c' = c
      · subst hcc; simp
      · simp [hcc]
    have hsum := Finset.sum_congr rfl hpick
    rw [Finset.sum_add_distrib] at hsum
    simp only [true_and, and_true, Finset.sum_ite_eq', Finset.mem_range, hc, if_true] at hsum
    simpa [Tracked.total, ht', h₃] using hsum
  have hclosed : ∀ c', t'.server.client c' = none → ∀ d, t'.ledger.out c' d = 0 := by
    intro c' hc' d
    simp only [ht', Ledger.closed_out]
    split
    · rfl
    · rename_i hcc
      rw [hclients, if_neg hcc] at hc'
      exact h.closed c' hc' d
  have hlock' : ∀ d, d < t.server.devices.length → r.1.lockFlg d = t'.total d := by
    intro d hd
    have e₁ := hdrop d
    have e₂ := htotal d
    rw [hlock d hd] at e₁
    omega
  constructor
  · intro d dev hd
    have hd' : d < t.server.devices.length := h₂ ▸ (List.getElem?_eq_some_iff.mp hd).1
    rw [← hlock' d hd', ← Server.lockFlg_eq hd]
    rfl
  · intro d
    have := htotal d
    have := h.bound d
    omega
  · intro c' l hc'
    rw [hclients] at hc'
    split at hc'
    · cases hc'
    · rename_i hcc
      simp only [ht', h₂, Ledger.closed_out, if_neg hcc]
      exact h.lockflg c' l hc'
  · exact hclosed
  · intro c' d hd
    simp only [ht', Ledger.closed_out]
    split
    · rfl
    · exact h.range c' d (h₂ ▸ hd)
  · intro c' l d hc' hd
    simp only [ht', h₂]
    rw [hclients] at hc'
    split at hc'
    · cases hc'
    · exact h.listed c' l d hc' hd
  · intro d hd c'
    by_cases hdl : d < t.server.devices.length
    · exact Tracked.out_eq_zero hclosed ((hlock' d hdl).symm.trans (h₅ d hd)) c'
    · have := h.range c' d (Nat.le_of_not_lt hdl)
      simp only [ht', Ledger.closed_out, this, ite_self]

/-! ## 実行 -/

theorem Tracked.Inv.step (h : t.Inv) {r : Request} (hdom : t.InDomain p r) (hok : t.Accountable p r) (hs : t.step p r = .ok t') :
    t'.Inv := by
  cases r with
  | openClient =>
      cases hs
      exact h.openClient
  | attach c req ans =>
      simp only [Tracked.step] at hs
      cases hc : t.server.client c with
      | none => rw [hc] at hs; cases hs
      | some list =>
          simp only [hc] at hs
          have hout : AttachOutcome p t c req ans _ _ := pciAttachDevice_outcome hc
          generalize pciAttachDevice p t.server c list req ans = r at hs hout
          obtain ⟨s, res⟩ := r
          cases hout with
          | refused e =>
              cases hs
              exact { h with released := fun d hd => by cases hd }
          | granted a ha hg last u hu =>
              cases hs
              exact h.granted ha ((hok a ha).2 hg) (hdom a ha hg) hu
          | failed a ha hg last u hu e =>
              cases hs
              exact h.failed ha (fun hw => hg (.inr ((hok a ha).1 hw))) hu
  | detach c d =>
      simp only [Tracked.step] at hs
      cases hc : t.server.client c with
      | none => rw [hc] at hs; cases hs
      | some list =>
          simp only [hc] at hs
          cases hd : t.server.devices[d]? with
          | none =>
              simp only [pciDetachDevice, hd] at hs
              cases hs
              exact { h with released := fun d hd => by cases hd }
          | some dev =>
              rw [pciDetachDevice_eq p t.server c list d false hd] at hs
              cases hs
              exact h.detached hd hc (hok.imp_right fun hz => (Server.lockFlg_eq hd).symm.trans hz)
  | close c =>
      simp only [Tracked.step] at hs
      cases hc : t.server.client c with
      | none => rw [hc] at hs; cases hs
      | some list =>
          simp only [hc] at hs
          cases hs
          exact (h.closed_step hc hok).1

end

/-- 条件を満たす要求だけの実行では、どの装置の `LockFlg` も返していない接続の数に等しく、`release_resources()` は、どの接続も残って
いない装置にだけ呼ばれる。接続を閉じると、その接続の分だけが引かれる。 -/
theorem locks_accounted (p : Platform) (devices : List Device) (hfresh : ∀ dev ∈ devices, dev.Fresh) (t : Tracked)
    (h : Reaches (Tracked.step p) (fun t r => t.InDomain p r ∧ t.Accountable p r) (Tracked.start devices) t) :
    t.Accounted ∧
      ∀ c t', t.Accountable p (.close c) → t.step p (.close c) = .ok t' →
        (∀ d, t.server.lockFlg d = t'.server.lockFlg d + t.ledger.out c d) ∧ ∀ c', c' ≠ c → t'.ledger.out c' = t.ledger.out c' := by
  have hinv : t.Inv := h.invariant (Tracked.inv_start hfresh) fun u r v hu hr hs => hu.step hr.1 hr.2 hs
  refine ⟨⟨hinv.lock, hinv.released⟩, fun c t' hok hs => ?_⟩
  simp only [Tracked.step] at hs
  cases hc : t.server.client c with
  | none => rw [hc] at hs; cases hs
  | some list =>
      simp only [hc] at hs
      cases hs
      refine ⟨(hinv.closed_step hc hok).2, fun c' hc' => ?_⟩
      funext d
      rw [Ledger.closed_out, if_neg hc']

theorem locks_accounted_sample :
    ∃ t, Reaches (Tracked.step samplePlatform) (fun t r => t.InDomain samplePlatform r ∧ t.Accountable samplePlatform r)
      (Tracked.start [sampleDevice]) t ∧ t.server.lockFlg 0 = 1 ∧ t.total 0 = 1 ∧ t.Accounted := by
  obtain ⟨t, ht, hp⟩ := (Option.any_eq_true _ _).mp
    (by decide :
      (runAll (Tracked.step samplePlatform) (fun t r => t.InDomain samplePlatform r ∧ t.Accountable samplePlatform r)
        [.openClient, .openClient, .attach 0 (sampleRequest pciInitBase0) { io := fun _ _ => some 0x1000 },
          .attach 1 (sampleRequest 0) {}, .detach 0 0, .close 0] (Tracked.start [sampleDevice])).any
        (fun t => t.server.lockFlg 0 = 1 ∧ t.total 0 = 1) = true)
  have hr := runAll_reaches ht
  have hfresh : ∀ dev ∈ [sampleDevice], dev.Fresh := by
    intro dev hd
    rw [List.mem_singleton.mp hd]
    exact ⟨rfl, rfl, rfl, fun kind => by cases kind <;> rfl⟩
  obtain ⟨h₁, h₂⟩ := of_decide_eq_true hp
  exact ⟨t, hr, h₁, h₂, (locks_accounted samplePlatform [sampleDevice] hfresh t hr).1⟩

/-- 見るだけの接続は `LockFlg` を増やすが接続の記録に入らず、閉じても引かれない。 -/
theorem show_only_lock_survives_close :
    ∃ t, Reaches (Tracked.step samplePlatform) (fun t r => t.InDomain samplePlatform r) (Tracked.start [sampleDevice]) t ∧
      ¬t.Accounted := by
  obtain ⟨t, ht, hp⟩ := (Option.any_eq_true _ _).mp
    (by decide :
      (runAll (Tracked.step samplePlatform) (fun t r => t.InDomain samplePlatform r)
        [.openClient, .attach 0 (sampleRequest 0) {}, .close 0] (Tracked.start [sampleDevice])).any
        (fun t => t.server.lockFlg 0 = 1 ∧ t.total 0 = 0 ∧ t.server.devices ≠ []) = true)
  obtain ⟨h₁, h₂, h₃⟩ := of_decide_eq_true hp
  refine ⟨t, runAll_reaches ht, fun h => ?_⟩
  obtain ⟨dev, devs, hd⟩ := List.exists_cons_of_ne_nil h₃
  have hdev : t.server.devices[0]? = some dev := by rw [hd]; rfl
  have := h.lock 0 dev hdev
  rw [← Server.lockFlg_eq hdev] at this
  omega

end Imx6Bsp.Pci
