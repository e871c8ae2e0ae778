import Imx6Bsp.Pci.Outcome

/-!
# 接続の帳簿

複数の接続が任意の順に出す要求の実行と、要求と返事だけから作る帳簿を定める。帳簿は、接続ごと装置ごとの、返していない接続の数と、最初の
管理者の接続の持ち主である。切り離しは、まず管理者でない接続を返し、なければ管理者の接続を返す。
-/

namespace Imx6Bsp.Pci

/-! ## 要求 -/

inductive Request
  | openClient
  | attach (c : Nat) (req : AttachRequest) (ans : Answers)
  | detach (c handle : Nat)
  | close (c : Nat)

inductive ServeFault
  | notOpen
deriving DecidableEq, Repr

/-- 開いている接続 `c` の記録。 -/
def Server.client (s : Server) (c : Nat) : Option DevList := (s.clients[c]?).join

/-! ## 帳簿 -/

/-- `out c d` は接続 `c` の装置 `d` の、返していない接続の数で、最初の管理者の接続を除く。`mgr d` は最初の管理者の接続の持ち主、
`excl c d` は、その中に `PCI_SHARE` なしの初期化する接続があることである。 -/
structure Ledger where
  out : Nat → Nat → Nat := fun _ _ => 0
  mgr : Nat → Option Nat := fun _ => none
  excl : Nat → Nat → Bool := fun _ _ => false

/-- 最初の管理者の接続か。 -/
def Ledger.first (l : Ledger) (d : Nat) (req : AttachRequest) : Bool := req.mgr && l.mgr d = none

/-- 管理者でなく、初期化する接続か。 -/
def AttachRequest.initialising (req : AttachRequest) : Bool := !req.mgr && !req.showPci

/-- 共有しない初期化する接続か。 -/
def AttachRequest.exclusive (req : AttachRequest) : Bool := req.initialising && !has req.flags pciShare

/-- 成功した接続を書く。 -/
def Ledger.granted (l : Ledger) (c d : Nat) (req : AttachRequest) : Ledger :=
  if l.first d req then { l with mgr := Function.update l.mgr d (some c) }
  else
    { l with
      out := Function.update l.out c (Function.update (l.out c) d (l.out c d + 1))
      excl := Function.update l.excl c (Function.update (l.excl c) d (l.excl c d || req.exclusive)) }

/-- 切り離しを書く。 -/
def Ledger.detached (l : Ledger) (c d : Nat) : Ledger :=
  if l.out c d ≠ 0 then
    { l with
      out := Function.update l.out c (Function.update (l.out c) d (l.out c d - 1))
      excl := Function.update l.excl c (Function.update (l.excl c) d (l.excl c d && l.out c d ≠ 1)) }
  else if l.mgr d = some c then { l with mgr := Function.update l.mgr d none }
  else l

/-- 接続を閉じたことを書く。 -/
def Ledger.closed (l : Ledger) (c : Nat) : Ledger :=
  { out := Function.update l.out c fun _ => 0
    mgr := fun d => if l.mgr d = some c then none else l.mgr d
    excl := Function.update l.excl c fun _ => false }

/-! ## 実行 -/

/-- サーバと帳簿。`released` は最後の要求で `release_resources()` を呼んだ装置である。 -/
structure Tracked where
  server : Server
  ledger : Ledger := {}
  released : List Nat := []

def Tracked.start (devices : List Device) : Tracked := { server := { devices } }

def Tracked.step (p : Platform) (t : Tracked) : Request → Except ServeFault Tracked
  | .openClient => .ok ⟨{ t.server with clients := t.server.clients ++ [some {}] }, t.ledger, []⟩
  | .attach c req ans =>
      match t.server.client c with
      | none => .error .notOpen
      | some list =>
          let r := pciAttachDevice p t.server c list req ans
          match r.2 with
          | .ok d => .ok ⟨r.1, t.ledger.granted c d req, []⟩
          | .error _ => .ok ⟨r.1, t.ledger, []⟩
  | .detach c handle =>
      match t.server.client c with
      | none => .error .notOpen
      | some list =>
          match pciDetachDevice p t.server c list handle false with
          | none => .ok { t with released := [] }
          | some r => .ok ⟨r.1, t.ledger.detached c handle, if r.2.2 then [handle] else []⟩
  | .close c =>
      match t.server.client c with
      | none => .error .notOpen
      | some list =>
          let r := pciOcbFree p t.server c list
          .ok ⟨r.1, t.ledger.closed c, r.2⟩

/-- 走査したばかりの装置。 -/
def Device.Fresh (dev : Device) : Prop :=
  dev.lockFlg = 0 ∧ dev.mgrAttach = false ∧ dev.attachFlags = 0 ∧ ∀ kind, (dev.alloc kind).address = 0

/-! ## 数の一致 -/

/-- 装置 `d` の、返していない接続の総数。 -/
def Tracked.total (t : Tracked) (d : Nat) : Nat := ∑ c ∈ Finset.range t.server.clients.length, t.ledger.out c d

/-- 接続の要求が相手にする装置と、その決まり方。 -/
structure Attempt where
  d : Nat
  way : Way
  dev : Device
  list : DevList

def Tracked.attempt (p : Platform) (t : Tracked) (c : Nat) (req : AttachRequest) : Option Attempt := do
  let r ← (lookup p t.server.devices req).toOption
  let dev ← t.server.devices[r.1]?
  let list ← t.server.client c
  return ⟨r.1, r.2, dev, list⟩

/-- 必要な答えがそろう。 -/
def Attempt.Answered (a : Attempt) (p : Platform) (t : Tracked) (req : AttachRequest) (ans : Answers) : Prop :=
  Pci.Answered p req (a.way.next a.dev) (a.dev.classCode = pciCardbus) ans (t.server.call a.dev a.list req.config)

/-- 接続が成功する。 -/
def Attempt.Granted (a : Attempt) (p : Platform) (t : Tracked) (req : AttachRequest) (ans : Answers) : Prop :=
  a.way = .relock ∨ a.Answered p t req ans

/-- 成功した接続が `LockFlg` を一つ増やすのは、それが最初の管理者の接続でないときに限る。 -/
def Attempt.Counted (a : Attempt) (l : Ledger) (req : AttachRequest) : Prop :=
  match a.way with
  | .relock => l.first a.d req = false
  | .found _ => req.mgr = true → (l.mgr a.d = none ↔ req.showPci = false ∧ a.dev.attachFlags = 0)
  | .again => l.first a.d req = false ∧ (req.showPci = true ∨ a.dev.attachFlags = 0)

/-- `PCI_OcbFree()` が切り離す装置の順。 -/
def DevList.closeOrder (list : DevList) : List Nat := list.devList.reduceOption.eraseDups

/-- 閉じる接続の、それぞれの装置から引く数が帳簿の数に等しい。 -/
def CloseFits (out lock : Nat → Nat) : List Nat → Prop
  | [] => True
  | d :: ds =>
      (lock d ≠ 0 → if out d + (ds.map out).sum = lock d then (ds.map out).sum = 0 else out d = 1) ∧ CloseFits out lock ds

/-- 装置 `d` の `LockFlg`。 -/
def Server.lockFlg (s : Server) (d : Nat) : Nat := (s.devices[d]?.map (·.lockFlg)).getD 0

/-- 要求の前提。持っている装置だけを切り離し、どの装置の接続も 255 を超えない。 -/
def Tracked.InDomain (p : Platform) (t : Tracked) : Request → Prop
  | .attach c req ans => ∀ a ∈ t.attempt p c req, a.Granted p t req ans → t.ledger.first a.d req = false → t.total a.d < 255
  | .detach c handle => t.ledger.out c handle ≠ 0 ∨ t.ledger.mgr handle = some c
  | _ => True

/-- 数が合い続けるための条件。 -/
def Tracked.Accountable (p : Platform) (t : Tracked) : Request → Prop
  | .openClient => True
  | .attach c req ans =>
      ∀ a ∈ t.attempt p c req,
        (a.way = .again → a.Answered p t req ans) ∧ (a.Granted p t req ans → a.Counted t.ledger req)
  | .detach c handle => t.ledger.out c handle ≠ 0 ∨ t.server.lockFlg handle = 0
  | .close c =>
      ∀ list ∈ t.server.client c,
        (∀ d < t.server.devices.length, t.ledger.out c d ≠ 0 → some d ∈ list.devList) ∧
          CloseFits (t.ledger.out c) t.server.lockFlg list.closeOrder

section

variable (p : Platform) (t : Tracked) (req : AttachRequest) (ans : Answers) (a : Attempt)

instance Attempt.decidableAnswered : Decidable (a.Answered p t req ans) := inferInstanceAs (Decidable (Pci.Answered ..))

instance Attempt.decidableGranted : Decidable (a.Granted p t req ans) := inferInstanceAs (Decidable (_ ∨ _))

instance Attempt.decidableCounted (l : Ledger) : Decidable (a.Counted l req) :=
  match h : a.way with
  | .relock => decidable_of_iff (l.first a.d req = false) (by simp only [Attempt.Counted, h])
  | .found _ =>
      decidable_of_iff (req.mgr = true → (l.mgr a.d = none ↔ req.showPci = false ∧ a.dev.attachFlags = 0)) (by
        simp only [Attempt.Counted, h])
  | .again =>
      decidable_of_iff (l.first a.d req = false ∧ (req.showPci = true ∨ a.dev.attachFlags = 0)) (by simp only [Attempt.Counted, h])

instance decidableCloseFits (out lock : Nat → Nat) : (ds : List Nat) → Decidable (CloseFits out lock ds)
  | [] => .isTrue trivial
  | _ :: ds =>
      have := decidableCloseFits out lock ds
      inferInstanceAs (Decidable (_ ∧ _))

instance decidableForallOption {α : Type*} (o : Option α) (P : α → Prop) [∀ a, Decidable (P a)] : Decidable (∀ a ∈ o, P a) :=
  match o with
  | none => .isTrue nofun
  | some a => decidable_of_iff (P a) ⟨fun h _ hb => Option.some.inj hb ▸ h, fun h => h a rfl⟩

instance Tracked.decidableInDomain : (r : Request) → Decidable (t.InDomain p r)
  | .attach c req ans =>
      inferInstanceAs (Decidable (∀ a ∈ t.attempt p c req, a.Granted p t req ans → t.ledger.first a.d req = false → t.total a.d < 255))
  | .detach _ _ => inferInstanceAs (Decidable (_ ∨ _))
  | .openClient => .isTrue trivial
  | .close _ => .isTrue trivial

instance Tracked.decidableAccountable : (r : Request) → Decidable (t.Accountable p r)
  | .openClient => .isTrue trivial
  | .attach c req ans =>
      inferInstanceAs (Decidable (∀ a ∈ t.attempt p c req,
        (a.way = .again → a.Answered p t req ans) ∧ (a.Granted p t req ans → a.Counted t.ledger req)))
  | .detach _ _ => inferInstanceAs (Decidable (_ ∨ _))
  | .close c =>
      inferInstanceAs (Decidable (∀ list ∈ t.server.client c,
        (∀ d < t.server.devices.length, t.ledger.out c d ≠ 0 → some d ∈ list.devList) ∧
          CloseFits (t.ledger.out c) t.server.lockFlg list.closeOrder))

end

/-- 数の一致。`release_resources()` は、どの接続も残っていない装置にだけ呼ぶ。 -/
structure Tracked.Accounted (t : Tracked) : Prop where
  lock : ∀ d dev, t.server.devices[d]? = some dev → dev.lockFlg = t.total d
  released : ∀ d ∈ t.released, ∀ c, t.ledger.out c d = 0

/-! ## 占有 -/

/-- 装置 `d` を占有している接続がある。 -/
def Tracked.Occupied (t : Tracked) (d : Nat) : Prop := ∃ c < t.server.clients.length, t.ledger.excl c d = true

/-- 探して行う接続だけの要求。 -/
def Request.BySearch : Request → Prop
  | .attach _ req _ => req.handle = none
  | _ => True

/-- 閉じるときの切り離しが、ほかの接続が占有している装置の `LockFlg` を 0 にしない。最初の引数は接続の合計である。 -/
def CloseSpares (held : Nat → Prop) (lock : Nat → Nat) : Nat → List Nat → Prop
  | _, [] => True
  | lockflg, d :: ds =>
      if lock d = 0 then CloseSpares held lock lockflg ds
      else (held d → lockDrop true lockflg (lock d) < lock d) ∧ CloseSpares held lock (lockflg - lockDrop true lockflg (lock d)) ds

/-- 占有が守られ続けるための条件。 -/
def Tracked.Spares (p : Platform) (t : Tracked) : Request → Prop
  | .openClient => True
  | .attach c req ans =>
      ∀ a ∈ t.attempt p c req, a.Granted p t req ans →
        (t.Occupied a.d → has req.flags pciShare = false ∧ a.dev.lockFlg < 255) ∧
          (req.exclusive = true → has a.dev.attachFlags pciShare = false)
  | .detach c handle =>
      (∃ c' < t.server.clients.length, (t.ledger.detached c handle).excl c' handle = true) → 1 < t.server.lockFlg handle
  | .close c =>
      ∀ list ∈ t.server.client c,
        CloseSpares (fun d => ∃ c' < t.server.clients.length, c' ≠ c ∧ t.ledger.excl c' d = true) t.server.lockFlg list.lockflg
          list.closeOrder

section

variable (p : Platform) (t : Tracked)

instance Tracked.decidableOccupied (d : Nat) : Decidable (t.Occupied d) :=
  inferInstanceAs (Decidable (∃ c < t.server.clients.length, t.ledger.excl c d = true))

instance Request.decidableBySearch : (r : Request) → Decidable r.BySearch
  | .attach _ req _ => inferInstanceAs (Decidable (req.handle = none))
  | .openClient => .isTrue trivial
  | .detach _ _ => .isTrue trivial
  | .close _ => .isTrue trivial

instance decidableCloseSpares (held : Nat → Prop) [DecidablePred held] (lock : Nat → Nat) :
    (lockflg : Nat) → (ds : List Nat) → Decidable (CloseSpares held lock lockflg ds)
  | _, [] => .isTrue trivial
  | lockflg, d :: ds =>
      have := decidableCloseSpares held lock lockflg ds
      have := decidableCloseSpares held lock (lockflg - lockDrop true lockflg (lock d)) ds
      inferInstanceAs (Decidable (if lock d = 0 then CloseSpares held lock lockflg ds
        else (held d → lockDrop true lockflg (lock d) < lock d) ∧
          CloseSpares held lock (lockflg - lockDrop true lockflg (lock d)) ds))

instance Tracked.decidableSpares : (r : Request) → Decidable (t.Spares p r)
  | .openClient => .isTrue trivial
  | .attach c req ans =>
      inferInstanceAs (Decidable (∀ a ∈ t.attempt p c req, a.Granted p t req ans →
        (t.Occupied a.d → has req.flags pciShare = false ∧ a.dev.lockFlg < 255) ∧
          (req.exclusive = true → has a.dev.attachFlags pciShare = false)))
  | .detach c handle =>
      inferInstanceAs (Decidable ((∃ c' < t.server.clients.length, (t.ledger.detached c handle).excl c' handle = true) →
        1 < t.server.lockFlg handle))
  | .close c =>
      inferInstanceAs (Decidable (∀ list ∈ t.server.client c,
        CloseSpares (fun d => ∃ c' < t.server.clients.length, c' ≠ c ∧ t.ledger.excl c' d = true) t.server.lockFlg list.lockflg
          list.closeOrder))

end

end Imx6Bsp.Pci
