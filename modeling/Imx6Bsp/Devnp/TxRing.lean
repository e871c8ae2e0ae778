import Imx6Bsp.Lib.Runs

/-!
# イーサネットの送信リング（`devnp/mx6x/transmit.c`、`detect.c`）

`mx6q_start()`、`mx6q_transmit_complete()`、`mx6q_defrag()` と、`mx6q_init()` の送信リングの初期化を写す。mbuf の鎖は番号で表し、中身は
断片の列である。NIC の歩みは、どの繰り返しの前にも何歩でも入る。時刻印と統計は写さない。
-/

namespace Imx6Bsp.Devnp

/-! ## データ -/

/-- 送る側から渡される、長さが正の mbuf の鎖。 -/
structure Packet where
  frags : List (List UInt8)
  pos : 0 < frags.flatten.length

/-- `mpc_bd_t`。`buffer` は mbuf の番号とその中の断片の番号、`ready`、`wrap`、`last`、`tc` は `status` のビットである。 -/
structure TxBd where
  length : Nat := 0
  buffer : Nat × Nat := (0, 0)
  ready : Bool := false
  wrap : Bool := false
  last : Bool := false
  tc : Bool := false
  bdu : Bool := false
deriving DecidableEq, Repr

/-- NIC が送った一つの記述子の分。 -/
structure Sent where
  bytes : List UInt8
  last : Bool
deriving DecidableEq, Repr

/-- `mem` は mbuf の中身、`issued` はこれまでに現れた mbuf の鎖の数、`frees` は `m_freem()` した回数、`accepted` は送信待ちから取り出し、落として
いない中身の記録である。 -/
structure TxRing where
  num : Nat
  mclbytes : Nat
  bd : Nat → TxBd := fun _ => {}
  pkts : Nat → Option Nat := fun _ => none
  pidx : Nat := 0
  cidx : Nat := 0
  inuse : Nat := 0
  nic : Nat := 0
  running : Bool := false
  oactive : Bool := false
  queue : List Packet := []
  mem : Nat → List (List UInt8) := fun _ => []
  issued : Nat := 0
  frees : Nat → Nat := fun _ => 0
  sent : List Sent := []
  accepted : List (List UInt8) := []

/-- `MX6Q_MAX_FRAGS`。 -/
def maxFrags : Nat := 1

/-- `MX6Q_UNUSED_DESCR`。 -/
def unusedDescr : Nat := 4

/-- 指定された記述子の数を `mx6q_attach()` が丸めたもの。 -/
def clampDescriptors (lo hi n : Nat) : Nat :=
  let n := n / 4 * 4
  let n := if n < lo then lo else n
  if n > hi then hi else n

theorem clampDescriptors_ge {lo hi n : Nat} (h : lo ≤ hi) : lo ≤ clampDescriptors lo hi n := by
  simp only [clampDescriptors]
  split_ifs <;> omega

def minNumTxDescriptors : Nat := 64

def maxNumTxDescriptors : Nat := 2048

/-- まだ初期化していないリング。 -/
def TxRing.start (requested mclbytes : Nat) : TxRing :=
  { num := clampDescriptors minNumTxDescriptors maxNumTxDescriptors requested, mclbytes }

/-! ## NIC -/

/-- 記述子の指す断片を、記述子の長さだけ読む。 -/
def TxRing.fetch (t : TxRing) (b : TxBd) : Sent := ⟨((t.mem b.buffer.1)[b.buffer.2]?.getD []).take b.length, b.last⟩

/-- NIC の一歩。`TXBD_R` が立っていれば送って落とし、次へ進む。 -/
def TxRing.nicStep (t : TxRing) : TxRing :=
  let b := t.bd t.nic
  if b.ready then
    { t with
      sent := t.sent ++ [t.fetch b]
      bd := Function.update t.bd t.nic { b with ready := false, bdu := true }
      nic := if b.wrap then 0 else t.nic + 1 }
  else t

def TxRing.nicRun (m : Nat) (t : TxRing) : TxRing := TxRing.nicStep^[m] t

/-! ## 初期化 -/

/-- `mx6q_init()` の送信リングの部分。`mx6q_reset()` の後なので、NIC は先頭から始める。最後の記述子だけは `status` を代入せず、ビットを
立てる。 -/
def TxRing.mx6qInit (t : TxRing) : TxRing :=
  { t with
    bd := fun i =>
      if i < t.num then
        if i + 1 = t.num then { t.bd i with wrap := true }
        else { t.bd i with ready := false, wrap := false, last := true, tc := true }
      else t.bd i
    frees := fun id => t.frees id + ((Finset.range t.num).filter fun i => t.pkts i = some id).card
    pkts := fun i => if i < t.num then none else t.pkts i
    pidx := 0, cidx := 0, inuse := 0, nic := 0, running := true, oactive := false
    -- 送っていなかった分はここで落とす。
    accepted := t.accepted.take t.sent.length }

/-! ## 送信の完了 -/

/-- `m_freem()`。 -/
def TxRing.free (t : TxRing) (id : Nat) : TxRing := { t with frees := Function.update t.frees id (t.frees id + 1) }

def TxRing.next (t : TxRing) (i : Nat) : Nat := (i + 1) % t.num

/-- `tx_pidx` まで、送り終えた記述子を片付ける一回。 -/
def TxRing.reap (t : TxRing) : TxRing :=
  let b := t.bd t.cidx
  let t := match t.pkts t.cidx with
    | none => t
    | some id => { t.free id with pkts := Function.update t.pkts t.cidx none }
  { t with
    bd := Function.update t.bd t.cidx { b with ready := false, last := false, tc := false, bdu := false }
    inuse := t.inuse - 1, cidx := t.next t.cidx }

/-- `mx6q_transmit_complete()`。`nics k` は `k` 回目の前の NIC の歩みの数である。使っている記述子の数だけ繰り返せば止まる。 -/
def TxRing.completeLoop (nics : Nat → Nat) : (fuel k : Nat) → TxRing → TxRing
  | 0, k, t => t.nicRun (nics k)
  | fuel + 1, k, t =>
      let t := t.nicRun (nics k)
      if t.pidx = t.cidx then t
      else if (t.bd t.cidx).ready ∨ ¬(t.bd t.cidx).bdu then t
      else completeLoop nics fuel (k + 1) t.reap

def TxRing.mx6qTransmitComplete (t : TxRing) (nics : Nat → Nat) : TxRing := TxRing.completeLoop nics t.inuse 0 t

/-! ## 送信 -/

/-- `m_dup()` の写し方。 -/
structure Dup where
  cut : List UInt8 → List (List UInt8)
  flatten : ∀ bytes, (cut bytes).flatten = bytes

/-- mbuf を取る関数の答え。 -/
structure Alloc where
  dup : Option Dup := none
  mget : Bool := true
  mclget : Bool := true

/-- 新しい mbuf の鎖。 -/
def TxRing.issue (t : TxRing) (frags : List (List UInt8)) : Nat × TxRing :=
  (t.issued, { t with mem := Function.update t.mem t.issued frags, issued := t.issued + 1 })

/-- `mx6q_defrag()`。渡した鎖を使わない場合の解放を含めて、元のとおりに写す。 -/
def TxRing.mx6qDefrag (t : TxRing) (id : Nat) (a : Alloc) : Option Nat × TxRing :=
  let bytes := (t.mem id).flatten
  if bytes.length > t.mclbytes then
    match a.dup with
    | none => (none, t.free id)
    | some dup =>
        let (id₂, t) := t.issue (dup.cut bytes)
        if (t.mem id₂).length > maxFrags then (none, t.free id₂) else (some id₂, t)
  else if ¬a.mget then (none, t.free id)
  else
    let (id₂, t) := t.issue [bytes]
    if ¬a.mclget then (none, (t.free id).free id₂) else (some id₂, t.free id)

/-- 記述子に断片を入れる繰り返し。`TXBD_R` の立った記述子に当たれば `none` を返す。返すのは、最後に入れた番号、最初に入れた番号、
次の番号である。 -/
def TxRing.loadLoop (id : Nat) : List (List UInt8) → (i idx last first : Nat) → TxRing → Option (Nat × Nat × Nat × TxRing)
  | [], _, idx, last, first, t => some (last, first, idx, t)
  | frag :: rest, i, idx, last, first, t =>
      if frag.length = 0 then loadLoop id rest (i + 1) idx last first t
      else if (t.bd idx).ready then none
      else
        let b := { t.bd idx with buffer := (id, i), length := frag.length % 2 ^ 16 }
        let b := if i ≠ 0 then { b with ready := true } else b
        loadLoop id rest (i + 1) (t.next idx) idx (if i = 0 then idx else first) { t with bd := Function.update t.bd idx b }

/-- 取り出した鎖を記述子に入れ、NIC に渡す。 -/
def TxRing.load (t : TxRing) (id : Nat) : Option TxRing :=
  let frags := t.mem id
  match TxRing.loadLoop id frags 0 t.pidx t.pidx t.pidx t with
  | none => none
  | some (last, first, idx, u) =>
      let u := { u with
        inuse := u.inuse + (frags.filter fun f : List UInt8 => f.length ≠ 0).length
        pkts := Function.update u.pkts u.pidx (some id), pidx := idx, accepted := u.accepted ++ [frags.flatten] }
      if frags.length = 1 then
        some { u with bd := Function.update u.bd last { u.bd last with ready := true, last := true, tc := true } }
      else
        let u := { u with bd := Function.update u.bd last { u.bd last with last := true, tc := true } }
        some { u with bd := Function.update u.bd first { u.bd first with ready := true } }

/-- 呼び出しの間に外で起こること。`nic k` と `reap k` は `k` 回目の繰り返しと、その中の `mx6q_transmit_complete()` での NIC の歩みである。 -/
structure StartCall where
  nic : Nat → Nat := fun _ => 0
  reap : Nat → Nat → Nat := fun _ _ => 0
  alloc : Nat → Alloc := fun _ => {}

/-- 空きの確かめ。必要なら送り終えた記述子を片付ける。 -/
def TxRing.harvest (t : TxRing) (reap : Nat → Nat) : TxRing × Bool :=
  let avail := t.num - t.inuse
  if avail < maxFrags + unusedDescr ∨ avail % (t.num >>> 3) = 0 then
    let t := t.mx6qTransmitComplete reap
    (t, ¬(t.num - t.inuse < maxFrags + unusedDescr))
  else (t, true)

/-- 取り出した一つの鎖。 -/
def TxRing.take (t : TxRing) (p : Packet) (a : Alloc) : Option Nat × TxRing :=
  let (id, t) := t.issue p.frags
  if p.frags.length > maxFrags then t.mx6qDefrag id a else (some id, t)

/-- `mx6q_start()` の繰り返し。 -/
def TxRing.startLoop (c : StartCall) : List Packet → (k : Nat) → TxRing → TxRing
  | [], k, t =>
      let r := (t.nicRun (c.nic k)).harvest (c.reap k)
      if r.2 then { r.1 with queue := [], oactive := false } else { r.1 with queue := [] }
  | p :: rest, k, t =>
      let r := (t.nicRun (c.nic k)).harvest (c.reap k)
      if r.2 then
        match r.1.take p (c.alloc k) with
        | (none, t) => startLoop c rest (k + 1) t
        | (some id, t) =>
            match t.load id with
            | none => { t.free id with queue := rest }
            | some t => startLoop c rest (k + 1) t
      else { r.1 with queue := p :: rest }

/-- `mx6q_start()`。 -/
def TxRing.mx6qStart (t : TxRing) (c : StartCall) : TxRing :=
  if t.running then TxRing.startLoop c t.queue 0 { t with oactive := true } else t

/-! ## 実行 -/

inductive TxStep
  | init
  | enqueue (p : Packet)
  | start (c : StartCall)
  | nic
  | complete (nics : Nat → Nat)

def TxRing.step (t : TxRing) : TxStep → Except Unit TxRing
  | .init => .ok t.mx6qInit
  | .enqueue p => .ok { t with queue := t.queue ++ [p] }
  | .start c => .ok (t.mx6qStart c)
  | .nic => .ok t.nicStep
  | .complete nics => .ok (t.mx6qTransmitComplete nics)

/-- 取り出した鎖が、漏れずに一つの記述子で送れる。 -/
def Packet.Plain (p : Packet) (mclbytes : Nat) (a : Alloc) : Prop :=
  if 1 < p.frags.length ∧ mclbytes < p.frags.flatten.length then a.dup.isNone = true else p.frags.flatten.length < 2 ^ 16

instance Packet.decidablePlain (p : Packet) (mclbytes : Nat) (a : Alloc) : Decidable (p.Plain mclbytes a) :=
  inferInstanceAs (Decidable (if 1 < p.frags.length ∧ mclbytes < p.frags.flatten.length then a.dup.isNone = true
    else p.frags.flatten.length < 2 ^ 16))

/-- 初期化するとき最後の記述子は NIC のものでなく、送信待ちの鎖は一つの記述子で送れる。 -/
def TxRing.Tame (t : TxRing) : TxStep → Prop
  | .init => (t.bd (t.num - 1)).ready = false
  | .start c => ∀ x ∈ t.queue.zipIdx, x.1.Plain t.mclbytes (c.alloc x.2)
  | _ => True

instance TxRing.decidableTame (t : TxRing) (s : TxStep) : Decidable (t.Tame s) :=
  match s with
  | .init => inferInstanceAs (Decidable ((t.bd (t.num - 1)).ready = false))
  | .start c => inferInstanceAs (Decidable (∀ x ∈ t.queue.zipIdx, x.1.Plain t.mclbytes (c.alloc x.2)))
  | .enqueue _ => .isTrue trivial
  | .nic => .isTrue trivial
  | .complete _ => .isTrue trivial

/-- リングのうち、NIC がまだ送っていない分。 -/
def TxRing.waiting (t : TxRing) : List Sent :=
  (List.range ((t.pidx + t.num - t.nic) % t.num)).map fun j => t.fetch (t.bd ((t.nic + j) % t.num))

/-- リングの正しさ。 -/
structure TxRing.Sound (t : TxRing) : Prop where
  inuse : t.inuse = (t.pidx + t.num - t.cidx) % t.num
  room : t.inuse ≤ t.num - unusedDescr
  owned : ∀ i < t.num, (t.bd i).ready = true ∨ t.pkts i ≠ none → (i + t.num - t.cidx) % t.num < t.inuse
  stream : t.accepted.map (⟨·, true⟩) = t.sent ++ t.waiting
  freed : ∀ id < t.issued, t.frees id = if ∃ i < t.num, t.pkts i = some id then 0 else 1
  held : ∀ i < t.num, (t.bd i).ready = true → t.frees (t.bd i).buffer.1 = 0

end Imx6Bsp.Devnp
