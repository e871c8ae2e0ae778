import Imx6Bsp.Devb.Request

/-!
# 要求の処理に求めること

要求はカードの交換をまたがず、一度だけ返り、成功で返ったなら全てのバイトを運んでいる。それぞれの成り立つ条件も、ここで定める。
-/

namespace Imx6Bsp.Devb

/-! ## カードの交換 -/

/-- 取り外しが見つかった後に送ったなら、その後に入ったカードには送っていない。 -/
def Cmd.Timely (c : Cmd) : Prop := ∀ g k, c.card = some g → c.gone = some k → g < k

/-- 成功で返した CCB のデータ命令は、どれも同じカードに送った。 -/
structure Nexus.OneCard (n : Nexus) : Prop where
  timely : ∀ c ∈ n.all, c.Timely
  same : n.req.isRw → n.status = .cmp → ∃ g, ∀ c ∈ n.all, c.card = some g

/-- 要求はカードの交換をまたがない。 -/
structure Sim.CardSound (s : Sim) : Prop where
  posted : ∀ n ∈ s.posted, n.OneCard
  nexus : ∀ n, s.nexus = some n → ∀ c ∈ n.all, c.Timely

/-- 待ちの間に外で起きることが、どれも `ok` を満たす。 -/
def Sim.Only (ok : Ambient → Prop) (rs : List (List Ambient × WaitPulse)) : Prop := ∀ p ∈ rs, ∀ a ∈ p.1, ok a

/-- 一回の実行での待ちの間に外で起きることが、どれも `ok` を満たす。 -/
structure Sim.Waits (ok : Ambient → Prop) (o : Hw) : Prop where
  switch : Only ok o.switch.recv
  polls : ∀ p ∈ o.polls, Only ok p.1.recv

def Ambient.isInsert : Ambient → Bool
  | .insert => true
  | _ => false

/-- 待ちの間に、カードが挿入されない。 -/
def Hw.Quiet (o : Hw) : Prop := Sim.Waits (·.isInsert = false) o

instance decidableQuiet (o : Hw) : Decidable o.Quiet :=
  decidable_of_iff ((∀ p ∈ o.switch.recv, ∀ a ∈ p.1, a.isInsert = false) ∧ ∀ w ∈ o.polls, ∀ p ∈ w.1.recv, ∀ a ∈ p.1, a.isInsert = false)
    ⟨fun h => ⟨h.1, h.2⟩, fun h => ⟨h.switch, h.polls⟩⟩

/-- `READ10` か `WRITE10` の CCB が残っている間、識別の状態での割り込みと、データの状態での誤りの無い割り込みは、CCB を取り出したときのカードが入っている
ときにだけ来る。カードの割り込みは、いつ来てもよい。その CCB の待ちの間に、カードは挿入されない。 -/
def Sim.Attended (s : Sim) : Step → Prop
  | .ambient _ => True
  | .timer => True
  | .start k o => ∀ p ∈ s.queue[k]?, p.2.isRw → o.Quiet
  | .interrupt i _ o => ∀ n ∈ s.nexus, n.req.isRw → i.card = false → o.Quiet ∧
      (s.state = .ident ∨ s.state = .data ∧ i.error = false → s.present = s.home ∧ s.home.isSome)

instance decidableAttended (s : Sim) (i : Sim.Step) : Decidable (s.Attended i) :=
  match i with
  | .ambient _ => .isTrue trivial
  | .timer => .isTrue trivial
  | .start k o => inferInstanceAs (Decidable (∀ p ∈ s.queue[k]?, p.2.isRw → o.Quiet))
  | .interrupt i _ o => inferInstanceAs (Decidable (∀ n ∈ s.nexus, n.req.isRw → i.card = false → o.Quiet ∧
      (s.state = .ident ∨ s.state = .data ∧ i.error = false → s.present = s.home ∧ s.home.isSome)))

/-! ## 要求の一生 -/

/-- データ命令が誤り無く終わり、要るなら停止した。 -/
structure Cmd.Fine (c : Cmd) : Prop where
  pos : 0 < c.bytes
  completed : c.completed = true
  clean : c.errored = false
  stopped : c.multi = true → c.stopped = true

/-- 最後の実行が、全てのバイトを運んだ。 -/
structure Nexus.Complete (n : Nexus) : Prop where
  total : (n.cmds.map Cmd.bytes).sum = n.req.buf.total
  fine : ∀ c ∈ n.cmds, c.Fine

/-- 取り出した CCB の扱い。 -/
structure Sim.Lifecycle (s : Sim) : Prop where
  once : (s.posted.map Nexus.id).Nodup
  single : (s.dequeued.filter fun id => id ∉ s.posted.map Nexus.id).length ≤ 1
  settled : ∀ n ∈ s.posted, n.status ≠ .inprog
  complete : ∀ n ∈ s.posted, n.req.isRw → n.status = .cmp → n.Complete

/-- `CAM_SCATTER_VALID`。 -/
def Buf.isScatter : Buf → Bool
  | .linear _ => false
  | .scatter _ => true

/-- 呼び先の返り値が正しい。`pio_done()` と転送の準備は負の数を返さず、`setup_sgdma()` は全体を準備するか失敗する。 -/
structure Hw.Good (h : Host) (q : Request) (o : Hw) : Prop where
  setup : 0 ≤ o.setup
  pieces : ∀ k ∈ o.pieces, 0 ≤ k
  whole : q.buf.isScatter → h.pio = false → o.setup = 0 ∨ o.setup = q.buf.total

instance decidableGood (h : Host) (q : Request) (o : Hw) : Decidable (o.Good h q) :=
  decidable_of_iff (0 ≤ o.setup ∧ (∀ k ∈ o.pieces, 0 ≤ k) ∧ (q.buf.isScatter → h.pio = false → o.setup = 0 ∨ o.setup = q.buf.total))
    ⟨fun h => ⟨h.1, h.2.1, h.2.2⟩, fun h => ⟨h.setup, h.pieces, h.whole⟩⟩

/-- 呼び先の返り値が正しく、DMA のデータの状態では、DATA も誤りも無いバッファの割り込みは、停止の命令を送った後にだけ来る。 -/
def Sim.Regular (h : Host) (s : Sim) : Step → Prop
  | .ambient _ => True
  | .timer => True
  | .start k o => ∀ p ∈ s.queue[k]?, p.2.isRw → o.Good h p.2
  | .interrupt i _ o => (∀ n ∈ s.nexus, n.req.isRw → o.Good h n.req) ∧
      (h.pio = false → s.state = .data → i.card = false → i.error = false → i.data = false → i.ready = true → s.stop = .issued)

instance decidableRegular (h : Host) (s : Sim) (i : Sim.Step) : Decidable (s.Regular h i) :=
  match i with
  | .ambient _ => .isTrue trivial
  | .timer => .isTrue trivial
  | .start k o => inferInstanceAs (Decidable (∀ p ∈ s.queue[k]?, p.2.isRw → o.Good h p.2))
  | .interrupt i _ o => inferInstanceAs (Decidable ((∀ n ∈ s.nexus, n.req.isRw → o.Good h n.req) ∧
      (h.pio = false → s.state = .data → i.card = false → i.error = false → i.data = false → i.ready = true → s.stop = .issued)))

/-! ## 例の入力 -/

/-- SD カードを挿入し、識別を終えるまで。 -/
def identifyCard : List Sim.Step :=
  let none : Event := {}
  [.ambient .insert, .timer, .ambient (.control none)] ++
    [none, none, none, none, { resp := { r0 := 0x1AA } }, none, { resp := { r0 := 0xC0000000 } }, none, { resp := { r0 := 0x12340000 } }, none,
      { resp := { r3 := 0x40000000, r1 := 0x00010000 } }, none, none, none, none, none, { pio := some fun _ => 0 }, none].map
        fun e => .interrupt { command := true } e { setup := 512 }

/-- 一塊の読み込みを始めるまで。 -/
def startRead : List Sim.Step :=
  [.ambient (.enqueue { func := .scsiIo .read, buf := .linear 512, fits := by decide }), .start 0 { setup := 512 }]

end Imx6Bsp.Devb
