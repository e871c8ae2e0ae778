import Imx6Bsp.Lib.Runs

/-!
# フラッシュの消去の中断（`flash/mtd-flash/amd`）

`f3s_a29f040_v2erase()`、`f3s_aCFI_v2suspend()`、`f3s_a29f040_v2resume()`、`f3s_a29f040_v2sync()` を写す。一つの装置は並べて使う
チップの組で、状態の語はチップごとの線の組として読む。`device_mult` を掛けた印は、どのチップの線も同じ位置にあることを表すので、線ごとの
比較に直す。チップは、どの読み出しの前にも消去を終え、失敗し、または中断に入ることがある。
-/

namespace Imx6Bsp.Flash

/-! ## チップ -/

/-- 一つのチップの、調べるデータ線。 -/
structure Lane where
  dq7 : Bool := true
  dq6 : Bool := true
  dq5 : Bool := true
  dq3 : Bool := true
  dq2 : Bool := true
deriving DecidableEq, Repr

/-- `erasing` の引数は、中断の命令を受けたがまだ中断に入っていないことを表す。 -/
inductive Mode
  | ready (data : Lane)
  | erasing (pending : Bool)
  | suspended
  | failed
deriving DecidableEq, Repr

/-- `dq6` と `dq2` は読むたびに反転する線の今の値である。`suspends` と `resumes` は、中断に入った回数と再開した回数の記録である。 -/
structure Chip where
  mode : Mode
  dq6 : Bool := false
  dq2 : Bool := false
  suspends : Nat := 0
  resumes : Nat := 0
deriving DecidableEq, Repr

/-- 読み出し。`noise` は、決まっていない線の値である。 -/
def Chip.read (noise : Lane) (c : Chip) : Lane × Chip :=
  match c.mode with
  | .ready data => (data, c)
  | .erasing _ => ({ noise with dq7 := false, dq6 := !c.dq6, dq5 := false }, { c with dq6 := !c.dq6 })
  | .suspended => ({ noise with dq7 := true, dq6 := c.dq6, dq5 := false, dq2 := !c.dq2 }, { c with dq2 := !c.dq2 })
  | .failed => ({ noise with dq7 := false, dq6 := !c.dq6, dq5 := true }, { c with dq6 := !c.dq6 })

/-- チップの中で起こること。 -/
inductive Progress
  | stay
  | finish
  | fail
  | halt
deriving DecidableEq, Repr

def Chip.progress (p : Progress) (c : Chip) : Chip :=
  match c.mode, p with
  | .erasing _, .finish => { c with mode := .ready {} }
  | .erasing _, .fail => { c with mode := .failed }
  | .erasing true, .halt => { c with mode := .suspended, suspends := c.suspends + 1 }
  | _, _ => c

/-- `AMD_SECTOR_ERASE` と `AMD_ERASE_CONFIRM`。 -/
def Chip.erase (c : Chip) : Chip :=
  match c.mode with
  | .ready _ => { c with mode := .erasing false }
  | _ => c

/-- `AMD_ERASE_SUSPEND`。 -/
def Chip.suspend (c : Chip) : Chip :=
  match c.mode with
  | .erasing _ => { c with mode := .erasing true }
  | _ => c

/-- `AMD_ERASE_RESUME`。 -/
def Chip.resume (c : Chip) : Chip :=
  match c.mode with
  | .suspended => { c with mode := .erasing false, resumes := c.resumes + 1 }
  | _ => c

/-! ## 装置の組 -/

/-- 並べて使うチップ。 -/
structure Bank where
  width : Nat
  chip : Nat → Chip

/-- 一回の読み出しの前に起こることと、決まっていない線の値。 -/
structure Tick where
  progress : Nat → Nat → Progress := fun _ _ => .stay
  noise : Nat → Lane := fun _ => {}

/-- `suspended` はどの装置も同じ変数である。`owner` は、それを立てた装置と、その後に消去を始めていないことの記録である。 -/
structure Arrays where
  bank : Nat → Bank
  suspended : Bool := false
  owner : Option Nat := none

def Arrays.progress (t : Tick) (f : Arrays) : Arrays :=
  { f with bank := fun i => { f.bank i with chip := fun j => ((f.bank i).chip j).progress (t.progress i j) } }

/-- 装置 `i` の各チップを変える。 -/
def Arrays.each (i : Nat) (g : Nat → Chip → Chip) (f : Arrays) : Arrays :=
  { f with bank := Function.update f.bank i { f.bank i with chip := fun j => g j ((f.bank i).chip j) } }

/-- `send_command()`。 -/
def Arrays.sendCommand (i : Nat) (g : Chip → Chip) (f : Arrays) : Arrays := f.each i fun _ => g

/-- `readmem()`。 -/
def Arrays.readmem (i : Nat) (t : Tick) (f : Arrays) : (Nat → Lane) × Arrays :=
  (fun j => (((((f.progress t).bank i).chip j).read (t.noise j)).1), (f.progress t).each i fun j c => (c.read (t.noise j)).2)

/-! ## 呼び出し -/

inductive Errno
  | eok
  | ecanceled
  | eio
  | eagain
  | page
deriving DecidableEq, Repr

/-- どのチップでも成り立つ。 -/
def Arrays.All (f : Arrays) (i : Nat) (P : Nat → Prop) : Prop := ∀ j < (f.bank i).width, P j

instance Arrays.decidableAll (f : Arrays) (i : Nat) (P : Nat → Prop) [DecidablePred P] : Decidable (f.All i P) :=
  inferInstanceAs (Decidable (∀ j < (f.bank i).width, P j))

/-- `DQ6` が反転しなくなるのを待つ繰り返し。与えた読み出しのうちに終わらなければ `none` を返す。 -/
def suspendLoop (i : Nat) : List (Tick × Tick) → Arrays → Option (Errno × Arrays)
  | [], _ => none
  | (t₀, t₁) :: ts, f =>
      let (s₀, f) := f.readmem i t₀
      let (s₁, f) := f.readmem i t₁
      if f.All i fun j => (s₀ j).dq6 = (s₁ j).dq6 then some (.eok, { f with suspended := true, owner := some i })
      else if ¬f.All i fun j => ¬((s₀ j).dq6 ≠ (s₁ j).dq6 ∧ (s₀ j).dq5 = true) then some (.ecanceled, f)
      else suspendLoop i ts f

/-- `f3s_aCFI_v2suspend()`。`page` は `page()` が成功することである。 -/
def Arrays.f3sACFIV2suspend (f : Arrays) (i : Nat) (page : Bool) (ts : List (Tick × Tick)) : Option (Errno × Arrays) :=
  if f.suspended then some (.eok, f)
  else if ¬page then some (.page, f)
  else suspendLoop i ts (f.sendCommand i Chip.suspend)

/-- `f3s_a29f040_v2resume()`。 -/
def Arrays.f3sA29f040V2resume (f : Arrays) : Errno × Arrays := (.eok, f)

/-- `f3s_a29f040_v2sync()` の、`DQ7` と `DQ2` を調べるところ。 -/
def Arrays.syncTail (f : Arrays) (i : Nat) (s₀ s₁ : Nat → Lane) (t : Tick) : Errno × Arrays :=
  let (s, f) := f.readmem i t
  if f.All i fun j => (s j).dq7 = f.suspended then (.eagain, f)
  else if ¬f.All i fun j => (s₀ j).dq2 = (s₁ j).dq2 then (.eagain, f.sendCommand i Chip.resume)
  else (.eok, f)

/-- `f3s_a29f040_v2sync()`。読み出しは多くて四回である。 -/
def Arrays.f3sA29f040V2sync (f : Arrays) (i : Nat) (page : Bool) (t₀ t₁ t₂ t₃ : Tick) : Errno × Arrays :=
  if ¬page then (.page, f)
  else
    let f := if f.suspended then { f.sendCommand i Chip.resume with suspended := false, owner := none } else f
    let (s₀, f) := f.readmem i t₀
    let (s₁, f) := f.readmem i t₁
    if f.All i fun j => (s₀ j).dq6 = (s₁ j).dq6 then f.syncTail i s₀ s₁ t₃
    -- 反転しているチップのどれも `DQ5` が立っている。
    else if f.All i fun j => (s₀ j).dq6 ≠ (s₁ j).dq6 → (s₀ j).dq5 = true then
      let (s₂, f) := f.readmem i t₂
      if ¬f.All i fun j => ¬((s₀ j).dq6 ≠ (s₁ j).dq6 ∧ (s₁ j).dq6 ≠ (s₂ j).dq6) then (.eio, f)
      else if ¬f.All i fun j => (s₁ j).dq6 = (s₂ j).dq6 then (.eagain, f)
      else f.syncTail i s₁ s₂ t₃
    else (.eagain, f)

/-- 消去の命令が受け取られるのを待つ繰り返し。 -/
def acceptLoop (i : Nat) : List (Tick × Tick) → Arrays → Option Arrays
  | [], _ => none
  | (t₀, t₁) :: ts, f =>
      let (s₀, f) := f.readmem i t₀
      let (s₁, f) := f.readmem i t₁
      if f.All i fun j => (s₀ j).dq6 ≠ (s₁ j).dq6 then some f else acceptLoop i ts f

/-- `DQ3` が立つのを待つ繰り返し。 -/
def startLoop (i : Nat) : List Tick → Arrays → Option Arrays
  | [], _ => none
  | t :: ts, f =>
      let (s, f) := f.readmem i t
      if f.All i fun j => (s j).dq3 = true then some f else startLoop i ts f

/-- `f3s_a29f040_v2erase()`。 -/
def Arrays.f3sA29f040V2erase (f : Arrays) (i : Nat) (page : Bool) (ts : List (Tick × Tick)) (us : List Tick) : Option (Errno × Arrays) :=
  if ¬page then some (.page, f)
  else
    let f := { f.sendCommand i Chip.erase with owner := if f.owner = some i then none else f.owner }
    ((acceptLoop i ts f).bind (startLoop i us)).map fun f => (.eok, f)

/-! ## 実行 -/

inductive Callout
  | progress (t : Tick)
  | erase (i : Nat) (page : Bool) (ts : List (Tick × Tick)) (us : List Tick)
  | suspend (i : Nat) (page : Bool) (ts : List (Tick × Tick))
  | resume (i : Nat)
  | sync (i : Nat) (page : Bool) (t₀ t₁ t₂ t₃ : Tick)

/-- 呼び出しの後の状態。返らない呼び出しは失敗とする。 -/
def Arrays.step (f : Arrays) : Callout → Except Unit Arrays
  | .progress t => .ok (f.progress t)
  | .erase i page ts us =>
      match f.f3sA29f040V2erase i page ts us with
      | none => .error ()
      | some r => .ok r.2
  | .suspend i page ts =>
      match f.f3sACFIV2suspend i page ts with
      | none => .error ()
      | some r => .ok r.2
  | .resume _ => .ok f.f3sA29f040V2resume.2
  | .sync i page t₀ t₁ t₂ t₃ => .ok (f.f3sA29f040V2sync i page t₀ t₁ t₂ t₃).2

/-- まだ何も消去していない装置。 -/
def Arrays.Start (f : Arrays) : Prop :=
  f.suspended = false ∧ ∀ i j, (∃ data, ((f.bank i).chip j).mode = .ready data) ∧ ((f.bank i).chip j).suspends = ((f.bank i).chip j).resumes

/-- 中断の呼び出しのとき `suspended` が立っていれば、それを立てたのはその装置で、その後に消去を始めていない。 -/
def Arrays.Owned (f : Arrays) : Callout → Prop
  | .suspend i _ _ => f.suspended = true → f.owner = some i
  | _ => True

instance Arrays.decidableOwned (f : Arrays) : (c : Callout) → Decidable (f.Owned c)
  | .suspend i _ _ => inferInstanceAs (Decidable (f.suspended = true → f.owner = some i))
  | .progress _ | .erase .. | .resume _ | .sync .. => .isTrue trivial

/-- 読めばデータが返る。 -/
def Chip.Readable (c : Chip) : Prop := c.mode = .suspended ∨ ∃ data, c.mode = .ready data

/-- 消去を終え、中断のたびに再開した。 -/
def Chip.Complete (c : Chip) : Prop := (∃ data, c.mode = .ready data) ∧ c.suspends = c.resumes

/-- 装置 `i` のどのチップも満たす。 -/
def Arrays.Chips (f : Arrays) (i : Nat) (P : Chip → Prop) : Prop := f.All i fun j => P ((f.bank i).chip j)

end Imx6Bsp.Flash
