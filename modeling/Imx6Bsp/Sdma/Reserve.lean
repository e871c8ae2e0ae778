import Imx6Bsp.Lib.Runs

/-!
# channel の予約（`sdma_channel_attach()` と `sdma_channel_release()`）

資源の表は、`rsrcdbmgr_attach()` が範囲の中の空いた番号を予約し、`rsrcdbmgr_detach()` がその予約を消す。解放した記憶域と NULL から読む
値は決まらないので、呼び出しの引数 `garbage` とする。
-/

namespace Imx6Bsp.Sdma.Reserve

/-! ## 状態 -/

def chLo : Nat := 1
def chHi : Nat := 31

/-- `db` は表で予約されている番号、`heap` は確保された `sdma_chan_t` の `ch_num`、`handles` は呼び出し側の持つ handle である。
`badRead` は NULL か解放した構造を読んだこと、`crashed` は NULL を読んで止まったことを表す。 -/
structure State where
  db : Finset Nat
  heap : Nat → Option Nat
  handles : Finset Nat
  badRead : Bool
  crashed : Bool

def init : State := ⟨∅, fun _ => none, ∅, false, false⟩

/-- `chan_ptr->ch_num` を読む。 -/
def State.readChNum (s : State) (p garbage : Nat) : State × Nat :=
  if p = 0 then ({ s with badRead := true, crashed := true }, garbage)
  else match s.heap p with
    | some ch => (s, ch)
    | none => ({ s with badRead := true }, garbage)

/-! ## 操作 -/

/-- `chan_destroy()`。 -/
def chanDestroy (s : State) (p garbage : Nat) : State :=
  let s := (s.readChNum p garbage).1
  { s with heap := Function.update s.heap p none }

/-- `rsrcdbmgr_detach()`。 -/
def rsrcdbmgrDetach (s : State) (ch : Nat) : State := { s with db := s.db.erase ch }

/-- `fail2` から後。 -/
def attachFail2 (s : State) (p garbage : Nat) : State :=
  let (s, ch) := s.readChNum p garbage
  rsrcdbmgrDetach s ch

/-- `fail3` から後。 -/
def attachFail3 (s : State) (p garbage : Nat) : State := attachFail2 (chanDestroy s p garbage) p garbage

/-- `sdma_channel_attach()`。`rsrc` は表が渡す番号、`chan` は `chan_create()` の返す番地、`optionsOk` と `loadOk` は
`parse_channel_options()` と `sdmacmd_ctx_load()` の成否である。 -/
def sdmaChannelAttach (s : State) (rsrc chan : Option Nat) (optionsOk loadOk : Bool) (garbage : Nat) : State :=
  match rsrc with
  | none => s
  | some chNum =>
      let s := { s with db := insert chNum s.db }
      match chan with
      | none => attachFail2 s 0 garbage
      | some p =>
          let s := { s with heap := Function.update s.heap p (some chNum) }
          if !optionsOk then attachFail3 s p garbage
          else if !loadOk then attachFail3 s p garbage
          else { s with handles := insert p s.handles }

/-- `sdma_channel_release()`。`chan_destroy()` の後で、もう一度 `chan_ptr->ch_num` を読む。 -/
def sdmaChannelRelease (s : State) (p garbage : Nat) : State :=
  let s := (s.readChNum p garbage).1
  let s := chanDestroy { s with handles := s.handles.erase p } p garbage
  let (s, ch) := s.readChNum p garbage
  rsrcdbmgrDetach s ch

/-! ## 遷移 -/

inductive Op
  | attach (rsrc chan : Option Nat) (optionsOk loadOk : Bool) (garbage : Nat)
  | release (p garbage : Nat)

/-- 表は空いた番号だけを、`chan_create()` は使われていない番地だけを渡し、呼び出し側は自分の handle だけを返す。 -/
def Enabled (s : State) : Op → Prop
  | .attach rsrc chan _ _ _ => s.crashed = false ∧ (∀ ch ∈ rsrc, chLo ≤ ch ∧ ch ≤ chHi ∧ ch ∉ s.db) ∧
      ∀ p ∈ chan, p ≠ 0 ∧ s.heap p = none
  | .release p _ => s.crashed = false ∧ p ∈ s.handles

instance (s : State) : (op : Op) → Decidable (Enabled s op)
  | .attach _ _ _ _ _ => inferInstanceAs (Decidable (_ ∧ _ ∧ _))
  | .release _ _ => inferInstanceAs (Decidable (_ ∧ _))

def run (s : State) : Op → State
  | .attach rsrc chan optionsOk loadOk garbage => sdmaChannelAttach s rsrc chan optionsOk loadOk garbage
  | .release p garbage => sdmaChannelRelease s p garbage

def step (s : State) (op : Op) : Except Unit State := if Enabled s op then .ok (run s op) else .error ()

/-! ## 約束 -/

/-- 予約されている番号は、持たれている handle の番号である。 -/
def Balanced (s : State) : Prop := ∀ ch, ch ∈ s.db ↔ ∃ p ∈ s.handles, s.heap p = some ch

/-- 予約が釣り合い、NULL も解放した構造も読んでいない。 -/
structure Sound (s : State) : Prop where
  balanced : Balanced s
  reads : s.badRead = false

/-- 番号を予約できないか、最後まで成功する `sdma_channel_attach()`。 -/
def Op.Clean : Op → Prop
  | .attach rsrc chan optionsOk loadOk _ => rsrc = none ∨ (chan ≠ none ∧ optionsOk = true ∧ loadOk = true)
  | .release _ _ => False

/-- 解放した構造から読む値が、その構造の持っていた番号のままである。 -/
def OwnNumber (s : State) : Op → Prop
  | .attach rsrc chan optionsOk loadOk garbage =>
      ∀ ch ∈ rsrc, (chan ≠ none ∧ optionsOk = true ∧ loadOk = true) ∨ garbage = ch
  | .release p garbage => s.heap p = some garbage

end Imx6Bsp.Sdma.Reserve
