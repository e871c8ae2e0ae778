import Imx6Bsp.Startup.Basic

/-!
# 番地空間の表（`as_add64.c`、`as_find_containing.c`、`as_add_containing.c`）

`lsp.asinfo` の配列を `AsinfoEntry` の並びで表す。配列の先頭からの位置（`as_off2info` の引数）は、項目の大きさを
単位とする番号で表し、`AS_NULL_OFF` は `none` とする。名前は文字列の領域の位置ではなく文字列そのもので持つ。
システムページが足りないときの `crash()` はこの層では起こさない。
-/

namespace Imx6Bsp.Startup

/-- `attr` の各ビット。`access` は読み書きとキャッシュのビットである。 -/
structure AsAttr where
  access : Nat := 0
  kids : Bool := false
  continued : Bool := false
  overlayIo : Bool := false
deriving DecidableEq, Repr

/-- `AS_ATTR_RAM`。 -/
def AsAttr.ram : AsAttr := { access := 7 }

/-- `struct asinfo_entry` のうち、起動ライブラリが読む欄。`stop` は `end`（その番地を含む）である。 -/
structure AsinfoEntry where
  start : Nat
  stop : Nat
  owner : Option Nat
  name : String
  attr : AsAttr
deriving DecidableEq, Repr

abbrev Asinfo := List AsinfoEntry

/-- 持ち主の項目に `AS_ATTR_KIDS` を立てる。 -/
def markKids (as : Asinfo) : Option Nat → Asinfo
  | none => as
  | some o => as.modify o (fun w => { w with attr := { w.attr with kids := true } })

/-- `as_add64()`。`AS_OVERLAY_IO` があれば、その下に `"io"` の項目も加える。 -/
def asAdd64 (as : Asinfo) (start stop : Nat) (attr : AsAttr) (name : String) (owner : Option Nat) :
    Asinfo × Nat :=
  let attr' := { attr with overlayIo := false }
  let as₁ := markKids (as ++ [⟨start, stop, owner, name, attr'⟩]) owner
  let off := as.length
  if attr.overlayIo then
    (markKids (as₁ ++ [⟨wrap32 start, wrap32 stop, some off, "io", attr'⟩]) (some off), off)
  else (as₁, off)

/-- `as_add()`。引数は `paddr_t` に切り詰められる。 -/
def asAdd (as : Asinfo) (start stop : Nat) (attr : AsAttr) (name : String) (owner : Option Nat) :
    Asinfo × Nat :=
  asAdd64 as (wrap32 start) (wrap32 stop) attr name owner

/-- `as_default()`（ARM 版）。 -/
def asDefault (as : Asinfo) : Asinfo × Nat := asAdd as 0 0xffffffff {} "memory" none

/-- `match_name()`。自分か祖先の名前が `name` である。持ち主をたどる回数を `fuel` で抑える。 -/
def matchName (as : Asinfo) (name : String) : Nat → Nat → Bool
  | 0, _ => false
  | fuel + 1, i =>
      match as[i]? with
      | none => false
      | some e =>
          if e.name = name then true
          else
            match e.owner with
            | none => false
            | some o => matchName as name fuel o

/-- `as_find_containing()` が項目の範囲を調べる三つの条件。 -/
def AsinfoEntry.touches (e : AsinfoEntry) (start stop : Nat) : Bool :=
  (e.start ≤ start && start ≤ e.stop) || (e.start ≤ stop && stop ≤ e.stop) ||
    (start ≤ e.start && e.stop ≤ stop)

/-- `as_find_containing()` が位置 `i` で止まる条件。 -/
def asContains (as : Asinfo) (start stop : Nat) (container : String) (i : Nat) : Bool :=
  matchName as container as.length i && (as[i]?.any (·.touches start stop))

/-- `as_find_containing()`。位置 `off` の次から探す。 -/
def asFindContaining (as : Asinfo) (off : Option Nat) (start stop : Nat) (container : String) : Option Nat :=
  let k := match off with
    | none => 0
    | some o => o + 1
  (List.range' k (as.length - k)).find? (asContains as start stop container)

/-- `struct as_range`。 -/
structure AsRange where
  start : Nat
  stop : Nat
  owner : Nat
deriving DecidableEq, Repr

/-- `as_add_containing()` の内側の繰り返し。範囲の断片 `n` を並びに差し込む。 -/
def insertPiece (n : AsRange) : List AsRange → List AsRange
  | [] => [n]
  | curr :: rest =>
      if curr.start ≤ n.start ∧ n.start ≤ curr.stop then
        if curr.start = n.start ∧ curr.stop = n.stop then { curr with owner := n.owner } :: rest
        else if curr.start = n.start then n :: { curr with start := wrap32 (n.stop + 1) } :: rest
        else
          { curr with stop := n.start - 1 } :: n ::
            (if curr.stop ≠ n.stop then ⟨wrap32 (n.stop + 1), curr.stop, curr.owner⟩ :: rest else rest)
      else curr :: insertPiece n rest

/-- 範囲を、位置 `o` の入れ物に収まる部分に狭める。 -/
def asClip (as : Asinfo) (start stop o : Nat) : AsRange :=
  ⟨max start ((as[o]?.map (·.start)).getD 0), min stop ((as[o]?.map (·.stop)).getD 0), o⟩

/-- 見つかる入れ物は、位置の順にすべての一致する項目である。 -/
def asClips (as : Asinfo) (start stop : Nat) (container : String) : List AsRange :=
  ((List.range as.length).filter (asContains as start stop container)).map (asClip as start stop)

/-- `as_add_containing()` の一つ目の繰り返し。 -/
def asPieces (as : Asinfo) (start stop : Nat) (container : String) : List AsRange :=
  (asClips as start stop container).foldl (fun l n => insertPiece n l) []

/-- `as_add_containing()` の二つ目の繰り返し。空でない断片を順に加え、最初と最後に加えた位置を返す。 -/
def asAddPieces (attr : AsAttr) (name : String) :
    List AsRange → Asinfo → Option (Nat × Nat) → Asinfo × Option (Nat × Nat)
  | [], as, offs => (as, offs)
  | p :: ps, as, offs =>
      if p.start ≤ p.stop then
        let (as', off) := asAdd as p.start p.stop attr name (some p.owner)
        asAddPieces attr name ps as' (some ((offs.map Prod.fst).getD off, off))
      else asAddPieces attr name ps as offs

/-- `as_add_containing()` の `AS_OVERLAY_IO` の繰り返し。加えた断片のそれぞれの下に項目を重ねる。 -/
def asOverlay (attr : AsAttr) (name : String) : Nat → Nat → Asinfo → Asinfo
  | 0, _, as => as
  | fuel + 1, off, as =>
      match as[off]? with
      | none => as
      | some e =>
          let as' := (asAdd as e.start e.stop { attr with overlayIo := false } name (some off)).1
          if e.attr.continued then asOverlay attr name fuel (off + 1) as' else as'

/-- `as_add_containing()`。 -/
def asAddContaining (as : Asinfo) (start stop : Nat) (attr : AsAttr) (name container : String) :
    Asinfo × Option Nat :=
  let pieces := asPieces as start stop container
  match asAddPieces { attr with overlayIo := false, continued := true } name pieces as none with
  | (as₁, none) => (as₁, none)
  | (as₁, some (startOff, off)) =>
      let as₂ := as₁.modify off (fun e => { e with attr := { e.attr with continued := false } })
      let as₃ := if attr.overlayIo then asOverlay attr name pieces.length startOff as₂ else as₂
      (as₃, some startOff)

end Imx6Bsp.Startup
