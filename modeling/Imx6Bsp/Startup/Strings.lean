import Imx6Bsp.Lib.CString
import Imx6Bsp.Startup.SyspageMemory

/-!
# 文字列の節（`strings.c`）

`lsp.typed_strings` は、種別と文字列の項目を 4 バイトの境界に並べ、種別 `_CS_NONE` で終わる。走査は節の大きさまでとし、節の外を
読む走査は `StringFault.outside` とする。
-/

namespace Imx6Bsp.Startup

open Imx6Bsp.Lib

/-- `_CS_NONE`。 -/
def csNone : Nat := 0

/-- `crash()` で止まるか、走査が節の外に出る。 -/
inductive StringFault
  | crash (c : Crash)
  | outside
deriving DecidableEq, Repr

/-- `find_typed_string()` の走査。`p` は節の先頭、`size` は節の大きさで、見つからなければ内側の `none`（-1）を返す。 -/
def findTypedLoop (m : Mem) (p size type : Nat) : Nat → Nat → Option (Option Nat)
  | _, 0 => none
  | i, fuel + 1 =>
      let t := m.readLE (p + i) 4
      if t = type then some (some i)
      else if t = csNone then some none
      else do
        let n ← m.strlen (p + (i + 4)) size
        findTypedLoop m p size type (round (i + 4 + (n + 1)) 4) fuel

/-- `find_typed_string()`。 -/
def findTypedString (s : Syspage) (type : Nat) : Option (Option Nat) :=
  findTypedLoop s.mem (s.p .typedStrings) (s.size .typedStrings) type 0 (s.size .typedStrings)

/-- `del_typed_string()` の、`n` バイトを前に詰める繰り返し。 -/
def copyDown (m : Mem) (i j : Nat) : Nat → Mem
  | 0 => m
  | n + 1 => copyDown (Function.update m i (m j)) (i + 1) (j + 1) n

/-- `del_typed_string()`。 -/
def delTypedString (s : Syspage) (type : Nat) : Option Syspage := do
  let p := s.p .typedStrings
  match ← findTypedString s type with
  | none => return s
  | some i =>
      let n ← s.mem.strlen (p + (i + 4)) (s.size .typedStrings)
      let j := round (i + n + 1) 4
      match ← findTypedString s csNone with
      | none => none
      | some e =>
          let mem := copyDown s.mem (p + i) (p + j) (e - j)
          return { s with mem := mem.zero (p + (i + (e - j))) (max j e - (i + (e - j))) }

/-- `add_typed_string()` の、列の終わり `i` に項目を書くところ。 -/
def appendTypedString (fmt : SyspageFormat) (s : Syspage) (p i type : Nat) (name : List UInt8) : Except Crash Syspage :=
  let len := round (name.length + 1) 4
  let need := wrap32 (len + 8)
  let spare := wrap32 (s.size .typedStrings + (2 ^ 32 - i))
  (if spare < need then growSyspageSection fmt s .typedStrings (need - spare) else .ok s).map fun s =>
    { s with mem := (s.mem.writeLE (p + i) 4 type).strcpy (p + (i + 4)) name }

/-- `add_typed_string()`。 -/
def addTypedString (fmt : SyspageFormat) (s : Syspage) (type : Nat) (name : List UInt8) : Except StringFault Syspage :=
  let p := s.p .typedStrings
  match delTypedString s type with
  | none => .error .outside
  | some s =>
      match findTypedString s csNone with
      | some (some i) => (appendTypedString fmt s p i type name).mapError .crash
      | _ => .error .outside

/-! ## 種別のない文字列 -/

/-- `add_string()` の走査。同じ文字列を見つければ `true` を、空の文字列に至れば `false` を、その位置とともに返す。 -/
def addStringLoop (m : Mem) (p size : Nat) (name : List UInt8) : Nat → Nat → Option (Nat × Bool)
  | _, 0 => none
  | i, fuel + 1 =>
      if m (p + i) = 0 then some (i, false)
      else if m.strEq (p + i) name then some (i, true)
      else do
        let n ← m.strlen (p + i) size
        addStringLoop m p size name (i + (n + 1)) fuel

/-- `add_string()` の、位置 `i` に文字列を書くところ。 -/
def appendString (fmt : SyspageFormat) (s : Syspage) (i : Nat) (name : List UInt8) : Except Crash Syspage :=
  let p := s.p .strings
  let len := wrap32 (name.length + 2)
  let spare := wrap32 (s.size .strings + (2 ^ 32 - i))
  (if len > spare then growSyspageSection fmt s .strings (len - spare) else .ok s).map fun s =>
    { s with mem := s.mem.strcpy (p + i) name }

/-- `add_string()`。 -/
def addString (fmt : SyspageFormat) (s : Syspage) (name : List UInt8) : Except StringFault (Syspage × Nat) :=
  match addStringLoop s.mem (s.p .strings) (s.size .strings) name 0 (s.size .strings) with
  | none => .error .outside
  | some (i, true) => .ok (s, i)
  | some (i, false) => ((appendString fmt s i name).mapError .crash).map fun s => (s, i)

/-! ## 呼び出しの列 -/

inductive StringCall
  | add (type : Nat) (name : List UInt8)
  | del (type : Nat)
deriving DecidableEq, Repr

/-- 状態と、生きている項目を加えた順に並べた記録。 -/
structure StringTrace where
  sp : Syspage
  entries : List (Nat × List UInt8)

def StringTrace.step (fmt : SyspageFormat) (t : StringTrace) : StringCall → Except StringFault StringTrace
  | .add type name => do
      let sp ← addTypedString fmt t.sp type name
      return ⟨sp, t.entries.filter (·.1 ≠ type) ++ [(type, name)]⟩
  | .del type => do
      let sp ← (delTypedString t.sp type).elim (.error .outside) .ok
      return ⟨sp, t.entries.filter (·.1 ≠ type)⟩

def StringTrace.start (sp : Syspage) : StringTrace := ⟨sp, []⟩

/-- 呼び出しの前提。種別は 0 でない 32 ビットの値、文字列は 0 を含まず、大きさの計算は桁あふれしない。 -/
def StringTrace.InDomain (fmt : SyspageFormat) (t : StringTrace) : StringCall → Prop
  | .add type name => type ≠ csNone ∧ type < 2 ^ 32 ∧ (∀ c ∈ name, c ≠ 0) ∧ t.sp.totalSize fmt + name.length + 32 ≤ 2 ^ 32
  | .del type => type ≠ csNone ∧ type < 2 ^ 32

/-- 呼び出しが扱う種別。 -/
def StringCall.type : StringCall → Nat
  | .add type _ => type
  | .del type => type

/-- 消す項目があれば、それは最後の項目で、文字列の長さは 4 の倍数である。 -/
def StringTrace.DelClean (t : StringTrace) (c : StringCall) : Prop :=
  ∀ s, (c.type, s) ∈ t.entries → t.entries.getLast? = some (c.type, s) ∧ s.length % 4 = 0

instance StringTrace.decidableInDomain (fmt : SyspageFormat) (t : StringTrace) : (c : StringCall) → Decidable (t.InDomain fmt c)
  | .add _ _ => inferInstanceAs (Decidable (_ ∧ _ ∧ _ ∧ _))
  | .del _ => inferInstanceAs (Decidable (_ ∧ _))

instance StringTrace.decidableDelClean (t : StringTrace) (c : StringCall) : Decidable (t.DelClean c) :=
  decidable_of_iff (∀ en ∈ t.entries, en.1 = c.type → t.entries.getLast? = some en ∧ en.2.length % 4 = 0)
    ⟨fun h s hs => h (c.type, s) hs rfl, fun h en hen heq => by
      obtain ⟨ty, s⟩ := en
      cases heq
      exact h s hen⟩

/-! ## 文字列の登録の列（`strings.c`、`hwi_alloc.c`）

`add_string()` の呼び出しに、ほかの節の呼び出しが混ざる列を表す。返した位置を記録する。 -/

/-- `__hwi_find_string()`。 -/
def hwiFindString (s : Syspage) (off : Nat) : Nat := s.p .strings + off

inductive InternCall
  | add (name : List UInt8)
  | sys (c : SyspageCall)
deriving DecidableEq, Repr

/-- システムページの状態と、名前と返した位置の組の記録。 -/
structure InternTrace where
  page : SyspageTrace
  log : List (List UInt8 × Nat) := []

/-- 状態 `sp` の記憶域から、節の中身の記録を読み直す。 -/
def SyspageTrace.reread (t : SyspageTrace) (sp : Syspage) : SyspageTrace :=
  { t with
    sp
    fixedGrown := t.fixedGrown || decide (.strings ∈ t.fixed)
    content := fun s => (List.range (sp.size s)).map fun i => sp.mem (sp.p s + i) }

def InternTrace.step (fmt : SyspageFormat) (rtns : Nat → CalloutRtn) (t : InternTrace) : InternCall → Except StringFault InternTrace
  | .add name => do
      let (sp, off) ← addString fmt t.page.sp name
      return ⟨t.page.reread sp, t.log ++ [(name, off)]⟩
  | .sys c => do
      let page ← (t.page.step fmt rtns c).mapError .crash
      return ⟨page, t.log⟩

def InternTrace.start (sp : Syspage) : InternTrace := { page := .start sp }

/-- ほかの持ち主は、文字列の節に書かない。 -/
def SyspageCall.SparesStrings : SyspageCall → Prop
  | .store sect _ _ => sect ≠ .strings
  | _ => True

instance : (c : SyspageCall) → Decidable c.SparesStrings
  | .set _ _ => isTrue trivial
  | .grow _ _ => isTrue trivial
  | .reloc _ _ => isTrue trivial
  | .store _ _ _ => inferInstanceAs (Decidable (_ ≠ _))
  | .register _ _ _ => isTrue trivial

/-- 呼び出しの前提。名前は空でなく 0 を含まず、大きさの計算は桁あふれしない。 -/
def InternTrace.InDomain (fmt : SyspageFormat) (t : InternTrace) : InternCall → Prop
  | .add name => name ≠ [] ∧ (∀ c ∈ name, c ≠ 0) ∧ t.page.sp.totalSize fmt + name.length + 32 ≤ 2 ^ 32
  | .sys c => t.page.InDomain fmt c ∧ c.SparesStrings

instance InternTrace.decidableInDomain (fmt : SyspageFormat) (t : InternTrace) : (c : InternCall) → Decidable (t.InDomain fmt c)
  | .add _ => inferInstanceAs (Decidable (_ ∧ _ ∧ _))
  | .sys _ => inferInstanceAs (Decidable (_ ∧ _))

end Imx6Bsp.Startup
