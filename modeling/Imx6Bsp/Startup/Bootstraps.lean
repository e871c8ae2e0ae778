import Imx6Bsp.Startup.Basic

/-!
# ブートストラップの連鎖（`init_system_private.c` の `load_bootstraps()`）

ディレクトリは、大きさ 0 の終わりを除いた項目の列で表す。`load_elf32()` と `rifs_save_elf32data()` の結果は、何回目の読み込みかの
関数で与える。読み込みは `system_private` を別の番地に移すことがあり、そのとき中身は写される。実行形式ごとの `ifs_bootstrap_data` は
重ならず、`startup_memory_unmap()` の後も書き込めるとする。引数の書き換えは省く。
-/

namespace Imx6Bsp.Startup

/-- `union image_dirent` の、使う欄。 -/
structure Dirent where
  ino : Nat
  offset : Nat
deriving DecidableEq, Repr

/-- `struct image_header` の、使う欄。`inoBits` は `IMAGE_FLAGS_INO_BITS` である。 -/
structure ImageHeader where
  inoBits : Bool
  bootIno : List Nat
  dirs : List Dirent

/-- `boot_pgm` の要素。 -/
structure BootPgm where
  base : Nat
  entry : Nat
deriving DecidableEq, Repr

/-- 一回の読み込みの結果。`entry` の `none` は `~0UL`、`saved` は `rifs_save_elf32data()` が `-1` でないこと、`moveTo` は後の
`lsp.system_private.p` である。`signature` と `nextEntry` は、読み込んだ実行形式の署名の有無と、`next_entry` の初めの値である。 -/
structure LoadOutcome where
  entry : Option Nat
  saved : Bool
  moveTo : Nat
  signature : Bool
  nextEntry : Nat

/-- 実行の間は変わらない値。`bootstrapBit` は `IFS_INO_BOOTSTRAP_EXE`、`slots` は `NUM_ELTS(private->boot_pgm)` である。 -/
structure BootEnv where
  imagePaddr : Nat
  startupSize : Nat
  bootstrapBit : Nat
  slots : Nat
  rifsEnable : Bool
  load : Nat → LoadOutcome

/-- `sysPrivate` は `lsp.system_private.p`、`boot` は番地ごとの `boot_pgm`、`next` は読み込んだ実行形式の `next_entry`、`prev` はその番号である。 -/
structure BootState where
  sysPrivate : Nat
  boot : Nat → Nat → BootPgm
  loaded : List Dirent
  next : List Nat
  prev : Option Nat
  newStyle : Bool
  i : Nat

/-- 条件を満たす項目まで進む。 -/
def skipDirs (p : Dirent → Bool) : List Dirent → Option (Dirent × List Dirent)
  | [] => none
  | d :: ds => if p d then some (d, ds) else skipDirs p ds

/-- `find_file()`。 -/
def findFile (hdr : ImageHeader) (inode : Nat) : Option (Dirent × List Dirent) := skipDirs (fun d => d.ino = inode) hdr.dirs

/-- 次に読み込む項目。 -/
inductive DirPick
  | stop
  | crash
  | take (d : Dirent) (rest : List Dirent)

/-- 項目がブートストラップの実行形式である。 -/
def isBootstrap (env : BootEnv) (d : Dirent) : Bool := d.ino &&& env.bootstrapBit ≠ 0

def pickDir (env : BootEnv) (hdr : ImageHeader) (dir : List Dirent) (i : Nat) : DirPick :=
  if hdr.inoBits then
    match skipDirs (isBootstrap env) dir with
    | none => .stop
    | some (d, rest) => .take d rest
  else
    -- 古いイメージ
    match hdr.bootIno[i]? with
    | none => .stop
    | some inode =>
        if inode = 0 then .stop
        else
          match findFile hdr inode with
          | none => .crash
          | some (d, rest) => .take d rest

/-- 読み込みが `system_private` を移す。 -/
def BootState.move (s : BootState) (loc : Nat) : BootState :=
  { s with sysPrivate := loc, boot := Function.update s.boot loc (s.boot s.sysPrivate) }

/-- 今の `boot_pgm[i]` への書き込み。 -/
def BootState.setPgm (s : BootState) (i : Nat) (pgm : BootPgm) : BootState :=
  { s with boot := Function.update s.boot s.sysPrivate (Function.update (s.boot s.sysPrivate) i pgm) }

/-- `private->boot_pgm[i]` を書くところ。`none` は `crash()` を表す。 -/
def recordPgm (env : BootEnv) (s : BootState) (pgm : BootPgm) : Option BootState :=
  if s.i < env.slots then some (s.setPgm s.i pgm) else if s.prev = none then none else some s

/-- 前の実行形式の `next_entry` を書くところ。 -/
def linkPrev (s : BootState) (entry : Nat) : Option BootState :=
  match s.prev with
  | some p => some { s with next := s.next.set p entry }
  | none => if s.newStyle then none else some s

/-- 署名を調べるところ。 -/
def checkHead (s : BootState) (signature : Bool) : BootState :=
  if signature then { s with newStyle := true, prev := some s.i } else s

/-- 一つの実行形式の読み込み。 -/
def loadBootstrap (env : BootEnv) (s : BootState) (d : Dirent) : Option BootState := do
  let base := wrap32 (env.imagePaddr + env.startupSize + d.offset)
  let outcome := env.load s.i
  let entry ← outcome.entry
  if env.rifsEnable && !outcome.saved then failure
  let s := { s.move outcome.moveTo with loaded := s.loaded ++ [d], next := s.next ++ [outcome.nextEntry] }
  let s ← recordPgm env s ⟨base, entry⟩
  let s ← linkPrev s entry
  let s := checkHead s outcome.signature
  return { s with i := s.i + 1 }

def loadLoop (env : BootEnv) (hdr : ImageHeader) : (fuel : Nat) → List Dirent → BootState → Option BootState
  | 0, _, s => some s
  | fuel + 1, dir, s =>
      match pickDir env hdr dir s.i with
      | .stop => some s
      | .crash => none
      | .take d rest => do
          let s ← loadBootstrap env s d
          loadLoop env hdr fuel rest s

/-- `load_bootstraps()`。`sysPrivate` は引数の `private`、`boot` はその前の内容である。 -/
def loadBootstraps (env : BootEnv) (hdr : ImageHeader) (sysPrivate : Nat) (boot : Nat → Nat → BootPgm) : Option BootState :=
  let s : BootState := { sysPrivate, boot, loaded := [], next := [], prev := none, newStyle := false, i := 0 }
  let s := s.setPgm 0 { boot sysPrivate 0 with entry := 2 ^ 32 - 1 }
  loadLoop env hdr (hdr.dirs.length + hdr.bootIno.length + 1) hdr.dirs s

/-! ## 仕様 -/

/-- ブートストラップの実行形式。 -/
def bootstraps (env : BootEnv) (hdr : ImageHeader) : List Dirent := hdr.dirs.filter (isBootstrap env)

/-- `k` 番目の `boot_pgm` の値。 -/
def bootPgm (env : BootEnv) (k : Nat) (d : Dirent) : BootPgm :=
  ⟨wrap32 (env.imagePaddr + env.startupSize + d.offset), (env.load k).entry.getD 0⟩

/-- 署名のある実行形式と、より後の実行形式との間に、署名のないものはない。 -/
def ChainClosed (env : BootEnv) (n : Nat) : Prop := ∀ j k, j < k → k + 1 < n → (env.load j).signature = true → (env.load k).signature = true

/-- 連鎖が正しくできている。 -/
structure ChainRight (env : BootEnv) (es : List Dirent) (s : BootState) : Prop where
  loaded : s.loaded = es
  programs : ∀ k d, es[k]? = some d → k < env.slots → s.boot s.sysPrivate k = bootPgm env k d
  links : ∀ k, k + 1 < es.length → (env.load k).signature = true → s.next[k]? = (env.load (k + 1)).entry
  closed : ChainClosed env es.length

/-- 読み込みか保存に失敗するか、署名のあるものがないまま `boot_pgm` を越える。 -/
def BootCrashes (env : BootEnv) (n : Nat) : Prop :=
  ∃ k < n, (env.load k).entry = none ∨ (env.rifsEnable && !(env.load k).saved) = true ∨
    (env.slots ≤ k ∧ ∀ j < k, (env.load j).signature = false)

end Imx6Bsp.Startup
