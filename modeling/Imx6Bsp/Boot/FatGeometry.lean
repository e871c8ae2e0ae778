import Imx6Bsp.Lib.Bytes
import Imx6Bsp.Startup.Basic
import Imx6Bsp.Lib.Copying

/-!
# FAT の配置（`fat-fs.c` の `fat_detect_type()`）

BPB は番地 `bpb` の 512 バイトである。`fs_info` の `device` は、読み込みの関数の引数とする。割り算の代わりの引き算の繰り返しは
`fuel` 回までとし、`none` は終わらないことを表す。
-/

namespace Imx6Bsp.Boot

open Imx6Bsp.Lib Imx6Bsp.Startup

def sectSize : Nat := 512

/-! ## `bpb_t` と `bpb32_t` -/

section

variable (m : Mem) (bpb : Nat)

def secSize : Nat := m.readLE (bpb + 11) 2

def secPerClus : Nat := m.readLE (bpb + 13) 1

def numRsvdSecs : Nat := m.readLE (bpb + 14) 2

def numFats : Nat := m.readLE (bpb + 16) 1

def numRootEnts : Nat := m.readLE (bpb + 17) 2

def num16Secs : Nat := m.readLE (bpb + 19) 2

def num16FatSecs : Nat := m.readLE (bpb + 22) 2

def num32Secs : Nat := m.readLE (bpb + 32) 4

def num32FatSecs : Nat := m.readLE (bpb + 36) 4

def rootClus : Nat := m.readLE (bpb + 44) 4

def bpbSig : Nat := m.readLE (bpb + 510) 2

end

/-! ## `fs_info_t` -/

structure FsInfo where
  fsOffset : Nat
  fatType : Nat
  totalSectors : Nat
  rootDirSectors : Nat
  reservedSectors : Nat
  dataSectors : Nat
  fatSize : Nat
  numberOfFats : Nat
  clusterSize : Nat
  countOfClusters : Nat
  fat1Start : Nat
  fat2Start : Nat
  rootDirStart : Nat
  rootEntryCount : Nat
  cluster2Start : Nat
deriving DecidableEq, Repr

/-- `unsigned` から `int` への変換。 -/
def int32 (x : Nat) : Int := if x < 2 ^ 31 then x else (x : Int) - 2 ^ 32

/-- `r` から `d` を引けるだけ引き、回数を数える繰り返し。 -/
def divLoop : Nat → Int → Int → Nat → Option Nat
  | 0, _, _, _ => none
  | fuel + 1, r, d, n => if r ≥ d then divLoop fuel (r - d) d (n + 1) else some n

/-- `fat_detect_type()` の、二つの割り算のほかの欄。 -/
def layoutOf (m : Mem) (bpb ns : Nat) (fsInfo : FsInfo) : FsInfo :=
  let fatSize := if num16FatSecs m bpb = 0 then num32FatSecs m bpb else num16FatSecs m bpb
  let totalSectors := if num16Secs m bpb = 0 then num32Secs m bpb else num16Secs m bpb
  let numberOfFats := numFats m bpb
  let reservedSectors := numRsvdSecs m bpb
  let fat2Start := wrap32 (reservedSectors + fatSize)
  let rootDirStart := wrap32 (fat2Start + fatSize)
  { fsInfo with
    rootDirSectors := ns
    fatSize
    totalSectors
    numberOfFats
    reservedSectors
    dataSectors := wrap32 (totalSectors + (2 ^ 32 - wrap32 (reservedSectors + numberOfFats * fatSize + ns)))
    clusterSize := secPerClus m bpb
    rootEntryCount := numRootEnts m bpb
    fat1Start := reservedSectors
    fat2Start
    rootDirStart
    cluster2Start := wrap32 (rootDirStart + (numRootEnts m bpb * 32 + (512 - 1)) / 512) }

/-- `fat_detect_type()`。戻り値と `fs_info`。 -/
def fatDetectType (fuel : Nat) (m : Mem) (bpb : Nat) (fsInfo : FsInfo) : Option (Int × FsInfo) :=
  if bpbSig m bpb ≠ 0xaa55 then some (-1, fsInfo)
  else
    let bs := secSize m bpb
    match divLoop fuel ((numRootEnts m bpb : Int) * 32 + bs - 1) bs 0 with
    | none => none
    | some ns =>
        let fsInfo := layoutOf m bpb ns fsInfo
        match divLoop fuel (int32 fsInfo.dataSectors) fsInfo.clusterSize 0 with
        | none => none
        | some nc =>
            let fsInfo := { fsInfo with countOfClusters := nc }
            if nc < 4085 then some (12, fsInfo)
            else if nc < 65525 then some (16, fsInfo)
            else some (32, { fsInfo with rootDirStart := rootClus m bpb })

/-- `clust2fsect()`。 -/
def clust2fsect (fsInfo : FsInfo) (clust : Nat) : Nat :=
  wrap32 (fsInfo.cluster2Start + wrap32 (clust + (2 ^ 32 - 2)) * fsInfo.clusterSize)

/-! ## FAT32 のファイルの読み込み（`fat-fs.c`）

カードの読み込みは、読み込みの回数ごとに成否が決まるものとし、失敗したときも、バッファには何かのバイトが届く。読み込み先の記憶域
`mem` と、静的なバッファ `blk_buf` は別の対象である。`blk` も `blk_buf` の先頭を指す。 -/

/-- `SDMMC_OK` と `SDMMC_ERROR`。 -/
inductive SdmmcStatus
  | ok
  | error
deriving DecidableEq, Repr

/-- カードの内容と、読み込みの成否。 -/
structure Card where
  /-- 番号 `b` のブロックの `i` バイト目。 -/
  block : (b i : Nat) → UInt8
  /-- `n` 回目の読み込みが失敗する。 -/
  fails : (n : Nat) → Bool
  /-- 失敗した `n` 回目の読み込みが残す `i` バイト目。 -/
  garbage : (n i : Nat) → UInt8

structure FatState where
  mem : Mem
  blk : Mem
  /-- これまでの読み込みの回数。 -/
  reads : Nat

/-- `n` 回目の読み込みで届く `i` バイト目。 -/
def Card.transfer (card : Card) (n blkno i : Nat) : UInt8 :=
  if card.fails n then card.garbage n i else card.block (wrap32 (blkno + i / sectSize)) (i % sectSize)

section

variable (card : Card) (fsInfo : FsInfo)

def readStatus (n : Nat) : SdmmcStatus := if card.fails n then .error else .ok

/-- `buf` への `read_fsect()`。 -/
def readFsect (s : FatState) (sector buf cnt : Nat) : SdmmcStatus × FatState :=
  (readStatus card s.reads,
    { s with
      mem := s.mem.fill buf (cnt * sectSize) (card.transfer s.reads (wrap32 (sector + fsInfo.fsOffset)))
      reads := s.reads + 1 })

/-- `blk` への一セクタの `read_fsect()`。 -/
def readFsectBlk (s : FatState) (sector : Nat) : SdmmcStatus × FatState :=
  (readStatus card s.reads,
    { s with
      blk := s.blk.fill 0 sectSize (card.transfer s.reads (wrap32 (sector + fsInfo.fsOffset)))
      reads := s.reads + 1 })

/-- `fat_get_fat_entry()`。読めないときは 0 を返す。 -/
def fatGetFatEntry (s : FatState) (clust : Nat) : Nat × FatState :=
  let fatSec := wrap32 (fsInfo.fat1Start + wrap32 (clust * 4) / sectSize)
  let fatOffs := wrap32 (clust * 4) % sectSize
  match readFsectBlk card fsInfo s fatSec with
  | (.error, s) => (0, s)
  | (.ok, s) => (s.blk.readLE fatOffs 4 &&& 0x0fffffff, s)

/-- `end_of_file()`。 -/
def endOfFile (clust : Nat) : Bool := decide (clust = 0x0ffffff8 ∨ clust = 0x0fffffff)

/-- `read_clust()` の、端数の `rest` バイトを読むところ。 -/
def readRest (s : FatState) (clust buf sectors rest : Nat) : SdmmcStatus × FatState :=
  if rest ≠ 0 then
    match readFsectBlk card fsInfo s (wrap32 (clust2fsect fsInfo clust + sectors)) with
    | (.error, s) => (.error, s)
    | (.ok, s) => (.ok, { s with mem := s.mem.fill (buf + sectors * sectSize) rest s.blk })
  else (.ok, s)

/-- `read_clust()`。 -/
def readClust (s : FatState) (clust buf size : Nat) : SdmmcStatus × FatState :=
  let sectors := if size / sectSize ≥ fsInfo.clusterSize then fsInfo.clusterSize else size / sectSize
  let rest := if size / sectSize ≥ fsInfo.clusterSize then 0 else size % sectSize
  if sectors ≠ 0 then
    match readFsect card fsInfo s (clust2fsect fsInfo clust) buf sectors with
    | (.error, s) => (.error, s)
    | (.ok, s) => readRest card fsInfo s clust buf sectors rest
  else readRest card fsInfo s clust buf sectors rest

/-- `fat_copy_file()` の繰り返し。`sz` は `int` で、負なら一度も回らない。 -/
def copyFileLoop : Nat → FatState → (clust buf sz : Nat) → Option (SdmmcStatus × FatState)
  | 0, _, _, _, _ => none
  | fuel + 1, s, clust, buf, sz =>
      if endOfFile clust = false ∧ sz > 0 then
        let txf := min sz (fsInfo.clusterSize * sectSize)
        match readClust card fsInfo s clust buf txf with
        | (.error, s) => some (.error, s)
        | (.ok, s) =>
            let (clust, s) := fatGetFatEntry card fsInfo s clust
            copyFileLoop fuel s clust (buf + txf) (sz - txf)
      else some (.ok, s)

/-- `fat_copy_file()`。 -/
def fatCopyFile (fuel : Nat) (s : FatState) (clust size buf : Nat) : Option (SdmmcStatus × FatState) :=
  copyFileLoop card fsInfo fuel s clust buf (int32 size).toNat

end

/-! ## FAT32 のルートディレクトリの検索（`fat-fs.c` の `fat_copy_named_file()`）

`name` は終わりの 0 を除いたバイトの列である。`none` は、`fuel` 個のクラスタでは終わらないことを表す。 -/

def entUnused : UInt8 := 0xE5

def entEnd : UInt8 := 0x00

/-- `sizeof(dir_entry_t)`。 -/
def dirEntrySize : Nat := 32

/-! ### `dir_entry_t` -/

section

variable (blk : Mem) (entry : Nat)

def clustHi : Nat := blk.readLE (entry + 20) 2

def clustLo : Nat := blk.readLE (entry + 26) 2

def dirSize : Nat := blk.readLE (entry + 28) 4

/-- `GET_CLUSTER()`。 -/
def getCluster : Nat := clustLo blk entry ||| clustHi blk entry <<< 16

end

/-- `name` と `short_name` を比べる繰り返し。 -/
def matchName : List UInt8 → Mem → Nat → Bool
  | [], _, _ => true
  | c :: name, blk, a => if c ≠ blk a then false else matchName name blk (a + 1)

/-! ### 検索の繰り返し -/

/-- 一つのセクタの検索の結果。 -/
inductive EntScan
  | found (ent : Nat)
  | ended
  | exhausted
deriving DecidableEq, Repr

/-- 一つのセクタの、残り `n` 個の項の検索。 -/
def scanEntries (name : List UInt8) (blk : Mem) : (n ent : Nat) → EntScan
  | 0, _ => .exhausted
  | n + 1, ent =>
      let entry := ent * dirEntrySize
      if blk entry = entEnd then .ended
      else if blk entry = entUnused then scanEntries name blk n (ent + 1)
      else if matchName (name.take 11) blk entry = false ∨ getCluster blk entry = 0 then scanEntries name blk n (ent + 1)
      else .found ent

/-- 一つのクラスタの検索の結果。 -/
inductive ClustScan
  | found (subSect ent : Nat) (s : FatState)
  | error (s : FatState)
  | next (s : FatState)

/-- `loaded` は、読み込んだファイルの項の位置（クラスタ、セクタ、項）である。 -/
structure NamedResult where
  status : SdmmcStatus
  state : FatState
  loaded : Option (Nat × Nat × Nat)

section

variable (card : Card) (fsInfo : FsInfo) (name : List UInt8)

/-- 一つのクラスタの、残り `n` 個のセクタの検索。終わりの印は、そのクラスタの検索だけを終える。 -/
def scanSectors (dirSect : Nat) : (n subSect : Nat) → FatState → ClustScan
  | 0, _, s => .next s
  | n + 1, subSect, s =>
      match readFsectBlk card fsInfo s (wrap32 (dirSect + subSect)) with
      | (.error, s) => .error s
      | (.ok, s) =>
          match scanEntries name s.blk (sectSize / dirEntrySize) 0 with
          | .found ent => .found subSect ent s
          | .ended => .next s
          | .exhausted => scanSectors dirSect n (subSect + 1) s

/-- ディレクトリのクラスタの繰り返し。 -/
def namedFileLoop (buf : Nat) : Nat → FatState → Nat → Option NamedResult
  | 0, _, _ => none
  | fuel + 1, s, dirClust =>
      if endOfFile dirClust then some ⟨.error, s, none⟩
      else
        match scanSectors card fsInfo name (clust2fsect fsInfo dirClust) fsInfo.clusterSize 0 s with
        | .error s => some ⟨.error, s, none⟩
        | .found subSect ent s =>
            match fatCopyFile card fsInfo fuel s (getCluster s.blk (ent * dirEntrySize)) (dirSize s.blk (ent * dirEntrySize)) buf with
            | none => none
            | some (status, s) => some ⟨status, s, some (dirClust, subSect, ent)⟩
        | .next s =>
            let (dirClust, s) := fatGetFatEntry card fsInfo s dirClust
            namedFileLoop buf fuel s dirClust

/-- `fat_copy_named_file()`。 -/
def fatCopyNamedFile (fuel : Nat) (s : FatState) (buf : Nat) : Option NamedResult :=
  namedFileLoop card fsInfo name buf fuel s fsInfo.rootDirStart

end

end Imx6Bsp.Boot
