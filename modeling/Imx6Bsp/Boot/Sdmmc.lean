import Imx6Bsp.Lib.Runs

/-!
# SD と MMC の識別（`ipl/boards/mx6q-sabresmart/sdmmc.c`）

`sdmmc_init_card()` を、命令を送るところまで写す。命令の成否と応答の初めの語は、何番目の命令かの関数で与える。`log` は送った命令の
記録で、ドライバは持たない。CID と CSD の中身と、バス幅と周波数の設定は、送る命令にも種類にも関わらないので省く。
-/

namespace Imx6Bsp.Boot.Sd

open Imx6Bsp.Lib

/-! ## 命令 -/

def mmcGoIdleState : Nat := 0
def mmcSendOpCond : Nat := 1
def mmcAllSendCid : Nat := 2
def mmcSetRelativeAddr : Nat := 3
def mmcSwitch : Nat := 6
def mmcSelDesCard : Nat := 7
def mmcIfCond : Nat := 8
def mmcSendCsd : Nat := 9
def mmcSendStatus : Nat := 13
def mmcSetBlocklen : Nat := 16
def mmcAppCmd : Nat := 55
def sdSetBusWidth : Nat := 55 <<< 8 ||| 6
def sdSendOpCond : Nat := 55 <<< 8 ||| 41

/-- `cmdtab` の命令。 -/
def cmdtab : List Nat :=
  [mmcGoIdleState, mmcSendOpCond, mmcAllSendCid, mmcSetRelativeAddr, mmcSwitch, mmcSelDesCard, mmcIfCond, mmcSendCsd, mmcSendStatus,
    mmcSetBlocklen, 17, 18, mmcAppCmd, sdSetBusWidth, sdSendOpCond]

/-- `POWER_UP_WAIT`。 -/
def powerUpWait : Nat := 40

/-- `SDMMC_BLOCKSIZE`。 -/
def sdmmcBlocksize : Nat := 512

/-- `card_type_t`。 -/
inductive CardType
  | none
  | mmc
  | sdc
  | sdcV200
  | sdcHc
  | mmcHc
deriving DecidableEq, Repr

/-- `MMC_IDLE`、`MMC_READY`、`MMC_IDENT` と、`MMC_SEND_STATUS` の応答による状態。 -/
def mmcIdle : BitVec 32 := 0 <<< 9
def mmcReady : BitVec 32 := 1 <<< 9
def mmcIdent : BitVec 32 := 2 <<< 9

/-- 命令の成否と、応答の初めの語。 -/
structure Answer where
  ok : Bool
  rsp : BitVec 32

/-- 送った命令と、その応答。 -/
structure Sent where
  cmd : Nat
  arg : BitVec 32
  answer : Answer

/-- `mx6x_sdmmc_t` の、使う欄。 -/
structure Sdmmc where
  icr : BitVec 32
  ocr : BitVec 32
  type : CardType := .none
  rca : BitVec 32 := 0
  state : BitVec 32 := 0
  log : List Sent := []

/-- 失敗は `SDMMC_ERROR` を返すことを表す。 -/
abbrev Ipl (α : Type) : Type := EStateM Unit Sdmmc α

section

variable (answers : Nat → Answer)

/-- `CMD_CREATE()` と `sdmmc_send_cmd()`。`none` は `SDMMC_ERROR` を表す。 -/
def sendCmd (cmd : Nat) (arg : BitVec 32) : Ipl (Option (BitVec 32)) := do
  if cmd ∈ cmdtab then
    let s ← get
    modify fun t => { t with log := t.log ++ [⟨cmd, arg, answers s.log.length⟩] }
    return if (answers s.log.length).ok then some (answers s.log.length).rsp else none
  else return none

/-- 失敗すれば `SDMMC_ERROR` を返す命令。 -/
def mustSend (cmd : Nat) (arg : BitVec 32) : Ipl (BitVec 32) := do
  match ← sendCmd answers cmd arg with
  | some rsp => return rsp
  | none => throw ()

/-- `sdmmc_get_state()`。 -/
def sdmmcGetState : Ipl PUnit := do
  let s ← get
  let rsp ← mustSend answers mmcSendStatus (s.rca <<< 16)
  modify fun s => { s with state := rsp &&& 0x1e00 }

/-- `sdmmc_check_ocr()`。 -/
def sdmmcCheckOcr (ocr : BitVec 32) : Ipl PUnit := do
  let s ← get
  if ocr &&& s.ocr ≠ 0 then return ⟨⟩
  else
    let _ ← sendCmd answers mmcGoIdleState 0
    throw ()

/-! ## 電源 -/

/-- 初めの一回だけの `sdmmc_check_ocr()`。 -/
def firstCheck (i : Nat) (rsp : BitVec 32) : Ipl PUnit := if i = 0 then sdmmcCheckOcr answers rsp else return ⟨⟩

/-- `n` 回までの繰り返し。真偽は `POWER_UP_WAIT` に達する前に抜けたことを、語は `rsp[0]` を表す。 -/
def powerUp (poll : Ipl (BitVec 32)) : (n i : Nat) → BitVec 32 → Ipl (Bool × BitVec 32)
  | 0, _, rsp => return (false, rsp)
  | n + 1, i, _ => do
      let rsp ← poll
      firstCheck answers i rsp
      if rsp.getLsbD 31 then return (true, rsp) else powerUp poll n (i + 1) rsp

/-- `eSDC_V200` の一回。 -/
def pollV200 : Ipl (BitVec 32) := do
  let s ← get
  let _ ← mustSend answers mmcAppCmd (s.rca <<< 16)
  mustSend answers sdSendOpCond (0xc0000000 ||| s.ocr)

/-- `eSDC` の一回。命令は繰り返しの前に一度だけ作る。 -/
def pollSdc : Ipl (BitVec 32) := do
  let s ← get
  mustSend answers sdSendOpCond (0x80000000 ||| s.ocr)

/-- `eMMC` の一回。命令は繰り返しの前に一度だけ作る。 -/
def pollMmc : Ipl (BitVec 32) := do
  let s ← get
  mustSend answers mmcSendOpCond (0xc0000000 ||| s.ocr)

/-- `eSDC_V200` の場合。 -/
def powerV200 (stack : BitVec 32) : Ipl Bool := do
  let s ← get
  let _ ← mustSend answers mmcIfCond s.icr
  let r ← powerUp answers (pollV200 answers) powerUpWait 0 stack
  modify fun s => { s with type := if r.2.getLsbD 30 then .sdcHc else .sdc }
  return r.1

/-- `eSDC` の場合。 -/
def powerSdc (stack : BitVec 32) : Ipl Bool := do
  let r ← powerUp answers (pollSdc answers) powerUpWait 0 stack
  return r.1

/-- `eMMC` の場合。 -/
def powerMmc (stack : BitVec 32) : Ipl Bool := do
  let r ← powerUp answers (pollMmc answers) powerUpWait 0 stack
  modify fun s => { s with type := if r.2.getLsbD 30 then .mmcHc else s.type }
  return r.1

/-- `switch (card->type)` の前半。`stack` は初期化されない `rsp[0]` である。 -/
def powerByType (stack : BitVec 32) : Ipl Bool := do
  let s ← get
  match s.type with
  | .sdcV200 => powerV200 answers stack
  | .sdc => powerSdc answers stack
  | .mmc => powerMmc answers stack
  | _ => throw ()

/-! ## 識別 -/

/-- `MMC_IF_COND` と `MMC_APP_CMD` による種類の判定。 -/
def probe : Ipl PUnit := do
  let s ← get
  match ← sendCmd answers mmcIfCond s.icr with
  | some _ => modify fun s => { s with type := .sdcV200 }
  | none =>
      match ← sendCmd answers mmcAppCmd 0 with
      | some _ => modify fun s => { s with type := .sdc }
      | none => modify fun s => { s with type := .mmc }

/-- カードが SD である。 -/
def CardType.isSd : CardType → Bool
  | .sdc => true
  | .sdcHc => true
  | _ => false

/-- カードが MMC である。 -/
def CardType.isMmc : CardType → Bool
  | .mmc => true
  | .mmcHc => true
  | _ => false

/-- 相対番地を決めるところ。 -/
def setAddress : Ipl PUnit := do
  let s ← get
  if s.type.isSd then
    let rsp ← mustSend answers mmcSetRelativeAddr (0x0001 <<< 16)
    modify fun s => { s with rca := rsp >>> 16 }
    sdmmcGetState answers
  else if s.type.isMmc then
    let _ ← mustSend answers mmcSetRelativeAddr (0x0001 <<< 16)
    modify fun s => { s with rca := 0x0001 }
    sdmmcGetState answers
  else throw ()

/-- CSD を読むところ。SD では `sd_parse_csd()` が状態を尋ねる。 -/
def sendCsd : Ipl PUnit := do
  let s ← get
  let _ ← mustSend answers mmcSendCsd (s.rca <<< 16)
  if s.type.isSd then sdmmcGetState answers
  else if s.type.isMmc then return ⟨⟩
  else throw ()

/-- カードを選び、ブロックの大きさを決めるところ。 -/
def selectCard : Ipl PUnit := do
  let s ← get
  let _ ← mustSend answers mmcSelDesCard (s.rca <<< 16)
  sdmmcGetState answers
  let _ ← mustSend answers mmcSetBlocklen (BitVec.ofNat 32 sdmmcBlocksize)
  sdmmcGetState answers

/-- `mmc_switch_mode()`。 -/
def mmcSwitchMode : Ipl PUnit := do
  let _ ← mustSend answers mmcSwitch (3 <<< 24 ||| 183 <<< 16 ||| 2 <<< 8)
  let _ ← mustSend answers mmcSwitch (3 <<< 24 ||| 185 <<< 16 ||| 1 <<< 8 ||| 1)
  return ⟨⟩

/-- SD のバス幅を変えるところ。 -/
def sdSwitchWidth (rca : BitVec 32) : Ipl PUnit := do
  let _ ← mustSend answers mmcAppCmd (rca <<< 16)
  let _ ← mustSend answers sdSetBusWidth 2
  return ⟨⟩

/-- バス幅を変えるところ。 -/
def switchMode : Ipl PUnit := do
  let s ← get
  if s.type.isSd then sdSwitchWidth answers s.rca
  else if s.type.isMmc then mmcSwitchMode answers
  else throw ()

/-- `sdmmc_init_card()` の、電源が入った後。 -/
def identify : Ipl PUnit := do
  modify fun s => { s with state := mmcReady }
  let _ ← mustSend answers mmcAllSendCid 0
  modify fun s => { s with state := mmcIdent }
  setAddress answers
  sendCsd answers
  selectCard answers
  switchMode answers

/-- `sdmmc_init_card()` の、種類を決めるところ。 -/
def probeCard : Ipl PUnit := do
  modify fun s => { s with rca := 0 }
  let _ ← mustSend answers mmcGoIdleState 0
  modify fun s => { s with state := mmcIdle }
  probe answers
  let _ ← mustSend answers mmcGoIdleState 0

/-- `sdmmc_init_card()`。 -/
def sdmmcInitCard (stack : BitVec 32) : Ipl PUnit := do
  probeCard answers
  if ← powerByType answers stack then identify answers else throw ()

end

/-! ## 仕様 -/

/-- 実行の後の記録。 -/
def finalLog (answers : Nat → Answer) (stack icr ocr : BitVec 32) : List Sent :=
  match sdmmcInitCard answers stack { icr, ocr } with
  | .ok _ s => s.log
  | .error _ s => s.log

/-- `SD_SEND_OP_COND` と `SD_SET_BUS_WIDTH`。 -/
def NeedsApp (cmd : Nat) : Prop := cmd = sdSendOpCond ∨ cmd = sdSetBusWidth

/-- 動作条件を尋ねる命令。 -/
def IsOpCond (cmd : Nat) : Prop := cmd = sdSendOpCond ∨ cmd = mmcSendOpCond

instance (cmd : Nat) : Decidable (NeedsApp cmd) := inferInstanceAs (Decidable (_ ∨ _))

instance (cmd : Nat) : Decidable (IsOpCond cmd) := inferInstanceAs (Decidable (_ ∨ _))

/-- 直前の命令が、成功した `MMC_APP_CMD` である。 -/
def AfterApp (log : List Sent) : Prop := ∃ x, log.getLast? = some x ∧ x.cmd = mmcAppCmd ∧ x.answer.ok = true

/-- `MMC_APP_CMD` の要る命令は、成功した `MMC_APP_CMD` のすぐ後にだけある。 -/
def AppOrdered (log : List Sent) : Prop := ∀ before x after, log = before ++ x :: after → NeedsApp x.cmd → AfterApp before

/-- 最後の動作条件の応答は電源が入ったことを示し、大容量の種類なのは、大容量のビットを尋ねて同じビットが返ったときに限る。 -/
def Powered (s : Sdmmc) : Prop :=
  ∃ before x after, s.log = before ++ x :: after ∧ IsOpCond x.cmd ∧ (∀ y ∈ after, ¬ IsOpCond y.cmd) ∧ x.answer.ok = true ∧
    x.answer.rsp.getLsbD 31 = true ∧
      ((s.type = .sdcHc ∨ s.type = .mmcHc) ↔ x.arg.getLsbD 30 = true ∧ x.answer.rsp.getLsbD 30 = true)

/-- 識別は手順に従う。 -/
structure IdentifiesRight (answers : Nat → Answer) (stack icr ocr : BitVec 32) : Prop where
  ordered : AppOrdered (finalLog answers stack icr ocr)
  powered : ∀ s, sdmmcInitCard answers stack { icr, ocr } = .ok ⟨⟩ s → Powered s

/-- `MMC_IF_COND` に応じず、`MMC_APP_CMD` に応じ、その前後の `MMC_GO_IDLE_STATE` は成功する。 -/
def OldSdProbed (answers : Nat → Answer) : Prop :=
  (answers 0).ok = true ∧ (answers 1).ok = false ∧ (answers 2).ok = true ∧ (answers 3).ok = true

end Imx6Bsp.Boot.Sd

namespace Imx6Bsp.Boot.Sd

open Imx6Bsp.Lib

/-! ## SD と MMC の読み出し（`ipl/boards/mx6q-sabresmart/sdmmc.c`）

CSD の容量の欄と `sdmmc_read()` を写す。容量は後の命令に関わらないので、識別が成功した後にまとめて求める。`int` の計算は、
32 ビットで回るとする。`xfers` はデータ転送の設定の記録で、ドライバは持たない。 -/

def mmcReadSingleBlock : Nat := 17
def mmcReadMultipleBlock : Nat := 18

/-- `MMC_TRAN`。 -/
def mmcTran : BitVec 32 := 4 <<< 9

/-! ### CSD -/

/-- `MX6X_MMCCMDRSP0` から `3`。CRC を除いた 120 ビットを、下から詰める。 -/
def cmdRsp (csd : BitVec 128) (i : Nat) : BitVec 32 := csd.extractLsb' (8 + 32 * i) 32

/-- `sdmmc_send_cmd()` が 8 ビットだけ上に寄せた `rsp[i]`。 -/
def rspWord (csd : BitVec 128) : Nat → BitVec 32
  | 0 => cmdRsp csd 0 <<< 8
  | i + 1 => (cmdRsp csd (i + 1) <<< 8) ||| (cmdRsp csd i >>> 24)

/-- `card_t` の、ブロックの大きさと数。 -/
structure Geometry where
  blkSize : BitVec 32
  blkNum : BitVec 32

section

variable (resp : Nat → BitVec 32)

def csdStructure : BitVec 32 := resp 3 >>> 30
def readBlLen : BitVec 32 := (resp 2 >>> 16) &&& 0x0f
def cSizeVer1 : BitVec 32 := ((resp 2 &&& 0x3ff) <<< 2) ||| (resp 1 >>> 30)
def cSizeVer2 : BitVec 32 := ((resp 2 &&& 0x3f) <<< 16) ||| (resp 1 >>> 16)
def cSizeMult : BitVec 32 := (resp 1 >>> 15) &&& 0x07

/-- `SDMMC_BLOCKSIZE`。 -/
def blockSize : BitVec 32 := BitVec.ofNat 32 sdmmcBlocksize

/-- `sd_parse_csd()` の、512 バイトのブロックに直すところ。 -/
def forceBlock (bsize csize csizem : BitVec 32) : Geometry :=
  if bsize > blockSize ∧ bsize % blockSize = 0 then ⟨blockSize, csize * (bsize / blockSize) * csizem⟩ else ⟨bsize, csize * csizem⟩

/-- `sd_parse_csd()`。版が 0 でなければ、どれも 2.0 版として読む。 -/
def sdParseCsd : Geometry :=
  if csdStructure resp = 0 then forceBlock ((1 : BitVec 32) <<< readBlLen resp) (cSizeVer1 resp + 1) ((1 : BitVec 32) <<< (cSizeMult resp + 2))
  else forceBlock blockSize (cSizeVer2 resp + 1) 1024

/-- `mmc_parse_csd()`。 -/
def mmcParseCsd : Geometry := ⟨(1 : BitVec 32) <<< readBlLen resp, (cSizeVer1 resp + 1) * ((1 : BitVec 32) <<< (cSizeMult resp + 2))⟩

end

/-- `sdmmc_init_card()` の、既定のブロックの大きさが 512 でないときに備えるところ。 -/
def rescale (g : Geometry) : Geometry := ⟨blockSize, g.blkNum * (g.blkSize / blockSize)⟩

/-- カードの種類ごとの `switch` と、その後の換算。 -/
def parseCsd (type : CardType) (csd : BitVec 128) : Geometry :=
  rescale (if type.isSd then sdParseCsd (rspWord csd) else mmcParseCsd (rspWord csd))

/-! ### 状態 -/

/-- 読み出しの命令の、引数とデータ転送の設定。 -/
structure Xfer where
  cmd : Nat
  arg : BitVec 32
  /-- `MX6X_MMCBLATR`。 -/
  blatr : BitVec 32
  /-- `MX6X_MMCDMASYSADD`。 -/
  dmaSysAdd : BitVec 32
  /-- `MX6X_MMCMIX_CTRL` の、転送の欄。 -/
  mixCtrl : BitVec 32

/-- 識別したカード。 -/
structure Card where
  sdmmc : Sdmmc
  geometry : Geometry
  xfers : List Xfer := []

/-- カードの計算。失敗は `SDMMC_ERROR` を返すことを表す。 -/
abbrev OnCard (α : Type) : Type := EStateM Unit Card α

/-- 識別と共通の関数。 -/
def onCard {α : Type} (x : Ipl α) : OnCard α := fun c =>
  match x c.sdmmc with
  | .ok a s => .ok a { c with sdmmc := s }
  | .error e s => .error e { c with sdmmc := s }

section

variable (answers : Nat → Answer)

/-- CSD が `csd` であるカードの `sdmmc_init_card()`。`none` は `SDMMC_ERROR` を表す。 -/
def initCard (stack : BitVec 32) (csd : BitVec 128) (s : Sdmmc) : Option Card :=
  match sdmmcInitCard answers stack s with
  | .ok _ s => some { sdmmc := s, geometry := parseCsd s.type csd }
  | .error _ _ => none

/-! ### 読み出し -/

/-- `MMCCMDXTYPE_MSBSEL | MMCCMDXTYPE_BCEN`。 -/
def multiBlock : BitVec 32 := 1 <<< 5 ||| 1 <<< 1

/-- `sdmmc_send_cmd()` の `mix_ctrl`。 -/
def mixCtrl (cmd : Nat) : BitVec 32 :=
  if cmd = mmcReadSingleBlock then 1 <<< 4 ||| 1
  else if cmd = mmcReadMultipleBlock then multiBlock ||| 1 <<< 2 ||| 1 <<< 4 ||| 1
  else 0

/-- データのある命令の `sdmmc_send_cmd()`。`mx6x_setup_dma_read()` は、個数を大きさの上の 16 ビットに詰める。 -/
def sendRead (cmd : Nat) (arg bsize bcnt dbuf : BitVec 32) : OnCard (Option (BitVec 32)) := do
  modify fun c => { c with xfers := c.xfers ++ [⟨cmd, arg, (bcnt <<< 16) ||| bsize, dbuf, mixCtrl cmd⟩] }
  onCard (sendCmd answers cmd arg)

/-- `MMC_TRAN` を待つ繰り返し。偽は、`fuel` 回では終わらないことを表す。 -/
def waitTran : (fuel : Nat) → OnCard Bool
  | 0 => return false
  | fuel + 1 => do
      let c ← get
      if c.sdmmc.state ≠ mmcTran then
        onCard (sdmmcGetState answers)
        waitTran fuel
      else return true

/-- 引数がバイトの番地であるカード。 -/
def CardType.byteAddressed : CardType → Bool
  | .mmc => true
  | .sdc => true
  | _ => false

/-- `sdmmc_read()`。真は `SDMMC_OK` を返すことを表す。 -/
def sdmmcRead (fuel : Nat) (buf blkno blkcnt : BitVec 32) : OnCard Bool := do
  let c ← get
  if blkno ≥ c.geometry.blkNum ∨ blkno + blkcnt > c.geometry.blkNum ∨ blkno + blkcnt < blkno then throw ()
  else if blkcnt = 0 then return true
  else
    let cmd := if blkcnt = 1 then mmcReadSingleBlock else mmcReadMultipleBlock
    let arg := if c.sdmmc.type.byteAddressed then blkno * blockSize else blkno
    match ← sendRead answers cmd arg blockSize blkcnt buf with
    | some _ => waitTran answers fuel
    | none => throw ()

/-- 識別の後、読み出しを何度かした後のカード。 -/
inductive Reached (stack icr ocr : BitVec 32) (csd : BitVec 128) : Card → Prop
  | init {c : Card} (h : initCard answers stack csd { icr, ocr } = some c) : Reached stack icr ocr csd c
  | read {c t : Card} {fuel : Nat} {buf blkno blkcnt : BitVec 32} (hc : Reached stack icr ocr csd c)
      (h : sdmmcRead answers fuel buf blkno blkcnt c = .ok true t) : Reached stack icr ocr csd t
  | failed {c t : Card} {fuel : Nat} {buf blkno blkcnt : BitVec 32} (hc : Reached stack icr ocr csd c)
      (h : sdmmcRead answers fuel buf blkno blkcnt c = .error () t) : Reached stack icr ocr csd t

end

/-! ### 仕様 -/

/-- CSD の `lo` ビットからの `n` ビットの欄。 -/
def csdField (csd : BitVec 128) (lo n : Nat) : Nat := (csd.extractLsb' lo n).toNat

/-- 1.0 版の CSD の示す容量のバイト数。`C_SIZE`、`C_SIZE_MULT`、`READ_BL_LEN` による。 -/
def bytesVer1 (csd : BitVec 128) : Nat := (csdField csd 62 12 + 1) * 2 ^ (csdField csd 47 3 + 2) * 2 ^ csdField csd 80 4

/-- CSD は SD の 2.0 版である。 -/
def IsVer2 (type : CardType) (csd : BitVec 128) : Prop := type.isSd = true ∧ csdField csd 126 2 ≠ 0

instance (type : CardType) (csd : BitVec 128) : Decidable (IsVer2 type csd) := inferInstanceAs (Decidable (_ ∧ _))

/-- 512 バイトのブロックで数えた容量。 -/
def capacity (type : CardType) (csd : BitVec 128) : Nat :=
  if IsVer2 type csd then (csdField csd 48 22 + 1) * 1024 else bytesVer1 csd / 512

/-- 1.0 版か 2.0 版の CSD の SD か、バイトの番地の MMC である。 -/
def Supported (type : CardType) (csd : BitVec 128) : Prop := (type.isSd = true ∧ csdField csd 126 2 ≤ 1) ∨ type = .mmc

/-- 容量が 32 ビットに収まり、512 バイトより小さいブロックに分かれていない。 -/
def Decodes (type : CardType) (csd : BitVec 128) : Prop :=
  if IsVer2 type csd then csdField csd 48 22 ≠ 2 ^ 22 - 1 else 9 ≤ csdField csd 80 4 ∨ bytesVer1 csd < 512

/-- 範囲は `n` 個のブロックの中にある。 -/
def InRange (n : Nat) (blkno blkcnt : BitVec 32) : Prop := blkno.toNat < n ∧ blkno.toNat + blkcnt.toNat ≤ n

/-- 設定した個数。 -/
def Xfer.count (x : Xfer) : Nat := (x.blatr >>> 16).toNat

/-- 設定による、データの終わりの番地。 -/
def Xfer.dataEnd (x : Xfer) : Nat :=
  x.dmaSysAdd.toNat + (x.blatr &&& 0x1fff).toNat * if x.mixCtrl &&& multiBlock = multiBlock then x.count else 1

/-- 読み出しの命令である。 -/
def IsRead (cmd : Nat) : Prop := cmd = mmcReadSingleBlock ∨ cmd = mmcReadMultipleBlock

/-- 成功した `MMC_SEND_STATUS` の応答が、`MMC_TRAN` を示す。 -/
def ObservesTran (x : Sent) : Prop := x.cmd = mmcSendStatus ∧ x.answer.ok = true ∧ x.answer.rsp &&& 0x1e00 = mmcTran

/-- `c` から `t` までに送った命令は、`x` と、その後の `polls` である。 -/
structure Issued (c t : Card) (buf blkno blkcnt : BitVec 32) (x : Xfer) (answer : Answer) (polls : List Sent) : Prop where
  xfers : t.xfers = c.xfers ++ [x]
  log : t.sdmmc.log = c.sdmmc.log ++ ⟨x.cmd, x.arg, answer⟩ :: polls
  read : IsRead x.cmd
  single : ∀ y ∈ polls, ¬ IsRead y.cmd
  count : x.count = blkcnt.toNat
  arg : x.arg.toNat = if c.sdmmc.type.byteAddressed then 512 * blkno.toNat else blkno.toNat
  dataEnd : x.dataEnd = buf.toNat + 512 * blkcnt.toNat
  observed : ∃ y ∈ polls, ObservesTran y

/-- 範囲の検査を通り、命令を送るか、何もせずに成功する。 -/
def Accepts (answers : Nat → Answer) (fuel : Nat) (c : Card) (buf blkno blkcnt : BitVec 32) : Prop :=
  Meets (sdmmcRead answers fuel buf blkno blkcnt) c (fun _ _ => True) (fun _ t => t.xfers ≠ c.xfers)

/-- `n` 個のブロックのカードの、正しい読み出し。 -/
structure Serves (answers : Nat → Answer) (c : Card) (n : Nat) (buf blkno blkcnt : BitVec 32) : Prop where
  accepts : ∀ fuel, Accepts answers fuel c buf blkno blkcnt ↔ InRange n blkno blkcnt
  reads : ∀ fuel t, sdmmcRead answers fuel buf blkno blkcnt c = .ok true t → 0 < blkcnt.toNat →
    ∃ x answer polls, Issued c t buf blkno blkcnt x answer polls

/-- 読み出しの命令が成功し、初めから `MMC_TRAN` であるか、状態を尋ねるうちに `MMC_TRAN` が返る。 -/
def Completes (answers : Nat → Answer) (s : Sdmmc) : Prop :=
  (answers s.log.length).ok = true ∧
    (s.state = mmcTran ∨
      ∃ k, (∀ j ≤ k, (answers (s.log.length + 1 + j)).ok = true) ∧ (answers (s.log.length + 1 + k)).rsp &&& 0x1e00 = mmcTran)

/-- 個数が 16 ビットに収まり、バイトの番地が 32 ビットに収まり、覚えている状態が `MMC_TRAN` でない。 -/
def Fits (s : Sdmmc) (blkno blkcnt : BitVec 32) : Prop :=
  blkcnt.toNat < 2 ^ 16 ∧ (s.type.byteAddressed = true → blkno.toNat < 2 ^ 23) ∧ s.state ≠ mmcTran

end Imx6Bsp.Boot.Sd
