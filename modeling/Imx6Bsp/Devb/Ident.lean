import Imx6Bsp.Devb.Card

/-!
# カードの識別（`devb/mmcsd/mmcsd.c`）

`mmc_card_ident()` は割り込みのたびに一段ずつ進む。`csd` と `cid` の共用体は、SD と MMC の欄を別々に持つ。読むのは、そのカードの版の
欄だけである。クロックとバス幅の設定、ログは写さない。
-/

namespace Imx6Bsp.Devb

/-! ## データ -/

/-- `MMCSD_IDENT_*`。 -/
inductive Stage
  | none
  | start
  | goIdle
  | cardVersion
  | sdPowerup
  | mmcPowerup
  | allSendCid
  | setAddress
  | sendCid
  | sendCsd
  | sendScr
  | parseScr
  | checkMode
  | switchMode
  | selDesCard
  | checkSts
  | setBwApp
  | setBw
  | extCsd
  | mmcSwitchModeHs
  | mmcSwitchModeBuswidth
  | final
deriving DecidableEq, Repr

/-- `version`。`mmc1` 以外は `MMC_VERSION_1` より小さい。 -/
inductive Version
  | unknown
  | sd1
  | sd2
  | mmc1
deriving DecidableEq, Repr

/-- ホストの能力と、起動時の指定。 -/
structure Conf where
  hs : Bool := true
  bw4 : Bool := true
  bw8 : Bool := false
  low : Bool := false
  high : Bool := true
  forceBw : Option Nat := none
  nohs : Bool := false
  hasPio : Bool := true
  pwrDelay : Nat := 10
  pwrRetry : Nat := 3

/-- 一回の呼び出しで外から来るもの。割り込みの三つのビット、応答、`pio_done()` の読んだ塊と、呼び先の成否である。 -/
structure Event where
  command : Bool := true
  error : Bool := false
  cmdTo : Bool := false
  resp : Resp := {}
  pio : Option (Nat → UInt8) := none
  detect : Bool := true
  powerup : Bool := true
  sent : Bool := true
  setupPio : Bool := true
  setBlksz : Bool := true
  ready : Bool := true

/-- `SIM_MMC_EXT` のうち識別に関わる欄。`count` は `mmc_ident_start()` の静的な変数、`cmd` は最後に送った命令と引数、`ocr` は電源が入ったと
答えた応答の記録である。 -/
structure Ident where
  ident : Stage := .none
  istage : Nat := 0
  version : Version := .unknown
  hs : Bool := false
  hc : Bool := false
  wp : Bool := false
  trim : Bool := false
  ppl : Bool := false
  rca : Nat := 0
  nluns : Nat := 0
  pactive : Nat := 0
  partitions : Nat → Partition := fun _ => {}
  rawCid : Resp := {}
  rawCsd : Resp := {}
  sdCid : SdCid := {}
  mmcCid : MmcCid := {}
  sdCsd : SdCsd := {}
  mmcCsd : MmcCsd := {}
  blksize : Nat := mmcDfltBlksize
  count : Nat := 0
  cmd : Option (Nat × Nat) := none
  ocr : BitVec 32 := 0

/-- `mmc_sendcmd()`。 -/
def Ident.sendcmd (d : Ident) (e : Event) (opcode argument : Nat) : Bool × Ident := (e.sent, { d with cmd := some (opcode, argument) })

/-! ## 電源 -/

/-- `mmc_ident_start()` の前半。`count` が 0 のときだけ、前のカードの欄を消す。 -/
def Ident.clearOld (d : Ident) : Ident :=
  if d.count = 0 then
    { d with wp := false, hs := false, hc := false, ppl := true, sdCid := {}, mmcCid := {}, sdCsd := {}, mmcCsd := {} }
  else d

/-- `mmc_ident_start()` の後半。 -/
def Ident.powerCycle (c : Conf) (d : Ident) (e : Event) : Bool × Ident :=
  if ¬e.detect then (false, d)
  else if ¬e.powerup then (false, d)
  else if d.count + 1 > c.pwrRetry then { d with ident := .goIdle, count := 0 }.sendcmd e 0 0
  else { d with count := d.count + 1 }.sendcmd e 0 0

/-- `mmc_ident_start()`。 -/
def Ident.start (c : Conf) (d : Ident) (e : Event) : Bool × Ident := d.clearOld.powerCycle c e

/-- `mmc_ident_go_idle()`。 -/
def Ident.goIdle (d : Ident) (e : Event) : Bool × Ident :=
  if e.error then (false, d)
  else if e.command then { d with ident := .cardVersion, istage := 0 }.sendcmd e 8 0x1AA
  else (true, d)

/-- 電源が入ったと答えた後。 -/
def Ident.powered (d : Ident) (e : Event) (version : Version) : Bool × Ident :=
  { d with ident := .allSendCid, istage := 0, version, ocr := e.resp.r0 }.sendcmd e 2 0

/-- 応答の `0x40000000` が立っていれば `MMC_EFLAG_HC` を立てる。 -/
def Ident.noteHc (d : Ident) (e : Event) : Ident := if e.resp.r0.getLsbD 30 then { d with hc := true } else d

/-- `mmc_ident_mmc_card_powerup()`。 -/
def Ident.mmcCardPowerup (c : Conf) (d : Ident) (e : Event) : Bool × Ident :=
  if c.pwrDelay * d.istage > 3000 ∨ d.istage > 3000 then (false, d)
  else
    let d := { d with istage := d.istage + 1 }
    if d.istage > 1 then
      if e.error then (false, d)
      else
        let d := d.noteHc e
        if e.resp.r0.getLsbD 31 then d.powered e .mmc1
        else d.sendcmd e 1 (0x40000000 + (if c.low then 0x80 else 0) + (if c.high then 0x00FF8000 else 0))
    else d.sendcmd e 1 0

/-- `mmc_ident_sd_card_powerup()` のうち、`istage` を 3 で割った余りで分かれる部分。 -/
def Ident.sdStage (d : Ident) (e : Event) (ocr : Nat) : Bool × Ident :=
  if d.istage % 3 = 1 then
    if e.error then (false, d)
    else { d with istage := d.istage + 1 }.sendcmd e 41 (if d.version = Version.sd2 then ocr ||| 2 ^ 30 else ocr)
  else if d.istage % 3 = 2 then
    if e.error then (false, d)
    else
      let d := d.noteHc e
      if e.resp.r0.getLsbD 31 then d.powered e d.version
      else { d with istage := d.istage + 1 }.sendcmd e 55 0
  else (false, d)

/-- `mmc_ident_sd_card_powerup()`。 -/
def Ident.sdCardPowerup (d : Ident) (e : Event) : Bool × Ident :=
  if d.istage > 1000 then (false, d)
  else if d.istage = 0 then { d with istage := 1 }.sendcmd e 55 0
  else
    let d := if d.istage % 3 = 0 then { d with istage := d.istage + 1 } else d
    if d.istage = 1 then
      if d.version = .sd1 ∧ e.cmdTo then { d with ident := .mmcPowerup, istage := 0, ppl := false }.sendcmd e 0 0
      else if e.error then (false, d)
      else d.sdStage e 0
    else d.sdStage e 0x00ff8000

/-- `mmc_ident_card_version()`。 -/
def Ident.cardVersion (d : Ident) (e : Event) : Bool × Ident :=
  if e.cmdTo then { d with version := .sd1, ident := .sdPowerup, istage := 0 }.sdCardPowerup e
  else if ¬e.error ∧ bits e.resp.r0 0 13 = 0x1AA then { d with version := .sd2, ident := .sdPowerup, istage := 0 }.sdCardPowerup e
  else (false, d)

/-! ## 番号、CID、CSD -/

/-- `mmc_ident_all_send_cid()`。 -/
def Ident.allSendCid (d : Ident) (e : Event) : Bool × Ident :=
  if e.error then (false, d)
  else
    let rca := if d.version = .mmc1 then 2 else 0
    { d with ident := .setAddress, rca }.sendcmd e 3 (rca * 2 ^ 16)

/-- `mmc_ident_set_address()`。 -/
def Ident.setAddress (d : Ident) (e : Event) : Bool × Ident :=
  if e.error then (false, d)
  else
    let rca := if d.version = .mmc1 then d.rca else bits e.resp.r0 16 16
    { d with ident := .sendCid, ppl := true, rca }.sendcmd e 10 (rca * 2 ^ 16)

/-- `mmc_ident_send_cid()`。 -/
def Ident.sendCid (d : Ident) (e : Event) : Bool × Ident :=
  if e.error then (false, d) else { d with ident := .sendCsd, rawCid := e.resp }.sendcmd e 9 (d.rca * 2 ^ 16)

def Ident.setUser (d : Ident) (nlba : Nat) : Nat → Partition := Function.update d.partitions 0 { d.partitions 0 with nlba }

/-- `mmc_parse_mmc_csd()` と `mmc_parse_mmc_cid()`。 -/
def Ident.parseMmc (d : Ident) (r : Resp) : Ident :=
  let csd := parseMmcCsd d.mmcCsd r
  { d with
    rawCsd := r, mmcCsd := csd, mmcCid := parseMmcCid d.mmcCid csd.mmcProt d.rawCid
    wp := d.wp || csd.permWriteProtect + csd.tmpWriteProtect ≠ 0
    blksize := csd.capacity.2, partitions := d.setUser csd.capacity.1 }

/-- `mmc_parse_sd_csd()` と `mmc_parse_sd_cid()`。 -/
def Ident.parseSd (d : Ident) (r : Resp) : Ident :=
  let csd := parseSdCsd r
  { d with
    rawCsd := r, sdCsd := csd, sdCid := parseSdCid d.rawCid
    wp := d.wp || csd.permWriteProtect + csd.tmpWriteProtect ≠ 0
    partitions := d.setUser csd.capacity }

/-- `mmc_ident_send_csd()`。 -/
def Ident.sendCsd (d : Ident) (e : Event) : Bool × Ident :=
  if e.error then (false, d)
  else
    let d := if d.version = .mmc1 then d.parseMmc e.resp else d.parseSd e.resp
    { d with ident := .selDesCard }.sendcmd e 7 (d.rca * 2 ^ 16)

/-- `mmc_ident_sel_des_card()`。 -/
def Ident.selDesCard (d : Ident) (e : Event) : Bool × Ident :=
  if e.error then (false, d) else { d with ident := .checkSts }.sendcmd e 13 (d.rca * 2 ^ 16)

/-! ## 動作の設定 -/

/-- `mmc_ident_sd_clock()` と `mmc_ident_mmc_clock()`。 -/
def Ident.clock (d : Ident) (e : Event) : Bool × Ident := { d with ident := .final }.sendcmd e 16 mmcDfltBlksize

/-- `mmc_ident_status_done()`。 -/
def Ident.statusDone (c : Conf) (d : Ident) (e : Event) : Bool × Ident :=
  if e.error then (false, d)
  else if d.version = .mmc1 then
    if 4 ≤ d.mmcCsd.mmcProt then
      if ¬e.setupPio then (false, d) else { d with ident := .extCsd }.sendcmd e 8 0
    else d.clock e
  else
    let busWidth := c.forceBw.getD (if c.bw4 then 4 else 1)
    if busWidth = 4 then { d with ident := .setBwApp }.sendcmd e 55 (d.rca * 2 ^ 16)
    else { d with ident := .sendScr }.sendcmd e 55 (d.rca * 2 ^ 16)

/-- `mmc_ident_setbw_app()`。 -/
def Ident.setBwApp (d : Ident) (e : Event) : Bool × Ident :=
  if e.error then (false, d) else { d with ident := .setBw }.sendcmd e 6 2

/-- `mmc_ident_setbw()`。 -/
def Ident.setBw (c : Conf) (d : Ident) (e : Event) : Bool × Ident :=
  if e.error then (false, d)
  else if c.nohs ∨ ¬c.hasPio ∨ ¬e.setBlksz then d.clock e
  else { d with ident := .sendScr }.sendcmd e 55 (d.rca * 2 ^ 16)

/-- `mmc_ident_send_scr()`。 -/
def Ident.sendScr (d : Ident) (e : Event) : Bool × Ident :=
  if e.error then (false, d)
  else if ¬e.setupPio then (false, d)
  else { d with ident := .parseScr }.sendcmd e 51 0

/-- `mmc_ident_parse_scr()`。 -/
def Ident.parseScr (d : Ident) (e : Event) : Bool × Ident :=
  if e.error then (false, d)
  else
    match e.pio with
    | none => (false, d)
    | some scr =>
        if (scr 0).toNat % 16 < 1 ∨ ¬e.setBlksz then d.clock e
        else if ¬e.setupPio then d.clock e
        else { d with ident := .checkMode }.sendcmd e 6 0x00ffff01

/-- `mmc_ident_check_mode()`。 -/
def Ident.checkMode (c : Conf) (d : Ident) (e : Event) : Bool × Ident :=
  if e.error then d.clock e
  else
    match e.pio with
    | none => (false, d)
    | some tmp =>
        if ¬(tmp 13).toNat.testBit 1 then d.clock e
        else if ¬d.sdCsd.ccc.testBit 10 then d.clock e
        else if ¬c.hs then d.clock e
        else if ¬e.setupPio then (false, d)
        else { d with ident := .switchMode }.sendcmd e 6 0x80ffff01

/-- `mmc_ident_switch_mode()`。 -/
def Ident.switchMode (d : Ident) (e : Event) : Bool × Ident :=
  if e.error then (false, d)
  else
    match e.pio with
    | none => (false, d)
    | some tmp => (if (tmp 16).toNat % 16 = 1 then { d with hs := true } else d).clock e

/-! ## 拡張 CSD -/

/-- `mmcsd_mmc_config_buswidth()`。 -/
def Ident.configBuswidth (c : Conf) (d : Ident) (e : Event) : Bool × Ident :=
  let bit := match c.forceBw with
    | some w => if w = 8 then 2 else if w = 4 then 1 else 0
    | none => if c.bw8 then 2 else if c.bw4 then 1 else 0
  let d := { d with ident := .mmcSwitchModeBuswidth }
  if ¬e.ready then (false, d) else d.sendcmd e 6 (3 * 2 ^ 24 + 183 * 2 ^ 16 + bit * 2 ^ 8 + 1)

/-- 高速でない設定か、バス幅の設定に進む。 -/
def Ident.widen (c : Conf) (d : Ident) (e : Event) : Bool × Ident :=
  if 4 ≤ d.mmcCsd.mmcProt ∧ (c.bw8 ∨ c.bw4) then d.configBuswidth c e else d.clock e

/-- 一つの汎用区画。空の区画は、欄に手を付けない。 -/
def Ident.addGp (x : ExtCsd) (d : Ident) (pidx : Nat) : Ident :=
  if gpBlocks d.mmcCsd x pidx ≠ 0 then
    { d with
      nluns := d.nluns + 1
      partitions := Function.update d.partitions (pidx + 1) ⟨x.byte 179 / 8 * 8 ||| (4 + pidx), gpBlocks d.mmcCsd x pidx⟩ }
  else d

/-- `mmc_partition_config()`。返り値は使われない。 -/
def Ident.partitionConfig (d : Ident) (x : ExtCsd) : Ident :=
  let pconf := x.byte 179
  let d := { d with
    pactive := pconf % 8
    partitions := Function.update d.partitions 0 { d.partitions 0 with config := pconf / 8 * 8 } }
  if x.byte 160 % 2 = 1 ∧ x.byte 155 % 2 = 1 then (List.range mmcGpPartMax).foldl (Ident.addGp x) d else d

/-- `EXT_CSD_REV` が 2 より小さいとき、`sectors` は前の値のままである。 -/
def ExtCsd.sectors (x : ExtCsd) (old : Nat) : Nat := if 2 ≤ x.byte 192 then x.secCnt else old

/-- 拡張 CSD の欄と容量。 -/
def Ident.takeExtCsd (d : Ident) (x : ExtCsd) : Ident :=
  let ext : MmcExtCsd :=
    { hsMaxDtr := if x.byte 196 = 1 then 26000000 else 52000000
      sectors := x.sectors d.mmcCsd.extCsd.sectors
      eraseGrpDef := x.byte 175, hcEraseGroupSize := x.byte 224, hcWpGrpSize := x.byte 221, userWp := x.byte 171 }
  { d with
    trim := d.trim || 2 ≤ x.byte 192 && (x.byte 231).testBit 4
    mmcCsd := { d.mmcCsd with extCsd := ext }
    partitions := if 4 ≤ d.mmcCsd.mmcProt ∧ ext.sectors ≠ 0 then d.setUser ext.sectors else d.partitions }

/-- `mmc_ident_read_ext_csd()`。`hs_max_dtr` は 0 にならない。 -/
def Ident.readExtCsd (c : Conf) (d : Ident) (e : Event) : Bool × Ident :=
  if e.error then (false, d)
  else
    match e.pio with
    | none => (false, d)
    | some x =>
        let d := (d.takeExtCsd x).partitionConfig x
        if c.hs then { d with ident := .mmcSwitchModeHs }.sendcmd e 6 (3 * 2 ^ 24 + 185 * 2 ^ 16 + 2 ^ 8 + 1) else d.widen c e

/-- `mmc_ident_switch_mode_hs()`。 -/
def Ident.switchModeHs (c : Conf) (d : Ident) (e : Event) : Bool × Ident :=
  if e.error then (false, d) else { d with hs := true }.widen c e

/-- `mmc_ident_switch_buswidth()`。 -/
def Ident.switchBuswidth (d : Ident) (e : Event) : Bool × Ident :=
  if e.error then (false, d)
  else if ¬e.ready then (false, { d with ident := .final })
  else d.clock e

/-! ## 一段 -/

/-- `mmc_card_ident()`。 -/
def Ident.cardIdent (c : Conf) (d : Ident) (e : Event) : Bool × Ident :=
  match d.ident with
  | .none => (false, d)
  | .start => d.start c e
  | .goIdle => d.goIdle e
  | .cardVersion => d.cardVersion e
  | .sdPowerup => d.sdCardPowerup e
  | .mmcPowerup => d.mmcCardPowerup c e
  | .allSendCid => d.allSendCid e
  | .setAddress => d.setAddress e
  | .sendCid => d.sendCid e
  | .sendCsd => d.sendCsd e
  | .sendScr => d.sendScr e
  | .parseScr => d.parseScr e
  | .checkMode => d.checkMode c e
  | .switchMode => d.switchMode e
  | .selDesCard => d.selDesCard e
  | .checkSts => d.statusDone c e
  | .setBwApp => d.setBwApp e
  | .setBw => d.setBw c e
  | .extCsd => d.readExtCsd c e
  | .mmcSwitchModeHs => d.switchModeHs c e
  | .mmcSwitchModeBuswidth => d.switchBuswidth e
  | .final => (¬e.error, { d with ident := .none })

/-! ## 挿入の履歴 -/

/-- 識別で決まる属性。 -/
structure Attrs where
  hc : Bool
  hs : Bool
  trim : Bool
  blksize : Nat
  rca : Nat
  sdCsd : SdCsd
  mmcCsd : MmcCsd
  sdCid : SdCid
  mmcCid : MmcCid
  nlba : List Nat
  nluns : Nat

def Ident.attrs (d : Ident) : Attrs :=
  ⟨d.hc, d.hs, d.trim, d.blksize, d.rca, d.sdCsd, d.mmcCsd, d.sdCid, d.mmcCid,
    (List.range mmcPartitionMax).map fun i => (d.partitions i).nlba, d.nluns⟩

/-- 識別が終わったときの記録。`fresh` は、初期化したばかりのドライバが同じ応答を受けた場合の属性である。 -/
structure Identified where
  attrs : Attrs
  fresh : Attrs
  ocr : BitVec 32

/-- `busy` は `state` が `MMCSD_STATE_IDENT` であること、`fresh` は初期化したばかりのドライバを並べて走らせたものである。 -/
structure Slot where
  d : Ident := {}
  busy : Bool := false
  ready : Bool := false
  fresh : Ident := {}
  log : List Identified := []

/-- `MMCSD_PULSE_CARD_INSERTION`、`MMCSD_PULSE_CARD_REMOVAL`、CCB を返すときに `state` を戻すこと、カードの割り込みでない割り込み。 -/
inductive SlotStep
  | insertion (e : Event)
  | removal
  | post
  | interrupt (e : Event)

/-- `mmc_ident_irq()`。 -/
def Slot.identIrq (c : Conf) (s : Slot) (e : Event) : Slot :=
  let r := s.d.cardIdent c e
  let s := { s with d := r.2, fresh := (s.fresh.cardIdent c e).2 }
  if r.1 then
    if r.2.ident = .none then
      { s with busy := false, ready := true, log := s.log ++ [⟨s.d.attrs, s.fresh.attrs, s.d.ocr⟩] }
    else s
  else { s with busy := false }

def Slot.step (c : Conf) (s : Slot) : SlotStep → Except Unit Slot
  | .insertion e =>
      let r := { s.d with ident := .start }.cardIdent c e
      .ok { s with d := r.2, busy := r.1 || s.busy, fresh := ({ ident := .start } : Ident).cardIdent c e |>.2 }
  | .removal => .ok { s with busy := false, ready := false }
  | .post => .ok { s with busy := false }
  | .interrupt e => if s.busy then .ok (s.identIrq c e) else .ok s

/-- 応答 `e` が、電源が入ったことを答えるものである。 -/
def Ident.ReportsPower (d : Ident) (e : Event) : Prop :=
  (d.ident = .sdPowerup ∧ d.istage % 3 = 2 ∨ d.ident = .mmcPowerup ∧ 0 < d.istage) ∧ e.resp.r0.getLsbD 31 = true

/-- 識別を始めるとき、消されない欄が初期値である。 -/
structure Ident.Clean (d : Ident) : Prop where
  count : d.count = 0
  trim : d.trim = false
  blksize : d.blksize = mmcDfltBlksize
  nluns : d.nluns = 0
  nlba : ∀ i < mmcPartitionMax, i ≠ 0 → (d.partitions i).nlba = 0

/-- 挿入のとき、消されない欄が初期値であり、容量のビットは電源が入ったと答える応答でだけ立つ。 -/
def Slot.Tame (s : Slot) : SlotStep → Prop
  | .insertion _ => s.d.Clean
  | .removal => True
  | .post => True
  | .interrupt e => s.busy = true → s.d.ReportsPower e → s.d.hc = true → e.resp.r0.getLsbD 30 = true

instance Ident.decidableReportsPower (d : Ident) (e : Event) : Decidable (d.ReportsPower e) :=
  inferInstanceAs (Decidable ((_ ∧ _ ∨ _ ∧ _) ∧ _))

theorem Ident.clean_iff (d : Ident) :
    d.Clean ↔ d.count = 0 ∧ d.trim = false ∧ d.blksize = mmcDfltBlksize ∧ d.nluns = 0 ∧
      ∀ i < mmcPartitionMax, i ≠ 0 → (d.partitions i).nlba = 0 :=
  ⟨fun h => ⟨h.count, h.trim, h.blksize, h.nluns, h.nlba⟩, fun h => ⟨h.1, h.2.1, h.2.2.1, h.2.2.2.1, h.2.2.2.2⟩⟩

instance Ident.decidableClean (d : Ident) : Decidable d.Clean := decidable_of_iff' _ d.clean_iff

instance Slot.decidableTame (s : Slot) (i : SlotStep) : Decidable (s.Tame i) :=
  match i with
  | .insertion _ => inferInstanceAs (Decidable s.d.Clean)
  | .removal => .isTrue trivial
  | .post => .isTrue trivial
  | .interrupt e => inferInstanceAs (Decidable (s.busy = true → s.d.ReportsPower e → s.d.hc = true → e.resp.r0.getLsbD 30 = true))

/-- どの識別の結果も、初期化したばかりのドライバの結果と同じで、`HC` は電源が入ったと答えた応答のビットである。 -/
def Slot.Sound (s : Slot) : Prop :=
  ∀ x ∈ s.log, x.attrs = x.fresh ∧ (x.attrs.hc = true ↔ x.ocr.getLsbD 30 = true)

/-! ## 識別の割り込みの列（`devb/mmcsd/mmcsd.c`）

`MMCSD_IDENT_START` から、割り込みの列を `mmc_card_ident()` に渡す。失敗するか、`MMCSD_IDENT_NONE` に戻るまで続ける。 -/

/-- 一回の割り込み。`cmd` は、その割り込みで送った命令となる。 -/
def Ident.interrupt (c : Conf) (d : Ident) (e : Event) : Bool × Ident := { d with cmd := none }.cardIdent c e

/-- 割り込みを受けた段、その割り込みの誤りのビット、そこで送った命令と引数。 -/
structure IdentTurn where
  stage : Stage
  error : Bool
  cmd : Option (Nat × Nat)

/-- `result` は、終わったときの成否である。 -/
structure IdentRun where
  d : Ident
  result : Option Bool := none
  log : List IdentTurn := []

/-- `mmc_ident_irq()` の、識別に関わる部分。 -/
def IdentRun.step (c : Conf) (r : IdentRun) (e : Event) : IdentRun :=
  if r.result.isSome then r
  else
    let x := r.d.interrupt c e
    { d := x.2
      result := if x.1 then (if x.2.ident = .none then some true else none) else some false
      log := r.log ++ [⟨r.d.ident, e.error, x.2.cmd⟩] }

def IdentRun.run (c : Conf) (d : Ident) (es : List Event) : IdentRun := es.foldl (IdentRun.step c) { d }

/-- `MMC_APP_CMD` である。 -/
def IsApp (cmd : Option (Nat × Nat)) : Prop := ∃ a, cmd = some (55, a)

/-- `SD_SEND_OP_COND`、`SD_SEND_SCR`、バス幅のアプリケーション命令。 -/
def Stage.NeedsApp (s : Stage) (opcode : Nat) : Prop := opcode = 41 ∨ opcode = 51 ∨ (opcode = 6 ∧ s = .setBwApp)

/-- アプリケーション命令のすぐ前の命令は `MMC_APP_CMD` で、誤りなく終わっている。 -/
def AppOrdered (log : List IdentTurn) : Prop :=
  ∀ i t opcode a, log[i]? = some t → t.cmd = some (opcode, a) → t.stage.NeedsApp opcode →
    t.error = false ∧ ∃ j u, i = j + 1 ∧ log[j]? = some u ∧ IsApp u.cmd

/-- 割り込みの数の上限。 -/
def identLimit (c : Conf) : Nat := 4027 + c.pwrRetry

end Imx6Bsp.Devb
