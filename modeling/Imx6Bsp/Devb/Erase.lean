import Imx6Bsp.Devb.Request

/-!
# 消去と書き込み保護（`devb/mmcsd/mmcsd.c`、`sim_mmc.c`）

`mmc_write_same()` は三つの命令で消去し、`mmc_wp()` はグループごとに一つの命令を送る。`lba` と `nlba` は 64 ビットで届き、命令の引数は 32 ビットである。
`slba` と `extended_csd` は、どの関数も書かないので、どのような値でもよいとする。
-/

namespace Imx6Bsp.Devb

/-! ## 命令 -/

/-- 送った命令。`status` は `mmc_wait_command()` の返り値である。 -/
structure SentCmd where
  opcode : Nat
  argument : BitVec 32
  status : Int
deriving DecidableEq, Repr

/-- 何番目かの命令の、`mmc_sendcmd()` と `mmc_wait_command()` の返り値。 -/
def Replies := Nat → Int × Int

/-- `mmc_sendcmd()` と `mmc_wait_command()`。 -/
def sendWait (reply : Replies) (log : List SentCmd) (opcode : Nat) (argument : BitVec 32) : Int × List SentCmd :=
  let r := reply log.length
  if r.1 = 0 then (r.2, log ++ [⟨opcode, argument, r.2⟩]) else (r.1, log)

/-! ## 消去 -/

/-- `mmc_erase()`。`nlba` は `int` である。 -/
def mmcErase (reply : Replies) (flgs : BitVec 32) (lba : BitVec 64) (nlba : BitVec 32) : Int × List SentCmd :=
  let start := sendWait reply [] 35 (lba.setWidth 32)
  if start.1 ≠ 0 then start
  else
    let stop := sendWait reply start.2 36 ((lba + nlba.signExtend 64).setWidth 32)
    if stop.1 ≠ 0 then stop else sendWait reply stop.2 38 flgs

/-- `WRITE SAME(16)` の要求。`unmap` は `WS_OPT_UNMAP` である。 -/
structure WriteSame where
  lun : Nat
  unmap : Bool
  lba : BitVec 64
  nlba : BitVec 32

/-- `mmc_write_same()`。 -/
def mmcWriteSame (d : Ident) (reply : Replies) (q : WriteSame) : CamStatus × List SentCmd :=
  if d.trim = false ∨ q.unmap = false then (.cmpErr, [])
  else
    let r := mmcErase reply 1 q.lba q.nlba
    (if r.1 ≠ 0 then .cmpErr else .cmp, r.2)

/-! ## 書き込み保護 -/

/-- `CAM_ALIGN`。 -/
def camAlign (val align : BitVec 32) : BitVec 32 := (val + (align - 1)) &&& ~~~(align - 1)

/-- `wp_grp_size`。`EXT_CSD_HC_WP_GRP_SIZE` は 221、`EXT_CSD_ERASE_GRP_SIZE` は 224 である。 -/
def wpGroupBlocks (csd : Nat → BitVec 8) : BitVec 64 := (csd 221).setWidth 64 * (csd 224).setWidth 64 * 0x80000 / 512

/-- `MMC_SET_WRITE_PROT` か `MMC_CLR_WRITE_PROT`。 -/
def protectOp (op : BitVec 32) : Nat := if op ≠ 0 then 28 else 29

/-- 区画の表と、拡張 CSD。 -/
structure WpUnit where
  slba : Nat → BitVec 32
  nlba : Nat → BitVec 32
  csd : Nat → BitVec 8

/-- `MMCSD_WRITE_PROTECT` と、宛先の論理ユニット。 -/
structure WpRequest where
  lun : Nat
  action : BitVec 32
  lba : BitVec 64
  nlba : BitVec 64

/-- 消去の二つの印が指す塊。印は両端を含み、バイトで数えるカードでは、塊の大きさで割る。 -/
def Designates (d : Ident) (first last : BitVec 32) (b : Nat) : Prop :=
  if d.hc then first.toNat ≤ b ∧ b ≤ last.toNat else first.toNat / d.blksize ≤ b ∧ b ≤ last.toNat / d.blksize

/-- 消去するのは、要求された論理ユニットの、要求された塊だけである。 -/
structure TrimRight (d : Ident) (reply : Replies) (q : WriteSame) : Prop where
  blocks : ∀ first last erase, (mmcWriteSame d reply q).2 = [first, last, erase] →
    ∀ p b, (p = d.pactive ∧ Designates d first.argument last.argument b) ↔
      (p = q.lun ∧ q.lba.toNat ≤ b ∧ b < q.lba.toNat + q.nlba.toNat)
  success : (mmcWriteSame d reply q).1 = .cmp →
    (mmcWriteSame d reply q).2.map (fun c => (c.opcode, c.status)) = [(35, 0), (36, 0), (38, 0)]

/-- 要求の範囲の最初の塊。 -/
def WpUnit.first (u : WpUnit) (q : WpRequest) : Nat := (u.slba q.lun).toNat + q.lba.toNat

/-- 要求の範囲の塊。 -/
def WpUnit.InRange (u : WpUnit) (q : WpRequest) (b : Nat) : Prop := u.first q ≤ b ∧ b < u.first q + q.nlba.toNat

/-- 範囲は区画に収まる。塊の番号は 32 ビットである。 -/
def WpUnit.Contains (u : WpUnit) (q : WpRequest) : Prop :=
  ∀ b, u.InRange q b → b < (u.slba q.lun).toNat + (u.nlba q.lun).toNat ∧ b < 2 ^ 32

/-- グループの塊の数。 -/
def WpUnit.group (u : WpUnit) : Nat := (wpGroupBlocks u.csd).toNat

/-- 範囲に掛かるグループの全てに、そのグループだけに、命令が終わった。 -/
structure WpUnit.Covers (u : WpUnit) (q : WpRequest) (log : List SentCmd) : Prop where
  every : ∀ b, u.InRange q b →
    ∃ c ∈ log, c.opcode = protectOp q.action ∧ c.status = 0 ∧ u.group ≠ 0 ∧ c.argument.toNat / u.group = b / u.group
  only : ∀ c ∈ log, ∃ b, u.InRange q b ∧ c.argument.toNat / u.group = b / u.group

/-- 切り上げる前の数。グループより小さい数は、グループの数とする。 -/
def WpUnit.padded (u : WpUnit) (q : WpRequest) : Nat := max q.nlba.toNat u.group + u.group - 1

/-- 受け付けた要求が正しく実行される条件。マスクによる切り上げはグループの倍数となり、半端な頭を含めて範囲を覆う。 -/
structure WpUnit.Exact (u : WpUnit) (q : WpRequest) : Prop where
  pos : 0 < q.nlba.toNat
  contains : u.Contains q
  group : 0 < u.group
  mask : u.padded q &&& (u.group - 1) = u.padded q % u.group
  head : u.first q % u.group + q.nlba.toNat ≤ u.padded q / u.group * u.group

end Imx6Bsp.Devb
