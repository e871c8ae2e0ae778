import Imx6Bsp.Lib.Bytes
import Imx6Bsp.Startup.Basic

/-!
# シリアルからのイメージの受信（`image_download_ser.c`）

これから受け取るバイトを列とする。`none` は、列を読み尽くして `ser_getchar()` が次のバイトを待ち続けることを表す。`dst` は
32 ビットのポインタで、末尾の次は 0 に戻る。
-/

namespace Imx6Bsp.Boot

open Imx6Bsp.Lib Imx6Bsp.Startup

def startCmd : UInt8 := 0x80

def dataCmd : UInt8 := 0x81

def goCmd : UInt8 := 0x82

def abortCmd : UInt8 := 0x88

def abortSeq : UInt8 := 2

def abortProtocol : UInt8 := 3

/-- `data_record_t`。`DATA_RECORD_HEADER` は 8 である。 -/
structure DataRecord where
  cmd : UInt8
  seq : UInt8
  cksum : UInt8
  nbytes : UInt8
  /-- `daddr` の 4 バイト。 -/
  daddr : List UInt8
deriving DecidableEq, Repr

/-- `image_download_ser()` の戻り値と、戻ったときの記憶域、送ったバイト、まだ読んでいない入力。 -/
structure Downloaded where
  status : Nat
  mem : Mem
  sent : List UInt8
  rest : List UInt8

/-- `download_abort()` の送るバイト。 -/
def downloadAbort (abort : UInt8) : List UInt8 := [abortCmd, abort]

/-- 開始の印を待つ繰り返し。 -/
def waitStart : List UInt8 → Option (List UInt8)
  | [] => none
  | c :: input => if c ≠ startCmd then waitStart input else some input

/-- `cmd` に続く 7 バイトを読む。 -/
def readHeader (cmd : UInt8) : List UInt8 → Option (DataRecord × List UInt8)
  | seq :: cksum :: nbytes :: d0 :: d1 :: d2 :: d3 :: input => some (⟨cmd, seq, cksum, nbytes, [d0, d1, d2, d3]⟩, input)
  | _ => none

/-- 残りの `n` バイトを `dst` から書く繰り返し。 -/
def readData : Nat → Mem → Nat → List UInt8 → Option (Mem × Nat × List UInt8)
  | 0, mem, dst, input => some (mem, dst, input)
  | _ + 1, _, _, [] => none
  | n + 1, mem, dst, c :: input => readData n (mem.writeLE dst 1 c.toNat) (wrap32 (dst + 1)) input

theorem readHeader_length {cmd : UInt8} {input rest : List UInt8} {record : DataRecord}
    (h : readHeader cmd input = some (record, rest)) : rest.length < input.length := by
  unfold readHeader at h
  split at h
  · cases h
    simp only [List.length_cons]
    omega
  · cases h

theorem readData_length {n : Nat} {mem mem' : Mem} {dst dst' : Nat} {input rest : List UInt8}
    (h : readData n mem dst input = some (mem', dst', rest)) : rest.length ≤ input.length := by
  induction n, mem, dst, input using readData.induct with
  | case1 mem dst input =>
      cases h
      exact le_rfl
  | case2 => cases h
  | case3 n mem dst c input ih => exact (ih h).trans (Nat.le_succ _)

/-- 記録を順に受け取る繰り返し。 -/
def downloadLoop (mem : Mem) (dst seq : Nat) (input : List UInt8) : Option Downloaded :=
  match input with
  | [] => none
  | cmd :: input =>
      if cmd ≠ dataCmd then
        if cmd = goCmd then some ⟨0, mem, [], input⟩ else some ⟨1, mem, downloadAbort abortProtocol, input⟩
      else
        match _hheader : readHeader cmd input with
        | none => none
        | some (record, input') =>
            if seq ≠ record.seq.toNat then some ⟨1, mem, downloadAbort abortSeq, input'⟩
            else
              match _hdata : readData (record.nbytes.toNat + 1) mem dst input' with
              | none => none
              | some (mem', dst', input'') => downloadLoop mem' dst' ((seq + 1) &&& 0x7f) input''
termination_by input.length
decreasing_by
  have := readHeader_length _hheader
  have := readData_length _hdata
  simp only [List.length_cons]
  omega

/-- `image_download_ser()`。 -/
def imageDownloadSer (mem : Mem) (dstAddress : Nat) (input : List UInt8) : Option Downloaded :=
  match waitStart input with
  | none => none
  | some input => downloadLoop mem dstAddress 0 input

end Imx6Bsp.Boot
