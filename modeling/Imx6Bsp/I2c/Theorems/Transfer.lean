import Imx6Bsp.I2c.Transfer

/-!
# バスの主と `restart`

失敗はどれもリセットで終わり、`restart` も `MSTA` も落ちる。送信の成功は、主のままで終わる。受信の成功では、`restart` は `stop` だけで
決まるが、最後のバイトと、その後の待ちでバスを失うことがある。だから `restart` が主であることを表すのは、そこで失わないときに限る。
-/

namespace Imx6Bsp.I2c

open Imx6Bsp.Lib

variable {bus : Bus} {s : I2cDev}

/-! ## 待ち -/

/-- リセットの後の状態で、START の記録は `s` のままである。 -/
structure Dropped (s t : I2cDev) : Prop where
  restart : t.restart = false
  msta : t.ctr.msta = false
  starts : t.starts = s.starts

theorem Dropped.of_starts {s s' t : I2cDev} (h : Dropped s t) (hs : s.starts = s'.starts) : Dropped s' t :=
  ⟨h.restart, h.msta, h.starts.trans hs⟩

theorem meets_resetFail {α : Type} {e : I2cError} {Q : α → I2cDev → Prop} {E : I2cError → I2cDev → Prop} :
    Meets (resetFail e) s Q E ↔ E e { s with ctr := { ien := true }, ial := false, restart := false } := Iff.rfl

/-- 時間が切れた待ち。 -/
theorem mx35WaitStatus_timeout {Q : Option Status → I2cDev → Prop} {E : I2cError → I2cDev → Prop}
    (h : bus.wait s.waits = .timeout) :
    Meets (mx35WaitStatus bus) s Q E ↔
      Q none { s with waits := s.waits + 1, ctr := { ien := true }, ial := false, restart := false } := by
  simp only [mx35WaitStatus, meets_bind, meets_get, meets_modify, h]
  exact Iff.rfl

/-- 割り込みで終わった待ち。 -/
theorem mx35WaitStatus_done {Q : Option Status → I2cDev → Prop} {E : I2cError → I2cDev → Prop} {icf iaas rxak lost : Bool} {data : UInt8}
    (h : bus.wait s.waits = .done icf iaas rxak lost data) :
    Meets (mx35WaitStatus bus) s Q E ↔
      Q (some { icf, iaas, ial := s.ial || lost, rxak, data })
        { s with waits := s.waits + 1, ctr := { s.ctr with msta := s.ctr.msta && !lost }, ial := s.ial || lost } := by
  simp only [mx35WaitStatus, meets_bind, meets_get, meets_modify, h]
  exact Iff.rfl

/-! ## 一つのバイト -/

/-- 受けたバイトの後の `CTRREG`。 -/
def afterByte (nack stop : Bool) (ctr : Ctr) : Ctr :=
  if nack then { ien := true, iien := true, msta := true, txak := true }
  else if stop then { ien := true, txak := true }
  else ctr

/-- 一つのバイトを受けた後の状態。 -/
structure Received (bus : Bus) (nack stop : Bool) (s t : I2cDev) : Prop where
  arrives : (bus.wait s.waits).arrives = true
  waits : t.waits = s.waits + 1
  starts : t.starts = s.starts
  acks : t.received.map Prod.snd = s.received.map Prod.snd ++ [s.ctr.txak]
  ctr : t.ctr = afterByte nack stop { s.ctr with msta := s.ctr.msta && (bus.wait s.waits).unlost }

theorem mx35Recvbyte_meets (bus : Bus) (nack stop : Bool) (s : I2cDev) :
    Meets (mx35Recvbyte bus nack stop) s (fun _ t => Received bus nack stop s t)
      (fun _ t => Dropped s t ∧ (bus.wait s.waits).arrives = false) := by
  rw [mx35Recvbyte, meets_bind]
  cases h : bus.wait s.waits with
  | timeout =>
      rw [mx35WaitStatus_timeout h]
      exact ⟨⟨rfl, rfl, rfl⟩, rfl⟩
  | done icf iaas rxak lost data =>
      rw [mx35WaitStatus_done h]
      cases icf with
      | false => exact ⟨⟨rfl, rfl, rfl⟩, rfl⟩
      | true =>
          have hctr : ∀ ctr : Ctr, afterByte nack stop { s.ctr with msta := s.ctr.msta && !lost } = ctr →
              Received bus nack stop s
                { s with waits := s.waits + 1, ctr, ial := s.ial || lost, received := s.received ++ [(data, s.ctr.txak)] } := by
            intro ctr hctr
            exact ⟨by rw [h]; rfl, rfl, rfl, List.map_append, by rw [h]; exact hctr.symm⟩
          cases nack with
          | true => exact hctr _ rfl
          | false =>
              cases stop with
              | true => exact hctr _ rfl
              | false => exact hctr _ rfl

/-- 一つのバイトを送れた後の状態。 -/
structure Sent (bus : Bus) (s t : I2cDev) : Prop where
  acked : (bus.wait s.waits).acked = true
  master : s.ctr.msta = true
  waits : t.waits = s.waits + 1
  starts : t.starts = s.starts
  received : t.received = s.received
  msta : t.ctr.msta = true

/-- 主でなければ調停を失った印があるところから送る。 -/
theorem mx35Sendbyte_meets (bus : Bus) (byte : UInt8) {s : I2cDev} (hs : s.ctr.msta = true ∨ s.ial = true) :
    Meets (mx35Sendbyte bus byte) s (fun _ t => Sent bus s t)
      (fun _ t => Dropped s t ∧ (s.ctr.msta && (bus.wait s.waits).acked) = false) := by
  rw [mx35Sendbyte, meets_bind, meets_modify, meets_bind]
  cases h : bus.wait s.waits with
  | timeout =>
      refine (mx35WaitStatus_timeout (by exact h)).mpr ?_
      exact ⟨⟨rfl, rfl, rfl⟩, Bool.and_false _⟩
  | done icf iaas rxak lost data =>
      refine (mx35WaitStatus_done (by exact h)).mpr ?_
      simp only [meets_bind, meets_get, meets_ite, meets_resetFail]
      cases hkept : s.ctr.msta && !lost with
      | false =>
          -- 主でなくなったなら、調停を失った印がある。
          have hial : (s.ial || lost) = true := by
            cases lost with
            | true => exact Bool.or_true _
            | false =>
                rw [Bool.not_false, Bool.and_true] at hkept
                rw [hs.resolve_left (by simp [hkept]), Bool.true_or]
          have hacked : (s.ctr.msta && (Wait.done icf iaas rxak lost data).acked) = false := by
            rw [Wait.acked, Bool.and_comm _ (!lost), ← Bool.and_assoc, hkept, Bool.false_and]
          exact ⟨fun _ => ⟨⟨rfl, rfl, rfl⟩, hacked⟩, fun _ => ⟨fun _ => ⟨⟨rfl, rfl, rfl⟩, hacked⟩, fun hno => absurd ⟨Bool.false_ne_true, hial⟩ hno⟩⟩
      | true =>
          obtain ⟨hmsta, hlost⟩ := Bool.and_eq_true_iff.mp hkept
          refine ⟨fun hicf => ⟨⟨rfl, rfl, rfl⟩, ?_⟩, fun hicf => ⟨fun hno => absurd rfl hno.1, fun _ => ⟨fun hno => absurd rfl hno.1,
            fun _ => ⟨fun hrxak => ⟨⟨rfl, rfl, rfl⟩, ?_⟩, fun hrxak => ⟨?_, hmsta, rfl, rfl, rfl, rfl⟩⟩⟩⟩⟩
          · simp [Wait.acked, hicf]
          · simp [Wait.acked, hrxak]
          · rw [h]
            simp_all [Wait.acked]

/-! ## START と番地 -/

/-- START の記録。 -/
def startOf (s : I2cDev) (restart : Bool) : Start := ⟨restart, s.ctr.msta, s.idle⟩

/-- START の記録を足した状態。 -/
def withStart (s : I2cDev) (restart : Bool) : I2cDev := { s with starts := s.starts ++ [startOf s restart] }

/-- START ができ、番地の全部に ACK が返る。 -/
structure Acked (bus : Bus) (bytes : Nat) (s : I2cDev) : Prop where
  busy : busyLoop bus.startIbb 5000 0 = true
  start : bus.startLost = false
  acked : ∀ i < bytes, (bus.wait (s.waits + i)).acked = true

/-- START の後に `bytes` 個のバイトを送れた状態。START で調停を失っていれば、まだ分からない。 -/
structure Sending (bus : Bus) (restart : Bool) (bytes : Nat) (s t : I2cDev) : Prop where
  busy : busyLoop bus.startIbb 5000 0 = true
  acked : ∀ i < bytes, (bus.wait (s.waits + i)).acked = true
  waits : t.waits = s.waits + bytes
  starts : t.starts = (withStart s restart).starts
  received : t.received = s.received
  msta : t.ctr.msta = !bus.startLost
  ial : bus.startLost = true → t.ial = true

theorem sendStart_meets (bus : Bus) (restart : Bool) (s : I2cDev) :
    Meets (sendStart bus restart) s (fun _ t => Sending bus restart 0 s t)
      (fun _ t => Dropped (withStart s restart) t ∧ ∀ bytes, ¬ Acked bus bytes s) := by
  simp only [sendStart, setCtr, meets_bind, meets_modify, mx35WaitBusy, meets_ite, meets_pure, meets_resetFail]
  refine ⟨fun hbusy => ⟨hbusy, fun i hi => absurd hi (Nat.not_lt_zero i), rfl, rfl, rfl, rfl, fun hlost => ?_⟩,
    fun hbusy => ⟨⟨rfl, rfl, rfl⟩, fun _ h => hbusy h.busy⟩⟩
  exact Bool.or_eq_true_iff.mpr (.inr hlost)

/-- 送っている間は、主であるか、調停を失った印がある。 -/
theorem Sending.ready {restart : Bool} {bytes : Nat} {t : I2cDev} (h : Sending bus restart bytes s t) :
    t.ctr.msta = true ∨ t.ial = true := by
  cases hlost : bus.startLost with
  | false => exact .inl (by rw [h.msta, hlost, Bool.not_false])
  | true => exact .inr (h.ial hlost)

/-- 次のバイトを送れたなら、START で調停を失っていない。 -/
theorem Sending.step {restart : Bool} {bytes : Nat} {t : I2cDev} (h : Sending bus restart bytes s t) (byte : UInt8) :
    Meets (mx35Sendbyte bus byte) t (fun _ u => bus.startLost = false ∧ Sending bus restart (bytes + 1) s u)
      (fun _ u => Dropped (withStart s restart) u ∧ ∀ k > bytes, ¬ Acked bus k s) := by
  refine (mx35Sendbyte_meets bus byte h.ready).mono (fun _ u hu => ?_) fun _ u hu => ⟨hu.1.of_starts h.starts, fun k hk hacked => ?_⟩
  · have hstart : bus.startLost = false := by simpa [h.msta] using hu.master
    refine ⟨hstart, h.busy, fun i hi => ?_, by rw [hu.waits, h.waits]; rfl, hu.starts.trans h.starts, hu.received.trans h.received,
      by rw [hu.msta, hstart]; rfl, fun hlost => absurd hlost (by simp [hstart])⟩
    rcases Nat.lt_succ_iff_lt_or_eq.mp hi with hi | rfl
    · exact h.acked i hi
    · exact h.waits ▸ hu.acked
  · have hmsta : t.ctr.msta = true := by rw [h.msta, hacked.start, Bool.not_false]
    have hwait := hu.2
    rw [hmsta, Bool.true_and, h.waits, hacked.acked bytes hk] at hwait
    exact Bool.noConfusion hwait

/-- 番地が受け取られた後の状態。 -/
structure AddressSent (bus : Bus) (bytes : Nat) (s t : I2cDev) : Prop where
  acked : Acked bus bytes s
  waits : t.waits = s.waits + bytes
  starts : t.starts = (withStart s s.restart).starts
  received : t.received = s.received
  msta : t.ctr.msta = true

theorem Sending.addressSent {bytes : Nat} {t : I2cDev} (h : Sending bus s.restart bytes s t) (hstart : bus.startLost = false) :
    AddressSent bus bytes s t :=
  ⟨⟨h.busy, hstart, h.acked⟩, h.waits, h.starts, h.received, by rw [h.msta, hstart, Bool.not_false]⟩

/-- 番地のバイトの数。 -/
def SlaveAddr.bytes (slave : SlaveAddr) (read : Bool) : Nat := if slave.ten then 2 + read.toNat else 1

theorem mx35Sendaddr7_meets (bus : Bus) (addr : Nat) (read : Bool) (s : I2cDev) :
    Meets (mx35Sendaddr7 bus addr read s.restart) s (fun _ t => AddressSent bus 1 s t)
      (fun _ t => Dropped (withStart s s.restart) t ∧ ¬ Acked bus 1 s) := by
  rw [mx35Sendaddr7, meets_bind]
  refine (sendStart_meets bus s.restart s).mono (fun _ t ht => ?_) fun _ t ht => ⟨ht.1, ht.2 1⟩
  exact (ht.step _).mono (fun _ u hu => hu.2.addressSent hu.1) fun _ u hu => ⟨hu.1, hu.2 1 (by decide)⟩

theorem mx35Sendaddr10_meets (bus : Bus) (addr : Nat) (read : Bool) (s : I2cDev) :
    Meets (mx35Sendaddr10 bus addr read s.restart) s (fun _ t => AddressSent bus (2 + read.toNat) s t)
      (fun _ t => Dropped (withStart s s.restart) t ∧ ¬ Acked bus (2 + read.toNat) s) := by
  rw [mx35Sendaddr10, meets_bind]
  refine (sendStart_meets bus s.restart s).mono (fun _ t ht => ?_) fun _ t ht => ⟨ht.1, ht.2 _⟩
  rw [meets_bind]
  refine (ht.step _).mono (fun _ u hu => ?_) fun _ u hu => ⟨hu.1, hu.2 _ (by omega)⟩
  rw [meets_bind]
  refine (hu.2.step _).mono (fun _ v hv => ?_) fun _ v hv => ⟨hv.1, hv.2 _ (by omega)⟩
  cases read with
  | false => exact hv.2.addressSent hv.1
  | true =>
      simp only [if_true, setCtr, meets_bind, meets_modify]
      have hset : Sending bus s.restart 2 s { v with ctr := { ien := true, iien := true, msta := true, rsta := true, mtx := true } } :=
        { hv.2 with msta := by rw [hv.1]; rfl }
      exact (hset.step _).mono (fun _ w hw => hw.2.addressSent hw.1) fun _ w hw => ⟨hw.1, hw.2 _ (by decide)⟩

theorem sendAddr_meets (bus : Bus) (slave : SlaveAddr) (read : Bool) (s : I2cDev) :
    Meets (sendAddr bus slave read) s (fun _ t => AddressSent bus (slave.bytes read) s t)
      (fun _ t => Dropped (withStart s s.restart) t ∧ ¬ Acked bus (slave.bytes read) s) := by
  rw [sendAddr, meets_bind, meets_get]
  cases hten : slave.ten with
  | false =>
      rw [SlaveAddr.bytes, hten]
      exact mx35Sendaddr7_meets bus slave.addr read s
  | true =>
      rw [SlaveAddr.bytes, hten]
      exact mx35Sendaddr10_meets bus slave.addr read s

/-! ## 呼び出しの初め -/

/-- バスが空いているか、リセットで空く。 -/
def Free (bus : Bus) (s : I2cDev) : Prop := s.restart = true ∨ idleLoop bus.idleIbb 1000000 0 = true ∨ bus.resetIbb = false

/-- バスを待った後の状態。 -/
structure Ready (bus : Bus) (s t : I2cDev) : Prop where
  free : Free bus s
  restart : t.restart = s.restart
  owns : Owns t
  idle : t.restart = false → t.idle = true
  waits : t.waits = s.waits
  starts : t.starts = s.starts
  received : t.received = s.received

theorem mx35WaitBusNotBusy_meets (bus : Bus) {s : I2cDev} (hs : Owns s) :
    Meets (mx35WaitBusNotBusy bus) s (fun _ t => Ready bus s t) (fun _ t => Dropped s t ∧ ¬ Free bus s) := by
  simp only [mx35WaitBusNotBusy, mx35I2cReset, meets_bind, meets_get, meets_ite, meets_pure, meets_modify, meets_throw]
  refine ⟨fun hrestart => ⟨.inl hrestart, rfl, hs, fun h => absurd hrestart (by simp [h]), rfl, rfl, rfl⟩, fun hrestart =>
    ⟨fun hidle => ⟨.inr (.inl hidle), rfl, hs, fun _ => rfl, rfl, rfl, rfl⟩, fun hidle => ⟨fun hreset => ⟨⟨rfl, rfl, rfl⟩, ?_⟩, fun hreset => ?_⟩⟩⟩
  · rintro (h | h | h)
    · exact hrestart h
    · exact hidle h
    · exact absurd hreset (by simp [h])
  · exact ⟨.inr (.inr (Bool.eq_false_of_not_eq_true hreset)), (Bool.eq_false_of_not_eq_true hrestart).symm,
      ⟨fun h => Bool.noConfusion h, fun h => Bool.noConfusion h⟩, fun _ => rfl, rfl, rfl, rfl⟩

/-- 記録が空の状態からバスを待って START をすれば、START は正しい。 -/
theorem Ready.startsRight {t : I2cDev} (h : Ready bus s t) (hs : s.starts = []) : StartsRight (withStart t t.restart).starts := by
  intro x hx
  rw [withStart, h.starts, hs, List.nil_append, List.mem_singleton] at hx
  rw [hx]
  exact ⟨Bool.eq_iff_iff.mpr h.owns, h.idle⟩

/-! ## バイトの列 -/

theorem sendBytes_meets (bus : Bus) (buf : List UInt8) {s : I2cDev} (hs : s.ctr.msta = true) :
    Meets (sendBytes bus buf) s (fun _ t => t.ctr.msta = true ∧ t.starts = s.starts) (fun _ t => Dropped s t) := by
  induction buf generalizing s with
  | nil => exact ⟨hs, rfl⟩
  | cons byte buf ih =>
      rw [sendBytes, meets_bind]
      refine (mx35Sendbyte_meets bus byte (.inl hs)).mono (fun _ t ht => ?_) fun _ t ht => ht.1
      exact (ih ht.msta).mono (fun _ u hu => ⟨hu.1, hu.2.trans ht.starts⟩) fun _ u hu => hu.of_starts ht.starts

/-- `len` 個のバイトが届く。 -/
def Arrive (bus : Bus) (len : Nat) (s : I2cDev) : Prop := ∀ i < len, (bus.wait (s.waits + i)).arrives = true

theorem arrive_succ {len : Nat} {t : I2cDev} (hw : t.waits = s.waits + 1) :
    Arrive bus (len + 1) s ↔ (bus.wait s.waits).arrives = true ∧ Arrive bus len t := by
  constructor
  · refine fun h => ⟨h 0 (Nat.succ_pos len), fun i hi => ?_⟩
    rw [hw, Nat.add_assoc, Nat.add_comm 1]
    exact h (i + 1) (Nat.succ_lt_succ hi)
  · rintro ⟨hfirst, hrest⟩ i hi
    cases i with
    | zero => exact hfirst
    | succ i =>
        have := hrest i (Nat.lt_of_succ_lt_succ hi)
        rwa [hw, Nat.add_assoc, Nat.add_comm 1] at this

/-- `len + 1` 個のバイトを受けた後の状態。 -/
structure BytesRead (bus : Bus) (stop : Bool) (len : Nat) (s t : I2cDev) : Prop where
  arrive : Arrive bus (len + 1) s
  waits : t.waits = s.waits + (len + 1)
  starts : t.starts = s.starts
  acks : t.received.map Prod.snd = s.received.map Prod.snd ++ nackLast (len + 1)
  msta : t.ctr.msta = (!stop && (bus.wait (s.waits + len)).unlost)

/-- 残りが一つのときに限って `TXAK` が立っていて、そのとき主であるところから受ける。 -/
theorem recvBytes_meets (bus : Bus) (stop : Bool) (len : Nat) {s : I2cDev} (htxak : s.ctr.txak = decide (len = 0))
    (hmsta : len = 0 → s.ctr.msta = true) :
    Meets (recvBytes bus stop (len + 1)) s (fun _ t => BytesRead bus stop len s t)
      (fun _ t => Dropped s t ∧ ¬ Arrive bus (len + 1) s) := by
  induction len generalizing s with
  | zero =>
      rw [recvBytes, meets_bind]
      refine (mx35Recvbyte_meets bus _ _ s).mono (fun _ t ht => ?_) fun _ t ht => ⟨ht.1, fun h => ?_⟩
      · refine meets_pure.mpr ⟨fun i hi => ?_, ht.waits, ht.starts, ?_, ?_⟩
        · rw [Nat.lt_one_iff.mp hi]
          exact ht.arrives
        · rw [ht.acks, htxak]; rfl
        · rw [ht.ctr, afterByte]
          cases stop with
          | false => simp [hmsta rfl]
          | true => simp
      · exact absurd (h 0 Nat.one_pos) (by simp [ht.2])
  | succ len ih =>
      rw [recvBytes, meets_bind]
      refine (mx35Recvbyte_meets bus _ _ s).mono (fun _ t ht => ?_) fun _ t ht => ⟨ht.1, fun h => ?_⟩
      · have htxak' : t.ctr.txak = decide (len = 0) := by
          rw [ht.ctr, afterByte]
          cases len with
          | zero => rfl
          | succ len => simpa using htxak
        have hmsta' : len = 0 → t.ctr.msta = true := by
          rintro rfl
          rw [ht.ctr, afterByte]
          rfl
        refine (ih htxak' hmsta').mono (fun _ u hu => ?_) fun _ u hu => ⟨hu.1.of_starts ht.starts, fun h => ?_⟩
        · refine ⟨(arrive_succ ht.waits).mpr ⟨ht.arrives, hu.arrive⟩, by rw [hu.waits, ht.waits]; omega, hu.starts.trans ht.starts, ?_, ?_⟩
          · rw [hu.acks, ht.acks, htxak, List.append_assoc]; rfl
          · rw [hu.msta, ht.waits, Nat.add_assoc, Nat.add_comm 1]
        · exact hu.2 ((arrive_succ ht.waits).mp h).2
      · exact absurd (h 0 (Nat.succ_pos _)) (by simp [ht.2])

theorem waitTail_meets (bus : Bus) (stop : Bool) (s : I2cDev) :
    Meets (waitTail bus stop) s
      (fun _ t => t.starts = s.starts ∧ t.received = s.received ∧ t.ctr.msta = (s.ctr.msta && (stop || (bus.wait s.waits).keeps)))
      (fun _ _ => False) := by
  cases stop with
  | true => exact ⟨rfl, rfl, (Bool.and_true _).symm⟩
  | false =>
      rw [waitTail, if_neg Bool.false_ne_true, meets_bind]
      cases h : bus.wait s.waits with
      | timeout => exact (mx35WaitStatus_timeout h).mpr ⟨rfl, rfl, (Bool.and_false _).symm⟩
      | done icf iaas rxak lost data => exact (mx35WaitStatus_done h).mpr ⟨rfl, rfl, rfl⟩

/-! ## 一回の呼び出し -/

/-- 主でなくなって失敗した呼び出しの後の状態。 -/
structure CallFailed (t : I2cDev) : Prop where
  restart : t.restart = false
  msta : t.ctr.msta = false
  starts : StartsRight t.starts

theorem Dropped.callFailed {s t : I2cDev} (h : Dropped s t) (hs : StartsRight s.starts) : CallFailed t :=
  ⟨h.restart, h.msta, by rw [h.starts]; exact hs⟩

theorem startsRight_nil : StartsRight [] := fun _ hx => absurd hx List.not_mem_nil

/-- 失敗した後も `restart` は主であることを表す。 -/
theorem CallFailed.owns {t : I2cDev} (h : CallFailed t) : Owns t := by
  rw [Owns, h.restart, h.msta]

theorem mx35Send_meets (bus : Bus) (slave : SlaveAddr) (buf : List UInt8) (stop : Bool) {s : I2cDev} (hs : Owns s) (hstarts : s.starts = []) :
    Meets (mx35Send bus slave buf stop) s (fun _ t => Owns t ∧ StartsRight t.starts) (fun _ t => CallFailed t) := by
  rw [mx35Send, meets_ite]
  refine ⟨fun _ => ⟨hs, by rw [hstarts]; exact startsRight_nil⟩, fun _ => ?_⟩
  rw [meets_bind]
  refine (mx35WaitBusNotBusy_meets bus hs).mono (fun _ t ht => ?_) fun _ t ht => ht.1.callFailed (by rw [hstarts]; exact startsRight_nil)
  have hright := ht.startsRight hstarts
  rw [meets_bind]
  refine (sendAddr_meets bus slave false t).mono (fun _ u hu => ?_) fun _ u hu => hu.1.callFailed hright
  rw [meets_bind]
  refine (sendBytes_meets bus buf hu.msta).mono (fun _ v hv => ?_) fun _ v hv => (hv.of_starts hu.starts).callFailed hright
  have hv' : StartsRight v.starts := by rw [hv.2, hu.starts]; exact hright
  cases stop with
  | true => exact ⟨⟨fun h => Bool.noConfusion h, fun h => Bool.noConfusion h⟩, hv'⟩
  | false => exact ⟨⟨fun _ => hv.1, fun _ => rfl⟩, hv'⟩

/-- `len + 1` 個のバイトを読む呼び出しが、バスを得て全部を受け取る。 -/
def Succeeds (bus : Bus) (slave : SlaveAddr) (len : Nat) (s : I2cDev) : Prop :=
  Addressed bus slave.readBytes s ∧ ∀ i < len + 1, (bus.wait (slave.readBytes + i)).arrives = true

/-- 成功した受信の後の状態。 -/
structure RecvDone (bus : Bus) (slave : SlaveAddr) (len : Nat) (stop : Bool) (s t : I2cDev) : Prop where
  succeeds : Succeeds bus slave len s
  restart : t.restart = !stop
  starts : StartsRight t.starts
  acks : t.received.map Prod.snd = nackLast (len + 1)
  msta : t.ctr.msta = (!stop && (bus.wait (slave.readBytes + len)).unlost && (stop || (bus.wait (slave.readBytes + (len + 1))).keeps))

theorem mx35Recv_meets (bus : Bus) (slave : SlaveAddr) (len : Nat) (stop : Bool) {s : I2cDev} (hs : Owns s) (hstarts : s.starts = [])
    (hwaits : s.waits = 0) (hreceived : s.received = []) :
    Meets (mx35Recv bus slave (len + 1) stop) s (fun _ t => RecvDone bus slave len stop s t)
      (fun _ t => CallFailed t ∧ ¬ Succeeds bus slave len s) := by
  rw [mx35Recv, if_neg (Nat.succ_ne_zero len), meets_bind]
  refine (mx35WaitBusNotBusy_meets bus hs).mono (fun _ t ht => ?_) fun _ t ht =>
    ⟨ht.1.callFailed (by rw [hstarts]; exact startsRight_nil), fun h => ht.2 h.1.idle⟩
  have hright := ht.startsRight hstarts
  have hbytes : slave.bytes true = slave.readBytes := rfl
  have ht0 : t.waits = 0 := ht.waits.trans hwaits
  rw [meets_bind]
  refine (sendAddr_meets bus slave true t).mono (fun _ u hu => ?_) fun _ u hu =>
    ⟨hu.1.callFailed hright, fun h => hu.2 ⟨h.1.busy, h.1.start, fun i hi => ?_⟩⟩
  · have hu0 : u.waits = slave.readBytes := by rw [hu.waits, ht0, Nat.zero_add, hbytes]
    have haddr : Addressed bus slave.readBytes s := by
      refine ⟨ht.free, hu.acked.busy, hu.acked.start, fun i hi => ?_⟩
      have := hu.acked.acked i hi
      rwa [ht0, Nat.zero_add] at this
    simp only [setCtr, meets_bind, meets_modify]
    refine (recvBytes_meets bus stop len (by simp) (fun _ => rfl)).mono (fun _ v hv => ?_) fun _ v hv =>
      ⟨(hv.1.of_starts hu.starts).callFailed hright, fun h => hv.2 fun i hi => ?_⟩
    · refine (waitTail_meets bus stop v).mono (fun _ w hw => ?_) fun _ _ hw => hw.elim
      refine ⟨⟨haddr, fun i hi => ?_⟩, rfl, ?_, ?_, ?_⟩
      · have := hv.arrive i hi
        rwa [hu0] at this
      · rw [hw.1, hv.starts, hu.starts]
        exact hright
      · rw [hw.2.1, hv.acks, hu.received, ht.received, hreceived]
        rfl
      · rw [hw.2.2, hv.msta, hv.waits, hu0]
    · rw [hu0]
      exact h.2 i hi
  · rw [ht0, Nat.zero_add]
    exact h.1.acked i hi

/-- 呼び出しの結果。 -/
theorem I2cCall.exec_cases {call : I2cCall} {Q : PUnit → I2cDev → Prop} {E : I2cError → I2cDev → Prop}
    (h : Meets (call.run bus) s.begin Q E) :
    ((call.exec bus s).1 = true ∧ Q ⟨⟩ (call.exec bus s).2) ∨ ((call.exec bus s).1 = false ∧ ∃ e, E e (call.exec bus s).2) := by
  rw [Meets] at h
  rw [exec]
  cases hrun : call.run bus s.begin with
  | ok _ t =>
      rw [hrun] at h
      exact .inl ⟨rfl, h⟩
  | error e t =>
      rw [hrun] at h
      exact .inr ⟨rfl, e, h⟩

/-- 失敗した呼び出しは正しい。 -/
theorem CallFailed.right {call : I2cCall} (h : CallFailed (call.exec bus s).2) (hok : (call.exec bus s).1 = false) : CallRight call bus s :=
  ⟨h.owns, h.starts, fun hsucceeds => absurd hsucceeds (by simp [hok])⟩

theorem send_right (hs : Owns s) (slave : SlaveAddr) (buf : List UInt8) (stop : Bool) : CallRight (.send slave buf stop) bus s := by
  have hmeets := mx35Send_meets bus slave buf stop (s := s.begin) hs rfl
  rcases @I2cCall.exec_cases bus s (.send slave buf stop) _ _ hmeets with ⟨-, howns, hstarts⟩ | ⟨hok, e, hfailed⟩
  · exact ⟨howns, hstarts, fun _ _ _ _ h => I2cCall.noConfusion h⟩
  · exact hfailed.right hok

theorem recv_zero_right (hs : Owns s) (slave : SlaveAddr) (stop : Bool) : CallRight (.recv slave 0 stop) bus s := by
  refine ⟨hs, startsRight_nil, fun _ slave' len stop' h => ?_⟩
  injection h with _ hlen _
  rw [← hlen]
  rfl

/-- 主であるかどうかが合うのは、最後のバイトとその後の待ちでバスを失わないときである。 -/
theorem RecvDone.owns_iff {slave : SlaveAddr} {len : Nat} {stop : Bool} {t : I2cDev} (h : RecvDone bus slave len stop s t) :
    Owns t ↔ (stop = false →
      (bus.wait (slave.readBytes + len)).unlost = true ∧ (bus.wait (slave.readBytes + (len + 1))).keeps = true) := by
  rw [Owns, h.restart, h.msta]
  cases stop with
  | true => simp
  | false => simp

theorem addressed_begin {bytes : Nat} : Addressed bus bytes s.begin ↔ Addressed bus bytes s :=
  ⟨fun h => ⟨h.idle, h.busy, h.start, h.acked⟩, fun h => ⟨h.idle, h.busy, h.start, h.acked⟩⟩

theorem recv_right_iff (hs : Owns s) (slave : SlaveAddr) (len : Nat) (stop : Bool) :
    CallRight (.recv slave (len + 1) stop) bus s ↔ TailKept (.recv slave (len + 1) stop) bus s := by
  have hmeets := mx35Recv_meets bus slave len stop (s := s.begin) hs rfl rfl rfl
  rcases @I2cCall.exec_cases bus s (.recv slave (len + 1) stop) _ _ hmeets with ⟨-, hdone⟩ | ⟨hok, e, hfailed, hno⟩
  · constructor
    · intro hright slave' len' h _ _
      injection h with hslave hlen hstop
      injection hlen with hlen
      subst hslave hlen
      exact hdone.owns_iff.mp hright.owns hstop
    · refine fun htail => ⟨hdone.owns_iff.mpr fun hstop => ?_, hdone.starts, fun _ _ _ _ h => ?_⟩
      · subst hstop
        exact htail slave len rfl (addressed_begin.mp hdone.succeeds.1) hdone.succeeds.2
      · injection h with _ hlen _
        rw [← hlen]
        exact hdone.acks
  · refine iff_of_true (hfailed.right hok) ?_
    intro slave' len' h haddr harrive
    injection h with hslave hlen hstop
    injection hlen with hlen
    subst hslave hlen
    exact absurd ⟨addressed_begin.mpr haddr, harrive⟩ hno

/-- 主であることを表す状態からの呼び出しが正しいのは、条件を満たすときである。 -/
theorem callRight_iff (hs : Owns s) (call : I2cCall) (bus : Bus) : CallRight call bus s ↔ TailKept call bus s := by
  cases call with
  | send slave buf stop => exact iff_of_true (send_right hs slave buf stop) fun _ _ h => I2cCall.noConfusion h
  | recv slave len stop =>
      cases len with
      | zero =>
          refine iff_of_true (recv_zero_right hs slave stop) fun slave' len h => ?_
          injection h with _ hlen _
          exact absurd hlen (Nat.succ_ne_zero len).symm
      | succ len => exact recv_right_iff hs slave len stop

/-! ## 呼び出しの列 -/

theorem allRight_iff (hs : Owns s) (calls : List (I2cCall × Bus)) : AllRight s calls ↔ AllTailKept s calls := by
  induction calls generalizing s with
  | nil => exact Iff.rfl
  | cons c calls ih =>
      obtain ⟨call, bus⟩ := c
      rw [AllRight, AllTailKept, callRight_iff hs]
      exact and_congr_right fun htail => ih ((callRight_iff hs call bus).mpr htail).owns

/-- `mx35_init()` の後のどの呼び出しの列でも、`restart` が主であることを表し、START と NACK が正しいのは、どの読み出しも、最後のバイトと
その後の待ちでバスを失わないときである。 -/
theorem transfers_right_iff (calls : List (I2cCall × Bus)) : AllRight .init calls ↔ AllTailKept .init calls :=
  allRight_iff ⟨fun h => Bool.noConfusion h, fun h => Bool.noConfusion h⟩ calls

/-- 番地と一つのバイトの後、割り込みが来ない。 -/
def silentAfterTwo : Bus where
  idleIbb _ := false
  resetIbb := false
  startIbb _ := true
  startLost := false
  wait i := if i < 2 then .done true false false false 0x5a else .timeout

/-- STOP のない一つのバイトの読み出しで、最後の待ちの時間が切れる。 -/
theorem transfers_not_right : ¬ ∀ calls, AllRight .init calls := by
  intro h
  have howns := (h [(.recv ⟨0x50, false⟩ 1 false, silentAfterTwo)]).1.owns
  exact absurd (howns.mp rfl) Bool.false_ne_true

end Imx6Bsp.I2c
