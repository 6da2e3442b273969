import Mathlib.Data.Int.ModEq
import DeviceModel.E82545.DisableWaits

/-!
# When a waiting frame wakes receive

Nothing but the virtio interrupt starts `e82545_tap_callback`, and its acknowledgement
covers every frame that has arrived by then. A frame can therefore be left behind:
when it arrives between the loop and the acknowledgement, when the loop ends on its
limit of a quarter of the ring, and when the guest makes room while frames wait.
`KeepsWakeup` excludes exactly these events.
-/

namespace DeviceModel

/-! ## Free descriptors -/

/-- With the head on the ring, C's remainder is the mathematical one. -/
theorem rxLeft_of_lt {size head : Nat} (rdt : U16) (h : head < size) :
    rxLeft size rdt head = ((size : Int) + rdt.toNat - head) % size :=
  Int.tmod_eq_emod_of_nonneg (by omega)

/-- The free descriptors after `n` of the ring's `left` have been taken. A packet may
take more than are left; the count then wraps. -/
theorem rxLeft_advance {size head n : Nat} {rdt : U16} {left : Int} (hsize : 0 < size)
    (heq : left ≡ size + rdt.toNat - head [ZMOD size]) (hpos : 0 ≤ left) (hlt : left < size)
    (hn : n ≤ size) :
    rxLeft size rdt ((head + n) % size) = if (n : Int) ≤ left then left - n else size + left - n := by
  have hhead : (((head + n) % size : Nat) : Int) ≡ head + n [ZMOD size] := by
    push_cast
    exact Int.mod_modEq _ _
  have hleft : (size : Int) + rdt.toNat - ((head + n) % size : Nat) ≡ left - n [ZMOD size] := by
    calc (size : Int) + rdt.toNat - ((head + n) % size : Nat)
        ≡ size + rdt.toNat - (head + n) [ZMOD size] := Int.ModEq.rfl.sub hhead
      _ = size + rdt.toNat - head - n := by omega
      _ ≡ left - n [ZMOD size] := heq.symm.sub Int.ModEq.rfl
  rw [rxLeft_of_lt rdt (Nat.mod_lt _ hsize), hleft.eq]
  split
  · exact Int.emod_eq_of_lt (by omega) (by omega)
  · rw [← Int.add_emod_left, ← Int.add_sub_assoc]
    exact Int.emod_eq_of_lt (by omega) (by omega)

/-- The count is right up to whole turns of the ring. -/
theorem rxLeft_modEq (size head : Nat) (rdt : U16) :
    rxLeft size rdt head ≡ size + rdt.toNat - head [ZMOD size] := by
  have hdiv := Int.tmod_add_mul_tdiv ((size : Int) + rdt.toNat - head) size
  rw [Int.modEq_iff_dvd]
  exact ⟨((size : Int) + rdt.toNat - head).tdiv size, by rw [rxLeft]; omega⟩

theorem rxLeft_lt {size : Nat} (hsize : 0 < size) (head : Nat) (rdt : U16) :
    rxLeft size rdt head < size :=
  Int.tmod_lt_of_pos _ (by omega)

/-- A packet takes at most two descriptors: one buffer is all that is counted. -/
theorem rxPacketDescs_le (rctl : U32) (data : List U8) :
    rxPacketDescs rctl (data.take (e82545Bufsz rctl)).length ≤ 2 := by
  have hbuf : 256 ≤ e82545Bufsz rctl := by
    unfold e82545Bufsz
    split <;> decide
  have hlen : rxPacketLen rctl (data.take (e82545Bufsz rctl)).length ≤ e82545Bufsz rctl + 4 := by
    have htake := List.length_take_le (e82545Bufsz rctl) data
    simp only [rxPacketLen]
    split <;> split <;> omega
  exact Nat.le_of_lt_succ ((Nat.div_lt_iff_lt_mul (by omega)).2 (by omega))

/-! ## When receive is open -/

/-- What receive needs, besides free descriptors. -/
theorem e82545RxOpen_iff {sc : E82545Softc} :
    e82545RxOpen sc = true ↔ sc.rx.escRxEnabled = true ∧ sc.rx.escRxLoopback = false ∧
      sc.rxSize ≠ 0 ∧
      (rxMaxpktdesc sc.rx.escRCTL : Int) ≤ rxLeft sc.rxSize sc.rx.escRDT sc.rx.escRDH.toNat := by
  simp [e82545RxOpen, and_assoc]

theorem e82545RxOpen_congr {sc t : E82545Softc} (h : t.rx = sc.rx) :
    e82545RxOpen t = e82545RxOpen sc := by
  rw [Bool.eq_iff_iff, e82545RxOpen_iff, e82545RxOpen_iff, E82545Softc.rxSize, E82545Softc.rxSize, h]

/-- Whether receive is open after a register write. -/
def rxOpenAfter (sc : E82545Softc) (reg : E1000Reg) (value : U32) : Bool :=
  match reg with
  | .rdh => e82545RxOpen { sc with rx.escRDH := value.setWidth 16 }
  | .rdt => e82545RxOpen { sc with rx.escRDT := value.setWidth 16 }
  | .rctl =>
    let rctl := value &&& ~~~0xF9204c01#32
    (value &&& e1000RctlEN) == e1000RctlEN &&
      e82545RxOpen { sc with
        rx.escRCTL := rctl
        rx.escRxEnabled := true
        rx.escRxLoopback :=
          if sc.rx.escRxEnabled then sc.rx.escRxLoopback else (rctl &&& e1000RctlLBM_TCVR) != 0 }
  | .ctrl | .ctrlDup => value &&& e1000CtrlRST == 0 && e82545RxOpen sc
  | _ => e82545RxOpen sc

/-- A reset closes receive. -/
theorem e82545Devctl_rxOpen {fuel : Nat} {sc t : E82545Softc} {value : U32}
    (h : e82545Devctl fuel sc value = .ok t) :
    e82545RxOpen t = (value &&& e1000CtrlRST == 0 && e82545RxOpen sc) := by
  unfold e82545Devctl at h
  split at h
  · next hrst =>
    obtain ⟨-, -, -, rfl⟩ := e82545Reset_eq_ok.1 h
    rw [beq_eq_false_iff_ne.2 hrst]
    simp [e82545RxOpen, E82545Softc.rxSize, e82545ResetRegs, e82545ResetTx, e82545ResetRx]
  · next hrst =>
    cases h
    rw [not_not] at hrst
    rw [hrst]
    rfl

theorem e82545RxCtl_rxOpen {fuel : Nat} {sc t : E82545Softc} {value : U32}
    (h : e82545RxCtl fuel sc value = .ok t) :
    e82545RxOpen t = rxOpenAfter sc .rctl value := by
  unfold e82545RxCtl at h
  rw [rxOpenAfter]
  cases hon : (value &&& e1000RctlEN) == e1000RctlEN <;> cases hen : sc.rx.escRxEnabled <;>
    simp only [hon, hen, bne_self_eq_false, Bool.bne_true, Bool.bne_false, Bool.not_false,
      if_true, if_false, Bool.false_eq_true, Bool.false_and, Bool.true_and] at h ⊢
  case false.true =>
    obtain ⟨u, hu, h⟩ := Except.bind_eq_ok.1 h
    obtain ⟨-, -, rfl⟩ := condWaitWhile_eq_ok.1 hu
    cases h
    rfl
  case false.false =>
    cases h
    rfl
  case true.true =>
    cases h
    exact e82545RxOpen_congr (by rw [← hen])
  case true.false =>
    cases h
    rfl

/-- `rxOpenAfter` says how a register write leaves receive. -/
theorem e82545WriteReg_rxOpen {fuel : Nat} {sc t : E82545Softc} {reg : E1000Reg} {value : U32}
    (h : e82545WriteReg fuel sc reg value = .ok t) :
    e82545RxOpen t = rxOpenAfter sc reg value := by
  cases reg with
  | ctrl | ctrlDup => exact e82545Devctl_rxOpen h
  | rctl => exact e82545RxCtl_rxOpen h
  | tctl =>
    simp only [e82545WriteReg, e82545TxCtl] at h
    split at h
    · cases h
      rfl
    · split at h
      · cases h
        rfl
      · obtain ⟨s, hs, h⟩ := Except.bind_eq_ok.1 h
        obtain ⟨-, -, rfl⟩ := condWaitWhile_eq_ok.1 hs
        cases h
        rfl
  | icr | itr | ics | ims | imc =>
    cases h
    obtain ⟨pi, intr, hframe⟩ := e82545IntrWrite_frame sc _ value
    rw [hframe]
    rfl
  | rdbal | tdbal | tdt =>
    simp only [e82545WriteReg] at h
    cases h
    split <;> rfl
  | rdlen =>
    obtain ⟨u, hoff, h⟩ := Except.bind_eq_ok.1 h
    cases h
    have hoff' : sc.rx.escRxEnabled = false := by simpa using hoff
    simp [rxOpenAfter, e82545RxOpen, hoff']
  | rdbah | ra _ =>
    obtain ⟨u, -, h⟩ := Except.bind_eq_ok.1 h
    cases h
    rfl
  | _ =>
    cases h
    rfl

/-! ## The receive loop -/

/-- The ring's size is a multiple of eight and fits the head register. -/
def RingSized (sc : E82545Softc) : Prop := 8 ∣ sc.rxSize ∧ sc.rxSize < 65536

/-- What is stored to `TDLEN` and `RDLEN` is a multiple of 128, of 20 bits. -/
theorem ringLen_toNat (v : U32) : 128 ∣ (v &&& ~~~0xFFF0007F#32).toNat ∧
    (v &&& ~~~0xFFF0007F#32).toNat ≤ 1048448 := by
  have hand : (v &&& ~~~0xFFF0007F#32).toNat = v.toNat &&& 1048448 := by
    rw [BitVec.toNat_and]
    rfl
  refine ⟨Nat.dvd_of_mod_eq_zero ?_, hand ▸ Nat.and_le_right⟩
  rw [hand]
  exact (Nat.and_mod_two_pow (n := 7)).trans (Nat.and_zero _)

theorem ringSized_of_masked {sc : E82545Softc} (v : U32)
    (h : sc.rx.escRDLEN = v &&& ~~~0xFFF0007F#32) : RingSized sc := by
  obtain ⟨hdvd, hle⟩ := ringLen_toNat v
  rw [RingSized, E82545Softc.rxSize, h]
  omega

/-- What holds at each `virtionet_read` of the loop. -/
structure RxLoopInv (sc : E82545Softc) (l : RxLocals) : Prop where
  enabled : sc.rx.escRxEnabled = true
  loopback : sc.rx.escRxLoopback = false
  size_eq : l.size = sc.rxSize
  lim_pos : 0 < l.lim
  room : (rxMaxpktdesc sc.rx.escRCTL : Int) ≤ l.left
  left_lt : l.left < l.size
  left_eq : l.left ≡ l.size + sc.rx.escRDT.toNat - l.head [ZMOD l.size]

theorem RxLoopInv.congr {sc t : E82545Softc} {l l' : RxLocals} (h : RxLoopInv sc l)
    (hen : t.rx.escRxEnabled = sc.rx.escRxEnabled) (hlb : t.rx.escRxLoopback = sc.rx.escRxLoopback)
    (hsize : t.rxSize = sc.rxSize) (hrctl : t.rx.escRCTL = sc.rx.escRCTL)
    (hrdt : t.rx.escRDT = sc.rx.escRDT) (hl : l' = { l with vec := l'.vec, i := l'.i }) :
    RxLoopInv t l' := by
  rw [hl]
  exact ⟨hen.trans h.enabled, hlb.trans h.loopback, h.size_eq.trans hsize.symm, h.lim_pos,
    hrctl ▸ h.room, h.left_lt, hrdt ▸ h.left_eq⟩

/-- The loop leaves receive open when the ring has room from the new head on. -/
theorem e82545RxDone_open {sc : E82545Softc} {l : RxLocals} (hen : sc.rx.escRxEnabled = true)
    (hlb : sc.rx.escRxLoopback = false) (hsize : l.size = sc.rxSize) (hhead : l.head < l.size)
    (hlt : l.size < 65536) :
    e82545RxOpen (e82545RxDone sc l) = true ↔
      (rxMaxpktdesc sc.rx.escRCTL : Int) ≤ rxLeft l.size sc.rx.escRDT l.head := by
  obtain ⟨mtx, pi, intr, hframe⟩ := e82545RxDone_frame sc l
  have hrdh : (BitVec.ofNat 16 l.head).toNat = l.head := by
    rw [BitVec.toNat_ofNat]
    exact Nat.mod_eq_of_lt (by omega)
  have hpos : sc.rxSize ≠ 0 := by omega
  rw [hframe, e82545RxOpen_iff]
  simp only [hrdh]
  rw [hsize]
  constructor
  · rintro ⟨-, -, -, hroom⟩
    exact hroom
  · intro hroom
    exact ⟨hen, hlb, hpos, hroom⟩

theorem e82545RxDone_ring {sc : E82545Softc} (l : RxLocals) (h : RingSized sc) :
    RingSized (e82545RxDone sc l) := by
  obtain ⟨mtx, pi, intr, hframe⟩ := e82545RxDone_frame sc l
  rw [hframe]
  exact h

/-- The locals after a packet of `n` descriptors. -/
def rxAdvance (l : RxLocals) (n : Nat) (cause : U32) : RxLocals :=
  { l with head := (l.head + n) % l.size, left := l.left - n, lim := l.lim - n, cause := cause }

/-- The descriptors of the packet that a frame completes; none if more buffers are to
be filled or the VLAN filter drops the packet. -/
def rxDelivers (s : E1000) (l : RxLocals) (f : Frame) : Option Nat :=
  let data := f.bytes.take (e82545Bufsz s.sc.rx.escRCTL)
  if rxMaxpktdesc s.sc.rx.escRCTL ≤ l.i + 1 ∧
      rxVlanDrops s.sc (s.mem.writeBytes (l.vec.getD l.i 0) data) (l.vec.headD 0) = false then
    some (rxPacketDescs s.sc.rx.escRCTL data.length)
  else none

/-- The loop ends after a packet of `n` descriptors although another one has room:
its limit is used up, or the packet has taken more than was left. -/
def RxStopsEarly (sc : E82545Softc) (l : RxLocals) (n : Nat) : Prop :=
  (l.lim ≤ n ∧ (rxMaxpktdesc sc.rx.escRCTL : Int) ≤ l.left - n) ∨
    (l.left < n ∧ (rxMaxpktdesc sc.rx.escRCTL : Int) ≤ l.size + l.left - n)

instance (sc : E82545Softc) (l : RxLocals) (n : Nat) : Decidable (RxStopsEarly sc l n) :=
  inferInstanceAs (Decidable (_ ∨ _))

/-- A frame that completes no packet leaves the loop where it is. -/
theorem e82545RxRead_undelivered {s : E1000} {l : RxLocals} {f : Frame} (rest : List Frame)
    (hl : RxLoopInv s.sc l) (h : rxDelivers s l f = none) :
    ∃ t l', e82545RxRead s l (f :: rest) = ((t, .reading l'), rest) ∧ t.sc = s.sc ∧
      RxLoopInv s.sc l' := by
  have hsame : ∀ (vec : List U64) (i : Nat), RxLoopInv s.sc { l with vec := vec, i := i } :=
    fun _ _ => hl.congr rfl rfl rfl rfl rfl rfl
  simp only [rxDelivers, ite_eq_right_iff, reduceCtorEq, imp_false, not_and, Bool.not_eq_false] at h
  simp only [e82545RxRead]
  split
  · next hfull =>
    simp only [e82545RxPacket, h hfull, if_true]
    refine ⟨_, _, congrArg (·, rest) (if_pos ⟨hl.lim_pos, hl.room⟩), rfl, hsame _ _⟩
  · exact ⟨_, _, rfl, rfl, hsame _ _⟩

/-- A frame that completes a packet takes its descriptors. -/
theorem e82545RxRead_delivered {s : E1000} {l : RxLocals} {f : Frame} {n : Nat}
    (rest : List Frame) (h : rxDelivers s l f = some n) :
    ∃ t cause, e82545RxRead s l (f :: rest) = (e82545RxLoop t (rxAdvance l n cause), rest) ∧
      t.sc = s.sc ∧ n ≤ 2 := by
  simp only [rxDelivers, Option.ite_none_right_eq_some, Option.some.injEq] at h
  obtain ⟨⟨hfull, hdrop⟩, rfl⟩ := h
  simp only [e82545RxRead, if_pos hfull, e82545RxPacket, hdrop, Bool.false_eq_true, if_false]
  exact ⟨_, _, rfl, rfl, rxPacketDescs_le _ _⟩

/-- **One packet.** After a packet the loop goes on, or it ends with receive closed,
or it stops early. -/
theorem rxAdvance_loop {s : E1000} {l : RxLocals} {n : Nat} (cause : U32)
    (hring : RingSized s.sc) (hl : RxLoopInv s.sc l) (hn : n ≤ 2) :
    (∃ l', e82545RxLoop s (rxAdvance l n cause) = (s, .reading l') ∧ RxLoopInv s.sc l' ∧
      ¬ RxStopsEarly s.sc l n) ∨
    (∃ t, e82545RxLoop s (rxAdvance l n cause) = (t, .ack) ∧ RingSized t.sc ∧
      (e82545RxOpen t.sc = true ↔ RxStopsEarly s.sc l n)) := by
  have hring' := e82545RxDone_ring (rxAdvance l n cause) hring
  obtain ⟨hdvd, hlt⟩ := hring
  have hroom := hl.room
  have hleft := hl.left_lt
  have hsize : 2 ≤ l.size := by
    have hpos : 0 < l.size := by omega
    rw [hl.size_eq] at hpos ⊢
    omega
  have hadv : rxLeft l.size s.sc.rx.escRDT (rxAdvance l n cause).head =
      if (n : Int) ≤ l.left then l.left - n else l.size + l.left - n :=
    rxLeft_advance (by omega) hl.left_eq (by omega) hleft (by omega)
  have hhead : (rxAdvance l n cause).head < l.size := Nat.mod_lt _ (by omega)
  rcases e82545RxLoop_cases s (rxAdvance l n cause) with ⟨hlim, hgo, heq⟩ | ⟨hend, heq⟩
  · refine .inl ⟨_, heq, ?_, ?_⟩
    · refine ⟨hl.enabled, hl.loopback, hl.size_eq, hlim, hgo, ?_, ?_⟩
      · simp only [rxAdvance]
        omega
      · calc l.left - (n : Int)
            ≡ l.size + s.sc.rx.escRDT.toNat - l.head - n [ZMOD l.size] :=
              hl.left_eq.sub Int.ModEq.rfl
          _ = l.size + s.sc.rx.escRDT.toNat - (l.head + n) := by omega
          _ ≡ l.size + s.sc.rx.escRDT.toNat - ((l.head + n) % l.size : Nat) [ZMOD l.size] := by
              push_cast
              exact Int.ModEq.rfl.sub (Int.mod_modEq _ _).symm
    · simp only [rxAdvance] at hlim hgo
      rintro (⟨hstop, -⟩ | ⟨hstop, -⟩) <;> omega
  · refine .inr ⟨_, heq, hring', ?_⟩
    have hopen : e82545RxOpen (e82545RxDone s.sc (rxAdvance l n cause)) = true ↔
        (rxMaxpktdesc s.sc.rx.escRCTL : Int) ≤
          if (n : Int) ≤ l.left then l.left - n else l.size + l.left - n := by
      rw [← hadv]
      exact e82545RxDone_open hl.enabled hl.loopback hl.size_eq hhead (hl.size_eq.trans_lt hlt)
    rw [hopen, RxStopsEarly]
    simp only [rxAdvance] at hend
    split <;> omega

/-- The start of `e82545_tap_callback` skips a closed receive path and otherwise enters
the loop: on a ring of eight or more descriptors the limit is not zero. -/
theorem e82545TapCallback_wake {s t : E1000} {at' : NetIntr} (hring : RingSized s.sc)
    (h : e82545TapCallback s = .ok (t, at')) :
    (at' = .ack ∧ t.sc.rx = s.sc.rx ∧ e82545RxOpen s.sc = false) ∨
    (∃ l, at' = .reading l ∧ t.sc.rxSize = s.sc.rxSize ∧ RxLoopInv t.sc l) := by
  rcases e82545TapCallback_cases h with ⟨hclosed, rfl, rfl⟩ | ⟨hopen, hloop⟩
  · exact .inl ⟨rfl, rfl, hclosed⟩
  · obtain ⟨hen, hlb, hsize, hroom⟩ := e82545RxOpen_iff.1 hopen
    obtain ⟨hdvd, -⟩ := hring
    have hlim : 0 < s.sc.rxSize / 4 := by omega
    rcases e82545RxLoop_cases (rxEnter s) (rxLocals s.sc) with ⟨-, -, heq⟩ | ⟨hend, -⟩
    · rw [hloop] at heq
      cases heq
      refine .inr ⟨_, rfl, rfl, ?_⟩
      exact ⟨hen, hlb, rfl, hlim, hroom, rxLeft_lt (by omega) _ _, rxLeft_modEq _ _ _⟩
    · exact absurd ⟨hlim, hroom⟩ hend

/-! ## Runs -/

/-- No frame waits for an interrupt that will not come: with no interrupt pending and
`net_intr` not running, frames wait only while receive is disabled or in loopback or
the ring has fewer free descriptors than a packet may take. -/
def RxWakeup (s : E1000Sys) : Prop :=
  s.netIntr = .idle → s.irq = false → s.waiting ≠ [] → e82545RxOpen s.dev.sc = false

/-- The event leaves no waiting frame without an interrupt. -/
def KeepsWakeup (s : E1000Sys) : E1000Event → Prop
  | .arrive _ => s.netIntr = .ack → e82545RxOpen s.dev.sc = false
  | .rx => ∀ l f rest n, s.netIntr = .reading l → s.waiting = f :: rest → rest ≠ [] →
      rxDelivers s.dev l f = some n → ¬ RxStopsEarly s.dev.sc l n
  | .write baridx offset size value => ∀ reg,
      e82545BarRegister s.dev.sc baridx offset size = some reg →
      s.waiting ≠ [] → s.irq = false → rxOpenAfter s.dev.sc reg (value.setWidth 32) = false
  | _ => True

/-- The invariant behind `RxWakeup`, for each place where `net_intr` may be. -/
structure WakeInv (s : E1000Sys) : Prop where
  ring : RingSized s.dev.sc
  idle : RxWakeup s
  reading : ∀ l, s.netIntr = .reading l → RxLoopInv s.dev.sc l
  ack : s.netIntr = .ack → s.waiting ≠ [] → e82545RxOpen s.dev.sc = false

theorem WakeInv.congr {s t : E1000Sys} (h : WakeInv s) (hrx : t.dev.sc.rx = s.dev.sc.rx)
    (hat : t.netIntr = s.netIntr) (hirq : t.irq = s.irq) (hwaiting : t.waiting = s.waiting) :
    WakeInv t := by
  have hopen := e82545RxOpen_congr hrx
  have hsize : t.dev.sc.rxSize = s.dev.sc.rxSize := by rw [E82545Softc.rxSize, hrx]; rfl
  refine ⟨?_, ?_, ?_, ?_⟩
  · rw [RingSized, hsize]
    exact h.ring
  · rw [RxWakeup, hat, hirq, hwaiting, hopen]
    exact h.idle
  · intro l hl
    exact (h.reading l (hat ▸ hl)).congr (by rw [hrx]) (by rw [hrx]) hsize (by rw [hrx])
      (by rw [hrx]) rfl
  · rw [hat, hwaiting, hopen]
    exact h.ack

theorem e82545Write_ring {fuel : Nat} {sc t : E82545Softc} {baridx : Nat} {offset : U64}
    {size : Nat} {value : U64} (hring : RingSized sc)
    (h : e82545Write fuel sc baridx offset size value = .ok t) : RingSized t := by
  obtain ⟨-, -, hsame | ⟨v, hv⟩⟩ := e82545Write_flags h
  · rw [RingSized, E82545Softc.rxSize, hsame]
    exact hring
  · exact ringSized_of_masked v hv

/-- What a BAR write does to receive. -/
theorem e82545Write_rxOpen {fuel : Nat} {sc t : E82545Softc} {baridx : Nat} {offset : U64}
    {size : Nat} {value : U64} (h : e82545Write fuel sc baridx offset size value = .ok t) :
    (e82545BarRegister sc baridx offset size = none ∧ e82545RxOpen t = e82545RxOpen sc) ∨
    ∃ reg, e82545BarRegister sc baridx offset size = some reg ∧
      e82545RxOpen t = rxOpenAfter sc reg (value.setWidth 32) := by
  rcases e82545Write_cases h with ⟨hnone, w, rfl⟩ | ⟨reg, u, hreg, hu, rfl⟩
  · exact .inl ⟨hnone, rfl⟩
  · have hlock : rxOpenAfter sc.lockMtx reg (value.setWidth 32) =
        rxOpenAfter sc reg (value.setWidth 32) := by cases reg <;> rfl
    exact .inr ⟨reg, hreg, (e82545WriteReg_rxOpen hu).trans hlock⟩

/-- What an event must do. -/
def WakeStep (b : Build) (s : E1000Sys) (e : E1000Event) (t : E1000Sys) : Prop :=
  (KeepsWakeup s e → WakeInv t) ∧
    (¬ KeepsWakeup s e → ∃ u, (u = t ∨ E1000Step b t .ack u) ∧ ¬ RxWakeup u)

/-- Frames left in the acknowledgement phase with receive open get no interrupt. -/
theorem not_rxWakeup_of_ack (b : Build) {t : E1000Sys} (hat : t.netIntr = .ack)
    (hwaiting : t.waiting ≠ []) (hopen : e82545RxOpen t.dev.sc = true) :
    ∃ u, (u = t ∨ E1000Step b t .ack u) ∧ ¬ RxWakeup u := by
  refine ⟨_, .inr (.ack hat), fun hwk => ?_⟩
  have hclosed : e82545RxOpen t.dev.sc = false := hwk rfl rfl hwaiting
  rw [hopen] at hclosed
  cases hclosed

theorem write_wake {b : Build} {s : E1000Sys} {sc : E82545Softc} {fuel baridx : Nat}
    {offset : U64} {size : Nat} {value : U64} (hs : WakeInv s) (hidle : s.netIntr = .idle)
    (hw : e82545Write fuel s.dev.sc baridx offset size value = .ok sc) :
    WakeStep b s (.write baridx offset size value)
      { s with dev := { s.dev with sc := sc }, handled := true } := by
  have hopen := e82545Write_rxOpen hw
  constructor
  · intro hkeeps
    refine ⟨e82545Write_ring hs.ring hw, ?_, ?_, ?_⟩
    · intro _ hirq hwaiting
      rcases hopen with ⟨-, heq⟩ | ⟨reg, hreg, heq⟩
      · exact heq.trans (hs.idle hidle hirq hwaiting)
      · exact heq.trans (hkeeps reg hreg hwaiting hirq)
    · intro l hl
      cases hidle.symm.trans hl
    · intro hack
      cases hidle.symm.trans hack
  · intro hkeeps
    simp only [KeepsWakeup, not_forall, Bool.not_eq_false] at hkeeps
    obtain ⟨reg, hreg, hwaiting, hirq, hafter⟩ := hkeeps
    refine ⟨_, .inl rfl, fun hwk => ?_⟩
    have hclosed : e82545RxOpen sc = false := hwk hidle hirq hwaiting
    rcases hopen with ⟨hnone, -⟩ | ⟨reg', hreg', heq⟩
    · cases hreg.symm.trans hnone
    · cases hreg.symm.trans hreg'
      rw [heq, hafter] at hclosed
      cases hclosed

theorem arrive_wake {b : Build} {s : E1000Sys} (hs : WakeInv s) (f : Frame) :
    WakeStep b s (.arrive f) { s with waiting := s.waiting ++ [f], irq := true } := by
  constructor
  · intro hkeeps
    refine ⟨hs.ring, ?_, hs.reading, ?_⟩
    · intro _ hirq
      cases hirq
    · intro hack _
      exact hkeeps hack
  · intro hkeeps
    simp only [KeepsWakeup, not_forall, Bool.not_eq_false] at hkeeps
    obtain ⟨hack, hopen⟩ := hkeeps
    exact not_rxWakeup_of_ack b hack (List.append_ne_nil_of_right_ne_nil _ (List.cons_ne_nil _ _))
      hopen

/-- The invariant while `net_intr` runs: in the loop, or past it with receive closed to
the frames that wait. -/
theorem wakeInv_of_running {t : E1000Sys} (hring : RingSized t.dev.sc)
    (h : (∃ l, t.netIntr = .reading l ∧ RxLoopInv t.dev.sc l) ∨
      t.netIntr = .ack ∧ (t.waiting ≠ [] → e82545RxOpen t.dev.sc = false)) : WakeInv t := by
  rcases h with ⟨l, hat, hl⟩ | ⟨hat, hack⟩
  · refine ⟨hring, ?_, ?_, ?_⟩
    · intro hidle
      cases hat.symm.trans hidle
    · intro l' hl'
      cases hat.symm.trans hl'
      exact hl
    · intro hack
      cases hat.symm.trans hack
  · refine ⟨hring, ?_, ?_, fun _ => hack⟩
    · intro hidle
      cases hat.symm.trans hidle
    · intro l' hl'
      cases hat.symm.trans hl'

theorem take_wake {b : Build} {s : E1000Sys} {dev : E1000} {at' : NetIntr} (hs : WakeInv s)
    (h : e82545TapCallback s.dev = .ok (dev, at')) :
    WakeStep b s .take { s with dev := dev, netIntr := at' } := by
  refine ⟨fun _ => ?_, fun hkeeps => absurd trivial hkeeps⟩
  rcases e82545TapCallback_wake hs.ring h with ⟨rfl, hrx, hclosed⟩ | ⟨l, rfl, hsize, hl⟩
  · have hring : RingSized dev.sc := by
      rw [RingSized, E82545Softc.rxSize, hrx]
      exact hs.ring
    exact wakeInv_of_running hring (.inr ⟨rfl, fun _ => (e82545RxOpen_congr hrx).trans hclosed⟩)
  · have hring : RingSized dev.sc := by
      rw [RingSized, hsize]
      exact hs.ring
    exact wakeInv_of_running hring (.inl ⟨l, rfl, hl⟩)

/-- Nothing is asked where the frame, if there is one, completes no packet. -/
theorem keepsWakeup_rx_of_undelivered {s : E1000Sys} {l : RxLocals} (hat : s.netIntr = .reading l)
    (h : ∀ f rest, s.waiting = f :: rest → rxDelivers s.dev l f = none) : KeepsWakeup s .rx := by
  intro l' f rest n hat' hw _ hn
  cases hat.symm.trans hat'
  rw [h f rest hw] at hn
  cases hn

theorem keepsWakeup_rx_iff {s : E1000Sys} {l : RxLocals} {f : Frame} {rest : List Frame} {n : Nat}
    (hat : s.netIntr = .reading l) (hw : s.waiting = f :: rest)
    (hd : rxDelivers s.dev l f = some n) :
    KeepsWakeup s .rx ↔ (rest ≠ [] → ¬ RxStopsEarly s.dev.sc l n) := by
  constructor
  · intro hkeeps hne
    exact hkeeps l f rest n hat hw hne hd
  · intro hstop l' f' rest' n' hat' hw' hne hd'
    cases hat.symm.trans hat'
    cases hw.symm.trans hw'
    cases hd.symm.trans hd'
    exact hstop hne

theorem rx_wake {b : Build} {s : E1000Sys} {l : RxLocals} (hs : WakeInv s)
    (hat : s.netIntr = .reading l) :
    WakeStep b s .rx
      { s with
        dev := (e82545RxRead s.dev l s.waiting).1.1
        netIntr := (e82545RxRead s.dev l s.waiting).1.2
        waiting := (e82545RxRead s.dev l s.waiting).2 } := by
  have hl := hs.reading l hat
  cases hw : s.waiting with
  | nil =>
    refine ⟨fun _ => ?_, fun hkeeps => absurd (keepsWakeup_rx_of_undelivered hat ?_) hkeeps⟩
    · exact wakeInv_of_running (e82545RxDone_ring l hs.ring) (.inr ⟨rfl, fun hne => absurd rfl hne⟩)
    · intro f rest hcons
      cases hw.symm.trans hcons
  | cons f rest =>
    cases hd : rxDelivers s.dev l f with
    | none =>
      obtain ⟨t, l', heq, hsc, hl'⟩ := e82545RxRead_undelivered rest hl hd
      refine ⟨fun _ => ?_, fun hkeeps => absurd (keepsWakeup_rx_of_undelivered hat ?_) hkeeps⟩
      · rw [heq]
        exact wakeInv_of_running (hsc ▸ hs.ring) (.inl ⟨l', rfl, hsc ▸ hl'⟩)
      · intro f' rest' hcons
        cases hw.symm.trans hcons
        exact hd
    | some n =>
      obtain ⟨t, cause, heq, hsc, hn⟩ := e82545RxRead_delivered rest hd
      have hkeeps := keepsWakeup_rx_iff hat hw hd
      rw [heq]
      rcases rxAdvance_loop cause (hsc ▸ hs.ring) (hsc ▸ hl) hn with
        ⟨l', hloop, hl', hstop⟩ | ⟨u, hloop, hring, hopen⟩
      · rw [hsc] at hstop
        rw [hloop]
        refine ⟨fun _ => wakeInv_of_running (hsc ▸ hs.ring) (.inl ⟨l', rfl, hl'⟩), fun hk => ?_⟩
        exact absurd (hkeeps.2 fun _ => hstop) hk
      · rw [hsc] at hopen
        rw [hloop]
        refine ⟨fun hk => wakeInv_of_running hring (.inr ⟨rfl, fun hne => ?_⟩), fun hk => ?_⟩
        · exact Bool.eq_false_iff.2 fun h => hkeeps.1 hk hne (hopen.1 h)
        · rw [hkeeps, Classical.not_imp, not_not] at hk
          exact not_rxWakeup_of_ack b rfl hk.1 (hopen.2 hk.2)

/-- One event keeps the invariant, or leaves a frame without an interrupt. -/
theorem e1000Step_wake {b : Build} {s t : E1000Sys} {e : E1000Event} (hs : WakeInv s)
    (h : E1000Step b s e t) : WakeStep b s e t := by
  cases h with
  | write fuel baridx offset size value hidle _ hw => exact write_wake hs hidle hw
  | read baridx offset size hidle _ hr =>
    refine ⟨fun _ => ?_, fun hkeeps => absurd trivial hkeeps⟩
    obtain ⟨mtx, pi, intr, rfl⟩ := e82545Read_frame hr
    exact hs.congr rfl rfl rfl rfl
  | poll fuel hidle hp =>
    refine ⟨fun _ => hs.congr ?_ rfl rfl rfl, fun hkeeps => absurd trivial hkeeps⟩
    exact (e1000Poll_txActive hp).2
  | guest => exact ⟨fun _ => hs.congr rfl rfl rfl rfl, fun hkeeps => absurd trivial hkeeps⟩
  | itr hidle _ =>
    refine ⟨fun _ => hs.congr ?_ rfl rfl rfl, fun hkeeps => absurd trivial hkeeps⟩
    obtain ⟨mtx, pi, intr, hframe⟩ := e82545ItrCallback_frame s.dev.sc
    simp only [hframe]
  | arrive f => exact arrive_wake hs f
  | take _ _ ht => exact take_wake hs ht
  | rx l hl => exact rx_wake hs hl
  | ack hack =>
    refine ⟨fun _ => ?_, fun hkeeps => absurd trivial hkeeps⟩
    refine ⟨hs.ring, fun _ _ hwaiting => hs.ack hack hwaiting, ?_, ?_⟩
    · intro l hl
      cases hl
    · intro h
      cases h

theorem wakeInv_initial {s : E1000Sys} (h : E1000Initial s) : WakeInv s := by
  obtain ⟨⟨ctx, hsc⟩, hwaiting, -, hidle, -, -⟩ := h
  refine ⟨?_, ?_, ?_, ?_⟩
  · rw [hsc]
    exact ringSized_of_masked 0 rfl
  · intro _ _ hne
    exact absurd hwaiting hne
  · intro l hl
    cases hidle.symm.trans hl
  · intro hack
    cases hidle.symm.trans hack

/-- **When no receive wake-up is lost.** In every run whose events all keep the
wake-up, no frame waits in vain; and any other event that can follow leaves one that
does, at the latest after the acknowledgement. -/
theorem rxWakeup_of_keepsWakeup {b : Build} {s : E1000Sys}
    (h : Reaches (Guarded (E1000Step b) KeepsWakeup) E1000Initial s) :
    RxWakeup s ∧ ∀ e t, E1000Step b s e t → ¬ KeepsWakeup s e →
      ∃ u, (u = t ∨ E1000Step b t .ack u) ∧ ¬ RxWakeup u := by
  have hs : WakeInv s := by
    refine h.invariant (fun _ => wakeInv_initial) ?_
    rintro s e t hs ⟨hstep, hkeeps⟩
    exact (e1000Step_wake hs hstep).1 hkeeps
  exact ⟨hs.idle, fun e t hstep => (e1000Step_wake hs hstep).2⟩

/-! ## Two runs -/

/-- A frame of one byte. -/
def oneByte : Frame := ⟨[0], List.cons_ne_nil _ _⟩

/-- `net_intr` up to its first `virtionet_read`. -/
def takeNet (s : E1000Sys) : E1000Sys :=
  let next := outcome (e82545TapCallback s.dev) (s.dev, .ack)
  { s with dev := next.1, netIntr := next.2 }

/-- The next `virtionet_read` of the loop. -/
def readNet (s : E1000Sys) : E1000Sys :=
  match s.netIntr with
  | .reading l =>
    { s with
      dev := (e82545RxRead s.dev l s.waiting).1.1
      netIntr := (e82545RxRead s.dev l s.waiting).1.2
      waiting := (e82545RxRead s.dev l s.waiting).2 }
  | _ => s

def arriveNet (s : E1000Sys) : E1000Sys := { s with waiting := s.waiting ++ [oneByte], irq := true }

/-- Receive enabled on a ring of eight descriptors, `rdt` of them free. -/
def rxReady (rdt : U64) : E1000Sys :=
  writePoll (writePoll (writePoll e1000Start 0x2808 0x80) 0x100 2) 0x2818 rdt

theorem readNet_step {b : Build} {s : E1000Sys} (h : s.netIntr.inLoop = true) :
    E1000Step b s .rx (readNet s) := by
  cases hat : s.netIntr with
  | reading l =>
    simp only [readNet, hat]
    exact .rx l hat
  | idle => simp [hat, NetIntr.inLoop] at h
  | ack => simp [hat, NetIntr.inLoop] at h

/-- Guest writes are asked nothing while no frame waits. -/
theorem rxReady_reaches (rdt : U64)
    (hw : (e82545Write 1 (writePoll (writePoll e1000Start 0x2808 0x80) 0x100 2).dev.sc
      0 0x2818 4 rdt).isOk = true)
    (hp : (e1000Poll .integer 3
      (writeReg (writePoll (writePoll e1000Start 0x2808 0x80) 0x100 2) 0x2818 rdt).dev).isOk = true) :
    Reaches (Guarded (E1000Step .integer) KeepsWakeup) E1000Initial (rxReady rdt) := by
  have h₁ := @writePoll_reaches KeepsWakeup _ 0x2808 0x80 (.start e1000Start_initial) rfl rfl
    (by decide +kernel) (by decide +kernel) (fun _ _ hne => absurd rfl hne) trivial
  have h₂ := writePoll_reaches 0x100 2 h₁ rfl rfl
    (by decide +kernel) (by decide +kernel) (fun _ _ hne => absurd rfl hne) trivial
  exact writePoll_reaches 0x2818 rdt h₂ rfl rfl hw hp (fun _ _ hne => absurd rfl hne) trivial

theorem takeNet_step {b : Build} {s : E1000Sys} (hidle : s.netIntr = .idle) (hirq : s.irq = true)
    (h : (e82545TapCallback s.dev).isOk = true) : E1000Step b s .take (takeNet s) :=
  .take hidle hirq (eq_ok_outcome h)

/-- With one free descriptor and two frames, the second frame waits, as it should. -/
theorem rxWakeup_of_keepsWakeup_full :
    ∃ s : E1000Sys, s.netIntr = .idle ∧ s.irq = false ∧ s.waiting.length = 1 ∧ RxWakeup s := by
  have h₁ := ((rxReady_reaches 1 (by decide +kernel) (by decide +kernel)).next
    ⟨.arrive oneByte, fun hack => (nomatch hack)⟩).next
    ⟨.arrive oneByte, fun hack => (nomatch hack)⟩
  have h₂ := h₁.next ⟨takeNet_step rfl rfl (by decide +kernel), trivial⟩
  have hat : (takeNet (arriveNet (arriveNet (rxReady 1)))).netIntr =
      .reading ⟨8, 0, 1, 2, 0, [0], 0⟩ := by decide +kernel
  have hkeeps : KeepsWakeup (takeNet (arriveNet (arriveNet (rxReady 1)))) .rx := by
    refine (keepsWakeup_rx_iff (n := 1) hat rfl (by decide +kernel)).2 fun _ => ?_
    decide +kernel
  have h₃ := h₂.next ⟨readNet_step (by decide +kernel), hkeeps⟩
  have h₄ := h₃.next ⟨.ack (by decide +kernel), trivial⟩
  exact ⟨_, rfl, rfl, by decide +kernel, (rxWakeup_of_keepsWakeup h₄).1⟩

/-- Not so in every run: a frame that arrives after the loop has found the queue empty
and before the acknowledgement. -/
theorem rxWakeup_counterexample :
    ¬ ∀ s, Reaches (E1000Step .integer) E1000Initial s → RxWakeup s := by
  intro hwakeup
  have h₁ := (rxReady_reaches 4 (by decide +kernel) (by decide +kernel)).of_guarded.next
    (.arrive oneByte)
  have h₂ := ((h₁.next (takeNet_step rfl rfl (by decide +kernel))).next
    (readNet_step (by decide +kernel))).next (readNet_step (by decide +kernel))
  have h₃ := (h₂.next (.arrive oneByte)).next (.ack (by decide +kernel))
  have hopen : e82545RxOpen (readNet (readNet (takeNet (arriveNet (rxReady 4))))).dev.sc = true := by
    decide +kernel
  have hclosed := hwakeup _ h₃ rfl rfl (List.append_ne_nil_of_right_ne_nil _ (List.cons_ne_nil _ _))
  exact absurd (hopen.symm.trans hclosed) Bool.noConfusion

end DeviceModel
