import DeviceModel.Library.RingQueue
import DeviceModel.E82545.RxFrames

/-!
# The receive ring is a queue

A driver gives buffers to the device by moving the tail, and looks at the descriptor behind the
last one that it has read: when it is done, the driver takes what is in its buffer, puts a
buffer back and goes on. With buffers that a packet fits into, the virtio queue and the ring
are one queue then, whatever the order of interrupts, requests and what the driver does.
-/

namespace DeviceModel

/-! ## What the driver finds -/

/-- The buffer of a descriptor. -/
def rxAddr (s : E1000) (i : Nat) : U64 := paddrGuest2host s.sc.escCtx (s.rxRing i).bufferAddr

def rxBuffer (s : E1000) (i : Nat) : List U64 :=
  Mem.addrs (rxAddr s i) (e82545Bufsz s.sc.rx.escRCTL)

/-- What the driver takes from a descriptor that is done: the bytes, and whether a packet ends. -/
structure RxTaken where
  bytes : List U8
  eop : Bool
  deriving DecidableEq

def rxSlot (s : E1000) (i : Nat) : Option RxTaken :=
  if (s.rxRing i).status &&& e1000RxdStatDD ≠ 0 then
    some ⟨s.mem.readBytes (rxAddr s i) (s.rxRing i).length.toNat,
      (s.rxRing i).status &&& e1000RxdStatEOP != 0⟩
  else none

/-- The driver takes the frame, all in one buffer; padding and checksum may follow. -/
structure Received (rctl : U32) (f : Frame) (p : RxTaken) : Prop where
  whole : p.eop = true
  starts : f.bytes <+: p.bytes
  length : p.bytes.length = rxPacketLen rctl f.bytes.length

/-- The frame is shorter than a buffer, also with padding and checksum. -/
def RxFits (rctl : U32) (f : Frame) : Prop := rxPacketLen rctl f.bytes.length < e82545Bufsz rctl

instance (rctl : U32) (f : Frame) : Decidable (RxFits rctl f) := inferInstanceAs (Decidable (_ < _))

/-- Buffers of different descriptors have nothing in common. -/
def RxApart (s : E1000) (size : Nat) : Prop :=
  ∀ i < size, ∀ j < size, i ≠ j → (rxBuffer s i).Disjoint (rxBuffer s j)

/-! ## Device and driver -/

/-- What receive is set up to. -/
def E82545Softc.rxSetup (sc : E82545Softc) : Vmctx × Bool × Bool × U32 × U32 :=
  (sc.escCtx, sc.rx.escRxEnabled, sc.rx.escRxLoopback, sc.rx.escRCTL, sc.rx.escRDLEN)

/-- The registers whose writes do not set up receive, or move its head or tail. -/
def E1000Reg.sparesRx : E1000Reg → Bool
  | .ctrl | .ctrlDup | .rctl | .rdbal | .rdbah | .rdlen | .rdh | .rdt => false
  | _ => true

/-- A driver: how many descriptors it has read since it has set up the ring, and up to which it
has given them to the device. -/
structure RxDriver where
  sys : E1000Sys
  next : Nat
  tail : Nat

/-- What can happen. -/
inductive RxEvent : Type where
  /-- what does not concern the driver -/
  | device (e : E1000Event)
  /-- the driver moves the tail -/
  | give (tail : Nat)
  /-- it takes a packet, and puts the buffer `a` in its place -/
  | take (p : RxTaken) (a : U64)
  /-- it stores to its memory -/
  | store (txRing : Nat → E1000TxUdesc) (mem : Mem)

/-- What of it the queue sees. -/
def RxEvent.queued : RxEvent → List (QueueLabel Frame RxTaken)
  | device (.arrive f) => [.put f]
  | take p _ => [.take p]
  | _ => []

/-- The event leaves the receive registers to the driver, and a frame fits. -/
def E1000Event.SparesRx (sc : E82545Softc) : E1000Event → Prop
  | write baridx offset size _ => ∀ reg, e82545BarRegister sc baridx offset size = some reg →
      reg.sparesRx = true
  | guest => False
  | arrive f => RxFits sc.rx.escRCTL f
  | _ => True

/-- The driver after it has taken a packet. -/
def RxDriver.taken (s : RxDriver) (a : U64) : RxDriver :=
  let i := s.next % s.sys.dev.sc.rxSize
  { s with
    sys.dev.rxRing := Function.update s.sys.dev.rxRing i
      { s.sys.dev.rxRing i with bufferAddr := a, status := 0 }
    next := s.next + 1 }

/-- One event. The driver keeps one descriptor back, so that a full ring is not an empty one. -/
inductive RxStep (b : Build) : RxDriver → RxEvent → RxDriver → Prop where
  | device {s : RxDriver} {t : E1000Sys} (e : E1000Event) : e.SparesRx s.sys.dev.sc →
      E1000Step b s.sys e t → RxStep b s (.device e) { s with sys := t }
  | give {s : RxDriver} {t : E1000Sys} (tail baridx : Nat) (offset : U64) (size : Nat) (value : U64) :
      e82545BarRegister s.sys.dev.sc baridx offset size = some .rdt → s.tail ≤ tail →
      tail < s.next + s.sys.dev.sc.rxSize →
      (value.setWidth 16 : U16).toNat = tail % s.sys.dev.sc.rxSize →
      E1000Step b s.sys (.write baridx offset size value) t →
      RxStep b s (.give tail) { s with sys := t, tail := tail }
  | take {s : RxDriver} {p : RxTaken} (a : U64) :
      rxSlot s.sys.dev (s.next % s.sys.dev.sc.rxSize) = some p →
      RxApart (s.taken a).sys.dev s.sys.dev.sc.rxSize → RxStep b s (.take p a) (s.taken a)
  | store {s : RxDriver} (txRing : Nat → E1000TxUdesc) (mem : Mem) :
      (∀ i < s.sys.dev.sc.rxSize, (rxSlot s.sys.dev i).isSome = true →
        ∀ x ∈ rxBuffer s.sys.dev i, mem x = s.sys.dev.mem x) →
      RxStep b s (.store txRing mem)
        { s with sys.dev.txRing := txRing, sys.dev.mem := mem }

/-! ## Register writes -/

section Writes

variable {fuel : Nat} {sc t : E82545Softc} {reg : E1000Reg} {value : U32}

/-- A write to another register spares receive. -/
theorem e82545WriteReg_sparesRx (hreg : reg.sparesRx = true)
    (h : e82545WriteReg fuel sc reg value = .ok t) :
    t.rxSetup = sc.rxSetup ∧ t.rx.escRDH = sc.rx.escRDH ∧ t.rx.escRDT = sc.rx.escRDT := by
  cases reg with
  | ctrl | ctrlDup | rctl | rdbal | rdbah | rdlen | rdh | rdt => cases hreg
  | tctl =>
    simp only [e82545WriteReg, e82545TxCtl] at h
    split at h
    · cases h
      exact ⟨rfl, rfl, rfl⟩
    · split at h
      · cases h
        exact ⟨rfl, rfl, rfl⟩
      · obtain ⟨s, hs, h⟩ := Except.bind_eq_ok.1 h
        obtain ⟨-, -, rfl⟩ := condWaitWhile_eq_ok.1 hs
        cases h
        exact ⟨rfl, rfl, rfl⟩
  | icr | itr | ics | ims | imc =>
    cases h
    obtain ⟨pi, intr, hframe⟩ := e82545IntrWrite_frame sc _ value
    rw [hframe]
    exact ⟨rfl, rfl, rfl⟩
  | tdbal | tdt =>
    simp only [e82545WriteReg] at h
    cases h
    split <;> exact ⟨rfl, rfl, rfl⟩
  | ra _ =>
    obtain ⟨u, -, h⟩ := Except.bind_eq_ok.1 h
    cases h
    exact ⟨rfl, rfl, rfl⟩
  | _ =>
    cases h
    exact ⟨rfl, rfl, rfl⟩

variable {baridx : Nat} {offset : U64} {size : Nat} {v : U64}

theorem e82545Write_sparesRx
    (hreg : ∀ reg, e82545BarRegister sc baridx offset size = some reg → reg.sparesRx = true)
    (h : e82545Write fuel sc baridx offset size v = .ok t) :
    t.rxSetup = sc.rxSetup ∧ t.rx.escRDH = sc.rx.escRDH ∧ t.rx.escRDT = sc.rx.escRDT := by
  rcases e82545Write_cases h with ⟨-, w, rfl⟩ | ⟨reg, u, hbar, hu, rfl⟩
  · exact ⟨rfl, rfl, rfl⟩
  · have hspares := e82545WriteReg_sparesRx (hreg reg hbar) hu
    exact hspares

/-- A write to `RDT` moves the tail. -/
theorem e82545Write_rdt (hreg : e82545BarRegister sc baridx offset size = some .rdt)
    (h : e82545Write fuel sc baridx offset size v = .ok t) :
    t.rxSetup = sc.rxSetup ∧ t.rx.escRDH = sc.rx.escRDH ∧ t.rx.escRDT = v.setWidth 16 := by
  rcases e82545Write_cases h with ⟨hnone, w, rfl⟩ | ⟨reg, u, hbar, hu, rfl⟩
  · cases hnone.symm.trans hreg
  · cases hbar.symm.trans hreg
    cases hu
    have hwidth : (v.setWidth 32).setWidth 16 = v.setWidth 16 :=
      BitVec.setWidth_setWidth_of_le v (by decide)
    exact ⟨rfl, rfl, hwidth⟩

end Writes

/-! ## The ring -/

section Slots

variable {s t : E1000} {ctx : Vmctx} {rctl rdlen : U32} {i n : Nat} {f : Frame}

theorem rxSlot_done {d : E1000RxDesc} (hd : s.rxRing i = d) (hstatus : d.status = 0x87#8) :
    rxSlot s i = some ⟨s.mem.readBytes (paddrGuest2host s.sc.escCtx d.bufferAddr) d.length.toNat,
      true⟩ := by
  subst hd
  have hdone : (s.rxRing i).status &&& e1000RxdStatDD ≠ 0 := by
    rw [hstatus]
    decide
  rw [rxSlot, if_pos hdone, hstatus]
  rfl

theorem rxSlot_clear {d : E1000RxDesc} (hd : s.rxRing i = d)
    (hclear : d.status &&& e1000RxdStatDD = 0) : rxSlot s i = none := by
  subst hd
  exact if_neg fun hdone => hdone hclear

/-- Memory outside a buffer does not matter to its slot. -/
theorem rxSlot_congr (hctx : t.sc.escCtx = s.sc.escCtx) (hring : t.rxRing i = s.rxRing i)
    (hmem : (rxSlot s i).isSome = true →
      ∀ x ∈ Mem.addrs (rxAddr s i) (s.rxRing i).length.toNat, t.mem x = s.mem x) :
    rxSlot t i = rxSlot s i := by
  have haddr : rxAddr t i = rxAddr s i := by rw [rxAddr, rxAddr, hctx, hring]
  rw [rxSlot, rxSlot, hring, haddr]
  by_cases hdone : (s.rxRing i).status &&& e1000RxdStatDD ≠ 0
  · have hbytes := hmem (by rw [rxSlot, if_pos hdone]; rfl)
    rw [if_pos hdone, if_pos hdone, Mem.readBytes_eq_map, Mem.readBytes_eq_map,
      List.map_congr_left hbytes]
  · rw [if_neg hdone, if_neg hdone]

/-- What receive and the driver agree on. The ring has `n` descriptors, the driver is at `next`,
the frames `ring` wait for it, and those up to `tail` are free. -/
structure RxShared (ctx : Vmctx) (rctl rdlen : U32) (s : E1000) (next tail : Nat)
    (ring : List Frame) : Prop where
  setup : s.sc.rxSetup = (ctx, true, false, rctl, rdlen)
  slots : OnRing (Received rctl) (rxSlot s) (rdlen.toNat / 16) next ring
  short : ∀ i < rdlen.toNat / 16, ∀ p, rxSlot s i = some p → p.bytes.length < e82545Bufsz rctl
  free : next + ring.length ≤ tail
  room : tail < next + rdlen.toNat / 16
  rdt : s.sc.rx.escRDT.toNat = tail % (rdlen.toNat / 16)
  apart : RxApart s (rdlen.toNat / 16)

/-- Where the device is with the descriptor `head`. -/
def RxHeadAt (s : E1000) (n head tail : Nat) : NetIntr → Prop
  | .reading l => l.size = n ∧ l.head = head % n ∧ l.left = (tail : Int) - head ∧ head < tail ∧
      l.i = 0 ∧ l.vec = [rxAddr s (head % n)]
  | .idle | .ack => s.sc.rx.escRDH.toNat = head % n

theorem rxBuffer_congr (hctx : t.sc.escCtx = s.sc.escCtx) (hrctl : t.sc.rx.escRCTL = s.sc.rx.escRCTL)
    (haddr : (t.rxRing i).bufferAddr = (s.rxRing i).bufferAddr) : rxBuffer t i = rxBuffer s i := by
  rw [rxBuffer, rxBuffer, rxAddr, rxAddr, hctx, hrctl, haddr]

theorem RxApart.congr (h : RxApart s n) (hbuf : ∀ i, rxBuffer t i = rxBuffer s i) : RxApart t n := by
  intro i hi j hj hne
  rw [hbuf, hbuf]
  exact h i hi j hj hne

/-- A packet of one descriptor. -/
theorem rxUpdate_one {ring : Nat → E1000RxDesc} {size head bufsz len : Nat} (hhead : head < size) :
    rxUpdate ring size head bufsz len 1 = Function.update ring head
      { ring head with
        length := BitVec.ofNat 16 (len % bufsz), csum := 0, errors := 0, special := 0
        status := 0x87 } := by
  simp [rxUpdate, Nat.mod_eq_of_lt hhead]

namespace RxShared

variable {next tail : Nat} {ring rest : List Frame}

theorem rctl_eq (h : RxShared ctx rctl rdlen s next tail ring) : s.sc.rx.escRCTL = rctl :=
  congrArg (·.2.2.2.1) h.setup

theorem size_eq (h : RxShared ctx rctl rdlen s next tail ring) : s.sc.rxSize = rdlen.toNat / 16 :=
  congrArg (fun x : Vmctx × Bool × Bool × U32 × U32 => x.2.2.2.2.toNat / 16) h.setup

theorem size_pos (h : RxShared ctx rctl rdlen s next tail ring) : 0 < rdlen.toNat / 16 := by
  have hfree := h.free
  have hroom := h.room
  omega

/-- What lies in the buffers of the ring. -/
theorem mem_buffer (h : RxShared ctx rctl rdlen s next tail ring) (hi : i < rdlen.toNat / 16)
    (hdone : (rxSlot s i).isSome = true) {x : U64}
    (hx : x ∈ Mem.addrs (rxAddr s i) (s.rxRing i).length.toNat) : x ∈ rxBuffer s i := by
  obtain ⟨p, hp⟩ := Option.isSome_iff_exists.1 hdone
  have hshort := h.short i hi p hp
  rw [rxSlot] at hp
  split at hp
  · cases hp
    rw [Mem.length_readBytes] at hshort
    rw [rxBuffer, h.rctl_eq, ← Nat.add_sub_cancel' hshort.le, Mem.addrs_add]
    exact List.mem_append_left _ hx
  · cases hp

/-- Nothing that the two share has changed. -/
theorem congr (h : RxShared ctx rctl rdlen s next tail ring) (hsetup : t.sc.rxSetup = s.sc.rxSetup)
    (hrdt : t.sc.rx.escRDT = s.sc.rx.escRDT) (hring : t.rxRing = s.rxRing)
    (hmem : ∀ i < rdlen.toNat / 16, (rxSlot s i).isSome = true →
      ∀ x ∈ rxBuffer s i, t.mem x = s.mem x) : RxShared ctx rctl rdlen t next tail ring := by
  have hctx : t.sc.escCtx = s.sc.escCtx := congrArg (·.1) hsetup
  have hrctl : t.sc.rx.escRCTL = s.sc.rx.escRCTL := congrArg (·.2.2.2.1) hsetup
  have hslot : ∀ i < rdlen.toNat / 16, rxSlot t i = rxSlot s i := fun i hi =>
    rxSlot_congr hctx (congrFun hring i) fun hdone x hx =>
      hmem i hi hdone x (h.mem_buffer hi hdone hx)
  refine ⟨hsetup.trans h.setup, h.slots.congr hslot, ?_, h.free, h.room, hrdt ▸ h.rdt, ?_⟩
  · intro i hi p hp
    exact h.short i hi p ((hslot i hi).symm.trans hp)
  · exact h.apart.congr fun i => rxBuffer_congr hctx hrctl (by rw [hring])

/-- **The device puts a frame** into the buffer of the first free descriptor. -/
theorem put (h : RxShared ctx rctl rdlen s next tail ring) (hfree : next + ring.length < tail)
    (hfit : RxFits rctl f) {head : Nat} (hhead : head = (next + ring.length) % (rdlen.toNat / 16)) :
    RxShared ctx rctl rdlen
      { s with
        mem := s.mem.writeBytes (rxAddr s head) f.bytes
        rxRing := rxUpdate s.rxRing (rdlen.toNat / 16) head (e82545Bufsz rctl)
          (rxPacketLen rctl f.bytes.length) 1 } next tail (ring ++ [f]) := by
  have hroom := h.room
  have hn := h.size_pos
  have hlt : head < rdlen.toNat / 16 := hhead ▸ Nat.mod_lt _ hn
  obtain ⟨-, hmax⟩ := e82545Bufsz_bounds rctl
  have hlen : f.bytes.length ≤ rxPacketLen rctl f.bytes.length := by
    rw [rxPacketLen]
    split <;> split <;> omega
  have hfit' : rxPacketLen rctl f.bytes.length < e82545Bufsz rctl := hfit
  have hword : (BitVec.ofNat 16 (rxPacketLen rctl f.bytes.length)).toNat =
      rxPacketLen rctl f.bytes.length := by
    rw [BitVec.toNat_ofNat]
    exact Nat.mod_eq_of_lt (by omega)
  obtain ⟨k, hk⟩ := Nat.exists_eq_add_of_le hlen
  rw [rxUpdate_one hlt, Nat.mod_eq_of_lt hfit']
  generalize ht : ({ s with mem := _, rxRing := _ } : E1000) = t
  have hbuf : ∀ i, rxBuffer t i = rxBuffer s i := by
    intro i
    rw [← ht]
    refine rxBuffer_congr rfl rfl ?_
    dsimp only
    by_cases hi : i = head
    · rw [hi, Function.update_self]
    · rw [Function.update_of_ne hi]
  -- the slot that is filled, and the others
  have hself : rxSlot t head = some ⟨t.mem.readBytes (rxAddr s head) (rxPacketLen rctl f.bytes.length),
      true⟩ := by
    have hdesc : t.rxRing head = { s.rxRing head with
        length := BitVec.ofNat 16 (rxPacketLen rctl f.bytes.length), csum := 0, errors := 0
        special := 0, status := 0x87 } := by
      rw [← ht]
      exact Function.update_self _ _ _
    have hctx : t.sc.escCtx = s.sc.escCtx := by rw [← ht]
    rw [rxSlot_done hdesc rfl, hctx]
    dsimp only
    rw [hword]
    rfl
  have hother : ∀ i < rdlen.toNat / 16, i ≠ head → rxSlot t i = rxSlot s i := by
    intro i hi hne
    rw [← ht]
    refine rxSlot_congr rfl (Function.update_of_ne hne _ _) fun hdone x hx => ?_
    refine Mem.writeBytes_of_notMem _ _ _ fun hmem => ?_
    refine h.apart i hi head hlt hne (h.mem_buffer hi hdone hx) ?_
    rw [rxBuffer, h.rctl_eq, ← Nat.add_sub_cancel' (hlen.trans hfit'.le), Mem.addrs_add]
    exact List.mem_append_left _ hmem
  have hreceived : Received rctl f ⟨t.mem.readBytes (rxAddr s head) (rxPacketLen rctl f.bytes.length),
      true⟩ := by
    refine ⟨rfl, ?_, Mem.length_readBytes _ _ _⟩
    have hwritten : t.mem.readBytes (rxAddr s head) f.bytes.length = f.bytes := by
      rw [← ht]
      exact Mem.readBytes_writeBytes _ _ _ (by omega)
    rw [hk, Mem.readBytes_add, hwritten]
    exact List.prefix_append _ _
  refine ⟨by rw [← ht]; exact h.setup, ?_, ?_, ?_, hroom, by rw [← ht]; exact h.rdt, h.apart.congr hbuf⟩
  · refine (h.slots.put (by omega) hreceived).congr fun i hi => ?_
    have hpos : ringPos (rdlen.toNat / 16) next ring.length = head := hhead.symm
    rw [hpos]
    by_cases hne : i = head
    · rw [hne, Function.update_self, hself]
    · rw [Function.update_of_ne hne, hother i hi hne]
  · intro i hi p hp
    by_cases hne : i = head
    · rw [hne, hself] at hp
      cases hp
      rw [Mem.length_readBytes]
      exact hfit'
    · exact h.short i hi p ((hother i hi hne).symm.trans hp)
  · rw [List.length_append]
    exact hfree

/-- **The driver takes a packet**, and puts another buffer in its place. -/
theorem take (h : RxShared ctx rctl rdlen s next tail (f :: rest)) (a : U64)
    (ht : t = { s with
      rxRing := Function.update s.rxRing (next % (rdlen.toNat / 16))
        { s.rxRing (next % (rdlen.toNat / 16)) with bufferAddr := a, status := 0 } })
    (hapart : RxApart t (rdlen.toNat / 16)) :
    RxShared ctx rctl rdlen t (next + 1) tail rest := by
  have hfree := h.free
  have hroom := h.room
  rw [List.length_cons] at hfree
  have hself : rxSlot t (next % (rdlen.toNat / 16)) = none := by
    rw [ht]
    exact rxSlot_clear (Function.update_self _ _ _) (by dsimp only; decide)
  have hother : ∀ i, i ≠ next % (rdlen.toNat / 16) → rxSlot t i = rxSlot s i := by
    intro i hne
    rw [ht]
    exact rxSlot_congr rfl (Function.update_of_ne hne _ _) fun _ _ _ => rfl
  refine ⟨by rw [ht]; exact h.setup, ?_, ?_, by omega, by omega, by rw [ht]; exact h.rdt, hapart⟩
  · refine (h.slots.take (by omega)).congr fun i hi => ?_
    have hpos : ringPos (rdlen.toNat / 16) next 0 = next % (rdlen.toNat / 16) := rfl
    rw [hpos]
    by_cases hne : i = next % (rdlen.toNat / 16)
    · rw [hne, Function.update_self, hself]
    · rw [Function.update_of_ne hne, hother i hne]
  · intro i hi p hp
    by_cases hne : i = next % (rdlen.toNat / 16)
    · rw [hne, hself] at hp
      cases hp
    · exact h.short i hi p ((hother i hne).symm.trans hp)

/-- **The driver moves the tail**, up to the descriptor that it reads next. -/
theorem give (h : RxShared ctx rctl rdlen s next tail ring) {tail' : Nat} (hle : tail ≤ tail')
    (hroom : tail' < next + rdlen.toNat / 16) (hsetup : t.sc.rxSetup = s.sc.rxSetup)
    (hrdt : t.sc.rx.escRDT.toNat = tail' % (rdlen.toNat / 16)) (hring : t.rxRing = s.rxRing)
    (hmem : t.mem = s.mem) : RxShared ctx rctl rdlen t next tail' ring := by
  have hctx : t.sc.escCtx = s.sc.escCtx := congrArg (·.1) hsetup
  have hrctl : t.sc.rx.escRCTL = s.sc.rx.escRCTL := congrArg (·.2.2.2.1) hsetup
  have hslot : ∀ i, rxSlot t i = rxSlot s i := fun i =>
    rxSlot_congr hctx (congrFun hring i) fun _ x _ => congrFun hmem x
  refine ⟨hsetup.trans h.setup, h.slots.congr fun i _ => hslot i, ?_, h.free.trans hle, hroom, hrdt,
    h.apart.congr fun i => rxBuffer_congr hctx hrctl (by rw [hring])⟩
  intro i hi p hp
  exact h.short i hi p ((hslot i).symm.trans hp)

end RxShared

theorem RxHeadAt.congr {head tail : Nat} {at' : NetIntr} (h : RxHeadAt s n head tail at')
    (hrdh : t.sc.rx.escRDH = s.sc.rx.escRDH)
    (haddr : head < tail → rxAddr t (head % n) = rxAddr s (head % n)) :
    RxHeadAt t n head tail at' := by
  cases at' with
  | reading l =>
    obtain ⟨hsize, hhead, hleft, hlt, hi, hvec⟩ := h
    exact ⟨hsize, hhead, hleft, hlt, hi, hvec.trans (congrArg (fun a => [a]) (haddr hlt).symm)⟩
  | idle | ack =>
    rw [RxHeadAt, hrdh]
    exact h

/-! ## The receive loop -/

/-- The loop goes on at a free descriptor, or ends and stores where it is. -/
theorem e82545RxLoop_shared {l : RxLocals} {next tail : Nat} {ring : List Frame}
    (hone : rxMaxpktdesc rctl = 1) (hsize : rdlen.toNat / 16 < 65536)
    (h : RxShared ctx rctl rdlen s next tail ring) (hn : l.size = rdlen.toNat / 16)
    (hhead : l.head = (next + ring.length) % (rdlen.toNat / 16))
    (hleft : l.left = (tail : Int) - (next + ring.length : Nat)) :
    RxShared ctx rctl rdlen (e82545RxLoop s l).1 next tail ring ∧
      RxHeadAt (e82545RxLoop s l).1 (rdlen.toNat / 16) (next + ring.length) tail
        (e82545RxLoop s l).2 := by
  have hsc := h.rctl_eq
  rcases e82545RxLoop_cases s l with ⟨-, hroom, heq⟩ | ⟨-, heq⟩
  · rw [hsc, hone, hleft] at hroom
    rw [heq]
    refine ⟨h, hn, hhead, hleft, by omega, rfl, ?_⟩
    have hlt : l.head < l.size := by
      rw [hhead, hn]
      exact Nat.mod_lt _ h.size_pos
    rw [rxVec, hsc, hone, ← hhead]
    simp [Nat.mod_eq_of_lt hlt, rxAddr]
  · obtain ⟨mtx, pi, intr, hframe⟩ := e82545RxDone_frame s.sc l
    rw [heq, hframe]
    refine ⟨h.congr rfl rfl rfl fun _ _ _ _ _ => rfl, ?_⟩
    have hlt : l.head < 65536 := by
      rw [hhead]
      exact (Nat.mod_lt _ h.size_pos).trans hsize
    rw [RxHeadAt, ← hhead]
    exact (BitVec.toNat_ofNat _ _).trans (Nat.mod_eq_of_lt hlt)

/-- The free descriptors, in terms of the counts. -/
theorem rxLeft_of_counts {head tail : Nat} {rdt : U16} (hle : head ≤ tail) (hlt : tail < head + n)
    (hrdt : rdt.toNat = tail % n) : rxLeft n rdt (head % n) = (tail : Int) - head := by
  have hn : 0 < n := by omega
  have hmod : (n : Int) + rdt.toNat - (head % n : Nat) ≡ tail - head [ZMOD n] := by
    have htail : (rdt.toNat : Int) ≡ tail [ZMOD n] := by
      rw [hrdt]
      push_cast
      exact Int.mod_modEq _ _
    have hhead : ((head % n : Nat) : Int) ≡ head [ZMOD n] := by
      push_cast
      exact Int.mod_modEq _ _
    calc (n : Int) + rdt.toNat - (head % n : Nat)
        ≡ n + tail - head [ZMOD n] := (Int.ModEq.rfl.add htail).sub hhead
      _ = n + (tail - head) := by omega
      _ ≡ tail - head [ZMOD n] := Int.add_modEq_left
  rw [rxLeft_of_lt rdt (Nat.mod_lt _ hn), hmod.eq]
  exact Int.emod_eq_of_lt (by omega) (by omega)

section Events

variable {next tail : Nat} {ring : List Frame}

/-- The interrupt looks at the ring, and starts the loop where there is room. -/
theorem e82545TapCallback_shared {at' : NetIntr} (hone : rxMaxpktdesc rctl = 1)
    (hsize : rdlen.toNat / 16 < 65536) (h : RxShared ctx rctl rdlen s next tail ring)
    (hhead : RxHeadAt s (rdlen.toNat / 16) (next + ring.length) tail .idle)
    (ht : e82545TapCallback s = .ok (t, at')) :
    RxShared ctx rctl rdlen t next tail ring ∧
      RxHeadAt t (rdlen.toNat / 16) (next + ring.length) tail at' := by
  have hfree := h.free
  have hroom := h.room
  rcases e82545TapCallback_cases ht with ⟨-, rfl, rfl⟩ | ⟨-, hloop⟩
  · exact ⟨h.congr rfl rfl rfl fun _ _ _ _ _ => rfl, hhead⟩
  · have henter : RxShared ctx rctl rdlen (rxEnter s) next tail ring :=
      h.congr rfl rfl rfl fun _ _ _ _ _ => rfl
    have hrdh : s.sc.rx.escRDH.toNat = (next + ring.length) % (rdlen.toNat / 16) := hhead
    have hleft : (rxLocals s.sc).left = (tail : Int) - (next + ring.length : Nat) := by
      rw [rxLocals, h.size_eq, hrdh]
      exact rxLeft_of_counts hfree (by omega) h.rdt
    have hend := e82545RxLoop_shared (l := rxLocals s.sc) hone hsize henter h.size_eq hrdh hleft
    rw [hloop] at hend
    exact hend

/-- A frame that fits takes one descriptor. -/
theorem RxFits.descs (hfit : RxFits rctl f) : rxPacketDescs rctl f.bytes.length = 1 := by
  have hfit' : rxPacketLen rctl f.bytes.length < e82545Bufsz rctl := hfit
  have hpos : 0 < rxPacketLen rctl f.bytes.length := by
    rw [rxPacketLen]
    split <;> split <;> omega
  rw [rxPacketDescs, Nat.div_eq_iff (by omega)]
  omega

theorem RxFits.take (hfit : RxFits rctl f) : f.bytes.take (e82545Bufsz rctl) = f.bytes := by
  have hfit' : rxPacketLen rctl f.bytes.length < e82545Bufsz rctl := hfit
  refine List.take_of_length_le (le_trans ?_ hfit'.le)
  rw [rxPacketLen]
  split <;> split <;> omega

/-- The loop goes on behind a packet of one descriptor. -/
theorem e82545RxPacket_one {l : RxLocals} {len : Nat}
    (hpass : rxVlanDrops s.sc s.mem (l.vec.headD 0) = false)
    (hone : rxPacketDescs s.sc.rx.escRCTL len = 1) :
    ∃ cause, e82545RxPacket s l len = e82545RxLoop
      { s with
        rxRing := rxUpdate s.rxRing l.size l.head (e82545Bufsz s.sc.rx.escRCTL)
          (rxPacketLen s.sc.rx.escRCTL len) 1 }
      { l with head := (l.head + 1) % l.size, left := l.left - 1, lim := l.lim - 1, cause := cause } := by
  simp only [e82545RxPacket, hpass, hone, Bool.false_eq_true, if_false]
  exact ⟨_, rfl⟩

/-- A read takes the first frame that waits. -/
theorem e82545RxRead_rest (s : E1000) (l : RxLocals) (frames : List Frame) :
    (e82545RxRead s l frames).2 = frames.tail := by
  cases frames with
  | nil => rfl
  | cons f rest =>
    simp only [e82545RxRead]
    split <;> rfl

/-- **One read** puts the first frame that waits into the ring. -/
theorem e82545RxRead_shared {l : RxLocals} {frames : List Frame} (hone : rxMaxpktdesc rctl = 1)
    (hvfe : rctl &&& e1000RctlVFE = 0) (hsize : rdlen.toNat / 16 < 65536)
    (h : RxShared ctx rctl rdlen s next tail ring)
    (hhead : RxHeadAt s (rdlen.toNat / 16) (next + ring.length) tail (.reading l))
    (hfits : ∀ f ∈ frames, RxFits rctl f) :
    ∃ ring', ring ++ frames = ring' ++ (e82545RxRead s l frames).2 ∧
      RxShared ctx rctl rdlen (e82545RxRead s l frames).1.1 next tail ring' ∧
        RxHeadAt (e82545RxRead s l frames).1.1 (rdlen.toNat / 16) (next + ring'.length) tail
          (e82545RxRead s l frames).1.2 := by
  obtain ⟨hn, hl, hleft, hfree, hi, hvec⟩ := hhead
  have hrctl := h.rctl_eq
  cases frames with
  | nil =>
    obtain ⟨mtx, pi, intr, hframe⟩ := e82545RxDone_frame s.sc l
    rw [e82545RxRead, hframe]
    refine ⟨ring, rfl, h.congr rfl rfl rfl fun _ _ _ _ _ => rfl, ?_⟩
    have hlt : l.head < 65536 := by
      rw [hl]
      exact (Nat.mod_lt _ h.size_pos).trans hsize
    rw [RxHeadAt, ← hl]
    exact (BitVec.toNat_ofNat _ _).trans (Nat.mod_eq_of_lt hlt)
  | cons f rest =>
    have hfit := hfits f List.mem_cons_self
    have hstored : rxStored s l f = { s with
        mem := s.mem.writeBytes (rxAddr s ((next + ring.length) % (rdlen.toNat / 16))) f.bytes } := by
      rw [rxStored, hrctl, hfit.take, hvec, hi]
      rfl
    have hpass : rxVlanDrops (rxStored s l f).sc (rxStored s l f).mem (l.vec.headD 0) = false := by
      have hoff : (rxStored s l f).sc.rx.escRCTL &&& e1000RctlVFE = 0 := by
        rw [hstored, hrctl]
        exact hvfe
      simp [rxVlanDrops, hoff]
    have hdescs : rxPacketDescs (rxStored s l f).sc.rx.escRCTL f.bytes.length = 1 := by
      rw [hstored, hrctl]
      exact hfit.descs
    obtain ⟨cause, hpacket⟩ := e82545RxPacket_one hpass hdescs
    rw [e82545RxRead_rest, List.tail_cons, e82545RxRead_cons, if_pos (by rw [hrctl, hone, hi]), hrctl, hfit.take, hpacket, hstored, hrctl,
      hn, hl]
    have hput := h.put hfree hfit rfl
    refine ⟨ring ++ [f], by rw [List.append_assoc]; rfl, ?_⟩
    refine e82545RxLoop_shared hone hsize hput rfl ?_ ?_
    · dsimp only
      rw [Nat.mod_add_mod, List.length_append, ← Nat.add_assoc]
      rfl
    · dsimp only
      rw [hleft, List.length_append, List.length_singleton]
      omega

end Events

end Slots

/-! ## Runs -/

section Runs

variable {b : Build} {ctx : Vmctx} {rctl rdlen : U32} {s t : RxDriver} {ring : List Frame} {e : RxEvent}

/-- The frames in the ring, in every state of a run. -/
structure RxLinked (ctx : Vmctx) (rctl rdlen : U32) (s : RxDriver) (ring : List Frame) : Prop where
  shared : RxShared ctx rctl rdlen s.sys.dev s.next s.tail ring
  fits : ∀ f ∈ s.sys.waiting, RxFits rctl f
  head : RxHeadAt s.sys.dev (rdlen.toNat / 16) (s.next + ring.length) s.tail s.sys.netIntr

/-- What does not touch receive. -/
theorem RxLinked.congr (h : RxLinked ctx rctl rdlen s ring)
    (hsetup : t.sys.dev.sc.rxSetup = s.sys.dev.sc.rxSetup)
    (hrdh : t.sys.dev.sc.rx.escRDH = s.sys.dev.sc.rx.escRDH)
    (hrdt : t.sys.dev.sc.rx.escRDT = s.sys.dev.sc.rx.escRDT) (hring : t.sys.dev.rxRing = s.sys.dev.rxRing)
    (hmem : ∀ i < rdlen.toNat / 16, (rxSlot s.sys.dev i).isSome = true →
      ∀ x ∈ rxBuffer s.sys.dev i, t.sys.dev.mem x = s.sys.dev.mem x)
    (hat : t.sys.netIntr = s.sys.netIntr) (hfits : ∀ f ∈ t.sys.waiting, RxFits rctl f)
    (hnext : t.next = s.next) (htail : t.tail = s.tail) : RxLinked ctx rctl rdlen t ring := by
  have hctx : t.sys.dev.sc.escCtx = s.sys.dev.sc.escCtx := congrArg (·.1) hsetup
  refine ⟨?_, hfits, ?_⟩
  · rw [hnext, htail]
    exact h.shared.congr hsetup hrdt hring hmem
  · rw [hnext, htail, hat]
    exact h.head.congr hrdh fun _ => by rw [rxAddr, rxAddr, hctx, hring]

/-- **One event of the device.** -/
theorem RxLinked.device {t : E1000Sys} {e : E1000Event} (hone : rxMaxpktdesc rctl = 1)
    (hvfe : rctl &&& e1000RctlVFE = 0) (hsize : rdlen.toNat / 16 < 65536)
    (h : RxLinked ctx rctl rdlen s ring) (hspares : e.SparesRx s.sys.dev.sc)
    (hstep : E1000Step b s.sys e t) :
    ∃ ring', Run (QueueStep (Received rctl)) (ring ++ s.sys.waiting) (RxEvent.device e).queued
        (ring' ++ t.waiting) ∧ RxLinked ctx rctl rdlen { s with sys := t } ring' := by
  have hrctl := h.shared.rctl_eq
  -- what leaves the frames where they are
  have hsame : ∀ {dev : E1000} {handled pollRan : Bool},
      dev.sc.rxSetup = s.sys.dev.sc.rxSetup → dev.sc.rx.escRDH = s.sys.dev.sc.rx.escRDH →
      dev.sc.rx.escRDT = s.sys.dev.sc.rx.escRDT → dev.rxRing = s.sys.dev.rxRing →
      dev.mem = s.sys.dev.mem →
      RxLinked ctx rctl rdlen
        { s with sys := { s.sys with dev := dev, handled := handled, pollRan := pollRan } } ring :=
    fun hsetup hrdh hrdt hring hmem =>
      h.congr hsetup hrdh hrdt hring (fun _ _ _ x _ => congrFun hmem x) rfl h.fits rfl rfl
  cases hstep with
  | write fuel baridx offset size value _ _ hw =>
    obtain ⟨hsetup, hrdh, hrdt⟩ := e82545Write_sparesRx hspares hw
    exact ⟨ring, .nil _, hsame hsetup hrdh hrdt rfl rfl⟩
  | read baridx offset size _ _ hr =>
    obtain ⟨mtx, pi, intr, rfl⟩ := e82545Read_frame hr
    exact ⟨ring, .nil _, hsame rfl rfl rfl rfl rfl⟩
  | poll fuel _ hp =>
    rcases e82545TxPoll_cases hp with ⟨-, rfl⟩ | ⟨-, x, head, rhead, tdwb, any, mtx, pi, intr, -, rfl⟩
    · exact ⟨ring, .nil _, hsame rfl rfl rfl rfl rfl⟩
    · exact ⟨ring, .nil _, hsame rfl rfl rfl rfl rfl⟩
  | guest => exact hspares.elim
  | itr _ _ =>
    obtain ⟨mtx, pi, intr, hframe⟩ := e82545ItrCallback_frame s.sys.dev.sc
    rw [hframe]
    exact ⟨ring, .nil _, hsame rfl rfl rfl rfl rfl⟩
  | arrive f =>
    refine ⟨ring, ?_, h.congr rfl rfl rfl rfl (fun _ _ _ _ _ => rfl) rfl ?_ rfl rfl⟩
    · rw [← List.append_assoc]
      exact .single (.put f)
    · intro g hg
      rcases List.mem_append.1 hg with hg | hg
      · exact h.fits g hg
      · rw [List.mem_singleton.1 hg, ← hrctl]
        exact hspares
  | take hidle _ ht =>
    have hhead := h.head
    rw [hidle] at hhead
    obtain ⟨hshared, hhead'⟩ := e82545TapCallback_shared hone hsize h.shared hhead ht
    exact ⟨ring, .nil _, hshared, h.fits, hhead'⟩
  | rx l hl =>
    have hhead := h.head
    rw [hl] at hhead
    obtain ⟨ring', heq, hshared, hhead'⟩ :=
      e82545RxRead_shared hone hvfe hsize h.shared hhead h.fits
    refine ⟨ring', ?_, hshared, ?_, hhead'⟩
    · rw [heq]
      exact .nil _
    · intro f hf
      refine h.fits f (List.mem_of_mem_tail ?_)
      rw [← e82545RxRead_rest s.sys.dev l]
      exact hf
  | ack hack =>
    have hhead := h.head
    rw [hack] at hhead
    exact ⟨ring, .nil _, h.shared, h.fits, hhead⟩

/-- **One event** is what the queue sees of it. -/
theorem RxStep.queued (hone : rxMaxpktdesc rctl = 1) (hvfe : rctl &&& e1000RctlVFE = 0)
    (hsize : rdlen.toNat / 16 < 65536) (h : RxLinked ctx rctl rdlen s ring) (hstep : RxStep b s e t) :
    ∃ ring', Run (QueueStep (Received rctl)) (ring ++ s.sys.waiting) e.queued
        (ring' ++ t.sys.waiting) ∧ RxLinked ctx rctl rdlen t ring' := by
  have hn := h.shared.size_eq
  cases hstep with
  | device e hspares hstep => exact h.device hone hvfe hsize hspares hstep
  | give tail baridx offset size value hreg hle hroom hvalue hstep =>
    rw [hn] at hroom hvalue
    cases hstep with
    | write fuel _ _ _ _ hidle _ hw =>
      obtain ⟨hsetup, hrdh, hrdt⟩ := e82545Write_rdt hreg hw
      have hhead := h.head
      rw [hidle] at hhead
      refine ⟨ring, .nil _, ?_, h.fits, ?_⟩
      · refine h.shared.give hle hroom hsetup ?_ rfl rfl
        rw [hrdt]
        exact hvalue
      · rw [hidle]
        exact (congrArg BitVec.toNat hrdh).trans hhead
  | take a hslot hapart =>
    rw [hn] at hslot hapart
    obtain ⟨f, rest, rfl, hreceived⟩ := h.shared.slots.first h.shared.size_pos hslot
    have htaken := h.shared.take a (by rw [RxDriver.taken, hn]) hapart
    have hcount : (s.taken a).next + rest.length = s.next + (f :: rest).length := by
      rw [List.length_cons, Nat.add_comm rest.length, ← Nat.add_assoc]
      rfl
    refine ⟨rest, .single (.take hreceived), htaken, h.fits, ?_⟩
    rw [hcount]
    refine h.head.congr rfl fun hlt => ?_
    -- the device is behind what it has given, so at another descriptor
    have hroom := h.shared.room
    have hne : (s.next + (f :: rest).length) % (rdlen.toNat / 16) ≠ s.next % s.sys.dev.sc.rxSize := by
      rw [hn]
      intro he
      have hoff := (@ringPos_inj (rdlen.toNat / 16) s.next (f :: rest).length 0 (by omega)
        h.shared.size_pos).1 he
      cases hoff
    rw [rxAddr, rxAddr, RxDriver.taken]
    dsimp only
    rw [Function.update_of_ne hne]
  | store txRing mem hkept =>
    rw [hn] at hkept
    exact ⟨ring, .nil _, h.congr rfl rfl rfl rfl hkept rfl h.fits rfl rfl⟩

/-- The driver has set up receive: a packet fits into a buffer, nothing filters it, the ring is
empty, and no two buffers overlap. -/
structure RxReady (s : RxDriver) : Prop where
  enabled : s.sys.dev.sc.rx.escRxEnabled = true
  loopback : s.sys.dev.sc.rx.escRxLoopback = false
  one : rxMaxpktdesc s.sys.dev.sc.rx.escRCTL = 1
  unfiltered : s.sys.dev.sc.rx.escRCTL &&& e1000RctlVFE = 0
  size : s.sys.dev.sc.rxSize < 65536
  idle : s.sys.netIntr = .idle
  head : s.sys.dev.sc.rx.escRDH.toNat = s.next % s.sys.dev.sc.rxSize
  rdt : s.sys.dev.sc.rx.escRDT.toNat = s.tail % s.sys.dev.sc.rxSize
  free : s.next ≤ s.tail
  room : s.tail < s.next + s.sys.dev.sc.rxSize
  clear : ∀ i < s.sys.dev.sc.rxSize, (s.sys.dev.rxRing i).status &&& e1000RxdStatDD = 0
  apart : RxApart s.sys.dev s.sys.dev.sc.rxSize
  fits : ∀ f ∈ s.sys.waiting, RxFits s.sys.dev.sc.rx.escRCTL f

theorem RxReady.linked (h : RxReady s) :
    RxLinked s.sys.dev.sc.escCtx s.sys.dev.sc.rx.escRCTL s.sys.dev.sc.rx.escRDLEN s [] := by
  have hclear : ∀ i < s.sys.dev.sc.rxSize, rxSlot s.sys.dev i = none := fun i hi =>
    rxSlot_clear rfl (h.clear i hi)
  refine ⟨⟨?_, .empty hclear, ?_, h.free, h.room, h.rdt, h.apart⟩, h.fits, ?_⟩
  · rw [E82545Softc.rxSetup, h.enabled, h.loopback]
  · intro i hi p hp
    cases (hclear i hi).symm.trans hp
  · rw [h.idle]
    exact h.head

end Runs

/-! ## A frame is taken -/

end DeviceModel
