import DeviceModel.Library.Runs
import DeviceModel.E82545.Receive

/-!
# The e1000 under `dm_loop`

`dm_loop` of `src/device-model.c` handles a guest request if there is one and then
polls the devices; the receive interrupt runs in between. So after a request a poll
comes before the next request, and neither a request nor a poll happens while
`net_intr` runs. Frames may arrive at any time, and the guest may store to its memory
at any time.
-/

namespace DeviceModel

/-- The e1000, the virtio queue in front of it, and where `dm_loop` and `net_intr` are. -/
structure E1000Sys where
  dev : E1000
  /-- the frames in the virtio queue -/
  waiting : List Frame
  /-- the virtio interrupt is pending -/
  irq : Bool
  netIntr : NetIntr
  /-- a request has been handled and not yet polled after -/
  handled : Bool
  /-- the last `e1000_poll` found descriptors to transmit -/
  pollRan : Bool

/-- What can happen. -/
inductive E1000Event : Type where
  /-- a register write request -/
  | write (baridx : Nat) (offset : U64) (size : Nat) (value : U64)
  /-- a register read request -/
  | read (baridx : Nat) (offset : U64) (size : Nat)
  /-- `e1000_poll` -/
  | poll
  /-- the guest stores to its memory -/
  | guest
  /-- the throttle timer fires -/
  | itr
  /-- a frame arrives and raises the virtio interrupt -/
  | arrive (f : Frame)
  /-- `net_intr` starts -/
  | take
  /-- one call of `virtionet_read` in the receive loop -/
  | rx
  /-- `virtionet_handle_interrupt` -/
  | ack

/-- The guard of `e82545_tx_poll`. -/
def e82545TxWork (sc : E82545Softc) : Bool :=
  sc.tx.escTxEnabled && sc.tx.escTDHr != sc.tx.escTDT

/-- One event. An access or a poll that does not return has no next state. -/
inductive E1000Step (b : Build) : E1000Sys → E1000Event → E1000Sys → Prop where
  | write {s : E1000Sys} {sc : E82545Softc} (fuel baridx : Nat) (offset : U64) (size : Nat)
      (value : U64) : s.netIntr = .idle → s.handled = false →
      e82545Write fuel s.dev.sc baridx offset size value = .ok sc →
      E1000Step b s (.write baridx offset size value)
        { s with dev := { s.dev with sc := sc }, handled := true }
  | read {s : E1000Sys} {sc : E82545Softc} {v : U32} (baridx : Nat) (offset : U64) (size : Nat) :
      s.netIntr = .idle → s.handled = false →
      e82545Read s.dev.sc baridx offset size = .ok (sc, v) →
      E1000Step b s (.read baridx offset size)
        { s with dev := { s.dev with sc := sc }, handled := true }
  | poll {s : E1000Sys} {dev : E1000} (fuel : Nat) : s.netIntr = .idle →
      e1000Poll b fuel s.dev = .ok dev →
      E1000Step b s .poll
        { s with dev := dev, handled := false, pollRan := e82545TxWork s.dev.sc }
  | guest {s : E1000Sys} (txRing : Nat → E1000TxUdesc) (rxRing : Nat → E1000RxDesc) (mem : Mem) :
      E1000Step b s .guest { s with dev := { s.dev with txRing := txRing, rxRing := rxRing,
                                                          mem := mem } }
  | itr {s : E1000Sys} : s.netIntr = .idle → s.dev.sc.intr.mevpitrCallout = true →
      E1000Step b s .itr { s with dev := { s.dev with sc := e82545ItrCallback s.dev.sc } }
  | arrive {s : E1000Sys} (f : Frame) :
      E1000Step b s (.arrive f) { s with waiting := s.waiting ++ [f], irq := true }
  | take {s : E1000Sys} {dev : E1000} {at' : NetIntr} : s.netIntr = .idle → s.irq = true →
      e82545TapCallback s.dev = .ok (dev, at') →
      E1000Step b s .take { s with dev := dev, netIntr := at' }
  | rx {s : E1000Sys} (l : RxLocals) : s.netIntr = .reading l →
      E1000Step b s .rx
        { s with
          dev := (e82545RxRead s.dev l s.waiting).1.1
          netIntr := (e82545RxRead s.dev l s.waiting).1.2
          waiting := (e82545RxRead s.dev l s.waiting).2 }
  | ack {s : E1000Sys} : s.netIntr = .ack →
      E1000Step b s .ack { s with netIntr := .idle, irq := false }

/-- After `e82545_init` and `virtio_init`. The guest's memory is arbitrary. -/
def E1000Initial (s : E1000Sys) : Prop :=
  (∃ ctx, s.dev.sc = e82545Init ctx) ∧ s.waiting = [] ∧ s.irq = false ∧ s.netIntr = .idle ∧
    s.handled = false ∧ s.pollRan = false

/-! ## Runs on concrete inputs -/

/-- After `e82545_init`, with one descriptor that ends a packet in every slot. -/
def e1000Start : E1000Sys where
  dev := { sc := e82545Init ⟨0⟩, txRing := fun _ => ⟨0, 0, 0x03000000, 0, 0, 0⟩
           rxRing := fun _ => ⟨0, 0, 0, 0, 0, 0⟩, mem := fun _ => 0, wire := [] }
  waiting := []
  irq := false
  netIntr := .idle
  handled := false
  pollRan := false

theorem e1000Start_initial : E1000Initial e1000Start := ⟨⟨⟨0⟩, rfl⟩, rfl, rfl, rfl, rfl, rfl⟩

/-- The state after a write to the register BAR. -/
def writeReg (s : E1000Sys) (offset value : U64) : E1000Sys :=
  { s with
    dev := { s.dev with sc := outcome (e82545Write 1 s.dev.sc 0 offset 4 value) s.dev.sc }
    handled := true }

/-- A write to the register BAR followed by a poll. -/
def writePoll (s : E1000Sys) (offset value : U64) : E1000Sys :=
  { writeReg s offset value with
    dev := outcome (e1000Poll .integer 3 (writeReg s offset value).dev) s.dev
    handled := false
    pollRan := e82545TxWork (writeReg s offset value).dev.sc }

theorem writePoll_reaches {ok : E1000Sys → E1000Event → Prop} {s : E1000Sys}
    (offset value : U64) (h : Reaches (Guarded (E1000Step .integer) ok) E1000Initial s)
    (hidle : s.netIntr = .idle) (hhandled : s.handled = false)
    (hw : (e82545Write 1 s.dev.sc 0 offset 4 value).isOk = true)
    (hp : (e1000Poll .integer 3 (writeReg s offset value).dev).isOk = true)
    (hokw : ok s (.write 0 offset 4 value)) (hokp : ok (writeReg s offset value) .poll) :
    Reaches (Guarded (E1000Step .integer) ok) E1000Initial (writePoll s offset value) :=
  (h.next ⟨.write 1 0 offset 4 value hidle hhandled (eq_ok_outcome hw), hokw⟩).next
    ⟨.poll 3 hidle (eq_ok_outcome hp), hokp⟩

end DeviceModel
