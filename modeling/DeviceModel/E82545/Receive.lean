import DeviceModel.E82545.Transmit

/-!
# e1000 receive

`net_intr` of `src/virtio.c` runs `e82545_tap_callback`, which takes frames from the
virtio queue as long as the ring has room, and then acknowledges the interrupt. The
queue is outside the repository: `virtionet_read` takes the first waiting frame, or
returns 0.

A frame may arrive between any two calls of `virtionet_read`, so the receive loop is
cut there: `NetIntr` says where `net_intr` is.
-/

namespace DeviceModel

/-- A frame in the virtio queue. -/
structure Frame where
  bytes : List U8
  nonempty : bytes ≠ []

/-- `e82545_bufsz`. -/
def e82545Bufsz (rctl : U32) : Nat :=
  match (rctl &&& (e1000RctlBSEX ||| e1000RctlSZ_256)).toNat with
  | 0x00000000 => 2048
  | 0x00010000 => 1024
  | 0x00020000 => 512
  | 0x00030000 => 256
  | 0x02010000 => 16384
  | 0x02020000 => 8192
  | 0x02030000 => 4096
  | _ => 256

/-- `maxpktsz`. -/
def rxMaxpktsz (rctl : U32) : Nat := if rctl &&& e1000RctlLPE ≠ 0 then 16384 else 1522

/-- `maxpktdesc`: the descriptors a packet may take. -/
def rxMaxpktdesc (rctl : U32) : Nat :=
  (rxMaxpktsz rctl + e82545Bufsz rctl - 1) / e82545Bufsz rctl

/-- `(size + sc->esc_RDT - head) % size`, with C's remainder. -/
def rxLeft (size : Nat) (rdt : U16) (head : Nat) : Int :=
  Int.tmod ((size : Int) + rdt.toNat - head) size

/-- The locals of `e82545_tap_callback` while it waits for `virtionet_read` to fill
buffer `i` of `vec`. -/
structure RxLocals where
  size : Nat
  head : Nat
  left : Int
  lim : Nat
  cause : U32
  vec : List U64
  i : Nat
  deriving DecidableEq, Repr

/-- Where `net_intr` is. -/
inductive NetIntr : Type where
  | idle
  /-- in the receive loop, before a call of `virtionet_read` -/
  | reading (l : RxLocals)
  /-- past the receive loop, before `virtionet_handle_interrupt` -/
  | ack
  deriving DecidableEq, Repr

/-- `net_intr` is in the receive loop. -/
def NetIntr.inLoop : NetIntr → Bool
  | reading _ => true
  | _ => false

/-- Whether `e82545_tap_callback` enters its loop. -/
def e82545RxOpen (sc : E82545Softc) : Bool :=
  sc.rx.escRxEnabled && !sc.rx.escRxLoopback && sc.rxSize != 0 &&
    decide ((rxMaxpktdesc sc.rx.escRCTL : Int) ≤ rxLeft sc.rxSize sc.rx.escRDT sc.rx.escRDH.toNat)

/-- The causes at the `done:` label. -/
def rxDoneCause (sc : E82545Softc) (l : RxLocals) : U32 :=
  let left := rxLeft l.size sc.rx.escRDT l.head
  let thresh := l.size >>> (((sc.rx.escRCTL >>> 8) &&& 3#32).toNat + 1)
  if left < thresh then l.cause ||| e1000IcrRXDMT0 else l.cause

/-- Take the mutex back and store where the loop has come to. -/
def rxStore (sc : E82545Softc) (l : RxLocals) : E82545Softc :=
  { sc.lockMtx with rx.escRxActive := false, rx.escRDH := BitVec.ofNat 16 l.head }

/-- From the `done:` label of `e82545_tap_callback` to its end. -/
def e82545RxDone (sc : E82545Softc) (l : RxLocals) : E82545Softc :=
  (e82545RaiseCause (rxStore sc l) (rxDoneCause (rxStore sc l) l)).unlockMtx

/-- The buffers of the next packet: "Grab rx descriptor pointed to by the head pointer". -/
def rxVec (s : E1000) (size head : Nat) : List U64 :=
  (List.range (rxMaxpktdesc s.sc.rx.escRCTL)).map fun i =>
    paddrGuest2host s.sc.escCtx (s.rxRing ((head + i) % size)).bufferAddr

/-- The loop condition, and the way to the first `virtionet_read` of a packet. -/
def e82545RxLoop (s : E1000) (l : RxLocals) : E1000 × NetIntr :=
  if 0 < l.lim ∧ (rxMaxpktdesc s.sc.rx.escRCTL : Int) ≤ l.left then
    (s, .reading { l with vec := rxVec s l.size l.head, i := 0 })
  else ({ s with sc := e82545RxDone s.sc l }, .ack)

/-- Set the active flag and release the mutex. -/
def rxEnter (s : E1000) : E1000 :=
  { s with sc := { s.sc.lockMtx with rx.escRxActive := true }.unlockMtx }

/-- The locals before the loop. -/
def rxLocals (sc : E82545Softc) : RxLocals where
  size := sc.rxSize
  head := sc.rx.escRDH.toNat
  left := rxLeft sc.rxSize sc.rx.escRDT sc.rx.escRDH.toNat
  lim := sc.rxSize / 4
  cause := 0
  vec := []
  i := 0

/-- Lock and unlock, where the function has nothing to do. -/
def rxSkip (s : E1000) : E1000 := { s with sc := s.sc.lockMtx.unlockMtx }

/-- `e82545_tap_callback` up to its first `virtionet_read`. -/
def e82545TapCallback (s : E1000) : Except Stop (E1000 × NetIntr) :=
  if !s.sc.rx.escRxEnabled || s.sc.rx.escRxLoopback then .ok (rxSkip s, .ack)
  else if s.sc.rxSize = 0 then .error .undefined
  else if (rxLocals s.sc).left < rxMaxpktdesc s.sc.rx.escRCTL then .ok (rxSkip s, .ack)
  else .ok (e82545RxLoop (rxEnter s) (rxLocals s.sc))

/-- The length of a packet after padding and the checksum. -/
def rxPacketLen (rctl : U32) (len : Nat) : Nat :=
  let len := if len < 60 then 60 else len
  if rctl &&& e1000RctlSECRC = 0 then len + 4 else len

/-- The descriptors that a packet of `len` bytes takes. -/
def rxPacketDescs (rctl : U32) (len : Nat) : Nat :=
  (rxPacketLen rctl len + e82545Bufsz rctl - 1) / e82545Bufsz rctl

/-- A half word of guest memory in the order of the network. -/
def ntohsAt (mem : Mem) (a : U64) : U16 := mem a ++ mem (a + 1)

/-- Whether the VLAN filter drops the packet in the buffer. -/
def rxVlanDrops (sc : E82545Softc) (mem : Mem) (buf : U64) : Bool :=
  let tag := ntohsAt mem (buf + 14) &&& 0x0fff#16
  (sc.rx.escRCTL &&& e1000RctlVFE) != 0 &&
    (ntohsAt mem (buf + 12)).setWidth 32 == sc.gen.escVET &&
    (sc.accept.escFvlan (tag >>> 5).toNat &&& (1#32 <<< (tag &&& 0x1f#16).toNat)) == 0

/-- "Update all consumed descriptors", `n` of them from `head` on. -/
def rxUpdate (ring : Nat → E1000RxDesc) (size head bufsz len n : Nat) : Nat → E1000RxDesc :=
  let inner := (List.range (n - 1)).foldl (fun ring i =>
    Function.update ring ((head + i) % size)
      { ring ((head + i) % size) with
        length := BitVec.ofNat 16 bufsz, csum := 0, errors := 0, special := 0, status := 0x01 }) ring
  Function.update inner ((head + (n - 1)) % size)
    { inner ((head + (n - 1)) % size) with
      length := BitVec.ofNat 16 (len % bufsz), csum := 0, errors := 0, special := 0,
      status := 0x87 }

/-- The rest of the loop body for a packet of which `virtionet_read` has returned `len`
bytes. A packet that the VLAN filter drops takes no descriptor. -/
def e82545RxPacket (s : E1000) (l : RxLocals) (len : Nat) : E1000 × NetIntr :=
  let rctl := s.sc.rx.escRCTL
  let n := rxPacketDescs rctl len
  let len := rxPacketLen rctl len
  if rxVlanDrops s.sc s.mem (l.vec.headD 0) then e82545RxLoop s l
  else
    let cause :=
      if len ≤ s.sc.rx.escRSRPD.toNat then l.cause ||| e1000IcrSRPD ||| e1000IcrRXT0
      else l.cause ||| e1000IcrRXT0
    e82545RxLoop
      { s with rxRing := rxUpdate s.rxRing l.size l.head (e82545Bufsz rctl) len n }
      { l with head := (l.head + n) % l.size, left := l.left - n, lim := l.lim - n
               cause := cause }

/-- One call of `virtionet_read` in `dm_process_rx`, and what follows up to the next
one. The queue is returned without the frame taken. -/
def e82545RxRead (s : E1000) (l : RxLocals) : List Frame → (E1000 × NetIntr) × List Frame
  | [] => (({ s with sc := e82545RxDone s.sc l }, .ack), [])
  | f :: rest =>
    let data := f.bytes.take (e82545Bufsz s.sc.rx.escRCTL)
    let s := { s with mem := s.mem.writeBytes (l.vec.getD l.i 0) data }
    if rxMaxpktdesc s.sc.rx.escRCTL ≤ l.i + 1 then (e82545RxPacket s l data.length, rest)
    else ((s, .reading { l with i := l.i + 1 }), rest)

/-! ## What the receive functions leave alone -/

theorem e82545RxDone_frame (sc : E82545Softc) (l : RxLocals) :
    ∃ mtx pi intr, e82545RxDone sc l =
      { sc with escMtx := mtx, escPi := pi, intr := intr
                rx.escRxActive := false, rx.escRDH := BitVec.ofNat 16 l.head } := by
  obtain ⟨pi, intr, hframe⟩ :=
    e82545RaiseCause_frame (rxStore sc l) (rxDoneCause (rxStore sc l) l)
  rw [e82545RxDone, hframe]
  exact ⟨_, pi, intr, rfl⟩

/-- The two ways through the start of `e82545_tap_callback`. -/
theorem e82545TapCallback_cases {s t : E1000} {at' : NetIntr}
    (h : e82545TapCallback s = .ok (t, at')) :
    (e82545RxOpen s.sc = false ∧ t = rxSkip s ∧ at' = .ack) ∨
    (e82545RxOpen s.sc = true ∧ e82545RxLoop (rxEnter s) (rxLocals s.sc) = (t, at')) := by
  unfold e82545TapCallback at h
  split at h
  · next hoff =>
    cases h
    refine .inl ⟨?_, rfl, rfl⟩
    rw [Bool.or_eq_true, Bool.not_eq_true'] at hoff
    rcases hoff with hoff | hoff <;> simp [e82545RxOpen, hoff]
  · next hon =>
    split at h
    · cases h
    · next hsize =>
      split at h
      · next hleft =>
        cases h
        refine .inl ⟨?_, rfl, rfl⟩
        have hfull : decide ((rxMaxpktdesc s.sc.rx.escRCTL : Int) ≤
            rxLeft s.sc.rxSize s.sc.rx.escRDT s.sc.rx.escRDH.toNat) = false :=
          decide_eq_false (Int.not_le.2 hleft)
        rw [e82545RxOpen, hfull, Bool.and_false]
      · next hleft =>
        refine .inr ⟨?_, Except.ok.inj h⟩
        have hroom : (rxMaxpktdesc s.sc.rx.escRCTL : Int) ≤
            rxLeft s.sc.rxSize s.sc.rx.escRDT s.sc.rx.escRDH.toNat := Int.not_lt.1 hleft
        rw [Bool.or_eq_true, Bool.not_eq_true', not_or] at hon
        simp [e82545RxOpen, hsize, hroom, hon]

/-- The two ways from the loop condition. -/
theorem e82545RxLoop_cases (s : E1000) (l : RxLocals) :
    (0 < l.lim ∧ (rxMaxpktdesc s.sc.rx.escRCTL : Int) ≤ l.left ∧
      e82545RxLoop s l = (s, .reading { l with vec := rxVec s l.size l.head, i := 0 })) ∨
    (¬ (0 < l.lim ∧ (rxMaxpktdesc s.sc.rx.escRCTL : Int) ≤ l.left) ∧
      e82545RxLoop s l = ({ s with sc := e82545RxDone s.sc l }, .ack)) := by
  by_cases hgo : 0 < l.lim ∧ (rxMaxpktdesc s.sc.rx.escRCTL : Int) ≤ l.left
  · exact .inl ⟨hgo.1, hgo.2, if_pos hgo⟩
  · exact .inr ⟨hgo, if_neg hgo⟩

end DeviceModel
