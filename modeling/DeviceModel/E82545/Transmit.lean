import DeviceModel.E82545.Regs

/-!
# e1000 transmit

`e82545_transmit` reads descriptors from the ring until one ends a packet, builds
the packet's I/O vectors, makes a writable copy of the headers, inserts the VLAN
tag, fills in checksums or cuts the packet into TCP segments, hands the frames to
`dm_process_tx` and writes the status back. A packet whose end is not yet published
is left for later.

The descriptor ring is indexed as the source indexes `esc_txdesc`; packet buffers are
read from memory by address. Frames are recorded in the order they reach
`virtionet_write`. A read or write outside the header copy is `Stop.undefined`.
-/

namespace DeviceModel

/-! ## Descriptor bits -/

def e1000TxdCmdEOP : U32 := 0x01000000#32
def e1000TxdCmdIFCS : U32 := 0x02000000#32
def e1000TxdCmdIC : U32 := 0x04000000#32
def e1000TxdCmdRS : U32 := 0x08000000#32
def e1000TxdCmdDEXT : U32 := 0x20000000#32
def e1000TxdCmdVLE : U32 := 0x40000000#32
def e1000TxdCmdTCP : U32 := 0x01000000#32
def e1000TxdCmdIP : U32 := 0x02000000#32
def e1000TxdCmdTSE : U32 := 0x04000000#32
def e1000TxdMask : U32 := e1000TxdCmdDEXT ||| 0x00F00000#32
def e1000TxdTypL : U32 := 0
def e1000TxdTypC : U32 := e1000TxdCmdDEXT
def e1000TxdTypD : U32 := e1000TxdCmdDEXT ||| 0x00100000#32
def e1000TxdPoptsIXSM : U8 := 0x01#8
def e1000TxdPoptsTXSM : U8 := 0x02#8
def e1000TxdStatDD : U32 := 0x00000001#32
def i82545MaxTxsegs : Nat := 64
def virtioMaxBuf : Nat := 131072

/-- `e82545_txdesc_type`. -/
def e82545TxdescType (lower : U32) : U32 :=
  if lower &&& e1000TxdCmdDEXT ≠ 0 then lower &&& e1000TxdMask else 0

/-- The byte of a word at bit `i`. -/
def byteAt (w : U32) (i : Nat) : U8 := w.extractLsb' i 8

/-- The half word of a word at bit `i`. -/
def halfAt (w : U32) (i : Nat) : U16 := w.extractLsb' i 16

namespace E1000TxUdesc

variable (b : Build) (d : E1000TxUdesc)

/-- The type of the descriptor. -/
def dtype : U32 := e82545TxdescType (d.lower b)

/-- The descriptor ends a packet. -/
def eop : Bool := (d.lower b &&& e1000TxdCmdEOP) != 0

/-- The descriptor asks for a status report. -/
def rs : Bool := (d.lower b &&& e1000TxdCmdRS) != 0

/-- `dsc->td.upper.data |= htole32(E1000_TXD_STAT_DD)`. -/
def setDD : E1000TxUdesc := d.setUpper b (d.upper b ||| e1000TxdStatDD)

end E1000TxUdesc

/-! ## I/O vectors and checksums -/

/-- `struct iovec` of a packet to send: guest memory, or a host buffer with its
contents. -/
inductive TxIovec : Type where
  | guest (base : U64) (len : Nat)
  | host (bytes : List U8)
  deriving DecidableEq, Repr

namespace TxIovec

/-- `iov_len`. -/
def len : TxIovec → Nat
  | guest _ len => len
  | host bytes => bytes.length

/-- The `n` bytes at offset `off`. -/
def read (mem : Mem) (v : TxIovec) (off n : Nat) : List U8 :=
  match v with
  | guest base _ => mem.readBytes (base + BitVec.ofNat 64 off) n
  | host bytes => (bytes.drop off).take n

/-- Skip the first `n` bytes. -/
def advance (v : TxIovec) (n : Nat) : TxIovec :=
  match v with
  | guest base len => guest (base + BitVec.ofNat 64 n) (len - n)
  | host bytes => host (bytes.drop n)

end TxIovec

/-- `struct ck_info`. -/
structure CkInfo where
  ckValid : Bool
  ckStart : U8
  ckOff : U8
  ckLen : U16
  deriving DecidableEq, Repr

/-- `e82545_carry`. -/
def e82545Carry (sum : U32) : U16 :=
  let sum := (sum &&& 0xFFFF#32) + (sum >>> 16)
  let sum := if 0xFFFF < sum.toNat then sum - 0xFFFF#32 else sum
  sum.setWidth 16

/-- The sum of the byte pairs of a buffer, and of a byte left over. -/
def bufSum : List U8 → U32
  | [] => 0
  | [x] => x.setWidth 32
  | x :: y :: bytes => (y ++ x : U16).setWidth 32 + bufSum bytes

/-- `e82545_buf_checksum`. -/
def e82545BufChecksum (buf : List U8) : U16 := e82545Carry (bufSum buf)

/-- "Skip completely unneeded vectors" of `e82545_iov_checksum`. -/
def iovSkip : List TxIovec → Nat → List TxIovec × Nat
  | [], off => ([], off)
  | v :: vs, off => if v.len ≤ off ∧ 0 < off then iovSkip vs (off - v.len) else (v :: vs, off)

/-- The second loop of `e82545_iov_checksum`. -/
def iovSum (mem : Mem) : List TxIovec → (off len : Nat) → (odd : Bool) → U32 → U32
  | [], _, _, _, sum => sum
  | v :: vs, off, len, odd, sum =>
    if len = 0 then sum
    else
      let now := min len (v.len - off)
      let s : U32 := (e82545BufChecksum (v.read mem off now)).setWidth 32
      iovSum mem vs 0 (len - now) (odd ^^ (now % 2 == 1)) (sum + if odd then s <<< 8 else s)

/-- `e82545_iov_checksum`. A negative `len` sums nothing. -/
def e82545IovChecksum (mem : Mem) (iov : List TxIovec) (off : Nat) (len : Int) : U16 :=
  let (iov, off) := iovSkip iov off
  e82545Carry (iovSum mem iov off len.toNat false 0)

/-- Read `n` bytes of the header copy. -/
def readHdr (hdr : List U8) (off n : Nat) : Except Stop (List U8) :=
  if off + n ≤ hdr.length then .ok ((hdr.drop off).take n) else .error .undefined

/-- Store bytes in the header copy. -/
def writeHdr (hdr : List U8) (off : Nat) (bytes : List U8) : Except Stop (List U8) :=
  if off + bytes.length ≤ hdr.length then
    .ok (hdr.take off ++ bytes ++ hdr.drop (off + bytes.length))
  else .error .undefined

/-- A half word in the order of the network. -/
def be16 (v : U16) : List U8 := [v.extractLsb' 8 8, v.extractLsb' 0 8]

/-- A half word in the order of the host. -/
def le16 (v : U16) : List U8 := [v.extractLsb' 0 8, v.extractLsb' 8 8]

/-- A word in the order of the network. -/
def be32 (v : U32) : List U8 := [byteAt v 24, byteAt v 16, byteAt v 8, byteAt v 0]

/-- A word in the order of the host. -/
def le32 (v : U32) : List U8 := [byteAt v 0, byteAt v 8, byteAt v 16, byteAt v 24]

/-- A number read in the order of the network. -/
def ofBe (bytes : List U8) : Nat := bytes.foldl (fun n x => n * 256 + x.toNat) 0

/-- `htons` of an `int`, as the half word that is stored or added. -/
def htons (n : Int) : U16 :=
  let v := BitVec.ofInt 16 n
  (v.extractLsb' 0 8 ++ v.extractLsb' 8 8 : U16)

/-- `e82545_transmit_checksum` on vectors that start with the header copy. -/
def e82545TransmitChecksum (mem : Mem) (hdr : List U8) (rest : List TxIovec) (ck : CkInfo) :
    Except Stop (List U8) :=
  let cklen : Int :=
    if ck.ckLen ≠ 0 then (ck.ckLen.toNat : Int) - ck.ckStart.toNat + 1 else 2147483647
  let cksum := e82545IovChecksum mem (.host hdr :: rest) ck.ckStart.toNat cklen
  writeHdr hdr ck.ckOff.toNat (le16 (~~~cksum))

/-- `dm_process_tx`: the frame that reaches `virtionet_write`. A length that is
negative as an `int` passes the bound and makes the copy run away. -/
def dmProcessTx (mem : Mem) : List TxIovec → List U8 → Except Stop (List U8)
  | [], netbuf => .ok netbuf
  | v :: vs, netbuf =>
    if 2 ^ 31 ≤ v.len % 2 ^ 32 then .error .undefined
    else if virtioMaxBuf ≤ netbuf.length + v.len % 2 ^ 32 then .error .panic
    else dmProcessTx mem vs (netbuf ++ v.read mem 0 (v.len % 2 ^ 32))

/-! ## Gathering a packet -/

/-- What a transmit call reads besides the ring: the build, the address map, the
registers of VLAN insertion and the memory that holds the packet buffers. -/
structure TxEnv where
  build : Build
  ctx : Vmctx
  ctrl : U32
  vet : U32
  mem : Mem

/-- The locals of the descriptor loop. `iov` holds the first 64 buffers, `iovcnt`
counts them all. -/
structure TxLocals where
  iov : List TxIovec
  iovcnt : Nat
  ntype : U32
  ck0 : CkInfo
  ck1 : CkInfo
  tso : Bool
  deriving DecidableEq, Repr

/-- The locals before the loop. The source leaves the checksum offsets unset until
a descriptor gives them. -/
def TxLocals.start : TxLocals := ⟨[], 0, 0, ⟨false, 0, 0, 0⟩, ⟨false, 0, 0, 0⟩, false⟩

/-- The `switch` on the type of the first descriptor, past the context case. -/
def TxLocals.first (b : Build) (l : TxLocals) (dsc : E1000TxUdesc) : TxLocals :=
  if dsc.dtype b = e1000TxdTypL then
    { l with ntype := e1000TxdTypL, ck0.ckStart := byteAt (dsc.upper b) 8 }
  else if dsc.dtype b = e1000TxdTypD then { l with ntype := e1000TxdTypD }
  else l

/-- Add the descriptor's buffer. The checksum the guest left room for is stripped
from the last one, also where the buffer is a single byte. -/
def TxLocals.addBuffer (env : TxEnv) (l : TxLocals) (dsc : E1000TxUdesc) : TxLocals :=
  let lower := dsc.lower env.build
  let len : Int :=
    if dsc.dtype env.build = e1000TxdTypL then (halfAt lower 0).toNat
    else (lower &&& 0xFFFFF#32).toNat
  if 0 < len then
    let len := if dsc.eop env.build ∧ lower &&& e1000TxdCmdIFCS = 0 then len - 2 else len
    let v := TxIovec.guest (paddrGuest2host env.ctx dsc.bufferAddr) (len % 2 ^ 64).toNat
    { l with iov := if l.iovcnt < i82545MaxTxsegs then l.iov ++ [v] else l.iov
             iovcnt := l.iovcnt + 1 }
  else l

/-- "Pull out info that is valid in the final descriptor". -/
def TxLocals.final (b : Build) (cd : E1000ContextDesc) (l : TxLocals) (dsc : E1000TxUdesc) :
    TxLocals :=
  let lower := dsc.lower b
  if dsc.dtype b = e1000TxdTypL then
    if lower &&& e1000TxdCmdIC ≠ 0 then
      { l with ck0 := ⟨true, l.ck0.ckStart, byteAt lower 16, 0⟩ }
    else l
  else
    let tso := (lower &&& e1000TxdCmdTSE) != 0
    let popts := byteAt (dsc.upper b) 8
    let ixsm := (popts &&& e1000TxdPoptsIXSM) != 0
    let txsm := (popts &&& e1000TxdPoptsTXSM) != 0
    let ip := cd.lowerSetup
    let tcp := cd.upperSetup
    { l with
      tso := tso
      ck0 := if ixsm || tso then ⟨ixsm, byteAt ip 0, byteAt ip 8, halfAt ip 16⟩ else l.ck0
      ck1 := if txsm || tso then ⟨txsm, byteAt tcp 0, byteAt tcp 8, halfAt tcp 16⟩ else l.ck1 }

/-- How the descriptor loop ends. -/
inductive TxScan : Type where
  /-- `head == tail`: the packet's end is not published -/
  | unfinished
  /-- the first descriptor is a context -/
  | context (cd : E1000ContextDesc)
  /-- the last descriptor of a packet, at `head` -/
  | packet (dsc : E1000TxUdesc) (head desc : Nat) (l : TxLocals)
  deriving DecidableEq, Repr

/-- The descriptor loop of `e82545_transmit`, which never ends on a ring without an
`EOP` and with a tail outside it. -/
def e82545TxScan (env : TxEnv) (cd : E1000ContextDesc) (ring : Nat → E1000TxUdesc)
    (tail dsize : Nat) : (fuel head desc : Nat) → TxLocals → Except Stop TxScan
  | 0, _, _, _ => .error .outOfFuel
  | fuel + 1, head, desc, l =>
    let dsc := ring head
    let dtype := dsc.dtype env.build
    if head = tail then .ok .unfinished
    else if desc = 0 ∧ dtype = e1000TxdTypC then .ok (.context dsc.cd)
    else if desc ≠ 0 ∧ dtype ≠ l.ntype then .error (.assertion "dtype == ntype")
    else
      let l := if desc = 0 then l.first env.build dsc else l
      let l := l.addBuffer env dsc
      if dsc.eop env.build then .ok (.packet dsc head desc (l.final env.build cd dsc))
      else e82545TxScan env cd ring tail dsize fuel ((head + 1) % dsize) (desc + 1) l

/-! ## Sending a packet -/

/-- The loop that copies `left` bytes of header out of the vectors: the copy, and
the vectors that are left. -/
def txCopyHeader (mem : Mem) : List TxIovec → Nat → Except Stop (List U8 × List TxIovec)
  | iov, 0 => .ok ([], iov)
  | [], _ + 1 => .error .undefined
  | v :: vs, left + 1 =>
    let now := min (left + 1) v.len
    let hdr := v.read mem 0 now
    if now = v.len then do
      let (more, iov) ← txCopyHeader mem vs (left + 1 - now)
      .ok (hdr ++ more, iov)
    else .ok (hdr, v.advance now :: vs)

/-- The space `e82545_transmit` makes writable at the front of a packet. -/
def txHdrlen (l : TxLocals) (cd : E1000ContextDesc) (vlan : Bool) : Nat :=
  if l.tso then (byteAt cd.tcpSegSetup 8).toNat
  else
    let hdrlen := if vlan then 12 else 0
    let hdrlen := if l.ck0.ckValid then max hdrlen (l.ck0.ckOff.toNat + 2) else hdrlen
    let hdrlen := if l.ck1.ckValid then max hdrlen (l.ck1.ckOff.toNat + 2) else hdrlen
    match l.iov with
    | v :: _ =>
      if hdrlen ≠ 0 ∧ hdrlen < v.len ∧ v.len < hdrlen + 100 then v.len else hdrlen
    | [] => hdrlen

/-- Correct a checksum's offsets after the VLAN tag is inserted. -/
def CkInfo.shift (ck : CkInfo) (vlan : Bool) : CkInfo :=
  if vlan then
    { ck with ckStart := ck.ckStart + 4, ckOff := ck.ckOff + 4,
              ckLen := if ck.ckLen ≠ 0 then ck.ckLen + 4 else ck.ckLen }
  else ck

/-- "Insert VLAN tag": after the two addresses of the header copy. -/
def txInsertVlan (vlan : Bool) (vet special : U16) (hdr : List U8) : Except Stop (List U8) :=
  if !vlan then .ok hdr
  else if hdr.length < 12 then .error .undefined
  else .ok (hdr.take 12 ++ be16 vet ++ be16 special ++ hdr.drop 12)

/-- Take `nleft` bytes of payload for a segment: its vectors, and what is left. -/
def txTakePayload : List TxIovec → Nat → List TxIovec × List TxIovec
  | iov, 0 => ([], iov)
  | [], _ + 1 => ([], [])
  | v :: vs, nleft + 1 =>
    let nnow := min (nleft + 1) v.len
    let piece := match v with
      | .guest base _ => TxIovec.guest base nnow
      | .host bytes => .host (bytes.take nnow)
    if nnow = v.len then
      let (pieces, iov) := txTakePayload vs (nleft + 1 - nnow)
      (piece :: pieces, iov)
    else ([piece], v.advance nnow :: vs)

/-- What the segmentation loop keeps from the original header. -/
structure TsoInfo where
  tcp : Bool
  ip : Bool
  mss : Nat
  paylen : Nat
  ipid : Nat
  tcpseq : Nat
  ipcs : List U8
  tcpcs : U16
  ck0 : CkInfo
  ck1 : CkInfo
  deriving DecidableEq, Repr

/-- One segment: update the headers, fill in the checksums. -/
def txSegmentHeader (mem : Mem) (o : TsoInfo) (hdr : List U8) (pieces : List TxIovec)
    (seg left now : Nat) : Except Stop (List U8) := do
  let start0 := o.ck0.ckStart.toNat
  let start1 := o.ck1.ckStart.toNat
  let hdrlen : Int := hdr.length
  let hdr ←
    if o.ip then do
      let hdr ← writeHdr hdr (start0 + 2) (le16 (htons (hdrlen - start0 + now)))
      writeHdr hdr (start0 + 4) (le16 (htons (o.ipid + seg)))
    else writeHdr hdr (start0 + 4) (le16 (htons (hdrlen - start0 - 40 + now)))
  let tcpsum : U32 := o.tcpcs.setWidth 32 + (htons (hdrlen - start1 + now)).setWidth 32
  let hdr ←
    if o.tcp then do
      let hdr ← writeHdr hdr (start1 + 4)
        (be32 (BitVec.ofInt 32 ((o.tcpseq : Int) + o.paylen - left)))
      -- FIN and PUSH are cleared in the one header copy, so later segments lose them too
      if now < left then do
        let flags ← readHdr hdr (start1 + 13) 1
        writeHdr hdr (start1 + 13) (flags.map (· &&& ~~~0x09#8))
      else .ok hdr
    else writeHdr hdr (start1 + 4) (le32 (BitVec.ofInt 32 (hdrlen - start1 + now)))
  let hdr ←
    if o.ck0.ckValid then do
      let hdr ← writeHdr hdr o.ck0.ckOff.toNat o.ipcs
      e82545TransmitChecksum mem hdr pieces o.ck0
    else .ok hdr
  if o.ck1.ckValid then do
    let hdr ← writeHdr hdr o.ck1.ckOff.toNat (le16 (e82545Carry tcpsum))
    e82545TransmitChecksum mem hdr pieces o.ck1
  else .ok hdr

/-- The segmentation loop. With `mss` 0 it makes no progress and never ends. -/
def txSegments (mem : Mem) (o : TsoInfo) :
    (fuel : Nat) → (hdr : List U8) → (payload : List TxIovec) → (seg left : Nat) →
    List (List U8) → Except Stop (List (List U8))
  | 0, _, _, _, _, _ => .error .outOfFuel
  | fuel + 1, hdr, payload, seg, left, frames =>
    if left = 0 then .ok frames
    else do
      let now := min left o.mss
      let (pieces, payload) := txTakePayload payload now
      let hdr ← txSegmentHeader mem o hdr pieces seg left now
      let frame ← dmProcessTx mem (.host hdr :: pieces) []
      txSegments mem o fuel hdr payload (seg + 1) (left - now) (frames ++ [frame])

/-- "Save partial pseudo-header checksum". -/
def txTcpcs (hdr : List U8) (ck1 : CkInfo) : Except Stop (List U8) :=
  if ck1.ckValid then readHdr hdr ck1.ckOff.toNat 2 else .ok [0, 0]

/-- The start of "Doing TSO". -/
def txTsoInfo (cd : E1000ContextDesc) (hdr : List U8) (ck0 ck1 : CkInfo) :
    Except Stop TsoInfo := do
  let ipid ← readHdr hdr (ck0.ckStart.toNat + 4) 2
  let tcpseq ← readHdr hdr (ck1.ckStart.toNat + 4) 4
  let ipcs ← readHdr hdr ck0.ckOff.toNat 2
  let tcpcs ← txTcpcs hdr ck1
  .ok {
    tcp := (cd.cmdAndLength &&& e1000TxdCmdTCP) != 0
    ip := (cd.cmdAndLength &&& e1000TxdCmdIP) != 0
    mss := (halfAt cd.tcpSegSetup 16).toNat
    paylen := (cd.cmdAndLength &&& 0x000fffff#32).toNat
    ipid := ofBe ipid
    tcpseq := ofBe tcpseq
    ipcs := ipcs
    tcpcs := BitVec.ofNat 16 (ofBe tcpcs.reverse)
    ck0 := ck0
    ck1 := ck1 }

/-- "Doing TSO". -/
def txTso (mem : Mem) (fuel : Nat) (cd : E1000ContextDesc) (hdr : List U8)
    (rest : List TxIovec) (ck0 ck1 : CkInfo) : Except Stop (List (List U8)) := do
  let o ← txTsoInfo cd hdr ck0 ck1
  txSegments mem o fuel hdr rest 0 o.paylen []

/-- Fill in one checksum of a packet, if the descriptors ask for it. -/
def txChecksum (mem : Mem) (hdr : List U8) (rest : List TxIovec) (ck : CkInfo) :
    Except Stop (List U8) :=
  if ck.ckValid then e82545TransmitChecksum mem hdr rest ck else .ok hdr

/-- "Simple non-TSO case". Without a header copy there are no checksums to fill in. -/
def txPlain (mem : Mem) (hdr : List U8) (rest : List TxIovec) (ck0 ck1 : CkInfo) :
    Except Stop (List (List U8)) := do
  let hdr ← txChecksum mem hdr rest ck0
  let hdr ← txChecksum mem hdr rest ck1
  let frame ← dmProcessTx mem (.host hdr :: rest) []
  .ok [frame]

/-- The end of `e82545_transmit`: segment the packet or send it as it is. -/
def txSend (mem : Mem) (fuel : Nat) (cd : E1000ContextDesc) (tso : Bool) (hdr : List U8)
    (rest : List TxIovec) (ck0 ck1 : CkInfo) : Except Stop (List (List U8)) :=
  if tso then txTso mem fuel cd hdr rest ck0 ck1 else txPlain mem hdr rest ck0 ck1

/-- `e82545_transmit` past the descriptor loop: the frames it sends. A packet of
more than 64 buffers is dropped. -/
def e82545TransmitPacket (env : TxEnv) (fuel : Nat) (cd : E1000ContextDesc)
    (dsc : E1000TxUdesc) (l : TxLocals) : Except Stop (List (List U8)) :=
  if i82545MaxTxsegs < l.iovcnt then .ok []
  else do
    let vlan := (env.ctrl &&& e1000CtrlVME) != 0 && (dsc.lower env.build &&& e1000TxdCmdVLE) != 0
    let (hdr, rest) ← txCopyHeader env.mem l.iov (txHdrlen l cd vlan)
    let hdr ← txInsertVlan vlan (env.vet.setWidth 16) (halfAt (dsc.upper env.build) 16) hdr
    txSend env.mem fuel cd l.tso hdr rest (l.ck0.shift vlan) (l.ck1.shift vlan)

/-- `e82545_transmit_done`: write `DD` back from `head` up to `tail`. -/
def e82545TransmitDone (b : Build) (tail dsize : Nat) :
    (fuel head : Nat) → (Nat → E1000TxUdesc) → Bool → Except Stop ((Nat → E1000TxUdesc) × Bool)
  | 0, _, _, _ => .error .outOfFuel
  | fuel + 1, head, ring, tdwb =>
    if head = tail then .ok (ring, tdwb)
    else if (ring head).rs b then
      e82545TransmitDone b tail dsize fuel ((head + 1) % dsize)
        (Function.update ring head ((ring head).setDD b)) true
    else e82545TransmitDone b tail dsize fuel ((head + 1) % dsize) ring tdwb

/-- What a transmit call changes: the ring, the saved context and the wire. -/
structure TxSide where
  ring : Nat → E1000TxUdesc
  txctx : E1000ContextDesc
  wire : List (List U8)

/-- What a transmit call returns: the new state, its count of descriptors, `*rhead`
and `*tdwb`. -/
structure TxResult where
  side : TxSide
  sent : Nat
  rhead : Nat
  tdwb : Bool

/-- The `done:` label of `e82545_transmit`. -/
def e82545TxDone (env : TxEnv) (fuel : Nat) (x : TxSide) (ohead head desc dsize : Nat)
    (tdwb : Bool) : Except Stop TxResult := do
  let head := (head + 1) % dsize
  let (ring, tdwb) ← e82545TransmitDone env.build head dsize fuel ohead x.ring tdwb
  .ok ⟨{ x with ring := ring }, desc + 1, head, tdwb⟩

/-- `e82545_transmit`. -/
def e82545Transmit (env : TxEnv) (fuel : Nat) (x : TxSide) (head tail dsize : Nat) (tdwb : Bool) :
    Except Stop TxResult := do
  match ← e82545TxScan env x.txctx x.ring tail dsize fuel head 0 .start with
  | .unfinished => .ok ⟨x, 0, tail, tdwb⟩
  | .context cd => e82545TxDone env fuel { x with txctx := cd } head head 0 dsize tdwb
  | .packet dsc last desc l =>
    let frames ← e82545TransmitPacket env fuel x.txctx dsc l
    e82545TxDone env fuel { x with wire := x.wire ++ frames } head last desc dsize tdwb

/-! ## Running the ring -/

/-- The e1000 with the memory it works on: both rings, packet buffers, and the
frames sent so far. -/
structure E1000 where
  sc : E82545Softc
  txRing : Nat → E1000TxUdesc
  rxRing : Nat → E1000RxDesc
  mem : Mem
  wire : List (List U8)

namespace E1000

/-- What transmit reads. -/
def txEnv (b : Build) (s : E1000) : TxEnv :=
  ⟨b, s.sc.escCtx, s.sc.gen.escCTRL, s.sc.gen.escVET, s.mem⟩

/-- What transmit changes. -/
def txSide (s : E1000) : TxSide := ⟨s.txRing, s.sc.tx.escTxctx, s.wire⟩

end E1000

/-- The loop of `e82545_tx_run`, with `lim` counting down from `size / 4`. The flag
says whether a packet was sent. -/
def e82545TxRunLoop (env : TxEnv) (tail dsize fuel : Nat) :
    (n : Nat) → (lim : Nat) → (x : TxSide) → (head rhead : Nat) → (tdwb any : Bool) →
    Except Stop (TxSide × Nat × Nat × Bool × Bool)
  | 0, _, _, _, _, _, _ => .error .outOfFuel
  | n + 1, lim, x, head, rhead, tdwb, any =>
    if lim = 0 then .ok (x, head, rhead, tdwb, any)
    else do
      let r ← e82545Transmit env fuel x head tail dsize tdwb
      if r.sent = 0 then .ok (r.side, head, r.rhead, r.tdwb, any)
      else e82545TxRunLoop env tail dsize fuel n (lim - r.sent) r.side r.rhead r.rhead r.tdwb true

/-- The causes that `e82545_tx_run` raises. -/
def txCause (sc : E82545Softc) (tdwb any : Bool) : U32 :=
  (if tdwb then e1000IcrTXDW else 0) |||
    (if any ∧ sc.tx.escTDH = sc.tx.escTDT then e1000IcrTXQE else 0)

/-- Raise the causes, if there are any. -/
def e82545RaiseCause (sc : E82545Softc) (cause : U32) : E82545Softc :=
  if cause ≠ 0 then e82545IcrAssert sc cause else sc

/-- Take the mutex back and store where the loop has come to. -/
def E1000.txStore (s : E1000) (x : TxSide) (head rhead : Nat) : E1000 :=
  let sc := s.sc.lockMtx
  { s with
    txRing := x.ring
    wire := x.wire
    sc := { sc with tx.escTxctx := x.txctx, tx.escTDH := BitVec.ofNat 16 head,
                    tx.escTDHr := BitVec.ofNat 16 rhead } }

/-- `e82545_tx_run`. Its loop checks `esc_tx_enabled`, which the caller has checked
and nothing changes meanwhile. -/
def e82545TxRun (b : Build) (fuel : Nat) (s : E1000) : Except Stop E1000 := do
  let size := s.sc.txSize
  let head := s.sc.tx.escTDH.toNat
  let s := { s with sc := s.sc.unlockMtx }
  let (x, head, rhead, tdwb, any) ←
    e82545TxRunLoop (s.txEnv b) s.sc.tx.escTDT.toNat size fuel fuel (size / 4) s.txSide head head
      false false
  let s := s.txStore x head rhead
  .ok { s with sc := e82545RaiseCause s.sc (txCause s.sc tdwb any) }

/-- `e82545_tx_poll` between lock and unlock. -/
def e82545TxPollBody (b : Build) (fuel : Nat) (s : E1000) : Except Stop E1000 :=
  if s.sc.tx.escTxEnabled ∧ s.sc.tx.escTDHr ≠ s.sc.tx.escTDT then
    e82545TxRun b fuel { s with sc.tx.escTxActive := true }
  else .ok { s with sc.tx.escTxActive := false }

/-- `e82545_tx_poll`. -/
def e82545TxPoll (b : Build) (fuel : Nat) (s : E1000) : Except Stop E1000 := do
  let s ← e82545TxPollBody b fuel { s with sc := s.sc.lockMtx }
  .ok { s with sc := s.sc.unlockMtx }

theorem e82545RaiseCause_frame (sc : E82545Softc) (cause : U32) :
    ∃ pi intr, e82545RaiseCause sc cause = { sc with escPi := pi, intr := intr } := by
  unfold e82545RaiseCause
  split
  · exact e82545IcrAssert_frame sc cause
  · exact ⟨_, _, rfl⟩

/-- The two ways through `e82545_tx_poll`. -/
theorem e82545TxPoll_cases {b : Build} {fuel : Nat} {s t : E1000}
    (h : e82545TxPoll b fuel s = .ok t) :
    (¬ (s.sc.tx.escTxEnabled = true ∧ s.sc.tx.escTDHr ≠ s.sc.tx.escTDT) ∧
      t = { s with sc := { s.sc.lockMtx with tx.escTxActive := false }.unlockMtx }) ∨
    ((s.sc.tx.escTxEnabled = true ∧ s.sc.tx.escTDHr ≠ s.sc.tx.escTDT) ∧
      ∃ x head rhead tdwb any mtx pi intr,
        e82545TxRunLoop (s.txEnv b) s.sc.tx.escTDT.toNat s.sc.txSize fuel fuel
          (s.sc.txSize / 4) s.txSide s.sc.tx.escTDH.toNat s.sc.tx.escTDH.toNat false false =
            .ok (x, head, rhead, tdwb, any) ∧
        t = { s with
          txRing := x.ring
          wire := x.wire
          sc := { s.sc with
            escMtx := mtx, escPi := pi, intr := intr
            tx.escTxActive := true, tx.escTxctx := x.txctx
            tx.escTDH := BitVec.ofNat 16 head, tx.escTDHr := BitVec.ofNat 16 rhead } }) := by
  obtain ⟨u, hu, h⟩ := Except.bind_eq_ok.1 h
  cases h
  unfold e82545TxPollBody at hu
  split at hu
  · next hrun =>
    obtain ⟨⟨x, head, rhead, tdwb, any⟩, hloop, hu⟩ := Except.bind_eq_ok.1 hu
    cases hu
    generalize hu' : E1000.txStore _ x head rhead = u
    obtain ⟨pi, intr, hframe⟩ := e82545RaiseCause_frame u.sc (txCause u.sc tdwb any)
    rw [hframe, ← hu']
    exact .inr ⟨hrun, x, head, rhead, tdwb, any, _, pi, intr, hloop, rfl⟩
  · next hrun =>
    cases hu
    exact .inl ⟨hrun, rfl⟩

/-- `e1000_poll`, after `e82545_init` has set `e82545_sc`. -/
def e1000Poll (b : Build) (fuel : Nat) (s : E1000) : Except Stop E1000 := e82545TxPoll b fuel s

end DeviceModel
