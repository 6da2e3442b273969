import DeviceModel.Ahci.Fis

/-!
# Requests of the AHCI controller

The commands that the block interface serves: each takes a request structure off the
free list, fills it in, marks its slot in flight and submits it.
-/

namespace DeviceModel

/-! ## Buffers -/

/-- `BLOCKIF_IOV_MAX`. -/
def blockifIovMax : Nat := 33

/-- `(le32toh(prdt->dbc) & DBCMASK) + 1`. -/
def prdtDbcsz (m : Mem) (prdt : U64) : U32 := (m.read32 (prdt + 12) &&& 0x3fffff#32) + 1

/-- The locals of the loop of `ahci_build_iov`. -/
structure IovLoop where
  iov : List Iovec
  skip : U32
  left : U32
  todo : U32
  deriving DecidableEq, Repr

/-- The loop of `ahci_build_iov`, with `n` entries of the PRDT still to look at; also
how many it has left. -/
def ahciIovLoop (ctx : Vmctx) (m : Mem) : Nat → U64 → IovLoop → IovLoop × Nat
  | 0, _, l => (l, 0)
  | n + 1, prdt, l =>
    if l.iov.length < blockifIovMax ∧ 0 < l.left.toInt then
      let dbcsz := prdtDbcsz m prdt
      if dbcsz ≤ l.skip then
        ahciIovLoop ctx m n (prdt + 16) { l with skip := l.skip - dbcsz }
      else
        let dbcsz := dbcsz - l.skip
        let dbcsz := if dbcsz > l.left then l.left else dbcsz
        let base := paddrGuest2host ctx (m.read64 prdt + l.skip.signExtend 64)
        ahciIovLoop ctx m n (prdt + 16)
          { iov := l.iov ++ [⟨base, dbcsz.toNat⟩], skip := 0, left := l.left - dbcsz
            todo := l.todo + dbcsz }
    else (l, n + 1)

/-- Take `extra` bytes off a list of buffers, the last one first. -/
def ahciTrimIov (extra : Nat) : List Iovec → List Iovec
  | [] => []
  | v :: vs =>
    if extra = 0 then v :: vs
    else if v.iovLen > extra then { v with iovLen := v.iovLen - extra } :: vs
    else ahciTrimIov (extra - v.iovLen) vs

/-- `extra` in `ahci_build_iov`. The bytes in `todo` are part of those in `left`, which
is positive, so that the remainder is that of a natural number. -/
def ahciIovExtra (sectsz : Nat) (l : IovLoop) : Nat :=
  if l.iov.length = blockifIovMax then l.todo.toNat % sectsz else 0

/-- `ahci_build_iov`. -/
def ahciBuildIov (c : PortCtx) (aior : AhciIoreq) (breq : BlockifReq) (prdt : U64)
    (prdtl : Nat) : Except Stop (AhciIoreq × BlockifReq) := do
  let r := ahciIovLoop c.sc.vmctx c.mem prdtl prdt ⟨[], aior.done, aior.len - aior.done, 0⟩
  let extra := ahciIovExtra c.blk.bc.bcSectsz r.1
  let todo := r.1.todo - BitVec.ofNat 32 extra
  assert "todo > 0" (r.1.iov.length != blockifIovMax || 0 < todo.toInt)
  .ok ({ aior with done := aior.done + todo, more := aior.done + todo < aior.len && 0 < r.2 },
    { breq with brIov := (ahciTrimIov extra r.1.iov.reverse).reverse, brResid := todo.toNat })

/-! ## Submitting -/

/-- Pull a request structure off the free list. -/
def ahciTakeIoreq (c : PortCtx) : Except Stop (Nat × PortCtx) :=
  match c.p.iofhd with
  | [] => .error (.assertion "aior != NULL")
  | a :: free => .ok (a, { c with p := { c.p with iofhd := free } })

/-- Store what a command has put into its request structure. -/
def ahciSetIoreq (c : PortCtx) (a : Nat) (aior : AhciIoreq) (breq : BlockifReq) : PortCtx :=
  { c with p := { c.p with ioreq := Function.update c.p.ioreq a aior }
           blk := { c.blk with reqs := Function.update c.blk.reqs a breq } }

/-- Mark a command in flight, and put its request on the busy list. -/
def ahciMarkInFlight (c : PortCtx) (slot : Slot) (a : Nat) : PortCtx :=
  { c with p := { c.p with pending := c.p.pending ||| slotBit slot, iobhd := a :: c.p.iobhd } }

/-- Hand a request to the block interface. -/
def ahciSubmit (c : PortCtx) (a : Nat) (op : Blockop) : Except Stop PortCtx := do
  let (blk, err) := blockifRequest c.blk a op
  assert "err == 0" (err == .zero)
  .ok { c with blk := blk }

/-- What `ahci_handle_rw`, `ahci_handle_flush`, `ahci_handle_dsm_trim` and `atapi_read`
have in common: `fill` says what goes into the request structure, and `ncq` whether
the command is acknowledged with `ahci_write_fis_d2h_ncq`. -/
def ahciIssue (c : PortCtx) (slot : Slot)
    (fill : BlockifReq → Except Stop (AhciIoreq × BlockifReq)) (ncq : Bool) (op : Blockop) :
    Except Stop PortCtx := do
  let (a, c) ← ahciTakeIoreq c
  let (aior, breq) ← fill (c.blk.reqs a)
  let c := ahciMarkInFlight (ahciSetIoreq c a aior breq) slot a
  ahciSubmit (if ncq then ahciWriteFisD2hNcq c slot else c) a op

/-! ## Reading and writing -/

/-- `ATA_WRITE`, `ATA_WRITE48`, `ATA_WRITE_MUL`, `ATA_WRITE_MUL48`, `ATA_WRITE_DMA`,
`ATA_WRITE_DMA48` and `ATA_WRITE_FPDMA_QUEUED`. -/
def ataWrites : List U8 := [0x30#8, 0x34#8, 0xc5#8, 0x39#8, 0xca#8, 0x35#8, 0x61#8]

/-- `ATA_READ48`, `ATA_WRITE48`, `ATA_READ_MUL48`, `ATA_WRITE_MUL48`, `ATA_READ_DMA48`
and `ATA_WRITE_DMA48`. -/
def ata48s : List U8 := [0x24#8, 0x34#8, 0x29#8, 0x39#8, 0x25#8, 0x35#8]

/-- `ATA_WRITE_FPDMA_QUEUED` and `ATA_READ_FPDMA_QUEUED`. -/
def ataRwFpdma (cmd : U8) : Bool := cmd == 0x61#8 || cmd == 0x60#8

/-- The block address of a read or write, in sectors. -/
def ahciRwLba (b : Nat → U8) : U64 :=
  if ataRwFpdma (b 2) ∨ b 2 ∈ ata48s then
    (b 10 ++ b 9 ++ b 8 ++ b 6 ++ b 5 ++ b 4).setWidth 64
  else ((b 7 &&& 0xf#8) ++ b 6 ++ b 5 ++ b 4).setWidth 64

/-- The length of a read or write, in sectors. -/
def ahciRwLen (b : Nat → U8) : U32 :=
  if ataRwFpdma (b 2) then
    let len : U32 := (b 11 ++ b 3).setWidth 32
    if len = 0 then 65536 else len
  else if b 2 ∈ ata48s then
    let len : U32 := (b 13 ++ b 12).setWidth 32
    if len = 0 then 65536 else len
  else
    let len : U32 := (b 12).setWidth 32
    if len = 0 then 256 else len

/-- What `ahci_handle_rw` puts into its request structure. -/
def ahciRwFill (c : PortCtx) (slot : Slot) (cfis : U64) (done : U32) (breq : BlockifReq) :
    Except Stop (AhciIoreq × BlockifReq) :=
  let sectsz := c.blk.bc.bcSectsz
  let lba := ahciRwLba (c.cfis cfis) * BitVec.ofNat 64 sectsz
  let len := ahciRwLen (c.cfis cfis) * BitVec.ofNat 32 sectsz
  ahciBuildIov c { cfis := cfis, slot := slot, len := len, done := done, more := false }
    { breq with brOffset := lba + done.setWidth 64 } (cfis + 0x80) (c.prdtl slot)

/-- `ahci_handle_rw`. -/
def ahciHandleRw (c : PortCtx) (slot : Slot) (cfis : U64) (done : U32) : Except Stop PortCtx :=
  ahciIssue c slot (ahciRwFill c slot cfis done) (ataRwFpdma (c.cfis cfis 2) && done == 0)
    (if c.cfis cfis 2 ∈ ataWrites then .write else .read)

/-- `ahci_handle_flush`. -/
def ahciHandleFlush (c : PortCtx) (slot : Slot) (cfis : U64) : Except Stop PortCtx :=
  ahciIssue c slot
    (fun breq => .ok ({ cfis := cfis, slot := slot, len := 0, done := 0, more := false }, breq))
    false .flush

/-! ## Trimming -/

/-- The loop of `read_prdt`, with `n` entries of the PRDT still to look at and `len`
bytes still to be read: the bytes. -/
def readPrdtLoop (ctx : Vmctx) (m : Mem) : Nat → U64 → Nat → List U8
  | 0, _, _ => []
  | n + 1, prdt, len =>
    if len = 0 then []
    else
      let sublen := min len (prdtDbcsz m prdt).toNat
      m.readBytes (paddrGuest2host ctx (m.read64 prdt)) sublen ++
        readPrdtLoop ctx m n (prdt + 16) (len - sublen)

/-- `read_prdt`, into a buffer that holds what the stack held. -/
def readPrdt (c : PortCtx) (slot : Slot) (cfis : U64) (size : Nat) : Nat → U8 :=
  let bytes := readPrdtLoop c.sc.vmctx c.mem (c.prdtl slot) (cfis + 0x80) size
  fun i => bytes.getD i (c.stack i)

/-- The end of the loop of `ahci_handle_dsm_trim`. -/
inductive TrimNext : Type where
  /-- there is no range left -/
  | finished
  /-- the range to trim, and where the next entry is -/
  | range (elba : U64) (elen : U32) (done : U32)
  deriving DecidableEq, Repr

/-- The loop of `ahci_handle_dsm_trim` over the entries of its buffer of 512 bytes, `n`
of which may still be looked at. -/
def ahciTrimNext (buf : Nat → U8) (len : U32) : Nat → Nat → Except Stop TrimNext
  | 0, _ => .error .undefined
  | n + 1, done =>
    if 512 < done + 8 then .error .undefined
    else
      let elen : U32 := (buf (done + 7) ++ buf (done + 6)).setWidth 32
      if elen ≠ 0 then
        .ok (.range ((buf (done + 5) ++ buf (done + 4) ++ buf (done + 3) ++ buf (done + 2) ++
          buf (done + 1) ++ buf done).setWidth 64) elen (BitVec.ofNat 32 (done + 8)))
      else if len.toNat ≤ done + 8 then .ok .finished
      else ahciTrimNext buf len n (done + 8)

/-- `cfis[2] != ATA_DATA_SET_MANAGEMENT`. -/
def ahciTrimNcq (c : PortCtx) (cfis : U64) : Bool := c.cfis cfis 2 != 0x06#8

/-- The length that a TRIM command gives. -/
def ahciTrimLen (c : PortCtx) (cfis : U64) : U32 :=
  let b := c.cfis cfis
  if ahciTrimNcq c cfis then (b 11 ++ b 3).setWidth 32 * 512 else (b 13 ++ b 12).setWidth 32 * 512

/-- What `ahci_handle_dsm_trim` writes when no range is left. -/
def ahciTrimAnswer (c : PortCtx) (slot : Slot) (cfis : U64) (first : Bool) : PortCtx :=
  if ahciTrimNcq c cfis then
    ahciWriteFisSdb (if first then ahciWriteFisD2hNcq c slot else c) slot cfis ataOk
  else ahciWriteFisD2h c slot cfis ataOk

/-- The end of a command: it is not in flight any more. -/
def ahciFinished (c : PortCtx) (slot : Slot) : PortCtx :=
  { c with p := ahciCheckStopped { c.p with pending := c.p.pending &&& ~~~slotBit slot } }

/-- What `ahci_handle_dsm_trim` puts into its request structure. -/
def ahciTrimFill (c : PortCtx) (slot : Slot) (cfis : U64) (len elen done : U32) (elba : U64)
    (breq : BlockifReq) : Except Stop (AhciIoreq × BlockifReq) :=
  let sectsz := c.blk.bc.bcSectsz
  .ok ({ cfis := cfis, slot := slot, len := len, done := done, more := len != done },
    { breq with brOffset := elba * BitVec.ofNat 64 sectsz
                brResid := (elen * BitVec.ofNat 32 sectsz).toNat })

/-- `ahci_handle_dsm_trim` but for the last thing it does: where no range is left and
the command is not new, it goes on with `ahci_handle_port`. Also whether it does. -/
def ahciHandleDsmTrim (c : PortCtx) (slot : Slot) (cfis : U64) (done : U32) :
    Except Stop (PortCtx × Bool) := do
  let len := ahciTrimLen c cfis
  match ← ahciTrimNext (readPrdt c slot cfis 512) len 64 done.toNat with
  | .finished =>
    .ok (ahciFinished (ahciTrimAnswer c slot cfis (done == 0)) slot, done != 0)
  | .range elba elen next =>
    let t ← ahciIssue c slot (ahciTrimFill c slot cfis len elen next elba)
      (ahciTrimNcq c cfis && done == 0) .delete
    .ok (t, false)

/-! ## Answers with data -/

/-- The loop of `write_prdt`: entry `i` of the PRDT is next, and `n` bounds the bytes
still to be written, each entry taking at least one. The command header and the PRDT
are read again each time. Also the bytes that have no place. -/
def writePrdtLoop (ctx : Vmctx) (hdr : U64) :
    Nat → Nat → U64 → List U8 → Mem → Mem × List U8
  | 0, _, _, bytes, m => (m, bytes)
  | n + 1, i, prdt, bytes, m =>
    if i < (m.read16 (hdr + 2)).toNat ∧ bytes ≠ [] then
      let sublen := min bytes.length (prdtDbcsz m prdt).toNat
      writePrdtLoop ctx hdr n (i + 1) (prdt + 16) (bytes.drop sublen)
        (m.writeBytes (paddrGuest2host ctx (m.read64 prdt)) (bytes.take sublen))
    else (m, bytes)

/-- `write_prdt`. -/
def writePrdt (c : PortCtx) (slot : Slot) (cfis : U64) (buf : List U8) : PortCtx :=
  let (m, bytes) :=
    writePrdtLoop c.sc.vmctx (c.hdr slot) buf.length 0 (cfis + 0x80) buf c.mem
  c.setMem (m.write32 (c.hdr slot + 4) (BitVec.ofNat 32 (buf.length - bytes.length)))

/-! ## Reading from an ATAPI disk -/

/-- `be16dec(cfis + 0x40 + i)`. -/
def acmd16 (c : PortCtx) (cfis : U64) (i : Nat) : U16 :=
  c.cfis cfis (0x40 + i) ++ c.cfis cfis (0x41 + i)

/-- `be32dec(cfis + 0x40 + i)`. -/
def acmd32 (c : PortCtx) (cfis : U64) (i : Nat) : U32 :=
  acmd16 c cfis i ++ acmd16 c cfis (i + 2)

/-- `cfis[4] = (cfis[4] & ~7) | ATA_I_CMD | ATA_I_IN`. -/
def atapiIreason (c : PortCtx) (cfis : U64) : PortCtx :=
  c.setMem (c.mem.write8 (cfis + 4) (c.cfis cfis 4 &&& ~~~7#8 ||| 3#8))

/-- The length of an `atapi_read`, in sectors of 2048 bytes. -/
def atapiReadLen (c : PortCtx) (cfis : U64) : U32 :=
  if c.cfis cfis 0x40 = 0x28#8 then (acmd16 c cfis 7).setWidth 32 else acmd32 c cfis 6

/-- What `atapi_read` puts into its request structure. -/
def atapiReadFill (c : PortCtx) (slot : Slot) (cfis lba : U64) (len done : U32)
    (breq : BlockifReq) : Except Stop (AhciIoreq × BlockifReq) :=
  ahciBuildIov c { cfis := cfis, slot := slot, len := len * 2048, done := done, more := false }
    { breq with brOffset := lba * 2048 + done.setWidth 64 } (cfis + 0x80) (c.prdtl slot)

/-- `atapi_read`. It goes on after it has answered a command of length zero. -/
def atapiRead (c : PortCtx) (slot : Slot) (cfis : U64) (done : U32) : Except Stop PortCtx :=
  let lba : U64 := (acmd32 c cfis 2).setWidth 64
  let len := atapiReadLen c cfis
  let c := if len = 0 then ahciWriteFisD2h (atapiIreason c cfis) slot cfis ataOk else c
  ahciIssue c slot (atapiReadFill c slot cfis lba len done) false .read

end DeviceModel
