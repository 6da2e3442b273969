import DeviceModel.Library.Runs
import DeviceModel.Ahci.Commands

/-!
# The AHCI controller: registers

The registers that the guest reads and writes, and what a write does.
-/

namespace DeviceModel

/-- The controller, with the block context of port 0 and what a run leaves on record. -/
structure Ahci where
  sc : AhciSoftc
  port : Nat → AhciPort
  blk : BlockState
  stack : Nat → U8
  log : List AhciEvent

namespace Ahci

/-- What a function called on port `i` works on. -/
def ctx (s : Ahci) (i : Nat) : PortCtx where
  sc := s.sc
  p := s.port i
  blk := s.blk
  stack := s.stack
  log := s.log

/-- Port `i` and what it reaches, as a function called on it has left them. -/
def put (s : Ahci) (i : Nat) (c : PortCtx) : Ahci where
  sc := c.sc
  port := Function.update s.port i c.p
  blk := c.blk
  stack := c.stack
  log := c.log

end Ahci

/-! ## Stopping a port -/

/-- What `ahci_port_stop` does for one request of the busy list. -/
def ahciCancel (c : PortCtx) (a : Nat) : Except Stop PortCtx := do
  let aior := c.p.ioreq a
  let (blk, err) ← blockifCancel c.blk a
  let c := { c with blk := blk }
  if err ≠ .zero then .ok c
  else
    let p :=
      if ataNcq (c.cfis aior.cfis 2) then { c.p with sact := c.p.sact &&& ~~~slotBit aior.slot }
      else { c.p with ci := c.p.ci &&& ~~~slotBit aior.slot }
    let p := { p with pending := p.pending &&& ~~~slotBit aior.slot }
    .ok (ahciReap ({ c with p := p }.record (.cancel aior.slot)) a)

/-- The loop of `ahci_port_stop`. Taking a request off the busy list leaves its link to
the next one as it is, so that the loop goes along the list as it was. -/
def ahciCancelAll : List Nat → PortCtx → Except Stop PortCtx
  | [], c => .ok c
  | a :: as, c => do
    let t ← ahciCancel c a
    ahciCancelAll as t

/-- `ahci_port_stop`. On a port that is not opened it follows a null pointer. -/
def ahciPortStop (c : PortCtx) : Except Stop PortCtx := do
  if !c.p.opened then .error .undefined
  else
    assert "pthread_mutex_isowned_np(&p->pr_sc->mtx)" (c.sc.mtx.lock != 0)
    let t ← ahciCancelAll c.p.iobhd c
    .ok { t with p := ahciCheckStopped t.p }

/-! ## Resetting the controller -/

/-- What `ahci_reset` does for one port. -/
def ahciResetPort (c : PortCtx) : PortCtx :=
  let cmd := ahciPCmdSUD ||| ahciPCmdPOD
  ahciPortReset { c with p := { c.p with
    ie := 0, is := 0, cmd := if c.p.opened then cmd ||| ahciPCmdCPS else cmd, sctl := 0 } }

/-- `ahci_reset`. -/
def ahciReset (s : Ahci) : Ahci :=
  let sc := { s.sc with ghc := ahciGhcAE, is := 0 }
  (List.range ahciPorts).foldl (fun s i => s.put i (ahciResetPort (s.ctx i)))
    { s with sc := sc.lower }

/-! ## Writes -/

/-- The registers of a port that a write changes or acts on. -/
inductive AhciPortReg : Type where
  | clb
  | clbu
  | fb
  | fbu
  | is
  | ie
  | cmd
  | sctl
  | serr
  | sact
  | ci
  | other
  deriving DecidableEq, Repr

/-- The register at an offset in a port's register block. -/
def ahciPortReg (offset : U64) : AhciPortReg :=
  if offset = 0x00 then .clb
  else if offset = 0x04 then .clbu
  else if offset = 0x08 then .fb
  else if offset = 0x0c then .fbu
  else if offset = 0x10 then .is
  else if offset = 0x14 then .ie
  else if offset = 0x18 then .cmd
  else if offset = 0x2c then .sctl
  else if offset = 0x30 then .serr
  else if offset = 0x34 then .sact
  else if offset = 0x38 then .ci
  else .other

/-- `ahci_port_intr`, which follows a null pointer on a port that is not opened. -/
def ahciPortIntrOn (c : PortCtx) : Except Stop PortCtx :=
  if !c.p.opened then .error .undefined else .ok { c with sc := ahciPortIntr c.sc c.p }

/-- The case `AHCI_P_CMD` up to the test of `ST`. -/
def ahciCmdBits (p : AhciPort) (value : U32) : AhciPort :=
  { p with cmd := p.cmd &&& ~~~ahciPCmdWritable ||| ahciPCmdWritable &&& value }

/-- The case `AHCI_P_CMD` where `ST` is set: the command list. -/
def ahciCmdStart (ctx : Vmctx) (p : AhciPort) : AhciPort :=
  { p with cmd := p.cmd ||| ahciPCmdCR, cmdLst := paddrGuest2host ctx (p.clbu ++ p.clb) }

/-- The case `AHCI_P_CMD` after that: received frames, `CLO` and `ICC`. -/
def ahciCmdRest (ctx : Vmctx) (p : AhciPort) (value : U32) : AhciPort :=
  let p :=
    if value &&& ahciPCmdFRE ≠ 0 then
      { p with cmd := p.cmd ||| ahciPCmdFR, rfis := paddrGuest2host ctx (p.fbu ++ p.fb) }
    else { p with cmd := p.cmd &&& ~~~ahciPCmdFR }
  let p :=
    if value &&& ahciPCmdCLO ≠ 0 then
      { p with tfd := p.tfd &&& ~~~(ataSBusy ||| ataSDrq), cmd := p.cmd &&& ~~~ahciPCmdCLO }
    else p
  if value &&& ahciPCmdICCMask ≠ 0 then { p with cmd := p.cmd &&& ~~~ahciPCmdICCMask } else p

/-- The case `AHCI_P_CMD` up to `ahci_handle_port`. -/
def ahciCmdWrite (c : PortCtx) (value : U32) : Except Stop PortCtx := do
  let c := { c with p := ahciCmdBits c.p value }
  if value &&& ahciPCmdST = 0 then
    let c ← ahciPortStop c
    .ok { c with p := ahciCmdRest c.sc.vmctx c.p value }
  else .ok { c with p := ahciCmdRest c.sc.vmctx (ahciCmdStart c.sc.vmctx c.p) value }

/-- `pci_ahci_port_write`, on the port and the register. -/
def ahciPortWriteReg (fuel : Nat) (M : Nat → Mem) (c : PortCtx) (reg : AhciPortReg)
    (value : U32) : Except Stop PortCtx :=
  match reg with
  | .clb => .ok { c with p := { c.p with clb := value } }
  | .clbu => .ok { c with p := { c.p with clbu := value } }
  | .fb => .ok { c with p := { c.p with fb := value } }
  | .fbu => .ok { c with p := { c.p with fbu := value } }
  | .is => ahciPortIntrOn { c with p := { c.p with is := c.p.is &&& ~~~value } }
  | .ie => ahciPortIntrOn { c with p := { c.p with ie := value &&& 0xFDC000FF#32 } }
  | .cmd => do
    let t ← ahciCmdWrite c value
    ahciHandlePort fuel M t
  | .sctl =>
    let c := { c with p := { c.p with sctl := value } }
    if c.p.cmd &&& ahciPCmdST = 0 ∧ value &&& ataScDetReset ≠ 0 then .ok (ahciPortReset c)
    else .ok c
  | .serr => .ok { c with p := { c.p with serr := c.p.serr &&& ~~~value } }
  | .sact => .ok { c with p := { c.p with sact := c.p.sact ||| value } }
  | .ci => ahciHandlePort fuel M { c with p := { c.p with ci := c.p.ci ||| value } }
  | .other => .ok c

/-- `AHCI_OFFSET` and `AHCI_STEP`. -/
def ahciOffset : U64 := 0x100#64
def ahciStep : U64 := 0x80#64

/-- The port that an offset is in. -/
def ahciPortNo (offset : U64) : Nat := ((offset - ahciOffset) / ahciStep).toNat

/-- `pci_ahci_port_write`. -/
def pciAhciPortWrite (fuel : Nat) (M : Nat → Mem) (s : Ahci) (offset value : U64) :
    Except Stop Ahci := do
  let i := ahciPortNo offset
  let c ← ahciPortWriteReg fuel M (s.ctx i) (ahciPortReg ((offset - ahciOffset) % ahciStep))
    (value.setWidth 32)
  .ok (s.put i c)

/-- `pci_ahci_host_write`. -/
def pciAhciHostWrite (s : Ahci) (offset value : U64) : Ahci :=
  let value : U32 := value.setWidth 32
  -- `AHCI_GHC` and `AHCI_IS`
  if offset = 0x04 then
    if value &&& ahciGhcHR ≠ 0 then ahciReset s
    else
      let ghc :=
        if value &&& ahciGhcIE ≠ 0 then s.sc.ghc ||| ahciGhcIE else s.sc.ghc &&& ~~~ahciGhcIE
      { s with sc := ahciGenerateIntr { s.sc with ghc := ghc } s.port 0xffffffff#32 }
  else if offset = 0x08 then
    { s with sc := ahciGenerateIntr { s.sc with is := s.sc.is &&& ~~~value } s.port value }
  else s

namespace Ahci

/-- `pthread_mutex_lock(&sc->mtx)`. -/
def lockMtx (s : Ahci) : Ahci := { s with sc := { s.sc with mtx := pthreadMutexLock s.sc.mtx } }

/-- `pthread_mutex_unlock(&sc->mtx)`. -/
def unlockMtx (s : Ahci) : Ahci :=
  { s with sc := { s.sc with mtx := pthreadMutexUnlock s.sc.mtx } }

end Ahci

/-- The end of the registers: `AHCI_OFFSET + sc->ports * AHCI_STEP`. -/
def ahciEnd : U64 := ahciOffset + BitVec.ofNat 64 ahciPorts * ahciStep

/-- `pci_ahci_write` between lock and unlock. -/
def pciAhciWriteBody (fuel : Nat) (M : Nat → Mem) (s : Ahci) (offset value : U64) :
    Except Stop Ahci :=
  if offset < ahciOffset then .ok (pciAhciHostWrite s offset value)
  else if offset < ahciEnd then pciAhciPortWrite fuel M s offset value
  else .ok s

/-- `pci_ahci_write`. -/
def pciAhciWrite (fuel : Nat) (M : Nat → Mem) (s : Ahci) (baridx : Nat) (offset value : U64) :
    Except Stop Ahci := do
  assert "baridx == 5" (baridx == 5)
  assert "(offset % 4) == 0" (offset % 4 == 0)
  let t ← pciAhciWriteBody fuel M s.lockMtx offset value
  .ok t.unlockMtx

/-! ## Reads -/

/-- `sc->cap` and `sc->cap2`, as `pci_ahci_init` sets them: 32 slots, 6 ports. -/
def ahciCap : U32 := 0xff30ff25#32
def ahciCap2 : U32 := 0x00000004#32

/-- `pci_ahci_host_read`. -/
def pciAhciHostRead (sc : AhciSoftc) (offset : U64) : U32 :=
  if offset = 0x00 then ahciCap
  else if offset = 0x04 then sc.ghc
  else if offset = 0x08 then sc.is
  -- `AHCI_PI` and `AHCI_VS`
  else if offset = 0x0c then 1
  else if offset = 0x10 then 0x10300#32
  else if offset = 0x24 then ahciCap2
  else 0

/-- `pci_ahci_port_read`. `PxSNTF` and `PxFBS` are never set. -/
def pciAhciPortRead (p : AhciPort) (offset : U64) : U32 :=
  if offset = 0x00 then p.clb
  else if offset = 0x04 then p.clbu
  else if offset = 0x08 then p.fb
  else if offset = 0x0c then p.fbu
  else if offset = 0x10 then p.is
  else if offset = 0x14 then p.ie
  else if offset = 0x18 then p.cmd
  else if offset = 0x20 then p.tfd
  else if offset = 0x24 then p.sig
  else if offset = 0x28 then p.ssts
  else if offset = 0x2c then p.sctl
  else if offset = 0x30 then p.serr
  else if offset = 0x34 then p.sact
  else if offset = 0x38 then p.ci
  else 0

/-- `pci_ahci_read` between lock and unlock. -/
def pciAhciReadBody (s : Ahci) (regoff : U64) : U32 :=
  let offset := regoff &&& ~~~3#64
  let value :=
    if offset < ahciOffset then pciAhciHostRead s.sc offset
    else if offset < ahciEnd then
      pciAhciPortRead (s.port (ahciPortNo offset)) ((offset - ahciOffset) % ahciStep)
    else 0
  value >>> (8 * (regoff &&& 3#64).toNat)

/-- `pci_ahci_read`. -/
def pciAhciRead (s : Ahci) (baridx : Nat) (regoff : U64) (size : Nat) :
    Except Stop (Ahci × U32) := do
  assert "baridx == 5" (baridx == 5)
  assert "size == 1 || size == 2 || size == 4" (size == 1 || size == 2 || size == 4)
  assert "(regoff & (size - 1)) == 0" (regoff.toNat % size == 0)
  .ok (s.lockMtx.unlockMtx, pciAhciReadBody s.lockMtx regoff)

/-! ## Start -/

/-- A port after `calloc`. -/
def ahciPortZero : AhciPort where
  opened := false
  port := 0
  atapi := false
  cmdLst := 0
  rfis := 0
  reset := false
  waitforclear := false
  ccs := 0
  pending := 0
  clb := 0
  clbu := 0
  fb := 0
  fbu := 0
  is := 0
  ie := 0
  cmd := 0
  tfd := 0
  sig := 0
  ssts := 0
  sctl := 0
  serr := 0
  sact := 0
  ci := 0
  dev := ⟨List.replicate 21 0, 0, 0, List.replicate 20 0, 0, 0⟩
  ioreq := fun _ => ⟨0, 0, 0, 0, false⟩
  iofhd := []
  iobhd := []

/-- Port 0, opened by `pci_ahci_init` and `pci_ahci_ioreq_init`. -/
def ahciPortOpened (atapi : Bool) (ident : List U8) : AhciPort :=
  { ahciPortZero with
    opened := true
    atapi := atapi
    dev := { ahciPortZero.dev with ident := ident }
    iofhd := List.range blockifQueuesz }

/-- The state before `ahci_reset` in `pci_ahci_init`, with a disk or an ATAPI disk. -/
def ahciOpened (ctx : Vmctx) (base : U64) (atapi : Bool) (ident : List U8) (mem : Mem)
    (stack : Nat → U8) : Ahci where
  sc := { ascPi := pciDevinstInit, vmctx := ctx, mtx := pthreadMutexInit, ghc := 0, is := 0
          lintr := false }
  port := Function.update (fun _ => ahciPortZero) 0 (ahciPortOpened atapi ident)
  blk := { bc := blockifOpen base, reqs := fun _ => ⟨0, 0, []⟩, mem := mem }
  stack := stack
  log := []

/-- `pci_ahci_init`. -/
def pciAhciInit (ctx : Vmctx) (base : U64) (atapi : Bool) (ident : List U8) (mem : Mem)
    (stack : Nat → U8) : Ahci :=
  ahciReset (ahciOpened ctx base atapi ident mem stack)

end DeviceModel
