import DeviceModel.PciLintr
import DeviceModel.Block.BlockIf

/-!
# The AHCI controller: data

The controller has six ports, and `bhyve/pci_emul.c` gives it one disk, so that port 0
is opened and the others have neither a block context nor a softc pointer. A port
function works on a `PortCtx`: the port it is called on together with all that it
reaches through `pr_sc`, `bctx` and memory.

The numbers of registers and commands are those of `bhyve/ahci.h` and
`bhyve/sys/ata.h`.
-/

namespace DeviceModel

/-! ## Constants -/

/-- `DEF_PORTS`, and `sc->ports` with one disk. -/
def ahciPorts : Nat := 6

/-- `MAX_PORTS`. -/
def ahciMaxPorts : Nat := 32

/-- `AHCI_CL_SIZE`. -/
def ahciClSize : Nat := 32

def ahciPCmdST : U32 := 0x00000001#32
def ahciPCmdSUD : U32 := 0x00000002#32
def ahciPCmdPOD : U32 := 0x00000004#32
def ahciPCmdCLO : U32 := 0x00000008#32
def ahciPCmdFRE : U32 := 0x00000010#32
def ahciPCmdCCSMask : U32 := 0x00001f00#32
def ahciPCmdFR : U32 := 0x00004000#32
def ahciPCmdCR : U32 := 0x00008000#32
def ahciPCmdCPS : U32 := 0x00010000#32
def ahciPCmdICCMask : U32 := 0xf0000000#32

/-- The bits of `PxCMD` that the guest writes: `ST`, `SUD`, `POD`, `CLO`, `FRE`,
`APSTE`, `ATAPI`, `DLAE`, `ALPE`, `ASP` and `ICC`. -/
def ahciPCmdWritable : U32 := 0xff80001f#32

def ahciPIxDHR : U32 := 0x00000001#32
def ahciPIxPS : U32 := 0x00000002#32
def ahciPIxSDB : U32 := 0x00000008#32
def ahciPIxTFE : U32 := 0x40000000#32

def ahciGhcAE : U32 := 0x80000000#32
def ahciGhcIE : U32 := 0x00000002#32
def ahciGhcHR : U32 := 0x00000001#32

def ataSError : U32 := 0x01#32
def ataSDrq : U32 := 0x08#32
def ataSDsc : U32 := 0x10#32
def ataSDma : U32 := 0x20#32
def ataSReady : U32 := 0x40#32
def ataSBusy : U32 := 0x80#32

def ataEAbort : U32 := 0x04#32
def ataSenseIllegalRequest : U8 := 0x05#8

def ataScSpdMask : U32 := 0x000000f0#32
def ataScDetReset : U32 := 0x00000001#32
def ataSsDetNoDevice : U32 := 0x00000000#32
def ataSsDetPhyOnline : U32 := 0x00000003#32
def ataSsSpdMask : U32 := 0x000000f0#32
def ataSsSpdGen3 : U32 := 0x00000030#32
def ataSsIpmActive : U32 := 0x00000100#32

def ataWdma0 : U8 := 0x20#8
def ataUdma0 : U8 := 0x40#8
def ataUdma6 : U8 := 0x46#8

/-- `(ATA_E_ABORT << 8) | ATA_S_READY | ATA_S_ERROR`. -/
def ataAborted : U32 := ataEAbort <<< 8 ||| ataSReady ||| ataSError

/-- `ATA_S_READY | ATA_S_DSC`. -/
def ataOk : U32 := ataSReady ||| ataSDsc

/-! ## Slots -/

/-- A command slot. `ccs` starts at 0 and is only ever advanced modulo 32. -/
abbrev Slot : Type := Fin 32

-- one proof for all literals of `Slot`, and one for all lists of commands
instance slotNeZero : NeZero 32 := ⟨by decide⟩

instance commandLawfulBEq : LawfulBEq U8 := inferInstance

/-- `1 << slot`. -/
def slotBit (s : Slot) : U32 := 1#32 <<< s.val

@[simp] theorem getLsbD_slotBit (s t : Slot) : (slotBit s).getLsbD t = decide (t = s) := by
  revert s t
  decide

@[simp] theorem getLsbD_or_slotBit (x : U32) (s t : Slot) :
    (x ||| slotBit s).getLsbD t = (x.getLsbD t || decide (t = s)) := by
  rw [BitVec.getLsbD_or, getLsbD_slotBit]

@[simp] theorem getLsbD_and_not_slotBit (x : U32) (s t : Slot) :
    (x &&& ~~~slotBit s).getLsbD t = (x.getLsbD t && !decide (t = s)) := by
  rw [BitVec.getLsbD_and, BitVec.getLsbD_not, getLsbD_slotBit, decide_eq_true t.isLt,
    Bool.true_and]

/-- Two words are the same when their slots' bits are. -/
theorem slots_ext {x y : U32} (h : ∀ t : Slot, x.getLsbD t = y.getLsbD t) : x = y :=
  BitVec.eq_of_getLsbD_eq fun i hi => h ⟨i, hi⟩

/-! ## State -/

/-- `struct ahci_ioreq`, without its block request. -/
structure AhciIoreq where
  cfis : U64
  len : U32
  done : U32
  slot : Slot
  more : Bool
  deriving DecidableEq, Repr

/-- The fields of `struct ahci_port` that only commands read and write. -/
structure AhciDev where
  ident : List U8
  multSectors : U8
  xfermode : U8
  errCfis : List U8
  senseKey : U8
  asc : U8
  deriving DecidableEq, Repr

/-- `struct ahci_port`. A request structure is named by its place in `ioreq`. -/
structure AhciPort where
  /-- `bctx` and `pr_sc` are set -/
  opened : Bool
  port : Nat
  atapi : Bool
  cmdLst : U64
  rfis : U64
  reset : Bool
  waitforclear : Bool
  ccs : Slot
  pending : U32
  clb : U32
  clbu : U32
  fb : U32
  fbu : U32
  is : U32
  ie : U32
  cmd : U32
  tfd : U32
  sig : U32
  ssts : U32
  sctl : U32
  serr : U32
  sact : U32
  ci : U32
  dev : AhciDev
  ioreq : Nat → AhciIoreq
  iofhd : List Nat
  iobhd : List Nat

/-- `struct pci_ahci_softc`, without its ports and the registers that never change. -/
structure AhciSoftc where
  ascPi : PciDevinst
  vmctx : Vmctx
  mtx : PthreadMutex
  ghc : U32
  is : U32
  lintr : Bool

/-- What a run leaves on record: the commands handed to `ahci_handle_cmd`, with the
first 0x80 bytes of their command tables, what was written for them, and the requests
that `ahci_port_stop` has cancelled. -/
inductive AhciEvent : Type where
  | cmd (slot : Slot) (table : List U8)
  | d2h (slot : Slot) (tfd : U32)
  | d2hNcq (slot : Slot)
  | sdb (slot : Slot) (tfd : U32)
  | cancel (slot : Slot)
  deriving DecidableEq, Repr

/-- What a function that takes a `struct ahci_port *` works on. -/
structure PortCtx where
  sc : AhciSoftc
  p : AhciPort
  blk : BlockState
  /-- what the stack holds where the buffer of `ahci_handle_dsm_trim` will be -/
  stack : Nat → U8
  log : List AhciEvent

namespace PortCtx

/-- Memory. -/
abbrev mem (c : PortCtx) : Mem := c.blk.mem

/-- Replace memory. -/
def setMem (c : PortCtx) (m : Mem) : PortCtx := { c with blk := { c.blk with mem := m } }

/-- Put an event on record. -/
def record (c : PortCtx) (e : AhciEvent) : PortCtx := { c with log := c.log ++ [e] }

/-- `p->cmd_lst + slot * AHCI_CL_SIZE`. -/
def hdr (c : PortCtx) (slot : Slot) : U64 := c.p.cmdLst + BitVec.ofNat 64 (slot * ahciClSize)

/-- `le16toh(hdr->prdtl)`. -/
def prdtl (c : PortCtx) (slot : Slot) : Nat := (c.mem.read16 (c.hdr slot + 2)).toNat

/-- `cfis[i]`. -/
def cfis (c : PortCtx) (cfis : U64) (i : Nat) : U8 := c.mem (cfis + BitVec.ofNat 64 i)

end PortCtx

/-- `FIS_TYPE_REGH2D`. -/
def fisTypeRegH2D : U8 := 0x27#8

/-- `ATA_WRITE_FPDMA_QUEUED`, `ATA_READ_FPDMA_QUEUED` and `ATA_SEND_FPDMA_QUEUED`. -/
def ataNcq (cmd : U8) : Bool := cmd == 0x61#8 || cmd == 0x60#8 || cmd == 0x64#8

end DeviceModel
