import DeviceModel.Ahci.Responses

/-!
# Commands, slots and ports

`ahci_handle_port` goes round the slots and hands each waiting one to `ahci_handle_slot`,
until none waits or the port is busy or in error. The block interface calls back when
it has served a request, and the callback goes on with `ahci_handle_port`.
-/

namespace DeviceModel

/-! ## ATAPI commands -/

/-- The cases of the `switch` in `handle_packet_cmd`. -/
inductive ScsiCmd : Type where
  | testUnitReady
  | inquiry
  | readCapacity
  | preventAllow
  | readToc
  | reportLuns
  | read
  | requestSense
  | startStopUnit
  | modeSense
  | getEventStatusNotification
  | other
  deriving DecidableEq, Repr

/-- The case of an operation code. -/
def scsiCmd (op : U8) : ScsiCmd :=
  if op = 0x00#8 then .testUnitReady
  else if op = 0x12#8 then .inquiry
  else if op = 0x25#8 then .readCapacity
  else if op = 0x1E#8 then .preventAllow
  else if op = 0x43#8 then .readToc
  else if op = 0xA0#8 then .reportLuns
  -- `READ_10` and `READ_12`
  else if op = 0x28#8 ∨ op = 0xA8#8 then .read
  else if op = 0x03#8 then .requestSense
  else if op = 0x1B#8 then .startStopUnit
  else if op = 0x5A#8 then .modeSense
  else if op = 0x4A#8 then .getEventStatusNotification
  else .other

/-- `handle_packet_cmd`. -/
def handlePacketCmd (c : PortCtx) (slot : Slot) (cfis : U64) : Except Stop PortCtx :=
  match scsiCmd (acmd c cfis 0) with
  | .testUnitReady => .ok (atapiDone c slot cfis)
  | .inquiry => .ok (atapiInquiry c slot cfis)
  | .readCapacity => .ok (atapiReadCapacity c slot cfis)
  | .preventAllow => .ok (atapiDone c slot cfis)
  | .readToc => .ok (atapiReadToc c slot cfis)
  | .reportLuns => .ok (atapiReportLuns c slot cfis)
  | .read => atapiRead c slot cfis 0
  | .requestSense => .ok (atapiRequestSense c slot cfis)
  | .startStopUnit => .ok (atapiStartStopUnit c slot cfis)
  | .modeSense => .ok (atapiModeSense c slot cfis)
  | .getEventStatusNotification => .ok (atapiGetEventStatusNotification c slot cfis)
  | .other => .ok (atapiRefuse c slot cfis 0x20#8)

/-! ## ATA commands -/

/-- The cases of the `switch` in `ahci_handle_cmd`. -/
inductive AtaCmd : Type where
  | ataIdentify
  | setfeatures
  | setMulti
  | rw
  | flushcache
  | dataSetManagement
  | sendFpdmaQueued
  | readLog
  | securityFreezeLock
  | checkPowerMode
  | standby
  | atapiIdentify
  | packetCmd
  | unsupported
  deriving DecidableEq, Repr

/-- `ATA_READ`, `ATA_READ48`, `ATA_READ_MUL`, `ATA_READ_MUL48`, `ATA_READ_DMA`,
`ATA_READ_DMA48` and `ATA_READ_FPDMA_QUEUED`. -/
def ataReads : List U8 := [0x20#8, 0x24#8, 0xc4#8, 0x29#8, 0xc8#8, 0x25#8, 0x60#8]

/-- The case of a command. -/
def ataCmd (cmd : U8) : AtaCmd :=
  if cmd = 0xec#8 then .ataIdentify
  else if cmd = 0xef#8 then .setfeatures
  else if cmd = 0xc6#8 then .setMulti
  else if cmd ∈ ataReads ∨ cmd ∈ ataWrites then .rw
  -- `ATA_FLUSHCACHE` and `ATA_FLUSHCACHE48`
  else if cmd = 0xe7#8 ∨ cmd = 0xea#8 then .flushcache
  else if cmd = 0x06#8 then .dataSetManagement
  else if cmd = 0x64#8 then .sendFpdmaQueued
  -- `ATA_READ_LOG_EXT` and `ATA_READ_LOG_DMA_EXT`
  else if cmd = 0x2f#8 ∨ cmd = 0x47#8 then .readLog
  -- `ATA_SECURITY_FREEZE_LOCK`, `ATA_SMART_CMD` and `ATA_NOP`
  else if cmd = 0xf5#8 ∨ cmd = 0xb0#8 ∨ cmd = 0x00#8 then .securityFreezeLock
  else if cmd = 0xe5#8 then .checkPowerMode
  -- `ATA_STANDBY_CMD`, `ATA_STANDBY_IMMEDIATE`, `ATA_IDLE_CMD`, `ATA_IDLE_IMMEDIATE`,
  -- `ATA_SLEEP`, `ATA_READ_VERIFY` and `ATA_READ_VERIFY48`
  else if cmd ∈ [0xe2#8, 0xe0#8, 0xe3#8, 0xe1#8, 0xe6#8, 0x40#8, 0x42#8] then .standby
  else if cmd = 0xa1#8 then .atapiIdentify
  else if cmd = 0xa0#8 then .packetCmd
  else .unsupported

/-- `ATA_S_ERROR | ATA_S_READY`, with `ATA_ERROR_ABORT`. -/
def ataRefused : U32 := ataSError ||| ataSReady ||| 0x04#32 <<< 8

/-- The case `ATA_SETFEATURES` up to the frame: the transfer mode, and the status. -/
def ataSetfeatures (c : PortCtx) (cfis : U64) : U8 × U32 :=
  let feature := c.cfis cfis 3
  let count := c.cfis cfis 12
  -- `ATA_SF_ENAB_SATA_SF`, and `ATA_SATA_SF_AN`
  if feature = 0x10#8 then
    (c.p.dev.xfermode, if count = 0x05#8 then ataSDsc ||| ataSReady else ataRefused)
  -- `ATA_SF_ENAB_WCACHE`, `ATA_SF_DIS_WCACHE`, `ATA_SF_ENAB_RCACHE`, `ATA_SF_DIS_RCACHE`
  else if feature ∈ [0x02#8, 0x82#8, 0xaa#8, 0x55#8] then
    (c.p.dev.xfermode, ataSDsc ||| ataSReady)
  -- `ATA_SF_SETXFER`
  else if feature = 0x03#8 then
    (if count &&& 0xf8#8 = ataWdma0 ∨ count &&& 0xf8#8 = ataUdma0 then count &&& 7#8
      else c.p.dev.xfermode, ataSDsc ||| ataSReady)
  else (c.p.dev.xfermode, ataRefused)

/-- The case `ATA_SET_MULTI` up to the frame: the sectors, and the status. -/
def ataSetMulti (c : PortCtx) (cfis : U64) : U8 × U32 :=
  let count := c.cfis cfis 12
  if count ≠ 0 ∧ (count > 128#8 ∨ count &&& (count - 1) ≠ 0) then
    (c.p.dev.multSectors, ataRefused)
  else (count, ataSDsc ||| ataSReady)

/-- The test of the case `ATA_DATA_SET_MANAGEMENT`. -/
def ataIsDsmTrim (c : PortCtx) (cfis : U64) : Bool :=
  c.cfis cfis 11 == 0 && c.cfis cfis 3 == 0x01#8 && c.cfis cfis 13 == 0 && c.cfis cfis 12 == 1

/-- The test of the case `ATA_SEND_FPDMA_QUEUED`. -/
def ataIsSendTrim (c : PortCtx) (cfis : U64) : Bool :=
  c.cfis cfis 13 &&& 0x1f#8 == 0 && c.cfis cfis 17 == 0 && c.cfis cfis 16 == 0x01#8 &&
    c.cfis cfis 11 == 0 && c.cfis cfis 3 == 1

/-- The state in which `ahci_handle_cmd` starts on its `switch`. -/
def cmdCtx (c : PortCtx) (slot : Slot) (cfis : U64) : PortCtx :=
  let c := c.record (.cmd slot (c.mem.readBytes cfis 0x80))
  { c with p := { c.p with tfd := c.p.tfd ||| ataSBusy } }

/-- The `switch` of `ahci_handle_cmd`. A command is new here, so that
`ahci_handle_dsm_trim` does not go on with `ahci_handle_port`. -/
def ahciCmdSwitch (c : PortCtx) (slot : Slot) (cfis : U64) : Except Stop PortCtx :=
  match ataCmd (c.cfis cfis 2) with
  | .ataIdentify => .ok (handleIdentify c slot cfis)
  | .setfeatures =>
    let (xfermode, tfd) := ataSetfeatures c cfis
    .ok (ahciWriteFisD2h { c with p := { c.p with dev.xfermode := xfermode, tfd := tfd } } slot cfis
      tfd)
  | .setMulti =>
    let (multSectors, tfd) := ataSetMulti c cfis
    .ok (ahciWriteFisD2h { c with p := { c.p with dev.multSectors := multSectors, tfd := tfd } } slot
      cfis tfd)
  | .rw => ahciHandleRw c slot cfis 0
  | .flushcache => ahciHandleFlush c slot cfis
  | .dataSetManagement =>
    if ataIsDsmTrim c cfis then (ahciHandleDsmTrim c slot cfis 0).map (·.1)
    else .ok (ahciWriteFisD2h c slot cfis ataAborted)
  | .sendFpdmaQueued =>
    if ataIsSendTrim c cfis then (ahciHandleDsmTrim c slot cfis 0).map (·.1)
    else .ok (ahciWriteFisD2h c slot cfis ataAborted)
  | .readLog => .ok (ahciHandleReadLog c slot cfis)
  | .securityFreezeLock => .ok (ahciWriteFisD2h c slot cfis ataAborted)
  | .checkPowerMode =>
    .ok (ahciWriteFisD2h (c.setMem (c.mem.write8 (cfis + 12) 0xff#8)) slot cfis ataOk)
  | .standby => .ok (ahciWriteFisD2h c slot cfis ataOk)
  | .atapiIdentify => .ok (handleAtapiIdentify c slot cfis)
  | .packetCmd =>
    if !c.p.atapi then .ok (ahciWriteFisD2h c slot cfis ataAborted)
    else handlePacketCmd c slot cfis
  | .unsupported => .ok (ahciWriteFisD2h c slot cfis ataAborted)

/-- `ahci_handle_cmd`. -/
def ahciHandleCmd (c : PortCtx) (slot : Slot) (cfis : U64) : Except Stop PortCtx :=
  ahciCmdSwitch (cmdCtx c slot cfis) slot cfis

/-! ## Slots -/

/-- `cfis`, as `ahci_handle_slot` finds it in the command header. -/
def slotCfis (c : PortCtx) (slot : Slot) : U64 :=
  paddrGuest2host c.sc.vmctx (c.mem.read64 (c.hdr slot + 8))

/-- `ahci_handle_slot` for a frame whose C bit is clear. -/
def ahciHandleControl (c : PortCtx) (slot : Slot) (cfis : U64) : PortCtx :=
  let c :=
    if c.cfis cfis 15 &&& 4#8 ≠ 0 then { c with p := { c.p with reset := true } }
    else if c.p.reset then ahciPortReset { c with p := { c.p with reset := false } }
    else c
  { c with p := { c.p with ci := c.p.ci &&& ~~~slotBit slot } }

/-- `ahci_handle_slot`. On a port that is not opened it follows a null pointer. -/
def ahciHandleSlot (c : PortCtx) (slot : Slot) : Except Stop PortCtx :=
  if !c.p.opened then .error .undefined
  else
    let cfis := slotCfis c slot
    if c.cfis cfis 0 ≠ fisTypeRegH2D then .ok c
    else if c.cfis cfis 1 &&& 0x80#8 ≠ 0 then ahciHandleCmd c slot cfis
    else .ok (ahciHandleControl c slot cfis)

/-! ## Ports -/

/-- The slots that wait: `p->ci & ~p->pending`. -/
def AhciPort.waiting (p : AhciPort) : U32 := p.ci &&& ~~~p.pending

/-- `p->cmd &= ~AHCI_P_CMD_CCS_MASK; p->cmd |= p->ccs << AHCI_P_CMD_CCS_SHIFT`. -/
def AhciPort.setCmdCcs (p : AhciPort) : AhciPort :=
  { p with cmd := p.cmd &&& ~~~ahciPCmdCCSMask ||| BitVec.ofNat 32 p.ccs <<< 8 }

/-- One visit of the loop of `ahci_handle_port`. -/
def ahciVisit (c : PortCtx) : Except Stop PortCtx :=
  if c.p.waiting &&& slotBit c.p.ccs ≠ 0 then
    ahciHandleSlot { c with p := c.p.setCmdCcs } c.p.ccs
  else .ok c

/-- `p->ccs = ((p->ccs + 1) & 31)`. -/
def PortCtx.nextCcs (c : PortCtx) : PortCtx := { c with p := { c.p with ccs := c.p.ccs + 1 } }

/-- The loop of `ahci_handle_port`. Both the guest and the device store to memory
meanwhile: `M k` is what iteration `k` finds there. -/
def ahciPortLoop : Nat → (Nat → Mem) → PortCtx → Except Stop PortCtx
  | 0, _, _ => .error .outOfFuel
  | fuel + 1, M, c =>
    if c.p.waiting = 0 then .ok c
    else if c.p.tfd &&& (ataSBusy ||| ataSDrq) ≠ 0 then .ok c
    else if c.p.waitforclear then .ok c
    else do
      let t ← ahciVisit (c.setMem (M 0))
      ahciPortLoop fuel (fun k => M (k + 1)) t.nextCcs

/-- `ahci_handle_port`. -/
def ahciHandlePort (fuel : Nat) (M : Nat → Mem) (c : PortCtx) : Except Stop PortCtx :=
  if c.p.cmd &&& ahciPCmdST = 0 then .ok c else ahciPortLoop fuel M c

/-! ## Completions -/

/-- Take a request off the busy list, and put it on the free list. -/
def ahciReap (c : PortCtx) (a : Nat) : PortCtx :=
  { c with p := { c.p with iobhd := c.p.iobhd.erase a, iofhd := c.p.iofhd ++ [a] } }

/-- `hdr->prdbc = aior->done`, unless there is an error. -/
def ahciSetPrdbc (c : PortCtx) (aior : AhciIoreq) (err : Errno) : PortCtx :=
  if err = .zero then c.setMem (c.mem.write32 (c.hdr aior.slot + 4) aior.done) else c

/-- `cfis[2] == ATA_DATA_SET_MANAGEMENT || (cfis[2] == ATA_SEND_FPDMA_QUEUED &&
(cfis[13] & 0x1f) == ATA_SFPDMA_DSM)`. -/
def ataDsm (c : PortCtx) (cfis : U64) : Bool :=
  c.cfis cfis 2 == 0x06#8 || (c.cfis cfis 2 == 0x64#8 && c.cfis cfis 13 &&& 0x1f#8 == 0)

/-- The status `ata_ioreq_cb` ends a command with. -/
def ataIoreqTfd (err : Errno) : U32 := if err = .zero then ataOk else ataAborted

/-- The end of `ata_ioreq_cb`, up to `ahci_handle_port`. -/
def ataIoreqEnd (c : PortCtx) (aior : AhciIoreq) (ncq : Bool) (err : Errno) : PortCtx :=
  ahciFinished
    (if ncq then ahciWriteFisSdb c aior.slot aior.cfis (ataIoreqTfd err)
      else ahciWriteFisD2h c aior.slot aior.cfis (ataIoreqTfd err)) aior.slot

/-- `ata_ioreq_cb` between lock and unlock, up to `ahci_handle_port`; also whether it
gets there. -/
def ataIoreqBody (c : PortCtx) (a : Nat) (err : Errno) : Except Stop (PortCtx × Bool) :=
  let aior := c.p.ioreq a
  let ncq := ataNcq (c.cfis aior.cfis 2)
  let dsm := ataDsm c aior.cfis
  let c := ahciSetPrdbc (ahciReap c a) aior err
  if err = .zero ∧ aior.more = true then
    if dsm then ahciHandleDsmTrim c aior.slot aior.cfis aior.done
    else (ahciHandleRw c aior.slot aior.cfis aior.done).map (·, false)
  else .ok (ataIoreqEnd c aior ncq err, true)

/-- The end of `atapi_ioreq_cb`, up to `ahci_handle_port`. -/
def atapiIoreqEnd (c : PortCtx) (aior : AhciIoreq) (err : Errno) : PortCtx :=
  ahciFinished
    (if err = .zero then atapiDone c aior.slot aior.cfis
      else atapiRefuse c aior.slot aior.cfis 0x21#8) aior.slot

/-- `atapi_ioreq_cb` between lock and unlock, up to `ahci_handle_port`; also whether it
gets there. -/
def atapiIoreqBody (c : PortCtx) (a : Nat) (err : Errno) : Except Stop (PortCtx × Bool) :=
  let aior := c.p.ioreq a
  let c := ahciSetPrdbc (ahciReap c a) aior err
  if err = .zero ∧ aior.more = true then
    (atapiRead c aior.slot aior.cfis aior.done).map (·, false)
  else .ok (atapiIoreqEnd c aior err, true)

namespace PortCtx

/-- `pthread_mutex_lock(&sc->mtx)`. -/
def lockMtx (c : PortCtx) : PortCtx :=
  { c with sc := { c.sc with mtx := pthreadMutexLock c.sc.mtx } }

/-- `pthread_mutex_unlock(&sc->mtx)`. -/
def unlockMtx (c : PortCtx) : PortCtx :=
  { c with sc := { c.sc with mtx := pthreadMutexUnlock c.sc.mtx } }

end PortCtx

/-- `ata_ioreq_cb` or `atapi_ioreq_cb` between lock and unlock, up to
`ahci_handle_port`. `pci_ahci_ioreq_init` has chosen between the two by `p->atapi`. -/
def ahciIoreqBody (c : PortCtx) (a : Nat) (err : Errno) : Except Stop (PortCtx × Bool) :=
  if c.p.atapi then atapiIoreqBody c a err else ataIoreqBody c a err

/-- `br_callback` of a request. -/
def ahciIoreqCb (fuel : Nat) (M : Nat → Mem) (a : Nat) (err : Errno) (c : PortCtx) :
    Except Stop PortCtx := do
  let (t, more) ← ahciIoreqBody c.lockMtx a err
  if more then
    let t ← ahciHandlePort fuel M t
    .ok t.unlockMtx
  else .ok t.unlockMtx

/-- The port is the client of its block context. -/
def ahciClient (fuel : Nat) (M : Nat → Mem) : BlockifClient PortCtx where
  blk := PortCtx.blk
  setBlk := fun c blk => { c with blk := blk }
  callback := ahciIoreqCb fuel M

end DeviceModel
