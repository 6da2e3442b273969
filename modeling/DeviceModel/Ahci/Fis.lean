import DeviceModel.Ahci.Defs

/-!
# Frames and interrupts of the AHCI controller

What the controller tells the guest: it stores a frame in the area for received frames,
sets the bits of `PxIS` and `IS`, and raises the line.
-/

namespace DeviceModel

/-! ## Interrupts -/

/-- Raise the line, if it is not raised. -/
def AhciSoftc.raise (sc : AhciSoftc) : AhciSoftc :=
  if sc.lintr then sc else { sc with lintr := true, ascPi := pciLintrAssert sc.ascPi }

/-- Lower the line, if it is raised. -/
def AhciSoftc.lower (sc : AhciSoftc) : AhciSoftc :=
  if sc.lintr then { sc with ascPi := pciLintrDeassert sc.ascPi, lintr := false } else sc

/-- The bits of `IS` for the ports that have an enabled interrupt. -/
def ahciPortsIs (ports : Nat → AhciPort) : U32 :=
  (List.range ahciPorts).foldl
    (fun is i => if (ports i).is &&& (ports i).ie ≠ 0 then is ||| 1#32 <<< i else is) 0

/-- The last loop of `ahci_generate_intr`. -/
def ahciGenerateMsis (sc : AhciSoftc) (mask : U32) (nmsg : Nat) : AhciSoftc :=
  (List.range nmsg).foldl
    (fun sc i =>
      let mmask : U32 :=
        if ahciPorts ≤ nmsg ∨ i + 1 < nmsg then 1#32 <<< i else 0xffffffff#32 <<< i
      if sc.is &&& mask ≠ 0 ∧ mmask &&& mask ≠ 0 then
        { sc with ascPi := pciGenerateMsi sc.ascPi i }
      else sc) sc

/-- `ahci_generate_intr`. -/
def ahciGenerateIntr (sc : AhciSoftc) (ports : Nat → AhciPort) (mask : U32) : AhciSoftc :=
  let sc := { sc with is := sc.is ||| ahciPortsIs ports }
  if sc.is = 0 ∨ sc.ghc &&& ahciGhcIE = 0 then sc.lower
  else
    let nmsg := pciMsiMaxmsgnum sc.ascPi
    if nmsg = 0 then sc.raise else ahciGenerateMsis sc mask nmsg

/-- `ahci_port_intr`, on a port that is opened. -/
def ahciPortIntr (sc : AhciSoftc) (p : AhciPort) : AhciSoftc :=
  if p.is &&& p.ie = 0 then sc
  else
    let nmsg := pciMsiMaxmsgnum sc.ascPi
    let bit : U32 := 1#32 <<< p.port
    if ahciPorts ≤ nmsg ∨ p.port + 1 < nmsg then
      let sc := { sc with is := sc.is ||| bit }
      if sc.ghc &&& ahciGhcIE = 0 then sc
      else { sc with ascPi := pciGenerateMsi sc.ascPi p.port }
    else if sc.is &&& bit ≠ 0 then sc
    else
      let sc := { sc with is := sc.is ||| bit }
      if sc.ghc &&& ahciGhcIE = 0 then sc
      else if 0 < nmsg then { sc with ascPi := pciGenerateMsi sc.ascPi (nmsg - 1) }
      else sc.raise

/-! ## Frames -/

/-- The frames of `enum sata_fis_type` that the controller sends. -/
inductive SataFisType : Type where
  | regD2H
  | setDevBits
  | pioSetup
  deriving DecidableEq, Repr

namespace SataFisType

/-- Its number. -/
def code : SataFisType → U8
  | regD2H => 0x34#8
  | setDevBits => 0xA1#8
  | pioSetup => 0x5F#8

/-- Where `ahci_write_fis` stores it. -/
def offset : SataFisType → U64
  | regD2H => 0x40#64
  | setDevBits => 0x58#64
  | pioSetup => 0x20#64

/-- How much of it `ahci_write_fis` stores. -/
def len : SataFisType → Nat
  | regD2H => 20
  | setDevBits => 8
  | pioSetup => 20

/-- Its bit in `PxIS`. -/
def irq : SataFisType → U32
  | regD2H => ahciPIxDHR
  | setDevBits => ahciPIxSDB
  | pioSetup => ahciPIxPS

end SataFisType

/-- The port receives frames. -/
def AhciPort.receives (p : AhciPort) : Bool := p.rfis != 0 && p.cmd &&& ahciPCmdFRE != 0

/-- The frame says that there is an error. -/
def fisError (fis : List U8) : Bool := fis.getD 2 0 &&& 0x01#8 != 0

/-- The bits of `PxIS` that a frame sets. -/
def fisIrq (ft : SataFisType) (fis : List U8) : U32 :=
  (if fis.getD 1 0 &&& 0x40#8 ≠ 0 then ft.irq else 0) |||
    (if fisError fis then ahciPIxTFE else 0)

/-- Set bits of `PxIS` and, where one of them was clear, tell the controller. -/
def ahciSetIs (c : PortCtx) (irq : U32) : PortCtx :=
  if ~~~c.p.is &&& irq ≠ 0 then
    { c with p := { c.p with is := c.p.is ||| irq }
             sc := ahciPortIntr c.sc { c.p with is := c.p.is ||| irq } }
  else c

/-- `ahci_write_fis`. -/
def ahciWriteFis (c : PortCtx) (ft : SataFisType) (fis : List U8) : PortCtx :=
  if c.p.receives then
    let c := { c with p := { c.p with waitforclear := c.p.waitforclear || fisError fis } }
    ahciSetIs (c.setMem (c.mem.writeBytes (c.p.rfis + ft.offset) (fis.take ft.len)))
      (fisIrq ft fis)
  else c

/-- `ahci_write_fis_piosetup`. -/
def ahciWriteFisPiosetup (c : PortCtx) : PortCtx :=
  ahciWriteFis c .pioSetup ((List.replicate 20 0).set 0 SataFisType.pioSetup.code)

/-- What `ahci_write_fis_sdb` and `ahci_write_fis_d2h` keep of a failed command. -/
def ahciErrCfis (c : PortCtx) (first : U8) (status error : U8) (cfis : U64) : List U8 :=
  [first, c.p.dev.errCfis.getD 1 0, status, error] ++ c.mem.readBytes (cfis + 4) 16

/-- `ahci_write_fis_sdb`. -/
def ahciWriteFisSdb (c : PortCtx) (slot : Slot) (cfis : U64) (tfd : U32) : PortCtx :=
  let c := c.record (.sdb slot tfd)
  let error : U8 := tfd.extractLsb' 8 8
  let tfd : U32 := tfd &&& 0x77#32
  let status : U8 := tfd.setWidth 8
  let failed := tfd &&& ataSError ≠ 0
  let done : U32 := if failed then 0 else slotBit slot
  let p :=
    if failed then
      { c.p with dev.errCfis := ahciErrCfis c (BitVec.ofNat 8 slot) status error cfis }
    else { c.p with sact := c.p.sact &&& ~~~slotBit slot }
  ahciWriteFis { c with p := { p with tfd := p.tfd &&& ~~~0x77#32 ||| tfd } } .setDevBits
    [SataFisType.setDevBits.code, 0x40#8, status, error, done.extractLsb' 0 8,
      done.extractLsb' 8 8, done.extractLsb' 16 8, done.extractLsb' 24 8]

/-- `ahci_write_fis_d2h`. -/
def ahciWriteFisD2h (c : PortCtx) (slot : Slot) (cfis : U64) (tfd : U32) : PortCtx :=
  let c := c.record (.d2h slot tfd)
  let error : U8 := tfd.extractLsb' 8 8
  let status : U8 := tfd.setWidth 8
  let fis := [SataFisType.regD2H.code, 0x40#8, status, error] ++ c.mem.readBytes (cfis + 4) 10 ++
    List.replicate 6 0
  let p :=
    if tfd &&& ataSError ≠ 0 then
      { c.p with dev.errCfis := ahciErrCfis c 0x80#8 status error cfis }
    else { c.p with ci := c.p.ci &&& ~~~slotBit slot }
  ahciWriteFis { c with p := { p with tfd := tfd } } .regD2H fis

/-- `ahci_write_fis_d2h_ncq`. -/
def ahciWriteFisD2hNcq (c : PortCtx) (slot : Slot) : PortCtx :=
  let c := c.record (.d2hNcq slot)
  ahciWriteFis { c with p := { c.p with tfd := ataOk, ci := c.p.ci &&& ~~~slotBit slot } } .regD2H
    ([SataFisType.regD2H.code, 0, ataOk.setWidth 8] ++ List.replicate 17 0)

/-- `ahci_write_reset_fis_d2h`. -/
def ahciWriteResetFisD2h (c : PortCtx) : PortCtx :=
  ahciWriteFis c .regD2H
    ([SataFisType.regD2H.code, 0, 0, 1, 1] ++ (if c.p.atapi then [0x14#8, 0xeb#8] else [0, 0]) ++
      [0, 0, 0, 0, 0, 1] ++ List.replicate 7 0)

/-! ## Stopping and resetting a port -/

/-- `ahci_check_stopped`. -/
def ahciCheckStopped (p : AhciPort) : AhciPort :=
  if p.cmd &&& ahciPCmdST = 0 ∧ p.pending = 0 then
    { p with ccs := 0, cmd := p.cmd &&& ~~~(ahciPCmdCR ||| ahciPCmdCCSMask), ci := 0, sact := 0
             waitforclear := false }
  else p

/-- The registers that `ahci_port_reset` sets on any port. -/
def ahciPortResetRegs (p : AhciPort) : AhciPort :=
  { p with serr := 0, sact := 0, dev.xfermode := ataUdma6, dev.multSectors := 128#8 }

/-- `ahci_port_reset`. -/
def ahciPortReset (c : PortCtx) : PortCtx :=
  let p := ahciPortResetRegs c.p
  if !p.opened then
    { c with p := { p with ssts := ataSsDetNoDevice, sig := 0xffffffff#32, tfd := 0x7f#32 } }
  else
    let speed := if p.sctl &&& ataScSpdMask ≠ 0 then p.sctl &&& ataScSpdMask else ataSsSpdGen3
    let tfd : U32 := 1#32 <<< 8 ||| ataSDsc ||| ataSDma
    ahciWriteResetFisD2h
      { c with
        p := { p with
          ssts := ataSsDetPhyOnline ||| ataSsIpmActive ||| speed
          tfd := if p.atapi then tfd else tfd ||| ataSReady
          sig := if p.atapi then 0xeb140101#32 else 0x00000101#32 } }

end DeviceModel
