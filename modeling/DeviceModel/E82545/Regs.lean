import Mathlib.Logic.Function.Basic
import DeviceModel.E82545.Intr

/-!
# e1000 register accesses

`e82545_write_register`, `e82545_read_register` and what they call: the enable
bits of the two rings, the device reset, the EEPROM's bit-serial port, the MDI
port and the address filters.

`e82545_tx_disable` and `e82545_rx_disable` wait until the active flag is clear.
The wait loops on `pthread_cond_wait`, which returns at once and changes nothing,
so the functions take the iterations they may use.
-/

namespace DeviceModel

/-! ## Enabling and disabling the rings -/

/-- `pthread_cond_wait`: returns at once. -/
def pthreadCondWait (sc : E82545Softc) : E82545Softc := sc

/-- `while (active) pthread_cond_wait(...)`. -/
def condWaitWhile (active : E82545Softc → Bool) : Nat → E82545Softc → Except Stop E82545Softc
  | 0, _ => .error .outOfFuel
  | fuel + 1, sc => if active sc then condWaitWhile active fuel (pthreadCondWait sc) else .ok sc

/-- `e82545_tx_enable`. -/
def e82545TxEnable (sc : E82545Softc) : E82545Softc := { sc with tx.escTxEnabled := true }

/-- `e82545_rx_enable`. -/
def e82545RxEnable (sc : E82545Softc) : E82545Softc := { sc with rx.escRxEnabled := true }

/-- `e82545_tx_disable`. -/
def e82545TxDisable (fuel : Nat) (sc : E82545Softc) : Except Stop E82545Softc :=
  condWaitWhile (fun sc => sc.tx.escTxActive) fuel { sc with tx.escTxEnabled := false }

/-- `e82545_rx_disable`. -/
def e82545RxDisable (fuel : Nat) (sc : E82545Softc) : Except Stop E82545Softc :=
  condWaitWhile (fun sc => sc.rx.escRxActive) fuel { sc with rx.escRxEnabled := false }

/-- `e82545_rx_update_rdba`. -/
def e82545RxUpdateRdba (sc : E82545Softc) : E82545Softc :=
  let rdba : U64 := sc.rx.escRDBAH ++ sc.rx.escRDBAL
  { sc with rx.escRdba := rdba, rx.escRxdesc := paddrGuest2host sc.escCtx rdba }

/-- `e82545_tx_update_tdba`. -/
def e82545TxUpdateTdba (sc : E82545Softc) : E82545Softc :=
  let tdba : U64 := sc.tx.escTDBAH ++ sc.tx.escTDBAL
  { sc with tx.escTdba := tdba, tx.escTxdesc := paddrGuest2host sc.escCtx tdba }

/-- `e82545_rx_ctl`. RCTL is saved first, whatever the enable bit does. -/
def e82545RxCtl (fuel : Nat) (sc : E82545Softc) (val : U32) : Except Stop E82545Softc :=
  let on := (val &&& e1000RctlEN) == e1000RctlEN
  let sc := { sc with rx.escRCTL := val &&& ~~~0xF9204c01#32 }
  if on != sc.rx.escRxEnabled then
    if on then
      let sc := { sc with rx.escRxLoopback := (sc.rx.escRCTL &&& e1000RctlLBM_TCVR) != 0 }
      .ok (e82545RxEnable (e82545RxUpdateRdba sc))
    else do
      let sc ← e82545RxDisable fuel sc
      .ok { sc with rx.escRxLoopback := false, rx.escRdba := 0, rx.escRxdesc := 0 }
  else .ok sc

/-- `e82545_tx_ctl`. A write that leaves the enable bit alone returns early. -/
def e82545TxCtl (fuel : Nat) (sc : E82545Softc) (val : U32) : Except Stop E82545Softc :=
  let on := (val &&& e1000TctlEN) == e1000TctlEN
  if on == sc.tx.escTxEnabled then .ok sc
  else do
    let sc ←
      if on then pure (e82545TxEnable (e82545TxUpdateTdba sc))
      else do
        let sc ← e82545TxDisable fuel sc
        pure { sc with tx.escTdba := 0, tx.escTxdesc := 0 }
    .ok { sc with tx.escTCTL := val &&& ~~~0xFE800005#32 }

/-! ## EEPROM -/

/-- The sum of the first `n` EEPROM words. -/
def eepromSum (data : Nat → U16) : Nat → U16
  | 0 => 0
  | n + 1 => eepromSum data n + data n

/-- The words `e82545_init_eeprom` stores, before the checksum. -/
def eepromWords (mac : EtherAddr) (data : Nat → U16) (addr : Nat) : U16 :=
  match addr with
  | 0x00 => mac.octet1 ++ mac.octet0
  | 0x01 => mac.octet3 ++ mac.octet2
  | 0x02 => mac.octet5 ++ mac.octet4
  | 0x0B => 0x1008#16
  | 0x0C => 0x8086#16
  | 0x0D => 0x100F#16
  | 0x0E => 0x8086#16
  | addr => data addr

/-- `e82545_init_eeprom`: the MAC address, the PCI ids and the checksum word. -/
def e82545InitEeprom (sc : E82545Softc) : E82545Softc :=
  let words := eepromWords sc.escMac sc.nvm.eepromData
  { sc with nvm.eepromData := Function.update words 0x3F (0xBABA#16 - eepromSum words 0x3F) }

/-- Back to opcode mode. -/
def E82545Nvm.nvmIdle (nvm : E82545Nvm) : E82545Nvm :=
  { nvm with nvmOpaddr := 0, nvmMode := .opaddr, nvmBits := 9 }

/-- `E82545_NVM_OPCODE_MASK`, with the opcodes in place above the address bits. -/
def nvmOpcodeMask : U16 := 0x01C0#16
def nvmAddrMask : U16 := 0x003F#16
def nvmOpcodeREAD : U16 := 0x0180#16
def nvmOpcodeWRITE : U16 := 0x0140#16

/-- The DI pin as a bit to shift in. -/
def E82545Nvm.nvmDI (nvm : E82545Nvm) : U16 :=
  if nvm.eepromControl &&& e1000EecdDI ≠ 0 then 1 else 0

/-- `e82545_eecd_strobe`: one rising edge of SK. The case `nvm_mode` of none of the
three modes cannot arise, and EWEN does what the default case does. -/
def e82545EecdStrobe (nvm : E82545Nvm) : E82545Nvm :=
  if nvm.nvmBits = 0 then nvm
  else
    let nvm := { nvm with nvmBits := nvm.nvmBits - 1 }
    match nvm.nvmMode with
    | .dataout =>
      let control :=
        if nvm.nvmData &&& 0x8000#16 ≠ 0 then nvm.eepromControl ||| e1000EecdDO
        else nvm.eepromControl &&& ~~~e1000EecdDO
      let nvm := { nvm with eepromControl := control, nvmData := nvm.nvmData <<< 1 }
      if nvm.nvmBits = 0 then nvm.nvmIdle else nvm
    | .datain =>
      let nvm := { nvm with nvmData := nvm.nvmData <<< 1 ||| nvm.nvmDI }
      if nvm.nvmBits = 0 then
        let op := nvm.nvmOpaddr &&& nvmOpcodeMask
        let addr := nvm.nvmOpaddr &&& nvmAddrMask
        let nvm :=
          if op ≠ nvmOpcodeWRITE then nvm
          else if 64 ≤ addr.toNat then nvm
          else { nvm with eepromData := Function.update nvm.eepromData addr.toNat nvm.nvmData }
        nvm.nvmIdle
      else nvm
    | .opaddr =>
      let nvm := { nvm with nvmOpaddr := nvm.nvmOpaddr <<< 1 ||| nvm.nvmDI }
      if nvm.nvmBits = 0 then
        let op := nvm.nvmOpaddr &&& nvmOpcodeMask
        let addr := nvm.nvmOpaddr &&& nvmAddrMask
        if op = nvmOpcodeREAD then
          { nvm with nvmMode := .dataout, nvmBits := 16,
                     nvmData := if addr.toNat < 64 then nvm.eepromData addr.toNat else 0 }
        else if op = nvmOpcodeWRITE then
          { nvm with nvmMode := .datain, nvmBits := 16, nvmData := 0 }
        else nvm.nvmIdle
      else nvm

/-- The `E1000_EECD` case of `e82545_write_register`. -/
def e82545WriteEecd (nvm : E82545Nvm) (value : U32) : E82545Nvm :=
  let strobe :=
    if nvm.eepromControl &&& e1000EecdSK ≠ 0 then 0 else value &&& e1000EecdSK
  let mask := e1000EecdSK ||| e1000EecdCS ||| e1000EecdDI ||| e1000EecdREQ
  let control := (nvm.eepromControl &&& ~~~mask) ||| (value &&& mask)
  let control :=
    if value &&& e1000EecdREQ ≠ 0 then control ||| e1000EecdGNT else control &&& ~~~e1000EecdGNT
  let nvm := { nvm with eepromControl := control }
  if strobe ≠ 0 ∧ nvm.eepromControl &&& e1000EecdCS ≠ 0 then e82545EecdStrobe nvm else nvm

/-! ## MDI -/

/-- `e82545_read_mdi`. -/
def e82545ReadMdi (regAddr : U8) : U32 :=
  match regAddr.toNat with
  | 0x01 => 0x0004#32 ||| 0x0008#32 ||| 0x0020#32
  | 0x04 => 0x0001#32
  | 0x05 => 0
  | 0x0A => 0x0800#32 ||| 0x1000#32 ||| 0x2000#32
  | 0x02 => (0x01410C20#32 >>> 16) &&& 0xFFFF#32
  | 0x03 => (0x01410C20#32 ||| 4#32) &&& 0xFFFF#32
  | _ => 0

/-- The `E1000_MDIC` case of `e82545_write_register`: the new `mdi_control`.
`e82545_write_mdi` only logs. -/
def e82545WriteMdic (value : U32) : U32 :=
  let regAddr : U8 := ((value &&& 0x001F0000#32) >>> 16).setWidth 8
  let control := value &&& ~~~(e1000MdicERROR ||| e1000MdicDEST)
  if value &&& e1000MdicREADY ≠ 0 then control
  else if value &&& e82545MdicOP_MASK = e1000MdicOP_READ then
    (control &&& ~~~e82545MdicDATA_MASK) ||| e82545ReadMdi regAddr ||| e1000MdicREADY
  else if value &&& e82545MdicOP_MASK = e1000MdicOP_WRITE then control ||| e1000MdicREADY
  else control

/-! ## Receive addresses -/

/-- `e82545_write_ra`. -/
def e82545WriteRa (sc : E82545Softc) (reg : Nat) (wval : U32) : Except Stop E82545Softc := do
  let idx := reg / 2
  assert "idx < 15" (decide (idx < 15))
  let eu := sc.accept.escUni idx
  let eu' :=
    if reg % 2 = 1 then
      { euValid := (wval &&& e1000RahAV) == e1000RahAV
        euAddrsel := (wval >>> 16) &&& 3#32
        euEth := { eu.euEth with octet5 := wval.extractLsb' 8 8, octet4 := wval.extractLsb' 0 8 } }
    else
      { eu with euEth := { eu.euEth with
          octet3 := wval.extractLsb' 24 8, octet2 := wval.extractLsb' 16 8
          octet1 := wval.extractLsb' 8 8, octet0 := wval.extractLsb' 0 8 } }
  .ok { sc with accept.escUni := Function.update sc.accept.escUni idx eu' }

/-- `e82545_read_ra`. -/
def e82545ReadRa (sc : E82545Softc) (reg : Nat) : Except Stop U32 := do
  let idx := reg / 2
  assert "idx < 15" (decide (idx < 15))
  let eu := sc.accept.escUni idx
  let a := eu.euEth
  .ok <|
    if reg % 2 = 1 then
      ((if eu.euValid then 1#32 else 0#32) <<< 31) ||| (eu.euAddrsel <<< 16) |||
        (a.octet5.setWidth 32 <<< 8) ||| a.octet4.setWidth 32
    else a.octet3 ++ a.octet2 ++ a.octet1 ++ a.octet0

/-! ## Reset -/

/-- The start of `e82545_reset`: clear the line, then the general registers. -/
def e82545ResetGeneral (drvr : Bool) (sc : E82545Softc) : E82545Softc :=
  let sc :=
    if sc.intr.escIrqAsserted then { sc with escPi := pciLintrDeassert sc.escPi } else sc
  let sc :=
    if drvr then sc
    else { sc with gen.escFCAL := 0, gen.escFCAH := 0, gen.escFCT := 0, gen.escVET := 0,
                   gen.escFCTTV := 0 }
  { sc with gen.escLEDCTL := 0x07061302#32, gen.escPBA := 0x00100030#32 }

/-- The EEPROM part of `e82545_reset`. -/
def e82545ResetNvm (sc : E82545Softc) : E82545Softc :=
  e82545InitEeprom { sc with
    nvm := { sc.nvm.nvmIdle with eepromControl := e1000EecdPRES ||| e82545EecdFWE_EN } }

/-- The interrupt part of `e82545_reset`. `esc_irq_asserted` and the timer stay. -/
def e82545ResetIntr (sc : E82545Softc) : E82545Softc :=
  { sc with intr.escICR := 0, intr.escITR := 250#32, intr.escICS := 0, intr.escIMS := 0,
            intr.escIMC := 0 }

/-- The L2 filter part of `e82545_reset`. -/
def e82545ResetAccept (drvr : Bool) (sc : E82545Softc) : E82545Softc :=
  if drvr then
    { sc with accept.escUni := fun i =>
        if i < 16 then { sc.accept.escUni i with euValid := false } else sc.accept.escUni i }
  else
    { sc with
      accept.escFvlan := fun _ => 0
      accept.escFmcast := fun _ => 0
      accept.escUni := Function.update (fun _ => ⟨false, 0, ⟨0, 0, 0, 0, 0, 0⟩⟩) 0
        ⟨true, 0, sc.escMac⟩ }

/-- The receive part of `e82545_reset`. -/
def e82545ResetRx (drvr : Bool) (sc : E82545Softc) : E82545Softc :=
  let sc := if drvr then sc else { sc with rx.escRDBAL := 0, rx.escRDBAH := 0 }
  { sc with
    rx.escRCTL := 0, rx.escFCRTL := 0, rx.escFCRTH := 0, rx.escRDLEN := 0, rx.escRDH := 0
    rx.escRDT := 0, rx.escRDTR := 0, rx.escRXDCTL := 0x01010000#32, rx.escRADV := 0
    rx.escRXCSUM := 0 }

/-- The transmit part of `e82545_reset`. -/
def e82545ResetTx (drvr : Bool) (sc : E82545Softc) : E82545Softc :=
  let sc :=
    if drvr then sc
    else { sc with tx.escTDBAL := 0, tx.escTDBAH := 0, tx.escTIPG := 0, tx.escAIT := 0,
                   tx.escTIDV := 0, tx.escTADV := 0 }
  { sc with
    tx.escTdba := 0, tx.escTxdesc := 0, tx.escTXCW := 0, tx.escTCTL := 0, tx.escTDLEN := 0
    tx.escTDT := 0, tx.escTDHr := 0, tx.escTDH := 0, tx.escTXDCTL := 0 }

/-- `e82545_reset`, past the two disables: everything that is plain assignment. -/
def e82545ResetRegs (drvr : Bool) (sc : E82545Softc) : E82545Softc :=
  e82545ResetTx drvr (e82545ResetRx drvr (e82545ResetAccept drvr
    (e82545ResetIntr (e82545ResetNvm (e82545ResetGeneral drvr sc)))))

/-- `e82545_reset`. -/
def e82545Reset (fuel : Nat) (drvr : Bool) (sc : E82545Softc) : Except Stop E82545Softc := do
  let sc ← e82545RxDisable fuel sc
  let sc ← e82545TxDisable fuel sc
  .ok (e82545ResetRegs drvr sc)

/-- `e82545_devctl`. -/
def e82545Devctl (fuel : Nat) (sc : E82545Softc) (val : U32) : Except Stop E82545Softc :=
  let sc := { sc with gen.escCTRL := val &&& ~~~e1000CtrlRST }
  if val &&& e1000CtrlRST ≠ 0 then e82545Reset fuel true sc else .ok sc

/-! ## The register file -/

/-- `e82545_tx_start` only signals a condition variable. -/
def e82545TxStart (sc : E82545Softc) : E82545Softc := sc

/-- The `switch` of `e82545_write_register`. -/
def e82545WriteReg (fuel : Nat) (sc : E82545Softc) (reg : E1000Reg) (value : U32) :
    Except Stop E82545Softc :=
  match reg with
  | .ctrl | .ctrlDup => e82545Devctl fuel sc value
  | .fcal => .ok { sc with gen.escFCAL := value }
  | .fcah => .ok { sc with gen.escFCAH := value &&& ~~~0xFFFF0000#32 }
  | .fct => .ok { sc with gen.escFCT := value &&& ~~~0xFFFF0000#32 }
  | .vet => .ok { sc with gen.escVET := value &&& ~~~0xFFFF0000#32 }
  | .fcttv => .ok { sc with gen.escFCTTV := value &&& ~~~0xFFFF0000#32 }
  | .ledctl => .ok { sc with gen.escLEDCTL := value &&& ~~~0x30303000#32 }
  | .pba => .ok { sc with gen.escPBA := value &&& 0x0000FF80#32 }
  | .icr | .itr | .ics | .ims | .imc => .ok (e82545IntrWrite sc reg value)
  | .rctl => e82545RxCtl fuel sc value
  | .fcrtl => .ok { sc with rx.escFCRTL := value &&& ~~~0xFFFF0007#32 }
  | .fcrth => .ok { sc with rx.escFCRTH := value &&& ~~~0xFFFF0007#32 }
  | .rdbal =>
    let sc := { sc with rx.escRDBAL := value &&& ~~~0xF#32 }
    .ok (if sc.rx.escRxEnabled then e82545RxUpdateRdba sc else sc)
  | .rdbah => do
    assert "!sc->esc_rx_enabled" (!sc.rx.escRxEnabled)
    .ok { sc with rx.escRDBAH := value }
  | .rdlen => do
    assert "!sc->esc_rx_enabled" (!sc.rx.escRxEnabled)
    .ok { sc with rx.escRDLEN := value &&& ~~~0xFFF0007F#32 }
  | .rdh => .ok { sc with rx.escRDH := value.setWidth 16 }
  | .rdt => .ok { sc with rx.escRDT := value.setWidth 16 }
  | .rdtr => .ok { sc with rx.escRDTR := value &&& ~~~0xFFFF0000#32 }
  | .rxdctl => .ok { sc with rx.escRXDCTL := value &&& ~~~0xFEC0C0C0#32 }
  | .radv => .ok { sc with rx.escRADV := value &&& ~~~0xFFFF0000#32 }
  | .rsrpd => .ok { sc with rx.escRSRPD := value &&& ~~~0xFFFFF000#32 }
  | .rxcsum => .ok { sc with rx.escRXCSUM := value &&& ~~~0xFFFFF800#32 }
  | .txcw => .ok { sc with tx.escTXCW := value &&& ~~~0x3FFF0000#32 }
  | .tctl => e82545TxCtl fuel sc value
  | .tipg => .ok { sc with tx.escTIPG := value }
  | .ait => .ok { sc with tx.escAIT := value.setWidth 16 }
  | .tdbal =>
    let sc := { sc with tx.escTDBAL := value &&& ~~~0xF#32 }
    .ok (if sc.tx.escTxEnabled then e82545TxUpdateTdba sc else sc)
  | .tdbah => .ok { sc with tx.escTDBAH := value }
  | .tdlen => .ok { sc with tx.escTDLEN := value &&& ~~~0xFFF0007F#32 }
  | .tdh => .ok { sc with tx.escTDHr := value.setWidth 16, tx.escTDH := value.setWidth 16 }
  | .tdt =>
    let sc := { sc with tx.escTDT := value.setWidth 16 }
    .ok (if sc.tx.escTxEnabled then e82545TxStart sc else sc)
  | .tidv => .ok { sc with tx.escTIDV := value &&& ~~~0xFFFF0000#32 }
  | .txdctl => .ok { sc with tx.escTXDCTL := value &&& ~~~0xC0C0C0#32 }
  | .tadv => .ok { sc with tx.escTADV := value &&& ~~~0xFFFF0000#32 }
  | .ra ridx => e82545WriteRa sc ridx value
  | .mta idx => .ok { sc with accept.escFmcast := Function.update sc.accept.escFmcast idx value }
  | .vfta idx => .ok { sc with accept.escFvlan := Function.update sc.accept.escFvlan idx value }
  | .eecd => .ok { sc with nvm := e82545WriteEecd sc.nvm value }
  | .mdic => .ok { sc with nvm.mdiControl := e82545WriteMdic value }
  | .manc | .status | .stat _ | .unknown => .ok sc

/-- `e82545_write_register`. -/
def e82545WriteRegister (fuel : Nat) (sc : E82545Softc) (offset value : U32) :
    Except Stop E82545Softc :=
  if offset &&& 3#32 ≠ 0 then .ok sc
  else e82545WriteReg fuel sc (.ofOffset offset.toNat) value

/-- The statistics cases of `e82545_read_register`. -/
def e82545ReadStat (st : E82545Stats) (s : E1000Stat) : U32 :=
  match s with
  | .mpc => st.missedPktCount
  | .prc i => st.pktRxBySize i
  | .gprc => st.goodPktRxCount
  | .bprc => st.bcastPktRxCount
  | .mprc => st.mcastPktRxCount
  | .gptc => st.goodPktTxCount
  | .gorcl => st.goodOctetsRx.setWidth 32
  | .gorch => (st.goodOctetsRx >>> 32).setWidth 32
  | .gotcl => st.goodOctetsTx.setWidth 32
  | .gotch => (st.goodOctetsTx >>> 32).setWidth 32
  | .roc => st.oversizeRxCount
  | .torl => (st.goodOctetsRx + st.missedOctets).setWidth 32
  | .torh => ((st.goodOctetsRx + st.missedOctets) >>> 32).setWidth 32
  | .tpr => st.goodPktRxCount + st.missedPktCount + st.oversizeRxCount
  | .ptc i => st.pktTxBySize i
  | .mptc => st.mcastPktTxCount
  | .bptc => st.bcastPktTxCount
  | .tsctc => st.tsoTxCount

/-- The `switch` of `e82545_read_register`. Only ICR changes by being read. -/
def e82545ReadReg (sc : E82545Softc) (reg : E1000Reg) : Except Stop (E82545Softc × U32) :=
  match reg with
  | .ctrl => .ok (sc, sc.gen.escCTRL)
  | .status => .ok (sc, 0x00000001#32 ||| 0x00000002#32 ||| 0x00000080#32)
  | .fcal => .ok (sc, sc.gen.escFCAL)
  | .fcah => .ok (sc, sc.gen.escFCAH)
  | .fct => .ok (sc, sc.gen.escFCT)
  | .vet => .ok (sc, sc.gen.escVET)
  | .fcttv => .ok (sc, sc.gen.escFCTTV)
  | .ledctl => .ok (sc, sc.gen.escLEDCTL)
  | .pba => .ok (sc, sc.gen.escPBA)
  | .icr | .itr | .ics | .ims | .imc => .ok (e82545IntrRead sc reg)
  | .rctl => .ok (sc, sc.rx.escRCTL)
  | .fcrtl => .ok (sc, sc.rx.escFCRTL)
  | .fcrth => .ok (sc, sc.rx.escFCRTH)
  | .rdbal => .ok (sc, sc.rx.escRDBAL)
  | .rdbah => .ok (sc, sc.rx.escRDBAH)
  | .rdlen => .ok (sc, sc.rx.escRDLEN)
  | .rdh => .ok (sc, sc.rx.escRDH.setWidth 32)
  | .rdt => .ok (sc, sc.rx.escRDT.setWidth 32)
  | .rdtr => .ok (sc, sc.rx.escRDTR)
  | .rxdctl => .ok (sc, sc.rx.escRXDCTL)
  | .radv => .ok (sc, sc.rx.escRADV)
  | .rsrpd => .ok (sc, sc.rx.escRSRPD)
  | .rxcsum => .ok (sc, sc.rx.escRXCSUM)
  | .txcw => .ok (sc, sc.tx.escTXCW)
  | .tctl => .ok (sc, sc.tx.escTCTL)
  | .tipg => .ok (sc, sc.tx.escTIPG)
  | .ait => .ok (sc, sc.tx.escAIT.setWidth 32)
  | .tdbal => .ok (sc, sc.tx.escTDBAL)
  | .tdbah => .ok (sc, sc.tx.escTDBAH)
  | .tdlen => .ok (sc, sc.tx.escTDLEN)
  | .tdh => .ok (sc, sc.tx.escTDH.setWidth 32)
  | .tdt => .ok (sc, sc.tx.escTDT.setWidth 32)
  | .tidv => .ok (sc, sc.tx.escTIDV)
  | .txdctl => .ok (sc, sc.tx.escTXDCTL)
  | .tadv => .ok (sc, sc.tx.escTADV)
  | .ra ridx => do
    let v ← e82545ReadRa sc ridx
    .ok (sc, v)
  | .mta idx => .ok (sc, sc.accept.escFmcast idx)
  | .vfta idx => .ok (sc, sc.accept.escFvlan idx)
  | .eecd => .ok (sc, sc.nvm.eepromControl)
  | .mdic => .ok (sc, sc.nvm.mdiControl)
  | .stat s => .ok (sc, e82545ReadStat sc.stats s)
  | .ctrlDup | .manc | .unknown => .ok (sc, 0)

/-- `e82545_read_register`. -/
def e82545ReadRegister (sc : E82545Softc) (offset : U32) : Except Stop (E82545Softc × U32) :=
  if offset &&& 3#32 ≠ 0 then .ok (sc, 0)
  else e82545ReadReg sc (.ofOffset offset.toNat)

/-! ## The BAR handlers -/

/-- `e82545_write` between lock and unlock. BAR 0 is the register BAR, BAR 2 the
I/O window with its address and data ports. -/
def e82545WriteBar (fuel : Nat) (sc : E82545Softc) (baridx : Nat) (offset : U64) (size : Nat)
    (value : U64) : Except Stop E82545Softc :=
  match baridx with
  | 2 =>
    if offset = 0 then .ok (if size = 4 then { sc with ioAddr := value.setWidth 32 } else sc)
    else if offset = 4 then
      if size ≠ 4 ∨ 0x0001FFFF < sc.ioAddr.toNat then .ok sc
      else e82545WriteRegister fuel sc sc.ioAddr (value.setWidth 32)
    else .ok sc
  | 0 =>
    if size ≠ 4 then .ok sc
    else e82545WriteRegister fuel sc (offset.setWidth 32) (value.setWidth 32)
  | _ => .ok sc

/-- `e82545_write`. -/
def e82545Write (fuel : Nat) (sc : E82545Softc) (baridx : Nat) (offset : U64) (size : Nat)
    (value : U64) : Except Stop E82545Softc := do
  let sc ← e82545WriteBar fuel sc.lockMtx baridx offset size value
  .ok sc.unlockMtx

/-- `e82545_read` between lock and unlock. A data port read of the wrong size is
logged and then done all the same. -/
def e82545ReadBar (sc : E82545Softc) (baridx : Nat) (offset : U64) (size : Nat) :
    Except Stop (E82545Softc × U32) :=
  match baridx with
  | 2 =>
    if offset = 0 then .ok (sc, if size = 4 then sc.ioAddr else 0)
    else if offset = 4 then
      if 0x0001FFFF < sc.ioAddr.toNat then .ok (sc, 0) else e82545ReadRegister sc sc.ioAddr
    else .ok (sc, 0)
  | 0 => if size ≠ 4 then .ok (sc, 0) else e82545ReadRegister sc (offset.setWidth 32)
  | _ => .ok (sc, 0)

/-- `e82545_read`. -/
def e82545Read (sc : E82545Softc) (baridx : Nat) (offset : U64) (size : Nat) :
    Except Stop (E82545Softc × U32) := do
  let (sc, v) ← e82545ReadBar sc.lockMtx baridx offset size
  .ok (sc.unlockMtx, v)

/-! ## Initialisation -/

/-- The softc `e82545_init` allocates with `calloc` and fills in before the reset. -/
def e82545Calloc (ctx : Vmctx) : E82545Softc where
  escPi := pciDevinstInit
  escCtx := ctx
  escMtx := pthreadMutexInit
  escMac := ⟨0x00, 0x07, 0xed, 0x63, 0xe4, 0x91⟩
  gen := ⟨0, 0, 0, 0, 0, 0, 0, 0⟩
  intr := ⟨false, 0, 0, 0, 0, 0, false, false⟩
  tx := ⟨0, ⟨0, 0, 0, 0⟩, false, false, 0, 0, 0, 0, 0, 0, 0, 0, 0, 0, 0, 0, 0, 0⟩
  accept := ⟨fun _ => ⟨false, 0, ⟨0, 0, 0, 0, 0, 0⟩⟩, fun _ => 0, fun _ => 0⟩
  rx := ⟨0, false, false, false, 0, 0, 0, 0, 0, 0, 0, 0, 0, 0, 0, 0, 0, 0⟩
  ioAddr := 0
  nvm := ⟨0, 0, 0, 0, 0, .opaddr, fun _ => 0⟩
  stats := ⟨0, fun _ => 0, fun _ => 0, 0, 0, 0, 0, 0, 0, 0, 0, 0, 0, 0⟩

/-- `e82545_init`: the hardware reset of the fresh softc. The two disables return,
since nothing is active yet. -/
def e82545Init (ctx : Vmctx) : E82545Softc := e82545ResetRegs false (e82545Calloc ctx)

/-! ## What an access reaches -/

/-- The register that a BAR write of a given size reaches, if any. -/
def e82545BarRegister (sc : E82545Softc) (baridx : Nat) (offset : U64) (size : Nat) :
    Option E1000Reg :=
  match baridx with
  | 2 =>
    if offset = 4 ∧ size = 4 ∧ sc.ioAddr.toNat ≤ 0x0001FFFF ∧ sc.ioAddr &&& 3#32 = 0 then
      some (.ofOffset sc.ioAddr.toNat)
    else none
  | 0 =>
    if size = 4 ∧ (offset.setWidth 32 : U32) &&& 3#32 = 0 then
      some (.ofOffset (offset.setWidth 32 : U32).toNat)
    else none
  | _ => none

/-- A BAR write either sets `io_addr` at most, or is a write of one register. -/
theorem e82545WriteBar_cases (fuel : Nat) (sc : E82545Softc) (baridx : Nat) (offset : U64)
    (size : Nat) (value : U64) :
    (e82545BarRegister sc baridx offset size = none ∧
      ∃ w, e82545WriteBar fuel sc baridx offset size value = .ok { sc with ioAddr := w }) ∨
    ∃ reg, e82545BarRegister sc baridx offset size = some reg ∧
      e82545WriteBar fuel sc baridx offset size value =
        e82545WriteReg fuel sc reg (value.setWidth 32) := by
  unfold e82545WriteBar e82545BarRegister e82545WriteRegister
  split
  · by_cases h0 : offset = 0
    · refine .inl ⟨by simp [h0], ?_⟩
      by_cases hs : size = 4
      · exact ⟨value.setWidth 32, by simp [h0, hs]⟩
      · exact ⟨sc.ioAddr, by simp [h0, hs]⟩
    · by_cases h4 : offset = 4
      · by_cases hs : size ≠ 4 ∨ 0x0001FFFF < sc.ioAddr.toNat
        · refine .inl ⟨by rw [if_neg (by omega)], sc.ioAddr, ?_⟩
          rw [if_neg h0, if_pos h4, if_pos hs]
        · by_cases ha : sc.ioAddr &&& 3#32 = 0
          · refine .inr ⟨.ofOffset sc.ioAddr.toNat, by rw [if_pos ⟨h4, by omega, by omega, ha⟩], ?_⟩
            rw [if_neg h0, if_pos h4, if_neg hs, if_neg (not_not.2 ha)]
          · refine .inl ⟨by rw [if_neg fun h => ha h.2.2.2], sc.ioAddr, ?_⟩
            rw [if_neg h0, if_pos h4, if_neg hs, if_pos ha]
      · refine .inl ⟨by rw [if_neg fun h => h4 h.1], sc.ioAddr, ?_⟩
        rw [if_neg h0, if_neg h4]
  · by_cases hs : size = 4
    · by_cases ha : (offset.setWidth 32 : U32) &&& 3#32 = 0
      · refine .inr ⟨_, by rw [if_pos ⟨hs, ha⟩], ?_⟩
        rw [if_neg (not_not.2 hs), if_neg (not_not.2 ha)]
      · refine .inl ⟨by rw [if_neg fun h => ha h.2], sc.ioAddr, ?_⟩
        rw [if_neg (not_not.2 hs), if_pos ha]
    · refine .inl ⟨by rw [if_neg fun h => hs h.1], sc.ioAddr, ?_⟩
      rw [if_pos hs]
  · exact .inl ⟨rfl, sc.ioAddr, rfl⟩

/-- What a finished BAR write has done, under the device's mutex. -/
theorem e82545Write_cases {fuel : Nat} {sc t : E82545Softc} {baridx : Nat} {offset : U64}
    {size : Nat} {value : U64} (h : e82545Write fuel sc baridx offset size value = .ok t) :
    (e82545BarRegister sc baridx offset size = none ∧
      ∃ w, t = { sc.lockMtx with ioAddr := w }.unlockMtx) ∨
    ∃ reg u, e82545BarRegister sc baridx offset size = some reg ∧
      e82545WriteReg fuel sc.lockMtx reg (value.setWidth 32) = .ok u ∧ t = u.unlockMtx := by
  obtain ⟨u, hu, ht⟩ := Except.bind_eq_ok.1 h
  cases ht
  rcases e82545WriteBar_cases fuel sc.lockMtx baridx offset size value with
    ⟨hnone, w, hw⟩ | ⟨reg, hreg, hw⟩
  · rw [hw] at hu
    cases hu
    exact .inl ⟨hnone, w, rfl⟩
  · rw [hw] at hu
    exact .inr ⟨reg, u, hreg, hu, rfl⟩

/-- A write of TDT through the register BAR only stores it. -/
theorem e82545Write_tdt (fuel : Nat) (sc : E82545Softc) (value : U64) :
    e82545Write fuel sc 0 0x3818 4 value =
      .ok { sc with
        escMtx := pthreadMutexUnlock (pthreadMutexLock sc.escMtx)
        tx.escTDT := (value.setWidth 32 : U32).setWidth 16 } := by
  have hbar : e82545WriteBar fuel sc.lockMtx 0 0x3818 4 value =
      .ok { sc.lockMtx with tx.escTDT := (value.setWidth 32 : U32).setWidth 16 } := by
    change Except.ok (if sc.tx.escTxEnabled then _ else _) = _
    split <;> rfl
  rw [e82545Write, hbar]
  rfl

/-- A BAR read changes nothing, or it is a read of ICR. -/
theorem e82545ReadBar_cases {sc t : E82545Softc} {baridx : Nat} {offset : U64} {size : Nat}
    {v : U32} (h : e82545ReadBar sc baridx offset size = .ok (t, v)) :
    t = sc ∨ t = (e82545IntrRead sc .icr).1 := by
  have hreg : ∀ reg, e82545ReadReg sc reg = .ok (t, v) →
      t = sc ∨ t = (e82545IntrRead sc .icr).1 := by
    intro reg h
    cases reg with
    | icr =>
      simp only [e82545ReadReg, Except.ok.injEq] at h
      exact .inr (by rw [h])
    | ra ridx =>
      obtain ⟨w, -, h⟩ := Except.bind_eq_ok.1 h
      simp only [Except.ok.injEq, Prod.mk.injEq] at h
      exact .inl h.1.symm
    | _ =>
      simp only [e82545ReadReg, e82545IntrRead, Except.ok.injEq, Prod.mk.injEq] at h
      exact .inl h.1.symm
  have hregister : ∀ a, e82545ReadRegister sc a = .ok (t, v) →
      t = sc ∨ t = (e82545IntrRead sc .icr).1 := by
    intro a h
    unfold e82545ReadRegister at h
    split at h
    · simp only [Except.ok.injEq, Prod.mk.injEq] at h
      exact .inl h.1.symm
    · exact hreg _ h
  have hok : ∀ w : U32, (Except.ok (sc, w) : Except Stop _) = .ok (t, v) →
      t = sc ∨ t = (e82545IntrRead sc .icr).1 := by
    intro w h
    simp only [Except.ok.injEq, Prod.mk.injEq] at h
    exact .inl h.1.symm
  unfold e82545ReadBar at h
  split at h
  · split at h
    · exact hok _ h
    · split at h
      · split at h
        · exact hok _ h
        · exact hregister _ h
      · exact hok _ h
  · split at h
    · exact hok _ h
    · exact hregister _ h
  · exact hok _ h

/-- A BAR read touches the mutex, the line and the interrupt registers at most. -/
theorem e82545Read_frame {sc t : E82545Softc} {baridx : Nat} {offset : U64} {size : Nat} {v : U32}
    (h : e82545Read sc baridx offset size = .ok (t, v)) :
    ∃ mtx pi intr, t = { sc with escMtx := mtx, escPi := pi, intr := intr } := by
  obtain ⟨⟨u, w⟩, hu, ht⟩ := Except.bind_eq_ok.1 h
  cases ht
  rcases e82545ReadBar_cases hu with rfl | rfl
  · exact ⟨_, _, _, rfl⟩
  · obtain ⟨pi, intr, hframe⟩ := e82545IntrRead_icr_frame sc.lockMtx
    rw [hframe]
    exact ⟨_, pi, intr, rfl⟩

/-- The wait returns when the flag is clear, and then it has changed nothing. -/
theorem condWaitWhile_eq_ok {active : E82545Softc → Bool} {fuel : Nat} {sc t : E82545Softc} :
    condWaitWhile active fuel sc = .ok t ↔ 0 < fuel ∧ active sc = false ∧ t = sc := by
  induction fuel with
  | zero => simp [condWaitWhile]
  | succ fuel ih =>
    cases ha : active sc with
    | true => simp [condWaitWhile, ha, pthreadCondWait, ih]
    | false => simp [condWaitWhile, ha, eq_comm]

/-! The parts of the reset keep to themselves. -/

section ResetParts

variable (drvr : Bool) (sc : E82545Softc)

@[simp] theorem e82545ResetGeneral_intr : (e82545ResetGeneral drvr sc).intr = sc.intr := by
  unfold e82545ResetGeneral
  cases sc.intr.escIrqAsserted <;> cases drvr <;> rfl

@[simp] theorem e82545ResetGeneral_escPi : (e82545ResetGeneral drvr sc).escPi =
    if sc.intr.escIrqAsserted then pciLintrDeassert sc.escPi else sc.escPi := by
  unfold e82545ResetGeneral
  cases sc.intr.escIrqAsserted <;> cases drvr <;> rfl

@[simp] theorem e82545ResetGeneral_tx : (e82545ResetGeneral drvr sc).tx = sc.tx := by
  unfold e82545ResetGeneral
  cases sc.intr.escIrqAsserted <;> cases drvr <;> rfl

@[simp] theorem e82545ResetGeneral_rx : (e82545ResetGeneral drvr sc).rx = sc.rx := by
  unfold e82545ResetGeneral
  cases sc.intr.escIrqAsserted <;> cases drvr <;> rfl

@[simp] theorem e82545ResetNvm_intr : (e82545ResetNvm sc).intr = sc.intr := rfl

@[simp] theorem e82545ResetNvm_escPi : (e82545ResetNvm sc).escPi = sc.escPi := rfl

@[simp] theorem e82545ResetNvm_tx : (e82545ResetNvm sc).tx = sc.tx := rfl

@[simp] theorem e82545ResetNvm_rx : (e82545ResetNvm sc).rx = sc.rx := rfl

@[simp] theorem e82545ResetAccept_intr : (e82545ResetAccept drvr sc).intr = sc.intr := by
  cases drvr <;> rfl

@[simp] theorem e82545ResetAccept_escPi : (e82545ResetAccept drvr sc).escPi = sc.escPi := by
  cases drvr <;> rfl

@[simp] theorem e82545ResetAccept_tx : (e82545ResetAccept drvr sc).tx = sc.tx := by
  cases drvr <;> rfl

@[simp] theorem e82545ResetAccept_rx : (e82545ResetAccept drvr sc).rx = sc.rx := by
  cases drvr <;> rfl

@[simp] theorem e82545ResetRx_intr : (e82545ResetRx drvr sc).intr = sc.intr := by
  cases drvr <;> rfl

@[simp] theorem e82545ResetRx_escPi : (e82545ResetRx drvr sc).escPi = sc.escPi := by
  cases drvr <;> rfl

@[simp] theorem e82545ResetRx_tx : (e82545ResetRx drvr sc).tx = sc.tx := by
  cases drvr <;> rfl

@[simp] theorem e82545ResetTx_intr : (e82545ResetTx drvr sc).intr = sc.intr := by
  cases drvr <;> rfl

@[simp] theorem e82545ResetTx_escPi : (e82545ResetTx drvr sc).escPi = sc.escPi := by
  cases drvr <;> rfl

@[simp] theorem e82545ResetTx_rx : (e82545ResetTx drvr sc).rx = sc.rx := by
  cases drvr <;> rfl

/-- Reset clears the line but not the driver's copy of its state. -/
@[simp] theorem e82545ResetRegs_escPi : (e82545ResetRegs drvr sc).escPi =
    if sc.intr.escIrqAsserted then pciLintrDeassert sc.escPi else sc.escPi := by
  simp [e82545ResetRegs, e82545ResetIntr]

@[simp] theorem e82545ResetRegs_intr : (e82545ResetRegs drvr sc).intr =
    { sc.intr with escICR := 0, escITR := 250#32, escICS := 0, escIMS := 0, escIMC := 0 } := by
  simp [e82545ResetRegs, e82545ResetIntr]

end ResetParts

/-- What a finished device reset has done. -/
theorem e82545Reset_eq_ok {fuel : Nat} {drvr : Bool} {sc t : E82545Softc} :
    e82545Reset fuel drvr sc = .ok t ↔
      0 < fuel ∧ sc.rx.escRxActive = false ∧ sc.tx.escTxActive = false ∧
      t = e82545ResetRegs drvr { sc with rx.escRxEnabled := false, tx.escTxEnabled := false } := by
  unfold e82545Reset e82545RxDisable e82545TxDisable
  simp only [Except.bind_eq_ok, condWaitWhile_eq_ok, Except.ok.injEq]
  constructor
  · rintro ⟨_, ⟨hf, hr, rfl⟩, _, ⟨-, ht, rfl⟩, rfl⟩
    exact ⟨hf, hr, ht, rfl⟩
  · rintro ⟨hf, hr, ht, rfl⟩
    exact ⟨_, ⟨hf, hr, rfl⟩, _, ⟨hf, ht, rfl⟩, rfl⟩

end DeviceModel
