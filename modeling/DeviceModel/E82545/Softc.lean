import DeviceModel.Library.Outcome
import DeviceModel.Machine
import DeviceModel.PciLintr

/-!
# The state of the e1000 device

`struct e82545_softc` of `bhyve/pci_e82545.c`, its descriptors, and the register
map. Registers keep the names and widths of the source; a `1`/`0` flag of type
`int` is a `Bool`. The condition variables are left out (the pthread shim gives
them no state), and so is `esc_tapfd`, which only disabled code reads.
-/

namespace DeviceModel

/-! ## Descriptors -/

/-- `union e1000_tx_udesc`, as its six 32-bit words. The buffer address starts at
word 0 in both builds. A capability takes words 0 to 3, so in the purecap build
the data words move to 4 and 5; the context descriptor, whose `reserved` field
takes words 0 and 1, has one layout in both. -/
structure E1000TxUdesc where
  w0 : U32
  w1 : U32
  w2 : U32
  w3 : U32
  w4 : U32
  w5 : U32
  deriving DecidableEq, Repr

namespace E1000TxUdesc

/-- `td.buffer_addr`: the address, for a capability too. -/
def bufferAddr (d : E1000TxUdesc) : U64 := d.w1 ++ d.w0

/-- `td.lower.data` and `dd.lower.data`. -/
def lower (b : Build) (d : E1000TxUdesc) : U32 :=
  match b with
  | .integer => d.w2
  | .purecap => d.w4

/-- `td.upper.data` and `dd.upper.data`. -/
def upper (b : Build) (d : E1000TxUdesc) : U32 :=
  match b with
  | .integer => d.w3
  | .purecap => d.w5

/-- Store to `td.upper.data`. -/
def setUpper (b : Build) (d : E1000TxUdesc) (v : U32) : E1000TxUdesc :=
  match b with
  | .integer => { d with w3 := v }
  | .purecap => { d with w5 := v }

@[simp] theorem lower_setUpper (b : Build) (d : E1000TxUdesc) (v : U32) :
    (d.setUpper b v).lower b = d.lower b := by
  cases b <;> rfl

@[simp] theorem upper_setUpper (b : Build) (d : E1000TxUdesc) (v : U32) :
    (d.setUpper b v).upper b = v := by
  cases b <;> rfl

end E1000TxUdesc

/-- `struct e1000_context_desc`, without its reserved word. -/
structure E1000ContextDesc where
  lowerSetup : U32
  upperSetup : U32
  cmdAndLength : U32
  tcpSegSetup : U32
  deriving DecidableEq, Repr

/-- `dsc->cd`. -/
def E1000TxUdesc.cd (d : E1000TxUdesc) : E1000ContextDesc := ⟨d.w2, d.w3, d.w4, d.w5⟩

/-- `struct e1000_rx_desc`. -/
structure E1000RxDesc where
  bufferAddr : U64
  length : U16
  csum : U16
  status : U8
  errors : U8
  special : U16
  deriving DecidableEq, Repr

/-! ## The softc -/

/-- `struct ether_addr`. -/
structure EtherAddr where
  octet0 : U8
  octet1 : U8
  octet2 : U8
  octet3 : U8
  octet4 : U8
  octet5 : U8
  deriving DecidableEq, Repr

/-- `struct eth_uni`: one receive address register pair. -/
structure EthUni where
  euValid : Bool
  euAddrsel : U32
  euEth : EtherAddr
  deriving DecidableEq, Repr

/-- The modes of the EEPROM's shift register. -/
inductive NvmMode : Type where
  | opaddr
  | datain
  | dataout
  deriving DecidableEq, Repr

/-- The statistics counters. -/
structure E82545Stats where
  missedPktCount : U32
  pktRxBySize : Nat → U32
  pktTxBySize : Nat → U32
  goodPktRxCount : U32
  bcastPktRxCount : U32
  mcastPktRxCount : U32
  goodPktTxCount : U32
  bcastPktTxCount : U32
  mcastPktTxCount : U32
  oversizeRxCount : U32
  tsoTxCount : U32
  goodOctetsRx : U64
  goodOctetsTx : U64
  missedOctets : U64

/-- The general registers. -/
structure E82545General where
  escCTRL : U32
  escFCAL : U32
  escFCAH : U32
  escFCT : U32
  escVET : U32
  escFCTTV : U32
  escLEDCTL : U32
  escPBA : U32
  deriving DecidableEq, Repr

/-- Interrupt control. -/
structure E82545Interrupt where
  escIrqAsserted : Bool
  escICR : U32
  escITR : U32
  escICS : U32
  escIMS : U32
  escIMC : U32
  /-- `esc_mevpitr != NULL`: the throttle timer is outstanding -/
  escMevpitr : Bool
  /-- `mevpitr_callout` is set and has not fired -/
  mevpitrCallout : Bool
  deriving DecidableEq, Repr

/-- The transmit side. -/
structure E82545Transmit where
  escTxdesc : U64
  escTxctx : E1000ContextDesc
  escTxEnabled : Bool
  escTxActive : Bool
  escTXCW : U32
  escTCTL : U32
  escTIPG : U32
  escAIT : U16
  escTdba : U64
  escTDBAL : U32
  escTDBAH : U32
  escTDLEN : U32
  escTDH : U16
  escTDHr : U16
  escTDT : U16
  escTIDV : U32
  escTXDCTL : U32
  escTADV : U32
  deriving DecidableEq, Repr

/-- L2 frame acceptance. -/
structure E82545Accept where
  escUni : Nat → EthUni
  escFmcast : Nat → U32
  escFvlan : Nat → U32

/-- The receive side. -/
structure E82545Receive where
  escRxdesc : U64
  escRxEnabled : Bool
  escRxActive : Bool
  escRxLoopback : Bool
  escRCTL : U32
  escFCRTL : U32
  escFCRTH : U32
  escRdba : U64
  escRDBAL : U32
  escRDBAH : U32
  escRDLEN : U32
  escRDH : U16
  escRDT : U16
  escRDTR : U32
  escRXDCTL : U32
  escRADV : U32
  escRSRPD : U32
  escRXCSUM : U32
  deriving DecidableEq, Repr

/-- The MDIC and EECD shadows and the EEPROM behind EECD. -/
structure E82545Nvm where
  mdiControl : U32
  eepromControl : U32
  nvmData : U16
  nvmOpaddr : U16
  nvmBits : Nat
  nvmMode : NvmMode
  eepromData : Nat → U16

/-- `struct e82545_softc`, grouped as the source's comments group it. -/
structure E82545Softc where
  escPi : PciDevinst
  escCtx : Vmctx
  escMtx : PthreadMutex
  escMac : EtherAddr
  gen : E82545General
  intr : E82545Interrupt
  tx : E82545Transmit
  accept : E82545Accept
  rx : E82545Receive
  /-- IO port register access -/
  ioAddr : U32
  nvm : E82545Nvm
  stats : E82545Stats

/-! ## Register bits

The values come from the e1000 headers of the kernel the model is built with. -/

def e1000CtrlRST : U32 := 0x04000000#32
def e1000CtrlVME : U32 := 0x40000000#32
def e1000RctlEN : U32 := 0x00000002#32
def e1000RctlLPE : U32 := 0x00000020#32
def e1000RctlLBM_TCVR : U32 := 0x000000C0#32
def e1000RctlSZ_256 : U32 := 0x00030000#32
def e1000RctlVFE : U32 := 0x00040000#32
def e1000RctlBSEX : U32 := 0x02000000#32
def e1000RctlSECRC : U32 := 0x04000000#32
def e1000TctlEN : U32 := 0x00000002#32
def e1000RahAV : U32 := 0x80000000#32
def e1000IcrTXDW : U32 := 0x00000001#32
def e1000IcrTXQE : U32 := 0x00000002#32
def e1000IcrRXDMT0 : U32 := 0x00000010#32
def e1000IcrRXT0 : U32 := 0x00000080#32
def e1000IcrSRPD : U32 := 0x00010000#32
def e1000EecdSK : U32 := 0x00000001#32
def e1000EecdCS : U32 := 0x00000002#32
def e1000EecdDI : U32 := 0x00000004#32
def e1000EecdDO : U32 := 0x00000008#32
def e1000EecdREQ : U32 := 0x00000040#32
def e1000EecdGNT : U32 := 0x00000080#32
def e1000EecdPRES : U32 := 0x00000100#32
def e82545EecdFWE_EN : U32 := 0x00000020#32
def e1000MdicREADY : U32 := 0x10000000#32
def e1000MdicERROR : U32 := 0x40000000#32
def e1000MdicDEST : U32 := 0x80000000#32
def e1000MdicOP_WRITE : U32 := 0x04000000#32
def e1000MdicOP_READ : U32 := 0x08000000#32
def e82545MdicOP_MASK : U32 := 0x0c000000#32
def e82545MdicDATA_MASK : U32 := 0x0000FFFF#32

/-- `RDLEN` and `TDLEN` count bytes, 16 to a descriptor. -/
def E82545Softc.rxSize (sc : E82545Softc) : Nat := sc.rx.escRDLEN.toNat / 16

/-- The `uint16_t size` of `e82545_tx_run`. -/
def E82545Softc.txSize (sc : E82545Softc) : Nat := sc.tx.escTDLEN.toNat / 16 % 2 ^ 16

/-! ## The register map -/

/-- The statistics registers that read a counter. -/
inductive E1000Stat : Type where
  | mpc | prc (i : Nat) | gprc | bprc | mprc | gptc | gorcl | gorch | gotcl | gotch | roc
  | torl | torh | tpr | ptc (i : Nat) | mptc | bptc | tsctc
  deriving DecidableEq, Repr

/-- The registers that the read and write functions distinguish. -/
inductive E1000Reg : Type where
  | ctrl | ctrlDup | status | fcal | fcah | fct | vet | fcttv | ledctl | pba
  | icr | itr | ics | ims | imc
  | rctl | fcrtl | fcrth | rdbal | rdbah | rdlen | rdh | rdt | rdtr | rxdctl | radv | rsrpd | rxcsum
  | txcw | tctl | tipg | ait | tdbal | tdbah | tdlen | tdh | tdt | tidv | txdctl | tadv
  | ra (ridx : Nat) | mta (idx : Nat) | vfta (idx : Nat)
  | eecd | mdic | manc
  | stat (s : E1000Stat)
  | unknown
  deriving DecidableEq, Repr

/-- The `case` labels of `e82545_write_register` and `e82545_read_register`. -/
def E1000Reg.ofOffset (offset : Nat) : E1000Reg :=
  if 0x5400 ≤ offset ∧ offset ≤ 0x547C then .ra ((offset - 0x5400) / 4)
  else if 0x5200 ≤ offset ∧ offset ≤ 0x53FC then .mta ((offset - 0x5200) / 4)
  else if 0x5600 ≤ offset ∧ offset ≤ 0x57FC then .vfta ((offset - 0x5600) / 4)
  else match offset with
  | 0x0000 => .ctrl
  | 0x0004 => .ctrlDup
  | 0x0008 => .status
  | 0x0010 => .eecd
  | 0x0020 => .mdic
  | 0x0028 => .fcal
  | 0x002C => .fcah
  | 0x0030 => .fct
  | 0x0038 => .vet
  | 0x00C0 => .icr
  | 0x00C4 => .itr
  | 0x00C8 => .ics
  | 0x00D0 => .ims
  | 0x00D8 => .imc
  | 0x0100 => .rctl
  | 0x0170 => .fcttv
  | 0x0178 => .txcw
  | 0x0400 => .tctl
  | 0x0410 => .tipg
  | 0x0458 => .ait
  | 0x0E00 => .ledctl
  | 0x1000 => .pba
  | 0x2160 => .fcrtl
  | 0x2168 => .fcrth
  | 0x2800 => .rdbal
  | 0x2804 => .rdbah
  | 0x2808 => .rdlen
  | 0x2810 => .rdh
  | 0x2818 => .rdt
  | 0x2820 => .rdtr
  | 0x2828 => .rxdctl
  | 0x282C => .radv
  | 0x2C00 => .rsrpd
  | 0x3800 => .tdbal
  | 0x3804 => .tdbah
  | 0x3808 => .tdlen
  | 0x3810 => .tdh
  | 0x3818 => .tdt
  | 0x3820 => .tidv
  | 0x3828 => .txdctl
  | 0x382C => .tadv
  | 0x5000 => .rxcsum
  | 0x5820 => .manc
  | 0x4010 => .stat .mpc
  | 0x405C => .stat (.prc 0)
  | 0x4060 => .stat (.prc 1)
  | 0x4064 => .stat (.prc 2)
  | 0x4068 => .stat (.prc 3)
  | 0x406C => .stat (.prc 4)
  | 0x4070 => .stat (.prc 5)
  | 0x4074 => .stat .gprc
  | 0x4078 => .stat .bprc
  | 0x407C => .stat .mprc
  | 0x4080 => .stat .gptc
  | 0x4088 => .stat .gorcl
  | 0x408C => .stat .gorch
  | 0x4090 => .stat .gotcl
  | 0x4094 => .stat .gotch
  | 0x40AC => .stat .roc
  | 0x40C0 => .stat .torl
  | 0x40C4 => .stat .torh
  | 0x40C8 => .stat .gotcl
  | 0x40CC => .stat .gotch
  | 0x40D0 => .stat .tpr
  | 0x40D4 => .stat .gptc
  | 0x40D8 => .stat (.ptc 0)
  | 0x40DC => .stat (.ptc 1)
  | 0x40E0 => .stat (.ptc 2)
  | 0x40E4 => .stat (.ptc 3)
  | 0x40E8 => .stat (.ptc 4)
  | 0x40EC => .stat (.ptc 5)
  | 0x40F0 => .stat .mptc
  | 0x40F4 => .stat .bptc
  | 0x40F8 => .stat .tsctc
  | _ => .unknown

end DeviceModel
