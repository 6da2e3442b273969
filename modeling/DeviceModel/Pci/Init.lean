import DeviceModel.Pci.Bars

/-!
# The emulated bus

`bhyve_pci_init` of `bhyve/pci_emul.c` puts an e1000 at slot 0 and an AHCI
controller at slot 1 of bus 0 and calls `init_pci`. This file follows it on the PCI
side: the config space and the BARs that `e82545_init` and `pci_ahci_init` set up,
the registry, and the interrupt line. What the two functions do to their own softc
is in `DeviceModel.E82545.Regs` and `DeviceModel.Ahci.Hba`.
-/

namespace DeviceModel

variable {T : PciMemTree}

/-- `pci_emul_init`, up to the call of `pe_init`. The pin of the line is the one that
`pci_lintr_request` chooses in `pe_init`: the first, as each slot has one function. -/
def pciEmulDevinst (bdf : PciAddr) : PciDev :=
  let pi : PciDev :=
    { bdf := bdf
      prevcap := 0
      capend := 0
      lintr := pciDevinstInit.lintr
      msi := pciDevinstInit.msi
      msix := ⟨false, false⟩
      plic := pciDevinstInit.plic
      cfgdata := fun _ => 0
      bar := fun _ => ⟨.none, 0, 0⟩ }
  -- disable legacy interrupts
  let pi := (pi.set8 pcirIntline 255).set8 pcirIntpin 0
  pi.set8 pcirCommand ((pcimCmdPorten ||| pcimCmdMemen ||| pcimCmdBusmasteren).setWidth 8)

/-- `pci_lintr_request`: the pin, in config space. -/
def pciLintrRequest (pi : PciDev) : PciDev :=
  pi.set8 pcirIntpin (BitVec.ofNat 8 pi.lintr.pin)

/-- `pci_lintr_route`: `pirq_irq` returns 0. -/
def pciLintrRoute (pi : PciDev) : PciDev := pi.set8 pcirIntline 0

/-- The config space that `e82545_init` sets up. -/
def e82545Cfg (pi : PciDev) : PciDev :=
  let pi := (pi.set16 pcirDevice 0x100F).set16 pcirVendor 0x8086
  let pi := (pi.set8 pcirClass 0x02).set8 pcirSubclass 0x00
  let pi := (pi.set16 pcirSubdev0 0x1008).set16 pcirSubvend0 0x8086
  pciLintrRequest ((pi.set8 pcirHdrtype 0).set8 pcirIntpin 1)

/-- The BARs of `e82545_init`: registers, flash and i/o. -/
def e82545PciInit (s : PciSetup T) : Except Stop (PciSetup T) := do
  let s := { s with pi := e82545Cfg s.pi }
  let r ← pciEmulAllocBar s 0 .mem32 0x20000
  let r ← pciEmulAllocBar r.1 1 .mem32 0x10000
  let r ← pciEmulAllocBar r.1 2 .io 8
  .ok r.1

/-- `DEF_PORTS`. -/
def defPorts : Nat := 6

/-- The identity that `pci_ahci_init` gives the device. -/
def ahciCfg (pi : PciDev) : PciDev :=
  let pi := (pi.set16 pcirDevice 0x2821).set16 pcirVendor 0x8086
  ((pi.set8 pcirClass 0x01).set8 pcirSubclass 0x06).set8 pcirProgif 0x01

/-- The exponent of the number of messages for a number of ports. -/
def ahciMmc (ports : Nat) : Nat :=
  let p := min ports 16
  flsl (BitVec.ofNat 64 p) - if p &&& (p - 1) ≠ 0 then 0 else 1

/-- `pci_ahci_init`, after `opened` ports have been opened. -/
def ahciPciInit (opened : Nat) (s : PciSetup T) : Except Stop (PciSetup T) := do
  let ports := max opened defPorts
  let r ← pciEmulAddMsicap (ahciCfg s.pi) (ahciMmc ports)
  let r ← pciEmulAllocBar { s with pi := r.1 } 5 .mem32 (BitVec.ofNat 64 (0x100 + ports * 0x80))
  .ok { r.1 with pi := pciLintrRequest r.1.pi }

/-- The range that `init_pci` registers for extended config space. -/
def ecfgRange : PciMemRange where
  name := .ecfg
  flags := memFRW ||| memFImmutable
  handler := .emulEcfg
  base := 0xFDC00000
  size := 0x80000

/-- The address of a function on bus 0. -/
def e1000Addr : PciAddr := ⟨0, 0, 0⟩
def ahciAddr : PciAddr := ⟨0, 1, 0⟩

/-- The pools that `init_pci` starts with. -/
def pciPoolsInit : PciPools where
  iobase := 0x2000
  membase32 := 0x60010000
  membase64 := 0xD000000000

/-- `init_pci`, on the two functions of `bhyve_pci_init`. -/
def initPci (reg : MmioHeap T) : Except Stop (PciBus T) := do
  let s ← e82545PciInit { pools := pciPoolsInit, reg := reg, pi := pciEmulDevinst e1000Addr }
  -- the option string "hd:test" opens one port
  let s' ← ahciPciInit 1 { s with pi := pciEmulDevinst ahciAddr }
  let r := s'.reg.register ecfgRange
  assert "error == 0" r.2.isNone
  let bus : PciBus T := { reg := r.1, devi := fun _ => none }
  .ok ((bus.setDevi e1000Addr (pciLintrRoute s.pi)).setDevi ahciAddr (pciLintrRoute s'.pi))

/-- `bhyve_pci_init`. -/
def bhyvePciInit (T : PciMemTree) : Except Stop (PciBus T) :=
  initPci { mmio := initMem T, brk := 0 }

end DeviceModel
