import DeviceModel.PciLintr
import DeviceModel.Library.Outcome
import DeviceModel.Machine
import Mathlib.Logic.Function.Basic

/-!
# Config space of an emulated device

`struct pci_devinst` of `bhyve/pci_emul.h` with its 256 bytes of config space and
its base address registers, and the functions of `bhyve/pci_emul.c` that work on
one device alone: the accessors, the capability list, and the MSI and MSI-X
capability writes, which are the ones that touch the legacy interrupt line.

The interrupt functions of `DeviceModel.PciLintr` see a device through
`PciDev.devinst`: the command word they read is the one in config space.

Offsets and widths are natural numbers: every caller of `pci_cfgrw` takes the
offset from 12 bits of an address. An offset that is a constant meets the
assertion of the accessor, so such reads use `cfg16` directly.
-/

namespace DeviceModel

/-! ## Registers -/

/-- `PCI_REGMAX`. -/
def pciRegmax : Nat := 255
/-- `PCI_BARMAX`. -/
def pciBarmax : Nat := 5

def pcirDevice : Nat := 0x02
def pcirVendor : Nat := 0x00
def pcirCommand : Nat := 0x04
def pcirStatus : Nat := 0x06
def pcirRevid : Nat := 0x08
def pcirProgif : Nat := 0x09
def pcirSubclass : Nat := 0x0a
def pcirClass : Nat := 0x0b
def pcirHdrtype : Nat := 0x0e
def pcirSubvend0 : Nat := 0x2c
def pcirSubdev0 : Nat := 0x2e
def pcirCapPtr : Nat := 0x34
def pcirIntline : Nat := 0x3c
def pcirIntpin : Nat := 0x3d

/-- `PCIR_BAR(x)`. -/
def pcirBar (x : Nat) : Nat := 0x10 + x * 4

def pcimCmdPorten : U16 := 0x0001#16
def pcimCmdMemen : U16 := 0x0002#16
def pcimCmdBusmasteren : U16 := 0x0004#16
def pcimStatusCappresent : U16 := 0x0010#16
def pcimMsictrlMsiEnable : U16 := 0x0001#16
def pcimMsictrlMmeMask : U16 := 0x0070#16
def pcimMsictrl64bit : U16 := 0x0080#16
def pcimMsixctrlFunctionMask : U16 := 0x4000#16
def pcimMsixctrlMsixEnable : U16 := 0x8000#16

def pciyMsi : U8 := 0x05#8
def pciyExpress : U8 := 0x10#8
def pciyMsix : U8 := 0x11#8

/-- `CAP_START_OFFSET`. -/
def capStartOffset : Nat := 0x40

/-! ## The device -/

/-- Where a device function sits: `pi_bus`, `pi_slot`, `pi_func`. -/
structure PciAddr where
  bus : Nat
  slot : Nat
  func : Nat
  deriving DecidableEq, Repr

/-- `enum pcibar_type`. -/
inductive PcibarType : Type where
  | none
  | io
  | mem32
  | mem64
  | memhi64
  deriving DecidableEq, Repr

/-- `struct pcibar`. -/
structure Pcibar where
  type : PcibarType
  size : U64
  addr : U64
  deriving DecidableEq, Repr

/-- `pi_msix`, without the table, which no device of the repository has. -/
structure PciMsix where
  enabled : Bool
  functionMask : Bool
  deriving DecidableEq, Repr

/-- `struct pci_devinst`. Its address also stands for the pointer to it, and for
the pointer to its name. -/
structure PciDev where
  bdf : PciAddr
  prevcap : Nat
  capend : Nat
  lintr : PciLintr
  msi : PciMsi
  msix : PciMsix
  plic : Plic
  cfgdata : Nat → U8
  bar : Nat → Pcibar

namespace PciDev

/-- The little-endian words of config space. -/
def cfg16 (pi : PciDev) (offset : Nat) : U16 := pi.cfgdata (offset + 1) ++ pi.cfgdata offset
def cfg32 (pi : PciDev) (offset : Nat) : U32 := pi.cfg16 (offset + 2) ++ pi.cfg16 offset

def set8 (pi : PciDev) (offset : Nat) (val : U8) : PciDev :=
  { pi with cfgdata := Function.update pi.cfgdata offset val }
def set16 (pi : PciDev) (offset : Nat) (val : U16) : PciDev :=
  (pi.set8 offset (val.setWidth 8)).set8 (offset + 1) ((val >>> 8).setWidth 8)
def set32 (pi : PciDev) (offset : Nat) (val : U32) : PciDev :=
  (pi.set16 offset (val.setWidth 16)).set16 (offset + 2) ((val >>> 16).setWidth 16)

/-- The `PCIR_COMMAND` word. -/
def command (pi : PciDev) : U16 := pi.cfg16 pcirCommand

/-- What the interrupt functions see of a device. -/
def devinst (pi : PciDev) : PciDevinst where
  lintr := pi.lintr
  msi := pi.msi
  msixEnabled := pi.msix.enabled
  command := pi.command
  plic := pi.plic

/-- What they change of it. -/
def setDevinst (pi : PciDev) (d : PciDevinst) : PciDev := { pi with lintr := d.lintr, plic := d.plic }

/-- `pci_lintr_assert`, `pci_lintr_deassert` and `pci_lintr_update` on a whole device. -/
def lintrAssert (pi : PciDev) : PciDev := pi.setDevinst (pciLintrAssert pi.devinst)
def lintrDeassert (pi : PciDev) : PciDev := pi.setDevinst (pciLintrDeassert pi.devinst)
def lintrUpdate (pi : PciDev) : PciDev := pi.setDevinst (pciLintrUpdate pi.devinst)

/-- `pi->pi_bar[idx].addr = addr`. -/
def setBarAddr (pi : PciDev) (idx : Nat) (addr : U64) : PciDev :=
  { pi with bar := Function.update pi.bar idx { pi.bar idx with addr := addr } }

/-- Config space does not hold `pi_bar`. -/
@[simp] theorem set32_bar (pi : PciDev) (offset : Nat) (val : U32) :
    (pi.set32 offset val).bar = pi.bar := rfl

@[simp] theorem setBarAddr_bar_self (pi : PciDev) (idx : Nat) (addr : U64) :
    (pi.setBarAddr idx addr).bar idx = { pi.bar idx with addr := addr } := by
  simp [setBarAddr]

theorem setBarAddr_bar_of_ne (pi : PciDev) {idx i : Nat} (addr : U64) (h : i ≠ idx) :
    (pi.setBarAddr idx addr).bar i = pi.bar i := by
  simp [setBarAddr, h]

@[simp] theorem setBarAddr_type (pi : PciDev) (idx : Nat) (addr : U64) (i : Nat) :
    ((pi.setBarAddr idx addr).bar i).type = (pi.bar i).type := by
  by_cases h : i = idx
  · subst h
    rw [setBarAddr_bar_self]
  · rw [setBarAddr_bar_of_ne pi addr h]

end PciDev

/-! ## The accessors -/

/-- `pci_get_cfgdata8`. -/
def pciGetCfgdata8 (pi : PciDev) (offset : Nat) : Except Stop U8 := do
  assert "offset <= PCI_REGMAX" (offset ≤ pciRegmax)
  .ok (pi.cfgdata offset)

/-- `pci_get_cfgdata16`. -/
def pciGetCfgdata16 (pi : PciDev) (offset : Nat) : Except Stop U16 := do
  assert "offset <= (PCI_REGMAX - 1) && (offset & 1) == 0"
    (offset ≤ pciRegmax - 1 && offset &&& 1 == 0)
  .ok (pi.cfg16 offset)

/-- `pci_get_cfgdata32`. -/
def pciGetCfgdata32 (pi : PciDev) (offset : Nat) : Except Stop U32 := do
  assert "offset <= (PCI_REGMAX - 3) && (offset & 3) == 0"
    (offset ≤ pciRegmax - 3 && offset &&& 3 == 0)
  .ok (pi.cfg32 offset)

/-- `pci_set_cfgdata8`. -/
def pciSetCfgdata8 (pi : PciDev) (offset : Nat) (val : U8) : Except Stop PciDev := do
  assert "offset <= PCI_REGMAX" (offset ≤ pciRegmax)
  .ok (pi.set8 offset val)

/-- `pci_set_cfgdata16`. -/
def pciSetCfgdata16 (pi : PciDev) (offset : Nat) (val : U16) : Except Stop PciDev := do
  assert "offset <= (PCI_REGMAX - 1) && (offset & 1) == 0"
    (offset ≤ pciRegmax - 1 && offset &&& 1 == 0)
  .ok (pi.set16 offset val)

/-- `pci_set_cfgdata32`. -/
def pciSetCfgdata32 (pi : PciDev) (offset : Nat) (val : U32) : Except Stop PciDev := do
  assert "offset <= (PCI_REGMAX - 3) && (offset & 3) == 0"
    (offset ≤ pciRegmax - 3 && offset &&& 3 == 0)
  .ok (pi.set32 offset val)

/-- `CFGWRITE`. -/
def cfgwrite (pi : PciDev) (coff : Nat) (val : U32) (bytes : Nat) : Except Stop PciDev :=
  if bytes = 1 then pciSetCfgdata8 pi coff (val.setWidth 8)
  else if bytes = 2 then pciSetCfgdata16 pi coff (val.setWidth 16)
  else pciSetCfgdata32 pi coff val

/-- `CFGREAD`. -/
def cfgread (pi : PciDev) (coff bytes : Nat) : Except Stop U32 :=
  if bytes = 1 then (pciGetCfgdata8 pi coff).map (·.setWidth 32)
  else if bytes = 2 then (pciGetCfgdata16 pi coff).map (·.setWidth 32)
  else pciGetCfgdata32 pi coff

/-! ## Capabilities -/

/-- The value a guest write leaves in a message control register: only the bits
of `rwmask` are taken from it. -/
def msgctrlWrite (msgctrl rwmask : U16) (val : U32) : U16 :=
  (msgctrl &&& ~~~rwmask) ||| (val.setWidth 16 &&& rwmask)

/-- `msixcap_cfgwrite`. -/
def msixcapCfgwrite (pi : PciDev) (capoff offset bytes : Nat) (val : U32) : Except Stop PciDev :=
  -- message control register
  if offset = capoff + 2 ∧ bytes = 2 then do
    let msgctrl ← pciGetCfgdata16 pi offset
    let val := msgctrlWrite msgctrl (pcimMsixctrlMsixEnable ||| pcimMsixctrlFunctionMask) val
    let msix : PciMsix :=
      { enabled := val &&& pcimMsixctrlMsixEnable != 0
        functionMask := val &&& pcimMsixctrlFunctionMask != 0 }
    cfgwrite { pi with msix := msix }.lintrUpdate offset (val.setWidth 32) bytes
  else cfgwrite pi offset val bytes

/-- `msicap_cfgwrite`. The address and the data that it also saves are used by
nothing that is compiled in. -/
def msicapCfgwrite (pi : PciDev) (capoff offset bytes : Nat) (val : U32) : Except Stop PciDev :=
  if offset = capoff + 2 ∧ bytes = 2 then do
    let msgctrl ← pciGetCfgdata16 pi offset
    let val := msgctrlWrite msgctrl (pcimMsictrlMmeMask ||| pcimMsictrlMsiEnable) val
    let _addrlo ← pciGetCfgdata32 pi (capoff + 4)
    let _msgdata ← pciGetCfgdata16 pi (capoff + if val &&& pcimMsictrl64bit != 0 then 12 else 8)
    let mme := val &&& pcimMsictrlMmeMask
    let msi : PciMsi :=
      if val &&& pcimMsictrlMsiEnable != 0 then ⟨true, 1 <<< (mme >>> 4).toNat⟩ else ⟨false, 0⟩
    cfgwrite { pi with msi := msi }.lintrUpdate offset (val.setWidth 32) bytes
  else cfgwrite pi offset val bytes

/-- `pciecap_cfgwrite`. -/
def pciecapCfgwrite (pi : PciDev) (_capoff offset bytes : Nat) (val : U32) : Except Stop PciDev :=
  cfgwrite pi offset val bytes

/-- The loop of `pci_emul_capwrite` that finds the capability an offset lies in. -/
def findCap (pi : PciDev) (offset : Nat) : Nat → U8 → Except Stop U8
  | 0, _ => .error .outOfFuel
  | fuel + 1, capoff => do
    let nextoff ← pciGetCfgdata8 pi (capoff.toNat + 1)
    if nextoff = 0 then .ok capoff
    else if capoff.toNat ≤ offset ∧ offset < nextoff.toNat then .ok capoff
    else findCap pi offset fuel nextoff

/-- The `switch` of `pci_emul_capwrite`. -/
def capCfgwrite (pi : PciDev) (capoff offset bytes : Nat) (val : U32) : Except Stop PciDev := do
  let capid ← pciGetCfgdata8 pi capoff
  if capid = pciyMsi then msicapCfgwrite pi capoff offset bytes val
  else if capid = pciyMsix then msixcapCfgwrite pi capoff offset bytes val
  else if capid = pciyExpress then pciecapCfgwrite pi capoff offset bytes val
  else .ok pi

/-- `pci_emul_capwrite`. -/
def pciEmulCapwrite (fuel : Nat) (pi : PciDev) (offset bytes : Nat) (val : U32) :
    Except Stop PciDev :=
  -- do not allow un-aligned writes
  if offset &&& (bytes - 1) ≠ 0 then .ok pi
  else do
    let capoff ← findCap pi offset fuel (BitVec.ofNat 8 capStartOffset)
    assert "offset >= capoff" (capoff.toNat ≤ offset)
    -- the capability's id and next pointer are read-only
    if offset = capoff.toNat ∨ offset = capoff.toNat + 1 then
      if offset = capoff.toNat ∧ bytes = 4 then
        capCfgwrite pi capoff.toNat (offset + 2) 2 (val >>> 16)
      else .ok pi
    else capCfgwrite pi capoff.toNat offset bytes val

/-- `pci_emul_iscap`. -/
def pciEmulIscap (pi : PciDev) (offset : Nat) : Bool :=
  pi.cfg16 pcirStatus &&& pcimStatusCappresent != 0 &&
    (capStartOffset ≤ offset && offset ≤ pi.capend)

/-- `roundup2`, for a power of two. -/
def roundup2 (x y : U64) : U64 := (x + (y - 1)) &&& ~~~(y - 1)

/-- The bytes of a capability, one after another. -/
def copyCap (pi : PciDev) (capoff : Nat) : List U8 → Except Stop PciDev
  | [] => .ok pi
  | v :: vs => do
    let pi ← pciSetCfgdata8 pi capoff v
    copyCap pi (capoff + 1) vs

/-- `pci_emul_add_capability`: the device, and whether there was room. -/
def pciEmulAddCapability (pi : PciDev) (capdata : List U8) : Except Stop (PciDev × Bool) := do
  assert "caplen > 0" (0 < capdata.length)
  let reallen := (capdata.length + 3) / 4 * 4
  let sts := pi.cfg16 pcirStatus
  let first := sts &&& pcimStatusCappresent == 0
  let capoff := if first then capStartOffset else pi.capend + 1
  if capoff + reallen > pciRegmax + 1 then .ok (pi, false)
  else do
    let pi ←
      if first then do
        let pi ← pciSetCfgdata8 pi pcirCapPtr (BitVec.ofNat 8 capoff)
        pciSetCfgdata16 pi pcirStatus (sts ||| pcimStatusCappresent)
      else pciSetCfgdata8 pi (pi.prevcap + 1) (BitVec.ofNat 8 capoff)
    let pi ← copyCap pi capoff capdata
    let pi ← pciSetCfgdata8 pi (capoff + 1) 0
    .ok ({ pi with prevcap := capoff, capend := capoff + reallen - 1 }, true)

/-- `pci_populate_msicap`: the 14 bytes of `struct msicap`, little-endian. -/
def pciPopulateMsicap (mmc : Nat) (nextptr : U8) : List U8 :=
  let msgctrl := pcimMsictrl64bit ||| BitVec.ofNat 16 (mmc <<< 1)
  [pciyMsi, nextptr, msgctrl.setWidth 8, (msgctrl >>> 8).setWidth 8] ++ List.replicate 10 0

/-- `pci_emul_add_msicap`, for `1 << mmc` messages. -/
def pciEmulAddMsicap (pi : PciDev) (mmc : Nat) : Except Stop (PciDev × Bool) := do
  assert "(msgnum & (msgnum - 1)) == 0 && msgnum >= 1 && msgnum <= 32" (1 <<< mmc ≤ 32)
  pciEmulAddCapability pi (pciPopulateMsicap mmc 0)

end DeviceModel
