import DeviceModel.Mmio
import DeviceModel.Pci.Config

/-!
# Base address registers

How `bhyve/pci_emul.c` keeps the MMIO registry in step with the base address
registers: a range is registered when a BAR is allocated, moved when the guest
writes the BAR, and registered or unregistered when the guest turns memory decoding
on or off in the command register. `pci_cfgrw` sorts out which of these a guest's
config write is.

`malloc` is taken to succeed, and hands out blocks in order; `MmioHeap.brk` is the
next one. `register_inout` and `unregister_inout` do nothing and return 0.
-/

namespace DeviceModel

/-- The strings that name a range, by address: `pi_name` of a device, or the literal
in `init_pci`. -/
inductive PciMemName : Type where
  | piName (bdf : PciAddr)
  | ecfg
  deriving DecidableEq, Repr

/-- The handlers of the ranges, with their arguments. -/
inductive PciMemHandler : Type where
  /-- `pci_emul_mem_handler`, with the device and the index of the BAR -/
  | emulMem (bdf : PciAddr) (idx : Nat)
  /-- `pci_emul_ecfg_handler` -/
  | emulEcfg
  deriving DecidableEq, Repr

/-- The trees of the registry. -/
abbrev PciMemTree : Type 1 := MmioRbTree PciMemName PciMemHandler

/-- `struct mem_range`, as this file makes them. -/
abbrev PciMemRange : Type := MemRange PciMemName PciMemHandler

/-- The registry, and the next block `malloc` returns. -/
structure MmioHeap (T : PciMemTree) where
  mmio : Mmio T
  brk : Nat

variable {T : PciMemTree}

/-- Are we decoding i/o port accesses for the emulated pci device? -/
def porten (pi : PciDev) : Bool := pi.command &&& pcimCmdPorten != 0

/-- Are we decoding memory accesses for the emulated pci device? -/
def memen (pi : PciDev) : Bool := pi.command &&& pcimCmdMemen != 0

/-- The `mem_range` that `modify_bar_registration` fills in. -/
def barRange (pi : PciDev) (idx : Nat) : PciMemRange where
  name := .piName pi.bdf
  flags := memFRW
  handler := .emulMem pi.bdf idx
  base := (pi.bar idx).addr
  size := (pi.bar idx).size

/-- `register_mem`, called with a fresh block. -/
def MmioHeap.register (reg : MmioHeap T) (mr : PciMemRange) : MmioHeap T × Option MemErrno :=
  let r := registerMem (some reg.brk) reg.mmio mr
  ({ mmio := r.1, brk := reg.brk + 1 }, r.2)

/-- `modify_bar_registration`. -/
def modifyBarRegistration (reg : MmioHeap T) (pi : PciDev) (idx : Nat) (registration : Bool) :
    Except Stop (MmioHeap T) :=
  match (pi.bar idx).type with
  | .io => .ok reg
  | .mem32 | .mem64 =>
    if registration then do
      let r := reg.register (barRange pi idx)
      assert "error == 0" r.2.isNone
      .ok r.1
    else do
      let r ← unregisterMem reg.mmio (barRange pi idx)
      assert "error == 0" r.2.isNone
      .ok { reg with mmio := r.1 }
  | .none | .memhi64 => .error (.assertion "error == 0")

/-- `unregister_bar`. -/
def unregisterBar (reg : MmioHeap T) (pi : PciDev) (idx : Nat) : Except Stop (MmioHeap T) :=
  modifyBarRegistration reg pi idx false

/-- `register_bar`. -/
def registerBar (reg : MmioHeap T) (pi : PciDev) (idx : Nat) : Except Stop (MmioHeap T) :=
  modifyBarRegistration reg pi idx true

/-- `if (decode) unregister_bar(pi, idx)`, or the same with `register_bar`. -/
def modifyIfDecoding (decode : Bool) (reg : MmioHeap T) (pi : PciDev) (idx : Nat)
    (registration : Bool) : Except Stop (MmioHeap T) :=
  if decode then modifyBarRegistration reg pi idx registration else .ok reg

/-- The address that `update_bar_address` stores. -/
def barAddrUpdate (old addr : U64) : PcibarType → Option U64
  | .io | .mem32 => some addr
  | .mem64 => some ((old &&& ~~~0xffffffff#64) ||| addr)
  | .memhi64 => some ((old &&& 0xffffffff#64) ||| addr)
  | .none => none

/-- `update_bar_address`. -/
def updateBarAddress (reg : MmioHeap T) (pi : PciDev) (addr : U64) (idx : Nat)
    (type : PcibarType) : Except Stop (MmioHeap T × PciDev) := do
  let decode := if (pi.bar idx).type = .io then porten pi else memen pi
  let reg ← modifyIfDecoding decode reg pi idx false
  match barAddrUpdate (pi.bar idx).addr addr type with
  | none => .error (.assertion "0")
  | some addr => do
    let pi := pi.setBarAddr idx addr
    let reg ← modifyIfDecoding decode reg pi idx true
    .ok (reg, pi)

/-! ## Allocation -/

/-- `pci_emul_iobase`, `pci_emul_membase32` and `pci_emul_membase64`. -/
structure PciPools where
  iobase : U64
  membase32 : U64
  membase64 : U64
  deriving DecidableEq, Repr

def pciEmulIolimit : U64 := 0x10000#64
def pciEmulMemlimit32 : U64 := 0xFDC00000#64
def pciEmulMemlimit64 : U64 := 0xFD00000000#64

/-- `flsl`: the index of the highest bit, counted from 1. -/
def flsl (x : U64) : Nat := if x = 0 then 0 else x.toNat.log2 + 1

/-- `pci_emul_alloc_resource`: the address and the new base, if there is room. -/
def pciEmulAllocResource (base limit size : U64) : Except Stop (Option (U64 × U64)) := do
  assert "(size & (size - 1)) == 0" (size &&& (size - 1) == 0)
  let base := roundup2 base size
  .ok (if base + size ≤ limit then some (base, base + size) else none)

/-- The `switch` of `pci_emul_alloc_pbar`: address, pools, `mask` and `lobits`. -/
def pciEmulAllocAddr (pools : PciPools) (hostbase : U64) (type : PcibarType) (size : U64) :
    Except Stop (Option (U64 × PciPools × U64 × U64)) :=
  match type with
  | .none => .ok (some (0, pools, 0, 0))
  | .io => do
    let r ← pciEmulAllocResource pools.iobase pciEmulIolimit size
    .ok (r.map fun r => (r.1, { pools with iobase := r.2 }, 0xfffffffc, 0x1))
  | .mem64 =>
    if size > 32 * 1024 * 1024 then
      if size = 0x100000000 then do
        -- the base comes from the caller
        let r ← pciEmulAllocResource hostbase pciEmulMemlimit64 size
        .ok (r.map fun r => (r.1, pools, 0xfffffffffffffff0, 0xc))
      else do
        let r ← pciEmulAllocResource pools.membase64 pciEmulMemlimit64 size
        .ok (r.map fun r => (r.1, { pools with membase64 := r.2 }, 0xfffffffffffffff0, 0xc))
    else do
      let r ← pciEmulAllocResource pools.membase32 pciEmulMemlimit32 size
      .ok (r.map fun r => (r.1, { pools with membase32 := r.2 }, 0xfffffffffffffff0, 0x4))
  | .mem32 => do
    let r ← pciEmulAllocResource pools.membase32 pciEmulMemlimit32 size
    .ok (r.map fun r => (r.1, { pools with membase32 := r.2 }, 0xfffffffffffffff0, 0x0))
  | .memhi64 => .error (.assertion "0")

/-- The size that `pci_emul_alloc_pbar` gives a BAR: a power of two, of at least 4
bytes for i/o and 16 for memory. -/
def pbarSize (type : PcibarType) (size : U64) : Except Stop U64 := do
  let size ←
    if size &&& (size - 1) = 0 then .ok size
    -- a shift by the width of the type
    else if flsl size = 64 then .error .undefined
    else .ok (1 <<< flsl size)
  .ok (if type = .io then (if size < 4 then 4 else size) else (if size < 16 then 16 else size))

/-- What device initialisation works on: the pools, the registry and the device. -/
structure PciSetup (T : PciMemTree) where
  pools : PciPools
  reg : MmioHeap T
  pi : PciDev

/-- `pci_emul_alloc_pbar`: the new state, and whether there was room. -/
def pciEmulAllocPbar (s : PciSetup T) (idx : Nat) (hostbase : U64) (type : PcibarType)
    (size : U64) : Except Stop (PciSetup T × Bool) := do
  assert "idx >= 0 && idx <= PCI_BARMAX" (idx ≤ pciBarmax)
  let size ← pbarSize type size
  match ← pciEmulAllocAddr s.pools hostbase type size with
  | none => .ok (s, false)
  | some (addr, pools, mask, lobits) => do
    let bar := (addr &&& mask) ||| lobits
    let pi := { s.pi with bar := Function.update s.pi.bar idx ⟨type, size, addr⟩ }
    let pi ← pciSetCfgdata32 pi (pcirBar idx) (bar.setWidth 32)
    let pi ←
      if type = .mem64 then do
        assert "idx + 1 <= PCI_BARMAX" (idx + 1 ≤ pciBarmax)
        let hi := { pi.bar (idx + 1) with type := .memhi64 }
        pciSetCfgdata32 { pi with bar := Function.update pi.bar (idx + 1) hi }
          (pcirBar (idx + 1)) ((bar >>> 32).setWidth 32)
      else .ok pi
    let reg ← registerBar s.reg pi idx
    .ok ({ pools := pools, reg := reg, pi := pi }, true)

/-- `pci_emul_alloc_bar`. -/
def pciEmulAllocBar (s : PciSetup T) (idx : Nat) (type : PcibarType) (size : U64) :
    Except Stop (PciSetup T × Bool) :=
  pciEmulAllocPbar s idx 0 type size

/-! ## Config writes -/

/-- One turn of the loop of `pci_emul_cmdsts_write`. -/
def cmdstsBar (pi : PciDev) (changed : U16) (reg : MmioHeap T) (i : Nat) :
    Except Stop (MmioHeap T) :=
  match (pi.bar i).type with
  | .none | .memhi64 => .ok reg
  | .io =>
    if changed &&& pcimCmdPorten != 0 then
      if porten pi then registerBar reg pi i else unregisterBar reg pi i
    else .ok reg
  | .mem32 | .mem64 =>
    if changed &&& pcimCmdMemen != 0 then
      if memen pi then registerBar reg pi i else unregisterBar reg pi i
    else .ok reg

/-- The loop over the BARs. -/
def cmdstsBars (pi : PciDev) (changed : U16) : List Nat → MmioHeap T → Except Stop (MmioHeap T)
  | [], reg => .ok reg
  | i :: is, reg => do
    let reg ← cmdstsBar pi changed reg i
    cmdstsBars pi changed is reg

/-- `pci_emul_cmdsts_write` up to the loop: the bits of `readonly` stay. -/
def cmdstsCfgwrite (pi : PciDev) (coff : Nat) (new : U32) (bytes : Nat) : Except Stop PciDev := do
  let readonly := 0xFFFFF880#32 >>> ((coff &&& 3) * 8)
  let old ← cfgread pi coff bytes
  cfgwrite pi coff ((new &&& ~~~readonly) ||| (old &&& readonly)) bytes

/-- `pci_emul_cmdsts_write`. -/
def pciEmulCmdstsWrite (reg : MmioHeap T) (pi : PciDev) (coff : Nat) (new : U32) (bytes : Nat) :
    Except Stop (MmioHeap T × PciDev) := do
  let cmd := pi.command
  let pi ← cmdstsCfgwrite pi coff new bytes
  let changed := cmd ^^^ pi.command
  let reg ← cmdstsBars pi changed (List.range (pciBarmax + 1)) reg
  .ok (reg, pi.lintrUpdate)

/-- The BAR, the type and the address of the call of `update_bar_address` that a
guest write of `val` to BAR `idx` leads to, with the value for config space. The
address is `none` where the BAR decodes it already. -/
structure BarWrite where
  target : Nat
  type : PcibarType
  addr : Option U64
  bar : U64

/-- The `switch` over the BAR's type in `pci_cfgrw`, for the types that have one. -/
def barWrite (pi : PciDev) (idx : Nat) (val : U32) : BarWrite :=
  let b := pi.bar idx
  let mask := ~~~(b.size - 1)
  match b.type with
  | .none => { target := idx, type := .none, addr := none, bar := 0 }
  | .io =>
    let addr := val.setWidth 64 &&& mask &&& 0xffff
    { target := idx, type := .io, addr := if addr ≠ b.addr then some addr else none
      bar := addr ||| 0x1 }
  | .mem32 =>
    let addr := val.setWidth 64 &&& mask
    { target := idx, type := .mem32, addr := if addr ≠ b.addr then some addr else none
      bar := addr }
  | .mem64 =>
    let addr := val.setWidth 64 &&& mask
    { target := idx, type := .mem64
      addr := if addr ≠ b.addr &&& 0xffffffff then some addr else none
      bar := addr ||| 0xc }
  | .memhi64 =>
    let lo := pi.bar (idx - 1)
    let addr := (val.setWidth 64 <<< 32) &&& ~~~(lo.size - 1)
    { target := idx - 1, type := .memhi64
      addr := if addr >>> 32 ≠ lo.addr >>> 32 then some addr else none
      bar := addr >>> 32 }

/-- The call of `update_bar_address` in `pci_cfgrw`, or what stands in its place. -/
def barMove (reg : MmioHeap T) (pi : PciDev) (w : BarWrite) : Except Stop (MmioHeap T × PciDev) :=
  match w.addr with
  | some addr => updateBarAddress reg pi addr w.target w.type
  | none => .ok (reg, if w.type = .none then pi.setBarAddr w.target 0 else pi)

/-- `pci_cfgrw`, writing to a BAR register. -/
def pciCfgwriteBar (reg : MmioHeap T) (pi : PciDev) (coff : Nat) (bytes : Nat) (val : U32) :
    Except Stop (MmioHeap T × PciDev) :=
  -- ignore writes to BAR registers that are not 4-byte aligned
  if bytes ≠ 4 ∨ coff &&& 3 ≠ 0 then .ok (reg, pi)
  else
    let idx := (coff - pcirBar 0) / 4
    if (pi.bar idx).type = .memhi64 ∧ idx = 0 then .error .undefined
    else do
      let w := barWrite pi idx val
      let r ← barMove reg pi w
      let pi ← pciSetCfgdata32 r.2 coff (w.bar.setWidth 32)
      .ok (r.1, pi)

/-- `pci_cfgrw`, writing to the standard config space of a device. -/
def pciCfgwriteDev (fuel : Nat) (reg : MmioHeap T) (pi : PciDev) (coff bytes : Nat) (val : U32) :
    Except Stop (MmioHeap T × PciDev) :=
  if pcirBar 0 ≤ coff ∧ coff < pcirBar (pciBarmax + 1) then pciCfgwriteBar reg pi coff bytes val
  else if pciEmulIscap pi coff then do
    let pi ← pciEmulCapwrite fuel pi coff bytes val
    .ok (reg, pi)
  else if pcirCommand ≤ coff ∧ coff < pcirRevid then pciEmulCmdstsWrite reg pi coff val bytes
  else do
    let pi ← cfgwrite pi coff val bytes
    .ok (reg, pi)

/-- The devices and the registry. -/
structure PciBus (T : PciMemTree) where
  reg : MmioHeap T
  /-- `fi_devi` -/
  devi : PciAddr → Option PciDev

/-- Replace the device at an address. -/
def PciBus.setDevi (s : PciBus T) (a : PciAddr) (pi : PciDev) : PciBus T :=
  { s with devi := Function.update s.devi a (some pi) }

/-- Whether `pci_cfgrw` looks at an access at all. -/
def cfgAligned (coff bytes : Nat) : Bool :=
  (bytes == 1 || bytes == 2 || bytes == 4) && coff &&& (bytes - 1) == 0

/-- `pci_cfgrw`, for a write. No device overrides the default handler. -/
def pciCfgwrite (fuel : Nat) (s : PciBus T) (a : PciAddr) (coff bytes : Nat) (eax : U32) :
    Except Stop (PciBus T) :=
  match s.devi a with
  | none => .ok s
  | some pi =>
    if cfgAligned coff bytes && coff ≤ pciRegmax then do
      let r ← pciCfgwriteDev fuel s.reg pi coff bytes eax
      .ok ({ s with reg := r.1 }.setDevi a r.2)
    else .ok s

/-- `pci_emul_is_mfdev`: whether more than one function of the slot is there. -/
def pciEmulIsMfdev (s : PciBus T) (bus slot : Nat) : Bool :=
  1 < ((List.range 8).filter fun f => (s.devi ⟨bus, slot, f⟩).isSome).length

/-- `pci_emul_hdrtype_fixup`. -/
def pciEmulHdrtypeFixup (s : PciBus T) (a : PciAddr) (off bytes : Nat) (rv : U32) : U32 :=
  if off ≤ pcirHdrtype ∧ pcirHdrtype < off + bytes then
    let mfdev : U32 := if bytes = 4 then 0x80#32 <<< 16 else 0x80#32
    let rv := rv &&& ~~~mfdev
    if pciEmulIsMfdev s a.bus a.slot then rv ||| mfdev else rv
  else rv

/-- `pci_cfgrw`, for a read. -/
def pciCfgread (s : PciBus T) (a : PciAddr) (coff bytes : Nat) : Except Stop U32 :=
  match s.devi a with
  | none => .ok 0xffffffff#32
  | some pi =>
    if cfgAligned coff bytes then
      if pciRegmax < coff then
        -- no extended capabilities
        .ok (if coff ≤ pciRegmax + 4 then 0 else 0xffffffff#32)
      else do
        let eax ← cfgread pi coff bytes
        .ok (pciEmulHdrtypeFixup s a coff bytes eax)
    else .ok 0xffffffff#32

end DeviceModel
