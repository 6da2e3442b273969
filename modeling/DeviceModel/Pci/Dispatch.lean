import DeviceModel.Ahci.Hba
import DeviceModel.E82545.Regs
import DeviceModel.Pci.Startup

/-!
# Requests of the guest

How a request of the guest finds its device: `dm_request` of `src/device-model.c`
picks the emulation, `emul_pci` of `src/emul_pci.c` tries the MMIO registry and falls
back to config space, and `pci_emul_mem_handler` hands an access to the BAR of a
device.

The functions on this path assert what the layers above have not checked. A failed
assertion of the path is `DispatchStop.assertion`; a stop inside a function that the
access is handed to is `DispatchStop.inside`.
-/

namespace DeviceModel

/-- How the handling of a request can stop. -/
inductive DispatchStop : Type where
  /-- an assertion on the path of the request is false -/
  | assertion (expr : String)
  /-- a function that the path calls has stopped -/
  | inside (e : Stop)
  deriving DecidableEq, Repr

/-- Forget where the stop was. -/
def DispatchStop.stop : DispatchStop → Stop
  | .assertion expr => .assertion expr
  | .inside e => e

/-- `assert` and `KASSERT` on the path of a request. -/
def kassert (expr : String) (b : Bool) : Except DispatchStop Unit :=
  if b then .ok () else .error (.assertion expr)

/-- `struct epw_request`, as far as the emulations use it. -/
structure EpwRequest where
  addr : U64
  data : U64
  dataLen : Nat
  isWrite : Bool
  deriving DecidableEq, Repr

/-- The bus with the two devices on it. What the softcs hold of their `pci_devinst`
is filled in when they are called. -/
structure DmPci (T : PciMemTree) where
  bus : PciBus T
  e1000 : E82545Softc
  ahci : Ahci

/-- What the device functions need beside their state: iterations for loops, and the
memory that the iterations of `ahci_handle_port` find. -/
structure DmEnv where
  fuel : Nat
  M : Nat → Mem

variable {T : PciMemTree}

/-! ## The device functions -/

/-- `pci_ahci_write`. -/
def ahciBarwrite (env : DmEnv) (s : Ahci) (baridx : Nat) (offset value : U64) :
    Except DispatchStop Ahci := do
  kassert "baridx == 5" (baridx == 5)
  kassert "(offset % 4) == 0" (offset % 4 == 0)
  let t ← (pciAhciWriteBody env.fuel env.M s.lockMtx offset value).mapError .inside
  .ok t.unlockMtx

/-- `pci_ahci_read`. -/
def ahciBarread (s : Ahci) (baridx : Nat) (regoff : U64) (size : Nat) :
    Except DispatchStop (Ahci × U32) := do
  kassert "baridx == 5" (baridx == 5)
  kassert "size == 1 || size == 2 || size == 4" (size == 1 || size == 2 || size == 4)
  kassert "(regoff & (size - 1)) == 0" (regoff.toNat % size == 0)
  .ok (s.lockMtx.unlockMtx, pciAhciReadBody s.lockMtx regoff)

/-- They are the functions of the controller. -/
theorem ahciBarwrite_stop (env : DmEnv) (s : Ahci) (baridx : Nat) (offset value : U64) :
    (ahciBarwrite env s baridx offset value).mapError DispatchStop.stop =
      pciAhciWrite env.fuel env.M s baridx offset value := by
  rw [ahciBarwrite, pciAhciWrite, kassert, kassert, assert, assert]
  cases baridx == 5 with
  | false => rfl
  | true =>
    cases offset % 4 == 0 with
    | false => rfl
    | true => cases pciAhciWriteBody env.fuel env.M s.lockMtx offset value <;> rfl

theorem ahciBarread_stop (s : Ahci) (baridx : Nat) (regoff : U64) (size : Nat) :
    (ahciBarread s baridx regoff size).mapError DispatchStop.stop =
      pciAhciRead s baridx regoff size := by
  rw [ahciBarread, pciAhciRead, kassert, kassert, kassert, assert, assert, assert]
  cases baridx == 5 with
  | false => rfl
  | true =>
    cases size == 1 || size == 2 || size == 4 with
    | false => rfl
    | true => cases regoff.toNat % size == 0 <;> rfl

namespace DmPci

/-- What the e1000 and the controller see of their `pci_devinst`, and the changes of it. -/
def e1000View (s : DmPci T) (pi : PciDev) : E82545Softc := { s.e1000 with escPi := pi.devinst }
def ahciView (s : DmPci T) (pi : PciDev) : Ahci :=
  { s.ahci with sc := { s.ahci.sc with ascPi := pi.devinst } }

def putE1000 (s : DmPci T) (a : PciAddr) (pi : PciDev) (sc : E82545Softc) : DmPci T :=
  { s with bus := s.bus.setDevi a (pi.setDevinst sc.escPi), e1000 := sc }
def putAhci (s : DmPci T) (a : PciAddr) (pi : PciDev) (t : Ahci) : DmPci T :=
  { s with bus := s.bus.setDevi a (pi.setDevinst t.sc.ascPi), ahci := t }

end DmPci

/-- `(*pe->pe_barwrite)(ctx, vcpu, pdi, bidx, offset, size, value)`. -/
def peBarwrite (env : DmEnv) (s : DmPci T) (a : PciAddr) (baridx : Nat) (offset : U64)
    (size : Nat) (value : U64) : Except DispatchStop (DmPci T) :=
  match s.bus.devi a with
  | none => .error (.inside .undefined)
  | some pi =>
    if a = ahciAddr then do
      let t ← ahciBarwrite env (s.ahciView pi) baridx offset value
      .ok (s.putAhci a pi t)
    else do
      let sc ← (e82545Write env.fuel (s.e1000View pi) baridx offset size value).mapError .inside
      .ok (s.putE1000 a pi sc)

/-- `(*pe->pe_barread)(ctx, vcpu, pdi, bidx, offset, size)`. -/
def peBarread (s : DmPci T) (a : PciAddr) (baridx : Nat) (offset : U64) (size : Nat) :
    Except DispatchStop (DmPci T × U64) :=
  match s.bus.devi a with
  | none => .error (.inside .undefined)
  | some pi =>
    if a = ahciAddr then do
      let r ← ahciBarread (s.ahciView pi) baridx offset size
      .ok (s.putAhci a pi r.1, r.2.setWidth 64)
    else do
      let r ← (e82545Read (s.e1000View pi) baridx offset size).mapError .inside
      .ok (s.putE1000 a pi r.1, r.2.setWidth 64)

/-! ## The handlers of the registry -/

/-- `pci_emul_mem_handler`, after its assertions. -/
def pciEmulMemAccess (env : DmEnv) (s : DmPci T) (a : PciAddr) (bidx : Nat) (isWrite : Bool)
    (offset : U64) (size : Nat) (val : U64) : Except DispatchStop (DmPci T × U64) :=
  if isWrite then
    if size = 8 then do
      let s ← peBarwrite env s a bidx offset 4 (val &&& 0xffffffff)
      let s ← peBarwrite env s a bidx (offset + 4) 4 (val >>> 32)
      .ok (s, val)
    else do
      let s ← peBarwrite env s a bidx offset size val
      .ok (s, val)
  else
    if size = 8 then do
      let lo ← peBarread s a bidx offset 4
      let hi ← peBarread lo.1 a bidx (offset + 4) 4
      .ok (hi.1, lo.2 ||| hi.2 <<< 32)
    else peBarread s a bidx offset size

/-- `pci_emul_mem_handler`: the value is what `*val` holds afterwards. -/
def pciEmulMemHandler (env : DmEnv) (s : DmPci T) (a : PciAddr) (bidx : Nat) (isWrite : Bool)
    (addr : U64) (size : Nat) (val : U64) : Except DispatchStop (DmPci T × U64) :=
  match s.bus.devi a with
  | none => .error (.inside .undefined)
  | some pdi => do
    kassert "bidx <= PCI_BARMAX" (bidx ≤ pciBarmax)
    kassert "pdi->pi_bar[bidx].type == PCIBAR_MEM32 || pdi->pi_bar[bidx].type == PCIBAR_MEM64"
      (pdi.bar bidx).type.isMem
    kassert
      "addr >= pdi->pi_bar[bidx].addr && addr + size <= pdi->pi_bar[bidx].addr + pdi->pi_bar[bidx].size"
      ((pdi.bar bidx).addr ≤ addr &&
        addr + BitVec.ofNat 64 size ≤ (pdi.bar bidx).addr + (pdi.bar bidx).size)
    pciEmulMemAccess env s a bidx isWrite (addr - (pdi.bar bidx).addr) size val

/-- `bhyve_pci_cfgrw`: the value is what `*eax` holds afterwards. -/
def bhyvePciCfgrw (env : DmEnv) (s : DmPci T) (isWrite : Bool) (a : PciAddr) (coff bytes : Nat)
    (eax : U32) : Except DispatchStop (DmPci T × U32) :=
  if isWrite then do
    let bus ← (pciCfgwrite (env.fuel + 1) s.bus a coff bytes eax).mapError .inside
    .ok ({ s with bus := bus }, eax)
  else do
    let eax ← (pciCfgread s.bus a coff bytes).mapError .inside
    .ok (s, eax)

/-- The function and the register of an address in config space. -/
def cfgAddr (offset : U64) : PciAddr where
  bus := (offset.toNat >>> 20) % 0x100
  slot := (offset.toNat >>> 15) % 0x20
  func := (offset.toNat >>> 12) % 0x8
def cfgCoff (offset : U64) : Nat := offset.toNat % 0x1000

/-- `pci_emul_ecfg_handler`. The register is the lower half of `*val`. -/
def pciEmulEcfgHandler (env : DmEnv) (s : DmPci T) (isWrite : Bool) (addr : U64) (bytes : Nat)
    (val : U64) : Except DispatchStop (DmPci T × U64) := do
  let val := if isWrite then val else 0xffffffffffffffff
  let r ← bhyvePciCfgrw env s isWrite (cfgAddr addr) (cfgCoff addr) bytes (val.setWidth 32)
  .ok (r.1, (val &&& 0xffffffff00000000) ||| r.2.setWidth 64)

/-- `mr->handler`, with `mr->arg1` and `mr->arg2`. -/
def memHandler (env : DmEnv) (s : DmPci T) (handler : PciMemHandler) (isWrite : Bool)
    (paddr : U64) (size : Nat) (val : U64) : Except DispatchStop (DmPci T × U64) :=
  match handler with
  | .emulMem a bidx => pciEmulMemHandler env s a bidx isWrite paddr size val
  | .emulEcfg => pciEmulEcfgHandler env s isWrite paddr size val

/-- `emulate_mem`: the error, or what `*val` holds afterwards. -/
def emulateMem (env : DmEnv) (s : DmPci T) (paddr : U64) (isWrite : Bool) (accessWidth : Nat)
    (val : U64) : Except DispatchStop (DmPci T × Except MemErrno U64) :=
  let r := accessMemory s.bus.reg.mmio paddr id
  let s := { s with bus := { s.bus with reg := { s.bus.reg with mmio := r.1 } } }
  match r.2 with
  | .error e => .ok (s, .error e)
  | .ok mr => do
    let r ← memHandler env s mr.handler isWrite paddr accessWidth val
    .ok (r.1, .ok r.2)

/-! ## The emulations -/

/-- `EPW_WINDOW`. -/
def epwWindow : U64 := 0x60000000

/-- `emul_mem`: the request, where there was no error. -/
def emulMem (env : DmEnv) (s : DmPci T) (req : EpwRequest) :
    Except DispatchStop (DmPci T × Except MemErrno EpwRequest) :=
  if req.isWrite then do
    kassert "req->data_len < 8" (req.dataLen < 8)
    let r ← emulateMem env s req.addr true req.dataLen req.data
    .ok (r.1, r.2.map fun _ => req)
  else do
    -- `data` is not initialised; the handlers do not read it
    let r ← emulateMem env s req.addr false req.dataLen 0
    .ok (r.1, r.2.map fun data => { req with data := data })

/-- The end of `emul_pci`: the request goes to config space. -/
def emulCfgrw (env : DmEnv) (s : DmPci T) (req : EpwRequest) (a : PciAddr) (coff : Nat) :
    Except DispatchStop (DmPci T × EpwRequest) :=
  if req.isWrite then do
    let r ← bhyvePciCfgrw env s true a coff req.dataLen (req.data.setWidth 32)
    .ok (r.1, req)
  else do
    let r ← bhyvePciCfgrw env s false a coff req.dataLen 0
    .ok (r.1, { req with data := r.2.setWidth 64 })

/-- `emul_pci`, on a link with the base `baseEmul`. -/
def emulPci (env : DmEnv) (baseEmul : U64) (s : DmPci T) (req : EpwRequest) :
    Except DispatchStop (DmPci T × EpwRequest) := do
  let offset := req.addr - baseEmul - epwWindow
  let r ← emulMem env s req
  match r.2 with
  | .ok req => .ok (r.1, req)
  | .error _ => emulCfgrw env r.1 req (cfgAddr offset) (cfgCoff offset)

/-- `emul_iommu`: a read at offset 0 gives the page table base of the monitor. -/
def emulIommu (satp : U64) (baseEmul : U64) (req : EpwRequest) : EpwRequest :=
  let offset := req.addr - baseEmul - epwWindow
  if req.isWrite then req else if offset = 0 then { req with data := satp } else req

/-- The base and the size of the two links of `emul_map`. -/
def emulPciBase : U64 := 0x010000
def emulPciSize : U64 := 0x50000
def emulIommuBase : U64 := 0x510000
def emulIommuSize : U64 := 0x10000

/-- Whether `dm_request` finds an address behind a link. -/
def inLink (base size addr : U64) : Bool :=
  base ≤ addr - epwWindow && addr - epwWindow < base + size

/-- `dm_request`: the request, and what it returns. -/
def dmRequest (env : DmEnv) (satp : U64) (s : DmPci T) (req : EpwRequest) :
    Except DispatchStop (DmPci T × EpwRequest × Int) :=
  if inLink emulPciBase emulPciSize req.addr then do
    let r ← emulPci env emulPciBase s req
    .ok (r.1, r.2, 0)
  else if inLink emulIommuBase emulIommuSize req.addr then
    .ok (s, emulIommu satp emulIommuBase req, 0)
  else .ok (s, req, -1)

end DeviceModel
