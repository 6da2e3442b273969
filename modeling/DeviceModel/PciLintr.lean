import Mathlib.Logic.Basic
import DeviceModel.Pthread

/-!
# The legacy interrupt line of a PCI device

The line is a three-state machine in `bhyve/pci_emul.c`: `IDLE`, `ASSERTED`, and
`PENDING` for a request that the guest has masked. Entering `ASSERTED` calls
`pci_irq_assert` of `bhyve/bhyve_support.c`, which writes once to the guest's
interrupt controller; leaving it calls `pci_irq_deassert`, which does nothing.

The interrupt controller itself is outside the repository. `Plic` keeps the one
bit of it the device model can set, and counts the calls the line makes.
-/

namespace DeviceModel

/-- The states of `pi_lintr.state`. -/
inductive LintrState : Type where
  | idle
  | asserted
  | pending
  deriving DecidableEq, Repr

/-- The guest's interrupt controller, as far as this device's line reaches it. -/
structure Plic where
  /-- set by the write in `pci_irq_assert`, cleared when the guest claims -/
  pending : Bool
  /-- calls of `pci_irq_assert` so far -/
  asserts : Nat
  /-- calls of `pci_irq_deassert` so far -/
  deasserts : Nat
  deriving DecidableEq, Repr

/-- `pi_lintr`. Both devices call `pci_lintr_request` in their init function, so
the pin is assigned and `assert(pi->pi_lintr.pin > 0)` holds by construction. -/
structure PciLintr where
  pin : Nat
  pin_pos : 0 < pin
  state : LintrState
  lock : PthreadMutex

/-- `pi_msi`, without the address and data that no modelled function reads. -/
structure PciMsi where
  enabled : Bool
  maxmsgnum : Nat
  deriving DecidableEq, Repr

/-- The part of `struct pci_devinst` that the interrupt functions read. -/
structure PciDevinst where
  lintr : PciLintr
  msi : PciMsi
  msixEnabled : Bool
  /-- the `PCIR_COMMAND` word of config space -/
  command : BitVec 16
  plic : Plic

/-- `PCIM_CMD_INTxDIS`. -/
def pcimCmdINTxDIS : BitVec 16 := 0x0400#16

/-- `pci_lintr_permitted`. -/
def pciLintrPermitted (pi : PciDevinst) : Bool :=
  !(pi.msi.enabled || pi.msixEnabled || (pi.command &&& pcimCmdINTxDIS) != 0)

/-- `pci_msi_maxmsgnum`. -/
def pciMsiMaxmsgnum (pi : PciDevinst) : Nat :=
  if pi.msi.enabled then pi.msi.maxmsgnum else 0

/-- `pci_generate_msi`: the call that would deliver the message is compiled out. -/
def pciGenerateMsi (pi : PciDevinst) (_index : Nat) : PciDevinst := pi

/-- `pci_irq_assert`: one write of the line's bit to the interrupt controller. -/
def pciIrqAssert (pi : PciDevinst) : PciDevinst :=
  { pi with plic := { pi.plic with pending := true, asserts := pi.plic.asserts + 1 } }

/-- `pci_irq_deassert`: names the line and does nothing with it. -/
def pciIrqDeassert (pi : PciDevinst) : PciDevinst :=
  { pi with plic := { pi.plic with deasserts := pi.plic.deasserts + 1 } }

namespace PciDevinst

/-- Set `pi_lintr.state`. -/
def setState (pi : PciDevinst) (st : LintrState) : PciDevinst :=
  { pi with lintr := { pi.lintr with state := st } }

/-- `pthread_mutex_lock(&pi->pi_lintr.lock)`. -/
def lockLintr (pi : PciDevinst) : PciDevinst :=
  { pi with lintr := { pi.lintr with lock := pthreadMutexLock pi.lintr.lock } }

/-- `pthread_mutex_unlock(&pi->pi_lintr.lock)`. -/
def unlockLintr (pi : PciDevinst) : PciDevinst :=
  { pi with lintr := { pi.lintr with lock := pthreadMutexUnlock pi.lintr.lock } }

end PciDevinst

/-- The body of `pci_lintr_assert` between lock and unlock. -/
def pciLintrAssertBody (pi : PciDevinst) : PciDevinst :=
  match pi.lintr.state with
  | .idle => if pciLintrPermitted pi then pciIrqAssert (pi.setState .asserted)
      else pi.setState .pending
  | _ => pi

/-- `pci_lintr_assert`. -/
def pciLintrAssert (pi : PciDevinst) : PciDevinst :=
  (pciLintrAssertBody pi.lockLintr).unlockLintr

/-- The body of `pci_lintr_deassert` between lock and unlock. -/
def pciLintrDeassertBody (pi : PciDevinst) : PciDevinst :=
  match pi.lintr.state with
  | .asserted => pciIrqDeassert (pi.setState .idle)
  | .pending => pi.setState .idle
  | .idle => pi

/-- `pci_lintr_deassert`. -/
def pciLintrDeassert (pi : PciDevinst) : PciDevinst :=
  (pciLintrDeassertBody pi.lockLintr).unlockLintr

/-- The body of `pci_lintr_update` between lock and unlock. -/
def pciLintrUpdateBody (pi : PciDevinst) : PciDevinst :=
  if pi.lintr.state = .asserted ∧ ¬ pciLintrPermitted pi then
    (pciIrqDeassert pi).setState .pending
  else if pi.lintr.state = .pending ∧ pciLintrPermitted pi then
    pciIrqAssert (pi.setState .asserted)
  else pi

/-- `pci_lintr_update`. -/
def pciLintrUpdate (pi : PciDevinst) : PciDevinst :=
  (pciLintrUpdateBody pi.lockLintr).unlockLintr

/-- The state `pci_emul_init` and `pci_lintr_request` leave behind. -/
def pciDevinstInit : PciDevinst where
  lintr := ⟨1, Nat.one_pos, .idle, pthreadMutexInit⟩
  msi := ⟨false, 0⟩
  msixEnabled := false
  command := 0x0007#16
  plic := ⟨false, 0, 0⟩

/-! ## What the line functions do -/

/-- After `pci_lintr_assert` the line is requested. -/
theorem pciLintrAssert_state (pi : PciDevinst) : (pciLintrAssert pi).lintr.state ≠ .idle := by
  unfold pciLintrAssert pciLintrAssertBody
  cases h : pi.lintr.state <;>
    simp only [PciDevinst.lockLintr, PciDevinst.unlockLintr, h]
  · split <;> simp [PciDevinst.setState, pciIrqAssert]
  · simp
  · simp

/-- After `pci_lintr_deassert` it is not. -/
theorem pciLintrDeassert_state (pi : PciDevinst) : (pciLintrDeassert pi).lintr.state = .idle := by
  unfold pciLintrDeassert pciLintrDeassertBody
  cases h : pi.lintr.state <;>
    simp [PciDevinst.lockLintr, PciDevinst.unlockLintr, PciDevinst.setState, pciIrqDeassert, h]

/-- `pci_lintr_update` neither requests the line nor stops requesting it. -/
theorem pciLintrUpdate_idle (pi : PciDevinst) :
    (pciLintrUpdate pi).lintr.state = .idle ↔ pi.lintr.state = .idle := by
  unfold pciLintrUpdate pciLintrUpdateBody
  cases h : pi.lintr.state <;>
    simp only [PciDevinst.lockLintr, PciDevinst.unlockLintr, h]
  · simp
  · split
    · simp [PciDevinst.setState]
    · split <;> simp_all
  · split
    · simp [PciDevinst.setState]
    · split <;> simp_all [PciDevinst.setState, pciIrqAssert]

/-- Where the line is permitted, asserting an idle line sets the controller's bit. -/
theorem pciLintrAssert_plic {pi : PciDevinst} (hidle : pi.lintr.state = .idle)
    (hperm : pciLintrPermitted pi = true) :
    (pciLintrAssert pi).lintr.state = .asserted ∧ (pciLintrAssert pi).plic.pending = true := by
  have hperm' : pciLintrPermitted pi.lockLintr = true := hperm
  have hidle' : pi.lockLintr.lintr.state = .idle := hidle
  unfold pciLintrAssert pciLintrAssertBody
  rw [hidle', hperm']
  exact ⟨rfl, rfl⟩

@[simp] theorem pciLintrAssert_permitted (pi : PciDevinst) :
    pciLintrPermitted (pciLintrAssert pi) = pciLintrPermitted pi := by
  unfold pciLintrAssert pciLintrAssertBody
  split
  · split <;> rfl
  · rfl

@[simp] theorem pciLintrDeassert_permitted (pi : PciDevinst) :
    pciLintrPermitted (pciLintrDeassert pi) = pciLintrPermitted pi := by
  unfold pciLintrDeassert pciLintrDeassertBody
  split <;> rfl

@[simp] theorem pciLintrAssert_msi (pi : PciDevinst) : (pciLintrAssert pi).msi = pi.msi := by
  unfold pciLintrAssert pciLintrAssertBody
  split
  · split <;> rfl
  · rfl

@[simp] theorem pciLintrDeassert_msi (pi : PciDevinst) : (pciLintrDeassert pi).msi = pi.msi := by
  unfold pciLintrDeassert pciLintrDeassertBody
  split <;> rfl

@[simp] theorem pciLintrUpdate_msi (pi : PciDevinst) : (pciLintrUpdate pi).msi = pi.msi := by
  unfold pciLintrUpdate pciLintrUpdateBody
  split
  · rfl
  · split <;> rfl

@[simp] theorem pciLintrUpdate_permitted (pi : PciDevinst) :
    pciLintrPermitted (pciLintrUpdate pi) = pciLintrPermitted pi := by
  unfold pciLintrUpdate pciLintrUpdateBody
  split
  · rfl
  · split <;> rfl

/-- `pci_lintr_update` clears nothing in the interrupt controller. -/
theorem pciLintrUpdate_plic_pending {pi : PciDevinst} (h : pi.plic.pending = true) :
    (pciLintrUpdate pi).plic.pending = true := by
  unfold pciLintrUpdate pciLintrUpdateBody
  split
  · exact h
  · split
    · rfl
    · exact h

@[simp] theorem pciLintrDeassert_plic_pending (pi : PciDevinst) :
    (pciLintrDeassert pi).plic.pending = pi.plic.pending := by
  unfold pciLintrDeassert pciLintrDeassertBody
  split <;> rfl

/-- Each of the three functions takes the line's mutex once and releases it. -/
theorem pciLintrAssert_lock {pi : PciDevinst} (h : pi.lintr.lock.Free) :
    (pciLintrAssert pi).lintr.lock.Free := by
  have hlock : (pciLintrAssert pi).lintr.lock =
      pthreadMutexUnlock (pthreadMutexLock pi.lintr.lock) := by
    unfold pciLintrAssert pciLintrAssertBody
    split
    · split <;> rfl
    · rfl
  rw [hlock]
  exact h.lock_unlock

theorem pciLintrDeassert_lock {pi : PciDevinst} (h : pi.lintr.lock.Free) :
    (pciLintrDeassert pi).lintr.lock.Free := by
  have hlock : (pciLintrDeassert pi).lintr.lock =
      pthreadMutexUnlock (pthreadMutexLock pi.lintr.lock) := by
    unfold pciLintrDeassert pciLintrDeassertBody
    split <;> rfl
  rw [hlock]
  exact h.lock_unlock

theorem pciLintrUpdate_lock {pi : PciDevinst} (h : pi.lintr.lock.Free) :
    (pciLintrUpdate pi).lintr.lock.Free := by
  have hlock : (pciLintrUpdate pi).lintr.lock =
      pthreadMutexUnlock (pthreadMutexLock pi.lintr.lock) := by
    unfold pciLintrUpdate pciLintrUpdateBody
    split
    · rfl
    · split <;> rfl
  rw [hlock]
  exact h.lock_unlock

end DeviceModel
