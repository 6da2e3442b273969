import DeviceModel.Library.Runs
import DeviceModel.Pci.Startup

/-!
# The legacy interrupt line as a state machine

The devices ask for the line with `pci_lintr_assert` and `pci_lintr_deassert`; the
guest decides in config space whether they may have it: by `PCIM_CMD_INTxDIS`, and
by enabling MSI or MSI-X. The state of the line is a function of the two, in every
run, because every path of `pci_cfgrw` that can change the permission ends with
`pci_lintr_update`; and `pci_irq_assert` is called where the line enters `ASSERTED`,
`pci_irq_deassert` where it leaves it.

* `lineState` — the state of the line, from "requested" and "permitted";
* `IrqCalls` — the calls one step makes;
* `pciCfgwriteDev_line` — what any config write does to the line.
-/

namespace DeviceModel

/-- The state of the line of a device, from whether the device asks for it and
whether the guest permits it. -/
def lineState : (requested permitted : Bool) → LintrState
  | false, _ => .idle
  | true, true => .asserted
  | true, false => .pending

/-- The line is in the state it should be in. -/
def LineOk (requested : Bool) (d : PciDevinst) : Prop :=
  d.lintr.state = lineState requested (pciLintrPermitted d)

/-- `pci_irq_assert` is called on entering `ASSERTED`, `pci_irq_deassert` on leaving it. -/
structure IrqCalls (d d' : PciDevinst) : Prop where
  asserts : d'.plic.asserts =
    d.plic.asserts + if d.lintr.state ≠ .asserted ∧ d'.lintr.state = .asserted then 1 else 0
  deasserts : d'.plic.deasserts =
    d.plic.deasserts + if d.lintr.state = .asserted ∧ d'.lintr.state ≠ .asserted then 1 else 0

theorem LineOk.iff {requested : Bool} {d : PciDevinst} (h : LineOk requested d) :
    (d.lintr.state = .idle ↔ requested = false) ∧
    (d.lintr.state = .asserted ↔ requested = true ∧ pciLintrPermitted d = true) ∧
    (d.lintr.state = .pending ↔ requested = true ∧ pciLintrPermitted d = false) := by
  rw [h]
  cases requested <;> cases pciLintrPermitted d <;> simp [lineState]

theorem IrqCalls.of_eq {d d' : PciDevinst} (hlintr : d'.lintr = d.lintr) (hplic : d'.plic = d.plic) :
    IrqCalls d d' := by
  refine ⟨?_, ?_⟩ <;> rw [hlintr, hplic] <;> simp

/-! ## The three functions -/

/-- The line goes to `st`, with so many calls of `pci_irq_assert` and `pci_irq_deassert`. -/
def LineTo (d d' : PciDevinst) (st : LintrState) (asserts deasserts : Nat) : Prop :=
  d'.lintr.state = st ∧ d'.plic.asserts = d.plic.asserts + asserts ∧
    d'.plic.deasserts = d.plic.deasserts + deasserts

/-- `pci_lintr_assert`, case by case. -/
theorem pciLintrAssert_cases (d : PciDevinst) :
    (d.lintr.state = .idle ∧ pciLintrPermitted d = true ∧
      LineTo d (pciLintrAssert d) .asserted 1 0) ∨
    (d.lintr.state = .idle ∧ pciLintrPermitted d = false ∧
      LineTo d (pciLintrAssert d) .pending 0 0) ∨
    (d.lintr.state ≠ .idle ∧ LineTo d (pciLintrAssert d) d.lintr.state 0 0) := by
  have hstate : d.lockLintr.lintr.state = d.lintr.state := rfl
  have hperm : pciLintrPermitted d.lockLintr = pciLintrPermitted d := rfl
  rw [pciLintrAssert, pciLintrAssertBody, hstate, hperm]
  cases hs : d.lintr.state with
  | idle =>
    cases hp : pciLintrPermitted d with
    | true => exact .inl ⟨rfl, rfl, rfl, rfl, rfl⟩
    | false => exact .inr (.inl ⟨rfl, rfl, rfl, rfl, rfl⟩)
  | asserted => exact .inr (.inr ⟨by decide, hs, rfl, rfl⟩)
  | pending => exact .inr (.inr ⟨by decide, hs, rfl, rfl⟩)

/-- `pci_lintr_deassert`, case by case. -/
theorem pciLintrDeassert_cases (d : PciDevinst) :
    (d.lintr.state = .asserted ∧ LineTo d (pciLintrDeassert d) .idle 0 1) ∨
    (d.lintr.state ≠ .asserted ∧ LineTo d (pciLintrDeassert d) .idle 0 0) := by
  have hstate : d.lockLintr.lintr.state = d.lintr.state := rfl
  rw [pciLintrDeassert, pciLintrDeassertBody, hstate]
  cases hs : d.lintr.state with
  | idle => exact .inr ⟨by decide, hs, rfl, rfl⟩
  | asserted => exact .inl ⟨rfl, rfl, rfl, rfl⟩
  | pending => exact .inr ⟨by decide, rfl, rfl, rfl⟩

/-- `pci_lintr_update`, case by case. -/
theorem pciLintrUpdate_cases (d : PciDevinst) :
    (d.lintr.state = .asserted ∧ pciLintrPermitted d = false ∧
      LineTo d (pciLintrUpdate d) .pending 0 1) ∨
    (d.lintr.state = .pending ∧ pciLintrPermitted d = true ∧
      LineTo d (pciLintrUpdate d) .asserted 1 0) ∨
    (d.lintr.state = lineState (d.lintr.state ≠ .idle) (pciLintrPermitted d) ∧
      LineTo d (pciLintrUpdate d) d.lintr.state 0 0) := by
  have hstate : d.lockLintr.lintr.state = d.lintr.state := rfl
  have hperm : pciLintrPermitted d.lockLintr = pciLintrPermitted d := rfl
  rw [pciLintrUpdate, pciLintrUpdateBody, hstate, hperm]
  cases hs : d.lintr.state with
  | idle => exact .inr (.inr ⟨rfl, hs, rfl, rfl⟩)
  | asserted =>
    cases hp : pciLintrPermitted d with
    | true => exact .inr (.inr ⟨rfl, hs, rfl, rfl⟩)
    | false => exact .inl ⟨rfl, rfl, rfl, rfl, rfl⟩
  | pending =>
    cases hp : pciLintrPermitted d with
    | true => exact .inr (.inl ⟨rfl, rfl, rfl, rfl, rfl⟩)
    | false => exact .inr (.inr ⟨rfl, hs, rfl, rfl⟩)

/-- The calls of a step, from the states before and after it. -/
theorem LineTo.irqCalls {d d' : PciDevinst} {st : LintrState} {m n : Nat} (h : LineTo d d' st m n)
    (hm : m = if d.lintr.state ≠ .asserted ∧ st = .asserted then 1 else 0)
    (hn : n = if d.lintr.state = .asserted ∧ st ≠ .asserted then 1 else 0) : IrqCalls d d' := by
  obtain ⟨hst, hm', hn'⟩ := h
  exact ⟨by rw [hst, hm', hm], by rw [hst, hn', hn]⟩

/-- Asking for the line. -/
theorem pciLintrAssert_line {requested : Bool} {d : PciDevinst} (h : LineOk requested d) :
    LineOk true (pciLintrAssert d) ∧ IrqCalls d (pciLintrAssert d) := by
  rw [LineOk, pciLintrAssert_permitted]
  obtain ⟨hs, hp, hto⟩ | ⟨hs, hp, hto⟩ | ⟨hs, hto⟩ := pciLintrAssert_cases d
  · exact ⟨by rw [hto.1, hp]; rfl, hto.irqCalls (by simp [hs]) (by simp [hs])⟩
  · exact ⟨by rw [hto.1, hp]; rfl, hto.irqCalls (by simp) (by simp [hs])⟩
  · refine ⟨?_, hto.irqCalls (by simp) (by simp)⟩
    rw [hto.1, h]
    cases requested with
    | true => rfl
    | false => exact absurd h hs

/-- No longer asking for it. -/
theorem pciLintrDeassert_line (d : PciDevinst) :
    LineOk false (pciLintrDeassert d) ∧ IrqCalls d (pciLintrDeassert d) := by
  rw [LineOk]
  obtain ⟨hs, hto⟩ | ⟨hs, hto⟩ := pciLintrDeassert_cases d
  · exact ⟨hto.1, hto.irqCalls (by simp) (by simp [hs])⟩
  · exact ⟨hto.1, hto.irqCalls (by simp) (by simp [hs])⟩

/-- Looking at the permission again. -/
theorem pciLintrUpdate_line {requested : Bool} {d : PciDevinst}
    (h : d.lintr.state = .idle ↔ requested = false) :
    LineOk requested (pciLintrUpdate d) ∧ IrqCalls d (pciLintrUpdate d) := by
  rw [LineOk, pciLintrUpdate_permitted]
  obtain ⟨hs, hp, hto⟩ | ⟨hs, hp, hto⟩ | ⟨hs, hto⟩ := pciLintrUpdate_cases d
  · have hreq : requested = true := by simpa [hs] using h
    exact ⟨by rw [hto.1, hp, hreq]; rfl, hto.irqCalls (by simp) (by simp [hs])⟩
  · have hreq : requested = true := by simpa [hs] using h
    exact ⟨by rw [hto.1, hp, hreq]; rfl, hto.irqCalls (by simp [hs]) (by simp)⟩
  · have hreq : decide (d.lintr.state ≠ .idle) = requested := by
      cases requested <;> simp_all
    rw [hreq] at hs
    exact ⟨hto.1.trans hs, hto.irqCalls (by simp) (by simp)⟩

/-- A line that is right stays so under any effect a config write can have. -/
theorem LineEffect.line {requested : Bool} {d d' : PciDevinst} (heff : LineEffect d d')
    (h : LineOk requested d) : LineOk requested d' ∧ IrqCalls d d' := by
  cases heff with
  | keep hlintr hplic hperm =>
    refine ⟨?_, .of_eq hlintr hplic⟩
    rw [LineOk, hlintr, hperm]
    exact h
  | update e hlintr hplic heq =>
    have hidle : e.lintr.state = .idle ↔ requested = false := by
      rw [hlintr]
      exact h.iff.1
    obtain ⟨hok, hcalls⟩ := pciLintrUpdate_line hidle
    rw [heq]
    refine ⟨hok, ⟨?_, ?_⟩⟩
    · rw [hcalls.asserts, hlintr, hplic]
    · rw [hcalls.deasserts, hlintr, hplic]

/-! ## Config writes -/

section Writes

variable {T : PciMemTree} {reg reg' : MmioHeap T} {pi pi' : PciDev}

/-- Moving a BAR does not touch what the interrupt functions see. -/
theorem updateBarAddress_devinst {addr : U64} {idx : Nat} {type : PcibarType}
    (h : updateBarAddress reg pi addr idx type = .ok (reg', pi')) : pi'.devinst = pi.devinst := by
  obtain ⟨reg₁, _, h⟩ := Except.bind_eq_ok.1 h
  cases hupd : barAddrUpdate (pi.bar idx).addr addr type with
  | none => simp [hupd] at h
  | some a =>
    simp only [hupd] at h
    obtain ⟨reg₂, _, h⟩ := Except.bind_eq_ok.1 h
    obtain rfl := (Prod.mk.inj (Except.ok.inj h)).2
    rfl

theorem barMove_devinst {w : BarWrite} (h : barMove reg pi w = .ok (reg', pi')) :
    pi'.devinst = pi.devinst := by
  rw [barMove] at h
  split at h
  · exact updateBarAddress_devinst h
  · obtain rfl := (Prod.mk.inj (Except.ok.inj h)).2
    split <;> rfl

theorem pciCfgwriteBar_devinst {coff bytes : Nat} {val : U32} (hcoff : pcirBar 0 ≤ coff)
    (h : pciCfgwriteBar reg pi coff bytes val = .ok (reg', pi')) : pi'.devinst = pi.devinst := by
  rw [pciCfgwriteBar] at h
  split at h
  · obtain rfl := (Prod.mk.inj (Except.ok.inj h)).2
    rfl
  · dsimp only at h
    split at h
    · cases h
    · obtain ⟨r, hmove, h⟩ := Except.bind_eq_ok.1 h
      obtain ⟨pj, hset, h⟩ := Except.bind_eq_ok.1 h
      obtain rfl := (Prod.mk.inj (Except.ok.inj h)).2
      obtain ⟨_, _, hset⟩ := Except.bind_eq_ok.1 hset
      obtain rfl := Except.ok.inj hset
      have hlo : 5 < coff := hcoff.trans_lt' (by decide)
      exact ((CfgFrame.set32 r.2 coff _).devinst (.inl hlo)).trans (barMove_devinst hmove)

/-- **Every path of `pci_cfgrw` looks at the line again** after it has changed a
register that the permission depends on. -/
theorem pciCfgwriteDev_line {fuel coff bytes : Nat} {val : U32}
    (halign : cfgAligned coff bytes = true)
    (h : pciCfgwriteDev fuel reg pi coff bytes val = .ok (reg', pi')) :
    LineEffect pi.devinst pi'.devinst := by
  rw [pciCfgwriteDev] at h
  split_ifs at h with hbar hcap hcmd
  · exact .of_eq (pciCfgwriteBar_devinst hbar.1 h)
  · obtain ⟨pj, hwrite, h⟩ := Except.bind_eq_ok.1 h
    obtain rfl := (Prod.mk.inj (Except.ok.inj h)).2
    simp only [pciEmulIscap, Bool.and_eq_true, decide_eq_true_eq] at hcap
    exact (CapEffect.of_capwrite hcap.2.1 hwrite).line
  · obtain ⟨pj, hwrite, h⟩ := Except.bind_eq_ok.1 h
    obtain ⟨_, _, h⟩ := Except.bind_eq_ok.1 h
    obtain rfl := (Prod.mk.inj (Except.ok.inj h)).2
    obtain ⟨_, _, hwrite⟩ := Except.bind_eq_ok.1 hwrite
    have hrest := (cfgwrite_frame hwrite).rest
    refine .update pj.devinst ?_ ?_ pj.devinst_lintrUpdate
    · rw [hrest]
      rfl
    · rw [hrest]
      rfl
  · -- neither byte of the command register is reached
    obtain ⟨pj, hwrite, h⟩ := Except.bind_eq_ok.1 h
    obtain rfl := (Prod.mk.inj (Except.ok.inj h)).2
    have hframe := cfgwrite_frame hwrite
    obtain ⟨hbytes, hmod⟩ := cfgAligned_iff.1 halign
    rw [cfgWidth_of_mem hbytes] at hframe
    refine .of_eq (hframe.devinst ?_)
    simp only [pcirCommand, pcirRevid] at hcmd
    obtain rfl | rfl | rfl := hbytes <;> omega

end Writes

/-! ## Runs -/

/-- The bus, and for each device whether its last call was `pci_lintr_assert`. -/
structure LineRun (T : PciMemTree) where
  bus : PciBus T
  requested : PciAddr → Bool

/-- What can happen to the lines. -/
inductive LineLabel : Type where
  /-- a device calls `pci_lintr_assert` -/
  | assert (a : PciAddr)
  /-- a device calls `pci_lintr_deassert` -/
  | deassert (a : PciAddr)
  /-- the guest writes to config space -/
  | cfgwrite (a : PciAddr) (coff bytes : Nat) (val : U32)

section Runs

variable {T : PciMemTree}

/-- The calls and the config writes that return. -/
inductive LineStep : LineRun T → LineLabel → LineRun T → Prop where
  | assert {s : LineRun T} {a : PciAddr} {pi : PciDev} : s.bus.devi a = some pi →
      LineStep s (.assert a)
        { bus := s.bus.setDevi a pi.lintrAssert, requested := Function.update s.requested a true }
  | deassert {s : LineRun T} {a : PciAddr} {pi : PciDev} : s.bus.devi a = some pi →
      LineStep s (.deassert a)
        { bus := s.bus.setDevi a pi.lintrDeassert
          requested := Function.update s.requested a false }
  | cfgwrite {s : LineRun T} {a : PciAddr} {coff bytes : Nat} {val : U32} (fuel : Nat)
      {bus : PciBus T} : pciCfgwrite fuel s.bus a coff bytes val = .ok bus →
      LineStep s (.cfgwrite a coff bytes val) { s with bus := bus }

/-- Before the devices do anything: every line is idle and nobody asks for one. -/
def LineInitial (s : LineRun T) : Prop :=
  (∀ a, s.requested a = false) ∧
    ∀ a pi, s.bus.devi a = some pi → pi.lintr.state = .idle

/-- Every line is in the state it should be in. -/
def LineRun.Ok (s : LineRun T) : Prop :=
  ∀ a pi, s.bus.devi a = some pi → LineOk (s.requested a) pi.devinst

theorem LineInitial.ok {s : LineRun T} (h : LineInitial s) : s.Ok := by
  intro a pi hpi
  rw [LineOk, h.1 a]
  exact h.2 a pi hpi

/-- A step that changes one device, and may change what is known of its requests. -/
theorem LineRun.Ok.setDevi {s : LineRun T} (h : s.Ok) {a : PciAddr} {pi pi' : PciDev}
    (bus : PciBus T) (req : Bool) (hbus : bus.devi = s.bus.devi) (hpi : s.bus.devi a = some pi)
    (hstep : LineOk (s.requested a) pi.devinst →
      LineOk req pi'.devinst ∧ IrqCalls pi.devinst pi'.devinst) :
    let t : LineRun T :=
      { bus := bus.setDevi a pi', requested := Function.update s.requested a req }
    t.Ok ∧ ∀ b pj pj', s.bus.devi b = some pj → t.bus.devi b = some pj' →
      IrqCalls pj.devinst pj'.devinst := by
  intro t
  obtain ⟨hok, hcalls⟩ := hstep (h a pi hpi)
  refine ⟨?_, ?_⟩
  · intro b pj hpj
    by_cases hba : b = a
    · subst hba
      obtain rfl := Option.some.inj ((bus.setDevi_same b pi').symm.trans hpj)
      have hreq : t.requested b = req := Function.update_self b req s.requested
      rw [hreq]
      exact hok
    · have hreq : t.requested b = s.requested b := Function.update_of_ne hba req s.requested
      rw [hreq]
      rw [bus.setDevi_of_ne pi' hba, hbus] at hpj
      exact h b pj hpj
  · intro b pj pj' hpj hpj'
    by_cases hba : b = a
    · subst hba
      obtain rfl := Option.some.inj (hpi.symm.trans hpj)
      obtain rfl := Option.some.inj ((bus.setDevi_same b pi').symm.trans hpj')
      exact hcalls
    · rw [bus.setDevi_of_ne pi' hba, hbus, hpj] at hpj'
      obtain rfl := Option.some.inj hpj'
      exact .of_eq rfl rfl

/-- One step keeps the lines right, and calls the interrupt controller as it should. -/
theorem LineStep.ok {s t : LineRun T} {l : LineLabel} (hs : s.Ok) (h : LineStep s l t) :
    t.Ok ∧ ∀ a pi pi', s.bus.devi a = some pi → t.bus.devi a = some pi' →
      IrqCalls pi.devinst pi'.devinst := by
  cases h with
  | @assert a pi hpi =>
    refine hs.setDevi s.bus true rfl hpi fun hok => ?_
    rw [pi.devinst_lintrAssert]
    exact pciLintrAssert_line hok
  | @deassert a pi hpi =>
    refine hs.setDevi s.bus false rfl hpi fun _ => ?_
    rw [pi.devinst_lintrDeassert]
    exact pciLintrDeassert_line pi.devinst
  | @cfgwrite a coff bytes val fuel bus hwrite =>
    obtain rfl | ⟨pi, r, hpi, halign, -, hdev, rfl⟩ := pciCfgwrite_cases hwrite
    · refine ⟨hs, fun a pi pi' hpi hpi' => ?_⟩
      obtain rfl := Option.some.inj (hpi.symm.trans hpi')
      exact .of_eq rfl rfl
    · have hstep := hs.setDevi { s.bus with reg := r.1 } (s.requested a) rfl hpi
        (pciCfgwriteDev_line halign hdev).line
      rwa [Function.update_eq_self] at hstep

/-- **The line is a function of the requests and of the permission**, in every run,
and the interrupt controller is called where the line enters and leaves `ASSERTED`. -/
theorem pci_lintr_line {s : LineRun T} (h : Reaches LineStep LineInitial s) :
    (∀ a pi, s.bus.devi a = some pi →
      (pi.lintr.state = .idle ↔ s.requested a = false) ∧
      (pi.lintr.state = .asserted ↔
        s.requested a = true ∧ pciLintrPermitted pi.devinst = true) ∧
      (pi.lintr.state = .pending ↔
        s.requested a = true ∧ pciLintrPermitted pi.devinst = false)) ∧
    ∀ l t, LineStep s l t → ∀ a pi pi', s.bus.devi a = some pi → t.bus.devi a = some pi' →
      IrqCalls pi.devinst pi'.devinst := by
  have hok : s.Ok := h.invariant (fun _ => LineInitial.ok) fun _ _ _ hs hstep => (hstep.ok hs).1
  exact ⟨fun a pi hpi => (hok a pi hpi).iff, fun l t hstep => (hstep.ok hok).2⟩

/-- The e1000 asks for its line on a fresh bus. -/
def lineListAsserted : LineRun OrderedTree.list where
  bus := pciListStart.setDevi e1000Addr ((pciListStart.devi e1000Addr).getD e1000Dev).lintrAssert
  requested := Function.update (fun _ => false) e1000Addr true

/-- Then the guest sets `PCIM_CMD_INTxDIS`. -/
def lineListMasked : LineRun OrderedTree.list :=
  { lineListAsserted with
    bus := outcome (pciCfgwrite 1 lineListAsserted.bus e1000Addr 4 2 0x0407) pciListStart }

theorem pci_lintr_line_masked :
    ∃ pi, lineListMasked.bus.devi e1000Addr = some pi ∧ pi.lintr.state = .pending := by
  have hinit : LineInitial ⟨pciListStart, fun _ => false⟩ := by
    obtain ⟨s, hs, hstarted⟩ := bhyvePciInit_returns OrderedTree.list
    obtain rfl := Except.ok.inj (hs.symm.trans pciListStart_init)
    exact ⟨fun _ => rfl, hstarted.idle⟩
  have hdev : pciListStart.devi e1000Addr = some ((pciListStart.devi e1000Addr).getD e1000Dev) := by
    have hsome : (pciListStart.devi e1000Addr).isSome = true := by decide +kernel
    obtain ⟨pi, hpi⟩ := Option.isSome_iff_exists.1 hsome
    rw [hpi, Option.getD_some]
  have hasserted : Reaches LineStep LineInitial lineListAsserted :=
    .next (.start hinit) (.assert hdev)
  have hmasked : Reaches LineStep LineInitial lineListMasked :=
    .next hasserted (.cfgwrite 1 (eq_ok_outcome (by decide +kernel)))
  have hperm : (lineListMasked.bus.devi e1000Addr).map (fun pi => pciLintrPermitted pi.devinst) =
      some false := by decide +kernel
  obtain ⟨pi, hpi, hfalse⟩ := Option.map_eq_some_iff.1 hperm
  obtain ⟨-, -, hpending⟩ := (pci_lintr_line hmasked).1 e1000Addr pi hpi
  exact ⟨pi, hpi, hpending.2 ⟨rfl, hfalse⟩⟩

end Runs

end DeviceModel
