import DeviceModel.Ahci.Disks
import DeviceModel.Ahci.Rules

/-!
# A controller with several ports

`pci_ahci_init` opens the ports that its option string names, and advertises six ports at
least, so that some ports may be unopened. Everything that a function does to one port it
does to the `PortCtx` of that port. The ports share the softc, memory and the stack; the
block contexts are their own.
-/

namespace DeviceModel

/-! ## Interrupts of any number of ports -/

/-- The bits of `IS` for the ports that have an enabled interrupt, of `n` ports. -/
def ahciPortsIsOf (n : Nat) (ports : Nat → AhciPort) : U32 :=
  (List.range n).foldl
    (fun is i => if (ports i).is &&& (ports i).ie ≠ 0 then is ||| 1#32 <<< i else is) 0

/-- The last loop of `ahci_generate_intr`, where `sc->ports` is `n`. -/
def ahciGenerateMsisOf (n : Nat) (sc : AhciSoftc) (mask : U32) (nmsg : Nat) : AhciSoftc :=
  (List.range nmsg).foldl
    (fun sc i =>
      let mmask : U32 := if n ≤ nmsg ∨ i + 1 < nmsg then 1#32 <<< i else 0xffffffff#32 <<< i
      if sc.is &&& mask ≠ 0 ∧ mmask &&& mask ≠ 0 then
        { sc with ascPi := pciGenerateMsi sc.ascPi i }
      else sc) sc

/-- `ahci_generate_intr`, where `sc->ports` is `n`. -/
def ahciGenerateIntrOf (n : Nat) (sc : AhciSoftc) (ports : Nat → AhciPort) (mask : U32) :
    AhciSoftc :=
  let sc := { sc with is := sc.is ||| ahciPortsIsOf n ports }
  if sc.is = 0 ∨ sc.ghc &&& ahciGhcIE = 0 then sc.lower
  else
    let nmsg := pciMsiMaxmsgnum sc.ascPi
    if nmsg = 0 then sc.raise else ahciGenerateMsisOf n sc mask nmsg

/-- `ahci_port_intr`, where `sc->ports` is `n`. -/
def ahciPortIntrOf (n : Nat) (sc : AhciSoftc) (p : AhciPort) : AhciSoftc :=
  if p.is &&& p.ie = 0 then sc
  else
    let nmsg := pciMsiMaxmsgnum sc.ascPi
    let bit : U32 := 1#32 <<< p.port
    if n ≤ nmsg ∨ p.port + 1 < nmsg then
      let sc := { sc with is := sc.is ||| bit }
      if sc.ghc &&& ahciGhcIE = 0 then sc
      else { sc with ascPi := pciGenerateMsi sc.ascPi p.port }
    else if sc.is &&& bit ≠ 0 then sc
    else
      let sc := { sc with is := sc.is ||| bit }
      if sc.ghc &&& ahciGhcIE = 0 then sc
      else if 0 < nmsg then { sc with ascPi := pciGenerateMsi sc.ascPi (nmsg - 1) }
      else sc.raise

theorem ahciGenerateIntrOf_ports (sc : AhciSoftc) (ports : Nat → AhciPort) (mask : U32) :
    ahciGenerateIntrOf ahciPorts sc ports mask = ahciGenerateIntr sc ports mask := rfl

/-- Setting a bit that is set changes nothing. -/
theorem or_portBit_self {x : U32} {port : Nat} (h : x &&& 1#32 <<< port ≠ 0) :
    x ||| 1#32 <<< port = x := by
  have hport : port < 32 := by
    by_contra hge
    rw [BitVec.shiftLeft_eq_zero (by omega)] at h
    exact h BitVec.and_zero
  have hbit : (1#32 <<< port).getLsbD = (slotBit ⟨port, hport⟩).getLsbD := rfl
  refine slots_ext fun t => ?_
  rw [BitVec.getLsbD_or, hbit, getLsbD_slotBit]
  by_cases ht : t = ⟨port, hport⟩
  · have hset : x.getLsbD t = true := by
      by_contra hclear
      refine h (slots_ext fun s => ?_)
      have hzero : (0 : U32).getLsbD s = false := BitVec.getLsbD_zero
      rw [BitVec.getLsbD_and, hbit, getLsbD_slotBit, hzero]
      by_cases hs : s = ⟨port, hport⟩
      · rw [hs, ← ht, Bool.eq_false_iff.2 hclear, Bool.false_and]
      · rw [decide_eq_false hs, Bool.and_false]
    rw [hset, Bool.true_or]
  · rw [decide_eq_false ht, Bool.or_false]

/-- The number of ports decides which message `ahci_port_intr` sends, and nothing else: so
the functions of a port are those of a controller with any number of ports. -/
theorem ahciPortIntrOf_eq {n : Nat} (hn : 0 < n) (sc : AhciSoftc) (p : AhciPort) :
    ahciPortIntrOf n sc p = ahciPortIntr sc p := by
  have hsix : 0 < ahciPorts := by decide
  rw [ahciPortIntrOf, ahciPortIntr]
  by_cases hno : p.is &&& p.ie = 0
  · rw [if_pos hno, if_pos hno]
  rw [if_neg hno, if_neg hno]
  by_cases hmsi : pciMsiMaxmsgnum sc.ascPi = 0
  · simp [hmsi, Nat.ne_of_gt hn, Nat.ne_of_gt hsix]
  -- with messages enabled each branch sets the bit, and sends a message
  have hpos : 0 < pciMsiMaxmsgnum sc.ascPi := Nat.pos_of_ne_zero hmsi
  simp only [pciGenerateMsi, hpos, if_true, ite_self]
  have hall : ∀ q : Prop, [Decidable q] →
      (if q then { sc with is := sc.is ||| 1#32 <<< p.port }
        else if sc.is &&& 1#32 <<< p.port ≠ 0 then sc
        else { sc with is := sc.is ||| 1#32 <<< p.port }) =
      { sc with is := sc.is ||| 1#32 <<< p.port } := by
    intro q _
    split
    · rfl
    · split
      · next hset => rw [or_portBit_self hset]
      · rfl
  rw [hall, hall]

/-! ## State -/

/-- The controller, with the block context of each port. -/
structure AhciHba where
  /-- `sc->ports` -/
  ports : Nat
  sc : AhciSoftc
  port : Nat → AhciPort
  /-- `bctx` of the ports that are opened -/
  bc : Nat → BlockifCtxt
  reqs : Nat → Nat → BlockifReq
  mem : Mem
  /-- the port whose context `blockif_sc->bc` names -/
  last : Option Nat
  stack : Nat → U8
  log : Nat → List AhciEvent

namespace AhciHba

/-- What a function called on port `i` works on. -/
def ctx (s : AhciHba) (i : Nat) : PortCtx where
  sc := s.sc
  p := s.port i
  blk := { bc := s.bc i, reqs := s.reqs i, mem := s.mem }
  stack := s.stack
  log := s.log i

/-- Port `i` and what it reaches, as a function called on it has left them. -/
def put (s : AhciHba) (i : Nat) (c : PortCtx) : AhciHba :=
  { s with
    sc := c.sc
    port := Function.update s.port i c.p
    bc := Function.update s.bc i c.blk.bc
    reqs := Function.update s.reqs i c.blk.reqs
    mem := c.mem
    stack := c.stack
    log := Function.update s.log i c.log }

/-- `pthread_mutex_lock(&sc->mtx)`. -/
def lockMtx (s : AhciHba) : AhciHba :=
  { s with sc := { s.sc with mtx := pthreadMutexLock s.sc.mtx } }

/-- `pthread_mutex_unlock(&sc->mtx)`. -/
def unlockMtx (s : AhciHba) : AhciHba :=
  { s with sc := { s.sc with mtx := pthreadMutexUnlock s.sc.mtx } }

/-! ## Accesses -/

/-- `ahci_reset`. -/
def ahciReset (s : AhciHba) : AhciHba :=
  let sc := { s.sc with ghc := ahciGhcAE, is := 0 }
  (List.range s.ports).foldl (fun s i => s.put i (ahciResetPort (s.ctx i)))
    { s with sc := sc.lower }

/-- `pci_ahci_host_write`. -/
def pciAhciHostWrite (s : AhciHba) (offset value : U64) : AhciHba :=
  let value : U32 := value.setWidth 32
  -- `AHCI_GHC` and `AHCI_IS`
  if offset = 0x04 then
    if value &&& ahciGhcHR ≠ 0 then s.ahciReset
    else
      let ghc :=
        if value &&& ahciGhcIE ≠ 0 then s.sc.ghc ||| ahciGhcIE else s.sc.ghc &&& ~~~ahciGhcIE
      { s with sc := ahciGenerateIntrOf s.ports { s.sc with ghc := ghc } s.port 0xffffffff#32 }
  else if offset = 0x08 then
    { s with
      sc := ahciGenerateIntrOf s.ports { s.sc with is := s.sc.is &&& ~~~value } s.port value }
  else s

/-- `pci_ahci_port_write`. -/
def pciAhciPortWrite (fuel : Nat) (M : Nat → Mem) (s : AhciHba) (offset value : U64) :
    Except Stop AhciHba := do
  let i := ahciPortNo offset
  let c ← ahciPortWriteReg fuel M (s.ctx i) (ahciPortReg ((offset - ahciOffset) % ahciStep))
    (value.setWidth 32)
  .ok (s.put i c)

/-- The end of the registers: `AHCI_OFFSET + sc->ports * AHCI_STEP`. -/
def regsEnd (s : AhciHba) : U64 := ahciOffset + BitVec.ofNat 64 s.ports * ahciStep

/-- `pci_ahci_write` between lock and unlock. -/
def pciAhciWriteBody (fuel : Nat) (M : Nat → Mem) (s : AhciHba) (offset value : U64) :
    Except Stop AhciHba :=
  if offset < ahciOffset then .ok (s.pciAhciHostWrite offset value)
  else if offset < s.regsEnd then s.pciAhciPortWrite fuel M offset value
  else .ok s

/-- `pci_ahci_write`. -/
def pciAhciWrite (fuel : Nat) (M : Nat → Mem) (s : AhciHba) (baridx : Nat) (offset value : U64) :
    Except Stop AhciHba := do
  assert "baridx == 5" (baridx == 5)
  assert "(offset % 4) == 0" (offset % 4 == 0)
  let t ← s.lockMtx.pciAhciWriteBody fuel M offset value
  .ok t.unlockMtx

/-- `sc->cap`. -/
def cap (s : AhciHba) : U32 := 0xff30ff20#32 ||| BitVec.ofNat 32 (s.ports - 1)

/-- `sc->pi`: the ports that are opened. -/
def pi (s : AhciHba) : U32 :=
  (List.range s.ports).foldl
    (fun pi i => if (s.port i).opened then pi ||| 1#32 <<< i else pi) 0

/-- `pci_ahci_host_read`. -/
def pciAhciHostRead (s : AhciHba) (offset : U64) : U32 :=
  if offset = 0x00 then s.cap
  -- `AHCI_PI`
  else if offset = 0x0c then s.pi
  else DeviceModel.pciAhciHostRead s.sc offset

/-- `pci_ahci_read` between lock and unlock. -/
def pciAhciReadBody (s : AhciHba) (regoff : U64) : U32 :=
  let offset := regoff &&& ~~~3#64
  let value :=
    if offset < ahciOffset then s.pciAhciHostRead offset
    else if offset < s.regsEnd then
      pciAhciPortRead (s.port (ahciPortNo offset)) ((offset - ahciOffset) % ahciStep)
    else 0
  value >>> (8 * (regoff &&& 3#64).toNat)

/-- `pci_ahci_read`. -/
def pciAhciRead (s : AhciHba) (baridx : Nat) (regoff : U64) (size : Nat) :
    Except Stop (AhciHba × U32) := do
  assert "baridx == 5" (baridx == 5)
  assert "size == 1 || size == 2 || size == 4" (size == 1 || size == 2 || size == 4)
  assert "(regoff & (size - 1)) == 0" (regoff.toNat % size == 0)
  .ok (s.lockMtx.unlockMtx, s.lockMtx.pciAhciReadBody regoff)

end AhciHba

/-! ## Start -/

/-- `p` after the loop of `pci_ahci_init` over `opts`, with `n` ports left from port `p` on. -/
def ahciOpenEnd : (n p : Nat) → Bool → Option (List Char) → Nat
  | 0, p, _, _ => p
  | _ + 1, p, _, none => p
  | n + 1, p, atapi, some s =>
    let (atapi, opts) := ahciPortType atapi s
    let next := ahciNextPort opts
    ahciOpenEnd n (p + 1) atapi (next.map fun i => opts.drop (i + 1))

namespace AhciHba

/-- What the loop of `pci_ahci_init` does for a port that it opens. `ident` is the
identifier that it makes from the port's options. -/
def openPort (base : U64) (ident : List Char → List U8) (s : AhciHba) (o : AhciPortOpts) :
    AhciHba :=
  { s with
    port := Function.update s.port o.port
      { ahciPortOpened o.atapi (ident o.opts) with port := o.port }
    bc := Function.update s.bc o.port (blockifOpen base)
    last := some o.port }

/-- The state before `ahci_reset` in `pci_ahci_init`. -/
def ofOpts (ctx : Vmctx) (base : U64) (opts : Option (List Char)) (atapi : Bool)
    (ident : List Char → List U8) (mem : Mem) (stack : Nat → U8) : AhciHba :=
  (ahciOpenPorts opts atapi).foldl (openPort base ident)
    { ports := max (ahciOpenEnd ahciMaxPorts 0 atapi opts) ahciPorts
      sc := { ascPi := pciDevinstInit, vmctx := ctx, mtx := pthreadMutexInit, ghc := 0, is := 0
              lintr := false }
      port := fun _ => ahciPortZero
      bc := fun _ => blockifOpen base
      reqs := fun _ _ => ⟨0, 0, []⟩
      mem := mem
      last := none
      stack := stack
      log := fun _ => [] }

/-- `pci_ahci_init`. -/
def pciAhciInit (ctx : Vmctx) (base : U64) (opts : Option (List Char)) (atapi : Bool)
    (ident : List Char → List U8) (mem : Mem) (stack : Nat → U8) : AhciHba :=
  (ofOpts ctx base opts atapi ident mem stack).ahciReset

end AhciHba

/-! ## The controller under `dm_loop` -/

namespace AhciHba

/-- Set what configuration space holds, and call `pci_lintr_update`. -/
def setConfig (s : AhciHba) (command : BitVec 16) (msi : PciMsi) (msixEnabled : Bool) : AhciHba :=
  let pi := { s.sc.ascPi with command := command, msi := msi, msixEnabled := msixEnabled }
  { s with sc := { s.sc with ascPi := pciLintrUpdate pi } }

/-- Change memory and the stack. -/
def setMem (s : AhciHba) (mem : Mem) (stack : Nat → U8) : AhciHba :=
  { s with mem := mem, stack := stack }

/-- Change `bc_mtx` of port `i`. -/
def setBcMtx (s : AhciHba) (i : Nat) (f : PthreadMutex → PthreadMutex) : AhciHba :=
  { s with bc := Function.update s.bc i { s.bc i with bcMtx := f (s.bc i).bcMtx } }

end AhciHba

/-- The controller, and whether `blockif_thr` runs. -/
structure HbaSys where
  dev : AhciHba
  serving : Bool

/-- One event. `blockif_thr` serves the context that was opened last. -/
inductive HbaStep : HbaSys → AhciLabel → HbaSys → Prop where
  | write {s : HbaSys} {t : AhciHba} (fuel : Nat) (M : Nat → Mem) (baridx : Nat)
      (offset value : U64) : s.serving = false →
      s.dev.pciAhciWrite fuel M baridx offset value = .ok t →
      HbaStep s (.write M baridx offset value) { s with dev := t }
  | read {s : HbaSys} {t : AhciHba} {v : U32} (baridx : Nat) (regoff : U64) (size : Nat) :
      s.serving = false → s.dev.pciAhciRead baridx regoff size = .ok (t, v) →
      HbaStep s (.read baridx regoff size) { s with dev := t }
  | config {s : HbaSys} (command : BitVec 16) (msi : PciMsi) (msixEnabled : Bool) :
      s.serving = false →
      HbaStep s (.config command msi msixEnabled)
        { s with dev := s.dev.setConfig command msi msixEnabled }
  | guest {s : HbaSys} (mem : Mem) (stack : Nat → U8) :
      HbaStep s (.guest mem stack) { s with dev := s.dev.setMem mem stack }
  | enter {s : HbaSys} {i : Nat} : s.serving = false → s.dev.last = some i →
      HbaStep s .enter { dev := s.dev.setBcMtx i pthreadMutexLock, serving := true }
  | serve {s : HbaSys} {i : Nat} {t : PortCtx} (fuel : Nat) (M : Nat → Mem) : s.serving = true →
      s.dev.last = some i → blockifServe (ahciClient fuel M) (s.dev.ctx i) = .ok (some t) →
      HbaStep s (.serve M) { s with dev := s.dev.put i t }
  | leave {s : HbaSys} {i : Nat} : s.serving = true → s.dev.last = some i →
      blockifFirstPend (s.dev.bc i).bcPendq = .ok none →
      HbaStep s .leave { dev := s.dev.setBcMtx i pthreadMutexUnlock, serving := false }

/-- After `pci_ahci_init`, for any option string. -/
def HbaInitial (s : HbaSys) : Prop :=
  (∃ ctx base opts atapi ident mem stack,
    s.dev = .pciAhciInit ctx base opts atapi ident mem stack) ∧ s.serving = false

/-- The controller of the disks in an option string, at address 0 of a memory full of zeros. -/
def hbaBlank (opts : String) : HbaSys where
  dev := .pciAhciInit ⟨0⟩ 0 (some opts.toList) false (fun _ => []) (fun _ => 0) (fun _ => 0)
  serving := false

theorem hbaBlank_initial (opts : String) : HbaInitial (hbaBlank opts) :=
  ⟨⟨⟨0⟩, 0, some opts.toList, false, fun _ => [], fun _ => 0, fun _ => 0, rfl⟩, rfl⟩

/-- Register writes one after another. -/
def AhciHba.writes (fuel : Nat) (M : Nat → Mem) : List (U64 × U64) → AhciHba → Except Stop AhciHba
  | [], s => .ok s
  | (offset, value) :: ws, s => do
    let t ← s.pciAhciWrite fuel M 5 offset value
    writes fuel M ws t

/-- They are a run, also of a step relation that allows some events only. -/
theorem AhciHba.writes_reaches {step : HbaSys → AhciLabel → HbaSys → Prop} {fuel : Nat}
    {M : Nat → Mem} (hwrite : ∀ {s t : HbaSys} {offset value : U64},
      HbaStep s (.write M 5 offset value) t → step s (.write M 5 offset value) t) :
    ∀ (ws : List (U64 × U64)) {s t : AhciHba}, Reaches step HbaInitial ⟨s, false⟩ →
      s.writes fuel M ws = .ok t → Reaches step HbaInitial ⟨t, false⟩ := by
  intro ws
  induction ws with
  | nil =>
    intro s t hs h
    cases h
    exact hs
  | cons w ws ih =>
    intro s t hs h
    obtain ⟨u, hu, h⟩ := Except.bind_eq_ok.1 h
    exact ih (.next hs (hwrite (.write (t := u) fuel M 5 w.1 w.2 rfl hu))) h

/-! ## One port and the others -/

namespace AhciHba

variable {s : AhciHba} {c : PortCtx} {i j : Nat}

@[simp] theorem ctx_put (s : AhciHba) (i : Nat) (c : PortCtx) : (s.put i c).ctx i = c := by
  simp [ctx, put]

@[simp] theorem put_port (s : AhciHba) (i : Nat) (c : PortCtx) : (s.put i c).port i = c.p := by
  simp [put]

@[simp] theorem put_ports (s : AhciHba) (i : Nat) (c : PortCtx) : (s.put i c).ports = s.ports := rfl

@[simp] theorem put_last (s : AhciHba) (i : Nat) (c : PortCtx) : (s.put i c).last = s.last := rfl

/-- `t` has port `j` as `s` has it, with its block context and what is on record for it. -/
structure SamePort (s t : AhciHba) (j : Nat) : Prop where
  port : t.port j = s.port j
  bc : t.bc j = s.bc j
  reqs : t.reqs j = s.reqs j
  log : t.log j = s.log j

/-- A function that is called on one port leaves the others alone. -/
theorem put_samePort (s : AhciHba) (c : PortCtx) (h : j ≠ i) : SamePort s (s.put i c) j := by
  refine ⟨?_, ?_, ?_, ?_⟩ <;> simp [put, h]

end AhciHba

end DeviceModel
