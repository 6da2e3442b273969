import DeviceModel.Library.MaskedRegs
import DeviceModel.Library.WordBytes
import DeviceModel.Pci.DispatchRuns

/-!
# The two ports of config space

A guest with I/O ports selects a register of config space with the address port
(`pci_emul_cfgaddr`) and accesses it through the data port (`pci_emul_cfgdata`). The two agree
with the memory-mapped window (`pci_emul_ecfg_handler`): the ports are a latch in front of it.
-/

namespace DeviceModel

variable {T : PciMemTree}

/-! ## The ports -/

/-- `CONF1_DATA_PORT` and `CONF1_ENABLE`. -/
def conf1DataPort : Nat := 0xcfc
def conf1Enable : U32 := 0x80000000

/-- `cfgenable`, `cfgbus`, `cfgslot`, `cfgfunc` and `cfgoff`. -/
structure CfgSelect where
  cfgenable : Bool
  cfgbus : U32
  cfgslot : U32
  cfgfunc : U32
  cfgoff : U32
  deriving DecidableEq, Repr

/-- `pci_emul_cfgaddr`: what it leaves in the variables, and in `*eax`. -/
def pciEmulCfgaddr (c : CfgSelect) (isWrite : Bool) (bytes : Nat) (eax : U32) : CfgSelect × U32 :=
  if bytes ≠ 4 then
    (c, if isWrite then eax else if bytes = 2 then 0xffff else 0xff)
  else if isWrite then
    ({ cfgenable := eax &&& conf1Enable == conf1Enable
       cfgoff := eax &&& 255#32
       cfgfunc := (eax >>> 8) &&& 7#32
       cfgslot := (eax >>> 11) &&& 31#32
       cfgbus := (eax >>> 16) &&& 255#32 }, eax)
  else
    let x := (c.cfgbus <<< 16) ||| (c.cfgslot <<< 11) ||| (c.cfgfunc <<< 8) ||| c.cfgoff
    (c, if c.cfgenable then x ||| conf1Enable else x)

/-- `pci_emul_cfgdata`. -/
def pciEmulCfgdata (env : DmEnv) (s : DmPci T) (c : CfgSelect) (isWrite : Bool) (port bytes : Nat)
    (eax : U32) : Except DispatchStop (DmPci T × U32) := do
  kassert "bytes == 1 || bytes == 2 || bytes == 4" (bytes == 1 || bytes == 2 || bytes == 4)
  let coff := c.cfgoff.toNat + (port - conf1DataPort)
  if c.cfgenable then
    bhyvePciCfgrw env s isWrite ⟨c.cfgbus.toNat, c.cfgslot.toNat, c.cfgfunc.toNat⟩ coff bytes eax
  else
    -- not enabled by the address port
    .ok (s, if isWrite then eax else 0xffffffff)

/-! ## The latch -/

/-- The bits of the address port that are kept. -/
def conf1Mask : U32 := 0x80ffffff

/-- The address of the window that is selected. -/
def conf1Ecfg (x : U32) (port : Nat) : U64 :=
  BitVec.ofNat 64 (x.toNat / 256 % 65536 * 4096 + (x.toNat % 256 + (port - conf1DataPort)))

/-- The address port as one register. -/
def latchAddr (x : U32) (isWrite : Bool) (bytes : Nat) (eax : U32) : U32 × U32 :=
  if bytes ≠ 4 then (x, if isWrite then eax else if bytes = 2 then 0xffff else 0xff)
  else if isWrite then (eax &&& conf1Mask, eax)
  else (x, x)

/-- The data port as the window. -/
def latchData (env : DmEnv) (s : DmPci T) (x : U32) (isWrite : Bool) (port bytes : Nat) (eax : U32) :
    Except DispatchStop (DmPci T × U32) :=
  if x.msb then do
    let r ← pciEmulEcfgHandler env s isWrite (conf1Ecfg x port) bytes (eax.setWidth 64)
    .ok (r.1, r.2.setWidth 32)
  else .ok (s, if isWrite then eax else 0xffffffff)

/-- The variables that a register stands for. -/
def CfgSelect.ofLatch (x : U32) : CfgSelect where
  cfgenable := x.msb
  cfgoff := x &&& 255#32
  cfgfunc := (x >>> 8) &&& 7#32
  cfgslot := (x >>> 11) &&& 31#32
  cfgbus := (x >>> 16) &&& 255#32

section Latch

variable {x eax : U32} {port bytes : Nat} {isWrite : Bool}

/-- The fields in numbers. -/
theorem toNat_field (x : U32) {m : U32} (j k : Nat) (hm : m.toNat = 2 ^ k - 1) :
    ((x >>> j) &&& m).toNat = x.toNat / 2 ^ j % 2 ^ k := by
  rw [toNat_and_pow _ k hm, BitVec.toNat_ushiftRight, Nat.shiftRight_eq_div_pow]

theorem and_conf1Enable (x : U32) : (x &&& conf1Enable == conf1Enable) = x.msb := by
  have hmsb : x.msb = x.getLsbD 31 := BitVec.msb_eq_getLsbD_last x
  rw [hmsb]
  cases hbit : x.getLsbD 31 with
  | true =>
    refine beq_iff_eq.2 (BitVec.eq_of_getLsbD_eq fun i hi => ?_)
    rw [BitVec.getLsbD_and]
    by_cases hlast : i = 31
    · rw [hlast, hbit, Bool.true_and]
    · have hoff : conf1Enable.getLsbD i = false := by
        have hall : ∀ i, i < 32 → i ≠ 31 → conf1Enable.getLsbD i = false := by decide
        exact hall i hi hlast
      rw [hoff, Bool.and_false]
  | false =>
    refine beq_eq_false_iff_ne.2 fun heq => ?_
    have hbit' := congrArg (BitVec.getLsbD · 31) heq
    rw [BitVec.getLsbD_and, hbit] at hbit'
    exact absurd hbit' (by decide)

/-- The bits that are not kept are not used. -/
theorem CfgSelect.ofLatch_mask (x : U32) : CfgSelect.ofLatch (x &&& conf1Mask) = .ofLatch x := by
  have hfield : ∀ (j : Nat) (m : U32), (conf1Mask >>> j) &&& m = m →
      ((x &&& conf1Mask) >>> j) &&& m = (x >>> j) &&& m := by
    intro j m hm
    rw [BitVec.ushiftRight_and_distrib, BitVec.and_assoc, hm]
  have hoff : (x &&& conf1Mask) &&& 255#32 = x &&& 255#32 := by
    rw [BitVec.and_assoc]
    rfl
  have hmsb : (x &&& conf1Mask).msb = x.msb := by
    rw [BitVec.msb_and, show conf1Mask.msb = true by decide, Bool.and_true]
  simp only [ofLatch, hmsb, hoff, hfield 8 7#32 (by decide), hfield 11 31#32 (by decide),
    hfield 16 255#32 (by decide)]

/-- The bits of a field in its place. -/
theorem getLsbD_field (x : U32) (j k i : Nat) (hi : j + k ≤ 32) :
    (((x >>> j) &&& BitVec.ofNat 32 (2 ^ k - 1)) <<< j).getLsbD i =
      (decide (j ≤ i ∧ i < j + k) && x.getLsbD i) := by
  rw [BitVec.getLsbD_shiftLeft, BitVec.getLsbD_and, BitVec.getLsbD_ushiftRight, BitVec.getLsbD_ofNat,
    Nat.testBit_two_pow_sub_one]
  by_cases hin : j ≤ i ∧ i < j + k
  · have hback : j + (i - j) = i := by omega
    simp [hback, hin.1, show ¬ i < j by omega, show i < 32 by omega, show i - j < k by omega,
      show i - j < 32 by omega, hin.2]
  · rcases not_and_or.1 hin with hlt | hge
    · simp [hlt, show i < j by omega]
    · simp [hge]
      omega

/-- A register that is kept whole has no other bits. -/
theorem getLsbD_conf1Mask {x : U32} (hx : x &&& conf1Mask = x) {i : Nat} (hlo : 24 ≤ i) (hhi : i < 31) :
    x.getLsbD i = false := by
  have hmask : ∀ i, i < 31 → 24 ≤ i → conf1Mask.getLsbD i = false := by decide
  rw [← hx, BitVec.getLsbD_and, hmask i hhi hlo, Bool.and_false]

/-- The fields, put together. -/
theorem getLsbD_fields (x : U32) {i : Nat} (hi : i < 32) :
    ((x >>> 16 &&& 255#32) <<< 16 ||| (x >>> 11 &&& 31#32) <<< 11 ||| (x >>> 8 &&& 7#32) <<< 8 |||
      (x &&& 255#32)).getLsbD i = (decide (i < 24) && x.getLsbD i) := by
  have hbus := getLsbD_field x 16 8 i (by decide)
  have hslot := getLsbD_field x 11 5 i (by decide)
  have hfunc := getLsbD_field x 8 3 i (by decide)
  have hoff := getLsbD_field x 0 8 i (by decide)
  rw [BitVec.ushiftRight_zero, BitVec.shiftLeft_zero] at hoff
  simp only [Nat.reducePow, Nat.reduceSub] at hbus hslot hfunc hoff
  rw [BitVec.getLsbD_or, BitVec.getLsbD_or, BitVec.getLsbD_or, hbus, hslot, hfunc, hoff]
  cases x.getLsbD i with
  | false => simp
  | true =>
    simp only [Bool.and_true, ← Bool.decide_or]
    exact decide_eq_decide.2 (by omega)

/-- The fields come from one register. -/
theorem CfgSelect.ofLatch_read {x : U32} (hx : x &&& conf1Mask = x) (eax : U32) :
    (pciEmulCfgaddr (.ofLatch x) false 4 eax).2 = x := by
  have hmsb : x.msb = x.getLsbD 31 := BitVec.msb_eq_getLsbD_last x
  have hread : (pciEmulCfgaddr (.ofLatch x) false 4 eax).2 =
      if x.msb then ((x >>> 16 &&& 255#32) <<< 16 ||| (x >>> 11 &&& 31#32) <<< 11 |||
        (x >>> 8 &&& 7#32) <<< 8 ||| (x &&& 255#32)) ||| conf1Enable
      else (x >>> 16 &&& 255#32) <<< 16 ||| (x >>> 11 &&& 31#32) <<< 11 ||| (x >>> 8 &&& 7#32) <<< 8 |||
        (x &&& 255#32) := rfl
  have henable : ∀ i, i < 31 → conf1Enable.getLsbD i = false := by decide
  have hlast : conf1Enable.getLsbD 31 = true := by decide
  rw [hread]
  refine BitVec.eq_of_getLsbD_eq fun i hi => ?_
  -- below the enable bit
  have hlow : i < 31 → (decide (i < 24) && x.getLsbD i) = x.getLsbD i := by
    intro hlt
    by_cases hin : i < 24
    · rw [decide_eq_true hin, Bool.true_and]
    · rw [getLsbD_conf1Mask hx (Nat.not_lt.1 hin) hlt, Bool.and_false]
  cases hset : x.msb with
  | true =>
    rw [if_pos rfl, BitVec.getLsbD_or, getLsbD_fields x hi]
    by_cases hlt : i < 31
    · rw [hlow hlt, henable i hlt, Bool.or_false]
    · obtain rfl : i = 31 := by omega
      rw [hlast, Bool.or_true, ← hmsb, hset]
  | false =>
    rw [if_neg Bool.false_ne_true, getLsbD_fields x hi]
    by_cases hlt : i < 31
    · exact hlow hlt
    · obtain rfl : i = 31 := by omega
      rw [← hmsb, hset, Bool.and_false]

/-- A write that the latch takes. -/
theorem CfgSelect.ofLatch_write (x eax : U32) :
    pciEmulCfgaddr (.ofLatch x) true 4 eax = (.ofLatch (eax &&& conf1Mask), eax) := by
  rw [ofLatch_mask, pciEmulCfgaddr, if_neg (by decide), if_pos rfl, and_conf1Enable]
  rfl

/-- **The address port** is one register. -/
theorem pciEmulCfgaddr_eq (hx : x &&& conf1Mask = x) (isWrite : Bool) (bytes : Nat) (eax : U32) :
    pciEmulCfgaddr (.ofLatch x) isWrite bytes eax =
      (.ofLatch (latchAddr x isWrite bytes eax).1, (latchAddr x isWrite bytes eax).2) := by
  by_cases hbytes : bytes = 4
  · subst hbytes
    cases isWrite with
    | true => exact CfgSelect.ofLatch_write x eax
    | false => exact congrArg (Prod.mk (CfgSelect.ofLatch x)) (CfgSelect.ofLatch_read hx eax)
  · rw [pciEmulCfgaddr, latchAddr, if_pos hbytes, if_pos hbytes]

/-- The latch keeps what it holds. -/
theorem latchAddr_mask (hx : x &&& conf1Mask = x) (isWrite : Bool) (bytes : Nat) (eax : U32) :
    (latchAddr x isWrite bytes eax).1 &&& conf1Mask = (latchAddr x isWrite bytes eax).1 := by
  by_cases hbytes : bytes = 4
  · subst hbytes
    cases isWrite with
    | true => exact (BitVec.and_assoc ..).trans (congrArg (eax &&& ·) BitVec.and_self)
    | false => exact hx
  · rw [latchAddr, if_pos hbytes]
    exact hx

/-! ## The window -/

theorem toNat_conf1Ecfg (x : U32) (hhi : port < conf1DataPort + 4) :
    (conf1Ecfg x port).toNat =
      x.toNat / 256 % 65536 * 4096 + (x.toNat % 256 + (port - conf1DataPort)) := by
  rw [conf1Ecfg, BitVec.toNat_ofNat]
  exact Nat.mod_eq_of_lt (by omega)

/-- The window has the same register at the address. -/
theorem cfgCoff_conf1Ecfg (x : U32) (hhi : port < conf1DataPort + 4) :
    cfgCoff (conf1Ecfg x port) = (x &&& 255#32).toNat + (port - conf1DataPort) := by
  rw [cfgCoff, toNat_conf1Ecfg x hhi, toNat_and_pow x 8 rfl]
  omega

theorem cfgAddr_conf1Ecfg (x : U32) (hhi : port < conf1DataPort + 4) :
    cfgAddr (conf1Ecfg x port) = ⟨((x >>> 16) &&& 255#32).toNat, ((x >>> 11) &&& 31#32).toNat,
      ((x >>> 8) &&& 7#32).toNat⟩ := by
  rw [toNat_field x 16 8 rfl, toNat_field x 11 5 rfl, toNat_field x 8 3 rfl, cfgAddr]
  simp only [Nat.shiftRight_eq_div_pow, Nat.reducePow, PciAddr.mk.injEq]
  have hdiv : (conf1Ecfg x port).toNat / 4096 = x.toNat / 256 % 65536 := by
    rw [toNat_conf1Ecfg x hhi]
    omega
  have hbus : (conf1Ecfg x port).toNat / 1048576 = (conf1Ecfg x port).toNat / 4096 / 256 :=
    (Nat.div_div_eq_div_mul _ 4096 256).symm
  have hslot : (conf1Ecfg x port).toNat / 32768 = (conf1Ecfg x port).toNat / 4096 / 8 :=
    (Nat.div_div_eq_div_mul _ 4096 8).symm
  have hbus' : x.toNat / 65536 = x.toNat / 256 / 256 := (Nat.div_div_eq_div_mul _ 256 256).symm
  have hslot' : x.toNat / 2048 = x.toNat / 256 / 8 := (Nat.div_div_eq_div_mul _ 256 8).symm
  rw [hbus, hslot, hdiv, hbus', hslot']
  refine ⟨?_, ?_, ?_⟩ <;> omega

/-- The value of the window is the one of `bhyve_pci_cfgrw` in its lower half. -/
theorem pciEmulEcfgHandler_lower (env : DmEnv) (s : DmPci T) (isWrite : Bool) (addr : U64)
    (bytes : Nat) (eax : U32) :
    (do
      let r ← pciEmulEcfgHandler env s isWrite addr bytes (eax.setWidth 64)
      .ok (r.1, r.2.setWidth 32)) =
      bhyvePciCfgrw env s isWrite (cfgAddr addr) (cfgCoff addr) bytes eax := by
  have hlower : ∀ (v : U64) (u : U32), ((v &&& 0xffffffff00000000) ||| u.setWidth 64).setWidth 32 = u := by
    intro v u
    have hhigh : (0xffffffff00000000 : U64).setWidth 32 = 0#32 := by decide
    rw [BitVec.setWidth_or, BitVec.setWidth_and, hhigh, BitVec.and_zero, BitVec.zero_or,
      BitVec.setWidth_setWidth_of_le _ (by decide), BitVec.setWidth_eq]
  rw [pciEmulEcfgHandler]
  cases isWrite with
  | true =>
    have hval : (eax.setWidth 64).setWidth 32 = eax := by
      rw [BitVec.setWidth_setWidth_of_le _ (by decide), BitVec.setWidth_eq]
    simp only [if_true, hval]
    cases bhyvePciCfgrw env s true (cfgAddr addr) (cfgCoff addr) bytes eax with
    | error e => rfl
    | ok r => exact congrArg (fun v => Except.ok (r.1, v)) (hlower _ r.2)
  | false =>
    -- a read does not look at the value
    have hread : bhyvePciCfgrw env s false (cfgAddr addr) (cfgCoff addr) bytes
          ((0xffffffffffffffff : U64).setWidth 32) =
        bhyvePciCfgrw env s false (cfgAddr addr) (cfgCoff addr) bytes eax := by
      rw [bhyvePciCfgrw, bhyvePciCfgrw, if_neg Bool.false_ne_true, if_neg Bool.false_ne_true]
    simp only [Bool.false_eq_true, if_false, hread]
    cases bhyvePciCfgrw env s false (cfgAddr addr) (cfgCoff addr) bytes eax with
    | error e => rfl
    | ok r => exact congrArg (fun v => Except.ok (r.1, v)) (hlower _ r.2)

/-- **The data port** is the window. -/
theorem pciEmulCfgdata_eq (env : DmEnv) (s : DmPci T) (x : U32) (isWrite : Bool) (eax : U32)
    (hbytes : bytes = 1 ∨ bytes = 2 ∨ bytes = 4) (hhi : port < conf1DataPort + 4) :
    pciEmulCfgdata env s (.ofLatch x) isWrite port bytes eax =
      latchData env s x isWrite port bytes eax := by
  have hassert : (bytes == 1 || bytes == 2 || bytes == 4) = true := by
    obtain rfl | rfl | rfl := hbytes <;> rfl
  rw [latchData, pciEmulEcfgHandler_lower, cfgAddr_conf1Ecfg x hhi, cfgCoff_conf1Ecfg x hhi,
    pciEmulCfgdata, kassert, if_pos hassert]
  rfl

end Latch

/-! ## Runs -/

/-- An access to one of the ports, with what `*eax` holds afterwards, or anything else. -/
inductive Conf1Label : Type where
  | addr (isWrite : Bool) (bytes : Nat) (eax ret : U32)
  | data (isWrite : Bool) (port bytes : Nat) (eax ret : U32)
  | other (l : DmPciLabel)

/-- The ports. -/
inductive Conf1Step : CfgSelect × DmPci T → Conf1Label → CfgSelect × DmPci T → Prop where
  | addr (c : CfgSelect) (s : DmPci T) (isWrite : Bool) (bytes : Nat) (eax : U32) :
      Conf1Step (c, s) (.addr isWrite bytes eax (pciEmulCfgaddr c isWrite bytes eax).2)
        ((pciEmulCfgaddr c isWrite bytes eax).1, s)
  | data (env : DmEnv) {c : CfgSelect} {s : DmPci T} {isWrite : Bool} {port bytes : Nat} {eax : U32}
      {r : DmPci T × U32} : conf1DataPort ≤ port → port < conf1DataPort + 4 →
      pciEmulCfgdata env s c isWrite port bytes eax = .ok r →
      Conf1Step (c, s) (.data isWrite port bytes eax r.2) (c, r.1)
  | other {c : CfgSelect} {s t : DmPci T} {l : DmPciLabel} : DmPciStep s l t →
      Conf1Step (c, s) (.other l) (c, t)

/-- A latch in front of the window. -/
inductive LatchStep : U32 × DmPci T → Conf1Label → U32 × DmPci T → Prop where
  | addr (x : U32) (s : DmPci T) (isWrite : Bool) (bytes : Nat) (eax : U32) :
      LatchStep (x, s) (.addr isWrite bytes eax (latchAddr x isWrite bytes eax).2)
        ((latchAddr x isWrite bytes eax).1, s)
  | data (env : DmEnv) {x : U32} {s : DmPci T} {isWrite : Bool} {port bytes : Nat} {eax : U32}
      {r : DmPci T × U32} : latchData env s x isWrite port bytes eax = .ok r →
      LatchStep (x, s) (.data isWrite port bytes eax r.2) (x, r.1)
  | other {x : U32} {s t : DmPci T} {l : DmPciLabel} : DmPciStep s l t →
      LatchStep (x, s) (.other l) (x, t)

/-- What is written to the address port. -/
def addrWrite : Conf1Label → Option U32
  | .addr true 4 eax _ => some eax
  | _ => none

/-- **One step** of the ports is one of the latch. -/
theorem Conf1Step.latch {x : U32} {s : DmPci T} {l : Conf1Label} {c : CfgSelect × DmPci T}
    (h : Conf1Step (.ofLatch x, s) l c) (hx : x &&& conf1Mask = x) :
    ∃ y, LatchStep (x, s) l (y, c.2) ∧ c.1 = .ofLatch y ∧ y &&& conf1Mask = y := by
  generalize hstart : (CfgSelect.ofLatch x, s) = start at h
  cases h with
  | addr c s' isWrite bytes eax =>
    obtain ⟨rfl, rfl⟩ := Prod.mk.inj hstart
    refine ⟨(latchAddr x isWrite bytes eax).1, ?_, ?_, latchAddr_mask hx isWrite bytes eax⟩
    · rw [pciEmulCfgaddr_eq hx]
      exact .addr x s isWrite bytes eax
    · rw [pciEmulCfgaddr_eq hx]
  | @data env c s' isWrite port bytes eax r hlo hhi hr =>
    obtain ⟨rfl, rfl⟩ := Prod.mk.inj hstart
    have hbytes : bytes = 1 ∨ bytes = 2 ∨ bytes = 4 := by
      by_contra hnot
      have hassert : (bytes == 1 || bytes == 2 || bytes == 4) = false := by
        simpa only [Bool.or_eq_false_iff, beq_eq_false_iff_ne, ne_eq, not_or, and_assoc] using hnot
      rw [pciEmulCfgdata, kassert, if_neg (by rw [hassert]; decide)] at hr
      cases hr
    rw [pciEmulCfgdata_eq env s x isWrite eax hbytes hhi] at hr
    exact ⟨x, .data env hr, rfl, hx⟩
  | other hother =>
    obtain ⟨rfl, rfl⟩ := Prod.mk.inj hstart
    exact ⟨x, .other hother, rfl, hx⟩

/-- What the latch holds after a step. -/
theorem LatchStep.put {a b : U32 × DmPci T} {l : Conf1Label} (h : LatchStep a l b)
    (ha : a.1 &&& conf1Mask = a.1) : b.1 &&& conf1Mask = b.1 ∧
      b.1 = maskedPut conf1Mask a.1 (addrWrite l) := by
  have hclear : a.1 &&& ~~~conf1Mask = 0 := by
    rw [← ha, BitVec.and_assoc]
    exact BitVec.and_zero
  cases h with
  | addr x s isWrite bytes eax =>
    refine ⟨latchAddr_mask ha isWrite bytes eax, ?_⟩
    by_cases hbytes : bytes = 4
    · subst hbytes
      cases isWrite with
      | true =>
        rw [addrWrite, maskedPut, hclear]
        exact BitVec.zero_or.symm
      | false => rfl
    · rw [latchAddr, if_pos hbytes, addrWrite]
      · rfl
      · intro eax' ret heq
        injection heq with _ hfour
        exact hbytes hfour
  | data _ _ => exact ⟨ha, rfl⟩
  | other _ => exact ⟨ha, rfl⟩

/-- **The ports refine the window.** From the start, in every run of accesses to the two ports, in
any widths and with anything in between, the ports return what a latch in front of the
memory-mapped window returns and do to the devices what the window does, at the register that the
last full write to the address port has selected. -/
theorem conf1_refines_window {s t : DmPci T} {c : CfgSelect} {ls : List Conf1Label}
    (hrun : Run Conf1Step (⟨false, 0, 0, 0, 0⟩, s) ls (c, t)) :
    ∃ x, Run LatchStep (0, s) ls (x, t) ∧ c = .ofLatch x ∧
      x = maskedPut conf1Mask 0 (lastWrite addrWrite ls) := by
  have hstep : ∀ (c : CfgSelect × DmPci T) l d (x : U32 × DmPci T),
      (c = (.ofLatch x.1, x.2) ∧ x.1 &&& conf1Mask = x.1) → Conf1Step c l d →
      ∃ y, Run LatchStep x [l] y ∧ d = (.ofLatch y.1, y.2) ∧ y.1 &&& conf1Mask = y.1 := by
    rintro c l d ⟨x, u⟩ ⟨rfl, hx⟩ h
    obtain ⟨y, hlatch, hc, hy⟩ := h.latch hx
    exact ⟨(y, d.2), .single hlatch, Prod.ext hc rfl, hy⟩
  have hstart : (⟨false, 0, 0, 0, 0⟩ : CfgSelect) = .ofLatch 0 := by decide
  obtain ⟨⟨x, u⟩, hlatch, hc, -⟩ := hrun.simulates hstep (a := (0, s))
    ⟨Prod.ext hstart rfl, BitVec.zero_and⟩
  rw [List.flatMap_singleton'] at hlatch
  obtain ⟨rfl, rfl⟩ := Prod.mk.inj hc
  have hput : ∀ (a : U32 × DmPci T) l b, a.1 &&& conf1Mask = a.1 → LatchStep a l b →
      b.1 &&& conf1Mask = b.1 ∧ b.1 = maskedPut conf1Mask a.1 (addrWrite l) :=
    fun _ _ _ ha h => h.put ha
  exact ⟨x, hlatch, rfl, (hlatch.masked hput BitVec.zero_and).2⟩

/-- The guest reads the device identifier of the controller through the ports. -/
theorem conf1_refines_window_ahci :
    ∃ x, Run LatchStep (0, dmPciStart) [.addr true 4 0xff000800 0xff000800,
        .data false 0xcfe 2 0 0x2821] (x, dmPciStart) ∧ x = 0x80000800 := by
  have hselect : (pciEmulCfgaddr ⟨false, 0, 0, 0, 0⟩ true 4 0xff000800).1 = ⟨true, 0, 1, 0, 0⟩ := by
    decide
  have hread : pciEmulCfgdata dmPciEnv dmPciStart ⟨true, 0, 1, 0, 0⟩ false 0xcfe 2 0 =
      .ok (dmPciStart, 0x2821) := by
    have hreg : pciCfgread dmPciStart.bus ⟨0, 1, 0⟩ 2 2 = .ok 0x2821 := by decide +kernel
    have hcfg : bhyvePciCfgrw dmPciEnv dmPciStart false ⟨0, 1, 0⟩ 2 2 0 = .ok (dmPciStart, 0x2821) := by
      rw [bhyvePciCfgrw, if_neg Bool.false_ne_true, hreg]
      rfl
    exact hcfg
  have haddr := Conf1Step.addr ⟨false, 0, 0, 0, 0⟩ dmPciStart true 4 0xff000800
  rw [hselect] at haddr
  have hrun := (Run.single haddr).snoc (.data dmPciEnv (by decide) (by decide) hread)
  obtain ⟨x, hlatch, -, hx⟩ := conf1_refines_window hrun
  exact ⟨x, hlatch, hx.trans (by decide)⟩

end DeviceModel
