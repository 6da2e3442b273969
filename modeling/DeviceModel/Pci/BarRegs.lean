import DeviceModel.Pci.BarPools
import DeviceModel.Pci.MsiMirror

/-!
# BAR registers and decoded addresses

A BAR is kept twice: `pi_bar` says what it decodes, and the registers in config space say
so to the guest. `pci_emul_alloc_pbar` and `pci_cfgrw` each compute both, the latter for
one double word at a time.

* `lo32`, `hi32` — a 64-bit address by its halves, as the registers have it;
* `newAddr`, `hiAddr` — the address after a write of a register;
* `BarInv` — the registers of a BAR hold its address and the type bits that it was
  allocated with; `BarsInv.write` keeps it.

The type bits of a 64-bit BAR of at most 32 MB do not survive a write of its lower half.
-/

namespace DeviceModel

/-! ## Halves of an address -/

def lo32 (x : U64) : U32 := x.setWidth 32
def hi32 (x : U64) : U32 := (x >>> 32).setWidth 32

section Halves

variable (x y : U64) (v : U32)

theorem hi32_append_lo32 : (hi32 x ++ lo32 x : BitVec (32 + 32)) = x :=
  @append_halves 32 32 x

/-- Two addresses with the same halves. -/
theorem eq_of_halves {x y : U64} (hlo : lo32 x = lo32 y) (hhi : hi32 x = hi32 y) : x = y := by
  rw [← hi32_append_lo32 x, ← hi32_append_lo32 y, hlo, hhi]

@[simp] theorem lo32_and : lo32 (x &&& y) = lo32 x &&& lo32 y := BitVec.setWidth_and

@[simp] theorem lo32_or : lo32 (x ||| y) = lo32 x ||| lo32 y := BitVec.setWidth_or

@[simp] theorem hi32_and : hi32 (x &&& y) = hi32 x &&& hi32 y := by
  rw [hi32, BitVec.ushiftRight_and_distrib, BitVec.setWidth_and]
  rfl

@[simp] theorem hi32_or : hi32 (x ||| y) = hi32 x ||| hi32 y := by
  rw [hi32, BitVec.ushiftRight_or_distrib, BitVec.setWidth_or]
  rfl

@[simp] theorem lo32_setWidth : lo32 (v.setWidth 64) = v := by
  rw [lo32, BitVec.setWidth_setWidth_of_le _ (by decide), BitVec.setWidth_eq]

@[simp] theorem hi32_setWidth : hi32 (v.setWidth 64) = 0 := by
  apply BitVec.eq_of_getLsbD_eq
  intro i hi
  simp [hi32, hi]

@[simp] theorem lo32_shiftLeft : lo32 (v.setWidth 64 <<< 32) = 0 := by
  apply BitVec.eq_of_getLsbD_eq
  intro i hi
  simp [lo32, hi]

@[simp] theorem hi32_shiftLeft : hi32 (v.setWidth 64 <<< 32) = v := by
  apply BitVec.eq_of_getLsbD_eq
  intro i hi
  have hlt : 32 + i < 64 := by omega
  simp [hi32, hi, hlt]

@[simp] theorem lo32_ushiftRight : lo32 (x >>> 32) = hi32 x := rfl

theorem lo32_and_lower : lo32 (x &&& 0xffffffff#64) = lo32 x := by
  have hones : lo32 0xffffffff#64 = BitVec.allOnes 32 := by decide
  rw [lo32_and, hones, BitVec.and_allOnes]

theorem hi32_and_lower : hi32 (x &&& 0xffffffff#64) = 0 := by
  have hzero : hi32 0xffffffff#64 = 0 := by decide
  rw [hi32_and, hzero]
  exact BitVec.and_zero

theorem lo32_and_upper : lo32 (x &&& ~~~0xffffffff#64) = 0 := by
  have hzero : lo32 (~~~0xffffffff#64) = 0 := by decide
  rw [lo32_and, hzero]
  exact BitVec.and_zero

theorem hi32_and_upper : hi32 (x &&& ~~~0xffffffff#64) = hi32 x := by
  have hones : hi32 (~~~0xffffffff#64) = BitVec.allOnes 32 := by decide
  rw [hi32_and, hones, BitVec.and_allOnes]

/-- What fits a register. -/
theorem hi32_of_lt {x : U64} (h : x.toNat < 2 ^ 32) : hi32 x = 0 := by
  apply BitVec.eq_of_toNat_eq
  rw [hi32, BitVec.toNat_setWidth, BitVec.toNat_ushiftRight, Nat.shiftRight_eq_div_pow,
    Nat.div_eq_of_lt h]
  rfl

end Halves

/-! ## Registers -/

namespace PciDev

variable (pi : PciDev) (offset : Nat) (v : U32)

/-- The register that has been written reads back. -/
theorem cfg32_set32 : (pi.set32 offset v).cfg32 offset = v := by
  have hlo : (pi.set32 offset v).cfg16 offset = v.setWidth 16 := by
    rw [set32, (CfgFrame.set16 _ (offset + 2) _).cfg16 (.inl (by omega)), cfg16_set16]
  have hhi : (pi.set32 offset v).cfg16 (offset + 2) = (v >>> 16).setWidth 16 := by
    rw [set32, cfg16_set16]
  rw [cfg32, hlo, hhi]
  exact @append_halves 16 16 v

end PciDev

/-- The registers of BARs do not overlap. -/
theorem cfg32_of_frame {pi pj : PciDev} {i j : Nat}
    (h : CfgFrame (pcirBar j) (pcirBar j + 4) pi pj) (hne : i ≠ j) :
    pj.cfg32 (pcirBar i) = pi.cfg32 (pcirBar i) := by
  have hcfg16 : ∀ k, k + 1 < pcirBar j ∨ pcirBar j + 4 ≤ k → pj.cfg16 k = pi.cfg16 k :=
    fun k hk => h.cfg16 hk
  simp only [pcirBar] at hcfg16 ⊢
  rw [PciDev.cfg32, PciDev.cfg32, hcfg16 _ (by omega), hcfg16 _ (by omega)]

/-- A write of one register leaves the others, whatever happens to `pi_bar`. -/
theorem cfg32_bar_set32 (pi : PciDev) (bar : Nat → Pcibar) {i k : Nat} (v : U32) (hne : i ≠ k) :
    ({ pi with bar := bar }.set32 (pcirBar k) v).cfg32 (pcirBar i) = pi.cfg32 (pcirBar i) :=
  (cfg32_of_frame (CfgFrame.set32 { pi with bar := bar } (pcirBar k) v) hne).trans rfl

theorem cfg32_setBarAddr_set32 (pi : PciDev) {i j k : Nat} (addr : U64) (v : U32) (hne : i ≠ k) :
    ((pi.setBarAddr j addr).set32 (pcirBar k) v).cfg32 (pcirBar i) = pi.cfg32 (pcirBar i) :=
  cfg32_bar_set32 pi _ v hne

/-! ## Writes of a register -/

/-- The address after a write of `val` to the register of a BAR, or to the lower one. -/
def newAddr (b : Pcibar) (val : U32) : U64 :=
  match b.type with
  | .io => val.setWidth 64 &&& ~~~(b.size - 1) &&& 0xffff
  | .mem64 => (b.addr &&& ~~~0xffffffff#64) ||| (val.setWidth 64 &&& ~~~(b.size - 1))
  | _ => val.setWidth 64 &&& ~~~(b.size - 1)

/-- The address after a write of `val` to the upper register. -/
def hiAddr (b : Pcibar) (val : U32) : U64 :=
  (b.addr &&& 0xffffffff#64) ||| ((val.setWidth 64 <<< 32) &&& ~~~(b.size - 1))

theorem lo32_hiAddr (b : Pcibar) (val : U32) : lo32 (hiAddr b val) = lo32 b.addr := by
  rw [hiAddr, lo32_or, lo32_and_lower]
  simp

theorem hi32_hiAddr (b : Pcibar) (val : U32) :
    hi32 (hiAddr b val) = val &&& hi32 (~~~(b.size - 1)) := by
  rw [hiAddr, hi32_or, hi32_and_lower, hi32_and, hi32_shiftLeft]
  exact BitVec.zero_or

/-- The value of a register after a write of `val`. -/
def newReg (b : Pcibar) (val : U32) : U32 :=
  match b.type with
  | .io => lo32 (val.setWidth 64 &&& ~~~(b.size - 1) &&& 0xffff ||| 0x1)
  | .mem64 => lo32 (val.setWidth 64 &&& ~~~(b.size - 1) ||| 0xc)
  | _ => lo32 (val.setWidth 64 &&& ~~~(b.size - 1))

section Write

variable {T : PciMemTree} {reg : MmioHeap T} {pi : PciDev} {r : MmioHeap T × PciDev} {j : Nat}
  {val : U32}

theorem PciDev.setBarAddr_self (pi : PciDev) (j : Nat) : pi.setBarAddr j (pi.bar j).addr = pi := by
  rw [setBarAddr, Function.update_eq_self]

/-- Where a write moves a BAR and where it decodes the new address already come to one. -/
theorem barMove_eq {c : Prop} [Decidable c] {type : PcibarType} {addr new bar : U64}
    (hupd : barAddrUpdate (pi.bar j).addr addr type = some new)
    (hsame : ¬c → new = (pi.bar j).addr) (htype : type ≠ .none)
    (h : barMove reg pi ⟨j, type, if c then some addr else none, bar⟩ = .ok r) :
    r.2 = pi.setBarAddr j new := by
  by_cases hc : c
  · rw [if_pos hc] at h
    obtain ⟨a, ha, hr⟩ := updateBarAddress_rest h
    rw [hr, Option.some.inj (ha.symm.trans hupd)]
  · rw [if_neg hc] at h
    obtain rfl := Except.ok.inj h
    dsimp only
    rw [if_neg htype, hsame hc, PciDev.setBarAddr_self]

/-- A write of the register of a BAR, or of the lower one. -/
theorem barMove_lo (htype : (pi.bar j).type.HasAddrs)
    (h : barMove reg pi (barWrite pi j val) = .ok r) :
    r.2 = pi.setBarAddr j (newAddr (pi.bar j) val) ∧
      (barWrite pi j val).bar.setWidth 32 = newReg (pi.bar j) val := by
  rw [barWrite] at h ⊢
  rw [newAddr, newReg]
  cases ht : (pi.bar j).type with
  | io =>
    simp only [ht] at h ⊢
    exact ⟨barMove_eq rfl (fun hc => not_not.1 hc) (by simp) h, rfl⟩
  | mem32 =>
    simp only [ht] at h ⊢
    exact ⟨barMove_eq rfl (fun hc => not_not.1 hc) (by simp) h, rfl⟩
  | mem64 =>
    simp only [ht] at h ⊢
    refine ⟨barMove_eq rfl (fun hc => ?_) (by simp) h, rfl⟩
    have hlow : val.setWidth 64 &&& ~~~((pi.bar j).size - 1) = (pi.bar j).addr &&& 0xffffffff#64 :=
      not_not.1 hc
    rw [hlow]
    refine eq_of_halves ?_ ?_
    · rw [lo32_or, lo32_and_upper, lo32_and_lower]
      exact BitVec.zero_or
    · rw [hi32_or, hi32_and_upper, hi32_and_lower]
      exact BitVec.or_zero
  | none =>
    rw [ht] at htype
    exact absurd htype (by simp [PcibarType.HasAddrs, PcibarType.isMem])
  | memhi64 =>
    rw [ht] at htype
    exact absurd htype (by simp [PcibarType.HasAddrs, PcibarType.isMem])

/-- A write of the upper register. -/
theorem barMove_hi (htype : (pi.bar (j + 1)).type = .memhi64)
    (h : barMove reg pi (barWrite pi (j + 1) val) = .ok r) :
    r.2 = pi.setBarAddr j (hiAddr (pi.bar j) val) ∧
      (barWrite pi (j + 1) val).bar.setWidth 32 = hi32 (hiAddr (pi.bar j) val) := by
  rw [barWrite] at h ⊢
  simp only [htype, Nat.add_sub_cancel] at h ⊢
  refine ⟨barMove_eq rfl (fun hc => ?_) (by simp) h, ?_⟩
  · have hhi := congrArg lo32 (not_not.1 hc)
    rw [lo32_ushiftRight, lo32_ushiftRight] at hhi
    refine eq_of_halves ?_ ?_
    · rw [lo32_hiAddr]
    · rw [← hhi, hi32_hiAddr, hi32_and, hi32_shiftLeft]
  · rw [hi32_hiAddr]
    exact (hi32_and _ _).trans (by rw [hi32_shiftLeft])

end Write

/-! ## Writes through `pci_cfgrw` -/

section Cfgwrite

variable {T : PciMemTree} {reg : MmioHeap T} {pi : PciDev} {r : MmioHeap T × PciDev} {j : Nat}
  {val : U32}

/-- A write of four bytes to a register moves a BAR, and stores. -/
theorem pciCfgwriteBar_move (h : pciCfgwriteBar reg pi (pcirBar j) 4 val = .ok r) :
    ∃ r', barMove reg pi (barWrite pi j val) = .ok r' ∧
      r.2 = r'.2.set32 (pcirBar j) ((barWrite pi j val).bar.setWidth 32) := by
  have hj : (pcirBar j - pcirBar 0) / 4 = j := by
    simp only [pcirBar]
    omega
  have halign : ¬ ((4 : Nat) ≠ 4 ∨ pcirBar j &&& 3 ≠ 0) := by
    rw [and_three_eq_mod, pcirBar]
    omega
  rw [pciCfgwriteBar, if_neg halign, hj] at h
  dsimp only at h
  split at h
  next => cases h
  obtain ⟨r', hmove, h⟩ := Except.bind_eq_ok.1 h
  obtain ⟨pj, hset, h⟩ := Except.bind_eq_ok.1 h
  obtain rfl := Except.ok.inj h
  obtain ⟨_, -, hset⟩ := Except.bind_eq_ok.1 hset
  obtain rfl := Except.ok.inj hset
  exact ⟨r', hmove, rfl⟩

/-- The register of a BAR, or the lower one. -/
theorem pciCfgwriteBar_lo (htype : (pi.bar j).type.HasAddrs)
    (h : pciCfgwriteBar reg pi (pcirBar j) 4 val = .ok r) :
    r.2 = (pi.setBarAddr j (newAddr (pi.bar j) val)).set32 (pcirBar j) (newReg (pi.bar j) val) := by
  obtain ⟨r', hmove, hr⟩ := pciCfgwriteBar_move h
  obtain ⟨hr', hreg⟩ := barMove_lo htype hmove
  rw [hr, hr', hreg]

/-- The upper register. -/
theorem pciCfgwriteBar_hi (htype : (pi.bar (j + 1)).type = .memhi64)
    (h : pciCfgwriteBar reg pi (pcirBar (j + 1)) 4 val = .ok r) :
    r.2 = (pi.setBarAddr j (hiAddr (pi.bar j) val)).set32 (pcirBar (j + 1))
      (hi32 (hiAddr (pi.bar j) val)) := by
  obtain ⟨r', hmove, hr⟩ := pciCfgwriteBar_move h
  obtain ⟨hr', hreg⟩ := barMove_hi htype hmove
  rw [hr, hr', hreg]

end Cfgwrite

/-! ## What holds of a BAR -/

/-- A 64-bit BAR that is allocated below 4 GB. -/
def Pcibar.Small64 (b : Pcibar) : Prop := b.type = .mem64 ∧ ¬ b.size > 32 * 1024 * 1024

/-- The registers of a BAR hold its address, which is aligned, and its type bits. -/
structure BarInv (pi : PciDev) (i : Nat) : Prop where
  pow : ∃ k < 64, (pi.bar i).size.toNat = 2 ^ k ∧ pbarMin (pi.bar i).type ≤ 2 ^ k
  aligned : (pi.bar i).addr &&& ((pi.bar i).size - 1) = 0
  high : (pi.bar i).type ≠ .mem64 → hi32 (pi.bar i).addr = 0
  lo : pi.cfg32 (pcirBar i) = lo32 ((pi.bar i).addr ||| barLobits (pi.bar i).type (pi.bar i).size)
  hi : (pi.bar i).type = .mem64 → pi.cfg32 (pcirBar (i + 1)) = hi32 (pi.bar i).addr

/-- The BARs of a device. -/
structure BarsInv (pi : PciDev) : Prop where
  pair : ∀ i, (pi.bar (i + 1)).type = .memhi64 ↔ (pi.bar i).type = .mem64
  zero : (pi.bar 0).type ≠ .memhi64
  le : ∀ i, (pi.bar i).type ≠ .none → i ≤ pciBarmax
  each : ∀ i, (pi.bar i).type.HasAddrs → BarInv pi i

theorem PcibarType.HasAddrs.ne {type : PcibarType} (h : type.HasAddrs) :
    type ≠ .none ∧ type ≠ .memhi64 := by
  constructor <;>
  · rintro rfl
    simp [HasAddrs, isMem] at h

section Inv

variable {pi pj : PciDev} {i j : Nat} {val : U32}

/-- What happens elsewhere does not matter. -/
theorem BarInv.of_same (h : BarInv pi i) (hbar : pj.bar i = pi.bar i)
    (hlo : pj.cfg32 (pcirBar i) = pi.cfg32 (pcirBar i))
    (hhi : (pi.bar i).type = .mem64 → pj.cfg32 (pcirBar (i + 1)) = pi.cfg32 (pcirBar (i + 1))) :
    BarInv pj i := by
  refine ⟨?_, ?_, ?_, ?_, ?_⟩
  · rw [hbar]
    exact h.pow
  · rw [hbar]
    exact h.aligned
  · rw [hbar]
    exact h.high
  · rw [hbar, hlo]
    exact h.lo
  · rw [hbar]
    intro hmem64
    rw [hhi hmem64]
    exact h.hi hmem64

theorem newAddr_aligned {b : Pcibar} (h : b.addr &&& (b.size - 1) = 0) (val : U32) :
    newAddr b val &&& (b.size - 1) = 0 := by
  rw [newAddr]
  split
  · exact and_aligned _ (and_mask_aligned _ _)
  · exact or_aligned (and_aligned _ h) (and_mask_aligned _ _)
  · exact and_mask_aligned _ _

theorem hi32_newAddr (b : Pcibar) (val : U32) :
    hi32 (newAddr b val) = if b.type = .mem64 then hi32 b.addr else 0 := by
  have hzero : ∀ x : U64, hi32 (val.setWidth 64 &&& x) = 0 := by
    intro x
    rw [hi32_and, hi32_setWidth]
    exact BitVec.zero_and
  rw [newAddr]
  split
  next hio =>
    rw [hi32_and, hzero, if_neg (by simp [hio])]
    exact BitVec.zero_and
  next hmem64 =>
    rw [hi32_or, hi32_and_upper, hzero, if_pos hmem64]
    exact BitVec.or_zero
  next hio hmem64 => rw [hzero, if_neg hmem64]

/-- The register that a write stores holds the address that it moves the BAR to, but for the
type bits of small 64-bit BARs. -/
theorem newReg_eq {b : Pcibar} (hsmall : ¬ b.Small64) (val : U32) :
    newReg b val = lo32 (newAddr b val ||| barLobits b.type b.size) := by
  unfold newReg newAddr barLobits
  cases ht : b.type with
  | io => rfl
  | mem64 =>
    have hlarge : b.size > 32 * 1024 * 1024 := by
      by_contra hle
      exact hsmall ⟨ht, hle⟩
    simp only [if_pos hlarge, lo32_or, lo32_and_upper]
    simp
  | _ =>
    simp only [lo32_or]
    exact BitVec.or_zero.symm

/-- A write of the register of a BAR, or of the lower one. -/
theorem BarInv.lo_write (h : BarInv pi j) (hsmall : ¬ (pi.bar j).Small64) (val : U32) :
    BarInv ((pi.setBarAddr j (newAddr (pi.bar j) val)).set32 (pcirBar j)
      (newReg (pi.bar j) val)) j := by
  have hbar : ((pi.setBarAddr j (newAddr (pi.bar j) val)).set32 (pcirBar j)
      (newReg (pi.bar j) val)).bar j = { pi.bar j with addr := newAddr (pi.bar j) val } := by
    rw [PciDev.set32_bar, PciDev.setBarAddr_bar_self]
  refine ⟨?_, ?_, ?_, ?_, ?_⟩
  · rw [hbar]
    exact h.pow
  · rw [hbar]
    exact newAddr_aligned h.aligned val
  · rw [hbar]
    intro hne
    rw [hi32_newAddr, if_neg hne]
  · rw [hbar, PciDev.cfg32_set32]
    exact newReg_eq hsmall val
  · rw [hbar]
    intro hmem64
    rw [cfg32_setBarAddr_set32 pi _ _ (by omega), hi32_newAddr, if_pos hmem64]
    exact h.hi hmem64

/-- A write of the upper register. -/
theorem BarInv.hi_write (h : BarInv pi i) (hmem64 : (pi.bar i).type = .mem64) (val : U32) :
    BarInv ((pi.setBarAddr i (hiAddr (pi.bar i) val)).set32 (pcirBar (i + 1))
      (hi32 (hiAddr (pi.bar i) val))) i := by
  have hbar : ((pi.setBarAddr i (hiAddr (pi.bar i) val)).set32 (pcirBar (i + 1))
      (hi32 (hiAddr (pi.bar i) val))).bar i = { pi.bar i with addr := hiAddr (pi.bar i) val } := by
    rw [PciDev.set32_bar, PciDev.setBarAddr_bar_self]
  refine ⟨?_, ?_, ?_, ?_, ?_⟩
  · rw [hbar]
    exact h.pow
  · rw [hbar]
    exact or_aligned (and_aligned _ h.aligned) (and_mask_aligned _ _)
  · rw [hbar]
    intro hne
    exact absurd hmem64 hne
  · rw [hbar, cfg32_setBarAddr_set32 pi _ _ (by omega), lo32_or, lo32_hiAddr, ← lo32_or]
    exact h.lo
  · rw [hbar, PciDev.cfg32_set32]
    intro _
    rfl

end Inv

/-! ## Config writes -/

/-- What a config write does to the BARs of a device: nothing, or it writes the register of
one, or the lower or the upper one. -/
inductive BarEffect (coff bytes : Nat) (val : U32) (pi pj : PciDev) : Prop where
  | same : (∀ i, (pj.bar i).type = (pi.bar i).type) →
      (∀ i, (pi.bar i).type.HasAddrs → pj.bar i = pi.bar i ∧
        pj.cfg32 (pcirBar i) = pi.cfg32 (pcirBar i) ∧
        ((pi.bar i).type = .mem64 → pj.cfg32 (pcirBar (i + 1)) = pi.cfg32 (pcirBar (i + 1)))) →
      BarEffect coff bytes val pi pj
  | lo (j : Nat) : coff = pcirBar j → bytes = 4 → (pi.bar j).type.HasAddrs →
      pj = (pi.setBarAddr j (newAddr (pi.bar j) val)).set32 (pcirBar j) (newReg (pi.bar j) val) →
      BarEffect coff bytes val pi pj
  | hi (i : Nat) : coff = pcirBar (i + 1) → bytes = 4 → (pi.bar i).type = .mem64 →
      pj = (pi.setBarAddr i (hiAddr (pi.bar i) val)).set32 (pcirBar (i + 1))
        (hi32 (hiAddr (pi.bar i) val)) →
      BarEffect coff bytes val pi pj

namespace BarEffect

variable {T : PciMemTree} {reg : MmioHeap T} {pi pj : PciDev} {r : MmioHeap T × PciDev}
  {fuel coff bytes lo hi : Nat} {val : U32}

/-- A write clear of the registers. -/
theorem of_untouched (h : BarsInv pi) (hbar : pj.bar = pi.bar)
    (hbytes : ∀ i, pcirBar 0 ≤ i → i < pcirBar (pciBarmax + 1) → pj.cfgdata i = pi.cfgdata i) :
    BarEffect coff bytes val pi pj := by
  have hreg : ∀ i, i ≤ pciBarmax → pj.cfg32 (pcirBar i) = pi.cfg32 (pcirBar i) := by
    intro i hi
    simp only [pcirBar, pciBarmax] at hbytes hi ⊢
    simp only [PciDev.cfg32, PciDev.cfg16]
    rw [hbytes _ (by omega) (by omega), hbytes _ (by omega) (by omega),
      hbytes _ (by omega) (by omega), hbytes _ (by omega) (by omega)]
  refine .same (fun i => by rw [hbar]) fun i hi => ⟨by rw [hbar], hreg i (h.le i hi.ne.1), ?_⟩
  intro hmem64
  refine hreg _ (h.le _ ?_)
  rw [(h.pair i).2 hmem64]
  simp

theorem of_frame (h : BarsInv pi) (hframe : CfgFrame lo hi pi pj)
    (hclear : pcirBar (pciBarmax + 1) ≤ lo ∨ hi ≤ pcirBar 0) : BarEffect coff bytes val pi pj := by
  refine of_untouched h ?_ fun i hlo hhi => hframe.bytes i (by omega)
  rw [hframe.rest]

/-- A write of a BAR register. -/
theorem of_bar (h : BarsInv pi) (hrange : pcirBar 0 ≤ coff ∧ coff < pcirBar (pciBarmax + 1))
    (hwrite : pciCfgwriteBar reg pi coff bytes val = .ok r) : BarEffect coff bytes val pi r.2 := by
  by_cases haligned : bytes ≠ 4 ∨ coff &&& 3 ≠ 0
  · rw [pciCfgwriteBar, if_pos haligned] at hwrite
    obtain rfl := Except.ok.inj hwrite
    exact of_untouched h rfl fun _ _ _ => rfl
  obtain ⟨hbytes, hmod⟩ := not_or.1 haligned
  rw [not_not] at hbytes
  rw [not_not, and_three_eq_mod] at hmod
  subst hbytes
  obtain ⟨j, rfl⟩ : ∃ j, coff = pcirBar j := by
    refine ⟨(coff - 0x10) / 4, ?_⟩
    simp only [pcirBar] at hrange ⊢
    omega
  by_cases htype : (pi.bar j).type.HasAddrs
  · exact .lo j rfl rfl htype (pciCfgwriteBar_lo htype hwrite)
  cases ht : (pi.bar j).type with
  | memhi64 =>
    obtain ⟨i, rfl⟩ : ∃ i, j = i + 1 := by
      cases j with
      | zero => exact absurd ht h.zero
      | succ i => exact ⟨i, rfl⟩
    exact .hi i rfl rfl ((h.pair i).1 ht) (pciCfgwriteBar_hi ht hwrite)
  | none =>
    -- no BAR is there, and none changes
    obtain ⟨r', hmove, hr⟩ := pciCfgwriteBar_move hwrite
    rw [barWrite] at hmove hr
    simp only [ht] at hmove hr
    obtain rfl := Except.ok.inj hmove
    rw [hr]
    refine .same (fun i => ?_) fun i hi => ⟨?_, ?_, fun hmem64 => ?_⟩
    · rw [PciDev.set32_bar]
      exact pi.setBarAddr_type j 0 i
    · rw [PciDev.set32_bar]
      refine pi.setBarAddr_bar_of_ne 0 ?_
      rintro rfl
      exact hi.ne.1 ht
    · refine cfg32_setBarAddr_set32 pi 0 _ ?_
      rintro rfl
      exact hi.ne.1 ht
    · refine cfg32_setBarAddr_set32 pi 0 _ ?_
      rintro rfl
      rw [(h.pair i).2 hmem64] at ht
      cases ht
  | _ => exact absurd (by simp [ht, PcibarType.HasAddrs, PcibarType.isMem]) htype

/-- **Any config write.** -/
theorem of_cfgwriteDev (h : BarsInv pi) (halign : cfgAligned coff bytes = true)
    (hwrite : pciCfgwriteDev fuel reg pi coff bytes val = .ok r) :
    BarEffect coff bytes val pi r.2 := by
  obtain ⟨hbytes, hmod⟩ := cfgAligned_iff.1 halign
  rw [pciCfgwriteDev] at hwrite
  split at hwrite
  next hrange => exact of_bar h hrange hwrite
  next hrange =>
  simp only [pcirBar, pciBarmax] at hrange
  split at hwrite
  next hcap =>
    obtain ⟨pk, hcapwrite, hwrite⟩ := Except.bind_eq_ok.1 hwrite
    obtain rfl := Except.ok.inj hwrite
    simp only [pciEmulIscap, Bool.and_eq_true, decide_eq_true_eq] at hcap
    have heff := CapEffect.of_capwrite hcap.2.1 hcapwrite
    refine of_untouched h heff.bar fun i _ hhi => heff.bytes i (hhi.trans_le ?_)
    exact hcap.2.1.trans' (by decide)
  split at hwrite
  next hcmd =>
    obtain ⟨pk, hcmdsts, hwrite⟩ := Except.bind_eq_ok.1 hwrite
    obtain ⟨reg', -, hwrite⟩ := Except.bind_eq_ok.1 hwrite
    obtain rfl := Except.ok.inj hwrite
    obtain ⟨old, -, hcmdsts⟩ := Except.bind_eq_ok.1 hcmdsts
    have hframe := cfgwrite_frame hcmdsts
    have hbar : pk.bar = pi.bar := by rw [hframe.rest]
    refine of_untouched h hbar fun i hlo _ => hframe.bytes i (.inr ?_)
    rw [cfgWidth_of_mem hbytes]
    simp only [pcirCommand, pcirRevid, pcirBar] at hcmd hlo
    omega
  next =>
    obtain ⟨pk, hplain, hwrite⟩ := Except.bind_eq_ok.1 hwrite
    obtain rfl := Except.ok.inj hwrite
    have hframe := cfgwrite_frame hplain
    rw [cfgWidth_of_mem hbytes] at hframe
    refine of_frame h hframe ?_
    simp only [pcirBar, pciBarmax]
    obtain rfl | rfl | rfl := hbytes <;> omega

/-- The type and the size of a BAR stay. -/
theorem type_eq (h : BarEffect coff bytes val pi pj) (i : Nat) :
    (pj.bar i).type = (pi.bar i).type := by
  cases h with
  | same htype _ => exact htype i
  | lo j _ _ _ hpj =>
    rw [hpj, PciDev.set32_bar]
    exact pi.setBarAddr_type j _ i
  | hi j _ _ _ hpj =>
    rw [hpj, PciDev.set32_bar]
    exact pi.setBarAddr_type j _ i

theorem size_eq (h : BarEffect coff bytes val pi pj) {i : Nat} (hi : (pi.bar i).type.HasAddrs) :
    (pj.bar i).size = (pi.bar i).size := by
  have hset : ∀ (j : Nat) (addr : U64), ((pi.setBarAddr j addr).bar i).size = (pi.bar i).size := by
    intro j addr
    by_cases hij : i = j
    · subst hij
      rw [PciDev.setBarAddr_bar_self]
    · rw [pi.setBarAddr_bar_of_ne addr hij]
  cases h with
  | same _ hsame => rw [(hsame i hi).1]
  | lo j _ _ _ hpj =>
    rw [hpj, PciDev.set32_bar]
    exact hset j _
  | hi j _ _ _ hpj =>
    rw [hpj, PciDev.set32_bar]
    exact hset j _

/-- **The invariant is kept**, unless the lower register of a small 64-bit BAR is written. -/
theorem inv (heff : BarEffect coff bytes val pi pj) (h : BarsInv pi)
    (hsmall : ∀ j, coff = pcirBar j → bytes = 4 → ¬ (pi.bar j).Small64) : BarsInv pj := by
  refine ⟨?_, ?_, ?_, ?_⟩
  · intro i
    rw [heff.type_eq, heff.type_eq]
    exact h.pair i
  · rw [heff.type_eq]
    exact h.zero
  · intro i
    rw [heff.type_eq]
    exact h.le i
  · intro i hi
    rw [heff.type_eq] at hi
    have hinv := h.each i hi
    cases heff with
    | same _ hsame =>
      obtain ⟨hbar, hlo, hhi⟩ := hsame i hi
      exact hinv.of_same hbar hlo hhi
    | lo j hcoff hbytes hj hpj =>
      rw [hpj]
      by_cases hij : i = j
      · subst hij
        exact hinv.lo_write (hsmall i hcoff hbytes) val
      · refine hinv.of_same ?_ (cfg32_setBarAddr_set32 pi _ _ hij) fun hmem64 => ?_
        · rw [PciDev.set32_bar]
          exact pi.setBarAddr_bar_of_ne _ hij
        refine cfg32_setBarAddr_set32 pi _ _ ?_
        rintro rfl
        exact hj.ne.2 ((h.pair i).2 hmem64)
    | hi j _ _ hj hpj =>
      rw [hpj]
      by_cases hij : i = j
      · subst hij
        exact hinv.hi_write hj val
      · refine hinv.of_same ?_ (cfg32_setBarAddr_set32 pi _ _ ?_) fun _ => ?_
        · rw [PciDev.set32_bar]
          exact pi.setBarAddr_bar_of_ne _ hij
        · rintro rfl
          exact hi.ne.2 ((h.pair j).2 hj)
        · exact cfg32_setBarAddr_set32 pi _ _ (by omega)

end BarEffect

end DeviceModel
