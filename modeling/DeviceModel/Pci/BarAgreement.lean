import DeviceModel.Pci.BarRegs

/-!
# BARs from their allocation on

`pci_emul_alloc_pbar` sets a BAR up, and `pci_cfgrw` moves it. This file follows the BARs of
a device through both.

* `BarsInv.alloc` — a call of `pci_emul_alloc_pbar` keeps the invariant;
* `BarsInv.step` — so does a config write, to any device, but for a write of the lower
  register of a small 64-bit BAR;
* `BarAgrees`, `BarReadsBack` — what a guest sees of it.
-/

namespace DeviceModel

/-! ## Allocation -/

/-- The type bits of a register. -/
def barTypeBits (type : PcibarType) : U64 := if type = .io then 0x3 else 0xf

theorem hi32_barLobits (type : PcibarType) (size : U64) : hi32 (barLobits type size) = 0 := by
  unfold barLobits
  split
  · rfl
  · split <;> rfl
  · rfl

/-- The part of a word outside a mask, where the part inside is zero. -/
theorem and_not_eq_self {x m : U64} (h : x &&& m = 0) : x &&& ~~~m = x := by
  apply BitVec.eq_of_getLsbD_eq
  intro i hi
  have hbit := congrArg (·.getLsbD i) h
  simp only [BitVec.getLsbD_and] at hbit
  rw [BitVec.getLsbD_and, BitVec.getLsbD_not]
  cases hx : x.getLsbD i
  · simp
  · rw [hx] at hbit
    simp [hi] at hbit ⊢
    exact hbit

/-- The address of a BAR leaves room for the bits below its size. -/
theorem and_low_eq_zero {x size m : U64} {j k : Nat} (h : x &&& (size - 1) = 0)
    (hsize : size.toNat = 2 ^ k) (hm : m.toNat = 2 ^ j - 1) (hle : j ≤ k) : x &&& m = 0 := by
  have hsub : (size - 1) &&& m = m := by
    apply BitVec.eq_of_getLsbD_eq
    intro i hi
    rw [BitVec.getLsbD_and, getLsbD_sub_one hsize, BitVec.getLsbD, hm, Nat.testBit_two_pow_sub_one]
    by_cases hij : i < j
    · simp [hij, hij.trans_le hle]
    · simp [hij]
  rw [← hsub, ← BitVec.and_assoc, h]
  exact BitVec.zero_and

/-- The address of a BAR has no type bits. -/
theorem and_barTypeBits {type : PcibarType} {addr size : U64} {k : Nat} (hsize : size.toNat = 2 ^ k)
    (hmin : pbarMin type ≤ 2 ^ k) (haligned : addr &&& (size - 1) = 0) :
    addr &&& barTypeBits type = 0 := by
  rw [pbarMin] at hmin
  rw [barTypeBits]
  split at hmin
  next hio =>
    rw [if_pos hio]
    have hk : 2 ≤ k := (Nat.pow_le_pow_iff_right (a := 2) (by simp)).1 hmin
    exact and_low_eq_zero haligned hsize rfl hk
  next hio =>
    rw [if_neg hio]
    have hk : 4 ≤ k := (Nat.pow_le_pow_iff_right (a := 2) (by simp)).1 hmin
    exact and_low_eq_zero haligned hsize rfl hk

/-- The register of a BAR has all of its address. -/
theorem and_barMask {type : PcibarType} {addr size : U64} {k : Nat} (hsize : size.toNat = 2 ^ k)
    (hmin : pbarMin type ≤ 2 ^ k) (haligned : addr &&& (size - 1) = 0)
    (hhigh : type ≠ .mem64 → hi32 addr = 0) : addr &&& barMask type = addr := by
  have hself := and_not_eq_self (and_barTypeBits hsize hmin haligned)
  rw [barTypeBits] at hself
  rw [barMask]
  split
  next hio =>
    rw [if_pos hio] at hself
    refine eq_of_halves ?_ ?_
    · have hlo := congrArg lo32 hself
      rw [lo32_and] at hlo ⊢
      exact hlo
    · rw [hi32_and, hhigh (by simp [hio])]
      exact BitVec.zero_and
  next hio =>
    rw [if_neg hio] at hself
    exact hself

/-- Only 64-bit BARs are above 4 GB. -/
theorem barPool_ne_mem64 {type : PcibarType} (h : type ≠ .mem64) (size : U64) :
    barPool type size ≠ .mem64 := by
  cases type with
  | mem64 => exact absurd rfl h
  | _ => simp [barPool]

theorem BarPool.limit_le {p : BarPool} (h : p ≠ .mem64) : p.limit.toNat ≤ 2 ^ 32 := by
  cases p with
  | mem64 => exact absurd rfl h
  | _ => simp [limit, pciEmulIolimit, pciEmulMemlimit32]

/-- No pool has been taken from past its end. -/
def PciPools.Bounded (pools : PciPools) : Prop := ∀ p, (pools.next p).toNat ≤ p.limit.toNat

/-- An address from `pci_emul_alloc_resource` is a multiple of the size. -/
theorem pciEmulAllocResource_aligned {base limit size : U64} {r : U64 × U64}
    (h : pciEmulAllocResource base limit size = .ok (some r)) : r.1 &&& (size - 1) = 0 := by
  obtain ⟨_, -, h⟩ := Except.bind_eq_ok.1 h
  have h := Except.ok.inj h
  split at h
  next =>
    obtain rfl := Option.some.inj h
    exact and_mask_aligned _ _
  next => cases h

/-- What the `switch` finds, whatever base the caller gives. -/
theorem pciEmulAllocAddr_aligned {pools pools' : PciPools} {hostbase size addr mask lobits : U64}
    {type : PcibarType} {k : Nat} (hpools : pools.Bounded) (htype : type.HasAddrs)
    (hsize : size.toNat = 2 ^ k) (hk : k ≤ 40)
    (h : pciEmulAllocAddr pools hostbase type size = .ok (some (addr, pools', mask, lobits))) :
    pools'.Bounded ∧ mask = barMask type ∧ lobits = barLobits type size ∧
      addr &&& (size - 1) = 0 ∧ (type ≠ .mem64 → hi32 addr = 0) := by
  by_cases hexact : type = .mem64 ∧ size = 0x100000000
  · obtain ⟨rfl, rfl⟩ := hexact
    obtain ⟨r, hr, h⟩ := Except.bind_eq_ok.1 h
    cases r with
    | none => cases h
    | some r =>
      simp only [Option.map_some, Except.ok.injEq, Option.some.injEq, Prod.mk.injEq] at h
      obtain ⟨rfl, rfl, rfl, rfl⟩ := h
      exact ⟨hpools, rfl, rfl, pciEmulAllocResource_aligned hr, fun hne => absurd rfl hne⟩
  · obtain ⟨r, hr, heq⟩ := pciEmulAllocAddr_eq htype (fun hmem64 h => hexact ⟨hmem64, h⟩) h
    cases r with
    | none => cases heq
    | some r =>
      simp only [Option.map_some, Option.some.injEq, Prod.mk.injEq] at heq
      obtain ⟨rfl, rfl, rfl, rfl⟩ := heq
      -- the sums do not wrap, so what has been taken ends inside the pool
      have hsize40 : size.toNat ≤ 2 ^ 40 := by
        rw [hsize]
        exact Nat.pow_le_pow_right (by simp) hk
      have hpos := Nat.two_pow_pos k
      have hlimit : ∀ p : BarPool, p.limit.toNat ≤ 2 ^ 40 := by
        intro p
        cases p <;> decide
      have hwrap : (pools.next (barPool type size)).toNat + 2 * size.toNat ≤ 2 ^ 64 := by
        have hnext := (hpools (barPool type size)).trans (hlimit _)
        omega
      have hfits := (pciEmulAllocResource_eq hsize hwrap hr).symm
      rw [Option.map_some, bumpAlloc] at hfits
      split at hfits
      next hle =>
        obtain ⟨hextent, hnext⟩ := Prod.mk.inj (Option.some.inj hfits)
        have haddr : r.1.toNat = alignUp (pools.next (barPool type size)).toNat size.toNat :=
          (congrArg Extent.off hextent).symm
        refine ⟨?_, rfl, rfl, pciEmulAllocResource_aligned hr, ?_⟩
        · intro p
          rw [PciPools.next_setNext]
          split
          next hp =>
            rw [hp, ← hnext]
            exact hle
          next => exact hpools p
        · intro hne
          refine hi32_of_lt ?_
          have hlow := BarPool.limit_le (barPool_ne_mem64 hne size)
          omega
      next => cases hfits

namespace PciDev

variable (pi : PciDev) (idx : Nat) (b : Pcibar) (bar : U64)

/-- A new BAR leaves the registers of the others. -/
theorem withBar_cfg32_of_ne {i : Nat} (hi : i ≠ idx) (hhi : b.type = .mem64 → i ≠ idx + 1) :
    (pi.withBar idx b bar).cfg32 (pcirBar i) = pi.cfg32 (pcirBar i) := by
  rw [withBar]
  split
  next hmem64 => exact (cfg32_bar_set32 _ _ _ (hhi hmem64)).trans (cfg32_bar_set32 pi _ _ hi)
  next => exact cfg32_bar_set32 pi _ _ hi

theorem withBar_cfg32_self : (pi.withBar idx b bar).cfg32 (pcirBar idx) = lo32 bar := by
  have hne : idx ≠ idx + 1 := by simp
  rw [withBar]
  split
  next => exact (cfg32_bar_set32 _ _ _ hne).trans (cfg32_set32 _ _ _)
  next => exact cfg32_set32 _ _ _

theorem withBar_cfg32_hi (h : b.type = .mem64) :
    (pi.withBar idx b bar).cfg32 (pcirBar (idx + 1)) = hi32 bar := by
  rw [withBar, if_pos h]
  exact cfg32_set32 _ _ _

end PciDev

/-- A call of `pci_emul_alloc_pbar`. -/
structure PbarRequest where
  idx : Nat
  hostbase : U64
  type : PcibarType
  size : U64

/-- A request for an i/o, 32-bit or 64-bit BAR at a fresh index. No pool has more than
`2 ^ 40` bytes. -/
structure PbarRequest.Valid (pi : PciDev) (r : PbarRequest) : Prop where
  type : r.type.HasAddrs
  size : r.size.toNat ≤ 2 ^ 40
  fresh : (pi.bar r.idx).type = .none
  freshHi : r.type = .mem64 → (pi.bar (r.idx + 1)).type = .none

section Alloc

variable {T : PciMemTree} {s t : PciSetup T} {r : PbarRequest}

/-- A request of a device is answered, with room or without. -/
def PbarStep (s : PciSetup T) (r : PbarRequest) (t : PciSetup T) : Prop :=
  r.Valid s.pi ∧ ∃ ok, pciEmulAllocPbar s r.idx r.hostbase r.type r.size = .ok (t, ok)

/-- The device has no BARs yet. Others may have taken theirs. -/
structure PciSetup.NoBars (s : PciSetup T) : Prop where
  pools : s.pools.Bounded
  none : ∀ i, (s.pi.bar i).type = .none

theorem BarsInv.init (h : s.NoBars) : BarsInv s.pi where
  pair := by simp [h.none]
  zero := by simp [h.none]
  le := by simp [h.none]
  each := by
    intro i hi
    exact absurd (h.none i) hi.ne.1

/-- A BAR that has just been allocated. -/
theorem BarInv.withBar {pi : PciDev} {idx k : Nat} {type : PcibarType} {size addr : U64}
    (hsize : size.toNat = 2 ^ k) (hk : k < 64) (hmin : pbarMin type ≤ 2 ^ k)
    (haligned : addr &&& (size - 1) = 0) (hhigh : type ≠ .mem64 → hi32 addr = 0) :
    BarInv (pi.withBar idx ⟨type, size, addr⟩ ((addr &&& barMask type) ||| barLobits type size))
      idx := by
  rw [and_barMask hsize hmin haligned hhigh]
  refine ⟨?_, ?_, ?_, ?_, ?_⟩
  · rw [PciDev.withBar_bar_self]
    exact ⟨k, hk, hsize, hmin⟩
  · rw [PciDev.withBar_bar_self]
    exact haligned
  · rw [PciDev.withBar_bar_self]
    exact hhigh
  · rw [PciDev.withBar_bar_self, PciDev.withBar_cfg32_self]
  · rw [PciDev.withBar_bar_self]
    intro hmem64
    rw [PciDev.withBar_cfg32_hi _ _ _ _ hmem64, hi32_or, hi32_barLobits]
    exact BitVec.or_zero

/-- **The invariant is kept** by allocation. -/
theorem BarsInv.withBar {pi : PciDev} {idx : Nat} {b : Pcibar} {bar : U64} (h : BarsInv pi)
    (hidx : idx ≤ pciBarmax) (hidxHi : b.type = .mem64 → idx + 1 ≤ pciBarmax)
    (htype : b.type.HasAddrs) (hfresh : (pi.bar idx).type = .none)
    (hfreshHi : b.type = .mem64 → (pi.bar (idx + 1)).type = .none)
    (hnew : BarInv (pi.withBar idx b bar) idx) : BarsInv (pi.withBar idx b bar) := by
  -- the types of the new device, at the BAR, above it and elsewhere
  have hself : ((pi.withBar idx b bar).bar idx).type = b.type := by simp
  have habove : ((pi.withBar idx b bar).bar (idx + 1)).type = .memhi64 ↔ b.type = .mem64 := by
    by_cases hmem64 : b.type = .mem64
    · simp [PciDev.withBar_bar_hi _ _ _ _ hmem64, hmem64]
    · rw [PciDev.withBar_bar_of_ne _ _ _ _ (by simp) fun h => absurd h hmem64]
      simp [h.pair, hfresh, hmem64]
  have hother : ∀ i, i ≠ idx → (b.type = .mem64 → i ≠ idx + 1) →
      (pi.withBar idx b bar).bar i = pi.bar i :=
    fun i hi hhi => PciDev.withBar_bar_of_ne _ _ _ _ hi hhi
  refine ⟨fun i => ?_, ?_, fun i hi => ?_, fun i hi => ?_⟩
  · by_cases hi : i = idx
    · subst hi
      rw [hself]
      exact habove
    by_cases hsucc : i + 1 = idx
    · subst hsucc
      rw [hself, hother i hi (fun _ => by omega)]
      have hpair := h.pair i
      rw [hfresh] at hpair
      simp only [← hpair, htype.ne.2, reduceCtorEq]
    by_cases hhi : b.type = .mem64 ∧ i = idx + 1
    · obtain ⟨hmem64, rfl⟩ := hhi
      have hpair := h.pair (idx + 1)
      rw [hfreshHi hmem64] at hpair
      rw [habove.2 hmem64, hother (idx + 1 + 1) (by omega) (by simp), hpair]
      simp
    · rw [hother i hi (fun hmem64 heq => hhi ⟨hmem64, heq⟩),
        hother (i + 1) hsucc (fun _ => by omega)]
      exact h.pair i
  · by_cases hi : 0 = idx
    · rw [hi, hself]
      exact htype.ne.2
    · rw [hother 0 hi (by simp)]
      exact h.zero
  · by_cases hidx' : i = idx
    · exact hidx'.le.trans hidx
    by_cases hhi : b.type = .mem64 ∧ i = idx + 1
    · exact hhi.2.le.trans (hidxHi hhi.1)
    · rw [hother i hidx' (fun hmem64 heq => hhi ⟨hmem64, heq⟩)] at hi
      exact h.le i hi
  · by_cases hidx' : i = idx
    · subst hidx'
      exact hnew
    have hhi : b.type = .mem64 → i ≠ idx + 1 := by
      rintro hmem64 rfl
      exact hi.ne.2 (habove.2 hmem64)
    have hbar := hother i hidx' hhi
    rw [hbar] at hi
    refine (h.each i hi).of_same hbar (PciDev.withBar_cfg32_of_ne _ _ _ _ hidx' hhi) ?_
    intro hmem64
    refine PciDev.withBar_cfg32_of_ne _ _ _ _ ?_ (by simp [hidx'])
    rintro rfl
    have hpair := (h.pair i).2 hmem64
    rw [hfresh] at hpair
    cases hpair

/-- **One call.** -/
theorem BarsInv.alloc (h : BarsInv s.pi) (hpools : s.pools.Bounded) (hstep : PbarStep s r t) :
    BarsInv t.pi ∧ t.pools.Bounded := by
  obtain ⟨hr, ok, hcall⟩ := hstep
  obtain ⟨size, hsize, hidx, ⟨-, rfl, -⟩ | ⟨addr, pools, mask, lobits, halloc, rfl, hpi, hidxHi,
    -⟩⟩ := pciEmulAllocPbar_cases hcall
  · exact ⟨h, hpools⟩
  obtain ⟨size', k, hsize', hk, hpow, -, hmin⟩ := pbarSize_returns r.type hr.size
  obtain rfl := Except.ok.inj (hsize.symm.trans hsize')
  rw [hpow] at hmin
  obtain ⟨hbounded, rfl, rfl, haligned, hhigh⟩ :=
    pciEmulAllocAddr_aligned hpools hr.type hpow hk halloc
  refine ⟨?_, hbounded⟩
  rw [hpi]
  exact h.withBar hidx hidxHi hr.type hr.fresh hr.freshHi
    (.withBar hpow (by omega) hmin haligned hhigh)

theorem BarsInv.of_reaches (h : Reaches PbarStep PciSetup.NoBars t) : BarsInv t.pi := by
  have hinv := h.invariant (I := fun s => BarsInv s.pi ∧ s.pools.Bounded)
    (fun s hs => ⟨.init hs, hs.pools⟩) fun s r t hs hstep => hs.1.alloc hs.2 hstep
  exact hinv.1

end Alloc

/-! ## Config writes -/

/-- The value of a BAR in config space: its register, or the pair of a 64-bit BAR. -/
def PciDev.barValue (pi : PciDev) (i : Nat) : U64 :=
  (if (pi.bar i).type = .mem64 then pi.cfg32 (pcirBar (i + 1)) else 0) ++ pi.cfg32 (pcirBar i)

/-- The BAR `i` of `pj` is the one that `pi` has: its value is what it decodes with the type
bits, which are those that it was allocated with. -/
structure BarAgrees (pi pj : PciDev) (i : Nat) : Prop where
  type : (pj.bar i).type = (pi.bar i).type
  size : (pj.bar i).size = (pi.bar i).size
  value : pj.barValue i = (pj.bar i).addr ||| barLobits (pj.bar i).type (pj.bar i).size
  dvd : (pj.bar i).size.toNat ∣ (pj.bar i).addr.toNat
  typeBits : pj.barValue i &&& barTypeBits (pj.bar i).type =
    pi.barValue i &&& barTypeBits (pi.bar i).type

theorem lo32_append (x y : U32) : lo32 (x ++ y) = y := BitVec.setWidth_append_eq_right

theorem hi32_append (x y : U32) : hi32 (x ++ y) = x := ushiftRight_append x y

namespace BarInv

variable {pi pj : PciDev} {i : Nat}

theorem value (h : BarInv pi i) :
    pi.barValue i = (pi.bar i).addr ||| barLobits (pi.bar i).type (pi.bar i).size := by
  refine eq_of_halves ?_ ?_
  · rw [PciDev.barValue, lo32_append]
    exact h.lo
  · rw [PciDev.barValue, hi32_append, hi32_or, hi32_barLobits]
    split
    next hmem64 => exact (h.hi hmem64).trans BitVec.or_zero.symm
    next hmem64 =>
      rw [h.high hmem64]
      exact BitVec.or_zero.symm

/-- The address has no type bits. -/
theorem typeBits (h : BarInv pi i) :
    pi.barValue i &&& barTypeBits (pi.bar i).type = barLobits (pi.bar i).type (pi.bar i).size := by
  obtain ⟨k, -, hsize, hmin⟩ := h.pow
  have hzero := and_barTypeBits hsize hmin h.aligned
  have hlobits : barLobits (pi.bar i).type (pi.bar i).size &&& barTypeBits (pi.bar i).type =
      barLobits (pi.bar i).type (pi.bar i).size := by
    unfold barLobits barTypeBits
    split
    next hio => simp [hio]
    next hmem64 => split <;> simp [hmem64]
    next => exact BitVec.zero_and
  rw [h.value, BitVec.and_comm, BitVec.and_or_distrib_left, BitVec.and_comm, hzero, BitVec.and_comm,
    hlobits]
  exact BitVec.zero_or

theorem agrees (h : BarInv pi i) (h' : BarInv pj i) (htype : (pj.bar i).type = (pi.bar i).type)
    (hsize : (pj.bar i).size = (pi.bar i).size) : BarAgrees pi pj i where
  type := htype
  size := hsize
  value := h'.value
  dvd := by
    obtain ⟨k, hk, hpow, -⟩ := h'.pow
    exact Pcibar.Aligned.dvd ⟨⟨k, hk, hpow⟩, h'.aligned⟩
  typeBits := by rw [h'.typeBits, h.typeBits, htype, hsize]

end BarInv

/-- Initialisation after the allocation of BARs leaves them and their registers. -/
structure BarsUntouched (pi pj : PciDev) : Prop where
  bar : pj.bar = pi.bar
  bytes : ∀ i, pcirBar 0 ≤ i → i < pcirBar (pciBarmax + 1) → pj.cfgdata i = pi.cfgdata i

/-- The device has the BARs that `pi` has, and what holds of them. -/
structure BarsKept (pi pj : PciDev) : Prop where
  inv : BarsInv pj
  type : ∀ i, (pj.bar i).type = (pi.bar i).type
  size : ∀ i, (pi.bar i).type.HasAddrs → (pj.bar i).size = (pi.bar i).size

namespace BarsKept

variable {pi pj pk : PciDev} {coff bytes : Nat} {val : U32}

theorem refl (h : BarsInv pi) : BarsKept pi pi := ⟨h, fun _ => rfl, fun _ _ => rfl⟩

theorem small64 (h : BarsKept pi pj) {i : Nat} (hsmall : (pj.bar i).Small64) :
    (pi.bar i).Small64 := by
  obtain ⟨htype, hsize⟩ := hsmall
  rw [h.type] at htype
  have haddrs : (pi.bar i).type.HasAddrs := by
    rw [htype]
    exact .inr rfl
  rw [h.size i haddrs] at hsize
  exact ⟨htype, hsize⟩

theorem effect (h : BarsKept pi pj) (heff : BarEffect coff bytes val pj pk)
    (hok : ∀ i, (pi.bar i).Small64 → ¬ (coff = pcirBar i ∧ bytes = 4)) : BarsKept pi pk := by
  refine ⟨?_, fun i => ?_, fun i hi => ?_⟩
  · exact heff.inv h.inv fun j hcoff hbytes hsmall => hok j (h.small64 hsmall) ⟨hcoff, hbytes⟩
  · rw [heff.type_eq, h.type]
  · rw [heff.size_eq (by rwa [h.type]), h.size i hi]

end BarsKept

section Guest

variable {T : PciMemTree} {fuel : Nat} {a : PciAddr} {pi pj : PciDev} {s s' : PciBus T} {i : Nat}

/-- The write is not one of four bytes to the lower register of a small 64-bit BAR of the
device at `a`. -/
def NoSmallLow (a : PciAddr) (pi : PciDev) (_ : PciBus T) (l : PciAddr × CfgWrite) : Prop :=
  l.1 = a → ∀ i, (pi.bar i).Small64 → ¬ (l.2.offset = pcirBar i ∧ l.2.bytes = 4)

/-- A run of such writes. -/
def BarStep (fuel : Nat) (a : PciAddr) (pi : PciDev) :
    PciBus T → PciAddr × CfgWrite → PciBus T → Prop :=
  Guarded (CfgStep fuel) (NoSmallLow a pi)

/-- **Any write**, to any device. -/
theorem BarsKept.step {l : PciAddr × CfgWrite} (h : BarsKept pi pj) (hdevi : s.devi a = some pj)
    (hstep : BarStep fuel a pi s l s') : ∃ pk, s'.devi a = some pk ∧ BarsKept pi pk := by
  obtain ⟨b, offset, bytes, val⟩ := l
  obtain ⟨hstep, hok⟩ := hstep
  obtain rfl | ⟨pj', r, hdevi', halign, -, hwrite, rfl⟩ := pciCfgwrite_cases hstep
  · exact ⟨pj, hdevi, h⟩
  by_cases hb : b = a
  · subst hb
    obtain rfl : pj' = pj := Option.some.inj (hdevi'.symm.trans hdevi)
    refine ⟨r.2, by simp, ?_⟩
    exact h.effect (.of_cfgwriteDev h.inv halign hwrite) (hok rfl)
  · refine ⟨pj, ?_, h⟩
    rw [PciBus.setDevi_of_ne _ _ (Ne.symm hb)]
    exact hdevi

/-- **A run.** -/
theorem BarsKept.run (h : BarsInv pi) (hdevi : s.devi a = some pi)
    (hrun : Reaches (BarStep fuel a pi) (· = s) s') :
    ∃ pj, s'.devi a = some pj ∧ BarsKept pi pj := by
  refine hrun.invariant (I := fun s => ∃ pj, s.devi a = some pj ∧ BarsKept pi pj) ?_ ?_
  · rintro s rfl
    exact ⟨pi, hdevi, .refl h⟩
  · intro s l t hinv hstep
    obtain ⟨pj, hdevi, hkept⟩ := hinv
    exact hkept.step hdevi hstep

/-! ## Sizing -/

/-- A guest that reads all of a BAR finds `v`. -/
structure BarReadsBack (s : PciBus T) (a : PciAddr) (pi : PciDev) (i : Nat) (v : U64) : Prop where
  lo : pciCfgread s a (pcirBar i) 4 = .ok (lo32 v)
  hi : (pi.bar i).type = .mem64 → pciCfgread s a (pcirBar (i + 1)) 4 = .ok (hi32 v)

/-- A write of all ones to a register. -/
def onesWrite (i : Nat) : CfgWrite := ⟨pcirBar i, 4, 0xffffffff⟩

/-- Writes of all ones to all of a BAR, in either order. -/
inductive AllOnes (fuel : Nat) (a : PciAddr) (pi : PciDev) (i : Nat) (s s' : PciBus T) : Prop where
  | reg : (pi.bar i).type ≠ .mem64 → BarStep fuel a pi s (a, onesWrite i) s' →
      AllOnes fuel a pi i s s'
  | loHi (t : PciBus T) : (pi.bar i).type = .mem64 → BarStep fuel a pi s (a, onesWrite i) t →
      BarStep fuel a pi t (a, onesWrite (i + 1)) s' → AllOnes fuel a pi i s s'
  | hiLo (t : PciBus T) : (pi.bar i).type = .mem64 → BarStep fuel a pi s (a, onesWrite (i + 1)) t →
      BarStep fuel a pi t (a, onesWrite i) s' → AllOnes fuel a pi i s s'

/-- The address bits that a guest may set. -/
def barSizeMask (b : Pcibar) : U64 :=
  match b.type with
  | .io => ~~~(b.size - 1) &&& 0xffff
  | .mem64 => ~~~(b.size - 1)
  | _ => ~~~(b.size - 1) &&& 0xffffffff

/-- A register reads as it is in config space. -/
theorem pciCfgread_bar (hdevi : s.devi a = some pj) (hi : i ≤ pciBarmax) :
    pciCfgread s a (pcirBar i) 4 = .ok (pj.cfg32 (pcirBar i)) := by
  have hmod : pcirBar i % 4 = 0 := by
    simp only [pcirBar]
    omega
  have hle : pcirBar i ≤ pciRegmax := by
    simp only [pcirBar, pciBarmax, pciRegmax] at hi ⊢
    omega
  have halign : cfgAligned (pcirBar i) 4 = true := cfgAligned_iff.2 ⟨by simp, hmod⟩
  have hread : cfgread pj (pcirBar i) 4 = .ok (pj.cfg32 (pcirBar i)) :=
    pciGetCfgdata32_returns pj hmod hle
  have hfixup : ∀ rv, pciEmulHdrtypeFixup s a (pcirBar i) 4 rv = rv := by
    intro rv
    have hoff : ¬ (pcirBar i ≤ pcirHdrtype ∧ pcirHdrtype < pcirBar i + 4) := by
      simp only [pcirBar, pcirHdrtype]
      omega
    rw [pciEmulHdrtypeFixup, if_neg hoff]
  rw [pciCfgread, hdevi]
  dsimp only
  rw [if_pos halign, if_neg (by omega), hread, Except.bind_ok, hfixup]
  rfl

theorem BarsKept.readsBack (h : BarsKept pi pj) (hdevi : s.devi a = some pj)
    (hi : (pi.bar i).type.HasAddrs) :
    BarReadsBack s a pi i ((pj.bar i).addr ||| barLobits (pi.bar i).type (pi.bar i).size) := by
  have haddrs : (pj.bar i).type.HasAddrs := by rwa [h.type]
  have hinv := h.inv.each i haddrs
  have hlo := hinv.lo
  rw [h.type, h.size i hi] at hlo
  refine ⟨?_, fun hmem64 => ?_⟩
  · rw [pciCfgread_bar hdevi (h.inv.le i haddrs.ne.1), hlo]
  · have hmem64' : (pj.bar i).type = .mem64 := by rw [h.type, hmem64]
    have hle : i + 1 ≤ pciBarmax := by
      refine h.inv.le (i + 1) ?_
      rw [(h.inv.pair i).2 hmem64']
      simp
    rw [pciCfgread_bar hdevi hle, hinv.hi hmem64', hi32_or, hi32_barLobits]
    exact congrArg Except.ok BitVec.or_zero.symm

/-! ### All ones -/

theorem allOnes_and (x : U32) : 0xffffffff &&& x = x := by
  rw [BitVec.and_comm]
  exact BitVec.and_allOnes

theorem lo32_newAddr_mem64 {b : Pcibar} (hmem64 : b.type = .mem64) (val : U32) :
    lo32 (newAddr b val) = val &&& lo32 (~~~(b.size - 1)) := by
  rw [newAddr]
  simp only [hmem64]
  rw [lo32_or, lo32_and_upper, lo32_and, lo32_setWidth]
  exact BitVec.zero_or

theorem newAddr_ones {b : Pcibar} (hmem64 : b.type ≠ .mem64) :
    newAddr b 0xffffffff = barSizeMask b := by
  have hones : (0xffffffff : U32).setWidth 64 = 0xffffffff#64 := by simp
  rw [newAddr, barSizeMask, hones]
  cases ht : b.type with
  | mem64 => exact absurd ht hmem64
  | io =>
    simp only
    rw [BitVec.and_assoc, BitVec.and_comm, BitVec.and_assoc]
    rfl
  | _ => exact BitVec.and_comm _ _

/-- Both halves of a 64-bit address. -/
theorem hiAddr_newAddr_ones {b : Pcibar} (hmem64 : b.type = .mem64) :
    hiAddr { b with addr := newAddr b 0xffffffff } 0xffffffff = ~~~(b.size - 1) := by
  refine eq_of_halves ?_ ?_
  · rw [lo32_hiAddr, lo32_newAddr_mem64 hmem64, allOnes_and]
  · rw [hi32_hiAddr, allOnes_and]

theorem newAddr_hiAddr_ones {b : Pcibar} (hmem64 : b.type = .mem64) :
    newAddr { b with addr := hiAddr b 0xffffffff } 0xffffffff = ~~~(b.size - 1) := by
  refine eq_of_halves ?_ ?_
  · rw [lo32_newAddr_mem64 (b := { b with addr := hiAddr b 0xffffffff }) hmem64, allOnes_and]
  · rw [hi32_newAddr, if_pos hmem64, hi32_hiAddr, allOnes_and]

/-- What a write of a register does to the device. -/
theorem CfgStep.write_bar {j : Nat} {val : U32} (hj : j ≤ pciBarmax) (hdevi : s.devi a = some pj)
    (hstep : CfgStep fuel s (a, ⟨pcirBar j, 4, val⟩) s') :
    ∃ r, pciCfgwriteBar s.reg pj (pcirBar j) 4 val = .ok r ∧ s'.devi a = some r.2 := by
  have hrange : pcirBar 0 ≤ pcirBar j ∧ pcirBar j < pcirBar (pciBarmax + 1) := by
    simp only [pcirBar, pciBarmax] at hj ⊢
    omega
  have hin : (cfgAligned (pcirBar j) 4 && decide (pcirBar j ≤ pciRegmax)) = true := by
    rw [Bool.and_eq_true, decide_eq_true_eq, cfgAligned_iff]
    refine ⟨⟨by simp, ?_⟩, ?_⟩
    · simp only [pcirBar]
      omega
    · simp only [pcirBar, pciBarmax, pciRegmax] at hj ⊢
      omega
  rw [CfgStep, pciCfgwrite, hdevi] at hstep
  dsimp only at hstep
  rw [if_pos hin] at hstep
  obtain ⟨r, hwrite, hstep⟩ := Except.bind_eq_ok.1 hstep
  obtain rfl := Except.ok.inj hstep
  rw [pciCfgwriteDev, if_pos hrange] at hwrite
  exact ⟨r, hwrite, by simp⟩

theorem BarsKept.write_lo {val : U32} (h : BarsKept pi pj) (hi : (pi.bar i).type.HasAddrs)
    (hdevi : s.devi a = some pj) (hstep : BarStep fuel a pi s (a, ⟨pcirBar i, 4, val⟩) s') :
    ∃ pk, s'.devi a = some pk ∧ BarsKept pi pk ∧
      pk.bar i = { pj.bar i with addr := newAddr (pj.bar i) val } := by
  have haddrs : (pj.bar i).type.HasAddrs := by rwa [h.type]
  obtain ⟨r, hwrite, hr⟩ := hstep.1.write_bar (h.inv.le i haddrs.ne.1) hdevi
  obtain ⟨pk, hpk, hkept⟩ := h.step hdevi hstep
  refine ⟨pk, hpk, hkept, ?_⟩
  obtain rfl := Option.some.inj (hpk.symm.trans hr)
  rw [pciCfgwriteBar_lo haddrs hwrite, PciDev.set32_bar, PciDev.setBarAddr_bar_self]

theorem BarsKept.write_hi {val : U32} (h : BarsKept pi pj) (hi : (pi.bar i).type = .mem64)
    (hdevi : s.devi a = some pj) (hstep : BarStep fuel a pi s (a, ⟨pcirBar (i + 1), 4, val⟩) s') :
    ∃ pk, s'.devi a = some pk ∧ BarsKept pi pk ∧
      pk.bar i = { pj.bar i with addr := hiAddr (pj.bar i) val } := by
  have hmemhi : (pj.bar (i + 1)).type = .memhi64 := (h.inv.pair i).2 (by rw [h.type, hi])
  obtain ⟨r, hwrite, hr⟩ := hstep.1.write_bar (h.inv.le (i + 1) (by simp [hmemhi])) hdevi
  obtain ⟨pk, hpk, hkept⟩ := h.step hdevi hstep
  refine ⟨pk, hpk, hkept, ?_⟩
  obtain rfl := Option.some.inj (hpk.symm.trans hr)
  rw [pciCfgwriteBar_hi hmemhi hwrite, PciDev.set32_bar, PciDev.setBarAddr_bar_self]

/-- All of the address is the mask afterwards. -/
theorem BarsKept.allOnes (h : BarsKept pi pj) (hi : (pi.bar i).type.HasAddrs)
    (hdevi : s.devi a = some pj) (hones : AllOnes fuel a pi i s s') :
    ∃ pk, s'.devi a = some pk ∧ BarsKept pi pk ∧ (pk.bar i).addr = barSizeMask (pi.bar i) := by
  have hmask : barSizeMask (pj.bar i) = barSizeMask (pi.bar i) := by
    rw [barSizeMask, barSizeMask, h.type, h.size i hi]
  have hmask64 : (pi.bar i).type = .mem64 → barSizeMask (pi.bar i) = ~~~((pj.bar i).size - 1) := by
    intro hmem64
    rw [barSizeMask, h.size i hi]
    simp only [hmem64]
  have htype := h.type i
  cases hones with
  | reg hmem64 hstep =>
    obtain ⟨pk, hpk, hkept, hbar⟩ := h.write_lo hi hdevi hstep
    refine ⟨pk, hpk, hkept, ?_⟩
    rw [hbar, ← hmask]
    exact newAddr_ones (by rwa [htype])
  | loHi t hmem64 hlo hhi =>
    obtain ⟨pk, hpk, hkept, hbar⟩ := h.write_lo hi hdevi hlo
    obtain ⟨pl, hpl, hkept', hbar'⟩ := hkept.write_hi hmem64 hpk hhi
    refine ⟨pl, hpl, hkept', ?_⟩
    rw [hbar', hbar, hmask64 hmem64]
    exact hiAddr_newAddr_ones (htype.trans hmem64)
  | hiLo t hmem64 hhi hlo =>
    obtain ⟨pk, hpk, hkept, hbar⟩ := h.write_hi hmem64 hdevi hhi
    obtain ⟨pl, hpl, hkept', hbar'⟩ := hkept.write_lo hi hpk hlo
    refine ⟨pl, hpl, hkept', ?_⟩
    rw [hbar', hbar, hmask64 hmem64]
    exact newAddr_hiAddr_ones (htype.trans hmem64)

/-- Any write of the lower register of a small 64-bit BAR sets the bit for memory that can be
prefetched, which allocation does not. -/
theorem BarsKept.small_write {val : U32} (h : BarsKept pi pj) (hsmall : (pi.bar i).Small64)
    (hdevi : s.devi a = some pj) (hstep : CfgStep fuel s (a, ⟨pcirBar i, 4, val⟩) s') :
    ∃ pk, s'.devi a = some pk ∧ ¬ BarAgrees pi pk i := by
  have hi : (pi.bar i).type.HasAddrs := by
    rw [hsmall.1]
    exact .inr rfl
  have hmem64 : (pj.bar i).type = .mem64 := by rw [h.type, hsmall.1]
  have haddrs : (pj.bar i).type.HasAddrs := by rwa [h.type]
  obtain ⟨r, hwrite, hr⟩ := hstep.write_bar (h.inv.le i haddrs.ne.1) hdevi
  refine ⟨r.2, hr, fun hagrees => ?_⟩
  have hr2 := pciCfgwriteBar_lo haddrs hwrite
  have hreg : r.2.cfg32 (pcirBar i) = newReg (pj.bar i) val := by
    rw [hr2, PciDev.cfg32_set32]
  have hbar : r.2.bar i = { pj.bar i with addr := newAddr (pj.bar i) val } := by
    rw [hr2, PciDev.set32_bar, PciDev.setBarAddr_bar_self]
  -- the sizes of BARs are at least 16
  obtain ⟨k, -, hsize, hmin⟩ := (h.inv.each i haddrs).pow
  rw [hmem64, pbarMin, if_neg (by simp)] at hmin
  have hk : 4 ≤ k := (Nat.pow_le_pow_iff_right (a := 2) (by simp)).1 hmin
  have hmask : (lo32 (~~~((pj.bar i).size - 1))).getLsbD 3 = false := by
    rw [lo32, BitVec.getLsbD_setWidth, BitVec.getLsbD_not, getLsbD_sub_one hsize]
    simp [hk.trans_lt' (show 3 < 4 by simp)]
  have hlobits : barLobits (pj.bar i).type (pj.bar i).size = 0x4 := by
    have hle := hsmall.2
    rw [← h.size i hi] at hle
    rw [hmem64]
    exact if_neg hle
  have hvalue := congrArg lo32 hagrees.value
  rw [PciDev.barValue, lo32_append, hreg, hbar, lo32_or] at hvalue
  dsimp only at hvalue
  rw [lo32_newAddr_mem64 hmem64, hlobits, newReg, hmem64] at hvalue
  have hbit := congrArg (·.getLsbD 3) hvalue
  simp only [lo32_or, lo32_and, BitVec.getLsbD_or, BitVec.getLsbD_and, hmask, Bool.and_false,
    Bool.false_or] at hbit
  exact absurd hbit (by decide)

end Guest

/-- **BAR registers and decoded addresses agree**, after every run of guest writes of which
none is of four bytes to the lower register of a small 64-bit BAR. -/
theorem bar_registers_agree {T : PciMemTree} {t : PciSetup T}
    (halloc : Reaches PbarStep PciSetup.NoBars t) {fuel : Nat} {a : PciAddr} {pi : PciDev}
    (huntouched : BarsUntouched t.pi pi) {s s' : PciBus T} (hdevi : s.devi a = some pi)
    (hrun : Reaches (BarStep fuel a pi) (· = s) s') :
    ∃ pj, s'.devi a = some pj ∧ ∀ i, (pi.bar i).type.HasAddrs → BarAgrees pi pj i ∧
      ∀ s'', AllOnes fuel a pi i s' s'' → BarReadsBack s'' a pi i
        (barSizeMask (pi.bar i) ||| barLobits (pi.bar i).type (pi.bar i).size) := by
  have hinv : BarsInv pi := by
    have heff : BarEffect 0 0 0 t.pi pi :=
      .of_untouched (BarsInv.of_reaches halloc) huntouched.bar huntouched.bytes
    exact heff.inv (.of_reaches halloc) fun _ _ h => absurd h (by simp)
  obtain ⟨pj, hpj, hkept⟩ := BarsKept.run hinv hdevi hrun
  refine ⟨pj, hpj, fun i hi => ⟨?_, fun s'' hones => ?_⟩⟩
  · have haddrs : (pj.bar i).type.HasAddrs := by rwa [hkept.type]
    exact (hinv.each i hi).agrees (hkept.inv.each i haddrs) (hkept.type i) (hkept.size i hi)
  · obtain ⟨pk, hpk, hkept', haddr⟩ := hkept.allOnes hi hpj hones
    rw [← haddr]
    exact hkept'.readsBack hpk hi

/-! ### A device with two BARs -/

/-- A device before its BARs are allocated. -/
def pbarStart : PciSetup OrderedTree.list :=
  ⟨pciPoolsInit, ⟨initMem _, 0⟩, pciEmulDevinst e1000Addr⟩

/-- After a 64-bit BAR of 100 bytes, which is small. -/
def pbarSmall : PciSetup OrderedTree.list × Bool :=
  outcome (pciEmulAllocPbar pbarStart 0 0 .mem64 100) (pbarStart, false)

/-- And an i/o BAR of 8 bytes. -/
def pbarBoth : PciSetup OrderedTree.list × Bool :=
  outcome (pciEmulAllocPbar pbarSmall.1 2 0 .io 8) (pbarStart, false)

def pbarDev : PciDev := pbarBoth.1.pi

def pbarBus : PciBus OrderedTree.list :=
  { reg := pbarBoth.1.reg, devi := Function.update (fun _ => none) e1000Addr (some pbarDev) }

theorem pbarBus_devi : pbarBus.devi e1000Addr = some pbarDev := by
  simp [pbarBus]

theorem pbarBoth_reaches : Reaches PbarStep PciSetup.NoBars pbarBoth.1 := by
  have hstart : pbarStart.NoBars := by
    refine ⟨fun p => ?_, fun _ => rfl⟩
    cases p <;> decide
  have hsmall : PbarStep pbarStart ⟨0, 0, .mem64, 100⟩ pbarSmall.1 := by
    refine ⟨⟨.inr rfl, by simp, rfl, fun _ => rfl⟩, pbarSmall.2, ?_⟩
    have hcall : pciEmulAllocPbar pbarStart 0 0 .mem64 100 = .ok pbarSmall :=
      eq_ok_outcome (by decide +kernel)
    exact hcall
  have hboth : PbarStep pbarSmall.1 ⟨2, 0, .io, 8⟩ pbarBoth.1 := by
    refine ⟨⟨.inl rfl, by simp, by decide +kernel, by simp⟩, pbarBoth.2, ?_⟩
    have hcall : pciEmulAllocPbar pbarSmall.1 2 0 .io 8 = .ok pbarBoth :=
      eq_ok_outcome (by decide +kernel)
    exact hcall
  exact .next (.next (.start hstart) hsmall) hboth

/-- After the guest has moved the i/o BAR. -/
def pbarBusMoved : PciBus OrderedTree.list :=
  outcome (pciCfgwrite 48 pbarBus e1000Addr 0x18 4 0x3001) pbarBus

theorem bar_registers_agree_moved :
    ∃ pj, pbarBusMoved.devi e1000Addr = some pj ∧ ∀ i, (pbarDev.bar i).type.HasAddrs →
      BarAgrees pbarDev pj i ∧ ∀ s'', AllOnes 48 e1000Addr pbarDev i pbarBusMoved s'' →
        BarReadsBack s'' e1000Addr pbarDev i (barSizeMask (pbarDev.bar i) |||
          barLobits (pbarDev.bar i).type (pbarDev.bar i).size) := by
  have hwrite : pciCfgwrite 48 pbarBus e1000Addr 0x18 4 0x3001 = .ok pbarBusMoved :=
    eq_ok_outcome (by decide +kernel)
  have hreach : Reaches (BarStep 48 e1000Addr pbarDev) (· = pbarBus) pbarBusMoved := by
    refine @Reaches.next _ _ _ _ _ _ (e1000Addr, ⟨0x18, 4, 0x3001⟩) (.start rfl) ⟨hwrite, ?_⟩
    intro _ i hsmall hi
    obtain ⟨hi, -⟩ := hi
    obtain rfl : i = 2 := by
      simp only [pcirBar] at hi
      omega
    have htype : (pbarDev.bar 2).type = .io := by decide +kernel
    rw [hsmall.1] at htype
    cases htype
  exact bar_registers_agree pbarBoth_reaches ⟨rfl, fun _ _ _ => rfl⟩ pbarBus_devi hreach

/-- The guest writes the address that the 64-bit BAR already has. -/
theorem small_bar_type_bits_change :
    ¬ ∀ (t : PciSetup OrderedTree.list), Reaches PbarStep PciSetup.NoBars t →
      ∀ (fuel : Nat) (a : PciAddr) (s s' : PciBus OrderedTree.list), s.devi a = some t.pi →
        Reaches (CfgStep fuel) (· = s) s' →
        ∃ pj, s'.devi a = some pj ∧ ∀ i, (t.pi.bar i).type.HasAddrs → BarAgrees t.pi pj i := by
  intro h
  have hwrite : pciCfgwrite 48 pbarBus e1000Addr 0x10 4 0x60010000 =
      .ok (outcome (pciCfgwrite 48 pbarBus e1000Addr 0x10 4 0x60010000) pbarBus) :=
    eq_ok_outcome (by decide +kernel)
  obtain ⟨pj, hpj, hagrees⟩ := h _ pbarBoth_reaches 48 e1000Addr pbarBus _ pbarBus_devi
    (@Reaches.next _ _ _ _ _ _ (e1000Addr, ⟨0x10, 4, 0x60010000⟩) (.start rfl) hwrite)
  have haddrs : (pbarBoth.1.pi.bar 0).type.HasAddrs := .inr (by decide +kernel)
  have hbits := (hagrees 0 haddrs).typeBits
  rw [(hagrees 0 haddrs).type] at hbits
  have hold : pbarBoth.1.pi.barValue 0 &&& barTypeBits (pbarBoth.1.pi.bar 0).type = 0x4 := by
    decide +kernel
  have hnew : (((outcome (pciCfgwrite 48 pbarBus e1000Addr 0x10 4 0x60010000) pbarBus).devi
      e1000Addr).map fun pj => pj.barValue 0 &&& barTypeBits (pbarBoth.1.pi.bar 0).type) =
      some 0xc := by decide +kernel
  rw [hpj, Option.map_some, hbits, hold] at hnew
  exact absurd hnew (by simp)

end DeviceModel
