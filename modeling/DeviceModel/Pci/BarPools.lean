import DeviceModel.Library.BumpPool
import DeviceModel.Library.Runs
import DeviceModel.Pci.Startup

/-!
# Allocation of BARs

`pci_emul_alloc_pbar` takes the addresses of a BAR from one of three pools, each a range
with a next address: `pci_emul_alloc_resource` on 64-bit words is `bumpAlloc` as long as the
sums do not wrap. This file follows a sequence of requests of any devices.

* `pbarSize_returns` — the size a BAR gets;
* `pciEmulAllocPbar_cases` — what one call does;
* `PoolsInv` — what has been allocated lies in the pools, and `PoolsInv.step`.
-/

namespace DeviceModel

/-! ## Words -/

theorem toNat_sub_one {x : U64} (h : x.toNat ≠ 0) : (x - 1).toNat = x.toNat - 1 := by
  have hlt := x.isLt
  have hone : (1 : U64).toNat = 1 := rfl
  rw [BitVec.toNat_sub, hone]
  omega

/-- The test for a power of two. -/
theorem and_sub_one_eq_zero_iff {x : U64} : x &&& (x - 1) = 0 ↔ x = 0 ∨ ∃ k < 64, x.toNat = 2 ^ k := by
  by_cases hzero : x = 0
  · simp [hzero]
  have hne : x.toNat ≠ 0 := by
    intro h
    exact hzero (BitVec.eq_of_toNat_eq h)
  constructor
  · intro hand
    have htoNat := congrArg BitVec.toNat hand
    rw [BitVec.toNat_and, toNat_sub_one hne] at htoNat
    obtain ⟨k, hk⟩ := (Nat.and_sub_one_eq_zero_iff_isPowerOfTwo hne).1 htoNat
    refine .inr ⟨k, ?_, hk⟩
    have hlt := x.isLt
    rw [hk] at hlt
    exact (Nat.pow_lt_pow_iff_right (by decide)).1 hlt
  · rintro (h | ⟨k, -, hk⟩)
    · exact absurd h hzero
    · apply BitVec.eq_of_toNat_eq
      rw [BitVec.toNat_and, toNat_sub_one hne]
      exact (Nat.and_sub_one_eq_zero_iff_isPowerOfTwo hne).2 ⟨k, hk⟩

/-- The bits below the size of a BAR. -/
theorem getLsbD_sub_one {x : U64} {k i : Nat} (hx : x.toNat = 2 ^ k) :
    (x - 1).getLsbD i = decide (i < k) := by
  have hne : x.toNat ≠ 0 := by
    rw [hx]
    exact (Nat.two_pow_pos k).ne'
  rw [BitVec.getLsbD, toNat_sub_one hne, hx, Nat.testBit_two_pow_sub_one]

/-- `roundup2`, where the sum does not wrap. -/
theorem toNat_roundup2 {x y : U64} {k : Nat} (hy : y.toNat = 2 ^ k)
    (hadd : x.toNat + y.toNat ≤ 2 ^ 64) : (roundup2 x y).toNat = alignUp x.toNat y.toNat := by
  have hpos : 0 < 2 ^ k := Nat.two_pow_pos k
  have hsub : (y - 1).toNat = 2 ^ k - 1 := by
    rw [toNat_sub_one (by omega), hy]
  have hsum : (x + (y - 1)).toNat = x.toNat + (2 ^ k - 1) := by
    rw [BitVec.toNat_add, hsub]
    omega
  have hclear : roundup2 x y = ((x + (y - 1)) >>> k) <<< k := by
    rw [roundup2]
    apply BitVec.eq_of_getLsbD_eq
    intro i hi
    rw [BitVec.getLsbD_and, BitVec.getLsbD_not, getLsbD_sub_one hy, BitVec.getLsbD_shiftLeft,
      BitVec.getLsbD_ushiftRight]
    by_cases hik : i < k
    · simp [hik]
    · have hback : k + (i - k) = i := by omega
      simp [hik, hi, hback]
  have hle : (x + (y - 1)).toNat / 2 ^ k * 2 ^ k ≤ (x + (y - 1)).toNat := Nat.div_mul_le_self _ _
  have hlt := (x + (y - 1)).isLt
  rw [hclear, BitVec.toNat_shiftLeft, BitVec.toNat_ushiftRight, Nat.shiftRight_eq_div_pow,
    Nat.shiftLeft_eq, Nat.mod_eq_of_lt (hle.trans_lt hlt), hsum, hy, alignUp]

/-! ## Sizes -/

/-- The smallest BAR of a type. -/
def pbarMin (type : PcibarType) : Nat := if type = .io then 4 else 16

/-- The end of `pbarSize`. -/
def pbarFloor (type : PcibarType) (size : U64) : U64 :=
  if type = .io then (if size < 4 then 4 else size) else (if size < 16 then 16 else size)

theorem pbarFloor_pow (type : PcibarType) {size : U64}
    (hsize : size = 0 ∨ ∃ k ≤ 40, size.toNat = 2 ^ k) :
    (∃ k ≤ 40, (pbarFloor type size).toNat = 2 ^ k) ∧
      size.toNat ≤ (pbarFloor type size).toNat ∧ pbarMin type ≤ (pbarFloor type size).toNat := by
  have hfloor : ∀ (floor : U64) (j : Nat), floor.toNat = 2 ^ j → j ≤ 40 →
      (∃ k ≤ 40, (if size < floor then floor else size).toNat = 2 ^ k) ∧
        size.toNat ≤ (if size < floor then floor else size).toNat ∧
        floor.toNat ≤ (if size < floor then floor else size).toNat := by
    intro floor j hfloor hj
    split
    next hlt => exact ⟨⟨j, hj, hfloor⟩, Nat.le_of_lt hlt, le_rfl⟩
    next hge =>
      have hle : floor.toNat ≤ size.toNat := Nat.le_of_not_lt hge
      have hpos := Nat.two_pow_pos j
      refine ⟨hsize.resolve_left ?_, le_rfl, hle⟩
      rintro rfl
      have hzero : (0 : U64).toNat = 0 := rfl
      omega
  rw [pbarFloor, pbarMin]
  split
  · exact hfloor 4 2 rfl (by decide)
  · exact hfloor 16 4 rfl (by decide)

/-- A size is rounded up to a power of two, and to the smallest of its type. -/
theorem pbarSize_returns (type : PcibarType) {size : U64} (hsize : size.toNat ≤ 2 ^ 40) :
    ∃ size' k, pbarSize type size = .ok size' ∧ k ≤ 40 ∧ size'.toNat = 2 ^ k ∧
      size.toNat ≤ size'.toNat ∧ pbarMin type ≤ size'.toNat := by
  by_cases hpow : size &&& (size - 1) = 0
  · have hr : pbarSize type size = .ok (pbarFloor type size) := by
      rw [pbarSize, if_pos hpow]
      rfl
    have hsize' : size = 0 ∨ ∃ k ≤ 40, size.toNat = 2 ^ k := by
      refine (and_sub_one_eq_zero_iff.1 hpow).imp id ?_
      rintro ⟨k, -, hk⟩
      rw [hk] at hsize
      exact ⟨k, (Nat.pow_le_pow_iff_right (by decide)).1 hsize, hk⟩
    obtain ⟨⟨k, hk, hpow'⟩, hle, hmin⟩ := pbarFloor_pow type hsize'
    exact ⟨_, k, hr, hk, hpow', hle, hmin⟩
  · have hzero : size ≠ 0 := by
      rintro rfl
      exact hpow rfl
    have hne : size.toNat ≠ 0 := fun h => hzero (BitVec.eq_of_toNat_eq h)
    have hlt : size.toNat < 2 ^ 40 := by
      refine Nat.lt_of_le_of_ne hsize fun heq => hpow ?_
      exact and_sub_one_eq_zero_iff.2 (.inr ⟨40, by decide, heq⟩)
    have hflsl : flsl size = size.toNat.log2 + 1 := by rw [flsl, if_neg hzero]
    have hlog : size.toNat.log2 < 40 := (Nat.log2_lt hne).2 hlt
    have hself : size.toNat < 2 ^ flsl size := by
      rw [hflsl]
      exact Nat.lt_log2_self
    have hshift : (1 <<< flsl size : U64).toNat = 2 ^ flsl size := by
      rw [BitVec.natCast_eq_ofNat, BitVec.toNat_ofNat, Nat.one_shiftLeft]
      exact Nat.mod_eq_of_lt (Nat.pow_lt_pow_right (by decide) (by omega))
    have hr : pbarSize type size = .ok (pbarFloor type (1 <<< flsl size)) := by
      rw [pbarSize, if_neg hpow, if_neg (by omega)]
      rfl
    obtain ⟨⟨k, hk, hpow'⟩, hle, hmin⟩ :=
      @pbarFloor_pow type (1 <<< flsl size) (.inr ⟨flsl size, by omega, hshift⟩)
    refine ⟨_, k, hr, hk, hpow', ?_, hmin⟩
    rw [hshift] at hle
    exact hself.le.trans hle

/-! ## One call -/

/-- `pci_emul_alloc_resource` is a request of a pool. -/
theorem pciEmulAllocResource_eq {base limit size : U64} {k : Nat} (hsize : size.toNat = 2 ^ k)
    (hwrap : base.toNat + 2 * size.toNat ≤ 2 ^ 64) {r : Option (U64 × U64)}
    (h : pciEmulAllocResource base limit size = .ok r) :
    (r.map fun r => ((⟨r.1.toNat, size.toNat⟩ : Extent), r.2.toNat)) =
      bumpAlloc base.toNat limit.toNat size.toNat := by
  obtain ⟨_, -, h⟩ := Except.bind_eq_ok.1 h
  have hpos : 0 < size.toNat := by
    rw [hsize]
    exact Nat.two_pow_pos k
  have hround : (roundup2 base size).toNat = alignUp base.toNat size.toNat :=
    toNat_roundup2 hsize (by omega)
  have hend : (roundup2 base size + size).toNat = alignUp base.toNat size.toNat + size.toNat := by
    have hlt := alignUp_lt hpos (a := base.toNat)
    rw [BitVec.toNat_add, hround]
    omega
  obtain rfl := Except.ok.inj h
  rw [bumpAlloc, ← hend, ← hround]
  by_cases hle : roundup2 base size + size ≤ limit
  · rw [if_pos hle]
    exact (if_pos hle).symm
  · rw [if_neg hle]
    exact (if_neg hle).symm

/-- What `pci_emul_alloc_pbar` makes of a device: the BAR, its register or registers, and
the type of the upper half. -/
def PciDev.withBar (pi : PciDev) (idx : Nat) (b : Pcibar) (bar : U64) : PciDev :=
  let pj := { pi with bar := Function.update pi.bar idx b }.set32 (pcirBar idx) (bar.setWidth 32)
  if b.type = .mem64 then
    { pj with bar := Function.update pj.bar (idx + 1) { pj.bar (idx + 1) with type := .memhi64 } }.set32
      (pcirBar (idx + 1)) ((bar >>> 32).setWidth 32)
  else pj

section Call

variable {T : PciMemTree} {s t : PciSetup T} {idx : Nat} {hostbase size : U64} {type : PcibarType}
  {ok : Bool}

/-- **One call** of `pci_emul_alloc_pbar` finds no room and changes nothing, or gives the
device the BAR. -/
theorem pciEmulAllocPbar_cases (h : pciEmulAllocPbar s idx hostbase type size = .ok (t, ok)) :
    ∃ size', pbarSize type size = .ok size' ∧ idx ≤ pciBarmax ∧
      ((pciEmulAllocAddr s.pools hostbase type size' = .ok none ∧ t = s ∧ ok = false) ∨
        ∃ addr pools mask lobits,
          pciEmulAllocAddr s.pools hostbase type size' = .ok (some (addr, pools, mask, lobits)) ∧
          t.pools = pools ∧ t.pi = s.pi.withBar idx ⟨type, size', addr⟩ ((addr &&& mask) ||| lobits) ∧
          (type = .mem64 → idx + 1 ≤ pciBarmax) ∧ ok = true) := by
  obtain ⟨_, hidx, h⟩ := Except.bind_eq_ok.1 h
  have hidx : idx ≤ pciBarmax := of_decide_eq_true (assert_eq_ok.1 hidx)
  obtain ⟨size', hsize, h⟩ := Except.bind_eq_ok.1 h
  obtain ⟨r, hr, h⟩ := Except.bind_eq_ok.1 h
  refine ⟨size', hsize, hidx, ?_⟩
  cases r with
  | none =>
    obtain ⟨rfl, rfl⟩ := Prod.mk.inj (Except.ok.inj h)
    exact .inl ⟨hr, rfl, rfl⟩
  | some r =>
    obtain ⟨addr, pools, mask, lobits⟩ := r
    refine .inr ⟨addr, pools, mask, lobits, hr, ?_⟩
    dsimp only at h
    obtain ⟨pj, hpj, h⟩ := Except.bind_eq_ok.1 h
    obtain ⟨_, -, hpj⟩ := Except.bind_eq_ok.1 hpj
    obtain rfl := Except.ok.inj hpj
    by_cases htype : type = .mem64
    · rw [if_pos htype] at h
      obtain ⟨_, hidx', h⟩ := Except.bind_eq_ok.1 h
      obtain ⟨pk, hpk, h⟩ := Except.bind_eq_ok.1 h
      obtain ⟨_, -, hpk⟩ := Except.bind_eq_ok.1 hpk
      obtain rfl := Except.ok.inj hpk
      obtain ⟨reg, -, h⟩ := Except.bind_eq_ok.1 h
      obtain ⟨rfl, rfl⟩ := Prod.mk.inj (Except.ok.inj h)
      refine ⟨rfl, ?_, fun _ => of_decide_eq_true (assert_eq_ok.1 hidx'), rfl⟩
      rw [PciDev.withBar, if_pos htype]
    · rw [if_neg htype] at h
      obtain ⟨_, hpk, h⟩ := Except.bind_eq_ok.1 h
      obtain rfl := Except.ok.inj hpk
      obtain ⟨reg, -, h⟩ := Except.bind_eq_ok.1 h
      obtain ⟨rfl, rfl⟩ := Prod.mk.inj (Except.ok.inj h)
      refine ⟨rfl, ?_, fun hmem64 => absurd hmem64 htype, rfl⟩
      rw [PciDev.withBar, if_neg htype]

end Call

/-! ## The pools -/

/-- The pools that addresses come from. -/
inductive BarPool : Type where
  | io
  | mem32
  | mem64
  deriving DecidableEq, Repr

/-- The pool of a BAR: small 64-bit BARs are below 4 GB too. -/
def barPool (type : PcibarType) (size : U64) : BarPool :=
  match type with
  | .io => .io
  | .mem64 => if size > 32 * 1024 * 1024 then .mem64 else .mem32
  | _ => .mem32

/-- `*baseptr`. -/
def PciPools.next (pools : PciPools) : BarPool → U64
  | .io => pools.iobase
  | .mem32 => pools.membase32
  | .mem64 => pools.membase64

/-- `*baseptr = base`. -/
def PciPools.setNext (pools : PciPools) (p : BarPool) (base : U64) : PciPools :=
  match p with
  | .io => { pools with iobase := base }
  | .mem32 => { pools with membase32 := base }
  | .mem64 => { pools with membase64 := base }

/-- Where a pool begins and ends. -/
def BarPool.first (p : BarPool) : U64 := pciPoolsInit.next p

def BarPool.limit : BarPool → U64
  | .io => pciEmulIolimit
  | .mem32 => pciEmulMemlimit32
  | .mem64 => pciEmulMemlimit64

/-- The type bits that a BAR register gets when its BAR is allocated. -/
def barLobits (type : PcibarType) (size : U64) : U64 :=
  match type with
  | .io => 0x1
  | .mem64 => if size > 32 * 1024 * 1024 then 0xc else 0x4
  | _ => 0x0

/-- The address bits of a BAR register. -/
def barMask (type : PcibarType) : U64 := if type = .io then 0xfffffffc else 0xfffffffffffffff0

theorem PciPools.next_setNext (pools : PciPools) (p q : BarPool) (base : U64) :
    (pools.setNext p base).next q = if q = p then base else pools.next q := by
  cases p <;> cases q <;> rfl

/-- The types of a BAR that has addresses. -/
def PcibarType.HasAddrs (type : PcibarType) : Prop := type = .io ∨ type.isMem = true

/-- The `switch` takes the address from the pool, but for the exact size of 4 GB. -/
theorem pciEmulAllocAddr_eq {pools : PciPools} {hostbase size : U64} {type : PcibarType}
    (htype : type.HasAddrs) (hexact : type = .mem64 → size ≠ 0x100000000)
    {r : Option (U64 × PciPools × U64 × U64)}
    (h : pciEmulAllocAddr pools hostbase type size = .ok r) :
    ∃ r', pciEmulAllocResource (pools.next (barPool type size)) (barPool type size).limit size =
        .ok r' ∧
      r = r'.map fun r => (r.1, pools.setNext (barPool type size) r.2, barMask type,
        barLobits type size) := by
  cases type with
  | io =>
    obtain ⟨r', hr', h⟩ := Except.bind_eq_ok.1 h
    exact ⟨r', hr', (Except.ok.inj h).symm⟩
  | mem32 =>
    obtain ⟨r', hr', h⟩ := Except.bind_eq_ok.1 h
    exact ⟨r', hr', (Except.ok.inj h).symm⟩
  | mem64 =>
    rw [pciEmulAllocAddr] at h
    rw [barPool, barLobits]
    split at h
    next hlarge =>
      rw [if_neg (hexact rfl)] at h
      obtain ⟨r', hr', h⟩ := Except.bind_eq_ok.1 h
      simp only [if_pos hlarge]
      exact ⟨r', hr', (Except.ok.inj h).symm⟩
    next hsmall =>
      obtain ⟨r', hr', h⟩ := Except.bind_eq_ok.1 h
      simp only [if_neg hsmall]
      exact ⟨r', hr', (Except.ok.inj h).symm⟩
  | none => exact absurd htype (by simp [PcibarType.HasAddrs, PcibarType.isMem])
  | memhi64 => exact absurd htype (by simp [PcibarType.HasAddrs, PcibarType.isMem])

namespace PciDev

variable (pi : PciDev) (idx : Nat) (b : Pcibar) (bar : U64)

theorem withBar_bar : (pi.withBar idx b bar).bar =
    if b.type = .mem64 then
      Function.update (Function.update pi.bar idx b) (idx + 1)
        { pi.bar (idx + 1) with type := .memhi64 }
    else Function.update pi.bar idx b := by
  rw [withBar]
  split
  next => simp
  next => rfl

@[simp] theorem withBar_bar_self : (pi.withBar idx b bar).bar idx = b := by
  rw [withBar_bar]
  split <;> simp

theorem withBar_bar_hi (h : b.type = .mem64) :
    (pi.withBar idx b bar).bar (idx + 1) = { pi.bar (idx + 1) with type := .memhi64 } := by
  rw [withBar_bar, if_pos h, Function.update_self]

theorem withBar_bar_of_ne {i : Nat} (hi : i ≠ idx) (hhi : b.type = .mem64 → i ≠ idx + 1) :
    (pi.withBar idx b bar).bar i = pi.bar i := by
  rw [withBar_bar]
  split
  next hmem64 => rw [Function.update_of_ne (hhi hmem64), Function.update_of_ne hi]
  next => exact Function.update_of_ne hi _ _

end PciDev

/-! ## Sequences of requests -/

/-- The pools, the registry and all devices, while they are set up. -/
structure BarSpace (T : PciMemTree) where
  pools : PciPools
  reg : MmioHeap T
  devi : PciAddr → PciDev

/-- A call of `pci_emul_alloc_bar`. -/
structure BarRequest where
  bdf : PciAddr
  idx : Nat
  type : PcibarType
  size : U64

/-- The addresses of a BAR. -/
def Pcibar.extent (b : Pcibar) : Extent := ⟨b.addr.toNat, b.size.toNat⟩

section Requests

variable {T : PciMemTree}

/-- What initialisation of one device works on. -/
def BarSpace.setup (s : BarSpace T) (a : PciAddr) : PciSetup T := ⟨s.pools, s.reg, s.devi a⟩

/-- The state after initialisation of a device has gone on to `t`. -/
def BarSpace.after (s : BarSpace T) (a : PciAddr) (t : PciSetup T) : BarSpace T :=
  ⟨t.pools, t.reg, Function.update s.devi a t.pi⟩

/-- The bases are those of `init_pci`, and no device has a BAR. -/
structure BarSpace.Initial (s : BarSpace T) : Prop where
  pools : s.pools = pciPoolsInit
  none : ∀ a i, ((s.devi a).bar i).type = .none

/-- A request for an i/o, 32-bit or 64-bit BAR at a fresh index, of a size up to `2 ^ 40`,
but not of the exact 4 GB for which the caller gives the base. -/
structure BarRequest.Valid (s : BarSpace T) (r : BarRequest) : Prop where
  type : r.type.HasAddrs
  size : r.size.toNat ≤ 2 ^ 40
  exact4G : r.type = .mem64 → pbarSize .mem64 r.size ≠ .ok 0x100000000
  fresh : ((s.devi r.bdf).bar r.idx).type = .none
  freshHi : r.type = .mem64 → ((s.devi r.bdf).bar (r.idx + 1)).type = .none

/-- A request is answered, with room or without. -/
def AllocStep (s : BarSpace T) (r : BarRequest) (s' : BarSpace T) : Prop :=
  r.Valid s ∧ ∃ t ok, pciEmulAllocBar (s.setup r.bdf) r.idx r.type r.size = .ok (t, ok) ∧
    s' = s.after r.bdf t

/-- What has been allocated from a pool. -/
def BarSpace.spans (s : BarSpace T) (p : BarPool) : Set Extent :=
  { e | ∃ a i, ((s.devi a).bar i).type.HasAddrs ∧
    barPool ((s.devi a).bar i).type ((s.devi a).bar i).size = p ∧ e = ((s.devi a).bar i).extent }

/-- Each pool has handed out what has been allocated from it. -/
def PoolsInv (s : BarSpace T) : Prop :=
  ∀ p, Handed p.first.toNat (s.pools.next p).toNat p.limit.toNat (s.spans p)

/-- What a request that finds room yields: a BAR that is large enough, aligned, inside its
pool and clear of all others in the same address space. -/
structure BarGranted (s : BarSpace T) (r : BarRequest) (b : Pcibar) : Prop where
  type : b.type = r.type
  pow : ∃ k, b.size.toNat = 2 ^ k
  size_le : r.size.toNat ≤ b.size.toNat
  min_le : pbarMin r.type ≤ b.size.toNat
  dvd : b.size.toNat ∣ b.addr.toNat
  within : (barPool b.type b.size).first.toNat ≤ b.addr.toNat ∧
    b.addr.toNat + b.size.toNat ≤ (barPool b.type b.size).limit.toNat
  clear : ∀ a i, ((s.devi a).bar i).type.HasAddrs →
    (((s.devi a).bar i).type = .io ↔ b.type = .io) → ((s.devi a).bar i).extent.Clear b.extent

variable {s t : BarSpace T} {u : PciSetup T} {r : BarRequest} {ok : Bool}

theorem PoolsInv.init (h : s.Initial) : PoolsInv s := by
  intro p
  have hle : p.first.toNat ≤ p.limit.toNat := by
    cases p <;> decide
  rw [h.pools]
  refine (Handed.init hle).mono ?_
  rintro e ⟨a, i, htype, -⟩
  rw [h.none a i] at htype
  exact absurd htype (by simp [PcibarType.HasAddrs, PcibarType.isMem])

/-- No sum of a pool and a size wraps. -/
theorem PoolsInv.no_wrap (h : PoolsInv s) (p : BarPool) {n : Nat} (hn : n ≤ 2 ^ 40) :
    (s.pools.next p).toNat + 2 * n ≤ 2 ^ 64 := by
  have hlimit : p.limit.toNat ≤ 2 ^ 40 := by
    cases p <;> decide
  have hle := (h p).le_limit
  omega

theorem barPool_eq_io (type : PcibarType) (size : U64) :
    barPool type size = .io ↔ type = .io := by
  cases type <;> simp [barPool]
  split <;> simp

/-- BARs of one address space come from pools that do not overlap. -/
theorem barPool_le {b c : Pcibar} (hspace : b.type = .io ↔ c.type = .io)
    (hne : barPool b.type b.size ≠ barPool c.type c.size) :
    (barPool b.type b.size).limit.toNat ≤ (barPool c.type c.size).first.toNat ∨
      (barPool c.type c.size).limit.toNat ≤ (barPool b.type b.size).first.toNat := by
  rw [← barPool_eq_io b.type b.size, ← barPool_eq_io c.type c.size] at hspace
  generalize barPool b.type b.size = p at hspace hne ⊢
  generalize barPool c.type c.size = q at hspace hne ⊢
  cases p <;> cases q
  case io.io => exact absurd rfl hne
  case mem32.mem32 => exact absurd rfl hne
  case mem64.mem64 => exact absurd rfl hne
  case mem32.mem64 => exact .inl (by decide)
  case mem64.mem32 => exact .inr (by decide)
  all_goals simp at hspace

/-- What is allocated after a request that found room: the new BAR, and what was before. -/
theorem BarSpace.spans_after (hpi : ∃ b bar, u.pi = (s.devi r.bdf).withBar r.idx b bar)
    {p : BarPool} {e : Extent} (he : e ∈ (s.after r.bdf u).spans p) :
    (barPool (u.pi.bar r.idx).type (u.pi.bar r.idx).size = p ∧ e = (u.pi.bar r.idx).extent) ∨
      e ∈ s.spans p := by
  obtain ⟨a, i, htype, hpool, rfl⟩ := he
  by_cases ha : a = r.bdf
  · subst ha
    have hdevi : (s.after r.bdf u).devi r.bdf = u.pi := Function.update_self _ _ _
    rw [hdevi] at htype hpool ⊢
    obtain ⟨b, bar, hpi⟩ := hpi
    rw [hpi] at htype hpool ⊢
    by_cases hi : i = r.idx
    · subst hi
      exact .inl ⟨hpool, rfl⟩
    by_cases hhi : b.type = .mem64 ∧ i = r.idx + 1
    · obtain ⟨hmem64, rfl⟩ := hhi
      rw [PciDev.withBar_bar_hi _ _ _ _ hmem64] at htype
      exact absurd htype (by simp [PcibarType.HasAddrs, PcibarType.isMem])
    · have hbar := PciDev.withBar_bar_of_ne (s.devi r.bdf) r.idx b bar hi
        fun hmem64 heq => hhi ⟨hmem64, heq⟩
      rw [hbar] at htype hpool ⊢
      exact .inr ⟨r.bdf, i, htype, hpool, rfl⟩
  · have hdevi : (s.after r.bdf u).devi a = s.devi a := Function.update_of_ne ha _ _
    rw [hdevi] at htype hpool ⊢
    exact .inr ⟨a, i, htype, hpool, rfl⟩

/-- **One request.** -/
theorem PoolsInv.call (h : PoolsInv s) (hr : r.Valid s)
    (hcall : pciEmulAllocBar (s.setup r.bdf) r.idx r.type r.size = .ok (u, ok)) :
    (ok = false ∧ u = s.setup r.bdf) ∨
      (ok = true ∧ BarGranted s r (u.pi.bar r.idx) ∧ PoolsInv (s.after r.bdf u) ∧
        ∀ i, ((s.devi r.bdf).bar i).type.HasAddrs → u.pi.bar i = (s.devi r.bdf).bar i) := by
  obtain ⟨size', hsize, hidx, ⟨-, hu, hok⟩ | ⟨addr, pools, mask, lobits, halloc, hpools, hpi, -, hok⟩⟩ :=
    pciEmulAllocPbar_cases hcall
  · exact .inl ⟨hok, hu⟩
  refine .inr ⟨hok, ?_⟩
  -- the size
  obtain ⟨size'', k, hsize', hk, hpow, hle, hmin⟩ := pbarSize_returns r.type hr.size
  obtain rfl := Except.ok.inj (hsize.symm.trans hsize')
  have hpos : 0 < size'.toNat := by
    rw [hpow]
    exact Nat.two_pow_pos k
  have hsize40 : size'.toNat ≤ 2 ^ 40 := by
    rw [hpow]
    exact Nat.pow_le_pow_right (by decide) hk
  have hexact : r.type = .mem64 → size' ≠ 0x100000000 := by
    rintro hmem64 rfl
    rw [hmem64] at hsize
    exact hr.exact4G hmem64 hsize
  -- the address
  obtain ⟨res, hres, heq⟩ := pciEmulAllocAddr_eq hr.type hexact halloc
  have hbump := pciEmulAllocResource_eq hpow (h.no_wrap _ hsize40) hres
  cases res with
  | none => cases heq
  | some res =>
    obtain ⟨hhanded, -, hdvd, hfirst, hlimit, hclear⟩ :=
      (h (barPool r.type size')).alloc hpos hbump.symm
    obtain ⟨rfl, hrest⟩ := Prod.mk.inj (Option.some.inj heq)
    obtain ⟨rfl, -⟩ := Prod.mk.inj hrest
    have hbar : u.pi.bar r.idx = ⟨r.type, size', res.1⟩ := by
      rw [hpi, PciDev.withBar_bar_self]
    have hafter : ∀ p e, e ∈ (s.after r.bdf u).spans p →
        (barPool r.type size' = p ∧ e = ⟨res.1.toNat, size'.toNat⟩) ∨ e ∈ s.spans p := by
      intro p e he
      have hcases := BarSpace.spans_after ⟨_, _, hpi⟩ he
      rwa [hbar] at hcases
    refine ⟨?_, ?_, ?_⟩
    · rw [hbar]
      refine ⟨rfl, ⟨k, hpow⟩, hle, hmin, hdvd, ⟨hfirst, hlimit⟩, ?_⟩
      intro a i htype hspace
      have hmem : ((s.devi a).bar i).extent ∈
          s.spans (barPool ((s.devi a).bar i).type ((s.devi a).bar i).size) :=
        ⟨a, i, htype, rfl, rfl⟩
      by_cases hpool : barPool ((s.devi a).bar i).type ((s.devi a).bar i).size = barPool r.type size'
      · rw [hpool] at hmem
        exact hclear _ hmem
      · obtain ⟨hlo, hhi⟩ := (h _).between _ hmem
        have hend := (h (barPool ((s.devi a).bar i).type ((s.devi a).bar i).size)).le_limit
        have happart := barPool_le (c := ⟨r.type, size', res.1⟩) hspace hpool
        rcases happart with hbelow | habove
        · exact .inl ((hhi.trans hend).trans (hbelow.trans hfirst))
        · exact .inr (hlimit.trans (habove.trans hlo))
    · intro p
      have hnext : (s.after r.bdf u).pools.next p =
          if p = barPool r.type size' then res.2 else s.pools.next p := by
        rw [BarSpace.after, hpools]
        exact PciPools.next_setNext s.pools _ p res.2
      rw [hnext]
      by_cases hp : p = barPool r.type size'
      · rw [if_pos hp, hp]
        refine hhanded.mono fun e he => ?_
        rcases hafter _ e he with ⟨-, rfl⟩ | he
        · exact Set.mem_insert _ _
        · exact Set.mem_insert_of_mem _ he
      · rw [if_neg hp]
        refine (h p).mono fun e he => ?_
        rcases hafter p e he with ⟨rfl, -⟩ | he
        · exact absurd rfl hp
        · exact he
    · intro i htype
      have hi : i ≠ r.idx := by
        rintro rfl
        rw [hr.fresh] at htype
        exact absurd htype (by simp [PcibarType.HasAddrs, PcibarType.isMem])
      have hhi : r.type = .mem64 → i ≠ r.idx + 1 := by
        rintro hmem64 rfl
        rw [hr.freshHi hmem64] at htype
        exact absurd htype (by simp [PcibarType.HasAddrs, PcibarType.isMem])
      rw [hpi]
      exact PciDev.withBar_bar_of_ne _ _ _ _ hi hhi

theorem PoolsInv.step (h : PoolsInv s) (hstep : AllocStep s r t) : PoolsInv t := by
  obtain ⟨hr, u, ok, hcall, rfl⟩ := hstep
  obtain ⟨-, rfl⟩ | ⟨-, -, hafter, -⟩ := h.call hr hcall
  · intro p
    have hdevi : s.after r.bdf (s.setup r.bdf) = s := by
      rw [BarSpace.after]
      simp [BarSpace.setup]
    rw [hdevi]
    exact h p
  · exact hafter

end Requests

/-- **Allocation never overlaps.** -/
theorem bar_allocation_disjoint {T : PciMemTree} {s : BarSpace T}
    (h : Reaches AllocStep BarSpace.Initial s) {r : BarRequest} (hr : r.Valid s)
    {u : PciSetup T} {ok : Bool}
    (hcall : pciEmulAllocBar (s.setup r.bdf) r.idx r.type r.size = .ok (u, ok)) :
    (ok = true → BarGranted s r (u.pi.bar r.idx) ∧
      ∀ i, ((s.devi r.bdf).bar i).type.HasAddrs → u.pi.bar i = (s.devi r.bdf).bar i) ∧
    (ok = false → u = s.setup r.bdf) := by
  have hinv : PoolsInv s := h.invariant (fun s hs => .init hs) fun s r t hs hstep => hs.step hstep
  obtain ⟨rfl, rfl⟩ | ⟨rfl, hgranted, -, hkept⟩ := hinv.call hr hcall
  · exact ⟨fun hok => absurd hok (by simp), fun _ => rfl⟩
  · exact ⟨fun _ => ⟨hgranted, hkept⟩, fun hok => absurd hok (by simp)⟩

/-! ### Two requests -/

/-- The devices before their BARs are allocated. -/
def barSpaceStart : BarSpace OrderedTree.list := ⟨pciPoolsInit, ⟨initMem _, 0⟩, pciEmulDevinst⟩

/-- After a 32-bit BAR of 256 bytes. -/
def barSpaceCall : PciSetup OrderedTree.list × Bool :=
  outcome (pciEmulAllocBar (barSpaceStart.setup e1000Addr) 0 .mem32 0x100)
    (barSpaceStart.setup e1000Addr, false)

def barSpaceNext : BarSpace OrderedTree.list := barSpaceStart.after e1000Addr barSpaceCall.1

/-- A 64-bit BAR of 100 bytes comes from the same pool. -/
def barRequestSmall : BarRequest := ⟨e1000Addr, 1, .mem64, 100⟩

theorem barSpaceNext_reaches : Reaches AllocStep BarSpace.Initial barSpaceNext := by
  have hinit : barSpaceStart.Initial := ⟨rfl, fun _ _ => rfl⟩
  refine @Reaches.next _ _ _ _ _ _ ⟨e1000Addr, 0, .mem32, 0x100⟩ (.start hinit) ⟨?_, ?_⟩
  · exact ⟨.inr rfl, by decide, by simp, rfl, by simp⟩
  · have hcall : pciEmulAllocBar (barSpaceStart.setup e1000Addr) 0 .mem32 0x100 = .ok barSpaceCall :=
      eq_ok_outcome (by decide +kernel)
    exact ⟨barSpaceCall.1, barSpaceCall.2, hcall, rfl⟩

theorem bar_allocation_disjoint_small : ∃ u,
    pciEmulAllocBar (barSpaceNext.setup e1000Addr) 1 .mem64 100 = .ok (u, true) ∧
      BarGranted barSpaceNext barRequestSmall (u.pi.bar 1) := by
  have hvalid : barRequestSmall.Valid barSpaceNext := by
    refine ⟨.inr rfl, by decide, fun _ => ?_, by decide +kernel, fun _ => by decide +kernel⟩
    decide
  obtain ⟨u, hcall⟩ : ∃ u,
      pciEmulAllocBar (barSpaceNext.setup e1000Addr) 1 .mem64 100 = .ok (u, true) := by
    have hok : ((pciEmulAllocBar (barSpaceNext.setup e1000Addr) 1 .mem64 100).map fun r => r.2) =
        .ok true := by decide +kernel
    cases hcall : pciEmulAllocBar (barSpaceNext.setup e1000Addr) 1 .mem64 100 with
    | error e =>
      rw [hcall] at hok
      cases hok
    | ok r =>
      rw [hcall] at hok
      obtain ⟨u, ok⟩ := r
      obtain rfl : ok = true := Except.ok.inj hok
      exact ⟨u, rfl⟩
  exact ⟨u, hcall, ((bar_allocation_disjoint barSpaceNext_reaches hvalid hcall).1 rfl).1⟩

end DeviceModel
