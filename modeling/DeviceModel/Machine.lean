import Mathlib.Data.BitVec
import Mathlib.Data.List.Nodup

/-!
# Machine words, guest memory and the two builds

The repository builds one device model in two ways: `mdepx.conf` with integer
buffer addresses, and `mdepx-purecap.conf` (`E1000_DESC_CAP`, `CONFIG_IOMMU`)
with capabilities in the transmit and receive descriptors. `Build` says which.

Guest memory is a function from host addresses to bytes. The guest runs on other
harts and may store to it at any time, so the functions that read it take the
memory they see as an argument.
-/

namespace DeviceModel

abbrev U8 : Type := BitVec 8
abbrev U16 : Type := BitVec 16
abbrev U32 : Type := BitVec 32
abbrev U64 : Type := BitVec 64

/-- The upper part of a word that has been put together. -/
theorem ushiftRight_append {m n : Nat} (x : BitVec m) (y : BitVec n) :
    ((x ++ y) >>> n).setWidth m = x := by
  apply BitVec.eq_of_getLsbD_eq
  intro i hi
  rw [BitVec.getLsbD_setWidth, BitVec.getLsbD_ushiftRight, BitVec.getLsbD_append]
  simp [hi]

/-- The two parts of a word, put together again. -/
theorem append_halves {m n : Nat} (x : BitVec (m + n)) :
    (x >>> n).setWidth m ++ x.setWidth n = x := by
  apply BitVec.eq_of_getLsbD_eq
  intro i hi
  rw [BitVec.getLsbD_append]
  by_cases h : i < n
  · simp [h]
  · have hhigh : i - n < m := by omega
    have hadd : n + (i - n) = i := by omega
    simp [h, hhigh, hadd]

/-- The two build configurations. -/
inductive Build : Type where
  /-- `mdepx.conf` -/
  | integer
  /-- `mdepx-purecap.conf` -/
  | purecap
  deriving DecidableEq, Repr

/-- Memory, by host address. -/
abbrev Mem : Type := U64 → U8

namespace Mem

/-- Store a byte. -/
def write8 (m : Mem) (a : U64) (v : U8) : Mem := fun x => if x = a then v else m x

/-- Read a little-endian 16-bit word. -/
def read16 (m : Mem) (a : U64) : U16 := m (a + 1) ++ m a

/-- Read a little-endian 32-bit word. -/
def read32 (m : Mem) (a : U64) : U32 := m (a + 3) ++ m (a + 2) ++ m (a + 1) ++ m a

/-- Read a little-endian 64-bit word. -/
def read64 (m : Mem) (a : U64) : U64 := m.read32 (a + 4) ++ m.read32 a

/-- Store a list of bytes one after another. -/
def writeBytes (m : Mem) : U64 → List U8 → Mem
  | _, [] => m
  | a, v :: vs => (m.write8 a v).writeBytes (a + 1) vs

/-- Store a little-endian 32-bit word. -/
def write32 (m : Mem) (a : U64) (v : U32) : Mem :=
  m.writeBytes a [v.extractLsb' 0 8, v.extractLsb' 8 8, v.extractLsb' 16 8, v.extractLsb' 24 8]

/-- Read `n` bytes one after another. -/
def readBytes (m : Mem) (a : U64) (n : Nat) : List U8 :=
  (List.range n).map fun i => m (a + BitVec.ofNat 64 i)

/-- `memcpy`, for areas that do not overlap. -/
def copy (m : Mem) (dst src : U64) (n : Nat) : Mem := m.writeBytes dst (m.readBytes src n)

/-! ### Ranges of addresses -/

/-- The addresses of the `n` bytes from `a` on. -/
def addrs (a : U64) (n : Nat) : List U64 := (List.range n).map fun i => a + BitVec.ofNat 64 i

theorem readBytes_eq_map (m : Mem) (a : U64) (n : Nat) : m.readBytes a n = (addrs a n).map m := by
  rw [readBytes, addrs, List.map_map]
  rfl

@[simp] theorem length_readBytes (m : Mem) (a : U64) (n : Nat) : (m.readBytes a n).length = n := by
  simp [readBytes]

@[simp] theorem length_addrs (a : U64) (n : Nat) : (addrs a n).length = n := by
  simp [addrs]

theorem addrs_succ (a : U64) (n : Nat) : addrs a (n + 1) = a :: addrs (a + 1) n := by
  rw [addrs, List.range_succ_eq_map, List.map_cons, List.map_map, addrs]
  refine congrArg₂ List.cons (BitVec.add_zero a) (List.map_congr_left fun i _ => ?_)
  rw [Function.comp_apply, Nat.succ_eq_one_add, BitVec.ofNat_add, ← BitVec.add_assoc]
  rfl

theorem addrs_add (a : U64) (n k : Nat) :
    addrs a (n + k) = addrs a n ++ addrs (a + BitVec.ofNat 64 n) k := by
  rw [addrs, List.range_add, List.map_append, List.map_map]
  refine congrArg₂ _ rfl (List.map_congr_left fun i _ => ?_)
  rw [Function.comp_apply, BitVec.ofNat_add, ← BitVec.add_assoc]

theorem readBytes_add (m : Mem) (a : U64) (n k : Nat) :
    m.readBytes a (n + k) = m.readBytes a n ++ m.readBytes (a + BitVec.ofNat 64 n) k := by
  rw [readBytes_eq_map, readBytes_eq_map, readBytes_eq_map, addrs_add, List.map_append]

/-- A store leaves the rest of memory alone. -/
theorem writeBytes_of_notMem {x : U64} : ∀ (vs : List U8) (m : Mem) (a : U64),
    x ∉ addrs a vs.length → m.writeBytes a vs x = m x := by
  intro vs
  induction vs with
  | nil => intro m a _; rfl
  | cons v vs ih =>
    intro m a hx
    rw [List.length_cons, addrs_succ, List.mem_cons, not_or] at hx
    rw [writeBytes, ih _ _ hx.2, write8, if_neg hx.1]

/-- What is stored in distinct places can be read back. -/
theorem map_writeBytes : ∀ (vs : List U8) (m : Mem) (a : U64), (addrs a vs.length).Nodup →
    (addrs a vs.length).map (m.writeBytes a vs) = vs := by
  intro vs
  induction vs with
  | nil => intro m a _; rfl
  | cons v vs ih =>
    intro m a hnodup
    rw [List.length_cons, addrs_succ, List.nodup_cons] at hnodup
    rw [List.length_cons, addrs_succ, List.map_cons, writeBytes, ih _ _ hnodup.2,
      writeBytes_of_notMem vs _ _ hnodup.1, write8, if_pos rfl]

/-- Distinct offsets are distinct places. -/
theorem nodup_addrs (a : U64) {n : Nat} (h : n ≤ 2 ^ 64) : (addrs a n).Nodup := by
  refine List.Nodup.map_on ?_ List.nodup_range
  intro i hi j hj heq
  rw [List.mem_range] at hi hj
  have hnat := congrArg BitVec.toNat (BitVec.add_right_inj a |>.1 heq)
  rwa [BitVec.toNat_ofNat, BitVec.toNat_ofNat, Nat.mod_eq_of_lt (by omega),
    Nat.mod_eq_of_lt (by omega)] at hnat

theorem readBytes_writeBytes (vs : List U8) (m : Mem) (a : U64) (h : vs.length ≤ 2 ^ 64) :
    (m.writeBytes a vs).readBytes a vs.length = vs := by
  rw [readBytes_eq_map]
  exact map_writeBytes vs m a (nodup_addrs a h)

end Mem

/-- `struct vmctx`: how guest addresses become host addresses. `dmapBase` is the
offset that `PHYS_TO_DMAP` adds; with `CONFIG_IOMMU` nothing is added. -/
structure Vmctx where
  dmapBase : U64
  deriving DecidableEq, Repr

/-- `paddr_guest2host`. The null pointer is address 0. -/
def paddrGuest2host (ctx : Vmctx) (gaddr : U64) : U64 := gaddr + ctx.dmapBase

end DeviceModel
