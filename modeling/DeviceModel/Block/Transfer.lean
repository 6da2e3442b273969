import Mathlib.Data.List.Nodup
import DeviceModel.Block.SeqDisk

/-!
# Transfers between the disk and the guest's buffers

`blockif_proc` copies one buffer after another. Where the buffers are distinct places
outside the disk, the copies together are one transfer between the list of all buffer
bytes and a slice of the disk.
-/

namespace DeviceModel

/-! ## The bytes of a buffer list -/

/-- The addresses of all buffer bytes, in order. -/
def bufAddrs (vs : List Iovec) : List U64 := vs.flatMap fun v => Mem.addrs v.iovBase v.iovLen

/-- The length of a transfer. -/
def iovTotal (vs : List Iovec) : Nat := (vs.map (·.iovLen)).sum

theorem bufAddrs_cons (v : Iovec) (vs : List Iovec) :
    bufAddrs (v :: vs) = Mem.addrs v.iovBase v.iovLen ++ bufAddrs vs := rfl

theorem iovTotal_cons (v : Iovec) (vs : List Iovec) :
    iovTotal (v :: vs) = v.iovLen + iovTotal vs := rfl

theorem length_bufAddrs (vs : List Iovec) : (bufAddrs vs).length = iovTotal vs := by
  induction vs with
  | nil => rfl
  | cons v vs ih => rw [bufAddrs_cons, List.length_append, Mem.length_addrs, ih, iovTotal_cons]

namespace Mem

theorem readBytes_congr {m m' : Mem} {a : U64} {n : Nat} (h : ∀ x ∈ addrs a n, m x = m' x) :
    m.readBytes a n = m'.readBytes a n := by
  rw [readBytes_eq_map, readBytes_eq_map]
  exact List.map_congr_left h

theorem copy_of_notMem {m : Mem} {dst src x : U64} {n : Nat} (h : x ∉ addrs dst n) :
    m.copy dst src n x = m x := by
  refine writeBytes_of_notMem _ _ _ ?_
  rwa [length_readBytes]

theorem map_copy {m : Mem} {dst src : U64} {n : Nat} (h : (addrs dst n).Nodup) :
    (addrs dst n).map (m.copy dst src n) = m.readBytes src n := by
  have hlen : (m.readBytes src n).length = n := length_readBytes m src n
  have hmap := map_writeBytes (m.readBytes src n) m dst (by rwa [hlen])
  rwa [hlen] at hmap

end Mem

/-! ## The two loops -/

theorem blockifCopyIn_of_notMem {x : U64} : ∀ (vs : List Iovec) (addr : U64) (m : Mem),
    x ∉ bufAddrs vs → blockifCopyIn vs addr m x = m x := by
  intro vs
  induction vs with
  | nil => intro addr m _; rfl
  | cons v vs ih =>
    intro addr m hx
    rw [bufAddrs_cons, List.mem_append, not_or] at hx
    rw [blockifCopyIn, ih _ _ hx.2, Mem.copy_of_notMem hx.1]

/-- **Read.** The buffers receive the bytes from `addr` on. -/
theorem map_blockifCopyIn : ∀ (vs : List Iovec) (addr : U64) (m : Mem), (bufAddrs vs).Nodup →
    (∀ x ∈ Mem.addrs addr (iovTotal vs), x ∉ bufAddrs vs) →
    (bufAddrs vs).map (blockifCopyIn vs addr m) = m.readBytes addr (iovTotal vs) := by
  intro vs
  induction vs with
  | nil => intro addr m _ _; rfl
  | cons v vs ih =>
    intro addr m hnodup hsrc
    rw [bufAddrs_cons, List.nodup_append] at hnodup
    obtain ⟨hv, hvs, hne⟩ := hnodup
    rw [iovTotal_cons, Mem.addrs_add] at hsrc
    have hfirst : ∀ x ∈ Mem.addrs v.iovBase v.iovLen, blockifCopyIn (v :: vs) addr m x =
        m.copy v.iovBase addr v.iovLen x :=
      fun x hx => blockifCopyIn_of_notMem vs _ _ fun hx' => hne x hx x hx' rfl
    have hrest : ∀ x ∈ Mem.addrs (addr + BitVec.ofNat 64 v.iovLen) (iovTotal vs),
        x ∉ bufAddrs (v :: vs) := fun x hx => hsrc x (List.mem_append_right _ hx)
    have hkeep : ∀ x ∈ Mem.addrs (addr + BitVec.ofNat 64 v.iovLen) (iovTotal vs),
        m.copy v.iovBase addr v.iovLen x = m x :=
      fun x hx => Mem.copy_of_notMem fun hx' => hrest x hx (List.mem_append_left _ hx')
    rw [bufAddrs_cons, List.map_append, List.map_congr_left hfirst, Mem.map_copy hv,
      iovTotal_cons, Mem.readBytes_add, ← Mem.readBytes_congr hkeep, blockifCopyIn,
      ih _ _ hvs fun x hx hx' => hrest x hx (List.mem_append_right _ hx')]

theorem blockifCopyOut_of_notMem {x : U64} : ∀ (vs : List Iovec) (addr : U64) (m : Mem),
    x ∉ Mem.addrs addr (iovTotal vs) → blockifCopyOut vs addr m x = m x := by
  intro vs
  induction vs with
  | nil => intro addr m _; rfl
  | cons v vs ih =>
    intro addr m hx
    rw [iovTotal_cons, Mem.addrs_add, List.mem_append, not_or] at hx
    rw [blockifCopyOut, ih _ _ hx.2, Mem.copy_of_notMem hx.1]

/-- **Write.** The bytes from `addr` on receive what the buffers hold. -/
theorem map_blockifCopyOut : ∀ (vs : List Iovec) (addr : U64) (m : Mem),
    (Mem.addrs addr (iovTotal vs)).Nodup →
    (∀ x ∈ Mem.addrs addr (iovTotal vs), x ∉ bufAddrs vs) →
    (Mem.addrs addr (iovTotal vs)).map (blockifCopyOut vs addr m) = (bufAddrs vs).map m := by
  intro vs
  induction vs with
  | nil => intro addr m _ _; rfl
  | cons v vs ih =>
    intro addr m hnodup hdst
    rw [iovTotal_cons, Mem.addrs_add] at hnodup hdst
    obtain ⟨hv, hvs, hne⟩ := List.nodup_append.1 hnodup
    have hfirst : ∀ x ∈ Mem.addrs addr v.iovLen, blockifCopyOut (v :: vs) addr m x =
        m.copy addr v.iovBase v.iovLen x :=
      fun x hx => blockifCopyOut_of_notMem vs _ _ fun hx' => hne x hx x hx' rfl
    have hkeep : ∀ x ∈ bufAddrs vs, m.copy addr v.iovBase v.iovLen x = m x :=
      fun x hx => Mem.copy_of_notMem fun hx' =>
        hdst x (List.mem_append_left _ hx') (List.mem_append_right _ hx)
    have hrest : ∀ x ∈ Mem.addrs (addr + BitVec.ofNat 64 v.iovLen) (iovTotal vs),
        x ∉ bufAddrs vs :=
      fun x hx hx' => hdst x (List.mem_append_right _ hx) (List.mem_append_right _ hx')
    rw [iovTotal_cons, Mem.addrs_add, List.map_append, List.map_congr_left hfirst,
      Mem.map_copy hv, blockifCopyOut, ih _ _ hvs hrest, bufAddrs_cons, List.map_append,
      List.map_congr_left hkeep, Mem.readBytes_eq_map]

/-! ## The disk in memory -/

/-- The disk of a block context. -/
def diskIn (bc : BlockifCtxt) (m : Mem) : Disk := fun i => m (bc.bcBase + BitVec.ofNat 64 i)

/-- The addresses of the disk. -/
def diskAddrs (bc : BlockifCtxt) : List U64 := Mem.addrs bc.bcBase bc.bcSize

/-- A transfer that stays inside the disk touches a slice of it. -/
theorem addrs_disk (base off : U64) (len : Nat) : Mem.addrs (base + off) len =
    (List.range len).map fun k => base + BitVec.ofNat 64 (off.toNat + k) := by
  refine List.map_congr_left fun k _ => ?_
  rw [BitVec.ofNat_add, BitVec.ofNat_toNat, BitVec.setWidth_eq, BitVec.add_assoc]

theorem addrs_subset_disk {bc : BlockifCtxt} {off : U64} {len : Nat}
    (h : off.toNat + len ≤ bc.bcSize) :
    ∀ x ∈ Mem.addrs (bc.bcBase + off) len, x ∈ diskAddrs bc := by
  intro x hx
  rw [addrs_disk] at hx
  obtain ⟨k, hk, rfl⟩ := List.mem_map.1 hx
  rw [List.mem_range] at hk
  exact List.mem_map.2 ⟨off.toNat + k, List.mem_range.2 (by omega), rfl⟩

theorem readBytes_disk (bc : BlockifCtxt) (m : Mem) (off : U64) (len : Nat) :
    m.readBytes (bc.bcBase + off) len = (diskIn bc m).slice off.toNat len := by
  rw [Mem.readBytes_eq_map, addrs_disk, List.map_map]
  rfl

/-- Storing a slice stores it in the disk. -/
theorem diskIn_store {bc : BlockifCtxt} {m m' : Mem} {off : U64} {data : List U8}
    (hsize : bc.bcSize ≤ 2 ^ 64) (hin : off.toNat + data.length ≤ bc.bcSize)
    (hdata : (Mem.addrs (bc.bcBase + off) data.length).map m' = data)
    (hkeep : ∀ x, x ∉ Mem.addrs (bc.bcBase + off) data.length → m' x = m x) {i : Nat}
    (hi : i < bc.bcSize) : diskIn bc m' i = (diskIn bc m).store off.toNat data i := by
  rw [Disk.store]
  split
  · next hin' =>
    have hk : i - off.toNat < data.length := by omega
    have hget : data.getD (i - off.toNat) 0 =
        ((Mem.addrs (bc.bcBase + off) data.length).map m').getD (i - off.toNat) 0 := by rw [hdata]
    rw [hget, addrs_disk, List.map_map, List.getD_eq_getElem?_getD, List.getElem?_map,
      List.getElem?_range hk]
    simp only [Option.map_some, Function.comp_apply, Option.getD_some, diskIn]
    rw [Nat.add_sub_cancel' hin'.1]
  · next hout =>
    refine hkeep _ fun hmem => hout ?_
    rw [addrs_disk] at hmem
    obtain ⟨k, hk, heq⟩ := List.mem_map.1 hmem
    rw [List.mem_range] at hk
    have hnat := congrArg BitVec.toNat (BitVec.add_right_inj bc.bcBase |>.1 heq)
    rw [BitVec.toNat_ofNat, BitVec.toNat_ofNat, Nat.mod_eq_of_lt (by omega),
      Nat.mod_eq_of_lt (by omega)] at hnat
    omega

end DeviceModel
