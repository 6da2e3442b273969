import DeviceModel.E82545.Checksums

/-!
# Checksums of divided ranges

`e82545_iov_checksum` on a divided range and `e82545_buf_checksum` on the flat one compute
the same one's complement sum, and there is only one of 16 bits. This file puts that
together, and follows the accumulators of both loops.

* `BufNoWrap`, `IovNoWrap` — no addition of a loop wraps, in the order of the code;
* `leWords` — the words that a checksum sums.
-/

namespace DeviceModel

/-! ## Words -/

/-- The little-endian words of a range, the last one padded. -/
def leWords (bytes : List U8) : List Nat := lowPairs 256 (byteNats bytes)

theorem OnesSum.leWords {n : Nat} {bytes : List U8} (h : OnesSum 256 n (byteNats bytes)) :
    n ≡ (DeviceModel.leWords bytes).sum [MOD 0xFFFF] :=
  h.modEq.trans (lowPairs_modEq (by simp) _).symm

/-! ## Accumulators -/

/-- The loop of `e82545_buf_checksum`, with what it has summed. -/
def bufLoop : List U8 → U32 → U32
  | [], sum => sum
  | [x], sum => sum + x.setWidth 32
  | x :: y :: bytes, sum => bufLoop bytes (sum + (y ++ x : U16).setWidth 32)

theorem bufLoop_eq (bytes : List U8) (sum : U32) : bufLoop bytes sum = sum + bufSum bytes := by
  induction bytes, sum using bufLoop.induct with
  | case1 sum => exact (BitVec.add_zero sum).symm
  | case2 x sum => rfl
  | case3 x y bytes sum ih => rw [bufLoop, ih, bufSum, BitVec.add_assoc]

/-- `e82545_buf_checksum` in the order of the code. -/
theorem e82545BufChecksum_eq (buf : List U8) : e82545BufChecksum buf = e82545Carry (bufLoop buf 0) := by
  rw [e82545BufChecksum, bufLoop_eq]
  exact congrArg e82545Carry (BitVec.zero_add _).symm

/-- No addition of the loop wraps. -/
def BufNoWrap : List U8 → U32 → Prop
  | [], _ => True
  | [x], sum => sum.toNat + x.toNat < 2 ^ 32
  | x :: y :: bytes, sum => sum.toNat + (y ++ x : U16).toNat < 2 ^ 32 ∧
      BufNoWrap bytes (sum + (y ++ x : U16).setWidth 32)

/-- What the second loop of `e82545_iov_checksum` adds for a vector. -/
def iovTerm (odd : Bool) (s : U16) : U32 := if odd then s.setWidth 32 <<< 8 else s.setWidth 32

/-- No addition of that loop wraps, nor of the calls that it makes, and no shift loses a
bit. -/
def IovNoWrap (mem : Mem) : List TxIovec → (off len : Nat) → (odd : Bool) → U32 → Prop
  | [], _, _, _, _ => True
  | v :: vs, off, len, odd, sum => len ≠ 0 →
      let now := min len (v.len - off)
      let s := e82545BufChecksum (v.read mem off now)
      BufNoWrap (v.read mem off now) 0 ∧
        (iovTerm odd s).toNat = (if odd then 256 * s.toNat else s.toNat) ∧
        sum.toNat + (iovTerm odd s).toNat < 2 ^ 32 ∧
        IovNoWrap mem vs 0 (len - now) (odd ^^ (now % 2 == 1)) (sum + iovTerm odd s)

theorem bufNoWrap {bytes : List U8} {sum : U32}
    (h : sum.toNat + 65535 * ((bytes.length + 1) / 2) < 2 ^ 32) : BufNoWrap bytes sum := by
  induction bytes, sum using bufLoop.induct with
  | case1 => trivial
  | case2 x sum =>
    have hx := x.isLt
    simp only [List.length_singleton] at h
    rw [BufNoWrap]
    omega
  | case3 x y bytes sum ih =>
    have hword := (y ++ x : U16).isLt
    simp only [List.length_cons] at h
    have hadd : (sum + (y ++ x : U16).setWidth 32).toNat = sum.toNat + (y ++ x : U16).toNat := by
      rw [BitVec.toNat_add, BitVec.toNat_setWidth]
      omega
    refine ⟨by omega, ih ?_⟩
    rw [hadd]
    omega

theorem iovTerm_toNat (odd : Bool) (s : U16) :
    (iovTerm odd s).toNat = if odd then 256 * s.toNat else s.toNat := by
  have hs := s.isLt
  rw [iovTerm]
  split
  · rw [BitVec.toNat_shiftLeft, BitVec.toNat_setWidth, Nat.shiftLeft_eq]
    omega
  · rw [BitVec.toNat_setWidth]
    omega

/-- A term takes at most 24 bits. -/
theorem iovTerm_le (odd : Bool) (s : U16) : (iovTerm odd s).toNat ≤ 0xFFFF00 := by
  have hs := s.isLt
  rw [iovTerm_toNat]
  split <;> omega

theorem TxIovec.length_read_le (mem : Mem) (v : TxIovec) {off n : Nat} (h : n ≤ v.len) :
    (v.read mem off n).length ≤ v.len := by
  cases v with
  | guest base len =>
    rw [read, Mem.length_readBytes]
    exact h
  | host bytes =>
    rw [read, List.length_take, List.length_drop, len]
    omega

theorem iovNoWrap (mem : Mem) {iov : List TxIovec} {off len : Nat} {odd : Bool} {sum : U32}
    (hbytes : txBytes iov < 131072) (hroom : sum.toNat + iov.length * 0xFFFF00 < 2 ^ 32) :
    IovNoWrap mem iov off len odd sum := by
  induction iov generalizing off len odd sum with
  | nil => trivial
  | cons v vs ih =>
    rw [txBytes_cons] at hbytes
    rw [List.length_cons] at hroom
    intro _
    dsimp only
    generalize hnow : min len (v.len - off) = now
    have hlen : (v.read mem off now).length ≤ v.len := v.length_read_le mem (by omega)
    have hterm := iovTerm_le odd (e82545BufChecksum (v.read mem off now))
    refine ⟨bufNoWrap ?_, iovTerm_toNat _ _, by omega, ih (by omega) ?_⟩
    · have hzero : (0 : U32).toNat = 0 := rfl
      omega
    · rw [BitVec.toNat_add]
      omega

/-! ## The sum of a range -/

/-- What a checksum of a divided range comes to: the checksum of the flat one, congruent to
the sum of its words, and zero only where it is. -/
structure ChecksumOf (mem : Mem) (iov : List TxIovec) (off len : Nat) (range : List U8) : Prop where
  flat : e82545IovChecksum mem iov off len = e82545BufChecksum range
  words : (e82545IovChecksum mem iov off len).toNat ≡ (leWords range).sum [MOD 0xFFFF]
  zero : e82545IovChecksum mem iov off len = 0 → ∀ x ∈ range, x = 0
  bufNoWrap : BufNoWrap range 0
  iovNoWrap : IovNoWrap mem (iovSkip iov off).1 (iovSkip iov off).2 len false 0

/-- **Checksums are split-invariant**, for any division into at most 66 vectors. -/
theorem iov_checksum_split_invariant (mem : Mem) {iov : List TxIovec} (hvecs : iov.length ≤ 66)
    (hbytes : txBytes iov < 131072) (off len : Nat) :
    ChecksumOf mem iov off len (((iovBytes mem iov).drop off).take len) := by
  have hsum := e82545IovChecksum_onesSum mem hvecs hbytes off len
  rw [Int.toNat_natCast] at hsum
  have hlength : (((iovBytes mem iov).drop off).take len).length < 131072 := by
    rw [List.length_take, List.length_drop, length_iovBytes]
    omega
  generalize ((iovBytes mem iov).drop off).take len = range at hsum hlength
  have hzero : (0 : U32).toNat = 0 := rfl
  refine ⟨?_, hsum.leWords, fun h x hx => ?_, bufNoWrap ?_, ?_⟩
  · -- there is one sum of 16 bits
    have hflat := e82545BufChecksum_onesSum hlength
    have hlt := (e82545IovChecksum mem iov off len).isLt
    have hlt' := (e82545BufChecksum range).isLt
    apply BitVec.eq_of_toNat_eq
    exact hsum.unique hflat (by omega) (by omega)
  · have hnat : (e82545IovChecksum mem iov off len).toNat = 0 := congrArg BitVec.toNat h
    apply BitVec.eq_of_toNat_eq
    exact hsum.zero.1 hnat x.toNat (List.mem_map_of_mem hx)
  · omega
  · obtain ⟨-, hskip, hle, -⟩ := iovSkip_spec mem iov off
    apply iovNoWrap
    · omega
    · omega

/-- An odd vector, an empty one and another, from the second byte on. -/
theorem iov_checksum_split_invariant_odd :
    ChecksumOf (fun _ => 0) [.host [1, 2, 3], .host [], .host [4, 5]] 1 4 [2, 3, 4, 5] :=
  iov_checksum_split_invariant (fun _ => 0) (by simp) (by simp [TxIovec.len]) 1 4

end DeviceModel
