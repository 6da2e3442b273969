import DeviceModel.Library.OnesComplement
import DeviceModel.E82545.TsoHeaders

/-!
# Checksum offload

`e82545_iov_checksum` sums a range of bytes that is divided into vectors. The result is
the one's complement sum of the range, however it is divided: a vector that begins at an
odd place is shifted, and what overflows is carried. `e82545_transmit_checksum` stores its
complement, so that the range with the stored field sums up to what was not counted.
-/

namespace DeviceModel

/-- The bytes as numbers. -/
def byteNats (bytes : List U8) : List Nat := bytes.map (·.toNat)

@[simp] theorem byteNats_nil : byteNats [] = [] := rfl

@[simp] theorem byteNats_append (xs ys : List U8) : byteNats (xs ++ ys) = byteNats xs ++ byteNats ys :=
  List.map_append

@[simp] theorem length_byteNats (bytes : List U8) : (byteNats bytes).length = bytes.length :=
  List.length_map _

/-! ## Carries -/

theorem e82545Carry_toNat (sum : U32) : (e82545Carry sum).toNat =
    if 65535 < sum.toNat % 65536 + sum.toNat / 65536 then
      sum.toNat % 65536 + sum.toNat / 65536 - 65535
    else sum.toNat % 65536 + sum.toNat / 65536 := by
  have hlt := sum.isLt
  have hlow : (sum &&& 0xFFFF#32).toNat = sum.toNat % 65536 := by
    rw [BitVec.toNat_and]
    exact Nat.and_two_pow_sub_one_eq_mod _ 16
  have hhigh : (sum >>> 16).toNat = sum.toNat / 65536 := by
    rw [BitVec.toNat_ushiftRight, Nat.shiftRight_eq_div_pow]
  have hadd : ((sum &&& 0xFFFF#32) + (sum >>> 16)).toNat = sum.toNat % 65536 + sum.toNat / 65536 := by
    rw [BitVec.toNat_add, hlow, hhigh]
    omega
  simp only [e82545Carry, hadd]
  split
  · rw [BitVec.toNat_setWidth, BitVec.toNat_sub, hadd]
    simp only [BitVec.toNat_ofNat]
    omega
  · rw [BitVec.toNat_setWidth, hadd]
    omega

/-- Carrying does not change what is summed. -/
theorem OnesSum.carry {sum : U32} {xs : List Nat} (h : OnesSum 256 sum.toNat xs) :
    OnesSum 256 (e82545Carry sum).toNat xs := by
  have hfold : OnesSum 256 (sum.toNat % 65536 + sum.toNat / 65536) xs := h.fold (by decide)
  rw [e82545Carry_toNat]
  split
  · next hlt => exact hfold.sub hlt
  · exact hfold

/-! ## One buffer -/

theorem toNat_pair (x y : U8) : ((y ++ x : U16).setWidth 32 : U32).toNat = x.toNat + 256 * y.toNat := by
  have happend : (y ++ x : U16).toNat = y.toNat * 256 + x.toNat := by
    have hor := @BitVec.toNat_append 8 8 y x
    rw [← Nat.shiftLeft_add_eq_or_of_lt x.isLt, Nat.shiftLeft_eq] at hor
    exact hor
  have hx := x.isLt
  have hy := y.isLt
  rw [BitVec.toNat_setWidth, happend]
  omega

/-- The sum of a buffer does not overflow where the buffer is short enough. -/
theorem bufSum_onesSum : ∀ {bytes : List U8}, bytes.length < 131072 →
    (bufSum bytes).toNat ≤ 65535 * ((bytes.length + 1) / 2) ∧
      OnesSum 256 (bufSum bytes).toNat (byteNats bytes)
  | [], _ => ⟨Nat.zero_le _, .nil⟩
  | [x], _ => by
    have hx := x.isLt
    have hone : (bufSum [x]).toNat = x.toNat := by
      rw [bufSum, BitVec.toNat_setWidth]
      omega
    rw [hone]
    refine ⟨?_, .single _⟩
    simp only [List.length_singleton]
    omega
  | x :: y :: bytes, hlen => by
    simp only [List.length_cons] at hlen
    obtain ⟨hle, hsum⟩ := @bufSum_onesSum bytes (by omega)
    have hx := x.isLt
    have hy := y.isLt
    have hadd : (bufSum (x :: y :: bytes)).toNat =
        x.toNat + 256 * y.toNat + (bufSum bytes).toNat := by
      rw [bufSum, BitVec.toNat_add, toNat_pair]
      omega
    have hpair := (@OnesSum.pair 256 (by decide) x.toNat y.toNat).append (by decide) hsum
    rw [if_neg (by simp)] at hpair
    rw [hadd]
    refine ⟨?_, hpair⟩
    simp only [List.length_cons]
    omega

theorem e82545BufChecksum_onesSum {bytes : List U8} (h : bytes.length < 131072) :
    OnesSum 256 (e82545BufChecksum bytes).toNat (byteNats bytes) :=
  (bufSum_onesSum h).2.carry

/-! ## The vectors -/

/-- Skipping vectors is dropping bytes. -/
theorem iovSkip_spec (mem : Mem) : ∀ (iov : List TxIovec) (off : Nat),
    (iovBytes mem (iovSkip iov off).1).drop (iovSkip iov off).2 = (iovBytes mem iov).drop off ∧
      (iovSkip iov off).1.length ≤ iov.length ∧ txBytes (iovSkip iov off).1 ≤ txBytes iov ∧
      ∀ v ∈ (iovSkip iov off).1.head?, (iovSkip iov off).2 ≤ v.len := by
  intro iov
  induction iov with
  | nil => intro off; simp [iovSkip]
  | cons v vs ih =>
    intro off
    rw [iovSkip]
    split
    · next hskip =>
      obtain ⟨hdrop, hlen, hbytes, hhead⟩ := ih (off - v.len)
      have hnone : (v.bytes mem).drop off = [] :=
        List.drop_eq_nil_of_le (by rw [v.length_bytes]; exact hskip.1)
      refine ⟨?_, Nat.le_succ_of_le hlen, ?_, hhead⟩
      · rw [hdrop, iovBytes_cons, List.drop_append, v.length_bytes, hnone, List.nil_append]
      · rw [txBytes_cons]
        omega
    · next hstop =>
      refine ⟨rfl, Nat.le_refl _, Nat.le_refl _, fun w hw => ?_⟩
      cases hw
      dsimp only
      omega

/-- **The loop over the vectors.** What has been summed is followed by the range. -/
theorem iovSum_onesSum (mem : Mem) : ∀ {iov : List TxIovec} {off len : Nat} {odd : Bool} {sum : U32}
    {xs : List Nat}, txBytes iov < 131072 → (∀ v ∈ iov.head?, off ≤ v.len) →
    sum.toNat + iov.length * 0xFFFF00 < 2 ^ 32 → OnesSum 256 sum.toNat xs →
    odd = (xs.length % 2 == 1) →
    OnesSum 256 (iovSum mem iov off len odd sum).toNat
      (xs ++ byteNats (((iovBytes mem iov).drop off).take len)) := by
  intro iov
  induction iov with
  | nil =>
    intro off len odd sum xs _ _ _ hsum _
    simpa [iovSum] using hsum
  | cons v vs ih =>
    intro off len odd sum xs hbytes hhead hroom hsum hodd
    rw [txBytes_cons] at hbytes
    rw [List.length_cons] at hroom
    have hoff : off ≤ v.len := hhead v rfl
    rw [iovSum]
    split
    · next hzero => simpa [hzero] using hsum
    · next hsome =>
      dsimp only
      generalize hnow : min len (v.len - off) = now
      have hpiece : v.read mem off now = ((v.bytes mem).drop off).take now :=
        v.read_eq mem (by omega)
      have hlen : (v.read mem off now).length = now := by
        rw [hpiece, List.length_take, List.length_drop, v.length_bytes]
        omega
      -- the range is this piece and what the other vectors add
      have hsplit : ((iovBytes mem (v :: vs)).drop off).take len =
          v.read mem off now ++ ((iovBytes mem vs).drop 0).take (len - now) := by
        rw [iovBytes_cons, List.drop_append_of_le_length (by rw [v.length_bytes]; exact hoff),
          List.take_append, List.length_drop, v.length_bytes, hpiece, List.drop_zero]
        rcases Nat.lt_or_ge len (v.len - off) with hlt | hge
        · obtain rfl : len = now := by omega
          rw [Nat.sub_self, Nat.sub_eq_zero_of_le (Nat.le_of_lt hlt)]
        · obtain rfl : v.len - off = now := by omega
          have hall : ∀ {n}, v.len - off ≤ n →
              ((v.bytes mem).drop off).take n = (v.bytes mem).drop off := fun hn =>
            List.take_of_length_le (by rw [List.length_drop, v.length_bytes]; exact hn)
          rw [hall hge, hall (Nat.le_refl _)]
      have hck := @e82545BufChecksum_onesSum (v.read mem off now) (by omega)
      have hnext := hsum.append (by decide) hck
      generalize e82545BufChecksum (v.read mem off now) = s at hck hnext ⊢
      have hs := s.isLt
      have hadd : (sum + if odd then s.setWidth 32 <<< 8 else s.setWidth 32).toNat =
          sum.toNat + if xs.length % 2 = 1 then 256 * s.toNat else s.toNat := by
        rw [hodd, BitVec.toNat_add]
        rcases Nat.mod_two_eq_zero_or_one xs.length with h2 | h2
        · simp only [h2, Nat.reduceBEq, Bool.false_eq_true, if_false, Nat.reduceEqDiff,
            BitVec.toNat_setWidth]
          omega
        · simp only [h2, Nat.reduceBEq, if_true, BitVec.toNat_shiftLeft, BitVec.toNat_setWidth,
            Nat.shiftLeft_eq]
          omega
      rw [← hadd] at hnext
      have hodd' : (odd ^^ (now % 2 == 1)) =
          ((xs ++ byteNats (v.read mem off now)).length % 2 == 1) := by
        rw [hodd, List.length_append, length_byteNats, hlen]
        rcases Nat.mod_two_eq_zero_or_one xs.length with h2 | h2 <;>
          rcases Nat.mod_two_eq_zero_or_one now with h3 | h3 <;>
          simp [Nat.add_mod, h2, h3]
      have hfinal := @ih 0 (len - now) _ _ _ (by omega) (fun _ _ => Nat.zero_le _) (by
        rw [hadd]
        split <;> omega) hnext hodd'
      rw [hsplit, byteNats_append, ← List.append_assoc]
      exact hfinal

/-- **The sum of a range**, for any division into at most 66 vectors. -/
theorem e82545IovChecksum_onesSum (mem : Mem) {iov : List TxIovec} (hvecs : iov.length ≤ 66)
    (hbytes : txBytes iov < 131072) (off : Nat) (len : Int) :
    OnesSum 256 (e82545IovChecksum mem iov off len).toNat
      (byteNats (((iovBytes mem iov).drop off).take len.toNat)) := by
  obtain ⟨hdrop, hlen, hle, hhead⟩ := iovSkip_spec mem iov off
  have hsum := @iovSum_onesSum mem (iovSkip iov off).1 (iovSkip iov off).2 len.toNat false 0 []
    (by omega) hhead (by
      have hzero : (0 : U32).toNat = 0 := rfl
      omega) .nil rfl
  rw [hdrop, List.nil_append] at hsum
  exact hsum.carry

/-! ## The field -/

/-- The bytes that a checksum covers: from `ck_start` on, up to the one at `ck_len` or to
the end of the packet. -/
def CkInfo.covered (ck : CkInfo) (bytes : List U8) : List U8 :=
  if ck.ckLen = 0 then bytes.drop ck.ckStart.toNat
  else (bytes.drop ck.ckStart.toNat).take (ck.ckLen.toNat + 1 - ck.ckStart.toNat)

theorem CkInfo.covered_eq (ck : CkInfo) {bytes : List U8} (h : bytes.length < 2147483647) :
    ck.covered bytes = (bytes.drop ck.ckStart.toNat).take ck.cklen := by
  rw [covered, cklen]
  by_cases hlen : ck.ckLen = 0
  · rw [if_pos hlen, if_neg (not_not.2 hlen), List.take_of_length_le]
    rw [List.length_drop]
    omega
  · have hcast : ((ck.ckLen.toNat : Int) - ck.ckStart.toNat + 1).toNat =
        ck.ckLen.toNat + 1 - ck.ckStart.toNat := by omega
    rw [if_neg hlen, if_pos hlen, hcast]

/-- The field is in a first vector of `n` bytes, inside the range that the checksum
covers, and at an even distance from its start. -/
structure CkInfo.Placed (n : Nat) (ck : CkInfo) : Prop where
  vector : ck.ckOff.toNat + 2 ≤ n
  start : ck.ckStart.toNat ≤ ck.ckOff.toNat
  stop : ck.ckLen ≠ 0 → ck.ckOff.toNat + 1 ≤ ck.ckLen.toNat
  even : (ck.ckOff.toNat - ck.ckStart.toNat) % 2 = 0

/-- What `e82545_transmit_checksum` stores. -/
def CkInfo.cksum (ck : CkInfo) (mem : Mem) (hdr : List U8) (rest : List TxIovec) : U16 :=
  e82545IovChecksum mem (.host hdr :: rest) ck.ckStart.toNat
    (if ck.ckLen ≠ 0 then (ck.ckLen.toNat : Int) - ck.ckStart.toNat + 1 else 2147483647)

theorem e82545TransmitChecksum_eq (mem : Mem) (hdr : List U8) (rest : List TxIovec) (ck : CkInfo) :
    e82545TransmitChecksum mem hdr rest ck =
      writeHdr hdr ck.ckOff.toNat (le16 (~~~(ck.cksum mem hdr rest))) := rfl

theorem TxIovec.bytes_host (mem : Mem) (bytes : List U8) : (TxIovec.host bytes).bytes mem = bytes :=
  List.take_length

/-- It is the sum of the bytes that are covered. -/
theorem CkInfo.cksum_onesSum (ck : CkInfo) (mem : Mem) {hdr : List U8} {rest : List TxIovec}
    (hvecs : rest.length + 1 ≤ 66) (hbytes : hdr.length + txBytes rest < 131072) :
    OnesSum 256 (ck.cksum mem hdr rest).toNat
      (byteNats (ck.covered (hdr ++ iovBytes mem rest))) := by
  have hlen : (if ck.ckLen ≠ 0 then (ck.ckLen.toNat : Int) - ck.ckStart.toNat + 1
      else 2147483647).toNat = ck.cklen := by
    rw [cklen]
    split <;> rfl
  have hsum := @e82545IovChecksum_onesSum mem (.host hdr :: rest) hvecs hbytes ck.ckStart.toNat
    (if ck.ckLen ≠ 0 then (ck.ckLen.toNat : Int) - ck.ckStart.toNat + 1 else 2147483647)
  rw [iovBytes_cons, TxIovec.bytes_host, hlen] at hsum
  rw [ck.covered_eq (by rw [List.length_append, length_iovBytes]; omega)]
  exact hsum

/-- The covered range around the field. -/
theorem CkInfo.covered_append {ck : CkInfo} {before xs field ys : List U8}
    (hstart : before.length = ck.ckStart.toNat) (hlen : xs.length + field.length ≤ ck.cklen)
    (hmax : (before ++ (xs ++ (field ++ ys))).length < 2147483647) :
    ck.covered (before ++ (xs ++ (field ++ ys))) =
      xs ++ (field ++ ys.take (ck.cklen - xs.length - field.length)) := by
  rw [ck.covered_eq hmax, ← hstart, List.drop_left, List.take_append, List.take_append,
    List.take_of_length_le (by omega : xs.length ≤ ck.cklen),
    List.take_of_length_le (by omega : field.length ≤ ck.cklen - xs.length)]

/-- The field in its buffer, and the buffer after a store to it. -/
theorem putAt_split {off start : Nat} (xs ys bytes : List U8) (hle : start ≤ off) :
    xs ++ bytes = xs.take start ++ ((xs.drop start).take (off - start) ++
        (Extent.get ⟨off, ys.length⟩ xs ++ (xs.drop (off + ys.length) ++ bytes))) ∧
      putAt off ys xs ++ bytes = xs.take start ++ ((xs.drop start).take (off - start) ++
        (ys ++ (xs.drop (off + ys.length) ++ bytes))) := by
  have htake : xs.take off = xs.take start ++ (xs.drop start).take (off - start) := by
    rw [← List.take_add, Nat.add_sub_cancel' hle]
  have hsplit : xs = xs.take off ++ (Extent.get ⟨off, ys.length⟩ xs ++ xs.drop (off + ys.length)) := by
    have hdrop : xs.drop (off + ys.length) = (xs.drop off).drop ys.length := by
      rw [List.drop_drop]
    rw [hdrop, Extent.get, List.take_append_drop, List.take_append_drop]
  refine ⟨?_, ?_⟩
  · conv_lhs => rw [hsplit, htake]
    simp only [List.append_assoc]
  · rw [putAt, htake]
    simp only [List.append_assoc]

/-- Replacing two digits at an even place by the complement of the whole sum. -/
theorem pairSum_complement {xs ys : List Nat} {x y x' y' c : Nat} (heven : xs.length % 2 = 0)
    (hc : c ≡ Nat.ofDigits 256 (xs ++ ([x, y] ++ ys)) [MOD 256 * 256 - 1]) (hle : c ≤ 65535)
    (hnew : x' + 256 * y' = 65535 - c) :
    (pairSum 256 (xs ++ ([x', y'] ++ ys)) + (256 * x + y)) % 0xFFFF = 0 := by
  have hb : 1 ≤ 256 := by decide
  have hsplit : ∀ u v, Nat.ofDigits 256 (xs ++ ([u, v] ++ ys)) ≡
      Nat.ofDigits 256 xs + (u + 256 * v + Nat.ofDigits 256 ys) [MOD 256 * 256 - 1] := by
    intro u v
    have hpair : Nat.ofDigits 256 [u, v] = u + 256 * v := by simp [Nat.ofDigits_cons]
    have hfirst := ofDigits_append_modEq hb ([u, v] ++ ys) heven
    have hsecond := @ofDigits_append_modEq 256 hb [u, v] ys (by simp)
    rw [hpair] at hsecond
    exact hfirst.trans (hsecond.add_left _)
  have hnewsum := (pairSum_modEq hb (xs ++ ([x', y'] ++ ys))).trans ((hsplit x' y').mul_left 256)
  have hold := hc.trans (hsplit x y)
  rw [hnew] at hnewsum
  simp only [Nat.ModEq] at hnewsum hold
  omega

/-- The range after the store. -/
theorem CkInfo.covered_stored {ck : CkInfo} {hdr bytes : List U8} {c : U16}
    (h : ck.Placed hdr.length) (hmax : (hdr ++ bytes).length < 2147483647)
    (hsum : c.toNat ≡ Nat.ofDigits 256 (byteNats (ck.covered (hdr ++ bytes))) [MOD 256 * 256 - 1]) :
    (pairSum 256 (byteNats (ck.covered (putAt ck.ckOff.toNat (le16 (~~~c)) hdr ++ bytes))) +
      ofBe (Extent.get ⟨ck.ckOff.toNat, 2⟩ hdr)) % 0xFFFF = 0 := by
  obtain ⟨hvector, hstart, hstop, heven⟩ := h
  obtain ⟨hold, hnew⟩ := putAt_split hdr (le16 (~~~c)) bytes hstart
  obtain ⟨x, y, hfield⟩ := List.length_eq_two.1 (@Extent.length_get _ ⟨ck.ckOff.toNat, 2⟩ hdr hvector)
  have hput : (putAt ck.ckOff.toNat (le16 (~~~c)) hdr).length = hdr.length := length_putAt hvector
  have hmax' : (putAt ck.ckOff.toNat (le16 (~~~c)) hdr ++ bytes).length < 2147483647 := by
    rw [List.length_append, hput, ← List.length_append]
    exact hmax
  have hbefore : (hdr.take ck.ckStart.toNat).length = ck.ckStart.toNat :=
    List.length_take_of_le (by omega)
  have hxs : ((hdr.drop ck.ckStart.toNat).take (ck.ckOff.toNat - ck.ckStart.toNat)).length =
      ck.ckOff.toNat - ck.ckStart.toNat := by
    rw [List.length_take, List.length_drop]
    omega
  have hcover : ck.ckOff.toNat - ck.ckStart.toNat + 2 ≤ ck.cklen := by
    rw [cklen]
    split
    · next hlen =>
      have hend := hstop hlen
      omega
    · omega
  rw [le16_length, hfield] at hold
  rw [hold] at hmax hsum
  rw [hnew] at hmax' ⊢
  rw [covered_append hbefore (by rw [hxs]; exact hcover) hmax, byteNats_append, byteNats_append] at hsum
  rw [covered_append hbefore (by rw [hxs]; exact hcover) hmax', byteNats_append, byteNats_append,
    hfield]
  have hnot : (~~~c).toNat = 65535 - c.toNat := BitVec.toNat_not
  have hlt := c.isLt
  have hbe : ofBe [x, y] = 256 * x.toNat + y.toNat := by simp [ofBe, Nat.mul_comm]
  rw [hbe]
  refine pairSum_complement ?_ hsum (by omega) ?_
  · rw [length_byteNats, hxs]
    exact heven
  · simp only [BitVec.extractLsb'_toNat, Nat.shiftRight_eq_div_pow]
    omega

/-- **Checksum offload.** The range with the stored field, and what the field held before,
sum up to 0. -/
theorem transmit_checksum_verifies {mem : Mem} {hdr : List U8} {rest : List TxIovec} {ck : CkInfo}
    (hvecs : rest.length + 1 ≤ 66) (hbytes : hdr.length + txBytes rest < 131072)
    (h : ck.Placed hdr.length) :
    ∃ hdr', e82545TransmitChecksum mem hdr rest ck = .ok hdr' ∧
      (pairSum 256 (byteNats (ck.covered (hdr' ++ iovBytes mem rest))) +
        ofBe (Extent.get ⟨ck.ckOff.toNat, 2⟩ hdr)) % 0xFFFF = 0 ∧
      SameBut [⟨ck.ckOff.toNat, 2⟩] hdr hdr' := by
  have hsame := @SameBut.putAt _ hdr (le16 (~~~(ck.cksum mem hdr rest))) ck.ckOff.toNat h.vector
  refine ⟨_, writeHdr_eq_ok.2 ⟨h.vector, rfl⟩, CkInfo.covered_stored h ?_ ?_, hsame⟩
  · rw [List.length_append, length_iovBytes]
    omega
  · exact (ck.cksum_onesSum mem hvecs hbytes).modEq

/-- A TCP segment of which the first vector ends at an odd place. -/
theorem transmit_checksum_verifies_odd :
    ∃ hdr', e82545TransmitChecksum (fun _ => 0xff) (List.replicate 39 0xff) [.guest 39 25]
        ⟨true, 20, 36, 0⟩ = .ok hdr' ∧
      (pairSum 256 (byteNats (CkInfo.covered ⟨true, 20, 36, 0⟩
          (hdr' ++ iovBytes (fun _ => 0xff) [.guest 39 25]))) +
        ofBe (Extent.get ⟨36, 2⟩ (List.replicate 39 0xff))) % 0xFFFF = 0 ∧
      SameBut [⟨36, 2⟩] (List.replicate 39 0xff) hdr' :=
  @transmit_checksum_verifies (fun _ => 0xff) (List.replicate 39 0xff) [.guest 39 25]
    ⟨true, 20, 36, 0⟩ (by decide) (by decide) ⟨by decide, by decide, by decide, by decide⟩

end DeviceModel
