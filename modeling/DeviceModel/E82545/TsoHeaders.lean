import DeviceModel.Library.Extents
import DeviceModel.E82545.Segments

/-!
# Headers of the segments

The segmentation loop edits one copy of the header for every segment. A field that is
computed from what was read before the loop is right in each of them; the flags of TCP
are changed where they are, so that what one segment clears is gone from the next.
-/

namespace DeviceModel

/-! ## Numbers in the order of the network -/

theorem le16_htons (n : Int) : le16 (htons n) = be16 (BitVec.ofInt 16 n) := by
  rw [le16, be16, htons]
  exact congr_arg₂ (fun x y => [x, y]) BitVec.extractLsb'_append_eq_right
    BitVec.extractLsb'_append_eq_left

theorem ofBe_be16 (v : U16) : ofBe (be16 v) = v.toNat := by
  have hlt := v.isLt
  simp only [ofBe, be16, List.foldl_cons, List.foldl_nil, BitVec.extractLsb'_toNat,
    Nat.shiftRight_eq_div_pow]
  omega

theorem ofBe_be32 (v : U32) : ofBe (be32 v) = v.toNat := by
  have hlt := v.isLt
  simp only [ofBe, be32, byteAt, List.foldl_cons, List.foldl_nil, BitVec.extractLsb'_toNat,
    Nat.shiftRight_eq_div_pow]
  omega

/-- What `htons` stores, read in the order of the network. -/
theorem ofBe_htons (n : Int) : (ofBe (le16 (htons n)) : Int) = n % 2 ^ 16 := by
  rw [le16_htons, ofBe_be16, BitVec.toNat_ofInt]
  omega

theorem ofBe_ofInt (n : Int) : (ofBe (be32 (BitVec.ofInt 32 n)) : Int) = n % 2 ^ 32 := by
  rw [ofBe_be32, BitVec.toNat_ofInt]
  omega

/-! ## Stores to the header -/

theorem writeHdr_eq_ok {hdr hdr' bytes : List U8} {off : Nat} :
    writeHdr hdr off bytes = .ok hdr' ↔
      off + bytes.length ≤ hdr.length ∧ hdr' = putAt off bytes hdr := by
  rw [writeHdr]
  split
  · next h => exact ⟨fun he => ⟨h, (Except.ok.inj he).symm⟩, fun he => congrArg _ he.2.symm⟩
  · next h => exact ⟨(by intro he; cases he), fun he => absurd he.1 h⟩

/-- A store fills its extent and changes nothing else. -/
theorem writeHdr_spec {e : Extent} {hdr hdr' bytes : List U8} (hlen : bytes.length = e.len)
    (h : writeHdr hdr e.off bytes = .ok hdr') : e.get hdr' = bytes ∧ SameBut [e] hdr hdr' := by
  obtain ⟨off, len⟩ := e
  obtain rfl : bytes.length = len := hlen
  obtain ⟨hin, rfl⟩ := writeHdr_eq_ok.1 h
  exact ⟨get_putAt hin, .putAt hin⟩

theorem readHdr_eq_ok {hdr bytes : List U8} {off n : Nat} :
    readHdr hdr off n = .ok bytes ↔ off + n ≤ hdr.length ∧ bytes = Extent.get ⟨off, n⟩ hdr := by
  rw [readHdr]
  split
  · next h => exact ⟨fun he => ⟨h, (Except.ok.inj he).symm⟩, fun he => congrArg _ he.2.symm⟩
  · next h => exact ⟨(by intro he; cases he), fun he => absurd he.1 h⟩

/-! ## The fields -/

namespace CkInfo

variable (ck : CkInfo)

/-- The total length of an IPv4 header that starts at `ck_start`. -/
def ipLen : Extent := ⟨ck.ckStart.toNat + 2, 2⟩

/-- Its identification. -/
def ipId : Extent := ⟨ck.ckStart.toNat + 4, 2⟩

/-- The sequence number of a TCP header that starts at `ck_start`. -/
def tcpSeq : Extent := ⟨ck.ckStart.toNat + 4, 4⟩

/-- The byte with its flags. -/
def tcpFlags : Extent := ⟨ck.ckStart.toNat + 13, 1⟩

/-- The checksum, if it is asked for. -/
def field : List Extent := if ck.ckValid then [⟨ck.ckOff.toNat, 2⟩] else []

end CkInfo

/-- The fields that the segments of a TCP/IPv4 packet differ in. -/
def tsoFields (ck0 ck1 : CkInfo) : List Extent :=
  [ck0.ipLen, ck0.ipId, ck1.tcpSeq, ck1.tcpFlags] ++ ck0.field ++ ck1.field

/-- The checksum of a segment changes its own field only. -/
theorem CkInfo.segment_sameBut {mem : Mem} {hdr hdr' bytes : List U8} {pieces : List TxIovec}
    {ck : CkInfo} (hbytes : bytes.length = 2) (h : ck.segment mem hdr pieces bytes = .ok hdr') :
    SameBut ck.field hdr hdr' := by
  rw [segment] at h
  rw [field]
  split at h
  · next hv =>
    rw [if_pos hv]
    obtain ⟨hdr₁, hstore, h⟩ := Except.bind_eq_ok.1 h
    obtain ⟨-, hsame⟩ := @writeHdr_spec ⟨ck.ckOff.toNat, 2⟩ _ _ _ hbytes hstore
    obtain ⟨-, hsame'⟩ := @writeHdr_spec ⟨ck.ckOff.toNat, 2⟩ _ _ _ (le16_length _) h
    exact hsame.trans hsame'
  · next hv =>
    rw [if_neg hv]
    cases h
    exact .refl _ _

/-- "Update IP header" of an IPv4 packet. -/
theorem TsoInfo.updateIp_spec {o : TsoInfo} {hdr hdr' : List U8} {seg now : Nat}
    (hip : o.ip = true) (h : o.updateIp hdr seg now = .ok hdr') :
    o.ck0.ipLen.get hdr' = le16 (htons ((hdr.length : Int) - o.ck0.ckStart.toNat + now)) ∧
    o.ck0.ipId.get hdr' = le16 (htons (o.ipid + seg)) ∧
    SameBut [o.ck0.ipLen, o.ck0.ipId] hdr hdr' := by
  rw [updateIp, if_pos hip] at h
  obtain ⟨hdr₁, hlen, hid⟩ := Except.bind_eq_ok.1 h
  obtain ⟨hget, hsame⟩ := @writeHdr_spec o.ck0.ipLen _ _ _ (le16_length _) hlen
  obtain ⟨hget', hsame'⟩ := @writeHdr_spec o.ck0.ipId _ _ _ (le16_length _) hid
  have hclear : o.ck0.ipId.Clear o.ck0.ipLen := .inr (Nat.le_refl _)
  refine ⟨(hsame'.get_eq_of_clear hclear).trans hget, hget', ?_⟩
  exact (hsame.mono (by simp)).trans (hsame'.mono (by simp))

/-- "Update TCP/UDP headers" of a TCP packet. -/
theorem TsoInfo.updateTcp_spec {o : TsoInfo} {n : Nat} {hdr hdr' : List U8} {left now : Nat}
    (htcp : o.tcp = true) (h : o.updateTcp n hdr left now = .ok hdr') :
    o.ck1.tcpSeq.get hdr' = be32 (BitVec.ofInt 32 ((o.tcpseq : Int) + o.paylen - left)) ∧
    o.ck1.tcpFlags.get hdr' =
      (if now < left then (o.ck1.tcpFlags.get hdr).map (· &&& ~~~0x09#8)
        else o.ck1.tcpFlags.get hdr) ∧
    SameBut [o.ck1.tcpSeq, o.ck1.tcpFlags] hdr hdr' := by
  rw [updateTcp, if_pos htcp] at h
  obtain ⟨hdr₁, hseq, h⟩ := Except.bind_eq_ok.1 h
  obtain ⟨hget, hsame⟩ := @writeHdr_spec o.ck1.tcpSeq _ _ _ (be32_length _) hseq
  have hclear : o.ck1.tcpSeq.Clear o.ck1.tcpFlags := .inl (by simp [CkInfo.tcpSeq, CkInfo.tcpFlags])
  have hflags := hsame.get_eq_of_clear hclear
  have hfirst : SameBut [o.ck1.tcpSeq, o.ck1.tcpFlags] hdr hdr₁ := hsame.mono (by simp)
  split at h
  · next hmore =>
    obtain ⟨flags, hread, hwrite⟩ := Except.bind_eq_ok.1 h
    obtain ⟨hin, rfl⟩ := readHdr_eq_ok.1 hread
    have hone : ((o.ck1.tcpFlags.get hdr₁).map (· &&& ~~~0x09#8)).length = o.ck1.tcpFlags.len := by
      rw [List.length_map]
      exact Extent.length_get hin
    obtain ⟨hget', hsame'⟩ := writeHdr_spec hone hwrite
    rw [hflags] at hget'
    refine ⟨(hsame'.get_eq_of_clear hclear.symm).trans hget, ?_, ?_⟩
    · rw [if_pos hmore]
      exact hget'
    · exact hfirst.trans (hsame'.mono (by simp))
  · next hlast =>
    cases h
    refine ⟨hget, ?_, hfirst⟩
    rw [if_neg hlast, hflags]

/-! ## One segment -/

/-- The fields lie in a header of `n` bytes, and none of those that are written
overlaps another. The IP checksum is read also where it is not asked for. -/
structure TsoFieldsFit (n : Nat) (ck0 ck1 : CkInfo) : Prop where
  within : ∀ e ∈ tsoFields ck0 ck1, e.Within n
  ipcs : ck0.ckOff.toNat + 2 ≤ n
  apart : (tsoFields ck0 ck1).Pairwise Extent.Clear

namespace TsoFieldsFit

variable {n : Nat} {ck0 ck1 : CkInfo}

/-- The checksums are clear of the fields before them. -/
theorem field_clear (h : TsoFieldsFit n ck0 ck1) {e : Extent}
    (he : e ∈ [ck0.ipLen, ck0.ipId, ck1.tcpSeq, ck1.tcpFlags]) :
    ∀ d ∈ ck0.field ++ ck1.field, d.Clear e := by
  intro d hd
  have hapart := h.apart
  rw [tsoFields, List.append_assoc, List.pairwise_append] at hapart
  exact (hapart.2.2 e he d hd).symm

/-- The fields of TCP are clear of those of IP. -/
theorem tcp_clear (h : TsoFieldsFit n ck0 ck1) {e : Extent} (he : e ∈ [ck0.ipLen, ck0.ipId]) :
    ∀ d ∈ [ck1.tcpSeq, ck1.tcpFlags], d.Clear e := by
  intro d hd
  have hapart := h.apart
  have hsplit : tsoFields ck0 ck1 =
      [ck0.ipLen, ck0.ipId] ++ ([ck1.tcpSeq, ck1.tcpFlags] ++ ck0.field ++ ck1.field) := by
    simp [tsoFields]
  rw [hsplit, List.pairwise_append] at hapart
  exact (hapart.2.2 e he d (List.mem_append_left _ (List.mem_append_left _ hd))).symm

end TsoFieldsFit

/-- Both checksums of a segment change their own fields only. -/
theorem ckSegments_sameBut {mem : Mem} {hdr hdr' b0 b1 : List U8} {pieces : List TxIovec}
    {ck0 ck1 : CkInfo} (h0 : b0.length = 2) (h1 : b1.length = 2)
    (h : (ck0.segment mem hdr pieces b0 >>= fun hdr => ck1.segment mem hdr pieces b1) = .ok hdr') :
    SameBut (ck0.field ++ ck1.field) hdr hdr' := by
  obtain ⟨hdr₁, hck0, hck1⟩ := Except.bind_eq_ok.1 h
  have hfirst := CkInfo.segment_sameBut h0 hck0
  have hsecond := CkInfo.segment_sameBut h1 hck1
  exact (hfirst.mono fun e he => List.mem_append_left _ he).trans
    (hsecond.mono fun e he => List.mem_append_right _ he)

/-- What one segment makes of a header. -/
structure TsoInfo.Edited (o : TsoInfo) (seg left now : Nat) (hdr hdr' : List U8) : Prop where
  len : (ofBe (o.ck0.ipLen.get hdr') : Int) =
    ((hdr.length : Int) - o.ck0.ckStart.toNat + now) % 2 ^ 16
  id : ofBe (o.ck0.ipId.get hdr') = (o.ipid + seg) % 2 ^ 16
  seq : (ofBe (o.ck1.tcpSeq.get hdr') : Int) = ((o.tcpseq : Int) + o.paylen - left) % 2 ^ 32
  flags : o.ck1.tcpFlags.get hdr' =
    if now < left then (o.ck1.tcpFlags.get hdr).map (· &&& ~~~0x09#8) else o.ck1.tcpFlags.get hdr
  same : SameBut (tsoFields o.ck0 o.ck1) hdr hdr'

/-- **One segment** of a TCP/IPv4 packet. -/
theorem txSegmentHeader_edited {mem : Mem} {o : TsoInfo} {hdr hdr' : List U8}
    {pieces : List TxIovec} {n seg left now : Nat} (hipcs : o.ipcs.length = 2)
    (hip : o.ip = true) (htcp : o.tcp = true) (hfit : TsoFieldsFit n o.ck0 o.ck1)
    (h : txSegmentHeader mem o hdr pieces seg left now = .ok hdr') :
    o.Edited seg left now hdr hdr' := by
  rw [txSegmentHeader_eq] at h
  obtain ⟨hdr₁, hupdip, h⟩ := Except.bind_eq_ok.1 h
  obtain ⟨hdr₂, hupdtcp, h⟩ := Except.bind_eq_ok.1 h
  obtain ⟨hlen, hid, hsame₁⟩ := TsoInfo.updateIp_spec hip hupdip
  obtain ⟨hseq, hflags, hsame₂⟩ := TsoInfo.updateTcp_spec htcp hupdtcp
  have hsame₃ := ckSegments_sameBut hipcs (le16_length _) h
  -- the later stores leave alone what the earlier ones have filled in
  have hkeep : ∀ e ∈ [o.ck0.ipLen, o.ck0.ipId, o.ck1.tcpSeq, o.ck1.tcpFlags],
      e.get hdr' = e.get hdr₂ := fun e he => hsame₃.get_eq (hfit.field_clear he)
  have hkeep' : ∀ e ∈ [o.ck0.ipLen, o.ck0.ipId], e.get hdr₂ = e.get hdr₁ :=
    fun e he => hsame₂.get_eq (hfit.tcp_clear he)
  have hflags₁ : o.ck1.tcpFlags.get hdr₁ = o.ck1.tcpFlags.get hdr :=
    hsame₁.get_eq fun d hd => (hfit.tcp_clear hd _ (by simp)).symm
  rw [hflags₁] at hflags
  refine ⟨?_, ?_, ?_, ?_, ?_⟩
  · rw [hkeep _ (by simp), hkeep' _ (by simp), hlen, ofBe_htons]
  · rw [hkeep _ (by simp), hkeep' _ (by simp), hid]
    have hbe := ofBe_htons (o.ipid + seg)
    omega
  · rw [hkeep _ (by simp), hseq, ofBe_ofInt]
  · rw [hkeep _ (by simp), hflags]
  · refine (hsame₁.mono ?_).trans ((hsame₂.mono ?_).trans (hsame₃.mono ?_))
    · simp [tsoFields]
    · simp [tsoFields]
    · intro e he
      rw [tsoFields, List.append_assoc]
      exact List.mem_append_right _ he

/-! ## All segments -/

/-- A frame that begins with a header of `n` bytes, with `left` bytes to go of which
`avail` are there. -/
structure SegmentFrame (n mss left avail : Nat) (P : List U8 → Prop) (frame : List U8) : Prop where
  length : frame.length = n + min (min left mss) avail
  header : P (frame.take n)

/-- **The run.** What a segment keeps of the header copy holds before each of them, and
what it makes of the header holds of each frame. Frame `k` has `left - k * mss` bytes to
go, and there is one as long as that is something. -/
theorem txSegments_run {mem : Mem} {o : TsoInfo} {n : Nat} {I : Nat → List U8 → Prop}
    {P : Nat → Nat → List U8 → Prop} (hipcs : o.ipcs.length = 2) (hmss : 1 ≤ o.mss)
    (hmax : o.mss < 2 ^ 16) (hroom : n ≤ 259)
    (hstep : ∀ {seg left : Nat} {hdr hdr' : List U8} {pieces : List TxIovec}, hdr.length = n →
      I seg hdr → txSegmentHeader mem o hdr pieces seg left (min left o.mss) = .ok hdr' →
      P seg left hdr' ∧ (o.mss < left → I (seg + 1) hdr')) :
    ∀ {fuel : Nat} {hdr : List U8} {payload : List TxIovec} {seg left : Nat}
      {frames r : List (List U8)}, hdr.length = n → (left ≠ 0 → I seg hdr) →
      txSegments mem o fuel hdr payload seg left frames = .ok r →
      ∃ new, r = frames ++ new ∧ (∀ k, k < new.length ↔ k * o.mss < left) ∧
        ∀ k frame, new[k]? = some frame → SegmentFrame n o.mss (left - k * o.mss)
          (txBytes payload - k * o.mss) (P (seg + k) (left - k * o.mss)) frame := by
  intro fuel
  induction fuel with
  | zero => intro hdr payload seg left frames r _ _ h; cases h
  | succ fuel ih =>
    intro hdr payload seg left frames r hlen hinv h
    rw [txSegments] at h
    split at h
    · next hzero =>
      cases h
      exact ⟨[], (List.append_nil _).symm, by simp [hzero], by simp⟩
    · next hsome =>
      obtain ⟨hdr', hseg, h⟩ := Except.bind_eq_ok.1 h
      obtain ⟨frame, hframe, h⟩ := Except.bind_eq_ok.1 h
      have hlen' := (txSegmentHeader_touches hipcs seg left (min left o.mss)).length hseg
      rw [hlen] at hlen'
      obtain ⟨hhdr, hnext⟩ := hstep hlen (hinv hsome) hseg
      obtain ⟨hcat, hcount, -, -, -⟩ := txTakePayload_spec mem payload (min left o.mss)
      have hcat' := congrArg List.length hcat
      rw [List.length_append, length_iovBytes, length_iovBytes, length_iovBytes] at hcat'
      have hrest : txBytes (txTakePayload payload (min left o.mss)).2 =
          txBytes payload - min left o.mss := by omega
      rw [dmProcessTx_segment (by omega) (by omega)] at hframe
      cases hframe
      obtain ⟨new, hr, hcnt, hnew⟩ := ih hlen' (fun hmore => hnext (by omega)) h
      refine ⟨(hdr' ++ iovBytes mem (txTakePayload payload (min left o.mss)).1) :: new, ?_, ?_, ?_⟩
      · rw [hr, List.append_assoc]
        rfl
      · intro k
        cases k with
        | zero => simp; omega
        | succ k =>
          rw [List.length_cons, Nat.succ_lt_succ_iff, hcnt k, Nat.succ_mul]
          omega
      · intro k frame hk
        cases k with
        | zero =>
          cases hk
          refine ⟨?_, ?_⟩
          · simp only [Nat.zero_mul, Nat.sub_zero]
            rw [List.length_append, length_iovBytes, hlen', hcount]
          · rw [← hlen', List.take_left]
            simpa using hhdr
        | succ k =>
          have hlt : k * o.mss < left - min left o.mss :=
            (hcnt k).1 (Nat.succ_lt_succ_iff.1 (List.getElem?_eq_some_iff.1 hk).1)
          have hfull : min left o.mss = o.mss := by omega
          have hframe := hnew k frame hk
          rw [hrest, hfull, Nat.sub_sub, Nat.sub_sub, Nat.add_comm o.mss, ← Nat.succ_mul,
            Nat.add_assoc, Nat.add_comm 1] at hframe
          exact hframe

/-- The payload that frames with a header of `n` bytes carry. -/
def payloadBytes (n : Nat) (frames : List (List U8)) : Nat := (frames.map (·.length - n)).sum

/-- The payload of the first `k` frames of a run. -/
theorem payloadBytes_take {n mss left avail : Nat} {P : Nat → List U8 → Prop}
    {frames : List (List U8)} (hcnt : ∀ k, k < frames.length ↔ k * mss < left)
    (hframes : ∀ k frame, frames[k]? = some frame →
      SegmentFrame n mss (left - k * mss) (avail - k * mss) (P k) frame) :
    ∀ {k : Nat}, k * mss < left → payloadBytes n (frames.take k) = min (k * mss) avail := by
  intro k
  induction k with
  | zero => intro _; simp [payloadBytes]
  | succ k ih =>
    intro hlt
    rw [Nat.succ_mul] at hlt ⊢
    have hk : k < frames.length := (hcnt k).2 (by omega)
    have hlen := (hframes k _ (List.getElem?_eq_getElem hk)).length
    have hbefore := ih (by omega)
    rw [payloadBytes] at hbefore ⊢
    rw [List.take_succ_eq_append_getElem hk, List.map_append, List.sum_append, hbefore]
    simp only [List.map_cons, List.map_nil, List.sum_cons, List.sum_nil]
    omega

/-- The last frame of a run is the one that has at most `mss` bytes to go. -/
theorem last_frame_iff {mss left : Nat} {frames : List (List U8)}
    (hcnt : ∀ k, k < frames.length ↔ k * mss < left) {k : Nat} (hk : k < frames.length) :
    k + 1 = frames.length ↔ left - k * mss ≤ mss := by
  have hnext := hcnt (k + 1)
  rw [Nat.succ_mul] at hnext
  omega

/-! ## The segments of a TCP packet -/

/-- FIN and PSH cleared. -/
def clearFinPush (flags : List U8) : List U8 := flags.map (· &&& ~~~0x09#8)

theorem clearFinPush_idem (flags : List U8) :
    clearFinPush (clearFinPush flags) = clearFinPush flags := by
  simp [clearFinPush, BitVec.and_assoc]

theorem clearFinPush_eq_self {flags : List U8} :
    clearFinPush flags = flags ↔ ∀ f ∈ flags, f &&& 0x09#8 = 0 := by
  have hbyte : ∀ f : U8, f &&& ~~~0x09#8 = f ↔ f &&& 0x09#8 = 0 := by decide
  induction flags with
  | nil => simp [clearFinPush]
  | cons f flags ih =>
    rw [clearFinPush, List.map_cons, List.cons.injEq, hbyte, List.forall_mem_cons]
    exact and_congr_right fun _ => ih

/-- The header copy before segment `seg`, against the packet's header `hdr`. -/
structure TsoInfo.Before (o : TsoInfo) (hdr : List U8) (seg : Nat) (now : List U8) : Prop where
  same : SameBut (tsoFields o.ck0 o.ck1) hdr now
  flags : o.ck1.tcpFlags.get now =
    if seg = 0 then o.ck1.tcpFlags.get hdr else clearFinPush (o.ck1.tcpFlags.get hdr)

/-- The header of segment `seg`, with `left` bytes to go. -/
structure TsoInfo.Sent (o : TsoInfo) (hdr : List U8) (seg left : Nat) (sent : List U8) : Prop where
  len : (ofBe (o.ck0.ipLen.get sent) : Int) =
    ((hdr.length : Int) - o.ck0.ckStart.toNat + (min left o.mss : Nat)) % 2 ^ 16
  id : ofBe (o.ck0.ipId.get sent) = (o.ipid + seg) % 2 ^ 16
  seq : (ofBe (o.ck1.tcpSeq.get sent) : Int) = ((o.tcpseq : Int) + o.paylen - left) % 2 ^ 32
  flags : o.ck1.tcpFlags.get sent =
    if seg = 0 ∧ left ≤ o.mss then o.ck1.tcpFlags.get hdr
    else clearFinPush (o.ck1.tcpFlags.get hdr)
  same : SameBut (tsoFields o.ck0 o.ck1) hdr sent

/-- A length that fits is stored as it is. -/
theorem TsoInfo.Sent.len_eq {o : TsoInfo} {hdr sent : List U8} {seg left : Nat}
    (h : o.Sent hdr seg left sent) (hstart : o.ck0.ckStart.toNat ≤ hdr.length)
    (hfits : hdr.length - o.ck0.ckStart.toNat + min left o.mss < 2 ^ 16) :
    ofBe (o.ck0.ipLen.get sent) = hdr.length - o.ck0.ckStart.toNat + min left o.mss := by
  have hlen := h.len
  omega

/-- The step: one segment is sent, and the copy is ready for the next. -/
theorem TsoInfo.Before.sent {o : TsoInfo} {hdr now hdr' : List U8} {seg left : Nat}
    (h : o.Before hdr seg now) (he : o.Edited seg left (min left o.mss) now hdr') :
    o.Sent hdr seg left hdr' ∧ (o.mss < left → o.Before hdr (seg + 1) hdr') := by
  have hflags : o.ck1.tcpFlags.get hdr' =
      if seg = 0 ∧ left ≤ o.mss then o.ck1.tcpFlags.get hdr
      else clearFinPush (o.ck1.tcpFlags.get hdr) := by
    have hidem := clearFinPush_idem (o.ck1.tcpFlags.get hdr)
    rw [he.flags, h.flags]
    by_cases hmore : o.mss < left
    · have hno : ¬ (seg = 0 ∧ left ≤ o.mss) := fun hno => Nat.not_le.2 hmore hno.2
      rw [if_pos (by omega), if_neg hno]
      by_cases hseg : seg = 0
      · rw [if_pos hseg]
        rfl
      · rw [if_neg hseg]
        exact hidem
    · rw [if_neg (by omega)]
      by_cases hseg : seg = 0
      · rw [if_pos hseg, if_pos ⟨hseg, Nat.not_lt.1 hmore⟩]
      · rw [if_neg hseg, if_neg fun hno => hseg hno.1]
  refine ⟨⟨?_, he.id, he.seq, hflags, h.same.trans he.same⟩, fun hmore => ⟨h.same.trans he.same, ?_⟩⟩
  · rw [← h.same.length]
    exact he.len
  · rw [hflags, if_neg fun hno => Nat.not_le.2 hmore hno.2, if_neg (Nat.succ_ne_zero seg)]

/-! ## What the headers should say -/

/-- The header of segment `k`, which comes after `sent` bytes of payload and has `paylen`
of its own, against the header of the packet. -/
structure TsoHeaderOk (ck0 ck1 : CkInfo) (hdr : List U8) (k sent paylen : Nat) (last : Bool)
    (seg : List U8) : Prop where
  len : ofBe (ck0.ipLen.get seg) = hdr.length - ck0.ckStart.toNat + paylen
  id : ofBe (ck0.ipId.get seg) = (ofBe (ck0.ipId.get hdr) + k) % 2 ^ 16
  seq : ofBe (ck1.tcpSeq.get seg) = (ofBe (ck1.tcpSeq.get hdr) + sent) % 2 ^ 32
  flags : ck1.tcpFlags.get seg =
    if last then ck1.tcpFlags.get hdr else clearFinPush (ck1.tcpFlags.get hdr)
  same : SameBut (tsoFields ck0 ck1) hdr seg

/-- All frames have the headers they should. -/
def TsoHeadersOk (ck0 ck1 : CkInfo) (hdr : List U8) (frames : List (List U8)) : Prop :=
  ∀ k frame, frames[k]? = some frame →
    TsoHeaderOk ck0 ck1 hdr k (payloadBytes hdr.length (frames.take k))
      (frame.length - hdr.length) (decide (k + 1 = frames.length)) (frame.take hdr.length)

/-- What the reads before the loop have found in the header. -/
theorem txTsoInfo_fields {cd : E1000ContextDesc} {hdr : List U8} {ck0 ck1 : CkInfo} {o : TsoInfo}
    (ho : txTsoInfo cd hdr ck0 ck1 = .ok o) :
    o.ip = ((cd.cmdAndLength &&& e1000TxdCmdIP) != 0) ∧ o.ipid = ofBe (ck0.ipId.get hdr) ∧
      o.tcpseq = ofBe (ck1.tcpSeq.get hdr) := by
  obtain ⟨ipid, hipid, ho⟩ := Except.bind_eq_ok.1 ho
  obtain ⟨tcpseq, hseq, ho⟩ := Except.bind_eq_ok.1 ho
  obtain ⟨ipcs, -, ho⟩ := Except.bind_eq_ok.1 ho
  obtain ⟨tcpcs, -, ho⟩ := Except.bind_eq_ok.1 ho
  cases ho
  obtain ⟨-, rfl⟩ := readHdr_eq_ok.1 hipid
  obtain ⟨-, rfl⟩ := readHdr_eq_ok.1 hseq
  exact ⟨rfl, rfl, rfl⟩

/-- **The headers are right** if and only if there is nothing to send, or the payload is
there, its length fits, and there is one segment or no flag to clear. -/
theorem tsoHeadersOk_iff {o : TsoInfo} {hdr : List U8} {frames : List (List U8)} {avail : Nat}
    (hmss : 1 ≤ o.mss) (hmax : o.mss < 2 ^ 16) (hroom : hdr.length ≤ 259)
    (hfit : TsoFieldsFit hdr.length o.ck0 o.ck1)
    (hid : o.ipid = ofBe (o.ck0.ipId.get hdr)) (hseq : o.tcpseq = ofBe (o.ck1.tcpSeq.get hdr))
    (hcnt : ∀ k, k < frames.length ↔ k * o.mss < o.paylen)
    (hframes : ∀ k frame, frames[k]? = some frame →
      SegmentFrame hdr.length o.mss (o.paylen - k * o.mss) (avail - k * o.mss)
        (o.Sent hdr k (o.paylen - k * o.mss)) frame) :
    TsoHeadersOk o.ck0 o.ck1 hdr frames ↔
      (o.paylen = 0 ∨ o.paylen ≤ avail ∧
        hdr.length - o.ck0.ckStart.toNat + min o.paylen o.mss < 2 ^ 16 ∧
        (o.paylen ≤ o.mss ∨ ∀ f ∈ o.ck1.tcpFlags.get hdr, f &&& 0x09#8 = 0)) := by
  have hstart : o.ck0.ckStart.toNat + 2 + 2 ≤ hdr.length := hfit.within o.ck0.ipLen (by simp [tsoFields])
  constructor
  · intro hok
    rcases Nat.eq_zero_or_pos o.paylen with hzero | hpos
    · exact .inl hzero
    right
    -- the frame that is last shows how much payload there was, and the flags
    have hsome : 0 < frames.length := (hcnt 0).2 (by omega)
    obtain ⟨k, hk⟩ : ∃ k, k + 1 = frames.length := ⟨frames.length - 1, by omega⟩
    have hklt : k * o.mss < o.paylen := (hcnt k).1 (by omega)
    have hkend := (last_frame_iff hcnt (by omega)).1 hk
    have hframe := List.getElem?_eq_getElem (by omega : k < frames.length)
    have hframe₀ := List.getElem?_eq_getElem hsome
    have hs := hframes k _ hframe
    have havail : o.paylen ≤ avail := by
      have hlen := (hok k _ hframe).len
      have hslen := hs.header.len
      have hl := hs.length
      omega
    have hfits : hdr.length - o.ck0.ckStart.toNat + min o.paylen o.mss < 2 ^ 16 := by
      have hlen₀ := (hok 0 _ hframe₀).len
      have hslen₀ := (hframes 0 _ hframe₀).header.len
      have hl₀ := (hframes 0 _ hframe₀).length
      rw [Nat.zero_mul, Nat.sub_zero] at hslen₀ hl₀
      omega
    refine ⟨havail, hfits, ?_⟩
    rcases Nat.lt_or_ge o.mss o.paylen with hmore | hone
    · right
      have hkpos : k ≠ 0 := by
        rintro rfl
        omega
      have hflags := (hok k _ hframe).flags
      rw [hs.header.flags, decide_eq_true hk, if_neg fun hno => hkpos hno.1, if_pos rfl] at hflags
      exact clearFinPush_eq_self.1 hflags
    · exact .inl hone
  · intro hcond k frame hframe
    have hk : k < frames.length := (List.getElem?_eq_some_iff.1 hframe).1
    have hklt := (hcnt k).1 hk
    obtain ⟨havail, hfits, hflags⟩ := hcond.resolve_left (by omega)
    have hend := last_frame_iff hcnt hk
    obtain ⟨hlen, hs⟩ := hframes k frame hframe
    have hsseq := hs.seq
    have hbytes := payloadBytes_take hcnt hframes hklt
    have hpayload : frame.length - hdr.length = min (o.paylen - k * o.mss) o.mss := by
      rw [hlen, Nat.add_sub_cancel_left]
      exact Nat.min_eq_left
        (Nat.le_trans (Nat.min_le_left _ _) (Nat.sub_le_sub_right havail _))
    have hmin : min (o.paylen - k * o.mss) o.mss ≤ min o.paylen o.mss :=
      min_le_min_right _ (Nat.sub_le _ _)
    refine ⟨?_, ?_, ?_, ?_, hs.same⟩
    · rw [hpayload]
      exact hs.len_eq (by omega) (Nat.lt_of_le_of_lt (Nat.add_le_add_left hmin _) hfits)
    · rw [hs.id, hid]
    · rw [hbytes, ← hseq]
      omega
    · rw [hs.flags]
      by_cases hle : o.paylen - k * o.mss ≤ o.mss
      · rw [decide_eq_true (hend.2 hle), if_pos rfl]
        split
        · rfl
        · next hno =>
          refine clearFinPush_eq_self.2 (hflags.resolve_left fun hone => hno ⟨?_, hle⟩)
          by_contra hkpos
          have hturn : o.mss ≤ k * o.mss := Nat.le_mul_of_pos_left _ (Nat.pos_of_ne_zero hkpos)
          omega
      · rw [decide_eq_false fun he => hle (hend.1 he), if_neg fun hno => hle hno.2,
          if_neg Bool.false_ne_true]

/-! ## A packet -/

/-- A tag is inserted only behind the two addresses. -/
theorem txInsertVlan_addrs {vlan : Bool} {vet special : U16} {hdr hdr' : List U8}
    (h : txInsertVlan vlan vet special hdr = .ok hdr') : vlan = true → 12 ≤ hdr.length := by
  have hinsert := @txInsertVlan_touches vlan hdr vet special
  rw [← inside_txVlanTrace]
  by_contra hout
  obtain ⟨e, he⟩ := hinsert.outside hout
  rw [h] at he
  cases he

/-- Fields inside the header are all that "Doing TSO" needs. -/
theorem TsoFieldsFit.hdrFits {cd : E1000ContextDesc} {vlan : Bool} {ck0 ck1 : CkInfo} {n : Nat}
    (h : TsoFieldsFit n ck0 ck1) (haddrs : vlan = true → 12 ≤ (byteAt cd.tcpSegSetup 8).toNat)
    (hn : n = txHdrRoom (byteAt cd.tcpSegSetup 8).toNat vlan) : TsoHdrFits cd vlan ck0 ck1 := by
  have hid : ck0.ckStart.toNat + 4 + 2 ≤ n := h.within ck0.ipId (by simp [tsoFields])
  have hseq : ck1.ckStart.toNat + 4 + 4 ≤ n := h.within ck1.tcpSeq (by simp [tsoFields])
  have hflags : ck1.ckStart.toNat + 13 + 1 ≤ n := h.within ck1.tcpFlags (by simp [tsoFields])
  refine ⟨haddrs, hn ▸ hid, hn ▸ hseq, hn ▸ h.ipcs, fun hv => ?_, fun _ _ => hn ▸ hflags⟩
  rw [← hn]
  exact h.within ⟨ck1.ckOff.toNat, 2⟩ (by simp [tsoFields, CkInfo.field, hv])

/-- A packet that asks for segmentation, once its header is ready: it is sent as the
frames of the loop. -/
theorem e82545TransmitPacket_segments {env : TxEnv} {x : TxSide} {head tail dsize fuel : Nat}
    {dsc : E1000TxUdesc} {last n : Nat} {l : TxLocals} {hdr hdr' : List U8} {rest : List TxIovec}
    (hscan : e82545TxScan env x.txctx x.ring tail dsize fuel head 0 .start =
      .ok (.packet dsc last n l))
    (htse : dsc.tse env.build = true) (hcnt : l.iovcnt ≤ i82545MaxTxsegs)
    (hmss : 1 ≤ (halfAt x.txctx.tcpSegSetup 16).toNat)
    (hcopy : txCopyHeader env.mem l.iov (byteAt x.txctx.tcpSegSetup 8).toNat = .ok (hdr, rest))
    (hvlan : txInsertVlan (txVlan env dsc) (env.vet.setWidth 16) (halfAt (dsc.upper env.build) 16)
      hdr = .ok hdr')
    (hfits : TsoHdrFits x.txctx (txVlan env dsc)
      ((x.txctx.ipCk (dsc.ixsm env.build)).shift (txVlan env dsc))
      ((x.txctx.tcpCk (dsc.txsm env.build)).shift (txVlan env dsc))) :
    hdr'.length ≤ 259 ∧ ∃ o, txTsoInfo x.txctx hdr'
        ((x.txctx.ipCk (dsc.ixsm env.build)).shift (txVlan env dsc))
        ((x.txctx.tcpCk (dsc.txsm env.build)).shift (txVlan env dsc)) = .ok o ∧
      ∀ fuel', o.paylen < fuel' → ∃ frames,
        e82545TransmitPacket env fuel' x.txctx dsc l = .ok frames ∧
        txSegments env.mem o fuel' hdr' rest 0 o.paylen [] = .ok frames := by
  obtain ⟨-, htse', hcks⟩ := e82545TxScan_tso hscan
  obtain ⟨h0, h1⟩ := hcks htse
  have hhdr := txCopyHeader_hdr hcopy
  have hlen := (@txInsertVlan_touches (txVlan env dsc) hdr (env.vet.setWidth 16)
    (halfAt (dsc.upper env.build) 16)).length hvlan
  rw [hhdr] at hlen
  have hroom := txHdrRoom_le (Nat.le_of_lt_succ (byteAt x.txctx.tcpSegSetup 8).isLt) (txVlan env dsc)
  have hmax : (halfAt x.txctx.tcpSegSetup 16).toNat < 2 ^ 16 := (halfAt x.txctx.tcpSegSetup 16).isLt
  obtain ⟨o, ho, hcut, hofits⟩ := hfits.info hlen
  refine ⟨hlen ▸ hroom, o, ho, fun fuel' hfuel => ?_⟩
  obtain ⟨frames, hframes⟩ := @txSegments_returns env.mem o hcut.ipcs (hcut.mss ▸ hmss)
    (hcut.mss ▸ hmax) fuel' hdr' rest 0 o.paylen [] (hlen ▸ hroom) hfuel hofits
  refine ⟨frames, ?_, hframes⟩
  rw [e82545TransmitPacket_tso (htse'.trans htse) hcnt hcopy, h0, h1]
  exact (Except.bind_ok hvlan).trans ((Except.bind_ok ho).trans hframes)

/-- **TCP segments over IPv4.** With the fields inside the header and apart, a packet is
sent, and all its headers are right if and only if it has no payload, or the payload is
there, its length and the header's fit into 16 bits, and it is one segment or neither FIN
nor PSH is set. -/
theorem tso_rewrites_headers_iff {env : TxEnv} {x : TxSide} {head tail dsize fuel : Nat}
    {dsc : E1000TxUdesc} {last n : Nat} {l : TxLocals} {hdr hdr' : List U8} {rest : List TxIovec}
    (hscan : e82545TxScan env x.txctx x.ring tail dsize fuel head 0 .start =
      .ok (.packet dsc last n l))
    (htse : dsc.tse env.build = true) (hcnt : l.iovcnt ≤ i82545MaxTxsegs)
    (htcp : x.txctx.cmdAndLength &&& e1000TxdCmdTCP ≠ 0)
    (hip : x.txctx.cmdAndLength &&& e1000TxdCmdIP ≠ 0)
    (hmss : 1 ≤ (halfAt x.txctx.tcpSegSetup 16).toNat)
    (hcopy : txCopyHeader env.mem l.iov (byteAt x.txctx.tcpSegSetup 8).toNat = .ok (hdr, rest))
    (hvlan : txInsertVlan (txVlan env dsc) (env.vet.setWidth 16) (halfAt (dsc.upper env.build) 16)
      hdr = .ok hdr')
    (hfit : TsoFieldsFit hdr'.length ((x.txctx.ipCk (dsc.ixsm env.build)).shift (txVlan env dsc))
      ((x.txctx.tcpCk (dsc.txsm env.build)).shift (txVlan env dsc)))
    {fuel' : Nat} (hfuel : (x.txctx.cmdAndLength &&& 0x000fffff#32).toNat < fuel') :
    ∃ frames, e82545TransmitPacket env fuel' x.txctx dsc l = .ok frames ∧
      (TsoHeadersOk ((x.txctx.ipCk (dsc.ixsm env.build)).shift (txVlan env dsc))
          ((x.txctx.tcpCk (dsc.txsm env.build)).shift (txVlan env dsc)) hdr' frames ↔
        ((x.txctx.cmdAndLength &&& 0x000fffff#32).toNat = 0 ∨
          (x.txctx.cmdAndLength &&& 0x000fffff#32).toNat ≤ txBytes rest ∧
          hdr'.length - ((x.txctx.ipCk (dsc.ixsm env.build)).shift (txVlan env dsc)).ckStart.toNat +
            min (x.txctx.cmdAndLength &&& 0x000fffff#32).toNat
              (halfAt x.txctx.tcpSegSetup 16).toNat < 2 ^ 16 ∧
          ((x.txctx.cmdAndLength &&& 0x000fffff#32).toNat ≤ (halfAt x.txctx.tcpSegSetup 16).toNat ∨
            ∀ f ∈ ((x.txctx.tcpCk (dsc.txsm env.build)).shift (txVlan env dsc)).tcpFlags.get hdr',
              f &&& 0x09#8 = 0))) := by
  have hhdr := txCopyHeader_hdr hcopy
  have hlen := (@txInsertVlan_touches (txVlan env dsc) hdr (env.vet.setWidth 16)
    (halfAt (dsc.upper env.build) 16)).length hvlan
  rw [hhdr] at hlen
  have hfits := hfit.hdrFits (hhdr ▸ txInsertVlan_addrs hvlan) hlen
  obtain ⟨hroom, o, ho, hsend⟩ := e82545TransmitPacket_segments hscan htse hcnt hmss hcopy hvlan hfits
  have hcut := (txTsoInfo_eq_ok ho).2
  obtain ⟨hoip, hid, hseq⟩ := txTsoInfo_fields ho
  have hmax : o.mss < 2 ^ 16 := hcut.mss ▸ (halfAt x.txctx.tcpSegSetup 16).isLt
  rw [← hcut.paylen] at hfuel ⊢
  rw [← hcut.mss] at hmss ⊢
  rw [← hcut.ck0] at hfit hid ⊢
  rw [← hcut.ck1] at hfit hseq ⊢
  obtain ⟨frames, hpacket, hframes⟩ := hsend fuel' hfuel
  obtain ⟨new, hnew, hcount, hsent⟩ := @txSegments_run env.mem o hdr'.length (o.Before hdr')
    (o.Sent hdr') hcut.ipcs hmss hmax hroom
    (fun _ hbefore hseg => hbefore.sent (txSegmentHeader_edited hcut.ipcs
      (hoip.trans (bne_iff_ne.2 hip)) (hcut.tcp.trans (bne_iff_ne.2 htcp)) hfit hseg))
    _ _ _ _ _ _ _ rfl (fun _ => ⟨.refl _ _, rfl⟩) hframes
  rw [List.nil_append] at hnew
  subst hnew
  simp only [Nat.zero_add] at hsent
  exact ⟨frames, hpacket, tsoHeadersOk_iff hmss hmax hroom hfit hid hseq hcount hsent⟩

/-- 64 bytes to be sent as a TCP/IPv4 header of 40 bytes and three segments. -/
def tcpPacket : TxSide where
  ring := fun _ => ⟨0, 0, 0x27100040, 0x0300, 0, 0⟩
  txctx := ⟨0x20000a00, 0x2414, 0x03000018, 0x000a2800⟩
  wire := []

/-- Memory in which the packet has all its flags set. -/
def tcpEnv : TxEnv := ⟨.integer, ⟨0⟩, 0, 0, fun _ => 0xff⟩

/-- The locals past its one descriptor. -/
def tcpLocals : TxLocals :=
  ((TxLocals.start.first .integer (tcpPacket.ring 0)).addBuffer tcpEnv (tcpPacket.ring 0)).final
    .integer tcpPacket.txctx (tcpPacket.ring 0)

/-- Its fields are apart. -/
theorem tcpPacket_fits : TsoFieldsFit 40 (tcpPacket.txctx.ipCk true) (tcpPacket.txctx.tcpCk true) :=
  ⟨by decide, by decide, by decide⟩

theorem tso_rewrites_headers_iff_three : ∃ frames,
    e82545TransmitPacket tcpEnv 25 tcpPacket.txctx (tcpPacket.ring 0) tcpLocals = .ok frames ∧
      (TsoHeadersOk (tcpPacket.txctx.ipCk true) (tcpPacket.txctx.tcpCk true)
          (List.replicate 40 0xff) frames ↔
        (24 = 0 ∨ 24 ≤ txBytes [.guest 40 24] ∧ 40 - 0 + min 24 10 < 2 ^ 16 ∧
          (24 ≤ 10 ∨ ∀ f ∈ (tcpPacket.txctx.tcpCk true).tcpFlags.get (List.replicate 40 0xff),
            f &&& 0x09#8 = 0))) :=
  @tso_rewrites_headers_iff tcpEnv tcpPacket 0 1 8 1 (tcpPacket.ring 0) 0 0 tcpLocals
    (List.replicate 40 0xff) (List.replicate 40 0xff) [.guest 40 24] rfl (by decide) (by decide)
    (by decide) (by decide) (by decide) rfl rfl tcpPacket_fits 25 (by decide)

/-- The last of three segments should have the flags that the first one has cleared. -/
theorem tso_last_flags_lost :
    ¬ ∀ (env : TxEnv) (x : TxSide) (head tail dsize fuel : Nat) (dsc : E1000TxUdesc) (last n : Nat)
      (l : TxLocals) (hdr hdr' : List U8) (rest : List TxIovec),
      e82545TxScan env x.txctx x.ring tail dsize fuel head 0 .start = .ok (.packet dsc last n l) →
      dsc.tse env.build = true → l.iovcnt ≤ i82545MaxTxsegs →
      x.txctx.cmdAndLength &&& e1000TxdCmdTCP ≠ 0 → x.txctx.cmdAndLength &&& e1000TxdCmdIP ≠ 0 →
      1 ≤ (halfAt x.txctx.tcpSegSetup 16).toNat →
      txCopyHeader env.mem l.iov (byteAt x.txctx.tcpSegSetup 8).toNat = .ok (hdr, rest) →
      txInsertVlan (txVlan env dsc) (env.vet.setWidth 16) (halfAt (dsc.upper env.build) 16) hdr =
        .ok hdr' →
      TsoFieldsFit hdr'.length ((x.txctx.ipCk (dsc.ixsm env.build)).shift (txVlan env dsc))
        ((x.txctx.tcpCk (dsc.txsm env.build)).shift (txVlan env dsc)) →
      ∀ fuel' frames, e82545TransmitPacket env fuel' x.txctx dsc l = .ok frames →
        TsoHeadersOk ((x.txctx.ipCk (dsc.ixsm env.build)).shift (txVlan env dsc))
          ((x.txctx.tcpCk (dsc.txsm env.build)).shift (txVlan env dsc)) hdr' frames := by
  intro h
  have hsent : e82545TransmitPacket tcpEnv 25 tcpPacket.txctx (tcpPacket.ring 0) tcpLocals =
      .ok (outcome (e82545TransmitPacket tcpEnv 25 tcpPacket.txctx (tcpPacket.ring 0) tcpLocals)
        []) := eq_ok_outcome (by decide +kernel)
  have hok := h tcpEnv tcpPacket 0 1 8 1 (tcpPacket.ring 0) 0 0 tcpLocals
    (List.replicate 40 0xff) (List.replicate 40 0xff) [.guest 40 24] rfl (by decide) (by decide)
    (by decide) (by decide) (by decide) rfl rfl tcpPacket_fits 25 _ hsent
  have hflags := (hok 2 _ (List.getElem?_eq_getElem (by decide +kernel))).flags
  revert hflags
  decide +kernel

end DeviceModel
