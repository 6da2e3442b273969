import DeviceModel.E82545.Backend
import DeviceModel.E82545.Checksums

/-!
# VLAN insertion

The tag goes behind the two addresses of the header copy, and the offsets of the
checksums move with it. The header copy is not the same with a tag as without one, nor are
the vectors that follow it; but a checksum depends only on the bytes that it covers. So a
packet with its checksums filled in is described here as a list of bytes, and the tag is
inserted into such lists.
-/

namespace DeviceModel

/-! ## A tag in a list of bytes -/

/-- The bytes with a tag behind the first twelve. -/
def insertTag (tag bytes : List U8) : List U8 := bytes.take 12 ++ tag ++ bytes.drop 12

section InsertTag

variable {tag bytes : List U8}

theorem insertTag_append (more : List U8) (h : 12 ≤ bytes.length) :
    insertTag tag (bytes ++ more) = insertTag tag bytes ++ more := by
  simp [insertTag, List.take_append_of_le_length h, List.drop_append_of_le_length h]

/-- What is behind the twelve bytes is behind the tag. -/
theorem drop_insertTag {n : Nat} (hn : 12 ≤ n) (h : 12 ≤ bytes.length) :
    (insertTag tag bytes).drop (n + tag.length) = bytes.drop n := by
  have hfront : (bytes.take 12 ++ tag).length = 12 + tag.length := by
    rw [List.length_append, List.length_take_of_le h]
  obtain ⟨k, rfl⟩ := Nat.exists_eq_add_of_le hn
  have hoff : 12 + k + tag.length = (bytes.take 12 ++ tag).length + k := by omega
  rw [insertTag, hoff, List.drop_length_add_append, List.drop_drop]

theorem take_insertTag {n : Nat} (hn : 12 ≤ n) (h : 12 ≤ bytes.length) :
    (insertTag tag bytes).take (n + tag.length) = insertTag tag (bytes.take n) := by
  have hfront : (bytes.take 12 ++ tag).length = 12 + tag.length := by
    rw [List.length_append, List.length_take_of_le h]
  obtain ⟨k, rfl⟩ := Nat.exists_eq_add_of_le hn
  have hoff : 12 + k + tag.length = (bytes.take 12 ++ tag).length + k := by omega
  rw [insertTag, hoff, List.take_length_add_append, insertTag, List.take_take, List.drop_take,
    Nat.min_eq_left (Nat.le_add_right 12 k), Nat.add_sub_cancel_left]

/-- A store behind the twelve bytes. -/
theorem putAt_insertTag {ys : List U8} {off : Nat} (hoff : 12 ≤ off)
    (h : off + ys.length ≤ bytes.length) :
    putAt (off + tag.length) ys (insertTag tag bytes) = insertTag tag (putAt off ys bytes) := by
  have hlong : 12 ≤ (bytes.take off).length := by
    rw [List.length_take]
    omega
  have hend : off + tag.length + ys.length = off + ys.length + tag.length := by omega
  rw [putAt, putAt, hend, take_insertTag hoff (by omega), drop_insertTag (by omega) (by omega),
    List.append_assoc, List.append_assoc, insertTag_append _ hlong]

end InsertTag

/-! ## A checksum in a list of bytes -/

namespace CkInfo

/-- `bytes'` is `bytes` with the checksum filled in, if it is asked for. -/
def Fills (ck : CkInfo) (bytes bytes' : List U8) : Prop :=
  if ck.ckValid then
    ∃ c : U16, OnesSum 256 c.toNat (byteNats (ck.covered bytes)) ∧
      bytes' = putAt ck.ckOff.toNat (le16 (~~~c)) bytes
  else bytes' = bytes

variable {ck : CkInfo} {bytes bytes' : List U8}

/-- There is one way to fill it in. -/
theorem Fills.unique {other : List U8} (h : ck.Fills bytes bytes') (h' : ck.Fills bytes other) :
    bytes' = other := by
  rw [Fills] at h h'
  split at h
  · next hv =>
    rw [if_pos hv] at h'
    obtain ⟨c, hc, rfl⟩ := h
    obtain ⟨d, hd, rfl⟩ := h'
    have heq := hc.unique hd (Nat.le_of_lt_succ c.isLt) (Nat.le_of_lt_succ d.isLt)
    rw [BitVec.eq_of_toNat_eq heq]
  · next hv =>
    rw [if_neg hv] at h'
    rw [h, h']

/-- It changes its field only. -/
theorem Fills.sameBut (h : ck.Fills bytes bytes')
    (hin : ck.ckValid = true → ck.ckOff.toNat + 2 ≤ bytes.length) : SameBut ck.field bytes bytes' := by
  rw [Fills] at h
  rw [field]
  split at h
  · next hv =>
    obtain ⟨c, -, rfl⟩ := h
    rw [if_pos hv]
    exact @SameBut.putAt _ bytes (le16 (~~~c)) _ (hin hv)
  · next hv =>
    rw [if_neg hv, h]
    exact .refl _ _

/-- The corrected offsets: each has moved by the length of the tag. -/
structure Moved (ck : CkInfo) : Prop where
  start : (ck.shift true).ckStart.toNat = ck.ckStart.toNat + 4
  off : (ck.shift true).ckOff.toNat = ck.ckOff.toNat + 4
  stop : ck.ckLen ≠ 0 → (ck.shift true).ckLen.toNat = ck.ckLen.toNat + 4

/-- They move as they should where none of them goes round. -/
theorem moved_iff : ck.Moved ↔
    ck.ckStart.toNat < 252 ∧ ck.ckOff.toNat < 252 ∧ (ck.ckLen = 0 ∨ ck.ckLen.toNat < 65532) := by
  have hstart : (ck.shift true).ckStart.toNat = (ck.ckStart.toNat + 4) % 256 := BitVec.toNat_add _ _
  have hoff : (ck.shift true).ckOff.toNat = (ck.ckOff.toNat + 4) % 256 := BitVec.toNat_add _ _
  have hstop : ck.ckLen ≠ 0 → (ck.shift true).ckLen.toNat = (ck.ckLen.toNat + 4) % 65536 := by
    intro hlen
    have hadd : (ck.shift true).ckLen = ck.ckLen + 4 := if_pos hlen
    rw [hadd]
    exact BitVec.toNat_add _ _
  have hlt := ck.ckStart.isLt
  have hlt' := ck.ckOff.isLt
  have hlt'' := ck.ckLen.isLt
  constructor
  · rintro ⟨h, h', h''⟩
    rw [hstart] at h
    rw [hoff] at h'
    refine ⟨by omega, by omega, ?_⟩
    by_cases hlen : ck.ckLen = 0
    · exact .inl hlen
    · have hadd := h'' hlen
      rw [hstop hlen] at hadd
      right
      omega
  · rintro ⟨h, h', h''⟩
    refine ⟨by omega, by omega, fun hlen => ?_⟩
    have hle := h''.resolve_left hlen
    rw [hstop hlen]
    omega

/-- The corrected checksum covers the same bytes. -/
theorem Moved.covered {tag : List U8} (h : ck.Moved) (htag : tag.length = 4)
    (hstart : 12 ≤ ck.ckStart.toNat) (hlen : 12 ≤ bytes.length) :
    (ck.shift true).covered (insertTag tag bytes) = ck.covered bytes := by
  have hdrop := @drop_insertTag tag bytes _ hstart hlen
  rw [htag] at hdrop
  rw [CkInfo.covered, CkInfo.covered, h.start, hdrop]
  by_cases hzero : ck.ckLen = 0
  · have hstill : (ck.shift true).ckLen = 0 := (if_neg (not_not.2 hzero)).trans hzero
    rw [if_pos hzero, if_pos hstill]
  · have hstop := h.stop hzero
    have hstill : (ck.shift true).ckLen ≠ 0 := by
      intro hno
      rw [hno] at hstop
      simp at hstop
    have hcount : ck.ckLen.toNat + 4 + 1 - (ck.ckStart.toNat + 4) =
        ck.ckLen.toNat + 1 - ck.ckStart.toNat := by omega
    rw [if_neg hzero, if_neg hstill, hstop, hcount]

/-- Filling in the checksum and inserting the tag can change places. -/
theorem Fills.insertTag {tag : List U8} (h : ck.Fills bytes bytes') (htag : tag.length = 4)
    (hlen : 12 ≤ bytes.length)
    (hck : ck.ckValid = true →
      ck.Moved ∧ 12 ≤ ck.ckStart.toNat ∧ 12 ≤ ck.ckOff.toNat ∧ ck.ckOff.toNat + 2 ≤ bytes.length) :
    (ck.shift true).Fills (insertTag tag bytes) (insertTag tag bytes') := by
  rw [Fills] at h
  rw [Fills, shift_valid]
  split at h
  · next hv =>
    obtain ⟨c, hc, rfl⟩ := h
    obtain ⟨hmoved, hstart, hoff, hin⟩ := hck hv
    have hput := @putAt_insertTag tag bytes (le16 (~~~c)) _ hoff hin
    rw [htag, ← hmoved.off] at hput
    rw [if_pos hv]
    refine ⟨c, ?_, hput.symm⟩
    rw [hmoved.covered htag hstart hlen]
    exact hc
  · next hv =>
    rw [if_neg hv, h]

end CkInfo

/-- `e82545_transmit_checksum` fills the checksum in, however the bytes are divided. -/
theorem txChecksum_fills {mem : Mem} {hdr : List U8} {rest : List TxIovec} {ck : CkInfo}
    (hvecs : rest.length + 1 ≤ 66) (hbytes : hdr.length + txBytes rest < 131072)
    (hin : ck.ckValid = true → ck.ckOff.toNat + 2 ≤ hdr.length) :
    ∃ hdr', txChecksum mem hdr rest ck = .ok hdr' ∧ hdr'.length = hdr.length ∧
      ck.Fills (hdr ++ iovBytes mem rest) (hdr' ++ iovBytes mem rest) := by
  cases hv : ck.ckValid with
  | true =>
    have hle := hin hv
    have hsum := @CkInfo.cksum_onesSum ck mem hdr rest hvecs hbytes
    refine ⟨putAt ck.ckOff.toNat (le16 (~~~(ck.cksum mem hdr rest))) hdr, ?_, length_putAt hle, ?_⟩
    · rw [txChecksum, if_pos hv, e82545TransmitChecksum_eq]
      exact writeHdr_eq_ok.2 ⟨hle, rfl⟩
    · rw [CkInfo.Fills, if_pos hv]
      refine ⟨ck.cksum mem hdr rest, hsum, ?_⟩
      simp only [putAt, le16_length]
      rw [List.take_append_of_le_length (by omega), List.drop_append_of_le_length hle]
      simp only [List.append_assoc]
  | false =>
    refine ⟨hdr, ?_, rfl, ?_⟩
    · rw [txChecksum, if_neg (by simp [hv])]
    · rw [CkInfo.Fills, if_neg (by simp [hv])]

/-! ## A packet -/

/-- The tag: `VET` and the descriptor's `special`, in the order of the network. -/
def vlanTag (env : TxEnv) (dsc : E1000TxUdesc) : List U8 :=
  be16 (env.vet.setWidth 16) ++ be16 (halfAt (dsc.upper env.build) 16)

/-- The bytes of the vectors, with the tag if there is to be one. -/
def txTagged (env : TxEnv) (dsc : E1000TxUdesc) (bytes : List U8) : List U8 :=
  if txVlan env dsc then insertTag (vlanTag env dsc) bytes else bytes

/-- The header copy gets the tag. -/
theorem txInsertVlan_tagged {env : TxEnv} {dsc : E1000TxUdesc} {hdr hdr' : List U8}
    (h : txInsertVlan (txVlan env dsc) (env.vet.setWidth 16) (halfAt (dsc.upper env.build) 16) hdr =
      .ok hdr') : hdr' = txTagged env dsc hdr := by
  rw [txInsertVlan] at h
  rw [txTagged]
  cases hv : txVlan env dsc with
  | false =>
    rw [hv] at h
    exact (Except.ok.inj h).symm
  | true =>
    rw [hv, if_neg (by simp)] at h
    rw [if_pos rfl, insertTag, vlanTag, ← List.append_assoc]
    split at h
    · cases h
    · exact (Except.ok.inj h).symm

/-- A packet that is not segmented is sent as the bytes of its vectors, with the tag and
the two checksums. -/
theorem e82545TransmitPacket_fills {env : TxEnv} {cd : E1000ContextDesc} {dsc : E1000TxUdesc}
    {l : TxLocals} (htso : l.tso = false) (hcnt : l.iovcnt ≤ i82545MaxTxsegs)
    (hvecs : l.iov.length ≤ i82545MaxTxsegs)
    (hle : txHdrlen l cd (txVlan env dsc) ≤ txBytes l.iov)
    (hmax : txBytes l.iov + 4 < virtioMaxBuf) :
    ∃ mid frame, (∀ fuel, e82545TransmitPacket env fuel cd dsc l = .ok [frame]) ∧
      (l.ck0.shift (txVlan env dsc)).Fills (txTagged env dsc (iovBytes env.mem l.iov)) mid ∧
      (l.ck1.shift (txVlan env dsc)).Fills mid frame := by
  obtain ⟨hvlan, h0, h1⟩ := @txHdrlen_plain l cd (txVlan env dsc) htso
  obtain ⟨hdr, rest, hcopy, hlen⟩ := (txCopyHeader_spec env.mem l.iov _).1 hle
  have hbytes := txCopyHeader_bytes hcopy
  have hcount := congrArg List.length hbytes
  rw [List.length_append, length_iovBytes, length_iovBytes] at hcount
  have hrest := txCopyHeader_length hcopy
  rw [← hlen] at hvlan h0 h1
  obtain ⟨hdr', hinsert, hlen'⟩ := (txInsertVlan_touches (env.vet.setWidth 16)
    (halfAt (dsc.upper env.build) 16)).inside (inside_txVlanTrace.2 hvlan)
  have hroom : hdr'.length ≤ hdr.length + 4 := by
    rw [hlen', txHdrRoom]
    split
    · omega
    · split <;> omega
  -- the tag is in the header copy
  have htagged : hdr' ++ iovBytes env.mem rest = txTagged env dsc (iovBytes env.mem l.iov) := by
    rw [txInsertVlan_tagged hinsert, txTagged, txTagged, ← hbytes]
    split
    · next hv => exact (insertTag_append _ (hvlan hv)).symm
    · rfl
  rw [virtioMaxBuf] at hmax
  rw [i82545MaxTxsegs] at hvecs
  obtain ⟨hdr₁, hck₀, hlen₁, hfills₀⟩ := @txChecksum_fills env.mem hdr' rest
    (l.ck0.shift (txVlan env dsc)) (by omega) (by omega)
    (by rw [CkInfo.shift_valid, hlen']; exact fun hv => CkInfo.shift_off (h0 hv))
  obtain ⟨hdr₂, hck₁, hlen₂, hfills₁⟩ := @txChecksum_fills env.mem hdr₁ rest
    (l.ck1.shift (txVlan env dsc)) (by omega) (by omega)
    (by rw [CkInfo.shift_valid, hlen₁, hlen']; exact fun hv => CkInfo.shift_off (h1 hv))
  refine ⟨_, hdr₂ ++ iovBytes env.mem rest, fun fuel => ?_, htagged ▸ hfills₀, hfills₁⟩
  have hsent : dmProcessTx env.mem (.host hdr₂ :: rest) [] = .ok (hdr₂ ++ iovBytes env.mem rest) := by
    rw [dmProcessTx_eq, List.nil_append, iovBytes_cons, TxIovec.bytes_host]
    rw [txBytes_cons, TxIovec.len, List.length_nil, virtioMaxBuf]
    omega
  rw [e82545TransmitPacket, if_neg (Nat.not_lt.2 hcnt)]
  refine (Except.bind_ok hcopy).trans ((Except.bind_ok hinsert).trans ?_)
  rw [txSend, if_neg (by simp [htso])]
  exact (Except.bind_ok hck₀).trans ((Except.bind_ok hck₁).trans (Except.bind_ok hsent))

/-- Rounding up does not go past the packet. -/
theorem txHdrlen_le_iff {l : TxLocals} {cd : E1000ContextDesc} {vlan : Bool} (htso : l.tso = false) :
    txHdrlen l cd vlan ≤ txBytes l.iov ↔ txHdrWanted l vlan ≤ txBytes l.iov := by
  rcases txHdrlen_cases cd vlan htso with heq | ⟨v, vs, hiov, hlt, heq⟩
  · rw [heq]
  · rw [heq, hiov, txBytes_cons]
    omega

theorem txHdrWanted_untagged (l : TxLocals) : txHdrWanted l false ≤ txHdrWanted l true := by
  rw [txHdrWanted, txHdrWanted]
  simp only [Bool.false_eq_true, if_false, if_true]
  split <;> split <;> omega

/-- The device without `VME`. -/
def TxEnv.untagged (env : TxEnv) : TxEnv := { env with ctrl := env.ctrl &&& ~~~e1000CtrlVME }

theorem txVlan_untagged (env : TxEnv) (dsc : E1000TxUdesc) : txVlan env.untagged dsc = false := by
  have hclear : env.ctrl &&& ~~~e1000CtrlVME &&& e1000CtrlVME = 0 := by
    rw [BitVec.and_assoc]
    simp [e1000CtrlVME]
  rw [txVlan, TxEnv.untagged]
  dsimp only
  rw [hclear]
  rfl

/-- A packet is sent with the tag as it is sent without, and the checksums move with it. -/
structure VlanInserted (env : TxEnv) (cd : E1000ContextDesc) (dsc : E1000TxUdesc) (l : TxLocals)
    (frame plain : List U8) : Prop where
  tagged : ∀ fuel, e82545TransmitPacket env fuel cd dsc l = .ok [frame]
  untagged : ∀ fuel, e82545TransmitPacket env.untagged fuel cd dsc l = .ok [plain]
  inserted : frame = insertTag (vlanTag env dsc) plain
  gathered : SameBut (l.ck0.field ++ l.ck1.field) (iovBytes env.mem l.iov) plain
  moved : ∀ ck ∈ [l.ck0, l.ck1], ck.ckValid = true → ck.Moved

/-- **VLAN insertion** preserves a packet that is not segmented if and only if no offset of
an enabled checksum goes round when it is corrected. -/
theorem vlan_insertion_iff {env : TxEnv} {x : TxSide} {head tail dsize fuel : Nat}
    {dsc : E1000TxUdesc} {last n : Nat} {l : TxLocals}
    (hscan : e82545TxScan env x.txctx x.ring tail dsize fuel head 0 .start =
      .ok (.packet dsc last n l))
    (htso : l.tso = false) (hcnt : l.iovcnt ≤ i82545MaxTxsegs) (hvlan : txVlan env dsc = true)
    (hle : txHdrlen l x.txctx true ≤ txBytes l.iov) (hmax : txBytes l.iov + 4 < virtioMaxBuf)
    (hck : ∀ ck ∈ [l.ck0, l.ck1], ck.ckValid = true →
      12 ≤ ck.ckStart.toNat ∧ 12 ≤ ck.ckOff.toNat) :
    (∃ frame plain, VlanInserted env x.txctx dsc l frame plain) ↔
      ∀ ck ∈ [l.ck0, l.ck1], ck.ckValid = true →
        ck.ckStart.toNat < 252 ∧ ck.ckOff.toNat < 252 ∧ (ck.ckLen = 0 ∨ ck.ckLen.toNat < 65532) := by
  obtain ⟨inner, -, -, -, hgathered⟩ := e82545TxScan_gathered (.start env) hscan
  have hvecs : l.iov.length ≤ i82545MaxTxsegs := (hgathered.length hcnt).2 ▸ hcnt
  constructor
  · rintro ⟨frame, plain, h⟩ ck hmem hv
    exact CkInfo.moved_iff.1 (h.moved ck hmem hv)
  · intro hfit
    have hmoved : ∀ ck ∈ [l.ck0, l.ck1], ck.ckValid = true → ck.Moved :=
      fun ck hmem hv => CkInfo.moved_iff.2 (hfit ck hmem hv)
    have hwant := (txHdrlen_le_iff htso).1 hle
    have hle' := (@txHdrlen_le_iff l x.txctx false htso).2
      (Nat.le_trans (txHdrWanted_untagged l) hwant)
    obtain ⟨hvlan12, h0, h1⟩ := @txHdrlen_plain l x.txctx true htso
    have h12 : 12 ≤ (iovBytes env.mem l.iov).length := by
      rw [length_iovBytes]
      exact Nat.le_trans (hvlan12 rfl) hle
    have hlen := length_iovBytes env.mem l.iov
    -- without the tag
    have hle₀ := hle'
    rw [← txVlan_untagged env dsc] at hle₀
    obtain ⟨mid, plain, hplain, hmid, hlast⟩ := e82545TransmitPacket_fills htso hcnt hvecs hle₀ hmax
    rw [txTagged, txVlan_untagged, if_neg Bool.false_ne_true] at hmid
    rw [txVlan_untagged] at hlast
    have hsame : SameBut l.ck0.field (iovBytes env.mem l.iov) mid := by
      refine CkInfo.Fills.sameBut hmid fun hv => ?_
      rw [hlen]
      exact Nat.le_trans (h0 hv) hle
    have hin : l.ck1.ckValid = true → l.ck1.ckOff.toNat + 2 ≤ mid.length := by
      intro hv
      rw [hsame.length, hlen]
      exact Nat.le_trans (h1 hv) hle
    have hsame' := CkInfo.Fills.sameBut hlast hin
    -- with the tag
    have hle₁ := hle
    rw [← hvlan] at hle₁
    obtain ⟨mid', frame, hframe, hmid', hlast'⟩ := e82545TransmitPacket_fills htso hcnt hvecs hle₁ hmax
    rw [txTagged, hvlan, if_pos rfl] at hmid'
    rw [hvlan] at hlast'
    obtain rfl : mid' = insertTag (vlanTag env dsc) mid := by
      refine hmid'.unique (CkInfo.Fills.insertTag hmid rfl h12 fun hv => ?_)
      obtain ⟨hstart, hoff⟩ := hck l.ck0 (by simp) hv
      refine ⟨hmoved l.ck0 (by simp) hv, hstart, hoff, ?_⟩
      rw [hlen]
      exact Nat.le_trans (h0 hv) hle
    obtain rfl : frame = insertTag (vlanTag env dsc) plain := by
      refine hlast'.unique (CkInfo.Fills.insertTag hlast rfl (hsame.length ▸ h12) fun hv => ?_)
      obtain ⟨hstart, hoff⟩ := hck l.ck1 (by simp) hv
      exact ⟨hmoved l.ck1 (by simp) hv, hstart, hoff, hin hv⟩
    refine ⟨_, plain, hframe, hplain, rfl, ?_, hmoved⟩
    exact (hsame.mono fun e he => List.mem_append_left _ he).trans
      (hsame'.mono fun e he => List.mem_append_right _ he)

/-- A device that inserts the tag 0x8100. -/
def vlanEnv : TxEnv := ⟨.integer, ⟨0⟩, e1000CtrlVME, 0x8100, fun _ => 0⟩

/-- A legacy packet of 60 bytes with a tag and a checksum from 14 on, at 20. -/
def vlanPacket : TxSide where
  ring := fun _ => ⟨0, 0, 0x4714003c, 0x12340e00, 0, 0⟩
  txctx := ⟨0, 0, 0, 0⟩
  wire := []

theorem vlan_insertion_iff_legacy :
    ∃ frame plain, VlanInserted vlanEnv vlanPacket.txctx (vlanPacket.ring 0) (oneLocals vlanPacket)
      frame plain :=
  (@vlan_insertion_iff vlanEnv vlanPacket 0 1 8 1 (vlanPacket.ring 0) 0 0 (oneLocals vlanPacket) rfl
    (by decide) (by decide) (by decide) (by decide) (by decide) (by decide)).2 (by decide)

/-- A legacy packet of 300 bytes with a tag and a checksum at 252. -/
def farPacket : TxSide where
  ring := fun _ => ⟨0, 0, 0x47fc012c, 0x12340e00, 0, 0⟩
  txctx := ⟨0, 0, 0, 0⟩
  wire := []

/-- The checksum at 252 goes to 0, not to 256. -/
theorem vlan_offset_wraps :
    ¬ ∀ (env : TxEnv) (x : TxSide) (head tail dsize fuel : Nat) (dsc : E1000TxUdesc) (last n : Nat)
      (l : TxLocals),
      e82545TxScan env x.txctx x.ring tail dsize fuel head 0 .start = .ok (.packet dsc last n l) →
      l.tso = false → l.iovcnt ≤ i82545MaxTxsegs → txVlan env dsc = true →
      txHdrlen l x.txctx true ≤ txBytes l.iov → txBytes l.iov + 4 < virtioMaxBuf →
      (∀ ck ∈ [l.ck0, l.ck1], ck.ckValid = true →
        12 ≤ ck.ckStart.toNat ∧ 12 ≤ ck.ckOff.toNat) →
      ∃ frame plain, VlanInserted env x.txctx dsc l frame plain := by
  intro h
  obtain ⟨frame, plain, hinserted⟩ := h vlanEnv farPacket 0 1 8 1 (farPacket.ring 0) 0 0
    (oneLocals farPacket) rfl (by decide) (by decide) (by decide) (by decide) (by decide) (by decide)
  have hmoved := hinserted.moved (oneLocals farPacket).ck0 (by simp) rfl
  exact absurd hmoved.off (by decide)

end DeviceModel
