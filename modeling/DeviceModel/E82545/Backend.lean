import DeviceModel.E82545.HeaderCopy

/-!
# What the backend is given

`e82545_transmit` ends in calls of `dm_process_tx`, one for a packet, or one for each of
its segments. Each copies its vectors into `netbuf`, which has `VIRTIO_MAX_BUF` bytes,
and panics where they do not fit. This file says which vectors a call is given, and when
the copy is what `virtionet_write` gets.
-/

namespace DeviceModel

/-! ## Parts of a vector -/

/-- A vector is part of another one. -/
def TxIovec.PartOf (v w : TxIovec) : Prop :=
  ∃ off n, off + n ≤ w.len ∧ v = (w.advance off).first n

namespace TxIovec.PartOf

variable {u v w : TxIovec}

theorem refl (w : TxIovec) : w.PartOf w := by
  refine ⟨0, w.len, Nat.le_of_eq (Nat.zero_add _), ?_⟩
  cases w with
  | guest base len =>
    have hzero : base + BitVec.ofNat 64 0 = base := BitVec.add_zero base
    rw [TxIovec.advance, TxIovec.first, TxIovec.len, hzero]
  | host bytes =>
    rw [TxIovec.advance, TxIovec.first, TxIovec.len, List.drop_zero, List.take_length]

theorem first (h : v.PartOf w) {n : Nat} (hn : n ≤ v.len) : (v.first n).PartOf w := by
  obtain ⟨off, m, hle, rfl⟩ := h
  have hm : n ≤ m := by
    rw [TxIovec.len_first (by rw [TxIovec.len_advance]; omega)] at hn
    exact hn
  refine ⟨off, n, by omega, ?_⟩
  cases w with
  | guest base len => rfl
  | host bytes =>
    simp only [TxIovec.advance, TxIovec.first]
    rw [List.take_take, Nat.min_eq_left hm]

theorem advance (h : v.PartOf w) {n : Nat} (hn : n ≤ v.len) : (v.advance n).PartOf w := by
  obtain ⟨off, m, hle, rfl⟩ := h
  have hm : n ≤ m := by
    rw [TxIovec.len_first (by rw [TxIovec.len_advance]; omega)] at hn
    exact hn
  refine ⟨off + n, m - n, by omega, ?_⟩
  cases w with
  | guest base len =>
    simp only [TxIovec.advance, TxIovec.first]
    rw [BitVec.ofNat_add, BitVec.add_assoc]
  | host bytes =>
    simp only [TxIovec.advance, TxIovec.first]
    rw [List.drop_take, List.drop_drop]

end TxIovec.PartOf

/-- Each of the vectors is part of one of the packet's. -/
def PartsOf (iov vs : List TxIovec) : Prop := ∀ v ∈ vs, ∃ w ∈ iov, v.PartOf w

theorem PartsOf.refl (iov : List TxIovec) : PartsOf iov iov := fun v hv => ⟨v, hv, .refl v⟩

/-- The header copy leaves parts. -/
theorem PartsOf.copyHeader {mem : Mem} {all : List TxIovec} : ∀ {iov rest : List TxIovec} {n : Nat}
    {hdr : List U8}, PartsOf all iov → txCopyHeader mem iov n = .ok (hdr, rest) →
      PartsOf all rest := by
  intro iov
  induction iov with
  | nil =>
    intro rest n hdr hparts h
    cases n with
    | zero =>
      cases h
      exact hparts
    | succ n => cases h
  | cons v vs ih =>
    intro rest n hdr hparts h
    cases n with
    | zero =>
      cases h
      exact hparts
    | succ n =>
      obtain ⟨hv, hvs⟩ := List.forall_mem_cons.1 hparts
      rw [txCopyHeader] at h
      dsimp only at h
      split at h
      · obtain ⟨⟨more, iov'⟩, hcopy, h⟩ := Except.bind_eq_ok.1 h
        cases h
        exact ih hvs hcopy
      · cases h
        obtain ⟨w, hw, hpart⟩ := hv
        exact List.forall_mem_cons.2 ⟨⟨w, hw, hpart.advance (Nat.min_le_right _ _)⟩, hvs⟩

/-- What is taken for a segment are parts, and so is what it leaves. -/
theorem PartsOf.takePayload {all : List TxIovec} : ∀ {payload : List TxIovec} (n : Nat),
    PartsOf all payload →
      PartsOf all (txTakePayload payload n).1 ∧ PartsOf all (txTakePayload payload n).2 := by
  intro payload
  induction payload with
  | nil =>
    intro n hparts
    cases n <;> exact ⟨hparts, hparts⟩
  | cons v vs ih =>
    intro n hparts
    cases n with
    | zero => exact ⟨List.forall_mem_nil _, hparts⟩
    | succ n =>
      obtain ⟨⟨w, hw, hpart⟩, hvs⟩ := List.forall_mem_cons.1 hparts
      rw [txTakePayload_cons]
      split
      · next hall =>
        obtain ⟨hpieces, hrest⟩ := ih (n + 1 - v.len) hvs
        exact ⟨List.forall_mem_cons.2 ⟨⟨w, hw, hpart.first (Nat.le_refl _)⟩, hpieces⟩, hrest⟩
      · next hsome =>
        have hn : n + 1 ≤ v.len := by omega
        refine ⟨?_, List.forall_mem_cons.2 ⟨⟨w, hw, hpart.advance hn⟩, hvs⟩⟩
        intro u hu
        rw [List.mem_singleton.1 hu]
        exact ⟨w, hw, hpart.first hn⟩

/-! ## The calls -/

/-- The calls that follow a step, if it returns. -/
def callsAfter {α : Type} (x : Except Stop α) (calls : α → List (List TxIovec)) :
    List (List TxIovec) :=
  match x with
  | .error _ => []
  | .ok a => calls a

/-- The calls of `dm_process_tx` by the segmentation loop, up to where it stops. -/
def txSegmentsCalls (mem : Mem) (o : TsoInfo) :
    (fuel : Nat) → (hdr : List U8) → (payload : List TxIovec) → (seg left : Nat) →
    List (List TxIovec)
  | 0, _, _, _, _ => []
  | fuel + 1, hdr, payload, seg, left =>
    if left = 0 then []
    else
      let now := min left o.mss
      let (pieces, payload) := txTakePayload payload now
      callsAfter (txSegmentHeader mem o hdr pieces seg left now) fun hdr =>
        (.host hdr :: pieces) :: callsAfter (dmProcessTx mem (.host hdr :: pieces) []) fun _ =>
          txSegmentsCalls mem o fuel hdr payload (seg + 1) (left - now)

/-- The calls of "Doing TSO". -/
def txTsoCalls (mem : Mem) (fuel : Nat) (cd : E1000ContextDesc) (hdr : List U8)
    (rest : List TxIovec) (ck0 ck1 : CkInfo) : List (List TxIovec) :=
  callsAfter (txTsoInfo cd hdr ck0 ck1) fun o => txSegmentsCalls mem o fuel hdr rest 0 o.paylen

/-- The call of the simple case. -/
def txPlainCalls (mem : Mem) (hdr : List U8) (rest : List TxIovec) (ck0 ck1 : CkInfo) :
    List (List TxIovec) :=
  callsAfter (txChecksum mem hdr rest ck0) fun hdr =>
    callsAfter (txChecksum mem hdr rest ck1) fun hdr => [.host hdr :: rest]

/-- The calls of `dm_process_tx` past the descriptor loop of `e82545_transmit`. -/
def txPacketCalls (env : TxEnv) (fuel : Nat) (cd : E1000ContextDesc) (dsc : E1000TxUdesc)
    (l : TxLocals) : List (List TxIovec) :=
  let vlan := txVlan env dsc
  if i82545MaxTxsegs < l.iovcnt then []
  else
    callsAfter (txCopyHeader env.mem l.iov (txHdrlen l cd vlan)) fun (hdr, rest) =>
      callsAfter (txInsertVlan vlan (env.vet.setWidth 16) (halfAt (dsc.upper env.build) 16) hdr)
        fun hdr =>
          if l.tso then txTsoCalls env.mem fuel cd hdr rest (l.ck0.shift vlan) (l.ck1.shift vlan)
          else txPlainCalls env.mem hdr rest (l.ck0.shift vlan) (l.ck1.shift vlan)

/-- The calls are those that a computation makes: they give its frames, and it panics in
one of them or not at all. -/
structure Calls (mem : Mem) (calls : List (List TxIovec)) (sent : List (List U8))
    (m : Except Stop (List (List U8))) : Prop where
  frames : ∀ r, m = .ok r →
    ∃ new, r = sent ++ new ∧ List.Forall₂ (fun c f => dmProcessTx mem c [] = .ok f) calls new
  panic : m = .error .panic ↔ ∃ c ∈ calls, dmProcessTx mem c [] = .error .panic

namespace Calls

variable {α : Type} {mem : Mem} {calls : List (List TxIovec)} {sent : List (List U8)}
  {m : Except Stop (List (List U8))}

theorem none (sent : List (List U8)) : Calls mem [] sent (.ok sent) := by
  refine ⟨fun r h => ?_, ?_⟩
  · cases h
    exact ⟨[], by simp, .nil⟩
  · simp

theorem error {e : Stop} (h : e ≠ .panic) : Calls mem [] sent (.error e) := by
  refine ⟨fun r hr => (by cases hr), ?_⟩
  simp [h]

/-- A step that makes no call. -/
theorem bind {x : Except Stop α} {f : α → Except Stop (List (List U8))}
    {g : α → List (List TxIovec)} (hx : StopsUndefined x)
    (hf : ∀ a, x = .ok a → Calls mem (g a) sent (f a)) : Calls mem (callsAfter x g) sent (x >>= f) := by
  cases x with
  | error e =>
    apply error
    rw [hx e rfl]
    simp
  | ok a => exact hf a rfl

/-- A call, and what follows it. -/
theorem call {c : List TxIovec} {f : List U8 → Except Stop (List (List U8))}
    {g : List U8 → List (List TxIovec)}
    (hf : ∀ frame, dmProcessTx mem c [] = .ok frame → Calls mem (g frame) (sent ++ [frame]) (f frame)) :
    Calls mem (c :: callsAfter (dmProcessTx mem c []) g) sent (dmProcessTx mem c [] >>= f) := by
  cases hc : dmProcessTx mem c [] with
  | error e =>
    refine ⟨fun r hr => (by cases hr), ?_⟩
    have hbind : (Except.error e >>= f) = .error e := rfl
    rw [callsAfter, hbind]
    simp [hc]
  | ok frame =>
    obtain ⟨hframes, hpanic⟩ := hf frame hc
    refine ⟨fun r hr => ?_, ?_⟩
    · obtain ⟨new, hr', hnew⟩ := hframes r hr
      refine ⟨frame :: new, ?_, .cons hc hnew⟩
      rw [hr']
      simp
    · simp only [callsAfter, List.mem_cons, exists_eq_or_imp, hc]
      refine hpanic.trans ?_
      simp

/-- A call that is the last. -/
theorem last {c : List TxIovec} {f : List U8 → Except Stop (List (List U8))}
    (hf : ∀ frame, dmProcessTx mem c [] = .ok frame → Calls mem [] (sent ++ [frame]) (f frame)) :
    Calls mem [c] sent (dmProcessTx mem c [] >>= f) := by
  have hcall := call hf
  have hnone : callsAfter (dmProcessTx mem c []) (fun _ => []) = [] := by
    cases dmProcessTx mem c [] <;> rfl
  rw [hnone] at hcall
  exact hcall

end Calls

/-- The segmentation loop makes the calls of its trace. -/
theorem txSegments_calls (mem : Mem) (o : TsoInfo) : ∀ (fuel : Nat) (hdr : List U8)
    (payload : List TxIovec) (seg left : Nat) (frames : List (List U8)),
    Calls mem (txSegmentsCalls mem o fuel hdr payload seg left) frames
      (txSegments mem o fuel hdr payload seg left frames) := by
  intro fuel
  induction fuel with
  | zero =>
    intro hdr payload seg left frames
    exact .error (by simp)
  | succ fuel ih =>
    intro hdr payload seg left frames
    rw [txSegments, txSegmentsCalls]
    split
    · exact .none frames
    · exact .bind (.segmentHeader _ _ _ _ _ _ _) fun hdr' _ => .call fun frame _ => ih _ _ _ _ _

theorem StopsUndefined.txChecksum (mem : Mem) (hdr : List U8) (rest : List TxIovec) (ck : CkInfo) :
    StopsUndefined (txChecksum mem hdr rest ck) := by
  rw [DeviceModel.txChecksum]
  split
  · exact writeHdr _ _ _
  · exact ok _

/-- **A packet makes the calls of its trace.** -/
theorem e82545TransmitPacket_calls (env : TxEnv) (fuel : Nat) (cd : E1000ContextDesc)
    (dsc : E1000TxUdesc) (l : TxLocals) :
    Calls env.mem (txPacketCalls env fuel cd dsc l) [] (e82545TransmitPacket env fuel cd dsc l) := by
  rw [txPacketCalls, e82545TransmitPacket]
  split
  · exact .none []
  · refine .bind (.copyHeader _ _ _) fun a _ => .bind (.insertVlan _ _ _ _) fun hdr' _ => ?_
    rw [txSend]
    split
    · exact .bind (.tsoInfo _ _ _ _) fun o _ => txSegments_calls _ _ _ _ _ _ _ _
    · exact .bind (.txChecksum _ _ _ _) fun _ _ => .bind (.txChecksum _ _ _ _) fun _ _ =>
        .last fun frame _ => .none [frame]

/-! ## What a call is given -/

/-- A call of `dm_process_tx` with a header of `n` bytes and parts of the packet: what
`virtionet_write` gets is what the vectors hold, and `netbuf` has room for it. -/
structure BackendCall (mem : Mem) (iov : List TxIovec) (n : Nat) (call : List TxIovec) : Prop where
  vectors : ∃ hdr rest, call = .host hdr :: rest ∧ hdr.length = n ∧ PartsOf iov rest
  sent : dmProcessTx mem call [] = .ok (iovBytes mem call)
  fits : (iovBytes mem call).length < virtioMaxBuf

theorem callsAfter_forall {α : Type} {x : Except Stop α} {calls : α → List (List TxIovec)}
    {P : List TxIovec → Prop} :
    (∀ c ∈ callsAfter x calls, P c) ↔ ∀ a, x = .ok a → ∀ c ∈ calls a, P c := by
  cases x with
  | error e => simp [callsAfter]
  | ok a => simp [callsAfter]

/-- Where the vectors fit, the call is what it should be. -/
theorem BackendCall.of_lt {mem : Mem} {iov rest : List TxIovec} {hdr : List U8}
    (hparts : PartsOf iov rest) (hlt : hdr.length + txBytes rest < virtioMaxBuf) :
    BackendCall mem iov hdr.length (.host hdr :: rest) := by
  refine ⟨⟨hdr, rest, rfl, rfl, hparts⟩, ?_, ?_⟩
  · rw [dmProcessTx_eq, List.nil_append]
    simpa [TxIovec.len] using hlt
  · rw [length_iovBytes]
    exact hlt

/-- The calls of the segments. -/
theorem txSegmentsCalls_safe {mem : Mem} {o : TsoInfo} {iov : List TxIovec} {n : Nat}
    (hipcs : o.ipcs.length = 2) (hmax : o.mss < 2 ^ 16) (hn : n ≤ 259) :
    ∀ {fuel : Nat} {hdr : List U8} {payload : List TxIovec} {seg left : Nat},
      hdr.length = n → PartsOf iov payload →
      ∀ c ∈ txSegmentsCalls mem o fuel hdr payload seg left, BackendCall mem iov n c := by
  intro fuel
  induction fuel with
  | zero => intro hdr payload seg left _ _ c hc; cases hc
  | succ fuel ih =>
    intro hdr payload seg left hlen hparts c hc
    rw [txSegmentsCalls] at hc
    split at hc
    · cases hc
    obtain ⟨hpieces, hrest⟩ := hparts.takePayload (min left o.mss)
    obtain ⟨-, hcount, -, -, -⟩ := txTakePayload_spec mem payload (min left o.mss)
    refine callsAfter_forall.2 (fun hdr' hseg => ?_) c hc
    have hlen' := (txSegmentHeader_touches hipcs seg left (min left o.mss)).length hseg
    rw [hlen] at hlen'
    refine List.forall_mem_cons.2 ⟨?_, callsAfter_forall.2 fun _ _ => ih hlen' hrest⟩
    have hcall := @BackendCall.of_lt mem iov (txTakePayload payload (min left o.mss)).1 hdr' hpieces (by
      rw [hcount, virtioMaxBuf]
      omega)
    rw [hlen'] at hcall
    exact hcall

/-- The one call of the simple case. -/
theorem txPlainCalls_eq {mem : Mem} {hdr : List U8} {rest : List TxIovec} {ck0 ck1 : CkInfo}
    (h0 : ck0.ckValid = true → ck0.ckOff.toNat + 2 ≤ hdr.length)
    (h1 : ck1.ckValid = true → ck1.ckOff.toNat + 2 ≤ hdr.length) :
    ∃ hdr', hdr'.length = hdr.length ∧ txPlainCalls mem hdr rest ck0 ck1 = [.host hdr' :: rest] := by
  obtain ⟨hdr₁, hok₁, hlen₁⟩ :=
    (@Touches.txChecksum _ mem hdr rest ck0 rfl).inside (CkInfo.inside_traceIf.2 h0)
  obtain ⟨hdr₂, hok₂, hlen₂⟩ :=
    (@Touches.txChecksum _ mem hdr₁ rest ck1 hlen₁).inside (CkInfo.inside_traceIf.2 h1)
  refine ⟨hdr₂, hlen₂, ?_⟩
  rw [txPlainCalls, hok₁, callsAfter, hok₂, callsAfter]

/-- A packet that is not segmented and has the bytes of its header is one call. -/
theorem txPacketCalls_plain {env : TxEnv} {cd : E1000ContextDesc} {dsc : E1000TxUdesc} {l : TxLocals}
    (htso : l.tso = false) (hcnt : l.iovcnt ≤ i82545MaxTxsegs)
    (hle : txHdrlen l cd (txVlan env dsc) ≤ txBytes l.iov) (fuel : Nat) :
    ∃ hdr rest, txPacketCalls env fuel cd dsc l = [.host hdr :: rest] ∧ PartsOf l.iov rest ∧
      hdr.length = txHdrRoom (txHdrlen l cd (txVlan env dsc)) (txVlan env dsc) ∧
      hdr.length + txBytes rest = txBytes l.iov + if txVlan env dsc then 4 else 0 := by
  obtain ⟨hvlan, h0, h1⟩ := @txHdrlen_plain l cd (txVlan env dsc) htso
  obtain ⟨hcopy, -⟩ := txCopyHeader_spec env.mem l.iov (txHdrlen l cd (txVlan env dsc))
  obtain ⟨hdr, rest, hok, hlen⟩ := hcopy hle
  have hbytes := congrArg List.length (txCopyHeader_bytes hok)
  rw [List.length_append, length_iovBytes, length_iovBytes] at hbytes
  rw [← hlen] at hvlan h0 h1
  have hinsert := @txInsertVlan_touches (txVlan env dsc) hdr (env.vet.setWidth 16)
    (halfAt (dsc.upper env.build) 16)
  obtain ⟨hdr', hok', hlen'⟩ := hinsert.inside (inside_txVlanTrace.2 hvlan)
  obtain ⟨hdr'', hlen'', hcalls⟩ := @txPlainCalls_eq env.mem hdr' rest (l.ck0.shift (txVlan env dsc))
    (l.ck1.shift (txVlan env dsc))
    (by rw [CkInfo.shift_valid, hlen']; exact fun hv => CkInfo.shift_off (h0 hv))
    (by rw [CkInfo.shift_valid, hlen']; exact fun hv => CkInfo.shift_off (h1 hv))
  refine ⟨hdr'', rest, ?_, PartsOf.copyHeader (.refl _) hok, ?_, ?_⟩
  · rw [txPacketCalls, if_neg (Nat.not_lt.2 hcnt), hok, callsAfter]
    dsimp only
    rw [hok', callsAfter, if_neg (by simp [htso])]
    exact hcalls
  · rw [hlen'', hlen', hlen]
  · rw [hlen'', hlen', txHdrRoom]
    cases hv : txVlan env dsc with
    | false =>
      simp only [Bool.false_eq_true, if_false, Nat.add_zero]
      split <;> omega
    | true =>
      have h12 := hvlan hv
      rw [if_neg (by omega)]
      simp only [if_true]
      omega

/-- The calls of a packet that is segmented. -/
theorem txPacketCalls_tso {env : TxEnv} {cd : E1000ContextDesc} {dsc : E1000TxUdesc} {l : TxLocals}
    (htso : l.tso = true) (fuel : Nat) : ∀ c ∈ txPacketCalls env fuel cd dsc l,
      BackendCall env.mem l.iov (txHdrRoom (txHdrlen l cd (txVlan env dsc)) (txVlan env dsc)) c := by
  have hhdrlen : txHdrlen l cd (txVlan env dsc) = (byteAt cd.tcpSegSetup 8).toNat := if_pos htso
  have hroom := txHdrRoom_le (Nat.le_of_lt_succ (byteAt cd.tcpSegSetup 8).isLt) (txVlan env dsc)
  rw [txPacketCalls]
  simp only [htso, if_true]
  split
  · simp
  refine callsAfter_forall.2 fun a hcopy => callsAfter_forall.2 fun hdr hvlan => ?_
  have hlen := (txInsertVlan_touches (env.vet.setWidth 16) (halfAt (dsc.upper env.build) 16)).length hvlan
  rw [txCopyHeader_hdr hcopy] at hlen
  refine callsAfter_forall.2 fun o ho => ?_
  obtain ⟨-, hcut⟩ := txTsoInfo_eq_ok ho
  rw [← hhdrlen] at hroom
  exact txSegmentsCalls_safe hcut.ipcs (hcut.mss ▸ (halfAt cd.tcpSegSetup 16).isLt) hroom hlen
    (PartsOf.copyHeader (.refl _) hcopy)

/-! ## Every packet -/

/-- The backend gets the packet: each vector of a descriptor in `ds` is no longer than the
descriptor says, and each call of `dm_process_tx` sends what its vectors hold. -/
structure BackendSafe (env : TxEnv) (cd : E1000ContextDesc) (dsc : E1000TxUdesc) (l : TxLocals)
    (ds : List E1000TxUdesc) : Prop where
  lengths : List.Forall₂ (fun v d => v.len ≤ d.lenField env.build) l.iov (txBuffered env.build ds)
  calls : ∀ fuel, ∀ c ∈ txPacketCalls env fuel cd dsc l,
    BackendCall env.mem l.iov (txHdrRoom (txHdrlen l cd (txVlan env dsc)) (txVlan env dsc)) c

/-- The lengths go wrong where two bytes are taken from one. -/
theorem TxLocals.Gathered.lengths_iff {env : TxEnv} {l : TxLocals} {inner : List E1000TxUdesc}
    {dsc : E1000TxUdesc} (h : l.Gathered env (inner ++ [dsc])) (hcnt : l.iovcnt ≤ i82545MaxTxsegs)
    (hinner : ∀ d ∈ inner, d.eop env.build = false) :
    List.Forall₂ (fun v d => v.len ≤ d.lenField env.build) l.iov
        (txBuffered env.build (inner ++ [dsc])) ↔
      (dsc.strips env.build = true → dsc.lenField env.build ≠ 1) := by
  rw [(h.length hcnt).1, List.forall₂_map_left_iff, List.forall₂_same]
  have hone : ∀ d : E1000TxUdesc, 0 < d.lenField env.build →
      ((txBuffer env d).len ≤ d.lenField env.build ↔
        (d.strips env.build = true → d.lenField env.build ≠ 1)) := by
    intro d hpos
    have hlt := d.lenField_lt env.build
    rw [txBuffer_len env hpos]
    split
    · next hbad =>
      refine ⟨fun hle => ?_, fun hno => absurd hbad.2 (hno hbad.1)⟩
      omega
    · next hgood =>
      refine ⟨fun _ hs hlen => hgood ⟨hs, hlen⟩, fun _ => Nat.sub_le _ _⟩
  constructor
  · intro hall hs hlen
    have hmem : dsc ∈ txBuffered env.build (inner ++ [dsc]) := by
      rw [txBuffered, List.mem_filter]
      simp [hlen]
    have hpos : 0 < dsc.lenField env.build := by
      rw [hlen]
      exact Nat.one_pos
    exact (hone dsc hpos).1 (hall dsc hmem) hs hlen
  · intro hlast d hd
    rw [txBuffered, List.mem_filter, List.mem_append, List.mem_singleton, decide_eq_true_eq] at hd
    obtain ⟨hd, hpos⟩ := hd
    apply (hone d hpos).2
    rcases hd with hd | rfl
    · intro hs
      rw [E1000TxUdesc.strips, hinner d hd] at hs
      simp at hs
    · exact hlast

/-- **The backend** gets each packet of at most 64 vectors if and only if a last buffer of
one byte has its checksum, and a packet that is sent as it is fits into `netbuf`. -/
theorem backend_safe_iff {env : TxEnv} {x : TxSide} {head tail dsize fuel : Nat} {dsc : E1000TxUdesc}
    {last n : Nat} {l : TxLocals}
    (hscan : e82545TxScan env x.txctx x.ring tail dsize fuel head 0 .start =
      .ok (.packet dsc last n l))
    (hcnt : l.iovcnt ≤ i82545MaxTxsegs) :
    BackendSafe env x.txctx dsc l
        ((e82545TxScanUses env x.ring tail dsize fuel head 0 .start).map x.ring) ↔
      (dsc.strips env.build = true → dsc.lenField env.build ≠ 1) ∧
      (l.tso = false → txHdrlen l x.txctx (txVlan env dsc) ≤ txBytes l.iov →
        txBytes l.iov + (if txVlan env dsc then 4 else 0) < virtioMaxBuf) := by
  obtain ⟨inner, huses, hinner, -, hgathered⟩ := e82545TxScan_gathered (.start env) hscan
  rw [List.nil_append] at hgathered
  rw [huses]
  have hlengths := hgathered.lengths_iff hcnt hinner
  constructor
  · rintro ⟨hlens, hcalls⟩
    refine ⟨hlengths.1 hlens, fun htso hle => ?_⟩
    obtain ⟨hdr, rest, hcall, -, -, htotal⟩ := txPacketCalls_plain htso hcnt hle 0
    have hsafe := hcalls 0 (.host hdr :: rest) (by rw [hcall]; exact List.mem_singleton_self _)
    have hfits := hsafe.fits
    rw [length_iovBytes] at hfits
    rw [← htotal]
    exact hfits
  · rintro ⟨hlens, hplain⟩
    refine ⟨hlengths.2 hlens, fun fuel' c hc => ?_⟩
    cases htso : l.tso with
    | true => exact txPacketCalls_tso htso fuel' c hc
    | false =>
      rcases Nat.lt_or_ge (txBytes l.iov) (txHdrlen l x.txctx (txVlan env dsc)) with hshort | hle
      · obtain ⟨e, he⟩ := (txCopyHeader_spec env.mem l.iov _).2 hshort
        rw [txPacketCalls, if_neg (Nat.not_lt.2 hcnt), he] at hc
        cases hc
      · obtain ⟨hdr, rest, hcall, hparts, hlen, htotal⟩ := txPacketCalls_plain htso hcnt hle fuel'
        rw [hcall, List.mem_singleton] at hc
        rw [hc, ← hlen]
        apply BackendCall.of_lt hparts
        rw [htotal]
        exact hplain htso hle

/-- 64 bytes to be sent as a header of 40 bytes and three segments. -/
def tsoPacket : TxSide where
  ring := fun _ => ⟨0, 0, 0x27100040, 0, 0, 0⟩
  txctx := ⟨0x20000a00, 0x2414, 0x01000018, 0x000a2800⟩
  wire := []

/-- The locals past a packet of one descriptor. -/
def oneLocals (x : TxSide) : TxLocals :=
  ((TxLocals.start.first .integer (x.ring 0)).addBuffer ⟨.integer, ⟨0⟩, 0, 0, fun _ => 0⟩
    (x.ring 0)).final .integer x.txctx (x.ring 0)

theorem backend_safe_iff_tso :
    BackendSafe ⟨.integer, ⟨0⟩, 0, 0, fun _ => 0⟩ tsoPacket.txctx (tsoPacket.ring 0)
      (oneLocals tsoPacket) [tsoPacket.ring 0] :=
  (@backend_safe_iff ⟨.integer, ⟨0⟩, 0, 0, fun _ => 0⟩ tsoPacket 0 1 8 1 (tsoPacket.ring 0) 0 0
    (oneLocals tsoPacket) rfl (by decide)).2 ⟨by decide, by decide⟩

/-- A data descriptor of 131072 bytes. -/
def hugePacket : TxSide where
  ring := fun _ => ⟨0, 0, 0x23120000, 0, 0, 0⟩
  txctx := ⟨0, 0, 0, 0⟩
  wire := []

/-- One buffer is as long as `netbuf`, and `dm_process_tx` panics. -/
theorem backend_panics :
    ¬ ∀ (env : TxEnv) (x : TxSide) (head tail dsize fuel : Nat) (dsc : E1000TxUdesc) (last n : Nat)
      (l : TxLocals),
      e82545TxScan env x.txctx x.ring tail dsize fuel head 0 .start = .ok (.packet dsc last n l) →
      l.iovcnt ≤ i82545MaxTxsegs →
      BackendSafe env x.txctx dsc l
        ((e82545TxScanUses env x.ring tail dsize fuel head 0 .start).map x.ring) := by
  intro h
  obtain ⟨-, hcalls⟩ := h ⟨.integer, ⟨0⟩, 0, 0, fun _ => 0⟩ hugePacket 0 1 8 1 (hugePacket.ring 0) 0 0
    (oneLocals hugePacket) rfl (by decide)
  have hsent := (hcalls 0 [.host [], .guest 0 131072] (List.mem_singleton_self _)).sent
  cases hsent

/-- Two bytes taken from one. -/
example : (txBuffer ⟨.integer, ⟨0⟩, 0, 0, fun _ => 0⟩ ⟨0, 0, 0x01000001, 0, 0, 0⟩).len = 2 ^ 64 - 1 := by
  decide

end DeviceModel
