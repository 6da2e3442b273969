import DeviceModel.E82545.HeaderAccess

/-!
# Segmentation

"Doing TSO" cuts the payload of a packet into pieces of `mss` bytes. The payload is a
list of vectors, and a piece may begin and end inside a vector. This file says which
bytes each piece has, and when the loop over the segments ends.
-/

namespace DeviceModel

/-! ## The bytes of a list of vectors -/

/-- What a vector holds. -/
def TxIovec.bytes (mem : Mem) (v : TxIovec) : List U8 := v.read mem 0 v.len

/-- What a list of vectors holds, in order. -/
def iovBytes (mem : Mem) (iov : List TxIovec) : List U8 := iov.flatMap (·.bytes mem)

/-- The first `n` bytes of a vector, as a vector. -/
def TxIovec.first (v : TxIovec) (n : Nat) : TxIovec :=
  match v with
  | .guest base _ => .guest base n
  | .host bytes => .host (bytes.take n)

@[simp] theorem iovBytes_nil (mem : Mem) : iovBytes mem [] = [] := rfl

@[simp] theorem iovBytes_cons (mem : Mem) (v : TxIovec) (vs : List TxIovec) :
    iovBytes mem (v :: vs) = v.bytes mem ++ iovBytes mem vs := rfl

@[simp] theorem txBytes_nil : txBytes [] = 0 := rfl

@[simp] theorem txBytes_cons (v : TxIovec) (vs : List TxIovec) :
    txBytes (v :: vs) = v.len + txBytes vs := rfl

theorem TxIovec.length_bytes (mem : Mem) (v : TxIovec) : (v.bytes mem).length = v.len :=
  v.length_read mem (Nat.le_refl _)

theorem length_iovBytes (mem : Mem) (iov : List TxIovec) :
    (iovBytes mem iov).length = txBytes iov := by
  induction iov with
  | nil => rfl
  | cons v vs ih => rw [iovBytes_cons, List.length_append, ih, v.length_bytes, txBytes_cons]

theorem TxIovec.len_first {v : TxIovec} {n : Nat} (h : n ≤ v.len) : (v.first n).len = n := by
  cases v with
  | guest base len => rfl
  | host bytes => exact List.length_take_of_le h

theorem TxIovec.len_advance (v : TxIovec) (n : Nat) : (v.advance n).len = v.len - n := by
  cases v with
  | guest base len => rfl
  | host bytes => exact List.length_drop

/-- A vector is its beginning and the rest of it. -/
theorem TxIovec.bytes_first_advance (mem : Mem) {v : TxIovec} {n : Nat} (h : n ≤ v.len) :
    (v.first n).bytes mem ++ (v.advance n).bytes mem = v.bytes mem := by
  cases v with
  | guest base len =>
    have hlen : n + (len - n) = len := Nat.add_sub_cancel' h
    have hzero : ∀ a : U64, a + BitVec.ofNat 64 0 = a := BitVec.add_zero
    have hsplit := mem.readBytes_add base n (len - n)
    rw [hlen] at hsplit
    simp only [TxIovec.bytes, TxIovec.first, TxIovec.advance, TxIovec.read, TxIovec.len]
    rw [hzero, hzero, hsplit]
  | host bytes =>
    simp only [TxIovec.bytes, TxIovec.first, TxIovec.advance, TxIovec.read, TxIovec.len,
      List.drop_zero, List.take_length]
    exact List.take_append_drop n bytes

/-- A read is part of what the vector holds. -/
theorem TxIovec.read_eq (mem : Mem) {v : TxIovec} {off n : Nat} (h : off + n ≤ v.len) :
    v.read mem off n = ((v.bytes mem).drop off).take n := by
  cases v with
  | guest base len =>
    obtain ⟨k, rfl⟩ : ∃ k, len = off + (n + k) := ⟨len - off - n, by simp only [TxIovec.len] at h; omega⟩
    have hzero : base + BitVec.ofNat 64 0 = base := BitVec.add_zero base
    rw [TxIovec.bytes, TxIovec.read, TxIovec.read, TxIovec.len, hzero, Mem.readBytes_add,
      Mem.readBytes_add, List.drop_left' (Mem.length_readBytes _ _ _),
      List.take_left' (Mem.length_readBytes _ _ _)]
  | host bytes =>
    rw [TxIovec.bytes, TxIovec.read, TxIovec.read, TxIovec.len, List.drop_zero, List.take_length]

/-! ## The payload of one segment -/

theorem txTakePayload_cons (v : TxIovec) (vs : List TxIovec) (n : Nat) :
    txTakePayload (v :: vs) (n + 1) =
      if min (n + 1) v.len = v.len then
        (v.first v.len :: (txTakePayload vs (n + 1 - v.len)).1,
          (txTakePayload vs (n + 1 - v.len)).2)
      else ([v.first (n + 1)], v.advance (n + 1) :: vs) := by
  have hstep : txTakePayload (v :: vs) (n + 1) =
      if min (n + 1) v.len = v.len then
        (v.first (min (n + 1) v.len) :: (txTakePayload vs (n + 1 - min (n + 1) v.len)).1,
          (txTakePayload vs (n + 1 - min (n + 1) v.len)).2)
      else ([v.first (min (n + 1) v.len)], v.advance (min (n + 1) v.len) :: vs) := by
    cases v <;> rfl
  rw [hstep]
  split
  · next h => rw [h]
  · next h =>
    have hmin : min (n + 1) v.len = n + 1 := by omega
    rw [hmin]

/-- **One segment's payload**: the bytes taken and the bytes left are those that there
were, as many as asked for are taken, and no vector is used twice. -/
theorem txTakePayload_spec (mem : Mem) : ∀ (payload : List TxIovec) (n : Nat),
    iovBytes mem (txTakePayload payload n).1 ++ iovBytes mem (txTakePayload payload n).2 =
        iovBytes mem payload ∧
      txBytes (txTakePayload payload n).1 = min n (txBytes payload) ∧
      (txTakePayload payload n).1.length ≤ payload.length ∧
      (txTakePayload payload n).2.length ≤ payload.length ∧
      ∀ v ∈ (txTakePayload payload n).1, v.len ≤ n := by
  intro payload
  induction payload with
  | nil =>
    intro n
    cases n <;> simp [txTakePayload]
  | cons v vs ih =>
    intro n
    cases n with
    | zero => simp [txTakePayload]
    | succ n =>
      rw [txTakePayload_cons]
      split
      · next hall =>
        obtain ⟨hbytes, hcount, hpieces, hrest, hlen⟩ := ih (n + 1 - v.len)
        have hv : v.len ≤ n + 1 := by omega
        have hfirst : (v.first v.len).bytes mem = v.bytes mem := by
          have hsplit := v.bytes_first_advance mem (Nat.le_refl v.len)
          have hnone : (v.advance v.len).bytes mem = [] := by
            rw [← List.length_eq_zero_iff, TxIovec.length_bytes, TxIovec.len_advance, Nat.sub_self]
          rwa [hnone, List.append_nil] at hsplit
        refine ⟨?_, ?_, Nat.succ_le_succ hpieces, Nat.le_succ_of_le hrest, ?_⟩
        · rw [iovBytes_cons, List.append_assoc, hbytes, hfirst, iovBytes_cons]
        · rw [txBytes_cons, hcount, TxIovec.len_first (Nat.le_refl _), txBytes_cons]
          omega
        · intro w hw
          rcases List.mem_cons.1 hw with rfl | hw
          · rw [TxIovec.len_first (Nat.le_refl _)]
            exact hv
          · exact Nat.le_trans (hlen w hw) (Nat.sub_le _ _)
      · next hpart =>
        have hv : n + 1 ≤ v.len := by omega
        refine ⟨?_, ?_, by simp, by simp, ?_⟩
        · rw [iovBytes_cons, iovBytes_nil, List.append_nil, iovBytes_cons, ← List.append_assoc,
            v.bytes_first_advance mem hv, iovBytes_cons]
        · rw [txBytes_cons, txBytes_nil, TxIovec.len_first hv, txBytes_cons]
          omega
        · intro w hw
          rw [List.mem_singleton] at hw
          rw [hw]
          exact Nat.le_of_eq (TxIovec.len_first hv)

/-! ## All segments -/

/-- The payload vectors of each segment, in order, as the inner loop takes them. -/
def txPieces (mss : Nat) : (fuel : Nat) → List TxIovec → (left : Nat) → List (List TxIovec)
  | 0, _, _ => []
  | fuel + 1, payload, left =>
    if left = 0 then []
    else
      (txTakePayload payload (min left mss)).1 ::
        txPieces mss fuel (txTakePayload payload (min left mss)).2 (left - min left mss)

/-- The payload is cut into parts of `mss` bytes, and one that is not longer at the end. -/
structure CutBy (mss : Nat) (parts : List (List U8)) (payload : List U8) : Prop where
  flatten : parts.flatten = payload
  full : ∀ p ∈ parts.dropLast, p.length = mss
  last : ∀ p ∈ parts.getLast?, 1 ≤ p.length ∧ p.length ≤ mss

theorem txPieces_zero (mss fuel : Nat) (payload : List TxIovec) :
    txPieces mss fuel payload 0 = [] := by
  cases fuel <;> rfl

theorem txPieces_ne_nil {mss fuel left : Nat} (payload : List TxIovec) (hleft : 0 < left)
    (hle : left ≤ fuel) : txPieces mss fuel payload left ≠ [] := by
  cases fuel with
  | zero => omega
  | succ fuel =>
    rw [txPieces, if_neg (by omega)]
    exact List.cons_ne_nil _ _

/-- **The cut.** -/
theorem txPieces_cutBy (mem : Mem) {mss : Nat} (hmss : 1 ≤ mss) :
    ∀ {fuel : Nat} {payload : List TxIovec} {left : Nat}, txBytes payload = left → left ≤ fuel →
      CutBy mss ((txPieces mss fuel payload left).map (iovBytes mem)) (iovBytes mem payload) := by
  intro fuel
  induction fuel with
  | zero =>
    intro payload left hbytes hle
    have hnone : iovBytes mem payload = [] := by
      rw [← List.length_eq_zero_iff, length_iovBytes]
      omega
    rw [hnone]
    exact ⟨rfl, fun p hp => absurd hp List.not_mem_nil, fun p hp => by simp [txPieces] at hp⟩
  | succ fuel ih =>
    intro payload left hbytes hle
    rw [txPieces]
    split
    · next hzero =>
      have hnone : iovBytes mem payload = [] := by
        rw [← List.length_eq_zero_iff, length_iovBytes, hbytes, hzero]
      rw [hnone]
      exact ⟨rfl, fun p hp => absurd hp List.not_mem_nil, fun p hp => by simp at hp⟩
    · next hsome =>
      obtain ⟨hcat, hcount, -, -, -⟩ := txTakePayload_spec mem payload (min left mss)
      have hlen := congrArg List.length hcat
      rw [List.length_append, length_iovBytes, length_iovBytes, length_iovBytes, hcount] at hlen
      obtain ⟨hflat, hfull, hlast⟩ :=
        @ih (txTakePayload payload (min left mss)).2 (left - min left mss) (by omega) (by omega)
      have hpiece : (iovBytes mem (txTakePayload payload (min left mss)).1).length =
          min left mss := by
        rw [length_iovBytes, hcount]
        omega
      rw [List.map_cons]
      have hflatten : (iovBytes mem (txTakePayload payload (min left mss)).1 ::
          (txPieces mss fuel (txTakePayload payload (min left mss)).2
            (left - min left mss)).map (iovBytes mem)).flatten = iovBytes mem payload := by
        rw [List.flatten_cons, hflat, hcat]
      rcases Nat.lt_or_ge mss left with hmore | hend
      · -- more segments follow, so that this one is full
        have hne : (txPieces mss fuel (txTakePayload payload (min left mss)).2
            (left - min left mss)).map (iovBytes mem) ≠ [] := by
          intro hnil
          exact txPieces_ne_nil _ (by omega) (by omega) (List.map_eq_nil_iff.1 hnil)
        refine ⟨hflatten, fun p hp => ?_, fun p hp => ?_⟩
        · rw [List.dropLast_cons_of_ne_nil hne] at hp
          rcases List.mem_cons.1 hp with rfl | hp
          · omega
          · exact hfull p hp
        · rw [List.getLast?_cons, List.getLast?_eq_some_getLast hne] at hp
          exact hlast p (by rw [List.getLast?_eq_some_getLast hne]; exact hp)
      · have hzero : left - min left mss = 0 := by omega
        rw [hzero, txPieces_zero, List.map_nil] at hflatten ⊢
        refine ⟨hflatten, fun p hp => absurd hp List.not_mem_nil, fun p hp => ?_⟩
        have hp' : iovBytes mem (txTakePayload payload (min left mss)).1 = p := by simpa using hp
        rw [← hp']
        omega

/-- No segment uses more vectors than the payload has. -/
theorem txPieces_length (mem : Mem) {mss k : Nat} : ∀ {fuel : Nat} {payload : List TxIovec}
    {left : Nat}, payload.length ≤ k → ∀ p ∈ txPieces mss fuel payload left, p.length ≤ k := by
  intro fuel
  induction fuel with
  | zero => intro payload left _ p hp; cases hp
  | succ fuel ih =>
    intro payload left hlen p hp
    obtain ⟨-, -, hpieces, hrest, -⟩ := txTakePayload_spec mem payload (min left mss)
    rw [txPieces] at hp
    split at hp
    · cases hp
    · rcases List.mem_cons.1 hp with rfl | hp
      · exact Nat.le_trans hpieces hlen
      · exact ih (Nat.le_trans hrest hlen) p hp

/-! ## Frames -/

/-- `dm_process_tx` sends what the vectors hold, where it is not too long. -/
theorem dmProcessTx_eq (mem : Mem) : ∀ (iov : List TxIovec) (netbuf : List U8),
    netbuf.length + txBytes iov < virtioMaxBuf →
    dmProcessTx mem iov netbuf = .ok (netbuf ++ iovBytes mem iov) := by
  intro iov
  induction iov with
  | nil => intro netbuf _; simp [dmProcessTx]
  | cons v vs ih =>
    intro netbuf hlen
    rw [txBytes_cons, virtioMaxBuf] at hlen
    have hmod : v.len % 2 ^ 32 = v.len := Nat.mod_eq_of_lt (by omega)
    have hread : v.read mem 0 v.len = v.bytes mem := rfl
    rw [dmProcessTx, hmod, if_neg (by omega), if_neg (by rw [virtioMaxBuf]; omega), hread, ih,
      List.append_assoc, iovBytes_cons]
    rw [List.length_append, v.length_bytes, virtioMaxBuf]
    omega

/-- A frame: a header such as `H` says, and a piece of the payload. -/
def IsFrame (mem : Mem) (H : List U8 → Prop) (pieces : List TxIovec) (frame : List U8) : Prop :=
  ∃ hdr, H hdr ∧ frame = hdr ++ iovBytes mem pieces

/-- What is sent for one segment. -/
theorem dmProcessTx_segment {mem : Mem} {hdr : List U8} {payload : List TxIovec} {now : Nat}
    (hhdr : hdr.length ≤ 259) (hnow : now < 2 ^ 16) :
    dmProcessTx mem (.host hdr :: (txTakePayload payload now).1) [] =
      .ok (hdr ++ iovBytes mem (txTakePayload payload now).1) := by
  obtain ⟨-, hcount, -, -, -⟩ := txTakePayload_spec mem payload now
  have hbytes : (TxIovec.host hdr).bytes mem = hdr := List.take_length
  rw [dmProcessTx_eq, iovBytes_cons, hbytes, List.nil_append]
  rw [txBytes_cons, hcount, virtioMaxBuf, TxIovec.len, List.length_nil]
  omega

theorem Touches.length {n : Nat} {tr : List HdrAccess} {m : Except Stop (List U8)} {hdr : List U8}
    (h : Touches n tr m) (hok : m = .ok hdr) : hdr.length = n := by
  by_cases hin : Inside n tr
  · obtain ⟨hdr', hok', hlen⟩ := h.inside hin
    rw [hok] at hok'
    cases hok'
    exact hlen
  · obtain ⟨e, he⟩ := h.outside hin
    rw [hok] at he
    cases he

/-- **The loop over the segments** sends a frame for each piece. What no segment changes of
the header holds in all of them. -/
theorem txSegments_frames {mem : Mem} {o : TsoInfo} {n : Nat} {H : List U8 → Prop}
    (hmss : 1 ≤ o.mss) (hmax : o.mss < 2 ^ 16) (hn : n ≤ 259) (hlen : ∀ hdr, H hdr → hdr.length = n)
    (hstep : ∀ {hdr hdr' : List U8} {pieces : List TxIovec} {seg left : Nat}, H hdr →
      txSegmentHeader mem o hdr pieces seg left (min left o.mss) = .ok hdr' → H hdr') :
    ∀ {fuel m : Nat} {hdr : List U8} {payload : List TxIovec} {seg left : Nat}
      {frames r : List (List U8)}, H hdr → left ≤ m →
      txSegments mem o fuel hdr payload seg left frames = .ok r →
      ∃ new, r = frames ++ new ∧
        List.Forall₂ (IsFrame mem H) (txPieces o.mss m payload left) new := by
  intro fuel
  induction fuel with
  | zero => intro m hdr payload seg left frames r _ _ h; cases h
  | succ fuel ih =>
    intro m hdr payload seg left frames r hhdr hle h
    rw [txSegments] at h
    split at h
    · next hzero =>
      cases h
      rw [hzero, txPieces_zero]
      exact ⟨[], (List.append_nil _).symm, .nil⟩
    · next hsome =>
      obtain ⟨k, rfl⟩ : ∃ k, m = k + 1 := ⟨m - 1, by omega⟩
      obtain ⟨hdr', hseg, h⟩ := Except.bind_eq_ok.1 h
      obtain ⟨frame, hframe, h⟩ := Except.bind_eq_ok.1 h
      have hhdr' := hstep hhdr hseg
      have hroom := hlen hdr' hhdr'
      rw [dmProcessTx_segment (by omega) (by omega)] at hframe
      obtain ⟨new, hr, hnew⟩ := ih hhdr' (by omega : left - min left o.mss ≤ k) h
      refine ⟨frame :: new, by rw [hr, List.append_assoc]; rfl, ?_⟩
      rw [txPieces, if_neg hsome]
      exact .cons ⟨hdr', hhdr', (Except.ok.inj hframe).symm⟩ hnew

/-- Inside the header, the loop returns as soon as it makes progress. -/
theorem txSegments_returns {mem : Mem} {o : TsoInfo} (hipcs : o.ipcs.length = 2)
    (hmss : 1 ≤ o.mss) (hmax : o.mss < 2 ^ 16) :
    ∀ {fuel : Nat} {hdr : List U8} {payload : List TxIovec} {seg left : Nat}
      {frames : List (List U8)}, hdr.length ≤ 259 → left < fuel → o.Fits hdr.length left →
      Returns (txSegments mem o fuel hdr payload seg left frames) := by
  intro fuel
  induction fuel with
  | zero => intro hdr payload seg left frames _ hlt; omega
  | succ fuel ih =>
    intro hdr payload seg left frames hhdr hlt hfits
    rw [txSegments]
    split
    · exact ⟨_, rfl⟩
    · obtain ⟨hdr', hok, hlen⟩ :=
        (txSegmentHeader_touches hipcs seg left (min left o.mss)).inside hfits.segment
      refine Returns.bind hok (Returns.bind (dmProcessTx_segment (by omega) (by omega)) ?_)
      rw [← hlen] at hfits hhdr
      exact ih hhdr (by omega) (hfits.next _)

/-! ## The vectors of a packet -/

/-- The descriptor loop keeps at most 64 buffers. -/
def TxLocals.Buffers (l : TxLocals) : Prop :=
  l.iov.length ≤ l.iovcnt ∧ l.iov.length ≤ i82545MaxTxsegs

theorem TxLocals.Buffers.first {l : TxLocals} (h : l.Buffers) (b : Build) (dsc : E1000TxUdesc) :
    (l.first b dsc).Buffers := by
  rw [TxLocals.first]
  split
  · exact h
  · split <;> exact h

theorem TxLocals.Buffers.addBuffer {l : TxLocals} (h : l.Buffers) (env : TxEnv)
    (dsc : E1000TxUdesc) : (l.addBuffer env dsc).Buffers := by
  obtain ⟨hcnt, hmax⟩ := h
  rw [TxLocals.addBuffer]
  dsimp only
  generalize (if dsc.dtype env.build = e1000TxdTypL then ((halfAt (dsc.lower env.build) 0).toNat : Int)
    else ((dsc.lower env.build &&& 0xFFFFF#32).toNat : Int)) = len
  split
  · rw [TxLocals.Buffers]
    dsimp only
    split
    · rw [List.length_append, List.length_singleton]
      omega
    · omega
  · exact ⟨hcnt, hmax⟩

theorem TxLocals.final_iov (l : TxLocals) (b : Build) (cd : E1000ContextDesc) (dsc : E1000TxUdesc) :
    (l.final b cd dsc).iov = l.iov := by
  rw [TxLocals.final]
  dsimp only
  split
  · split <;> rfl
  · rfl

/-- The header copy leaves no more vectors than there were. -/
theorem txCopyHeader_length {mem : Mem} : ∀ {iov rest : List TxIovec} {n : Nat} {hdr : List U8},
    txCopyHeader mem iov n = .ok (hdr, rest) → rest.length ≤ iov.length := by
  intro iov
  induction iov with
  | nil =>
    intro rest n hdr h
    cases n with
    | zero =>
      cases h
      exact Nat.le_refl 0
    | succ n => cases h
  | cons v vs ih =>
    intro rest n hdr h
    cases n with
    | zero =>
      cases h
      exact Nat.le_refl _
    | succ n =>
      rw [txCopyHeader] at h
      dsimp only at h
      split at h
      · obtain ⟨⟨more, iov'⟩, hcopy, h⟩ := Except.bind_eq_ok.1 h
        cases h
        exact Nat.le_succ_of_le (ih hcopy)
      · cases h
        exact Nat.le_refl _

/-- A packet that asks for segmentation, past the descriptor loop and the header copy. -/
theorem e82545TransmitPacket_tso {env : TxEnv} {fuel : Nat} {cd : E1000ContextDesc}
    {dsc : E1000TxUdesc} {l : TxLocals} {hdr : List U8} {rest : List TxIovec} (htso : l.tso = true)
    (hcnt : l.iovcnt ≤ i82545MaxTxsegs)
    (hcopy : txCopyHeader env.mem l.iov (byteAt cd.tcpSegSetup 8).toNat = .ok (hdr, rest)) :
    e82545TransmitPacket env fuel cd dsc l =
      (txInsertVlan (txVlan env dsc) (env.vet.setWidth 16) (halfAt (dsc.upper env.build) 16) hdr >>=
        fun hdr => txTso env.mem fuel cd hdr rest (l.ck0.shift (txVlan env dsc))
          (l.ck1.shift (txVlan env dsc))) := by
  have hlen : txHdrlen l cd (txVlan env dsc) = (byteAt cd.tcpSegSetup 8).toNat := if_pos htso
  rw [← hlen] at hcopy
  rw [e82545TransmitPacket, if_neg (Nat.not_lt.2 hcnt)]
  refine (Except.bind_ok hcopy).trans ?_
  simp only [txSend, htso, if_true]
  rfl

theorem txHdrRoom_le {n : Nat} (h : n ≤ 255) (vlan : Bool) : txHdrRoom n vlan ≤ 259 := by
  rw [txHdrRoom]
  split
  · omega
  · split <;> omega

/-! ## The loop ends -/

/-- A computation that is given enough iterations. -/
def Ends {α : Type} (m : Except Stop α) : Prop := m ≠ .error .outOfFuel

/-- A computation that stops for an access outside its buffers, if it does. -/
def StopsUndefined {α : Type} (m : Except Stop α) : Prop := ∀ e, m = .error e → e = .undefined

namespace StopsUndefined

variable {α β : Type}

theorem ok (a : α) : StopsUndefined (.ok a) := by
  intro e h
  cases h

theorem undefined : StopsUndefined (.error .undefined : Except Stop α) := by
  intro e h
  cases h
  rfl

theorem bind {m : Except Stop α} {f : α → Except Stop β} (hm : StopsUndefined m)
    (hf : ∀ a, m = .ok a → StopsUndefined (f a)) : StopsUndefined (m >>= f) := by
  cases m with
  | error e =>
    intro e' h
    cases h
    exact hm e rfl
  | ok a => exact hf a rfl

theorem ends {m : Except Stop α} (h : StopsUndefined m) : Ends m := by
  intro hfuel
  cases h _ hfuel

theorem readHdr (hdr : List U8) (off n : Nat) : StopsUndefined (readHdr hdr off n) := by
  rw [DeviceModel.readHdr]
  split
  · exact ok _
  · exact undefined

theorem writeHdr (hdr : List U8) (off : Nat) (bytes : List U8) :
    StopsUndefined (writeHdr hdr off bytes) := by
  rw [DeviceModel.writeHdr]
  split
  · exact ok _
  · exact undefined

theorem insertVlan (vlan : Bool) (vet special : U16) (hdr : List U8) :
    StopsUndefined (txInsertVlan vlan vet special hdr) := by
  rw [txInsertVlan]
  split
  · exact ok _
  · split
    · exact undefined
    · exact ok _

theorem copyHeader (mem : Mem) : ∀ (iov : List TxIovec) (n : Nat),
    StopsUndefined (txCopyHeader mem iov n) := by
  intro iov
  induction iov with
  | nil =>
    intro n
    cases n with
    | zero => exact ok _
    | succ n => exact undefined
  | cons v vs ih =>
    intro n
    cases n with
    | zero => exact ok _
    | succ n =>
      rw [txCopyHeader]
      dsimp only
      split
      · exact (ih _).bind fun _ _ => ok _
      · exact ok _

theorem tsoInfo (cd : E1000ContextDesc) (hdr : List U8) (ck0 ck1 : CkInfo) :
    StopsUndefined (txTsoInfo cd hdr ck0 ck1) := by
  have htcpcs : StopsUndefined (txTcpcs hdr ck1) := by
    rw [txTcpcs]
    split
    · exact readHdr _ _ _
    · exact ok _
  exact (readHdr _ _ _).bind fun _ _ => (readHdr _ _ _).bind fun _ _ =>
    (readHdr _ _ _).bind fun _ _ => htcpcs.bind fun _ _ => ok _

theorem ckSegment (mem : Mem) (hdr : List U8) (pieces : List TxIovec) (bytes : List U8)
    (ck : CkInfo) : StopsUndefined (ck.segment mem hdr pieces bytes) := by
  rw [CkInfo.segment]
  split
  · exact (writeHdr _ _ _).bind fun _ _ => writeHdr _ _ _
  · exact ok _

theorem updateIp (o : TsoInfo) (hdr : List U8) (seg now : Nat) :
    StopsUndefined (o.updateIp hdr seg now) := by
  rw [TsoInfo.updateIp]
  split
  · exact (writeHdr _ _ _).bind fun _ _ => writeHdr _ _ _
  · exact writeHdr _ _ _

theorem updateTcp (o : TsoInfo) (n : Nat) (hdr : List U8) (left now : Nat) :
    StopsUndefined (o.updateTcp n hdr left now) := by
  rw [TsoInfo.updateTcp]
  split
  · refine (writeHdr _ _ _).bind fun _ _ => ?_
    split
    · exact (readHdr _ _ _).bind fun _ _ => writeHdr _ _ _
    · exact ok _
  · exact writeHdr _ _ _

theorem segmentHeader (mem : Mem) (o : TsoInfo) (hdr : List U8) (pieces : List TxIovec)
    (seg left now : Nat) : StopsUndefined (txSegmentHeader mem o hdr pieces seg left now) := by
  rw [txSegmentHeader_eq]
  exact (updateIp _ _ _ _).bind fun _ _ => (updateTcp _ _ _ _ _).bind fun _ _ =>
    (ckSegment _ _ _ _ _).bind fun _ _ => ckSegment _ _ _ _ _

end StopsUndefined

namespace Ends

variable {α β : Type}

theorem ok (a : α) : Ends (.ok a) := by
  intro h
  cases h

theorem bind {m : Except Stop α} {f : α → Except Stop β} (hm : Ends m)
    (hf : ∀ a, m = .ok a → Ends (f a)) : Ends (m >>= f) := by
  cases m with
  | error e => exact fun h => hm (congrArg _ (Except.error.inj h))
  | ok a => exact hf a rfl

theorem processTx (mem : Mem) : ∀ (iov : List TxIovec) (netbuf : List U8),
    Ends (dmProcessTx mem iov netbuf) := by
  intro iov
  induction iov with
  | nil => intro netbuf; exact ok _
  | cons v vs ih =>
    intro netbuf
    rw [dmProcessTx]
    split
    · exact StopsUndefined.undefined.ends
    · split
      · intro h
        cases h
      · exact ih _

/-- With an `mss` each segment leaves less. -/
theorem segments {mem : Mem} {o : TsoInfo} (hmss : 1 ≤ o.mss) :
    ∀ {fuel : Nat} {hdr : List U8} {payload : List TxIovec} {seg left : Nat}
      {frames : List (List U8)}, left < fuel →
      Ends (txSegments mem o fuel hdr payload seg left frames) := by
  intro fuel
  induction fuel with
  | zero => intro hdr payload seg left frames hlt; omega
  | succ fuel ih =>
    intro hdr payload seg left frames hlt
    rw [txSegments]
    split
    · exact ok _
    · have hheader := StopsUndefined.segmentHeader mem o hdr (txTakePayload payload (min left o.mss)).1
        seg left (min left o.mss)
      exact hheader.ends.bind fun _ _ => (processTx _ _ _).bind fun _ _ => ih (by omega)

end Ends

/-- "Doing TSO" ends where the fields are not in the header, too: the first segment stops. -/
theorem Ends.tso {mem : Mem} {fuel : Nat} {cd : E1000ContextDesc} {vlan : Bool} {hdr : List U8}
    {rest : List TxIovec} {ck0 ck1 : CkInfo}
    (hlen : hdr.length = txHdrRoom (byteAt cd.tcpSegSetup 8).toNat vlan)
    (haddrs : vlan = true → 12 ≤ (byteAt cd.tcpSegSetup 8).toNat)
    (h : TsoHdrFits cd vlan ck0 ck1 → 1 ≤ (halfAt cd.tcpSegSetup 16).toNat ∨
      (cd.cmdAndLength &&& 0x000fffff#32).toNat = 0)
    (hfuel : (cd.cmdAndLength &&& 0x000fffff#32).toNat < fuel) :
    Ends (txTso mem fuel cd hdr rest ck0 ck1) := by
  refine (StopsUndefined.tsoInfo _ _ _ _).ends.bind fun o ho => ?_
  obtain ⟨hinfo, hcut⟩ := txTsoInfo_eq_ok ho
  rw [← hcut.mss, ← hcut.paylen] at h
  rw [← hcut.paylen] at hfuel
  obtain ⟨f, rfl⟩ : ∃ f, fuel = f + 1 := ⟨fuel - 1, by omega⟩
  by_cases hprogress : 1 ≤ o.mss ∨ o.paylen = 0
  · rcases hprogress with hmss | hnone
    · exact Ends.segments hmss hfuel
    · rw [txSegments, if_pos hnone]
      exact Ends.ok _
  · -- only the flags of the first segment can be outside
    have hout : ¬ Inside hdr.length (o.trace hdr.length o.paylen (min o.paylen o.mss)) := by
      intro hin
      obtain ⟨h0, h1, h2, h3⟩ := inside_txTsoInfoTrace.1 hinfo
      rw [← hcut.ck0, ← hcut.ck1] at hinfo
      have hflags := (TsoInfo.inside_trace hinfo).1 hin
      rw [hlen] at h0 h1 h2 h3 hflags
      rw [hcut.ck1] at hflags
      refine hprogress (h ⟨haddrs, h0, h1, h2, h3, fun htcp hmore => hflags ⟨?_, ?_⟩⟩)
      · rw [hcut.tcp, bne_iff_ne]
        exact htcp
      · rw [← hcut.mss, ← hcut.paylen] at hmore
        omega
    obtain ⟨e, he⟩ := (@txSegmentHeader_touches mem o hdr (txTakePayload rest (min o.paylen o.mss)).1
      hcut.ipcs 0 o.paylen (min o.paylen o.mss)).outside hout
    have hends := StopsUndefined.segmentHeader mem o hdr (txTakePayload rest (min o.paylen o.mss)).1 0 o.paylen
      (min o.paylen o.mss)
    rw [txSegments, if_neg fun hzero => hprogress (.inr hzero)]
    refine hends.ends.bind fun hdr' hok => ?_
    rw [he] at hok
    cases hok

end DeviceModel
