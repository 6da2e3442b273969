import DeviceModel.E82545.TransmitRing

/-!
# The descriptor loops end and stay in the ring

Both loops of `e82545_transmit` that walk the ring stop when they come to an index that
the guest has written, and step modulo the size of the ring. Neither `TDH` nor `TDT` is
compared with that size. A head outside the ring is read through once, and a tail
outside it is never come to, so that only a descriptor can stop the scan.
-/

namespace DeviceModel

variable {env : TxEnv} {cd : E1000ContextDesc} {ring : Nat → E1000TxUdesc}

/-! ## The indices -/

/-- The indices at which the descriptor loop reads `esc_txdesc`, in order. -/
def e82545TxScanUses (env : TxEnv) (ring : Nat → E1000TxUdesc) (tail dsize : Nat) :
    (fuel head desc : Nat) → TxLocals → List Nat
  | 0, _, _, _ => []
  | fuel + 1, head, desc, l =>
    let dsc := ring head
    let dtype := dsc.dtype env.build
    if head = tail then []
    else if desc = 0 ∧ dtype = e1000TxdTypC then [head]
    else if desc ≠ 0 ∧ dtype ≠ l.ntype then [head]
    else
      let l := if desc = 0 then l.first env.build dsc else l
      let l := l.addBuffer env dsc
      if dsc.eop env.build then [head]
      else head :: e82545TxScanUses env ring tail dsize fuel ((head + 1) % dsize) (desc + 1) l

/-- The indices at which `e82545_transmit_done` reads and writes `esc_txdesc`. -/
def e82545TransmitDoneUses (tail dsize : Nat) : (fuel head : Nat) → List Nat
  | 0, _ => []
  | fuel + 1, head =>
    if head = tail then []
    else head :: e82545TransmitDoneUses tail dsize fuel ((head + 1) % dsize)

/-- From inside the ring the loop stays inside. -/
theorem e82545TxScanUses_lt {tail dsize : Nat} : ∀ {fuel head desc : Nat} {l : TxLocals},
    head < dsize → ∀ i ∈ e82545TxScanUses env ring tail dsize fuel head desc l, i < dsize := by
  intro fuel
  induction fuel with
  | zero => intro head desc l _ i hi; cases hi
  | succ fuel ih =>
    intro head desc l hhead i hi
    have hone : i ∈ [head] → i < dsize := by
      intro hi
      rw [List.mem_singleton] at hi
      omega
    rw [e82545TxScanUses] at hi
    dsimp only at hi
    split at hi
    · cases hi
    split at hi
    · exact hone hi
    split at hi
    · exact hone hi
    split at hi
    · exact hone hi
    · rcases List.mem_cons.1 hi with rfl | hi
      · exact hhead
      · exact ih (Nat.mod_lt _ (by omega)) i hi

/-- The first index is the head, unless nothing is published. -/
theorem head_mem_e82545TxScanUses {tail dsize fuel head desc : Nat} {l : TxLocals}
    (h : head ≠ tail) : head ∈ e82545TxScanUses env ring tail dsize (fuel + 1) head desc l := by
  rw [e82545TxScanUses]
  simp only [if_neg h]
  split
  · simp
  · split
    · simp
    · split <;> simp

theorem e82545TransmitDoneUses_lt {tail dsize : Nat} : ∀ {fuel head : Nat}, head < dsize →
    ∀ i ∈ e82545TransmitDoneUses tail dsize fuel head, i < dsize := by
  intro fuel
  induction fuel with
  | zero => intro head _ i hi; cases hi
  | succ fuel ih =>
    intro head hhead i hi
    rw [e82545TransmitDoneUses] at hi
    split at hi
    · cases hi
    · rcases List.mem_cons.1 hi with rfl | hi
      · exact hhead
      · exact ih (Nat.mod_lt _ (by omega)) i hi

/-! ## The scan ends -/

/-- `ntype` after the first descriptor. -/
def txNtype (b : Build) (dsc : E1000TxUdesc) : U32 :=
  if dsc.dtype b = e1000TxdTypD then e1000TxdTypD else e1000TxdTypL

/-- A later descriptor at which the loop goes on: it is published, of the packet's type,
and not its last. -/
def ScanGoes (b : Build) (ring : Nat → E1000TxUdesc) (tail : Nat) (ntype : U32) (i : Nat) : Prop :=
  i ≠ tail ∧ (ring i).dtype b = ntype ∧ (ring i).eop b = false

theorem TxLocals.addBuffer_ntype (env : TxEnv) (l : TxLocals) (dsc : E1000TxUdesc) :
    (l.addBuffer env dsc).ntype = l.ntype :=
  (apply_ite TxLocals.ntype _ _ _).trans (ite_self _)

theorem TxLocals.first_ntype (b : Build) (dsc : E1000TxUdesc) :
    (TxLocals.start.first b dsc).ntype = txNtype b dsc := by
  rw [TxLocals.first, txNtype]
  split
  · next h =>
    rw [h]
    rfl
  · split <;> rfl

/-- Past the first descriptor the loop uses up its iterations exactly where it goes on
at each of them. -/
theorem e82545TxScan_later {tail dsize : Nat} {ntype : U32} :
    ∀ {fuel head desc : Nat} {l : TxLocals}, desc ≠ 0 → l.ntype = ntype →
      (e82545TxScan env cd ring tail dsize fuel head desc l = .error .outOfFuel ↔
        ∀ k < fuel, ScanGoes env.build ring tail ntype (ringWalk dsize head k)) := by
  intro fuel
  induction fuel with
  | zero => intro head desc l _ _; simp [e82545TxScan]
  | succ fuel ih =>
    intro head desc l hdesc hntype
    rw [Nat.forall_lt_succ_left, e82545TxScan]
    simp only [hdesc, false_and, if_false, not_false_eq_true, true_and, ne_eq, hntype, ringWalk]
    by_cases htail : head = tail
    · simp [htail, ScanGoes]
    · rw [if_neg htail]
      by_cases htype : (ring head).dtype env.build = ntype
      · rw [if_neg fun h => h htype]
        cases heop : (ring head).eop env.build with
        | true => simp [ScanGoes, heop]
        | false =>
          have hgoes : ScanGoes env.build ring tail ntype head := ⟨htail, htype, heop⟩
          have hnext := @ih ((head + 1) % dsize) (desc + 1) (l.addBuffer env (ring head))
            (Nat.succ_ne_zero desc) ((TxLocals.addBuffer_ntype _ _ _).trans hntype)
          simp only [ringWalk_shift] at hnext
          simp only [Bool.false_eq_true, if_false, hgoes, true_and]
          exact hnext
      · simp [htype, ScanGoes]

/-- The scan from its start. -/
theorem e82545TxScan_start {tail dsize fuel head : Nat} :
    e82545TxScan env cd ring tail dsize (fuel + 1) head 0 .start = .error .outOfFuel ↔
      head ≠ tail ∧ (ring head).dtype env.build ≠ e1000TxdTypC ∧
        (ring head).eop env.build = false ∧
        ∀ k < fuel, ScanGoes env.build ring tail (txNtype env.build (ring head))
          (ringWalk dsize head (k + 1)) := by
  have hlater := @e82545TxScan_later env cd ring tail dsize (txNtype env.build (ring head)) fuel
    ((head + 1) % dsize) 1 ((TxLocals.start.first env.build (ring head)).addBuffer env (ring head))
    (by decide) ((TxLocals.addBuffer_ntype _ _ _).trans (TxLocals.first_ntype _ _))
  simp only [ringWalk_shift] at hlater
  rw [e82545TxScan, ← hlater]
  by_cases htail : head = tail
  · simp [htail]
  · by_cases htype : (ring head).dtype env.build = e1000TxdTypC
    · simp [htail, htype]
    · cases (ring head).eop env.build <;> simp [htail, htype]

/-- A descriptor that stops a scan which starts at `head`. -/
def ScanStopper (b : Build) (ring : Nat → E1000TxUdesc) (head i : Nat) : Prop :=
  (ring i).eop b = true ∨ (ring i).dtype b ≠ txNtype b (ring head)

/-- **The scan ends** if and only if nothing is published, or the first descriptor is a
context or ends a packet, or some slot of the ring is the tail or stops the scan. -/
theorem e82545TxScan_ends_iff {tail dsize head : Nat} (hsize : 0 < dsize) :
    (∃ n, ∀ fuel, n ≤ fuel →
        e82545TxScan env cd ring tail dsize fuel head 0 .start ≠ .error .outOfFuel) ↔
      head = tail ∨ (ring head).dtype env.build = e1000TxdTypC ∨ (ring head).eop env.build = true ∨
        tail < dsize ∨ ∃ i < dsize, ScanStopper env.build ring head i := by
  constructor
  · rintro ⟨n, hn⟩
    by_contra hno
    simp only [not_or, not_exists, not_and] at hno
    obtain ⟨htail, htype, heop, hout, hring⟩ := hno
    refine hn (n + 1) (Nat.le_succ n) (e82545TxScan_start.2 ⟨htail, htype, by simpa using heop, ?_⟩)
    intro k _
    have hlt := @ringWalk_lt dsize head k hsize
    have hgo := hring _ hlt
    simp only [ScanStopper, not_or, not_not, Bool.not_eq_true] at hgo
    exact ⟨by omega, hgo.2, hgo.1⟩
  · intro h
    by_contra hno
    simp only [not_exists, not_forall] at hno
    -- a walk that never stops comes by every slot
    have hall : ∀ k, ScanGoes env.build ring tail (txNtype env.build (ring head))
        (ringWalk dsize head (k + 1)) := by
      intro k
      obtain ⟨fuel, hle, hfuel⟩ := hno (k + 2)
      obtain ⟨f, rfl⟩ : ∃ f, fuel = f + 1 := ⟨fuel - 1, by omega⟩
      exact (e82545TxScan_start.1 (not_not.1 hfuel)).2.2.2 k (by omega)
    have hslot : ∀ i < dsize, ScanGoes env.build ring tail (txNtype env.build (ring head)) i := by
      intro i hi
      obtain ⟨k, rfl⟩ := exists_ringWalk head hi
      exact hall k
    obtain ⟨fuel, hle, hfuel⟩ := hno 1
    obtain ⟨f, rfl⟩ : ∃ f, fuel = f + 1 := ⟨fuel - 1, by omega⟩
    obtain ⟨htail, htype, heop, -⟩ := e82545TxScan_start.1 (not_not.1 hfuel)
    rcases h with h | h | h | h | ⟨i, hi, hstop⟩
    · exact htail h
    · exact htype h
    · simp [heop] at h
    · exact (hslot tail h).1 rfl
    · obtain ⟨-, hsame, hneop⟩ := hslot i hi
      rcases hstop with hstop | hstop
      · simp [hneop] at hstop
      · exact hstop hsame

/-! ## One call -/

/-- The last descriptor that a call has come to, if it writes back. -/
def txScanLast (head : Nat) : TxScan → Option Nat
  | .unfinished => none
  | .context _ => some head
  | .packet _ last _ _ => some last

/-- Both loops of a call end, and every index that they use is in the ring. -/
structure TransmitInRing (env : TxEnv) (x : TxSide) (head tail dsize : Nat) : Prop where
  scanEnds : ∃ n, ∀ fuel, n ≤ fuel →
    e82545TxScan env x.txctx x.ring tail dsize fuel head 0 .start ≠ .error .outOfFuel
  scanUses : ∀ fuel, ∀ i ∈ e82545TxScanUses env x.ring tail dsize fuel head 0 .start, i < dsize
  doneEnds : ∀ fuel found last tdwb,
    e82545TxScan env x.txctx x.ring tail dsize fuel head 0 .start = .ok found →
    txScanLast head found = some last →
    ∃ n, ∀ fuel, n ≤ fuel →
      Returns (e82545TransmitDone env.build ((last + 1) % dsize) dsize fuel head x.ring tdwb)
  doneUses : ∀ fuel found last fuel',
    e82545TxScan env x.txctx x.ring tail dsize fuel head 0 .start = .ok found →
    txScanLast head found = some last →
    ∀ i ∈ e82545TransmitDoneUses ((last + 1) % dsize) dsize fuel' head, i < dsize

/-- The head is in the ring, and so is the tail or a descriptor that stops the scan. -/
def ScanFits (b : Build) (ring : Nat → E1000TxUdesc) (head tail dsize : Nat) : Prop :=
  head = tail ∨ head < dsize ∧
    (tail < dsize ∨ (ring head).dtype b = e1000TxdTypC ∨ ∃ i < dsize, ScanStopper b ring head i)

/-- With nothing published there is nothing to write back. -/
theorem txScanLast_ne {tail dsize fuel head last : Nat} {found : TxScan}
    (h : e82545TxScan env cd ring tail dsize fuel head 0 .start = .ok found)
    (hlast : txScanLast head found = some last) : head ≠ tail := by
  rintro rfl
  cases fuel with
  | zero => cases h
  | succ fuel =>
    rw [e82545TxScan, if_pos rfl] at h
    cases h
    cases hlast

/-- The write-back walks from the head to the place after the last descriptor. -/
theorem e82545TransmitDone_ends {b : Build} {head dsize stop : Nat} {tdwb : Bool}
    (hhead : head < dsize) (hstop : stop < dsize) : ∃ n, ∀ fuel, n ≤ fuel →
      Returns (e82545TransmitDone b stop dsize fuel head ring tdwb) := by
  have hpos : ∃ m < dsize, ringPos dsize head m = stop := by
    rcases Nat.lt_or_ge stop head with hlt | hge
    · refine ⟨stop + dsize - head, by omega, ?_⟩
      rw [ringPos, Nat.add_sub_cancel' (by omega), Nat.add_mod_right, Nat.mod_eq_of_lt hstop]
    · refine ⟨stop - head, by omega, ?_⟩
      rw [ringPos, Nat.add_sub_cancel' hge, Nat.mod_eq_of_lt hstop]
  obtain ⟨m, hm, hringPos⟩ := hpos
  refine ⟨m + 1, fun fuel hfuel => ?_⟩
  obtain ⟨w, hw⟩ := @e82545TransmitDone_returns b dsize head 0 m fuel (Nat.zero_le m) hm (by omega)
    ring tdwb
  rw [ringPos_zero hhead, hringPos] at hw
  exact ⟨_, hw⟩

/-- **The descriptor loops.** They end and stay in the ring if and only if the head and
a place to stop are in it. -/
theorem transmit_in_ring_iff (env : TxEnv) (x : TxSide) (head tail dsize : Nat)
    (hsize : 8 ≤ dsize) :
    TransmitInRing env x head tail dsize ↔ ScanFits env.build x.ring head tail dsize := by
  have hends := @e82545TxScan_ends_iff env x.txctx x.ring tail dsize head (by omega)
  constructor
  · intro h
    by_cases htail : head = tail
    · exact .inl htail
    · have hhead := h.scanUses 1 head (head_mem_e82545TxScanUses htail)
      refine .inr ⟨hhead, ?_⟩
      rcases hends.1 h.scanEnds with h | h | h | h | h
      · exact absurd h htail
      · exact .inr (.inl h)
      · exact .inr (.inr ⟨head, hhead, .inl h⟩)
      · exact .inl h
      · exact .inr (.inr h)
  · intro h
    have hhead : head ≠ tail → head < dsize := fun hne => h.elim (fun he => absurd he hne) (·.1)
    refine ⟨hends.2 ?_, fun fuel => ?_, ?_, ?_⟩
    · rcases h with h | ⟨-, h | h | h⟩
      · exact .inl h
      · exact .inr (.inr (.inr (.inl h)))
      · exact .inr (.inl h)
      · exact .inr (.inr (.inr (.inr h)))
    · by_cases htail : head = tail
      · intro i hi
        cases fuel with
        | zero => cases hi
        | succ fuel =>
          rw [e82545TxScanUses, if_pos htail] at hi
          cases hi
      · exact e82545TxScanUses_lt (hhead htail)
    · intro fuel found last tdwb hscan hlast
      exact e82545TransmitDone_ends (hhead (txScanLast_ne hscan hlast))
        (Nat.mod_lt _ (by omega))
    · intro fuel found last fuel' hscan hlast
      exact e82545TransmitDoneUses_lt (hhead (txScanLast_ne hscan hlast))

/-- A ring of descriptors that end no packet. -/
def openRing : TxSide where
  ring := fun _ => ⟨0, 0, 0x40, 0, 0, 0⟩
  txctx := ⟨0, 0, 0, 0⟩
  wire := []

/-- With the tail in the ring both loops end on it. -/
theorem transmit_in_ring_iff_tail :
    TransmitInRing ⟨.integer, ⟨0⟩, 0, 0, fun _ => 0⟩ openRing 0 5 8 :=
  (transmit_in_ring_iff ⟨.integer, ⟨0⟩, 0, 0, fun _ => 0⟩ openRing 0 5 8 (by decide)).2
    (.inr ⟨by decide, .inl (by decide)⟩)

/-- With the tail outside the ring the scan goes round for ever. -/
theorem transmit_scan_endless :
    ¬ ∀ (env : TxEnv) (x : TxSide) (head tail dsize : Nat), head < 2 ^ 16 → tail < 2 ^ 16 →
      8 ≤ dsize → TransmitInRing env x head tail dsize := by
  intro h
  have hends := (h ⟨.integer, ⟨0⟩, 0, 0, fun _ => 0⟩ openRing 0 0xffff 8 (by decide) (by decide)
    (by decide)).scanEnds
  rw [e82545TxScan_ends_iff (by decide)] at hends
  rcases hends with h | h | h | h | ⟨i, -, h⟩
  · exact absurd h (by decide)
  · exact absurd h (by decide)
  · exact absurd h (by decide)
  · exact absurd h (by decide)
  · have hdsc : openRing.ring i = openRing.ring 0 := rfl
    rw [ScanStopper, hdsc] at h
    exact absurd h (by decide)

end DeviceModel
