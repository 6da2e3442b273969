import DeviceModel.Library.Ring
import DeviceModel.E82545.Transmit

/-!
# One transmit call on a window of the ring

The call looks at descriptors from the head on and stops at the tail. This file says
what it does in terms of offsets into the window of published descriptors: where it
finds a whole packet or a context, a later tail makes no difference; where it does
not, it changes nothing. More fuel makes no difference either.
-/

namespace DeviceModel

variable {env : TxEnv} {cd : E1000ContextDesc} {ring : Nat → E1000TxUdesc}

/-! ## The descriptor loop -/

/-- More fuel finds the same packet. -/
theorem e82545TxScan_mono {tail dsize fuel fuel' head desc : Nat} {l : TxLocals} {r : TxScan}
    (hle : fuel ≤ fuel') (h : e82545TxScan env cd ring tail dsize fuel head desc l = .ok r) :
    e82545TxScan env cd ring tail dsize fuel' head desc l = .ok r := by
  induction fuel generalizing fuel' head desc l with
  | zero => cases h
  | succ fuel ih =>
    obtain ⟨f, rfl⟩ : ∃ f, fuel' = f + 1 := ⟨fuel' - 1, by omega⟩
    simp only [e82545TxScan] at h ⊢
    split
    · rwa [if_pos ‹_›] at h
    · rw [if_neg ‹_›] at h
      split
      · rwa [if_pos ‹_›] at h
      · rw [if_neg ‹_›] at h
        split
        · rwa [if_pos ‹_›] at h
        · rw [if_neg ‹_›] at h
          split
          · rwa [if_pos ‹_›] at h
          · rw [if_neg ‹_›] at h
            exact ih (by omega) h

/-- Where the loop finds the end of what it looks for before the tail at offset `p`,
it finds it before a later tail at `d`, inside the window. -/
theorem e82545TxScan_tail {n h k p d fuel desc : Nat} {l : TxLocals} {r : TxScan}
    (hkp : k ≤ p) (hpd : p ≤ d) (hdn : d < n)
    (hr : e82545TxScan env cd ring (ringPos n h p) n fuel (ringPos n h k) desc l = .ok r) :
    r = .unfinished ∨
    (e82545TxScan env cd ring (ringPos n h d) n fuel (ringPos n h k) desc l = .ok r ∧
      k < p ∧
      ∀ dsc last desc' l', r = .packet dsc last desc' l' →
        ∃ j, k ≤ j ∧ j < p ∧ last = ringPos n h j ∧ desc' = desc + (j - k)) := by
  induction fuel generalizing k desc l with
  | zero => cases hr
  | succ fuel ih =>
    simp only [e82545TxScan] at hr ⊢
    by_cases hk : k = p
    · subst hk
      rw [if_pos rfl] at hr
      cases hr
      exact .inl rfl
    · have hne : ∀ q, p ≤ q → q < n → ¬ ringPos n h k = ringPos n h q := by
        intro q hq hqn he
        rw [ringPos_inj (by omega) hqn] at he
        omega
      rw [if_neg (hne p (Nat.le_refl p) (by omega))] at hr
      rw [if_neg (hne d hpd hdn)]
      split at hr
      · -- a context descriptor
        next hctx =>
        rw [if_pos hctx]
        cases hr
        exact .inr ⟨rfl, by omega, fun _ _ _ _ h => by cases h⟩
      · next hctx =>
        rw [if_neg hctx]
        split at hr
        · cases hr
        · next htype =>
          rw [if_neg htype]
          split at hr
          · -- the last descriptor of a packet
            next heop =>
            rw [if_pos heop]
            cases hr
            refine .inr ⟨rfl, by omega, fun dsc last desc' l' h => ?_⟩
            cases h
            exact ⟨k, Nat.le_refl k, by omega, rfl, by omega⟩
          · next heop =>
            rw [if_neg heop]
            rw [ringPos_succ] at hr ⊢
            rcases ih (by omega) hr with hu | ⟨hd, -, hpacket⟩
            · exact .inl hu
            · refine .inr ⟨hd, by omega, fun dsc last desc' l' h => ?_⟩
              obtain ⟨j, hkj, hjp, hlast, hdesc⟩ := hpacket dsc last desc' l' h
              exact ⟨j, by omega, hjp, hlast, by omega⟩

/-! ## Writing back -/

/-- The ring with `DD` set at the offsets `j` to `k - 1` that ask for it. -/
def markDone (b : Build) (n h j k : Nat) (ring : Nat → E1000TxUdesc) (i : Nat) : E1000TxUdesc :=
  if inWindow n h j k i ∧ (ring i).rs b then (ring i).setDD b else ring i

theorem markDone_self (b : Build) (n h k : Nat) (ring : Nat → E1000TxUdesc) :
    markDone b n h k k ring = ring := by
  funext i
  exact if_neg fun hi => not_inWindow_self i hi.1

@[simp] theorem rs_setDD (b : Build) (d : E1000TxUdesc) : (d.setDD b).rs b = d.rs b := by
  simp [E1000TxUdesc.rs, E1000TxUdesc.setDD]

/-- Setting `DD` twice changes nothing more. -/
@[simp] theorem setDD_setDD (b : Build) (d : E1000TxUdesc) : (d.setDD b).setDD b = d.setDD b := by
  unfold E1000TxUdesc.setDD
  cases b <;>
    simp [E1000TxUdesc.setUpper, E1000TxUdesc.upper, BitVec.or_assoc, BitVec.or_self]

/-- Marking a window in two parts. -/
theorem markDone_markDone {b : Build} {n h j k m : Nat} (hjk : j ≤ k) (hkm : k ≤ m)
    (ring : Nat → E1000TxUdesc) :
    markDone b n h k m (markDone b n h j k ring) = markDone b n h j m ring := by
  funext i
  have happ := inWindow_append hjk hkm (n := n) (h := h) (i := i)
  unfold markDone
  by_cases hrs : (ring i).rs b = true
  · by_cases hj : inWindow n h j k i
    · by_cases hk : inWindow n h k m i <;> simp [hrs, hj, hk, happ]
    · by_cases hk : inWindow n h k m i <;> simp [hrs, hj, hk, happ]
  · simp [hrs]

/-- Marking one slot. -/
theorem markDone_succ (b : Build) (n h k : Nat) (ring : Nat → E1000TxUdesc) :
    markDone b n h k (k + 1) ring =
      if (ring (ringPos n h k)).rs b then
        Function.update ring (ringPos n h k) ((ring (ringPos n h k)).setDD b)
      else ring := by
  funext i
  simp only [markDone, inWindow_succ_self]
  by_cases hi : ringPos n h k = i
  · subst hi
    by_cases hrs : (ring (ringPos n h k)).rs b = true
    · simp [hrs]
    · simp [hrs]
  · by_cases hrs : (ring (ringPos n h k)).rs b = true
    · rw [if_neg fun h => hi h.1, if_pos hrs, Function.update_of_ne (Ne.symm hi)]
    · rw [if_neg fun h => hi h.1, if_neg hrs]

/-- The loop of `e82545_transmit_done` from offset `k` up to offset `m`. -/
theorem e82545TransmitDone_eq_ok {b : Build} {n h k m fuel : Nat} {ring ring' : Nat → E1000TxUdesc}
    {w w' : Bool} (hkm : k ≤ m) (hmn : m < n)
    (hr : e82545TransmitDone b (ringPos n h m) n fuel (ringPos n h k) ring w = .ok (ring', w')) :
    ring' = markDone b n h k m ring := by
  induction fuel generalizing k ring w with
  | zero => cases hr
  | succ fuel ih =>
    rw [e82545TransmitDone] at hr
    by_cases hk : k = m
    · subst hk
      rw [if_pos rfl] at hr
      cases hr
      exact (markDone_self b n h k _).symm
    · have hne : ¬ ringPos n h k = ringPos n h m := by
        rw [ringPos_inj (by omega) hmn]
        exact hk
      rw [if_neg hne, ringPos_succ] at hr
      rw [← markDone_markDone (Nat.le_succ k) (by omega : k + 1 ≤ m), markDone_succ]
      split at hr
      · next hrs =>
        rw [if_pos hrs]
        exact ih (by omega) hr
      · next hrs =>
        rw [if_neg hrs]
        exact ih (by omega) hr

/-- The loop ends when it is given an iteration for each descriptor. -/
theorem e82545TransmitDone_returns (b : Build) {n h k m fuel : Nat} (hkm : k ≤ m) (hmn : m < n)
    (hfuel : m - k < fuel) (ring : Nat → E1000TxUdesc) (w : Bool) :
    ∃ w', e82545TransmitDone b (ringPos n h m) n fuel (ringPos n h k) ring w =
      .ok (markDone b n h k m ring, w') := by
  suffices hret : ∃ r, e82545TransmitDone b (ringPos n h m) n fuel (ringPos n h k) ring w = .ok r by
    obtain ⟨⟨ring', w'⟩, hr⟩ := hret
    exact ⟨w', by rw [hr, e82545TransmitDone_eq_ok hkm hmn hr]⟩
  induction fuel generalizing k ring w with
  | zero => omega
  | succ fuel ih =>
    rw [e82545TransmitDone]
    by_cases hk : k = m
    · subst hk
      exact ⟨_, if_pos rfl⟩
    · have hne : ¬ ringPos n h k = ringPos n h m := by
        rw [ringPos_inj (by omega) hmn]
        exact hk
      rw [if_neg hne, ringPos_succ]
      split
      · exact ih (by omega) (by omega) _ _
      · exact ih (by omega) (by omega) _ _

/-! ## One call -/

/-- More fuel sends the same segments. -/
theorem txSegments_mono {mem : Mem} {o : TsoInfo} {fuel fuel' seg left : Nat} {hdr : List U8}
    {payload : List TxIovec} {frames r : List (List U8)} (hle : fuel ≤ fuel')
    (h : txSegments mem o fuel hdr payload seg left frames = .ok r) :
    txSegments mem o fuel' hdr payload seg left frames = .ok r := by
  induction fuel generalizing fuel' hdr payload seg left frames with
  | zero => cases h
  | succ fuel ih =>
    obtain ⟨f, rfl⟩ : ∃ f, fuel' = f + 1 := ⟨fuel' - 1, by omega⟩
    rw [txSegments] at h ⊢
    split at h
    · next hleft => rwa [if_pos hleft]
    · next hleft =>
      rw [if_neg hleft]
      obtain ⟨hdr', hhdr, h⟩ := Except.bind_eq_ok.1 h
      obtain ⟨frame, hframe, h⟩ := Except.bind_eq_ok.1 h
      exact Except.bind_eq_ok.2 ⟨hdr', hhdr, Except.bind_eq_ok.2 ⟨frame, hframe, ih (by omega) h⟩⟩

/-- More fuel sends the same frames. -/
theorem e82545TransmitPacket_mono {fuel fuel' : Nat} {dsc : E1000TxUdesc} {l : TxLocals}
    {r : List (List U8)} (hle : fuel ≤ fuel')
    (h : e82545TransmitPacket env fuel cd dsc l = .ok r) :
    e82545TransmitPacket env fuel' cd dsc l = .ok r := by
  unfold e82545TransmitPacket at h ⊢
  split at h
  · next hmany => rwa [if_pos hmany]
  · next hmany =>
    rw [if_neg hmany]
    obtain ⟨⟨hdr, rest⟩, hcopy, h⟩ := Except.bind_eq_ok.1 h
    refine Except.bind_eq_ok.2 ⟨(hdr, rest), hcopy, ?_⟩
    obtain ⟨hdr', hvlan, h⟩ := Except.bind_eq_ok.1 h
    refine Except.bind_eq_ok.2 ⟨hdr', hvlan, ?_⟩
    unfold txSend at h ⊢
    split at h
    · next htso =>
      obtain ⟨o, ho, h⟩ := Except.bind_eq_ok.1 h
      rw [if_pos htso]
      exact Except.bind_eq_ok.2 ⟨o, ho, txSegments_mono hle h⟩
    · next htso => rwa [if_neg htso]

/-- What the `done:` label does to the window. -/
theorem e82545TxDone_eq_ok {n h k j fuel desc : Nat} {x : TxSide} {tdwb : Bool} {r : TxResult}
    (hkj : k ≤ j) (hjn : j + 1 < n)
    (hr : e82545TxDone env fuel x (ringPos n h k) (ringPos n h j) desc n tdwb = .ok r) :
    r.sent = desc + 1 ∧ r.rhead = ringPos n h (j + 1) ∧
      r.side = { x with ring := markDone env.build n h k (j + 1) x.ring } := by
  rw [e82545TxDone, ringPos_succ] at hr
  obtain ⟨⟨ring', w⟩, hdone, hr⟩ := Except.bind_eq_ok.1 hr
  cases hr
  rw [e82545TransmitDone_eq_ok (by omega) hjn hdone]
  exact ⟨rfl, rfl, rfl⟩

/-- What the call sends and saves for a packet or context that the scan has found,
before the status is written back. -/
def txEffect (env : TxEnv) (fuel : Nat) (x : TxSide) : TxScan → Except Stop TxSide
  | .unfinished => .ok x
  | .context cd => .ok { x with txctx := cd }
  | .packet dsc _ _ l => do
    let frames ← e82545TransmitPacket env fuel x.txctx dsc l
    .ok { x with wire := x.wire ++ frames }

/-- The descriptors that the scan has passed over. -/
def TxScan.count : TxScan → Nat
  | .unfinished => 0
  | .context _ => 1
  | .packet _ _ desc _ => desc + 1

theorem txEffect_mono {fuel fuel' : Nat} {x y : TxSide} {found : TxScan} (hle : fuel ≤ fuel')
    (h : txEffect env fuel x found = .ok y) : txEffect env fuel' x found = .ok y := by
  cases found with
  | unfinished => exact h
  | context cd => exact h
  | packet dsc last desc l =>
    obtain ⟨frames, hframes, h⟩ := Except.bind_eq_ok.1 h
    exact Except.bind_eq_ok.2 ⟨frames, e82545TransmitPacket_mono hle hframes, h⟩

/-- The scan from the head of a packet. -/
abbrev txScanFrom (env : TxEnv) (x : TxSide) (n h k p fuel : Nat) : Except Stop TxScan :=
  e82545TxScan env x.txctx x.ring (ringPos n h p) n fuel (ringPos n h k) 0 .start

/-- **One call.** From offset `k` with the tail at `p`, and with a tail at `d` still
to come: either nothing is complete and nothing changes, or the call would do the
same with the later tail, and marks exactly the descriptors it has passed. -/
theorem e82545Transmit_spec {n h k p d fuel : Nat} {x : TxSide} {tdwb : Bool} {r : TxResult}
    (hkp : k ≤ p) (hpd : p ≤ d) (hdn : d < n)
    (hr : e82545Transmit env fuel x (ringPos n h k) (ringPos n h p) n tdwb = .ok r) :
    (r.sent = 0 ∧ r.side = x ∧ r.rhead = ringPos n h p ∧
      txScanFrom env x n h k p fuel = .ok .unfinished) ∨
    (0 < r.sent ∧ k + r.sent ≤ p ∧ r.rhead = ringPos n h (k + r.sent) ∧
      ∃ found y, txScanFrom env x n h k d fuel = .ok found ∧ found.count = r.sent ∧
        txEffect env fuel x found = .ok y ∧
        r.side = { y with ring := markDone env.build n h k (k + r.sent) x.ring }) := by
  obtain ⟨found, hscan, hr⟩ := Except.bind_eq_ok.1 hr
  rcases e82545TxScan_tail hkp hpd hdn hscan with rfl | ⟨hlater, hlt, hpacket⟩
  · cases hr
    exact .inl ⟨rfl, rfl, rfl, hscan⟩
  · cases found with
    | unfinished =>
      cases hr
      exact .inl ⟨rfl, rfl, rfl, hscan⟩
    | context cd =>
      obtain ⟨hsent, hrhead, hside⟩ := e82545TxDone_eq_ok (Nat.le_refl k) (by omega) hr
      right
      rw [hsent, hrhead, hside]
      exact ⟨by omega, by omega, rfl, _, _, hlater, rfl, rfl, rfl⟩
    | packet dsc last desc l =>
      obtain ⟨frames, hframes, hr⟩ := Except.bind_eq_ok.1 hr
      obtain ⟨j, hkj, hjp, rfl, hdesc⟩ := hpacket dsc last desc l rfl
      obtain ⟨hsent, hrhead, hside⟩ := e82545TxDone_eq_ok hkj (by omega) hr
      obtain rfl : desc = j - k := by omega
      have hj : k + (j - k + 1) = j + 1 := by omega
      right
      rw [hsent, hrhead, hside, hj]
      exact ⟨by omega, by omega, rfl, _, { x with wire := x.wire ++ frames }, hlater, rfl,
        Except.bind_eq_ok.2 ⟨frames, hframes, rfl⟩, rfl⟩

end DeviceModel
