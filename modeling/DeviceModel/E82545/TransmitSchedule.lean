import Mathlib.Logic.Relation
import DeviceModel.Library.Runs
import DeviceModel.E82545.TransmitRing

/-!
# However the tail is advanced, the ring sends the same packets

The guest publishes a window of descriptors in one register write or in many, with
polls in between. Each poll sends some whole packets and may look at the beginning of
one whose end is still to come; that one is looked at again from its first descriptor.

`TxOne` is the step "one packet or context, with the whole window published". It does
not depend on how much is published when the packet is sent, and it is deterministic.
So every schedule walks the same chain of `TxOne` steps, and one that has come to its
end has come to the same end.
-/

namespace DeviceModel

open Relation

/-! ## One packet at a time -/

/-- The offset of the next descriptor, with what transmit has done so far. -/
abbrev TxPoint : Type := Nat × TxSide

/-- One packet or context is sent from `a` to `b`, the window being published up to
offset `d`. -/
def TxOne (env : TxEnv) (n h d : Nat) (a b : TxPoint) : Prop :=
  ∃ fuel found y, txScanFrom env a.2 n h a.1 d fuel = .ok found ∧ 0 < found.count ∧
    txEffect env fuel a.2 found = .ok y ∧ a.1 + found.count ≤ d ∧
    b = (a.1 + found.count,
      { y with ring := markDone env.build n h a.1 (a.1 + found.count) a.2.ring })

/-- No whole packet is left in the window. -/
def TxStuck (env : TxEnv) (n h d : Nat) (a : TxPoint) : Prop :=
  ∃ fuel, txScanFrom env a.2 n h a.1 d fuel = .ok .unfinished

section Chain

variable {env : TxEnv} {n h d : Nat}

/-- Two scans from the same place find the same. -/
theorem txScanFrom_unique {x : TxSide} {k p fuel fuel' : Nat} {r r' : TxScan}
    (hr : txScanFrom env x n h k p fuel = .ok r) (hr' : txScanFrom env x n h k p fuel' = .ok r') :
    r = r' := by
  have hmax := e82545TxScan_mono (Nat.le_max_left fuel fuel') hr
  rw [e82545TxScan_mono (Nat.le_max_right fuel fuel') hr'] at hmax
  cases hmax
  rfl

theorem TxOne.rightUnique : Relator.RightUnique (TxOne env n h d) := by
  rintro a _ _ ⟨f, found, y, hscan, hpos, heff, hd, rfl⟩
    ⟨f', found', y', hscan', hpos', heff', hd', rfl⟩
  obtain rfl : found = found' := txScanFrom_unique hscan hscan'
  have hmax := txEffect_mono (Nat.le_max_left f f') heff
  rw [txEffect_mono (Nat.le_max_right f f') heff'] at hmax
  cases hmax
  rfl

theorem TxStuck.not_one {a b : TxPoint} (ha : TxStuck env n h d a) : ¬ TxOne env n h d a b := by
  rintro ⟨f, found, y, hscan, hpos, -⟩
  obtain ⟨f', hstuck⟩ := ha
  obtain rfl : found = .unfinished := txScanFrom_unique hscan hstuck
  exact Nat.lt_irrefl 0 hpos

/-- A chain that has come to its end is the end of every chain from the same start. -/
theorem TxStuck.chain {a b c : TxPoint} (hb : TxStuck env n h d b)
    (hab : ReflTransGen (TxOne env n h d) a b) (hac : ReflTransGen (TxOne env n h d) a c) :
    ReflTransGen (TxOne env n h d) c b := by
  rcases hab.total_of_right_unique TxOne.rightUnique hac with hbc | hcb
  · rcases hbc.cases_head with rfl | ⟨m, hm, -⟩
    · exact .refl
    · exact absurd hm hb.not_one
  · exact hcb

/-- **One end.** Two chains from one start that cannot go on end alike. -/
theorem TxStuck.unique {a b c : TxPoint} (hb : TxStuck env n h d b) (hc : TxStuck env n h d c)
    (hab : ReflTransGen (TxOne env n h d) a b) (hac : ReflTransGen (TxOne env n h d) a c) :
    b = c := by
  rcases (hb.chain hab hac).cases_head with rfl | ⟨m, hm, -⟩
  · rfl
  · exact absurd hm hc.not_one

/-- The offset only grows. -/
theorem TxOne.le_of_chain {a b : TxPoint} (hab : ReflTransGen (TxOne env n h d) a b) :
    a.1 ≤ b.1 := by
  induction hab with
  | refl => exact Nat.le_refl _
  | tail _ hone ih =>
    obtain ⟨f, found, y, -, -, -, -, rfl⟩ := hone
    exact Nat.le_add_right_of_le ih

/-- The loop of `e82545_tx_run` with the tail at offset `p` walks along the chain. It
stops because its limit is used up, or with the head of an unfinished packet seen up to
the tail. -/
theorem e82545TxRunLoop_spec {p fuel N lim k head rhead : Nat} {x x' : TxSide}
    {tdwb tdwb' any any' : Bool} (hkp : k ≤ p) (hpd : p ≤ d) (hdn : d < n)
    (hr : e82545TxRunLoop env (ringPos n h p) n fuel N lim x (ringPos n h k) (ringPos n h k)
      tdwb any = .ok (x', head, rhead, tdwb', any')) :
    ∃ k' q, k ≤ k' ∧ k' ≤ q ∧ q ≤ p ∧ head = ringPos n h k' ∧ rhead = ringPos n h q ∧
      ReflTransGen (TxOne env n h d) (k, x) (k', x') ∧
      (q = k' ∨ (q = p ∧ TxStuck env n h p (k', x'))) ∧
      (0 < lim → k < k' ∨ q = p) := by
  induction N generalizing lim k x tdwb any with
  | zero => cases hr
  | succ N ih =>
    rw [e82545TxRunLoop] at hr
    split at hr
    · next hlim =>
      cases hr
      exact ⟨k, k, Nat.le_refl k, Nat.le_refl k, hkp, rfl, rfl, .refl, .inl rfl, by omega⟩
    · obtain ⟨r, htx, hr⟩ := Except.bind_eq_ok.1 hr
      rcases e82545Transmit_spec hkp hpd hdn htx with
        ⟨hsent, hside, hrhead, hscan⟩ |
        ⟨hsent, hle, hrhead, found, y, hscan, hcount, heff, hside⟩
      · rw [if_pos hsent] at hr
        cases hr
        rw [hside]
        exact ⟨k, p, Nat.le_refl k, hkp, Nat.le_refl p, rfl, hrhead, .refl,
          .inr ⟨rfl, fuel, hscan⟩, fun _ => .inr rfl⟩
      · rw [if_neg (by omega), hrhead] at hr
        obtain ⟨k', q, hk', hq, hqp, hhead, hrh, hchain, hend, -⟩ := ih hle hr
        refine ⟨k', q, by omega, hq, hqp, hhead, hrh, .head ?_ hchain, hend,
          fun _ => .inl (by omega)⟩
        rw [← hcount] at hside ⊢
        exact ⟨fuel, found, y, hscan, by omega, heff, by omega, by rw [hside]⟩

/-- A call returns wherever the chain goes on, with enough fuel. -/
theorem e82545Transmit_of_one {a b : TxPoint} (hdn : d < n) (had : a.1 ≤ d)
    (hone : TxOne env n h d a b) :
    ∃ F, ∀ fuel, F ≤ fuel → ∀ tdwb, ∃ r, 0 < r.sent ∧
      e82545Transmit env fuel a.2 (ringPos n h a.1) (ringPos n h d) n tdwb = .ok r := by
  obtain ⟨f, found, y, hscan, hpos, heff, hbd, -⟩ := hone
  refine ⟨max f (d + 1), fun fuel hfuel tdwb => ?_⟩
  have hscan' := e82545TxScan_mono (by omega : f ≤ fuel) hscan
  have heff' := txEffect_mono (by omega : f ≤ fuel) heff
  have hdone : ∀ (z : TxSide) (j desc : Nat), a.1 ≤ j → j < d → ∃ r,
      0 < r.sent ∧
      e82545TxDone env fuel z (ringPos n h a.1) (ringPos n h j) desc n tdwb = .ok r := by
    intro z j desc hj hjd
    have hmark : ∃ w, e82545TransmitDone env.build (ringPos n h (j + 1)) n fuel
        (ringPos n h a.1) z.ring tdwb = .ok (markDone env.build n h a.1 (j + 1) z.ring, w) :=
      e82545TransmitDone_returns env.build (by omega) (by omega) (by omega) z.ring tdwb
    obtain ⟨w, hw⟩ := hmark
    have hr : e82545TxDone env fuel z (ringPos n h a.1) (ringPos n h j) desc n tdwb =
        .ok ⟨{ z with ring := markDone env.build n h a.1 (j + 1) z.ring }, desc + 1,
          ringPos n h (j + 1), w⟩ := by
      rw [e82545TxDone, ringPos_succ]
      exact Except.bind_eq_ok.2 ⟨_, hw, rfl⟩
    exact ⟨_, Nat.succ_pos desc, hr⟩
  rcases e82545TxScan_tail had (Nat.le_refl d) hdn hscan' with rfl | ⟨-, hlt, hpacket⟩
  · exact absurd hpos (Nat.lt_irrefl 0)
  · cases found with
    | unfinished => exact absurd hpos (Nat.lt_irrefl 0)
    | context cd =>
      obtain ⟨r, hr, hd⟩ := hdone { a.2 with txctx := cd } a.1 0 (Nat.le_refl _) hlt
      exact ⟨r, hr, Except.bind_eq_ok.2 ⟨_, hscan', hd⟩⟩
    | packet dsc last desc l =>
      obtain ⟨frames, hframes, -⟩ := Except.bind_eq_ok.1 heff'
      obtain ⟨j, hkj, hjd, rfl, -⟩ := hpacket dsc last desc l rfl
      obtain ⟨r, hr, hd⟩ := hdone { a.2 with wire := a.2.wire ++ frames } j desc hkj hjd
      exact ⟨r, hr, Except.bind_eq_ok.2 ⟨_, hscan', Except.bind_eq_ok.2 ⟨frames, hframes, hd⟩⟩⟩

/-- Along a chain that ends, the loop of `e82545_tx_run` returns. -/
theorem e82545TxRunLoop_returns {a b : TxPoint} (hdn : d < n) (hb : TxStuck env n h d b)
    (hab : ReflTransGen (TxOne env n h d) a b) (hbd : b.1 ≤ d) :
    ∃ F, ∀ fuel, F ≤ fuel → ∀ N lim rhead tdwb any, d - a.1 < N → ∃ r,
      e82545TxRunLoop env (ringPos n h d) n fuel N lim a.2 (ringPos n h a.1) rhead tdwb any =
        .ok r := by
  induction hab using ReflTransGen.head_induction_on with
  | refl =>
    obtain ⟨F, hscan⟩ := hb
    refine ⟨F, fun fuel hfuel N lim rhead tdwb any hN => ?_⟩
    obtain ⟨N, rfl⟩ : ∃ N', N = N' + 1 := ⟨N - 1, by omega⟩
    have hunfinished := e82545TxScan_mono hfuel hscan
    have htx : e82545Transmit env fuel b.2 (ringPos n h b.1) (ringPos n h d) n tdwb =
        .ok ⟨b.2, 0, ringPos n h d, tdwb⟩ := Except.bind_eq_ok.2 ⟨_, hunfinished, rfl⟩
    rw [e82545TxRunLoop, htx]
    by_cases hlim : lim = 0
    · exact ⟨_, if_pos hlim⟩
    · exact ⟨_, if_neg hlim⟩
  | head hone hrest ih =>
    next a c =>
    have hcd : c.1 ≤ d := (TxOne.le_of_chain hrest).trans hbd
    have had : a.1 ≤ d := (TxOne.le_of_chain (.single hone)).trans hcd
    obtain ⟨F, hF⟩ := ih
    obtain ⟨F', hF'⟩ := e82545Transmit_of_one hdn had hone
    refine ⟨max F F', fun fuel hfuel N lim rhead tdwb any hN => ?_⟩
    obtain ⟨N, rfl⟩ : ∃ N', N = N' + 1 := ⟨N - 1, by omega⟩
    obtain ⟨r, hpos, htx⟩ := hF' fuel (by omega) tdwb
    rw [e82545TxRunLoop]
    by_cases hlim : lim = 0
    · exact ⟨_, if_pos hlim⟩
    · rw [if_neg hlim, htx]
      -- the call is the chain's next step
      rcases e82545Transmit_spec had (Nat.le_refl d) hdn htx with
        ⟨hsent, -⟩ | ⟨-, hle, hrhead, found, y, hscan, hcount, heff, hside⟩
      · omega
      · have hc : c = (a.1 + r.sent, r.side) := by
          refine TxOne.rightUnique hone ⟨fuel, found, y, hscan, by omega, heff, by omega, ?_⟩
          rw [hside, hcount]
        obtain ⟨res, hres⟩ := hF fuel (by omega) N (lim - r.sent) r.rhead r.tdwb true (by
          rw [hc]
          simp only
          omega)
        rw [hc] at hres
        simp only at hres
        rw [← hrhead] at hres
        refine ⟨res, ?_⟩
        rw [Except.bind_ok rfl, if_neg (by omega)]
        exact hres

end Chain

/-! ## What the chain has sent -/

/-- The index after the last complete packet or context among the descriptors from
index `i` on, given their `lower` words. -/
def lastEnd : (inPacket : Bool) → (i last : Nat) → List U32 → Nat
  | _, _, last, [] => last
  | inPacket, i, last, w :: ws =>
    if (inPacket = false ∧ e82545TxdescType w = e1000TxdTypC) ∨ w &&& e1000TxdCmdEOP ≠ 0 then
      lastEnd false (i + 1) (i + 1) ws
    else lastEnd true (i + 1) last ws

/-- The `lower` words of `m` descriptors from offset `k` on. -/
def txWindow (b : Build) (n h k m : Nat) (ring : Nat → E1000TxUdesc) : List U32 :=
  (List.range' k m).map fun l => (ring (ringPos n h l)).lower b

@[simp] theorem markDone_lower (b : Build) (n h j k : Nat) (ring : Nat → E1000TxUdesc) (i : Nat) :
    (markDone b n h j k ring i).lower b = (ring i).lower b := by
  unfold markDone
  split
  · exact E1000TxUdesc.lower_setUpper b _ _
  · rfl

/-- The status bits are not what the window is about. -/
theorem txWindow_markDone (b : Build) (n h j k m l : Nat) (ring : Nat → E1000TxUdesc) :
    txWindow b n h l m (markDone b n h j k ring) = txWindow b n h l m ring := by
  simp [txWindow]

section Sent

variable {env : TxEnv} {n h d : Nat}

/-- The scan stops where the specification says a packet ends. -/
theorem e82545TxScan_lastEnd {cd : E1000ContextDesc} {ring : Nat → E1000TxUdesc}
    {fuel k desc last : Nat} {l : TxLocals} {r : TxScan} (hkd : k ≤ d) (hdn : d < n)
    (hr : e82545TxScan env cd ring (ringPos n h d) n fuel (ringPos n h k) desc l = .ok r) :
    (r = .unfinished →
      lastEnd (decide (desc ≠ 0)) k last (txWindow env.build n h k (d - k) ring) = last) ∧
    (r ≠ .unfinished → ∃ j, r.count = desc + j ∧ 0 < j ∧
      lastEnd (decide (desc ≠ 0)) k last (txWindow env.build n h k (d - k) ring) =
        lastEnd false (k + j) (k + j) (txWindow env.build n h (k + j) (d - (k + j)) ring)) := by
  induction fuel generalizing k desc l with
  | zero => cases hr
  | succ fuel ih =>
    simp only [e82545TxScan] at hr
    by_cases hk : k = d
    · subst hk
      rw [if_pos rfl] at hr
      cases hr
      rw [Nat.sub_self]
      exact ⟨fun _ => rfl, fun h => absurd rfl h⟩
    · have hne : ¬ ringPos n h k = ringPos n h d := by
        rw [ringPos_inj (by omega) hdn]
        exact hk
      have hwindow : txWindow env.build n h k (d - k) ring =
          (ring (ringPos n h k)).lower env.build ::
            txWindow env.build n h (k + 1) (d - (k + 1)) ring := by
        obtain ⟨m, hm⟩ : ∃ m, d - k = m + 1 := ⟨d - k - 1, by omega⟩
        rw [hm, show d - (k + 1) = m by omega]
        rfl
      rw [if_neg hne] at hr
      rw [hwindow, lastEnd]
      split at hr
      · next hctx =>
        cases hr
        refine ⟨fun h => (by cases h), fun _ => ⟨1, by rw [hctx.1]; rfl, Nat.one_pos, ?_⟩⟩
        rw [if_pos (.inl ⟨by simpa using hctx.1, hctx.2⟩)]
      · next hctx =>
        split at hr
        · cases hr
        · split at hr
          · next heop =>
            cases hr
            have heop' : (ring (ringPos n h k)).lower env.build &&& e1000TxdCmdEOP ≠ 0 := by
              simpa [E1000TxUdesc.eop] using heop
            refine ⟨fun h => (by cases h), fun _ => ⟨1, rfl, Nat.one_pos, ?_⟩⟩
            rw [if_pos (.inr heop')]
          · next heop =>
            rw [ringPos_succ] at hr
            -- neither a context between packets nor the end of one
            rw [if_neg]
            · obtain ⟨hu, hf⟩ := ih (by omega) hr
              have hdesc : decide (desc + 1 ≠ 0) = true := decide_eq_true (Nat.succ_ne_zero desc)
              rw [hdesc] at hu hf
              refine ⟨hu, fun hfound => ?_⟩
              obtain ⟨j, hcount, -, hlast⟩ := hf hfound
              refine ⟨j + 1, by omega, Nat.succ_pos j, ?_⟩
              rw [hlast, Nat.add_assoc, Nat.add_comm 1 j]
            · rintro (⟨hin, htype⟩ | hend)
              · exact hctx ⟨by simpa using hin, htype⟩
              · exact heop (by simpa [E1000TxUdesc.eop] using hend)

/-- What has been done when the chain has come to offset `k`: `DD` is set on the
descriptors passed, and what is left of the window decides where the last packet ends. -/
theorem TxOne.chain_spec {x₀ : TxSide} {b : TxPoint} (hdn : d < n)
    (hchain : ReflTransGen (TxOne env n h d) (0, x₀) b) :
    b.1 ≤ d ∧ b.2.ring = markDone env.build n h 0 b.1 x₀.ring ∧
      lastEnd false 0 0 (txWindow env.build n h 0 d x₀.ring) =
        lastEnd false b.1 b.1 (txWindow env.build n h b.1 (d - b.1) x₀.ring) := by
  induction hchain with
  | refl => exact ⟨Nat.zero_le d, (markDone_self _ _ _ _ _).symm, rfl⟩
  | tail _ hone ih =>
    next a c _ =>
    obtain ⟨had, hring, hlast⟩ := ih
    obtain ⟨fuel, found, y, hscan, hpos, -, hcd, rfl⟩ := hone
    refine ⟨hcd, ?_, ?_⟩
    · simp only
      rw [hring, markDone_markDone (Nat.zero_le _) (Nat.le_add_right _ _)]
    · have hfound : found ≠ .unfinished := by
        rintro rfl
        exact Nat.lt_irrefl 0 hpos
      obtain ⟨j, hcount, -, hstep⟩ := (e82545TxScan_lastEnd had hdn hscan).2 hfound
      obtain rfl : j = found.count := by omega
      rw [hring, txWindow_markDone, txWindow_markDone] at hstep
      rw [hlast]
      exact hstep

/-- Where the chain ends, the last packet ends. -/
theorem TxStuck.lastEnd {x₀ : TxSide} {b : TxPoint} (hdn : d < n)
    (hchain : ReflTransGen (TxOne env n h d) (0, x₀) b) (hb : TxStuck env n h d b) :
    DeviceModel.lastEnd false 0 0 (txWindow env.build n h 0 d x₀.ring) = b.1 := by
  obtain ⟨hbd, hring, hlast⟩ := TxOne.chain_spec hdn hchain
  obtain ⟨fuel, hscan⟩ := hb
  have hunfinished := (@e82545TxScan_lastEnd _ _ _ _ _ _ _ _ _ b.1 _ _ hbd hdn hscan).1 rfl
  rw [hring, txWindow_markDone] at hunfinished
  rw [hlast]
  exact hunfinished

end Sent

/-! ## Schedules -/

/-- What the guest and the poll loop do to the ring: publish descriptors up to an
offset, or poll. -/
inductive TxEvent : Type where
  | publish (k : Nat)
  | poll
  deriving DecidableEq, Repr

/-- One event, with the offset published so far. The tail only advances, to offset `d`
at most. -/
inductive TxScheduleStep (b : Build) (n h d : Nat) : E1000 × Nat → TxEvent → E1000 × Nat → Prop
    where
  | publish {s : E1000} {sc : E82545Softc} {p k : Nat} (fuel : Nat) : p ≤ k → k ≤ d →
      e82545Write fuel s.sc 0 0x3818 4 (BitVec.ofNat 64 (ringPos n h k)) = .ok sc →
      TxScheduleStep b n h d (s, p) (.publish k) ({ s with sc := sc }, k)
  | poll {s t : E1000} {p : Nat} (fuel : Nat) : e1000Poll b fuel s = .ok t →
      TxScheduleStep b n h d (s, p) .poll (t, p)

/-- Transmit is enabled on a ring of at least 8 descriptors, and nothing is published. -/
structure TxIdle (s : E1000) (h : Nat) : Prop where
  enabled : s.sc.tx.escTxEnabled = true
  size : 8 ≤ s.sc.txSize
  head : s.sc.tx.escTDH.toNat = h
  head_lt : h < s.sc.txSize
  seen : s.sc.tx.escTDHr = s.sc.tx.escTDH
  tail : s.sc.tx.escTDT = s.sc.tx.escTDH

theorem txSize_lt (sc : E82545Softc) : sc.txSize < 2 ^ 16 := Nat.mod_lt _ (by decide)

/-- Where a schedule is: published up to `p`, sent up to `k`, looked at up to `q`. -/
structure TxAt (b : Build) (s₀ : E1000) (h d : Nat) (s : E1000) (p k q : Nat) : Prop where
  env : s.txEnv b = s₀.txEnv b
  len : s.sc.tx.escTDLEN = s₀.sc.tx.escTDLEN
  enabled : s.sc.tx.escTxEnabled = true
  tail : s.sc.tx.escTDT.toNat = ringPos s₀.sc.txSize h p
  head : s.sc.tx.escTDH.toNat = ringPos s₀.sc.txSize h k
  seen : s.sc.tx.escTDHr.toNat = ringPos s₀.sc.txSize h q
  sent_le : k ≤ q
  seen_le : q ≤ p
  le : p ≤ d
  chain : ReflTransGen (TxOne (s₀.txEnv b) s₀.sc.txSize h d) (0, s₀.txSide) (k, s.txSide)
  rest : q = k ∨ TxStuck (s₀.txEnv b) s₀.sc.txSize h q (k, s.txSide)

section Schedule

variable {b : Build} {s₀ s t : E1000} {h d p k q : Nat}

/-- A slot number fits the 16-bit registers. -/
theorem ringPos_toNat (hidle : TxIdle s₀ h) (k : Nat) :
    (BitVec.ofNat 16 (ringPos s₀.sc.txSize h k)).toNat = ringPos s₀.sc.txSize h k := by
  have hlt : ringPos s₀.sc.txSize h k < s₀.sc.txSize :=
    ringPos_lt (by have := hidle.size; omega)
  have hsize := txSize_lt s₀.sc
  rw [BitVec.toNat_ofNat, Nat.mod_eq_of_lt (by omega)]

theorem TxIdle.at (hidle : TxIdle s₀ h) : TxAt b s₀ h d s₀ 0 0 0 := by
  have hpos : s₀.sc.tx.escTDH.toNat = ringPos s₀.sc.txSize h 0 := by
    rw [hidle.head, ringPos_zero hidle.head_lt]
  exact ⟨rfl, rfl, hidle.enabled, by rw [hidle.tail, hpos], hpos, by rw [hidle.seen, hpos],
    Nat.le_refl 0, Nat.le_refl 0, Nat.zero_le d, .refl, .inl rfl⟩

/-- Publishing moves the tail and nothing else. -/
theorem TxAt.publish {fuel k' : Nat} {sc : E82545Softc} (hidle : TxIdle s₀ h)
    (hat : TxAt b s₀ h d s p k q) (hpk : p ≤ k') (hkd : k' ≤ d)
    (hw : e82545Write fuel s.sc 0 0x3818 4 (BitVec.ofNat 64 (ringPos s₀.sc.txSize h k')) =
      .ok sc) : TxAt b s₀ h d { s with sc := sc } k' k q := by
  rw [e82545Write_tdt] at hw
  cases hw
  have htail : ((BitVec.ofNat 64 (ringPos s₀.sc.txSize h k')).setWidth 32).setWidth 16 =
      BitVec.ofNat 16 (ringPos s₀.sc.txSize h k') := by
    apply BitVec.eq_of_toNat_eq
    simp only [BitVec.toNat_setWidth, BitVec.toNat_ofNat]
    omega
  refine ⟨hat.env, hat.len, hat.enabled, ?_, hat.head, hat.seen, hat.sent_le,
    hat.seen_le.trans hpk, hkd, hat.chain, hat.rest⟩
  simp only
  rw [htail, ringPos_toNat hidle]

/-- The flags of the poll say whether anything published has not been looked at. -/
theorem TxAt.seen_eq_tail_iff (hd : d < s₀.sc.txSize) (hat : TxAt b s₀ h d s p k q) :
    s.sc.tx.escTDHr = s.sc.tx.escTDT ↔ q = p := by
  rw [← BitVec.toNat_inj, hat.seen, hat.tail]
  have hq := hat.seen_le
  have hp := hat.le
  exact ringPos_inj (by omega) (by omega)

/-- **One poll** moves along the chain. If anything was left to look at, it sends a
packet or it looks at everything. -/
theorem TxAt.poll {fuel : Nat} (hidle : TxIdle s₀ h) (hd : d < s₀.sc.txSize)
    (hat : TxAt b s₀ h d s p k q) (hpoll : e1000Poll b fuel s = .ok t) :
    ∃ k' q', TxAt b s₀ h d t p k' q' ∧ k ≤ k' ∧ (k < k' ∨ q' = p) := by
  have hsize : s.sc.txSize = s₀.sc.txSize := by
    rw [E82545Softc.txSize, hat.len]
    rfl
  rcases e82545TxPoll_cases hpoll with
    ⟨hidle', rfl⟩ | ⟨-, x, head, rhead, tdwb, any, mtx, pi, intr, hloop, rfl⟩
  · have hq : q = p := by
      rw [← hat.seen_eq_tail_iff hd]
      by_contra hne
      exact hidle' ⟨hat.enabled, hne⟩
    exact ⟨k, q, ⟨hat.env, hat.len, hat.enabled, hat.tail, hat.head, hat.seen, hat.sent_le,
      hat.seen_le, hat.le, hat.chain, hat.rest⟩, Nat.le_refl k, .inr hq⟩
  · rw [hat.env, hat.tail, hat.head, hsize] at hloop
    obtain ⟨k', q', hk', hq', hqp, rfl, rfl, hchain, hrest, hprogress⟩ :=
      e82545TxRunLoop_spec (hat.sent_le.trans hat.seen_le) hat.le hd hloop
    have hlim : 0 < s₀.sc.txSize / 4 := Nat.div_pos (by have := hidle.size; omega) (by decide)
    refine ⟨k', q', ⟨hat.env, hat.len, hat.enabled, hat.tail, ringPos_toNat hidle k',
      ringPos_toNat hidle q', hq', hqp, hat.le, hat.chain.trans hchain, ?_⟩, hk', hprogress hlim⟩
    rcases hrest with hq | ⟨rfl, hstuck⟩
    · exact .inl hq
    · exact .inr hstuck

/-- Looked at up to the end of the window: no whole packet is left. -/
theorem TxAt.stuck (hat : TxAt b s₀ h d s p k d) :
    TxStuck (s₀.txEnv b) s₀.sc.txSize h d (k, s.txSide) := by
  rcases hat.rest with rfl | hstuck
  · exact ⟨1, if_pos rfl⟩
  · exact hstuck

/-- A poll returns, if the chain has an end. -/
theorem TxAt.poll_returns {e : TxPoint} (hd : d < s₀.sc.txSize)
    (hat : TxAt b s₀ h d s d k q)
    (hchain : ReflTransGen (TxOne (s₀.txEnv b) s₀.sc.txSize h d) (k, s.txSide) e)
    (he : TxStuck (s₀.txEnv b) s₀.sc.txSize h d e) (hed : e.1 ≤ d) :
    ∃ fuel t, e1000Poll b fuel s = .ok t := by
  by_cases hrun : s.sc.tx.escTxEnabled = true ∧ s.sc.tx.escTDHr ≠ s.sc.tx.escTDT
  · obtain ⟨F, hF⟩ := e82545TxRunLoop_returns hd he hchain hed
    have hsize : s.sc.txSize = s₀.sc.txSize := by
      rw [E82545Softc.txSize, hat.len]
      rfl
    obtain ⟨⟨x, head, rhead, tdwb, any⟩, hr⟩ := hF (max F (d + 1)) (Nat.le_max_left _ _)
      (max F (d + 1)) (s.sc.txSize / 4) (ringPos s₀.sc.txSize h k) false false (by omega)
    rw [← hat.env, ← hat.tail, ← hat.head, ← hsize] at hr
    have hpoll : ∃ t, e82545TxRun b (max F (d + 1))
        { s with sc := { s.sc.lockMtx with tx.escTxActive := true } } = .ok t :=
      ⟨_, Except.bind_eq_ok.2 ⟨_, hr, rfl⟩⟩
    obtain ⟨t, ht⟩ := hpoll
    exact ⟨max F (d + 1), _, Except.bind_eq_ok.2 ⟨t, (if_pos hrun).trans ht, rfl⟩⟩
  · exact ⟨0, _, Except.bind_eq_ok.2 ⟨_, if_neg hrun, rfl⟩⟩

/-- A schedule keeps the place. -/
theorem txAt_of_run {s₀ : E1000} {h d : Nat} {evs : List TxEvent} {u : E1000 × Nat}
    (hidle : TxIdle s₀ h) (hd : d < s₀.sc.txSize)
    (hrun : Run (TxScheduleStep b s₀.sc.txSize h d) (s₀, 0) evs u) :
    ∃ k q, TxAt b s₀ h d u.1 u.2 k q := by
  refine hrun.invariant (I := fun u => ∃ k q, TxAt b s₀ h d u.1 u.2 k q) ?_ ⟨0, 0, hidle.at⟩
  rintro _ l _ ⟨k, q, hat⟩ hstep
  cases hstep with
  | publish fuel hpk hkd hw => exact ⟨k, q, hat.publish hidle hpk hkd hw⟩
  | poll fuel hpoll =>
    obtain ⟨k', q', hat', -⟩ := hat.poll hidle hd hpoll
    exact ⟨k', q', hat'⟩

/-- Enough polls finish a window that has been published, if the chain has an end. -/
theorem TxAt.finish {e : TxPoint} (hidle : TxIdle s₀ h) (hd : d < s₀.sc.txSize)
    (hat : TxAt b s₀ h d s d k q)
    (hchain : ReflTransGen (TxOne (s₀.txEnv b) s₀.sc.txSize h d) (0, s₀.txSide) e)
    (he : TxStuck (s₀.txEnv b) s₀.sc.txSize h d e) :
    ∃ m t, Run (TxScheduleStep b s₀.sc.txSize h d) (s, d) (List.replicate m .poll) (t, d) ∧
      t.sc.tx.escTDHr = t.sc.tx.escTDT := by
  induction hm : d - k using Nat.strong_induction_on generalizing s k q with
  | _ m ih =>
    by_cases hseen : s.sc.tx.escTDHr = s.sc.tx.escTDT
    · exact ⟨0, s, .nil _, hseen⟩
    · have hed : e.1 ≤ d := (TxOne.chain_spec hd hchain).1
      obtain ⟨fuel, t, hpoll⟩ := hat.poll_returns hd (he.chain hchain hat.chain) he hed
      obtain ⟨k', q', hat', hk', hprogress⟩ := hat.poll hidle hd hpoll
      have hone : Run (TxScheduleStep b s₀.sc.txSize h d) (s, d) [.poll] (t, d) :=
        .single (.poll fuel hpoll)
      rcases hprogress with hlt | rfl
      · -- a packet was sent, so less of the window is left
        have hkd : k' ≤ d := hat'.sent_le.trans (hat'.seen_le.trans hat'.le)
        obtain ⟨m', u, hrun, hdone⟩ := ih (d - k') (by omega) hat' rfl
        exact ⟨m' + 1, u, hone.trans hrun, hdone⟩
      · exact ⟨1, t, hone, (hat'.seen_eq_tail_iff hd).2 rfl⟩

/-- **However the tail is advanced.** Take an idle ring of at least 8 descriptors, a
window of `d` descriptors that stays in range, and any schedule of tail updates and
polls that publishes the window and ends with `TDHr` at the tail. Publishing at once
and polling also gets there; whenever it does, the frames sent are the same. The head
is after the last complete packet or context, and `DD` is set on the descriptors
before it that have `RS`, on no other. -/
theorem txSchedule_eq_atOnce {evs : List TxEvent} {s₁ : E1000} (hidle : TxIdle s₀ h)
    (hd : d < s₀.sc.txSize)
    (hrun : Run (TxScheduleStep b s₀.sc.txSize h d) (s₀, 0) evs (s₁, d))
    (hdone : s₁.sc.tx.escTDHr = s₁.sc.tx.escTDT) :
    (∃ m s₂, Run (TxScheduleStep b s₀.sc.txSize h d) (s₀, 0)
        (.publish d :: List.replicate m .poll) (s₂, d) ∧
      s₂.sc.tx.escTDHr = s₂.sc.tx.escTDT) ∧
    (∀ m s₂, Run (TxScheduleStep b s₀.sc.txSize h d) (s₀, 0)
        (.publish d :: List.replicate m .poll) (s₂, d) →
      s₂.sc.tx.escTDHr = s₂.sc.tx.escTDT → s₁.wire = s₂.wire) ∧
    s₁.sc.tx.escTDH.toNat = ringPos s₀.sc.txSize h
      (lastEnd false 0 0 (txWindow b s₀.sc.txSize h 0 d s₀.txRing)) ∧
    s₁.txRing = markDone b s₀.sc.txSize h 0
      (lastEnd false 0 0 (txWindow b s₀.sc.txSize h 0 d s₀.txRing)) s₀.txRing := by
  obtain ⟨k, q, hat⟩ := txAt_of_run hidle hd hrun
  obtain rfl : q = d := (hat.seen_eq_tail_iff hd).1 hdone
  have hstuck := hat.stuck
  have hlast := hstuck.lastEnd hd hat.chain
  refine ⟨?_, ?_, ?_, ?_⟩
  · have hpub := e82545Write_tdt 0 s₀.sc (BitVec.ofNat 64 (ringPos s₀.sc.txSize h q))
    obtain ⟨m, s₂, hpolls, hdone₂⟩ :=
      (hidle.at.publish hidle (Nat.zero_le q) (Nat.le_refl q) hpub).finish hidle hd hat.chain hstuck
    have hfirst : Run (TxScheduleStep b s₀.sc.txSize h q) (s₀, 0) [.publish q] _ :=
      .single (.publish 0 (Nat.zero_le q) (Nat.le_refl q) hpub)
    exact ⟨m, s₂, hfirst.trans hpolls, hdone₂⟩
  · intro m s₂ hrun₂ hdone₂
    obtain ⟨k₂, q₂, hat₂⟩ := txAt_of_run hidle hd hrun₂
    obtain rfl : q₂ = q := (hat₂.seen_eq_tail_iff hd).1 hdone₂
    have hsame := hstuck.unique hat₂.stuck hat.chain hat₂.chain
    exact congrArg (fun a : TxPoint => a.2.wire) hsame
  · exact hat.head.trans (congrArg _ hlast.symm)
  · have hring := (TxOne.chain_spec hd hat.chain).2.1
    exact hring.trans (by rw [← hlast]; rfl)

end Schedule

/-- A ring of eight with one packet in its first two descriptors. -/
def twoDescriptors : E1000 where
  sc := { e82545Init ⟨0⟩ with tx.escTxEnabled := true, tx.escTDLEN := 128 }
  txRing i := ⟨0x1000, 0, if i = 1 then 0x0B000020 else 0x08000020, 0, 0, 0⟩
  rxRing _ := ⟨0, 0, 0, 0, 0, 0⟩
  mem _ := 0
  wire := []

/-- Publish the first `k` of them. -/
def publishExample (k : Nat) (s : E1000) : E1000 :=
  { s with sc := outcome (e82545Write 0 s.sc 0 0x3818 4 (BitVec.ofNat 64 (ringPos 8 0 k))) s.sc }

/-- Poll once. -/
def pollExample (s : E1000) : E1000 := outcome (e1000Poll .integer 3 s) s

/-- Publishing by halves, with a poll after each, sends what publishing at once sends:
one frame. -/
theorem txSchedule_eq_atOnce_halves :
    ∃ s₁ : E1000, s₁.wire = [List.replicate 64 0] ∧
      ∀ m s₂, Run (TxScheduleStep .integer 8 0 2) (twoDescriptors, 0)
        (.publish 2 :: List.replicate m .poll) (s₂, 2) →
        s₂.sc.tx.escTDHr = s₂.sc.tx.escTDT → s₁.wire = s₂.wire := by
  have hpublish : ∀ s p k, p ≤ k → k ≤ 2 →
      TxScheduleStep .integer 8 0 2 (s, p) (.publish k) (publishExample k s, k) :=
    fun s p k hp hk => .publish 0 hp hk (eq_ok_outcome (by rw [e82545Write_tdt]; rfl))
  have hpoll : ∀ s p, (e1000Poll .integer 3 s).isOk = true →
      TxScheduleStep .integer 8 0 2 (s, p) .poll (pollExample s, p) :=
    fun s p h => .poll 3 (eq_ok_outcome h)
  have hrun := Run.snoc (.snoc (.snoc (.snoc (.nil (twoDescriptors, 0))
    (hpublish _ _ 1 (by decide) (by decide))) (hpoll _ _ (by decide +kernel)))
    (hpublish _ _ 2 (by decide) (by decide))) (hpoll _ _ (by decide +kernel))
  have hidle : TxIdle twoDescriptors 0 := ⟨rfl, by decide, rfl, by decide, rfl, rfl⟩
  obtain ⟨-, hsame, -, -⟩ := txSchedule_eq_atOnce hidle (by decide) hrun (by decide +kernel)
  exact ⟨_, by decide +kernel, hsame⟩

end DeviceModel
