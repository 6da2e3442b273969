import DeviceModel.Library.LeastLoaded
import DeviceModel.Library.Runs
import DeviceModel.Pci.Init

/-!
# Interrupt pins

A device asks for one of the four interrupt pins of its slot (`pci_lintr_request`), and
`pci_count_lintr` and `pci_walk_lintr` look at the pins that are in use. The pins of a slot go round,
so that no pin is shared before all are used.
-/

namespace DeviceModel

/-- `struct intxinfo`, without `ii_count`. -/
structure IntxRoute where
  pirqPin : Int
  ioapicIrq : Int
  deriving DecidableEq, Repr

/-- The pins of the slots, for the buses that `pci_businfo` has. -/
structure IntPins where
  businfo : Nat → Bool
  /-- `ii_count` -/
  count : Nat → Nat → Nat → Nat
  route : Nat → Nat → Nat → IntxRoute

/-- `MAXSLOTS`. -/
def maxslots : Nat := 32

/-- The loop of `pci_lintr_request`. -/
def bestPin (count : Nat → Nat) : Nat :=
  [1, 2, 3].foldl (fun best pin => if count pin < count best then pin else best) 0

/-- `pi_lintr.pin = bestpin + 1`. -/
def PciLintr.setPin (l : PciLintr) (best : Nat) : PciLintr :=
  { l with pin := best + 1, pin_pos := Nat.succ_pos best }

/-- `pci_lintr_request`, with the pins of the slots. -/
def pciLintrRequestFrom (s : IntPins) (pi : PciDev) : Except Stop (IntPins × PciDev) := do
  assert "bi != NULL" (s.businfo pi.bdf.bus)
  let pins := s.count pi.bdf.bus pi.bdf.slot
  let best := bestPin pins
  let count := Function.update s.count pi.bdf.bus
    (Function.update (s.count pi.bdf.bus) pi.bdf.slot (Function.update pins best (pins best + 1)))
  let pi := { pi with lintr := pi.lintr.setPin best }
  .ok ({ s with count := count }, pi.set8 pcirIntpin (BitVec.ofNat 8 (best + 1)))

/-- `pci_count_lintr`. -/
def pciCountLintr (s : IntPins) (bus : Nat) : Nat :=
  if s.businfo bus then
    (List.range maxslots).foldl (fun count slot =>
      (List.range 4).foldl (fun count pin => if s.count bus slot pin ≠ 0 then count + 1 else count)
        count) 0
  else 0

/-- A call of `cb` by `pci_walk_lintr`. -/
structure LintrVisit where
  bus : Nat
  slot : Nat
  pin : Nat
  route : IntxRoute
  deriving DecidableEq, Repr

/-- `pci_walk_lintr`: the calls of `cb`. -/
def pciWalkLintr (s : IntPins) (bus : Nat) : List LintrVisit :=
  if s.businfo bus then
    (List.range maxslots).flatMap fun slot => (List.range 4).filterMap fun pin =>
      if s.count bus slot pin ≠ 0 then some ⟨bus, slot, pin + 1, s.route bus slot pin⟩ else none
  else []

/-! ## The choice -/

theorem bestPin_eq (count : Nat → Nat) : bestPin count = leastLoaded count 4 := by
  have hrange : List.range 4 = 0 :: [1, 2, 3] := rfl
  rw [leastLoaded, hrange, List.foldl_cons, if_neg (Nat.lt_irrefl _)]
  rfl

/-- The first device of a slot takes the first pin, as `pciLintrRequest` has it. -/
theorem pciLintrRequestFrom_first {s : IntPins} {pi : PciDev} (hbus : s.businfo pi.bdf.bus = true)
    (hfree : ∀ pin, pin < 4 → s.count pi.bdf.bus pi.bdf.slot pin = 0) (hpin : pi.lintr.pin = 1) :
    (pciLintrRequestFrom s pi).map Prod.snd = .ok (pciLintrRequest pi) := by
  have hbest : bestPin (s.count pi.bdf.bus pi.bdf.slot) = 0 := by
    rw [bestPin_eq]
    refine @leastLoaded_spread 4 0 _ (by decide) fun pin hp => ?_
    rw [hfree pin hp, spread, if_neg (Nat.not_lt_zero pin)]
  have hsame : pi.lintr.setPin 0 = pi.lintr := by
    cases hl : pi.lintr with
    | mk pin hpos state lock =>
      rw [hl] at hpin
      dsimp only at hpin
      subst hpin
      rfl
  rw [pciLintrRequestFrom, Except.bind_ok (assert_eq_ok (u := ()) |>.2 hbus)]
  dsimp only [Except.map]
  rw [hbest, hsame, pciLintrRequest, hpin]

/-! ## Runs -/

/-- A request, with the device before and after it. -/
abbrev PinRequest : Type := PciDev × PciDev

def PinStep (s : IntPins) (r : PinRequest) (t : IntPins) : Prop := pciLintrRequestFrom s r.1 = .ok (t, r.2)

theorem pinStep_of_bus (s : IntPins) (pi : PciDev) (hbus : s.businfo pi.bdf.bus = true) :
    ∃ t pj, PinStep s (pi, pj) t := by
  have hok : ∃ r, pciLintrRequestFrom s pi = .ok r :=
    ⟨_, Except.bind_ok (assert_eq_ok (u := ()) |>.2 hbus)⟩
  obtain ⟨⟨t, pj⟩, hr⟩ := hok
  exact ⟨t, pj, hr⟩

/-- The requests for a slot. -/
def slotRequests (bus slot : Nat) (rs : List PinRequest) : Nat :=
  rs.countP fun r => r.1.bdf.bus == bus && r.1.bdf.slot == slot

/-- The pins are spread over the requests. -/
def PinsSpread (s : IntPins) (requests : Nat → Nat → Nat) : Prop :=
  ∀ bus slot pin, pin < 4 → s.count bus slot pin = spread 4 (requests bus slot) pin

theorem slotRequests_snoc (bus slot : Nat) (rs : List PinRequest) (pi pj : PciDev) :
    slotRequests bus slot (rs ++ [(pi, pj)]) =
      slotRequests bus slot rs + if pi.bdf.bus = bus ∧ pi.bdf.slot = slot then 1 else 0 := by
  simp only [slotRequests, List.countP_append, List.countP_singleton, Bool.and_eq_true, beq_iff_eq]

section Runs

variable {s t : IntPins} {pi pj : PciDev} {requests : Nat → Nat → Nat}

theorem PinsSpread.fresh (hfree : ∀ bus slot pin, pin < 4 → s.count bus slot pin = 0) :
    PinsSpread s fun _ _ => 0 := by
  intro bus slot pin hpin
  show _ = spread 4 0 pin
  rw [hfree bus slot pin hpin, spread, Nat.zero_mod, if_neg (Nat.not_lt_zero pin)]

/-- **One request.** -/
theorem PinsSpread.step (h : PinsSpread s requests) (hstep : PinStep s (pi, pj) t) :
    (pj.lintr.pin = requests pi.bdf.bus pi.bdf.slot % 4 + 1 ∧
      pj.cfgdata pcirIntpin = BitVec.ofNat 8 (requests pi.bdf.bus pi.bdf.slot % 4 + 1)) ∧
    t.businfo = s.businfo ∧ t.route = s.route ∧ s.businfo pi.bdf.bus = true ∧
    PinsSpread t fun bus slot =>
      requests bus slot + if pi.bdf.bus = bus ∧ pi.bdf.slot = slot then 1 else 0 := by
  have hrequest : pciLintrRequestFrom s pi = .ok (t, pj) := hstep
  obtain ⟨_, hbus, hrequest⟩ := Except.bind_eq_ok.1 hrequest
  obtain ⟨rfl, rfl⟩ := Prod.mk.inj (Except.ok.inj hrequest)
  have hslot := h pi.bdf.bus pi.bdf.slot
  have hbest : bestPin (s.count pi.bdf.bus pi.bdf.slot) = requests pi.bdf.bus pi.bdf.slot % 4 := by
    rw [bestPin_eq]
    exact leastLoaded_spread (by decide) hslot
  refine ⟨⟨congrArg (· + 1) hbest, ?_⟩, rfl, rfl, assert_eq_ok.1 hbus, fun bus slot pin hpin => ?_⟩
  · rw [← hbest]
    exact Function.update_self pcirIntpin _ pi.cfgdata
  · dsimp only
    by_cases hb : bus = pi.bdf.bus
    · subst hb
      rw [Function.update_self]
      by_cases hs : slot = pi.bdf.slot
      · subst hs
        rw [Function.update_self, if_pos ⟨rfl, rfl⟩, bestPin_eq]
        exact takeLeast_spread (by decide) hslot pin hpin
      · rw [Function.update_of_ne hs, if_neg (fun h => hs h.2.symm), Nat.add_zero]
        exact h _ slot pin hpin
    · rw [Function.update_of_ne hb, if_neg (fun h => hb h.1.symm), Nat.add_zero]
      exact h bus slot pin hpin

/-- **Any requests.** -/
theorem PinsSpread.run {rs : List PinRequest} (h : PinsSpread s fun _ _ => 0) (hrun : Run PinStep s rs t) :
    PinsSpread t (fun bus slot => slotRequests bus slot rs) ∧ t.businfo = s.businfo := by
  induction hrun with
  | nil => exact ⟨h, rfl⟩
  | @snoc u v rs r _ hstep ih =>
    obtain ⟨pi, pj⟩ := r
    obtain ⟨hspread, hbus⟩ := ih
    obtain ⟨-, hbus', -, -, hnext⟩ := hspread.step hstep
    refine ⟨fun bus slot pin hpin => ?_, hbus'.trans hbus⟩
    rw [hnext bus slot pin hpin]
    exact congrArg (spread 4 · pin) (slotRequests_snoc bus slot rs pi pj).symm

end Runs

/-! ## The pins in use -/

section Used

variable {s : IntPins} {bus slot : Nat} {k : Nat}

/-- The first pins of a slot are the ones in use. -/
theorem used_pins (h : ∀ pin, pin < 4 → s.count bus slot pin = spread 4 k pin) :
    ((List.range 4).filter fun pin => s.count bus slot pin ≠ 0) = List.range (min 4 k) := by
  have hused : ∀ pin ∈ List.range 4, decide (s.count bus slot pin ≠ 0) = decide (pin < k) := by
    intro pin hpin
    have hlt := List.mem_range.1 hpin
    rw [decide_eq_decide, h pin hlt, ← Nat.pos_iff_ne_zero]
    exact spread_pos_iff hlt
  rw [List.filter_congr hused]
  match k with
  | 0 | 1 | 2 | 3 => rfl
  | k + 4 =>
    rw [Nat.min_eq_left (Nat.le_add_left 4 k)]
    exact List.filter_eq_self.2 fun pin hpin => decide_eq_true (by have := List.mem_range.1 hpin; omega)

theorem walk_slot (h : ∀ pin, pin < 4 → s.count bus slot pin = spread 4 k pin) :
    ((List.range 4).filterMap fun pin =>
        if s.count bus slot pin ≠ 0 then some (LintrVisit.mk bus slot (pin + 1) (s.route bus slot pin))
        else none) =
      (List.range (min 4 k)).map fun pin => ⟨bus, slot, pin + 1, s.route bus slot pin⟩ := by
  rw [← used_pins h, ← List.filterMap_eq_map, List.filterMap_filter]
  simp only [decide_eq_true_eq, Function.comp_apply]

/-- A loop that counts. -/
theorem foldl_count {α : Type} (p : α → Bool) (xs : List α) (count : Nat) :
    xs.foldl (fun count x => if p x then count + 1 else count) count = count + (xs.filter p).length := by
  induction xs generalizing count with
  | nil => rfl
  | cons x xs ih =>
    rw [List.foldl_cons, ih]
    cases hx : p x with
    | false => rw [List.filter_cons_of_neg (by rw [hx]; exact Bool.false_ne_true)]; rfl
    | true => rw [List.filter_cons_of_pos hx, List.length_cons, if_pos rfl, Nat.add_assoc, Nat.add_comm 1]

theorem count_slot (h : ∀ pin, pin < 4 → s.count bus slot pin = spread 4 k pin) (count : Nat) :
    (List.range 4).foldl (fun count pin => if s.count bus slot pin ≠ 0 then count + 1 else count) count =
      count + min 4 k := by
  have hloop := foldl_count (fun pin => decide (s.count bus slot pin ≠ 0)) (List.range 4) count
  rw [used_pins h, List.length_range] at hloop
  simpa only [decide_eq_true_eq] using hloop

end Used

/-- **Interrupt pins.** The pins of a slot go round: a request takes the pin that is next in turn, and
tells the guest. So the users of two pins of a slot differ by one at most, and `pci_count_lintr` and
`pci_walk_lintr` find the first pins of each slot, each once. -/
theorem interrupt_pins_balanced {s t : IntPins} {rs : List PinRequest}
    (hfree : ∀ bus slot pin, pin < 4 → s.count bus slot pin = 0) (hrun : Run PinStep s rs t) :
    (∀ before after pi pj, rs = before ++ (pi, pj) :: after →
      pj.lintr.pin = slotRequests pi.bdf.bus pi.bdf.slot before % 4 + 1 ∧
      pj.cfgdata pcirIntpin = BitVec.ofNat 8 (slotRequests pi.bdf.bus pi.bdf.slot before % 4 + 1)) ∧
    (∀ bus slot pin, pin < 4 →
      t.count bus slot pin = spread 4 (slotRequests bus slot rs) pin) ∧
    ∀ bus, t.businfo bus = true →
      pciCountLintr t bus = ((List.range 32).map fun slot => min 4 (slotRequests bus slot rs)).sum ∧
      pciWalkLintr t bus = (List.range 32).flatMap fun slot =>
        (List.range (min 4 (slotRequests bus slot rs))).map fun pin =>
          ⟨bus, slot, pin + 1, t.route bus slot pin⟩ := by
  have hfresh := PinsSpread.fresh hfree
  refine ⟨fun before after pi pj hrs => ?_, (hfresh.run hrun).1, fun bus hbus => ?_⟩
  · subst hrs
    obtain ⟨u, v, hbefore, hstep, -⟩ := hrun.step_at
    exact ((hfresh.run hbefore).1.step hstep).1
  · have hspread := (hfresh.run hrun).1 bus
    rw [pciCountLintr, if_pos hbus, pciWalkLintr, if_pos hbus]
    constructor
    · rw [List.sum_eq_foldl_nat, List.foldl_map]
      exact List.foldl_ext _ _ _ fun count slot _ => count_slot (hspread slot) count
    · exact List.flatMap_congr fun slot _ => walk_slot (hspread slot)

/-- Bus 0, with no pin in use. -/
def freshPins : IntPins := { businfo := (· == 0), count := fun _ _ _ => 0, route := fun _ _ _ => ⟨0, 0⟩ }

/-- Two functions of slot 1 get pins A and B. -/
theorem interrupt_pins_balanced_two : ∃ t pj pk,
    Run PinStep freshPins [(pciEmulDevinst ⟨0, 1, 0⟩, pj), (pciEmulDevinst ⟨0, 1, 1⟩, pk)] t ∧
      pj.cfgdata pcirIntpin = 1 ∧ pk.cfgdata pcirIntpin = 2 ∧ pciCountLintr t 0 = 2 := by
  obtain ⟨u, pj, hfirst⟩ := pinStep_of_bus freshPins (pciEmulDevinst ⟨0, 1, 0⟩) rfl
  have hrun := Run.single hfirst
  have hbus : u.businfo = freshPins.businfo := ((PinsSpread.fresh fun _ _ _ _ => rfl).run hrun).2
  obtain ⟨t, pk, hsecond⟩ := pinStep_of_bus u (pciEmulDevinst ⟨0, 1, 1⟩) (by rw [hbus]; rfl)
  have hboth : Run PinStep freshPins
      [(pciEmulDevinst ⟨0, 1, 0⟩, pj), (pciEmulDevinst ⟨0, 1, 1⟩, pk)] t := hrun.snoc hsecond
  have hbus : t.businfo = freshPins.businfo := ((PinsSpread.fresh fun _ _ _ _ => rfl).run hboth).2
  obtain ⟨hturn, -, hused⟩ := interrupt_pins_balanced (fun _ _ _ _ => rfl) hboth
  have hpins := (hused 0 (by rw [hbus]; rfl)).1
  have hslots : ∀ slot, slotRequests 0 slot [(pciEmulDevinst ⟨0, 1, 0⟩, pj), (pciEmulDevinst ⟨0, 1, 1⟩, pk)] =
      if slot = 1 then 2 else 0 := by
    intro slot
    have hbdf : ∀ bdf, (pciEmulDevinst bdf).bdf = bdf := fun _ => rfl
    by_cases h : slot = 1
    · subst h
      simp only [slotRequests, List.countP_cons, List.countP_nil, hbdf]
      rfl
    · simp [slotRequests, hbdf, h, Ne.symm h]
  simp only [hslots] at hpins
  refine ⟨t, pj, pk, hboth, (hturn [] _ _ _ rfl).2.trans ?_, (hturn [_] [] _ _ rfl).2.trans ?_, hpins.trans ?_⟩
  · rfl
  · rfl
  · decide

end DeviceModel
