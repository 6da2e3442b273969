import DeviceModel.Library.LinkedList
import DeviceModel.Library.Runs
import DeviceModel.Pci.Startup

/-!
# The capability list

`pci_emul_add_capability` lays capabilities out in config space one after another and
threads a list through them; `pci_emul_capwrite` walks the list to find the capability a
guest write is for.

* `CapList` — what the list is at any time: the capabilities are `Linked` twice, by where
  they end and by their next pointers;
* `CapAdded` — what one call adds, and `CapList.add`;
* `CapsKept` — what a guest write in the region leaves alone.
-/

namespace DeviceModel

/-! ## Layout -/

/-- The room a capability takes: its bytes, rounded up to double words. -/
def capLen (capdata : List U8) : Nat := (capdata.length + 3) / 4 * 4

/-- A capability: where it lies, and the bytes it was made from. -/
structure Capability where
  off : Nat
  data : List U8
  deriving DecidableEq, Repr

namespace Capability

/-- The first byte behind it. -/
def stop (c : Capability) : Nat := c.off + capLen c.data

/-- The pointer to it. -/
def ptr (c : Capability) : U8 := BitVec.ofNat 8 c.off

/-- The offset `i` is in the capability. -/
def Has (c : Capability) (i : Nat) : Prop := c.off ≤ i ∧ i < c.stop

theorem off_le_stop (c : Capability) : c.off ≤ c.stop := Nat.le_add_right _ _

end Capability

namespace PciDev

/-- The next pointer of the capability at `p`. -/
def nextPtr (pi : PciDev) (p : U8) : U8 := pi.cfgdata (p.toNat + 1)

/-- There is no capability yet. -/
def capFirst (pi : PciDev) : Bool := pi.cfg16 pcirStatus &&& pcimStatusCappresent == 0

/-- Where the next capability goes. -/
def capNext (pi : PciDev) : Nat := if pi.capFirst then capStartOffset else pi.capend + 1

/-- The byte that points to the next capability. -/
def capSlot (pi : PciDev) : Nat := if pi.capFirst then pcirCapPtr else pi.prevcap + 1

/-- A device as `calloc` returns it, with whatever else `pe_init` has set. -/
structure FreshCaps (pi : PciDev) : Prop where
  first : pi.capFirst = true
  ptr : pi.cfgdata pcirCapPtr = 0

end PciDev

/-- The capabilities of a device, in order. -/
structure CapList (pi : PciDev) (caps : List Capability) : Prop where
  first : pi.capFirst = true ↔ caps = []
  packed : Linked Capability.off Capability.stop capStartOffset caps pi.capNext
  within : pi.capNext ≤ pciRegmax + 1
  linked : Linked Capability.ptr (fun c => pi.cfgdata (c.off + 1)) (pi.cfgdata pcirCapPtr) caps 0
  last : ∀ cs c, caps = cs ++ [c] → pi.prevcap = c.off
  bytes : ∀ c ∈ caps, ∀ i b, i ≠ 1 → c.data[i]? = some b → pi.cfgdata (c.off + i) = b
  two_le : ∀ c ∈ caps, 2 ≤ c.data.length

namespace CapList

variable {pi : PciDev} {caps : List Capability} {c : Capability}

theorem start_le (h : CapList pi caps) : capStartOffset ≤ pi.capNext :=
  h.packed.le fun c _ => c.off_le_stop

theorem between (h : CapList pi caps) (hc : c ∈ caps) :
    capStartOffset ≤ c.off ∧ c.stop ≤ pi.capNext :=
  h.packed.between (fun c _ => c.off_le_stop) c hc

/-- A capability has its id, its next pointer and two bytes more. -/
theorem four_le (h : CapList pi caps) (hc : c ∈ caps) : c.off + 4 ≤ c.stop := by
  have htwo := h.two_le c hc
  rw [Capability.stop, capLen]
  omega

theorem lt (h : CapList pi caps) (hc : c ∈ caps) : c.off < 256 := by
  obtain ⟨-, hstop⟩ := h.between hc
  have hfour := h.four_le hc
  have hwithin := h.within
  rw [pciRegmax] at hwithin
  omega

theorem toNat_ptr (h : CapList pi caps) (hc : c ∈ caps) : c.ptr.toNat = c.off := by
  rw [Capability.ptr, BitVec.toNat_ofNat]
  exact Nat.mod_eq_of_lt (h.lt hc)

theorem ptr_ne_zero (h : CapList pi caps) (hc : c ∈ caps) : c.ptr ≠ 0 := by
  intro hzero
  have htoNat := h.toNat_ptr hc
  obtain ⟨hstart, -⟩ := h.between hc
  rw [hzero] at htoNat
  rw [← htoNat] at hstart
  exact absurd hstart (by decide)

/-- The capabilities are aligned to double words. -/
theorem aligned (h : CapList pi caps) : ∀ c ∈ caps, c.off % 4 = 0 := by
  have hpacked := h.packed
  have hstart : capStartOffset % 4 = 0 := rfl
  generalize capStartOffset = p at hpacked hstart
  generalize pi.capNext = q at hpacked
  clear h
  induction caps generalizing p with
  | nil => simp
  | cons c cs ih =>
    obtain ⟨rfl, hcs⟩ := hpacked
    have hstop : c.stop % 4 = 0 := by
      rw [Capability.stop, capLen]
      omega
    intro d hd
    rcases List.mem_cons.1 hd with rfl | hd
    · exact hstart
    · exact ih c.stop hstop hcs d hd

/-- There is room for 48 capabilities. -/
theorem length_le (h : CapList pi caps) : caps.length ≤ 48 := by
  have hlength : ∀ (p q : Nat) (cs : List Capability), (∀ c ∈ cs, c.off + 4 ≤ c.stop) →
      Linked Capability.off Capability.stop p cs q → p + 4 * cs.length ≤ q := by
    intro p q cs hcs hpacked
    induction cs generalizing p with
    | nil => exact Nat.le_of_eq hpacked
    | cons c cs ih =>
      obtain ⟨rfl, hpacked⟩ := hpacked
      have htail := ih c.stop (fun d hd => hcs d (List.mem_cons_of_mem _ hd)) hpacked
      have hhead := hcs c (by simp)
      rw [List.length_cons]
      omega
  have hle := hlength _ _ caps (fun c hc => h.four_le hc) h.packed
  have hwithin := h.within
  rw [capStartOffset] at hle
  rw [pciRegmax] at hwithin
  omega

theorem pairwise (h : CapList pi caps) : caps.Pairwise fun c d => c.stop ≤ d.off :=
  h.packed.pairwise fun c _ => c.off_le_stop

/-- Following the pointers visits the capabilities. -/
theorem visits (h : CapList pi caps) {n : Nat} (hn : caps.length ≤ n) :
    follow 0 pi.nextPtr n (pi.cfgdata pcirCapPtr) = caps.map Capability.ptr := by
  refine h.linked.follow_eq ?_ ?_ hn
  · intro c hc
    exact h.ptr_ne_zero hc
  · intro c hc
    rw [PciDev.nextPtr, h.toNat_ptr hc]

/-- A device without capabilities. -/
theorem of_fresh (h : pi.FreshCaps) : CapList pi [] where
  first := by simp [h.first]
  packed := by simp [Linked, PciDev.capNext, h.first]
  within := by simp [PciDev.capNext, h.first, capStartOffset, pciRegmax]
  linked := h.ptr
  last := by simp
  bytes := by simp
  two_le := by simp

end CapList

/-! ## Adding a capability -/

/-- What a call of `pci_emul_add_capability` that finds room does to a device. -/
structure CapAdded (capdata : List U8) (pi pi' : PciDev) : Prop where
  first : pi'.capFirst = false
  slot : pi'.cfgdata pi.capSlot = BitVec.ofNat 8 pi.capNext
  next : pi'.cfgdata (pi.capNext + 1) = 0
  bytes : ∀ i b, i ≠ 1 → capdata[i]? = some b → pi'.cfgdata (pi.capNext + i) = b
  rest : ∀ i, i ≠ pi.capSlot → (pi.capFirst = true → i ≠ pcirStatus ∧ i ≠ pcirStatus + 1) →
    i < pi.capNext ∨ pi.capNext + capLen capdata ≤ i → pi'.cfgdata i = pi.cfgdata i
  prevcap : pi'.prevcap = pi.capNext
  capend : pi'.capend = pi.capNext + capLen capdata - 1
  msi : pi'.msi = pi.msi ∧ pi'.msix = pi.msix

theorem pciSetCfgdata8_returns (pi : PciDev) {offset : Nat} (val : U8) (hle : offset ≤ pciRegmax) :
    pciSetCfgdata8 pi offset val = .ok (pi.set8 offset val) := by
  simp [pciSetCfgdata8, assert, hle]
  rfl

theorem PciDev.capFirst_congr {pi pi' : PciDev} (h : pi'.cfg16 pcirStatus = pi.cfg16 pcirStatus) :
    pi'.capFirst = pi.capFirst := by
  rw [capFirst, capFirst, h]

/-- The loop stores the bytes one after another. -/
theorem copyCap_returns (pi : PciDev) (capoff : Nat) (vs : List U8)
    (h : capoff + vs.length ≤ pciRegmax + 1) :
    ∃ pj, copyCap pi capoff vs = .ok pj ∧ CfgFrame capoff (capoff + vs.length) pi pj ∧
      ∀ i b, vs[i]? = some b → pj.cfgdata (capoff + i) = b := by
  induction vs generalizing pi capoff with
  | nil => exact ⟨pi, rfl, ⟨rfl, fun _ _ => rfl⟩, by simp⟩
  | cons v vs ih =>
    rw [List.length_cons] at h ⊢
    obtain ⟨pj, hcopy, hframe, hbytes⟩ := ih (pi.set8 capoff v) (capoff + 1) (by omega)
    refine ⟨pj, ?_, ?_, ?_⟩
    · rw [copyCap, pciSetCfgdata8_returns pi v (by omega)]
      exact hcopy
    · have htrans := (CfgFrame.set8 pi capoff v).trans hframe (by omega) (by omega)
      rwa [Nat.add_assoc capoff, Nat.add_comm 1] at htrans
    · intro i b hb
      cases i with
      | zero =>
        obtain rfl : v = b := by simpa using hb
        rw [Nat.add_zero, hframe.bytes capoff (by omega)]
        simp [PciDev.set8]
      | succ i =>
        have htail := hbytes i b (by simpa using hb)
        rwa [Nat.add_assoc, Nat.add_comm 1] at htail

/-- The pointer to a new capability, in `PCIR_CAP_PTR` or in the one before it. -/
def linkCap (pi : PciDev) : PciDev :=
  let pj := pi.set8 pi.capSlot (BitVec.ofNat 8 pi.capNext)
  if pi.capFirst then pj.set16 pcirStatus (pi.cfg16 pcirStatus ||| pcimStatusCappresent) else pj

/-- `pci_emul_add_capability` where there is room. -/
theorem pciEmulAddCapability_fits {pi : PciDev} {capdata : List U8} (hlen : 2 ≤ capdata.length)
    (hfits : pi.capNext + capLen capdata ≤ pciRegmax + 1) (hslot : pi.capSlot ≤ pciRegmax) :
    ∃ pj, copyCap (linkCap pi) pi.capNext capdata = .ok pj ∧
      pciEmulAddCapability pi capdata = .ok
        ({ pj.set8 (pi.capNext + 1) 0 with
            prevcap := pi.capNext, capend := pi.capNext + capLen capdata - 1 }, true) := by
  have hle : capdata.length ≤ capLen capdata := by
    rw [capLen]
    omega
  have hroom : ¬(pi.capNext + capLen capdata > pciRegmax + 1) := by omega
  have hnext : pi.capNext + 1 ≤ pciRegmax := by omega
  have hpos : decide (0 < capdata.length) = true := decide_eq_true (by omega)
  obtain ⟨pj, hcopy, -⟩ := copyCap_returns (linkCap pi) pi.capNext capdata (by omega)
  refine ⟨pj, hcopy, ?_⟩
  rw [linkCap] at hcopy
  rw [PciDev.capSlot] at hslot hcopy
  rw [pciEmulAddCapability, Except.bind_ok (assert_eq_ok (u := ()) |>.2 hpos)]
  by_cases hfirst : pi.capFirst = true
  · have hcapoff : pi.capNext = capStartOffset := by rw [PciDev.capNext, if_pos hfirst]
    rw [hcapoff] at hcopy hroom hnext ⊢
    simp only [if_pos hfirst] at hcopy
    rw [PciDev.capFirst] at hfirst
    simp only [hfirst, if_true, ← capLen.eq_1]
    rw [if_neg hroom, Except.bind_ok (pciSetCfgdata8_returns pi _ (by decide))]
    refine (Except.bind_ok hcopy).trans ?_
    exact Except.bind_ok (pciSetCfgdata8_returns pj 0 hnext)
  · have hcapoff : pi.capNext = pi.capend + 1 := by rw [PciDev.capNext, if_neg hfirst]
    rw [hcapoff] at hcopy hroom hnext ⊢
    simp only [if_neg hfirst] at hcopy hslot
    rw [PciDev.capFirst] at hfirst
    simp only [if_neg hfirst, ← capLen.eq_1]
    rw [if_neg hroom, Except.bind_ok (pciSetCfgdata8_returns pi _ hslot)]
    refine (Except.bind_ok hcopy).trans ?_
    exact Except.bind_ok (pciSetCfgdata8_returns pj 0 hnext)

/-- And where there is none. -/
theorem pciEmulAddCapability_full {pi : PciDev} {capdata : List U8} (hlen : 2 ≤ capdata.length)
    (hfull : pciRegmax + 1 < pi.capNext + capLen capdata) :
    pciEmulAddCapability pi capdata = .ok (pi, false) := by
  have hpos : assert "caplen > 0" (0 < capdata.length) = .ok () :=
    assert_eq_ok.2 (decide_eq_true (by omega))
  exact (Except.bind_ok hpos).trans (if_pos hfull)

/-- The pointer changes its own byte, and the status register the first time. -/
theorem linkCap_bytes {pi : PciDev} (hslot : pcirStatus + 1 < pi.capSlot) :
    (linkCap pi).cfgdata pi.capSlot = BitVec.ofNat 8 pi.capNext ∧ (linkCap pi).capFirst = false ∧
      ∀ i, i ≠ pi.capSlot → (pi.capFirst = true → i ≠ pcirStatus ∧ i ≠ pcirStatus + 1) →
        (linkCap pi).cfgdata i = pi.cfgdata i := by
  rw [linkCap]
  by_cases hfirst : pi.capFirst = true
  · have hframe := CfgFrame.set16 (pi.set8 pi.capSlot (BitVec.ofNat 8 pi.capNext)) pcirStatus
      (pi.cfg16 pcirStatus ||| pcimStatusCappresent)
    rw [if_pos hfirst]
    refine ⟨?_, ?_, ?_⟩
    · rw [hframe.bytes pi.capSlot (.inr hslot)]
      exact Function.update_self _ _ _
    · have hbit : (pi.cfg16 pcirStatus ||| pcimStatusCappresent) &&& pcimStatusCappresent =
          pcimStatusCappresent := by
        apply BitVec.eq_of_getLsbD_eq
        intro i hi
        rw [BitVec.getLsbD_and, BitVec.getLsbD_or]
        cases pcimStatusCappresent.getLsbD i <;> simp
      rw [PciDev.capFirst, PciDev.cfg16_set16, hbit]
      rfl
    · intro i hne hstatus
      obtain ⟨hlo, hhi⟩ := hstatus hfirst
      rw [hframe.bytes i (by omega)]
      exact Function.update_of_ne hne _ _
  · have hframe := CfgFrame.set8 pi pi.capSlot (BitVec.ofNat 8 pi.capNext)
    rw [if_neg hfirst]
    refine ⟨Function.update_self _ _ _, ?_, fun i hne _ => Function.update_of_ne hne _ _⟩
    rw [PciDev.capFirst_congr (hframe.cfg16 (.inl hslot))]
    exact Bool.eq_false_iff.2 hfirst

theorem linkCap_msi (pi : PciDev) : (linkCap pi).msi = pi.msi ∧ (linkCap pi).msix = pi.msix := by
  rw [linkCap]
  split <;> exact ⟨rfl, rfl⟩

theorem pciEmulAddCapability_adds {pi : PciDev} {capdata : List U8} (hlen : 2 ≤ capdata.length)
    (hfits : pi.capNext + capLen capdata ≤ pciRegmax + 1) (hstart : capStartOffset ≤ pi.capNext)
    (hstatus : pcirStatus + 1 < pi.capSlot) (hslot : pi.capSlot < pi.capNext) :
    ∃ pi', pciEmulAddCapability pi capdata = .ok (pi', true) ∧ CapAdded capdata pi pi' := by
  have hle : capdata.length ≤ capLen capdata := by
    rw [capLen]
    omega
  obtain ⟨pj, hcopy, hadd⟩ := pciEmulAddCapability_fits hlen hfits (by omega)
  obtain ⟨hlink, hfirst, hrest⟩ := linkCap_bytes hstatus
  obtain ⟨_, hcopy', hframe, hbytes⟩ :=
    copyCap_returns (linkCap pi) pi.capNext capdata (by omega)
  obtain rfl := Except.ok.inj (hcopy.symm.trans hcopy')
  have hzero := CfgFrame.set8 pj (pi.capNext + 1) 0
  have hbelow : ∀ i, i < pi.capNext ∨ pi.capNext + capLen capdata ≤ i →
      (pj.set8 (pi.capNext + 1) 0).cfgdata i = (linkCap pi).cfgdata i := by
    intro i hi
    rw [hzero.bytes i (by omega), hframe.bytes i (by omega)]
  rw [capStartOffset] at hstart
  refine ⟨_, hadd, ?_, ?_, ?_, ?_, ?_, rfl, rfl, ?_⟩
  · refine (PciDev.capFirst_congr ?_).trans hfirst
    exact congr_arg₂ (· ++ ·) (hbelow 7 (by omega)) (hbelow 6 (by omega))
  · exact (hbelow _ (.inl hslot)).trans hlink
  · exact Function.update_self _ _ _
  · intro i b hi hb
    have hne : pi.capNext + i ≠ pi.capNext + 1 := by omega
    exact (hzero.bytes _ (by omega)).trans (hbytes i b hb)
  · intro i hne hstatus hi
    exact (hbelow i hi).trans (hrest i hne hstatus)
  · rw [hframe.rest]
    exact linkCap_msi pi

namespace CapList

variable {pi pi' : PciDev} {caps cs : List Capability} {c : Capability} {capdata : List U8}

theorem capSlot_nil (h : CapList pi []) : pi.capSlot = pcirCapPtr := by
  rw [PciDev.capSlot, if_pos (h.first.2 rfl)]

theorem not_first (h : CapList pi caps) (hc : c ∈ caps) : ¬ pi.capFirst = true := by
  intro hfirst
  rw [h.first.1 hfirst] at hc
  cases hc

/-- The next pointer of the last capability is the one to set. -/
theorem capSlot_concat (h : CapList pi (cs ++ [c])) : pi.capSlot = c.off + 1 := by
  rw [PciDev.capSlot, if_neg (h.not_first (c := c) (by simp)), h.last cs c rfl]

theorem capSlot_lt (h : CapList pi caps) : pcirStatus + 1 < pi.capSlot ∧ pi.capSlot < pi.capNext := by
  rcases List.eq_nil_or_concat' caps with rfl | ⟨cs, c, rfl⟩
  · have hstart := h.start_le
    rw [h.capSlot_nil]
    exact ⟨by decide, hstart.trans_lt' (by decide)⟩
  · obtain ⟨hlo, hhi⟩ := h.between (c := c) (by simp)
    have hfour := h.four_le (c := c) (by simp)
    rw [h.capSlot_concat]
    rw [capStartOffset] at hlo
    rw [pcirStatus]
    omega

/-- The other bytes of the capabilities are not the pointer that is set. -/
theorem ne_capSlot (h : CapList pi caps) (hc : c ∈ caps) {i : Nat} (hi : c.Has i)
    (hne : i ≠ c.off + 1) : i ≠ pi.capSlot := by
  rcases List.eq_nil_or_concat' caps with rfl | ⟨cs, d, rfl⟩
  · cases hc
  · rw [h.capSlot_concat]
    rcases List.mem_append.1 hc with hcs | hd
    · have hstop : c.stop ≤ d.off := (List.pairwise_append.1 h.pairwise).2.2 c hcs d (by simp)
      have hlt := hi.2
      omega
    · obtain rfl := List.mem_singleton.1 hd
      exact hne

/-- What lies in a capability stays, but for the pointer that is set. -/
theorem added_bytes (h : CapList pi caps) (hadd : CapAdded capdata pi pi') (hc : c ∈ caps) {i : Nat}
    (hi : c.Has i) (hne : i ≠ pi.capSlot) : pi'.cfgdata i = pi.cfgdata i := by
  refine hadd.rest i hne ?_ ?_
  · intro hfirst
    exact absurd hfirst (h.not_first hc)
  · exact .inl (hi.2.trans_le (h.between hc).2)

/-- The pointers lead on to the new capability. -/
theorem added_linked (h : CapList pi caps) (hadd : CapAdded capdata pi pi') :
    Linked Capability.ptr (fun c => pi'.cfgdata (c.off + 1)) (pi'.cfgdata pcirCapPtr) caps
      (BitVec.ofNat 8 pi.capNext) := by
  rcases List.eq_nil_or_concat' caps with rfl | ⟨cs, c, rfl⟩
  · have hslot := hadd.slot
    rwa [h.capSlot_nil] at hslot
  · obtain ⟨hcs, -⟩ := linked_concat.1 h.linked
    have hc : c ∈ cs ++ [c] := by simp
    have hptr : pi'.cfgdata pcirCapPtr = pi.cfgdata pcirCapPtr := by
      obtain ⟨hlo, -⟩ := h.between hc
      refine hadd.rest _ ?_ ?_ ?_
      · rw [h.capSlot_concat]
        rw [capStartOffset] at hlo
        rw [pcirCapPtr]
        omega
      · intro hfirst
        exact absurd hfirst (h.not_first hc)
      · exact .inl (h.start_le.trans_lt' (by decide))
    refine linked_concat.2 ⟨?_, ?_⟩
    · rw [hptr]
      refine hcs.congr fun x hx => ?_
      have hmem : x ∈ cs ++ [c] := List.mem_append_left _ hx
      have hfour := h.four_le hmem
      have hstop : x.stop ≤ c.off := (List.pairwise_append.1 h.pairwise).2.2 x hx c (by simp)
      refine h.added_bytes hadd hmem ⟨by omega, by omega⟩ ?_
      rw [h.capSlot_concat]
      omega
    · have hslot := hadd.slot
      rwa [h.capSlot_concat] at hslot

/-- **One call.** The list grows by the new capability. -/
theorem add (h : CapList pi caps) (hadd : CapAdded capdata pi pi') (hlen : 2 ≤ capdata.length)
    (hfits : pi.capNext + capLen capdata ≤ pciRegmax + 1) :
    CapList pi' (caps ++ [⟨pi.capNext, capdata⟩]) := by
  have hle : capdata.length ≤ capLen capdata := by
    rw [capLen]
    omega
  have hnext : pi'.capNext = pi.capNext + capLen capdata := by
    rw [PciDev.capNext, hadd.first, hadd.capend]
    simp
    omega
  constructor
  · simp [hadd.first]
  · exact linked_concat.2 ⟨h.packed, hnext.symm⟩
  · rwa [hnext]
  · exact linked_concat.2 ⟨h.added_linked hadd, hadd.next⟩
  · intro cs c heq
    obtain ⟨-, rfl⟩ : caps = cs ∧ ⟨pi.capNext, capdata⟩ = c := by simpa using heq
    exact hadd.prevcap
  · intro c hc i b hi hb
    rcases List.mem_append.1 hc with hc | hc
    · have hlt : i < c.data.length := (List.getElem?_eq_some_iff.1 hb).1
      have hhas : c.Has (c.off + i) := by
        refine ⟨by omega, ?_⟩
        rw [Capability.stop, capLen]
        omega
      rw [h.added_bytes hadd hc hhas (h.ne_capSlot hc hhas (by omega))]
      exact h.bytes c hc i b hi hb
    · obtain rfl := List.mem_singleton.1 hc
      exact hadd.bytes i b hi hb
  · intro c hc
    rcases List.mem_append.1 hc with hc | hc
    · exact h.two_le c hc
    · obtain rfl := List.mem_singleton.1 hc
      exact hlen

end CapList

/-! ## Sequences of calls -/

/-- Calls of `pci_emul_add_capability` in sequence: the device, and which found room. -/
def addCapabilities : PciDev → List (List U8) → Except Stop (PciDev × List Bool)
  | pi, [] => .ok (pi, [])
  | pi, capdata :: datas => do
    let r ← pciEmulAddCapability pi capdata
    let rs ← addCapabilities r.1 datas
    .ok (rs.1, r.2 :: rs.2)

/-- The data of the calls that found room. -/
def accepted (datas : List (List U8)) (oks : List Bool) : List (List U8) :=
  ((datas.zip oks).filter fun p => p.2).map fun p => p.1

theorem CapList.addCapabilities_returns {pi : PciDev} {caps : List Capability}
    (h : CapList pi caps) (datas : List (List U8)) (hdatas : ∀ d ∈ datas, 2 ≤ d.length) :
    ∃ pi' oks new, addCapabilities pi datas = .ok (pi', oks) ∧
      new.map Capability.data = accepted datas oks ∧ CapList pi' (caps ++ new) ∧
      pi'.msi = pi.msi ∧ pi'.msix = pi.msix := by
  induction datas generalizing pi caps with
  | nil => exact ⟨pi, [], [], rfl, rfl, by rwa [List.append_nil], rfl, rfl⟩
  | cons d datas ih =>
    have hlen : 2 ≤ d.length := hdatas d (by simp)
    have htail : ∀ d ∈ datas, 2 ≤ d.length := fun d hd => hdatas d (List.mem_cons_of_mem _ hd)
    by_cases hfits : pi.capNext + capLen d ≤ pciRegmax + 1
    · obtain ⟨pj, hcall, hadd⟩ :=
        pciEmulAddCapability_adds hlen hfits h.start_le h.capSlot_lt.1 h.capSlot_lt.2
      obtain ⟨pi', oks, new, hcalls, hnew, hlist, hmsi, hmsix⟩ := ih (h.add hadd hlen hfits) htail
      refine ⟨pi', true :: oks, ⟨pi.capNext, d⟩ :: new, ?_, ?_, ?_, ?_, ?_⟩
      · rw [addCapabilities, Except.bind_ok hcall, Except.bind_ok hcalls]
      · simp [accepted, hnew]
      · rwa [List.append_assoc, List.singleton_append] at hlist
      · exact hmsi.trans hadd.msi.1
      · exact hmsix.trans hadd.msi.2
    · have hcall := pciEmulAddCapability_full hlen (Nat.lt_of_not_le hfits)
      obtain ⟨pi', oks, new, hcalls, hnew, hlist, hmsi⟩ := ih h htail
      refine ⟨pi', false :: oks, new, ?_, ?_, hlist, hmsi⟩
      · rw [addCapabilities, Except.bind_ok hcall, Except.bind_ok hcalls]
      · simp [accepted, hnew]

/-! ## Guest writes -/

/-- The assertions of the accessors of config space. -/
def AccessorStop (e : Stop) : Prop :=
  e = .assertion "offset <= PCI_REGMAX" ∨
    e = .assertion "offset <= (PCI_REGMAX - 1) && (offset & 1) == 0" ∨
    e = .assertion "offset <= (PCI_REGMAX - 3) && (offset & 3) == 0"

/-- Only bytes from `lo` to `hi` have changed, and the list ends where it did. -/
structure CapBody (lo hi : Nat) (pi pi' : PciDev) : Prop where
  bytes : ∀ i, i < lo ∨ hi ≤ i → pi'.cfgdata i = pi.cfgdata i
  capend : pi'.capend = pi.capend

section Write

variable {pi pj : PciDev} {lo hi capoff offset bytes : Nat} {val : U32}

theorem CapBody.refl (lo hi : Nat) (pi : PciDev) : CapBody lo hi pi pi := ⟨fun _ _ => rfl, rfl⟩

theorem pciGetCfgdata8_ensures (pi : PciDev) (offset : Nat) :
    Ensures AccessorStop (fun _ => True) (pciGetCfgdata8 pi offset) :=
  .bind (.assert fun _ => .inl rfl) fun _ _ => .ok trivial

theorem pciGetCfgdata16_ensures (pi : PciDev) (offset : Nat) :
    Ensures AccessorStop (fun _ => True) (pciGetCfgdata16 pi offset) :=
  .bind (.assert fun _ => .inr (.inl rfl)) fun _ _ => .ok trivial

theorem pciGetCfgdata32_ensures (pi : PciDev) (offset : Nat) :
    Ensures AccessorStop (fun _ => True) (pciGetCfgdata32 pi offset) :=
  .bind (.assert fun _ => .inr (.inr rfl)) fun _ _ => .ok trivial

/-- `CFGWRITE` inside a capability. -/
theorem cfgwrite_body (hdata : pj.cfgdata = pi.cfgdata) (hcapend : pj.capend = pi.capend)
    (hlo : lo ≤ offset) (hhi : offset + cfgWidth bytes ≤ hi) :
    Ensures AccessorStop (CapBody lo hi pi) (cfgwrite pj offset val bytes) := by
  cases hwrite : cfgwrite pj offset val bytes with
  | ok pk =>
    have hframe := cfgwrite_frame hwrite
    refine .ok ⟨fun i hi => ?_, ?_⟩
    · rw [hframe.bytes i (by omega), hdata]
    · rw [hframe.rest]
      exact hcapend
  | error e =>
    rw [cfgwrite] at hwrite
    refine .error ?_
    split_ifs at hwrite
    · exact (Ensures.bind (.assert fun _ => .inl rfl) fun _ _ =>
        .ok trivial : Ensures AccessorStop (fun _ => True) _).of_error hwrite
    · exact (Ensures.bind (.assert fun _ => .inr (.inl rfl)) fun _ _ =>
        .ok trivial : Ensures AccessorStop (fun _ => True) _).of_error hwrite
    · exact (Ensures.bind (.assert fun _ => .inr (.inr rfl)) fun _ _ =>
        .ok trivial : Ensures AccessorStop (fun _ => True) _).of_error hwrite

/-- The handlers write the bytes they are asked to, if any. -/
theorem capCfgwrite_body (hlo : lo ≤ offset) (hhi : offset + cfgWidth bytes ≤ hi) :
    Ensures AccessorStop (CapBody lo hi pi) (capCfgwrite pi capoff offset bytes val) := by
  rw [capCfgwrite]
  refine .bind (pciGetCfgdata8_ensures pi capoff) fun capid _ => ?_
  split_ifs
  · rw [msicapCfgwrite]
    split
    · refine .bind (pciGetCfgdata16_ensures pi _) fun msgctrl _ => ?_
      refine .bind (pciGetCfgdata32_ensures pi _) fun _ _ => ?_
      refine .bind (pciGetCfgdata16_ensures pi _) fun _ _ => ?_
      exact cfgwrite_body rfl rfl hlo hhi
    · exact cfgwrite_body rfl rfl hlo hhi
  · rw [msixcapCfgwrite]
    split
    · refine .bind (pciGetCfgdata16_ensures pi _) fun msgctrl _ => ?_
      exact cfgwrite_body rfl rfl hlo hhi
    · exact cfgwrite_body rfl rfl hlo hhi
  · exact cfgwrite_body rfl rfl hlo hhi
  · exact .ok (.refl lo hi pi)

end Write

/-- What a guest write in the region never touches. -/
structure CapsKept (caps : List Capability) (pi pj : PciDev) : Prop where
  first : pj.capFirst = pi.capFirst
  capend : pj.capend = pi.capend
  heads : ∀ c ∈ caps, pj.cfgdata c.off = pi.cfgdata c.off ∧
    pj.cfgdata (c.off + 1) = pi.cfgdata (c.off + 1)

/-- The region is the same. -/
theorem CapsKept.iscap {caps : List Capability} {pi pj : PciDev} (hk : CapsKept caps pi pj)
    (i : Nat) : pciEmulIscap pj i = pciEmulIscap pi i := by
  have hfirst := hk.first
  rw [PciDev.capFirst, PciDev.capFirst] at hfirst
  rw [pciEmulIscap, pciEmulIscap, bne, bne, hfirst, hk.capend]

theorem CapsKept.capNext {caps : List Capability} {pi pj : PciDev} (hk : CapsKept caps pi pj) :
    pj.capNext = pi.capNext := by
  rw [PciDev.capNext, PciDev.capNext, hk.first, hk.capend]

/-- The walk of `pci_emul_capwrite` ends at the capability that contains the offset. By
induction on the capabilities still ahead. -/
theorem findCap_eq {pj : PciDev} {caps : List Capability} {c : Capability} {p : U8} {e q i : Nat}
    (hptr : ∀ d ∈ caps, d.ptr.toNat = d.off ∧ d.ptr ≠ 0 ∧ d.off + 4 ≤ d.stop ∧ d.stop ≤ 256)
    (hlinked : Linked Capability.ptr (fun c => pj.cfgdata (c.off + 1)) p caps 0)
    (hpacked : Linked Capability.off Capability.stop e caps q) (hc : c ∈ caps) (hi : c.Has i)
    {fuel : Nat} (hfuel : caps.length ≤ fuel) : findCap pj i fuel p = .ok c.ptr := by
  induction caps generalizing p e fuel with
  | nil => cases hc
  | cons d caps ih =>
    obtain ⟨rfl, hnext⟩ := hlinked
    obtain ⟨-, hrest⟩ := hpacked
    obtain ⟨htoNat, -, hfour, hstop⟩ := hptr d (by simp)
    obtain ⟨fuel, rfl⟩ : ∃ n, fuel = n + 1 := ⟨fuel - 1, by simp at hfuel; omega⟩
    have hget : pciGetCfgdata8 pj (d.ptr.toNat + 1) = .ok (pj.cfgdata (d.off + 1)) := by
      have hle : d.off + 1 ≤ pciRegmax := by
        rw [pciRegmax]
        omega
      rw [htoNat]
      simp [pciGetCfgdata8, assert, hle]
      rfl
    rw [findCap, Except.bind_ok hget]
    cases caps with
    | nil =>
      obtain rfl : c = d := by simpa using hc
      have hnull : pj.cfgdata (c.off + 1) = 0 := hnext
      rw [if_pos hnull]
    | cons d' caps =>
      have hd' : pj.cfgdata (d.off + 1) = d'.ptr := hnext.1
      have hstop' : d.stop = d'.off := hrest.1
      obtain ⟨htoNat', hne, -⟩ := hptr d' (by simp)
      rw [hd', if_neg hne, htoNat, htoNat', ← hstop']
      rcases List.mem_cons.1 hc with rfl | hc
      · exact if_pos hi
      · have hlo : d.stop ≤ c.off :=
          (Linked.between hrest (fun c _ => c.off_le_stop) c hc).1
        rw [if_neg fun hin => absurd hin.2 (hlo.trans hi.1).not_gt]
        refine ih ?_ ?_ hrest hc (by simpa using hfuel)
        · intro x hx
          exact hptr x (List.mem_cons_of_mem _ hx)
        · exact hd' ▸ hnext

namespace CapList

variable {pi pj : PciDev} {caps : List Capability} {c : Capability} {i fuel : Nat}

/-- The region of `pci_emul_iscap` is made of the capabilities. -/
theorem exists_has (h : CapList pi caps) (hi : pciEmulIscap pi i = true) : ∃ c ∈ caps, c.Has i := by
  simp only [pciEmulIscap, Bool.and_eq_true, decide_eq_true_eq] at hi
  obtain ⟨hpresent, hlo, hhi⟩ := hi
  have hfirst : ¬ pi.capFirst = true := by
    simpa [PciDev.capFirst] using hpresent
  have hnext : pi.capNext = pi.capend + 1 := by rw [PciDev.capNext, if_neg hfirst]
  exact h.packed.exists_mem hlo (by omega)

theorem findCap_kept (h : CapList pi caps) (hk : CapsKept caps pi pj) (hc : c ∈ caps)
    (hi : c.Has i) (hfuel : caps.length ≤ fuel) :
    findCap pj i fuel (BitVec.ofNat 8 capStartOffset) = .ok c.ptr := by
  have hlinked : Linked Capability.ptr (fun c => pj.cfgdata (c.off + 1))
      (pi.cfgdata pcirCapPtr) caps 0 :=
    h.linked.congr fun c hc => (hk.heads c hc).2
  have hstart : pi.cfgdata pcirCapPtr = BitVec.ofNat 8 capStartOffset := by
    cases caps with
    | nil => cases hc
    | cons d ds =>
      rw [h.linked.1, h.packed.1]
      rfl
  rw [hstart] at hlinked
  refine findCap_eq ?_ hlinked h.packed hc hi hfuel
  intro d hd
  have hwithin := h.within
  rw [pciRegmax] at hwithin
  exact ⟨h.toNat_ptr hd, h.ptr_ne_zero hd, h.four_le hd, (h.between hd).2.trans hwithin⟩

/-- **One write.** It changes the capability that contains its offset, behind the id and
the next pointer. -/
theorem capwrite_body (h : CapList pi caps) (hk : CapsKept caps pi pj) (hc : c ∈ caps)
    (hi : c.Has i) {bytes : Nat} (halign : cfgAligned i bytes = true) (val : U32)
    (hfuel : caps.length ≤ fuel) :
    Ensures AccessorStop (CapBody (c.off + 2) c.stop pj) (pciEmulCapwrite fuel pj i bytes val) := by
  obtain ⟨hbytes, hmod⟩ := cfgAligned_iff.1 halign
  have haligned := h.aligned c hc
  have hfour := h.four_le hc
  have hstop : c.stop % 4 = 0 := by
    rw [Capability.stop, capLen]
    omega
  have hoff := h.toNat_ptr hc
  obtain ⟨hlo, hhi⟩ := hi
  rw [pciEmulCapwrite]
  split
  · exact .ok (.refl _ _ pj)
  · rw [Except.bind_ok (h.findCap_kept hk hc ⟨hlo, hhi⟩ hfuel), hoff,
      Except.bind_ok (assert_eq_ok (u := ()) |>.2 (decide_eq_true hlo))]
    split_ifs with hhead htrim
    · -- the write is trimmed to the two bytes behind the head
      have hwidth : cfgWidth 2 = 2 := rfl
      exact capCfgwrite_body (by omega) (by omega)
    · exact .ok (.refl _ _ pj)
    · refine capCfgwrite_body (by omega) ?_
      rw [cfgWidth_of_mem hbytes]
      obtain rfl | rfl | rfl := hbytes <;> omega

theorem kept_of_body (h : CapList pi caps) {pk : PciDev} (hk : CapsKept caps pi pj) (hc : c ∈ caps)
    (hbody : CapBody (c.off + 2) c.stop pj pk) : CapsKept caps pi pk := by
  have hlo := (h.between hc).1
  rw [capStartOffset] at hlo
  refine ⟨?_, hbody.capend.trans hk.capend, ?_⟩
  · refine (PciDev.capFirst_congr ?_).trans hk.first
    exact congr_arg₂ (· ++ ·) (hbody.bytes 7 (by omega)) (hbody.bytes 6 (by omega))
  · intro d hd
    have hfour := h.four_le hd
    -- another capability lies clear of this one
    have hclear : d = c ∨ d.stop ≤ c.off ∨ c.stop ≤ d.off :=
      h.packed.apart (fun c _ => c.off_le_stop) hd hc
    obtain ⟨hid, hnext⟩ := hk.heads d hd
    have hbefore : d.off + 1 < c.off + 2 ∨ c.stop ≤ d.off := by
      rcases hclear with rfl | hle | hle
      · exact .inl (by omega)
      · exact .inl (by omega)
      · exact .inr hle
    rw [hbody.bytes d.off (by omega), hbody.bytes (d.off + 1) (by omega)]
    exact ⟨hid, hnext⟩

end CapList

/-! ## The result -/

/-- The capabilities lie one after another, and the list in config space is theirs. -/
structure WellFormedCaps (pi : PciDev) (caps : List Capability) : Prop where
  consecutive : Linked Capability.off Capability.stop capStartOffset caps pi.capNext
  aligned : ∀ c ∈ caps, c.off % 4 = 0
  apart : caps.Pairwise fun c d => c.stop ≤ d.off
  within : ∀ c ∈ caps, c.stop ≤ 256
  visits : ∀ n, caps.length ≤ n →
    follow 0 pi.nextPtr n (pi.cfgdata pcirCapPtr) = caps.map Capability.ptr
  bytes : ∀ c ∈ caps, c.ptr.toNat = c.off ∧
    ∀ i b, i ≠ 1 → c.data[i]? = some b → pi.cfgdata (c.off + i) = b

theorem CapList.wellFormed {pi : PciDev} {caps : List Capability} (h : CapList pi caps) :
    WellFormedCaps pi caps where
  consecutive := h.packed
  aligned := h.aligned
  apart := h.pairwise
  within := fun _ hc => (h.between hc).2.trans h.within
  visits := fun _ hn => h.visits hn
  bytes := fun c hc => ⟨h.toNat_ptr hc, h.bytes c hc⟩

/-- The operands of a config write. -/
structure CfgWrite where
  offset : Nat
  bytes : Nat
  val : U32

section Guest

variable {T : PciMemTree}

/-- A guest write through `pci_cfgrw` to the device at `a`, in the region that holds the
capabilities of `pi`. -/
def CapWriteStep (fuel : Nat) (a : PciAddr) (pi : PciDev) (s : PciBus T) (w : CfgWrite)
    (s' : PciBus T) : Prop :=
  pciEmulIscap pi w.offset = true ∧ pciCfgwrite fuel s a w.offset w.bytes w.val = .ok s'

/-- The heads of the capabilities are as they were in `pi`, and a write in the region finds
the capability that contains its offset, and changes nothing else. -/
structure CapsGuarded (fuel : Nat) (a : PciAddr) (pi : PciDev) (caps : List Capability)
    (s : PciBus T) (pj : PciDev) : Prop where
  devi : s.devi a = some pj
  heads : ∀ c ∈ caps, pj.cfgdata c.off = pi.cfgdata c.off ∧
    pj.cfgdata (c.off + 1) = pi.cfgdata (c.off + 1)
  writes : ∀ offset, pciEmulIscap pi offset = true → ∃ c ∈ caps, c.Has offset ∧
    findCap pj offset fuel (BitVec.ofNat 8 capStartOffset) = .ok c.ptr ∧ c.ptr.toNat ≤ offset ∧
    ∀ bytes val, Ensures AccessorStop
      (fun s' => ∃ pk, s'.devi a = some pk ∧ (∀ i, ¬ c.Has i → pk.cfgdata i = pj.cfgdata i) ∧
        ∀ b, b ≠ a → s'.devi b = s.devi b)
      (pciCfgwrite fuel s a offset bytes val)

variable {pi pj : PciDev} {caps : List Capability} {c : Capability} {fuel : Nat} {a : PciAddr}
  {s s' : PciBus T}

/-- A write of `pci_cfgrw` in the region is passed over, or is one of `pci_emul_capwrite`. -/
theorem CapList.cfgwrite_body (h : CapList pi caps) (hk : CapsKept caps pi pj)
    (hdevi : s.devi a = some pj) (hc : c ∈ caps) {offset : Nat} (hi : c.Has offset)
    (hcap : pciEmulIscap pi offset = true) (hfuel : caps.length ≤ fuel) (bytes : Nat) (val : U32) :
    Ensures AccessorStop
      (fun s' => ∃ pk, s'.devi a = some pk ∧ CapBody (c.off + 2) c.stop pj pk ∧
        ∀ b, b ≠ a → s'.devi b = s.devi b)
      (pciCfgwrite fuel s a offset bytes val) := by
  have hcap' : pciEmulIscap pj offset = true := (hk.iscap offset).trans hcap
  have hlo : capStartOffset ≤ offset := (h.between hc).1.trans hi.1
  have hbar : ¬(pcirBar 0 ≤ offset ∧ offset < pcirBar (pciBarmax + 1)) := by
    rintro ⟨-, hlt⟩
    exact absurd (hlo.trans_lt hlt) (by decide)
  simp only [pciCfgwrite, hdevi]
  split
  next halign =>
    simp only [Bool.and_eq_true] at halign
    rw [pciCfgwriteDev, if_neg hbar, if_pos hcap']
    refine .bind (P := fun r => CapBody (c.off + 2) c.stop pj r.2) ?_ ?_
    · refine .bind (h.capwrite_body hk hc hi halign.1 val hfuel) ?_
      intro pk hbody
      exact .ok hbody
    · intro r hbody
      refine .ok ⟨r.2, by simp, hbody, ?_⟩
      intro b hb
      exact PciBus.setDevi_of_ne _ _ hb
  next => exact .ok ⟨pj, hdevi, .refl _ _ pj, fun _ _ => rfl⟩

theorem CapList.step_kept (h : CapList pi caps) (hfuel : caps.length ≤ fuel) {w : CfgWrite}
    (hk : ∃ pj, s.devi a = some pj ∧ CapsKept caps pi pj) (hstep : CapWriteStep fuel a pi s w s') :
    ∃ pj, s'.devi a = some pj ∧ CapsKept caps pi pj := by
  obtain ⟨pj, hdevi, hk⟩ := hk
  obtain ⟨hcap, hwrite⟩ := hstep
  obtain ⟨c, hc, hi⟩ := h.exists_has hcap
  obtain ⟨pk, hpk, hbody, -⟩ :=
    (h.cfgwrite_body hk hdevi hc hi hcap hfuel w.bytes w.val).of_ok hwrite
  exact ⟨pk, hpk, h.kept_of_body hk hc hbody⟩

theorem CapList.guarded (h : CapList pi caps) (hk : CapsKept caps pi pj)
    (hdevi : s.devi a = some pj) (hfuel : caps.length ≤ fuel) : CapsGuarded fuel a pi caps s pj := by
  refine ⟨hdevi, hk.heads, fun offset hcap => ?_⟩
  obtain ⟨c, hc, hi⟩ := h.exists_has hcap
  refine ⟨c, hc, hi, h.findCap_kept hk hc hi hfuel, ?_, fun bytes val => ?_⟩
  · rw [h.toNat_ptr hc]
    exact hi.1
  · refine (h.cfgwrite_body hk hdevi hc hi hcap hfuel bytes val).mono ?_
    rintro s' ⟨pk, hpk, hbody, hothers⟩
    refine ⟨pk, hpk, fun i hi => hbody.bytes i ?_, hothers⟩
    rw [Capability.Has] at hi
    omega

end Guest

/-- **The capability list stays well formed.** After any calls of
`pci_emul_add_capability` on a fresh device the capabilities of those that found room make up
the list, and a further call finds room or changes nothing. After any guest writes in the
region the heads are as they were. -/
theorem capability_list_well_formed {pi : PciDev} (hfresh : pi.FreshCaps)
    (datas : List (List U8)) (hdatas : ∀ d ∈ datas, 2 ≤ d.length) :
    ∃ pi' oks caps, addCapabilities pi datas = .ok (pi', oks) ∧
      caps.map Capability.data = accepted datas oks ∧ WellFormedCaps pi' caps ∧
      (∀ d, 2 ≤ d.length →
        (pi'.capNext + capLen d ≤ 256 → ∃ pj, pciEmulAddCapability pi' d = .ok (pj, true)) ∧
        (256 < pi'.capNext + capLen d → pciEmulAddCapability pi' d = .ok (pi', false))) ∧
      ∀ (T : PciMemTree) (fuel : Nat) (a : PciAddr) (s s' : PciBus T), caps.length ≤ fuel →
        s.devi a = some pi' → Reaches (CapWriteStep fuel a pi') (· = s) s' →
        ∃ pj, CapsGuarded fuel a pi' caps s' pj := by
  obtain ⟨pi', oks, caps, hcalls, hnew, h, -⟩ :=
    (CapList.of_fresh hfresh).addCapabilities_returns datas hdatas
  rw [List.nil_append] at h
  refine ⟨pi', oks, caps, hcalls, hnew, h.wellFormed, fun d hd => ⟨fun hfits => ?_, fun hfull => ?_⟩,
    ?_⟩
  · obtain ⟨pj, hcall, -⟩ :=
      pciEmulAddCapability_adds hd hfits h.start_le h.capSlot_lt.1 h.capSlot_lt.2
    exact ⟨pj, hcall⟩
  · exact pciEmulAddCapability_full hd hfull
  · intro T fuel a s s' hfuel hdevi hrun
    obtain ⟨pj, hpj, hk⟩ := hrun.invariant (I := fun s => ∃ pj, s.devi a = some pj ∧
      CapsKept caps pi' pj) (by
        rintro s rfl
        exact ⟨pi', hdevi, rfl, rfl, fun _ _ => ⟨rfl, rfl⟩⟩)
      fun s w t hk hstep => h.step_kept hfuel hk hstep
    exact ⟨pj, h.guarded hk hpj hfuel⟩

/-- An MSI capability, a vendor's, and one that no longer fits. -/
def capsData : List (List U8) :=
  [pciPopulateMsicap 2 0, [0x09, 0x00, 0x05, 0x01, 0x02], List.replicate 200 0]

/-- The first device of the bus with them, and which found room. -/
def capsOutcome : PciDev × List Bool :=
  outcome (addCapabilities (pciEmulDevinst e1000Addr) capsData) (pciEmulDevinst e1000Addr, [])

def capsDev : PciDev := capsOutcome.1

/-- The device alone on a bus, and after a write of four bytes over the head of the MSI
capability. -/
def capsBus : PciBus OrderedTree.list :=
  { reg := ⟨initMem _, 0⟩, devi := Function.update (fun _ => none) e1000Addr (some capsDev) }

def capsBusWritten : PciBus OrderedTree.list :=
  outcome (pciCfgwrite 2 capsBus e1000Addr 0x40 4 0x0081ffff) capsBus

theorem capability_list_well_formed_msi :
    addCapabilities (pciEmulDevinst e1000Addr) capsData = .ok (capsDev, [true, true, false]) ∧
      ∃ caps pj, caps.map Capability.data = [pciPopulateMsicap 2 0, [0x09, 0x00, 0x05, 0x01, 0x02]] ∧
        WellFormedCaps capsDev caps ∧ CapsGuarded 2 e1000Addr capsDev caps capsBusWritten pj := by
  have hcalls : addCapabilities (pciEmulDevinst e1000Addr) capsData =
      .ok (capsDev, [true, true, false]) := by
    have hoks : capsOutcome.2 = [true, true, false] := by decide +kernel
    have hreturns : addCapabilities (pciEmulDevinst e1000Addr) capsData = .ok capsOutcome :=
      eq_ok_outcome (by decide +kernel)
    rw [hreturns, ← hoks, capsDev]
  obtain ⟨pi', oks, caps, hcalls', hnew, hwf, -, hrun⟩ :=
    @capability_list_well_formed (pciEmulDevinst e1000Addr) ⟨by decide, by decide⟩ capsData
      (by decide +kernel)
  obtain ⟨rfl, rfl⟩ := Prod.mk.inj (Except.ok.inj (hcalls.symm.trans hcalls'))
  have hcaps : caps.map Capability.data =
      [pciPopulateMsicap 2 0, [0x09, 0x00, 0x05, 0x01, 0x02]] := hnew
  have hlength : caps.length = 2 := by simpa using congrArg List.length hcaps
  have hwrite : pciCfgwrite 2 capsBus e1000Addr 0x40 4 0x0081ffff = .ok capsBusWritten :=
    eq_ok_outcome (by decide +kernel)
  have hreach : Reaches (CapWriteStep 2 e1000Addr capsDev) (· = capsBus) capsBusWritten :=
    @Reaches.next _ _ _ _ _ _ ⟨0x40, 4, 0x0081ffff⟩ (.start rfl) ⟨by decide +kernel, hwrite⟩
  obtain ⟨pj, hpj⟩ := hrun _ 2 e1000Addr capsBus capsBusWritten hlength.le
    (by simp [capsBus]) hreach
  exact ⟨hcalls, caps, pj, hcaps, hwf, hpj⟩

end DeviceModel
