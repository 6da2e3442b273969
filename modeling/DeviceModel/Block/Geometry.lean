import DeviceModel.Block.BlockIf

/-!
# The geometry of a disk

`blockif_chs` makes up cylinders, heads and sectors per track, which `handle_identify`
reports. `blockifChs` computes them with numbers. Here is the function with its variables
at their widths: `heads` is a byte, `*c` takes 16 bits, and a division by zero or a signed
overflow stops it.

The head count of a track of 17 sectors does not fit in the byte on a large disk. It is
kept only where there are fewer than `heads * 1024` tracks for at most 16 heads, and then
it has not been cut off.
-/

namespace DeviceModel

/-! ## The function -/

/-- The variables of `blockif_chs`: `off_t hcyl`, `uint16_t secpt` and `uint8_t heads`. -/
structure ChsVars where
  /-- cylinders times heads -/
  hcyl : Nat
  /-- sectors per track -/
  secpt : U16
  heads : U8
  deriving DecidableEq, Repr

/-- `hcyl = sectors / secpt` after `secpt` and `heads` are set. -/
def chsTracks (sectors : Nat) (secpt : U16) (heads : U8) : Except Stop ChsVars := do
  let hcyl ← divide sectors secpt.toNat
  .ok { hcyl := hcyl, secpt := secpt, heads := heads }

/-- `hcyl >= (heads * 1024)`, where the product is an `int`. -/
def ChsVars.full (v : ChsVars) : Except Stop Bool := do
  let limit ← signed 32 (v.heads.toNat * 1024)
  .ok (decide (limit ≤ v.hcyl))

/-- The head count for tracks of 17 sectors, cut off to a byte. The sum is an `off_t`. -/
def chsHeads (hcyl : Nat) : Except Stop U8 := do
  let sum ← signed 64 (hcyl + 1023)
  let heads : U8 := BitVec.ofNat 8 (sum / 1024)
  .ok (if heads.toNat < 4 then 4 else heads)

/-- `blockif_chs` from the clamped sector count to the stores. -/
def blockifChsVars (sectors : Nat) : Except Stop ChsVars :=
  if 65536 * 16 * 63 ≤ sectors then chsTracks sectors 255 16
  else do
    let secpt : U16 := 17
    let hcyl ← divide sectors secpt.toNat
    let heads ← chsHeads hcyl
    let v : ChsVars := { hcyl := hcyl, secpt := secpt, heads := heads }
    let full ← v.full
    let v ← if full || 16 < v.heads.toNat then chsTracks sectors 31 16 else .ok v
    let full ← v.full
    if full then chsTracks sectors 63 16 else .ok v

/-- `blockif_chs`: what it stores in `*c`, `*h` and `*s`. `bc_magic` is as `blockif_open` has
set it. -/
def blockifChsStores (bc : BlockifCtxt) : Except Stop (U16 × U8 × U8) := do
  let sectors ← divide bc.bcSize bc.bcSectsz
  -- clamp the size to the largest possible with CHS
  let v ← blockifChsVars (min sectors (65535 * 16 * 255))
  let cyl ← divide v.hcyl v.heads.toNat
  .ok (BitVec.ofNat 16 cyl, v.heads, v.secpt.setWidth 8)

/-! ## The choice of a track -/

/-- What heads of tracks of `secpt` sectors come to on a disk of `sectors`. -/
structure ChsChoice (sectors secpt heads : Nat) : Prop where
  few : 4 ≤ heads ∧ heads ≤ 16
  track : secpt = 17 ∨ secpt = 31 ∨ secpt = 63 ∨ secpt = 255
  /-- the cylinders fit in 16 bits -/
  cylinders : sectors / secpt < heads * 2 ^ 16
  /-- the head count is not cut off where it is kept -/
  uncut : secpt = 17 → heads = max 4 ((sectors / 17 + 1023) / 1024)

/-- The head count of `blockifSecptHeads` for tracks of 17 sectors. -/
def headCount (hcyl : Nat) : Nat :=
  if (hcyl + 1023) / 1024 % 256 < 4 then 4 else (hcyl + 1023) / 1024 % 256

theorem blockifSecptHeads_small {sectors : Nat} (hsmall : ¬ 65536 * 16 * 63 ≤ sectors) :
    blockifSecptHeads sectors =
      if sectors / 17 < headCount (sectors / 17) * 1024 ∧ headCount (sectors / 17) ≤ 16 then
        (17, headCount (sectors / 17))
      else if sectors / 31 < 16 * 1024 then (31, 16)
      else (63, 16) := by
  rw [blockifSecptHeads, if_neg hsmall]
  rfl

/-- A head count that is kept has not been cut off: it makes room for all tracks. -/
theorem headCount_uncut {hcyl : Nat} (hroom : hcyl < headCount hcyl * 1024)
    (hfew : headCount hcyl ≤ 16) : headCount hcyl = max 4 ((hcyl + 1023) / 1024) := by
  by_cases hsmall : (hcyl + 1023) / 1024 % 256 < 4
  · rw [headCount, if_pos hsmall] at *
    omega
  · rw [headCount, if_neg hsmall] at *
    omega

theorem four_le_headCount (hcyl : Nat) : 4 ≤ headCount hcyl := by
  rw [headCount]
  split <;> omega

theorem blockifSecptHeads_choice {sectors secpt heads : Nat} (hle : sectors ≤ 65535 * 16 * 255)
    (h : blockifSecptHeads sectors = (secpt, heads)) : ChsChoice sectors secpt heads := by
  by_cases hlarge : 65536 * 16 * 63 ≤ sectors
  · rw [blockifSecptHeads, if_pos hlarge] at h
    obtain ⟨rfl, rfl⟩ := Prod.mk.inj h
    exact ⟨by decide, by decide, by omega, fun hs => absurd hs (by decide)⟩
  · rw [blockifSecptHeads_small hlarge] at h
    have hfour := four_le_headCount (sectors / 17)
    split at h
    · next hkeep =>
      obtain ⟨rfl, rfl⟩ := Prod.mk.inj h
      exact ⟨⟨hfour, hkeep.2⟩, .inl rfl, by omega, fun _ => headCount_uncut hkeep.1 hkeep.2⟩
    · split at h
      · obtain ⟨rfl, rfl⟩ := Prod.mk.inj h
        exact ⟨by decide, by decide, by omega, fun hs => absurd hs (by decide)⟩
      · obtain ⟨rfl, rfl⟩ := Prod.mk.inj h
        exact ⟨by decide, by decide, by omega, fun hs => absurd hs (by decide)⟩

/-! ## The variables -/

theorem chsTracks_eq (sectors : Nat) {secpt : U16} (heads : U8) (h : 0 < secpt.toNat) :
    chsTracks sectors secpt heads = .ok ⟨sectors / secpt.toNat, secpt, heads⟩ :=
  Except.bind_ok (divide_of_pos sectors h)

/-- The product does not overflow. -/
theorem ChsVars.full_eq (v : ChsVars) :
    v.full = .ok (decide (v.heads.toNat * 1024 ≤ v.hcyl)) := by
  have hheads := v.heads.isLt
  exact Except.bind_ok (signed_of_lt (by omega))

/-- Nor does the sum. -/
theorem chsHeads_eq {hcyl : Nat} (h : hcyl + 1023 < 2 ^ 63) :
    ∃ heads : U8, chsHeads hcyl = .ok heads ∧ heads.toNat = headCount hcyl := by
  refine ⟨_, Except.bind_ok (signed_of_lt h), ?_⟩
  rw [headCount, BitVec.toNat_ofNat]
  split
  · rfl
  · exact BitVec.toNat_ofNat ..

theorem blockifChsVars_small {sectors : Nat} (hsmall : ¬ 65536 * 16 * 63 ≤ sectors) :
    ∃ heads : U8, heads.toNat = headCount (sectors / 17) ∧ blockifChsVars sectors =
      if sectors / 17 < heads.toNat * 1024 ∧ heads.toNat ≤ 16 then .ok ⟨sectors / 17, 17, heads⟩
      else if sectors / 31 < 16 * 1024 then .ok ⟨sectors / 31, 31, 16⟩
      else .ok ⟨sectors / 63, 63, 16⟩ := by
  have h17 : divide sectors (17 : U16).toNat = .ok (sectors / 17) :=
    divide_of_pos sectors (by decide)
  have h31 : chsTracks sectors 31 16 = .ok ⟨sectors / 31, 31, 16⟩ :=
    chsTracks_eq sectors 16 (by decide)
  have h63 : chsTracks sectors 63 16 = .ok ⟨sectors / 63, 63, 16⟩ :=
    chsTracks_eq sectors 16 (by decide)
  obtain ⟨heads, hheads, hcount⟩ := @chsHeads_eq (sectors / 17) (by omega)
  refine ⟨heads, hcount, ?_⟩
  rw [blockifChsVars, if_neg hsmall]
  dsimp only
  rw [Except.bind_ok h17, Except.bind_ok hheads, Except.bind_ok (ChsVars.full_eq _)]
  by_cases hkeep : sectors / 17 < heads.toNat * 1024 ∧ heads.toNat ≤ 16
  · have hfull : ¬ heads.toNat * 1024 ≤ sectors / 17 := Nat.not_le.2 hkeep.1
    have hmany : ¬ 16 < heads.toNat := Nat.not_lt.2 hkeep.2
    rw [if_pos hkeep, if_neg (by simp [hfull, hmany]), Except.bind_ok rfl,
      Except.bind_ok (ChsVars.full_eq _), if_neg (by simp [hfull])]
  · have hother : heads.toNat * 1024 ≤ sectors / 17 ∨ 16 < heads.toNat := by omega
    rw [if_neg hkeep, if_pos (by simpa using hother), Except.bind_ok h31,
      Except.bind_ok (ChsVars.full_eq _), h63]
    by_cases hfit : sectors / 31 < 16 * 1024
    · rw [if_pos hfit, if_neg]
      simpa using hfit
    · rw [if_neg hfit, if_pos]
      simpa using hfit

/-- The function comes to its stores with what `blockifSecptHeads` chooses. -/
theorem blockifChsVars_eq (sectors : Nat) :
    ∃ v, blockifChsVars sectors = .ok v ∧ v.hcyl = sectors / v.secpt.toNat ∧
      blockifSecptHeads sectors = (v.secpt.toNat, v.heads.toNat) := by
  by_cases hlarge : 65536 * 16 * 63 ≤ sectors
  · rw [blockifChsVars, if_pos hlarge, chsTracks_eq sectors 16 (by decide), blockifSecptHeads,
      if_pos hlarge]
    exact ⟨_, rfl, rfl, rfl⟩
  · obtain ⟨heads, hcount, hvars⟩ := blockifChsVars_small hlarge
    rw [hvars, blockifSecptHeads_small hlarge, ← hcount]
    split
    · exact ⟨_, rfl, rfl, rfl⟩
    · split
      · exact ⟨_, rfl, rfl, rfl⟩
      · exact ⟨_, rfl, rfl, rfl⟩

/-! ## The stores -/

/-- The sectors of the disk, clamped to the largest number possible with CHS. -/
def chsSectors (bc : BlockifCtxt) : Nat := min (bc.bcSize / bc.bcSectsz) (65535 * 16 * 255)

/-- `v` is stored in `c`, `h` and `s` as it is. -/
structure ChsVars.Stored (v : ChsVars) (c : U16) (h s : U8) : Prop where
  cylinders : c.toNat = v.hcyl / v.heads.toNat
  heads : h = v.heads
  secpt : s.toNat = v.secpt.toNat

/-- A geometry with whole cylinders on a disk of `sectors`, and less than one left over. -/
structure ChsFits (sectors : Nat) (c : U16) (h s : U8) : Prop where
  few : 4 ≤ h.toNat ∧ h.toNat ≤ 16
  track : s.toNat = 17 ∨ s.toNat = 31 ∨ s.toNat = 63 ∨ s.toNat = 255
  inside : c.toNat * h.toNat * s.toNat ≤ sectors
  rest : sectors < c.toNat * h.toNat * s.toNat + h.toNat * s.toNat

theorem div_div_bounds (n : Nat) {h s : Nat} (hh : 0 < h) (hs : 0 < s) :
    n / s / h * h * s ≤ n ∧ n < n / s / h * h * s + h * s := by
  rw [Nat.div_div_eq_div_mul, Nat.mul_assoc, Nat.mul_comm h s]
  exact ⟨Nat.div_mul_le_self n (s * h), Nat.lt_div_mul_add (Nat.mul_pos hs hh)⟩

/-- The stores lose nothing, and they are what `blockifChs` computes. -/
theorem blockifChsStores_spec {bc : BlockifCtxt} (hsectsz : 1 ≤ bc.bcSectsz) :
    ∃ v c h s, blockifChsVars (chsSectors bc) = .ok v ∧
      blockifChsStores bc = .ok (c, h, s) ∧ v.Stored c h s ∧
      v.hcyl = chsSectors bc / s.toNat ∧
      ChsChoice (chsSectors bc) s.toNat h.toNat ∧
      blockifChs bc = (c.toNat, h.toNat, s.toNat) := by
  obtain ⟨v, hv, hhcyl, hpair⟩ := blockifChsVars_eq (chsSectors bc)
  have hchoice := blockifSecptHeads_choice (Nat.min_le_right _ _) hpair
  have hheads : 0 < v.heads.toNat := Nat.lt_of_lt_of_le (by decide) hchoice.few.1
  have hcyl : (BitVec.ofNat 16 (v.hcyl / v.heads.toNat)).toNat = v.hcyl / v.heads.toNat := by
    rw [BitVec.toNat_ofNat, hhcyl]
    exact Nat.mod_eq_of_lt (Nat.div_lt_of_lt_mul hchoice.cylinders)
  have hsecpt : (v.secpt.setWidth 8).toNat = v.secpt.toNat := by
    have htrack := hchoice.track
    rw [BitVec.toNat_setWidth]
    omega
  refine ⟨v, _, _, _, hv, ?_, ⟨hcyl, rfl, hsecpt⟩, hsecpt ▸ hhcyl, hsecpt ▸ hchoice, ?_⟩
  · rw [blockifChsStores, Except.bind_ok (divide_of_pos bc.bcSize hsectsz), ← chsSectors,
      Except.bind_ok hv, Except.bind_ok (divide_of_pos v.hcyl hheads)]
  · rw [blockifChs, ← chsSectors, hpair, hcyl, hsecpt, hhcyl]

/-- **Geometry.** On a disk of any size and with sectors of any size from 1 on,
`blockif_chs` returns. It divides by no zero and no signed result overflows, a head count
for tracks of 17 sectors is not cut off where it is kept, the stores lose nothing, and what
they make up is the clamped disk but for less than a cylinder. -/
theorem blockif_chs_fits (bc : BlockifCtxt) (hsectsz : 1 ≤ bc.bcSectsz) :
    ∃ v c h s, blockifChsVars (chsSectors bc) = .ok v ∧
      blockifChsStores bc = .ok (c, h, s) ∧ v.Stored c h s ∧
      (v.secpt = 17 → v.heads.toNat = max 4 ((v.hcyl + 1023) / 1024)) ∧
      ChsFits (chsSectors bc) c h s := by
  obtain ⟨v, c, h, s, hv, hstores, hstored, hhcyl, hchoice, -⟩ := blockifChsStores_spec hsectsz
  have hheads : 0 < h.toNat := Nat.lt_of_lt_of_le (by decide) hchoice.few.1
  have hsecpt : 0 < s.toNat := by
    have htrack := hchoice.track
    omega
  have hcyl := hstored.cylinders
  rw [← hstored.heads, hhcyl] at hcyl
  obtain ⟨hinside, hrest⟩ := div_div_bounds (chsSectors bc) hheads hsecpt
  rw [← hcyl] at hinside hrest
  refine ⟨v, c, h, s, hv, hstores, hstored, fun h17 => ?_, hchoice.few, hchoice.track, hinside,
    hrest⟩
  have hs17 : s.toNat = 17 := by
    rw [hstored.secpt, h17]
    rfl
  rw [← hstored.heads, hhcyl, hs17]
  exact hchoice.uncut hs17

/-- On a disk of 4578321 sectors the head count for tracks of 17 is 264, which is 8 in a
byte. -/
theorem blockif_chs_fits_cut :
    ∃ v c h s, blockifChsVars 4578321 = .ok v ∧
      blockifChsStores { blockifOpen 0 with bcSize := 4578321 * 512 } = .ok (c, h, s) ∧
      v.Stored c h s ∧ (v.secpt = 17 → v.heads.toNat = max 4 ((v.hcyl + 1023) / 1024)) ∧
      ChsFits 4578321 c h s :=
  blockif_chs_fits { blockifOpen 0 with bcSize := 4578321 * 512 } (by decide)

end DeviceModel
