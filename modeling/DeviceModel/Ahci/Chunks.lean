import DeviceModel.Ahci.Buffers
import DeviceModel.Ahci.System

/-!
# A transfer in chunks

A completion that finds `more` set calls the handler again with the `done` that the last
chunk has left. This file follows `done` from 0 on: when every chunk gets further, and
what the chunks make together.
-/

namespace DeviceModel

namespace AhciTransfer

variable {x : AhciTransfer} {c : PortCtx} {done : U32}

/-! ## Getting further -/

/-- The completion of the chunk from `done` on goes on with the one from `next` on. The
memory `m` that the handler finds has the same table. -/
def Continues (x : AhciTransfer) (c : PortCtx) (done : U32) (m : Mem) (next : U32) : Prop :=
  x.regions (c.setMem m) = x.regions c ∧
    ∃ aior breq, x.chunk (c.setMem m) done ⟨0, 0, []⟩ = .ok (aior, breq) ∧ aior.more = true ∧
      aior.done = next

/-- The bytes that chunks of the transfer start from. -/
def Starts (x : AhciTransfer) (c : PortCtx) : U32 → Prop := Reaches (x.Continues c) (· = 0)

/-- `ahci_build_iov` returns, leaves a buffer where it has trimmed, and gets further or has
come to the end. -/
def Progresses (x : AhciTransfer) (c : PortCtx) (done : U32) : Prop :=
  ∃ aior breq, x.chunk c done ⟨0, 0, []⟩ = .ok (aior, breq) ∧
    ((x.walk c done).1.iov.length = blockifIovMax → breq.brIov ≠ []) ∧
    (done.toNat < aior.done.toNat ∨ aior.more = false)

/-- What is left fits into an `int`, and 33 pieces hold at least one sector; or there is no
table. -/
def CanProgress (x : AhciTransfer) (rs : List (List U64)) (sectsz : Nat) (done : U32) : Prop :=
  rs = [] ∨ (x.len.toNat - done.toNat < 2 ^ 31 ∧ CoversSector sectsz (x.pieces rs done))

theorem length_regions (x : AhciTransfer) (c : PortCtx) : (x.regions c).length = x.prdtl :=
  length_prdtRegions _ _ _ _

/-- A chunk of which `left` is negative does nothing. -/
theorem chunk_negative (hle : done.toNat ≤ x.len.toNat) (hint : 2 ^ 31 ≤ x.len.toNat - done.toNat)
    (breq : BlockifReq) :
    ∃ aior breq', x.chunk c done breq = .ok (aior, breq') ∧ aior.done = done ∧
      (aior.more = true ↔ 0 < x.prdtl) ∧ (x.walk c done).1.iov = [] := by
  have hsub : (x.len - done).toNat = x.len.toNat - done.toNat :=
    BitVec.toNat_sub_of_le (BitVec.le_def.2 hle)
  have hwalk : x.walk c done = (⟨[], done, x.len - done, 0⟩, x.prdtl) :=
    ahciIovLoop_negative _ _ _ _ (by rw [hsub]; exact hint)
  have hextra : x.extra c done = 0 := by
    rw [extra, hwalk]
    rfl
  have htodo : x.todo c done = 0 := by
    rw [todo, hextra, hwalk]
    simp
  have hlt : done < x.len := BitVec.lt_def.2 (by omega)
  have hdone : done + 0 = done := BitVec.add_zero done
  rw [chunk_eq, hwalk, htodo, hdone]
  refine ⟨_, _, rfl, rfl, ?_, rfl⟩
  simp [hlt]

theorem progresses_iff (hsectsz : 0 < c.blk.bc.bcSectsz) (hle : done.toNat ≤ x.len.toNat) :
    x.Progresses c done ↔ x.CanProgress (x.regions c) c.blk.bc.bcSectsz done := by
  have hnil : x.regions c = [] ↔ x.prdtl = 0 := by
    rw [← List.length_eq_zero_iff, length_regions]
  by_cases hint : x.len.toNat - done.toNat < 2 ^ 31
  · by_cases hcovers : CoversSector c.blk.bc.bcSectsz (x.pieces (x.regions c) done)
    · refine iff_of_true ?_ (.inr ⟨hint, hcovers⟩)
      obtain ⟨aior, breq, hchunk, his⟩ := x.chunk_ok hsectsz hle hint hcovers ⟨0, 0, []⟩
      refine ⟨aior, breq, hchunk, ?_, ?_⟩
      · rw [(x.counts hle hint).1]
        exact his.nonempty
      · cases hmore : aior.more with
        | false => exact .inr rfl
        | true =>
          have hfull := (his.more hmore).2
          have hcover := hcovers hfull
          have hmod := Nat.mod_lt (x.pieces (x.regions c) done).flatten.length hsectsz
          have hresid := his.resid
          rw [ahciMoved, if_pos hfull] at hresid
          rw [his.moved]
          left
          omega
    · refine iff_of_false ?_ ?_
      · rintro ⟨aior, breq, hchunk, -⟩
        rw [x.chunk_stops hle hint hcovers] at hchunk
        cases hchunk
      · rintro (hno | ⟨-, hyes⟩)
        · -- without a table there is no piece
          refine hcovers fun hfull => ?_
          have hnone := length_ahciPieces_le (x.regions c) done.toNat (x.len.toNat - done.toNat)
          rw [hfull, hno] at hnone
          exact absurd hnone (by decide)
        · exact hcovers hyes
  · obtain ⟨aior, breq, hchunk, hdone, hmore, hiov⟩ :=
      x.chunk_negative (c := c) hle (Nat.not_lt.1 hint) ⟨0, 0, []⟩
    constructor
    · rintro ⟨aior', breq', hchunk', -, hprogress⟩
      rw [hchunk] at hchunk'
      cases hchunk'
      left
      rw [hnil]
      by_contra hpos
      rcases hprogress with hlt | hlast
      · rw [hdone] at hlt
        exact Nat.lt_irrefl _ hlt
      · rw [hmore.2 (Nat.pos_of_ne_zero hpos)] at hlast
        cases hlast
    · rintro (hno | ⟨hyes, -⟩)
      · refine ⟨aior, breq, hchunk, ?_, .inr ?_⟩
        · intro hfull
          rw [hiov] at hfull
          cases hfull
        · rw [← Bool.not_eq_true, hmore, hnil.1 hno]
          exact Nat.lt_irrefl 0
      · exact absurd hyes hint

/-- What goes on is either a chunk of 33 pieces, or one that does nothing. -/
theorem Continues.cases {m : Mem} {next : U32} (hsectsz : 0 < c.blk.bc.bcSectsz)
    (hle : done.toNat ≤ x.len.toNat) (h : x.Continues c done m next) :
    (∃ aior breq, aior.done = next ∧ aior.more = true ∧
      IsChunk x (x.regions c) c.blk.bc.bcSectsz done aior breq) ∨ next = done := by
  obtain ⟨hregions, aior, breq, hchunk, hmore, rfl⟩ := h
  have hsectsz' : 0 < (c.setMem m).blk.bc.bcSectsz := hsectsz
  by_cases hint : x.len.toNat - done.toNat < 2 ^ 31
  · by_cases hcovers : CoversSector (c.setMem m).blk.bc.bcSectsz (x.pieces (x.regions (c.setMem m)) done)
    · obtain ⟨aior', breq', hchunk', his⟩ := x.chunk_ok hsectsz' hle hint hcovers ⟨0, 0, []⟩
      rw [hchunk'] at hchunk
      cases hchunk
      rw [hregions] at his
      exact .inl ⟨aior, breq, rfl, hmore, his⟩
    · rw [x.chunk_stops hle hint hcovers] at hchunk
      cases hchunk
  · obtain ⟨aior', breq', hchunk', hdone, -⟩ :=
      x.chunk_negative (c := c.setMem m) hle (Nat.not_lt.1 hint) ⟨0, 0, []⟩
    rw [hchunk'] at hchunk
    cases hchunk
    exact .inr hdone

/-- A chunk starts within the transfer, and at a sector. -/
theorem Starts.bounds (hsectsz : 0 < c.blk.bc.bcSectsz) (h : x.Starts c done) :
    done.toNat ≤ x.len.toNat ∧ c.blk.bc.bcSectsz ∣ done.toNat := by
  refine h.invariant (I := fun done => done.toNat ≤ x.len.toNat ∧ c.blk.bc.bcSectsz ∣ done.toNat)
    ?_ ?_
  · rintro done rfl
    exact ⟨Nat.zero_le _, Nat.dvd_zero _⟩
  · rintro done m next ⟨hle, hdvd⟩ hstep
    rcases hstep.cases hsectsz hle with ⟨aior, breq, rfl, hmore, his⟩ | rfl
    · refine ⟨his.le, ?_⟩
      rw [his.moved, his.resid, ahciMoved, if_pos (his.more hmore).2]
      exact Nat.dvd_add hdvd (Nat.dvd_sub_mod _)
    · exact ⟨hle, hdvd⟩

/-! ## The run -/

/-- The chunks of a transfer from `done` on: what goes into the request structure of each. Chunk
`k` finds memory `M k`. -/
def run (x : AhciTransfer) (c : PortCtx) :
    Nat → (Nat → Mem) → U32 → Except Stop (List (AhciIoreq × BlockifReq))
  | 0, _, _ => .error .outOfFuel
  | fuel + 1, M, done => do
    let r ← x.chunk (c.setMem (M 0)) done ⟨0, 0, []⟩
    if r.1.more then
      let rest ← run x c fuel (fun k => M (k + 1)) r.1.done
      .ok (r :: rest)
    else .ok [r]

/-- The table stays as it is. -/
def TableKept (x : AhciTransfer) (c : PortCtx) (M : Nat → Mem) : Prop :=
  ∀ k, x.regions (c.setMem (M k)) = x.regions c

theorem run_last {M : Nat → Mem} {r : AhciIoreq × BlockifReq} (fuel : Nat)
    (hchunk : x.chunk (c.setMem (M 0)) done ⟨0, 0, []⟩ = .ok r) (hmore : r.1.more = false) :
    x.run c (fuel + 1) M done = .ok [r] := by
  rw [run, Except.bind_ok hchunk, if_neg (Bool.eq_false_iff.1 hmore)]

theorem run_next {M : Nat → Mem} {r : AhciIoreq × BlockifReq} (fuel : Nat)
    (hchunk : x.chunk (c.setMem (M 0)) done ⟨0, 0, []⟩ = .ok r) (hmore : r.1.more = true) :
    x.run c (fuel + 1) M done =
      (x.run c fuel (fun k => M (k + 1)) r.1.done >>= fun rest => .ok (r :: rest)) := by
  rw [run, Except.bind_ok hchunk, if_pos hmore]

/-- **Where every chunk progresses the transfer ends.** -/
theorem run_ends (hkept : ∀ done, x.Starts c done → ∀ m, x.regions (c.setMem m) = x.regions c →
      x.Progresses (c.setMem m) done) :
    ∀ (n : Nat) (done : U32) (M : Nat → Mem), 2 ^ 32 - done.toNat ≤ n → x.Starts c done →
      x.TableKept c M → ∃ l, x.run c n M done = .ok l := by
  intro n
  induction n with
  | zero =>
    intro done M hn _ _
    have hlt := done.isLt
    omega
  | succ n ih =>
    intro done M hn hstart hM
    obtain ⟨aior, breq, hchunk, -, hprogress⟩ := hkept done hstart (M 0) (hM 0)
    cases hmore : aior.more with
    | false => exact ⟨_, run_last n hchunk hmore⟩
    | true =>
      have hgrows : done.toNat < aior.done.toNat := by
        rcases hprogress with hgrows | hlast
        · exact hgrows
        · rw [hmore] at hlast
          cases hlast
      have hnext : x.Starts c aior.done :=
        .next hstart (l := M 0) ⟨hM 0, aior, breq, hchunk, hmore, rfl⟩
      obtain ⟨l, hl⟩ := ih aior.done (fun k => M (k + 1)) (by omega) hnext fun k => hM (k + 1)
      refine ⟨(aior, breq) :: l, ?_⟩
      rw [run_next n hchunk hmore, hl]
      rfl

/-! ## What the chunks make together -/

/-- The chunks from `done` on follow one another up to `total`: each moves whole sectors, as many
bytes as its buffers hold, and its place on the disk is where the last one has ended. -/
def Consecutive (off : U64) (sectsz : Nat) : U32 → List (AhciIoreq × BlockifReq) → U32 → Prop
  | done, [], total => done = total
  | done, (aior, breq) :: rest, total =>
    breq.brOffset = off + done.setWidth 64 ∧ sectsz ∣ breq.brResid ∧
      (breq.brIov.map (·.iovLen)).sum = breq.brResid ∧
      aior.done.toNat = done.toNat + breq.brResid ∧ Consecutive off sectsz aior.done rest total

/-- The addresses that the buffers of the chunks name. -/
def chunkAddrs (l : List (AhciIoreq × BlockifReq)) : List U64 :=
  l.flatMap fun r => r.2.brIov.flatMap Iovec.addrs

/-- The chunks are one flat transfer of `len` bytes. -/
def Flat (x : AhciTransfer) (c : PortCtx) (M : Nat → Mem) : Prop :=
  ∃ fuel l, x.run c fuel M 0 = .ok l ∧ chunkAddrs l = (x.regions c).flatten.take x.len.toNat ∧
    Consecutive x.off c.blk.bc.bcSectsz 0 l x.len

/-- On a table that is long enough a chunk moves whole sectors, and the last one ends the
transfer. -/
theorem isChunk_whole {aior : AhciIoreq} {breq : BlockifReq} {rs : List (List U64)} {sectsz : Nat}
    (h : IsChunk x rs sectsz done aior breq) (hle : done.toNat ≤ x.len.toNat)
    (hlen : sectsz ∣ x.len.toNat) (htotal : x.len.toNat ≤ rs.flatten.length)
    (hdvd : sectsz ∣ done.toNat) :
    sectsz ∣ breq.brResid ∧ (aior.more = false → aior.done.toNat = x.len.toNat) := by
  have hbound := (x.flatten_pieces rs done).2
  have hleft : sectsz ∣ x.len.toNat - done.toNat := Nat.dvd_sub hlen hdvd
  -- pieces that hold all that is left hold whole sectors
  have hall : (x.pieces rs done).flatten.length = x.len.toNat - done.toNat →
      breq.brResid = x.len.toNat - done.toNat := by
    intro hall
    rw [h.resid, ahciMoved, hall, Nat.mod_eq_zero_of_dvd hleft]
    split <;> rfl
  have hlast : aior.more = false → aior.done.toNat = x.len.toNat := by
    intro hmore
    rcases h.last hmore with hend | htable
    · exact hend
    · have hlong := congrArg List.length htable
      rw [List.length_take, List.length_drop, Nat.min_eq_left (by omega)] at hlong
      have hresid := hall hlong
      have hmoved := h.moved
      omega
  refine ⟨?_, hlast⟩
  cases hmore : aior.more with
  | true =>
    rw [h.resid, ahciMoved, if_pos (h.more hmore).2]
    exact Nat.dvd_sub_mod _
  | false =>
    have hend := hlast hmore
    have hmoved := h.moved
    have hresid : breq.brResid = x.len.toNat - done.toNat := by omega
    rwa [hresid]

/-- Each chunk covers a sector where it has 33 pieces. -/
def Covers (x : AhciTransfer) (c : PortCtx) : Prop :=
  ∀ done, x.Starts c done → CoversSector c.blk.bc.bcSectsz (x.pieces (x.regions c) done)

/-- Entries of whole sectors hold a sector wherever one is left. -/
theorem covers_of_dvd (hsectsz : 0 < c.blk.bc.bcSectsz) (hlen : c.blk.bc.bcSectsz ∣ x.len.toNat)
    (h : ∀ r ∈ x.regions c, c.blk.bc.bcSectsz ∣ r.length) : x.Covers c := by
  intro done hstart hfull
  have hdone := (hstart.bounds hsectsz).2
  have hleft : c.blk.bc.bcSectsz ∣ x.len.toNat - done.toNat := Nat.dvd_sub hlen hdone
  have hdvd := dvd_skipElems hdone h
  have hne := skipElems_ne_nil (n := done.toNat) (x.regions_ne_nil (c := c))
  rw [pieces, ahciPieces] at hfull ⊢
  cases hskip : skipElems done.toNat (x.regions c) with
  | nil =>
    rw [hskip] at hfull
    cases hfull
  | cons r rs =>
    rw [hskip] at hfull hdvd hne
    rw [cutElems] at hfull ⊢
    split at hfull
    · cases hfull
    · next hmore =>
      have hpos := List.length_pos_iff.2 (hne r List.mem_cons_self)
      have hpiece := Nat.le_min.2 ⟨Nat.le_of_dvd (Nat.pos_of_ne_zero hmore) hleft,
        Nat.le_of_dvd hpos (hdvd r List.mem_cons_self)⟩
      rw [if_neg hmore, blockifIovMax, List.take_succ_cons, List.flatten_cons, List.length_append,
        List.length_take]
      exact Nat.le_trans hpiece (Nat.le_add_right _ _)

section

variable (hsectsz : 0 < c.blk.bc.bcSectsz) (hint : x.len.toNat < 2 ^ 31) (hcovers : x.Covers c)
include hsectsz hint hcovers

/-- A chunk of the run. -/
theorem Starts.chunk (hstart : x.Starts c done) {m : Mem}
    (hm : x.regions (c.setMem m) = x.regions c) :
    ∃ aior breq, x.chunk (c.setMem m) done ⟨0, 0, []⟩ = .ok (aior, breq) ∧
      IsChunk x (x.regions c) c.blk.bc.bcSectsz done aior breq := by
  have hle := (hstart.bounds hsectsz).1
  have hcover := hcovers done hstart
  rw [← hm] at hcover
  obtain ⟨aior, breq, hchunk, his⟩ := x.chunk_ok (c := c.setMem m) hsectsz hle (by omega) hcover
    ⟨0, 0, []⟩
  rw [hm] at his
  exact ⟨aior, breq, hchunk, his⟩

/-- The chunks from `done` on are the rest of the transfer. -/
theorem run_flat (hlen : c.blk.bc.bcSectsz ∣ x.len.toNat)
    (htotal : x.len.toNat ≤ (x.regions c).flatten.length) :
    ∀ (fuel : Nat) (done : U32) (M : Nat → Mem) (l : List (AhciIoreq × BlockifReq)),
      x.Starts c done → x.TableKept c M → x.run c fuel M done = .ok l →
      chunkAddrs l = ((x.regions c).flatten.drop done.toNat).take (x.len.toNat - done.toNat) ∧
      Consecutive x.off c.blk.bc.bcSectsz done l x.len := by
  intro fuel
  induction fuel with
  | zero => exact fun _ _ _ _ _ h => (nomatch h)
  | succ fuel ih =>
    intro done M l hstart hM hrun
    obtain ⟨aior, breq, hchunk, his⟩ := hstart.chunk hsectsz hint hcovers (hM 0)
    obtain ⟨hle, hdvd⟩ := hstart.bounds hsectsz
    obtain ⟨hwhole, hend⟩ := isChunk_whole his hle hlen htotal hdvd
    have hmoved := his.moved
    have hbound := his.le
    cases hmore : aior.more with
    | false =>
      rw [run_last fuel hchunk hmore] at hrun
      cases hrun
      have hdone := hend hmore
      refine ⟨?_, his.offset, hwhole, his.sum, hmoved, BitVec.eq_of_toNat_eq hdone⟩
      rw [chunkAddrs, List.flatMap_singleton, his.addrs]
      exact congrArg (List.take · _) (by omega)
    | true =>
      rw [run_next fuel hchunk hmore] at hrun
      obtain ⟨rest, hrest, hcons⟩ := Except.bind_eq_ok.1 hrun
      cases hcons
      have hnext : x.Starts c aior.done :=
        .next hstart (l := M 0) ⟨hM 0, aior, breq, hchunk, hmore, rfl⟩
      obtain ⟨haddrs, hconsec⟩ := ih aior.done _ rest hnext (fun k => hM (k + 1)) hrest
      refine ⟨?_, his.offset, hwhole, his.sum, hmoved, hconsec⟩
      have hsplit : x.len.toNat - done.toNat = breq.brResid + (x.len.toNat - aior.done.toNat) := by
        omega
      have hfront : chunkAddrs ((aior, breq) :: rest) =
          breq.brIov.flatMap Iovec.addrs ++ chunkAddrs rest := List.flatMap_cons
      rw [hfront, his.addrs, haddrs, hsplit, List.take_add, List.drop_drop, hmoved]

end

/-- A transfer whose length does not fit into an `int` stays where it starts. -/
theorem Starts.eq_zero (hint : 2 ^ 31 ≤ x.len.toNat) (h : x.Starts c done) : done = 0 := by
  have hzero : (0 : U32).toNat = 0 := rfl
  refine h.invariant (I := (· = 0)) (fun _ h => h) ?_
  rintro done m next rfl ⟨-, aior, breq, hchunk, -, rfl⟩
  have hle : (0 : U32).toNat ≤ x.len.toNat := Nat.zero_le _
  obtain ⟨aior', breq', hchunk', hdone, -⟩ :=
    x.chunk_negative (c := c.setMem m) hle (by rw [hzero]; exact hint) ⟨0, 0, []⟩
  rw [hchunk'] at hchunk
  cases hchunk
  exact hdone

/-- It never gets anywhere. -/
theorem run_endless (hint : 2 ^ 31 ≤ x.len.toNat) (hprdtl : 0 < x.prdtl) :
    ∀ (fuel : Nat) (M : Nat → Mem), x.run c fuel M 0 = .error .outOfFuel := by
  intro fuel
  induction fuel with
  | zero => exact fun _ => rfl
  | succ fuel ih =>
    intro M
    have hzero : (0 : U32).toNat = 0 := rfl
    have hle : (0 : U32).toNat ≤ x.len.toNat := Nat.zero_le _
    obtain ⟨aior, breq, hchunk, hdone, hmore, -⟩ :=
      x.chunk_negative (c := c.setMem (M 0)) hle (by rw [hzero]; exact hint) ⟨0, 0, []⟩
    rw [run_next fuel hchunk (hmore.2 hprdtl)]
    simp only [hdone, ih]
    rfl

end AhciTransfer

open AhciTransfer

/-- **Scatter-gather progresses**, and the transfer ends, if and only if each of its chunks finds
that what is left fits into an `int` and that 33 pieces hold a sector, or there is no table. -/
theorem scatter_gather_progress_iff (x : AhciTransfer) (c : PortCtx)
    (hsectsz : 0 < c.blk.bc.bcSectsz) :
    ((∀ done, x.Starts c done → ∀ m, x.regions (c.setMem m) = x.regions c →
        x.Progresses (c.setMem m) done) ∧
      ∀ M, x.TableKept c M → ∃ fuel l, x.run c fuel M 0 = .ok l) ↔
    ∀ done, x.Starts c done → x.CanProgress (x.regions c) c.blk.bc.bcSectsz done := by
  have hiff : ∀ {done : U32}, x.Starts c done → ∀ m, x.regions (c.setMem m) = x.regions c →
      (x.Progresses (c.setMem m) done ↔ x.CanProgress (x.regions c) c.blk.bc.bcSectsz done) := by
    intro done hstart m hm
    have hle := (hstart.bounds hsectsz).1
    rw [← hm]
    exact progresses_iff (c := c.setMem m) hsectsz hle
  constructor
  · rintro ⟨hprogress, -⟩ done hstart
    exact (hiff hstart c.mem rfl).1 (hprogress done hstart c.mem rfl)
  · intro hcan
    have hprogress : ∀ done, x.Starts c done → ∀ m, x.regions (c.setMem m) = x.regions c →
        x.Progresses (c.setMem m) done := fun done hstart m hm => (hiff hstart m hm).2 (hcan done hstart)
    refine ⟨hprogress, fun M hM => ?_⟩
    obtain ⟨l, hl⟩ := run_ends hprogress _ 0 M (Nat.le_refl _) (.start rfl) hM
    exact ⟨_, l, hl⟩

/-- A port whose memory holds a READ DMA EXT of one sector at 0x1000, with a PRDT of `prdtl`
entries of one byte each. -/
def tinyEntries (prdtl : U8) : PortCtx :=
  ((ahciBlank false).dev.ctx 0).setMem fun a =>
    if a = 2 then prdtl else if a = 0x1002 then 0x25 else if a = 0x100c then 1 else 0

/-- A READ DMA EXT of 34 sectors, with an entry for each of them. -/
def manySectors : PortCtx :=
  ((ahciBlank false).dev.ctx 0).setMem fun a =>
    if a < 0x1080 then
      if a = 2 then 34 else if a = 0x1002 then 0x25 else if a = 0x100c then 34 else 0
    else if a &&& 0xf = 0xc then 0xff else if a &&& 0xf = 0xd then 1 else 0

theorem manySectors_regions {r : List U64}
    (hr : r ∈ (ahciRwTransfer manySectors 0 0x1000).regions manySectors) : r.length = 512 := by
  have hentries : ∀ k < 34, (prdtDbcsz manySectors.mem (0x1080 + BitVec.ofNat 64 (16 * k))).toNat = 512 := by
    decide +kernel
  obtain ⟨k, hk, rfl⟩ := mem_prdtRegions hr
  rw [Mem.length_addrs]
  exact hentries k hk

theorem manySectors_whole : ∀ r ∈ (ahciRwTransfer manySectors 0 0x1000).regions manySectors,
    512 ∣ r.length := fun _ hr => (manySectors_regions hr).symm ▸ Nat.dvd_refl 512

/-- The first chunk takes 33 entries, and the second one the last. -/
theorem scatter_gather_progress_iff_sectors :
    ((∀ done, (ahciRwTransfer manySectors 0 0x1000).Starts manySectors done →
        ∀ m, (ahciRwTransfer manySectors 0 0x1000).regions (manySectors.setMem m) =
            (ahciRwTransfer manySectors 0 0x1000).regions manySectors →
          (ahciRwTransfer manySectors 0 0x1000).Progresses (manySectors.setMem m) done) ∧
      ∀ M, (ahciRwTransfer manySectors 0 0x1000).TableKept manySectors M →
        ∃ fuel l, (ahciRwTransfer manySectors 0 0x1000).run manySectors fuel M 0 = .ok l) ∧
    (ahciRwTransfer manySectors 0 0x1000).Starts manySectors 0x4200 := by
  have hcovers : (ahciRwTransfer manySectors 0 0x1000).Covers manySectors :=
    covers_of_dvd (by decide) (by decide) manySectors_whole
  refine ⟨(scatter_gather_progress_iff (ahciRwTransfer manySectors 0 0x1000) manySectors
    (by decide)).2 fun done hstart => .inr ⟨?_, hcovers done hstart⟩, ?_⟩
  · have hlen : (ahciRwTransfer manySectors 0 0x1000).len.toNat < 2 ^ 31 := by decide
    omega
  · have hchunk : ((ahciRwTransfer manySectors 0 0x1000).chunk manySectors 0 ⟨0, 0, []⟩).map
        (fun r => (r.1.more, r.1.done)) = .ok (true, 0x4200) := by
      decide +kernel
    cases hr : (ahciRwTransfer manySectors 0 0x1000).chunk manySectors 0 ⟨0, 0, []⟩ with
    | error e =>
      rw [hr] at hchunk
      cases hchunk
    | ok r =>
      rw [hr] at hchunk
      obtain ⟨hmore, hdone⟩ := Prod.mk.inj (Except.ok.inj hchunk)
      exact .next (.start rfl) ⟨rfl, r.1, r.2, hr, hmore, hdone⟩

/-- 33 entries of one byte fail the assertion. -/
theorem scatter_gather_stuck :
    ¬ ∀ (c : PortCtx) (slot : Slot) (cfis : U64), 0 < c.blk.bc.bcSectsz →
      (∀ done, (ahciRwTransfer c slot cfis).Starts c done →
        ∀ m, (ahciRwTransfer c slot cfis).regions (c.setMem m) =
            (ahciRwTransfer c slot cfis).regions c →
          (ahciRwTransfer c slot cfis).Progresses (c.setMem m) done) ∧
      ∀ M, (ahciRwTransfer c slot cfis).TableKept c M →
        ∃ fuel l, (ahciRwTransfer c slot cfis).run c fuel M 0 = .ok l := by
  intro h
  obtain ⟨aior, breq, hchunk, -⟩ :=
    (h (tinyEntries 33) 0 0x1000 (by decide)).1 0 (.start rfl) (tinyEntries 33).mem rfl
  have hstops : (ahciRwTransfer (tinyEntries 33) 0 0x1000).chunk (tinyEntries 33) 0 ⟨0, 0, []⟩ =
      .error (.assertion "todo > 0") :=
    chunk_stops (by decide) (by decide) (by decide) ⟨0, 0, []⟩
  have hsame : (tinyEntries 33).setMem (tinyEntries 33).mem = tinyEntries 33 := rfl
  rw [hsame, hstops] at hchunk
  cases hchunk

/-- **Chunks make one flat transfer.** On a table that is long enough, and where 33 pieces always
hold a sector, the chunks of a transfer of whole sectors name the first `len` bytes of the regions,
each once and in order, if and only if `len` fits into an `int`. -/
theorem chunked_transfer_flat_iff (x : AhciTransfer) (c : PortCtx) {M : Nat → Mem}
    (hsectsz : 0 < c.blk.bc.bcSectsz) (htable : x.TableKept c M)
    (hlen : c.blk.bc.bcSectsz ∣ x.len.toNat)
    (htotal : x.len.toNat ≤ (x.regions c).flatten.length) (hcovers : x.Covers c) :
    x.Flat c M ↔ x.len.toNat < 2 ^ 31 := by
  constructor
  · rintro ⟨fuel, l, hrun, -, -⟩
    by_contra hint
    have hprdtl : 0 < x.prdtl := by
      rw [← x.length_regions c]
      by_contra hzero
      rw [List.length_eq_zero_iff.1 (Nat.eq_zero_of_not_pos hzero)] at htotal
      simp only [List.flatten_nil, List.length_nil] at htotal
      omega
    rw [run_endless (Nat.not_lt.1 hint) hprdtl] at hrun
    cases hrun
  · intro hint
    have hprogress : ∀ done, x.Starts c done → ∀ m, x.regions (c.setMem m) = x.regions c →
        x.Progresses (c.setMem m) done := by
      intro done hstart m hm
      have hle := (hstart.bounds hsectsz).1
      refine (progresses_iff (c := c.setMem m) hsectsz hle).2 (.inr ⟨by omega, ?_⟩)
      rw [hm]
      exact hcovers done hstart
    obtain ⟨l, hl⟩ := run_ends hprogress _ 0 M (Nat.le_refl _) (.start rfl) htable
    obtain ⟨haddrs, hconsec⟩ := run_flat hsectsz hint hcovers hlen htotal _ 0 M l (.start rfl) htable hl
    exact ⟨_, l, hl, haddrs, hconsec⟩

/-- The 34 sectors in two chunks. -/
theorem chunked_transfer_flat_iff_sectors :
    (ahciRwTransfer manySectors 0 0x1000).Flat manySectors fun _ => manySectors.mem := by
  refine (chunked_transfer_flat_iff (ahciRwTransfer manySectors 0 0x1000) manySectors (by decide)
    (fun _ => rfl) (by decide) ?_ (covers_of_dvd (by decide) (by decide) manySectors_whole)).2 (by decide)
  have hlen : ((ahciRwTransfer manySectors 0 0x1000).regions manySectors).length = 34 :=
    length_regions _ _
  have hlens : ((ahciRwTransfer manySectors 0 0x1000).regions manySectors).map List.length =
      List.replicate 34 512 := by
    rw [← hlen, List.eq_replicate_iff, List.length_map]
    refine ⟨rfl, fun n hn => ?_⟩
    obtain ⟨r, hr, rfl⟩ := List.mem_map.1 hn
    exact manySectors_regions hr
  rw [List.length_flatten, hlens]
  decide

theorem prdtDbcsz_large (prdt : U64) : (prdtDbcsz (fun _ => 0xff) prdt).toNat = 0x400000 := by
  have hdbcsz : (((0xff#8 ++ 0xff#8 ++ 0xff#8 ++ 0xff#8 : U32) &&& 0x3fffff#32) + 1).toNat =
      0x400000 := by decide
  exact hdbcsz

/-- A table of the largest entries. -/
theorem length_largeRegions (ctx : Vmctx) (n : Nat) (prdt : U64) :
    (prdtRegions ctx (fun _ => 0xff) n prdt).flatten.length = n * 0x400000 := by
  induction n generalizing prdt with
  | zero => rfl
  | succ n ih =>
    rw [prdtRegions, List.flatten_cons, List.length_append, Mem.length_addrs, ih, prdtDbcsz_large]
    omega

/-- The first piece of a transfer is in the first region. -/
theorem le_flatten_ahciPieces {r : List U64} (rs : List (List U64)) {left : Nat} (hr : r ≠ [])
    (hleft : left ≠ 0) : min left r.length ≤ (ahciPieces (r :: rs) 0 left).flatten.length := by
  have hpos : ¬ r.length ≤ 0 := fun h => hr (List.length_eq_zero_iff.1 (Nat.le_zero.1 h))
  rw [ahciPieces, skipElems, if_neg hpos, List.drop_zero, cutElems, if_neg hleft, blockifIovMax,
    List.take_succ_cons, List.flatten_cons, List.length_append, List.length_take]
  exact Nat.le_add_right _ _

/-- A READ_12 of 0x100000 sectors, with a table of the largest entries. -/
def largeRead : PortCtx := ((ahciBlank true).dev.ctx 0).setMem fun _ => 0xff

/-- A read of 2 GiB goes on for ever. -/
theorem chunked_transfer_endless :
    ¬ ∀ (x : AhciTransfer) (c : PortCtx) (M : Nat → Mem), 0 < c.blk.bc.bcSectsz →
      x.TableKept c M → c.blk.bc.bcSectsz ∣ x.len.toNat →
      x.len.toNat ≤ (x.regions c).flatten.length → x.Covers c → x.Flat c M := by
  intro h
  have hlen : (atapiReadTransfer largeRead 0 0 0 0x100000).len.toNat = 2 ^ 31 := by decide
  have hprdtl : (atapiReadTransfer largeRead 0 0 0 0x100000).prdtl = 65535 := by decide
  have hsectsz : largeRead.blk.bc.bcSectsz = 512 := by decide
  have htotal : ((atapiReadTransfer largeRead 0 0 0 0x100000).regions largeRead).flatten.length =
      65535 * 0x400000 := by
    rw [← hprdtl]
    exact length_largeRegions _ _ _
  -- the first piece is the first entry, of 4 MiB
  have hcovers : (atapiReadTransfer largeRead 0 0 0 0x100000).Covers largeRead := by
    intro done hstart _
    obtain rfl := hstart.eq_zero (Nat.le_of_eq hlen.symm)
    have hcons : (atapiReadTransfer largeRead 0 0 0 0x100000).regions largeRead =
        Mem.addrs (paddrGuest2host largeRead.sc.vmctx (largeRead.mem.read64 0x80))
            (prdtDbcsz largeRead.mem 0x80).toNat ::
          prdtRegions largeRead.sc.vmctx largeRead.mem 65534 (0x80 + 16) := by
      rw [regions, hprdtl]
      rfl
    have hlarge : (prdtDbcsz largeRead.mem 0x80).toNat = 0x400000 := prdtDbcsz_large 0x80
    have hzero : (0 : U32).toNat = 0 := rfl
    rw [pieces, hcons, hlarge, hlen, hzero, hsectsz]
    refine Nat.le_trans ?_ (le_flatten_ahciPieces _ ?_ (by decide))
    · rw [Mem.length_addrs]
      decide
    · rw [ne_eq, ← List.length_eq_zero_iff, Mem.length_addrs]
      decide
  obtain ⟨fuel, l, hrun, -⟩ := h (atapiReadTransfer largeRead 0 0 0 0x100000) largeRead
    (fun _ => largeRead.mem) (by decide) (fun _ => rfl)
    (by rw [hlen, hsectsz]; decide) (by rw [hlen, htotal]; decide) hcovers
  rw [run_endless (Nat.le_of_eq hlen.symm) (by rw [hprdtl]; decide)] at hrun
  cases hrun

end DeviceModel
