import DeviceModel.Ahci.Buffers
import DeviceModel.Ahci.System

/-!
# Copies to and from a PRDT

`write_prdt` and `read_prdt` walk the PRDT of a command and copy between its regions and a
buffer. With the regions one after another as a list of addresses, the first is `scatter`
and the second reads a prefix of the list.

* `writePrdtLoop_eq`, `readPrdtLoop_eq` — the loops;
* `PrdtApart` — the regions are apart from one another, from the table and from the header,
  which both functions read as they go.
-/

namespace DeviceModel

/-! ## Words in memory -/

namespace Mem

variable {m m' : Mem} {a x : U64} {n : Nat}

theorem mem_addrs : x ∈ addrs a n ↔ ∃ i < n, x = a + BitVec.ofNat 64 i := by
  simp [addrs, eq_comm]

theorem writeBytes_eq_scatter (m : Mem) (a : U64) (vs : List U8) :
    m.writeBytes a vs = scatter m (addrs a vs.length) vs := by
  induction vs generalizing m a with
  | nil => simp [writeBytes]
  | cons v vs ih =>
    have hwrite : m.write8 a v = Function.update m a v := by
      funext x
      rw [write8, Function.update_apply]
    rw [writeBytes, ih, List.length_cons, addrs_succ, scatter, hwrite]

/-- A store of as much of a list as there is room for. -/
theorem writeBytes_take (m : Mem) (a : U64) (n : Nat) (vs : List U8) :
    m.writeBytes a (vs.take (min vs.length n)) = scatter m (addrs a n) vs := by
  have htake : (addrs a n).take vs.length = addrs a (min vs.length n) := take_addrs a n vs.length
  have hvs : vs.take (min vs.length n) = vs.take n := by
    rw [Nat.min_comm, ← List.take_take, List.take_length]
  rw [writeBytes_eq_scatter, List.length_take, Nat.min_eq_left (Nat.min_le_left _ _), ← htake, hvs,
    ← scatter_take m (addrs a n), length_addrs]

/-- A word depends on its own bytes. -/
theorem read16_congr (h : ∀ x ∈ addrs a 2, m' x = m x) : m'.read16 a = m.read16 a := by
  have hbyte : ∀ i < 2, m' (a + BitVec.ofNat 64 i) = m (a + BitVec.ofNat 64 i) :=
    fun i hi => h _ (mem_addrs.2 ⟨i, hi, rfl⟩)
  have hzero := hbyte 0 (by simp)
  rw [BitVec.add_zero] at hzero
  exact congr_arg₂ (· ++ ·) (hbyte 1 (by simp)) hzero

theorem read32_congr (h : ∀ x ∈ addrs a 4, m' x = m x) : m'.read32 a = m.read32 a := by
  have hbyte : ∀ i < 4, m' (a + BitVec.ofNat 64 i) = m (a + BitVec.ofNat 64 i) :=
    fun i hi => h _ (mem_addrs.2 ⟨i, hi, rfl⟩)
  have hzero := hbyte 0 (by simp)
  rw [BitVec.add_zero] at hzero
  have hone : m' (a + 1) = m (a + 1) := hbyte 1 (by simp)
  have htwo : m' (a + 2) = m (a + 2) := hbyte 2 (by simp)
  have hthree : m' (a + 3) = m (a + 3) := hbyte 3 (by simp)
  rw [read32, read32, hzero, hone, htwo, hthree]

theorem read64_congr (h : ∀ x ∈ addrs a 8, m' x = m x) : m'.read64 a = m.read64 a := by
  rw [addrs_add a 4 4] at h
  have hlo : m'.read32 a = m.read32 a := read32_congr fun x hx => h x (List.mem_append_left _ hx)
  have hhi : m'.read32 (a + 4) = m.read32 (a + 4) :=
    read32_congr fun x hx => h x (List.mem_append_right _ hx)
  rw [read64, read64, hlo, hhi]

/-- A word that has been stored reads back. -/
theorem read32_write32 (m : Mem) (a : U64) (v : U32) : (m.write32 a v).read32 a = v := by
  have hread := readBytes_writeBytes [v.extractLsb' 0 8, v.extractLsb' 8 8, v.extractLsb' 16 8,
    v.extractLsb' 24 8] m a (by simp)
  rw [← write32] at hread
  simp only [readBytes, List.length_cons, List.length_nil, List.range_succ, List.range_zero,
    List.nil_append, List.cons_append, List.map_cons, List.map_nil, List.cons.injEq] at hread
  obtain ⟨hzero, hone, htwo, hthree, -⟩ := hread
  rw [BitVec.add_zero] at hzero
  have hone : m.write32 a v (a + 1) = v.extractLsb' 8 8 := hone
  have htwo : m.write32 a v (a + 2) = v.extractLsb' 16 8 := htwo
  have hthree : m.write32 a v (a + 3) = v.extractLsb' 24 8 := hthree
  have hhigh : v.extractLsb' 24 8 ++ v.extractLsb' 16 8 = v.extractLsb' 16 16 :=
    BitVec.extractLsb'_append_extractLsb'_eq_extractLsb' rfl
  have hmiddle : v.extractLsb' 16 16 ++ v.extractLsb' 8 8 = v.extractLsb' 8 24 :=
    BitVec.extractLsb'_append_extractLsb'_eq_extractLsb' rfl
  have hall : v.extractLsb' 8 24 ++ v.extractLsb' 0 8 = v.extractLsb' 0 32 :=
    BitVec.extractLsb'_append_extractLsb'_eq_extractLsb' rfl
  rw [read32, hzero, hone, htwo, hthree, hhigh, hmiddle, hall]
  exact BitVec.extractLsb'_eq_self

theorem write32_of_notMem {v : U32} (h : x ∉ addrs a 4) : m.write32 a v x = m x :=
  writeBytes_of_notMem _ m a h

end Mem

/-! ## The table -/

/-- The regions depend on the table only. -/
theorem prdtRegions_congr {ctx : Vmctx} {m m' : Mem} {n : Nat} {prdt : U64}
    (h : ∀ x ∈ Mem.addrs prdt (16 * n), m' x = m x) :
    prdtRegions ctx m' n prdt = prdtRegions ctx m n prdt := by
  induction n generalizing prdt with
  | zero => rfl
  | succ n ih =>
    have hsize : 16 * (n + 1) = 8 + (4 + (4 + 16 * n)) := by omega
    rw [hsize, Mem.addrs_add, Mem.addrs_add, Mem.addrs_add] at h
    have hdba : m'.read64 prdt = m.read64 prdt :=
      Mem.read64_congr fun x hx => h x (List.mem_append_left _ hx)
    have hrest : ∀ x ∈ Mem.addrs (prdt + BitVec.ofNat 64 8) 4 ++
        (Mem.addrs (prdt + BitVec.ofNat 64 8 + BitVec.ofNat 64 4) 4 ++
          Mem.addrs (prdt + BitVec.ofNat 64 8 + BitVec.ofNat 64 4 + BitVec.ofNat 64 4) (16 * n)),
        m' x = m x := fun x hx => h x (List.mem_append_right _ hx)
    simp only [BitVec.add_assoc] at hrest
    have hdbc : m'.read32 (prdt + 12) = m.read32 (prdt + 12) :=
      Mem.read32_congr fun x hx => hrest x (List.mem_append_right _ (List.mem_append_left _ hx))
    have hnext : prdtRegions ctx m' n (prdt + 16) = prdtRegions ctx m n (prdt + 16) :=
      ih fun x hx => hrest x (List.mem_append_right _ (List.mem_append_right _ hx))
    rw [prdtRegions, prdtRegions, prdtDbcsz, prdtDbcsz, hdba, hdbc, hnext]

/-! ## The loops -/

/-- **Reading** takes a prefix of what the regions hold. -/
theorem readPrdtLoop_eq (ctx : Vmctx) (m : Mem) (n : Nat) (prdt : U64) (len : Nat) :
    readPrdtLoop ctx m n prdt len = ((prdtRegions ctx m n prdt).flatten.take len).map m := by
  induction n generalizing prdt len with
  | zero => simp [readPrdtLoop, prdtRegions]
  | succ n ih =>
    rw [readPrdtLoop, prdtRegions, List.flatten_cons, List.take_append]
    split
    next hzero => simp [hzero]
    next hlen =>
      dsimp only
      have hsub : len - min len (prdtDbcsz m prdt).toNat = len - (prdtDbcsz m prdt).toNat := by
        omega
      rw [ih, List.map_append, Mem.readBytes_eq_map, take_addrs, Mem.length_addrs, hsub]

/-- **Writing** stores into the regions, as long as these are apart from the table and from
the number of its entries. -/
theorem writePrdtLoop_eq (ctx : Vmctx) (hdr : U64) {e n i : Nat} {prdt : U64} {bytes : List U8}
    {m : Mem} (hn : bytes.length ≤ n) (hprdtl : (m.read16 (hdr + 2)).toNat = i + e)
    (hheader : ∀ x ∈ (prdtRegions ctx m e prdt).flatten, x ∉ Mem.addrs (hdr + 2) 2)
    (htable : ∀ x ∈ (prdtRegions ctx m e prdt).flatten, x ∉ Mem.addrs prdt (16 * e)) :
    writePrdtLoop ctx hdr n i prdt bytes m =
      (scatter m (prdtRegions ctx m e prdt).flatten bytes,
        bytes.drop (prdtRegions ctx m e prdt).flatten.length) := by
  induction e generalizing n i prdt bytes m with
  | zero =>
    cases n with
    | zero => simp [writePrdtLoop, prdtRegions]
    | succ n =>
      rw [writePrdtLoop, if_neg (by omega)]
      simp [prdtRegions]
  | succ e ih =>
    by_cases hnil : bytes = []
    · subst hnil
      cases n with
      | zero => simp [writePrdtLoop]
      | succ n => simp [writePrdtLoop]
    have hlen : 0 < bytes.length := List.length_pos_iff.2 hnil
    obtain ⟨n, rfl⟩ : ∃ k, n = k + 1 := ⟨n - 1, by omega⟩
    obtain ⟨hpos, -⟩ := prdtDbcsz_bounds m prdt
    rw [prdtRegions, List.flatten_cons] at hheader htable ⊢
    rw [writePrdtLoop, if_pos ⟨by omega, hnil⟩]
    dsimp only
    rw [Mem.writeBytes_take]
    have hlength : (Mem.addrs (paddrGuest2host ctx (m.read64 prdt))
        (prdtDbcsz m prdt).toNat).length = (prdtDbcsz m prdt).toNat := Mem.length_addrs _ _
    generalize Mem.addrs (paddrGuest2host ctx (m.read64 prdt)) (prdtDbcsz m prdt).toNat = r
      at hheader htable hlength ⊢
    -- what the first region receives changes neither the header nor the table
    have hkept : ∀ x, x ∉ r → scatter m r bytes x = m x :=
      fun x hx => scatter_of_notMem fun hmem => hx (List.mem_of_mem_take hmem)
    have hread : Mem.read16 (scatter m r bytes) (hdr + 2) = m.read16 (hdr + 2) := by
      refine Mem.read16_congr fun x hx => hkept x fun hr => ?_
      exact hheader x (List.mem_append_left _ hr) hx
    have hnext : ∀ x ∈ Mem.addrs (prdt + 16) (16 * e), x ∈ Mem.addrs prdt (16 * (e + 1)) := by
      intro x hx
      have hsize : 16 * (e + 1) = 16 + 16 * e := by omega
      rw [hsize, Mem.addrs_add]
      exact List.mem_append_right _ hx
    have hregions : prdtRegions ctx (scatter m r bytes) e (prdt + 16) =
        prdtRegions ctx m e (prdt + 16) := by
      refine prdtRegions_congr fun x hx => hkept x fun hr => ?_
      exact htable x (List.mem_append_left _ hr) (hnext x hx)
    have hdrop : bytes.drop (min bytes.length (prdtDbcsz m prdt).toNat) = bytes.drop r.length := by
      rw [hlength]
      rcases Nat.le_total bytes.length (prdtDbcsz m prdt).toNat with hle | hle
      · rw [Nat.min_eq_left hle, List.drop_length, List.drop_eq_nil_of_le hle]
      · rw [Nat.min_eq_right hle]
    rw [hdrop, ih]
    · rw [hregions, scatter_append, List.length_append, List.drop_drop]
    · rw [List.length_drop]
      omega
    · rw [hread]
      omega
    · rw [hregions]
      exact fun x hx => hheader x (List.mem_append_right _ hx)
    · rw [hregions]
      exact fun x hx hmem => htable x (List.mem_append_right _ hx) (hnext x hmem)

/-! ## The copies -/

/-- The addresses that the PRDT of a command names, one after another. -/
def prdtAddrs (c : PortCtx) (slot : Slot) (cfis : U64) : List U64 :=
  (prdtRegions c.sc.vmctx c.mem (c.prdtl slot) (cfis + 0x80)).flatten

/-- The addresses of the table. -/
def prdtTable (c : PortCtx) (slot : Slot) (cfis : U64) : List U64 :=
  Mem.addrs (cfis + 0x80) (16 * c.prdtl slot)

/-- The regions are pairwise disjoint. -/
def PrdtDisjoint (c : PortCtx) (slot : Slot) (cfis : U64) : Prop :=
  (prdtRegions c.sc.vmctx c.mem (c.prdtl slot) (cfis + 0x80)).Pairwise List.Disjoint

/-- They are apart from `prdtl` and `prdbc` in the command header and from the table, and
`prdbc` is not part of the table. -/
structure PrdtApart (c : PortCtx) (slot : Slot) (cfis : U64) : Prop where
  header : (prdtAddrs c slot cfis).Disjoint (Mem.addrs (c.hdr slot + 2) 6)
  table : (prdtAddrs c slot cfis).Disjoint (prdtTable c slot cfis)
  prdbc : (Mem.addrs (c.hdr slot + 4) 4).Disjoint (prdtTable c slot cfis)

/-- The buffer is in the first `k` bytes of the regions, nothing else has changed but `prdbc`,
and `read_prdt` finds the `k` bytes. -/
structure PrdtCopied (c c' : PortCtx) (slot : Slot) (cfis : U64) (buf : List U8) (k : Nat) :
    Prop where
  stored : ((prdtAddrs c slot cfis).take k).map c'.mem = buf.take k
  prdbc : c'.mem.read32 (c.hdr slot + 4) = BitVec.ofNat 32 k
  frame : ∀ x, x ∉ (prdtAddrs c slot cfis).take k → x ∉ Mem.addrs (c.hdr slot + 4) 4 →
    c'.mem x = c.mem x
  rest : c' = c.setMem c'.mem
  readBack : ∀ i, readPrdt c' slot cfis buf.length i = if i < k then buf.getD i 0 else c.stack i

section Copies

variable {c : PortCtx} {slot : Slot} {cfis : U64}

theorem prdtAddrs_nodup (h : PrdtDisjoint c slot cfis) : (prdtAddrs c slot cfis).Nodup := by
  refine List.nodup_flatten.2 ⟨?_, h⟩
  have hregion : ∀ (n : Nat) (prdt : U64), ∀ r ∈ prdtRegions c.sc.vmctx c.mem n prdt, r.Nodup := by
    intro n
    induction n with
    | zero =>
      intro prdt r hr
      exact absurd hr List.not_mem_nil
    | succ n ih =>
      intro prdt r hr
      rcases List.mem_cons.1 hr with rfl | hr
      · have hle := (prdtDbcsz_bounds c.mem prdt).2
        exact Mem.nodup_addrs _ (hle.trans (by simp))
      · exact ih _ r hr
  exact hregion _ _

/-- `prdtl` and `prdbc`. -/
theorem addrs_header (c : PortCtx) (slot : Slot) : Mem.addrs (c.hdr slot + 2) 6 =
    Mem.addrs (c.hdr slot + 2) 2 ++ Mem.addrs (c.hdr slot + 4) 4 := by
  have hfour : c.hdr slot + 4 = c.hdr slot + 2 + BitVec.ofNat 64 2 := by
    rw [BitVec.add_assoc]
    rfl
  rw [hfour]
  exact Mem.addrs_add _ 2 4

/-- Memory after `write_prdt`. -/
theorem writePrdt_mem (h : PrdtApart c slot cfis) (buf : List U8) :
    (writePrdt c slot cfis buf).mem =
      Mem.write32 (scatter c.mem (prdtAddrs c slot cfis) buf) (c.hdr slot + 4)
        (BitVec.ofNat 32 (min buf.length (prdtAddrs c slot cfis).length)) := by
  have hheader := h.header
  rw [addrs_header] at hheader
  have hloop : writePrdtLoop c.sc.vmctx (c.hdr slot) buf.length 0 (cfis + 0x80) buf c.mem =
      (scatter c.mem (prdtAddrs c slot cfis) buf, buf.drop (prdtAddrs c slot cfis).length) := by
    refine writePrdtLoop_eq _ _ le_rfl (Nat.zero_add _).symm ?_ ?_
    · exact fun x hx hmem => hheader hx (List.mem_append_left _ hmem)
    · exact fun x hx hmem => h.table hx hmem
  have hcount : buf.length - (buf.length - (prdtAddrs c slot cfis).length) =
      min buf.length (prdtAddrs c slot cfis).length := by omega
  rw [writePrdt, hloop]
  dsimp only
  rw [List.length_drop, hcount]
  rfl

end Copies

/-- **Copies are faithful**, where the regions are apart from the table and from the header. -/
theorem prdt_copies_faithful {c : PortCtx} {slot : Slot} {cfis : U64}
    (hdisjoint : PrdtDisjoint c slot cfis) (hapart : PrdtApart c slot cfis) (buf : List U8) :
    PrdtCopied c (writePrdt c slot cfis buf) slot cfis buf
      (min buf.length (prdtAddrs c slot cfis).length) := by
  have hmem := writePrdt_mem hapart buf
  have hrest : writePrdt c slot cfis buf = c.setMem (writePrdt c slot cfis buf).mem := rfl
  generalize writePrdt c slot cfis buf = c' at hmem hrest
  have htake : (prdtAddrs c slot cfis).take (min buf.length (prdtAddrs c slot cfis).length) =
      (prdtAddrs c slot cfis).take buf.length := by
    rw [← List.take_take, List.take_length]
  have hbuf : buf.take (min buf.length (prdtAddrs c slot cfis).length) =
      buf.take (prdtAddrs c slot cfis).length := by
    rw [Nat.min_comm, ← List.take_take, List.take_length]
  have hheader := hapart.header
  rw [addrs_header] at hheader
  have hframe : ∀ x, x ∉ (prdtAddrs c slot cfis).take buf.length →
      x ∉ Mem.addrs (c.hdr slot + 4) 4 → c'.mem x = c.mem x := by
    intro x hx hx'
    rw [hmem, Mem.write32_of_notMem hx', scatter_of_notMem hx]
  have hstored : ((prdtAddrs c slot cfis).take buf.length).map c'.mem =
      buf.take (prdtAddrs c slot cfis).length := by
    rw [← map_scatter (m := c.mem) (prdtAddrs_nodup hdisjoint)]
    refine List.map_congr_left fun x hx => ?_
    rw [hmem, Mem.write32_of_notMem]
    exact fun hx' => hheader (List.mem_of_mem_take hx) (List.mem_append_right _ hx')
  -- the table and the number of its entries are as before
  have hprdtl : c'.prdtl slot = c.prdtl slot := by
    have hfields := Mem.nodup_addrs (c.hdr slot + 2) (n := 6) (by simp)
    rw [addrs_header] at hfields
    have hread : c'.mem.read16 (c.hdr slot + 2) = c.mem.read16 (c.hdr slot + 2) := by
      refine Mem.read16_congr fun x hx => hframe x ?_ ?_
      · exact fun hx' => hheader (List.mem_of_mem_take hx') (List.mem_append_left _ hx)
      · exact fun hx' => (List.nodup_append.1 hfields).2.2 x hx x hx' rfl
    rw [hrest]
    exact congrArg BitVec.toNat hread
  have htable : prdtAddrs c' slot cfis = prdtAddrs c slot cfis := by
    have hsc : c'.sc = c.sc := by
      rw [hrest]
      rfl
    rw [prdtAddrs, hprdtl, hsc, prdtRegions_congr, prdtAddrs]
    refine fun x hx => hframe x (fun hx' => ?_) fun hx' => hapart.prdbc hx' hx
    exact hapart.table (List.mem_of_mem_take hx') hx
  refine ⟨?_, ?_, ?_, hrest, ?_⟩
  · rw [htake, hbuf]
    exact hstored
  · rw [hmem]
    exact Mem.read32_write32 _ _ _
  · rw [htake]
    exact hframe
  · intro i
    have hloop : readPrdtLoop c'.sc.vmctx c'.mem (c'.prdtl slot) (cfis + 0x80) buf.length =
        buf.take (min buf.length (prdtAddrs c slot cfis).length) := by
      rw [readPrdtLoop_eq, hbuf, ← hstored, ← htable]
      rfl
    have hstack : c'.stack = c.stack := by
      rw [hrest]
      rfl
    rw [readPrdt, hloop, hstack]
    dsimp only
    rw [List.getD_eq_getElem?_getD, List.getElem?_take]
    split
    next hlt =>
      have hget : i < buf.length := by omega
      simp [hget]
    next => rfl

/-- Two regions, of three bytes and of five. -/
def twoRegions : PortCtx :=
  ((ahciBlank false).dev.ctx 0).setMem fun a =>
    if a = 2 then 2 else if a = 0x1081 then 0x20 else if a = 0x108c then 2
    else if a = 0x1091 then 0x30 else if a = 0x109c then 4 else 0

/-- Six bytes, three of them in each. -/
theorem prdt_copies_faithful_two :
    PrdtCopied twoRegions (writePrdt twoRegions 0 0x1000 [1, 2, 3, 4, 5, 6]) 0 0x1000
      [1, 2, 3, 4, 5, 6] 6 := by
  have hregions : prdtRegions twoRegions.sc.vmctx twoRegions.mem (twoRegions.prdtl 0)
      (0x1000 + 0x80) = [Mem.addrs 0x2000 3, Mem.addrs 0x3000 5] := by decide +kernel
  have hdisjoint : PrdtDisjoint twoRegions 0 0x1000 := by
    rw [PrdtDisjoint, hregions, List.pairwise_pair]
    exact List.disjoint_of_nodup_append (by decide)
  have hapart : PrdtApart twoRegions 0 0x1000 := by
    refine ⟨?_, ?_, ?_⟩ <;> exact List.disjoint_of_nodup_append (by decide +kernel)
  have hlength : (prdtAddrs twoRegions 0 0x1000).length = 8 := by decide +kernel
  have hcopied := prdt_copies_faithful hdisjoint hapart [1, 2, 3, 4, 5, 6]
  rwa [hlength] at hcopied

/-- One region, of four bytes, which are those of `prdbc`. -/
def prdbcRegion : PortCtx :=
  ((ahciBlank false).dev.ctx 0).setMem fun a =>
    if a = 2 then 1 else if a = 0x1080 then 4 else if a = 0x108c then 3 else 0

/-- The number of bytes takes the place of the bytes. -/
theorem prdt_over_prdbc :
    ¬ ∀ (c : PortCtx) (slot : Slot) (cfis : U64) (buf : List U8), PrdtDisjoint c slot cfis →
      PrdtCopied c (writePrdt c slot cfis buf) slot cfis buf
        (min buf.length (prdtAddrs c slot cfis).length) := by
  intro h
  have hregions : prdtRegions prdbcRegion.sc.vmctx prdbcRegion.mem (prdbcRegion.prdtl 0)
      (0x1000 + 0x80) = [Mem.addrs 4 4] := by decide +kernel
  have hdisjoint : PrdtDisjoint prdbcRegion 0 0x1000 := by
    rw [PrdtDisjoint, hregions]
    exact List.pairwise_singleton _ _
  have hstored := (h prdbcRegion 0 0x1000 [1, 2, 3, 4] hdisjoint).stored
  revert hstored
  decide +kernel

end DeviceModel
