import DeviceModel.Ahci.AnswerRuns

/-!
# What IDENTIFY DEVICE says of a disk

A driver takes the name of a disk, its size and what it can do out of the 512 bytes that
IDENTIFY DEVICE gives. `AtaDisk.read` is the driver's side: it reads the words of the standard. What it
reads is what the disk is.
-/

namespace DeviceModel

/-! ## Words of a table -/

/-- Word `i` of a table of words. -/
def wordAt (buf : List U8) (i : Nat) : U16 := buf.getD (2 * i + 1) 0 ++ buf.getD (2 * i) 0

theorem getElem?_wordBytes (ws : List U16) : ∀ i : Nat,
    (wordBytes ws)[2 * i]? = ws[i]?.map (·.extractLsb' 0 8) ∧
      (wordBytes ws)[2 * i + 1]? = ws[i]?.map (·.extractLsb' 8 8) := by
  induction ws with
  | nil => exact fun i => ⟨rfl, rfl⟩
  | cons w ws ih =>
    intro i
    cases i with
    | zero => exact ⟨rfl, rfl⟩
    | succ i =>
      have hshift : 2 * (i + 1) = 2 * i + 1 + 1 := by omega
      rw [hshift, wordBytes, List.flatMap_cons]
      simp only [List.cons_append, List.nil_append, List.getElem?_cons_succ]
      exact ih i

theorem length_wordBytes (ws : List U16) : (wordBytes ws).length = 2 * ws.length := by
  induction ws with
  | nil => rfl
  | cons w ws ih =>
    rw [wordBytes, List.flatMap_cons, List.length_append, List.length_cons]
    rw [wordBytes] at ih
    rw [ih]
    simp
    omega

/-- The words read back. -/
theorem wordAt_wordBytes {ws : List U16} {i : Nat} (hi : i < ws.length) :
    wordAt (wordBytes ws) i = ws.getD i 0 := by
  obtain ⟨hlow, hhigh⟩ := getElem?_wordBytes ws i
  have hget : ws[i]? = some (ws.getD i 0) := by
    rw [List.getD_eq_getElem?_getD, List.getElem?_eq_getElem hi]
    rfl
  rw [wordAt, List.getD_eq_getElem?_getD, List.getD_eq_getElem?_getD, hlow, hhigh, hget]
  have hboth : (ws.getD i 0).extractLsb' 8 8 ++ (ws.getD i 0).extractLsb' 0 8 =
      (ws.getD i 0).extractLsb' 0 16 := BitVec.extractLsb'_append_extractLsb'_eq_extractLsb' rfl
  exact hboth.trans BitVec.extractLsb'_eq_self

/-- The checksum is the last byte. -/
theorem getD_ahciChecksum {buf : List U8} {j : Nat} (hj : j + 1 < buf.length) :
    (ahciChecksum buf).getD j 0 = buf.getD j 0 := by
  have hlen : j < buf.dropLast.length := by
    rw [List.length_dropLast]
    omega
  rw [List.getD_eq_getElem?_getD, List.getD_eq_getElem?_getD, ahciChecksum,
    List.getElem?_append_left hlen, List.getElem?_eq_getElem hlen, List.getElem_dropLast,
    List.getElem?_eq_getElem]

theorem wordAt_ahciChecksum {buf : List U8} {i : Nat} (hi : 2 * i + 2 < buf.length) :
    wordAt (ahciChecksum buf) i = wordAt buf i := by
  rw [wordAt, wordAt, getD_ahciChecksum (by omega), getD_ahciChecksum (by omega)]

theorem sum_ahciChecksum (buf : List U8) : (ahciChecksum buf).sum = 0 := by
  rw [ahciChecksum, List.sum_append, List.sum_singleton]
  exact BitVec.add_right_neg _

theorem length_setWords (ws : List (Nat × U16)) (buf : List U16) :
    (setWords ws buf).length = buf.length := by
  induction ws generalizing buf with
  | nil => rfl
  | cons w ws ih =>
    rw [setWords, List.foldl_cons]
    exact (ih _).trans (List.length_set ..)

/-- The last store to a word counts. -/
theorem getD_setWords {ws : List (Nat × U16)} {buf : List U16} {i : Nat} (hi : i < buf.length) :
    (setWords ws buf).getD i 0 = (ws.reverse.lookup i).getD (buf.getD i 0) := by
  induction ws using List.reverseRecOn with
  | nil => rfl
  | append_singleton ws w ih =>
    rw [setWords, List.foldl_append, List.reverse_append]
    change ((setWords ws buf).set w.1 w.2).getD i 0 = _
    rw [List.reverse_singleton, List.singleton_append, List.lookup_cons, List.getD_eq_getElem?_getD,
      List.getElem?_set]
    rw [List.getD_eq_getElem?_getD] at ih
    by_cases heq : i = w.1
    · subst heq
      rw [if_pos rfl, length_setWords, if_pos hi]
      simp
    · rw [if_neg (Ne.symm heq), ih, beq_eq_false_iff_ne.2 heq]

/-- A table of 256 words with a checksum. -/
def checkedTable (ws : List (Nat × U16)) : List U8 :=
  ahciChecksum (wordBytes (setWords ws (List.replicate 256 0)))

theorem length_table (ws : List (Nat × U16)) :
    (wordBytes (setWords ws (List.replicate 256 0))).length = 512 := by
  rw [length_wordBytes, length_setWords, List.length_replicate]

theorem length_checkedTable (ws : List (Nat × U16)) : (checkedTable ws).length = 512 := by
  rw [checkedTable, ahciChecksum, List.length_append, List.length_dropLast, length_table]
  rfl

theorem getD_table (ws : List (Nat × U16)) {i : Nat} (hi : i < 256) :
    (setWords ws (List.replicate 256 0)).getD i 0 = (ws.reverse.lookup i).getD 0 := by
  have hzero : (List.replicate 256 (0 : U16)).getD i 0 = 0 := by
    rw [List.getD_eq_getElem?_getD, List.getElem?_replicate]
    split <;> rfl
  rw [getD_setWords (by rw [List.length_replicate]; exact hi), hzero]

/-- Its words are what has been stored last. -/
theorem wordAt_checkedTable (ws : List (Nat × U16)) {i : Nat} (hi : i < 255) :
    wordAt (checkedTable ws) i = (ws.reverse.lookup i).getD 0 := by
  rw [checkedTable, wordAt_ahciChecksum (by rw [length_table]; omega), wordAt_wordBytes, getD_table]
  · omega
  · rw [length_setWords, List.length_replicate]
    omega

/-- The signature is in front of the checksum. -/
theorem signature_checkedTable (ws : List (Nat × U16)) :
    (checkedTable ws).getD 510 0 = ((ws.reverse.lookup 255).getD 0).extractLsb' 0 8 := by
  have hlen : 255 < (setWords ws (List.replicate 256 0)).length := by
    rw [length_setWords, List.length_replicate]
    decide
  have hbyte := (getElem?_wordBytes (setWords ws (List.replicate 256 0)) 255).1
  rw [checkedTable, getD_ahciChecksum (by rw [length_table]; decide), List.getD_eq_getElem?_getD, hbyte,
    ← getD_table ws (by decide), List.getD_eq_getElem?_getD, List.getElem?_eq_getElem hlen]
  rfl

/-- A segment of a table that is there or not. -/
theorem lookup_ite {p : Prop} [Decidable p] (a b : List (Nat × U16)) (i : Nat) :
    (if p then a else b).reverse.lookup i = if p then a.reverse.lookup i else b.reverse.lookup i := by
  split <;> rfl

/-- A segment of words one after another. -/
theorem lookup_wordsFrom (k : Nat) (ws : List U16) (i : Nat) :
    (wordsFrom k ws).reverse.lookup i = if k ≤ i then ws[i - k]? else none := by
  induction ws using List.reverseRecOn with
  | nil =>
    rw [List.getElem?_nil, ite_self]
    rfl
  | append_singleton ws w ih =>
    have hlast : wordsFrom k (ws ++ [w]) = wordsFrom k ws ++ [(k + ws.length, w)] := by
      rw [wordsFrom, List.mapIdx_concat]
      rfl
    rw [hlast, List.reverse_append, List.reverse_singleton, List.singleton_append, List.lookup_cons, ih]
    by_cases heq : i = k + ws.length
    · subst heq
      rw [beq_self_eq_true, if_pos (Nat.le_add_right _ _), if_pos (Nat.le_add_right _ _),
        Nat.add_sub_cancel_left, List.getElem?_concat_length]
    · rw [beq_eq_false_iff_ne.2 heq]
      dsimp only
      by_cases hle : k ≤ i
      · rw [if_pos hle, if_pos hle]
        by_cases hlt : i - k < ws.length
        · rw [List.getElem?_append_left hlt]
        · have hout : (ws ++ [w]).length ≤ i - k := by
            rw [List.length_append, List.length_singleton]
            omega
          rw [List.getElem?_eq_none (Nat.not_lt.1 hlt), List.getElem?_eq_none hout]
      · rw [if_neg hle, if_neg hle]

/-! ## Strings -/

/-- Two bytes of a string, the first one high. -/
def textWord (src : List U8) (k : Nat) : U16 := src.getD (2 * k) 0x20#8 ++ src.getD (2 * k + 1) 0x20#8

/-- A string of `n` words from word `i` on. -/
def textAt (buf : List U8) (i n : Nat) : List U8 :=
  (List.range n).flatMap fun k =>
    [(wordAt buf (i + k)).extractLsb' 8 8, (wordAt buf (i + k)).extractLsb' 0 8]

theorem textAt_of_words {buf src : List U8} {i n : Nat}
    (h : ∀ k, k < n → wordAt buf (i + k) = textWord src k) :
    textAt buf i n = atapiString src (2 * n) := by
  induction n with
  | zero => rfl
  | succ n ih =>
    have hsize : 2 * (n + 1) = 2 * n + 1 + 1 := by omega
    rw [textAt] at ih
    rw [textAt, List.range_succ, List.flatMap_append, ih fun k hk => h k (by omega), List.flatMap_singleton,
      h n (by omega), atapiString, atapiString, hsize, List.range_succ, List.range_succ, List.map_append,
      List.map_append, List.append_assoc]
    have hhigh : (textWord src n).extractLsb' 8 8 = src.getD (2 * n) 0x20#8 := by
      rw [textWord, BitVec.extractLsb'_append_eq_left]
    have hlow : (textWord src n).extractLsb' 0 8 = src.getD (2 * n + 1) 0x20#8 := by
      rw [textWord, BitVec.extractLsb'_append_eq_right]
    rw [hhigh, hlow]
    rfl

/-! ## What a driver reads -/

/-- A disk as IDENTIFY DEVICE tells of it. -/
structure AtaDisk where
  serial : List U8
  firmware : List U8
  model : List U8
  /-- cylinders, heads, sectors of a track -/
  geometry : Nat × Nat × Nat
  /-- what a command with a 28-bit address gets to -/
  sectors28 : Nat
  sectors : Nat
  sectorSize : Nat
  /-- sectors of a physical one -/
  perPhysical : Nat
  /-- the block of READ and WRITE MULTIPLE, if one has been set -/
  multiple : Option U8
  queueDepth : Option Nat
  trims : Bool

namespace AtaDisk

/-- The driver takes the words of the standard, of a table with its signature and its checksum. -/
def read (buf : List U8) : Option AtaDisk :=
  let word := wordAt buf
  if buf.length = 512 ∧ buf.getD 510 0 = 0xa5#8 ∧ buf.sum = 0 then
    some
      { serial := textAt buf 10 10
        firmware := textAt buf 23 4
        model := textAt buf 27 20
        geometry := ((word 1).toNat, (word 3).toNat, (word 6).toNat)
        sectors28 := (word 61 ++ word 60).toNat
        sectors := (word 103 ++ word 102 ++ word 101 ++ word 100).toNat
        sectorSize := if word 106 &&& 0x1000#16 ≠ 0 then 2 * (word 118 ++ word 117).toNat else 512
        perPhysical := if word 106 &&& 0x2000#16 ≠ 0 then 2 ^ (word 106 &&& 0xf#16).toNat else 1
        multiple := if word 59 &&& 0x0100#16 ≠ 0 then some ((word 59).setWidth 8) else none
        queueDepth := if word 76 &&& 0x0100#16 ≠ 0 then some ((word 75 &&& 0x1f#16).toNat + 1) else none
        trims := word 169 &&& 1#16 ≠ 0 }
  else none

/-- The disk behind a port. -/
def behind (c : PortCtx) : AtaDisk where
  serial := atapiString c.p.dev.ident 20
  firmware := atapiString (ascii "001") 8
  model := atapiString (ascii "BHYVE SATA DISK") 40
  geometry := blockifChs c.blk.bc
  sectors28 := min (c.blk.bc.bcSize / c.blk.bc.bcSectsz) 0x0fffffff
  sectors := c.blk.bc.bcSize / c.blk.bc.bcSectsz
  sectorSize := c.blk.bc.bcSectsz
  perPhysical := max 1 (c.blk.bc.bcPsectsz / c.blk.bc.bcSectsz)
  multiple := if c.p.dev.multSectors = 0 then none else some c.p.dev.multSectors
  queueDepth := some 32
  trims := ahciTrims c.blk.bc

end AtaDisk

/-- Sectors that the words can tell: a size in words, and a power of two of them in a physical one. -/
structure SoundSectors (bc : BlockifCtxt) : Prop where
  least : 512 ≤ bc.bcSectsz
  even : 2 ∣ bc.bcSectsz
  small : bc.bcSectsz < 2 ^ 31
  size : bc.bcSize < 2 ^ 64
  physical : bc.bcPsectsz ≤ bc.bcSectsz ∨ ∃ k, k < 16 ∧ bc.bcPsectsz = bc.bcSectsz * 2 ^ k

section Words

variable (c : PortCtx)

theorem identifyBuf_table : ∃ ws, identifyBuf c = checkedTable ws ∧
    ws.reverse.lookup 255 = some 0x00a5#16 :=
  ⟨_, rfl, by simp⟩

/-- The words of the strings. Only the string that a word is in has it. -/
theorem identify_text (k : Nat) :
    (k < 10 → wordAt (identifyBuf c) (10 + k) = textWord c.p.dev.ident k) ∧
      (k < 4 → wordAt (identifyBuf c) (23 + k) = textWord (ascii "001") k) ∧
      (k < 20 → wordAt (identifyBuf c) (27 + k) = textWord (ascii "BHYVE SATA DISK") k) := by
  have heq : identifyBuf c = checkedTable _ := rfl
  rw [heq]
  refine ⟨fun hk => ?_, fun hk => ?_, fun hk => ?_⟩
  all_goals
    rw [wordAt_checkedTable _ (by omega)]
    simp (disch := omega) [identifySize, identifySectors, List.lookup_append, lookup_ite, List.lookup_cons,
      lookup_wordsFrom, ataString, beq_false_of_ne, if_neg, if_pos, List.getElem?_range, textWord]

/-- The words of the geometry. -/
theorem identify_geometry :
    wordAt (identifyBuf c) 1 = BitVec.ofNat 16 (blockifChs c.blk.bc).1 ∧
      wordAt (identifyBuf c) 3 = BitVec.ofNat 16 (blockifChs c.blk.bc).2.1 ∧
      wordAt (identifyBuf c) 6 = BitVec.ofNat 16 (blockifChs c.blk.bc).2.2 := by
  have heq : identifyBuf c = checkedTable _ := rfl
  rw [heq]
  refine ⟨?_, ?_, ?_⟩
  all_goals
    rw [wordAt_checkedTable _ (by decide)]
    simp [identifySize, identifySectors, List.lookup_append, lookup_ite, List.lookup_cons]

/-- The words of the size. -/
theorem identify_size {n : Nat} (hn : n = c.blk.bc.bcSize / c.blk.bc.bcSectsz) :
    (wordAt (identifyBuf c) 60 = (if n ≤ 0x0fffffff then BitVec.ofNat 16 n else 0xffff#16) ∧
      wordAt (identifyBuf c) 61 = if n ≤ 0x0fffffff then BitVec.ofNat 16 (n / 2 ^ 16) else 0x0fff#16) ∧
      wordAt (identifyBuf c) 100 = BitVec.ofNat 16 n ∧
      wordAt (identifyBuf c) 101 = BitVec.ofNat 16 (n / 2 ^ 16) ∧
      wordAt (identifyBuf c) 102 = BitVec.ofNat 16 (n / 2 ^ 32) ∧
      wordAt (identifyBuf c) 103 = BitVec.ofNat 16 (n / 2 ^ 48) := by
  subst hn
  have heq : identifyBuf c = checkedTable _ := rfl
  rw [heq]
  refine ⟨⟨?_, ?_⟩, ?_, ?_, ?_, ?_⟩
  all_goals
    rw [wordAt_checkedTable _ (by decide)]
    simp [identifySize, identifySectors, List.lookup_append, lookup_ite, List.lookup_cons]
  all_goals
    split <;> rfl

/-- The words of a sector. -/
theorem identify_sectors {large : U16} (hlarge : large = if c.blk.bc.bcSectsz > 512 then 0x1000 else 0) :
    wordAt (identifyBuf c) 106 =
        (if c.blk.bc.bcPsectsz > c.blk.bc.bcSectsz then
          0x4000#16 ||| 0x2000#16 |||
            (BitVec.ofNat 64 (c.blk.bc.bcPsectsz / c.blk.bc.bcSectsz)).ctz.setWidth 16 ||| large
        else 0x4000#16 ||| large) ∧
      (c.blk.bc.bcSectsz > 512 → wordAt (identifyBuf c) 117 = BitVec.ofNat 16 (c.blk.bc.bcSectsz / 2) ∧
        wordAt (identifyBuf c) 118 = BitVec.ofNat 16 (c.blk.bc.bcSectsz / 2 / 2 ^ 16)) := by
  subst hlarge
  have heq : identifyBuf c = checkedTable _ := rfl
  rw [heq]
  refine ⟨?_, fun hlt => ⟨?_, ?_⟩⟩
  · rw [wordAt_checkedTable _ (by decide)]
    simp [identifySize, identifySectors, List.lookup_append, lookup_ite, List.lookup_cons]
    split <;> rfl
  all_goals
    rw [wordAt_checkedTable _ (by decide)]
    simp [identifySize, identifySectors, List.lookup_cons, hlt]

/-- The words of what the disk can do. -/
theorem identify_features :
    wordAt (identifyBuf c) 59 =
        (if c.p.dev.multSectors ≠ 0 then 0x0100#16 ||| c.p.dev.multSectors.setWidth 16 else 0) ∧
      wordAt (identifyBuf c) 75 = 31#16 ∧ wordAt (identifyBuf c) 76 = 0x010e#16 ∧
      wordAt (identifyBuf c) 169 = if ahciTrims c.blk.bc then 1 else 0 := by
  have heq : identifyBuf c = checkedTable _ := rfl
  rw [heq]
  refine ⟨?_, ?_, ?_, ?_⟩
  all_goals
    rw [wordAt_checkedTable _ (by decide)]
    simp [identifySize, identifySectors, List.lookup_append, lookup_ite, List.lookup_cons, lookup_wordsFrom]
  all_goals
    split <;> rfl

end Words

/-! ## Numbers in words -/

/-- A word more on top. -/
theorem ofNat_append (k n : Nat) :
    BitVec.ofNat k (n / 2 ^ 16) ++ BitVec.ofNat 16 n = BitVec.ofNat (k + 16) n := by
  refine BitVec.eq_of_toNat_eq ?_
  rw [BitVec.toNat_append, BitVec.toNat_ofNat, BitVec.toNat_ofNat, BitVec.toNat_ofNat,
    ← Nat.shiftLeft_add_eq_or_of_lt (Nat.mod_lt _ (by decide)), Nat.shiftLeft_eq, Nat.pow_add,
    Nat.mul_comm (2 ^ k), Nat.mod_mul]
  omega

/-- Four words make a size. -/
theorem toNat_fourWords {n : Nat} (hn : n < 2 ^ 64) :
    (BitVec.ofNat 16 (n / 2 ^ 48) ++ BitVec.ofNat 16 (n / 2 ^ 32) ++ BitVec.ofNat 16 (n / 2 ^ 16) ++
      BitVec.ofNat 16 n).toNat = n := by
  have htop : n / 2 ^ 48 = n / 2 ^ 32 / 2 ^ 16 := by omega
  have hmiddle : n / 2 ^ 32 = n / 2 ^ 16 / 2 ^ 16 := by omega
  rw [htop, ofNat_append, hmiddle, ofNat_append, ofNat_append, BitVec.toNat_ofNat]
  exact Nat.mod_eq_of_lt hn

theorem toNat_twoWords {n : Nat} (hn : n < 2 ^ 32) :
    (BitVec.ofNat 16 (n / 2 ^ 16) ++ BitVec.ofNat 16 n).toNat = n := by
  rw [ofNat_append, BitVec.toNat_ofNat]
  exact Nat.mod_eq_of_lt hn

theorem toNat_ofNat_toNat {w : Nat} (x : BitVec w) (hw : w ≤ 16) :
    (BitVec.ofNat 16 x.toNat).toNat = x.toNat := by
  rw [BitVec.toNat_ofNat]
  exact Nat.mod_eq_of_lt (Nat.lt_of_lt_of_le x.isLt (Nat.pow_le_pow_right (by decide) hw))

/-- The bits of word 106. -/
theorem sectorWord_bits {k : Nat} (hk : k < 16) (b : Bool) :
    let large : U16 := if b then 0x1000 else 0
    let word := 0x4000#16 ||| 0x2000#16 ||| (BitVec.ofNat 64 (2 ^ k)).ctz.setWidth 16 ||| large
    word &&& 0x1000#16 = large ∧ word &&& 0x2000#16 ≠ 0 ∧ (word &&& 0xf#16).toNat = k := by
  have hall : ∀ k < 16, ∀ b : Bool,
      let large : U16 := if b then 0x1000 else 0
      let word := 0x4000#16 ||| 0x2000#16 ||| (BitVec.ofNat 64 (2 ^ k)).ctz.setWidth 16 ||| large
      word &&& 0x1000#16 = large ∧ word &&& 0x2000#16 ≠ 0 ∧ (word &&& 0xf#16).toNat = k := by
    decide +kernel
  exact hall k hk b

/-- Word 59, where a block has been set. -/
theorem multipleWord_bits (m : U8) :
    (0x0100#16 ||| m.setWidth 16) &&& 0x0100#16 ≠ 0 ∧ (0x0100#16 ||| m.setWidth 16).setWidth 8 = m := by
  refine ⟨fun hz => ?_, ?_⟩
  · have hbit := congrArg (·.getLsbD 8) hz
    simp at hbit
  · rw [BitVec.setWidth_or, BitVec.setWidth_setWidth_of_le _ (by decide), BitVec.setWidth_eq]
    exact BitVec.zero_or

/-! ## The description -/

namespace AtaDisk

variable {c : PortCtx}

theorem read_geometry (h : SoundSectors c.blk.bc) :
    ((wordAt (identifyBuf c) 1).toNat, (wordAt (identifyBuf c) 3).toNat, (wordAt (identifyBuf c) 6).toNat) =
      blockifChs c.blk.bc := by
  obtain ⟨-, cyl, heads, sech, -, -, -, -, -, hchs⟩ :=
    blockifChsStores_spec (Nat.le_trans (by decide) h.least)
  obtain ⟨hcyl, hheads, hsech⟩ := identify_geometry c
  rw [hcyl, hheads, hsech, hchs, toNat_ofNat_toNat cyl (by decide), toNat_ofNat_toNat heads (by decide),
    toNat_ofNat_toNat sech (by decide)]

theorem read_sectors28 :
    (wordAt (identifyBuf c) 61 ++ wordAt (identifyBuf c) 60).toNat =
      min (c.blk.bc.bcSize / c.blk.bc.bcSectsz) 0x0fffffff := by
  obtain ⟨⟨hlow, hhigh⟩, -⟩ := identify_size c rfl
  rw [hlow, hhigh]
  by_cases hle : c.blk.bc.bcSize / c.blk.bc.bcSectsz ≤ 0x0fffffff
  · rw [if_pos hle, if_pos hle, toNat_twoWords (Nat.lt_of_le_of_lt hle (by decide)), Nat.min_eq_left hle]
  · rw [if_neg hle, if_neg hle, Nat.min_eq_right (Nat.le_of_not_le hle)]
    rfl

theorem read_sectors (h : SoundSectors c.blk.bc) :
    (wordAt (identifyBuf c) 103 ++ wordAt (identifyBuf c) 102 ++ wordAt (identifyBuf c) 101 ++
      wordAt (identifyBuf c) 100).toNat = c.blk.bc.bcSize / c.blk.bc.bcSectsz := by
  obtain ⟨-, h0, h1, h2, h3⟩ := identify_size c rfl
  rw [h0, h1, h2, h3]
  exact toNat_fourWords (Nat.lt_of_le_of_lt (Nat.div_le_self _ _) h.size)

/-- What word 106 says of a disk. -/
theorem read_sectorWord (h : SoundSectors c.blk.bc) :
    (wordAt (identifyBuf c) 106 &&& 0x1000#16 = if c.blk.bc.bcSectsz > 512 then 0x1000#16 else 0) ∧
      (if wordAt (identifyBuf c) 106 &&& 0x2000#16 ≠ 0 then
        2 ^ (wordAt (identifyBuf c) 106 &&& 0xf#16).toNat else 1) =
          max 1 (c.blk.bc.bcPsectsz / c.blk.bc.bcSectsz) := by
  have hpos : 0 < c.blk.bc.bcSectsz := Nat.lt_of_lt_of_le (by decide) h.least
  rw [(identify_sectors c rfl).1]
  by_cases hmore : c.blk.bc.bcPsectsz > c.blk.bc.bcSectsz
  · rw [if_pos hmore]
    obtain hle | ⟨k, hk, heq⟩ := h.physical
    · exact absurd hle (Nat.not_le.2 hmore)
    · have hratio : c.blk.bc.bcPsectsz / c.blk.bc.bcSectsz = 2 ^ k := by
        rw [heq]
        exact Nat.mul_div_cancel_left _ hpos
      obtain ⟨hlarge, hphysical, hexp⟩ := sectorWord_bits hk (decide (c.blk.bc.bcSectsz > 512))
      simp only [decide_eq_true_eq] at hlarge hphysical hexp
      rw [hratio, if_pos hphysical, hexp, Nat.max_eq_right Nat.one_le_two_pow]
      exact ⟨hlarge, rfl⟩
  · rw [if_neg hmore]
    have hratio : c.blk.bc.bcPsectsz / c.blk.bc.bcSectsz ≤ 1 :=
      Nat.div_le_of_le_mul (by rw [Nat.mul_one]; exact Nat.le_of_not_lt hmore)
    rw [Nat.max_eq_left hratio]
    constructor <;> split <;> rfl

theorem read_sectorSize (h : SoundSectors c.blk.bc) :
    (if wordAt (identifyBuf c) 106 &&& 0x1000#16 ≠ 0 then
      2 * (wordAt (identifyBuf c) 118 ++ wordAt (identifyBuf c) 117).toNat else 512) = c.blk.bc.bcSectsz := by
  have hsmall := h.small
  have hleast := h.least
  have heven := h.even
  rw [(read_sectorWord h).1]
  by_cases hmore : c.blk.bc.bcSectsz > 512
  · obtain ⟨hlow, hhigh⟩ := (identify_sectors c rfl).2 hmore
    rw [if_pos hmore, if_pos (by decide), hlow, hhigh, toNat_twoWords (by omega)]
    omega
  · rw [if_neg hmore, if_neg (by decide)]
    omega

/-- **The table tells what the disk is.** -/
theorem read_identifyBuf (h : SoundSectors c.blk.bc) : read (identifyBuf c) = some (behind c) := by
  obtain ⟨ws, hws, hsignature⟩ := identifyBuf_table c
  have hvalid : (identifyBuf c).length = 512 ∧ (identifyBuf c).getD 510 0 = 0xa5#8 ∧
      (identifyBuf c).sum = 0 := by
    rw [hws]
    refine ⟨length_checkedTable ws, ?_, sum_ahciChecksum _⟩
    rw [signature_checkedTable, hsignature]
    rfl
  obtain ⟨hmultiple, hdepth, hqueued, htrims⟩ := identify_features c
  have hblock : (if wordAt (identifyBuf c) 59 &&& 0x0100#16 ≠ 0 then
      some ((wordAt (identifyBuf c) 59).setWidth 8) else none) =
        if c.p.dev.multSectors = 0 then none else some c.p.dev.multSectors := by
    rw [hmultiple]
    by_cases hnone : c.p.dev.multSectors = 0
    · rw [if_neg (not_not.2 hnone), if_pos hnone]
      rfl
    · obtain ⟨hset, hvalue⟩ := multipleWord_bits c.p.dev.multSectors
      rw [if_pos hnone, if_neg hnone, if_pos hset, hvalue]
  have hdelete : decide (wordAt (identifyBuf c) 169 &&& 1#16 ≠ 0) = ahciTrims c.blk.bc := by
    rw [htrims]
    cases ahciTrims c.blk.bc <;> rfl
  rw [read, if_pos hvalid, textAt_of_words fun k => (identify_text c k).1,
    textAt_of_words fun k => (identify_text c k).2.1, textAt_of_words fun k => (identify_text c k).2.2,
    read_geometry h, read_sectors28, read_sectors h, read_sectorSize h, (read_sectorWord h).2, hblock,
    hdelete, hdepth, hqueued]
  rfl

end AtaDisk

/-! ## Runs -/

/-- The disk of `blockif_open` is one that the words can tell. -/
theorem RwCommand.OpenedAt.sound {base : U64} {bc : BlockifCtxt} (h : OpenedAt base bc) :
    SoundSectors bc := by
  have hsize : bc.bcSize = 0x00d00000 := congrArg BlockifCtxt.bcSize h
  have hsectsz : bc.bcSectsz = 512 := congrArg BlockifCtxt.bcSectsz h
  have hpsectsz : bc.bcPsectsz = 512 := congrArg BlockifCtxt.bcPsectsz h
  refine ⟨?_, ?_, ?_, ?_, .inl ?_⟩ <;> omega

/-- A table with room for the answer has an entry. -/
theorem prdtl_ne_zero {c : PortCtx} {slot : Slot} {cfis : U64} (h : 0 < (prdtAddrs c slot cfis).length) :
    c.prdtl slot ≠ 0 := by
  intro hz
  rw [prdtAddrs, hz] at h
  exact Nat.lt_irrefl 0 h

/-- **IDENTIFY DEVICE tells what the disk is.** In every state that the controller of a disk reaches, a
guest that posts the command with room for its answer finds the description of the disk in its
buffer, and the sectors that this tells of are all of the disk. -/
theorem identify_tells_disk {s : AhciSys} (hreach : Reaches AhciStep AhciInitial s)
    (hidle : s.serving = false) (hdisk : (s.dev.port 0).atapi = false) {slot : Slot} {cfis : U64}
    (h : CmdPosted (s.dev.ctx 0) slot cfis) (hcode : ataCmd ((s.dev.ctx 0).cfis cfis 2) = .ataIdentify)
    (hroom : 512 ≤ (prdtAddrs (s.dev.ctx 0) slot cfis).length) {fuel : Nat} (hfuel : 33 ≤ fuel) :
    ∃ t, pciAhciWrite fuel (fun _ => s.dev.blk.mem) s.dev 5 0x138 ((slotBit slot).setWidth 64) =
        .ok t ∧
      Reaches AhciStep AhciInitial { s with dev := t } ∧ (t.port 0).tfd = ataOk ∧
      AtaDisk.read (((prdtAddrs (s.dev.ctx 0) slot cfis).take 512).map t.blk.mem) =
        some (AtaDisk.behind (s.dev.ctx 0)) ∧
      (AtaDisk.behind (s.dev.ctx 0)).sectors * (AtaDisk.behind (s.dev.ctx 0)).sectorSize =
        s.dev.blk.bc.bcSize := by
  have hopened := RwCommand.opened_of_reaches hreach
  have hanswer : ahciAnswer (s.dev.ctx 0) slot cfis =
      some (.reply (s.dev.ctx 0) (identifyBuf (s.dev.ctx 0))) := by
    have hatapi : (s.dev.ctx 0).p.atapi = false := hdisk
    have hentry : ((s.dev.ctx 0).prdtl slot == 0) = false :=
      beq_eq_false_iff_ne.2 (prdtl_ne_zero (Nat.lt_of_lt_of_le (by decide) hroom))
    rw [ahciAnswer, hcode]
    dsimp only
    rw [hatapi, hentry]
    rfl
  obtain ⟨t, hwrite, hgiven⟩ := h.written hreach hanswer hfuel
  refine ⟨t, hwrite, .next hreach (.write fuel _ 5 0x138 _ hidle hwrite), hgiven.tfd, ?_, ?_⟩
  · have hread := AtaDisk.read_identifyBuf (c := s.dev.ctx 0) hopened.sound
    have hlen : (identifyBuf (s.dev.ctx 0)).length = 512 := by
      obtain ⟨ws, hws, -⟩ := identifyBuf_table (s.dev.ctx 0)
      rw [hws, length_checkedTable]
    have hbuf := hgiven.delivered _ rfl
    rw [hlen, List.take_of_length_le (hlen.trans_le hroom)] at hbuf
    rw [← hread]
    exact congrArg AtaDisk.read hbuf
  · have hsize : s.dev.blk.bc.bcSize = 0x00d00000 := congrArg BlockifCtxt.bcSize hopened
    have hsectsz : s.dev.blk.bc.bcSectsz = 512 := congrArg BlockifCtxt.bcSectsz hopened
    have hsectors : (AtaDisk.behind (s.dev.ctx 0)).sectors = s.dev.blk.bc.bcSize / s.dev.blk.bc.bcSectsz :=
      rfl
    have hsector : (AtaDisk.behind (s.dev.ctx 0)).sectorSize = s.dev.blk.bc.bcSectsz := rfl
    rw [hsectors, hsector, hsize, hsectsz]

/-- A guest that has its buffer at 0x8000. -/
theorem identify_tells_disk_buffer : ∃ (s : AhciSys) (t : Ahci),
    pciAhciWrite 33 (fun _ => s.dev.blk.mem) s.dev 5 0x138 ((slotBit 0).setWidth 64) = .ok t ∧
      AtaDisk.read ((Mem.addrs 0x8000#64 512).map t.blk.mem) = some (AtaDisk.behind (s.dev.ctx 0)) := by
  obtain ⟨s, hreach, hidle, hposted⟩ := identify_reaches
  have hdata := hposted.prdtAddrs
  have hasked := hposted.posted.1
  have hlen : (Mem.addrs 0x8000#64 512).length = 512 := Mem.length_addrs _ _
  obtain ⟨⟨-, -, -, hcode⟩, -, -, -, -, -, -, -, hdisk⟩ := hposted
  obtain ⟨t, hwrite, -, -, hread, -⟩ := identify_tells_disk hreach hidle hdisk hasked hcode
    (by rw [hdata, hlen]) (Nat.le_refl 33)
  rw [hdata, List.take_of_length_le (Nat.le_of_eq hlen)] at hread
  exact ⟨s, t, hwrite, hread⟩

end DeviceModel
