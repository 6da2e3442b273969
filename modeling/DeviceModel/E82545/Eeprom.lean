import DeviceModel.Library.ShiftRegister
import DeviceModel.E82545.Regs

/-!
# The EEPROM behind EECD

The guest drives a serial EEPROM through the pins in EECD: a bit is taken or shown at each
rising edge of SK with CS high. `SerialRom` is such an EEPROM by itself, fed with bits. The
registers `nvm_mode`, `nvm_bits`, `nvm_opaddr` and `nvm_data` implement it (`Implements`,
`eecdWrites_implements`), for every sequence of writes to EECD.
-/

namespace DeviceModel

/-! ## A serial EEPROM -/

/-- What the EEPROM is doing. -/
inductive SerialPhase : Type where
  /-- taking a command, of which it has seen some bits -/
  | command (seen : List Bool)
  /-- taking the word to store at `a` -/
  | store (a : BitVec 6) (seen : List Bool)
  /-- showing the bits that are left of a word -/
  | load (left : List Bool)

/-- The EEPROM: its phase, its words, and the bit that it shows. -/
structure SerialRom where
  phase : SerialPhase
  words : Nat → U16
  out : Bool

def serialREAD : BitVec 3 := 0b110#3
def serialWRITE : BitVec 3 := 0b101#3

namespace SerialRom

/-- What follows a command of three opcode and six address bits. -/
def decode (words : Nat → U16) (cmd : BitVec 9) : SerialPhase :=
  if cmd.extractLsb' 6 3 = serialREAD then .load (msbFirst (words (cmd.extractLsb' 0 6).toNat))
  else if cmd.extractLsb' 6 3 = serialWRITE then .store (cmd.extractLsb' 0 6) []
  else .command []

/-- The command with an opcode and an address. -/
theorem decode_append (words : Nat → U16) (op : BitVec 3) (a : BitVec 6) :
    decode words (op ++ a) =
      if op = serialREAD then .load (msbFirst (words a.toNat))
      else if op = serialWRITE then .store a []
      else .command [] := by
  have hop : @BitVec.extractLsb' 9 6 3 (op ++ a) = op := BitVec.extractLsb'_append_eq_left
  have haddr : @BitVec.extractLsb' 9 0 6 (op ++ a) = a := BitVec.extractLsb'_append_eq_right
  rw [decode, hop, haddr]

/-- One clock, with the bit on the input pin. -/
def clock (rom : SerialRom) (b : Bool) : SerialRom :=
  match rom.phase with
  | .command seen =>
    { rom with
      phase :=
        if seen.length < 8 then .command (seen ++ [b])
        else decode rom.words (shiftIns 0 (seen ++ [b])) }
  | .store a seen =>
    if seen.length < 15 then { rom with phase := .store a (seen ++ [b]) }
    else
      { rom with
        phase := .command []
        words := Function.update rom.words a.toNat (shiftIns 0 (seen ++ [b])) }
  | .load left =>
    { rom with
      phase := if left.length ≤ 1 then .command [] else .load left.tail
      out := left.headD false }

/-- The clocks of a sequence of bits. -/
def clocks (rom : SerialRom) (bs : List Bool) : SerialRom := bs.foldl clock rom

variable {words : Nat → U16} {out : Bool}

@[simp] theorem clock_command (seen : List Bool) (b : Bool) :
    clock ⟨.command seen, words, out⟩ b =
      ⟨if seen.length < 8 then .command (seen ++ [b]) else decode words (shiftIns 0 (seen ++ [b])),
        words, out⟩ := rfl

@[simp] theorem clock_store (a : BitVec 6) (seen : List Bool) (b : Bool) :
    clock ⟨.store a seen, words, out⟩ b =
      if seen.length < 15 then ⟨.store a (seen ++ [b]), words, out⟩
      else ⟨.command [], Function.update words a.toNat (shiftIns 0 (seen ++ [b])), out⟩ := rfl

@[simp] theorem clock_load (left : List Bool) (b : Bool) :
    clock ⟨.load left, words, out⟩ b =
      ⟨if left.length ≤ 1 then .command [] else .load left.tail, words, left.headD false⟩ := rfl

theorem clocks_append (rom : SerialRom) (bs cs : List Bool) :
    rom.clocks (bs ++ cs) = (rom.clocks bs).clocks cs := List.foldl_append

theorem clocks_snoc (rom : SerialRom) (bs : List Bool) (b : Bool) :
    rom.clocks (bs ++ [b]) = (rom.clocks bs).clock b := clocks_append rom bs [b]

/-- Clocks that only collect, up to `n` of them. -/
theorem clocks_fill {phase : List Bool → SerialRom} {n : Nat}
    (hfill : ∀ seen b, seen.length < n → (phase seen).clock b = phase (seen ++ [b]))
    (bs : List Bool) (hbs : bs.length ≤ n) : (phase []).clocks bs = phase bs := by
  induction bs using List.reverseRecOn with
  | nil => rfl
  | append_singleton bs b ih =>
    rw [List.length_append, List.length_singleton] at hbs
    rw [clocks_snoc, ih (Nat.le_of_succ_le hbs), hfill bs b hbs]

/-- The clock after these. -/
theorem clocks_full {phase : List Bool → SerialRom} {n : Nat}
    (hfill : ∀ seen b, seen.length < n → (phase seen).clock b = phase (seen ++ [b]))
    {bs : List Bool} (hbs : bs.length = n + 1) :
    ∃ init b, bs = init ++ [b] ∧ init.length = n ∧
      (phase []).clocks bs = (phase init).clock b := by
  rcases List.eq_nil_or_concat' bs with rfl | ⟨init, b, rfl⟩
  · cases hbs
  · rw [List.length_append, List.length_singleton] at hbs
    have hinit := Nat.succ.inj hbs
    exact ⟨init, b, rfl, hinit, by rw [clocks_snoc, clocks_fill hfill init hinit.le]⟩

/-- A command is taken up to its last bit. -/
theorem clock_command_lt (seen : List Bool) (b : Bool) (h : seen.length < 8) :
    clock ⟨.command seen, words, out⟩ b = ⟨.command (seen ++ [b]), words, out⟩ := by
  rw [clock_command, if_pos h]

/-- The last bit of a command ends it. -/
theorem clocks_decode {bs : List Bool} (hbs : bs.length = 9) :
    clocks ⟨.command [], words, out⟩ bs = ⟨decode words (shiftIns 0 bs), words, out⟩ := by
  obtain ⟨init, b, rfl, hinit, hclocks⟩ := clocks_full clock_command_lt hbs
  rw [hclocks, clock_command, if_neg hinit.not_lt]

/-- A word is taken up to its last bit. -/
theorem clock_store_lt (a : BitVec 6) (seen : List Bool) (b : Bool) (h : seen.length < 15) :
    clock ⟨.store a seen, words, out⟩ b = ⟨.store a (seen ++ [b]), words, out⟩ := by
  rw [clock_store, if_pos h]

/-- The last bit of a word stores it. -/
theorem clocks_stored (a : BitVec 6) {bs : List Bool} (hbs : bs.length = 16) :
    clocks ⟨.store a [], words, out⟩ bs =
      ⟨.command [], Function.update words a.toNat (shiftIns 0 bs), out⟩ := by
  obtain ⟨init, b, rfl, hinit, hclocks⟩ := clocks_full (clock_store_lt a) hbs
  rw [hclocks, clock_store, if_neg hinit.not_lt]

/-- The bit on show after some clocks, if any. -/
def shown (out : Bool) (word bs : List Bool) : Bool :=
  if bs = [] then out else word.getD (bs.length - 1) false

/-- A word is shown bit by bit, whatever is on the input pin. -/
theorem clocks_load {word : List Bool} (bs : List Bool) (hbs : bs.length < word.length) :
    clocks ⟨.load word, words, out⟩ bs =
      ⟨.load (word.drop bs.length), words, shown out word bs⟩ := by
  induction bs using List.reverseRecOn with
  | nil => rfl
  | append_singleton bs b ih =>
    rw [List.length_append, List.length_singleton] at hbs
    rw [clocks_snoc, ih (Nat.lt_of_succ_lt hbs)]
    simp [shown, List.getD_eq_getElem?_getD, show ¬ word.length - bs.length ≤ 1 by omega]

/-- Its last bit ends it. -/
theorem clocks_loaded {word bs : List Bool} (hbs : bs.length = word.length) (hword : word ≠ []) :
    clocks ⟨.load word, words, out⟩ bs = ⟨.command [], words, shown out word bs⟩ := by
  have hpos : 0 < word.length := List.length_pos_of_ne_nil hword
  rcases List.eq_nil_or_concat' bs with rfl | ⟨init, b, rfl⟩
  · exact absurd hbs (Nat.ne_of_lt hpos)
  · rw [List.length_append, List.length_singleton] at hbs
    rw [clocks_snoc, clocks_load init (by omega)]
    simp [shown, List.getD_eq_getElem?_getD, show word.length - init.length ≤ 1 by omega]

/-- **Store.** The opcode, an address and a word put the word there. -/
theorem clocks_write (a : BitVec 6) (w : U16) :
    clocks ⟨.command [], words, out⟩ (msbFirst serialWRITE ++ msbFirst a ++ msbFirst w) =
      ⟨.command [], Function.update words a.toNat w, out⟩ := by
  have hcmd : shiftIns 0 (msbFirst serialWRITE ++ msbFirst a) = serialWRITE ++ a := by
    rw [← msbFirst_append, shiftIns_msbFirst]
  have hdecode : decode words (serialWRITE ++ a) = .store a [] := decode_append words serialWRITE a
  rw [clocks_append, clocks_decode (by simp), hcmd, hdecode, clocks_stored a (by simp),
    shiftIns_msbFirst]

/-- **Load.** The opcode and an address put the bits of the word there on show. -/
theorem clocks_read (a : BitVec 6) (bs : List Bool) :
    clocks ⟨.command [], words, out⟩ (msbFirst serialREAD ++ msbFirst a ++ bs) =
      clocks ⟨.load (msbFirst (words a.toNat)), words, out⟩ bs := by
  have hcmd : shiftIns 0 (msbFirst serialREAD ++ msbFirst a) = serialREAD ++ a := by
    rw [← msbFirst_append, shiftIns_msbFirst]
  have hdecode : decode words (serialREAD ++ a) = .load (msbFirst (words a.toNat)) :=
    decode_append words serialREAD a
  rw [clocks_append, clocks_decode (by simp), hcmd, hdecode]

end SerialRom

/-! ## The pins -/

/-- The pins SK, CS, DI and DO of EECD. -/
def eecdSK (control : U32) : Bool := control.getLsbD 0
def eecdCS (control : U32) : Bool := control.getLsbD 1
def eecdDI (control : U32) : Bool := control.getLsbD 2
def eecdDO (control : U32) : Bool := control.getLsbD 3

/-- `eeprom_control` after a write and before the strobe. -/
def eecdControl (control value : U32) : U32 :=
  let mask := e1000EecdSK ||| e1000EecdCS ||| e1000EecdDI ||| e1000EecdREQ
  let control := (control &&& ~~~mask) ||| (value &&& mask)
  if value &&& e1000EecdREQ ≠ 0 then control ||| e1000EecdGNT else control &&& ~~~e1000EecdGNT

/-- A write lets SK rise with CS high. -/
def eecdRises (sk : Bool) (value : U32) : Bool := !sk && eecdSK value && eecdCS value

/-- The guest drives SK, CS and DI, and not DO. -/
theorem eecdControl_pins (control value : U32) :
    eecdSK (eecdControl control value) = eecdSK value ∧
      eecdCS (eecdControl control value) = eecdCS value ∧
      eecdDI (eecdControl control value) = eecdDI value ∧
      eecdDO (eecdControl control value) = eecdDO control := by
  rw [eecdControl]
  split <;>
    simp [eecdSK, eecdCS, eecdDI, eecdDO, e1000EecdSK, e1000EecdCS, e1000EecdDI, e1000EecdREQ,
      e1000EecdGNT]

/-- A write to EECD drives the pins, and strobes where SK rises with CS high. -/
theorem e82545WriteEecd_eq (nvm : E82545Nvm) (value : U32) :
    e82545WriteEecd nvm value =
      if eecdRises (eecdSK nvm.eepromControl) value then
        e82545EecdStrobe { nvm with eepromControl := eecdControl nvm.eepromControl value }
      else { nvm with eepromControl := eecdControl nvm.eepromControl value } := by
  have hSK : ∀ x : U32, x &&& e1000EecdSK ≠ 0 ↔ eecdSK x = true := fun x =>
    @and_twoPow_ne_zero 32 x 0 (by decide)
  have hCS : ∀ x : U32, x &&& e1000EecdCS ≠ 0 ↔ eecdCS x = true := fun x =>
    @and_twoPow_ne_zero 32 x 1 (by decide)
  obtain ⟨-, hcs, -, -⟩ := eecdControl_pins nvm.eepromControl value
  have hrises : ((if nvm.eepromControl &&& e1000EecdSK ≠ 0 then 0 else value &&& e1000EecdSK) ≠ 0 ∧
      eecdControl nvm.eepromControl value &&& e1000EecdCS ≠ 0) ↔
      eecdRises (eecdSK nvm.eepromControl) value = true := by
    rw [hCS, hcs, eecdRises]
    by_cases hsk : nvm.eepromControl &&& e1000EecdSK ≠ 0
    · rw [if_pos hsk, (hSK _).1 hsk]
      simp
    · have hlow : eecdSK nvm.eepromControl = false := by
        rw [hSK] at hsk
        simpa using hsk
      rw [if_neg hsk, hSK value, hlow]
      simp
  exact if_congr hrises rfl rfl

/-- The bits that a sequence of writes clocks in. -/
def eecdClocks : (sk : Bool) → List U32 → List Bool
  | _, [] => []
  | sk, value :: ws =>
    if eecdRises sk value then eecdDI value :: eecdClocks (eecdSK value) ws
    else eecdClocks (eecdSK value) ws

/-! ## The registers implement it -/

/-- The registers are at a phase of the EEPROM. -/
def SerialPhase.At (nvm : E82545Nvm) : SerialPhase → Prop
  | .command seen =>
    seen.length < 9 ∧ nvm.nvmMode = .opaddr ∧ nvm.nvmBits = 9 - seen.length ∧
      nvm.nvmOpaddr = shiftIns 0 seen
  | .store a seen =>
    seen.length < 16 ∧ nvm.nvmMode = .datain ∧ nvm.nvmBits = 16 - seen.length ∧
      nvm.nvmOpaddr = (serialWRITE ++ a).setWidth 16 ∧ nvm.nvmData = shiftIns 0 seen
  | .load left =>
    left ≠ [] ∧ left.length ≤ 16 ∧ nvm.nvmMode = .dataout ∧ nvm.nvmBits = left.length ∧
      ∀ k, nvm.nvmData.getMsbD k = left.getD k false

/-- The registers and the memory implement the EEPROM. -/
structure Implements (nvm : E82545Nvm) (rom : SerialRom) : Prop where
  words : nvm.eepromData = rom.words
  out : eecdDO nvm.eepromControl = rom.out
  phase : rom.phase.At nvm

/-- In the opcode mode, with nothing shifted in yet. -/
def E82545Nvm.Idle (nvm : E82545Nvm) : Prop :=
  nvm.nvmMode = .opaddr ∧ nvm.nvmBits = 9 ∧ nvm.nvmOpaddr = 0

theorem E82545Nvm.nvmIdle_idle (nvm : E82545Nvm) : nvm.nvmIdle.Idle := ⟨rfl, rfl, rfl⟩

theorem at_command_nil {nvm : E82545Nvm} : (SerialPhase.command []).At nvm ↔ nvm.Idle := by
  simp [SerialPhase.At, E82545Nvm.Idle]

/-- Shift left and put DI below. -/
theorem shift_nvmDI (nvm : E82545Nvm) (x : U16) :
    x <<< 1 ||| nvm.nvmDI = x.shiftConcat (eecdDI nvm.eepromControl) := by
  have hDI : nvm.eepromControl &&& e1000EecdDI ≠ 0 ↔ eecdDI nvm.eepromControl = true :=
    @and_twoPow_ne_zero 32 nvm.eepromControl 2 (by decide)
  apply BitVec.eq_of_getLsbD_eq
  intro i hi
  rw [E82545Nvm.nvmDI, BitVec.getLsbD_shiftConcat, BitVec.getLsbD_or, BitVec.getLsbD_shiftLeft]
  cases hb : eecdDI nvm.eepromControl with
  | true =>
    rw [if_pos (hDI.2 hb)]
    cases i <;> simp [hi]
  | false =>
    rw [if_neg (by rw [hDI, hb]; decide)]
    cases i <;> simp [hi]

/-- The masks of the source cut a command as `decode` does. -/
theorem opaddr_masks (cmd : BitVec 9) :
    (cmd.setWidth 16 &&& nvmOpcodeMask = nvmOpcodeREAD ↔ cmd.extractLsb' 6 3 = serialREAD) ∧
      (cmd.setWidth 16 &&& nvmOpcodeMask = nvmOpcodeWRITE ↔ cmd.extractLsb' 6 3 = serialWRITE) ∧
      (cmd.setWidth 16 &&& nvmAddrMask).toNat = (cmd.extractLsb' 0 6).toNat ∧
      cmd = cmd.extractLsb' 6 3 ++ cmd.extractLsb' 0 6 := by
  revert cmd
  decide +kernel

section Strobe

variable {nvm : E82545Nvm} {n : Nat}

/-- A bit of a command that is not its last. -/
theorem strobe_opaddr (hmode : nvm.nvmMode = .opaddr) (hbits : nvm.nvmBits = n + 2) :
    e82545EecdStrobe nvm = { nvm with
      nvmBits := n + 1, nvmOpaddr := nvm.nvmOpaddr.shiftConcat (eecdDI nvm.eepromControl) } := by
  rw [← shift_nvmDI]
  simp only [e82545EecdStrobe, hmode, hbits]
  rfl

/-- The last bit of a command. -/
theorem strobe_opaddr_last {cmd : BitVec 9} (hmode : nvm.nvmMode = .opaddr)
    (hbits : nvm.nvmBits = 1)
    (hcmd : nvm.nvmOpaddr.shiftConcat (eecdDI nvm.eepromControl) = cmd.setWidth 16) :
    (e82545EecdStrobe nvm).eepromData = nvm.eepromData ∧
      (e82545EecdStrobe nvm).eepromControl = nvm.eepromControl ∧
      (SerialRom.decode nvm.eepromData cmd).At (e82545EecdStrobe nvm) := by
  obtain ⟨hread, hwrite, haddr, hsplit⟩ := opaddr_masks cmd
  have hlt : (cmd.extractLsb' 0 6).toNat < 64 := (cmd.extractLsb' 0 6).isLt
  have hdispatch : e82545EecdStrobe nvm =
      if cmd.extractLsb' 6 3 = serialREAD then
        { nvm with
          nvmOpaddr := cmd.setWidth 16, nvmMode := .dataout, nvmBits := 16
          nvmData := nvm.eepromData (cmd.extractLsb' 0 6).toNat }
      else if cmd.extractLsb' 6 3 = serialWRITE then
        { nvm with nvmOpaddr := cmd.setWidth 16, nvmMode := .datain, nvmBits := 16, nvmData := 0 }
      else { nvm with nvmBits := 0, nvmOpaddr := cmd.setWidth 16 }.nvmIdle := by
    rw [← hcmd, ← shift_nvmDI] at hread hwrite haddr ⊢
    simp only [e82545EecdStrobe, E82545Nvm.nvmDI, hmode, hbits] at hread hwrite haddr ⊢
    simp only [Nat.one_ne_zero, if_false, if_true, hread, hwrite, haddr, hlt]
  rw [hdispatch, SerialRom.decode]
  split
  · refine ⟨rfl, rfl, ?_, by simp, rfl, by simp, ?_⟩
    · intro h
      have hlen := congrArg List.length h
      simp at hlen
    · intro k
      rw [getD_msbFirst]
  · split
    · next hw =>
      refine ⟨rfl, rfl, by decide, rfl, rfl, ?_, rfl⟩
      rw [← hw, ← hsplit]
    · exact ⟨rfl, rfl, at_command_nil.2 (E82545Nvm.nvmIdle_idle _)⟩

/-- A bit of a word that is not its last. -/
theorem strobe_datain (hmode : nvm.nvmMode = .datain) (hbits : nvm.nvmBits = n + 2) :
    e82545EecdStrobe nvm = { nvm with
      nvmBits := n + 1, nvmData := nvm.nvmData.shiftConcat (eecdDI nvm.eepromControl) } := by
  rw [← shift_nvmDI]
  simp only [e82545EecdStrobe, hmode, hbits]
  rfl

/-- The last bit of a word. -/
theorem strobe_datain_last {a : BitVec 6} (hmode : nvm.nvmMode = .datain) (hbits : nvm.nvmBits = 1)
    (hop : nvm.nvmOpaddr = (serialWRITE ++ a).setWidth 16) :
    (e82545EecdStrobe nvm).Idle ∧
      (e82545EecdStrobe nvm).eepromControl = nvm.eepromControl ∧
      (e82545EecdStrobe nvm).eepromData = Function.update nvm.eepromData a.toNat
        (nvm.nvmData.shiftConcat (eecdDI nvm.eepromControl)) := by
  obtain ⟨-, hwrite, haddr, -⟩ := opaddr_masks (serialWRITE ++ a)
  have hcut : @BitVec.extractLsb' 9 6 3 (serialWRITE ++ a) = serialWRITE :=
    BitVec.extractLsb'_append_eq_left
  have hcut' : @BitVec.extractLsb' 9 0 6 (serialWRITE ++ a) = a :=
    BitVec.extractLsb'_append_eq_right
  have hopcode : nvm.nvmOpaddr &&& nvmOpcodeMask = nvmOpcodeWRITE := by
    rw [hop]
    exact hwrite.2 hcut
  have haddress : (nvm.nvmOpaddr &&& nvmAddrMask).toNat = a.toNat := by
    rw [hop]
    exact haddr.trans (congrArg BitVec.toNat hcut')
  have hlt : ¬ 64 ≤ a.toNat := Nat.not_le.2 a.isLt
  rw [← shift_nvmDI]
  simp only [e82545EecdStrobe, E82545Nvm.nvmDI, hmode, hbits]
  simp only [Nat.one_ne_zero, if_false, if_true, ne_eq, hopcode, not_true_eq_false, haddress, hlt]
  exact ⟨E82545Nvm.nvmIdle_idle _, rfl, rfl⟩

/-- The DO pin after a strobe that shows the bit `b`. -/
def eecdShow (control : U32) (b : Bool) : U32 :=
  if b then control ||| e1000EecdDO else control &&& ~~~e1000EecdDO

theorem eecdShow_pins (control : U32) (b : Bool) :
    eecdSK (eecdShow control b) = eecdSK control ∧ eecdDO (eecdShow control b) = b := by
  cases b <;> simp [eecdShow, eecdSK, eecdDO, e1000EecdDO]

/-- A bit of a word on show. -/
theorem strobe_dataout (hmode : nvm.nvmMode = .dataout) (hbits : nvm.nvmBits = n + 1) :
    e82545EecdStrobe nvm =
      if n = 0 then
        { nvm with
          nvmBits := 0, nvmData := nvm.nvmData <<< 1
          eepromControl := eecdShow nvm.eepromControl (nvm.nvmData.getMsbD 0) }.nvmIdle
      else
        { nvm with
          nvmBits := n, nvmData := nvm.nvmData <<< 1
          eepromControl := eecdShow nvm.eepromControl (nvm.nvmData.getMsbD 0) } := by
  have hmsb : nvm.nvmData &&& 0x8000#16 ≠ 0 ↔ nvm.nvmData.getMsbD 0 = true :=
    @and_twoPow_ne_zero 16 nvm.nvmData 15 (by decide)
  have hshow : (if nvm.nvmData &&& 0x8000#16 ≠ 0 then nvm.eepromControl ||| e1000EecdDO
      else nvm.eepromControl &&& ~~~e1000EecdDO) =
      eecdShow nvm.eepromControl (nvm.nvmData.getMsbD 0) := if_congr hmsb rfl rfl
  simp only [e82545EecdStrobe, hmode, hbits, hshow]
  cases n <;> rfl

end Strobe

/-- **Simulation, one strobe.** -/
theorem strobe_implements {nvm : E82545Nvm} {rom : SerialRom} (h : Implements nvm rom) :
    Implements (e82545EecdStrobe nvm) (rom.clock (eecdDI nvm.eepromControl)) ∧
      eecdSK (e82545EecdStrobe nvm).eepromControl = eecdSK nvm.eepromControl := by
  obtain ⟨hwords, hout, hphase⟩ := h
  obtain ⟨phase, words, out⟩ := rom
  dsimp only at hwords hout hphase
  cases phase with
  | command seen =>
    obtain ⟨hlen, hmode, hbits, hop⟩ := hphase
    by_cases hmore : seen.length < 8
    · have hstrobe := strobe_opaddr hmode (show nvm.nvmBits = 7 - seen.length + 2 by omega)
      have hbits' : 7 - seen.length + 1 = 9 - (seen ++ [eecdDI nvm.eepromControl]).length := by
        simp
        omega
      rw [hstrobe, SerialRom.clock_command, if_pos hmore]
      refine ⟨⟨hwords, hout, by simpa using Nat.succ_lt_succ hmore, hmode, hbits', ?_⟩, rfl⟩
      rw [shiftIns_snoc, ← hop]
    · have hcmd : nvm.nvmOpaddr.shiftConcat (eecdDI nvm.eepromControl) =
          (shiftIns (0#9) (seen ++ [eecdDI nvm.eepromControl])).setWidth 16 := by
        rw [hop, ← shiftIns_snoc]
        apply shiftIns_setWidth
        simp
        omega
      obtain ⟨hdata, hcontrol, hat⟩ := strobe_opaddr_last hmode (by omega) hcmd
      rw [SerialRom.clock_command, if_neg hmore, hcontrol]
      exact ⟨⟨hdata.trans hwords, by rw [hcontrol, hout], hwords ▸ hat⟩, rfl⟩
  | store a seen =>
    obtain ⟨hlen, hmode, hbits, hop, hdata⟩ := hphase
    by_cases hmore : seen.length < 15
    · have hstrobe := strobe_datain hmode (show nvm.nvmBits = 14 - seen.length + 2 by omega)
      have hbits' : 14 - seen.length + 1 = 16 - (seen ++ [eecdDI nvm.eepromControl]).length := by
        simp
        omega
      rw [hstrobe, SerialRom.clock_store, if_pos hmore]
      refine ⟨⟨hwords, hout, by simpa using Nat.succ_lt_succ hmore, hmode, hbits', hop, ?_⟩, rfl⟩
      rw [shiftIns_snoc, ← hdata]
    · obtain ⟨hidle, hcontrol, hdata'⟩ := strobe_datain_last hmode (by omega) hop
      rw [SerialRom.clock_store, if_neg hmore, hcontrol]
      refine ⟨⟨?_, by rw [hcontrol, hout], at_command_nil.2 hidle⟩, rfl⟩
      rw [hdata', hwords, hdata, shiftIns_snoc]
  | load left =>
    obtain ⟨hne, hlen, hmode, hbits, hdata⟩ := hphase
    obtain ⟨b, left, rfl⟩ := List.exists_cons_of_ne_nil hne
    have hb : nvm.nvmData.getMsbD 0 = b := hdata 0
    rw [strobe_dataout hmode hbits, SerialRom.clock_load, hb]
    obtain ⟨hsk, hdo⟩ := eecdShow_pins nvm.eepromControl b
    by_cases hlast : left = []
    · rw [hlast]
      exact ⟨⟨hwords, hdo, at_command_nil.2 (E82545Nvm.nvmIdle_idle _)⟩, hsk⟩
    · have hpos : left.length ≠ 0 := fun h => hlast (List.eq_nil_of_length_eq_zero h)
      rw [if_neg hpos]
      refine ⟨⟨hwords, hdo, ?_⟩, hsk⟩
      have hle : ¬ (b :: left).length ≤ 1 := by
        rw [List.length_cons]
        omega
      dsimp only
      rw [if_neg hle]
      refine ⟨hlast, Nat.le_of_succ_le hlen, hmode, rfl, fun k => ?_⟩
      rw [BitVec.getMsbD_shiftLeft, hdata]
      rfl

/-- **Simulation, one write.** -/
theorem e82545WriteEecd_implements {nvm : E82545Nvm} {rom : SerialRom} (h : Implements nvm rom)
    (value : U32) :
    Implements (e82545WriteEecd nvm value)
        (if eecdRises (eecdSK nvm.eepromControl) value then rom.clock (eecdDI value) else rom) ∧
      eecdSK (e82545WriteEecd nvm value).eepromControl = eecdSK value := by
  obtain ⟨hsk, -, hdi, hdo⟩ := eecdControl_pins nvm.eepromControl value
  have hdriven :
      Implements { nvm with eepromControl := eecdControl nvm.eepromControl value } rom := by
    refine ⟨h.words, hdo.trans h.out, ?_⟩
    obtain ⟨phase, words, out⟩ := rom
    cases phase <;> exact h.phase
  rw [e82545WriteEecd_eq]
  split
  · obtain ⟨himpl, hsk'⟩ := strobe_implements hdriven
    rw [← hdi, hsk']
    exact ⟨himpl, hsk⟩
  · exact ⟨hdriven, hsk⟩

/-- The guest writes to EECD, again and again. -/
def eecdWrites (nvm : E82545Nvm) (ws : List U32) : E82545Nvm := ws.foldl e82545WriteEecd nvm

/-- That is what the writes do to the device. -/
theorem foldlM_e82545WriteReg_eecd (fuel : Nat) (ws : List U32) : ∀ sc : E82545Softc,
    ws.foldlM (fun sc value => e82545WriteReg fuel sc .eecd value) sc =
      .ok { sc with nvm := eecdWrites sc.nvm ws } := by
  induction ws with
  | nil => intro sc; rfl
  | cons value ws ih =>
    intro sc
    rw [List.foldlM_cons]
    exact ih { sc with nvm := e82545WriteEecd sc.nvm value }

/-- **Simulation.** -/
theorem eecdWrites_implements (ws : List U32) : ∀ {nvm : E82545Nvm} {rom : SerialRom},
    Implements nvm rom →
      Implements (eecdWrites nvm ws) (rom.clocks (eecdClocks (eecdSK nvm.eepromControl) ws)) := by
  induction ws with
  | nil => intro nvm rom h; exact h
  | cons value ws ih =>
    intro nvm rom h
    obtain ⟨himpl, hsk⟩ := e82545WriteEecd_implements h value
    have hrest := ih himpl
    rw [hsk] at hrest
    rw [eecdClocks, eecdWrites, List.foldl_cons]
    split
    · next hrises =>
      rw [if_pos hrises] at hrest
      exact hrest
    · next hstays =>
      rw [if_neg hstays] at hrest
      exact hrest

/-! ## A faithful memory -/

/-- The bits of a transfer in a mode. -/
def NvmMode.width : NvmMode → Nat
  | opaddr => 9
  | datain => 16
  | dataout => 16

/-- In each phase there is a bit to go. -/
theorem SerialPhase.At.bits {nvm : E82545Nvm} {phase : SerialPhase} (h : phase.At nvm) :
    1 ≤ nvm.nvmBits ∧ nvm.nvmBits ≤ nvm.nvmMode.width := by
  cases phase with
  | command seen =>
    obtain ⟨hlen, hmode, hbits, -⟩ := h
    rw [hmode, hbits, NvmMode.width]
    omega
  | store a seen =>
    obtain ⟨hlen, hmode, hbits, -, -⟩ := h
    rw [hmode, hbits, NvmMode.width]
    omega
  | load left =>
    obtain ⟨hne, hlen, hmode, hbits, -⟩ := h
    rw [hmode, hbits, NvmMode.width]
    exact ⟨List.length_pos_of_ne_nil hne, hlen⟩

/-- The EEPROM at rest, with the memory and the DO pin of the registers. -/
def restingRom (nvm : E82545Nvm) : SerialRom :=
  ⟨.command [], nvm.eepromData, eecdDO nvm.eepromControl⟩

theorem restingRom_implemented {nvm : E82545Nvm} (h : nvm.Idle) : Implements nvm (restingRom nvm) :=
  ⟨rfl, rfl, at_command_nil.2 h⟩

/-- **A faithful memory.** From reset there is always a bit to go. From the opcode state a
WRITE stores its word at its address and nothing else, and a READ shows the word there bit
by bit and stores nothing; after their last bits both are back. A write to EECD that does
not let SK rise with CS high changes its control register at most. -/
theorem eeprom_faithful :
    (∀ (sc : E82545Softc) (ws : List U32),
      1 ≤ (eecdWrites (e82545ResetNvm sc).nvm ws).nvmBits ∧
        (eecdWrites (e82545ResetNvm sc).nvm ws).nvmBits ≤
          (eecdWrites (e82545ResetNvm sc).nvm ws).nvmMode.width) ∧
    (∀ nvm : E82545Nvm, nvm.Idle → ∀ (a : BitVec 6) (w : U16) (ws : List U32),
      eecdClocks (eecdSK nvm.eepromControl) ws =
          msbFirst serialWRITE ++ msbFirst a ++ msbFirst w →
        (eecdWrites nvm ws).Idle ∧
          (eecdWrites nvm ws).eepromData = Function.update nvm.eepromData a.toNat w) ∧
    (∀ nvm : E82545Nvm, nvm.Idle → ∀ (a : BitVec 6) (bs : List Bool) (ws : List U32),
      bs.length ≤ 16 →
      eecdClocks (eecdSK nvm.eepromControl) ws = msbFirst serialREAD ++ msbFirst a ++ bs →
        (eecdWrites nvm ws).eepromData = nvm.eepromData ∧
          (bs ≠ [] → eecdDO (eecdWrites nvm ws).eepromControl =
            (nvm.eepromData a.toNat).getMsbD (bs.length - 1)) ∧
          (bs.length = 16 → (eecdWrites nvm ws).Idle)) ∧
    (∀ (nvm : E82545Nvm) (value : U32), eecdRises (eecdSK nvm.eepromControl) value = false →
      e82545WriteEecd nvm value =
        { nvm with eepromControl := eecdControl nvm.eepromControl value }) := by
  refine ⟨?_, ?_, ?_, ?_⟩
  · intro sc ws
    have hreset : (e82545ResetNvm sc).nvm.Idle := ⟨rfl, rfl, rfl⟩
    exact (eecdWrites_implements ws (restingRom_implemented hreset)).phase.bits
  · intro nvm hidle a w ws hws
    have himpl := eecdWrites_implements ws (restingRom_implemented hidle)
    rw [hws, restingRom, SerialRom.clocks_write] at himpl
    exact ⟨at_command_nil.1 himpl.phase, himpl.words⟩
  · intro nvm hidle a bs ws hlen hws
    have himpl := eecdWrites_implements ws (restingRom_implemented hidle)
    rw [hws, restingRom, SerialRom.clocks_read] at himpl
    have hshown : bs ≠ [] →
        SerialRom.shown (eecdDO nvm.eepromControl) (msbFirst (nvm.eepromData a.toNat)) bs =
          (nvm.eepromData a.toNat).getMsbD (bs.length - 1) := by
      intro hbs
      rw [SerialRom.shown, if_neg hbs, getD_msbFirst]
    by_cases hlast : bs.length = 16
    · rw [SerialRom.clocks_loaded (by simpa using hlast) (by simp [msbFirst])] at himpl
      exact ⟨himpl.words, fun hbs => himpl.out.trans (hshown hbs),
        fun _ => at_command_nil.1 himpl.phase⟩
    · rw [SerialRom.clocks_load bs (by simp; omega)] at himpl
      exact ⟨himpl.words, fun hbs => himpl.out.trans (hshown hbs), fun h => absurd h hlast⟩
  · intro nvm value hstays
    rw [e82545WriteEecd_eq, hstays]
    rfl

/-- The pins CS and DI as a guest drives them for a bit. -/
def bitPins (b : Bool) : U32 := if b then e1000EecdCS ||| e1000EecdDI else e1000EecdCS

/-- The writes of a guest that clocks bits in: each with SK low, then with SK high. -/
def clockIn : List Bool → List U32
  | [] => []
  | b :: bs => bitPins b :: (bitPins b ||| e1000EecdSK) :: clockIn bs

theorem eecdClocks_clockIn (bs : List Bool) : ∀ sk : Bool, eecdClocks sk (clockIn bs) = bs := by
  induction bs with
  | nil => intro sk; rfl
  | cons b bs ih =>
    intro sk
    cases b <;> simp [clockIn, bitPins, eecdClocks, eecdRises, eecdSK, eecdCS, eecdDI, e1000EecdSK,
      e1000EecdCS, e1000EecdDI, ih]

/-- The word at address 5 after reset and a WRITE there. -/
theorem eeprom_faithful_five :
    (eecdWrites (e82545Init ⟨0⟩).nvm
        (clockIn (msbFirst serialWRITE ++ msbFirst 5#6 ++ msbFirst 0xABCD#16))).eepromData 5 =
      0xABCD := by
  have hidle : (e82545Init ⟨0⟩).nvm.Idle := ⟨rfl, rfl, rfl⟩
  obtain ⟨-, hdata⟩ := eeprom_faithful.2.1 _ hidle 5#6 0xABCD#16 _ (eecdClocks_clockIn _ _)
  rw [hdata]
  exact Function.update_self _ _ _

end DeviceModel
