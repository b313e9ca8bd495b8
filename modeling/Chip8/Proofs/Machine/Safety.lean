import Chip8.Proofs.Machine.Checked

/-!
# No check fails

On a machine with a memory and a screen that has pixels, every operation that checks itself does what
the total one does (`Checked.execute?_eq`, `Checked.operate?_eq`).  Every machine that a host can
reach is of this kind, so none of the host's operations ever reaches outside an array or overflows
(`Checked.run?_eq`).

* `resetMemory?_eq` needs the link between the loaded program, its origin and the memory.
* `drawRows?_eq` needs the link between the dimensions of the screen and its pixels.
* Everything else needs a memory that is not empty.
-/

namespace Chip8.Checked

/-! ## Arithmetic and arrays -/

/-- What is counted from an address or a coordinate stays far below the limit. -/
theorem lt_addressLimit {a : Nat} (h : a < 2 * 65536) : a < addressLimit := by
  unfold addressLimit
  omega

theorem add?_eq {limit a b : Nat} (h : a + b < limit) : add? limit a b = some (a + b) := if_pos h

theorem mul?_eq {limit a b : Nat} (h : a * b < limit) : mul? limit a b = some (a * b) := if_pos h

theorem sub?_eq {a b : Nat} (h : b ≤ a) : sub? a b = some (a - b) := if_pos h

theorem mod?_eq {a b : Nat} (h : 0 < b) : mod? a b = some (a % b) := if_neg (Nat.ne_of_gt h)

theorem shiftRight?_eq {value : UInt8} {places : Nat} (h : places < 8) :
    shiftRight? value places = some (value >>> places.toUInt8) := if_pos h

theorem set?_eq {α : Type} {elements : Array α} {place : Nat} (h : place < elements.size)
    (value : α) : set? elements place value = some (elements.setIfInBounds place value) := if_pos h

theorem copyInto?_eq {target source : Array UInt8} {start : Nat}
    (h : start + source.size ≤ target.size) (hlimit : target.size < addressLimit) :
    copyInto? target start source = some (Array.ofFn fun (place : Fin target.size) =>
      if start ≤ place ∧ place < start + source.size then source.getD (place - start) 0
      else target[place]) := by
  rw [copyInto?, add?_eq (by omega)]
  exact if_pos h

/-! ## Memory -/

theorem size_font : Font.bytes.size = Font.size := by decide

/-- The two slices that a reset copies fit into the memory, and what they leave is the image. -/
theorem resetMemory?_eq {m : Machine} (hfont : Font.size ≤ m.memory.size)
    (hprogram : m.origin.toNat + m.program.size ≤ m.memory.size)
    (hlimit : m.memory.size < addressLimit) :
    resetMemory? m = some (Machine.image m.memory.size m.program m.origin.toNat) := by
  have hsize : 0 + Font.bytes.size ≤ (Array.replicate m.memory.size (0 : UInt8)).size := by
    rw [size_font, Array.size_replicate]
    omega
  simp only [resetMemory?]
  rw [copyInto?_eq hsize (by simpa using hlimit), Option.bind_eq_bind, Option.bind_some,
    copyInto?_eq (by simpa using hprogram) (by simpa using hlimit)]
  refine congrArg some (Array.ext (by simp [Machine.image]) fun place hplace hplace' => ?_)
  simp only [Machine.image, Array.getElem_ofFn, Fin.getElem_fin, Array.getElem_replicate]
  split
  · rfl
  · split
    · rfl
    · -- Behind both slices stand the zeroes, which the image gives as bytes that the font lacks.
      rename_i hbehind
      have hplace : Font.bytes.size ≤ place := by omega
      simp [Array.getD, hplace]

theorem reset?_eq {m : Machine} (h : m.Sound) : reset? m = some m.reset := by
  have hfont := h.font_lt_size_memory
  have hsize := h.size_memory_le
  have hlimit : m.memory.size < addressLimit := lt_addressLimit (by omega)
  rw [reset?, resetMemory?_eq (Nat.le_of_lt hfont) h.program_fits hlimit]
  rfl

theorem loadAt?_eq {m : Machine} (h : m.Sound) {program : Array UInt8}
    (hlength : program.size < Machine.arrayLimit) (origin : UInt16) :
    loadAt? m program origin = some (m.loadAt program origin) := by
  have horigin := origin.toNat_lt
  have hlimit : origin.toNat + program.size < addressLimit := by
    unfold Machine.arrayLimit at hlength
    unfold addressLimit
    omega
  rw [loadAt?, add?_eq hlimit, Option.bind_eq_bind, Option.bind_some, Machine.loadAt]
  by_cases hroom : origin.toNat + program.size ≤ m.memory.size
  · have hfits : m.hasRoomFor program.size origin = true := by
      simpa [Machine.hasRoomFor] using hroom
    have hloaded : ({ m with program, origin } : Machine).Sound := { h with program_fits := hroom }
    rw [if_neg (by omega), if_pos hfits, reset?_eq hloaded]
    rfl
  · have hlarge : ¬ m.hasRoomFor program.size origin = true := by
      simpa [Machine.hasRoomFor] using hroom
    rw [if_pos (by omega), if_neg hlarge]
    rfl

theorem fetch?_eq (m : Machine) : fetch? m = some m.fetch := by
  have hpc := m.pc.toNat_lt
  have hnext : m.pc.toNat + 1 < addressLimit := lt_addressLimit (by omega)
  simp only [fetch?, Machine.fetch]
  rw [add?_eq hnext]
  cases m.memory[m.pc.toNat]? with
  | none => rfl
  | some high => cases hlow : m.memory[m.pc.toNat + 1]? <;> simp [hlow]

variable {m : Machine}

theorem readByte?_eq (h : 0 < m.memory.size) (address : Nat) :
    readByte? m address = some (m.readByte address) := by
  have hlt := Nat.mod_lt address h
  rw [readByte?, mod?_eq h]
  simp [Machine.readByte, hlt]

theorem writeByte?_eq (h : 0 < m.memory.size) (address : Nat) (value : UInt8) :
    writeByte? m address value = some (m.writeByte address value) := by
  rw [writeByte?, mod?_eq h, Option.bind_eq_bind, Option.bind_some,
    set?_eq (Nat.mod_lt address h)]
  rfl

theorem writeBytes?_eq (h : 0 < m.memory.size) {address offset : Nat} {bytes : List UInt8}
    (hlimit : address + offset + bytes.length ≤ addressLimit) :
    writeBytes? m address offset bytes = some (m.writeBytes (address + offset) bytes) := by
  induction bytes generalizing m offset with
  | nil => rfl
  | cons byte rest ih =>
    have hlength : (byte :: rest).length = rest.length + 1 := rfl
    have hsize : (m.writeByte (address + offset) byte).memory.size = m.memory.size := by
      simp [Machine.writeByte]
    have hplace : address + offset < addressLimit := by omega
    simp only [writeBytes?, add?_eq hplace, writeByte?_eq h, Option.bind_eq_bind, Option.bind_some]
    rw [ih (by omega) (by omega)]
    rfl

theorem readRegisters?_eq (h : 0 < m.memory.size) {address offset : Nat} {registers : List UInt8}
    (hlimit : address + offset + registers.length ≤ addressLimit) :
    readRegisters? m address offset registers =
      some (m.readRegisters (address + offset) registers) := by
  induction registers generalizing m offset with
  | nil => rfl
  | cons r rest ih =>
    have hlength : (r :: rest).length = rest.length + 1 := rfl
    have hplace : address + offset < addressLimit := by omega
    simp only [readRegisters?, add?_eq hplace, readByte?_eq h, Option.bind_eq_bind,
      Option.bind_some]
    rw [ih (m := m.setReg r (m.readByte (address + offset))) h (by omega)]
    rfl

/-- Bytes that lie in memory are written where they are, without wrapping. -/
theorem poke?_eq {address : Nat} {bytes : List UInt8}
    (hfits : address + bytes.length ≤ m.memory.size) :
    poke? m address bytes = some (m.writeBytes address bytes) := by
  induction bytes generalizing m address with
  | nil => rfl
  | cons byte rest ih =>
    have hlength : (byte :: rest).length = rest.length + 1 := rfl
    have hlt : address < m.memory.size := by omega
    have hbyte : ({ m with memory := m.memory.setIfInBounds address byte } : Machine) =
        m.writeByte address byte := by
      rw [Machine.writeByte, Nat.mod_eq_of_lt hlt]
    have hsize : (m.writeByte address byte).memory.size = m.memory.size := by
      simp [Machine.writeByte]
    rw [poke?, set?_eq hlt, Option.bind_eq_bind, Option.bind_some, hbyte, ih (by omega)]
    rfl

/-! ## The screen -/

theorem index?_eq {s : Screen} (hs : s.WellFormed)
    (hpixels : s.height * s.width < Machine.arrayLimit) (y x : Nat) :
    index? s y x = some (s.index y x) := by
  have hplace := Screen.index_lt hs.height_pos hs.width_pos y x
  simp only [Screen.index] at hplace
  have hlimit : Machine.arrayLimit < addressLimit := by decide
  rw [index?, mod?_eq hs.height_pos, mod?_eq hs.width_pos, Option.bind_eq_bind, Option.bind_some,
    mul?_eq (by omega), Option.bind_some]
  exact add?_eq (by omega)

theorem setPixel?_eq {s : Screen} (hs : s.WellFormed)
    (hpixels : s.height * s.width < Machine.arrayLimit) (y x : Nat) (value : UInt8) :
    setPixel? s y x value = some (s.setPixel y x value) := by
  have hplace := hs.index_lt y x
  simp only [setPixel?, index?_eq hs hpixels, Screen.setPixel, Screen.flip]
  by_cases hzero : value = 0
  · subst hzero
    simp [hplace, set?_eq hplace, Array.setIfInBounds]
  · by_cases hone : value = 1
    · subst hone
      simp [hplace, set?_eq hplace, Array.setIfInBounds]
    · simp [hzero, hone]

/-- The numeric value of a bit of a byte, as a drawing loop takes it out. -/
theorem bit_eq (row : UInt8) {places : Nat} (h : places < 8) :
    row >>> places.toUInt8 &&& 1 = if row.toNat.testBit places then 1 else 0 := by
  apply UInt8.toNat_inj.mp
  have hplaces : places.toUInt8.toNat % 8 = places := by
    simp only [UInt8.toNat_ofNat']
    omega
  rw [UInt8.toNat_and, UInt8.toNat_shiftRight, hplaces, UInt8.toNat_one, Nat.and_one_is_mod,
    Nat.shiftRight_eq_div_pow, Nat.testBit_eq_decide_div_mod_eq]
  split <;> simp_all

theorem setPixel_bit (s : Screen) (y x : Nat) (bit : Bool) :
    s.setPixel y x (if bit then 1 else 0) = s.flip y x bit := by
  cases bit <;> rfl

theorem drawColumns?_eq {s : Screen} (hs : s.WellFormed)
    (hpixels : s.height * s.width < Machine.arrayLimit) {x : Nat} (hx : x < 256) (y : Nat)
    (row : UInt8) (collided : Bool) {columns : List Nat}
    (hcolumns : ∀ column ∈ columns, column < 8) :
    drawColumns? s y x row collided columns =
      some (s.plot collided
        (columns.map fun column => ⟨y, x + column, row.toNat.testBit (7 - column)⟩)) := by
  induction columns generalizing s collided with
  | nil => rfl
  | cons column columns ih =>
    have hcolumn : column < 8 := hcolumns column (by simp)
    have hlimit : x + column < addressLimit := lt_addressLimit (by omega)
    simp only [drawColumns?, sub?_eq (show column ≤ 7 by omega),
      shiftRight?_eq (show 7 - column < 8 by omega), add?_eq hlimit, setPixel?_eq hs hpixels,
      Option.bind_eq_bind, Option.bind_some]
    rw [bit_eq row (by omega), setPixel_bit, Screen.flip_eq hs, List.map_cons, Screen.plot,
      Screen.flip_eq hs]
    exact ih (hs.flipped y (x + column) _) hpixels _
      fun other hother => hcolumns other (List.mem_cons_of_mem _ hother)

theorem drawRow?_eq {s : Screen} (hs : s.WellFormed)
    (hpixels : s.height * s.width < Machine.arrayLimit) {x : Nat} (hx : x < 256) (y : Nat)
    (row : UInt8) (collided : Bool) :
    drawColumns? s y x row collided (List.range 8) =
      some (.done (s.plotted (Screen.rowDots y x row))
        (collided || s.collides (Screen.rowDots y x row))) := by
  rw [drawColumns?_eq hs hpixels hx y row collided fun _ => List.mem_range.mp]
  exact congrArg some (Screen.plot_eq hs collided (Screen.rowDots y x row))

/-- Rows drawn one after the other draw their dots one after the other. -/
theorem drawRows?_eq (hmem : 0 < m.memory.size) (hs : m.screen.WellFormed)
    (hpixels : m.screen.height * m.screen.width < Machine.arrayLimit) {y x : Nat} (hy : y < 256)
    (hx : x < 256) (collided : Bool) {rows : List Nat} (hrows : ∀ row ∈ rows, row < 256) :
    drawRows? m y x collided rows =
      some (.done { m with screen := m.screen.plotted (m.rowsDots y x rows) }
        (collided || m.screen.collides (m.rowsDots y x rows))) := by
  induction rows generalizing m collided with
  | nil => simp [drawRows?, Machine.rowsDots, Screen.plotted, Screen.collides]
  | cons row rows ih =>
    have hrow : row < 256 := hrows row (by simp)
    have hi := m.i.toNat_lt
    have haddress : m.i.toNat + row < addressLimit := lt_addressLimit (by omega)
    have hline : y + row < addressLimit := lt_addressLimit (by omega)
    let first := Screen.rowDots (y + row) x (m.readByte (m.i.toNat + row))
    have hfirst : drawRows? m y x collided (row :: rows) =
        drawRows? { m with screen := m.screen.plotted first } y x
          (collided || m.screen.collides first) rows := by
      simp only [drawRows?, add?_eq haddress, add?_eq hline, readByte?_eq hmem,
        drawRow?_eq hs hpixels hx, Option.bind_eq_bind, Option.bind_some]
      rfl
    -- The rows that follow are drawn on the screen that this row leaves, by the same memory and `I`.
    have hshape := m.screen.sameShape_plotted first
    have hpixels' : (m.screen.plotted first).height * (m.screen.plotted first).width <
        Machine.arrayLimit := by
      rw [hshape.height, hshape.width]
      exact hpixels
    have hrest := ih (m := { m with screen := m.screen.plotted first }) hmem (hs.plotted first)
      hpixels' (collided || m.screen.collides first)
      fun other hother => hrows other (List.mem_cons_of_mem row hother)
    rw [hfirst, hrest, Machine.rowsDots_withScreen, Machine.rowsDots_cons, Screen.plotted_append,
      Screen.collides_append, Bool.or_assoc]

theorem draw?_eq (hmem : 0 < m.memory.size) (hs : m.screen.WellFormed)
    (hpixels : m.screen.height * m.screen.width < Machine.arrayLimit) (x y n : UInt8) :
    draw? m x y n = some (m.draw x y n) := by
  have hrows : ∀ row ∈ List.range n.toNat, row < 256 := fun row hrow =>
    Nat.lt_trans (List.mem_range.mp hrow) n.toNat_lt
  rw [draw?, drawRows?_eq hmem hs hpixels (m.reg y).toNat_lt (m.reg x).toNat_lt false hrows,
    Machine.draw_eq hs]
  rfl

/-! ## Instructions and operations -/

theorem glyphAddress?_eq (digit : UInt8) : glyphAddress? digit = some (Font.address digit) := by
  have hdigit : (digit &&& 0xF).toNat < 16 := by
    rw [UInt8.toNat_and]
    exact Nat.lt_of_le_of_lt Nat.and_le_right (by decide)
  have hlimit : (digit &&& 0xF).toNat * Font.glyphSize < wordLimit := by
    unfold Font.glyphSize wordLimit
    omega
  rw [glyphAddress?, mul?_eq hlimit, Option.bind_eq_bind, Option.bind_some, Font.address]
  refine congrArg some (UInt16.toNat_inj.mp ?_)
  rw [UInt16.toNat_mul, UInt8.toNat_toUInt16]
  simp only [UInt16.toNat_ofNat', Font.glyphSize]
  rfl

theorem digitByte?_eq (encoding : DecimalEncoding) (digit : UInt8) :
    digitByte? encoding digit = some (Machine.digitByte encoding digit) := by
  cases encoding with
  | fontAddress => rw [digitByte?, glyphAddress?_eq]; rfl
  | rawDigits => rfl

theorem passBlock?_eq (m : Machine) (x : UInt8) : passBlock? m x = some (m.passBlock x) := by
  have hx := x.toNat_lt
  have hlimit : x.toNat + 1 < wordLimit := by
    unfold wordLimit
    omega
  have hindex : m.i + (x.toNat + 1).toUInt16 = m.i + x.toUInt16 + 1 := by
    apply UInt16.toNat_inj.mp
    simp only [UInt16.toNat_add, UInt16.toNat_ofNat', UInt8.toNat_toUInt16, UInt16.toNat_one]
    omega
  rw [passBlock?, Machine.passBlock, add?_eq hlimit]
  split
  · simp only [Option.bind_eq_bind, Option.bind_some, hindex]
    rfl
  · rfl

theorem set?_byte (value : UInt8) : Timer.set? value.toUInt32 = .ok { count := value } := by
  have hlt : value.toUInt32 < 256 := by
    rw [UInt32.lt_iff_toNat_lt, UInt8.toNat_toUInt32]
    exact value.toNat_lt
  rw [Timer.set?, if_pos hlt, UInt8.toUInt8_toUInt32]

theorem length_blockRegisters (x : UInt8) : (Machine.blockRegisters x).length = x.toNat + 1 := by
  simp [Machine.blockRegisters]

/-- An instruction that checks itself does what the instruction does. -/
theorem execute?_eq (hmem : 0 < m.memory.size) (hs : m.screen.WellFormed)
    (hpixels : m.screen.height * m.screen.width < Machine.arrayLimit) (i : Instruction) :
    execute? i m = some (i.execute m) := by
  have hi := m.i.toNat_lt
  have hlimit {length : Nat} (hlength : length ≤ 256) : m.i.toNat + 0 + length ≤ addressLimit :=
    Nat.le_of_lt (lt_addressLimit (by omega))
  cases i with
  | draw x y n => exact draw?_eq hmem hs hpixels x y n
  | setDelay x => simp only [execute?, Machine.setTimer, set?_byte, Instruction.execute]
  | setSound x => simp only [execute?, Machine.setTimer, set?_byte, Instruction.execute]
  | loadGlyph x =>
    rw [execute?, glyphAddress?_eq]
    rfl
  | storeDecimal x =>
    have hbytes : (Machine.digits (m.reg x)).mapM (digitByte? m.config.decimals) =
        some ((Machine.digits (m.reg x)).map (Machine.digitByte m.config.decimals)) := by
      simp [Machine.digits, digitByte?_eq]
    simp only [execute?, hbytes, Option.bind_eq_bind, Option.bind_some]
    rw [writeBytes?_eq hmem (hlimit (by simp [Machine.digits]))]
    rfl
  | storeRegs x =>
    have hx := x.toNat_lt
    have hlength : ((Machine.blockRegisters x).map m.reg).length ≤ 256 := by
      rw [List.length_map, length_blockRegisters]
      omega
    simp only [execute?]
    rw [writeBytes?_eq hmem (hlimit hlength), Option.bind_eq_bind, Option.bind_some,
      passBlock?_eq]
    rfl
  | loadRegs x =>
    have hx := x.toNat_lt
    have hlength : (Machine.blockRegisters x).length ≤ 256 := by
      rw [length_blockRegisters]
      omega
    simp only [execute?]
    rw [readRegisters?_eq hmem (hlimit hlength), Option.bind_eq_bind, Option.bind_some,
      passBlock?_eq]
    rfl
  | _ => rfl

theorem perform?_eq (hmem : 0 < m.memory.size) (hs : m.screen.WellFormed)
    (hpixels : m.screen.height * m.screen.width < Machine.arrayLimit) (i : Instruction) :
    perform? m i = some (m.perform i) := by
  rw [perform?, execute?_eq (m := { m with executing := true }) hmem hs hpixels, Machine.perform]
  -- An instruction never goes out of bounds, so the note is cleared on every path.
  obtain ⟨m', hexecute⟩ | ⟨fault, hexecute⟩ :=
    Machine.execute_cases i (m := { m with executing := true }) hs
  · rw [hexecute]
    rfl
  · rw [hexecute]
    rfl

theorem step?_eq (h : m.Sound) : step? m = some m.step := by
  unfold step? Machine.step
  split
  · rfl
  split
  · rfl
  have hopcode : m.fetch.filter (· ≠ 0) = m.nextOpcode := rfl
  simp only [fetch?_eq, Option.bind_eq_bind, Option.bind_some, hopcode]
  cases m.nextOpcode with
  | none => rfl
  | some w =>
    have hseeing := Machine.decode_eq h.decoder w
    simp only [hseeing]
    cases w.decode with
    | error fault => rfl
    | ok i => exact perform?_eq (m := m.seeing w) h.memory_pos h.screen h.pixels_lt i

theorem peek?_eq (m : Machine) : peek? m = some m.peek := by
  have hopcode : m.fetch.filter (· ≠ 0) = m.nextOpcode := rfl
  simp only [peek?, Machine.peek, fetch?_eq, Option.bind_eq_bind, Option.bind_some, hopcode]
  cases m.nextOpcode with
  | none => rfl
  | some w =>
    simp only
    obtain ⟨m', _ | _⟩ := m.decode w <;> rfl

/-- An operation that checks itself does what the operation does. -/
theorem operate?_eq (h : m.Sound) {operation : Operation}
    (hlegal : operation.Legal m.memory.size) :
    operate? operation m = some (operation.apply m) := by
  cases operation with
  | load program =>
    rw [operate?, loadAt?_eq h hlegal]
    rfl
  | loadAt program origin =>
    rw [operate?, loadAt?_eq h hlegal]
    rfl
  | reset =>
    rw [operate?, reset?_eq h]
    rfl
  | step =>
    rw [operate?, step?_eq h]
    rfl
  | peek =>
    rw [operate?, peek?_eq]
    rfl
  | execute i =>
    rw [operate?, execute?_eq h.memory_pos h.screen h.pixels_lt]
    rfl
  | poke address bytes =>
    have hfits : address + bytes.toList.length ≤ m.memory.size := hlegal
    rw [operate?, poke?_eq hfits]
    simp only [Operation.apply, Machine.poke]
    rw [if_pos (by simpa using hfits)]
    rfl
  | setPixel y x value =>
    rw [operate?, setPixel?_eq h.screen h.pixels_lt]
    rfl
  | replaceScreen height width =>
    have hlimit : height * width < addressLimit := Nat.lt_trans hlegal.2.2 (by decide)
    rw [operate?, mul?_eq hlimit]
    rfl
  | _ => rfl

theorem run?_eq (h : m.Sound) {operations : List Operation}
    (hlegal : ∀ operation ∈ operations, operation.Legal m.memory.size) :
    run? operations m = some (Operation.run operations m) := by
  induction operations generalizing m with
  | nil => rfl
  | cons operation operations ih =>
    obtain ⟨hfirst, hrest⟩ := Operation.legal_of_cons h hlegal
    rw [run?, operate?_eq h hfirst, Option.bind_eq_bind, Option.bind_some,
      ih (Operation.sound_apply h hfirst) hrest]
    rfl

end Chip8.Checked

namespace Chip8

/-! ## Failures -/

namespace Operation

/-- A failure that a host may be told of: neither that an operation reached outside an array nor that
an instruction is being executed. -/
def Tolerable (failure : Failure) : Prop := failure ≠ .outOfBounds ∧ failure ≠ .fault .reentrant

theorem tolerable_toAnswer {o : Outcome Machine Failure Unit}
    (h : ∀ failure, o.result = .error failure → Tolerable failure) {failure : Failure}
    (hresult : o.toAnswer.result = .error failure) : Tolerable failure := by
  cases hanswer : o.result with
  | ok answer => simp [Outcome.toAnswer, hanswer, Except.map] at hresult
  | error failure' =>
    simp only [Outcome.toAnswer, hanswer, Except.map] at hresult
    cases hresult
    exact h failure hanswer

theorem tolerable_execute {i : Instruction} {m : Machine} (hs : m.screen.WellFormed)
    {failure : Failure} (hresult : (i.execute m).result = .error failure) : Tolerable failure := by
  obtain ⟨-, -, rfl⟩ | ⟨-, rfl⟩ := (Instruction.execute_eq_error_iff hs).mp hresult <;>
    simp [Tolerable]

theorem tolerable_step {m : Machine} (h : m.Sound) {failure : Failure}
    (hresult : m.step.result = .error failure) : Tolerable failure := by
  cases h.stepped with
  | halted hhalted hstep => simp [hstep, Outcome.done] at hresult
  | halts hrunning hopcode hstep => simp [hstep, Outcome.done] at hresult
  | unknown w hrunning hopcode hdecode hstep =>
    rw [hstep] at hresult
    cases hresult
    simp [Tolerable]
  | refused w i fault hrunning hopcode hdecode hexecute hstep =>
    rw [hstep] at hresult
    cases hresult
    exact tolerable_execute h.screen (congrArg Outcome.result hexecute)
  | performed w i m' hrunning hopcode hdecode hexecute hstep =>
    simp [hstep, Outcome.done] at hresult

theorem tolerable_loadAt {m : Machine} {program : Array UInt8} {origin : UInt16}
    {failure : Failure} (hresult : (m.loadAt program origin).result = .error failure) :
    Tolerable failure := by
  unfold Machine.loadAt at hresult
  split at hresult <;> cases hresult
  simp [Tolerable]

theorem tolerable_setTimer {m : Machine} {value : UInt32} {store : Timer → Machine}
    {failure : Failure} (hresult : (m.setTimer value store).result = .error failure) :
    Tolerable failure := by
  unfold Machine.setTimer Timer.set? at hresult
  split at hresult <;> cases hresult
  rename_i hset
  split at hset <;> cases hset
  simp [Tolerable]

theorem tolerable_setKey {m : Machine} {key : UInt8} {down : Bool} {failure : Failure}
    (hresult : (m.setKey key down).result = .error failure) : Tolerable failure := by
  unfold Machine.setKey Keypad.set at hresult
  split at hresult <;> cases hresult
  rename_i hset
  split at hset <;> cases hset
  simp [Tolerable]

/-- The host may be told of every failure of an operation on a sound machine. -/
theorem tolerable_apply {operation : Operation} {m : Machine} (h : m.Sound)
    (hlegal : operation.Legal m.memory.size) {failure : Failure}
    (hresult : (operation.apply m).result = .error failure) : Tolerable failure := by
  cases operation with
  | load program => exact tolerable_toAnswer (fun _ => tolerable_loadAt) hresult
  | loadAt program origin => exact tolerable_toAnswer (fun _ => tolerable_loadAt) hresult
  | step => exact tolerable_toAnswer (fun _ => tolerable_step h) hresult
  | peek =>
    simp only [apply, Machine.peek_eq h.decoder] at hresult
    split at hresult
    · cases hresult
    · rename_i w hopcode
      cases hdecode : w.decode with
      | ok i => simp [hdecode, Except.mapError, Except.map] at hresult
      | error fault =>
        obtain ⟨-, rfl⟩ := Opcode.decode_eq_error_iff.mp hdecode
        simp only [hdecode, Except.mapError, Except.map] at hresult
        cases hresult
        simp [Tolerable]
  | execute i => exact tolerable_toAnswer (fun _ => tolerable_execute h.screen) hresult
  | setDelay value => exact tolerable_toAnswer (fun _ => tolerable_setTimer) hresult
  | setSound value => exact tolerable_toAnswer (fun _ => tolerable_setTimer) hresult
  | poke address bytes =>
    have hfits : address + bytes.size ≤ m.memory.size := hlegal
    simp [apply, Machine.poke, hfits, Outcome.toAnswer, Outcome.done, Except.map] at hresult
  | pop =>
    simp only [apply, CallStack.pop] at hresult
    cases hframes : m.stack.frames <;> simp only [hframes] at hresult <;> cases hresult
    simp [Tolerable]
  | top =>
    simp only [apply, CallStack.top] at hresult
    cases hframes : m.stack.frames <;> simp only [hframes] at hresult <;> cases hresult
    simp [Tolerable]
  | keyDown key => exact tolerable_toAnswer (fun _ => tolerable_setKey) hresult
  | keyUp key => exact tolerable_toAnswer (fun _ => tolerable_setKey) hresult
  | setPixel y x value =>
    simp only [apply, Screen.setPixel, Screen.flip_eq h.screen] at hresult
    split at hresult
    · cases hresult
    · split at hresult <;> cases hresult
      simp [Tolerable]
  | _ => cases hresult

/-- None of the answers to operations on a sound machine is an intolerable failure. -/
theorem tolerable_answers {operations : List Operation} {m : Machine} (h : m.Sound)
    (hlegal : ∀ operation ∈ operations, operation.Legal m.memory.size) {failure : Failure}
    (hanswer : .error failure ∈ answers operations m) : Tolerable failure := by
  induction operations generalizing m with
  | nil => cases hanswer
  | cons operation operations ih =>
    obtain ⟨hfirst, hrest⟩ := legal_of_cons h hlegal
    rcases List.mem_cons.mp hanswer with hhead | htail
    · exact tolerable_apply h hfirst hhead.symm
    · exact ih (sound_apply h hfirst) hrest htail

end Operation

namespace Machine

theorem exists_new_eq_ok_iff {config : Config} {entropy : Random.Key} :
    (∃ m, Machine.new config entropy = .ok m) ↔ config.flaw? = none := by
  constructor
  · rintro ⟨m, hnew⟩
    have hfresh := fresh_of_new hnew
    exact hfresh.config_eq ▸ hfresh.sound.config
  · intro hflaw
    unfold Machine.new Config.validate
    rw [hflaw]
    exact ⟨_, rfl⟩

/-- A machine is made of exactly the configurations whose programs go between the font and the end of
at most 64 KiB of memory.  Whatever a host then does with it, no check fails: no index is out of
range, no slice does not fit, nothing is divided by zero and nothing overflows. -/
theorem host_operations_are_safe (config : Config) (entropy : Random.Key) :
    InstructionTable.ofPrototypes Instruction.all = .ok InstructionTable.standard ∧
    ((∃ m, Machine.new config entropy = .ok m) ↔
      80 ≤ config.loadAddress.toNat ∧ config.loadAddress.toNat < config.memorySize ∧
        config.memorySize ≤ 65536) ∧
    ∀ m, Machine.new config entropy = .ok m →
      Checked.reset? m = some m ∧
      ∀ operations : List Operation,
        (∀ operation ∈ operations, operation.Legal config.memorySize) →
        Checked.run? operations m = some (Operation.run operations m) ∧
        (∀ answer ∈ Operation.answers operations m,
          answer ≠ .error .outOfBounds ∧ answer ≠ .error (.fault .reentrant)) ∧
        (Operation.run operations m).memory.size = config.memorySize ∧
        (Operation.run operations m).origin.toNat + (Operation.run operations m).program.size ≤
          (Operation.run operations m).memory.size ∧
        (Operation.run operations m).screen.pixels.size =
          (Operation.run operations m).screen.height * (Operation.run operations m).screen.width ∧
        (Operation.run operations m).executing = false := by
  refine ⟨?_, exists_new_eq_ok_iff.trans Config.flaw?_eq_none_iff, ?_⟩
  · rw [InstructionTable.ofPrototypes_eq, InstructionTable.standard_eq]
  intro m hnew
  obtain ⟨hmade, hreset, -, hsound⟩ := fresh_of_new hnew
  have hsize : m.memory.size = config.memorySize := by rw [hsound.size_memory, hmade]
  refine ⟨by rw [Checked.reset?_eq hsound, hreset], ?_⟩
  intro operations hlegal
  rw [← hsize] at hlegal
  obtain ⟨hafter, hconfig⟩ := Operation.sound_run hsound hlegal
  refine ⟨Checked.run?_eq hsound hlegal, fun answer hanswer => ⟨?_, ?_⟩, ?_, hafter.program_fits,
    hafter.screen.size_pixels, hafter.executing⟩
  · rintro rfl
    exact (Operation.tolerable_answers hsound hlegal hanswer).1 rfl
  · rintro rfl
    exact (Operation.tolerable_answers hsound hlegal hanswer).2 rfl
  · rw [hafter.size_memory, hconfig, hmade]

/-- A jump behind the end of a small memory, a write to its last bytes and a pixel off the screen. -/
theorem host_operations_are_safe_at_edges :
    ∃ m, Machine.new { memorySize := 96, loadAddress := 80 } (.replicate 8 0) = .ok m ∧
      let operations : List Operation :=
        [.load #[0x12, 0x00], .step, .step, .poke 94 #[0x60, 0x01], .setPixel 40 70 1, .reset]
      Checked.run? operations m = some (Operation.run operations m) :=
  ⟨_, rfl, (((host_operations_are_safe { memorySize := 96, loadAddress := 80 } _).2.2 _ rfl).2 _
    (by simp [Operation.Legal, arrayLimit])).1⟩

end Machine

end Chip8
