import Chip8.Opcode.Format
import Chip8.Proofs.Opcode.Nibbles
import Mathlib.Data.List.Induction

/-!
# Writing operands into a format

`Format.operands` reads operands off an opcode.  Here is the way back: `Slot.write` puts a list of
operands into the positions of a format.  A fixed slot spells its own digit, an `X` or `Y` spells the
next register, and a run of `N`s spells the next constant.  `Slot.Takes` says that a list of operands
has the shape that the slots ask for: a register for each `X` or `Y`, and a constant for each run.

* `write_readOperands`: what has been read off an accepted opcode spells that opcode.
* `readOperands_of_write`: the format accepts an opcode that a list of operands of the right shape
  spells, and the operands are read off it again.

Both inductions run over the slots, with one lemma for each kind of slot.  They carry a second
statement for the inside of a run, where the digits that are still to come belong to a constant that
has been begun.
-/

namespace Chip8

namespace Slot

/-- The digits of a constant over a run of `width` nibbles, most significant first.  The first digit
takes all that the others leave, so a constant that is too large for the run has a digit above
fifteen. -/
def digits : Nat → Nat → List Nat
  | 0, _ => []
  | 1, value => [value]
  | width + 2, value => digits (width + 1) (value / 16) ++ [value % 16]

/-- The number of constant slots that follow before the run ends. -/
def runLength : List Slot → Nat
  | .constant :: slots => runLength slots + 1
  | _ => 0

/-- Writes operands into slots from left to right.  The digits `run` belong to the constant whose run
has been begun by the slots before.  Where an operand is missing the writing stops. -/
def write (run : List Nat) : List Slot → List Operand → List Nat
  | .fixed value :: slots, operands => value.toNat :: write [] slots operands
  | .register :: slots, .register number :: operands => number.toNat :: write [] slots operands
  | .constant :: slots, operands =>
    match run, operands with
    | digit :: run, operands => digit :: write run slots operands
    | [], .constant value :: operands =>
      match digits (runLength slots + 1) value.toNat with
      | digit :: run => digit :: write run slots operands
      | [] => []
    | [], _ => []
  | _, _ => []

/-- Whether the operands have the shape that the slots ask for, `inRun` telling whether a constant
slot continues a run. -/
def Takes (inRun : Bool) : List Slot → List Operand → Prop
  | [], operands => operands = []
  | .fixed _ :: slots, operands => Takes false slots operands
  | .register :: slots, .register _ :: operands => Takes false slots operands
  | .constant :: slots, operands =>
    match inRun, operands with
    | true, operands => Takes true slots operands
    | false, .constant _ :: operands => Takes true slots operands
    | false, _ => False
  | .register :: _, _ => False

/-! ## Digits -/

theorem length_digits (width value : Nat) : (digits width value).length = width := by
  fun_induction digits width value with
  | case1 => rfl
  | case2 => rfl
  | case3 width value ih => simp [ih]

/-- The number that digits stand for when they are appended to `value`. -/
def appendDigits (value : Nat) (run : List Nat) : Nat :=
  run.foldl (fun value digit => 16 * value + digit) value

theorem appendDigits_digits (width value : Nat) :
    appendDigits 0 (digits (width + 1) value) = value := by
  induction width generalizing value with
  | zero => simp [digits, appendDigits]
  | succ width ih =>
    have hprev : appendDigits 0 (digits (width + 1) (value / 16)) = value / 16 := ih _
    rw [appendDigits] at hprev ⊢
    rw [digits, List.foldl_append, hprev]
    simp
    omega

/-- Appending a nibble to a constant adds a digit behind the digits that it has. -/
theorem digits_append_digit (width value : Nat) {digit : Nat} (hdigit : digit < 16) :
    digits (width + 2) (16 * value + digit) = digits (width + 1) value ++ [digit] := by
  rw [digits]
  congr 2 <;> omega

/-- A constant that its run has room for has digits below sixteen. -/
theorem digits_lt {width value : Nat} (h : value < 16 ^ width) :
    ∀ digit ∈ digits width value, digit < 16 := by
  fun_induction digits width value with
  | case1 => simp
  | case2 value => simpa using h
  | case3 width value ih =>
    have hrest : value / 16 < 16 ^ (width + 1) := by
      rw [Nat.pow_succ] at h
      omega
    intro digit hdigit
    rcases List.mem_append.mp hdigit with hfirst | hlast
    · exact ih hrest digit hfirst
    · rw [List.mem_singleton.mp hlast]
      omega

theorem appendDigits_append (value digit : Nat) (run : List Nat) :
    appendDigits value (run ++ [digit]) = 16 * appendDigits value run + digit := by
  rw [appendDigits, List.foldl_append]
  rfl

/-- Digits below sixteen are the digits of the constant that they stand for, and the run has room for
it. -/
theorem digits_appendDigits {run : List Nat} (h : ∀ digit ∈ run, digit < 16) :
    digits run.length (appendDigits 0 run) = run ∧ appendDigits 0 run < 16 ^ run.length := by
  induction run using List.reverseRecOn with
  | nil => exact ⟨rfl, Nat.one_pos⟩
  | append_singleton run digit ih =>
    obtain ⟨hdigits, hlt⟩ := ih fun other hother => h other (List.mem_append_left _ hother)
    have hdigit : digit < 16 := h digit (by simp)
    rw [appendDigits_append, List.length_append, List.length_singleton]
    refine ⟨?_, by rw [Nat.pow_succ]; omega⟩
    cases run with
    | nil => simp [digits, appendDigits]
    | cons first run => rw [List.length_cons, digits_append_digit _ _ hdigit, ← List.length_cons, hdigits]

/-! ## Reading and writing back -/

/-- A constant that has room for another digit takes at most three. -/
theorem lt_of_room {width value : Nat} (hwidth : width + 2 ≤ 4)
    (hvalue : value < 16 ^ (width + 1)) : value < 4096 := by
  have hpow : 16 ^ (width + 1) ≤ 16 ^ 3 := Nat.pow_le_pow_right (by decide) (by omega)
  omega

/-- The first digit of a constant. -/
theorem toNat_zero_shiftLeft_or (nibble : UInt8) :
    ((0 : UInt16) <<< 4 ||| nibble.toUInt16).toNat = nibble.toNat := by
  simp

/-- What the induction for reading before writing carries: outside a run the operands that are read
spell the nibbles, and inside a run of which `width + 1` digits have been read they begin with the
constant of the run. -/
private def ReadsBack (slots : List Slot) (nibbles : List UInt8) : Prop :=
  write [] slots (Format.readOperands none (slots.zip nibbles)) = nibbles.map UInt8.toNat ∧
  ∀ (width : Nat) (value : UInt16), width + 1 + slots.length ≤ 4 → value.toNat < 16 ^ (width + 1) →
    ∃ (constant : UInt16) (operands : List Operand),
      Format.readOperands (some value) (slots.zip nibbles) = .constant constant :: operands ∧
      ∃ run : List Nat,
        digits (width + 1 + runLength slots) constant.toNat = digits (width + 1) value.toNat ++ run ∧
        write run slots operands = nibbles.map UInt8.toNat

private theorem readsBack_nil : ReadsBack [] [] := by
  refine ⟨rfl, fun width value _ _ => ⟨value, [], rfl, [], ?_, rfl⟩⟩
  simp [runLength]

variable {slots : List Slot} {nibbles : List UInt8} {nibble : UInt8}

private theorem ReadsBack.fixed (h : ReadsBack slots nibbles) :
    ReadsBack (.fixed nibble :: slots) (nibble :: nibbles) := by
  refine ⟨?_, fun width value _ _ =>
    ⟨value, Format.readOperands none (slots.zip nibbles), rfl, [], ?_, ?_⟩⟩
  · simp [Format.readOperands, Format.closeRun, write, h.1]
  · simp [runLength]
  · simp [write, h.1]

private theorem ReadsBack.register (h : ReadsBack slots nibbles) :
    ReadsBack (.register :: slots) (nibble :: nibbles) := by
  refine ⟨?_, fun width value _ _ =>
    ⟨value, .register nibble :: Format.readOperands none (slots.zip nibbles), rfl, [], ?_, ?_⟩⟩
  · simp [Format.readOperands, Format.closeRun, write, h.1]
  · simp [runLength]
  · simp [write, h.1]

private theorem ReadsBack.constant (h : ReadsBack slots nibbles) (hfour : slots.length + 1 ≤ 4)
    (hnibble : nibble.toNat < 16) : ReadsBack (.constant :: slots) (nibble :: nibbles) := by
  constructor
  · -- The first digit of a run: the statement inside the run takes over with one digit read.
    have hvalue := toNat_zero_shiftLeft_or nibble
    obtain ⟨constant, operands, hread, run, hdigits, hwrite⟩ :=
      h.2 0 ((0 : UInt16) <<< 4 ||| nibble.toUInt16) (by omega) (by rw [hvalue]; omega)
    rw [hvalue, Nat.zero_add, Nat.add_comm 1] at hdigits
    rw [List.zip_cons_cons, Format.readOperands, Option.getD_none, hread, write, hdigits]
    simp [digits, hwrite]
  · intro width value hwidth hvalue
    rw [List.length_cons] at hwidth
    have hbound : value.toNat < 4096 := lt_of_room (by omega) hvalue
    have happend : (value <<< 4 ||| nibble.toUInt16).toNat = 16 * value.toNat + nibble.toNat :=
      Opcode.toNat_shiftLeft_or hbound hnibble
    obtain ⟨constant, operands, hread, run, hdigits, hwrite⟩ :=
      h.2 (width + 1) (value <<< 4 ||| nibble.toUInt16) (by omega)
        (by rw [happend, Nat.pow_succ]; omega)
    refine ⟨constant, operands, hread, nibble.toNat :: run, ?_, ?_⟩
    · rw [happend, digits_append_digit _ _ hnibble] at hdigits
      rw [runLength, ← Nat.add_assoc, Nat.add_right_comm, hdigits]
      simp
    · simp [write, hwrite]

private theorem readsBack (slots : List Slot) (nibbles : List UInt8)
    (hlength : slots.length = nibbles.length) (hfour : slots.length ≤ 4)
    (hnibble : ∀ nibble ∈ nibbles, nibble.toNat < 16)
    (haccepts : ∀ place ∈ slots.zip nibbles, place.1.accepts place.2) :
    ReadsBack slots nibbles := by
  induction slots generalizing nibbles with
  | nil =>
    obtain rfl : nibbles = [] := by simpa using hlength.symm
    exact readsBack_nil
  | cons slot slots ih =>
    obtain _ | ⟨nibble, nibbles⟩ := nibbles
    · simp at hlength
    simp only [List.length_cons] at hlength hfour
    simp only [List.mem_cons, forall_eq_or_imp, List.zip_cons_cons] at hnibble haccepts
    have hrest := ih nibbles (by omega) (by omega) hnibble.2 haccepts.2
    cases slot with
    | fixed digit =>
      obtain rfl : digit = nibble := by simpa [accepts] using haccepts.1
      exact hrest.fixed
    | register => exact hrest.register
    | constant => exact hrest.constant hfour hnibble.1

/-! ## Writing and reading off -/

/-- The nibbles are accepted by the slots. -/
private def Accepted (slots : List Slot) (nibbles : List UInt8) : Prop :=
  ∀ place ∈ slots.zip nibbles, place.1.accepts place.2

private theorem Accepted.cons {slot : Slot} (hfirst : slot.accepts nibble)
    (hothers : Accepted slots nibbles) : Accepted (slot :: slots) (nibble :: nibbles) := by
  intro place hplace
  rcases List.mem_cons.mp hplace with rfl | hplace
  · exact hfirst
  · exact hothers place hplace

/-- What the induction for writing before reading carries: operands that spell the nibbles are read
off them, and inside a run the digits `run` that are still to be written belong to the constant that
is read. -/
private def ReadsOff (slots : List Slot) (nibbles : List UInt8) : Prop :=
  (∀ operands : List Operand, Takes false slots operands →
    write [] slots operands = nibbles.map UInt8.toNat →
      Accepted slots nibbles ∧ Format.readOperands none (slots.zip nibbles) = operands) ∧
  ∀ (width : Nat) (value : UInt16) (run : List Nat) (operands : List Operand),
    width + 1 + slots.length ≤ 4 → value.toNat < 16 ^ (width + 1) → run.length = runLength slots →
    Takes true slots operands → write run slots operands = nibbles.map UInt8.toNat →
      Accepted slots nibbles ∧
        ∃ constant : UInt16,
          Format.readOperands (some value) (slots.zip nibbles) = .constant constant :: operands ∧
            constant.toNat = appendDigits value.toNat run

private theorem readsOff_nil : ReadsOff [] [] := by
  constructor
  · intro operands htakes _
    rw [Takes] at htakes
    simp [Accepted, htakes, Format.readOperands, Format.closeRun]
  · intro width value run operands _ _ hrun htakes _
    rw [Takes] at htakes
    obtain rfl : run = [] := by simpa [runLength] using hrun
    simp [Accepted, htakes, Format.readOperands, Format.closeRun, appendDigits]

private theorem ReadsOff.fixed (h : ReadsOff slots nibbles) (digit : UInt8) :
    ReadsOff (.fixed digit :: slots) (nibble :: nibbles) := by
  have hrest (operands : List Operand) (run : List Nat) (htakes : Takes false slots operands)
      (hwrite : write run (.fixed digit :: slots) operands = (nibble :: nibbles).map UInt8.toNat) :
      Accepted (.fixed digit :: slots) (nibble :: nibbles) ∧
        Format.readOperands none (slots.zip nibbles) = operands := by
    simp only [write, List.map_cons, List.cons.injEq] at hwrite
    have hdigit : digit = nibble := UInt8.toNat_inj.mp hwrite.1
    obtain ⟨hothers, hread⟩ := h.1 operands htakes hwrite.2
    exact ⟨hothers.cons (by simp [accepts, hdigit]), hread⟩
  constructor
  · intro operands htakes hwrite
    rw [Takes] at htakes
    obtain ⟨haccepted, hread⟩ := hrest operands [] htakes hwrite
    exact ⟨haccepted, by simp [Format.readOperands, Format.closeRun, hread]⟩
  · intro width value run operands _ _ hrun htakes hwrite
    rw [Takes] at htakes
    obtain ⟨haccepted, hread⟩ := hrest operands run htakes hwrite
    obtain rfl : run = [] := by simpa [runLength] using hrun
    exact ⟨haccepted, value, by simp [Format.readOperands, Format.closeRun, hread], rfl⟩

private theorem ReadsOff.register (h : ReadsOff slots nibbles) :
    ReadsOff (.register :: slots) (nibble :: nibbles) := by
  have hrest (operands : List Operand) (run : List Nat) (inRun : Bool)
      (htakes : Takes inRun (.register :: slots) operands)
      (hwrite : write run (.register :: slots) operands = (nibble :: nibbles).map UInt8.toNat) :
      Accepted (.register :: slots) (nibble :: nibbles) ∧
        .register nibble :: Format.readOperands none (slots.zip nibbles) = operands := by
    obtain _ | ⟨number | value, operands⟩ := operands
    · exact htakes.elim
    · simp only [write, List.map_cons, List.cons.injEq] at hwrite
      obtain rfl : number = nibble := UInt8.toNat_inj.mp hwrite.1
      obtain ⟨hothers, hread⟩ := h.1 operands htakes hwrite.2
      exact ⟨hothers.cons rfl, by rw [hread]⟩
    · exact htakes.elim
  constructor
  · intro operands htakes hwrite
    obtain ⟨haccepted, hread⟩ := hrest operands [] false htakes hwrite
    exact ⟨haccepted, by simp [Format.readOperands, Format.closeRun, hread]⟩
  · intro width value run operands _ _ hrun htakes hwrite
    obtain ⟨haccepted, hread⟩ := hrest operands run true htakes hwrite
    obtain rfl : run = [] := by simpa [runLength] using hrun
    exact ⟨haccepted, value, by simp [Format.readOperands, Format.closeRun, hread], rfl⟩

/-- The constant of a run that begins here is written from the front, so its first digit is the
nibble at hand. -/
private theorem ReadsOff.constant_outside (h : ReadsOff slots nibbles)
    (hfour : slots.length + 1 ≤ 4) (hnibble : nibble.toNat < 16) {operands : List Operand}
    (htakes : Takes false (.constant :: slots) operands)
    (hwrite : write [] (.constant :: slots) operands = (nibble :: nibbles).map UInt8.toNat) :
    Accepted (.constant :: slots) (nibble :: nibbles) ∧
      Format.readOperands none ((.constant :: slots).zip (nibble :: nibbles)) = operands := by
  obtain _ | ⟨number | value, operands⟩ := operands
  · exact htakes.elim
  · exact htakes.elim
  rw [Takes] at htakes
  have hdigits := length_digits (runLength slots + 1) value.toNat
  have hvalue := appendDigits_digits (runLength slots) value.toNat
  rw [write] at hwrite
  cases hrun : digits (runLength slots + 1) value.toNat with
  | nil => simp [hrun] at hdigits
  | cons digit run =>
    rw [hrun] at hwrite hdigits hvalue
    simp only [List.map_cons, List.cons.injEq] at hwrite
    obtain ⟨rfl, hwrite⟩ := hwrite
    have hfirst := toNat_zero_shiftLeft_or nibble
    obtain ⟨hothers, constant, hread, hconstant⟩ :=
      h.2 0 ((0 : UInt16) <<< 4 ||| nibble.toUInt16) run operands (by omega)
        (by rw [hfirst]; omega) (by simpa using hdigits) htakes hwrite
    have heq : constant = value := by
      apply UInt16.toNat_inj.mp
      rw [hconstant, hfirst, ← hvalue, appendDigits, appendDigits, List.foldl_cons,
        Nat.mul_zero, Nat.zero_add]
    refine ⟨hothers.cons rfl, ?_⟩
    rw [List.zip_cons_cons, Format.readOperands, Option.getD_none, hread, heq]

private theorem ReadsOff.constant (h : ReadsOff slots nibbles) (hfour : slots.length + 1 ≤ 4)
    (hnibble : nibble.toNat < 16) : ReadsOff (.constant :: slots) (nibble :: nibbles) := by
  refine ⟨fun operands => h.constant_outside hfour hnibble, ?_⟩
  intro width value run operands hwidth hvalue hrun htakes hwrite
  rw [List.length_cons] at hwidth
  obtain _ | ⟨digit, run⟩ := run
  · simp [runLength] at hrun
  rw [Takes] at htakes
  simp only [write, List.map_cons, List.cons.injEq] at hwrite
  obtain ⟨rfl, hwrite⟩ := hwrite
  have hbound : value.toNat < 4096 := lt_of_room (by omega) hvalue
  have happend : (value <<< 4 ||| nibble.toUInt16).toNat = 16 * value.toNat + nibble.toNat :=
    Opcode.toNat_shiftLeft_or hbound hnibble
  obtain ⟨hothers, constant, hread, hconstant⟩ :=
    h.2 (width + 1) (value <<< 4 ||| nibble.toUInt16) run operands (by omega)
      (by rw [happend, Nat.pow_succ]; omega) (by simpa [runLength] using hrun) htakes hwrite
  refine ⟨hothers.cons rfl, constant, ?_, ?_⟩
  · rw [List.zip_cons_cons, Format.readOperands, Option.getD_some, hread]
  · rw [hconstant, happend, appendDigits, appendDigits, List.foldl_cons]

private theorem readsOff (slots : List Slot) (nibbles : List UInt8)
    (hlength : slots.length = nibbles.length) (hfour : slots.length ≤ 4)
    (hnibble : ∀ nibble ∈ nibbles, nibble.toNat < 16) : ReadsOff slots nibbles := by
  induction slots generalizing nibbles with
  | nil =>
    obtain rfl : nibbles = [] := by simpa using hlength.symm
    exact readsOff_nil
  | cons slot slots ih =>
    obtain _ | ⟨nibble, nibbles⟩ := nibbles
    · simp at hlength
    simp only [List.length_cons] at hlength hfour
    simp only [List.mem_cons, forall_eq_or_imp] at hnibble
    have hrest := ih nibbles (by omega) (by omega) hnibble.2
    cases slot with
    | fixed digit => exact hrest.fixed digit
    | register => exact hrest.register
    | constant => exact hrest.constant hfour hnibble.1

end Slot

/-! ## Formats of opcodes -/

namespace Format

open Slot (write Takes)

/-- What is read off an accepted opcode spells that opcode. -/
theorem write_readOperands {f : Format} {w : Opcode} (hfour : f.slots.length = 4)
    (haccepts : f.accepts w) :
    write [] f.slots (readOperands none (f.slots.zip w.nibbles)) = w.nibbles.map UInt8.toNat := by
  have hplaces : ∀ place ∈ f.slots.zip w.nibbles, place.1.accepts place.2 :=
    List.all_eq_true.mp haccepts
  exact (Slot.readsBack f.slots w.nibbles (by simpa using hfour) (by omega)
    (fun _ => Opcode.nibble_lt) hplaces).1

/-- Operands of the right shape that spell an opcode are accepted by the format and read off the
opcode again. -/
theorem readOperands_of_write {f : Format} {w : Opcode} {operands : List Operand}
    (hfour : f.slots.length = 4) (htakes : Takes false f.slots operands)
    (hwrite : write [] f.slots operands = w.nibbles.map UInt8.toNat) :
    f.accepts w ∧ readOperands none (f.slots.zip w.nibbles) = operands := by
  obtain ⟨hplaces, hread⟩ :=
    (Slot.readsOff f.slots w.nibbles (by simpa using hfour) (by omega)
      (fun _ => Opcode.nibble_lt)).1 operands htakes hwrite
  exact ⟨List.all_eq_true.mpr hplaces, hread⟩

/-- A register that is read off is one of the nibbles. -/
theorem mem_nibbles_of_register_mem {slots : List Slot} {nibbles : List UInt8} {r : UInt8}
    (h : .register r ∈ readOperands none (slots.zip nibbles)) : r ∈ nibbles := by
  have hplaces (run : Option UInt16) (places : List (Slot × UInt8))
      (h : .register r ∈ readOperands run places) : r ∈ places.map Prod.snd := by
    fun_induction readOperands run places with
    | case1 run => simp [closeRun] at h
    | case2 run value nibble rest ih => simp_all [closeRun]
    | case3 run nibble rest ih =>
      simp only [closeRun, List.mem_append, List.mem_map, List.mem_cons,
        Operand.register.injEq] at h
      obtain ⟨_, _, h⟩ | rfl | h := h
      · cases h
      · simp
      · simp [ih h]
    | case4 run nibble rest ih => simp [ih h]
  obtain ⟨place, hplace, rfl⟩ := List.mem_map.mp (hplaces none _ h)
  exact (List.of_mem_zip hplace).2

end Format

end Chip8
