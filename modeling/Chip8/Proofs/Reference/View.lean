import Chip8.Machine.Step
import Chip8.Proofs.Machine.Blocks
import Chip8.Proofs.Reference

/-!
# Machines seen as states of the reference interpreter

`Machine.view` forgets what the reference interpreter does not know: the decoder, the loaded program,
the note that the screen has changed and the widths of all numbers.  Each lemma here says what a part
of an instruction does to the view, in the terms of the reference interpreter.
-/

namespace Chip8

open Reference

namespace Machine

/-- The machine as a state of the reference interpreter. -/
def view (m : Machine) : State where
  size := m.memory.size
  advanceIndex := m.config.advanceIndex
  rawDigits := decide (m.config.decimals = .rawDigits)
  shiftsVy := decide (m.config.shiftSource = .vy)
  memory := fun address => (m.memory.getD address 0).toNat
  v := fun r => (m.v[r]?.getD 0).toNat
  i := m.i.toNat
  pc := m.pc.toNat
  stack := m.stack.frames.map UInt16.toNat
  height := m.screen.height
  width := m.screen.width
  lit := m.screen.grid
  key := fun key => m.keypad.keys.toArray.getD key false
  delay := m.delay.count.toNat
  sound := m.sound.count.toNat
  blocked := m.blocked
  exit := m.exitCode.map UInt32.toNat
  stream := fun index => (Random.byteAt m.random.key (m.random.drawn + index)).toNat

/-! ## Registers -/

theorem view_v {m : Machine} {r : UInt8} (hr : r.toNat < 16) :
    m.view.v r.toNat = (m.reg r).toNat := by
  have hread : m.v[r.toNat % 16]? = some (m.reg r) :=
    Vector.getElem?_eq_getElem (Registers.place_lt r)
  rw [Nat.mod_eq_of_lt hr] at hread
  simp [view, hread]

theorem view_setReg {m : Machine} {r : UInt8} (hr : r.toNat < 16) (value : UInt8) :
    (m.setReg r value).view = m.view.set r.toNat value.toNat := by
  have hv : (m.setReg r value).view.v = (m.view.set r.toNat value.toNat).v := by
    funext other
    by_cases heq : other = r.toNat
    · subst heq
      simp [view, setReg, Registers.write, State.set, Nat.mod_eq_of_lt hr, hr]
    · simp [view, setReg, Registers.write, State.set, Nat.mod_eq_of_lt hr, heq, Ne.symm heq]
  show { m.view with v := (m.setReg r value).view.v } = _
  rw [hv]
  rfl

theorem view_setFlag (m : Machine) (flag : Bool) :
    (m.setFlag flag).view = m.view.set 15 flag.toNat := by
  have hflag : (if flag then 1 else 0 : UInt8).toNat = flag.toNat := by cases flag <;> rfl
  rw [setFlag, view_setReg (by decide), hflag]
  rfl

theorem view_setReg_setFlag {m : Machine} {r : UInt8} (hr : r.toNat < 16) (value : UInt8)
    (flag : Bool) :
    ((m.setReg r value).setFlag flag).view = m.view.setWithFlag r.toNat value.toNat flag := by
  rw [view_setFlag, view_setReg hr]
  rfl

/-! ## Arithmetic of bytes -/

theorem beq_eq_decide (a b : UInt8) : (a == b) = decide (a.toNat = b.toNat) := by
  rw [Bool.eq_iff_iff, beq_iff_eq, decide_eq_true_eq, UInt8.toNat_inj]

theorem bne_eq_decide (a b : UInt8) : (a != b) = decide (a.toNat ≠ b.toNat) := by
  rw [bne, beq_eq_decide, decide_not]

theorem toNat_add_mod (a b : UInt8) : (a + b).toNat = (a.toNat + b.toNat) % 256 :=
  UInt8.toNat_add a b

theorem toNat_sub_mod (a b : UInt8) : (a - b).toNat = (a.toNat + 256 - b.toNat) % 256 := by
  have hb := b.toNat_lt
  rw [UInt8.toNat_sub]
  omega

theorem toNat_shiftRight_one (a : UInt8) : (a >>> 1).toNat = a.toNat / 2 := by
  rw [UInt8.toNat_shiftRight]
  exact Nat.shiftRight_eq_div_pow a.toNat 1

theorem toNat_shiftLeft_one (a : UInt8) : (a <<< 1).toNat = a.toNat * 2 % 256 := by
  rw [UInt8.toNat_shiftLeft]
  exact congrArg (· % 256) (Nat.shiftLeft_eq a.toNat 1)

theorem testBit_zero_eq (a : UInt8) : a.toNat.testBit 0 = decide (a.toNat % 2 = 1) :=
  Nat.testBit_zero a.toNat

theorem testBit_seven_eq (a : UInt8) : a.toNat.testBit 7 = decide (a.toNat / 128 = 1) := by
  have ha := a.toNat_lt
  rw [Nat.testBit_eq_decide_div_mod_eq]
  refine decide_eq_decide.mpr ?_
  omega

theorem view_shiftOperand {m : Machine} {x y : UInt8} (hx : x.toNat < 16) (hy : y.toNat < 16) :
    (if m.view.shiftsVy then m.view.v y.toNat else m.view.v x.toNat) =
      (m.shiftOperand x y).toNat := by
  rw [view_v hx, view_v hy]
  cases hsource : m.config.shiftSource <;> simp [view, shiftOperand, hsource]

/-! ## The program counter and `I` -/

theorem view_skipIf (m : Machine) (condition : Bool) :
    (m.skipIf condition).view = m.view.skipIf condition := by
  have hpc : (m.pc + if condition then 4 else 2).toNat =
      (m.pc.toNat + if condition then 4 else 2) % 65536 := by
    rw [UInt16.toNat_add]
    cases condition <;> rfl
  show { m.view with pc := (m.pc + if condition then 4 else 2).toNat } = _
  rw [hpc]
  rfl

theorem view_moveOn (m : Machine) {i : Instruction} (hi : i.isJump = false) :
    (m.moveOn i).view = m.view.next := by
  have hblocked : m.view.blocked = m.blocked := rfl
  rw [State.next, hblocked]
  cases hstays : m.blocked with
  | true => simp [moveOn, hi, hstays]
  | false =>
    have hpc : (m.pc + 2).toNat = (m.pc.toNat + 2) % 65536 := UInt16.toNat_add m.pc 2
    have hmoved : m.moveOn i = { m with pc := m.pc + 2 } := by simp [moveOn, hi, hstays]
    rw [hmoved]
    show { m.view with pc := (m.pc + 2).toNat } = _
    rw [hpc]
    rfl

theorem moveOn_of_isJump (m : Machine) {i : Instruction} (hi : i.isJump = true) :
    m.moveOn i = m := by
  simp [moveOn, hi]

theorem view_passBlock (m : Machine) (x : UInt8) :
    (m.passBlock x).view = m.view.passBlock x.toNat := by
  have hadvance : m.view.advanceIndex = m.config.advanceIndex := rfl
  have hx := x.toNat_lt
  have hi : (m.i + x.toUInt16 + 1).toNat = (m.i.toNat + x.toNat + 1) % 65536 := by
    simp only [UInt16.toNat_add, UInt8.toNat_toUInt16, UInt16.toNat_one]
    omega
  rw [State.passBlock, hadvance]
  cases hblock : m.config.advanceIndex with
  | true => simp only [passBlock, hblock, if_true, view, hi]
  | false => simp [passBlock, hblock]

/-! ## Memory -/

theorem view_writeByte {m : Machine} (h : 0 < m.memory.size) (address : Nat) (value : UInt8) :
    (m.writeByte address value).view = m.view.write address value.toNat := by
  have hlt := Nat.mod_lt address h
  have hmemory : (m.writeByte address value).view.memory =
      (m.view.write address value.toNat).memory := by
    funext place
    by_cases heq : place = address % m.memory.size
    · subst heq
      simp [view, writeByte, State.write, hlt]
    · simp [view, writeByte, State.write, heq, Ne.symm heq]
  have hsize : (m.writeByte address value).memory.size = m.memory.size := by simp [writeByte]
  show { m.view with
    memory := (m.writeByte address value).view.memory
    size := (m.writeByte address value).memory.size } = _
  rw [hmemory, hsize]
  rfl

theorem view_writeBytes {m : Machine} (h : 0 < m.memory.size) (address : Nat)
    (bytes : List UInt8) :
    (m.writeBytes address bytes).view = m.view.writeAll address (bytes.map UInt8.toNat) := by
  induction bytes generalizing m address with
  | nil => rfl
  | cons byte rest ih =>
    have hsize : (m.writeByte address byte).memory.size = m.memory.size := by simp [writeByte]
    rw [writeBytes, ih (by omega), view_writeByte h]
    rfl

/-- The registers of a block in the order of their numbers. -/
theorem map_reg_blockRegisters (m : Machine) {x : UInt8} (hx : x.toNat < 16) :
    ((blockRegisters x).map m.reg).map UInt8.toNat = (List.range (x.toNat + 1)).map m.view.v := by
  rw [blockRegisters, List.map_map, List.map_map]
  refine List.map_congr_left fun r hr => ?_
  have hlt : r < x.toNat + 1 := List.mem_range.mp hr
  have hr' : r.toUInt8.toNat = r := by
    simp only [UInt8.toNat_ofNat']
    omega
  have hv := view_v (m := m) (r := r.toUInt8) (by omega)
  rw [hr'] at hv
  exact hv.symm

/-- Registers that are read one after the other get the bytes of the block. -/
theorem view_readRegisters (m : Machine) {x : UInt8} (hx : x.toNat < 16) :
    (m.readRegisters m.i.toNat (blockRegisters x)).view =
      { m.view with
        v := fun r => if r ≤ x.toNat then m.view.memory ((m.view.i + r) % m.view.size)
          else m.view.v r } := by
  rw [readRegisters_eq]
  refine congrArg (fun v => { m.view with v }) (funext fun r => ?_)
  by_cases hr : r < 16
  · have hnumber : r.toUInt8.toNat = r := Nat.mod_eq_of_lt (by omega)
    have hlt : r.toUInt8.toNat < 16 := by omega
    have hkept := view_v (m := m) hlt
    have hfilled := view_v (m := { m with v := filled m.memory m.v m.i.toNat (blockRegisters x) }) hlt
    have hle : r.toUInt8 ≤ x ↔ r ≤ x.toNat := by rw [UInt8.le_iff_toNat_le, hnumber]
    rw [reg, read_filled _ _ _ hx hlt] at hfilled
    simp only [hnumber, hle] at hkept hfilled
    rw [hkept]
    refine hfilled.trans ?_
    split <;> rfl
  · -- There is no such register, before and after.
    have hnone (v : Registers) : v[r]? = none := by simp [Nat.not_lt.mp hr]
    rw [if_neg (by omega)]
    simp [view, hnone]

/-- The bytes stored for the digits of a number. -/
theorem map_digitByte_digits (m : Machine) (value : UInt8) :
    ((digits value).map (digitByte m.config.decimals)).map UInt8.toNat =
      m.view.decimals value.toNat := by
  have hlt := value.toNat_lt
  have hhundreds : (value / 100).toNat = value.toNat / 100 := by simp
  have htens : (value / 10 % 10).toNat = value.toNat / 10 % 10 := by simp
  have hones : (value % 10).toNat = value.toNat % 10 := by simp
  simp only [digits, List.map_cons, List.map_nil]
  rw [toNat_digitByte _ (by omega), toNat_digitByte _ (by omega), toNat_digitByte _ (by omega),
    hhundreds, htens, hones]
  rfl

/-! ## The screen -/

/-- A dot toggles a pixel if its bit is set, and changes nothing that can be seen if not. -/
theorem view_flipped {m : Machine} (hs : m.screen.WellFormed) (y x : Nat) (bit : Bool) :
    ({ m with screen := m.screen.flipped y x bit } : Machine).view =
      if bit then m.view.toggle (y, x) else m.view := by
  have hlit : (m.screen.flipped y x bit).grid =
      (if bit then m.view.toggle (y, x) else m.view).lit := by
    funext row column
    rw [Screen.grid_flipped hs]
    cases bit with
    | false => simp [view]
    | true =>
      by_cases hplace : row = y % m.screen.height ∧ column = x % m.screen.width <;>
        simp [State.toggle, view, hplace]
  show { m.view with lit := (m.screen.flipped y x bit).grid } = _
  rw [hlit]
  cases bit <;> rfl

/-- The points that dots toggle. -/
def pointsOf (dots : List Screen.Dot) : List (Nat × Nat) :=
  (dots.filter Screen.Dot.bit).map fun dot => (dot.y, dot.x)

theorem pointsOf_cons (dot : Screen.Dot) (dots : List Screen.Dot) :
    pointsOf (dot :: dots) =
      if dot.bit then (dot.y, dot.x) :: pointsOf dots else pointsOf dots := by
  cases hbit : dot.bit <;> simp [pointsOf, hbit]

theorem toggleAll_pointsOf {m : Machine} (hs : m.screen.WellFormed) (collided : Bool)
    (dots : List Screen.Dot) :
    m.view.toggleAll collided (pointsOf dots) =
      (({ m with screen := m.screen.plotted dots }).view,
        collided || m.screen.collides dots) := by
  induction dots generalizing m collided with
  | nil => simp [pointsOf, State.toggleAll, Screen.plotted, Screen.collides]
  | cons dot dots ih =>
    have hrest := ih (m := { m with screen := m.screen.flipped dot.y dot.x dot.bit })
      (hs.flipped dot.y dot.x dot.bit)
      (collided || (m.screen.grid (dot.y % m.screen.height) (dot.x % m.screen.width) && dot.bit))
    rw [view_flipped hs, Bool.or_assoc] at hrest
    refine Eq.trans ?_ hrest
    rw [pointsOf_cons]
    cases dot.bit with
    | false => simp only [Bool.false_eq_true, if_false, Bool.and_false, Bool.or_false]
    | true =>
      simp only [if_true, Bool.and_true]
      rfl

theorem pointsOf_rowsDots (m : Machine) (y x n : Nat) :
    pointsOf (m.rowsDots y x (List.range n)) = m.view.points y x n := by
  rw [pointsOf, rowsDots, List.filter_flatMap, List.map_flatMap, State.points]
  refine congrArg (List.flatMap · (List.range n)) (funext fun row => ?_)
  rw [Screen.rowDots, List.filter_map, List.map_map, State.setBits]
  have hbits : (Screen.Dot.bit ∘ fun column => (⟨y + row, x + column,
      (m.readByte (m.i.toNat + row)).toNat.testBit (7 - column)⟩ : Screen.Dot)) =
      fun column => decide ((m.readByte (m.i.toNat + row)).toNat / 2 ^ (7 - column) % 2 = 1) :=
    funext fun column => Nat.testBit_eq_decide_div_mod_eq
  rw [hbits]
  rfl

/-! ## Keys -/

theorem view_isPressed (m : Machine) (key : UInt8) :
    m.keypad.isPressed key = (decide (key.toNat < 16) && m.view.key key.toNat) := by
  by_cases hkey : key.toNat < 16 <;> simp [view, Keypad.isPressed, hkey]

private theorem map_head?_pressed_aux (m : Machine) (keys : List Nat)
    (hkeys : ∀ key ∈ keys, key < 16) :
    (keys.filterMap fun key =>
      if m.keypad.isPressed key.toUInt8 then some key.toUInt8 else none).head?.map UInt8.toNat =
      keys.find? m.view.key := by
  induction keys with
  | nil => rfl
  | cons key keys ih =>
    have hkey : key < 16 := hkeys key (by simp)
    have htoNat : key.toUInt8.toNat = key := by
      simp only [UInt8.toNat_ofNat']
      omega
    have hpressed := view_isPressed m key.toUInt8
    rw [htoNat, decide_eq_true hkey, Bool.true_and] at hpressed
    rw [List.filterMap_cons, List.find?_cons, hpressed]
    cases m.view.key key with
    | true => simp [htoNat]
    | false =>
      simp only [Bool.false_eq_true, if_false]
      exact ih fun other hother => hkeys other (List.mem_cons_of_mem key hother)

/-- The lowest key that is down. -/
theorem map_firstPressed? (m : Machine) :
    m.keypad.firstPressed?.map UInt8.toNat = (List.range 16).find? m.view.key :=
  map_head?_pressed_aux m (List.range 16) fun _ => List.mem_range.mp

/-! ## Whole instructions -/

theorem grid_clear (s : Screen) : s.clear.grid = fun _ _ => false := by
  funext row column
  simp [Screen.grid, Screen.clear, Array.getD]

theorem view_clear (m : Machine) :
    ({ m with screen := m.screen.clear } : Machine).view =
      { m.view with lit := fun _ _ => false } :=
  congrArg (fun lit => { m.view with lit }) (grid_clear m.screen)

/-- The random bytes to come after the next one. -/
theorem view_random (m : Machine) :
    ({ m with random := m.random.next.2 } : Machine).view =
      { m.view with stream := fun index => m.view.stream (index + 1) } := by
  refine congrArg (fun stream => { m.view with stream }) (funext fun index => ?_)
  simp only [Random.next, view, Nat.add_assoc, Nat.add_comm 1 index]

theorem view_awaitKey {m : Machine} {x : UInt8} (hx : x.toNat < 16) :
    ((m.awaitKey x).moveOn (.waitKey x)).view = m.view.runWait x.toNat := by
  have hkey := m.map_firstPressed?
  rw [view_moveOn _ rfl, State.runWait, ← hkey]
  cases hpressed : m.keypad.firstPressed? with
  | none => simp only [awaitKey, hpressed]; rfl
  | some key =>
    have hset := view_setReg (m := m) hx key
    simp only [awaitKey, hpressed, Option.map_some]
    rw [← hset]
    rfl

theorem view_draw {m : Machine} (hs : m.screen.WellFormed) {x y n : UInt8} (hx : x.toNat < 16)
    (hy : y.toNat < 16) :
    ((m.draw x y n).state.moveOn (.draw x y n)).view = m.view.runDraw x.toNat y.toNat n.toNat := by
  rw [view_moveOn _ rfl, draw_eq hs, State.runDraw, view_v hx, view_v hy, ← pointsOf_rowsDots,
    toggleAll_pointsOf hs]
  exact congrArg State.next (view_setFlag _ _)

/-! ## What the host does -/

/-- A tick counts both timers down. -/
theorem view_tick (m : Machine) :
    m.tick.1.view = { m.view with delay := m.view.delay - 1, sound := m.view.sound - 1 } := by
  have hdelay : m.delay.tick.count.toNat = m.delay.count.toNat - 1 := m.delay.toNat_count_tick
  have hsound : m.sound.tick.count.toNat = m.sound.count.toNat - 1 := m.sound.toNat_count_tick
  show { m.view with delay := m.delay.tick.count.toNat, sound := m.sound.tick.count.toNat } = _
  rw [hdelay, hsound]
  rfl

/-! ## Machines with the same view -/

section Same

variable {m m' : Machine} (h : m.view = m'.view)

include h

theorem pc_eq_of_view_eq : m.pc = m'.pc := UInt16.toNat_inj.mp (congrArg State.pc h)

theorem exitCode_eq_of_view_eq : m.exitCode = m'.exitCode :=
  Option.map_injective (fun _ _ => UInt32.toNat_inj.mp) (congrArg State.exit h)

theorem memory_eq_of_view_eq : m.memory = m'.memory := by
  refine Array.ext (congrArg State.size h) fun address hlt hlt' => ?_
  have hbyte := UInt8.toNat_inj.mp (congrFun (congrArg State.memory h) address)
  rwa [Array.getD_eq_getD_getElem?, Array.getD_eq_getD_getElem?, Array.getElem?_eq_getElem hlt,
    Array.getElem?_eq_getElem hlt'] at hbyte

end Same

end Machine

end Chip8
