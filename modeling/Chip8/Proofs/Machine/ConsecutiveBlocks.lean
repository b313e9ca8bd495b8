import Chip8.Proofs.Machine.Blocks
import Chip8.Proofs.Machine.Loading

/-!
# Blocks behind each other

On a machine that moves `I` behind a block, block transfers that follow each other work on places that
follow each other.  Two wraps meet here: an address wraps around the end of memory, and `I` wraps around
its sixteen bits.  A block that begins behind the last address of sixteen bits therefore stands where it
should only if the size of the memory divides 65536.

* `Machine.storeBlocks` and `Machine.loadBlocks`: block transfers one after the other.
* `Machine.places`: the places of the bytes of blocks, wherever `I` takes them.  Nothing else in memory
  is changed (`Machine.getElem?_foldl_storedBlock_of_not_mem`), and if no two bytes share a place, each
  of them stands at its own (`Machine.map_foldl_storedBlock`).
* `Machine.ReadBack`: with `I` set back, the blocks are loaded as they have been stored.  That is so if
  and only if every byte stands at its place (`Machine.readBack_iff`).
* `Machine.Unbroken`: every block begins at the place behind the block before it.  Then the places are
  those of one piece (`Machine.Unbroken.places_eq`).
-/

namespace Chip8

namespace Machine

/-! ## Transfers one after the other -/

/-- A block to be stored: what the program has put into the registers, and the last of them that belongs
to the block. -/
structure Block where
  /-- The registers. -/
  v : Registers
  /-- The last register of the block. -/
  last : UInt8

/-- The bytes of a block. -/
def Block.bytes (b : Block) : List UInt8 := b.v.block b.last

/-- The bytes of blocks, one block behind the other. -/
def joined (blocks : List Block) : List UInt8 := blocks.flatMap Block.bytes

/-- Stores blocks, each at `I` as the one before has left it. -/
def storeBlocks : List Block → Machine → Outcome Machine Failure Unit
  | [], m => .done m ()
  | b :: rest, m =>
    match (Instruction.storeRegs b.last).execute { m with v := b.v } with
    | ⟨m, .ok ()⟩ => storeBlocks rest m
    | ⟨m, .error failure⟩ => .fail m failure

/-- Loads blocks by their last registers, each from `I` as the one before has left it.  The answer is
what the registers hold after each of them. -/
def loadBlocks : List UInt8 → Machine → Outcome Machine Failure (List Registers)
  | [], m => .done m []
  | last :: rest, m =>
    match (Instruction.loadRegs last).execute m with
    | ⟨m, .ok ()⟩ => ⟨(loadBlocks rest m).state, (loadBlocks rest m).result.map (m.v :: ·)⟩
    | ⟨m, .error failure⟩ => .fail m failure

/-- From the machine's `I` on, the blocks are loaded in their order, each with the registers that have
been stored. -/
def ReadBack (blocks : List Block) (m : Machine) : Prop :=
  ∃ m' answers, loadBlocks (blocks.map Block.last) m = .done m' answers ∧
    List.Forall₂ (fun b v => ∀ r ≤ b.last, Registers.read v r = b.v.read r) blocks answers

/-- The machine after one block has been stored. -/
def storedBlock (m : Machine) (b : Block) : Machine := ({ m with v := b.v } : Machine).stored b.last

theorem size_memory_storedBlock (m : Machine) (b : Block) :
    (m.storedBlock b).memory.size = m.memory.size :=
  size_memory_stored _ b.last

theorem length_bytes (b : Block) : b.bytes.length = b.last.toNat + 1 := b.v.length_block b.last

theorem joined_cons (b : Block) (rest : List Block) : joined (b :: rest) = b.bytes ++ joined rest :=
  rfl

theorem joined_append (blocks blocks' : List Block) :
    joined (blocks ++ blocks') = joined blocks ++ joined blocks' :=
  List.flatMap_append

/-- No store fails. -/
theorem storeBlocks_eq (blocks : List Block) (m : Machine) :
    storeBlocks blocks m = .done (blocks.foldl storedBlock m) () := by
  induction blocks generalizing m with
  | nil => rfl
  | cons b rest ih =>
    rw [storeBlocks, execute_storeRegs]
    exact ih (m.storedBlock b)

theorem loadBlocks_cons (last : UInt8) (rest : List UInt8) (m : Machine) :
    loadBlocks (last :: rest) m =
      ⟨(loadBlocks rest (m.loaded last)).state,
        (loadBlocks rest (m.loaded last)).result.map ((m.loaded last).v :: ·)⟩ := by
  rw [loadBlocks, execute_loadRegs]
  rfl

theorem readBack_nil (m : Machine) : ReadBack [] m := ⟨m, [], rfl, .nil⟩

/-- Blocks are read back if the first of them is and then the others are. -/
theorem readBack_cons {b : Block} {rest : List Block} {m : Machine} :
    ReadBack (b :: rest) m ↔
      (∀ r ≤ b.last, (m.loaded b.last).reg r = b.v.read r) ∧ ReadBack rest (m.loaded b.last) := by
  simp only [ReadBack, List.map_cons, loadBlocks_cons]
  generalize loadBlocks (rest.map Block.last) (m.loaded b.last) = outcome
  obtain ⟨m', failure | answers⟩ := outcome
  · constructor
    · rintro ⟨_, _, h, -⟩
      cases h
    · rintro ⟨-, _, _, h, -⟩
      cases h
  · constructor
    · rintro ⟨_, _, h, hanswers⟩
      cases h
      obtain ⟨hfirst, hrest⟩ := List.forall₂_cons.mp hanswers
      exact ⟨hfirst, m', answers, rfl, hrest⟩
    · rintro ⟨hfirst, _, _, h, hrest⟩
      cases h
      exact ⟨m', _, rfl, .cons hfirst hrest⟩

/-- Stores keep the configuration and the size of the memory. -/
theorem foldl_storedBlock_keeps (blocks : List Block) (m : Machine) :
    (blocks.foldl storedBlock m).config = m.config ∧
      (blocks.foldl storedBlock m).memory.size = m.memory.size := by
  induction blocks generalizing m with
  | nil => exact ⟨rfl, rfl⟩
  | cons b rest ih =>
    obtain ⟨hconfig, hsize⟩ := ih (m.storedBlock b)
    exact ⟨hconfig, hsize.trans (m.size_memory_storedBlock b)⟩

section Advancing

variable {m : Machine} (hadvance : m.config.advanceIndex = true) {start : Nat}
  (hstart : m.i.toNat = start % 65536)

include hadvance hstart

/-- `I` moves on by the bytes of a block, as far as its sixteen bits can tell. -/
theorem toNat_nextIndex_of_advance (b : Block) :
    (m.nextIndex b.last).toNat = (start + b.bytes.length) % 65536 := by
  rw [toNat_nextIndex, if_pos hadvance, length_bytes]
  omega

theorem toNat_i_foldl_storedBlock (blocks : List Block) :
    (blocks.foldl storedBlock m).i.toNat = (start + (joined blocks).length) % 65536 := by
  induction blocks generalizing m start with
  | nil => exact hstart
  | cons b rest ih =>
    have hnext := toNat_nextIndex_of_advance hadvance hstart b
    rw [List.foldl_cons, ih (m := m.storedBlock b) hadvance hnext, joined_cons, List.length_append,
      Nat.add_assoc]

end Advancing

/-! ## The places of blocks -/

/-- The places of `count` bytes in a memory of `size` bytes, from an address on and around the end of
memory. -/
def ring (size address count : Nat) : List Nat :=
  (List.range count).map fun offset => (address + offset) % size

/-- The places of the bytes of blocks, in their order.  Addresses are counted on from `start`, and `I`
has the lower sixteen bits of the address at which a block begins. -/
def places (size : Nat) : Nat → List Block → List Nat
  | _, [] => []
  | start, b :: rest =>
    ring size (start % 65536) b.bytes.length ++ places size (start + b.bytes.length) rest

section Ring

variable {size address count : Nat}

theorem length_ring : (ring size address count).length = count := by simp [ring]

theorem ring_add (more : Nat) :
    ring size address (count + more) =
      ring size address count ++ ring size (address + count) more := by
  simp [ring, List.range_add, Function.comp_def, Nat.add_assoc]

/-- Only the place of an address counts. -/
theorem ring_congr {address' : Nat} (h : address % size = address' % size) :
    ring size address count = ring size address' count :=
  List.map_congr_left fun offset _ => Nat.ModEq.add_right offset h

theorem nodup_ring (h : count ≤ size) : (ring size address count).Nodup := by
  refine List.Nodup.map_on (fun a ha b hb => ?_) List.nodup_range
  rw [List.mem_range] at ha hb
  exact offset_eq_of_place_eq (by omega) (by omega)

theorem mem_ring {place : Nat} :
    place ∈ ring size address count ↔ ∃ offset < count, (address + offset) % size = place := by
  simp [ring]

/-- What stands at the places of a ring, byte by byte. -/
theorem map_ring_eq_iff {memory : Array UInt8} {bytes : List UInt8} :
    (ring size address bytes.length).map (memory[·]?) = bytes.map some ↔
      ∀ offset < bytes.length, memory[(address + offset) % size]? = bytes[offset]? := by
  rw [ring, List.map_map]
  constructor
  · intro h offset hoffset
    simpa [hoffset] using congrArg (·[offset]?) h
  · intro h
    refine List.ext_getElem (by simp) fun offset _ hoffset => ?_
    rw [List.length_map] at hoffset
    simpa [hoffset] using h offset hoffset

end Ring

section Advancing

variable {m : Machine} (hadvance : m.config.advanceIndex = true) {start : Nat}
  (hstart : m.i.toNat = start % 65536) {blocks : List Block}

include hadvance hstart

/-- Nothing is changed but at the places of the blocks. -/
theorem getElem?_foldl_storedBlock_of_not_mem {address : Nat}
    (h : address ∉ places m.memory.size start blocks) :
    (blocks.foldl storedBlock m).memory[address]? = m.memory[address]? := by
  induction blocks generalizing m start with
  | nil => rfl
  | cons b rest ih =>
    rw [places, List.mem_append, not_or] at h
    obtain ⟨hfirst, hrest⟩ := h
    have hstored : (m.storedBlock b).memory[address]? = m.memory[address]? := by
      refine getElem?_overwritten_of_ne fun offset hoffset heq => hfirst ?_
      rw [← hstart]
      exact mem_ring.mpr ⟨offset, hoffset, heq⟩
    have hnext := toNat_nextIndex_of_advance hadvance hstart b
    rw [← m.size_memory_storedBlock b] at hrest
    rw [List.foldl_cons, ih (m := m.storedBlock b) hadvance hnext hrest, hstored]

/-- If no two bytes share a place, each stands at its own. -/
theorem map_foldl_storedBlock (hroom : (joined blocks).length ≤ m.memory.size)
    (hnodup : (places m.memory.size start blocks).Nodup) :
    (places m.memory.size start blocks).map ((blocks.foldl storedBlock m).memory[·]?) =
      (joined blocks).map some := by
  induction blocks generalizing m start with
  | nil => rfl
  | cons b rest ih =>
    obtain ⟨-, hrest, hapart⟩ := List.nodup_append'.mp hnodup
    rw [joined_cons, List.length_append] at hroom
    have hsize := m.size_memory_storedBlock b
    have hnext := toNat_nextIndex_of_advance hadvance hstart b
    have hbehind := ih (m := m.storedBlock b) hadvance hnext (by omega) (hsize ▸ hrest)
    rw [hsize] at hbehind
    have hblock : b.bytes.length ≤ m.memory.size := by omega
    have hfirst : (ring m.memory.size (start % 65536) b.bytes.length).map
        ((rest.foldl storedBlock (m.storedBlock b)).memory[·]?) = b.bytes.map some := by
      rw [map_ring_eq_iff, ← hstart]
      intro offset hoffset
      -- None of the blocks behind the first comes to this place.
      have hnot : (m.i.toNat + offset) % m.memory.size ∉
          places m.memory.size (start + b.bytes.length) rest :=
        hapart (mem_ring.mpr ⟨offset, hoffset, by rw [hstart]⟩)
      rw [getElem?_foldl_storedBlock_of_not_mem (m := m.storedBlock b) hadvance hnext (hsize ▸ hnot)]
      exact getElem?_overwritten hblock hoffset
    rw [places, joined_cons, List.map_append, List.map_append, List.foldl_cons, hfirst, hbehind]

/-- Blocks are read back if and only if every byte stands at its place. -/
theorem readBack_iff (hsize : 0 < m.memory.size) (hlast : ∀ b ∈ blocks, b.last.toNat < 16) :
    ReadBack blocks m ↔
      (places m.memory.size start blocks).map (m.memory[·]?) = (joined blocks).map some := by
  induction blocks generalizing m start with
  | nil => exact iff_of_true m.readBack_nil rfl
  | cons b rest ih =>
    have hnext := toNat_nextIndex_of_advance hadvance hstart b
    have hrest := ih (m := m.loaded b.last) hadvance hnext hsize fun c hc => hlast c (by simp [hc])
    have hfirst : (∀ r ≤ b.last, (m.loaded b.last).reg r = b.v.read r) ↔
        (ring m.memory.size (start % 65536) b.bytes.length).map (m.memory[·]?) =
          b.bytes.map some := by
      rw [map_ring_eq_iff, ← hstart, length_bytes, forall_offset_iff]
      refine forall₂_congr fun r hr => ?_
      rw [getElem?_of_loaded (hlast b (by simp)) hsize hr, Block.bytes, b.v.getElem?_block b.last hr,
        Option.some_inj]
    rw [readBack_cons, hfirst, hrest, places, joined_cons, List.map_append, List.map_append]
    exact ⟨fun ⟨h, h'⟩ => congrArg₂ (· ++ ·) h h', fun h => List.append_inj h (by simp [length_ring])⟩

end Advancing

/-! ## Blocks in one piece -/

/-- Each of the blocks begins where the one before it ends, the first at `start`.  Addresses are counted
on past sixteen bits here, and `I` has to name the same place of a memory of `size` bytes. -/
def Unbroken (size start : Nat) : List Block → Prop
  | [] => True
  | b :: rest => start % 65536 % size = start % size ∧ Unbroken size (start + b.bytes.length) rest

/-- The two wraps agree up to the last address of sixteen bits.  On the next 65536 addresses they do so
only in a memory whose size divides that number. -/
theorem mod_mod_eq_iff {size address : Nat} (h : address < 131072) :
    address % 65536 % size = address % size ↔ size ∣ 65536 ∨ address < 65536 := by
  by_cases hlow : address < 65536
  · rw [Nat.mod_eq_of_lt hlow]
    exact iff_of_true rfl (.inr hlow)
  · have hwrapped : address % 65536 = address - 65536 := by omega
    have hback : address - (address - 65536) = 65536 := by omega
    have hdvd : address - 65536 ≡ address [MOD size] ↔ size ∣ 65536 := by
      rw [Nat.modEq_iff_dvd' (by omega), hback]
    rw [hwrapped, or_iff_left hlow]
    exact hdvd

/-- Blocks are unbroken if `I` does not pass the last address of sixteen bits before the last of them, or
if it may do so. -/
theorem unbroken_of {size start : Nat} {blocks : List Block}
    (h : size ∣ 65536 ∨ start + (joined blocks.dropLast).length < 65536) :
    Unbroken size start blocks := by
  induction blocks generalizing start with
  | nil => trivial
  | cons b rest ih =>
    refine ⟨?_, ?_⟩
    · rcases h with hdvd | hlow
      · exact Nat.mod_mod_of_dvd start hdvd
      · have hstart : start % 65536 = start := Nat.mod_eq_of_lt (by omega)
        rw [hstart]
    · cases rest with
      | nil => trivial
      | cons c rest =>
        rw [List.dropLast_cons_cons, joined_cons, List.length_append, ← Nat.add_assoc] at h
        exact ih h

namespace Unbroken

variable {size start : Nat}

/-- Every block of unbroken ones begins at its place. -/
theorem begins {before after : List Block} {b : Block}
    (h : Unbroken size start (before ++ b :: after)) :
    (start + (joined before).length) % 65536 % size = (start + (joined before).length) % size := by
  induction before generalizing start with
  | nil => exact h.1
  | cons c before ih =>
    rw [joined_cons, List.length_append, ← Nat.add_assoc]
    exact ih h.2

/-- Unbroken blocks take the places of one piece. -/
theorem places_eq {blocks : List Block} (h : Unbroken size start blocks) :
    places size start blocks = ring size start (joined blocks).length := by
  induction blocks generalizing start with
  | nil => rfl
  | cons b rest ih =>
    rw [places, ring_congr h.1, ih h.2, joined_cons, List.length_append, ring_add]

end Unbroken

/-- Blocks that are stored one after the other begin each at the place behind the one before if and only
if the last of them begins at an address of sixteen bits, counted on from the first, or the size of the
memory divides 65536.  Then they are one piece in memory, nothing else there is changed, and with `I` set
back they are loaded in their order.

In any case nothing is changed but at the places that `I` takes the blocks to, and the blocks are loaded
in their order if and only if every byte still stands at its place there.  So they are if no two of these
places are the same. -/
theorem consecutive_blocks_join {m : Machine} (hconfig : m.config.flaw? = none)
    (hmemory : m.memory.size = m.config.memorySize) (hadvance : m.config.advanceIndex = true)
    {blocks : List Block} (hlast : ∀ b ∈ blocks, b.last.toNat < 16)
    (hroom : (joined blocks).length ≤ m.memory.size) :
    let place (offset : Nat) := (m.i.toNat + offset) % m.memory.size
    let fits := m.memory.size ∣ 65536 ∨ m.i.toNat + (joined blocks.dropLast).length < 65536
    let taken := places m.memory.size m.i.toNat blocks
    ∃ m', storeBlocks blocks m = .done m' () ∧
      ((∀ before b after, blocks = before ++ b :: after →
        ∃ m₁, storeBlocks before m = .done m₁ () ∧
          m₁.i.toNat % m.memory.size = place (joined before).length) ↔ fits) ∧
      (fits →
        (∀ offset < (joined blocks).length,
          m'.memory[place offset]? = (joined blocks)[offset]?) ∧
        (∀ address, (∀ offset < (joined blocks).length, address ≠ place offset) →
          m'.memory[address]? = m.memory[address]?) ∧
        ReadBack blocks { m' with i := m.i }) ∧
      (∀ address ∉ taken, m'.memory[address]? = m.memory[address]?) ∧
      (ReadBack blocks { m' with i := m.i } ↔
        taken.map (m'.memory[·]?) = (joined blocks).map some) ∧
      (taken.Nodup → ReadBack blocks { m' with i := m.i }) := by
  intro place fits taken
  have hi : m.i.toNat < 65536 := m.i.toNat_lt
  have hstart : m.i.toNat = m.i.toNat % 65536 := (Nat.mod_eq_of_lt hi).symm
  have hlimit : m.memory.size ≤ 65536 := by
    rw [hmemory]
    exact (Config.flaw?_eq_none_iff.mp hconfig).2.2
  have hfont := font_lt_size hconfig hmemory
  obtain ⟨hconfig', hsize⟩ := foldl_storedBlock_keeps blocks m
  have hread : ReadBack blocks { blocks.foldl storedBlock m with i := m.i } ↔
      taken.map ((blocks.foldl storedBlock m).memory[·]?) = (joined blocks).map some := by
    have hadvance' : (blocks.foldl storedBlock m).config.advanceIndex = true := by
      rw [hconfig', hadvance]
    have hiff := readBack_iff (m := { blocks.foldl storedBlock m with i := m.i }) hadvance' hstart
      (by rw [hsize]; omega) hlast
    simpa only [hsize] using hiff
  have hapart (hnodup : taken.Nodup) :
      taken.map ((blocks.foldl storedBlock m).memory[·]?) = (joined blocks).map some :=
    map_foldl_storedBlock hadvance hstart hroom hnodup
  have hothers (address : Nat) (h : address ∉ taken) :
      (blocks.foldl storedBlock m).memory[address]? = m.memory[address]? :=
    getElem?_foldl_storedBlock_of_not_mem hadvance hstart h
  refine ⟨_, storeBlocks_eq blocks m, ⟨fun hbegins => ?_, fun hfits before b after hsplit => ?_⟩,
    fun hfits => ?_, hothers, hread, fun hnodup => hread.mpr (hapart hnodup)⟩
  · -- The last block alone decides, and it begins less than 131072 above zero.
    rcases List.eq_nil_or_concat' blocks with rfl | ⟨before, b, rfl⟩
    · exact .inr hi
    · have hlength := length_bytes b
      rw [joined_append, List.length_append, joined_cons, List.length_append] at hroom
      obtain ⟨m₁, hstore, hplace⟩ := hbegins before b [] rfl
      rw [storeBlocks_eq] at hstore
      cases hstore
      rw [toNat_i_foldl_storedBlock hadvance hstart] at hplace
      have hbound : m.i.toNat + (joined before).length < 131072 := by omega
      dsimp only [fits]
      rw [List.dropLast_concat]
      exact (mod_mod_eq_iff hbound).mp hplace
  · refine ⟨_, storeBlocks_eq before m, ?_⟩
    rw [toNat_i_foldl_storedBlock hadvance hstart]
    have hunbroken := unbroken_of hfits
    rw [hsplit] at hunbroken
    exact hunbroken.begins
  · have hplaces : taken = ring m.memory.size m.i.toNat (joined blocks).length :=
      (unbroken_of hfits).places_eq
    have hstand := hapart (hplaces ▸ nodup_ring hroom)
    refine ⟨map_ring_eq_iff.mp (hplaces ▸ hstand), fun address haddress => hothers address ?_,
      hread.mpr hstand⟩
    rw [hplaces, mem_ring]
    rintro ⟨offset, hoffset, heq⟩
    exact haddress offset hoffset heq.symm

/-- In a memory of 4096 bytes a block of two registers follows one of one register around the last address
of sixteen bits, which is also the last place. -/
theorem consecutive_blocks_join_around_index :
    ∃ m₀, Machine.new { advanceIndex := true } (.replicate 8 0) = .ok m₀ ∧
      let m : Machine := { m₀ with i := 65535 }
      let blocks : List Block := [⟨Registers.zero.write 0 7, 0⟩, ⟨Registers.zero.write 1 9, 1⟩]
      m.config.flaw? = none ∧ m.memory.size = m.config.memorySize ∧
        m.config.advanceIndex = true ∧ (∀ b ∈ blocks, b.last.toNat < 16) ∧
        (joined blocks).length ≤ m.memory.size ∧ m.memory.size ∣ 65536 ∧
        ∃ m', storeBlocks blocks m = .done m' () ∧ m'.memory[4095]? = some 7 ∧
          m'.memory[0]? = some 0 ∧ m'.memory[1]? = some 9 ∧
          ∃ m'' answers, loadBlocks [0, 1] { m' with i := 65535 } = .done m'' answers ∧
            answers.length = 2 := by
  obtain ⟨m₀, hnew⟩ : ∃ m₀, Machine.new { advanceIndex := true } (.replicate 8 0) = .ok m₀ :=
    ⟨_, rfl⟩
  have hfresh := fresh_of_new hnew
  have hsize : m₀.memory.size = 4096 := hfresh.size_memory
  have hmemory := hfresh.sound.size_memory
  have hadvance : m₀.config.advanceIndex = true := by rw [hfresh.config_eq]
  let blocks : List Block := [⟨Registers.zero.write 0 7, 0⟩, ⟨Registers.zero.write 1 9, 1⟩]
  have hlast : ∀ b ∈ blocks, b.last.toNat < 16 := by decide
  have hjoined : joined blocks = [7, 0, 9] := by decide
  have hroom : (joined blocks).length ≤ m₀.memory.size := by
    rw [hjoined, hsize]
    decide
  have hdvd : m₀.memory.size ∣ 65536 := by
    rw [hsize]
    decide
  obtain ⟨m', hstore, -, hpiece, -⟩ := consecutive_blocks_join (m := { m₀ with i := 65535 })
    hfresh.sound.config hmemory hadvance hlast hroom
  obtain ⟨hbytes, -, m'', answers, hload, hanswers⟩ := hpiece (.inl hdvd)
  simp only [hsize, hjoined] at hbytes
  exact ⟨m₀, hnew, hfresh.sound.config, hmemory, hadvance, hlast, hroom, hdvd, m', hstore,
    hbytes 0 (by decide), hbytes 1 (by decide), hbytes 2 (by decide), m'', answers, hload,
    hanswers.length_eq.symm⟩

/-- In a memory of 4000 bytes the byte behind the one at the last address of sixteen bits belongs at place
1536.  It is written to place 0, since `I` has become zero. -/
theorem blocks_part_behind_last_index :
    ∃ m₀, Machine.new { memorySize := 4000, advanceIndex := true } (.replicate 8 0) = .ok m₀ ∧
      let m : Machine := { m₀ with i := 65535 }
      let blocks : List Block := [⟨Registers.zero.write 0 2, 0⟩, ⟨Registers.zero.write 0 2, 0⟩]
      (joined blocks).length ≤ m.memory.size ∧ (joined blocks)[1]? = some 2 ∧
        ∃ m', storeBlocks blocks m = .done m' () ∧
          (m.i.toNat + 1) % m.memory.size = 1536 ∧ m'.memory[1536]? = some 0 ∧
          m'.memory[0]? = some 2 := by
  obtain ⟨m₀, hnew⟩ :
      ∃ m₀, Machine.new { memorySize := 4000, advanceIndex := true } (.replicate 8 0) = .ok m₀ :=
    ⟨_, rfl⟩
  have hfresh := fresh_of_new hnew
  have hsize : m₀.memory.size = 4000 := hfresh.size_memory
  have hadvance : m₀.config.advanceIndex = true := by rw [hfresh.config_eq]
  let b : Block := ⟨Registers.zero.write 0 2, 0⟩
  let m : Machine := { m₀ with i := 65535 }
  have hbytes : b.bytes = [2] := by decide
  have hroom : (joined [b, b]).length ≤ m₀.memory.size := by
    rw [hsize]
    decide
  have hi : (m.storedBlock b).i.toNat = 0 := by
    have hnext : (m.nextIndex b.last).toNat = (65535 + b.bytes.length) % 65536 :=
      toNat_nextIndex_of_advance (m := m) hadvance rfl b
    rw [hbytes] at hnext
    exact hnext
  have hstored : ([b, b].foldl storedBlock m).memory =
      (m₀.memory.setIfInBounds 1535 2).setIfInBounds 0 2 := by
    calc ([b, b].foldl storedBlock m).memory
      _ = overwritten (overwritten m₀.memory 65535 b.bytes) (m.storedBlock b).i.toNat b.bytes := rfl
      _ = (m₀.memory.setIfInBounds 1535 2).setIfInBounds 0 2 := by
        simp [hbytes, hi, overwritten, hsize]
  have hzero : m₀.memory[1536]? = some 0 := by
    have hmemory : m₀.memory = image m₀.memory.size m₀.program m₀.origin.toNat :=
      congrArg memory hfresh.reset_eq.symm
    rw [hmemory, hsize, hfresh.program_eq, getElem?_image _ _ (by decide), if_neg (by simp)]
    decide
  refine ⟨m₀, hnew, hroom, by decide, _, storeBlocks_eq [b, b] m, ?_, ?_, ?_⟩
  · rw [hsize]
    exact (by decide : ((65535 : UInt16).toNat + 1) % 4000 = 1536)
  · rw [hstored]
    simpa using hzero
  · rw [hstored]
    simp [hsize]

/-- In a memory of 65535 bytes the last address of sixteen bits has place zero, and so has the address
behind it, at which `I` begins anew.  The second of two blocks is written over the first, which is not
read back. -/
theorem blocks_share_first_place :
    ∃ m₀, Machine.new { memorySize := 65535, advanceIndex := true } (.replicate 8 0) = .ok m₀ ∧
      let m : Machine := { m₀ with i := 65535 }
      let blocks : List Block := [⟨Registers.zero.write 0 7, 0⟩, ⟨Registers.zero.write 0 9, 0⟩]
      (joined blocks).length ≤ m.memory.size ∧ places m.memory.size m.i.toNat blocks = [0, 0] ∧
        ∃ m', storeBlocks blocks m = .done m' () ∧ ¬ ReadBack blocks { m' with i := m.i } := by
  obtain ⟨m₀, hnew⟩ :
      ∃ m₀, Machine.new { memorySize := 65535, advanceIndex := true } (.replicate 8 0) = .ok m₀ :=
    ⟨_, rfl⟩
  have hfresh := fresh_of_new hnew
  have hadvance : m₀.config.advanceIndex = true := by rw [hfresh.config_eq]
  let m : Machine := { m₀ with i := 65535 }
  let blocks : List Block := [⟨Registers.zero.write 0 7, 0⟩, ⟨Registers.zero.write 0 9, 0⟩]
  have hsize : m.memory.size = 65535 := hfresh.size_memory
  have hplaces : places 65535 65535 blocks = [0, 0] := by decide
  have hjoined : joined blocks = [7, 9] := by decide
  obtain ⟨hconfig, hkept⟩ := foldl_storedBlock_keeps blocks m
  refine ⟨m₀, hnew, by rw [hsize]; decide, by rw [hsize]; exact hplaces, _, storeBlocks_eq blocks m,
    fun hback => ?_⟩
  -- Both bytes would have to stand at place zero.
  have hstand : (places (blocks.foldl storedBlock m).memory.size 65535 blocks).map
      ((blocks.foldl storedBlock m).memory[·]?) = (joined blocks).map some :=
    (readBack_iff (m := { blocks.foldl storedBlock m with i := 65535 }) (hconfig ▸ hadvance) rfl
      (by rw [hkept, hsize]; decide) (by decide)).mp hback
  rw [hkept, hsize, hplaces, hjoined] at hstand
  obtain ⟨hseven, hnine, -⟩ : (blocks.foldl storedBlock m).memory[0]? = some 7 ∧
      (blocks.foldl storedBlock m).memory[0]? = some 9 ∧ True := by simpa using hstand
  rw [hseven] at hnine
  cases hnine

end Machine

end Chip8
