import Chip8.Instruction.Listing
import Chip8.Proofs.Decoder.History
import Chip8.Proofs.Instruction.Filling
import Chip8.Proofs.Text.Hex
import Chip8.Proofs.Text.Joined

/-!
# Instructions are told apart by their lines in a listing

Several instructions share a mnemonic and differ in the syntax of their operands only.

* `Token`: an operand of a line, which is a field of the instruction or a fixed word.  Tokens that
  differ in their fields only have different texts (`Token.eq_of_text`) that look alike at their
  beginning (`Token.mark_blank`).
* `Instruction.tokens`: the operands of an instruction, in which its fields stand in order
  (`operandTexts_eq` and `operands_eq`).
* `Instruction.parts_of_text_eq`: a line determines the mnemonic and the texts of the operands.
* `Instruction.eq_of_parts`: the mnemonic and the texts of the operands determine the instruction.
  The beginnings of the texts tell apart the kinds that share a mnemonic (`eq_of_marks`).
* `Instruction.text_unambiguous`: the line determines the instruction, and the opcode.
-/

namespace Chip8

/-! ## Operands of a line -/

/-- An operand of a line. -/
inductive Token where
  /-- The name of a register. -/
  | register (number : UInt8)
  /-- A constant in hexadecimal, with at least `width` digits. -/
  | hex (width : Nat) (value : UInt16)
  /-- A constant in decimal. -/
  | decimal (value : UInt16)
  /-- A fixed word. -/
  | word (text : String)
deriving DecidableEq

namespace Token

/-- The token as it is written. -/
def text : Token → String
  | register number => "V" ++ Text.Hex.padded 1 number.toNat
  | hex width value => Text.Hex.marked width value.toNat
  | decimal value => toString value.toNat
  | word text => text

/-- The field of the instruction that the token shows. -/
def operand? : Token → Option Operand
  | register number => some (.register number)
  | hex _ value | decimal value => some (.constant value)
  | word _ => none

/-- The token with zero for its field. -/
def blank : Token → Token
  | register _ => register 0
  | hex width _ => hex width 0
  | decimal _ => decimal 0
  | word text => word text

private theorem toString_injective {m n : Nat} (h : toString m = toString n) : m = n := by
  have hread (k : Nat) : Nat.ofDigitChars 10 (toString k).toList 0 = k := by
    rw [Nat.toString_eq_repr, Nat.toList_repr]
    exact Nat.ofDigitChars_toDigits (by decide) (by decide)
  rw [← hread m, h, hread]

/-- Tokens that differ in their fields only have different texts. -/
theorem eq_of_text {t t' : Token} (hblank : t.blank = t'.blank) (htext : t.text = t'.text) :
    t = t' := by
  cases t <;> cases t' <;>
    simp only [blank, reduceCtorEq, hex.injEq, word.injEq, and_true] at hblank
  case register.register number number' =>
    have hnumber := Text.Hex.padded_injective 1 ((String.append_right_inj _).mp htext)
    rw [UInt8.toNat_inj.mp hnumber]
  case hex.hex width value width' value' =>
    obtain rfl := hblank
    have hvalue := Text.Hex.padded_injective width ((String.append_right_inj _).mp htext)
    rw [UInt16.toNat_inj.mp hvalue]
  case decimal.decimal value value' =>
    rw [UInt16.toNat_inj.mp (toString_injective htext)]
  case word.word text text' => rw [hblank]

theorem eq_of_map_text {ts ts' : List Token} (hblank : ts.map blank = ts'.map blank)
    (htext : ts.map text = ts'.map text) : ts = ts' := by
  have hzip : ts.map (fun t => (t.blank, t.text)) = ts'.map (fun t => (t.blank, t.text)) := by
    rw [← List.zip_map', ← List.zip_map', hblank, htext]
  refine (List.map_inj_right fun t t' h => ?_).mp hzip
  exact eq_of_text (congrArg Prod.fst h) (congrArg Prod.snd h)

/-! ## Marks -/

/-- The first character of a text, all digits being alike. -/
def mark (text : String) : Option Char :=
  text.toList.head?.map fun c => if c.isDigit then '0' else c

theorem mark_of_toList_eq {text : String} {c : Char} {rest : List Char}
    (h : text.toList = c :: rest) : mark text = some (if c.isDigit then '0' else c) := by
  rw [mark, h]
  rfl

theorem mark_text (t : Token) :
    mark t.text =
      match t with
      | register _ => some 'V'
      | hex .. | decimal _ => some '0'
      | word text => mark text := by
  cases t with
  | register number =>
    have htext : (register number).text.toList = 'V' :: (Text.Hex.padded 1 number.toNat).toList :=
      String.toList_append ..
    exact mark_of_toList_eq htext
  | hex width value =>
    have htext : (hex width value).text.toList =
        '0' :: 'x' :: (Text.Hex.padded width value.toNat).toList := String.toList_append ..
    exact mark_of_toList_eq htext
  | decimal value =>
    have htext : (decimal value).text.toList = Nat.toDigits 10 value.toNat := Nat.toList_repr
    obtain ⟨c, rest, hcons⟩ := List.exists_cons_of_ne_nil (Nat.toDigits_ne_nil (n := value.toNat))
    have hmem : c ∈ Nat.toDigits 10 value.toNat := hcons ▸ List.mem_cons_self
    have hdigit : c.isDigit = true := Nat.isDigit_of_mem_toDigits (by decide) (by decide) hmem
    rw [mark_of_toList_eq (htext.trans hcons), if_pos hdigit]
  | word text => rfl

/-- The mark of a token does not depend on its field. -/
theorem mark_blank (t : Token) : mark t.blank.text = mark t.text := by
  rw [mark_text, mark_text]
  cases t <;> rfl

/-- The only commas are those of words. -/
theorem comma_not_mem_text {t : Token} (hword : ∀ text, t = word text → ',' ∉ text.toList) :
    ',' ∉ t.text.toList := by
  cases t with
  | register number =>
    rw [text, String.toList_append, List.mem_append, not_or]
    exact ⟨by decide, Text.Hex.not_mem_padded (by decide) 1 number.toNat⟩
  | hex width value =>
    rw [text, Text.Hex.marked, String.toList_append, List.mem_append, not_or]
    exact ⟨by decide, Text.Hex.not_mem_padded (by decide) width value.toNat⟩
  | decimal value =>
    intro h
    rw [text, Nat.toString_eq_repr, Nat.toList_repr] at h
    exact absurd (Nat.isDigit_of_mem_toDigits (by decide) (by decide) h) (by decide)
  | word text => exact hword text rfl

end Token

namespace Instruction

/-- The operands of the instruction as they stand in its line. -/
def tokens : Instruction → List Token
  | clearScreen | ret | scrollRight | scrollLeft | lowRes | highRes => []
  | scrollDown n => [.decimal n.toUInt16]
  | jump addr | call addr => [.hex 3 addr]
  | jumpOffset addr => [.word "V0", .hex 3 addr]
  | loadIndex addr => [.word "I", .hex 3 addr]
  | skipEqByte x byte | skipNeByte x byte | loadByte x byte | addByte x byte | random x byte =>
    [.register x, .hex 2 byte.toUInt16]
  | skipEqReg x y | skipNeReg x y | copy x y | or x y | and x y | xor x y | addReg x y
  | subReg x y | shiftRight x y | subFrom x y | shiftLeft x y => [.register x, .register y]
  | draw x y n => [.register x, .register y, .decimal n.toUInt16]
  | skipKeyDown x | skipKeyUp x => [.register x]
  | readDelay x => [.register x, .word "DT"]
  | waitKey x => [.register x, .word "K"]
  | setDelay x => [.word "DT", .register x]
  | setSound x => [.word "ST", .register x]
  | addIndex x => [.word "I", .register x]
  | loadGlyph x => [.word "F", .register x]
  | storeDecimal x => [.word "B", .register x]
  | storeRegs x => [.word "[I]", .register x]
  | loadRegs x => [.register x, .word "[I]"]

theorem operandTexts_eq (i : Instruction) : i.operandTexts = i.tokens.map Token.text := by
  cases i <;> rfl

theorem operands_eq (i : Instruction) : i.operands = i.tokens.filterMap Token.operand? := by
  cases i <;> rfl

/-- The prototype of the instruction has its mnemonic and its operands with zeros for the fields. -/
theorem exists_blank (i : Instruction) :
    ∃ proto ∈ all, proto.mnemonic = i.mnemonic ∧ proto.tokens = i.tokens.map Token.blank ∧
      ∀ o, proto.fill o = i.fill o := by
  obtain ⟨proto, hproto, -, hfill⟩ := i.exists_prototype
  refine ⟨proto, List.mem_of_getElem? hproto, ?_⟩
  cases i <;> obtain rfl := Option.some.inj hproto <;> exact ⟨rfl, rfl, hfill⟩

/-! ## What tells lines apart -/

theorem space_not_mem_mnemonic (i : Instruction) : ' ' ∉ i.mnemonic.toList := by
  have hall : ∀ proto ∈ all, ' ' ∉ proto.mnemonic.toList := by decide +kernel
  obtain ⟨proto, hmem, hmnemonic, -⟩ := i.exists_blank
  exact hmnemonic ▸ hall proto hmem

theorem comma_not_mem_operandTexts {i : Instruction} {text : String} (h : text ∈ i.operandTexts) :
    ',' ∉ text.toList := by
  have hall : ∀ proto ∈ all, ∀ text ∈ proto.operandTexts, ',' ∉ text.toList := by decide +kernel
  obtain ⟨proto, hmem, -, htokens, -⟩ := i.exists_blank
  rw [operandTexts_eq, List.mem_map] at h
  obtain ⟨t, ht, rfl⟩ := h
  refine Token.comma_not_mem_text fun text hword => hall proto hmem text ?_
  rw [operandTexts_eq, htokens, List.map_map, List.mem_map]
  exact ⟨t, ht, by rw [hword]; rfl⟩

/-- What stands behind the mnemonic in a line. -/
def behindMnemonic (operandTexts : List String) : List Char :=
  match operandTexts with
  | [] => []
  | texts => ' ' :: (", ".intercalate texts).toList

theorem toList_text (i : Instruction) :
    i.text.toList = i.mnemonic.toList ++ behindMnemonic i.operandTexts := by
  unfold text
  cases i.operandTexts with
  | nil => exact (List.append_nil _).symm
  | cons text texts => simp [behindMnemonic]

theorem eq_space_of_head? {texts : List String} {c : Char} (h : c ∈ (behindMnemonic texts).head?) :
    c = ' ' := by
  cases texts with
  | nil => cases h
  | cons text texts => exact (Option.some.inj h).symm

theorem behindMnemonic_injective {texts texts' : List String}
    (hfree : ∀ text ∈ texts, ',' ∉ text.toList) (hfree' : ∀ text ∈ texts', ',' ∉ text.toList)
    (h : behindMnemonic texts = behindMnemonic texts') : texts = texts' := by
  have hchars {texts : List String} (h : ∀ text ∈ texts, ',' ∉ text.toList) :
      ∀ chars ∈ texts.map String.toList, ',' ∉ chars := by
    simpa using h
  match texts, texts' with
  | [], [] => rfl
  | [], _ :: _ => cases h
  | _ :: _, [] => cases h
  | text :: texts, text' :: texts' =>
    have hjoined := (List.cons.inj h).2
    have hsep : ", ".toList = [',', ' '] := rfl
    rw [String.toList_intercalate, String.toList_intercalate, hsep] at hjoined
    have hmap := Text.intercalate_injective (List.cons_ne_nil _ _) (List.cons_ne_nil _ _)
      (by decide) (hchars hfree) (hchars hfree') hjoined
    exact (List.map_inj_right fun _ _ => String.toList_injective).mp hmap

/-- The mnemonic and the operands can be told apart in a line, and the operands from each other. -/
theorem parts_of_text_eq {a b : Instruction} (h : a.text = b.text) :
    a.mnemonic = b.mnemonic ∧ a.operandTexts = b.operandTexts := by
  have hlists := congrArg String.toList h
  rw [toList_text, toList_text] at hlists
  obtain ⟨hmnemonic, hbehind⟩ := Text.eq_of_append_eq a.space_not_mem_mnemonic
    b.space_not_mem_mnemonic (fun _ => eq_space_of_head?) (fun _ => eq_space_of_head?) hlists
  refine ⟨String.toList_injective hmnemonic, ?_⟩
  exact behindMnemonic_injective (fun _ => comma_not_mem_operandTexts)
    (fun _ => comma_not_mem_operandTexts) hbehind

/-- Prototypes with the same mnemonic are told apart by the marks of their operands.  The fixed word
`V0` has the mark of a register, but no other jump has two operands. -/
theorem eq_of_marks : ∀ p ∈ all, ∀ q ∈ all, p.mnemonic = q.mnemonic →
    p.operandTexts.map Token.mark = q.operandTexts.map Token.mark → p = q := by
  decide +kernel

/-- Instructions with the same mnemonic and the same texts for operands are the same. -/
theorem eq_of_parts {a b : Instruction} (hmnemonic : a.mnemonic = b.mnemonic)
    (htexts : a.operandTexts = b.operandTexts) : a = b := by
  obtain ⟨p, hp, hpa, htokensa, hfilla⟩ := a.exists_blank
  obtain ⟨q, hq, hqb, htokensb, hfillb⟩ := b.exists_blank
  have hmarks {proto i : Instruction} (h : proto.tokens = i.tokens.map Token.blank) :
      proto.operandTexts.map Token.mark = i.operandTexts.map Token.mark := by
    rw [operandTexts_eq, operandTexts_eq, h, List.map_map, List.map_map, List.map_map]
    exact List.map_congr_left fun t _ => t.mark_blank
  have hpq : p = q := by
    refine eq_of_marks p hp q hq (by rw [hpa, hqb, hmnemonic]) ?_
    rw [hmarks htokensa, hmarks htokensb, htexts]
  subst hpq
  -- The operands now differ in their fields at most, and the texts show the fields.
  have htokens : a.tokens = b.tokens := by
    rw [operandTexts_eq, operandTexts_eq] at htexts
    exact Token.eq_of_map_text (htokensa.symm.trans htokensb) htexts
  have hoperands : a.operands = b.operands := by rw [operands_eq, operands_eq, htokens]
  refine eq_of_fields (fun o => (hfilla o).symm.trans (hfillb o)) ?_ ?_
  · rw [registers, registers, hoperands]
  · rw [constant?, constant?, hoperands]

/-- An instruction can be told from its line in a listing, and so can the opcode that has been decoded
to it by decoders with any past. -/
theorem text_unambiguous :
    (∀ a b : Instruction, a.text = b.text → a = b) ∧
      ∀ (history history' : List Opcode) (w w' : Opcode) (a b : Instruction),
        ((Decoder.after history).decode w).2 = .ok a →
        ((Decoder.after history').decode w').2 = .ok b → w ≠ w' → a.text ≠ b.text := by
  have hinjective (a b : Instruction) (h : a.text = b.text) : a = b := by
    obtain ⟨hmnemonic, htexts⟩ := parts_of_text_eq h
    exact eq_of_parts hmnemonic htexts
  refine ⟨hinjective, ?_⟩
  intro history history' w w' a b ha hb hne htext
  rw [Decoder.decode_of_coherent (Decoder.coherent_after history)] at ha
  rw [Decoder.decode_of_coherent (Decoder.coherent_after history'), ← hinjective a b htext] at hb
  exact hne (Opcode.eq_of_decode_eq ha hb)

/-- The forms of a jump, of which one names a register in a fixed word, and two opcodes that load a
register. -/
theorem text_unambiguous_forms :
    (jump 0x2A8).text ≠ (jumpOffset 0x2A8).text ∧
      ((Decoder.after []).decode 0x6102).2 = .ok (loadByte 1 2) ∧
      ((Decoder.after [0x6102]).decode 0x8120).2 = .ok (copy 1 2) ∧
      (loadByte 1 2).text ≠ (copy 1 2).text := by
  have hload : ((Decoder.after []).decode 0x6102).2 = .ok (loadByte 1 2) :=
    (Decoder.decode_of_coherent (Decoder.coherent_after _) _).trans (Opcode.decode_of_nibbles_eq rfl)
  have hcopy : ((Decoder.after [0x6102]).decode 0x8120).2 = .ok (copy 1 2) :=
    (Decoder.decode_of_coherent (Decoder.coherent_after _) _).trans (Opcode.decode_of_nibbles_eq rfl)
  refine ⟨fun h => ?_, hload, hcopy, text_unambiguous.2 _ _ _ _ _ _ hload hcopy (by decide)⟩
  cases text_unambiguous.1 _ _ h

end Instruction

end Chip8
