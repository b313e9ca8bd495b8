import Mathlib
import Chip8.Proofs.Opcode.Fields

/-!
# The texts that are formats

A text is read as a format if it has four characters and all of them are symbols.  What is wrong with
any other text is its length, or else the first character that is no symbol.

* `Slot.Symbol`: the characters that stand for a slot (`Slot.isSome_ofChar?_iff`).
* `Slot.SameLetter` and `Slot.Alike`: characters that differ in case, or in which letter stands for a
  register.  Characters that are alike stand for the same slot (`Slot.ofChar?_of_alike`).
* `Format.parse_eq_ok_iff`: the texts that are read as a format, and as which.
* `Format.parse_grammar`: the grammar with its faults, and the texts that mean the same.
-/

namespace Chip8

namespace Slot

/-! ## Symbols -/

/-- The characters of formats: hexadecimal digits, and the letters for registers and constants. -/
def Symbol (c : Char) : Prop := c ∈ "0123456789ABCDEFXYNabcdefxyn".toList

instance decidableSymbol : DecidablePred Symbol := fun c =>
  inferInstanceAs (Decidable (c ∈ "0123456789ABCDEFXYNabcdefxyn".toList))

private theorem symbol_of_ascii :
    ∀ n < 128, (ofChar? (Char.ofNat n)).isSome = true ↔ Symbol (Char.ofNat n) := by
  decide +kernel

private theorem ascii_of_symbol {c : Char} (h : Symbol c) : c.toNat < 128 := by
  have hall : ("0123456789ABCDEFXYNabcdefxyn".toList.all fun c => c.toNat < 128) = true := by decide
  exact of_decide_eq_true (List.all_eq_true.mp hall c h)

/-- Behind the ASCII characters there is no case and no symbol. -/
private theorem ofChar?_of_le {c : Char} (h : 128 ≤ c.toNat) : ofChar? c = none := by
  have hne {d : Char} (hd : d.toNat < 128) : c ≠ d := by
    rintro rfl
    omega
  have hlast {first last : Char} (hd : last.toNat < 128) : ¬ (first ≤ c ∧ c ≤ last) := fun hrange =>
    absurd (show c.toNat ≤ last.toNat from Char.le_def.mp hrange.2) (by omega)
  have hupper : c.toUpper = c := by
    rw [Char.toUpper, dif_neg]
    exact hlast (by decide)
  simp only [ofChar?, hupper]
  rw [if_neg (not_or.mpr ⟨hne (by decide), hne (by decide)⟩), if_neg (hne (by decide)),
    if_neg (hlast (by decide)), if_neg (hlast (by decide))]

/-- The characters that stand for a slot are the symbols. -/
theorem isSome_ofChar?_iff (c : Char) : (ofChar? c).isSome = true ↔ Symbol c := by
  rcases Nat.lt_or_ge c.toNat 128 with hascii | hbehind
  · have hsymbol := symbol_of_ascii c.toNat hascii
    rwa [Char.ofNat_toNat] at hsymbol
  · rw [ofChar?_of_le hbehind]
    refine iff_of_false (by simp) fun hsymbol => ?_
    exact absurd (ascii_of_symbol hsymbol) (by omega)

/-- Symbols are read as their slots. -/
theorem ofChars_of_symbols {chars : List Char} (h : ∀ c ∈ chars, Symbol c) :
    ofChars chars = .ok (chars.filterMap ofChar?) := by
  induction chars with
  | nil => rfl
  | cons c chars ih =>
    obtain ⟨hc, hrest⟩ := List.forall_mem_cons.mp h
    obtain ⟨slot, hslot⟩ := Option.isSome_iff_exists.mp ((isSome_ofChar?_iff c).mpr hc)
    rw [ofChars, hslot, ih hrest, List.filterMap_cons_some hslot]
    rfl

/-- The first character that is no symbol is the one that is found. -/
theorem ofChars_of_not_symbol {before after : List Char} {c : Char}
    (hbefore : ∀ d ∈ before, Symbol d) (hc : ¬ Symbol c) :
    ofChars (before ++ c :: after) = .error c := by
  induction before with
  | nil =>
    have hslot : ofChar? c = none := by
      rwa [← isSome_ofChar?_iff, Option.not_isSome_iff_eq_none] at hc
    rw [List.nil_append, ofChars, hslot]
  | cons d before ih =>
    obtain ⟨hd, hrest⟩ := List.forall_mem_cons.mp hbefore
    obtain ⟨slot, hslot⟩ := Option.isSome_iff_exists.mp ((isSome_ofChar?_iff d).mpr hd)
    rw [List.cons_append, ofChars, hslot, ih hrest]
    rfl

/-- Where not all characters are symbols there is a first one that is none. -/
theorem exists_first_not_symbol {chars : List Char} (h : ¬ ∀ c ∈ chars, Symbol c) :
    ∃ before c after, chars = before ++ c :: after ∧ (∀ d ∈ before, Symbol d) ∧ ¬ Symbol c := by
  have hsome : (chars.find? fun c => ¬ Symbol c).isSome := by simpa [List.find?_isSome] using h
  obtain ⟨c, hfirst⟩ := Option.isSome_iff_exists.mp hsome
  obtain ⟨hc, before, after, hchars, hbefore⟩ := List.find?_eq_some_iff_append.mp hfirst
  exact ⟨before, c, after, hchars, by simpa using hbefore, by simpa using hc⟩

/-! ## Characters that mean the same -/

/-- The characters are the same but for the case of letters. -/
def SameLetter (c d : Char) : Prop := c.toLower = d.toLower

/-- The characters are the same but for the case of letters, or both stand for a register. -/
def Alike (c d : Char) : Prop := SameLetter c d ∨ c ∈ ['X', 'Y', 'x', 'y'] ∧ d ∈ ['X', 'Y', 'x', 'y']

theorem sameLetter_iff {c d : Char} : SameLetter c d ↔ c.toUpper = d.toUpper := by
  rw [SameLetter]
  constructor
  · intro h
    rw [← c.toUpper_toLower_eq_toUpper, h, d.toUpper_toLower_eq_toUpper]
  · intro h
    rw [← c.toLower_toUpper_eq_toLower, h, d.toLower_toUpper_eq_toLower]

theorem ofChar?_toUpper (c : Char) : ofChar? c.toUpper = ofChar? c := by
  simp only [ofChar?, Char.toUpper_toUpper_eq_toUpper]

theorem ofChar?_of_alike {c d : Char} (h : Alike c d) : ofChar? c = ofChar? d := by
  have hregister {c : Char} (hc : c ∈ ['X', 'Y', 'x', 'y']) : ofChar? c = some .register := by
    fin_cases hc <;> rfl
  rcases h with hcase | ⟨hc, hd⟩
  · rw [← ofChar?_toUpper c, sameLetter_iff.mp hcase, ofChar?_toUpper]
  · rw [hregister hc, hregister hd]

theorem symbol_of_alike {c d : Char} (h : Alike c d) (hc : Symbol c) : Symbol d := by
  rwa [← isSome_ofChar?_iff, ← ofChar?_of_alike h, isSome_ofChar?_iff]

section Texts

variable {chars others : List Char}

theorem map_toUpper_eq_iff :
    chars.map Char.toUpper = others.map Char.toUpper ↔ List.Forall₂ SameLetter chars others := by
  simp only [← List.forall₂_eq_eq_eq, List.forall₂_map_left_iff, List.forall₂_map_right_iff,
    ← sameLetter_iff]

/-- Texts of characters that are alike have the same slots, and symbols in the same places. -/
theorem filterMap_ofChar?_of_alike (h : List.Forall₂ Alike chars others) :
    chars.filterMap ofChar? = others.filterMap ofChar? ∧
      ((∀ c ∈ chars, Symbol c) → ∀ d ∈ others, Symbol d) := by
  induction h with
  | nil => exact ⟨rfl, id⟩
  | cons hfirst _ ih =>
    refine ⟨?_, fun hsymbols => ?_⟩
    · rw [List.filterMap_cons, List.filterMap_cons, ofChar?_of_alike hfirst, ih.1]
    · rw [List.forall_mem_cons] at hsymbols ⊢
      exact ⟨symbol_of_alike hfirst hsymbols.1, ih.2 hsymbols.2⟩

end Texts

end Slot

namespace Format

open Slot (Symbol SameLetter Alike)

/-! ## Texts that are read -/

/-- The format that a text of symbols is read as. -/
theorem parse_of_symbols {text : String} (hlength : text.length = 4)
    (hsymbols : ∀ c ∈ text.toList, Symbol c) :
    parse text = .ok
      { text := String.ofList (text.toList.map Char.toUpper)
        slots := text.toList.filterMap Slot.ofChar? } := by
  simp only [parse, String.length_toList, hlength, Slot.ofChars_of_symbols hsymbols, ne_eq,
    not_true_eq_false, if_false]

theorem parse_of_length_ne {text : String} (hlength : text.length ≠ 4) :
    parse text = .error (.malformedFormat text
      ("expected 4 characters, got " ++ toString text.length)) := by
  simp only [parse, String.length_toList, if_pos hlength]
  rfl

theorem parse_of_not_symbol {text : String} (hlength : text.length = 4) {before after : List Char}
    {c : Char} (htext : text.toList = before ++ c :: after) (hbefore : ∀ d ∈ before, Symbol d)
    (hc : ¬ Symbol c) :
    parse text = .error (.malformedFormat text ("unexpected symbol " ++ Text.Quoted.char c)) := by
  have hchars : Slot.ofChars text.toList = .error c := htext ▸ Slot.ofChars_of_not_symbol hbefore hc
  simp only [parse, String.length_toList, hlength, hchars, ne_eq, not_true_eq_false, if_false]
  rfl

/-- The texts that are read as a format are those of four symbols. -/
theorem parse_eq_ok_iff {text : String} {f : Format} :
    parse text = .ok f ↔
      text.length = 4 ∧ (∀ c ∈ text.toList, Symbol c) ∧
        f.text.toList = text.toList.map Char.toUpper ∧
        f.slots = text.toList.filterMap Slot.ofChar? := by
  constructor
  · intro h
    by_cases hlength : text.length = 4
    · by_cases hsymbols : ∀ c ∈ text.toList, Symbol c
      · rw [parse_of_symbols hlength hsymbols] at h
        cases h
        exact ⟨hlength, hsymbols, String.toList_ofList, rfl⟩
      · obtain ⟨before, c, after, htext, hbefore, hc⟩ := Slot.exists_first_not_symbol hsymbols
        rw [parse_of_not_symbol hlength htext hbefore hc] at h
        cases h
    · rw [parse_of_length_ne hlength] at h
      cases h
  · rintro ⟨hlength, hsymbols, htext, hslots⟩
    obtain ⟨upper, slots⟩ := f
    rw [parse_of_symbols hlength hsymbols, ← htext, ← hslots, String.ofList_toList]

/-! ## Texts that mean the same -/

section Same

variable {text other : String} {f : Format} (h : parse text = .ok f)

include h

/-- A text that is alike is read as a format with the same slots. -/
theorem parse_of_alike (halike : List.Forall₂ Alike text.toList other.toList) :
    parse other = .ok { text := other.toUpper, slots := f.slots } := by
  obtain ⟨hlength, hsymbols, -, hslots⟩ := parse_eq_ok_iff.mp h
  obtain ⟨hsame, hothers⟩ := Slot.filterMap_ofChar?_of_alike halike
  have hfour : text.toList.length = other.toList.length := halike.length_eq
  rw [String.length_toList, String.length_toList] at hfour
  exact parse_eq_ok_iff.mpr ⟨hfour ▸ hlength, hothers hsymbols, String.toList_map, hslots.trans hsame⟩

/-- The texts that are read as the same format differ in nothing but case. -/
theorem parse_eq_ok_iff_sameLetter :
    parse other = .ok f ↔ List.Forall₂ SameLetter text.toList other.toList := by
  obtain ⟨-, -, htext, -⟩ := parse_eq_ok_iff.mp h
  rw [← Slot.map_toUpper_eq_iff]
  constructor
  · intro hother
    obtain ⟨-, -, htext', -⟩ := parse_eq_ok_iff.mp hother
    exact htext.symm.trans htext'
  · intro hupper
    have hcase := Slot.map_toUpper_eq_iff.mp hupper
    have hsame : f.text = other.toUpper := by
      rw [← String.toList_inj, htext, hupper, String.toUpper, String.toList_map]
    rw [parse_of_alike h (hcase.imp fun _ _ => .inl), ← hsame]

/-- The text of a format is read as the format. -/
theorem parse_text : parse f.text = .ok f := by
  obtain ⟨-, -, htext, -⟩ := parse_eq_ok_iff.mp h
  rw [parse_eq_ok_iff_sameLetter h, ← Slot.map_toUpper_eq_iff, htext, List.map_map]
  exact List.map_congr_left fun c _ => c.toUpper_toUpper_eq_toUpper.symm

end Same

/-- A text is read as a format if and only if it has four characters that are symbols.  A text of
another length fails with the number of its characters, whatever they are, and a text of four
characters with the first one that is no symbol, as it stands there.

A format holds its text in upper case, which is read as the same format again, and so are the texts that
differ from it in case, and no others.  Texts that differ in case or in which letter stands for a
register accept the same opcodes, with the same operands. -/
theorem parse_grammar (text : String) :
    ((∃ f, parse text = .ok f) ↔ text.length = 4 ∧ ∀ c ∈ text.toList, Symbol c) ∧
    (text.length ≠ 4 → parse text = .error (.malformedFormat text
      ("expected 4 characters, got " ++ toString text.length))) ∧
    (text.length = 4 → ∀ before c after, text.toList = before ++ c :: after →
      (∀ d ∈ before, Symbol d) → ¬ Symbol c →
        parse text = .error (.malformedFormat text ("unexpected symbol " ++ Text.Quoted.char c))) ∧
    ∀ f, parse text = .ok f →
      f.text = text.toUpper ∧ parse f.text = .ok f ∧
      (∀ other, parse other = .ok f ↔ List.Forall₂ SameLetter text.toList other.toList) ∧
      ∀ other, List.Forall₂ Alike text.toList other.toList →
        ∃ g, parse other = .ok g ∧ ∀ w, g.accepts w = f.accepts w ∧
          (f.accepts w = true → g.operands w = f.operands w) := by
  refine ⟨⟨?_, ?_⟩, parse_of_length_ne, fun hlength before c after => parse_of_not_symbol hlength,
    fun f h => ⟨?_, parse_text h, fun other => parse_eq_ok_iff_sameLetter h,
      fun other halike => ⟨_, parse_of_alike h halike, fun w => ⟨rfl, fun haccepts => ?_⟩⟩⟩⟩
  · rintro ⟨f, h⟩
    obtain ⟨hlength, hsymbols, -⟩ := parse_eq_ok_iff.mp h
    exact ⟨hlength, hsymbols⟩
  · rintro ⟨hlength, hsymbols⟩
    exact ⟨_, parse_of_symbols hlength hsymbols⟩
  · obtain ⟨-, -, htext, -⟩ := parse_eq_ok_iff.mp h
    rw [← String.toList_inj, htext, String.toUpper, String.toList_map]
  · have haccepts' : ({ text := other.toUpper, slots := f.slots } : Format).accepts w = true := haccepts
    rw [operands, if_pos haccepts', operands, if_pos haccepts]

/-- A format in mixed case, and a text of four characters whose first one is not an ASCII letter. -/
theorem parse_grammar_mixed :
    (∃ f, parse "fX1e" = .ok f ∧ f.text = "FX1E" ∧ parse "Fx1E" = .ok f ∧
      ∃ g, parse "FY1e" = .ok g ∧ ∀ w, g.accepts w = f.accepts w ∧
        (f.accepts w = true → g.operands w = f.operands w)) ∧
    parse "éXg0" = .error (.malformedFormat "éXg0" ("unexpected symbol " ++ Text.Quoted.char 'é')) := by
  obtain ⟨f, hf⟩ : ∃ f, parse "fX1e" = .ok f := ⟨_, rfl⟩
  obtain ⟨-, -, -, hread⟩ := parse_grammar "fX1e"
  obtain ⟨htext, -, hcase, halike⟩ := hread f hf
  obtain ⟨-, -, hsymbol, -⟩ := parse_grammar "éXg0"
  have hupper : "fX1e".toUpper = "FX1E" := by
    rw [← String.toList_inj, String.toUpper, String.toList_map]
    rfl
  refine ⟨⟨f, hf, htext.trans hupper, (hcase "Fx1E").mpr ?_, halike "FY1e" ?_⟩, ?_⟩
  · exact .cons rfl (.cons rfl (.cons rfl (.cons rfl .nil)))
  · exact .cons (.inl rfl) (.cons (.inr (by decide)) (.cons (.inl rfl) (.cons (.inl rfl) .nil)))
  · exact hsymbol rfl [] 'é' _ rfl (by simp) (by decide)

end Format

end Chip8
