import Chip8.Proofs.Decoding
import Mathlib.Data.Finset.Card
import Mathlib.Data.List.Induction

/-!
# Decoders with a past

A decoder remembers what it has decoded.  `Decoder.after` is the decoder that has been asked for a
list of opcodes, some of which it may have refused.

* `Decoder.Coherent`: everything that the decoder remembers is what the opcode decodes to, and its
  counter is the number of places taken in its table.  Decoding keeps this, and a coherent decoder
  answers by the opcode alone (`decode_of_coherent`).
* `Decoder.decode_decode`: it learns nothing from an opcode that it has just been asked for.
* `Decoder.lookup?_after`: the decoder remembers the opcodes that it has decoded, and no opcode that
  it has refused.
* `Decoder.size_after`: it counts each of them once.
-/

namespace Chip8

namespace Decoder

/-- A decoder that has been asked for the opcodes in `history`, one after the other. -/
def after (history : List Opcode) : Decoder :=
  history.foldl (fun d w => (d.decode w).1) {}

/-- How many places of the table are taken. -/
def occupied (d : Decoder) : Nat := d.cache.countP Option.isSome

theorem occupied_remember {d : Decoder} {w : Opcode} (h : d.lookup? w = none) (i : Instruction) :
    (d.remember w i).occupied = d.occupied + 1 := by
  have hfree : d.cache[w.toFin] = none := h
  unfold occupied remember
  rw [Vector.countP_set]
  simp_all

/-- The decoder remembers of an opcode only what the opcode decodes to, and it has counted the places
that it has taken. -/
structure Coherent (d : Decoder) : Prop where
  decodes : ∀ (w : Opcode) (i : Instruction), d.lookup? w = some i → w.decode = .ok i
  size_eq : d.size = d.occupied

theorem coherent_empty : Coherent {} where
  decodes w i h := by simp at h
  size_eq := by simp [occupied, Vector.countP_replicate]

/-- The counter never passes the number of opcodes. -/
theorem Coherent.size_le {d : Decoder} (h : d.Coherent) : d.size ≤ UInt16.size :=
  h.size_eq ▸ Vector.countP_le_size

/-- A decoder either stays as it is, since it knows the opcode or the opcode cannot be decoded, or it
takes a free place for the opcode. -/
theorem decode_cases (d : Decoder) (w : Opcode) :
    (∃ i, d.lookup? w = some i ∧ d.decode w = (d, .ok i)) ∨
    (∃ fault, d.lookup? w = none ∧ w.decode = .error fault ∧ d.decode w = (d, .error fault)) ∨
    ∃ i, d.lookup? w = none ∧ w.decode = .ok i ∧ d.decode w = (d.remember w i, .ok i) := by
  unfold decode
  cases hfound : d.lookup? w with
  | some i => exact .inl ⟨i, rfl, rfl⟩
  | none =>
    cases hdecode : w.decode with
    | error fault => exact .inr (.inl ⟨fault, rfl, rfl, rfl⟩)
    | ok i => exact .inr (.inr ⟨i, rfl, rfl, rfl⟩)

/-- A coherent decoder answers by the opcode alone. -/
theorem decode_of_coherent {d : Decoder} (h : d.Coherent) (w : Opcode) :
    (d.decode w).2 = w.decode := by
  obtain ⟨i, hfound, heq⟩ | ⟨fault, -, hdecode, heq⟩ | ⟨i, -, hdecode, heq⟩ := d.decode_cases w
  · rw [heq, h.decodes w i hfound]
  · rw [heq, hdecode]
  · rw [heq, hdecode]

/-- A decoder that is asked once more answers the same and has nothing new to remember. -/
theorem decode_decode (d : Decoder) (w : Opcode) : (d.decode w).1.decode w = d.decode w := by
  obtain ⟨i, -, heq⟩ | ⟨fault, -, -, heq⟩ | ⟨i, -, -, heq⟩ := d.decode_cases w
  · rw [heq, heq]
  · rw [heq, heq]
  · rw [heq, decode, lookup?_remember, if_pos rfl]

/-- What a decoder remembers after one more opcode. -/
theorem lookup?_decode {d : Decoder} (h : d.Coherent) (w w' : Opcode) :
    (d.decode w).1.lookup? w' = if w = w' then w.decode.toOption else d.lookup? w' := by
  obtain ⟨i, hfound, heq⟩ | ⟨fault, hfound, hdecode, heq⟩ | ⟨i, -, hdecode, heq⟩ :=
    d.decode_cases w
  · rw [heq, h.decodes w i hfound]
    split <;> simp_all [Except.toOption]
  · rw [heq, hdecode]
    split <;> simp_all [Except.toOption]
  · rw [heq, hdecode]
    exact d.lookup?_remember w w' i

theorem Coherent.decode {d : Decoder} (h : d.Coherent) (w : Opcode) : (d.decode w).1.Coherent where
  decodes w' i hfound := by
    rw [lookup?_decode h] at hfound
    split at hfound
    · rename_i heq
      subst heq
      cases hdecode : w.decode with
      | ok j => simpa [hdecode, Except.toOption] using hfound
      | error fault => simp [hdecode, Except.toOption] at hfound
    · exact h.decodes w' i hfound
  size_eq := by
    obtain ⟨i, -, heq⟩ | ⟨fault, -, -, heq⟩ | ⟨i, hfree, -, heq⟩ := d.decode_cases w
    · rw [heq, h.size_eq]
    · rw [heq, h.size_eq]
    · rw [heq, occupied_remember hfree, ← h.size_eq]
      rfl

/-- A decoder forgets nothing. -/
theorem lookup?_decode_of_eq_some {d : Decoder} (w : Opcode) {w' : Opcode} {i : Instruction}
    (h : d.lookup? w' = some i) : (d.decode w).1.lookup? w' = some i := by
  obtain ⟨_, -, heq⟩ | ⟨_, -, -, heq⟩ | ⟨i', hfree, -, heq⟩ := d.decode_cases w
  · rw [heq, h]
  · rw [heq, h]
  · have hne : w ≠ w' := by
      rintro rfl
      simp [hfree] at h
    rw [heq, lookup?_remember, if_neg hne, h]

/-- A decoder counts an opcode that it decodes for the first time. -/
theorem size_decode {d : Decoder} (w : Opcode) :
    (d.decode w).1.size =
      if w.decode.toOption.isSome ∧ d.lookup? w = none then d.size + 1 else d.size := by
  obtain ⟨i, hfound, heq⟩ | ⟨fault, -, hdecode, heq⟩ | ⟨i, hfree, hdecode, heq⟩ :=
    d.decode_cases w
  · simp [heq, hfound]
  · simp [heq, hdecode, Except.toOption]
  · simp [heq, hfree, hdecode, Except.toOption, remember]

/-! ## The decoder after a history -/

theorem after_append (history : List Opcode) (w : Opcode) :
    after (history ++ [w]) = ((after history).decode w).1 := by
  simp [after]

theorem coherent_after (history : List Opcode) : (after history).Coherent := by
  induction history using List.reverseRecOn with
  | nil => exact coherent_empty
  | append_singleton history w ih => exact after_append history w ▸ ih.decode w

/-- A decoder remembers the opcodes of its history that it could decode. -/
theorem lookup?_after (history : List Opcode) (w : Opcode) :
    (after history).lookup? w = if w ∈ history then w.decode.toOption else none := by
  induction history using List.reverseRecOn with
  | nil => simp [after]
  | append_singleton history last ih =>
    rw [after_append, lookup?_decode (coherent_after history), ih]
    by_cases hlast : last = w
    · simp [hlast]
    · simp [hlast, Ne.symm hlast]

/-- The opcodes of a history that can be decoded, each once. -/
def known (history : List Opcode) : Finset Opcode :=
  history.toFinset.filter fun w => w.decode.toOption.isSome

/-- A decoder counts the different opcodes of its history that it could decode. -/
theorem size_after (history : List Opcode) : (after history).size = (known history).card := by
  induction history using List.reverseRecOn with
  | nil => simp [after, known]
  | append_singleton history w ih =>
    have hknown : known (history ++ [w]) =
        if w.decode.toOption.isSome then insert w (known history) else known history := by
      ext w'
      by_cases heq : w' = w
      · subst heq
        by_cases hsome : w'.decode.toOption.isSome <;> simp [known, hsome]
      · by_cases hsome : w.decode.toOption.isSome <;> simp [known, hsome, heq]
    rw [after_append, size_decode, lookup?_after, ih, hknown]
    -- The opcode counts if it can be decoded and has not been asked for before.
    by_cases hsome : w.decode.toOption.isSome
    · by_cases hmem : w ∈ history
      · have hinsert : insert w (known history) = known history :=
          Finset.insert_eq_self.mpr (by simp [known, hmem, hsome])
        have hne : w.decode.toOption ≠ none := fun h => by simp [h] at hsome
        simp [hmem, hsome, hinsert, hne]
      · have hnew : w ∉ known history := by simp [known, hmem]
        simp [hmem, hsome, hnew]
    · simp [hsome]

end Decoder

end Chip8
