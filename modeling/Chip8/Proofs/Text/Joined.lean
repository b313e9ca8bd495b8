/-!
# Joined texts

Texts that are joined by a separator can be told apart again when none of them has the character that
the separator begins with.

* `eq_of_append_eq`: a text and what stands behind it, which begins with the separator.
* `intercalate_injective`: a list of texts.
* `intercalate_append_injective`: a list of texts, which may be the empty list, and what stands behind
  the mark that closes it.
-/

namespace Chip8.Text

variable {α : Type} {c : α}

/-- A list that ends where a character stands for the first time, and the rest from there on. -/
theorem eq_of_append_eq {front front' rest rest' : List α} (hfront : c ∉ front)
    (hfront' : c ∉ front') (hrest : ∀ a ∈ rest.head?, a = c) (hrest' : ∀ a ∈ rest'.head?, a = c)
    (h : front ++ rest = front' ++ rest') : front = front' ∧ rest = rest' := by
  induction front generalizing front' with
  | nil =>
    cases front' with
    | nil => exact ⟨rfl, h⟩
    | cons a front' =>
      rw [List.nil_append] at h
      have ha : a = c := hrest a (by rw [h]; rfl)
      exact absurd (ha ▸ List.mem_cons_self) hfront'
  | cons a front ih =>
    cases front' with
    | nil =>
      rw [List.nil_append] at h
      have ha : a = c := hrest' a (by rw [← h]; rfl)
      exact absurd (ha ▸ List.mem_cons_self) hfront
    | cons a' front' =>
      rw [List.cons_append, List.cons_append, List.cons.injEq] at h
      obtain ⟨rfl, h⟩ := h
      obtain ⟨rfl, hrest⟩ := ih (fun hc => hfront (List.mem_cons_of_mem _ hc))
        (fun hc => hfront' (List.mem_cons_of_mem _ hc)) h
      exact ⟨rfl, hrest⟩

theorem intercalate_cons_eq_flatMap (sep l : List α) (ls : List (List α)) :
    sep.intercalate (l :: ls) = l ++ ls.flatMap (sep ++ ·) := by
  induction ls generalizing l with
  | nil => exact List.intercalate_singleton.trans l.append_nil.symm
  | cons l' ls ih =>
    rw [List.intercalate_cons_cons, ih, List.flatMap_cons, List.append_assoc, List.append_assoc]

/-- Splitting at the first character of the separator leaves the rest of it in front of every text but
the first. -/
theorem splitOn_intercalate_cons [DecidableEq α] {rest l : List α} {ls : List (List α)}
    (hrest : c ∉ rest) (hfree : ∀ l' ∈ l :: ls, c ∉ l') :
    ((c :: rest).intercalate (l :: ls)).splitOn c = l :: ls.map (rest ++ ·) := by
  have hcons : (c :: rest).intercalate (l :: ls) = [c].intercalate (l :: ls.map (rest ++ ·)) := by
    simp only [intercalate_cons_eq_flatMap, List.flatMap_map, List.cons_append, List.nil_append]
  rw [hcons]
  refine List.splitOn_intercalate c (fun l' hl' => ?_) (List.cons_ne_nil _ _)
  rw [List.mem_cons, List.mem_map] at hl'
  rcases hl' with rfl | ⟨l', hmem, rfl⟩
  · exact hfree l' List.mem_cons_self
  · rw [List.mem_append, not_or]
    exact ⟨hrest, hfree l' (List.mem_cons_of_mem _ hmem)⟩

/-- Texts that are joined by a separator are determined by the joined text. -/
theorem intercalate_injective [DecidableEq α] {rest : List α} {ls ls' : List (List α)}
    (hne : ls ≠ []) (hne' : ls' ≠ []) (hrest : c ∉ rest) (hls : ∀ l ∈ ls, c ∉ l)
    (hls' : ∀ l ∈ ls', c ∉ l) (h : (c :: rest).intercalate ls = (c :: rest).intercalate ls') :
    ls = ls' := by
  obtain ⟨l, ls, rfl⟩ := List.exists_cons_of_ne_nil hne
  obtain ⟨l', ls', rfl⟩ := List.exists_cons_of_ne_nil hne'
  have hsplit := congrArg (List.splitOn c) h
  rw [splitOn_intercalate_cons hrest hls, splitOn_intercalate_cons hrest hls',
    List.cons.injEq] at hsplit
  obtain ⟨rfl, hsplit⟩ := hsplit
  rw [List.map_inj_right fun _ _ => List.append_cancel_left] at hsplit
  rw [hsplit]

theorem mem_intercalate {a : α} {sep : List α} {ls : List (List α)}
    (h : a ∈ sep.intercalate ls) : a ∈ sep ∨ ∃ l ∈ ls, a ∈ l := by
  cases ls with
  | nil => cases h
  | cons l ls =>
    rw [intercalate_cons_eq_flatMap, List.mem_append, List.mem_flatMap] at h
    rcases h with hl | ⟨l', hmem, h⟩
    · exact .inr ⟨l, List.mem_cons_self, hl⟩
    · rw [List.mem_append] at h
      exact h.imp_right fun hl' => ⟨l', List.mem_cons_of_mem l hmem, hl'⟩

/-- The empty list is told from the others when none of their texts is empty. -/
theorem intercalate_injective_of_ne_nil [DecidableEq α] {rest : List α} {ls ls' : List (List α)}
    (hrest : c ∉ rest) (hls : ∀ l ∈ ls, l ≠ [] ∧ c ∉ l) (hls' : ∀ l ∈ ls', l ≠ [] ∧ c ∉ l)
    (h : (c :: rest).intercalate ls = (c :: rest).intercalate ls') : ls = ls' := by
  have hcons {l : List α} {ls : List (List α)} (hl : l ≠ []) :
      (c :: rest).intercalate (l :: ls) ≠ [] := by
    rw [intercalate_cons_eq_flatMap]
    exact List.append_ne_nil_of_left_ne_nil hl _
  match ls, ls' with
  | [], [] => rfl
  | [], l' :: _ => exact absurd h.symm (hcons (hls' l' List.mem_cons_self).1)
  | l :: _, [] => exact absurd h (hcons (hls l List.mem_cons_self).1)
  | l :: ls, l' :: ls' =>
    exact intercalate_injective (List.cons_ne_nil l ls) (List.cons_ne_nil l' ls') hrest
      (fun l hl => (hls l hl).2) (fun l hl => (hls' l hl).2) h

/-- The mark that closes a joined list is the first one behind it when it stands neither in the texts
nor in the separator. -/
theorem intercalate_append_injective [DecidableEq α] {mark : α} {rest tail tail' : List α}
    {ls ls' : List (List α)} (hrest : c ∉ rest) (hsep : mark ∉ c :: rest)
    (hls : ∀ l ∈ ls, l ≠ [] ∧ c ∉ l ∧ mark ∉ l) (hls' : ∀ l ∈ ls', l ≠ [] ∧ c ∉ l ∧ mark ∉ l)
    (h : (c :: rest).intercalate ls ++ mark :: tail = (c :: rest).intercalate ls' ++ mark :: tail') :
    ls = ls' ∧ tail = tail' := by
  have hfree {ls : List (List α)} (hls : ∀ l ∈ ls, l ≠ [] ∧ c ∉ l ∧ mark ∉ l) :
      mark ∉ (c :: rest).intercalate ls := by
    intro hmem
    rcases mem_intercalate hmem with hmem | ⟨l, hl, hmem⟩
    · exact hsep hmem
    · exact (hls l hl).2.2 hmem
  have hmark {tail : List α} : ∀ a ∈ (mark :: tail).head?, a = mark :=
    fun a ha => (Option.some.inj ha).symm
  obtain ⟨hjoined, htail⟩ := eq_of_append_eq (hfree hls) (hfree hls') hmark hmark h
  refine ⟨?_, (List.cons.inj htail).2⟩
  exact intercalate_injective_of_ne_nil hrest (fun l hl => (hls l hl).imp_right And.left)
    (fun l hl => (hls' l hl).imp_right And.left) hjoined

end Chip8.Text
