import Mathlib.Algebra.BigOperators.Group.List.Basic
import Mathlib.Algebra.Order.Ring.Int
import Chip8.Opcode

/-!
# Calls and returns in a trace

The instructions that a run executes are a list in which calls and returns nest like brackets.  A
return belongs to the call that it is balanced with, and a call without a return is pending.

* `Trace.Balanced`: every call is returned from and every return has its call.
* `Trace.Matches` and `Trace.Pending`: which return belongs to which call, and the calls without one.
* `Trace.Matches.unique`: a return belongs to one call only.  The proof compares depths: between a call
  and its return the trace is nowhere less deep than behind the call (`Matches.depthAt_le`).
* `Trace.Opened`: a trace taken apart at its pending calls.  It follows the trace as it grows
  (`Opened.other`, `Opened.call`, `Opened.ret`), and `Opened.mem_iff` says that the calls at which it is
  taken apart are the pending ones.
* `Trace.addressesBehind` and `Trace.ReturnsBehindCalls`: where calls are to be returned to, and that
  every return went there.
-/

namespace Chip8

/-- An instruction that has been executed. -/
structure Executed where
  /-- Where the instruction stood. -/
  address : UInt16
  /-- The opcode of the instruction. -/
  opcode : Opcode
  /-- Where the program counter stood afterwards. -/
  next : UInt16
deriving DecidableEq

namespace Executed

/-- Whether the instruction is a call, `2NNN`. -/
def isCall (e : Executed) : Bool := e.opcode.toNat / 4096 = 2

/-- Whether the instruction is a return, `00EE`. -/
def isReturn (e : Executed) : Bool := e.opcode.toNat = 0x00EE

/-- The address behind the instruction. -/
def behind (e : Executed) : UInt16 := e.address + 2

/-- How much deeper calls are nested behind the instruction than before it. -/
def weight (e : Executed) : Int := if e.isCall then 1 else if e.isReturn then -1 else 0

theorem isCall_of_isReturn {e : Executed} (h : e.isReturn) : e.isCall = false := by
  simp only [isReturn, decide_eq_true_eq] at h
  simp [isCall, h]

theorem weight_of_isCall {e : Executed} (h : e.isCall) : e.weight = 1 := if_pos h

theorem weight_of_isReturn {e : Executed} (h : e.isReturn) : e.weight = -1 := by
  simp [weight, h, isCall_of_isReturn h]

end Executed

/-- The instructions that a run has executed, one after the other. -/
abbrev Trace := List Executed

namespace Trace

/-- Every call in the trace is returned from, and every return has its call. -/
inductive Balanced : Trace → Prop
  | nil : Balanced []
  | other {e : Executed} {rest : Trace} (hcall : e.isCall = false) (hreturn : e.isReturn = false)
      (hrest : Balanced rest) : Balanced (e :: rest)
  | nest {c r : Executed} {inner rest : Trace} (hcall : c.isCall) (hinner : Balanced inner)
      (hreturn : r.isReturn) (hrest : Balanced rest) : Balanced (c :: (inner ++ r :: rest))

/-- What is executed between two places of the trace. -/
def between (t : Trace) (j k : Nat) : Trace := (t.take k).drop (j + 1)

/-- The return at place `k` belongs to the call at place `j`. -/
structure Matches (t : Trace) (j k : Nat) : Prop where
  lt : j < k
  call : ∃ c, t[j]? = some c ∧ c.isCall
  ret : ∃ r, t[k]? = some r ∧ r.isReturn
  balanced : Balanced (t.between j k)

/-- The call at place `j` has not been returned from. -/
def Pending (t : Trace) (j : Nat) : Prop :=
  (∃ c, t[j]? = some c ∧ c.isCall) ∧ ∀ k, ¬ t.Matches j k

/-! ## Depth -/

/-- How much deeper calls are nested at the end of the trace than at its start. -/
def depth (t : Trace) : Int := (t.map Executed.weight).sum

@[simp]
theorem depth_nil : depth [] = 0 := rfl

@[simp]
theorem depth_cons (e : Executed) (t : Trace) : depth (e :: t) = e.weight + depth t := by
  simp [depth]

@[simp]
theorem depth_append (t s : Trace) : depth (t ++ s) = depth t + depth s := by
  simp [depth]

/-- How deep calls are nested before place `i`. -/
def depthAt (t : Trace) (i : Nat) : Int := depth (t.take i)

theorem depthAt_succ {t : Trace} {i : Nat} {e : Executed} (h : t[i]? = some e) :
    depthAt t (i + 1) = depthAt t i + e.weight := by
  simp [depthAt, List.take_add_one, h]

theorem depthAt_eq_add {t : Trace} {a i : Nat} (h : a ≤ i) :
    depthAt t i = depthAt t a + depth ((t.take i).drop a) := by
  have hsplit := congrArg depth (List.take_append_drop a (t.take i))
  rw [depth_append, List.take_take, Nat.min_eq_left h] at hsplit
  exact hsplit.symm

theorem depthAt_append_of_le {t : Trace} {i : Nat} (h : i ≤ t.length) (s : Trace) :
    depthAt (t ++ s) i = depthAt t i := by
  rw [depthAt, List.take_append_of_le_length h]
  rfl

theorem depthAt_append_add (t s : Trace) (i : Nat) :
    depthAt (t ++ s) (t.length + i) = depth t + depthAt s i := by
  rw [depthAt, List.take_length_add_append, depth_append]
  rfl

namespace Balanced

variable {t s : Trace}

theorem append (h : Balanced t) (hs : Balanced s) : Balanced (t ++ s) := by
  induction h with
  | nil => exact hs
  | other hcall hreturn _ ih => exact .other hcall hreturn ih
  | @nest c r inner rest hcall hinner hreturn _ _ ih =>
    rw [List.cons_append, List.append_assoc, List.cons_append]
    exact .nest hcall hinner hreturn ih

theorem depth_eq_zero (h : Balanced t) : depth t = 0 := by
  induction h with
  | nil => rfl
  | other hcall hreturn _ ih => simp [Executed.weight, hcall, hreturn, ih]
  | nest hcall _ hreturn _ ihinner ihrest =>
    simp [Executed.weight_of_isCall hcall, Executed.weight_of_isReturn hreturn, ihinner, ihrest]

/-- A balanced trace is nowhere less deep than at its start. -/
theorem depthAt_nonneg (h : Balanced t) (i : Nat) : 0 ≤ depthAt t i := by
  induction h generalizing i with
  | nil => simp [depthAt]
  | other hcall hreturn _ ih =>
    cases i with
    | zero => simp [depthAt]
    | succ i => simpa [depthAt, Executed.weight, hcall, hreturn] using ih i
  | @nest c r inner rest hcall hinner hreturn _ ihinner ihrest =>
    cases i with
    | zero => simp [depthAt]
    | succ i =>
      have hfirst : depthAt (c :: (inner ++ r :: rest)) (i + 1) =
          1 + depthAt (inner ++ r :: rest) i := by
        simp [depthAt, Executed.weight_of_isCall hcall]
      rw [hfirst]
      by_cases hi : i ≤ inner.length
      · have hinside := ihinner i
        rw [depthAt_append_of_le hi]
        omega
      · obtain ⟨k, rfl⟩ : ∃ k, i = inner.length + (k + 1) :=
          ⟨i - inner.length - 1, by omega⟩
        have hbehind := ihrest k
        have hreturned : depthAt (r :: rest) (k + 1) = -1 + depthAt rest k := by
          simp [depthAt, Executed.weight_of_isReturn hreturn]
        rw [depthAt_append_add, hinner.depth_eq_zero, hreturned]
        omega

end Balanced

/-! ## Which return belongs to which call -/

namespace Matches

variable {t : Trace} {j j' k i : Nat}

theorem lt_length (h : t.Matches j k) : k < t.length := by
  obtain ⟨r, hr, -⟩ := h.ret
  exact (List.getElem?_eq_some_iff.mp hr).1

/-- Between a call and its return the trace is nowhere less deep than behind the call. -/
theorem depthAt_le (h : t.Matches j k) (hj : j < i) (hk : i ≤ k) :
    depthAt t (j + 1) ≤ depthAt t i := by
  have hinside := h.balanced.depthAt_nonneg (i - (j + 1))
  have hbetween : (t.between j k).take (i - (j + 1)) = (t.take i).drop (j + 1) := by
    rw [between, ← List.drop_take, List.take_take, Nat.min_eq_left hk]
  rw [depthAt, hbetween] at hinside
  rw [depthAt_eq_add (show j + 1 ≤ i from hj)]
  omega

/-- A return is as deep as the place behind its call. -/
theorem depthAt_eq (h : t.Matches j k) : depthAt t k = depthAt t (j + 1) := by
  rw [depthAt_eq_add (show j + 1 ≤ k from h.lt), show (t.take k).drop (j + 1) = t.between j k from rfl,
    h.balanced.depth_eq_zero, Int.add_zero]

theorem not_lt (h : t.Matches j k) (h' : t.Matches j' k) : ¬ j < j' := by
  intro hlt
  obtain ⟨c, hc, hcall⟩ := h'.call
  have hdeeper := depthAt_succ hc
  rw [Executed.weight_of_isCall hcall] at hdeeper
  have hbetween := h.depthAt_le hlt (Nat.le_of_lt h'.lt)
  have hend := h.depthAt_eq
  have hend' := h'.depthAt_eq
  omega

/-- A return belongs to one call only. -/
theorem unique (h : t.Matches j k) (h' : t.Matches j' k) : j = j' :=
  Nat.le_antisymm (Nat.not_lt.mp (h'.not_lt h)) (Nat.not_lt.mp (h.not_lt h'))

theorem append (h : t.Matches j k) (s : Trace) : (t ++ s).Matches j k := by
  have hk := h.lt_length
  obtain ⟨c, hc, hcall⟩ := h.call
  obtain ⟨r, hr, hreturn⟩ := h.ret
  refine ⟨h.lt, ⟨c, ?_, hcall⟩, ⟨r, ?_, hreturn⟩, ?_⟩
  · rw [List.getElem?_append_left (Nat.lt_trans h.lt hk), hc]
  · rw [List.getElem?_append_left hk, hr]
  · rw [between, List.take_append_of_le_length (Nat.le_of_lt hk)]
    exact h.balanced

theorem prepend (s : Trace) (h : t.Matches j k) : (s ++ t).Matches (s.length + j) (s.length + k) := by
  obtain ⟨c, hc, hcall⟩ := h.call
  obtain ⟨r, hr, hreturn⟩ := h.ret
  refine ⟨Nat.add_lt_add_left h.lt _, ⟨c, ?_, hcall⟩, ⟨r, ?_, hreturn⟩, ?_⟩
  · rw [List.getElem?_append_right (Nat.le_add_right ..), Nat.add_sub_cancel_left, hc]
  · rw [List.getElem?_append_right (Nat.le_add_right ..), Nat.add_sub_cancel_left, hr]
  · rw [between, List.take_length_add_append, Nat.add_assoc, List.drop_length_add_append]
    exact h.balanced

end Matches

theorem matches_nest {c r : Executed} {inner : Trace} (hcall : c.isCall) (hinner : Balanced inner)
    (hreturn : r.isReturn) (rest : Trace) :
    Matches (c :: (inner ++ r :: rest)) 0 (inner.length + 1) := by
  refine ⟨Nat.succ_pos _, ⟨c, rfl, hcall⟩, ⟨r, by simp, hreturn⟩, ?_⟩
  simpa [between] using hinner

/-- In a balanced trace no call is pending. -/
theorem Balanced.not_pending {t : Trace} (h : Balanced t) (j : Nat) : ¬ t.Pending j := by
  rintro ⟨⟨c, hc, hcall⟩, hpending⟩
  suffices hmatched : ∃ k, t.Matches j k from hmatched.elim hpending
  clear hpending
  induction h generalizing j with
  | nil => simp at hc
  | @other e rest hother _ _ ih =>
    cases j with
    | zero =>
      cases hc
      rw [hother] at hcall
      cases hcall
    | succ j =>
      obtain ⟨k, hk⟩ := ih j hc
      rw [Nat.add_comm j 1]
      exact ⟨1 + k, hk.prepend [e]⟩
  | @nest c' r inner rest hcall' hinner hreturn _ ihinner ihrest =>
    cases j with
    | zero => exact ⟨_, matches_nest hcall' hinner hreturn rest⟩
    | succ j =>
      rw [List.getElem?_cons_succ] at hc
      rw [Nat.add_comm j 1]
      obtain hlt | rfl | hgt := Nat.lt_trichotomy j inner.length
      · rw [List.getElem?_append_left hlt] at hc
        obtain ⟨k, hk⟩ := ihinner j hc
        exact ⟨1 + k, (hk.append (r :: rest)).prepend [c']⟩
      · rw [List.getElem?_append_right (Nat.le_refl _), Nat.sub_self] at hc
        cases hc
        rw [Executed.isCall_of_isReturn hreturn] at hcall
        cases hcall
      · obtain ⟨place, rfl⟩ : ∃ place, j = inner.length + (1 + place) :=
          ⟨j - inner.length - 1, by omega⟩
        rw [List.getElem?_append_right (Nat.le_add_right ..), Nat.add_sub_cancel_left,
          Nat.add_comm 1 place, List.getElem?_cons_succ] at hc
        obtain ⟨k, hk⟩ := ihrest place hc
        exact ⟨_, ((hk.prepend [r]).prepend inner).prepend [c']⟩

/-! ## A trace taken apart at its pending calls -/

/-- The trace is made of balanced traces with calls in between, which stand at the given places. -/
inductive Opened : Trace → List Nat → Prop
  | balanced {t : Trace} (h : Balanced t) : Opened t []
  | pending {t b : Trace} {places : List Nat} {c : Executed} (h : Opened t places) (hcall : c.isCall)
      (hb : Balanced b) : Opened (t ++ c :: b) (places ++ [t.length])

namespace Opened

variable {t : Trace} {places : List Nat} {j : Nat}

theorem append (h : Opened t places) {b : Trace} (hb : Balanced b) : Opened (t ++ b) places := by
  cases h with
  | balanced h => exact .balanced (h.append hb)
  | pending h hcall hb' =>
    rw [List.append_assoc, List.cons_append]
    exact .pending h hcall (hb'.append hb)

/-- An instruction that neither calls nor returns leaves the pending calls as they are. -/
theorem other (h : Opened t places) {e : Executed} (hcall : e.isCall = false)
    (hreturn : e.isReturn = false) : Opened (t ++ [e]) places :=
  h.append (.other hcall hreturn .nil)

/-- A call is pending. -/
theorem call (h : Opened t places) {c : Executed} (hcall : c.isCall) :
    Opened (t ++ [c]) (places ++ [t.length]) :=
  .pending h hcall .nil

/-- A return belongs to the last pending call, which is pending no longer. -/
theorem ret (h : Opened t (places ++ [j])) {r : Executed} (hreturn : r.isReturn) :
    Opened (t ++ [r]) places ∧ (t ++ [r]).Matches j t.length := by
  generalize hplaces : places ++ [j] = all at h
  cases h with
  | balanced _ => simp at hplaces
  | @pending t b places' c h hcall hb =>
    obtain ⟨rfl, hj⟩ := List.append_inj' hplaces rfl
    obtain rfl : j = t.length := by simpa using hj
    have hmatches := (matches_nest hcall hb hreturn []).prepend t
    rw [List.append_assoc, List.cons_append]
    refine ⟨h.append (.nest hcall hb hreturn .nil), ?_⟩
    simpa [Nat.add_assoc, Nat.add_comm 1] using hmatches

theorem lt_length (h : Opened t places) (hj : j ∈ places) : j < t.length := by
  induction h generalizing j with
  | balanced _ => cases hj
  | @pending t b places c _ _ _ ih =>
    rw [List.length_append, List.length_cons]
    obtain hold | hnew := List.mem_append.mp hj
    · have := ih hold
      omega
    · rw [List.mem_singleton.mp hnew]
      omega

theorem pairwise_lt (h : Opened t places) : places.Pairwise (· < ·) := by
  induction h with
  | balanced _ => exact .nil
  | pending h _ _ ih =>
    refine List.pairwise_append.mpr ⟨ih, List.pairwise_singleton .., fun j hj k hk => ?_⟩
    rw [List.mem_singleton.mp hk]
    exact h.lt_length hj

/-- Behind a call at which the trace is taken apart it is nowhere less deep than right behind it. -/
theorem depthAt_le (h : Opened t places) (hj : j ∈ places) :
    (∃ c, t[j]? = some c ∧ c.isCall) ∧
      ∀ i, j < i → i ≤ t.length → depthAt t (j + 1) ≤ depthAt t i := by
  induction h generalizing j with
  | balanced _ => cases hj
  | @pending t b places c h hcall hb ih =>
    have hbehind (i : Nat) :
        depthAt (t ++ c :: b) (t.length + (i + 1)) = depth t + 1 + depthAt b i := by
      rw [depthAt_append_add]
      simp [depthAt, Executed.weight_of_isCall hcall, Int.add_assoc]
    obtain hold | hnew := List.mem_append.mp hj
    · obtain ⟨⟨c', hc', hcall'⟩, hle⟩ := ih hold
      have hlt := h.lt_length hold
      refine ⟨⟨c', by rw [List.getElem?_append_left hlt, hc'], hcall'⟩, fun i hji hi => ?_⟩
      rw [depthAt_append_of_le (show j + 1 ≤ t.length from hlt)]
      by_cases hinside : i ≤ t.length
      · rw [depthAt_append_of_le hinside]
        exact hle i hji hinside
      · obtain ⟨k, rfl⟩ : ∃ k, i = t.length + (k + 1) := ⟨i - t.length - 1, by omega⟩
        have hend := hle t.length hlt (Nat.le_refl _)
        have hnonneg := hb.depthAt_nonneg k
        rw [depthAt, depthAt, List.take_length] at hend
        rw [hbehind, depthAt]
        omega
    · obtain rfl := List.mem_singleton.mp hnew
      refine ⟨⟨c, by simp, hcall⟩, fun i hji hi => ?_⟩
      obtain ⟨k, rfl⟩ : ∃ k, i = t.length + (k + 1) := ⟨i - t.length - 1, by omega⟩
      have hnonneg := hb.depthAt_nonneg k
      have hstart : depthAt b 0 = 0 := rfl
      have hright := hbehind 0
      rw [Nat.zero_add, hstart] at hright
      rw [hright, hbehind]
      omega

/-- The calls at which the trace is taken apart are the pending ones. -/
theorem mem_iff (h : Opened t places) : j ∈ places ↔ t.Pending j := by
  constructor
  · intro hj
    obtain ⟨hcall, hle⟩ := h.depthAt_le hj
    refine ⟨hcall, fun k hmatches => ?_⟩
    -- Behind its return the trace would be less deep than right behind the call.
    obtain ⟨r, hr, hreturn⟩ := hmatches.ret
    have hend := hmatches.depthAt_eq
    have hbehind := depthAt_succ hr
    have hdeep := hle (k + 1) (Nat.lt_succ_of_lt hmatches.lt) hmatches.lt_length
    rw [Executed.weight_of_isReturn hreturn] at hbehind
    omega
  · intro hpending
    induction h generalizing j with
    | balanced h => exact absurd hpending (h.not_pending j)
    | @pending t b places c h hcall hb ih =>
      obtain ⟨⟨c', hc', hcall'⟩, hnone⟩ := hpending
      rw [List.mem_append, List.mem_singleton]
      obtain hlt | rfl | hgt := Nat.lt_trichotomy j t.length
      · rw [List.getElem?_append_left hlt] at hc'
        exact .inl (ih ⟨⟨c', hc', hcall'⟩, fun k hk => hnone k (hk.append _)⟩)
      · exact .inr rfl
      · obtain ⟨place, rfl⟩ : ∃ place, j = t.length + (1 + place) :=
          ⟨j - t.length - 1, by omega⟩
        rw [List.getElem?_append_right (Nat.le_add_right ..), Nat.add_sub_cancel_left,
          Nat.add_comm 1 place, List.getElem?_cons_succ] at hc'
        refine absurd ⟨⟨c', hc', hcall'⟩, fun k hk => ?_⟩ (hb.not_pending place)
        exact hnone _ ((hk.prepend [c]).prepend t)

end Opened

/-! ## Where calls and returns go -/

/-- The addresses behind the instructions at the given places. -/
def addressesBehind (t : Trace) (places : List Nat) : List UInt16 :=
  (places.filterMap (t[·]?)).map Executed.behind

theorem addressesBehind_append {t : Trace} {places : List Nat} (h : ∀ j ∈ places, j < t.length)
    (s : Trace) : (t ++ s).addressesBehind places = t.addressesBehind places := by
  have hsame : ∀ j ∈ places, (t ++ s)[j]? = t[j]? := fun j hj => List.getElem?_append_left (h j hj)
  rw [addressesBehind, List.filterMap_congr hsame]
  rfl

theorem addressesBehind_concat {t : Trace} {j : Nat} {e : Executed} (h : t[j]? = some e)
    (places : List Nat) :
    t.addressesBehind (places ++ [j]) = t.addressesBehind places ++ [e.behind] := by
  simp [addressesBehind, h]

theorem addressesBehind_eq_nil_iff {t : Trace} {places : List Nat} (h : ∀ j ∈ places, j < t.length) :
    t.addressesBehind places = [] ↔ places = [] := by
  rw [addressesBehind, List.map_eq_nil_iff, List.filterMap_eq_nil_iff, List.eq_nil_iff_forall_not_mem]
  refine forall₂_congr fun j hj => ?_
  rw [List.getElem?_eq_getElem (h j hj)]
  simp

/-- Every return went on behind the call that it belongs to. -/
def ReturnsBehindCalls (t : Trace) : Prop :=
  ∀ k r, t[k]? = some r → r.isReturn →
    ∃ j c, t.Matches j k ∧ t[j]? = some c ∧ r.next = c.behind

theorem ReturnsBehindCalls.concat {t : Trace} (h : t.ReturnsBehindCalls) {e : Executed}
    (hnew : e.isReturn → ∃ j c, (t ++ [e]).Matches j t.length ∧ t[j]? = some c ∧
      e.next = c.behind) : (t ++ [e]).ReturnsBehindCalls := by
  intro k r hr hreturn
  obtain hold | rfl | hbeyond := Nat.lt_trichotomy k t.length
  · rw [List.getElem?_append_left hold] at hr
    obtain ⟨j, c, hmatches, hc, hnext⟩ := h k r hr hreturn
    have hj := Nat.lt_trans hmatches.lt hold
    exact ⟨j, c, hmatches.append [e], by rw [List.getElem?_append_left hj, hc], hnext⟩
  · rw [List.getElem?_append_right (Nat.le_refl _), Nat.sub_self] at hr
    cases hr
    obtain ⟨j, c, hmatches, hc, hnext⟩ := hnew hreturn
    exact ⟨j, c, hmatches, by rw [List.getElem?_append_left hmatches.lt, hc], hnext⟩
  · have hlength : (t ++ [e]).length ≤ k := by
      rw [List.length_append]
      exact hbeyond
    rw [List.getElem?_eq_none hlength] at hr
    cases hr

end Trace

end Chip8
