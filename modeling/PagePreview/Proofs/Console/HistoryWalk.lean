import Mathlib.Data.List.Induction
import Mathlib.Logic.Function.Iterate
import PagePreview.Console.Session

/-!
# Walking through the history

A history is pushed to and walked through in any order.  A `Step` is one of
these things and `run` is the history after a row of them: its entries are the
lines that were pushed, and its cursor never leaves them but for the empty
place behind the last one (`cursor_run_le`).

From there on a walk is arithmetic.  Going back `n` times takes `n` off the
cursor and stops at the first entry (`cursor_back`), going on adds to it and
stops behind the last one (`cursor_forth`), and neither touches the entries.
So going on undoes going back as long as the first entry has not stopped the
way back (`forth_back`).

What is shown is the entry at the cursor.  The empty text stands for the place
behind the last entry, but it may be an entry as well (`getD_eq_empty_iff`).
-/

namespace PagePreview.Console.History

/-- One thing that is done to a history. -/
inductive Step where
  | push (line : String)
  | previous
  | next

/-- The history after a step. -/
def Step.apply (h : History) : Step → History
  | push line => h.push line
  | previous => h.previous.1
  | next => h.next.1

/-- The line that a step pushes. -/
def Step.line? : Step → Option String
  | push line => some line
  | _ => none

/-- The history after some steps, from the empty one on. -/
def run (steps : List Step) : History := steps.foldl Step.apply {}

/-- The history after going back so many times. -/
def back (n : Nat) (h : History) : History := (fun h => h.previous.1)^[n] h

/-- The history after going on so many times. -/
def forth (n : Nat) (h : History) : History := (fun h => h.next.1)^[n] h

theorem run_concat (steps : List Step) (step : Step) :
    run (steps ++ [step]) = step.apply (run steps) := by
  simp [run]

theorem eq_of_entries_of_cursor {h h' : History} (hEntries : h.entries = h'.entries)
    (hCursor : h.cursor = h'.cursor) : h = h' := by
  cases h
  cases h'
  simp_all

/-! ## One step -/

section Step

variable (h : History)

theorem previous_of_ne_nil {h : History} (hSome : h.entries ≠ []) :
    h.previous = ({ h with cursor := h.cursor - 1 },
      some (h.entries.getD (h.cursor - 1) "")) := by
  simp [previous, shown, hSome]

theorem next_of_ne_nil {h : History} (hSome : h.entries ≠ []) :
    h.next = ({ h with cursor := min (h.cursor + 1) h.entries.length },
      some (h.entries.getD (min (h.cursor + 1) h.entries.length) "")) := by
  simp [next, shown, hSome]

theorem previous_of_nil {h : History} (hNone : h.entries = []) : h.previous = (h, none) := by
  simp [previous, hNone]

theorem next_of_nil {h : History} (hNone : h.entries = []) : h.next = (h, none) := by
  simp [next, hNone]

/-- Walking leaves the entries alone. -/
@[simp] theorem entries_previous : h.previous.1.entries = h.entries := by
  by_cases hNone : h.entries = []
  · rw [previous_of_nil hNone]
  · rw [previous_of_ne_nil hNone]

@[simp] theorem entries_next : h.next.1.entries = h.entries := by
  by_cases hNone : h.entries = []
  · rw [next_of_nil hNone]
  · rw [next_of_ne_nil hNone]

/-- A step adds the line that it pushes behind the others. -/
theorem entries_apply (step : Step) : (step.apply h).entries = h.entries ++ step.line?.toList := by
  cases step with
  | push line => rfl
  | previous => simp [Step.apply, Step.line?]
  | next => simp [Step.apply, Step.line?]

/-- A step keeps the cursor among the entries or behind the last one. -/
theorem cursor_apply_le (step : Step) (hCursor : h.cursor ≤ h.entries.length) :
    (step.apply h).cursor ≤ (step.apply h).entries.length := by
  by_cases hNone : h.entries = []
  · cases step with
    | push line => simp [Step.apply, push]
    | previous => rwa [Step.apply, previous_of_nil hNone]
    | next => rwa [Step.apply, next_of_nil hNone]
  · cases step with
    | push line => simp [Step.apply, push]
    | previous =>
        rw [Step.apply, previous_of_ne_nil hNone]
        exact Nat.le_trans (Nat.sub_le _ _) hCursor
    | next =>
        rw [Step.apply, next_of_ne_nil hNone]
        exact Nat.min_le_right _ _

end Step

/-! ## A run -/

theorem entries_run (steps : List Step) : (run steps).entries = steps.filterMap Step.line? := by
  induction steps using List.reverseRecOn with
  | nil => rfl
  | append_singleton steps step ih =>
      rw [run_concat, entries_apply, ih, List.filterMap_append]
      cases hLine : step.line? <;> simp [hLine]

theorem cursor_run_le (steps : List Step) : (run steps).cursor ≤ (run steps).entries.length := by
  induction steps using List.reverseRecOn with
  | nil => exact Nat.le_refl 0
  | append_singleton steps step ih =>
      rw [run_concat]
      exact cursor_apply_le _ step ih

/-! ## A walk -/

section Walk

variable (h : History) (n : Nat)

theorem back_succ : back (n + 1) h = (back n h).previous.1 :=
  Function.iterate_succ_apply' ..

theorem forth_succ : forth (n + 1) h = (forth n h).next.1 :=
  Function.iterate_succ_apply' ..

@[simp] theorem entries_back : (back n h).entries = h.entries := by
  induction n with
  | zero => rfl
  | succ n ih => rw [back_succ, entries_previous, ih]

@[simp] theorem entries_forth : (forth n h).entries = h.entries := by
  induction n with
  | zero => rfl
  | succ n ih => rw [forth_succ, entries_next, ih]

variable {h}

/-- The way back ends at the first entry. -/
theorem cursor_back (hSome : h.entries ≠ []) : (back n h).cursor = h.cursor - n := by
  induction n with
  | zero => rfl
  | succ n ih =>
      rw [back_succ, previous_of_ne_nil (by simpa using hSome), ih]
      exact Nat.sub_sub ..

/-- The way on ends behind the last entry. -/
theorem cursor_forth (hSome : h.entries ≠ []) (hCursor : h.cursor ≤ h.entries.length) :
    (forth n h).cursor = min (h.cursor + n) h.entries.length := by
  induction n with
  | zero => exact (Nat.min_eq_left hCursor).symm
  | succ n ih =>
      rw [forth_succ, next_of_ne_nil (by simpa using hSome), entries_forth, ih]
      dsimp only
      omega

/-- **Going on undoes going back**, as far as one has really gone back. -/
theorem forth_back (hSome : h.entries ≠ []) (hCursor : h.cursor ≤ h.entries.length) {j k : Nat}
    (hj : j ≤ k) (hk : k ≤ h.cursor) : forth j (back k h) = back (k - j) h := by
  have hBack : (back k h).cursor = h.cursor - k := cursor_back k hSome
  have hForth : (forth j (back k h)).cursor = min (h.cursor - k + j) h.entries.length := by
    rw [cursor_forth j (by simpa using hSome) (by rw [hBack, entries_back]; omega), hBack,
      entries_back]
  have hCursors : (forth j (back k h)).cursor = (back (k - j) h).cursor := by
    rw [hForth, cursor_back (k - j) hSome]
    omega
  have hEntries : (forth j (back k h)).entries = (back (k - j) h).entries := by simp
  exact eq_of_entries_of_cursor hEntries hCursors

end Walk

/-! ## What is shown -/

/-- The empty text is shown behind the last entry and where it is an entry. -/
theorem getD_eq_empty_iff {entries : List String} {p : Nat} (hp : p ≤ entries.length) :
    entries.getD p "" = "" ↔ p = entries.length ∨ entries[p]? = some "" := by
  rw [List.getD_eq_getElem?_getD]
  obtain hLess | hEnd := Nat.lt_or_eq_of_le hp
  · simp [List.getElem?_eq_getElem hLess, Nat.ne_of_lt hLess]
  · simp [hEnd]

/-- **A walk through the history is a clamped one.**  After any steps the entries are the lines
that were pushed, in order, and the cursor stands among them or behind the last one.  If there is
an entry, then going back `k` times shows the entries in front of the cursor one after the other,
the first one again and again, and going on from there shows the entries behind it up to the empty
place behind the last one; the empty text is shown at that place and where it was pushed.  Going on
undoes what was gone back, and what is pushed is shown by going back once. -/
theorem run_walks (steps : List Step) :
    let h := run steps
    let len := h.entries.length
    h.entries = steps.filterMap Step.line? ∧ h.cursor ≤ len ∧
      (h.entries ≠ [] → ∀ k,
        (∀ i < k, (back i h).previous.2 = h.entries[h.cursor - (i + 1)]? ∧
          h.cursor - (i + 1) < len) ∧
        (∀ j, ∀ i < j, let p := min (h.cursor - k + (i + 1)) len
          ∃ line, (forth i (back k h)).next.2 = some line ∧
            (p < len → h.entries[p]? = some line) ∧
            (line = "" ↔ p = len ∨ h.entries[p]? = some "")) ∧
        ∀ j ≤ k, k ≤ h.cursor → forth j (back k h) = back (k - j) h) ∧
      ∀ line, (h.push line).previous.2 = some line := by
  intro h len
  have hCursor : h.cursor ≤ len := cursor_run_le steps
  refine ⟨entries_run steps, hCursor, fun hSome k => ⟨fun i _ => ?_, fun j i _ => ?_,
    fun j hj hk => forth_back hSome hCursor hj hk⟩, fun line => ?_⟩
  · have hPositive : 0 < len := List.length_pos_iff.mpr hSome
    have hPlace : h.cursor - (i + 1) < len := by omega
    refine ⟨?_, hPlace⟩
    rw [previous_of_ne_nil (by simpa using hSome), cursor_back i hSome, entries_back, Nat.sub_sub,
      List.getD_eq_getElem?_getD, List.getElem?_eq_getElem hPlace, Option.getD_some]
  · intro p
    have hBack : (back k h).cursor = h.cursor - k := cursor_back k hSome
    have hForth : (forth i (back k h)).cursor = min (h.cursor - k + i) len := by
      rw [cursor_forth i (by simpa using hSome) (by rw [hBack, entries_back]; omega), hBack,
        entries_back]
    have hPlace : min ((forth i (back k h)).cursor + 1) len = p := by
      rw [hForth]
      omega
    refine ⟨h.entries.getD p "", ?_, fun hLess => ?_, getD_eq_empty_iff (Nat.min_le_right _ _)⟩
    · rw [next_of_ne_nil (by simpa using hSome), entries_forth, entries_back, hPlace]
    · rw [List.getD_eq_getElem?_getD, List.getElem?_eq_getElem hLess, Option.getD_some]
  · rw [previous_of_ne_nil (by simp [push])]
    simp [push]

/-- An empty line that was pushed is shown like any other, and not only the empty place is. -/
theorem exists_next_shows_empty :
    ¬ ∀ (steps : List Step) (k i : Nat), (run steps).entries ≠ [] →
      ((forth i (back k (run steps))).next.2 = some "" ↔
        min ((run steps).cursor - k + (i + 1)) (run steps).entries.length =
          (run steps).entries.length) := by
  intro hExactly
  have hEmpty := hExactly [.push "a", .push ""] 2 0 (by decide)
  exact absurd hEmpty (by decide)

end PagePreview.Console.History
