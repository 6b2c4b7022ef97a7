import Mathlib.Data.List.DropRight
import Mathlib.Data.List.TakeWhile
import PagePreview.Text.Blank
import PagePreview.Text.Search

/-!
# Cutting a text where it stops

`takeWhile` and `dropWhile` cut a text in front of the first character that a
predicate refuses.  Here the text is known up to that character.  `dropEndWhile`
and `trimChars` cut at the ends, where only the outermost character that stays
has to be known.

`splitWhere` cuts a text at every stop.  It does not see what stands on the
other side of a stop (`splitWhere_append`), so the words of a text, its pieces
between blanks, come off one after the other (`wordsIn_append_word`).
-/

namespace PagePreview.Text

/-! ## Stops -/

section Stops

variable {p : Char → Bool} {cs : List Char}

theorem takeWhile_append_stop (h : ∀ c ∈ cs, p c = true) {d : Char} (hStop : p d = false)
    (rest : List Char) : (cs ++ d :: rest).takeWhile p = cs := by
  rw [List.takeWhile_append_of_pos h]
  simp [hStop]

theorem dropWhile_append_stop (h : ∀ c ∈ cs, p c = true) {d : Char} (hStop : p d = false)
    (rest : List Char) : (cs ++ d :: rest).dropWhile p = d :: rest := by
  rw [List.dropWhile_append_of_pos h]
  simp [hStop]

/-- A text without a stop is not cut. -/
theorem takeWhile_of_forall (h : ∀ c ∈ cs, p c = true) : cs.takeWhile p = cs := by
  have hCut : (cs ++ []).takeWhile p = cs ++ [].takeWhile p := List.takeWhile_append_of_pos h
  rwa [List.append_nil, List.takeWhile_nil, List.append_nil] at hCut

theorem dropWhile_of_forall (h : ∀ c ∈ cs, p c = true) : cs.dropWhile p = [] := by
  have hCut : (cs ++ []).dropWhile p = [].dropWhile p := List.dropWhile_append_of_pos h
  rwa [List.append_nil, List.dropWhile_nil] at hCut

/-- A text is cut where it goes on with a stop, or at its end. -/
theorem takeWhile_append_of_head? (h : ∀ c ∈ cs, p c = true) {rest : List Char}
    (hStop : ∀ d, rest.head? = some d → p d = false) : (cs ++ rest).takeWhile p = cs := by
  cases rest with
  | nil => rw [List.append_nil, takeWhile_of_forall h]
  | cons d rest => exact takeWhile_append_stop h (hStop d rfl) rest

theorem dropWhile_append_of_head? (h : ∀ c ∈ cs, p c = true) {rest : List Char}
    (hStop : ∀ d, rest.head? = some d → p d = false) : (cs ++ rest).dropWhile p = rest := by
  cases rest with
  | nil => rw [List.append_nil, dropWhile_of_forall h]
  | cons d rest => exact dropWhile_append_stop h (hStop d rfl) rest

theorem all_bne_of_not_mem {stop : Char} (h : stop ∉ cs) : ∀ c ∈ cs, (c != stop) = true := by
  intro c hc
  refine bne_iff_ne.mpr ?_
  rintro rfl
  exact h hc

end Stops

/-! ## Ends -/

section Ends

variable {p : Char → Bool} {cs : List Char} {c : Char}

/-- Nothing is cut off a text whose last character stays. -/
theorem dropEndWhile_of_getLast? (h : ∀ c ∈ cs.getLast?, p c = false) : dropEndWhile p cs = cs := by
  refine List.rdropWhile_eq_self_iff.mpr fun hSome => ?_
  rw [h _ (List.getLast?_eq_some_getLast hSome)]
  exact Bool.false_ne_true

theorem dropEndWhile_append (h : ∀ c ∈ cs, p c = false) (rest : List Char) :
    dropEndWhile p (cs ++ rest) = cs ++ dropEndWhile p rest := by
  have hKept : cs.reverse.dropWhile p = cs.reverse := by
    refine List.dropWhile_eq_self_iff.mpr fun hSome => ?_
    rw [h _ (List.mem_reverse.mp (List.getElem_mem hSome))]
    exact Bool.false_ne_true
  simp only [dropEndWhile, List.reverse_append, List.dropWhile_append]
  split_ifs with hEmpty
  · rw [List.isEmpty_iff.mp hEmpty, hKept]
    simp
  · simp

theorem dropEndWhile_append_singleton (h : p c = true) (cs : List Char) :
    dropEndWhile p (cs ++ [c]) = dropEndWhile p cs := by
  simp [dropEndWhile, h]

theorem mem_of_mem_dropEndWhile (h : c ∈ dropEndWhile p cs) : c ∈ cs := by
  have hMem := (List.dropWhile_sublist p).mem (List.mem_reverse.mp h)
  exact List.mem_reverse.mp hMem

theorem mem_of_mem_trimChars (h : c ∈ trimChars cs) : c ∈ cs :=
  (List.dropWhile_sublist _).mem (mem_of_mem_dropEndWhile h)

theorem trimChars_cons_of_blank (h : isBlank c = true) (cs : List Char) :
    trimChars (c :: cs) = trimChars cs := by
  rw [trimChars, List.dropWhile_cons_of_pos h, trimChars]

/-- Nothing is trimmed from a text whose ends are not blank. -/
theorem trimChars_of_ends (hFirst : isBlank c = false)
    (hLast : ∀ d ∈ (c :: cs).getLast?, isBlank d = false) : trimChars (c :: cs) = c :: cs := by
  rw [trimChars, List.dropWhile_cons_of_neg (by simp [hFirst])]
  exact dropEndWhile_of_getLast? hLast

theorem trimChars_of_forall (h : ∀ c ∈ cs, isBlank c = false) : trimChars cs = cs := by
  cases cs with
  | nil => rfl
  | cons c cs =>
      exact trimChars_of_ends (h c (by simp)) fun d hLast => h d (List.mem_of_getLast? hLast)

end Ends

/-! ## Pieces -/

theorem splitWhere_ne_nil (p : Char → Bool) (cs : List Char) : splitWhere p cs ≠ [] := by
  fun_cases splitWhere p cs <;> simp

theorem splitWhere_append {p : Char → Bool} (front : List Char) {c : Char} (hStop : p c = true)
    (back : List Char) : splitWhere p (front ++ c :: back) =
      splitWhere p front ++ splitWhere p back := by
  induction front with
  | nil => simp [splitWhere, hStop]
  | cons d front ih =>
      obtain ⟨first, others, hFront⟩ := List.exists_cons_of_ne_nil (splitWhere_ne_nil p front)
      rw [List.cons_append, splitWhere, splitWhere, ih, hFront]
      split <;> rfl

theorem splitWhere_of_forall {p : Char → Bool} {cs : List Char} (h : ∀ c ∈ cs, p c = false) :
    splitWhere p cs = [cs] := by
  induction cs with
  | nil => rfl
  | cons c cs ih =>
      obtain ⟨hFirst, hRest⟩ := List.forall_mem_cons.mp h
      rw [splitWhere, hFirst, ih hRest]
      rfl

/-! ## Words -/

/-- The pieces of a text between its blanks. -/
def wordsIn (cs : List Char) : List (List Char) :=
  (splitWhere isBlank cs).filter (!·.isEmpty)

@[simp] theorem wordsIn_nil : wordsIn [] = [] := rfl

theorem wordsIn_blank_cons {c : Char} (hBlank : isBlank c = true) (cs : List Char) :
    wordsIn (c :: cs) = wordsIn cs := by
  rw [wordsIn, splitWhere, if_pos hBlank]
  rfl

theorem wordsIn_blanks_append {blanks : List Char} (h : ∀ c ∈ blanks, isBlank c = true)
    (cs : List Char) : wordsIn (blanks ++ cs) = wordsIn cs := by
  induction blanks with
  | nil => rfl
  | cons c blanks ih =>
      obtain ⟨hFirst, hRest⟩ := List.forall_mem_cons.mp h
      rw [List.cons_append, wordsIn_blank_cons hFirst, ih hRest]

/-- A word ends in front of a blank or with the text. -/
theorem wordsIn_append_word {word cs : List Char} (hSome : word ≠ [])
    (hWord : ∀ c ∈ word, isBlank c = false) (hEnds : ∀ c, cs.head? = some c → isBlank c = true) :
    wordsIn (word ++ cs) = word :: wordsIn cs := by
  cases cs with
  | nil =>
      rw [List.append_nil, wordsIn, splitWhere_of_forall hWord]
      simp [hSome]
  | cons c cs =>
      have hBlank := hEnds c rfl
      rw [wordsIn_blank_cons hBlank, wordsIn, splitWhere_append word hBlank,
        splitWhere_of_forall hWord]
      simp [hSome, wordsIn]

/-- Where the first word stands. -/
theorem exists_of_wordsIn_eq_cons {cs word : List Char} {words : List (List Char)}
    (h : wordsIn cs = word :: words) : ∃ blanks rest, cs = blanks ++ (word ++ rest) ∧
      (∀ c ∈ blanks, isBlank c = true) ∧ (∀ c ∈ word, isBlank c = false) ∧
      ∀ c, rest.head? = some c → isBlank c = true := by
  induction cs with
  | nil => exact absurd h (by simp)
  | cons c cs ih =>
      cases hBlank : isBlank c with
      | true =>
          rw [wordsIn_blank_cons hBlank] at h
          obtain ⟨blanks, rest, rfl, hBlanks, hRest⟩ := ih h
          exact ⟨c :: blanks, rest, rfl, List.forall_mem_cons.mpr ⟨hBlank, hBlanks⟩, hRest⟩
      | false =>
          let front := (c :: cs).takeWhile (!isBlank ·)
          let rest := (c :: cs).dropWhile (!isBlank ·)
          have hText : c :: cs = front ++ rest := List.takeWhile_append_dropWhile.symm
          have hSome : front ≠ [] := by simp [front, hBlank]
          have hFront : ∀ d ∈ front, isBlank d = false := fun d hd => by
            simpa using List.mem_takeWhile_imp hd
          have hEnds : ∀ d, rest.head? = some d → isBlank d = true := fun d hd => by
            simpa [rest, hd] using List.head?_dropWhile_not (!isBlank ·) (c :: cs)
          rw [hText, wordsIn_append_word hSome hFront hEnds] at h
          obtain ⟨rfl, -⟩ := List.cons_eq_cons.mp h
          exact ⟨[], rest, hText, by simp, hFront, hEnds⟩

end PagePreview.Text
