import PagePreview.Proofs.Markup.Row

/-!
# Rows with their texts joined

Texts that follow one another in a row are one text to the reader, and what
opens nothing in any of them may open something where they meet.  `joinTexts`
makes a row of which every text stands alone.

A joined row is read back up to the first text in which markup opens
(`run_joinTexts`).  What the text from there on is read as does not depend on
the row any more.  A row is quiet if there is no such text; that is a
question about its runs of texts and not about its other tokens, which
`isQuiet` puts into one pass.
-/

namespace PagePreview.Markup

open Text

def Token.isText : Token → Bool
  | .text _ => true
  | .comment _ => false
  | .declaration _ => false
  | .startTag _ _ => false
  | .endTag _ => false
  | .rawText _ _ _ => false

/-- Whether the token is a text in which markup opens. -/
def Token.opens : Token → Bool
  | .text cs => !isInert cs
  | .comment _ => false
  | .declaration _ => false
  | .startTag _ _ => false
  | .endTag _ => false
  | .rawText _ _ _ => false

/-- Puts a text in front of a row whose texts are joined. -/
def joinText (cs : List Char) : List Token → List Token
  | .text ds :: rest => .text (cs ++ ds) :: rest
  | rest => if cs.isEmpty then rest else .text cs :: rest

/-- Joins texts that follow one another; empty ones vanish. -/
def joinTexts : List Token → List Token
  | [] => []
  | .text cs :: rest => joinText cs (joinTexts rest)
  | token :: rest => token :: joinTexts rest

/-- The texts of the row are not empty and stand apart. -/
def Joined : List Token → Prop
  | [] => True
  | .text cs :: rest => cs ≠ [] ∧ rest.head?.any Token.isText = false ∧ Joined rest
  | _ :: rest => Joined rest

theorem joinTexts_cons {token : Token} (h : token.isText = false) (rest : List Token) :
    joinTexts (token :: rest) = token :: joinTexts rest := by
  cases token with
  | text cs => simp [Token.isText] at h
  | comment _ | declaration _ | startTag _ _ | endTag _ | rawText _ _ _ => rfl

/-! ## Joining keeps what is written -/

theorem rowChars_joinText (cs : List Char) (tokens : List Token) :
    rowChars (joinText cs tokens) = cs ++ rowChars tokens := by
  unfold joinText
  split
  · simp [Token.chars]
  · split
    · next h => simp [List.isEmpty_iff.mp h]
    · simp [Token.chars]

/-- Joining does not change the text of a row. -/
theorem rowChars_joinTexts (tokens : List Token) :
    rowChars (joinTexts tokens) = rowChars tokens := by
  induction tokens with
  | nil => rfl
  | cons token tokens ih =>
      cases token with
      | text cs => rw [joinTexts, rowChars_joinText, ih]; rfl
      | comment _ | declaration _ | startTag _ _ | endTag _ | rawText _ _ _ =>
          rw [joinTexts_cons rfl, rowChars_cons, rowChars_cons, ih]

/-- A joined row has the tokens of the row, and texts. -/
theorem mem_of_mem_joinTexts {tokens : List Token} {token : Token}
    (h : token ∈ joinTexts tokens) : token.isText = true ∨ token ∈ tokens := by
  have hFront : ∀ (cs : List Char) (ts : List Token), token ∈ joinText cs ts →
      token.isText = true ∨ token ∈ ts := by
    intro cs ts hMem
    unfold joinText at hMem
    split at hMem
    · obtain rfl | hMem := List.mem_cons.mp hMem
      · exact Or.inl rfl
      · exact Or.inr (List.mem_cons_of_mem _ hMem)
    · split at hMem
      · exact Or.inr hMem
      · obtain rfl | hMem := List.mem_cons.mp hMem
        · exact Or.inl rfl
        · exact Or.inr hMem
  induction tokens with
  | nil => simp [joinTexts] at h
  | cons first tokens ih =>
      cases first with
      | text cs => exact (hFront cs _ h).elim Or.inl fun hMem =>
          (ih hMem).imp_right (List.mem_cons_of_mem _)
      | comment _ | declaration _ | startTag _ _ | endTag _ | rawText _ _ _ =>
          rw [joinTexts_cons rfl] at h
          obtain rfl | h := List.mem_cons.mp h
          · exact Or.inr List.mem_cons_self
          · exact (ih h).imp_right (List.mem_cons_of_mem _)

theorem joined_joinTexts (tokens : List Token) : Joined (joinTexts tokens) := by
  have hFront : ∀ (cs : List Char) (ts : List Token), Joined ts → Joined (joinText cs ts) := by
    intro cs ts hJoined
    unfold joinText
    split
    · next ds rest => exact ⟨by simp [hJoined.1], hJoined.2⟩
    · next hNoText =>
        split
        · exact hJoined
        · next hNonempty =>
            refine ⟨by simpa using hNonempty, ?_, hJoined⟩
            cases ts with
            | nil => rfl
            | cons t ts =>
                cases t with
                | text ds => exact absurd rfl (hNoText ds ts)
                | comment _ | declaration _ | startTag _ _ | endTag _ | rawText _ _ _ => rfl
  induction tokens with
  | nil => trivial
  | cons token tokens ih =>
      cases token with
      | text cs => exact hFront cs _ ih
      | comment _ | declaration _ | startTag _ _ | endTag _ | rawText _ _ _ => exact ih

theorem joinText_append_cons {token : Token} (h : token.isText = false) (cs : List Char)
    (xs ys : List Token) : joinText cs (xs ++ token :: ys) = joinText cs xs ++ token :: ys := by
  cases xs with
  | nil =>
      cases token with
      | text _ => simp [Token.isText] at h
      | comment _ | declaration _ | startTag _ _ | endTag _ | rawText _ _ _ =>
          simp only [joinText, List.nil_append]
          split <;> rfl
  | cons x xs =>
      cases x with
      | text _ => rfl
      | comment _ | declaration _ | startTag _ _ | endTag _ | rawText _ _ _ =>
          simp only [joinText, List.cons_append]
          split <;> rfl

/-- Another token keeps the texts on its two sides apart. -/
theorem joinTexts_append_cons {token : Token} (h : token.isText = false) (xs ys : List Token) :
    joinTexts (xs ++ token :: ys) = joinTexts xs ++ token :: joinTexts ys := by
  induction xs with
  | nil => exact joinTexts_cons h ys
  | cons x xs ih =>
      cases x with
      | text cs =>
          rw [List.cons_append, joinTexts, ih, joinText_append_cons h]
          rfl
      | comment _ | declaration _ | startTag _ _ | endTag _ | rawText _ _ _ =>
          rw [List.cons_append, joinTexts_cons rfl, ih]
          rfl

/-! ## The two parts of a row -/

/-- The joined row up to the first text in which markup opens. -/
def quietPart (tokens : List Token) : List Token :=
  (joinTexts tokens).takeWhile fun token => !token.opens

/-- The joined row from the first text in which markup opens on. -/
def loudPart (tokens : List Token) : List Token :=
  (joinTexts tokens).dropWhile fun token => !token.opens

theorem quietPart_append_loudPart (tokens : List Token) :
    quietPart tokens ++ loudPart tokens = joinTexts tokens :=
  List.takeWhile_append_dropWhile

theorem writable_joinTexts {tokens : List Token} (h : ∀ token ∈ tokens, token.Writable) :
    ∀ token ∈ joinTexts tokens, token.Writable := by
  intro token hToken
  obtain hText | hMem := mem_of_mem_joinTexts hToken
  · cases token with
    | text _ => trivial
    | comment _ | declaration _ | startTag _ _ | endTag _ | rawText _ _ _ =>
        simp [Token.isText] at hText
  · exact h token hMem

theorem Token.Writable.legible {token : Token} (h : token.Writable)
    (hText : token.isText = false) : token.Legible := by
  cases token with
  | text _ => simp [Token.isText] at hText
  | comment _ | declaration _ | startTag _ _ | endTag _ | rawText _ _ _ => exact h

/-- The quiet part of a joined row is readable in front of the rest. -/
theorem readable_takeWhile {tokens : List Token} (hJoined : Joined tokens)
    (hWritable : ∀ token ∈ tokens, token.Writable) :
    Readable (rowChars (tokens.dropWhile fun token => !token.opens))
      (tokens.takeWhile fun token => !token.opens) := by
  induction tokens with
  | nil => trivial
  | cons token tokens ih =>
      obtain ⟨hToken, hTokens⟩ := List.forall_mem_cons.mp hWritable
      by_cases hOpens : token.opens = true
      · rw [List.takeWhile_cons_of_neg (by simp [hOpens])]
        trivial
      rw [List.takeWhile_cons_of_pos (by simp [hOpens]),
        List.dropWhile_cons_of_pos (by simp [hOpens])]
      cases token with
      | text cs =>
          obtain ⟨hNonempty, hNext, hRest⟩ := hJoined
          refine ⟨hNonempty, by simpa [Token.opens] using hOpens, ?_, ih hRest hTokens⟩
          -- the parts make up the row, which goes on with a token that is no text
          rw [← rowChars_append, List.takeWhile_append_dropWhile]
          cases tokens with
          | nil => exact Or.inl rfl
          | cons next tokens =>
              have hLegible := (hTokens next List.mem_cons_self).legible (by simpa using hNext)
              exact endsText_chars hLegible _
      | comment _ | declaration _ | startTag _ _ | endTag _ | rawText _ _ _ =>
          exact readable_cons hToken (ih hJoined hTokens)

/-- **A row is read back up to the first text in which markup opens.** -/
theorem run_quietPart {tokens : List Token} (h : ∀ token ∈ tokens, token.Writable) (b : Builder) :
    b.run (rowChars tokens) =
      ((quietPart tokens).foldl Builder.add b).run (rowChars (loudPart tokens)) := by
  rw [← rowChars_joinTexts, ← quietPart_append_loudPart, rowChars_append]
  exact run_row (readable_takeWhile (joined_joinTexts tokens) (writable_joinTexts h)) b

/-! ## Quiet rows -/

/-- Whether nothing opens in any run of texts of the row; `front` is the run so far. -/
def isQuietFrom (front : List Char) : List Token → Bool
  | [] => isInert front
  | .text cs :: rest => isQuietFrom (front ++ cs) rest
  | _ :: rest => isInert front && isQuietFrom [] rest

/-- Whether nothing opens in any run of texts of the row. -/
def isQuiet (tokens : List Token) : Bool := isQuietFrom [] tokens

theorem isQuietFrom_cons {token : Token} (h : token.isText = false) (front : List Char)
    (rest : List Token) :
    isQuietFrom front (token :: rest) = (isInert front && isQuietFrom [] rest) := by
  cases token with
  | text _ => simp [Token.isText] at h
  | comment _ | declaration _ | startTag _ _ | endTag _ | rawText _ _ _ => rfl

@[simp] theorem joinText_nil (tokens : List Token) : joinText [] tokens = tokens := by
  unfold joinText
  split <;> rfl

theorem joinText_joinText (xs ys : List Char) (tokens : List Token) :
    joinText xs (joinText ys tokens) = joinText (xs ++ ys) tokens := by
  cases ys with
  | nil => simp
  | cons y ys =>
      cases tokens with
      | nil => simp [joinText]
      | cons token tokens =>
          cases token <;> simp [joinText]

/-- The one pass sees the texts of the joined row. -/
theorem isQuietFrom_eq_all (front : List Char) (tokens : List Token) :
    isQuietFrom front tokens =
      (joinText front (joinTexts tokens)).all fun token => !token.opens := by
  induction tokens generalizing front with
  | nil =>
      cases front with
      | nil => rfl
      | cons c front => simp [isQuietFrom, joinTexts, joinText, Token.opens]
  | cons token tokens ih =>
      cases token with
      | text cs => rw [isQuietFrom, ih, joinTexts, joinText_joinText]
      | comment _ | declaration _ | startTag _ _ | endTag _ | rawText _ _ _ =>
          rw [isQuietFrom_cons rfl, ih, joinText_nil, joinTexts_cons rfl]
          cases front with
          | nil => simp [Token.opens, isInert]
          | cons c front => simp [joinText, Token.opens]

theorem isQuiet_iff {tokens : List Token} :
    isQuiet tokens = true ↔ ∀ token ∈ joinTexts tokens, token.opens = false := by
  rw [isQuiet, isQuietFrom_eq_all, joinText_nil]
  simp

/-- **A row is quiet if all of it is read back.** -/
theorem loudPart_eq_nil_iff {tokens : List Token} :
    loudPart tokens = [] ↔ isQuiet tokens = true := by
  rw [isQuiet, isQuietFrom_eq_all, joinText_nil, loudPart]
  constructor
  · intro hNone
    have hAll := List.all_takeWhile (p := fun token : Token => !token.opens) (l := joinTexts tokens)
    have hSplit := List.takeWhile_append_dropWhile (p := fun token : Token => !token.opens)
      (l := joinTexts tokens)
    rw [hNone, List.append_nil] at hSplit
    rwa [hSplit] at hAll
  · intro hAll
    have hDrop : (joinTexts tokens ++ []).dropWhile (fun token => !token.opens) =
        ([] : List Token).dropWhile fun token => !token.opens :=
      List.dropWhile_append_of_pos (List.all_eq_true.mp hAll)
    rwa [List.append_nil, List.dropWhile_nil] at hDrop

/-- The text of a token. -/
def Token.text? : Token → Option (List Char)
  | .text cs => some cs
  | .comment _ => none
  | .declaration _ => none
  | .startTag _ _ => none
  | .endTag _ => none
  | .rawText _ _ _ => none

/-- Only the texts of a row decide whether it is quiet, and where other tokens stand. -/
theorem isQuietFrom_congr {xs ys : List Token} (h : xs.map Token.text? = ys.map Token.text?)
    (front : List Char) : isQuietFrom front xs = isQuietFrom front ys := by
  induction xs generalizing ys front with
  | nil =>
      cases ys with
      | nil => rfl
      | cons y ys => simp at h
  | cons x xs ih =>
      cases ys with
      | nil => simp at h
      | cons y ys =>
          simp only [List.map_cons, List.cons.injEq] at h
          have hRest := ih h.2
          cases x <;> cases y <;> simp_all [Token.text?, isQuietFrom]

theorem opensHere_append_of_opensHere {xs : List Char} (h : opensHere xs = true)
    (ys : List Char) : opensHere (xs ++ ys) = true := by
  obtain ⟨d, rest, rfl, -⟩ := exists_of_opensHere h
  by_cases hd : d = '/'
  · subst hd
    cases rest with
    | nil => exact absurd h (by decide)
    | cons c rest => simpa [opensHere] using h
  · simpa [opensHere, hd] using h

theorem isInert_left {xs ys : List Char} (h : isInert (xs ++ ys) = true) : isInert xs = true := by
  induction xs with
  | nil => rfl
  | cons x xs ih =>
      simp only [List.cons_append, isInert, Bool.and_eq_true, Bool.not_eq_true'] at h ⊢
      refine ⟨Bool.eq_false_iff.mpr fun hOpens => ?_, ih h.2⟩
      have hLonger := opensHere_append_of_opensHere hOpens ys
      rw [List.cons_append, h.1] at hLonger
      exact absurd hLonger (by simp)

theorem isQuietFrom_split {xs ys : List Char} {tokens : List Token}
    (h : isQuietFrom (xs ++ ys) tokens = true) :
    isInert xs = true ∧ isQuietFrom ys tokens = true := by
  induction tokens generalizing ys with
  | nil => exact ⟨isInert_left h, isInert_right h⟩
  | cons token tokens ih =>
      cases token with
      | text cs =>
          rw [isQuietFrom, List.append_assoc] at h
          exact ih h
      | comment _ | declaration _ | startTag _ _ | endTag _ | rawText _ _ _ =>
          simp only [isQuietFrom, Bool.and_eq_true] at h ⊢
          exact ⟨isInert_left h.1, isInert_right h.1, h.2⟩

/-- **A row stays quiet when another token than a text is put into it.** -/
theorem isQuietFrom_insert {token : Token} (hText : token.isText = false) {xs ys : List Token}
    {front : List Char} (h : isQuietFrom front (xs ++ ys) = true) :
    isQuietFrom front (xs ++ token :: ys) = true := by
  induction xs generalizing front with
  | nil =>
      have hSplit : isInert front = true ∧ isQuietFrom [] ys = true :=
        isQuietFrom_split (by simpa using h)
      cases token with
      | text _ => simp [Token.isText] at hText
      | comment _ | declaration _ | startTag _ _ | endTag _ | rawText _ _ _ =>
          simpa [isQuietFrom] using hSplit
  | cons x xs ih =>
      cases x with
      | text cs => exact ih h
      | comment _ | declaration _ | startTag _ _ | endTag _ | rawText _ _ _ =>
          simp only [List.cons_append, isQuietFrom, Bool.and_eq_true] at h ⊢
          exact ⟨h.1, ih h.2⟩

end PagePreview.Markup
