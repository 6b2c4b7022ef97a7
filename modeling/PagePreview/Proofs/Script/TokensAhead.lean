import PagePreview.Proofs.Script.Lexemes
import PagePreview.Script.Parser.Names

/-!
# The tokens that a reader has in front of it

What a reader of scripts does depends on the lexemes that its lexer will give,
not on where they stand.  `Lexer.Gives` lists the first of them, and `Ahead`
lists those in front of a reader: the current token first, then what the lexer
behind it gives.  Going on to the next token drops the first one
(`Ahead.advanced`).
-/

namespace PagePreview.Script

open Text

/-- The lexemes that come next. -/
def Lexer.Gives : Lexer → List Lexeme → Prop
  | _, [] => True
  | l, t :: ts => l.next.1.lexeme = t ∧ l.next.2.Gives ts

/-- The lexemes at the front of a text, wherever the text stands. -/
def Reads (cs : List Char) (ts : List Lexeme) : Prop :=
  ∀ offset notes, Lexer.Gives ⟨⟨cs, offset⟩, notes⟩ ts

/-! ## What a text gives -/

attribute [local simp] pass

/-- Where the blanks end does not depend on whether a line has ended before them. -/
theorem pass_congr (gap : Gap) (offset : Nat) (notes : Notes) (b b' : Bool) (cs : List Char) :
    (pass gap offset notes b cs).cursor = (pass gap offset notes b' cs).cursor ∧
      (pass gap offset notes b cs).notes = (pass gap offset notes b' cs).notes ∧
      (pass gap offset notes b cs).closed = (pass gap offset notes b' cs).closed := by
  fun_induction pass gap offset notes b cs generalizing b' with
  | case11 _ _ _ _ _ _ hLine hSpace ih => simpa [hLine, hSpace] using ih b'
  | case12 _ _ _ _ _ _ hLine hSpace hOpen ih => simpa [hLine, hSpace, hOpen] using ih b'
  | case13 _ _ _ _ _ _ hLine hSpace hOther hOpen ih =>
    simpa [hLine, hSpace, hOther, hOpen] using ih b'
  | case16 _ _ _ _ _ _ _ hLine ih => simpa [hLine] using ih b'
  | case17 _ _ _ _ _ _ _ hClose ih => simpa [hClose] using ih b'
  | case18 _ _ _ c _ _ _ hClose ih =>
    simpa [hClose] using ih (b' || Literal.isLineEnd c)
  | _ => simp [*]

theorem blanks_plain {c : Char} (hGap : isGap c = false) (hSlash : c ≠ '/') (cs : List Char)
    (offset : Nat) (notes : Notes) :
    Lexer.blanks ⟨⟨c :: cs, offset⟩, notes⟩ = ⟨⟨c :: cs, offset⟩, notes, false, true⟩ := by
  obtain ⟨hLine, hSpace⟩ := Bool.or_eq_false_iff.mp hGap
  cases cs <;> simp [Lexer.blanks, hLine, hSpace, hSlash]

/-- In front of a gap stands the token that stands behind it, and reading goes on alike. -/
theorem exists_next_gap {c : Char} (h : isGap c = true) (cs : List Char) (offset : Nat)
    (notes : Notes) :
    ∃ notes', (Lexer.next ⟨⟨c :: cs, offset⟩, notes⟩).1.lexeme =
        (Lexer.next ⟨⟨cs, offset + 1⟩, notes'⟩).1.lexeme ∧
      (Lexer.next ⟨⟨c :: cs, offset⟩, notes⟩).2 =
        (Lexer.next ⟨⟨cs, offset + 1⟩, notes'⟩).2 := by
  obtain ⟨notes', b, hPass⟩ : ∃ notes' b, pass .blank offset notes false (c :: cs) =
      pass .blank (offset + 1) notes' b cs := by
    cases hLine : Literal.isLineEnd c with
    | true => exact ⟨notes.lineEnd, true, by cases cs <;> simp [hLine]⟩
    | false =>
      have hSpace : isSpace c = true := by simpa [isGap, hLine] using h
      exact ⟨notes, false, by cases cs <;> simp [hLine, hSpace]⟩
  obtain ⟨hCursor, hNotes, hClosed⟩ := pass_congr .blank (offset + 1) notes' b false cs
  refine ⟨notes', ?_⟩
  unfold Lexer.next Lexer.blanks
  dsimp only
  rw [hPass, hClosed]
  split
  · rw [hCursor]
    exact ⟨rfl, by simp only [Lexer.emit, hCursor, hNotes]⟩
  · exact ⟨rfl, by simp only [Lexer.emit, hCursor, hNotes]⟩

theorem Reads.gap {c : Char} (hGap : isGap c = true) {cs : List Char} {ts : List Lexeme}
    (h : Reads cs ts) : Reads (c :: cs) ts := by
  intro offset notes
  cases ts with
  | nil => trivial
  | cons t ts =>
    obtain ⟨notes', hLexeme, hRest⟩ := exists_next_gap hGap cs offset notes
    rw [Lexer.Gives, hLexeme, hRest]
    exact h (offset + 1) notes'

theorem Reads.blank {cs : List Char} {ts : List Lexeme} (h : Reads cs ts) : Reads (' ' :: cs) ts :=
  h.gap (by decide)

/-- What begins like no blank and no comment begins with a token. -/
theorem next_plain {c : Char} (hGap : isGap c = false) (hSlash : c ≠ '/') (cs : List Char)
    (offset : Nat) (notes : Notes) : Lexer.next ⟨⟨c :: cs, offset⟩, notes⟩ =
      Lexer.emit ⟨⟨c :: cs, offset⟩, notes⟩ ⟨⟨c :: cs, offset⟩, notes, false, true⟩
        (lexeme (c :: cs)).1 (lexeme (c :: cs)).2 := by
  unfold Lexer.next
  rw [blanks_plain hGap hSlash]
  simp only [if_true]

/-- Such a token, and what follows it. -/
theorem Reads.token {c : Char} {front rest : List Char} {t : Lexeme} {ts : List Lexeme}
    (hGap : isGap c = false) (hSlash : c ≠ '/')
    (hLexeme : lexeme (c :: front ++ rest) = (t, (c :: front).length)) (h : Reads rest ts) :
    Reads (c :: front ++ rest) (t :: ts) := by
  intro offset notes
  have hNext := next_plain hGap hSlash (front ++ rest) offset notes
  rw [← List.cons_append, hLexeme] at hNext
  rw [Lexer.Gives, hNext]
  refine ⟨rfl, ?_⟩
  simp only [Lexer.emit, Cursor.skip, List.drop_left]
  exact h _ _

/-- Such a token alone. -/
theorem Reads.first {c : Char} (hGap : isGap c = false) (hSlash : c ≠ '/') (cs : List Char) :
    Reads (c :: cs) [(lexeme (c :: cs)).1] := by
  intro offset notes
  rw [Lexer.Gives, next_plain hGap hSlash]
  exact ⟨rfl, trivial⟩

theorem Reads.name {stop : Char} (hStop : EndsName stop) {name rest : List Char}
    {ts : List Lexeme} (hName : isName name = true) (h : Reads (stop :: rest) ts) :
    Reads (name ++ stop :: rest) (.word (String.ofList name) false :: ts) := by
  cases name with
  | nil => exact absurd hName (by decide)
  | cons c cs =>
    have hStart : isIdentifierStart c = true := (Bool.and_eq_true_iff.mp hName).1
    have hPart := isIdentifierPart_of_isIdentifierStart hStart
    exact .token (not_isGap_of_isIdentifierPart hPart) (ne_of_isIdentifierStart hStart (by decide))
      (lexeme_name hStop hName rest) h

theorem reads_nil : Reads [] [.finish] := fun _ _ => ⟨rfl, trivial⟩

end PagePreview.Script

namespace PagePreview.Script.Parser

/-! ## Readers -/

variable {α β : Type} {s s' : State}

theorem bind_of_eq_ok {p : Parser α} {a : α} (h : p s = .ok (a, s')) (f : α → Parser β) :
    (p >>= f) s = f a s' := by
  show (p s).bind (fun r => f r.1 r.2) = _
  rw [h]
  rfl

theorem bind_of_eq_error {p : Parser α} {e : Refusal} (h : p s = .error e) (f : α → Parser β) :
    (p >>= f) s = .error e := by
  show (p s).bind (fun r => f r.1 r.2) = _
  rw [h]
  rfl

/-- A reader that has succeeded has done so in both of its parts. -/
theorem exists_of_bind_eq_ok {p : Parser α} {f : α → Parser β} {b : β}
    (h : (p >>= f) s = .ok (b, s')) :
    ∃ a between, p s = .ok (a, between) ∧ f a between = .ok (b, s') := by
  cases hFirst : p s with
  | error e => rw [bind_of_eq_error hFirst] at h; exact absurd h (by simp)
  | ok r =>
    rw [bind_of_eq_ok hFirst] at h
    exact ⟨r.1, r.2, rfl, h⟩

/-- The state at the next token. -/
def advanced (s : State) : State :=
  { s with
    before := s.after, token := s.after.next.1, after := s.after.next.2, lastStop := s.token.stop }

theorem advance_eq (s : State) : advance s = .ok ((), advanced s) := rfl

/-- The lexemes in front of a reader. -/
def Ahead (s : State) : List Lexeme → Prop
  | [] => True
  | t :: ts => s.token.lexeme = t ∧ s.after.Gives ts

theorem Ahead.advanced {t u : Lexeme} {ts : List Lexeme} (h : Ahead s (t :: u :: ts)) :
    Ahead (advanced s) (u :: ts) :=
  h.2

theorem Ahead.tail {t : Lexeme} {ts : List Lexeme} (h : Ahead s (t :: ts)) :
    Ahead (Parser.advanced s) ts := by
  cases ts with
  | nil => trivial
  | cons u ts => exact h.advanced

theorem exists_gives_append {l : Lexer} {ts : List Lexeme} (h : l.Gives ts) (count : Nat) :
    ∃ us, us.length = count ∧ l.Gives (ts ++ us) := by
  induction ts generalizing l with
  | cons t ts ih =>
    obtain ⟨us, hLength, hGives⟩ := ih h.2
    exact ⟨us, hLength, h.1, hGives⟩
  | nil =>
    induction count generalizing l with
    | zero => exact ⟨[], rfl, trivial⟩
    | succ count ih =>
      obtain ⟨us, hLength, hGives⟩ := @ih l.next.2 trivial
      exact ⟨l.next.1.lexeme :: us, by rw [List.length_cons, hLength], rfl, hGives⟩

/-- Behind the lexemes that are known in front there are others. -/
theorem exists_ahead_append {t : Lexeme} {ts : List Lexeme} (h : Ahead s (t :: ts)) (count : Nat) :
    ∃ us, us.length = count ∧ Ahead s (t :: (ts ++ us)) := by
  obtain ⟨us, hLength, hGives⟩ := exists_gives_append h.2 count
  exact ⟨us, hLength, h.1, hGives⟩

/-- The lexemes in front do not depend on anything else. -/
theorem Ahead.of_eq {ts : List Lexeme} (h : Ahead s ts) (hToken : s'.token = s.token)
    (hAfter : s'.after = s.after) : Ahead s' ts := by
  cases ts with
  | nil => trivial
  | cons t ts =>
    rw [Ahead, hToken, hAfter]
    exact h

variable {ts : List Lexeme} {t u : Lexeme}

/-! ## Single tokens -/

theorem pure_eq {α : Type} (a : α) (s : State) : (pure a : Parser α) s = .ok (a, s) := rfl

theorem get_eq (s : State) : (get : Parser State) s = .ok (s, s) := rfl

theorem node_eq (place : Nat) (kind : Kind) (children : List Node) (s : State) :
    node place kind children s = .ok (.mk kind ⟨place, s.lastStop⟩ children, s) := rfl

theorem start_eq (s : State) : start s = .ok (s.token.start, s) := rfl

theorem onNewLine_eq (s : State) : onNewLine s = .ok (s.token.onNewLine, s) := rfl

theorem lexeme_of_ahead (h : Ahead s (t :: ts)) : lexeme s = .ok (t, s) := by
  rw [← h.1]
  rfl

theorem following_of_ahead (h : Ahead s (t :: u :: ts)) :
    ∃ next : Token, following s = .ok (next, s) ∧ next.lexeme = u :=
  ⟨s.after.next.1, rfl, h.2.1⟩

theorem isMark_of_ahead (h : Ahead s (t :: ts)) (m : String) :
    isMark m s = .ok (t == .mark m, s) := by
  rw [← h.1]
  rfl

theorem isWord_of_ahead (h : Ahead s (t :: ts)) (w : String) :
    isWord w s = .ok (t == .word w false, s) := by
  rw [← h.1]
  rfl

theorem eatMark_of_ahead {m : String} (h : Ahead s (.mark m :: ts)) :
    eatMark m s = .ok (true, advanced s) := by
  rw [eatMark, bind_of_eq_ok (isMark_of_ahead h m), beq_self_eq_true]
  rfl

theorem eatMark_of_ne {m : String} (h : Ahead s (t :: ts)) (hOther : t ≠ .mark m) :
    eatMark m s = .ok (false, s) := by
  rw [eatMark, bind_of_eq_ok (isMark_of_ahead h m), beq_eq_false_iff_ne.mpr hOther]
  rfl

theorem eatWord_of_ahead {w : String} (h : Ahead s (.word w false :: ts)) :
    eatWord w s = .ok (true, advanced s) := by
  rw [eatWord, bind_of_eq_ok (isWord_of_ahead h w), beq_self_eq_true]
  rfl

theorem eatWord_of_ne {w : String} (h : Ahead s (t :: ts)) (hOther : t ≠ .word w false) :
    eatWord w s = .ok (false, s) := by
  rw [eatWord, bind_of_eq_ok (isWord_of_ahead h w), beq_eq_false_iff_ne.mpr hOther]
  rfl

theorem expectWord_of_ahead {w : String} (h : Ahead s (.word w false :: ts)) :
    expectWord w s = .ok ((), advanced s) := by
  rw [expectWord, bind_of_eq_ok (eatWord_of_ahead h)]
  rfl

theorem stringLiteral_of_ahead {value : String} {lossy : Bool}
    (h : Ahead s (.string value lossy :: ts)) :
    stringLiteral s =
      .ok (.mk (.string value lossy) ⟨s.token.start, s.token.stop⟩ [], advanced s) := by
  rw [stringLiteral, bind_of_eq_ok (start_eq s), bind_of_eq_ok (lexeme_of_ahead h)]
  rfl

theorem semicolon_of_ahead (h : Ahead s (.mark ";" :: ts)) :
    semicolon s = .ok ((), advanced s) := by
  rw [semicolon, semicolonIn, bind_of_eq_ok (eatMark_of_ahead h)]
  rfl

end PagePreview.Script.Parser
