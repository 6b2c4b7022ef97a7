import PagePreview.Proofs.Script.ImportDeclarations

/-!
# Words in the place of an imported name

A text of words and blanks is read word by word: names one after the other, up to
the first word that cannot be a name (`exists_reads_words`).

Between the word `import` and the word `from`, of all such texts at most three
kinds are read: no word at all, one name, and a name behind the word `source`
(`areImported_of_parse?`).  The other words that say something about an import do
so in front of a mark, and there is none.
-/

namespace PagePreview.Script

open Text

/-! ## Words -/

/-- The words of a text. -/
def wordsOf (cs : List Char) : List (List Char) :=
  (cs.splitOnP isGap).filter fun w => !w.isEmpty

/-- Whether a text consists of words and blanks. -/
def IsPlain (cs : List Char) : Prop := ∀ c ∈ cs, isIdentifierPart c = true ∨ isGap c = true

instance (cs : List Char) : Decidable (IsPlain cs) := List.decidableBAll _ cs

theorem wordsOf_append_gap {c : Char} (h : isGap c = true) (front back : List Char) :
    wordsOf (front ++ c :: back) = wordsOf front ++ wordsOf back := by
  rw [wordsOf, List.splitOnP_append_cons front back h, List.filter_append]
  rfl

theorem wordsOf_word {w : List Char} (hSome : w ≠ [])
    (hParts : ∀ c ∈ w, isIdentifierPart c = true) : wordsOf w = [w] := by
  rw [wordsOf, List.splitOnP_eq_singleton fun c hc => not_isGap_of_isIdentifierPart (hParts c hc)]
  simp [hSome]

/-- What words in front of other lexemes are read as: a word that is a name is read as that name,
and what is read from another one on is no word, mark or text. -/
inductive AreRead (behind : List Lexeme) : List (List Char) → List Lexeme → Prop
  | done : AreRead behind [] behind
  | name {w : List Char} {ws : List (List Char)} {ts : List Lexeme} (hName : isName w = true)
      (hRest : AreRead behind ws ts) :
      AreRead behind (w :: ws) (.word (String.ofList w) false :: ts)
  | other {w : List Char} {ws : List (List Char)} {t : Lexeme} (hName : isName w = false)
      (hOther : IsOther t) : AreRead behind (w :: ws) [t]

/-- Names are all read. -/
theorem eq_append_of_areRead {behind ts : List Lexeme} {ws : List (List Char)}
    (h : AreRead behind ws ts) (hNames : ∀ w ∈ ws, isName w = true) :
    ts = ws.map (fun w => .word (String.ofList w) false) ++ behind := by
  induction h with
  | done => rfl
  | name _ _ ih =>
    rw [ih fun w hw => hNames w (List.mem_cons_of_mem _ hw)]
    rfl
  | other hName _ =>
    rw [hNames _ List.mem_cons_self] at hName
    exact absurd hName (by decide)

/-- One word in front of others. -/
theorem exists_reads_word {w rest : List Char} {stop : Char} {ws : List (List Char)}
    {behind ts : List Lexeme} (hStop : isGap stop = true)
    (hParts : ∀ c ∈ w, isIdentifierPart c = true) (hWords : AreRead behind ws ts)
    (hRest : Reads (stop :: rest) ts) :
    ∃ us, AreRead behind (wordsOf w ++ ws) us ∧ Reads (w ++ stop :: rest) us := by
  cases w with
  | nil => exact ⟨ts, hWords, hRest⟩
  | cons c cs =>
    rw [wordsOf_word (by simp) hParts]
    cases hName : isName (c :: cs) with
    | true => exact ⟨_, .name hName hWords, .name (endsName_of_isGap hStop) hName hRest⟩
    | false =>
      have hPart : isIdentifierPart c = true := hParts c List.mem_cons_self
      have hStart : isIdentifierStart c = false := by
        refine Bool.eq_false_of_not_eq_true fun hStart => ?_
        have hTail : cs.all isIdentifierPart = true :=
          List.all_eq_true.mpr fun d hd => hParts d (List.mem_cons_of_mem c hd)
        rw [isName, hStart, hTail] at hName
        exact absurd hName (by decide)
      have hSlash : c ≠ '/' := by
        rintro rfl
        exact absurd hPart (by decide)
      exact ⟨_, .other hName (isOther_of_not_isIdentifierStart hPart hStart _),
        .first (not_isGap_of_isIdentifierPart hPart) hSlash _⟩

/-- **A text of words is read word by word.** -/
theorem exists_reads_words {cs rest : List Char} {stop : Char} {behind : List Lexeme}
    (hStop : isGap stop = true) (hPlain : IsPlain cs) (hRest : Reads (stop :: rest) behind) :
    ∃ ts, AreRead behind (wordsOf cs) ts ∧ Reads (cs ++ stop :: rest) ts := by
  -- The word that has been begun is known in front of what is left.
  have hAll (w : List Char) (hParts : ∀ c ∈ w, isIdentifierPart c = true) :
      ∃ ts, AreRead behind (wordsOf (w ++ cs)) ts ∧ Reads (w ++ cs ++ stop :: rest) ts := by
    induction cs generalizing w with
    | nil =>
      rw [List.append_nil]
      obtain ⟨ts, hWords, hReads⟩ := exists_reads_word hStop hParts .done hRest
      exact ⟨ts, by rwa [List.append_nil] at hWords, hReads⟩
    | cons c cs ih =>
      have hTail : IsPlain cs := fun d hd => hPlain d (List.mem_cons_of_mem c hd)
      rcases hPlain c List.mem_cons_self with hPart | hGap
      · have hLonger : ∀ d ∈ w ++ [c], isIdentifierPart d = true := by
          simpa [or_imp, forall_and, hPart] using hParts
        simpa using ih hTail (w ++ [c]) hLonger
      · obtain ⟨ts, hWords, hReads⟩ := ih hTail [] (by simp)
        rw [List.nil_append] at hWords hReads
        rw [wordsOf_append_gap hGap, List.append_assoc, List.cons_append]
        exact exists_reads_word hGap hParts hWords (.gap hGap hReads)
  exact hAll [] (by simp)

namespace Parser

variable {s s' : State} {a b c d t : Lexeme} {ts : List Lexeme} {n : Node}

/-! ## What a part of an import needs -/

theorem not_mem_reservedWords {w : String} {escaped : Bool}
    (h : isIdentifier (.word w escaped) = true) : w ∉ reservedWords := by
  simpa [isIdentifier] using h

theorem exists_of_isIdentifier (h : isIdentifier t = true) :
    ∃ w escaped, t = .word w escaped ∧ w ∉ reservedWords := by
  cases t with
  | word w escaped => exact ⟨w, escaped, rfl, not_mem_reservedWords h⟩
  | _ => exact absurd h (by simp [isIdentifier])

theorem exists_string_of_stringLiteral (h : Ahead s (t :: ts))
    (hOk : stringLiteral s = .ok (n, s')) : ∃ value lossy, t = .string value lossy := by
  rw [stringLiteral, bind_of_eq_ok (start_eq s), bind_of_eq_ok (lexeme_of_ahead h)] at hOk
  cases t with
  | string value lossy => exact ⟨value, lossy, rfl⟩
  | _ => exact absurd hOk (by simp [failure, refuse])

theorem exists_string_of_importSource {place : Nat} {typeOnly : Bool} {phase : Option String}
    {g : Node} (h : Ahead s (t :: ts)) (hOk : importSource place typeOnly phase g s = .ok (n, s')) :
    ∃ value lossy, t = .string value lossy := by
  obtain ⟨source, between, hSource, -⟩ := exists_of_bind_eq_ok hOk
  exact exists_string_of_stringLiteral h hSource

theorem eq_word_of_expectWord {w : String} {u : Unit} (h : Ahead s (t :: ts))
    (hOk : expectWord w s = .ok (u, s')) : t = .word w false ∧ s' = advanced s := by
  by_cases hWord : t = .word w false
  · subst hWord
    rw [expectWord_of_ahead h, Except.ok.injEq, Prod.mk.injEq] at hOk
    exact ⟨rfl, hOk.2.symm⟩
  · rw [expectWord, bind_of_eq_ok (eatWord_of_ne h hWord)] at hOk
    exact absurd hOk (by simp [failure, refuse])

theorem exists_mark_of_importSome {ofTypes : Bool} {ns : List Node} (h : Ahead s (t :: ts))
    (hOk : importSome ofTypes s = .ok (ns, s')) : ∃ m, t = .mark m := by
  by_contra hNone
  have hStar : t ≠ .mark "*" := fun hMark => hNone ⟨"*", hMark⟩
  have hBrace : t ≠ .mark "\x7b" := fun hMark => hNone ⟨"\x7b", hMark⟩
  rw [importSome, bind_of_eq_ok (start_eq s), bind_of_eq_ok (eatMark_of_ne h hStar)] at hOk
  obtain ⟨g, between, hGroup, -⟩ := exists_of_bind_eq_ok hOk
  rw [bracketed, bracketedIn, bind_of_eq_ok (start_eq s), demandMark] at hGroup
  obtain ⟨_, _, hDemand, -⟩ := exists_of_bind_eq_ok hGroup
  rw [bind_of_eq_ok (eatMark_of_ne h hBrace)] at hDemand
  exact absurd hDemand (by simp [missing, refuse])

/-! ## What an import without marks is -/

/-- Whether a lexeme is an identifier, the next one the word `from`, and the one behind a text. -/
def AreDefault (a b c : Lexeme) : Prop :=
  isIdentifier a = true ∧ b = .word "from" false ∧ ∃ value lossy, c = .string value lossy

theorem areDefault_of_importNames {place : Nat} {phase : Option String}
    (hTypes : s.extended = false) (h : Ahead s (a :: b :: c :: ts)) (hFirst : ∀ m, a ≠ .mark m)
    (hSecond : isIdentifier a = true → ∀ m, b ≠ .mark m)
    (hOk : importNames place false phase s = .ok (n, s')) : AreDefault a b c := by
  rw [importNames, bind_of_eq_ok (start_eq s), bind_of_eq_ok (lexeme_of_ahead h)] at hOk
  cases hIdentifier : isIdentifier a with
  | false =>
    rw [hIdentifier, if_neg (by decide)] at hOk
    obtain ⟨ns, between, hSome, -⟩ := exists_of_bind_eq_ok hOk
    obtain ⟨m, hMark⟩ := exists_mark_of_importSome h hSome
    exact absurd hMark (hFirst m)
  | true =>
    obtain ⟨w, escaped, rfl, hReserved⟩ := exists_of_isIdentifier hIdentifier
    obtain ⟨span, hName⟩ := identifier_of_ahead h hReserved
    have hNext : Ahead (advanced (checked w s)) (b :: c :: ts) :=
      (h.of_eq (token_checked w s) (after_checked w s)).advanced
    have hPlain : (advanced (checked w s)).extended = false := by
      rw [← hTypes, ← extended_checked w s]
      rfl
    rw [if_pos hIdentifier, bind_of_eq_ok hName, bind_of_eq_ok (get_eq _),
      bind_of_eq_ok (isMark_of_ahead hNext _), hPlain, Bool.false_and, if_neg (by decide),
      bind_of_eq_ok (node_eq _ _ _ _),
      bind_of_eq_ok (eatMark_of_ne hNext (hSecond hIdentifier _)), if_neg (by decide),
      bind_of_eq_ok (pure_eq _ _)] at hOk
    dsimp only at hOk
    rw [bind_of_eq_ok (node_eq _ _ _ _)] at hOk
    obtain ⟨_, between, hFrom, hSource⟩ := exists_of_bind_eq_ok hOk
    obtain ⟨rfl, rfl⟩ := eq_word_of_expectWord hNext hFrom
    exact ⟨hIdentifier, rfl, exists_string_of_importSource hNext.advanced hSource⟩

/-- Whether a lexeme is neither a mark nor a text in quotes. -/
def IsWordLike (t : Lexeme) : Prop := (∀ m, t ≠ .mark m) ∧ ∀ value lossy, t ≠ .string value lossy

/-- Whether there is no mark among three lexemes, and no text in front, up to a lexeme that is no
identifier. -/
structure AreWords (a b c : Lexeme) : Prop where
  first : IsWordLike a
  second : isIdentifier a = true → IsWordLike b
  third : isIdentifier a = true → isIdentifier b = true → ∀ m, c ≠ .mark m

/-- Whether lexemes are the name of a default up to the text, perhaps behind the word `source`. -/
def AreNames (a b c d : Lexeme) : Prop :=
  AreDefault a b c ∨ a = .word "source" false ∧ AreDefault b c d

theorem areNames_of_importInPhase {place : Nat} (hTypes : s.extended = false)
    (h : Ahead s (a :: b :: c :: d :: ts)) (hWords : AreWords a b c)
    (hOk : importInPhase place false s = .ok (n, s')) : AreNames a b c d := by
  have hDefer := qualifiesImport_defer_of_ahead h fun hHere =>
    (hWords.second (by rw [hHere]; decide)).1
  obtain ⟨isSource, hSource⟩ := exists_qualifiesImport "source" false s
  rw [importInPhase, if_neg (by decide), bind_of_eq_ok hDefer, if_neg (by decide),
    bind_of_eq_ok hSource] at hOk
  have hHere (hNames : importNames place false none s = .ok (n, s')) : AreDefault a b c :=
    areDefault_of_importNames hTypes h hWords.first.1 (fun ha => (hWords.second ha).1) hNames
  by_cases hFront : a = .word "source" false
  · have ha : isIdentifier a = true := by rw [hFront]; decide
    cases isSource with
    | false => exact .inl (hHere hOk)
    | true =>
      exact .inr ⟨hFront, areDefault_of_importNames (s := advanced s) hTypes h.advanced
        (hWords.second ha).1 (hWords.third ha) hOk⟩
  · rw [qualifiesImport_of_ne false h hFront, Except.ok.injEq, Prod.mk.injEq] at hSource
    rw [← hSource.1] at hOk
    exact .inl (hHere hOk)

theorem areNames_of_importFrom {place : Nat} (hTypes : s.extended = false)
    (h : Ahead s (a :: b :: c :: d :: ts)) (hWords : AreWords a b c)
    (hOk : importFrom place s = .ok (n, s')) : AreNames a b c d := by
  have hNothing := namesNothing_of_ahead h fun hHere => (hWords.second (by rw [hHere]; decide)).2
  rw [importFrom_eq, bind_of_eq_ok hNothing, if_neg (by decide)] at hOk
  have hBehind : importBehind place s = .ok (n, s') := hOk
  rw [importBehind_eq_importInPhase place hTypes h hWords.first.2] at hBehind
  exact areNames_of_importInPhase hTypes h hWords hBehind

theorem areNames_of_statement {rules : Rules} (hTypes : s.extended = false)
    (h : Ahead s (.word "import" false :: a :: b :: c :: d :: ts)) (hWords : AreWords a b c)
    (hOk : statement rules s = .ok (n, s')) : AreNames a b c d := by
  have hToken : token s = .ok (s.token, s) := rfl
  rw [statement, bind_of_eq_ok hToken] at hOk
  obtain ⟨m, between, hPlain, -⟩ := exists_of_bind_eq_ok hOk
  rw [plainStatement_eq_importFrom rules h (hWords.first.1 _) (hWords.first.1 _)] at hPlain
  exact areNames_of_importFrom (s := advanced s) hTypes h.advanced hWords hPlain

/-- What a script with a first statement has behind the word `import`, if there are no marks. -/
theorem areNames_of_parse? {source : String} {p : Program} (hParse : parse? false source = some p)
    (hHead : p.root.children.head? = some n)
    (h : Ahead (initial {} false source.toList) (.word "import" false :: a :: b :: c :: d :: ts))
    (hWords : AreWords a b c) : AreNames a b c d := by
  obtain ⟨s, hProgram⟩ := exists_program_of_parseIn (parseIn_of_parse? hParse)
  have hStatement : Ensures (· = initial {} false source.toList)
      (rulesWithin (4 * source.toList.length + 16) .statement) fun _ _ => AreNames a b c d := by
    rintro _ m s' rfl hOk
    exact areNames_of_statement rfl h hWords hOk
  have hAll := ensures_program ((hashbang? source.toList).map String.ofList) hStatement
    fun _ _ _ hNames => hNames
  exact (hAll _ _ _ rfl hProgram).2 n hHead

/-! ## Which words are names -/

theorem isWordLike_word (w : String) (escaped : Bool) : IsWordLike (.word w escaped) := by
  simp [IsWordLike]

theorem isWordLike_of_isOther (h : IsOther t) : IsWordLike t := by
  constructor
  · rintro m rfl
    exact h
  · rintro value lossy rfl
    exact h

theorem not_isIdentifier_of_isOther (h : IsOther t) : isIdentifier t = false := by
  cases t with
  | word w escaped => exact h.elim
  | _ => rfl

/-- What cannot be read as a word ends the search for marks. -/
theorem areWords_of_isOther (h : IsOther a) (b c : Lexeme) : AreWords a b c := by
  have hNone := not_isIdentifier_of_isOther h
  exact ⟨isWordLike_of_isOther h, by simp [hNone], by simp [hNone]⟩

theorem areWords_word_of_isOther (h : IsOther b) (w : String) (escaped : Bool) (c : Lexeme) :
    AreWords (.word w escaped) b c :=
  ⟨isWordLike_word w escaped, fun _ => isWordLike_of_isOther h,
    by simp [not_isIdentifier_of_isOther h]⟩

theorem areWords_word_word (v w : String) (h : ∀ m, c ≠ .mark m) :
    AreWords (.word v false) (.word w false) c :=
  ⟨isWordLike_word v false, fun _ => isWordLike_word w false, fun _ _ => h⟩

/-- Whether words are what an import can name: nothing, an identifier, or an identifier behind the
word `source`. -/
inductive AreImported : List (List Char) → Prop
  | nothing : AreImported []
  | default {w : List Char} (hName : isName w = true) (hWord : String.ofList w ∉ reservedWords) :
      AreImported [w]
  | source {w : List Char} (hName : isName w = true) (hWord : String.ofList w ∉ reservedWords) :
      AreImported ["source".toList, w]

theorem AreImported.forall_isName {ws : List (List Char)} (h : AreImported ws) :
    ∀ w ∈ ws, isName w = true := by
  cases h with
  | nothing => simp
  | default hName _ => exact List.forall_mem_singleton.mpr hName
  | source hName _ =>
    exact List.forall_mem_cons.mpr ⟨by decide +kernel, List.forall_mem_singleton.mpr hName⟩

theorem exists_head_of_areRead {value : String} {ws : List (List Char)}
    (h : AreRead (sourceLexemes value) ws ts) :
    ∃ u us, ts = u :: us ∧ ∀ text lossy, u ≠ .string text lossy := by
  cases h with
  | done => exact ⟨_, _, rfl, by simp⟩
  | name => exact ⟨_, _, rfl, by simp⟩
  | other _ hOther => exact ⟨_, _, rfl, (isWordLike_of_isOther hOther).2⟩

/-- **No other words are names of an import.** -/
theorem areImported_of_parse? {source value : String} {p : Program} {ws : List (List Char)}
    (hRead : AreRead (sourceLexemes value) ws ts)
    (hReads : Reads source.toList (.word "import" false :: ts))
    (hFirst : hashbang? source.toList = none) (hParse : parse? false source = some p)
    (hHead : p.root.children.head? = some n) : AreImported ws := by
  obtain ⟨us, hLength, hAhead⟩ := exists_ahead_append (ahead_initial hReads hFirst {} false) 3
  obtain ⟨x, y, z, rfl⟩ := List.length_eq_three.mp hLength
  have hNames {a b c d : Lexeme} {ts : List Lexeme}
      (h : Ahead (initial {} false source.toList) (.word "import" false :: a :: b :: c :: d :: ts))
      (hWords : AreWords a b c) : AreNames a b c d :=
    areNames_of_parse? hParse hHead h hWords
  cases hRead with
  | done => exact .nothing
  | other hName hOther =>
    obtain ⟨hIdentifier, -⟩ | ⟨rfl, -⟩ := hNames hAhead (areWords_of_isOther hOther x y)
    · rw [not_isIdentifier_of_isOther hOther] at hIdentifier
      exact absurd hIdentifier (by decide)
    · exact hOther.elim
  | @name first _ _ hName hRest =>
    cases hRest with
    | done =>
      obtain ⟨hIdentifier, -⟩ | ⟨-, -, hFrom, -⟩ :=
        hNames hAhead (areWords_word_word _ _ (by simp))
      · exact .default hName (not_mem_reservedWords hIdentifier)
      · exact absurd hFrom (by simp)
    | other hSecond hOther =>
      obtain ⟨-, rfl, -⟩ | ⟨-, hIdentifier, -⟩ :=
        hNames hAhead (areWords_word_of_isOther hOther _ _ x)
      · exact hOther.elim
      · rw [not_isIdentifier_of_isOther hOther] at hIdentifier
        exact absurd hIdentifier (by decide)
    | @name second _ _ hSecond hBehind =>
      cases hBehind with
      | done =>
        obtain ⟨-, -, value, lossy, hText⟩ | ⟨hSource, hIdentifier, -⟩ :=
          hNames hAhead (areWords_word_word _ _ (by simp))
        · exact absurd hText (by simp)
        · have hText : String.ofList first = "source" := (Lexeme.word.inj hSource).1
          obtain rfl : first = "source".toList := by rw [← hText, String.toList_ofList]
          exact .source hSecond (not_mem_reservedWords hIdentifier)
      | other hThird hOther =>
        obtain ⟨-, -, value, lossy, rfl⟩ | ⟨-, -, rfl, -⟩ :=
          hNames hAhead (areWords_word_word _ _ (isWordLike_of_isOther hOther).1)
        · exact hOther.elim
        · exact hOther.elim
      | name hThird hLast =>
        -- Behind three words there is no text yet.
        obtain ⟨fourth, _, rfl, hNoText⟩ := exists_head_of_areRead hLast
        obtain ⟨-, -, value, lossy, hText⟩ | ⟨-, -, -, value, lossy, hText⟩ :=
          hNames hAhead (areWords_word_word _ _ (by simp))
        · exact absurd hText (by simp)
        · exact absurd hText (hNoText value lossy)

end Parser

end PagePreview.Script
