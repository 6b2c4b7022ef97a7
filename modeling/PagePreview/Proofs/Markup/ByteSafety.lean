import PagePreview.Proofs.Markup.Building
import PagePreview.Proofs.Markup.ByteTags
import PagePreview.Proofs.Markup.Grammar

/-!
# A page is read without a fault

Each pass over a page takes one token: it adds to the tree what the token
adds, and it leaves the cursor where the next token begins (`nodePass_takes`).
A token takes at least one character, so the loop moves on, and what it has
built in the end is what `Builder.run` builds.

`readDocument_safe` puts this together: reading by byte offsets commits no
fault on any page, and it reads what `Document.parse` reads.
-/

namespace PagePreview.Markup

open Text Utf8

/-! ## One pass -/

/-- A pass takes a token: it adds the token to the tree and moves the cursor to what follows. -/
def Takes (text : List Char) (pass : Except ScanFault (Builder ⊕ Builder × Nat)) (b : Builder)
    (t : Token × List Char) : Prop :=
  ∃ j, pass = .ok (.inr (b.add t.1, j)) ∧ StandsAt text j t.2

section Passes

variable {text cs : List Char} {i : Nat} (b : Builder)

theorem commentPass_takes (h : StandsAt text (i + 4) cs) :
    Takes text (commentPass text b i) b (Token.comment' cs) := by
  have hMark : ∀ c ∈ ['-', '-', '>'], c.toNat < 0x80 := by simp
  have hFind := find_of_standsAt hMark h
  rw [commentPass, Token.comment', show "-->".toList = ['-', '-', '>'] from rfl, hFind, ok_bind]
  cases hBreak : breakOn? ['-', '-', '>'] cs with
  | none =>
      refine ⟨size text, ?_, standsAt_size text⟩
      rw [Option.map_none]
      dsimp only
      rw [slice_size_of_standsAt h, ok_bind]
      rfl
  | some parts =>
      obtain ⟨body, rest⟩ := parts
      have hParts : StandsAt text (i + 4) (body ++ (['-', '-', '>'] ++ rest)) := by
        rwa [← List.append_assoc, ← eq_append_of_breakOn? hBreak]
      refine ⟨i + 4 + size body + 3, ?_, hParts.append.append⟩
      rw [Option.map_some]
      dsimp only
      rw [slice_of_standsAt hParts, ok_bind]
      rfl

theorem endTagPass_takes (h : StandsAt text (i + 2) cs) :
    Takes text (endTagPass text b i) b (.endTag (endTag cs).1, (endTag cs).2) := by
  obtain ⟨j, hTag, hNext⟩ := endTagAt_of_standsAt h
  refine ⟨j, ?_, hNext⟩
  rw [endTagPass, hTag, ok_bind]
  rfl

/-- A declaration counts if it is the first one of a document type. -/
theorem declarationPass_takes {d : Char} (hSign : d = '!' ∨ d = '?')
    (h : StandsAt text i ('<' :: d :: cs)) :
    Takes text (declarationPass text b i) b
      (.declaration ('<' :: d :: (cs.takeWhile (· != '>') ++ (cs.dropWhile (· != '>')).take 1)),
        afterBracket cs) := by
  obtain ⟨found, hFind, hSlice, hNext⟩ := find_bracket_of_standsAt h
  have hd : (d != '>') = true := by rcases hSign with rfl | rfl <;> decide
  have hDrop : ('<' :: d :: cs).dropWhile (· != '>') = cs.dropWhile (· != '>') :=
    (List.dropWhile_cons_of_pos (by decide)).trans (List.dropWhile_cons_of_pos hd)
  have hTake : ('<' :: d :: cs).takeWhile (· != '>') = '<' :: d :: cs.takeWhile (· != '>') :=
    (List.takeWhile_cons_of_pos (by decide)).trans
      (congrArg ('<' :: ·) (List.takeWhile_cons_of_pos hd))
  rw [hDrop, hTake, List.cons_append, List.cons_append] at hSlice
  rw [afterBracket, hDrop] at hNext
  generalize '<' :: d :: (cs.takeWhile (· != '>') ++ (cs.dropWhile (· != '>')).take 1) = part
    at hSlice ⊢
  have hKeyword : startsIgnoringCase (encode "<!doctype".toList) (encode part) =
      Doctype.isDeclaration part := startsIgnoringCase_encode (by simp) part
  refine ⟨_, ?_, hNext⟩
  rw [declarationPass, hFind, ok_bind]
  dsimp only
  rw [hSlice, ok_bind, hKeyword, Builder.add, Builder.declaration]
  obtain ⟨doctype, path, nodes⟩ := b
  cases doctype with
  | some doctype => rfl
  | none =>
      rw [Option.isNone_none, Bool.true_and]
      dsimp only
      rw [Doctype.ofDeclaration?]
      by_cases hIs : Doctype.isDeclaration part = true
      · rw [if_pos hIs, if_pos hIs, doctypeAt_eq hIs]
        rfl
      · rw [if_neg hIs, if_neg hIs]
        rfl

/-- A text takes its first character, whatever that is. -/
theorem textPass_takes {c : Char} (h : StandsAt text i (c :: cs)) :
    Takes text (textPass text b i) b (.text (c :: (plainText cs).1), (plainText cs).2) := by
  obtain ⟨lead, more, hLead, -⟩ := exists_lead c
  have hBytes : (encode text).drop (i + 1) = more ++ encode cs := by
    rw [← List.drop_drop, h.drop_encode, encode_cons, hLead]
    rfl
  -- the search begins behind the first byte, and nothing opens inside a character
  have hFront : ∀ b ∈ more, ∀ rest, beginsMarkup (b :: rest) = false := by
    intro b hMem rest
    by_cases hAscii : c.toNat < 0x80
    · rw [utf8EncodeChar_of_lt hAscii, List.cons.injEq] at hLead
      rw [← hLead.2] at hMem
      exact absurd hMem List.not_mem_nil
    · exact agreesBehind_opensAtFront.inside c (by omega) b
        (hLead ▸ List.mem_cons_of_mem _ hMem) rest
  have hShort : ∀ bs : List UInt8, bs.length ≤ 0 → beginsMarkup bs = false := by
    intro bs hLength
    rw [List.length_eq_zero_iff.mp (Nat.le_zero.mp hLength)]
    rfl
  have hLess := h.lt_size_iff.mpr (List.cons_ne_nil c cs)
  obtain ⟨found, hSeek, hStop⟩ := seek_of_drop (fun _ _ => startsMarkup_eq) hShort
    agreesBehind_opensAtFront hFront hLess hBytes
  have hParts : StandsAt text i ((c :: (plainText cs).1) ++ (plainText cs).2) := by
    rwa [List.cons_append, plainText_append]
  have hSize : i + 1 + more.length + size (plainText cs).1 = i + size (c :: (plainText cs).1) := by
    have hLength := congrArg List.length hLead
    rw [String.length_utf8EncodeChar, List.length_cons] at hLength
    rw [size_cons]
    omega
  rw [← plainText_eq_cutBefore, hSize] at hStop
  refine ⟨_, ?_, hParts.append⟩
  rw [textPass, hSeek, ok_bind, Nat.max_eq_right hLess, hStop]
  dsimp only
  rw [slice_of_standsAt hParts, ok_bind]
  rfl

/-! ### Elements -/

theorem isLowerAscii_of_mem_name {c : Char} (h : c ∈ lowerChars (cs.takeWhile isNameChar)) :
    c.toNat < 0x80 ∧ c.toLower = c := by
  obtain ⟨d, hMem, rfl⟩ := mem_lowerChars.mp h
  have hName : isNameChar d = true := List.all_eq_true.mp List.all_takeWhile d hMem
  refine ⟨toNat_toLower_lt ?_, Char.toLower_toLower_eq_toLower d⟩
  by_contra hLarge
  rw [isNameChar, Char.isAlphanum, not_isAlpha_of_le (by omega), not_isDigit_of_le (by omega)]
    at hName
  simp only [Bool.or_false, Bool.false_or, Bool.or_eq_true, beq_iff_eq] at hName
  rcases hName with (rfl | rfl) | rfl <;> exact hLarge (by decide)

/-- The two signs of an end tag take two bytes. -/
theorem standsAt_two_of_startsEndTag {name : List Char} (h : startsEndTag name cs = true) :
    StandsAt cs 2 (cs.drop 2) := by
  rw [startsEndTag_eq, Bool.and_eq_true] at h
  have hSigns : startsWithNoCase ['<', '/'] cs = true := by
    cases cs with
    | nil => exact absurd h.1 Bool.false_ne_true
    | cons c cs =>
        cases cs with
        | nil => simp [startsWithNoCase] at h
        | cons d cs =>
            simp only [startsWithNoCase, Bool.and_eq_true] at h ⊢
            exact ⟨h.1.1, h.1.2.1, trivial⟩
  exact standsAt_of_startsWithNoCase (by simp) hSigns

/-- A raw text is cut out between characters, and its end tag is read. -/
theorem rawTextPass_takes {name : List Char} {start : Nat} (attributes : List Attribute)
    (hName : ∀ c ∈ name, c.toNat < 0x80 ∧ c.toLower = c) (h : StandsAt text start cs) :
    Takes text (rawTextPass text b (String.ofList name) attributes start) b
      (.rawText (String.ofList name) attributes (rawText name cs).1,
        (endTag ((rawText name cs).2.drop 2)).2) := by
  have hBytes : (encode text).drop start = [] ++ encode cs := h.drop_encode
  obtain ⟨found, hSeek, hClose⟩ := seek_of_drop (fun _ _ => endsRawText_eq)
    (fun _ => beginsEndTag_of_length_le) (agreesBehind_startsEndTag hName) (by simp) h.le hBytes
  have hParts : StandsAt text start ((rawText name cs).1 ++ (rawText name cs).2) := by
    rwa [rawText_append]
  rw [← rawText_eq_cutBefore, List.length_nil, Nat.add_zero] at hClose
  have hBehind := hParts.append
  rw [rawTextPass, String.toList_ofList]
  dsimp only
  rw [hSeek, ok_bind, hClose, slice_of_standsAt hParts, ok_bind]
  generalize start + size (rawText name cs).1 = close at hBehind ⊢
  obtain hRest | hRest := rawText_rest name cs
  · rw [hRest] at hBehind ⊢
    refine ⟨close, ?_, hBehind⟩
    rw [if_neg (by simp [hBehind.lt_size_iff])]
    rfl
  · have hFull : (rawText name cs).2 ≠ [] := by
      intro hNil
      rw [hNil] at hRest
      exact absurd hRest (by simp [startsEndTag, startsWithNoCase])
    obtain ⟨j, hTag, hNext⟩ :=
      endTagAt_of_standsAt (hBehind.trans (standsAt_two_of_startsEndTag hRest))
    refine ⟨j, ?_, hNext⟩
    rw [if_pos (hBehind.lt_size_iff.mpr hFull), hTag, ok_bind]
    rfl

theorem not_isForeign_of_isRawText {name : String} (h : isRawText name = true) :
    isForeign name = false ∧ (name == "body") = false := by
  simp only [isRawText, rawTextNames, List.contains_eq_mem, List.mem_cons, List.not_mem_nil,
    or_false, decide_eq_true_eq] at h
  rcases h with rfl | rfl | rfl | rfl <;> decide

/-- A raw text element closes itself in foreign content only. -/
theorem rawText_guard (name : String) (body : TagBody) :
    (isRawText name && !(isVoid name || (body.selfClosing && (isForeign name ||
        (if name == "body" then b.close "head" else b).inForeign)))) =
      (isRawText name && !(body.selfClosing && b.inForeign)) := by
  by_cases hRaw : isRawText name = true
  · obtain ⟨hForeign, hBody⟩ := not_isForeign_of_isRawText hRaw
    rw [not_isVoid_of_isRawText hRaw, hForeign, hBody, Bool.false_or, Bool.false_or,
      if_neg Bool.false_ne_true]
  · rw [Bool.eq_false_of_not_eq_true hRaw, Bool.false_and, Bool.false_and]

/-- A start tag is taken, with its content if that is raw text, or the loop ends. -/
theorem startTagPass_takes (h : StandsAt text i ('<' :: cs)) :
    Takes text (startTagPass text b i) b (Token.startTag' b.inForeign cs) ∨
      startTagPass text b i = .ok (.inl (b.add (Token.startTag' b.inForeign cs).1)) ∧
        (Token.startTag' b.inForeign cs).2 = [] := by
  obtain ⟨r, hTag, hTracks⟩ := startTagAt_of_standsAt h
  rw [startTagPass, hTag, ok_bind, Token.startTag']
  cases hBody : tagBody? [] (cs.dropWhile isNameChar) with
  | none =>
      rw [hBody] at hTracks
      cases hTracks
      refine Or.inr ⟨?_, rfl⟩
      dsimp only
      rw [slice_size_of_standsAt h, ok_bind]
      rfl
  | some p =>
      obtain ⟨body, rest⟩ := p
      rw [hBody] at hTracks
      obtain _ | hNext := hTracks
      refine Or.inl ?_
      dsimp only
      rw [rawText_guard]
      generalize hNamed : String.ofList (lowerChars (cs.takeWhile isNameChar)) = named
      by_cases hRaw : (isRawText named && !(body.selfClosing && b.inForeign)) = true
      · have hBody := (not_isForeign_of_isRawText (Bool.and_eq_true_iff.mp hRaw).1).2
        rw [if_pos hRaw, if_pos hRaw, hBody, if_neg Bool.false_ne_true, ← hNamed]
        exact rawTextPass_takes b body.attributes (fun c => isLowerAscii_of_mem_name) hNext
      · rw [if_neg hRaw, if_neg hRaw]
        refine ⟨_, ?_, hNext⟩
        rw [Builder.add, Builder.startTag]
        generalize (if (named == "body") = true then b.close "head" else b) = opened
        split <;> rfl

/-! ### Which pass it is -/

theorem nodePass_of_bracket {d : Char} (h : StandsAt text i ('<' :: d :: cs))
    (hComment : dropFront? "<!--".toList ('<' :: d :: cs) = none) :
    nodePass text b i =
      if d == '/' && cs.head?.any isAsciiLetter then endTagPass text b i
      else if d == '!' || d == '?' then declarationPass text b i
      else if isAsciiLetter d then startTagPass text b i
      else textPass text b i := by
  have hSecond := h.tail (by decide)
  have hEnd : (hasBytesAt text i (encode "</".toList) && (byte? text (i + 2)).any isLetterByte) =
      (d == '/' && cs.head?.any isAsciiLetter) := by
    rw [hasBytesAt_of_standsAt (by simp) h]
    by_cases hSlash : d = '/'
    · subst hSlash
      rw [any_byte?_of_standsAt agrees_isLetterByte (hSecond.tail (by decide))]
      rfl
    · have hOther : dropFront? "</".toList ('<' :: d :: cs) = none := by
        simp [dropFront?, Ne.symm hSlash]
      rw [hOther, beq_false_of_ne hSlash]
      rfl
  have hSign := any_byte?_of_standsAt
    ((agrees_beq (d := '!') (by decide)).or (agrees_beq (d := '?') (by decide))) hSecond
  have hLetter := any_byte?_of_standsAt agrees_isLetterByte hSecond
  obtain ⟨first, hMem, hByte⟩ := byteAt_of_standsAt h
  have hFirst : (first == byteOf '<') = true := agrees_beq (by decide) '<' first hMem
  rw [nodePass, if_neg (not_size_le_of_standsAt h), hasBytesAt_of_standsAt (by simp) h, hComment,
    if_neg (by simp), hEnd, hByte, ok_bind, hFirst, Bool.true_and, Bool.true_and, hLetter, hSign]
  rfl

/-- What is no bracket is text, and so is a bracket at the end. -/
theorem nodePass_of_text {c : Char} (hText : c = '<' → cs = []) (h : StandsAt text i (c :: cs)) :
    nodePass text b i = textPass text b i := by
  have hNone : ∀ m mark, dropFront? ('<' :: m :: mark) (c :: cs) = none := by
    intro m mark
    rw [dropFront?]
    split
    · next hOpen => rw [hText hOpen.symm, dropFront?]
    · rfl
  have hComment : dropFront? "<!--".toList (c :: cs) = none := hNone ..
  have hEnd : dropFront? "</".toList (c :: cs) = none := hNone ..
  obtain ⟨first, hMem, hByte⟩ := byteAt_of_standsAt h
  have hFirst : (first == byteOf '<') = (c == '<') := agrees_beq (by decide) c first hMem
  -- behind a bracket at the end there is no byte
  have hNext : ∀ {p : UInt8 → Bool} {q : Char → Bool}, Agrees p q →
      ((c == '<') && (byte? text (i + 1)).any p) = false := by
    intro p q hAgrees
    by_cases hOpen : c = '<'
    · subst hOpen
      rw [any_byte?_of_standsAt hAgrees (h.tail (by decide)), hText rfl]
      rfl
    · rw [beq_false_of_ne hOpen, Bool.false_and]
  rw [nodePass, if_neg (not_size_le_of_standsAt h), hasBytesAt_of_standsAt (by simp) h,
    hasBytesAt_of_standsAt (by simp) h, hComment, hEnd, if_neg (by simp), if_neg (by simp), hByte,
    ok_bind, hFirst,
    hNext ((agrees_beq (d := '!') (by decide)).or (agrees_beq (d := '?') (by decide))),
    hNext agrees_isLetterByte, if_neg Bool.false_ne_true, if_neg Bool.false_ne_true]

/-- **One pass takes one token**, or the loop ends with the last one. -/
theorem nodePass_takes {c : Char} (h : StandsAt text i (c :: cs)) :
    Takes text (nodePass text b i) b (Token.next b.inForeign c cs) ∨
      nodePass text b i = .ok (.inl (b.add (Token.next b.inForeign c cs).1)) ∧
        (Token.next b.inForeign c cs).2 = [] := by
  -- the cases are those in which a token is read
  unfold Token.next
  split
  · next hOpen =>
      obtain rfl := beq_iff_eq.mp hOpen
      split
      · next rest =>
          have hComment : dropFront? "<!--".toList ('<' :: '!' :: '-' :: '-' :: rest) = some rest :=
            dropFront?_append "<!--".toList rest
          have hBehind : StandsAt text (i + size "<!--".toList) rest := StandsAt.append h
          rw [nodePass, if_neg (not_size_le_of_standsAt h), hasBytesAt_of_standsAt (by simp) h,
            hComment, if_pos (by simp)]
          exact Or.inl (commentPass_takes b hBehind)
      · next d rest hOther =>
          have hComment : dropFront? "<!--".toList ('<' :: d :: rest) = none := by
            rw [← Option.not_isSome_iff_eq_none, Option.isSome_iff_exists]
            rintro ⟨behind, hFront⟩
            have hSame : '<' :: d :: rest = '<' :: '!' :: '-' :: '-' :: behind :=
              eq_append_of_dropFront? hFront
            rw [List.cons.injEq, List.cons.injEq] at hSame
            exact hOther behind hSame.2.1 hSame.2.2
          rw [nodePass_of_bracket b h hComment]
          split
          · next hEnd =>
              obtain rfl := beq_iff_eq.mp (Bool.and_eq_true_iff.mp hEnd).1
              exact Or.inl (endTagPass_takes b ((h.tail (by decide)).tail (by decide)))
          · split
            · next hSign =>
                rw [Bool.or_eq_true, beq_iff_eq, beq_iff_eq] at hSign
                exact Or.inl (declarationPass_takes b hSign h)
            · split
              · exact startTagPass_takes b h
              · exact Or.inl (textPass_takes b h)
      · exact Or.inl (nodePass_of_text b (fun _ => rfl) h ▸ textPass_takes b h)
  · next hOther =>
      rw [nodePass_of_text b (fun hOpen => absurd (beq_iff_eq.mpr hOpen) hOther) h]
      exact Or.inl (textPass_takes b h)

end Passes

/-! ## A whole page -/

section Pages

variable {text cs : List Char} {b b' : Builder} {i j : Nat}

theorem nodePass_of_nil (h : StandsAt text i []) : nodePass text b i = .ok (.inl b) := by
  rw [nodePass, if_pos (size_le_of_standsAt_nil h)]
  rfl

/-- **The loop over a page** builds what its tokens build. -/
theorem advance_nodePass (h : StandsAt text i cs) :
    advance text (nodePass text) b i = .ok (b.run cs) := by
  fun_induction Builder.run b cs generalizing i with
  | case1 b => exact advance_of_inl (nodePass_of_nil h)
  | case2 b c cs token rest hToken ih =>
      have hLength := Token.length_next_lt b.inForeign c cs
      rw [hToken] at hLength
      obtain ⟨j, hPass, hNext⟩ | ⟨hPass, hRest⟩ := nodePass_takes b h
      · rw [hToken] at hPass hNext
        rw [advance_of_standsAt h hNext hPass hLength]
        exact ih hNext
      · rw [hToken] at hPass hRest
        obtain rfl : rest = [] := hRest
        rw [Builder.run_nil]
        exact advance_of_inl hPass

/-- A pass that goes on leaves fewer characters, and the page is still built from them. -/
theorem nodePass_step (h : StandsAt text i cs) (hPass : nodePass text b i = .ok (.inr (b', j))) :
    ∃ rest, StandsAt text j rest ∧ rest.length < cs.length ∧ b'.run rest = b.run cs := by
  cases cs with
  | nil =>
      rw [nodePass_of_nil h] at hPass
      cases hPass
  | cons c cs =>
      obtain ⟨k, hTaken, hNext⟩ | ⟨hTaken, -⟩ := nodePass_takes b h
      · rw [hTaken] at hPass
        cases hPass
        exact ⟨_, hNext, Token.length_next_lt b.inForeign c cs, (Builder.run_cons b c cs).symm⟩
      · rw [hTaken] at hPass
        cases hPass

/-- **The loop stands between characters** wherever it comes by, and what follows completes the
page. -/
theorem Visits.standsAt (h : Visits text b i) :
    ∃ cs, StandsAt text i cs ∧ b.run cs = Builder.run {} text := by
  induction h with
  | start => exact ⟨text, standsAt_zero text, rfl⟩
  | pass _ hPass ih =>
      obtain ⟨cs, hHere, hRun⟩ := ih
      obtain ⟨rest, hNext, -, hSame⟩ := nodePass_step hHere hPass
      exact ⟨rest, hNext, hSame.trans hRun⟩

/-- Wherever the loop comes by, the pass there commits no fault, and it moves the cursor on within
the page. -/
theorem Visits.nodePass_ok (h : Visits text b i) :
    ∃ r, nodePass text b i = .ok r ∧ ∀ b' j, r = .inr (b', j) → i < j ∧ j ≤ size text := by
  obtain ⟨cs, hHere, -⟩ := h.standsAt
  have hGoes : ∀ {r}, nodePass text b i = .ok r →
      ∀ b' j, r = .inr (b', j) → i < j ∧ j ≤ size text := by
    rintro r hPass b' j rfl
    obtain ⟨rest, hNext, hLength, -⟩ := nodePass_step hHere hPass
    exact ⟨hHere.lt hNext hLength, hNext.le⟩
  cases cs with
  | nil => exact ⟨_, nodePass_of_nil hHere, hGoes (nodePass_of_nil hHere)⟩
  | cons c cs =>
      obtain ⟨j, hPass, -⟩ | ⟨hPass, -⟩ := nodePass_takes b hHere
      · exact ⟨_, hPass, hGoes hPass⟩
      · exact ⟨_, hPass, hGoes hPass⟩

theorem readNodes_eq (html : String) : readNodes html = .ok (parseNodes html) := by
  rw [readNodes, advance_nodePass (standsAt_zero html.toList), ok_bind]
  rfl

/-- **Every page is read without a fault**, into what `Document.parse` gives.  Wherever the loop
over the page comes by, its cursor stands between characters, the pass there is without a fault,
and the cursor moves on within the page. -/
theorem readDocument_safe (html : String) :
    readDocument html = .ok (Document.parse html) ∧
      ∀ b i, Visits html.toList b i → (∃ cs, StandsAt html.toList i cs) ∧
        ∃ r, nodePass html.toList b i = .ok r ∧
          ∀ b' j, r = .inr (b', j) → i < j ∧ j ≤ size html.toList := by
  refine ⟨?_, fun b i hVisits => ⟨?_, hVisits.nodePass_ok⟩⟩
  · rw [readDocument, readNodes_eq, ok_bind]
    rfl
  · obtain ⟨cs, hHere, -⟩ := hVisits.standsAt
    exact ⟨cs, hHere⟩

end Pages

/-- A page that ends inside a value in quotes. -/
def cutPage : String := "é<p title='ü"

theorem readDocument_safe_cutPage :
    readDocument cutPage = .ok (Document.parse cutPage) ∧
      ∃ b i, Visits cutPage.toList b i ∧ StandsAt cutPage.toList i "<p title='ü".toList ∧
        ∃ r, nodePass cutPage.toList b i = .ok r ∧
          ∀ b' j, r = .inr (b', j) → i < j ∧ j ≤ size cutPage.toList := by
  have hStart : StandsAt cutPage.toList 0 ('é' :: "<p title='ü".toList) := standsAt_zero _
  have hFirst : nodePass cutPage.toList {} 0 = textPass cutPage.toList {} 0 :=
    nodePass_of_text {} (fun h => absurd h (by decide)) hStart
  obtain ⟨i, hPass, hNext⟩ := textPass_takes {} hStart
  have hVisits := Visits.start.pass (hFirst.trans hPass)
  have hSafe := readDocument_safe cutPage
  exact ⟨hSafe.1, _, i, hVisits, hNext, (hSafe.2 _ i hVisits).2⟩

end PagePreview.Markup
