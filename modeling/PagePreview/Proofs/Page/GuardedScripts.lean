import PagePreview.Proofs.Page.SettledFormat

/-!
# Scripts that stay inside their element

A script is guarded before it is put into a page.  The places that need it are
those where `</script` stands in the text in lower case (`endsAt`), and what is
put in is one backslash at each of them, between the bracket and the slash
(`guardChars_eq_flatMap`).  No such place is left, so nothing is put in twice.

A guarded script can therefore be printed between the tags of a script element:
whatever attributes the start tag has and whatever follows the end tag, what is
read there is that one element, and reading goes on right behind it
(`guardEndTags_staysInside`).
-/

namespace PagePreview.Page

open Markup Text

/-! ## Where an end tag begins -/

/-- Whether the start of an end tag of a script stands at a place of the text in lower case. -/
def endsAt (cs : List Char) (i : Nat) : Bool := startsWith endTagStart ((lowerChars cs).drop i)

/-- To ignore case is to look at the text in lower case. -/
theorem startsWithNoCase_eq (front cs : List Char) :
    startsWithNoCase front cs = startsWith front (lowerChars cs) := by
  induction front generalizing cs with
  | nil => rfl
  | cons f front ih =>
      cases cs with
      | nil => rfl
      | cons c cs => exact congrArg (f == c.toLower && ·) (ih cs)

theorem endsAt_eq (cs : List Char) (i : Nat) :
    endsAt cs i = startsWithNoCase endTagStart (cs.drop i) := by
  rw [endsAt, startsWithNoCase_eq, lowerChars, lowerChars, List.map_drop]

/-- Where an end tag begins stand its bracket and its slash. -/
theorem getElem?_of_endsAt {cs : List Char} {i : Nat} (h : endsAt cs i = true) :
    cs[i]? = some '<' ∧ cs[i + 1]? = some '/' := by
  have hSign : ∀ {d c : Char}, d.isAlpha = false → (d == c.toLower) = true → c = d :=
    fun hd hc => (toLower_eq_iff_of_not_isAlpha hd).mp (beq_iff_eq.mp hc).symm
  have hStarts : startsWithNoCase ('<' :: '/' :: "script".toList) (cs.drop i) = true :=
    (endsAt_eq cs i).symm.trans h
  have hFirst : (cs.drop i)[0]? = some '<' ∧ (cs.drop i)[1]? = some '/' := by
    match cs.drop i, hStarts with
    | [], hStarts => exact absurd hStarts nofun
    | [c], hStarts => exact absurd hStarts (by simp [startsWithNoCase])
    | c :: d :: rest, hStarts =>
        simp only [startsWithNoCase, Bool.and_eq_true] at hStarts
        obtain ⟨hBracket, hSlash, -⟩ := hStarts
        rw [hSign (by decide) hBracket, hSign (by decide) hSlash]
        exact ⟨rfl, rfl⟩
  simpa only [List.getElem?_drop, Nat.add_zero] using hFirst

/-! ## What guarding puts in -/

/-- **Guarding puts one backslash behind each bracket that begins an end tag**, and changes nothing
else. -/
theorem guardChars_eq_flatMap (cs : List Char) : guardChars cs =
    cs.zipIdx.flatMap fun (c, i) => if endsAt cs i then [c, '\\'] else [c] := by
  have hFrom : ∀ front rest : List Char, cs = front ++ rest → guardChars rest =
      (rest.zipIdx front.length).flatMap fun (c, i) => if endsAt cs i then [c, '\\'] else [c] := by
    intro front rest hSplit
    induction rest generalizing front with
    | nil => rfl
    | cons c rest ih =>
        have hHere : endsAt cs front.length = startsWithNoCase endTagStart (c :: rest) := by
          rw [endsAt_eq, hSplit, List.drop_left]
        have hRest := ih (front ++ [c]) (by simpa using hSplit)
        rw [List.length_append, List.length_singleton] at hRest
        rw [List.zipIdx_cons, List.flatMap_cons, ← hRest, guardChars]
        dsimp only
        rw [hHere]
        split <;> rfl
  exact hFrom [] cs rfl

/-- No end tag is left in what is guarded. -/
theorem not_endsAt_guardChars (cs : List Char) (i : Nat) : endsAt (guardChars cs) i = false := by
  rw [endsAt_eq, not_startsWithNoCase_drop_guardChars]

/-! ## Between the tags of a script -/

/-- The text of a script element with these attributes, the script itself and what follows
included. -/
def scriptChars (attributes : List Attribute) (script rest : List Char) : List Char :=
  startTagChars "script" attributes ++ (script ++ (endTagChars "script" ++ rest))

/-- The script element that is read from such a text: double quotes in the values of its attributes
have been printed as references. -/
def scriptElement (attributes : List Attribute) (script : String) : Element where
  name := "script"
  attributes := attributes.map Attribute.written
  children := textChildren script

theorem text_scriptElement (attributes : List Attribute) (script : String) :
    (scriptElement attributes script).text = script :=
  text_setText ⟨"script", attributes.map Attribute.written, []⟩ script

variable {attributes : List Attribute}

/-- A guarded script between its tags is one token, up to what follows the end tag. -/
theorem next_scriptChars (h : AttributesWellFormed attributes) (foreign : Bool)
    (script rest : List Char) :
    ∃ cs, scriptChars attributes (guardChars script) rest = '<' :: cs ∧
      Token.next foreign '<' cs =
        (.rawText "script" (attributes.map Attribute.written) (guardChars script), rest) := by
  have hLegible : (Token.rawText "script" (attributes.map Attribute.written)
      (guardChars script)).Legible :=
    ⟨by decide, by decide, h.written, quoteFree_written attributes, holdsEndTag_guardChars script⟩
  obtain ⟨cs, hText, hNext⟩ := next_chars foreign hLegible rest
  refine ⟨cs, ?_, hNext⟩
  rw [← hText, Token.chars, startTagChars_written, List.append_assoc, List.append_assoc,
    scriptChars]

/-- **A builder that meets a guarded script between its tags adds one element**, and goes on with
what follows. -/
theorem run_scriptChars (h : AttributesWellFormed attributes) (b : Builder) (script : String)
    (rest : List Char) :
    b.run (scriptChars attributes (guardEndTags script).toList rest) =
      (b.addNode (scriptElement attributes (guardEndTags script)).toNode).run rest := by
  obtain ⟨cs, hText, hNext⟩ := next_scriptChars h b.inForeign script.toList rest
  have hGuarded : (guardEndTags script).toList = guardChars script.toList := String.toList_ofList
  rw [hGuarded, hText, Builder.run_cons, hNext]
  rfl

/-- **A guarded script stays inside its element.**  It is the script with a backslash between the
bracket and the slash of each end tag that begins in it, whatever its case; no end tag begins in it
any more, so guarding it again changes nothing.  Printed between the tags of a script element it is
read back as the text of that one element, and reading goes on with what follows.  The attributes
are any that a tag can have (`wellFormed_tagBody?`). -/
theorem guardEndTags_staysInside (script : String) :
    (guardEndTags script).toList = (script.toList.zipIdx.flatMap fun (c, i) =>
      if endsAt script.toList i then [c, '\\'] else [c]) ∧
    (∀ i, endsAt script.toList i = true →
      script.toList[i]? = some '<' ∧ script.toList[i + 1]? = some '/') ∧
    (∀ i, endsAt (guardEndTags script).toList i = false) ∧
    guardEndTags (guardEndTags script) = guardEndTags script ∧
    ∀ attributes, AttributesWellFormed attributes → ∀ (b : Builder) (rest : List Char),
      (∃ cs token, scriptChars attributes (guardEndTags script).toList rest = '<' :: cs ∧
        Token.next b.inForeign '<' cs = (token, rest) ∧
        b.add token = b.addNode (scriptElement attributes (guardEndTags script)).toNode) ∧
      (scriptElement attributes (guardEndTags script)).text = guardEndTags script ∧
      b.run (scriptChars attributes (guardEndTags script).toList rest) =
        (b.addNode (scriptElement attributes (guardEndTags script)).toNode).run rest := by
  have hGuarded : (guardEndTags script).toList = guardChars script.toList := String.toList_ofList
  refine ⟨?_, fun i => getElem?_of_endsAt, fun i => ?_, guardEndTags_guardEndTags script, ?_⟩
  · rw [hGuarded]
    exact guardChars_eq_flatMap script.toList
  · rw [hGuarded]
    exact not_endsAt_guardChars script.toList i
  · intro attributes hAttributes b rest
    refine ⟨?_, text_scriptElement _ _, run_scriptChars hAttributes b script rest⟩
    obtain ⟨cs, hText, hNext⟩ := next_scriptChars hAttributes b.inForeign script.toList rest
    rw [hGuarded]
    exact ⟨cs, _, hText, hNext, rfl⟩

/-- Two end tags begin in this script, and one of them is not finished. -/
example : guardEndTags "s = \"</script>\" + \"</SCRIPT" = "s = \"<\\/script>\" + \"<\\/SCRIPT" := by
  decide +kernel

/-- An end tag in the value of an attribute and an unfinished one at the end of the script end
nothing. -/
theorem guardEndTags_staysInside_unfinished :
    AttributesWellFormed [⟨"title", "\"</script>"⟩] ∧
    ∀ (b : Builder) (rest : List Char),
      b.run (scriptChars [⟨"title", "\"</script>"⟩]
          (guardEndTags "é('</SCRIPT>') < </script").toList rest) =
        (b.addNode (scriptElement [⟨"title", "\"</script>"⟩]
          (guardEndTags "é('</SCRIPT>') < </script")).toNode).run rest :=
  have hAttributes : AttributesWellFormed [⟨"title", "\"</script>"⟩] := by decide
  ⟨hAttributes, fun b rest =>
    ((guardEndTags_staysInside "é('</SCRIPT>') < </script").2.2.2.2 _ hAttributes b rest).2.2⟩

end PagePreview.Page
