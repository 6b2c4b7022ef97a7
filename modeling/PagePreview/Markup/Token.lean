import PagePreview.Markup.Node
import PagePreview.Text.Blank
import PagePreview.Text.Search

/-!
# Tokens of markup

`Token.next` takes one token off the front of a page. There is no token
that is an error: a comment without an end runs to the end of the page, a
start tag without one is text from there on, and an angle bracket that opens
nothing is text as well.

An element whose content is raw text comes as one token, content and end tag
included. Whether a tag may close itself depends on the elements around it,
and only for raw text does that change where the token ends; this is what
the argument `foreign` is for.

Every token takes at least one character (`length_next_lt`).
-/

namespace PagePreview.Markup

open Text

/-! ## Character classes -/

def isAsciiLetter (c : Char) : Bool := c.isAlpha

/-- Characters of an element name. -/
def isNameChar (c : Char) : Bool := c.isAlphanum || c == '-' || c == '_' || c == ':'

/-- Characters of an attribute name. -/
def isAttributeChar (c : Char) : Bool :=
  !(isAsciiBlank c || c == '=' || c == '>' || c == '/')

/-- Characters of an attribute value without quotes. -/
def isBareValueChar (c : Char) : Bool := !(isAsciiBlank c || c == '>')

def dropBlanks (cs : List Char) : List Char := cs.dropWhile isAsciiBlank

theorem length_dropWhile_le (p : Char → Bool) (cs : List Char) :
    (cs.dropWhile p).length ≤ cs.length :=
  (List.dropWhile_sublist p).length_le

theorem length_dropBlanks_le (cs : List Char) : (dropBlanks cs).length ≤ cs.length :=
  length_dropWhile_le ..

/-! ## Start tags -/

/-- The value of an attribute after the equals sign, and what follows it; none if the page ends
before the value does. -/
def attributeValue? : List Char → Option (List Char × List Char)
  | [] => none
  | c :: cs =>
    if c == '"' || c == '\'' then
      match cs.dropWhile (· != c) with
      | [] => none
      | _ :: after => some (cs.takeWhile (· != c), after)
    else some ((c :: cs).takeWhile isBareValueChar, (c :: cs).dropWhile isBareValueChar)

theorem length_attributeValue?_le {cs value rest : List Char}
    (h : attributeValue? cs = some (value, rest)) : rest.length ≤ cs.length := by
  cases cs with
  | nil => simp [attributeValue?] at h
  | cons c cs =>
    simp only [attributeValue?] at h
    split at h
    · split at h
      · simp at h
      · next after hd =>
        simp only [Option.some.injEq, Prod.mk.injEq] at h
        obtain ⟨-, rfl⟩ := h
        have := length_dropWhile_le (· != c) cs
        rw [hd] at this
        simp only [List.length_cons] at this ⊢
        omega
    · simp only [Option.some.injEq, Prod.mk.injEq] at h
      obtain ⟨-, rfl⟩ := h
      exact length_dropWhile_le ..

/-- The value that follows an attribute name, and what follows it. Without an equals sign the
value is empty. -/
def valueAfterName? (cs : List Char) : Option (List Char × List Char) :=
  match dropBlanks cs with
  | '=' :: rest => attributeValue? (dropBlanks rest)
  | rest => some ([], rest)

theorem length_valueAfterName?_le {cs value rest : List Char}
    (h : valueAfterName? cs = some (value, rest)) : rest.length ≤ cs.length := by
  have hb := length_dropBlanks_le cs
  simp only [valueAfterName?] at h
  split at h
  · next r hr =>
    have h1 := length_attributeValue?_le h
    have h2 := length_dropBlanks_le r
    rw [hr] at hb
    simp only [List.length_cons] at hb
    omega
  · simp only [Option.some.injEq, Prod.mk.injEq] at h
    obtain ⟨-, rfl⟩ := h
    exact hb

/-- What follows the element name in a start tag. -/
structure TagBody where
  attributes : List Attribute
  selfClosing : Bool

/-- Adds an attribute at the front of `attributes`, which come last first, unless there is one
of its name: the first one counts. -/
def addAttribute (name value : List Char) (attributes : List Attribute) : List Attribute :=
  let name := String.ofList (lowerChars name)
  if attributes.any (·.name == name) then attributes
  else ⟨name, String.ofList value⟩ :: attributes

/-- Reads the part of a start tag behind the element name, given the attributes so far, last
first. None if the page ends before the tag does. -/
def tagBody? (seen : List Attribute) (cs : List Char) : Option (TagBody × List Char) :=
  match _h : dropBlanks cs with
  | [] => none
  | '>' :: rest => some (⟨seen.reverse, false⟩, rest)
  | '/' :: '>' :: rest => some (⟨seen.reverse, true⟩, rest)
  | '/' :: rest => tagBody? seen rest
  | c :: rest =>
    if isAttributeChar c then
      match _hv : valueAfterName? (rest.dropWhile isAttributeChar) with
      | none => none
      | some (value, after) =>
        tagBody? (addAttribute (c :: rest.takeWhile isAttributeChar) value seen) after
    else tagBody? seen rest
termination_by cs.length
decreasing_by
  all_goals
    have hb := length_dropBlanks_le cs
    rw [_h] at hb
    simp only [List.length_cons] at hb
  · omega
  · have h1 := length_valueAfterName?_le _hv
    have h2 := length_dropWhile_le isAttributeChar rest
    omega
  · omega

theorem length_tagBody?_lt {seen : List Attribute} {cs rest : List Char} {body : TagBody}
    (h : tagBody? seen cs = some (body, rest)) : rest.length < cs.length := by
  fun_induction tagBody? seen cs generalizing rest body with
  | case1 => simp at h
  | case2 seen cs r hr | case3 seen cs r hr =>
    have hb := length_dropBlanks_le cs
    simp only [Option.some.injEq, Prod.mk.injEq] at h
    rw [hr, h.2] at hb
    simp only [List.length_cons] at hb
    omega
  | case4 seen cs r _ hr ih =>
    have hb := length_dropBlanks_le cs
    rw [hr] at hb
    have := ih h
    simp only [List.length_cons] at hb
    omega
  | case5 => simp at h
  | case6 seen cs c r _ _ _ hr _ value after hv ih =>
    have hb := length_dropBlanks_le cs
    rw [hr] at hb
    have h1 := length_valueAfterName?_le hv
    have h2 := length_dropWhile_le isAttributeChar r
    have := ih h
    simp only [List.length_cons] at hb
    omega
  | case7 seen cs c r _ _ _ hr _ ih =>
    have hb := length_dropBlanks_le cs
    rw [hr] at hb
    have := ih h
    simp only [List.length_cons] at hb
    omega

/-! ## End tags and raw text -/

/-- What follows the next closing angle bracket. -/
def afterBracket (cs : List Char) : List Char := (cs.dropWhile (· != '>')).drop 1

theorem length_afterBracket_le (cs : List Char) : (afterBracket cs).length ≤ cs.length := by
  have := length_dropWhile_le (· != '>') cs
  simp only [afterBracket, List.length_drop]
  omega

/-- The name in an end tag, and what follows the tag; `cs` begins behind `</`. -/
def endTag (cs : List Char) : String × List Char :=
  let cs := dropBlanks cs
  (String.ofList (lowerChars (cs.takeWhile isNameChar)), afterBracket (cs.dropWhile isNameChar))

theorem length_endTag_le (cs : List Char) : (endTag cs).2.length ≤ cs.length := by
  have h1 := length_dropBlanks_le cs
  have h2 := length_dropWhile_le isNameChar (dropBlanks cs)
  have h3 := length_afterBracket_le ((dropBlanks cs).dropWhile isNameChar)
  simp only [endTag]
  omega

/-- Whether an end tag of the element `name` (in lower case) stands at the front: the name in
either case, and then no further letter or digit. -/
def startsEndTag (name cs : List Char) : Bool :=
  startsWithNoCase ('<' :: '/' :: name) cs &&
    (match cs.drop (name.length + 2) with
      | [] => true
      | c :: _ => !c.isAlphanum)

/-- The content of a raw text element, and the rest from its end tag on. -/
def rawText (name : List Char) : List Char → List Char × List Char
  | [] => ([], [])
  | c :: cs =>
    if startsEndTag name (c :: cs) then ([], c :: cs)
    else let (text, rest) := rawText name cs; (c :: text, rest)

theorem rawText_append (name cs : List Char) : (rawText name cs).1 ++ (rawText name cs).2 = cs := by
  induction cs with
  | nil => rfl
  | cons c cs ih =>
    simp only [rawText]
    split
    · rfl
    · simpa using ih

theorem length_rawText_le (name cs : List Char) : (rawText name cs).2.length ≤ cs.length := by
  have h : (rawText name cs).2 <:+ cs := ⟨_, rawText_append name cs⟩
  exact h.length_le

/-! ## Texts -/

/-- Whether the character behind an angle bracket makes it the start of a tag, a comment or a
declaration. -/
def opensMarkup (c : Char) : Bool := isAsciiLetter c || c == '/' || c == '!' || c == '?'

/-- The text in front of the next angle bracket that opens something, and the rest. -/
def plainText : List Char → List Char × List Char
  | [] => ([], [])
  | '<' :: d :: cs =>
    if opensMarkup d then ([], '<' :: d :: cs)
    else let (text, rest) := plainText (d :: cs); ('<' :: text, rest)
  | c :: cs => let (text, rest) := plainText cs; (c :: text, rest)

theorem plainText_append (cs : List Char) : (plainText cs).1 ++ (plainText cs).2 = cs := by
  fun_induction plainText cs <;> simp_all

theorem length_plainText_le (cs : List Char) : (plainText cs).2.length ≤ cs.length := by
  have h : (plainText cs).2 <:+ cs := ⟨_, plainText_append cs⟩
  exact h.length_le

/-! ## Tokens -/

inductive Token where
  | text (text : List Char)
  | comment (text : List Char)
  /-- A declaration or a processing instruction, its brackets included. -/
  | declaration (text : List Char)
  | startTag (name : String) (body : TagBody)
  | endTag (name : String)
  /-- A raw text element from its start tag to its end tag. -/
  | rawText (name : String) (attributes : List Attribute) (text : List Char)

namespace Token

/-- A comment; `cs` begins behind `<!--`. -/
def comment' (cs : List Char) : Token × List Char :=
  match breakOn? "-->".toList cs with
  | some (body, rest) => (.comment body, rest)
  | none => (.comment cs, [])

/-- The token of a start tag; `cs` begins at the name. Without an end of the tag everything from
its angle bracket on is text. -/
def startTag' (foreign : Bool) (cs : List Char) : Token × List Char :=
  let name := lowerChars (cs.takeWhile isNameChar)
  let named := String.ofList name
  match tagBody? [] (cs.dropWhile isNameChar) with
  | none => (.text ('<' :: cs), [])
  | some (body, rest) =>
    if isRawText named && !(body.selfClosing && foreign) then
      let (content, rest) := Markup.rawText name rest
      (.rawText named body.attributes content, (Markup.endTag (rest.drop 2)).2)
    else (.startTag named body, rest)

/-- The first token of the page `c :: cs` and what follows it. `foreign` tells whether the place
lies in foreign content. -/
def next (foreign : Bool) (c : Char) (cs : List Char) : Token × List Char :=
  if c == '<' then
    match cs with
    | '!' :: '-' :: '-' :: rest => comment' rest
    | d :: rest =>
      if d == '/' && rest.head?.any isAsciiLetter then
        let (name, rest) := Markup.endTag rest
        (.endTag name, rest)
      else if d == '!' || d == '?' then
        (.declaration (c :: d :: (rest.takeWhile (· != '>') ++
          (rest.dropWhile (· != '>')).take 1)), afterBracket rest)
      else if isAsciiLetter d then startTag' foreign cs
      else let (more, rest) := plainText cs; (.text (c :: more), rest)
    | [] => (.text [c], [])
  else let (more, rest) := plainText cs; (.text (c :: more), rest)

theorem length_comment'_le (cs : List Char) : (comment' cs).2.length ≤ cs.length := by
  unfold comment'
  split
  · next h =>
    have := congrArg List.length (eq_append_of_breakOn? h)
    simp only [List.length_append] at this
    dsimp only
    omega
  · simp

theorem length_startTag'_le (foreign : Bool) (cs : List Char) :
    (startTag' foreign cs).2.length ≤ cs.length := by
  have hn := length_dropWhile_le isNameChar cs
  unfold startTag'
  split
  · simp
  · next body rest h =>
    have hb := length_tagBody?_lt h
    dsimp only
    split
    · have h1 := length_rawText_le (lowerChars (cs.takeWhile isNameChar)) rest
      have h2 := length_endTag_le
        (((Markup.rawText (lowerChars (cs.takeWhile isNameChar)) rest).2).drop 2)
      simp only [List.length_drop] at h2
      dsimp only
      omega
    · dsimp only
      omega

/-- Every token takes at least one character. -/
theorem length_next_lt (foreign : Bool) (c : Char) (cs : List Char) :
    (next foreign c cs).2.length < (c :: cs).length := by
  simp only [List.length_cons, Nat.lt_succ_iff]
  unfold next
  split
  · split
    · next rest =>
      have := length_comment'_le rest
      simp only [List.length_cons]
      omega
    · next d rest _ =>
      split
      · have := length_endTag_le rest
        simp only [List.length_cons]
        omega
      · split
        · have := length_afterBracket_le rest
          simp only [List.length_cons]
          omega
        · split
          · exact length_startTag'_le ..
          · exact length_plainText_le ..
    · simp
  · exact length_plainText_le ..

end Token

end PagePreview.Markup
