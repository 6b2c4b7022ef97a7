import PagePreview.Proofs.Text.ByteOffsets
import PagePreview.Proofs.Text.Pieces
import PagePreview.Server.Response

/-!
# Asking for the head of an answer

An answer consists of lines, an empty line and a body.  Whoever reads it knows
only the text: `headOf` and `bodyOf` cut it at its first blank line, and
`fieldOf?` looks for a field in the lines in front.  None of the lines that are
sent is empty or has a line end in it (`Response.isLine_of_mem`), so what is cut
off is the body that was meant, whatever it is (`Response.breakOn?_chars`).

A request is some blanks, a method and a rest, whose first word is the target
(`ofText_requestBytes`); every request with letters for a method is of this form
(`exists_requestBytes`).  `respond_head_eq_headOf` puts both together: asking
for the head gives the head of what asking for the page gives.
-/

namespace PagePreview.Server

open Text
open Script (Compiler)

/-! ## Reading an answer -/

def lineEnd : List Char := ['\r', '\n']

/-- The end of a line and an empty line behind it. -/
def blankLine : List Char := lineEnd ++ lineEnd

/-- An answer up to and with its first blank line; all of it if there is none. -/
def headOf (text : List Char) : List Char :=
  match breakOn? blankLine text with
  | some (before, _) => before ++ blankLine
  | none => text

/-- What stands behind the first blank line of an answer. -/
def bodyOf (text : List Char) : List Char :=
  match breakOn? blankLine text with
  | some (_, behind) => behind
  | none => []

/-- The value of the first field of that name in the head of an answer. -/
def fieldOf? (name text : List Char) : Option (List Char) :=
  (breakOn? (lineEnd ++ (name ++ ": ".toList)) (headOf text)).map fun (_, behind) =>
    behind.takeWhile (· != '\r')

/-! ## Lines -/

/-- A line that can be told from what stands around it. -/
def IsLine (line : List Char) : Prop := line ≠ [] ∧ '\r' ∉ line

/-- The lines in front of a body, each with its end. -/
def linesChars (lines : List (List Char)) : List Char := lines.flatMap (· ++ lineEnd)

section Lines

variable {mark line : List Char}

/-- What begins with the end of a line does not begin inside a line. -/
theorem breakOn?_line (hLine : '\r' ∉ line) (rest : List Char) :
    breakOn? (lineEnd ++ mark) (line ++ (lineEnd ++ rest)) =
      match dropFront? mark rest with
      | some behind => some (line, behind)
      | none => (breakOn? (lineEnd ++ mark) rest).map fun (before, behind) =>
          (line ++ (lineEnd ++ before), behind) := by
  induction line with
  | nil =>
      have hEnd : lineEnd = ['\r', '\n'] := rfl
      rw [List.nil_append, hEnd]
      cases hMark : dropFront? mark rest with
      | some behind => simp [breakOn?, dropFront?, hMark]
      | none => simp [breakOn?, dropFront?, hMark, Function.comp_def]
  | cons c line ih =>
      rw [List.mem_cons, not_or] at hLine
      have hFirst : dropFront? (lineEnd ++ mark) (c :: (line ++ (lineEnd ++ rest))) = none := by
        simp [lineEnd, dropFront?, hLine.1]
      rw [List.cons_append, breakOn?, hFirst, ih hLine.2]
      cases dropFront? mark rest with
      | some behind => rfl
      | none => cases breakOn? (lineEnd ++ mark) rest <;> rfl

theorem dropFront?_lineEnd_line (h : IsLine line) (rest : List Char) :
    dropFront? lineEnd (line ++ rest) = none := by
  obtain ⟨c, line, rfl⟩ := List.exists_cons_of_ne_nil h.1
  have hFirst : ¬ '\r' = c := fun hEq => h.2 (hEq ▸ List.mem_cons_self)
  simp [lineEnd, dropFront?, hFirst]

/-- **The first blank line is the one behind the lines**, whatever body follows. -/
theorem breakOn?_linesChars {lines : List (List Char)} (hSome : lines ≠ [])
    (h : ∀ line ∈ lines, IsLine line) (body : List Char) :
    ∃ before, breakOn? blankLine (linesChars lines ++ (lineEnd ++ body)) = some (before, body) ∧
      before ++ blankLine = linesChars lines ++ lineEnd := by
  induction lines with
  | nil => exact absurd rfl hSome
  | cons line lines ih =>
      obtain ⟨hLine, hRest⟩ := List.forall_mem_cons.mp h
      have hText : linesChars (line :: lines) ++ (lineEnd ++ body) =
          line ++ (lineEnd ++ (linesChars lines ++ (lineEnd ++ body))) := by
        simp [linesChars]
      rw [hText, blankLine, breakOn?_line hLine.2]
      cases lines with
      | nil =>
          have hBody : dropFront? lineEnd (linesChars [] ++ (lineEnd ++ body)) = some body :=
            dropFront?_append lineEnd body
          exact ⟨line, by rw [hBody], by simp [linesChars]⟩
      | cons second lines =>
          obtain ⟨before, hBreak, hBefore⟩ := ih (by simp) hRest
          have hNone : dropFront? lineEnd (linesChars (second :: lines) ++ (lineEnd ++ body)) =
              none := by
            rw [linesChars, List.flatMap_cons, List.append_assoc, List.append_assoc]
            exact dropFront?_lineEnd_line (hRest second List.mem_cons_self) _
          rw [blankLine] at hBreak hBefore
          refine ⟨line ++ (lineEnd ++ before), by rw [hNone, hBreak]; rfl, ?_⟩
          rw [List.append_assoc, List.append_assoc, hBefore]
          simp [linesChars]

end Lines

/-! ## Answers that are sent -/

namespace Response

variable (r : Response)

/-- The lines in front of the body. -/
def lines : List (List Char) :=
  ["HTTP/1.1 ".toList ++ r.status.text.toList,
    "Content-Type: text/".toList ++ (if r.isHtml then "html" else "plain").toList ++
      "; charset=utf-8".toList,
    "Content-Length: ".toList ++ Decimal.natDigits (Utf8.size r.body),
    "Cache-Control: no-store".toList, "Connection: close".toList]

theorem lines_ne_nil : r.lines ≠ [] := by simp [lines]

theorem head_eq : r.head = linesChars r.lines ++ lineEnd := by
  simp [head, lines, linesChars, lineEnd]

theorem not_mem_natDigits (n : Nat) : '\r' ∉ Decimal.natDigits n := by
  intro hMem
  have hDigit : '\r'.isDigit = true := Nat.isDigit_of_mem_toDigits (by decide) (by decide) hMem
  exact absurd hDigit (by decide)

/-- **No line that is sent is empty or has a line end in it.** -/
theorem isLine_of_mem : ∀ line ∈ r.lines, IsLine line := by
  have hStatus : '\r' ∉ r.status.text.toList := by cases r.status <;> decide
  have hKind : '\r' ∉ (if r.isHtml then "html" else "plain").toList := by
    cases r.isHtml <;> decide
  have hLength := not_mem_natDigits (Utf8.size r.body)
  simp only [lines, List.forall_mem_cons, IsLine]
  refine ⟨⟨by simp, ?_⟩, ⟨by simp, ?_⟩, ⟨by simp, ?_⟩, ⟨by simp, by decide⟩, ⟨by simp, by decide⟩,
    by simp⟩
  · simpa using hStatus
  · simpa using hKind
  · simpa using hLength

/-- What is sent is cut in front of the body. -/
theorem breakOn?_chars : ∃ before,
    breakOn? blankLine (r.head ++ r.body) = some (before, r.body) ∧ before ++ blankLine = r.head := by
  rw [head_eq, List.append_assoc]
  exact breakOn?_linesChars r.lines_ne_nil r.isLine_of_mem r.body

theorem headOf_chars : headOf (r.chars .get) = r.head := by
  obtain ⟨before, hBreak, hBefore⟩ := r.breakOn?_chars
  rw [chars, headOf, hBreak]
  exact hBefore

theorem bodyOf_chars : bodyOf (r.chars .get) = r.body := by
  obtain ⟨before, hBreak, -⟩ := r.breakOn?_chars
  rw [chars, bodyOf, hBreak]

theorem headOf_head : headOf r.head = r.head := by
  obtain ⟨before, hBreak, hBefore⟩ := breakOn?_linesChars r.lines_ne_nil r.isLine_of_mem []
  rw [List.append_nil, ← head_eq] at hBreak
  rw [← head_eq] at hBefore
  rw [headOf, hBreak]
  exact hBefore

/-- **The length that is told is the number of bytes of the body.** -/
theorem fieldOf?_head : fieldOf? "Content-Length".toList r.head =
    some (Nat.toDigits 10 (Utf8.encode r.body).length) := by
  let name := "Content-Length".toList ++ ": ".toList
  let digits := Decimal.natDigits (Utf8.size r.body)
  let status := "HTTP/1.1 ".toList ++ r.status.text.toList
  let kind := (if r.isHtml then "html" else "plain").toList ++ "; charset=utf-8".toList
  let type := "Content-Type: text/".toList ++ kind
  let behind := lineEnd ++ linesChars ["Cache-Control: no-store".toList, "Connection: close".toList]
    ++ lineEnd
  have hHead : r.head =
      status ++ (lineEnd ++ (type ++ (lineEnd ++ (name ++ (digits ++ behind))))) := by
    simp [head_eq, lines, linesChars, status, type, kind, name, digits, behind]
  have hLines := r.isLine_of_mem
  simp only [lines, List.forall_mem_cons, List.append_assoc] at hLines
  have hType : dropFront? name (type ++ (lineEnd ++ (name ++ (digits ++ behind)))) = none := by
    simp [name, type, dropFront?]
  have hName : dropFront? name (name ++ (digits ++ behind)) = some (digits ++ behind) :=
    dropFront?_append ..
  have hDigits : (digits ++ behind).takeWhile (· != '\r') = digits := by
    refine takeWhile_append_stop (all_bne_of_not_mem (not_mem_natDigits _)) (d := '\r') ?_ _
    rfl
  rw [fieldOf?, headOf_head, hHead, breakOn?_line hLines.1.2, hType]
  dsimp only
  rw [breakOn?_line hLines.2.1.2, hName]
  simp only [Option.map_some, hDigits]
  rw [length_encode]
  rfl

end Response

/-! ## Requests that are received -/

/-- A request as it is received: blanks, a method, and whatever follows it. -/
def requestBytes (blanks method : List Char) (rest : List UInt8) : List UInt8 :=
  Utf8.encode (blanks ++ method) ++ rest

/-- The text behind the method of a request, up to the end of its line. -/
def lineBehindMethod (rest : List UInt8) : List Char :=
  (Utf8.decodeLossy rest).takeWhile (· != '\n')

/-- What a request is about: the first word behind its method, and a slash if there is none. -/
def targetOf (rest : List UInt8) : List Char := (wordsIn (lineBehindMethod rest)).headD ['/']

/-- A target without its query and its fragment. -/
def pathOf (target : List Char) : List Char := target.takeWhile fun c => c != '?' && c != '#'

theorem ofText_eq (text : List Char) : Request.ofText text =
    let words := wordsIn (text.takeWhile (· != '\n'))
    ⟨words.getD 0 [], words.getD 1 ['/']⟩ := rfl

section Requests

variable {blanks method : List Char} {rest : List UInt8}

/-- **The method is the first word of a request, and the target is the first one behind it.** -/
theorem ofText_requestBytes (hBlanks : ∀ c ∈ blanks, isBlank c = true ∧ c ≠ '\n')
    (hSome : method ≠ []) (hMethod : ∀ c ∈ method, isBlank c = false)
    (hRest : ∀ c, (Utf8.decodeLossy rest).head? = some c → isBlank c = true) :
    Request.ofText (Utf8.decodeLossy (requestBytes blanks method rest)) =
      ⟨method, targetOf rest⟩ := by
  have hStop : ∀ c ∈ blanks ++ method, (c != '\n') = true := by
    intro c hc
    rw [bne_iff_ne]
    rcases List.mem_append.mp hc with hBlank | hWord
    · exact (hBlanks c hBlank).2
    · rintro rfl
      exact absurd (hMethod '\n' hWord) (by decide)
  have hEnds : ∀ c, (lineBehindMethod rest).head? = some c → isBlank c = true := by
    intro c hc
    rw [lineBehindMethod, List.head?_takeWhile, Option.filter_eq_some_iff] at hc
    exact hRest c hc.1
  have hWords : wordsIn (blanks ++ (method ++ lineBehindMethod rest)) =
      method :: wordsIn (lineBehindMethod rest) := by
    rw [wordsIn_blanks_append fun c hc => (hBlanks c hc).1, wordsIn_append_word hSome hMethod hEnds]
  rw [requestBytes, Utf8.decodeLossy_encode_append, ofText_eq,
    List.takeWhile_append_of_pos hStop, ← lineBehindMethod, List.append_assoc, hWords, targetOf]
  dsimp only
  rw [List.getD_cons_zero, List.getD_cons_succ, List.headD_eq_getD]

theorem ofBytes?_eq {bytes : List UInt8} {request : Request}
    (h : Request.ofBytes? bytes = some request) (hFits : bytes.length ≤ requestLimit) :
    request = .ofText (Utf8.decodeLossy bytes) := by
  rw [Request.ofBytes?, List.take_of_length_le hFits] at h
  split at h
  · exact absurd h (by simp)
  · exact (Option.some.inj h).symm

/-- A request that is read as a whole. -/
theorem ofBytes?_requestBytes (hBlanks : ∀ c ∈ blanks, isBlank c = true ∧ c ≠ '\n')
    (hSome : method ≠ []) (hLetters : ∀ c ∈ method, c.isAlpha = true)
    (hRest : ∀ c, (Utf8.decodeLossy rest).head? = some c → isBlank c = true)
    (hFits : (requestBytes blanks method rest).length ≤ requestLimit) :
    Request.ofBytes? (requestBytes blanks method rest) = some ⟨method, targetOf rest⟩ := by
  have hBytes : (requestBytes blanks method rest).isEmpty = false := by
    obtain ⟨c, method, rfl⟩ := List.exists_cons_of_ne_nil hSome
    have hPos := c.utf8Size_pos
    rw [List.isEmpty_eq_false_iff_exists_mem, ← List.length_pos_iff_exists_mem, requestBytes,
      encode_append, Utf8.encode_cons]
    simp only [List.length_append, String.length_utf8EncodeChar]
    omega
  rw [Request.ofBytes?, hBytes, List.take_of_length_le hFits, ofText_requestBytes hBlanks hSome
    (fun c hc => not_isBlank_of_isAlpha (hLetters c hc)) hRest]
  rfl

/-- **Every request whose method is a word of letters is of this form.** -/
theorem exists_requestBytes {bytes : List UInt8} {target : List Char}
    (h : Request.ofText (Utf8.decodeLossy bytes) = ⟨method, target⟩) (hSome : method ≠ [])
    (hLetters : ∀ c ∈ method, c.isAlpha = true) : ∃ blanks rest,
      bytes = requestBytes blanks method rest ∧ (∀ c ∈ blanks, isBlank c = true ∧ c ≠ '\n') ∧
      ∀ c, (Utf8.decodeLossy rest).head? = some c → isBlank c = true := by
  let text := Utf8.decodeLossy bytes
  let line := text.takeWhile (· != '\n')
  have hMethod : (wordsIn line).getD 0 [] = method := congrArg Request.method h
  obtain ⟨words, hWords⟩ : ∃ words, wordsIn line = method :: words := by
    cases hLine : wordsIn line with
    | nil => exact absurd (by rw [← hMethod, hLine]; rfl) hSome
    | cons word words => exact ⟨words, by rw [← hMethod, hLine]; rfl⟩
  obtain ⟨blanks, behind, hLine, hBlanks, -, hEnds⟩ := exists_of_wordsIn_eq_cons hWords
  let tail := text.dropWhile (· != '\n')
  have hText : text = (blanks ++ method) ++ (behind ++ tail) := by
    rw [← List.append_assoc, List.append_assoc blanks, ← hLine, List.takeWhile_append_dropWhile]
  have hKnown : '\uFFFD' ∉ blanks ++ method := by
    rw [List.mem_append, not_or]
    exact ⟨fun hMem => absurd (hBlanks _ hMem) (by decide),
      fun hMem => absurd (hLetters _ hMem) (by decide)⟩
  obtain ⟨rest, hBytes, hRest⟩ := Utf8.exists_append_of_decodeLossy hText hKnown
  refine ⟨blanks, rest, hBytes, fun c hc => ⟨hBlanks c hc, ?_⟩, fun c hc => ?_⟩
  · have hMem : c ∈ line := hLine ▸ List.mem_append_left _ hc
    simpa using List.mem_takeWhile_imp hMem
  · rw [hRest] at hc
    cases behind with
    | cons d behind => exact hEnds c hc
    | nil =>
        -- the line ends behind the method
        have hEnd := List.head?_dropWhile_not (· != '\n') text
        rw [List.nil_append] at hc
        have hLineEnd : c = '\n' := by simpa [tail, hc] using hEnd
        rw [hLineEnd]
        rfl

/-- The shorter the method, the shorter the request. -/
theorem length_requestBytes_le {method' : List Char} (hLetters : ∀ c ∈ method, c.isAlpha = true)
    (hLetters' : ∀ c ∈ method', c.isAlpha = true) (hLe : method.length ≤ method'.length) :
    (requestBytes blanks method rest).length ≤ (requestBytes blanks method' rest).length := by
  have hAscii : ∀ c : Char, c.isAlpha = true → c.toNat < 0x80 := fun c hc =>
    toNat_of_isAlphanum (by rw [Char.isAlphanum, hc, Bool.true_or])
  have hBytes := length_encode_of_forall_lt fun c hc => hAscii c (hLetters c hc)
  have hBytes' := length_encode_of_forall_lt fun c hc => hAscii c (hLetters' c hc)
  simp only [requestBytes, encode_append, List.length_append]
  omega

end Requests

/-! ## Methods -/

namespace Method

theorem of?_eq_some_head_iff {name : List Char} :
    Method.of? name = some .head ↔ lowerChars name = "head".toList := by
  rw [Method.of?]
  split
  · next h => simp [beq_iff_eq.mp h]
  · split <;> simp_all

theorem of?_of_get {name : List Char} (h : lowerChars name = "get".toList) :
    Method.of? name = some .get := by
  rw [Method.of?, h]
  rfl

end Method

/-! ## What is answered -/

section Answers

variable (compile : Compiler) (source : String) {target : List Char}

theorem body_answer_of_page (hPath : String.ofList (pathOf target) = "/" ∨
    String.ofList (pathOf target) = "/index.html") :
    (answer compile (.ok source) target).body = (Page.prepare compile source).html.toList := by
  have hRoute : Route.of? target = some .page := by
    rw [Route.of?, ← pathOf]
    rcases hPath with hPath | hPath <;> (rw [hPath]; rfl)
  rw [answer, hRoute]

theorem body_answer_of_source (hPath : String.ofList (pathOf target) = "/source") :
    (answer compile (.ok source) target).body = source.toList := by
  have hRoute : Route.of? target = some .source := by
    rw [Route.of?, ← pathOf, hPath]
    rfl
  rw [answer, hRoute]

end Answers

/-- A field stands in the head of an answer. -/
theorem fieldOf?_headOf {text head : List Char} (hHead : headOf text = head)
    (hSame : headOf head = head) (name : List Char) : fieldOf? name text = fieldOf? name head := by
  rw [fieldOf?, fieldOf?, hHead, hSame]

theorem respond_of_request {bytes : List UInt8} {name target : List Char} {m : Method}
    (compile : Compiler) (page : Except String String)
    (hRequest : Request.ofBytes? bytes = some ⟨name, target⟩) (hMethod : Method.of? name = some m) :
    respond compile page bytes = (answer compile page target).chars m := by
  simp [respond, hRequest, hMethod]

/-- **Asking for the head gives the head of the answer.**  The request for the whole differs in its
method only, and the length that is told in both answers is the number of bytes of the body that
stands in one of them.  If the page can be read, this body is the page made ready for running, or
its source, just as the path says. -/
theorem respond_head_eq_headOf (compile : Compiler) (page : Except String String)
    {bytes : List UInt8} {request : Request} (hRequest : Request.ofBytes? bytes = some request)
    (hHead : Method.of? request.method = some .head) (hFits : bytes.length ≤ requestLimit) :
    ∃ blanks rest, bytes = requestBytes blanks request.method rest ∧
      ∀ get, lowerChars get = "get".toList →
        let whole := respond compile page (requestBytes blanks get rest)
        let top := respond compile page bytes
        let path := String.ofList (pathOf request.target)
        let length := Nat.toDigits 10 (Utf8.encode (bodyOf whole)).length
        Request.ofBytes? (requestBytes blanks get rest) = some ⟨get, request.target⟩ ∧
          top = headOf whole ∧ fieldOf? "Content-Length".toList whole = some length ∧
          fieldOf? "Content-Length".toList top = some length ∧
          ∀ source, page = .ok source →
            (path = "/" ∨ path = "/index.html" →
              bodyOf whole = (Page.prepare compile source).html.toList) ∧
            (path = "/source" → bodyOf whole = source.toList) := by
  have hHeadName := Method.of?_eq_some_head_iff.mp hHead
  have hHeadLetters : ∀ c ∈ request.method, c.isAlpha = true :=
    isAlpha_of_lowerChars (by simp [hHeadName, Char.isAlpha])
  have hHeadSome : request.method ≠ [] := fun hNone => by simp [hNone, lowerChars] at hHeadName
  obtain ⟨blanks, rest, rfl, hBlanks, hRest⟩ :=
    exists_requestBytes (ofBytes?_eq hRequest hFits).symm hHeadSome hHeadLetters
  have hTarget : request.target = targetOf rest := by
    rw [ofBytes?_requestBytes hBlanks hHeadSome hHeadLetters hRest hFits] at hRequest
    exact congrArg Request.target (Option.some.inj hRequest).symm
  refine ⟨blanks, rest, rfl, fun get hGet => ?_⟩
  intro whole top path length
  have hGetLetters : ∀ c ∈ get, c.isAlpha = true :=
    isAlpha_of_lowerChars (by simp [hGet, Char.isAlpha])
  have hGetSome : get ≠ [] := fun hNone => by simp [hNone, lowerChars] at hGet
  have hShorter : get.length ≤ request.method.length := by
    rw [← length_lowerChars get, ← length_lowerChars request.method, hGet, hHeadName]
    decide
  have hGetRequest : Request.ofBytes? (requestBytes blanks get rest) =
      some ⟨get, request.target⟩ := by
    rw [hTarget]
    exact ofBytes?_requestBytes hBlanks hGetSome hGetLetters hRest
      ((length_requestBytes_le hGetLetters hHeadLetters hShorter).trans hFits)
  let r := answer compile page request.target
  have hWhole : whole = r.chars .get :=
    respond_of_request compile page hGetRequest (Method.of?_of_get hGet)
  have hTop : top = r.chars .head := respond_of_request compile page hRequest hHead
  have hBody : bodyOf whole = r.body := by rw [hWhole, r.bodyOf_chars]
  have hCut : headOf whole = r.head := by rw [hWhole, r.headOf_chars]
  have hLength : fieldOf? "Content-Length".toList r.head = some length := by
    rw [r.fieldOf?_head, ← hBody]
  clear_value whole top
  refine ⟨hGetRequest, by rw [hTop, hCut, Response.chars], ?_,
    by rw [hTop, Response.chars, hLength], ?_⟩
  · rw [fieldOf?_headOf hCut r.headOf_head, hLength]
  · rintro source rfl
    rw [hBody]
    exact ⟨body_answer_of_page compile source, body_answer_of_source compile source⟩

/-- A request for a page with a query, which does not matter. -/
theorem respond_head_eq_headOf_index :
    let compile : Compiler := fun request => { javascript := request.source }
    let bytes := Utf8.encode "Head /index.html?x HTTP/1.1\r\n\r\n".toList
    ∃ blanks rest, bytes = requestBytes blanks "Head".toList rest ∧
      let whole := respond compile (.ok "<p>é") (requestBytes blanks "GET".toList rest)
      respond compile (.ok "<p>é") bytes = headOf whole ∧
        bodyOf whole = (Page.prepare compile "<p>é").html.toList := by
  intro compile bytes
  have hRequest : Request.ofBytes? bytes = some ⟨"Head".toList, "/index.html?x".toList⟩ := by
    rw [Request.ofBytes?, List.take_of_length_le (by decide +kernel), Utf8.decodeLossy_encode]
    decide +kernel
  obtain ⟨blanks, rest, hBytes, hGet⟩ :=
    respond_head_eq_headOf compile (.ok "<p>é") hRequest (by decide) (by decide +kernel)
  obtain ⟨-, hTop, -, -, hPage⟩ := hGet "GET".toList (by decide)
  exact ⟨blanks, rest, hBytes, hTop, (hPage "<p>é" rfl).1 (Or.inr (by decide))⟩

end PagePreview.Server
