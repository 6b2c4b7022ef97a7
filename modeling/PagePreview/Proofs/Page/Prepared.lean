import PagePreview.Proofs.Markup.Rereading
import PagePreview.Proofs.Page.Pointwise

/-!
# What a prepared page looks like

Whatever the compiler answers, a prepared page is a page that could have been
read: no script holds its own end tag, since `guardEndTags` sees to that, and
every other element is as well formed as it was.  The console hook begins the
head, and the page has one script more than before.

The texts of the page are left alone.  So a page in whose texts no markup
opens is prepared to another one (`isQuiet_prepared`).
-/

namespace PagePreview.Page

open Markup Script Text

/-! ## Guarded scripts -/

/-- Guarding puts something behind angle brackets only. -/
theorem startsWithNoCase_guardChars {front : List Char} (h : '<' ∉ front) (cs : List Char) :
    startsWithNoCase front (guardChars cs) = startsWithNoCase front cs := by
  induction front generalizing cs with
  | nil => rfl
  | cons f front ih =>
      simp only [List.mem_cons, not_or] at h
      cases cs with
      | nil => rfl
      | cons c cs =>
          simp only [guardChars]
          split
          · next hEnd =>
              -- the bracket that is guarded does not match the front
              have hBracket : c = '<' := eq_bracket_of_startsWithNoCase hEnd
              have hFirst : (f == c.toLower) = false := by
                rw [hBracket]
                exact beq_eq_false_iff_ne.mpr fun hEq => h.1 hEq.symm
              simp [startsWithNoCase, hFirst]
          · simp [startsWithNoCase, ih h.2 cs]

/-- What is guarded does not begin like an end tag of a script. -/
theorem not_startsWithNoCase_guardChars (cs : List Char) :
    startsWithNoCase endTagStart (guardChars cs) = false := by
  cases cs with
  | nil => rfl
  | cons c cs =>
      rw [guardChars]
      split
      · -- behind the bracket comes the backslash now
        exact Bool.and_false _
      · next hFree =>
          have hSame : startsWithNoCase endTagStart (c :: guardChars cs) =
              startsWithNoCase endTagStart (c :: cs) :=
            congrArg ('<' == c.toLower && ·)
              (startsWithNoCase_guardChars (show '<' ∉ "/script".toList by decide) cs)
          rw [hSame]
          exact Bool.eq_false_of_not_eq_true hFree

/-- Nowhere in a guarded script does an end tag of a script begin. -/
theorem not_startsWithNoCase_drop_guardChars (cs : List Char) (i : Nat) :
    startsWithNoCase endTagStart ((guardChars cs).drop i) = false := by
  induction cs generalizing i with
  | nil =>
      rw [guardChars, List.drop_nil]
      rfl
  | cons c cs ih =>
      cases i with
      | zero => exact not_startsWithNoCase_guardChars (c :: cs)
      | succ i =>
          rw [guardChars]
          split
          · cases i with
            | zero => rfl
            | succ i => exact ih i
          · exact ih i

/-- **A guarded script holds no end tag of a script.** -/
theorem holdsEndTag_guardChars (cs : List Char) :
    holdsEndTag "script".toList (guardChars cs) = false :=
  holdsEndTag_of_forall (not_startsWithNoCase_drop_guardChars cs)

/-- What is put into a script can stand there. -/
theorem isRawContent_guardEndTags (script : String) :
    isRawContent "script" (textChildren (guardEndTags script)) = true := by
  refine isRawContent_textChildren ?_
  have hText : (guardEndTags script).toList = guardChars script.toList := String.toList_ofList
  rw [hText]
  exact holdsEndTag_guardChars script.toList

/-! ## The console hook -/

theorem not_mem_bootstrapLines : ∀ line ∈ Console.bootstrapLines, '<' ∉ line.toList := by
  -- the characters of a line are counted as a list, which is what a literal stands for
  have hChars : ∀ line ∈ Console.bootstrapLines,
      ∃ cs, line = String.ofList cs ∧ cs.elem '<' = false := by
    unfold Console.bootstrapLines
    repeat refine List.forall_mem_cons.mpr ⟨⟨_, rfl, rfl⟩, ?_⟩
    simp
  intro line hLine
  obtain ⟨cs, rfl, hBracket⟩ := hChars line hLine
  rw [String.toList_ofList]
  simpa using hBracket

/-- The hook can stand in a script. -/
theorem isRawContent_bootstrap : isRawContent "script" [.text Console.bootstrap] = true := by
  have hChars : Console.bootstrap.toList =
      (Console.bootstrapLines.map (· ++ "\n")).flatMap String.toList := String.toList_join
  have hNonempty : Console.bootstrap.toList.isEmpty = false := by
    have hEnd : '\n' ∈ Console.bootstrap.toList := by
      rw [hChars, List.mem_flatMap]
      exact ⟨_, List.mem_map_of_mem List.mem_cons_self, by simp⟩
    refine Bool.eq_false_iff.mpr fun hEmpty => ?_
    rw [List.isEmpty_iff.mp hEmpty] at hEnd
    exact absurd hEnd (by simp)
  have hBrackets : '<' ∉ Console.bootstrap.toList := by
    rw [hChars]
    intro hMem
    obtain ⟨line, hLine, hIn⟩ := List.mem_flatMap.mp hMem
    obtain ⟨source, hSource, rfl⟩ := List.mem_map.mp hLine
    rw [String.toList_append, List.mem_append] at hIn
    exact hIn.elim (not_mem_bootstrapLines source hSource) (by decide)
  rw [isRawContent, hNonempty, holdsEndTag_of_not_mem hBrackets]
  rfl

/-! ## A prepared page is well formed -/

/-- A treated script is as well formed as it was. -/
theorem Treated.wellFormed {compile : Compiler} {purpose : Purpose} {index : Nat}
    {script e : Element} {r : ScriptReport} (h : Treated compile purpose index script e r)
    (hName : script.name = "script") (hScript : script.toNode.WellFormed) :
    e.toNode.WellFormed := by
  obtain ⟨name, attributes, children⟩ := script
  change name = "script" at hName
  subst hName
  have hNew : ∀ (attributes : List Attribute) (text : String), AttributesWellFormed attributes →
      (Markup.Node.element "script" attributes (textChildren (guardEndTags text))).WellFormed :=
    fun attributes text hAttributes => wellFormed_element (by decide) hAttributes
      (fun hVoid => absurd hVoid (by decide)) (fun _ => isRawContent_guardEndTags text)
      (wellFormed_textChildren _)
  have hAttributes := hScript.element.attributes
  cases h with
  | empty _ | other _ | kept _ _ _ => exact hScript
  | compiled _ _ _ _ =>
      dsimp only [Element.setText, Element.toNode]
      exact hNew attributes _ hAttributes
  | promoted _ _ _ _ =>
      dsimp only [Element.setText, Element.setAttribute, Element.toNode]
      exact hNew (setAttribute "type" "module" attributes) _
        (hAttributes.setAttribute (by decide) "module")

section Prepared

variable {page : Document}

theorem wellFormed_editScripts (compile : Compiler) (purpose : Purpose)
    (hPage : page.root.toNode.WellFormed) (hName : page.root.name = "html") :
    (editScripts compile purpose page).root.toNode.WellFormed := by
  refine hPage.withChildren (by rw [hName]; decide) (by rw [hName]; decide) ?_
  exact wellFormed_editEach (by decide)
    (fun i e hScript => (treated_decide compile purpose i e).wellFormed hScript)
    page.root.children 0 hPage.children

theorem wellFormed_bootstrapScript : bootstrapScript.WellFormed :=
  wellFormed_element (by decide) .nil (by decide) (fun _ => isRawContent_bootstrap)
    (List.forall_mem_singleton.mpr (wellFormed_text _))

/-- A root that begins with its head still does when its scripts are edited. -/
theorem headFirst_editScripts (compile : Compiler) (purpose : Purpose)
    (hHead : page.root.HeadFirst) : (editScripts compile purpose page).root.HeadFirst :=
  hHead.editDescendants (by decide) _

theorem wellFormed_prependToHead (hPage : page.root.toNode.WellFormed)
    (hName : page.root.name = "html") {node : Markup.Node} (hNode : node.WellFormed) :
    (page.prependToHead node).root.toNode.WellFormed := by
  have hHtml : (ensureHead page.root).name = "html" := by rw [name_ensureHead, hName]
  have hEnsured := wellFormed_ensureHead hPage (by rw [hName]; decide) (by rw [hName]; decide)
  refine wellFormed_changeChild hEnsured (by rw [hHtml]; decide) (by rw [hHtml]; decide) ?_
  intro head hIsHead hWellFormed
  exact wellFormed_prepend hWellFormed (by rw [hIsHead]; decide) (by rw [hIsHead]; decide)
    (List.forall_mem_singleton.mpr hNode)

theorem name_prepared (compile : Compiler) (page : Document) :
    (prepared compile page).root.name = page.root.name :=
  (name_changeChild ..).trans (name_ensureHead _)

/-- **A prepared page is well formed** if the page was. -/
theorem wellFormed_prepared (compile : Compiler) (hPage : page.WellFormed)
    (hName : page.root.name = "html") : (prepared compile page).WellFormed :=
  ⟨hPage.doctype, wellFormed_prependToHead (wellFormed_editScripts compile .run hPage.root hName)
    hName wellFormed_bootstrapScript⟩

/-! ## The console hook comes first -/

/-- The console hook as an element. -/
def hook : Element := ⟨"script", [], [.text Console.bootstrap]⟩

theorem headBegins_prepared (compile : Compiler) (hHead : page.root.HeadFirst)
    (hName : page.root.name = "html") : (prepared compile page).HeadBegins hook := by
  obtain ⟨before, head, after, -, hIsHead, hBefore, hEq⟩ :=
    prependToHead_of_headFirst (headFirst_editScripts compile .run hHead) bootstrapScript
  refine ⟨(name_prepared compile page).trans hName, ?_⟩
  rw [prepared, hEq]
  exact ⟨before, head.prepend [bootstrapScript], after, head.children, rfl, hIsHead, hBefore, rfl⟩

/-- The scripts of a prepared page are the console hook and the edited ones. -/
theorem scripts_prepared (compile : Compiler) (hHead : page.root.HeadFirst) :
    (prepared compile page).scripts = hook :: (editScripts compile .run page).scripts := by
  obtain ⟨before, head, after, hChildren, hIsHead, hBefore, hEq⟩ :=
    prependToHead_of_headFirst (headFirst_editScripts compile .run hHead) bootstrapScript
  have hOther : head.name ≠ "script" := by rw [hIsHead]; decide
  have hOther' : (head.prepend [bootstrapScript]).name ≠ "script" := hOther
  have hHook : (head.prepend [bootstrapScript]).descendants "script" =
      hook :: head.descendants "script" := rfl
  unfold Document.scripts Element.descendants
  rw [prepared, hEq, hChildren, elementsNamed_append, elementsNamed_append,
    elementsNamed_eq_nil hBefore, elementsNamed_toNode_cons hOther,
    elementsNamed_toNode_cons hOther', hHook]
  rfl

theorem length_scripts_prepared (compile : Compiler) (hHead : page.root.HeadFirst)
    (hPage : Unnested "script" page.root.children) :
    (prepared compile page).scripts.length = page.scripts.length + 1 := by
  rw [scripts_prepared compile hHead, List.length_cons,
    (pointwiseEdit_editScripts compile .run hPage).length_scripts]

end Prepared

/-- **The head is the first element of every page, and the console hook the first script of every
prepared one.**  The root of a page is an `html` element with a head that no element precedes, so
normalising it once more changes nothing, and what is put at the front of that head comes before
all the scripts of the page. -/
theorem head_first_and_hook_first (html : String) :
    (Document.parse html).root.name = "html" ∧
      (∃ (before : List Markup.Node) (head : Element) (after : List Markup.Node),
        (Document.parse html).root.children = before ++ head.toNode :: after ∧
          head.name = "head" ∧ ∀ n ∈ before, n.isElement = false) ∧
      normalize [(Document.parse html).root.toNode] = (Document.parse html).root ∧
      ∀ compile : Compiler,
        (prepare compile html).html = (prepared compile (Document.parse html)).toHtml ∧
          (prepared compile (Document.parse html)).scripts =
            hook :: (editScripts compile .run (Document.parse html)).scripts ∧
          (editScripts compile .run (Document.parse html)).scripts.length =
            (Document.parse html).scripts.length := by
  have hName : (Document.parse html).root.name = "html" := name_normalize (parseNodes html).2
  have hHead : (Document.parse html).root.HeadFirst := headFirst_normalize (parseNodes html).2
  have hEdit := fun compile => pointwiseEdit_editScripts compile .run (unnested_script_parse html)
  refine ⟨hName, ?_, ?_, fun compile => ⟨rfl, ?_, ?_⟩⟩
  · obtain ⟨before, head, after, hBreak, hBefore⟩ := hHead
    obtain ⟨hChildren, hIsHead, -⟩ := breakAt?_eq_some_iff.mp hBreak
    exact ⟨before, head, after, hChildren, hIsHead, hBefore⟩
  · have hNothing : ∀ n ∈ ([] : List Markup.Node), n.isContent = false := by simp
    exact normalize_of_headFirst hHead hName hNothing
  · exact scripts_prepared compile hHead
  · exact (hEdit compile).length_scripts

/-! ## The texts of a prepared page -/

section Texts

variable {name : String} (edit : Nat → Element → Edit)

mutual
private theorem node_map_text?_row_editEach (hRaw : isRawText name = true) :
    ∀ (node : Markup.Node) (next : Nat),
      (node.editEach name edit next).1.row.map Token.text? = node.row.map Token.text?
  | .element n attributes children, next => by
      cases hIsRaw : isRawText n with
      | true =>
          -- an element of raw text is one token, whatever becomes of it
          obtain ⟨newAttributes, newChildren, hEdited⟩ :=
            exists_editEach_element name edit n attributes children next
          rw [hEdited, row_raw _ _ hIsRaw, row_raw _ _ hIsRaw]
          rfl
      | false =>
          have hOther : ¬ n = name := ne_of_isRawText hRaw hIsRaw
          have hChildren := map_text?_row_editEach hRaw children next
          rw [editEach_of_ne hOther]
          cases hVoid : isVoid n with
          | true => rw [row_void _ _ hIsRaw hVoid, row_void _ _ hIsRaw hVoid]
          | false =>
              rw [row_filled _ _ hIsRaw hVoid, row_filled _ _ hIsRaw hVoid]
              simp only [List.map_cons, List.map_append, hChildren]
  | .text _, _ => rfl
  | .comment _, _ => rfl
/-- **Editing elements of raw text leaves the texts of a row and their places alone.** -/
theorem map_text?_row_editEach (hRaw : isRawText name = true) :
    ∀ (nodes : List Markup.Node) (next : Nat),
      (row (editEach name edit next nodes).1).map Token.text? = (row nodes).map Token.text?
  | [], _ => rfl
  | node :: rest, next => by
      simp only [editEach, row, List.map_append, node_map_text?_row_editEach hRaw node next,
        map_text?_row_editEach hRaw rest]
end

end Texts

theorem map_text?_row_editScripts (compile : Compiler) (purpose : Purpose) {page : Document}
    (hName : page.root.name = "html") :
    (editScripts compile purpose page).row.map Token.text? = page.row.map Token.text? := by
  have hRoot : (editScripts compile purpose page).root.name = "html" := hName
  have hRaw : isRawText "script" = true := by decide
  have hContent := map_text?_row_editEach (fun i e => (decide compile purpose i e).edit) hRaw
    page.root.children 0
  rw [Document.row_of_html hRoot, Document.row_of_html hName]
  simp only [List.map_append, List.map_cons]
  exact congrArg (fun texts => page.doctypeRow.map Token.text? ++ none :: (texts ++ [none]))
    hContent

/-- The console hook is one token that is put into the row of the page. -/
theorem exists_row_prepared (compile : Compiler) {page : Document} (hHead : page.root.HeadFirst)
    (hName : page.root.name = "html") :
    ∃ front rest, (editScripts compile .run page).row = front ++ rest ∧
      (prepared compile page).row =
        front ++ .rawText "script" [] Console.bootstrap.toList :: rest := by
  obtain ⟨before, head, after, hChildren, hIsHead, -, hEq⟩ :=
    prependToHead_of_headFirst (headFirst_editScripts compile .run hHead) bootstrapScript
  have hEdited := Document.row_of_head (show (editScripts compile .run page).root.name = "html"
    from hName) hChildren hIsHead
  have hHook : row (head.prepend [bootstrapScript]).children =
      .rawText "script" [] Console.bootstrap.toList :: row head.children := by
    rw [Element.prepend, List.singleton_append, row_cons, bootstrapScript,
      row_raw _ _ (by decide)]
    simp [textOf]
  let front := page.doctypeRow ++
    .startTag "html" ⟨page.root.attributes.map Attribute.written, false⟩ ::
      (row before ++ [.startTag "head" ⟨head.attributes.map Attribute.written, false⟩])
  let rest := row head.children ++ .endTag "head" :: (row after ++ [.endTag "html"])
  refine ⟨front, rest, ?_, ?_⟩
  · rw [hEdited]
    simp only [front, rest, List.append_assoc, List.cons_append, List.nil_append]
    rfl
  · have hReady : (prepared compile page).root.children =
        before ++ (head.prepend [bootstrapScript]).toNode :: after := by
      rw [prepared, hEq]
    rw [Document.row_of_head ((name_prepared compile page).trans hName) hReady hIsHead, hHook]
    rw [prepared, hEq]
    simp only [front, rest, List.append_assoc, List.cons_append, List.nil_append]
    rfl

/-- **Preparing a page in whose texts no markup opens makes another one.** -/
theorem isQuiet_prepared (compile : Compiler) {page : Document} (hHead : page.root.HeadFirst)
    (hName : page.root.name = "html") (hQuiet : isQuiet page.row = true) :
    isQuiet (prepared compile page).row = true := by
  obtain ⟨front, rest, hEdited, hPrepared⟩ := exists_row_prepared compile hHead hName
  have hTexts := isQuietFrom_congr (map_text?_row_editScripts compile .run hName) []
  rw [hPrepared]
  refine isQuietFrom_insert rfl ?_
  rw [← hEdited]
  exact hTexts.trans hQuiet

end PagePreview.Page
