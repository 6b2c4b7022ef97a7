import PagePreview.Proofs.Markup.PrintableEdit
import PagePreview.Proofs.Page.Prepared

/-!
# Printed pages

Nothing that a compiler answers can make a printable page unprintable.  Its
answers become the contents of scripts, where `guardEndTags` has put a
backslash into every end tag of a script, and all that is set besides them is
the type of a module.  The console hook is printable, too
(`printable_prepared`).  So the page that is read from what `prepare` prints is
the page that was meant: no script leaks out of its element, and every other
node is what it was (`parse_prepare`).

A formatted page is read back in the same way, so a second run meets the texts
that the first one has written, each under the same number.  If the compiler
prints what it has printed in the same way once more, or gives up on it, every
script is treated as it stands (`Treated.again`), and since the treated scripts
determine the page (`PointwiseEdit.unique`) the second run changes nothing:
`format_format`.
-/

namespace PagePreview.Page

open Markup Script Text

/-! ## Printable pages stay printable -/

theorem quoteFree_setAttribute {attributes : List Attribute} (h : QuoteFree attributes)
    (name : String) {value : String} (hValue : '"' ∉ value.toList) :
    QuoteFree (setAttribute name value attributes) := by
  induction attributes with
  | nil => exact List.forall_mem_singleton.mpr hValue
  | cons a rest ih =>
      obtain ⟨hFirst, hRest⟩ := List.forall_mem_cons.mp h
      rw [setAttribute]
      split
      · exact List.forall_mem_cons.mpr ⟨hValue, hRest⟩
      · exact List.forall_mem_cons.mpr ⟨hFirst, ih hRest⟩

/-- A treated script has no double quotes in its attributes if it had none before. -/
theorem Treated.quoteFree {compile : Compiler} {purpose : Purpose} {index : Nat}
    {script e : Element} {r : ScriptReport} (h : Treated compile purpose index script e r)
    (hScript : QuoteFree script.attributes) : QuoteFree e.attributes := by
  cases h with
  | empty _ | other _ | kept _ _ _ | compiled _ _ _ _ => exact hScript
  | promoted _ _ _ _ => exact quoteFree_setAttribute hScript "type" (by decide)

/-- The console hook is printable. -/
theorem printable_hook : hook.Printable :=
  .of_isRawText wellFormed_bootstrapScript.element (by decide) (by simp [QuoteFree, hook])

section Printable

variable {page : Document}

/-- **Editing the scripts of a printable page leaves it printable.** -/
theorem printable_editScripts (compile : Compiler) (purpose : Purpose) (h : page.Printable) :
    (editScripts compile purpose page).Printable :=
  h.editDescendants (by decide)
    (fun i e hName hScript => (treated_decide compile purpose i e).wellFormed hName hScript)
    (fun i e hQuotes => (treated_decide compile purpose i e).quoteFree hQuotes)

/-- **Preparing a printable page makes a printable one**, whatever the compiler answers. -/
theorem printable_prepared (compile : Compiler) (h : page.Printable) :
    (prepared compile page).Printable := by
  have hEdited := printable_editScripts compile .run h
  obtain ⟨before, head, after, hChildren, hIsHead, hBefore, hEq⟩ :=
    prependToHead_of_headFirst hEdited.head bootstrapScript
  rw [prepared, hEq]
  have hHook : hook.toNode.WellFormed := wellFormed_bootstrapScript
  have hElements : ∀ e ∈ hook.toNode.elements, e.Printable :=
    List.forall_mem_singleton.mpr printable_hook
  exact hEdited.prependToHead hChildren hIsHead hBefore hHook hElements rfl

end Printable

/-- **A prepared page is read back as it was meant.**  If a page was read that is printable, the
page read from what `prepare` prints is that page with every script treated by its number and the
console hook at the front of its head. -/
theorem parse_prepare (compile : Compiler) (html : String) (h : (Document.parse html).Printable) :
    ∃ edited,
      PointwiseEdit compile .run (Document.parse html) edited (prepare compile html).scripts ∧
      ∃ (before : List Markup.Node) (head : Element) (after : List Markup.Node),
        edited.root.children = before ++ head.toNode :: after ∧
        head.name = "head" ∧ (∀ n ∈ before, n.isElement = false) ∧
        Document.parse (prepare compile html).html =
          { edited with
            root := { edited.root with
              children := before ++
                (head.prepend [.element "script" [] [.text Console.bootstrap]]).toNode ::
                  after } } := by
  have hRead : Document.parse (prepare compile html).html =
      prepared compile (Document.parse html) := Document.parse_toHtml (printable_prepared compile h)
  obtain ⟨before, head, after, hChildren, hIsHead, hBefore, hEq⟩ :=
    prependToHead_of_headFirst (printable_editScripts compile .run h).head bootstrapScript
  refine ⟨editScripts compile .run (Document.parse html),
    pointwiseEdit_editScripts compile .run (unnested_script_parse html),
    before, head, after, hChildren, hIsHead, hBefore, ?_⟩
  rw [hRead, prepared, hEq]
  rfl

/-- A compiler whose answers try to end their scripts. -/
def endingCompiler : Compiler := fun request =>
  { javascript := request.source ++ "</script><body></SCRIPT >\"-->", injected := true }

/-- A page with a script to be compiled, an empty one and one of another kind. -/
def scriptedPage : String :=
  "<!doctype html>\n<html lang=en><head><title>a < b</title></head><body id='x'>1 < 2 <br>" ++
    "<script>f()</script><script></script><script type=text/plain>g</script></body></html>"

theorem parse_prepare_scriptedPage : (Document.parse scriptedPage).Printable ∧
    ∃ edited,
      PointwiseEdit endingCompiler .run (Document.parse scriptedPage) edited
        (prepare endingCompiler scriptedPage).scripts ∧
      ∃ (before : List Markup.Node) (head : Element) (after : List Markup.Node),
        edited.root.children = before ++ head.toNode :: after ∧
        head.name = "head" ∧ (∀ n ∈ before, n.isElement = false) ∧
        Document.parse (prepare endingCompiler scriptedPage).html =
          { edited with
            root := { edited.root with
              children := before ++
                (head.prepend [.element "script" [] [.text Console.bootstrap]]).toNode ::
                  after } } :=
  have hPage : (Document.parse scriptedPage).Printable := by decide +kernel
  ⟨hPage, parse_prepare endingCompiler scriptedPage hPage⟩

/-! ## Guarding twice -/

/-- **What is guarded needs no guarding.** -/
theorem guardChars_guardChars (cs : List Char) : guardChars (guardChars cs) = guardChars cs := by
  induction cs with
  | nil => rfl
  | cons c cs ih =>
      have hWhole := not_startsWithNoCase_guardChars (c :: cs)
      rw [guardChars] at hWhole ⊢
      split at hWhole
      · next hEnd =>
          have hSlash : startsWithNoCase endTagStart ('\\' :: guardChars cs) = false := rfl
          rw [if_pos hEnd, guardChars, hWhole, if_neg Bool.false_ne_true, guardChars, hSlash,
            if_neg Bool.false_ne_true, ih]
      · next hFree => rw [if_neg hFree, guardChars, hWhole, if_neg Bool.false_ne_true, ih]

theorem guardEndTags_guardEndTags (script : String) :
    guardEndTags (guardEndTags script) = guardEndTags script := by
  rw [guardEndTags, guardEndTags, String.toList_ofList, guardChars_guardChars]

/-! ## Formatting twice -/

/-- What a compiler prints a script as, unless it gives up on the script. -/
def printed? (compile : Compiler) (source id : String) : Option String :=
  let result := compile ⟨source, id, .format⟩
  match result.fault with
  | some _ => none
  | none => some result.javascript

/-- A compiler prints every script as `print` says, whatever the script is called, and what was
printed and put into a page is printed as the same text again, unless the compiler gives up on
it. -/
structure Settles (compile : Compiler) (print : String → Option String) : Prop where
  printed : ∀ source id, printed? compile source id = print source
  again : ∀ source js js', print source = some js → print (guardEndTags js) = some js' →
    guardEndTags js' = guardEndTags js

section

variable {compile : Compiler} {print : String → Option String}

theorem Settles.of_answer (h : Settles compile print) {index : Nat} {script : Element}
    (hFault : (answerFor compile .format index script).fault = none) :
    print script.text = some (answerFor compile .format index script).javascript := by
  rw [← h.printed script.text ("inline-" ++ toString index), printed?]
  show (match (answerFor compile .format index script).fault with
    | some _ => none
    | none => some (answerFor compile .format index script).javascript) = _
  rw [hFault]

theorem text_setText (e : Element) (text : String) : (e.setText text).text = text := by
  rw [Element.text, Element.setText, textOf, textChildren]
  by_cases hEmpty : text = ""
  · simp [hEmpty]
  · simp [hEmpty]

/-- **A script that was formatted is left as it stands** when it is formatted again. -/
theorem Treated.again (h : Settles compile print) {index : Nat} {script e : Element}
    {r : ScriptReport} (hTreated : Treated compile .format index script e r) :
    ∃ r, Treated compile .format index e e r := by
  cases hTreated with
  | empty hText => exact ⟨_, .empty hText⟩
  | other hKind => exact ⟨_, .other hKind⟩
  | kept hText hKind hFault => exact ⟨_, .kept hText hKind hFault⟩
  | promoted _ _ _ hPromoted => exact absurd hPromoted.1 (by simp)
  | compiled hText hKind hFault _ =>
      generalize hWritten :
        guardEndTags (answerFor compile .format index script).javascript = written
      have hFirst := h.of_answer hFault
      have hHolds : (script.setText written).text = written := text_setText script written
      by_cases hEmpty : written = ""
      · exact ⟨_, .empty (hHolds.trans hEmpty)⟩
      have hSome : (script.setText written).text ≠ "" := by rw [hHolds]; exact hEmpty
      cases hAgain : (answerFor compile .format index (script.setText written)).fault with
      | some fault => exact ⟨_, .kept hSome hKind hAgain⟩
      | none =>
          have hSecond := h.of_answer hAgain
          rw [hHolds] at hSecond
          have hSame := (h.again _ _ _ hFirst (by rw [hWritten]; exact hSecond)).trans hWritten
          have hLeft := Treated.compiled hSome hKind hAgain fun hPromoted =>
            absurd hPromoted.1 (by simp)
          rw [hSame] at hLeft
          exact ⟨_, hLeft⟩

variable {page edited : Document}

/-- **Formatting a formatted page edits nothing.** -/
theorem PointwiseEdit.again {reports : List ScriptReport} (h : Settles compile print)
    (hEdit : PointwiseEdit compile .format page edited reports)
    (hPage : Unnested "script" page.root.children) :
    editScripts compile .format edited = edited := by
  have hUnnested := hEdit.unnested hPage
  -- the page is its own edit, so it is the only one
  have hSelf : PointwiseEdit compile .format edited edited
      (scriptReports compile .format edited) := by
    refine ⟨⟨rfl, rfl, rfl, rfl⟩, rfl, by rw [scriptReports, List.length_mapIdx], ?_⟩
    intro i script hScript
    have hIndex : i < page.scripts.length := by
      rw [← hEdit.length_scripts]
      exact (List.getElem?_eq_some_iff.mp hScript).1
    obtain ⟨e, r, hEdited, -, hTreated⟩ :=
      hEdit.treated i page.scripts[i] (List.getElem?_eq_getElem hIndex)
    obtain rfl : e = script := Option.some.inj (hEdited.symm.trans hScript)
    obtain ⟨r', hAgain⟩ := hTreated.again h
    obtain ⟨-, rfl⟩ := hAgain.unique (treated_decide compile .format i e)
    refine ⟨e, _, hScript, ?_, hAgain⟩
    rw [scriptReports, List.getElem?_mapIdx, hScript]
    rfl
  exact (hSelf.unique (pointwiseEdit_editScripts compile .format hUnnested) hUnnested).1

end

/-- **Formatting settles after one run** on a printable page. -/
theorem format_format {compile : Compiler} {print : String → Option String}
    (h : Settles compile print) {html : String} (hPage : (Document.parse html).Printable) :
    format compile (format compile html) = format compile html := by
  have hRead : Document.parse (format compile html) =
      editScripts compile .format (Document.parse html) :=
    Document.parse_toHtml (printable_editScripts compile .format hPage)
  have hUnnested := unnested_script_parse html
  have hEdit := pointwiseEdit_editScripts compile .format hUnnested
  show (editScripts compile .format (Document.parse (format compile html))).toHtml = _
  rw [hRead, hEdit.again h hUnnested]
  rfl

end PagePreview.Page
