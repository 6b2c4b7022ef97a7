import PagePreview.Page.Preparation
import PagePreview.Proofs.Markup.Editing
import PagePreview.Proofs.Markup.WellFormed

/-!
# Preparing a page is a map over its scripts

Preparing a page edits its scripts one by one.  `Treated` lists what may
become of a single script, and `PointwiseEdit` says that two pages differ by
nothing else: the same page around the scripts, equally many scripts and
reports, and each script treated by its number.

`pointwiseEdit_editScripts` shows that this is what happens, and
`PointwiseEdit.unique` that it leaves no choice: there is one such page and
one such list of reports.  `traverse_visitScript` shows the same for a single
pass through the tree that numbers each script by the reports written before
it.
-/

namespace PagePreview.Page

open Markup Script

/-- Around their scripts the two pages are the same. -/
structure SameFrame (page other : Document) : Prop where
  doctype : other.doctype = page.doctype
  name : other.root.name = page.root.name
  attributes : other.root.attributes = page.root.attributes
  content : mask "script" other.root.children = mask "script" page.root.children

/-- Whether a compiled script is turned into a module. -/
def Promoted (purpose : Purpose) (kind : ScriptKind) (injected : Bool) : Prop :=
  purpose = .run ∧ ((∃ type, kind = .authoring type) ∨ (kind = .classic ∧ injected = true))

/-- The kind of a script element. -/
def kindOf (script : Element) : ScriptKind := ScriptKind.ofType (script.attribute? "type")

/-- What the compiler answers for the script with that number. -/
def answerFor (compile : Compiler) (purpose : Purpose) (index : Nat) (script : Element) :
    Result :=
  compile ⟨script.text, "inline-" ++ toString index, purpose.mode⟩

/-- What may become of a script, and what is reported of it. -/
inductive Treated (compile : Compiler) (purpose : Purpose) (index : Nat) (script : Element) :
    Element → ScriptReport → Prop where
  /-- An empty script is left alone. -/
  | empty (hText : script.text = "") :
      Treated compile purpose index script script ⟨index, kindOf script, .skipped⟩
  /-- What is no script is left alone. -/
  | other {type : String} (hKind : kindOf script = .other type) :
      Treated compile purpose index script script ⟨index, kindOf script, .skipped⟩
  /-- A script with a fault is left alone. -/
  | kept {fault : Fault} (hText : script.text ≠ "") (hKind : ∀ type, kindOf script ≠ .other type)
      (hFault : (answerFor compile purpose index script).fault = some fault) :
      Treated compile purpose index script script ⟨index, kindOf script, .kept fault⟩
  /-- A compiled script gets its new text. -/
  | compiled (hText : script.text ≠ "") (hKind : ∀ type, kindOf script ≠ .other type)
      (hFault : (answerFor compile purpose index script).fault = none)
      (hPromoted :
        ¬ Promoted purpose (kindOf script) (answerFor compile purpose index script).injected) :
      Treated compile purpose index script
        (script.setText (guardEndTags (answerFor compile purpose index script).javascript))
        ⟨index, kindOf script, .compiled (answerFor compile purpose index script).injected
          (answerFor compile purpose index script).resolved⟩
  /-- A compiled script that has to run as a module gets that type as well. -/
  | promoted (hText : script.text ≠ "") (hKind : ∀ type, kindOf script ≠ .other type)
      (hFault : (answerFor compile purpose index script).fault = none)
      (hPromoted :
        Promoted purpose (kindOf script) (answerFor compile purpose index script).injected) :
      Treated compile purpose index script
        ((script.setText
          (guardEndTags (answerFor compile purpose index script).javascript)).setAttribute
            "type" "module")
        ⟨index, kindOf script, .compiled (answerFor compile purpose index script).injected
          (answerFor compile purpose index script).resolved⟩

section Treatment

variable {compile : Compiler} {purpose : Purpose} {index : Nat} {script : Element}

theorem promoted_iff (kind : ScriptKind) (injected : Bool) :
    (purpose == .run && kind.becomesModule injected) = true ↔ Promoted purpose kind injected := by
  cases purpose <;> cases kind <;> simp [Promoted, ScriptKind.becomesModule]

theorem isCompiled_eq_true_iff (kind : ScriptKind) :
    kind.isCompiled = true ↔ ∀ type, kind ≠ .other type := by
  cases kind <;> simp [ScriptKind.isCompiled]

/-- An edit that changes nothing. -/
theorem edited_unchanged (e : Element) : e.edited { attributes := e.attributes } = e := rfl

theorem decide_of_skipped
    (h : (script.text.isEmpty || !(kindOf script).isCompiled) = true) :
    decide compile purpose index script =
      ⟨kindOf script, .skipped, { attributes := script.attributes }⟩ :=
  if_pos h

/-- A script that is not skipped is decided by what the compiler answers. -/
theorem decide_of_asked (hText : script.text ≠ "") (hKind : (kindOf script).isCompiled = true) :
    decide compile purpose index script =
      match (answerFor compile purpose index script).fault with
      | some fault => ⟨kindOf script, .kept fault, { attributes := script.attributes }⟩
      | none =>
        { kind := kindOf script
          outcome := .compiled (answerFor compile purpose index script).injected
            (answerFor compile purpose index script).resolved
          edit := {
            attributes :=
              if purpose == .run &&
                  (kindOf script).becomesModule (answerFor compile purpose index script).injected
              then setAttribute "type" "module" script.attributes else script.attributes
            text := some
              (guardEndTags (answerFor compile purpose index script).javascript) } } := by
  have hAsked : ¬ (script.text.isEmpty || !(kindOf script).isCompiled) = true := by
    simp [hText, hKind]
  exact if_neg hAsked

/-- What `decide` decides about a script is one of the ways to treat it. -/
theorem treated_decide (compile : Compiler) (purpose : Purpose) (index : Nat) (script : Element) :
    Treated compile purpose index script
      (script.edited (decide compile purpose index script).edit)
      ⟨index, (decide compile purpose index script).kind,
        (decide compile purpose index script).outcome⟩ := by
  by_cases hText : script.text = ""
  · rw [decide_of_skipped (by simp [hText]), edited_unchanged]
    dsimp only
    exact Treated.empty hText
  by_cases hCompiled : (kindOf script).isCompiled = true
  · have hKind := (isCompiled_eq_true_iff _).mp hCompiled
    rw [decide_of_asked hText hCompiled]
    cases hFault : (answerFor compile purpose index script).fault with
    | some fault =>
        dsimp only
        rw [edited_unchanged]
        exact Treated.kept hText hKind hFault
    | none =>
        by_cases hPromoted : (purpose == .run && (kindOf script).becomesModule
            (answerFor compile purpose index script).injected) = true
        · simp only [hPromoted, if_true]
          exact Treated.promoted hText hKind hFault ((promoted_iff _ _).mp hPromoted)
        · simp only [hPromoted]
          exact Treated.compiled hText hKind hFault fun h => hPromoted ((promoted_iff _ _).mpr h)
  · have hOther : ∃ type, kindOf script = .other type := by
      simpa [isCompiled_eq_true_iff] using hCompiled
    obtain ⟨type, hType⟩ := hOther
    rw [decide_of_skipped (by simp [hCompiled]), edited_unchanged]
    dsimp only
    exact Treated.other hType

/-- There is one way to treat a script. -/
theorem Treated.unique {e e' : Element} {r r' : ScriptReport}
    (h : Treated compile purpose index script e r)
    (h' : Treated compile purpose index script e' r') : e = e' ∧ r = r' := by
  cases h <;> cases h' <;> simp_all

/-- A treated script holds no script if it held none before. -/
theorem Treated.elementsNamed_eq_nil {e : Element} {r : ScriptReport}
    (h : Treated compile purpose index script e r)
    (hScript : elementsNamed "script" script.children = []) :
    elementsNamed "script" e.children = [] := by
  cases h with
  | empty _ => exact hScript
  | other _ => exact hScript
  | kept _ _ _ => exact hScript
  | compiled _ _ _ _ => exact elementsNamed_textChildren ..
  | promoted _ _ _ _ => exact elementsNamed_textChildren ..

end Treatment

/-! ## Two pages that differ in their scripts only -/

/-- The second page is the first one with every script treated by its number,
and the reports say how. -/
structure PointwiseEdit (compile : Compiler) (purpose : Purpose) (page edited : Document)
    (reports : List ScriptReport) : Prop where
  frame : SameFrame page edited
  length_scripts : edited.scripts.length = page.scripts.length
  length_reports : reports.length = page.scripts.length
  treated : ∀ i script, page.scripts[i]? = some script →
    ∃ e r, edited.scripts[i]? = some e ∧ reports[i]? = some r ∧
      Treated compile purpose i script e r

namespace PointwiseEdit

variable {compile : Compiler} {purpose : Purpose} {page edited other : Document}
variable {reports otherReports : List ScriptReport}

/-- The scripts of an edited page hold no scripts either. -/
theorem unnested (h : PointwiseEdit compile purpose page edited reports)
    (hPage : Unnested "script" page.root.children) : Unnested "script" edited.root.children := by
  intro e he
  obtain ⟨i, hi, hEq⟩ := List.mem_iff_getElem.mp (show e ∈ edited.scripts from he)
  have hIndex : i < page.scripts.length := h.length_scripts ▸ hi
  obtain ⟨d, r, hEdited, -, hTreated⟩ :=
    h.treated i page.scripts[i] (List.getElem?_eq_getElem hIndex)
  rw [List.getElem?_eq_getElem hi, hEq, Option.some_inj] at hEdited
  exact hEdited ▸ hTreated.elementsNamed_eq_nil (hPage _ (List.getElem_mem hIndex))

/-- **The edited page and the reports are determined**, since the scripts of a
page and what stands around them determine the page. -/
theorem unique (h : PointwiseEdit compile purpose page edited reports)
    (h' : PointwiseEdit compile purpose page other otherReports)
    (hPage : Unnested "script" page.root.children) :
    other = edited ∧ otherReports = reports := by
  have hAt : ∀ i : Nat,
      other.scripts[i]? = edited.scripts[i]? ∧ otherReports[i]? = reports[i]? := by
    intro i
    by_cases hi : i < page.scripts.length
    · obtain ⟨e, r, hEdited, hReport, hTreated⟩ :=
        h.treated i page.scripts[i] (List.getElem?_eq_getElem hi)
      obtain ⟨e', r', hEdited', hReport', hTreated'⟩ :=
        h'.treated i page.scripts[i] (List.getElem?_eq_getElem hi)
      obtain ⟨rfl, rfl⟩ := hTreated.unique hTreated'
      rw [hEdited, hEdited', hReport, hReport']
      exact ⟨rfl, rfl⟩
    · have hOut : page.scripts.length ≤ i := Nat.le_of_not_lt hi
      rw [List.getElem?_eq_none (Nat.le_trans (Nat.le_of_eq h'.length_scripts) hOut),
        List.getElem?_eq_none (Nat.le_trans (Nat.le_of_eq h.length_scripts) hOut),
        List.getElem?_eq_none (Nat.le_trans (Nat.le_of_eq h'.length_reports) hOut),
        List.getElem?_eq_none (Nat.le_trans (Nat.le_of_eq h.length_reports) hOut)]
      exact ⟨rfl, rfl⟩
  have hScripts : other.scripts = edited.scripts := List.ext_getElem? fun i => (hAt i).1
  have hChildren : other.root.children = edited.root.children :=
    eq_of_mask_eq "script" _ _ (h'.frame.content.trans h.frame.content.symm) hScripts
      (h'.unnested hPage) (h.unnested hPage)
  refine ⟨?_, List.ext_getElem? fun i => (hAt i).2⟩
  obtain ⟨hDoctype, hName, hAttributes, -⟩ := h.frame
  obtain ⟨hDoctype', hName', hAttributes', -⟩ := h'.frame
  obtain ⟨doctype, name, attributes, children⟩ := edited
  obtain ⟨otherDoctype, otherName, otherAttributes, otherChildren⟩ := other
  simp_all

end PointwiseEdit

/-- Scripts are raw text, so none stands inside another one. -/
theorem unnested_script_parse (html : String) :
    Unnested "script" (Document.parse html).root.children := by
  intro e he
  obtain ⟨hMem, hName⟩ := mem_elementsNamed.mp he
  have hRaw := ((wellFormed_parse html).elements e (List.mem_cons_of_mem _ hMem)).raw
  rw [hName] at hRaw
  exact elementsNamed_of_isRawContent (hRaw (by decide)) "script"

/-- **Preparing edits a page at its scripts and nowhere else.** -/
theorem pointwiseEdit_editScripts (compile : Compiler) (purpose : Purpose) {page : Document}
    (hPage : Unnested "script" page.root.children) :
    PointwiseEdit compile purpose page (editScripts compile purpose page)
      (scriptReports compile purpose page) := by
  have hScripts : (editScripts compile purpose page).scripts =
      page.scripts.mapIdx fun i e => e.edited (decide compile purpose i e).edit := by
    have hMap := (elementsNamed_editEach (fun i e => (decide compile purpose i e).edit)
      page.root.children 0 hPage).1
    simp only [Nat.zero_add] at hMap
    exact hMap
  refine ⟨⟨rfl, rfl, rfl, mask_editEach ..⟩, ?_, ?_, ?_⟩
  · rw [hScripts, List.length_mapIdx]
  · rw [scriptReports, List.length_mapIdx]
  · intro i script hScript
    refine ⟨_, _, ?_, ?_, treated_decide compile purpose i script⟩
    · rw [hScripts, List.getElem?_mapIdx, hScript]
      rfl
    · rw [scriptReports, List.getElem?_mapIdx, hScript]
      rfl

/-! ## One pass that counts its reports -/

/-- Visits a script.  Its number is the number of the reports before its own. -/
def visitScript (compile : Compiler) (purpose : Purpose) (reports : List ScriptReport)
    (script : Element) : Edit × List ScriptReport :=
  let d := decide compile purpose reports.length script
  (d.edit, reports ++ [⟨reports.length, d.kind, d.outcome⟩])

/-- One pass over the page that visits its scripts makes the edited page and its reports. -/
theorem traverse_visitScript (compile : Compiler) (purpose : Purpose) {page : Document}
    (hPage : Unnested "script" page.root.children) :
    traverse "script" (visitScript compile purpose) [] page.root.children =
      ((editScripts compile purpose page).root.children,
        scriptReports compile purpose page) := by
  have hTraverse := traverse_eq_editEach
    (fun i e => ((decide compile purpose i e).edit,
      ScriptReport.mk i (decide compile purpose i e).kind (decide compile purpose i e).outcome))
    page.root.children [] hPage
  simp only [List.length_nil, Nat.zero_add, List.nil_append] at hTraverse
  exact hTraverse

/-! ## Preparing and formatting a page -/

/-- Adding the console hook puts it at the front of the head, which is the
first element of the root. -/
theorem prependToHead_of_headFirst {page : Document} (h : page.root.HeadFirst)
    (node : Markup.Node) :
    ∃ (before : List Markup.Node) (head : Element) (after : List Markup.Node),
      page.root.children = before ++ head.toNode :: after ∧
      head.name = "head" ∧ (∀ n ∈ before, n.isElement = false) ∧
      page.prependToHead node =
        { page with
          root := { page.root with
            children := before ++ (head.prepend [node]).toNode :: after } } := by
  obtain ⟨before, head, after, hBreak, hBefore⟩ := h
  obtain ⟨hEq, hName, -⟩ := breakAt?_eq_some_iff.mp hBreak
  refine ⟨before, head, after, hEq, hName, hBefore, ?_⟩
  rw [Document.prependToHead, ensureHead_of_hasChild (Element.HeadFirst.hasChild
    ⟨before, head, after, hBreak, hBefore⟩), Element.changeChild,
    changeFirst_of_breakAt? hBreak]

/-- **A page is prepared script by script.**  The page that runs is the page
as it was read with every script treated by its number, and one script, the
console hook, at the front of its head.  The reports tell of the scripts in
their order.  Formatting is the same without the hook, and neither leaves
anything else to choose.  A pass that numbers the scripts by its own reports
does the same. -/
theorem prepare_eq_pointwise_edit (compile : Compiler) (html : String) :
    let page := Document.parse html
    (∃ edited,
      PointwiseEdit compile .run page edited (prepare compile html).scripts ∧
      (∀ other reports, PointwiseEdit compile .run page other reports →
        other = edited ∧ reports = (prepare compile html).scripts) ∧
      traverse "script" (visitScript compile .run) [] page.root.children =
        (edited.root.children, (prepare compile html).scripts) ∧
      ∃ (before : List Markup.Node) (head : Element) (after : List Markup.Node),
        edited.root.children = before ++ head.toNode :: after ∧
        head.name = "head" ∧ (∀ n ∈ before, n.isElement = false) ∧
        (prepare compile html).html =
          Document.toHtml { edited with
            root := { edited.root with
              children := before ++
                (head.prepend [.element "script" [] [.text Console.bootstrap]]).toNode ::
                  after } }) ∧
    ∃ edited reports,
      PointwiseEdit compile .format page edited reports ∧
      (∀ other otherReports, PointwiseEdit compile .format page other otherReports →
        other = edited ∧ otherReports = reports) ∧
      traverse "script" (visitScript compile .format) [] page.root.children =
        (edited.root.children, reports) ∧
      format compile html = edited.toHtml := by
  intro page
  have hPage := unnested_script_parse html
  have hRun := pointwiseEdit_editScripts compile .run hPage
  have hFormat := pointwiseEdit_editScripts compile .format hPage
  have hHead : (editScripts compile .run page).root.HeadFirst :=
    (headFirst_normalize (parseNodes html).2).editDescendants (by decide) _
  obtain ⟨before, head, after, hEq, hName, hBefore, hPrepended⟩ :=
    prependToHead_of_headFirst hHead bootstrapScript
  refine ⟨⟨editScripts compile .run page, hRun, fun _ _ h => hRun.unique h hPage,
    traverse_visitScript compile .run hPage, before, head, after, hEq, hName, hBefore, ?_⟩,
    editScripts compile .format page, scriptReports compile .format page, hFormat,
    fun _ _ h => hFormat.unique h hPage, traverse_visitScript compile .format hPage, rfl⟩
  exact congrArg Document.toHtml hPrepended

end PagePreview.Page
