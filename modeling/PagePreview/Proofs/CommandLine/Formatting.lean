import PagePreview.CommandLine.Run
import PagePreview.Proofs.Files.Writing
import PagePreview.Proofs.Page.SettledFormat
import PagePreview.Proofs.Text.WrittenUtf8

/-!
# A formatted file passes the check

Formatting a file writes the formatted page into it, unless the page is as
formatting leaves it already.  Either way the file holds a formatted page
afterwards (`exists_perform_formatPage`), and a file that formatting would not
change is passed over without a word (`perform_formatPage_of_formatted`).

Since formatting settles after one run, the check finds nothing to report:
`formatPages_then_check`.
-/

namespace PagePreview.CommandLine

open Markup Page Text
open Script (Compiler)

/-- Carries out an action of a command at a desk. -/
def Desk.perform {α : Type} (d : Desk) (action : ExceptT Failure (StateM Desk) α) :
    Except Failure α × Desk := action.run.run d

section Perform

variable {α β : Type} {d e : Desk}

theorem perform_bind {a : α} {action : ExceptT Failure (StateM Desk) α}
    (h : d.perform action = (.ok a, e)) (next : α → ExceptT Failure (StateM Desk) β) :
    d.perform (action >>= next) = e.perform (next a) := by
  have hRun : action.run.run d = (.ok a, e) := h
  simp only [Desk.perform, ExceptT.run_bind, StateT.run_bind, hRun]
  rfl

/-- An action of the shell itself. -/
theorem perform_lift {a : α} {action : StateM Desk α} (h : action.run d = (a, e)) :
    d.perform (liftM action) = (.ok a, e) := by
  show (action.run d >>= fun p => pure (Except.ok p.1, p.2)) = _
  rw [h]
  rfl

theorem run_bind_of_eq {a : α} {action : StateM Desk α} (h : action.run d = (a, e))
    (next : α → StateM Desk β) : (action >>= next).run d = (next a).run e := by
  rw [StateT.run_bind, h]
  rfl

/-- What a shell says leaves the files as they are. -/
theorem exists_perform_remark (d : Desk) (line : String) :
    ∃ e, d.perform (Desk.shell.remark line) = (.ok (), e) ∧ e.files = d.files :=
  ⟨_, rfl, rfl⟩

end Perform

/-! ## Files at a desk -/

section Files

variable {d : Desk} {file text : String}

/-- A file holds a text. -/
def Desk.Holds (d : Desk) (file text : String) : Prop :=
  d.files.read file = .ok (Utf8.encode text.toList)

theorem perform_readPage (h : d.Holds file text) :
    d.perform (Desk.shell.readPage file) = (.ok text, d) := by
  have hContent : (Desk.shell.read file).run d = (.ok (Utf8.encode text.toList), d) :=
    congrArg (·, d) h
  have hText : (Desk.shell.readText file).run d = (.ok text, d) := by
    rw [Shell.readText, run_bind_of_eq hContent]
    simp only [Utf8.decode?_encode, String.ofList_toList]
    rfl
  rw [Shell.readPage, perform_bind (perform_lift hText)]
  rfl

/-- The directory of a file that can be read need not be made. -/
theorem perform_prepareDirectory {parent : String} (h : d.Holds file text)
    (hParent : Files.parent? file = some parent) :
    d.perform (Desk.shell.prepareDirectory parent) = (.ok (), d) := by
  have hMade : (Desk.shell.makeDirectories (parent.length + 1) parent).run d = (.ok (), d) := by
    rw [Shell.makeDirectories]
    by_cases hEmpty : parent = ""
    · rw [if_pos (by simp [hEmpty])]
      rfl
    · obtain hNone | ⟨place, closed, hFind, hPlace⟩ := Files.Tree.parent_of_read h hParent
      · exact absurd hNone hEmpty
      -- it cannot be made, and it need not be
      have hTaken : (Desk.shell.makeDirectory parent).run d = (.error .occupied, d) := by
        have hMake : d.files.makeDirectory parent = .error .occupied := by
          simp only [Files.Tree.makeDirectory, hFind, bind, Except.bind, hPlace]
        show Desk.change (fun t => t.makeDirectory parent) d = _
        rw [Desk.change, hMake]
      have hKind : (Desk.shell.kind? parent).run d = (some .directory, d) := by
        have hThere : d.files.kind? parent = some .directory := by
          simp only [Files.Tree.kind?, hFind, hPlace]
        exact congrArg (·, d) hThere
      rw [if_neg (by simpa using hEmpty)]
      dsimp only
      rw [run_bind_of_eq hTaken]
      dsimp only
      rw [run_bind_of_eq hKind]
      rfl
  rw [Shell.prepareDirectory, perform_bind (perform_lift hMade)]
  rfl

/-- **A file that holds a text can be given another one.** -/
theorem exists_perform_write (h : d.Holds file text) (new : String) :
    ∃ e, d.perform (Desk.shell.writeWithDirectories file new) = (.ok (), e) ∧
      e.Holds file new := by
  obtain ⟨u, hWrite, hRead, -⟩ :=
    Files.Tree.exists_write_of_read h (Utf8.encode new.toList)
  have hWritten : (Desk.shell.write file (Utf8.encode new.toList)).run d =
      (.ok (), { d with files := u }) := by
    show Desk.change (fun t => t.write file (Utf8.encode new.toList)) d = _
    rw [Desk.change, hWrite]
  have hText : d.perform (Desk.shell.writeText file new) = (.ok (), { d with files := u }) := by
    rw [Shell.writeText, perform_bind (perform_lift hWritten)]
    rfl
  refine ⟨{ d with files := u }, ?_, hRead⟩
  rw [Shell.writeWithDirectories]
  cases hParent : Files.parent? file with
  | none => exact hText
  | some parent =>
      dsimp only
      rw [perform_bind (perform_prepareDirectory h hParent), hText]

end Files

/-! ## Formatting a page and checking it -/

section Format

variable {compile : Compiler} {d : Desk} {file text : String}

/-- A page that formatting would not change is passed over. -/
theorem perform_formatPage_of_formatted (h : d.Holds file text)
    (hFormatted : format compile text = text) (check : Bool) :
    d.perform (Desk.shell.formatPage compile check file) = (.ok false, d) := by
  rw [Shell.formatPage, perform_bind (perform_readPage h)]
  dsimp only
  rw [if_pos (by simp [hFormatted])]
  rfl

/-- **Formatting a page leaves it formatted in its file.** -/
theorem exists_perform_formatPage (compile : Compiler) (h : d.Holds file text) :
    ∃ e, d.perform (Desk.shell.formatPage compile false file) = (.ok false, e) ∧
      e.Holds file (format compile text) := by
  by_cases hFormatted : format compile text = text
  · refine ⟨d, perform_formatPage_of_formatted h hFormatted false, ?_⟩
    rwa [hFormatted]
  · obtain ⟨written, hWrite, hHolds⟩ := exists_perform_write h (format compile text)
    obtain ⟨e, hRemark, hFiles⟩ := exists_perform_remark written ("formatted " ++ file)
    refine ⟨e, ?_, ?_⟩
    · rw [Shell.formatPage, perform_bind (perform_readPage h)]
      dsimp only
      rw [if_neg (by simp [hFormatted]), if_neg (by simp)]
      rw [perform_bind hWrite, perform_bind hRemark]
      rfl
    · rw [Desk.Holds, hFiles]
      exact hHolds

/-- A single page is reported if it would change. -/
theorem perform_formatPages_singleton {e : Desk} {check : Bool}
    (h : d.perform (Desk.shell.formatPage compile check file) = (.ok false, e)) :
    d.perform (Desk.shell.formatPages compile check [file]) = (.ok (), e) := by
  have hAll : d.perform ([file].mapM (Desk.shell.formatPage compile check)) = (.ok [false], e) := by
    rw [List.mapM_cons, perform_bind h, List.mapM_nil]
    rfl
  rw [Shell.formatPages, perform_bind hAll]
  rfl

end Format

/-- **A formatted file passes the check.**  Formatting a printable page once more changes nothing,
so a check that follows the formatting of a file says nothing and reports nothing. -/
theorem formatPages_then_check {compile : Compiler} {print : String → Option String}
    (h : Settles compile print) {html : String} (hPage : (Document.parse html).Printable) :
    format compile (format compile html) = format compile html ∧
      ∀ (d : Desk) (file : String), d.Holds file html →
        ∃ e, d.perform (Desk.shell.formatPages compile false [file]) = (.ok (), e) ∧
          e.Holds file (format compile html) ∧
          e.perform (Desk.shell.formatPages compile true [file]) = (.ok (), e) := by
  have hSettled := format_format h hPage
  refine ⟨hSettled, ?_⟩
  intro d file hHolds
  obtain ⟨e, hFormat, hFormatted⟩ := exists_perform_formatPage compile hHolds
  refine ⟨e, perform_formatPages_singleton hFormat, hFormatted, ?_⟩
  exact perform_formatPages_singleton (perform_formatPage_of_formatted hFormatted hSettled true)

/-- A compiler that drops the blanks in front of a script, and gives up on a script that begins
with a question mark. -/
def trimmingCompiler : Compiler := fun request =>
  if request.source.toList.head? = some '?' then
    .keep request.source (.parse "Expression expected")
  else { javascript := String.ofList (request.source.toList.dropWhile isBlank) }

/-- What `trimmingCompiler` prints. -/
def trimmed? (source : String) : Option String :=
  if source.toList.head? = some '?' then none
  else some (String.ofList (source.toList.dropWhile isBlank))

theorem head?_guardChars (cs : List Char) : (guardChars cs).head? = cs.head? := by
  cases cs with
  | nil => rfl
  | cons c cs =>
      rw [guardChars]
      split <;> rfl

theorem dropWhile_guardChars_dropWhile (p : Char → Bool) (cs : List Char) :
    (guardChars (cs.dropWhile p)).dropWhile p = guardChars (cs.dropWhile p) := by
  show ([] ++ guardChars (cs.dropWhile p)).dropWhile p = _
  refine dropWhile_append_of_head? (by simp) ?_
  intro c hHead
  rw [head?_guardChars] at hHead
  have hStop := List.head?_dropWhile_not p cs
  rw [hHead] at hStop
  simpa using hStop

theorem printed?_trimmingCompiler (source id : String) :
    printed? trimmingCompiler source id = trimmed? source := by
  rw [printed?, trimmed?, trimmingCompiler]
  by_cases hMark : source.toList.head? = some '?'
  · rw [if_pos hMark, if_pos hMark]
    rfl
  · rw [if_neg hMark, if_neg hMark]

theorem eq_of_trimmed? {source js : String} (h : trimmed? source = some js) :
    js = String.ofList (source.toList.dropWhile isBlank) := by
  rw [trimmed?] at h
  by_cases hMark : source.toList.head? = some '?'
  · rw [if_pos hMark] at h
    exact absurd h nofun
  · rw [if_neg hMark] at h
    exact (Option.some.inj h).symm

theorem guardEndTags_of_trimmed? {source js js' : String} (hFirst : trimmed? source = some js)
    (hSecond : trimmed? (guardEndTags js) = some js') : guardEndTags js' = guardEndTags js := by
  rw [eq_of_trimmed? hSecond, eq_of_trimmed? hFirst]
  generalize source.toList = cs
  have hSame : (guardEndTags (String.ofList (cs.dropWhile isBlank))).toList.dropWhile isBlank =
      (guardEndTags (String.ofList (cs.dropWhile isBlank))).toList := by
    rw [guardEndTags, String.toList_ofList, String.toList_ofList, dropWhile_guardChars_dropWhile]
  rw [hSame, String.ofList_toList, guardEndTags_guardEndTags]

theorem settles_trimmingCompiler : Settles trimmingCompiler trimmed? where
  printed := printed?_trimmingCompiler
  again _ _ _ hFirst hSecond := guardEndTags_of_trimmed? hFirst hSecond

/-- A page with a script that ends its element unless it is guarded, one that its compiler gives
up on, and one that is none. -/
def untidyPage : String :=
  "<!doctype html>\n<html><head><script>  f('</scripts>')</script></head>" ++
    "<body><script>?</script><script type=text/plain> g</script></body></html>"

/-- A desk with a page in a directory. -/
def untidyDesk : Desk where
  files := ⟨[(["pages"], .directory),
    (["pages", "index.html"], .file (Utf8.encode untidyPage.toList))]⟩

theorem holds_untidyDesk : untidyDesk.Holds "pages//./index.html" untidyPage := by
  have hNul : "pages//./index.html".contains '\x00' = false := by
    rw [String.contains_char_eq]
    decide
  have hSlash : "pages//./index.html".startsWith "/" = false := by
    rw [String.startsWith_string_eq_false_iff]
    decide
  have hEmpty : "pages//./index.html".isEmpty = false := rfl
  have hWalk : untidyDesk.files.walk [] (Files.Tree.names "pages//./index.html") =
      .ok (["pages", "index.html"], false) := by decide +kernel
  rw [Desk.Holds, Files.Tree.read, Files.Tree.find, hNul, hSlash, hEmpty,
    if_neg Bool.false_ne_true, Bool.or_self, if_neg Bool.false_ne_true, hWalk]
  rfl

theorem formatPages_then_check_untidyPage :
    (Document.parse untidyPage).Printable ∧
      untidyDesk.Holds "pages//./index.html" untidyPage ∧
      ∃ e, untidyDesk.perform (Desk.shell.formatPages trimmingCompiler false
          ["pages//./index.html"]) = (.ok (), e) ∧
        e.Holds "pages//./index.html" (format trimmingCompiler untidyPage) ∧
        e.perform (Desk.shell.formatPages trimmingCompiler true ["pages//./index.html"]) =
          (.ok (), e) :=
  have hPage : (Document.parse untidyPage).Printable := by decide +kernel
  have hSettled := formatPages_then_check settles_trimmingCompiler hPage
  ⟨hPage, holds_untidyDesk, hSettled.2 untidyDesk _ holds_untidyDesk⟩

end PagePreview.CommandLine
