import PagePreview.Proofs.Page.Prepared

/-!
# Reading a prepared page again

What `prepare` prints is read once more by whatever shows the page.  That
reader ought to find one script more than the page had, the console hook, and
to find it first (`Hooked`).

A prepared page is read back up to the first text in which markup opens, and
from there on as many scripts have to be found as are written there
(`KeepsScripts`).  `hooked_prepare_iff` shows that this is the exact condition,
and that it holds for every page in whose texts no markup opens.  Other pages
exist: a tag that never ends is text, but it ends when more is printed behind
it (`not_hooked_prepare`).
-/

namespace PagePreview.Page

open Markup Script

/-- The second page has one script more than the first one, and the console hook comes first. -/
structure Hooked (page again : Document) : Prop where
  length_scripts : again.scripts.length = page.scripts.length + 1
  first : again.scripts.head?.map Element.text = some Console.bootstrap

/-- What is printed from the first text on in which markup opens is read as it was meant: as many
scripts are found there as are written there.  If none is written in front of that place, the
reader also has to come upon the console hook first. -/
structure KeepsScripts (d : Document) : Prop where
  length_found : (d.quietBuilder.found "script" (rowChars (loudPart d.row))).length =
    ((loudPart d.row).flatMap (Token.elementsNamed "script")).length
  first : (quietPart d.row).flatMap (Token.elementsNamed "script") = [] →
    ((normalize (d.quietBuilder.run (rowChars (loudPart d.row))).finish).descendants
      "script").head?.map Element.text = some Console.bootstrap

theorem text_hook : hook.text = Console.bootstrap := by
  simp [hook, Element.text, textOf]

section Reread

variable {d : Document}

/-- **A page that begins with the hook is read back with it** exactly if it keeps its scripts. -/
theorem keepsScripts_iff (h : d.WellFormed) (hHead : d.HeadBegins hook) :
    (Document.parse d.toHtml).scripts.length = d.scripts.length ∧
        (Document.parse d.toHtml).scripts.head?.map Element.text = some Console.bootstrap ↔
      KeepsScripts d := by
  have hRaw : isRawText "script" = true := by decide
  have hRoot : d.root.name ≠ "script" := by rw [hHead.root]; decide
  have hLength := h.length_descendants_toHtml_iff hRaw hRoot
  have hAgain : (Document.parse d.toHtml).scripts =
      (normalize (d.quietBuilder.run (rowChars (loudPart d.row))).finish).descendants "script" := by
    rw [← h.parseNodes_toHtml]
    rfl
  constructor
  · rintro ⟨hCount, hFirst⟩
    exact ⟨hLength.mp hCount, fun _ => hAgain ▸ hFirst⟩
  · rintro ⟨hCount, hFirst⟩
    refine ⟨hLength.mpr hCount, ?_⟩
    by_cases hQuiet : (quietPart d.row).flatMap (Token.elementsNamed "script") = []
    · rw [hAgain]
      exact hFirst hQuiet
    · have hHook := h.head?_descendants_toHtml hHead hRaw hQuiet
      have hScripts : (Document.parse d.toHtml).scripts.head? = some hook.written := hHook
      rw [hScripts, Option.map_some]
      exact congrArg some text_hook

/-- Such a page keeps its scripts if no markup opens in its texts. -/
theorem keepsScripts_of_isQuiet (h : d.WellFormed) (hHead : d.HeadBegins hook)
    (hQuiet : isQuiet d.row = true) : KeepsScripts d := by
  have hNone : loudPart d.row = [] := loudPart_eq_nil_iff.mpr hQuiet
  have hRoot : d.root.name ≠ "script" := by rw [hHead.root]; decide
  have hRaw : isRawText "script" = true := by decide
  have hWritten := h.map_written_descendants hRaw hRoot
  obtain ⟨others, hOthers⟩ := hHead.exists_descendants (by decide)
  have hScripts : d.root.descendants "script" = hook :: others := hOthers
  rw [hScripts, hNone, List.flatMap_nil, List.append_nil, List.map_cons] at hWritten
  refine ⟨?_, fun hEmpty => ?_⟩
  · rw [hNone]
    simp [rowChars, Builder.found]
  · rw [hEmpty] at hWritten
    exact absurd hWritten (by simp)

end Reread

section Prepare

variable (compile : Compiler) (html : String)

theorem wellFormed_prepared_parse : (prepared compile (Document.parse html)).WellFormed :=
  wellFormed_prepared compile ⟨bracketFree_parse html, wellFormed_parse html⟩ (name_normalize _)

theorem headBegins_prepared_parse : (prepared compile (Document.parse html)).HeadBegins hook :=
  headBegins_prepared compile (headFirst_normalize _) (name_normalize _)

theorem hooked_iff_keepsScripts :
    Hooked (Document.parse html) (Document.parse (prepare compile html).html) ↔
      KeepsScripts (prepared compile (Document.parse html)) := by
  rw [← keepsScripts_iff (wellFormed_prepared_parse compile html)
    (headBegins_prepared_parse compile html),
    length_scripts_prepared compile (headFirst_normalize _) (unnested_script_parse html)]
  exact ⟨fun h => ⟨h.length_scripts, h.first⟩, fun h => ⟨h.1, h.2⟩⟩

end Prepare

/-- **When a prepared page is read back with the console hook in front.**  It is if and only if
the page that is printed keeps its scripts, and it always is if no markup opens in the texts of
the page that was prepared. -/
theorem hooked_prepare_iff (compile : Compiler) (html : String) :
    let page := Document.parse html
    let again := Document.parse (prepare compile html).html
    (Hooked page again ↔ KeepsScripts (prepared compile page)) ∧
      (isQuiet page.row = true → Hooked page again) := by
  intro page again
  have hKeeps := hooked_iff_keepsScripts compile html
  refine ⟨hKeeps, fun hQuiet => hKeeps.mpr ?_⟩
  exact keepsScripts_of_isQuiet (wellFormed_prepared_parse compile html)
    (headBegins_prepared_parse compile html)
    (isQuiet_prepared compile (headFirst_normalize _) (name_normalize _) hQuiet)

/-! ## A tag that printing ends -/

/-- A page that is a tag without an end is a text in a body. -/
theorem parse_openTag : Document.parse "<script" =
    ⟨none, ⟨"html", [], [.element "head" [] [], .element "body" [] [.text "<script"]]⟩⟩ := by
  have hBody : tagBody? [] [] = none := by simp [tagBody?, dropBlanks]
  have hNext : Token.next false '<' "script".toList = (.text "<script".toList, []) := by
    change Token.startTag' false "script".toList = _
    have hName : "script".toList.dropWhile isNameChar = [] := by decide
    rw [Token.startTag', hName, hBody]
    rfl
  have hRun : Builder.run {} "<script".toList = { nodes := [.text "<script"] } := by
    have hFirst := Builder.run_cons {} '<' "script".toList
    change _ = (Builder.add {} (Token.next false '<' "script".toList).1).run
      (Token.next false '<' "script".toList).2 at hFirst
    rw [hNext, Builder.run_nil] at hFirst
    exact hFirst
  rw [Document.parse, parseNodes, hRun]
  rfl

/-- The console hook is written in front of the tag, and the tag swallows what is printed behind
it. -/
theorem not_keepsScripts_openTag (compile : Compiler) :
    ¬ KeepsScripts (prepared compile (Document.parse "<script")) := by
  have hReady := wellFormed_prepared_parse compile "<script"
  have hRow : (prepared compile (Document.parse "<script")).row =
      [.startTag "html" ⟨[], false⟩, .startTag "head" ⟨[], false⟩,
        .rawText "script" [] (textOf [.text Console.bootstrap]).toList, .endTag "head",
        .startTag "body" ⟨[], false⟩, .text "<script".toList, .endTag "body", .endTag "html"] := by
    rw [parse_openTag]
    rfl
  generalize prepared compile (Document.parse "<script") = ready at hReady hRow ⊢
  have hLoud : loudPart ready.row = [.text "<script".toList, .endTag "body", .endTag "html"] := by
    rw [hRow]
    rfl
  have hForeign : ready.quietBuilder.inForeign = false := by
    rw [Document.quietBuilder, quietPart, hRow]
    rfl
  intro hKeeps
  have hNone : ready.quietBuilder.found "script" (rowChars (loudPart ready.row)) = [] := by
    refine List.eq_nil_of_length_eq_zero ?_
    rw [hKeeps.length_found, hLoud]
    rfl
  have hRaw : isRawText "script" = true := by decide
  have hFirst := Builder.found_cons hRaw (hReady.quietBuilder hRaw).1 '<'
    "script</body></html>".toList
  have hChars : rowChars (loudPart ready.row) = '<' :: "script</body></html>".toList := by
    rw [hLoud]
    rfl
  rw [← hChars, hNone, hForeign] at hFirst
  have hScript :
      (Token.next false '<' "script</body></html>".toList).1.elementsNamed "script" ≠ [] := by
    decide +kernel
  exact hScript (List.append_eq_nil_iff.mp hFirst.symm).1

/-- A tag without an end becomes a script when it is printed. -/
theorem not_hooked_prepare : ¬ ∀ (compile : Compiler) (html : String),
    Hooked (Document.parse html) (Document.parse (prepare compile html).html) := by
  intro h
  let compile : Compiler := fun request => { javascript := request.source }
  exact not_keepsScripts_openTag compile
    ((hooked_iff_keepsScripts compile "<script").mp (h compile "<script"))

end PagePreview.Page
