import PagePreview.Proofs.Import.AddedLibrary
import PagePreview.Proofs.Import.ResolvedTree

/-!
# The address that the library is imported from

The import of the library is added before the imports of a script are resolved,
and repeats the specifier of the first import of something of the library.  Both
therefore end up at the same address, and the added one is counted where it
resolves to something else (`resolveDraft_supply_iff`).
-/

namespace PagePreview.Import

open Script Script.Parser

variable {o : Origin} {name specifier : String} {lossy : Bool} {n : Node}

/-! ## One import, resolved -/

theorem kind_resolveTree (o : Origin) (n : Node) : (resolveTree o n).kind = n.kind :=
  congrArg Node.Label.kind (label_resolveTree o n)

/-- What is no text stood there before. -/
theorem kindAt?_of_resolveTree {place : List Nat} {k : Kind}
    (h : kindAt? (resolveTree o n) place = some k) (hText : ∀ v lossy, k ≠ .string v lossy) :
    kindAt? n place = some k := by
  have hLabel (m : Node) : kindAt? m place = (m.labelAt? place).map Node.Label.kind := by
    rw [kindAt?, Node.labelAt?, Option.map_map]
    rfl
  rw [hLabel] at h ⊢
  by_cases hSpecifier : ∃ v, IsSpecifierAt n place v
  · obtain ⟨v, hSpecifier⟩ := hSpecifier
    obtain ⟨lossy, span, arity, -, hAfter⟩ := labelAt?_resolveTree_of_isSpecifierAt o hSpecifier
    rw [hAfter, Option.map_some, Option.some_inj] at h
    exact absurd h.symm (hText _ _)
  · rwa [labelAt?_resolveTree o fun v hv => hSpecifier ⟨v, hv⟩] at h

theorem bindsDefault_of_resolveTree (h : BindsDefault name (resolveTree o n)) :
    BindsDefault name n := by
  obtain ⟨hImport, hDefault, hNamed⟩ := h
  rw [kind_resolveTree] at hImport
  exact ⟨hImport, kindAt?_of_resolveTree hDefault (by simp),
    kindAt?_of_resolveTree hNamed (by simp)⟩

theorem isDefaultImport_resolveTree (o : Origin) (h : IsDefaultImport name specifier lossy n) :
    IsDefaultImport name (resolved o specifier) lossy (resolveTree o n) := by
  obtain ⟨whole, group, first, local_, source, rfl⟩ := h
  exact ⟨whole, group, first, local_, source, rfl⟩

theorem specifiers_of_isDefaultImport (h : IsDefaultImport name specifier lossy n) :
    specifiers n = [specifier] := by
  obtain ⟨_, _, _, _, _, rfl⟩ := h
  rfl

theorem string?_resolveText (o : Origin) (n : Node) :
    (resolveText o n).string? = n.string?.map (resolved o) := by
  cases hText : n.string? with
  | none => rw [resolveText_of_string?_eq_none o hText, hText, Option.map_none]
  | some v =>
    obtain ⟨lossy, span, arity, -, hAfter⟩ := label_resolveText_of_string?_eq o hText
    have hKind : (resolveText o n).kind = .string (resolved o v) lossy :=
      congrArg Node.Label.kind hAfter
    rw [Node.string?, hKind, Option.map_some]

/-- The specifier of a node is resolved wherever the node stands. -/
theorem specifier?_resolveTree (o : Origin) (n : Node) :
    specifier? (resolveTree o n) = (specifier? n).map (resolved o) := by
  unfold specifier?
  rw [kind_resolveTree]
  cases hPlace : sourcePlace? n.kind with
  | none => rfl
  | some i =>
    simp only [Node.child, List.getD_eq_getElem?_getD, children_resolveTree, hPlace, if_pos]
    cases n.children[i]? with
    | none => rfl
    | some c =>
      simp only [Option.map_some, Option.getD_some]
      rw [string?_resolveText, string?_resolveTree]

/-! ## The statements, resolved -/

theorem isDirective_resolveTree (o : Origin) (n : Node) :
    isDirective (resolveTree o n) = isDirective n := by
  rw [isDirective, isDirective, kind_resolveTree]

/-- A whole script is no specifier and has none of its own. -/
def IsScript (p : Program) : Prop := ∃ hashbang, p.root.kind = .program hashbang

theorem IsScript.prependStatement {p : Program} (h : IsScript p) (n : Node) :
    IsScript (prependStatement n p) :=
  h

theorem children_resolveImports (o : Origin) {p : Program} (h : IsScript p) :
    (resolveImports o p).1.root.children = p.root.children.map (resolveTree o) := by
  obtain ⟨⟨kind, span, children⟩, comments⟩ := p
  obtain ⟨hashbang, rfl⟩ : ∃ hashbang, kind = .program hashbang := h
  show (resolveTree o (.mk (.program hashbang) span children)).children = _
  rw [resolveTree_mk]
  rfl

theorem statements_resolveImports (o : Origin) {p : Program} (h : IsScript p) :
    statements (resolveImports o p).1 = (statements p).map (resolveTree o) := by
  have hSame : isDirective ∘ resolveTree o = isDirective :=
    funext fun n => isDirective_resolveTree o n
  rw [statements, children_resolveImports o h, List.dropWhile_map, hSame, statements]

theorem nodesAmong_append (ms ns : List Node) :
    Node.nodesAmong (ms ++ ns) = Node.nodesAmong ms ++ Node.nodesAmong ns := by
  induction ms with
  | nil => rfl
  | cons m ms ih => rw [List.cons_append, Node.nodesAmong, Node.nodesAmong, ih, List.append_assoc]

theorem changes_root (o : Origin) {p : Program} (h : IsScript p) : changes o p.root =
    ((Node.nodesAmong p.root.children).filterMap specifier?).countP fun v => resolved o v != v := by
  obtain ⟨⟨kind, span, children⟩, comments⟩ := p
  obtain ⟨hashbang, rfl⟩ : ∃ hashbang, kind = .program hashbang := h
  rfl

theorem changes_prependStatement (o : Origin) (added : Node) {p : Program} (h : IsScript p) :
    changes o (prependStatement added p).root = changes o p.root + changes o added := by
  rw [changes_root o h, changes_root o (h.prependStatement added), children_prependStatement,
    ← directives_append_statements]
  simp only [nodesAmong_append, Node.nodesAmong, List.filterMap_append, List.countP_append, changes,
    specifiers]
  omega

theorem changes_of_isDefaultImport (o : Origin) (h : IsDefaultImport name specifier lossy n) :
    changes o n = if resolved o specifier = specifier then 0 else 1 := by
  rw [changes, specifiers_of_isDefaultImport h, List.countP_singleton]
  by_cases hSame : resolved o specifier = specifier
  · simp [hSame]
  · simp [hSame]

/-- What is read from a text is a whole script. -/
theorem isScript_of_read {source : String} {p : Program} (h : read source = .ok p) :
    IsScript p := by
  unfold Script.read at h
  cases hParse : parse? true source with
  | none => rw [hParse] at h; exact absurd h (by simp)
  | some q =>
    rw [hParse] at h
    rw [← Except.ok.inj h]
    exact exists_kind_of_parse? hParse

/-! ## Where the library comes from -/

/-- The first import of a script that is one of the library's. -/
def libraryImport? (ui : UiLibrary) (p : Program) : Option Node :=
  p.root.children.find? fun n => (librarySource? ui n).isSome

theorem specifier?_of_librarySource? {ui : UiLibrary} {v : String}
    (h : librarySource? ui n = some v) : specifier? n = some v := by
  unfold librarySource? at h
  split at h
  · next hKind hText =>
    split at h
    · rw [specifier?, hKind]
      exact hText.trans h
    · exact absurd h (by simp)
  · exact absurd h (by simp)

/-- The library is imported from where its first import says, or from its package. -/
theorem librarySpecifier_eq (ui : UiLibrary) (p : Program) :
    librarySpecifier ui p = ((libraryImport? ui p).bind specifier?).getD ui.package := by
  rw [librarySpecifier, libraryImport?]
  congr 1
  induction p.root.children with
  | nil => rfl
  | cons n ns ih =>
    cases hSource : librarySource? ui n with
    | none => simpa [hSource] using ih
    | some v => simp [hSource, specifier?_of_librarySource? hSource]

/-- The specifier of the library is resolved like the one that it repeats. -/
theorem resolved_librarySpecifier (o : Origin) (ui : UiLibrary) (p : Program) :
    match libraryImport? ui p with
    | some n => specifier? (resolveTree o n) = some (resolved o (librarySpecifier ui p))
    | none => resolved o (librarySpecifier ui p) = (o.resolve ui.package).getD ui.package := by
  rw [librarySpecifier_eq]
  cases hImport : libraryImport? ui p with
  | none => rfl
  | some n =>
    have hSome : (librarySource? ui n).isSome = true := by
      rw [libraryImport?] at hImport
      exact List.find?_some (p := fun n => (librarySource? ui n).isSome) hImport
    obtain ⟨v, hSource⟩ := Option.isSome_iff_exists.mp hSome
    have hSpecifier := specifier?_of_librarySource? hSource
    simp only [Option.bind_some, hSpecifier, Option.getD_some]
    rw [specifier?_resolveTree, hSpecifier, Option.map_some]

/-! ## The script that is compiled -/

/-- What a script is given is the statement that the import is read as. -/
theorem supply_eq_ok_iff {t : Target} {p : Program} (hNeeds : needsLibrary t.library p = true)
    {d : Draft} : supply t .document p = .ok d ↔
      ∃ added, importStatement? t.library.global (librarySpecifier t.library p) = some added ∧
        d = { program := prependStatement added p, injected := true } := by
  have hSupply : supply t .document p = (addLibrary t.library p).map fun q =>
      { program := q, injected := true } := by
    rw [supply, hNeeds]
    rfl
  rw [hSupply]
  constructor
  · intro hOk
    cases hAdd : addLibrary t.library p with
    | error e => simp [hAdd, Except.map] at hOk
    | ok q =>
      obtain ⟨added, hAdded, rfl⟩ := addLibrary_eq_ok_iff.mp hAdd
      rw [hAdd] at hOk
      exact ⟨added, hAdded, (Except.ok.inj hOk).symm⟩
  · rintro ⟨added, hAdded, rfl⟩
    rw [addLibrary_eq_ok_iff.mpr ⟨added, hAdded, rfl⟩]
    rfl

/-- **The library ends up at the address of the script's own import of it.** -/
theorem resolveDraft_supply_iff (t : Target) {source : String} {p : Program}
    (hRead : read source = .ok p) (hNeeds : needsLibrary t.library p = true) :
    IsBindable t.library.global ↔ ∃ d first address, supply t .document p = .ok d ∧
      statements (resolveDraft t d).program =
        first :: (statements p).map (resolveTree t.origin) ∧
      IsDefaultImport t.library.global address false first ∧
      (match libraryImport? t.library p with
        | some n => specifier? (resolveTree t.origin n) = some address
        | none => address = (t.origin.resolve t.library.package).getD t.library.package) ∧
      (resolveDraft t d).resolved = changes t.origin p.root +
        if address = librarySpecifier t.library p then 0 else 1 := by
  have hScript := isScript_of_read hRead
  constructor
  · intro hBindable
    obtain ⟨added, hDefault, hAdded⟩ :=
      exists_importStatement? hBindable (librarySpecifier t.library p)
    have hPlain := not_isDirective_of_isDefaultImport hDefault
    have hResolved := hScript.prependStatement added
    refine ⟨{ program := prependStatement added p, injected := true }, resolveTree t.origin added,
      resolved t.origin (librarySpecifier t.library p), (supply_eq_ok_iff hNeeds).mpr
        ⟨added, hAdded, rfl⟩, ?_, isDefaultImport_resolveTree t.origin hDefault,
      resolved_librarySpecifier t.origin t.library p, ?_⟩
    · show statements (resolveImports t.origin (prependStatement added p)).1 = _
      rw [statements_resolveImports t.origin hResolved, statements_prependStatement hPlain,
        List.map_cons]
    · show changes t.origin (prependStatement added p).root = _
      rw [changes_prependStatement t.origin added hScript,
        changes_of_isDefaultImport t.origin hDefault]
  · rintro ⟨d, first, address, hSupply, hStatements, hDefault, -, -⟩
    obtain ⟨added, hAdded, rfl⟩ := (supply_eq_ok_iff hNeeds).mp hSupply
    have hResolved := hScript.prependStatement added
    change statements (resolveImports t.origin (prependStatement added p)).1 = _ at hStatements
    rw [statements_resolveImports t.origin hResolved] at hStatements
    -- What has been read is a statement of its own, or there would be no first one.
    have hPlain : isDirective added = false := by
      refine Bool.eq_false_of_not_eq_true fun hDirective => ?_
      rw [statements_prependStatement_of_isDirective hDirective] at hStatements
      have hLength := congrArg List.length hStatements
      simp at hLength
    rw [statements_prependStatement hPlain, List.map_cons, List.cons.injEq] at hStatements
    rw [← hStatements.1] at hDefault
    exact isBindable_of_importStatement? hAdded
      (bindsDefault_of_resolveTree (bindsDefault_of_isDefaultImport hDefault))

/-- A script that imports a part of the library with its version, behind another import. -/
def versionedScript : String :=
  "import x from './x.js';\nimport \x7b useState \x7d from 'react@19';\nconst el = <div />;"

/-- The library comes from the address of that version, and both imports of it are counted. -/
theorem resolveDraft_supply_versioned :
    ∃ o p n d first, Origin.parse "https://cdn.example" = .ok o ∧
      read versionedScript = .ok p ∧ needsLibrary {} p = true ∧
      IsBindable ({} : UiLibrary).global ∧ libraryImport? {} p = some n ∧
      supply ⟨o, {}⟩ .document p = .ok d ∧
      statements (resolveDraft ⟨o, {}⟩ d).program = first :: (statements p).map (resolveTree o) ∧
      IsDefaultImport "React" "https://cdn.example/react@19" false first ∧
      specifier? (resolveTree o n) = some "https://cdn.example/react@19" ∧
      (resolveDraft ⟨o, {}⟩ d).resolved = 2 := by
  obtain ⟨o, hParse, hImported⟩ : ∃ o, Origin.parse "https://cdn.example" = .ok o ∧
      ((read versionedScript).toOption.any fun p => decide (needsLibrary {} p = true ∧
        librarySpecifier {} p = "react@19" ∧ changes o p.root = 1 ∧
        ((libraryImport? {} p).any fun n => decide (specifier? (resolveTree o n) =
          some "https://cdn.example/react@19")) = true)) = true :=
    exists_eq_ok (by decide +kernel)
  obtain ⟨p, hRead, hNeeds, hLibrary, hChanges, hSome⟩ := exists_eq_ok hImported
  obtain ⟨n, hImport, hResolved⟩ := (Option.any_eq_true _ _).mp hSome
  have hBindable : IsBindable ({} : UiLibrary).global := by decide +kernel
  obtain ⟨d, first, address, hSupply, hStatements, hDefault, hAddress, hCount⟩ :=
    (resolveDraft_supply_iff ⟨o, {}⟩ hRead hNeeds).mp hBindable
  rw [hImport] at hAddress
  obtain rfl : "https://cdn.example/react@19" = address :=
    Option.some_inj.mp ((of_decide_eq_true hResolved).symm.trans hAddress)
  refine ⟨o, p, n, d, first, hParse, hRead, hNeeds, hBindable, hImport, hSupply, hStatements,
    hDefault, hAddress, ?_⟩
  rw [hCount, hChanges, hLibrary]
  rfl

/-- A library whose name stands in braces. -/
def braced : UiLibrary := { global := "\x7b h \x7d" }

/-- The name in braces is taken for a valid binding, and what comes first is no import of a
default. -/
theorem exists_supply_braced :
    ∃ o p d first, Origin.parse "https://cdn.example" = .ok o ∧
      read "const el = <p/>;" = .ok p ∧ needsLibrary braced p = true ∧
      supply ⟨o, braced⟩ .document p = .ok d ∧ d.injected = true ∧
      (statements (resolveDraft ⟨o, braced⟩ d).program).head? = some first ∧
      ∀ address lossy, ¬ IsDefaultImport braced.global address lossy first := by
  obtain ⟨o, hParse, -⟩ : ∃ o, Origin.parse "https://cdn.example" = .ok o ∧ True :=
    exists_eq_ok (by decide +kernel)
  obtain ⟨p, hRead, hNeeds, hSome⟩ :
      ∃ p, read "const el = <p/>;" = .ok p ∧ needsLibrary braced p = true ∧
        ((importStatement? braced.global (librarySpecifier braced p)).any fun n =>
          decide (isDirective n = false ∧ kindAt? n [0, 0] = some (.importNamed false))) = true :=
    exists_eq_ok (by decide +kernel)
  obtain ⟨added, hAdded, hBoth⟩ := (Option.any_eq_true _ _).mp hSome
  obtain ⟨hPlain, hNamed⟩ := of_decide_eq_true hBoth
  have hScript := (isScript_of_read hRead).prependStatement added
  have hSupply := (supply_eq_ok_iff (t := ⟨o, braced⟩) hNeeds).mpr ⟨added, hAdded, rfl⟩
  refine ⟨o, p, _, resolveTree o added, hParse, hRead, hNeeds, hSupply, rfl, ?_, ?_⟩
  · show (statements (resolveImports o (prependStatement added p)).1).head? = _
    rw [statements_resolveImports o hScript, statements_prependStatement hPlain]
    rfl
  · intro address lossy hDefault
    have hBinds := bindsDefault_of_resolveTree (bindsDefault_of_isDefaultImport hDefault)
    rw [hBinds.isDefault] at hNamed
    exact absurd hNamed (by simp)

end PagePreview.Import
