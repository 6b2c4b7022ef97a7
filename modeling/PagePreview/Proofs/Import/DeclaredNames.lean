import PagePreview.Proofs.Import.AddedLibrary

/-!
# The names that a module declares

`declaredBy` lists what one statement declares in the scope of the module, each
name with the form of its declaration.  Whether a script binds the name of the
library is looked up in three of these forms only (`statementBinds_iff`): as a
default that is imported, as a whole module that is imported, and as a variable
that is declared on its own.  A name that is declared in another form is declared
again by the import of the library, and a name that is not declared at all is
declared once (`timesDeclared_addLibrary_eq_one_iff`).
-/

namespace PagePreview.Import

open Script Script.Lowering

/-- How a name is declared. -/
inductive Form where
  | importDefault | importNamespace | importNamed | importEquals
  /-- A variable that is declared on its own. -/
  | ownVariable
  /-- A variable in a pattern. -/
  | patternVariable
  /-- A variable that belongs to the module and is declared within another statement. -/
  | innerVariable
  | function | classDef | enumDef | moduleDef
deriving DecidableEq, Repr

/-- Whether a name is looked up among the declarations of a form. -/
def Form.isFound : Form → Bool
  | .importDefault | .importNamespace | .ownVariable => true
  | _ => false

/-! ## What declares a name -/

/-- The declaration of one name, if the node is one. -/
def declaring (form : Form) (n : Node) : List (Form × String) := n.name?.toList.map (form, ·)

/-- What a part of an import declares. -/
def importedBy (specifier : Node) : List (Form × String) :=
  match specifier.kind with
  | .importDefault => declaring .importDefault (specifier.child 0)
  | .importNamespace => declaring .importNamespace (specifier.child 0)
  | .importNamed _ => declaring .importNamed (specifier.child 1)
  | _ => []

/-- The variable that a declarator declares on its own, perhaps with a type. -/
def ownVariable? (declarator : Node) : Option String :=
  let target := declarator.child 0
  match target.kind with
  | .typed _ _ => (target.child 0).name?
  | _ => target.name?

def declaratorNames (declarator : Node) : List (Form × String) :=
  match ownVariable? declarator with
  | some name => [(.ownVariable, name)]
  | none => (boundNames (declarator.child 0)).map (.patternVariable, ·)

/-- What a declaration declares. Types are no part of it. -/
def declarationNames (n : Node) : List (Form × String) :=
  match n.kind with
  | .variables _ _ => n.children.flatMap declaratorNames
  | .function _ .declaration _ => declaring .function (n.child 0)
  | .classDef .declaration _ => declaring .classDef (n.child 1)
  | .enumDef _ _ => declaring .enumDef (n.child 0)
  | .moduleDef keyword _ => if keyword == "global" then [] else declaring .moduleDef (n.child 0)
  | .importEquals _ => declaring .importEquals (n.child 0)
  | _ => []

/-- What a statement declares in the scope of the module. -/
def declaredBy (n : Node) : List (Form × String) :=
  match n.kind with
  | .importFrom _ _ => (n.items 0).flatMap importedBy
  | .exportDeclaration => declarationNames (n.child 0)
  | .exportDefault =>
    match (n.child 0).kind with
    | .function _ _ _ | .classDef _ _ => declarationNames (n.child 0)
    | _ => []
  | .variables _ _ | .function _ _ _ | .classDef _ _ | .enumDef _ _ | .moduleDef _ _
  | .importEquals _ => declarationNames n
  | _ => (hoistedNames n).map (.innerVariable, ·)

/-- What a script declares in the scope of the module. -/
def declared (p : Program) : List (Form × String) := p.root.children.flatMap declaredBy

/-- How often a name is declared in the scope of the module. -/
def timesDeclared (name : String) (p : Program) : Nat :=
  (declared p).countP fun x => x.2 == name

/-! ## Where the name is looked up -/

/-- Whether a name is declared in a form in which it is looked up. -/
def Finds (name : String) (xs : List (Form × String)) : Prop :=
  ∃ x ∈ xs, x.1.isFound = true ∧ x.2 = name

variable {name : String}

theorem not_finds_nil : ¬ Finds name [] := by
  rintro ⟨x, hMem, -⟩
  exact absurd hMem (by simp)

theorem finds_flatMap {f : Node → List (Form × String)} {ns : List Node} :
    Finds name (ns.flatMap f) ↔ ∃ m ∈ ns, Finds name (f m) := by
  constructor
  · rintro ⟨x, hMem, hFound⟩
    obtain ⟨m, hm, hx⟩ := List.mem_flatMap.mp hMem
    exact ⟨m, hm, x, hx, hFound⟩
  · rintro ⟨m, hm, x, hx, hFound⟩
    exact ⟨x, List.mem_flatMap.mpr ⟨m, hm, hx⟩, hFound⟩

theorem finds_map (form : Form) (names : List String) :
    Finds name (names.map (form, ·)) ↔ form.isFound = true ∧ name ∈ names := by
  constructor
  · rintro ⟨x, hMem, hFound, rfl⟩
    obtain ⟨s, hs, rfl⟩ := List.mem_map.mp hMem
    exact ⟨hFound, hs⟩
  · rintro ⟨hFound, hMem⟩
    exact ⟨(form, name), List.mem_map.mpr ⟨name, hMem, rfl⟩, hFound, rfl⟩

theorem finds_declaring (form : Form) (n : Node) :
    Finds name (declaring form n) ↔ form.isFound = true ∧ n.name? = some name := by
  rw [declaring, finds_map, Option.mem_toList]

theorem bindsModule_iff (specifier : Node) :
    bindsModule name specifier = true ↔ Finds name (importedBy specifier) := by
  unfold importedBy
  split
  case h_1 h => simp [bindsModule, h, finds_declaring, Form.isFound]
  case h_2 h => simp [bindsModule, h, finds_declaring, Form.isFound]
  case h_3 h => simp [bindsModule, h, finds_declaring, Form.isFound]
  case h_4 hDefault hNamespace hNamed =>
    have hNone : bindsModule name specifier = false := by
      unfold bindsModule
      split
      · contradiction
      · contradiction
      · rfl
    simp [hNone, not_finds_nil]

theorem declares_eq (declarator : Node) :
    declares name declarator = (ownVariable? declarator == some name) := by
  unfold declares
  dsimp only
  split
  case h_1 h => simp only [ownVariable?, h]
  case h_2 hTyped =>
    unfold ownVariable?
    dsimp only
    split
    · next h => exact absurd h (hTyped _ _)
    · rfl

theorem declares_iff (declarator : Node) :
    declares name declarator = true ↔ Finds name (declaratorNames declarator) := by
  rw [declares_eq, declaratorNames]
  cases hOwn : ownVariable? declarator with
  | none => simp [finds_map, Form.isFound]
  | some own =>
    rw [beq_iff_eq, Option.some_inj]
    simp [Finds, Form.isFound]

/-- Whether a declaration declares a name as a variable of its own. -/
def declaresVariable (name : String) (n : Node) : Bool :=
  match n.kind with
  | .variables _ _ => n.children.any (declares name)
  | _ => false

theorem declaresVariable_of_ne {n : Node} (h : ∀ kind ambient, n.kind ≠ .variables kind ambient) :
    declaresVariable name n = false := by
  unfold declaresVariable
  split
  · next hKind => exact absurd hKind (h _ _)
  · rfl

/-- Of the declarations, only those of variables are looked through. -/
theorem declaresVariable_iff (n : Node) :
    declaresVariable name n = true ↔ Finds name (declarationNames n) := by
  unfold declarationNames
  split
  case h_1 h => simp [declaresVariable, h, finds_flatMap, declares_iff]
  case h_5 h =>
    rw [declaresVariable_of_ne (by simp [h])]
    split <;> simp [finds_declaring, Form.isFound, not_finds_nil]
  case h_7 hVariables _ _ _ _ _ =>
    rw [declaresVariable_of_ne hVariables]
    simp [not_finds_nil]
  all_goals
    next h =>
    rw [declaresVariable_of_ne (by simp [h])]
    simp [finds_declaring, Form.isFound]

theorem statementBinds_iff (n : Node) :
    statementBinds name n = true ↔ Finds name (declaredBy n) := by
  unfold declaredBy
  split
  case h_1 h => simp [statementBinds, h, finds_flatMap, bindsModule_iff]
  case h_2 h =>
    rw [← declaresVariable_iff]
    simp only [statementBinds, h]
    rfl
  case h_3 h =>
    simp only [statementBinds, h]
    split
    · next h => rw [← declaresVariable_iff, declaresVariable_of_ne (by simp [h])]
    · next h => rw [← declaresVariable_iff, declaresVariable_of_ne (by simp [h])]
    · simp [not_finds_nil]
  case h_10 hImport hExport _ hVariables _ _ _ _ _ =>
    have hNone : statementBinds name n = false := by
      unfold statementBinds
      split
      · next h => exact absurd h (hImport _ _)
      · next h => exact absurd h (hVariables _ _)
      · next h => exact absurd h hExport
      · rfl
    simp [hNone, finds_map, Form.isFound]
  all_goals
    next h => rw [← declaresVariable_iff, statementBinds, declaresVariable, h]

theorem bindsName_iff (p : Program) : bindsName name p = true ↔ Finds name (declared p) := by
  rw [bindsName, declared, finds_flatMap, List.any_eq_true]
  simp only [statementBinds_iff]

/-! ## A script with the library added -/

theorem declaredBy_of_isDefaultImport {specifier : String} {lossy : Bool} {n : Node}
    (h : IsDefaultImport name specifier lossy n) : declaredBy n = [(.importDefault, name)] := by
  obtain ⟨_, _, _, _, _, rfl⟩ := h
  rfl

theorem timesDeclared_prependStatement (n : Node) (p : Program) :
    timesDeclared name (prependStatement n p) =
      (declaredBy n).countP (fun x => x.2 == name) + timesDeclared name p := by
  have hOld : declared p =
      (directives p).flatMap declaredBy ++ (statements p).flatMap declaredBy := by
    rw [declared, ← directives_append_statements, List.flatMap_append]
  rw [timesDeclared, timesDeclared, declared, children_prependStatement, hOld, List.flatMap_append,
    List.flatMap_cons, List.countP_append, List.countP_append, List.countP_append]
  omega

/-- The import of the library is one more declaration of its name, and none of another one. -/
theorem timesDeclared_addLibrary {ui : UiLibrary} (h : IsBindable ui.global) {p q : Program}
    (hAdd : addLibrary ui p = .ok q) (name : String) :
    timesDeclared name q = timesDeclared name p + if name = ui.global then 1 else 0 := by
  obtain ⟨added, hDefault, hRead⟩ := exists_importStatement? h (librarySpecifier ui p)
  obtain ⟨other, hOther, rfl⟩ := addLibrary_eq_ok_iff.mp hAdd
  obtain rfl : added = other := Option.some_inj.mp (hRead.symm.trans hOther)
  rw [timesDeclared_prependStatement, declaredBy_of_isDefaultImport hDefault, Nat.add_comm]
  by_cases hName : name = ui.global
  · simp [hName]
  · have hOther : ui.global ≠ name := fun hSame => hName hSame.symm
    simp [hName, hOther]

/-- A script that needs the library declares its name in no form in which it is looked up. -/
theorem not_isFound_of_needsLibrary {ui : UiLibrary} {p : Program}
    (hNeeds : needsLibrary ui p = true) :
    ∀ x ∈ declared p, x.2 = ui.global → x.1.isFound = false := by
  intro x hMem hName
  rw [needsLibrary, Bool.and_eq_true, Bool.not_eq_true'] at hNeeds
  refine Bool.eq_false_of_not_eq_true fun hFound => ?_
  have hBinds := (bindsName_iff p).mpr ⟨x, hMem, hFound, hName⟩
  rw [hNeeds.2] at hBinds
  exact absurd hBinds (by decide)

theorem timesDeclared_eq_zero_iff (name : String) (p : Program) :
    timesDeclared name p = 0 ↔ ∀ x ∈ declared p, x.2 ≠ name := by
  rw [timesDeclared, List.countP_eq_zero]
  simp only [beq_iff_eq, ne_eq]

/-- **A script that gets the library declares its name once, if it has declared the name in no
form in which it is not looked up**: as a part of an import or of a pattern, behind an inner `var`,
or as a function, a class, an enumeration or a module. No other name is declared. -/
theorem timesDeclared_addLibrary_eq_one_iff {ui : UiLibrary} (h : IsBindable ui.global)
    {p q : Program} (hNeeds : needsLibrary ui p = true) (hAdd : addLibrary ui p = .ok q) :
    (timesDeclared ui.global q = 1 ↔
      ∀ x ∈ declared p, x.2 = ui.global → x.1.isFound = true) ∧
    ∀ name, name ≠ ui.global → timesDeclared name q = timesDeclared name p := by
  have hNone := not_isFound_of_needsLibrary hNeeds
  refine ⟨?_, ?_⟩
  · rw [timesDeclared_addLibrary h hAdd, if_pos rfl]
    constructor
    · intro hOnce x hMem hName
      have hZero : timesDeclared ui.global p = 0 := by omega
      exact absurd hName ((timesDeclared_eq_zero_iff _ p).mp hZero x hMem)
    · intro hAll
      have hZero : timesDeclared ui.global p = 0 := by
        rw [timesDeclared_eq_zero_iff]
        intro x hMem hName
        have hFound := hAll x hMem hName
        rw [hNone x hMem hName] at hFound
        exact absurd hFound (by decide)
      omega
  · intro name hName
    rw [timesDeclared_addLibrary h hAdd, if_neg hName, Nat.add_zero]

/-- A script that declares names in five forms, and not the name of the library. -/
def manyForms : String :=
  "import lib, \x7b React as R \x7d from 'lib';\nlet \x7b a: [b] \x7d = R; function f() \x7b \x7d\n" ++
  "export const el = <></>;"

/-- The name is declared once, and the other names are declared as often as before. -/
theorem timesDeclared_addLibrary_fragment :
    ∃ p q, read manyForms = .ok p ∧ IsBindable ({} : UiLibrary).global ∧
      needsLibrary {} p = true ∧ addLibrary {} p = .ok q ∧
      declared p = [(.importDefault, "lib"), (.importNamed, "R"), (.patternVariable, "b"),
        (.function, "f"), (.ownVariable, "el")] ∧
      timesDeclared "React" q = 1 ∧
      (timesDeclared "React" q = 1 ↔ ∀ x ∈ declared p, x.2 = "React" → x.1.isFound = true) ∧
      ∀ name, name ≠ "React" → timesDeclared name q = timesDeclared name p := by
  obtain ⟨p, hRead, hNeeds, hSome, hDeclared⟩ : ∃ p, read manyForms = .ok p ∧
      needsLibrary {} p = true ∧ ((addLibrary {} p).toOption.any fun _ => decide True) = true ∧
      declared p = [(.importDefault, "lib"), (.importNamed, "R"), (.patternVariable, "b"),
        (.function, "f"), (.ownVariable, "el")] :=
    exists_eq_ok (by decide +kernel)
  obtain ⟨q, hAdd, -⟩ := exists_eq_ok hSome
  have hBindable : IsBindable ({} : UiLibrary).global := by decide +kernel
  obtain ⟨hOnce, hOthers⟩ := timesDeclared_addLibrary_eq_one_iff hBindable hNeeds hAdd
  have hFound : ∀ x ∈ declared p, x.2 = "React" → x.1.isFound = true := by
    rw [hDeclared]
    decide
  exact ⟨p, q, hRead, hBindable, hNeeds, hAdd, hDeclared, hOnce.mpr hFound, hOnce, hOthers⟩

/-- A part of an import is not looked up, and so its name is declared twice. -/
theorem timesDeclared_addLibrary_importNamed :
    ∃ p q, read "import \x7b React \x7d from 'react';\nconst el = <div />;" = .ok p ∧
      timesDeclared "React" p = 1 ∧ needsLibrary {} p = true ∧ addLibrary {} p = .ok q ∧
      timesDeclared "React" q = 2 := by
  obtain ⟨p, hRead, hOnce, hNeeds, hTwice⟩ :
      ∃ p, read "import \x7b React \x7d from 'react';\nconst el = <div />;" = .ok p ∧
        timesDeclared "React" p = 1 ∧ needsLibrary {} p = true ∧
        ((addLibrary {} p).toOption.any fun q => decide (timesDeclared "React" q = 2)) = true :=
    exists_eq_ok (by decide +kernel)
  obtain ⟨q, hAdd, hQ⟩ := exists_eq_ok hTwice
  exact ⟨p, q, hRead, hOnce, hNeeds, hAdd, hQ⟩

end PagePreview.Import
