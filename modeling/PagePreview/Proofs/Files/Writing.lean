import PagePreview.Files.Tree
import PagePreview.Proofs.Text.Pieces

/-!
# Writing to a file that is there

A walk along a path asks at each name what kind of thing lies there and nothing
else (`walk_congr`).  Writing to a file changes no kind, so afterwards every
path leads to where it has led before, and the file holds what was written
(`exists_write_of_read`).

The directory that the file lies in is there as well: the walk to the file has
come through it, and what `parent?` leaves out of the path, slashes and names
that are a full stop, leads nowhere else (`parent_of_read`).
-/

namespace PagePreview.Files

namespace Tree

/-! ## What lies at a place -/

section Lay

variable {place : Place} (entry : Entry)

theorem lookup_map_replace (entries : List (Place × Entry)) (other : Place) :
    (entries.map fun e => if e.1 == place then (place, entry) else e).lookup other =
      (entries.lookup other).map fun old => if other = place then entry else old := by
  induction entries with
  | nil => rfl
  | cons e entries ih =>
      obtain ⟨key, value⟩ := e
      have hKey : (if key == place then (place, entry) else (key, value)).1 = key := by
        split
        · next h => exact (beq_iff_eq.mp h).symm
        · rfl
      rw [List.map_cons, List.lookup_cons, List.lookup_cons, hKey, ih]
      by_cases hHere : other = key
      · subst hHere
        by_cases hPlace : other = place <;> simp [hPlace]
      · have hMiss : (other == key) = false := beq_eq_false_iff_ne.mpr hHere
        rw [hMiss]

/-- Laying something at a place changes what lies there and nothing else. -/
theorem at?_lay (t : Tree) (hPlace : place ≠ []) (other : Place) :
    (t.lay place entry).at? other = if other = place then some entry else t.at? other := by
  by_cases hOther : other = []
  · subst hOther
    simp [at?, hPlace.symm]
  have hEntries : (t.lay place entry).entries.lookup other =
      if other = place then some entry else t.entries.lookup other := by
    rw [lay]
    split
    · next hSome =>
        obtain ⟨old, hOld⟩ := Option.isSome_iff_exists.mp hSome
        rw [lookup_map_replace]
        by_cases hHere : other = place
        · simp [hHere, hOld]
        · simp [hHere]
    · next hNone =>
        have hMissing : t.entries.lookup place = none := Option.not_isSome_iff_eq_none.mp hNone
        rw [List.lookup_append, List.lookup_cons, List.lookup_nil]
        by_cases hHere : other = place
        · simp [hHere, hMissing]
        · have hMiss : (other == place) = false := beq_eq_false_iff_ne.mpr hHere
          simp [hHere, hMiss]
  simp only [at?, List.isEmpty_iff, if_neg hOther, hEntries]

end Lay

/-! ## Walking sees kinds only -/

/-- What kind of thing lies at a place. -/
def kindAt (t : Tree) (place : Place) : Option Kind := (t.at? place).map Entry.kind

/-- A name that is not passed over: it leads to what lies in the directory under that name. -/
structure IsName (name : String) : Prop where
  ne_empty : name ≠ ""
  ne_here : name ≠ "."
  ne_up : name ≠ ".."
  short : ¬ maxNameSize < name.utf8ByteSize

section Walk

variable (t : Tree) (dir : Place) {name : String}

theorem walk_idle (hIdle : name = "" ∨ name = ".") (rest : List String) :
    t.walk dir (name :: rest) = t.walk dir rest := by
  rw [walk, if_pos (by simpa using hIdle)]

theorem walk_last (hName : IsName name) : t.walk dir [name] = .ok (dir ++ [name], false) := by
  simp [walk, hName.ne_empty, hName.ne_here, hName.ne_up, hName.short]

/-- A name with more names behind it is that of a directory, unless nothing but slashes comes. -/
theorem walk_name (hName : IsName name) {rest : List String} (hRest : rest ≠ []) :
    t.walk dir (name :: rest) =
      match t.kindAt (dir ++ [name]) with
      | some .directory => t.walk (dir ++ [name]) rest
      | some .file =>
        if rest.all (· == "") then .ok (dir ++ [name], true) else .error .notDirectory
      | none => if rest.all (· == "") then .ok (dir ++ [name], true) else .error .missing := by
  obtain ⟨next, rest, rfl⟩ := List.exists_cons_of_ne_nil hRest
  rw [walk, if_neg (by simp [hName.ne_empty, hName.ne_here]), if_neg (by simp [hName.ne_up]),
    if_neg hName.short, kindAt]
  dsimp only
  cases t.at? (dir ++ [name]) with
  | none => rfl
  | some e => cases e <;> rfl

end Walk

/-- A name is passed over, or leads up, or is too long, or is looked up. -/
theorem name_cases (name : String) : (name = "" ∨ name = ".") ∨ name = ".." ∨
    (name ≠ "" ∧ name ≠ "." ∧ name ≠ ".." ∧ maxNameSize < name.utf8ByteSize) ∨ IsName name := by
  by_cases hIdle : name = "" ∨ name = "."
  · exact Or.inl hIdle
  rw [not_or] at hIdle
  by_cases hUp : name = ".."
  · exact Or.inr (Or.inl hUp)
  by_cases hLong : maxNameSize < name.utf8ByteSize
  · exact Or.inr (Or.inr (Or.inl ⟨hIdle.1, hIdle.2, hUp, hLong⟩))
  · exact Or.inr (Or.inr (Or.inr ⟨hIdle.1, hIdle.2, hUp, hLong⟩))

theorem walk_up (t : Tree) (dir : Place) (rest : List String) :
    t.walk dir (".." :: rest) =
      if dir.isEmpty then .error .missing else t.walk dir.dropLast rest := by
  rw [walk, if_neg (by decide), if_pos (by decide)]

theorem walk_long (t : Tree) (dir : Place) {name : String} (hEmpty : name ≠ "") (hHere : name ≠ ".")
    (hUp : name ≠ "..") (hLong : maxNameSize < name.utf8ByteSize) (rest : List String) :
    t.walk dir (name :: rest) = .error .nameTooLong := by
  rw [walk, if_neg (by simp [hEmpty, hHere]), if_neg (by simp [hUp]), if_pos hLong]

/-- Trees with things of the same kinds at the same places are walked in the same way. -/
theorem walk_congr {t u : Tree} (h : ∀ place, u.kindAt place = t.kindAt place) (dir : Place)
    (names : List String) : u.walk dir names = t.walk dir names := by
  induction names generalizing dir with
  | nil => rfl
  | cons name rest ih =>
      rcases name_cases name with hIdle | rfl | ⟨hEmpty, hHere, hUp, hLong⟩ | hName
      · rw [walk_idle u dir hIdle, walk_idle t dir hIdle, ih]
      · rw [walk_up, walk_up, ih]
      · rw [walk_long u dir hEmpty hHere hUp hLong, walk_long t dir hEmpty hHere hUp hLong]
      · by_cases hRest : rest = []
        · subst hRest
          rw [walk_last u dir hName, walk_last t dir hName]
        · rw [walk_name u dir hName hRest, walk_name t dir hName hRest, h, ih]

theorem find_congr {t u : Tree} (h : ∀ place, u.kindAt place = t.kindAt place) (path : String) :
    u.find path = t.find path := by
  simp only [find, walk_congr h]

/-! ## Reading and writing -/

section Read

variable {t : Tree} {path : String} {content : List UInt8}

theorem read_eq_ok_iff : t.read path = .ok content ↔
    ∃ place, t.find path = .ok (place, false) ∧ t.at? place = some (.file content) := by
  rw [read]
  cases hFind : t.find path with
  | error fault => simp [bind, Except.bind]
  | ok found =>
      obtain ⟨place, closed⟩ := found
      cases hAt : t.at? place with
      | none => simp [bind, Except.bind, hAt]
      | some e => cases e <;> cases closed <;> simp [bind, Except.bind, hAt]

/-- **A file that can be read can be written**, and then it holds what was written, while every
place has things of the same kind as before. -/
theorem exists_write_of_read (h : t.read path = .ok content) (new : List UInt8) :
    ∃ u, t.write path new = .ok u ∧ u.read path = .ok new ∧
      ∀ place, u.kindAt place = t.kindAt place := by
  obtain ⟨place, hFind, hAt⟩ := read_eq_ok_iff.mp h
  have hPlace : place ≠ [] := by
    rintro rfl
    simp [at?] at hAt
  have hKinds : ∀ other, (t.lay place (.file new)).kindAt other = t.kindAt other := by
    intro other
    rw [kindAt, kindAt, at?_lay _ t hPlace]
    by_cases hOther : other = place
    · subst hOther
      simp [hAt, Entry.kind]
    · rw [if_neg hOther]
  refine ⟨t.lay place (.file new), ?_, read_eq_ok_iff.mpr ⟨place, ?_, ?_⟩, hKinds⟩
  · simp only [write, hFind, bind, Except.bind, hAt]
  · rw [find_congr hKinds, hFind]
  · rw [at?_lay _ t hPlace, if_pos rfl]

end Read

/-! ## The directory that a file lies in -/

section Parent

variable {t : Tree} {dir place : Place}

/-- The walk has come to a directory: it and all that it lies in are directories. -/
def IsOpen (t : Tree) (dir : Place) : Prop := ∀ n, t.at? (dir.take n) = some .directory

theorem isOpen_nil : t.IsOpen [] := by
  intro n
  simp [at?]

theorem IsOpen.at? (h : t.IsOpen dir) : t.at? dir = some .directory := by
  have hWhole := h dir.length
  rwa [List.take_length] at hWhole

theorem IsOpen.dropLast (h : t.IsOpen dir) : t.IsOpen dir.dropLast := by
  intro n
  rw [List.dropLast_eq_take, List.take_take]
  exact h _

theorem IsOpen.concat (h : t.IsOpen dir) {name : String}
    (hName : t.at? (dir ++ [name]) = some .directory) : t.IsOpen (dir ++ [name]) := by
  intro n
  by_cases hLess : n ≤ dir.length
  · rw [List.take_append_of_le_length hLess]
    exact h n
  · rw [List.take_of_length_le (by simp; omega)]
    exact hName

theorem at?_of_kindAt (h : t.kindAt place = some .directory) : t.at? place = some .directory := by
  rw [kindAt] at h
  obtain ⟨e, hAt, hKind⟩ := Option.map_eq_some_iff.mp h
  cases e with
  | file content => exact absurd hKind (by simp [Entry.kind])
  | directory => exact hAt

/-- **The walk to a file comes through a directory**: the last name is that of the file, and the
names before it lead to a directory. -/
theorem exists_walk_init (hDir : t.IsOpen dir) {front : List String} {last : String}
    (h : t.walk dir (front ++ [last]) = .ok (place, false)) :
    IsName last ∧ ∃ parent closed, t.walk dir front = .ok (parent, closed) ∧
      t.at? parent = some .directory := by
  induction front generalizing dir with
  | nil =>
      refine ⟨?_, dir, true, rfl, hDir.at?⟩
      rw [List.nil_append] at h
      rcases name_cases last with hIdle | rfl | ⟨hEmpty, hHere, hUp, hLong⟩ | hName
      · rw [walk_idle t dir hIdle, walk] at h
        exact absurd h (by simp)
      · rw [walk_up] at h
        split at h
        · exact absurd h (by simp)
        · rw [walk] at h
          exact absurd h (by simp)
      · rw [walk_long t dir hEmpty hHere hUp hLong] at h
        exact absurd h (by simp)
      · exact hName
  | cons name front ih =>
      rw [List.cons_append] at h
      rcases name_cases name with hIdle | rfl | ⟨hEmpty, hHere, hUp, hLong⟩ | hName
      · rw [walk_idle t dir hIdle] at h ⊢
        exact ih hDir h
      · rw [walk_up] at h ⊢
        split at h
        · exact absurd h (by simp)
        · next hInside =>
            rw [if_neg hInside]
            exact ih hDir.dropLast h
      · rw [walk_long t dir hEmpty hHere hUp hLong] at h
        exact absurd h (by simp)
      · rw [walk_name t dir hName (by simp)] at h
        split at h
        · next hKind =>
            have hAt := at?_of_kindAt hKind
            obtain ⟨hLast, parent, closed, hWalk, hParent⟩ := ih (hDir.concat hAt) h
            refine ⟨hLast, ?_⟩
            by_cases hFront : front = []
            · subst hFront
              exact ⟨_, _, walk_last t dir hName, hAt⟩
            · refine ⟨parent, closed, ?_, hParent⟩
              rw [walk_name t dir hName hFront, hKind]
              exact hWalk
        · split at h <;> exact absurd h (by simp)
        · split at h <;> exact absurd h (by simp)

/-- A name that is passed over at the end of a walk to a directory may be left out. -/
theorem exists_walk_of_idle {front : List String} {last : String} {closed : Bool}
    (hIdle : last = "" ∨ last = ".") (hPlace : t.at? place = some .directory)
    (h : t.walk dir (front ++ [last]) = .ok (place, closed)) :
    ∃ closed, t.walk dir front = .ok (place, closed) := by
  induction front generalizing dir with
  | nil =>
      rw [List.nil_append, walk_idle t dir hIdle] at h
      exact ⟨closed, h⟩
  | cons name front ih =>
      rw [List.cons_append] at h
      rcases name_cases name with hSkip | rfl | ⟨hEmpty, hHere, hUp, hLong⟩ | hName
      · rw [walk_idle t dir hSkip] at h ⊢
        exact ih h
      · rw [walk_up] at h ⊢
        split at h
        · exact absurd h (by simp)
        · next hInside =>
            rw [if_neg hInside]
            exact ih h
      · rw [walk_long t dir hEmpty hHere hUp hLong] at h
        exact absurd h (by simp)
      · rw [walk_name t dir hName (by simp)] at h
        have hAtFile : t.kindAt place ≠ some .file := by
          rw [kindAt, hPlace]
          simp [Entry.kind]
        have hAtNone : t.kindAt place ≠ none := by
          rw [kindAt, hPlace]
          simp
        split at h
        · next hKind =>
            obtain ⟨closed, hWalk⟩ := ih h
            by_cases hFront : front = []
            · subst hFront
              rw [walk] at hWalk
              obtain ⟨rfl, -⟩ := Prod.mk.inj (Except.ok.inj hWalk)
              exact ⟨_, walk_last t dir hName⟩
            · refine ⟨closed, ?_⟩
              rw [walk_name t dir hName hFront, hKind]
              exact hWalk
        · next hKind =>
            split at h
            · obtain ⟨rfl, -⟩ := Prod.mk.inj (Except.ok.inj h)
              exact absurd hKind hAtFile
            · exact absurd h (by simp)
        · next hKind =>
            split at h
            · obtain ⟨rfl, -⟩ := Prod.mk.inj (Except.ok.inj h)
              exact absurd hKind hAtNone
            · exact absurd h (by simp)

end Parent

/-! ## Paths and their directories -/

/-- The names between slashes. -/
def namesIn (cs : List Char) : List String :=
  (Text.splitWhere (· == '/') cs).map String.ofList

theorem namesIn_append (front : List Char) {last : List Char} (hLast : '/' ∉ last) :
    namesIn (front ++ '/' :: last) = namesIn front ++ [String.ofList last] := by
  have hNone : ∀ c ∈ last, (c == '/') = false := by
    intro c hc
    refine beq_eq_false_iff_ne.mpr ?_
    rintro rfl
    exact hLast hc
  rw [namesIn, Text.splitWhere_append front (by decide), Text.splitWhere_of_forall hNone,
    List.map_append]
  rfl

/-- What is idle at the end of a path to a directory may be left out; the path is given
backwards. -/
theorem exists_walk_dropIdle {t : Tree} {place : Place} {closed : Bool}
    (hPlace : t.at? place = some .directory) {path : List Char}
    (h : t.walk [] (namesIn path.reverse) = .ok (place, closed)) :
    ∃ closed, t.walk [] (namesIn (dropIdle path).reverse) = .ok (place, closed) := by
  fun_induction dropIdle path generalizing closed with
  | case1 path ih =>
      rw [List.reverse_cons, namesIn_append path.reverse (by simp)] at h
      obtain ⟨closed, hWalk⟩ := exists_walk_of_idle (Or.inl rfl) hPlace h
      exact ih hWalk
  | case2 path ih =>
      rw [List.reverse_cons, List.reverse_cons, List.append_assoc] at h
      rw [List.singleton_append, namesIn_append path.reverse (by simp)] at h
      obtain ⟨closed, hWalk⟩ := exists_walk_of_idle (Or.inr rfl) hPlace h
      exact ih hWalk
  | case3 path => exact ⟨closed, h⟩

theorem dropIdle_suffix (path : List Char) : dropIdle path <:+ path := by
  fun_induction dropIdle path with
  | case1 path ih => exact ih.trans (List.suffix_cons _ _)
  | case2 path ih => exact (ih.trans (List.suffix_cons _ _)).trans (List.suffix_cons _ _)
  | case3 path => exact List.suffix_rfl

/-- A name at the end of a path is not left out; the path is given backwards. -/
theorem dropIdle_of_isName {last : List Char} (hName : IsName (String.ofList last))
    (hSlash : '/' ∉ last) (path : List Char) :
    dropIdle (last.reverse ++ path) = last.reverse ++ path := by
  have hSome : last.reverse ≠ [] := by
    intro hNil
    exact hName.ne_empty (by rw [List.reverse_eq_nil_iff.mp hNil, String.ofList_nil])
  have hNone : '/' ∉ last.reverse := mt List.mem_reverse.mp hSlash
  have hHere : last.reverse ≠ ['.'] := by
    intro hDot
    exact hName.ne_here (by rw [List.reverse_eq_iff.mp hDot]; rfl)
  obtain ⟨c, name, hLast⟩ := List.exists_cons_of_ne_nil hSome
  rw [hLast] at hNone hHere ⊢
  rw [List.cons_append]
  rw [dropIdle.eq_def]
  split
  · next rest hEq =>
      obtain ⟨rfl, -⟩ := List.cons.inj hEq
      exact absurd List.mem_cons_self hNone
  · next rest hEq =>
      obtain ⟨rfl, hRest⟩ := List.cons.inj hEq
      cases name with
      | nil => exact absurd rfl hHere
      | cons d name =>
          rw [List.cons_append] at hRest
          obtain ⟨rfl, -⟩ := List.cons.inj hRest
          exact absurd (List.mem_cons_of_mem _ List.mem_cons_self) hNone
  · rfl

section Parent

variable {t : Tree} {path parent : String} {content : List UInt8}

/-- A path that ends in a name lies in what is in front of the name. -/
theorem parent?_eq {front last : List Char} (hRoot : ¬ path.startsWith "/" = true)
    (hPath : path.toList.reverse = last.reverse ++ front) (hName : IsName (String.ofList last))
    (hSlash : '/' ∉ last) (hFront : ∀ c ∈ front.head?, c = '/') :
    parent? path = some (String.ofList (dropIdle front).reverse) := by
  have hCut : (last.reverse ++ front).dropWhile (· != '/') = front := by
    rw [List.dropWhile_append_of_pos]
    · cases front with
      | nil => rfl
      | cons c front => simp [hFront c rfl]
    · intro c hc
      refine bne_iff_ne.mpr ?_
      rintro rfl
      exact hSlash (List.mem_reverse.mp hc)
  have hSome : last.reverse ++ front ≠ [] := by
    intro hNil
    have hLast : last = [] := List.reverse_eq_nil_iff.mp (List.append_eq_nil_iff.mp hNil).1
    exact hName.ne_empty (by rw [hLast, String.ofList_nil])
  rw [parent?]
  split
  next root names hSplit =>
  split at hSplit
  · next cs hSlashFirst =>
      refine absurd (String.startsWith_string_iff.mpr ?_) hRoot
      rw [hSlashFirst]
      exact ⟨cs, rfl⟩
  · obtain ⟨rfl, rfl⟩ := Prod.mk.inj hSplit
    rw [hPath, dropIdle_of_isName hName hSlash]
    split
    · next hNil => exact absurd hNil hSome
    · rw [hCut, List.nil_append]

/-- **The directory that a file lies in is there.**  Where the path does not name it, it is the
one that the path starts from. -/
theorem parent_of_read (h : t.read path = .ok content) (hParent : parent? path = some parent) :
    parent = "" ∨ ∃ place closed, t.find parent = .ok (place, closed) ∧
      t.at? place = some .directory := by
  obtain ⟨place, hFind, -⟩ := read_eq_ok_iff.mp h
  rw [find] at hFind
  split at hFind
  · exact absurd hFind (by simp)
  split at hFind
  · exact absurd hFind (by simp)
  next hNul hStart =>
  rw [Bool.or_eq_true, not_or] at hStart
  have hNames : names path = namesIn path.toList := rfl
  by_cases hSlash : '/' ∈ path.toList
  · -- the path is cut at its last slash
    obtain ⟨back, front, hCut, hBack⟩ := List.eq_append_cons_of_mem (List.mem_reverse.mpr hSlash)
    have hPath : path.toList = front.reverse ++ '/' :: back.reverse := by
      rw [← List.reverse_inj, hCut]
      simp
    have hLast : '/' ∉ back.reverse := mt List.mem_reverse.mp hBack
    rw [hNames, hPath, namesIn_append _ hLast] at hFind
    obtain ⟨hName, up, closed, hWalk, hUp⟩ := exists_walk_init isOpen_nil hFind
    have hBehind : path.toList.reverse = back.reverse.reverse ++ '/' :: front := by
      rw [List.reverse_reverse, hCut]
    have hEq := parent?_eq hStart.2 hBehind hName hLast (by simp)
    have hOut : String.ofList (dropIdle front).reverse = parent :=
      Option.some.inj (hEq.symm.trans hParent)
    have hPrefix : parent.toList <+: path.toList := by
      rw [← hOut, String.toList_ofList, hPath]
      exact (List.reverse_prefix.mpr (dropIdle_suffix front)).trans (List.prefix_append _ _)
    refine or_iff_not_imp_left.mpr fun hEmpty => ?_
    obtain ⟨closed', hParentWalk⟩ := exists_walk_dropIdle hUp hWalk
    refine ⟨up, closed', ?_, hUp⟩
    rw [find, if_neg, if_neg]
    · show t.walk [] (namesIn parent.toList) = _
      rw [← hOut, String.toList_ofList, hParentWalk]
    · rw [Bool.or_eq_true, not_or]
      refine ⟨by simpa using hEmpty, fun hFirst => hStart.2 ?_⟩
      exact String.startsWith_string_iff.mpr
        ((String.startsWith_string_iff.mp hFirst).trans hPrefix)
    · rw [String.contains_char_eq, decide_eq_true_eq] at hNul ⊢
      exact fun hMem => hNul (hPrefix.subset hMem)
  · -- the path is a name
    have hNone : ∀ c ∈ path.toList, (c == '/') = false := by
      intro c hc
      refine beq_eq_false_iff_ne.mpr ?_
      rintro rfl
      exact hSlash hc
    rw [hNames, namesIn, Text.splitWhere_of_forall hNone, List.map_singleton] at hFind
    rw [← List.nil_append [String.ofList path.toList]] at hFind
    obtain ⟨hName, -⟩ := exists_walk_init isOpen_nil hFind
    have hEq := parent?_eq hStart.2 (List.append_nil path.toList.reverse).symm hName hSlash
      (by simp)
    exact Or.inl (Option.some.inj (hParent.symm.trans hEq))

end Parent

end Tree

end PagePreview.Files
