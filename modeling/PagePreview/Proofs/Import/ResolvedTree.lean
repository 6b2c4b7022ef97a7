import Mathlib.Data.List.Nodup
import PagePreview.Import.Resolution
import PagePreview.Proofs.Import.Origins
import PagePreview.Proofs.Script.Places

/-!
# A script with its imports resolved

A specifier is a text literal in one of four places: it is the source of a
declaration that imports, of an export of names from elsewhere or of an export
of everything, or the first argument of a call of `import` (`IsSource`).  Here a
resolved script is compared with the one it comes from place by place.

* `labelAt?_resolveTree`: at a specifier stands the literal with the value that
  it resolves to, and everywhere else stands what stood there.
* `exists_places_changes`: the number that comes with the tree is that of the
  places with another value.

Trees with the same labels at all places are equal, so this leaves nothing
open.

A script whose imports are resolved stays as it is when they are resolved
again, if no specifier is marked twice (`resolveImports_resolveImports`): the
specifiers of the resolved script are addresses, and these resolve to nothing.
The mark of a package is taken off once, so what stands behind it may be an
address whose scheme is that mark, and such a script does not stay.
-/

namespace PagePreview.Import

open Script

/-- The child with that number of a node of that kind says where a module is. -/
inductive IsSource : Kind → Nat → Prop where
  | importFrom (typeOnly : Bool) (phase : Option String) : IsSource (.importFrom typeOnly phase) 1
  | exportNamed (typeOnly : Bool) : IsSource (.exportNamed typeOnly) 1
  | exportAll (typeOnly : Bool) : IsSource (.exportAll typeOnly) 1
  | importCall (phase : Option String) : IsSource (.importCall phase) 0

theorem sourcePlace?_eq_some_iff {k : Kind} {i : Nat} : sourcePlace? k = some i ↔ IsSource k i := by
  constructor
  · intro h
    unfold sourcePlace? at h
    split at h
    · obtain rfl := Option.some.inj h
      exact .importFrom ..
    · obtain rfl := Option.some.inj h
      exact .exportNamed ..
    · obtain rfl := Option.some.inj h
      exact .exportAll ..
    · obtain rfl := Option.some.inj h
      exact .importCall ..
    · simp at h
  · rintro (_ | _ | _ | _) <;> rfl

/-- Whatever stands at this place says where a module is. -/
def IsSourceAt (n : Node) (place : List Nat) : Prop :=
  ∃ above i parent, place = above ++ [i] ∧ n.at? above = some parent ∧ IsSource parent.kind i

/-- At this place stands a specifier: a text literal that says where a module is. -/
def IsSpecifierAt (n : Node) (place : List Nat) (value : String) : Prop :=
  IsSourceAt n place ∧ ∃ m, n.at? place = some m ∧ m.string? = some value

theorem not_isSourceAt_nil (n : Node) : ¬ IsSourceAt n [] := by
  rintro ⟨above, i, _, hEq, _⟩
  simp at hEq

theorem isSourceAt_singleton {n : Node} {i : Nat} : IsSourceAt n [i] ↔ IsSource n.kind i := by
  constructor
  · rintro ⟨above, j, parent, hEq, hAt, hSource⟩
    obtain ⟨rfl, hEq⟩ := List.append_eq_singleton_iff.mp hEq.symm |>.resolve_right (by simp)
    obtain rfl : i = j := by simpa using hEq
    obtain rfl : n = parent := by simpa [Node.at?] using hAt
    exact hSource
  · exact fun h => ⟨[], i, n, rfl, rfl, h⟩

/-- A place further down is a source in the whole tree if it is one below the first step. -/
theorem isSourceAt_cons_cons {n c : Node} {i j : Nat} {place : List Nat}
    (hChild : n.children[i]? = some c) :
    IsSourceAt n (i :: j :: place) ↔ IsSourceAt c (j :: place) := by
  constructor
  · rintro ⟨above, k, parent, hEq, hAt, hSource⟩
    cases above with
    | nil => simp at hEq
    | cons first above =>
        rw [List.cons_append] at hEq
        obtain ⟨rfl, hBelow⟩ := List.cons.inj hEq
        exact ⟨above, k, parent, hBelow, by simpa [Node.at?, hChild] using hAt, hSource⟩
  · rintro ⟨above, k, parent, hEq, hAt, hSource⟩
    exact ⟨i :: above, k, parent, by simp [hEq], by simpa [Node.at?, hChild] using hAt, hSource⟩

/-! ## The resolved tree, place by place -/

section

variable (o : Origin)

@[simp] theorem children_resolveText (n : Node) : (resolveText o n).children = n.children := by
  unfold resolveText
  split <;> rfl

theorem resolveText_of_string?_eq_none {n : Node} (h : n.string? = none) : resolveText o n = n := by
  unfold resolveText
  split
  · simp [Node.string?, Node.kind] at h
  · rfl

/-- Only the value of a text changes. -/
theorem label_resolveText_of_string?_eq {n : Node} {v : String} (h : n.string? = some v) :
    ∃ lossy span arity, n.label = ⟨.string v lossy, span, arity⟩ ∧
      (resolveText o n).label = ⟨.string (resolved o v) lossy, span, arity⟩ := by
  obtain ⟨k, s, cs⟩ := n
  cases k
  case string value lossy =>
    obtain rfl : value = v := by simpa [Node.string?, Node.kind] using h
    exact ⟨lossy, s, cs.length, rfl, rfl⟩
  all_goals simp [Node.string?, Node.kind] at h

@[simp] theorem label_resolveSource (n : Node) : (resolveSource o n).label = n.label := by
  unfold resolveSource
  split <;> simp [Node.label, Node.kind, Node.span, Node.children]

theorem children_resolveSource (n : Node) (i : Nat) :
    (resolveSource o n).children[i]? =
      n.children[i]?.map fun c => if sourcePlace? n.kind = some i then resolveText o c else c := by
  unfold resolveSource
  split
  next j hPlace =>
    simp only [Node.children, hPlace, Option.some.injEq]
    rw [List.getElem?_modify]
    split <;> simp_all
  next hPlace => simp [hPlace]

theorem resolveTree_mk (k : Kind) (s : Span) (cs : List Node) :
    resolveTree o (.mk k s cs) = resolveSource o (.mk k s (cs.map (resolveTree o))) := by
  rw [resolveTree, Node.map, Node.mapAmong_eq_map]
  rfl

@[simp] theorem label_resolveTree (n : Node) : (resolveTree o n).label = n.label := by
  obtain ⟨k, s, cs⟩ := n
  rw [resolveTree_mk, label_resolveSource]
  simp [Node.label, Node.kind, Node.span, Node.children]

@[simp] theorem string?_resolveTree (n : Node) : (resolveTree o n).string? = n.string? := by
  have hKind : (resolveTree o n).kind = n.kind :=
    congrArg Node.Label.kind (label_resolveTree o n)
  rw [Node.string?, Node.string?, hKind]

theorem children_resolveTree (n : Node) (i : Nat) :
    (resolveTree o n).children[i]? = n.children[i]?.map fun c =>
      if sourcePlace? n.kind = some i then resolveText o (resolveTree o c)
      else resolveTree o c := by
  obtain ⟨k, s, cs⟩ := n
  rw [resolveTree_mk, children_resolveSource]
  simp only [Node.children, Node.kind, List.getElem?_map, Option.map_map]
  rfl

/-- Below the root it does not matter whether the root itself is resolved. -/
theorem at?_resolveText_cons (n : Node) (i : Nat) (place : List Nat) :
    (resolveText o n).at? (i :: place) = n.at? (i :: place) := by
  simp [Node.at?]

/-- The node at a place, resolved on its own. -/
theorem at?_resolveTree {n m : Node} {place : List Nat} (hAt : n.at? place = some m) :
    (IsSourceAt n place → (resolveTree o n).at? place = some (resolveText o (resolveTree o m))) ∧
      (¬ IsSourceAt n place → (resolveTree o n).at? place = some (resolveTree o m)) := by
  induction place generalizing n with
  | nil =>
      obtain rfl : n = m := by simpa [Node.at?] using hAt
      exact ⟨fun h => absurd h (not_isSourceAt_nil n), fun _ => rfl⟩
  | cons i place ih =>
      obtain ⟨c, hChild, hBelow⟩ := Option.bind_eq_some_iff.mp hAt
      have hStep : (resolveTree o n).at? (i :: place) =
          (if sourcePlace? n.kind = some i then resolveText o (resolveTree o c)
            else resolveTree o c).at? place := by
        simp [Node.at?, children_resolveTree, hChild]
      cases place with
      | nil =>
          obtain rfl : c = m := by simpa [Node.at?] using hBelow
          rw [hStep, isSourceAt_singleton, ← sourcePlace?_eq_some_iff]
          exact ⟨fun h => by rw [if_pos h]; rfl, fun h => by rw [if_neg h]; rfl⟩
      | cons j place =>
          rw [hStep, isSourceAt_cons_cons hChild]
          split
          · rw [at?_resolveText_cons]
            exact ih hBelow
          · exact ih hBelow

theorem at?_resolveTree_eq_none_iff {n : Node} {place : List Nat} :
    (resolveTree o n).at? place = none ↔ n.at? place = none := by
  induction place generalizing n with
  | nil => simp [Node.at?]
  | cons i place ih =>
      cases hChild : n.children[i]? with
      | none => simp [Node.at?, children_resolveTree, hChild]
      | some c =>
          have hResolved (m : Node) :
              (resolveText o m).at? place = none ↔ m.at? place = none := by
            cases place <;> simp [Node.at?]
          simp only [Node.at?, children_resolveTree, hChild, Option.map_some, Option.bind_some]
          split
          · rw [hResolved, ih]
          · exact ih

/-- **At a specifier stands a literal that differs in its value alone**, and its value is the
address that the specifier resolves to. -/
theorem labelAt?_resolveTree_of_isSpecifierAt {n : Node} {place : List Nat} {v : String}
    (h : IsSpecifierAt n place v) :
    ∃ lossy span arity, n.labelAt? place = some ⟨.string v lossy, span, arity⟩ ∧
      (resolveTree o n).labelAt? place = some ⟨.string (resolved o v) lossy, span, arity⟩ := by
  obtain ⟨hSource, m, hAt, hText⟩ := h
  obtain ⟨lossy, span, arity, hBefore, hAfter⟩ :=
    label_resolveText_of_string?_eq o ((string?_resolveTree o m).trans hText)
  rw [label_resolveTree] at hBefore
  refine ⟨lossy, span, arity, ?_, ?_⟩
  · rw [Node.labelAt?, hAt, Option.map_some, hBefore]
  · rw [Node.labelAt?, (at?_resolveTree o hAt).1 hSource, Option.map_some, hAfter]

/-- **Everywhere else stands what stood there.** -/
theorem labelAt?_resolveTree {n : Node} {place : List Nat}
    (h : ∀ v, ¬ IsSpecifierAt n place v) :
    (resolveTree o n).labelAt? place = n.labelAt? place := by
  unfold Node.labelAt?
  cases hAt : n.at? place with
  | none => rw [(at?_resolveTree_eq_none_iff o).mpr hAt]
  | some m =>
      by_cases hSource : IsSourceAt n place
      · have hNoText : m.string? = none := by
          cases hText : m.string? with
          | none => rfl
          | some v => exact absurd ⟨hSource, m, hAt, hText⟩ (h v)
        rw [(at?_resolveTree o hAt).1 hSource,
          resolveText_of_string?_eq_none o ((string?_resolveTree o m).trans hNoText)]
        simp
      · rw [(at?_resolveTree o hAt).2 hSource]
        simp

end

/-! ## The number of changes -/

/-- The place and the value of the specifier of a node. -/
def placedSpecifier? : List Nat × Node → Option (List Nat × String)
  | (above, n) => (sourcePlace? n.kind).bind fun i =>
      (n.child i).string?.map fun v => (above ++ [i], v)

/-- The specifiers of a tree with their places. -/
def placedSpecifiers (n : Node) : List (List Nat × String) := n.placed.filterMap placedSpecifier?

theorem placedSpecifier?_eq_some_iff {above place : List Nat} {n : Node} {v : String} :
    placedSpecifier? (above, n) = some (place, v) ↔
      ∃ i m, IsSource n.kind i ∧ place = above ++ [i] ∧ n.children[i]? = some m ∧
        m.string? = some v := by
  have hChild (i : Nat) : (n.child i).string? = some v ↔
      ∃ m, n.children[i]? = some m ∧ m.string? = some v := by
    rw [Node.child, List.getD_eq_getElem?_getD]
    cases n.children[i]? with
    | none => simp [Node.absent, Node.string?, Node.kind]
    | some m => simp
  simp only [placedSpecifier?, Option.bind_eq_some_iff, Option.map_eq_some_iff, Prod.mk.injEq,
    sourcePlace?_eq_some_iff]
  constructor
  · rintro ⟨i, hSource, _, hText, rfl, rfl⟩
    obtain ⟨m, hAt, hText⟩ := (hChild i).mp hText
    exact ⟨i, m, hSource, rfl, hAt, hText⟩
  · rintro ⟨i, m, hSource, rfl, hAt, hText⟩
    exact ⟨i, hSource, v, (hChild i).mpr ⟨m, hAt, hText⟩, rfl, rfl⟩

theorem mem_placedSpecifiers {n : Node} {place : List Nat} {v : String} :
    (place, v) ∈ placedSpecifiers n ↔ IsSpecifierAt n place v := by
  rw [placedSpecifiers, List.mem_filterMap]
  constructor
  · rintro ⟨⟨above, parent⟩, hMem, hSpecifier⟩
    obtain ⟨i, m, hSource, rfl, hChild, hText⟩ := placedSpecifier?_eq_some_iff.mp hSpecifier
    rw [Node.mem_placed] at hMem
    exact ⟨⟨above, i, parent, rfl, hMem, hSource⟩, m, by simp [Node.at?_concat, hMem, hChild],
      hText⟩
  · rintro ⟨⟨above, i, parent, rfl, hMem, hSource⟩, m, hAt, hText⟩
    have hChild : parent.children[i]? = some m := by simpa [Node.at?_concat, hMem] using hAt
    exact ⟨(above, parent), Node.mem_placed.mpr hMem,
      placedSpecifier?_eq_some_iff.mpr ⟨i, m, hSource, rfl, hChild, hText⟩⟩

theorem map_snd_placedSpecifiers (n : Node) : (placedSpecifiers n).map Prod.snd = specifiers n := by
  have hOne (p : List Nat × Node) : (placedSpecifier? p).map Prod.snd = specifier? p.2 := by
    obtain ⟨above, m⟩ := p
    simp only [placedSpecifier?, specifier?]
    cases sourcePlace? m.kind with
    | none => rfl
    | some i => simp [Function.comp_def]
  rw [placedSpecifiers, specifiers, ← Node.map_snd_placed, List.map_filterMap,
    List.filterMap_map]
  exact List.filterMap_congr fun p _ => hOne p

/-- A node has one specifier at most, so no place is listed twice. -/
theorem nodup_placedSpecifiers (n : Node) : ((placedSpecifiers n).map Prod.fst).Nodup := by
  refine List.pairwise_map.mpr (List.pairwise_filterMap.mpr ?_)
  refine (List.pairwise_map.mp n.nodup_placed).imp ?_
  rintro ⟨above, m⟩ ⟨above', m'⟩ hPlaces ⟨place, v⟩ hLeft ⟨place', v'⟩ hRight (rfl : place = place')
  obtain ⟨i, _, _, rfl, _⟩ := placedSpecifier?_eq_some_iff.mp hLeft
  obtain ⟨j, _, _, hSame, _⟩ := placedSpecifier?_eq_some_iff.mp hRight
  exact hPlaces (List.append_inj_left' hSame rfl)

/-- **The number of changes is that of the places whose specifier resolves to something else.** -/
theorem exists_places_changes (o : Origin) (n : Node) :
    ∃ places : List (List Nat), places.Nodup ∧ changes o n = places.length ∧
      ∀ place, place ∈ places ↔ ∃ v u, IsSpecifierAt n place v ∧ o.resolve v = some u ∧ u ≠ v := by
  refine ⟨((placedSpecifiers n).filter fun p => resolved o p.2 != p.2).map Prod.fst,
    (nodup_placedSpecifiers n).sublist (List.filter_sublist.map _), ?_, fun place => ?_⟩
  · rw [changes, ← map_snd_placedSpecifiers, List.countP_map, List.length_map,
      List.countP_eq_length_filter]
    rfl
  · have hChanges (v : String) : resolved o v ≠ v ↔ ∃ u, o.resolve v = some u ∧ u ≠ v := by
      rw [resolved]
      cases o.resolve v <;> simp
    simp only [List.mem_map, List.mem_filter, bne_iff_ne, Prod.exists, exists_and_right,
      exists_eq_right, mem_placedSpecifiers, hChanges]
    simp only [exists_and_left]

/-- **Resolving the imports of a script is a map over its specifiers.**  Each one becomes the
address that it resolves to, if there is one; nothing else changes, at any depth; and the number
that is returned is that of the specifiers that have become something else. -/
theorem resolveImports_maps_specifiers (o : Origin) (p : Program) :
    (resolveImports o p).1.comments = p.comments ∧
      (∀ place v, IsSpecifierAt p.root place v → ∃ lossy span arity,
        p.root.labelAt? place = some ⟨.string v lossy, span, arity⟩ ∧
          (resolveImports o p).1.root.labelAt? place =
            some ⟨.string ((o.resolve v).getD v) lossy, span, arity⟩) ∧
      (∀ place, (∀ v, ¬ IsSpecifierAt p.root place v) →
        (resolveImports o p).1.root.labelAt? place = p.root.labelAt? place) ∧
      ∃ places : List (List Nat), places.Nodup ∧ (resolveImports o p).2 = places.length ∧
        ∀ place, place ∈ places ↔
          ∃ v u, IsSpecifierAt p.root place v ∧ o.resolve v = some u ∧ u ≠ v :=
  ⟨rfl, fun _ _ h => labelAt?_resolveTree_of_isSpecifierAt o h,
    fun _ h => labelAt?_resolveTree o h, exists_places_changes o p.root⟩

/-! ## Resolving twice -/

/-- **Nothing is changed exactly if the tree stays the same.** -/
theorem changes_eq_zero_iff (o : Origin) (n : Node) :
    changes o n = 0 ↔ resolveTree o n = n := by
  obtain ⟨places, _, hCount, hMem⟩ := exists_places_changes o n
  rw [hCount, List.length_eq_zero_iff]
  constructor
  · rintro rfl
    refine Node.eq_of_labelAt?_eq fun place => ?_
    by_cases hSpecifier : ∃ v, IsSpecifierAt n place v
    · obtain ⟨v, hSpecifier⟩ := hSpecifier
      obtain ⟨lossy, span, arity, hBefore, hAfter⟩ :=
        labelAt?_resolveTree_of_isSpecifierAt o hSpecifier
      have hSame : resolved o v = v := by
        by_contra hOther
        cases hResolve : o.resolve v with
        | none => exact hOther (by rw [resolved, hResolve, Option.getD_none])
        | some u =>
            rw [resolved, hResolve, Option.getD_some] at hOther
            simpa using (hMem place).mpr ⟨v, u, hSpecifier, hResolve, hOther⟩
      rw [hBefore, hAfter, hSame]
    · exact labelAt?_resolveTree o fun v h => hSpecifier ⟨v, h⟩
  · intro hTree
    refine List.eq_nil_iff_forall_not_mem.mpr fun place hPlace => ?_
    obtain ⟨v, u, hSpecifier, hResolve, hOther⟩ := (hMem place).mp hPlace
    obtain ⟨lossy, span, arity, hBefore, hAfter⟩ :=
      labelAt?_resolveTree_of_isSpecifierAt o hSpecifier
    rw [hTree, hBefore, resolved, hResolve] at hAfter
    simp only [Option.getD_some, Option.some.injEq, Node.Label.mk.injEq, Kind.string.injEq]
      at hAfter
    exact hOther hAfter.1.1.symm

/-! ## The resolved script, resolved again -/

theorem mem_specifiers {n : Node} {v : String} :
    v ∈ specifiers n ↔ ∃ place, IsSpecifierAt n place v := by
  rw [← map_snd_placedSpecifiers]
  simp [mem_placedSpecifiers]

/-- A text says of no other node where a module is. -/
theorem isSource_kind_resolveText (o : Origin) (n : Node) (i : Nat) :
    IsSource (resolveText o n).kind i ↔ IsSource n.kind i := by
  cases hText : n.string? with
  | none => rw [resolveText_of_string?_eq_none o hText]
  | some v =>
      obtain ⟨lossy, span, arity, hBefore, hAfter⟩ := label_resolveText_of_string?_eq o hText
      have hOld : n.kind = .string v lossy := congrArg Node.Label.kind hBefore
      have hNew : (resolveText o n).kind = .string (resolved o v) lossy :=
        congrArg Node.Label.kind hAfter
      rw [hOld, hNew]
      exact ⟨nofun, nofun⟩

theorem isSourceAt_of_resolveTree {o : Origin} {n : Node} {place : List Nat}
    (h : IsSourceAt (resolveTree o n) place) : IsSourceAt n place := by
  obtain ⟨above, i, parent, rfl, hParent, hSource⟩ := h
  cases hAt : n.at? above with
  | none => simp [(at?_resolveTree_eq_none_iff o).mpr hAt] at hParent
  | some q =>
      refine ⟨above, i, q, rfl, hAt, ?_⟩
      have hKind : (resolveTree o q).kind = q.kind :=
        congrArg Node.Label.kind (label_resolveTree o q)
      obtain ⟨hText, hTree⟩ := at?_resolveTree o hAt
      by_cases hAbove : IsSourceAt n above
      · obtain rfl := Option.some.inj (hParent.symm.trans (hText hAbove))
        rwa [isSource_kind_resolveText, hKind] at hSource
      · obtain rfl := Option.some.inj (hParent.symm.trans (hTree hAbove))
        rwa [hKind] at hSource

/-- The specifiers of a resolved script are what the specifiers resolve to. -/
theorem of_isSpecifierAt_resolveTree {o : Origin} {n : Node} {place : List Nat} {w : String}
    (h : IsSpecifierAt (resolveTree o n) place w) :
    ∃ v, IsSpecifierAt n place v ∧ resolved o v = w := by
  obtain ⟨hSource, m, hAt, hText⟩ := h
  have hOld := isSourceAt_of_resolveTree hSource
  cases hNode : n.at? place with
  | none => simp [(at?_resolveTree_eq_none_iff o).mpr hNode] at hAt
  | some q =>
      obtain rfl := Option.some.inj (hAt.symm.trans ((at?_resolveTree o hNode).1 hOld))
      cases hValue : q.string? with
      | none =>
          have hNone := (string?_resolveTree o q).trans hValue
          rw [resolveText_of_string?_eq_none o hNone, hNone] at hText
          simp at hText
      | some v =>
          obtain ⟨lossy, span, arity, _, hAfter⟩ :=
            label_resolveText_of_string?_eq o ((string?_resolveTree o q).trans hValue)
          have hNew : (resolveText o (resolveTree o q)).kind = .string (resolved o v) lossy :=
            congrArg Node.Label.kind hAfter
          rw [Node.string?, hNew] at hText
          exact ⟨v, ⟨hOld, q, hNode, hValue⟩, Option.some.inj hText⟩

/-- **Resolving imports once is enough.**  Below an origin with a web scheme the address that a
specifier resolves to resolves to nothing, unless the specifier is marked twice; and without such
a specifier nothing changes when the imports of a script are resolved again. -/
theorem resolveImports_resolveImports {input : String} {o : Origin}
    (hOrigin : Origin.parse input = .ok o) (hWeb : o.IsWeb) :
    (∀ v u, o.resolve v = some u → (o.resolve u = none ↔ isMarkedTwice v.toList = false)) ∧
      ∀ p : Program, (∀ v ∈ specifiers p.root, isMarkedTwice v.toList = false) →
        resolveImports o (resolveImports o p).1 = ((resolveImports o p).1, 0) := by
  have hOnce (v u : String) (hResolve : o.resolve v = some u) :
      o.resolve u = none ↔ isMarkedTwice v.toList = false := by
    obtain ⟨address, hAddress, rfl⟩ := Option.map_eq_some_iff.mp hResolve
    rw [← Origin.resolveChars_resolveChars (Origin.isDirectory_of_parse hOrigin hWeb) hAddress]
    simp [Origin.resolve]
  refine ⟨hOnce, fun p hMarked => ?_⟩
  have hSame : ∀ w ∈ specifiers (resolveTree o p.root), resolved o w = w := by
    intro w hMem
    obtain ⟨place, hSpecifier⟩ := mem_specifiers.mp hMem
    obtain ⟨v, hOld, rfl⟩ := of_isSpecifierAt_resolveTree hSpecifier
    have hNotTwice := hMarked v (mem_specifiers.mpr ⟨place, hOld⟩)
    cases hResolve : o.resolve v with
    | none => simp [resolved, hResolve]
    | some u => simp [resolved, hResolve, (hOnce v u hResolve).mpr hNotTwice]
  have hNone : changes o (resolveTree o p.root) = 0 := by
    rw [changes, List.countP_eq_zero]
    intro w hMem
    simp [hSame w hMem]
  simp [resolveImports, hNone, (changes_eq_zero_iff o _).mp hNone]

/-- An import of everything from a module. -/
def importOf (specifier : String) : Node :=
  .made (.importFrom false none) [.absent, .made (.string specifier false), .absent]

/-- Below `https://cdn.example` the package `npm:lib` is resolved once. -/
theorem resolveImports_resolveImports_npm_lib :
    ∃ o, Origin.parse "https://cdn.example" = .ok o ∧ o.IsWeb ∧
      o.resolve "npm:lib" = some "https://cdn.example/lib" ∧
      o.resolve "https://cdn.example/lib" = none ∧
      resolveImports o (resolveImports o { root := importOf "npm:lib" }).1 =
        ((resolveImports o { root := importOf "npm:lib" }).1, 0) := by
  have hSome : (Origin.parse "https://cdn.example").toOption.any fun o =>
      o.base.scheme = "https".toList ∧ o.resolve "npm:lib" = some "https://cdn.example/lib" := by
    decide +kernel
  cases hParse : Origin.parse "https://cdn.example" with
  | error e => simp [hParse, Except.toOption] at hSome
  | ok o =>
      simp only [hParse, Except.toOption, Option.any_some, decide_eq_true_eq] at hSome
      obtain ⟨hScheme, hResolve⟩ := hSome
      have hMarked : ∀ v ∈ specifiers (importOf "npm:lib"), isMarkedTwice v.toList = false := by
        decide +kernel
      obtain ⟨hOnce, hTwice⟩ := resolveImports_resolveImports hParse (Or.inr hScheme)
      exact ⟨o, rfl, Or.inr hScheme, hResolve, (hOnce _ _ hResolve).mpr (by decide +kernel),
        hTwice _ hMarked⟩

/-! ## A specifier that is resolved again -/

/-- **Not every script stays as it is**: below `https://cdn.example` the package `npm:npm:lib`
becomes `npm:lib`, and that becomes an address below the origin. -/
theorem exists_resolveImports_twice_changes :
    ∃ o, Origin.parse "https://cdn.example" = .ok o ∧ o.base.scheme = "https".toList ∧
      o.resolve "npm:npm:lib" = some "npm:lib" ∧
      o.resolve "npm:lib" = some "https://cdn.example/lib" ∧
      (resolveImports o (resolveImports o { root := importOf "npm:npm:lib" }).1).2 = 1 := by
  have hSome : (Origin.parse "https://cdn.example").toOption.any fun o =>
      o.base.scheme = "https".toList ∧ o.resolve "npm:npm:lib" = some "npm:lib" ∧
        o.resolve "npm:lib" = some "https://cdn.example/lib" ∧
        (resolveImports o (resolveImports o { root := importOf "npm:npm:lib" }).1).2 = 1 := by
    decide +kernel
  cases hParse : Origin.parse "https://cdn.example" with
  | error e => simp [hParse, Except.toOption] at hSome
  | ok o =>
      simp only [hParse, Except.toOption, Option.any_some, decide_eq_true_eq] at hSome
      exact ⟨o, rfl, hSome⟩

end PagePreview.Import
