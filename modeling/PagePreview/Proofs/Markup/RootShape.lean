import PagePreview.Proofs.Markup.Elements

/-!
# The root of a page begins with its head

`normalize` builds the root of a page on four routes: around an `html`
element, around a head or a body that has none, around neither, and with a
head added at last.  On each of them the head ends up as the first element
of the root, with at most texts and comments in front of it.

`Element.HeadFirst` names that shape and `headFirst_normalize` is the result.
`headFirst_hoistIntoHead` is the step that makes it so; the other steps of
`normalize` only have to keep it.
-/

namespace PagePreview.Markup

/-- The nodes behind the first head among the children of a root; all of them
if there is no head. -/
def behindHead (children : List Node) : List Node :=
  match breakAt? "head" children with
  | some (_, _, after) => after
  | none => children

/-- The root has a head and no element in front of it. -/
def Element.HeadFirst (html : Element) : Prop :=
  ∃ before head after, breakAt? "head" html.children = some (before, head, after) ∧
    ∀ n ∈ before, n.isElement = false

instance (html : Element) : Decidable html.HeadFirst :=
  match h : breakAt? "head" html.children with
  | none => isFalse (by simp [Element.HeadFirst, h])
  | some (before, head, after) =>
      decidable_of_iff (∀ n ∈ before, n.isElement = false)
        ⟨fun hBefore => ⟨before, head, after, h, hBefore⟩, by
          rintro ⟨kept, _, _, hBreak, hKept⟩
          have hEq := Option.some.inj (h.symm.trans hBreak)
          simp only [Prod.mk.injEq] at hEq
          exact hEq.1 ▸ hKept⟩

theorem Element.HeadFirst.hasChild {html : Element} (h : html.HeadFirst) :
    html.hasChild "head" = true := by
  obtain ⟨before, head, after, hBreak, -⟩ := h
  exact hasChild_eq_true_iff.mpr ⟨before, head, after, hBreak⟩

/-- A root of that shape is cut at its head by any list it is cut into. -/
theorem Element.HeadFirst.of_eq {html : Element} (before : List Node) (head : Element)
    (after : List Node) (hEq : html.children = before ++ head.toNode :: after)
    (hName : head.name = "head") (hBefore : ∀ n ∈ before, n.isElement = false) : html.HeadFirst :=
  ⟨before, head, after, breakAt?_eq_some_iff.mpr ⟨hEq, hName, fun n hn =>
    isNamed_eq_false_of_not_isElement (hBefore n hn) "head"⟩, hBefore⟩

/-- A head is only added where there is none. -/
theorem ensureHead_of_hasChild {html : Element} (h : html.hasChild "head" = true) :
    ensureHead html = html := if_pos h

theorem ensureHead_of_not_hasChild {html : Element} (h : html.hasChild "head" = false) :
    ensureHead html = html.prepend [.element "head" [] []] := by
  simp [ensureHead, h]

theorem hasChild_ensureHead (html : Element) : (ensureHead html).hasChild "head" = true := by
  cases h : html.hasChild "head" with
  | true => rw [ensureHead_of_hasChild h, h]
  | false =>
      rw [ensureHead_of_not_hasChild h]
      simp [Element.hasChild, Element.prepend]

/-- A head that is added stands in front of everything. -/
theorem headFirst_prepend_head (html : Element) :
    (html.prepend [.element "head" [] []]).HeadFirst :=
  Element.HeadFirst.of_eq [] ⟨"head", [], []⟩ html.children rfl rfl (by simp)

/-! ## Moving elements into the head -/

/-- What hoisting leaves of a root that has a head: the head, holding what was
moved and what it held, and behind it what stood behind it. -/
theorem breakAt?_hoistIntoHead {html head : Element} {before after : List Node}
    (h : breakAt? "head" html.children = some (before, head, after)) :
    ∃ kept moved,
      breakAt? "head" (hoistIntoHead html).children = some (kept, head.prepend moved, after) ∧
        (∀ n ∈ kept, n.isElement = false) ∧ elementsOf moved = elementsOf before := by
  obtain ⟨-, hName, hBefore⟩ := breakAt?_eq_some_iff.mp h
  by_cases hAny : before.any Node.isElement = true
  · refine ⟨[], before.filter Node.isContent, ?_, by simp, elementsOf_filter_isContent before⟩
    rw [hoistIntoHead, h]
    simp only [hAny, if_true]
    exact breakAt?_eq_some_iff.mpr ⟨rfl, hName, by simp⟩
  · have hNone : ∀ n ∈ before, n.isElement = false := by simpa using hAny
    refine ⟨before, [], ?_, hNone, by rw [elementsOf_eq_nil hNone, elementsOf_nil]⟩
    rw [hoistIntoHead, h]
    simp only [hAny]
    exact h

theorem headFirst_hoistIntoHead {html : Element} (h : html.hasChild "head" = true) :
    (hoistIntoHead html).HeadFirst := by
  obtain ⟨before, head, after, hBreak⟩ := hasChild_eq_true_iff.mp h
  obtain ⟨kept, moved, hHoisted, hKept, -⟩ := breakAt?_hoistIntoHead hBreak
  exact ⟨kept, head.prepend moved, after, hHoisted, hKept⟩

theorem hoistIntoHead_of_not_hasChild {html : Element} (h : html.hasChild "head" = false) :
    hoistIntoHead html = html := by
  rw [hoistIntoHead, hasChild_eq_false_iff.mp h]

@[simp] theorem name_hoistIntoHead (html : Element) :
    (hoistIntoHead html).name = html.name := by
  unfold hoistIntoHead
  split
  · rfl
  · split <;> rfl

@[simp] theorem name_ensureHead (html : Element) : (ensureHead html).name = html.name := by
  unfold ensureHead
  split <;> rfl

/-! ## What keeps the shape -/

/-- Changing the content of the head keeps the head where it is. -/
theorem Element.HeadFirst.changeHead {html : Element} (h : html.HeadFirst)
    (nodes : List Node) : (html.changeChild "head" (·.prepend nodes)).HeadFirst := by
  obtain ⟨before, head, after, hBreak, hBefore⟩ := h
  have hName : head.name = "head" := (breakAt?_eq_some_iff.mp hBreak).2.1
  exact .of_eq before (head.prepend nodes) after (changeFirst_of_breakAt? hBreak _) hName hBefore

/-- A first body is looked for behind the head. -/
theorem breakAt?_body_of_headFirst {html head : Element} {before after : List Node}
    (hBreak : breakAt? "head" html.children = some (before, head, after))
    (hBefore : ∀ n ∈ before, n.isElement = false) :
    breakAt? "body" html.children =
      (breakAt? "body" after).map fun (x, body, y) => (before ++ head.toNode :: x, body, y) := by
  obtain ⟨hEq, hName, -⟩ := breakAt?_eq_some_iff.mp hBreak
  have hFront : ∀ n ∈ before, n.isNamed "body" = false := fun n hn =>
    isNamed_eq_false_of_not_isElement (hBefore n hn) "body"
  cases hBody : breakAt? "body" after with
  | none =>
      refine breakAt?_eq_none_iff.mpr ?_
      simpa [hEq, hName, or_imp, forall_and] using And.intro hFront (breakAt?_eq_none_iff.mp hBody)
  | some found =>
      obtain ⟨x, body, y⟩ := found
      obtain ⟨hAfter, hBodyName, hx⟩ := breakAt?_eq_some_iff.mp hBody
      refine breakAt?_eq_some_iff.mpr ⟨by simp [hEq, hAfter], hBodyName, ?_⟩
      simpa [hName, or_imp, forall_and] using And.intro hFront hx

/-- Nodes put at the end of the body, or of the page, stay behind the head. -/
theorem Element.HeadFirst.appendToBody {html : Element} (h : html.HeadFirst)
    (nodes : List Node) : (Markup.appendToBody html nodes).HeadFirst := by
  obtain ⟨before, head, after, hBreak, hBefore⟩ := h
  obtain ⟨hEq, hName, -⟩ := breakAt?_eq_some_iff.mp hBreak
  have hBody := breakAt?_body_of_headFirst hBreak hBefore
  cases hAfter : breakAt? "body" after with
  | none =>
      have hNone : html.hasChild "body" = false :=
        hasChild_eq_false_iff.mpr (by rw [hBody, hAfter]; rfl)
      rw [Markup.appendToBody, hNone]
      exact .of_eq before head (after ++ nodes) (by simp [Element.append, hEq]) hName hBefore
  | some found =>
      obtain ⟨x, body, y⟩ := found
      rw [hAfter] at hBody
      have hSome : html.hasChild "body" = true := hasChild_eq_true_iff.mpr ⟨_, _, _, hBody⟩
      rw [Markup.appendToBody, hSome]
      refine .of_eq before head (x ++ (body.append nodes).toNode :: y) ?_ hName hBefore
      simp [Element.changeChild, changeFirst_of_breakAt? hBody]

@[simp] theorem name_appendToBody (html : Element) (nodes : List Node) :
    (appendToBody html nodes).name = html.name := by
  unfold appendToBody
  split <;> rfl

@[simp] theorem name_changeChild (html : Element) (name : String) (change : Element → Element) :
    (html.changeChild name change).name = html.name := rfl

/-! ## The root of every page -/

@[simp] theorem name_wrapInHtml (nodes : List Node) : (wrapInHtml nodes).name = "html" := by
  unfold wrapInHtml
  split <;> simp

theorem name_normalize (nodes : List Node) : (normalize nodes).name = "html" := by
  unfold normalize
  split
  · simp
  · next before html after hBreak => simpa using (breakAt?_eq_some_iff.mp hBreak).2.1

/-- A page that marks no head gets one in front. -/
private theorem headFirst_ensureHead_wrapInHtml (nodes : List Node) :
    (ensureHead (wrapInHtml nodes)).HeadFirst := by
  cases h : (wrapInHtml nodes).hasChild "head" with
  | false =>
      rw [ensureHead_of_not_hasChild h]
      exact headFirst_prepend_head _
  | true =>
      rw [ensureHead_of_hasChild h]
      unfold wrapInHtml at h ⊢
      split
      · next hStructure =>
          rw [if_pos hStructure] at h
          generalize (⟨"html", [], nodes.filter Node.isContent⟩ : Element) = html at h ⊢
          cases hHead : html.hasChild "head" with
          | true => exact headFirst_hoistIntoHead hHead
          | false =>
              rw [hoistIntoHead_of_not_hasChild hHead, hHead] at h
              exact absurd h (by simp)
      · exact .of_eq [] ⟨"head", [], _⟩ _ rfl rfl (by simp)

/-- **The root of a page has a head that no element precedes**, whatever nodes
the page is made of. -/
theorem headFirst_normalize (nodes : List Node) : (normalize nodes).HeadFirst := by
  unfold normalize
  split
  · exact headFirst_ensureHead_wrapInHtml nodes
  · next before html after _ =>
      have hHoisted := headFirst_hoistIntoHead (hasChild_ensureHead html)
      have hAppended := (hHoisted.changeHead (before.filter Node.isContent)).appendToBody
        (after.filter Node.isContent)
      rw [ensureHead_of_hasChild hAppended.hasChild]
      exact hAppended

/-! ## A root of that shape is left alone -/

theorem hoistIntoHead_of_headFirst {html : Element} (h : html.HeadFirst) :
    hoistIntoHead html = html := by
  obtain ⟨before, head, after, hBreak, hBefore⟩ := h
  have hNone : before.any Node.isElement = false := by simpa using hBefore
  rw [hoistIntoHead, hBreak]
  simp [hNone]

/-- A change that changes nothing. -/
theorem changeChild_of_eq_self {change : Element → Element} (h : ∀ e, change e = e)
    (html : Element) (name : String) : html.changeChild name change = html := by
  unfold Element.changeChild
  cases hBreak : breakAt? name html.children with
  | none => rw [changeFirst_of_breakAt?_eq_none hBreak]
  | some found =>
      obtain ⟨before, e, after⟩ := found
      rw [changeFirst_of_breakAt? hBreak, h, ← (breakAt?_eq_some_iff.mp hBreak).1]

theorem appendToBody_nil (html : Element) : appendToBody html [] = html := by
  unfold appendToBody
  split
  · exact changeChild_of_eq_self (fun e => by simp [Element.append]) html "body"
  · simp [Element.append]

/-- What follows a root that begins with its head goes to the end of its body, and nothing else
happens if only comments and blank texts stand in front of it. -/
theorem normalize_of_breakAt? {nodes before after : List Node} {root : Element}
    (hBreak : breakAt? "html" nodes = some (before, root, after)) (h : root.HeadFirst)
    (hBlank : ∀ n ∈ before, n.isContent = false) :
    normalize nodes = appendToBody root (after.filter Node.isContent) := by
  have hFilter : before.filter Node.isContent = [] := by simpa using hBlank
  have hPrepend : ∀ e : Element, e.prepend [] = e := fun _ => rfl
  rw [normalize, hBreak]
  simp only [hFilter]
  rw [ensureHead_of_hasChild h.hasChild, hoistIntoHead_of_headFirst h,
    changeChild_of_eq_self hPrepend, ensureHead_of_hasChild (h.appendToBody _).hasChild]

/-- **Normalising changes nothing about a root that begins with its head**, if
only comments and blank texts stand in front of it. -/
theorem normalize_of_headFirst {root : Element} (h : root.HeadFirst) (hName : root.name = "html")
    {before : List Node} (hBlank : ∀ n ∈ before, n.isContent = false) :
    normalize (before ++ [root.toNode]) = root := by
  have hBreak : breakAt? "html" (before ++ [root.toNode]) = some (before, root, []) := by
    refine breakAt?_eq_some_iff.mpr ⟨rfl, hName, fun n hn => ?_⟩
    refine isNamed_eq_false_of_not_isElement ?_ "html"
    have hn := hBlank n hn
    cases n with
    | element _ _ _ => simp at hn
    | text _ => rfl
    | comment _ => rfl
  rw [normalize_of_breakAt? hBreak h hBlank, List.filter_nil, appendToBody_nil]

end PagePreview.Markup
