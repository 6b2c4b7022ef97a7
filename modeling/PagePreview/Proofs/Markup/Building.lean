import PagePreview.Markup.Builder

/-!
# Building a tree, step by step

`Builder.run` takes one token after the other off a page.  `run_cons` is its
one equation and `run_preserves` its induction: what every single token keeps,
a whole page keeps.

What a builder has built shows in `Builder.finish`.  Only two things ever
happen to it: a node is added at the end of the innermost open element, or
that element's last text becomes longer.  Opening an element adds it empty,
and closing one changes nothing (`finish_close`), since `finish` closes
everything anyway.
-/

namespace PagePreview.Markup

def Node.isText : Node → Bool
  | .text _ => true
  | .element .. => false
  | .comment _ => false

theorem exists_text_of_head?_isText {nodes : List Node}
    (h : nodes.head?.any Node.isText = true) : ∃ t rest, nodes = .text t :: rest := by
  cases nodes with
  | nil => simp at h
  | cons node rest =>
      cases node with
      | text t => exact ⟨t, rest, rfl⟩
      | element _ _ _ => simp [Node.isText] at h
      | comment _ => simp [Node.isText] at h

namespace Builder

@[simp] theorem run_nil (b : Builder) : b.run [] = b := by rw [run]

theorem run_cons (b : Builder) (c : Char) (cs : List Char) :
    b.run (c :: cs) =
      (b.add (Token.next b.inForeign c cs).1).run (Token.next b.inForeign c cs).2 := by
  rw [run]

/-- What one token keeps, a page keeps. -/
theorem run_preserves {P : Builder → Prop}
    (step : ∀ b c cs, P b → P (b.add (Token.next b.inForeign c cs).1))
    (b : Builder) (cs : List Char) (h : P b) : P (b.run cs) := by
  fun_induction run b cs with
  | case1 b => exact h
  | case2 b c cs token rest hNext ih =>
      refine ih ?_
      have hStep := step b c cs h
      rwa [hNext] at hStep

/-! ## Texts -/

theorem addText_of_text {b : Builder} {t : String} {rest : List Node}
    (h : b.nodes = .text t :: rest) (cs : List Char) :
    b.addText cs = { b with nodes := .text (t ++ String.ofList cs) :: rest } := by
  simp [addText, h]

theorem addText_of_not_text {b : Builder} (h : b.nodes.head?.any Node.isText = false)
    (cs : List Char) : b.addText cs = b.addNode (.text (String.ofList cs)) := by
  unfold addText
  split
  · next t rest hNodes => simp [hNodes, Node.isText] at h
  · rfl

/-- A text may come in pieces. -/
theorem addText_addText (b : Builder) (xs ys : List Char) :
    (b.addText xs).addText ys = b.addText (xs ++ ys) := by
  cases h : b.nodes.head?.any Node.isText with
  | false =>
      rw [addText_of_not_text h, addText_of_not_text h, addText_of_text rfl,
        String.ofList_append]
      rfl
  | true =>
      obtain ⟨t, rest, hNodes⟩ := exists_text_of_head?_isText h
      rw [addText_of_text hNodes, addText_of_text hNodes, addText_of_text rfl,
        String.ofList_append, String.append_assoc]

@[simp] theorem path_addText (b : Builder) (cs : List Char) : (b.addText cs).path = b.path := by
  unfold addText
  split <;> rfl

@[simp] theorem doctype_addText (b : Builder) (cs : List Char) :
    (b.addText cs).doctype = b.doctype := by
  unfold addText
  split <;> rfl

@[simp] theorem path_addNode (b : Builder) (node : Node) : (b.addNode node).path = b.path := rfl

@[simp] theorem path_declaration (b : Builder) (cs : List Char) :
    (b.declaration cs).path = b.path := by
  unfold declaration
  split <;> rfl

@[simp] theorem nodes_declaration (b : Builder) (cs : List Char) :
    (b.declaration cs).nodes = b.nodes := by
  unfold declaration
  split <;> rfl

/-! ## Closing elements -/

/-- Closing some of the open elements is part of closing them all. -/
theorem closeAll_closeThrough (name : String) (path : List OpenElement) (nodes : List Node) :
    closeAll (closeThrough name path nodes).1 (closeThrough name path nodes).2 =
      closeAll path nodes := by
  induction path generalizing nodes with
  | nil => rfl
  | cons o path ih =>
      simp only [closeThrough]
      split
      · rfl
      · exact ih _

/-- **Closing an element changes nothing that has been built.** -/
@[simp] theorem finish_close (b : Builder) (name : String) : (b.close name).finish = b.finish := by
  unfold close
  split
  · exact congrArg List.reverse (closeAll_closeThrough name b.path b.nodes)
  · rfl

/-- Closing never opens. -/
theorem mem_path_of_mem_closeThrough {name : String} {path : List OpenElement}
    {nodes : List Node} {o : OpenElement} (h : o ∈ (closeThrough name path nodes).1) :
    o ∈ path := by
  induction path generalizing nodes with
  | nil => simp [closeThrough] at h
  | cons p path ih =>
      simp only [closeThrough] at h
      split at h
      · exact List.mem_cons_of_mem p h
      · exact List.mem_cons_of_mem p (ih h)

theorem mem_path_of_mem_close {b : Builder} {name : String} {o : OpenElement}
    (h : o ∈ (b.close name).path) : o ∈ b.path := by
  unfold close at h
  split at h
  · exact mem_path_of_mem_closeThrough h
  · exact h

theorem finish_openElement (b : Builder) (name : String) (attributes : List Attribute) :
    (b.openElement name attributes).finish = (b.addNode (.element name attributes [])).finish :=
  rfl

/-- A start tag adds its element, open or complete, to what has been built. -/
theorem finish_startTag (b : Builder) (name : String) (body : TagBody) :
    ∃ d : Builder, d.finish = b.finish ∧ (∀ o ∈ d.path, o ∈ b.path) ∧
      (b.startTag name body).finish = (d.addNode (.element name body.attributes [])).finish := by
  refine ⟨if name == "body" then b.close "head" else b, ?_, ?_, ?_⟩
  · split <;> simp
  · split
    · exact fun o ho => mem_path_of_mem_close ho
    · exact fun o ho => ho
  · unfold startTag
    dsimp only
    split
    all_goals
      split
      · rfl
      · exact finish_openElement ..

/-! ## The document type -/

theorem doctype_close (b : Builder) (name : String) : (b.close name).doctype = b.doctype := by
  unfold close
  split <;> rfl

theorem doctype_startTag (b : Builder) (name : String) (body : TagBody) :
    (b.startTag name body).doctype = b.doctype := by
  have hBody : (if name == "body" then b.close "head" else b).doctype = b.doctype := by
    split
    · exact doctype_close b "head"
    · rfl
  unfold startTag
  dsimp only
  generalize (if name == "body" then b.close "head" else b) = d at hBody ⊢
  split <;> exact hBody

/-- The document type is settled by the first declaration of one. -/
theorem doctype_add (b : Builder) (token : Token) :
    (b.add token).doctype = b.doctype ∨
      ∃ cs, token = .declaration cs ∧ (b.add token).doctype = Doctype.ofDeclaration? cs := by
  cases token with
  | text cs => exact Or.inl (doctype_addText b cs)
  | comment cs => exact Or.inl rfl
  | declaration cs =>
      change (b.declaration cs).doctype = _ ∨ _
      unfold declaration
      split
      · exact Or.inl rfl
      · next hNone => exact Or.inr ⟨cs, rfl, by simp [add, declaration, hNone]⟩
  | startTag name body => exact Or.inl (doctype_startTag b name body)
  | endTag name => exact Or.inl (doctype_close b name)
  | rawText name attributes cs => exact Or.inl rfl

end Builder

end PagePreview.Markup
