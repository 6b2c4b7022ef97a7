import PagePreview.Script.Numeral
import PagePreview.Script.Printer.Output

/-!
# Printing expressions

An expression is printed for a `Place`, which says how tightly it has to
bind there and what must not stand there without parentheses. What must not
stand there holds for the parts of a node as well, even for the statements of
a function, until a part is printed for a place of its own. Parentheses of the
source are not printed; those that are needed are put in again.

Lists of more than two elements and objects of more than one property are
spread over several lines.
-/

namespace PagePreview.Script

/-- What is asked of an expression. -/
structure Place where
  /-- It is put in parentheses unless it binds more tightly than this. -/
  level : Level := Level.lowest
  /-- Whether the operator `in` needs parentheses. -/
  noIn : Bool := false
  /-- Whether calls need parentheses. -/
  noCall : Bool := false
  /-- Whether a part of a type stands there. -/
  inType : Bool := false

namespace Place

/-- A place that asks for a level and nothing else. -/
def at_ (level : Level) : Place := { level }

/-- The same place with another level. -/
def asking (p : Place) (level : Level) : Place := { p with level }

/-- The same place for parts that bind in any way. -/
def around (p : Place) : Place := p.asking Level.lowest

/-- A place that asks for a level, and for parentheses around `in` where `p` does. -/
def keepingIn (p : Place) (level : Level) : Place := { level, noIn := p.noIn }

/-- A place that asks for a level, and for parentheses around calls where `p` does. -/
def keepingCall (p : Place) (level : Level) : Place := { level, noCall := p.noCall }

end Place

/-- How the parts of a node are printed. -/
abbrev Shapes := Node → Place → Writer Unit

namespace Printer

open Writer

/-! ## Literals -/

/-- A number in its shortest form. In types it stays as it is written. -/
def number (text : String) (p : Place) : Writer Unit := do
  if p.inType then put text
  else
    gap
    let shown := Numeral.shortest (Numeral.value text)
    putChars shown
    if shown.all Char.isDigit then modify fun o => { o with wholeEnd := some o.length }

def pattern (body flags : String) : Writer Unit := do
  match (← get).text with
  | '/' :: _ => space
  | '<' :: _ => if Text.startsWithNoCase "script".toList body.toList then space
  | _ => pure ()
  put ("/" ++ body ++ "/" ++ flags)
  modify fun o => { o with patternEnd := some o.length }

/-- Chunks and parts in turn. -/
def template (part : Node → Writer Unit) (n : Node) : Writer Unit := do
  put "`"
  for c in n.children do
    match c.kind with
    | .chunk raw _ => put raw
    | _ =>
      put "$\x7b"
      part c
      put "\x7d"
  put "`"

/-! ## Keys -/

/-- The key of a property or member. -/
def key (w : Shapes) (computed : Bool) (k : Node) (p : Place) : Writer Unit := do
  if computed then
    put "["
    w k (Place.at_ Level.comma)
    put "]"
  else
    match k.kind with
    | .name s => put s
    | .string s lossy => putChars (Literal.quoted lossy s)
    | _ => w k (p.asking Level.comma)

/-- Whether a number is too large to be written in digits. -/
def isUnwritable (n : Node) : Bool :=
  match n.kind with
  | .number s => (Numeral.value s).isInf
  | _ => false

/-- Whether a key and a value are the same name. -/
def sameName (k v : Node) : Bool :=
  match k.kind, v.kind with
  | .name a, .name b => a == b
  | _, _ => false

/-! ## Functions -/

def isSelf (p : Node) : Bool :=
  match (p.child 1).kind with
  | .self => true
  | .typed _ _ => match ((p.child 1).child 0).kind with
    | .self => true
    | _ => false
  | _ => false

def parameters (w : Shapes) (ps : List Node) (p : Place) : Writer Unit := do
  put "("
  match ps with
  | q :: rest =>
    if isSelf q then
      w q p
      if !rest.isEmpty then put ","
      space
      joined commaSpace (w · p) rest
    else joined commaSpace (w · p) ps
  | [] => pure ()
  put ")"

/-- A type behind a colon, unless it is absent. -/
def ascription (w : Shapes) (t : Node) (p : Place) : Writer Unit := do
  if !t.isAbsent then
    put ": "
    w t p.around

/-- A function from its type parameters to its result type. -/
def functionHead (w : Shapes) (f : Node) (p : Place) : Writer Unit := do
  w (f.child 1) p
  parameters w (f.items 2) p
  ascription w (f.child 3) p

/-- The body of a function behind a blank, or a semicolon in place of it. -/
def functionBody (w : Shapes) (f : Node) (p : Place) : Writer Unit := do
  if (f.child 4).isAbsent then put ";"
  else
    space
    w (f.child 4) p

/-- The comment that says that calls of a function have no effects. -/
def effectFreeMark : String := "/* @__NO_SIDE_EFFECTS__ */"

def function (w : Shapes) (routine : Routine) (standing : Standing) (isDeclared : Bool) (f : Node)
    (p : Place) : Writer Unit := do
  if routine.effectFree && standing == .expression then put (effectFreeMark ++ " ")
  let o ← get
  let begins := o.statementStart == some o.length || o.defaultStart == some o.length
  wrap (standing == .expression && begins) do
    gap
    if isDeclared then put "declare "
    if routine.async then put "async "
    put "function"
    if routine.generator then put "* "
    w (f.child 0) p.around
    functionHead w f p.around
    functionBody w f p.around

/-- What stands in front of the key of a method. -/
def methodWords (form : MemberForm) (f : Node) : Writer Unit := do
  match form with
  | .getter => put "get "
  | .setter => put "set "
  | _ => pure ()
  match f.kind with
  | .function routine _ _ =>
    if routine.async then put "async "
    if routine.generator then put "*"
  | _ => pure ()

def arrow (w : Shapes) (routine : Routine) (p : Place) (n : Node) : Writer Unit := do
  if routine.effectFree then put (effectFreeMark ++ " ")
  wrap (Level.assign ≤ p.level) do
    if routine.async then
      gap
      put "async "
    w (n.child 0) p.around
    parameters w (n.items 1) p.around
    ascription w (n.child 2) p
    put " => "
    match (n.child 3).kind with
    | .body => w (n.child 3) p.around
    | _ =>
      modify fun o => { o with arrowStart := some o.length }
      w (n.child 3) (p.asking Level.comma)

/-! ## Objects and lists -/

/-- A function as a property, without a body if it has none and without the type of `this`. -/
def objectMethod (w : Shapes) (form : MemberForm) (computed : Bool) (k f : Node) (p : Place) :
    Writer Unit := do
  methodWords form f
  key w computed k {}
  w (f.child 1) p
  parameters w ((f.items 2).filter (!isSelf ·)) p
  ascription w (f.child 3) p
  if !(f.child 4).isAbsent then
    space
    w (f.child 4) p

def property (w : Shapes) (form : MemberForm) (computed shorthand : Bool) (n : Node) (p : Place) :
    Writer Unit := do
  let k := n.child 0
  let v := n.child 1
  match form with
  | .value =>
    let short := !computed &&
      (if k.name? == some "__proto__" then shorthand else sameName k v.bare)
    if !short then
      key w (computed || isUnwritable k) k {}
      put ": "
    w v (Place.at_ Level.comma)
  | form => objectMethod w form computed k v p.around

def object (w : Shapes) (n : Node) (p : Place) : Writer Unit := do
  let o ← get
  wrap (o.statementStart == some o.length || o.arrowStart == some o.length) do
    put "\x7b"
    match n.children with
    | [] => pure ()
    | [a] =>
      space
      w a p.around
      space
    | ps => lines (w · p.around) ps
    put "\x7d"

/-- An element of a list: an absent one leaves nothing but its comma. -/
def array (w : Shapes) (n : Node) : Writer Unit := do
  let last := if (n.children.getLast?.map Node.isAbsent).getD false then "," else ""
  let item (e : Node) : Writer Unit := if e.isAbsent then pure () else w e (Place.at_ Level.comma)
  put "["
  match n.children with
  | [] => pure ()
  | [a] => item a; put last
  | [a, b] => item a; commaSpace; item b; put last
  | es =>
    more
    joined (put ",") (fun e => do newline; indentation; item e) es
    put last
    newline
    less
    indentation
  put "]"

/-! ## Patterns and targets -/

/-- A property of a pattern: a key and a pattern, or only the name if they are alike. A target
stays as it is written. -/
def propertyPattern (w : Shapes) (computed shorthand : Bool) (n : Node) : Writer Unit := do
  let k := n.child 0
  let v := n.child 1
  if !shorthand then
    key w computed k {}
    put ": "
  w v (Place.at_ Level.comma)

/-- Whether a property that is bound has the name that it is bound to. -/
def bindsItsName (n : Node) : Bool :=
  match n.child 1 with
  | .mk .withDefault _ (b :: _) => sameName (n.child 0) b
  | v => sameName (n.child 0) v

/-- The properties of a pattern that binds names, the rest last. -/
def objectPattern (w : Shapes) (n : Node) : Writer Unit := do
  let property (q : Node) : Writer Unit :=
    match q.kind with
    | .propertyPattern computed _ => propertyPattern w computed (!computed && bindsItsName q) q
    | _ => w q {}
  let rec go : List Node → Writer Unit
    | [] => pure ()
    | [q] => property q
    | q :: r :: rest => do
      property q
      match r.kind with
      | .rest => put ","
      | _ => commaSpace
      go (r :: rest)
  if n.children.isEmpty then put "\x7b\x7d"
  else
    put "\x7b "
    go n.children
    put " \x7d"

def isRest (n : Node) : Bool :=
  match n.kind with
  | .rest => true
  | _ => false

/-- The elements of a pattern that is a list. A comma stands in front of a rest, and behind an
absent element at the end. -/
def arrayPattern (w : Shapes) (isTarget : Bool) (n : Node) : Writer Unit := do
  let elements := n.children.filter (!isRest ·)
  let rest := n.children.filter isRest
  put "["
  joined commaSpace (fun e => if e.isAbsent then pure () else w e (Place.at_ Level.comma)) elements
  let lastAbsent := (elements.getLast?.map Node.isAbsent).getD false
  if !elements.isEmpty && (lastAbsent || !rest.isEmpty) then put ","
  for r in rest do
    if !isTarget || !elements.isEmpty then space
    w r {}
  put "]"

/-! ## Operators -/

/-- Whether an operand of `??` needs parentheses however tightly it binds. -/
def isLogic (n : Node) : Bool :=
  match n.bare.kind with
  | .binary .and | .binary .or => true
  | _ => false

/-- The levels that the operands of an operator are asked for. -/
def operandLevels (op : BinaryOp) (l r : Node) : Level × Level :=
  let below := op.level - 1
  match op with
  | .nullish =>
    (if isLogic l then Level.unary else below, if isLogic r then Level.unary else below)
  | .or | .and => (below, below)
  | .power =>
    (match l.bare.kind with
      | .unary _ => Level.call
      | _ => op.level, below)
  | _ => (below, op.level)

/-- Whether an expression asks if an object has a private member. -/
def asksForPrivate (n : Node) : Bool :=
  match n.bare with
  | .mk (.binary _) _ (.mk (.privateName _) _ _ :: _) => true
  | _ => false

/-- The question whether an object has a private member. -/
def hasPrivate (w : Shapes) (p : Place) (n : Node) : Writer Unit :=
  wrap (Level.compare ≤ p.level) do
    w (n.child 0) p
    put " in "
    w (n.child 1) { level := Level.equals, noIn := true }

def binary (w : Shapes) (op : BinaryOp) (p : Place) (n : Node) : Writer Unit := do
  let l := n.child 0
  let r := n.child 1
  let wrapped := op.level ≤ p.level || (op == .in && p.noIn)
  let p := { p with noIn := p.noIn && !wrapped }
  let (left, right) := operandLevels op l r
  wrap wrapped do
    w l (if asksForPrivate l then {} else p.asking left)
    space
    if op.isWord then put op.text else sign op.text
    space
    w r (p.keepingIn right)

/-! ## Calls and members -/

def arguments (w : Shapes) (stop : Nat) (args : List Node) : Writer Unit := do
  put "("
  let behind ← if stop > 0 then hasComments (stop - 1) else pure false
  let o ← get
  let within := args.any fun a => o.comments.any (·.attached == a.span.start)
  if behind || within then
    more
    joined (put ",") (fun a => do
      if !(← inner a.span.start) then newline
      indentation
      w a (Place.at_ Level.comma)) args
    if !(← inner (stop - 1)) then newline
    less
    indentation
  else joined commaSpace (w · (Place.at_ Level.comma)) args
  put ")"

def pureMark : Writer Unit := put "/* @__PURE__ */ "

def call (w : Shapes) (optional pure : Bool) (p : Place) (n : Node) : Writer Unit := do
  let o ← get
  let begins := o.statementStart == some o.length
  let beginsDefault := o.defaultStart == some o.length
  wrap (Level.new ≤ p.level || p.noCall || (pure && Level.update ≤ p.level)) do
    if pure then pureMark
    modify fun o =>
      if beginsDefault then { o with defaultStart := some o.length }
      else if begins then { o with statementStart := some o.length }
      else o
    w (n.child 0) (Place.at_ Level.update)
    if optional then put "?."
    w (n.child 1) p.around
    arguments w n.span.stop (n.items 2)

/-- A construction. It is printed without type arguments. -/
def construct (w : Shapes) (pure : Bool) (p : Place) (n : Node) : Writer Unit :=
  wrap (Level.call ≤ p.level || (pure && Level.update ≤ p.level)) do
    if pure then pureMark
    gap
    put "new "
    w (n.child 0) { level := Level.new, noCall := true }
    arguments w n.span.stop (n.items 2)

/-- A call of `import`, with its arguments on lines of their own if there are comments. -/
def importCall (w : Shapes) (phase : Option String) (p : Place) (n : Node) : Writer Unit :=
  wrap (Level.new ≤ p.level || p.noCall) do
    gap
    put ("import" ++ phase.getD "")
    put "("
    let args := n.children.filter (!·.isAbsent)
    let behind ← if n.span.stop > 0 then hasComments (n.span.stop - 1) else pure false
    let o ← get
    let spread := behind || args.any fun a => o.comments.any (·.attached == a.span.start)
    if spread then
      more
      if !(← inner (n.child 0).span.start) then newline
      indentation
    w (n.child 0) (Place.at_ Level.comma)
    if !(n.child 1).isAbsent then
      put ","
      if spread then
        newline
        indentation
      else space
      w (n.child 1) (Place.at_ Level.comma)
    if spread then
      if !(← inner (n.span.stop - 1)) then newline
      less
    put ")"

def member (w : Shapes) (optional : Bool) (p : Place) (n : Node) : Writer Unit := do
  w (n.child 0) (p.keepingCall Level.update)
  match (n.child 1).kind with
  | .privateName s => put ((if optional then "?.#" else ".#") ++ s)
  | k =>
    if optional then put "?"
    else
      let o ← get
      if o.wholeEnd == some o.length then space
    put "."
    match k with
    | .name s => put s
    | _ => pure ()

def index (w : Shapes) (optional : Bool) (p : Place) (n : Node) : Writer Unit := do
  wrap ((n.child 0).plain.name? == some "let") (w (n.child 0) (p.keepingCall Level.update))
  if optional then put "?."
  put "["
  w (n.child 1) {}
  put "]"

/-! ## Markup -/

def element (w : Shapes) (closed : Bool) (n : Node) : Writer Unit := do
  put "<"
  w (n.child 0) {}
  w (n.child 1) {}
  for a in n.items 2 do
    space
    w a {}
  if closed then put " />"
  else
    put ">"
    for c in n.items 3 do w c {}
    put "</"
    w (n.child 0) {}
    put ">"

/-! ## All of them -/

def assign (w : Shapes) (op : Option BinaryOp) (p : Place) (n : Node) : Writer Unit := do
  let o ← get
  let isObject := match (n.child 0).kind with
    | .objectTarget => true
    | _ => false
  let begins := o.statementStart == some o.length || o.arrowStart == some o.length
  wrap ((isObject && begins) || Level.assign ≤ p.level) do
    w (n.child 0) (Place.at_ Level.comma)
    put (" " ++ (op.map BinaryOp.text).getD "" ++ "= ")
    w (n.child 1) (p.asking Level.comma)

/-- An expression, a pattern or a piece of markup. -/
def expression (w : Shapes) (n : Node) (p : Place) : Writer Unit :=
  match n.kind with
  | .name s => word s
  | .privateName s => put ("#" ++ s)
  | .string s lossy => putChars (Literal.quoted lossy s)
  | .number t => number t p
  | .bigint t => do gap; put (t ++ "n")
  | .pattern body flags => pattern body flags
  | .boolean b => word (if b then "true" else "false")
  | .null => word "null"
  | .self => word "this"
  | .superclass => word "super"
  | .template => template (w · {}) n
  | .array => array w n
  | .object => object w n p
  | .spread => do put "..."; w (n.child 0) (Place.at_ Level.comma)
  | .property form computed shorthand => property w form computed shorthand n p
  | .function routine standing isDeclared => function w routine standing isDeclared n p
  | .arrow routine => arrow w routine p n
  | .unary op => wrap (Level.unary ≤ p.level) do
    if op.isWord then
      gap
      put op.text
      space
    else sign op.text
    if op == .delete && isUnwritable (n.child 0) then
      put "(0, "
      w (n.child 0) (p.asking Level.exponent)
      put ")"
    else w (n.child 0) (p.asking Level.exponent)
  | .update increment before => do
    let text := if increment then "++" else "--"
    if before then
      wrap (Level.unary ≤ p.level) do
        sign text
        w (n.child 0) (p.asking Level.unary)
    else
      wrap (Level.update ≤ p.level) do
        keepSignApart text
        w (n.child 0) (p.asking Level.update)
        put text
        modify fun o => { o with signEnd := some (o.length, text ++ "after") }
  | .binary op =>
    match (n.child 0).kind with
    | .privateName _ => hasPrivate w p n
    | _ => binary w op p n
  | .assign op => assign w op p n
  | .conditional => do
    let wrapped := Level.conditional ≤ p.level
    let q := { p with noIn := p.noIn && !wrapped }
    wrap wrapped do
      w (n.child 0) (q.keepingIn Level.conditional)
      put " ? "
      w (n.child 1) (Place.at_ Level.yield)
      put " : "
      w (n.child 2) (q.keepingIn Level.yield)
  | .call optional pure => call w optional pure p n
  | .construct pure => construct w pure p n
  | .member optional => member w optional p n
  | .index optional => index w optional p n
  | .chain => wrap (Level.update ≤ p.level) (w (n.child 0) p)
  | .sequence => wrap (Level.comma ≤ p.level) do
    joined commaSpace (w · (p.keepingIn Level.lowest)) n.children
  | .await => wrap (Level.unary ≤ p.level) do
    gap
    put "await "
    w (n.child 0) (p.asking Level.exponent)
  | .yield delegate => wrap (Level.assign ≤ p.level) do
    gap
    put (if delegate then "yield*" else "yield")
    if !(n.child 0).isAbsent then
      space
      w (n.child 0) (Place.at_ Level.yield)
  | .importCall phase => importCall w phase p n
  | .metaProperty object property => word (object ++ "." ++ property)
  | .tagged => do
    w (n.child 0) (p.keepingCall Level.update)
    w (n.child 1) p.around
    w (n.child 2) {}
  | .paren => w (n.child 0) p
  | .asType => wrap (Level.shift ≤ p.level) do
    w (n.child 0) (p.asking Level.exponent)
    put " as "
    w (n.child 1) p.around
  | .satisfiesType => do
    put "(("
    w (n.child 0) (Place.at_ p.level)
    put ") satisfies "
    w (n.child 1) p.around
    put ")"
  | .nonNull => do
    w (n.child 0) (p.asking Level.update)
    put "!"
  | .instantiation => do
    w (n.child 0) p
    w (n.child 1) p.around
  | .objectPattern => objectPattern w n
  | .objectTarget => do
    put "\x7b"
    joined commaSpace (w · {}) n.children
    put "\x7d"
  | .arrayPattern => arrayPattern w false n
  | .arrayTarget => arrayPattern w true n
  | .propertyPattern computed shorthand => propertyPattern w computed shorthand n
  | .withDefault => do
    w (n.child 0) (Place.at_ Level.comma)
    put " = "
    w (n.child 1) (Place.at_ Level.comma)
  | .rest => do put "..."; w (n.child 0) (Place.at_ Level.comma)
  | .typed optional definite => do
    w (n.child 0) p
    if definite then put "!"
    if optional then put "?"
    ascription w (n.child 1) p
  | .element closed => element w closed n
  | .fragment => do
    put "<>"
    for c in n.children do w c {}
    put "</>"
  | .tagName s => put s
  | .scopedName scope s => put (scope ++ ":" ++ s)
  | .tagPath => do
    w (n.child 0) {}
    put "."
    w (n.child 1) {}
  | .markupAttribute => do
    w (n.child 0) {}
    if !(n.child 1).isAbsent then
      put "="
      w (n.child 1) {}
  | .markupString s =>
    let q := if s.toList.contains '"' then "'" else "\""
    put (q ++ s ++ q)
  | .markupText s => put s
  | .container => do
    put "\x7b"
    match (n.child 0).kind with
    | .nothing => leading (n.child 0).span.stop
    | _ => w (n.child 0) {}
    put "\x7d"
  | .childSpread => do
    put "..."
    w (n.child 0) {}
  | .attributeSpread => do
    put "\x7b..."
    w (n.child 0) (Place.at_ Level.comma)
    put "\x7d"
  | _ => pure ()

end Printer

end PagePreview.Script
