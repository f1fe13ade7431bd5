import RecursiveDescent.Expression

/-! # Induction on parsers and expressions

Parsers and expressions are trees whose nodes may hold lists of trees. The induction principles below
hand over a hypothesis for every member of such a list, so that a proof has one case for each
constructor and none for lists.
-/

namespace RecursiveDescent

namespace Parser

section Induction

variable {motive : Parser → Prop}
  (literal : ∀ expected, motive (.literal expected))
  (pattern : ∀ tree label, motive (.pattern tree label))
  (nothing : motive .nothing)
  (integer : motive .integer)
  (float : motive .float)
  (map : ∀ child action, motive child → motive (.map child action))
  (sequence : ∀ children, (∀ child ∈ children, motive child) → motive (.sequence children))
  (choice : ∀ first rest, motive first → (∀ child ∈ rest, motive child) → motive (.choice first rest))
  (many : ∀ child, motive child → motive (.many child))
  (sepBy : ∀ item separator, motive item → motive separator → motive (.sepBy item separator))
  (fixed : ∀ result, motive (.fixed result))
  (observed : ∀ observer child, motive child → motive (.observed observer child))
  (ref : ∀ address, motive (.ref address))
  (unpatched : ∀ rule, motive (.unpatched rule))
  (foreign : ∀ kind, motive (.foreign kind))

include literal pattern nothing integer float map sequence choice many sepBy fixed observed ref unpatched foreign in
/-- What each node inherits from its children holds of every parser. -/
@[elab_as_elim, induction_eliminator]
theorem induct : ∀ parser, motive parser
  | .literal expected => literal expected
  | .pattern tree label => pattern tree label
  | .nothing => nothing
  | .integer => integer
  | .float => float
  | .map child action => map child action (induct child)
  | .sequence children => sequence children fun child _ => induct child
  | .choice first rest => choice first rest (induct first) fun child _ => induct child
  | .many child => many child (induct child)
  | .sepBy item separator => sepBy item separator (induct item) (induct separator)
  | .fixed result => fixed result
  | .observed observer child => observed observer child (induct child)
  | .ref address => ref address
  | .unpatched rule => unpatched rule
  | .foreign kind => foreign kind
termination_by parser => sizeOf parser

end Induction

/-- The matchers of a list of trees are those of its members. -/
@[simp] theorem matchers_eq_map (limit : Nat) (call : Address → Matcher) (children : List Parser) :
    matchers limit call children = children.map (matcher limit call) := by
  induction children with
  | nil => rfl
  | cons child rest ih => rw [matchers, ih, List.map_cons]

end Parser

namespace Expression

section Induction

variable {motive : Expression → Prop}
  (literal : ∀ expected, motive (.literal expected))
  (pattern : ∀ flags text label, motive (.pattern flags text label))
  (nothing : motive .nothing)
  (whitespace : motive .whitespace)
  (integer : motive .integer)
  (float : motive .float)
  (map : ∀ child action, motive child → motive (.map child action))
  (sequence : ∀ children, (∀ child ∈ children, motive child) → motive (.sequence children))
  (choice : ∀ children, (∀ child ∈ children, motive child) → motive (.choice children))
  (many : ∀ child, motive child → motive (.many child))
  (optional : ∀ child, motive child → motive (.optional child))
  (sepBy : ∀ item separator, motive item → motive separator → motive (.sepBy item separator))
  (takeMid : ∀ opening child closing, motive opening → motive child → motive closing →
    motive (.takeMid opening child closing))
  (fixed : ∀ name result, motive (.fixed name result))
  (observed : ∀ name observer child, motive child → motive (.observed name observer child))
  (existing : ∀ target, motive (.existing target))
  (rule : ∀ name access, motive (.rule name access))
  (early : ∀ name access source pos next, motive next → motive (.early name access source pos next))
  (foreign : ∀ value, motive (.foreign value))

include literal pattern nothing whitespace integer float map sequence choice many optional sepBy takeMid fixed
  observed existing rule early foreign in
/-- What each node inherits from its children holds of every expression. -/
@[elab_as_elim, induction_eliminator]
theorem induct : ∀ expression, motive expression
  | .literal expected => literal expected
  | .pattern flags text label => pattern flags text label
  | .nothing => nothing
  | .whitespace => whitespace
  | .integer => integer
  | .float => float
  | .map child action => map child action (induct child)
  | .sequence children => sequence children fun child _ => induct child
  | .choice children => choice children fun child _ => induct child
  | .many child => many child (induct child)
  | .optional child => optional child (induct child)
  | .sepBy item separator => sepBy item separator (induct item) (induct separator)
  | .takeMid opening child closing =>
      takeMid opening child closing (induct opening) (induct child) (induct closing)
  | .fixed name result => fixed name result
  | .observed name observer child => observed name observer child (induct child)
  | .existing target => existing target
  | .rule name access => rule name access
  | .early name access source pos next => early name access source pos next (induct next)
  | .foreign value => foreign value
termination_by expression => sizeOf expression

end Induction

end Expression

end RecursiveDescent
