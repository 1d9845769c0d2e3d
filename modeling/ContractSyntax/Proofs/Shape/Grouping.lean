/-
**How operators group their operands.**

A row of operands with infix operators between them is read from the left, by a loop for the operators
of one strength in which stronger ones are read by further loops. What comes of that can be told without
any of it. Of the operators that bind most loosely the last one is the root of the tree, and what stands
on the two sides of it is grouped in the same way.

* `Operand`, `Link`: some tokens that are an operand when they are read alone, and an operator with the
  operand behind it;
* `splitLoosest?`: a row on the two sides of the last of its loosest operators;
* `grouped`: the tree of a row;
* `read_grouped`: rows of operands are read as this tree.
-/

import ContractSyntax.Proofs.Printing.Reread

namespace ContractSyntax

/-! ### Rows of operands -/

/-- Some tokens all of which are an operand, with the operators before it, when they are read alone. -/
structure Operand where
  tokens : Tokens
  stop : Nat
  tree : Spanned Expr
  read : (Level.top.signedBody.alone stop tokens).1 = .ok tree
  complete : (Level.top.signedBody.alone stop tokens).2.cursor.remaining = []

/-- The levels of nesting that reading an operand opens. -/
def Operand.levels (operand : Operand) : Nat :=
  (Level.top.signedBody.alone operand.stop operand.tokens).2.nesting.peak

/-- An infix operator with the operand behind it. -/
structure Link where
  operator : BinaryOperator
  span : Span
  operand : Operand

/-- The tokens of a link. -/
def Link.tokens (link : Link) : Tokens := ⟨link.operator.token, link.span⟩ :: link.operand.tokens

/-- The tokens of a row of operands. -/
def rowTokens (first : Operand) (links : List Link) : Tokens :=
  first.tokens ++ links.flatMap Link.tokens

/-- The levels that reading some links opens, each of which stands on all before it. -/
def linkLevels : List Link → Nat
  | [] => 0
  | link :: rest => 1 + link.operand.levels + linkLevels rest

/-! ### Grouping -/

/-- What stands before and behind the last of the operators that bind most loosely. -/
def splitLoosest? : List Link → Option (List Link × Link × List Link)
  | [] => none
  | link :: rest =>
    match splitLoosest? rest with
    | none => some ([], link, rest)
    | some (before, root, after) =>
      if root.operator.power ≤ link.operator.power then some (link :: before, root, after)
      else some ([], link, rest)

/-- The parts of a row, and how their operators bind. -/
structure IsLoosest (links before : List Link) (root : Link) (after : List Link) : Prop where
  row : links = before ++ root :: after
  before : ∀ link ∈ before, root.operator.power ≤ link.operator.power
  after : ∀ link ∈ after, root.operator.power < link.operator.power

theorem splitLoosest?_eq_none {links : List Link} (none : splitLoosest? links = none) : links = [] := by
  cases links with
  | nil => rfl
  | cons link rest =>
    unfold splitLoosest? at none
    split at none
    · cases none
    · split at none <;> cases none

theorem isLoosest_of_split {links before after : List Link} {root : Link}
    (split : splitLoosest? links = some (before, root, after)) :
    IsLoosest links before root after := by
  induction links generalizing before root after with
  | nil => cases split
  | cons link rest continued =>
    unfold splitLoosest? at split
    split at split
    · next none =>
      cases split
      cases splitLoosest?_eq_none none
      exact ⟨rfl, List.forall_mem_nil _, List.forall_mem_nil _⟩
    · next earlier found later inside =>
      obtain ⟨row, front, back⟩ := continued inside
      by_cases looser : found.operator.power ≤ link.operator.power
      · rw [if_pos looser] at split
        cases split
        exact ⟨congrArg (link :: ·) row, List.forall_mem_cons.mpr ⟨looser, front⟩, back⟩
      · rw [if_neg looser] at split
        cases split
        have tight := Nat.lt_of_not_le looser
        refine ⟨rfl, List.forall_mem_nil _, ?_⟩
        intro other member
        rw [row] at member
        rcases List.mem_append.mp member with inside | inside
        · exact Nat.lt_of_lt_of_le tight (front other inside)
        · rcases List.mem_cons.mp inside with rfl | inside
          · exact tight
          · exact Nat.lt_trans tight (back other inside)

theorem IsLoosest.length {links before after : List Link} {root : Link}
    (loosest : IsLoosest links before root after) :
    links.length = before.length + 1 + after.length := by
  rw [loosest.row, List.length_append, List.length_cons]
  omega

/-- Two operands with an infix operator between them. -/
def joined (left : Spanned Expr) (operator : BinaryOperator) (right : Spanned Expr) : Spanned Expr :=
  ⟨.binary left operator right, left.span.merge right.span⟩

/-- A single operand is its own tree. In a row of several the last of the operators that bind most
loosely is the root, and its operands are the groupings of what stands on its sides. -/
def grouped (first : Operand) (links : List Link) : Spanned Expr :=
  match _split : splitLoosest? links with
  | none => first.tree
  | some (before, root, after) =>
    joined (grouped first before) root.operator (grouped root.operand after)
termination_by links.length
decreasing_by
  all_goals
    have shorter := (isLoosest_of_split _split).length
    omega

/-! ### Derivations of groupings -/

theorem linkLevels_append (before after : List Link) :
    linkLevels (before ++ after) = linkLevels before + linkLevels after := by
  induction before with
  | nil => exact (Nat.zero_add _).symm
  | cons link rest continued =>
    rw [List.cons_append, linkLevels, linkLevels, continued, Nat.add_assoc _ _ (linkLevels after)]

/-- An operand is derived from its tokens, wherever these stand. -/
theorem Operand.derives (operand : Operand) :
    Derives .signed operand.tokens operand.tree operand.levels := by
  have sound : Level.top.Sound := Level.sound_tower nestingLimit
  obtain ⟨passed, passes, derived⟩ := Parser.Yields.alone sound.signedBody operand.read
  have remaining : operand.tokens = passed ++ _ := passes.remaining
  rw [operand.complete, List.append_nil] at remaining
  rw [remaining]
  exact derived

/-- The grouping of a row is derived from the tokens of the row, where its operators bind as tightly as
they have to. -/
theorem derives_grouped (first : Operand) (links : List Link) {power : Nat}
    (tight : ∀ link ∈ links, power ≤ link.operator.power) :
    Derives (.tier power) (rowTokens first links) (grouped first links)
      (first.levels + linkLevels links) := by
  fun_induction grouped first links generalizing power with
  | case1 first links none =>
    cases splitLoosest?_eq_none none
    have alone : rowTokens first [] = first.tokens := List.append_nil _
    rw [alone]
    exact .single power first.derives
  | case2 first links before root after split derivedLeft derivedRight =>
    obtain ⟨row, front, back⟩ := isLoosest_of_split split
    subst row
    have binds : power ≤ root.operator.power :=
      tight root (List.mem_append_right _ List.mem_cons_self)
    have written : rowTokens first (before ++ root :: after) =
        rowTokens first before ++ ⟨root.operator.token, root.span⟩ :: rowTokens root.operand after := by
      simp [rowTokens, Link.tokens]
    have levels : first.levels + linkLevels (before ++ root :: after) =
        first.levels + linkLevels before + 1 + (root.operand.levels + linkLevels after) := by
      rw [linkLevels_append, linkLevels]
      omega
    rw [written, levels]
    exact .binary root.operator binds root.span (derivedLeft front) (derivedRight back)

/-! ### Operands from derivations -/

/-- Tokens from which an operand is derived are one when they are read alone. -/
def Operand.ofDerives {tokens : Tokens} {tree : Spanned Expr} {height : Nat}
    (derived : Derives .signed tokens tree height) (fits : height ≤ nestingLimit) (stop : Nat) :
    Operand :=
  have takes : Level.top.signedBody.Takes tokens [] tree height nestingLimit :=
    derived.reads nestingLimit nestingLimit [] (Nat.le_refl _) endsExpr_nil.operand
  ⟨tokens, stop, tree, (takes.alone fits stop).1, (takes.alone fits stop).2⟩

/-- A name alone is an operand. -/
def Operand.name (stop : Nat) (name : Name) : Operand :=
  .ofDerives (.unsigned (.operand (.var name))) (Nat.zero_le _) stop

/-- A name with a sign before it is an operand. -/
def Operand.signed (stop : Nat) (operator : UnaryOperator) (sign : Spanned Token)
    (spelled : [sign.node] = operator.tokens) (name : Name) : Operand :=
  have derived : Derives .signed [sign, name.ident]
      ⟨.unary operator ⟨.var name.node, name.span⟩, sign.span.merge name.span⟩ 1 :=
    .unary operator sign [] spelled (.unsigned (.operand (.var name)))
  .ofDerives derived (by decide) stop

/-! ### Rows of operands are grouped -/

/-- The levels that reading a row of operands opens: those of all operands, and one for each. -/
def rowLevels (first : Operand) (links : List Link) : Nat := first.levels + linkLevels links + 1

theorem derives_row (first : Operand) (links : List Link) :
    Derives .subexpr (rowTokens first links) (grouped first links) (rowLevels first links) :=
  .nested (.operators (derives_grouped first links fun link _ => link.operator.one_le_power))

/-- A row of operands is read as its grouping, unless it opens more levels than are left. -/
theorem read_grouped (first : Operand) (links : List Link) :
    (∀ session : Session, session.cursor.remaining = rowTokens first links →
      (session.nesting.depth + rowLevels first links ≤ nestingLimit ∧
        (session.read .expression).1 = .ok (grouped first links) ∧
        (session.read .expression).2.cursor.remaining = []) ∨
      (nestingLimit < session.nesting.depth + rowLevels first links ∧
        ∃ error, (session.read .expression).1 = .error error ∧ error.cause = .tooDeep)) ∧
    ∀ source, tokenize source = .ok (rowTokens first links) →
      (rowLevels first links ≤ nestingLimit ∧ (readExpr source).value = .ok (grouped first links)) ∨
      (nestingLimit < rowLevels first links ∧
        ∃ error, (readExpr source).value = .error (.syntactic error) ∧
          error.message = "nesting deeper than 256 levels") := by
  refine ⟨fun session remaining => ?_, fun source lexed => ?_⟩
  · have takes := (derives_row first links).takes_expression
      (Nat.sub_le nestingLimit session.nesting.depth) endsExpr_nil
    have positive : 0 < rowLevels first links := Nat.succ_pos _
    have whole : session.cursor.remaining = rowTokens first links ++ [] :=
      remaining.trans (List.append_nil _).symm
    rcases (takes _ whole).read with ⟨fits, result, passes⟩ | ⟨large, deep⟩
    · exact .inl ⟨by omega, result, passes.remaining_eq whole⟩
    · exact .inr ⟨by omega, deep⟩
  · exact readAll_taken lexed ((derives_row first links).takes_expression (Nat.le_refl _) endsExpr_nil)

/-- Signs before operands and between them: `(a - (-b * *c)) - d`. -/
theorem read_grouped_of_signs :
    (readExpr "a - -b * *c - d").value = .ok
      (joined (joined ⟨.var "a", 0, 1⟩ .subtract
        (joined ⟨.unary .negate ⟨.var "b", 5, 6⟩, 4, 6⟩ .multiply
          ⟨.unary .dereference ⟨.var "c", 10, 11⟩, 9, 11⟩)) .subtract ⟨.var "d", 14, 15⟩) := by
  let a := Operand.name 15 ⟨"a", 0, 1⟩
  let b := Operand.signed 15 .negate ⟨.symbol .minus, 4, 5⟩ rfl ⟨"b", 5, 6⟩
  let c := Operand.signed 15 .dereference ⟨.symbol .star, 9, 10⟩ rfl ⟨"c", 10, 11⟩
  let d := Operand.name 15 ⟨"d", 14, 15⟩
  let links : List Link := [⟨.subtract, ⟨2, 3⟩, b⟩, ⟨.multiply, ⟨7, 8⟩, c⟩, ⟨.subtract, ⟨12, 13⟩, d⟩]
  have lexed : tokenize "a - -b * *c - d" = .ok (rowTokens a links) :=
    ok_of_toOption (by decide +kernel)
  have tree : grouped a links = joined (joined a.tree .subtract (joined b.tree .multiply c.tree))
      .subtract d.tree := by
    simp [links, grouped, splitLoosest?, BinaryOperator.power]
  have levels : rowLevels a links = 6 := by decide +kernel
  rcases (read_grouped a links).2 _ lexed with ⟨_, read⟩ | ⟨large, _⟩
  · rw [read, tree]
    rfl
  · rw [levels] at large
    exact absurd large (by decide)

end ContractSyntax
