/-
**Derivations of definitions and programs.**

Definitions do not contain one another, so each kind has rules of its own over the derivations of
expressions and types. The span of a definition runs from its first token, which may belong to an
attribute or be the word of its visibility, to its last one.

* `Item.Derives`, `Program.Derives`: the rules;
* `Parser.Yields.program`: every program that is read has a derivation.
-/

import ContractSyntax.Grammar.Program
import ContractSyntax.Proofs.Derivation.Sound

namespace ContractSyntax

/-! ### Rules -/

section Rules

/-- A name and its type. -/
inductive TypedName.Derives : Tokens → TypedName → Nat → Prop
  | mk (name : Name) (colon : Span) {tokens : Tokens} {type : Spanned Ty} {height : Nat}
      (derived : ContractSyntax.Derives .subtype tokens type height) :
      TypedName.Derives (name.ident :: ⟨.symbol .colon, colon⟩ :: tokens) ⟨name, type⟩ height

/-- An attribute. -/
inductive Attribute.Derives : Tokens → Attribute → Nat → Prop
  | bare (start : Span) (name : Name) :
      Attribute.Derives [⟨.symbol .at_, start⟩, name.ident] ⟨name, none, start.merge name.span⟩ 0
  | applied (start opened stop : Span) (name : Name) {tokens : Tokens} {given : List (Spanned Expr)}
      {height : Nat} (row : Row (ContractSyntax.Derives .subexpr) tokens given height) :
      Attribute.Derives
        (⟨.symbol .at_, start⟩ :: name.ident :: ⟨.symbol .leftParen, opened⟩ ::
          (tokens ++ [⟨.symbol .rightParen, stop⟩]))
        ⟨name, some given, start.merge stop⟩ height

/-- A name before a colon, or nothing. -/
inductive Labelled : Tokens → Option Name → Prop
  | absent : Labelled [] none
  | present (name : Name) (colon : Span) :
      Labelled [name.ident, ⟨.symbol .colon, colon⟩] (some name)

/-- A condition of a contract. -/
inductive Condition.Derives : Tokens → Condition → Nat → Prop
  | mk {before tokens : Tokens} {label : Option Name} {condition : Spanned Expr} {height : Nat}
      (labelled : Labelled before label)
      (derived : ContractSyntax.Derives .subexpr tokens condition height) :
      Condition.Derives (before ++ tokens) ⟨label, condition⟩ height

/-- An expression after a reserved word, or nothing. -/
inductive Clause (word : Keyword) : Tokens → Option (Spanned Expr) → Nat → Prop
  | absent : Clause word [] none 0
  | present (start : Span) {tokens : Tokens} {condition : Spanned Expr} {height : Nat}
      (derived : ContractSyntax.Derives .subexpr tokens condition height) :
      Clause word (⟨.keyword word, start⟩ :: tokens) (some condition) height

/-- The contract of a condition on entry and one on exit, each of which may be missing. -/
def Contract.ofClauses : Option (Spanned Expr) → Option (Spanned Expr) → Option Contract
  | none, none => none
  | pre, post => some (.clauses pre post)

/-- A contract, if there is one. -/
inductive Contract.Derives : Tokens → Option Contract → Nat → Prop
  | conditions (start opened stop : Span) {tokens : Tokens} {conditions : List Condition}
      {height : Nat} (row : Row Condition.Derives tokens conditions height) :
      Contract.Derives
        (⟨.keyword .where_, start⟩ :: ⟨.symbol .leftBrace, opened⟩ ::
          (tokens ++ [⟨.symbol .rightBrace, stop⟩]))
        (some (.conditions conditions)) height
  | clauses {before after : Tokens} {pre post : Option (Spanned Expr)} {height depth : Nat}
      (derivedPre : Clause .pre before pre height) (derivedPost : Clause .post after post depth) :
      Contract.Derives (before ++ after) (Contract.ofClauses pre post) (max height depth)

/-- The variant of an enumeration. -/
inductive Variant.Derives : Tokens → Variant → Nat → Prop
  | bare (name : Name) : Variant.Derives [name.ident] ⟨name, none⟩ 0
  | parts (name : Name) (start stop : Span) {tokens : Tokens} {parts : List (Spanned Ty)}
      {height : Nat} (row : Row (ContractSyntax.Derives .subtype) tokens parts height) :
      Variant.Derives
        (name.ident :: ⟨.symbol .leftParen, start⟩ :: (tokens ++ [⟨.symbol .rightParen, stop⟩]))
        ⟨name, some parts⟩ height

/-- The span of the first of some tokens, or else that of the token after them. -/
def spanBefore (following : Span) : Tokens → Span
  | [] => following
  | token :: _ => token.span

/-- What stands before the word for a definition, whose span is `following`. -/
inductive Parser.Header.Derives (following : Span) : Tokens → Parser.Header → Nat → Prop
  | mk {marks shown : Tokens} {attributes : List Attribute} {isShown : Bool} {height : Nat}
      (several : Several Attribute.Derives marks attributes height)
      (marked : Marks .pub isShown shown) :
      Parser.Header.Derives following (marks ++ shown)
        ⟨spanBefore following (marks ++ shown), attributes, if isShown then .shown else .hidden⟩
        height

/-- The names of a path after the first. -/
def pathTokens (rest : List (Span × Name)) : Tokens :=
  rest.flatMap fun part => [⟨.symbol .colonColon, part.1⟩, part.2.ident]

/-- A definition. -/
inductive Item.Derives : Tokens → Item → Nat → Prop
  | use (start stop : Span) (first : Name) (rest : List (Span × Name)) :
      Item.Derives
        (⟨.keyword .use, start⟩ :: first.ident ::
          (pathTokens rest ++ [⟨.symbol .semicolon, stop⟩]))
        (.use ⟨first :: rest.map (·.2), start.merge stop⟩) 0
  | struct (word opened stop : Span) (name : Name) {before tokens : Tokens} {header : Parser.Header}
      {fields : List TypedName} {height depth : Nat} (headed : header.Derives word before height)
      (row : Row TypedName.Derives tokens fields depth) :
      Item.Derives
        (before ++ ⟨.keyword .struct, word⟩ :: name.ident :: ⟨.symbol .leftBrace, opened⟩ ::
          (tokens ++ [⟨.symbol .rightBrace, stop⟩]))
        (.struct ⟨header.attributes, header.visibility, name, fields, header.start.merge stop⟩)
        (max height depth)
  | enum (word opened stop : Span) (name : Name) {before tokens : Tokens} {header : Parser.Header}
      {variants : List Variant} {height depth : Nat} (headed : header.Derives word before height)
      (row : Row Variant.Derives tokens variants depth) :
      Item.Derives
        (before ++ ⟨.keyword .enum, word⟩ :: name.ident :: ⟨.symbol .leftBrace, opened⟩ ::
          (tokens ++ [⟨.symbol .rightBrace, stop⟩]))
        (.enum ⟨header.attributes, header.visibility, name, variants, header.start.merge stop⟩)
        (max height depth)
  | function (word opened closed arrow equal stop : Span) (name : Name)
      {before listed labelled typed contracted tokens : Tokens} {header : Parser.Header}
      {parameters : List TypedName} {resultName : Option Name} {resultType : Spanned Ty}
      {contract : Option Contract} {body : Spanned Expr} {first second third fourth fifth : Nat}
      (headed : header.Derives word before first)
      (row : Row TypedName.Derives listed parameters second)
      (named : Labelled labelled resultName)
      (derivedType : ContractSyntax.Derives .subtype typed resultType third)
      (derivedContract : Contract.Derives contracted contract fourth)
      (derivedBody : ContractSyntax.Derives .subexpr tokens body fifth) :
      Item.Derives
        (before ++ ⟨.keyword .fn, word⟩ :: name.ident :: ⟨.symbol .leftParen, opened⟩ ::
          (listed ++ ⟨.symbol .rightParen, closed⟩ :: ⟨.symbol .arrow, arrow⟩ ::
          (labelled ++ (typed ++ (contracted ++ ⟨.symbol .equal, equal⟩ ::
          (tokens ++ [⟨.symbol .semicolon, stop⟩]))))))
        (.function ⟨header.attributes, header.visibility, name, parameters, resultName, resultType,
          contract, body, header.start.merge stop⟩)
        (max first (max second (max third (max fourth fifth))))

/-- A program is one definition after the other. -/
def Program.Derives (tokens : Tokens) (program : Program) (height : Nat) : Prop :=
  Several Item.Derives tokens program.items height

end Rules

/-! ### Every definition that is read has a derivation -/

namespace Parser.Yields

open Level.Sound

variable {cursor : Cursor}

theorem expression :
    Parser.expression.Yields cursor (ContractSyntax.Derives.Meaning .subexpr) :=
  (Level.sound_tower nestingLimit).subexpr

theorem type : Parser.type.Yields cursor (ContractSyntax.Derives.Meaning .subtype) :=
  (Level.sound_tower nestingLimit).subtype

theorem typedName (role : NameRole) :
    (Parser.typedName role).Yields cursor fun tokens typed height _ =>
      TypedName.Derives tokens typed height := by
  refine .name fun bound _ _ => .expect fun colon _ _ => ?_
  refine .bind type fun tokens type height _ _ derived => .pure ?_
  simpa using TypedName.Derives.mk bound colon derived

theorem attributeRest (start : Span) :
    (Parser.attributeRest start).Yields cursor fun tokens mark height _ =>
      Attribute.Derives (⟨.symbol .at_, start⟩ :: tokens) mark height := by
  refine .name fun mark _ _ => ?_
  refine .bind (Level.sound_tower nestingLimit).arguments? fun tokens found height _ _ holds => ?_
  rcases found with _ | ⟨given, stop⟩
  · obtain ⟨rfl, rfl⟩ := holds
    exact .pure (.bare start mark)
  · obtain ⟨opened, passed, rfl, row⟩ := holds
    refine .pure ?_
    simpa using Attribute.Derives.applied start opened stop mark row

theorem labelled {β : Type} {next : Option Name → Parser β}
    {meaning : Tokens → β → Nat → Cursor → Prop}
    (continued : ∀ label before middle, Labelled before label →
      (next label).Yields middle fun tokens result height after =>
        meaning (before ++ tokens) result height after) :
    (Parser.nameBefore (.symbol .colon) >>= next).Yields cursor meaning :=
  .nameBefore (fun name colon middle _ => continued (some name) _ middle (.present name colon))
    (continued none [] cursor .absent)

theorem condition : Parser.condition.Yields cursor fun tokens condition height _ =>
    Condition.Derives tokens condition height := by
  refine labelled fun label before _ labelled => ?_
  refine .bind expression fun tokens condition height _ _ derived => .pure ?_
  simpa using Condition.Derives.mk labelled derived

theorem clause? (word : Keyword) :
    (Parser.clause? word).Yields cursor fun tokens found height _ =>
      Clause word tokens found height := by
  refine .accept (fun start _ _ => ?_) fun _ => .pure .absent
  refine .bind expression fun tokens condition height _ _ derived => .pure ?_
  simpa using Clause.present start derived

theorem conditions (start : Span) :
    Parser.conditions.Yields cursor fun tokens conditions height _ =>
      Contract.Derives (⟨.keyword .where_, start⟩ :: tokens) (some (.conditions conditions))
        height := by
  refine .expect fun opened _ _ => ?_
  refine .bind (.list fun _ => condition) fun _ found height _ _ ⟨passed, same, row⟩ => ?_
  refine .note (.pure ?_)
  simpa [same] using Contract.Derives.conditions start opened found.2 row

theorem contract? : Parser.contract?.Yields cursor fun tokens found height _ =>
    Contract.Derives tokens found height := by
  refine .accept (fun start _ _ => .last (conditions start) fun _ _ _ _ derived => derived) fun _ => ?_
  refine .bind (clause? .pre) fun before pre height _ _ derivedPre => ?_
  refine .bind (clause? .post) fun after post depth _ _ derivedPost => ?_
  have derived := Contract.Derives.clauses derivedPre derivedPost
  rcases pre with _ | pre <;> rcases post with _ | post <;>
    exact .pure (by simpa [Contract.ofClauses] using derived)

theorem variant : Parser.variant.Yields cursor fun tokens variant height _ =>
    Variant.Derives tokens variant height := by
  refine .name fun name _ _ => .accept (fun start _ _ => ?_) fun _ => .pure (.bare name)
  refine .bind (.list fun _ => type) fun _ found height _ _ ⟨passed, same, row⟩ => .pure ?_
  simpa [same] using Variant.Derives.parts name start found.2 row

theorem visibility : Parser.visibility.Yields cursor fun tokens visibility height _ =>
    ∃ isShown, Marks .pub isShown tokens ∧ visibility = (if isShown then .shown else .hidden) ∧
      height = 0 :=
  .accept (fun _ _ _ => .pure ⟨true, rfl, rfl, rfl⟩) fun _ => .pure ⟨false, rfl, rfl, rfl⟩

/-- A row of tokens starts where the cursor before it stands. -/
theorem span_of_passes {tokens : Tokens} {after : Cursor} (passes : Cursor.Passes tokens cursor after) :
    spanBefore after.span tokens = cursor.span := by
  have remaining := passes.remaining
  have offset := passes.endOffset
  cases tokens with
  | nil => simp_all [spanBefore, Cursor.span]
  | cons first rest => simp [spanBefore, Cursor.span, remaining]

theorem header : Parser.header.Yields cursor fun tokens header height after =>
    header.Derives after.span tokens height := by
  have attributes : Parser.attributes.Yields cursor fun tokens attributes height after =>
      Several Attribute.Derives tokens attributes height ∧ after.current? ≠ some (.symbol .at_) :=
    .opened fun start _ => attributeRest start
  refine .here (.bind attributes fun marks attributes height middle passes ⟨several, _⟩ => ?_)
  refine .bind visibility fun shown visibility depth after later ⟨isShown, marked, same, flat⟩ => ?_
  subst same flat
  refine .pure ?_
  rw [← span_of_passes (passes.trans later)]
  simpa using Header.Derives.mk several marked

/-- A name after two colons. -/
def PathPart (tokens : Tokens) (name : Name) (height : Nat) : Prop :=
  ∃ colons, tokens = [⟨.symbol .colonColon, colons⟩, name.ident] ∧ height = 0

/-- Names after colons are the rest of a path. -/
theorem path_of_several {tokens : Tokens} {names : List Name} {height : Nat}
    (several : Several PathPart tokens names height) :
    ∃ rest, tokens = pathTokens rest ∧ names = rest.map (·.2) ∧ height = 0 := by
  induction several with
  | none => exact ⟨[], rfl, rfl, rfl⟩
  | more first _ continued =>
    obtain ⟨colons, rfl, rfl⟩ := first
    obtain ⟨rest, rfl, rfl, rfl⟩ := continued
    exact ⟨(colons, _) :: rest, rfl, rfl, rfl⟩

/-- The names of a path after the first. -/
theorem path : (Parser.opened (.symbol .colonColon) fun _ => Parser.name .modulePath).Yields cursor
    fun tokens names height _ =>
      ∃ rest, tokens = pathTokens rest ∧ names = rest.map (·.2) ∧ height = 0 := by
  have names : (Parser.opened (.symbol .colonColon) fun _ => Parser.name .modulePath).Yields cursor
      fun tokens names height after =>
        Several PathPart tokens names height ∧ after.current? ≠ some (.symbol .colonColon) :=
    .opened fun colons _ => ident.mono fun _ _ _ _ holds => ⟨colons, by rw [holds.1], holds.2⟩
  exact names.mono fun _ _ _ _ holds => path_of_several holds.1

theorem useItem : Parser.useItem.Yields cursor fun tokens item height _ =>
    Item.Derives tokens (.use item) height := by
  refine .expect fun start _ _ => .name fun first middle _ => ?_
  refine .bind path fun passed names height _ _ ⟨rest, same, named, flat⟩ => ?_
  subst same named flat
  exact .expect fun stop _ _ => .pure (.use start stop first rest)

/-- What a definition without its header is, given the header. -/
def Headed {α : Type} (header : Parser.Header) (make : α → Item) (word : Span) (tokens : Tokens)
    (item : α) (depth : Nat) : Prop :=
  ∀ before height, header.Derives word before height →
    Item.Derives (before ++ tokens) (make item) (max height depth)

theorem structItem (header : Parser.Header) :
    (Parser.structItem header).Yields cursor fun tokens item depth _ =>
      Headed header .struct cursor.span tokens item depth := by
  refine .expect fun word _ passes => .name fun name _ _ => .expect fun opened _ _ => ?_
  refine .bind (.list fun _ => typedName .field) fun _ found depth _ _ ⟨passed, same, row⟩ => ?_
  refine .pure fun before height headed => ?_
  rw [Cursor.span_of_cons passes.remaining] at headed
  simpa [same] using Item.Derives.struct word opened found.2 name headed row

theorem enumItem (header : Parser.Header) :
    (Parser.enumItem header).Yields cursor fun tokens item depth _ =>
      Headed header .enum cursor.span tokens item depth := by
  refine .expect fun word _ passes => .name fun name _ _ => .expect fun opened _ _ => ?_
  refine .bind (.list fun _ => variant) fun _ found depth _ _ ⟨passed, same, row⟩ => ?_
  refine .pure fun before height headed => ?_
  rw [Cursor.span_of_cons passes.remaining] at headed
  simpa [same] using Item.Derives.enum word opened found.2 name headed row

theorem functionItem (header : Parser.Header) :
    (Parser.functionItem header).Yields cursor fun tokens item depth _ =>
      Headed header .function cursor.span tokens item depth := by
  refine .expect fun word _ passes => .name fun name _ _ => .expect fun opened _ _ => ?_
  refine .bind (.list fun _ => typedName .parameter) fun _ found second _ _ ⟨passed, same, row⟩ => ?_
  refine .expect fun arrow _ _ => labelled fun resultName labelledTokens _ named => ?_
  refine .bind type fun typed resultType third _ _ derivedType => ?_
  refine .bind contract? fun contracted contract fourth _ _ derivedContract => ?_
  refine .expect fun equal _ _ => ?_
  refine .bind expression fun tokens body fifth _ _ derivedBody => ?_
  refine .expect fun stop _ _ => .pure fun before height headed => ?_
  rw [Cursor.span_of_cons passes.remaining] at headed
  simpa [same] using Item.Derives.function word opened found.2 arrow equal stop name headed row named
    derivedType derivedContract derivedBody

/-- A plain header has no tokens. -/
theorem Header.derives_isPlain {header : Parser.Header} {following : Span} {tokens : Tokens}
    {height : Nat} (headed : header.Derives following tokens height) (plain : header.isPlain = true) :
    tokens = [] ∧ height = 0 := by
  obtain ⟨several, marked⟩ := headed
  simp only [Header.isPlain, Bool.and_eq_true, List.isEmpty_iff, decide_eq_true_eq] at plain
  obtain ⟨rfl, hidden⟩ := plain
  cases several
  next isShown =>
  cases isShown
  · simpa [Marks] using marked
  · cases hidden

theorem itemBody (header : Parser.Header) :
    (Parser.itemBody header).Yields cursor fun tokens item depth _ =>
      Headed header id cursor.span tokens item depth := by
  refine .current ?_
  split
  · split
    · next plain =>
      refine .last useItem fun tokens item depth after derived before height headed => ?_
      obtain ⟨rfl, rfl⟩ := Header.derives_isPlain headed plain
      simpa using derived
    · exact .fail
  · exact .last (structItem header) fun _ _ _ _ headed => headed
  · exact .last (enumItem header) fun _ _ _ _ headed => headed
  · exact .last (functionItem header) fun _ _ _ _ headed => headed
  · exact .fail

theorem item : Parser.item.Yields cursor fun tokens item height _ =>
    Item.Derives tokens item height := by
  refine .bind header fun before header height middle _ headed => ?_
  refine .bind (itemBody header) fun tokens item depth _ _ derived => .note (.pure ?_)
  simpa using derived before height headed

theorem program : Parser.program.Yields cursor fun tokens program height after =>
    program.Derives tokens height ∧ after.remaining = [] :=
  .last (.untilEnd fun _ => item) fun _ _ _ _ holds => holds

end Parser.Yields

end ContractSyntax
