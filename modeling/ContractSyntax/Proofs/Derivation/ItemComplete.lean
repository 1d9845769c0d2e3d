/-
**Every derivation of a definition or a program is read, if there is room for it.**

Definitions are read one after the other, so what is shown of expressions and types is put together
along each definition.

* `Item.Derives.takes`, `Program.Derives.takes`: definitions and programs are read;
* `Contract.Derives.takes`: and so are contracts by themselves.
-/

import ContractSyntax.Proofs.Derivation.Complete
import ContractSyntax.Proofs.Derivation.Item

namespace ContractSyntax

open ContractSyntax.Parser

variable {tokens rest : Tokens} {height room : Nat}

/-! ### Expressions and types at the outermost level -/

theorem Derives.takes_expression {tree : Spanned Expr} (derived : Derives .subexpr tokens tree height)
    (fits : room ≤ nestingLimit) (ends : EndsExpr rest) :
    Parser.expression.Takes tokens rest tree height room :=
  derived.reads nestingLimit room rest fits ends

theorem Derives.takes_type {tree : Spanned Ty} (derived : Derives .subtype tokens tree height)
    (fits : room ≤ nestingLimit) (ends : EndsType rest) :
    Parser.type.Takes tokens rest tree height room :=
  derived.reads nestingLimit room rest fits ends

theorem EndsType.ofListed {close : Symbol} (other : close ≠ .leftBrace)
    (listed : Listed close rest) : EndsType rest := by
  rcases listed with comma | closes
  · rw [EndsType, comma]
    nofun
  · rw [EndsType, closes]
    exact fun same => other (Token.symbol.inj (Option.some.inj same))

/-- What a row derives, a list takes. -/
theorem Row.takes {α : Type} {meaning : Tokens → α → Nat → Prop} {values : List α}
    {item : Parser α} {close : Symbol} {stop : Span} (other : close ≠ .comma)
    (row : Row meaning tokens values height)
    (each : ∀ tokens value height, meaning tokens value height →
      (∀ rest, Listed close rest → item.Takes tokens rest value height room) ∧
        ∀ rest, (tokens ++ rest).head?.map Spanned.node ≠ some (.symbol close)) :
    (Parser.list close item).Takes (tokens ++ [⟨.symbol close, stop⟩]) rest (values, stop) height
      room := by
  obtain ⟨parts, commas, rfl, rfl, derived⟩ := row
  refine .list other commas fun part member => ?_
  obtain ⟨taken, starts⟩ := each _ _ _ (derived part member)
  exact ⟨taken, starts⟩

theorem Row.takes_expressions {given : List (Spanned Expr)} {close : Symbol} {stop : Span}
    (other : close ≠ .comma) (ends : (Token.symbol close).isContinuation = false)
    (opens : (Token.symbol close).opensExpr = false)
    (row : Row (Derives .subexpr) tokens given height) (fits : room ≤ nestingLimit) :
    (Parser.list close Level.top.subexpr).Takes (tokens ++ [⟨.symbol close, stop⟩]) rest
      (given, stop) height room :=
  row.takes other fun _ _ _ derived =>
    ⟨fun _ listed => derived.takes_expression fits (.ofListed ends listed),
      fun _ => derived.opened.head opens⟩

theorem takes_arguments? {given : List (Spanned Expr)} {opened stop : Span}
    (row : Row (Derives .subexpr) tokens given height) (fits : room ≤ nestingLimit) :
    Level.top.arguments?.Takes
      (⟨.symbol .leftParen, opened⟩ :: (tokens ++ [⟨.symbol .rightParen, stop⟩])) rest
      (some (given, stop)) height room :=
  .accept (.last (row.takes_expressions (by decide) rfl rfl fits) .pure)

theorem Row.takes_types {parts : List (Spanned Ty)} {stop : Span}
    (row : Row (Derives .subtype) tokens parts height) (fits : room ≤ nestingLimit) :
    (Parser.list .rightParen Parser.type).Takes (tokens ++ [⟨.symbol .rightParen, stop⟩]) rest
      (parts, stop) height room :=
  row.takes (by decide) fun _ _ _ derived =>
    ⟨fun _ listed => derived.takes_type fits (.ofListed (by decide) listed),
      fun _ => derived.opened.head rfl⟩

theorem TypedName.Derives.takes {typed : TypedName} (role : NameRole)
    (derived : TypedName.Derives tokens typed height) (fits : room ≤ nestingLimit)
    (ends : EndsType rest) : (Parser.typedName role).Takes tokens rest typed height room := by
  obtain ⟨name, colon, derived⟩ := derived
  exact .name (.expect (.last (derived.takes_type fits ends) .pure))

theorem Row.takes_typedNames {listed : List TypedName} {close : Symbol} {stop : Span}
    (role : NameRole) (comma : close ≠ .comma) (brace : close ≠ .leftBrace)
    (row : Row TypedName.Derives tokens listed height) (fits : room ≤ nestingLimit) :
    (Parser.list close (Parser.typedName role)).Takes (tokens ++ [⟨.symbol close, stop⟩]) rest
      (listed, stop) height room := by
  refine row.takes comma fun _ _ _ derived => ⟨fun _ listed => ?_, fun _ => ?_⟩
  · exact derived.takes role fits (.ofListed brace listed)
  · obtain ⟨name, colon, _⟩ := derived
    nofun

/-! ### Attributes and headers -/

theorem Attribute.Derives.takes {mark : Attribute} (derived : Attribute.Derives tokens mark height)
    (fits : room ≤ nestingLimit) (ends : rest.head?.map Spanned.node ≠ some (.symbol .leftParen)) :
    ∃ start others, tokens = ⟨.symbol .at_, start⟩ :: others ∧
      (Parser.attributeRest start).Takes others rest mark height room := by
  cases derived with
  | bare start name =>
    exact ⟨start, _, rfl, .name (.last (Level.takes_arguments?_none ends) .pure)⟩
  | applied start opened stop name row =>
    exact ⟨start, _, rfl, .name (.last (takes_arguments? row fits) .pure)⟩

theorem Attribute.Derives.head {mark : Attribute} (derived : Attribute.Derives tokens mark height) :
    (tokens ++ rest).head?.map Spanned.node = some (.symbol .at_) := by
  cases derived <;> rfl

theorem takes_attributes {marks : List Attribute}
    (several : Several Attribute.Derives tokens marks height) (fits : room ≤ nestingLimit)
    (parenthesis : rest.head?.map Spanned.node ≠ some (.symbol .leftParen))
    (sign : rest.head?.map Spanned.node ≠ some (.symbol .at_)) :
    Parser.attributes.Takes tokens rest marks height room := by
  induction several with
  | none => exact .openedNone sign
  | @more tokens others mark marks height depth first several continued =>
    have next : (others ++ rest).head?.map Spanned.node ≠ some (.symbol .leftParen) := by
      cases several with
      | none => exact parenthesis
      | more second _ =>
        rw [List.append_assoc, second.head]
        nofun
    obtain ⟨start, tail, rfl, taken⟩ := first.takes fits next
    exact .openedMore taken continued

theorem takes_visibility {isShown : Bool} (marked : Marks .pub isShown tokens)
    (other : rest.head?.map Spanned.node ≠ some (.keyword .pub)) :
    Parser.visibility.Takes tokens rest (if isShown then .shown else .hidden) 0 room := by
  cases isShown with
  | false =>
    obtain rfl := List.map_eq_nil_iff.mp marked
    exact .acceptNone other .pure
  | true =>
    obtain ⟨⟨node, span⟩, rfl, rfl⟩ := List.map_eq_singleton_iff.mp marked
    exact .accept .pure

/-- A header is followed by the word for a definition. -/
theorem Parser.Header.Derives.takes {header : Parser.Header} {following : Span} {word : Keyword}
    (derived : header.Derives following tokens height) (other : word ≠ .pub)
    (fits : room ≤ nestingLimit) :
    Parser.header.Takes tokens (⟨.keyword word, following⟩ :: rest) header height room := by
  obtain ⟨several, marked⟩ := derived
  next marks shown attributes isShown =>
  have start (cursor : Cursor)
      (remaining : cursor.remaining = marks ++ shown ++ ⟨.keyword word, following⟩ :: rest) :
      cursor.span = spanBefore following (marks ++ shown) := by
    cases whole : marks ++ shown with
    | nil => rw [Cursor.span_of_cons (whole ▸ remaining)]; rfl
    | cons first more => rw [Cursor.span_of_cons (whole ▸ remaining)]; rfl
  have head (token : Token) (first : token ≠ .keyword .pub) (second : token ≠ .keyword word) :
      (shown ++ ⟨.keyword word, following⟩ :: rest).head?.map Spanned.node ≠ some token := by
    cases isShown with
    | false =>
      obtain rfl := List.map_eq_nil_iff.mp marked
      exact fun same => second (Option.some.inj same).symm
    | true =>
      obtain ⟨⟨node, span⟩, rfl, rfl⟩ := List.map_eq_singleton_iff.mp marked
      exact fun same => first (Option.some.inj same).symm
  have visible : Parser.visibility.Takes shown (⟨.keyword word, following⟩ :: rest)
      (if isShown then .shown else .hidden) 0 room :=
    takes_visibility marked fun same => other (Token.keyword.inj (Option.some.inj same))
  exact .here start (.lead (takes_attributes several fits (head _ nofun nofun) (head _ nofun nofun))
    (.last visible .pure))

/-! ### Contracts -/

theorem Labelled.takes {β : Type} {label : Option Name} {before : Tokens}
    {next : Option Name → Parser β} {result : β} (labelled : Labelled before label)
    (other : ∀ text, (tokens ++ rest).head?.map Spanned.node = some (.ident text) →
      (tokens ++ rest).tail.head?.map Spanned.node ≠ some (.symbol .colon))
    (continued : (next label).Takes tokens rest result height room) :
    (Parser.nameBefore (.symbol .colon) >>= next).Takes (before ++ tokens) rest result height
      room := by
  cases labelled with
  | absent => exact .nameBeforeNone other continued
  | present name colon => exact .nameBefore continued

theorem Condition.Derives.takes {condition : Condition}
    (derived : Condition.Derives tokens condition height) (fits : room ≤ nestingLimit)
    (ends : EndsExpr rest) (colon : rest.head?.map Spanned.node ≠ some (.symbol .colon)) :
    Parser.condition.Takes tokens rest condition height room := by
  obtain ⟨labelled, derived⟩ := derived
  refine labelled.takes (fun _ => derived.opened.second_ne rfl colon) ?_
  exact .last (derived.takes_expression fits ends) .pure

theorem Condition.Derives.starts {condition : Condition}
    (derived : Condition.Derives tokens condition height) :
    (tokens ++ rest).head?.map Spanned.node ≠ some (.symbol .rightBrace) := by
  obtain ⟨labelled, derived⟩ := derived
  cases labelled with
  | absent => exact derived.opened.head rfl
  | present name colon => nofun

/-- The rest does not go on with a contract, nor with an expression at its end. -/
structure EndsContract (rest : Tokens) : Prop where
  expr : EndsExpr rest
  first : rest.head?.map Spanned.node ≠ some (.keyword .where_)
  pre : rest.head?.map Spanned.node ≠ some (.keyword .pre)
  post : rest.head?.map Spanned.node ≠ some (.keyword .post)

theorem Clause.takes {word : Keyword} {condition : Option (Spanned Expr)}
    (clause : Clause word tokens condition height) (fits : room ≤ nestingLimit)
    (ends : EndsExpr rest) (other : rest.head?.map Spanned.node ≠ some (.keyword word)) :
    (Parser.clause? word).Takes tokens rest condition height room := by
  cases clause with
  | absent => exact .acceptNone other .pure
  | present start derived => exact .accept (.last (derived.takes_expression fits ends) .pure)

/-- What may follow a clause follows it also after another clause. -/
theorem Clause.head {word : Keyword} {condition : Option (Spanned Expr)} {token : Token}
    (clause : Clause word tokens condition height) (other : token ≠ .keyword word)
    (after : rest.head?.map Spanned.node ≠ some token) :
    (tokens ++ rest).head?.map Spanned.node ≠ some token := by
  cases clause with
  | absent => exact after
  | present start _ => exact fun same => other (Option.some.inj same).symm

theorem Clause.ends {word : Keyword} {condition : Option (Spanned Expr)}
    (clause : Clause word tokens condition height)
    (continues : (Token.keyword word).isContinuation = false) (ends : EndsExpr rest) :
    EndsExpr (tokens ++ rest) := by
  cases clause with
  | absent => exact ends
  | present start _ => exact .cons continues

theorem Contract.Derives.takes {contract : Option Contract}
    (derived : Contract.Derives tokens contract height) (fits : room ≤ nestingLimit)
    (ends : EndsContract rest) : Parser.contract?.Takes tokens rest contract height room := by
  cases derived with
  | conditions start opened stop row =>
    refine .accept (.last (.expect (.last (row.takes (by decide) ?_) (.note .pure))) .pure)
    refine fun _ _ _ derived => ⟨fun _ listed => ?_, fun _ => derived.starts⟩
    refine derived.takes fits (.ofListed rfl listed) fun colon => ?_
    rcases listed with comma | closes
    · rw [colon] at comma
      cases comma
    · rw [colon] at closes
      cases closes
  | @clauses before after pre post height depth derivedPre derivedPost =>
    have first := derivedPre.head (by nofun) (derivedPost.head (by nofun) ends.first)
    have takenPre := derivedPre.takes fits (derivedPost.ends rfl ends.expr)
      (derivedPost.head (by nofun) ends.pre)
    have takenPost := derivedPost.takes fits ends.expr ends.post
    rw [← List.append_assoc] at first
    refine .acceptNone first (.bind takenPre (.last takenPost ?_))
    cases pre <;> cases post <;> exact .pure

/-! ### Definitions -/

/-- A contract begins with a reserved word, if it has any tokens. -/
theorem Contract.Derives.head {contract : Option Contract} {token : Token}
    (derived : Contract.Derives tokens contract height) (other : ∀ word, token ≠ .keyword word)
    (after : rest.head?.map Spanned.node ≠ some token) :
    (tokens ++ rest).head?.map Spanned.node ≠ some token := by
  cases derived with
  | conditions => exact fun same => other _ (Option.some.inj same).symm
  | clauses derivedPre derivedPost =>
    rw [List.append_assoc]
    exact derivedPre.head (other _) (derivedPost.head (other _) after)

theorem Variant.Derives.takes {variant : Variant} {close : Symbol}
    (derived : Variant.Derives tokens variant height) (fits : room ≤ nestingLimit)
    (other : close ≠ .leftParen) (listed : Listed close rest) :
    Parser.variant.Takes tokens rest variant height room := by
  cases derived with
  | bare name =>
    refine .name (.acceptNone ?_ .pure)
    rcases listed with comma | closes
    · rw [List.nil_append, comma]
      nofun
    · rw [List.nil_append, closes]
      exact fun same => other (Token.symbol.inj (Option.some.inj same))
  | parts name start stop row => exact .name (.accept (.last (row.takes_types fits) .pure))

theorem takes_path {rest : Tokens} (names : List (Span × Name))
    (ended : rest.head?.map Spanned.node ≠ some (.symbol .colonColon)) :
    (Parser.opened (.symbol .colonColon) fun _ => Parser.name .modulePath).Takes (pathTokens names)
      rest (names.map (·.2)) 0 room := by
  induction names with
  | nil => exact .openedNone ended
  | cons part names continued => exact .openedMore .named continued

theorem Parser.Header.derives_plain (following : Span) :
    Parser.Header.Derives following [] ⟨following, [], .hidden⟩ 0 :=
  have unmarked : Marks .pub false [] := rfl
  .mk .none unmarked

theorem takes_useItem {start stop : Span} {first : Name} {names : List (Span × Name)} :
    Parser.useItem.Takes
      (⟨.keyword .use, start⟩ :: first.ident :: (pathTokens names ++ [⟨.symbol .semicolon, stop⟩]))
      rest ⟨first :: names.map (·.2), start.merge stop⟩ 0 room :=
  .expect (.name (.lead (takes_path names (by nofun)) (.expect .pure)))

theorem takes_structItem {header : Parser.Header} {word opened stop : Span} {name : Name}
    {fields : List TypedName} (row : Row TypedName.Derives tokens fields height)
    (fits : room ≤ nestingLimit) :
    (Parser.structItem header).Takes
      (⟨.keyword .struct, word⟩ :: name.ident :: ⟨.symbol .leftBrace, opened⟩ ::
        (tokens ++ [⟨.symbol .rightBrace, stop⟩])) rest
      ⟨header.attributes, header.visibility, name, fields, header.start.merge stop⟩ height room :=
  .expect (.name (.expect
    (.last (row.takes_typedNames .field (by decide) (by decide) fits) .pure)))

theorem takes_enumItem {header : Parser.Header} {word opened stop : Span} {name : Name}
    {variants : List Variant} (row : Row Variant.Derives tokens variants height)
    (fits : room ≤ nestingLimit) :
    (Parser.enumItem header).Takes
      (⟨.keyword .enum, word⟩ :: name.ident :: ⟨.symbol .leftBrace, opened⟩ ::
        (tokens ++ [⟨.symbol .rightBrace, stop⟩])) rest
      ⟨header.attributes, header.visibility, name, variants, header.start.merge stop⟩ height
      room := by
  refine .expect (.name (.expect (.last (row.takes (by decide) ?_) .pure)))
  refine fun _ _ _ derived => ⟨fun _ listed => ?_, fun _ => ?_⟩
  · exact derived.takes fits (by decide) listed
  · cases derived <;> nofun

theorem takes_functionItem {header : Parser.Header} {word opened closed arrow equal stop : Span}
    {name : Name} {listed labelled typed contracted : Tokens} {parameters : List TypedName}
    {resultName : Option Name} {resultType : Spanned Ty} {contract : Option Contract}
    {body : Spanned Expr} {second third fourth fifth : Nat}
    (row : Row TypedName.Derives listed parameters second) (named : Labelled labelled resultName)
    (derivedType : Derives .subtype typed resultType third)
    (derivedContract : Contract.Derives contracted contract fourth)
    (derivedBody : Derives .subexpr tokens body fifth) (fits : room ≤ nestingLimit) :
    (Parser.functionItem header).Takes
      (⟨.keyword .fn, word⟩ :: name.ident :: ⟨.symbol .leftParen, opened⟩ ::
        (listed ++ ⟨.symbol .rightParen, closed⟩ :: ⟨.symbol .arrow, arrow⟩ ::
        (labelled ++ (typed ++ (contracted ++ ⟨.symbol .equal, equal⟩ ::
        (tokens ++ [⟨.symbol .semicolon, stop⟩])))))) rest
      ⟨header.attributes, header.visibility, name, parameters, resultName, resultType, contract,
        body, header.start.merge stop⟩
      (max second (max third (max fourth fifth))) room := by
  have parametersTaken {rest : Tokens} :
      (Parser.list .rightParen (Parser.typedName .parameter)).Takes
        (listed ++ [⟨.symbol .rightParen, closed⟩]) rest (parameters, closed) second room :=
    row.takes_typedNames .parameter (by decide) (by decide) fits
  have after (token : Token) (word : ∀ word, token ≠ .keyword word)
      (other : token ≠ .symbol .equal) :
      (contracted ++ (⟨.symbol .equal, equal⟩ :: (tokens ++ [⟨.symbol .semicolon, stop⟩]) : Tokens) ++
        rest).head?.map Spanned.node ≠ some token := by
    rw [List.append_assoc]
    exact derivedContract.head word fun same => other (Option.some.inj same).symm
  refine .expect (.name (.expect ?_))
  rw [List.append_cons listed]
  refine .bind parametersTaken (.expect (named.takes (fun _ => ?_) ?_))
  · rw [List.append_assoc]
    exact derivedType.opened.second_ne rfl (after (.symbol .colon) nofun nofun)
  refine .bind (derivedType.takes_type fits (after _ nofun nofun)) ?_
  refine .bind (derivedContract.takes fits ⟨.cons rfl, nofun, nofun, nofun⟩) (.expect ?_)
  exact .lead (derivedBody.takes_expression fits (.cons rfl)) (.expect .pure)

/-- A definition is read, whatever follows it. -/
theorem Item.Derives.takes {item : Item} (derived : Item.Derives tokens item height)
    (fits : room ≤ nestingLimit) : Parser.item.Takes tokens rest item height room := by
  cases derived with
  | use start stop first names =>
    have other : Keyword.use ≠ .pub := by decide
    have header {following rest : Tokens} :
        Parser.header.Takes [] (⟨.keyword .use, start⟩ :: following ++ rest) _ 0 room :=
      (Parser.Header.derives_plain start).takes other fits
    refine .flat header (.last (.current ?_) (.note .pure))
    exact .last takes_useItem .pure
  | struct word opened stop name headed row =>
    refine .bind (headed.takes (by decide) fits) (.last (.current ?_) (.note .pure))
    exact .last (takes_structItem row fits) .pure
  | enum word opened stop name headed row =>
    refine .bind (headed.takes (by decide) fits) (.last (.current ?_) (.note .pure))
    exact .last (takes_enumItem row fits) .pure
  | function word opened closed arrow equal stop name headed row named derivedType derivedContract
      derivedBody =>
    refine .bind (headed.takes (by decide) fits) (.last (.current ?_) (.note .pure))
    exact .last (takes_functionItem row named derivedType derivedContract derivedBody fits) .pure

/-- A definition has tokens. -/
theorem Item.Derives.tokens_ne_nil {item : Item} (derived : Item.Derives tokens item height) :
    tokens ≠ [] := by
  cases derived <;> simp

theorem takes_items {items : List Item} (several : Several Item.Derives tokens items height)
    (fits : room ≤ nestingLimit) :
    (Parser.untilEnd Parser.item Parser.item_advances).Takes tokens [] items height room := by
  induction several with
  | none => exact .untilEndNone
  | more first _ continued =>
    exact .untilEndMore first.tokens_ne_nil (first.takes fits) continued

/-- A program is read to its end. -/
theorem Program.Derives.takes {program : Program} (derived : program.Derives tokens height)
    (fits : room ≤ nestingLimit) : Parser.program.Takes tokens [] program height room :=
  .last (takes_items derived fits) .pure

end ContractSyntax
