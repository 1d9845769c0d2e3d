/-
**Printing keeps every token that counts.**

Each token of a phrase is found in its tree and printed again in its place. The induction on the
derivation compares the tokens of each phrase with those it is printed with. A phrase that may stand
behind a comma begins with no closing symbol; the rest of a block, which is printed in braces where
it is no lone value, may be empty and never stands there.

* `Derives.kept`: for expressions and types, at every phrase of the grammar;
* `Program.Derives.kept`: for programs.
-/

import ContractSyntax.Proofs.Printing.Contents
import ContractSyntax.Proofs.Printing.Program

namespace ContractSyntax

open Piece

/-- Whether the tokens of a phrase are like those its tree is printed with. -/
def Phrase.Kept : (phrase : Phrase) → Tokens → phrase.Tree → Prop
  | stated, tokens, tree => Alike (tokens.map Spanned.node) (Piece.tokens (statedPieces tree))
  | rest _ _, tokens, tree => Alike (tokens.map Spanned.node) (Piece.tokens tree.node.pieces)
  | items _, tokens, tree =>
    Alike (tokens.map Spanned.node) (Piece.tokens (itemsPieces tree.1 tree.2))
  | phrase, tokens, tree =>
    Opening (tokens.map Spanned.node) (Piece.tokens (phrase.pieces tree))

/-! ### Literals, names and marks -/

theorem Opening.token (token : Token) (other : token.isComma = false)
    (opens : token.closes = false) : Opening [token] [token] :=
  .cons token other opens .nil

theorem Opening.literal {source printed : Token} (same : source.content = printed.content)
    (brace : source.isBrace = printed.isBrace) (other : source.isComma = false)
    (other' : printed.isComma = false) (opens : source.closes = false)
    (opens' : printed.closes = false) : Opening [source] [printed] :=
  ⟨.literal same brace other other', ⟨_, _, rfl, opens⟩, ⟨_, _, rfl, opens'⟩⟩

theorem digitsValue_of_readInt64? {first second : String} {value : Int64}
    (read : readInt64? first = some value) (read' : readInt64? second = some value) :
    digitsValue first.toList = digitsValue second.toList := by
  obtain ⟨small, rfl⟩ := readInt64?_eq_some_iff.mp read
  obtain ⟨small', same⟩ := readInt64?_eq_some_iff.mp read'
  have equal := congrArg Int64.toInt same
  rw [toInt_ofNat small, toInt_ofNat small'] at equal
  exact (Int.natCast_inj.mp equal).symm

theorem Opening.int {digits : String} {value : Int64} (read : readInt64? digits = some value) :
    Opening [.int digits] (Piece.tokens (Piece.int value.toInt)) := by
  obtain ⟨printed, same, read'⟩ := pieces_int read
  rw [same]
  exact .literal (congrArg Content.int (digitsValue_of_readInt64? read read')) rfl rfl rfl rfl rfl

theorem Opening.float {digits : String} {value : Binary64}
    (read : readBinary64? digits = some value) :
    Opening [.float digits] (Piece.tokens (Piece.float value)) := by
  obtain ⟨printed, same, read'⟩ := pieces_float read
  rw [same]
  exact .literal (congrArg Content.float (read.trans read'.symm)) rfl rfl rfl rfl rfl

theorem Alike.length {digits : String} {length : UInt64}
    (read : readUInt64? digits = some length) :
    Alike [.int digits] (Piece.tokens (Piece.int length.toNat)) := by
  have value : digitsValue digits.toList = length.toNat := by
    unfold readUInt64? at read
    dsimp only at read
    split at read
    · next small =>
      obtain rfl := Option.some.inj read
      exact (UInt64.toNat_ofNat_of_lt small).symm
    · cases read
  have printed : Piece.int length.toNat = [.token (.int (toString length.toNat))] := by
    simp [Piece.int, Int.not_lt.mpr (Int.natCast_nonneg _)]
  rw [printed]
  refine .literal (congrArg Content.int ?_) rfl rfl rfl
  rw [value, digitsValue_toString]

theorem Alike.mark {word : Keyword} {isPresent : Bool} {tokens : Tokens}
    (marked : Marks word isPresent tokens) :
    Alike (tokens.map Spanned.node) (if isPresent then [.keyword word] else []) := by
  rw [marked]
  cases isPresent with
  | false => exact .nil
  | true => exact .token _ rfl

/-- The members of a list are like the members of the printed list. -/
theorem Alike.list {α : Type} {parts : List (Part α)} {tokens : Tokens} {close : Token}
    (closes : close.closes = true) (row : Commas (parts.map Part.tokens) tokens)
    {pieces : α → List Piece}
    (each : ∀ part ∈ parts,
      Opening (part.tokens.map Spanned.node) (Piece.tokens (pieces part.value))) :
    Alike (tokens.map Spanned.node ++ [close])
      (Piece.tokens (commas ((parts.map Part.value).map pieces)) ++ [close]) := by
  rw [List.map_map]
  exact .row closes row each

theorem Alike.exprs {parts : List (Part (Spanned Expr))} {tokens : Tokens} {close : Symbol}
    (closes : (Token.symbol close).closes = true) (row : Commas (parts.map Part.tokens) tokens)
    (each : ∀ part ∈ parts, Phrase.subexpr.Kept part.tokens part.value) :
    Alike (tokens.map Spanned.node ++ [.symbol close])
      (Piece.tokens (commas ((parts.map Part.value).map fun expr => expr.node.pieces)) ++
        [.symbol close]) :=
  .list closes row each

theorem Pattern.Derives.kept {tokens : Tokens} {pattern : Spanned Pattern}
    (derived : Pattern.Derives tokens pattern) :
    Opening (tokens.map Spanned.node) (Piece.tokens pattern.node.pieces) := by
  cases derived with
  | int read => exact .int read
  | float read => exact .float read
  | string | true | false | wildcard | bind => exact .token _ rfl rfl
  | variant => exact .cons _ rfl rfl (.cons _ rfl (.token _ rfl))
  | @variantOf enumeration chosen _ _ _ bindings _ row =>
    have names : Alike (_ ++ [.symbol .rightParen])
        (Piece.tokens (commas (bindings.map fun binding => [ident binding.node])) ++ _) :=
      .row rfl row fun _ _ => .token _ rfl rfl
    simpa [Pattern.pieces, variantPieces] using
      Opening.cons (.ident enumeration.node) rfl rfl (.cons (.symbol .colonColon) rfl
        (.cons (.ident chosen.node) rfl (.cons (.symbol .leftParen) rfl names)))

/-! ### Expressions and types -/

/-- A binding is like a binding of like parts. -/
theorem Opening.binding {mark stated valued rest : Tokens} {type : Option (Spanned Ty)}
    {value body : Spanned Expr} {isMutable : Bool} {start equal semicolon : Span} (name : Name)
    (marked : Marks .mut_ isMutable mark)
    (typed : Alike (stated.map Spanned.node) (Piece.tokens (statedPieces type)))
    (given : Alike (valued.map Spanned.node) (Piece.tokens value.node.pieces))
    (continued : Alike (rest.map Spanned.node) (Piece.tokens body.node.pieces)) :
    Opening
      (List.map Spanned.node (⟨.keyword .let_, start⟩ :: (mark ++ name.ident :: (stated ++
        ⟨.symbol .equal, equal⟩ :: (valued ++ ⟨.symbol .semicolon, semicolon⟩ :: rest)))))
      (Piece.tokens (Expr.binding isMutable name type value body).pieces) := by
  have given := given.append (.cons (.symbol .semicolon) rfl continued)
  have typed := typed.append (.cons (.symbol .equal) rfl given)
  have whole := Opening.cons (.keyword .let_) rfl rfl
    ((Alike.mark marked).append (.cons (.ident name.node) rfl typed))
  rw [Expr.pieces_binding]
  cases isMutable <;> simpa using whole

open ContractSyntax.Expr in
/-- The tokens of a phrase are like those its tree is printed with. -/
theorem Derives.kept {phrase : Phrase} {places : Tokens} {tree : phrase.Tree} {height : Nat}
    (derived : Derives phrase places tree height) : phrase.Kept places tree := by
  induction derived with
  -- operands
  | int read => exact .int read
  | float read => exact .float read
  | string | true | false | ret | it | var => exact .token _ rfl rfl
  | unit => exact .cons _ rfl rfl (.token _ rfl)
  | paren _ _ _ inner =>
    have inner := inner.1.append (.token (.symbol .rightParen) rfl)
    simpa [Phrase.Kept, Phrase.pieces, pieces_paren] using
      Opening.cons (.symbol .leftParen) rfl rfl inner
  | array _ _ _ row _ each =>
    have elements : Alike (_ ++ [.symbol .rightBracket]) _ := .exprs rfl row each
    simpa [Phrase.Kept, Phrase.pieces, pieces_array] using
      Opening.cons (.symbol .leftBracket) rfl rfl elements
  | construct _ _ _ struct parts row _ each =>
    have fields : Alike (_ ++ [.symbol .rightBrace])
        (Piece.tokens (commas ((parts.map Part.value).map FieldValue.pieces)) ++ _) :=
      .list rfl row each
    simpa [Phrase.Kept, Phrase.pieces, pieces_construct] using
      Opening.cons (.keyword .new) rfl rfl
        (.cons (.ident struct.node) rfl (.cons (.symbol .leftBrace) rfl fields))
  | call function _ _ _ row _ each =>
    have given : Alike (_ ++ [.symbol .rightParen]) _ := .exprs rfl row each
    simpa [Phrase.Kept, Phrase.pieces, pieces_call] using
      Opening.cons (.ident function.node) rfl rfl (.cons (.symbol .leftParen) rfl given)
  | variant => exact .cons _ rfl rfl (.cons _ rfl (.token _ rfl))
  | variantOf enumeration chosen _ _ _ _ row _ each =>
    have given : Alike (_ ++ [.symbol .rightParen]) _ := .exprs rfl row each
    simpa [Phrase.Kept, Phrase.pieces, pieces_variantOf, variantPieces] using
      Opening.cons (.ident enumeration.node) rfl rfl (.cons (.symbol .colonColon) rfl
        (.cons (.ident chosen.node) rfl (.cons (.symbol .leftParen) rfl given)))
  | field _ _ _ value => exact .cons _ rfl rfl (.cons _ rfl value.1)
  -- suffixes
  | operand _ operand => exact operand
  | state moment _ _ derived receiver =>
    have reached := receiver.append (.cons (.symbol .dot) rfl (.token (.keyword moment.word) rfl))
    simpa [Phrase.Kept, Phrase.pieces, pieces_state, derived.unparenthesized_receiver] using reached
  | member name _ derived receiver =>
    have reached := receiver.append (.cons (.symbol .dot) rfl (.token (.ident name.node) rfl))
    simpa [Phrase.Kept, Phrase.pieces, pieces_field, derived.unparenthesized_receiver] using reached
  | methodCall method _ _ _ derived _ row _ receiver each =>
    have given : Alike (_ ++ [.symbol .rightParen]) _ := .exprs rfl row each
    have reached := receiver.append (.cons (.symbol .dot) rfl
      (.cons (.ident method.node) rfl (.cons (.symbol .leftParen) rfl given)))
    simpa [Phrase.Kept, Phrase.pieces, pieces_methodCall, derived.unparenthesized_receiver] using
      reached
  | index _ _ derived _ receiver position =>
    have inner := position.1.append (.token (.symbol .rightBracket) rfl)
    have reached := receiver.append (.cons (.symbol .leftBracket) rfl inner)
    simpa [Phrase.Kept, Phrase.pieces, pieces_index, derived.unparenthesized_receiver] using reached
  -- operators
  | unsigned _ operand => exact operand
  | least =>
    simp only [Phrase.Kept, Phrase.pieces, Expr.pieces, pieces_least]
    exact .cons _ rfl rfl (.token _ rfl)
  | unary operator first others spelled derived operand =>
    have signs : Opening ((first :: others).map Spanned.node) operator.tokens := by
      rw [spelled]
      cases operator with
      | negate | not | reference | dereference => exact .token _ rfl rfl
      | mutableReference => exact .cons _ rfl rfl (.token _ rfl)
    simpa [Phrase.Kept, Phrase.pieces, pieces_unary, derived.unparenthesized_operand,
      UnaryOperator.tokens] using signs.append operand.1
  | single _ _ operand => exact operand
  | binary operator _ _ first second left right =>
    have infixed : Alike [operator.token] [operator.token] := by
      cases operator <;> exact .token _ rfl
    simpa [Phrase.Kept, Phrase.pieces, pieces_binary, first.unparenthesized_left,
      second.unparenthesized_right, BinaryOperator.piece] using left.append (infixed.append right.1)
  -- constructs
  | nested _ inner | operators _ inner => exact inner
  | conditional _ _ _ _ _ _ condition yes no =>
    have chosen := yes.1.append (.cons (.keyword .else_) rfl no.1)
    have asked := condition.1.append (.cons (.keyword .then_) rfl chosen)
    simpa [Phrase.Kept, Phrase.pieces, pieces_conditional] using
      Opening.cons (.keyword .if_) rfl rfl asked
  | binding _ _ _ _ name marked _ _ _ stated value body =>
    exact .binding name marked stated value.1 body.1
  | matching _ _ _ _ parts row _ subject each =>
    have arms : Alike (_ ++ [.symbol .rightBrace])
        (Piece.tokens (commas ((parts.map Part.value).map MatchArm.pieces)) ++ _) :=
      .list rfl row each
    have subject := subject.1.append (.cons (.symbol .leftBrace) rfl arms)
    simpa [Phrase.Kept, Phrase.pieces, pieces_matching] using
      Opening.cons (.keyword .match_) rfl rfl subject
  | arm _ pattern _ body =>
    have whole := pattern.kept.append (.cons (.symbol .fatArrow) rfl body.1)
    simpa [Phrase.Kept, Phrase.pieces, MatchArm.pieces_mk] using whole
  | whileLoop _ _ _ _ _ condition body =>
    have inner := Alike.cons (.symbol .leftBrace) rfl
      (body.1.append (.token (.symbol .rightBrace) rfl))
    simpa [Phrase.Kept, Phrase.pieces, pieces_whileLoop, commas, separated] using
      Opening.cons (.keyword .while_) rfl rfl (condition.1.append inner)
  | forLoop _ _ _ _ name _ _ range body =>
    have inner := Alike.cons (.symbol .leftBrace) rfl
      (body.1.append (.token (.symbol .rightBrace) rfl))
    simpa [Phrase.Kept, Phrase.pieces, pieces_forLoop, commas, separated] using
      Opening.cons (.keyword .for_) rfl rfl
        (.cons (.ident name.node) rfl (.cons (.keyword .in_) rfl (range.1.append inner)))
  | block _ _ _ items =>
    have inner := items.append (.token (.symbol .rightBrace) rfl)
    simpa [Phrase.Kept, Phrase.pieces, tokens_block] using
      Opening.cons (.symbol .leftBrace) rfl rfl inner
  -- blocks
  | nothing => exact .nil
  | value _ _ _ expr | bound _ expr =>
    simpa [Phrase.Kept, Phrase.pieces, itemsPieces, statementPieces] using expr.1
  | @statement _ _ _ _ _ _ last _ _ _ _ _ expr others =>
    have whole := expr.1.append (.cons (.symbol .semicolon) rfl others)
    cases last <;>
      simpa [Phrase.Kept, Phrase.pieces, itemsPieces, statementPieces_cons] using whole
  | @assign target _ _ _ _ _ _ _ last _ _ _ _ value others =>
    have whole := Alike.cons (.ident target.node) rfl (.cons (.symbol .equal) rfl
      (value.1.append (.cons (.symbol .semicolon) rfl others)))
    cases last <;>
      simpa [Phrase.Kept, Phrase.pieces, itemsPieces, statementPieces_cons, pieces_assign]
        using whole
  | bindingRest _ _ _ _ name marked _ _ _ stated value body =>
    exact .binding name marked stated value.1 body
  | lone _ _ items =>
    simpa [Phrase.Kept, itemsPieces, statementPieces] using items
  | remainder _ _ _ items =>
    simpa [Phrase.Kept, tokens_block] using items.braced
  -- types
  | nestedType _ inner => exact inner
  | unstated => exact .nil
  | stated _ _ type => exact .cons _ rfl type.1
  | primitive | named => exact .token _ rfl rfl
  | unitType => exact .cons _ rfl rfl (.token _ rfl)
  | @reference _ _ _ _ _ isMutable marked _ target =>
    have whole := Opening.cons (.symbol .ampersand) rfl rfl ((Alike.mark marked).append target.1)
    cases isMutable <;> simpa [Phrase.Kept, Phrase.pieces, Ty.pieces] using whole
  | arrayType _ _ _ _ read _ element =>
    have length := (Alike.length read).append (.token (.symbol .rightBracket) rfl)
    have inner := element.1.append (.cons (.symbol .semicolon) rfl length)
    simpa [Phrase.Kept, Phrase.pieces, Ty.pieces] using
      Opening.cons (.symbol .leftBracket) rfl rfl inner
  | refined base _ _ _ _ _ row _ each =>
    have constraints : Alike (_ ++ [.symbol .rightBrace]) _ := .exprs rfl row each
    simpa [Phrase.Kept, Phrase.pieces, Ty.pieces_refined] using
      Opening.cons (.keyword base.word) rfl rfl (.cons (.symbol .leftBrace) rfl constraints)

/-! ### Definitions -/

section Definitions

variable {places : Tokens} {height : Nat}

/-- The members of a row are like the members of the printed row. -/
theorem Row.kept {α : Type} {meaning : Tokens → α → Nat → Prop} {values : List α}
    (row : Row meaning places values height) (close : Symbol)
    (closes : (Token.symbol close).closes = true) (pieces : α → List Piece)
    (each : ∀ places value height, meaning places value height →
      Opening (places.map Spanned.node) (Piece.tokens (pieces value))) :
    Alike (places.map Spanned.node ++ [.symbol close])
      (Piece.tokens (commas (values.map pieces)) ++ [.symbol close]) := by
  obtain ⟨parts, commas, rfl, _, derived⟩ := row
  exact .list closes commas fun part member => each _ _ _ (derived part member)

theorem Derives.kept_expr {tree : Spanned Expr} (derived : Derives .subexpr places tree height) :
    Opening (places.map Spanned.node) (Piece.tokens tree.node.pieces) :=
  derived.kept

theorem Derives.kept_type {tree : Spanned Ty} (derived : Derives .subtype places tree height) :
    Opening (places.map Spanned.node) (Piece.tokens tree.node.pieces) :=
  derived.kept

theorem TypedName.Derives.kept {typed : TypedName}
    (derived : TypedName.Derives places typed height) :
    Opening (places.map Spanned.node) (Piece.tokens typed.pieces) := by
  obtain ⟨name, colon, type⟩ := derived
  exact .cons _ rfl rfl (.cons _ rfl type.kept_type.1)

theorem Attribute.Derives.kept {mark : Attribute} (derived : Attribute.Derives places mark height) :
    Opening (places.map Spanned.node) (Piece.tokens mark.pieces) := by
  cases derived with
  | bare start name => exact .cons _ rfl rfl (.token _ rfl)
  | applied start opened stop name row =>
    have given := row.kept .rightParen rfl _ fun _ _ _ derived => derived.kept_expr
    simpa [Attribute.pieces, argumentPieces, exprPieces_eq] using
      Opening.cons (.symbol .at_) rfl rfl
        (.cons (.ident name.node) rfl (.cons (.symbol .leftParen) rfl given))

theorem Labelled.kept {label : Option Name} (labelled : Labelled places label) :
    Alike (places.map Spanned.node) (Piece.tokens (labelPieces label)) := by
  cases labelled with
  | absent => exact .nil
  | present name => exact .cons _ rfl (.token _ rfl)

theorem Condition.Derives.kept {condition : Condition}
    (derived : Condition.Derives places condition height) :
    Opening (places.map Spanned.node) (Piece.tokens condition.pieces) := by
  obtain ⟨labelled, expr⟩ := derived
  rw [Condition.pieces_eq, tokens_append, List.map_append]
  cases labelled with
  | absent => exact expr.kept_expr
  | present name => exact .cons _ rfl rfl (.cons _ rfl expr.kept_expr.1)

theorem Clause.kept {start : Keyword} {found : Option (Spanned Expr)}
    (clause : Clause start places found height) :
    Alike (places.map Spanned.node) (Piece.tokens (clausePieces start found)) := by
  cases clause with
  | absent => exact .nil
  | present _ derived => exact .cons _ rfl derived.kept_expr.1

theorem Contract.Derives.kept {contract : Option Contract}
    (derived : Contract.Derives places contract height) :
    Alike (places.map Spanned.node) (Piece.tokens (contractPieces contract)) := by
  cases derived with
  | conditions start opened stop row =>
    have conditions := row.kept .rightBrace rfl _ fun _ _ _ derived => derived.kept
    simpa [contractPieces, Contract.pieces] using
      Alike.cons (.keyword .where_) rfl (.cons (.symbol .leftBrace) rfl conditions)
  | clauses pre post =>
    rw [tokens_clauses, List.map_append]
    exact pre.kept.append post.kept

theorem Variant.Derives.kept {variant : Variant} (derived : Variant.Derives places variant height) :
    Opening (places.map Spanned.node) (Piece.tokens variant.pieces) := by
  cases derived with
  | bare name => exact .token _ rfl rfl
  | parts name start stop row =>
    have parts := row.kept .rightParen rfl (fun part => part.node.pieces)
      fun _ _ _ derived => derived.kept_type
    simpa [Variant.pieces] using
      Opening.cons (.ident name.node) rfl rfl (.cons (.symbol .leftParen) rfl parts)

theorem Several.kept {α : Type} {meaning : Tokens → α → Nat → Prop} {values : List α}
    (several : Several meaning places values height) {pieces : α → List Piece}
    (each : ∀ places value height, meaning places value height →
      Alike (places.map Spanned.node) (Piece.tokens (pieces value))) :
    Alike (places.map Spanned.node)
      (Piece.tokens (values.flatMap fun value => pieces value ++ [newline])) := by
  induction several with
  | none => exact .nil
  | more first _ continued => simpa using (each _ _ _ first).append continued

theorem Parser.Header.Derives.kept {header : Parser.Header} {following : Span}
    (headed : header.Derives following places height) :
    Alike (places.map Spanned.node)
      (Piece.tokens (headerPieces header.attributes header.visibility)) := by
  obtain ⟨several, shown⟩ := headed
  have marks := several.kept fun _ _ _ derived => derived.kept.1
  rw [tokens_header, List.map_append]
  exact marks.append (.mark shown)

theorem Alike.path (first : Name) (rest : List (Span × Name)) :
    Alike ((first.ident :: pathTokens rest).map Spanned.node)
      (Piece.tokens (separated [sign .colonColon]
        ((first :: rest.map (·.2)).map fun part => [ident part.node]))) := by
  induction rest generalizing first with
  | nil => exact .token _ rfl
  | cons part rest continued => exact .cons _ rfl (.cons _ rfl (continued part.2))

theorem Item.Derives.kept {item : Item} (derived : Item.Derives places item height) :
    Alike (places.map Spanned.node) (Piece.tokens item.pieces) := by
  cases derived with
  | use start stop first rest =>
    have path := (Alike.path first rest).append (.token (.symbol .semicolon) rfl)
    simpa [Item.pieces] using Alike.cons (.keyword .use) rfl path
  | struct word opened stop name headed row =>
    have fields := row.kept .rightBrace rfl _ fun _ _ _ derived => derived.kept
    have whole := headed.kept.append (.cons (.keyword .struct) rfl
      (.cons (.ident name.node) rfl (.cons (.symbol .leftBrace) rfl fields)))
    simpa [Item.pieces] using whole
  | enum word opened stop name headed row =>
    have variants := row.kept .rightBrace rfl _ fun _ _ _ derived => derived.kept
    have whole := headed.kept.append (.cons (.keyword .enum) rfl
      (.cons (.ident name.node) rfl (.cons (.symbol .leftBrace) rfl variants)))
    simpa [Item.pieces] using whole
  | function word opened closed arrow equal stop name headed row named derivedType derivedContract
      derivedBody =>
    have parameters := row.kept .rightParen rfl _ fun _ _ _ derived => derived.kept
    have body := derivedBody.kept_expr.1.append (.token (.symbol .semicolon) rfl)
    have result := named.kept.append (derivedType.kept_type.1.append
      (derivedContract.kept.append (.cons (.symbol .equal) rfl body)))
    have listed := parameters.append (.cons (.symbol .arrow) rfl result)
    have whole := headed.kept.append (.cons (.keyword .fn) rfl
      (.cons (.ident name.node) rfl (.cons (.symbol .leftParen) rfl listed)))
    simpa [Item.pieces_function] using whole

/-- The tokens of a program are like those it is printed with. -/
theorem Program.Derives.kept {program : Program} (derived : program.Derives places height) :
    Alike (places.map Spanned.node) (Piece.tokens program.pieces) :=
  Several.kept derived fun _ _ _ derived => derived.kept

end Definitions

end ContractSyntax
