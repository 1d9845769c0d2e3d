/-
**Printed trees are legible.**

The tree of a derivation is printed with the names and strings of its tokens and with digits of its
own. So its pieces are legible if the tokens it was derived from have the shapes of their kinds. The
induction on the derivation puts segments together in the order in which the pieces are printed;
what a list or a block encloses may be nothing, and then has the same edge on either side.

* `Derives.legible`: for expressions and types, at every phrase of the grammar;
* `Program.Derives.legible`: for programs.
-/

import ContractSyntax.Proofs.Lexing.Segment
import ContractSyntax.Proofs.Printing.Program

namespace ContractSyntax

open Piece

/-! ### Lists and gaps -/

namespace Segment

variable {first last : Edge} {pieces : List Piece}

/-- A token and a space. -/
theorem spaced {content : Token} (wellFormed : content.WellFormed)
    (begins : ∀ text, first.Begins (content.text.toList ++ text)) :
    Segment first last [.token content, Piece.space] := fun _ legible _ =>
  ⟨⟨wellFormed, stops_of_blank content (by decide) _, legible⟩, begins _⟩

/-- A word and a space. -/
theorem leading (keyword : Keyword) : Segment .operand last [Piece.word keyword, Piece.space] :=
  spaced trivial (begins_operand (show (Token.keyword keyword).WellFormed from trivial) nofun)

/-- A symbol and a space. -/
theorem trailing (mark : Symbol) (other : mark ≠ .dot) :
    Segment .separator last [sign mark, Piece.space] :=
  spaced trivial (begins_separator mark other)

/-- A token with a space on either side. -/
theorem amid {content : Token} (wellFormed : content.WellFormed) :
    Segment first last [Piece.space, .token content, Piece.space] := fun _ legible _ =>
  ⟨⟨wellFormed, stops_of_blank content (by decide) _, legible⟩, begins_blank _ (by decide) _⟩

theorem amidWord (keyword : Keyword) :
    Segment first last [Piece.space, Piece.word keyword, Piece.space] :=
  amid (show (Token.keyword keyword).WellFormed from trivial)

theorem amidSymbol (mark : Symbol) :
    Segment first last [Piece.space, sign mark, Piece.space] :=
  amid (show (Token.symbol mark).WellFormed from trivial)

theorem commas {lists : List (List Piece)}
    (each : ∀ pieces ∈ lists, Segment .operand .separator pieces) :
    Segment .separator .separator (Piece.commas lists) ∨
      Segment .operand .separator (Piece.commas lists) := by
  induction lists with
  | nil => exact .inl nil
  | cons pieces lists continued =>
    have here := each pieces List.mem_cons_self
    cases lists with
    | nil => exact .inr here
    | cons second rest =>
      refine .inr ?_
      rcases continued fun other member => each other (List.mem_cons_of_mem _ member) with
        others | others
      · exact (here.append (trailing .comma nofun)).append others
      · exact (here.append (trailing .comma nofun)).append others

theorem enclosed {open_ close : Symbol} {lists : List (List Piece)}
    (opens : ∀ edge, Segment first edge [sign open_])
    (closes : Segment .separator last [sign close])
    (each : ∀ pieces ∈ lists, Segment .operand .separator pieces) :
    Segment first last (sign open_ :: Piece.commas lists ++ [sign close]) := by
  rcases commas each with inner | inner
  · exact ((opens _).append inner).append closes
  · exact ((opens _).append inner).append closes

theorem parens {lists : List (List Piece)}
    (each : ∀ pieces ∈ lists, Segment .operand .separator pieces) :
    Segment .separator last (Piece.parens lists) :=
  enclosed (fun _ => free .leftParen rfl) (free .rightParen rfl) each

theorem braces {lists : List (List Piece)}
    (each : ∀ pieces ∈ lists, Segment .operand .separator pieces) :
    Segment .separator last (Piece.braces lists) := by
  have opened : Segment .separator .separator [sign .leftBrace] := free .leftBrace rfl
  have closes : Segment .separator last [sign .rightBrace] := free .rightBrace rfl
  cases lists with
  | nil => exact opened.cons closes
  | cons pieces lists =>
    have opens {edge : Edge} : Segment .separator edge [sign .leftBrace, Piece.space] :=
      opened.cons space
    rcases commas each with inner | inner
    · exact (opens.append inner).append (.cons space closes)
    · exact (opens.append inner).append (.cons space closes)

theorem wideBraces {lists : List (List Piece)}
    (each : ∀ pieces ∈ lists, Segment .operand .separator pieces) :
    Segment .separator last (Piece.wideBraces lists) := by
  cases lists with
  | nil =>
    have opened : Segment .separator .separator [sign .leftBrace] := free .leftBrace rfl
    have closes : Segment .separator last [sign .rightBrace] := free .rightBrace rfl
    exact opened.cons (.cons space closes)
  | cons pieces lists => exact braces each

/-! ### Literals and names -/

theorem minus : Segment first .operand [sign .minus] := by
  refine token trivial (fun text => ?_) fun _ => stops_of_operand .minus
  cases first with
  | operand =>
    rintro next ⟨⟩
    decide
  | separator => exact begins_separator .minus (by decide) text

theorem wellFormed_toString (value : Nat) : (Token.int (toString value)).WellFormed := by
  rw [Nat.toString_eq_ofList_toDigits]
  refine ⟨?_, fun digit member => ?_⟩
  · rw [String.toList_ofList]
    exact Nat.toDigits_ne_nil
  · rw [String.toList_ofList] at member
    exact isDigit_of_mem_toDigits member

theorem int (value : Int) : Segment .operand .separator (Piece.int value) := by
  have digits := operand (wellFormed_toString value.natAbs) nofun
  unfold Piece.int
  dsimp only
  split
  · exact minus.cons digits
  · exact digits

theorem float {digits : String} {value : Binary64} (read : readBinary64? digits = some value) :
    Segment .operand .separator (Piece.float value) := by
  obtain ⟨finite, positive⟩ := finite_of_readBinary64? read
  obtain ⟨whole, places, written, pointed⟩ := Binary64.sourceDigits_eq finite positive
  have digits : (Token.float value.sourceDigits).WellFormed :=
    ⟨whole, places, by rw [written, String.toList_ofList], pointed.some_whole, pointed.some_places,
      pointed.digits⟩
  simpa [Piece.float, positive] using operand digits

theorem bool (value : Bool) : Segment .operand .separator [Piece.bool value] := word _

/-- A point and the word behind it. -/
theorem member {content : Token} (wellFormed : content.WellFormed)
    (other : ∀ sign, content ≠ .symbol sign) (word : IsWord content.text) :
    Segment .separator .separator [sign .dot, .token content] := by
  intro rest legible begins
  obtain ⟨legible, operand⟩ := operand wellFormed other rest legible begins
  refine ⟨⟨trivial, stops_of_operand .dot operand, legible⟩, ?_, ?_⟩
  · rintro next ⟨⟩
    decide
  · obtain ⟨letter, others, spelled, starts, _⟩ := word
    intro next after same
    have head : letter = next := by
      have second : content.text.toList ++ characters rest = next :: after :=
        List.tail_eq_of_cons_eq same
      rw [spelled] at second
      exact List.head_eq_of_cons_eq second
    rw [← head, ← Bool.not_eq_true]
    intro digit
    rw [Token.startsWord_of_isDigit digit] at starts
    cases starts

theorem keywordMember (keyword : Keyword) :
    Segment .separator .separator [sign .dot, Piece.word keyword] :=
  member (show (Token.keyword keyword).WellFormed from trivial) nofun keyword.isWord

theorem variantPieces {enumeration chosen : String}
    (wellFormed : (Token.ident enumeration).WellFormed) (wellFormed' : (Token.ident chosen).WellFormed) :
    Segment .operand .separator (ContractSyntax.variantPieces enumeration chosen) :=
  (ident wellFormed).cons ((symbol .colonColon nofun).cons (ident wellFormed'))

theorem statements {statements : List (Spanned Expr)}
    (each : ∀ statement ∈ statements, Segment .operand .separator statement.node.pieces) :
    Segment .separator .separator (statementPieces statements) := by
  induction statements with
  | nil => exact nil
  | cons statement others continued =>
    have here := each statement List.mem_cons_self
    have others := continued fun other member => each other (List.mem_cons_of_mem _ member)
    rw [statementPieces_cons]
    exact ((space.append here).append (free .semicolon rfl)).append others

theorem items {statements : List (Spanned Expr)} {last : Option (Spanned Expr)}
    (each : ∀ expr ∈ statements ++ last.toList, Segment .operand .separator expr.node.pieces) :
    Segment .separator .separator (itemsPieces statements last) := by
  have before := Segment.statements fun statement member =>
    each statement (List.mem_append_left _ member)
  cases last with
  | none => exact before
  | some last => exact (before.append space).append (each last (by simp))

theorem block {statements : List (Spanned Expr)} {last : Option (Spanned Expr)}
    (each : ∀ expr ∈ statements ++ last.toList, Segment .operand .separator expr.node.pieces) :
    Segment .operand .separator (Expr.block statements last).pieces := by
  have opened : Segment .operand .separator [sign .leftBrace] := free .leftBrace rfl
  have closed : Segment .separator .separator [sign .rightBrace] := free .rightBrace rfl
  by_cases some : statements ≠ [] ∨ last ≠ none
  · rw [Expr.pieces_block some]
    exact (opened.append (items each)).append (.cons space closed)
  · simp only [ne_eq, not_or, Decidable.not_not] at some
    obtain ⟨rfl, rfl⟩ := some
    exact opened.cons closed

theorem binding {name : String} {type : Option (Spanned Ty)} {value body : Spanned Expr}
    (isMutable : Bool) (wellFormed : (Token.ident name).WellFormed)
    (stated : Segment .separator .separator (statedPieces type))
    (valued : Segment .operand .separator value.node.pieces)
    (rest : Segment .operand .separator body.node.pieces) :
    Segment .operand .separator
      ([Piece.word .let_, Piece.space] ++ (if isMutable then [Piece.word .mut_, Piece.space] else []) ++
        [Piece.ident name] ++ statedPieces type ++ [Piece.space, sign .equal, Piece.space] ++
        value.node.pieces ++ [sign .semicolon, Piece.space] ++ body.node.pieces) := by
  have marked : Segment .operand .operand
      (if isMutable then [Piece.word .mut_, Piece.space] else []) := by
    cases isMutable with
    | false => exact nil
    | true => exact leading .mut_
  exact (((((((leading .let_).append marked).append (ident wellFormed)).append stated).append
    (amidSymbol .equal)).append valued).append (trailing .semicolon nofun)).append rest

end Segment

/-! ### Phrases -/

/-- Whether the tree of a phrase is printed as an operand is, or what there is of it. -/
def Phrase.Legible : (phrase : Phrase) → phrase.Tree → Prop
  | stated, tree => Segment .separator .separator (statedPieces tree)
  | items _, tree => ∀ expr ∈ tree.1 ++ tree.2.toList, Segment .operand .separator expr.node.pieces
  | phrase, tree => Segment .operand .separator (phrase.pieces tree)

/-- Whether some tokens have the shapes of their kinds. -/
def Tokens.WellFormed (tokens : Tokens) : Prop := ∀ place ∈ tokens, place.node.WellFormed

namespace Tokens

@[simp] theorem wellFormed_nil : WellFormed [] := nofun

@[simp] theorem wellFormed_cons {place : Spanned Token} {tokens : Tokens} :
    WellFormed (place :: tokens) ↔ place.node.WellFormed ∧ tokens.WellFormed :=
  List.forall_mem_cons

@[simp] theorem wellFormed_append {first second : Tokens} :
    WellFormed (first ++ second) ↔ first.WellFormed ∧ second.WellFormed :=
  List.forall_mem_append

@[simp] theorem wellFormed_symbol (sign : Symbol) : (Token.symbol sign).WellFormed := trivial

@[simp] theorem wellFormed_keyword (word : Keyword) : (Token.keyword word).WellFormed := trivial

end Tokens

/-- The phrases of a row have tokens of the row. -/
theorem Commas.wellFormed {lists : List Tokens} {tokens : Tokens} (row : Commas lists tokens)
    (wellFormed : tokens.WellFormed) : ∀ list ∈ lists, list.WellFormed := by
  induction row with
  | none => nofun
  | last => simpa using wellFormed
  | more _ _ _ continued =>
    simp only [Tokens.wellFormed_append, Tokens.wellFormed_cons] at wellFormed
    exact List.forall_mem_cons.mpr ⟨wellFormed.1, continued wellFormed.2.2⟩

/-- What holds of the phrases of a row because of their tokens holds if the row is well-formed. -/
theorem Commas.forall_value {α : Type} {parts : List (Part α)} {tokens : Tokens}
    (row : Commas (parts.map Part.tokens) tokens) (wellFormed : tokens.WellFormed) {holds : α → Prop}
    (each : ∀ part ∈ parts, part.tokens.WellFormed → holds part.value) :
    ∀ value ∈ parts.map Part.value, holds value := by
  intro value member
  obtain ⟨part, inside, rfl⟩ := List.mem_map.mp member
  exact each part inside (row.wellFormed wellFormed _ (List.mem_map_of_mem inside))

theorem Commas.segments {α : Type} {parts : List (Part α)} {tokens : Tokens}
    (row : Commas (parts.map Part.tokens) tokens) (wellFormed : tokens.WellFormed)
    {pieces : α → List Piece}
    (each : ∀ part ∈ parts, part.tokens.WellFormed →
      Segment .operand .separator (pieces part.value)) :
    ∀ list ∈ (parts.map Part.value).map pieces, Segment .operand .separator list :=
  List.forall_mem_map.mpr (row.forall_value wellFormed each)

theorem Pattern.Derives.legible {tokens : Tokens} {pattern : Spanned Pattern}
    (derived : Pattern.Derives tokens pattern) (wellFormed : tokens.WellFormed) :
    Segment .operand .separator pattern.node.pieces := by
  cases derived with
  | int => exact .int _
  | float read => exact .float read
  | string => exact .operand (by simpa using wellFormed) nofun
  | true | false => exact .bool _
  | wildcard => exact .word _
  | bind => exact .ident (by simpa using wellFormed)
  | variant =>
    simp only [Tokens.wellFormed_cons] at wellFormed
    exact .variantPieces wellFormed.1 wellFormed.2.2.1
  | variantOf enumeration chosen _ _ _ row =>
    simp only [Tokens.wellFormed_cons, Tokens.wellFormed_append] at wellFormed
    obtain ⟨enumeration, _, chosen, _, names, _⟩ := wellFormed
    refine (Segment.variantPieces enumeration chosen).append (.parens ?_)
    intro list member
    obtain ⟨binding, inside, rfl⟩ := List.mem_map.mp member
    have here := row.wellFormed names _ (List.mem_map_of_mem inside)
    exact .ident (by simpa using here)

open Segment in
/-- The tree of a phrase is printed as a segment. -/
theorem Derives.legible {phrase : Phrase} {tokens : Tokens} {tree : phrase.Tree} {height : Nat}
    (derived : Derives phrase tokens tree height) (wellFormed : tokens.WellFormed) :
    phrase.Legible tree := by
  induction derived with
  -- operands
  | int => exact .int _
  | float read => exact .float read
  | string => exact .operand (by simpa using wellFormed) nofun
  | true | false => exact .bool _
  | ret | it => exact .word _
  | unit => exact .cons (free .leftParen rfl : Segment _ .operand _) (free .rightParen rfl)
  | paren _ _ _ inner =>
    simp only [Tokens.wellFormed_cons, Tokens.wellFormed_append] at wellFormed
    exact ((free .leftParen rfl).append (inner wellFormed.2.1)).append (free .rightParen rfl)
  | array _ _ _ row _ each =>
    simp only [Tokens.wellFormed_cons, Tokens.wellFormed_append] at wellFormed
    simp only [Phrase.Legible, Phrase.pieces, Expr.pieces_array]
    exact .enclosed (fun _ => free .leftBracket rfl) (free .rightBracket rfl)
      (row.segments wellFormed.2.1 each)
  | construct _ _ _ _ _ row _ each =>
    simp only [Tokens.wellFormed_cons, Tokens.wellFormed_append] at wellFormed
    obtain ⟨_, struct, _, fields, _⟩ := wellFormed
    simp only [Phrase.Legible, Phrase.pieces, Expr.pieces_construct]
    exact ((leading .new).append ((Segment.ident struct).cons space)).append
      (.braces (row.segments fields each))
  | var => exact .ident (by simpa using wellFormed)
  | call _ _ _ _ row _ each =>
    simp only [Tokens.wellFormed_cons, Tokens.wellFormed_append] at wellFormed
    obtain ⟨function, _, given, _⟩ := wellFormed
    simp only [Phrase.Legible, Phrase.pieces, Expr.pieces_call]
    exact (Segment.ident function).append (.parens (row.segments given each))
  | variant =>
    simp only [Tokens.wellFormed_cons] at wellFormed
    exact .variantPieces wellFormed.1 wellFormed.2.2.1
  | variantOf _ _ _ _ _ _ row _ each =>
    simp only [Tokens.wellFormed_cons, Tokens.wellFormed_append] at wellFormed
    obtain ⟨enumeration, _, chosen, _, given, _⟩ := wellFormed
    simp only [Phrase.Legible, Phrase.pieces, Expr.pieces_variantOf]
    exact (Segment.variantPieces enumeration chosen).append (.parens (row.segments given each))
  | field _ _ _ value =>
    simp only [Tokens.wellFormed_cons] at wellFormed
    exact ((Segment.ident wellFormed.1).append (trailing .colon nofun)).append (value wellFormed.2.2)
  -- suffixes
  | operand _ operand => exact operand wellFormed
  | state moment _ _ derived receiver =>
    simp only [Tokens.wellFormed_append] at wellFormed
    simp only [Phrase.Legible, Phrase.pieces, Expr.pieces_state, derived.unparenthesized_receiver]
    exact (receiver wellFormed.1).append
      (.keywordMember moment.word)
  | member name _ derived receiver =>
    simp only [Tokens.wellFormed_cons, Tokens.wellFormed_append] at wellFormed
    obtain ⟨before, _, name, _⟩ := wellFormed
    simp only [Phrase.Legible, Phrase.pieces, Expr.pieces_field, derived.unparenthesized_receiver]
    exact (receiver before).append (.member name nofun name.1)
  | methodCall _ _ _ _ derived _ row _ receiver each =>
    simp only [Tokens.wellFormed_cons, Tokens.wellFormed_append] at wellFormed
    obtain ⟨before, _, method, _, given, _⟩ := wellFormed
    simp only [Phrase.Legible, Phrase.pieces, Expr.pieces_methodCall,
      derived.unparenthesized_receiver]
    exact ((receiver before).append (.member method nofun method.1)).append
      (.parens (row.segments given each))
  | index _ _ derived _ receiver position =>
    simp only [Tokens.wellFormed_cons, Tokens.wellFormed_append] at wellFormed
    obtain ⟨before, _, inner, _⟩ := wellFormed
    simp only [Phrase.Legible, Phrase.pieces, Expr.pieces_index, derived.unparenthesized_receiver]
    exact (((receiver before).append (free .leftBracket rfl)).append (position inner)).append
      (free .rightBracket rfl)
  -- operators
  | unsigned _ operand => exact operand wellFormed
  | least => exact Segment.int Int64.minValue.toInt
  | unary operator _ _ _ derived operand =>
    simp only [Tokens.wellFormed_cons, Tokens.wellFormed_append] at wellFormed
    have operand := operand wellFormed.2.2
    simp only [Phrase.Legible, Phrase.pieces, Expr.pieces_unary, derived.unparenthesized_operand]
    cases operator with
    | negate => exact minus.append operand
    | not => exact (leading .not_).append operand
    | reference => exact (free .ampersand rfl).append operand
    | mutableReference =>
      exact ((free .ampersand rfl).append (leading .mut_)).append operand
    | dereference => exact (free .star rfl).append operand
  | single _ _ operand => exact operand wellFormed
  | binary operator _ _ first second left right =>
    simp only [Tokens.wellFormed_cons, Tokens.wellFormed_append] at wellFormed
    simp only [Phrase.Legible, Phrase.pieces, Expr.pieces_binary, first.unparenthesized_left,
      second.unparenthesized_right]
    exact ((left wellFormed.1).append (amid wellFormed.2.1)).append (right wellFormed.2.2)
  -- constructs
  | nested _ inner | operators _ inner => exact inner wellFormed
  | conditional _ _ _ _ _ _ condition yes no =>
    simp only [Tokens.wellFormed_cons, Tokens.wellFormed_append] at wellFormed
    obtain ⟨_, asked, _, chosen, _, other⟩ := wellFormed
    simp only [Phrase.Legible, Phrase.pieces, Expr.pieces_conditional]
    exact (((((leading .if_).append (condition asked)).append
      (amidWord .then_)).append (yes chosen)).append (amidWord .else_)).append (no other)
  | @binding _ _ _ isMutable _ _ _ _ _ _ _ _ _ _ _ _ _ _ _ stated value body =>
    simp only [Tokens.wellFormed_cons, Tokens.wellFormed_append] at wellFormed
    obtain ⟨_, _, name, typed, _, valued, _, rest⟩ := wellFormed
    simp only [Phrase.Legible, Phrase.pieces, Expr.pieces_binding]
    exact .binding isMutable name (stated typed) (value valued) (body rest)
  | matching _ _ _ _ _ row _ subject each =>
    simp only [Tokens.wellFormed_cons, Tokens.wellFormed_append] at wellFormed
    obtain ⟨_, before, _, arms, _⟩ := wellFormed
    simp only [Phrase.Legible, Phrase.pieces, Expr.pieces_matching]
    exact (((leading .match_).append (subject before)).append space).append
      (.wideBraces (row.segments arms each))
  | arm _ pattern _ body =>
    simp only [Tokens.wellFormed_cons, Tokens.wellFormed_append] at wellFormed
    exact ((pattern.legible wellFormed.1).append (amidSymbol .fatArrow)).append
      (body wellFormed.2.2)
  | whileLoop _ _ _ _ _ condition body =>
    simp only [Tokens.wellFormed_cons, Tokens.wellFormed_append] at wellFormed
    obtain ⟨_, asked, _, inner, _⟩ := wellFormed
    simp only [Phrase.Legible, Phrase.pieces, Expr.pieces_whileLoop]
    exact (((leading .while_).append (condition asked)).append space).append
      (.braces (List.forall_mem_singleton.mpr (body inner)))
  | forLoop _ _ _ _ _ _ _ range body =>
    simp only [Tokens.wellFormed_cons, Tokens.wellFormed_append] at wellFormed
    obtain ⟨_, name, _, ranged, _, inner, _⟩ := wellFormed
    simp only [Phrase.Legible, Phrase.pieces, Expr.pieces_forLoop]
    exact ((((leading .for_).append ((Segment.ident name).append (amidWord .in_))).append
      (range ranged)).append space).append (.braces (List.forall_mem_singleton.mpr (body inner)))
  | block _ _ _ inner =>
    simp only [Tokens.wellFormed_cons, Tokens.wellFormed_append] at wellFormed
    exact .block (inner wellFormed.2.1)
  -- blocks
  | nothing => nofun
  | value _ _ _ expr | bound _ expr => exact List.forall_mem_singleton.mpr (expr wellFormed)
  | statement _ _ _ _ expr others =>
    simp only [Tokens.wellFormed_cons, Tokens.wellFormed_append] at wellFormed
    exact List.forall_mem_cons.mpr ⟨expr wellFormed.1, others wellFormed.2.2⟩
  | assign _ _ _ _ _ value others =>
    simp only [Tokens.wellFormed_cons, Tokens.wellFormed_append] at wellFormed
    obtain ⟨target, _, valued, _, rest⟩ := wellFormed
    refine List.forall_mem_cons.mpr ⟨?_, others rest⟩
    exact ((Segment.ident target).append (amidSymbol .equal)).append (value valued)
  | @bindingRest _ _ _ isMutable _ _ _ _ _ _ _ _ _ _ _ _ _ _ _ _ stated value body =>
    simp only [Tokens.wellFormed_cons, Tokens.wellFormed_append] at wellFormed
    obtain ⟨_, _, name, typed, _, valued, _, rest⟩ := wellFormed
    simp only [Phrase.Legible, Phrase.pieces, Expr.pieces_binding]
    exact .binding isMutable name (stated typed) (value valued) (body rest)
  | lone _ _ inner => exact inner wellFormed _ (by simp)
  | remainder _ _ _ inner => exact .block (inner wellFormed)
  -- types
  | nestedType _ inner => exact inner wellFormed
  | unstated => exact .nil
  | stated _ _ type =>
    simp only [Tokens.wellFormed_cons] at wellFormed
    exact (trailing .colon nofun).append (type wellFormed.2)
  | primitive base => exact .word base.word
  | unitType => exact .cons (free .leftParen rfl : Segment _ .operand _) (free .rightParen rfl)
  | named => exact .ident (by simpa using wellFormed)
  | reference _ isMutable _ _ target =>
    simp only [Tokens.wellFormed_cons, Tokens.wellFormed_append] at wellFormed
    have target := target wellFormed.2.2
    cases isMutable with
    | false => exact (free .ampersand rfl).append target
    | true => exact ((free .ampersand rfl).append (leading .mut_)).append target
  | arrayType _ _ _ _ _ _ element =>
    simp only [Tokens.wellFormed_cons, Tokens.wellFormed_append] at wellFormed
    exact ((((free .leftBracket rfl).append (element wellFormed.2.1)).append
      (trailing .semicolon nofun)).append (Segment.int _)).append (free .rightBracket rfl)
  | refined base _ _ _ _ _ row _ each =>
    simp only [Tokens.wellFormed_cons, Tokens.wellFormed_append] at wellFormed
    simp only [Phrase.Legible, Phrase.pieces, Ty.pieces_refined]
    exact (Segment.word base.word).append (.braces (row.segments wellFormed.2.2.1 each))

/-! ### Definitions -/

section Definitions

variable {places : Tokens} {height : Nat}

theorem Row.forall_value {α : Type} {meaning : Tokens → α → Nat → Prop} {values : List α}
    (row : Row meaning places values height) (wellFormed : places.WellFormed) {holds : α → Prop}
    (each : ∀ places value height, meaning places value height → places.WellFormed → holds value) :
    ∀ value ∈ values, holds value := by
  obtain ⟨parts, commas, rfl, _, derived⟩ := row
  exact commas.forall_value wellFormed fun part member => each _ _ _ (derived part member)

theorem Row.segments {α : Type} {meaning : Tokens → α → Nat → Prop} {values : List α}
    (row : Row meaning places values height) (wellFormed : places.WellFormed)
    {pieces : α → List Piece}
    (each : ∀ places value height, meaning places value height → places.WellFormed →
      Segment .operand .separator (pieces value)) :
    ∀ list ∈ values.map pieces, Segment .operand .separator list :=
  List.forall_mem_map.mpr (row.forall_value wellFormed each)

theorem Row.segments_exprs {values : List (Spanned Expr)}
    (row : Row (Derives .subexpr) places values height) (wellFormed : places.WellFormed) :
    ∀ list ∈ values.map fun expr => expr.node.pieces, Segment .operand .separator list :=
  row.segments wellFormed fun _ _ _ derived => derived.legible

theorem TypedName.Derives.legible {typed : TypedName}
    (derived : TypedName.Derives places typed height) (wellFormed : places.WellFormed) :
    Segment .operand .separator typed.pieces := by
  obtain ⟨name, colon, type⟩ := derived
  simp only [Tokens.wellFormed_cons] at wellFormed
  exact ((Segment.ident wellFormed.1).append (.trailing .colon nofun)).append
    (type.legible wellFormed.2.2)

theorem Attribute.Derives.legible {mark : Attribute} (derived : Attribute.Derives places mark height)
    (wellFormed : places.WellFormed) : Segment .operand .separator mark.pieces := by
  cases derived with
  | bare start name =>
    simp only [Tokens.wellFormed_cons] at wellFormed
    exact (Segment.free .at_ rfl).append (.ident wellFormed.2.1)
  | applied start opened stop name row =>
    simp only [Tokens.wellFormed_cons, Tokens.wellFormed_append] at wellFormed
    obtain ⟨_, name, _, given, _⟩ := wellFormed
    simp only [Attribute.pieces, argumentPieces, exprPieces_eq]
    exact ((Segment.free .at_ rfl).append (.ident name)).append (.parens (row.segments_exprs given))

theorem Labelled.legible {label : Option Name} (labelled : Labelled places label)
    (wellFormed : places.WellFormed) : Segment .operand .operand (labelPieces label) := by
  cases labelled with
  | absent => exact .nil
  | present name =>
    simp only [Tokens.wellFormed_cons] at wellFormed
    exact (Segment.ident wellFormed.1).append (.trailing .colon nofun)

theorem Condition.Derives.legible {condition : Condition}
    (derived : Condition.Derives places condition height) (wellFormed : places.WellFormed) :
    Segment .operand .separator condition.pieces := by
  obtain ⟨labelled, expr⟩ := derived
  simp only [Tokens.wellFormed_append] at wellFormed
  rw [Condition.pieces_eq]
  exact (labelled.legible wellFormed.1).append (expr.legible wellFormed.2)

theorem Clause.legible {start : Keyword} {condition : Spanned Expr}
    (clause : Clause start places (some condition) height) (wellFormed : places.WellFormed) :
    Segment .operand .separator ([word start, space] ++ condition.node.pieces) := by
  cases clause with
  | present _ derived =>
    simp only [Tokens.wellFormed_cons] at wellFormed
    exact (Segment.leading start).append (derived.legible wellFormed.2)

theorem Contract.Derives.legible {contract : Option Contract}
    (derived : Contract.Derives places contract height) (wellFormed : places.WellFormed) :
    Segment .separator .separator (contractPieces contract) := by
  cases derived with
  | conditions start opened stop row =>
    simp only [Tokens.wellFormed_cons, Tokens.wellFormed_append] at wellFormed
    exact .cons .space ((Segment.leading .where_).append
      (.braces (row.segments wellFormed.2.2.1 fun _ _ _ derived => derived.legible)))
  | @clauses _ _ pre post _ _ derivedPre derivedPost =>
    simp only [Tokens.wellFormed_append] at wellFormed
    cases pre with
    | none =>
      cases post with
      | none => exact .nil
      | some post => exact .cons .space (derivedPost.legible wellFormed.2)
    | some pre =>
      have before := derivedPre.legible wellFormed.1
      cases post with
      | none => exact .cons .space before
      | some post =>
        exact .cons .space ((before.append .space).append (derivedPost.legible wellFormed.2))

theorem Variant.Derives.legible {variant : Variant} (derived : Variant.Derives places variant height)
    (wellFormed : places.WellFormed) : Segment .operand .separator variant.pieces := by
  cases derived with
  | bare name => exact .ident (by simpa using wellFormed)
  | parts name start stop row =>
    simp only [Tokens.wellFormed_cons, Tokens.wellFormed_append] at wellFormed
    obtain ⟨name, _, parts, _⟩ := wellFormed
    exact (Segment.ident name).append
      (.parens (row.segments parts fun _ _ _ derived => derived.legible))

theorem Several.segment {α : Type} {meaning : Tokens → α → Nat → Prop} {values : List α}
    (several : Several meaning places values height) (wellFormed : places.WellFormed)
    {pieces : α → List Piece}
    (each : ∀ places value height, meaning places value height → places.WellFormed →
      Segment .operand .separator (pieces value)) :
    Segment .operand .operand (values.flatMap fun value => pieces value ++ [newline]) := by
  induction several with
  | none => exact .nil
  | more first _ continued =>
    simp only [Tokens.wellFormed_append] at wellFormed
    exact ((each _ _ _ first wellFormed.1).append .newline).append (continued wellFormed.2)

theorem Parser.Header.Derives.legible {header : Parser.Header} {following : Span}
    (headed : header.Derives following places height) (wellFormed : places.WellFormed) :
    Segment .operand .operand (headerPieces header.attributes header.visibility) := by
  obtain @⟨_, _, attributes, isShown, _, several, _⟩ := headed
  simp only [Tokens.wellFormed_append] at wellFormed
  have marks := several.segment wellFormed.1 fun _ _ _ derived => derived.legible
  cases isShown with
  | false => exact marks.append .nil
  | true => exact marks.append (.leading .pub)

theorem Segment.path {first : Name} {rest : List (Span × Name)}
    (wellFormed : Tokens.WellFormed (first.ident :: pathTokens rest)) :
    Segment .operand .separator (separated [sign .colonColon]
      ((first :: rest.map (·.2)).map fun part => [Piece.ident part.node])) := by
  induction rest generalizing first with
  | nil => exact .ident (by simpa [pathTokens] using wellFormed)
  | cons part rest continued =>
    simp only [pathTokens, List.flatMap_cons, Tokens.wellFormed_cons, Tokens.wellFormed_append]
      at wellFormed
    obtain ⟨name, ⟨_, second, _⟩, others⟩ := wellFormed
    exact ((Segment.ident name).append (.symbol .colonColon nofun)).append
      (continued (Tokens.wellFormed_cons.mpr ⟨second, others⟩))

theorem Item.Derives.legible {item : Item} (derived : Item.Derives places item height)
    (wellFormed : places.WellFormed) : Segment .operand .separator item.pieces := by
  cases derived with
  | use start stop first rest =>
    have path : Tokens.WellFormed (first.ident :: pathTokens rest) := by
      simp only [Tokens.wellFormed_cons, Tokens.wellFormed_append] at wellFormed ⊢
      exact ⟨wellFormed.2.1, wellFormed.2.2.1⟩
    exact ((Segment.leading .use).append (.path path)).append (.free .semicolon rfl)
  | struct word opened stop name headed row =>
    simp only [Tokens.wellFormed_cons, Tokens.wellFormed_append] at wellFormed
    obtain ⟨before, _, name, _, fields, _⟩ := wellFormed
    exact ((headed.legible before).append
      ((Segment.leading .struct).append ((Segment.ident name).append .space))).append
      (.braces (row.segments fields fun _ _ _ derived => derived.legible))
  | enum word opened stop name headed row =>
    simp only [Tokens.wellFormed_cons, Tokens.wellFormed_append] at wellFormed
    obtain ⟨before, _, name, _, variants, _⟩ := wellFormed
    exact ((headed.legible before).append
      ((Segment.leading .enum).append ((Segment.ident name).append .space))).append
      (.braces (row.segments variants fun _ _ _ derived => derived.legible))
  | @function _ _ _ _ _ _ _ _ _ _ _ _ _ header parameters result type contract body _ _ _ _ _
      headed row labels derivedType derivedContract derivedBody =>
    simp only [Tokens.wellFormed_cons, Tokens.wellFormed_append] at wellFormed
    obtain ⟨before, _, name, _, listed, _, _, labelled, typed, contracted, _, inner, _⟩ := wellFormed
    have parameters := row.segments listed fun _ _ _ derived => derived.legible
    have named : Segment .operand .separator [word .fn, space, Piece.ident _] :=
      (Segment.leading .fn).append (.ident name)
    have started : Segment .operand .separator _ :=
      ((headed.legible before).append named).append (.parens parameters)
    have typed : Segment .operand .separator (labelPieces result ++ type.node.pieces) :=
      (labels.legible labelled).append (derivedType.legible typed)
    have ended : Segment .operand .separator (body.node.pieces ++ [sign .semicolon]) :=
      (derivedBody.legible inner).append (.free .semicolon rfl)
    have whole := ((started.append (.amidSymbol .arrow)).append typed).append
      (((derivedContract.legible contracted).append (.amidSymbol .equal)).append ended)
    simpa only [Item.pieces_function, List.append_assoc] using whole

/-- A program is printed legibly. -/
theorem Program.Derives.legible {program : Program} (derived : program.Derives places height)
    (wellFormed : places.WellFormed) : Legible program.pieces :=
  (Several.segment derived wellFormed fun _ _ _ derived => derived.legible).legible

end Definitions

end ContractSyntax
