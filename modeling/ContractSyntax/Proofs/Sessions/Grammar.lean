/-
**The grammar only looks ahead.**

Every parser of the grammar comes to the same from cursors with the same ahead of them. The rest of a
block is the one that also asks where the token before it ended; a binding has passed one by then.

* `Level.LooksAhead.tower`: the parsers of all levels;
* `Parser.LooksAhead.item`, `Parser.LooksAhead.program`: definitions and programs.
-/

import ContractSyntax.Grammar.Program
import ContractSyntax.Proofs.Sessions.LooksAhead

namespace ContractSyntax

open ContractSyntax.Parser

variable {settled : Prop}

/-- The parsers of a level only look ahead. -/
structure Level.LooksAhead (level : Level) : Prop where
  expr {settled : Prop} : Parser.LooksAhead settled level.expr
  type {settled : Prop} : Parser.LooksAhead settled level.type
  signed {settled : Prop} : Parser.LooksAhead settled level.signed
  binding {settled : Prop} : Parser.LooksAhead settled level.binding
  tier {settled : Prop} (power : Nat) : Parser.LooksAhead settled (level.tier power)

/-! ### Literals and patterns -/

namespace Parser.LooksAhead

theorem literalValue {α : Type} (value? : Option α) (cause : Cause) :
    (Parser.literalValue value? cause).LooksAhead settled := by
  cases value? with
  | none => exact .fail cause
  | some value => exact .pure

theorem variantPattern (enumeration : Name) :
    (Parser.variantPattern enumeration).LooksAhead settled := by
  refine bind (name _) fun variant => bind (accept _) fun found => ?_
  split
  · exact bind (list _ (name _)) fun _ => .pure
  · exact .pure

theorem pattern : Parser.pattern.LooksAhead settled := by
  refine bind current fun found => ?_
  split
  · exact bind (literalValue _ _) fun _ => bind pass fun _ => .pure
  · exact bind (literalValue _ _) fun _ => bind pass fun _ => .pure
  · exact bind pass fun _ => .pure
  · exact bind pass fun _ => .pure
  · exact bind pass fun _ => .pure
  · exact bind pass fun _ => .pure
  · refine bind pass fun place => bind (accept _) fun found => ?_
    split
    · exact variantPattern _
    · exact .pure
  · exact .fail _

theorem arrayLength : ContractSyntax.arrayLength.LooksAhead settled := by
  refine bind current fun found => ?_
  split
  · refine bind pass fun place => ?_
    split
    · exact .pure
    · exact failWith _
  · exact .fail _

end Parser.LooksAhead

namespace Level.LooksAhead

variable {deeper : Level}

theorem subexpr (ahead : deeper.LooksAhead) : deeper.subexpr.LooksAhead settled :=
  .nested ahead.expr

theorem subtype (ahead : deeper.LooksAhead) : deeper.subtype.LooksAhead settled :=
  .nested ahead.type

theorem exprs (ahead : deeper.LooksAhead) (close : Symbol) :
    (deeper.exprs close).LooksAhead settled :=
  .list close ahead.subexpr

theorem arguments? (ahead : deeper.LooksAhead) : deeper.arguments?.LooksAhead settled := by
  refine .bind (.accept _) fun found => ?_
  split
  · exact .bind (ahead.exprs _) fun _ => .pure
  · exact .pure

/-! ### Operands -/

theorem variantRest (ahead : deeper.LooksAhead) (enumeration : Name) :
    (deeper.variantRest enumeration).LooksAhead settled := by
  refine .bind (.name _) fun variant => .bind ahead.arguments? fun found => ?_
  split
  · exact .pure
  · exact .pure

theorem named (ahead : deeper.LooksAhead) (first : Name) :
    (deeper.named first).LooksAhead settled := by
  refine .bind ahead.arguments? fun found => ?_
  split
  · exact .pure
  · refine .bind (.accept _) fun found => ?_
    split
    · exact ahead.variantRest first
    · exact .pure

theorem parenthesis (ahead : deeper.LooksAhead) (start : Span) :
    (deeper.parenthesis start).LooksAhead settled := by
  refine .bind (.accept _) fun found => ?_
  split
  · exact .pure
  · exact .bind ahead.subexpr fun _ => .bind (.expect _) fun _ => .pure

theorem fieldValue (ahead : deeper.LooksAhead) : deeper.fieldValue.LooksAhead settled :=
  .bind (.name _) fun _ => .bind (.expect _) fun _ => .bind ahead.subexpr fun _ => .pure

theorem construct (ahead : deeper.LooksAhead) (start : Span) :
    (deeper.construct start).LooksAhead settled :=
  .bind (.name _) fun _ => .bind (.expect _) fun _ =>
    .bind (.list _ ahead.fieldValue) fun _ => .pure

theorem primary (ahead : deeper.LooksAhead) : deeper.primary.LooksAhead settled := by
  refine .bind .current fun found => ?_
  split
  · exact .bind (.literalValue _ _) fun _ => .bind .pass fun _ => .pure
  · exact .bind (.literalValue _ _) fun _ => .bind .pass fun _ => .pure
  · exact .bind .pass fun _ => .pure
  · exact .bind .pass fun _ => .pure
  · exact .bind .pass fun _ => .pure
  · exact .bind .pass fun _ => .pure
  · exact .bind .pass fun _ => .pure
  · exact .bind .pass fun start => ahead.construct start
  · exact .bind .pass fun start => ahead.parenthesis start
  · exact .bind .pass fun start => .bind (ahead.exprs _) fun _ => .pure
  · exact .bind .pass fun place => ahead.named _
  · exact .fail _

/-! ### Suffixes and operators -/

theorem dotSuffix (ahead : deeper.LooksAhead) (receiver : Spanned Expr) :
    (deeper.dotSuffix receiver).LooksAhead settled := by
  refine .bind .current fun found => ?_
  split
  · exact .bind .pass fun _ => .pure
  · exact .bind .pass fun _ => .pure
  · refine .bind .pass fun place => .bind ahead.arguments? fun found => ?_
    split
    · exact .pure
    · exact .pure
  · exact .fail _

theorem indexSuffix (ahead : deeper.LooksAhead) (receiver : Spanned Expr) :
    (deeper.indexSuffix receiver).LooksAhead settled :=
  .bind ahead.subexpr fun _ => .bind (.expect _) fun _ => .pure

theorem suffixed (ahead : deeper.LooksAhead) : deeper.suffixed.LooksAhead settled := by
  refine .chain ahead.primary fun token link found receiver => ?_
  unfold Level.suffix? at found
  split at found
  · cases found
    exact .bind .pass fun _ => ahead.dotSuffix receiver
  · cases found
    exact .bind .pass fun _ => ahead.indexSuffix receiver
  · cases found

theorem operand (ahead : deeper.LooksAhead) (operator : UnaryOperator) (start : Span) :
    (deeper.operand operator start).LooksAhead settled :=
  .bind (.nested ahead.signed) fun _ => .pure

theorem leastDigits? : Level.leastDigits?.LooksAhead settled := by
  refine .bind .current fun found => ?_
  split
  · refine .bind .second fun following => ?_
    split
    · exact .pure
    · exact .pure
    · exact .bind .pass fun _ => .pure
  · exact .pure

theorem signedBody (ahead : deeper.LooksAhead) : deeper.signedBody.LooksAhead settled := by
  refine .bind .current fun found => ?_
  split
  · refine .bind .pass fun start => .bind leastDigits? fun found => ?_
    split
    · exact .pure
    · exact ahead.operand _ start
  · exact .bind .pass fun start => ahead.operand _ start
  · exact .bind .pass fun start => ahead.operand _ start
  · refine .bind .pass fun start => .bind (.accept _) fun found => ?_
    split
    · exact ahead.operand _ start
    · exact ahead.operand _ start
  · exact ahead.suffixed

theorem tierBody (ahead : deeper.LooksAhead) (power : Nat) :
    (deeper.tierBody power).LooksAhead settled := by
  refine .chain ahead.signedBody fun token link found left => ?_
  unfold Level.infixed? at found
  split at found
  · split at found
    · cases found
      exact .bind .pass fun _ => .bind (ahead.tier _) fun _ => .pure
    · cases found
  · cases found

/-! ### Blocks -/

theorem assignment (ahead : deeper.LooksAhead) (target : Name) :
    (deeper.assignment target).LooksAhead settled :=
  .bind ahead.subexpr fun _ => .pure

theorem blockExpr (ahead : deeper.LooksAhead) : deeper.blockExpr.LooksAhead settled := by
  refine .bind ahead.subexpr fun expr => .bind .current fun found => ?_
  split
  · exact .pure
  · exact .pure
  · exact .fail _

theorem blockEntry (ahead : deeper.LooksAhead) : deeper.blockEntry.LooksAhead settled := by
  refine .bind .current fun found => ?_
  split
  · exact .pure
  · exact .pure
  · exact .bind (.nested ahead.binding) fun _ => .pure
  · refine .bind (.nameBefore _) fun found => ?_
    split
    · exact .bind (ahead.assignment _) fun _ => .pure
    · exact ahead.blockExpr

theorem blockItems (ahead : deeper.LooksAhead) : deeper.blockItems.LooksAhead settled :=
  .sequence ahead.blockEntry

theorem block (ahead : deeper.LooksAhead) (start : Span) :
    (deeper.block start).LooksAhead settled :=
  .bind ahead.blockItems fun _ => .bind (.expect _) fun _ => .pure

/-- The rest of a block, where it is settled where the token before it ended. -/
theorem blockRest (ahead : deeper.LooksAhead) : deeper.blockRest.LooksAhead True := by
  refine .bind .here fun start => .bind ahead.blockItems fun found => ?_
  split
  · exact .pure
  · exact .bind .lastStop fun _ => .pure

/-! ### Constructs -/

theorem statedType? (ahead : deeper.LooksAhead) : deeper.statedType?.LooksAhead settled := by
  refine .bind (.accept _) fun found => ?_
  split
  · exact .bind ahead.subtype fun _ => .pure
  · exact .pure

/-- A binding settles what its body asks for. -/
theorem bindingOver (ahead : deeper.LooksAhead) {body : Parser (Spanned Expr)}
    (rest : body.LooksAhead True) : (deeper.bindingOver body).LooksAhead settled := by
  refine .behind (.expect _) (.expect _) fun start => .bind (.accept _) fun marked => ?_
  refine .bind (.name _) fun bound => .bind ahead.statedType? fun type => ?_
  refine .bind (.expect _) fun _ => .bind ahead.subexpr fun value => ?_
  exact .bind (.expect _) fun _ => .bind rest fun _ => .bind (.note _) fun _ => .pure

theorem conditional (ahead : deeper.LooksAhead) (start : Span) :
    (deeper.conditional start).LooksAhead settled :=
  .bind ahead.subexpr fun _ => .bind (.expect _) fun _ => .bind ahead.subexpr fun _ =>
    .bind (.expect _) fun _ => .bind ahead.subexpr fun _ => .pure

theorem matchArm (ahead : deeper.LooksAhead) : deeper.matchArm.LooksAhead settled :=
  .bind .pattern fun _ => .bind (.expect _) fun _ => .bind ahead.subexpr fun _ => .pure

theorem matching (ahead : deeper.LooksAhead) (start : Span) :
    (deeper.matching start).LooksAhead settled :=
  .bind ahead.subexpr fun _ => .bind (.expect _) fun _ =>
    .bind (.list _ ahead.matchArm) fun _ => .pure

theorem braced (ahead : deeper.LooksAhead) : deeper.braced.LooksAhead settled :=
  .bind (.expect _) fun _ => .bind ahead.subexpr fun _ => .bind (.expect _) fun _ => .pure

theorem whileLoop (ahead : deeper.LooksAhead) (start : Span) :
    (deeper.whileLoop start).LooksAhead settled :=
  .bind ahead.subexpr fun _ => .bind ahead.braced fun _ => .pure

theorem forLoop (ahead : deeper.LooksAhead) (start : Span) :
    (deeper.forLoop start).LooksAhead settled :=
  .bind (.name _) fun _ => .bind (.expect _) fun _ => .bind ahead.subexpr fun _ =>
    .bind ahead.braced fun _ => .pure

theorem exprBody (ahead : deeper.LooksAhead) : deeper.exprBody.LooksAhead settled := by
  refine .bind .current fun found => ?_
  split
  · exact .bind .pass fun start => ahead.conditional start
  · exact ahead.bindingOver ahead.subexpr
  · exact .bind .pass fun start => ahead.matching start
  · exact .bind .pass fun start => ahead.whileLoop start
  · exact .bind .pass fun start => ahead.forLoop start
  · exact .bind .pass fun start => ahead.block start
  · exact ahead.tierBody 1

/-! ### Types -/

theorem referenceType (ahead : deeper.LooksAhead) (start : Span) :
    (deeper.referenceType start).LooksAhead settled :=
  .bind (.accept _) fun _ => .bind ahead.subtype fun _ => .pure

theorem arrayType (ahead : deeper.LooksAhead) (start : Span) :
    (deeper.arrayType start).LooksAhead settled :=
  .bind ahead.subtype fun _ => .bind (.expect _) fun _ => .bind .arrayLength fun _ =>
    .bind (.expect _) fun _ => .pure

theorem primitiveType (ahead : deeper.LooksAhead) (base : Primitive) (start : Span) :
    (deeper.primitiveType base start).LooksAhead settled := by
  unfold Level.primitiveType
  split
  · refine .bind (.accept _) fun found => ?_
    split
    · exact .bind (ahead.exprs _) fun _ => .bind (.note _) fun _ => .pure
    · exact .pure
  · exact .pure

theorem typeBody (ahead : deeper.LooksAhead) : deeper.typeBody.LooksAhead settled := by
  refine .bind .current fun found => ?_
  split
  · exact .bind .pass fun start => ahead.referenceType start
  · exact .bind .pass fun start => ahead.arrayType start
  · exact .bind .pass fun _ => .bind (.expect _) fun _ => .pure
  · split
    · exact .bind .pass fun start => ahead.primitiveType _ start
    · exact .fail _
  · exact .bind .pass fun _ => .pure
  · exact .fail _

/-! ### All levels -/

theorem above (ahead : deeper.LooksAhead) : deeper.above.LooksAhead where
  expr := ahead.exprBody
  type := ahead.typeBody
  signed := ahead.signedBody
  binding := ahead.bindingOver ahead.blockRest
  tier := ahead.tierBody

theorem tower (count : Nat) : (Level.tower count).LooksAhead := by
  induction count with
  | zero => exact ⟨.fail _, .fail _, .fail _, .fail _, fun _ => .fail _⟩
  | succ count deeper => exact deeper.above

end Level.LooksAhead

/-! ### Definitions -/

namespace Parser.LooksAhead

theorem top : Level.top.LooksAhead := .tower nestingLimit

theorem expression : Parser.expression.LooksAhead settled := top.subexpr

theorem type : Parser.type.LooksAhead settled := top.subtype

theorem condition : Parser.condition.LooksAhead settled :=
  bind (nameBefore _) fun _ => bind expression fun _ => .pure

theorem conditions : Parser.conditions.LooksAhead settled :=
  bind (expect _) fun _ => bind (list _ condition) fun _ => bind (note _) fun _ => .pure

theorem clause? (word : Keyword) : (Parser.clause? word).LooksAhead settled := by
  refine bind (accept _) fun found => ?_
  split
  · exact bind expression fun _ => .pure
  · exact .pure

theorem contract? : Parser.contract?.LooksAhead settled := by
  refine bind (accept _) fun found => ?_
  split
  · exact bind conditions fun _ => .pure
  · refine bind (clause? _) fun pre => bind (clause? _) fun post => ?_
    split
    · exact .pure
    · exact .pure

theorem typedName (role : NameRole) : (Parser.typedName role).LooksAhead settled :=
  bind (name role) fun _ => bind (expect _) fun _ => bind type fun _ => .pure

theorem attributeRest (start : Span) : (Parser.attributeRest start).LooksAhead settled := by
  refine bind (name _) fun mark => bind top.arguments? fun found => ?_
  split
  · exact .pure
  · exact .pure

theorem visibility : Parser.visibility.LooksAhead settled := by
  refine bind (accept _) fun found => ?_
  split
  · exact .pure
  · exact .pure

theorem header : Parser.header.LooksAhead settled :=
  bind here fun _ => bind (opened attributeRest) fun _ => bind visibility fun _ => .pure

theorem useItem : Parser.useItem.LooksAhead settled :=
  bind (expect _) fun _ => bind (name _) fun _ => bind (opened fun _ => name _) fun _ =>
    bind (expect _) fun _ => .pure

theorem structItem (header : Header) : (Parser.structItem header).LooksAhead settled :=
  bind (expect _) fun _ => bind (name _) fun _ => bind (expect _) fun _ =>
    bind (list _ (typedName _)) fun _ => .pure

theorem variant : Parser.variant.LooksAhead settled := by
  refine bind (name _) fun variant => bind (accept _) fun found => ?_
  split
  · exact bind (list _ type) fun _ => .pure
  · exact .pure

theorem enumItem (header : Header) : (Parser.enumItem header).LooksAhead settled :=
  bind (expect _) fun _ => bind (name _) fun _ => bind (expect _) fun _ =>
    bind (list _ variant) fun _ => .pure

theorem functionItem (header : Header) : (Parser.functionItem header).LooksAhead settled :=
  bind (expect _) fun _ => bind (name _) fun _ => bind (expect _) fun _ =>
    bind (list _ (typedName _)) fun _ => bind (expect _) fun _ => bind (nameBefore _) fun _ =>
      bind type fun _ => bind contract? fun _ => bind (expect _) fun _ => bind expression fun _ =>
        bind (expect _) fun _ => .pure

theorem itemBody (header : Header) : (Parser.itemBody header).LooksAhead settled := by
  refine bind current fun found => ?_
  split
  · split
    · exact bind useItem fun _ => .pure
    · exact .fail _
  · exact bind (structItem header) fun _ => .pure
  · exact bind (enumItem header) fun _ => .pure
  · exact bind (functionItem header) fun _ => .pure
  · exact .fail _

theorem item : Parser.item.LooksAhead settled :=
  bind header fun header => bind (itemBody header) fun _ => bind (note _) fun _ => .pure

theorem program : Parser.program.LooksAhead settled := bind (untilEnd item) fun _ => .pure

end Parser.LooksAhead

end ContractSyntax
