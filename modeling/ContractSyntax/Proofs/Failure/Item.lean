/-
**Definitions, contracts and programs that fail have begun a sentence.**

What stands before a definition fits more than one kind of it; which kind it is to be is only known
from the word that follows, and until then any of those that take a header may still come.

* `Fails.itemBody`: a definition that fails behind its header has begun one of those that take it;
* `Follows.item`, `Fails.program`: definitions and programs follow the grammar.
-/

import ContractSyntax.Grammar.Program
import ContractSyntax.Proofs.Failure.Level

namespace ContractSyntax

namespace Parser

open Level (follows_tower)

variable {cursor : Cursor}

/-! ### Parts of definitions -/

theorem Follows.expression : Parser.expression.Follows cursor [.of .expr] :=
  (follows_tower nestingLimit).subexpr

theorem Follows.type : Parser.type.Follows cursor [.of .type] :=
  (follows_tower nestingLimit).subtype

theorem Follows.typedName (role : NameRole) :
    (Parser.typedName role).Follows cursor [.of .typedName] where
  spells := (Yields.typedName role).mono fun _ _ _ _ derived => derived.sentence.last
  fails := .enter .typedName (.name fun _ _ => .expect fun _ _ =>
    .last Follows.type.fails fun _ _ _ => .pure)

theorem Fails.attributeRest (start : Span) :
    (Parser.attributeRest start).Fails cursor fun tokens =>
      Starts [.of .mark] (.symbol .at_ :: tokens) := by
  refine .someName (.within .mark (.token _ (.stop _))) fun mark _ => ?_
  refine .last ((follows_tower nestingLimit).arguments? fun tokens given => ?_) fun found _ _ => ?_
  · exact .within .markOf (.token _ ((Sentence.name _).begins given))
  · cases found <;> exact .pure

theorem Follows.attributes : Parser.attributes.Follows cursor [.of .attributes] where
  spells := (Yields.opened fun start _ => .attributeRest start).mono fun _ _ _ _ holds =>
    (sentence_attributes holds.1).last
  fails := by
    refine .opened (Sentence .mark) ?_ ?_ ?_
    · exact fun start _ => (Yields.attributeRest start).mono fun _ _ _ _ derived => derived.sentence
    · exact fun start _ => (Fails.attributeRest start).mono fun _ begun =>
        .within .attributes (begun.append _)
    · exact fun first others sentence begun => .within .attributes (sentence.begins begun)

theorem Follows.visibility : Parser.visibility.Follows cursor [.of .visibility] where
  spells := Yields.visibility.mono fun _ _ _ _ ⟨_, marked, _⟩ => marked.sentence.last
  fails := .accept (fun _ _ => .pure) fun _ => .pure

theorem Follows.label : (nameBefore (.symbol .colon)).Follows cursor [.of .label] where
  spells := Yields.namedBefore.mono fun tokens found height after holds => by
    rcases holds with ⟨name, span, rfl, rfl, rfl⟩ | ⟨rfl, rfl, rfl, rfl⟩
    · exact (Labelled.present name span).sentence.last
    · exact Labelled.absent.sentence.last
  fails := .namedBefore

/-! ### Contracts -/

theorem Follows.condition : Parser.condition.Follows cursor [.of .condition] where
  spells := Yields.condition.mono fun _ _ _ _ derived => derived.sentence.last
  fails := .enter .condition (.row Follows.label fun _ _ =>
    .last Follows.expression.fails fun _ _ _ => .pure)

theorem Follows.clause? (word : Keyword) :
    (Parser.clause? word).Follows cursor [.of (.clause word)] where
  spells := (Yields.clause? word).mono fun _ _ _ _ derived => derived.sentence.last
  fails := .accept (fun _ _ => .under (.clause word)
    (.last Follows.expression.fails fun _ _ _ => .pure)) fun _ => .pure

theorem Fails.conditions : Parser.conditions.Fails cursor
    (Starts [.sign .leftBrace, .of (.list .condition), .sign .rightBrace]) :=
  .expect fun _ _ => .last (Follows.list .rightBrace fun _ => Follows.condition).fails
    fun _ _ _ => .note .pure

theorem Follows.contract? : Parser.contract?.Follows cursor [.of .contract] where
  spells := Yields.contract?.mono fun _ _ _ _ derived => derived.sentence.last
  fails := by
    refine .accept (fun _ _ => ?_) fun _ => .enter .clauses ?_
    · exact .under .conditions (.last Fails.conditions fun _ _ _ => .pure)
    · refine .row (Follows.clause? .pre) fun pre _ => .last (Follows.clause? .post).fails ?_
      intro post middle begun
      cases pre <;> cases post <;> exact .pure

/-! ### Definitions -/

theorem Follows.header : Parser.header.Follows cursor [.of .attributes, .of .visibility] where
  spells := Yields.header.mono fun _ _ _ _ headed => by simpa using headed.before .nothing
  fails := .here (.row Follows.attributes fun _ _ =>
    .last Follows.visibility.fails fun _ _ _ => .pure)

/-- The names after the first of a path. -/
theorem Fails.path :
    (Parser.opened (.symbol .colonColon) fun _ => Parser.name .modulePath).Fails cursor fun tokens =>
      ∀ first, Starts [.of .path] (.ident first :: tokens) := by
  refine .opened (fun tokens => ∃ name, tokens = [.symbol .colonColon, .ident name]) ?_ ?_ ?_
  · exact fun _ _ => Yields.ident.mono fun tokens name _ _ holds => ⟨name.node, by rw [holds.1]; rfl⟩
  · refine fun _ _ => .ident fun first => ?_
    exact .within .path ((Sentence.name first).begins (.token _ (.stop _)))
  · rintro _ others ⟨name, rfl⟩ begun first
    exact .within .path ((Sentence.name first).begins (.token _ (begun name)))

theorem Fails.useItem :
    Parser.useItem.Fails cursor (Starts [.word .use, .of .path, .sign .semicolon]) := by
  refine .expect fun _ _ => .bind (.ident (.stop _)) Yields.ident ?_
  rintro _ first _ middle _ ⟨rfl, rfl⟩
  refine .bind (Fails.path.mono fun tokens begun => (begun first.node).append _) Yields.path ?_
  rintro _ _ _ last _ ⟨rest, rfl, rfl, rfl⟩
  exact .someToken ((Sentence.path first rest).begins (.stop _)) fun _ _ => .pure

theorem Fails.structItem (header : Header) :
    (Parser.structItem header).Fails cursor
      (Starts [.word .struct, .of .name, .sign .leftBrace, .of (.list .typedName),
        .sign .rightBrace]) :=
  .expect fun _ _ => .name fun _ _ => .expect fun _ _ =>
    .last (Follows.list .rightBrace fun _ => Follows.typedName .field).fails fun _ _ _ => .pure

theorem Follows.variant : Parser.variant.Follows cursor [.of .variant] where
  spells := Yields.variant.mono fun _ _ _ _ derived => derived.sentence.last
  fails := by
    refine .someName (.stop _) fun name middle => .accept (fun _ _ => ?_) fun _ => .pure
    refine .mono (.last (Follows.list .rightParen fun _ => Follows.type).fails fun _ _ _ => .pure) ?_
    exact fun tokens types => .within .variantOf ((Sentence.name _).begins (.token _ types))

theorem Fails.enumItem (header : Header) :
    (Parser.enumItem header).Fails cursor
      (Starts [.word .enum, .of .name, .sign .leftBrace, .of (.list .variant),
        .sign .rightBrace]) :=
  .expect fun _ _ => .name fun _ _ => .expect fun _ _ =>
    .last (Follows.list .rightBrace fun _ => Follows.variant).fails fun _ _ _ => .pure

theorem Fails.functionItem (header : Header) :
    (Parser.functionItem header).Fails cursor
      (Starts [.word .fn, .of .name, .sign .leftParen, .of (.list .typedName), .sign .rightParen,
        .sign .arrow, .of .label, .of .type, .of .contract, .sign .equal, .of .expr,
        .sign .semicolon]) := by
  refine .expect fun _ _ => .name fun _ _ => .expect fun _ _ => ?_
  refine .row (Follows.list .rightParen fun _ => Follows.typedName .parameter) fun _ _ => ?_
  refine .expect fun _ _ => .row Follows.label fun _ _ => .row Follows.type fun _ _ => ?_
  refine .row Follows.contract? fun _ _ => .expect fun _ _ => ?_
  exact .row Follows.expression fun _ _ => .expect fun _ _ => .pure

/-- A definition that fails behind its header has begun one that takes the header. -/
theorem Fails.itemBody (header : Header) {before : Tokens} {height : Nat}
    (headed : header.Derives cursor.span before height) :
    (Parser.itemBody header).Fails cursor fun tokens =>
      Starts [.of .item] (nodes before ++ tokens) := by
  have row : Spells [.of .attributes, .of .visibility] (nodes before) := by
    simpa using headed.before .nothing
  have undecided : Starts [.of .item] (nodes before ++ []) := .within .function (row.starts (.stop _))
  refine .current ?_
  split
  · split
    · next plain =>
      obtain ⟨rfl, -⟩ := Yields.Header.derives_isPlain headed plain
      exact (Fails.last Fails.useItem fun _ _ _ => .pure).mono fun _ begun => .within .use begun
    · exact .fail undecided
  · exact (Fails.last (Fails.structItem header) fun _ _ _ => .pure).mono fun _ begun =>
      .within .struct (row.starts begun)
  · exact (Fails.last (Fails.enumItem header) fun _ _ _ => .pure).mono fun _ begun =>
      .within .enum (row.starts begun)
  · exact (Fails.last (Fails.functionItem header) fun _ _ _ => .pure).mono fun _ begun =>
      .within .function (row.starts begun)
  · exact .fail undecided

theorem Follows.item : Parser.item.Follows cursor [.of .item] where
  spells := Yields.item.mono fun _ _ _ _ derived => derived.sentence.last
  fails := by
    have before : Parser.header.Fails cursor _ := Follows.header.fails
    refine .bind (before.mono fun _ begun => .within .function (begun.append _)) Yields.header ?_
    intro before header height middle _ headed
    exact .last (Fails.itemBody header headed) fun _ _ _ => .note .pure

theorem Fails.program : Parser.program.Fails cursor (Starts [.of .program]) := by
  refine .last (.untilEnd (Sentence .item) ?_ ?_ ?_) fun _ _ _ => .pure
  · exact fun _ => Follows.item.sentence
  · exact fun _ => .enter .program (Follows.item.fails.mono fun _ begun => begun.append _)
  · exact fun first others sentence begun => .within .program (sentence.begins begun)

end Parser

end ContractSyntax
