import Resumable.Grammar.Symbol

/-!
# The productions of the grammar

The grammar is written so that one token of look-ahead is enough for a parser
that reads from left to right: lists are left-recursive, and the then-part of a
conditional is a block.
-/

namespace Resumable.Grammar

/-- The productions, by the phrase that they make. -/
inductive Production where
  | unitOf
  | noDeclarations
  | moreDeclarations
  | functionItself
  | topLevelVariables
  | untypedFunction
  | typedFunction
  | formals
  | noParameters
  | requiredOnly
  | requiredAndOptional
  | optionalOnly
  | optionals
  | firstOptional
  | moreOptionals
  | optionalPlain
  | optionalDefault
  | firstParameter
  | moreParameters
  | untypedParameter
  | typedParameter
  | blockBody
  | modifiedBlockBody
  | arrowBody
  | modifiedArrowBody
  | asyncModifier
  | asyncStarModifier
  | syncStarModifier
  | noStatements
  | moreStatements
  | plainStatement
  | labeledStatement
  | firstLabel
  | moreLabels
  | label
  | blockStatement
  | variableStatement
  | expressionStatement
  | emptyStatement
  | bareReturn
  | returnValue
  | ifThen
  | ifElse
  | whileLoop
  | doLoop
  | bareBreak
  | labeledBreak
  | bareContinue
  | labeledContinue
  | tryCatch
  | tryFinally
  | tryCatchFinally
  | block
  | firstBinding
  | moreBindings
  | plainBinding
  | initializedBinding
  | firstClause
  | moreClauses
  | catchClause
  | catchWithTrace
  | onClause
  | onCatchClause
  | arguments
  | noArguments
  | someArguments
  | firstExpression
  | moreExpressions
  | assignment
  | propertyAssignment
  | throwing
  | plainOperand
  | plainPrimary
  | call
  | property
  | methodCall
  | integer
  | string
  | identifier
  | parenthesized
  deriving Repr, DecidableEq, Inhabited

open Grammar.Symbol in
/-- What a production makes, and of what. -/
def Production.rule : Production → Nonterminal × List Symbol
  | .unitOf => (.unit, [nonterminal .declarations])
  | .noDeclarations => (.declarations, [])
  | .moreDeclarations => (.declarations, [nonterminal .declarations, nonterminal .declaration])
  | .functionItself => (.declaration, [nonterminal .functionDeclaration])
  | .topLevelVariables =>
      (.declaration, [terminal .kwVar, nonterminal .bindings, terminal .semicolon])
  | .untypedFunction =>
      (.functionDeclaration, [terminal .name, nonterminal .formals, nonterminal .body])
  | .typedFunction =>
      (.functionDeclaration, [terminal .name, terminal .name, nonterminal .formals,
        nonterminal .body])
  | .formals => (.formals, [terminal .parenL, nonterminal .parameterSection, terminal .parenR])
  | .noParameters => (.parameterSection, [])
  | .requiredOnly => (.parameterSection, [nonterminal .parameters])
  | .requiredAndOptional =>
      (.parameterSection, [nonterminal .parameters, terminal .comma, nonterminal .optionals])
  | .optionalOnly => (.parameterSection, [nonterminal .optionals])
  | .optionals =>
      (.optionals, [terminal .bracketL, nonterminal .optionalParameters, terminal .bracketR])
  | .firstOptional => (.optionalParameters, [nonterminal .optionalParameter])
  | .moreOptionals =>
      (.optionalParameters, [nonterminal .optionalParameters, terminal .comma,
        nonterminal .optionalParameter])
  | .optionalPlain => (.optionalParameter, [nonterminal .parameter])
  | .optionalDefault =>
      (.optionalParameter, [nonterminal .parameter, terminal .equals, nonterminal .expr])
  | .firstParameter => (.parameters, [nonterminal .parameter])
  | .moreParameters =>
      (.parameters, [nonterminal .parameters, terminal .comma, nonterminal .parameter])
  | .untypedParameter => (.parameter, [terminal .name])
  | .typedParameter => (.parameter, [terminal .name, terminal .name])
  | .blockBody => (.body, [nonterminal .block])
  | .modifiedBlockBody => (.body, [nonterminal .modifier, nonterminal .block])
  | .arrowBody => (.body, [terminal .arrow, nonterminal .expr, terminal .semicolon])
  | .modifiedArrowBody =>
      (.body, [nonterminal .modifier, terminal .arrow, nonterminal .expr, terminal .semicolon])
  | .asyncModifier => (.modifier, [terminal .kwAsync])
  | .asyncStarModifier => (.modifier, [terminal .kwAsync, terminal .star])
  | .syncStarModifier => (.modifier, [terminal .kwSync, terminal .star])
  | .noStatements => (.statements, [])
  | .moreStatements => (.statements, [nonterminal .statements, nonterminal .statement])
  | .plainStatement => (.statement, [nonterminal .unlabeled])
  | .labeledStatement => (.statement, [nonterminal .labels, nonterminal .unlabeled])
  | .firstLabel => (.labels, [nonterminal .label])
  | .moreLabels => (.labels, [nonterminal .labels, nonterminal .label])
  | .label => (.label, [terminal .name, terminal .colon])
  | .blockStatement => (.unlabeled, [nonterminal .block])
  | .variableStatement =>
      (.unlabeled, [terminal .kwVar, nonterminal .bindings, terminal .semicolon])
  | .expressionStatement => (.unlabeled, [nonterminal .expr, terminal .semicolon])
  | .emptyStatement => (.unlabeled, [terminal .semicolon])
  | .bareReturn => (.unlabeled, [terminal .kwReturn, terminal .semicolon])
  | .returnValue => (.unlabeled, [terminal .kwReturn, nonterminal .expr, terminal .semicolon])
  | .ifThen =>
      (.unlabeled, [terminal .kwIf, terminal .parenL, nonterminal .expr, terminal .parenR,
        nonterminal .block])
  | .ifElse =>
      (.unlabeled, [terminal .kwIf, terminal .parenL, nonterminal .expr, terminal .parenR,
        nonterminal .block, terminal .kwElse, nonterminal .statement])
  | .whileLoop =>
      (.unlabeled, [terminal .kwWhile, terminal .parenL, nonterminal .expr, terminal .parenR,
        nonterminal .statement])
  | .doLoop =>
      (.unlabeled, [terminal .kwDo, nonterminal .statement, terminal .kwWhile, terminal .parenL,
        nonterminal .expr, terminal .parenR, terminal .semicolon])
  | .bareBreak => (.unlabeled, [terminal .kwBreak, terminal .semicolon])
  | .labeledBreak => (.unlabeled, [terminal .kwBreak, terminal .name, terminal .semicolon])
  | .bareContinue => (.unlabeled, [terminal .kwContinue, terminal .semicolon])
  | .labeledContinue => (.unlabeled, [terminal .kwContinue, terminal .name, terminal .semicolon])
  | .tryCatch => (.unlabeled, [terminal .kwTry, nonterminal .block, nonterminal .clauses])
  | .tryFinally =>
      (.unlabeled, [terminal .kwTry, nonterminal .block, terminal .kwFinally, nonterminal .block])
  | .tryCatchFinally =>
      (.unlabeled, [terminal .kwTry, nonterminal .block, nonterminal .clauses,
        terminal .kwFinally, nonterminal .block])
  | .block => (.block, [terminal .braceL, nonterminal .statements, terminal .braceR])
  | .firstBinding => (.bindings, [nonterminal .binding])
  | .moreBindings => (.bindings, [nonterminal .bindings, terminal .comma, nonterminal .binding])
  | .plainBinding => (.binding, [terminal .name])
  | .initializedBinding => (.binding, [terminal .name, terminal .equals, nonterminal .expr])
  | .firstClause => (.clauses, [nonterminal .clause])
  | .moreClauses => (.clauses, [nonterminal .clauses, nonterminal .clause])
  | .catchClause =>
      (.clause, [terminal .kwCatch, terminal .parenL, terminal .name, terminal .parenR,
        nonterminal .block])
  | .catchWithTrace =>
      (.clause, [terminal .kwCatch, terminal .parenL, terminal .name, terminal .comma,
        terminal .name, terminal .parenR, nonterminal .block])
  | .onClause => (.clause, [terminal .kwOn, terminal .name, nonterminal .block])
  | .onCatchClause =>
      (.clause, [terminal .kwOn, terminal .name, terminal .kwCatch, terminal .parenL,
        terminal .name, terminal .parenR, nonterminal .block])
  | .arguments => (.arguments, [terminal .parenL, nonterminal .argumentSection, terminal .parenR])
  | .noArguments => (.argumentSection, [])
  | .someArguments => (.argumentSection, [nonterminal .expressions])
  | .firstExpression => (.expressions, [nonterminal .expr])
  | .moreExpressions =>
      (.expressions, [nonterminal .expressions, terminal .comma, nonterminal .expr])
  | .assignment => (.expr, [terminal .name, terminal .equals, nonterminal .expr])
  | .propertyAssignment =>
      (.expr, [nonterminal .operand, terminal .dot, terminal .name, terminal .equals,
        nonterminal .expr])
  | .throwing => (.expr, [terminal .kwThrow, nonterminal .expr])
  | .plainOperand => (.expr, [nonterminal .operand])
  | .plainPrimary => (.operand, [nonterminal .primary])
  | .call => (.operand, [terminal .name, nonterminal .arguments])
  | .property => (.operand, [nonterminal .operand, terminal .dot, terminal .name])
  | .methodCall =>
      (.operand, [nonterminal .operand, terminal .dot, terminal .name, nonterminal .arguments])
  | .integer => (.primary, [terminal .integer])
  | .string => (.primary, [terminal .shortString])
  | .identifier => (.primary, [terminal .name])
  | .parenthesized => (.primary, [terminal .parenL, nonterminal .expr, terminal .parenR])

/-- The phrase that a production makes. -/
def Production.lhs (p : Production) : Nonterminal :=
  p.rule.1

/-- The symbols that a production is made of. -/
def Production.rhs (p : Production) : List Symbol :=
  p.rule.2

/-- All productions. A phrase that may stand first in another one comes after it. -/
def Production.all : List Production :=
  [.unitOf, .noDeclarations, .moreDeclarations, .functionItself, .topLevelVariables,
   .untypedFunction, .typedFunction, .formals, .noParameters, .requiredOnly,
   .requiredAndOptional, .optionalOnly, .optionals, .firstOptional, .moreOptionals,
   .optionalPlain, .optionalDefault, .firstParameter, .moreParameters, .untypedParameter,
   .typedParameter, .blockBody, .modifiedBlockBody, .arrowBody, .modifiedArrowBody,
   .asyncModifier, .asyncStarModifier, .syncStarModifier, .noStatements, .moreStatements,
   .plainStatement, .labeledStatement, .firstLabel, .moreLabels, .label, .blockStatement,
   .variableStatement, .expressionStatement, .emptyStatement, .bareReturn, .returnValue, .ifThen,
   .ifElse, .whileLoop, .doLoop, .bareBreak, .labeledBreak, .bareContinue, .labeledContinue,
   .tryCatch, .tryFinally, .tryCatchFinally, .block, .firstBinding, .moreBindings, .plainBinding,
   .initializedBinding, .firstClause, .moreClauses, .catchClause, .catchWithTrace, .onClause,
   .onCatchClause, .arguments, .noArguments, .someArguments, .firstExpression, .moreExpressions,
   .assignment, .propertyAssignment, .throwing, .plainOperand, .plainPrimary, .call, .property,
   .methodCall, .integer, .string, .identifier, .parenthesized]

end Resumable.Grammar
