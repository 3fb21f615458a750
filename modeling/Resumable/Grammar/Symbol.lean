/-!
# The symbols of the grammar

Terminals are the kinds of tokens. A reserved word is written in lower case in a
text, and its terminal is shown in upper case.
-/

namespace Resumable.Grammar

/-- The kinds of tokens. -/
inductive Terminal where
  | name
  | integer
  | shortString
  | kwAsync
  | kwBreak
  | kwCatch
  | kwContinue
  | kwDo
  | kwElse
  | kwFinally
  | kwIf
  | kwOn
  | kwReturn
  | kwSync
  | kwThrow
  | kwTry
  | kwVar
  | kwWhile
  | parenL
  | parenR
  | braceL
  | braceR
  | bracketL
  | bracketR
  | semicolon
  | colon
  | comma
  | equals
  | dot
  | star
  | arrow
  deriving Repr, DecidableEq, Inhabited

/-- The phrases of the language. -/
inductive Nonterminal where
  | unit
  | declarations
  | declaration
  | functionDeclaration
  | formals
  | parameterSection
  | optionals
  | optionalParameters
  | optionalParameter
  | parameters
  | parameter
  | body
  | modifier
  | statements
  | statement
  | labels
  | label
  | unlabeled
  | block
  | bindings
  | binding
  | clauses
  | clause
  | arguments
  | argumentSection
  | expressions
  | expr
  | operand
  | primary
  deriving Repr, DecidableEq, Inhabited

/-- A symbol on a right-hand side. -/
inductive Symbol where
  | terminal (kind : Terminal)
  | nonterminal (phrase : Nonterminal)
  deriving Repr, DecidableEq, Inhabited

/-- How a kind of token is shown. -/
def Terminal.text : Terminal → String
  | .name => "name"
  | .integer => "integer"
  | .shortString => "short_string"
  | .kwAsync => "ASYNC"
  | .kwBreak => "BREAK"
  | .kwCatch => "CATCH"
  | .kwContinue => "CONTINUE"
  | .kwDo => "DO"
  | .kwElse => "ELSE"
  | .kwFinally => "FINALLY"
  | .kwIf => "IF"
  | .kwOn => "ON"
  | .kwReturn => "RETURN"
  | .kwSync => "SYNC"
  | .kwThrow => "THROW"
  | .kwTry => "TRY"
  | .kwVar => "VAR"
  | .kwWhile => "WHILE"
  | .parenL => "("
  | .parenR => ")"
  | .braceL => "\x7b"
  | .braceR => "\x7d"
  | .bracketL => "["
  | .bracketR => "]"
  | .semicolon => ";"
  | .colon => ":"
  | .comma => ","
  | .equals => "="
  | .dot => "."
  | .star => "*"
  | .arrow => "=>"

/-- The kind of token that a word is: each reserved word is a kind of its own,
and any other word is a name. -/
def Terminal.ofWord (word : List Char) : Terminal :=
  match String.ofList word with
  | "async" => .kwAsync
  | "break" => .kwBreak
  | "catch" => .kwCatch
  | "continue" => .kwContinue
  | "do" => .kwDo
  | "else" => .kwElse
  | "finally" => .kwFinally
  | "if" => .kwIf
  | "on" => .kwOn
  | "return" => .kwReturn
  | "sync" => .kwSync
  | "throw" => .kwThrow
  | "try" => .kwTry
  | "var" => .kwVar
  | "while" => .kwWhile
  | _ => .name

/-- The kind of token that a single mark is. -/
def Terminal.ofMark? : Char → Option Terminal
  | '(' => some .parenL
  | ')' => some .parenR
  | '\x7b' => some .braceL
  | '\x7d' => some .braceR
  | '[' => some .bracketL
  | ']' => some .bracketR
  | ';' => some .semicolon
  | ':' => some .colon
  | ',' => some .comma
  | '=' => some .equals
  | '.' => some .dot
  | '*' => some .star
  | _ => none

/-- How a phrase of the language is called. -/
def Nonterminal.text : Nonterminal → String
  | .unit => "unit"
  | .declarations => "declarations"
  | .declaration => "declaration"
  | .functionDeclaration => "function_declaration"
  | .formals => "formals"
  | .parameterSection => "parameter_section"
  | .optionals => "optionals"
  | .optionalParameters => "optional_parameters"
  | .optionalParameter => "optional_parameter"
  | .parameters => "parameters"
  | .parameter => "parameter"
  | .body => "body"
  | .modifier => "modifier"
  | .statements => "statements"
  | .statement => "statement"
  | .labels => "labels"
  | .label => "label"
  | .unlabeled => "unlabeled"
  | .block => "block"
  | .bindings => "variables"
  | .binding => "variable"
  | .clauses => "catches"
  | .clause => "catch"
  | .arguments => "arguments"
  | .argumentSection => "argument_section"
  | .expressions => "expressions"
  | .expr => "expr"
  | .operand => "postfix"
  | .primary => "primary"

/-- How a symbol is shown. -/
def Symbol.text : Symbol → String
  | .terminal kind => kind.text
  | .nonterminal phrase => phrase.text

end Resumable.Grammar
