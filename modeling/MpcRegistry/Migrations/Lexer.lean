import MpcRegistry.Migrations.Checksum

/-!
# PostgreSQL's reading of a text

How the server's lexer divides a text, with `standard_conforming_strings` on: identifiers and
numbers, quoted strings (E-strings with backslash escapes, strings that go on behind a newline),
quoted identifiers, dollar quotes, and line and nested block comments. A unit beyond ASCII counts
as a letter. The body of a dollar quote directly after `AS` or `DO` is read as a text of its own.
-/
namespace MpcRegistry.Migrations.Lexer
open Library

/-- `ident_start` -/
def isIdentStart (u : CodeUnit) : Bool := isWordStart u || 0x80 ≤ u

/-- `dolq_cont` -/
def isTagPart (u : CodeUnit) : Bool := isWordUnit u || 0x80 ≤ u

/-- `ident_cont` -/
def isIdentPart (u : CodeUnit) : Bool := isTagPart u || u = 0x24

def isDigit (u : CodeUnit) : Bool := 0x30 ≤ u && u ≤ 0x39

def isSpace (u : CodeUnit) : Bool := u ∈ [0x20, 0x09, 0x0a, 0x0b, 0x0c, 0x0d]

def isNewline (u : CodeUnit) : Bool := u = 0x0a || u = 0x0d

/-! ## What stands before a position -/

inductive Prior where
  | start
  | word (text : Text)
  /-- A number or a parameter. -/
  | number
  | string (escapes : Bool)
  | other
  deriving DecidableEq, Repr

/-- Whitespace and comments since then. -/
inductive Gap where
  | adjacent
  /-- Whitespace and line comments, with a newline or without. -/
  | blank (newline : Bool)
  | commented
  deriving DecidableEq, Repr

structure Context where
  prior : Prior
  gap : Gap
  deriving DecidableEq, Repr

namespace Context

def start : Context := ⟨.start, .adjacent⟩

/-- The position is in or right behind an identifier or a keyword. -/
def inWord (context : Context) : Bool :=
  match context.prior with
  | .word _ => context.gap = .adjacent
  | _ => false

/-- A quote here goes on with the string before. -/
def continues (context : Context) : Bool :=
  match context.prior with
  | .string _ => context.gap = .blank true
  | _ => false

/-- A string that starts here has backslash escapes. -/
def escapes (context : Context) : Bool :=
  match context.prior with
  | .word text => context.gap = .adjacent && (text = [0x45] || text = [0x65])
  | .string escapes => context.gap = .blank true && escapes
  | _ => false

/-- A dollar quote that starts here is the body of a function or of a `DO`. -/
def opensBody (context : Context) : Bool :=
  match context.prior with
  | .word [first, second] => isOpenerWord first second
  | _ => false

/-- Two tokens with something between them. -/
def divided (context : Context) : Bool := context.gap ≠ .adjacent && context.prior ≠ .start

end Context

/-! ## What stands at a position -/

/-- How much there is of a quoted token behind its first quote. -/
def quotedLength (escapes : Bool) (quote : CodeUnit) : Text → Option Nat
  | [] => none
  | [ch] => if ch = quote then some 1 else none
  | ch :: next :: rest =>
    if escapes && ch = 0x5c then (quotedLength escapes quote rest).map (2 + ·)
    else if ch = quote then
      if next = quote then (quotedLength escapes quote rest).map (2 + ·) else some 1
    else (quotedLength escapes quote (next :: rest)).map (1 + ·)

/-- How much there is of a block comment inside so many others. -/
def commentLength : Nat → Text → Option Nat
  | _, [] => none
  | _, [_] => none
  | depth, ch :: next :: rest =>
    if ch = 0x2f && next = 0x2a then (commentLength (depth + 1) rest).map (2 + ·)
    else if ch = 0x2a && next = 0x2f then
      if depth ≤ 1 then some 2 else (commentLength (depth - 1) rest).map (2 + ·)
    else (commentLength depth (next :: rest)).map (1 + ·)

inductive Lexeme where
  /-- A unit of an identifier, a number or an operator. -/
  | unit (u : CodeUnit)
  | space (u : CodeUnit)
  | lineComment (text : Text)
  | blockComment (text : Text)
  | quoted (text : Text)
  | dollarQuoted (tag inner : Text)
  /-- These are not closed. -/
  | openComment (text : Text)
  | openQuoted (text : Text)
  | openDollar (tag inner : Text)
  deriving DecidableEq, Repr

def Lexeme.text : Lexeme → Text
  | .unit u | .space u => [u]
  | .lineComment text | .blockComment text | .quoted text | .openComment text
  | .openQuoted text => text
  | .dollarQuoted tag inner => tag ++ (inner ++ tag)
  | .openDollar tag inner => tag ++ inner

def lexemeAt (context : Context) (u : CodeUnit) (rest : Text) : Lexeme :=
  if u = 0x27 || u = 0x22 then
    match quotedLength (u = 0x27 && context.escapes) u rest with
    | some length => .quoted (u :: rest.take length)
    | none => .openQuoted (u :: rest)
  else if u = 0x2d && rest.head? = some 0x2d then
    .lineComment (u :: rest.takeWhile fun v => !isNewline v)
  else if u = 0x2f && rest.head? = some 0x2a then
    match commentLength 0 (u :: rest) with
    | some length => .blockComment ((u :: rest).take length)
    | none => .openComment (u :: rest)
  else if isSpace u then .space u
  else if context.inWord then .unit u
  else
    match tagMatch isIdentStart isTagPart (u :: rest) with
    | some tag =>
      let inside := (u :: rest).drop tag.length
      match indexOf tag inside with
      | some length => .dollarQuoted tag (inside.take length)
      | none => .openDollar tag inside
    | none => .unit u

/-! ## Reading on -/

/-- What a unit starts. -/
def startOf (u : CodeUnit) : Prior :=
  if isIdentStart u then .word [u] else if isDigit u then .number else .other

def Prior.unit (prior : Prior) (u : CodeUnit) : Prior :=
  match prior with
  | .word text => if isIdentPart u then .word (text ++ [u]) else startOf u
  | .number => if isIdentStart u || isDigit u then .number else startOf u
  | _ => startOf u

def Gap.blanks (newline : Bool) : Gap → Gap
  | .adjacent => .blank newline
  | .blank before => .blank (before || newline)
  | .commented => .commented

def Context.after (context : Context) : Lexeme → Context
  | .unit u => ⟨if context.gap = .adjacent then context.prior.unit u else startOf u, .adjacent⟩
  | .space u => ⟨context.prior, context.gap.blanks (isNewline u)⟩
  | .lineComment _ => ⟨context.prior, context.gap.blanks false⟩
  | .blockComment _ | .openComment _ => ⟨context.prior, .commented⟩
  | .quoted text | .openQuoted text =>
    ⟨if text.head? = some 0x27 then .string context.escapes else .other, .adjacent⟩
  | .dollarQuoted _ _ | .openDollar _ _ => ⟨.other, .adjacent⟩

/-- The tokens of a text, spelled out: the units of words, numbers and operators, `gap` where
something stands between two tokens, and literals as they are. -/
inductive Token where
  | unit (u : CodeUnit)
  | gap
  | quoted (continues : Bool) (text : Text)
  | dollarQuoted (tag inner : Text)
  | bodyStart (tag : Text)
  | bodyEnd (tag : Text)
  /-- The lexer stops with an error. -/
  | unterminated
  deriving DecidableEq, Repr

/-- The tokens of a lexeme; `read` reads a body. -/
def Context.tokens (context : Context) (read : Text → List Token) : Lexeme → List Token
  | .unit u => [.unit u]
  | .space _ | .lineComment _ | .blockComment _ => []
  | .quoted text => [.quoted (text.head? = some 0x27 && context.continues) text]
  | .dollarQuoted tag inner =>
    if context.opensBody then .bodyStart tag :: (read inner ++ [.bodyEnd tag])
    else [.dollarQuoted tag inner]
  | .openComment _ | .openQuoted _ | .openDollar _ _ => [.unterminated]

/-- What is read on its own. -/
def Lexeme.inner : Lexeme → Text
  | .dollarQuoted _ inner | .openDollar _ inner => inner
  | _ => []

def Lexeme.isGap : Lexeme → Bool
  | .space _ | .lineComment _ | .blockComment _ => true
  | _ => false

/-- The tokens from a position on, of at most so many lexemes. -/
def readFrom : Nat → Context → Text → List Token
  | 0, _, _ => []
  | _ + 1, _, [] => []
  | rounds + 1, context, u :: rest =>
    let lexeme := lexemeAt context u rest
    (if context.divided && !lexeme.isGap then [.gap] else []) ++
      context.tokens (readFrom rounds .start) lexeme ++
        readFrom rounds (context.after lexeme) ((u :: rest).drop lexeme.text.length)

def read (context : Context) (text : Text) : List Token := readFrom text.length context text

def tokens (sql : Text) : List Token := read .start sql

/-! ## A text with its gaps squeezed -/

def Context.squeezed (context : Context) (squeeze : Text → Text) : Lexeme → Text
  | .space _ | .lineComment _ | .blockComment _ | .openComment _ =>
    if context.gap = .adjacent then [0x20] else []
  | .dollarQuoted tag inner =>
    tag ++ ((if context.opensBody then squeeze inner else inner) ++ tag)
  | .openDollar tag inner => tag ++ if context.opensBody then squeeze inner else inner
  | lexeme => lexeme.text

/-- The text with one space for every gap, in bodies too. -/
def squeezeFrom : Nat → Context → Text → Text
  | 0, _, _ => []
  | _ + 1, _, [] => []
  | rounds + 1, context, u :: rest =>
    let lexeme := lexemeAt context u rest
    context.squeezed (squeezeFrom rounds .start) lexeme ++
      squeezeFrom rounds (context.after lexeme) ((u :: rest).drop lexeme.text.length)

def squeeze (context : Context) (text : Text) : Text := squeezeFrom text.length context text

end MpcRegistry.Migrations.Lexer
