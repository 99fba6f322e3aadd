/-! Lexemes of a query. A text is split into names and the nine symbols `: ( ) < > - * , ->`;
blanks separate names and are dropped, and no text is refused. -/

namespace SignatureSearch

inductive Lexeme
  | name (text : String)
  | colon
  | openParen
  | closeParen
  | arrow
  | star
  | less
  | greater
  | dash
  | comma
  deriving DecidableEq, Repr, Inhabited

namespace Lexeme

/-- The characters with the property White_Space. -/
def isBlank (c : Char) : Bool :=
  let n := c.toNat
  (9 ≤ n && n ≤ 13) || n == 0x20 || n == 0x85 || n == 0xA0 || n == 0x1680 ||
    (0x2000 ≤ n && n ≤ 0x200A) || n == 0x2028 || n == 0x2029 || n == 0x202F || n == 0x205F ||
    n == 0x3000

def ofSymbol? (c : Char) : Option Lexeme :=
  match c with
  | ':' => some .colon
  | '(' => some .openParen
  | ')' => some .closeParen
  | '<' => some .less
  | '>' => some .greater
  | '-' => some .dash
  | '*' => some .star
  | ',' => some .comma
  | _ => none

def isNameChar (c : Char) : Bool := !isBlank c && (ofSymbol? c).isNone

def text : Lexeme → String
  | .name text => text
  | .colon => ":"
  | .openParen => "("
  | .closeParen => ")"
  | .arrow => "->"
  | .star => "*"
  | .less => "<"
  | .greater => ">"
  | .dash => "-"
  | .comma => ","

/-- What has been read of a text: the lexemes, the last one first, and the letters of an unfinished
name, the last one first. -/
structure Scanner where
  lexemes : List Lexeme
  word : List Char
  deriving DecidableEq, Repr

namespace Scanner

def start : Scanner := ⟨[], []⟩

/-- The lexemes with the unfinished name, the last one first. -/
def flush (s : Scanner) : List Lexeme :=
  if s.word.isEmpty then s.lexemes else .name (String.ofList s.word.reverse) :: s.lexemes

/-- Adds a symbol; `>` after a dash makes the dash an arrow. -/
def addSymbol (symbol : Lexeme) : List Lexeme → List Lexeme
  | .dash :: earlier => if symbol = .greater then .arrow :: earlier else symbol :: .dash :: earlier
  | earlier => symbol :: earlier

def step (s : Scanner) (c : Char) : Scanner :=
  match ofSymbol? c with
  | some symbol => ⟨addSymbol symbol s.flush, []⟩
  | none => if isBlank c then ⟨s.flush, []⟩ else ⟨s.lexemes, c :: s.word⟩

end Scanner

/-- The lexemes of a text. A `>` makes the dash before it an arrow, even across blanks. -/
def tokenize (text : String) : List Lexeme :=
  (text.toList.foldl Scanner.step Scanner.start).flush.reverse

end Lexeme

end SignatureSearch
