/-!
# Tokens

A token is a word of the source with its kind. The kind of a word depends on its text alone:
reserved words come first, then numbers, then the single symbol characters, and every other word is
an identifier. Quoted text has no kind of its own; it is an identifier that starts and ends with a
double quote.
-/

namespace ThreeAddress

/-- The class of a word. `unknown` is there for tokens built by hand: no word is classified so. -/
inductive Kind where
  | keyword
  | identifier
  | number
  | symbol
  | unknown
  deriving DecidableEq, Repr, Inhabited

def Kind.name : Kind → String
  | .keyword => "keyword"
  | .identifier => "identifier"
  | .number => "number"
  | .symbol => "symbol"
  | .unknown => "unknown"

structure Token where
  kind : Kind
  text : String
  deriving DecidableEq, Repr, Inhabited

namespace Token

/-- The characters that are a token of their own wherever they stand. -/
def symbols : List Char :=
  ['+', '-', '*', '/', '%', '(', ')', '\x7b', '\x7d', '=', ';', '<', '>']

/-- The reserved words. -/
def keywords : List String :=
  ["auto", "break", "case", "catch", "class", "const", "continue", "default", "delete", "do",
    "else", "enum", "explicit", "export", "extern", "false", "for", "friend", "goto", "if",
    "inline", "mutable", "namespace", "new", "operator", "private", "protected", "public",
    "register", "reinterpret_cast", "return", "sizeof", "static", "static_cast", "struct",
    "switch", "template", "this", "throw", "true", "try", "typedef", "typeid", "typename",
    "union", "using", "virtual", "void", "volatile", "while", "int", "string"]

def isSymbolChar (c : Char) : Bool :=
  symbols.contains c

/-- One or more decimal digits and nothing else. -/
def isNumeral (word : String) : Bool :=
  !word.toList.isEmpty && word.toList.all Char.isDigit

/-- The kind of a word; the first class that fits. -/
def kindOf (word : String) : Kind :=
  if keywords.contains word then .keyword
  else if isNumeral word then .number
  else match word.toList with
    | [c] => if isSymbolChar c then .symbol else .identifier
    | _ => .identifier

/-- The token of a word. -/
def ofWord (word : String) : Token :=
  ⟨kindOf word, word⟩

/-- The token of a symbol character. -/
def ofSymbol (c : Char) : Token :=
  ⟨.symbol, String.singleton c⟩

/-- Is this the reserved word `word`? -/
def isKeyword (t : Token) (word : String) : Bool :=
  t.kind == .keyword && t.text == word

/-- Is this the symbol `c`? Symbols are ASCII characters. -/
def isSymbol (t : Token) (c : Char) : Bool :=
  t.kind == .symbol && c.toNat < 128 && t.text.toList == [c]

/-- Text that starts and ends with a double quote; a lone quote does not. -/
def isQuotedText (text : String) : Bool :=
  2 ≤ text.length && text.toList.head? == some '"' && text.toList.getLast? == some '"'

/-- Is this quoted text, a string literal? -/
def isQuoted (t : Token) : Bool :=
  t.kind == .identifier && isQuotedText t.text

/-- Can this token name a variable or a function? -/
def isName (t : Token) : Bool :=
  t.kind == .identifier && !t.isQuoted

end Token

end ThreeAddress
