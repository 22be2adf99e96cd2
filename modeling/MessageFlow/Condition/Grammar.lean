import MessageFlow.Condition.Reader

/-!
The grammar of conditions. A phrase is a derivation of it: what it derives as text, and the condition that
this text stands for.

    disjunction = conjunction { " or " conjunction }
    conjunction = unary { " and " unary }
    unary       = "not " unary | "(" disjunction ")" | "true" | "false" | path " " operator " " literal
-/

namespace MessageFlow
namespace Expression

/-- The characters that set parts of a condition off: blanks, quotes, parentheses, and those of the
operators. -/
def isMark (c : Char) : Bool := Text.isBlank c || "'\"()=!<>".toList.contains c

/-- The words between conditions. -/
def keywords : List (List Char) := ["and".toList, "or".toList, "not".toList]

/-- The left side of a comparison. -/
structure PathText where
  chars : List Char
  ne_nil : chars ≠ []
  unmarked : ∀ c ∈ chars, isMark c = false
  not_keyword : chars ∉ keywords

/-- The right side of a comparison. A text in quotes may hold anything but its own kind of quote. -/
inductive LiteralText where
  | null
  | boolean (b : Bool)
  | number (chars : List Char) (n : LiteralNumber) (reads : number? chars = some n)
  | quoted (quote : Char) (inside : List Char) (isQuote : quote = '\'' ∨ quote = '"')
      (alone : quote ∉ inside)

def LiteralText.chars : LiteralText → List Char
  | .null => "null".toList
  | .boolean b => if b then "true".toList else "false".toList
  | .number chars _ _ => chars
  | .quoted quote inside _ _ => quote :: (inside ++ [quote])

def LiteralText.meaning : LiteralText → Literal
  | .null => .null
  | .boolean b => .boolean b
  | .number _ n _ => .number n
  | .quoted _ inside _ _ => .string (String.ofList inside)

/-- How tightly the parts of a phrase hold together. -/
inductive Binding where
  | disjunction
  | conjunction
  | unary

inductive Phrase : Binding → Type where
  | or (left : Phrase .conjunction) (right : Phrase .disjunction) : Phrase .disjunction
  | noOr (only : Phrase .conjunction) : Phrase .disjunction
  | and (left : Phrase .unary) (right : Phrase .conjunction) : Phrase .conjunction
  | noAnd (only : Phrase .unary) : Phrase .conjunction
  | not (inner : Phrase .unary) : Phrase .unary
  | parenthesized (inner : Phrase .disjunction) : Phrase .unary
  | always : Phrase .unary
  | never : Phrase .unary
  | comparison (path : PathText) (op : CompareOp) (right : LiteralText) : Phrase .unary

namespace Phrase

def chars : {b : Binding} → Phrase b → List Char
  | _, .or left right => left.chars ++ " or ".toList ++ right.chars
  | _, .noOr only | _, .noAnd only => only.chars
  | _, .and left right => left.chars ++ " and ".toList ++ right.chars
  | _, .not inner => "not ".toList ++ inner.chars
  | _, .parenthesized inner => '(' :: (inner.chars ++ [')'])
  | _, .always => "true".toList
  | _, .never => "false".toList
  | _, .comparison path op right => path.chars ++ ' ' :: (op.text.toList ++ ' ' :: right.chars)

/-- The condition that a phrase stands for. Parentheses only group. -/
def meaning : {b : Binding} → Phrase b → Expression
  | _, .or left right => .disj left.meaning right.meaning
  | _, .noOr only | _, .noAnd only => only.meaning
  | _, .and left right => .conj left.meaning right.meaning
  | _, .not inner => .neg inner.meaning
  | _, .parenthesized inner => inner.meaning
  | _, .always => .always
  | _, .never => .never
  | _, .comparison path op right => .compare (String.ofList path.chars) op right.meaning

def text {b : Binding} (p : Phrase b) : String := String.ofList p.chars

end Phrase
end Expression
end MessageFlow
