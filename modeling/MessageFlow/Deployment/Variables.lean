import MessageFlow.Text.Alphanumeric
import MessageFlow.Text.Pieces

/-!
Files of variables: lines of the form `NAME=value`. A variable that is set already keeps its value. The
values know quotes, escapes, comments behind a blank, and the values of other variables behind a dollar
sign. The first line that cannot be read ends the reading.
-/

namespace MessageFlow

/-- Variables by their names. -/
abbrev Variables := String → Option String

namespace Variables

inductive Quote where
  | none
  | single
  | double
deriving DecidableEq

/-- The name of another variable as far as it is read, in braces or not. -/
structure Reference where
  name : List Char := []
  braced : Bool := false

/-- How far a value is read, its text with the last character first. -/
structure ValueState where
  text : List Char := []
  quote : Quote := .none
  escaped : Bool := false
  /-- A blank has ended the value. -/
  ended : Bool := false
  reference : Option Reference := none

def escapedChar? : Char → Option Char
  | '\\' => some '\\'
  | '\'' => some '\''
  | '"' => some '"'
  | '$' => some '$'
  | ' ' => some ' '
  | 'n' => some '\n'
  | _ => none

namespace ValueState

def push (s : ValueState) (c : Char) : ValueState := { s with text := c :: s.text }

/-- Put the value of a named variable in the place of its name; one that is not set is empty. -/
def resolve (vars : Variables) (s : ValueState) (r : Reference) : ValueState :=
  let value := (vars (String.ofList r.name.reverse)).getD ""
  { s with text := value.toList.reverse ++ s.text, reference := none }

/-- A character behind the name of another variable without braces. -/
def afterName (vars : Variables) (s : ValueState) (r : Reference) (c : Char) : ValueState :=
  if c = '\x7b' && r.name.isEmpty then { s with reference := some { braced := true } }
  else
    let s := s.resolve vars r
    if c = '$' then { s with reference := some {} } else s.push c

/-- A character in or behind the name of another variable. -/
def inName (vars : Variables) (s : ValueState) (r : Reference) (c : Char) : ValueState :=
  if Text.isAlphanumeric c then { s with reference := some { r with name := c :: r.name } }
  else if !r.braced then s.afterName vars r c
  else if c = '\x7d' then s.resolve vars r
  else { s with reference := some { r with name := c :: r.name } }

/-- A character outside all names. In single quotes only the closing quote has a meaning. -/
def plain (s : ValueState) (c : Char) : ValueState :=
  if s.quote = .single then if c = '\'' then { s with quote := .none } else s.push c
  else if c = '$' then { s with reference := some {} }
  else if c = '\\' then { s with escaped := true }
  else if s.quote = .double then if c = '"' then { s with quote := .none } else s.push c
  else if c = '\'' then { s with quote := .single }
  else if c = '"' then { s with quote := .double }
  else if c = ' ' || c = '\t' then { s with ended := true }
  else s.push c

/-- The value at its end. A quote or brace that is still open makes it unreadable. -/
def finish (vars : Variables) (s : ValueState) : Option String :=
  if s.quote ≠ .none || s.reference.any (·.braced) then none
  else
    let s := match s.reference with
      | some r => s.resolve vars r
      | none => s
    some (String.ofList s.text.reverse)

end ValueState

/-- A value from a state on; behind its end only blanks and a comment may stand. -/
def value? (vars : Variables) (s : ValueState) : List Char → Option String
  | [] => s.finish vars
  | c :: rest =>
    if s.ended then
      if c = ' ' || c = '\t' then value? vars s rest
      else if c = '#' then s.finish vars
      else none
    else if s.escaped then
      match escapedChar? c with
      | some d => value? vars { s.push d with escaped := false } rest
      | none => none
    else
      match s.reference with
      | some r => value? vars (s.inName vars r c) rest
      | none => value? vars (s.plain c) rest

/-- The name at the start of a line, and what follows it behind blanks. -/
def name? (s : List Char) : Option (List Char × List Char) :=
  match s with
  | c :: _ =>
    if c.isAlpha || c = '_' then
      let isPart := fun c : Char => c.isAlphanum || c = '_' || c = '.'
      some (s.takeWhile isPart, Text.trimStart (s.dropWhile isPart))
    else none
  | [] => none

/-- What a line of a file says. -/
inductive Line where
  | nothing
  | assign (name value : String)

/-- The value behind the equals sign of a line. -/
def assigned? (vars : Variables) (name : List Char) (s : List Char) : Option Line :=
  match s with
  | '=' :: rest =>
    match Text.trimStart rest with
    | [] | '#' :: _ => some (.assign (String.ofList name) "")
    | value => (value? vars {} value).map (.assign (String.ofList name))
  | _ => none

/-- A line; the word `export` may stand before the name, and may be a name itself. -/
def line? (vars : Variables) (s : List Char) : Option Line :=
  match Text.trim s with
  | [] | '#' :: _ => some .nothing
  | s => do
    let (name, rest) ← name? s
    if name = "export".toList ∧ rest.head? ≠ some '=' then
      let (name, rest) ← name? rest
      assigned? vars name rest
    else assigned? vars name rest

/-- Set a variable that is not set. No variable can hold the character NUL. -/
def add? (vars : Variables) (name value : String) : Option Variables :=
  if (vars name).isSome then some vars
  else if value.toList.contains '\x00' then none
  else some (fun other => if other = name then some value else vars other)

/-- Take over lines one after another. -/
def addLines? (vars : Variables) : List (List Char) → Option Variables
  | [] => some vars
  | s :: rest =>
    match line? vars s with
    | some (.assign name value) => (vars.add? name value).bind (addLines? · rest)
    | some .nothing => addLines? vars rest
    | none => some vars

theorem add?_keeps {vars new : Variables} {name value other v : String}
    (h : vars.add? name value = some new) (hv : vars other = some v) : new other = some v := by
  simp only [add?] at h
  split at h
  · simp_all
  · next hs =>
    split at h
    · simp at h
    · simp only [Option.some.injEq] at h
      subst h
      have hne : other ≠ name := by
        intro he
        subst he
        simp [hv] at hs
      simp [hne, hv]

/-- A variable that is set already keeps its value, whatever the lines say. -/
theorem addLines?_keeps {vars new : Variables} {lines : List (List Char)} {name v : String}
    (h : vars.addLines? lines = some new) (hv : vars name = some v) : new name = some v := by
  induction lines generalizing vars with
  | nil => simp_all [addLines?]
  | cons line rest ih =>
    simp only [addLines?] at h
    split at h
    · obtain ⟨next, hn, hr⟩ := Option.bind_eq_some_iff.1 h
      exact ih hr (add?_keeps hn hv)
    · exact ih h hv
    · simp_all

/-- The texts of lines, up to the first that is not UTF-8. -/
def texts : List (List UInt8) → List (List Char)
  | [] => []
  | line :: rest =>
    match String.fromUTF8? ⟨line.toArray⟩ with
    | some text => text.toList :: texts rest
    | none => []

/-- The lines of a file. -/
def lines (file : ByteArray) : List (List Char) := texts (Text.pieces 10 file.toList)

/-- The variables together with those of a file; none if a value cannot be one. -/
def addFile? (vars : Variables) (file : ByteArray) : Option Variables := vars.addLines? (lines file)

/-- Where a file of variables may be: in a folder, given by the parts of its path with the innermost
first, and in the folders around it. -/
def filePaths : List String → List String
  | [] => []
  | part :: outer => Text.join "/" ((part :: outer).reverse ++ [".env"]) :: filePaths outer

/-- The names behind the dollar signs of a line. -/
def referenced : List Char → List String
  | [] => []
  | '$' :: '\x7b' :: rest => String.ofList (rest.takeWhile (· ≠ '\x7d')) :: referenced rest
  | '$' :: rest => String.ofList (rest.takeWhile Text.isAlphanumeric) :: referenced rest
  | _ :: rest => referenced rest

/-- The names of a line: the variable it sets, and those its value may use. -/
def namesOf (s : List Char) : List String :=
  match line? (fun _ => none) s with
  | some (.assign name _) => name :: referenced s
  | _ => referenced s

/-- The names that a file uses. -/
def mentioned (file : ByteArray) : List String := (lines file).flatMap namesOf

end Variables
end MessageFlow
