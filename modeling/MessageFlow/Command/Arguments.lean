import MessageFlow.Command.Basic

/-!
Commands from the arguments of a command line. Every option takes a value, which stands behind it or is
attached to it, and which does not look like an option itself. Nothing stands outside the options.
-/

namespace MessageFlow
namespace Command

/-- An option: its long name, and its letter if it has one. -/
structure Flag where
  name : String
  letter : Option Char := none

/-- Options with their values, in the order in which they are given. -/
abbrev Given := List (String × String)

/-- Whether an argument cannot be the value of the option before it. -/
def looksLikeOption (s : List Char) : Bool := s.head? == some '-' && s ≠ ['-']

/-- The option of an argument and the value attached to it. -/
def flag? (flags : List Flag) (arg : List Char) : Option (String × Option String) :=
  match arg with
  | '-' :: '-' :: rest =>
    let (name, value) := match Text.cut '=' rest with
      | some (name, value) => (name, some (String.ofList value))
      | none => (rest, none)
    (flags.find? (fun f => f.name = String.ofList name)).map (fun f => (f.name, value))
  | ['-', c] => (flags.find? (fun f => f.letter = some c)).map (fun f => (f.name, none))
  | '-' :: c :: rest =>
    let value := match rest with
      | '=' :: value => value
      | _ => rest
    (flags.find? (fun f => f.letter = some c)).map (fun f => (f.name, some (String.ofList value)))
  | _ => none

/-- The options of a command. Two dashes may stand at the end. -/
def given? (flags : List Flag) : List String → Option Given
  | [] => some []
  | ["--"] => some []
  | arg :: rest =>
    match flag? flags arg.toList with
    | none => none
    | some (name, some value) => (given? flags rest).map ((name, value) :: ·)
    | some (name, none) =>
      match rest with
      | [] => none
      | value :: rest =>
        if looksLikeOption value.toList then none
        else (given? flags rest).map ((name, value) :: ·)

/-- All values of an option. -/
def Given.all (g : Given) (name : String) : List String :=
  g.filterMap (fun p => if p.1 = name then some p.2 else none)

/-- The value of an option that may be given once. -/
def Given.once (g : Given) (name : String) : Option (Option String) :=
  match g.all name with
  | [] => some none
  | [value] => some (some value)
  | _ => none

/-- The meaning of an option that may be given once. -/
def Given.choice {α : Type} (g : Given) (name : String) (read : String → Except String α) :
    Option (Option α) := do
  match ← g.once name with
  | none => return none
  | some value => return some (← (read value).toOption)

def compileFlags : List Flag := [⟨"file", some 'f'⟩, ⟨"encoding", some 'e'⟩]

def runFlags : List Flag :=
  [⟨"file", some 'f'⟩, ⟨"payload", some 'p'⟩, ⟨"header", none⟩, ⟨"isolation", some 'i'⟩]

/-- The command of a command line; none if it is not used as it should be. -/
def ofArguments? : List String → Option Command
  | "compile" :: args => do
    let g ← given? compileFlags args
    return .compile (← (← g.once "file")) (← g.choice "encoding" ParameterEncoding.ofText)
  | "run" :: args => do
    let g ← given? runFlags args
    let d : RunRequest := { file := ← (← g.once "file") }
    return .run { d with
      payload := (← g.once "payload").getD d.payload
      headers := g.all "header"
      isolation := ← g.choice "isolation" BranchIsolation.ofText }
  | _ => none

end Command
end MessageFlow
