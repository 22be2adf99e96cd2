import MessageFlow.Command.Invocation
import Std.Time.DateTime.Timestamp

/-!
The program: it reads its variables and its flow document, performs one command, and prints what the
command shows.
-/

namespace MessageFlow

/-- The contents of a file; none if it cannot be read. -/
def readBytes (path : String) : IO (Option ByteArray) := do
  try
    return some (← IO.FS.readBinFile path)
  catch _ => return none

/-- The contents of the first of some files that can be read. -/
def readFirst : List String → IO (Option ByteArray)
  | [] => return none
  | path :: rest => do
    match ← readBytes path with
    | some bytes => return some bytes
    | none => readFirst rest

/-- Some variables of the process. None of its variables has the character NUL in its name. -/
def processVariables (names : List String) : IO Variables := do
  let names := names.filter (fun name => !name.toList.contains '\x00')
  let values ← names.mapM (fun name => do return (name, ← IO.getEnv name))
  return fun name => (Dict.find name values).join

/-- A random identifier, with the bits set that mark it as one. -/
def randomUuid : IO Uuid := do
  let bytes ← IO.getRandomBytes 16
  let bits := bytes.toList.foldl (fun n b => n * 256 + b.toNat) 0
  let low := bits % (1 <<< 62)
  let middle := (bits >>> 64) % (1 <<< 12)
  let high := bits >>> 80
  return ⟨(high <<< 80) + (4 <<< 76) + (middle <<< 64) + (2 <<< 62) + low⟩

def freshMessage : IO Message := do
  let now ← Std.Time.Timestamp.now
  let nanos := now.toNanosecondsSinceUnixEpoch.val
  return {
    id := ← randomUuid
    createdAt := ⟨nanos.fdiv 1000000000, (nanos.fmod 1000000000).toNat⟩ }

def settingsVariables : List String :=
  [Settings.isolationVariable, Settings.encodingVariable, Settings.maxHopsVariable,
    Settings.maxVisitsVariable, Settings.maxFanOutDepthVariable, Settings.defaultLanguageVariable]

/-- Print what a failure says, and give its exit code. -/
def fail (f : Failure) : IO UInt32 := do
  IO.eprintln f.message
  return f.exitCode.toUInt32

end MessageFlow

open MessageFlow

def main (args : List String) : IO UInt32 := do
  let folder := (← IO.FS.realPath ".").toString
  let file ← readFirst (Variables.filePaths (Text.split '/' folder).reverse)
  let mentioned := Variables.mentioned (file.getD .empty)
  let process ← processVariables (settingsVariables ++ mentioned)
  match Invocation.prepare process file args with
  | .error f => fail f
  | .ok i =>
    let contents := (← readBytes i.command.file).bind String.fromUTF8?
    match i.perform contents (← freshMessage) with
    | .error f => fail f
    | .ok shown =>
      IO.println (shown.pretty 0)
      return 0
