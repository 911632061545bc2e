import Treasury.Api.Respond
import Treasury.CommandLine.Run
import Treasury.Json.Writer
import Treasury.Numeric.Decimal

/-!
# The program

Reads what a call needs from the outside, has it carried out, and prints what comes of it. Where the
call offers to answer requests, these come from standard input, one a line: the method, the path
and, if there is one, the body.
-/

namespace Treasury

open Numeric (Binary64)

/-- The texts of the environment that count. -/
def readEnvironment : IO Environment :=
  Environment.names.filterMapM fun name => do
    return (← IO.getEnv name).map (name, ·)

/-- The contents of a file, or why it is not read. -/
def readContents (path : String) : IO (Except CommandLine.FileFault ByteArray) := do
  if path.contains '\x00' then return .error .nullCharacter
  try
    return .ok (← IO.FS.readBinFile path)
  catch
    | .noFileOrDirectory .. => return .error .missing
    | .inappropriateType .. => return .error .folder
    | _ => return .error .refused

/-- The contents of the files that a call reads. -/
def readFiles (args : List String) : IO CommandLine.Files := do
  let paths := match CommandLine.Invocation.ofArguments args with
    | .ok i => i.files
    | .error _ => []
  let contents ← paths.mapM fun path => do return (path, ← readContents path)
  return fun path => (contents.lookup path).getD (.error .missing)

/-- A number that cannot be foretold. -/
def readEntropy : IO Int := do
  return (← IO.getRandomBytes 8).foldl (fun n b => 256 * n + b.toNat) 0

/-- The time in seconds. -/
def readClock : IO Binary64 := return .ofRatio false (← IO.monoMsNow) 1000

/-- A request written on a line. -/
def requestOf (line : String) : Api.Request :=
  let word (cs : List Char) : List Char := cs.takeWhile (· ≠ ' ')
  let method := word line.toList
  let rest := line.toList.drop (method.length + 1)
  let path := word rest
  { method := .ofList method, path := .ofList path
    body := (String.ofList (rest.drop (path.length + 1))).toUTF8 }

/-- The answer to a request as a line. -/
def responseLine (answer : Except Api.Failure Api.Response) : String :=
  match answer with
  | .ok r => s!"{r.status} " ++ Json.write Binary64.decimal r.body
  | .error _ => "500"

/-- Answers requests until there are no more. -/
def answerRequests (store : Store) : IO Unit := do
  let input ← IO.getStdin
  let mut store := store
  repeat
    let line ← input.getLine
    if line.isEmpty then break
    let request := requestOf (line.trimAsciiEnd.toString)
    let (answer, after) := Api.respond { store with now := ← readClock } request
    IO.println (responseLine answer)
    store := after

end Treasury

open Treasury in
/-- Carries out a call of the program. -/
def main (args : List String) : IO UInt32 := do
  let ran := CommandLine.run (← readEnvironment) (← readEntropy) (← readFiles args) args
  IO.print ran.text
  match ran.ending with
  | .done =>
    if let some service := ran.served then answerRequests service.store
    return 0
  | .exited code =>
    if code = 2 then IO.eprintln ("usage: " ++ CommandLine.programHelp.usage)
    return code.toUInt32
  | .failed failure =>
    IO.eprintln failure.message
    return 1
