import TexBundle.CommandLine.Run

/-!
# The program

Runs the command line on the files of the machine.
-/

namespace TexBundle

/-- The number and the description of an error of the machine. -/
def osError? : IO.Error → Option (Nat × String)
  | .otherError code d | .resourceBusy code d | .resourceVanished code d
  | .unsupportedOperation code d | .hardwareFault code d | .unsatisfiedConstraints code d
  | .illegalOperation code d | .protocolError code d | .timeExpired code d
  | .interrupted _ code d | .noFileOrDirectory _ code d | .invalidArgument _ code d
  | .permissionDenied _ code d | .resourceExhausted _ code d | .inappropriateType _ code d
  | .noSuchThing _ code d | .alreadyExists _ code d =>
    -- Some numbers come with a minus sign.
    some (min code.toNat (UInt32.size - code.toNat), d)
  | .unexpectedEof | .userError _ => none

/-- The error that a file operation of the machine ended with. -/
def FileError.ofIO (e : IO.Error) : FileError :=
  match osError? e with
  | some (2, _) => .notFound
  | some (17, _) => .exists
  | some (20, _) => .notDirectory
  | some (21, _) => .isDirectory
  | some (36, _) => .nameTooLong
  | some (n, description) =>
    .other (description.toList ++ " (os error " ++ Text.ofNat n ++ ")")
  | none => .other (toString e).toList

/-- What an action came to. -/
def attempt {α : Type} (act : IO α) : IO (Except FileError α) := do
  match ← act.toBaseIO with
  | .ok a => return .ok a
  | .error e => return .error (.ofIO e)

/-- What comes of reading one byte of a file. -/
def probe (path : Text) : IO (Except FileError Unit) :=
  attempt do
    let file ← IO.FS.Handle.mk (String.ofList path) .read
    discard (file.read 1)

/-- The file system of the machine. -/
def machine : FileSystem IO where
  read path := do
    return (← attempt (IO.FS.readBinFile (String.ofList path))).map (·.toList)
  write path bytes := attempt (IO.FS.writeBinFile (String.ofList path) ⟨bytes.toArray⟩)
  makeDirectory path := attempt (IO.FS.createDir (String.ofList path))
  isDirectory path := return (← probe path) matches .error .isDirectory
  isPresent path :=
    return !((← probe path) matches
      .error .notFound | .error .notDirectory | .error .nameTooLong)

def usage : String :=
  "usage: [--root DIR] [--config FILE] [-v] COMMAND\n" ++
  "commands: flatten DOC | references DOC | package DOC --out DIR | " ++
  "resolve DOC PATH [--output FILE]\n"

/-- Prints a report and gives its exit code. -/
def CommandLine.Report.print (r : CommandLine.Report) : IO UInt32 := do
  (← IO.getStdout).write ⟨(Utf8.encode r.stdout).toArray⟩
  (← IO.getStderr).write ⟨(Utf8.encode r.stderr).toArray⟩
  return r.exitCode

end TexBundle

def main (args : List String) : IO UInt32 := do
  match TexBundle.CommandLine.Invocation.ofArguments? (args.map String.toList) with
  | some i =>
    let result ← TexBundle.CommandLine.run TexBundle.machine i
    (TexBundle.CommandLine.Report.ofResult result).print
  | none =>
    (← IO.getStderr).putStr TexBundle.usage
    return 2
