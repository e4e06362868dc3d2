import MiniAbap.CommandLine

/-!
The executable: reads the file that the arguments name, if any, and prints the
response.
-/

namespace MiniAbap

/-- What an error says about the path. One error covers paths that end at a folder
    and paths that go through a file: only the first opens, and then fails without
    the name. -/
def FileFault.ofError : IO.Error → FileFault
  | .noFileOrDirectory .. => .missing
  | .permissionDenied .. => .denied
  | .inappropriateType none .. => .isFolder
  | .inappropriateType (some _) .. => .notFolder
  | .invalidArgument .. => .nameTooLong
  | error => .other (toString error)

def readProgram (name : Text) : IO (Except FileFault Text) := do
  try
    let bytes ← IO.FS.readBinFile (String.ofList name)
    match String.fromUTF8? bytes with
    | some text => return .ok text.toList
    | none => return .error .notText
  catch error => return .error (.ofError error)

open CommandLine in
def answer? (invocation : Invocation) : IO (Option Response) := do
  match invocation with
  | .run (.file name) _ =>
      let content ← readProgram name
      return invocation.respond? fun _ => content
  | _ => return invocation.respond? fun _ => .error .missing

end MiniAbap

open MiniAbap in
def main (arguments : List String) : IO UInt32 := do
  match CommandLine.read (arguments.map String.toList) with
  | none =>
      IO.eprintln "error: the arguments do not fit together"
      return CommandLine.usageExit.toUInt32
  | some invocation =>
      match ← answer? invocation with
      | none =>
          IO.eprintln "error: the run crashed"
          return CommandLine.crashExit.toUInt32
      | some response =>
          IO.print response.stdout
          IO.eprint response.stderr
          return response.exitCode.toUInt32
