import MiniAbap.Program

/-!
The command line. It names a program, by its text or by a file, or asks for the
demo program, and may limit the loop passes. Options and the program may stand
in any order, short options may be written together, and nothing may be given
twice. Arguments take effect from left to right, so asking for the version hides
what is wrong with later arguments but not with earlier ones.
-/

namespace MiniAbap

inductive FileFault where
  | missing
  | denied
  | notFolder
  | isFolder
  | nameTooLong
  | notText
  | other (reason : String)
  deriving DecidableEq

def FileFault.reason : FileFault → String
  | .missing => "No such file or directory (os error 2)"
  | .denied => "Permission denied (os error 13)"
  | .notFolder => "Not a directory (os error 20)"
  | .isFolder => "Is a directory (os error 21)"
  | .nameTooLong => "File name too long (os error 36)"
  | .notText => "stream did not contain valid UTF-8"
  | .other reason => reason

namespace CommandLine

inductive Input where
  | demo
  | inline (program : Text)
  | file (name : Text)
  deriving DecidableEq

inductive Invocation where
  | version
  | run (input : Input) (limit : Nat)
  deriving DecidableEq

structure Options where
  file : Bool := false
  demo : Bool := false
  limit : Option Nat := none
  contents : Option Text := none
  deriving DecidableEq

def largestLimit : Nat := 18446744073709551615

def readLimit? (text : Text) : Option Nat :=
  let digits := match text with
    | '+' :: rest => rest
    | rest => rest
  if !digits.isEmpty && Text.isDigits digits && Text.digitsValue digits ≤ largestLimit then
    some (Text.digitsValue digits)
  else none

namespace Options

def setFile (options : Options) : Option Options :=
  if options.file then none else some { options with file := true }

def setDemo (options : Options) : Option Options :=
  if options.demo then none else some { options with demo := true }

def setLimit (options : Options) (text : Text) : Option Options :=
  if options.limit.isSome then none
  else (readLimit? text).map fun limit => { options with limit := some limit }

def setContents (options : Options) (text : Text) : Option Options :=
  if options.contents.isSome then none else some { options with contents := some text }

def setAllContents : Options → List Text → Option Options
  | options, [] => some options
  | options, text :: rest => (options.setContents text).bind (setAllContents · rest)

def invocation? (options : Options) : Option Invocation :=
  let limit := options.limit.getD Program.defaultLimit
  match options.demo, options.contents with
  | true, none => if options.file then none else some (.run .demo limit)
  | true, some _ => none
  | false, none => none
  | false, some text =>
      some (.run (if options.file then .file text else .inline text) limit)

end Options

inductive Progress where
  | options (options : Options)
  | awaitLimit (options : Options)
  | version

/-- A cluster of one-letter options. The limit takes what follows it in the
    cluster, after an optional equals sign, or else the next argument. -/
def readShort : Options → Text → Option Progress
  | options, [] => some (.options options)
  | options, 'f' :: rest => options.setFile.bind (readShort · rest)
  | options, 'd' :: rest => options.setDemo.bind (readShort · rest)
  | _, 'V' :: _ => some .version
  | options, ['m'] => some (.awaitLimit options)
  | options, 'm' :: '=' :: value => (options.setLimit value).map .options
  | options, 'm' :: value => (options.setLimit value).map .options
  | _, _ => none

def readLong (options : Options) (text : Text) : Option Progress :=
  match Text.splitFirst (· == '=') text with
  | some (name, value) =>
      if name = "max-iterations".toList then (options.setLimit value).map .options else none
  | none =>
      if text = "file".toList then options.setFile.map .options
      else if text = "demo".toList then options.setDemo.map .options
      else if text = "version".toList then some .version
      else if text = "max-iterations".toList then some (.awaitLimit options)
      else none

/-- A single hyphen and the empty text are programs like any other text. -/
def readArgument (options : Options) : Text → Option Progress
  | '-' :: '-' :: name => readLong options name
  | '-' :: c :: rest => readShort options (c :: rest)
  | text => (options.setContents text).map .options

def looksLikeOption : Text → Bool
  | '-' :: _ :: _ => true
  | _ => false

def readFrom : Options → List Text → Option Invocation
  | options, [] => options.invocation?
  | options, argument :: rest =>
      if argument = "--".toList then
        (options.setAllContents rest).bind Options.invocation?
      else
        match readArgument options argument with
        | none => none
        | some .version => some .version
        | some (.options next) => readFrom next rest
        | some (.awaitLimit next) =>
            match rest with
            | [] => none
            | value :: rest =>
                if looksLikeOption value then none
                else
                  match next.setLimit value with
                  | none => none
                  | some next => readFrom next rest

def read (arguments : List Text) : Option Invocation :=
  readFrom {} arguments

structure Response where
  exitCode : Nat
  stdout : String := ""
  stderr : String := ""

def Response.ofReport (report : Report) : Response :=
  let output := String.ofList report.output
  { exitCode := if report.isClean then 0 else 1
    stdout := if report.output.isEmpty then "" else output ++ "\n"
    stderr := String.join (report.diagnostics.map (· ++ "\n")) }

def Input.load (fetch : Text → Except FileFault Text) : Input → Except String Text
  | .demo => .ok Program.demo
  | .inline program => .ok program
  | .file name =>
      match fetch name with
      | .ok program => .ok program
      | .error fault =>
          let shown := String.ofList name
          .error s!"Failed to read the input file '{shown}': {fault.reason}\n"

/-- Nothing is left to print for a program whose run crashes. -/
def Invocation.respond? (fetch : Text → Except FileFault Text) : Invocation → Option Response
  | .version => some { exitCode := 0, stdout := "abapi 0.1.0\n" }
  | .run input limit =>
      match input.load fetch with
      | .error message => some { exitCode := 1, stderr := message }
      | .ok program => (Program.run limit program).map .ofReport

def usageExit : Nat := 2

def crashExit : Nat := 101

end CommandLine

end MiniAbap
