import MiniAbap.Statement
import MiniAbap.Text.Occurrence

/-!
The text of a declaration, in one of two shapes:

  name TYPE type [LENGTH n] [DECIMALS n] [VALUE expression]
  name TYPE [STANDARD] TABLE OF type [VALUE table]

Words are separated by white space and keywords may be in any case. VALUE is a
keyword only after TYPE, so a variable may have that name.
-/

namespace MiniAbap

inductive Parameter where
  | length
  | decimals
  deriving DecidableEq

inductive DeclarationFault where
  | nothingDeclared
  | invalidName (name : Text)
  | missingTypeWord
  | missingValue
  | missingTypeName
  | invalidTypeName (typeName : Text)
  | notTableOf
  | unknownParameters (words : List Text)
  | givenTwice (parameter : Parameter)
  | missingAmount (parameter : Parameter)
  deriving DecidableEq

structure MalformedDeclaration where
  text : Text
  fault : DeclarationFault
  deriving DecidableEq

def Parameter.title : Parameter → String
  | .length => "LENGTH"
  | .decimals => "DECIMALS"

def Parameter.ofText? (word : Text) : Option Parameter :=
  [Parameter.length, .decimals].find? fun p => Text.sameWord p.title.toList word

def DeclarationFault.reason : DeclarationFault → String
  | .nothingDeclared => "DATA requires at least one declaration"
  | .invalidName name => s!"\"{String.ofList name}\" is not a valid name"
  | .missingTypeWord => "expected TYPE after the variable name"
  | .missingValue => "VALUE requires an expression"
  | .missingTypeName => "missing type name after TYPE"
  | .invalidTypeName typeName => s!"\"{String.ofList typeName}\" is not a type name"
  | .notTableOf => "expected TABLE OF <type>"
  | .unknownParameters words =>
      let shown := String.ofList (List.intercalate [' '] words)
      s!"unrecognized parameters \"{shown}\""
  | .givenTwice parameter => s!"{parameter.title} given twice"
  | .missingAmount parameter => s!"{parameter.title} requires a whole number"

def MalformedDeclaration.message (error : MalformedDeclaration) : String :=
  let text := String.ofList error.text
  s!"Malformed declaration \"{text}\": {error.fault.reason}."

namespace Declaration

def largestAmount : Nat := 4294967295

def amount? (word : Text) : Option Nat :=
  if Text.isDigits word && Text.digitsValue word ≤ largestAmount then
    some (Text.digitsValue word)
  else none

structure Parameters where
  length : Option Nat := none
  decimals : Option Nat := none

def Parameters.get (given : Parameters) : Parameter → Option Nat
  | .length => given.length
  | .decimals => given.decimals

def Parameters.set (given : Parameters) (parameter : Parameter) (amount : Nat) :
    Parameters :=
  match parameter with
  | .length => { given with length := some amount }
  | .decimals => { given with decimals := some amount }

def readParameters : Parameters → List Text → Except DeclarationFault Parameters
  | given, [] => .ok given
  | given, word :: rest =>
      match Parameter.ofText? word with
      | none => .error (.unknownParameters (word :: rest))
      | some parameter =>
          if (given.get parameter).isSome then .error (.givenTwice parameter)
          else
            match rest with
            | [] => .error (.missingAmount parameter)
            | amount :: rest =>
                match amount? amount with
                | none => .error (.missingAmount parameter)
                | some n => readParameters (given.set parameter n) rest

def readTable (words : List Text) : Except DeclarationFault TypeClause :=
  let words :=
    if words.head?.any (Text.sameWord "STANDARD".toList) then words.tail else words
  match words with
  | [table, ofWord, rowType] =>
      if Text.sameWord table "TABLE".toList && Text.sameWord ofWord "OF".toList
          && Text.isName rowType then
        .ok (.table rowType)
      else .error .notTableOf
  | _ => .error .notTableOf

def readType : List Text → Except DeclarationFault TypeClause
  | [] => .error .missingTypeName
  | first :: rest =>
      if Text.sameWord first "STANDARD".toList || Text.sameWord first "TABLE".toList then
        readTable (first :: rest)
      else if Text.isName first then
        (readParameters {} rest).map fun given =>
          .field first given.length given.decimals
      else .error (.invalidTypeName first)

def splitValue (clause : Text) : Except DeclarationFault (Text × Option Text) :=
  match Text.splitAtFirst "VALUE".toList clause with
  | none => .ok (clause, none)
  | some (type, value) =>
      if value.isEmpty then .error .missingValue else .ok (type, some value)

def readShape (text : Text) : Except DeclarationFault Declaration :=
  let (name, afterName) := Text.firstWord text
  let (typeWord, clause) := Text.firstWord afterName
  if !Text.isName name then .error (.invalidName name)
  else if !Text.sameWord typeWord "TYPE".toList then .error .missingTypeWord
  else
    match splitValue clause with
    | .error fault => .error fault
    | .ok (type, value) => (readType (Text.words type)).map fun type => ⟨name, type, value⟩

def read (text : Text) : Except MalformedDeclaration Declaration :=
  match readShape text with
  | .ok declaration => .ok declaration
  | .error fault => .error ⟨text, fault⟩

def readAll : List Text → Except MalformedDeclaration (List Declaration)
  | [] => .ok []
  | text :: rest =>
      match read text with
      | .error error => .error error
      | .ok declaration => (readAll rest).map (declaration :: ·)

end Declaration

end MiniAbap
