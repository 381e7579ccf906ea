import Tanpopo.Lib.Go
/-!
# Arguments of the runtimes

A startup command carries arguments for the runtime. Some of them are managed by
the server, which removes what a user wrote for them.
-/

namespace Tanpopo.Models

open Go

def isArgument (argument name : String) : Bool := argument = name || hasPrefix argument (name ++ "=")

def hasAnyArgument (arguments expected : List String) : Bool :=
  arguments.any fun raw => expected.any (isArgument (trimSpace raw))

/-- Leave out these arguments with their values. -/
def withoutNamed (names : List String) : List String → List String
  | [] => []
  | [raw] => if names.any (isArgument (trimSpace raw)) then [] else [raw]
  | raw :: value :: rest =>
    if names.contains (trimSpace raw) then withoutNamed names rest
    else if names.any (isArgument (trimSpace raw)) then withoutNamed names (value :: rest)
    else raw :: withoutNamed names (value :: rest)

def withoutDraftModelArguments (arguments : List String) : List String :=
  withoutNamed ["--model-draft", "--dflash-draft", "--mtp-draft"] arguments

def withoutDFlashSpecType (value : String) : String :=
  join (((split value ',').map trimSpace).filter fun item => item ≠ "" && !equalFold item "draft-dflash") ','

def dflashArguments : List String := ["--model-draft", "--dflash-draft", "--dflash-block-size"]

def specType (value : String) : List String :=
  if withoutDFlashSpecType value = "" then [] else ["--spec-type", withoutDFlashSpecType value]

/-- `--spec-type` stays with the types other than `draft-dflash`. -/
def withoutDFlashArguments : List String → List String
  | [] => []
  | [raw] =>
    let argument := trimSpace raw
    if argument = "--spec-type" ∨ dflashArguments.any (isArgument argument) then []
    else if hasPrefix argument "--spec-type=" then
      let value := withoutDFlashSpecType (trimPrefix argument "--spec-type=")
      if value = "" then [] else ["--spec-type=" ++ value]
    else [raw]
  | raw :: value :: rest =>
    let argument := trimSpace raw
    if dflashArguments.contains argument then withoutDFlashArguments rest
    else if argument = "--spec-type" then specType value ++ withoutDFlashArguments rest
    else if dflashArguments.any (isArgument argument) then withoutDFlashArguments (value :: rest)
    else if hasPrefix argument "--spec-type=" then
      let value' := withoutDFlashSpecType (trimPrefix argument "--spec-type=")
      (if value' = "" then [] else ["--spec-type=" ++ value']) ++ withoutDFlashArguments (value :: rest)
    else raw :: withoutDFlashArguments (value :: rest)

def withoutSpeculativeDecodingArguments (arguments : List String) : List String :=
  withoutNamed ["--mtp-block-size"] (withoutDraftModelArguments (withoutDFlashArguments arguments))

def setManagedIntegerArgument (arguments : List String) (name : String) (value : Nat) : List String :=
  withoutNamed [name] arguments ++ [name, toString value]

/-- The first positive value of an argument. -/
def positiveArgument (name : String) : List String → Option Int
  | [] => none
  | raw :: rest =>
    let argument := trimSpace raw
    let inline :=
      if hasPrefix argument (name ++ "=") then atoi (trimSpace (trimPrefix argument (name ++ "="))) else 0
    let next := if argument = name then (rest.head?.map fun value => atoi (trimSpace value)).getD 0 else 0
    if 0 < inline then some inline else if 0 < next then some next else positiveArgument name rest

end Tanpopo.Models
