/-
This file reads the arguments of the command line. An argument is an option, the value of the
option before it, or an operand; everything behind `--` is an operand. Options may carry their
value in the same argument, `--name=value`, `-nvalue` or `-n=value`.
-/

namespace Codebook.CommandLine

/-- Why arguments are not a command. -/
inductive Refusal
  /-- They ask for the help text or the version. -/
  | information
  | usage
deriving DecidableEq, Repr

/-- An option of a command. Without a short form there is no letter. -/
structure OptionRule where
  name : String
  letter : Option Char
  takesValue : Bool
deriving DecidableEq, Repr

/-- What a command accepts besides the request for help. -/
structure Rules where
  options : List OptionRule
  /-- The number of operands, if it is limited. -/
  operandLimit : Option Nat
  /-- Whether a text will do as an operand. -/
  accepts : String → Bool

/-- The arguments of a command, sorted. A flag is an option with an empty value. -/
structure Arguments where
  options : List (String × String)
  operands : List String
deriving DecidableEq, Repr

namespace Arguments

def value? (arguments : Arguments) (name : String) : Option String :=
  (arguments.options.find? fun option => option.1 == name).map (·.2)

/-- Adds an option. None may be given twice, and no value may be empty. -/
def addOption (rule : OptionRule) (value : String) (arguments : Arguments) :
    Except Refusal Arguments :=
  if (arguments.value? rule.name).isSome ∨ (rule.takesValue ∧ value.isEmpty) then .error .usage
  else .ok { arguments with options := arguments.options ++ [(rule.name, value)] }

def addOperand (rules : Rules) (operand : String) (arguments : Arguments) :
    Except Refusal Arguments :=
  if rules.operandLimit.any (· ≤ arguments.operands.length) ∨ !rules.accepts operand then
    .error .usage
  else .ok { arguments with operands := arguments.operands ++ [operand] }

end Arguments

/-- What an argument turns out to be. -/
inductive Reading
  | operand
  | onlyOperandsFollow
  | option (rule : OptionRule) (value : Option (List Char))
deriving Repr

/-- Splits what follows the name of an option into the name and the value behind a `=`. -/
def splitValue (text : List Char) : List Char × Option (List Char) :=
  match text.dropWhile (· != '=') with
  | [] => (text, none)
  | _ :: value => (text.takeWhile (· != '='), some value)

/-- Reads an argument by itself. A lone `-` is an operand. -/
def classify (rules : Rules) (argument : List Char) : Except Refusal Reading :=
  match argument with
  | ['-', '-'] => .ok .onlyOperandsFollow
  | '-' :: '-' :: text =>
    let (name, value?) := splitValue text
    if name = "help".toList ∧ value? = none then .error .information
    else match rules.options.find? fun rule => rule.name.toList == name with
      | some rule => .ok (.option rule value?)
      | none => .error .usage
  | '-' :: letter :: rest =>
    if letter = 'h' then .error .information
    else match rules.options.find? fun rule => rule.letter == some letter with
      | some rule =>
        .ok (.option rule (match rest with
          | [] => none
          | '=' :: value => some value
          | value => some value))
      | none => .error .usage
  | _ => .ok .operand

/-- Sorts the arguments behind the name of a command. `pending` is an option that still lacks its
value; only an argument that could be an operand can give it one. -/
def sort (rules : Rules) (pending : Option OptionRule) (sorted : Arguments) :
    List String → Except Refusal Arguments
  | [] => if pending.isSome then .error .usage else .ok sorted
  | argument :: rest => do
    match ← (if pending.isSome then (classify rules argument.toList).mapError fun _ => .usage
        else classify rules argument.toList), pending with
    | .operand, some rule => sort rules none (← sorted.addOption rule argument) rest
    | .operand, none => sort rules none (← sorted.addOperand rules argument) rest
    | _, some _ => throw .usage
    | .onlyOperandsFollow, none =>
      rest.foldlM (fun sorted operand => sorted.addOperand rules operand) sorted
    | .option rule value?, none =>
      match rule.takesValue, value? with
      | false, none => sort rules none (← sorted.addOption rule "") rest
      | false, some _ => throw .usage
      | true, none => sort rules (some rule) sorted rest
      | true, some value => sort rules none (← sorted.addOption rule (String.ofList value)) rest

end Codebook.CommandLine
