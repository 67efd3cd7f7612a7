import AuditTables.Decimal.Integer
import AuditTables.Text.Machine

/-!
# `AuditTables.CommandLine.Arguments`: what a command line asks for

A command line names a command, whose options may stand anywhere after it, and
its operands. The logging level may be given before the command or among its
options. An argument that begins with a dash is an option unless it is a lone
dash or stands after a double dash. No option may be given twice in one place,
and the value of an option may not look like an option itself. The word `help` in
the place of a command asks for a description, of all commands or of the one that
is named after it.
-/

set_option autoImplicit false

namespace AuditTables.CommandLine

open AuditTables.Text

/-- A command with its operands. -/
inductive Command where
  /-- Attach the sources and export rows until told to stop. -/
  | run (console : Bool)
  /-- Export the rows of a file of records, perhaps of one table only. -/
  | replay (file : String) (table : Option String)
  /-- List the tables and their columns. -/
  | tables
  /-- Print the fingerprint of a flow. -/
  | communityId (source destination : String) (sourcePort destinationPort protocol : Int)
  deriving DecidableEq, Repr

/-- A command whose arguments are being read. -/
inductive Verb where
  | run
  | replay
  | tables
  | communityId
  deriving DecidableEq, Repr

/-- The command of a name. -/
def Verb.ofName (name : String) : Option Verb :=
  if name = "run" then some .run
  else if name = "replay" then some .replay
  else if name = "tables" then some .tables
  else if name = "community-id" then some .communityId
  else none

/-- The word that asks for a description in the place of a command. -/
def helpWord : String := "help"

/-- Whether an argument is an option. -/
def isOption (argument : String) : Bool :=
  argument.toList.head? == some '-' && argument != "-"

/-- An argument `--name=value` in its two parts. -/
def splitOption (argument : String) : String × Option String :=
  let cs := argument.toList
  let name := cs.takeWhile (· != '=')
  match cs.drop name.length with
  | '=' :: value => (String.ofList name, some (String.ofList value))
  | _ => (argument, none)

/-- Whether an argument asks for a description. -/
def asksHelp (argument : String) : Bool :=
  argument == "--help" || ['-', 'h'].isPrefixOf argument.toList

/-- The options that take a value. -/
def Verb.valueOptions : Verb → List String
  | .replay => ["--log-level", "--table"]
  | _ => ["--log-level"]

/-- The options that take none. -/
def Verb.flags : Verb → List String
  | .run => ["--console"]
  | _ => []

/-- How an operand of a command may be written. -/
inductive OperandForm where
  | text
  | nonEmpty
  | number
  deriving DecidableEq, Repr

/-- The operands of a command, in order. -/
def Verb.operands : Verb → List OperandForm
  | .run => []
  | .replay => [.nonEmpty]
  | .tables => []
  | .communityId => [.text, .text, .number, .number, .number]

/-- Whether a text has the form of an operand. -/
def OperandForm.allows (form : OperandForm) (operand : String) : Bool :=
  match form with
  | .text => true
  | .nonEmpty => operand != ""
  | .number => (Decimal.readInt64 10 operand.toList).isSome

/-- The arguments of a command read so far: the options, by name, the operands,
latest first, the option whose value is to come, and whether a double dash was
read. -/
structure Given where
  options : List (String × String)
  operands : List String
  pending : Option String
  literal : Bool
  deriving DecidableEq, Repr

/-- Why a command line is not a command. -/
inductive Refusal where
  /-- It asks for a description. -/
  | help
  | wrong
  deriving DecidableEq, Repr

namespace Given

/-- No arguments. -/
def empty : Given := ⟨[], [], none, false⟩

/-- An option added, unless it is there. -/
def addOption (g : Given) (name value : String) : Except Refusal Given :=
  if (g.options.lookup name).isSome then .error .wrong
  else .ok { g with options := (name, value) :: g.options, pending := none }

/-- An operand added, if the command takes it. -/
def addOperand (g : Given) (verb : Verb) (operand : String) : Except Refusal Given :=
  match verb.operands[g.operands.length]? with
  | some form =>
    if form.allows operand then .ok { g with operands := operand :: g.operands } else .error .wrong
  | none => .error .wrong

/-- An option as it stands on the command line. -/
def readOption (g : Given) (verb : Verb) (argument : String) : Except Refusal Given :=
  let (name, value) := splitOption argument
  if verb.flags.contains name ∧ value.isNone then g.addOption name ""
  else if verb.valueOptions.contains name then
    match value with
    | some v => g.addOption name v
    | none => .ok { g with pending := some name }
  else .error .wrong

/-- One argument. -/
def step (g : Given) (verb : Verb) (argument : String) : Except Refusal Given :=
  match g.pending with
  | some name => if isOption argument then .error .wrong else g.addOption name argument
  | none =>
    if g.literal ∨ ¬ isOption argument then g.addOperand verb argument
    else if argument = "--" then .ok { g with literal := true }
    else if asksHelp argument then .error .help
    else g.readOption verb argument

/-- The number of an operand whose form has been checked. -/
def numberOf (operand : String) : Int := (Decimal.readInt64 10 operand.toList).getD 0

/-- The command that arguments make. -/
def toCommand (g : Given) (verb : Verb) : Option Command :=
  match verb, g.operands.reverse with
  | .run, _ => some (.run (g.options.lookup "--console").isSome)
  | .replay, [file] => some (.replay file (g.options.lookup "--table"))
  | .tables, _ => some .tables
  | .communityId, [a, b, p, q, r] =>
    some (.communityId a b (numberOf p) (numberOf q) (numberOf r))
  | _, _ => none

/-- The command when the arguments end here. -/
def finish (g : Given) (verb : Verb) : Except Refusal Command :=
  match g.pending, g.toCommand verb with
  | none, some c => .ok c
  | _, _ => .error .wrong

end Given

/-- How far a command line has been read. -/
inductive Progress where
  /-- No command yet: whether the logging level was given, and whether its value
  is to come. -/
  | top (leveled pending : Bool)
  /-- No command, and a double dash, after which there can be none. -/
  | closed
  /-- A description is asked for, and perhaps its subject was named. -/
  | asking (named : Bool)
  | inside (verb : Verb) (g : Given)
  deriving DecidableEq, Repr

namespace Progress

/-- An argument before the command. -/
def stepTop (leveled : Bool) (argument : String) : Except Refusal Progress :=
  if ¬ isOption argument then
    match Verb.ofName argument with
    | some verb => .ok (.inside verb Given.empty)
    | none => if argument = helpWord then .ok (.asking false) else .error .wrong
  else if argument = "--" then .ok .closed
  else if asksHelp argument then .error .help
  else
    let (name, value) := splitOption argument
    if name ≠ "--log-level" ∨ leveled then .error .wrong
    else .ok (.top true value.isNone)

/-- One argument. -/
def step (p : Progress) (argument : String) : Except Refusal Progress :=
  match p with
  | top leveled true => if isOption argument then .error .wrong else .ok (.top leveled false)
  | top leveled false => stepTop leveled argument
  | closed => .error .wrong
  | asking named =>
    if !named && ((Verb.ofName argument).isSome || argument == helpWord) then .ok (.asking true)
    else .error .wrong
  | inside verb g => (g.step verb argument).map (.inside verb)

/-- The command when the command line ends here. Without a command it is to
run. -/
def finish : Progress → Except Refusal Command
  | top _ true => .error .wrong
  | top _ false => .ok (.run false)
  | closed => .ok (.run false)
  | asking _ => .error .help
  | inside verb g => g.finish verb

/-- The reader of command lines as a machine over arguments. -/
def machine : Machine String Progress Refusal Command := ⟨step, finish⟩

end Progress

/-- The command that a command line is, or why it is none. -/
def readArguments (arguments : List String) : Except Refusal Command :=
  Progress.machine.run (.top false false) arguments

end AuditTables.CommandLine
