import Honeycomb.Text.Words

/-!
# Command-line arguments

* `OptionRule` — how an option is written, how many values it takes and which.
* `Scan` — what has been read of the arguments; `Scan.step` reads the next one.
* `Arguments` — the options that were given, with their values, and the other arguments.
* `Arguments.read` — reads arguments under the rules of a command.
* `Arguments.option`, `Arguments.all`, `Arguments.positional` — typed values.

A value is the next argument, or stands behind an equals sign; behind a letter it can also
follow at once. Arguments that start with a dash are options, except a single dash and whatever
follows two dashes. The first fault from the left decides, and a value is judged where it stands;
what is missing or does not go together is found at the end.
-/

set_option autoImplicit false

namespace Honeycomb.CommandLine

/-- Why a command line is not carried out: it is wrong, or it asks about the program. -/
inductive Refusal where
  | misuse (reason : String)
  | helpAsked
  | versionAsked
deriving Repr, DecidableEq

/-- An option: its name and its letter, the number of values it takes each time, which texts are
values, whether it can be given again, and what it asks for instead of a command. -/
structure OptionRule where
  name : String
  letter : Option Char := none
  arity : Nat := 1
  accepts : String → Bool := fun _ => true
  isRepeatable : Bool := false
  asks : Option Refusal := none

/-- The options that were given, with their values, and the other arguments, all in order. -/
structure Arguments where
  options : List (String × List String) := []
  positionals : List String := []
deriving Repr, DecidableEq

/-! ## Reading the arguments -/

/-- What has been read: the arguments so far, an option that lacks values with those it has, and
whether two dashes were read. -/
structure Scan where
  arguments : Arguments := {}
  waiting : Option (OptionRule × List String) := none
  isLiteral : Bool := false

/-- A text is no value of an option or argument. -/
def invalidValue (name text : String) : Refusal :=
  .misuse ("invalid value '" ++ text ++ "' for '" ++ name ++ "'")

namespace Scan

/-- An option with all of its values. -/
def give (s : Scan) (rule : OptionRule) (values : List String) : Except Refusal Scan :=
  if values.length ≠ rule.arity then
    .error (.misuse ("the option '" ++ rule.name ++ "' has the wrong number of values"))
  else if let some text := values.find? (!rule.accepts ·) then
    .error (invalidValue rule.name text)
  else if !rule.isRepeatable && s.arguments.options.any (·.1 == rule.name) then
    .error (.misuse ("the option '" ++ rule.name ++ "' cannot be given twice"))
  else
    match rule.asks with
    | some refusal => .error refusal
    | none =>
      .ok { s with
        waiting := none
        arguments := { s.arguments with
          options := s.arguments.options ++ [(rule.name, values)] } }

/-- An option, and the value that is attached to it. -/
def giveOption (s : Scan) (rule : OptionRule) (attached : Option String) :
    Except Refusal Scan :=
  match attached with
  | some value => s.give rule [value]
  | none => if rule.arity = 0 then s.give rule [] else .ok { s with waiting := some (rule, []) }

/-- An option by its name, as in `name` or `name=value`. -/
def giveNamed (s : Scan) (rules : List OptionRule) (body : List Char) : Except Refusal Scan :=
  let name := String.ofList (body.takeWhile (· != '='))
  let attached : Option String :=
    match body.dropWhile (· != '=') with
    | [] => none
    | _ :: value => some (String.ofList value)
  match rules.find? (·.name == name) with
  | some rule => s.giveOption rule attached
  | none => .error (.misuse ("there is no option '" ++ name ++ "'"))

/-- Options by their letters. What follows the letter of an option with values is its value. -/
def giveLetters (s : Scan) (rules : List OptionRule) : List Char → Except Refusal Scan
  | [] => .ok s
  | c :: rest =>
    match rules.find? (·.letter == some c) with
    | none => .error (.misuse ("there is no option '" ++ c.toString ++ "'"))
    | some rule =>
      if rule.arity = 0 then
        match s.give rule [] with
        | .ok s => giveLetters s rules rest
        | .error e => .error e
      else
        match rest with
        | [] => s.giveOption rule none
        | '=' :: value => s.giveOption rule (some (String.ofList value))
        | value => s.giveOption rule (some (String.ofList value))

/-- A value of the option that waits for some, or the next positional argument, of which `places`
says what each accepts. -/
def giveWord (s : Scan) (places : List (String → Bool)) (word : String) : Except Refusal Scan :=
  match s.waiting with
  | some (rule, values) =>
    if values.length + 1 < rule.arity then
      .ok { s with waiting := some (rule, values ++ [word]) }
    else s.give rule (values ++ [word])
  | none =>
    match places[s.arguments.positionals.length]? with
    | none => .error (.misuse ("unexpected argument '" ++ word ++ "'"))
    | some accepts =>
      if accepts word then
        .ok { s with
          arguments := { s.arguments with positionals := s.arguments.positionals ++ [word] } }
      else .error (invalidValue "argument" word)

/-- No option may stand where a value is missing. -/
def closed (s : Scan) : Except Refusal Scan :=
  match s.waiting with
  | some (rule, _) => .error (.misuse ("the option '" ++ rule.name ++ "' lacks a value"))
  | none => .ok s

/-- Reads an argument. -/
def step (rules : List OptionRule) (places : List (String → Bool)) (s : Scan) (word : String) :
    Except Refusal Scan := do
  if s.isLiteral then s.giveWord places word
  else
    match word.toList with
    | ['-', '-'] => return { ← s.closed with isLiteral := true }
    | '-' :: '-' :: body => (← s.closed).giveNamed rules body
    | '-' :: c :: body => (← s.closed).giveLetters rules (c :: body)
    | _ => s.giveWord places word

end Scan

namespace Arguments

/-- Reads arguments: options under `rules`, and others for `places`. -/
def read (rules : List OptionRule) (places : List (String → Bool)) (words : List String) :
    Except Refusal Arguments := do
  let s ← words.foldlM (Scan.step rules places) {}
  return (← s.closed).arguments

/-! ## Typed values -/

variable {β : Type}

/-- Reads the value of an option. -/
def readValue (name : String) (decode : String → Option β) (text : String) :
    Except Refusal β :=
  match decode text with
  | some b => .ok b
  | none => .error (invalidValue name text)

/-- The values of all occurrences of an option. -/
def texts (a : Arguments) (name : String) : List String :=
  (a.options.filter (·.1 == name)).flatMap (·.2)

/-- The option was given. -/
def isGiven (a : Arguments) (name : String) : Bool :=
  a.options.any (·.1 == name)

/-- The value of an option that is given once at most. -/
def option (a : Arguments) (name : String) (decode : String → Option β) :
    Except Refusal (Option β) :=
  (a.texts name).head?.mapM (readValue name decode)

/-- The values of an option that can be given again. -/
def all (a : Arguments) (name : String) (decode : String → Option β) :
    Except Refusal (List β) :=
  (a.texts name).mapM (readValue name decode)

/-- The positional argument at an index. -/
def positional (a : Arguments) (i : Nat) (name : String) (decode : String → Option β) :
    Except Refusal β :=
  match a.positionals[i]? with
  | some text => readValue name decode text
  | none => .error (.misuse ("missing argument '" ++ name ++ "'"))

end Arguments

end Honeycomb.CommandLine
