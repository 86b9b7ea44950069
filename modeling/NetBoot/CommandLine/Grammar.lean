import NetBoot.Text.Basic

namespace NetBoot

inductive ArgumentError where
  | unknownArgument
  | unknownCommand
  | invalidValue
  | unreadableValue
  | repeatedArgument
  | unexpectedValue
  | missingArgument
  | helpRequested
  | versionRequested
  | noArguments
  deriving DecidableEq, Repr

namespace ArgumentError

def exitCode : ArgumentError → Nat
  | .helpRequested | .versionRequested => 0
  | _ => 2

end ArgumentError

namespace CommandLine

inductive OptionRole where
  | help
  | version
  | flag
  | value
  | list
  deriving DecidableEq, Repr

structure OptionSpec where
  name : Text
  letter : Option Char := none
  role : OptionRole
  variableName : Option Text := none
  check : Text → Except ArgumentError Unit := fun _ => .ok ()

namespace OptionSpec

def takesValue (o : OptionSpec) : Bool := o.role = .value || o.role = .list

end OptionSpec

structure Grammar where
  options : List OptionSpec
  operand : Option OptionSpec := none

abbrev Values := List (Text × List Text)

namespace Values

def get? (name : Text) (vs : Values) : Option (List Text) := List.lookup name vs

def first? (name : Text) (vs : Values) : Option Text := (get? name vs).bind List.head?

def has (name : Text) (vs : Values) : Bool := (get? name vs).isSome

def append (name : Text) (values : List Text) (vs : Values) : Values :=
  (name, (get? name vs).getD [] ++ values) :: vs.filter fun p => p.1 ≠ name

end Values

structure Reading where
  values : Values := []
  pending : Option (OptionSpec × List Text) := none
  awaitsValue : Bool := false
  hasOperand : Bool := false
  onlyOperands : Bool := false

namespace Reading

def checkAll (o : OptionSpec) : List Text → Except ArgumentError Unit
  | [] => .ok ()
  | t :: ts =>
      match o.check t with
      | .error e => .error e
      | .ok _ => checkAll o ts

def accept (o : OptionSpec) (values : List Text) (r : Reading) : Except ArgumentError Reading :=
  let values := if o.role = .list then values.flatMap (Text.splitAll ',') else values
  if o.role ≠ .list ∧ r.values.has o.name then .error .repeatedArgument
  else (checkAll o values).map fun _ => { r with values := r.values.append o.name values }

def settle (r : Reading) : Except ArgumentError Reading :=
  match r.pending with
  | none => .ok { r with awaitsValue := false }
  | some (_, []) => .error .invalidValue
  | some (o, values) => accept o values { r with pending := none, awaitsValue := false }

def signal (o : OptionSpec) (r : Reading) : Except ArgumentError Reading := do
  let r ← settle r
  match o.role with
  | .help => .error .helpRequested
  | .version => .error .versionRequested
  | _ => accept o [[]] r

def attach (o : OptionSpec) (value : Text) (r : Reading) : Except ArgumentError Reading := do
  accept o [value] (← settle r)

def await (o : OptionSpec) (r : Reading) : Except ArgumentError Reading := do
  let r ← settle r
  return { r with pending := some (o, []), awaitsValue := true }

def readLong (g : Grammar) (t : Text) (r : Reading) : Except ArgumentError Reading :=
  let (name, value) :=
    match Text.splitOnce '=' t with
    | some (name, value) => (name, some value)
    | none => (t, none)
  match g.options.find? fun o => o.name = name, value with
  | none, _ => .error .unknownArgument
  | some o, some value => if o.takesValue then attach o value r else .error .unexpectedValue
  | some o, none => if o.takesValue then await o r else signal o r

def attachedValue (t : Text) : Text :=
  match t with
  | '=' :: rest => rest
  | _ => t

def readLetters (g : Grammar) : Text → Reading → Except ArgumentError Reading
  | [], r => .ok r
  | c :: rest, r =>
      match g.options.find? fun o => o.letter = some c with
      | none => .error .unknownArgument
      | some o =>
          if o.takesValue then
            if rest = [] then await o r else attach o (attachedValue rest) r
          else
            match signal o r with
            | .error e => .error e
            | .ok r => readLetters g rest r

def readOperand (g : Grammar) (t : Text) (r : Reading) : Except ArgumentError Reading :=
  match g.operand with
  | none => .error .unknownArgument
  | some o =>
      if r.hasOperand then .error .unknownArgument
      else do
        let r ← settle r
        return { r with pending := some (o, [t]), hasOperand := true }

def readPlain (g : Grammar) (t : Text) (r : Reading) : Except ArgumentError Reading :=
  match r.awaitsValue, r.pending with
  | true, some (o, values) =>
      .ok { r with pending := some (o, values ++ [t]), awaitsValue := false }
  | _, _ => readOperand g t r

def readArgument (g : Grammar) (t : Text) (r : Reading) : Except ArgumentError Reading :=
  if r.onlyOperands then readOperand g t r
  else
    match t with
    | ['-', '-'] => .ok { r with onlyOperands := true }
    | '-' :: '-' :: rest => readLong g rest r
    | '-' :: c :: rest => readLetters g (c :: rest) r
    | _ => readPlain g t r

def readVariables (environment : Text → Option Text) :
    List OptionSpec → Reading → Except ArgumentError Reading
  | [], r => .ok r
  | o :: rest, r =>
      match o.variableName.bind environment with
      | some value =>
          if r.values.has o.name then readVariables environment rest r
          else
            match accept o [value] r with
            | .error e => .error e
            | .ok r => readVariables environment rest r
      | none => readVariables environment rest r

end Reading

namespace Grammar

def read (g : Grammar) (environment : Text → Option Text) (arguments : List Text) :
    Except ArgumentError Values := do
  let r ← arguments.foldlM (fun r t => Reading.readArgument g t r) {}
  let r ← r.settle
  let r ← Reading.readVariables environment g.options r
  match g.operand with
  | some o => if r.values.has o.name then return r.values else throw .missingArgument
  | none => return r.values

end Grammar

end CommandLine

end NetBoot
