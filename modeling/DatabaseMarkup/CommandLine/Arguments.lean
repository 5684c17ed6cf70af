import DatabaseMarkup.Settings.Merge

/-!
# Arguments

`Request.ofArguments?` reads the arguments of the command line: the path of the input and, in
any order, options.  An option that takes a value has it after an equals sign or as the next
argument.  `-o` may also be followed by its value directly.  There is no request when an
argument is unknown, is given twice, lacks its value or has a wrong one, or when the input is
missing.
-/

namespace DatabaseMarkup

/-- What a run of the program is to do. -/
structure Invocation where
  input : String
  output : Option String
  compact : Bool
  mergePolicy : MergePolicy
  strict : Bool
  deriving DecidableEq, Repr

/-- What the arguments ask for. -/
inductive Request where
  | run (invocation : Invocation)
  | showVersion
  | showHelp
  deriving DecidableEq, Repr

/-- The arguments that have been read so far. -/
structure GivenArguments where
  input : Option String := none
  output : Option String := none
  mergePolicy : Option MergePolicy := none
  compact : Bool := false
  strict : Bool := false

namespace GivenArguments

/-- The path of the input. -/
def withInput? (given : GivenArguments) (path : String) : Option GivenArguments :=
  if given.input.isSome || path.isEmpty then none else some { given with input := some path }

/-- The path of the output. -/
def withOutput? (given : GivenArguments) (path : String) : Option GivenArguments :=
  if given.output.isSome || path.isEmpty then none else some { given with output := some path }

/-- The name of the policy. -/
def withMergePolicy? (given : GivenArguments) (name : String) : Option GivenArguments :=
  if given.mergePolicy.isSome then
    none
  else
    (MergePolicy.ofName? name).map fun policy => { given with mergePolicy := some policy }

/-- A long option that takes no value. -/
def withSwitch? (given : GivenArguments) (name : List Char) : Option GivenArguments :=
  if name = "compact".toList then
    if given.compact then none else some { given with compact := true }
  else if name = "strict".toList then
    if given.strict then none else some { given with strict := true }
  else
    none

/-- A long option that takes a value, and how it takes it. -/
def withOption? (name : List Char) :
    Option (GivenArguments → String → Option GivenArguments) :=
  if name = "output".toList then some withOutput?
  else if name = "merge-policy".toList then some withMergePolicy?
  else none

/-- The run that the arguments ask for. -/
def toRequest? (given : GivenArguments) : Option Request :=
  given.input.map fun input =>
    .run {
      input
      output := given.output
      compact := given.compact
      mergePolicy := given.mergePolicy.getD .tableWins
      strict := given.strict }

/-- The request of arguments that come after those that have been given, each of them the path of
the input. -/
def readPaths? (given : GivenArguments) : List String → Option Request
  | [] => given.toRequest?
  | path :: paths => (given.withInput? path).bind fun given => given.readPaths? paths

/-- Whether an argument can be the value of an option that comes before it. -/
def isValue (argument : String) : Bool :=
  match argument.toList with
  | [] => true
  | c :: rest => c != '-' || rest.isEmpty

/-- The request of arguments that come after those that have been given. -/
def read? (given : GivenArguments) : List String → Option Request
  | [] => given.toRequest?
  | argument :: arguments =>
    match argument.toList with
    | '-' :: '-' :: [] => given.readPaths? arguments
    | '-' :: '-' :: long =>
      let name := long.takeWhile fun c => c != '='
      match long.drop name.length with
      | _ :: value =>
        match withOption? name with
        | some option =>
          (option given (String.ofList value)).bind fun given => given.read? arguments
        | none => none
      | [] =>
        if name = "version".toList then
          some .showVersion
        else if name = "help".toList then
          some .showHelp
        else
          match withOption? name with
          | some option =>
            match arguments with
            | [] => none
            | value :: arguments =>
              if isValue value then
                (option given value).bind fun given => given.read? arguments
              else
                none
          | none => (given.withSwitch? name).bind fun given => given.read? arguments
    | '-' :: c :: rest =>
      if c = 'o' then
        match rest with
        | [] =>
          match arguments with
          | [] => none
          | value :: arguments =>
            if isValue value then
              (given.withOutput? value).bind fun given => given.read? arguments
            else
              none
        | d :: value =>
          let path := String.ofList (if d = '=' then value else d :: value)
          (given.withOutput? path).bind fun given => given.read? arguments
      else if c = 'V' then some .showVersion
      else if c = 'h' then some .showHelp
      else none
    | _ => (given.withInput? argument).bind fun given => given.read? arguments

end GivenArguments

/-- What a list of arguments asks for. -/
def Request.ofArguments? (arguments : List String) : Option Request :=
  ({ } : GivenArguments).read? arguments

end DatabaseMarkup
