import DocComments.Text.Search

/-!
# Command line options

Arguments are files and options, in any order. An option has a long name, and most have a short one;
short options without a value can share one argument. A value is written after an equals sign,
directly after the short name, or as the next argument, which must not look like an option. After
two hyphens every argument is a file, and a hyphen alone always is.

* `Item.readAll` reads arguments one by one.
* `Options.parse` collects them and checks that they go together.

There is no help: an option that asks for it, `-h` or `--help`, is one that there is not.
-/

namespace DocComments.Command

/-- An option of the command. -/
inductive Flag where
  /-- The directory to write files to. -/
  | output
  /-- The format to write. -/
  | format
  /-- Print the values of this tag instead. -/
  | key
  /-- Print the prose instead. -/
  | texts
  /-- A tag that every comment must have. -/
  | require
  /-- Report more of the progress. -/
  | verbose
  deriving DecidableEq, Repr

/-- Why arguments make no command. -/
inductive UsageError where
  /-- There is no option of this name. -/
  | unknownOption (name : Text)
  /-- The option needs a value. -/
  | missingValue (flag : Flag)
  /-- The option takes no value. -/
  | unexpectedValue (flag : Flag)
  /-- The value of the option must not be empty. -/
  | emptyValue (flag : Flag)
  /-- The option can be given only once. -/
  | repeated (flag : Flag)
  /-- The two options exclude each other. -/
  | conflict (first second : Flag)
  deriving DecidableEq, Repr

namespace Flag

/-- Does the option take a value? -/
def takesValue : Flag → Bool
  | output | format | key | require => true
  | texts | verbose => false

/-- Can the option be given more than once? -/
def repeatable : Flag → Bool
  | require | verbose => true
  | output | format | key | texts => false

/-- The long name, without its hyphens. -/
def longName : Flag → Text
  | output => "output".toList
  | format => "format".toList
  | key => "key".toList
  | texts => "texts".toList
  | require => "require".toList
  | verbose => "verbose".toList

/-- An option as it is called in a message. -/
def display (flag : Flag) : Text :=
  '-' :: '-' :: flag.longName

/-- Every option. -/
def all : List Flag :=
  [output, format, key, texts, require, verbose]

/-- The option of a long name, which must be written out. -/
def ofLong? (name : Text) : Option Flag :=
  all.find? fun flag => flag.longName = name

/-- The option of a short name. -/
def ofShort? : Char → Option Flag
  | 'o' => some output
  | 'f' => some format
  | 'k' => some key
  | 'v' => some verbose
  | _ => none

end Flag

/-- What is said of arguments that make no command. -/
def UsageError.message : UsageError → Text
  | unknownOption name => "unknown option: ".toList ++ name
  | missingValue flag => flag.display ++ " needs a value".toList
  | unexpectedValue flag => flag.display ++ " takes no value".toList
  | emptyValue flag => flag.display ++ " needs a value that is not empty".toList
  | repeated flag => flag.display ++ " can be given only once".toList
  | conflict first second => first.display ++ " excludes ".toList ++ second.display

/-! ## Reading arguments -/

/-- What an argument, or an argument with its value, contributes. -/
inductive Item where
  /-- A file, a directory or a pattern. -/
  | file (path : Text)
  /-- An option without a value. -/
  | switch (flag : Flag)
  /-- An option with its value. -/
  | setting (flag : Flag) (value : Text)
  deriving DecidableEq, Repr

namespace Item

/-- Does the argument look like an option? -/
def looksLikeOption (arg : Text) : Bool :=
  arg.head? = some '-' && arg ≠ ['-']

/-- Read a long option without its hyphens. The second part is the option whose value is still to
come. -/
def readLong (text : Text) : Except UsageError (List Item × Option Flag) :=
  let (name, value) :=
    match Text.cut? ['='] text with
    | some (name, value) => (name, some value)
    | none => (text, none)
  match Flag.ofLong? name with
  | none => .error (.unknownOption name)
  | some flag =>
    if flag.takesValue then
      match value with
      | some value => .ok ([setting flag value], none)
      | none => .ok ([], some flag)
    else if value.isSome then .error (.unexpectedValue flag)
    else .ok ([switch flag], none)

/-- Read the short options of one argument without its hyphen. -/
def readShort : Text → Except UsageError (List Item × Option Flag)
  | [] => .ok ([], none)
  | c :: rest =>
    match Flag.ofShort? c with
    | none => .error (.unknownOption [c])
    | some flag =>
      if flag.takesValue then
        match rest with
        | [] => .ok ([], some flag)
        | '=' :: value => .ok ([setting flag value], none)
        | value => .ok ([setting flag value], none)
      else (readShort rest).map fun (items, awaiting) => (switch flag :: items, awaiting)

/-- Read one argument that is not a value. -/
def readOne (arg : Text) : Except UsageError (List Item × Option Flag) :=
  if !looksLikeOption arg then .ok ([file arg], none)
  else match arg with
    | '-' :: '-' :: long => readLong long
    | arg => readShort (arg.drop 1)

/-- Read all arguments, the first of which is the value of the awaiting option. -/
def readAll : Option Flag → List Text → Except UsageError (List Item)
  | none, [] => .ok []
  | some flag, [] => .error (.missingValue flag)
  | some flag, arg :: args =>
    if looksLikeOption arg then .error (.missingValue flag)
    else (readAll none args).map (setting flag arg :: ·)
  | none, arg :: args =>
    if arg = ['-', '-'] then .ok (args.map file)
    else do
      let (items, awaiting) ← readOne arg
      let rest ← readAll awaiting args
      return items ++ rest

/-- The path, if this is a file. -/
def path? : Item → Option Text
  | file path => some path
  | _ => none

/-- The option, if this is one. -/
def flag? : Item → Option Flag
  | file _ => none
  | switch flag => some flag
  | setting flag _ => some flag

/-- The value, if this sets the option. -/
def value? (flag : Flag) : Item → Option Text
  | setting f value => if f = flag then some value else none
  | _ => none

end Item

/-! ## Collecting options -/

/-- What the arguments ask for. -/
structure Options where
  /-- The files, directories and patterns, in order; none for standard input. -/
  files : List Text
  /-- The directory to write files to; none for standard output. -/
  output : Option Text
  /-- The name of the format. -/
  format : Text
  /-- The tag to print the values of. -/
  key : Option Text
  /-- Is the prose to be printed? -/
  texts : Bool
  /-- The tags that every comment must have. -/
  require : List Text
  deriving DecidableEq, Repr

namespace Options

/-- The format that is written where none is named. -/
def defaultFormat : Text :=
  "markdown".toList

/-- Collect what the items ask for, each option that is not repeatable at most once. -/
def ofItems (items : List Item) : Except UsageError Options :=
  let count (flag : Flag) : Nat := (items.filterMap Item.flag?).count flag
  let values (flag : Flag) : List Text := items.filterMap (Item.value? flag)
  let output := (values .output).head?
  let key := (values .key).head?
  let texts := decide (0 < count .texts)
  match Flag.all.find? fun flag => !flag.repeatable && 1 < count flag with
  | some flag => .error (.repeated flag)
  | none =>
    if output = some [] then .error (.emptyValue .output)
    else if key.isSome && texts then .error (.conflict .key .texts)
    else .ok
      { files := items.filterMap Item.path?
        output
        format := (values .format).head?.getD defaultFormat
        key
        texts
        require := values .require }

/-- The options that the arguments ask for. -/
def parse (args : List Text) : Except UsageError Options := do
  ofItems (← Item.readAll none args)

end Options

end DocComments.Command
