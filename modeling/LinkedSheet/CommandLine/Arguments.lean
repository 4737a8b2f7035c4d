import LinkedSheet.Word

/-!
The arguments of the command. Flags have long names, some also one letter; letters may stand
together behind one dash. A flag that takes a value finds it behind an equals sign, right behind its
letter, or in the next argument, which must not look like a flag. After two dashes alone everything
is a path.

Arguments count in their sequence: help and version are answered as soon as they are met, unless
something before them is wrong.
-/
namespace LinkedSheet.CommandLine

structure Options where
  /-- The table: a document, or a directory that holds one. -/
  path : Option String
  /-- Files of custom functions. -/
  functions : List String
  /-- Whether the default functions file is wanted. -/
  defaultFunctions : Bool
  /-- The file to export to. -/
  output : Option String
  /-- The operations to evaluate first; none means those of the document. -/
  order : List Nat
  /-- Whether only the built-in script functions are to be listed. -/
  listFunctions : Bool

inductive Request where
  | evaluate (options : Options)
  | help
  | version

inductive Flag where
  | noDefaultFunctions
  | listFunctions
  | verbose
  | functions
  | output
  | order
  | help
  | version
deriving DecidableEq, Repr

namespace Flag

def ofName? : String → Option Flag
  | "no-default-functions" => some noDefaultFunctions
  | "list-functions" => some listFunctions
  | "verbose" => some verbose
  | "functions" => some functions
  | "output" => some output
  | "order" => some order
  | "help" => some help
  | "version" => some version
  | _ => none

def ofLetter? : Char → Option Flag
  | 'v' => some verbose
  | 'f' => some functions
  | 'o' => some output
  | 'h' => some help
  | 'V' => some version
  | _ => none

def takesValue : Flag → Bool
  | functions => true
  | output => true
  | order => true
  | _ => false

end Flag

/-- The unsigned 64-bit number that a text holds: digits, with a plus sign before them or not. -/
def number? (text : List Char) : Option Nat :=
  let digits :=
    match text with
    | '+' :: rest => rest
    | digits => digits
  if digits.isEmpty || !digits.all Char.isDigit then none
  else
    let n := digits.foldl (fun n c => n * 10 + (c.toNat - '0'.toNat)) 0
    if n < Word.bound then some n else none

def commaPieces (piece : List Char) : List Char → List (List Char)
  | [] => [piece.reverse]
  | c :: rest =>
    if c = ',' then piece.reverse :: commaPieces [] rest else commaPieces (c :: piece) rest

namespace Options

def initial : Options where
  path := none
  functions := []
  defaultFunctions := true
  output := none
  order := []
  listFunctions := false

/-- A flag without a value; all but the one for more log output are given at most once. -/
def turnOn? (options : Options) : Flag → Option Options
  | .noDefaultFunctions =>
    if options.defaultFunctions then some { options with defaultFunctions := false } else none
  | .listFunctions =>
    if options.listFunctions then none else some { options with listFunctions := true }
  | .verbose => some options
  | _ => none

def give? (options : Options) (flag : Flag) (value : List Char) : Option Options :=
  match flag with
  | .functions =>
    if value.isEmpty then none
    else some { options with functions := options.functions ++ [String.ofList value] }
  | .output =>
    if value.isEmpty || options.output.isSome then none
    else some { options with output := some (String.ofList value) }
  | .order => do
    let ids ← (commaPieces [] value).mapM number?
    return { options with order := options.order ++ ids }
  | _ => none

def givePath? (options : Options) (path : String) : Option Options :=
  if path.isEmpty || options.path.isSome then none else some { options with path := some path }

end Options

namespace Request

/-- What an argument leads to: the options so far, with a flag that waits for its value or not, or
the answer. -/
inductive Step where
  | go (options : Options)
  | wait (options : Options) (flag : Flag)
  | stop (request : Request)

def letters? (options : Options) : List Char → Option Step
  | [] => some (.go options)
  | c :: rest => do
    let flag ← Flag.ofLetter? c
    if flag = .help then return .stop .help
    else if flag = .version then return .stop .version
    else if flag.takesValue then
      match rest with
      | [] => return .wait options flag
      | '=' :: value => return .go (← options.give? flag value)
      | value => return .go (← options.give? flag value)
    else letters? (← options.turnOn? flag) rest

/-- A name behind two dashes, with a value behind an equals sign or not. -/
def name? (options : Options) (cs : List Char) : Option Step := do
  let flag ← Flag.ofName? (String.ofList (cs.takeWhile (· != '=')))
  match cs.dropWhile (· != '=') with
  | [] =>
    if flag = .help then return .stop .help
    else if flag = .version then return .stop .version
    else if flag.takesValue then return .wait options flag
    else return .go (← options.turnOn? flag)
  | _ :: value => return .go (← options.give? flag value)

def isFlag : List Char → Bool
  | '-' :: _ :: _ => true
  | _ => false

def step? (options : Options) (argument : String) : Option Step :=
  match argument.toList with
  | '-' :: '-' :: name => name? options name
  | '-' :: c :: letters => letters? options (c :: letters)
  | _ => (options.givePath? argument).map .go

/-- The request when all arguments have been read: there is a path, unless none is needed. -/
def finish? (options : Options) : Option Request :=
  if options.path.isNone && !options.listFunctions then none else some (.evaluate options)

def paths? (options : Options) : List String → Option Request
  | [] => finish? options
  | path :: rest => do paths? (← options.givePath? path) rest

def read? (options : Options) : List String → Option Request
  | [] => finish? options
  | "--" :: rest => paths? options rest
  | argument :: rest => do
    match ← step? options argument with
    | .go options => read? options rest
    | .stop request => return request
    | .wait options flag =>
      match rest with
      | [] => none
      | value :: rest =>
        if isFlag value.toList then none
        else read? (← options.give? flag value.toList) rest

def ofArguments? (arguments : List String) : Option Request :=
  read? Options.initial arguments

end Request

def version : String := "spysheet 0.1.0"

def usage : String := "Usage: spysheet [OPTIONS] [PATH]"

def usageError : String :=
  "error: invalid arguments\n\n" ++ usage ++ "\n\nFor more information, try '--help'.\n"

def help : String :=
  "Spreadsheet tables built from operations: " ++
  "functions linked to input selections and output anchors.\n\n" ++ usage ++ "\n\n" ++
  "Arguments:\n" ++
  "  [PATH]  Table document, or a directory containing __table__.toml\n\n" ++
  "Options:\n" ++
  "  -f, --functions <FILE>      Load custom Rhai functions (can be repeated)\n" ++
  "      --no-default-functions  Skip default.rhai from the config directory\n" ++
  "  -o, --output <FILE>         Export instead of printing (.csv or .md)\n" ++
  "      --order <IDS>           " ++
  "Operations to evaluate first, overriding the document (comma-separated)\n" ++
  "      --list-functions        List the built-in script functions and exit\n" ++
  "  -v, --verbose...            More log output (-v info, -vv debug, -vvv trace)\n" ++
  "  -h, --help                  Print help\n" ++
  "  -V, --version               Print version\n"

end LinkedSheet.CommandLine
