import ApiSurface.Language
import ApiSurface.Text.Cut

/-!
This module contains the arguments of the command line: options by their long or short names, in any order, and
words. Options before the name of a command go for all commands.
-/

namespace ApiSurface.Cli

/--
Why arguments ask for nothing that could be done.
-/
inductive Refusal where
  /-- The arguments do not fit together. -/
  | rejected
  /-- The arguments ask for help. -/
  | help
  /-- The arguments ask which version this is. -/
  | version
deriving DecidableEq, Repr

/--
An option.
-/
structure Flag where
  name : String
  short : Option Char := none
  takesValue : Bool := false
deriving DecidableEq, Repr

/--
What arguments say: options with their values, and words.
-/
structure Given where
  options : List (String × String) := []
  words : List String := []
deriving DecidableEq, Repr

namespace Given

/--
Whether an option is given.
-/
def has (g : Given) (name : String) : Bool :=
  g.options.any (·.1 == name)

/--
The value of an option.
-/
def value? (g : Given) (name : String) : Option String :=
  g.options.lookup name

/--
Add an option, which must not be there yet.
-/
def addOption (g : Given) (name value : String) : Except Refusal Given :=
  if g.has name then .error .rejected else .ok { g with options := g.options ++ [(name, value)] }

end Given

/--
The value for an option among the arguments that follow, and those behind it. A value does not look like an
option.
-/
def nextValue : List String → Except Refusal (String × List String)
  | [] => .error .rejected
  | a :: rest => if a.startsWith "-" && a != "-" then .error .rejected else .ok (a, rest)

/--
Take a long option without its two dashes.
-/
def takeLong (flags : List Flag) (g : Given) (body : String) (rest : List String) :
    Except Refusal (Given × List String) := do
  let (name, attached) := match Text.splitFirst? "=" body with
    | some (n, v) => (n, some v)
    | none => (body, none)
  match flags.find? (·.name == name) with
  | none => .error .rejected
  | some f =>
    match f.takesValue, attached with
    | false, some _ => .error .rejected
    | false, none =>
      if name == "help" then .error .help
      else if name == "version" then .error .version
      else return (← g.addOption name "", rest)
    | true, some v => return (← g.addOption name v, rest)
    | true, none =>
      let (v, rest) ← nextValue rest
      return (← g.addOption name v, rest)

/--
Take short options that stand behind one dash. The first one with a value takes all that follows it.
-/
def takeShort (flags : List Flag) (g : Given) : List Char → List String → Except Refusal (Given × List String)
  | [], rest => .ok (g, rest)
  | c :: cs, rest => do
    match flags.find? (·.short == some c) with
    | none => .error .rejected
    | some f =>
      if f.takesValue then
        match cs with
        | [] =>
          let (v, rest) ← nextValue rest
          return (← g.addOption f.name v, rest)
        | '=' :: v => return (← g.addOption f.name (String.ofList v), rest)
        | v => return (← g.addOption f.name (String.ofList v), rest)
      else if f.name == "help" then .error .help
      else if f.name == "version" then .error .version
      else takeShort flags (← g.addOption f.name "") cs rest

/--
Take arguments one after the other. At most `most` words are taken; with `untilWord`, the first word ends it. The
answer holds the arguments that are left. The first argument bounds the number of steps.
-/
def take (flags : List Flag) (most : Nat) (untilWord : Bool) :
    Nat → Given → List String → Except Refusal (Given × List String)
  | 0, g, args => .ok (g, args)
  | _ + 1, g, [] => .ok (g, [])
  | fuel + 1, g, a :: rest => do
    if a == "--" then
      if untilWord || g.words.length + rest.length > most then .error .rejected
      else return ({ g with words := g.words ++ rest }, [])
    else if a.startsWith "--" then
      let (g, rest) ← takeLong flags g (a.drop 2).toString rest
      take flags most untilWord fuel g rest
    else if a.startsWith "-" && a != "-" then
      let (g, rest) ← takeShort flags g (a.drop 1).toString.toList rest
      take flags most untilWord fuel g rest
    else if untilWord then return (g, a :: rest)
    else if g.words.length < most then take flags most untilWord fuel { g with words := g.words ++ [a] } rest
    else .error .rejected

/--
What to do.
-/
inductive Action where
  /-- Write the index of a package. -/
  | graph (language : Language) (path manifest classes : Option String) (stubs prune : Bool) (map output : Option String)
  /-- Write the fingerprint of a source tree. -/
  | fingerprint (path : String) (language : Option Language)
  /-- Report which operations samples use. -/
  | usage (language : Language) (index samples : String) (json : Bool)
  /-- Report which analyzers can be run. -/
  | doctor (language : Option Language) (refresh : Bool)
deriving DecidableEq, Repr

/--
What to do, and the file with settings.
-/
structure Request where
  config : Option String
  action : Action
deriving DecidableEq, Repr

namespace Request

/--
The options of every command.
-/
def globalFlags : List Flag :=
  [{ name := "verbose", short := some 'v' }, { name := "config", short := some 'c', takesValue := true },
   { name := "help", short := some 'h' }]

/--
A path that is given has to name something.
-/
def pathValue (g : Given) (name : String) : Except Refusal (Option String) :=
  match g.value? name with
  | some "" => .error .rejected
  | v => .ok v

/--
A path that has to be given.
-/
def requiredPath (g : Given) (name : String) : Except Refusal String := do
  match ← pathValue g name with
  | some p => return p
  | none => .error .rejected

/--
The language of a word.
-/
def languageOf (word : String) : Except Refusal Language :=
  match Language.ofWord? word with
  | some l => .ok l
  | none => .error .rejected

/--
The language of a word, if there is one.
-/
def languageOf? : Option String → Except Refusal (Option Language)
  | some word => (languageOf word).map some
  | none => .ok none

/--
The command for an index.
-/
def graph (args : List String) : Except Refusal (Given × Action) := do
  let flags := globalFlags ++
    [{ name := "path", short := some 'p', takesValue := true },
     { name := "manifest", short := some 'm', takesValue := true },
     { name := "classes", takesValue := true }, { name := "stubs" }, { name := "json" }, { name := "prune" },
     { name := "map", takesValue := true }, { name := "output", short := some 'o', takesValue := true }]
  let (g, _) ← take flags 1 false (args.length + 1) {} args
  let language ← match g.words with
    | [w] => languageOf w
    | _ => .error .rejected
  let path ← pathValue g "path"
  let manifest ← pathValue g "manifest"
  let classes ← pathValue g "classes"
  let map ← pathValue g "map"
  let output ← pathValue g "output"
  if path.isSome && manifest.isSome then .error .rejected
  if g.has "stubs" && g.has "json" then .error .rejected
  if classes.isSome && manifest.isNone then .error .rejected
  return (g, .graph language path manifest classes (g.has "stubs") (g.has "prune") map output)

/--
The command for a fingerprint.
-/
def fingerprint (args : List String) : Except Refusal (Given × Action) := do
  let flags := globalFlags ++ [{ name := "language", short := some 'l', takesValue := true }]
  let (g, _) ← take flags 1 false (args.length + 1) {} args
  let path ← match g.words.head? with
    | some "" => .error .rejected
    | some p => pure p
    | none => pure "."
  return (g, .fingerprint path (← languageOf? (g.value? "language")))

/--
The command for the use of operations.
-/
def usage (args : List String) : Except Refusal (Given × Action) := do
  let flags := globalFlags ++
    [{ name := "index", short := some 'i', takesValue := true },
     { name := "samples", short := some 's', takesValue := true }, { name := "json" }]
  let (g, _) ← take flags 1 false (args.length + 1) {} args
  let language ← match g.words with
    | [w] => languageOf w
    | _ => .error .rejected
  return (g, .usage language (← requiredPath g "index") (← requiredPath g "samples") (g.has "json"))

/--
The command for a report on analyzers.
-/
def doctor (args : List String) : Except Refusal (Given × Action) := do
  let flags := globalFlags ++ [{ name := "refresh" }]
  let (g, _) ← take flags 1 false (args.length + 1) {} args
  return (g, .doctor (← languageOf? g.words.head?) (g.has "refresh"))

/--
Read the arguments of a run.
-/
def read (args : List String) : Except Refusal Request := do
  let flags := globalFlags ++ [{ name := "version", short := some 'V' }]
  let (top, rest) ← take flags 0 true (args.length + 1) {} args
  let (g, action) ← match rest with
    | "graph" :: rest => graph rest
    | "fingerprint" :: rest => fingerprint rest
    | "usage" :: rest => usage rest
    | "doctor" :: rest => doctor rest
    | "help" :: _ => .error .help
    | _ => .error .rejected
  let config ← pathValue top "config"
  let inner ← pathValue g "config"
  return { config := inner <|> config, action := action }

end Request

end ApiSurface.Cli
