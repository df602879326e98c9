import ApiSurface.Script.Builtin

/-!
This module contains the running of scripts, and the machines whose programs are scripts. A script is run with a
clock of its own: only waiting takes time.
-/

namespace ApiSurface.Script

/--
The programs that a machine has beside scripts.
-/
inductive Tool where
  | shell
  | cat
  | echo
  | sleep
deriving DecidableEq, Repr

/--
The tool at a path.
-/
def Tool.at? : Path → Option Tool
  | ["bin", "sh"] => some shell
  | ["bin", "cat"] => some cat
  | ["bin", "echo"] => some echo
  | ["bin", "sleep"] => some sleep
  | _ => none

/--
The directory of the tools.
-/
def Tool.directory : Path := ["bin"]

/--
The file of a program: a name with a slash is a path, any other one is looked for in the directories of a search
path.
-/
def findProgram (t : FileTree) (cwd : Path) (search : String) (name : String) : Except OsError Path :=
  let usable (p : Path) : Except OsError Path :=
    if (t.file? p).any (·.executable) then .ok p else .error .denied
  if Text.contains name "/" then (t.locate cwd name).bind usable
  else
    let found := (Text.splitBy (· == ':') search).filterMap fun dir =>
      match t.locate cwd (Path.join dir name) with
      | .ok p => some (usable p)
      | .error _ => none
    match found.find? Except.isOk, found with
    | some p, _ => p
    | none, [] => .error .notFound
    | none, _ :: _ => .error .denied

/--
The first line of a file that a script of this language starts with.
-/
def scriptLine : String := "#!/bin/sh\n"

/--
The script in a file.
-/
def scriptText? (t : FileTree) (p : Path) : Option String :=
  match t.read p with
  | .ok s => if s.startsWith scriptLine then some s else none
  | .error _ => none

/--
Read a time in seconds with decimal places; the answer is in milliseconds.
-/
def milliseconds? (s : String) : Option Nat :=
  let (whole, part) := (Text.splitFirst? "." s).getD (s, "")
  let digits := whole.toList ++ (part.toList ++ ['0', '0', '0']).take 3
  if digits.all Char.isDigit && s != "" && s != "." then
    some (digits.foldl (fun n d => n * 10 + (d.toNat - 48)) 0)
  else none

/--
Write words with blanks between them. Words in front that are made of the letters `n`, `e` and `E` behind a dash
say whether the line end is left out, and whether escapes are replaced.
-/
def echoTool (st : State) (args : List String) : State :=
  let options := args.takeWhile isOption
  let letters := options.flatMap (fun o => o.toList.drop 1)
  let s := " ".intercalate (args.drop options.length)
  let escapes := (letters.reverse.find? (· != 'n')) == some 'e'
  let (bytes, stop) := if escapes then unescape (s.length + 1) s.toList else (s.toUTF8.toList, false)
  (st.write (bytes ++ if letters.contains 'n' || stop then [] else [10])).withStatus 0
where
  /-- Whether a word is an option. -/
  isOption (a : String) : Bool :=
    match a.toList with
    | '-' :: c :: cs => (c :: cs).all (fun c => ['n', 'e', 'E'].contains c)
    | _ => false

/--
Write what files hold; a dash, or no file at all, is the input.
-/
def catTool (st : State) (args : List String) : State :=
  let one (st : State) (a : String) : State :=
    if a == "-" || a == "/dev/stdin" then { st.write st.input with input := [] }
    else if a == "/dev/null" then st
    else
      let problem (e : OsError) : State :=
        let text := match e with
          | .notFound => "No such file or directory"
          | .denied => "Permission denied"
          | .notDirectory => "Not a directory"
          | .isDirectory => "Is a directory"
        (st.complain ("cat: " ++ a ++ ": " ++ text)).withStatus 1
      match st.files.locate st.directory a with
      | .error e => problem e
      | .ok p =>
        match st.files.file? p with
        | some f => st.write f.content.toList
        | none => problem .isDirectory
  (if args.isEmpty then ["-"] else args).foldl one (st.withStatus 0)

/--
Wait.
-/
def sleepTool (st : State) (args : List String) : State :=
  let unclear (problems : List String) : State :=
    let st := problems.foldl (fun st p => st.complain ("sleep: " ++ p)) st
    (st.complain "Try 'sleep --help' for more information.").withStatus 1
  match args, args.filter (fun a => (milliseconds? a).isNone) with
  | [], _ => unclear ["missing operand"]
  | _, [] => { st with time := st.time + (args.filterMap milliseconds?).foldl (· + ·) 0, status := 0 }
  | _, bad => unclear (bad.map (fun a => "invalid time interval '" ++ a ++ "'"))

/--
Where a shell takes its script from.
-/
inductive ScriptSource where
  | argument
  | file
  | input
deriving DecidableEq, Repr

/--
What a shell is asked to run.
-/
structure ShellRequest where
  source : ScriptSource := .file
  /-- Whether a command that fails ends the script. -/
  strict : Bool := false
  /-- The arguments behind the options. -/
  rest : List String := []
deriving Repr

/--
The request that arguments make: options come first, and the letters behind their dashes say what they ask for.
-/
def ShellRequest.ofArguments (args : List String) : ShellRequest :=
  let options := args.takeWhile (fun a => a.startsWith "-" && a != "-" && a != "--")
  let has (c : Char) : Bool := options.any (·.toList.contains c)
  { source := if has 'c' then .argument else if has 's' then .input else .file
    strict := has 'e'
    rest := args.drop options.length }

/--
The sink of a stream by its number.
-/
def sinkOf (st : State) : Nat → Sink
  | 1 => st.out
  | 2 => st.err
  | _ => .nothing

/--
The state with another sink for a stream.
-/
def withSink (st : State) (number : Nat) (sink : Sink) : State :=
  match number with
  | 1 => { st with out := sink }
  | 2 => { st with err := sink }
  | _ => st

mutual

/--
What parts of a word become.
-/
def expand (fuel : Nat) (st : State) (ps : List Piece) : List Fragment × State :=
  match fuel with
  | 0 => ([], st)
  | fuel + 1 =>
    match ps with
    | [] => ([], st)
    | p :: rest =>
      let (first, st) := expandPiece fuel st p
      let (more, st) := expand fuel st rest
      (first ++ more, st)

/--
What a part of a word becomes.
-/
def expandPiece (fuel : Nat) (st : State) (p : Piece) : List Fragment × State :=
  match fuel with
  | 0 => ([], st)
  | fuel + 1 =>
    let one (quoted : Bool) (s : String) : List Fragment := if quoted then [.fixed s] else [.loose s]
    let present (name : String) (orEmpty : Bool) : Option String :=
      (st.parameter? name).filter (fun v => !orEmpty || v != "")
    match p with
    | .text quoted s => (if quoted then [.fixed s] else [.plain s], st)
    | .value quoted name =>
      if name == "@" && quoted then
        (((st.arguments.map Fragment.fixed).intersperse .cut), st)
      else if name == "@" then (((st.arguments.map Fragment.loose).intersperse .cut), st)
      else (one quoted ((st.parameter? name).getD ""), st)
    | .valueOr quoted name orEmpty word =>
      match present name orEmpty with
      | some v => (one quoted v, st)
      | none => expand fuel st word
    | .valueSet quoted name orEmpty word =>
      match present name orEmpty with
      | some v => (one quoted v, st)
      | none =>
        let (fs, st) := expand fuel st word
        (one quoted (textOf fs), st.assign name (textOf fs))
    | .trimmed quoted name atEnd longest word =>
      let (fs, st) := expand fuel st word
      (one quoted (trimBy (patternOf fs) atEnd longest ((st.parameter? name).getD "")), st)
    | .wordIf quoted name orEmpty word =>
      match present name orEmpty with
      | some _ => expand fuel st word
      | none => (one quoted "", st)
    | .size quoted name => (one quoted (toString ((st.parameter? name).getD "").length), st)
    | .sum quoted word =>
      let (fs, st) := expand fuel st word
      let n := (sumOf (fun v => (st.parameter? v).getD "") (textOf fs)).getD 0
      (one quoted (digitsText 10 n), st)
    | .output quoted body =>
      let (inner, _) := runAll fuel { st with out := .kept, kept := [] } body
      let s := (String.fromUTF8? ⟨inner.keptBytes.toArray⟩).getD ""
      let st := { st.after inner with kept := st.kept }
      (one quoted (Text.trimEndWhile (· == '\n') s), st)

/--
The fields of words.
-/
def expandWords (fuel : Nat) (st : State) (ws : List Word) : List String × State :=
  match fuel with
  | 0 => ([], st)
  | fuel + 1 =>
    match ws with
    | [] => ([], st)
    | w :: rest =>
      let (fs, st) := expand fuel st w
      let (more, st) := expandWords fuel st rest
      (fieldsOf fs ++ more, st)

/--
The state with variables assigned.
-/
def assignAll (fuel : Nat) (st : State) (as : List (String × Word)) : State :=
  match fuel with
  | 0 => st
  | fuel + 1 =>
    match as with
    | [] => st
    | (name, w) :: rest =>
      let (fs, st) := expand fuel st w
      assignAll fuel (st.assign name (textOf fs)) rest

/--
The state with streams redirected; there is none if a file cannot be used.
-/
def redirectAll (fuel : Nat) (st : State) (rs : List Redirect) : Option State :=
  match fuel with
  | 0 => none
  | fuel + 1 =>
    match rs with
    | [] => some st
    | .stream number target :: rest => redirectAll fuel (withSink st number (sinkOf st target)) rest
    | .file number appends w :: rest =>
      let (fs, st) := expand fuel st w
      let name := textOf fs
      if name == "/dev/null" then redirectAll fuel (withSink st number .nothing) rest
      else
        let p := if Path.isAbsolute name then Path.names name else st.directory ++ Path.names name
        if st.files.isDirectory p || !st.files.isDirectory p.dropLast then none
        else
          let st := if appends && st.files.isFile p then st
            else { st with files := st.files.addFile p { content := ByteArray.empty } }
          redirectAll fuel (withSink st number (.file p)) rest
    | .input w :: rest =>
      let (fs, st) := expand fuel st w
      let name := textOf fs
      if name == "/dev/null" then redirectAll fuel { st with input := [] } rest
      else
        match lookup? st name with
        | some p =>
          match st.files.file? p with
          | some f => redirectAll fuel { st with input := f.content.toList } rest
          | none => none
        | none => none

/--
Run commands one after the other.
-/
def runAll (fuel : Nat) (st : State) (cs : List Command) : State × Flow :=
  match fuel with
  | 0 => (st, .endless)
  | fuel + 1 =>
    match cs with
    | [] => (st, .next)
    | c :: rest =>
      let (st, flow) := run fuel st c
      match flow with
      | .next => runAll fuel st rest
      | _ => (st, flow)

/--
Run the branch of the first test that succeeds.
-/
def runBranches (fuel : Nat) (st : State) (bs : List (List Command × List Command)) (otherwise : List Command) :
    State × Flow :=
  match fuel with
  | 0 => (st, .endless)
  | fuel + 1 =>
    match bs with
    | [] => runAll fuel (st.withStatus 0) otherwise
    | (test, body) :: rest =>
      let (inner, flow) := runAll fuel st.asked test
      let st := st.behindAsked inner
      match flow with
      | .next => if st.status == 0 then runAll fuel st body else runBranches fuel st rest otherwise
      | _ => (st, flow)

/--
Whether a word is one of some patterns.
-/
def anyMatches (fuel : Nat) (st : State) (subject : String) (ps : List Word) : Bool × State :=
  match fuel with
  | 0 => (false, st)
  | fuel + 1 =>
    match ps with
    | [] => (false, st)
    | w :: rest =>
      let (fs, st) := expand fuel st w
      if matchesText (patternOf fs) subject then (true, st) else anyMatches fuel st subject rest

/--
Run the first branch that has a pattern for a word.
-/
def runSelection (fuel : Nat) (st : State) (subject : String) (bs : List (List Word × List Command)) : State × Flow :=
  match fuel with
  | 0 => (st, .endless)
  | fuel + 1 =>
    match bs with
    | [] => (st.withStatus 0, .next)
    | (ps, body) :: rest =>
      let (hit, st) := anyMatches fuel st subject ps
      if hit then runAll fuel (st.withStatus 0) body else runSelection fuel st subject rest

/--
Run a body for each of some values.
-/
def runEach (fuel : Nat) (st : State) (name : String) (values : List String) (body : List Command) : State × Flow :=
  match fuel with
  | 0 => (st, .endless)
  | fuel + 1 =>
    match values with
    | [] => (st, .next)
    | v :: rest =>
      let (st, flow) := runAll fuel (st.assign name v) body
      match flow with
      | .next => runEach fuel st name rest body
      | .leave again loops =>
        if loops > 1 then (st, .leave again (loops - 1))
        else if again then runEach fuel st name rest body
        else (st, .next)
      | _ => (st, flow)

/--
Run a command.
-/
def run (fuel : Nat) (st : State) (c : Command) : State × Flow :=
  match fuel with
  | 0 => (st, .endless)
  | fuel + 1 =>
    match c with
    | .simple line as ws =>
      let (fields, st) := expandWords fuel st ws
      match fields with
      | [] => (assignAll fuel (if ws.isEmpty then st.withStatus 0 else st) as, .next)
      | name :: args =>
        let during := { assignAll fuel st as with exported := as.map (·.1) ++ st.exported }
        let (inner, flow) := runNamed fuel (if as.isEmpty then st else during) line name args
        (if as.isEmpty then inner else { inner with environment := st.environment, exported := st.exported }).checked flow
    | .group body => runAll fuel st body
    | .apart body =>
      let (inner, flow) := runAll fuel st body
      let st := st.after inner
      match flow with
      | .killed => (st, .killed)
      | .endless => (st, .endless)
      | _ => st.checked .next
    | .choose bs otherwise => runBranches fuel st bs otherwise
    | .loop whileTrue test body =>
      let (inner, flow) := runAll fuel st.asked test
      let st := st.behindAsked inner
      match flow with
      | .next =>
        if (st.status == 0) == whileTrue then
          let (st, flow) := runAll fuel st body
          match flow with
          | .next => run fuel st (.loop whileTrue test body)
          | .leave again loops =>
            if loops > 1 then (st, .leave again (loops - 1))
            else if again then run fuel st (.loop whileTrue test body)
            else (st, .next)
          | _ => (st, flow)
        else (st.withStatus 0, .next)
      | _ => (st, flow)
    | .each name words body =>
      let (values, st) := match words with
        | some ws => expandWords fuel st ws
        | none => (st.arguments, st)
      runEach fuel (st.withStatus 0) name values body
    | .select subject bs =>
      let (fs, st) := expand fuel st subject
      runSelection fuel st (textOf fs) bs
    | .andThen first second =>
      let (inner, flow) := run fuel st.asked first
      let st := st.behindAsked inner
      match flow with
      | .next => if st.status == 0 then run fuel st second else (st, .next)
      | _ => (st, flow)
    | .orElse first second =>
      let (inner, flow) := run fuel st.asked first
      let st := st.behindAsked inner
      match flow with
      | .next => if st.status == 0 then (st, .next) else run fuel st second
      | _ => (st, flow)
    | .negated c =>
      let (inner, flow) := run fuel st.asked c
      let st := st.behindAsked inner
      match flow with
      | .next => (st.withStatus (if st.status == 0 then 1 else 0), .next)
      | _ => (st, flow)
    | .piped first second =>
      let (left, flow) := run fuel { st with out := .kept, kept := [] } first
      match flow with
      | .killed => (st.after left, .killed)
      | .endless => (st.after left, .endless)
      | _ =>
        let input := left.keptBytes
        let (right, flow) := run fuel { st.after { left with kept := st.kept } with input := input } second
        let st := { st.after right with input := st.input }
        match flow with
        | .killed => (st, .killed)
        | .endless => (st, .endless)
        | _ => st.checked .next
    | .background c =>
      let (inner, flow) := run fuel { st with input := [] } c
      let ends := match flow with
        | .endless => none
        | _ => some inner.time
      ({ st with
          behind := State.later (State.later st.behind inner.behind) ends, outputs := inner.outputs
          kept := inner.kept, files := inner.files, status := 0 }, .next)
    | .redirected c rs =>
      match redirectAll fuel st rs with
      | none => ((st.complain (st.name ++ ": 1: cannot open file")).withStatus 2, .next)
      | some inside =>
        let (inner, flow) := run fuel inside c
        ({ inner with out := st.out, err := st.err, input := if inside.input == st.input then inner.input else st.input },
          flow)
    | .define name body => ({ st with functions := (name, body) :: st.functions, status := 0 }, .next)

/--
Run a function, a command that scripts have, or a program.
-/
def runNamed (fuel : Nat) (st : State) (line : Nat) (name : String) (args : List String) : State × Flow :=
  match fuel with
  | 0 => (st, .endless)
  | fuel + 1 =>
    match st.functions.lookup name with
    | some body =>
      let (inner, flow) := run fuel { st with arguments := args } body
      let st := { inner with arguments := st.arguments }
      match flow with
      | .back => (st, .next)
      | _ => (st, flow)
    | none =>
      if name == "exec" then
        match args with
        | [] => (st.withStatus 0, .next)
        | program :: rest =>
          let (st, flow) := runNamed fuel st line program rest
          match flow with
          | .killed => (st, .killed)
          | .endless => (st, .endless)
          | _ => (st, .exit)
      else if name == "command" then
        match args with
        | [] => (st.withStatus 0, .next)
        | program :: rest => runNamed fuel st line program rest
      else if name == "eval" then
        match read? (" ".intercalate args) with
        | some cs => runAll fuel st cs
        | none => ((st.complain (st.name ++ ": " ++ toString line ++ ": Syntax error")).withStatus 2, .exit)
      else
        match builtin? name with
        | some f => f st args
        | none =>
          match findProgram st.files st.directory ((st.value? "PATH").getD "") name with
          | .ok p => runProgram fuel st (if Text.contains name "/" then name else p.text) p args
          | .error e =>
            let (text, status) := match e with
              | .notFound => ("not found", 127)
              | .notDirectory => ("not found", 127)
              | _ => ("Permission denied", 126)
            ((st.complain (st.name ++ ": " ++ toString line ++ ": " ++ name ++ ": " ++ text)).withStatus status, .next)

/--
Run the program in a file, apart from what runs it.
-/
def runProgram (fuel : Nat) (st : State) (name : String) (p : Path) (args : List String) : State × Flow :=
  match fuel with
  | 0 => (st, .endless)
  | fuel + 1 =>
    let script (strict : Bool) (name : String) (args : List String) (text : String) : State × Flow :=
      let start : State :=
        { st with
          name := name, arguments := args, functions := [], strict := strict, status := 0
          environment := st.environment.filter (fun v => st.exported.contains v.1) }
      match read? text with
      | some cs =>
        let (inner, flow) := runAll fuel start cs
        let st := st.after inner
        match flow with
        | .killed => (st.withStatus 137, .next)
        | .endless => (st, .endless)
        | _ => (st, .next)
      | none => ((st.complain (name ++ ": 1: Syntax error")).withStatus 2, .next)
    match Tool.at? p with
    | some .cat => (catTool st args, .next)
    | some .echo => (echoTool st args, .next)
    | some .sleep => (sleepTool st args, .next)
    | some .shell =>
      let request := ShellRequest.ofArguments args
      match request.source, request.rest with
      | .argument, text :: rest => script request.strict (rest.head?.getD name) rest.tail text
      | .argument, [] => ((st.complain (name ++ ": 0: -c requires an argument")).withStatus 2, .next)
      | .file, file :: rest =>
        match (lookup? st file).bind (fun p => (st.files.read p).toOption) with
        | some text => script request.strict file rest text
        | none => ((st.complain (name ++ ": 0: cannot open " ++ file ++ ": No such file")).withStatus 2, .next)
      | _, rest => script request.strict name rest ((String.fromUTF8? ⟨st.input.toArray⟩).getD "")
    | none =>
      match scriptText? st.files p with
      | some text => script false name args text
      | none => ((st.complain (st.name ++ ": 1: " ++ name ++ ": Exec format error")).withStatus 126, .next)

end

/--
How many steps a script may take before it counts as endless.
-/
def patience : Nat := 20000

/--
What a program does that is started as a script or one of the tools.
-/
def start (t : FileTree) (l : Launch) : Except OsError Activity := do
  let p ← findProgram t l.directory ((l.environment.lookup "PATH").getD "") l.program
  let st : State :=
    { name := l.program, arguments := l.arguments, environment := l.environment, exported := l.environment.map (·.1)
      input := l.input, directory := l.directory, files := t }
  let (st, flow) := whole st p
  let outputs := st.outputs.reverse.mergeSort (fun a b => decide (a.time ≤ b.time))
  let ended : Option Nat := match flow with
    | .endless => none
    | _ => some st.time
  let ending : Option (Nat × Ending) := match flow with
    | .endless => none
    | .killed => some (st.time, .signal)
    | _ => some (st.time, .exit st.status)
  return { outputs := outputs, ending := ending, closed := State.later ended st.behind }
where
  /-- The program itself; a script that is killed is the one that was started. -/
  whole (st : State) (p : Path) : State × Flow :=
    let script (strict : Bool) (name : String) (args : List String) (text : String) : State × Flow :=
      match read? text with
      | some cs => runAll patience { st with name := name, arguments := args, strict := strict } cs
      | none => ((st.complain (name ++ ": 1: Syntax error")).withStatus 2, .exit)
    let request := ShellRequest.ofArguments l.arguments
    match Tool.at? p, request.source, request.rest with
    | some .shell, .argument, text :: rest => script request.strict (rest.head?.getD l.program) rest.tail text
    | none, _, _ =>
      match scriptText? t p with
      | some text => script false l.program l.arguments text
      | none => runProgram patience st l.program p l.arguments
    | some _, _, _ => runProgram patience st l.program p l.arguments

/--
A file that stands for a tool.
-/
def Tool.file : File := { content := ByteArray.empty, executable := true }

/--
A tree with the tools in their directory.
-/
def withTools (t : FileTree) : FileTree :=
  ["sh", "cat", "echo", "sleep"].foldl (fun t n => t.addFile (Tool.directory ++ [n]) Tool.file) t

/--
A machine whose programs are scripts and the tools.
-/
def machine (t : FileTree) (directory : Path) (environment : List (String × String)) : Machine :=
  { files := withTools t, directory := directory, environment := environment, start := start }

end ApiSurface.Script
