import ApiSurface.Digest.Bytes
import ApiSurface.Script.State

/-!
This module contains the commands that a script has without starting a program.
-/

namespace ApiSurface.Script

/--
The value of at most some octal digits, and what follows them.
-/
def octal (most : Nat) (cs : List Char) : Nat × List Char :=
  let digits := (cs.take most).takeWhile (fun c => '0' ≤ c && c ≤ '7')
  (digits.foldl (fun n d => n * 8 + (d.toNat - 48)) 0, cs.drop digits.length)

/--
The byte that a letter behind a backslash stands for.
-/
def escaped? : Char → Option UInt8
  | '\\' => some 92
  | 'a' => some 7
  | 'b' => some 8
  | 'f' => some 12
  | 'n' => some 10
  | 'r' => some 13
  | 't' => some 9
  | 'v' => some 11
  | _ => none

/--
The bytes of a character.
-/
def bytesOf (c : Char) : List UInt8 :=
  (String.singleton c).toUTF8.toList

/--
The bytes of a text with its escapes replaced; octal numbers follow a zero. The second part says whether an
escape ended all output.
-/
def unescape : Nat → List Char → List UInt8 × Bool
  | 0, _ => ([], false)
  | _ + 1, [] => ([], false)
  | fuel + 1, '\\' :: rest =>
    match rest with
    | 'c' :: _ => ([], true)
    | '0' :: more =>
      let (n, more) := octal 3 more
      let (bs, stop) := unescape fuel more
      (UInt8.ofNat n :: bs, stop)
    | c :: more =>
      match escaped? c with
      | some b =>
        let (bs, stop) := unescape fuel more
        (b :: bs, stop)
      | none =>
        let (bs, stop) := unescape fuel (c :: more)
        (92 :: bs, stop)
    | [] => ([92], false)
  | fuel + 1, c :: rest =>
    let (bs, stop) := unescape fuel rest
    (bytesOf c ++ bs, stop)

/--
Write words with blanks between them; a first word `-n` leaves out the line end, and escapes are replaced.
-/
def echo (st : State) (args : List String) : State :=
  let (args, line) := match args with
    | "-n" :: rest => (rest, false)
    | _ => (args, true)
  let s := " ".intercalate args
  let (bytes, stop) := unescape (s.length + 1) s.toList
  (st.write (bytes ++ if line && !stop then [10] else [])).withStatus 0

/--
How a value is laid out.
-/
structure Layout where
  left : Bool := false
  zeros : Bool := false
  width : Nat := 0
  places : Option Nat := none

namespace Layout

/--
Read a layout, and what follows it.
-/
def read (cs : List Char) : Layout × List Char :=
  let flags := cs.takeWhile (fun c => ['-', '0', '+', ' ', '#'].contains c)
  let cs := cs.drop flags.length
  let width := cs.takeWhile Char.isDigit
  let cs := cs.drop width.length
  let value (ds : List Char) : Nat := ds.foldl (fun n d => n * 10 + (d.toNat - 48)) 0
  let (places, cs) := match cs with
    | '.' :: rest =>
      let ds := rest.takeWhile Char.isDigit
      (some (value ds), rest.drop ds.length)
    | _ => (none, cs)
  ({ left := flags.contains '-', zeros := flags.contains '0', width := value width, places := places }, cs)

/--
Fill bytes up to the width.
-/
def pad (l : Layout) (number : Bool) (bytes : List UInt8) : List UInt8 :=
  let missing := l.width - bytes.length
  if l.left then bytes ++ List.replicate missing 32
  else if l.zeros && number then
    match bytes with
    | 45 :: rest => 45 :: (List.replicate missing 48 ++ rest)
    | _ => List.replicate missing 48 ++ bytes
  else List.replicate missing 32 ++ bytes

end Layout

/--
The text of a number in some base.
-/
def digitsText (base : Nat) (n : Int) : String :=
  let digits := String.ofList (Nat.toDigits base n.natAbs)
  if n < 0 then "-" ++ digits else digits

/--
Go through a format once. The answer holds the bytes, the arguments that are left, whether any was used, and
whether an escape ended all output.
-/
def formatOnce : Nat → List Char → List String → Bool → List UInt8 × List String × Bool × Bool
  | 0, _, args, used => ([], args, used, false)
  | _ + 1, [], args, used => ([], args, used, false)
  | fuel + 1, '\\' :: rest, args, used =>
    let (bytes, rest) := match rest with
      | c :: more =>
        match escaped? c with
        | some b => ([b], more)
        | none =>
          if '0' ≤ c && c ≤ '7' then
            let (n, more) := octal 3 rest
            ([UInt8.ofNat n], more)
          else ([92], rest)
      | [] => ([92], rest)
    let (bs, more) := formatOnce fuel rest args used
    (bytes ++ bs, more)
  | fuel + 1, '%' :: rest, args, used =>
    let (layout, rest) := Layout.read rest
    match rest with
    | [] => ([37], args, used, false)
    | '%' :: rest =>
      let (bs, more) := formatOnce fuel rest args used
      (37 :: bs, more)
    | c :: rest =>
      let arg := args.head?.getD ""
      let n := (number? arg).getD 0
      let (bytes, stop) := match c with
        | 's' =>
          let bytes := arg.toUTF8.toList
          (layout.pad false (match layout.places with
            | some p => bytes.take p
            | none => bytes), false)
        | 'b' =>
          let (bytes, stop) := unescape (arg.length + 1) arg.toList
          (layout.pad false bytes, stop)
        | 'c' => (layout.pad false (arg.toUTF8.toList.take 1), false)
        | 'x' => (layout.pad true (digitsText 16 n).toUTF8.toList, false)
        | 'X' => (layout.pad true (digitsText 16 n).toUpper.toUTF8.toList, false)
        | 'o' => (layout.pad true (digitsText 8 n).toUTF8.toList, false)
        | _ => (layout.pad true (digitsText 10 n).toUTF8.toList, false)
      if stop then (bytes, [], true, true)
      else
        let (bs, more) := formatOnce fuel rest args.tail true
        (bytes ++ bs, more)
  | fuel + 1, c :: rest, args, used =>
    let (bs, more) := formatOnce fuel rest args used
    (bytesOf c ++ bs, more)

/--
Go through a format until no arguments are left.
-/
def formatAll : Nat → String → List String → List UInt8
  | 0, _, _ => []
  | fuel + 1, format, args =>
    let (bytes, args, used, stop) := formatOnce (format.length + 1) format.toList args false
    if stop || !used || args.isEmpty then bytes else bytes ++ formatAll fuel format args

/--
Write arguments by a format.
-/
def printf (st : State) : List String → State
  | [] => (st.complain (st.name ++ ": 1: printf: usage: printf format [arg ...]")).withStatus 2
  | "--" :: format :: args => (st.write (formatAll (args.length + 1) format args)).withStatus 0
  | format :: args => (st.write (formatAll (args.length + 1) format args)).withStatus 0

/--
What a path leads to.
-/
def lookup? (st : State) (s : String) : Option Path :=
  match st.files.locate st.directory s with
  | .ok p => some p
  | .error _ => none

/--
The truth of a condition; there is none if it is not one.
-/
def condition (st : State) : List String → Option Bool
  | [] => some false
  | [a] => some (a != "")
  | ["!", a] => some (a == "")
  | [op, a] =>
    match op with
    | "-n" => some (a != "")
    | "-z" => some (a == "")
    | "-e" => some (lookup? st a).isSome
    | "-f" => some ((lookup? st a).any st.files.isFile)
    | "-d" => some ((lookup? st a).any st.files.isDirectory)
    | "-r" => some (lookup? st a).isSome
    | "-w" => some (lookup? st a).isSome
    | "-x" => some ((lookup? st a).any fun p => st.files.isDirectory p || (st.files.file? p).any (·.executable))
    | "-s" => some ((lookup? st a).any fun p => (st.files.file? p).any (·.content.size > 0))
    | "-t" => some false
    | _ => none
  | [a, op, b] =>
    match op with
    | "=" | "==" => some (a == b)
    | "!=" => some (a != b)
    | "-a" => some (a != "" && b != "")
    | "-o" => some (a != "" || b != "")
    | _ =>
      match number? a, number? b with
      | some x, some y =>
        match op with
        | "-eq" => some (x == y)
        | "-ne" => some (x != y)
        | "-lt" => some (decide (x < y))
        | "-le" => some (decide (x ≤ y))
        | "-gt" => some (decide (y < x))
        | "-ge" => some (decide (y ≤ x))
        | _ => if a == "!" then unary op b else none
      | _, _ => if a == "!" then unary op b else none
  | _ => none
where
  /-- A negated condition with one operand. -/
  unary (op b : String) : Option Bool :=
    match op with
    | "-n" => some (b == "")
    | "-z" => some (b != "")
    | "-e" => some (lookup? st b).isNone
    | "-f" => some (!(lookup? st b).any st.files.isFile)
    | "-d" => some (!(lookup? st b).any st.files.isDirectory)
    | _ => none

/--
A condition of several parts.
-/
def conditions (st : State) : Nat → List String → Option Bool
  | 0, _ => none
  | fuel + 1, args =>
    match condition st args with
    | some b => some b
    | none =>
      match args with
      | "!" :: rest => (conditions st fuel rest).map (!·)
      | _ =>
        match args.findIdx? (· == "-o") with
        | some i => do
          let a ← conditions st fuel (args.take i)
          let b ← conditions st fuel (args.drop (i + 1))
          return a || b
        | none =>
          match args.findIdx? (· == "-a") with
          | some i => do
            let a ← conditions st fuel (args.take i)
            let b ← conditions st fuel (args.drop (i + 1))
            return a && b
          | none => none

/--
Test a condition.
-/
def test (st : State) (args : List String) : State :=
  match conditions st (args.length + 1) args with
  | some true => st.withStatus 0
  | some false => st.withStatus 1
  | none => (st.complain (st.name ++ ": 1: [: " ++ " ".intercalate args ++ ": unexpected operator")).withStatus 2

/--
The number that an argument is, or another one.
-/
def argument (args : List String) (default : Nat) : Nat :=
  ((args.head?.bind number?).map (fun n => (n % 256).toNat)).getD default

/--
Send a signal. Only a script that names itself is hit, and a signal of number zero hits nobody.
-/
def kill (st : State) (args : List String) : State × Flow :=
  let (signal, targets) := match args with
    | "-s" :: s :: rest => (s, rest)
    | a :: rest => if a.startsWith "-" then ((a.drop 1).toString, rest) else ("TERM", args)
    | [] => ("TERM", [])
  let self := (st.parameter? "$").getD ""
  if signal == "0" then (st.withStatus 0, .next)
  else if targets.contains self || targets.contains "0" then (st, .killed)
  else (st.withStatus 0, .next)

/--
The first line of some bytes, and what follows it.
-/
def takeLine (bs : List UInt8) : List UInt8 × List UInt8 :=
  (bs.takeWhile (· != 10), (bs.dropWhile (· != 10)).drop 1)

/--
Read a line into variables; the last one gets all that is left.
-/
def readLine (st : State) (names : List String) : State :=
  let names := names.filter (!·.startsWith "-")
  let (line, rest) := takeLine st.input
  let ended := st.input.contains 10
  let s := (String.fromUTF8? ⟨line.toArray⟩).getD ""
  let st := { st with input := rest }
  let words := Text.words s
  let st := fill st names words
  st.withStatus (if ended then 0 else 1)
where
  /-- Give names their words. -/
  fill (st : State) : List String → List String → State
    | [], _ => st
    | [n], ws => st.assign n (" ".intercalate ws)
    | n :: ns, ws => fill (st.assign n (ws.head?.getD "")) ns ws.tail

/--
The command of a name, if scripts have it.
-/
def builtin? (name : String) : Option (State → List String → State × Flow) :=
  let plain (f : State → List String → State) : Option (State → List String → State × Flow) :=
    some fun st args => (f st args, .next)
  match name with
  | ":" | "true" => plain fun st _ => st.withStatus 0
  | "false" => plain fun st _ => st.withStatus 1
  | "echo" => plain echo
  | "printf" => plain printf
  | "test" => plain test
  | "[" => plain fun st args =>
    match args.getLast? with
    | some "]" => test st args.dropLast
    | _ => (st.complain (st.name ++ ": 1: [: missing ]")).withStatus 2
  | "exit" => some fun st args =>
    match args with
    | a :: _ =>
      if a.toList.all Char.isDigit && a != "" then (st.withStatus (argument args st.status), .exit)
      else ((st.complain (st.name ++ ": 1: exit: Illegal number: " ++ a)).withStatus 2, .exit)
    | [] => (st, .exit)
  | "return" => some fun st args => (st.withStatus (argument args st.status), .back)
  | "break" => some fun st args => (st.withStatus 0, .leave false (max (argument args 1) 1))
  | "continue" => some fun st args => (st.withStatus 0, .leave true (max (argument args 1) 1))
  | "kill" => some kill
  | "shift" => plain fun st args => { st with arguments := st.arguments.drop (argument args 1), status := 0 }
  | "set" => plain fun st args =>
    match args with
    | "--" :: rest => { st with arguments := rest, status := 0 }
    | a :: _ =>
      if a.startsWith "-" then { st with strict := st.strict || a.contains 'e', status := 0 }
      else if a.startsWith "+" then { st with strict := st.strict && !a.contains 'e', status := 0 }
      else { st with arguments := args, status := 0 }
    | [] => st.withStatus 0
  | "unset" => plain fun st args =>
    { st with environment := st.environment.filter (fun v => !args.contains v.1), status := 0 }
  | "export" => plain fun st args =>
    (args.foldl (fun st a =>
      match Text.splitFirst? "=" a with
      | some (n, v) => { st.assign n v with exported := n :: st.exported }
      | none => { st with exported := a :: st.exported }) st).withStatus 0
  | "local" | "readonly" => plain fun st args =>
    (args.foldl (fun st a =>
      match Text.splitFirst? "=" a with
      | some (n, v) => st.assign n v
      | none => st) st).withStatus 0
  | "read" => plain readLine
  | "cd" => plain fun st args =>
    match lookup? st (args.head?.getD "/") with
    | some p =>
      if st.files.isDirectory p then { st with directory := p, status := 0 }
      else (st.complain (st.name ++ ": 1: cd: can't cd to " ++ args.head?.getD "")).withStatus 2
    | none => (st.complain (st.name ++ ": 1: cd: can't cd to " ++ args.head?.getD "")).withStatus 2
  | "pwd" => plain fun st _ => (st.print (st.directory.text ++ "\n")).withStatus 0
  | "wait" => some fun st _ =>
    match st.behind with
    | some t => ({ st with time := max st.time t, status := 0 }, .next)
    | none => (st, .endless)
  | "trap" | "umask" => plain fun st _ => st.withStatus 0
  | _ => none

end ApiSurface.Script
