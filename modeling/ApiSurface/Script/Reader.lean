import ApiSurface.Script.Tree
import ApiSurface.Text.Cut

/-!
This module contains the reading of scripts. Readers work on the characters that are left and give none if what
stands there is no script.
-/

namespace ApiSurface.Script

/--
The characters that are left, and the line they start on.
-/
structure Source where
  rest : List Char
  line : Nat := 1

namespace Source

/--
The source behind its first character.
-/
def tail (s : Source) : Source :=
  match s.rest with
  | [] => s
  | c :: rest => { rest := rest, line := if c == '\n' then s.line + 1 else s.line }

/--
The source behind some of its first characters.
-/
def drop (s : Source) : Nat → Source
  | 0 => s
  | n + 1 => s.tail.drop n

/--
Whether the source starts with a text.
-/
def startsWith (s : Source) (start : String) : Bool :=
  (Text.afterChars? start.toList s.rest).isSome

end Source

/--
Whether a character ends a word that is not quoted.
-/
def endsWord (c : Char) : Bool :=
  [' ', '\t', '\n', ';', '&', '|', '<', '>', '(', ')'].contains c

/--
Whether a character may be in a name.
-/
def isNameChar (c : Char) : Bool :=
  c.isAlphanum || c == '_'

/--
Whether a text is a name.
-/
def isName (s : String) : Bool :=
  match s.toList with
  | [] => false
  | c :: rest => isNameChar c && !c.isDigit && rest.all isNameChar

/--
The parameters that are written as one sign.
-/
def isSign (c : Char) : Bool :=
  ['@', '*', '#', '?', '-', '$', '!'].contains c || c.isDigit

/--
Skip blanks, continued lines and comments, and line ends as well if `lines` says so.
-/
def skipBlanks (lines : Bool) : Nat → Source → Source
  | 0, s => s
  | fuel + 1, s =>
    match s.rest with
    | c :: rest =>
      if c == ' ' || c == '\t' || (lines && c == '\n') then skipBlanks lines fuel s.tail
      else if c == '\\' && rest.head? == some '\n' then skipBlanks lines fuel (s.drop 2)
      else if c == '#' then
        skipBlanks lines fuel { s with rest := s.rest.dropWhile (· != '\n') }
      else s
    | [] => s

/--
The source behind blanks.
-/
def Source.skip (s : Source) : Source :=
  skipBlanks false (s.rest.length + 1) s

/--
The source behind blanks and line ends.
-/
def Source.skipLines (s : Source) : Source :=
  skipBlanks true (s.rest.length + 1) s

/--
The word of the language that stands first, if the characters up to the end of the word are exactly it.
-/
def keyword (s : Source) : String :=
  String.ofList (s.rest.takeWhile (fun c => !endsWord c))

/--
The words that no command starts with, because they continue or end another one.
-/
def closers : List String :=
  ["then", "else", "elif", "fi", "do", "done", "esac", "\x7d"]

/--
Read a word of the language.
-/
def expect (word : String) (s : Source) : Option Source :=
  let s := s.skipLines
  if keyword s == word then some (s.drop word.length) else none

/--
Read characters up to a single quote.
-/
def quotedText (s : Source) : Option (String × Source) :=
  let inside := s.rest.takeWhile (· != '\'')
  let s := s.drop inside.length
  if s.rest.isEmpty then none else some (String.ofList inside, s.tail)

/--
Put two runs of characters together if they are quoted alike.
-/
def joinText (p : Piece) (ps : List Piece) : List Piece :=
  match p, ps with
  | .text q s, .text r t :: rest => if q == r then .text q (s ++ t) :: rest else p :: ps
  | _, _ => p :: ps

/--
The form of a parameter that has a word behind its name within braces, and how many characters say so.
-/
def formOf (quoted : Bool) (name : String) (cs : List Char) : Option (Nat × (List Piece → Piece)) :=
  match cs with
  | ':' :: '-' :: _ => some (2, .valueOr quoted name true)
  | '-' :: _ => some (1, .valueOr quoted name false)
  | ':' :: '=' :: _ => some (2, .valueSet quoted name true)
  | '=' :: _ => some (1, .valueSet quoted name false)
  | ':' :: '+' :: _ => some (2, .wordIf quoted name true)
  | '+' :: _ => some (1, .wordIf quoted name false)
  | '#' :: '#' :: _ => some (2, .trimmed quoted name false true)
  | '#' :: _ => some (1, .trimmed quoted name false false)
  | '%' :: '%' :: _ => some (2, .trimmed quoted name true true)
  | '%' :: _ => some (1, .trimmed quoted name true false)
  | _ => none

mutual

/--
Read the parts of a word. Within double quotes (`inside`), the word ends at a double quote; within braces
(`braced`), it ends at a brace; otherwise it ends at a character that ends words.
-/
def pieces (fuel : Nat) (inside braced : Bool) (s : Source) : Option (List Piece × Source) :=
  match fuel with
  | 0 => none
  | fuel + 1 =>
    match s.rest with
    | [] => if inside || braced then none else some ([], s)
    | c :: rest =>
      if braced && c == '\x7d' then some ([], s)
      else if inside && !braced && c == '"' then some ([], s)
      else if !inside && !braced && endsWord c then some ([], s)
      else if c == '\\' then
        match rest with
        | [] => some ([.text true "\\"], s.tail)
        | '\n' :: _ => pieces fuel inside braced (s.drop 2)
        | d :: _ => do
          let text := if inside && !(['$', '\x60', '"', '\\'].contains d) then String.ofList ['\\', d] else d.toString
          let (ps, s) ← pieces fuel inside braced (s.drop 2)
          return (joinText (.text true text) ps, s)
      else if c == '\'' && !inside then do
        let (text, s) ← quotedText s.tail
        let (ps, s) ← pieces fuel inside braced s
        return (joinText (.text true text) ps, s)
      else if c == '"' then
        if inside then do
          let (ps, s) ← pieces fuel inside braced s.tail
          return (ps, s)
        else do
          let (inner, s) ← pieces fuel true false s.tail
          let (ps, s) ← pieces fuel inside braced s.tail
          return (joinText (.text true "") inner ++ ps, s)
      else if c == '$' then do
        let (p, s) ← parameter fuel inside s.tail
        let (ps, s) ← pieces fuel inside braced s
        return (joinText p ps, s)
      else if c == '\x60' then do
        let body := rest.takeWhile (· != '\x60')
        let (cs, _) ← commands fuel { rest := body, line := s.line }
        let (ps, s) ← pieces fuel inside braced (s.drop (body.length + 2))
        return (.output inside cs :: ps, s)
      else do
        let (ps, s) ← pieces fuel inside braced s.tail
        return (joinText (.text inside c.toString) ps, s)

/--
Read what follows a dollar sign.
-/
def parameter (fuel : Nat) (quoted : Bool) (s : Source) : Option (Piece × Source) :=
  match fuel with
  | 0 => none
  | fuel + 1 =>
    match s.rest with
    | '(' :: '(' :: _ => do
      let (ps, s) ← sumPieces fuel 0 (s.drop 2)
      return (.sum quoted ps, s)
    | '(' :: _ => do
      let (cs, s) ← commands fuel s.tail
      let s := s.skipLines
      if s.rest.head? == some ')' then return (.output quoted cs, s.tail) else none
    | '\x7b' :: '#' :: rest =>
      let name := rest.takeWhile (fun c => isNameChar c || isSign c)
      let s := s.drop (2 + name.length)
      if s.rest.head? == some '\x7d' then
        if name.isEmpty then some (.value quoted "#", s.tail) else some (.size quoted (String.ofList name), s.tail)
      else none
    | '\x7b' :: rest =>
      let name := match rest with
        | c :: _ => if isSign c && !c.isDigit then [c] else rest.takeWhile isNameChar
        | [] => []
      let s := s.drop (1 + name.length)
      if name.isEmpty then none
      else if s.rest.head? == some '\x7d' then some (.value quoted (String.ofList name), s.tail)
      else
        match formOf quoted (String.ofList name) s.rest with
        | none => none
        | some (width, form) => do
          let (ps, s) ← pieces fuel quoted true (s.drop width)
          return (form ps, s.tail)
    | c :: rest =>
      if isSign c then some (.value quoted c.toString, s.tail)
      else if isNameChar c then
        let name := c :: rest.takeWhile isNameChar
        some (.value quoted (String.ofList name), s.drop name.length)
      else some (.text quoted "$", s)
    | [] => some (.text quoted "$", s)

/--
Read a sum up to its two closing parentheses; `depth` counts those that are open inside.
-/
def sumPieces (fuel : Nat) (depth : Nat) (s : Source) : Option (List Piece × Source) :=
  match fuel with
  | 0 => none
  | fuel + 1 =>
    match s.rest with
    | [] => none
    | ')' :: rest =>
      match depth with
      | 0 => if rest.head? == some ')' then some ([], s.drop 2) else none
      | depth + 1 => do
        let (ps, s) ← sumPieces fuel depth s.tail
        return (joinText (.text true ")") ps, s)
    | '(' :: _ => do
      let (ps, s) ← sumPieces fuel (depth + 1) s.tail
      return (joinText (.text true "(") ps, s)
    | '$' :: _ => do
      let (p, s) ← parameter fuel true s.tail
      let (ps, s) ← sumPieces fuel depth s
      return (joinText p ps, s)
    | c :: _ => do
      let (ps, s) ← sumPieces fuel depth s.tail
      return (joinText (.text true c.toString) ps, s)

/--
Read words up to the end of a command.
-/
def wordList (fuel : Nat) (s : Source) : Option (List Word × Source) :=
  match fuel with
  | 0 => none
  | fuel + 1 =>
    let s := s.skip
    match s.rest with
    | [] => some ([], s)
    | c :: _ =>
      if endsWord c then some ([], s)
      else do
        let (w, s) ← pieces fuel false false s
        let (ws, s) ← wordList fuel s
        return (w :: ws, s)

/--
Read a redirection, if one stands here. The first part of the answer says whether one does.
-/
def redirect (fuel : Nat) (s : Source) : Option (Option Redirect × Source) :=
  match fuel with
  | 0 => none
  | fuel + 1 =>
    let digits := s.rest.takeWhile Char.isDigit
    let after := s.drop digits.length
    let number := digits.foldl (fun n d => n * 10 + (d.toNat - 48)) 0
    let isInput := after.rest.head? == some '<'
    let isOutput := after.rest.head? == some '>'
    if !isInput && !isOutput then some (none, s)
    else
      let number := if !digits.isEmpty then number else if isInput then 0 else 1
      if after.startsWith "<<" then none
      else if after.startsWith ">&" || after.startsWith "<&" then
        let start := (after.drop 2).skip
        let target := start.rest.takeWhile Char.isDigit
        if target.isEmpty then
          if start.rest.head? == some '-' then
            some (some (.file number false [.text true "/dev/null"]), start.tail)
          else none
        else
          some (some (.stream number (target.foldl (fun n d => n * 10 + (d.toNat - 48)) 0)), start.drop target.length)
      else
        let appends := after.startsWith ">>"
        let start := (after.drop (if appends || after.startsWith ">|" then 2 else 1)).skip
        do
          let (w, s) ← pieces fuel false false start
          if w.isEmpty then none
          else if isInput then return (some (.input w), s)
          else return (some (.file number appends w), s)

/--
Read redirections.
-/
def redirects (fuel : Nat) (s : Source) : Option (List Redirect × Source) :=
  match fuel with
  | 0 => none
  | fuel + 1 => do
    let (r, s) ← redirect fuel s.skip
    match r with
    | none => return ([], s)
    | some r =>
      let (rs, s) ← redirects fuel s
      return (r :: rs, s)

/--
Read the rest of a simple command: assignments, words and redirections in any order.
-/
def simpleParts (fuel : Nat) (s : Source) :
    Option (List (String × Word) × List Word × List Redirect × Source) :=
  match fuel with
  | 0 => none
  | fuel + 1 => do
    let s := s.skip
    let (r, s) ← redirect fuel s
    match r with
    | some r =>
      let (as, ws, rs, s) ← simpleParts fuel s
      return (as, ws, r :: rs, s)
    | none =>
      match s.rest with
      | [] => return ([], [], [], s)
      | c :: _ =>
        if endsWord c then return ([], [], [], s)
        else
          let name := s.rest.takeWhile isNameChar
          if isName (String.ofList name) && (s.drop name.length).rest.head? == some '=' then
            let (w, t) ← pieces fuel false false (s.drop (name.length + 1))
            let (as, ws, rs, t) ← simpleParts fuel t
            return ((String.ofList name, w) :: as, ws, rs, t)
          else
            let (w, s) ← pieces fuel false false s
            let (ws, rs, s) ← plainParts fuel s
            return ([], w :: ws, rs, s)

/--
Read the words and redirections of a simple command behind its first word.
-/
def plainParts (fuel : Nat) (s : Source) : Option (List Word × List Redirect × Source) :=
  match fuel with
  | 0 => none
  | fuel + 1 => do
    let (r, s) ← redirect fuel s.skip
    match r with
    | some r =>
      let (ws, rs, s) ← plainParts fuel s
      return (ws, r :: rs, s)
    | none =>
      match s.rest with
      | [] => return ([], [], s)
      | c :: _ =>
        if endsWord c then return ([], [], s)
        else
          let (w, s) ← pieces fuel false false s
          let (ws, rs, s) ← plainParts fuel s
          return (w :: ws, rs, s)

/--
Read the branches of a choice behind its first word.
-/
def branches (fuel : Nat) (s : Source) :
    Option (List (List Command × List Command) × List Command × Source) :=
  match fuel with
  | 0 => none
  | fuel + 1 => do
    let (test, s) ← commands fuel s
    let s ← expect "then" s
    let (body, s) ← commands fuel s
    let s := s.skipLines
    if keyword s == "elif" then
      let (more, last, s) ← branches fuel (s.drop 4)
      return ((test, body) :: more, last, s)
    else if keyword s == "else" then
      let (last, s) ← commands fuel (s.drop 4)
      let s ← expect "fi" s
      return ([(test, body)], last, s)
    else
      let s ← expect "fi" s
      return ([(test, body)], [], s)

/--
Read the patterns of a branch.
-/
def patterns (fuel : Nat) (s : Source) : Option (List Word × Source) :=
  match fuel with
  | 0 => none
  | fuel + 1 => do
    let (w, s) ← pieces fuel false false s.skip
    let s := s.skip
    match s.rest with
    | '|' :: _ =>
      let (ws, s) ← patterns fuel s.tail
      return (w :: ws, s)
    | ')' :: _ => return ([w], s.tail)
    | _ => none

/--
Read the branches of a selection.
-/
def selection (fuel : Nat) (s : Source) : Option (List (List Word × List Command) × Source) :=
  match fuel with
  | 0 => none
  | fuel + 1 =>
    let s := s.skipLines
    if keyword s == "esac" then some ([], s.drop 4)
    else do
      let s := if s.rest.head? == some '(' then s.tail else s
      let (ws, s) ← patterns fuel s
      let (body, s) ← commands fuel s
      let s := s.skipLines
      if s.startsWith ";;" then
        let (more, s) ← selection fuel (s.drop 2)
        return ((ws, body) :: more, s)
      else
        let s ← expect "esac" s
        return ([(ws, body)], s)

/--
Read a command without what may follow it.
-/
def single (fuel : Nat) (s : Source) : Option (Command × Source) :=
  match fuel with
  | 0 => none
  | fuel + 1 =>
    let s := s.skip
    let word := keyword s
    let line := s.line
    if closers.contains word then none
    else if s.rest.head? == some '(' then do
      let (cs, s) ← commands fuel s.tail
      let s := s.skipLines
      if s.rest.head? == some ')' then return (.apart cs, s.tail) else none
    else if word == "\x7b" then do
      let (cs, s) ← commands fuel s.tail
      let s ← expect "\x7d" s
      return (.group cs, s)
    else if word == "if" then do
      let (bs, last, s) ← branches fuel (s.drop 2)
      return (.choose bs last, s)
    else if word == "while" || word == "until" then do
      let (test, s) ← commands fuel (s.drop 5)
      let s ← expect "do" s
      let (body, s) ← commands fuel s
      let s ← expect "done" s
      return (.loop (word == "while") test body, s)
    else if word == "for" then do
      let s := (s.drop 3).skip
      let name := keyword s
      if !isName name then none
      else
        let s := (s.drop name.length).skipLines
        let (words, s) ←
          if keyword s == "in" then do
            let (ws, s) ← wordList fuel (s.drop 2)
            pure (some ws, s)
          else pure (none, s)
        let s := s.skip
        let s := if s.rest.head? == some ';' then s.tail else s
        let s ← expect "do" s
        let (body, s) ← commands fuel s
        let s ← expect "done" s
        return (.each name words body, s)
    else if word == "case" then do
      let (w, s) ← pieces fuel false false (s.drop 4).skip
      let s ← expect "in" s
      let (bs, s) ← selection fuel s
      return (.select w bs, s)
    else if isName word && ((s.drop word.length).skip).startsWith "()" then do
      let s := ((s.drop word.length).skip).drop 2
      let (body, s) ← whole fuel s.skipLines
      return (.define word body, s)
    else do
      let (as, ws, rs, s) ← simpleParts fuel s
      if as.isEmpty && ws.isEmpty && rs.isEmpty then none
      else
        let c := Command.simple line as ws
        return (if rs.isEmpty then c else .redirected c rs, s)

/--
Read a command with its redirections.
-/
def whole (fuel : Nat) (s : Source) : Option (Command × Source) :=
  match fuel with
  | 0 => none
  | fuel + 1 => do
    let (c, s) ← single fuel s
    let (rs, s) ← redirects fuel s
    return (if rs.isEmpty then c else .redirected c rs, s)

/--
Read commands that are joined by pipes.
-/
def pipeline (fuel : Nat) (s : Source) : Option (Command × Source) :=
  match fuel with
  | 0 => none
  | fuel + 1 =>
    let s := s.skip
    if keyword s == "!" then do
      let (c, s) ← pipeline fuel s.tail
      return (.negated c, s)
    else do
      let (c, s) ← whole fuel s
      pipes fuel c s

/--
Read what is behind a pipe.
-/
def pipes (fuel : Nat) (first : Command) (s : Source) : Option (Command × Source) :=
  match fuel with
  | 0 => none
  | fuel + 1 =>
    let s := s.skip
    match s.rest with
    | '|' :: '|' :: _ => some (first, s)
    | '|' :: _ => do
      let (c, s) ← whole fuel s.tail.skipLines
      pipes fuel (.piped first c) s
    | _ => some (first, s)

/--
Read commands that depend on the success of those before them.
-/
def chain (fuel : Nat) (first : Option Command) (joins : Command → Command → Command) (s : Source) :
    Option (Command × Source) :=
  match fuel with
  | 0 => none
  | fuel + 1 => do
    let (c, s) ← pipeline fuel s
    let c := match first with
      | some f => joins f c
      | none => c
    let s := s.skip
    if s.startsWith "&&" then chain fuel (some c) .andThen (s.drop 2).skipLines
    else if s.startsWith "||" then chain fuel (some c) .orElse (s.drop 2).skipLines
    else return (c, s)

/--
Read commands up to one that no command can start with.
-/
def commands (fuel : Nat) (s : Source) : Option (List Command × Source) :=
  match fuel with
  | 0 => none
  | fuel + 1 =>
    let s := s.skipLines
    if s.rest.isEmpty || s.rest.head? == some ')' || s.startsWith ";;" || closers.contains (keyword s) then
      some ([], s)
    else do
      let (c, s) ← chain fuel none .andThen s
      let s := s.skip
      match s.rest with
      | '&' :: _ =>
        let (cs, s) ← commands fuel s.tail
        return (.background c :: cs, s)
      | ';' :: ';' :: _ => return ([c], s)
      | ';' :: _ =>
        let (cs, s) ← commands fuel s.tail
        return (c :: cs, s)
      | '\n' :: _ =>
        let (cs, s) ← commands fuel s
        return (c :: cs, s)
      | _ => return ([c], s)

end

/--
Read a script.
-/
def read? (text : String) : Option (List Command) :=
  let cs := text.toList
  match commands (8 * cs.length + 64) { rest := cs } with
  | some (script, s) => if s.skipLines.rest.isEmpty then some script else none
  | none => none

end ApiSurface.Script
