import ApiSurface.Text.Cut

/-!
This module contains exclusion patterns. A pattern speaks about paths relative to a project: a star and a
question mark stand for characters of one name, two stars for any directories, and brackets and braces offer a
choice. A pattern with a slash in it has to fit the whole path, any other one may fit below any directory.
-/

namespace ApiSurface

/--
A part of a pattern. Patterns are matched against the bytes of a path.
-/
inductive PatternPart where
  /-- A byte from one of the ranges, or from none of them. -/
  | one (negated : Bool) (ranges : List (UInt8 × UInt8))
  /-- Any bytes of a name. -/
  | name
  /-- Any directories, also none. -/
  | directories
  /-- The rest of a directory's name, and any directories. -/
  | inDirectory
  /-- Any bytes. -/
  | anything
deriving Repr

namespace PatternPart

/--
The byte of a slash.
-/
def slash : UInt8 := 47

/--
Whether a byte is one that the ranges allow.
-/
def allows (negated : Bool) (ranges : List (UInt8 × UInt8)) (b : UInt8) : Bool :=
  ranges.any (fun (low, high) => low ≤ b && b ≤ high) != negated

/--
Whether parts fit bytes from the first to the last.
-/
def fits : List PatternPart → List UInt8 → Bool
  | [], bs => bs.isEmpty
  | .one negated ranges :: ps, bs =>
    match bs with
    | [] => false
    | b :: bs => allows negated ranges b && fits ps bs
  | .name :: ps, bs =>
    fits ps bs ||
      match bs with
      | [] => false
      | b :: bs => b != slash && fits (.name :: ps) bs
  | .directories :: ps, bs =>
    fits ps bs ||
      match bs with
      | [] => false
      | b :: bs => if b == slash then fits (.directories :: ps) bs else fits (.inDirectory :: ps) bs
  | .inDirectory :: ps, bs =>
    match bs with
    | [] => false
    | b :: bs => if b == slash then fits (.directories :: ps) bs else fits (.inDirectory :: ps) bs
  | .anything :: ps, bs =>
    fits ps bs ||
      match bs with
      | [] => false
      | _ :: bs => fits (.anything :: ps) bs
termination_by ps bs => (bs.length, ps.length)

/--
The parts that fit exactly a character.
-/
def ofChar (c : Char) : List PatternPart :=
  (String.singleton c).toUTF8.toList.map (fun b => .one false [(b, b)])

/--
One byte that is no slash.
-/
def anyOfName : PatternPart :=
  .one true [(slash, slash)]

end PatternPart

namespace Pattern

open PatternPart

/--
The first byte of a character.
-/
def firstByte (c : Char) : UInt8 :=
  ((String.singleton c).toUTF8.toList.head?).getD 0

/--
What an opening bracket begins.
-/
inductive Bracket where
  /-- A choice of characters in ranges, and what follows it. -/
  | choice (ranges : List (Char × Char)) (rest : List Char)
  /-- Nothing: no bracket closes it. -/
  | unclosed
  /-- A range that ends before it begins. -/
  | backwards

/--
The choice between brackets, whose opening one is behind. A dash between two characters makes a range of them.
-/
def bracket (first inRange : Bool) (acc : List (Char × Char)) : List Char → Bracket
  | [] => .unclosed
  | c :: rest =>
    if c == ']' && !first then .choice (if inRange then acc ++ [('-', '-')] else acc) rest
    else if c == '-' && !first && !inRange then bracket false true acc rest
    else
      match acc.getLast?, inRange with
      | some (low, _), true => if low ≤ c then bracket false false (acc.dropLast ++ [(low, c)]) rest else .backwards
      | _, _ => bracket false false (acc ++ [(c, c)]) rest

/--
Whether a mark of negation follows a bracket, and what follows that.
-/
def negation (cs : List Char) : Bool × List Char :=
  match cs with
  | '!' :: rest => (true, rest)
  | '^' :: rest => (true, rest)
  | _ => (false, cs)

/--
The parts of a pattern without braces. `start` says that nothing precedes, `afterSlash` that a slash does.
There are none if a backslash stands at the end or a range is backwards.
-/
def parts : Nat → Bool → Bool → List Char → Option (List PatternPart)
  | 0, _, _, _ => some []
  | _ + 1, _, _, [] => some []
  | fuel + 1, start, afterSlash, cs =>
    match cs with
    | [] => some []
    | '\\' :: rest =>
      match rest with
      | [] => none
      | c :: rest => (parts fuel false (c == '/') rest).map (ofChar c ++ ·)
    | '?' :: rest => (parts fuel false false rest).map (anyOfName :: ·)
    | '[' :: rest =>
      let (negated, inner) := negation rest
      match bracket true false [] inner with
      | .choice rs rest =>
        let p := PatternPart.one negated (rs.map (fun (low, high) => (firstByte low, firstByte high)))
        (parts fuel false false rest).map (p :: ·)
      | .unclosed => (parts fuel false false rest).map (ofChar '[' ++ ·)
      | .backwards => none
    | '*' :: '*' :: rest =>
      if start || afterSlash then
        match rest with
        | [] => some [.anything]
        | '/' :: rest => (parts fuel false true rest).map (.directories :: ·)
        | _ => (parts fuel false false rest).map (.name :: ·)
      else (parts fuel false false rest).map (.name :: ·)
    | '*' :: rest => (parts fuel false false rest).map (.name :: ·)
    | c :: rest => (parts fuel false (c == '/') rest).map (ofChar c ++ ·)

/--
The texts that braces stand for: one for every choice. The arguments are the depth of open braces, the
alternatives of the innermost brace so far, and the characters. There are none if braces do not match.
-/
def alternatives : Nat → List Char → Option (List (List Char))
  | 0, _ => none
  | fuel + 1, cs =>
    match cs with
    | [] => some [[]]
    | '\\' :: c :: rest => (alternatives fuel rest).map (·.map (fun t => '\\' :: c :: t))
    | '\x7b' :: rest =>
      match choices 0 [] [] rest with
      | none => none
      | some (options, rest) =>
        match options.mapM (alternatives fuel), alternatives fuel rest with
        | some options, some tails =>
          let options := options.flatten.filter (fun o => !o.isEmpty)
          let options := if options.isEmpty then [[]] else options
          some (options.flatMap (fun o => tails.map (o ++ ·)))
        | _, _ => none
    | '\x7d' :: _ => none
    | c :: rest => (alternatives fuel rest).map (·.map (c :: ·))
where
  /-- The options of a brace, whose opening one is behind, and what follows it. -/
  choices (depth : Nat) (done : List (List Char)) (current : List Char) :
      List Char → Option (List (List Char) × List Char)
    | [] => none
    | [c] => if c == '\x7d' && depth == 0 then some ((current.reverse :: done).reverse, []) else none
    | c :: d :: rest =>
      if c == '\\' then choices depth done (d :: '\\' :: current) rest
      else if c == '\x7b' then choices (depth + 1) done (c :: current) (d :: rest)
      else if c == '\x7d' then
        match depth with
        | 0 => some ((current.reverse :: done).reverse, d :: rest)
        | depth + 1 => choices depth done (c :: current) (d :: rest)
      else if c == ',' && depth == 0 then choices depth (current.reverse :: done) [] (d :: rest)
      else choices depth done (c :: current) (d :: rest)

end Pattern

/--
An exclusion pattern.
-/
structure Pattern where
  /-- The pattern takes paths back that an earlier one excludes. -/
  keeps : Bool := false
  onlyDirectories : Bool := false
  choices : List (List PatternPart)
deriving Repr

namespace Pattern

/--
Read a pattern from a line. Blank lines, lines after a hash and lines that are no pattern give none.
-/
def ofLine? (line : String) : Option Pattern :=
  if line.startsWith "#" then none
  else
    let line := if line.endsWith "\\ " then line else Text.trimEnd line
    if line == "" then none
    else
      let escaped := line.startsWith "\\!" || line.startsWith "\\#"
      let keeps := !escaped && line.startsWith "!"
      let line := if escaped || keeps then (line.drop 1).toString else line
      let anchored := line.startsWith "/"
      let line := if anchored && !escaped then (line.drop 1).toString else line
      let onlyDirectories := line.endsWith "/"
      let line := if onlyDirectories then Text.dropLast "\\" (Text.dropLast "/" line) else line
      let anywhere := !anchored && !Text.contains line "/" && line != "**"
      let full := if anywhere then "**/" ++ line else line
      let full := if full.endsWith "/**" then full ++ "/*" else full
      let cs := full.toList
      match alternatives (cs.length + 1) cs with
      | none => none
      | some options =>
        (options.mapM (fun o => parts (o.length + 1) true false o)).map fun choices =>
          { keeps := keeps, onlyDirectories := onlyDirectories, choices := choices }

/--
Whether a pattern speaks about a path.
-/
def matchesPath (p : Pattern) (relative : String) (isDirectory : Bool) : Bool :=
  (isDirectory || !p.onlyDirectories) &&
    p.choices.any (fun parts => PatternPart.fits parts relative.toUTF8.toList)

/--
Whether some patterns exclude a path: the last one that speaks about it decides.
-/
def excludes (ps : List Pattern) (relative : String) (isDirectory : Bool) : Bool :=
  match ps.reverse.find? (fun p => p.matchesPath relative isDirectory) with
  | some p => !p.keeps
  | none => false

end Pattern

end ApiSurface
