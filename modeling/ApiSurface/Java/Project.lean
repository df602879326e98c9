import ApiSurface.Extraction.Run

/-!
This module contains the identity of a Java project, as its build files give it. The files are searched for the
few elements of interest and not read in full.
-/

namespace ApiSurface.Java

open Text

/--
The elements of a project file that speak about other projects.
-/
def foreignElements : List String :=
  ["parent", "dependencies", "dependencyManagement", "build", "profiles", "plugins"]

/--
What follows the first of some texts that occurs.
-/
def afterFirst? (texts : List (List Char)) : List Char → Option (List Char)
  | [] => none
  | c :: rest =>
    match texts.find? (fun t => t.isPrefixOf (c :: rest)) with
    | some t => some ((c :: rest).drop t.length)
    | none => afterFirst? texts rest

/--
The characters without the elements that speak about other projects. Such an element ends with the first closing
tag of any of them.
-/
def ownElements : Nat → List Char → List Char
  | 0, cs => cs
  | _ + 1, [] => []
  | fuel + 1, c :: rest =>
    let opening := foreignElements.map (fun n => ("<" ++ n ++ ">").toList)
    let closing := foreignElements.map (fun n => ("</" ++ n ++ ">").toList)
    match opening.find? (fun t => t.isPrefixOf (c :: rest)) with
    | none => c :: ownElements fuel rest
    | some t =>
      match afterFirst? closing ((c :: rest).drop t.length) with
      | none => c :: ownElements fuel rest
      | some after => ownElements fuel after

/--
The content of an element, if the characters begin with it: trimmed, and without other elements in it.
-/
def elementContent? (name : String) (cs : List Char) : Option String :=
  match afterChars? ("<" ++ name ++ ">").toList cs with
  | none => none
  | some rest =>
    let inner := rest.takeWhile (· != '<')
    if inner.isEmpty || !("</" ++ name ++ ">").toList.isPrefixOf (rest.drop inner.length) then none
    else
      let trimmed := trimChars inner
      some (String.ofList (if trimmed.isEmpty then inner.drop (inner.length - 1) else trimmed))

/--
The first result of a function at the places of a text.
-/
def firstAt? (f : List Char → Option α) : List Char → Option α
  | [] => f []
  | c :: rest =>
    match f (c :: rest) with
    | some x => some x
    | none => firstAt? f rest

/--
The project name that a settings file gives, if the characters begin with the assignment of one.
-/
def settingsName? (cs : List Char) : Option String := do
  let isQuote (c : Char) : Bool := c == '"' || c == '\''
  let rest ← afterChars? "rootProject.name".toList cs
  let rest ← afterChars? ['='] (rest.dropWhile isBlank)
  match rest.dropWhile isBlank with
  | q :: rest =>
    let name := rest.takeWhile (fun c => !isQuote c)
    if isQuote q && !name.isEmpty && name.length < rest.length then some (String.ofList name) else none
  | [] => none

/--
The name that the settings file of a project gives; the first file that exists counts.
-/
def readSettings (t : FileTree) (root : Path) : Except ProjectError (Option String) := do
  match ["settings.gradle", "settings.gradle.kts"].find? (fun n => t.isFile (root ++ [n])) with
  | none => return none
  | some n =>
    let text ← (t.read (root ++ [n])).mapError .unreadable
    return firstAt? settingsName? text.toList

/--
Read the identity of the project at a path.
-/
def loadProject (t : FileTree) (root : Path) : Except ProjectError PackageInfo := do
  let path := root ++ ["pom.xml"]
  let (name, version) ←
    if t.isFile path then do
      let text ← (t.read path).mapError .unreadable
      let own := ownElements (text.length + 1) text.toList
      pure (firstAt? (elementContent? "artifactId") own, firstAt? (elementContent? "version") own)
    else pure (none, none)
  let name ←
    match name with
    | some n => pure (some n)
    | none => readSettings t root
  return ⟨name.getD (root.getLast?.getD "project"), version⟩

end ApiSurface.Java
