import ApiSurface.Digest.Blake3
import ApiSurface.Files.Root
import ApiSurface.Files.Walk

/-!
This module contains fingerprints of source trees. A fingerprint sums up where the source files are, how large
they are and when they were changed; their contents are not read. Equal fingerprints let a caller keep what it
computed from the tree.
-/

namespace ApiSurface

/--
What a fingerprint knows of a file.
-/
structure Stamp where
  path : String
  size : UInt64
  /-- When the file was changed, in nanoseconds. -/
  modified : BitVec 128
deriving DecidableEq, Repr

namespace Stamp

/--
The bytes of a stamp: the path, a zero byte, and two numbers of fixed width.
-/
def bytes (s : Stamp) : List UInt8 :=
  s.path.toUTF8.toList ++ [0] ++ Bytes.littleEndian 8 s.size.toNat ++ Bytes.littleEndian 16 s.modified.toNat

/--
The order of stamps: by path, then by size, then by time.
-/
def le (a b : Stamp) : Bool :=
  if a.path != b.path then decide (a.path < b.path)
  else if a.size != b.size then decide (a.size < b.size)
  else decide (a.modified ≤ b.modified)

/--
The stamp of a file. A time before the epoch counts as the epoch.
-/
def ofFile (relative : Path) (f : File) : Stamp :=
  { path := relative.relativeText
    size := UInt64.ofNat f.content.size
    modified := BitVec.ofNat 128 f.modified.toNat }

/--
The bytes that stand for some stamps, whatever order they come in.
-/
def encode (stamps : List Stamp) : List UInt8 :=
  (stamps.mergeSort le).flatMap bytes

end Stamp

/--
A fingerprint.
-/
inductive Fingerprint where
  /-- There is no file to look at. -/
  | empty
  | digest (bytes : List UInt8)
deriving DecidableEq, Repr

namespace Fingerprint

/--
The text of a fingerprint.
-/
def text : Fingerprint → String
  | empty => "empty"
  | digest bytes => Bytes.hexText bytes

/--
Whether there was no file to look at.
-/
def isEmpty : Fingerprint → Bool
  | empty => true
  | digest _ => false

/--
The fingerprint of stamped files.
-/
def ofStamps (stamps : List Stamp) : Fingerprint :=
  if stamps.isEmpty then empty else digest (Blake3.digest (Stamp.encode stamps))

/--
Whether a file has one of the extensions. Case does not count, nor do dots in front of a wanted extension.
-/
def hasExtension (wanted : List String) (relative : Path) : Bool :=
  (Path.extension? relative.fileName).any fun e =>
    (wanted.map (fun w => (Text.dropStarts "." w).toLower)).contains e.toLower

/--
The stamps of the files below a directory that have one of the extensions.
-/
def stamps (t : FileTree) (root : Path) (extensions : List String) (excludes : List Pattern) : List Stamp :=
  ((t.walk root excludes).filter (fun e => hasExtension extensions e.1)).map (fun e => Stamp.ofFile e.1 e.2)

/--
The fingerprint of the directory that a text means.
-/
def compute (t : FileTree) (cwd : Path) (target : String) (extensions excludes : List String) :
    Except PathError Fingerprint :=
  match t.locate cwd target with
  | .ok root =>
    if t.isDirectory root then .ok (ofStamps (stamps t root extensions (patternsOf excludes)))
    else .error (.notDirectory target)
  | .error _ => .error (.notDirectory target)

end Fingerprint

end ApiSurface
