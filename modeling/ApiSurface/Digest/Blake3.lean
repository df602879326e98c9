import ApiSurface.Digest.Bytes

/-!
This module contains the BLAKE3 digest. The input is cut into chunks of sixteen blocks; each chunk is compressed
block by block, and the chunks are joined in pairs until one is left, whose last compression gives the digest.
-/

namespace ApiSurface.Blake3

/--
Eight words: the state that one compression hands to the next.
-/
abbrev Chain := Vector UInt32 8

/--
Sixteen words: a block of input, or the state inside a compression.
-/
abbrev Block := Vector UInt32 16

/--
The words that every digest starts from.
-/
def start : Chain :=
  #v[0x6A09E667, 0xBB67AE85, 0x3C6EF372, 0xA54FF53A, 0x510E527F, 0x9B05688C, 0x1F83D9AB, 0x5BE0CD19]

/--
Where the words of a block stand in the next round.
-/
def permutation : Vector (Fin 16) 16 :=
  #v[2, 6, 3, 10, 7, 0, 4, 13, 1, 11, 12, 5, 9, 14, 15, 8]

/--
The words of a block in their order for the next round.
-/
def permute (b : Block) : Block :=
  permutation.map (fun i => b[i])

/--
Turn a word to the right.
-/
def rotate (w amount : UInt32) : UInt32 :=
  (w >>> amount) ||| (w <<< (32 - amount))

/--
Mix two words of the block into four words of the state.
-/
def mix (s : Block) (a b c d : Fin 16) (x y : UInt32) : Block :=
  let wa := s[a] + s[b] + x
  let wd := rotate (s[d] ^^^ wa) 16
  let wc := s[c] + wd
  let wb := rotate (s[b] ^^^ wc) 12
  let wa := wa + wb + y
  let wd := rotate (wd ^^^ wa) 8
  let wc := wc + wd
  let wb := rotate (wb ^^^ wc) 7
  (((s.set a.val wa a.isLt).set b.val wb b.isLt).set c.val wc c.isLt).set d.val wd d.isLt

/--
One round: the columns of the state, then its diagonals.
-/
def round (s m : Block) : Block :=
  let s := mix s 0 4 8 12 m[0] m[1]
  let s := mix s 1 5 9 13 m[2] m[3]
  let s := mix s 2 6 10 14 m[4] m[5]
  let s := mix s 3 7 11 15 m[6] m[7]
  let s := mix s 0 5 10 15 m[8] m[9]
  let s := mix s 1 6 11 12 m[10] m[11]
  let s := mix s 2 7 8 13 m[12] m[13]
  mix s 3 4 9 14 m[14] m[15]

/--
Some rounds, with the block reordered between them.
-/
def rounds : Nat → Block → Block → Block
  | 0, s, _ => s
  | n + 1, s, m => rounds n (round s m) (permute m)

/--
What the parts of the input are marked with.
-/
inductive Mark where
  | chunkStart
  | chunkEnd
  | parent
  | root
deriving DecidableEq, Repr

/--
The bit of a mark.
-/
def Mark.bit : Mark → UInt32
  | chunkStart => 1
  | chunkEnd => 2
  | parent => 4
  | root => 8

/--
A compression that is still to be done.
-/
structure Node where
  chain : Chain
  block : Block
  /-- The number of the chunk. -/
  counter : Nat := 0
  /-- How many bytes of the block are input. -/
  length : Nat := 64
  marks : List Mark

namespace Node

/--
Do the compression; the first half of the state is folded into the second half.
-/
def compress (n : Node) : Chain :=
  let flags := n.marks.foldl (fun f m => f ||| m.bit) 0
  let s : Block := n.chain ++
    #v[start[0], start[1], start[2], start[3], UInt32.ofNat n.counter, UInt32.ofNat (n.counter / Nat.pow 2 32),
      UInt32.ofNat n.length, flags]
  let s := rounds 7 s n.block
  Vector.ofFn (fun i : Fin 8 => s[i.val] ^^^ s[i.val + 8])

/--
The node above two others.
-/
def join (left right : Node) : Node :=
  { chain := start, block := left.compress ++ right.compress, marks := [.parent] }

end Node

/--
The words of a block of at most 64 bytes; missing bytes are zero.
-/
def blockOf (bs : List UInt8) : Block :=
  Vector.ofFn (fun i : Fin 16 => UInt32.ofNat (Bytes.littleEndianValue ((bs.drop (4 * i.val)).take 4)))

/--
Compress the blocks of a chunk up to the last one, which stays to be done. The first argument bounds the number
of blocks.
-/
def chunkNode : Nat → Nat → Bool → Chain → List UInt8 → Node
  | 0, counter, _, chain, _ => { chain := chain, block := blockOf [], counter := counter, marks := [] }
  | fuel + 1, counter, first, chain, bs =>
    let block := bs.take 64
    let rest := bs.drop 64
    let marks := if first then [.chunkStart] else []
    let node : Node :=
      { chain := chain, block := blockOf block, counter := counter, length := block.length, marks := marks }
    if rest.isEmpty then { node with marks := marks ++ [.chunkEnd] }
    else chunkNode fuel counter false node.compress rest

/--
The nodes of the chunks of an input. An empty input has one empty chunk.
-/
def chunkNodes : Nat → Nat → List UInt8 → List Node
  | 0, _, _ => []
  | fuel + 1, counter, bs =>
    let rest := bs.drop 1024
    chunkNode 16 counter true start (bs.take 1024) ::
      if rest.isEmpty then [] else chunkNodes fuel (counter + 1) rest

/--
Join neighbours; one without a neighbour stays.
-/
def pairs : List Node → List Node
  | a :: b :: rest => a.join b :: pairs rest
  | ns => ns

/--
Join nodes until one is left. The first argument bounds the number of levels.
-/
def top : Nat → List Node → Option Node
  | _, [] => none
  | _, [n] => some n
  | 0, n :: _ => some n
  | fuel + 1, ns => top fuel (pairs ns)

/--
The digest of bytes.
-/
def digest (bs : List UInt8) : List UInt8 :=
  match top bs.length (chunkNodes (bs.length / 1024 + 1) 0 bs) with
  | none => []
  | some n =>
    let last : Node := { n with counter := 0, marks := n.marks ++ [Mark.root] }
    last.compress.toList.flatMap (fun w => Bytes.littleEndian 4 w.toNat)

end ApiSurface.Blake3
