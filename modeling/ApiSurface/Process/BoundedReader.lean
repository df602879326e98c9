import ApiSurface.Process.ByteSource

/-!
This module contains sources of bytes: streams that hand out their bytes in portions, sources of which only a part
at the front is wanted, and readers that stop after a number of bytes, read the rest of their source without handing
it out, and remember whether there was any.
-/

namespace ApiSurface

/--
What a stream makes of a request.
-/
inductive Reply where
  /-- It hands out no more bytes than this, but at least one unless it has ended. -/
  | upTo (most : Nat)
  | fault (f : ReadFault)
deriving DecidableEq, Repr

namespace Reply

/--
Whether the request comes to nothing.
-/
def isFault : Reply → Bool
  | upTo _ => false
  | fault _ => true

end Reply

/--
A stream of bytes and what it makes of the requests to come. Later requests get all that they ask for.
-/
structure ByteStream where
  bytes : List UInt8
  replies : List Reply := []
deriving DecidableEq, Repr

namespace ByteStream

/--
The stream that hands out one piece after another.
-/
def ofPieces (pieces : List (List UInt8)) : ByteStream where
  bytes := pieces.flatten
  replies := pieces.map (fun piece => .upTo piece.length)

/--
Hand out some bytes.
-/
def hand (s : ByteStream) (n : Nat) (later : List Reply) : Except ReadFault (List UInt8) × ByteStream :=
  (.ok (s.bytes.take n), { bytes := s.bytes.drop n, replies := later })

/--
Ask for some bytes.
-/
def read (s : ByteStream) (size : Nat) : Except ReadFault (List UInt8) × ByteStream :=
  match s.replies with
  | [] => s.hand size []
  | .upTo most :: later => s.hand (min size (max most 1)) later
  | .fault f :: later => (.error f, { s with replies := later })

/--
How many requests come to nothing.
-/
def faults (s : ByteStream) : Nat :=
  s.replies.countP Reply.isFault

variable {s next : ByteStream} {size : Nat} {bytes : List UInt8}

theorem read_eq_ok (h : s.read size = (.ok bytes, next)) :
    ∃ n later, n ≤ size ∧ (0 < size → 0 < n) ∧ later.countP Reply.isFault ≤ s.faults ∧
      bytes = s.bytes.take n ∧ next = { bytes := s.bytes.drop n, replies := later } := by
  unfold read at h
  unfold faults
  split at h
  . cases h
    exact ⟨size, [], Nat.le_refl size, id, by simp, rfl, rfl⟩
  . next most later hreplies =>
    cases h
    refine ⟨min size (max most 1), later, Nat.min_le_left _ _, by omega, ?_, rfl, rfl⟩
    rw [hreplies]
    exact (List.sublist_cons_self _ _).countP_le
  . cases h

theorem read_eq_error {f : ReadFault} (h : s.read size = (.error f, next)) :
    next.bytes = s.bytes ∧ next.faults < s.faults := by
  unfold read at h
  split at h
  . cases h
  . cases h
  . next f later hreplies =>
    cases h
    refine ⟨rfl, ?_⟩
    unfold faults
    rw [hreplies, List.countP_cons_of_pos rfl]
    exact Nat.lt_succ_self _

instance : ByteSource ByteStream where
  read := read
  rest := ByteStream.bytes
  faults := faults
  rest_of_ok := by
    intro s next size bytes h
    obtain ⟨n, later, -, -, -, rfl, rfl⟩ := read_eq_ok h
    exact (List.take_append_drop n s.bytes).symm
  length_le_of_ok := by
    intro s next size bytes h
    obtain ⟨n, later, hn, -, -, rfl, -⟩ := read_eq_ok h
    exact Nat.le_trans (List.length_take_le n s.bytes) hn
  rest_of_empty := by
    intro s next size h hsize
    obtain ⟨n, later, -, hpos, -, hbytes, -⟩ := read_eq_ok h
    have := hpos hsize
    have hlength := congrArg List.length hbytes
    rw [List.length_nil, List.length_take] at hlength
    apply List.eq_nil_of_length_eq_zero
    omega
  faults_of_ok := by
    intro s next size bytes h
    obtain ⟨n, later, -, -, hfaults, -, rfl⟩ := read_eq_ok h
    exact hfaults
  rest_of_error := by
    intro s next size f h
    exact (read_eq_error h).1
  faults_of_error := by
    intro s next size f h
    exact (read_eq_error h).2

end ByteStream

section

variable {σ : Type} [ByteSource σ]

theorem ByteSource.take_rest_of_ok {s next : σ} {size left : Nat} {bytes : List UInt8}
    (h : ByteSource.read s (min size left) = (.ok bytes, next)) :
    (ByteSource.rest s).take left = bytes ++ (ByteSource.rest next).take (left - bytes.length) := by
  have hlength := ByteSource.length_le_of_ok h
  rw [ByteSource.rest_of_ok h, List.take_append, List.take_of_length_le]
  omega

/--
A source of which no more than some bytes at the front are wanted.
-/
structure Front (σ : Type) where
  source : σ
  left : Nat
deriving DecidableEq, Repr

namespace Front

/--
Fill a buffer of some size. Once nothing is wanted any more, the source is left alone.
-/
def read (f : Front σ) (size : Nat) : Except ReadFault (List UInt8) × Front σ :=
  if f.left = 0 then (.ok [], f)
  else
    match ByteSource.read f.source (min size f.left) with
    | (.ok bytes, next) => (.ok bytes, { source := next, left := f.left - bytes.length })
    | (.error e, next) => (.error e, { f with source := next })

variable {f next : Front σ} {size : Nat} {bytes : List UInt8}

theorem read_eq_ok (h : f.read size = (.ok bytes, next)) :
    (f.left = 0 ∧ bytes = [] ∧ next = f) ∨
    (0 < f.left ∧ ∃ source, ByteSource.read f.source (min size f.left) = (.ok bytes, source) ∧
      next = { source := source, left := f.left - bytes.length }) := by
  unfold read at h
  split at h
  . next hleft =>
    cases h
    exact Or.inl ⟨hleft, rfl, rfl⟩
  . next hleft =>
    right
    split at h
    . next source hread =>
      cases h
      exact ⟨Nat.pos_of_ne_zero hleft, source, hread, rfl⟩
    . cases h

theorem read_eq_error {e : ReadFault} (h : f.read size = (.error e, next)) :
    ∃ source, ByteSource.read f.source (min size f.left) = (.error e, source) ∧ next = { f with source := source } := by
  unfold read at h
  split at h
  . cases h
  . split at h
    . cases h
    . next source hread =>
      cases h
      exact ⟨source, hread, rfl⟩

instance : ByteSource (Front σ) where
  read := read
  rest f := (ByteSource.rest f.source).take f.left
  faults f := ByteSource.faults f.source
  rest_of_ok := by
    intro f next size bytes h
    obtain ⟨hleft, rfl, rfl⟩ | ⟨-, source, hread, rfl⟩ := read_eq_ok h
    . rfl
    . exact ByteSource.take_rest_of_ok hread
  length_le_of_ok := by
    intro f next size bytes h
    obtain ⟨-, rfl, -⟩ | ⟨-, source, hread, -⟩ := read_eq_ok h
    . exact Nat.zero_le size
    . exact Nat.le_trans (ByteSource.length_le_of_ok hread) (Nat.min_le_left _ _)
  rest_of_empty := by
    intro f next size h hsize
    obtain ⟨hleft, -, -⟩ | ⟨hleft, source, hread, -⟩ := read_eq_ok h
    . rw [hleft, List.take_zero]
    . rw [ByteSource.rest_of_empty hread (by omega), List.take_nil]
  faults_of_ok := by
    intro f next size bytes h
    obtain ⟨-, -, rfl⟩ | ⟨-, source, hread, rfl⟩ := read_eq_ok h
    . exact Nat.le_refl _
    . exact ByteSource.faults_of_ok hread
  rest_of_error := by
    intro f next size e h
    obtain ⟨source, hread, rfl⟩ := read_eq_error h
    exact congrArg (List.take f.left) (ByteSource.rest_of_error hread)
  faults_of_error := by
    intro f next size e h
    obtain ⟨source, hread, rfl⟩ := read_eq_error h
    exact ByteSource.faults_of_error hread

end Front

namespace ByteSource

/--
The size of the buffers for reading all there is.
-/
def bufferSize : Nat := 8192

/--
Read to the end, or no more than some number of bytes.
-/
def readWanted (wanted : Option Nat) (s : σ) : Reading σ :=
  match wanted with
  | none => readToEnd ReadFault.isPassing (fun _ => bufferSize) s
  | some n =>
    let reading := readToEnd ReadFault.isPassing (fun _ => n) { source := s, left := n : Front σ }
    { reading with after := reading.after.source }

/--
Read to the end without handing out what there is.
-/
def drain (s : σ) : Option ReadFault × σ :=
  let reading := readToEnd ReadFault.isPassing (fun _ => bufferSize) s
  (reading.fault, reading.after)

end ByteSource

/--
A reader that hands out no more bytes of its source than `remaining`.
-/
structure BoundedReader (σ : Type) where
  source : σ
  remaining : Nat
  /-- Whether the source had more. -/
  truncated : Bool := false
deriving DecidableEq, Repr

namespace BoundedReader

/--
The reader that hands out no more than `limit` bytes.
-/
def of (source : σ) (limit : Nat) : BoundedReader σ where
  source := source
  remaining := limit

/--
Fill a buffer of some size. Once nothing remains, one byte more is asked for, and if there is one, the source is
drained.
-/
def read (r : BoundedReader σ) (size : Nat) : Except ReadFault (List UInt8) × BoundedReader σ :=
  if r.remaining = 0 then
    match ByteSource.read r.source 1 with
    | (.ok [], next) => (.ok [], { r with source := next })
    | (.ok (_ :: _), next) =>
      match ByteSource.drain next with
      | (none, drained) => (.ok [], { r with source := drained, truncated := true })
      | (some e, drained) => (.error e, { r with source := drained, truncated := true })
    | (.error e, next) => (.error e, { r with source := next })
  else
    match ByteSource.read r.source (min size r.remaining) with
    | (.ok bytes, next) => (.ok bytes, { r with source := next, remaining := r.remaining - bytes.length })
    | (.error e, next) => (.error e, { r with source := next })

variable {r next : BoundedReader σ} {size : Nat} {bytes : List UInt8}

theorem read_eq_ok (h : r.read size = (.ok bytes, next)) :
    (0 < r.remaining ∧ ∃ source, ByteSource.read r.source (min size r.remaining) = (.ok bytes, source) ∧
      next = { r with source := source, remaining := r.remaining - bytes.length }) ∨
    (r.remaining = 0 ∧ bytes = [] ∧ ∃ source, ByteSource.read r.source 1 = (.ok [], source) ∧
      next = { r with source := source }) ∨
    (r.remaining = 0 ∧ bytes = [] ∧ ∃ byte more source drained,
      ByteSource.read r.source 1 = (.ok (byte :: more), source) ∧ ByteSource.drain source = (none, drained) ∧
      next = { r with source := drained, truncated := true }) := by
  unfold read at h
  split at h
  . next hremaining =>
    right
    split at h
    . next source hread =>
      cases h
      exact Or.inl ⟨hremaining, rfl, source, hread, rfl⟩
    . next byte more source hread =>
      split at h
      . next drained hdrain =>
        cases h
        exact Or.inr ⟨hremaining, rfl, byte, more, source, drained, hread, hdrain, rfl⟩
      . cases h
    . cases h
  . next hremaining =>
    left
    split at h
    . next source hread =>
      cases h
      exact ⟨Nat.pos_of_ne_zero hremaining, source, hread, rfl⟩
    . cases h

theorem read_eq_error {e : ReadFault} (h : r.read size = (.error e, next)) :
    (∃ wanted source, ByteSource.read r.source wanted = (.error e, source) ∧ next = { r with source := source }) ∨
    (r.remaining = 0 ∧ ∃ byte more source drained,
      ByteSource.read r.source 1 = (.ok (byte :: more), source) ∧ ByteSource.drain source = (some e, drained) ∧
      next = { r with source := drained, truncated := true }) := by
  unfold read at h
  split at h
  . next hremaining =>
    split at h
    . cases h
    . next byte more source hread =>
      split at h
      . cases h
      . next e drained hdrain =>
        cases h
        exact Or.inr ⟨hremaining, byte, more, source, drained, hread, hdrain, rfl⟩
    . next e source hread =>
      cases h
      exact Or.inl ⟨1, source, hread, rfl⟩
  . split at h
    . cases h
    . next e source hread =>
      cases h
      exact Or.inl ⟨_, source, hread, rfl⟩

instance : ByteSource (BoundedReader σ) where
  read := read
  rest r := (ByteSource.rest r.source).take r.remaining
  faults r := ByteSource.faults r.source
  rest_of_ok := by
    intro r next size bytes h
    obtain ⟨-, source, hread, rfl⟩ | ⟨hremaining, rfl, source, -, rfl⟩ | ⟨hremaining, rfl, _, _, _, drained, -, -, rfl⟩ :=
      read_eq_ok h
    . exact ByteSource.take_rest_of_ok hread
    . simp [hremaining]
    . simp [hremaining]
  length_le_of_ok := by
    intro r next size bytes h
    obtain ⟨-, source, hread, -⟩ | ⟨-, rfl, -⟩ | ⟨-, rfl, -⟩ := read_eq_ok h
    . exact Nat.le_trans (ByteSource.length_le_of_ok hread) (Nat.min_le_left _ _)
    . exact Nat.zero_le size
    . exact Nat.zero_le size
  rest_of_empty := by
    intro r next size h hsize
    obtain ⟨hremaining, source, hread, -⟩ | ⟨hremaining, -⟩ | ⟨hremaining, -⟩ := read_eq_ok h
    . rw [ByteSource.rest_of_empty hread (by omega), List.take_nil]
    . rw [hremaining, List.take_zero]
    . rw [hremaining, List.take_zero]
  faults_of_ok := by
    intro r next size bytes h
    obtain ⟨-, source, hread, rfl⟩ | ⟨-, -, source, hread, rfl⟩ | ⟨-, -, byte, more, source, drained, hread, hdrain, rfl⟩ :=
      read_eq_ok h
    . exact ByteSource.faults_of_ok hread
    . exact ByteSource.faults_of_ok hread
    . obtain ⟨-, rfl⟩ := Prod.mk.inj hdrain
      exact Nat.le_trans (ByteSource.faults_readToEnd_le _ _ source) (ByteSource.faults_of_ok hread)
  rest_of_error := by
    intro r next size e h
    obtain ⟨wanted, source, hread, rfl⟩ | ⟨hremaining, _, _, _, drained, -, -, rfl⟩ := read_eq_error h
    . exact congrArg (List.take r.remaining) (ByteSource.rest_of_error hread)
    . simp [hremaining]
  faults_of_error := by
    intro r next size e h
    obtain ⟨wanted, source, hread, rfl⟩ | ⟨-, byte, more, source, drained, hread, hdrain, rfl⟩ := read_eq_error h
    . exact ByteSource.faults_of_error hread
    . obtain ⟨hfault, rfl⟩ := Prod.mk.inj hdrain
      exact Nat.lt_of_lt_of_le (ByteSource.faults_readToEnd_lt hfault) (ByteSource.faults_of_ok hread)

end BoundedReader

end

end ApiSurface
