/-!
This module contains the reading of bytes with buffers: what a source of bytes promises to whoever reads from it, the
loop that reads until a source has ended, and sources that end early.
-/

namespace ApiSurface

/--
Why a read came to nothing although more may follow.
-/
inductive ReadFault where
  | interrupted
  | failed
deriving DecidableEq, Repr

/--
Whether a read is tried again. One that was interrupted is, any other one is given up.
-/
def ReadFault.isPassing : ReadFault → Bool
  | interrupted => true
  | failed => false

/--
Sources of bytes. A read with a buffer of some size hands out bytes, or comes to nothing by a fault, and leaves the
source as it is from then on. The bytes come in order and fit into the buffer, and a buffer with room stays empty only
if the source has ended.
-/
class ByteSource (σ : Type) where
  read : σ → Nat → Except ReadFault (List UInt8) × σ
  /-- The bytes that are still to come. -/
  rest : σ → List UInt8
  /-- A bound for the reads that can still come to nothing by a fault. -/
  faults : σ → Nat
  rest_of_ok : ∀ {s next : σ} {size : Nat} {bytes : List UInt8},
    read s size = (.ok bytes, next) → rest s = bytes ++ rest next
  length_le_of_ok : ∀ {s next : σ} {size : Nat} {bytes : List UInt8},
    read s size = (.ok bytes, next) → bytes.length ≤ size
  rest_of_empty : ∀ {s next : σ} {size : Nat}, read s size = (.ok [], next) → 0 < size → rest s = []
  faults_of_ok : ∀ {s next : σ} {size : Nat} {bytes : List UInt8},
    read s size = (.ok bytes, next) → faults next ≤ faults s
  rest_of_error : ∀ {s next : σ} {size : Nat} {e : ReadFault}, read s size = (.error e, next) → rest next = rest s
  faults_of_error : ∀ {s next : σ} {size : Nat} {e : ReadFault},
    read s size = (.error e, next) → faults next < faults s

/--
What came of reading on and on.
-/
structure Reading (σ : Type) where
  bytes : List UInt8
  /-- The fault at which the reading was given up. Without one, the last read handed out nothing. -/
  fault : Option ReadFault := none
  /-- The source as it was left. -/
  after : σ

namespace ByteSource

variable {σ : Type} [ByteSource σ] {s next : σ} {size : Nat}

theorem turns_lt_of_ok {byte : UInt8} {bytes : List UInt8} (h : read s size = (.ok (byte :: bytes), next)) :
    (rest next).length + faults next < (rest s).length + faults s := by
  have hfaults := faults_of_ok h
  rw [rest_of_ok h, List.length_append, List.length_cons]
  omega

theorem turns_lt_of_error {e : ReadFault} (h : read s size = (.error e, next)) :
    (rest next).length + faults next < (rest s).length + faults s := by
  have hfaults := faults_of_error h
  rw [rest_of_error h]
  omega

/--
Read with one buffer after another until a read hands out nothing. A read that comes to nothing by a fault is tried
again, with the next buffer, or the reading is given up.
-/
def readToEnd (retries : ReadFault → Bool) (sizes : Nat → Nat) (s : σ) : Reading σ :=
  match h : read s (sizes 0) with
  | (.ok [], next) => { bytes := [], after := next }
  | (.ok (byte :: bytes), next) =>
    have := turns_lt_of_ok h
    let more := readToEnd retries (fun n => sizes (n + 1)) next
    { more with bytes := byte :: bytes ++ more.bytes }
  | (.error e, next) =>
    have := turns_lt_of_error h
    if retries e then readToEnd retries (fun n => sizes (n + 1)) next
    else { bytes := [], fault := some e, after := next }
termination_by (rest s).length + faults s

theorem faults_readToEnd_le (retries : ReadFault → Bool) (sizes : Nat → Nat) (s : σ) :
    faults (readToEnd retries sizes s).after ≤ faults s := by
  fun_induction readToEnd retries sizes s with
  | case1 sizes s next h => exact faults_of_ok h
  | case2 sizes s byte bytes next h _ more ih => exact Nat.le_trans ih (faults_of_ok h)
  | case3 sizes s e next h _ _ ih => exact Nat.le_trans ih (Nat.le_of_lt (faults_of_error h))
  | case4 sizes s e next h => exact Nat.le_of_lt (faults_of_error h)

theorem faults_readToEnd_lt {retries : ReadFault → Bool} {sizes : Nat → Nat} {e : ReadFault}
    (hfault : (readToEnd retries sizes s).fault = some e) : faults (readToEnd retries sizes s).after < faults s := by
  fun_induction readToEnd retries sizes s with
  | case1 => simp at hfault
  | case2 sizes s byte bytes next h _ more ih => exact Nat.lt_of_lt_of_le (ih hfault) (faults_of_ok h)
  | case3 sizes s e next h _ _ ih => exact Nat.lt_trans (ih hfault) (faults_of_error h)
  | case4 sizes s e next h => exact faults_of_error h

end ByteSource

end ApiSurface
