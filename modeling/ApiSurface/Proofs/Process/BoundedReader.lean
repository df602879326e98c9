import ApiSurface.Process.Sandbox

/-!
This module contains the theory of reading with buffers. What is read from a source is what was still to come, however
it is portioned and whatever the buffers are. A reader with a limit hands out the bytes up to the limit and leaves
nothing of its source, and its flag tells whether there was more; so it is reported of a program whether it wrote more
than is allowed, however much of its output was wanted.
-/

namespace ApiSurface

namespace ByteSource

variable {σ : Type} [ByteSource σ] {s : σ} {retries : ReadFault → Bool} {sizes : Nat → Nat}

theorem readToEnd_keeps {P : List UInt8 → σ → Prop}
    (hok : ∀ given s size bytes next, P given s → read s size = (.ok bytes, next) → P (given ++ bytes) next)
    (herror : ∀ given s size e next, P given s → read s size = (.error e, next) → P given next)
    (given : List UInt8) (h : P given s) :
    P (given ++ (readToEnd retries sizes s).bytes) (readToEnd retries sizes s).after := by
  fun_induction readToEnd retries sizes s generalizing given with
  | case1 sizes s next hread => exact hok _ _ _ _ _ h hread
  | case2 sizes s byte bytes next hread _ more ih =>
    rw [← List.append_assoc]
    exact ih _ (hok _ _ _ _ _ h hread)
  | case3 sizes s e next hread _ _ ih => exact ih _ (herror _ _ _ _ _ h hread)
  | case4 sizes s e next hread =>
    rw [List.append_nil]
    exact herror _ _ _ _ _ h hread

theorem rest_eq_append_readToEnd (retries : ReadFault → Bool) (sizes : Nat → Nat) (s : σ) :
    rest s = (readToEnd retries sizes s).bytes ++ rest (readToEnd retries sizes s).after := by
  apply readToEnd_keeps (P := fun given t => rest s = given ++ rest t) _ _ [] rfl
  . intro given t size bytes next h hread
    rw [h, rest_of_ok hread, List.append_assoc]
  . intro given t size e next h hread
    rw [h, rest_of_error hread]

theorem exists_last_read (hfault : (readToEnd retries sizes s).fault = none) :
    ∃ t n, read t (sizes n) = (.ok [], (readToEnd retries sizes s).after) := by
  fun_induction readToEnd retries sizes s with
  | case1 sizes s next hread => exact ⟨s, 0, hread⟩
  | case2 sizes s byte bytes next hread _ more ih =>
    obtain ⟨t, n, hlast⟩ := ih hfault
    exact ⟨t, n + 1, hlast⟩
  | case3 sizes s e next hread _ _ ih =>
    obtain ⟨t, n, hlast⟩ := ih hfault
    exact ⟨t, n + 1, hlast⟩
  | case4 => simp at hfault

theorem rest_next_of_empty {next : σ} {size : Nat} (h : read s size = (.ok [], next)) (hsize : 0 < size) :
    rest next = [] := by
  have hempty := rest_of_empty h hsize
  rw [rest_of_ok h] at hempty
  exact hempty

theorem rest_after_readToEnd (hsizes : ∀ n, 0 < sizes n) (hfault : (readToEnd retries sizes s).fault = none) :
    rest (readToEnd retries sizes s).after = [] := by
  obtain ⟨t, n, hlast⟩ := exists_last_read hfault
  exact rest_next_of_empty hlast (hsizes n)

theorem bytes_readToEnd (hsizes : ∀ n, 0 < sizes n) (hfault : (readToEnd retries sizes s).fault = none) :
    (readToEnd retries sizes s).bytes = rest s := by
  rw [rest_eq_append_readToEnd retries sizes s, rest_after_readToEnd hsizes hfault, List.append_nil]

theorem not_retries_of_fault {e : ReadFault} (hfault : (readToEnd retries sizes s).fault = some e) :
    retries e = false := by
  fun_induction readToEnd retries sizes s with
  | case1 => simp at hfault
  | case2 sizes s byte bytes next hread _ more ih => exact ih hfault
  | case3 sizes s e next hread _ _ ih => exact ih hfault
  | case4 sizes s e next hread _ hretries =>
    cases hfault
    simpa using hretries

theorem readToEnd_ends (h : faults s = 0 ∨ ∀ e, retries e = true) : (readToEnd retries sizes s).fault = none := by
  cases hfault : (readToEnd retries sizes s).fault with
  | none => rfl
  | some e =>
    cases h with
    | inl hnone =>
      have := faults_readToEnd_lt hfault
      omega
    | inr hall =>
      have := not_retries_of_fault hfault
      simp [hall e] at this

theorem bufferSize_pos : 0 < bufferSize := by
  decide

theorem rest_drain {next : σ} (h : drain s = (none, next)) : rest next = [] := by
  obtain ⟨hfault, rfl⟩ := Prod.mk.inj h
  exact rest_after_readToEnd (fun _ => bufferSize_pos) hfault

theorem faults_readWanted_le (wanted : Option Nat) (s : σ) : faults (readWanted wanted s).after ≤ faults s := by
  cases wanted with
  | none => exact faults_readToEnd_le _ _ s
  | some n => exact faults_readToEnd_le _ _ { source := s, left := n : Front σ }

theorem bytes_readWanted (wanted : Option Nat) (h : faults s = 0) :
    (readWanted wanted s).bytes = wanted.elim (rest s) (fun n => (rest s).take n) := by
  cases wanted with
  | none => exact bytes_readToEnd (fun _ => bufferSize_pos) (readToEnd_ends (Or.inl h))
  | some n =>
    let front : Front σ := { source := s, left := n }
    cases n with
    | zero =>
      -- the buffers have no room, but nothing is wanted either
      have hrest := rest_eq_append_readToEnd ReadFault.isPassing (fun _ => 0) front
      exact (List.append_eq_nil_iff.mp hrest.symm).1
    | succ n =>
      have hfault : (readToEnd ReadFault.isPassing (fun _ => n + 1) front).fault = none := readToEnd_ends (Or.inl h)
      exact bytes_readToEnd (fun _ => n.succ_pos) hfault

end ByteSource

open ByteSource

namespace BoundedReader

variable {σ : Type} [ByteSource σ]

/--
What holds of a reader that was made for a source with the bytes `whole`, once it has handed out some of them.
-/
structure Serves (whole : List UInt8) (limit : Nat) (given : List UInt8) (r : BoundedReader σ) : Prop where
  budget : r.remaining + given.length = limit
  whole_of_not_truncated : r.truncated = false → whole = given ++ rest r.source
  lt_of_truncated : r.truncated = true → limit < whole.length

variable {whole given bytes : List UInt8} {limit size : Nat} {r next : BoundedReader σ}

theorem Serves.initial (source : σ) (limit : Nat) :
    Serves (rest source) limit [] (of source limit) where
  budget := rfl
  whole_of_not_truncated := fun _ => rfl
  lt_of_truncated := by simp [of]

theorem remaining_add_length (h : r.read size = (.ok bytes, next)) :
    next.remaining + bytes.length = r.remaining := by
  obtain ⟨-, source, hread, rfl⟩ | ⟨-, rfl, source, -, rfl⟩ | ⟨-, rfl, _, _, _, drained, -, -, rfl⟩ := read_eq_ok h
  . have := length_le_of_ok hread
    dsimp only
    omega
  . rfl
  . rfl

theorem rest_source_of_ok (h : r.read size = (.ok bytes, next)) (htruncated : next.truncated = false) :
    r.truncated = false ∧ rest r.source = bytes ++ rest next.source := by
  obtain ⟨-, source, hread, rfl⟩ | ⟨-, rfl, source, hread, rfl⟩ | ⟨-, -, _, _, _, drained, -, -, rfl⟩ := read_eq_ok h
  . exact ⟨htruncated, rest_of_ok hread⟩
  . exact ⟨htruncated, rest_of_ok hread⟩
  . -- what was drained is lost to the reader
    simp at htruncated

theorem Serves.lt_length (h : Serves whole limit given r) (hremaining : r.remaining = 0) {byte : UInt8}
    {more : List UInt8} {source : σ} (hread : ByteSource.read r.source 1 = (.ok (byte :: more), source)) :
    limit < whole.length := by
  cases htruncated : r.truncated with
  | true => exact h.lt_of_truncated htruncated
  | false =>
    -- the limit has been handed out already, and the byte comes behind it
    have hbudget := h.budget
    rw [h.whole_of_not_truncated htruncated, rest_of_ok hread, List.length_append, List.length_append, List.length_cons]
    omega

theorem Serves.read_ok (h : Serves whole limit given r) (hread : r.read size = (.ok bytes, next)) :
    Serves whole limit (given ++ bytes) next where
  budget := by
    have hbudget := h.budget
    have hremaining := remaining_add_length hread
    rw [List.length_append]
    omega
  whole_of_not_truncated := by
    intro htruncated
    obtain ⟨hbefore, hrest⟩ := rest_source_of_ok hread htruncated
    rw [h.whole_of_not_truncated hbefore, hrest, List.append_assoc]
  lt_of_truncated := by
    intro htruncated
    obtain ⟨-, source, -, rfl⟩ | ⟨-, -, source, -, rfl⟩ | ⟨hremaining, -, _, _, _, drained, hsource, -, rfl⟩ :=
      read_eq_ok hread
    . exact h.lt_of_truncated htruncated
    . exact h.lt_of_truncated htruncated
    . exact h.lt_length hremaining hsource

theorem Serves.read_error {e : ReadFault} (h : Serves whole limit given r) (hread : r.read size = (.error e, next)) :
    Serves whole limit given next := by
  obtain ⟨wanted, source, hsource, rfl⟩ | ⟨hremaining, _, _, _, drained, hsource, -, rfl⟩ := read_eq_error hread
  . refine ⟨h.budget, ?_, h.lt_of_truncated⟩
    intro htruncated
    rw [h.whole_of_not_truncated htruncated, rest_of_error hsource]
  . refine ⟨h.budget, ?_, ?_⟩
    . intro htruncated
      simp at htruncated
    . intro _
      exact h.lt_length hremaining hsource

theorem Serves.readToEnd (h : Serves whole limit given r) (retries : ReadFault → Bool) (sizes : Nat → Nat) :
    Serves whole limit (given ++ (ByteSource.readToEnd retries sizes r).bytes) (ByteSource.readToEnd retries sizes r).after := by
  apply readToEnd_keeps _ _ given h
  . intro given r size bytes next h hread
    exact h.read_ok hread
  . intro given r size e next h hread
    exact h.read_error hread

theorem Serves.readWanted (h : Serves whole limit given r) (wanted : Option Nat) :
    Serves whole limit (given ++ (ByteSource.readWanted wanted r).bytes) (ByteSource.readWanted wanted r).after := by
  cases wanted with
  | none => exact h.readToEnd _ _
  | some n =>
    apply readToEnd_keeps (P := fun given (f : Front (BoundedReader σ)) => Serves whole limit given f.source) _ _ given h
    . intro given f size bytes next h hread
      obtain ⟨-, rfl, rfl⟩ | ⟨-, reader, hreader, rfl⟩ := Front.read_eq_ok hread
      . rw [List.append_nil]
        exact h
      . exact h.read_ok hreader
    . intro given f size e next h hread
      obtain ⟨reader, hreader, rfl⟩ := Front.read_eq_error hread
      exact h.read_error hreader

theorem rest_source_of_empty (h : r.read size = (.ok [], next)) (hsize : 0 < size) : rest next.source = [] := by
  obtain ⟨hremaining, source, hread, rfl⟩ | ⟨-, -, source, hread, rfl⟩ | ⟨-, -, _, _, _, drained, -, hdrain, rfl⟩ :=
    read_eq_ok h
  . exact rest_next_of_empty hread (by omega)
  . exact rest_next_of_empty hread Nat.one_pos
  . exact rest_drain hdrain

theorem Serves.truncated_iff (h : Serves whole limit given r) (hrest : rest r.source = []) :
    r.truncated = true ↔ limit < whole.length := by
  constructor
  . exact h.lt_of_truncated
  . intro hlt
    cases htruncated : r.truncated with
    | true => rfl
    | false =>
      have hbudget := h.budget
      rw [h.whole_of_not_truncated htruncated, hrest, List.append_nil] at hlt
      omega

theorem rest_source_after_readToEnd {retries : ReadFault → Bool} {sizes : Nat → Nat} (hsizes : ∀ n, 0 < sizes n)
    (hfault : (ByteSource.readToEnd retries sizes r).fault = none) :
    rest (ByteSource.readToEnd retries sizes r).after.source = [] := by
  obtain ⟨t, n, hlast⟩ := exists_last_read hfault
  exact rest_source_of_empty hlast (hsizes n)

theorem Serves.truncated_drain (h : Serves whole limit given r) (hfaults : faults r = 0) :
    (drain r).2.truncated = decide (limit < whole.length) := by
  have hrest : rest (drain r).2.source = [] :=
    rest_source_after_readToEnd (fun _ => bufferSize_pos) (readToEnd_ends (Or.inl hfaults))
  rw [Bool.eq_iff_iff, decide_eq_true_iff]
  exact (h.readToEnd ReadFault.isPassing (fun _ => bufferSize)).truncated_iff hrest

theorem readToEnd_hands_out_front (source : σ) (limit : Nat) (retries : ReadFault → Bool) (sizes : Nat → Nat)
    (hsizes : ∀ n, 0 < sizes n) :
    let reading := ByteSource.readToEnd retries sizes (of source limit)
    (faults source = 0 ∨ (∀ e, retries e = true) → reading.fault = none) ∧
    (reading.fault = none →
      reading.bytes = (rest source).take limit ∧
      reading.bytes.length = min limit (rest source).length ∧
      rest reading.after.source = [] ∧
      (reading.after.truncated = true ↔ limit < (rest source).length)) ∧
    (∀ (r next : BoundedReader σ) (size : Nat) (bytes : List UInt8),
      r.read size = (.ok bytes, next) → next.remaining + bytes.length = r.remaining) := by
  intro reading
  refine ⟨?_, ?_, fun r next size bytes => remaining_add_length⟩
  . apply readToEnd_ends (s := of source limit)
  . intro hfault
    have hbytes : reading.bytes = (rest source).take limit := bytes_readToEnd hsizes hfault
    have hrest : rest reading.after.source = [] := rest_source_after_readToEnd hsizes hfault
    refine ⟨hbytes, ?_, hrest, ?_⟩
    . rw [hbytes, List.length_take]
    . exact ((Serves.initial source limit).readToEnd retries sizes).truncated_iff hrest

namespace Letters

/--
Eight letters that come in short portions, with an interruption and a failure between them.
-/
def stream : ByteStream where
  bytes := [97, 98, 99, 100, 101, 102, 103, 104]
  replies := [.upTo 2, .fault .interrupted, .upTo 1, .fault .failed, .upTo 5, .upTo 1, .fault .interrupted, .upTo 3]

/--
What comes of reading no more letters than `limit`, with buffers that grow and through all faults.
-/
def reading (limit : Nat) : Reading (BoundedReader ByteStream) :=
  ByteSource.readToEnd (fun _ => true) (fun n => n + 1) (of stream limit)

theorem stream_read_with_limits :
    (∀ n, 0 < n + 1) ∧
    ((reading 4).fault = none ∧ (reading 4).bytes = [97, 98, 99, 100] ∧ (reading 4).after.source.bytes = [] ∧
      (reading 4).after.truncated = true) ∧
    ((reading 8).fault = none ∧ (reading 8).bytes = [97, 98, 99, 100, 101, 102, 103, 104] ∧
      (reading 8).after.source.bytes = [] ∧ (reading 8).after.truncated = false) := by
  have hsizes : ∀ n, 0 < n + 1 := Nat.succ_pos
  obtain ⟨hends, hread, -⟩ := readToEnd_hands_out_front stream 4 (fun _ => true) (fun n => n + 1) hsizes
  obtain ⟨hbytes, -, hrest, htruncated⟩ := hread (hends (Or.inr fun _ => rfl))
  obtain ⟨hends', hread', -⟩ := readToEnd_hands_out_front stream 8 (fun _ => true) (fun n => n + 1) hsizes
  obtain ⟨hbytes', -, hrest', htruncated'⟩ := hread' (hends' (Or.inr fun _ => rfl))
  refine ⟨hsizes, ⟨hends (Or.inr fun _ => rfl), hbytes, hrest, htruncated.mpr (by decide)⟩, ?_⟩
  refine ⟨hends' (Or.inr fun _ => rfl), hbytes', hrest', ?_⟩
  rw [← Bool.not_eq_true, reading, htruncated']
  decide

end Letters

end BoundedReader

theorem ByteStream.faults_ofPieces (pieces : List (List UInt8)) : ByteSource.faults (ofPieces pieces) = 0 := by
  apply List.countP_eq_zero.mpr
  intro reply hreply
  obtain ⟨piece, -, rfl⟩ := List.mem_map.mp hreply
  simp [Reply.isFault]

namespace Sandbox

theorem stream_eq (s : Sandbox) (m : Machine) (i : Invocation) (wanted : Option Nat) :
    s.stream m i wanted
      =
    (start m i).map fun a =>
      let watched := watchStream a (s.timeFor i) i.cancelled
      let output := (a.written .out watched.2).flatten
      let allowed := output.take s.maxOutput
      (wanted.elim allowed (fun n => allowed.take n),
        { exit := watched.1
          truncated := decide (s.maxOutput < output.length)
          err := Capture.run s.maxOutput (a.written .err watched.2) }) := by
  unfold stream
  cases start m i with
  | error e => rfl
  | ok a =>
    dsimp only [bind, Except.bind, Except.map, pure, Except.pure]
    let watched := watchStream a (s.timeFor i) i.cancelled
    let reader := BoundedReader.of (ByteStream.ofPieces (a.written .out watched.2)) s.maxOutput
    have hfaults : faults reader = 0 := ByteStream.faults_ofPieces _
    have hbytes := bytes_readWanted wanted hfaults
    have htruncated := ((BoundedReader.Serves.initial _ _).readWanted wanted).truncated_drain
      (Nat.le_zero.mp (hfaults ▸ faults_readWanted_le wanted reader))
    rw [hbytes, htruncated]
    rfl

end Sandbox

end ApiSurface
