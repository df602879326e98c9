import Mathlib.Data.Prod.Lex
import ApiSurface.Fingerprint
import ApiSurface.Proofs.Lists

/-!
This module contains the theory of what a fingerprint digests. A path ends at the first zero byte and the numbers behind
it have fixed widths, so the bytes of stamped files can be taken apart again in one way only; and the files are sorted
first. The bytes therefore tell which stamps there are, and nothing of the order in which they were found.
-/

namespace ApiSurface

namespace Bytes

theorem littleEndian_injOn {width a b : Nat} (ha : a < Nat.pow 256 width) (hb : b < Nat.pow 256 width)
    (h : littleEndian width a = littleEndian width b) : a = b := by
  rw [← littleEndianValue_littleEndian width a ha, h, littleEndianValue_littleEndian width b hb]

theorem toList_loop (bs : ByteArray) (start : Nat) (done : List UInt8) :
    ByteArray.toList.loop bs start done = done.reverse ++ bs.data.toList.drop start := by
  fun_induction ByteArray.toList.loop bs start done with
  | case1 start done hstart ih =>
    have hsize : start < bs.data.toList.length := by simpa using hstart
    rw [ih, List.drop_eq_getElem_cons hsize]
    simp [ByteArray.get!, hstart]
  | case2 start done hstart =>
    have hsize : bs.data.toList.length ≤ start := by simpa using hstart
    rw [List.drop_eq_nil_of_le hsize, List.append_nil]

theorem toList_eq (bs : ByteArray) : bs.toList = bs.data.toList := by
  unfold ByteArray.toList
  rw [toList_loop]
  rfl

theorem toUTF8_toList_inj {s t : String} (h : s.toUTF8.toList = t.toUTF8.toList) : s = t := by
  rw [toList_eq, toList_eq, Array.toList_inj] at h
  exact String.toByteArray_inj.mp (ByteArray.ext h)

theorem hexDigit_injOn : ∀ a < 16, ∀ b < 16, hexDigit a = hexDigit b → a = b := by
  decide

theorem hexByte_injective {a b : UInt8} (h : hexByte a = hexByte b) : a = b := by
  simp only [hexByte, List.cons.injEq, and_true] at h
  have hhigh := hexDigit_injOn _ (by have := a.toNat_lt; omega) _ (by have := b.toNat_lt; omega) h.1
  have hlow := hexDigit_injOn _ (by omega) _ (by omega) h.2
  rw [← UInt8.toNat_inj]
  omega

theorem hexText_injective {a b : List UInt8} (h : hexText a = hexText b) : a = b := by
  have hdigits : a.flatMap hexByte = b.flatMap hexByte := String.ofList_injective h
  clear h
  induction a generalizing b with
  | nil =>
    cases b with
    | nil => rfl
    | cons y b => simp [hexByte] at hdigits
  | cons x a ih =>
    cases b with
    | nil => simp [hexByte] at hdigits
    | cons y b =>
      rw [List.flatMap_cons, List.flatMap_cons] at hdigits
      obtain ⟨hbyte, hrest⟩ := List.append_inj hdigits rfl
      rw [hexByte_injective hbyte, ih hrest]

theorem not_mem_hexText (bs : List UInt8) : 'm' ∉ (hexText bs).toList := by
  have hdigit : ∀ n < 16, hexDigit n ≠ 'm' := by decide
  intro hmem
  rw [hexText, String.toList_ofList, List.mem_flatMap] at hmem
  obtain ⟨b, -, hb⟩ := hmem
  simp only [hexByte, List.mem_cons, List.not_mem_nil, or_false] at hb
  rcases hb with hb | hb
  . exact hdigit _ (by have := b.toNat_lt; omega) hb.symm
  . exact hdigit _ (by omega) hb.symm

end Bytes

namespace Stamp

/--
The parts of the stamp in lexicographic order.
-/
def lex (s : Stamp) : String ×ₗ (Nat ×ₗ Nat) :=
  toLex (s.path, toLex (s.size.toNat, s.modified.toNat))

theorem lex_injective {a b : Stamp} (h : a.lex = b.lex) : a = b := by
  cases a
  cases b
  simp only [lex, toLex_inj, Prod.mk.injEq, UInt64.toNat_inj, BitVec.toNat_inj] at h
  obtain ⟨rfl, rfl, rfl⟩ := h
  rfl

theorem le_iff_lex_le {a b : Stamp} : a.le b = true ↔ a.lex ≤ b.lex := by
  unfold le lex
  rw [Prod.Lex.toLex_le_toLex, Prod.Lex.toLex_le_toLex]
  split
  . next hpath =>
    rw [bne_iff_ne] at hpath
    simp [hpath]
  . next hpath =>
    have hpath : a.path = b.path := by simpa using hpath
    split
    . next hsize =>
      rw [bne_iff_ne] at hsize
      have hne : a.size.toNat ≠ b.size.toNat := by rwa [ne_eq, UInt64.toNat_inj]
      simp [hpath, hne, UInt64.lt_iff_toNat_lt]
    . next hsize =>
      have hsize : a.size = b.size := by simpa using hsize
      simp [hpath, hsize, BitVec.le_def]

theorem sortsBy_stamp : SortsBy le lex :=
  ⟨fun _ _ => le_iff_lex_le⟩

theorem encode_eq_of_perm {a b : List Stamp} (h : a.Perm b) : encode a = encode b := by
  unfold encode
  rw [sortsBy_stamp.mergeSort_eq_of_perm h]
  intro s _ t _ heq
  exact lex_injective heq

/--
The path has no zero byte, which no path of a file has.
-/
def HasPlainPath (s : Stamp) : Prop :=
  0 ∉ s.path.toUTF8.toList

theorem bytes_append_inj {s t : Stamp} {rest rest' : List UInt8} (hs : s.HasPlainPath) (ht : t.HasPlainPath)
    (h : s.bytes ++ rest = t.bytes ++ rest') : s = t ∧ rest = rest' := by
  unfold bytes at h
  simp only [List.append_assoc, List.singleton_append] at h
  obtain ⟨hpath, hnumbers⟩ := append_cons_inj hs ht h
  obtain ⟨hsize, htime⟩ := List.append_inj hnumbers (by simp only [Bytes.length_littleEndian])
  obtain ⟨htime, hrest⟩ := List.append_inj htime (by simp only [Bytes.length_littleEndian])
  refine ⟨lex_injective ?_, hrest⟩
  have hsize := Bytes.littleEndian_injOn s.size.toNat_lt t.size.toNat_lt hsize
  have htime := Bytes.littleEndian_injOn s.modified.isLt t.modified.isLt htime
  rw [lex, lex, Bytes.toUTF8_toList_inj hpath, hsize, htime]

theorem bytes_ne_nil (s : Stamp) : s.bytes ≠ [] := by
  simp [bytes]

theorem flatMap_bytes_injOn {a b : List Stamp} (ha : ∀ s ∈ a, s.HasPlainPath) (hb : ∀ s ∈ b, s.HasPlainPath)
    (h : a.flatMap bytes = b.flatMap bytes) : a = b := by
  induction a generalizing b with
  | nil =>
    cases b with
    | nil => rfl
    | cons t b => simp [bytes_ne_nil] at h
  | cons s a ih =>
    cases b with
    | nil => simp [bytes_ne_nil] at h
    | cons t b =>
      rw [List.flatMap_cons, List.flatMap_cons] at h
      obtain ⟨rfl, hrest⟩ := bytes_append_inj (ha s List.mem_cons_self) (hb t List.mem_cons_self) h
      rw [ih (fun u hu => ha u (List.mem_cons_of_mem s hu)) (fun u hu => hb u (List.mem_cons_of_mem s hu)) hrest]

theorem encode_eq_iff_perm {a b : List Stamp} (ha : ∀ s ∈ a, s.HasPlainPath) (hb : ∀ s ∈ b, s.HasPlainPath) :
    encode a = encode b ↔ a.Perm b := by
  constructor
  . intro h
    have hsorted : a.mergeSort le = b.mergeSort le := by
      apply flatMap_bytes_injOn _ _ h
      . intro s hs
        exact ha s (List.mem_mergeSort.mp hs)
      . intro s hs
        exact hb s (List.mem_mergeSort.mp hs)
    calc a.Perm (a.mergeSort le) := (List.mergeSort_perm a le).symm
      _ = b.mergeSort le := hsorted
      _ |>.Perm b := List.mergeSort_perm b le
  . exact encode_eq_of_perm

end Stamp

namespace Fingerprint

theorem text_injective {f g : Fingerprint} (h : f.text = g.text) : f = g := by
  have hempty : ∀ bs, Bytes.hexText bs ≠ "empty" := by
    intro bs heq
    apply Bytes.not_mem_hexText bs
    rw [heq]
    decide
  cases f with
  | empty =>
    cases g with
    | empty => rfl
    | digest b => exact absurd h.symm (hempty b)
  | digest a =>
    cases g with
    | empty => exact absurd h (hempty a)
    | digest b => rw [Bytes.hexText_injective h]

theorem ofStamps_eq_empty_iff {stamps : List Stamp} : ofStamps stamps = empty ↔ stamps = [] := by
  unfold ofStamps
  cases stamps <;> simp

theorem encode_eq_of_ofStamps_eq {a b : List Stamp}
    (hdigest : Blake3.digest (Stamp.encode a) = Blake3.digest (Stamp.encode b) → Stamp.encode a = Stamp.encode b)
    (h : ofStamps a = ofStamps b) : Stamp.encode a = Stamp.encode b := by
  cases a with
  | nil => rw [ofStamps_eq_empty_iff.mp h.symm]
  | cons s a =>
    cases b with
    | nil => exact absurd (ofStamps_eq_empty_iff.mp h) (List.cons_ne_nil s a)
    | cons t b => exact hdigest (digest.inj h)

theorem ofStamps_eq_iff_perm (a b : List Stamp) (ha : ∀ s ∈ a, s.HasPlainPath) (hb : ∀ s ∈ b, s.HasPlainPath) :
    (Stamp.encode a = Stamp.encode b ↔ a.Perm b) ∧
    (a.Perm b → ofStamps a = ofStamps b) ∧
    ((Blake3.digest (Stamp.encode a) = Blake3.digest (Stamp.encode b) → Stamp.encode a = Stamp.encode b) →
      (ofStamps a = ofStamps b ↔ a.Perm b) ∧ ((ofStamps a).text = (ofStamps b).text ↔ a.Perm b)) ∧
    (ofStamps a = empty ↔ a = []) := by
  have hencode := Stamp.encode_eq_iff_perm ha hb
  have hperm : a.Perm b → ofStamps a = ofStamps b := by
    intro h
    have hempty : a.isEmpty = b.isEmpty := by
      rw [Bool.eq_iff_iff, List.isEmpty_iff_length_eq_zero, List.isEmpty_iff_length_eq_zero, h.length_eq]
    unfold ofStamps
    rw [hencode.mpr h, hempty]
  refine ⟨hencode, hperm, ?_, ofStamps_eq_empty_iff⟩
  intro hdigest
  have hequal : ofStamps a = ofStamps b → a.Perm b := by
    intro h
    exact hencode.mp (encode_eq_of_ofStamps_eq hdigest h)
  refine ⟨⟨hequal, hperm⟩, ?_, ?_⟩
  . intro h
    exact hequal (text_injective h)
  . intro h
    rw [hperm h]

/--
A stamp whose numbers contain zero bytes and bytes of a path.
-/
def clientStamp : Stamp := { path := "client.py", size := 0x79702e6100, modified := 0x610000 }

def modelStamp : Stamp := { path := "a.py", size := 0, modified := 1 }

theorem clientStamp_modelStamp_fingerprint :
    (clientStamp.HasPlainPath ∧ modelStamp.HasPlainPath) ∧
    ofStamps [clientStamp, modelStamp] = ofStamps [modelStamp, clientStamp] ∧
    Stamp.encode [clientStamp, modelStamp] ≠ Stamp.encode [clientStamp] ∧
    ofStamps [clientStamp] ≠ ofStamps [modelStamp] := by
  have hclient : clientStamp.HasPlainPath := by
    rw [Stamp.HasPlainPath, Bytes.toList_eq]
    decide
  have hmodel : modelStamp.HasPlainPath := by
    rw [Stamp.HasPlainPath, Bytes.toList_eq]
    decide
  have hdigest : Blake3.digest (Stamp.encode [clientStamp]) ≠ Blake3.digest (Stamp.encode [modelStamp]) := by
    simp only [Stamp.encode, List.mergeSort_singleton, List.flatMap_singleton]
    decide +kernel
  refine ⟨⟨hclient, hmodel⟩, ?_, ?_, ?_⟩
  . apply (ofStamps_eq_iff_perm [clientStamp, modelStamp] [modelStamp, clientStamp] _ _).2.1 (.swap _ _ _)
    all_goals simp [hclient, hmodel]
  . intro hencode
    have hperm := (ofStamps_eq_iff_perm [clientStamp, modelStamp] [clientStamp] (by simp [hclient, hmodel])
      (by simp [hclient])).1.mp hencode
    simpa using hperm.length_eq
  . intro hequal
    have hperm := ((ofStamps_eq_iff_perm [clientStamp] [modelStamp] (by simp [hclient]) (by simp [hmodel])).2.2.1
      (fun heq => absurd heq hdigest)).1.mp hequal
    simp [clientStamp, modelStamp] at hperm

end Fingerprint

end ApiSurface
