import ApiSurface.Json.Printer
import ApiSurface.Json.Reader

/-!
This module contains the theory of reading what was printed: the indented form of a complete tree of texts, flags,
lists and objects reads back as the tree, with nothing left over.
-/

namespace ApiSurface.Json

/--
A tree without a fault, of texts, flags, lists and objects.
-/
inductive Complete : Json → Prop where
  | null : Complete .null
  | bool : Complete (.bool b)
  | str : Complete (.str s)
  | arr : (∀ j ∈ items, Complete j) → Complete (.arr items none)
  | obj : (∀ e ∈ entries, Complete e.2) → Complete (.obj entries none)

theorem Complete.fault?_eq {j : Json} (h : Complete j) : j.fault? = none := by
  cases h <;> rfl

namespace Reader

theorem hexDigit?_hexChar (n : Nat) (h : n < 16) : hexDigit? (hexChar n) = some n := by
  decide +revert

theorem hex4_control {c : Char} (h : c.toNat < 0x20) (rest : List Char) :
    hex4 ('0' :: '0' :: hexChar (c.toNat / 16) :: hexChar (c.toNat % 16) :: rest) = .ok (c.toNat, rest) := by
  have hzero : hexDigit? '0' = some 0 := rfl
  have hvalue : ((0 * 16 + 0) * 16 + c.toNat / 16) * 16 + c.toNat % 16 = c.toNat := by omega
  unfold hex4
  dsimp only
  rw [hzero, hexDigit?_hexChar _ (by omega), hexDigit?_hexChar _ (by omega)]
  dsimp only
  rw [hvalue]

theorem escape_control {c : Char} (h : c.toNat < 0x20) (rest : List Char) :
    escape ('u' :: '0' :: '0' :: hexChar (c.toNat / 16) :: hexChar (c.toNat % 16) :: rest) = .ok ⟨.ok c, rest⟩ := by
  simp only [escape, hex4_control h]
  unfold unitEscape
  rw [if_neg (by simp; omega), if_pos (by simp; omega), Char.ofNat_toNat]

/--
A string as far as it was read, with one more character before it.
-/
def Chars.push (c : Char) (more : Chars) : Chars :=
  { more with chars := c :: more.chars }

theorem stringBody_escape {c : Char} {text rest : List Char} (h : escape text = .ok ⟨.ok c, rest⟩) (fuel : Nat) :
    stringBody (fuel + 1) ('\\' :: text) = (stringBody fuel rest).map (Chars.push c) := by
  rw [stringBody, h]
  dsimp only
  cases stringBody fuel rest <;> rfl

theorem stringBody_named {c d : Char} (heq : (c == d) = true) {text rest : List Char}
    (h : escape text = .ok ⟨.ok d, rest⟩) (fuel : Nat) :
    stringBody (fuel + 1) ('\\' :: text) = (stringBody fuel rest).map (Chars.push c) := by
  rw [beq_iff_eq] at heq
  exact stringBody_escape (heq ▸ h) fuel

theorem stringBody_escapeChar (c : Char) (rest : List Char) (fuel : Nat) :
    stringBody (fuel + 1) (escapeChar c ++ rest) = (stringBody fuel rest).map (Chars.push c) := by
  unfold escapeChar
  -- the seven characters whose escapes have a letter or mark of their own
  iterate 7
    split
    . next heq => exact stringBody_named heq rfl fuel
  split
  . next h => exact stringBody_escape (escape_control h rest) fuel
  . next hquote hbackslash _ _ _ _ _ hcontrol =>
    rw [beq_iff_eq] at hquote hbackslash
    rw [List.singleton_append, stringBody]
    . rw [if_neg hcontrol]
      cases stringBody fuel rest <;> rfl
    . exact hquote
    . exact hbackslash

theorem stringBody_flatMap_escapeChar (cs rest : List Char) {fuel : Nat} (hfuel : cs.length < fuel) :
    stringBody fuel (cs.flatMap escapeChar ++ '"' :: rest) = .ok ⟨cs, none, rest⟩ := by
  induction cs generalizing fuel with
  | nil =>
    obtain ⟨fuel, rfl⟩ := Nat.exists_eq_add_one_of_ne_zero (Nat.ne_zero_of_lt hfuel)
    rfl
  | cons c cs ih =>
    obtain ⟨fuel, rfl⟩ := Nat.exists_eq_add_one_of_ne_zero (Nat.ne_zero_of_lt hfuel)
    rw [List.flatMap_cons, List.append_assoc, stringBody_escapeChar, ih (by simpa using hfuel)]
    rfl

theorem length_le_length_flatMap_escapeChar (cs : List Char) : cs.length ≤ (cs.flatMap escapeChar).length := by
  induction cs with
  | nil => simp
  | cons c cs ih =>
    have hpos : 0 < (escapeChar c).length := by
      unfold escapeChar
      repeat' split
      all_goals simp
    rw [List.flatMap_cons, List.length_append, List.length_cons]
    omega

theorem string_stringChars (s : String) (rest : List Char) :
    string (s.toList.flatMap escapeChar ++ '"' :: rest) = (.str s, rest) := by
  have hlength := length_le_length_flatMap_escapeChar s.toList
  unfold string
  rw [stringBody_flatMap_escapeChar _ _ (by rw [List.length_append]; omega)]
  dsimp only
  rw [String.ofList_toList]

theorem skip_newLine_append (depth : Nat) (cs : List Char) : skip (newLine depth ++ cs) = skip cs := by
  have hspaces : ∀ c ∈ newLine depth, isSpace c = true := by
    intro c hc
    simp only [newLine, List.mem_cons, List.mem_replicate] at hc
    rcases hc with rfl | ⟨_, rfl⟩ <;> rfl
  unfold skip
  rw [List.dropWhile_append_of_pos hspaces]

/--
The text starts with a character that starts a value.
-/
def StartsValue (cs : List Char) : Prop :=
  ∃ c rest, cs = c :: rest ∧ isSpace c = false ∧ c ≠ ',' ∧ c ≠ ']'

theorem StartsValue.skip_eq {cs : List Char} (h : StartsValue cs) : skip cs = cs := by
  obtain ⟨c, rest, rfl, hspace, -, -⟩ := h
  simp [skip, hspace]

theorem startsValue_prettyChars {j : Json} (h : Complete j) (depth : Nat) (rest : List Char) :
    StartsValue (j.prettyChars depth ++ rest) := by
  cases h with
  | null => exact ⟨'n', _, rfl, by decide⟩
  | @bool b => cases b <;> exact ⟨_, _, rfl, by decide⟩
  | str => exact ⟨'"', _, rfl, by decide⟩
  | @arr items _ => cases items <;> exact ⟨'[', _, rfl, by decide⟩
  | @obj entries _ => cases entries <;> exact ⟨'{', _, rfl, by decide⟩

theorem value_eq_of_skip_eq {fuel : Nat} {cs ds : List Char} (h : skip cs = skip ds) :
    value fuel cs = value fuel ds := by
  cases fuel with
  | zero => rfl
  | succ fuel => rw [value, value, h]

theorem item_eq_of_skip_eq {fuel : Nat} {cs ds : List Char} (h : skip cs = skip ds) :
    item fuel cs = item fuel ds := by
  cases fuel with
  | zero => rfl
  | succ fuel => rw [item, item, value_eq_of_skip_eq h]

theorem items_close (fuel : Nat) (first : Bool) (depth : Nat) (rest : List Char) :
    items (fuel + 1) first (newLine depth ++ ']' :: rest) = ([], none, rest) := by
  have hskip : skip (newLine depth ++ ']' :: rest) = ']' :: rest := by
    rw [skip_newLine_append]
    rfl
  rw [items, hskip]
  rfl

theorem items_first {fuel : Nat} {cs : List Char} (h : StartsValue (skip cs)) :
    items (fuel + 1) true cs = item fuel cs := by
  have hskip := h.skip_eq
  obtain ⟨c, rest, hcs, -, hcomma, hclose⟩ := h
  rw [items]
  split
  . next hnil => simp [hcs] at hnil
  . next heq => exact absurd (List.cons.inj (hcs.symm.trans heq)).1 hclose
  . next heq => exact absurd (List.cons.inj (hcs.symm.trans heq)).1 hcomma
  . exact item_eq_of_skip_eq hskip

theorem items_next {fuel : Nat} {cs : List Char} (h : StartsValue (skip cs)) :
    items (fuel + 1) false (',' :: cs) = item fuel cs := by
  have hskip := h.skip_eq
  have hsep : skip (',' :: cs) = ',' :: cs := rfl
  obtain ⟨c, rest, hcs, -, hcomma, hclose⟩ := h
  rw [items, hsep]
  simp only [Bool.false_eq_true, if_false]
  split
  . next hnil => simp [hcs] at hnil
  . next heq => exact absurd (List.cons.inj (hcs.symm.trans heq)).1 hclose
  . exact item_eq_of_skip_eq hskip

theorem entries_close (fuel : Nat) (first : Bool) (depth : Nat) (rest : List Char) :
    entries (fuel + 1) first (newLine depth ++ '}' :: rest) = ([], none, rest) := by
  have hskip : skip (newLine depth ++ '}' :: rest) = '}' :: rest := by
    rw [skip_newLine_append]
    rfl
  rw [entries, hskip]
  rfl

theorem entries_first {fuel : Nat} {cs rest : List Char} (h : skip cs = '"' :: rest) :
    entries (fuel + 1) true cs = entry fuel rest := by
  rw [entries, h]
  rfl

theorem entries_next {fuel : Nat} {cs rest : List Char} (h : skip cs = '"' :: rest) :
    entries (fuel + 1) false (',' :: cs) = entry fuel rest := by
  have hsep : skip (',' :: cs) = ',' :: cs := rfl
  rw [entries, hsep]
  simp only [h, Bool.false_eq_true, if_false]

/--
The tree is read back from its indented form at any depth, whatever follows it.
-/
def ReadsBack (j : Json) : Prop :=
  ∀ depth fuel rest, 3 * (j.prettyChars depth).length ≤ fuel → value fuel (j.prettyChars depth ++ rest) = (j, rest)

/--
What follows an element or entry: nothing after the last one, and before others a comma.
-/
def separated (print : List α → List Char) : List α → List Char
  | [] => []
  | a :: more => ',' :: print (a :: more)

theorem prettyItems_cons (depth : Nat) (j : Json) (more : List Json) :
    prettyItems depth (j :: more)
      =
    newLine depth ++ (j.prettyChars depth ++ separated (prettyItems depth) more) := by
  cases more <;> simp [prettyItems, separated]

theorem prettyEntries_cons (depth : Nat) (k : String) (j : Json) (more : List (String × Json)) :
    prettyEntries depth ((k, j) :: more)
      =
    newLine depth ++ ('"' :: (k.toList.flatMap escapeChar ++
      ('"' :: ':' :: ' ' :: (j.prettyChars depth ++ separated (prettyEntries depth) more)))) := by
  cases more <;> simp [prettyEntries, separated, stringChars]

theorem startsValue_prettyItems {j : Json} (h : Complete j) (depth : Nat) (more : List Json) (rest : List Char) :
    StartsValue (skip (prettyItems depth (j :: more) ++ rest)) := by
  rw [prettyItems_cons, List.append_assoc, List.append_assoc, skip_newLine_append,
    (startsValue_prettyChars h depth _).skip_eq]
  apply startsValue_prettyChars h

theorem ReadsBack.value_eq {j : Json} (h : ReadsBack j) {depth fuel : Nat} {cs rest : List Char}
    (hskip : skip cs = skip (j.prettyChars depth ++ rest)) (hfuel : 3 * (j.prettyChars depth).length ≤ fuel) :
    value fuel cs = (j, rest) := by
  rw [value_eq_of_skip_eq hskip]
  exact h depth fuel rest hfuel

theorem item_prettyItems {j : Json} {more : List Json} (hcomplete : Complete j) (hback : ReadsBack j)
    {depth fuel : Nat} {tail rest : List Char} (hfuel : 3 * (j.prettyChars depth).length ≤ fuel)
    (hmore : items fuel false (separated (prettyItems depth) more ++ tail) = (more, none, rest)) :
    item (fuel + 1) (prettyItems depth (j :: more) ++ tail) = (j :: more, none, rest) := by
  rw [prettyItems_cons, List.append_assoc, List.append_assoc, item,
    hback.value_eq (skip_newLine_append depth _) hfuel]
  dsimp only
  rw [hcomplete.fault?_eq]
  dsimp only
  rw [hmore]

theorem items_separated {more : List Json} (hcomplete : ∀ j ∈ more, Complete j) (hback : ∀ j ∈ more, ReadsBack j)
    (depth outer fuel : Nat) (rest : List Char) (hfuel : 3 * (separated (prettyItems depth) more).length < fuel) :
    items fuel false (separated (prettyItems depth) more ++ (newLine outer ++ ']' :: rest))
      =
    (more, none, rest) := by
  induction more generalizing fuel with
  | nil =>
    obtain ⟨fuel, rfl⟩ := Nat.exists_eq_add_one_of_ne_zero (Nat.ne_zero_of_lt hfuel)
    apply items_close
  | cons j more ih =>
    rw [separated, prettyItems_cons] at hfuel
    simp only [List.length_cons, List.length_append] at hfuel
    obtain ⟨fuel, rfl⟩ : ∃ f, fuel = f + 2 := ⟨fuel - 2, by omega⟩
    rw [List.forall_mem_cons] at hcomplete hback
    rw [separated, List.cons_append, items_next (startsValue_prettyItems hcomplete.1 depth more _)]
    exact item_prettyItems hcomplete.1 hback.1 (by omega) (ih hcomplete.2 hback.2 fuel (by omega))

/--
The entries of an object in their indented form, from the key of the first one on.
-/
def entriesFromKey (depth : Nat) (k : String) (j : Json) (more : List (String × Json)) : List Char :=
  k.toList.flatMap escapeChar ++ ('"' :: ':' :: ' ' :: (j.prettyChars depth ++ separated (prettyEntries depth) more))

theorem skip_prettyEntries (depth : Nat) (k : String) (j : Json) (more : List (String × Json)) (rest : List Char) :
    skip (prettyEntries depth ((k, j) :: more) ++ rest) = '"' :: (entriesFromKey depth k j more ++ rest) := by
  rw [prettyEntries_cons, List.append_assoc, skip_newLine_append]
  rfl

theorem entry_entriesFromKey {k : String} {j : Json} {more : List (String × Json)} (hcomplete : Complete j)
    (hback : ReadsBack j) {depth fuel : Nat} {tail rest : List Char} (hfuel : 3 * (j.prettyChars depth).length ≤ fuel)
    (hmore : entries fuel false (separated (prettyEntries depth) more ++ tail) = (more, none, rest)) :
    entry (fuel + 1) (entriesFromKey depth k j more ++ tail) = ((k, j) :: more, none, rest) := by
  have hcolon : ∀ cs, skip (':' :: cs) = ':' :: cs := fun _ => rfl
  have hspace : ∀ cs, skip (' ' :: cs) = skip cs := fun _ => rfl
  rw [entriesFromKey, List.append_assoc, entry, List.cons_append, string_stringChars]
  simp only [List.cons_append, List.append_assoc, hcolon, hback.value_eq (hspace _) hfuel, hcomplete.fault?_eq, hmore]

theorem entries_separated {more : List (String × Json)} (hcomplete : ∀ e ∈ more, Complete e.2)
    (hback : ∀ e ∈ more, ReadsBack e.2) (depth outer fuel : Nat) (rest : List Char)
    (hfuel : 3 * (separated (prettyEntries depth) more).length < fuel) :
    entries fuel false (separated (prettyEntries depth) more ++ (newLine outer ++ '}' :: rest))
      =
    (more, none, rest) := by
  induction more generalizing fuel with
  | nil =>
    obtain ⟨fuel, rfl⟩ := Nat.exists_eq_add_one_of_ne_zero (Nat.ne_zero_of_lt hfuel)
    apply entries_close
  | cons e more ih =>
    obtain ⟨k, j⟩ := e
    rw [separated, prettyEntries_cons] at hfuel
    simp only [List.length_cons, List.length_append] at hfuel
    obtain ⟨fuel, rfl⟩ : ∃ f, fuel = f + 2 := ⟨fuel - 2, by omega⟩
    rw [List.forall_mem_cons] at hcomplete hback
    rw [separated, List.cons_append, entries_next (skip_prettyEntries depth k j more _)]
    exact entry_entriesFromKey hcomplete.1 hback.1 (by dsimp only; omega) (ih hcomplete.2 hback.2 fuel (by omega))

theorem value_arr {fuel : Nat} {cs rest : List Char} {js : List Json} (h : items fuel true cs = (js, none, rest)) :
    value (fuel + 1) ('[' :: cs) = (.arr js none, rest) := by
  have hvalue : value (fuel + 1) ('[' :: cs)
      = (.arr (items fuel true cs).1 (items fuel true cs).2.1, (items fuel true cs).2.2) := by
    rw [value]
    rfl
  rw [hvalue, h]

theorem value_obj {fuel : Nat} {cs rest : List Char} {es : List (String × Json)}
    (h : entries fuel true cs = (es, none, rest)) : value (fuel + 1) ('{' :: cs) = (.obj es none, rest) := by
  have hvalue : value (fuel + 1) ('{' :: cs)
      = (.obj (entries fuel true cs).1 (entries fuel true cs).2.1, (entries fuel true cs).2.2) := by
    rw [value]
    rfl
  rw [hvalue, h]

theorem exists_fuel_of_prettyChars {j : Json} (h : Complete j) {depth fuel : Nat}
    (hfuel : 3 * (j.prettyChars depth).length ≤ fuel) : ∃ f, fuel = f + 3 := by
  obtain ⟨c, rest, hcs, -⟩ := startsValue_prettyChars h depth []
  rw [List.append_nil] at hcs
  rw [hcs, List.length_cons] at hfuel
  exact ⟨fuel - 3, by omega⟩

theorem readsBack_null : ReadsBack .null := by
  intro depth fuel rest hfuel
  obtain ⟨fuel, rfl⟩ := exists_fuel_of_prettyChars .null hfuel
  rw [value]
  rfl

theorem readsBack_bool (b : Bool) : ReadsBack (.bool b) := by
  intro depth fuel rest hfuel
  obtain ⟨fuel, rfl⟩ := exists_fuel_of_prettyChars .bool hfuel
  cases b with
  | true =>
    rw [value]
    rfl
  | false =>
    rw [value]
    rfl

theorem readsBack_str (s : String) : ReadsBack (.str s) := by
  intro depth fuel rest hfuel
  obtain ⟨fuel, rfl⟩ := exists_fuel_of_prettyChars .str hfuel
  have hvalue : value (fuel + 3) ('"' :: (s.toList.flatMap escapeChar ++ '"' :: rest))
      = string (s.toList.flatMap escapeChar ++ '"' :: rest) := by
    rw [value]
    rfl
  simp only [prettyChars, stringChars, List.cons_append, List.append_assoc, List.nil_append]
  rw [hvalue, string_stringChars]

theorem readsBack_arr {js : List Json} (hcomplete : ∀ j ∈ js, Complete j) (hback : ∀ j ∈ js, ReadsBack j) :
    ReadsBack (.arr js none) := by
  intro depth fuel rest hfuel
  obtain ⟨fuel, rfl⟩ := exists_fuel_of_prettyChars (.arr hcomplete) hfuel
  cases js with
  | nil =>
    apply value_arr
    rw [items]
    rfl
  | cons j more =>
    rw [List.forall_mem_cons] at hcomplete hback
    simp only [prettyChars, prettyItems_cons, List.length_cons, List.length_append] at hfuel
    rw [prettyChars, List.cons_append, List.append_assoc, List.append_assoc]
    apply value_arr
    rw [items_first (startsValue_prettyItems hcomplete.1 _ _ _)]
    apply item_prettyItems hcomplete.1 hback.1 (by omega)
    apply items_separated hcomplete.2 hback.2
    omega

theorem readsBack_obj {es : List (String × Json)} (hcomplete : ∀ e ∈ es, Complete e.2)
    (hback : ∀ e ∈ es, ReadsBack e.2) : ReadsBack (.obj es none) := by
  intro depth fuel rest hfuel
  obtain ⟨fuel, rfl⟩ := exists_fuel_of_prettyChars (.obj hcomplete) hfuel
  cases es with
  | nil =>
    apply value_obj
    rw [entries]
    rfl
  | cons e more =>
    obtain ⟨k, j⟩ := e
    rw [List.forall_mem_cons] at hcomplete hback
    simp only [prettyChars, prettyEntries_cons, List.length_cons, List.length_append] at hfuel
    rw [prettyChars, List.cons_append, List.append_assoc, List.append_assoc]
    apply value_obj
    rw [entries_first (skip_prettyEntries _ _ _ _ _)]
    apply entry_entriesFromKey hcomplete.1 hback.1 (by dsimp only; omega)
    apply entries_separated hcomplete.2 hback.2
    omega

theorem readsBack_of_complete {j : Json} (h : Complete j) : ReadsBack j := by
  induction h with
  | null => exact readsBack_null
  | bool => exact readsBack_bool _
  | str => exact readsBack_str _
  | arr hcomplete ih => exact readsBack_arr hcomplete ih
  | obj hcomplete ih => exact readsBack_obj hcomplete ih

end Reader

theorem Document.read_pretty {j : Json} (h : Complete j) : Document.read j.pretty = ⟨j, none⟩ := by
  have hread := Reader.readsBack_of_complete h 0 (3 * (j.prettyChars 0).length + 3) [] (by omega)
  rw [List.append_nil] at hread
  unfold Document.read pretty
  rw [String.toList_ofList]
  dsimp only
  rw [hread]
  dsimp only
  rw [h.fault?_eq]
  rfl

end ApiSurface.Json
