import ApiSurface.Json.Decoder
import ApiSurface.Proofs.Json.Reading

/-!
This module contains the theory of decoders that invert a way to write values as trees. For records it goes field by
field: a group of fields reads its part of the value from its part of the entries, and two such groups of different
names go together.
-/

namespace ApiSurface.Json

/--
The decoder reads every value back from the tree that `encode` makes of it, and the tree is complete.
-/
structure Decoder.Inverts (d : Decoder α) (encode : α → Json) : Prop where
  complete : ∀ a, Complete (encode a)
  decode_eq : ∀ a, d (encode a) = .ok a

theorem Decoder.Inverts.decode_pretty {d : Decoder α} {encode : α → Json} (h : d.Inverts encode) (a : α) :
    decode d (encode a).pretty = .ok a := by
  unfold decode
  rw [Document.read_pretty (h.complete a)]
  dsimp only
  rw [h.decode_eq]

theorem Decoder.string_inverts : Decoder.string.Inverts Json.str where
  complete _ := .str
  decode_eq _ := rfl

theorem Decoder.Inverts.elements_map {d : Decoder α} {encode : α → Json} (h : d.Inverts encode) (as : List α) :
    Decoder.elements d (as.map encode) = .ok as := by
  induction as with
  | nil => rfl
  | cons a as ih =>
    rw [List.map_cons, Decoder.elements, h.decode_eq, ih]

theorem Decoder.Inverts.list {d : Decoder α} {encode : α → Json} (h : d.Inverts encode) :
    (Decoder.list d).Inverts (fun as => Json.list (as.map encode)) where
  complete as := by
    apply Complete.arr
    intro j hj
    obtain ⟨a, -, rfl⟩ := List.mem_map.mp hj
    exact h.complete a
  decode_eq as := by
    unfold Json.list Decoder.list
    dsimp only
    rw [h.elements_map]

theorem Decoder.variant_inverts {all : List α} {name : α → String} (hall : ∀ a, a ∈ all)
    (hname : ∀ a b, name a = name b → a = b) :
    (Decoder.variant (all.map (fun a => (name a, a)))).Inverts (fun a => .str (name a)) where
  complete _ := .str
  decode_eq a := by
    unfold variant
    dsimp only
    unfold variant.pick
    rw [List.find?_map]
    cases hfind : all.find? ((fun v : String × α => v.1 == name a) ∘ fun a => (name a, a)) with
    | none => simpa using List.find?_eq_none.mp hfind a (hall a)
    | some b =>
      have hb := List.find?_some hfind
      rw [Function.comp_apply, beq_iff_eq] at hb
      simp [hname b a hb]

/--
The fields read `a` wherever the entries of their names are those of `entries`, which are complete and stand in the
order of the names.
-/
structure Fields.ReadsFrom (f : Fields α) (names : List String) (entries : List (String × Json)) (a : α) : Prop where
  keys : (entries.map (·.1)).Sublist names
  complete : ∀ e ∈ entries, Complete e.2
  reads : names.Nodup → ∀ es : Entries, (∀ name ∈ names, es.items.lookup name = entries.lookup name) → f es = .ok a

theorem lookup_eq_none_of_keys {entries : List (String × Json)} {names : List String}
    (hkeys : (entries.map (·.1)).Sublist names) {name : String} (h : name ∉ names) : entries.lookup name = none := by
  rw [List.lookup_eq_none_iff]
  intro e he
  have hmem : e.1 ∈ names := hkeys.subset (List.mem_map_of_mem he)
  rw [bne_iff_ne]
  rintro rfl
  exact h hmem

namespace Fields

theorem map_find?_zipIdx (name : String) (items : List (String × Json)) (place : Nat) :
    ((items.zipIdx place).find? (fun e => e.1.1 == name)).map (fun e => e.1.2) = items.lookup name := by
  induction items generalizing place with
  | nil => rfl
  | cons e items ih =>
    rw [List.zipIdx_cons, List.find?_cons, List.lookup_cons, BEq.comm]
    cases name == e.1 with
    | true => rfl
    | false => exact ih (place + 1)

theorem map_snd_find (name : String) (es : Entries) : (find name es).map (·.2) = es.items.lookup name := by
  unfold find
  rw [Option.map_map]
  exact map_find?_zipIdx name es.items 0

theorem find_of_lookup_eq_none {name : String} {es : Entries} (h : es.items.lookup name = none) :
    find name es = none := by
  rw [← map_snd_find] at h
  simpa using h

theorem find_of_lookup_eq_some {name : String} {es : Entries} {j : Json} (h : es.items.lookup name = some j) :
    ∃ place, find name es = some (place, j) := by
  rw [← map_snd_find, Option.map_eq_some_iff] at h
  obtain ⟨⟨place, j⟩, hfind, rfl⟩ := h
  exact ⟨place, hfind⟩

variable {d : Decoder α} {encode : α → Json} {name : String} {j : Json} {a value : α}

theorem required_eq_ok {es : Entries} (h : es.items.lookup name = some j) (hread : d j = .ok a) :
    required name d es = .ok a := by
  obtain ⟨place, hfind⟩ := find_of_lookup_eq_some h
  unfold required
  rw [hfind]
  dsimp only
  rw [hread]
  rfl

theorem withDefault_eq_required {es : Entries} (h : es.items.lookup name = some j) :
    withDefault name d value es = required name d es := by
  obtain ⟨place, hfind⟩ := find_of_lookup_eq_some h
  unfold withDefault required
  rw [hfind]

theorem ReadsFrom.required (h : d.Inverts encode) (name : String) (a : α) :
    (required name d).ReadsFrom [name] [(name, encode a)] a where
  keys := List.Sublist.refl _
  complete := by simpa using h.complete a
  reads _ es hes := required_eq_ok ((hes name List.mem_cons_self).trans List.lookup_cons_self) (h.decode_eq a)

theorem ReadsFrom.present (hcomplete : Complete j) (hread : d j = .ok a) :
    (withDefault name d value).ReadsFrom [name] [(name, j)] a where
  keys := List.Sublist.refl _
  complete := by simpa using hcomplete
  reads _ es hes := by
    have hlookup := (hes name List.mem_cons_self).trans List.lookup_cons_self
    rw [withDefault_eq_required hlookup]
    exact required_eq_ok hlookup hread

theorem ReadsFrom.absent : (withDefault name d value).ReadsFrom [name] [] value where
  keys := List.nil_sublist _
  complete := by simp
  reads _ es hes := by
    unfold withDefault
    rw [find_of_lookup_eq_none (hes name List.mem_cons_self)]

theorem ReadsFrom.withDefault (h : d.Inverts encode) (name : String) (value a : α) :
    (withDefault name d value).ReadsFrom [name] [(name, encode a)] a :=
  .present (h.complete a) (h.decode_eq a)

theorem ReadsFrom.map {g : Fields α} {names : List String} {entries : List (String × Json)}
    (h : g.ReadsFrom names entries a) (f : α → β) : (f <$> g).ReadsFrom names entries (f a) where
  keys := h.keys
  complete := h.complete
  reads hnames es hes := by
    change both (pure f) g es = .ok (f a)
    unfold both
    rw [h.reads hnames es hes]
    rfl

theorem ReadsFrom.seq {f : Fields (α → β)} {g : Fields α} {ns ms : List String} {es fs : List (String × Json)}
    {h : α → β} (hf : f.ReadsFrom ns es h) (hg : g.ReadsFrom ms fs a) :
    (f <*> g).ReadsFrom (ns ++ ms) (es ++ fs) (h a) where
  keys := by
    rw [List.map_append]
    exact hf.keys.append hg.keys
  complete := by
    intro e he
    exact (List.mem_append.mp he).elim (hf.complete e) (hg.complete e)
  reads hnames all hall := by
    obtain ⟨hns, hms, hdisjoint⟩ := List.nodup_append.mp hnames
    have hleft : ∀ name ∈ ns, all.items.lookup name = es.lookup name := by
      intro name hname
      have hnot : name ∉ ms := fun hmem => hdisjoint name hname name hmem rfl
      rw [hall name (List.mem_append_left ms hname), List.lookup_append, lookup_eq_none_of_keys hg.keys hnot,
        Option.or_none]
    have hright : ∀ name ∈ ms, all.items.lookup name = fs.lookup name := by
      intro name hname
      have hnot : name ∉ ns := fun hmem => hdisjoint name hmem name hname rfl
      rw [hall name (List.mem_append_right ns hname), List.lookup_append, lookup_eq_none_of_keys hf.keys hnot,
        Option.none_or]
    change both f g all = .ok (h a)
    unfold both
    rw [hf.reads hns all hleft, hg.reads hms all hright]

end Fields

theorem strayEntry_eq_none {names : List String} {entries : List (String × Json)}
    (hknown : ∀ e ∈ entries, e.1 ∈ names) (hnodup : (entries.map (·.1)).Nodup) {seen : List String}
    (hseen : ∀ e ∈ entries, e.1 ∉ seen) (place : Nat) : strayEntry names entries seen place = none := by
  induction entries generalizing seen place with
  | nil => rfl
  | cons e entries ih =>
    obtain ⟨k, j⟩ := e
    rw [List.map_cons, List.nodup_cons] at hnodup
    have hk : k ∈ names := hknown (k, j) List.mem_cons_self
    have hfresh : k ∉ seen := hseen (k, j) List.mem_cons_self
    rw [strayEntry, if_pos (by simpa using hk), if_neg (by simpa using hfresh)]
    apply ih (fun e he => hknown e (List.mem_cons_of_mem _ he)) hnodup.2
    intro e he hmem
    rcases List.mem_cons.mp hmem with heq | hmem
    . exact hnodup.1 (List.mem_map.mpr ⟨e, he, heq⟩)
    . exact hseen e (List.mem_cons_of_mem _ he) hmem

theorem Decoder.record_inverts {names : List String} {fields : Fields α} {entries : α → List (String × Json)}
    (hnames : names.Nodup) (h : ∀ a, fields.ReadsFrom names (entries a) a) (title : String) :
    (Decoder.record title names fields).Inverts (fun a => .object (entries a)) where
  complete a := .obj (h a).complete
  decode_eq a := by
    have hknown : ∀ e ∈ entries a, e.1 ∈ names := fun e he => (h a).keys.subset (List.mem_map_of_mem he)
    have hstray := strayEntry_eq_none hknown ((h a).keys.nodup hnames) (fun e _ => List.not_mem_nil) 0
    have hread := (h a).reads hnames ⟨entries a, .missingField⟩ (fun _ _ => rfl)
    unfold record object
    dsimp only
    rw [hread, hstray]
    rfl

end ApiSurface.Json
