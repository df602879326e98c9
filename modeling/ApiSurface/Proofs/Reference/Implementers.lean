import ApiSurface.Proofs.Reference.Edges

/-!
This module contains which types are within reach as implementers of an interface, by the names of their operations.
An interface asks for all of its callable members, so one that carries its own constructors asks for these as well:
a type that has all other operations of such an interface is not taken for an implementer.
-/

namespace ApiSurface

namespace TypeEntry

variable {t face : TypeEntry}

theorem mem_callables {m : Member} : m ∈ t.callables ↔ m ∈ t.members ∧ m.isCallable = true := by
  simp [callables]

theorem hasCallables_of_mem {m : Member} (hm : m ∈ t.callables) : t.hasCallables = true := by
  rw [mem_callables] at hm
  exact List.any_eq_true.mpr ⟨m, hm⟩

/--
The type has an operation of this name.
-/
def Offers (t : TypeEntry) (name : String) : Prop :=
  ∃ o ∈ t.callables, o.name = name

/--
The type has, by name, all operations of the interface that are not constructors.
-/
def CoversMethods (t face : TypeEntry) : Prop :=
  ∀ m ∈ face.callables, m.kind ≠ .constructor → t.Offers m.name

/--
The type has, by name, all constructors of the interface.
-/
def CoversConstructors (t face : TypeEntry) : Prop :=
  ∀ m ∈ face.members, m.kind = .constructor → t.Offers m.name

instance (t : TypeEntry) (name : String) : Decidable (t.Offers name) :=
  inferInstanceAs (Decidable (∃ o ∈ t.callables, o.name = name))

instance (t face : TypeEntry) : Decidable (t.CoversMethods face) :=
  inferInstanceAs (Decidable (∀ m ∈ face.callables, m.kind ≠ .constructor → t.Offers m.name))

instance (t face : TypeEntry) : Decidable (t.CoversConstructors face) :=
  inferInstanceAs (Decidable (∀ m ∈ face.members, m.kind = .constructor → t.Offers m.name))

theorem covers_callables_iff :
    (∀ m ∈ face.callables, t.Offers m.name) ↔ t.CoversMethods face ∧ t.CoversConstructors face := by
  constructor
  . intro hall
    constructor
    . intro m hm _
      exact hall m hm
    . intro m hm hkind
      apply hall m
      rw [mem_callables]
      exact ⟨hm, by simp [Member.isCallable, MemberKind.isCallable, hkind]⟩
  . rintro ⟨hmethods, hconstructors⟩ m hm
    by_cases hkind : m.kind = .constructor
    . exact hconstructors m (mem_callables.mp hm).1 hkind
    . exact hmethods m hm hkind

end TypeEntry

namespace ReferenceGraph

theorem satisfies_iff {t face : TypeEntry} :
    satisfies t face = true
      ↔
    t.kind ≠ .interface ∧ face.kind = .interface ∧ face.hasCallables = true ∧
      t.CoversMethods face ∧ t.CoversConstructors face := by
  rw [← TypeEntry.covers_callables_iff]
  simp only [satisfies, Bool.and_eq_true, bne_iff_ne, beq_iff_eq, List.all_eq_true, List.any_eq_true, and_assoc]
  rfl

theorem reachable_of_satisfies {i : Index} {d face : String × TypeEntry} (hd : d ∈ i.types) (hface : face ∈ i.types)
    (hsatisfies : satisfies d.2 face.2 = true) (hreach : declaredKey face ∈ (ofIndex i).reachable) :
    declaredKey d ∈ (ofIndex i).reachable := by
  apply reachable_closed hreach
  rw [edge_ofIndex_iff]
  exact Or.inr (Or.inr ⟨d, hd, rfl, face, hface, rfl, hsatisfies⟩)

theorem reachable_of_coversConstructors (i : Index) (ns ns' : String) (face t : TypeEntry)
    (hface : (ns, face) ∈ i.types) (ht : (ns', t) ∈ i.types) (hinterface : face.kind = .interface)
    (hkind : t.kind ≠ .interface) (hoperation : ∃ m ∈ face.callables, m.kind ≠ .constructor)
    (hcovers : t.CoversMethods face) (hreach : ⟨ns, face.name⟩ ∈ (ofIndex i).reachable) :
    (satisfies t face = true ↔ t.CoversConstructors face) ∧
    (t.CoversConstructors face → ⟨ns', t.name⟩ ∈ (ofIndex i).reachable) := by
  have hiff : satisfies t face = true ↔ t.CoversConstructors face := by
    obtain ⟨m, hm, -⟩ := hoperation
    rw [satisfies_iff]
    simp [hkind, hinterface, TypeEntry.hasCallables_of_mem hm, hcovers]
  refine ⟨hiff, ?_⟩
  intro hconstructors
  exact reachable_of_satisfies ht hface (hiff.mpr hconstructors) hreach

end ReferenceGraph

namespace Network

def client : TypeEntry where
  name := "Client"
  kind := .struct
  entryPoint := true
  members := [{ name := "Use", kind := .method, sig := "t Transport, c Codec" }]

def transport : TypeEntry where
  name := "Transport"
  kind := .interface
  members := [{ name := "NewTransport", kind := .constructor }, { name := "Send", kind := .method }]

def httpTransport : TypeEntry where
  name := "HttpTransport"
  kind := .struct
  members := [{ name := "Send", kind := .method }]

def codec : TypeEntry where
  name := "Codec"
  kind := .interface
  members := [{ name := "Encode", kind := .method }]

def jsonCodec : TypeEntry where
  name := "JsonCodec"
  kind := .struct
  members := [{ name := "Encode", kind := .method }]

/--
Two interfaces, one of which carries a constructor, and a type with the other operations of each.
-/
def index : Index where
  package := "network"
  namespaces := [{ name := "network", types := [client, transport, httpTransport, codec, jsonCodec] }]

theorem mem_reachable_of_client {k : TypeKey}
    (hmention : (⟨"network", "Client"⟩, k) ∈ (ReferenceGraph.ofIndex index).references) :
    k ∈ (ReferenceGraph.ofIndex index).reachable := by
  have hroot : ⟨"network", "Client"⟩ ∈ (ReferenceGraph.ofIndex index).roots := by decide +kernel
  have hclient := ReferenceGraph.mem_reachable.mpr (ReferenceGraph.Reaches.of_mem hroot)
  exact ReferenceGraph.reachable_closed hclient (Or.inl hmention)

theorem jsonCodec_mem_reachable : ⟨"network", "JsonCodec"⟩ ∈ (ReferenceGraph.ofIndex index).reachable := by
  have hcodec : ⟨"network", "Codec"⟩ ∈ (ReferenceGraph.ofIndex index).reachable :=
    mem_reachable_of_client (by decide +kernel)
  have himplements := ReferenceGraph.reachable_of_coversConstructors index "network" "network" codec jsonCodec
    (by decide) (by decide) rfl (by decide) (by decide) (by decide) hcodec
  exact himplements.2 (by decide)

theorem httpTransport_not_mem_reachable :
    ("network", transport) ∈ index.types ∧ ("network", httpTransport) ∈ index.types ∧
    transport.kind = .interface ∧ httpTransport.kind ≠ .interface ∧
    (∃ m ∈ transport.callables, m.kind ≠ .constructor) ∧ httpTransport.CoversMethods transport ∧
    ⟨"network", "Transport"⟩ ∈ (ReferenceGraph.ofIndex index).reachable ∧
    ⟨"network", "HttpTransport"⟩ ∉ (ReferenceGraph.ofIndex index).reachable := by
  refine ⟨by decide, by decide, rfl, by decide, by decide, by decide, mem_reachable_of_client (by decide +kernel), ?_⟩
  intro hmem
  have hkept : (⟨"network", "HttpTransport"⟩ : TypeKey) ∈ [⟨"network", "Client"⟩, ⟨"network", "Transport"⟩,
      ⟨"network", "Codec"⟩, (⟨"network", "JsonCodec"⟩ : TypeKey)] := by
    apply ReferenceGraph.mem_of_mem_reachable _ _ hmem
    . decide +kernel
    . decide +kernel
  simp at hkept

end Network

end ApiSurface
