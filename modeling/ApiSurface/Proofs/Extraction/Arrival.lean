import ApiSurface.Proofs.Extraction.Assembly

/-!
This module contains what reading files at the same time does to the result of an assembly. Their records come in
mixed, in an order that nobody chose. Everything that the assembly sorts by origin is the same in the end. Interfaces
it does not sort: a type that several files declare always has the same ones, but in the order in which they came in.
-/

namespace ApiSurface

open Ledger

namespace Assembly

theorem finish_withoutInterfaces_eq (files : List FileRecords) (hpaths : (files.map (·.path)).Nodup)
    (hapart : WinnersApart (files.flatMap (·.records))) :
    (∀ xs ys, Interleaving (files.map (·.records)) xs → Interleaving (files.map (·.records)) ys →
      (ofRecords xs).finish.withoutInterfaces = (ofRecords ys).finish.withoutInterfaces) ∧
    (∀ batches xs, batches.flatten = files.map (·.records) → Batched batches xs →
      (ofRecords xs).finish.withoutInterfaces
        =
      (ofRecords (files.flatMap (·.records))).finish.withoutInterfaces) := by
  simp only [finish_ofRecords]
  constructor
  . intro xs ys hxs hys
    rw [hxs.collect_eq hpaths hapart, hys.collect_eq hpaths hapart]
  . intro batches xs hbatches hxs
    have harrived := hxs.interleaving
    rw [hbatches] at harrived
    exact harrived.collect_eq hpaths hapart

/--
One of two files that declare a client.
-/
def unixClient : FileRecords where
  path := "client_unix.go"
  records := [
    .member "pkg" "Client" { name := "Close", kind := .method } ⟨"client_unix.go", 40⟩,
    .declare "pkg" { name := "Client", kind := .struct, interfaces := ["Closer"] } ⟨"client_unix.go", 10⟩,
    .imports "pkg" [{ «local» := "io", package := "io" }]]
  origin_file := by decide

/--
The other one, with a type of its own beside the client.
-/
def windowsClient : FileRecords where
  path := "client_windows.go"
  records := [
    .declare "pkg" { name := "Handle", kind := .aliasType, interfaces := ["Flusher"], values := ["Open"] }
      ⟨"client_windows.go", 5⟩,
    .value "pkg" "Handle" "Shut" ⟨"client_windows.go", 60⟩,
    .declare "pkg" { name := "Client", kind := .struct, doc := some "Windows", interfaces := ["Handler"] }
      ⟨"client_windows.go", 20⟩,
    .imports "pkg" [{ «local» := "io", package := "io" }]]
  origin_file := by decide

/--
What arrives if the second file overtakes the first.
-/
def clientArrival : List Record :=
  windowsClient.records.take 3 ++ unixClient.records ++ windowsClient.records.drop 3

theorem interleaving_clientArrival : Interleaving ([unixClient, windowsClient].map (·.records)) clientArrival :=
  .step [unixClient.records] <| .step [unixClient.records] <| .step [unixClient.records] <|
    .step [] <| .step [] <| .step [] <| .step [[]] <| .done (by decide)

theorem clientArrival_finish_eq :
    (ofRecords clientArrival).finish.withoutInterfaces
      =
    (ofRecords (unixClient.records ++ windowsClient.records)).finish.withoutInterfaces := by
  have hapart : WinnersApart ([unixClient, windowsClient].flatMap (·.records)) :=
    winnersApart_of_declaredKeys (by decide +kernel)
  exact (finish_withoutInterfaces_eq [unixClient, windowsClient] (by decide) hapart).1 _ _
    interleaving_clientArrival (Interleaving.sequential _)

theorem exists_mem_finish {records : List Record} {key : TypeKey} (h : key ∈ declaredKeys records) :
    ∃ ns ∈ (ofRecords records).finish.namespaces, ns.name = key.namespace ∧ ∃ t ∈ ns.types, t.name = key.name := by
  rw [finish_ofRecords]
  exact exists_mem_collect h

theorem interfaces_of_mem_finish {records : List Record} {ns : Namespace} {t : TypeEntry}
    (hns : ns ∈ (ofRecords records).finish.namespaces) (ht : t ∈ ns.types) :
    t.interfaces = (records.flatMap (interfacesOf ⟨ns.name, t.name⟩)).eraseDups := by
  rw [finish_ofRecords] at hns
  exact interfaces_of_mem_collect hns ht

theorem interfaces_perm_of_interleaving (files : List FileRecords) (hpaths : (files.map (·.path)).Nodup)
    (xs ys : List Record) (hxs : Interleaving (files.map (·.records)) xs)
    (hys : Interleaving (files.map (·.records)) ys) (m n : Namespace) (s t : TypeEntry)
    (hm : m ∈ (ofRecords xs).finish.namespaces) (hs : s ∈ m.types)
    (hn : n ∈ (ofRecords ys).finish.namespaces) (ht : t ∈ n.types)
    (hspace : m.name = n.name) (hname : s.name = t.name) :
    s.interfaces.Perm t.interfaces ∧
    (OneFileNames files ⟨m.name, s.name⟩ → s.interfaces = t.interfaces) := by
  have hxs := hxs.sameByFile hpaths
  have hys := hys.sameByFile hpaths
  rw [interfaces_of_mem_finish hm hs, interfaces_of_mem_finish hn ht, ← hspace, ← hname]
  constructor
  . apply eraseDups_perm
    exact (hxs.perm.trans hys.perm.symm).flatMap_right _
  . intro hone
    rw [hxs.flatMap_interfacesOf_eq hone, hys.flatMap_interfacesOf_eq hone]

theorem clientArrival_interfaces_differ :
    ∃ m ∈ (ofRecords (unixClient.records ++ windowsClient.records)).finish.namespaces, ∃ s ∈ m.types,
    ∃ n ∈ (ofRecords clientArrival).finish.namespaces, ∃ t ∈ n.types,
      Interleaving ([unixClient, windowsClient].map (·.records)) (unixClient.records ++ windowsClient.records) ∧
      Interleaving ([unixClient, windowsClient].map (·.records)) clientArrival ∧
      m.name = n.name ∧ s.name = t.name ∧
      s.interfaces = ["Closer", "Handler"] ∧ t.interfaces = ["Handler", "Closer"] := by
  have hdeclared : ⟨"pkg", "Client"⟩ ∈ declaredKeys (unixClient.records ++ windowsClient.records) := by decide +kernel
  have harrived : ⟨"pkg", "Client"⟩ ∈ declaredKeys clientArrival := by decide +kernel
  obtain ⟨m, hm, hmname, s, hs, hsname⟩ := exists_mem_finish hdeclared
  obtain ⟨n, hn, hnname, t, ht, htname⟩ := exists_mem_finish harrived
  refine ⟨m, hm, s, hs, n, hn, t, ht, Interleaving.sequential _, interleaving_clientArrival,
    hmname.trans hnname.symm, hsname.trans htname.symm, ?_, ?_⟩
  . rw [interfaces_of_mem_finish hm hs, hmname, hsname]
    decide +kernel
  . rw [interfaces_of_mem_finish hn ht, hnname, htname]
    decide +kernel

theorem handle_interfaces_eq :
    ∃ m ∈ (ofRecords (unixClient.records ++ windowsClient.records)).finish.namespaces, ∃ s ∈ m.types,
    ∃ n ∈ (ofRecords clientArrival).finish.namespaces, ∃ t ∈ n.types,
      (m.name, s.name) = ("pkg", "Handle") ∧ (n.name, t.name) = ("pkg", "Handle") ∧ s.interfaces = t.interfaces := by
  have hdeclared : ⟨"pkg", "Handle"⟩ ∈ declaredKeys (unixClient.records ++ windowsClient.records) := by decide +kernel
  have harrived : ⟨"pkg", "Handle"⟩ ∈ declaredKeys clientArrival := by decide +kernel
  obtain ⟨m, hm, hmname, s, hs, hsname⟩ := exists_mem_finish hdeclared
  obtain ⟨n, hn, hnname, t, ht, htname⟩ := exists_mem_finish harrived
  have hone : OneFileNames [unixClient, windowsClient] ⟨m.name, s.name⟩ := by
    rw [hmname, hsname]
    exact ⟨"client_windows.go", by decide⟩
  refine ⟨m, hm, s, hs, n, hn, t, ht, by rw [hmname, hsname], by rw [hnname, htname], ?_⟩
  exact (interfaces_perm_of_interleaving [unixClient, windowsClient] (by decide) _ _ (Interleaving.sequential _)
    interleaving_clientArrival m n s t hm hs hn ht (hmname.trans hnname.symm) (hsname.trans htname.symm)).2 hone

end Assembly

end ApiSurface
