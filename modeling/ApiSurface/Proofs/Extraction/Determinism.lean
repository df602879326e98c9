import ApiSurface.Proofs.Extraction.Arrival
import ApiSurface.Proofs.Extraction.ErrorSearch
import ApiSurface.Proofs.Extraction.Inputs

/-!
This module contains what is enough for an extraction to give the same index in all orders: no type gets interfaces
from several files, and every error type inherits from an error by types that are on no cycle.
-/

namespace ApiSurface

open Ledger

theorem TypeEntry.eq_of_withoutInterfaces_eq {s t : TypeEntry} (h : s.withoutInterfaces = t.withoutInterfaces)
    (hinterfaces : s.interfaces = t.interfaces) : s = t := by
  cases s
  cases t
  simp only [withoutInterfaces, TypeEntry.mk.injEq] at h hinterfaces ⊢
  simp only [h, hinterfaces, and_self]

theorem Collected.eq_of_withoutInterfaces_eq {c c' : Collected} (h : c.withoutInterfaces = c'.withoutInterfaces)
    (hinterfaces : ∀ m ∈ c.namespaces, ∀ s ∈ m.types, ∀ n ∈ c'.namespaces, ∀ t ∈ n.types,
      m.name = n.name → s.name = t.name → s.interfaces = t.interfaces) : c = c' := by
  cases c
  cases c'
  simp only [withoutInterfaces, Collected.mk.injEq] at h ⊢
  refine ⟨?_, h.2⟩
  apply eq_of_map_eq h.1
  intro m hm n hn hmn
  obtain ⟨hname, htypes, hfunctions⟩ := Namespace.mk.inj hmn
  have htypes : m.types = n.types := by
    apply eq_of_map_eq htypes
    intro s hs t ht hst
    have hsame : s.withoutInterfaces.name = t.withoutInterfaces.name := congrArg TypeEntry.name hst
    exact TypeEntry.eq_of_withoutInterfaces_eq hst (hinterfaces m hm s hs n hn t ht hname hsame)
  cases m
  cases n
  rw [Namespace.mk.injEq]
  exact ⟨hname, htypes, hfunctions⟩

/--
Records that arrive in any order add up to the same if no type gets interfaces from several files.
-/
theorem Ledger.Interleaving.finish_eq {files : List FileRecords} {arrived : List Record}
    (hpaths : (files.map (·.path)).Nodup) (hapart : WinnersApart (files.flatMap (·.records)))
    (hone : ∀ key, OneFileNames files key) (h : Interleaving (files.map (·.records)) arrived) :
    (Assembly.ofRecords arrived).finish = (Assembly.ofRecords (files.flatMap (·.records))).finish := by
  rw [Assembly.finish_ofRecords, Assembly.finish_ofRecords]
  apply Collected.eq_of_withoutInterfaces_eq (h.collect_eq hpaths hapart)
  intro m hm s hs n hn t ht hspace hname
  rw [interfaces_of_mem_collect hm hs, interfaces_of_mem_collect hn ht, hspace, hname,
    (h.sameByFile hpaths).flatMap_interfacesOf_eq (hone _)]

theorem markErrorsInOrder_eq {c : Conventions} {nss : List Namespace} {imports : List (String × List Import)}
    {order order' : List TypeKey} (horder : order.Perm (typeKeys nss)) (horder' : order'.Perm (typeKeys nss))
    (hoff : ∀ k, (Hierarchy.ofNamespaces nss imports).InheritsError c nss k →
      (Hierarchy.ofNamespaces nss imports).InheritsOffCycle c nss k) :
    markErrorsInOrder c nss imports order = markErrorsInOrder c nss imports order' := by
  rw [markErrorsInOrder_eq_setErrorFlags, markErrorsInOrder_eq_setErrorFlags]
  apply setErrorFlags_congr
  intro k hk
  rw [Bool.eq_iff_iff]
  constructor
  . intro hflag
    exact errorFlag_of_inheritsOffCycle horder' hk (hoff k (inheritsError_of_errorFlag horder hflag))
  . intro hflag
    exact errorFlag_of_inheritsOffCycle horder hk (hoff k (inheritsError_of_errorFlag horder' hflag))

namespace Extractor

variable {x : Extractor σ} {project : σ} {files : List FileRecords}

/--
Nothing that some files declare comes out differently in different orders.
-/
structure OrderFree (x : Extractor σ) (project : σ) (files : List FileRecords) : Prop where
  paths : (files.map (·.path)).Nodup
  winnersApart : WinnersApart (files.flatMap (·.records))
  oneFileNames : ∀ key, OneFileNames files key
  inheritsOffCycle :
    let c := x.classified project (files.flatMap (·.records))
    ∀ k, (Hierarchy.ofNamespaces c.namespaces c.imports).InheritsError x.conventions c.namespaces k →
      (Hierarchy.ofNamespaces c.namespaces c.imports).InheritsOffCycle x.conventions c.namespaces k

theorem OrderFree.assemble_eq (h : x.OrderFree project files) (orders orders' : Orders) (findings : List Diagnostic) :
    x.assemble orders project (files.map (·.records)) findings
      =
    x.assemble orders' project (files.map (·.records)) findings := by
  have hclassified : ∀ o : Orders, x.classified project (o.arrival (files.map (·.records)))
      = x.classified project (files.flatMap (·.records)) := by
    intro o
    unfold classified
    rw [(o.interleaving _).finish_eq h.paths h.winnersApart h.oneFileNames]
  unfold assemble
  rw [hclassified orders, hclassified orders']
  dsimp only
  rw [markErrorsInOrder_eq (orders.perm _) (orders'.perm _) h.inheritsOffCycle]

/--
Two runs on the same project give the same index, or fail in the same way, whatever their orders are.
-/
theorem OrderFree.run_eq {t : FileTree} {cwd root : Path} {target : String} {excludes : List String}
    (h : x.OrderFree project files) (hroot : t.root cwd target = .ok root) (hdir : t.isDirectory root = true)
    (hload : x.load t root = .ok project)
    (hfiles : (x.discover t root (patternsOf excludes)).map (fun e => (x.extractFile project e.1 e.2).1)
      = files.map (·.records))
    (orders orders' : Orders) (cancelled : Bool) :
    x.run orders t cwd excludes cancelled target = x.run orders' t cwd excludes cancelled target := by
  have hrecords : ((x.discover t root (patternsOf excludes)).map fun e => x.extractFile project e.1 e.2).map (·.1)
      = files.map (·.records) := by
    rw [List.map_map]
    exact hfiles
  have hconclude : x.conclude orders root cancelled (x.discover t root (patternsOf excludes)) project
      = x.conclude orders' root cancelled (x.discover t root (patternsOf excludes)) project := by
    unfold conclude
    dsimp only
    rw [hrecords, h.assemble_eq orders orders']
  rw [Extractor.run_eq hroot hdir, Extractor.run_eq hroot hdir, hload]
  exact hconclude

end Extractor

end ApiSurface
