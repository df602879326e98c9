import ApiSurface.Proofs.Reference.Frame
import ApiSurface.Proofs.Usage.Report
import ApiSurface.Usage.Samples

/-!
This module contains what a usage report says of an index. It accounts for the operations of every client whose name no
later client has. Two clients of one name are taken for one: the operations of the earlier one are listed only as far
as the later one has them too.
-/

namespace ApiSurface

open Code

theorem Scan.has_of_mem_coveredBy {c : Clients} {vars : Variables} {file : String} {o : Occurrence}
    {op : CoveredOperation} (h : op ∈ coveredBy c vars file o) : c.has op.client op.method = true := by
  unfold coveredBy at h
  split at h
  . split at h
    . split at h
      . next hhas =>
        rw [List.mem_singleton] at h
        rw [h]
        exact hhas
      . simp at h
    . simp at h
  . simp at h

theorem has_of_mem_covered_scanFile {c : Clients} {l : Language} {relative : Path} {f : File} {scan : FileScan}
    (hscan : scanFile c l relative f = some scan) {op : CoveredOperation} (hop : op ∈ scan.covered) :
    c.has op.client op.method = true := by
  unfold scanFile at hscan
  obtain ⟨source, -, rfl⟩ := Option.map_eq_some_iff.mp hscan
  obtain ⟨o, -, hcovered⟩ := List.mem_flatMap.mp hop
  exact Scan.has_of_mem_coveredBy hcovered

namespace UsageReport

/--
The operation is listed, or a relative of the client has a covered operation of the same name.
-/
def AccountsFor (i : Index) (r : UsageReport) (client method : String) : Prop :=
  r.Covers client method ∨ r.LeavesOut client method ∨ ∃ other, i.Related client other ∧ r.Covers other method

/--
The report on the samples below a directory.
-/
def ofSamples (c : Clients) (t : FileTree) (l : Language) (root : Path) : UsageReport :=
  ofScans c (sampleFiles t root l).length ((sampleFiles t root l).filterMap (fun e => scanFile c l e.1 e.2))

variable {i : Index} {t : FileTree} {cwd : Path} {l : Language} {samples : String} {r : UsageReport}

theorem analyze_eq :
    analyze i t cwd l samples
      =
    if (Clients.ofIndex i).operations.isEmpty then .ok {}
    else (t.root cwd samples).map (ofSamples (Clients.ofIndex i) t l) := by
  unfold analyze
  dsimp only
  split
  . rfl
  . cases t.root cwd samples <;> rfl

theorem exists_analyze_eq_ok (hroot : ∃ root, t.root cwd samples = .ok root) :
    ∃ r, analyze i t cwd l samples = .ok r := by
  obtain ⟨root, hroot⟩ := hroot
  rw [analyze_eq, hroot]
  split
  . exact ⟨_, rfl⟩
  . exact ⟨_, rfl⟩

/--
There was nothing to look for, or the report is on scans in which all operations are those of clients.
-/
theorem eq_ofScans_of_analyze (hr : analyze i t cwd l samples = .ok r) :
    ((Clients.ofIndex i).operations = [] ∧ r = {}) ∨
    ∃ n scans, r = ofScans (Clients.ofIndex i) n scans ∧
      ∀ scan ∈ scans, ∀ op ∈ scan.covered, (Clients.ofIndex i).has op.client op.method = true := by
  rw [analyze_eq] at hr
  split at hr
  . next hempty =>
    rw [Except.ok.injEq] at hr
    exact Or.inl ⟨List.isEmpty_iff.mp hempty, hr.symm⟩
  . right
    cases hroot : t.root cwd samples with
    | error e =>
      rw [hroot] at hr
      simp [Except.map] at hr
    | ok root =>
      rw [hroot, Except.map, Except.ok.injEq] at hr
      refine ⟨_, _, hr.symm, ?_⟩
      intro scan hscan op hop
      obtain ⟨e, -, he⟩ := List.mem_filterMap.mp hscan
      exact has_of_mem_covered_scanFile he hop

theorem has_of_listed (hr : analyze i t cwd l samples = .ok r) {client method : String}
    (h : r.Covers client method ∨ r.LeavesOut client method) : (Clients.ofIndex i).has client method = true := by
  rcases eq_ofScans_of_analyze hr with ⟨-, rfl⟩ | ⟨n, scans, rfl, hscans⟩
  . simp [Covers, LeavesOut] at h
  rcases h with hcovers | hleft
  . obtain ⟨scan, hscan, op, hop, heq⟩ := covers_ofScans.mp hcovers
    cases heq
    exact hscans scan hscan op hop
  . rw [Clients.has_iff_mem_all (Clients.wellFormed_ofIndex i)]
    exact (leavesOut_ofScans.mp hleft).1

theorem accountsFor_of_has (hr : analyze i t cwd l samples = .ok r) {client method : String}
    (h : (Clients.ofIndex i).has client method = true) : r.AccountsFor i client method := by
  have hwf := Clients.wellFormed_ofIndex i
  rcases eq_ofScans_of_analyze hr with ⟨hnone, -⟩ | ⟨n, scans, rfl, -⟩
  . obtain ⟨ops, hmem, -⟩ := (Clients.has_iff hwf).mp h
    simp [hnone] at hmem
  obtain ⟨sig, hop⟩ := (Clients.has_iff_mem_all hwf).mp h
  rcases exhaustive_ofScans hop with hself | hleft | ⟨other, hrelated, hother⟩
  . exact Or.inl hself
  . exact Or.inr (Or.inl hleft)
  . exact Or.inr (Or.inr ⟨other, Clients.mem_relatives_ofIndex.mp hrelated, hother⟩)

theorem listed_iff_last_client_offers (i : Index) (t : FileTree) (cwd : Path) (l : Language) (samples : String) :
    ((∃ root, t.root cwd samples = .ok root) → ∃ r, analyze i t cwd l samples = .ok r) ∧
    ∀ r, analyze i t cwd l samples = .ok r →
      ∀ ns c, (ns, c) ∈ i.types → ⟨ns, c.name⟩ ∈ (ReferenceGraph.ofIndex i).reachable →
        ∀ m ∈ c.members, m.isCallable = true → m.kind ≠ .constructor →
          ∃ last, i.clientNamed? c.name = some last ∧
            (last.HasOperation m.name → r.AccountsFor i c.name m.name) ∧
            (r.Covers c.name m.name ∨ r.LeavesOut c.name m.name → last.HasOperation m.name) ∧
            ((∀ u ∈ i.clientTypes, u.name = c.name → u = c) → r.AccountsFor i c.name m.name) := by
  refine ⟨exists_analyze_eq_ok, ?_⟩
  intro r hr ns c hc hreach m hm hcallable hkind
  have hoperation : m ∈ c.operations := by
    simp [TypeEntry.operations, TypeEntry.callables, hm, hcallable, hkind]
  have hclient : c ∈ i.clientTypes :=
    Index.mem_clientTypes.mpr ⟨ns, hc, hreach, List.ne_nil_of_mem hoperation⟩
  obtain ⟨last, hlast⟩ := Index.exists_clientNamed? hclient
  have haccounts : last.HasOperation m.name → r.AccountsFor i c.name m.name := by
    intro hoffers
    exact accountsFor_of_has hr (Clients.has_ofIndex.mpr ⟨last, hlast, hoffers⟩)
  refine ⟨last, hlast, haccounts, ?_, ?_⟩
  . intro hlisted
    obtain ⟨u, hu, hoffers⟩ := Clients.has_ofIndex.mp (has_of_listed hr hlisted)
    rw [hlast, Option.some.injEq] at hu
    exact hu ▸ hoffers
  . intro halone
    obtain ⟨hmem, hname⟩ := Index.mem_clientTypes_of_clientNamed? hlast
    rw [halone last hmem hname] at haccounts
    exact haccounts ⟨m, hoperation, rfl⟩

end UsageReport

namespace TwoClients

def adminClient : TypeEntry where
  name := "Client"
  kind := .classType
  entryPoint := true
  members := [{ name := "purge", kind := .method, sig := "older_than: int" }]

def dataClient : TypeEntry where
  name := "Client"
  kind := .classType
  entryPoint := true
  members := [{ name := "fetch", kind := .method, sig := "key: str" }]

/--
Two clients of one name in different namespaces.
-/
def index : Index where
  package := "store"
  namespaces := [{ name := "store.admin", types := [adminClient] }, { name := "store.data", types := [dataClient] }]

/--
A directory without samples.
-/
def noSamples : FileTree where
  directories := [[], ["samples"]]

theorem root_noSamples : noSamples.root [] "/samples" = .ok ["samples"] := by
  have hnames : Path.names "/samples" = ["samples"] := by decide +kernel
  have hgoesUp : Path.goesUp "/samples" = false := by decide +kernel
  have habsolute : Path.isAbsolute "/samples" = true := by decide +kernel
  have hslash : "/samples".endsWith "/" = false := by decide +kernel
  unfold FileTree.root FileTree.locate
  rw [hgoesUp, hnames, habsolute, hslash]
  rfl

theorem mem_reachable {d : String × TypeEntry} (hd : d ∈ index.types) :
    declaredKey d ∈ (ReferenceGraph.ofIndex index).reachable := by
  have hentry : ∀ d ∈ index.types, d.2.entryPoint = true := by decide
  exact Index.mem_reachable_of_entryPoint hd (hentry d hd)

theorem clientNamed?_client : index.clientNamed? "Client" = some dataClient := by
  have htypes : index.clientTypes = [adminClient, dataClient] := by
    unfold Index.clientTypes
    have hkept : ∀ d ∈ index.types,
        ((ReferenceGraph.ofIndex index).reachable.contains (declaredKey d) && !d.2.operations.isEmpty) = true := by
      intro d hd
      rw [List.contains_iff_mem.mpr (mem_reachable hd)]
      revert d
      decide
    rw [List.filter_eq_self.mpr hkept]
    rfl
  unfold Index.clientNamed?
  rw [htypes]
  decide

theorem not_related (client other : String) : ¬ index.Related client other := by
  rintro ⟨-, -, d, hd, hparent⟩
  have hnone : ∀ d ∈ index.types, d.2.parents = [] := by decide
  simp [hnone d hd] at hparent

theorem fetch_accounted :
    ∃ r, UsageReport.analyze index noSamples [] .python "/samples" = .ok r ∧ r.AccountsFor index "Client" "fetch" := by
  obtain ⟨hok, haccounts⟩ := UsageReport.listed_iff_last_client_offers index noSamples [] .python "/samples"
  obtain ⟨r, hr⟩ := hok ⟨_, root_noSamples⟩
  have hmem : ("store.data", dataClient) ∈ index.types := by decide
  obtain ⟨last, hlast, hlater, -⟩ := haccounts r hr "store.data" dataClient hmem (mem_reachable hmem)
    { name := "fetch", kind := .method, sig := "key: str" } (by decide) (by decide) (by decide)
  change index.clientNamed? "Client" = some last at hlast
  rw [clientNamed?_client, Option.some.injEq] at hlast
  subst hlast
  exact ⟨r, hr, hlater ⟨_, List.mem_singleton.mpr rfl, rfl⟩⟩

theorem purge_not_accounted :
    ("store.admin", adminClient) ∈ index.types ∧
    ⟨"store.admin", "Client"⟩ ∈ (ReferenceGraph.ofIndex index).reachable ∧
    adminClient.HasOperation "purge" ∧
    ∃ r, UsageReport.analyze index noSamples [] .python "/samples" = .ok r ∧
      ¬ r.AccountsFor index "Client" "purge" := by
  have hmem : ("store.admin", adminClient) ∈ index.types := by decide
  refine ⟨hmem, mem_reachable hmem, ⟨_, List.mem_singleton.mpr rfl, rfl⟩, ?_⟩
  obtain ⟨r, hr⟩ := UsageReport.exists_analyze_eq_ok (i := index) (l := .python) ⟨_, root_noSamples⟩
  refine ⟨r, hr, ?_⟩
  have hlisted : ¬ (r.Covers "Client" "purge" ∨ r.LeavesOut "Client" "purge") := by
    intro hlisted
    obtain ⟨t, ht, m, hm, hname⟩ := Clients.has_ofIndex.mp (UsageReport.has_of_listed hr hlisted)
    rw [clientNamed?_client, Option.some.injEq] at ht
    subst ht
    have hfetch : ∀ m ∈ dataClient.operations, m.name ≠ "purge" := by decide
    exact hfetch m hm hname
  rintro (hcovers | hleft | ⟨other, hrelated, -⟩)
  . exact hlisted (Or.inl hcovers)
  . exact hlisted (Or.inr hleft)
  . exact not_related _ _ hrelated

end TwoClients

end ApiSurface
