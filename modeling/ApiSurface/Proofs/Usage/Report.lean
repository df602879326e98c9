import Mathlib.Data.Prod.Lex
import ApiSurface.Proofs.Usage.Clients
import ApiSurface.Usage.Report

/-!
This module contains the balance of a usage report. Every operation of the clients is covered, left out, or covered
under the name of a relative; none is covered twice, and none is both covered and left out.
-/

namespace ApiSurface

/--
The operation that was called.
-/
def CoveredOperation.operation (op : CoveredOperation) : String × String :=
  (op.client, op.method)

/--
The operation that was not called.
-/
def UncoveredOperation.operation (op : UncoveredOperation) : String × String :=
  (op.client, op.method)

/--
The operation is called in one of the scans.
-/
def FileScan.Called (scans : List FileScan) (client method : String) : Prop :=
  ∃ scan ∈ scans, ∃ op ∈ scan.covered, op.operation = (client, method)

namespace UsageReport

/--
The operation is listed as covered.
-/
def Covers (r : UsageReport) (client method : String) : Prop :=
  (client, method) ∈ r.covered.map (·.operation)

/--
The operation is listed as uncovered.
-/
def LeavesOut (r : UsageReport) (client method : String) : Prop :=
  (client, method) ∈ r.uncovered.map (·.operation)

/--
The report accounts for the scans, and for every operation of the clients.
-/
structure Accounts (c : Clients) (scans : List FileScan) (r : UsageReport) : Prop where
  covered_distinct : (r.covered.map (·.operation)).Nodup
  /-- Of the calls of an operation the first one is listed, in the order of the scans. -/
  covered_first : r.covered = firstOfEach (·.operation) (scans.flatMap (·.covered))
  uncovered_lt : (r.uncovered.map (·.operation)).Pairwise (fun a b => toLex a < toLex b)
  uncovered_iff : ∀ client method sig, ⟨client, method, sig⟩ ∈ r.uncovered
    ↔ (client, method, sig) ∈ c.all ∧ ¬ FileScan.Called scans client method ∧
      ∀ other ∈ c.relatives client, ¬ FileScan.Called scans other method
  disjoint : ∀ client method, r.Covers client method → ¬ r.LeavesOut client method
  exhaustive : ∀ client method sig, (client, method, sig) ∈ c.all →
    r.Covers client method ∨ r.LeavesOut client method ∨ ∃ other ∈ c.relatives client, r.Covers other method
  one_le_total : c.all ≠ [] → 1 ≤ r.total
  total_le : r.total ≤ c.all.length

theorem Covers.one_le_total {r : UsageReport} {client method : String} (h : r.Covers client method) : 1 ≤ r.total := by
  obtain ⟨op, hop, -⟩ := List.mem_map.mp h
  have := List.length_pos_of_mem hop
  unfold total
  omega

theorem LeavesOut.one_le_total {r : UsageReport} {client method : String} (h : r.LeavesOut client method) :
    1 ≤ r.total := by
  obtain ⟨op, hop, -⟩ := List.mem_map.mp h
  have := List.length_pos_of_mem hop
  unfold total
  omega

section Lists

variable {c : Clients} {seen : List (String × String)}

theorem firstOccurrences_eq_keepUnseen (seen : List (String × String)) (ops : List CoveredOperation) :
    firstOccurrences seen ops = keepUnseen (·.operation) seen ops := by
  induction ops generalizing seen with
  | nil => rfl
  | cons op ops ih =>
    rw [firstOccurrences, keepUnseen, ih, ih]
    rfl

theorem mem_uncoveredOf {op : UncoveredOperation} :
    op ∈ uncoveredOf c seen
      ↔
    (op.client, op.method, op.sig) ∈ c.all ∧ op.operation ∉ seen ∧
      ∀ other ∈ c.relatives op.client, (other, op.method) ∉ seen := by
  obtain ⟨client, method, sig⟩ := op
  simp only [uncoveredOf, List.mem_map, List.mem_filter, UncoveredOperation.operation, Bool.and_eq_true,
    Bool.not_eq_true', List.any_eq_false, List.contains_eq_mem, decide_eq_false_iff_not, decide_eq_true_eq]
  constructor
  . rintro ⟨⟨client, method, sig⟩, ⟨hall, hself, hothers⟩, heq⟩
    cases heq
    exact ⟨hall, hself, hothers⟩
  . rintro ⟨hall, hself, hothers⟩
    exact ⟨(client, method, sig), ⟨hall, hself, hothers⟩, rfl⟩

theorem map_operation_uncoveredOf_sublist :
    ((uncoveredOf c seen).map (·.operation)).Sublist (c.all.map (fun op => (op.1, op.2.1))) := by
  unfold uncoveredOf
  dsimp only
  rw [List.map_map]
  exact List.filter_sublist.map _

theorem pairwise_all (hc : c.WellFormed) :
    (c.all.map (fun op => (op.1, op.2.1))).Pairwise (fun a b => toLex a < toLex b) := by
  rw [List.pairwise_map]
  unfold Clients.all
  rw [List.pairwise_flatMap]
  constructor
  . intro e he
    rw [List.pairwise_map]
    apply (hc.operations_lt e he).imp
    intro a b hlt
    exact Prod.Lex.toLex_lt_toLex.mpr (Or.inr ⟨rfl, hlt⟩)
  . apply hc.clients_lt.imp
    intro e e' hlt a ha b hb
    obtain ⟨op, -, rfl⟩ := List.mem_map.mp ha
    obtain ⟨op', -, rfl⟩ := List.mem_map.mp hb
    exact Prod.Lex.toLex_lt_toLex.mpr (Or.inl hlt)

end Lists

section Scans

variable {c : Clients} {fileCount : Nat} {scans : List FileScan} {client method : String}

theorem covered_ofScans (c : Clients) (fileCount : Nat) (scans : List FileScan) :
    (ofScans c fileCount scans).covered = firstOfEach (·.operation) (scans.flatMap (·.covered)) := by
  unfold ofScans
  dsimp only
  rw [firstOccurrences_eq_keepUnseen, keepUnseen_eq_firstOfEach]

theorem nodup_covered_ofScans : ((ofScans c fileCount scans).covered.map (·.operation)).Nodup := by
  rw [covered_ofScans, ← keepUnseen_eq_firstOfEach]
  apply nodup_keys_keepUnseen

theorem covers_ofScans : (ofScans c fileCount scans).Covers client method ↔ FileScan.Called scans client method := by
  unfold Covers
  rw [covered_ofScans, ← keepUnseen_eq_firstOfEach, mem_keys_keepUnseen, List.mem_map,
    and_iff_left List.not_mem_nil]
  constructor
  . rintro ⟨op, hmem, heq⟩
    obtain ⟨scan, hscan, hop⟩ := List.mem_flatMap.mp hmem
    exact ⟨scan, hscan, op, hop, heq⟩
  . rintro ⟨scan, hscan, op, hop, heq⟩
    exact ⟨op, List.mem_flatMap.mpr ⟨scan, hscan, hop⟩, heq⟩

theorem mem_uncovered_ofScans {op : UncoveredOperation} :
    op ∈ (ofScans c fileCount scans).uncovered
      ↔
    (op.client, op.method, op.sig) ∈ c.all ∧ ¬ FileScan.Called scans op.client op.method ∧
      ∀ other ∈ c.relatives op.client, ¬ FileScan.Called scans other op.method := by
  simp only [← @covers_ofScans c fileCount]
  apply mem_uncoveredOf

theorem leavesOut_ofScans :
    (ofScans c fileCount scans).LeavesOut client method
      ↔
    (∃ sig, (client, method, sig) ∈ c.all) ∧ ¬ FileScan.Called scans client method ∧
      ∀ other ∈ c.relatives client, ¬ FileScan.Called scans other method := by
  unfold LeavesOut
  simp only [List.mem_map, mem_uncovered_ofScans]
  constructor
  . rintro ⟨op, ⟨hall, hfree⟩, heq⟩
    cases heq
    exact ⟨⟨op.sig, hall⟩, hfree⟩
  . rintro ⟨⟨sig, hall⟩, hfree⟩
    exact ⟨⟨client, method, sig⟩, ⟨hall, hfree⟩, rfl⟩

theorem pairwise_uncovered_ofScans (hc : c.WellFormed) :
    ((ofScans c fileCount scans).uncovered.map (·.operation)).Pairwise (fun a b => toLex a < toLex b) :=
  (pairwise_all hc).sublist map_operation_uncoveredOf_sublist

theorem disjoint_ofScans (hcovers : (ofScans c fileCount scans).Covers client method) :
    ¬ (ofScans c fileCount scans).LeavesOut client method := by
  rw [leavesOut_ofScans]
  rintro ⟨-, hfree, -⟩
  exact hfree (covers_ofScans.mp hcovers)

theorem exhaustive_ofScans {sig : String} (hop : (client, method, sig) ∈ c.all) :
    (ofScans c fileCount scans).Covers client method ∨ (ofScans c fileCount scans).LeavesOut client method ∨
      ∃ other ∈ c.relatives client, (ofScans c fileCount scans).Covers other method := by
  rw [leavesOut_ofScans]
  simp only [covers_ofScans]
  by_cases hself : FileScan.Called scans client method
  . exact Or.inl hself
  by_cases hothers : ∃ other ∈ c.relatives client, FileScan.Called scans other method
  . exact Or.inr (Or.inr hothers)
  rw [not_exists] at hothers
  exact Or.inr (Or.inl ⟨⟨sig, hop⟩, hself, fun other hother hcalled => hothers other ⟨hother, hcalled⟩⟩)

theorem one_le_total_ofScans (hne : c.all ≠ []) : 1 ≤ (ofScans c fileCount scans).total := by
  obtain ⟨⟨client, method, sig⟩, hop⟩ := List.exists_mem_of_ne_nil _ hne
  rcases @exhaustive_ofScans c fileCount scans client method sig hop with hself | hleft | ⟨other, -, hother⟩
  . exact hself.one_le_total
  . exact hleft.one_le_total
  . exact hother.one_le_total

theorem total_ofScans_le (hc : c.WellFormed)
    (hscans : ∀ scan ∈ scans, ∀ op ∈ scan.covered, c.has op.client op.method = true) :
    (ofScans c fileCount scans).total ≤ c.all.length := by
  -- both lists together have no operation twice, and all their operations are in the table
  have hdistinct : ((ofScans c fileCount scans).covered.map (·.operation) ++
      (ofScans c fileCount scans).uncovered.map (·.operation)).Nodup := by
    rw [List.nodup_append']
    refine ⟨nodup_covered_ofScans, (pairwise_uncovered_ofScans hc).imp ?_, ?_⟩
    . rintro a _ hlt rfl
      exact lt_irrefl _ hlt
    . rintro ⟨client, method⟩ hcovers hleft
      exact disjoint_ofScans hcovers hleft
  have htable : (ofScans c fileCount scans).covered.map (·.operation) ++
      (ofScans c fileCount scans).uncovered.map (·.operation) ⊆ c.all.map (fun op => (op.1, op.2.1)) := by
    rw [List.append_subset]
    refine ⟨?_, map_operation_uncoveredOf_sublist.subset⟩
    rintro ⟨client, method⟩ hcovers
    obtain ⟨scan, hscan, op, hop, heq⟩ := covers_ofScans.mp hcovers
    cases heq
    obtain ⟨sig, hall⟩ := (Clients.has_iff_mem_all hc).mp (hscans scan hscan op hop)
    exact List.mem_map_of_mem hall
  simpa [total] using (List.subperm_of_subset hdistinct htable).length_le

end Scans

theorem accounts_ofScans (c : Clients) (hc : c.WellFormed) (fileCount : Nat) (scans : List FileScan)
    (hscans : ∀ scan ∈ scans, ∀ op ∈ scan.covered, c.has op.client op.method = true) :
    (ofScans c fileCount scans).Accounts c scans where
  covered_distinct := nodup_covered_ofScans
  covered_first := covered_ofScans c fileCount scans
  uncovered_lt := pairwise_uncovered_ofScans hc
  uncovered_iff := by
    intro client method sig
    apply mem_uncovered_ofScans
  disjoint := by
    intro client method
    apply disjoint_ofScans
  exhaustive := by
    intro client method sig
    apply exhaustive_ofScans
  one_le_total := one_le_total_ofScans
  total_le := total_ofScans_le hc hscans

/--
Two clients that both can fetch, one of which is a parent of the other.
-/
def storeClients : Clients where
  operations := [
    ("Reader", [("fetch", "key: str")]),
    ("Writer", [("fetch", "key: str"), ("purge", ""), ("save", "item: Item")])]
  related := [("Writer", "Reader"), ("Reader", "Writer")]

/--
The scans of two samples that both fetch with a writer.
-/
def storeScans : List FileScan := [
  { covered := [⟨"Writer", "fetch", "load.py", 3⟩, ⟨"Writer", "save", "load.py", 5⟩] },
  { covered := [⟨"Writer", "fetch", "reload.py", 2⟩] }]

theorem storeScans_accounts :
    storeClients.WellFormed ∧
    (∀ scan ∈ storeScans, ∀ op ∈ scan.covered, storeClients.has op.client op.method = true) ∧
    (ofScans storeClients 2 storeScans).Accounts storeClients storeScans ∧
    (ofScans storeClients 2 storeScans).covered
      = [⟨"Writer", "fetch", "load.py", 3⟩, ⟨"Writer", "save", "load.py", 5⟩] ∧
    (ofScans storeClients 2 storeScans).uncovered = [⟨"Writer", "purge", ""⟩] := by
  have hclients : storeClients.WellFormed := ⟨by decide +kernel, by decide +kernel⟩
  have hscans : ∀ scan ∈ storeScans, ∀ op ∈ scan.covered, storeClients.has op.client op.method = true := by
    decide +kernel
  exact ⟨hclients, hscans, accounts_ofScans storeClients hclients 2 storeScans hscans, by decide +kernel,
    by decide +kernel⟩

end UsageReport

end ApiSurface
