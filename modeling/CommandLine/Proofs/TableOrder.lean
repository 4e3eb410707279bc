import CommandLine.Proofs.Agreement
import CommandLine.Proofs.Outcome
import Mathlib.Data.List.Nodup
import Mathlib.Data.List.Pairwise

namespace CommandLine

namespace Table

variable {table other : Table} {d e : Descriptor} {name : Text} {c : CodePoint}

/-- No two entries share a code, a short character or a long name. -/
structure Distinct (table : Table) : Prop where
  codes : (table.entries.map Descriptor.code).Nodup
  shorts : (table.entries.filterMap Descriptor.short?).Nodup
  names : (table.named.map Descriptor.longName).Nodup

namespace Distinct

theorem eq_of_code (distinct : table.Distinct) (member : d ∈ table.entries) (another : e ∈ table.entries)
    (same : e.code = d.code) : e = d :=
  List.inj_on_of_nodup_map distinct.codes another member same

theorem eq_of_named (distinct : table.Distinct) (member : d ∈ table.entries) (another : e ∈ table.entries)
    (named : d.Named name) (again : e.Named name) : e = d := by
  have listed : d ∈ table.named := List.mem_filter.mpr ⟨member, by simpa using named.1⟩
  have listedToo : e ∈ table.named := List.mem_filter.mpr ⟨another, by simpa using again.1⟩
  exact List.inj_on_of_nodup_map distinct.names listedToo listed (again.2.trans named.2.symm)

theorem eq_of_short (distinct : table.Distinct) (member : d ∈ table.entries) (another : e ∈ table.entries)
    (short : d.short? = some c) (again : e.short? = some c) : e = d := by
  by_contra differ
  have apart := List.pairwise_filterMap.mp distinct.shorts
  have symmetric : Std.Symm fun d e : Descriptor =>
      ∀ c, d.short? = some c → ∀ c', e.short? = some c' → c ≠ c' := by
    constructor
    intro d e unequal c given c' givenToo
    exact (unequal c' givenToo c given).symm
  exact apart.forall another member differ c again c short rfl

theorem alike (distinct : table.Distinct) (perm : other.entries.Perm table.entries) : table.Alike other where
  entries e := perm.mem_iff
  long name d selects := by
    have inOther : ∀ e ∈ table.entries, e ∈ other.entries := fun e member => perm.mem_iff.mpr member
    have inTable : ∀ e ∈ other.entries, e ∈ table.entries := fun e member => perm.mem_iff.mp member
    cases selects with
    | full first =>
        apply Selects.full
        apply isFirst_of_only (inOther d first.mem) first.holds
        intro e member again
        exact distinct.eq_of_named first.mem (inTable e member) first.holds again
    | abbreviation noFull first agree =>
        refine .abbreviation (fun e member => noFull e (inTable e member)) ?_
          (fun e member => agree e (inTable e member))
        -- Entries that agree with the selected one have its code, so there is only this one.
        apply isFirst_of_only (inOther d first.mem) first.holds
        intro e member begins
        exact distinct.eq_of_code first.mem (inTable e member) (agree e (inTable e member) begins).1
  short c d selects := by
    apply isFirst_of_only (perm.mem_iff.mpr selects.mem) selects.holds
    intro e member again
    exact distinct.eq_of_short selects.mem (perm.mem_iff.mp member) selects.holds again

end Distinct

end Table

/-- Tables with the same entries in another order give the same session, if no two entries compete: the same state, the
same records and the same diagnostic. -/
theorem start_permuted (table other : Table) (argv : List Text) (argc : Option Int) (reorder : Bool)
    (distinct : table.Distinct) (perm : other.entries.Perm table.entries) :
    Session.start other argv reorder argc = Session.start table argv reorder argc :=
  (distinct.alike perm).start argv reorder argc

def versionTable : Table := .ofList
  [⟨.char 'v', some "verbose".toText, .never⟩, ⟨.number 86, some "version".toText, .never⟩,
    ⟨.char 'o', none, .required⟩]

def versionTableReversed : Table := .ofList versionTable.entries.reverse

theorem start_permuted_sample :
    versionTable.Distinct ∧ versionTableReversed.entries.Perm versionTable.entries ∧
      Session.start versionTable (["p", "-Vvo", "log", "--vers", "--ver"].map String.toText) true none =
        ⟨.failed, [], some (.ofProblem (.ambiguous "--ver".toText) "--ver".toText 4)⟩ ∧
      Session.start versionTableReversed (["p", "-Vvo", "log", "--vers", "--ver"].map String.toText) true none =
        ⟨.failed, [], some (.ofProblem (.ambiguous "--ver".toText) "--ver".toText 4)⟩ := by
  have distinct : versionTable.Distinct := ⟨by decide, by decide, by decide⟩
  have perm : versionTableReversed.entries.Perm versionTable.entries := by decide
  have blamed : Session.start versionTable (["p", "-Vvo", "log", "--vers", "--ver"].map String.toText) true none =
      ⟨.failed, [], some (.ofProblem (.ambiguous "--ver".toText) "--ver".toText 4)⟩ := by decide
  have same := start_permuted versionTable versionTableReversed
    (["p", "-Vvo", "log", "--vers", "--ver"].map String.toText) none true distinct perm
  exact ⟨distinct, perm, blamed, same.trans blamed⟩

end CommandLine
