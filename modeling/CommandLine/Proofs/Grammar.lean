import CommandLine.Proofs.Outcome
import CommandLine.Proofs.Phrase
import Mathlib.Data.Set.Subsingleton

/-!
The grammar of whole command lines: phrases one after another, and then perhaps a terminator before operands that
are not read. A pass succeeds on exactly the command lines of the grammar, and each has one reading.
-/
namespace CommandLine

structure Portion where
  element : Text
  value : Option Text
  records : List Record

namespace Portion

def elements (portion : Portion) : List Text := portion.element :: portion.value.toList

def Grammatical (table : Table) (portion : Portion) : Prop :=
  Phrase table portion.element portion.value portion.records

end Portion

/-- A command line cut into portions, and the elements after the terminator, if there is one. -/
structure Cut where
  portions : List Portion
  tail : Option (List Text)

namespace Cut

def ending : Option (List Text) → List Text
  | none => []
  | some tail => ['-', '-'] :: tail

def elements (cut : Cut) : List Text := cut.portions.flatMap Portion.elements ++ ending cut.tail

def records (cut : Cut) : List Record :=
  cut.portions.flatMap Portion.records ++ (cut.tail.getD []).map Record.operand

def Grammatical (table : Table) (cut : Cut) : Prop := ∀ portion ∈ cut.portions, portion.Grammatical table

variable {table : Table} {portion : Portion} {portions : List Portion} {tail : Option (List Text)}

theorem ending_injective {tail other : Option (List Text)} (same : ending tail = ending other) : tail = other := by
  cases tail <;> cases other <;> simp_all [ending]

theorem elements_cons :
    elements ⟨portion :: portions, tail⟩ = portion.elements ++ elements ⟨portions, tail⟩ := by
  simp [elements]

theorem records_cons : records ⟨portion :: portions, tail⟩ = portion.records ++ records ⟨portions, tail⟩ := by
  simp [records]

theorem grammatical_cons :
    Grammatical table ⟨portion :: portions, tail⟩ ↔
      portion.Grammatical table ∧ Grammatical table ⟨portions, tail⟩ := by
  simp [Grammatical]

end Cut

theorem Scan.inOrder_cons (note : Note) (scan : Scan) :
    (scan.cons note).inOrder = note.step.records ++ scan.inOrder := by
  simp [Scan.cons, Scan.inOrder, Scan.tail]

namespace Table

variable {table : Table} {taken : Bool} {index : Nat}

theorem scan_phrase {element : Text} {value : Option Text} {records : List Record}
    (phrase : Phrase table element value records) (rest : List Text) :
    ∃ step, step.records = records ∧
      table.scan false index (element :: (value.toList ++ rest)) =
        (table.scan false (index + 1 + value.toList.length) rest).cons ⟨index, step⟩ := by
  obtain ⟨step, same, met⟩ := meet_of_phrase phrase
  refine ⟨step, same, ?_⟩
  rw [scan_met, met rest]
  cases value <;> rfl

theorem scan_of_cut {portions : List Portion} {tail : Option (List Text)}
    (grammatical : Cut.Grammatical table ⟨portions, tail⟩) :
    (table.scan false index (Cut.elements ⟨portions, tail⟩)).diagnostic? = none ∧
      (table.scan false index (Cut.elements ⟨portions, tail⟩)).inOrder = Cut.records ⟨portions, tail⟩ := by
  induction portions generalizing index with
  | nil =>
      cases tail with
      | none => exact ⟨rfl, rfl⟩
      | some tail =>
          simp only [Cut.elements, Cut.ending, List.flatMap_nil, List.nil_append, scan_met, meet_dashes]
          exact ⟨rfl, rfl⟩
  | cons portion portions ih =>
      obtain ⟨phrase, others⟩ := Cut.grammatical_cons.mp grammatical
      obtain ⟨step, same, read⟩ := scan_phrase phrase (Cut.elements ⟨portions, tail⟩)
      obtain ⟨succeeds, kept⟩ := ih others
      rw [Cut.elements_cons, Portion.elements, List.cons_append, read]
      refine ⟨succeeds, ?_⟩
      rw [Scan.inOrder_cons, kept, same, Cut.records_cons]

/-- Every command line that is read can be cut into phrases with the records that were read. -/
theorem exists_cut (elements : List Text) (succeeds : (table.scan taken index elements).diagnostic? = none)
    (ready : taken = true → elements ≠ []) :
    ∃ cut : Cut, cut.Grammatical table ∧ cut.elements = elements.drop taken.toNat ∧
      cut.records = (table.scan taken index elements).inOrder := by
  induction elements generalizing taken index with
  | nil =>
      refine ⟨⟨[], none⟩, by simp [Cut.Grammatical], by simp [Cut.elements, Cut.ending], ?_⟩
      rw [scan_nil]
      rfl
  | cons element rest ih =>
      cases taken with
      | true => exact ih succeeds (by simp)
      | false =>
          rw [scan_met] at succeeds ⊢
          cases met : table.meet element rest.head? with
          | refused problem => rw [met] at succeeds; cases succeeds
          | stop =>
              refine ⟨⟨[], some rest⟩, by simp [Cut.Grammatical], ?_, rfl⟩
              simp [Cut.elements, Cut.ending, meet_of_stop met]
          | noted step used =>
              rw [met] at succeeds
              have ready := rest_of_meet met
              obtain ⟨⟨portions, tail⟩, grammatical, split, kept⟩ := ih succeeds ready
              refine ⟨⟨⟨element, if used then rest.head? else none, step.records⟩ :: portions, tail⟩,
                Cut.grammatical_cons.mpr ⟨phrase_of_meet met, grammatical⟩, ?_, ?_⟩
              · rw [Cut.elements_cons, split]
                cases used with
                | false => rfl
                | true =>
                    cases rest with
                    | nil => exact absurd rfl (ready rfl)
                    | cons value rest => rfl
              · rw [Cut.records_cons, kept, Scan.inOrder_cons]

theorem phrase_unique {element : Text} {value other : Option Text} {records others : List Record}
    {rest back : List Text} (one : Phrase table element value records)
    (two : Phrase table element other others) (same : value.toList ++ rest = other.toList ++ back) :
    value = other ∧ records = others ∧ rest = back := by
  -- Both are what the pass meets at the same element.
  obtain ⟨step, rfl, met⟩ := meet_of_phrase one
  obtain ⟨again, rfl, metAgain⟩ := meet_of_phrase two
  have equal := (met rest).symm.trans (same ▸ metAgain back)
  injection equal with sameStep used
  have sameRecords := congrArg Step.records sameStep
  cases value with
  | none =>
      cases other with
      | none => exact ⟨rfl, sameRecords, same⟩
      | some _ => cases used
  | some text =>
      cases other with
      | none => cases used
      | some text =>
          obtain ⟨rfl, sameRest⟩ := List.cons.inj same
          exact ⟨rfl, sameRecords, sameRest⟩

theorem ending_ne_phrase {portion : Portion} (grammatical : portion.Grammatical table)
    (tail : Option (List Text)) (rest : List Text) : Cut.ending tail ≠ portion.elements ++ rest := by
  intro same
  cases tail with
  | none => cases same
  | some tail =>
      injection same with head
      exact element_of_phrase grammatical head.symm

theorem cut_unique {portions others : List Portion} {tail ending : Option (List Text)}
    (first : Cut.Grammatical table ⟨portions, tail⟩) (second : Cut.Grammatical table ⟨others, ending⟩)
    (same : Cut.elements ⟨portions, tail⟩ = Cut.elements ⟨others, ending⟩) :
    portions = others ∧ tail = ending := by
  induction portions generalizing others with
  | nil =>
      cases others with
      | nil => exact ⟨rfl, Cut.ending_injective same⟩
      | cons other others =>
          rw [Cut.elements_cons] at same
          exact absurd same (ending_ne_phrase (Cut.grammatical_cons.mp second).1 tail _)
  | cons portion portions ih =>
      cases others with
      | nil =>
          rw [Cut.elements_cons] at same
          exact absurd same.symm (ending_ne_phrase (Cut.grammatical_cons.mp first).1 ending _)
      | cons other others =>
          obtain ⟨element, value, records⟩ := portion
          obtain ⟨again, _, _⟩ := other
          obtain ⟨one, firstRest⟩ := Cut.grammatical_cons.mp first
          obtain ⟨two, secondRest⟩ := Cut.grammatical_cons.mp second
          rw [Cut.elements_cons, Cut.elements_cons] at same
          have head : element = again := congrArg (·.headD []) same
          subst head
          obtain ⟨rfl, rfl, rest⟩ := phrase_unique one two (List.cons.inj same).2
          obtain ⟨rfl, rfl⟩ := ih firstRest secondRest rest
          exact ⟨rfl, rfl⟩

end Table

/-- A command line is read with certain records if and only if it can be cut into phrases with these records, and
there is at most one way to cut it. -/
theorem start_iff_cut (table : Table) (argv : List Text) (argc : Option Int) (records : List Record) :
    (Session.start table argv false argc = ⟨.succeeded, records, none⟩ ↔
      ∃ cut : Cut, cut.Grammatical table ∧
        cut.elements = (argv.take (readBound argv argc)).drop 1 ∧ cut.records = records) ∧
    {cut : Cut | cut.Grammatical table ∧
      cut.elements = (argv.take (readBound argv argc)).drop 1}.Subsingleton := by
  rw [Session.start_eq_succeeded_iff, ← admitted_eq]
  refine ⟨⟨?_, ?_⟩, ?_⟩
  · rintro ⟨succeeds, rfl⟩
    exact table.exists_cut _ succeeds (by simp)
  · rintro ⟨cut, grammatical, split, rfl⟩
    obtain ⟨succeeds, kept⟩ := table.scan_of_cut grammatical
    rw [Table.scanArguments, ← split]
    exact ⟨succeeds, kept⟩
  · rintro ⟨_, _⟩ ⟨first, split⟩ ⟨_, _⟩ ⟨second, splitAgain⟩
    obtain ⟨rfl, rfl⟩ := table.cut_unique first second (split.trans splitAgain.symm)
    rfl

end CommandLine
