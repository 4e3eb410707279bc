import CommandLine.Proofs.Scanning

/-!
Two tables on one command line. A pass asks its table only what names and characters stand for, so two tables with the
same answers give the same session.
-/
namespace CommandLine

namespace Table

variable {table one two : Table} {name text : Text} {value next : Option Text}

theorem resolveLong_of_ambiguous (ambiguous : table.Ambiguous name) :
    table.resolveLong ⟨text, name, value⟩ next = .error (.ambiguous text) := by
  obtain ⟨d, found⟩ := matchLong_of_ambiguous ambiguous
  simp [resolveLong, found]

theorem resolveLong_of_unknown (unknown : table.Unknown name) :
    table.resolveLong ⟨text, name, value⟩ next = .error (.unrecognized text) := by
  simp [resolveLong, matchLong_of_unknown unknown]

/-- Two tables with the same entries, in which every name and every character that selects an entry selects the same
one. -/
structure Alike (one two : Table) : Prop where
  entries : ∀ e, e ∈ two.entries ↔ e ∈ one.entries
  long : ∀ name d, one.Selects name d → two.Selects name d
  short : ∀ c d, one.SelectsShort c d → two.SelectsShort c d

namespace Alike

theorem ambiguous (alike : one.Alike two) (given : one.Ambiguous name) : two.Ambiguous name := by
  obtain ⟨noFull, d, member, e, another, clash⟩ := given
  refine ⟨?_, d, (alike.entries d).mpr member, e, (alike.entries e).mpr another, clash⟩
  intro other present
  exact noFull other ((alike.entries other).mp present)

theorem unknown (alike : one.Alike two) (given : one.Unknown name) : two.Unknown name := by
  intro e member
  exact given e ((alike.entries e).mp member)

theorem findShort (alike : one.Alike two) (c : CodePoint) : two.findShort c = one.findShort c := by
  cases found : one.findShort c with
  | some d =>
      have selects := findShort_eq_some_iff.mp found
      exact findShort_eq_some_iff.mpr (alike.short c d selects)
  | none =>
      have absent := findShort_eq_none_iff.mp found
      apply findShort_eq_none_iff.mpr
      intro e member
      exact absent e ((alike.entries e).mp member)

theorem resolveLong (alike : one.Alike two) (token : LongToken) (next : Option Text) :
    two.resolveLong token next = one.resolveLong token next := by
  obtain ⟨text, name, value⟩ := token
  rcases one.name_cases name with ⟨d, selects⟩ | ambiguous | unknown
  · rw [resolveLong_of_selects selects, resolveLong_of_selects (alike.long name d selects)]
  · rw [resolveLong_of_ambiguous ambiguous, resolveLong_of_ambiguous (alike.ambiguous ambiguous)]
  · rw [resolveLong_of_unknown unknown, resolveLong_of_unknown (alike.unknown unknown)]

theorem resolveCluster (alike : one.Alike two) (next : Option Text) (chars : Text) :
    two.resolveCluster next chars = one.resolveCluster next chars := by
  induction chars with
  | nil => rfl
  | cons c rest ih => simp only [Table.resolveCluster, alike.findShort, ih]

theorem resolve (alike : one.Alike two) (token : Token) (next : Option Text) :
    two.resolve token next = one.resolve token next := by
  cases token with
  | terminator _ => rfl
  | operand _ => rfl
  | long option => exact alike.resolveLong option next
  | short option => exact alike.resolveCluster next option.cluster

theorem meet (alike : one.Alike two) (element : Text) (next : Option Text) :
    two.meet element next = one.meet element next := by
  rcases element_cases element with rfl | plain | isOption
  · rw [meet_dashes, meet_dashes]
  · rw [meet_plain plain, meet_plain plain]
  · rw [meet_option isOption, meet_option isOption, alike.resolve]

theorem scan (alike : one.Alike two) (taken : Bool) (index : Nat) (elements : List Text) :
    two.scan taken index elements = one.scan taken index elements := by
  induction elements generalizing taken index with
  | nil => rw [scan_nil, scan_nil]
  | cons element rest ih =>
      cases taken with
      | true => exact ih false (index + 1)
      | false =>
          rw [scan_met, scan_met, alike.meet]
          cases one.meet element rest.head? with
          | stop => rfl
          | refused problem => rfl
          | noted step used => simp only [ih]

theorem start (alike : one.Alike two) (argv : List Text) (reorder : Bool) (argc : Option Int) :
    Session.start two argv reorder argc = Session.start one argv reorder argc := by
  have pass : two.scanArguments argv argc = one.scanArguments argv argc := alike.scan false 1 (admitted argv argc)
  rw [Session.start, Session.start, decode, decode, pass]

end Alike

end Table

end CommandLine
