import CommandLine.Log
import CommandLine.Proofs.Stores

/-!
The bound of a command line. A pass that asks for the bound before each element, before each look at a next element and
when it takes what is left, leaves what a pass over the shortened command line leaves, and nothing at the bound or
behind it has any influence.
-/
namespace CommandLine

structure Trace where
  session : Session
  log : List Text
  deriving DecidableEq, Repr

def Scan.trace (scan : Scan) (reorder : Bool) (stores : Stores) (log : List Text) : Trace :=
  ⟨scan.finish reorder stores, log ++ scan.log⟩

section Loop

def peek (argv : List Text) (bound index : Nat) : Option (Option Text) :=
  if index + 1 < bound then argv[index + 1]?.map some else some none

/-- The loop over a whole command line, with a bound. It asks for the bound at three places and gives no answer if it
looks outside the command line. -/
def Table.runBelow (table : Table) (reorder : Bool) (argv : List Text) (bound index : Nat) (stores : Stores)
    (log : List Text) : Option Trace :=
  if index < bound then
    match argv[index]?, peek argv bound index with
    | some element, some next =>
      match table.meet element next with
      | .stop =>
        some ⟨stores.close (((argv.drop (index + 1)).take (bound - (index + 1))).map Record.operand),
          log ++ [placed index "end of options".toText]⟩
      | .refused problem =>
        some ⟨⟨.failed, [], some (.ofProblem problem element index)⟩, log ++ [placed index problem.message]⟩
      | .noted step used =>
        table.runBelow reorder argv bound (index + 1 + used.toNat) (stores.keep reorder step)
          (log ++ Scan.noteMessages ⟨index, step⟩)
    | _, _ => none
  else some ⟨stores.close (((argv.drop index).take (bound - index)).map Record.operand), log⟩
termination_by bound - index

variable {table : Table} {reorder : Bool} {argv : List Text} {bound index : Nat} {stores : Stores} {log : List Text}
  {element : Text} {next : Option Text}

theorem peek_eq (fits : bound ≤ argv.length) : peek argv bound index = some (argv.take bound)[index + 1]? := by
  rw [peek, List.getElem?_take]
  by_cases inside : index + 1 < bound
  · have present : index + 1 < argv.length := by omega
    rw [if_pos inside, if_pos inside, List.getElem?_eq_getElem present, Option.map_some]
  · rw [if_neg inside, if_neg inside]

theorem scan_below (fits : bound ≤ argv.length) (inside : index < bound) (found : argv[index]? = some element)
    (ahead : peek argv bound index = some next) :
    table.scan false index ((argv.take bound).drop index) =
      match table.meet element next with
      | .stop => ⟨[], .terminated index ((argv.drop (index + 1)).take (bound - (index + 1)))⟩
      | .noted step used =>
        (table.scan used (index + 1) ((argv.take bound).drop (index + 1))).cons ⟨index, step⟩
      | .refused problem => ⟨[], .failed index element problem⟩ := by
  have here : (argv.take bound)[index]? = some element := by rw [List.getElem?_take, if_pos inside, found]
  have after : (argv.take bound)[index + 1]? = next := Option.some.inj ((peek_eq fits).symm.trans ahead)
  rcases List.getElem?_eq_some_iff.mp here with ⟨place, rfl⟩
  rw [← List.drop_take, ← after]
  exact Table.scan_place place

theorem trace_cons (scan : Scan) (note : Note) :
    (scan.cons note).trace reorder stores log =
      scan.trace reorder (stores.keep reorder note.step) (log ++ Scan.noteMessages note) := by
  have session : (scan.cons note).finish reorder stores = scan.finish reorder (stores.keep reorder note.step) := rfl
  have messages : (scan.cons note).log = Scan.noteMessages note ++ scan.log := by
    simp [Scan.log, Scan.cons, List.flatMap_cons, List.append_assoc]
  rw [Scan.trace, Scan.trace, session, messages, List.append_assoc]

theorem runBelow_eq_trace (fits : bound ≤ argv.length) (index : Nat) (stores : Stores) (log : List Text) :
    table.runBelow reorder argv bound index stores log =
      some ((table.scan false index ((argv.take bound).drop index)).trace reorder stores log) := by
  induction index, stores, log using Table.runBelow.induct table reorder argv bound with
  | case1 index stores log inside element next ahead found met =>
      rw [Table.runBelow, if_pos inside, scan_below fits inside found ahead]
      simp only [found, ahead, met]
      rfl
  | case2 index stores log inside element next ahead found problem met =>
      rw [Table.runBelow, if_pos inside, scan_below fits inside found ahead]
      simp only [found, ahead, met]
      rfl
  | case3 index stores log inside element next ahead found step used met ih =>
      have ready : used = true → (argv.take bound).drop (index + 1) ≠ [] := by
        have after : peek argv bound index = some ((argv.take bound).drop (index + 1)).head? := by
          rw [List.head?_drop]
          exact peek_eq fits
        rw [ahead] at after
        exact Table.rest_of_meet (Option.some.inj after ▸ met)
      rw [Table.runBelow, if_pos inside, scan_below fits inside found ahead]
      simp only [found, ahead, met, Table.scan_over ready, trace_cons]
      exact ih
  -- Below the bound the command line always has an answer, so the loop never stops here.
  | case4 index stores log inside unanswered =>
      have present : index < argv.length := by omega
      exact absurd (peek_eq fits) (unanswered _ _ (List.getElem?_eq_getElem present))
  | case5 index stores log outside =>
      have nothing : (argv.take bound).drop index = [] := by
        apply List.drop_eq_nil_of_le
        rw [List.length_take]
        omega
      have unread : (argv.drop index).take (bound - index) = [] := by
        rw [← List.drop_take]
        exact nothing
      rw [Table.runBelow, if_neg outside, nothing, unread, Table.scan_nil]
      simp [Scan.trace, Scan.finish, Scan.log, Scan.endingMessages, Scan.diagnostic?, Scan.tail, Stores.keepAll]

end Loop

section Places

variable {argv other : List Text} {argc : Option Int}

/-- Two command lines that are the same behind the program name, as far as the bound admits them. -/
def SameBelow (argc : Option Int) (argv other : List Text) : Prop :=
  ∀ place : Nat, 1 ≤ place → (∀ bound ∈ argc, (place : Int) < bound) → other[place]? = argv[place]?

theorem admitted_take (argv : List Text) (argc : Option Int) :
    admitted (argv.take (readBound argv argc)) none = admitted argv argc := (admitted_eq argv argc).symm

theorem readBound_le (argv : List Text) (argc : Option Int) : readBound argv argc ≤ argv.length := by
  cases argc with
  | none => exact Nat.le_refl _
  | some bound =>
      rw [readBound]
      omega

theorem SameBelow.admitted_eq (same : SameBelow argc argv other) : admitted other argc = admitted argv argc := by
  apply List.ext_getElem?
  intro place
  cases argc with
  | none =>
      rw [admitted, admitted, List.getElem?_drop, List.getElem?_drop]
      exact same (1 + place) (by omega) (by simp)
  | some bound =>
      rw [admitted, admitted, List.getElem?_drop, List.getElem?_drop, List.getElem?_take, List.getElem?_take]
      by_cases inside : 1 + place < bound.toNat
      · rw [if_pos inside, if_pos inside]
        apply same (1 + place) (by omega)
        intro given member
        cases member
        omega
      · rw [if_neg inside, if_neg inside]

end Places

/-- A bound is the same as a shorter command line. Under a bound, cut to the length of the command line, the session and
the log are those of the elements before it alone; the loop that asks for the bound before each element, before each
look at the next one and for what is left has them, too, and stays inside the command line; and neither the program name
nor anything at the bound or behind it has an influence. -/
theorem start_bounded (table : Table) (argv : List Text) (reorder : Bool) (argc : Option Int) :
    Session.start table argv reorder argc = Session.start table (argv.take (readBound argv argc)) reorder none ∧
      (table.scanArguments argv argc).log = (table.scanArguments (argv.take (readBound argv argc)) none).log ∧
      table.runBelow reorder argv (readBound argv argc) 1 .empty [] =
        some ⟨Session.start table argv reorder argc, (table.scanArguments argv argc).log⟩ ∧
      ∀ other, SameBelow argc argv other →
        Session.start table other reorder argc = Session.start table argv reorder argc ∧
          (table.scanArguments other argc).log = (table.scanArguments argv argc).log := by
  have cut : table.scanArguments (argv.take (readBound argv argc)) none = table.scanArguments argv argc :=
    congrArg (table.scan false 1) (admitted_take argv argc)
  refine ⟨?session, ?log, ?loop, ?same⟩
  case session => rw [Session.start, Session.start, Table.decode, Table.decode, cut]
  case log => rw [cut]
  case loop =>
    rw [runBelow_eq_trace (readBound_le argv argc), ← admitted_eq, Scan.trace, Scan.finish_empty, List.nil_append]
    rfl
  case same =>
    intro other same
    have alike : table.scanArguments other argc = table.scanArguments argv argc :=
      congrArg (table.scan false 1) same.admitted_eq
    rw [Session.start, Session.start, Table.decode, Table.decode, alike]
    exact ⟨rfl, rfl⟩

def endedLine : List Text := programName :: ["-v", "--", "-x"].map String.toText

def endedLineElsewhere : List Text := "other".toText :: ["-v", "--", "y", "z"].map String.toText

theorem start_bounded_sample :
    SameBelow (some 3) endedLine endedLineElsewhere ∧
      Session.start sampleTable endedLineElsewhere true (some 3) =
        ⟨.succeeded, [.short ⟨.char 'v', some "verbose".toText, .never⟩ 'v' []], none⟩ ∧
      Session.start sampleTable (programName :: ["-o", "log"].map String.toText) true (some 2) =
        ⟨.failed, [], some (.ofProblem (.shortNeedsArgument 'o') "-o".toText 1)⟩ := by
  have same : SameBelow (some 3) endedLine endedLineElsewhere := by
    intro place first inside
    have below : (place : Int) < 3 := inside 3 rfl
    have either : place = 1 ∨ place = 2 := by omega
    rcases either with rfl | rfl <;> decide
  have ended : Session.start sampleTable endedLine true (some 3) =
      ⟨.succeeded, [.short ⟨.char 'v', some "verbose".toText, .never⟩ 'v' []], none⟩ := by decide
  have missed : Session.start sampleTable [programName, "-o".toText] true none =
      ⟨.failed, [], some (.ofProblem (.shortNeedsArgument 'o') "-o".toText 1)⟩ := by decide
  refine ⟨same, ?_, ?_⟩
  · rcases start_bounded sampleTable endedLine true (some 3) with ⟨_, _, _, alike⟩
    exact (alike _ same).1.trans ended
  · rcases start_bounded sampleTable (programName :: ["-o", "log"].map String.toText) true (some 2) with ⟨cut, _⟩
    exact cut.trans missed

end CommandLine
