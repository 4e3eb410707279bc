import CommandLine.Proofs.Bound
import CommandLine.Proofs.CursorLoop
import CommandLine.Proofs.NextElement

namespace CommandLine

structure Place where
  index : Nat
  stores : Stores
  read : List Text

def Place.start : Place := ⟨1, .empty, []⟩

/-- How the loop is left: with the place behind the last element that was read, with a diagnostic, or because an element
was asked for that is not there. -/
inductive PlaceExit where
  | done (last : Place)
  | failed (diagnostic : Diagnostic)
  | outside

def unread (argv : List Text) (bound index : Nat) : List Text := (argv.drop index).take (bound - index)

def PlaceExit.session? (argv : List Text) (bound : Nat) : PlaceExit → Option Session
  | done last => some (last.stores.close ((unread argv bound last.index).map Record.operand))
  | failed diagnostic => some ⟨.failed, [], some diagnostic⟩
  | outside => none

def Place.apply (here : Place) (reorder : Bool) (element : Text) (next : Option Text) (verdict : Verdict) :
    Turn Place PlaceExit :=
  match verdict.diagnostic with
  | some d => .leaves (.failed { d with index := here.index })
  | none =>
    .goesOn ⟨here.index + verdict.consumed, here.stores.keep reorder (.option element verdict.records),
      here.read ++ element :: next.toList.take (verdict.consumed - 1)⟩

namespace Table

def verdict (table : Table) (token : Token) (next : Option Text) : Verdict :=
  match token with
  | .long option => table.longVerdict option next
  | other => table.shortVerdict other.asShort next

def placeTurn (table : Table) (reorder : Bool) (argv : List Text) (bound : Nat) (here : Place) :
    Turn Place PlaceExit :=
  match argv[here.index]? with
  | none => .leaves .outside
  | some element =>
    match classify element with
    | .terminator _ => .leaves (.done ⟨here.index + 1, here.stores, here.read ++ [element]⟩)
    | .operand text =>
      .goesOn ⟨here.index + 1, here.stores.keep reorder (.operand text), here.read ++ [element]⟩
    | token =>
      match peek argv bound here.index with
      | none => .leaves .outside
      | some next => here.apply reorder element next (table.verdict token next)

def placeLoop (table : Table) (reorder : Bool) (argv : List Text) (argc : Option Int) : Loop Place PlaceExit where
  guard here := here.index < readBound argv argc
  turn := table.placeTurn reorder argv (readBound argv argc)
  close := .done

section Turns

variable {table : Table} {reorder : Bool} {argv : List Text} {bound : Nat} {here : Place} {element : Text}
  {next : Option Text}

theorem verdict_option (isOption : (classify element).isOption = true) :
    table.verdict (classify element) next = .ofResult element (table.resolve (classify element) next) := by
  have text := Token.text_classify element
  cases shape : classify element with
  | terminator _ => rw [shape] at isOption; cases isOption
  | operand _ => rw [shape] at isOption; cases isOption
  | long option => rw [shape] at text; rw [← text]; rfl
  | short option => rw [shape] at text; rw [← text]; rfl

theorem apply_ofResult (result : Except Problem Resolution) :
    here.apply reorder element next (.ofResult element result) =
      match result with
      | .error problem => .leaves (.failed (.ofProblem problem element here.index))
      | .ok resolution =>
        .goesOn ⟨here.index + 1 + resolution.usesNext.toNat,
          here.stores.keep reorder (.option element resolution.records),
          here.read ++ element :: next.toList.take resolution.usesNext.toNat⟩ := by
  cases result with
  | error problem => rfl
  | ok resolution =>
      obtain ⟨records, usesNext⟩ := resolution
      cases usesNext <;> rfl

theorem placeTurn_met (found : argv[here.index]? = some element) (ahead : peek argv bound here.index = some next) :
    table.placeTurn reorder argv bound here =
      match table.meet element next with
      | .stop => .leaves (.done ⟨here.index + 1, here.stores, here.read ++ [element]⟩)
      | .refused problem => .leaves (.failed (.ofProblem problem element here.index))
      | .noted step used =>
        .goesOn ⟨here.index + 1 + used.toNat, here.stores.keep reorder step,
          here.read ++ element :: next.toList.take used.toNat⟩ := by
  rcases element_cases element with rfl | plain | isOption
  · rw [meet_dashes]
    simp only [placeTurn, found, Token.classify_of_shape .terminator]
  · rw [meet_plain plain]
    simp only [placeTurn, found, Token.classify_of_shape (.operand element plain)]
    rfl
  · have applied : table.placeTurn reorder argv bound here =
        here.apply reorder element next (table.verdict (classify element) next) := by
      cases shape : classify element with
      | terminator _ => rw [shape] at isOption; cases isOption
      | operand _ => rw [shape] at isOption; cases isOption
      | long _ => simp only [placeTurn, found, shape, ahead]
      | short _ => simp only [placeTurn, found, shape, ahead]
    rw [applied, verdict_option isOption, apply_ofResult, meet_option isOption]
    cases table.resolve (classify element) next <;> rfl

def runFrom (table : Table) (reorder : Bool) (argv : List Text) (bound : Nat) (here : Place) : Session :=
  table.run reorder (argv.take bound) here.index here.stores

/-- What has been read, and what is left of the elements before the bound. -/
def wholeAt (argv : List Text) (bound : Nat) (here : Place) : List Text := here.read ++ unread argv bound here.index

theorem unread_eq_drop (index : Nat) : unread argv bound index = (argv.take bound).drop index := by
  rw [unread, List.drop_take]

theorem unread_eq_cons {index : Nat} (found : (argv.take bound)[index]? = some element) :
    unread argv bound index = element :: unread argv bound (index + 1) := by
  rcases List.getElem?_eq_some_iff.mp found with ⟨inside, rfl⟩
  rw [unread_eq_drop, unread_eq_drop]
  exact List.drop_eq_getElem_cons inside

theorem runFrom_met (found : (argv.take bound)[here.index]? = some element) :
    table.runFrom reorder argv bound here =
      match table.meet element (argv.take bound)[here.index + 1]? with
      | .stop => here.stores.close ((unread argv bound (here.index + 1)).map Record.operand)
      | .refused problem => ⟨.failed, [], some (.ofProblem problem element here.index)⟩
      | .noted step used =>
        table.run reorder (argv.take bound) (here.index + 1 + used.toNat) (here.stores.keep reorder step) := by
  rcases List.getElem?_eq_some_iff.mp found with ⟨inside, rfl⟩
  rw [runFrom, run, dif_pos inside]
  cases table.meet (argv.take bound)[here.index] (argv.take bound)[here.index + 1]? with
  | stop => simp only [unread_eq_drop]
  | refused problem => rfl
  | noted step used => rfl

theorem runFrom_end (outside : bound ≤ here.index) :
    table.runFrom reorder argv bound here =
      here.stores.close ((unread argv bound here.index).map Record.operand) := by
  have behind : ¬ here.index < (argv.take bound).length := by
    rw [List.length_take]
    omega
  rw [runFrom, run, dif_neg behind, unread_eq_drop]

/-- One turn inside the bound. A turn that goes on passes one element, or two if there is another one below the bound;
and whether it goes on or leaves, no element gets lost, and the session at the end stays the same. -/
theorem placeTurn_comes (fits : bound ≤ argv.length) (inside : here.index < bound) :
    (table.placeTurn reorder argv bound here).Comes
      (fun there => (there.index = here.index + 1 ∨ there.index = here.index + 2 ∧ here.index + 1 < bound) ∧
        wholeAt argv bound there = wholeAt argv bound here ∧
        table.runFrom reorder argv bound there = table.runFrom reorder argv bound here)
      (fun exit => exit.session? argv bound = some (table.runFrom reorder argv bound here) ∧
        ∀ last, exit = .done last →
          last.index = here.index + 1 ∧ wholeAt argv bound last = wholeAt argv bound here) := by
  have present : here.index < argv.length := Nat.lt_of_lt_of_le inside fits
  have found : argv[here.index]? = some argv[here.index] := List.getElem?_eq_getElem present
  generalize argv[here.index] = element at found
  have cut : (argv.take bound)[here.index]? = some element := by rw [List.getElem?_take, if_pos inside, found]
  rw [placeTurn_met found (peek_eq fits), runFrom_met cut, wholeAt, unread_eq_cons cut]
  cases met : table.meet element (argv.take bound)[here.index + 1]? with
  | stop =>
      refine ⟨rfl, ?_⟩
      rintro last left
      cases left
      exact ⟨rfl, by simp [wholeAt]⟩
  | refused problem =>
      refine ⟨rfl, ?_⟩
      rintro last left
      cases left
  | noted step used =>
      cases used with
      | false => exact ⟨.inl rfl, by simp [wholeAt], rfl⟩
      | true =>
          rcases next_of_meet met rfl with ⟨text, ahead, _⟩
          have below : here.index + 1 < bound := by
            rcases List.getElem?_eq_some_iff.mp ahead with ⟨room, _⟩
            rw [List.length_take] at room
            omega
          refine ⟨.inr ⟨rfl, below⟩, ?_, rfl⟩
          rw [unread_eq_cons ahead, ahead]
          simp [wholeAt]

end Turns

section Bounds

variable {table : Table} {reorder : Bool} {argv : List Text} {argc : Option Int}

theorem placeLoop_sound (table : Table) (reorder : Bool) (argv : List Text) (argc : Option Int) :
    (table.placeLoop reorder argv argc).Sound .start
      (fun here => 1 ≤ here.index ∧ here.index ≤ max 1 (readBound argv argc) ∧
        wholeAt argv (readBound argv argc) here = admitted argv argc ∧
        table.runFrom reorder argv (readBound argv argc) here = Session.start table argv reorder argc)
      (fun here => readBound argv argc - here.index)
      (fun exit => exit.session? argv (readBound argv argc) = some (Session.start table argv reorder argc) ∧
        ∀ last, exit = .done last → last.index ≤ max 1 (readBound argv argc) ∧
          wholeAt argv (readBound argv argc) last = admitted argv argc) where
  first := by
    refine ⟨Nat.le_refl 1, Nat.le_max_left _ _, ?_, (start_eq_run table argv reorder argc).symm⟩
    rw [wholeAt, unread_eq_drop, admitted_eq]
    rfl
  turns here holds inside := by
    rcases holds with ⟨first, _, whole, session⟩
    have below : here.index < readBound argv argc := inside
    apply (placeTurn_comes (readBound_le argv argc) below).imp
    · rintro there ⟨moved, same, run⟩
      exact ⟨⟨by omega, by omega, same.trans whole, run.trans session⟩, by omega⟩
    · rintro exit ⟨ended, kept⟩
      refine ⟨ended.trans (congrArg some session), ?_⟩
      rintro last left
      rcases kept last left with ⟨moved, same⟩
      exact ⟨by omega, same.trans whole⟩
  positive here _ inside := Nat.sub_pos_of_lt inside
  closes here holds outside := by
    rcases holds with ⟨_, fits, whole, session⟩
    refine ⟨congrArg some ((runFrom_end (Nat.le_of_not_lt outside)).symm.trans session), ?_⟩
    rintro last left
    cases left
    exact ⟨fits, whole⟩

/-- What holds of the loop over every command line. -/
structure PlaceBounded (table : Table) (reorder : Bool) (argv : List Text) (argc : Option Int) : Prop where
  inside : ∀ turns here, (table.placeLoop reorder argv argc).Reaches .start turns here →
    here.index < readBound argv argc →
    1 ≤ here.index ∧ readBound argv argc ≤ argv.length ∧ turns < readBound argv argc - 1
  counted : ∀ turns here element next, (table.placeLoop reorder argv argc).Reaches .start turns here →
    here.index < readBound argv argc → argv[here.index]? = some element →
    peek argv (readBound argv argc) here.index = some next → (classify element).isOption = true →
    (table.verdict (classify element) next).diagnostic = none →
    (table.verdict (classify element) next).consumed = 1 ∨
      (table.verdict (classify element) next).consumed = 2 ∧ here.index + 1 < readBound argv argc
  advances : ∀ turns here there, (table.placeLoop reorder argv argc).Reaches .start turns here →
    here.index < readBound argv argc → table.placeTurn reorder argv (readBound argv argc) here = .goesOn there →
    there.index = here.index + 1 ∨ there.index = here.index + 2
  ends : ∃ turns exit, (table.placeLoop reorder argv argc).Leaves .start turns exit
  left : ∀ turns exit, (table.placeLoop reorder argv argc).Leaves .start turns exit →
    turns ≤ readBound argv argc - 1 ∧
      exit.session? argv (readBound argv argc) = some (Session.start table argv reorder argc) ∧
      ∀ last, exit = .done last → last.index ≤ max 1 (readBound argv argc) ∧
        last.read ++ unread argv (readBound argv argc) last.index = admitted argv argc

theorem consumed_of_verdict {element : Text} {next : Option Text} {index : Nat}
    (ahead : peek argv (readBound argv argc) index = some next) (isOption : (classify element).isOption = true)
    (read : (table.verdict (classify element) next).diagnostic = none) :
    (table.verdict (classify element) next).consumed = 1 ∨
      (table.verdict (classify element) next).consumed = 2 ∧ index + 1 < readBound argv argc := by
  rw [verdict_option isOption] at read ⊢
  have looks := table.resolve_looksAhead (classify element) element
  apply (looks.counted next read).imp_right
  intro two
  rcases looks.taken next read two with ⟨_, _, _, text, rfl, _⟩
  refine ⟨two, ?_⟩
  -- At the bound there is no next element to take.
  by_contra outside
  rw [peek, if_neg outside] at ahead
  cases ahead

theorem placeBounded (table : Table) (reorder : Bool) (argv : List Text) (argc : Option Int) :
    table.PlaceBounded reorder argv argc where
  inside _ _ reaches below := by
    have sound := placeLoop_sound table reorder argv argc
    exact ⟨(sound.reached reaches).1.1, readBound_le argv argc, sound.turns_lt reaches below⟩
  counted _ _ _ _ _ _ _ ahead isOption read := consumed_of_verdict ahead isOption read
  advances _ here there _ below turn := by
    have comes : (table.placeTurn reorder argv (readBound argv argc) here).Comes _ _ :=
      placeTurn_comes (readBound_le argv argc) below
    rw [turn] at comes
    exact comes.1.imp_right And.left
  ends := (placeLoop_sound table reorder argv argc).exists_leaves
  left _ _ leaves := by
    rcases (placeLoop_sound table reorder argv argc).left leaves with ⟨⟨session, kept⟩, spent⟩
    exact ⟨spent, session, kept⟩

end Bounds

theorem records_ne_nil_of_cluster {table : Table} {c : CodePoint} {rest : Text} {value : Option Text}
    {records : List Record} (reads : Cluster table (c :: rest) value records) : records ≠ [] := by
  cases reads <;> exact List.cons_ne_nil _ _

theorem records_ne_nil_of_short {table : Table} {text : Text} {token : ShortToken} {next : Option Text}
    (short : classify text = .short token) (read : (table.shortVerdict token next).diagnostic = none) :
    (table.shortVerdict token next).records ≠ [] := by
  have shape := Token.shape_classify text
  rw [short] at shape
  cases shape with
  | cluster c rest _ =>
      rw [shortVerdict] at read ⊢
      cases resolved : table.resolveShort ⟨'-' :: c :: rest, c :: rest⟩ next with
      | error problem => rw [resolved] at read; cases read
      | ok resolution =>
          exact records_ne_nil_of_cluster (reads_of_resolveCluster resolved)

end Table

/-- Both loops end and stay inside what they read. The loop over a command line is in a place below the bound in each of
its turns, of which there are fewer than the bound; it goes on by one element or two, as the verdict there has consumed;
and if it ends without a diagnostic, what it has not read is what lies between its last place and the bound. A cluster
that is read has a record, and the loop over its characters goes on by one of them and stays in the cluster. -/
theorem loops_bounded (table : Table) (argv : List Text) (argc : Option Int) (reorder : Bool) :
    table.PlaceBounded reorder argv argc ∧
      (∀ text token next, classify text = .short token → (table.shortVerdict token next).diagnostic = none →
        (table.shortVerdict token next).records ≠ []) ∧
      ∀ token next, table.CursorBounded token next :=
  ⟨table.placeBounded reorder argv argc, fun _ _ _ short read => Table.records_ne_nil_of_short short read,
    table.cursorBounded⟩

def passedLine : List Text := programName :: ["-o", "log", "--", "-x"].map String.toText

def passedPlace : Place :=
  ⟨4, ⟨[.short ⟨.char 'o', some "output".toText, .required⟩ 'o' "log".toText], []⟩,
    ["-o", "log", "--"].map String.toText⟩

theorem loops_bounded_sample :
    (sampleTable.placeLoop true passedLine none).Leaves .start 2 (.done passedPlace) ∧
      passedPlace.read ++ unread passedLine 5 passedPlace.index = passedLine.tail ∧
      Session.start sampleTable passedLine true none =
        ⟨.succeeded, passedPlace.stores.records ++ [.operand "-x".toText], none⟩ ∧
      (sampleTable.shortVerdict ⟨"-vo".toText, "vo".toText⟩ (some "-x".toText)).records ≠ [] := by
  have leaves : (sampleTable.placeLoop true passedLine none).Leaves .start 2 (.done passedPlace) := by
    have first : Place.start.index < 5 := by decide
    have second : 3 < 5 := by decide
    exact .turn (.turn .start first rfl) second rfl
  rcases loops_bounded sampleTable passedLine none true with ⟨place, short, _⟩
  rcases place.left 2 _ leaves with ⟨_, session, kept⟩
  refine ⟨leaves, (kept passedPlace rfl).2, ?_, ?_⟩
  · exact (Option.some.inj session).symm
  · exact short "-vo".toText _ _ (by decide) (by decide)

end CommandLine
