import CommandLine.Proofs.Provenance
import CommandLine.Report.Plain

namespace CommandLine

namespace Text

variable {fill stop : CodePoint} {text : Text}

theorem padRight_append (width : Nat) (rest : Text) :
    padRight fill width text ++ fill :: rest =
      text ++ fill :: (List.replicate (width - text.length) fill ++ rest) := by
  calc
    _ = text ++ (List.replicate (width - text.length) fill ++ [fill] ++ rest) := by simp [padRight]
    _ = text ++ (List.replicate (width - text.length + 1) fill ++ rest) := by rw [List.replicate_succ']
    _ = _ := rfl

theorem dropWhile_padLeft (width : Nat) (rest : Text) (free : fill ∉ text) (nonempty : text ≠ []) :
    (padLeft fill width text ++ rest).dropWhile (· == fill) = text ++ rest := by
  rw [padLeft, List.append_assoc, List.dropWhile_append_of_pos (by simp)]
  cases text with
  | nil => exact absurd rfl nonempty
  | cons c text =>
      have other : c ≠ fill := by
        intro same
        exact free (same ▸ List.mem_cons_self)
      exact List.dropWhile_cons_of_neg (by simpa using other)

theorem not_mem_padLeft (width : Nat) (free : stop ∉ text) (other : stop ≠ fill) : stop ∉ padLeft fill width text := by
  simp [padLeft, free, other]

theorem ofNat_ne_nil (n : Nat) : ofNat n ≠ [] := by simp [ofNat, ofScalars, Scalars.ofNat, Nat.toDigits_ne_nil]

theorem lines_inj {other : Text} : text.splitOn (.scalar '\n') = other.splitOn (.scalar '\n') ↔ text = other := by
  have joined : Function.LeftInverse (List.intercalate [.scalar '\n']) (List.splitOn (CodePoint.scalar '\n')) :=
    fun _ => List.intercalate_splitOn _
  exact joined.injective.eq_iff

end Text

namespace Record

def shown (r : Record) : Bool × Text × Text := (r.isOperand, r.form, r.argument)

structure FitsLine (r : Record) : Prop where
  form : r.isOperand = false → .scalar ' ' ∉ r.form ∧ .scalar '\n' ∉ r.form
  argument : .scalar '\n' ∉ r.argument

/-- It fits in a line, and its form shows whether it is an operand. -/
structure Legible (r : Record) : Prop extends FitsLine r where
  operand : r.isOperand = true → r.form = []
  option : r.isOperand = false → r.form.head? = some (.scalar '-')

variable {table : Table} {elements : List Text} {r s : Record}

theorem shown_inj : r.shown = s.shown ↔ r.isOperand = s.isOperand ∧ r.form = s.form ∧ r.argument = s.argument := by
  simp only [shown, Prod.mk.injEq]

theorem Reports.head_form (reports : r.Reports table) : r.form.head? = some (.scalar '-') := by
  rcases reports.form with ⟨name, _, form, _⟩ | ⟨c, form, _⟩ <;> simp [form]

theorem Origin.legible (origin : r.Origin table elements) (fits : r.FitsLine) : r.Legible where
  toFitsLine := fits
  operand isOperand := by
    cases origin with
    | operand member => rfl
    | option reports _ _ =>
        rw [reports.isOperand] at isOperand
        cases isOperand
  option isOption := by
    cases origin with
    | operand member => cases isOption
    | option reports _ _ => exact reports.head_form

end Record

namespace Report

def row (position : Nat) (r : Record) : Text :=
  Text.padLeft (.scalar ' ') 3 (Text.ofNat position) ++ "  ".toText ++ body r

def closing (count : Nat) : Text := "--- ".toText ++ Text.ofNat count ++ " record(s) ---".toText

section Body

variable {r s : Record}

theorem label_operand (isOperand : r.isOperand = true) : label r = "(operand)".toText := if_pos isOperand

theorem label_option (isOption : r.isOperand = false) : label r = r.form := if_neg (ne_true_of_eq_false isOption)

theorem label_free (fits : r.FitsLine) : .scalar ' ' ∉ label r ∧ .scalar '\n' ∉ label r := by
  cases kind : r.isOperand with
  | true =>
      rw [label_operand kind]
      decide
  | false =>
      rw [label_option kind]
      exact fits.form kind

theorem label_ne (isOperand : r.isOperand = true) (legible : s.Legible) (isOption : s.isOperand = false) :
    label r ≠ label s := by
  rw [label_operand isOperand, label_option isOption]
  intro same
  have dash := legible.option isOption
  rw [← same] at dash
  cases dash

theorem label_eq_iff (legible : r.Legible) (other : s.Legible) :
    label r = label s ↔ r.isOperand = s.isOperand ∧ r.form = s.form := by
  cases first : r.isOperand with
  | true =>
      cases second : s.isOperand with
      | true => simp [label_operand first, label_operand second, legible.operand first, other.operand second]
      | false => simp [label_ne first other second]
  | false =>
      cases second : s.isOperand with
      | true => simp [(label_ne second legible first).symm]
      | false => simp [label_option first, label_option second]

theorem body_columns (column : hasArgumentColumn r = true) :
    body r = label r ++ .scalar ' ' :: (List.replicate (20 - (label r).length) (.scalar ' ') ++ r.argument) :=
  (if_pos column).trans (Text.padRight_append 20 r.argument)

theorem body_bare (bare : hasArgumentColumn r = false) : body r = label r := if_neg (ne_true_of_eq_false bare)

theorem argument_bare (bare : hasArgumentColumn r = false) : r.argument = [] := by
  simp only [hasArgumentColumn, Bool.or_eq_false_iff, decide_eq_false_iff_not, not_not] at bare
  exact bare.2

theorem blank_mem_body (fits : r.FitsLine) : .scalar ' ' ∈ body r ↔ hasArgumentColumn r = true := by
  cases column : hasArgumentColumn r with
  | true =>
      rw [body_columns column]
      simp
  | false =>
      rw [body_bare column]
      exact iff_of_false (label_free fits).1 Bool.false_ne_true

theorem newline_not_mem_body (fits : r.FitsLine) : .scalar '\n' ∉ body r := by
  cases column : hasArgumentColumn r with
  | true =>
      rw [body_columns column]
      simp [(label_free fits).2, fits.argument]
  | false =>
      rw [body_bare column]
      exact (label_free fits).2

theorem body_inj (fits : r.FitsLine) (other : s.FitsLine) (same : body r = body s) :
    label r = label s ∧ r.argument = s.argument := by
  have columns : hasArgumentColumn r = true ↔ hasArgumentColumn s = true := by
    rw [← blank_mem_body fits, ← blank_mem_body other, same]
  cases column : hasArgumentColumn r with
  | true =>
      rw [body_columns column, body_columns (columns.mp column)] at same
      rcases (Text.cut_inj (label_free fits).1 (label_free other).1).mp same with ⟨labels, padded⟩
      -- Labels of one length are padded by the same number of blanks.
      rw [labels] at padded
      exact ⟨labels, List.append_cancel_left padded⟩
  | false =>
      have bare : hasArgumentColumn s = false := by simpa [column] using columns
      rw [body_bare column, body_bare bare] at same
      exact ⟨same, (argument_bare column).trans (argument_bare bare).symm⟩

theorem body_congr (labels : label r = label s) (kinds : r.isOperand = s.isOperand)
    (arguments : r.argument = s.argument) : body r = body s := by
  have columns : hasArgumentColumn r = hasArgumentColumn s := by
    rw [hasArgumentColumn, kinds, arguments, hasArgumentColumn]
  rw [body, body, columns, labels, arguments]

theorem body_eq_iff (legible : r.Legible) (other : s.Legible) : body r = body s ↔ r.shown = s.shown := by
  rw [Record.shown_inj]
  constructor
  · intro same
    rcases body_inj legible.toFitsLine other.toFitsLine same with ⟨labels, arguments⟩
    rcases (label_eq_iff legible other).mp labels with ⟨kinds, forms⟩
    exact ⟨kinds, forms, arguments⟩
  · intro same
    exact body_congr ((label_eq_iff legible other).mpr ⟨same.1, same.2.1⟩) same.1 same.2.2

end Body

section Row

variable {position place : Nat} {r s : Record}

theorem line_eq_row : line position r = row position r ++ [.scalar '\n'] := rfl

theorem newline_not_mem_row (fits : r.FitsLine) : .scalar '\n' ∉ row position r := by
  have digits : .scalar '\n' ∉ Text.padLeft (.scalar ' ') 3 (Text.ofNat position) :=
    Text.not_mem_padLeft 3 (Text.not_mem_ofNat position rfl) (by decide)
  simp [row, digits, newline_not_mem_body fits, String.toText, Text.ofScalars]

/-- After the blanks that put it on the right, the position ends at the next blank. -/
theorem row_inj : row position r = row place s ↔ position = place ∧ body r = body s := by
  constructor
  · intro same
    have blank (n : Nat) : .scalar ' ' ∉ Text.ofNat n := Text.not_mem_ofNat n rfl
    have read (n : Nat) (t : Record) :
        (row n t).dropWhile (· == .scalar ' ') = Text.ofNat n ++ .scalar ' ' :: .scalar ' ' :: body t := by
      rw [row, List.append_assoc, Text.dropWhile_padLeft 3 _ (blank n) (Text.ofNat_ne_nil n)]
      rfl
    have cut : Text.ofNat position ++ .scalar ' ' :: .scalar ' ' :: body r =
        Text.ofNat place ++ .scalar ' ' :: .scalar ' ' :: body s := by
      rw [← read, ← read, same]
    rcases (Text.cut_inj (blank position) (blank place)).mp cut with ⟨digits, bodies⟩
    exact ⟨Text.ofNat_inj.mp digits, List.tail_eq_of_cons_eq bodies⟩
  · intro same
    rw [row, row, same.1, same.2]

theorem row_eq_iff (legible : r.Legible) (other : s.Legible) :
    row position r = row place s ↔ position = place ∧ r.shown = s.shown := by
  rw [row_inj, body_eq_iff legible other]

end Row

section Lines

variable {records others : List Record}

theorem lines_linesFrom (fits : ∀ r ∈ records, r.FitsLine) (position : Nat) (rest : Text) :
    ((linesFrom position records).flatten ++ rest).splitOn (.scalar '\n') =
      records.mapIdx (fun i => row (position + i)) ++ rest.splitOn (.scalar '\n') := by
  induction records generalizing position with
  | nil => rfl
  | cons r records ih =>
      have first : .scalar '\n' ∉ row position r := newline_not_mem_row (fits r List.mem_cons_self)
      have later := ih (fun s member => fits s (List.mem_cons_of_mem r member)) (position + 1)
      calc
        _ = (row position r ++ .scalar '\n' :: ((linesFrom (position + 1) records).flatten ++ rest)).splitOn
              (.scalar '\n') := by
          simp [linesFrom, line_eq_row]
        _ = row position r :: ((linesFrom (position + 1) records).flatten ++ rest).splitOn (.scalar '\n') :=
          List.splitOn_append_cons_self_of_not_mem first _
        _ = row position r :: (records.mapIdx (fun i => row (position + 1 + i)) ++ rest.splitOn (.scalar '\n')) := by
          rw [later]
        _ = _ := by simp [List.mapIdx_cons, Nat.add_assoc, Nat.add_comm 1]

theorem summary_eq_closing (count : Nat) : summary count = .scalar '\n' :: (closing count ++ [.scalar '\n']) := by
  simp [summary, closing, String.toText, Text.ofScalars]

theorem newline_not_mem_closing (count : Nat) : .scalar '\n' ∉ closing count := by
  intro member
  rcases List.mem_append.mp member with front | back
  · rcases List.mem_append.mp front with dashes | digits
    · exact absurd dashes (by decide)
    · exact Text.not_mem_ofNat count rfl digits
  · exact absurd back (by decide)

theorem lines_summary (count : Nat) : (summary count).splitOn (.scalar '\n') = [[], closing count, []] := by
  calc
    _ = ([] ++ CodePoint.scalar '\n' :: (closing count ++ [CodePoint.scalar '\n'])).splitOn (.scalar '\n') := by
      rw [summary_eq_closing, List.nil_append]
    _ = [] :: (closing count ++ [CodePoint.scalar '\n']).splitOn (.scalar '\n') :=
      List.splitOn_append_cons_self_of_not_mem List.not_mem_nil _
    _ = [] :: closing count :: List.splitOn (CodePoint.scalar '\n') [] :=
      congrArg _ (List.splitOn_append_cons_self_of_not_mem (newline_not_mem_closing count) [])
    _ = _ := rfl

theorem lines_plain (fits : ∀ r ∈ records, r.FitsLine) :
    (plain records).splitOn (.scalar '\n') = records.mapIdx row ++ [[], closing records.length, []] := by
  have lines := lines_linesFrom fits 0 (summary records.length)
  simp only [Nat.zero_add, lines_summary] at lines
  rw [plain, plainPieces, List.flatten_append, List.flatten_singleton]
  exact lines

theorem rows_eq_iff (legible : ∀ r ∈ records, r.Legible) (also : ∀ r ∈ others, r.Legible) :
    records.mapIdx row = others.mapIdx row ↔ records.map Record.shown = others.map Record.shown := by
  rw [List.ext_getElem?_iff, List.ext_getElem?_iff]
  apply forall_congr'
  intro i
  rw [List.getElem?_mapIdx, List.getElem?_mapIdx, List.getElem?_map, List.getElem?_map]
  cases first : records[i]? with
  | none => cases others[i]? <;> simp
  | some r =>
      cases second : others[i]? with
      | none => simp
      | some s =>
          have rows : row i r = row i s ↔ i = i ∧ r.shown = s.shown :=
            row_eq_iff (legible r (List.mem_of_getElem? first)) (also s (List.mem_of_getElem? second))
          simpa using rows

theorem plain_eq_iff (legible : ∀ r ∈ records, r.Legible) (also : ∀ r ∈ others, r.Legible) :
    plain records = plain others ↔ records.map Record.shown = others.map Record.shown := by
  calc
    _ ↔ (plain records).splitOn (.scalar '\n') = (plain others).splitOn (.scalar '\n') := Text.lines_inj.symm
    _ ↔ records.mapIdx row ++ [[], closing records.length, []] =
        others.mapIdx row ++ [[], closing others.length, []] := by
      rw [lines_plain fun r member => (legible r member).toFitsLine,
        lines_plain fun r member => (also r member).toFitsLine]
    _ ↔ records.mapIdx row = others.mapIdx row := by
      constructor
      · intro same
        exact (List.append_inj' same rfl).1
      · intro same
        have count : records.length = others.length := by simpa using congrArg List.length same
        rw [same, count]
    _ ↔ _ := rows_eq_iff legible also

end Lines

end Report

theorem start_legible {table : Table} {argv : List Text} {reorder : Bool} {argc : Option Int} {records : List Record}
    (read : Session.start table argv reorder argc = ⟨.succeeded, records, none⟩) (fits : ∀ r ∈ records, r.FitsLine) :
    ∀ r ∈ records, r.Legible := by
  intro r member
  have kept : r ∈ (Session.start table argv reorder argc).records := by
    rw [read]
    exact member
  exact (start_origin kept).legible (fits r member)

/-- Two command lines have the same plain report if and only if their records show the same, one by one. The report
has a line for each record, then an empty one and the number of records; and a line tells where its record stands and
what it shows, also in another report. -/
theorem plain_determines (table other : Table) (argv line : List Text) (reorder order : Bool) (argc bound : Option Int)
    (records others : List Record) (read : Session.start table argv reorder argc = ⟨.succeeded, records, none⟩)
    (readToo : Session.start other line order bound = ⟨.succeeded, others, none⟩)
    (fits : ∀ r ∈ records, r.FitsLine) (fitsToo : ∀ r ∈ others, r.FitsLine) :
    (Report.plain records).splitOn (.scalar '\n') =
        records.mapIdx Report.row ++ [[], Report.closing records.length, []] ∧
      (∀ r ∈ records, ∀ s ∈ others, ∀ position place,
        Report.row position r = Report.row place s ↔ position = place ∧ r.shown = s.shown) ∧
      (Report.plain records = Report.plain others ↔ records.map Record.shown = others.map Record.shown) := by
  have legible := start_legible read fits
  have legibleToo := start_legible readToo fitsToo
  refine ⟨Report.lines_plain fits, ?_, Report.plain_eq_iff legible legibleToo⟩
  intro r member s memberToo position place
  exact Report.row_eq_iff (legible r member) (legibleToo s memberToo)

theorem plain_determines_sample :
    let records : List Record :=
      [.short ⟨.char 'v', some "verbose".toText, .never⟩ 'v' [], .operand "  --- 1 record(s) ---".toText]
    let others : List Record := [.operand [], .operand "  --- 1 record(s) ---".toText]
    (Report.plain records).splitOn (.scalar '\n') =
        ["  0  -v", "  1  (operand)              --- 1 record(s) ---", "", "--- 2 record(s) ---", ""].map
          String.toText ∧
      Report.plain records ≠ Report.plain others := by
  intro records others
  have read : Session.start sampleTable (programName :: ["-v", "  --- 1 record(s) ---"].map String.toText) true none =
      ⟨.succeeded, records, none⟩ := by decide
  have readToo : Session.start sampleTable (programName :: ["", "  --- 1 record(s) ---"].map String.toText) true none =
      ⟨.succeeded, others, none⟩ := by decide
  have fits : ∀ r ∈ records ++ others, r.FitsLine := by
    have kept : ∀ r ∈ records ++ others,
        (r.isOperand = false → .scalar ' ' ∉ r.form ∧ .scalar '\n' ∉ r.form) ∧ .scalar '\n' ∉ r.argument := by
      decide
    exact fun r member => ⟨(kept r member).1, (kept r member).2⟩
  have told := plain_determines _ _ _ _ _ _ _ _ records others read readToo
    (fun r member => fits r (List.mem_append_left others member))
    (fun r member => fits r (List.mem_append_right records member))
  exact ⟨told.1.trans (by decide), mt told.2.2.mp (by decide)⟩

end CommandLine
