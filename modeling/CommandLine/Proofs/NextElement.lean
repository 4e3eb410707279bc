import CommandLine.Proofs.Outcome
import CommandLine.Proofs.Phrase

namespace CommandLine

/-- What an element has an influence on, and what not. Here `verdict next` is the verdict on a token before `next`. -/
structure LooksAhead (verdict : Option Text → Verdict) : Prop where
  counted : ∀ next, (verdict next).diagnostic = none → (verdict next).consumed = 1 ∨ (verdict next).consumed = 2
  untouched : ∀ next other, (verdict next).diagnostic = none → (verdict next).consumed = 1 →
    verdict other = verdict next
  blamed : ∀ next other d, (verdict next).diagnostic = some d → d.fault ≠ .missingArgument →
    verdict other = verdict next
  taken : ∀ next, (verdict next).diagnostic = none → (verdict next).consumed = 2 →
    ∃ front d form text, next = some text ∧ text ≠ [] ∧ verdict next = ⟨front ++ [⟨d, text, form⟩], 2, none⟩ ∧
      (∀ other, other ≠ [] → verdict (some other) = ⟨front ++ [⟨d, other, form⟩], 2, none⟩) ∧
      ∀ other, other = none ∨ other = some [] →
        ∃ missing, verdict other = ⟨[], 0, some missing⟩ ∧ missing.fault = .missingArgument
  influence : ∀ next other, verdict next ≠ verdict other → (verdict next).consumed = 2 ∨ (verdict other).consumed = 2
  optional : ∀ next, ∀ r ∈ (verdict next).records, r.descriptor.arity = .optional →
    (verdict next).consumed = 1 ∧ ∀ other, verdict other = verdict next

section Reliance

variable {verdict : Option Text → Verdict} {front : List Record} {d : Descriptor} {form : Text} {missing : Diagnostic}

theorem looksAhead_of_same {result : Except Problem (List Record)} {token : Text}
    (same : ∀ next, verdict next = .ofResult token (result.map fun records => ⟨records, false⟩)) :
    LooksAhead verdict := by
  have alike : ∀ next other, verdict other = verdict next := by
    intro next other
    rw [same, same]
  have single : ∀ next, (verdict next).diagnostic = none → (verdict next).consumed = 1 := by
    intro next read
    rw [same] at read ⊢
    cases result with
    | error problem => cases read
    | ok records => rfl
  refine ⟨?counted, ?untouched, ?blamed, ?taken, ?influence, ?optional⟩
  case counted => exact fun next read => Or.inl (single next read)
  case untouched => exact fun next other _ _ => alike next other
  case blamed => exact fun next other _ _ _ => alike next other
  case taken =>
    intro next read two
    rw [single next read] at two
    cases two
  case influence =>
    intro next other differ
    exact absurd (alike other next) differ
  case optional =>
    intro next r member _
    refine ⟨single next ?_, alike next⟩
    rw [same] at member ⊢
    cases result with
    | error problem => cases member
    | ok records => rfl

structure Awaits (verdict : Option Text → Verdict) (front : List Record) (d : Descriptor) (form : Text)
    (missing : Diagnostic) : Prop where
  takes : ∀ text : Text, text ≠ [] → verdict (some text) = ⟨front ++ [⟨d, text, form⟩], 2, none⟩
  lacks : ∀ next : Option Text, next = none ∨ next = some [] → verdict next = ⟨[], 0, some missing⟩
  fault : missing.fault = .missingArgument
  required : d.arity = .required
  others : ∀ r ∈ front, r.descriptor.arity ≠ .optional

theorem Awaits.before (awaits : Awaits verdict front d form missing) (next : Option Text) :
    verdict next = ⟨[], 0, some missing⟩ ∨
      ∃ text, next = some text ∧ text ≠ [] ∧ verdict next = ⟨front ++ [⟨d, text, form⟩], 2, none⟩ := by
  rcases next with _ | text
  · exact Or.inl (awaits.lacks none (Or.inl rfl))
  · by_cases empty : text = []
    · exact Or.inl (awaits.lacks (some text) (Or.inr (congrArg some empty)))
    · exact Or.inr ⟨text, rfl, empty, awaits.takes text empty⟩

theorem Awaits.looksAhead (awaits : Awaits verdict front d form missing) : LooksAhead verdict := by
  refine ⟨?counted, ?untouched, ?blamed, ?taken, ?influence, ?optional⟩
  case counted =>
    intro next read
    rcases awaits.before next with failed | ⟨text, _, _, took⟩
    · rw [failed] at read
      cases read
    · exact Or.inr (by rw [took])
  case untouched =>
    intro next other read one
    rcases awaits.before next with failed | ⟨text, _, _, took⟩
    · rw [failed] at read
      cases read
    · rw [took] at one
      cases one
  case blamed =>
    intro next other blame found complete
    rcases awaits.before next with failed | ⟨text, _, _, took⟩
    · rw [failed] at found
      cases found
      exact absurd awaits.fault complete
    · rw [took] at found
      cases found
  case taken =>
    intro next read _
    rcases awaits.before next with failed | ⟨text, given, nonempty, took⟩
    · rw [failed] at read
      cases read
    · refine ⟨front, d, form, text, given, nonempty, took, awaits.takes, ?_⟩
      intro other absent
      exact ⟨missing, awaits.lacks other absent, awaits.fault⟩
  case influence =>
    intro next other differ
    rcases awaits.before next with failed | ⟨text, _, _, took⟩
    · rcases awaits.before other with failedToo | ⟨text, _, _, took⟩
      · exact absurd (failed.trans failedToo.symm) differ
      · exact Or.inr (by rw [took])
    · exact Or.inl (by rw [took])
  case optional =>
    intro next r member arity
    rcases awaits.before next with failed | ⟨text, _, _, took⟩
    · rw [failed] at member
      cases member
    · rw [took] at member
      rcases List.mem_append.mp member with before | last
      · exact absurd arity (awaits.others r before)
      · rw [List.mem_singleton.mp last, awaits.required] at arity
        cases arity

end Reliance

section Taken

variable {table : Table} {value next : Option Text} {chars : Text} {records : List Record}

/-- The options before a separate value are flags, and the one that takes it requires it. -/
theorem not_optional_of_cluster (reads : Cluster table chars value records) (separate : value ≠ none) :
    ∀ r ∈ records, r.descriptor.arity ≠ .optional := by
  induction reads with
  | done => exact absurd rfl separate
  | @flag c d rest value records selects arity more ih =>
      intro r member
      rcases List.mem_cons.mp member with rfl | later
      · simp [Record.short, arity]
      · exact ih separate r later
  | bare selects arity => exact absurd rfl separate
  | attached selects arity nonempty => exact absurd rfl separate
  | separate selects arity nonempty =>
      intro r member
      rw [List.mem_singleton.mp member]
      simp [Record.short, arity]

theorem not_optional_of_resolve {token : Token} {resolution : Resolution}
    (resolved : table.resolve token next = .ok resolution) (used : resolution.usesNext = true) :
    ∀ r ∈ resolution.records, r.descriptor.arity ≠ .optional := by
  cases token with
  | terminator _ =>
      cases resolved
      cases used
  | operand _ =>
      cases resolved
      cases used
  | short option =>
      rcases Table.next_of_resolve resolved used with ⟨text, rfl, _⟩
      have reads := Table.reads_of_resolveCluster resolved
      rw [if_pos used] at reads
      exact not_optional_of_cluster reads (Option.some_ne_none text)
  | long option =>
      rcases Table.selects_of_resolveLong resolved with ⟨d, _, matched⟩
      cases given : option.value with
      | some text =>
          rw [given] at matched
          rw [(Table.resolveMatched_attached_iff.mp matched).2] at used
          cases used
      | none =>
          rw [given] at matched
          rcases Table.resolveMatched_bare_iff.mp matched with ⟨_, rfl⟩ | ⟨arity, text, _, _, rfl⟩
          · cases used
          · simp [Record.long, arity]

end Taken

theorem Table.resolve_looksAhead (table : Table) (token : Token) (text : Text) :
    LooksAhead fun next => .ofResult text (table.resolve token next) := by
  rcases table.resolve_demand token with ⟨demand, lawful, answers⟩
  cases demand with
  | settled result =>
      apply looksAhead_of_same
      intro next
      exact congrArg (Verdict.ofResult text) (answers next)
  | awaits front d form problem =>
      rcases lawful with ⟨required, fault⟩
      have takes : ∀ value : Text, value ≠ [] →
          table.resolve token (some value) = .ok ⟨front ++ [⟨d, value, form⟩], true⟩ := by
        intro value nonempty
        rw [answers, Demand.answer, argument?_eq_some_iff.mpr ⟨rfl, nonempty⟩]
      have lacks : ∀ next : Option Text, next = none ∨ next = some [] →
          table.resolve token next = .error problem := by
        intro next absent
        rw [answers, Demand.answer, argument?_eq_none_iff.mpr absent]
      have others : ∀ r ∈ front, r.descriptor.arity ≠ .optional := by
        -- The records in front do not depend on the value, so any value will do.
        intro r member
        exact not_optional_of_resolve (takes ['x'] (List.cons_ne_nil _ _)) rfl r (List.mem_append_left _ member)
      have awaits : Awaits (fun next => .ofResult text (table.resolve token next)) front d form
          (.ofProblem problem text (-1)) :=
        { takes := fun value nonempty => congrArg (Verdict.ofResult text) (takes value nonempty)
          lacks := fun next absent => congrArg (Verdict.ofResult text) (lacks next absent)
          fault
          required
          others }
      exact awaits.looksAhead

/-- Of the element after an option token a verdict depends only on what it takes: neither the records nor the fault of a
token that leaves that element alone, and nothing but the last argument of one that takes it. -/
theorem verdict_lookahead (table : Table) :
    (∀ token : LongToken, LooksAhead (table.longVerdict token)) ∧
      ∀ token : ShortToken, LooksAhead (table.shortVerdict token) := by
  constructor
  · intro token
    exact table.resolve_looksAhead (.long token) token.text
  · intro token
    exact table.resolve_looksAhead (.short token) token.text

theorem verdict_lookahead_sample :
    (sampleTable.shortVerdict ⟨"-vo".toText, "vo".toText⟩ (some "-c".toText)).consumed = 2 ∧
      (∃ missing, sampleTable.shortVerdict ⟨"-vo".toText, "vo".toText⟩ none = ⟨[], 0, some missing⟩ ∧
        missing.fault = .missingArgument) ∧
      ∀ next, sampleTable.longVerdict ⟨"--col".toText, "col".toText, none⟩ next =
        ⟨[.long ⟨.char 'c', some "color".toText, .optional⟩ []], 1, none⟩ := by
  have took : (sampleTable.shortVerdict ⟨"-vo".toText, "vo".toText⟩ (some "-c".toText)).consumed = 2 := by decide
  have color : sampleTable.longVerdict ⟨"--col".toText, "col".toText, none⟩ none =
      ⟨[.long ⟨.char 'c', some "color".toText, .optional⟩ []], 1, none⟩ := by decide
  rcases verdict_lookahead sampleTable with ⟨long, short⟩
  refine ⟨took, ?missed, ?same⟩
  case missed =>
    rcases (short _).taken _ (by decide) took with ⟨_, _, _, _, _, _, _, _, missed⟩
    exact missed none (Or.inl rfl)
  case same =>
    intro next
    rw [← color]
    exact (long _).untouched none next (by decide) (by decide)

end CommandLine
