import CommandLine.Proofs.Scanning

namespace CommandLine

inductive Cluster (table : Table) : Text → Option Text → List Record → Prop where
  | done : Cluster table [] none []
  | flag {c : CodePoint} {d : Descriptor} {rest : Text} {value : Option Text} {records : List Record}
      (selects : table.SelectsShort c d) (arity : d.arity = .never) (more : Cluster table rest value records) :
      Cluster table (c :: rest) value (.short d c [] :: records)
  | bare {c : CodePoint} {d : Descriptor} (selects : table.SelectsShort c d) (arity : d.arity = .optional) :
      Cluster table [c] none [.short d c []]
  | attached {c : CodePoint} {d : Descriptor} {value : Text} (selects : table.SelectsShort c d)
      (arity : d.arity ≠ .never) (nonempty : value ≠ []) : Cluster table (c :: value) none [.short d c value]
  | separate {c : CodePoint} {d : Descriptor} {value : Text} (selects : table.SelectsShort c d)
      (arity : d.arity = .required) (nonempty : value ≠ []) : Cluster table [c] (some value) [.short d c value]

/-- One element, the value taken from the element after it, and the records of both. -/
inductive Phrase (table : Table) : Text → Option Text → List Record → Prop where
  | operand {text : Text} (plain : Token.Plain text) : Phrase table text none [.operand text]
  | longBare {name : Text} {d : Descriptor} (nonempty : name ≠ []) (noEquals : .scalar '=' ∉ name)
      (selects : table.Selects name d) (arity : d.arity ≠ .required) :
      Phrase table ('-' :: '-' :: name) none [.long d []]
  | longAttached {name value : Text} {d : Descriptor} (noEquals : .scalar '=' ∉ name) (selects : table.Selects name d)
      (arity : d.arity = .optional ∨ d.arity = .required ∧ value ≠ []) :
      Phrase table (.scalar '-' :: .scalar '-' :: (name ++ .scalar '=' :: value)) none [.long d value]
  | longSeparate {name value : Text} {d : Descriptor} (nonempty : name ≠ []) (noEquals : .scalar '=' ∉ name)
      (selects : table.Selects name d) (arity : d.arity = .required) (given : value ≠ []) :
      Phrase table ('-' :: '-' :: name) (some value) [.long d value]
  | cluster {c : CodePoint} {rest : Text} {value : Option Text} {records : List Record} (single : c ≠ '-')
      (reads : Cluster table (c :: rest) value records) : Phrase table ('-' :: c :: rest) value records

namespace Table

variable {table : Table}

theorem resolveCluster_flag {c : CodePoint} {d : Descriptor} (first : table.findShort c = some d)
    (flag : d.arity = .never) (rest : Text) (next : Option Text) :
    table.resolveCluster next (c :: rest) =
      (table.resolveCluster next rest).map (Resolution.cons (.short d c [])) := by
  simp [resolveCluster, first, flag, Descriptor.takesArgument]

theorem resolveCluster_of_reads {chars : Text} {value : Option Text} {records : List Record}
    (reads : Cluster table chars value records) :
    table.resolveCluster value chars = .ok ⟨records, value.isSome⟩ := by
  induction reads with
  | done => rfl
  | flag selects arity more ih =>
      rw [resolveCluster_flag (findShort_eq_some_iff.mpr selects) arity, ih]
      rfl
  | bare selects arity =>
      simp only [resolveCluster, findShort_eq_some_iff.mpr selects, arity]
      simp [Except.map, Resolution.cons]
  | attached selects arity nonempty =>
      simp only [resolveCluster, findShort_eq_some_iff.mpr selects, Descriptor.takesArgument]
      simp [arity, nonempty]
  | separate selects arity nonempty =>
      have given := argument?_eq_some_iff.mpr ⟨rfl, nonempty⟩
      simp only [resolveCluster, findShort_eq_some_iff.mpr selects, arity, given]
      simp

theorem reads_of_resolveCluster {chars : Text} {next : Option Text} {resolution : Resolution}
    (resolved : table.resolveCluster next chars = .ok resolution) :
    Cluster table chars (if resolution.usesNext then next else none) resolution.records := by
  induction chars generalizing resolution with
  | nil => cases resolved; exact .done
  | cons c rest ih =>
      simp only [resolveCluster] at resolved
      split at resolved
      · cases resolved
      next d found =>
      have selects := findShort_eq_some_iff.mp found
      split at resolved
      · next attached =>
          cases resolved
          exact .attached selects (by simpa [Descriptor.takesArgument] using attached.1) attached.2
      next separate =>
      split at resolved
      · next arity =>
          have alone : rest = [] := by
            simpa [Descriptor.takesArgument, arity] using separate
          subst alone
          split at resolved
          · next text given =>
              cases resolved
              obtain ⟨rfl, nonempty⟩ := argument?_eq_some_iff.mp given
              exact .separate selects arity nonempty
          · cases resolved
      · next notRequired =>
          cases more : table.resolveCluster next rest with
          | error problem => rw [more] at resolved; cases resolved
          | ok inner =>
              rw [more] at resolved
              cases resolved
              cases arity : d.arity with
              | never => exact .flag selects arity (ih more)
              | required => exact absurd arity notRequired
              | optional =>
                  have alone : rest = [] := by
                    simpa [Descriptor.takesArgument, arity] using separate
                  subst alone
                  cases more
                  exact .bare selects arity

theorem resolveMatched_attached_iff {d : Descriptor} {value : Text} {next : Option Text}
    {resolution : Resolution} : resolveMatched d (some value) next = .ok resolution ↔
      (d.arity = .optional ∨ d.arity = .required ∧ value ≠ []) ∧ resolution = ⟨[.long d value], false⟩ := by
  cases value <;> cases arity : d.arity <;> simp [resolveMatched, arity, eq_comm]

theorem resolveMatched_bare_iff {d : Descriptor} {next : Option Text} {resolution : Resolution} :
    resolveMatched d none next = .ok resolution ↔
      d.arity ≠ .required ∧ resolution = ⟨[.long d []], false⟩ ∨
        d.arity = .required ∧ ∃ text, next = some text ∧ text ≠ [] ∧ resolution = ⟨[.long d text], true⟩ := by
  by_cases arity : d.arity = .required
  · cases given : argument? next with
    | none =>
        have absent : ∀ text, next = some text → text = [] := by
          intro text same
          by_contra nonempty
          simp [argument?_eq_some_iff.mpr ⟨same, nonempty⟩] at given
        simp only [resolveMatched, arity, given]
        simpa using fun text same nonempty => absurd (absent text same) nonempty
    | some text =>
        obtain ⟨rfl, nonempty⟩ := argument?_eq_some_iff.mp given
        simp only [resolveMatched, arity, given]
        simp [nonempty, eq_comm]
  · have bare : resolveMatched d none next = .ok ⟨[.long d []], false⟩ := by
      cases given : d.arity <;> simp_all [resolveMatched]
    rw [bare]
    simp [arity, eq_comm]

theorem selects_of_resolveLong {name text : Text} {value next : Option Text} {resolution : Resolution}
    (resolved : table.resolveLong ⟨text, name, value⟩ next = .ok resolution) :
    ∃ d, table.Selects name d ∧ resolveMatched d value next = .ok resolution := by
  have search := search_matchLong table name
  unfold resolveLong at resolved
  generalize table.matchLong name = found at search resolved
  cases search with
  | full d first => exact ⟨d, .full first, resolved⟩
  | abbreviation d noFull first agree => exact ⟨d, .abbreviation noFull first agree, resolved⟩
  | ambiguous => cases resolved
  | unknown => cases resolved

variable {element : Text} {value next : Option Text} {records : List Record} {step : Step} {used : Bool}

theorem meet_of_resolve {token : Token} {resolution : Resolution} (shape : Token.Shape element token)
    (isOption : token.isOption = true) (resolved : table.resolve token next = .ok resolution) :
    table.meet element next = .noted (.option element resolution.records) resolution.usesNext := by
  have same := Token.classify_of_shape shape
  rw [← same] at isOption
  rw [meet_option isOption, same, resolved]

theorem meet_longBare {name : Text} {d : Descriptor} {resolution : Resolution} (nonempty : name ≠ [])
    (noEquals : .scalar '=' ∉ name) (selects : table.Selects name d)
    (matched : resolveMatched d none next = .ok resolution) :
    table.meet ('-' :: '-' :: name) next =
      .noted (.option ('-' :: '-' :: name) resolution.records) resolution.usesNext := by
  apply meet_of_resolve (.longBare name nonempty noEquals) rfl
  exact (resolveLong_of_selects selects).trans matched

theorem meet_longValued {name attached : Text} {d : Descriptor} {resolution : Resolution}
    (noEquals : .scalar '=' ∉ name) (selects : table.Selects name d)
    (matched : resolveMatched d (some attached) next = .ok resolution) :
    table.meet ('-' :: '-' :: (name ++ .scalar '=' :: attached)) next =
      .noted (.option ('-' :: '-' :: (name ++ .scalar '=' :: attached)) resolution.records) resolution.usesNext := by
  apply meet_of_resolve (.longValued name attached noEquals) rfl
  exact (resolveLong_of_selects selects).trans matched

theorem meet_cluster {c : CodePoint} {rest : Text} (single : c ≠ '-') (next : Option Text) :
    table.meet ('-' :: c :: rest) next =
      match table.resolveCluster next (c :: rest) with
      | .error problem => .refused problem
      | .ok resolution => .noted (.option ('-' :: c :: rest) resolution.records) resolution.usesNext := by
  have shape := Token.classify_of_shape (.cluster c rest single)
  rw [meet_option (by rw [shape]; rfl), shape]
  rfl

theorem meet_value_of_phrase (phrase : Phrase table element value records) :
    ∃ step, step.records = records ∧ table.meet element value = .noted step value.isSome := by
  cases phrase with
  | operand plain => exact ⟨_, rfl, meet_plain plain⟩
  | longBare nonempty noEquals selects arity =>
      exact ⟨_, rfl, meet_longBare nonempty noEquals selects
        (resolveMatched_bare_iff.mpr (Or.inl ⟨arity, rfl⟩))⟩
  | longAttached noEquals selects arity =>
      exact ⟨_, rfl, meet_longValued noEquals selects (resolveMatched_attached_iff.mpr ⟨arity, rfl⟩)⟩
  | longSeparate nonempty noEquals selects arity given =>
      exact ⟨_, rfl, meet_longBare nonempty noEquals selects
        (resolveMatched_bare_iff.mpr (Or.inr ⟨arity, _, rfl, given, rfl⟩))⟩
  | cluster single reads =>
      exact ⟨_, rfl, meet_of_resolve (.cluster _ _ single) rfl (resolveCluster_of_reads reads)⟩

theorem element_of_phrase (phrase : Phrase table element value records) : element ≠ [.scalar '-', .scalar '-'] := by
  rintro rfl
  obtain ⟨step, _, met⟩ := meet_value_of_phrase phrase
  rw [meet_dashes] at met
  cases met

theorem meet_of_phrase (phrase : Phrase table element value records) :
    ∃ step, step.records = records ∧
      ∀ rest, table.meet element (value.toList ++ rest).head? = .noted step value.isSome := by
  obtain ⟨step, same, met⟩ := meet_value_of_phrase phrase
  refine ⟨step, same, fun rest => ?_⟩
  cases value with
  | none => exact meet_of_unused met rfl _
  | some _ => exact met

theorem phrase_of_resolve {token : Token} {resolution : Resolution} (shape : Token.Shape element token)
    (isOption : token.isOption = true) (resolved : table.resolve token next = .ok resolution) :
    Phrase table element (if resolution.usesNext then next else none) resolution.records := by
  cases shape with
  | terminator => cases isOption
  | operand => cases isOption
  | longBare name nonempty noEquals =>
      obtain ⟨d, selects, matched⟩ := selects_of_resolveLong resolved
      rcases resolveMatched_bare_iff.mp matched with ⟨arity, rfl⟩ | ⟨arity, text, rfl, given, rfl⟩
      · exact .longBare nonempty noEquals selects arity
      · exact .longSeparate nonempty noEquals selects arity given
  | longValued name attached noEquals =>
      obtain ⟨d, selects, matched⟩ := selects_of_resolveLong resolved
      obtain ⟨arity, rfl⟩ := resolveMatched_attached_iff.mp matched
      exact .longAttached noEquals selects arity
  | cluster c rest single => exact .cluster single (reads_of_resolveCluster resolved)

theorem phrase_of_meet (met : table.meet element next = .noted step used) :
    Phrase table element (if used then next else none) step.records := by
  cases meets_of_meet met with
  | operand plain => exact .operand plain
  | option isOption resolved => exact phrase_of_resolve (Token.shape_classify element) isOption resolved

end Table

end CommandLine
