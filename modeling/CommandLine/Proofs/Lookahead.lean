import CommandLine.Proofs.Selection
import CommandLine.Scan

namespace CommandLine

/-- The meaning of a token as far as the token alone determines it. -/
inductive Demand where
  | settled (outcome : Except Problem (List Record))
  | awaits (front : List Record) (d : Descriptor) (form : Text) (problem : Problem)

namespace Demand

def answer : Demand → Option Text → Except Problem Resolution
  | settled outcome, _ => outcome.map fun records => ⟨records, false⟩
  | awaits front d form problem, next =>
    match argument? next with
    | some text => .ok ⟨front ++ [⟨d, text, form⟩], true⟩
    | none => .error problem

/-- Only a missing value can be the problem of a token that waits for one. -/
def Lawful : Demand → Prop
  | settled _ => True
  | awaits _ d _ problem => d.arity = .required ∧ problem.fault = .missingArgument

def cons (record : Record) : Demand → Demand
  | settled outcome => settled (outcome.map (record :: ·))
  | awaits front d form problem => awaits (record :: front) d form problem

theorem answer_cons (record : Record) (demand : Demand) (next : Option Text) :
    (demand.cons record).answer next = (demand.answer next).map (Resolution.cons record) := by
  cases demand with
  | settled outcome => cases outcome <;> rfl
  | awaits front d form problem =>
      simp only [cons, answer]
      cases argument? next <;> rfl

theorem lawful_cons {record : Record} {demand : Demand} (lawful : demand.Lawful) :
    (demand.cons record).Lawful := by
  cases demand <;> exact lawful

end Demand

theorem argument?_eq_some_iff {next : Option Text} {text : Text} :
    argument? next = some text ↔ next = some text ∧ text ≠ [] := by
  simp [argument?, Option.filter_eq_some_iff]

theorem argument?_eq_none_iff {next : Option Text} : argument? next = none ↔ next = none ∨ next = some [] := by
  cases next with
  | none => simp [argument?]
  | some text => simp [argument?, Option.filter]

namespace Table

variable {table : Table}

theorem matched_demand (d : Descriptor) (value : Option Text) :
    ∃ demand : Demand, demand.Lawful ∧ ∀ next, resolveMatched d value next = demand.answer next := by
  cases value with
  | some value =>
      refine ⟨.settled ((resolveMatched d (some value) none).map Resolution.records), trivial, fun next => ?_⟩
      cases value <;> cases arity : d.arity <;> simp [resolveMatched, arity, Demand.answer, Except.map]
  | none =>
      by_cases arity : d.arity = .required
      · refine ⟨.awaits [] d (Record.longForm d) (.longNeedsArgument d), ⟨arity, rfl⟩, fun next => ?_⟩
        simp only [resolveMatched, arity, Demand.answer]
        cases argument? next <;> rfl
      · refine ⟨.settled (.ok [.long d []]), trivial, fun next => ?_⟩
        cases given : d.arity <;> simp_all [resolveMatched, Demand.answer, Except.map]

theorem resolveLong_of_selects {name text : Text} {value next : Option Text} {d : Descriptor}
    (selects : table.Selects name d) :
    table.resolveLong ⟨text, name, value⟩ next = resolveMatched d value next := by
  obtain ⟨exact, found⟩ := matchLong_of_selects selects
  cases exact <;> simp [resolveLong, found]

theorem long_demand (table : Table) (token : LongToken) :
    ∃ demand : Demand, demand.Lawful ∧ ∀ next, table.resolveLong token next = demand.answer next := by
  have search := search_matchLong table token.name
  unfold resolveLong
  generalize table.matchLong token.name = found at search
  cases search with
  | full d _ => exact matched_demand d token.value
  | abbreviation d _ _ _ => exact matched_demand d token.value
  | ambiguous d _ _ _ _ _ _ => exact ⟨.settled (.error (.ambiguous token.text)), trivial, fun _ => rfl⟩
  | unknown _ => exact ⟨.settled (.error (.unrecognized token.text)), trivial, fun _ => rfl⟩

theorem cluster_demand (table : Table) (cluster : Text) :
    ∃ demand : Demand, demand.Lawful ∧ ∀ next, table.resolveCluster next cluster = demand.answer next := by
  induction cluster with
  | nil => exact ⟨.settled (.ok []), trivial, fun _ => rfl⟩
  | cons c rest ih =>
      simp only [resolveCluster]
      cases table.findShort c with
      | none => exact ⟨.settled (.error (.invalidShort c)), trivial, fun _ => rfl⟩
      | some d =>
          obtain ⟨demand, lawful, answers⟩ := ih
          by_cases attached : d.takesArgument = true ∧ rest ≠ []
          · exact ⟨.settled (.ok [.short d c rest]), trivial, fun next => by simp only [if_pos attached]; rfl⟩
          by_cases arity : d.arity = .required
          · refine ⟨.awaits [] d ['-', c] (.shortNeedsArgument c), ⟨arity, rfl⟩, fun next => ?_⟩
            simp only [if_neg attached, if_pos arity, Demand.answer]
            cases argument? next <;> rfl
          · refine ⟨demand.cons (.short d c []), Demand.lawful_cons lawful, fun next => ?_⟩
            simp only [if_neg attached, if_neg arity, answers, Demand.answer_cons]

theorem resolve_demand (table : Table) (token : Token) :
    ∃ demand : Demand, demand.Lawful ∧ ∀ next, table.resolve token next = demand.answer next := by
  cases token with
  | long option => exact long_demand table option
  | short option => exact cluster_demand table option.cluster
  | terminator _ => exact ⟨.settled (.ok []), trivial, fun _ => rfl⟩
  | operand _ => exact ⟨.settled (.ok []), trivial, fun _ => rfl⟩

section Resolve

variable {token : Token} {next : Option Text} {resolution : Resolution}

theorem next_of_resolve (resolved : table.resolve token next = .ok resolution)
    (used : resolution.usesNext = true) : ∃ text, next = some text ∧ text ≠ [] := by
  obtain ⟨demand, _, answers⟩ := resolve_demand table token
  rw [answers] at resolved
  cases demand with
  | settled outcome =>
      cases outcome with
      | error _ => cases resolved
      | ok _ => cases resolved; cases used
  | awaits _ _ _ _ =>
      simp only [Demand.answer] at resolved
      split at resolved
      · next text given => exact ⟨text, argument?_eq_some_iff.mp given⟩
      · cases resolved

theorem resolve_of_unused (resolved : table.resolve token next = .ok resolution)
    (unused : resolution.usesNext = false) (other : Option Text) :
    table.resolve token other = .ok resolution := by
  obtain ⟨demand, _, answers⟩ := resolve_demand table token
  rw [answers] at resolved ⊢
  cases demand with
  | settled outcome => exact resolved
  | awaits _ _ _ _ =>
      simp only [Demand.answer] at resolved
      split at resolved
      · cases resolved; cases unused
      · cases resolved

theorem resolve_of_error {problem : Problem} (resolved : table.resolve token next = .error problem)
    (complete : problem.fault ≠ .missingArgument) (other : Option Text) :
    table.resolve token other = .error problem := by
  obtain ⟨demand, lawful, answers⟩ := resolve_demand table token
  rw [answers] at resolved ⊢
  cases demand with
  | settled outcome =>
      cases outcome with
      | error _ => exact resolved
      | ok _ => cases resolved
  | awaits _ _ _ _ =>
      simp only [Demand.answer] at resolved
      split at resolved
      · cases resolved
      · cases resolved
        exact absurd lawful.2 complete

end Resolve

end Table

end CommandLine
