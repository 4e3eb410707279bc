import CommandLine.Proofs.Classification

namespace CommandLine.Token

open Pattern

/-- How far each rule reaches in a text. A name goes up to the first equals sign, or else to the end. -/
def Rule.extent (text : Text) : Rule → Reach
  | .token | .operand => .upTo text.length
  | .terminator => if text = [.scalar '-', .scalar '-'] then .upTo 2 else .noMatch
  | .longOption => if [.scalar '-', .scalar '-'] <+: text then .upTo text.length else .noMatch
  | .longName => .upTo (text.findIdx (· = .scalar '='))
  | .longValue => if [.scalar '='] <+: text then .upTo text.length else .upTo 0
  | .assignment => if [.scalar '='] <+: text then .upTo text.length else .noMatch
  | .nothing => .upTo 0
  | .shortCluster => if [.scalar '-'] <+: text ∧ 2 ≤ text.length then .upTo text.length else .noMatch
  | .finish => if text = [] then .upTo 0 else .noMatch

/-- A match takes a front part of the text and leaves the rest, by induction on the expression. -/
theorem apply_split {pattern : Pattern} {text : Text} {found : Match} (applied : pattern.apply text = some found) :
    found.taken ++ found.rest = text := by
  induction pattern generalizing text found with
  | literal expected =>
      by_cases begins : expected <+: text
      · obtain ⟨rest, rfl⟩ := begins
        rw [apply_literal] at applied
        cases applied
        rfl
      · rw [apply_literal_none begins] at applied
        cases applied
  | run admitted atLeast =>
      simp only [apply] at applied
      split at applied
      · cases applied
        exact List.takeWhile_append_dropWhile
      · cases applied
  | followedBy first second ihFirst ihSecond =>
      cases begins : first.apply text with
      | none =>
          rw [apply_followedBy_none begins] at applied
          cases applied
      | some front =>
          cases ends : second.apply front.rest with
          | none =>
              rw [apply_followedBy_none_right begins ends] at applied
              cases applied
          | some back =>
              rw [apply_followedBy begins ends] at applied
              cases applied
              rw [List.append_assoc, ihSecond ends, ihFirst begins]
  | orElse first second ihFirst ihSecond =>
      cases begins : first.apply text with
      | none =>
          rw [apply_orElse_right begins] at applied
          exact ihSecond applied
      | some front =>
          rw [apply_orElse begins] at applied
          cases applied
          exact ihFirst begins
  | notAhead body _ =>
      simp only [apply] at applied
      split at applied
      · cases applied
      · cases applied
        rfl
  | named rule body ih =>
      cases inner : body.apply text with
      | none =>
          rw [apply_named_none inner] at applied
          cases applied
      | some front =>
          rw [apply_named inner] at applied
          cases applied
          have split := ih inner
          exact split

section Fronts

variable {rule : Rule} {text : Text} {found : Match}

theorem matchFront_of_apply (applied : rule.pattern.apply text = some found) :
    rule.matchFront text = .upTo found.taken.length := by
  rw [Rule.matchFront, applied]

theorem matchFront_of_none (stops : rule.pattern.apply text = none) : rule.matchFront text = .noMatch := by
  rw [Rule.matchFront, stops]

theorem matchWhole_of_apply (applied : rule.pattern.apply text = some found) :
    rule.matchWhole text =
      if found.taken.length = text.length then .upTo found.taken.length else .incomplete := by
  have split := congrArg List.length (apply_split applied)
  have whole : found.rest = [] ↔ found.taken.length = text.length := by
    rw [List.length_append] at split
    rw [← List.length_eq_zero_iff]
    omega
  rw [Rule.matchWhole, applied]
  simp only [whole]

theorem matchWhole_of_none (stops : rule.pattern.apply text = none) : rule.matchWhole text = .noMatch := by
  rw [Rule.matchWhole, stops]

/-- A rule that takes a proper front part cannot take the whole text. -/
theorem incomplete_iff_front :
    rule.matchWhole text = .incomplete ↔ ∃ size < text.length, rule.matchFront text = .upTo size := by
  cases applied : rule.pattern.apply text with
  | none => simp [matchWhole_of_none applied, matchFront_of_none applied]
  | some found =>
      have fits : found.taken.length ≤ text.length := by
        rw [← apply_split applied, List.length_append]
        exact Nat.le_add_right _ _
      rw [matchWhole_of_apply applied, matchFront_of_apply applied]
      by_cases whole : found.taken.length = text.length
      · simp [whole]
      · have shorter : found.taken.length < text.length := Nat.lt_of_le_of_ne fits whole
        simp [whole, shorter]

theorem matchWhole_cases (rule : Rule) (text : Text) :
    rule.matchWhole text = .incomplete ∨ rule.matchWhole text = rule.matchFront text := by
  cases applied : rule.pattern.apply text with
  | none => exact .inr (by rw [matchWhole_of_none applied, matchFront_of_none applied])
  | some found =>
      rw [matchWhole_of_apply applied, matchFront_of_apply applied]
      by_cases whole : found.taken.length = text.length
      · exact .inr (if_pos whole)
      · exact .inl (if_neg whole)

end Fronts

section Rules

variable {text : Text}

theorem apply_assignment_none (other : ¬ [.scalar '='] <+: text) : Rule.assignment.pattern.apply text = none :=
  apply_named_none (apply_followedBy_none (apply_literal_none other))

theorem apply_nothing (text : Text) : Rule.nothing.pattern.apply text = some ⟨[], text, [⟨.nothing, []⟩]⟩ :=
  apply_named (apply_literal [] text)

theorem apply_longValue_other (other : ¬ [.scalar '='] <+: text) :
    Rule.longValue.pattern.apply text = some ⟨[], text, [⟨.longValue, []⟩, ⟨.nothing, []⟩]⟩ := by
  have body : Rule.longValue.body.apply text = some ⟨[], text, [⟨.nothing, []⟩]⟩ :=
    (apply_orElse_right (apply_assignment_none other)).trans (apply_nothing text)
  exact apply_named body

theorem matchFront_longOption (dashes : [.scalar '-', .scalar '-'] <+: text) :
    Rule.longOption.matchFront text = .upTo text.length := by
  obtain ⟨rest, rfl⟩ := dashes
  by_cases equals : .scalar '=' ∈ rest
  · obtain ⟨name, value, rfl, noEquals⟩ := List.eq_append_cons_of_mem equals
    exact matchFront_of_apply (apply_longOption_valued noEquals value)
  · exact matchFront_of_apply (apply_longOption_bare equals)

theorem findIdx_of_noEquals (noEquals : .scalar '=' ∉ text) : text.findIdx (· = .scalar '=') = text.length := by
  rw [List.findIdx_eq_length]
  intro c member
  simpa using ne_of_mem_of_not_mem member noEquals

theorem matchFront_longName (text : Text) : Rule.longName.matchFront text = .upTo (text.findIdx (· = .scalar '=')) := by
  by_cases equals : .scalar '=' ∈ text
  · obtain ⟨name, value, rfl, noEquals⟩ := List.eq_append_cons_of_mem equals
    have stop : (name ++ .scalar '=' :: value).findIdx (· = .scalar '=') = name.length := by
      simp [List.findIdx_append, List.findIdx_cons, findIdx_of_noEquals noEquals]
    rw [stop]
    exact matchFront_of_apply (apply_longName_equals noEquals value)
  · rw [findIdx_of_noEquals equals]
    exact matchFront_of_apply (apply_longName equals)

theorem matchFront_shortCluster (dash : [.scalar '-'] <+: text) (longer : 2 ≤ text.length) :
    Rule.shortCluster.matchFront text = .upTo text.length := by
  obtain ⟨rest, rfl⟩ := dash
  cases rest with
  | nil => simp at longer
  | cons c rest => exact matchFront_of_apply (apply_shortCluster c rest)

theorem plain_of_not_cluster (other : ¬ ([.scalar '-'] <+: text ∧ 2 ≤ text.length)) : Plain text := by
  cases text with
  | nil => exact .inl rfl
  | cons c rest =>
      cases rest with
      | nil =>
          by_cases dash : c = '-'
          · exact .inr (.inl (by rw [dash]))
          · exact .inr (.inr (by simpa using dash))
      | cons d rest =>
          refine .inr (.inr ?_)
          rintro dash
          cases dash
          exact other ⟨⟨d :: rest, rfl⟩, by simp⟩

theorem matchFront_eq_extent (rule : Rule) (text : Text) : rule.matchFront text = rule.extent text := by
  cases rule with
  | token =>
      obtain ⟨_, applied, _⟩ := apply_of_shape (shape_classify text)
      exact matchFront_of_apply applied
  | operand => exact matchFront_of_apply (apply_operand text)
  | nothing => exact matchFront_of_apply (apply_nothing text)
  | longName => exact matchFront_longName text
  | terminator =>
      rw [Rule.extent]
      split
      · next dashes =>
          rw [dashes]
          rfl
      · next other => exact matchFront_of_none (apply_terminator_none other)
  | longOption =>
      rw [Rule.extent]
      split
      · next dashes => exact matchFront_longOption dashes
      · next other => exact matchFront_of_none (apply_longOption_none other)
  | longValue =>
      rw [Rule.extent]
      split
      · next equals =>
          obtain ⟨value, rfl⟩ := equals
          exact matchFront_of_apply (apply_longValue_equals value)
      · next other => exact matchFront_of_apply (apply_longValue_other other)
  | assignment =>
      rw [Rule.extent]
      split
      · next equals =>
          obtain ⟨value, rfl⟩ := equals
          exact matchFront_of_apply (apply_assignment value)
      · next other => exact matchFront_of_none (apply_assignment_none other)
  | shortCluster =>
      rw [Rule.extent]
      split
      · next cluster => exact matchFront_shortCluster cluster.1 cluster.2
      · next other => exact matchFront_of_none (apply_shortCluster_none (plain_of_not_cluster other))
  | finish =>
      rw [Rule.extent]
      cases text with
      | nil => rfl
      | cons c rest => exact matchFront_of_none (apply_finish_cons c rest)

end Rules

inductive Rule.LeavesRest (text : Text) : Rule → Prop where
  | longName (equals : .scalar '=' ∈ text) : LeavesRest text .longName
  | longValue (nonempty : text ≠ []) (other : ¬ [.scalar '='] <+: text) : LeavesRest text .longValue
  | nothing (nonempty : text ≠ []) : LeavesRest text .nothing

section Rest

variable {text : Text} {size : Nat}

theorem extent_of_leavesRest {rule : Rule} (leaves : rule.LeavesRest text) :
    ∃ size < text.length, rule.extent text = .upTo size := by
  cases leaves with
  | longName equals => exact ⟨_, List.findIdx_lt_length.mpr ⟨.scalar '=', equals, by simp⟩, rfl⟩
  | longValue nonempty other => exact ⟨0, List.length_pos_iff.mpr nonempty, if_neg other⟩
  | nothing nonempty => exact ⟨0, List.length_pos_iff.mpr nonempty, rfl⟩

theorem not_shorter {texts : Prop} [Decidable texts] (whole : texts → size = text.length) {taken : Nat}
    (reaches : (if texts then Reach.upTo size else .noMatch) = .upTo taken) : ¬ taken < text.length := by
  split at reaches
  · next held =>
      cases reaches
      exact Nat.not_lt.mpr (whole held).ge
  · cases reaches

theorem leavesRest_of_extent {rule : Rule} (shorter : size < text.length) (reaches : rule.extent text = .upTo size) :
    rule.LeavesRest text := by
  cases rule with
  | longName =>
      cases reaches
      obtain ⟨c, member, equals⟩ := List.findIdx_lt_length.mp shorter
      exact .longName (of_decide_eq_true equals ▸ member)
  | longValue =>
      rw [Rule.extent] at reaches
      split at reaches
      · cases reaches
        exact absurd shorter (Nat.lt_irrefl _)
      · next other =>
          cases reaches
          exact .longValue (List.length_pos_iff.mp shorter) other
  | nothing =>
      cases reaches
      exact .nothing (List.length_pos_iff.mp shorter)
  | token | operand =>
      cases reaches
      exact absurd shorter (Nat.lt_irrefl _)
  | terminator => exact absurd shorter (not_shorter (fun dashes => by rw [dashes]; rfl) reaches)
  | finish => exact absurd shorter (not_shorter (fun empty => by rw [empty]; rfl) reaches)
  | longOption | assignment | shortCluster => exact absurd shorter (not_shorter (fun _ => rfl) reaches)

end Rest

/-- The language of each rule. It matches the texts that it is meant for and takes as much of them as it is meant to. It
is incomplete where it takes a proper front part, and otherwise whole and front match are the same; and no rule but
three is ever incomplete. -/
theorem rule_languages (rule : Rule) (text : Text) :
    rule.matchFront text = rule.extent text ∧
      (rule.matchWhole text = .incomplete ↔ ∃ size < text.length, rule.matchFront text = .upTo size) ∧
      (rule.matchWhole text = .incomplete ∨ rule.matchWhole text = rule.matchFront text) ∧
      (rule.matchWhole text = .incomplete ↔ rule.LeavesRest text) := by
  refine ⟨matchFront_eq_extent rule text, incomplete_iff_front, matchWhole_cases rule text, ?_⟩
  rw [incomplete_iff_front, matchFront_eq_extent]
  constructor
  · rintro ⟨size, shorter, reaches⟩
    exact leavesRest_of_extent shorter reaches
  · exact extent_of_leavesRest

example : Rule.longName.matchFront "a\n=b=".toText = .upTo 2 ∧ Rule.longName.matchWhole "a\n=b=".toText = .incomplete :=
  by decide

end CommandLine.Token
