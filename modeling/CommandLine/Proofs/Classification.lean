import CommandLine.Token
import Mathlib.Data.List.TakeWhile

namespace CommandLine.Token

open Pattern

attribute [simp] Pattern.apply

section Combinators

variable {first second body : Pattern} {rule : Rule} {text : Text} {front back : Match}

theorem apply_literal (expected rest : Text) :
    (literal expected).apply (expected ++ rest) = some ⟨expected, rest, []⟩ := by
  simp

theorem apply_literal_none {expected : Text} (other : ¬ expected <+: text) :
    (literal expected).apply text = none := by
  simp [other]

theorem apply_followedBy (begins : first.apply text = some front)
    (ends : second.apply front.rest = some back) :
    (followedBy first second).apply text =
      some ⟨front.taken ++ back.taken, back.rest, front.captures ++ back.captures⟩ := by
  simp [begins, ends]

theorem apply_followedBy_none (stops : first.apply text = none) :
    (followedBy first second).apply text = none := by
  simp [stops]

theorem apply_followedBy_none_right (begins : first.apply text = some front)
    (stops : second.apply front.rest = none) : (followedBy first second).apply text = none := by
  simp [begins, stops]

theorem apply_orElse (begins : first.apply text = some front) :
    (orElse first second).apply text = some front := by
  simp [begins]

theorem apply_orElse_right (stops : first.apply text = none) :
    (orElse first second).apply text = second.apply text := by
  simp [stops]

theorem apply_named (found : body.apply text = some front) :
    (named rule body).apply text = some { front with captures := ⟨rule, front.taken⟩ :: front.captures } := by
  simp [found]

theorem apply_named_none (stops : body.apply text = none) : (named rule body).apply text = none := by
  simp [stops]

end Combinators

theorem any_takes (text : Text) : text.takeWhile CharClass.any.admits = text := by
  simp [List.takeWhile_eq_self_iff, CharClass.admits]

theorem any_drops (text : Text) : text.dropWhile CharClass.any.admits = [] := by
  simp [List.dropWhile_eq_nil_iff, CharClass.admits]

theorem except_admits {excluded : CodePoint} {text : Text} (absent : excluded ∉ text) :
    ∀ c ∈ text, (CharClass.except excluded).admits c = true := by
  intro c member
  simp only [CharClass.admits, ne_eq, decide_eq_true_eq]
  rintro rfl
  exact absent member

theorem apply_anything {atLeast : Nat} {text : Text} (enough : atLeast ≤ text.length) :
    (Rule.anything atLeast).apply text = some ⟨text, [], []⟩ := by
  simp only [Rule.anything, apply, any_takes, any_drops, enough, if_true]

theorem apply_anything_none {atLeast : Nat} {text : Text} (short : text.length < atLeast) :
    (Rule.anything atLeast).apply text = none := by
  simp only [Rule.anything, apply, any_takes, Nat.not_le.mpr short, if_false]

theorem apply_operand (text : Text) :
    Rule.operand.pattern.apply text = some ⟨text, [], [⟨.operand, text⟩]⟩ :=
  apply_named (apply_anything (Nat.zero_le _))

theorem apply_finish_cons (c : CodePoint) (rest : Text) : Rule.finish.pattern.apply (c :: rest) = none := by
  apply apply_named_none
  simp [Rule.body, Rule.finishBody, any_takes]

theorem apply_terminator_none {text : Text} (other : text ≠ [.scalar '-', .scalar '-']) :
    Rule.terminator.pattern.apply text = none := by
  apply apply_named_none
  by_cases dashes : [.scalar '-', .scalar '-'] <+: text
  · obtain ⟨rest, rfl⟩ := dashes
    cases rest with
    | nil => exact absurd rfl other
    | cons c rest =>
        exact apply_followedBy_none_right (apply_literal ['-', '-'] (c :: rest)) (apply_finish_cons c rest)
  · exact apply_followedBy_none (apply_literal_none dashes)

theorem apply_longName {name : Text} (noEquals : .scalar '=' ∉ name) :
    Rule.longName.pattern.apply name = some ⟨name, [], [⟨.longName, name⟩]⟩ := by
  have taken := List.takeWhile_eq_self_iff.mpr (except_admits noEquals)
  have dropped := List.dropWhile_eq_nil_iff.mpr (except_admits noEquals)
  simp [Rule.pattern, Rule.body, Rule.longNameBody, taken, dropped]

theorem apply_longName_equals {name : Text} (noEquals : .scalar '=' ∉ name) (value : Text) :
    Rule.longName.pattern.apply (name ++ .scalar '=' :: value) =
      some ⟨name, '=' :: value, [⟨.longName, name⟩]⟩ := by
  have stop : (CharClass.except '=').admits '=' = false := by simp [CharClass.admits]
  have admitted := except_admits noEquals
  simp [Rule.pattern, Rule.body, Rule.longNameBody, List.takeWhile_append_of_pos admitted,
    List.dropWhile_append_of_pos admitted, stop]

theorem apply_longValue_nil :
    Rule.longValue.pattern.apply [] = some ⟨[], [], [⟨.longValue, []⟩, ⟨.nothing, []⟩]⟩ := rfl

theorem apply_assignment (value : Text) :
    Rule.assignment.pattern.apply ('=' :: value) =
      some ⟨'=' :: value, [], [⟨.assignment, '=' :: value⟩]⟩ :=
  apply_named (apply_followedBy (apply_literal ['='] value) (apply_anything (Nat.zero_le _)))

theorem apply_longValue_equals (value : Text) :
    Rule.longValue.pattern.apply ('=' :: value) =
      some ⟨'=' :: value, [], [⟨.longValue, '=' :: value⟩, ⟨.assignment, '=' :: value⟩]⟩ :=
  apply_named (apply_orElse (apply_assignment value))

theorem apply_longOption_bare {name : Text} (noEquals : .scalar '=' ∉ name) :
    Rule.longOption.pattern.apply ('-' :: '-' :: name) =
      some ⟨'-' :: '-' :: name, [], [⟨.longOption, '-' :: '-' :: name⟩, ⟨.longName, name⟩,
        ⟨.longValue, []⟩, ⟨.nothing, []⟩]⟩ := by
  have parts := apply_followedBy (apply_longName noEquals) apply_longValue_nil
  rw [List.append_nil] at parts
  exact apply_named (apply_followedBy (apply_literal ['-', '-'] name) parts)

theorem apply_longOption_valued {name : Text} (noEquals : .scalar '=' ∉ name) (value : Text) :
    Rule.longOption.pattern.apply (.scalar '-' :: .scalar '-' :: (name ++ .scalar '=' :: value)) =
      some ⟨.scalar '-' :: .scalar '-' :: (name ++ .scalar '=' :: value), [],
        [⟨.longOption, .scalar '-' :: .scalar '-' :: (name ++ .scalar '=' :: value)⟩, ⟨.longName, name⟩,
          ⟨.longValue, .scalar '=' :: value⟩, ⟨.assignment, .scalar '=' :: value⟩]⟩ := by
  have parts := apply_followedBy (apply_longName_equals noEquals value) (apply_longValue_equals value)
  exact apply_named (apply_followedBy (apply_literal [.scalar '-', .scalar '-'] (name ++ .scalar '=' :: value)) parts)

theorem apply_longOption_none {text : Text} (other : ¬ [.scalar '-', .scalar '-'] <+: text) :
    Rule.longOption.pattern.apply text = none :=
  apply_named_none (apply_followedBy_none (apply_literal_none other))

theorem apply_shortCluster (c : CodePoint) (rest : Text) :
    Rule.shortCluster.pattern.apply ('-' :: c :: rest) =
      some ⟨'-' :: c :: rest, [], [⟨.shortCluster, '-' :: c :: rest⟩]⟩ := by
  have parts : (Rule.anything 1).apply (c :: rest) = some ⟨c :: rest, [], []⟩ :=
    apply_anything (by simp)
  exact apply_named (apply_followedBy (apply_literal ['-'] (c :: rest)) parts)

/-- Texts that no rule but the last one reads: the empty text, one dash, and what does not begin with a dash. -/
def Plain (text : Text) : Prop := text = [] ∨ text = [.scalar '-'] ∨ text.head? ≠ some (.scalar '-')

instance (text : Text) : Decidable (Plain text) := inferInstanceAs (Decidable (_ ∨ _ ∨ _))

theorem Plain.not_dashes {text : Text} (plain : Plain text) : ¬ [.scalar '-', .scalar '-'] <+: text := by
  rintro ⟨rest, rfl⟩
  simp [Plain] at plain

theorem apply_shortCluster_none {text : Text} (plain : Plain text) :
    Rule.shortCluster.pattern.apply text = none := by
  apply apply_named_none
  by_cases dash : [.scalar '-'] <+: text
  · obtain ⟨rest, rfl⟩ := dash
    have alone : rest = [] := by simpa [Plain] using plain
    subst alone
    exact apply_followedBy_none_right (apply_literal ['-'] []) (apply_anything_none (by simp))
  · exact apply_followedBy_none (apply_literal_none dash)

inductive Shape : Text → Token → Prop where
  | terminator : Shape ['-', '-'] (.terminator ['-', '-'])
  | longBare (name : Text) (nonempty : name ≠ []) (noEquals : .scalar '=' ∉ name) :
      Shape ('-' :: '-' :: name) (.long ⟨'-' :: '-' :: name, name, none⟩)
  | longValued (name value : Text) (noEquals : .scalar '=' ∉ name) :
      Shape (.scalar '-' :: .scalar '-' :: (name ++ .scalar '=' :: value))
        (.long ⟨.scalar '-' :: .scalar '-' :: (name ++ .scalar '=' :: value), name, some value⟩)
  | cluster (c : CodePoint) (rest : Text) (single : c ≠ '-') :
      Shape ('-' :: c :: rest) (.short ⟨'-' :: c :: rest, c :: rest⟩)
  | operand (text : Text) (plain : Plain text) : Shape text (.operand text)

theorem exists_shape (text : Text) : ∃ token, Shape text token := by
  rcases text with _ | ⟨a, rest⟩
  · exact ⟨_, .operand [] (Or.inl rfl)⟩
  by_cases dash : a = '-'
  · subst dash
    rcases rest with _ | ⟨b, rest⟩
    · exact ⟨_, .operand ['-'] (Or.inr (Or.inl rfl))⟩
    by_cases second : b = '-'
    · subst second
      by_cases equals : .scalar '=' ∈ rest
      · obtain ⟨name, value, rfl, noEquals⟩ := List.eq_append_cons_of_mem equals
        exact ⟨_, .longValued name value noEquals⟩
      · rcases rest with _ | ⟨c, name⟩
        · exact ⟨_, .terminator⟩
        · exact ⟨_, .longBare (c :: name) (List.cons_ne_nil c name) equals⟩
    · exact ⟨_, .cluster b rest second⟩
  · exact ⟨_, .operand (a :: rest) (Or.inr (Or.inr (by simpa using dash)))⟩

theorem apply_token_longOption {text : Text} {found : Match} (other : text ≠ [.scalar '-', .scalar '-'])
    (applied : Rule.longOption.pattern.apply text = some found) :
    Rule.token.body.apply text = some found :=
  (apply_orElse_right (apply_terminator_none other)).trans (apply_orElse applied)

theorem apply_token_short {text : Text} (other : ¬ [.scalar '-', .scalar '-'] <+: text) :
    Rule.token.body.apply text =
      (orElse Rule.shortCluster.pattern Rule.operand.pattern).apply text := by
  have notEnd : text ≠ [.scalar '-', .scalar '-'] := by
    rintro rfl
    exact other (List.prefix_refl _)
  exact (apply_orElse_right (apply_terminator_none notEnd)).trans
    (apply_orElse_right (apply_longOption_none other))

theorem apply_of_shape {text : Text} {token : Token} (shape : Shape text token) :
    ∃ captures, Rule.token.pattern.apply text = some ⟨text, [], ⟨.token, text⟩ :: captures⟩ ∧
      ofCaptures text (⟨.token, text⟩ :: captures) = token := by
  cases shape with
  | terminator => exact ⟨_, rfl, rfl⟩
  | longBare name nonempty noEquals =>
      have found := apply_token_longOption (by simpa using nonempty) (apply_longOption_bare noEquals)
      exact ⟨_, apply_named found, rfl⟩
  | longValued name value noEquals =>
      have found := apply_token_longOption (by simp) (apply_longOption_valued noEquals value)
      exact ⟨_, apply_named found, rfl⟩
  | cluster c rest single =>
      have other : ¬ [.scalar '-', .scalar '-'] <+: .scalar '-' :: c :: rest := by simpa using Ne.symm single
      have found := (apply_token_short other).trans (apply_orElse (apply_shortCluster c rest))
      exact ⟨_, apply_named found, rfl⟩
  | operand _ plain =>
      have found := (apply_token_short plain.not_dashes).trans
        ((apply_orElse_right (apply_shortCluster_none plain)).trans (apply_operand text))
      exact ⟨_, apply_named found, rfl⟩

theorem classify_of_shape {text : Text} {token : Token} (shape : Shape text token) :
    classify text = token := by
  obtain ⟨captures, applied, captured⟩ := apply_of_shape shape
  rw [classify, applied]
  exact captured

theorem shape_classify (text : Text) : Shape text (classify text) := by
  obtain ⟨token, shape⟩ := exists_shape text
  rw [classify_of_shape shape]
  exact shape

theorem text_of_shape {text : Text} {token : Token} (shape : Shape text token) : token.text = text := by
  cases shape <;> rfl

theorem text_classify (text : Text) : (classify text).text = text := text_of_shape (shape_classify text)

end CommandLine.Token
