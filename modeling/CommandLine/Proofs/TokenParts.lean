import CommandLine.Proofs.Classification

namespace CommandLine.Token

inductive Kind where
  | terminator
  | long
  | short
  | operand
  deriving DecidableEq, Repr

def kind : Token → Kind
  | terminator _ => .terminator
  | long _ => .long
  | short _ => .short
  | operand _ => .operand

def Kind.Fits : Kind → Text → Prop
  | terminator, text => text = [.scalar '-', .scalar '-']
  | long, text => [.scalar '-', .scalar '-'] <+: text ∧ 2 < text.length
  | short, text => [.scalar '-'] <+: text ∧ 2 ≤ text.length ∧ text[1]? ≠ some (.scalar '-')
  | operand, text => Plain text

def longText (name : Text) : Option Text → Text
  | none => '-' :: '-' :: name
  | some value => .scalar '-' :: .scalar '-' :: (name ++ .scalar '=' :: value)

section Shapes

variable {text : Text} {token : Token}

theorem fits_of_shape (shape : Shape text token) : token.kind.Fits text := by
  cases shape with
  | terminator => rfl
  | longBare name nonempty _ =>
      have letters := List.length_pos_iff.mpr nonempty
      refine ⟨⟨name, rfl⟩, ?_⟩
      simp only [List.length_cons]
      omega
  | longValued name value _ =>
      refine ⟨⟨name ++ .scalar '=' :: value, rfl⟩, ?_⟩
      simp only [List.length_cons, List.length_append]
      omega
  | cluster c rest single =>
      refine ⟨⟨c :: rest, rfl⟩, ?_, by simpa using single⟩
      simp only [List.length_cons]
      omega
  | operand _ plain => exact plain

theorem exists_shape_of_fits {kind : Kind} (fits : kind.Fits text) :
    ∃ token, Shape text token ∧ token.kind = kind := by
  cases kind with
  | terminator =>
      subst fits
      exact ⟨_, .terminator, rfl⟩
  | long =>
      obtain ⟨⟨rest, rfl⟩, longer⟩ := fits
      have nonempty : rest ≠ [] := by
        rintro rfl
        simp at longer
      by_cases equals : .scalar '=' ∈ rest
      · obtain ⟨name, value, rfl, noEquals⟩ := List.eq_append_cons_of_mem equals
        exact ⟨_, .longValued name value noEquals, rfl⟩
      · exact ⟨_, .longBare rest nonempty equals, rfl⟩
  | short =>
      obtain ⟨⟨rest, rfl⟩, longer, second⟩ := fits
      cases rest with
      | nil => simp at longer
      | cons c rest => exact ⟨_, .cluster c rest (by simpa using second), rfl⟩
  | operand => exact ⟨_, .operand text fits, rfl⟩

theorem kind_classify_iff {kind : Kind} : (classify text).kind = kind ↔ kind.Fits text := by
  constructor
  · rintro rfl
    exact fits_of_shape (shape_classify text)
  · intro fits
    obtain ⟨token, shape, same⟩ := exists_shape_of_fits fits
    rw [classify_of_shape shape]
    exact same

theorem matchWhole_token (text : Text) : Rule.token.matchWhole text = .upTo text.length := by
  obtain ⟨captures, applied, _⟩ := apply_of_shape (shape_classify text)
  rw [Rule.matchWhole, applied]
  exact if_pos rfl

/-- The parts of a token are parts of the text, in their order, and a token of another kind has no such parts. -/
structure Parts (written : Text) (token : Token) : Prop where
  text : token.text = written
  long : token.kind = .long →
    .scalar '=' ∉ token.asLong.name ∧ written = longText token.asLong.name token.asLong.value
  short : token.kind = .short → written = .scalar '-' :: token.asShort.cluster
  noName : token.kind ≠ .long → token.asLong.name = [] ∧ token.asLong.value = none
  noCluster : token.kind ≠ .short → token.asShort.cluster = []

theorem asLong_of_kind_ne (other : token.kind ≠ .long) : token.asLong.name = [] ∧ token.asLong.value = none := by
  cases token with
  | long _ => exact absurd rfl other
  | _ => exact ⟨rfl, rfl⟩

theorem asShort_of_kind_ne (other : token.kind ≠ .short) : token.asShort.cluster = [] := by
  cases token with
  | short _ => exact absurd rfl other
  | _ => rfl

theorem parts_of_shape (shape : Shape text token) : token.Parts text where
  text := text_of_shape shape
  long isLong := by
    cases shape with
    | longBare name _ noEquals => exact ⟨noEquals, rfl⟩
    | longValued name value noEquals => exact ⟨noEquals, rfl⟩
    | _ => cases isLong
  short isShort := by
    cases shape with
    | cluster c rest _ => rfl
    | _ => cases isShort
  noName := asLong_of_kind_ne
  noCluster := asShort_of_kind_ne

theorem shape_longText {name : Text} {value : Option Text} (noEquals : .scalar '=' ∉ name)
    (something : ¬ (name = [] ∧ value = none)) :
    Shape (longText name value) (.long ⟨longText name value, name, value⟩) := by
  cases value with
  | none => exact .longBare name (by simpa using something) noEquals
  | some value => exact .longValued name value noEquals

theorem shape_cluster {cluster : Text} (nonempty : cluster ≠ []) (single : cluster.head? ≠ some (.scalar '-')) :
    Shape ('-' :: cluster) (.short ⟨'-' :: cluster, cluster⟩) := by
  obtain ⟨c, rest, rfl⟩ := List.exists_cons_of_ne_nil nonempty
  exact .cluster c rest (by simpa using single)

end Shapes

/-- Classifying loses nothing. Each text is read whole, has the one kind that its beginning tells, and is written again
by its parts; and each name, with or without a value, and each cluster is found again in what is written with it. -/
theorem classify_lossless :
    (∀ text : Text,
      Rule.token.matchWhole text = .upTo text.length ∧
        (∀ kind : Kind, (classify text).kind = kind ↔ kind.Fits text) ∧ (classify text).Parts text) ∧
      (∀ (name : Text) (value : Option Text), .scalar '=' ∉ name → ¬ (name = [] ∧ value = none) →
        classify (longText name value) = .long ⟨longText name value, name, value⟩) ∧
      ∀ cluster : Text, cluster ≠ [] → cluster.head? ≠ some (.scalar '-') →
        classify ('-' :: cluster) = .short ⟨'-' :: cluster, cluster⟩ := by
  refine ⟨?_, ?_, ?_⟩
  · intro text
    exact ⟨matchWhole_token text, fun kind => kind_classify_iff, parts_of_shape (shape_classify text)⟩
  · intro name value noEquals something
    exact classify_of_shape (shape_longText noEquals something)
  · intro cluster nonempty single
    exact classify_of_shape (shape_cluster nonempty single)

theorem classify_lossless_sample :
    classify "--out=a=b".toText = .long ⟨"--out=a=b".toText, "out".toText, some "a=b".toText⟩ ∧
      classify "--=".toText = .long ⟨"--=".toText, [], some []⟩ ∧
      classify "-x-\n".toText = .short ⟨"-x-\n".toText, "x-\n".toText⟩ := by
  obtain ⟨_, long, short⟩ := classify_lossless
  refine ⟨?_, ?_, ?_⟩
  · exact long "out".toText (some "a=b".toText) (by decide) (by decide)
  · exact long [] (some []) (by decide) (by decide)
  · exact short "x-\n".toText (by decide) (by decide)

end CommandLine.Token
