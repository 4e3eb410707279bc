/-!
Loops. A loop asks its guard before each turn, and a turn either goes on in another state or leaves the loop. A loop
whose turns keep an invariant and lower a measure is left, after no more turns than the measure allows.
-/
namespace CommandLine

inductive Turn (σ ε : Type) where
  | goesOn (there : σ)
  | leaves (result : ε)

/-- The turn goes on in a state with one property, or leaves with a result that has the other. -/
def Turn.Comes {σ ε : Type} (kept : σ → Prop) (post : ε → Prop) : Turn σ ε → Prop
  | goesOn there => kept there
  | leaves result => post result

theorem Turn.Comes.imp {σ ε : Type} {kept also : σ → Prop} {post result : ε → Prop} {turn : Turn σ ε}
    (comes : turn.Comes kept post) (going : ∀ there, kept there → also there)
    (leaving : ∀ exit, post exit → result exit) : turn.Comes also result := by
  cases turn with
  | goesOn there => exact going there comes
  | leaves exit => exact leaving exit comes

structure Loop (σ ε : Type) where
  guard : σ → Prop
  turn : σ → Turn σ ε
  close : σ → ε

namespace Loop

variable {σ ε : Type} {loop : Loop σ ε} {start here there : σ} {turns : Nat} {result : ε}

inductive Reaches (loop : Loop σ ε) (start : σ) : Nat → σ → Prop where
  | start : Reaches loop start 0 start
  | turn {turns : Nat} {here there : σ} (reached : Reaches loop start turns here) (inside : loop.guard here)
      (next : loop.turn here = .goesOn there) : Reaches loop start (turns + 1) there

inductive Leaves (loop : Loop σ ε) (start : σ) : Nat → ε → Prop where
  | guard {turns : Nat} {here : σ} (reached : Reaches loop start turns here) (outside : ¬ loop.guard here) :
      Leaves loop start turns (loop.close here)
  | turn {turns : Nat} {here : σ} {result : ε} (reached : Reaches loop start turns here) (inside : loop.guard here)
      (left : loop.turn here = .leaves result) : Leaves loop start (turns + 1) result

/-- Every turn keeps the invariant and lowers the measure, or leaves the loop with the property that is wanted of its
result. -/
structure Sound (loop : Loop σ ε) (start : σ) (inv : σ → Prop) (measure : σ → Nat) (post : ε → Prop) : Prop where
  first : inv start
  turns : ∀ here, inv here → loop.guard here →
    (loop.turn here).Comes (fun there => inv there ∧ measure there < measure here) post
  positive : ∀ here, inv here → loop.guard here → 0 < measure here
  closes : ∀ here, inv here → ¬ loop.guard here → post (loop.close here)

namespace Sound

variable {inv : σ → Prop} {measure : σ → Nat} {post : ε → Prop}

theorem kept (sound : Sound loop start inv measure post) (holds : inv here) (inside : loop.guard here)
    (next : loop.turn here = .goesOn there) : inv there ∧ measure there < measure here := by
  have comes := sound.turns here holds inside
  rw [next] at comes
  exact comes

theorem reached (sound : Sound loop start inv measure post) (reaches : loop.Reaches start turns here) :
    inv here ∧ turns + measure here ≤ measure start := by
  induction reaches with
  | start => exact ⟨sound.first, by omega⟩
  | turn _ inside next ih =>
      rcases sound.kept ih.1 inside next with ⟨holds, lower⟩
      exact ⟨holds, by omega⟩

theorem turns_lt (sound : Sound loop start inv measure post) (reaches : loop.Reaches start turns here)
    (inside : loop.guard here) : turns < measure start := by
  rcases sound.reached reaches with ⟨holds, spent⟩
  have left := sound.positive here holds inside
  omega

theorem left (sound : Sound loop start inv measure post) (leaves : loop.Leaves start turns result) :
    post result ∧ turns ≤ measure start := by
  cases leaves with
  | guard reached outside =>
      rcases sound.reached reached with ⟨holds, spent⟩
      exact ⟨sound.closes _ holds outside, by omega⟩
  | turn reached inside left =>
      have comes := sound.turns _ (sound.reached reached).1 inside
      rw [left] at comes
      exact ⟨comes, sound.turns_lt reached inside⟩

/-- From each state that is reached, by induction on the measure left there, the loop is left at last. -/
theorem leaves_from (sound : Sound loop start inv measure post) (reaches : loop.Reaches start turns here) :
    ∃ turns result, loop.Leaves start turns result := by
  classical
  induction rest : measure here using Nat.strongRecOn generalizing turns here with
  | ind size ih =>
      by_cases inside : loop.guard here
      · cases next : loop.turn here with
        | leaves result => exact ⟨_, _, .turn reaches inside next⟩
        | goesOn there =>
            have lower := (sound.kept (sound.reached reaches).1 inside next).2
            exact ih (measure there) (rest ▸ lower) (.turn reaches inside next) rfl
      · exact ⟨_, _, .guard reaches inside⟩

theorem exists_leaves (sound : Sound loop start inv measure post) :
    ∃ turns result, loop.Leaves start turns result := sound.leaves_from .start

end Sound

end Loop

end CommandLine
