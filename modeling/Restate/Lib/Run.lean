import Mathlib.Data.List.Basic
import Mathlib.Data.List.Induction

/-! Runs of a partial step function folded over a list of inputs: an invariant indexed by the
number of steps taken holds at the end of every run that does not fail; and a partial map that
succeeds on every input. -/

namespace List

theorem foldlM_option_invariant {α β : Type} {f : β → α → Option β} (I : Nat → β → Prop)
    (step : ∀ k b a next, I k b → f b a = some next → I (k + 1) next) :
    ∀ (inputs : List α) {k : Nat} {start final : β}, I k start →
      inputs.foldlM f start = some final → I (k + inputs.length) final
  | [], _, _, _, holds, ran => by
    cases ran
    exact holds
  | input :: inputs, k, start, final, holds, ran => by
    simp only [foldlM_cons] at ran
    obtain ⟨next, first, rest⟩ := Option.bind_eq_some_iff.mp ran
    have atEnd := foldlM_option_invariant I step inputs (step k start input next holds first) rest
    rwa [length_cons, Nat.add_comm inputs.length 1, ← Nat.add_assoc]

theorem foldlM_option_history {α β : Type} {f : β → α → Option β} (I : List α → β → Prop) {start : β}
    (initial : I [] start) (step : ∀ inputs b a next, I inputs b → f b a = some next → I (inputs ++ [a]) next) :
    ∀ (inputs : List α) {final : β}, inputs.foldlM f start = some final → I inputs final := by
  intro inputs
  induction inputs using List.reverseRecOn with
  | nil =>
    intro final ran
    cases ran
    exact initial
  | append_singleton inputs input ih =>
    intro final ran
    rw [foldlM_append] at ran
    obtain ⟨before, first, last⟩ := Option.bind_eq_some_iff.mp ran
    exact step inputs before input final (ih first) (by simpa using last)

theorem foldlM_except_ok {ε α β : Type} {f : β → α → Except ε β} (I : List α → β → Prop) {start : β}
    (inputs : List α) (initial : I [] start)
    (step : ∀ taken b a, taken ++ [a] <+: inputs → I taken b → ∃ next, f b a = .ok next ∧ I (taken ++ [a]) next) :
    ∃ final, inputs.foldlM f start = .ok final ∧ I inputs final := by
  suffices every : ∀ taken, taken <+: inputs → ∃ final, taken.foldlM f start = .ok final ∧ I taken final from
    every inputs (prefix_refl inputs)
  intro taken
  induction taken using List.reverseRecOn with
  | nil => exact fun _ => ⟨start, rfl, initial⟩
  | append_singleton taken input ih =>
    intro isPrefix
    obtain ⟨before, ran, holds⟩ := ih ((prefix_append taken [input]).trans isPrefix)
    obtain ⟨next, stepped, kept⟩ := step taken before input isPrefix holds
    refine ⟨next, ?_, kept⟩
    rw [foldlM_append, ran]
    show f before input >>= pure = .ok next
    rw [stepped]
    rfl

theorem mapM_option_eq_some_map {α β : Type} {f : α → Option β} {g : α → β} :
    ∀ {inputs : List α}, (∀ input ∈ inputs, f input = some (g input)) → inputs.mapM f = some (inputs.map g)
  | [], _ => rfl
  | input :: inputs, succeeds => by
    rw [mapM_cons, succeeds input mem_cons_self,
      mapM_option_eq_some_map fun other member => succeeds other (mem_cons_of_mem _ member)]
    rfl

end List

namespace Option

theorem or_some_getD {α : Type} (first : Option α) (second fallback : α) :
    (first.or (some second)).getD fallback = first.getD second := by
  cases first <;> rfl

theorem getD_or_of_isSome {α : Type} (first second : Option α) (present : second.isSome) (fallback : α) :
    some ((first.or second).getD fallback) = first.or second := by
  cases first with
  | some value => rfl
  | none =>
    obtain ⟨value, rfl⟩ := Option.isSome_iff_exists.mp present
    rfl

end Option
