import Mathlib.Data.List.Infix
import Mathlib.Tactic.Common

/-!
# Parsers of the front of an input

A front parser takes the longest sentence it knows from the front of its
input and gives what the sentence means together with the rest.  When it
accepts exactly the inputs with a sentence at their front, no sentence is the
beginning of another one, and an input that was cut inside of its sentence is
refused.
-/

namespace ByteHub.Library

variable {Symbol Meaning : Type*}

/-- The parser accepts exactly the inputs with a sentence at the front, and
leaves what is behind it. -/
def AcceptsFront
    (parse : List Symbol → Option (Meaning × List Symbol))
    (Sentence : List Symbol → Meaning → Prop) : Prop :=
  ∀ input meaning rest,
    parse input = some (meaning, rest) ↔
      ∃ sentence, Sentence sentence meaning ∧ input = sentence ++ rest

namespace AcceptsFront

variable {parse : List Symbol → Option (Meaning × List Symbol)}
variable {Sentence : List Symbol → Meaning → Prop}
variable (accepts : AcceptsFront parse Sentence)
variable {sentence other rest more : List Symbol}
variable {meaning meant : Meaning}

include accepts

theorem parse_append
    (isSentence : Sentence sentence meaning) (rest : List Symbol) :
    parse (sentence ++ rest) = some (meaning, rest) :=
  (accepts _ _ _).2 ⟨sentence, isSentence, rfl⟩

/-- An input has one sentence at its front. -/
theorem unique
    (first : Sentence sentence meaning) (second : Sentence other meant)
    (same : sentence ++ rest = other ++ more) :
    sentence = other ∧ meaning = meant := by
  have here := accepts.parse_append first rest
  rw [same, accepts.parse_append second more] at here
  cases here
  exact ⟨List.append_cancel_right same, rfl⟩

/-- An input that ends inside of its sentence is refused. -/
theorem parse_cut
    (isSentence : Sentence sentence meaning)
    (begins : other <+: sentence) (cut : other.length < sentence.length) :
    parse other = none := by
  by_contra accepted
  rcases Option.ne_none_iff_exists'.1 accepted with ⟨⟨meant, rest⟩, parsed⟩
  rcases (accepts _ _ _).1 parsed with ⟨shorter, isShorter, rfl⟩
  rcases begins with ⟨missing, rfl⟩
  have same :
      shorter ++ rest ++ missing ++ [] = shorter ++ (rest ++ missing) := by
    simp
  have whole := (accepts.unique isSentence isShorter same).1
  have size := congrArg List.length whole
  simp only [List.length_append] at size cut
  omega

/-- Of an input that was cut, the parser sees the sentence or nothing. -/
theorem parse_take
    (isSentence : Sentence sentence meaning) (rest : List Symbol)
    (seen : ℕ) :
    parse ((sentence ++ rest).take seen) =
      if sentence.length ≤ seen then
        some (meaning, rest.take (seen - sentence.length))
      else none := by
  rw [List.take_append]
  split
  · next reaches =>
    rw [List.take_of_length_le reaches]
    exact accepts.parse_append isSentence _
  · next short =>
    have inside : seen < sentence.length := Nat.lt_of_not_le short
    rw [Nat.sub_eq_zero_of_le (Nat.le_of_lt inside), List.take_zero,
      List.append_nil]
    apply accepts.parse_cut isSentence (List.take_prefix _ _)
    rw [List.length_take]
    omega

end AcceptsFront

end ByteHub.Library
