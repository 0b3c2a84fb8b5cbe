import EvoRaster.Proofs.Outcome.Ensures
import EvoRaster.Variation.Rule

/-!
Contract: draws from a list of words that can run out, and the words that draws take from any source.

Owns:
- `Reliable`, a computation that answers as promised on every list of words or uses the list up;
- its rules, and the reliability of every draw;
- `Draw.bits_of_word` and `Draw.below_of_accepted`, by which one word answers a short draw;
- `Source.Takes`, the words that a source gives up in order, and `Advances`, a computation that only takes words;
- `Instr.Drawn`, the constants that two words can make.

The number of tries of a bounded draw is one more than the number of words. Each try takes a word, so it is
the words that end it.
-/

namespace EvoRaster

/-- On every list of words the computation answers a value as promised and leaves a list, or it fails because
the list is used up. -/
def Reliable {ε α : Type} (exhausted : ε) (action : ExceptT ε (StateM Source) α) (promise : α → Prop) :
    Prop :=
  ∀ words, Ensures action (.listed words)
    (fun value source => promise value ∧ ∃ rest, source = .listed rest)
    (fun cause source => cause = exhausted ∧ source = .listed [])

namespace Reliable

variable {ε ε' α β : Type} {exhausted : ε} {action : ExceptT ε (StateM Source) α} {promise : α → Prop}

theorem of_pure {value : α} (holds : promise value) : Reliable exhausted (pure value) promise :=
  fun words => Ensures.of_pure ⟨holds, words, rfl⟩

theorem bind {next : α → ExceptT ε (StateM Source) β} {result : β → Prop}
    (first : Reliable exhausted action promise)
    (rest : ∀ value, promise value → Reliable exhausted (next value) result) :
    Reliable exhausted (action >>= next) result := by
  intro words
  apply (first words).bind_of
  intro value source ended
  rcases ended with ⟨holds, remaining, rfl⟩
  exact rest value holds remaining

theorem mono {weaker : α → Prop} (reliable : Reliable exhausted action promise)
    (implied : ∀ value, promise value → weaker value) : Reliable exhausted action weaker :=
  fun words => (reliable words).mono (fun value _ ended => ⟨implied value ended.1, ended.2⟩)
    fun _ _ failed => failed

theorem adapt {change : ε → ε'} (reliable : Reliable exhausted action promise) :
    Reliable (change exhausted) (action.adapt change) promise := by
  intro words
  apply Ensures.adapt
  refine (reliable words).mono (fun _ _ ended => ended) ?_
  intro cause source ended
  rcases ended with ⟨rfl, empty⟩
  exact ⟨rfl, empty⟩

end Reliable

namespace Draw

/-- A draw that takes at least one word. -/
def Consumes {α : Type} (action : Draw α) : Prop :=
  ∀ words, Ensures action (.listed words)
    (fun _ source => ∃ rest, source = .listed rest ∧ rest.length < words.length)
    (fun cause source => cause = .outOfWords ∧ source = .listed [])

private theorem word_consumes : Consumes word := by
  intro words
  cases words with
  | nil => exact ⟨rfl, rfl⟩
  | cons first rest => exact ⟨rest, rfl, Nat.lt_succ_self _⟩

private theorem word_reliable : Reliable .outOfWords word fun _ => True := by
  intro words
  refine (word_consumes words).mono ?_ fun _ _ failed => failed
  intro value source ended
  rcases ended with ⟨rest, rfl, -⟩
  exact ⟨trivial, rest, rfl⟩

private theorem bits_consumes (count : Nat) : Consumes (bits count) := by
  intro words
  induction count using Nat.strongRecOn generalizing words with
  | ind count inductionHypothesis =>
      unfold bits
      split
      · exact (word_consumes words).bind_of fun drawn source consumed => Ensures.of_pure consumed
      · apply (word_consumes words).bind_of
        intro low source ended
        rcases ended with ⟨between, rfl, fewer⟩
        apply (inductionHypothesis (count - 32) (by omega) between).bind_of
        intro high source ended
        rcases ended with ⟨rest, rfl, fewest⟩
        exact Ensures.of_pure ⟨rest, rfl, Nat.lt_trans fewest fewer⟩

/-- With more tries than words, it is the words that run out. -/
private theorem belowWithin_reliable (bound width attempts : Nat) (words : List UInt32)
    (enough : words.length < attempts) :
    Ensures (belowWithin bound width attempts) (.listed words)
      (fun _ source => True ∧ ∃ rest, source = .listed rest)
      (fun cause source => cause = .outOfWords ∧ source = .listed []) := by
  induction attempts generalizing words with
  | zero => omega
  | succ attempts inductionHypothesis =>
      unfold belowWithin
      apply (bits_consumes width words).bind_of
      intro candidate source ended
      rcases ended with ⟨rest, rfl, fewer⟩
      by_cases accepted : candidate < bound
      · rw [dif_pos accepted]
        exact Ensures.of_pure ⟨trivial, rest, rfl⟩
      · rw [dif_neg accepted]
        exact inductionHypothesis rest (by omega)

theorem below_reliable {bound : Nat} (positive : 0 < bound) :
    Reliable .outOfWords (below bound) fun _ => True := by
  intro words
  unfold below
  rw [if_neg (by omega)]
  exact Ensures.of_get_bind (belowWithin_reliable bound _ _ words (Nat.lt_succ_self _))

theorem fraction_reliable :
    Reliable .outOfWords fraction fun value => ∃ first second, value = fractionOf first second := by
  refine word_reliable.bind fun first _ => word_reliable.bind fun second _ => ?_
  exact Reliable.of_pure ⟨first, second, rfl⟩

end Draw

/-! ## Draws with known words -/

section Known

variable {word : UInt32} (rest : List UInt32)

theorem Draw.bits_of_word {count : Nat} (short : count ≤ 32) :
    bits count (.listed (word :: rest)) = (.ok (word.toNat >>> (32 - count)), .listed rest) := by
  unfold bits
  rw [if_pos short]
  rfl

/-- A bounded draw that takes its first word. -/
theorem Draw.below_of_accepted {bound candidate : Nat} (short : bound.log2 + 1 ≤ 32)
    (drawn : word.toNat >>> (32 - (bound.log2 + 1)) = candidate) (accepted : candidate < bound) :
    below bound (.listed (word :: rest)) = (.ok ⟨candidate, accepted⟩, .listed rest) := by
  have positive : bound ≠ 0 := Nat.ne_zero_of_lt accepted
  subst drawn
  unfold below
  rw [if_neg positive]
  change belowWithin bound (bound.log2 + 1) (rest.length + 1 + 1) (.listed (word :: rest)) = _
  unfold belowWithin
  rw [bind_of_ok (Draw.bits_of_word rest short), dif_pos accepted]
  rfl

end Known

/-! ## Words that are taken -/

/-- The source gives these words in order, and what it leaves is `after`. -/
def Source.Takes (source : Source) : List UInt32 → Source → Prop
  | [], after => source = after
  | word :: rest, after => ∃ between, source.next = (some word, between) ∧ between.Takes rest after

theorem Source.Takes.append {source between after : Source} {taken more : List UInt32}
    (first : source.Takes taken between) (second : between.Takes more after) :
    source.Takes (taken ++ more) after := by
  induction taken generalizing source with
  | nil =>
      obtain rfl : source = between := first
      exact second
  | cons word rest inductionHypothesis =>
      obtain ⟨next, known, remaining⟩ := first
      exact ⟨next, known, inductionHypothesis remaining⟩

/-- When the computation succeeds, the source that it leaves is the old one without some words. -/
def Advances {ε α : Type} (action : ExceptT ε (StateM Source) α) : Prop :=
  ∀ source, Ensures action source (fun _ after => ∃ taken, source.Takes taken after) fun _ _ => True

namespace Advances

variable {ε ε' α β : Type} {action : ExceptT ε (StateM Source) α}

theorem of_pure (value : α) : Advances (pure value : ExceptT ε (StateM Source) α) :=
  fun _ => Ensures.of_pure ⟨[], rfl⟩

theorem bind {next : α → ExceptT ε (StateM Source) β} (first : Advances action)
    (rest : ∀ value, Advances (next value)) : Advances (action >>= next) := by
  intro source
  apply (first source).bind_of
  rintro value between ⟨taken, known⟩
  refine (rest value between).mono ?_ fun _ _ _ => trivial
  rintro result after ⟨more, known'⟩
  exact ⟨taken ++ more, known.append known'⟩

theorem adapt {change : ε → ε'} (advances : Advances action) : Advances (action.adapt change) :=
  fun source => Ensures.adapt (advances source)

end Advances

namespace Draw

theorem word_takes (source : Source) :
    Ensures word source (fun value after => source.Takes [value] after) fun _ _ => True := by
  rcases known : source.next with ⟨_ | value, after⟩
  · exact Ensures.of_failure (by unfold word; rw [known]) trivial
  · exact Ensures.of_success (by unfold word; rw [known]) ⟨after, known, rfl⟩

private theorem word_advances : Advances word :=
  fun source => (word_takes source).mono (fun value _ known => ⟨[value], known⟩) fun _ _ _ => trivial

private theorem bits_advances (count : Nat) : Advances (bits count) := by
  induction count using Nat.strongRecOn with
  | ind count inductionHypothesis =>
      unfold bits
      split
      · exact word_advances.bind fun _ => Advances.of_pure _
      · exact word_advances.bind fun _ => (inductionHypothesis (count - 32) (by omega)).bind fun _ =>
          Advances.of_pure _

private theorem belowWithin_advances (bound width attempts : Nat) : Advances (belowWithin bound width attempts) := by
  induction attempts with
  | zero => exact fun _ => Ensures.of_throw trivial
  | succ attempts inductionHypothesis =>
      unfold belowWithin
      refine (bits_advances width).bind fun candidate => ?_
      split
      · exact Advances.of_pure _
      · exact inductionHypothesis

theorem below_advances (bound : Nat) : Advances (below bound) := by
  intro source
  unfold below
  split
  · exact Ensures.of_throw trivial
  · exact Ensures.of_get_bind (belowWithin_advances bound _ _ source)

theorem fraction_takes (source : Source) :
    Ensures fraction source
      (fun value after => ∃ first second, source.Takes [first, second] after ∧ value = fractionOf first second)
      fun _ _ => True := by
  apply (word_takes source).bind_of
  intro first between firstTaken
  apply (word_takes between).bind_of
  intro second after secondTaken
  exact Ensures.of_pure ⟨first, second, firstTaken.append secondTaken, rfl⟩

end Draw

/-! ## Constants -/

/-- A constant that can be drawn. -/
def Instr.Drawn (instr : Instr) : Prop :=
  ∃ source rest, Rule.constant source = (.ok instr, rest)

private theorem Instr.drawn_constantOf (first second : UInt32) :
    (Rule.constantOf (Draw.fractionOf first second)).Drawn :=
  ⟨.listed [first, second], .listed [], rfl⟩

theorem Rule.constant_reliable : Reliable .outOfWords constant Instr.Drawn := by
  refine Draw.fraction_reliable.bind ?_
  intro value ended
  rcases ended with ⟨first, second, rfl⟩
  exact Reliable.of_pure (Instr.drawn_constantOf first second)

theorem Rule.constant_takes (source : Source) :
    Ensures constant source
      (fun instr after => ∃ first second, source.Takes [first, second] after ∧
        instr = constantOf (Draw.fractionOf first second))
      fun _ _ => True := by
  apply (Draw.fraction_takes source).bind_of
  rintro value after ⟨first, second, taken, rfl⟩
  exact Ensures.of_pure ⟨first, second, taken, rfl⟩

/-- A constant is drawn from two words, whatever the source of the words is. -/
theorem Instr.Drawn.eq_constantOf {instr : Instr} (drawn : instr.Drawn) :
    ∃ first second, instr = Rule.constantOf (Draw.fractionOf first second) := by
  rcases drawn with ⟨source, rest, ended⟩
  obtain ⟨first, second, -, stored⟩ := (Rule.constant_takes source).of_ok ended
  exact ⟨first, second, stored⟩

/-- What is drawn is stored in single precision. -/
theorem Instr.Drawn.eq_const {instr : Instr} (drawn : instr.Drawn) : ∃ value, instr = Instr.const value := by
  rcases drawn.eq_constantOf with ⟨first, second, rfl⟩
  exact ⟨_, rfl⟩

end EvoRaster
