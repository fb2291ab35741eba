import Mathlib.Computability.RegularExpressions
import Mathlib.Data.List.Lex

/-!
# Patterns of words in their order

Words over an ordered alphabet are compared at the first place where they
differ.  The patterns here fix a prefix, restrict the symbol after it and leave
the rest open, so that their words lie on one side of a given word.
-/

namespace RegularExpression

variable {Symbol : Type*}

/-- The expression of a single word. -/
def literal : List Symbol → RegularExpression Symbol
  | [] => 1
  | symbol :: rest => char symbol * literal rest

/-- One of several symbols. -/
def oneOf : List Symbol → RegularExpression Symbol
  | [] => 0
  | symbol :: rest => char symbol + oneOf rest

variable {word text symbols : List Symbol} {first second : RegularExpression Symbol}

theorem mem_comp : text ∈ (first * second).matches' ↔
    ∃ one ∈ first.matches', ∃ other ∈ second.matches', one ++ other = text := by
  rw [matches'_mul, Language.mem_mul]

@[simp]
theorem mem_literal : text ∈ (literal word).matches' ↔ text = word := by
  induction word generalizing text with
  | nil => exact Iff.rfl
  | cons symbol rest ih =>
      rw [literal, mem_comp]
      constructor
      · rintro ⟨one, rfl, other, mem, rfl⟩
        rw [ih.mp mem]
        rfl
      · rintro rfl
        exact ⟨[symbol], rfl, rest, ih.mpr rfl, rfl⟩

@[simp]
theorem mem_oneOf : text ∈ (oneOf symbols).matches' ↔ ∃ symbol ∈ symbols, text = [symbol] := by
  induction symbols with
  | nil =>
      constructor
      · exact False.elim
      · rintro ⟨symbol, mem, _⟩
        contradiction
  | cons symbol rest ih =>
      rw [oneOf, matches'_add, Language.mem_add, ih]
      constructor
      · rintro (same | ⟨other, mem, same⟩)
        · exact ⟨symbol, List.mem_cons_self, same⟩
        · exact ⟨other, List.mem_cons_of_mem _ mem, same⟩
      · rintro ⟨other, mem, same⟩
        rcases List.mem_cons.mp mem with rfl | later
        · exact .inl same
        · exact .inr ⟨other, later, same⟩

@[simp]
theorem mem_star_oneOf :
    text ∈ (oneOf symbols).star.matches' ↔ ∀ symbol ∈ text, symbol ∈ symbols := by
  rw [matches'_star, Language.mem_kstar]
  constructor
  · rintro ⟨words, rfl, single⟩ symbol mem
    obtain ⟨word, inWords, inWord⟩ := List.mem_flatten.mp mem
    obtain ⟨other, inSymbols, rfl⟩ := mem_oneOf.mp (single word inWords)
    rwa [List.mem_singleton.mp inWord]
  · intro all
    refine ⟨text.map fun symbol => [symbol], ?_, ?_⟩
    · induction text with
      | nil => rfl
      | cons symbol rest ih =>
          rw [List.map_cons, List.flatten_cons,
            ← ih fun other mem => all other (List.mem_cons_of_mem _ mem)]
          rfl
    · intro word mem
      obtain ⟨symbol, inText, rfl⟩ := List.mem_map.mp mem
      exact mem_oneOf.mpr ⟨symbol, all symbol inText, rfl⟩

/-- A fixed prefix, one of several symbols, and any symbols of an alphabet. -/
theorem mem_branch {alphabet : List Symbol} :
    text ∈ (literal word * oneOf symbols * (oneOf alphabet).star).matches' ↔
      ∃ symbol ∈ symbols, ∃ rest, (∀ other ∈ rest, other ∈ alphabet) ∧
        text = word ++ symbol :: rest := by
  constructor
  · intro mem
    obtain ⟨start, inStart, rest, inRest, rfl⟩ := mem_comp.mp mem
    obtain ⟨same, isWord, single, inSymbols, rfl⟩ := mem_comp.mp inStart
    obtain ⟨symbol, isSymbol, rfl⟩ := mem_oneOf.mp inSymbols
    rw [mem_literal.mp isWord]
    exact ⟨symbol, isSymbol, rest, mem_star_oneOf.mp inRest, by simp⟩
  · rintro ⟨symbol, isSymbol, rest, inRest, rfl⟩
    refine mem_comp.mpr ⟨word ++ [symbol], ?_, rest, mem_star_oneOf.mpr inRest, by simp⟩
    exact mem_comp.mpr ⟨word, mem_literal.mpr rfl, [symbol], mem_oneOf.mpr ⟨symbol, isSymbol, rfl⟩,
      rfl⟩

end RegularExpression

namespace List

variable {Symbol : Type*} [LinearOrder Symbol]

/-- The first difference decides. -/
theorem append_cons_lt_append_cons {one other : Symbol} (less : one < other)
    (word first second : List Symbol) : word ++ one :: first < word ++ other :: second :=
  Lex.append_left _ (.rel less) word

theorem lt_append_cons (word : List Symbol) (symbol : Symbol) (rest : List Symbol) :
    word < word ++ symbol :: rest := by
  have longer : word ++ [] < word ++ symbol :: rest := Lex.append_left _ .nil word
  rwa [append_nil] at longer

theorem dropLast_lt {word : List Symbol} (nonempty : word ≠ []) : word.dropLast < word := by
  have longer := lt_append_cons word.dropLast (word.getLast nonempty) []
  rwa [dropLast_append_getLast] at longer

/-- One of two words extends the other, or they part at some place. -/
theorem parting (first second : List Symbol) :
    (∃ rest, first = second ++ rest) ∨ (∃ symbol rest, second = first ++ symbol :: rest) ∨
      ∃ kept one after other rest, first = kept ++ one :: after ∧
        second = kept ++ other :: rest ∧ one ≠ other := by
  induction first generalizing second with
  | nil =>
      cases second with
      | nil => exact .inl ⟨[], rfl⟩
      | cons symbol rest => exact .inr (.inl ⟨symbol, rest, rfl⟩)
  | cons one first ih =>
      cases second with
      | nil => exact .inl ⟨one :: first, rfl⟩
      | cons other second =>
          by_cases same : one = other
          · subst other
            rcases ih second with ⟨rest, rfl⟩ | ⟨symbol, rest, rfl⟩ |
              ⟨kept, one, after, other, rest, rfl, rfl, differ⟩
            · exact .inl ⟨rest, rfl⟩
            · exact .inr (.inl ⟨symbol, rest, rfl⟩)
            · exact .inr (.inr ⟨_ :: kept, one, after, other, rest, rfl, rfl, differ⟩)
          · exact .inr (.inr ⟨[], one, first, other, second, rfl, rfl, same⟩)

/-- A word lies on one side of all words with a prefix that it does not have. -/
theorem lt_or_gt_of_not_prefix {word bound : List Symbol} (parts : ¬ word <+: bound) :
    (∀ text, word <+: text → text < bound) ∨ ∀ text, word <+: text → bound < text := by
  rcases parting bound word with ⟨rest, rfl⟩ | ⟨symbol, rest, rfl⟩ |
    ⟨kept, one, after, other, rest, rfl, rfl, differ⟩
  · exact absurd (prefix_append word rest) parts
  · right
    rintro _ ⟨more, rfl⟩
    rw [append_assoc]
    exact lt_append_cons bound symbol (rest ++ more)
  · rcases lt_or_gt_of_ne differ with less | greater
    · right
      rintro _ ⟨more, rfl⟩
      rw [append_assoc]
      exact append_cons_lt_append_cons less kept after (rest ++ more)
    · left
      rintro _ ⟨more, rfl⟩
      rw [append_assoc]
      exact append_cons_lt_append_cons greater kept (rest ++ more) after

end List
