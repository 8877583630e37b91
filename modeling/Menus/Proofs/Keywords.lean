import Mathlib.Data.List.Nodup
import Menus.Definition.Keyword

/-!
# Which tokens are keywords

A token spells a word when it is not quoted and agrees with the word up to the case of ASCII letters.
In a production whose words differ even when case is ignored, a token is a keyword if and only if it
spells one of the words, and it is the keyword of that word. All productions are of this kind, so
statements about what is read can name the words and need not mention the search through a table.
-/

namespace Menus

/-- The token is the word itself, not quoted, in capitals or small letters. -/
def Token.Spells (token : Token) (word : String) : Prop :=
  token.isQuoted = false ∧ Text.sameIgnoringCase word token.text = true

instance (token : Token) (word : String) : Decidable (token.Spells word) :=
  inferInstanceAs (Decidable (_ ∧ _))

/-- Texts agree up to case if and only if they fold to the same. -/
theorem Text.sameIgnoringCase_iff {first second : String} :
    sameIgnoringCase first second = true ↔ foldCase first = foldCase second := by
  rw [sameIgnoringCase, beq_iff_eq]

namespace Production

/-- No two words of the production agree up to case. -/
def Distinct (production : Production) : Prop :=
  (production.keywords.map fun pair => Text.foldCase pair.1).Nodup

instance (production : Production) : Decidable production.Distinct :=
  inferInstanceAs (Decidable (List.Nodup _))

theorem distinct_menuBody : menuBody.Distinct := by decide +kernel

theorem distinct_menuset : menuset.Distinct := by decide +kernel

theorem distinct_definition : definition.Distinct := by decide +kernel

/-- The token spells no word of the production, so it can be an argument there. -/
def Plain (production : Production) (token : Token) : Prop :=
  ∀ pair ∈ production.keywords, ¬token.Spells pair.1

instance (production : Production) (token : Token) : Decidable (production.Plain token) :=
  inferInstanceAs (Decidable (∀ pair ∈ production.keywords, ¬token.Spells pair.1))

variable {production : Production}

/-- A word that is found stands in the table. -/
theorem exists_of_find? {word : String} {keyword : Keyword}
    (found : production.find? word = some keyword) :
    ∃ listed, (listed, keyword) ∈ production.keywords ∧
      Text.sameIgnoringCase listed word = true := by
  rw [find?, Option.map_eq_some_iff] at found
  obtain ⟨⟨listed, _⟩, first, rfl⟩ := found
  have same := List.find?_some first
  exact ⟨listed, List.mem_of_find?_eq_some first, same⟩

/-- A word of the table is found as its own keyword, since no other word agrees with it. -/
theorem find?_of_mem (distinct : production.Distinct) {listed word : String} {keyword : Keyword}
    (member : (listed, keyword) ∈ production.keywords)
    (same : Text.sameIgnoringCase listed word = true) : production.find? word = some keyword := by
  have present : (production.keywords.find? fun pair =>
      Text.sameIgnoringCase pair.1 word).isSome = true := by
    rw [List.find?_isSome]
    exact ⟨_, member, same⟩
  obtain ⟨pair, first⟩ := Option.isSome_iff_exists.mp present
  have other := List.find?_some first
  have folded : Text.foldCase pair.1 = Text.foldCase listed :=
    (Text.sameIgnoringCase_iff.mp other).trans (Text.sameIgnoringCase_iff.mp same).symm
  have equal : pair = (listed, keyword) :=
    List.inj_on_of_nodup_map distinct (List.mem_of_find?_eq_some first) member folded
  rw [find?, first, equal]
  rfl

/-- A token is a keyword if and only if it spells its word. -/
theorem keyword?_eq_some_iff (distinct : production.Distinct) {token : Token} {keyword : Keyword} :
    production.keyword? token = some keyword ↔
      ∃ word, (word, keyword) ∈ production.keywords ∧ token.Spells word := by
  rw [keyword?]
  constructor
  · intro found
    split at found
    · cases found
    · rename_i bare
      obtain ⟨word, member, same⟩ := exists_of_find? found
      exact ⟨word, member, by simpa using bare, same⟩
  · rintro ⟨word, member, bare, same⟩
    rw [if_neg (by simp [bare])]
    exact find?_of_mem distinct member same

/-- A keyword for which the table has one word is spelled as that word. -/
theorem spells_of_keyword? (distinct : production.Distinct) {token : Token} {keyword : Keyword}
    {word : String} (known : production.keyword? token = some keyword)
    (only : ∀ entry ∈ production.keywords, entry.2 = keyword → entry.1 = word) :
    token.Spells word := by
  obtain ⟨listed, member, spells⟩ := (keyword?_eq_some_iff distinct).mp known
  have same : listed = word := only (listed, keyword) member rfl
  exact same ▸ spells

/-- A token is no keyword if and only if it spells no word. -/
theorem keyword?_eq_none_iff (distinct : production.Distinct) {token : Token} :
    production.keyword? token = none ↔ production.Plain token := by
  rw [Option.eq_none_iff_forall_ne_some]
  constructor
  · rintro unknown ⟨word, keyword⟩ member spells
    exact unknown keyword ((keyword?_eq_some_iff distinct).mpr ⟨word, member, spells⟩)
  · intro plain keyword found
    obtain ⟨word, member, spells⟩ := (keyword?_eq_some_iff distinct).mp found
    exact plain _ member spells

/-- A token can be an argument if and only if it spells no word. -/
theorem takesArgument_iff (distinct : production.Distinct) {token : Token} :
    production.takesArgument token = true ↔ production.Plain token := by
  rw [takesArgument, Option.isNone_iff_eq_none, keyword?_eq_none_iff distinct]

end Production

end Menus
