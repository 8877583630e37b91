import Mathlib.Data.List.Chain
import Menus.Proofs.Expanded

/-!
# Separators of expanded menus

In an expanded menu and in every menu below it, separators stand between other entries: none comes
first, none comes last and no two are adjacent, whatever has been dropped around them.

While entries are placed, a separator may stand last. It is taken only behind an entry that is none,
and what is placed behind it starts with no separator, so the menu is started well after every step.
Taking one separator off the end then completes it.
-/

namespace Menus

/-- No separator comes first and no two are adjacent. One may come last. -/
structure Started (entries : List (Entry Menu)) : Prop where
  first : ∀ entry ∈ entries.head?, entry.isSeparator = false
  apart : entries.IsChain fun before after =>
    ¬(before.isSeparator = true ∧ after.isSeparator = true)

/-- No separator comes first or last and no two are adjacent. -/
structure Separated (entries : List (Entry Menu)) : Prop extends Started entries where
  last : ∀ entry ∈ entries.getLast?, entry.isSeparator = false

/-- Entries that hold no separator are separated. -/
theorem separated_of_items {entries : List (Entry Menu)}
    (items : ∀ entry ∈ entries, entry.isSeparator = false) : Separated entries where
  first entry head := items entry (List.mem_of_mem_head? head)
  apart := by
    refine List.IsChain.imp_of_mem_imp (fun before after among _ _ both => ?_)
      (List.isChain_isInfix entries)
    exact absurd both.1 (by simp [items before among])
  last entry final := items entry (List.mem_of_mem_getLast? final)

namespace Started

/-- Entries started well may follow others, also behind a separator. -/
theorem append {before after : List (Entry Menu)} (left : Started before)
    (right : Started after) : Started (before ++ after) where
  first entry head := by
    cases before with
    | nil => exact right.first entry head
    | cons top rest => exact left.first entry head
  apart := by
    refine left.apart.append right.apart fun last _ next head both => ?_
    exact absurd both.2 (by simp [right.first next head])

/-- A separator may follow an entry that is none. -/
theorem add_separator {menu : Menu} {divider : Entry Menu} (started : Started menu.entries)
    (behind : menu.endsInItem = true) : Started (menu.entries ++ [divider]) where
  first entry head := by
    cases held : menu.entries with
    | nil => simp [Menu.endsInItem, held] at behind
    | cons top rest =>
      rw [held] at head
      exact started.first entry (by rwa [held])
  apart := by
    refine started.apart.append (List.isChain_singleton _) fun last final next _ both => ?_
    rw [Menu.endsInItem, Option.mem_def.mp final] at behind
    simp [both.1] at behind

/-- Taking a separator off the end leaves no separator there. -/
theorem dropTrailingSeparator {menu : Menu} (started : Started menu.entries) :
    Separated menu.dropTrailingSeparator.entries := by
  rw [Menu.dropTrailingSeparator]
  split
  · rename_i last final
    obtain ⟨before, held⟩ := List.getLast?_eq_some_iff.mp final
    split
    · rename_i divides
      simp only [held, List.dropLast_concat]
      have parts := List.isChain_append.mp (held ▸ started.apart)
      refine ⟨⟨fun entry head => ?_, parts.1⟩, fun entry ending => ?_⟩
      · exact started.first entry (by rw [held, List.head?_append, Option.mem_def.mp head]; rfl)
      · have divided := parts.2.2 entry ending last (by simp)
        simpa [divides] using divided
    · rename_i item
      refine ⟨started, fun entry ending => ?_⟩
      rw [final] at ending
      cases ending
      simpa using item
  · rename_i none
    refine ⟨started, fun entry ending => ?_⟩
    rw [none] at ending
    cases ending

end Started

/-- A generated list starts well. -/
theorem Listed.started {entries : List (Entry Menu)} (listed : Listed entries) :
    Started entries := by
  cases listed with
  | plain shown => exact (separated_of_items fun entry member =>
      (shown entry member).isSeparator_eq_false).toStarted
  | @headed first rest firstShown nonempty shown =>
    have divided : Started [first, .separator] :=
      ⟨fun entry head => by cases head; exact firstShown.isSeparator_eq_false,
        List.isChain_pair.mpr fun both => by simp [firstShown.isSeparator_eq_false] at both⟩
    exact divided.append (separated_of_items fun entry member =>
      (shown entry member).isSeparator_eq_false).toStarted

namespace Registry

variable (registry : Registry) (context : Context)

/-- What an entry contributes starts well, unless the entry is a separator. -/
theorem started_contribution {entry : Entry Menu} (item : entry.isSeparator = false) :
    Started (registry.contribution context entry) := by
  have single : Started (entry.kept? context.statusOf).toList := by
    refine (separated_of_items fun kept member => ?_).toStarted
    have kind := Entry.kind_of_kept (Option.mem_toList.mp member)
    simpa only [Entry.isSeparator, kind] using item
  rw [contribution]
  split
  · split
    · exact (separated_of_items fun _ absent => absurd absent List.not_mem_nil).toStarted
    · exact single
  · exact (Generator.listed_entries _ context).started
  · exact single

/-- A separator contributes itself. -/
theorem contribution_of_separator {entry : Entry Menu} (divides : entry.isSeparator = true) :
    registry.contribution context entry = [entry] := by
  cases kind : entry.kind <;> simp_all [Entry.isSeparator, contribution, Entry.kept?]

/-- Placing an entry keeps a menu started well. -/
theorem started_place {menu : Menu} (started : Started menu.entries) (entry : Entry Menu) :
    Started (registry.place context menu entry).entries := by
  rw [place_eq]
  split
  · exact started
  · rename_i taken
    rw [Menu.entries_append]
    cases divides : entry.isSeparator with
    | false => exact started.append (registry.started_contribution context divides)
    | true =>
      rw [contribution_of_separator registry context divides]
      exact started.add_separator (by simpa [divides] using taken)

/-- Placing any number of entries keeps a menu started well. -/
theorem started_foldl_place {menu : Menu} (started : Started menu.entries)
    (entries : List (Entry Menu)) :
    Started (entries.foldl (registry.place context) menu).entries := by
  induction entries generalizing menu with
  | nil => exact started
  | cons entry rest inductionHypothesis =>
    exact inductionHypothesis (registry.started_place context started entry)

/-- The entries of a menu put together are separated. -/
theorem separated_assemble (name : String) (entries : List (Entry Menu)) :
    Separated (registry.assemble context name entries).entries := by
  have fresh : Started (Menu.empty name).entries :=
    (separated_of_items fun _ absent => absurd absent List.not_mem_nil).toStarted
  exact (registry.started_foldl_place context fresh entries).dropTrailingSeparator

end Registry

/-- In an expanded menu and in every menu below it, no separator comes first or last and no two are
adjacent.

Proof: menus put together from a template are separated by construction, and the menus of generated
submenus hold no separator at all. -/
theorem separators_divide_entries (registry : Registry) (context : Context) (source : Menu)
    (expanded : Expanded) (returned : registry.expand? context source = some expanded) :
    expanded.menu.Everywhere fun menu => Separated menu.entries := by
  refine registry.expanded_everywhere context ?_ ?_ returned
  · intro menu shown
    exact separated_of_items fun entry member => (shown entry member).isSeparator_eq_false
  · intro name entries _
    exact registry.separated_assemble context name entries

/-- Separators at both ends of a menu, around a command that is dropped, in front of a generated list
that holds a separator of its own, and around one that is empty. -/
theorem separators_divide_what_is_left :
    ∃ expanded,
      Registry.expand? { menus := [⟨"again", [.separator, .submenu "Again" "again", .separator]⟩] }
        { statusOf := fun request => if request.action = "lost" then {} else .enabled
          document := some { master := some (.ofMenu "buffer-switch" "book") } }
        ⟨"", [.separator, .submenu "Again" "again", .separator, .command "Lost" (.ofMenu "lost" ""),
          .separator, { kind := .generated .contents }, .separator,
          { kind := .generated .bookmarks }, .separator]⟩ = some expanded ∧
      expanded.menu.entries.map Entry.label =
        ["Again", "", "Master Document", "", "No Table of contents"] ∧
      expanded.menu.Everywhere fun menu => Separated menu.entries := by
  refine ⟨?expanded, ?returned, ?labels, separators_divide_entries _ _ _ _ ?returned⟩
  case returned => rfl
  case labels => rfl

end Menus
