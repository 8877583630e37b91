import Menus.Proofs.Levels
import Mathlib.Data.List.Forall2

/-!
# Lines of a printed tree

A printed tree has a line for each entry that is shown, behind the drawing that places the entry. What a
line shows of an entry is copied as it is: the label, the request, the key binding. So a printed tree has
as many line ends as entries and as the copied texts have line ends between them, and the lines are those
of the entries exactly where no copied text has a line end.
-/

namespace Menus

mutual

/-- The entries of a menu and of the submenus below it, down to a level. The entries of the menu itself
are at level 0; without a level they are all entries of the tree. -/
def Menu.entriesDownTo (level : Option Nat) : Menu → List (Entry Menu)
  | ⟨_, entries⟩ => entriesOfRun level entries

/-- The entries of a run and of the submenus below it, down to a level. -/
def entriesOfRun (level : Option Nat) : List (Entry Menu) → List (Entry Menu)
  | [] => []
  | ⟨.submenu name (some child), label, optional, status⟩ :: rest =>
    ⟨.submenu name (some child), label, optional, status⟩ ::
      ((if level = some 0 then [] else child.entriesDownTo (level.map (· - 1))) ++
        entriesOfRun level rest)
  | entry :: rest => entry :: entriesOfRun level rest

end

/-- The rows of a tree are those of its entries, down to the level that the limit leaves. -/
theorem entries_of_rows :
    (∀ (rails : List Bool) (menu : Menu) (level : Option Nat),
      (menu.rows (level.map (rails.length + ·)) rails).map Row.entry = menu.entriesDownTo level) ∧
    ∀ (rails : List Bool) (entries : List (Entry Menu)) (level : Option Nat),
      (rowsOf (level.map (rails.length + ·)) rails entries).map Row.entry =
        entriesOfRun level entries := by
  apply Menu.rows.mutual_induct
  case case1 =>
    intro rails name entries inductionHypothesis level
    exact inductionHypothesis level
  case case2 =>
    intro rails level
    rfl
  case case3 =>
    intro rails name child label optional status rest inChild inRest level
    rw [rowsOf, entriesOfRun, List.map_cons, List.map_append, inRest level]
    congr 2
    cases level with
    | none => exact inChild none
    | some limit =>
      cases limit with
      | zero => simp [opensAt]
      | succ further =>
        have opens : opensAt (some (rails.length + (further + 1))) rails = true := by simp [opensAt]
        have deeper := inChild (some further)
        rw [Option.map_some, List.length_append, List.length_singleton, Nat.add_assoc,
          Nat.add_comm 1] at deeper
        rw [Option.map_some, opens, if_pos rfl]
        exact deeper
  case case4 =>
    intro rails entry rest leaf inRest level
    rw [rowsOf, entriesOfRun, List.map_cons, inRest level]
    · exact leaf
    · exact leaf

/-- The text has no line end. -/
def OneLine (text : String) : Prop := '\n' ∉ text.toList

instance (text : String) : Decidable (OneLine text) := inferInstanceAs (Decidable (_ ∉ _))

/-- The texts that a line shows of an entry as they are. -/
def Entry.texts (bindingsOf : Request → List String) (options : DisplayOptions)
    (entry : Entry Menu) : List String :=
  if entry.isSeparator then []
  else
    [entry.text, entry.shortcut] ++
      (if options.commands then (entry.request?.map Request.display).toList else []) ++
      if options.bindings then [Row.binding bindingsOf entry] else []

variable {bindingsOf : Request → List String} {options : DisplayOptions}

/-- A caption breaks where text and hint of the entry do. -/
theorem count_caption (entry : Entry Menu) :
    (Row.caption entry).toList.count '\n' =
      entry.text.toList.count '\n' + entry.shortcut.toList.count '\n' := by
  have bracketed : s!" ({entry.shortcut})" = " (" ++ entry.shortcut ++ ")" := rfl
  have mark : (if entry.isSubmenu then " ▸" else "").toList.count '\n' = 0 := by
    split <;> decide
  have hint : (if entry.shortcut.isEmpty then "" else s!" ({entry.shortcut})").toList.count '\n' =
      entry.shortcut.toList.count '\n' := by
    split
    · rename_i none
      rw [String.isEmpty_iff.mp none]
    · rw [bracketed]
      simp
  rw [Row.caption, String.toList_append, String.toList_append, String.toList_append,
    List.count_append, List.count_append, List.count_append, mark, hint]
  split <;> simp

/-- The characters of texts. -/
def characters (texts : List String) : List Char := texts.flatMap String.toList

theorem characters_append (front rest : List String) :
    characters (front ++ rest) = characters front ++ characters rest := List.flatMap_append

/-- Without styles, what is shown of an entry breaks where the texts shown of it do. -/
theorem count_content (plain : options.styled = false) (entry : Entry Menu) :
    (Row.content bindingsOf options entry).toList.count '\n' =
      (characters (entry.texts bindingsOf options)).count '\n' := by
  rw [Row.content, Entry.texts, plain]
  split
  · decide
  · have spaced (text : String) : s!"  {text}" = "  " ++ text := rfl
    have bracketed (text : String) : s!"  [{text}]" = "  [" ++ text ++ "]" := rfl
    simp only [Style.paint_false, ite_self, spaced, bracketed]
    have bound : (if options.bindings && !(Row.binding bindingsOf entry).isEmpty then
        "  [" ++ Row.binding bindingsOf entry ++ "]" else "").toList.count '\n' =
          (characters (if options.bindings then [Row.binding bindingsOf entry] else [])).count
            '\n' := by
      by_cases none : Row.binding bindingsOf entry = "" <;>
        cases options.bindings <;> simp [characters, none]
    rw [String.toList_append, String.toList_append, List.count_append, List.count_append,
      count_caption, bound, characters_append, List.count_append, Nat.add_right_cancel_iff]
    cases options.commands <;> cases entry.request? <;> simp [characters, Nat.add_assoc]

/-- No line end is drawn in front of an entry. -/
theorem not_mem_drawing (row : Row) : '\n' ∉ row.drawing.toList := by
  have rails : ∀ shown : List Bool,
      '\n' ∉ (String.join (shown.map fun last => if last then "   " else "│  ")).toList := by
    intro shown
    rw [String.toList_join, List.mem_flatMap]
    rintro ⟨text, member, inside⟩
    obtain ⟨last, -, rfl⟩ := List.mem_map.mp member
    cases last
    · exact absurd inside (by decide)
    · exact absurd inside (by decide)
  have connector (last : Bool) : '\n' ∉ (if last then "└─" else "├─").toList := by
    cases last <;> decide
  rw [Row.drawing, String.toList_append, List.mem_append, not_or]
  exact ⟨rails row.rails, connector row.last⟩

/-- The line of a row, without the line end. -/
def Row.body (bindingsOf : Request → List String) (options : DisplayOptions) (row : Row) : List Char :=
  row.drawing.toList ++ (Row.content bindingsOf options row.entry).toList

/-- The texts shown of a menu. -/
def Menu.texts (bindingsOf : Request → List String) (options : DisplayOptions) (menu : Menu) :
    List String :=
  (menu.entriesDownTo options.depth).flatMap (Entry.texts bindingsOf options)

/-- What is printed are the lines of the rows. -/
theorem toList_render (menu : Menu) :
    (menu.render bindingsOf options).toList =
      ((menu.rows options.depth []).map (Row.body bindingsOf options)).flatMap (· ++ ['\n']) := by
  rw [Menu.render, String.toList_join, List.flatMap_map, List.flatMap_map]
  apply List.flatMap_congr
  intro row _
  rw [Row.line, String.toList_append, String.toList_append, Row.body]
  rfl

/-- A row breaks where the texts shown of its entry do. -/
theorem count_body (plain : options.styled = false) (row : Row) :
    (row.body bindingsOf options).count '\n' =
      (characters (row.entry.texts bindingsOf options)).count '\n' := by
  rw [Row.body, List.count_append, List.count_eq_zero.mpr (not_mem_drawing row), Nat.zero_add,
    count_content plain]

/-- The entries of the rows that are printed are those down to the limit. -/
theorem Menu.map_entry_rows (menu : Menu) (limit : Option Nat) :
    (menu.rows limit []).map Row.entry = menu.entriesDownTo limit := by
  have shown := entries_of_rows.1 [] menu limit
  have same : limit.map (([] : List Bool).length + ·) = limit := by
    cases limit <;> simp
  rwa [same] at shown

/-- Lines that are ended one by one have a line end each, besides those inside. -/
theorem count_ended (lines : List (List Char)) :
    (lines.flatMap (· ++ ['\n'])).count '\n' = lines.length + lines.flatten.count '\n' := by
  induction lines with
  | nil => rfl
  | cons line rest inductionHypothesis =>
    rw [List.flatMap_cons, List.flatten_cons, List.length_cons, List.count_append, List.count_append,
      List.count_append, List.count_singleton_self, inductionHypothesis]
    omega

/-- A printed tree has a line end for each entry shown, and those of the texts shown. -/
theorem count_render (plain : options.styled = false) (menu : Menu) :
    (menu.render bindingsOf options).toList.count '\n' =
      (menu.entriesDownTo options.depth).length +
        (characters (menu.texts bindingsOf options)).count '\n' := by
  have broken : List.count '\n' ∘ Row.body bindingsOf options =
      fun row => (characters (row.entry.texts bindingsOf options)).count '\n' :=
    funext (count_body plain)
  rw [toList_render, count_ended, Menu.texts, ← menu.map_entry_rows, List.length_map, List.length_map,
    List.count_flatten, List.map_map, broken, characters, List.flatMap_assoc, List.count_flatMap,
    List.map_map]
  rfl

/-- A text has one line for each row, and each line begins with what is drawn in front of the entry. -/
def OneLineEach (rows : List Row) (text : String) : Prop :=
  ∃ lines : List (List Char), text.toList = lines.flatMap (· ++ ['\n']) ∧
    (∀ line ∈ lines, '\n' ∉ line) ∧
    List.Forall₂ (fun row line => row.drawing.toList <+: line) rows lines

/-- A text with one line for each row has as many line ends as rows. -/
theorem OneLineEach.count {rows : List Row} {text : String} (each : OneLineEach rows text) :
    text.toList.count '\n' = rows.length := by
  obtain ⟨lines, same, unbroken, drawn⟩ := each
  have none : '\n' ∉ lines.flatten := by
    intro inside
    obtain ⟨line, member, breaks⟩ := List.mem_flatten.mp inside
    exact unbroken line member breaks
  rw [same, count_ended, drawn.length_eq, List.count_eq_zero.mpr none, Nat.add_zero]

/-- Exactly where no text shown has a line end, a printed tree has one line for each entry shown. -/
theorem oneLineEach_render_iff (plain : options.styled = false) (menu : Menu) :
    OneLineEach (menu.rows options.depth []) (menu.render bindingsOf options) ↔
      ∀ text ∈ menu.texts bindingsOf options, OneLine text := by
  constructor
  · intro each text isShown inside
    have total := each.count
    rw [count_render plain, ← menu.map_entry_rows, List.length_map, Nat.add_eq_left,
      List.count_eq_zero] at total
    exact total (List.mem_flatMap.mpr ⟨text, isShown, inside⟩)
  · intro unbroken
    refine ⟨(menu.rows options.depth []).map (Row.body bindingsOf options), toList_render menu, ?_, ?_⟩
    · rw [List.forall_mem_map]
      intro row member
      rw [← List.count_eq_zero, count_body plain, List.count_eq_zero]
      intro inside
      obtain ⟨text, isShown, breaks⟩ := List.mem_flatMap.mp inside
      refine unbroken text (List.mem_flatMap.mpr ⟨row.entry, ?_, isShown⟩) breaks
      rw [← menu.map_entry_rows]
      exact List.mem_map_of_mem member
    · rw [List.forall₂_map_right_iff, List.forall₂_same]
      exact fun row _ => List.prefix_append _ _

end Menus
