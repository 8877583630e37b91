import Menus.Entry
import Menus.Text.Comparison

/-!
# Accelerator hints

A hint serves its entry when it occurs in the entry's own label and no other entry of the menu has
the same hint. What fails this is reported and never changes the menu.
-/

namespace Menus

/-- What is wrong with an accelerator hint. -/
inductive ShortcutIssue where
  /-- The hint does not occur in the label it belongs to. -/
  | missing (menu label shortcut : String)
  /-- Two entries of a menu share a hint, given as the earlier one writes it. -/
  | duplicate (menu first second shortcut : String)
deriving DecidableEq, Repr

namespace ShortcutIssue

/-- The issue in words. -/
def message : ShortcutIssue → String
  | missing menu label shortcut =>
    s!"menu '{menu}': shortcut '{shortcut}' does not occur in '{label}'"
  | duplicate menu first second shortcut =>
    s!"menu '{menu}': '{first}' and '{second}' share the shortcut '{shortcut}'"

end ShortcutIssue

namespace Entry

/-- The hint does not occur in the label. -/
def lacksShortcut (entry : Entry Menu) : Bool :=
  !Text.occursIn entry.shortcut.toList entry.text.toList

/-- The hints of two entries agree, ASCII case ignored. -/
def sharesShortcut (first second : Entry Menu) : Bool :=
  Text.sameIgnoringCase first.shortcut second.shortcut

/-- The issues of an entry among the entries after it. An entry without a hint has none. -/
def shortcutIssues (menu : String) (entry : Entry Menu) (later : List (Entry Menu)) :
    List ShortcutIssue :=
  if entry.shortcut.isEmpty then []
  else
    (if entry.lacksShortcut then [.missing menu entry.text entry.shortcut] else []) ++
      (later.filter entry.sharesShortcut).map fun other =>
        .duplicate menu entry.text other.text entry.shortcut

end Entry

/-- The issues of the entries, each looking at the entries after it. -/
def shortcutIssuesOf (menu : String) : List (Entry Menu) → List ShortcutIssue
  | [] => []
  | entry :: later => entry.shortcutIssues menu later ++ shortcutIssuesOf menu later

/-- The issues of a menu, entry by entry. -/
def Menu.shortcutIssues (menu : Menu) : List ShortcutIssue :=
  shortcutIssuesOf menu.name menu.entries

end Menus
