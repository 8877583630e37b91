import Menus.Menu.Shortcuts
import Menus.Registry

/-!
# Checking templates

The problems of a registry that no reading reports: submenus that refer to menus nobody registered,
and accelerator hints that do not serve their entries. The menubar comes first, then the named
menus in order; within a menu the references come before the hints.
-/

namespace Menus

/-- A problem of a template. -/
inductive TemplateIssue where
  /-- A submenu refers to a menu that is not registered. -/
  | unresolvedSubmenu (menu label target : String)
  /-- An accelerator hint does not serve its entry. -/
  | shortcut (issue : ShortcutIssue)
deriving DecidableEq, Repr

namespace TemplateIssue

/-- The issue in words. The menubar has no name of its own. -/
def message : TemplateIssue → String
  | unresolvedSubmenu menu label target =>
    let shown := if menu.isEmpty then "<menubar>" else menu
    s!"menu '{shown}': submenu '{label}' refers to unknown menu '{target}'"
  | shortcut issue => issue.message

end TemplateIssue

namespace Registry

/-- The issue of a submenu that refers to no registered menu. -/
def unresolved? (registry : Registry) (menu : String) (entry : Entry Menu) :
    Option TemplateIssue :=
  match entry.target? with
  | some target =>
    if registry.hasMenu target then none else some (.unresolvedSubmenu menu entry.text target)
  | none => none

/-- The issues of one template. -/
def issuesOf (registry : Registry) (menu : Menu) : List TemplateIssue :=
  menu.entries.filterMap (registry.unresolved? menu.name) ++ menu.shortcutIssues.map .shortcut

/-- The issues of all templates. -/
def check (registry : Registry) : List TemplateIssue :=
  registry.sources.flatMap registry.issuesOf

end Registry

end Menus
