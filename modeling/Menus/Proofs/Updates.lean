import Menus.Proofs.Contributions

/-!
# Registries under updates

An application reads blocks of menus into its registry, adds single menus, merges other registries
and sets the exclusion menu, in any order. Each of these looks for a menu by its name and either
changes the menu it finds or puts a new one behind the others. So names stay distinct whatever was
done before, menus stay where they are registered, and an update changes no menu whose name it does
not mention.

Reading and merging are one thing here: both give entries to menus, one contribution after another,
and the contributions depend on what is read or merged alone. Only adding a menu can take entries
away.
-/

namespace Menus

/-- One update of a registry. -/
inductive Update where
  /-- Reads the body of a `menuset` block at a cursor. -/
  | read (cursor : Cursor)
  /-- Registers a menu in the place of the one of its name. -/
  | add (menu : Menu)
  /-- Takes over the menus of another registry. -/
  | merge (other : Registry)
  /-- Sets the exclusion menu. -/
  | exclude (exclusions : Menu)

namespace Registry

/-- The registry after an update. -/
def update (registry : Registry) : Update → Registry
  | .read cursor => (registry.read cursor).1
  | .add menu => registry.add menu
  | .merge other => registry.merge other
  | .exclude exclusions => registry.withExclusions exclusions

/-- The registry that updates make of an empty one. -/
def ofUpdates (updates : List Update) : Registry :=
  updates.foldl update {}

/-- The names of the registered menus, in order. -/
def names (registry : Registry) : List String :=
  registry.menus.map Menu.name

/-- What a registry gives to another one that it is merged into. -/
def contributions (registry : Registry) : List Contribution :=
  ⟨none, registry.menubar.entries⟩ ::
    registry.menus.map fun menu => ⟨some menu.name, menu.entries⟩

end Registry

namespace Update

/-- The entries an update gives to menus. -/
def contributions : Update → List Contribution
  | read cursor =>
    Statement.contributions (Passage.readMenuset cursor.file cursor.pending).statements
  | merge other => other.contributions
  | add _ | exclude _ => []

/-- The names an update mentions. -/
def mentions : Update → List String
  | read cursor => Contribution.names (read cursor).contributions
  | add menu => [menu.name]
  | merge other => other.names
  | exclude _ => []

end Update

/-- Names with one more, which stands last if it is new. -/
def withName (names : List String) (name : String) : List String :=
  if name ∈ names then names else names ++ [name]

/-- One more name leaves distinct names distinct. -/
theorem nodup_withName {names : List String} (distinct : names.Nodup) (name : String) :
    (withName names name).Nodup := by
  rw [withName]
  split
  · exact distinct
  · rename_i absent
    simpa [List.nodup_append] using ⟨distinct, fun other member => by
      rintro rfl
      exact absent member⟩

/-- One more name follows the others, if it is new. -/
theorem exists_withName_eq (names : List String) (name : String) :
    ∃ joining, withName names name = names ++ joining ∧ ∀ new ∈ joining, new = name := by
  rw [withName]
  split
  · exact ⟨[], by simp⟩
  · exact ⟨[name], by simp⟩

/-- The menus with the first one called `name` changed. If nobody has named it yet, a new menu joins
at the end. -/
def changeMenu (name : String) (change : Menu → Menu) (joining : Menu) : List Menu → List Menu
  | [] => [joining]
  | menu :: rest =>
    if menu.name = name then change menu :: rest else menu :: changeMenu name change joining rest

/-- The change, and the new menu in its absence, leave a menu called `name`. -/
structure KeepsName (name : String) (change : Menu → Menu) (joining : Menu) : Prop where
  changed : ∀ menu : Menu, menu.name = name → (change menu).name = name
  joins : joining.name = name

/-- Appending entries leaves the name. -/
theorem keepsName_append (name : String) (entries : List (Entry Menu)) :
    KeepsName name (fun menu => menu.append entries) ⟨name, entries⟩ :=
  ⟨fun _ same => same, rfl⟩

/-- A menu is put in the place of one of its name. -/
theorem keepsName_replace (menu : Menu) : KeepsName menu.name (fun _ => menu) menu :=
  ⟨fun _ _ => rfl, rfl⟩

/-- Extending a menu changes it. -/
theorem extendMenus_eq (name : String) (entries : List (Entry Menu)) (menus : List Menu) :
    extendMenus name entries menus =
      changeMenu name (fun menu => menu.append entries) ⟨name, entries⟩ menus := by
  induction menus with
  | nil => rfl
  | cons menu rest inductionHypothesis => rw [extendMenus, changeMenu, inductionHypothesis]

/-- Replacing a menu changes it. -/
theorem replaceMenu_eq (menu : Menu) (menus : List Menu) :
    replaceMenu menu menus = changeMenu menu.name (fun _ => menu) menu menus := by
  induction menus with
  | nil => rfl
  | cons first rest inductionHypothesis => rw [replaceMenu, changeMenu, inductionHypothesis]

section Change

variable {name : String} {change : Menu → Menu} {joining : Menu}
  (keeps : KeepsName name change joining) (menus : List Menu)

include keeps

/-- Changing a menu keeps the names, and a new one stands last. -/
theorem names_changeMenu :
    (changeMenu name change joining menus).map Menu.name = withName (menus.map Menu.name) name := by
  induction menus with
  | nil => simp [changeMenu, withName, keeps.joins]
  | cons menu rest inductionHypothesis =>
    by_cases same : menu.name = name
    · simp [changeMenu, withName, same, keeps.changed menu same]
    · simp only [changeMenu, if_neg same, List.map_cons, inductionHypothesis, withName,
        List.mem_cons, Ne.symm same, false_or]
      split <;> simp

/-- The changed menu is found under its name. -/
theorem find?_changeMenu :
    (changeMenu name change joining menus).find? (fun menu => menu.name == name) =
      some (((menus.find? fun menu => menu.name == name).map change).getD joining) := by
  induction menus with
  | nil => simp [changeMenu, keeps.joins]
  | cons menu rest inductionHypothesis =>
    by_cases same : menu.name = name
    · simp [changeMenu, same, keeps.changed menu same]
    · simpa [changeMenu, same] using inductionHypothesis

/-- Menus of other names stay as they are. -/
theorem find?_changeMenu_of_ne {other : String} (different : other ≠ name) :
    (changeMenu name change joining menus).find? (fun menu => menu.name == other) =
      menus.find? fun menu => menu.name == other := by
  induction menus with
  | nil => simp [changeMenu, keeps.joins, Ne.symm different]
  | cons menu rest inductionHypothesis =>
    by_cases same : menu.name = name
    · simp [changeMenu, same, keeps.changed menu same, Ne.symm different]
    · by_cases found : menu.name = other
      · simp [changeMenu, found, different]
      · simpa [changeMenu, same, found] using inductionHypothesis

end Change

/-- A name is mentioned if entries are given to a menu of that name. -/
theorem Contribution.mem_names {contributions : List Contribution} {name : String} :
    name ∈ names contributions ↔
      ∃ contribution ∈ contributions, contribution.menu = some name := by
  rw [names, List.mem_eraseDups, List.mem_filterMap]

/-- What is given to a menu twice is appended as if given at once. -/
theorem Menu.append_append (menu : Menu) (entries more : List (Entry Menu)) :
    (menu.append entries).append more = menu.append (entries ++ more) := by
  simp [append]

namespace Registry

variable (registry : Registry)

/-- A contribution keeps the names, and registers the menu it is for last if that is new. -/
theorem exists_names_contribute (contribution : Contribution) :
    ∃ joining, (registry.contribute contribution).names = registry.names ++ joining ∧
      ∀ name ∈ joining, contribution.menu = some name := by
  rw [contribute]
  split
  · exact ⟨[], by simp [names]⟩
  · rename_i name given
    obtain ⟨joining, joined, new⟩ := exists_withName_eq registry.names name
    refine ⟨joining, ?_, ?_⟩
    · rw [names, extendMenus_eq, names_changeMenu (keepsName_append name _)]
      exact joined
    · intro other member
      rw [given, new other member]

/-- A contribution leaves distinct names distinct. -/
theorem nodup_contribute {registry : Registry} (distinct : registry.names.Nodup)
    (contribution : Contribution) : (registry.contribute contribution).names.Nodup := by
  rw [contribute]
  split
  · exact distinct
  · rename_i name _
    rw [names, extendMenus_eq, names_changeMenu (keepsName_append name _)]
    exact nodup_withName distinct _

/-- A contribution changes the menu it is for, and no other. -/
theorem menu?_contribute (contribution : Contribution) (name : String) :
    (registry.contribute contribution).menu? name =
      if contribution.menu = some name then
        some (((registry.menu? name).getD (.empty name)).append contribution.entries)
      else registry.menu? name := by
  rw [contribute]
  split
  · rename_i menubar
    simp [menu?, menubar]
  · rename_i given named
    by_cases same : name = given
    · subst same
      rw [if_pos named, menu?, extendMenus_eq, find?_changeMenu (keepsName_append name _), menu?]
      cases registry.menus.find? fun menu => menu.name == name with
      | none => simp [Menu.empty, Menu.append]
      | some menu => rfl
    · rw [if_neg (by simpa [named] using Ne.symm same), menu?, extendMenus_eq]
      exact find?_changeMenu_of_ne (keepsName_append given _) _ same

variable (contributions : List Contribution)

/-- Contributions keep the names, and register menus they are for behind the others. -/
theorem exists_names_contributeAll :
    ∃ joining, (registry.contributeAll contributions).names = registry.names ++ joining ∧
      ∀ name ∈ joining, name ∈ Contribution.names contributions := by
  induction contributions using List.reverseRecOn with
  | nil => exact ⟨[], by simp [contributeAll]⟩
  | append_singleton contributions contribution inductionHypothesis =>
    obtain ⟨joining, joined, mentioned⟩ := inductionHypothesis
    obtain ⟨last, behind, given⟩ :=
      (registry.contributeAll contributions).exists_names_contribute contribution
    refine ⟨joining ++ last, by rw [contributeAll_concat, behind, joined, List.append_assoc], ?_⟩
    intro name member
    rw [Contribution.mem_names]
    rcases List.mem_append.mp member with early | late
    · obtain ⟨earlier, among, named⟩ := Contribution.mem_names.mp (mentioned name early)
      exact ⟨earlier, List.mem_append_left _ among, named⟩
    · exact ⟨contribution, List.mem_concat_self, given name late⟩

/-- Contributions leave distinct names distinct. -/
theorem nodup_contributeAll {registry : Registry} (distinct : registry.names.Nodup) :
    (registry.contributeAll contributions).names.Nodup := by
  induction contributions using List.reverseRecOn with
  | nil => exact distinct
  | append_singleton contributions contribution inductionHypothesis =>
    rw [contributeAll_concat]
    exact nodup_contribute inductionHypothesis contribution

/-- Contributions append to each menu they mention the entries for it, and change no other menu.

Proof: by induction on the contributions, the last one first. It appends its entries to those given
to the menu before. -/
theorem menu?_contributeAll (name : String) :
    (registry.contributeAll contributions).menu? name =
      if name ∈ Contribution.names contributions then
        some (((registry.menu? name).getD (.empty name)).append
          (Contribution.entriesFor (some name) contributions))
      else registry.menu? name := by
  induction contributions using List.reverseRecOn with
  | nil => simp [contributeAll, Contribution.names]
  | append_singleton contributions contribution inductionHypothesis =>
    have mentioned : name ∈ Contribution.names (contributions ++ [contribution]) ↔
        name ∈ Contribution.names contributions ∨ contribution.menu = some name := by
      simp [Contribution.mem_names, or_and_right, exists_or]
    rw [contributeAll_concat, menu?_contribute, inductionHypothesis,
      Contribution.entriesFor_concat]
    by_cases last : contribution.menu = some name
    · rw [if_pos last, if_pos last, if_pos (mentioned.mpr (.inr last))]
      by_cases before : name ∈ Contribution.names contributions
      · rw [if_pos before, Option.getD_some, Menu.append_append]
      · rw [if_neg before, Contribution.entriesFor_of_not_mem before, List.nil_append]
    · rw [if_neg last, if_neg last, List.append_nil]
      simp only [mentioned, last, or_false]

/-- Merging a registry is taking its contributions. -/
theorem merge_eq_contributeAll (other : Registry) :
    registry.merge other = registry.contributeAll other.contributions := by
  have menus (menus : List Menu) (start : Registry) :
      (menus.map fun menu => (⟨some menu.name, menu.entries⟩ : Contribution)).foldl contribute
          start =
        { start with
          menus := menus.foldl (fun menus menu => extendMenus menu.name menu.entries menus)
            start.menus } := by
    induction menus generalizing start with
    | nil => rfl
    | cons menu rest inductionHypothesis =>
      rw [List.map_cons, List.foldl_cons, inductionHypothesis]
      rfl
  rw [contributeAll, contributions, List.foldl_cons, menus]
  rfl

end Registry

/-- What is left behind a body is the end of its tokens. -/
theorem Body.read_rest_suffix (file : String) (tokens : List Token) :
    (read file tokens).rest <:+ tokens := by
  fun_induction read file tokens with
  | case1 => exact List.suffix_rfl
  | case3 => exact List.suffix_cons _ _
  | case6 | case7 => exact List.IsSuffix.trans (by assumption) List.nil_suffix
  | case2 | case4 | case5 | case10 =>
    exact List.IsSuffix.trans (by assumption) (List.suffix_cons _ _)
  | case9 => exact List.IsSuffix.trans (by assumption) (List.suffix_append [_, _] _)
  | case8 => exact List.IsSuffix.trans (by assumption) (List.suffix_append [_, _, _] _)

/-- The tokens name a menu: its name stands behind a `menu` keyword. -/
def NamesMenu (tokens : List Token) (name : String) : Prop :=
  ∃ keyword argument, [keyword, argument] <:+: tokens ∧
    Production.menuset.keyword? keyword = some .menu ∧ argument.text = name

/-- Names at the end of some tokens are among them. -/
theorem NamesMenu.of_suffix {tokens rest : List Token} {name : String} (named : NamesMenu rest name)
    (among : rest <:+ tokens) : NamesMenu tokens name := by
  obtain ⟨keyword, argument, adjacent, opens, same⟩ := named
  exact ⟨keyword, argument, adjacent.trans among.isInfix, opens, same⟩

/-- The contributions of statements one after another. -/
theorem Statement.contributions_append (first second : List Statement) :
    contributions (first ++ second) = contributions first ++ contributions second :=
  List.filterMap_append

/-- A body gives its entries to the menu it is read for. -/
theorem Statement.contributions_ofBody (menu : Option String) (body : Body) :
    contributions (ofBody menu body) = [⟨menu, body.entries⟩] := by
  simp [contributions, ofBody, contribution?, List.filterMap_map, Function.comp_def]

/-- A block of menus gives entries to menus that its tokens name. -/
theorem names_of_mem_readMenuset {file : String} {tokens : List Token} {contribution : Contribution}
    {name : String} (named : contribution.menu = some name)
    (given : contribution ∈
      Statement.contributions (Passage.readMenuset file tokens).statements) :
    NamesMenu tokens name := by
  fun_induction Passage.readMenuset file tokens with
  | case1 => simp [Statement.contributions, Statement.contribution?] at given
  | case2 => simp [Statement.contributions] at given
  | case3 token rest known body inductionHypothesis =>
    rw [Passage.after, Statement.contributions_append, Statement.contributions_ofBody] at given
    rcases List.mem_append.mp given with own | later
    · rw [List.mem_singleton.mp own] at named
      cases named
    · exact (inductionHypothesis later).of_suffix
        ((Body.read_rest_suffix file rest).trans (List.suffix_cons token rest))
  | case4 token known missing inductionHypothesis =>
    exact (inductionHypothesis given).of_suffix List.nil_suffix
  | case5 token known name afterName argument body inductionHypothesis =>
    rw [Passage.after, Statement.contributions_append, Statement.contributions_ofBody] at given
    rcases List.mem_append.mp given with own | later
    · rw [List.mem_singleton.mp own] at named
      cases named
      exact ⟨token, name, (List.prefix_append [token, name] afterName).isInfix, known, rfl⟩
    · exact (inductionHypothesis later).of_suffix
        ((Body.read_rest_suffix file afterName).trans (List.suffix_append [token, name] afterName))
  | case6 token known missing name afterName keyword inductionHypothesis =>
    exact (inductionHypothesis given).of_suffix (List.suffix_cons _ _)
  | case7 token rest _ _ _ inductionHypothesis =>
    exact (inductionHypothesis given).of_suffix (List.suffix_cons token rest)

/-- An update that does not add a menu mentions the names it gives entries to. -/
theorem Update.mem_mentions {update : Update} (other : ∀ menu, update ≠ .add menu) {name : String} :
    name ∈ update.mentions ↔ name ∈ Contribution.names update.contributions := by
  cases update with
  | read cursor => rfl
  | add menu => exact absurd rfl (other menu)
  | merge registry =>
    simp [mentions, contributions, Registry.contributions, Registry.names, Contribution.mem_names]
  | exclude exclusions => simp [mentions, contributions, Contribution.mem_names]

/-- What an update leaves of a registry, and what it changes. -/
structure Update.Extends (update : Update) (before after : Registry) : Prop where
  /-- Registered menus keep their order. Others join behind them if the update mentions them. -/
  order : ∃ joining, after.names = before.names ++ joining ∧
    ∀ name ∈ joining, name ∈ update.mentions
  /-- A menu that is not mentioned stays as it is, or stays away. -/
  others : ∀ name, name ∉ update.mentions → after.menu? name = before.menu? name
  /-- A menu that is added is registered as it is. -/
  added : ∀ menu, update = .add menu → after.menu? menu.name = some menu
  /-- All other updates leave the entries of a registered menu in front of those they give to it. -/
  appended : (∀ menu, update ≠ .add menu) → ∀ name menu, before.menu? name = some menu →
    after.menu? name =
      some (menu.append (Contribution.entriesFor (some name) update.contributions))

namespace Registry

variable {registry : Registry}

/-- Adding a menu replaces the one of its name, or puts it behind the others. -/
theorem extends_add (registry : Registry) (menu : Menu) :
    (Update.add menu).Extends registry (registry.add menu) where
  order := by
    obtain ⟨joining, joined, new⟩ := exists_withName_eq registry.names menu.name
    refine ⟨joining, ?_, ?_⟩
    · rw [add, names, replaceMenu_eq, names_changeMenu (keepsName_replace menu)]
      exact joined
    · intro name member
      rw [new name member]
      exact List.mem_singleton_self _
  others := by
    intro name unmentioned
    have different : name ≠ menu.name := by simpa [Update.mentions] using unmentioned
    rw [add, menu?, replaceMenu_eq]
    exact find?_changeMenu_of_ne (keepsName_replace menu) _ different
  added := by
    rintro _ ⟨⟩
    rw [add, menu?, replaceMenu_eq, find?_changeMenu (keepsName_replace menu)]
    cases registry.menus.find? fun other => other.name == menu.name <;> rfl
  appended other := absurd rfl (other menu)

/-- An update that gives entries to menus extends the registry by them. -/
theorem extends_contributeAll {update : Update} (other : ∀ menu, update ≠ .add menu)
    (registry : Registry) :
    update.Extends registry (registry.contributeAll update.contributions) := by
  refine ⟨?_, ?_, fun menu same => absurd same (other menu), ?_⟩
  · obtain ⟨joining, joined, given⟩ := registry.exists_names_contributeAll update.contributions
    exact ⟨joining, joined, fun name member => (Update.mem_mentions other).mpr (given name member)⟩
  · intro name unmentioned
    rw [menu?_contributeAll, if_neg (mt (Update.mem_mentions other).mpr unmentioned)]
  · intro _ name menu registered
    rw [menu?_contributeAll, registered]
    by_cases mentioned : name ∈ Contribution.names update.contributions
    · rw [if_pos mentioned, Option.getD_some]
    · rw [if_neg mentioned, Contribution.entriesFor_of_not_mem mentioned, Menu.append_nil]

/-- Every update extends the registry. -/
theorem extends_update (registry : Registry) (update : Update) :
    update.Extends registry (registry.update update) := by
  cases update with
  | read cursor => exact extends_contributeAll (fun _ same => by cases same) registry
  | add menu => exact registry.extends_add menu
  | merge other =>
    rw [Registry.update, merge_eq_contributeAll]
    exact extends_contributeAll (fun _ same => by cases same) registry
  | exclude exclusions =>
    have same : (Update.exclude exclusions).Extends registry registry :=
      extends_contributeAll (fun _ same => by cases same) registry
    exact ⟨same.order, same.others, same.added, same.appended⟩

/-- An update leaves distinct names distinct. -/
theorem nodup_update (distinct : registry.names.Nodup) (update : Update) :
    (registry.update update).names.Nodup := by
  cases update with
  | read cursor => exact nodup_contributeAll _ distinct
  | add menu =>
    rw [Registry.update, add, names, replaceMenu_eq, names_changeMenu (keepsName_replace menu)]
    exact nodup_withName distinct _
  | merge other =>
    rw [Registry.update, merge_eq_contributeAll]
    exact nodup_contributeAll _ distinct
  | exclude exclusions => exact distinct

/-- No update gives the menubar a name. -/
theorem name_menubar_update (registry : Registry) (update : Update) :
    (registry.update update).menubar.name = registry.menubar.name := by
  cases update with
  | read cursor => exact name_menubar_contributeAll _ registry
  | add menu | merge other | exclude exclusions => rfl

/-- However a registry was updated from an empty one, its menus have different names. -/
theorem nodup_ofUpdates (updates : List Update) : (ofUpdates updates).names.Nodup := by
  induction updates using List.reverseRecOn with
  | nil => exact List.nodup_nil
  | append_singleton updates update inductionHypothesis =>
    rw [ofUpdates, List.foldl_append]
    exact nodup_update inductionHypothesis update

/-- However a registry was updated from an empty one, its menubar has no name. -/
theorem name_menubar_ofUpdates (updates : List Update) :
    (ofUpdates updates).menubar.name = "" := by
  induction updates using List.reverseRecOn with
  | nil => rfl
  | append_singleton updates update inductionHypothesis =>
    rw [ofUpdates, List.foldl_append]
    exact (name_menubar_update _ update).trans inductionHypothesis

/-- However a registry was updated from an empty one, its menus have different names and its menubar
has none; and every further update leaves the menus where they are registered, changes only those it
mentions, and takes entries away only by adding a menu. A block of menus mentions no name but those
that stand behind a `menu` keyword in its tokens. -/
theorem updates_extend_registries (updates : List Update) :
    (ofUpdates updates).names.Nodup ∧ (ofUpdates updates).menubar.name = "" ∧
      (∀ update : Update, update.Extends (ofUpdates updates) (ofUpdates (updates ++ [update]))) ∧
      ∀ cursor, ∀ name ∈ (Update.read cursor).mentions, NamesMenu cursor.pending name := by
  refine ⟨nodup_ofUpdates updates, name_menubar_ofUpdates updates, ?_, ?_⟩
  · intro update
    rw [ofUpdates, ofUpdates, List.foldl_append]
    exact extends_update _ update
  · intro cursor name mentioned
    obtain ⟨contribution, given, named⟩ := Contribution.mem_names.mp mentioned
    exact names_of_mem_readMenuset named given

end Registry

end Menus
