import Mathlib.Data.List.DropRight
import Menus.Request

/-!
# Command strings as texts of requests

A command string names an action and gives it an argument. How many blanks stand around the string and
behind the action does not matter, while every blank inside the argument does. So a request has one
text among all command strings that ask for it: the one it is displayed as, in which a single space
stands behind the action. Reading this text gives the request back, and two command strings ask for the
same thing exactly when they differ in nothing but the blanks that do not matter.

What makes this work is how a text without blanks at its ends is made up. It is one word, or it is a
word, blanks, and a rest that is again without blanks at its ends and not empty.
-/

namespace Menus

namespace Text

/-- The text with its first run of blanks replaced by one space. -/
def spacedOnce : List Char → List Char
  | [] => []
  | c :: rest => if isBlank c then ' ' :: trimStart rest else c :: spacedOnce rest

/-- No blank is in the text. -/
def IsWord (text : List Char) : Prop := ∀ c ∈ text, isBlank c = false

/-- No blank stands at either end of the text. -/
structure Trimmed (text : List Char) : Prop where
  start : ∀ c ∈ text.head?, isBlank c = false
  stop : ∀ c ∈ text.getLast?, isBlank c = false

/-- A text without blanks in front starts with none. -/
theorem head?_trimStart (text : List Char) : ∀ c ∈ (trimStart text).head?, isBlank c = false := by
  intro c leads
  have stopped := List.head?_dropWhile_not isBlank text
  rw [trimStart, Option.mem_def] at leads
  rwa [leads] at stopped

/-- Trimming leaves no blank at the ends. -/
theorem trimmed_trim (text : List Char) : Trimmed (trim text) := by
  constructor
  · intro c leads
    have front : trim text <+: trimStart text := List.rdropWhile_prefix isBlank _
    obtain ⟨later, split⟩ := front
    apply head?_trimStart text c
    rw [← split, List.head?_append, Option.mem_def.mp leads]
    rfl
  · intro c ends
    obtain ⟨nonempty, rfl⟩ := List.mem_getLast?_eq_getLast ends
    have stopped := List.rdropWhile_last_not isBlank (trimStart text) nonempty
    exact Bool.eq_false_iff.mpr stopped

/-- Nothing is trimmed off a text without blanks at its ends. -/
theorem Trimmed.trim_eq {text : List Char} (trimmed : Trimmed text) : trim text = text := by
  have front : trimStart text = text := by
    cases text with
    | nil => rfl
    | cons c rest =>
      have shown : isBlank c = false := trimmed.start c rfl
      rw [trimStart, List.dropWhile_cons_of_neg (by simp [shown])]
  have back : text.rdropWhile isBlank = text := by
    rw [List.rdropWhile_eq_self_iff]
    intro nonempty
    have shown := trimmed.stop _ (List.getLast?_eq_getLast_of_ne_nil nonempty)
    simp [shown]
  rw [trim, front]
  exact back

/-- A text that is made up of a first word and what follows the blanks behind it. Where there are no
blanks, nothing follows. -/
inductive Parted : List Char → List Char → List Char → Prop where
  | alone {word : List Char} (isWord : IsWord word) : Parted word word []
  | pair {word gap rest : List Char} (isWord : IsWord word) (named : word ≠ []) (divided : gap ≠ [])
      (blank : ∀ c ∈ gap, isBlank c = true) (nonempty : rest ≠ []) (trimmed : Trimmed rest) :
      Parted (word ++ (gap ++ rest)) word rest

/-- What follows the blanks behind a front part has no blanks at its ends either. -/
theorem Trimmed.behind {front rest : List Char} (trimmed : Trimmed (front ++ rest)) :
    Trimmed (trimStart rest) := by
  constructor
  · exact head?_trimStart rest
  · intro c ends
    have behind : trimStart rest <:+ rest := List.dropWhile_suffix isBlank
    obtain ⟨gap, split⟩ := behind
    apply trimmed.stop c
    rw [← split, List.getLast?_append, List.getLast?_append, Option.mem_def.mp ends]
    rfl

/-- Something follows the blanks behind a front part, unless the front part is all there is. -/
theorem Trimmed.trimStart_ne_nil {front rest : List Char} (trimmed : Trimmed (front ++ rest))
    (nonempty : rest ≠ []) : trimStart rest ≠ [] := by
  intro nothing
  have blank := List.dropWhile_eq_nil_iff.mp nothing _ (List.getLast_mem nonempty)
  have shown := trimmed.stop (rest.getLast nonempty) (by
    rw [List.getLast?_append_of_ne_nil _ nonempty]
    exact List.getLast?_eq_getLast_of_ne_nil nonempty)
  rw [shown] at blank
  cases blank

/-- A text without blanks at its ends is made up of its first word and what follows. -/
theorem Trimmed.parted {text : List Char} (trimmed : Trimmed text) :
    Parted text (firstWord text) (afterFirstWord text) := by
  have isWord : IsWord (firstWord text) := by
    intro c member
    simpa using List.mem_takeWhile_imp member
  have split : firstWord text ++ text.dropWhile (fun c => !isBlank c) = text :=
    List.takeWhile_append_dropWhile
  have stopped := List.head?_dropWhile_not (fun c => !isBlank c) text
  rw [afterFirstWord]
  generalize text.dropWhile (fun c => !isBlank c) = behind at split stopped ⊢
  generalize firstWord text = word at isWord split ⊢
  subst split
  -- behind the first word there is nothing, or a blank and then something that is none
  cases behind with
  | nil =>
    rw [List.append_nil]
    exact .alone isWord
  | cons c others =>
    have begins : isBlank c = true := by simpa using stopped
    have named : word ≠ [] := by
      rintro rfl
      have shown := trimmed.start c rfl
      rw [begins] at shown
      cases shown
    have divided : (c :: others).takeWhile isBlank ≠ [] := by simp [begins]
    have made := Parted.pair isWord named divided (fun _ => List.mem_takeWhile_imp)
      (trimmed.trimStart_ne_nil (List.cons_ne_nil c others)) trimmed.behind
    rwa [trimStart, List.takeWhile_append_dropWhile] at made

namespace Parted

variable {text word rest : List Char}

/-- The first part is a word. -/
theorem isWord (parted : Parted text word rest) : IsWord word := by
  cases parted with
  | alone isWord => exact isWord
  | pair isWord => exact isWord

/-- The second part has no blanks at its ends. -/
theorem trimmed_rest (parted : Parted text word rest) : Trimmed rest := by
  cases parted with
  | alone => exact ⟨by simp, by simp⟩
  | pair _ _ _ _ _ trimmed => exact trimmed

/-- The text has no blanks at its ends. -/
theorem trimmed (parted : Parted text word rest) : Trimmed text := by
  cases parted with
  | alone isWord =>
    constructor
    · intro c leads
      exact isWord c (List.mem_of_head? leads)
    · intro c ends
      exact isWord c (List.mem_of_getLast? ends)
  | pair isWord named _ _ nonempty trimmed =>
    constructor
    · intro c leads
      rw [List.head?_append_of_ne_nil _ named] at leads
      exact isWord c (List.mem_of_head? leads)
    · intro c ends
      rw [List.getLast?_append_of_ne_nil _ (by simp [nonempty]),
        List.getLast?_append_of_ne_nil _ nonempty] at ends
      exact trimmed.stop c ends

/-- The parts are what is read as the first word and as what follows it. -/
theorem reads (parted : Parted text word rest) :
    firstWord text = word ∧ afterFirstWord text = rest := by
  cases parted with
  | alone isWord =>
    have plain : ∀ c ∈ text, (!isBlank c) = true := by
      intro c member
      simp [isWord c member]
    constructor
    · rw [firstWord, List.takeWhile_eq_self_iff.mpr plain]
    · rw [afterFirstWord, List.dropWhile_eq_nil_iff.mpr plain]
      rfl
  | @pair _ gap _ isWord named divided blank nonempty trimmed =>
    have plain : ∀ c ∈ word, (!isBlank c) = true := by
      intro c member
      simp [isWord c member]
    obtain ⟨c, others, rfl⟩ := List.exists_cons_of_ne_nil divided
    have stopped : isBlank c = true := blank c List.mem_cons_self
    constructor
    · rw [firstWord, List.takeWhile_append_of_pos plain, List.cons_append]
      simp [stopped]
    · have left : (word ++ (c :: others ++ rest)).dropWhile (fun c => !isBlank c) =
          c :: others ++ rest := by
        rw [List.dropWhile_append_of_pos plain, List.cons_append]
        simp [stopped]
      obtain ⟨d, later, rfl⟩ := List.exists_cons_of_ne_nil nonempty
      have shown : isBlank d = false := trimmed.start d rfl
      rw [afterFirstWord, left, trimStart, List.dropWhile_append_of_pos blank]
      simp [shown]

end Parted

/-- The text of a word and of what follows it, with one space between them. -/
def written (word rest : List Char) : List Char :=
  if rest = [] then word else word ++ ' ' :: rest

/-- A word is the text before the first blank. -/
theorem spacedOnce_append {word : List Char} (isWord : IsWord word) (rest : List Char) :
    spacedOnce (word ++ rest) = word ++ spacedOnce rest := by
  induction word with
  | nil => rfl
  | cons c others inductionHypothesis =>
    obtain ⟨plain, later⟩ := List.forall_mem_cons.mp isWord
    rw [List.cons_append, spacedOnce, plain, inductionHypothesis later]
    rfl

namespace Parted

variable {text word rest : List Char}

/-- With its first run of blanks replaced by one space, a text is what its parts are written as. -/
theorem spacedOnce_eq (parted : Parted text word rest) : spacedOnce text = written word rest := by
  cases parted with
  | alone isWord =>
    have spaced := spacedOnce_append isWord []
    rwa [List.append_nil, spacedOnce, List.append_nil] at spaced
  | @pair _ gap _ isWord named divided blank nonempty trimmed =>
    obtain ⟨c, others, rfl⟩ := List.exists_cons_of_ne_nil divided
    obtain ⟨stopped, further⟩ := List.forall_mem_cons.mp blank
    obtain ⟨d, later, rfl⟩ := List.exists_cons_of_ne_nil nonempty
    have shown : isBlank d = false := trimmed.start d rfl
    rw [spacedOnce_append isWord, List.cons_append, spacedOnce, stopped, if_pos rfl, trimStart,
      List.dropWhile_append_of_pos further, List.dropWhile_cons_of_neg (by simp [shown]), written,
      if_neg nonempty]

/-- The text that the parts are written as is made up of them. -/
theorem parted_written (parted : Parted text word rest) : Parted (written word rest) word rest := by
  cases parted with
  | alone isWord => exact .alone isWord
  | pair isWord named _ _ nonempty trimmed =>
    have space : ∀ c ∈ [' '], isBlank c = true := List.forall_mem_singleton.mpr (by decide)
    rw [written, if_neg nonempty]
    exact .pair isWord named (List.cons_ne_nil _ _) space nonempty trimmed

end Parted

end Text

namespace Request

/-- A command string, without the blanks at its ends, is made up of the action and the argument. -/
theorem parted_ofCommand (command : String) :
    Text.Parted (Text.trim command.toList) (ofCommand command).action.toList
      (ofCommand command).argument.toList := by
  have parted := (Text.trimmed_trim command.toList).parted
  rwa [← String.toList_ofList (l := Text.firstWord _),
    ← String.toList_ofList (l := Text.afterFirstWord _)] at parted

/-- A request is displayed as its action and its argument are written. -/
theorem toList_display (request : Request) :
    request.display.toList = Text.written request.action.toList request.argument.toList := by
  rw [display, Text.written]
  by_cases none : request.argument = ""
  · simp [none]
  · have something : request.argument.toList ≠ [] := by simpa using none
    simp [none, something]

/-- What is made up of the action and the argument of a request is read as this request. -/
theorem ofCommand_of_parted {request : Request} {command : String}
    (parted : Text.Parted command.toList request.action.toList request.argument.toList) :
    ofCommand command = ofMenu request.action request.argument := by
  obtain ⟨first, behind⟩ := parted.reads
  rw [ofCommand, parted.trimmed.trim_eq, first, behind, String.ofList_toList, String.ofList_toList]

/-- The text of a request that was read is read as this request. -/
theorem ofCommand_display (command : String) :
    ofCommand (ofCommand command).display = ofCommand command := by
  have parted := (parted_ofCommand command).parted_written
  rw [← toList_display] at parted
  exact ofCommand_of_parted parted

/-- The text of a request is the command string without the blanks that do not matter. -/
theorem display_ofCommand (command : String) :
    (ofCommand command).display.toList = Text.spacedOnce (Text.trim command.toList) := by
  rw [toList_display, (parted_ofCommand command).spacedOnce_eq]

/-- Requests that ask for the same thing have the same text. -/
theorem Same.display_eq {first second : Request} (same : Same first second) :
    first.display = second.display := by
  rw [display, display, same.1, same.2]

/-- A command string is read as an action without blanks and an argument without blanks at its ends.
The text of the request is read as the same request, which has the same text again. Two command strings
ask for the same thing if and only if they are alike once the blanks at their ends are trimmed and the
first run of blanks that is left is replaced by one space. -/
theorem commands_are_read_up_to_spacing :
    (∀ command : String,
      (∀ c ∈ (ofCommand command).action.toList, Text.isBlank c = false) ∧
        Text.Trimmed (ofCommand command).argument.toList ∧
        Same (ofCommand (ofCommand command).display) (ofCommand command) ∧
        (ofCommand (ofCommand command).display).display = (ofCommand command).display) ∧
      ∀ first second : String,
        Same (ofCommand first) (ofCommand second) ↔
          Text.spacedOnce (Text.trim first.toList) = Text.spacedOnce (Text.trim second.toList) := by
  constructor
  · intro command
    have parted := parted_ofCommand command
    refine ⟨parted.isWord, parted.trimmed_rest, ?_, ?_⟩
    · rw [ofCommand_display]
      exact same_refl _
    · rw [ofCommand_display]
  · intro first second
    rw [← display_ofCommand, ← display_ofCommand]
    constructor
    · intro same
      rw [same.display_eq]
    · intro alike
      rw [← ofCommand_display first, ← ofCommand_display second, String.toList_inj.mp alike]
      exact same_refl _

/-- Tabs and line ends around and behind the action do not matter, and two spaces inside the argument
do. -/
example : Same (ofCommand "\tfile-open \n a  b ") (ofCommand "file-open a  b") ∧
    ¬ Same (ofCommand "file-open a b") (ofCommand "file-open a  b") := by
  decide

end Request

end Menus
