import Mathlib.Data.List.Basic

/-!
# Pipelines of a shell

The part of the command language in which every word is one argument as it stands: words of
characters without a meaning of their own, with blanks between them and '|' between the commands.
What a shell makes of other text is left open.
-/

namespace ShellWords

abbrev Word := List Char

/-- A character that stands for itself in every place. -/
def plain (c : Char) : Bool := c.isAlphanum || "./:-_=@,+".toList.contains c

/-- Words that begin no command. -/
def reserved : List Word :=
  ["if", "then", "else", "elif", "fi", "do", "done", "case", "esac", "while", "until",
    "for"].map String.toList

structure PlainWord (w : Word) : Prop where
  nonempty : w ≠ []
  plain : w.all plain = true

/-- A command whose words are arguments as they stand. A first word with '=' is an assignment. -/
structure Simple (command : List Word) : Prop where
  some_word : command ≠ []
  words : ∀ w ∈ command, PlainWord w
  first : ∀ w ∈ command.head?, '=' ∉ w ∧ w ∉ reserved

instance (w : Word) : Decidable (PlainWord w) :=
  decidable_of_iff (w ≠ [] ∧ w.all plain = true)
    ⟨fun ⟨nonempty, plain⟩ => ⟨nonempty, plain⟩, fun ⟨nonempty, plain⟩ => ⟨nonempty, plain⟩⟩

instance (command : List Word) : Decidable (Simple command) :=
  decidable_of_iff (command ≠ [] ∧ (∀ w ∈ command, PlainWord w) ∧
      ∀ w ∈ command.head?, '=' ∉ w ∧ w ∉ reserved)
    ⟨fun ⟨some_word, words, first⟩ => ⟨some_word, words, first⟩,
      fun ⟨some_word, words, first⟩ => ⟨some_word, words, first⟩⟩

def words (text : List Char) : List Word := (text.splitOn ' ').filter (· ≠ [])

def command (text : List Char) : Option (List Word) :=
  if Simple (words text) then some (words text) else none

end ShellWords
