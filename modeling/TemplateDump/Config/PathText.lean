/-!
# Path texts

A path is a text whose names are separated by slashes; it is absolute if it starts with a slash.
The operations here look at the text alone and at no file: `names` cuts it at the slashes, `parent`
takes away its last name, and `join` adds a name.

`parent_length_lt` says that taking parents comes to an end.
-/

namespace TemplateDump.PathText

/-- A name between two slashes. -/
abbrev Name := List Char

/-! ## Names -/

/-- The names of a path text, cut at each slash. Slashes that follow one another, or stand at the
end, have an empty name between or behind them. -/
def names : List Char → List Name
  | [] => [[]]
  | c :: rest =>
    if c = '/' then [] :: names rest
    else
      match names rest with
      | [] => [[c]]
      | first :: others => (c :: first) :: others

/-- Whether a path starts at the root. -/
def isAbsolute (path : List Char) : Bool :=
  path.head? = some '/'

/-! ## Parents -/

/-- A path without its last name and the slashes in front of that; the parent of a name alone is
empty. A path of slashes alone, which has no name to take away, is its own parent, and so is the
empty path. -/
def parent (path : List Char) : List Char :=
  if path.all (· == '/') then path
  else
    match (path.reverse.dropWhile (· != '/')).dropWhile (· == '/') with
    | [] => if isAbsolute path then ['/'] else []
    | above => above.reverse

/-- A parent is the beginning of the path. -/
theorem parent_isPrefix (path : List Char) : parent path <+: path := by
  unfold parent
  split
  · exact List.prefix_rfl
  · have hsuffix : (path.reverse.dropWhile (· != '/')).dropWhile (· == '/') <:+ path.reverse :=
      (List.dropWhile_suffix _).trans (List.dropWhile_suffix _)
    split
    · cases path with
      | nil => simp [isAbsolute]
      | cons c rest =>
        by_cases hc : c = '/'
        · simp [isAbsolute, hc]
        · simp [isAbsolute, hc]
    · simpa using List.reverse_prefix.2 hsuffix

/-- A path that is not its own parent is longer than its parent. -/
theorem parent_length_lt {path : List Char} (h : parent path ≠ path) :
    (parent path).length < path.length := by
  have hbegin := parent_isPrefix path
  rcases Nat.lt_or_eq_of_le hbegin.length_le with hlt | heq
  · exact hlt
  · exact absurd (hbegin.eq_of_length heq) h

/-! ## Joining -/

/-- A path with a name added, behind a slash unless the path ends in one or is empty. -/
def join (path name : List Char) : List Char :=
  if path = [] ∨ path.getLast? = some '/' then path ++ name
  else path ++ '/' :: name

end TemplateDump.PathText
