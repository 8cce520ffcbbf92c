import TemplateDump.Text.Decimal

/-!
# Source spans

A span says where in a file a piece of template source stands: the offset from the start of the
file, the line and the column of the first character, and the number of characters. Its written
form names the file by what follows the last slash of the path.

`fileNameChars_append_slash` and `fileNameChars_of_not_mem` determine that name.
-/

namespace TemplateDump

/-! ## Spans and their files -/

/-- A piece of template source. A span that is not placed has the path of no file and zeros. -/
structure SourceSpan where
  file : String := ""
  offset : Int := 0
  line : Int := 0
  column : Int := 0
  length : Int := 0
deriving DecidableEq, Inhabited

/-- What follows the last slash of a path, or the whole path if it has none. -/
def fileNameChars (path : List Char) : List Char :=
  (path.reverse.takeWhile (· != '/')).reverse

/-- What follows the last slash of a path, or the whole path if it has none. -/
def fileName (path : String) : String :=
  String.ofList (fileNameChars path.toList)

@[simp] theorem toList_fileName (path : String) :
    (fileName path).toList = fileNameChars path.toList :=
  String.toList_ofList

/-- A path without a slash is a file name. -/
theorem fileNameChars_of_not_mem {path : List Char} (h : '/' ∉ path) :
    fileNameChars path = path := by
  have hall : ∀ c ∈ path.reverse, (c != '/') = true := fun c hc =>
    bne_iff_ne.2 fun e => h (e ▸ List.mem_reverse.1 hc)
  have hself := @List.takeWhile_append_of_pos _ (· != '/') path.reverse [] hall
  rw [List.append_nil, List.takeWhile_nil, List.append_nil] at hself
  rw [fileNameChars, hself, List.reverse_reverse]

/-- What stands before the last slash does not matter. -/
theorem fileNameChars_append_slash (directory : List Char) {name : List Char} (h : '/' ∉ name) :
    fileNameChars (directory ++ '/' :: name) = name := by
  have hall : ∀ c ∈ name.reverse, (c != '/') = true := fun c hc =>
    bne_iff_ne.2 fun e => h (e ▸ List.mem_reverse.1 hc)
  have hrev : (directory ++ '/' :: name).reverse = name.reverse ++ '/' :: directory.reverse := by
    simp
  rw [fileNameChars, hrev, List.takeWhile_append_of_pos hall]
  simp

/-! ## The written form -/

/-- A span as `(offset:line,column [length] name)`. -/
def SourceSpan.chars (s : SourceSpan) : List Char :=
  '(' :: Text.intDigits s.offset ++ ':' :: Text.intDigits s.line ++
    ',' :: Text.intDigits s.column ++ [' ', '['] ++ Text.intDigits s.length ++ [']', ' '] ++
    fileNameChars s.file.toList ++ [')']

/-- A span as `(offset:line,column [length] name)`. -/
def SourceSpan.text (s : SourceSpan) : String :=
  String.ofList s.chars

@[simp] theorem SourceSpan.toList_text (s : SourceSpan) : s.text.toList = s.chars :=
  String.toList_ofList

end TemplateDump
