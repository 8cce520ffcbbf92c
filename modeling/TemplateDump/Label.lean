/-!
# Labels

The values of an enumeration are shown by labels, and may be named by the position of the value in
the enumeration. A position that the enumeration does not have is shown as `Unknown`.

The labels of node classes end in `IntermediateNode`, which a dump leaves out.
-/

namespace TemplateDump

/-- What is shown for a position outside an enumeration. -/
def unknownLabel : String := "Unknown"

/-- The label at a position of an enumeration whose labels are given in order. -/
def labelAt (labels : List String) : Int → String
  | .ofNat i => labels.getD i unknownLabel
  | .negSucc _ => unknownLabel

/-- The ending of the labels of node classes. -/
def nodeSuffix : String := "IntermediateNode"

/-- A label without the ending `IntermediateNode`, which is removed once. -/
def shortLabelChars (label : List Char) : List Char :=
  if nodeSuffix.toList.isSuffixOf label then
    label.take (label.length - nodeSuffix.toList.length)
  else
    label

/-- A label without the ending `IntermediateNode`, which is removed once. -/
def shortLabel (label : String) : String :=
  String.ofList (shortLabelChars label.toList)

@[simp] theorem toList_shortLabel (label : String) :
    (shortLabel label).toList = shortLabelChars label.toList :=
  String.toList_ofList

/-- The ending is removed where it stands. -/
theorem shortLabelChars_append_suffix (label : List Char) :
    shortLabelChars (label ++ nodeSuffix.toList) = label := by
  have h : nodeSuffix.toList.isSuffixOf (label ++ nodeSuffix.toList) = true :=
    List.isSuffixOf_iff_suffix.2 ⟨label, rfl⟩
  rw [shortLabelChars, if_pos h]
  simp

end TemplateDump
