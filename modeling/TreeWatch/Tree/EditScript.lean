import TreeWatch.Tree.Edit

/-!
Batches of edits as lines of text.

A line that begins with a plus sign writes the file whose path follows, one that begins with a
minus sign removes what its path names, and an empty line ends a batch. Other lines say nothing.
-/

namespace TreeWatch.Edit

def ofLine? (line : String) : Option Edit :=
  match line.toList with
  | '+' :: path => some ⟨.ofText (String.ofList path), .file, none⟩
  | '-' :: path => some ⟨.ofText (String.ofList path), .nothing, none⟩
  | _ => none

/-- The batches of a script. Lines behind the last empty line are a batch of their own. -/
def batches (batch : List Edit) : List String → List (List Edit)
  | [] => if batch.isEmpty then [] else [batch]
  | line :: later =>
      if line = "" then batch :: batches [] later
      else batches (batch ++ (ofLine? line).toList) later

end TreeWatch.Edit
